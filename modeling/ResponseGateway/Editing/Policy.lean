import ResponseGateway.Editing.OperationsRoundTrip
import ResponseGateway.Library.JsonNumber
import ResponseGateway.Library.JsonText

/-!
`editing`: the policy, the JSON form of the two structured representations, the
Code Mode wrapper program and the patch envelope rule. Deserialization follows the
derived implementations: a struct is an object with exactly its fields, each once,
or an array of them in order, and the tag of an operation is a field of its own.
-/

namespace ResponseGateway.Editing
open Ir Lines Checked

inductive ClientContract where
  | direct
  | codeMode
  deriving DecidableEq, Repr

inductive Representation where
  | operations
  | patchText
  | contextLines
  deriving DecidableEq, Repr

inductive PatchDialect where
  | codexPatch
  deriving DecidableEq, Repr

inductive Normalization where
  | none
  | patchEnvelope
  deriving DecidableEq, Repr

structure Policy where
  version : Nat
  clientContract : ClientContract
  representation : Representation
  patchDialect : PatchDialect
  normalization : Normalization
  clientDescriptorSha256 : Option String
  deriving DecidableEq, Repr

def ClientContract.name : ClientContract → String
  | direct => "codex-direct-custom/v1"
  | codeMode => "codex-code-mode/v1"

def Representation.name : Representation → String
  | operations => "operations/v1"
  | patchText => "patch-text/v1"
  | contextLines => "context-lines/v1"

def PatchDialect.name : PatchDialect → String
  | codexPatch => "codex-patch/1"

def Normalization.name : Normalization → String
  | none => "none"
  | patchEnvelope => "patch-envelope/v1"

/-- The serialized policy, in field order. -/
def Policy.toJson (policy : Policy) : Json :=
  .object ([("version", .number (Json.Number.ofNat policy.version)),
    ("client_contract", .string policy.clientContract.name),
    ("representation", .string policy.representation.name),
    ("patch_dialect", .string policy.patchDialect.name),
    ("normalization", .string policy.normalization.name)] ++
    (policy.clientDescriptorSha256.map fun digest =>
      ("client_descriptor_sha256", Json.string digest)).toList)

/-- A digest as 64 lower-case hex digits. -/
def isDigestText (text : String) : Bool :=
  text.utf8ByteSize = 64 &&
    text.toUTF8.toList.all fun b => (0x30 ≤ b && b ≤ 0x39) || (0x61 ≤ b && b ≤ 0x66)

def Policy.validate (policy : Policy) : Except IrError Unit :=
  let descriptorValid := match policy.clientContract with
    | .direct => policy.clientDescriptorSha256.isNone
    | .codeMode => policy.clientDescriptorSha256.any isDigestText
  rejectIf (policy.version ≠ 1 || !descriptorValid ||
    (policy.clientContract = .codeMode && policy.normalization ≠ .none)) .unsupportedVersion

section Serialization

/-- The limit of `serde_json` on nested arrays and objects. -/
def maxNesting : Nat := 127

def textJson (text : Text) : Json := .string (String.ofList text)

def linesJson (lines : List Text) : Json := .array (lines.map textJson)

def ContextEdit.toJson (edit : ContextEdit) : Json :=
  .object [("path", textJson edit.path), ("before_context", linesJson edit.beforeContext),
    ("old_lines", linesJson edit.oldLines), ("new_lines", linesJson edit.newLines),
    ("after_context", linesJson edit.afterContext)]

def ContextEdit.schema : Json :=
  let lines : Json := .object [("items", .object [("type", .string "string")]),
    ("type", .string "array")]
  .object [("additionalProperties", .bool false),
    ("properties", .object [("after_context", lines), ("before_context", lines),
      ("new_lines", lines), ("old_lines", lines), ("path", .object [("type", .string "string")])]),
    ("required", .array [.string "path", .string "before_context", .string "old_lines",
      .string "new_lines", .string "after_context"]),
    ("type", .string "object")]

def Operation.toJson : Operation → Json
  | create path lines =>
      .object [("operation", .string "create"), ("path", textJson path), ("lines", linesJson lines)]
  | delete path => .object [("operation", .string "delete"), ("path", textJson path)]
  | move source destination context =>
      .object [("operation", .string "move"), ("source", textJson source),
        ("destination", textJson destination), ("context", linesJson context)]
  | update edit => .object [("operation", .string "update"), ("edit", edit.toJson)]

/-- The schema of one operation: the tag joins the properties, all are required. -/
def Operation.schema (name : String) (properties : Json.Fields) : Json :=
  let properties := Assoc.insert "operation"
    (.object [("enum", .array [.string name]), ("type", .string "string")]) properties
  .object [("additionalProperties", .bool false), ("properties", .object properties),
    ("required", .array (properties.map fun (key, _) => .string key)), ("type", .string "object")]

def OperationBundle.schema : Json :=
  let string : Json := .object [("type", .string "string")]
  let lines : Json := .object [("items", string), ("type", .string "array")]
  let variants : List Json := [
    Operation.schema "create" [("lines", lines), ("path", string)],
    Operation.schema "delete" [("path", string)],
    Operation.schema "move" [("context", lines), ("destination", string), ("source", string)],
    Operation.schema "update" [("edit", ContextEdit.schema)]]
  .object [("additionalProperties", .bool false),
    ("properties", .object [("operations", .object [("items", .object [("anyOf", .array variants)]),
      ("type", .string "array")])]),
    ("required", .array [.string "operations"]), ("type", .string "object")]

def OperationBundle.toJson (bundle : OperationBundle) : Json :=
  .object [("operations", .array (bundle.operations.map Operation.toJson))]

/-- The values of a struct's fields, from an object with unknown fields denied or
from an array. -/
def structFields (names : List String) : Json → Option (List Json)
  | .object fields =>
      if (fields.map Prod.fst).Nodup ∧ ∀ key ∈ fields.map Prod.fst, key ∈ names then
        names.mapM fun name => fields.lookup name
      else none
  | .array items => if items.length = names.length then some items else none
  | _ => none

/-- An internally tagged enum: the tag and the content without it. -/
def taggedContent (tag : String) : Json → Option (String × Json)
  | .object fields =>
      match fields.filter (·.1 = tag) with
      | [(_, .string name)] => some (name, .object (fields.filter (·.1 ≠ tag)))
      | _ => none
  | .array (.string name :: rest) => some (name, .array rest)
  | _ => none

def textOfJson (value : Json) : Option Text := value.asStr.map String.toList

def linesOfJson (value : Json) : Option (List Text) := value.asArray.bind (·.mapM textOfJson)

def ContextEdit.ofJson (value : Json) : Option ContextEdit := do
  let values ← structFields
    ["path", "before_context", "old_lines", "new_lines", "after_context"] value
  match values with
  | [path, beforeContext, oldLines, newLines, afterContext] =>
      let path ← textOfJson path
      let beforeContext ← linesOfJson beforeContext
      let oldLines ← linesOfJson oldLines
      let newLines ← linesOfJson newLines
      let afterContext ← linesOfJson afterContext
      return { path, beforeContext, oldLines, newLines, afterContext }
  | _ => none

/-- The content of an operation, by its tag. -/
def Operation.ofContent (name : String) (content : Json) : Option Operation :=
  match name with
  | "create" => do
      let values ← structFields ["path", "lines"] content
      match values with
      | [path, lines] => return .create (← textOfJson path) (← linesOfJson lines)
      | _ => none
  | "delete" => do
      let values ← structFields ["path"] content
      match values with
      | [path] => return .delete (← textOfJson path)
      | _ => none
  | "move" => do
      let values ← structFields ["source", "destination", "context"] content
      match values with
      | [source, destination, context] =>
          return .move (← textOfJson source) (← textOfJson destination) (← linesOfJson context)
      | _ => none
  | "update" => do
      let values ← structFields ["edit"] content
      match values with
      | [edit] => return .update (← ContextEdit.ofJson edit)
      | _ => none
  | _ => none

def Operation.ofJson (value : Json) : Option Operation := do
  let (name, content) ← taggedContent "operation" value
  Operation.ofContent name content

def OperationBundle.ofJson (value : Json) : Option OperationBundle := do
  let values ← structFields ["operations"] value
  match values with
  | [operations] => return ⟨← operations.asArray.bind (·.mapM Operation.ofJson)⟩
  | _ => none

/-- `serde_json::from_str`, of a type read by the given function. -/
def fromStr {α : Type} (ofJson : Json → Option α) (raw : Text) : Option α :=
  (Json.parse maxNesting raw).bind ofJson

def ContextEdit.fromJson (raw : Text) : Except IrError ContextEdit := do
  rejectIf (raw.len > maxText) .sizeLimit
  okOr (fromStr ContextEdit.ofJson raw) invalid

def OperationBundle.fromJson (raw : Text) : Except IrError OperationBundle := do
  rejectIf (raw.len > maxText) .sizeLimit
  okOr (fromStr OperationBundle.ofJson raw) invalid

end Serialization

section CodeMode

def wrapperStart : Text := "const result = await tools.apply_patch(".toList
def wrapperEnd : Text := ");\ntext(result);".toList

def helperProgram (patch : Text) : Except IrError Text := do
  Grammar.codexPatchV1.validate patch
  let program := wrapperStart ++ Json.renderString patch ++ wrapperEnd
  rejectIf (program.len > maxText) .sizeLimit
  return program

def helperPatch (program : Text) : Except IrError Text := do
  rejectIf (program.len > maxText) .sizeLimit
  let encoded ←
    okOr ((program.dropPrefix? wrapperStart).bind (·.dropSuffix? wrapperEnd)) invalid
  let patch ← okOr (fromStr textOfJson encoded) invalid
  let rebuilt ← helperProgram patch
  rejectIf (rebuilt ≠ program) invalid
  return patch

end CodeMode

section Envelope

structure NormalizedPatch where
  text : Text
  appliedRule : Option String
  deriving DecidableEq, Repr

def beginLine : Text := "*** Begin Patch".toList
def starredBegin : Text := "*** Begin Patch ***".toList
def starredEnd : Text := "*** End Patch ***".toList

def normalizePatchEnvelope (text : Text) : Except IrError NormalizedPatch := do
  rejectIf (text.len > maxText) .sizeLimit
  let unchanged : NormalizedPatch := ⟨text, none⟩
  let terminalLf := text.getLast? = some '\n'
  let body := (text.dropSuffix? ['\n']).getD text
  match body.dropInfix? ['\n'] with
  | none => return unchanged
  | some (first, rest) =>
      match rsplitOnce '\n' rest with
      | none => return unchanged
      | some (middle, last) =>
          if ¬(first = beginLine ∨ first = starredBegin) ∨
              ¬(last = endPatch ∨ last = starredEnd) ∨ (first = beginLine ∧ last = endPatch) then
            return unchanged
          else
            let corrected := beginPatch ++ middle ++ ['\n'] ++ endPatch ++
              if terminalLf then ['\n'] else []
            Grammar.codexPatchV1.validate corrected
            return ⟨corrected, some "patch-envelope/v1"⟩

end Envelope

namespace Representation

variable (toLowercase : Text → Text)

def compile (representation : Representation) (raw : Text) : Except IrError Text :=
  match representation with
  | contextLines => do
      let edit ← ContextEdit.fromJson raw
      edit.compile
  | operations => do
      let bundle ← OperationBundle.fromJson raw
      bundle.compile toLowercase
  | patchText => .error invalid

def decode (representation : Representation) (patch : Text) : Except (Fault IrError) Text :=
  match representation with
  | contextLines => do
      let edit ← lift (ContextEdit.fromPatch patch)
      return edit.toJson.render
  | operations => do
      let bundle ← OperationBundle.fromPatch toLowercase patch
      return bundle.toJson.render
  | patchText => .error (.error invalid)

def schema : Representation → Json
  | operations => OperationBundle.schema
  | _ => ContextEdit.schema

end Representation
end ResponseGateway.Editing
