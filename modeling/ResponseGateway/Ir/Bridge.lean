import ResponseGateway.Editing.Policy
import ResponseGateway.Ir.Digest
import ResponseGateway.Ir.Request
import ResponseGateway.Library.FreshName
import ResponseGateway.Library.Method

/-!
`ir::bridge`: the registry between the client's tools and the tools exposed to a
provider, and the lowering and restoring of calls. The digest function is a
parameter, and so is the check that function arguments are the text of an object.
Where the source expects a value to be there, the model panics. The set of
normalized calls behind the mutex is the only state that restoring a call changes.
-/

namespace ResponseGateway.Ir
open Checked Json Request Editing

def patchGrammarSha256 : Digest := #v[
    0xd6, 0x36, 0x7f, 0x48, 0x26, 0xed, 0x60, 0x8c, 0x42, 0x4b, 0x0a, 0x30, 0x8f, 0x3d, 0x61, 0x63,
    0x52, 0x7d, 0xf6, 0x3c, 0x22, 0x51, 0x3d, 0x08, 0x9b, 0x91, 0x86, 0x35, 0x52, 0xf8, 0xbf, 0xeb]

def execGrammarSha256 : Text :=
  "8eead048e20069c17fcd0b6fe5ee9ed29364868723f8e08889de146a2b4b7a8e".toList

structure Binding where
  normalize : Bool
  structured : Option Representation
  original : ToolIdentity
  grammar : Option Grammar
  wrapped : Bool
  deriving DecidableEq, Repr

structure CustomToolBridge where
  codeMode : Bool
  forward : OrderedMap ToolIdentity ToolIdentity
  reverse : OrderedMap ToolIdentity Binding
  definitions : List ToolDefinition
  normalized : OrderedMap CallId Unit

section Build

variable (sha256 : String → Digest)

def Grammar.fromFormatForContract (format : Option Json) (codeMode : Bool) :
    Except IrError Grammar :=
  match format with
  | none => return .text
  | some format => do
      let fields ← okOr format.asObject .unsupportedFeature
      if format.fieldStr "type" = some "text" ∧ fields.length = 1 then return .text
      else if format.fieldStr "type" = some "grammar" ∧ fields.length = 3 ∧
          format.fieldStr "syntax" = some "lark" then
        let definition ← okOr (format.fieldStr "definition") .unsupportedFeature
        if codeMode ∧ hex (sha256 definition).toList = execGrammarSha256 then
          return .codeModeSourceV1
        else
          rejectIf (sha256 definition ≠ patchGrammarSha256) .unsupportedFeature
          return .codexPatchV1
      else .error .unsupportedFeature

def optionalText (text : Option String) : Json := (text.map Json.string).getD .null

/-- A member of a namespace, with the namespace's description when it is lost. -/
def memberLeaf (flattenNamespaces : Bool) (group child : ToolDefinition) :
    Except IrError ToolDefinition := do
  rejectIf (child.identity.namespace ≠ some group.identity.name || child.isGroup)
    .invalidToolMapping
  match flattenNamespaces, group.description with
  | true, some description =>
      return { child with description := some (renderText (.object [
        ("namespace", .string group.identity.name), ("namespace_description", .string description),
        ("tool_description", optionalText child.description)])) }
  | _, _ => return child

/-- The first loop of `build`, with the namespaces seen so far. -/
def collectLeaves (flattenNamespaces : Bool) :
    List String → List ToolDefinition → Except IrError (List ToolDefinition)
  | _, [] => return []
  | groups, tool :: rest => do
      tool.identity.validate
      match tool.kind with
      | .group children =>
          rejectIf (tool.identity.namespace.isSome || children.isEmpty ||
            groups.contains tool.identity.name) .invalidToolMapping
          rejectIf (!tool.extensions.fields.isEmpty) .unsupportedExtension
          let members ← children.mapM (memberLeaf flattenNamespaces tool)
          let leaves ← collectLeaves flattenNamespaces (tool.identity.name :: groups) rest
          return members ++ leaves
      | _ =>
          let leaves ← collectLeaves flattenNamespaces groups rest
          return tool :: leaves

/-- The grammar of a leaf; only custom tools have one. -/
def leafGrammar (codeMode : Bool) (tool : ToolDefinition) : Except IrError (Option Grammar) :=
  match tool.kind with
  | .custom format => do
      let grammar ← Grammar.fromFormatForContract sha256 format codeMode
      return some grammar
  | .function _ _ => return none
  | .group _ => .error .invalidToolMapping

def candidate (grammar : Option Grammar) (sequence : Nat) : String :=
  (if grammar.isSome then "arg_custom" else "arg_namespaced") ++ "_" ++ sequence.repr

/-- The schema of the text in the wrapper of a custom tool. -/
def inputSchema (grammar : Option Grammar) (format : Option Json) : Except (Fault IrError) Json :=
  if grammar = some .codexPatchV1 then do
    let format ← okOr format .panic
    return .object [("description", .string ("The exact text must match this grammar: " ++
      renderText format)), ("type", .string "string")]
  else return .object [("type", .string "string")]

def wrapperParameters (grammar : Option Grammar) (format : Option Json) :
    Except (Fault IrError) Json := do
  let input ← inputSchema grammar format
  return .object [("additionalProperties", .bool false),
    ("properties", .object [("input", input)]), ("required", .array [.string "input"]),
    ("type", .string "object")]

/-- The definition exposed for a leaf under its alias. -/
def lowerDefinition (stripGrammar wrapped : Bool) (grammar : Option Grammar)
    (toolAlias : ToolIdentity) (tool : ToolDefinition) : Except (Fault IrError) ToolDefinition :=
  let definition := { tool with identity := toolAlias }
  match tool.kind, wrapped with
  | .custom format, true => do
      let parameters ← wrapperParameters grammar format
      return { definition with kind := .function (some parameters) none }
  | kind, _ =>
      if stripGrammar && grammar.any (· ≠ .text) then
        match kind with
        | .custom format => return { definition with
            description := some (renderText (.object [
              ("registered_grammar", format.getD .null),
              ("tool_description", optionalText tool.description)]))
            kind := .custom (some (.object [("type", .string "text")])) }
        | _ => .error .panic
      else return definition

/-- The state of the second loop of `build`. -/
structure Registry where
  occupied : List String
  sequence : Nat
  forward : OrderedMap ToolIdentity ToolIdentity
  reverse : OrderedMap ToolIdentity Binding
  definitions : List ToolDefinition

/-- The loop that draws names until one is free. It cannot run longer than there
are occupied names. -/
def drawAlias (flattenNamespaces : Bool) (registry : Registry) (grammar : Option Grammar)
    (tool : ToolDefinition) : Except (Fault IrError) (ToolIdentity × Registry) := do
  let n ← okOr (FreshName.search (candidate grammar) registry.occupied
    (registry.occupied.length + 1) registry.sequence) .panic
  let toolAlias : ToolIdentity :=
    ⟨if flattenNamespaces then none else tool.identity.namespace, candidate grammar n⟩
  lift toolAlias.validate
  return (toolAlias, { registry with
    occupied := candidate grammar n :: registry.occupied, sequence := n + 1 })

structure BuildFlags where
  wrapCustom : Bool
  flattenNamespaces : Bool
  stripGrammar : Bool
  codeMode : Bool
  deriving DecidableEq, Repr

/-- A leaf keeps its identity unless it is wrapped or loses its namespace. -/
def chooseAlias (flags : BuildFlags) (registry : Registry) (grammar : Option Grammar)
    (tool : ToolDefinition) : Except (Fault IrError) (ToolIdentity × Registry) :=
  if (grammar.isSome && flags.wrapCustom) ||
      (flags.flattenNamespaces && tool.identity.namespace.isSome) then
    drawAlias flags.flattenNamespaces registry grammar tool
  else return (tool.identity, registry)

/-- The body of the second loop. -/
def addLeaf (flags : BuildFlags) (registry : Registry) (tool : ToolDefinition) :
    Except (Fault IrError) Registry := do
  lift tool.identity.validate
  rejectIf (registry.forward.contains tool.identity) (.error .duplicateId)
  rejectIf (!tool.extensions.fields.isEmpty) (.error .unsupportedExtension)
  let grammar ← lift (leafGrammar sha256 flags.codeMode tool)
  let wrapped := grammar.isSome && flags.wrapCustom
  let (toolAlias, registry) ← chooseAlias flags registry grammar tool
  let definition ← lowerDefinition flags.stripGrammar wrapped grammar toolAlias tool
  return { registry with
    forward := registry.forward.insert tool.identity toolAlias
    reverse := registry.reverse.insert toolAlias
      { normalize := false, structured := none, original := tool.identity, grammar, wrapped }
    definitions := registry.definitions ++ [definition] }

/-- The lowered definitions under their namespaces again. -/
def regroup : List ToolDefinition → List ToolDefinition →
    Except (Fault IrError) (List ToolDefinition)
  | [], _ => return []
  | tool :: rest, flat =>
      match tool.kind with
      | .group children => do
          let groups ← regroup rest (flat.drop children.length)
          return { tool with kind := .group (flat.take children.length) } :: groups
      | _ =>
          match flat with
          | definition :: flat => do
              let groups ← regroup rest flat
              return definition :: groups
          | [] => .error .panic

def exposedDefinitions (flags : BuildFlags) (tools flat : List ToolDefinition) :
    Except (Fault IrError) (List ToolDefinition) :=
  if flags.flattenNamespaces then return flat else regroup tools flat

def CustomToolBridge.build (tools : List ToolDefinition) (flags : BuildFlags) :
    Except (Fault IrError) CustomToolBridge := do
  let leaves ← lift (collectLeaves flags.flattenNamespaces [] tools)
  let registry ← leaves.foldlM (addLeaf sha256 flags)
    { occupied := leaves.map (·.identity.name), sequence := 0, forward := .empty,
      reverse := .empty, definitions := [] }
  let definitions ← exposedDefinitions flags tools registry.definitions
  return {
    codeMode := flags.codeMode, forward := registry.forward, reverse := registry.reverse,
    definitions, normalized := .empty }

end Build

namespace CustomToolBridge

section Editing

variable (sha256 : String → Digest)

/-- The tool a policy is about, by its contract. -/
def isEditTool (contract : ClientContract) (original : ToolIdentity) : Bool :=
  match contract with
  | .codeMode => original.name = "exec" && original.namespace.isNone
  | .direct => original.name = "apply_patch" && original.namespace.all (· = "functions")

def expectedGrammar : ClientContract → Grammar
  | .codeMode => .codeModeSourceV1
  | .direct => .codexPatchV1

/-- In Code Mode the declared description has the digest the policy pins. -/
def checkDescriptor (policy : Policy) (request : RequestIR) (original : ToolIdentity) :
    Except IrError Unit :=
  match policy.clientContract with
  | .codeMode => do
      let declaration ←
        okOr (request.toolDefinitions.find? (·.identity = original)) .invalidToolMapping
      let pinned ← okOr policy.clientDescriptorSha256 .invalidToolMapping
      rejectIf (hex (sha256 (declaration.description.getD "")).toList ≠ pinned.toList)
        .invalidToolMapping
  | .direct => return ()

/-- The body of the first loop of `with_editing`. -/
def selectOriginal (bridge : CustomToolBridge) (policy : Policy) (request : RequestIR)
    (entry : ToolIdentity × ToolIdentity) : Except (Fault IrError) (Option ToolIdentity) :=
  let (original, toolAlias) := entry
  if isEditTool policy.clientContract original then do
    let binding ← okOr (bridge.reverse.get toolAlias) .panic
    rejectIf (binding.grammar ≠ some (expectedGrammar policy.clientContract))
      (.error .invalidToolMapping)
    lift (checkDescriptor sha256 policy request original)
    return some original
  else return none

/-- Code Mode with a patch tool and no program tool. -/
def lacksProgramTool (policy : Policy) (request : RequestIR) (originals : List ToolIdentity) :
    Bool :=
  policy.clientContract = .codeMode && originals.isEmpty &&
    request.toolDefinitions.any fun tool => isEditTool .direct tool.identity

def setNormalize (bridge : CustomToolBridge) (original : ToolIdentity) :
    Except IrError CustomToolBridge := do
  let toolAlias ← okOr (bridge.forward.get original) .invalidToolMapping
  let binding ← okOr (bridge.reverse.get toolAlias) .invalidToolMapping
  return { bridge with
    reverse := bridge.reverse.insert toolAlias { binding with normalize := true } }

/-- Mark the selected tools when the policy asks for the envelope rule. -/
def markNormalized (policy : Policy) (originals : List ToolIdentity) (bridge : CustomToolBridge) :
    Except IrError CustomToolBridge :=
  if policy.normalization = .patchEnvelope then originals.foldlM setNormalize bridge
  else return bridge

/-- The stable name of the structured alternative to a tool. -/
def editName (policy : Policy) (original : ToolIdentity) : String :=
  let encoded := renderText
    (.array [optionalText original.namespace, .string original.name, policy.toJson])
  "arg_edit_" ++ String.ofList ((hex (sha256 encoded).toList).take 32)

def editDescription : Representation → String
  | .operations => "Propose independent create, delete, move or context update operations. " ++
      "Move requires unchanged context. Repeated or dependent paths are rejected. " ++
      "The host executes one patch; atomicity and rollback are not guaranteed."
  | _ => "Propose one context-based line edit. " ++
      "The host checks the supplied context and applies the patch; this is not replace-all. " ++
      "Use the original patch tool for other operations."

def addAlternative (policy : Policy) (bridge : CustomToolBridge) (original : ToolIdentity) :
    Except IrError CustomToolBridge := do
  let name := editName sha256 policy original
  rejectIf (bridge.reverse.entries.any (·.1.name = name) ||
    bridge.forward.entries.any (·.1.name = name)) .invalidToolMapping
  let toolAlias : ToolIdentity := ⟨none, name⟩
  toolAlias.validate
  return { bridge with
    definitions := bridge.definitions ++ [{
      identity := toolAlias, description := some (editDescription policy.representation)
      kind := .function (some policy.representation.schema) none, extensions := .responses }]
    reverse := bridge.reverse.insert toolAlias {
      normalize := false, structured := some policy.representation, original
      grammar := some (expectedGrammar policy.clientContract), wrapped := true } }

/-- A choice that leaves no room for an alternative. -/
def fixesChoice : Option ToolChoice → Bool
  | some (.named _ _ _) | some .none => true
  | _ => false

/-- Add an alternative to every selected tool, where the policy and the request
leave room for one. -/
def addAlternatives (policy : Policy) (request : RequestIR) (wanted : Bool)
    (originals : List ToolIdentity) (bridge : CustomToolBridge) : Except IrError CustomToolBridge :=
  if policy.representation = .patchText || !wanted ||
      fixesChoice request.generation.toolChoice then
    return bridge
  else originals.foldlM (addAlternative sha256 policy) bridge

def withEditing (bridge : CustomToolBridge) (policy : Option Policy) (request : RequestIR)
    (wanted : Bool) : Except (Fault IrError) CustomToolBridge :=
  match policy with
  | none => return bridge
  | some policy => do
      lift policy.validate
      let selected ← bridge.forward.entries.mapM (bridge.selectOriginal sha256 policy request)
      let originals := selected.reduceOption
      rejectIf (lacksProgramTool policy request originals) (.error .invalidToolMapping)
      let bridge ← lift (markNormalized policy originals bridge)
      lift (addAlternatives sha256 policy request wanted originals bridge)

end Editing

section Calls

variable (toLowercase : Text → Text)

def aliasOf (bridge : CustomToolBridge) (original : ToolIdentity) : Except IrError ToolIdentity :=
  okOr (bridge.forward.get original) .invalidToolMapping

def binding (bridge : CustomToolBridge) (original : ToolIdentity) : Except IrError Binding := do
  let toolAlias ← bridge.aliasOf original
  okOr (bridge.reverse.get toolAlias) .invalidToolMapping

/-- `original`, with the kind of the client's tool. -/
def originalOf (bridge : CustomToolBridge) (toolAlias : ToolIdentity) :
    Except IrError (ToolIdentity × ToolKind) := do
  let binding ← okOr (bridge.reverse.get toolAlias) .invalidToolMapping
  return (binding.original, if binding.grammar.isSome then .custom else .function)

/-- The patch a client's call carries, as text or inside a program. -/
def originalPatch (bridge : CustomToolBridge) (call : ToolCall) : Except IrError (Option Text) :=
  match call.input with
  | .freeform text => do
      let binding ← bridge.binding call.tool
      if binding.grammar = some .codeModeSourceV1 then
        return (helperPatch text.toList).toOption
      else return some text.toList
  | .json _ => return none

/-- The structured alternative to a tool, the first in the order of its aliases. -/
def alternative (bridge : CustomToolBridge) (original : ToolIdentity) :
    Option (ToolIdentity × Representation) :=
  bridge.reverse.entries.findSome? fun (toolAlias, binding) =>
    if binding.original = original then binding.structured.map (toolAlias, ·) else none

/-- The call as a structured edit, when it has an alternative that can express it. -/
def lowerEdit (bridge : CustomToolBridge) (call : ToolCall) :
    Except (Fault IrError) (Option ToolCall) := do
  let patch ← lift (bridge.originalPatch call)
  match patch, bridge.alternative call.tool with
  | some patch, some (toolAlias, representation) =>
      match representation.decode toLowercase patch with
      | .ok edit => return some { call with
          tool := toolAlias, input := .json (String.ofList edit), extensions := .responses }
      | .error .panic => .error .panic
      | .error (.error _) => return none
  | _, _ => return none

def lowerInput (binding : Binding) (input : ToolInput) : Except IrError ToolInput :=
  match input, binding.grammar with
  | .freeform text, some grammar => do
      grammar.validate text.toList
      if binding.wrapped then return .json (renderText (.object [("input", .string text)]))
      else return .freeform text
  | .json raw, none => return .json raw
  | _, _ => .error .invalidToolMapping

def lowerCall (bridge : CustomToolBridge) (original : ToolCall) :
    Except (Fault IrError) ToolCall := do
  rejectIf (!original.extensions.fields.isEmpty) (.error .unsupportedExtension)
  rejectIf (original.status = some .inProgress || original.status = some .incomplete)
    (.error .invalidToolMapping)
  let edit ← bridge.lowerEdit toLowercase original
  match edit with
  | some lowered => return lowered
  | none =>
      let binding ← lift (bridge.binding original.tool)
      let input ← lift (lowerInput binding original.input)
      let toolAlias ← lift (bridge.aliasOf original.tool)
      return { original with tool := toolAlias, input, extensions := .responses }

/-- Record the call when the rule changed its text. -/
def recordNormalized (call : CallId) (result : NormalizedPatch) (bridge : CustomToolBridge) :
    CustomToolBridge :=
  if result.appliedRule.isSome then
    { bridge with normalized := bridge.normalized.insert call () }
  else bridge

/-- The rule is applied only to a marked binding. -/
def normalizedInput (binding : Binding) (call : CallId) (text : Text) :
    Method CustomToolBridge IrError Text :=
  if binding.normalize then do
    let result ← Method.check (normalizePatchEnvelope text)
    Method.write (recordNormalized call result)
    return result.text
  else return text

/-- The wrapper of a custom call. -/
def envelopeOfJson (value : Json) : Option Text := do
  let values ← structFields ["input"] value
  match values with
  | [input] => textOfJson input
  | _ => none

/-- The client's input for a call of an alias that is not structured. -/
def restoreInput (isObjectText : String → Bool) (binding : Binding) (lowered : ToolCall) :
    Method CustomToolBridge IrError ToolInput :=
  match binding.grammar, binding.wrapped, lowered.input with
  | some grammar, false, .freeform text => do
      let text ← normalizedInput binding lowered.callId text.toList
      Method.check (grammar.validate text)
      return .freeform (String.ofList text)
  | some grammar, true, .json raw => do
      let input ← Method.check (okOr (fromStr envelopeOfJson raw.toList) .invalidToolMapping)
      let text ← normalizedInput binding lowered.callId input
      Method.check (grammar.validate text)
      return .freeform (String.ofList text)
  | none, _, .json raw => do
      Method.check (rejectIf (!isObjectText raw) .invalidJsonArguments)
      return .json raw
  | _, _, _ => Method.check (.error .invalidToolMapping)

/-- The client's input for a structured edit. -/
def restoreEdit (binding : Binding) (representation : Representation) (input : ToolInput) :
    Except IrError ToolInput :=
  match input with
  | .json raw => do
      let patch ← representation.compile toLowercase raw.toList
      if binding.grammar = some .codeModeSourceV1 then
        let program ← helperProgram patch
        return .freeform (String.ofList program)
      else return .freeform (String.ofList patch)
  | .freeform _ => .error .invalidToolMapping

/-- The client's input, by the binding of the alias that was called. -/
def restoreBound (isObjectText : String → Bool) (binding : Binding) (lowered : ToolCall) :
    Method CustomToolBridge IrError ToolInput :=
  match binding.structured with
  | some representation =>
      Method.check (restoreEdit toLowercase binding representation lowered.input)
  | none => restoreInput isObjectText binding lowered

def restoreCall (isObjectText : String → Bool) (lowered : ToolCall) :
    Method CustomToolBridge IrError ToolCall := do
  let bridge ← Method.read
  Method.check (rejectIf (!lowered.extensions.fields.isEmpty) .unsupportedExtension)
  let binding ← Method.check (okOr (bridge.reverse.get lowered.tool) .invalidToolMapping)
  let input ← restoreBound toLowercase isObjectText binding lowered
  return { lowered with tool := binding.original, input, extensions := .responses }

end Calls

end CustomToolBridge
end ResponseGateway.Ir
