import ResponseGateway.Ir.Continuity
import ResponseGateway.Library.Json

/-!
`ir::request`: the request representation and its validation. Sets and maps that
the checks build up are lists of what has been seen. The JSON parser of function
arguments is a parameter.
-/

namespace ResponseGateway.Ir.Request
open Checked Json

/-- Unknown fields with the protocol they came from. -/
structure Extensions where
  protocol : ApiProtocol
  fields : Fields
  deriving DecidableEq, Repr

def Extensions.responses : Extensions := { protocol := .responses, fields := [] }

inductive Role where
  | system
  | developer
  | user
  | assistant
  deriving DecidableEq, Repr

inductive TextKind where
  | input
  | output
  | summary
  deriving DecidableEq, Repr

inductive PartKind where
  | text (kind : TextKind) (text : String)
  | image (url : String) (detail : Option String)
  | extension (value : Json)
  deriving DecidableEq, Repr

structure Part where
  annotations : Option (List Json)
  kind : PartKind
  extensions : Extensions
  deriving DecidableEq, Repr

inductive Content where
  | text (text : String)
  | parts (parts : List Part)
  deriving DecidableEq, Repr

inductive ToolCallStatus where
  | inProgress
  | completed
  | incomplete
  deriving DecidableEq, Repr

structure Message where
  status : Option ToolCallStatus
  id : Option ItemId
  role : Role
  content : Content
  explicitType : Bool
  extensions : Extensions
  deriving DecidableEq, Repr

inductive ToolInput where
  | json (raw : String)
  | freeform (raw : String)
  deriving DecidableEq, Repr

def ToolInput.kind : ToolInput → ToolKind
  | json _ => .function
  | freeform _ => .custom

def ToolInput.validate (parsesJson : String → Bool) : ToolInput → Except IrError Unit
  | json raw => rejectIf (!parsesJson raw) .invalidJsonArguments
  | freeform _ => .ok ()

structure ToolCall where
  status : Option ToolCallStatus
  itemId : Option ItemId
  callId : CallId
  tool : ToolIdentity
  input : ToolInput
  extensions : Extensions
  deriving DecidableEq, Repr

structure ToolResult where
  itemId : Option ItemId
  callId : CallId
  kind : ToolKind
  output : Json
  extensions : Extensions
  deriving DecidableEq, Repr

structure ReasoningItem where
  id : Option ItemId
  summary : Option (List Part)
  opaqueState : Option OpaqueState
  extensions : Extensions
  deriving DecidableEq

inductive Item where
  | message (message : Message)
  | toolCall (call : ToolCall)
  | toolResult (result : ToolResult)
  | reasoning (item : ReasoningItem)
  | extension (value : Json) (protocol : ApiProtocol)
  deriving DecidableEq

inductive Input where
  | text (text : String)
  | items (items : List Item)
  deriving DecidableEq

inductive ToolDefinitionKind (τ : Type) where
  | function (parameters : Option Json) (strict : Option Bool)
  | custom (format : Option Json)
  | group (tools : List τ)

/-- A tool or, with kind `group`, a namespace of tools. -/
structure ToolDefinition where
  identity : ToolIdentity
  description : Option String
  kind : ToolDefinitionKind ToolDefinition
  extensions : Extensions

namespace ToolDefinition

def toolKind (tool : ToolDefinition) : Option ToolKind :=
  match tool.kind with
  | .function _ _ => some .function
  | .custom _ => some .custom
  | .group _ => none

def isGroup (tool : ToolDefinition) : Bool := tool.toolKind.isNone

/-- The leaves of one declaration. -/
def leaves (tool : ToolDefinition) : List ToolDefinition :=
  match tool.kind with
  | .group tools => tools
  | _ => [tool]

def needsGrammar (tool : ToolDefinition) : Bool :=
  match tool.kind with
  | .custom (some value) => value.fieldStr "type" ≠ some "text"
  | _ => false

end ToolDefinition

inductive OutputFormat where
  | text (extensions : Extensions)
  | jsonObject (extensions : Extensions)
  | jsonSchema (name : String) (schema : Json) (strict : Option Bool) (extensions : Extensions)
  | extension (value : Json) (protocol : ApiProtocol)
  deriving DecidableEq, Repr

structure OutputOptions where
  format : Option OutputFormat
  extensions : Extensions
  deriving DecidableEq, Repr

structure ReasoningOptions where
  effort : Option String
  summary : Option String
  extensions : Extensions
  deriving DecidableEq, Repr

inductive ToolChoice where
  | auto
  | none
  | required
  | named (tool : ToolIdentity) (kind : ToolKind) (extensions : Extensions)
  | extension (value : Json) (protocol : ApiProtocol)
  deriving DecidableEq, Repr

structure GenerationOptions where
  stream : Option Bool
  maxOutputTokens : Option Nat
  temperature : Option Number
  topP : Option Number
  parallelToolCalls : Option Bool
  toolChoice : Option ToolChoice
  output : Option OutputOptions
  reasoning : Option ReasoningOptions
  deriving DecidableEq, Repr

/-- `ir::VERSION`. -/
def version : Nat := 1

structure RequestIR where
  version : Nat
  source : ApiProtocol
  model : String
  instructions : Option String
  input : Option Input
  tools : Option (List ToolDefinition)
  generation : GenerationOptions
  extensions : Extensions

def validateExtensions (ext : Extensions) (source : ApiProtocol) (reserved : List String) :
    Except IrError Unit := do
  rejectIf (ext.protocol ≠ source) .wrongProtocol
  rejectIf (reserved.any fun key => (Assoc.get key ext.fields).any (!·.isNull)) .extensionConflict

def PartKind.isOutput : PartKind → Bool
  | text .output _ => true
  | _ => false

def PartKind.reserved : PartKind → List String
  | text .output _ => ["type", "text", "annotations"]
  | text _ _ => ["type", "text"]
  | image _ _ => ["type", "image_url", "detail"]
  | extension _ => []

/-- An extension that repeats a known kind or carries fields of its own. -/
def Part.conflicts (part : Part) : Bool :=
  match part.kind with
  | .extension value => !part.extensions.fields.isEmpty ||
      (value.fieldStr "type").any
        (· ∈ ["input_text", "output_text", "summary_text", "input_image"])
  | _ => false

def validatePart (source : ApiProtocol) (part : Part) : Except IrError Unit := do
  rejectIf (part.annotations.isSome && !part.kind.isOutput) (.invalidField "annotations")
  validateExtensions part.extensions source part.kind.reserved
  rejectIf part.conflicts .extensionConflict

def validateParts (parts : List Part) (source : ApiProtocol) : Except IrError Unit :=
  parts.forM (validatePart source)

def validateFormat (source : ApiProtocol) : OutputFormat → Except IrError Unit
  | .text ext | .jsonObject ext => validateExtensions ext source ["type"]
  | .jsonSchema _ _ _ ext => validateExtensions ext source ["type", "name", "schema", "strict"]
  | .extension value protocol => do
      rejectIf (protocol ≠ source) .wrongProtocol
      rejectIf ((value.fieldStr "type").any (· ∈ ["text", "json_object", "json_schema"]))
        .extensionConflict

def validateOutput (source : ApiProtocol) (output : OutputOptions) : Except IrError Unit := do
  validateExtensions output.extensions source ["format"]
  output.format.forM (validateFormat source)

def validateChoice (source : ApiProtocol) : ToolChoice → Except IrError Unit
  | .named _ _ ext => validateExtensions ext source ["type", "name", "namespace"]
  | .extension value protocol => do
      rejectIf (protocol ≠ source) .wrongProtocol
      rejectIf (value.asStr.any (· ∈ ["auto", "none", "required"]) ||
        (value.fieldStr "type").any (· ∈ ["function", "custom"])) .extensionConflict
  | _ => .ok ()

/-- The first loop over the tools: namespaces, with the names seen so far. -/
def validateGroups (source : ApiProtocol) :
    List String → List ToolDefinition → Except IrError Unit
  | _, [] => .ok ()
  | groups, tool :: rest =>
      match tool.kind with
      | .group tools => do
          tool.identity.validate
          rejectIf (tool.identity.namespace.isSome || tools.isEmpty ||
            groups.contains tool.identity.name) .invalidToolMapping
          validateExtensions tool.extensions source ["type", "name", "description", "tools"]
          rejectIf (tools.any fun child =>
            child.isGroup || decide (child.identity.namespace ≠ some tool.identity.name))
            .invalidToolMapping
          validateGroups source (tool.identity.name :: groups) rest
      | _ => validateGroups source groups rest

/-- The second loop over the tools: leaves, with the identities seen so far. -/
def validateDefinitions (source : ApiProtocol) :
    List ToolIdentity → List ToolDefinition → Except IrError Unit
  | _, [] => .ok ()
  | definitions, tool :: rest => do
      tool.identity.validate
      match tool.kind with
      | .function _ _ =>
          validateExtensions tool.extensions source
            ["type", "name", "namespace", "description", "parameters", "strict"]
      | .custom _ =>
          validateExtensions tool.extensions source
            ["type", "name", "namespace", "description", "format"]
      | .group _ => .error .invalidToolMapping
      rejectIf (definitions.contains tool.identity) .duplicateId
      validateDefinitions source (tool.identity :: definitions) rest

/-- The identities seen before an item of the input. -/
structure Seen where
  ids : List ItemId
  calls : List (CallId × ToolKind)
  results : List CallId

def Seen.addId (seen : Seen) (id : Option ItemId) : Except IrError Seen :=
  match id with
  | some id =>
      if seen.ids.contains id then .error .duplicateId
      else .ok { seen with ids := id :: seen.ids }
  | none => .ok seen

def reservedItemTypes : List String :=
  ["message", "function_call", "custom_tool_call", "function_call_output",
    "custom_tool_call_output", "reasoning", "item_reference", "compaction", "compaction_trigger"]

def validateItem (parsesJson : String → Bool) (source : ApiProtocol) (seen : Seen) :
    Item → Except IrError Seen
  | .message value => do
      validateExtensions value.extensions source ["type", "id", "role", "content", "status"]
      match value.content with
      | .parts parts => validateParts parts source
      | .text _ => pure ()
      seen.addId value.id
  | .reasoning value => do
      validateExtensions value.extensions source ["type", "id", "summary", "encrypted_content"]
      match value.summary with
      | some parts => validateParts parts source
      | none => pure ()
      rejectIf (value.opaqueState.any (·.binding.route.api ≠ source)) .wrongProtocol
      seen.addId value.id
  | .toolCall value => do
      value.tool.validate
      value.input.validate parsesJson
      let argumentField := match value.input with
        | .json _ => "arguments"
        | .freeform _ => "input"
      validateExtensions value.extensions source
        ["type", "id", "call_id", "name", "namespace", "status", argumentField]
      rejectIf (seen.calls.any (·.1 = value.callId)) .duplicateId
      { seen with calls := (value.callId, value.input.kind) :: seen.calls }.addId value.itemId
  | .toolResult value => do
      validateExtensions value.extensions source ["type", "id", "call_id", "output"]
      rejectIf (!seen.calls.contains (value.callId, value.kind) ||
        seen.results.contains value.callId) .invalidToolMapping
      { seen with results := value.callId :: seen.results }.addId value.itemId
  | .extension value protocol => do
      rejectIf (protocol ≠ source) .wrongProtocol
      rejectIf ((value.fieldStr "type").any (· ∈ reservedItemTypes)) .extensionConflict
      return seen

namespace RequestIR

/-- Ordered leaf definitions. -/
def toolDefinitions (request : RequestIR) : List ToolDefinition :=
  (request.tools.getD []).flatMap (·.leaves)

def items (request : RequestIR) : List Item :=
  match request.input with
  | some (.items items) => items
  | _ => []

/-- A named choice has a definition of its kind. -/
def choiceDeclared (request : RequestIR) : Bool :=
  match request.generation.toolChoice with
  | some (.named tool kind _) =>
      request.toolDefinitions.any fun d =>
        decide (d.identity = tool) && decide (d.toolKind = some kind)
  | _ => true

def validate (parsesJson : String → Bool) (request : RequestIR) : Except IrError Unit := do
  rejectIf (request.version ≠ Request.version) .unsupportedVersion
  rejectIf request.model.isEmpty (.invalidField "model")
  rejectIf (request.generation.maxOutputTokens = some 0) (.invalidField "max_output_tokens")
  validateExtensions request.extensions request.source
    ["model", "instructions", "input", "tools", "stream", "store", "max_output_tokens",
      "temperature", "top_p", "parallel_tool_calls", "tool_choice", "text", "reasoning"]
  request.generation.output.forM (validateOutput request.source)
  request.generation.reasoning.forM fun reasoning =>
    validateExtensions reasoning.extensions request.source ["effort", "summary"]
  request.generation.toolChoice.forM (validateChoice request.source)
  validateGroups request.source [] (request.tools.getD [])
  validateDefinitions request.source [] request.toolDefinitions
  let _ ← request.items.foldlM (validateItem parsesJson request.source)
    { ids := [], calls := [], results := [] }
  rejectIf (!request.choiceDeclared) .invalidToolMapping

end RequestIR
end ResponseGateway.Ir.Request
