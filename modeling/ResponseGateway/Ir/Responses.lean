import ResponseGateway.Ir.Request
import ResponseGateway.Library.JsonNumber

/-!
`ir::responses`: the Responses request codec, with the stateless admission rules
it shares with the native path. Decoding takes known fields out of each object
and keeps the remaining ones as extensions; an explicit null is left where it is.
Encoding puts the known fields back and refuses to overwrite one. Deserializing a
status follows the external representation of a unit variant, which is a text or
an object with that one key and null.
-/

namespace ResponseGateway.Ir.Responses
open Checked Json Request

structure PolicyError where
  code : String
  message : String
  deriving DecidableEq, Repr

section Policy

def boolField (request : Fields) (key : String) : Except PolicyError (Option Bool) :=
  match Assoc.get key request with
  | some value => do
      let b ← okOr value.asBool
        ⟨"invalid_request", "store, background and stream must be booleans"⟩
      return some b
  | none => return none

def unsupported : PolicyError :=
  ⟨"unsupported_feature", "Only stateless foreground requests are supported; storage, " ++
    "conversation history and compaction are unavailable"⟩

/-- A reference to a stored item, also with its discriminator omitted or null. -/
def isStored (item : Json) : Bool :=
  (item.fieldStr "type").any (· ∈ ["item_reference", "compaction", "compaction_trigger"]) ||
    item.asObject.any fun fields =>
      ((Assoc.get "id" fields).bind asStr).isSome &&
        (Assoc.get "type" fields).all (·.isNull) &&
        fields.all fun (key, _) => key = "id" || key = "type"

def hasHistory (request : Fields) : Bool :=
  ["previous_response_id", "conversation", "context_management"].any fun key =>
    (Assoc.get key request).any (!·.isNull)

def hasStored (request : Fields) : Bool :=
  ((Assoc.get "input" request).bind asArray).any (·.any isStored)

def normalizeStateless (value : Json) : Except PolicyError (Fields × String × Bool) := do
  let request ← okOr value.asObject ⟨"invalid_request", "The request must be a JSON object"⟩
  let model ← okOr (((Assoc.get "model" request).bind asStr).filter (!·.isEmpty))
    ⟨"invalid_model", "A registered model identifier is required"⟩
  let store ← boolField request "store"
  rejectIf (store = some true) unsupported
  let background ← boolField request "background"
  rejectIf (background = some true || hasHistory request || hasStored request) unsupported
  let stream ← boolField request "stream"
  return (Assoc.insert "store" (.bool false) request, model, stream.getD false)

end Policy

section Taking

def object (value : Json) (field : String) : Except IrError Fields :=
  okOr value.asObject (.invalidField field)

def array (value : Json) (field : String) : Except IrError (List Json) :=
  okOr value.asArray (.invalidField field)

/-- An explicit null stays in the fields. -/
def take (fields : Fields) (key : String) : Option Json × Fields :=
  match Assoc.get key fields with
  | some null => (none, fields)
  | some value => (some value, Assoc.erase key fields)
  | none => (none, fields)

/-- `take`, with the taken value decoded. -/
def takeWith {α : Type} (decode : Json → Except IrError α) (fields : Fields) (key : String) :
    Except IrError (Option α × Fields) :=
  match take fields key with
  | (some value, rest) => do
      let a ← decode value
      return (some a, rest)
  | (none, rest) => return (none, rest)

def string (fields : Fields) (key : String) : Except IrError (Option String × Fields) :=
  takeWith (fun value => okOr value.asStr (.invalidField key)) fields key

def required (fields : Fields) (key : String) : Except IrError (String × Fields) := do
  let (value, fields) ← string fields key
  let value ← okOr value (.invalidField key)
  return (value, fields)

def boolean (fields : Fields) (key : String) : Except IrError (Option Bool × Fields) :=
  takeWith (fun value => okOr value.asBool (.invalidField key)) fields key

def asNumber : Json → Option Number
  | number value => some value
  | _ => none

def number (fields : Fields) (key : String) : Except IrError (Option Number × Fields) :=
  takeWith (fun value => okOr (asNumber value) (.invalidField key)) fields key

/-- `fields.remove(key)`, where null is a value like any other. -/
def remove (fields : Fields) (key : String) : Except IrError (Json × Fields) := do
  let value ← okOr (Assoc.get key fields) (.invalidField key)
  return (value, Assoc.erase key fields)

def itemId (fields : Fields) : Except IrError (Option ItemId × Fields) := do
  let (value, fields) ← string fields "id"
  match value with
  | some value =>
      let id ← Identity.new value
      return (some id, fields)
  | none => return (none, fields)

def ext (fields : Fields) : Extensions := { protocol := .responses, fields }

def toolIdentity (fields : Fields) : Except IrError (ToolIdentity × Fields) := do
  let («namespace», fields) ← string fields "namespace"
  let (name, fields) ← required fields "name"
  let tool : ToolIdentity := { «namespace», name }
  tool.validate
  return (tool, fields)

end Taking

section Decoding

def TextKind.tag : TextKind → String
  | .input => "input_text"
  | .output => "output_text"
  | .summary => "summary_text"

/-- The typed part for a known tag. -/
def decodePartKind (tag : String) (fields : Fields) :
    Except IrError (Option (Request.PartKind × Fields)) :=
  match tag with
  | "input_text" => do
      let (text, fields) ← required fields "text"
      return some (.text .input text, fields)
  | "output_text" => do
      let (text, fields) ← required fields "text"
      return some (.text .output text, fields)
  | "summary_text" => do
      let (text, fields) ← required fields "text"
      return some (.text .summary text, fields)
  | "input_image" => do
      let (url, fields) ← required fields "image_url"
      let (detail, fields) ← string fields "detail"
      return some (.image url detail, fields)
  | _ => return none

def decodeAnnotations (kind : Request.PartKind) (fields : Fields) :
    Except IrError (Option (List Json) × Fields) :=
  if kind.isOutput then takeWith (array · "annotations") fields "annotations"
  else return (none, fields)

def decodePart (value : Json) : Except IrError Part := do
  let fields ← object value "content_part"
  let (tag, fields) ← required fields "type"
  let known ← decodePartKind tag fields
  match known with
  | some (kind, fields) =>
      let (annotations, fields) ← decodeAnnotations kind fields
      return { annotations, kind, extensions := ext fields }
  | none => return { annotations := none, kind := .extension value, extensions := .responses }

def decodeContent : Json → Except IrError Content
  | .string text => return .text text
  | .array parts => do
      let parts ← parts.mapM decodePart
      return .parts parts
  | _ => .error (.invalidField "content")

def statusNamed : String → Option ToolCallStatus
  | "in_progress" => some .inProgress
  | "completed" => some .completed
  | "incomplete" => some .incomplete
  | _ => none

/-- `from_value::<ToolCallStatus>`. -/
def statusOf : Json → Option ToolCallStatus
  | .string name => statusNamed name
  | .object [(name, .null)] => statusNamed name
  | _ => none

def decodeStatus (fields : Fields) : Except IrError (Option ToolCallStatus × Fields) :=
  takeWith (fun value => okOr (statusOf value) (.invalidField "status")) fields "status"

def roleNamed : String → Except IrError Role
  | "system" => .ok .system
  | "developer" => .ok .developer
  | "user" => .ok .user
  | "assistant" => .ok .assistant
  | _ => .error (.invalidField "role")

def decodeMessage (explicitType : Bool) (fields : Fields) : Except IrError Item := do
  let (role, fields) ← required fields "role"
  let role ← roleNamed role
  let (status, fields) ← decodeStatus fields
  let (id, fields) ← itemId fields
  let (content, fields) ← remove fields "content"
  let content ← decodeContent content
  return .message { status, id, role, content, explicitType, extensions := ext fields }

/-- The field of a call's input, by its kind. -/
def inputField : ToolKind → String
  | .function => "arguments"
  | .custom => "input"

def inputOf : ToolKind → String → ToolInput
  | .function, raw => .json raw
  | .custom, raw => .freeform raw

def decodeToolCall (kind : ToolKind) (fields : Fields) : Except IrError Item := do
  let (itemId, fields) ← itemId fields
  let (callId, fields) ← required fields "call_id"
  let callId ← Identity.new callId
  let (tool, fields) ← toolIdentity fields
  let (raw, fields) ← required fields (inputField kind)
  let (status, fields) ← decodeStatus fields
  return .toolCall
    { status, itemId, callId, tool, input := inputOf kind raw, extensions := ext fields }

def decodeToolResult (kind : ToolKind) (fields : Fields) : Except IrError Item := do
  let (itemId, fields) ← itemId fields
  let (callId, fields) ← required fields "call_id"
  let callId ← Identity.new callId
  let (output, fields) ← remove fields "output"
  return .toolResult { itemId, callId, kind, output, extensions := ext fields }

def opaqueFormat : String := "responses.encrypted_content/v1"

def decodeSummary (value : Json) : Except IrError (List Part) := do
  let parts ← array value "summary"
  parts.mapM decodePart

def decodeOpaque (binding : Option ContinuityBinding) (value : Json) :
    Except IrError OpaqueState := do
  let text ← okOr value.asStr (.invalidField "encrypted_content")
  let binding ← okOr binding .unboundOpaqueState
  rejectIf (binding.route.api ≠ .responses) .wrongProtocol
  OpaqueState.new binding opaqueFormat text.toUTF8

def decodeReasoning (binding : Option ContinuityBinding) (fields : Fields) :
    Except IrError Item := do
  let (id, fields) ← itemId fields
  let (summary, fields) ← takeWith decodeSummary fields "summary"
  let (opaqueState, fields) ← takeWith (decodeOpaque binding) fields "encrypted_content"
  return .reasoning { id, summary, opaqueState, extensions := ext fields }

def decodeItem (binding : Option ContinuityBinding) (value : Json) : Except IrError Item := do
  let fields ← object value "input_item"
  let (tag, fields) ← string fields "type"
  match tag with
  | some "message" => decodeMessage true fields
  | some "function_call" => decodeToolCall .function fields
  | some "custom_tool_call" => decodeToolCall .custom fields
  | some "function_call_output" => decodeToolResult .function fields
  | some "custom_tool_call_output" => decodeToolResult .custom fields
  | some "reasoning" => decodeReasoning binding fields
  | some _ => return .extension value .responses
  | none =>
      if (Assoc.get "role" fields).isSome then decodeMessage false fields
      else .error (.invalidField "input_item_type")

/-- A tool that is not a namespace. -/
def decodeLeafKind (tag : String) (fields : Fields) :
    Except IrError (ToolDefinitionKind ToolDefinition × Fields) :=
  match tag with
  | "function" => do
      let (parameters, fields) := take fields "parameters"
      let (strict, fields) ← boolean fields "strict"
      return (.function parameters strict, fields)
  | "custom" =>
      let (format, fields) := take fields "format"
      return (.custom format, fields)
  | _ => .error .unsupportedFeature

/-- The fields every tool has, and its kind by the given reader. -/
def decodeToolWith
    (decodeKind : String → ToolIdentity → Fields →
      Except IrError (ToolDefinitionKind ToolDefinition × Fields))
    (value : Json) : Except IrError ToolDefinition := do
  let fields ← object value "tool"
  let (tag, fields) ← required fields "type"
  let (identity, fields) ← toolIdentity fields
  let (description, fields) ← string fields "description"
  let (kind, fields) ← decodeKind tag identity fields
  return { identity, description, kind, extensions := ext fields }

/-- A member of a namespace. It cannot be a namespace itself, so the recursion of
`decode_tool` ends here. -/
def decodeChild (group : String) (value : Json) : Except IrError ToolDefinition := do
  rejectIf (value.fieldStr "type" = some "namespace" || (value.field "namespace").isSome)
    .invalidToolMapping
  let child ← decodeToolWith (fun tag _ => decodeLeafKind tag) value
  return { child with identity := { child.identity with «namespace» := some group } }

def decodeKind (tag : String) (identity : ToolIdentity) (fields : Fields) :
    Except IrError (ToolDefinitionKind ToolDefinition × Fields) :=
  match tag with
  | "namespace" => do
      rejectIf identity.namespace.isSome .invalidToolMapping
      let (children, fields) ← remove fields "tools"
      let children ← array children "tools"
      let tools ← children.mapM (decodeChild identity.name)
      return (.group tools, fields)
  | tag => decodeLeafKind tag fields

def decodeTool : Json → Except IrError ToolDefinition := decodeToolWith decodeKind

def decodeTools (value : Json) : Except IrError (List ToolDefinition) := do
  let tools ← array value "tools"
  tools.mapM decodeTool

def toolKindNamed : String → Option ToolKind
  | "function" => some .function
  | "custom" => some .custom
  | _ => none

def decodeChoice (value : Json) : Except IrError ToolChoice :=
  match value with
  | .string "auto" => return .auto
  | .string "none" => return .none
  | .string "required" => return .required
  | .object fields =>
      match ((Assoc.get "type" fields).bind asStr).bind toolKindNamed with
      | some kind => do
          let (tool, fields) ← toolIdentity (Assoc.erase "type" fields)
          return .named tool kind (ext fields)
      | none => return .extension value .responses
  | _ => return .extension value .responses

def decodeFormat (value : Json) : Except IrError OutputFormat := do
  let fields ← object value "format"
  let (tag, fields) ← required fields "type"
  match tag with
  | "text" => return .text (ext fields)
  | "json_object" => return .jsonObject (ext fields)
  | "json_schema" =>
      let (name, fields) ← required fields "name"
      let (schema, fields) ← remove fields "schema"
      let (strict, fields) ← boolean fields "strict"
      return .jsonSchema name schema strict (ext fields)
  | _ => return .extension value .responses

def decodeOutput (value : Json) : Except IrError OutputOptions := do
  let fields ← object value "text"
  let (format, fields) ← takeWith decodeFormat fields "format"
  return { format, extensions := ext fields }

def decodeReasoningOptions (value : Json) : Except IrError ReasoningOptions := do
  let fields ← object value "reasoning"
  let (effort, fields) ← string fields "effort"
  let (summary, fields) ← string fields "summary"
  return { effort, summary, extensions := ext fields }

def decodeInput (binding : Option ContinuityBinding) : Json → Except IrError Input
  | .string text => return .text text
  | .array items => do
      let items ← items.mapM (decodeItem binding)
      return .items items
  | _ => .error (.invalidField "input")

def decodeGeneration (fields : Fields) : Except IrError (GenerationOptions × Fields) := do
  let (stream, fields) ← boolean fields "stream"
  let (maxOutputTokens, fields) ←
    takeWith (fun value => okOr value.asU64 (.invalidField "max_output_tokens"))
      fields "max_output_tokens"
  let (temperature, fields) ← number fields "temperature"
  let (topP, fields) ← number fields "top_p"
  let (parallelToolCalls, fields) ← boolean fields "parallel_tool_calls"
  let (toolChoice, fields) ← takeWith decodeChoice fields "tool_choice"
  let (output, fields) ← takeWith decodeOutput fields "text"
  let (reasoning, fields) ← takeWith decodeReasoningOptions fields "reasoning"
  return ({ stream, maxOutputTokens, temperature, topP, parallelToolCalls, toolChoice, output,
            reasoning }, fields)

def policyError (e : PolicyError) : IrError :=
  if e.code = "unsupported_feature" then .unsupportedFeature
  else .invalidField "responses_request"

/-- The request in the fields that remain without model and store. -/
def decodeFields (binding : Option ContinuityBinding) (model : String) (fields : Fields) :
    Except IrError RequestIR := do
  let (instructions, fields) ← string fields "instructions"
  let (input, fields) ← takeWith (decodeInput binding) fields "input"
  let (tools, fields) ← takeWith decodeTools fields "tools"
  let (generation, fields) ← decodeGeneration fields
  return {
    version := Request.version, source := .responses, model, instructions, input, tools,
    generation, extensions := ext fields }

def decode (parsesJson : String → Bool) (value : Json) (binding : Option ContinuityBinding) :
    Except IrError RequestIR := do
  let (fields, model, _) ← (normalizeStateless value).mapError policyError
  let request ← decodeFields binding model (Assoc.erase "store" (Assoc.erase "model" fields))
  request.validate parsesJson
  return request

end Decoding

section Encoding

def fieldsOf (ext : Extensions) : Except IrError Fields := do
  rejectIf (ext.protocol ≠ .responses) .wrongProtocol
  return ext.fields

def put (fields : Fields) (key : String) (value : Json) : Except IrError Fields := do
  rejectIf (Assoc.get key fields).isSome .extensionConflict
  return Assoc.insert key value fields

def optional (fields : Fields) (key : String) (value : Option Json) : Except IrError Fields :=
  match value with
  | some value => put fields key value
  | none => return fields

def putId {kind : IdentityKind} (fields : Fields) (id : Option (Identity kind)) :
    Except IrError Fields :=
  optional fields "id" (id.map fun id => .string id.value)

def putTool (fields : Fields) (tool : ToolIdentity) : Except IrError Fields := do
  let fields ← put fields "name" (.string tool.name)
  optional fields "namespace" (tool.namespace.map .string)

def retained (value : Json) (protocol : ApiProtocol) : Except IrError Json := do
  rejectIf (protocol ≠ .responses) .wrongProtocol
  return value

def encodePart (part : Part) : Except IrError Json := do
  let data ← fieldsOf part.extensions
  let data ← optional data "annotations" (part.annotations.map .array)
  match part.kind with
  | .text kind text =>
      let data ← put data "type" (.string (TextKind.tag kind))
      let data ← put data "text" (.string text)
      return .object data
  | .image url detail =>
      let data ← put data "type" (.string "input_image")
      let data ← put data "image_url" (.string url)
      let data ← optional data "detail" (detail.map .string)
      return .object data
  | .extension value =>
      rejectIf (!data.isEmpty) .extensionConflict
      return value

def encodeContent : Content → Except IrError Json
  | .text text => return .string text
  | .parts parts => do
      let parts ← parts.mapM encodePart
      return .array parts

def statusName : ToolCallStatus → String
  | .inProgress => "in_progress"
  | .completed => "completed"
  | .incomplete => "incomplete"

def roleName : Role → String
  | .system => "system"
  | .developer => "developer"
  | .user => "user"
  | .assistant => "assistant"

def encodeStatus (status : Option ToolCallStatus) : Option Json :=
  status.map fun status => .string (statusName status)

def encodeMessage (message : Message) : Except IrError Json := do
  let data ← fieldsOf message.extensions
  let data ← optional data "status" (encodeStatus message.status)
  let data ← if message.explicitType then put data "type" (.string "message") else pure data
  let data ← putId data message.id
  let data ← put data "role" (.string (roleName message.role))
  let content ← encodeContent message.content
  let data ← put data "content" content
  return .object data

/-- The tag of a call, by its kind. -/
def callTag : ToolKind → String
  | .function => "function_call"
  | .custom => "custom_tool_call"

def encodeToolCall (call : ToolCall) : Except IrError Json := do
  let data ← fieldsOf call.extensions
  let data ← putId data call.itemId
  let data ← put data "call_id" (.string call.callId.value)
  let data ← putTool data call.tool
  let data ← optional data "status" (encodeStatus call.status)
  match call.input with
  | .json raw =>
      let data ← put data "type" (.string "function_call")
      let data ← put data "arguments" (.string raw)
      return .object data
  | .freeform raw =>
      let data ← put data "type" (.string "custom_tool_call")
      let data ← put data "input" (.string raw)
      return .object data

/-- The tag of a result, by its kind. -/
def resultTag : ToolKind → String
  | .function => "function_call_output"
  | .custom => "custom_tool_call_output"

def encodeToolResult (result : ToolResult) : Except IrError Json := do
  let data ← fieldsOf result.extensions
  let data ← putId data result.itemId
  let data ← put data "call_id" (.string result.callId.value)
  let data ← put data "type" (.string (resultTag result.kind))
  let data ← put data "output" result.output
  return .object data

/-- An absent value, or the encoded one. -/
def encodeOption {α : Type} (encode : α → Except IrError Json) :
    Option α → Except IrError (Option Json)
  | some a => do
      let value ← encode a
      return some value
  | none => return none

def encodeOpaque (binding : Option ContinuityBinding) (state : OpaqueState) :
    Except IrError Json := do
  let target ← okOr binding .unboundOpaqueState
  let raw ← state.replay target opaqueFormat
  let text ← okOr (String.fromUTF8? raw) (.invalidField "opaque_encoding")
  return .string text

def encodeParts (parts : List Part) : Except IrError Json := do
  let parts ← parts.mapM encodePart
  return .array parts

def encodeReasoning (binding : Option ContinuityBinding) (item : ReasoningItem) :
    Except IrError Json := do
  let data ← fieldsOf item.extensions
  let data ← putId data item.id
  let data ← put data "type" (.string "reasoning")
  let summary ← encodeOption encodeParts item.summary
  let data ← optional data "summary" summary
  let opaqueState ← encodeOption (encodeOpaque binding) item.opaqueState
  let data ← optional data "encrypted_content" opaqueState
  return .object data

def encodeItem (binding : Option ContinuityBinding) : Item → Except IrError Json
  | .message message => encodeMessage message
  | .toolCall call => encodeToolCall call
  | .toolResult result => encodeToolResult result
  | .reasoning item => encodeReasoning binding item
  | .extension value protocol => retained value protocol

/-- A member of a namespace is written without the namespace's name. -/
def withoutNamespace : Json → Json
  | .object fields => .object (Assoc.erase "namespace" fields)
  | value => value

mutual

def encodeTool : ToolDefinition → Except IrError Json
  | { identity, description, kind, extensions } => do
      let data ← fieldsOf extensions
      let data ← putTool data identity
      let data ← optional data "description" (description.map .string)
      match kind with
      | .function parameters strict =>
          let data ← put data "type" (.string "function")
          let data ← optional data "parameters" parameters
          let data ← optional data "strict" (strict.map .bool)
          return .object data
      | .custom format =>
          let data ← put data "type" (.string "custom")
          let data ← optional data "format" format
          return .object data
      | .group tools =>
          let data ← put data "type" (.string "namespace")
          let children ← encodeChildren tools
          let data ← put data "tools" (.array children)
          return .object data

def encodeChildren : List ToolDefinition → Except IrError (List Json)
  | [] => return []
  | tool :: rest => do
      let child ← encodeTool tool
      let children ← encodeChildren rest
      return withoutNamespace child :: children

end

def encodeTools (tools : List ToolDefinition) : Except IrError Json := do
  let tools ← tools.mapM encodeTool
  return .array tools

def toolKindName : ToolKind → String
  | .function => "function"
  | .custom => "custom"

def encodeChoice : ToolChoice → Except IrError Json
  | .auto => return .string "auto"
  | .none => return .string "none"
  | .required => return .string "required"
  | .extension value protocol => retained value protocol
  | .named tool kind extensions => do
      let data ← fieldsOf extensions
      let data ← putTool data tool
      let data ← put data "type" (.string (toolKindName kind))
      return .object data

def encodeFormat : OutputFormat → Except IrError Json
  | .text extensions => do
      let data ← fieldsOf extensions
      let data ← put data "type" (.string "text")
      return .object data
  | .jsonObject extensions => do
      let data ← fieldsOf extensions
      let data ← put data "type" (.string "json_object")
      return .object data
  | .jsonSchema name schema strict extensions => do
      let data ← fieldsOf extensions
      let data ← put data "name" (.string name)
      let data ← put data "schema" schema
      let data ← optional data "strict" (strict.map .bool)
      let data ← put data "type" (.string "json_schema")
      return .object data
  | .extension value protocol => retained value protocol

def encodeOutput (output : OutputOptions) : Except IrError Json := do
  let data ← fieldsOf output.extensions
  let format ← encodeOption encodeFormat output.format
  let data ← optional data "format" format
  return .object data

def encodeReasoningOptions (reasoning : ReasoningOptions) : Except IrError Json := do
  let data ← fieldsOf reasoning.extensions
  let data ← optional data "effort" (reasoning.effort.map .string)
  let data ← optional data "summary" (reasoning.summary.map .string)
  return .object data

def encodeInput (binding : Option ContinuityBinding) : Input → Except IrError Json
  | .text text => return .string text
  | .items items => do
      let items ← items.mapM (encodeItem binding)
      return .array items

def encodeGeneration (data : Fields) (g : GenerationOptions) : Except IrError Fields := do
  let data ← optional data "stream" (g.stream.map .bool)
  let data ← optional data "max_output_tokens"
    (g.maxOutputTokens.map fun n => .number (Number.ofNat n))
  let data ← optional data "temperature" (g.temperature.map .number)
  let data ← optional data "top_p" (g.topP.map .number)
  let data ← optional data "parallel_tool_calls" (g.parallelToolCalls.map .bool)
  let choice ← encodeOption encodeChoice g.toolChoice
  let data ← optional data "tool_choice" choice
  let output ← encodeOption encodeOutput g.output
  let data ← optional data "text" output
  let reasoning ← encodeOption encodeReasoningOptions g.reasoning
  optional data "reasoning" reasoning

def encode (parsesJson : String → Bool) (request : RequestIR)
    (binding : Option ContinuityBinding) : Except IrError Json := do
  request.validate parsesJson
  rejectIf (request.source ≠ .responses) .wrongProtocol
  let data ← fieldsOf request.extensions
  let data ← put data "model" (.string request.model)
  let data ← optional data "instructions" (request.instructions.map .string)
  let input ← encodeOption (encodeInput binding) request.input
  let data ← optional data "input" input
  let tools ← encodeOption encodeTools request.tools
  let data ← optional data "tools" tools
  let data ← encodeGeneration data request.generation
  let (data, _, _) ← (normalizeStateless (.object data)).mapError fun _ => .unsupportedFeature
  return .object data

end Encoding

end ResponseGateway.Ir.Responses
