import ResponseGateway.Adapters.Toolset
import ResponseGateway.Ir.Event
import ResponseGateway.Usage.Contract

/-!
`adapters::responses`: a checked response of a Responses provider. `decodeValue` checks
the header, restores the items with the registry of the request and passes them through
the event validator, then compares what the response repeats of the request. The checks
of texts that the registry and the validator take as parameters are in `Texts`.
-/

namespace ResponseGateway.Adapters
open Checked Ir Request Method
open Json (ofFields)

/-- What the standard library says about texts. -/
structure Texts where
  toLowercase : Text → Text
  isObjectText : String → Bool
  parsesJson : String → Bool

structure PreparedResponses where
  original : Json
  echoes : Json
  tools : PreparedTools
  profile : CapabilityProfile
  model : String
  preserveItemOrder : Bool

section Values

def isValidPhase (value : Json) : Bool :=
  value.isNull || value.asStr.any fun s => s = "commentary" || s = "final_answer"

/-- An optional field that is absent or null or has one of the allowed values. -/
def nullOr (allowed : Json → Bool) (value : Json) : Bool := value.isNull || allowed value

def isEmptyArray (value : Json) : Bool := value.asArray.any List.isEmpty

def identity (value : Json) : Except IrError ToolIdentity := do
  let group ← match value.field "namespace" with
    | none => pure none
    | some value => do
        let group ← okOr value.asStr .invalidToolMapping
        pure (some group)
  let name ← string value "name"
  let tool : ToolIdentity := ⟨group, name⟩
  tool.validate
  return tool

def isTool (value : Json) : Bool := (value.fieldStr "type").any isToolType

def isCustom (value : Json) : Bool := value.lookup "type" = .string "custom_tool_call"

def terminal (value : String) : Except IrError Terminal :=
  match value with
  | "completed" => .ok .completed
  | "incomplete" => .ok .incomplete
  | "failed" => .ok .failed
  | _ => .error .invalidEventOrder

def validatePart (reasoning : Bool) (part : Json) : Except IrError Unit := do
  knownFields part (if reasoning then ["type", "text"]
    else ["type", "text", "annotations", "logprobs"])
  rejectIf (part.lookup "type" ≠ .string (partType reasoning) ||
    (part.field "annotations").any (!isEmptyArray ·) ||
    (part.field "logprobs").any (!nullOr isEmptyArray ·)) .unsupportedFeature
  let _ ← string part "text"

/-- `u32::try_from`. -/
def u32 (n : Nat) : Except IrError (Fin (2 ^ 32)) :=
  if h : n < 2 ^ 32 then .ok ⟨n, h⟩ else .error .sizeLimit

end Values

section Validating

variable (texts : Texts)

/-- An event for the validator. -/
def apply (event : EventIR) : Method EventValidator (Fault IrError) Unit :=
  faulting (EventValidator.apply texts.parsesJson event)

/-- The validator of a response, after a call that must succeed. -/
def advance (m : Method EventValidator (Fault IrError) Unit) (validator : EventValidator) :
    Except (Fault IrError) EventValidator := do
  let _ ← (m validator).1
  return (m validator).2

def outputKind (item : Json) : Except IrError OutputKind :=
  match item.fieldStr "type" with
  | some "message" => return .message
  | some "reasoning" => return .reasoning
  | some "function_call" | some "custom_tool_call" => do
      let tool ← identity item
      let text ← string item "call_id"
      let callId ← Identity.new text
      return .tool tool callId (if isCustom item then .custom else .function)
  | _ => .error .unsupportedFeature

def validateCompletePart (id : ItemId) (reasoning : Bool) (entry : Json × Nat) :
    Method EventValidator (Fault IrError) Unit := do
  let index ← check (lift (u32 entry.2))
  apply texts (.partStarted id index (if reasoning then .reasoningText else .text))
  let text ← check (lift (string entry.1 "text"))
  (eventTextChunks text.toList).forM fun chunk =>
    apply texts (.textDelta id index (String.ofList chunk))
  apply texts (.partFinished id index)

def validateCompleteItem (item : Json) (index : Nat) :
    Method EventValidator (Fault IrError) Unit := do
  let text ← check (lift (string item "id"))
  let id ← check (lift (Identity.new text))
  let kind ← check (lift (outputKind item))
  let place ← check (lift (u32 index))
  apply texts (.itemStarted id place kind)
  if isTool item then
    let text ← check (lift (string item (argumentsKey (isCustom item))))
    (eventTextChunks text.toList).forM fun chunk =>
      apply texts (.argumentsDelta id (String.ofList chunk))
  else
    let reasoning := decide (item.lookup "type" = .string "reasoning")
    let parts ← check (lift (okOr (item.lookup (partsKey reasoning)).asArray
      (.invalidField "content")))
    parts.zipIdx.forM (validateCompletePart texts id reasoning)
  apply texts (.itemFinished id)

end Validating

namespace PreparedResponses

variable (texts : Texts)

def supportsReasoning (self : PreparedResponses) : Bool :=
  self.profile.supportOf .reasoningItems = .native

def responseFields : List String :=
  ["id", "object", "created_at", "completed_at", "status", "model", "output", "usage", "error",
    "incomplete_details", "instructions", "tools", "tool_choice", "parallel_tool_calls",
    "max_output_tokens", "temperature", "top_p", "text", "reasoning", "metadata", "store",
    "background", "previous_response_id", "conversation", "max_tool_calls", "prompt_cache_key",
    "service_tier", "truncation", "user", "safety_identifier", "output_text", "top_logprobs"]

def checkDetails (status : String) (value : Json) : Except IrError Unit :=
  match (value.field "incomplete_details").filter (!·.isNull) with
  | none => return ()
  | some details => do
      knownFields details ["reason"]
      rejectIf (status ≠ "incomplete") .unsupportedFeature
      let reason ← string details "reason"
      rejectIf (!(reason = "max_output_tokens" || reason = "content_filter")) .unsupportedFeature

def header (self : PreparedResponses) (value : Json) : Except IrError Unit := do
  knownFields value responseFields
  let id ← string value "id"
  let _ : ResponseId ← Identity.new id
  let status ← string value "status"
  rejectIf (!(["in_progress", "completed", "incomplete", "failed"].contains status) ||
    decide (status ≠ "failed") && (value.field "error").any (!·.isNull)) .invalidEventOrder
  checkDetails status value
  let kind ← string value "object"
  rejectIf (kind ≠ "response") .unsupportedFeature
  let model ← string value "model"
  rejectIf (model ≠ self.model || (value.lookup "created_at").asU64.isNone ||
    (value.field "store").any (!nullOr (· = .bool false) ·) ||
    (value.field "background").any (!nullOr (· = .bool false) ·) ||
    ["previous_response_id", "conversation"].any fun key => (value.field key).any (!·.isNull))
    .unsupportedFeature

/-- What the response may repeat of a request that did not say it. -/
def defaultEcho (key : String) (echo : Json) : Bool :=
  if key = "tools" then echo = .array []
  else if key = "tool_choice" then echo = .string "auto" || echo = .string "none"
  else echo = .bool true

def echoValid (self : PreparedResponses) (key : String) (echo : Json) : Bool :=
  echo.isNull || match self.echoes.field key with
    | some sent => sent = echo
    | none => defaultEcho key echo

def restoreEcho (self : PreparedResponses) (value : Json) (key : String) :
    Except (Fault IrError) Json :=
  match value.field key with
  | none => return value
  | some echo => do
      lift (rejectIf (!self.echoValid key echo) .invalidToolMapping)
      match self.original.field key with
      | some original => value.setAt key original
      | none => return value

def restoreEchoes (self : PreparedResponses) (value : Json) : Except (Fault IrError) Json :=
  ["tools", "tool_choice", "parallel_tool_calls"].foldlM self.restoreEcho value

def withRegistry (m : Method CustomToolBridge IrError ToolCall) :
    Method PreparedResponses (Fault IrError) ToolCall :=
  zoom (·.tools.registry) (fun registry self =>
    { self with tools := { self.tools with registry } }) (faulting m)

def toolFields : List String :=
  ["id", "type", "call_id", "name", "namespace", "arguments", "input", "status"]

def toolInput (custom : Bool) (item : Json) : Except IrError ToolInput := do
  let raw ← string item (argumentsKey custom)
  return if custom then .freeform raw else .json raw

/-- The checks of a tool call, up to the call that is restored. -/
def loweredCall (self : PreparedResponses) (id : ItemId) (item : Json) :
    Except IrError ToolCall := do
  knownFields item toolFields
  let status ← string item "status"
  rejectIf (status ≠ "completed") .invalidEventOrder
  let custom := isCustom item
  if !custom then
    let raw ← string item "arguments"
    let _ ← decode raw.toList
  rejectIf (item.field (argumentsKey !custom)).isSome .invalidToolMapping
  let tool ← identity item
  let _ ← self.tools.resolveIdentity tool
  let text ← string item "call_id"
  let callId ← Identity.new text
  let input ← toolInput custom item
  return { status := some .completed, itemId := some id, callId, tool, input,
           extensions := .responses }

def isFinal (value : Json) : Bool :=
  value.asStr.any fun s => s = "completed" || s = "incomplete"

def checkMessage (item : Json) : Except IrError Unit := do
  knownFields item ["id", "type", "role", "status", "content", "phase"]
  rejectIf ((item.field "phase").any (!isValidPhase ·)) .unsupportedFeature
  rejectIf (item.lookup "role" ≠ .string "assistant" || !isFinal (item.lookup "status"))
    .invalidEventOrder
  let parts ← okOr (item.lookup "content").asArray (.invalidField "content")
  parts.forM (validatePart false)

def checkReasoning (self : PreparedResponses) (item : Json) : Except IrError Unit := do
  rejectIf (!self.supportsReasoning) .unsupportedFeature
  knownFields item ["id", "type", "status", "summary", "encrypted_content"]
  rejectIf ((item.field "encrypted_content").any (!·.isNull) ||
    (item.field "status").any (!isFinal ·)) .unsupportedFeature
  let parts ← okOr (item.lookup "summary").asArray (.invalidField "summary")
  parts.forM (validatePart true)

/-- A tool call as the client declared it; other items are only checked. -/
def restoreItem (item : Json) : Method PreparedResponses (Fault IrError) Json := do
  let self ← read
  let text ← check (lift (string item "id"))
  let id ← check (lift (Identity.new text))
  let type ← check (lift (string item "type"))
  if isToolType type then
    let lowered ← check (lift (self.loweredCall id item))
    let call ← withRegistry
      (CustomToolBridge.restoreCall texts.toLowercase texts.isObjectText lowered)
    check (toolOutput call "completed")
  else if type = "message" then
    check (lift (checkMessage item))
    return item
  else if type = "reasoning" then
    check (lift (self.checkReasoning item))
    return item
  else check (.error (.error .unsupportedFeature))

section Decoding

/-- The items of the output, with the validator they are passed through. -/
def decodeItems (status : Terminal) : EventValidator → Nat → List Json →
    Method PreparedResponses (Fault IrError) (List Json × EventValidator)
  | validator, _, [] => return ([], validator)
  | validator, index, item :: rest => do
      let restored ← restoreItem texts item
      check (rejectIf (status = .completed && restored.lookup "status" = .string "incomplete")
        (.error .invalidEventOrder))
      check (rejectIf (isTool restored && status ≠ .completed) (.error .invalidEventOrder))
      let validator ← check (advance (validateCompleteItem texts restored index) validator)
      let (items, validator) ← decodeItems status validator (index + 1) rest
      return (restored :: items, validator)

/-- The texts of the messages of an output. -/
def outputText (output : List Json) : Except IrError String := do
  let texts ← ((output.filter fun item => item.lookup "type" = .string "message").flatMap
    fun item => (item.lookup "content").asArray.getD []).mapM (string · "text")
  return String.join texts

def checkOutputText (value : Json) (output : List Json) : Except IrError Unit :=
  match (value.field "output_text").filter (!·.isNull) with
  | none => return ()
  | some echo => do
      let text ← outputText output
      rejectIf (echo ≠ .string text) .invalidEventOrder

/-- The usage of a response on its own. -/
def usageOf (value : Json) : Usage.Accumulator :=
  match (value.field "usage").filter (!·.isNull) with
  | some counters => ((Usage.Accumulator.new .responsesV1).observe counters).2
  | none => Usage.Accumulator.new .responsesV1

def upstreamError : Json :=
  ofFields [("code", .string "upstream_error"), ("message", .string "The upstream response failed")]

def decodeValue (value : Json) : Method PreparedResponses (Fault IrError) Json := do
  let self ← read
  check (lift (self.header value))
  let text ← check (lift (string value "status"))
  let status ← check (lift (terminal text))
  let items ← check (lift (okOr (value.lookup "output").asArray (.invalidField "output")))
  let validator ← check (lift (EventValidator.new {}))
  let text ← check (lift (string value "id"))
  let id ← check (lift (Identity.new text))
  let validator ← check (advance (apply texts (.started id)) validator)
  let (output, validator) ← decodeItems texts status validator 0 items
  check (lift (self.tools.validateCount (output.filter isTool).length (status = .completed)))
  check (lift (rejectIf (!(usageOf value).usage.violations.isEmpty) (.invalidField "usage")))
  let _ ← check (advance (apply texts (.finished status none)) validator)
  check (lift (checkOutputText value output))
  let value ← check (value.setAt "output" (.array output))
  let value ← check (self.restoreEchoes value)
  if status = .failed then check (value.setAt "error" upstreamError) else return value

def decodeBytes (text : Text) : Method PreparedResponses (Fault IrError) Json := do
  let value ← check (lift (decode text))
  decodeValue texts value

end Decoding

end PreparedResponses

end ResponseGateway.Adapters
