import ResponseGateway.Adapters.Responses

/-!
`adapters::chat`: a checked completion of a Chat provider. `decode` reads one message with
its tool calls, restores the calls with the registry of the request and passes everything
through the event validator. Of a prepared request it reads the model and the tools only.
-/

namespace ResponseGateway.Adapters
open Checked Ir Request Method
open Json (ofFields)

namespace PreparedTools

variable (texts : Texts)

def resolve (self : PreparedTools) (toolAlias : String) :
    Except IrError (ToolIdentity × ToolKind) := do
  let tool : ToolIdentity := ⟨none, toolAlias⟩
  tool.validate
  self.resolveIdentity tool

/-- A call by the alias of a tool, as the client declared the tool. -/
def restore (name : String) (callId : CallId) (item : ItemId) (raw : String) :
    Method PreparedTools (Fault IrError) ToolCall := do
  let tool : ToolIdentity := ⟨none, name⟩
  check (lift tool.validate)
  let call ← zoom (·.registry) (fun registry self => { self with registry })
    (faulting (CustomToolBridge.restoreCall texts.toLowercase texts.isObjectText {
      status := some .completed, itemId := some item, callId, tool, input := .json raw
      extensions := .responses }))
  let self ← read
  let _ ← check (lift (self.resolve name))
  return call

end PreparedTools

structure PreparedChat where
  model : String
  tools : PreparedTools

namespace PreparedChat

section Reading

/-- A field that is present and not null. -/
def given (value : Json) (key : String) : Option Json := (value.field key).filter (!·.isNull)

/-- The fields of a message and of a delta. -/
def messageFields : List String :=
  ["role", "content", "tool_calls", "refusal", "annotations", "audio", "function_call"]

def checkChoice (choice : Json) : Except IrError Unit :=
  rejectIf ((choice.field "index").bind Json.asU64 ≠ some 0 || (given choice "logprobs").isSome)
    .unsupportedFeature

/-- What a message may carry only when it is empty. -/
def checkUnused (message : Json) : Except IrError Unit := do
  rejectIf (["audio", "function_call"].any fun key => (given message key).isSome)
    .unsupportedFeature
  rejectIf ((given message "refusal").any (· ≠ .string "") ||
    (given message "annotations").any (!isEmptyArray ·)) .unsupportedFeature

/-- The text that identities are made of, the identity and the time of the response. -/
def header (self : PreparedChat) (value : Json) : Except IrError (String × ResponseId × Nat) := do
  let kind ← string value "object"
  rejectIf (kind ≠ "chat.completion") (.invalidField "chat_response")
  let model ← string value "model"
  rejectIf (model ≠ self.model) (.invalidField "chat_response")
  let text ← string value "id"
  let id ← Identity.new ("resp_" ++ text)
  let created ← okOr ((value.field "created").bind Json.asU64) (.invalidField "created")
  return (text, id, created)

/-- The only choice and its message. -/
def message (value : Json) : Except IrError (Json × Json) := do
  let choices ← okOr (((value.field "choices").bind Json.asArray).filter (·.length = 1))
    (.invalidField "choices")
  let choice ← okOr choices.head? (.invalidField "choices")
  checkChoice choice
  let message ← okOr (choice.field "message") (.invalidField "message")
  knownFields message messageFields
  let role ← string message "role"
  rejectIf (role ≠ "assistant") (.invalidField "role")
  checkUnused message
  return (choice, message)

def itemName (id : String) (place : Nat) : String := "item_" ++ id ++ "_" ++ toString place

def terminal (self : PreparedChat) (finish : String) (count : Nat) :
    Except IrError (Terminal × Option String) := do
  let value ←
    if finish = "stop" ∧ count = 0 then pure (Terminal.completed, none)
    else if finish = "tool_calls" ∧ 0 < count then pure (Terminal.completed, none)
    else if finish = "length" then pure (Terminal.incomplete, some "max_output_tokens")
    else .error .unsupportedFeature
  self.tools.validateCount count (value.1 = .completed)
  return value

end Reading

section Usage

def number (value : Json) (key : String) : Except IrError Nat :=
  okOr ((value.field key).bind Json.asU64) (.invalidField "usage")

/-- `u64::checked_add`. -/
def checkedAdd (m n : Nat) : Option Nat := if m + n < 2 ^ 64 then some (m + n) else none

/-- The part of a counter that the details name, when they name it. -/
def usageDetail (value : Json) (source key target : String) (maximum : Nat) (result : Json) :
    Except (Fault IrError) Json :=
  match given value source with
  | none => return result
  | some details => do
      let _ ← lift (object details)
      match details.field key with
      | none => return result
      | some count => do
          let count ← lift (okOr (count.asU64.filter fun n => decide (n ≤ maximum))
            (.invalidField "usage"))
          result.setAt target (ofFields [(key, .number (.ofNat count))])

def usage (value : Json) : Except (Fault IrError) Json := do
  let input ← lift (number value "prompt_tokens")
  let output ← lift (number value "completion_tokens")
  let total ← lift (number value "total_tokens")
  lift (rejectIf (checkedAdd input output ≠ some total) (.invalidField "usage"))
  let result ← usageDetail value "prompt_tokens_details" "cached_tokens" "input_tokens_details"
    input (ofFields [("input_tokens", .number (.ofNat input)),
      ("output_tokens", .number (.ofNat output)), ("total_tokens", .number (.ofNat total))])
  usageDetail value "completion_tokens_details" "reasoning_tokens" "output_tokens_details" output
    result

/-- What the validator is told of a usage. -/
def counted (usage : Json) : EventIR :=
  .usageUpdated { inputTokens := (usage.lookup "input_tokens").asU64
                  outputTokens := (usage.lookup "output_tokens").asU64 }

end Usage

section Decoding

theorem width_pos : 0 < 2 ^ 32 := by decide

/-- `as u32` -/
def asU32 (n : Nat) : Fin (2 ^ 32) := ⟨n % 2 ^ 32, Nat.mod_lt n width_pos⟩

variable (texts : Texts)

def textPart (text : String) : Json :=
  ofFields [("type", .string "output_text"), ("text", .string text), ("annotations", .array [])]

/-- The item of the text of a message. -/
def messageItem (item : ItemId) (text : String) : Json :=
  ofFields [("id", .string item.value), ("type", .string "message"),
    ("role", .string "assistant"), ("status", .string "completed"),
    ("content", .array [textPart text])]

def validateText (item : ItemId) (text : String) : Method EventValidator (Fault IrError) Unit := do
  let index := asU32 0
  apply texts (.itemStarted item index .message)
  apply texts (.partStarted item index .text)
  (eventTextChunks text.toList).forM fun chunk =>
    apply texts (.textDelta item index (String.ofList chunk))
  apply texts (.partFinished item index)
  apply texts (.itemFinished item)

def decodeText (id : String) (message : Json) (validator : EventValidator) :
    Except (Fault IrError) (List Json × EventValidator) :=
  match given message "content" with
  | none => return ([], validator)
  | some content => do
      let text ← lift (okOr content.asStr .unsupportedFeature)
      let item ← lift (Identity.new (itemName id 0))
      let validator ← advance (validateText texts item text) validator
      return ([messageItem item text], validator)

def inputText : ToolInput → String
  | .json text => text
  | .freeform text => text

def validateCall (item : ItemId) (place : Fin (2 ^ 32)) (call : ToolCall) :
    Method EventValidator (Fault IrError) Unit := do
  apply texts (.itemStarted item place (.tool call.tool call.callId call.input.kind))
  (eventTextChunks (inputText call.input).toList).forM fun chunk =>
    apply texts (.argumentsDelta item (String.ofList chunk))
  apply texts (.itemFinished item)

def withTools {α : Type} (m : Method PreparedTools (Fault IrError) α) :
    Method PreparedChat (Fault IrError) α :=
  zoom (·.tools) (fun tools self => { self with tools }) m

/-- The function that a tool call names. -/
def callFunction (tool : Json) : Except IrError Json := do
  knownFields tool ["id", "type", "function"]
  let type ← string tool "type"
  rejectIf (type ≠ "function") .unsupportedFeature
  let function ← okOr (tool.field "function") (.invalidField "function")
  knownFields function ["name", "arguments"]
  return function

def decodeCall (id : String) (place : Nat) (tool : Json) (validator : EventValidator) :
    Method PreparedChat (Fault IrError) (Json × EventValidator) := do
  let function ← check (lift (callFunction tool))
  let item ← check (lift (Identity.new (itemName id place)))
  let name ← check (lift (string function "name"))
  let text ← check (lift (string tool "id"))
  let callId ← check (lift (Identity.new text))
  let raw ← check (lift (string function "arguments"))
  let call ← withTools (PreparedTools.restore texts name callId item raw)
  let index ← check (lift (u32 place))
  let validator ← check (advance (validateCall texts item index call) validator)
  let output ← check (toolOutput call "completed")
  return (output, validator)

def decodeCalls (id : String) : Nat → List Json → EventValidator →
    Method PreparedChat (Fault IrError) (List Json × EventValidator)
  | _, [], validator => return ([], validator)
  | place, tool :: rest, validator => do
      let decoded ← decodeCall texts id place tool validator
      let more ← decodeCalls id (place + 1) rest decoded.2
      return (decoded.1 :: more.1, more.2)

/-- The calls of a message. -/
def calls (message : Json) : Except IrError (List Json) :=
  match given message "tool_calls" with
  | none => return []
  | some calls => okOr calls.asArray (.invalidField "tool_calls")

/-- The usage that a completion reports. -/
def reported (value : Json) : Except (Fault IrError) (Option Json) :=
  match given value "usage" with
  | none => return none
  | some counters => do
      let usage ← usage counters
      return some usage

def statusText (outcome : Terminal) : String :=
  if outcome = .completed then "completed" else "incomplete"

/-- The items of a response that is incomplete are incomplete. -/
def settle (outcome : Terminal) (output : List Json) : Except (Fault IrError) (List Json) :=
  if outcome = .incomplete then output.mapM (·.setAt "status" (.string "incomplete"))
  else return output

def responseOf (id : ResponseId) (created : Nat) (model : String) (status : String)
    (output : List Json) (usage : Json) (reason : Option String) : Json :=
  ofFields [("id", .string id.value), ("object", .string "response"),
    ("created_at", .number (.ofNat created)), ("model", .string model),
    ("status", .string status), ("output", .array output), ("usage", usage), ("error", .null),
    ("incomplete_details",
      (reason.map fun reason => ofFields [("reason", .string reason)]).getD .null)]

def decode (value : Json) : Method PreparedChat (Fault IrError) Json := do
  let self ← read
  let head ← check (lift (self.header value))
  let parts ← check (lift (message value))
  let validator ← check (lift (EventValidator.new {}))
  let validator ← check (advance (apply texts (.started head.2.1)) validator)
  let spoken ← check (decodeText texts head.1 parts.2 validator)
  let tools ← check (lift (calls parts.2))
  let called ← decodeCalls texts head.1 spoken.1.length tools spoken.2
  let finish ← check (lift (string parts.1 "finish_reason"))
  let outcome ← check (lift (self.terminal finish called.1.length))
  let usage ← check (reported value)
  let validator ← check (match usage with
    | some usage => advance (apply texts (counted usage)) called.2
    | none => return called.2)
  let _ ← check (advance (apply texts (.finished outcome.1 outcome.2)) validator)
  let output ← check (settle outcome.1 (spoken.1 ++ called.1))
  return responseOf head.2.1 head.2.2 self.model (statusText outcome.1) output
    (usage.getD .null) outcome.2

def decodeBytes (text : Text) : Method PreparedChat (Fault IrError) Json := do
  let value ← check (lift (Adapters.decode text))
  decode texts value

end Decoding

end PreparedChat

end ResponseGateway.Adapters
