import ResponseGateway.Adapters.Chat
import ResponseGateway.Adapters.Sse

/-!
`adapters::chat::stream`: the chunks of a streamed completion. Text is forwarded at once.
The fragments of tool calls are collected by their index; with the reason for the end the
whole message is decoded, and what it has beyond the text is emitted. The end of the stream
emits the decoded response with the last usage that was reported.
-/

namespace ResponseGateway.Adapters
open Checked Ir Request Method
open Json (ofFields)
open PreparedChat (given asU32)

structure ToolFragments where
  id : String := ""
  name : String := ""
  arguments : String := ""
  functionType : Bool := false
  deriving DecidableEq

structure ChatStream where
  prepared : PreparedChat
  validator : EventValidator
  id : Option String
  created : Option Nat
  text : Option String
  calls : OrderedMap Nat ToolFragments
  finishReason : Option String
  finalResponse : Option Json
  usage : Option Json
  buffered : Nat
  argumentBytes : Nat
  limit : Nat
  sequence : Nat
  failed : Bool
  done : Bool

namespace ChatStream

abbrev ChatMethod := Method ChatStream (Fault IrError)

variable (texts : Texts)

def new (prepared : PreparedChat) (limit : Nat) : Except IrError ChatStream := do
  rejectIf (limit = 0) .sizeLimit
  let validator ← EventValidator.new {}
  return {
    prepared, validator, id := none, created := none, text := none, calls := .empty
    finishReason := none, finalResponse := none, usage := none, buffered := 0, argumentBytes := 0
    limit, sequence := 0, failed := false, done := false }

section Helpers

def limits : EventLimits := {}

def ensure {α : Type} (x : Except IrError α) : ChatMethod α := check (lift x)

def validate (event : EventIR) : ChatMethod Unit :=
  zoom (·.validator) (fun validator self => { self with validator }) (apply texts event)

/-- The event with its type and its number. A number beyond 64 bits is a panic. -/
def emit (type : String) (value : Json) : ChatMethod Json := do
  let self ← read
  let value ← check (value.setAt "type" (.string type))
  let value ← check (value.setAt "sequence_number" (.number (.ofNat self.sequence)))
  check (rejectIf (2 ^ 64 ≤ self.sequence + 1) .panic)
  write fun self => { self with sequence := self.sequence + 1 }
  return value

def reserve (bytes : Nat) : ChatMethod Unit := do
  let self ← read
  ensure (rejectIf (self.limit - self.buffered < bytes) .sizeLimit)
  write fun self => { self with buffered := self.buffered + bytes }

/-- What is emitted for a list, in its order. -/
def emitAll {α : Type} (f : α → ChatMethod Json) : List α → ChatMethod (List Json)
  | [] => return []
  | a :: rest => do
      let event ← f a
      let events ← emitAll f rest
      return event :: events

end Helpers

section Text

/-- The announcement of the message. -/
def messageAdded (item : ItemId) : Json :=
  ofFields [("output_index", .number (.ofNat 0)), ("item", ofFields [("id", .string item.value),
    ("type", .string "message"), ("role", .string "assistant"), ("status", .string "in_progress"),
    ("content", .array [])])]

/-- An event about the only part of the message. -/
def partEvent (item : ItemId) (place : Nat) (fields : Json.Fields) : Json :=
  ofFields ([("item_id", .string item.value), ("output_index", .number (.ofNat place)),
    ("content_index", .number (.ofNat 0))] ++ fields)

/-- The message is announced with its first text. -/
def announce (item : ItemId) : ChatMethod (List Json) := do
  let self ← read
  if self.text.isNone then
    ensure (rejectIf (limits.maxItems ≤ self.calls.size) .sizeLimit)
    validate texts (.itemStarted item (asU32 0) .message)
    validate texts (.partStarted item (asU32 0) .text)
    write fun self => { self with text := some "" }
    let added ← emit "response.output_item.added" (messageAdded item)
    let part ← emit "response.content_part.added"
      (partEvent item 0 [("part", PreparedChat.textPart "")])
    return [added, part]
  else return []

def textDelta (text : String) : ChatMethod (List Json) := do
  reserve text.utf8ByteSize
  let self ← read
  let id ← check (okOr self.id .panic)
  let item ← ensure (Identity.new (PreparedChat.itemName id 0))
  let opening ← announce texts item
  validate texts (.textDelta item (asU32 0) text)
  let self ← read
  let known ← check (okOr self.text .panic)
  write fun self => { self with text := some (known ++ text) }
  if text ≠ "" then
    let event ← emit "response.output_text.delta"
      (partEvent item 0 [("delta", .string text), ("logprobs", .array [])])
    return opening ++ [event]
  else return opening

end Text

section Tools

def fragment (value : Option Json) : Except IrError (Option String) :=
  match value.filter (!·.isNull) with
  | none => return none
  | some value => do
      let text ← okOr value.asStr (.invalidField "tool_fragment")
      return some text

def toolIndex (delta : Json) : Except IrError Nat :=
  okOr (((delta.field "index").bind Json.asU64).filter fun n => decide (n < limits.maxItems))
    (.invalidField "tool_index")

/-- The arguments of all calls together are bounded. -/
def countArguments (arguments : String) : ChatMethod Unit := do
  let self ← read
  ensure (rejectIf (limits.maxDeltaBytes < arguments.utf8ByteSize ||
    limits.maxArgumentBytes - self.argumentBytes < arguments.utf8ByteSize) .sizeLimit)
  write fun self => { self with argumentBytes := self.argumentBytes + arguments.utf8ByteSize }

/-- A fragment of a text that has a limit. -/
def extend (limit : Nat) (known : String) (more : Option String) : Except IrError String :=
  match more with
  | none => return known
  | some text => do
      rejectIf (limit - known.utf8ByteSize < text.utf8ByteSize) .sizeLimit
      return known ++ text

def functionType (delta : Json) (known : Bool) : Except IrError Bool :=
  match given delta "type" with
  | none => return known
  | some kind => do
      rejectIf (kind ≠ .string "function") .unsupportedFeature
      return true

def setCall (index : Nat) (call : ToolFragments) : ChatMethod Unit :=
  write fun self => { self with calls := self.calls.insert index call }

def sizeOf (text : Option String) : Nat := (text.map String.utf8ByteSize).getD 0

def toolDelta (delta : Json) : ChatMethod Unit := do
  ensure (knownFields delta ["index", "id", "type", "function"])
  let index ← ensure (toolIndex delta)
  let self ← read
  ensure (rejectIf (!self.calls.contains index &&
    decide (limits.maxItems ≤ self.calls.size + self.text.isSome.toNat)) .sizeLimit)
  let function := given delta "function"
  ensure (match function with
    | some function => knownFields function ["name", "arguments"]
    | none => return ())
  let id ← ensure (fragment (delta.field "id"))
  let name ← ensure (fragment (function.bind (·.field "name")))
  let arguments ← ensure (fragment (function.bind (·.field "arguments")))
  reserve (sizeOf id + sizeOf name + sizeOf arguments)
  match arguments with
    | some arguments => countArguments arguments
    | none => pure ()
  let self ← read
  -- The entry is made before the checks that follow.
  let call := (self.calls.get index).getD {}
  setCall index call
  let functionType ← ensure (functionType delta call.functionType)
  setCall index { call with functionType }
  let id ← ensure (extend 512 call.id id)
  setCall index { call with functionType, id }
  let name ← ensure (extend 64 call.name name)
  setCall index { call with functionType, id, name, arguments := call.arguments ++ arguments.getD "" }

def toolDeltas : List Json → ChatMethod Unit
  | [] => return ()
  | delta :: rest => do
      toolDelta delta
      toolDeltas rest

end Tools

section Flushing

/-- A call as a completion has it. -/
def callJson (call : ToolFragments) : Json :=
  ofFields [("id", .string call.id), ("type", .string "function"),
    ("function", ofFields [("name", .string call.name), ("arguments", .string call.arguments)])]

/-- The calls have the indices 0, 1 and so on, and each is a function. -/
def checkCalls (entries : List (Nat × ToolFragments)) : Except IrError (List Json) :=
  entries.zipIdx.mapM fun entry => do
    rejectIf (entry.2 ≠ entry.1.1 || !entry.1.2.functionType) .invalidEventOrder
    return callJson entry.1.2

def textOrNull (text : Option String) : Json := (text.map Json.string).getD .null

/-- A completion as a provider sends it. -/
def completionOf (id : Option String) (created : Option Nat) (model : String) (text : Option String)
    (calls : List Json) (finish : Option String) (usage : Json) : Json :=
  ofFields [("id", textOrNull id), ("object", .string "chat.completion"),
    ("created", (created.map fun n => Json.number (.ofNat n)).getD .null),
    ("model", .string model),
    ("choices", .array [ofFields [("index", .number (.ofNat 0)),
      ("message", ofFields [("role", .string "assistant"), ("content", textOrNull text),
        ("tool_calls", .array calls)]),
      ("finish_reason", textOrNull finish)]]),
    ("usage", usage)]

/-- The first element of an array, or null. -/
def firstOf (value : Json) : Json := (value.asArray.bind List.head?).getD .null

/-- The end of the text. -/
def flushText (item : Json) (id : ItemId) (place : Nat) : ChatMethod (List Json) := do
  validate texts (.partFinished id (asU32 0))
  let part := firstOf (item.lookup "content")
  let text ← emit "response.output_text.done"
    (partEvent id place [("text", part.lookup "text"), ("logprobs", .array [])])
  let done ← emit "response.content_part.done" (partEvent id place [("part", part)])
  return [text, done]

def flushKind (item : Json) : Except (Fault IrError) OutputKind := do
  let name ← okOr (item.fieldStr "name") .panic
  let tool : ToolIdentity := ⟨item.fieldStr "namespace", name⟩
  lift tool.validate
  let text ← okOr (item.fieldStr "call_id") .panic
  let callId ← lift (Identity.new text)
  return .tool tool callId (if isCustom item then .custom else .function)

def flushDelta (custom : Bool) (id : ItemId) (place : Nat) (chunk : Text) : ChatMethod Json := do
  validate texts (.argumentsDelta id (String.ofList chunk))
  emit (argumentsPrefix custom ++ ".delta")
    (ofFields [("item_id", .string id.value), ("output_index", .number (.ofNat place)),
      ("delta", .string (String.ofList chunk))])

/-- A tool as a whole. -/
def flushTool (item : Json) (id : ItemId) (place : Nat) : ChatMethod (List Json) := do
  let custom := isCustom item
  let kind ← check (flushKind item)
  validate texts (.itemStarted id (asU32 place) kind)
  let started ← check (item.setAt "status" (.string "in_progress"))
  let started ← check (started.setAt (argumentsKey custom) (.string ""))
  let added ← emit "response.output_item.added"
    (ofFields [("output_index", .number (.ofNat place)), ("item", started)])
  let text ← check (okOr (item.fieldStr (argumentsKey custom)) .panic)
  let deltas ← emitAll (flushDelta texts custom id place) (eventTextChunks text.toList)
  let done ← emit (argumentsPrefix custom ++ ".done")
    (ofFields [("item_id", .string id.value), ("output_index", .number (.ofNat place)),
      (argumentsKey custom, .string text)])
  return added :: (deltas ++ [done])

def flushItem (item : Json) (place : Nat) : ChatMethod (List Json) := do
  let text ← check (okOr (item.fieldStr "id") .panic)
  let id ← ensure (Identity.new text)
  let events ←
    if item.lookup "type" = .string "message" then flushText texts item id place
    else flushTool texts item id place
  validate texts (.itemFinished id)
  let done ← emit "response.output_item.done"
    (ofFields [("output_index", .number (.ofNat place)), ("item", item)])
  return events ++ [done]

def flushItems : Nat → List Json → ChatMethod (List Json)
  | _, [] => return []
  | place, item :: rest => do
      let events ← flushItem texts item place
      let more ← flushItems (place + 1) rest
      return events ++ more

def flush : ChatMethod (List Json) := do
  let self ← read
  let calls ← ensure (checkCalls self.calls.entries)
  let source := completionOf self.id self.created self.prepared.model self.text calls
    self.finishReason .null
  let response ← zoom (·.prepared) (fun prepared self => { self with prepared })
    (PreparedChat.decode texts source)
  let output ← check (okOr (response.lookup "output").asArray .panic)
  let events ← flushItems texts 0 output
  write fun self => { self with finalResponse := some response }
  return events

end Flushing

section Converting

def chunkFields : List String :=
  ["id", "object", "created", "model", "choices", "usage", "system_fingerprint", "service_tier",
    "obfuscation", "metadata", "moderation"]

def checkChunk (model : String) (value : Json) : Except IrError Unit := do
  knownFields value chunkFields
  rejectIf (["metadata", "moderation"].any fun key => (given value key).isSome) .unsupportedFeature
  let kind ← string value "object"
  rejectIf (kind ≠ "chat.completion.chunk") (.invalidField "chat_chunk")
  let name ← string value "model"
  rejectIf (name ≠ model) (.invalidField "chat_chunk")

/-- The response before anything of it is known. -/
def started (id : ResponseId) (created : Nat) (model : String) : Json :=
  ofFields [("id", .string id.value), ("object", .string "response"),
    ("created_at", .number (.ofNat created)), ("model", .string model),
    ("status", .string "in_progress"), ("output", .array []), ("usage", .null), ("error", .null),
    ("incomplete_details", .null)]

/-- The first chunk names the response, the others name the same one. -/
def identify (value : Json) : ChatMethod (List Json) := do
  let self ← read
  let id ← ensure (string value "id")
  let created ← ensure (okOr ((value.field "created").bind Json.asU64) (.invalidField "created"))
  match self.id with
  | some existing =>
      ensure (rejectIf (existing ≠ id || self.created ≠ some created)
        (.invalidField "chat_chunk_identity"))
      return []
  | none =>
      let response ← ensure (Identity.new ("resp_" ++ id))
      validate texts (.started response)
      write fun self => { self with id := some id, created := some created }
      let event ← emit "response.created"
        (ofFields [("response", started response created self.prepared.model)])
      return [event]

/-- What an accepted delta says. -/
def checkDelta (choice : Json) : Except IrError Json := do
  knownFields choice ["index", "delta", "finish_reason", "logprobs"]
  PreparedChat.checkChoice choice
  let delta ← okOr (choice.field "delta") (.invalidField "delta")
  knownFields delta PreparedChat.messageFields
  rejectIf ((given delta "role").any (· ≠ .string "assistant")) (.invalidField "role")
  PreparedChat.checkUnused delta
  return delta

def takeText (delta : Json) : ChatMethod (List Json) :=
  match given delta "content" with
  | none => return []
  | some content => do
      let text ← ensure (okOr content.asStr .unsupportedFeature)
      textDelta texts text

def takeCalls (delta : Json) : ChatMethod Unit :=
  match given delta "tool_calls" with
  | none => return ()
  | some calls => do
      let calls ← ensure (okOr calls.asArray (.invalidField "tool_calls"))
      toolDeltas calls

def takeFinish (choice : Json) : ChatMethod (List Json) :=
  match given choice "finish_reason" with
  | none => return []
  | some finish => do
      let finish ← ensure (okOr finish.asStr (.invalidField "finish_reason"))
      write fun self => { self with finishReason := some finish }
      flush texts

def takeChoice (choice : Json) : ChatMethod (List Json) := do
  let delta ← ensure (checkDelta choice)
  let spoken ← takeText texts delta
  takeCalls delta
  let flushed ← takeFinish texts choice
  return spoken ++ flushed

/-- At most one choice, and none after the reason for the end. -/
def takeChoices (value : Json) : ChatMethod (List Json) := do
  let choices ← ensure (okOr ((value.field "choices").bind Json.asArray) (.invalidField "choices"))
  let self ← read
  match choices with
  | [] =>
      ensure (rejectIf (self.finishReason.isNone || (given value "usage").isNone)
        .invalidEventOrder)
      return []
  | choice :: rest =>
      ensure (rejectIf (!rest.isEmpty || self.finishReason.isSome) .invalidEventOrder)
      takeChoice texts choice

def takeUsage (value : Json) : ChatMethod Unit := do
  let usage ← check (PreparedChat.reported value)
  match usage with
  | none => return ()
  | some usage =>
      validate texts (PreparedChat.counted usage)
      write fun self => { self with usage := some usage }

def chunk (value : Json) : ChatMethod (List Json) := do
  let self ← read
  ensure (checkChunk self.prepared.model value)
  let opening ← identify texts value
  let events ← takeChoices texts value
  takeUsage texts value
  return opening ++ events

def close : ChatMethod (List Json) := do
  let self ← read
  let finish ← ensure (okOr self.finishReason .invalidEventOrder)
  let outcome ← ensure (self.prepared.terminal finish self.calls.size)
  let response ← ensure (okOr self.finalResponse .invalidEventOrder)
  write fun self => { self with finalResponse := none }
  let response ← check (response.setAt "usage" (self.usage.getD .null))
  validate texts (.finished outcome.1 outcome.2)
  let event ← emit ("response." ++ PreparedChat.statusText outcome.1)
    (ofFields [("response", response)])
  write fun self => { self with done := true }
  return [event]

/-- The event that ends a stream. -/
def doneText : Text := "[DONE]".toList

def convert (event : SseEvent) : ChatMethod (List Json) := do
  let self ← read
  ensure (rejectIf (event.event ≠ "message".toList) (.invalidField "chat_stream_event"))
  ensure (rejectIf (self.limit < Text.len event.data) .sizeLimit)
  if event.data = doneText then close texts
  else do
    let value ← ensure (decode event.data)
    chunk texts value

def event (event : SseEvent) : ChatMethod (List Json) := fun self =>
  if self.failed || self.done then (.error (.error .invalidEventOrder), self)
  else
    match convert texts event self with
    | (.ok events, self) => (.ok events, self)
    | (.error fault, self) => (.error fault, { self with failed := true })

def isComplete (self : ChatStream) : Bool := self.done && !self.failed

def finish (self : ChatStream) : Except IrError Unit :=
  rejectIf (!self.isComplete) .invalidEventOrder

end Converting

end ChatStream

end ResponseGateway.Adapters
