import ResponseGateway.Adapters.Responses
import ResponseGateway.Adapters.Sse

/-!
`adapters::responses::stream`: the events of a Responses stream, checked one by one. Text
is forwarded at once; tool calls wait for the terminal event. Each arm of the match over
event types is a method of its own that returns the events it emits.
-/

namespace ResponseGateway.Adapters
open Checked Ir Request Method
open Json (ofFields)

structure StreamPart where
  value : Json
  textDone : Bool
  closed : Bool
  deriving DecidableEq

structure StreamItem where
  head : Json
  parts : List StreamPart
  arguments : String
  argumentsDone : Bool
  done : Option Json
  deriving DecidableEq

structure ResponsesStream where
  prepared : PreparedResponses
  validator : EventValidator
  response : Option (String × Nat)
  items : OrderedMap Nat StreamItem
  itemIds : Finset String
  callIds : Finset String
  counters : Usage.Accumulator
  sequence : Nat
  sourceSequence : Option Nat
  limit : Nat
  buffered : Nat
  progressSeen : Bool
  complete : Bool
  invalid : Bool

abbrev StreamMethod := Method ResponsesStream (Fault IrError)

def eventLimits : EventLimits := {}

namespace ResponsesStream

variable (texts : Texts)

def new (prepared : PreparedResponses) (limit : Nat) : Except IrError ResponsesStream := do
  rejectIf (limit = 0) .sizeLimit
  let validator ← EventValidator.new {}
  return {
    prepared, validator, response := none, items := .empty, itemIds := ∅, callIds := ∅
    counters := .new .responsesV1, sequence := 0, sourceSequence := none, limit, buffered := 0
    progressSeen := false, complete := false, invalid := false }

section Helpers

def fails {α : Type} (error : IrError) : StreamMethod α := check (.error (.error error))

def ensure {α : Type} (x : Except IrError α) : StreamMethod α := check (lift x)

def validate (event : EventIR) : StreamMethod Unit :=
  zoom (·.validator) (fun validator self => { self with validator }) (apply texts event)

def withPrepared {α : Type} (m : Method PreparedResponses (Fault IrError) α) : StreamMethod α :=
  zoom (·.prepared) (fun prepared self => { self with prepared }) m

def reserve (bytes : Nat) : StreamMethod Unit := do
  let self ← read
  ensure (rejectIf (self.limit - self.buffered < bytes) .sizeLimit)
  write fun self => { self with buffered := self.buffered + bytes }

/-- The event with its number in the published stream. -/
def emit (event : Json) : StreamMethod Json := do
  let self ← read
  let event ← check (event.setAt "sequence_number" (.number (.ofNat self.sequence)))
  ensure (rejectIf (2 ^ 64 ≤ self.sequence + 1) .sizeLimit)
  write fun self => { self with sequence := self.sequence + 1 }
  ensure (rejectIf (self.limit < Text.len event.render) .sizeLimit)
  return event

def checkResponse (value : Json) : StreamMethod Unit := do
  let self ← read
  ensure (self.prepared.header value)
  ensure (rejectIf (self.response.any fun known =>
    value.lookup "id" ≠ .string known.1 || (value.lookup "created_at").asU64 ≠ some known.2)
    .invalidEventOrder)

def index (value : Json) (key : String) : Except IrError Nat :=
  okOr ((value.lookup key).asU64.filter fun n => decide (n < eventLimits.maxParts))
    (.invalidField key)

def emptyLogprobs (value : Json) : Except IrError Unit :=
  rejectIf ((value.field "logprobs").any (!nullOr isEmptyArray ·)) .unsupportedFeature

/-- The item under an index, unless it is done. -/
def openItem (self : ResponsesStream) (n : Nat) : Except IrError StreamItem :=
  okOr ((self.items.get n).filter (·.done.isNone)) .invalidEventOrder

def itemMut (self : ResponsesStream) (value : Json) : Except IrError (Nat × StreamItem) := do
  let n ← index value "output_index"
  let item ← self.openItem n
  rejectIf (value.lookup "item_id" ≠ item.head.lookup "id") .invalidToolMapping
  return (n, item)

/-- A part that is not closed, with the item it belongs to. -/
def partMut (self : ResponsesStream) (value : Json) (reasoning : Bool) (n : Nat) :
    Except IrError (Nat × StreamItem × StreamPart) := do
  let (place, item) ← self.itemMut value
  rejectIf (item.head.lookup "type" ≠ .string (itemType reasoning)) .invalidEventOrder
  let part ← okOr ((item.parts[n]?).filter (!·.closed)) .invalidEventOrder
  return (place, item, part)

def setItem (n : Nat) (item : StreamItem) : StreamMethod Unit :=
  write fun self => { self with items := self.items.insert n item }

end Helpers

section Starting

def created (value : Json) : StreamMethod (List Json) := do
  let self ← read
  ensure (knownFields value ["type", "sequence_number", "response"])
  ensure (rejectIf self.response.isSome .invalidEventOrder)
  let response := value.lookup "response"
  checkResponse response
  ensure (rejectIf (response.lookup "status" ≠ .string "in_progress" ||
    response.lookup "output" ≠ .array []) .invalidEventOrder)
  let text ← ensure (string response "id")
  let id ← ensure (Identity.new text)
  validate texts (.started id)
  let createdAt ← check (okOr (response.lookup "created_at").asU64 .panic)
  write fun self => { self with response := some (text, createdAt) }
  let response ← check (self.prepared.restoreEchoes response)
  let event ← emit (ofFields [("type", .string "response.created"), ("response", response)])
  return [event]

def inProgress (value : Json) : StreamMethod (List Json) := do
  let self ← read
  ensure (knownFields value ["type", "sequence_number", "response"])
  let response := value.lookup "response"
  checkResponse response
  ensure (rejectIf (self.progressSeen || !self.items.entries.isEmpty ||
    response.lookup "status" ≠ .string "in_progress" || response.lookup "output" ≠ .array [])
    .invalidEventOrder)
  write fun self => { self with progressSeen := true }
  let response ← check (self.prepared.restoreEchoes response)
  let value ← check (value.setAt "response" response)
  let event ← emit value
  return [event]

end Starting

section Adding

def addedToolFields : List String :=
  ["id", "type", "call_id", "name", "namespace", "status", "input", "arguments"]

/-- The definition that is exposed under an identity. -/
def definitionOf (self : ResponsesStream) (tool : ToolIdentity) :
    Except IrError ToolDefinition :=
  okOr ((self.prepared.tools.registry.definitions.flatMap ToolDefinition.leaves).find?
    (·.identity = tool)) .invalidToolMapping

/-- The announcement of a tool under the name the client declared. -/
def toolHead (custom : Bool) (id callId : String) (original : ToolIdentity) : Json :=
  ofFields ([("id", .string id), ("type", .string (toolType custom)), ("call_id", .string callId),
      ("name", .string original.name), ("status", .string "in_progress")] ++
    (original.namespace.map fun value => ("namespace", Json.string value)).toList ++
    [(argumentsKey custom, .string "")])

/-- The early announcement, when the order of items is kept. -/
def announceTool (id callId : String) (tool : ToolIdentity) (n : Nat) :
    StreamMethod (List Json) := do
  let self ← read
  if self.prepared.preserveItemOrder then
    let (original, kind) ← ensure (self.prepared.tools.registry.originalOf tool)
    let event ← emit (ofFields [("type", .string "response.output_item.added"),
      ("output_index", .number (.ofNat n)),
      ("item", toolHead (kind = .custom) id callId original)])
    return [event]
  else return []

def addedTool (custom : Bool) (id : String) (item : Json) (n : Nat) :
    StreamMethod (List Json) := do
  let self ← read
  ensure (knownFields item addedToolFields)
  ensure (rejectIf (item.field (argumentsKey !custom)).isSome .invalidToolMapping)
  let input ← ensure (string item (argumentsKey custom))
  ensure (rejectIf (!input.isEmpty || item.lookup "status" ≠ .string "in_progress")
    .invalidToolMapping)
  let tool ← ensure (identity item)
  let _ ← ensure (self.prepared.tools.resolveIdentity tool)
  let text ← ensure (string item "call_id")
  let callId : CallId ← ensure (Identity.new text)
  let definition ← ensure (self.definitionOf tool)
  ensure (rejectIf (definition.toolKind ≠ some (if custom then .custom else .function))
    .invalidToolMapping)
  ensure (rejectIf (decide (callId.value ∈ self.callIds)) .duplicateId)
  write fun self => { self with callIds := insert callId.value self.callIds }
  let self ← read
  ensure (self.prepared.tools.validateCount self.callIds.card false)
  announceTool id callId.value tool n

def addedTextFields (reasoning : Bool) : List String :=
  if reasoning then ["id", "type", "summary", "status", "encrypted_content"]
  else ["id", "type", "role", "content", "status", "phase"]

def addedText (reasoning : Bool) (id : ItemId) (value item : Json) (n : Nat) :
    StreamMethod (List Json) := do
  let self ← read
  ensure (knownFields item (addedTextFields reasoning))
  ensure (rejectIf ((item.field "encrypted_content").any (!·.isNull) ||
    (item.field "phase").any (!isValidPhase ·)) .unsupportedFeature)
  ensure (rejectIf (item.lookup (partsKey reasoning) ≠ .array [] ||
    (!reasoning && item.lookup "role" ≠ .string "assistant") ||
    (item.field "status").any (· ≠ .string "in_progress")) .invalidEventOrder)
  ensure (rejectIf (reasoning && !self.prepared.supportsReasoning) .unsupportedFeature)
  let place ← ensure (u32 n)
  validate texts (.itemStarted id place (if reasoning then .reasoning else .message))
  let event ← emit value
  return [event]

/-- The arm of an announced item, by its type. -/
def addedKind (type : String) (id : ItemId) (value item : Json) (n : Nat) :
    StreamMethod (List Json) :=
  if isToolType type then addedTool (type = "custom_tool_call") id.value item n
  else if type = "message" then addedText texts false id value item n
  else if type = "reasoning" then addedText texts true id value item n
  else fails .unsupportedFeature

def itemAdded (value : Json) : StreamMethod (List Json) := do
  let self ← read
  ensure (knownFields value ["type", "sequence_number", "output_index", "item"])
  let n ← ensure (index value "output_index")
  let item := value.lookup "item"
  let text ← ensure (string item "id")
  let id ← ensure (Identity.new text)
  ensure (rejectIf (eventLimits.maxItems ≤ self.items.size || self.items.contains n ||
    decide (text ∈ self.itemIds)) .duplicateId)
  write fun self => { self with itemIds := insert text self.itemIds }
  let type ← ensure (string item "type")
  let events ← addedKind texts type id value item n
  reserve (Text.len item.render)
  setItem n { head := item, parts := [], arguments := "", argumentsDone := false, done := none }
  return events

end Adding

section Arguments

def checkToolEvent (custom : Bool) (item : StreamItem) : Except IrError Unit :=
  rejectIf (item.head.lookup "type" ≠ .string (toolType custom)) .invalidToolMapping

def argumentsDelta (custom : Bool) (value : Json) : StreamMethod (List Json) := do
  ensure (knownFields value ["type", "sequence_number", "item_id", "output_index", "delta"])
  let text ← ensure (string value "delta")
  ensure (rejectIf (eventLimits.maxDeltaBytes < text.utf8ByteSize) .sizeLimit)
  reserve text.utf8ByteSize
  let self ← read
  let (n, item) ← ensure (self.itemMut value)
  ensure (checkToolEvent custom item)
  ensure (rejectIf item.argumentsDone .invalidEventOrder)
  ensure (rejectIf (eventLimits.maxArgumentBytes - item.arguments.utf8ByteSize <
    text.utf8ByteSize) .sizeLimit)
  setItem n { item with arguments := item.arguments ++ text }
  return []

def argumentsDone (custom : Bool) (value : Json) : StreamMethod (List Json) := do
  ensure (knownFields value
    ["type", "sequence_number", "item_id", "output_index", argumentsKey custom])
  let self ← read
  let (n, item) ← ensure (self.itemMut value)
  ensure (checkToolEvent custom item)
  ensure (rejectIf item.argumentsDone .invalidEventOrder)
  let text ← ensure (string value (argumentsKey custom))
  ensure (rejectIf (text ≠ item.arguments) .invalidEventOrder)
  setItem n { item with argumentsDone := true }
  return []

end Arguments

section Parts

/-- The fields of an event about a part. -/
def partFields (reasoning : Bool) (more : List String) : List String :=
  ["type", "sequence_number", "item_id", "output_index", indexKey reasoning] ++ more

/-- The item that the validator knows an event by. -/
def eventItem (value : Json) : Except IrError ItemId := do
  let text ← string value "item_id"
  Identity.new text

def partAdded (reasoning : Bool) (value : Json) : StreamMethod (List Json) := do
  ensure (knownFields value (partFields reasoning ["part"]))
  let part := value.lookup "part"
  ensure (validatePart reasoning part)
  ensure (rejectIf (part.lookup "text" ≠ .string "") .invalidEventOrder)
  let j ← ensure (index value (indexKey reasoning))
  let self ← read
  let (n, item) ← ensure (self.itemMut value)
  ensure (rejectIf (item.head.lookup "type" ≠ .string (itemType reasoning) ||
    decide (j ≠ item.parts.length)) .invalidEventOrder)
  setItem n { item with
    parts := item.parts ++ [{ value := part, textDone := false, closed := false }] }
  let id ← ensure (eventItem value)
  let place ← ensure (u32 j)
  validate texts (.partStarted id place (if reasoning then .reasoningText else .text))
  let event ← emit value
  return [event]

def textDelta (reasoning : Bool) (value : Json) : StreamMethod (List Json) := do
  ensure (knownFields value (partFields reasoning ["delta", "logprobs"]))
  ensure (emptyLogprobs value)
  let text ← ensure (string value "delta")
  reserve text.utf8ByteSize
  let j ← ensure (index value (indexKey reasoning))
  let self ← read
  let (n, item, part) ← ensure (self.partMut value reasoning j)
  ensure (rejectIf part.textDone .invalidEventOrder)
  let known ← ensure (string part.value "text")
  let changed ← check (part.value.setAt "text" (.string (known ++ text)))
  setItem n { item with parts := item.parts.set j { part with value := changed } }
  let id ← ensure (eventItem value)
  let place ← ensure (u32 j)
  validate texts (.textDelta id place text)
  let event ← emit value
  return [event]

def textDone (reasoning : Bool) (value : Json) : StreamMethod (List Json) := do
  ensure (knownFields value (partFields reasoning ["text", "logprobs"]))
  ensure (emptyLogprobs value)
  let j ← ensure (index value (indexKey reasoning))
  let self ← read
  let (n, item, part) ← ensure (self.partMut value reasoning j)
  ensure (rejectIf (part.textDone || value.lookup "text" ≠ part.value.lookup "text")
    .invalidEventOrder)
  setItem n { item with parts := item.parts.set j { part with textDone := true } }
  let event ← emit value
  return [event]

def partDone (reasoning : Bool) (value : Json) : StreamMethod (List Json) := do
  ensure (knownFields value (partFields reasoning ["part"]))
  let j ← ensure (index value (indexKey reasoning))
  let self ← read
  let (n, item, part) ← ensure (self.partMut value reasoning j)
  ensure (rejectIf (!part.textDone || part.value ≠ value.lookup "part") .invalidEventOrder)
  setItem n { item with parts := item.parts.set j { part with closed := true } }
  let id ← ensure (eventItem value)
  let place ← ensure (u32 j)
  validate texts (.partFinished id place)
  let event ← emit value
  return [event]

end Parts

section Finishing

def headKeys : List String := ["id", "type", "role", "call_id", "name", "namespace", "phase"]

/-- A finished tool has the arguments that were streamed. -/
def checkArguments (item : StreamItem) (original : Json) : Except IrError Unit :=
  rejectIf (!item.argumentsDone ||
    original.lookup (argumentsKey (isCustom original)) ≠ .string item.arguments) .invalidEventOrder

/-- A finished text has the parts that were streamed. -/
def checkParts (item : StreamItem) (original : Json) : Except IrError Unit :=
  rejectIf (item.parts.any (!·.closed) ||
    original.lookup (partsKey (original.lookup "type" = .string "reasoning")) ≠
      .array (item.parts.map (·.value))) .invalidEventOrder

def finishedText (item : StreamItem) (original : Json) : StreamMethod Unit := do
  ensure (checkParts item original)
  let text ← ensure (string original "id")
  let id ← ensure (Identity.new text)
  validate texts (.itemFinished id)

def itemDone (value : Json) : StreamMethod (List Json) := do
  ensure (knownFields value ["type", "sequence_number", "output_index", "item"])
  let n ← ensure (index value "output_index")
  let original := value.lookup "item"
  let restored ← withPrepared (PreparedResponses.restoreItem texts original)
  let self ← read
  let item ← ensure (self.openItem n)
  ensure (rejectIf (headKeys.any fun key => decide (item.head.field key ≠ original.field key))
    .invalidToolMapping)
  if isTool original then ensure (checkArguments item original)
  else finishedText texts item original
  setItem n { item with done := some original }
  if !isTool restored then
    let event ← emit value
    return [event]
  else return []

/-- The announcement of a tool that was not announced before. -/
def announceLate (item : Json) (n : Nat) : StreamMethod (List Json) := do
  let self ← read
  let started ← check (item.setAt "status" (.string "in_progress"))
  let started ← check (started.setAt (argumentsKey (isCustom item)) (.string ""))
  if !self.prepared.preserveItemOrder then
    let event ← emit (ofFields [("type", .string "response.output_item.added"),
      ("output_index", .number (.ofNat n)), ("item", started)])
    return [event]
  else return []

def emitDelta (item : Json) (n : Nat) (chunk : Text) : StreamMethod Json :=
  emit (ofFields [("type", .string (argumentsPrefix (isCustom item) ++ ".delta")),
    ("item_id", item.lookup "id"), ("output_index", .number (.ofNat n)),
    ("delta", .string (String.ofList chunk))])

/-- What is emitted for a list, in its order. -/
def emitAll {α : Type} (f : α → StreamMethod Json) : List α → StreamMethod (List Json)
  | [] => return []
  | a :: rest => do
      let event ← f a
      let events ← emitAll f rest
      return event :: events

def emitTool (item : Json) (n : Nat) : StreamMethod (List Json) := do
  let added ← announceLate item n
  let key := argumentsKey (isCustom item)
  let text ← ensure (string item key)
  let deltas ← emitAll (emitDelta item n) (eventTextChunks text.toList)
  let argumentsDone ← emit (ofFields
    [("type", .string (argumentsPrefix (isCustom item) ++ ".done")), ("item_id", item.lookup "id"),
      ("output_index", .number (.ofNat n)), (key, item.lookup key)])
  let done ← emit (ofFields [("type", .string "response.output_item.done"),
    ("output_index", .number (.ofNat n)), ("item", item)])
  return added ++ deltas ++ [argumentsDone, done]

/-- The tools of the restored output. -/
def emitTools : Nat → List Json → StreamMethod (List Json)
  | _, [] => return []
  | n, item :: rest => do
      let events ←
        if isTool item then do
          zoom (·.validator) (fun validator self => { self with validator })
            (validateCompleteItem texts item n)
          emitTool item n
        else pure []
      let more ← emitTools (n + 1) rest
      return events ++ more

/-- Every item was done as the response has it. -/
def checkOutput (self : ResponsesStream) (output : List Json) : Except IrError Unit := do
  rejectIf (output.length ≠ self.items.size || !self.counters.usage.violations.isEmpty)
    .invalidEventOrder
  output.zipIdx.forM fun entry => do
    let item ← okOr (self.items.get entry.2) .invalidEventOrder
    rejectIf (item.done ≠ some entry.1) .invalidEventOrder

def terminated (status : String) (value : Json) : StreamMethod (List Json) := do
  ensure (knownFields value ["type", "sequence_number", "response"])
  let response := value.lookup "response"
  checkResponse response
  ensure (rejectIf (response.lookup "status" ≠ .string status) .invalidEventOrder)
  let raw ← ensure (okOr (response.lookup "output").asArray (.invalidField "output"))
  let self ← read
  ensure (self.checkOutput raw)
  let restored ← withPrepared (PreparedResponses.decodeValue texts response)
  let output ← check (okOr (restored.lookup "output").asArray .panic)
  let events ← emitTools texts 0 output
  let outcome ← ensure (terminal status)
  validate texts (.finished outcome none)
  let event ← emit (ofFields [("type", .string ("response." ++ status)), ("response", restored)])
  write fun self => { self with complete := true }
  return events ++ [event]

end Finishing

section Converting

/-- The arms of the match after the first one. -/
def dispatch (type : String) (value : Json) : StreamMethod (List Json) :=
  match type with
  | "response.in_progress" => inProgress value
  | "response.output_item.added" => itemAdded texts value
  | "response.function_call_arguments.delta" => argumentsDelta false value
  | "response.custom_tool_call_input.delta" => argumentsDelta true value
  | "response.function_call_arguments.done" => argumentsDone false value
  | "response.custom_tool_call_input.done" => argumentsDone true value
  | "response.content_part.added" => partAdded texts false value
  | "response.reasoning_summary_part.added" => partAdded texts true value
  | "response.output_text.delta" => textDelta texts false value
  | "response.reasoning_summary_text.delta" => textDelta texts true value
  | "response.output_text.done" => textDone false value
  | "response.reasoning_summary_text.done" => textDone true value
  | "response.content_part.done" => partDone texts false value
  | "response.reasoning_summary_part.done" => partDone texts true value
  | "response.output_item.done" => itemDone texts value
  | "response.completed" => terminated texts "completed" value
  | "response.incomplete" => terminated texts "incomplete" value
  | "response.failed" => terminated texts "failed" value
  | _ => fails .unsupportedFeature

/-- The checks of every event: its own number grows, and so do the counters. -/
def checkEvent (event : SseEvent) (type : String) (value : Json) : StreamMethod Unit := do
  ensure (rejectIf (event.event ≠ type.toList) (.invalidField "responses_event"))
  let sequence ← ensure (okOr (value.lookup "sequence_number").asU64
    (.invalidField "sequence_number"))
  let self ← read
  ensure (rejectIf (self.sourceSequence.any (sequence ≤ ·)) .invalidEventOrder)
  write fun self => { self with sourceSequence := some sequence }
  match ((value.field "response").bind (·.field "usage")).filter (!·.isNull) with
  | some counters =>
      write fun self => { self with counters := (self.counters.observe counters).2 }
  | none => pure ()
  let self ← read
  ensure (rejectIf (self.counters.usage.violations.any fun v =>
    v = "invalid_counter" || v = "counter_decreased") (.invalidField "usage"))

def convert (event : SseEvent) : StreamMethod (List Json) := do
  let self ← read
  ensure (rejectIf (self.limit < Text.len event.data) .sizeLimit)
  let value ← ensure (decode event.data)
  let type ← ensure (string value "type")
  checkEvent event type value
  let self ← read
  if type = "response.created" then created texts value
  else if self.response.isNone then fails .invalidEventOrder
  else dispatch texts type value

def event (event : SseEvent) : StreamMethod (List Json) := fun self =>
  if self.invalid || self.complete then (.error (.error .invalidEventOrder), self)
  else
    match convert texts event self with
    | (.ok events, self) => (.ok events, self)
    | (.error fault, self) => (.error fault, { self with invalid := true })

def finish (self : ResponsesStream) : Except IrError Unit :=
  rejectIf (!(self.complete && !self.invalid)) .invalidEventOrder

def isComplete (self : ResponsesStream) : Bool := self.complete && !self.invalid

end Converting

end ResponsesStream

end ResponseGateway.Adapters
