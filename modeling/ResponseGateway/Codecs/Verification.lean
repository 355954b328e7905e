import ResponseGateway.Adapters.Events

/-!
`codecs::verification`: what a codec or a provider plugin publishes before the final
response exists. `observe` accepts message and reasoning items, their parts and text
deltas, and remembers the texts; `finish` compares them with the final response, and
`terminalEvents` writes the events that are still missing. The parts of an item are
numbered in the order they are added, so a list holds them.
-/

namespace ResponseGateway.Codecs
open Checked Ir Adapters
open Json (ofFields)

structure Item where
  kind : String
  index : Nat
  parts : List String
  deriving DecidableEq

structure Progress where
  items : OrderedMap String Item
  bytes : Nat
  created : Option String
  deriving DecidableEq

namespace Progress

def default : Progress := { items := .empty, bytes := 0, created := none }

section Observing

def observeCreated (event : Json) (self : Progress) : Except IrError Progress := do
  knownFields event ["type", "response"]
  rejectIf (self.created.isSome || !self.items.entries.isEmpty) .invalidEventOrder
  let id ← string (event.lookup "response") "id"
  rejectIf (((event.lookup "response").lookup "output").asArray.any fun a => !a.isEmpty)
    .invalidEventOrder
  return { self with created := some id }

def itemFields (kind : String) : List String :=
  if kind = "message" then ["id", "type", "role", "status", "content"] else ["id", "type", "summary"]

def observeAdded (event : Json) (self : Progress) : Except IrError Progress := do
  knownFields event ["type", "output_index", "item"]
  let item := event.lookup "item"
  let kind ← string item "type"
  rejectIf (!(kind = "message" || kind = "reasoning")) .invalidEventOrder
  knownFields item (itemFields kind)
  rejectIf (kind = "message" && (item.lookup "role" ≠ .string "assistant" ||
      item.lookup "status" ≠ .string "in_progress") ||
    !(item.lookup (partsKey (kind ≠ "message"))).asArray.any List.isEmpty) .invalidEventOrder
  let index ← okOr (event.lookup "output_index").asU64 .invalidEventOrder
  rejectIf (4096 ≤ index || self.items.values.any (fun i => index ≤ i.index) ||
    4096 ≤ self.items.size) .invalidEventOrder
  let id ← string item "id"
  rejectIf (self.items.contains id) .duplicateId
  return { self with items := self.items.insert id { kind, index, parts := [] } }

/-- A part that is added, or a delta of its text. -/
def observePart (reasoning added : Bool) (event : Json) (self : Progress) :
    Except IrError Progress := do
  knownFields event
    ["type", "output_index", "item_id", indexKey reasoning, if added then "part" else "delta"]
  let id ← string event "item_id"
  let item ← okOr (self.items.get id) .unknownItem
  rejectIf ((event.lookup "output_index").asU64 ≠ some item.index ||
    decide (item.kind = "reasoning") != reasoning) .invalidEventOrder
  let index ← okOr (event.lookup (indexKey reasoning)).asU64 .invalidEventOrder
  if added then
    let part := event.lookup "part"
    knownFields part ["type", "text", "annotations"]
    rejectIf (part.lookup "type" ≠ .string (partType reasoning) ||
      part.lookup "text" ≠ .string "" || (part.field "annotations").any (· ≠ .array []) ||
      index ≠ item.parts.length || 16384 ≤ item.parts.length) .invalidEventOrder
    return { self with items := self.items.insert id { item with parts := item.parts ++ [""] } }
  else
    let text ← okOr item.parts[index]? .invalidEventOrder
    let delta ← string event "delta"
    return { self with
      items := self.items.insert id { item with parts := item.parts.set index (text ++ delta) } }

/-- One turn of the loop. -/
def observeEvent (maximum : Nat) (self : Progress) (event : Json) : Except IrError Progress := do
  let bytes := self.bytes + (renderText event).utf8ByteSize
  rejectIf (maximum < bytes) .sizeLimit
  let self := { self with bytes }
  match ← string event "type" with
  | "response.created" => observeCreated event self
  | "response.output_item.added" => observeAdded event self
  | "response.content_part.added" => observePart false true event self
  | "response.reasoning_summary_part.added" => observePart true true event self
  | "response.output_text.delta" => observePart false false event self
  | "response.reasoning_summary_text.delta" => observePart true false event self
  | _ => .error .invalidEventOrder

def observe (self : Progress) (events : List Json) (maximum : Nat) : Except IrError Progress :=
  events.foldlM (observeEvent maximum) self

/-- What is required of an event before it is observed. -/
def observeProviderEvent (maximum : Nat) (self : Progress) (event : Json) :
    Except IrError Progress := do
  rejectIf (event.lookup "type" ≠ .string "response.created" && self.created.isNone)
    .invalidEventOrder
  rejectIf (event.lookup "type" = .string "response.output_item.added" &&
    (event.lookup "output_index").asU64 ≠ some self.items.size) .invalidEventOrder
  self.observe [event] maximum

def observeProvider (self : Progress) (events : List Json) (maximum : Nat) :
    Except IrError Progress :=
  events.foldlM (observeProviderEvent maximum) self

end Observing

section Finishing

def finishPart (parts : List Json) (entry : String × Nat) : Except IrError Unit :=
  rejectIf ((parts[entry.2]?.bind fun v => v.fieldStr "text") ≠ some entry.1) .invalidEventOrder

def finishItem (output : List Json) (entry : String × Item) : Except IrError Unit := do
  let finalItem ← okOr (output.find? fun v => v.lookup "id" = .string entry.1) .unknownItem
  rejectIf (finalItem.lookup "type" ≠ .string entry.2.kind) .invalidEventOrder
  let parts ← okOr (finalItem.lookup (partsKey (entry.2.kind = "reasoning"))).asArray
    .invalidEventOrder
  entry.2.parts.zipIdx.forM (finishPart parts)

def finish (self : Progress) (response : Json) : Except IrError Unit := do
  rejectIf (self.created.any fun id => response.lookup "id" ≠ .string id) .invalidEventOrder
  let output ← okOr (response.lookup "output").asArray .invalidEventOrder
  self.items.entries.forM (finishItem output)

end Finishing

end Progress

section TerminalEvents

def itemAdded (index : Nat) (item : Json) : Json :=
  ofFields [("type", .string "response.output_item.added"),
    ("output_index", .number (.ofNat index)), ("item", item)]

def itemDone (index : Nat) (item : Json) : Json :=
  ofFields [("type", .string "response.output_item.done"),
    ("output_index", .number (.ofNat index)), ("item", item)]

def argumentsDelta (custom : Bool) (id : String) (index : Nat) (chunk : Text) : Json :=
  ofFields [("type", .string (argumentsPrefix custom ++ ".delta")), ("item_id", .string id),
    ("output_index", .number (.ofNat index)), ("delta", .string (String.ofList chunk))]

def argumentsDone (custom : Bool) (id : String) (index : Nat) (item : Json) : Json :=
  ofFields [("type", .string (argumentsPrefix custom ++ ".done")), ("item_id", .string id),
    ("output_index", .number (.ofNat index)),
    (argumentsKey custom, item.lookup (argumentsKey custom))]

/-- The fields of an event about a part, around its own. -/
def partEvent (type : String) (reasoning : Bool) (id : String) (index partIndex : Nat)
    (key : String) (value : Json) : Json :=
  ofFields [("type", .string type), ("item_id", .string id),
    ("output_index", .number (.ofNat index)),
    (indexKey reasoning, .number (.ofNat partIndex)), (key, value)]

def partAdded (reasoning : Bool) (id : String) (index partIndex : Nat) (part : Json) : Json :=
  partEvent (partPrefix reasoning ++ ".added") reasoning id index partIndex "part" part

def textDelta (reasoning : Bool) (id : String) (index partIndex : Nat) (chunk : Text) : Json :=
  partEvent (textPrefix reasoning ++ ".delta") reasoning id index partIndex "delta"
    (.string (String.ofList chunk))

def textDone (reasoning : Bool) (id : String) (index partIndex : Nat) (part : Json) : Json :=
  partEvent (textPrefix reasoning ++ ".done") reasoning id index partIndex "text"
    (part.lookup "text")

def partDone (reasoning : Bool) (id : String) (index partIndex : Nat) (part : Json) : Json :=
  partEvent (partPrefix reasoning ++ ".done") reasoning id index partIndex "part" part

namespace Progress

/-- `response.created` for a response whose progress was not seen. -/
def createdEvent (self : Progress) (response : Json) : Except (Fault IrError) (List Json) :=
  if self.created.isNone then do
    lift (rejectIf (!self.items.entries.isEmpty) .invalidEventOrder)
    let created ← response.setAt "status" (.string "in_progress")
    let created ← created.setAt "output" (.array [])
    let fields ← lift (okOr created.asObject .invalidEventOrder)
    return [ofFields [("type", .string "response.created"),
      ("response", .object (Assoc.erase "usage" (Assoc.erase "output_text" fields)))]]
  else return []

/-- The item as it is announced. -/
def started (kind : String) (item : Json) : Except (Fault IrError) Json :=
  if isToolType kind then do
    let item ← item.setAt "status" (.string "in_progress")
    item.setAt (argumentsKey (kind = "custom_tool_call")) (.string "")
  else if kind = "reasoning" then item.setAt "summary" (.array [])
  else do
    let item ← item.setAt "status" (.string "in_progress")
    item.setAt "content" (.array [])

def addedEvents (self : Progress) (kind : String) (observed : Option Item) (index : Nat)
    (item : Json) : Except (Fault IrError) (List Json) :=
  if observed.isNone then do
    lift (rejectIf (self.items.values.any fun other => index < other.index) .invalidEventOrder)
    let started ← started kind item
    return [itemAdded index started]
  else return []

def argumentEvents (custom : Bool) (id : String) (index : Nat) (item : Json) :
    Except (Fault IrError) (List Json) := do
  let text ← lift (string item (argumentsKey custom))
  return (eventTextChunks text.toList).map (argumentsDelta custom id index) ++
    [argumentsDone custom id index item]

def partEvents (reasoning : Bool) (id : String) (index : Nat) (observed : Option Item)
    (entry : Json × Nat) : Except (Fault IrError) (List Json) := do
  let opening ←
    if observed.all fun item => !(entry.2 < item.parts.length) then do
      let empty ← entry.1.setAt "text" (.string "")
      let text ← lift (string entry.1 "text")
      pure (partAdded reasoning id index entry.2 empty ::
        (eventTextChunks text.toList).map (textDelta reasoning id index entry.2))
    else pure []
  return opening ++ [textDone reasoning id index entry.2 entry.1,
    partDone reasoning id index entry.2 entry.1]

def itemEvents (self : Progress) (entry : Json × Nat) : Except (Fault IrError) (List Json) := do
  let item := entry.1
  let index := entry.2
  let id ← lift (string item "id")
  let kind ← lift (string item "type")
  let observed := self.items.get id
  lift (rejectIf (observed.any fun item => item.index ≠ index) .invalidEventOrder)
  let added ← self.addedEvents kind observed index item
  let content ←
    if isToolType kind then argumentEvents (kind = "custom_tool_call") id index item
    else do
      let reasoning := decide (kind = "reasoning")
      let parts ← lift (okOr (item.lookup (partsKey reasoning)).asArray .invalidEventOrder)
      let events ← parts.zipIdx.mapM (partEvents reasoning id index observed)
      pure events.flatten
  return added ++ content ++ [itemDone index item]

def terminalType (response : Json) : Except IrError String := do
  match ← string response "status" with
  | "completed" => return "response.completed"
  | "incomplete" => return "response.incomplete"
  | _ => .error .invalidEventOrder

def terminalEvent (type : String) (response : Json) : Json :=
  ofFields [("type", .string type), ("response", response)]

def terminalEvents (self : Progress) (response : Json) (maximum : Nat) :
    Except (Fault IrError) (List Json) := do
  lift (self.finish response)
  let created ← self.createdEvent response
  let output ← lift (okOr (response.lookup "output").asArray .invalidEventOrder)
  let items ← output.zipIdx.mapM self.itemEvents
  let terminal ← lift (terminalType response)
  let events := created ++ items.flatten ++ [terminalEvent terminal response]
  lift (rejectIf (maximum < (renderText (.array events)).utf8ByteSize) .sizeLimit)
  return events

end Progress

end TerminalEvents

end ResponseGateway.Codecs
