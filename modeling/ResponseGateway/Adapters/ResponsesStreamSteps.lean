import ResponseGateway.Adapters.ResponsesDecoding
import ResponseGateway.Adapters.ResponsesStream

/-!
What an accepted event does to a Responses stream. Only the items, the number of the next
event and the mark of completion matter for what is published later; `View` keeps these,
and each arm of the match has one lemma that says what it emits and which item changes.
-/

namespace ResponseGateway.Adapters
open Checked Ir Request Method
open Json (ofFields)

/-- The part of a stream that decides what it publishes. -/
structure View where
  items : OrderedMap Nat StreamItem
  sequence : Nat
  complete : Bool
  invalid : Bool
  preserve : Bool

def ResponsesStream.view (s : ResponsesStream) : View :=
  { items := s.items, sequence := s.sequence, complete := s.complete, invalid := s.invalid
    preserve := s.prepared.preserveItemOrder }

/-- An event with a number of its own, and otherwise as it was. -/
def Stamped (n : Nat) (event event' : Json) : Prop :=
  ∀ key, event'.field key =
    if "sequence_number" = key then some (.number (.ofNat n)) else event.field key

namespace Stamped

variable {n : Nat} {event event' : Json}

theorem field (h : Stamped n event event') {key : String} (hkey : "sequence_number" ≠ key) :
    event'.field key = event.field key := by
  rw [h key, if_neg hkey]

theorem fieldStr (h : Stamped n event event') {key : String} (hkey : "sequence_number" ≠ key) :
    event'.fieldStr key = event.fieldStr key := by
  rw [Json.fieldStr, h.field hkey, Json.fieldStr]

theorem lookup (h : Stamped n event event') {key : String} (hkey : "sequence_number" ≠ key) :
    event'.lookup key = event.lookup key := by
  rw [Json.lookup, h.field hkey, Json.lookup]

theorem number (h : Stamped n event event') :
    event'.field "sequence_number" = some (.number (.ofNat n)) := by
  rw [h, if_pos rfl]

end Stamped

namespace ResponsesStream

variable {texts : Texts} {s s' : ResponsesStream} {α : Type}

section Primitives

@[simp] theorem ensure_accepts {x : Except IrError α} {a : α} :
    (ensure x : StreamMethod α) s = (.ok a, s') ↔ x = .ok a ∧ s = s' := by
  simp [ensure]

theorem ensure_bind_accepts {β : Type} {x : Except IrError α} {f : α → StreamMethod β} {b : β} :
    (ensure x >>= f) s = (.ok b, s') ↔ ∃ a, x = .ok a ∧ f a s = (.ok b, s') := by
  simp only [ensure, check_bind_accepts, lift_ok]

@[simp] theorem not_fails {error : IrError} {a : α} :
    ¬ (fails error : StreamMethod α) s = (.ok a, s') := by
  simp [fails]

theorem setItem_bind_accepts {n : Nat} {item : StreamItem} {f : Unit → StreamMethod α} {a : α} :
    (setItem n item >>= f) s = (.ok a, s') ↔
      f () { s with items := s.items.insert n item } = (.ok a, s') := Iff.rfl

theorem validate_accepts {event : EventIR} {u : Unit} (h : validate texts event s = (.ok u, s')) :
    s'.view = s.view := by
  obtain ⟨validator, -, rfl⟩ := zoom_accepts.1 h
  rfl

theorem reserve_accepts {bytes : Nat} {u : Unit} (h : reserve bytes s = (.ok u, s')) :
    s'.view = s.view := by
  simp only [reserve, read_bind_accepts, ensure_bind_accepts, write_accepts] at h
  obtain ⟨_, -, rfl⟩ := h
  rfl

theorem checkResponse_accepts {value : Json} {u : Unit} (h : checkResponse value s = (.ok u, s')) :
    s = s' := by
  simp only [checkResponse, read_bind_accepts, ensure_bind_accepts, ensure_accepts] at h
  obtain ⟨_, -, -, rfl⟩ := h
  rfl

theorem emit_accepts {event event' : Json} (h : emit event s = (.ok event', s')) :
    Stamped s.sequence event event' ∧ s'.view = { s.view with sequence := s.sequence + 1 } := by
  simp only [emit, read_bind_accepts, check_bind_accepts, ensure_bind_accepts, write_bind_accepts,
    pure_accepts] at h
  obtain ⟨_, hset, _, -, _, -, rfl, rfl⟩ := h
  exact ⟨fun key => Json.field_setAt hset key, rfl⟩

end Primitives

section Effects

/-- The announcement of a tool, now or at another time. -/
inductive ToolAdded (n : Nat) (id : String) : Bool → List Json → Prop where
  | now {event : Json} (added : isAdded event = true)
      (carries : event.field "output_index" = some (.number (.ofNat n)))
      (hasId : announced event "id" = some id)
      (tool : (announced event "type").any isToolType = true) : ToolAdded n id true [event]
  | later : ToolAdded n id false []

/-- What an event about a part does to the parts of its item. -/
inductive PartChange (reasoning : Bool) (parts : List StreamPart) (j : Nat) (event : Json) :
    List StreamPart → Prop where
  | added {part : StreamPart} (type : typeOf event = some (partPrefix reasoning ++ ".added"))
      (next : j = parts.length) (empty : part.value.fieldStr "text" = some "") :
      PartChange reasoning parts j event (parts ++ [part])
  | delta {part part' : StreamPart} {text : String}
      (type : typeOf event = some (textPrefix reasoning ++ ".delta"))
      (found : parts[j]? = some part) (known : part.value.fieldStr "text" = some text)
      (grown : part'.value.fieldStr "text" = some (text ++ deltaOf event)) :
      PartChange reasoning parts j event (parts.set j part')
  | marked {part part' : StreamPart}
      (type : typeOf event = some (textPrefix reasoning ++ ".done") ∨
        typeOf event = some (partPrefix reasoning ++ ".done"))
      (found : parts[j]? = some part) (same : part'.value = part.value) :
      PartChange reasoning parts j event (parts.set j part')

/-- The events that a call emits for one event of the provider, and the items after it. -/
inductive Effect (preserve : Bool) (items : OrderedMap Nat StreamItem) :
    OrderedMap Nat StreamItem → List Json → Prop where
  | opening {event : Json}
      (type : typeOf event = some "response.created" ∨ typeOf event = some "response.in_progress")
      (noIndex : event.field "output_index" = none) : Effect preserve items items [event]
  | addedTool {n : Nat} {id : String} {head : Json} {events : List Json}
      (fresh : items.get n = none) (tool : isTool head = true) (hasId : head.fieldStr "id" = some id)
      (announces : ToolAdded n id preserve events) :
      Effect preserve items
        (items.insert n
          { head, parts := [], arguments := "", argumentsDone := false, done := none }) events
  | addedText {n : Nat} {id : String} {reasoning : Bool} {head event : Json}
      (fresh : items.get n = none) (type : head.fieldStr "type" = some (itemType reasoning))
      (hasId : head.fieldStr "id" = some id) (added : isAdded event = true)
      (carries : event.field "output_index" = some (.number (.ofNat n)))
      (same : event.lookup "item" = head) :
      Effect preserve items
        (items.insert n
          { head, parts := [], arguments := "", argumentsDone := false, done := none }) [event]
  | arguments {n : Nat} {item : StreamItem} {text : String} {argumentsDone : Bool}
      (found : items.get n = some item) (unfinished : item.done = none)
      (tool : isTool item.head = true) :
      Effect preserve items (items.insert n { item with arguments := text, argumentsDone }) []
  | part {n j : Nat} {reasoning : Bool} {item : StreamItem} {event : Json}
      {parts : List StreamPart} (found : items.get n = some item) (unfinished : item.done = none)
      (type : item.head.fieldStr "type" = some (itemType reasoning))
      (named : item.head.lookup "id" = event.lookup "item_id")
      (carries : event.field "output_index" = some (.number (.ofNat n)))
      (atPart : event.field (indexKey reasoning) = some (.number (.ofNat j)))
      (changes : PartChange reasoning item.parts j event parts) :
      Effect preserve items (items.insert n { item with parts }) [event]
  | doneTool {n : Nat} {item : StreamItem} {original : Json} (found : items.get n = some item)
      (unfinished : item.done = none) (tool : isTool original = true)
      (heads : ∀ key ∈ headKeys, item.head.field key = original.field key) :
      Effect preserve items (items.insert n { item with done := some original }) []
  | doneText {n : Nat} {item : StreamItem} {original event : Json}
      (found : items.get n = some item) (unfinished : item.done = none)
      (text : isTool original = false)
      (heads : ∀ key ∈ headKeys, item.head.field key = original.field key)
      (parts : ∀ reasoning, original.fieldStr "type" = some (itemType reasoning) →
        original.lookup (partsKey reasoning) = .array (item.parts.map (·.value)))
      (done : isDone event = true)
      (carries : event.field "output_index" = some (.number (.ofNat n)))
      (same : event.lookup "item" = original) :
      Effect preserve items (items.insert n { item with done := some original }) [event]

end Effects

section Converting

/-- Some events were emitted, and nothing else changed. -/
structure Emits (v : View) (events : List Json) (v' : View) : Prop where
  numbers : events.map (·.field "sequence_number") =
    (List.range' v.sequence events.length).map fun k => some (.number (.ofNat k))
  view : v' = { v with sequence := v.sequence + events.length }

theorem Emits.nil (v : View) : Emits v [] v := ⟨rfl, rfl⟩

theorem Emits.append {v v' v'' : View} {events events' : List Json} (h : Emits v events v')
    (h' : Emits v' events' v'') : Emits v (events ++ events') v'' := by
  have hview := h'.view
  have hnumbers := h'.numbers
  rw [h.view] at hview hnumbers
  refine ⟨?_, ?_⟩
  · rw [List.map_append, List.length_append, ← List.range'_append_1, List.map_append, h.numbers,
      hnumbers]
  · rw [hview, List.length_append, Nat.add_assoc]

theorem Emits.one {event event' : Json} (h : emit event s = (.ok event', s')) :
    Emits s.view [event'] s'.view ∧ Stamped s.view.sequence event event' := by
  obtain ⟨hstamp, hview⟩ := emit_accepts h
  refine ⟨⟨?_, hview⟩, hstamp⟩
  rw [List.map_singleton, hstamp.number]
  rfl

/-- A call that emits some events and changes at most one item. -/
structure Converted (v : View) (events : List Json) (v' : View) : Prop where
  numbers : events.map (·.field "sequence_number") =
    (List.range' v.sequence events.length).map fun k => some (.number (.ofNat k))
  effect : Effect v.preserve v.items v'.items events
  sequence : v'.sequence = v.sequence + events.length
  complete : v'.complete = v.complete
  invalid : v'.invalid = v.invalid
  preserve : v'.preserve = v.preserve

variable {value : Json} {events : List Json}

theorem Emits.converted {v v' : View} {items : OrderedMap Nat StreamItem} (h : Emits v events v')
    (effect : Effect v.preserve v.items items events) : Converted v events { v' with items } := by
  rw [h.view]
  exact ⟨h.numbers, effect, rfl, rfl, rfl, rfl⟩

/-- A call that ends with the emission of one event. -/
theorem Converted.emitted {v : View} {items : OrderedMap Nat StreamItem} {event : Json}
    (h : (emit event >>= fun event => pure [event]) s = (.ok events, s'))
    (hview : s.view = { v with items })
    (effect : ∀ event', Stamped v.sequence event event' →
      Effect v.preserve v.items items [event']) : Converted v events s'.view := by
  obtain ⟨event', s₁, hemit, h⟩ := bind_accepts.1 h
  rw [pure_accepts] at h
  obtain ⟨rfl, rfl⟩ := h
  obtain ⟨hemits, hstamp⟩ := Emits.one hemit
  have hsame := hemits.view
  have hnumbers := hemits.numbers
  rw [hview] at hsame hnumbers hstamp
  rw [hsame]
  exact ⟨hnumbers, effect event' hstamp, rfl, rfl, rfl, rfl⟩

section Reading

variable {key : String} {n : Nat} {item : StreamItem}

theorem index_ok (h : index value key = .ok n) : value.field key = some (.number (.ofNat n)) := by
  rw [index, okOr_ok, Option.filter_eq_some_iff] at h
  exact field_of_asU64 h.1

theorem openItem_ok (h : s.openItem n = .ok item) :
    s.view.items.get n = some item ∧ item.done = none := by
  rw [openItem, okOr_ok, Option.filter_eq_some_iff, Option.isNone_iff_eq_none] at h
  exact h

/-- The item an event names. -/
structure Named (items : OrderedMap Nat StreamItem) (value : Json) (n : Nat) (item : StreamItem) :
    Prop where
  carries : value.field "output_index" = some (.number (.ofNat n))
  found : items.get n = some item
  unfinished : item.done = none
  hasId : item.head.lookup "id" = value.lookup "item_id"

theorem itemMut_ok (h : s.itemMut value = .ok (n, item)) : Named s.view.items value n item := by
  simp only [itemMut, bind_ok, rejectIf_ok, pure_ok, decide_eq_false_iff_not, ne_eq, not_not,
    Prod.mk.injEq] at h
  obtain ⟨n', hindex, item', hopen, _, hid, rfl, rfl⟩ := h
  obtain ⟨hfound, hdone⟩ := openItem_ok hopen
  exact ⟨index_ok hindex, hfound, hdone, hid.symm⟩

theorem partMut_ok {reasoning : Bool} {j : Nat} {part : StreamPart}
    (h : s.partMut value reasoning j = .ok (n, item, part)) : Named s.view.items value n item ∧
      item.head.fieldStr "type" = some (itemType reasoning) ∧ item.parts[j]? = some part := by
  simp only [partMut, bind_ok, rejectIf_ok, pure_ok, decide_eq_false_iff_not, ne_eq, not_not,
    okOr_ok, Option.filter_eq_some_iff, lookup_string, Prod.mk.injEq, Prod.exists] at h
  obtain ⟨n', item', hitem, _, htype, part', ⟨hpart, -⟩, rfl, rfl, rfl⟩ := h
  exact ⟨itemMut_ok hitem, htype, hpart⟩

end Reading

section Starting

theorem created_accepts (h : created texts value s = (.ok events, s')) :
    Converted s.view events s'.view := by
  simp only [created, read_bind_accepts, ensure_bind_accepts] at h
  obtain ⟨_, -, _, -, h⟩ := h
  obtain ⟨_, s₁, hcheck, h⟩ := bind_accepts.1 h
  cases checkResponse_accepts hcheck
  simp only [ensure_bind_accepts] at h
  obtain ⟨_, -, text, -, id, -, h⟩ := h
  obtain ⟨_, s₂, hvalidate, h⟩ := bind_accepts.1 h
  simp only [check_bind_accepts, write_bind_accepts] at h
  obtain ⟨createdAt, -, response, -, h⟩ := h
  have hview : s₂.view = { s.view with items := s.items } := validate_accepts hvalidate
  refine .emitted h hview fun event' hstamp => .opening (.inl ?_) ?_
  · rw [typeOf, hstamp.fieldStr (by decide)]
    simp [Json.fieldStr, Json.asStr]
  · rw [hstamp.field (by decide)]
    simp

theorem inProgress_accepts (htype : value.fieldStr "type" = some "response.in_progress")
    (h : inProgress value s = (.ok events, s')) : Converted s.view events s'.view := by
  simp only [inProgress, read_bind_accepts, ensure_bind_accepts] at h
  obtain ⟨_, hknown, h⟩ := h
  obtain ⟨_, s₁, hcheck, h⟩ := bind_accepts.1 h
  cases checkResponse_accepts hcheck
  simp only [ensure_bind_accepts, check_bind_accepts, write_bind_accepts] at h
  obtain ⟨_, -, response, -, value', hset, h⟩ := h
  have hview : s.view = { s.view with items := s.items } := rfl
  refine .emitted h hview fun event' hstamp => .opening (.inr ?_) ?_
  · rw [typeOf, hstamp.fieldStr (by decide), Json.fieldStr, Json.field_setAt hset, if_neg (by decide)]
    exact htype
  · rw [hstamp.field (by decide), Json.field_setAt hset, if_neg (by decide)]
    exact knownFields_ok hknown (by decide)

end Starting

section Adding

variable {n : Nat} {id : String} {item : Json}

theorem lookup_emitted {n : Nat} {event event' value : Json} {key : String}
    (h : Stamped n event event') (hkey : "sequence_number" ≠ key)
    (hfield : event.field key = some value) : event'.lookup key = value := by
  rw [h.lookup hkey]
  exact Json.lookup_of_field hfield

theorem toolHead_fields (custom : Bool) (id callId : String) (original : ToolIdentity) :
    (toolHead custom id callId original).fieldStr "id" = some id ∧
      (toolHead custom id callId original).fieldStr "type" = some (toolType custom) := by
  simp [toolHead, Json.fieldStr, Json.asStr]

theorem isToolType_toolType (custom : Bool) : isToolType (toolType custom) = true := by
  cases custom <;> decide

theorem announceTool_accepts {callId : String} {tool : ToolIdentity}
    (h : announceTool id callId tool n s = (.ok events, s')) :
    Emits s.view events s'.view ∧ ToolAdded n id s.view.preserve events := by
  simp only [announceTool, read_bind_accepts] at h
  split at h
  · next hpreserve =>
      simp only [ensure_bind_accepts, Prod.exists] at h
      obtain ⟨original, kind, -, h⟩ := h
      obtain ⟨event, s₁, hemit, h⟩ := bind_accepts.1 h
      rw [pure_accepts] at h
      obtain ⟨rfl, rfl⟩ := h
      obtain ⟨hemits, hstamp⟩ := Emits.one hemit
      obtain ⟨hid, htype⟩ := toolHead_fields (kind = .custom) id callId original
      have hitem : event.lookup "item" = toolHead (kind = .custom) id callId original :=
        lookup_emitted hstamp (by decide) (by simp)
      have hview : s.view.preserve = true := hpreserve
      refine ⟨hemits, hview ▸ .now ?_ ?_ ?_ ?_⟩
      · rw [isAdded, typeOf, hstamp.fieldStr (by decide)]
        simp [Json.fieldStr, Json.asStr]
      · rw [hstamp.field (by decide)]
        simp
      · rw [announced, hitem, hid]
      · rw [announced, hitem, htype, Option.any_some, isToolType_toolType]
  · next hpreserve =>
      rw [pure_accepts] at h
      obtain ⟨rfl, rfl⟩ := h
      have hview : s.view.preserve = false := Bool.eq_false_iff.2 hpreserve
      exact ⟨Emits.nil _, hview ▸ .later⟩

theorem addedTool_accepts {custom : Bool}
    (h : addedTool custom id item n s = (.ok events, s')) :
    Emits s.view events s'.view ∧ ToolAdded n id s.view.preserve events := by
  simp only [addedTool, read_bind_accepts, ensure_bind_accepts, write_bind_accepts] at h
  obtain ⟨_, -, _, -, _, -, _, -, tool, -, _, -, _, -, callId, -, definition, -, _, -, _, -, _, -, h⟩ :=
    h
  have hannounces := announceTool_accepts h
  exact hannounces

theorem addedText_accepts {reasoning : Bool} {id : ItemId}
    (h : addedText texts reasoning id value item n s = (.ok events, s')) :
    Emits s.view events s'.view ∧ ∃ event, events = [event] ∧ ∃ k, Stamped k value event := by
  simp only [addedText, read_bind_accepts, ensure_bind_accepts] at h
  obtain ⟨_, -, _, -, _, -, _, -, place, -, h⟩ := h
  obtain ⟨_, s₁, hvalidate, h⟩ := bind_accepts.1 h
  obtain ⟨event, s₂, hemit, h⟩ := bind_accepts.1 h
  rw [pure_accepts] at h
  obtain ⟨rfl, rfl⟩ := h
  obtain ⟨hemits, hstamp⟩ := Emits.one hemit
  rw [validate_accepts hvalidate] at hemits
  exact ⟨hemits, event, rfl, _, hstamp⟩

theorem addedKind_accepts {type : String} {id : ItemId}
    (h : addedKind texts type id value item n s = (.ok events, s')) :
    Emits s.view events s'.view ∧
      (isToolType type = true ∧ ToolAdded n id.value s.view.preserve events ∨
        (∃ reasoning, type = itemType reasoning) ∧
          ∃ event, events = [event] ∧ ∃ k, Stamped k value event) := by
  unfold addedKind at h
  split at h
  · next htool =>
      obtain ⟨hemits, hannounces⟩ := addedTool_accepts h
      exact ⟨hemits, .inl ⟨htool, hannounces⟩⟩
  split at h
  · next hmessage =>
      obtain ⟨hemits, hevent⟩ := addedText_accepts h
      exact ⟨hemits, .inr ⟨⟨false, hmessage⟩, hevent⟩⟩
  split at h
  · next hreasoning =>
      obtain ⟨hemits, hevent⟩ := addedText_accepts h
      exact ⟨hemits, .inr ⟨⟨true, hreasoning⟩, hevent⟩⟩
  · exact absurd h not_fails

theorem itemAdded_accepts (htype : value.fieldStr "type" = some "response.output_item.added")
    (h : itemAdded texts value s = (.ok events, s')) : Converted s.view events s'.view := by
  simp only [itemAdded, read_bind_accepts, ensure_bind_accepts, write_bind_accepts, string_ok] at h
  obtain ⟨_, -, n, hindex, text, htext, id, hid, _, hfresh, type, hkind, h⟩ := h
  rw [Identity.new_ok] at hid
  subst hid
  simp only [rejectIf_ok, Bool.or_eq_false_iff, OrderedMap.contains_eq_false] at hfresh
  obtain ⟨⟨-, hfresh⟩, -⟩ := hfresh
  obtain ⟨events', s₁, hadded, h⟩ := bind_accepts.1 h
  obtain ⟨_, s₂, hreserve, h⟩ := bind_accepts.1 h
  rw [setItem_bind_accepts, pure_accepts] at h
  obtain ⟨rfl, rfl⟩ := h
  obtain ⟨hemits, hcases⟩ := addedKind_accepts hadded
  rw [← reserve_accepts hreserve] at hemits
  have hitems : s₂.items = s.items := congrArg View.items hemits.view
  rw [hitems]
  refine hemits.converted ?_
  rcases hcases with ⟨htool, hannounces⟩ | ⟨⟨reasoning, rfl⟩, event, rfl, k, hstamp⟩
  · exact .addedTool hfresh (by rw [isTool, hkind, Option.any_some, htool]) htext hannounces
  · refine .addedText hfresh hkind htext ?_ ?_ (hstamp.lookup (by decide))
    · rw [isAdded, typeOf, hstamp.fieldStr (by decide), htype, decide_eq_true_eq]
    · rw [hstamp.field (by decide), index_ok hindex]

end Adding

section Arguments

variable {custom : Bool}

/-- A call that only changes an item. -/
theorem Converted.silent {v : View} {items : OrderedMap Nat StreamItem}
    (effect : Effect v.preserve v.items items []) : Converted v [] { v with items } :=
  (Emits.nil v).converted effect

theorem checkToolEvent_ok {item : StreamItem} {u : Unit}
    (h : checkToolEvent custom item = .ok u) : isTool item.head = true := by
  simp only [checkToolEvent, rejectIf_ok, decide_eq_false_iff_not, ne_eq, not_not,
    lookup_string] at h
  rw [isTool, h, Option.any_some, isToolType_toolType]

theorem argumentsDelta_accepts (h : argumentsDelta custom value s = (.ok events, s')) :
    Converted s.view events s'.view := by
  simp only [argumentsDelta, ensure_bind_accepts] at h
  obtain ⟨_, -, text, -, _, -, h⟩ := h
  obtain ⟨_, s₁, hreserve, h⟩ := bind_accepts.1 h
  simp only [read_bind_accepts, ensure_bind_accepts, setItem_bind_accepts, pure_accepts,
    Prod.exists] at h
  obtain ⟨n, item, hitem, _, htool, _, -, _, -, rfl, rfl⟩ := h
  have hnamed := itemMut_ok hitem
  rw [← reserve_accepts hreserve]
  exact .silent (.arguments hnamed.found hnamed.unfinished (checkToolEvent_ok htool))

theorem argumentsDone_accepts (h : argumentsDone custom value s = (.ok events, s')) :
    Converted s.view events s'.view := by
  simp only [argumentsDone, read_bind_accepts, ensure_bind_accepts, setItem_bind_accepts,
    pure_accepts, Prod.exists] at h
  obtain ⟨_, -, n, item, hitem, _, htool, _, -, _, -, _, -, rfl, rfl⟩ := h
  have hnamed := itemMut_ok hitem
  exact .silent (.arguments hnamed.found hnamed.unfinished (checkToolEvent_ok htool))

end Arguments

section Parts

variable {reasoning : Bool}

/-- The effect of an event about a part that is forwarded as it is. -/
theorem Named.part {n j k : Nat} {item : StreamItem} {parts : List StreamPart} {v : View}
    {event : Json} (h : Named v.items value n item)
    (htype : item.head.fieldStr "type" = some (itemType reasoning))
    (hindex : index value (indexKey reasoning) = .ok j) (hstamp : Stamped k value event)
    (changes : PartChange reasoning item.parts j value parts) :
    Effect v.preserve v.items (v.items.insert n { item with parts }) [event] := by
  have hkey : "sequence_number" ≠ indexKey reasoning := by cases reasoning <;> decide
  refine .part h.found h.unfinished htype (h.hasId.trans (hstamp.lookup (by decide)).symm)
    ((hstamp.field (by decide)).trans h.carries) ((hstamp.field hkey).trans (index_ok hindex)) ?_
  have htypes : typeOf event = typeOf value := hstamp.fieldStr (by decide)
  have hdelta : deltaOf event = deltaOf value := by
    rw [deltaOf, deltaOf, hstamp.fieldStr (by decide)]
  cases changes with
  | added type next empty => exact .added (htypes.trans type) next empty
  | delta type found known grown =>
      exact .delta (htypes.trans type) found known (by rw [grown, hdelta])
  | marked type found same => exact .marked (htypes ▸ type) found same

theorem partAdded_accepts
    (htype : value.fieldStr "type" = some (partPrefix reasoning ++ ".added"))
    (h : partAdded texts reasoning value s = (.ok events, s')) :
    Converted s.view events s'.view := by
  simp only [partAdded, read_bind_accepts, ensure_bind_accepts, setItem_bind_accepts, rejectIf_ok,
    Bool.or_eq_false_iff, decide_eq_false_iff_not, ne_eq, not_not, lookup_string,
    Prod.exists] at h
  obtain ⟨_, -, _, -, _, hempty, j, hindex, n, item, hitem, _, ⟨hhead, hnext⟩, id, -, place, -, h⟩ :=
    h
  obtain ⟨_, s₁, hvalidate, h⟩ := bind_accepts.1 h
  have hview : s₁.view = { s.view with
      items := s.items.insert n { item with
        parts := item.parts ++ [⟨value.lookup "part", false, false⟩] } } :=
    validate_accepts hvalidate
  refine .emitted h hview fun event hstamp => ?_
  exact (itemMut_ok hitem).part hhead hindex hstamp (.added htype hnext hempty)

theorem textDelta_accepts
    (htype : value.fieldStr "type" = some (textPrefix reasoning ++ ".delta"))
    (h : textDelta texts reasoning value s = (.ok events, s')) :
    Converted s.view events s'.view := by
  simp only [textDelta, ensure_bind_accepts, string_ok] at h
  obtain ⟨_, -, _, -, text, htext, h⟩ := h
  obtain ⟨_, s₁, hreserve, h⟩ := bind_accepts.1 h
  simp only [read_bind_accepts, ensure_bind_accepts, check_bind_accepts, setItem_bind_accepts,
    Prod.exists, string_ok] at h
  obtain ⟨j, hindex, n, item, part, hpart, _, -, known, hknown, changed, hchanged, id, -, place, -,
    h⟩ := h
  obtain ⟨_, s₂, hvalidate, h⟩ := bind_accepts.1 h
  obtain ⟨hnamed, hhead, hfound⟩ := partMut_ok hpart
  have hview : s₂.view = { s₁.view with
      items := s₁.items.insert n { item with
        parts := item.parts.set j { part with value := changed } } } :=
    validate_accepts hvalidate
  rw [← reserve_accepts hreserve]
  refine .emitted h hview fun event hstamp => ?_
  refine hnamed.part hhead hindex hstamp (.delta htype hfound hknown ?_)
  rw [Json.fieldStr, Json.field_setAt hchanged, if_pos rfl, deltaOf, htext]
  rfl

theorem textDone_accepts
    (htype : value.fieldStr "type" = some (textPrefix reasoning ++ ".done"))
    (h : textDone reasoning value s = (.ok events, s')) : Converted s.view events s'.view := by
  simp only [textDone, read_bind_accepts, ensure_bind_accepts, setItem_bind_accepts,
    Prod.exists] at h
  obtain ⟨_, -, _, -, j, hindex, n, item, part, hpart, _, -, h⟩ := h
  obtain ⟨hnamed, hhead, hfound⟩ := partMut_ok hpart
  refine .emitted (v := s.view) h rfl fun event hstamp => ?_
  exact hnamed.part hhead hindex hstamp (.marked (.inl htype) hfound rfl)

theorem partDone_accepts
    (htype : value.fieldStr "type" = some (partPrefix reasoning ++ ".done"))
    (h : partDone texts reasoning value s = (.ok events, s')) :
    Converted s.view events s'.view := by
  simp only [partDone, read_bind_accepts, ensure_bind_accepts, setItem_bind_accepts,
    Prod.exists] at h
  obtain ⟨_, -, j, hindex, n, item, part, hpart, _, -, id, -, place, -, h⟩ := h
  obtain ⟨_, s₁, hvalidate, h⟩ := bind_accepts.1 h
  obtain ⟨hnamed, hhead, hfound⟩ := partMut_ok hpart
  have hview : s₁.view = { s.view with
      items := s.items.insert n { item with
        parts := item.parts.set j { part with closed := true } } } :=
    validate_accepts hvalidate
  refine .emitted h hview fun event hstamp => ?_
  exact hnamed.part hhead hindex hstamp (.marked (.inr htype) hfound rfl)

end Parts

section Finishing

theorem withPrepared_accepts {m : Method PreparedResponses (Fault IrError) α} {a : α}
    (h : withPrepared m s = (.ok a, s')) : ∃ prepared, m s.prepared = (.ok a, prepared) ∧
      (prepared.preserveItemOrder = s.prepared.preserveItemOrder → s'.view = s.view) := by
  obtain ⟨prepared, hm, rfl⟩ := zoom_accepts.1 h
  refine ⟨prepared, hm, fun hpreserve => ?_⟩
  rw [view, hpreserve, view]

theorem finishedText_accepts {item : StreamItem} {original : Json} {u : Unit}
    (h : finishedText texts item original s = (.ok u, s')) :
    s'.view = s.view ∧ ∀ reasoning, original.fieldStr "type" = some (itemType reasoning) →
      original.lookup (partsKey reasoning) = .array (item.parts.map (·.value)) := by
  simp only [finishedText, ensure_bind_accepts] at h
  obtain ⟨_, hparts, text, -, id, -, h⟩ := h
  refine ⟨validate_accepts h, fun reasoning htype => ?_⟩
  simp only [checkParts, rejectIf_ok, Bool.or_eq_false_iff, decide_eq_false_iff_not, ne_eq,
    not_not, lookup_string, htype] at hparts
  have hreasoning : decide (some (itemType reasoning) = some "reasoning") = reasoning := by
    cases reasoning <;> decide
  rw [hreasoning] at hparts
  exact hparts.2

theorem itemDone_accepts (htype : value.fieldStr "type" = some "response.output_item.done")
    (h : itemDone texts value s = (.ok events, s')) : Converted s.view events s'.view := by
  simp only [itemDone, ensure_bind_accepts] at h
  obtain ⟨_, -, n, hindex, h⟩ := h
  obtain ⟨restored, s₁, hcall, h⟩ := bind_accepts.1 h
  obtain ⟨prepared, hrestore, hview⟩ := withPrepared_accepts hcall
  obtain ⟨hrestored, hpreserve⟩ := PreparedResponses.restoreItem_accepts hrestore
  rw [← hview hpreserve]
  simp only [read_bind_accepts, ensure_bind_accepts, rejectIf_ok, List.any_eq_false,
    decide_eq_true_eq, ne_eq, not_not] at h
  obtain ⟨item, hopen, _, hheads, h⟩ := h
  obtain ⟨hfound, hunfinished⟩ := openItem_ok hopen
  split at h
  · next htool =>
      simp only [ensure_bind_accepts, setItem_bind_accepts] at h
      obtain ⟨_, -, h⟩ := h
      have hkind : isTool restored = true := by
        rcases hrestored.kind with ⟨-, hkind⟩ | ⟨hnot, -⟩
        · exact hkind
        · rw [htool] at hnot
          cases hnot
      rw [hkind, Bool.not_true, if_neg Bool.false_ne_true, pure_accepts] at h
      obtain ⟨rfl, rfl⟩ := h
      exact .silent (.doneTool hfound hunfinished htool hheads)
  · next htool =>
      obtain ⟨_, s₂, hfinished, h⟩ := bind_accepts.1 h
      obtain ⟨hview₂, hparts⟩ := finishedText_accepts hfinished
      have hnot := Bool.eq_false_iff.2 htool
      have hkind : isTool restored = false := by
        rcases hrestored.kind with ⟨hkind, -⟩ | ⟨-, hsame, -⟩
        · exact absurd hkind htool
        · rw [hsame, hnot]
      rw [setItem_bind_accepts, hkind, Bool.not_false, if_pos rfl] at h
      rw [← hview₂] at hfound ⊢
      refine .emitted (v := s₂.view) h rfl fun event hstamp => ?_
      refine .doneText hfound hunfinished hnot hheads hparts ?_ ?_ (hstamp.lookup (by decide))
      · rw [isDone, typeOf, hstamp.fieldStr (by decide), htype, decide_eq_true_eq]
      · rw [hstamp.field (by decide), index_ok hindex]

end Finishing

end Converting

end ResponsesStream

end ResponseGateway.Adapters
