import ResponseGateway.Adapters.ResponsesStreamRelease

/-!
Whole runs of a Responses stream. `Items` relates the recorded items to the events that
were emitted so far, index by index; each accepted event keeps it, and the terminal event
turns it into `Whole`: what was emitted is the output of the terminal response.
-/

namespace ResponseGateway.Adapters
open Checked Ir Request Method

namespace ResponsesStream

variable {preserve : Bool} {n : Nat} {id : String} {emitted events : List Json}

section Parts

variable {reasoning : Bool} {item : StreamItem} {event added : Json} {middle closing : List Json}

/-- The text deltas of a part. -/
def partDeltas (reasoning : Bool) (j : Nat) (events : List Json) : List Json :=
  events.filter fun e =>
    decide (typeOf e = some (textPrefix reasoning ++ ".delta")) && atPart e reasoning j

theorem partDeltas_delta (htype : typeOf event = some (textPrefix reasoning ++ ".delta")) {j : Nat}
    (hat : event.field (indexKey reasoning) = some (.number (.ofNat j))) (k : Nat) :
    partDeltas reasoning k (events ++ [event]) =
      partDeltas reasoning k events ++ if k = j then [event] else [] := by
  simp only [partDeltas, List.filter_append, List.filter_cons, htype, atPart_of hat,
    decide_true, Bool.true_and, decide_eq_true_eq, List.filter_nil]
variable (events) in

theorem partDeltas_other (htype : typeOf event ≠ some (textPrefix reasoning ++ ".delta")) (k : Nat) :
    partDeltas reasoning k (events ++ [event]) = partDeltas reasoning k events := by
  simp only [partDeltas, List.filter_append, List.filter_cons, htype, decide_false,
    Bool.false_and, Bool.false_eq_true, if_false, List.filter_nil, List.append_nil]

/-- The last event of a text, once it is done. -/
inductive Closing (reasoning : Bool) (id : String) (item : StreamItem) : List Json → Prop where
  | unfinished (unfinished : item.done = none) : Closing reasoning id item []
  | finished {original event : Json} (finished : item.done = some original)
      (text : isTool original = false)
      (type : original.fieldStr "type" = some (itemType reasoning))
      (hasId : original.fieldStr "id" = some id)
      (parts : original.lookup (partsKey reasoning) = .array (item.parts.map (·.value)))
      (done : isDone event = true) (same : event.lookup "item" = original) :
      Closing reasoning id item [event]

/-- The events of a text: its announcement, its parts and its end. -/
structure TextEvents (n : Nat) (reasoning : Bool) (id : String) (item : StreamItem) (added : Json)
    (middle closing : List Json) : Prop where
  opens : isAdded added = true
  named : announced added "id" = some id
  content : ∀ e ∈ middle, ContentEvent e id n
  known : ∀ (j : Nat) part, item.parts[j]? = some part →
    part.value.fieldStr "text" = some (textOf (partDeltas reasoning j middle))
  fresh : ∀ j, item.parts.length ≤ j → partDeltas reasoning j middle = []
  closes : Closing reasoning id item closing

theorem Closing.of_unfinished (h : Closing reasoning id item closing) (hdone : item.done = none) :
    closing = [] := by
  cases h with
  | unfinished => rfl
  | finished finished =>
      rw [hdone] at finished
      cases finished

theorem typeOf_change {parts parts' : List StreamPart} {j : Nat}
    (h : PartChange reasoning parts j event parts') :
    ∃ type ∈ partTypes, typeOf event = some type := by
  obtain ⟨hadded, hdone, hdelta, htext⟩ := partPrefix_mem reasoning
  cases h with
  | added type => exact ⟨_, hadded, type⟩
  | delta type => exact ⟨_, hdelta, type⟩
  | marked type =>
      rcases type with type | type
      · exact ⟨_, htext, type⟩
      · exact ⟨_, hdone, type⟩

/-- An event about a part keeps the texts of the parts. -/
theorem TextEvents.part {j : Nat} {parts : List StreamPart}
    (h : TextEvents n reasoning id item added middle []) (hdone : item.done = none)
    (hnamed : event.fieldStr "item_id" = some id)
    (hindex : event.field "output_index" = some (.number (.ofNat n)))
    (hat : event.field (indexKey reasoning) = some (.number (.ofNat j)))
    (hchange : PartChange reasoning item.parts j event parts) :
    TextEvents n reasoning id { item with parts } added (middle ++ [event]) [] := by
  have hcontent : ∀ e ∈ middle ++ [event], ContentEvent e id n := by
    intro e he
    rcases List.mem_append.1 he with he | he
    · exact h.content e he
    · obtain ⟨type, hmem, htype⟩ := typeOf_change hchange
      rw [List.mem_singleton.1 he]
      exact ⟨⟨type, List.mem_append_right _ hmem, htype⟩, hnamed, hindex⟩
  suffices htexts : (∀ (k : Nat) part, parts[k]? = some part →
      part.value.fieldStr "text" = some (textOf (partDeltas reasoning k (middle ++ [event])))) ∧
      ∀ k, parts.length ≤ k → partDeltas reasoning k (middle ++ [event]) = [] from
    ⟨h.opens, h.named, hcontent, htexts.1, htexts.2, .unfinished hdone⟩
  cases hchange with
  | @added part type next empty =>
      have hother := fun k => partDeltas_other middle (show typeOf event ≠ some (textPrefix reasoning ++ ".delta") by
          rw [type]; cases reasoning <;> decide) k
      refine ⟨fun k known hk => ?_, fun k hk => ?_⟩
      · rw [hother]
        by_cases hlt : k < item.parts.length
        · rw [List.getElem?_append_left hlt] at hk
          exact h.known k known hk
        · rw [List.getElem?_append_right (Nat.le_of_not_lt hlt), List.getElem?_singleton] at hk
          split at hk
          · cases hk
            rw [h.fresh k (Nat.le_of_not_lt hlt), empty]
            rfl
          · cases hk
      · rw [hother]
        rw [List.length_append] at hk
        exact h.fresh k (by omega)
  | @delta part part' text type found known grown =>
      have hlt := (List.getElem?_eq_some_iff.1 found).1
      refine ⟨fun k other hk => ?_, fun k hk => ?_⟩
      · rw [partDeltas_delta type hat]
        rw [List.getElem?_set] at hk
        by_cases hkj : j = k
        · subst hkj
          rw [if_pos rfl, if_pos hlt, Option.some.injEq] at hk
          subst hk
          have hsame := h.known j part found
          rw [known, Option.some.injEq] at hsame
          rw [if_pos rfl, textOf_snoc, ← hsame, grown]
        · rw [if_neg hkj] at hk
          rw [if_neg (Ne.symm hkj), List.append_nil]
          exact h.known k other hk
      · rw [List.length_set] at hk
        rw [partDeltas_delta type hat, if_neg (by omega), List.append_nil]
        exact h.fresh k hk
  | @marked part part' type found same =>
      have hother := fun k => partDeltas_other middle (show typeOf event ≠ some (textPrefix reasoning ++ ".delta") by
          rcases type with type | type <;> rw [type] <;> cases reasoning <;> decide) k
      refine ⟨fun k other hk => ?_, fun k hk => ?_⟩
      · rw [hother]
        rw [List.getElem?_set] at hk
        by_cases hkj : j = k
        · subst hkj
          rw [if_pos rfl, if_pos (List.getElem?_eq_some_iff.1 found).1, Option.some.injEq] at hk
          subst hk
          rw [same]
          exact h.known j part found
        · rw [if_neg hkj] at hk
          exact h.known k other hk
      · rw [hother]
        rw [List.length_set] at hk
        exact h.fresh k hk

end Parts

section Items

/-- The events of an item so far. -/
inductive ItemState (preserve : Bool) (n : Nat) (item : StreamItem) : List Json → Prop where
  | tool {id : String} {events : List Json} (tool : isTool item.head = true)
      (hasId : item.head.fieldStr "id" = some id) (announces : ToolAdded n id preserve events)
      (finished : ∀ original, item.done = some original →
        isTool original = true ∧ original.fieldStr "id" = some id) :
      ItemState preserve n item events
  | text {id : String} {reasoning : Bool} {added : Json} {middle closing : List Json}
      (type : item.head.fieldStr "type" = some (itemType reasoning))
      (hasId : item.head.fieldStr "id" = some id)
      (events : TextEvents n reasoning id item added middle closing) :
      ItemState preserve n item (added :: (middle ++ closing))

theorem not_tool_of_itemType {value : Json} {reasoning : Bool}
    (h : value.fieldStr "type" = some (itemType reasoning)) : isTool value = false := by
  rw [isTool, h, Option.any_some]
  cases reasoning <;> decide

theorem itemType_injective {reasoning reasoning' : Bool}
    (h : itemType reasoning = itemType reasoning') : reasoning = reasoning' := by
  revert h
  cases reasoning <;> cases reasoning' <;> decide

theorem ItemState.of_tool {item : StreamItem} (h : ItemState preserve n item events)
    (htool : isTool item.head = true) : ∃ id, item.head.fieldStr "id" = some id ∧
      ToolAdded n id preserve events ∧ ∀ original, item.done = some original →
        isTool original = true ∧ original.fieldStr "id" = some id := by
  cases h with
  | tool _ hasId announces finished => exact ⟨_, hasId, announces, finished⟩
  | text type =>
      rw [not_tool_of_itemType type] at htool
      cases htool

theorem ItemState.of_text {item : StreamItem} (h : ItemState preserve n item events)
    (htool : isTool item.head = false) : ∃ reasoning id added middle closing,
      events = added :: (middle ++ closing) ∧
      item.head.fieldStr "type" = some (itemType reasoning) ∧ item.head.fieldStr "id" = some id ∧
      TextEvents n reasoning id item added middle closing := by
  cases h with
  | tool tool =>
      rw [tool] at htool
      cases htool
  | text type hasId events => exact ⟨_, _, _, _, _, rfl, type, hasId, events⟩

/-- The events under every index belong to the item that is recorded there. -/
structure Items (preserve : Bool) (items : OrderedMap Nat StreamItem) (emitted : List Json) :
    Prop where
  known : ∀ n item, items.get n = some item →
    ItemState preserve n item (emitted.filter (atIndex · n))
  silent : ∀ n, items.get n = none → emitted.filter (atIndex · n) = []

variable {items items' : OrderedMap Nat StreamItem} {item : StreamItem}

theorem filter_index (h : ∀ e ∈ events, e.field "output_index" = some (.number (.ofNat n)))
    (k : Nat) : events.filter (atIndex · k) = if k = n then events else [] := by
  split
  · next hk => exact List.filter_eq_self.2 fun e he => by simp [atIndex_of (h e he), hk]
  · next hk => exact List.filter_eq_nil_iff.2 fun e he => by simp [atIndex_of (h e he), hk]

theorem Items.insert (h : Items preserve items emitted)
    (carries : ∀ e ∈ events, e.field "output_index" = some (.number (.ofNat n)))
    (hitem : ItemState preserve n item (emitted.filter (atIndex · n) ++ events)) :
    Items preserve (items.insert n item) (emitted ++ events) := by
  have hother : ∀ k, n ≠ k →
      (emitted ++ events).filter (atIndex · k) = emitted.filter (atIndex · k) := by
    intro k hk
    rw [List.filter_append, filter_index carries, if_neg (Ne.symm hk), List.append_nil]
  refine ⟨fun k known hget => ?_, fun k hget => ?_⟩
  · by_cases hk : n = k
    · subst hk
      rw [OrderedMap.get_insert_self, Option.some.injEq] at hget
      subst hget
      rw [List.filter_append, filter_index carries, if_pos rfl]
      exact hitem
    · rw [OrderedMap.get_insert_of_ne _ _ hk] at hget
      rw [hother k hk]
      exact h.known k known hget
  · by_cases hk : n = k
    · subst hk
      rw [OrderedMap.get_insert_self] at hget
      cases hget
    · rw [OrderedMap.get_insert_of_ne _ _ hk] at hget
      rw [hother k hk]
      exact h.silent k hget

/-- An event that only changes what is remembered. -/
theorem Items.remember (h : Items preserve items emitted)
    (hitem : ItemState preserve n item (emitted.filter (atIndex · n))) :
    Items preserve (items.insert n item) (emitted ++ []) :=
  h.insert (by simp) (by rwa [List.append_nil])

theorem ToolAdded.carries (h : ToolAdded n id preserve events) :
    ∀ e ∈ events, e.field "output_index" = some (.number (.ofNat n)) := by
  cases h with
  | now added carries => simpa using carries
  | later => simp

theorem fieldStr_of_heads {head original : Json}
    (h : ∀ key ∈ headKeys, head.field key = original.field key) :
    original.fieldStr "id" = head.fieldStr "id" ∧ original.fieldStr "type" = head.fieldStr "type" := by
  rw [Json.fieldStr, Json.fieldStr, Json.fieldStr, Json.fieldStr, h "id" (by decide),
    h "type" (by decide)]
  exact ⟨rfl, rfl⟩

/-- What one accepted event does to the items. -/
theorem Items.step (h : Items preserve items emitted) (heffect : Effect preserve items items' events) :
    Items preserve items' (emitted ++ events) := by
  cases heffect with
  | @opening event type noIndex =>
      have hsame : ∀ k, (emitted ++ [event]).filter (atIndex · k) = emitted.filter (atIndex · k) := by
        intro k
        rw [List.filter_append, List.filter_cons_of_neg (by simp [not_atIndex noIndex]),
          List.filter_nil, List.append_nil]
      refine ⟨fun k item hget => ?_, fun k hget => ?_⟩
      · rw [hsame]
        exact h.known k item hget
      · rw [hsame]
        exact h.silent k hget
  | addedTool fresh tool hasId announces =>
      refine h.insert announces.carries ?_
      rw [h.silent _ fresh, List.nil_append]
      exact .tool tool hasId announces (by simp)
  | @addedText n id reasoning head event fresh type hasId added carries same =>
      refine h.insert (by simpa using carries) ?_
      rw [h.silent _ fresh, List.nil_append]
      refine .text type hasId (show TextEvents n reasoning id _ _ [] [] from ?_)
      refine ⟨added, by rw [announced, same, hasId], by simp, by simp, ?_, .unfinished rfl⟩
      exact fun _ _ => rfl
  | arguments found unfinished tool =>
      obtain ⟨id, hasId, announces, finished⟩ := (h.known _ _ found).of_tool tool
      exact h.remember (.tool tool hasId announces finished)
  | @part n j reasoning item event parts found unfinished type named carries atPart changes =>
      refine h.insert (by simpa using carries) ?_
      obtain ⟨reasoning', id, added, middle, closing, hevents, htype, hasId, hstate⟩ :=
        (h.known _ _ found).of_text (not_tool_of_itemType type)
      rw [type, Option.some.injEq] at htype
      cases itemType_injective htype
      cases hstate.closes.of_unfinished unfinished
      have hnamed : event.fieldStr "item_id" = some id := by
        rw [← lookup_string, ← named, lookup_string, hasId]
      have hpart := hstate.part unfinished hnamed carries atPart changes
      rw [hevents, List.append_nil, List.cons_append, ← List.append_nil (middle ++ [event])]
      exact .text type hasId hpart
  | @doneTool n item original found unfinished tool heads =>
      obtain ⟨hid, htype⟩ := fieldStr_of_heads heads
      have htool : isTool item.head = true := by
        rw [isTool, ← htype]
        exact tool
      obtain ⟨id, hasId, announces, -⟩ := (h.known _ _ found).of_tool htool
      refine h.remember (.tool htool hasId announces fun known hknown => ?_)
      cases hknown
      exact ⟨tool, hid.trans hasId⟩
  | @doneText n item original event found unfinished text heads parts done carries same =>
      refine h.insert (by simpa using carries) ?_
      obtain ⟨hid, htype⟩ := fieldStr_of_heads heads
      have htool : isTool item.head = false := by
        rw [isTool, ← htype]
        exact text
      obtain ⟨reasoning, id, added, middle, closing, hevents, type, hasId, hstate⟩ :=
        (h.known _ _ found).of_text htool
      cases hstate.closes.of_unfinished unfinished
      have htype := htype.trans type
      rw [hevents, List.append_nil, List.cons_append]
      refine .text type hasId (show TextEvents _ reasoning id _ added middle [event] from ?_)
      refine ⟨hstate.opens, hstate.named, hstate.content, hstate.known, hstate.fresh, ?_⟩
      exact .finished rfl text htype (hid.trans hasId) (parts _ htype) done same

end Items

section Gating

variable {v v' : View} {event : Json}

/-- Arguments of a tool, or a tool that is done. -/
def isToolRelease (event : Json) : Bool :=
  (typeOf event).any (toolTypes.contains ·) ||
    isDone event && (announced event "type").any isToolType

/-- Whatever is released of a tool is released with a completion. -/
def Gated (batch : List Json) : Prop :=
  ∀ e ∈ batch, isToolRelease e = true →
    ∃ before last, batch = before ++ [last] ∧ typeOf last = some "response.completed"

theorem not_release {type : String} (htype : typeOf event = some type)
    (hcontent : toolTypes.contains type = false) (hdone : type ≠ "response.output_item.done") :
    isToolRelease event = false := by
  simp only [isToolRelease, isDone, htype, Option.any_some, hcontent, Bool.false_or,
    Option.some.injEq, hdone, decide_false, Bool.false_and]

/-- The event neither releases a tool nor ends the stream. -/
def Quiet (event : Json) : Prop := isToolRelease event = false ∧ isEnding event = false

/-- Only the terminal event releases and ends. -/
theorem Converted.quiet (h : Converted v events v') : ∀ e ∈ events, Quiet e := by
  have hparts : ∀ type ∈ partTypes, toolTypes.contains type = false ∧
      type ≠ "response.output_item.done" := by decide
  have hadded : ∀ e, isAdded e = true → Quiet e := fun e he =>
    ⟨not_release (of_decide_eq_true he) (by decide) (by decide),
      not_ending (by decide) (of_decide_eq_true he)⟩
  have heffect := h.effect
  generalize v'.items = items, v.preserve = preserve at heffect
  cases heffect with
  | opening type =>
      refine List.forall_mem_singleton.2 ?_
      rcases type with type | type <;>
        exact ⟨not_release type (by decide) (by decide), not_ending (by decide) type⟩
  | addedTool fresh tool hasId announces =>
      cases announces with
      | now added => exact List.forall_mem_singleton.2 (hadded _ added)
      | later => simp
  | addedText fresh type hasId added => exact List.forall_mem_singleton.2 (hadded _ added)
  | arguments | doneTool => simp
  | part found unfinished type named carries atPart changes =>
      obtain ⟨type, hmem, htype⟩ := typeOf_change changes
      refine List.forall_mem_singleton.2
        ⟨not_release htype (hparts type hmem).1 (hparts type hmem).2, not_ending ?_ htype⟩
      exact List.mem_append_left _ (List.mem_append_right _ hmem)
  | doneText found unfinished text heads parts done carries same =>
      refine List.forall_mem_singleton.2 ⟨?_, not_ending (by decide) (of_decide_eq_true done)⟩
      rw [isToolRelease, announced, same, ← isTool, text, of_decide_eq_true done, Bool.and_false]
      decide

end Gating

section Completing

variable {item : Json}

/-- The deltas of the arguments of a tool. -/
def argumentDeltas (custom : Bool) (events : List Json) : List Json :=
  events.filter fun e => decide (typeOf e = some (argumentsPrefix custom ++ ".delta"))

/-- The events of an item of the output: it is announced, then come its deltas, and then
the item as it is in the response. -/
structure ItemEvents (n : Nat) (item : Json) (events : List Json) : Prop where
  content : ∃ id added middle done, events = added :: (middle ++ [done]) ∧
    item.fieldStr "id" = some id ∧ isAdded added = true ∧ announced added "id" = some id ∧
    (∀ e ∈ middle, ContentEvent e id n) ∧ isDone done = true ∧ done.lookup "item" = item
  kind : isTool item = true ∨ ∃ reasoning, item.fieldStr "type" = some (itemType reasoning)
  arguments : isTool item = true → item.fieldStr (argumentsKey (isCustom item)) =
    some (textOf (argumentDeltas (isCustom item) events))
  texts : ∀ reasoning, item.fieldStr "type" = some (itemType reasoning) →
    ∃ parts, item.lookup (partsKey reasoning) = .array parts ∧
      ∀ (j : Nat) part, parts[j]? = some part →
        part.fieldStr "text" = some (textOf (partDeltas reasoning j events))

/-- An item is announced once and done once. -/
theorem ItemEvents.once (h : ItemEvents n item events) :
    (∃ added, events.filter isAdded = [added]) ∧ ∃ done, events.filter isDone = [done] := by
  obtain ⟨id, added, middle, done, rfl, -, hadded, -, hmiddle, hdone, -⟩ := h.content
  have hnot : isDone added = false := by
    rw [isAdded, decide_eq_true_eq] at hadded
    rw [isDone, hadded]
    decide
  have hnot' : isAdded done = false := by
    rw [isDone, decide_eq_true_eq] at hdone
    rw [isAdded, hdone]
    decide
  have hnone : ∀ p : Json → Bool, (∀ e ∈ middle, p e = false) → middle.filter p = [] :=
    fun p hp => List.filter_eq_nil_iff.2 fun e he => by simp [hp e he]
  refine ⟨⟨added, ?_⟩, done, ?_⟩
  · rw [List.filter_cons_of_pos hadded, List.filter_append,
      hnone _ fun e he => (hmiddle e he).other.2.1, List.filter_cons_of_neg (by simp [hnot'])]
    rfl
  · rw [List.filter_cons_of_neg (by simp [hnot]), List.filter_append,
      hnone _ fun e he => (hmiddle e he).other.2.2, List.filter_cons_of_pos hdone]
    rfl

theorem ToolAdded.once {before opening : List Json} (h : ToolAdded n id preserve before)
    (h' : ToolAdded n id (!preserve) opening) : ∃ added, before ++ opening = [added] ∧
      isAdded added = true ∧ announced added "id" = some id := by
  cases preserve with
  | true =>
      cases h with
      | now added carries hasId =>
          cases h'
          exact ⟨_, rfl, added, hasId⟩
  | false =>
      cases h
      cases h' with
      | now added carries hasId => exact ⟨_, rfl, added, hasId⟩

/-- The events of a tool, whenever it was announced. -/
theorem ToolBlock.itemEvents {before block : List Json} (h : ToolBlock preserve n item block)
    (htool : isTool item = true) (hid : item.fieldStr "id" = some id)
    (hadded : ToolAdded n id preserve before) : ItemEvents n item (before ++ block) := by
  obtain ⟨id', opening, deltas, argumentsDone, done, rfl, hid', hopening, hcontent⟩ := h.content
  cases hid.symm.trans hid'
  obtain ⟨added, heq, hisAdded, hnamed⟩ := hadded.once hopening
  have hevents : before ++ (opening ++ (deltas ++ [argumentsDone, done])) =
      added :: ((deltas ++ [argumentsDone]) ++ [done]) := by
    rw [← List.append_assoc, heq, List.append_assoc]
    rfl
  obtain ⟨hdeltaMem, hdoneMem⟩ := argumentsPrefix_mem (isCustom item)
  rw [hevents]
  refine ⟨⟨id, added, deltas ++ [argumentsDone], done, rfl, hid, hisAdded, hnamed, ?_,
    hcontent.doneType, hcontent.same⟩, .inl htool, fun _ => ?_, fun reasoning htype => ?_⟩
  · intro e he
    rcases List.mem_append.1 he with he | he
    · obtain ⟨htype, hname, hindex⟩ := hcontent.eachDelta e he
      exact ⟨⟨_, List.mem_append_left _ hdeltaMem, htype⟩, hname, hindex⟩
    · rw [List.mem_singleton.1 he]
      exact ⟨⟨_, List.mem_append_left _ hdoneMem, hcontent.argumentsType⟩, hcontent.named,
        hcontent.argumentsIndex⟩
  · have hselect : argumentDeltas (isCustom item) (added :: (deltas ++ [argumentsDone] ++ [done])) =
        deltas := by
      have hall : deltas.filter
          (fun e => decide (typeOf e = some (argumentsPrefix (isCustom item) ++ ".delta"))) =
            deltas :=
        List.filter_eq_self.2 fun e he => decide_eq_true (hcontent.eachDelta e he).1
      have hadded : typeOf added ≠ some (argumentsPrefix (isCustom item) ++ ".delta") := by
        rw [of_decide_eq_true hisAdded]
        cases isCustom item <;> decide
      have hargs : typeOf argumentsDone ≠ some (argumentsPrefix (isCustom item) ++ ".delta") := by
        rw [hcontent.argumentsType]
        cases isCustom item <;> decide
      have hdone : typeOf done ≠ some (argumentsPrefix (isCustom item) ++ ".delta") := by
        rw [of_decide_eq_true hcontent.doneType]
        cases isCustom item <;> decide
      simp [argumentDeltas, List.filter_append, hall, hadded, hargs, hdone]
    rw [hselect, hcontent.text]
  · rw [not_tool_of_itemType htype] at htool
    cases htool

/-- The events of a text that is done. -/
theorem TextEvents.itemEvents {reasoning : Bool} {item : StreamItem} {raw added : Json}
    {middle closing : List Json} (h : TextEvents n reasoning id item added middle closing)
    (hdone : item.done = some raw) : ItemEvents n raw (added :: (middle ++ closing)) := by
  cases h.closes with
  | unfinished unfinished =>
      rw [unfinished] at hdone
      cases hdone
  | @finished original done finished text type hasId parts isDone same =>
      cases finished.symm.trans hdone
      refine ⟨⟨id, added, middle, done, rfl, hasId, h.opens, h.named, h.content, isDone, same⟩,
        .inr ⟨reasoning, type⟩, fun htool => ?_, fun reasoning' htype => ?_⟩
      · rw [text] at htool
        cases htool
      · rw [type, Option.some.injEq] at htype
        cases itemType_injective htype
        refine ⟨_, parts, fun j part hpart => ?_⟩
        rw [List.getElem?_map, Option.map_eq_some_iff] at hpart
        obtain ⟨known, hknown, rfl⟩ := hpart
        have hopens : typeOf added ≠ some (textPrefix reasoning ++ ".delta") := by
          rw [of_decide_eq_true h.opens]
          cases reasoning <;> decide
        have hcloses : typeOf done ≠ some (textPrefix reasoning ++ ".delta") := by
          rw [of_decide_eq_true isDone]
          cases reasoning <;> decide
        have hselect : partDeltas reasoning j (added :: (middle ++ [done])) =
            partDeltas reasoning j middle := by
          rw [partDeltas, List.filter_cons_of_neg (by simp [hopens]), ← partDeltas,
            partDeltas_other _ hcloses]
        rw [hselect]
        exact h.known j known hknown

/-- Everything that was emitted for a response, when its stream is complete. -/
structure Whole (emitted : List Json) (response : Json) (output : List Json) : Prop where
  hasOutput : response.lookup "output" = .array output
  terminal : ∃ before last status, emitted = before ++ [last] ∧
    status ∈ ["completed", "incomplete", "failed"] ∧
    typeOf last = some ("response." ++ status) ∧ response.fieldStr "status" = some status ∧
    last.lookup "response" = response ∧ ∀ e ∈ before, isEnding e = false
  once : ∀ n < output.length,
    (∃ added, emitted.filter (fun e => isAdded e && atIndex e n) = [added]) ∧
      ∃ done, emitted.filter (fun e => isDone e && atIndex e n) = [done]
  item : ∀ (n : Nat) item, output[n]? = some item → ItemEvents n item (emitted.filter (atIndex · n))
  nothing : ∀ n, output.length ≤ n → emitted.filter (atIndex · n) = []

theorem Released.carries {block : List Json} (h : Released preserve n item block) :
    ∀ e ∈ block, e.field "output_index" = some (.number (.ofNat n)) := by
  cases h with
  | text => simp
  | tool tool content =>
      obtain ⟨id, opening, deltas, argumentsDone, done, rfl, -, hopening, hcontent⟩ :=
        content.content
      intro e he
      simp only [List.mem_append, List.mem_cons, List.not_mem_nil, or_false] at he
      rcases he with he | he | rfl | rfl
      · exact hopening.carries e he
      · exact (hcontent.eachDelta e he).2.2
      · exact hcontent.argumentsIndex
      · exact hcontent.doneIndex

theorem Released.not_ending {block : List Json} (h : Released preserve n item block) :
    ∀ e ∈ block, isEnding e = false := by
  cases h with
  | text => simp
  | tool tool content =>
      obtain ⟨id, opening, deltas, argumentsDone, done, rfl, -, hopening, hcontent⟩ :=
        content.content
      obtain ⟨hdelta, hdone⟩ := argumentsPrefix_mem (isCustom item)
      have harguments : ∀ e type, type ∈ toolTypes → typeOf e = some type → isEnding e = false :=
        fun e type hmem htype =>
          Adapters.not_ending (List.mem_append_left _ (List.mem_append_left _ hmem)) htype
      intro e he
      simp only [List.mem_append, List.mem_cons, List.not_mem_nil, or_false] at he
      rcases he with he | he | rfl | rfl
      · generalize (!preserve) = late at hopening
        cases hopening with
        | now added =>
            rw [List.mem_singleton.1 he]
            exact Adapters.not_ending (by decide) (of_decide_eq_true added)
        | later => cases he
      · exact harguments e _ hdelta (hcontent.eachDelta e he).1
      · exact harguments e _ hdone hcontent.argumentsType
      · exact Adapters.not_ending (by decide) (of_decide_eq_true hcontent.doneType)

/-- A block of a place has what is emitted under its index. -/
theorem Blocks.filter {output : List Json} {blocks : List (List Json)}
    (h : Blocks preserve 0 output blocks) {k : Nat} (hk : output[k]? = some item) :
    Released preserve k item (blocks.flatten.filter (atIndex · k)) := by
  have hlt : k < blocks.length := h.length ▸ (List.getElem?_eq_some_iff.1 hk).1
  have hget := List.getElem?_eq_getElem hlt
  have hplaces : ∀ (i : Nat) block, blocks[i]? = some block → ∀ e ∈ block, ∀ k,
      atIndex e k = decide (k = i) := by
    intro i block hblock e he k
    have hi : i < output.length := h.length ▸ (List.getElem?_eq_some_iff.1 hblock).1
    have hreleased := h.block i _ block (List.getElem?_eq_getElem hi) hblock
    rw [Nat.zero_add] at hreleased
    exact atIndex_of (hreleased.carries e he)
  have hreleased := h.block k item _ hk hget
  rw [Nat.zero_add] at hreleased
  rwa [filter_flatten_block (p := fun k e => atIndex e k) hplaces hget]

/-- No block has anything under another index. -/
theorem Blocks.filter_none {output : List Json} {blocks : List (List Json)}
    (h : Blocks preserve 0 output blocks) {k : Nat} (hk : output.length ≤ k) :
    blocks.flatten.filter (atIndex · k) = [] := by
  refine List.filter_eq_nil_iff.2 fun e he => ?_
  obtain ⟨block, hblock, he⟩ := List.mem_flatten.1 he
  obtain ⟨i, hi, hget⟩ := List.getElem_of_mem hblock
  have hi' : i < output.length := h.length ▸ hi
  have hreleased := h.block i _ block (List.getElem?_eq_getElem hi')
    (hget ▸ List.getElem?_eq_getElem hi)
  rw [Nat.zero_add] at hreleased
  rw [atIndex_of (hreleased.carries e he), decide_eq_true_eq]
  omega

/-- The events of an item that was recorded as the response has it. -/
theorem ItemState.released {recorded : StreamItem} {raw : Json} {before block : List Json}
    (h : ItemState preserve n recorded before) (hdone : recorded.done = some raw)
    (hrestored : Restored raw item) (hreleased : Released preserve n item block) :
    ItemEvents n item (before ++ block) := by
  cases h with
  | tool tool hasId announces finished =>
      obtain ⟨htool, hid⟩ := finished raw hdone
      obtain ⟨id, hraw, hid'⟩ := hrestored.id
      cases hid.symm.trans hraw
      have hkind : isTool item = true := by
        rcases hrestored.kind with ⟨-, hkind⟩ | ⟨hnot, -⟩
        · exact hkind
        · rw [htool] at hnot
          cases hnot
      cases hreleased with
      | tool tool content => exact content.itemEvents hkind hid' announces
      | text text =>
          rw [hkind] at text
          cases text
  | text type hasId events =>
      have hevents := events.itemEvents hdone
      have hraw : isTool raw = false := by
        cases events.closes with
        | unfinished unfinished =>
            rw [unfinished] at hdone
            cases hdone
        | finished finished text =>
            cases finished.symm.trans hdone
            exact text
      rcases hrestored.kind with ⟨hkind, -⟩ | ⟨-, rfl, -⟩
      · rw [hraw] at hkind
        cases hkind
      · cases hreleased with
        | tool tool =>
            rw [hraw] at tool
            cases tool
        | text => rwa [List.append_nil]

/-- The terminal event completes what was emitted before it. -/
theorem Items.whole {v v' : View} (h : Items v.preserve v.items emitted)
    (hquiet : ∀ e ∈ emitted, Quiet e) (hterminated : Terminated v events v') :
    ∃ response output, Whole (emitted ++ events) response output := by
  obtain ⟨status, raw, response, items, output, blocks, last, rfl, hstatus, hdecoded, hresponse,
    hrecorded, hblocks, htype, hlast, hindex⟩ := hterminated.release
  have hlength : items.length = output.length := hdecoded.restored.length_eq
  have hfilter : ∀ k, (emitted ++ (blocks.flatten ++ [last])).filter (atIndex · k) =
      emitted.filter (atIndex · k) ++ blocks.flatten.filter (atIndex · k) := by
    intro k
    rw [List.filter_append, List.filter_append,
      List.filter_cons_of_neg (by simp [not_atIndex hindex]), List.filter_nil, List.append_nil]
  have hitem : ∀ (k : Nat) item, output[k]? = some item →
      ItemEvents k item ((emitted ++ (blocks.flatten ++ [last])).filter (atIndex · k)) := by
    intro k item hk
    obtain ⟨hlt, rfl⟩ := List.getElem?_eq_some_iff.1 hk
    obtain ⟨recorded, hget, hdone⟩ := hrecorded.done k _ (List.getElem?_eq_getElem (hlength ▸ hlt))
    rw [hfilter]
    refine (h.known k recorded hget).released hdone ?_ (hblocks.filter hk)
    exact hdecoded.restored.get (hlength ▸ hlt) hlt
  refine ⟨response, output, hdecoded.hasOutput, ?_, fun k hk => ?_, hitem, fun k hk => ?_⟩
  · refine ⟨emitted ++ blocks.flatten, last, status, by rw [List.append_assoc], hstatus, htype,
      hresponse, hlast, fun e he => ?_⟩
    rcases List.mem_append.1 he with he | he
    · exact (hquiet e he).2
    · obtain ⟨block, hblock, he⟩ := List.mem_flatten.1 he
      obtain ⟨i, hi, hget⟩ := List.getElem_of_mem hblock
      have hi' : i < output.length := hblocks.length ▸ hi
      exact (hblocks.block i _ block (List.getElem?_eq_getElem hi')
        (hget ▸ List.getElem?_eq_getElem hi)).not_ending e he
  · have honce := (hitem k _ (List.getElem?_eq_getElem hk)).once
    simp only [List.filter_filter] at honce
    exact honce
  · rw [hfilter, h.silent k (hrecorded.none (hlength ▸ hk)), hblocks.filter_none hk]
    rfl

end Completing

section Gating

variable {v v' : View}

theorem Terminated.gated (h : Terminated v events v') : Gated events := by
  obtain ⟨status, raw, response, items, output, blocks, last, rfl, hstatus, hdecoded, hresponse,
    -, hblocks, htype, -, -⟩ := h.release
  have hlast : isToolRelease last = false := by
    simp only [List.mem_cons, List.not_mem_nil, or_false] at hstatus
    rcases hstatus with rfl | rfl | rfl <;> exact not_release htype (by decide) (by decide)
  intro e he hrelease
  rcases List.mem_append.1 he with he | he
  · obtain ⟨block, hblock, he⟩ := List.mem_flatten.1 he
    obtain ⟨i, hi, hget⟩ := List.getElem_of_mem hblock
    have hi' : i < output.length := hblocks.length ▸ hi
    have hreleased := hblocks.block i _ block (List.getElem?_eq_getElem hi')
      (hget ▸ List.getElem?_eq_getElem hi)
    cases hreleased with
    | text => cases he
    | tool tool =>
        have hcompleted := hdecoded.tools _ (List.getElem_mem hi') tool
        rw [← hdecoded.status, hresponse, Option.some.injEq] at hcompleted
        subst hcompleted
        exact ⟨_, last, rfl, htype⟩
  · rw [List.mem_singleton.1 he, hlast] at hrelease
    cases hrelease

end Gating

section Runs

variable {texts : Texts} {s s' : ResponsesStream} {batches : List (List Json)}

/-- The numbers of the events are 0, 1 and so on. -/
def Numbered (events : List Json) : Prop :=
  events.map (·.field "sequence_number") =
    (List.range events.length).map fun k => some (.number (.ofNat k))

theorem Numbered.append (h : Numbered emitted)
    (hmore : events.map (·.field "sequence_number") =
      (List.range' emitted.length events.length).map fun k => some (.number (.ofNat k))) :
    Numbered (emitted ++ events) := by
  rw [Numbered, List.map_append, h, hmore, List.length_append, List.range_eq_range',
    List.range_eq_range', ← List.map_append, ← List.range'_append_1, Nat.zero_add]

/-- What was emitted until now, in the calls that were accepted. -/
structure Emitting (batches : List (List Json)) (s : ResponsesStream) : Prop where
  gated : ∀ batch ∈ batches, Gated batch
  numbered : Numbered batches.flatten
  state : s.invalid = true ∨ s.view.sequence = batches.flatten.length ∧
    (s.complete = false ∧ Items s.view.preserve s.view.items batches.flatten ∧
        (∀ e ∈ batches.flatten, Quiet e) ∨
      s.complete = true ∧ ∃ response output, Whole batches.flatten response output)

theorem Emitting.accept {sse : SseEvent} (h : Emitting batches s)
    (hcall : event texts sse s = (.ok events, s')) : Emitting (batches ++ [events]) s' := by
  obtain ⟨hvalid, hgoing, hcases⟩ := event_accepts hcall
  have hflatten : (batches ++ [events]).flatten = batches.flatten ++ events := by simp
  rcases h.state with hinvalid | ⟨hsequence, ⟨-, hitems, hquiet⟩ | ⟨hcomplete, -⟩⟩
  · rw [hvalid] at hinvalid
    cases hinvalid
  · have hlast : ∀ {P : List Json → Prop}, P events → (∀ batch ∈ batches, P batch) →
        ∀ batch ∈ batches ++ [events], P batch := by
      intro P hevents hbatches batch hbatch
      rcases List.mem_append.1 hbatch with hbatch | hbatch
      · exact hbatches batch hbatch
      · rw [List.mem_singleton.1 hbatch]
        exact hevents
    rcases hcases with hconverted | hterminated
    · have hnumbers := hconverted.numbers
      rw [hsequence] at hnumbers
      refine ⟨hlast (fun e he hrelease => ?_) h.gated, ?_, .inr ⟨?_, .inl ⟨?_, ?_, ?_⟩⟩⟩
      · rw [(hconverted.quiet e he).1] at hrelease
        cases hrelease
      · rw [hflatten]
        exact h.numbered.append hnumbers
      · rw [hflatten, List.length_append, hconverted.sequence, hsequence]
      · exact hconverted.complete.trans hgoing
      · rw [hflatten, hconverted.preserve]
        exact hitems.step hconverted.effect
      · rw [hflatten]
        intro e he
        rcases List.mem_append.1 he with he | he
        · exact hquiet e he
        · exact hconverted.quiet e he
    · have hnumbers := hterminated.numbers
      have hview := hterminated.view
      rw [hsequence] at hnumbers
      refine ⟨hlast hterminated.gated h.gated, ?_, .inr ⟨?_, .inr ⟨?_, ?_⟩⟩⟩
      · rw [hflatten]
        exact h.numbered.append hnumbers
      · rw [hflatten, List.length_append, hview, hsequence]
      · exact congrArg View.complete hview
      · rw [hflatten]
        exact hitems.whole hquiet hterminated
  · rw [hgoing] at hcomplete
    cases hcomplete

theorem Emitting.reject {sse : SseEvent} {fault : Fault IrError} (h : Emitting batches s)
    (hcall : event texts sse s = (.error fault, s')) : Emitting batches s' := by
  rcases event_rejects hcall with ⟨rfl, -⟩ | hinvalid
  · exact h
  · exact ⟨h.gated, h.numbered, .inl hinvalid⟩

theorem emitting_new {prepared : PreparedResponses} {limit : Nat}
    (h : new prepared limit = .ok s) : Emitting [] s := by
  simp only [new, bind_ok, pure_ok] at h
  obtain ⟨_, -, validator, -, rfl⟩ := h
  refine ⟨by simp, rfl, .inr ⟨rfl, .inl ⟨rfl, ⟨fun n item hget => ?_, fun _ _ => rfl⟩, by simp⟩⟩⟩
  cases hget

/-- Whatever is fed to a stream, nothing is accepted after a rejected event; the accepted
events release tools with the completion alone and number what they emit from 0 on; and
when the stream is complete, it has emitted the output of the terminal response. -/
theorem released_output {prepared : PreparedResponses} {limit : Nat}
    (h : new prepared limit = .ok s) (sses : List SseEvent) :
    (∃ (accepted : List (List Json)) (faults : List (Fault IrError)),
      replies (event texts) s sses = accepted.map .ok ++ faults.map .error) ∧
    (∀ batch ∈ returned (event texts) s sses, Gated batch) ∧
    Numbered (returned (event texts) s sses).flatten ∧
    ((Method.run (event texts) s sses).isComplete = true → ∃ response output,
      Whole (returned (event texts) s sses).flatten response output) := by
  have hemitting : Emitting ([] ++ returned (event texts) s sses)
      (Method.run (event texts) s sses) :=
    returned_rule (fun _ _ _ _ _ hinv hcall => hinv.accept hcall)
      (fun _ _ _ _ _ hinv hcall => hinv.reject hcall) (emitting_new h) sses
  rw [List.nil_append] at hemitting
  refine ⟨?_, hemitting.gated, hemitting.numbered, fun hcomplete => ?_⟩
  · have hover : ∀ s sse, (s.invalid || s.complete) = true → ∃ fault, event texts sse s =
        (.error fault, s) := fun s sse hover => ⟨_, event_of_over sse hover⟩
    refine replies_rule hover (fun s sse fault s' hcall => ?_) s sses
    rcases event_rejects hcall with ⟨rfl, hover⟩ | hinvalid
    · exact hover
    · rw [hinvalid, Bool.true_or]
  · rw [isComplete, Bool.and_eq_true, Bool.not_eq_true'] at hcomplete
    rcases hemitting.state with hinvalid | ⟨-, ⟨hgoing, -, -⟩ | ⟨-, hwhole⟩⟩
    · rw [hcomplete.2] at hinvalid
      cases hinvalid
    · rw [hcomplete.1] at hgoing
      cases hgoing
    · exact hwhole

/-- A request with one tool. -/
def lookRequest : PreparedResponses :=
  let tool : ToolIdentity := ⟨none, "look"⟩
  let binding : Binding :=
    { normalize := false, structured := none, original := tool, grammar := none, wrapped := false }
  { original := .object [], echoes := .object []
    tools := {
      registry := {
        codeMode := false, forward := OrderedMap.empty.insert tool tool
        reverse := OrderedMap.empty.insert tool binding
        definitions := [⟨tool, none, .function none none, .responses⟩]
        normalized := .empty }
      parallel := none, choice := none }
    profile := {
      reasoningContract := none, id := "p", version := "1", protocol := .responses, support := [] }
    model := "m", preserveItemOrder := true }

def plainTexts : Texts :=
  { toLowercase := fun text => text, isObjectText := (· = "{}"), parsesJson := (· = "{}") }

def lookResponse (status : String) (output : List Json) : Json :=
  .object [("id", .string "r"), ("object", .string "response"), ("created_at", .number (.ofNat 1)),
    ("status", .string status), ("model", .string "m"), ("output", .array output)]

def lookCall (status arguments : String) : Json :=
  .object [("id", .string "f"), ("type", .string "function_call"), ("call_id", .string "c"),
    ("name", .string "look"), ("arguments", .string arguments), ("status", .string status)]

def lookEvent (n : Nat) (type : String) (fields : Json.Fields) : SseEvent :=
  ⟨type.toList, (Json.object
    (("type", .string type) :: ("sequence_number", .number (.ofNat n)) :: fields)).render⟩

/-- The tool is called with an empty object. -/
def lookEvents : List SseEvent :=
  let place := ("output_index", Json.number (.ofNat 0))
  let named := ("item_id", Json.string "f")
  [lookEvent 0 "response.created" [("response", lookResponse "in_progress" [])],
    lookEvent 1 "response.output_item.added" [place, ("item", lookCall "in_progress" "")],
    lookEvent 2 "response.function_call_arguments.delta" [named, place, ("delta", .string "{}")],
    lookEvent 3 "response.function_call_arguments.done" [named, place, ("arguments", .string "{}")],
    lookEvent 4 "response.output_item.done" [place, ("item", lookCall "completed" "{}")],
    lookEvent 5 "response.completed" [("response", lookResponse "completed" [lookCall "completed" "{}"])]]

theorem released_look : ∃ s, new lookRequest 1000 = .ok s ∧
    (Method.run (event plainTexts) s lookEvents).isComplete = true ∧
    (∀ batch ∈ returned (event plainTexts) s lookEvents, Gated batch) ∧
    Numbered (returned (event plainTexts) s lookEvents).flatten ∧ ∃ response output,
      Whole (returned (event plainTexts) s lookEvents).flatten response output := by
  have hlook : ((new lookRequest 1000).toOption.any fun s =>
      (Method.run (event plainTexts) s lookEvents).isComplete) = true := by decide +kernel
  cases hnew : new lookRequest 1000 with
  | error e =>
      rw [hnew] at hlook
      cases hlook
  | ok s =>
      rw [hnew] at hlook
      have hcomplete : (Method.run (event plainTexts) s lookEvents).isComplete = true := hlook
      obtain ⟨-, hgated, hnumbered, hwhole⟩ := @released_output plainTexts _ _ _ hnew lookEvents
      exact ⟨s, rfl, hcomplete, hgated, hnumbered, hwhole hcomplete⟩

end Runs

end ResponsesStream

end ResponseGateway.Adapters
