import ResponseGateway.Ir.EventReduction

/-!
What holds of every validator reached by a stream of events. `Consistent` ties
the counters and identity sets to the items; `argumentText` reads the arguments
of an item off the accepted events, so the accumulated text is compared with the
history and not with itself.
-/

namespace ResponseGateway.Ir.EventValidator
open Checked Method

variable (parsesJson : String → Bool)

/-- The bookkeeping agrees with the items and stays within the limits. -/
structure Consistent (limits : EventLimits) (v : EventValidator) : Prop where
  limits_eq : v.limits = limits
  parts_eq : v.parts = v.items.total (·.parts.size)
  parts_le : v.parts ≤ limits.maxParts
  argumentBytes_eq : v.argumentBytes = v.items.total (·.arguments.utf8ByteSize)
  argumentBytes_le : v.argumentBytes ≤ limits.maxArgumentBytes
  items_size : v.items.size = v.indices.card
  items_le : v.items.size ≤ limits.maxItems
  mem_calls : ∀ c, c ∈ v.calls ↔ ∃ id state, v.items.get id = some state ∧
    state.kind.callId? = some c
  calls_unique : ∀ c id id' state state', v.items.get id = some state →
    v.items.get id' = some state' → state.kind.callId? = some c → state'.kind.callId? = some c →
    id = id'
  closed_parts : ∀ id state, v.items.get id = some state → state.isOpen = false →
    ∀ index part, state.parts.get index = some part → part.isOpen = false
  closed_json : ∀ id state, v.items.get id = some state → state.isOpen = false →
    state.kind.isFunction = true → parsesJson state.arguments = true

variable {parsesJson}

theorem consistent_new {limits : EventLimits} {v : EventValidator} (h : new limits = .ok v) :
    Consistent parsesJson limits v := by
  simp only [new, bind_ok, pure_ok] at h
  obtain ⟨_, -, rfl⟩ := h
  constructor <;> simp

/-- The part of consistency that an update of one known item has to re-establish. -/
theorem Consistent.replace {limits : EventLimits} {v : EventValidator} {item : ItemId}
    {state state' : ItemState} {parts argumentBytes : Nat} (hv : Consistent parsesJson limits v)
    (found : v.items.get item = some state) (kind : state'.kind = state.kind)
    (hparts : parts + state.parts.size = v.parts + state'.parts.size)
    (hpartsLe : parts ≤ limits.maxParts)
    (hbytes : argumentBytes + state.arguments.utf8ByteSize =
      v.argumentBytes + state'.arguments.utf8ByteSize)
    (hbytesLe : argumentBytes ≤ limits.maxArgumentBytes)
    (hclosed : state'.isOpen = false →
      (∀ index part, state'.parts.get index = some part → part.isOpen = false) ∧
      (state'.kind.isFunction = true → parsesJson state'.arguments = true)) :
    Consistent parsesJson limits
      { v with items := v.items.insert item state', parts, argumentBytes } := by
  have htotal := OrderedMap.total_insert_old (·.parts.size) state' found
  have hlen := OrderedMap.total_insert_old (·.arguments.utf8ByteSize) state' found
  have hpartsEq := hv.parts_eq
  have hbytesEq := hv.argumentBytes_eq
  have hcall : ∀ id s, (v.items.insert item state').get id = some s →
      ∃ s', v.items.get id = some s' ∧ s'.kind = s.kind := by
    intro id s hs
    rw [OrderedMap.get_insert] at hs
    split at hs
    · next heq =>
        cases heq
        cases hs
        exact ⟨state, found, kind.symm⟩
    · exact ⟨s, hs, rfl⟩
  refine { limits_eq := hv.limits_eq, parts_le := hpartsLe, argumentBytes_le := hbytesLe,
           parts_eq := ?_, argumentBytes_eq := ?_, items_size := ?_, items_le := ?_,
           mem_calls := ?_, calls_unique := ?_, closed_parts := ?_, closed_json := ?_ }
  · simp only at htotal ⊢
    omega
  · simp only at hlen ⊢
    omega
  · exact (OrderedMap.size_insert_old state' found).trans hv.items_size
  · exact (OrderedMap.size_insert_old state' found).le.trans hv.items_le
  · intro c
    rw [hv.mem_calls]
    constructor
    · rintro ⟨id, s, hs, hc⟩
      by_cases heq : item = id
      · cases heq
        rw [found] at hs
        cases hs
        exact ⟨item, state', OrderedMap.get_insert_self _ _ _, by rw [kind, hc]⟩
      · exact ⟨id, s, by simpa [OrderedMap.get_insert, heq] using hs, hc⟩
    · rintro ⟨id, s, hs, hc⟩
      obtain ⟨s', hs', hkind⟩ := hcall id s hs
      exact ⟨id, s', hs', by rw [hkind, hc]⟩
  · intro c id id' s₁ s₂ h₁ h₂ hc₁ hc₂
    obtain ⟨t₁, ht₁, hk₁⟩ := hcall id s₁ h₁
    obtain ⟨t₂, ht₂, hk₂⟩ := hcall id' s₂ h₂
    exact hv.calls_unique c id id' t₁ t₂ ht₁ ht₂ (by rw [hk₁, hc₁]) (by rw [hk₂, hc₂])
  · intro id s hs hopen
    rw [OrderedMap.get_insert] at hs
    split at hs
    · cases hs
      exact (hclosed hopen).1
    · exact hv.closed_parts id s hs hopen
  · intro id s hs hopen
    rw [OrderedMap.get_insert] at hs
    split at hs
    · cases hs
      exact (hclosed hopen).2
    · exact hv.closed_json id s hs hopen

theorem Consistent.add {limits : EventLimits} {v : EventValidator} {id : ItemId}
    {index : OutputIndex} {kind : OutputKind} (hv : Consistent parsesJson limits v)
    (room : v.items.size < v.limits.maxItems) (newItem : v.items.get id = none)
    (newIndex : index ∉ v.indices) (newCall : ∀ c, kind.callId? = some c → c ∉ v.calls) :
    Consistent parsesJson limits { v with
      calls := v.calls ∪ kind.callId?.toFinset
      indices := insert index v.indices
      items := v.items.insert id { kind, isOpen := true, parts := .empty, arguments := "" } } := by
  have hnot : ∀ c, kind.callId? = some c → ∀ id' s, v.items.get id' = some s →
      s.kind.callId? ≠ some c := fun c hc id' s hs hkind =>
    newCall c hc ((hv.mem_calls c).2 ⟨id', s, hs, hkind⟩)
  refine { limits_eq := hv.limits_eq, parts_le := hv.parts_le,
           argumentBytes_le := hv.argumentBytes_le,
           parts_eq := ?_, argumentBytes_eq := ?_, items_size := ?_, items_le := ?_,
           mem_calls := ?_, calls_unique := ?_, closed_parts := ?_, closed_json := ?_ }
  · rw [OrderedMap.total_insert_new _ _ newItem]
    simpa using hv.parts_eq
  · rw [OrderedMap.total_insert_new _ _ newItem]
    simpa using hv.argumentBytes_eq
  · rw [OrderedMap.size_insert_new _ newItem, Finset.card_insert_of_notMem newIndex,
      hv.items_size]
  · have hroom := hv.limits_eq ▸ room
    rw [OrderedMap.size_insert_new _ newItem]
    exact hroom
  · intro c
    simp only [Finset.mem_union, Option.mem_toFinset, Option.mem_def, hv.mem_calls,
      OrderedMap.get_insert]
    constructor
    · rintro (⟨id', s, hs, hc⟩ | hc)
      · refine ⟨id', s, ?_, hc⟩
        rw [if_neg, hs]
        rintro rfl
        rw [newItem] at hs
        cases hs
      · exact ⟨id, _, if_pos rfl, hc⟩
    · rintro ⟨id', s, hs, hc⟩
      split at hs
      · cases hs
        exact .inr hc
      · exact .inl ⟨id', s, hs, hc⟩
  · intro c id₁ id₂ s₁ s₂ h₁ h₂ hc₁ hc₂
    rw [OrderedMap.get_insert] at h₁ h₂
    split at h₁ <;> split at h₂
    · next heq₁ heq₂ => exact heq₁.symm.trans heq₂
    · cases h₁
      exact absurd hc₂ (hnot c hc₁ _ _ h₂)
    · cases h₂
      exact absurd hc₁ (hnot c hc₂ _ _ h₁)
    · exact hv.calls_unique c id₁ id₂ s₁ s₂ h₁ h₂ hc₁ hc₂
  · intro id' s hs hopen
    rw [OrderedMap.get_insert] at hs
    split at hs
    · cases hs
      cases hopen
    · exact hv.closed_parts id' s hs hopen
  · intro id' s hs hopen
    rw [OrderedMap.get_insert] at hs
    split at hs
    · cases hs
      cases hopen
    · exact hv.closed_json id' s hs hopen

theorem Consistent.step {limits : EventLimits} {v v' : EventValidator} {event : EventIR}
    (hv : Consistent parsesJson limits v) (h : Accepts parsesJson v event v') :
    Consistent parsesJson limits v' := by
  cases h with
  | started | textDelta | usageUpdated | finished =>
      exact { hv with }
  | itemStarted room newItem newIndex newCall => exact hv.add room newItem newIndex newCall
  | @partStarted item index kind state room found running newPart =>
      refine hv.replace found rfl ?_ ?_ rfl hv.argumentBytes_le ?_
      · rw [OrderedMap.size_insert_new _ newPart]
        omega
      · exact hv.limits_eq ▸ room
      · intro hclosed
        rw [running] at hclosed
        cases hclosed
  | @partFinished item index state part found running foundPart =>
      refine hv.replace found rfl ?_ hv.parts_le rfl hv.argumentBytes_le ?_
      · rw [OrderedMap.size_insert_old _ foundPart]
      · intro hclosed
        rw [running] at hclosed
        cases hclosed
  | @argumentsDelta item text state room found running =>
      have hle := hv.argumentBytes_le
      rw [hv.limits_eq] at room
      refine hv.replace found rfl rfl hv.parts_le ?_ (by omega) ?_
      · rw [String.utf8ByteSize_append]
        omega
      · intro hclosed
        rw [running] at hclosed
        cases hclosed
  | itemFinished found partsClosed parses =>
      exact hv.replace found rfl rfl hv.parts_le rfl hv.argumentBytes_le
        fun _ => ⟨partsClosed, parses⟩

section History

/-- The text of an event when it is an arguments delta of the item. -/
def deltaOf (item : ItemId) : EventIR → Option String
  | .argumentsDelta item' text => if item' = item then some text else none
  | _ => none

/-- The accepted argument texts of an item, joined in order. -/
def argumentText (item : ItemId) (events : List EventIR) : String :=
  String.join (events.filterMap (deltaOf item))

/-- What the validator holds of an item's arguments; nothing for an unknown one. -/
def held (v : EventValidator) (item : ItemId) : String :=
  ((v.items.get item).map (·.arguments)).getD ""

theorem argumentText_snoc (item : ItemId) (past : List EventIR) (event : EventIR) :
    argumentText item (past ++ [event]) =
      argumentText item past ++ (deltaOf item event).getD "" := by
  rw [argumentText, List.filterMap_append]
  cases h : deltaOf item event with
  | none => simp [argumentText, List.filterMap, h]
  | some text => simp [argumentText, List.filterMap, h]

theorem held_insert (v : EventValidator) (item item' : ItemId) (state : ItemState) :
    ((((v.items.insert item state).get item').map (·.arguments)).getD "") =
      if item = item' then state.arguments else v.held item' := by
  rw [OrderedMap.get_insert]
  split <;> rfl

theorem held_of_get {v : EventValidator} {item : ItemId} {state : ItemState}
    (h : v.items.get item = some state) : v.held item = state.arguments := by
  simp [held, h]

/-- An accepted event adds exactly its own delta to what is held of each item. -/
theorem held_step {v v' : EventValidator} {event : EventIR} (item : ItemId)
    (h : Accepts parsesJson v event v') :
    v'.held item = v.held item ++ (deltaOf item event).getD "" := by
  cases h with
  | started | textDelta | usageUpdated | finished => simp [held, deltaOf]
  | @itemStarted id index kind room newItem newIndex newCall =>
      rw [held, held_insert]
      split
      · next heq => simp [← heq, held, newItem, deltaOf]
      · simp [deltaOf]
  | partStarted room found running newPart =>
      rw [held, held_insert]
      split
      · next heq => simp [← heq, held_of_get found, deltaOf]
      · simp [deltaOf]
  | partFinished found running foundPart =>
      rw [held, held_insert]
      split
      · next heq => simp [← heq, held_of_get found, deltaOf]
      · simp [deltaOf]
  | argumentsDelta room found running =>
      rw [held, held_insert]
      split
      · next heq => simp [← heq, held_of_get found, deltaOf]
      · next hne => simp [deltaOf, hne]
  | itemFinished found partsClosed parses =>
      rw [held, held_insert]
      split
      · next heq => simp [← heq, held_of_get found, deltaOf]
      · simp [deltaOf]

theorem held_trace {limits : EventLimits} {v₀ v : EventValidator} {past : List EventIR}
    (hnew : new limits = .ok v₀) (h : Trace (apply parsesJson) v₀ past v) (item : ItemId) :
    v.held item = argumentText item past := by
  induction h with
  | nil =>
      simp only [new, bind_ok, pure_ok] at hnew
      obtain ⟨_, -, rfl⟩ := hnew
      rfl
  | snoc prior call ih =>
      rw [argumentText_snoc, held_step item (apply_accepts call).2, ih]

theorem arguments_ok {v : EventValidator} {item : ItemId} {text : String}
    (h : v.arguments item = .ok text) : text = v.held item := by
  simp only [arguments, bind_ok, okOr_ok, pure_ok] at h
  obtain ⟨state, hfound, _, -, rfl⟩ := h
  rw [held_of_get hfound]

end History

section UsageReports

/-- A reported count stays reported and does not decrease. -/
def CountLe (old new : Option Nat) : Prop := ∀ a, old = some a → ∃ b, new = some b ∧ a ≤ b

theorem countLe_refl (o : Option Nat) : CountLe o o := fun a h => ⟨a, h, le_rfl⟩

theorem countLe_trans {a b c : Option Nat} (hab : CountLe a b) (hbc : CountLe b c) :
    CountLe a c := by
  intro n hn
  obtain ⟨m, hm, hnm⟩ := hab n hn
  obtain ⟨k, hk, hmk⟩ := hbc m hm
  exact ⟨k, hk, hnm.trans hmk⟩

theorem countLe_update {old new : Option Nat} (h : decreases old new = false) :
    CountLe old (new.or old) := by
  rintro a rfl
  cases new with
  | none => exact ⟨a, rfl, le_rfl⟩
  | some b => exact ⟨b, rfl, by simpa [decreases] using h⟩

/-- Both reported counts, between two validators. -/
def UsageLe (v v' : EventValidator) : Prop :=
  CountLe (v.usage.bind (·.inputTokens)) (v'.usage.bind (·.inputTokens)) ∧
    CountLe (v.usage.bind (·.outputTokens)) (v'.usage.bind (·.outputTokens))

theorem usageLe_step {v v' : EventValidator} {event : EventIR}
    (h : Accepts parsesJson v event v') : UsageLe v v' := by
  cases h with
  | usageUpdated input output => exact ⟨countLe_update input, countLe_update output⟩
  | started | itemStarted | partStarted | textDelta | partFinished | argumentsDelta
  | itemFinished | finished => exact ⟨countLe_refl _, countLe_refl _⟩

theorem usageLe_run (v : EventValidator) (later : List EventIR) :
    UsageLe v (run (apply parsesJson) v later) :=
  (trace_run (atomic_apply parsesJson) v later).related
    (fun _ => ⟨countLe_refl _, countLe_refl _⟩)
    (fun _ _ _ h₁ h₂ => ⟨countLe_trans h₁.1 h₂.1, countLe_trans h₁.2 h₂.2⟩)
    (fun _ _ _ _ call => usageLe_step (apply_accepts call).2)

end UsageReports

/-- An accepted end of stream, and every event after it. -/
theorem finished_run {v v' : EventValidator} {status : Terminal} {reason : Option String}
    (h : apply parsesJson (.finished status reason) v = (.ok (), v')) :
    (∀ later, accepted (apply parsesJson) v' later = []) ∧
      (status = .completed → ∀ id state, v.items.get id = some state → state.isOpen = false) := by
  obtain ⟨-, haccepts⟩ := apply_accepts h
  cases haccepts with
  | finished settled =>
      exact ⟨accepted_of_rejecting (apply_of_terminal parsesJson (by simp)), settled⟩

/-- The validator over every stream of events: rejected events change nothing and
can be dropped, the bookkeeping is consistent, the arguments of an item are its
accepted deltas, the end of a stream is final, and usage only grows. -/
theorem eventValidator_run (parsesJson : String → Bool) (limits : EventLimits)
    (v₀ : EventValidator) (hnew : new limits = .ok v₀) (events : List EventIR) :
    (∀ event e v', apply parsesJson event (run (apply parsesJson) v₀ events) = (.error e, v') →
        v' = run (apply parsesJson) v₀ events) ∧
      (run (apply parsesJson) v₀ (accepted (apply parsesJson) v₀ events) =
          run (apply parsesJson) v₀ events ∧
        accepted (apply parsesJson) v₀ (accepted (apply parsesJson) v₀ events) =
          accepted (apply parsesJson) v₀ events) ∧
      Consistent parsesJson limits (run (apply parsesJson) v₀ events) ∧
      (∀ item text, (run (apply parsesJson) v₀ events).arguments item = .ok text →
        text = argumentText item (accepted (apply parsesJson) v₀ events)) ∧
      (∀ status reason v',
        apply parsesJson (.finished status reason) (run (apply parsesJson) v₀ events) =
          (.ok (), v') →
        (∀ later, accepted (apply parsesJson) v' later = []) ∧
        (status = .completed → ∀ id state,
          (run (apply parsesJson) v₀ events).items.get id = some state → state.isOpen = false)) ∧
      (∀ later, UsageLe (run (apply parsesJson) v₀ events)
        (run (apply parsesJson) (run (apply parsesJson) v₀ events) later)) := by
  have htrace := trace_run (atomic_apply parsesJson) v₀ events
  refine ⟨fun event e v' => atomic_apply parsesJson event _ e v',
    run_accepted (atomic_apply parsesJson) v₀ events, ?_, ?_, ?_, usageLe_run _⟩
  · exact htrace.invariant (consistent_new hnew)
      fun _ _ _ _ hv call => hv.step (apply_accepts call).2
  · intro item text htext
    rw [arguments_ok htext, held_trace hnew htrace]
  · intro status reason v' h
    exact finished_run h

/-- The hypothesis is met by the default limits. -/
theorem eventValidator_run_default :
    ∃ v₀, new {} = .ok v₀ ∧
      Consistent (fun text => text == "\x7b\x7d") {} (run (apply (fun text => text == "\x7b\x7d")) v₀
        [.started ⟨"resp_1", rfl⟩, .itemStarted ⟨"item_1", rfl⟩ 0
          (.tool ⟨none, "shell"⟩ ⟨"call_1", rfl⟩ .function),
         .argumentsDelta ⟨"item_1", rfl⟩ "\x7b\x7d", .itemFinished ⟨"item_1", rfl⟩]) :=
  ⟨_, rfl, (eventValidator_run _ {} _ rfl _).2.2.1⟩

end ResponseGateway.Ir.EventValidator
