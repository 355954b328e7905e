import ResponseGateway.Ir.Event

/-!
The event validator over whole streams. `Accepts` lists what each accepted event
requires and does; the counters, the identity sets and the closing conditions are
invariants of that relation. Rejected events are dealt with once, through the
atomicity of `apply`.
-/

namespace ResponseGateway.Ir.EventValidator
open Checked Method

variable (parsesJson : String → Bool)

/-- One accepted event: its guards and the whole of its effect. -/
inductive Accepts : EventValidator → EventIR → EventValidator → Prop where
  | started {v : EventValidator} {id : ResponseId} (fresh : v.started = false) :
      Accepts v (.started id) { v with started := true }
  | itemStarted {v : EventValidator} {id : ItemId} {index : OutputIndex} {kind : OutputKind}
      (room : v.items.size < v.limits.maxItems) (newItem : v.items.get id = none)
      (newIndex : index ∉ v.indices) (newCall : ∀ c, kind.callId? = some c → c ∉ v.calls) :
      Accepts v (.itemStarted id index kind) { v with
        calls := v.calls ∪ kind.callId?.toFinset
        indices := insert index v.indices
        items := v.items.insert id { kind, isOpen := true, parts := .empty, arguments := "" } }
  | partStarted {v : EventValidator} {item : ItemId} {index : ContentIndex} {kind : PartKind}
      {state : ItemState} (room : v.parts < v.limits.maxParts)
      (found : v.items.get item = some state) (running : state.isOpen = true)
      (newPart : state.parts.get index = none) :
      Accepts v (.partStarted item index kind) { v with
        items := v.items.insert item
          { state with parts := state.parts.insert index { isOpen := true } }
        parts := v.parts + 1 }
  | textDelta {v : EventValidator} {item : ItemId} {index : ContentIndex} {text : String} :
      Accepts v (.textDelta item index text) v
  | partFinished {v : EventValidator} {item : ItemId} {index : ContentIndex} {state : ItemState}
      {part : PartState} (found : v.items.get item = some state) (running : state.isOpen = true)
      (foundPart : state.parts.get index = some part) :
      Accepts v (.partFinished item index) { v with
        items := v.items.insert item
          { state with parts := state.parts.insert index { isOpen := false } } }
  | argumentsDelta {v : EventValidator} {item : ItemId} {text : String} {state : ItemState}
      (room : text.utf8ByteSize ≤ v.limits.maxArgumentBytes - v.argumentBytes)
      (found : v.items.get item = some state) (running : state.isOpen = true) :
      Accepts v (.argumentsDelta item text) { v with
        items := v.items.insert item { state with arguments := state.arguments ++ text }
        argumentBytes := v.argumentBytes + text.utf8ByteSize }
  | itemFinished {v : EventValidator} {item : ItemId} {state : ItemState}
      (found : v.items.get item = some state)
      (partsClosed : ∀ index part, state.parts.get index = some part → part.isOpen = false)
      (parses : state.kind.isFunction = true → parsesJson state.arguments = true) :
      Accepts v (.itemFinished item) { v with
        items := v.items.insert item { state with isOpen := false } }
  | usageUpdated {v : EventValidator} {usage : Usage}
      (input : decreases (v.usage.bind (·.inputTokens)) usage.inputTokens = false)
      (output : decreases (v.usage.bind (·.outputTokens)) usage.outputTokens = false) :
      Accepts v (.usageUpdated usage) { v with usage := some {
        inputTokens := usage.inputTokens.or (v.usage.bind (·.inputTokens))
        outputTokens := usage.outputTokens.or (v.usage.bind (·.outputTokens)) } }
  | finished {v : EventValidator} {status : Terminal} {reason : Option String}
      (settled : status = .completed → ∀ id state, v.items.get id = some state →
        state.isOpen = false) :
      Accepts v (.finished status reason)
        { v with terminal := some status, terminalReason := reason }

section Acceptance

variable {parsesJson} {v v' : EventValidator} {u : Unit}

theorem registerCall_accepts {kind : OutputKind} (h : registerCall kind v = (.ok u, v')) :
    (∀ c, kind.callId? = some c → c ∉ v.calls) ∧
      v' = { v with calls := v.calls ∪ kind.callId?.toFinset } := by
  cases kind with
  | message | reasoning =>
      simp only [registerCall, pure_accepts] at h
      simp [OutputKind.callId?, ← h.2]
  | tool tool callId kind =>
      simp only [registerCall, check_bind_accepts, read_bind_accepts, rejectIf_ok,
        decide_eq_false_iff_not, write_accepts] at h
      obtain ⟨_, -, _, hnew, rfl⟩ := h
      simp [OutputKind.callId?, hnew]

theorem itemStarted_accepts {id : ItemId} {index : OutputIndex} {kind : OutputKind}
    (h : itemStarted id index kind v = (.ok u, v')) :
    Accepts parsesJson v (.itemStarted id index kind) v' := by
  simp only [itemStarted, setItem, check_bind_accepts, read_bind_accepts, rejectIf_ok,
    Bool.or_eq_false_iff, decide_eq_false_iff_not, OrderedMap.contains_eq_false, not_le] at h
  obtain ⟨_, hroom, _, ⟨hitem, hindex⟩, h⟩ := h
  obtain ⟨_, v₁, hcall, h⟩ := bind_accepts.1 h
  obtain ⟨hnew, rfl⟩ := registerCall_accepts hcall
  simp only [write_bind_accepts, write_accepts] at h
  rw [← h]
  exact .itemStarted hroom hitem hindex hnew

theorem partStarted_accepts {item : ItemId} {index : ContentIndex} {kind : PartKind}
    (h : partStarted item index kind v = (.ok u, v')) :
    Accepts parsesJson v (.partStarted item index kind) v' := by
  simp only [partStarted, setItem, check_bind_accepts, read_bind_accepts, write_bind_accepts,
    write_accepts, rejectIf_ok, okOr_ok, Bool.or_eq_false_iff, Bool.not_eq_false',
    decide_eq_false_iff_not, OrderedMap.contains_eq_false, not_le] at h
  obtain ⟨_, hroom, state, hfound, _, ⟨hopen, -⟩, _, hpart, rfl⟩ := h
  exact .partStarted hroom hfound hopen hpart

theorem textDelta_accepts {item : ItemId} {index : ContentIndex} {text : String}
    (h : textDelta item index text v = (.ok u, v')) :
    Accepts parsesJson v (.textDelta item index text) v' := by
  simp only [textDelta, check_bind_accepts, read_bind_accepts, check_accepts] at h
  obtain ⟨_, -, state, -, -, rfl⟩ := h
  exact .textDelta

theorem partFinished_accepts {item : ItemId} {index : ContentIndex}
    (h : partFinished item index v = (.ok u, v')) :
    Accepts parsesJson v (.partFinished item index) v' := by
  simp only [partFinished, setItem, check_bind_accepts, read_bind_accepts, write_accepts,
    rejectIf_ok, okOr_ok, Bool.or_eq_false_iff, Bool.not_eq_false'] at h
  obtain ⟨state, hfound, part, hpart, _, ⟨hopen, -⟩, rfl⟩ := h
  exact .partFinished hfound hopen hpart

theorem argumentsDelta_accepts {item : ItemId} {text : String}
    (h : argumentsDelta item text v = (.ok u, v')) :
    Accepts parsesJson v (.argumentsDelta item text) v' := by
  simp only [argumentsDelta, setItem, check_bind_accepts, read_bind_accepts, write_bind_accepts,
    write_accepts, rejectIf_ok, okOr_ok, Bool.or_eq_false_iff, Bool.not_eq_false',
    decide_eq_false_iff_not, not_lt] at h
  obtain ⟨_, ⟨-, hroom⟩, state, hfound, _, ⟨hopen, -⟩, rfl⟩ := h
  exact .argumentsDelta hroom hfound hopen

theorem itemFinished_accepts {item : ItemId} (h : itemFinished parsesJson item v = (.ok u, v')) :
    Accepts parsesJson v (.itemFinished item) v' := by
  simp only [itemFinished, setItem, check_bind_accepts, read_bind_accepts, write_accepts,
    rejectIf_ok, okOr_ok, Bool.or_eq_false_iff, Bool.and_eq_false_imp, Bool.not_eq_false',
    OrderedMap.any_values_eq_false] at h
  obtain ⟨state, hfound, _, ⟨-, hclosed⟩, _, hparses, rfl⟩ := h
  exact .itemFinished hfound hclosed hparses

theorem usageUpdated_accepts {usage : Usage} (h : usageUpdated usage v = (.ok u, v')) :
    Accepts parsesJson v (.usageUpdated usage) v' := by
  simp only [usageUpdated, check_bind_accepts, read_bind_accepts, write_accepts,
    rejectIf_ok] at h
  obtain ⟨_, hinput, _, houtput, rfl⟩ := h
  exact .usageUpdated hinput houtput

theorem finished_accepts {status : Terminal} {reason : Option String}
    (h : finished status reason v = (.ok u, v')) :
    Accepts parsesJson v (.finished status reason) v' := by
  simp only [finished, check_bind_accepts, read_bind_accepts, write_bind_accepts, write_accepts,
    rejectIf_ok, Bool.and_eq_false_imp, decide_eq_true_eq, OrderedMap.any_values_eq_false] at h
  obtain ⟨_, -, _, hsettled, rfl⟩ := h
  exact .finished hsettled

theorem afterStart_accepts {branch : Step} (h : afterStart branch v = (.ok u, v')) :
    branch v = (.ok u, v') := by
  simp only [afterStart, check_bind_accepts, read_bind_accepts] at h
  obtain ⟨_, -, h⟩ := h
  exact h

/-- The guards common to all events, and the event's own branch. -/
theorem apply_accepts {event : EventIR} (h : apply parsesJson event v = (.ok u, v')) :
    v.terminal = none ∧ Accepts parsesJson v event v' := by
  simp only [apply, check_bind_accepts, read_bind_accepts, rejectIf_ok] at h
  obtain ⟨_, hterminal, h⟩ := h
  refine ⟨by simpa using hterminal, ?_⟩
  cases event with
  | started id =>
      simp only [dispatch, check_bind_accepts, read_bind_accepts, rejectIf_ok, write_accepts] at h
      obtain ⟨_, hfresh, rfl⟩ := h
      exact .started hfresh
  | itemStarted id index kind => exact itemStarted_accepts (afterStart_accepts h)
  | partStarted item index kind => exact partStarted_accepts (afterStart_accepts h)
  | textDelta item index text => exact textDelta_accepts (afterStart_accepts h)
  | partFinished item index => exact partFinished_accepts (afterStart_accepts h)
  | argumentsDelta item text => exact argumentsDelta_accepts (afterStart_accepts h)
  | itemFinished item => exact itemFinished_accepts (afterStart_accepts h)
  | usageUpdated usage => exact usageUpdated_accepts (afterStart_accepts h)
  | finished status reason => exact finished_accepts (afterStart_accepts h)

end Acceptance

section Rejection

theorem atomic_registerCall (kind : OutputKind) : Atomic (registerCall kind) := by
  cases kind with
  | message | reasoning => exact (succeeds_pure _).atomic
  | tool tool callId kind =>
      refine (keeps_check _).atomic_bind fun _ => keeps_read.atomic_bind fun _ =>
        (keeps_check _).atomic_bind fun _ => (succeeds_write _).atomic

theorem succeeds_setItem (item : ItemId) (state : ItemState) : Succeeds (setItem item state) :=
  succeeds_write _

theorem atomic_itemStarted (id : ItemId) (index : OutputIndex) (kind : OutputKind) :
    Atomic (itemStarted id index kind) := by
  refine keeps_read.atomic_bind fun _ => (keeps_check _).atomic_bind fun _ =>
    (keeps_check _).atomic_bind fun _ => ?_
  refine (atomic_registerCall kind).bind_succeeds fun _ => ?_
  exact succeeds_bind (succeeds_write _) fun _ => succeeds_setItem _ _

theorem atomic_partStarted (item : ItemId) (index : ContentIndex) (kind : PartKind) :
    Atomic (partStarted item index kind) := by
  refine keeps_read.atomic_bind fun _ => (keeps_check _).atomic_bind fun _ =>
    (keeps_check _).atomic_bind fun _ => (keeps_check _).atomic_bind fun _ =>
    (keeps_check _).atomic_bind fun _ => ?_
  exact (succeeds_bind (succeeds_setItem _ _) fun _ => succeeds_write _).atomic

theorem atomic_textDelta (item : ItemId) (index : ContentIndex) (text : String) :
    Atomic (textDelta item index text) :=
  keeps_read.atomic_bind fun _ => (keeps_check _).atomic_bind fun _ =>
    (keeps_check _).atomic_bind fun _ => (keeps_check _).atomic

theorem atomic_partFinished (item : ItemId) (index : ContentIndex) :
    Atomic (partFinished item index) :=
  keeps_read.atomic_bind fun _ => (keeps_check _).atomic_bind fun _ =>
    (keeps_check _).atomic_bind fun _ => (keeps_check _).atomic_bind fun _ =>
    (succeeds_setItem _ _).atomic

theorem atomic_argumentsDelta (item : ItemId) (text : String) :
    Atomic (argumentsDelta item text) := by
  refine keeps_read.atomic_bind fun _ => (keeps_check _).atomic_bind fun _ =>
    (keeps_check _).atomic_bind fun _ => (keeps_check _).atomic_bind fun _ => ?_
  exact (succeeds_bind (succeeds_setItem _ _) fun _ => succeeds_write _).atomic

theorem atomic_itemFinished (item : ItemId) : Atomic (itemFinished parsesJson item) :=
  keeps_read.atomic_bind fun _ => (keeps_check _).atomic_bind fun _ =>
    (keeps_check _).atomic_bind fun _ => (keeps_check _).atomic_bind fun _ =>
    (succeeds_setItem _ _).atomic

theorem atomic_usageUpdated (usage : Usage) : Atomic (usageUpdated usage) :=
  keeps_read.atomic_bind fun _ => (keeps_check _).atomic_bind fun _ =>
    (keeps_check _).atomic_bind fun _ => (succeeds_write _).atomic

theorem atomic_finished (status : Terminal) (reason : Option String) :
    Atomic (finished status reason) :=
  keeps_read.atomic_bind fun _ => (keeps_check _).atomic_bind fun _ =>
    (keeps_check _).atomic_bind fun _ =>
    (succeeds_bind (succeeds_write _) fun _ => succeeds_write _).atomic

theorem atomic_afterStart {branch : Step} (h : Atomic branch) : Atomic (afterStart branch) :=
  keeps_read.atomic_bind fun _ => (keeps_check _).atomic_bind fun _ => h

theorem atomic_dispatch (event : EventIR) : Atomic (dispatch parsesJson event) := by
  cases event with
  | started id =>
      exact keeps_read.atomic_bind fun _ => (keeps_check _).atomic_bind fun _ =>
        (succeeds_write _).atomic
  | itemStarted id index kind => exact atomic_afterStart (atomic_itemStarted id index kind)
  | partStarted item index kind => exact atomic_afterStart (atomic_partStarted item index kind)
  | textDelta item index text => exact atomic_afterStart (atomic_textDelta item index text)
  | partFinished item index => exact atomic_afterStart (atomic_partFinished item index)
  | argumentsDelta item text => exact atomic_afterStart (atomic_argumentsDelta item text)
  | itemFinished item => exact atomic_afterStart (atomic_itemFinished parsesJson item)
  | usageUpdated usage => exact atomic_afterStart (atomic_usageUpdated usage)
  | finished status reason => exact atomic_afterStart (atomic_finished status reason)

theorem atomic_apply (event : EventIR) : Atomic (apply parsesJson event) :=
  keeps_read.atomic_bind fun _ => (keeps_check _).atomic_bind fun _ =>
    atomic_dispatch parsesJson event

/-- A stream that has ended rejects every further event. -/
theorem apply_of_terminal {v : EventValidator} (h : v.terminal ≠ none) (event : EventIR) :
    ∃ e, apply parsesJson event v = (.error e, v) := by
  obtain ⟨status, hstatus⟩ := Option.ne_none_iff_exists'.1 h
  refine ⟨.invalidEventOrder, ?_⟩
  rw [apply, read_bind, hstatus]
  rfl

end Rejection

end ResponseGateway.Ir.EventValidator
