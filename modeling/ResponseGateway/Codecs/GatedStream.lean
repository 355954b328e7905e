import ResponseGateway.Adapters.Renumbering
import ResponseGateway.Codecs.Execution

/-!
The stateless stream of an arbitrary codec. The verifier decides which events there are;
the stream publishes them at once until the first tool is announced, holds everything from
then on, and publishes what it held, sorted by item, with the completion.
-/

namespace ResponseGateway.Codecs
open Checked Ir Adapters Method
open Adapters.ResponsesStream (Quiet Whole ItemEvents isToolRelease Emitting emitting_new)

namespace CodecStream

variable {texts : Texts} {v v' : ResponsesStream} {s s' : CodecStream}
  {events checked emitted : List Json}

section Verifying

/-- An event of a codec as the verifier reads it. -/
def sseOf (event : Json) : SseEvent := ⟨((event.fieldStr "type").getD "").toList, event.render⟩

/-- The events that the verifier emits for the events of a codec. -/
def verified (texts : Texts) (v : ResponsesStream) (events : List Json) : List Json :=
  (returned (ResponsesStream.event texts) v (events.map sseOf)).flatten

/-- The verifier after the events of a codec. -/
def verifierAfter (texts : Texts) (v : ResponsesStream) (events : List Json) : ResponsesStream :=
  Method.run (ResponsesStream.event texts) v (events.map sseOf)

theorem verified_append (events more : List Json) : verified texts v (events ++ more) =
    verified texts v events ++ verified texts (verifierAfter texts v events) more := by
  rw [verified, List.map_append, returned_append, List.flatten_append, ← verified,
    ← verifierAfter, ← verified]

theorem verifierAfter_append (events more : List Json) : verifierAfter texts v (events ++ more) =
    verifierAfter texts (verifierAfter texts v events) more := by
  rw [verifierAfter, List.map_append, run_append, ← verifierAfter, ← verifierAfter]

theorem checkEvents_accepts (h : checkEvents texts events v = (.ok checked, v')) :
    verifierAfter texts v events = v' ∧ verified texts v events = checked ∧
      (v.invalid = false → v'.invalid = false) := by
  induction events generalizing v checked with
  | nil =>
      rw [checkEvents, pure_accepts] at h
      obtain ⟨rfl, rfl⟩ := h
      exact ⟨rfl, rfl, id⟩
  | cons event rest ih =>
      rw [checkEvents] at h
      simp only [ResponsesStream.ensure_bind_accepts, okOr_ok] at h
      obtain ⟨type, htype, h⟩ := h
      obtain ⟨batch, v₁, hevent, h⟩ := bind_accepts.1 h
      obtain ⟨more, v₂, hmore, h⟩ := bind_accepts.1 h
      rw [pure_accepts] at h
      obtain ⟨rfl, rfl⟩ := h
      have hsse : sseOf event = ⟨type.toList, event.render⟩ := by rw [sseOf, htype]; rfl
      rw [← hsse] at hevent
      obtain ⟨hafter, hverified, hvalid⟩ := ih hmore
      obtain ⟨hrun, hreturned⟩ := run_accepts hevent (rest.map sseOf)
      refine ⟨?_, ?_, fun _ => hvalid (ResponsesStream.event_valid hevent)⟩
      · rw [verifierAfter, List.map_cons, hrun, ← verifierAfter, hafter]
      · rw [verified, List.map_cons, hreturned, List.flatten_cons, ← verified, hverified]

end Verifying

section Gating

/-- The events that are published before anything is held. -/
def direct (emitted : List Json) : List Json := emitted.takeWhile (!isToolAdded ·)

/-- The events from the first announced tool on. -/
def gated (emitted : List Json) : List Json := emitted.dropWhile (!isToolAdded ·)

theorem direct_append_gated (emitted : List Json) : direct emitted ++ gated emitted = emitted :=
  List.takeWhile_append_dropWhile

theorem direct_gated_open (h : emitted.any isToolAdded = false)
    (more : List Json) : direct (emitted ++ more) = emitted ++ direct more ∧
      gated (emitted ++ more) = gated more := by
  have hall : ∀ e ∈ emitted, (!isToolAdded e) = true := by
    intro e he
    rw [List.any_eq_false] at h
    rw [Bool.not_eq_true', ← Bool.not_eq_true]
    exact h e he
  exact ⟨List.takeWhile_append_of_pos hall, List.dropWhile_append_of_pos hall⟩

theorem direct_gated_closed (h : emitted.any isToolAdded = true)
    (more : List Json) : direct (emitted ++ more) = direct emitted ∧
      gated (emitted ++ more) = gated emitted ++ more := by
  induction emitted with
  | nil => cases h
  | cons event rest ih =>
      rw [List.any_cons] at h
      rw [direct, gated, direct, gated, List.cons_append, List.takeWhile_cons, List.dropWhile_cons,
        List.takeWhile_cons, List.dropWhile_cons]
      cases hadded : isToolAdded event with
      | true => exact ⟨rfl, rfl⟩
      | false =>
          rw [hadded, Bool.false_or] at h
          obtain ⟨hdirect, hgated⟩ := ih h
          exact ⟨congrArg (event :: ·) hdirect, hgated⟩

theorem gate_held {event : Json} (published : List Json)
    (h : (s.gating || isToolAdded event) = true) : gate (published, s) event =
      (published, { s with gating := true, held := s.held ++ [event] }) := by
  rw [gate]
  cases hgating : s.gating with
  | true =>
      cases isToolAdded event <;> simp only [hgating, Bool.false_eq_true, if_true, if_false]
  | false =>
      rw [hgating, Bool.false_or] at h
      simp only [h, if_true]

theorem gate_published {event : Json} (published : List Json) (hgating : s.gating = false)
    (h : isToolAdded event = false) : gate (published, s) event = (published ++ [event], s) := by
  rw [gate]
  simp only [h, hgating, Bool.false_eq_true, if_false]

/-- The loop once something is held. -/
theorem gate_foldl_closed (checked published : List Json) (hgating : s.gating = true) :
    checked.foldl gate (published, s) = (published, { s with held := s.held ++ checked }) := by
  induction checked generalizing s with
  | nil => rw [List.foldl_nil, List.append_nil]
  | cons event rest ih =>
      have hheld : (s.gating || isToolAdded event) = true := by rw [hgating, Bool.true_or]
      rw [List.foldl_cons, gate_held published hheld, ih rfl]
      simp only [List.append_assoc, List.singleton_append, hgating]

/-- The loop while nothing is held. -/
theorem gate_foldl_open (checked published : List Json) (hgating : s.gating = false) :
    checked.foldl gate (published, s) =
      (published ++ direct checked,
        { s with
          gating := checked.any isToolAdded
          held := s.held ++ gated checked }) := by
  induction checked generalizing published with
  | nil =>
      rw [List.foldl_nil, direct, gated, List.takeWhile_nil, List.dropWhile_nil, List.append_nil,
        List.append_nil, List.any_nil, ← hgating]
  | cons event rest ih =>
      rw [List.foldl_cons, direct, gated, List.takeWhile_cons, List.dropWhile_cons, List.any_cons]
      cases hadded : isToolAdded event with
      | true =>
          have hheld : (s.gating || isToolAdded event) = true := by rw [hadded, Bool.or_true]
          rw [gate_held published hheld, gate_foldl_closed rest published rfl]
          simp only [List.append_assoc, List.singleton_append, Bool.not_true, Bool.false_eq_true,
            if_false, List.append_nil, Bool.true_or]
      | false =>
          rw [gate_published published hgating hadded, ih]
          simp only [List.append_assoc, List.singleton_append, Bool.not_false, if_true,
            Bool.false_or, direct, gated]

/-- The loop, in terms of everything that was checked. -/
theorem gate_checked (hgating : s.gating = emitted.any isToolAdded) (hheld : s.held = gated emitted)
    (checked : List Json) : ∃ published,
      checked.foldl gate ([], s) = (published,
        { s with
          gating := (emitted ++ checked).any isToolAdded
          held := gated (emitted ++ checked) }) ∧
      direct (emitted ++ checked) = direct emitted ++ published ∧
      (emitted.any isToolAdded = true → published = []) := by
  cases hany : emitted.any isToolAdded with
  | true =>
      obtain ⟨hdirect, hgated⟩ := direct_gated_closed hany checked
      refine ⟨[], ?_, by rw [hdirect, List.append_nil], fun _ => rfl⟩
      rw [hany] at hgating
      rw [gate_foldl_closed checked [] hgating, hgated, hheld, List.any_append, hany, Bool.true_or,
        ← hgating]
  | false =>
      obtain ⟨hdirect, hgated⟩ := direct_gated_open hany checked
      have hnone := (direct_gated_open hany []).2
      have hall := (direct_gated_open hany []).1
      rw [List.append_nil] at hnone hall
      rw [hany] at hgating
      refine ⟨direct checked, ?_, ?_, fun h => absurd h Bool.false_ne_true⟩
      · rw [gate_foldl_open checked [] hgating, hgated, hheld, hnone, List.any_append, hany]
        simp only [Bool.false_or, List.nil_append, gated, List.dropWhile_nil]
      · rw [hdirect, hall, show direct [] = [] from rfl, List.append_nil]

theorem release_complete (h : s.complete = true) (published : List Json) : release published s =
    (published ++ StableSort.sortByKey indexOf s.held, { s with held := [] }) := by
  rw [release, h, if_pos rfl]

theorem release_ongoing (h : s.complete = false) (published : List Json) :
    release published s = (published, s) := by
  rw [release, h, if_neg Bool.false_ne_true]

theorem number_ok {n : Nat} {events' : List Json} (h : number n events = .ok events') :
    Renumbered n events events' := by
  induction events generalizing n events' with
  | nil =>
      cases h
      exact .nil
  | cons event rest ih =>
      simp only [number, bind_ok, pure_ok] at h
      obtain ⟨event', hset, rest', hrest, rfl⟩ := h
      exact .cons (fun key => Json.field_setAt hset key) (ih hrest)

end Gating

section Reordering

variable {order published output : List Json} {response : Json}

/-- The order in which the events of a whole stream are published. -/
def released (emitted : List Json) : List Json :=
  direct emitted ++ StableSort.sortByKey indexOf (gated emitted)

theorem released_perm (emitted : List Json) : (released emitted).Perm emitted := by
  have hperm := (StableSort.perm_sortByKey indexOf (gated emitted)).append_left (direct emitted)
  rwa [direct_append_gated] at hperm

/-- Events that are sorted alike keep their order. -/
theorem released_filter {p : Json → Bool} {k : Nat} (h : ∀ e, p e = true → indexOf e = k)
    (emitted : List Json) : (released emitted).filter p = emitted.filter p := by
  rw [released, List.filter_append, StableSort.filter_sortByKey h, ← List.filter_append,
    direct_append_gated]

/-- Events of one index are sorted alike. -/
theorem indexOf_of_atIndex {event : Json} {n : Nat} (h : atIndex event n = true) :
    indexOf event = ((Json.number (.ofNat n)).asU64).getD (2 ^ 64 - 1) := by
  rw [indexOf, Json.lookup, of_decide_eq_true h, Option.getD_some]

theorem released_atIndex (emitted : List Json) (n : Nat) :
    (released emitted).filter (atIndex · n) = emitted.filter (atIndex · n) :=
  released_filter (fun _ => indexOf_of_atIndex) emitted

/-- The events of an item do not end the stream. -/
theorem itemEvents_not_ending {n : Nat} {item event : Json} {events : List Json}
    (h : ItemEvents n item events) (hmem : event ∈ events) : isEnding event = false := by
  obtain ⟨id, added, middle, done, rfl, -, hadded, -, hmiddle, hdone, -⟩ := h.content
  simp only [List.mem_cons, List.mem_append, List.not_mem_nil, or_false] at hmem
  rcases hmem with rfl | hmem | rfl
  · exact not_ending (by decide) (of_decide_eq_true hadded)
  · obtain ⟨type, htypes, htype⟩ := (hmiddle event hmem).type
    exact not_ending (List.mem_append_left _ htypes) htype
  · exact not_ending (by decide) (of_decide_eq_true hdone)

/-- The terminal event belongs to no item. -/
theorem terminal_index {last : Json} (h : Whole emitted response output) (hmem : last ∈ emitted)
    (hending : isEnding last = true) : indexOf last = 2 ^ 64 - 1 := by
  rw [indexOf]
  cases hindex : (last.lookup "output_index").asU64 with
  | none => rfl
  | some n =>
      exfalso
      have hat : atIndex last n = true := by
        rw [atIndex_of (field_of_asU64 hindex), decide_eq_true rfl]
      have hfilter : last ∈ emitted.filter (atIndex · n) := List.mem_filter.2 ⟨hmem, hat⟩
      cases hitem : output[n]? with
      | none =>
          rw [h.nothing n (List.getElem?_eq_none_iff.1 hitem)] at hfilter
          cases hfilter
      | some item =>
          rw [itemEvents_not_ending (h.item n item hitem) hfilter] at hending
          cases hending

theorem indexOf_le (event : Json) : indexOf event ≤ 2 ^ 64 - 1 := by
  rw [indexOf]
  cases hindex : (event.lookup "output_index").asU64 with
  | none => exact Nat.le_refl _
  | some n => exact Nat.le_of_lt_succ (Json.asU64_lt hindex)

/-- What is terminal for the verifier is published last. -/
theorem released_last (before : List Json) {last : Json} (hlast : indexOf last = 2 ^ 64 - 1) :
    ∃ before', released (before ++ [last]) = before' ++ [last] := by
  have hparts := direct_append_gated (before ++ [last])
  rcases List.eq_nil_or_concat (gated (before ++ [last])) with hnone | ⟨rest, event, hsome⟩
  · rw [hnone, List.append_nil] at hparts
    refine ⟨before, ?_⟩
    rw [released, hnone, hparts]
    exact List.append_nil _
  · rw [List.concat_eq_append] at hsome
    rw [hsome, ← List.append_assoc] at hparts
    obtain ⟨-, hevent⟩ := List.append_inj' hparts rfl
    rw [List.cons.injEq] at hevent
    refine ⟨direct (before ++ [last]) ++ StableSort.sortByKey indexOf rest, ?_⟩
    rw [released, hsome, StableSort.sortByKey_last, hevent.1, List.append_assoc]
    intro e _
    rw [hevent.1, hlast]
    exact indexOf_le e

/-- What is whole stays whole in the order of publication. -/
theorem whole_released (h : Whole emitted response output) :
    Whole (released emitted) response output := by
  obtain ⟨before, last, status, rfl, hstatus, htype, hresponse, hcarried, hquiet⟩ := h.terminal
  have hending : isEnding last = true := by
    rw [isEnding, htype, Option.any_some]
    revert hstatus
    generalize status = status
    simp only [List.mem_cons, List.not_mem_nil, or_false]
    rintro (rfl | rfl | rfl) <;> decide
  have hindex := terminal_index h (List.mem_append_right _ List.mem_cons_self) hending
  obtain ⟨before', horder⟩ := released_last before hindex
  have hperm := released_perm (before ++ [last])
  refine ⟨h.hasOutput, ⟨before', last, status, horder, hstatus, htype, hresponse, hcarried, ?_⟩,
    fun n hn => ?_, fun n item hitem => ?_, fun n hn => ?_⟩
  · intro e he
    rw [horder] at hperm
    exact hquiet e (((List.perm_append_right_iff _).1 hperm).mem_iff.1 he)
  · obtain ⟨hadded, hdone⟩ := h.once n hn
    refine ⟨?_, ?_⟩
    · rwa [released_filter fun e he => indexOf_of_atIndex (Bool.and_elim_right he)]
    · rwa [released_filter fun e he => indexOf_of_atIndex (Bool.and_elim_right he)]
  · rw [released_atIndex]
    exact h.item n item hitem
  · rw [released_atIndex]
    exact h.nothing n hn

/-- What is whole stays whole under other numbers. -/
theorem whole_same (h : Whole order response output) (hsame : List.Forall₂ Same order published) :
    Whole published response output := by
  obtain ⟨before, last, status, rfl, hstatus, htype, hresponse, hcarried, hquiet⟩ := h.terminal
  have hindex : ∀ n e e', Same e e' → atIndex e' n = atIndex e n := fun n e e' he => he.atIndex n
  obtain ⟨before', ending, hbefore, hending, rfl⟩ := same_append hsame
  cases hending with
  | @cons _ last' _ _ hlast hnone =>
      cases hnone
      refine ⟨h.hasOutput, ⟨before', last', status, rfl, hstatus, hlast.typeOf.trans htype, hresponse,
        hlast.response.trans hcarried, ?_⟩, fun n hn => ?_, fun n item hitem => ?_, fun n hn => ?_⟩
      · exact forall_same (fun e e' he hnot => by rwa [isEnding, he.typeOf]) hbefore hquiet
      · obtain ⟨⟨added, hadded⟩, done, hdone⟩ := h.once n hn
        refine ⟨?_, ?_⟩
        · exact single_same (hadded ▸ filter_same (fun e e' he => by
            rw [he.isAdded, he.atIndex]) hsame)
        · exact single_same (hdone ▸ filter_same (fun e e' he => by
            rw [he.isDone, he.atIndex]) hsame)
      · exact (h.item n item hitem).same (filter_same (hindex n) hsame)
      · have hfilter := filter_same (hindex n) hsame
        rw [h.nothing n hn] at hfilter
        exact List.forall₂_nil_left_iff.1 hfilter

end Reordering

/-- The events in a codec's answer. -/
def Exchange.given (x : Exchange) : List Json :=
  match x.answer with
  | .ok (.progress events _ _) => events
  | _ => []

section Runs

variable {x : Exchange} {batch : List Json} {batches : List (List Json)}
  {v₀ : ResponsesStream} {s₀ : CodecStream}

/-- A run of accepted events: what the codec gave, and the batches that were published. -/
inductive Run (texts : Texts) (s₀ : CodecStream) :
    List Json → List (List Json) → CodecStream → Prop where
  | start : Run texts s₀ [] [] s₀
  | accept {given : List Json} {batches : List (List Json)} {s s' : CodecStream} {x : Exchange}
      {batch : List Json} (run : Run texts s₀ given batches s)
      (accepted : event texts x s = .ok (batch, s')) :
      Run texts s₀ (given ++ Exchange.given x) (batches ++ [batch]) s'

/-- What an event leaves alone before the codec is asked. -/
structure Kept (s s' : CodecStream) : Prop where
  managed : s'.managed = s.managed
  verifier : s'.verifier = s.verifier
  held : s'.held = s.held
  gating : s'.gating = s.gating
  sequence : s'.sequence = s.sequence

theorem observeEvent_kept {sse : SseEvent} (h : observeEvent sse s = .ok s') : Kept s s' := by
  rw [observeEvent] at h
  cases hraw : decode sse.data with
  | error e =>
      simp only [hraw, pure_ok] at h
      subst h
      exact ⟨rfl, rfl, rfl, rfl, rfl⟩
  | ok raw =>
      simp only [hraw, observe, bind_ok, pure_ok, rejectIf_ok] at h
      obtain ⟨_, -, _, -, rfl⟩ := h
      exact ⟨rfl, rfl, rfl, rfl, rfl⟩

/-- A stream is complete exactly when its verifier is. -/
theorem checkEnd_ended {last : Answer} (h : checkEnd checked v last s = .ok ()) :
    s.complete = v.isComplete := by
  rw [checkEnd] at h
  cases hcomplete : s.complete with
  | true =>
      simp only [hcomplete, if_true, bind_ok, lift_ok, ResponsesStream.finish, rejectIf_ok] at h
      obtain ⟨_, hfinish, -⟩ := h
      rw [Bool.not_eq_false'] at hfinish
      exact hfinish.symm
  | false =>
      simp only [hcomplete, Bool.false_eq_true, if_false, lift_ok, rejectIf_ok] at h
      exact h.symm

/-- What a stream publishes and keeps, after what its verifier emitted. -/
structure Gates (s : CodecStream) (emitted published : List Json) : Prop where
  sequence : s.sequence = published.length
  ongoing : s.complete = false → s.gating = emitted.any isToolAdded ∧ s.held = gated emitted ∧
    Renumbered 0 (direct emitted) published
  completed : s.complete = true → Renumbered 0 (released emitted) published

theorem Gates.accept {published : List Json} {last : Answer} {accounting : Option Accounting}
    (hsequence : s.sequence = published.length)
    (hgoing : s.gating = emitted.any isToolAdded ∧ s.held = gated emitted ∧
      Renumbered 0 (direct emitted) published) (hverifier : s.verifier = some v)
    (haccept : statelessEvent texts events accounting last s = .ok (batch, s')) :
    ∃ v' checked, checkEvents texts events v = (.ok checked, v') ∧
      checkEnd checked v' last { s with verifier := some v' } = .ok () ∧
      s'.managed = s.managed ∧ s'.complete = s.complete ∧ s'.verifier = some v' ∧
      Gates s' (emitted ++ checked) (published ++ batch) ∧
      (emitted.any isToolAdded = true → s.complete = false → batch = []) := by
  obtain ⟨hgating, hheld, hrenumbered⟩ := hgoing
  simp only [statelessEvent, bind_ok, rejectIf_ok, lift_ok, okOr_ok] at haccept
  obtain ⟨_, -, verifier, hsome, haccept⟩ := haccept
  rw [hverifier, Option.some.injEq] at hsome
  subst hsome
  obtain ⟨reply, v', hcheck⟩ : ∃ reply v', checkEvents texts events v = (reply, v') := ⟨_, _, rfl⟩
  rw [hcheck] at haccept
  cases reply with
  | error fault => cases haccept
  | ok checked =>
      obtain ⟨new, hfold, hdirect, hclosed⟩ :=
        gate_checked (s := { s with verifier := some v' }) hgating hheld checked
      simp only [hfold, bind_ok, rejectIf_ok, pure_ok, Prod.mk.injEq] at haccept
      generalize hs₁ : ({ s with
        verifier := some v'
        gating := (emitted ++ checked).any isToolAdded
        held := gated (emitted ++ checked) } : CodecStream) = s₁ at haccept
      obtain ⟨_, hend, _, -, numbered, hnumber, rfl, rfl⟩ := haccept
      have hbatch := number_ok hnumber
      have hlength : s₁.sequence = published.length := by rw [← hs₁, ← hsequence]
      have hnext : s₁.sequence = 0 + (direct emitted).length := by
        rw [hlength, hrenumbered.length, Nat.zero_add]
      refine ⟨v', checked, hcheck, hend, ?_⟩
      cases hcomplete : s.complete with
      | true =>
          have hrelease := release_complete (s := s₁) (hs₁ ▸ hcomplete) new
          rw [hrelease] at hbatch ⊢
          rw [hnext] at hbatch
          subst hs₁
          refine ⟨rfl, hcomplete, rfl, ⟨?_, ?_, fun _ => ?_⟩, fun _ h => by cases h⟩
          · rw [List.length_append, ← hlength]
          · intro hfalse
            rw [hcomplete] at hfalse
            cases hfalse
          · rw [released, hdirect, List.append_assoc]
            exact hrenumbered.append hbatch
      | false =>
          have hrelease := release_ongoing (s := s₁) (hs₁ ▸ hcomplete) new
          rw [hrelease] at hbatch ⊢
          rw [hnext] at hbatch
          subst hs₁
          refine ⟨rfl, hcomplete, rfl, ⟨?_, fun _ => ⟨rfl, rfl, ?_⟩, ?_⟩, fun hany _ => ?_⟩
          · rw [List.length_append, ← hlength]
          · rw [hdirect]
            exact hrenumbered.append hbatch
          · intro htrue
            rw [hcomplete] at htrue
            cases htrue
          · rw [hclosed hany] at hbatch
            exact List.length_eq_zero_iff.1 hbatch.length

/-- A stateless stream, after what its codec gave and what it published. -/
structure Gating (texts : Texts) (v₀ : ResponsesStream) (given : List Json)
    (batches : List (List Json)) (s : CodecStream) : Prop where
  managed : s.managed = false
  verifier : s.verifier = some (verifierAfter texts v₀ given)
  valid : (verifierAfter texts v₀ given).invalid = false
  ended : s.complete = (verifierAfter texts v₀ given).isComplete
  gates : Gates s (verified texts v₀ given) batches.flatten

theorem Gating.accept {given : List Json} (h : Gating texts v₀ given batches s)
    (haccept : event texts x s = .ok (batch, s')) :
    Gating texts v₀ (given ++ Exchange.given x) (batches ++ [batch]) s' ∧
      ((verified texts v₀ given).any isToolAdded = true → s'.complete = false → batch = []) := by
  simp only [event, bind_ok, rejectIf_ok, lift_ok] at haccept
  obtain ⟨_, hgoing, observed, hobserve, answer, hanswer, haccept⟩ := haccept
  have hkept := observeEvent_kept hobserve
  cases answer with
  | progress events complete accounting =>
      have hgiven : Exchange.given x = events := by rw [Exchange.given, hanswer]
      simp only [bind_ok, rejectIf_ok] at haccept
      obtain ⟨_, -, haccept⟩ := haccept
      obtain ⟨hgating, hheld, hrenumbered⟩ := h.gates.ongoing hgoing
      have hstateless : ¬ observed.managed = true := by
        rw [hkept.managed, h.managed]
        exact Bool.false_ne_true
      rw [if_neg hstateless] at haccept
      generalize hs₁ : ({ observed with complete } : CodecStream) = s₁ at haccept
      have hmanaged₁ : s₁.managed = false := by
        rw [← hs₁]
        exact hkept.managed.trans h.managed
      have hverifier : s₁.verifier = some (verifierAfter texts v₀ given) := by
        rw [← hs₁]
        exact hkept.verifier.trans h.verifier
      have hheld₁ : s₁.held = gated (verified texts v₀ given) := by
        rw [← hs₁]
        exact hkept.held.trans hheld
      have hgating₁ : s₁.gating = (verified texts v₀ given).any isToolAdded := by
        rw [← hs₁]
        exact hkept.gating.trans hgating
      have hsequence : s₁.sequence = batches.flatten.length := by
        rw [← hs₁]
        exact hkept.sequence.trans h.gates.sequence
      obtain ⟨v', checked, hcheck, hend, hmanaged, hcomplete, hverifier', hgates', hclosed⟩ :=
        Gates.accept hsequence ⟨hgating₁, hheld₁, hrenumbered⟩ hverifier haccept
      obtain ⟨hafter, hverified, hvalid⟩ := checkEvents_accepts hcheck
      rw [hgiven]
      refine ⟨⟨?_, ?_, ?_, ?_, ?_⟩, fun hany hfalse => hclosed hany (hcomplete ▸ hfalse)⟩
      · rw [hmanaged, hmanaged₁]
      · rw [hverifier', verifierAfter_append, hafter]
      · rw [verifierAfter_append, hafter]
        exact hvalid h.valid
      · rw [verifierAfter_append, hafter, hcomplete]
        exact checkEnd_ended hend
      · rw [verified_append, hverified, List.flatten_append, List.flatten_singleton]
        exact hgates'
  | ready | prepared | json | managed | finished | rejected => cases haccept
variable (texts) in

theorem gating_stream {prepared : PreparedCodec} {ready : Answer}
    (hstateless : prepared.managed = false) (h : prepared.stream ready = .ok s₀) :
    ∃ v₀, ResponsesStream.new prepared.verifier prepared.maximum = .ok v₀ ∧
      Gating texts v₀ [] [] s₀ := by
  simp only [PreparedCodec.stream, bind_ok] at h
  obtain ⟨answer, -, h⟩ := h
  split at h
  · simp only [hstateless, Bool.false_eq_true, if_false, bind_ok, pure_ok,
      map_eq_pure_bind] at h
    obtain ⟨_, ⟨v₀, hnew, rfl⟩, rfl⟩ := h
    refine ⟨v₀, hnew, rfl, rfl, ?_, ?_, rfl, fun _ => ⟨rfl, rfl, .nil⟩, fun h => by cases h⟩
    all_goals
      simp only [ResponsesStream.new, bind_ok, pure_ok] at hnew
      obtain ⟨_, -, validator, -, rfl⟩ := hnew
      rfl
  · cases h

theorem Run.gating {given : List Json} (hrun : Run texts s₀ given batches s)
    (hstart : Gating texts v₀ [] [] s₀) : Gating texts v₀ given batches s := by
  induction hrun with
  | start => exact hstart
  | accept run accepted ih => exact (ih.accept accepted).1

/-- What the verifier emitted is either unfinished and quiet, or whole. -/
theorem emitted_quiet_or_whole {prepared : PreparedResponses} {limit : Nat} {given : List Json}
    (hnew : ResponsesStream.new prepared limit = .ok v₀)
    (hvalid : (verifierAfter texts v₀ given).invalid = false) :
    ((verifierAfter texts v₀ given).isComplete = false → ∀ e ∈ verified texts v₀ given, Quiet e) ∧
      ((verifierAfter texts v₀ given).isComplete = true →
        ∃ response output, Whole (verified texts v₀ given) response output) := by
  have hemitting : Emitting ([] ++ returned (ResponsesStream.event texts) v₀ (given.map sseOf))
      (Method.run (ResponsesStream.event texts) v₀ (given.map sseOf)) :=
    returned_rule (fun _ _ _ _ _ hinv hcall => hinv.accept hcall)
      (fun _ _ _ _ _ hinv hcall => hinv.reject hcall) (emitting_new hnew) (given.map sseOf)
  rw [List.nil_append, ← verifierAfter] at hemitting
  rw [ResponsesStream.isComplete, hvalid, Bool.not_false, Bool.and_true]
  rcases hemitting.state with hinvalid | ⟨-, ⟨hgoing, -, hquiet⟩ | ⟨hcomplete, hwhole⟩⟩
  · rw [hvalid] at hinvalid
    cases hinvalid
  · refine ⟨fun _ => hquiet, fun h => ?_⟩
    rw [hgoing] at h
    cases h
  · refine ⟨fun h => ?_, fun _ => hwhole⟩
    rw [hcomplete] at h
    cases h

/-- What a complete stream published: the events of the verifier in the order of release,
where the events of an item are as the verifier emitted them and what was held is sorted. -/
structure Published (emitted published : List Json) : Prop where
  order : Renumbered 0 (released emitted) published
  perm : (released emitted).Perm emitted
  relative : ∀ n, (released emitted).filter (atIndex · n) = emitted.filter (atIndex · n)
  sorted : ∃ held, released emitted = direct emitted ++ held ∧ held.Perm (gated emitted) ∧
    StableSort.Sorted indexOf held
  whole : ∃ response output, Whole published response output

theorem published_of_whole {published output : List Json} {response : Json}
    (h : Renumbered 0 (released emitted) published) (hwhole : Whole emitted response output) :
    Published emitted published where
  order := h
  perm := released_perm emitted
  relative := released_atIndex emitted
  sorted := ⟨_, rfl, StableSort.perm_sortByKey _ _, StableSort.sorted_sortByKey _ _⟩
  whole := ⟨response, output, whole_same (whole_released hwhole) h.same⟩

/-- Whatever a codec gives to a stateless stream, an incomplete run has published what the
verifier emitted before the first tool, nothing of a tool and nothing after it; a complete
run has published everything. -/
theorem gated_publication {prepared : PreparedCodec} {ready : Answer} {given : List Json}
    (hstateless : prepared.managed = false) (hstream : prepared.stream ready = .ok s₀)
    (hrun : Run texts s₀ given batches s) :
    ∃ v₀, ResponsesStream.new prepared.verifier prepared.maximum = .ok v₀ ∧
      ResponsesStream.Numbered batches.flatten ∧
      (s.complete = false → Renumbered 0 (direct (verified texts v₀ given)) batches.flatten ∧
        (∀ e ∈ batches.flatten, isToolAdded e = false ∧ isToolRelease e = false) ∧
        ∀ (x : Exchange) batch s', (verified texts v₀ given).any isToolAdded = true →
          event texts x s = .ok (batch, s') → s'.complete = false → batch = []) ∧
      (s.complete = true → Published (verified texts v₀ given) batches.flatten) := by
  obtain ⟨v₀, hnew, hstart⟩ := gating_stream texts hstateless hstream
  have hgating := hrun.gating hstart
  have hemitted := emitted_quiet_or_whole hnew hgating.valid
  refine ⟨v₀, hnew, ?_, fun hgoing => ?_, fun hcomplete => ?_⟩
  · rw [ResponsesStream.Numbered, List.range_eq_range']
    cases hcomplete : s.complete with
    | true => exact (hgating.gates.completed hcomplete).numbers
    | false => exact (hgating.gates.ongoing hcomplete).2.2.numbers
  · obtain ⟨-, -, hrenumbered⟩ := hgating.gates.ongoing hgoing
    refine ⟨hrenumbered, ?_, fun x batch s' hany haccept => (hgating.accept haccept).2 hany⟩
    have hquiet := hemitted.1 (hgating.ended ▸ hgoing)
    refine forall_same (P := fun e => isToolAdded e = false ∧ isToolRelease e = false)
      (fun e e' he h => ?_) hrenumbered.same fun e he => ?_
    · rwa [isToolAdded, isToolRelease, he.isAdded, he.isDone, he.announced, he.typeOf]
    · refine ⟨?_, (hquiet e ((List.takeWhile_sublist _).subset he)).1⟩
      have hnot := List.mem_takeWhile_imp (p := fun e => !isToolAdded e) he
      rwa [Bool.not_eq_true'] at hnot
  · obtain ⟨response, output, hwhole⟩ := hemitted.2 (hgating.ended ▸ hcomplete)
    exact published_of_whole (hgating.gates.completed hcomplete) hwhole

section Look
open ResponsesStream (lookRequest lookEvents plainTexts)

/-- The run over the exchanges, when all of them are accepted. -/
def play (texts : Texts) : List Exchange → List Json → List (List Json) → CodecStream →
    Option (List Json × List (List Json) × CodecStream)
  | [], given, batches, s => some (given, batches, s)
  | x :: rest, given, batches, s =>
      match event texts x s with
      | .ok (batch, s') => play texts rest (given ++ Exchange.given x) (batches ++ [batch]) s'
      | .error _ => none

theorem run_of_play {exchanges : List Exchange} {given given' : List Json}
    {batches' : List (List Json)} (hrun : Run texts s₀ given batches s)
    (h : play texts exchanges given batches s = some (given', batches', s')) :
    Run texts s₀ given' batches' s' := by
  induction exchanges generalizing given batches s with
  | nil =>
      cases h
      exact hrun
  | cons x rest ih =>
      rw [play] at h
      split at h
      · next haccept => exact ih (hrun.accept haccept) h
      · cases h

def lookCodec : PreparedCodec :=
  { verifier := lookRequest, managed := false, profile := .chatV1, maximum := 1000
    api := .chatCompletions, model := "m" }

/-- The codec announces the call, and completes it with the end of what the provider says. -/
def lookExchanges : List Exchange :=
  let values := lookEvents.filterMap fun sse => (decode sse.data).toOption
  [⟨⟨[], []⟩, .ok (.progress (values.take 2) false none), .ok .finished⟩,
    ⟨⟨[], doneData⟩, .ok (.progress (values.drop 2) true none), .ok .finished⟩]

theorem gated_look : ∃ s₀ given batches s v₀,
    lookCodec.stream (.ok (.progress [] false none)) = .ok s₀ ∧
    Run plainTexts s₀ given batches s ∧ s.complete = true ∧
    ResponsesStream.new lookCodec.verifier lookCodec.maximum = .ok v₀ ∧
    ResponsesStream.Numbered batches.flatten ∧
    Published (verified plainTexts v₀ given) batches.flatten := by
  have hlook : ((lookCodec.stream (.ok (.progress [] false none))).toOption.any fun s₀ =>
      (play plainTexts lookExchanges [] [] s₀).any (·.2.2.complete)) = true := by decide +kernel
  cases hstream : lookCodec.stream (.ok (.progress [] false none)) with
  | error e =>
      rw [hstream] at hlook
      cases hlook
  | ok s₀ =>
      rw [hstream, Except.toOption, Option.any_some] at hlook
      obtain ⟨⟨given, batches, s⟩, hplay, hcomplete⟩ := (Option.any_eq_true _ _).1 hlook
      have hrun := run_of_play .start hplay
      obtain ⟨v₀, hnew, hnumbered, -, hpublished⟩ := gated_publication rfl hstream hrun
      exact ⟨s₀, given, batches, s, v₀, rfl, hrun, hcomplete, hnew, hnumbered,
        hpublished hcomplete⟩

end Look

end Runs

end CodecStream

end ResponseGateway.Codecs
