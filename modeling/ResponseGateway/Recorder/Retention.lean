import ResponseGateway.Recorder.Export
import ResponseGateway.Recorder.Ledger

/-!
Runs of the store with exports and retention. Exports only touch the states of outbox rows;
what retention removes is finished and delivered, and stays known by its tombstones.
-/

namespace ResponseGateway.Recorder
open Checked Usage

variable {digest : Text → String} {config : RecorderConfig} {s s' s'' : Store} {row : EventRow}
  {version : Nat}

section Settling

/-- The same tables, up to the destinations and the progress of the deliveries. -/
structure Settled (s s' : Store) : Prop where
  version : s'.version = s.version
  attempts : s'.attempts = s.attempts
  events : s'.events = s.events
  tombstones : s'.tombstones = s.tombstones
  outbox : s'.outbox.map (·.key) = s.outbox.map (·.key)

theorem Settled.refl (s : Store) : Settled s s := ⟨rfl, rfl, rfl, rfl, rfl⟩

theorem Settled.trans (h : Settled s s') (h' : Settled s' s'') : Settled s s'' :=
  ⟨h'.version.trans h.version, h'.attempts.trans h.attempts, h'.events.trans h.events,
    h'.tombstones.trans h.tombstones, h'.outbox.trans h.outbox⟩

theorem Sound.settled (hs : Sound digest s) (h : Settled s s') : Sound digest s' := by
  refine ⟨⟨?_, ?_, ?_, ?_, ?_, fun o ho => ?_⟩, ?_, ?_⟩
  · rw [h.events, h.tombstones]
    exact hs.distinct
  · rw [h.events, h.version, h.attempts]
    exact hs.live
  · rw [h.tombstones, h.version]
    exact hs.removed
  · rw [h.attempts]
    exact hs.attempts
  · rw [h.outbox]
    exact hs.outbox
  · have hkey : o.key ∈ s.outbox.map (·.key) := h.outbox ▸ List.mem_map_of_mem ho
    obtain ⟨o', ho', heq⟩ := List.mem_map.1 hkey
    obtain ⟨e, he, hevent⟩ := hs.delivered o' ho'
    rw [h.events]
    exact ⟨e, he, hevent.trans (congrArg Prod.fst heq)⟩
  · rw [h.events]
    exact hs.final
  · rw [h.events, h.tombstones]
    exact hs.retired

theorem settled_map {f : OutboxRow → OutboxRow} (hf : ∀ o, (f o).key = o.key) :
    Settled s { s with outbox := s.outbox.map f } := by
  refine ⟨rfl, rfl, rfl, rfl, ?_⟩
  rw [List.map_map]
  exact List.map_congr_left fun o _ => hf o

theorem settled_settle (destination : String) (e : RecordedEvent) (state : DeliveryState)
    (attempts now : Nat) : Settled s (s.settle destination e state attempts now) := by
  refine settled_map fun o => ?_
  split <;> rfl

theorem settled_retryBlocked (destination : String) : Settled s (s.retryBlocked destination) := by
  refine settled_map fun o => ?_
  split <;> rfl

theorem settled_updates {ι : Type} (settle : Store → ι → Store) (updates : List ι)
    {s : Store} (h : ∀ s update, Settled s (settle s update)) :
    Settled s (updates.foldl settle s) := by
  induction updates generalizing s with
  | nil => exact .refl s
  | cons update rest ih => exact (h s update).trans ih

theorem settled_exportTo {d : Destination} {w : Surroundings} {n : Nat}
    (h : exportTo digest d w.now w.answer w.clock s = .ok (n, s')) : Settled s s' := by
  simp only [exportTo, bind_ok] at h
  obtain ⟨entries, -, h⟩ := h
  split at h
  · cases h
    exact .refl s
  · cases h
    exact settled_updates _ _ fun _ _ => settled_settle _ _ _ _ _

theorem settled_runOnce (targets : List (Destination × Surroundings)) :
    Settled s (runOnce digest targets s).2 := by
  induction targets generalizing s with
  | nil => exact .refl s
  | cons target rest ih =>
      obtain ⟨d, w⟩ := target
      rw [runOnce]
      cases hexport : exportTo digest d w.now w.answer w.clock s with
      | error e => exact .refl s
      | ok result =>
          obtain ⟨sent, s₁⟩ := result
          have hrest := (settled_exportTo hexport).trans (ih (s := s₁))
          simp only
          split
          · next heq =>
              rw [heq] at hrest
              exact hrest
          · next heq =>
              rw [heq] at hrest
              exact hrest

theorem settled_bindDestinations (h : s.bindDestinations digest config = .ok s') :
    Settled s s' := by
  simp only [Store.bindDestinations, bind_ok] at h
  obtain ⟨_, -, h⟩ := h
  refine foldlM_rule (P := fun _ s' => Settled s s') h (.refl s) ?_
  intro done d rest s₁ s₂ _ hsettled hbind
  refine hsettled.trans ?_
  simp only [Store.bindDestination, bind_ok, pure_ok] at hbind
  obtain ⟨_, -, rfl⟩ := hbind
  split
  · exact .refl s₁
  · exact ⟨rfl, rfl, rfl, rfl, rfl⟩

end Settling

section Pruning

/-- The outbox without the rows that a prune sweeps. -/
def Store.swept (s : Store) (before : Nat) : Store :=
  { s with outbox := s.outbox.filter fun o => !s.sweeps before o }

/-- The events that a prune removes. -/
def Store.pruned (s : Store) (before : Nat) : Store :=
  { s.swept before with
    tombstones := s.tombstones ++
      (s.events.filter ((s.swept before).retires before)).map (·.tombstone)
    events := s.events.filter fun e => !(s.swept before).retires before e }

theorem keys_tombstone (row : EventRow) : row.tombstone.keys = row.keys := rfl

theorem keys_tombstones (rows : List EventRow) :
    (rows.map (·.tombstone)).map (·.keys) = rows.map (·.keys) := by
  rw [List.map_map]
  rfl

/-- A prune moves keys from the events to the tombstones. -/
theorem pruned_keys (s : Store) (before : Nat) :
    (s.events.map (·.keys) ++ s.tombstones.map (·.keys)).Perm
      ((s.pruned before).events.map (·.keys) ++ (s.pruned before).tombstones.map (·.keys)) := by
  rw [Store.pruned, List.map_append, keys_tombstones]
  generalize (s.swept before).retires before = retires
  have hsplit := ((List.filter_append_perm retires s.events).map (·.keys)).symm
  rw [List.map_append] at hsplit
  refine (hsplit.append_right _).trans ?_
  refine (List.perm_append_comm.append_right _).trans ?_
  rw [List.append_assoc]
  exact List.perm_append_comm.append_left _

theorem Sound.prune_eq (hs : Sound digest s) {beforeMs : UInt64} (hbefore : beforeMs.toNat < 2 ^ 63) :
    s.prune beforeMs = .ok ((s.events.filter
      ((s.swept beforeMs.toNat).retires beforeMs.toNat)).length, s.pruned beforeMs.toNat) := by
  have hdistinct := (Table.distinct_append.1
    (hs.distinct.perm clash_comm (pruned_keys s beforeMs.toNat))).2.1
  have hinsert : (s.swept beforeMs.toNat).insertTombstones
      ((s.events.filter ((s.swept beforeMs.toNat).retires beforeMs.toNat)).map (·.tombstone)) =
        .ok { s.swept beforeMs.toNat with tombstones := (s.pruned beforeMs.toNat).tombstones } := by
    rw [Store.insertTombstones]
    exact congrArg (fun rows => okOr rows Failure.constraint >>= _)
      (Table.insert_all (Table.distinct_byKey.2 hdistinct))
  rw [Store.prune, toI64, if_pos hbefore, bind_of_ok]
  exact congrArg (· >>= _) hinsert

theorem prune_ok {beforeMs : UInt64} {result : Nat × Store} (h : s.prune beforeMs = .ok result) :
    beforeMs.toNat < 2 ^ 63 := by
  simp only [Store.prune, bind_ok, toI64_ok] at h
  obtain ⟨before, ⟨rfl, hlt⟩, -⟩ := h
  exact hlt

/-- Whether an event goes depends on its attempt. -/
theorem retires_congr {before : Nat} {e e' : EventRow} (h : e.attempt = e'.attempt) :
    s.retires before e = s.retires before e' := by
  rw [Store.retires, Store.retires, h]

/-- Why an attempt goes. -/
theorem retires_iff {before : Nat} {e : EventRow} : s.retires before e = true ↔
    ∃ c ∈ s.events, s.ended before c = true ∧ c.attempt = e.attempt ∧ s.outboxOf c = [] := by
  simp only [Store.retires, List.any_eq_true, Bool.and_eq_true, decide_eq_true_eq,
    List.isEmpty_iff, and_assoc]

theorem mem_outboxOf {o : OutboxRow} {c : EventRow} : o ∈ s.outboxOf c ↔
    o ∈ s.outbox ∧ ∃ e ∈ s.events, e.event = o.event ∧ e.attempt = c.attempt := by
  rw [Store.outboxOf, List.mem_filter, List.any_eq_true]
  simp only [Bool.and_eq_true, decide_eq_true_eq]

theorem ended_iff {before : Nat} {c : EventRow} : s.ended before c = true ↔
    (∀ e ∈ s.events, e.attempt = c.attempt → e.revision ≤ c.revision) ∧
      c.kind = .attemptFinished ∧ c.observedAtMs < before := by
  simp only [Store.ended, Store.isCurrent, Bool.and_eq_true, List.all_eq_true, mem_sameAttempt,
    decide_eq_true_eq, and_imp, and_assoc]

theorem Sound.pruned (hs : Sound digest s) (before : Nat) : Sound digest (s.pruned before) := by
  have hevents : ∀ e ∈ (s.pruned before).events, e ∈ s.events ∧
      (s.swept before).retires before e = false := by
    intro e he
    obtain ⟨he, hretires⟩ := List.mem_filter.1 he
    exact ⟨he, by rwa [Bool.not_eq_true'] at hretires⟩
  refine ⟨⟨hs.distinct.perm clash_comm (pruned_keys s before),
    fun e he => hs.live e (hevents e he).1, fun t ht => ?_, hs.attempts,
    hs.outbox.sublist (List.filter_sublist.map _), fun o ho => ?_⟩,
    fun f hf hfinished e he => ?_, fun t ht => ?_⟩
  · rcases List.mem_append.1 ht with ht | ht
    · exact hs.removed t ht
    · obtain ⟨e, he, rfl⟩ := List.mem_map.1 ht
      obtain ⟨event, hevent, hversion, -⟩ := hs.live e (List.mem_filter.1 he).1
      exact ⟨event, e, hevent, hversion, rfl⟩
  · obtain ⟨e, he, hevent⟩ := hs.delivered o (List.mem_filter.1 ho).1
    refine ⟨e, List.mem_filter.2 ⟨he, ?_⟩, hevent⟩
    rw [Bool.not_eq_true', ← Bool.not_eq_true, retires_iff]
    rintro ⟨c, -, -, hattempt, hnone⟩
    have hmem : o ∈ (s.swept before).outboxOf c :=
      mem_outboxOf.2 ⟨ho, e, he, hevent, hattempt.symm⟩
    rw [hnone] at hmem
    cases hmem
  · exact hs.final f (hevents f hf).1 hfinished e (hevents e he).1
  · rcases List.mem_append.1 ht with ht | ht
    · obtain ⟨hany, hnone⟩ := hs.retired t ht
      refine ⟨?_, fun e he => hnone e (hevents e he).1⟩
      rw [Store.pruned, List.any_append, hany, Bool.true_or]
    · obtain ⟨e, he, rfl⟩ := List.mem_map.1 ht
      obtain ⟨-, hretires⟩ := List.mem_filter.1 he
      refine ⟨?_, fun e' he' hattempt => ?_⟩
      · obtain ⟨c, hc, hended, hattempt, -⟩ := retires_iff.1 hretires
        refine List.any_eq_true.2 ⟨c.tombstone, List.mem_append_right _ (List.mem_map_of_mem
          (List.mem_filter.2 ⟨hc, ?_⟩)), ?_⟩
        · rwa [retires_congr hattempt]
        · rw [Bool.and_eq_true, decide_eq_true_eq, decide_eq_true_eq]
          exact ⟨hattempt, (ended_iff.1 hended).2.1⟩
      · have hkeeps := (hevents e' he').2
        rw [retires_congr (show e'.attempt = e.attempt from hattempt), hretires] at hkeeps
        cases hkeeps

/-- A removed event leaves with its whole attempt, which is finished and delivered. -/
structure Removed (s s' : Store) (e : EventRow) : Prop where
  whole : ∀ e' ∈ s.events, e'.attempt = e.attempt → e' ∉ s'.events
  finished : ∃ c ∈ s.events, c.attempt = e.attempt ∧ c.kind = .attemptFinished ∧
    ∀ e' ∈ s.events, e'.attempt = e.attempt → e'.revision ≤ c.revision
  delivered : ∀ o ∈ s.outbox, ∀ e' ∈ s.events, e'.attempt = e.attempt → e'.event = o.event →
    o.state = .committed
  tombstone : s'.tombstones.filter (·.event = e.event) = [e.tombstone]

theorem Sound.removed_pruned (hs : Sound digest s) {before : Nat} {e : EventRow}
    (he : e ∈ s.events) (hgone : e ∉ (s.pruned before).events) :
    Removed s (s.pruned before) e := by
  have hretires : (s.swept before).retires before e = true := by
    by_contra hkeeps
    refine hgone (List.mem_filter.2 ⟨he, ?_⟩)
    rwa [Bool.not_eq_true', ← Bool.not_eq_true]
  obtain ⟨c, hc, hended, hattempt, hnone⟩ := retires_iff.1 hretires
  refine ⟨fun e' _ hsame hkept => ?_, ⟨c, hc, hattempt, (ended_iff.1 hended).2.1, ?_⟩,
    fun o ho e' he' hsame hevent => ?_, ?_⟩
  · obtain ⟨-, hkeeps⟩ := List.mem_filter.1 hkept
    rw [retires_congr hsame, hretires] at hkeeps
    cases hkeeps
  · intro e' he' hsame
    exact (ended_iff.1 hended).1 e' he' (hsame.trans hattempt.symm)
  · cases hsweeps : s.sweeps before o with
    | true =>
        rw [Store.sweeps, Bool.and_eq_true, decide_eq_true_eq] at hsweeps
        exact hsweeps.1
    | false =>
        have hmem : o ∈ (s.swept before).outboxOf c :=
          mem_outboxOf.2 ⟨List.mem_filter.2 ⟨ho, by rw [hsweeps]; rfl⟩, e', he', hevent,
            hsame.trans hattempt.symm⟩
        rw [hnone] at hmem
        cases hmem
  · have hmem : e.tombstone ∈ (s.pruned before).tombstones :=
      List.mem_append_right _ (List.mem_map_of_mem (List.mem_filter.2 ⟨he, hretires⟩))
    have hdistinct := Table.distinct_byKey.2 (Table.distinct_append.1 (hs.pruned before).distinct).2.1
    refine hdistinct.filter_eq hmem (decide_eq_true rfl) fun a _ b _ ha hb => ?_
    rw [decide_eq_true_eq] at ha hb
    exact clash_iff.2 (.inl (ha.trans hb.symm))

end Pruning

section Runs

/-- One call that does not fail, or an export, which keeps what it did before a failure. -/
inductive Step (digest : Text → String) (s : Store) : Store → Prop where
  | record {config : RecorderConfig} {e : RecordedEvent} {status : ReceiptStatus} {s' : Store}
      (call : s.record digest config e = .ok (status, s')) : Step digest s s'
  | bind {config : RecorderConfig} {s' : Store}
      (call : s.bindDestinations digest config = .ok s') : Step digest s s'
  | runOnce (targets : List (Destination × Surroundings)) :
      Step digest s (Recorder.runOnce digest targets s).2
  | prune {beforeMs : UInt64} {n : Nat} {s' : Store} (call : s.prune beforeMs = .ok (n, s')) :
      Step digest s s'
  | retry (destination : String) : Step digest s (s.retryBlocked destination)

abbrev Run (digest : Text → String) : Store → Store → Prop := Relation.ReflTransGen (Step digest)

/-- What a step does to the tables: it settles, commits or prunes. -/
theorem Sound.step_cases (hs : Sound digest s) (h : Step digest s s') : Settled s s' ∨
    (∃ row config identity, s' = s.commit row config identity ∧ Sound digest s') ∨
    ∃ beforeMs n, s.prune beforeMs = .ok (n, s') ∧ s' = s.pruned beforeMs.toNat := by
  cases h with
  | @record config e status s' call =>
      obtain ⟨row, -, -, heq⟩ := hs.record_ok call
      rcases decided_cases s row config e.identityBytes with hsame | ⟨-, -, hcommit⟩
      · rw [← heq] at hsame
        rw [show s' = s from hsame]
        exact .inl (.refl s)
      · have hsound := hs.record call
        rw [hcommit, Prod.mk.injEq] at heq
        exact .inr (.inl ⟨row, config, _, heq.2, hsound⟩)
  | bind call => exact .inl (settled_bindDestinations call)
  | runOnce targets => exact .inl (settled_runOnce targets)
  | @prune beforeMs n s' call =>
      have heq := hs.prune_eq (prune_ok call)
      rw [call, Except.ok.injEq, Prod.mk.injEq] at heq
      exact .inr (.inr ⟨beforeMs, n, call, heq.2⟩)
  | retry destination => exact .inl (settled_retryBlocked destination)

theorem Sound.step (hs : Sound digest s) (h : Step digest s s') : Sound digest s' := by
  rcases hs.step_cases h with hsettled | ⟨row, config, identity, -, hsound⟩ | ⟨beforeMs, n, -, rfl⟩
  · exact hs.settled hsettled
  · exact hsound
  · exact hs.pruned _

theorem Sound.run (hs : Sound digest s) (h : Run digest s s') : Sound digest s' := by
  induction h with
  | refl => exact hs
  | tail _ hstep ih => exact ih.step hstep

/-- What is kept through every step: the version and the tombstones. -/
theorem Sound.step_keeps (hs : Sound digest s) (h : Step digest s s') :
    s'.version = s.version ∧ ∀ t ∈ s.tombstones, t ∈ s'.tombstones := by
  rcases hs.step_cases h with hsettled | ⟨row, config, identity, rfl, -⟩ | ⟨beforeMs, n, -, rfl⟩
  · rw [hsettled.version, hsettled.tombstones]
    exact ⟨rfl, fun t ht => ht⟩
  · exact ⟨rfl, fun t ht => ht⟩
  · exact ⟨rfl, fun t ht => List.mem_append_left _ ht⟩

theorem Sound.run_keeps (hs : Sound digest s) (h : Run digest s s') :
    s'.version = s.version ∧ ∀ t ∈ s.tombstones, t ∈ s'.tombstones := by
  induction h with
  | refl => exact ⟨rfl, fun t ht => ht⟩
  | @tail s₁ s₂ hrun hstep ih =>
      obtain ⟨hversion, hkept⟩ := (hs.run hrun).step_keeps hstep
      exact ⟨hversion.trans ih.1, fun t ht => hkept t (ih.2 t ht)⟩

/-- An event leaves by a prune only. -/
theorem Sound.removed_step (hs : Sound digest s) (h : Step digest s s') {e : EventRow}
    (he : e ∈ s.events) (hgone : e ∉ s'.events) :
    ∃ beforeMs n, s.prune beforeMs = .ok (n, s') ∧ Removed s s' e := by
  rcases hs.step_cases h with hsettled | ⟨row, config, identity, rfl, -⟩ |
    ⟨beforeMs, n, hprune, rfl⟩
  · rw [hsettled.events] at hgone
    exact absurd he hgone
  · exact absurd (List.mem_append_left _ he) hgone
  · exact ⟨beforeMs, n, hprune, hs.removed_pruned he hgone⟩

variable {e : RecordedEvent}

/-- What is recorded again after it was removed is a duplicate. -/
theorem Sound.record_removed (hinj : Function.Injective digest) (hs : Sound digest s)
    (hversion : e.isV2 = true → s.version = 2) (hrow : rowOf digest e = .ok row)
    (hremoved : row.tombstone ∈ s.tombstones) :
    s.record digest config e = .ok (.duplicate, s) := by
  rw [hs.record_eq hversion hrow, hs.decided_stored hinj hrow
    (.inr ⟨row.tombstone, hremoved, rfl, rfl⟩) (clash_self _),
    if_pos (show row.tombstone.sha256 = row.sha256 from rfl)]

/-- Nothing else of a removed attempt is recorded. -/
theorem Sound.record_retired (hinj : Function.Injective digest) (hs : Sound digest s)
    (hversion : e.isV2 = true → s.version = 2) (hrow : rowOf digest e = .ok row)
    {t : TombstoneRow} (ht : t ∈ s.tombstones) (hattempt : row.attempt = t.attempt)
    (hother : row.tombstone ∉ s.tombstones) :
    s.record digest config e = .ok (.conflict, s) := by
  rw [hs.record_eq hversion hrow, Store.decided]
  cases hprior : s.prior row with
  | some kept =>
      obtain ⟨old, payload⟩ := kept
      have hne : old ≠ row.sha256 := by
        rintro rfl
        have hsame : ∀ {event row'}, rowOf digest event = .ok row' → row.sha256 = row'.sha256 →
            row = row' := by
          intro event row' hrow' hsha
          rw [(rowOf_ok hrow).sha256, (rowOf_ok hrow').sha256] at hsha
          exact (RowOf.unique hrow hrow' (hinj hsha)).2
        rcases prior_eq_some hprior with ⟨f, hf, -, hsha, -⟩ | ⟨u, hu, -, hsha, -⟩
        · obtain ⟨event, hevent, -⟩ := hs.live f hf
          rw [hsame hevent hsha] at hattempt
          exact (hs.retired t ht).2 f hf hattempt
        · obtain ⟨event, row', hevent, -, rfl⟩ := hs.removed u hu
          rw [hsame hevent hsha] at hother
          exact hother hu
      simp only [if_neg hne]
  | none =>
      have hretired : s.retired row = true := by
        rw [Store.retired, hattempt]
        exact (hs.retired t ht).1
      simp only [Store.refuses, hretired, Bool.true_or, if_true]

/-- An event is removed with its whole attempt, once that is finished and delivered, and
leaves one tombstone; it is a duplicate from then on, and everything else of its attempt is
in conflict. No event is both live and removed, every delivery is of a live event, and a
prune fails for no other reason than a time that the tables cannot hold. -/
theorem retention (hinj : Function.Injective digest) (hreach : Run digest (.empty version) s) :
    (∀ s', Step digest s s' → ∀ e ∈ s.events, e ∉ s'.events →
      (∃ beforeMs n, s.prune beforeMs = .ok (n, s')) ∧ Removed s s' e ∧
        ∀ s'', Run digest s' s'' → ∀ config event row, (event.isV2 = true → version = 2) →
          rowOf digest event = .ok row →
            (row = e → s''.record digest config event = .ok (.duplicate, s'')) ∧
              (row.attempt = e.attempt → row.tombstone ∉ s''.tombstones →
                s''.record digest config event = .ok (.conflict, s''))) ∧
    (∀ e ∈ s.events, ∀ t ∈ s.tombstones, e.keys.clash t.keys = false) ∧
    (∀ o ∈ s.outbox, ∃ e ∈ s.events, e.event = o.event) ∧
    ∀ beforeMs : UInt64, beforeMs.toNat < 2 ^ 63 → ∃ result, s.prune beforeMs = .ok result := by
  have hs := (@sound_empty digest version).run hreach
  have hversion : s.version = version :=
    ((@sound_empty digest version).run_keeps hreach).1
  refine ⟨fun s' hstep e he hgone => ?_, fun e he t ht => ?_, hs.delivered,
    fun beforeMs hbefore => ⟨_, hs.prune_eq hbefore⟩⟩
  · obtain ⟨beforeMs, n, hprune, hremoved⟩ := hs.removed_step hstep he hgone
    refine ⟨⟨beforeMs, n, hprune⟩, hremoved, fun s'' hrun config event row hv2 hrow => ?_⟩
    have hs' := hs.step hstep
    obtain ⟨hversion'', hkept⟩ := hs'.run_keeps hrun
    have hv2' : event.isV2 = true → s''.version = 2 := fun h => by
      rw [hversion'', (hs.step_keeps hstep).1, hversion, hv2 h]
    have hmem : e.tombstone ∈ s'.tombstones := by
      have hsingle : e.tombstone ∈ s'.tombstones.filter (·.event = e.event) := by
        rw [hremoved.tombstone]
        exact List.mem_singleton_self _
      exact (List.mem_filter.1 hsingle).1
    refine ⟨?_, fun hattempt hother => ?_⟩
    · rintro rfl
      exact (hs'.run hrun).record_removed hinj hv2' hrow (hkept _ hmem)
    · exact (hs'.run hrun).record_retired hinj hv2' hrow (hkept _ hmem) hattempt hother
  · exact (Table.distinct_append.1 hs.distinct).2.2 _ (List.mem_map_of_mem he) _
      (List.mem_map_of_mem ht)

theorem run_of_deliver {l : List RecordedEvent} {statuses : List ReceiptStatus}
    (h : deliver digest config l s = .ok (statuses, s')) : Run digest s s' := by
  induction l generalizing s statuses with
  | nil =>
      cases h
      exact .refl
  | cons e rest ih =>
      simp only [deliver, bind_ok, pure_ok, Prod.mk.injEq] at h
      obtain ⟨⟨status, s₁⟩, hrecord, ⟨statuses', s₂⟩, hrest, -, rfl⟩ := h
      exact .head (.record hrecord) (ih hrest)

/-- An attempt that ended is removed when no destination waits for it. -/
theorem retention_attempt : ∃ s s' e, Run String.ofList (.empty 1) s ∧ Step String.ofList s s' ∧
    e ∈ s.events ∧ e ∉ s'.events ∧ Removed s s' e := by
  have hinj : Function.Injective String.ofList := fun _ _ h => String.ofList_injective h
  have hfinished : finishedEvent ∈ ({startedEvent, finishedEvent} : Set RecordedEvent) := by simp
  obtain ⟨statuses, s, hdeliver, htables, -⟩ := tables_empty.deliver
    ⟨[], List.nodup_nil⟩ hinj consistent_attempt storable_attempt [startedEvent, finishedEvent]
    (by simp) (by simp)
  obtain ⟨row, hrow⟩ := (storable_attempt _ hfinished).has_row String.ofList
  have hmem : row ∈ s.events := (htables.events row).2 ⟨finishedEvent, by simp, hrow⟩
  have hstep : Step String.ofList s (s.pruned (2 : UInt64).toNat) :=
    .prune (htables.sound.prune_eq (by decide))
  have hreach := run_of_deliver hdeliver
  have hrevision : row.revision = 1 := (rowOf_ok hrow).revision
  have hobserved : row.observedAtMs = 1 := (rowOf_ok hrow).observedAtMs
  have hgone : row ∉ (s.pruned (2 : UInt64).toNat).events := by
    intro hkept
    obtain ⟨-, hkeeps⟩ := List.mem_filter.1 hkept
    rw [Bool.not_eq_true', ← Bool.not_eq_true] at hkeeps
    refine hkeeps (retires_iff.2 ⟨row, hmem, ended_iff.2 ⟨fun e he _ => ?_, ?_, ?_⟩, rfl, ?_⟩)
    · obtain ⟨event, hevent, hrow'⟩ := (htables.events e).1 he
      rw [(rowOf_ok hrow').revision, hrevision]
      have hcases : event = startedEvent ∨ event = finishedEvent := by simpa using hevent
      rcases hcases with rfl | rfl <;> decide
    · exact (rowOf_ok hrow).kind
    · rw [hobserved]
      decide
    · refine List.eq_nil_iff_forall_not_mem.2 fun o ho => ?_
      obtain ⟨ho, -⟩ := mem_outboxOf.1 ho
      obtain ⟨e, -, d, hd, -⟩ := (htables.outbox o).1 (List.mem_filter.1 ho).1
      cases hd
  exact ⟨s, _, row, hreach, hstep, hmem, hgone,
    ((retention hinj hreach).1 _ hstep row hmem hgone).2.1⟩

/-- A prune up to a time that the tables cannot hold fails. -/
theorem retention_out_of_range : ¬ ∀ (digest : Text → String) (s : Store),
    Run digest (.empty 1) s → ∀ beforeMs : UInt64, ∃ result, s.prune beforeMs = .ok result := by
  intro hall
  obtain ⟨result, hprune⟩ := hall (fun _ => "") (.empty 1) .refl 9223372036854775808
  exact absurd (prune_ok hprune) (by decide)

end Runs

end ResponseGateway.Recorder
