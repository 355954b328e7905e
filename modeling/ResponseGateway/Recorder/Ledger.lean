import ResponseGateway.Recorder.StoreSteps

/-!
The ledger of events that belong together. Events of a consistent set are committed once
and are duplicates from then on, whatever the order in which they are delivered, and the
order leaves no trace in the tables.
-/

namespace ResponseGateway.Recorder
open Checked Usage

section Consistency

def attemptOf (e : RecordedEvent) : String × String := (e.view.producerId, e.view.attemptId)

def nameOf (e : RecordedEvent) : String × String := (e.view.producerId, e.view.eventId)

/-- Events that belong together. -/
structure Consistent (set : Set RecordedEvent) : Prop where
  names : ∀ e ∈ set, ∀ e' ∈ set, nameOf e = nameOf e' → e = e'
  places : ∀ e ∈ set, ∀ e' ∈ set, attemptOf e = attemptOf e' →
    e.view.revision = e'.view.revision → e = e'
  identities : ∀ e ∈ set, ∀ e' ∈ set, attemptOf e = attemptOf e' →
    e.identityBytes = e'.identityBytes
  finished : ∀ f ∈ set, f.view.kind = .attemptFinished → ∀ e ∈ set, attemptOf e = attemptOf f →
    e.view.revision ≤ f.view.revision

theorem consistent_singleton (e : RecordedEvent) : Consistent {e} where
  names := by
    rintro e rfl e' rfl -
    rfl
  places := by
    rintro e rfl e' rfl - -
    rfl
  identities := by
    rintro e rfl e' rfl -
    rfl
  finished := by
    rintro f rfl - e rfl -
    exact UInt64.le_refl _

/-- A store of a version can hold the event. -/
structure Storable (version : Nat) (e : RecordedEvent) : Prop where
  version : e.isV2 = true → version = 2
  bytes : ∃ b, e.bytes = .ok b
  fits : e.view.revision.toNat < 2 ^ 63 ∧ e.view.startedAtMs.toNat < 2 ^ 63 ∧
    e.view.observedAtMs.toNat < 2 ^ 63

variable {digest : Text → String} {version : Nat} {e e' : RecordedEvent} {row row' : EventRow}

theorem Storable.has_row (h : Storable version e) (digest : Text → String) :
    ∃ row, rowOf digest e = .ok row := by
  obtain ⟨b, hb⟩ := h.bytes
  obtain ⟨hr, hs, ho⟩ := h.fits
  exact ⟨_, by
    rw [rowOf, hb, toI64, if_pos hr, toI64, if_pos hs, toI64, if_pos ho]
    rfl⟩

theorem storable_of_row (hversion : e.isV2 = true → version = 2) (h : rowOf digest e = .ok row) :
    Storable version e := by
  have hrow := rowOf_ok h
  obtain ⟨hr, hs, ho⟩ := hrow.fits
  exact ⟨hversion, ⟨_, hrow.payload⟩, hrow.revision ▸ hr, hrow.startedAtMs ▸ hs,
    hrow.observedAtMs ▸ ho⟩

/-- Events of a consistent set whose rows have a key in common are one event. -/
theorem Consistent.eq_of_clash {set : Set RecordedEvent} (hset : Consistent set) (he : e ∈ set)
    (he' : e' ∈ set) (hrow : rowOf digest e = .ok row) (hrow' : rowOf digest e' = .ok row')
    (hclash : row.keys.clash row'.keys = true) : e = e' := by
  have h := rowOf_ok hrow
  have h' := rowOf_ok hrow'
  rcases clash_iff.1 hclash with hname | hplace
  · exact hset.names e he e' he' (h.named.symm.trans (hname.trans h'.named))
  · rw [EventRow.keys, EventRow.keys, Prod.mk.injEq] at hplace
    refine hset.places e he e' he' (h.attempt.symm.trans (hplace.1.trans h'.attempt)) ?_
    rw [← UInt64.toNat_inj, ← h.revision, ← h'.revision]
    exact hplace.2

end Consistency

section Delivering

variable {digest : Text → String} {config : RecorderConfig} {version : Nat}
  {set : Set RecordedEvent} {seen : List RecordedEvent} {s s' : Store} {e : RecordedEvent}
  {row : EventRow}

/-- Events are recorded one after the other. -/
def deliver (digest : Text → String) (config : RecorderConfig) :
    List RecordedEvent → Store → Except Failure (List ReceiptStatus × Store)
  | [], s => .ok ([], s)
  | e :: rest, s => do
      let (status, s) ← s.record digest config e
      let (statuses, s) ← deliver digest config rest s
      return (status :: statuses, s)

/-- The tables after events were recorded, in an order that they do not tell. -/
structure Tables (digest : Text → String) (config : RecorderConfig) (version : Nat)
    (seen : List RecordedEvent) (s : Store) : Prop where
  sound : Sound digest s
  version : s.version = version
  tombstones : s.tombstones = []
  events : ∀ row, row ∈ s.events ↔ ∃ e ∈ seen, rowOf digest e = .ok row
  attempts : ∀ a, a ∈ s.attempts ↔ ∃ e ∈ seen,
    a = ⟨e.view.producerId, e.view.attemptId, e.identityBytes⟩
  outbox : ∀ o, o ∈ s.outbox ↔ ∃ row ∈ s.events, ∃ d ∈ config.destinations,
    o = Store.pendingAt row d

theorem tables_empty : Tables digest config version [] (.empty version) where
  sound := sound_empty version
  version := rfl
  tombstones := rfl
  events := by simp [Store.empty]
  attempts := by simp [Store.empty]
  outbox := by simp [Store.empty]

theorem row_attempt (hrow : rowOf digest e = .ok row) (identity : Text) :
    (⟨row.producerId, row.attemptId, identity⟩ : AttemptRow) =
      ⟨e.view.producerId, e.view.attemptId, identity⟩ := by
  have h := (rowOf_ok hrow).attempt
  rw [EventRow.attempt, Prod.mk.injEq] at h
  rw [h.1, h.2]

/-- An event that was seen is a duplicate. -/
theorem Tables.again (h : Tables digest config version seen s) (hinj : Function.Injective digest)
    (hrow : rowOf digest e = .ok row) (hseen : e ∈ seen) :
    s.decided row config e.identityBytes = (.duplicate, s) := by
  have hmem : row ∈ s.events := (h.events row).2 ⟨e, hseen, hrow⟩
  rw [h.sound.decided_stored hinj hrow (.inl ⟨row, hmem, rfl, rfl⟩) (clash_self _), if_pos rfl]

/-- An event of the set that was not seen is admitted. -/
theorem Tables.admitted (h : Tables digest config version seen s) (hset : Consistent set)
    (hmem : ∀ e ∈ seen, e ∈ set) (he : e ∈ set) (hrow : rowOf digest e = .ok row)
    (hnew : e ∉ seen) : s.prior row = none ∧ Admitted s row e.identityBytes := by
  have hrowOf := rowOf_ok hrow
  have hother : ∀ r ∈ s.events, ∃ e' ∈ seen, rowOf digest e' = .ok r ∧ e' ≠ e := by
    intro r hr
    obtain ⟨e', he', hrow'⟩ := (h.events r).1 hr
    refine ⟨e', he', hrow', ?_⟩
    rintro rfl
    exact hnew he'
  have hattempt : ∀ {r e'}, rowOf digest e' = .ok r → r.attempt = row.attempt →
      attemptOf e' = attemptOf e := fun hr heq =>
    (rowOf_ok hr).attempt.symm.trans (heq.trans hrowOf.attempt)
  refine ⟨prior_eq_none.2 ⟨?_, by simp [h.tombstones]⟩, ⟨by simp [h.tombstones], ?_, ?_, ?_⟩⟩
  · intro r hr
    obtain ⟨e', he', hrow', hne⟩ := hother r hr
    cases hclash : r.keys.clash row.keys with
    | false => rfl
    | true => exact absurd (hset.eq_of_clash (hmem e' he') he hrow' hrow hclash) hne
  · intro a ha
    have hsame := List.find?_some ha
    rw [decide_eq_true_eq] at hsame
    obtain ⟨e', he', rfl⟩ := (h.attempts a).1 (List.mem_of_find?_eq_some ha)
    exact hset.identities e' (hmem e' he') e he (hsame.trans hrowOf.attempt)
  · intro hkind r hr heq
    obtain ⟨e', he', hrow', -⟩ := hother r hr
    have hle := hset.finished e he (hrowOf.kind.symm.trans hkind) e' (hmem e' he')
      (hattempt hrow' heq)
    rw [(rowOf_ok hrow').revision, hrowOf.revision]
    exact UInt64.le_iff_toNat_le.1 hle
  · intro f hf heq hkind
    obtain ⟨e', he', hrow', hne⟩ := hother f hf
    have hsame := hattempt hrow' heq
    have hfinished := (rowOf_ok hrow').kind.symm.trans hkind
    have hle := hset.finished e' (hmem e' he') hfinished e he hsame.symm
    have hrevision : e'.view.revision ≠ e.view.revision := fun h =>
      hne (hset.places e' (hmem e' he') e he hsame h)
    refine ⟨?_, fun hkind' => ?_⟩
    · rw [(rowOf_ok hrow').revision, hrowOf.revision]
      exact UInt64.lt_iff_toNat_lt.1 (UInt64.lt_of_le_of_ne hle hrevision.symm)
    · have hle' := hset.finished e he (hrowOf.kind.symm.trans hkind') e' (hmem e' he') hsame
      exact hrevision (UInt64.le_antisymm hle' hle)

theorem Tables.commit (h : Tables digest config version seen s)
    (hversion : e.isV2 = true → version = 2) (hrow : rowOf digest e = .ok row)
    (hprior : s.prior row = none) (hadmitted : Admitted s row e.identityBytes) :
    Tables digest config version (seen ++ [e]) (s.commit row config e.identityBytes) := by
  obtain ⟨-, hattempts⟩ :=
    insertAttempt_attempts s row e.identityBytes hadmitted.identified h.sound.attempts
  refine ⟨h.sound.commit (fun hv2 => h.version.trans (hversion hv2)) hrow hprior hadmitted,
    h.version, h.tombstones, fun r => ?_, fun a => ?_, fun o => ?_⟩
  · rw [Store.commit, List.mem_append, h.events r, List.mem_singleton]
    constructor
    · rintro (⟨e', he', hrow'⟩ | rfl)
      · exact ⟨e', List.mem_append_left _ he', hrow'⟩
      · exact ⟨e, List.mem_append_right _ (List.mem_singleton_self _), hrow⟩
    · rintro ⟨e', he', hrow'⟩
      rcases List.mem_append.1 he' with he' | he'
      · exact .inl ⟨e', he', hrow'⟩
      · rw [List.mem_singleton.1 he', hrow, Except.ok.injEq] at hrow'
        exact .inr hrow'.symm
  · rw [Store.commit, hattempts a, h.attempts a, row_attempt hrow]
    constructor
    · rintro (⟨e', he', rfl⟩ | rfl)
      · exact ⟨e', List.mem_append_left _ he', rfl⟩
      · exact ⟨e, List.mem_append_right _ (List.mem_singleton_self _), rfl⟩
    · rintro ⟨e', he', rfl⟩
      rcases List.mem_append.1 he' with he' | he'
      · exact .inl ⟨e', he', rfl⟩
      · rw [List.mem_singleton.1 he']
        exact .inr rfl
  · rw [Store.commit, List.mem_append, h.outbox o, List.mem_map]
    constructor
    · rintro (⟨r, hr, hd⟩ | ⟨d, hd, rfl⟩)
      · exact ⟨r, List.mem_append_left _ hr, hd⟩
      · exact ⟨row, List.mem_append_right _ (List.mem_singleton_self _), d, hd, rfl⟩
    · rintro ⟨r, hr, d, hd, rfl⟩
      rcases List.mem_append.1 hr with hr | hr
      · exact .inl ⟨r, hr, d, hd, rfl⟩
      · rw [List.mem_singleton.1 hr]
        exact .inr ⟨d, hd, rfl⟩

theorem Tables.repeated (h : Tables digest config version seen s) (hseen : e ∈ seen) :
    Tables digest config version (seen ++ [e]) s := by
  have hmem : ∀ e', e' ∈ seen ++ [e] ↔ e' ∈ seen := by
    intro e'
    rw [List.mem_append, List.mem_singleton]
    exact ⟨fun h => h.elim id fun h => h ▸ hseen, .inl⟩
  refine ⟨h.sound, h.version, h.tombstones, fun r => ?_, fun a => ?_, h.outbox⟩
  · simp only [hmem, h.events]
  · simp only [hmem, h.attempts]

/-- What each delivery is answered: the first time, and every later time. -/
def Answered (seen rest : List RecordedEvent) (statuses : List ReceiptStatus) : Prop :=
  statuses.length = rest.length ∧ ∀ before e after, rest = before ++ e :: after →
    (e ∉ seen ++ before → statuses[before.length]? = some .committed) ∧
      (e ∈ seen ++ before → statuses[before.length]? = some .duplicate)

theorem Answered.cons {rest : List RecordedEvent} {statuses : List ReceiptStatus}
    {status : ReceiptStatus} (h : Answered (seen ++ [e]) rest statuses)
    (hfirst : e ∉ seen → status = .committed) (hlater : e ∈ seen → status = .duplicate) :
    Answered seen (e :: rest) (status :: statuses) := by
  refine ⟨congrArg (· + 1) h.1, fun before e' after heq => ?_⟩
  cases before with
  | nil =>
      rw [List.nil_append, List.cons.injEq] at heq
      obtain ⟨rfl, -⟩ := heq
      rw [List.append_nil]
      exact ⟨fun hnot => congrArg some (hfirst hnot), fun hin => congrArg some (hlater hin)⟩
  | cons first before =>
      rw [List.cons_append, List.cons.injEq] at heq
      obtain ⟨rfl, heq⟩ := heq
      have hrest := h.2 before e' after heq
      rw [List.append_assoc, List.singleton_append] at hrest
      exact hrest

variable (config) in
/-- What a delivery of events of a consistent set does. -/
theorem Tables.deliver (hinj : Function.Injective digest) (hset : Consistent set)
    (hstorable : ∀ e ∈ set, Storable version e) (rest : List RecordedEvent)
    (h : Tables digest config version seen s) (hseen : ∀ e ∈ seen, e ∈ set)
    (hrest : ∀ e ∈ rest, e ∈ set) : ∃ statuses s',
      deliver digest config rest s = .ok (statuses, s') ∧
      Tables digest config version (seen ++ rest) s' ∧ Answered seen rest statuses := by
  induction rest generalizing seen s with
  | nil =>
      refine ⟨[], s, rfl, by rwa [List.append_nil], rfl, fun before e after heq => ?_⟩
      exact absurd heq.symm (by simp)
  | cons e rest ih =>
      rw [List.forall_mem_cons] at hrest
      obtain ⟨row, hrow⟩ := (hstorable e hrest.1).has_row digest
      have hversion := (hstorable e hrest.1).version
      have hrecord : s.record digest config e = .ok (s.decided row config e.identityBytes) :=
        h.sound.record_eq (fun hv2 => h.version.trans (hversion hv2)) hrow
      obtain ⟨status, s₁, hdecided, hfirst, hlater, htables⟩ : ∃ status s₁,
          s.decided row config e.identityBytes = (status, s₁) ∧
          (e ∉ seen → status = .committed) ∧ (e ∈ seen → status = .duplicate) ∧
          Tables digest config version (seen ++ [e]) s₁ := by
        by_cases hin : e ∈ seen
        · exact ⟨_, _, h.again hinj hrow hin, fun hnot => absurd hin hnot, fun _ => rfl,
            h.repeated hin⟩
        · obtain ⟨hprior, hadmitted⟩ := h.admitted hset hseen hrest.1 hrow hin
          refine ⟨.committed, s.commit row config e.identityBytes, ?_, fun _ => rfl,
            fun hin' => absurd hin' hin, h.commit hversion hrow hprior hadmitted⟩
          simp only [Store.decided, hprior, refuses_eq_false.2 hadmitted, Bool.false_eq_true,
            if_false]
      have hseen' : ∀ e' ∈ seen ++ [e], e' ∈ set := by
        intro e' he'
        rcases List.mem_append.1 he' with he' | he'
        · exact hseen e' he'
        · rw [List.mem_singleton.1 he']
          exact hrest.1
      obtain ⟨statuses, s', hdeliver, htables', hanswered⟩ := ih htables hseen' hrest.2
      rw [List.append_assoc, List.singleton_append] at htables'
      refine ⟨status :: statuses, s', ?_, htables', hanswered.cons hfirst hlater⟩
      rw [Recorder.deliver, hrecord, hdecided, bind_of_ok]
      simp only [hdeliver]
      rfl

/-- The same events make the same tables. -/
theorem Tables.perm {seen' : List RecordedEvent} (h : Tables digest config version seen s)
    (h' : Tables digest config version seen' s') (hsame : ∀ e, e ∈ seen' ↔ e ∈ seen) :
    s'.events.Perm s.events ∧ s'.attempts.Perm s.attempts ∧ s'.outbox.Perm s.outbox := by
  have hevents : ∀ row, row ∈ s'.events ↔ row ∈ s.events := by
    intro row
    simp only [h.events, h'.events, hsame]
  have hnodup : ∀ {s : Store}, Sound digest s → s.events.Nodup := fun hs =>
    (List.Pairwise.imp (fun {a b} hclash (heq : a = b) => by
      rw [heq, Table.byKey, clash_self] at hclash
      cases hclash) hs.distinct_events)
  refine ⟨?_, ?_, ?_⟩
  · exact (List.perm_ext_iff_of_nodup (hnodup h'.sound) (hnodup h.sound)).2 hevents
  · refine (List.perm_ext_iff_of_nodup (h'.sound.attempts.of_map _)
      (h.sound.attempts.of_map _)).2 fun a => ?_
    simp only [h.attempts, h'.attempts, hsame]
  · refine (List.perm_ext_iff_of_nodup (h'.sound.outbox.of_map _)
      (h.sound.outbox.of_map _)).2 fun o => ?_
    simp only [h.outbox, h'.outbox, hevents]

/-- The stores that recording makes. -/
inductive Recorded (digest : Text → String) (version : Nat) : Store → Prop where
  | empty : Recorded digest version (.empty version)
  | record {s s' : Store} {config : RecorderConfig} {e : RecordedEvent} {status : ReceiptStatus}
      (prior : Recorded digest version s)
      (call : s.record digest config e = .ok (status, s')) : Recorded digest version s'

theorem Recorded.sound (h : Recorded digest version s) : Sound digest s := by
  induction h with
  | empty => exact sound_empty version
  | record _ call ih => exact ih.record call

theorem Recorded.version_eq (h : Recorded digest version s) : s.version = version := by
  induction h with
  | empty => rfl
  | @record s s' config e status prior call ih =>
      obtain ⟨row, -, -, heq⟩ := prior.sound.record_ok call
      rcases decided_cases s row config e.identityBytes with hsame | ⟨-, -, hcommit⟩
      · rw [← heq] at hsame
        rw [show s' = s from hsame, ih]
      · rw [hcommit, Prod.mk.injEq] at heq
        rw [heq.2]
        exact ih

/-- Events of a consistent set that a store can hold are committed at their first delivery
and duplicates at every later one, and their order leaves no trace; an event that has the
name or the place of a stored one, but other bytes, is a conflict and changes nothing; and
what finished an attempt is its last event. -/
theorem ledger_confluent (hinj : Function.Injective digest) :
    (∀ (config : RecorderConfig) (set : Set RecordedEvent), Consistent set →
      (∀ e ∈ set, Storable version e) → ∀ l : List RecordedEvent, (∀ e ∈ l, e ∈ set) →
        ∃ statuses s, deliver digest config l (.empty version) = .ok (statuses, s) ∧
          statuses.length = l.length ∧
          (∀ before e after, l = before ++ e :: after →
            (e ∉ before → statuses[before.length]? = some .committed) ∧
              (e ∈ before → statuses[before.length]? = some .duplicate)) ∧
          ∀ l' : List RecordedEvent, (∀ e, e ∈ l' ↔ e ∈ l) → ∀ statuses' s',
            deliver digest config l' (.empty version) = .ok (statuses', s') →
              s'.events.Perm s.events ∧ s'.attempts.Perm s.attempts ∧
                s'.outbox.Perm s.outbox) ∧
    ∀ s, Recorded digest version s →
      (∀ (config : RecorderConfig) (e : RecordedEvent) row, Storable version e →
        rowOf digest e = .ok row → ∀ stored ∈ s.events,
          (stored.event = row.event ∨
            stored.attempt = row.attempt ∧ stored.revision = row.revision) →
          stored.payload ≠ row.payload → s.record digest config e = .ok (.conflict, s)) ∧
      ∀ f ∈ s.events, f.kind = .attemptFinished → ∀ e ∈ s.events, e.attempt = f.attempt →
        e.revision ≤ f.revision ∧ (e.kind = .attemptFinished → e = f) := by
  refine ⟨fun config set hset hstorable l hl => ?_, fun s hs => ⟨?_, ?_⟩⟩
  · obtain ⟨statuses, s, hdeliver, htables, hlength, hanswered⟩ :=
      tables_empty.deliver config hinj hset hstorable l (by simp) hl
    refine ⟨statuses, s, hdeliver, hlength, hanswered, fun l' hsame statuses' s' hdeliver' => ?_⟩
    obtain ⟨statuses'', s'', hdeliver'', htables', -⟩ := tables_empty.deliver config hinj hset
      hstorable l' (by simp) fun e he => hl e ((hsame e).1 he)
    rw [hdeliver', Except.ok.injEq, Prod.mk.injEq] at hdeliver''
    rw [hdeliver''.2]
    exact htables.perm htables' hsame
  · intro config e row hstorable hrow stored hstored hclash hpayload
    have hversion : e.isV2 = true → s.version = 2 := fun hv2 =>
      hs.version_eq.trans (hstorable.version hv2)
    have hkeys : stored.keys.clash row.keys = true := by
      rw [clash_iff]
      refine hclash.imp id fun h => ?_
      rw [EventRow.keys, EventRow.keys, h.1, h.2]
    obtain ⟨event, hevent, -⟩ := hs.sound.live stored hstored
    have hne : stored.sha256 ≠ row.sha256 := by
      rw [(rowOf_ok hevent).sha256, (rowOf_ok hrow).sha256]
      exact fun h => hpayload (hinj h)
    rw [hs.sound.record_eq hversion hrow,
      hs.sound.decided_stored hinj hrow (.inl ⟨stored, hstored, rfl, rfl⟩) hkeys, if_neg hne]
  · intro f hf hfinished e he hattempt
    refine ⟨hs.sound.final f hf hfinished e he hattempt, fun hkind => ?_⟩
    have hle := hs.sound.final f hf hfinished e he hattempt
    have hle' := hs.sound.final e he hkind f hf hattempt.symm
    refine hs.sound.eq_of_clash he hf (clash_iff.2 (.inr ?_))
    rw [EventRow.keys, EventRow.keys, hattempt, Nat.le_antisymm hle hle']

section Attempt

/-- An event of one attempt, which reports no counters. -/
def attemptEvent (eventId : String) (revision : UInt64) (kind : EventKind) (atMs : UInt64) :
    RecordedEvent :=
  .v1 {
    schema := schema, producerId := "p", requestId := "r", attemptId := "a", eventId, revision
    kind, startedAtMs := atMs, observedAtMs := atMs, provider := "v", modelAlias := "m"
    upstreamModel := "u", reportedModel := none, providerRequestId := none
    providerResponseId := none, profile := .chatV1
    configurationSha256 := String.ofList (List.replicate 64 '0'), usage := .default
    upstream := .unknown, gateway := .unknown, finality := .unobserved
    observationIncomplete := false }

def startedEvent : RecordedEvent := attemptEvent "s" 0 .attemptStarted 1

def finishedEvent : RecordedEvent := attemptEvent "f" 1 .attemptFinished 1

theorem consistent_attempt : Consistent {startedEvent, finishedEvent} where
  names := by
    rintro e (rfl | rfl) e' (rfl | rfl) h
    all_goals first | rfl | exact absurd h (by decide)
  places := by
    rintro e (rfl | rfl) e' (rfl | rfl) - h
    all_goals first | rfl | exact absurd h (by decide)
  identities := by
    rintro e (rfl | rfl) e' (rfl | rfl) -
    all_goals rfl
  finished := by
    rintro f (rfl | rfl) hkind e (rfl | rfl) -
    all_goals first | exact absurd hkind (by decide) | decide

theorem bytes_of_isSome {e : RecordedEvent} (h : e.bytes.toOption.isSome = true) :
    ∃ b, e.bytes = .ok b := by
  cases hbytes : e.bytes with
  | error e =>
      rw [hbytes] at h
      cases h
  | ok b => exact ⟨b, rfl⟩

theorem storable_attempt : ∀ e ∈ ({startedEvent, finishedEvent} : Set RecordedEvent),
    Storable 1 e := by
  rintro e (rfl | rfl)
  · exact ⟨nofun, bytes_of_isSome (by decide +kernel), by decide, by decide, by decide⟩
  · exact ⟨nofun, bytes_of_isSome (by decide +kernel), by decide, by decide, by decide⟩

/-- The end of an attempt is delivered before its beginning, and again. -/
theorem ledger_confluent_attempt : ∃ statuses s,
    deliver String.ofList ⟨[], List.nodup_nil⟩ [finishedEvent, startedEvent, finishedEvent]
      (.empty 1) = .ok (statuses, s) ∧
    statuses[0]? = some .committed ∧ statuses[2]? = some .duplicate := by
  have hinj : Function.Injective String.ofList := fun _ _ h => String.ofList_injective h
  obtain ⟨statuses, s, hdeliver, -, hanswered, -⟩ := (ledger_confluent hinj).1
    ⟨[], List.nodup_nil⟩ {startedEvent, finishedEvent} consistent_attempt storable_attempt
    [finishedEvent, startedEvent, finishedEvent] (by simp)
  refine ⟨statuses, s, hdeliver, ?_, ?_⟩
  · exact (hanswered [] finishedEvent _ rfl).1 (by simp)
  · exact (hanswered [finishedEvent, startedEvent] finishedEvent [] rfl).2 (by simp)

/-- An event at a time that no table holds is valid, and is not recorded. -/
theorem ledger_unstorable : ¬ ∀ (digest : Text → String), Function.Injective digest →
    ∀ (config : RecorderConfig) (set : Set RecordedEvent), Consistent set → ∀ e ∈ set,
      ∃ s', (Store.empty 2).record digest config e = .ok (.committed, s') := by
  intro hall
  have hinj : Function.Injective String.ofList := fun _ _ h => String.ofList_injective h
  obtain ⟨s', hrecord⟩ := hall String.ofList hinj ⟨[], List.nodup_nil⟩ _
    (consistent_singleton (attemptEvent "s" 0 .attemptStarted 9223372036854775808)) _ rfl
  obtain ⟨row, hrow⟩ := (record_input hrecord).2
  obtain ⟨-, hstarted, -⟩ := (rowOf_ok hrow).fits
  rw [(rowOf_ok hrow).startedAtMs] at hstarted
  have htime : (9223372036854775808 : UInt64).toNat = 2 ^ 63 := by decide
  exact Nat.lt_irrefl _ (htime ▸ hstarted)

end Attempt

end Delivering

end ResponseGateway.Recorder
