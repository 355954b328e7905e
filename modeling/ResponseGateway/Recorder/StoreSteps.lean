import ResponseGateway.Recorder.Store

/-!
What the calls of the store do to its tables. `Sound` holds of every store that the
recorder makes: live and removed events have distinct names and places, live rows are
those of events whose identity is known, the last event of an attempt has the greatest
revision, and the attempts that were removed are gone for good.
-/

namespace ResponseGateway.Recorder
open Checked Usage

variable {digest : Text → String} {config : RecorderConfig} {event event' : RecordedEvent}
  {row row' : EventRow} {s s' : Store}

section Rows

theorem clash_comm (a b : Keys) : a.clash b = b.clash a := by
  simp only [Keys.clash, eq_comm]

theorem clash_self (a : Keys) : a.clash a = true := by
  simp only [Keys.clash, decide_true, Bool.true_or]

theorem clash_iff {a b : Keys} : a.clash b = true ↔ a.event = b.event ∨ a.place = b.place := by
  simp only [Keys.clash, Bool.or_eq_true, decide_eq_true_eq]

theorem toI64_ok {n : UInt64} {m : Nat} : toI64 n = .ok m ↔ m = n.toNat ∧ m < 2 ^ 63 := by
  rw [toI64]
  split
  · next h =>
      rw [Except.ok.injEq]
      exact ⟨fun h' => ⟨h'.symm, h' ▸ h⟩, fun h' => h'.1.symm⟩
  · next h => exact ⟨nofun, fun ⟨h', hlt⟩ => absurd (h' ▸ hlt) h⟩

/-- The row of an event holds it. -/
structure RowOf (digest : Text → String) (event : RecordedEvent) (row : EventRow) : Prop where
  payload : event.bytes = .ok row.payload
  sha256 : row.sha256 = digest row.payload
  named : row.event = (event.view.producerId, event.view.eventId)
  attempt : row.attempt = (event.view.producerId, event.view.attemptId)
  revision : row.revision = event.view.revision.toNat
  kind : row.kind = event.view.kind
  startedAtMs : row.startedAtMs = event.view.startedAtMs.toNat
  observedAtMs : row.observedAtMs = event.view.observedAtMs.toNat
  fits : row.revision < 2 ^ 63 ∧ row.startedAtMs < 2 ^ 63 ∧ row.observedAtMs < 2 ^ 63

theorem rowOf_ok (h : rowOf digest event = .ok row) : RowOf digest event row := by
  simp only [rowOf, bind_ok, pure_ok, toI64_ok] at h
  obtain ⟨payload, hbytes, revision, ⟨hrevision, hr⟩, started, ⟨hstarted, hs⟩, observed,
    ⟨hobserved, ho⟩, rfl⟩ := h
  refine ⟨?_, rfl, rfl, rfl, hrevision, rfl, hstarted, hobserved, hr, hs, ho⟩
  cases hevent : event.bytes with
  | error e =>
      rw [hevent] at hbytes
      cases hbytes
  | ok b =>
      rw [hevent] at hbytes
      cases hbytes
      rfl

/-- Rows with the same bytes are rows of one event. -/
theorem RowOf.unique (h : rowOf digest event = .ok row) (h' : rowOf digest event' = .ok row')
    (hpayload : row.payload = row'.payload) : event = event' ∧ row = row' := by
  have hbytes := (rowOf_ok h).payload
  rw [hpayload] at hbytes
  obtain rfl := bytes_injective hbytes (rowOf_ok h').payload
  rw [h, Except.ok.injEq] at h'
  exact ⟨rfl, h'⟩

end Rows

/-- Every row reads back, and belongs to what is known of its attempt and its event. -/
structure Intact (digest : Text → String) (s : Store) : Prop where
  distinct : Table.Distinct Keys.clash
    (s.events.map (·.keys) ++ s.tombstones.map (·.keys))
  live : ∀ row ∈ s.events, ∃ event, rowOf digest event = .ok row ∧
    (event.isV2 = true → s.version = 2) ∧
    ⟨row.producerId, row.attemptId, event.identityBytes⟩ ∈ s.attempts
  removed : ∀ t ∈ s.tombstones, ∃ event row, rowOf digest event = .ok row ∧
    (event.isV2 = true → s.version = 2) ∧ t = row.tombstone
  attempts : (s.attempts.map (·.attempt)).Nodup
  outbox : (s.outbox.map (·.key)).Nodup
  delivered : ∀ o ∈ s.outbox, ∃ e ∈ s.events, e.event = o.event

/-- What every store of the recorder satisfies. -/
structure Sound (digest : Text → String) (s : Store) : Prop extends Intact digest s where
  final : ∀ f ∈ s.events, f.kind = .attemptFinished → ∀ e ∈ s.events, e.attempt = f.attempt →
    e.revision ≤ f.revision
  retired : ∀ t ∈ s.tombstones, s.tombstones.any (fun u => u.attempt = t.attempt &&
    u.kind = .attemptFinished) = true ∧ ∀ e ∈ s.events, e.attempt ≠ t.attempt

theorem intact_empty (version : Nat) : Intact digest (.empty version) where
  distinct := .nil
  live := nofun
  removed := nofun
  attempts := .nil
  outbox := .nil
  delivered := nofun

theorem sound_empty (version : Nat) : Sound digest (.empty version) where
  toIntact := intact_empty version
  final := nofun
  retired := nofun

namespace Intact

theorem distinct_events (h : Intact digest s) :
    Table.Distinct (Table.byKey Keys.clash EventRow.keys) s.events :=
  Table.distinct_byKey.2 (Table.distinct_append.1 h.distinct).1

/-- Live rows that clash are one row. -/
theorem eq_of_clash (h : Intact digest s) (hrow : row ∈ s.events) (hrow' : row' ∈ s.events)
    (hclash : row.keys.clash row'.keys = true) : row = row' :=
  h.distinct_events.eq_of_clash (fun a b => clash_comm a.keys b.keys) hrow hrow' hclash

end Intact

section Recording

theorem prior_eq_none : s.prior row = none ↔ (∀ e ∈ s.events, e.keys.clash row.keys = false) ∧
    ∀ t ∈ s.tombstones, t.keys.clash row.keys = false := by
  rw [Store.prior, List.head?_eq_none_iff, List.append_eq_nil_iff, List.map_eq_nil_iff,
    List.map_eq_nil_iff, List.filter_eq_nil_iff, List.filter_eq_nil_iff]
  simp only [Bool.not_eq_true]

/-- What is left of an event is in a row with its name or its place. -/
theorem prior_eq_some {old : String} {payload : Option Text}
    (h : s.prior row = some (old, payload)) :
    (∃ e ∈ s.events, e.keys.clash row.keys = true ∧ old = e.sha256 ∧ payload = some e.payload) ∨
      ∃ t ∈ s.tombstones, t.keys.clash row.keys = true ∧ old = t.sha256 ∧ payload = none := by
  rcases List.mem_append.1 (List.mem_of_head? h) with hmem | hmem
  · obtain ⟨e, he, hkept⟩ := List.mem_map.1 hmem
    obtain ⟨he, hclash⟩ := List.mem_filter.1 he
    simp only [EventRow.kept, Prod.mk.injEq] at hkept
    exact .inl ⟨e, he, hclash, hkept.1.symm, hkept.2.symm⟩
  · obtain ⟨t, ht, hkept⟩ := List.mem_map.1 hmem
    obtain ⟨ht, hclash⟩ := List.mem_filter.1 ht
    simp only [TombstoneRow.kept, Prod.mk.injEq] at hkept
    exact .inr ⟨t, ht, hclash, hkept.1.symm, hkept.2.symm⟩

/-- The tables with an event more. -/
def Store.commit (s : Store) (row : EventRow) (config : RecorderConfig) (identity : Text) : Store :=
  { s with
    attempts := (s.insertAttempt ⟨row.producerId, row.attemptId, identity⟩).attempts
    events := s.events ++ [row]
    outbox := s.outbox ++ config.destinations.map (Store.pendingAt row) }

theorem distinct_sameKey {keys : List ((String × String) × String)} :
    Table.Distinct sameKey keys ↔ keys.Nodup := by
  simp only [Table.Distinct, sameKey, decide_eq_false_iff_not]
  rfl

theorem pendingAt_key (row : EventRow) (d : Destination) :
    (Store.pendingAt row d).key = (row.event, d.id) := rfl

/-- The outbox stays distinct when rows of a new event are put in. -/
theorem Intact.outbox_nodup (h : Intact digest s)
    (hnew : ∀ e ∈ s.events, e.keys.clash row.keys = false) :
    ((s.outbox ++ config.destinations.map (Store.pendingAt row)).map (·.key)).Nodup := by
  rw [List.map_append, List.nodup_append]
  refine ⟨h.outbox, ?_, ?_⟩
  · rw [List.map_map]
    have hids := config.distinct
    rw [← List.nodup_map_iff (f := fun id => (row.event, id)) (by
      intro a b hab
      exact (Prod.mk.injEq _ _ _ _ ▸ hab).2), List.map_map] at hids
    exact hids
  · intro key hkey key' hkey' heq
    obtain ⟨o, ho, rfl⟩ := List.mem_map.1 hkey
    obtain ⟨o', ho', rfl⟩ := List.mem_map.1 hkey'
    obtain ⟨d, -, rfl⟩ := List.mem_map.1 ho'
    obtain ⟨e, he, hevent⟩ := h.delivered o ho
    have hclash : e.keys.clash row.keys = true :=
      clash_iff.2 (.inl (hevent.trans (congrArg Prod.fst heq)))
    rw [hnew e he] at hclash
    cases hclash

theorem Intact.insert_ok (h : Intact digest s) (hnew : ∀ e ∈ s.events, e.keys.clash row.keys = false)
    (identity : Text) : s.insert row config identity = .ok (s.commit row config identity) := by
  have hattempt : ∀ a, (s.insertAttempt a).events = s.events ∧
      (s.insertAttempt a).outbox = s.outbox ∧
      s.insertAttempt a = { s with attempts := (s.insertAttempt a).attempts } := by
    intro a
    rw [Store.insertAttempt]
    split <;> exact ⟨rfl, rfl, rfl⟩
  obtain ⟨hevents, houtbox, hattempts⟩ := hattempt ⟨row.producerId, row.attemptId, identity⟩
  have hinsert : Table.insert (Table.byKey Keys.clash EventRow.keys) s.events row =
      some (s.events ++ [row]) := Table.insert_eq_some.2 ⟨hnew, rfl⟩
  have hpending : (config.destinations.map (Store.pendingAt row)).foldlM
      (Table.insert (Table.byKey sameKey OutboxRow.key)) s.outbox =
        some (s.outbox ++ config.destinations.map (Store.pendingAt row)) :=
    Table.insert_all (Table.distinct_byKey.2 (distinct_sameKey.2 (h.outbox_nodup hnew)))
  simp only [Store.insert, Store.insertEvent, Store.insertOutbox, hevents, houtbox, hinsert,
    okOr_some, bind_of_ok, pure_bind, hpending]
  rw [hattempts, Store.commit]
  rfl

/-- What `record` decides about the row of an event. -/
def Store.decided (s : Store) (row : EventRow) (config : RecorderConfig) (identity : Text) :
    ReceiptStatus × Store :=
  match s.prior row with
  | some (old, _) => (if old = row.sha256 then .duplicate else .conflict, s)
  | none =>
      if s.refuses row identity then (.conflict, s) else (.committed, s.commit row config identity)

/-- On an intact store `record` fails for no other reason than the event itself. -/
theorem Intact.record_eq (h : Intact digest s) (hversion : event.isV2 = true → s.version = 2)
    (hrow : rowOf digest event = .ok row) :
    s.record digest config event = .ok (s.decided row config event.identityBytes) := by
  have hcheck : (event.isV2 && decide (s.version ≠ 2)) = false := by
    cases hv2 : event.isV2 with
    | true => simp only [hversion hv2, ne_eq, not_true_eq_false, decide_false, Bool.and_false]
    | false => rfl
  rw [Store.record, hcheck, rejectIf_false, bind_of_ok, hrow, bind_of_ok, Store.decided]
  cases hprior : s.prior row with
  | some kept =>
      obtain ⟨old, payload⟩ := kept
      rcases prior_eq_some hprior with ⟨e, he, -, rfl, rfl⟩ | ⟨t, -, -, rfl, rfl⟩
      · obtain ⟨stored, hstored, -⟩ := h.live e he
        have hread := fromStoredBytes_bytes digest (rowOf_ok hstored).payload
        rw [← (rowOf_ok hstored).sha256] at hread
        simp only [hread]
        rfl
      · rfl
  | none =>
      obtain ⟨hnew, -⟩ := prior_eq_none.1 hprior
      simp only [h.insert_ok hnew]
      split <;> rfl

end Recording

section Admitting

theorem max_any_gt {l : List Nat} {n : Nat} : l.max?.any (· > n) = false ↔ ∀ m ∈ l, m ≤ n := by
  cases hmax : l.max? with
  | none =>
      rw [List.max?_eq_none_iff.1 hmax]
      simp
  | some m =>
      rw [Option.any_some, decide_eq_false_iff_not, not_lt]
      exact List.max?_le_iff hmax

theorem min_any_le {l : List Nat} {n : Nat} {b : Bool} :
    l.min?.any (fun v => decide (n ≥ v) || b) = false ↔ ∀ v ∈ l, n < v ∧ b = false := by
  cases hmin : l.min? with
  | none =>
      rw [List.min?_eq_none_iff.1 hmin]
      simp
  | some v =>
      obtain ⟨hmem, hle⟩ := List.min?_eq_some_iff.1 hmin
      rw [Option.any_some, Bool.or_eq_false_iff, decide_eq_false_iff_not, not_le]
      exact ⟨fun h w hw => ⟨Nat.lt_of_lt_of_le h.1 (hle w hw), h.2⟩, fun h => h v hmem⟩

theorem mem_sameAttempt {e : EventRow} :
    e ∈ s.sameAttempt row ↔ e ∈ s.events ∧ e.attempt = row.attempt := by
  rw [Store.sameAttempt, List.mem_filter, decide_eq_true_eq]

/-- A row that no guard refuses. -/
structure Admitted (s : Store) (row : EventRow) (identity : Text) : Prop where
  unretired : ∀ t ∈ s.tombstones, t.attempt = row.attempt → t.kind ≠ .attemptFinished
  identified : ∀ a, s.attempts.find? (·.attempt = row.attempt) = some a → a.identity = identity
  later : row.kind = .attemptFinished → ∀ e ∈ s.events, e.attempt = row.attempt →
    e.revision ≤ row.revision
  unfinished : ∀ f ∈ s.events, f.attempt = row.attempt → f.kind = .attemptFinished →
    row.revision < f.revision ∧ row.kind ≠ .attemptFinished

theorem refuses_eq_false {identity : Text} :
    s.refuses row identity = false ↔ Admitted s row identity := by
  have hretired : s.retired row = false ↔
      ∀ t ∈ s.tombstones, t.attempt = row.attempt → t.kind ≠ .attemptFinished := by
    simp only [Store.retired, List.any_eq_false, Bool.and_eq_true, decide_eq_true_eq, not_and,
      ne_eq]
  have hidentified : s.misidentified row identity = false ↔
      ∀ a, s.attempts.find? (·.attempt = row.attempt) = some a → a.identity = identity := by
    rw [Store.misidentified]
    cases s.attempts.find? (·.attempt = row.attempt) with
    | none => simp
    | some a => simp
  have hlater : (decide (row.kind = .attemptFinished) &&
      (s.latestRevision row).any (· > row.revision)) = false ↔
      (row.kind = .attemptFinished → ∀ e ∈ s.events, e.attempt = row.attempt →
        e.revision ≤ row.revision) := by
    rw [Bool.and_eq_false_imp, decide_eq_true_eq, Store.latestRevision, max_any_gt]
    simp only [List.forall_mem_map, mem_sameAttempt, and_imp]
  have hunfinished : (s.finalRevision row).any
      (fun v => row.revision ≥ v || row.kind = .attemptFinished) = false ↔
      ∀ f ∈ s.events, f.attempt = row.attempt → f.kind = .attemptFinished →
        row.revision < f.revision ∧ row.kind ≠ .attemptFinished := by
    rw [Store.finalRevision, min_any_le]
    simp only [List.forall_mem_map, List.mem_filter, mem_sameAttempt, decide_eq_true_eq, and_imp,
      decide_eq_false_iff_not, ne_eq]
  rw [Store.refuses, Bool.or_eq_false_iff, Bool.or_eq_false_iff, Bool.or_eq_false_iff, hretired,
    hidentified, hlater, hunfinished]
  constructor
  · rintro ⟨⟨⟨hunretired, hidentity⟩, hlast⟩, hopen⟩
    exact ⟨hunretired, hidentity, hlast, hopen⟩
  · intro h
    exact ⟨⟨⟨h.unretired, h.identified⟩, h.later⟩, h.unfinished⟩

/-- The attempts keep what is known of every attempt. -/
theorem insertAttempt_attempts (s : Store) (row : EventRow) (identity : Text)
    (hidentified : ∀ a, s.attempts.find? (·.attempt = row.attempt) = some a →
      a.identity = identity) (hnodup : (s.attempts.map (·.attempt)).Nodup) :
    ((s.insertAttempt ⟨row.producerId, row.attemptId, identity⟩).attempts.map (·.attempt)).Nodup ∧
      ∀ a, a ∈ (s.insertAttempt ⟨row.producerId, row.attemptId, identity⟩).attempts ↔
        a ∈ s.attempts ∨ a = ⟨row.producerId, row.attemptId, identity⟩ := by
  rw [Store.insertAttempt]
  split
  · next hany =>
      refine ⟨hnodup, fun a => ⟨.inl, ?_⟩⟩
      rintro (ha | rfl)
      · exact ha
      · obtain ⟨b, hb, hattempt⟩ := List.any_eq_true.1 hany
        rw [decide_eq_true_eq] at hattempt
        cases hfind : s.attempts.find? (·.attempt = row.attempt) with
        | none =>
            have hnone := List.find?_eq_none.1 hfind b hb
            rw [decide_eq_true_eq] at hnone
            exact absurd hattempt hnone
        | some c =>
            have hc := List.find?_some hfind
            rw [decide_eq_true_eq] at hc
            have hidentity := hidentified c hfind
            have hmem := List.mem_of_find?_eq_some hfind
            obtain ⟨producerId, attemptId, known⟩ := c
            simp only [AttemptRow.attempt, EventRow.attempt, Prod.mk.injEq] at hc
            simp only at hidentity
            rwa [hc.1, hc.2, hidentity] at hmem
  · next hnone =>
      refine ⟨?_, fun a => by simp⟩
      rw [List.map_append, List.nodup_append]
      refine ⟨hnodup, List.nodup_singleton _, ?_⟩
      rintro key hkey key' hkey' rfl
      obtain ⟨b, hb, rfl⟩ := List.mem_map.1 hkey
      refine hnone (List.any_eq_true.2 ⟨b, hb, ?_⟩)
      rw [decide_eq_true_eq]
      exact List.mem_singleton.1 hkey'

/-- Recording an event keeps the store intact. -/
theorem Intact.commit (h : Intact digest s) (hversion : event.isV2 = true → s.version = 2)
    (hrow : rowOf digest event = .ok row) (hprior : s.prior row = none)
    (hidentified : ∀ a, s.attempts.find? (·.attempt = row.attempt) = some a →
      a.identity = event.identityBytes) :
    Intact digest (s.commit row config event.identityBytes) := by
  obtain ⟨hlive, hgone⟩ := prior_eq_none.1 hprior
  obtain ⟨hnodup, hattempts⟩ :=
    insertAttempt_attempts s row event.identityBytes hidentified h.attempts
  refine ⟨?_, ?_, h.removed, hnodup, h.outbox_nodup hlive, ?_⟩
  · have hperm : (s.events.map (·.keys) ++ s.tombstones.map (·.keys) ++ [row.keys]).Perm
        ((s.events ++ [row]).map (·.keys) ++ s.tombstones.map (·.keys)) := by
      rw [List.map_append, List.append_assoc, List.append_assoc]
      exact List.perm_append_comm.append_left _
    refine Table.Distinct.perm clash_comm ?_ hperm
    refine Table.distinct_append.2 ⟨h.distinct, List.pairwise_singleton _ _, ?_⟩
    intro keys hkeys keys' hkeys'
    rw [List.mem_singleton.1 hkeys']
    rcases List.mem_append.1 hkeys with hkeys | hkeys
    · obtain ⟨e, he, rfl⟩ := List.mem_map.1 hkeys
      exact hlive e he
    · obtain ⟨t, ht, rfl⟩ := List.mem_map.1 hkeys
      exact hgone t ht
  · intro e he
    rcases List.mem_append.1 he with he | he
    · obtain ⟨stored, hstored, hv2, hidentity⟩ := h.live e he
      exact ⟨stored, hstored, hv2, (hattempts _).2 (.inl hidentity)⟩
    · rw [List.mem_singleton.1 he]
      exact ⟨event, hrow, hversion, (hattempts _).2 (.inr rfl)⟩
  · intro o ho
    rcases List.mem_append.1 ho with ho | ho
    · obtain ⟨e, he, hevent⟩ := h.delivered o ho
      exact ⟨e, List.mem_append_left _ he, hevent⟩
    · obtain ⟨d, -, rfl⟩ := List.mem_map.1 ho
      exact ⟨row, List.mem_append_right _ (List.mem_singleton_self _), rfl⟩

/-- Recording an event that is admitted keeps the store sound. -/
theorem Sound.commit (h : Sound digest s) (hversion : event.isV2 = true → s.version = 2)
    (hrow : rowOf digest event = .ok row) (hprior : s.prior row = none)
    (hadmitted : Admitted s row event.identityBytes) :
    Sound digest (s.commit row config event.identityBytes) := by
  have hunknown : ∀ t ∈ s.tombstones, t.attempt ≠ row.attempt := by
    intro t ht hattempt
    obtain ⟨u, hu, hfinished⟩ := List.any_eq_true.1 (h.retired t ht).1
    rw [Bool.and_eq_true, decide_eq_true_eq, decide_eq_true_eq] at hfinished
    exact hadmitted.unretired u hu (hfinished.1.trans hattempt) hfinished.2
  refine ⟨h.toIntact.commit hversion hrow hprior hadmitted.identified, ?_, ?_⟩
  · intro f hf hfinished e he hattempt
    rcases List.mem_append.1 hf with hf | hf <;> rcases List.mem_append.1 he with he | he
    · exact h.final f hf hfinished e he hattempt
    · rw [List.mem_singleton.1 he] at hattempt ⊢
      exact Nat.le_of_lt (hadmitted.unfinished f hf hattempt.symm hfinished).1
    · rw [List.mem_singleton.1 hf] at hattempt hfinished ⊢
      exact hadmitted.later hfinished e he hattempt
    · rw [List.mem_singleton.1 hf, List.mem_singleton.1 he]
  · intro t ht
    refine ⟨(h.retired t ht).1, fun e he => ?_⟩
    rcases List.mem_append.1 he with he | he
    · exact (h.retired t ht).2 e he
    · rw [List.mem_singleton.1 he]
      exact (hunknown t ht).symm

end Admitting

section Deciding

/-- A live or removed event with its keys and its digest. -/
def Stored (s : Store) (keys : Keys) (sha256 : String) : Prop :=
  (∃ e ∈ s.events, e.keys = keys ∧ e.sha256 = sha256) ∨
    ∃ t ∈ s.tombstones, t.keys = keys ∧ t.sha256 = sha256

variable {keys keys' : Keys} {sha256 sha256' : String}

theorem Stored.of_event (h : Stored s keys sha256) (hs : Intact digest s) :
    ∃ stored row, rowOf digest stored = .ok row ∧ row.keys = keys ∧ row.sha256 = sha256 := by
  rcases h with ⟨e, he, rfl, rfl⟩ | ⟨t, ht, rfl, rfl⟩
  · obtain ⟨stored, hstored, -⟩ := hs.live e he
    exact ⟨stored, e, hstored, rfl, rfl⟩
  · obtain ⟨stored, row, hstored, -, rfl⟩ := hs.removed t ht
    exact ⟨stored, row, hstored, rfl, rfl⟩

theorem Stored.mem (h : Stored s keys sha256) :
    keys ∈ s.events.map (·.keys) ++ s.tombstones.map (·.keys) := by
  rcases h with ⟨e, he, rfl, -⟩ | ⟨t, ht, rfl, -⟩
  · exact List.mem_append_left _ (List.mem_map_of_mem he)
  · exact List.mem_append_right _ (List.mem_map_of_mem ht)

/-- No two stored events have a key in common. -/
theorem Stored.unique (h : Stored s keys sha256) (h' : Stored s keys' sha256')
    (hs : Intact digest s) (hclash : keys.clash keys' = true) :
    keys = keys' ∧ sha256 = sha256' := by
  obtain rfl := hs.distinct.eq_of_clash clash_comm h.mem h'.mem hclash
  refine ⟨rfl, ?_⟩
  have happend := (Table.distinct_append.1 hs.distinct).2
  have hcross : ∀ e ∈ s.events, ∀ t ∈ s.tombstones, e.keys ≠ t.keys := by
    intro e he t ht heq
    have hno := happend.2 _ (List.mem_map_of_mem he) _ (List.mem_map_of_mem ht)
    rw [heq, clash_self] at hno
    cases hno
  rcases h with ⟨e, he, rfl, rfl⟩ | ⟨t, ht, rfl, rfl⟩ <;>
    rcases h' with ⟨e', he', hkeys, rfl⟩ | ⟨t', ht', hkeys, rfl⟩
  · rw [hs.eq_of_clash he' he (by rw [hkeys, clash_self])]
  · exact absurd hkeys.symm (hcross e he t' ht')
  · exact absurd hkeys (hcross e' he' t ht)
  · have hone := (Table.distinct_byKey.2 happend.1).eq_of_clash
      (fun a b => clash_comm a.keys b.keys) ht' ht (by rw [Table.byKey, hkeys, clash_self])
    rw [hone]

/-- An event with the digest of a stored one is that event. -/
theorem Stored.keys_eq (hinj : Function.Injective digest) (h : Stored s keys row.sha256)
    (hs : Intact digest s) (hrow : rowOf digest event = .ok row) : keys = row.keys := by
  obtain ⟨stored, row', hstored, rfl, hsha⟩ := h.of_event hs
  have hpayload : row'.payload = row.payload := by
    apply hinj
    rw [← (rowOf_ok hstored).sha256, ← (rowOf_ok hrow).sha256, hsha]
  rw [(RowOf.unique hstored hrow hpayload).2]

/-- An event that has a key of a stored one is that event, or in conflict with it. -/
theorem Intact.decided_stored (hinj : Function.Injective digest) (hs : Intact digest s)
    (hrow : rowOf digest event = .ok row) (h : Stored s keys sha256)
    (hclash : keys.clash row.keys = true) (identity : Text) :
    s.decided row config identity =
      (if sha256 = row.sha256 then .duplicate else .conflict, s) := by
  rw [Store.decided]
  cases hprior : s.prior row with
  | none =>
      obtain ⟨hlive, hgone⟩ := prior_eq_none.1 hprior
      exfalso
      rcases h with ⟨e, he, rfl, -⟩ | ⟨t, ht, rfl, -⟩
      · rw [hlive e he] at hclash
        cases hclash
      · rw [hgone t ht] at hclash
        cases hclash
  | some kept =>
      obtain ⟨old, payload⟩ := kept
      obtain ⟨first, hfirst, hclash'⟩ : ∃ first, Stored s first old ∧
          first.clash row.keys = true := by
        rcases prior_eq_some hprior with ⟨e, he, hc, rfl, -⟩ | ⟨t, ht, hc, rfl, -⟩
        · exact ⟨e.keys, .inl ⟨e, he, rfl, rfl⟩, hc⟩
        · exact ⟨t.keys, .inr ⟨t, ht, rfl, rfl⟩, hc⟩
      have hiff : old = row.sha256 ↔ sha256 = row.sha256 := by
        constructor
        · rintro rfl
          obtain rfl := hfirst.keys_eq hinj hs hrow
          exact (h.unique hfirst hs hclash).2
        · rintro rfl
          obtain rfl := h.keys_eq hinj hs hrow
          exact (hfirst.unique h hs hclash').2
      simp only [hiff]

/-- A call of `record` that does not fail was given an event that the store can hold. -/
theorem record_input {result : ReceiptStatus × Store}
    (h : s.record digest config event = .ok result) :
    (event.isV2 = true → s.version = 2) ∧ ∃ row, rowOf digest event = .ok row := by
  simp only [Store.record, bind_ok, rejectIf_ok] at h
  obtain ⟨_, hcheck, row, hrow, -⟩ := h
  refine ⟨fun hv2 => ?_, row, hrow⟩
  rw [hv2, Bool.true_and, decide_eq_false_iff_not, not_not] at hcheck
  exact hcheck

/-- What `record` decided, when it does not fail. -/
theorem Intact.record_ok (hs : Intact digest s) {result : ReceiptStatus × Store}
    (h : s.record digest config event = .ok result) : ∃ row, rowOf digest event = .ok row ∧
      (event.isV2 = true → s.version = 2) ∧ result = s.decided row config event.identityBytes := by
  obtain ⟨hversion, row, hrow⟩ := record_input h
  rw [hs.record_eq hversion hrow, Except.ok.injEq] at h
  exact ⟨row, hrow, hversion, h.symm⟩

/-- The two things that `record` makes of the tables. -/
theorem decided_cases (s : Store) (row : EventRow) (config : RecorderConfig) (identity : Text) :
    (s.decided row config identity).2 = s ∨ s.prior row = none ∧ Admitted s row identity ∧
      s.decided row config identity = (.committed, s.commit row config identity) := by
  rw [Store.decided]
  cases hprior : s.prior row with
  | some kept => exact .inl rfl
  | none =>
      cases hrefuses : s.refuses row identity with
      | true => exact .inl rfl
      | false => exact .inr ⟨rfl, refuses_eq_false.1 hrefuses, rfl⟩

theorem Sound.record (hs : Sound digest s) {status : ReceiptStatus}
    (h : s.record digest config event = .ok (status, s')) : Sound digest s' := by
  obtain ⟨row, hrow, hversion, heq⟩ := hs.record_ok h
  rcases decided_cases s row config event.identityBytes with hsame | ⟨hprior, hadmitted, hcommit⟩
  · rw [← heq] at hsame
    rwa [show s' = s from hsame]
  · rw [hcommit, Prod.mk.injEq] at heq
    rw [heq.2]
    exact hs.commit hversion hrow hprior hadmitted

end Deciding

end ResponseGateway.Recorder
