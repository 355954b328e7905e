import ResponseGateway.Continuation.StoreSteps

/-!
The invariant that ties sessions, attempts and records together, over every run
of store calls from an empty database. It is stated over lookups: which session
an in-flight attempt belongs to, which attempt a head names, which attempts have
a record.
-/

namespace ResponseGateway.Continuation.SqliteStore
open Checked Method

structure Invariant (db : SqliteStore) : Prop where
  keyed : db.KeyedById
  attempt_session : ∀ a row, db.attempts.get a = some row →
    ∃ s, db.sessions.get row.session = some s ∧ row.epoch ≤ s.epoch
  pending_exists : ∀ id s, db.sessions.get id = some s → s.status.inFlight = true →
    ∃ a row, db.attempts.get a = some row ∧ row.session = id ∧ row.status = .pending
  pending_flight : ∀ id s a row, db.sessions.get id = some s → db.attempts.get a = some row →
    row.session = id → row.status = .pending → s.status.inFlight = true ∧ row.epoch = s.epoch
  pending_unique : ∀ a b row other, db.attempts.get a = some row → db.attempts.get b = some other →
    row.session = other.session → row.status = .pending → other.status = .pending → a = b
  head_finalized : ∀ id s a, db.sessions.get id = some s → s.head = some a →
    ∃ row, db.attempts.get a = some row ∧ row.session = id ∧ row.epoch = s.epoch ∧
      row.status = .finalized
  record_iff : ∀ a, (∃ saved, db.records.get a = some saved) ↔
    ∃ row, db.attempts.get a = some row ∧ row.status = .finalized
  unique_input : ∀ a b row other, db.attempts.get a = some row → db.attempts.get b = some other →
    row.sameInput other = true → a = b

theorem invariant_empty (limit : Nat) : (empty limit).Invariant := by
  constructor <;> simp [empty, KeyedById]

theorem begun_inFlight (status : Status) : status.begun.inFlight = true := by
  cases status <;> rfl

theorem settled_inFlight (status : Status) : status.settled.inFlight = false := by
  cases status <;> rfl

/-- Every transition target is idle, in a later epoch without a head or in the same
one with the same head. -/
theorem transitioned_spec {s t : Session} {kind : String} {portable : Option String}
    (h : transitioned s kind portable = .ok t) :
    t.id = s.id ∧ t.revision = s.revision ∧ t.status.inFlight = false ∧ s.epoch ≤ t.epoch ∧
      (t.head = none ∧ s.epoch < t.epoch ∨ t.head = s.head ∧ t.epoch = s.epoch) := by
  unfold transitioned at h
  split_ifs at h <;> simp only [restart, bind_ok, pure_ok, Except.ok.injEq] at h
  · cases h
    exact ⟨rfl, rfl, rfl, le_rfl, .inr ⟨rfl, rfl⟩⟩
  all_goals
    obtain ⟨_, -, rfl⟩ := h
    exact ⟨rfl, rfl, rfl, by simp, .inl ⟨rfl, by simp⟩⟩

section Preservation

variable {db : SqliteStore}

theorem Invariant.create (hdb : db.Invariant) {uuid : String} {s : Session}
    (fresh : db.sessions.get uuid = none) (id_eq : s.id = uuid)
    (idle : s.status.inFlight = false) (head_eq : s.head = none) :
    ({ db with sessions := db.sessions.insert uuid s } : SqliteStore).Invariant := by
  obtain ⟨hkeyed, hsession, hexists, hflight, hunique, hhead, hrecord, hinput⟩ := hdb
  refine { keyed := keyed_insert hkeyed id_eq, pending_unique := hunique, record_iff := hrecord,
           unique_input := hinput, attempt_session := ?_, pending_exists := ?_,
           pending_flight := ?_, head_finalized := ?_ }
  · intro a row ha
    obtain ⟨t, ht, hle⟩ := hsession a row ha
    exact ⟨t, OrderedMap.get_insert_of_some fresh ht, hle⟩
  · intro id t
    grind [OrderedMap.get_insert]
  · intro id t a row
    grind [OrderedMap.get_insert]
  · intro id t a
    grind [OrderedMap.get_insert]

theorem Invariant.begin (hdb : db.Invariant) {id attempt inputDigest : String} {reserve : Nat}
    {s : Session} (found : db.sessions.get id = some s) (idle : s.status.inFlight = false)
    (fresh : db.attempts.get attempt = none)
    (newInput : ∀ attempt row, db.attempts.get attempt = some row → row.session = id →
      row.epoch = s.epoch → row.inputDigest ≠ inputDigest) :
    ({ db with
      attempts := db.attempts.insert attempt
        { session := id, epoch := s.epoch, inputDigest, status := .pending, reserve }
      sessions := db.sessions.insert id
        { s with status := s.status.begun, revision := s.revision + 1 } } :
      SqliteStore).Invariant := by
  obtain ⟨hkeyed, hsession, hexists, hflight, hunique, hhead, hrecord, hinput⟩ := hdb
  have hbegun := begun_inFlight s.status
  have hnone : ∀ a row, db.attempts.get a = some row → row.session = id →
      row.status ≠ .pending := fun a row ha hown hpending => by
    simpa [idle] using (hflight id s a row found ha hown hpending).1
  constructor
  · exact keyed_insert hkeyed (hkeyed id s found)
  · intro a row
    grind [OrderedMap.get_insert]
  · intro i t ht hf
    by_cases heq : id = i
    · exact ⟨attempt, _, OrderedMap.get_insert_self _ _ _, heq, rfl⟩
    · rw [OrderedMap.get_insert_of_ne _ _ heq] at ht
      obtain ⟨a, row, ha, hown, hpending⟩ := hexists i t ht hf
      exact ⟨a, row, OrderedMap.get_insert_of_some fresh ha, hown, hpending⟩
  · intro i t a row
    grind [OrderedMap.get_insert]
  · intro a b row other
    grind [OrderedMap.get_insert]
  · intro i t a
    grind [OrderedMap.get_insert]
  · intro a
    rw [hrecord a]
    constructor
    · rintro ⟨row, ha, hfin⟩
      exact ⟨row, OrderedMap.get_insert_of_some fresh ha, hfin⟩
    · grind [OrderedMap.get_insert]
  · intro a b row other
    grind [OrderedMap.get_insert, AttemptRow.sameInput]

/-- The end of an attempt, finalized with a record or given up without one. -/
theorem Invariant.settle (hdb : db.Invariant) {id attempt : String} {s t : Session}
    {row : AttemptRow} {status : AttemptStatus} {records : OrderedMap String RecordRow}
    (found : db.sessions.get id = some s) (foundAttempt : db.attempts.get attempt = some row)
    (own : row.session = id) (waiting : row.status = .pending) (ended : status ≠ .pending)
    (id_eq : t.id = id) (epoch_eq : t.epoch = s.epoch) (idle : t.status.inFlight = false)
    (head_eq : t.head = s.head ∨ t.head = some attempt ∧ status = .finalized)
    (records_eq : ∀ a, (∃ saved, records.get a = some saved) ↔
      (∃ saved, db.records.get a = some saved) ∨ a = attempt ∧ status = .finalized) :
    ({ db with
      records
      attempts := db.attempts.insert attempt { row with status }
      sessions := db.sessions.insert id t } : SqliteStore).Invariant := by
  obtain ⟨hkeyed, hsession, hexists, hflight, hunique, hhead, hrecord, hinput⟩ := hdb
  have hepoch := (hflight id s attempt row found foundAttempt own waiting).2
  constructor
  · exact keyed_insert hkeyed id_eq
  · intro a other
    grind [OrderedMap.get_insert]
  · intro i u hu hf
    have hne : id ≠ i := by
      rintro rfl
      rw [OrderedMap.get_insert_self] at hu
      cases hu
      rw [idle] at hf
      cases hf
    rw [OrderedMap.get_insert_of_ne _ _ hne] at hu
    obtain ⟨a, other, ha, hown, hpending⟩ := hexists i u hu hf
    refine ⟨a, other, ?_, hown, hpending⟩
    rw [OrderedMap.get_insert_of_ne, ha]
    rintro rfl
    rw [foundAttempt] at ha
    cases ha
    exact hne (own.symm.trans hown)
  · intro i u a other
    grind [OrderedMap.get_insert]
  · intro a b other other'
    grind [OrderedMap.get_insert]
  · intro i u a
    grind [OrderedMap.get_insert]
  · intro a
    rw [records_eq a, hrecord a]
    grind [OrderedMap.get_insert]
  · intro a b other other'
    grind [OrderedMap.get_insert, AttemptRow.sameInput]

theorem Invariant.transition (hdb : db.Invariant) {id : String} {s t : Session}
    {transitions : OrderedMap String TransitionRow} (found : db.sessions.get id = some s)
    (idle : s.status.inFlight = false) (id_eq : t.id = id) (still : t.status.inFlight = false)
    (epoch_le : s.epoch ≤ t.epoch)
    (head_eq : t.head = none ∧ s.epoch < t.epoch ∨ t.head = s.head ∧ t.epoch = s.epoch) :
    ({ db with sessions := db.sessions.insert id t, transitions } : SqliteStore).Invariant := by
  obtain ⟨hkeyed, hsession, hexists, hflight, hunique, hhead, hrecord, hinput⟩ := hdb
  have hnone : ∀ a row, db.attempts.get a = some row → row.session = id →
      row.status ≠ .pending := fun a row ha hown hpending => by
    simpa [idle] using (hflight id s a row found ha hown hpending).1
  refine { keyed := keyed_insert hkeyed id_eq, pending_unique := hunique, record_iff := hrecord,
           unique_input := hinput, attempt_session := ?_, pending_exists := ?_,
           pending_flight := ?_, head_finalized := ?_ }
  · intro a row ha
    obtain ⟨u, hu, hle⟩ := hsession a row ha
    grind [OrderedMap.get_insert]
  · intro i u
    grind [OrderedMap.get_insert]
  · intro i u a row
    grind [OrderedMap.get_insert]
  · intro i u a
    grind [OrderedMap.get_insert]

theorem Invariant.repair (hdb : db.Invariant) {id : String} {row new : RecordRow}
    (found : db.records.get id = some row) :
    ({ db with records := db.records.insert id new } : SqliteStore).Invariant := by
  refine { hdb with record_iff := fun a => ?_ }
  rw [← hdb.record_iff a]
  grind [OrderedMap.get_insert]

theorem mem_pendingSessions {id : String} : id ∈ db.pendingSessions ↔
    ∃ a row, db.attempts.get a = some row ∧ row.session = id ∧ row.status = .pending := by
  simp only [pendingSessions, List.mem_dedup, List.mem_map, List.mem_filter, decide_eq_true_eq,
    OrderedMap.mem_values]
  constructor
  · rintro ⟨row, ⟨⟨a, ha⟩, hstatus⟩, hsession⟩
    exact ⟨a, row, ha, hsession, hstatus⟩
  · rintro ⟨a, row, ha, hsession, hstatus⟩
    exact ⟨row, ⟨⟨a, ha⟩, hstatus⟩, hsession⟩

theorem givenUp_finalized {row : AttemptRow} :
    row.givenUp.status = .finalized ↔ row.status = .finalized := by
  unfold AttemptRow.givenUp
  split <;> simp [*]

theorem givenUp_status (row : AttemptRow) : row.givenUp.status ≠ .pending := by
  unfold AttemptRow.givenUp
  split <;> simp [*]

theorem givenUp_columns (row : AttemptRow) : row.givenUp.session = row.session ∧
    row.givenUp.epoch = row.epoch ∧ row.givenUp.inputDigest = row.inputDigest := by
  unfold AttemptRow.givenUp
  split <;> exact ⟨rfl, rfl, rfl⟩

theorem get_givenUp {a : String} {row : AttemptRow} :
    (db.attempts.mapValues AttemptRow.givenUp).get a = some row ↔
      ∃ old, db.attempts.get a = some old ∧ old.givenUp = row := by
  rw [OrderedMap.get_mapValues, Option.map_eq_some_iff]

theorem Invariant.reopen (hdb : db.Invariant) {limit : Nat} {sessions : OrderedMap String Session}
    (recovered : ∀ id, sessions.get id = (db.sessions.get id).map fun s =>
      if id ∈ db.pendingSessions then s.givenUp else s) :
    ({ db with limit, sessions, attempts := db.attempts.mapValues AttemptRow.givenUp } :
      SqliteStore).Invariant := by
  obtain ⟨hkeyed, hsession, hexists, hflight, hunique, hhead, hrecord, hinput⟩ := hdb
  have hback : ∀ {id s}, sessions.get id = some s → ∃ old, db.sessions.get id = some old ∧
      s.id = old.id ∧ s.epoch = old.epoch ∧ s.head = old.head ∧ s.status.inFlight = false := by
    intro id s hs
    rw [recovered, Option.map_eq_some_iff] at hs
    obtain ⟨old, hold, hs⟩ := hs
    refine ⟨old, hold, ?_⟩
    split at hs
    · subst hs
      exact ⟨rfl, rfl, rfl, rfl⟩
    · next hnot =>
        subst hs
        refine ⟨rfl, rfl, rfl, Bool.eq_false_iff.2 fun hf => hnot ?_⟩
        exact mem_pendingSessions.2 (hexists id old hold hf)
  constructor
  · intro id s hs
    obtain ⟨old, hold, hid, -⟩ := hback hs
    exact hid.trans (hkeyed id old hold)
  · intro a row ha
    obtain ⟨old, hold, rfl⟩ := get_givenUp.1 ha
    obtain ⟨s, hs, hle⟩ := hsession a old hold
    obtain ⟨hsess, hepoch, -⟩ := givenUp_columns old
    refine ⟨if old.session ∈ db.pendingSessions then s.givenUp else s, ?_, ?_⟩
    · rw [hsess, recovered, hs, Option.map_some]
    · rw [hepoch]
      split <;> exact hle
  · intro id s hs hf
    obtain ⟨old, -, -, -, -, hidle⟩ := hback hs
    rw [hidle] at hf
    cases hf
  · intro id s a row hs ha hown hpending
    obtain ⟨old, hold, rfl⟩ := get_givenUp.1 ha
    exact absurd hpending (givenUp_status old)
  · intro a b row other ha hb hown hpending
    obtain ⟨old, hold, rfl⟩ := get_givenUp.1 ha
    exact absurd hpending (givenUp_status old)
  · intro id s a hs hhd
    obtain ⟨old, hold, -, hepoch, hheadEq, -⟩ := hback hs
    obtain ⟨row, hrow, hown, hrowEpoch, hfin⟩ := hhead id old a hold (hheadEq ▸ hhd)
    obtain ⟨hsess, hep, -⟩ := givenUp_columns row
    exact ⟨row.givenUp, get_givenUp.2 ⟨row, hrow, rfl⟩, hsess.trans hown,
      by rw [hep, hrowEpoch, hepoch], givenUp_finalized.2 hfin⟩
  · intro a
    rw [hrecord a]
    constructor
    · rintro ⟨row, hrow, hfin⟩
      exact ⟨row.givenUp, get_givenUp.2 ⟨row, hrow, rfl⟩, givenUp_finalized.2 hfin⟩
    · rintro ⟨row, hrow, hfin⟩
      obtain ⟨old, hold, rfl⟩ := get_givenUp.1 hrow
      exact ⟨old, hold, givenUp_finalized.1 hfin⟩
  · intro a b row other ha hb hsame
    obtain ⟨old, hold, rfl⟩ := get_givenUp.1 ha
    obtain ⟨old', hold', rfl⟩ := get_givenUp.1 hb
    refine hinput a b old old' hold hold' ?_
    obtain ⟨h₁, h₂, h₃⟩ := givenUp_columns old
    obtain ⟨h₁', h₂', h₃'⟩ := givenUp_columns old'
    simpa only [AttemptRow.sameInput, h₁, h₂, h₃, h₁', h₂', h₃'] using hsame

theorem Invariant.step (hdb : db.Invariant) {call : StoreCall} {db' : SqliteStore}
    (h : Commits db call db') : db'.Invariant := by
  cases h with
  | create fresh id_eq _ _ status_eq head_eq =>
      exact hdb.create fresh id_eq (by rw [status_eq]; rfl) head_eq
  | begin found _ idle _ fresh newInput => exact hdb.begin found idle fresh newInput
  | @finalize id attempt digest envelope _ s row found foundAttempt own sameEpoch waiting =>
      have hid := hdb.keyed _ _ found
      refine hdb.settle found foundAttempt own waiting (by simp) hid rfl (settled_inFlight _)
        (.inr ⟨rfl, rfl⟩) fun a => ?_
      by_cases heq : attempt = a
      · simp [heq]
      · simp [OrderedMap.get_insert, heq, Ne.symm heq]
  | uncertain found foundAttempt own waiting =>
      have hid := hdb.keyed _ _ found
      exact hdb.settle found foundAttempt own waiting (by simp) hid rfl rfl (.inl rfl)
        fun a => by simp
  | uncertainLate => exact hdb
  | repair found => exact hdb.repair found
  | transition found _ idle target =>
      obtain ⟨hid, -, hidle, hepoch, hhead⟩ := transitioned_spec target
      exact hdb.transition found idle (hid.trans (hdb.keyed _ _ found)) hidle hepoch hhead
  | reopen recovered => exact hdb.reopen recovered

end Preservation

theorem Invariant.execute {db db' : SqliteStore} (hdb : db.Invariant) {call : StoreCall} {u : Unit}
    (h : execute call db = (.ok u, db')) : db'.Invariant :=
  hdb.step (execute_accepts hdb.keyed h)

theorem invariant_run (limit : Nat) (calls : List StoreCall) :
    (run execute (empty limit) calls).Invariant :=
  (trace_run atomic_execute (empty limit) calls).invariant (invariant_empty limit)
    fun _ _ _ _ hdb call => hdb.execute call

section Revisions

/-- The sessions whose revision a call raises when it succeeds. -/
def raises (db : SqliteStore) (id : String) : StoreCall → Prop
  | .create _ _ | .repair _ _ _ => False
  | .begin _ session _ _ _ _ => id = session
  | .finalize session _ _ _ _ => id = session
  | .uncertain session attempt => id = session ∧ db.isPendingOf session attempt = true
  | .transition _ session _ _ _ _ => id = session
  | .reopen _ => id ∈ db.pendingSessions

/-- One session through one call: kept as it is, or raised by one revision without
losing an epoch. -/
def Advances (raised : Prop) (s t : Session) : Prop :=
  (raised → t.revision = s.revision + 1 ∧ s.epoch ≤ t.epoch) ∧ (¬ raised → t = s)

theorem advances_insert {db : SqliteStore} {id i : String} {s t u : Session} {raised : Prop}
    (found : db.sessions.get id = some s) (hraised : raised ↔ i = id)
    (hrevision : t.revision = s.revision + 1) (hepoch : s.epoch ≤ t.epoch)
    (hu : db.sessions.get i = some u) :
    ∃ u', (db.sessions.insert id t).get i = some u' ∧ Advances raised u u' := by
  by_cases heq : i = id
  · subst heq
    rw [found] at hu
    cases hu
    exact ⟨t, OrderedMap.get_insert_self _ _ _, fun _ => ⟨hrevision, hepoch⟩,
      fun hnot => absurd (hraised.2 rfl) hnot⟩
  · exact ⟨u, by rw [OrderedMap.get_insert_of_ne _ _ (Ne.symm heq), hu],
      fun hr => absurd (hraised.1 hr) heq, fun _ => rfl⟩

theorem advances_step {db db' : SqliteStore} {call : StoreCall} (h : Commits db call db')
    {i : String} {u : Session} (hu : db.sessions.get i = some u) :
    ∃ u', db'.sessions.get i = some u' ∧ Advances (db.raises i call) u u' := by
  cases h with
  | create fresh =>
      exact ⟨u, OrderedMap.get_insert_of_some fresh hu, fun hr => hr.elim, fun _ => rfl⟩
  | begin found => exact advances_insert found Iff.rfl rfl le_rfl hu
  | finalize found => exact advances_insert found Iff.rfl rfl le_rfl hu
  | @uncertain id attempt s row found foundAttempt own waiting =>
      refine advances_insert found ?_ rfl le_rfl hu
      have hpending : db.isPendingOf id attempt = true := by
        simp [isPendingOf, foundAttempt, own, waiting]
      exact ⟨fun hr => hr.1, fun heq => ⟨heq, hpending⟩⟩
  | uncertainLate settled =>
      exact ⟨u, hu, fun hr => absurd hr.2 (by simp [settled]), fun _ => rfl⟩
  | repair => exact ⟨u, hu, fun hr => hr.elim, fun _ => rfl⟩
  | transition found _ _ target =>
      obtain ⟨-, hrevision, -, hepoch, -⟩ := transitioned_spec target
      exact advances_insert found Iff.rfl (by rw [hrevision]) hepoch hu
  | reopen recovered =>
      refine ⟨_, by rw [recovered, hu, Option.map_some], fun hr => ?_, fun hnot => ?_⟩
      · change i ∈ db.pendingSessions at hr
        rw [if_pos hr]
        exact ⟨rfl, le_rfl⟩
      · exact if_neg hnot

end Revisions

/-- Exactly one attempt of the session is pending, in the session's epoch. -/
def Dispatching (db : SqliteStore) (id : String) (s : Session) : Prop :=
  ∃ a row, db.attempts.get a = some row ∧ row.session = id ∧ row.status = .pending ∧
    row.epoch = s.epoch ∧ ∀ b other, db.attempts.get b = some other → other.session = id → b ≠ a →
      other.status = .finalized ∨ other.status = .unknown

theorem ended_of_not_pending {row : AttemptRow} (h : row.status ≠ .pending) :
    row.status = .finalized ∨ row.status = .unknown := by
  cases hs : row.status with
  | pending => exact absurd hs h
  | finalized => exact .inl rfl
  | unknown => exact .inr rfl

theorem Invariant.dispatching_iff {db : SqliteStore} (hdb : db.Invariant) {id : String} {s : Session}
    (hs : db.sessions.get id = some s) : s.status.inFlight = true ↔ db.Dispatching id s := by
  constructor
  · intro hf
    obtain ⟨a, row, ha, hown, hpending⟩ := hdb.pending_exists id s hs hf
    refine ⟨a, row, ha, hown, hpending, (hdb.pending_flight id s a row hs ha hown hpending).2, ?_⟩
    intro b other hb hother hne
    refine ended_of_not_pending fun hp => hne ?_
    exact hdb.pending_unique b a other row hb ha (hother.trans hown.symm) hp hpending
  · rintro ⟨a, row, ha, hown, hpending, -⟩
    exact (hdb.pending_flight id s a row hs ha hown hpending).1

theorem Invariant.ended_of_idle {db : SqliteStore} (hdb : db.Invariant) {id : String} {s : Session}
    (hs : db.sessions.get id = some s) (hidle : s.status.inFlight = false) {a : String}
    {row : AttemptRow} (ha : db.attempts.get a = some row) (hown : row.session = id) :
    row.status = .finalized ∨ row.status = .unknown := by
  refine ended_of_not_pending fun hp => ?_
  rw [(hdb.pending_flight id s a row hs ha hown hp).1] at hidle
  cases hidle

/-- Every run of store calls from an empty database, crashes and reopenings
included: the tables agree on what is in flight, what is finalized and what the
head is; revisions count the successful calls; a failed call changes nothing. -/
theorem store_run (limit : Nat) (calls : List StoreCall) :
    (∀ id s, (run execute (empty limit) calls).sessions.get id = some s →
      (s.status.inFlight = true ↔ (run execute (empty limit) calls).Dispatching id s) ∧
      (s.status.inFlight = false → ∀ a row,
        (run execute (empty limit) calls).attempts.get a = some row → row.session = id →
        row.status = .finalized ∨ row.status = .unknown)) ∧
    (∀ id s a, (run execute (empty limit) calls).sessions.get id = some s → s.head = some a →
      (∃ row, (run execute (empty limit) calls).attempts.get a = some row ∧ row.session = id ∧
        row.epoch = s.epoch ∧ row.status = .finalized) ∧
      ∃ saved, (run execute (empty limit) calls).records.get a = some saved) ∧
    (∀ a, (∃ saved, (run execute (empty limit) calls).records.get a = some saved) ↔
      ∃ row, (run execute (empty limit) calls).attempts.get a = some row ∧
        row.status = .finalized) ∧
    (∀ call u db', execute call (run execute (empty limit) calls) = (.ok u, db') →
      ∀ id s, (run execute (empty limit) calls).sessions.get id = some s →
        ∃ t, db'.sessions.get id = some t ∧
          Advances ((run execute (empty limit) calls).raises id call) s t) ∧
    (∀ call e db', execute call (run execute (empty limit) calls) = (.error e, db') →
      db' = run execute (empty limit) calls) := by
  have hdb := invariant_run limit calls
  refine ⟨fun id s hs => ⟨hdb.dispatching_iff hs, fun hidle a row => hdb.ended_of_idle hs hidle⟩,
    ?_, hdb.record_iff, ?_, fun call => atomic_execute call _⟩
  · intro id s a hs hhead
    obtain ⟨row, ha, hown, hepoch, hfin⟩ := hdb.head_finalized id s a hs hhead
    exact ⟨⟨row, ha, hown, hepoch, hfin⟩, (hdb.record_iff a).2 ⟨row, ha, hfin⟩⟩
  · intro call u db' h id s hs
    exact advances_step (execute_accepts hdb.keyed h) hs

end ResponseGateway.Continuation.SqliteStore
