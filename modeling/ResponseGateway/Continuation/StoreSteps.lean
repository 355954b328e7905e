import ResponseGateway.Continuation.Store

/-!
What each operation of the store can do when it succeeds, as one relation, and
that a failed operation does nothing. Later modules argue from the relation and
do not open the statements again.
-/

namespace ResponseGateway.Continuation
open Checked Method

/-- A call of the store, with the identifiers it generates. -/
inductive StoreCall where
  | create (uuid : String) (origin : Origin)
  | begin (uuid id : String) (revision : Int) (parent : Option String) (inputDigest : String)
      (reserve : Nat)
  | finalize (id attempt digest envelope : String) (pendingTools : Bool)
  | uncertain (id attempt : String)
  | repair (id digest envelope : String)
  | transition (uuid id : String) (revision : Int) (kind : String) (portable : Option String)
      (decision : String)
  | reopen (limit : Nat)
  deriving DecidableEq, Repr

/-- The session after its in-flight attempt was given up. -/
def Session.givenUp (s : Session) : Session :=
  { s with status := .unknown, revision := s.revision + 1 }

/-- The row after its attempt was given up. -/
def AttemptRow.givenUp (row : AttemptRow) : AttemptRow :=
  if row.status = .pending then { row with status := .unknown } else row

namespace SqliteStore

def discard {α : Type} (m : Operation α) : Operation Unit := do
  let _ ← m
  return ()

def execute : StoreCall → Operation Unit
  | .create uuid origin => discard (create uuid origin)
  | .begin uuid id revision parent inputDigest reserve =>
      discard (begin uuid id revision parent inputDigest reserve)
  | .finalize id attempt digest envelope pendingTools =>
      finalize id attempt digest envelope pendingTools
  | .uncertain id attempt => uncertain id attempt
  | .repair id digest envelope => repair id digest envelope
  | .transition uuid id revision kind portable decision =>
      discard (transition uuid id revision kind portable decision)
  | .reopen limit => reopen limit

/-- One successful operation: its guards and the whole of its effect. -/
inductive Commits (db : SqliteStore) : StoreCall → SqliteStore → Prop where
  | create {uuid : String} {origin : Origin} {s : Session} (fresh : db.sessions.get uuid = none)
      (id_eq : s.id = uuid) (epoch_eq : s.epoch = 1) (revision_eq : s.revision = 1)
      (status_eq : s.status = .ready) (head_eq : s.head = none) :
      Commits db (.create uuid origin) { db with sessions := db.sessions.insert uuid s }
  | begin {uuid id : String} {revision : Int} {parent : Option String} {inputDigest : String}
      {reserve : Nat} {s : Session} (found : db.sessions.get id = some s)
      (current : s.revision = revision) (idle : s.status.inFlight = false)
      (tip : s.head = parent) (fresh : db.attempts.get ("resp_" ++ uuid) = none)
      (newInput : ∀ attempt row, db.attempts.get attempt = some row → row.session = id →
        row.epoch = s.epoch → row.inputDigest ≠ inputDigest)
      (positive : 0 < reserve) (room : db.attempts.total (·.reserve) + reserve ≤ db.limit) :
      Commits db (.begin uuid id revision parent inputDigest reserve) { db with
        attempts := db.attempts.insert ("resp_" ++ uuid)
          { session := id, epoch := s.epoch, inputDigest, status := .pending, reserve }
        sessions := db.sessions.insert id
          { s with status := s.status.begun, revision := s.revision + 1 } }
  | finalize {id attempt digest envelope : String} {pendingTools : Bool} {s : Session}
      {row : AttemptRow} (found : db.sessions.get id = some s)
      (foundAttempt : db.attempts.get attempt = some row) (own : row.session = id)
      (sameEpoch : row.epoch = s.epoch) (waiting : row.status = .pending)
      (fits : envelope.utf8ByteSize ≤ row.reserve) :
      Commits db (.finalize id attempt digest envelope pendingTools) { db with
        records := db.records.insert attempt { digest, envelope := some envelope }
        attempts := db.attempts.insert attempt { row with status := .finalized }
        sessions := db.sessions.insert id { s with
          status := s.status.settled, head := some attempt, pendingTools
          revision := s.revision + 1 } }
  | uncertain {id attempt : String} {s : Session} {row : AttemptRow}
      (found : db.sessions.get id = some s) (foundAttempt : db.attempts.get attempt = some row)
      (own : row.session = id) (waiting : row.status = .pending) :
      Commits db (.uncertain id attempt) { db with
        attempts := db.attempts.insert attempt { row with status := .unknown }
        sessions := db.sessions.insert id s.givenUp }
  | uncertainLate {id attempt : String} (settled : db.isPendingOf id attempt = false) :
      Commits db (.uncertain id attempt) db
  | repair {id digest envelope : String} {row : RecordRow} (found : db.records.get id = some row)
      (sameDigest : row.digest = digest) (missing : row.envelope = none) :
      Commits db (.repair id digest envelope)
        { db with records := db.records.insert id { digest, envelope := some envelope } }
  | transition {uuid id : String} {revision : Int} {kind : String} {portable : Option String}
      {decision : String} {s t : Session} {row : TransitionRow}
      (found : db.sessions.get id = some s) (current : s.revision = revision)
      (idle : s.status.inFlight = false) (target : transitioned s kind portable = .ok t) :
      Commits db (.transition uuid id revision kind portable decision) { db with
        sessions := db.sessions.insert id { t with revision := t.revision + 1 }
        transitions := db.transitions.insert uuid row }
  | reopen {limit : Nat} {sessions : OrderedMap String Session}
      (recovered : ∀ id, sessions.get id = (db.sessions.get id).map fun s =>
        if id ∈ db.pendingSessions then s.givenUp else s) :
      Commits db (.reopen limit)
        { db with limit, sessions, attempts := db.attempts.mapValues AttemptRow.givenUp }

/-- Each session is stored under its own identifier. -/
def KeyedById (db : SqliteStore) : Prop := ∀ id s, db.sessions.get id = some s → s.id = id

theorem keyed_insert {db : SqliteStore} {id : String} {t : Session} (hkeys : db.KeyedById)
    (hid : t.id = id) : ∀ i u, (db.sessions.insert id t).get i = some u → u.id = i := by
  intro i u hu
  rw [OrderedMap.get_insert] at hu
  split at hu
  · next heq =>
      cases hu
      exact hid.trans heq
  · exact hkeys i u hu

section Success

variable {db db' : SqliteStore}

theorem load_accepts {id : String} {s : Session} :
    load id db = (.ok s, db') ↔ db.sessions.get id = some s ∧ db = db' := by
  simp [load, read_bind_accepts]

theorem save_accepts {s old : Session} {id : String} {u : Unit} (h : save s db = (.ok u, db'))
    (hfound : db.sessions.get id = some old) (hid : s.id = id) :
    db' = { db with sessions := db.sessions.insert id s } := by
  rw [save, write_accepts, hid, OrderedMap.contains, hfound] at h
  exact h.symm

theorem insertSession_accepts {s : Session} {u : Unit} :
    insertSession s db = (.ok u, db') ↔ db.sessions.get s.id = none ∧
      { db with sessions := db.sessions.insert s.id s } = db' := by
  simp [insertSession, read_bind_accepts, check_bind_accepts]

theorem insertAttempt_accepts {id : String} {row : AttemptRow} {u : Unit} :
    insertAttempt id row db = (.ok u, db') ↔ db.attempts.get id = none ∧
      (∀ attempt other, db.attempts.get attempt = some other → row.sameInput other = false) ∧
      db.sessions.contains row.session = true ∧
      { db with attempts := db.attempts.insert id row } = db' := by
  simp only [insertAttempt, read_bind_accepts, check_bind_accepts, rejectIf_ok, write_accepts,
    OrderedMap.contains_eq_false, OrderedMap.any_values_eq_false, Bool.not_eq_false', exists_const]

theorem insertRecord_accepts {id : String} {row : RecordRow} {u : Unit} :
    insertRecord id row db = (.ok u, db') ↔ db.records.get id = none ∧
      db.attempts.contains id = true ∧ { db with records := db.records.insert id row } = db' := by
  simp [insertRecord, read_bind_accepts, check_bind_accepts]

theorem insertTransition_accepts {id : String} {row : TransitionRow} {u : Unit} :
    insertTransition id row db = (.ok u, db') ↔ db.transitions.get id = none ∧
      db.sessions.contains row.session = true ∧
      { db with transitions := db.transitions.insert id row } = db' := by
  simp [insertTransition, read_bind_accepts, check_bind_accepts]

theorem usedReserve_accepts {used : Nat} :
    usedReserve db = (.ok used, db') ↔ db.attempts.total (·.reserve) ≤ i64Max ∧
      used = db.attempts.total (·.reserve) ∧ db = db' := by
  simp only [usedReserve, read_bind_accepts, check_bind_accepts, pure_accepts, rejectIf_ok,
    decide_eq_false_iff_not, Nat.not_lt]
  constructor
  · rintro ⟨_, hsum, rfl, rfl⟩
    exact ⟨hsum, rfl, rfl⟩
  · rintro ⟨hsum, rfl, rfl⟩
    exact ⟨(), hsum, rfl, rfl⟩

/-- The capacity test, with the sum of two machine words. -/
theorem capacity_accepts {used reserve limit : Nat} :
    (reserve == 0 || (checkedAdd used reserve).all fun sum => limit < sum) = false ↔
      0 < reserve ∧ used + reserve < 2 ^ 64 ∧ used + reserve ≤ limit := by
  unfold checkedAdd
  split <;> simp [Nat.pos_iff_ne_zero] <;> omega

theorem pendingAttempt_accepts {attempt id : String} {epoch : Int} {row : AttemptRow}
    (h : pendingAttempt attempt id epoch db = (.ok row, db')) :
    db.attempts.get attempt = some row ∧ row.session = id ∧ row.epoch = epoch ∧
      row.status = .pending ∧ db = db' := by
  simp only [pendingAttempt, read_bind_accepts, check_bind_accepts, pure_accepts, okOr_ok,
    rejectIf_ok, Bool.not_eq_false', Bool.and_eq_true, decide_eq_true_eq] at h
  obtain ⟨row', hrow, _, ⟨⟨hsession, hepoch⟩, hstatus⟩, rfl, rfl⟩ := h
  exact ⟨hrow, hsession, hepoch, hstatus, rfl⟩

theorem setAttemptStatus_accepts {attempt : String} {row : AttemptRow} {status : AttemptStatus}
    {u : Unit} (h : setAttemptStatus attempt status db = (.ok u, db'))
    (hfound : db.attempts.get attempt = some row) :
    db' = { db with attempts := db.attempts.insert attempt { row with status } } := by
  rw [setAttemptStatus, write_accepts, hfound] at h
  exact h.symm

theorem markUnknown_accepts {id : String} {u : Unit} (hkeys : db.KeyedById)
    (h : markUnknown id db = (.ok u, db')) : ∃ s, db.sessions.get id = some s ∧
      db' = { db with sessions := db.sessions.insert id s.givenUp } := by
  obtain ⟨s, _, hload, hsave⟩ := bind_accepts.1 h
  obtain ⟨hfound, rfl⟩ := load_accepts.1 hload
  obtain rfl := save_accepts hsave hfound (hkeys id s hfound)
  exact ⟨s, hfound, rfl⟩

theorem create_accepts {uuid : String} {origin : Origin} {s : Session}
    (h : create uuid origin db = (.ok s, db')) : Commits db (.create uuid origin) db' := by
  simp only [create, check_bind_accepts] at h
  obtain ⟨_, -, h⟩ := h
  obtain ⟨_, _, hinsert, h⟩ := bind_accepts.1 h
  obtain ⟨hfresh, rfl⟩ := insertSession_accepts.1 hinsert
  obtain ⟨-, rfl⟩ := pure_accepts.1 h
  exact .create hfresh rfl rfl rfl rfl rfl

theorem begin_accepts {uuid id : String} {revision : Int} {parent : Option String}
    {inputDigest : String} {reserve : Nat} {attempt : String} (hkeys : db.KeyedById)
    (h : begin uuid id revision parent inputDigest reserve db = (.ok attempt, db')) :
    attempt = "resp_" ++ uuid ∧
      Commits db (.begin uuid id revision parent inputDigest reserve) db' := by
  rw [begin, transaction_accepts] at h
  obtain ⟨s, _, hload, h⟩ := bind_accepts.1 h
  obtain ⟨hfound, rfl⟩ := load_accepts.1 hload
  obtain ⟨_, hguard, h⟩ := check_bind_accepts.1 h
  obtain ⟨used, _, hused, h⟩ := bind_accepts.1 h
  obtain ⟨-, rfl, rfl⟩ := usedReserve_accepts.1 hused
  obtain ⟨_, hcapacity, h⟩ := check_bind_accepts.1 (read_bind_accepts.1 h)
  obtain ⟨hpositive, -, hroom⟩ := capacity_accepts.1 (rejectIf_ok.1 hcapacity)
  obtain ⟨_, -, h⟩ := check_bind_accepts.1 h
  obtain ⟨_, _, hinsert, h⟩ := bind_accepts.1 h
  obtain ⟨hfresh, hnew, -, rfl⟩ := insertAttempt_accepts.1 hinsert
  obtain ⟨_, _, hsave, h⟩ := bind_accepts.1 h
  obtain rfl := save_accepts hsave hfound (hkeys id s hfound)
  obtain ⟨rfl, rfl⟩ := pure_accepts.1 h
  simp only [rejectIf_ok, Bool.or_eq_false_iff, decide_eq_false_iff_not, Bool.not_eq_false',
    Bool.or_eq_true, decide_eq_true_eq, ne_eq, not_not] at hguard
  obtain ⟨⟨hrevision, hidle⟩, htip⟩ := hguard
  refine ⟨rfl, .begin hfound hrevision ?_ htip hfresh ?_ hpositive hroom⟩
  · rcases hidle with hidle | hidle <;> rw [hidle] <;> rfl
  · intro a row hrow hsession hepoch hdigest
    have hdiffers := hnew a row hrow
    simp [AttemptRow.sameInput, hsession, hepoch, hdigest] at hdiffers

theorem finalize_accepts {id attempt digest envelope : String} {pendingTools : Bool} {u : Unit}
    (hkeys : db.KeyedById) (h : finalize id attempt digest envelope pendingTools db = (.ok u, db')) :
    Commits db (.finalize id attempt digest envelope pendingTools) db' := by
  rw [finalize, transaction_accepts] at h
  obtain ⟨s, _, hload, h⟩ := bind_accepts.1 h
  obtain ⟨hfound, rfl⟩ := load_accepts.1 hload
  obtain ⟨row, _, hrow, h⟩ := bind_accepts.1 h
  obtain ⟨hattempt, hsession, hepoch, hstatus, rfl⟩ := pendingAttempt_accepts hrow
  obtain ⟨_, hguard, h⟩ := check_bind_accepts.1 h
  simp only [rejectIf_ok, Bool.or_eq_false_iff, decide_eq_false_iff_not, Nat.not_lt] at hguard
  obtain ⟨_, _, hinsert, h⟩ := bind_accepts.1 h
  obtain ⟨-, -, rfl⟩ := insertRecord_accepts.1 hinsert
  obtain ⟨_, _, hset, h⟩ := bind_accepts.1 h
  obtain rfl := setAttemptStatus_accepts hset hattempt
  obtain rfl := save_accepts h hfound (hkeys id s hfound)
  exact .finalize hfound hattempt hsession hepoch hstatus hguard.1

theorem isPendingOf_eq_true {id attempt : String} (h : db.isPendingOf id attempt = true) :
    ∃ row, db.attempts.get attempt = some row ∧ row.session = id ∧ row.status = .pending := by
  simpa [isPendingOf, Option.any_eq_true] using h

theorem uncertain_accepts {id attempt : String} {u : Unit} (hkeys : db.KeyedById)
    (h : uncertain id attempt db = (.ok u, db')) : Commits db (.uncertain id attempt) db' := by
  rw [uncertain, transaction_accepts, read_bind_accepts] at h
  split at h
  · next hpending =>
      obtain ⟨row, hattempt, hsession, hstatus⟩ := isPendingOf_eq_true hpending
      obtain ⟨_, _, hset, h⟩ := bind_accepts.1 h
      obtain rfl := setAttemptStatus_accepts hset hattempt
      obtain ⟨s, hfound, rfl⟩ := markUnknown_accepts (by exact hkeys) h
      exact .uncertain hfound hattempt hsession hstatus
  · next hpending =>
      obtain ⟨-, rfl⟩ := pure_accepts.1 h
      exact .uncertainLate (by simpa using hpending)

theorem repair_accepts {id digest envelope : String} {u : Unit}
    (h : repair id digest envelope db = (.ok u, db')) :
    Commits db (.repair id digest envelope) db' := by
  simp only [repair, read_bind_accepts, check_bind_accepts, rejectIf_ok, write_accepts,
    Bool.not_eq_false', repairable, Bool.and_eq_true, Option.any_eq_true, decide_eq_true_eq] at h
  obtain ⟨_, ⟨⟨row, hrow, hdigest, hmissing⟩, -⟩, rfl⟩ := h
  exact .repair hrow hdigest hmissing

theorem transitioned_id {s t : Session} {kind : String} {portable : Option String}
    (h : transitioned s kind portable = .ok t) : t.id = s.id := by
  unfold transitioned at h
  split_ifs at h <;> simp only [restart, bind_ok, pure_ok, Except.ok.injEq] at h
  · cases h
    rfl
  all_goals
    obtain ⟨_, -, rfl⟩ := h
    rfl

theorem transition_accepts {uuid id : String} {revision : Int} {kind : String}
    {portable : Option String} {decision : String} {s' : Session} (hkeys : db.KeyedById)
    (h : transition uuid id revision kind portable decision db = (.ok s', db')) :
    Commits db (.transition uuid id revision kind portable decision) db' := by
  obtain ⟨_, -, h⟩ := check_bind_accepts.1 h
  rw [transaction_accepts] at h
  obtain ⟨s, _, hload, h⟩ := bind_accepts.1 h
  obtain ⟨hfound, rfl⟩ := load_accepts.1 hload
  obtain ⟨_, hguard, h⟩ := check_bind_accepts.1 h
  obtain ⟨t, htarget, h⟩ := check_bind_accepts.1 h
  obtain ⟨_, _, hsave, h⟩ := bind_accepts.1 h
  obtain rfl := save_accepts hsave hfound ((transitioned_id htarget).trans (hkeys id s hfound))
  obtain ⟨_, _, hinsert, h⟩ := bind_accepts.1 h
  obtain ⟨-, -, rfl⟩ := insertTransition_accepts.1 hinsert
  obtain ⟨-, rfl⟩ := pure_accepts.1 h
  simp only [rejectIf_ok, Bool.or_eq_false_iff, decide_eq_false_iff_not, ne_eq, not_not] at hguard
  exact .transition hfound hguard.1 hguard.2 htarget

/-- The loop of the recovery pass raises each listed session once. -/
theorem markAllUnknown_accepts {ids : List String} {u : Unit} (hnodup : ids.Nodup)
    (hkeys : db.KeyedById) (h : markAllUnknown ids db = (.ok u, db')) :
    ∃ sessions, db' = { db with sessions } ∧ ∀ id, sessions.get id =
      (db.sessions.get id).map fun s => if id ∈ ids then s.givenUp else s := by
  induction ids generalizing db with
  | nil =>
      obtain ⟨-, rfl⟩ := pure_accepts.1 h
      exact ⟨db.sessions, rfl, fun id => by simp⟩
  | cons first rest ih =>
      obtain ⟨hnotMem, hrest⟩ := List.nodup_cons.1 hnodup
      obtain ⟨_, _, hmark, h⟩ := bind_accepts.1 h
      obtain ⟨s, hfound, rfl⟩ := markUnknown_accepts hkeys hmark
      have hkeys' : ({ db with sessions := db.sessions.insert first s.givenUp } :
          SqliteStore).KeyedById := keyed_insert hkeys (hkeys first s hfound)
      obtain ⟨sessions, rfl, hsessions⟩ := ih hrest hkeys' h
      refine ⟨sessions, rfl, fun id => ?_⟩
      rw [hsessions id, OrderedMap.get_insert]
      by_cases heq : first = id
      · cases heq
        simp [hfound, hnotMem]
      · simp [heq, Ne.symm heq]

theorem reopen_accepts {limit : Nat} {u : Unit} (hkeys : db.KeyedById)
    (h : reopen limit db = (.ok u, db')) : Commits db (.reopen limit) db' := by
  obtain ⟨_, -, h⟩ := check_bind_accepts.1 h
  obtain ⟨_, -, h⟩ := check_bind_accepts.1 h
  rw [transaction_accepts, write_bind_accepts, read_bind_accepts] at h
  obtain ⟨_, _, hmark, h⟩ := bind_accepts.1 h
  have hkeys' : ({ db with limit } : SqliteStore).KeyedById := hkeys
  obtain ⟨sessions, rfl, hsessions⟩ :=
    markAllUnknown_accepts (List.nodup_dedup _) hkeys' hmark
  rw [abandonPending, write_accepts] at h
  rw [← h]
  exact .reopen hsessions

theorem discard_accepts {α : Type} {m : Operation α} {u : Unit}
    (h : discard m db = (.ok u, db')) : ∃ a, m db = (.ok a, db') := by
  obtain ⟨a, _, hm, h⟩ := bind_accepts.1 h
  obtain ⟨-, rfl⟩ := pure_accepts.1 h
  exact ⟨a, hm⟩

theorem execute_accepts {call : StoreCall} {u : Unit} (hkeys : db.KeyedById)
    (h : execute call db = (.ok u, db')) : Commits db call db' := by
  cases call with
  | create uuid origin =>
      obtain ⟨s, h⟩ := discard_accepts h
      exact create_accepts h
  | begin uuid id revision parent inputDigest reserve =>
      obtain ⟨attempt, h⟩ := discard_accepts h
      exact (begin_accepts hkeys h).2
  | finalize id attempt digest envelope pendingTools => exact finalize_accepts hkeys h
  | uncertain id attempt => exact uncertain_accepts hkeys h
  | repair id digest envelope => exact repair_accepts h
  | transition uuid id revision kind portable decision =>
      obtain ⟨s, h⟩ := discard_accepts h
      exact transition_accepts hkeys h
  | reopen limit => exact reopen_accepts hkeys h

end Success

section Failure

theorem atomic_create (uuid : String) (origin : Origin) : Atomic (create uuid origin) := by
  refine (keeps_check _).atomic_bind fun _ => Atomic.bind_succeeds ?_ fun _ => succeeds_pure _
  exact keeps_read.atomic_bind fun _ => (keeps_check _).atomic_bind fun _ =>
    (succeeds_write _).atomic

theorem atomic_discard {α : Type} {m : Operation α} (h : Atomic m) : Atomic (discard m) :=
  h.bind_succeeds fun _ => succeeds_pure _

theorem atomic_execute (call : StoreCall) : Atomic (execute call) := by
  cases call with
  | create uuid origin => exact atomic_discard (atomic_create uuid origin)
  | begin uuid id revision parent inputDigest reserve =>
      exact atomic_discard (atomic_transaction _)
  | finalize id attempt digest envelope pendingTools => exact atomic_transaction _
  | uncertain id attempt => exact atomic_transaction _
  | repair id digest envelope =>
      exact keeps_read.atomic_bind fun _ => (keeps_check _).atomic_bind fun _ =>
        (succeeds_write _).atomic
  | transition uuid id revision kind portable decision =>
      exact atomic_discard ((keeps_check _).atomic_bind fun _ => atomic_transaction _)
  | reopen limit =>
      exact (keeps_check _).atomic_bind fun _ => (keeps_check _).atomic_bind fun _ =>
        atomic_transaction _

end Failure

end SqliteStore
end ResponseGateway.Continuation
