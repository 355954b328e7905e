import ResponseGateway.Library.Json
import ResponseGateway.Library.Method

/-!
`continuation::SqliteStore`. The database is its four tables; a statement is a
method on them that fails where a key, uniqueness or reference constraint does,
and an operation is a transaction over statements in the order of the source.
Generated identifiers are arguments, so a collision is a failed insertion and
not an assumption. A session is stored as the text of its record; reading back
what was written is the record again, so the column is kept decoded. Revisions
and epochs are integers without wrap-around: each increment leaves a row in
`attempts` or `transitions`, so a file would be full long before `i64` is.
-/

namespace ResponseGateway.Continuation
open Checked Method

/-- `continuation::Error`, a static message. -/
structure Error where
  message : String
  deriving DecidableEq, Repr

def Error.sql : Error := ⟨"database operation"⟩

def isLabelChar (c : Char) : Bool := c.isAlphanum || c = '_' || c = '-'

def label (value : String) : Except Error Unit :=
  rejectIf (value.isEmpty || value.utf8ByteSize > 128 || !value.toList.all isLabelChar)
    ⟨"invalid identifier"⟩

structure Origin where
  route : Json
  realm : String
  generation : String
  deriving DecidableEq, Repr

def Origin.validate (origin : Origin) : Except Error Unit := do
  label origin.realm
  label origin.generation
  rejectIf (!origin.route.isObject) ⟨"invalid origin"⟩

inductive Status where
  | ready
  | pending
  | compacting
  | compactingPending
  | awaitingCompaction
  | unknown
  deriving DecidableEq, Repr

/-- An attempt is being dispatched. -/
def Status.inFlight : Status → Bool
  | pending | compactingPending => true
  | _ => false

/-- The status of a session once an attempt has begun. -/
def Status.begun (status : Status) : Status :=
  if status = .compacting then .compactingPending else .pending

/-- The status of a session once its attempt is finalized. -/
def Status.settled (status : Status) : Status :=
  if status = .compactingPending then .awaitingCompaction else .ready

structure Session where
  id : String
  epoch : Int
  revision : Int
  origin : Origin
  status : Status
  head : Option String
  pendingTools : Bool
  portableSha256 : Option String
  deriving DecidableEq, Repr

inductive AttemptStatus where
  | pending
  | finalized
  | unknown
  deriving DecidableEq, Repr

/-- A row of `attempts`, without its primary key. -/
structure AttemptRow where
  session : String
  epoch : Int
  inputDigest : String
  status : AttemptStatus
  reserve : Nat
  deriving DecidableEq, Repr

/-- The columns under the `UNIQUE` constraint agree. -/
def AttemptRow.sameInput (row other : AttemptRow) : Bool :=
  row.session = other.session && row.epoch = other.epoch && row.inputDigest = other.inputDigest

/-- A row of `records`, without its primary key. -/
structure RecordRow where
  digest : String
  envelope : Option String
  deriving DecidableEq, Repr

/-- A row of `transitions`, without its primary key. -/
structure TransitionRow where
  session : String
  revision : Int
  kind : String
  decision : String
  deriving DecidableEq, Repr

structure StoredReplay where
  id : String
  session : String
  epoch : Int
  digest : String
  envelope : Option String
  deriving DecidableEq, Repr

structure SqliteStore where
  sessions : OrderedMap String Session
  attempts : OrderedMap String AttemptRow
  records : OrderedMap String RecordRow
  transitions : OrderedMap String TransitionRow
  limit : Nat
  deriving DecidableEq

namespace SqliteStore

abbrev Operation (α : Type) := Method SqliteStore Error α

def i64Max : Nat := 2 ^ 63 - 1

/-- `u64::checked_add`. -/
def checkedAdd (a b : Nat) : Option Nat := if a + b < 2 ^ 64 then some (a + b) else none

/-- A database as `open` initialises it. -/
def empty (limit : Nat) : SqliteStore :=
  { sessions := .empty, attempts := .empty, records := .empty, transitions := .empty, limit }

section Statements

def load (id : String) : Operation Session := do
  let db ← read
  check (okOr (db.sessions.get id) .sql)

/-- An `UPDATE` by primary key: no row, no effect. -/
def save (s : Session) : Operation Unit :=
  write fun db =>
    if db.sessions.contains s.id then { db with sessions := db.sessions.insert s.id s } else db

def insertSession (s : Session) : Operation Unit := do
  let db ← read
  check (rejectIf (db.sessions.contains s.id) .sql)
  write fun db => { db with sessions := db.sessions.insert s.id s }

def insertAttempt (id : String) (row : AttemptRow) : Operation Unit := do
  let db ← read
  check (rejectIf (db.attempts.contains id) .sql)
  check (rejectIf (db.attempts.values.any row.sameInput) .sql)
  check (rejectIf (!db.sessions.contains row.session) .sql)
  write fun db => { db with attempts := db.attempts.insert id row }

def insertRecord (id : String) (row : RecordRow) : Operation Unit := do
  let db ← read
  check (rejectIf (db.records.contains id) .sql)
  check (rejectIf (!db.attempts.contains id) .sql)
  write fun db => { db with records := db.records.insert id row }

def insertTransition (id : String) (row : TransitionRow) : Operation Unit := do
  let db ← read
  check (rejectIf (db.transitions.contains id) .sql)
  check (rejectIf (!db.sessions.contains row.session) .sql)
  write fun db => { db with transitions := db.transitions.insert id row }

/-- `SELECT COALESCE(SUM(reserve),0)`, which fails when the sum leaves `i64`. -/
def usedReserve : Operation Nat := do
  let db ← read
  let used := db.attempts.total (·.reserve)
  check (rejectIf (i64Max < used) .sql)
  return used

def setAttemptStatus (id : String) (status : AttemptStatus) : Operation Unit :=
  write fun db =>
    match db.attempts.get id with
    | some row => { db with attempts := db.attempts.insert id { row with status } }
    | none => db

/-- SQL `length`: characters before the first NUL. -/
def sqlLength (text : String) : Nat := (text.toList.takeWhile (· ≠ '\x00')).length

end Statements

def create (uuid : String) (origin : Origin) : Operation Session := do
  check origin.validate
  let s : Session := {
    id := uuid, epoch := 1, revision := 1, origin, status := .ready, head := none
    pendingTools := false, portableSha256 := none }
  insertSession s
  return s

def session (id : String) : Operation Session := do
  check (label id)
  load id

def begin (uuid id : String) (revision : Int) (parent : Option String) (inputDigest : String)
    (reserve : Nat) : Operation String := transaction do
  let s ← load id
  check (rejectIf (decide (s.revision ≠ revision) ||
    !(decide (s.status = .ready) || decide (s.status = .compacting)) || decide (s.head ≠ parent))
    ⟨"session conflict or reconciliation required"⟩)
  let used ← usedReserve
  let db ← read
  check (rejectIf (reserve == 0 || (checkedAdd used reserve).all fun sum => db.limit < sum)
    ⟨"store capacity"⟩)
  let attempt := "resp_" ++ uuid
  check (rejectIf (i64Max < reserve) ⟨"capacity limit"⟩)
  insertAttempt attempt { session := id, epoch := s.epoch, inputDigest, status := .pending, reserve }
  save { s with status := s.status.begun, revision := s.revision + 1 }
  return attempt

/-- The row `finalize` selects. -/
def pendingAttempt (attempt id : String) (epoch : Int) : Operation AttemptRow := do
  let db ← read
  let row ← check (okOr (db.attempts.get attempt) .sql)
  check (rejectIf (!(row.session = id && row.epoch = epoch && row.status = .pending)) .sql)
  return row

def finalize (id attempt digest envelope : String) (pendingTools : Bool) : Operation Unit :=
  transaction do
    let s ← load id
    let row ← pendingAttempt attempt id s.epoch
    check (rejectIf (row.reserve < envelope.utf8ByteSize || !s.status.inFlight)
      ⟨"finalization conflict"⟩)
    insertRecord attempt { digest, envelope := some envelope }
    setAttemptStatus attempt .finalized
    save { s with
      status := s.status.settled, head := some attempt, pendingTools
      revision := s.revision + 1 }

/-- The row condition of `uncertain`. -/
def isPendingOf (db : SqliteStore) (id attempt : String) : Bool :=
  (db.attempts.get attempt).any fun row => row.session = id && row.status = .pending

def markUnknown (id : String) : Operation Unit := do
  let s ← load id
  save { s with status := .unknown, revision := s.revision + 1 }

def uncertain (id attempt : String) : Operation Unit := transaction do
  let db ← read
  if db.isPendingOf id attempt then
    setAttemptStatus attempt .unknown
    markUnknown id
  else
    pure ()

def record (id : String) : Operation StoredReplay := do
  let db ← read
  let row ← check (okOr (db.attempts.get id) ⟨"finalized record missing"⟩)
  check (rejectIf (row.status ≠ .finalized) ⟨"finalized record missing"⟩)
  let saved ← check (okOr (db.records.get id) ⟨"finalized record missing"⟩)
  return { id, session := row.session, epoch := row.epoch, digest := saved.digest,
           envelope := saved.envelope }

/-- The row condition of `repair`. -/
def repairable (db : SqliteStore) (id digest envelope : String) : Bool :=
  (db.records.get id).any (fun row => row.digest = digest && row.envelope = none) &&
    (db.attempts.get id).any
      (fun row => row.status = .finalized && decide (sqlLength envelope ≤ row.reserve))

def repair (id digest envelope : String) : Operation Unit := do
  let db ← read
  check (rejectIf (!db.repairable id digest envelope) ⟨"repair conflict"⟩)
  write fun db => { db with records := db.records.insert id { digest, envelope := some envelope } }

/-- A new epoch on a portable history. -/
def restart (s : Session) (portable : Option String) : Except Error Session := do
  rejectIf portable.isNone ⟨"portable history required"⟩
  return { s with
    epoch := s.epoch + 1, head := none, pendingTools := false, portableSha256 := portable
    status := .ready }

/-- The session a transition of this kind leads to, before its revision is raised. -/
def transitioned (s : Session) (kind : String) (portable : Option String) :
    Except Error Session :=
  if kind = "compact_begin" ∧ s.status = .ready ∧ s.pendingTools = false then
    .ok { s with status := .compacting }
  else if kind = "compact_commit" ∧ s.status = .awaitingCompaction then restart s portable
  else if kind = "recover" then restart s portable
  else .error ⟨"unsupported transition"⟩

def transition (uuid id : String) (revision : Int) (kind : String) (portable : Option String)
    (decision : String) : Operation Session := do
  check (label decision)
  transaction do
    let s ← load id
    check (rejectIf (decide (s.revision ≠ revision) || s.status.inFlight)
      ⟨"transition conflict"⟩)
    let s ← check (transitioned s kind portable)
    let s := { s with revision := s.revision + 1 }
    save s
    insertTransition uuid { session := id, revision := s.revision, kind, decision }
    return s

/-- The sessions with a pending attempt, each once. -/
def pendingSessions (db : SqliteStore) : List String :=
  ((db.attempts.values.filter fun row => row.status = .pending).map (·.session)).dedup

def markAllUnknown : List String → Operation Unit
  | [] => pure ()
  | id :: rest => do
      markUnknown id
      markAllUnknown rest

/-- `UPDATE attempts SET status='unknown' WHERE status='pending'`. -/
def abandonPending : Operation Unit :=
  write fun db => { db with attempts := db.attempts.mapValues fun row =>
    if row.status = .pending then { row with status := .unknown } else row }

/-- The recovery pass of `open` on an existing database. -/
def reopen (limit : Nat) : Operation Unit := do
  check (rejectIf (limit < 1024 * 1024) ⟨"store configuration"⟩)
  check (rejectIf (i64Max < limit) ⟨"store limit"⟩)
  transaction do
    write fun db => { db with limit }
    let db ← read
    markAllUnknown db.pendingSessions
    abandonPending

end SqliteStore
end ResponseGateway.Continuation
