import ResponseGateway.Library.Triple
import ResponseGateway.Management.Encoding

/-!
`gateway_management::journal` over its two tables. A run is driven by a script of
ticks, one for each contact with the outside: what the storage does there, the time
and the identifier drawn. A write that fails may still have been stored, and the
process may die before or after it. The log is not part of the program; it records
each call of `apply` with the store as it was then, and what an independent reader
could have seen at each contact.
-/

namespace ResponseGateway.Management
open Checked Ir Json Method

section Tables

structure OperationRow where
  id : String
  subject : String
  idempotencyKey : String
  fingerprint : String
  intent : String
  deriving DecidableEq, Repr

structure EventRow where
  operationId : String
  sequence : Nat
  event : String
  deriving DecidableEq, Repr

/-- Rows in the order of their insertion; no statement updates or deletes one. -/
structure Db where
  operations : List OperationRow
  events : List EventRow
  deriving DecidableEq, Repr

namespace Db

def empty : Db := ⟨[], []⟩

/-- `INSERT INTO operations`, with its primary key and its unique pair. -/
def insertOperation (row : OperationRow) (db : Db) : Option Db :=
  if db.operations.any fun o => o.id = row.id ||
      (o.subject = row.subject && o.idempotencyKey = row.idempotencyKey) then none
  else some { db with operations := db.operations ++ [row] }

/-- `INSERT INTO events`, with its foreign and its primary key. -/
def insertEvent (row : EventRow) (db : Db) : Option Db :=
  if !db.operations.any (·.id = row.operationId) then none
  else if db.events.any fun e => e.operationId = row.operationId && e.sequence = row.sequence then
    none
  else some { db with events := db.events ++ [row] }

def eventsOf (db : Db) (id : String) : List EventRow := db.events.filter (·.operationId = id)

/-- `SELECT event … ORDER BY sequence`. -/
def history (db : Db) (id : String) : List String :=
  ((db.eventsOf id).mergeSort fun a b => a.sequence ≤ b.sequence).map (·.event)

/-- Every operation with its event of the greatest sequence number. -/
def lastEvents (db : Db) : List (String × String) :=
  db.operations.flatMap fun o =>
    ((db.eventsOf o.id).filter fun e => (db.eventsOf o.id).all (·.sequence ≤ e.sequence)).map
      fun e => (o.id, e.event)

end Db

/-- `json_extract(event,'$.state')`. -/
def stateOf (text : String) : Except Error (Option String) := do
  let value ← okOr (Json.parse 1000 text.toList) .storage
  return value.fieldStr "state"

/-- The operations whose last event is queued or running. -/
def Db.interrupted (db : Db) : Except Error (List String) := do
  let last ← db.lastEvents.mapM fun (id, text) => do
    let state ← stateOf text
    return (id, state)
  return last.filterMap fun (id, state) =>
    if state = some "queued" ∨ state = some "running" then some id else none

end Tables

section Reading

def maxEvents : Nat := 256

def validNext (before : State) (phase : Phase) (state : State) (effect : Option Effect) : Bool :=
  match phase with
  | .accepted => false
  | .started => before = .queued && state = .running && effect.isNone
  | .finished => before = .running && effect.any fun e => state = e.state
  | .recovery =>
      (before = .queued && effect = some (.notApplied .interrupted) ||
        before = .running && effect = some (.uncertain .interrupted)) &&
        effect.any fun e => state = e.state
  | .reconciled => before = .uncertain && effect.any fun e => state = e.state

/-- Who may have recorded the event, and with which grant. -/
def attributed (operation : Operation) (event : Event) : Bool :=
  match event.phase with
  | .recovery => event.actor.isNone && event.authorization.isNone
  | .accepted =>
      event.actor = some operation.actor && event.authorization = some operation.authorization
  | .started | .finished => event.actor = some operation.actor && event.authorization.isNone
  | .reconciled => event.actor.isSome &&
      event.authorization = some ⟨.reconcile, operation.request.target⟩

/-- The event continues the events before it. -/
def continues (operation : Operation) (event : Event) : Bool :=
  if operation.events.isEmpty then
    event.phase = .accepted && event.state = .queued && event.effect.isNone
  else validNext operation.state event.phase event.state event.effect

def Operation.push (operation : Operation) (event : Event) : Operation :=
  { operation with state := event.state, events := operation.events ++ [event] }

def replayEvent (operation : Operation) (text : String) : Except Error Operation := do
  let event ← decode Event.codec text
  rejectIf (event.sequence.toNat ≠ operation.events.length + 1 ||
    event.sequence.toNat > maxEvents) .invalidStore
  rejectIf (!attributed operation event) .invalidStore
  rejectIf (!continues operation event) .invalidStore
  return operation.push event

def recorded (db : Db) (id : Id) : Except Error Operation := do
  let row ← okOr (db.operations.find? (·.id = id.value)) .notFound
  let operation ← decode Operation.codec row.intent
  rejectIf (operation.id ≠ id || operation.schema ≠ contract || !operation.events.isEmpty ||
    operation.state ≠ .queued || operation.authorization.action ≠ operation.request.action ||
    operation.authorization.target ≠ operation.request.target) .invalidStore
  let operation ← (db.history id.value).foldlM replayEvent operation
  rejectIf operation.events.isEmpty .invalidStore
  return operation

variable (sha256 : String → Ir.Digest)

/-- The body of `lookup`. -/
def lookupIn (db : Db) (actor : Actor) (request : Request) : Except Error (Option Operation) :=
  match db.operations.find? fun o => o.subject = actor.identity.subject.value &&
      o.idempotencyKey = request.idempotencyKey.value with
  | none => .ok none
  | some row => do
      rejectIf (row.fingerprint ≠ (request.fingerprint sha256).value) .conflict
      let id ← (Id.new row.id).mapError fun _ => .invalidStore
      let operation ← recorded db id
      return some operation

end Reading

section Environment

/-- What the storage does at one contact: serve it, fail it, fail it and keep the
write, or end the process before or after the write. -/
inductive Fault where
  | none
  | failed
  | lost
  | crash
  | crashAfter
  deriving DecidableEq, Repr

structure Tick where
  fault : Fault
  time : UInt64
  uuid : Id

/-- The hash function and the order in which the database returns unsorted rows. -/
structure Environment where
  sha256 : String → Ir.Digest
  order : List String → List String
  perm : ∀ ids, (order ids).Perm ids

/-- A call of `apply`, with what was stored at that moment. -/
structure Application where
  subject : Id
  idempotencyKey : Id
  operation : Id
  stored : Db

structure Log (S : Type) where
  applications : List Application
  /-- What was stored at each contact, oldest first. -/
  seen : List (Db × S)

structure World (S : Type) where
  db : Db
  backend : S
  ticks : List Tick
  log : Log S
  /-- A process owns the journal. -/
  live : Bool

namespace Log

variable {S : Type}

def empty : Log S := ⟨[], []⟩

def look (db : Db) (b : S) (l : Log S) : Log S := { l with seen := l.seen ++ [(db, b)] }

def apply (a : Application) (l : Log S) : Log S := { l with applications := l.applications ++ [a] }

@[simp] theorem look_applications (db : Db) (b : S) (l : Log S) :
    (l.look db b).applications = l.applications := rfl

@[simp] theorem apply_seen (a : Application) (l : Log S) : (l.apply a).seen = l.seen := rfl

end Log

namespace World

variable {S : Type}

abbrev applications (w : World S) : List Application := w.log.applications

/-- All that could have been seen of the run, oldest first. -/
def visible (w : World S) : List (Db × S) := w.log.seen ++ [(w.db, w.backend)]

end World

/-- Why a call did not return a value. -/
inductive Stop where
  | failed (error : Error)
  | crash
  deriving DecidableEq, Repr

def Stop.map (f : Error → Error) : Stop → Stop
  | .failed error => .failed (f error)
  | .crash => .crash

abbrev Journal (S α : Type) := Method (World S) Stop α

def Tick.quiet : Tick := ⟨.none, 0, ⟨"0", by decide⟩⟩

variable {S α : Type}

def returning (x : Except Error α) : Journal S α := check (x.mapError .failed)

/-- The next tick; a script that is used up has no faults left. -/
def tick : Journal S Tick := fun w =>
  let log := w.log.look w.db w.backend
  match w.ticks with
  | [] => (.ok .quiet, { w with log })
  | t :: rest => (.ok t, { w with ticks := rest, log })

/-- Read the tables. -/
def query (f : Db → Except Error α) : Journal S α := do
  let t ← tick
  match t.fault with
  | .none => do
      let w ← read
      returning (f w.db)
  | .failed | .lost => throwing (.failed .storage)
  | .crash | .crashAfter => throwing .crash

/-- One durable write, in a transaction of its own. -/
def store (f : Db → Option Db) : Journal S Unit := do
  let t ← tick
  fun w =>
    match t.fault, f w.db with
    | .none, some db => (.ok (), { w with db })
    | .none, none => (.error (.failed .storage), w)
    | .failed, _ => (.error (.failed .storage), w)
    | .lost, db => (.error (.failed .storage), { w with db := db.getD w.db })
    | .crash, _ => (.error .crash, w)
    | .crashAfter, db => (.error .crash, { w with db := db.getD w.db })

/-- `now`. -/
def now : Journal S UInt64 := do
  let t ← tick
  match t.fault with
  | .none => pure t.time
  | .failed | .lost => throwing (.failed .storage)
  | .crash | .crashAfter => throwing .crash

/-- A random identifier. -/
def newId : Journal S Id := do
  let t ← tick
  pure t.uuid

/-- A call of the adapter that returns a result. -/
def consult (f : S → Except Error α × S) : Journal S α := fun w =>
  let (result, backend) := f w.backend
  (result.mapError .failed, { w with backend })

end Environment

section Operations

variable (env : Environment) {S : Type}

/-- The event that `append` puts behind the recorded ones. -/
def Event.next (before : Operation) (atMs : UInt64) (actor : Option Identity) (phase : Phase)
    (state : State) (effect : Option Effect) : Event where
  sequence := .ofNat (before.events.length + 1)
  atMs := atMs
  phase := phase
  state := state
  actor := actor
  authorization := if phase = .reconciled then some ⟨.reconcile, before.request.target⟩ else none
  effect := effect

def append (id : Id) (actor : Option Identity) (phase : Phase) (state : State)
    (effect : Option Effect) : Journal S Unit := do
  let before ← query (recorded · id)
  returning (rejectIf (!validNext before.state phase state effect) .invalidTransition)
  let sequence := before.events.length + 1
  returning (rejectIf (sequence > maxEvents) .storage)
  let atMs ← now
  store (Db.insertEvent
    ⟨id.value, sequence, json Event.codec (.next before atMs actor phase state effect)⟩)

def settleInterrupted (id : Id) : Journal S Operation := do
  let operation ← query (recorded · id)
  match operation.state with
  | .queued => settle (.notApplied .interrupted)
  | .running => settle (.uncertain .interrupted)
  | _ => pure operation
where
  settle (effect : Effect) : Journal S Operation := do
    append id none .recovery effect.state (some effect)
    query (recorded · id)

def recover : Journal S PUnit := do
  let ids ← query Db.interrupted
  (env.order ids).forM fun value => do
    let id ← returning ((Id.new value).mapError fun _ => .invalidStore)
    let _ ← settleInterrupted id
    pure ⟨⟩

def lookup (actor : Actor) (request : Request) : Journal S (Option Operation) :=
  query (lookupIn env.sha256 · actor request)

/-- What `accept` stores before any event but the first. -/
def Operation.intent (id : Id) (actor : Actor) (request : Request) (grant : Grant) : Operation where
  schema := contract
  id := id
  actor := actor.identity
  authorization := grant
  request := request
  state := .queued
  events := []

def Event.acceptedAt (atMs : UInt64) (actor : Actor) (grant : Grant) : Event where
  sequence := 1
  atMs := atMs
  phase := .accepted
  state := .queued
  actor := some actor.identity
  authorization := some grant
  effect := none

def accept (actor : Actor) (request : Request) (grant : Grant) : Journal S Id := do
  let id ← newId
  let atMs ← now
  store fun db => do
    let db ← db.insertOperation ⟨id.value, actor.identity.subject.value,
      request.idempotencyKey.value, (request.fingerprint env.sha256).value,
      json Operation.codec (.intent id actor request grant)⟩
    db.insertEvent ⟨id.value, 1, json Event.codec (.acceptedAt atMs actor grant)⟩
  pure id

/-- The call of `apply`, which a crash may cut short. -/
def apply (backend : Backend S) (actor : Actor) (request : Request) (id : Id) :
    Journal S Effect := do
  let t ← tick
  fun w =>
    let log := w.log.apply ⟨actor.identity.subject, request.idempotencyKey, id, w.db⟩
    let (effect, applied) := backend.apply w.backend
    match t.fault with
    | .crash => (.error .crash, { w with log, backend := backend.torn w.backend })
    | .crashAfter => (.error .crash, { w with log, backend := applied })
    | _ => (.ok effect, { w with log, backend := applied })

/-- The part of `execute` between the preparation and the end of its guard. -/
def applyPrepared (backend : Backend S) (actor : Actor) (request : Request) (grant : Grant)
    (before : Snapshot) : Journal S (Id × Effect) := do
  returning (rejectIf (before ≠ request.expected) .conflict)
  let id ← accept env actor request grant
  write fun w => { w with backend := backend.accepted id w.backend }
  append id (some actor.identity) .started .running none
  let effect ← apply backend actor request id
  pure (id, effect)

def execute (actor : Actor) (request : Request) (backend : Backend S) : Journal S Operation := do
  returning request.validate
  let grant ← returning (actor.authorize request.action request.target)
  let known ← lookup env actor request
  match known with
  | some operation => settleInterrupted operation.id
  | none => do
      let before ← consult (backend.prepare request)
      let (id, effect) ← ensuring (applyPrepared env backend actor request grant before)
        fun w => { w with backend := backend.release w.backend }
      mapErr (Stop.map fun _ => .uncertain id.value)
        (append id (some actor.identity) .finished effect.state (some effect))
      mapErr (Stop.map fun _ => .uncertain id.value) (query (recorded · id))

def reconcile (actor : Actor) (target id : Id) (backend : Backend S) : Journal S Operation := do
  let _ ← returning (actor.authorize .reconcile target)
  let operation ← query (recorded · id)
  returning (rejectIf (operation.request.target ≠ target) .notFound)
  let operation ← settleInterrupted id
  returning (rejectIf (operation.state ≠ .uncertain) .invalidTransition)
  let effect ← consult (backend.reconcile operation)
  append id (some actor.identity) .reconciled effect.state (some effect)
  query (recorded · id)

/-- `open` behind the checks of the directory and the database file, whose result is
`attach`. -/
def openJournal (attach : Except Error Unit) : Journal S Unit := do
  returning attach
  recover env

end Operations

section Runs

variable (env : Environment) {S : Type}

inductive Call (S : Type) where
  | openJournal (attach : Except Error Unit)
  | close
  | kill
  | execute (actor : Actor) (request : Request) (backend : Backend S)
  | reconcile (actor : Actor) (target id : Id) (backend : Backend S)

/-- The world after a method of the owner: a crash ends the ownership. -/
def afterCall {α : Type} (m : Journal S α) (w : World S) : World S :=
  match m w with
  | (.error .crash, w') => { w' with live := false }
  | (_, w') => w'

/-- The world after opening: only a successful call makes its caller the owner. -/
def afterOpen (m : Journal S Unit) (w : World S) : World S :=
  match m w with
  | (.ok _, w') => { w' with live := true }
  | (_, w') => w'

/-- One call. The lease refuses a second owner, and without an owner there is no
journal to call. -/
def Call.perform (w : World S) : Call S → World S
  | .openJournal attach => if w.live then w else afterOpen (Management.openJournal env attach) w
  | .close | .kill => { w with live := false }
  | .execute actor request backend =>
      if w.live then afterCall (Management.execute env actor request backend) w else w
  | .reconcile actor target id backend =>
      if w.live then afterCall (Management.reconcile actor target id backend) w else w

def run (w : World S) (calls : List (Call S)) : World S := calls.foldl (Call.perform env) w

/-- A newly initialized journal. -/
def World.new (backend : S) (ticks : List Tick) : World S where
  db := .empty
  backend := backend
  ticks := ticks
  log := .empty
  live := true

end Runs

end ResponseGateway.Management
