import ResponseGateway.Management.JournalRuns

/-!
The service of `management-api` behind its routes: `submit`, `deliver`, `reconcile` and
`preflight` work on the journal one at a time, and what it reports of an operation is
read from the journal and from two slots. What a caller is refused before the journal is
called, and what the dispatcher does, are arguments. Beside the slots stands who holds the
work lock, with the tables that were found there. The mutex of the slots is not poisoned.
-/

namespace ResponseGateway.Management
open Checked Ir Json Method

section Observation

structure ExecutionObservation where
  active : Option Id
  unrecorded : Option Id
  deriving DecidableEq, Repr

namespace ExecutionObservation

def default : ExecutionObservation := ⟨none, none⟩

def accepted (id : Id) : ExecutionObservation := ⟨some id, none⟩

def completed : ExecutionObservation := ⟨none, none⟩

/-- The end of a guard that was not completed. -/
def dropped (o : ExecutionObservation) : ExecutionObservation :=
  match o.active with
  | some id => ⟨none, some id⟩
  | none => o

end ExecutionObservation

/-- What a reader is told of an operation. -/
structure OperationView where
  operation : Operation
  observedState : State
  uncertainty : Option String
  deriving DecidableEq, Repr

def operationView (observation : ExecutionObservation) (operation : Operation) : OperationView :=
  let missing := decide (observation.unrecorded = some operation.id) &&
    decide (operation.state = .queued ∨ operation.state = .running)
  ⟨operation, if missing then .uncertain else operation.state,
    if missing then some "result_record_missing" else none⟩

end Observation

section Serving

/-- Who holds the work lock. An execution is told by the tables it started from. -/
inductive Holder where
  | closed
  | idle
  | executing (start : Db)

structure Service (S : Type) where
  dispatcher : S
  execution : ExecutionObservation
  holder : Holder

variable {S α : Type}

namespace Service

def withDispatcher (s : Service S) (dispatcher : S) : Service S := { s with dispatcher }

def withExecution (s : Service S) (execution : ExecutionObservation) : Service S :=
  { s with execution }

def withHolder (s : Service S) (holder : Holder) : Service S := { s with holder }

end Service

/-- The adapter that the journal is called with. -/
def Backend.bound (backend : Backend S) : Backend (Service S) where
  prepare request s :=
    ((backend.prepare request s.dispatcher).1,
      s.withDispatcher (backend.prepare request s.dispatcher).2)
  accepted id s := (s.withDispatcher (backend.accepted id s.dispatcher)).withExecution (.accepted id)
  apply s := ((backend.apply s.dispatcher).1, s.withDispatcher (backend.apply s.dispatcher).2)
  torn s := s.withDispatcher (backend.torn s.dispatcher)
  release s := s.withDispatcher (backend.release s.dispatcher)
  reconcile operation s :=
    ((backend.reconcile operation s.dispatcher).1,
      s.withDispatcher (backend.reconcile operation s.dispatcher).2)

/-- A reader may look between any two steps. -/
def World.look (w : World S) : World S := { w with log := w.log.look w.db w.backend }

def World.update (f : S → S) (w : World S) : World S := { w with backend := f w.backend }

/-- The work lock is held by an execution. -/
def locked (m : Journal (Service S) α) : Journal (Service S) α := fun w =>
  let (result, w') := m (w.update (·.withHolder (.executing w.db)))
  (result, w'.look.update (·.withHolder .idle))

/-- The guard of an execution, which a result completes. -/
def guarded (m : Journal (Service S) α) : Journal (Service S) α := fun w =>
  match m w with
  | (.ok a, w') => (.ok a, w')
  | (.error e, w') => (.error e, w'.look.update fun s => s.withExecution s.execution.dropped)

variable (env : Environment)

/-- The journal is called, and the dispatcher is told of the result. -/
def executed (actor : Actor) (request : Request) (backend : Backend S)
    (completed : Except Stop Operation → S → S) : Journal (Service S) Operation := fun w =>
  match execute env actor request backend.bound w with
  | (.error .crash, w') => (.error .crash, w')
  | (.error e, w') =>
      (.error e, w'.update fun s => s.withDispatcher (completed (.error e) s.dispatcher))
  | (.ok operation, w') =>
      let w' := w'.update fun s => s.withDispatcher (completed (.ok operation) s.dispatcher)
      (.ok operation, w'.look.update (·.withExecution .completed))

namespace Service

def submit (checks : Except Error Unit) (actor : Actor) (request : Request) (backend : Backend S)
    (completed : Except Stop Operation → S → S) : Journal (Service S) Operation :=
  locked (guarded do
    returning checks
    executed env actor request backend completed)

def deliver (checks : Except Error Unit) (actor : Actor) (request : Request) (backend : Backend S)
    (completed : Except Stop Operation → S → S) : Journal (Service S) Operation :=
  locked do
    returning checks
    guarded (executed env actor request backend completed)

def reconcile (checks : Except Error Unit) (actor : Actor) (target id : Id)
    (backend : Backend S) : Journal (Service S) Operation := do
  returning checks
  Management.reconcile actor target id backend.bound

end Service

end Serving

section Requests

variable (env : Environment) {S : Type}

/-- A service starts on the journal that it opens, and ends with its process. -/
inductive ServiceCall (S : Type) where
  | start (attach : Except Error Unit)
  | stop
  | submit (checks : Except Error Unit) (actor : Actor) (request : Request)
      (backend : Backend S) (completed : Except Stop Operation → S → S)
  | deliver (checks : Except Error Unit) (actor : Actor) (request : Request)
      (backend : Backend S) (completed : Except Stop Operation → S → S)
  | reconcile (checks : Except Error Unit) (actor : Actor) (target id : Id) (backend : Backend S)
  | preflight (prepared : S → S)

def closed (w : World (Service S)) : World (Service S) :=
  { w.update (·.withHolder .closed) with live := false }

/-- The world after a request: a crash ends the service. -/
def afterRequest {α : Type} (m : Journal (Service S) α) (w : World (Service S)) :
    World (Service S) :=
  match m w with
  | (.error .crash, w') => closed w'
  | (_, w') => w'

/-- The world after a start: a new service stands on the journal that was opened. -/
def afterStart (m : Journal (Service S) Unit) (w : World (Service S)) : World (Service S) :=
  match m (closed w) with
  | (.ok _, w') =>
      { w'.update (fun s => (s.withExecution .default).withHolder .idle) with live := true }
  | (_, w') => closed w'

def ServiceCall.perform (w : World (Service S)) : ServiceCall S → World (Service S)
  | .start attach => if w.live then w else afterStart (openJournal env attach) w
  | .stop => closed w
  | .submit checks actor request backend completed =>
      if w.live then afterRequest (Service.submit env checks actor request backend completed) w
      else w
  | .deliver checks actor request backend completed =>
      if w.live then afterRequest (Service.deliver env checks actor request backend completed) w
      else w
  | .reconcile checks actor target id backend =>
      if w.live then afterRequest (Service.reconcile checks actor target id backend) w else w
  | .preflight prepared =>
      if w.live then w.update fun s => s.withDispatcher (prepared s.dispatcher) else w

def serviceRun (w : World (Service S)) (calls : List (ServiceCall S)) : World (Service S) :=
  calls.foldl (ServiceCall.perform env) w

/-- A new service on a newly initialized journal. -/
def World.serving (dispatcher : S) (ticks : List Tick) : World (Service S) :=
  .new ⟨dispatcher, .default, .idle⟩ ticks

end Requests

section Truth

/-- The operation was accepted by the holder of the work lock. -/
def Holder.Executes (holder : Holder) (id : Id) : Prop :=
  ∃ start, holder = .executing start ∧ id.value ∉ start.operations.map (·.id)

/-- An operation that the journal has as queued or running, and that is not being executed, is
reported as one whose record is missing. -/
def Truthful {S : Type} (db : Db) (s : Service S) : Prop :=
  s.holder = .closed ∨ ∀ id operation, recorded db id = .ok operation →
    operation.state = .queued ∨ operation.state = .running → ¬ s.holder.Executes id →
      operationView s.execution operation =
        ⟨operation, .uncertain, some "result_record_missing"⟩

end Truth

section Condition

variable (env : Environment) {S : Type}

/-- A body whose failure ends the prepared guard. -/
def releasing {α : Type} (backend : Backend S) (m : Journal S α) : Journal S α := fun w =>
  match m w with
  | (.ok a, w') => (.ok a, w')
  | (.error e, w') => (.error e, w'.update backend.release)

/-- The part of `execute` before an operation is announced: it finds the operation, or
stores a new one. -/
def intake (actor : Actor) (request : Request) (backend : Backend S) :
    Journal S (Operation ⊕ Id) := do
  returning request.validate
  let grant ← returning (actor.authorize request.action request.target)
  let known ← lookup env actor request
  match known with
  | some operation => do
      let operation ← settleInterrupted operation.id
      pure (.inl operation)
  | none => do
      let before ← consult (backend.prepare request)
      let id ← releasing backend do
        returning (rejectIf (before ≠ request.expected) .conflict)
        accept env actor request grant
      pure (.inr id)

/-- No other operation waits for its record when one is announced or found, and a refused one
is not stored. -/
def OrderlyIntake (actor : Actor) (request : Request) (backend : Backend S)
    (w : World (Service S)) : Prop :=
  match intake env actor request backend.bound w with
  | (.ok _, _) => ∀ id operation, recorded w.db id = .ok operation →
      operation.state = .queued ∨ operation.state = .running →
        operation.actor.subject = actor.identity.subject ∧
          operation.request.idempotencyKey = request.idempotencyKey
  | (.error (.failed _), w') => w'.db.operations = w.db.operations
  | (.error .crash, _) => True

def Orderly (w : World (Service S)) : ServiceCall S → Prop
  | .submit checks actor request backend _ | .deliver checks actor request backend _ =>
      w.live = true → checks = .ok () →
        OrderlyIntake env actor request backend (w.update (·.withHolder (.executing w.db)))
  | .start _ | .stop | .reconcile .. | .preflight _ => True

/-- A run whose requests are orderly. -/
def OrderlyRun : World (Service S) → List (ServiceCall S) → Prop
  | _, [] => True
  | w, call :: rest => Orderly env w call ∧ OrderlyRun (call.perform env w) rest

end Condition

end ResponseGateway.Management
