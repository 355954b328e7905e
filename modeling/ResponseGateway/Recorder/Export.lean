import ResponseGateway.Recorder.Store

/-!
The export of recorded events. What a destination answers is an argument, as is the clock,
which is read once for a selection and once for every row that is updated. The rows of a
destination are selected, sent and updated one destination after the other.
-/

namespace ResponseGateway.Recorder
open Checked Usage

section Answers

structure Receipt where
  producerId : String
  eventId : String
  sha256 : String
  status : ReceiptStatus
  deriving DecidableEq, Repr

/-- Why an export failed, as far as the recorder tells failures apart. -/
inductive ExportError where
  | unsupportedUsageExportContract
  | permanentExportError
  | invalidExportAck
  | invalidExportUrl
  | emptyExportCredential
  | unsupportedRemoteSchema
  | other (text : String)
  deriving DecidableEq, Repr

def ExportError.isPermanent : ExportError → Bool
  | other _ => false
  | _ => true

abbrev ExportAnswer := Except ExportError (List Receipt)

/-- What the host itself refuses to send. -/
def refusal (d : Destination) (events : List RecordedEvent) : Option ExportError :=
  if !d.isV2 && events.any (·.isV2) then some .unsupportedUsageExportContract else none

end Answers

section Selecting

/-- `as i64`. -/
def asI64 (n : Nat) : Int := if n % 2 ^ 64 < 2 ^ 63 then n % 2 ^ 64 else n % 2 ^ 64 - 2 ^ 64

/-- A row of the outbox with its event. -/
structure Pending where
  row : EventRow
  attempts : Nat
  deriving DecidableEq

namespace Store

variable (s : Store)

def precedes (a b : Pending) : Bool :=
  decide (toLex (a.row.observedAtMs, toLex (a.row.producerId, toLex (a.row.attemptId,
    a.row.revision))) ≤ toLex (b.row.observedAtMs, toLex (b.row.producerId,
      toLex (b.row.attemptId, b.row.revision))))

/-- The rows that are due, oldest first, and at most a hundred. -/
def due (destination : String) (now : Nat) : List Pending :=
  let joined := (s.outbox.filter fun o => o.destination = destination &&
      (o.state = .pending && decide (o.nextAtMs ≤ asI64 now))).flatMap fun o =>
    (s.events.filter (·.event = o.event)).map fun e => ⟨e, o.attempts⟩
  (joined.mergeSort precedes).take 100

end Store

/-- The events of a batch: as many as fit. -/
def batch (digest : Text → String) : Nat → List Pending → Except Failure (List (RecordedEvent × Nat))
  | _, [] => return []
  | bytes, p :: rest => do
      let e ← (RecordedEvent.fromStoredBytes digest p.row.payload p.row.sha256).mapError .event
      let bytes := bytes + p.row.payload.len + 1
      if bytes > 1048576 then return []
      else do
        let rest ← batch digest bytes rest
        return (e, p.attempts) :: rest

end Selecting

section Updating

variable (digest : Text → String)

def Receipt.names (r : Receipt) (e : RecordedEvent) : Bool :=
  r.eventId = e.view.eventId && r.producerId = e.view.producerId

def Receipt.confirms (r : Receipt) (e : RecordedEvent) : Bool :=
  r.names e && (e.bytes.toOption.any fun b => digest b = r.sha256)

/-- Every event that was sent has exactly one receipt. -/
def valid (events : List RecordedEvent) (receipts : List Receipt) : Bool :=
  receipts.length = events.length &&
    events.all fun e => (receipts.filter (·.confirms digest e)).length = 1

def stateFor (events : List RecordedEvent) (answer : ExportAnswer) (e : RecordedEvent) :
    DeliveryState :=
  match answer with
  | .error .unsupportedUsageExportContract => .blockedUnsupportedContract
  | .error error => if error.isPermanent then .blocked else .pending
  | .ok receipts =>
      if valid digest events receipts then
        match (receipts.find? (·.names e)).map Receipt.status with
        | some .committed | some .duplicate => .committed
        | some .conflict => .conflict
        | _ => .blocked
      else .blocked

def retryAt (now attempts : Nat) : Int :=
  asI64 (min (now + 1000 * 2 ^ min attempts 8) (2 ^ 64 - 1))

/-- One update of the outbox. -/
def Store.settle (destination : String) (e : RecordedEvent) (state : DeliveryState)
    (attempts now : Nat) (s : Store) : Store :=
  { s with outbox := s.outbox.map fun o =>
      if o.event = (e.view.producerId, e.view.eventId) && o.destination = destination then
        { o with state, attempts, nextAtMs := retryAt now attempts }
      else o }

/-- One more attempt. -/
def again (attempts : Nat) : Nat := min (attempts + 1) (2 ^ 63 - 1)

/-- What one destination does: how many events it has now, and the tables. -/
def exportTo (d : Destination) (now : Nat) (answer : List RecordedEvent → ExportAnswer)
    (clock : Nat → Nat) (s : Store) : Except Failure (Nat × Store) := do
  let entries ← batch digest 128 (s.due d.id now)
  let events := entries.map Prod.fst
  if events.isEmpty then return (0, s)
  else
    let answered := match refusal d events with
      | some error => .error error
      | none => answer events
    let s := entries.zipIdx.foldl (fun s entry =>
      s.settle d.id entry.1.1 (stateFor digest events answered entry.1.1) (again entry.1.2)
        (clock entry.2)) s
    return ((events.filter fun e => stateFor digest events answered e = .committed).length, s)

/-- The surroundings of an export: the clock and the answers, destination by destination. -/
structure Surroundings where
  now : Nat
  answer : List RecordedEvent → ExportAnswer
  clock : Nat → Nat

/-- A run over all destinations stops at the first failure and keeps what was done before. -/
def runOnce : List (Destination × Surroundings) → Store → Except Failure Nat × Store
  | [], s => (.ok 0, s)
  | (d, w) :: rest, s =>
      match exportTo digest d w.now w.answer w.clock s with
      | .error e => (.error e, s)
      | .ok (sent, s) =>
          match runOnce rest s with
          | (.ok more, s) => (.ok (sent + more), s)
          | (.error e, s) => (.error e, s)

end Updating

end ResponseGateway.Recorder
