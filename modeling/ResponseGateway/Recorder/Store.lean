import ResponseGateway.Library.Table
import ResponseGateway.Usage.Recorded

/-!
The store of the usage recorder. A call is a transaction: it returns the tables after it,
and where it fails or returns early they stay as they were. The automatic numbers of the
events are left out, the rows are in their order. Where a query may return one of several
rows it returns the first; of several revisions it returns the least, as the unique index
of the events orders them.
-/

namespace ResponseGateway.Recorder
open Checked Usage

section Configuration

inductive ReceiptStatus where
  | committed
  | duplicate
  | conflict
  | rejected
  deriving DecidableEq, Repr

inductive Destination where
  | http (id url bearerFile : String)
  | httpV2 (id url bearerFile : String)
  | postgres (id connectionFile : String) (tlsCaFile : Option String)
  deriving DecidableEq, Repr

namespace Destination

def id : Destination → String
  | http id _ _ | httpV2 id _ _ | postgres id _ _ => id

def isV2 : Destination → Bool
  | httpV2 .. => true
  | _ => false

def isPostgres : Destination → Bool
  | postgres .. => true
  | _ => false

def bytes (d : Destination) : Text :=
  (Json.object (match d with
    | http id url bearerFile => [("kind", .string "http"), ("id", .string id),
        ("url", .string url), ("bearer_file", .string bearerFile)]
    | httpV2 id url bearerFile => [("kind", .string "http_v2"), ("id", .string id),
        ("url", .string url), ("bearer_file", .string bearerFile)]
    | postgres id connectionFile tlsCaFile => [("kind", .string "postgres"), ("id", .string id),
        ("connection_file", .string connectionFile)] ++
        (tlsCaFile.map fun file => [("tls_ca_file", .string file)]).getD [])).render

end Destination

/-- A configuration that `config` accepts: no two destinations have one name. -/
structure RecorderConfig where
  destinations : List Destination
  distinct : (destinations.map (·.id)).Nodup

end Configuration

section Tables

structure AttemptRow where
  producerId : String
  attemptId : String
  identity : Text
  deriving DecidableEq, Repr

structure EventRow where
  producerId : String
  eventId : String
  attemptId : String
  revision : Nat
  kind : EventKind
  startedAtMs : Nat
  observedAtMs : Nat
  sha256 : String
  payload : Text
  deriving DecidableEq, Repr

structure TombstoneRow where
  producerId : String
  eventId : String
  attemptId : String
  revision : Nat
  sha256 : String
  kind : EventKind
  deriving DecidableEq, Repr

inductive DeliveryState where
  | pending
  | committed
  | conflict
  | blocked
  | blockedUnsupportedContract
  deriving DecidableEq, Repr

structure OutboxRow where
  producerId : String
  eventId : String
  destination : String
  state : DeliveryState
  attempts : Nat
  nextAtMs : Int
  deriving DecidableEq, Repr

structure DestinationRow where
  id : String
  sha256 : String
  deriving DecidableEq, Repr

structure Store where
  version : Nat
  attempts : List AttemptRow
  events : List EventRow
  tombstones : List TombstoneRow
  destinations : List DestinationRow
  outbox : List OutboxRow
  deriving DecidableEq

def Store.empty (version : Nat) : Store := ⟨version, [], [], [], [], []⟩

/-- Why a call fails. -/
inductive Failure where
  | usageV2RequiresStorageV2
  | event (failure : RecordedEvent.Failure)
  | outOfRange
  | constraint
  | destinationHasPendingEvents
  | destinationIdentityChanged
  deriving DecidableEq, Repr

def AttemptRow.attempt (row : AttemptRow) : String × String := (row.producerId, row.attemptId)

/-- The unique keys of an event: its name and its place. -/
structure Keys where
  event : String × String
  place : (String × String) × Nat
  deriving DecidableEq, Repr

def Keys.clash (keys other : Keys) : Bool :=
  decide (keys.event = other.event) || decide (keys.place = other.place)

namespace EventRow

variable (row : EventRow)

def event : String × String := (row.producerId, row.eventId)

def attempt : String × String := (row.producerId, row.attemptId)

def keys : Keys := ⟨row.event, row.attempt, row.revision⟩

/-- What is left of an event: its digest, and its bytes while it is live. -/
def kept : String × Option Text := (row.sha256, some row.payload)

def tombstone : TombstoneRow :=
  ⟨row.producerId, row.eventId, row.attemptId, row.revision, row.sha256, row.kind⟩

end EventRow

namespace TombstoneRow

variable (row : TombstoneRow)

def event : String × String := (row.producerId, row.eventId)

def attempt : String × String := (row.producerId, row.attemptId)

def keys : Keys := ⟨row.event, row.attempt, row.revision⟩

def kept : String × Option Text := (row.sha256, none)

end TombstoneRow

namespace OutboxRow

variable (row : OutboxRow)

def event : String × String := (row.producerId, row.eventId)

def key : (String × String) × String := (row.event, row.destination)

end OutboxRow

def sameKey (a b : (String × String) × String) : Bool := decide (a = b)

namespace Store

variable (s : Store)

def insertAttempt (row : AttemptRow) : Store :=
  if s.attempts.any (·.attempt = row.attempt) then s
  else { s with attempts := s.attempts ++ [row] }

def insertEvent (row : EventRow) : Except Failure Store := do
  let events ← okOr (Table.insert (Table.byKey Keys.clash EventRow.keys) s.events row) .constraint
  return { s with events }

def insertTombstones (rows : List TombstoneRow) : Except Failure Store := do
  let tombstones ← okOr
    (rows.foldlM (Table.insert (Table.byKey Keys.clash TombstoneRow.keys)) s.tombstones) .constraint
  return { s with tombstones }

def insertOutbox (rows : List OutboxRow) : Except Failure Store := do
  let outbox ← okOr (rows.foldlM (Table.insert (Table.byKey sameKey OutboxRow.key)) s.outbox)
    .constraint
  return { s with outbox }

end Store

end Tables

section Recording

/-- `i64::try_from`. -/
def toI64 (n : UInt64) : Except Failure Nat :=
  if n.toNat < 2 ^ 63 then .ok n.toNat else .error .outOfRange

variable (digest : Text → String)

/-- The row of an event. -/
def rowOf (event : RecordedEvent) : Except Failure EventRow := do
  let payload ← event.bytes.mapError .event
  let revision ← toI64 event.view.revision
  let startedAtMs ← toI64 event.view.startedAtMs
  let observedAtMs ← toI64 event.view.observedAtMs
  return {
    producerId := event.view.producerId, eventId := event.view.eventId
    attemptId := event.view.attemptId, revision, kind := event.view.kind, startedAtMs
    observedAtMs, sha256 := digest payload, payload }

namespace Store

variable (s : Store) (row : EventRow)

/-- What is left of a recorded event with the name or the place of a row. -/
def prior : Option (String × Option Text) :=
  let live := s.events.filter (·.keys.clash row.keys)
  let gone := s.tombstones.filter (·.keys.clash row.keys)
  (live.map EventRow.kept ++ gone.map TombstoneRow.kept).head?

def retired : Bool :=
  s.tombstones.any fun t => t.attempt = row.attempt && t.kind = .attemptFinished

/-- The events of the attempt of a row. -/
def sameAttempt : List EventRow := s.events.filter (·.attempt = row.attempt)

def misidentified (identity : Text) : Bool :=
  ((s.attempts.find? (·.attempt = row.attempt)).map (·.identity)).any (· ≠ identity)

def latestRevision : Option Nat := ((s.sameAttempt row).map (·.revision)).max?

def finalRevision : Option Nat :=
  (((s.sameAttempt row).filter (·.kind = .attemptFinished)).map (·.revision)).min?

/-- The guards of an event that was not recorded before. -/
def refuses (identity : Text) : Bool :=
  s.retired row || s.misidentified row identity ||
    (decide (row.kind = .attemptFinished) && (s.latestRevision row).any (· > row.revision)) ||
    (s.finalRevision row).any fun v => row.revision ≥ v || row.kind = .attemptFinished

def pendingAt (row : EventRow) (destination : Destination) : OutboxRow :=
  ⟨row.producerId, row.eventId, destination.id, .pending, 0, 0⟩

def insert (config : RecorderConfig) (identity : Text) : Except Failure Store := do
  let s ← (s.insertAttempt ⟨row.producerId, row.attemptId, identity⟩).insertEvent row
  s.insertOutbox (config.destinations.map (pendingAt row))

def record (config : RecorderConfig) (event : RecordedEvent) :
    Except Failure (ReceiptStatus × Store) := do
  rejectIf (event.isV2 && decide (s.version ≠ 2)) .usageV2RequiresStorageV2
  let row ← rowOf digest event
  match s.prior row with
  | some (old, payload) => do
      -- A live row must still hold the bytes that were committed.
      match payload with
      | some payload =>
          let _ ← (RecordedEvent.fromStoredBytes digest payload old).mapError Failure.event
          return (if old = row.sha256 then .duplicate else .conflict, s)
      | none => return (if old = row.sha256 then .duplicate else .conflict, s)
  | none =>
      if s.refuses row event.identityBytes then return (.conflict, s)
      else do
        let s ← s.insert row config event.identityBytes
        return (.committed, s)

end Store

end Recording

section Retaining

namespace Store

variable (digest : Text → String) (s : Store)

/-- Rows of a destination that were not committed. -/
def hasPending (id : String) : Bool :=
  s.outbox.any fun o => o.destination = id && o.state ≠ .committed

def bindDestination (s : Store) (d : Destination) : Except Failure Store := do
  let old := (s.destinations.find? (·.id = d.id)).map (·.sha256)
  rejectIf (old.any (· ≠ digest d.bytes)) .destinationIdentityChanged
  return if old.isSome then s
    else { s with destinations := s.destinations ++ [⟨d.id, digest d.bytes⟩] }

def bindDestinations (config : RecorderConfig) : Except Failure Store := do
  rejectIf ((s.destinations.filter fun row => !config.destinations.any (·.id = row.id)).any
    fun row => s.hasPending row.id) .destinationHasPendingEvents
  config.destinations.foldlM (bindDestination digest) s

/-- The view `usage_current`: events with the greatest revision of their attempt. -/
def isCurrent (e : EventRow) : Bool :=
  (s.sameAttempt e).all (·.revision ≤ e.revision)

/-- The attempt ended with the event, before a time. -/
def ended (before : Nat) (c : EventRow) : Bool :=
  s.isCurrent c && c.kind = .attemptFinished && c.observedAtMs < before

/-- The outbox joined with the events, at an attempt. -/
def outboxOf (c : EventRow) : List OutboxRow :=
  s.outbox.filter fun o => s.events.any fun e => e.event = o.event && e.attempt = c.attempt

/-- The first statement: a committed row goes when all rows of its ended attempt are committed. -/
def sweeps (before : Nat) (o : OutboxRow) : Bool :=
  decide (o.state = .committed) && s.events.any fun c =>
    s.ended before c && c.producerId = o.producerId &&
      (s.events.find? (·.event = o.event)).map (·.attemptId) = some c.attemptId &&
      !(s.outboxOf c).any (·.state ≠ .committed)

/-- The condition of the other two statements. -/
def retires (before : Nat) (e : EventRow) : Bool :=
  s.events.any fun c => s.ended before c && c.attempt = e.attempt && (s.outboxOf c).isEmpty

/-- The command that removes what ended before a time. -/
def prune (beforeMs : UInt64) : Except Failure (Nat × Store) := do
  let before ← toI64 beforeMs
  let s := { s with outbox := s.outbox.filter fun o => !s.sweeps before o }
  let retired := s.events.filter (s.retires before)
  let s' ← s.insertTombstones (retired.map (·.tombstone))
  return (retired.length, { s' with events := s.events.filter fun e => !s.retires before e })

def retryBlocked (destination : String) : Store :=
  { s with outbox := s.outbox.map fun o =>
      if o.destination = destination &&
          (o.state = .blocked || o.state = .blockedUnsupportedContract) then
        { o with state := .pending, nextAtMs := 0 }
      else o }

end Store

end Retaining

end ResponseGateway.Recorder
