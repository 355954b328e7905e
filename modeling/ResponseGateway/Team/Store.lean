import ResponseGateway.Management.Journal
import ResponseGateway.Team.Contract

/-!
`gateway_team_access::store`: the tables of the team store, the checks before a command
and the transaction that carries it out. Every statement may fail; an uncommitted
transaction is lost with its guard. The list of commits is not part of the program; it
records the applied commands with the tokens they issued.
-/

namespace ResponseGateway.Team
open Checked Json Method Management
open Ir (hex renderText)

section Tables

structure SubjectRow where
  id : String
  data : String
  deriving DecidableEq, Repr

structure CredentialRow where
  id : String
  verifier : String
  data : String
  deriving DecidableEq, Repr

structure ReceiptRow where
  operation : String
  evidence : String
  deriving DecidableEq, Repr

structure Commit where
  operation : Id
  command : Command
  secret : Option Secret
  deriving DecidableEq

structure Tables where
  generation : Nat
  subjectRows : List SubjectRow
  credentialRows : List CredentialRow
  receiptRows : List ReceiptRow
  commits : List Commit
  deriving DecidableEq

namespace Tables

def empty : Tables := ⟨0, [], [], [], []⟩

def insertSubject (row : SubjectRow) (t : Tables) : Option Tables :=
  if t.subjectRows.any (·.id = row.id) then none
  else some { t with subjectRows := t.subjectRows ++ [row] }

def updateSubject (id data : String) (t : Tables) : Tables :=
  { t with subjectRows := t.subjectRows.map fun r => if r.id = id then { r with data } else r }

/-- The identifier is the primary key, and a verifier is unique. -/
def insertCredential (row : CredentialRow) (t : Tables) : Option Tables :=
  if t.credentialRows.any fun r => r.id = row.id || r.verifier = row.verifier then none
  else some { t with credentialRows := t.credentialRows ++ [row] }

def updateCredential (id data : String) (t : Tables) : Tables :=
  { t with
    credentialRows := t.credentialRows.map fun r => if r.id = id then { r with data } else r }

def insertReceipt (row : ReceiptRow) (commit : Commit) (t : Tables) : Option Tables :=
  if t.receiptRows.any (·.operation = row.operation) then none
  else some { t with
    receiptRows := t.receiptRows ++ [row], commits := t.commits ++ [commit] }

end Tables

end Tables

section Reading

namespace Tables

variable (t : Tables)

def subjects : Except Error (List Subject) := do
  let result ← ((t.subjectRows.mergeSort fun a b => a.id ≤ b.id).take 129).mapM fun row =>
    decode Subject.codec row.data
  rejectIf (result.length > 128) .invalidStore
  result.forM fun value => value.permissions.validate.mapError fun _ => .invalidStore
  return result

def credentials : Except Error (List StoredCredential) := do
  let result ← ((t.credentialRows.mergeSort fun a b => a.id ≤ b.id).take 1025).mapM fun row =>
    decode StoredCredential.codec row.data
  rejectIf (result.length > 1024) .invalidStore
  return result

def subject (id : Id) : Except Error Subject := do
  let row ← okOr (t.subjectRows.find? (·.id = id.value)) .notFound
  let value ← decode Subject.codec row.data
  rejectIf (value.id ≠ id) .invalidStore
  value.permissions.validate
  return value

def credential (id : Id) : Except Error StoredCredential := do
  let row ← okOr (t.credentialRows.find? (·.id = id.value)) .notFound
  let value ← decode StoredCredential.codec row.data
  rejectIf (value.metadata.id ≠ id) .invalidStore
  return value

variable (sha256 : String → Ir.Digest)

/-- `u64::checked_add` of one. -/
def successor (n : UInt64) : Option UInt64 := if n.toNat + 1 < 2 ^ 64 then some (n + 1) else none

def evidence (operation : Operation) : Except Error (Option (Evidence × Digest)) :=
  match t.receiptRows.find? (·.operation = operation.id.value) with
  | none => .ok none
  | some row => do
      let value ← decode Evidence.codec row.evidence
      rejectIf (value.schema ≠ effectSchema || value.operation ≠ operation.id ||
        value.requestSha256 ≠ operation.request.fingerprint sha256 ||
        value.before ≠ operation.request.expected ||
        successor value.before.revision ≠ some value.after.revision) .invalidStore
      return some (value, .of sha256 row.evidence)

end Tables

def credentialDigest (sha256 : String → Ir.Digest) (value : StoredCredential) : Digest :=
  .of sha256 (json StoredCredential.codec value)

def Tables.verifyIssuance (t : Tables) (sha256 : String → Ir.Digest) (operation : Operation)
    (key : StoredCredential) : Except Error Unit := do
  let found ← t.evidence sha256 operation
  let (value, digest) ← okOr found .invalidStore
  rejectIf (value.issuedCredentialSha256 ≠ some (credentialDigest sha256 key) ||
    operation.events.getLast?.bind (·.effect) ≠ some (.applied value.after digest)) .invalidStore

end Reading

section Statements

structure Connection where
  tables : Tables
  /-- Which of the next statements fail; those behind the list succeed. -/
  faults : List Bool

abbrev Access (α : Type) := Method Connection Error α

variable {α : Type}

def contact : Access PUnit := fun c =>
  match c.faults with
  | [] => (.ok ⟨⟩, c)
  | true :: rest => (.error .storage, { c with faults := rest })
  | false :: rest => (.ok ⟨⟩, { c with faults := rest })

def select (f : Tables → Except Error α) : Access α := do
  contact
  let c ← read
  check (f c.tables)

def execute (f : Tables → Option Tables) : Access PUnit := do
  contact
  let c ← read
  let tables ← check (okOr (f c.tables) .storage)
  write fun c => { c with tables }

end Statements

section Commands

/-- Nothing may be stored under the identifier. -/
def absent {α : Type} (found : Except Error α) : Except Error Unit :=
  match found with
  | .error .notFound => .ok ()
  | .ok _ => .error .conflict
  | .error e => .error e

/-- `validate`. -/
def validate : Command → Access PUnit
  | .register id _ => do
      let _ ← select fun t => absent (t.subject id)
      let known ← select Tables.subjects
      let _ ← check (rejectIf (known.length ≥ 128) .conflict)
      pure ⟨⟩
  | .permissionsChange id _ => do
      let _ ← select (·.subject id)
      pure ⟨⟩
  | .issue id key purpose => do
      let owner ← select (·.subject id)
      let _ ← check (rejectIf (!owner.permissions.enabled ||
        (purpose = .model && owner.permissions.routes = ∅)) .forbidden)
      let _ ← select fun t => absent (t.credential key)
      let known ← select Tables.credentials
      let _ ← check (rejectIf (known.length ≥ 1024) .conflict)
      pure ⟨⟩
  | .revoke key => do
      let old ← select (·.credential key)
      let _ ← check (rejectIf old.metadata.revoked .conflict)
      pure ⟨⟩
  | .rotate key replacement => do
      let old ← select (·.credential key)
      let owner ← select (·.subject old.metadata.subject)
      let _ ← check (rejectIf (old.metadata.revoked || !owner.permissions.enabled) .conflict)
      let _ ← select fun t => absent (t.credential replacement)
      let known ← select Tables.credentials
      let _ ← check (rejectIf (known.length ≥ 1024) .conflict)
      pure ⟨⟩

variable (sha256 : String → Ir.Digest)

def snapshotText (revision : UInt64) (subjects : List Subject)
    (credentials : List StoredCredential) : String :=
  renderText (.array [Codec.u64.encode revision, Subject.codec.list.encode subjects,
    StoredCredential.codec.list.encode credentials])

def snapshot : Access Snapshot := do
  let revision ← select fun t => .ok (UInt64.ofNat t.generation)
  let subjects ← select Tables.subjects
  let credentials ← select Tables.credentials
  pure ⟨revision, .of sha256 (snapshotText revision subjects credentials)⟩

def revoke (key : Id) : Access PUnit := do
  let value ← select (·.credential key)
  execute fun t => some (t.updateCredential key.value (json StoredCredential.codec
    { value with metadata := { value.metadata with revoked := true } }))

/-- The text that is handed out: the start of its purpose and thirty-two random bytes. -/
def tokenText (purpose : Purpose) (bytes : Vector UInt8 32) : String :=
  purpose.start ++ String.ofList (hex bytes.toList)

def issue (owner key : Id) (purpose : Purpose) (operation : Id) (fingerprint : Digest)
    (random : Option (Vector UInt8 32)) : Access Secret := do
  let bytes ← check (okOr random .storage)
  let raw := tokenText purpose bytes
  let verifier := Digest.of sha256 raw
  execute (Tables.insertCredential ⟨key.value, verifier.value, json StoredCredential.codec
    ⟨⟨key, owner, purpose, false, operation⟩, verifier, fingerprint⟩⟩)
  pure ⟨key, raw⟩

/-- `UPDATE metadata`, refused at the greatest generation. -/
def advance : Access PUnit := do
  contact
  let c ← read
  let _ ← check (rejectIf (c.tables.generation ≥ 9223372036854775807) .conflict)
  write fun c => { c with tables := { c.tables with generation := c.tables.generation + 1 } }

structure Prepared where
  tx : Option Tables
  command : Command
  before : Snapshot
  requestSha256 : Digest
  operation : Option Id
  deriving DecidableEq

/-- What a command changes, with the token it issues. -/
def change (command : Command) (operation : Id) (fingerprint : Digest)
    (random : Option (Vector UInt8 32)) : Access (Option Secret) :=
  match command with
  | .register id permissions => do
      execute (Tables.insertSubject ⟨id.value, json Subject.codec ⟨id, 1, permissions⟩⟩)
      pure none
  | .permissionsChange id permissions => do
      let value ← select (·.subject id)
      let revision ← check (okOr (Tables.successor value.revision) .conflict)
      execute fun t => some (t.updateSubject id.value (json Subject.codec
        { value with revision, permissions }))
      pure none
  | .issue subject credential purpose => do
      let secret ← issue sha256 subject credential purpose operation fingerprint random
      pure (some secret)
  | .revoke key => do
      revoke key
      pure none
  | .rotate key replacement => do
      let old ← select (·.credential key)
      revoke key
      let secret ← issue sha256 old.metadata.subject replacement old.metadata.purpose operation
        fingerprint random
      pure (some secret)

/-- The digest of the issued credential, as it is stored. -/
def certify : Option Secret → Access (Option Digest)
  | none => pure none
  | some secret => do
      let key ← select (·.credential secret.credential)
      pure (some (credentialDigest sha256 key))

/-- The body of `apply` before the end of its transaction. -/
def Prepared.perform (p : Prepared) (operation : Id) (random : Option (Vector UInt8 32)) :
    Access (Snapshot × Digest × Option Secret) := do
  let secret ← change sha256 p.command operation p.requestSha256 random
  advance
  let after ← snapshot sha256
  let issued ← certify sha256 secret
  let text := json Evidence.codec
    ⟨effectSchema, operation, p.requestSha256, p.before, after, issued⟩
  execute (Tables.insertReceipt ⟨operation.value, text⟩ ⟨operation, p.command, secret⟩)
  pure (after, .of sha256 text, secret)

end Commands

section Manager

/-- What one call of the adapter draws: which statements fail, the random bytes, how the
transaction ends and whether a crash comes before or after that. -/
structure Draw where
  prepare : List Bool
  apply : List Bool
  reconcile : List Bool
  random : Option (Vector UInt8 32)
  commit : Fault
  rollback : Bool
  late : Bool

/-- The committed tables, the prepared transaction and the caller's slot for a token. -/
structure Manager where
  tables : Tables
  prepared : Option Prepared
  secret : Option Secret

/-- `Manager::initialize`. -/
def Manager.new : Manager := ⟨.empty, none, none⟩

variable (sha256 : String → Ir.Digest) (target : Id)

def prepareChecks (request : Request) (command : Command) (transport : Digest)
    (slot : Option Secret) : Access Snapshot := do
  let _ ← check (rejectIf (request.target ≠ target || request.action ≠ command.action ||
    request.parametersSha256 ≠ transport) .invalidInput)
  let _ ← check (command.digest sha256)
  let _ ← check (rejectIf slot.isSome .conflict)
  contact
  validate command
  snapshot sha256

def prepareMapped (command : Command) (transport : Digest) (slot : Option Secret) (draw : Draw)
    (request : Request) (m : Manager) : Except Error Snapshot × Manager :=
  match prepareChecks sha256 target request command transport slot ⟨m.tables, draw.prepare⟩ with
  | (.error e, _) => (.error e, m)
  | (.ok before, c) => (.ok before, { m with
      prepared := some ⟨some c.tables, command, before, request.fingerprint sha256, none⟩
      secret := slot })

def accepted (operation : Id) (m : Manager) : Manager :=
  { m with prepared := m.prepared.map fun p => { p with operation := some operation } }

def apply (draw : Draw) (m : Manager) : Effect × Manager :=
  match m.prepared with
  | none => (.uncertain .unverified, m)
  | some p =>
      let taken := { m with prepared := some { p with tx := none } }
      match p.tx, p.operation with
      | none, _ => (.uncertain .unverified, taken)
      | some _, none => (.notApplied .rejected, taken)
      | some tx, some operation =>
          match p.perform sha256 operation draw.random ⟨tx, draw.apply⟩ with
          | (.error _, _) =>
              (if draw.rollback then .uncertain .unverified else .notApplied .effectFailed, taken)
          | (.ok (after, evidence, secret), c) =>
              match draw.commit with
              | .none => (.applied after evidence, { taken with tables := c.tables, secret })
              | .lost | .crashAfter => (.uncertain .unverified, { taken with tables := c.tables })
              | .failed | .crash => (.uncertain .unverified, taken)

/-- The end of the guard: what is not committed is lost. -/
def release (m : Manager) : Manager := { m with prepared := none }

def answer (operation : Operation) : Access Effect := do
  let _ ← check (rejectIf (operation.request.target ≠ target) .invalidInput)
  contact
  let found ← select (·.evidence sha256 operation)
  match found with
  | none => pure (.uncertain .unverified)
  | some (value, digest) => pure (.applied value.after digest)

def reconcile (draw : Draw) (operation : Operation) (m : Manager) : Except Error Effect × Manager :=
  ((answer sha256 target operation ⟨m.tables, draw.reconcile⟩).1, m)

/-- `Bound`, and with another transport digest the mapped form; `Manager::execute` is the
journal's `execute` with it, behind the same three checks of the request. -/
def bound (command : Command) (transport : Digest) (slot : Option Secret) (draw : Draw) :
    Backend Manager where
  prepare := prepareMapped sha256 target command transport slot draw
  accepted := accepted
  apply := apply sha256 draw
  torn m := if draw.late then (apply sha256 draw m).2 else m
  release := release
  reconcile := reconcile sha256 target draw

end Manager

end ResponseGateway.Team
