import ResponseGateway.Library.OrderedMap
import ResponseGateway.Team.Store

/-!
`gateway_team_access::auth`: what the authority reads of both stores for a token or an
identity, and the evidence it keeps of the issues it has confirmed. Both databases are
read at one moment.
-/

namespace ResponseGateway.Team
open Checked Json Method Management
open Ir (hex renderText isLowerHex)

section Types

structure Principal where
  identity : Identity
  purpose : Purpose
  permissions : Permissions
  authorizationVersion : Digest
  deriving DecidableEq

inductive CredentialKind where
  | management
  | readOnly
  deriving DecidableEq, Repr

structure ManagementPrincipal where
  actor : Actor
  kind : CredentialKind
  authorizationVersion : Digest

inductive Select where
  | token (purpose : Purpose) (text : String)
  | identity (identity : Identity)

/-- The issues that have been confirmed: the request and the credential as it was issued. -/
structure Authority where
  confirmed : List (Id × Digest × Digest)

/-- `Authenticator::open`. -/
def Authority.new : Authority := ⟨[]⟩

end Types

section Reading

/-- `Reader::get` of the journal. -/
def readOperation (db : Db) (actor : Actor) (target id : Id) : Except Error Operation := do
  let _ ← actor.authorize .readOperations target
  let operation ← recorded db id
  rejectIf (operation.request.target ≠ target) .notFound
  return operation

def evidenceActor (target : Id) : Actor where
  identity := ⟨⟨"team-authority", by decide⟩, ⟨"internal-evidence-reader", by decide⟩⟩
  grants := {⟨.readOperations, target⟩}
  few := by
    rw [Finset.card_singleton]
    decide

/-- The start of the purpose and sixty-four lowercase hexadecimal digits. -/
def isToken (purpose : Purpose) (token : String) : Bool :=
  token.utf8ByteSize = purpose.start.utf8ByteSize + 64 &&
    purpose.start.toList.isPrefixOf token.toList &&
    (token.toList.drop purpose.start.toList.length).all isLowerHex

variable (sha256 : String → Ir.Digest)

def Tables.selected (t : Tables) : Select → Except Error StoredCredential
  | .token purpose text => do
      rejectIf (!isToken purpose text) .forbidden
      let hash := Digest.of sha256 text
      let row ← okOr (t.credentialRows.find? (·.verifier = hash.value)) .forbidden
      let id ← Id.new row.id
      let key ← t.credential id
      rejectIf (key.verifier ≠ hash || key.metadata.purpose ≠ purpose) .forbidden
      return key
  | .identity identity => do
      let key ← t.credential identity.credential
      rejectIf (key.metadata.subject ≠ identity.subject) .forbidden
      return key

/-- The read transaction of `principal`, which binds the permissions of a subject to the
status of its credential. -/
def Tables.holder (t : Tables) (selected : Select) : Except Error (StoredCredential × Subject) := do
  let key ← t.selected sha256 selected
  let owner ← t.subject key.metadata.subject
  rejectIf (key.metadata.revoked || !owner.permissions.enabled) .forbidden
  return (key, owner)

def authorizationVersion (metadata : Credential) (owner : Subject) : Digest :=
  .of sha256 (renderText (.array [Credential.codec.encode metadata,
    Codec.u64.encode owner.revision, Permissions.codec.encode owner.permissions]))

end Reading

section Lookups

variable (sha256 : String → Ir.Digest) (target : Id)

/-- The audit of the issue of a credential, and the room for one more. -/
def audited (v : Db × Manager) (key : StoredCredential) (known : Nat) : Except Error Unit := do
  let operation ← readOperation v.1 (evidenceActor target) target key.metadata.issuedOperation
  rejectIf (operation.state ≠ .succeeded ||
    operation.request.fingerprint sha256 ≠ key.requestSha256 ||
    (operation.request.action ≠ .teamCredentialIssue &&
      operation.request.action ≠ .teamCredentialRotate)) .forbidden
  v.2.tables.verifyIssuance sha256 operation key
  rejectIf (known ≥ 1024) .conflict

/-- The part of `principal` behind the transaction: an issue that has been confirmed is
not audited again. -/
def confirm (v : Db × Manager) (key : StoredCredential) : Method Authority Error PUnit := do
  let proof := (key.requestSha256, credentialDigest sha256 key)
  let authority ← read
  if Assoc.get key.metadata.issuedOperation authority.confirmed = some proof then pure ⟨⟩
  else do
    let _ ← check (audited sha256 target v key authority.confirmed.length)
    write fun a => ⟨Assoc.insert key.metadata.issuedOperation proof a.confirmed⟩

def principal (v : Db × Manager) (selected : Select) : Method Authority Error Principal := do
  let (key, owner) ← check (v.2.tables.holder sha256 selected)
  confirm sha256 target v key
  pure ⟨⟨key.metadata.subject, key.metadata.id⟩, key.metadata.purpose, owner.permissions,
    authorizationVersion sha256 key.metadata owner⟩

variable (v : Db × Manager) (a : Authority)

def authenticateModel (token : String) : Option Principal :=
  (principal sha256 target v (.token .model token) a).1.toOption

def refreshModel (identity : Identity) (version : Digest) : Option Principal :=
  (principal sha256 target v (.identity identity) a).1.toOption.filter fun p =>
    p.purpose = .model && p.authorizationVersion = version

/-- The kind of management that a purpose allows. -/
def Purpose.kind : Purpose → Option CredentialKind
  | .model => none
  | .management => some .management
  | .readOnly => some .readOnly

/-- The grants that a kind of credential may use. -/
def CredentialKind.allows (kind : CredentialKind) (g : Grant) : Bool :=
  kind = .management || g.action ∈ [.readState, .readUsage, .readOperations]

def management (p : Principal) : Option ManagementPrincipal := do
  let kind ← p.purpose.kind
  let actor ← (Actor.new p.identity (p.permissions.management.filter fun g => kind.allows g)).toOption
  return ⟨actor, kind, p.authorizationVersion⟩

def authenticate (token : String) : Option ManagementPrincipal :=
  if Purpose.management.start.toList.isPrefixOf token.toList then
    (principal sha256 target v (.token .management token) a).1.toOption.bind management
  else if Purpose.readOnly.start.toList.isPrefixOf token.toList then
    (principal sha256 target v (.token .readOnly token) a).1.toOption.bind management
  else none

def refresh (identity : Identity) (version : Digest) : Option ManagementPrincipal :=
  ((principal sha256 target v (.identity identity) a).1.toOption.filter fun p =>
    p.authorizationVersion = version).bind management

end Lookups

end ResponseGateway.Team
