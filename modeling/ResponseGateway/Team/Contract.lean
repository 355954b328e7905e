import ResponseGateway.Management.Encoding

/-!
`gateway_team_access::contract`: subjects with explicit permissions, credentials of a
purpose and the closed set of commands, with the texts they are stored as. What fits
the limits of `Permissions::validate` fits the limit of a stored text.
-/

namespace ResponseGateway.Team
open Checked Json Management
open Ir (hex renderText isLowerHex)

section Types

inductive Purpose where
  | model
  | management
  | readOnly
  deriving DecidableEq, Repr

/-- `Purpose::prefix`. -/
def Purpose.start : Purpose → String
  | .model => "gwt1_model_"
  | .management => "gwt1_manage_"
  | .readOnly => "gwt1_read_"

/-- Explicit host permissions; a model route is an exact alias. -/
structure Permissions where
  enabled : Bool
  routes : Finset String
  management : Finset Grant
  readAllUsage : Bool
  deriving DecidableEq

structure Subject where
  id : Id
  revision : UInt64
  permissions : Permissions
  deriving DecidableEq

structure Credential where
  id : Id
  subject : Id
  purpose : Purpose
  revoked : Bool
  issuedOperation : Id
  deriving DecidableEq, Repr

structure StoredCredential where
  metadata : Credential
  verifier : Digest
  requestSha256 : Digest
  deriving DecidableEq, Repr

structure Evidence where
  schema : String
  operation : Id
  requestSha256 : Digest
  before : Snapshot
  after : Snapshot
  issuedCredentialSha256 : Option Digest
  deriving DecidableEq, Repr

inductive Command where
  | register (subject : Id) (permissions : Permissions)
  | permissionsChange (subject : Id) (permissions : Permissions)
  | issue (subject credential : Id) (purpose : Purpose)
  | revoke (credential : Id)
  | rotate (credential replacement : Id)
  deriving DecidableEq

def Command.action : Command → Action
  | .register .. => .teamSubjectRegister
  | .permissionsChange .. => .teamPermissionsChange
  | .issue .. => .teamCredentialIssue
  | .revoke _ => .teamCredentialRevoke
  | .rotate .. => .teamCredentialRotate

/-- One-time delivery of an issued token. -/
structure Secret where
  credential : Id
  value : String
  deriving DecidableEq, Repr

end Types

section Records

def Purpose.all : List Purpose := [.model, .management, .readOnly]

def Purpose.name : Purpose → String
  | .model => "model"
  | .management => "management"
  | .readOnly => "read_only"

def Purpose.codec : Codec Purpose := .names all name fun a => by cases a <;> rfl

/-- A sorted set. -/
def setCodec {α : Type} [LinearOrder α] (c : Codec α) : Codec (Finset α) :=
  c.list.map List.toFinset (fun s => s.sort) fun s => Finset.sort_toFinset s (· ≤ ·)

def Permissions.codec : Codec Permissions :=
  (((Record.field "enabled" Codec.bool).and <| (Record.field "routes" (setCodec Codec.str)).and <|
    (Record.field "management" (setCodec Grant.codec)).and <|
    .field "read_all_usage" Codec.bool).codec (by decide)).map
    (fun (enabled, routes, management, readAllUsage) =>
      ⟨enabled, routes, management, readAllUsage⟩)
    (fun p => (p.enabled, p.routes, p.management, p.readAllUsage)) fun _ => rfl

def Subject.codec : Codec Subject :=
  (((Record.field "id" Id.codec).and <| (Record.field "revision" Codec.u64).and <|
    .field "permissions" Permissions.codec).codec (by decide)).map
    (fun (id, revision, permissions) => ⟨id, revision, permissions⟩)
    (fun s => (s.id, s.revision, s.permissions)) fun _ => rfl

def Credential.codec : Codec Credential :=
  (((Record.field "id" Id.codec).and <| (Record.field "subject" Id.codec).and <|
    (Record.field "purpose" Purpose.codec).and <| (Record.field "revoked" Codec.bool).and <|
    .field "issued_operation" Id.codec).codec (by decide)).map
    (fun (id, subject, purpose, revoked, issuedOperation) =>
      ⟨id, subject, purpose, revoked, issuedOperation⟩)
    (fun c => (c.id, c.subject, c.purpose, c.revoked, c.issuedOperation)) fun _ => rfl

def StoredCredential.codec : Codec StoredCredential :=
  (((Record.field "metadata" Credential.codec).and <|
    (Record.field "verifier" Digest.codec).and <|
    .field "request_sha256" Digest.codec).codec (by decide)).map
    (fun (metadata, verifier, requestSha256) => ⟨metadata, verifier, requestSha256⟩)
    (fun c => (c.metadata, c.verifier, c.requestSha256)) fun _ => rfl

def Evidence.codec : Codec Evidence :=
  (((Record.field "schema" Codec.str).and <| (Record.field "operation" Id.codec).and <|
    (Record.field "request_sha256" Digest.codec).and <|
    (Record.field "before" Snapshot.codec).and <| (Record.field "after" Snapshot.codec).and <|
    .optional "issued_credential_sha256" (Digest.codec.nullable nofun)).codec (by decide)).map
    (fun (schema, operation, requestSha256, before, after, issued) =>
      ⟨schema, operation, requestSha256, before, after, issued⟩)
    (fun e => (e.schema, e.operation, e.requestSha256, e.before, e.after,
      e.issuedCredentialSha256)) fun _ => rfl

/-- A command is only ever written, for its digest. -/
def Command.encode : Command → Json
  | .register subject permissions => .object [("kind", .string "register"),
      ("subject", Id.codec.encode subject), ("permissions", Permissions.codec.encode permissions)]
  | .permissionsChange subject permissions => .object [("kind", .string "permissions_change"),
      ("subject", Id.codec.encode subject), ("permissions", Permissions.codec.encode permissions)]
  | .issue subject credential purpose => .object [("kind", .string "issue"),
      ("subject", Id.codec.encode subject), ("credential", Id.codec.encode credential),
      ("purpose", Purpose.codec.encode purpose)]
  | .revoke credential => .object [("kind", .string "revoke"),
      ("credential", Id.codec.encode credential)]
  | .rotate credential replacement => .object [("kind", .string "rotate"),
      ("credential", Id.codec.encode credential), ("replacement", Id.codec.encode replacement)]

end Records

section Checks

def badRoute (route : String) : Bool :=
  route.isEmpty || route.utf8ByteSize > 256 || trim route.toList ≠ route.toList ||
    route.toList.any isControl

def Permissions.validate (p : Permissions) : Except Error Unit := do
  rejectIf (p.routes.card > 128 || p.management.card > 256 || p.routes.sort.any badRoute)
    .invalidInput
  rejectIf ((codec.encode p).size > 48 * 1024) .invalidInput

def Permissions.permitsRoute (p : Permissions) (route : String) : Bool :=
  p.enabled && route ∈ p.routes

/-- `Command::digest`, with its checks. -/
def Command.digest (sha256 : String → Ir.Digest) (command : Command) : Except Error Digest := do
  match command with
  | .register _ permissions | .permissionsChange _ permissions => permissions.validate
  | .rotate credential replacement => rejectIf (credential = replacement) .invalidInput
  | .issue .. | .revoke _ => pure ()
  return .of sha256 (renderText command.encode)

end Checks

section Sizes

open Record Codec

variable {p : Permissions}

theorem Permissions.validate_ok : p.validate = .ok () ↔
    (p.routes.card ≤ 128 ∧ p.management.card ≤ 256 ∧ ∀ route ∈ p.routes, badRoute route = false) ∧
      codec.Within (48 * 1024) p := by
  have hroutes : p.routes.sort.any badRoute = false ↔
      ∀ route ∈ p.routes, badRoute route = false := by
    simp [List.any_eq_false, Finset.mem_sort]
  constructor
  · intro h
    obtain ⟨_, hlimits, hsize⟩ := bind_ok.1 h
    rw [rejectIf_ok] at hlimits hsize
    simp only [Bool.or_eq_false_iff, decide_eq_false_iff_not, Nat.not_lt, hroutes] at hlimits hsize
    exact ⟨⟨hlimits.1.1, hlimits.1.2, hlimits.2⟩, hsize⟩
  · rintro ⟨⟨hfew, hgrants, hgood⟩, hsize⟩
    have hlimits : (decide (p.routes.card > 128) || decide (p.management.card > 256) ||
        p.routes.sort.any badRoute) = false := by
      simp only [Bool.or_eq_false_iff, decide_eq_false_iff_not, Nat.not_lt, hroutes]
      exact ⟨⟨hfew, hgrants⟩, hgood⟩
    have hlarge : decide ((codec.encode p).size > 48 * 1024) = false :=
      decide_eq_false (Nat.not_lt.2 hsize)
    rw [Permissions.validate, hlimits, hlarge]
    rfl

/-- A permitted route is short. -/
theorem Permissions.route_size (h : p.validate = .ok ()) {route : String}
    (hroute : p.permitsRoute route = true) : route.utf8ByteSize ≤ 256 := by
  rw [permitsRoute, Bool.and_eq_true, decide_eq_true_eq] at hroute
  have hgood := (validate_ok.1 h).1.2.2 route hroute.2
  simp only [badRoute, Bool.or_eq_false_iff, decide_eq_false_iff_not, Nat.not_lt] at hgood
  exact hgood.1.1.2

theorem Purpose.within (purpose : Purpose) : Purpose.codec.Within 12 purpose :=
  within_names (by decide) purpose

/-- A valid subject fits a stored text. -/
theorem Subject.within {s : Subject} (h : s.permissions.validate = .ok ()) :
    Subject.codec.Within 65536 s :=
  within_map (within_codec (within_and (within_field "id" (Id.within s.id)) <|
    within_and (within_field "revision" (within_u64 s.revision)) <|
    within_field "permissions" (Permissions.validate_ok.1 h).2) (by decide))

theorem Credential.within (c : Credential) : Credential.codec.Within 400 c :=
  within_map (within_codec (within_and (within_field "id" (Id.within c.id)) <|
    within_and (within_field "subject" (Id.within c.subject)) <|
    within_and (within_field "purpose" (Purpose.within c.purpose)) <|
    within_and (within_field "revoked" (within_bool c.revoked)) <|
    within_field "issued_operation" (Id.within c.issuedOperation)) (by decide))

theorem StoredCredential.within (c : StoredCredential) : StoredCredential.codec.Within 600 c :=
  within_map (within_codec (within_and (within_field "metadata" (Credential.within c.metadata)) <|
    within_and (within_field "verifier" (Digest.within c.verifier)) <|
    within_field "request_sha256" (Digest.within c.requestSha256)) (by decide))

theorem decode_subject {s : Subject} (h : s.permissions.validate = .ok ()) :
    decode Subject.codec (json Subject.codec s) = .ok s :=
  decode_json (by decide) (Subject.within h)

theorem decode_credential (c : StoredCredential) :
    decode StoredCredential.codec (json StoredCredential.codec c) = .ok c :=
  decode_json (by decide) ((StoredCredential.within c).mono (by decide))

def effectSchema : String := "gateway-team-effect/v1"

theorem decode_evidence {e : Evidence} (h : e.schema = effectSchema) :
    decode Evidence.codec (json Evidence.codec e) = .ok e := by
  have hschema : Codec.str.Within 26 e.schema := by
    rw [h]
    decide
  have hevidence : Evidence.codec.Within 900 e :=
    within_map (within_codec (within_and (within_field "schema" hschema) <|
      within_and (within_field "operation" (Id.within e.operation)) <|
      within_and (within_field "request_sha256" (Digest.within e.requestSha256)) <|
      within_and (within_field "before" (Snapshot.within e.before)) <|
      within_and (within_field "after" (Snapshot.within e.after)) <|
      within_optional "issued_credential_sha256"
        (within_nullable (fun d _ => Digest.within d) (by decide))) (by decide))
  exact decode_json (by decide) (hevidence.mono (by decide))

theorem json_injective {α : Type} {c : Codec α} (hdepth : c.depth ≤ 128) :
    Function.Injective (json c) := by
  intro a b h
  have hread := c.read_render hdepth a
  have hlist : render (c.encode a) = render (c.encode b) := by
    have htext := congrArg String.toList h
    rwa [json, json, renderText, renderText, String.toList_ofList, String.toList_ofList] at htext
  rw [hlist, c.read_render hdepth b] at hread
  exact (Option.some.inj hread).symm

end Sizes

end ResponseGateway.Team
