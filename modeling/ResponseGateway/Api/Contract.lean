import ResponseGateway.Team.Authority

/-!
`gateway_management_api::contract`: the closed commands of the wire with their checks, the
submissions made of them and the queries of a reader. The bodies of requests are taken as
they were decoded.
-/

namespace ResponseGateway.Api
open Checked Json Management
open Ir (renderText)
open Team (Permissions Purpose CredentialKind)

section Commands

abbrev TeamPermissions := Permissions

abbrev TeamPurpose := Purpose

inductive PackageFamily where
  | native
  | profilePack
  deriving DecidableEq, Repr

def PackageFamily.name : PackageFamily → String
  | .native => "native"
  | .profilePack => "profile_pack"

def PackageFamily.encode (family : PackageFamily) : Json := .string family.name

structure PackageSelection where
  id : Id
  version : String
  packageSha256 : Digest
  deriving DecidableEq, Repr

def PackageSelection.encode (package : PackageSelection) : Json :=
  .object [("id", Id.codec.encode package.id), ("version", .string package.version),
    ("package_sha256", Digest.codec.encode package.packageSha256)]

inductive Command where
  | teamSubjectRegister (subject : Id) (permissions : TeamPermissions)
  | teamPermissionsChange (subject : Id) (permissions : TeamPermissions)
  | teamCredentialIssue (subject credential : Id) (purpose : TeamPurpose)
  | teamCredentialRevoke (credential : Id)
  | teamCredentialRotate (credential replacement : Id)
  | runtimeStart
  | runtimeStop
  | runtimeRestart
  | configurationStage (source candidate : Id) (sourceSha256 : Digest)
  | configurationSelect (candidate : Id)
  | packageInstall (family : PackageFamily) (source : Id)
  | packageEnable (family : PackageFamily) (package : PackageSelection) (grants : List String)
      (recorder : Option Id)
  | packageDisable (family : PackageFamily) (package : Id)
  | packageSelect (family : PackageFamily) (package : PackageSelection) (grants : List String)
      (recorder : Option Id)
  | continuationTransition (session : Id) (revision : UInt64) (transitionKind : String)
      (portableSha256 : Option Digest) (decisionReference : Id)
      (pendingTools pendingApprovals : Bool)
  deriving DecidableEq

namespace Command

def action : Command → Action
  | .teamSubjectRegister .. => .teamSubjectRegister
  | .teamPermissionsChange .. => .teamPermissionsChange
  | .teamCredentialIssue .. => .teamCredentialIssue
  | .teamCredentialRevoke _ => .teamCredentialRevoke
  | .teamCredentialRotate .. => .teamCredentialRotate
  | .runtimeStart => .runtimeStart
  | .runtimeStop => .runtimeStop
  | .runtimeRestart => .runtimeRestart
  | .configurationStage .. => .configurationStage
  | .configurationSelect _ => .configurationSelect
  | .packageInstall .. => .packageInstall
  | .packageEnable .. => .packageEnable
  | .packageDisable .. => .packageDisable
  | .packageSelect .. => .packageSelect
  | .continuationTransition .. => .continuationTransition

def isWord (c : Char) : Bool := ('a' ≤ c && c ≤ 'z') || c = '_'

def badVersion (version : String) : Bool :=
  version.utf8ByteSize > 32 || (version.toList.splitOn '.').length ≠ 3 ||
    !version.toList.all fun c => c.isDigit || c = '.'

def badGrants (grants : List String) : Bool :=
  grants.length > 8 ||
    (grants.any fun g => g.isEmpty || g.utf8ByteSize > 64 || !g.toList.all isWord) ||
    (grants.zip grants.tail).any fun g => g.1 ≥ g.2

def validate : Command → Except Error Unit
  | .teamSubjectRegister _ permissions | .teamPermissionsChange _ permissions =>
      permissions.validate
  | .teamCredentialRotate credential replacement =>
      rejectIf (credential = replacement) .invalidInput
  | .packageEnable _ package grants _ | .packageSelect _ package grants _ =>
      rejectIf (badVersion package.version || badGrants grants) .invalidInput
  | .continuationTransition _ _ kind _ _ pendingTools pendingApprovals =>
      rejectIf (pendingTools || pendingApprovals || kind.isEmpty || kind.utf8ByteSize > 64 ||
        !kind.toList.all isWord) .invalidInput
  | _ => .ok ()

def requiresDelivery : Command → Bool
  | .teamCredentialIssue .. | .teamCredentialRotate .. => true
  | _ => false

/-- An absent value is written as null. -/
def nullable {α : Type} (encode : α → Json) (value : Option α) : Json := value.elim .null encode

def tagged (kind : String) (fields : List (String × Json)) : Json :=
  .object (("kind", .string kind) :: fields)

def selecting (kind : String) (family : PackageFamily) (package : PackageSelection)
    (grants : List String) (recorder : Option Id) : Json :=
  tagged kind [("family", family.encode), ("package", package.encode),
    ("grants", .array (grants.map .string)), ("recorder", nullable Id.codec.encode recorder)]

/-- A command is only ever written here, for its digest and for a reviewer. -/
def encode : Command → Json
  | .teamSubjectRegister subject permissions => tagged "team_subject_register"
      [("subject", Id.codec.encode subject), ("permissions", Permissions.codec.encode permissions)]
  | .teamPermissionsChange subject permissions => tagged "team_permissions_change"
      [("subject", Id.codec.encode subject), ("permissions", Permissions.codec.encode permissions)]
  | .teamCredentialIssue subject credential purpose => tagged "team_credential_issue"
      [("subject", Id.codec.encode subject), ("credential", Id.codec.encode credential),
        ("purpose", Purpose.codec.encode purpose)]
  | .teamCredentialRevoke credential => tagged "team_credential_revoke"
      [("credential", Id.codec.encode credential)]
  | .teamCredentialRotate credential replacement => tagged "team_credential_rotate"
      [("credential", Id.codec.encode credential), ("replacement", Id.codec.encode replacement)]
  | .runtimeStart => tagged "runtime_start" []
  | .runtimeStop => tagged "runtime_stop" []
  | .runtimeRestart => tagged "runtime_restart" []
  | .configurationStage source candidate sourceSha256 => tagged "configuration_stage"
      [("source", Id.codec.encode source), ("candidate", Id.codec.encode candidate),
        ("source_sha256", Digest.codec.encode sourceSha256)]
  | .configurationSelect candidate => tagged "configuration_select"
      [("candidate", Id.codec.encode candidate)]
  | .packageInstall family source => tagged "package_install"
      [("family", family.encode), ("source", Id.codec.encode source)]
  | .packageEnable family package grants recorder =>
      selecting "package_enable" family package grants recorder
  | .packageDisable family package => tagged "package_disable"
      [("family", family.encode), ("package", Id.codec.encode package)]
  | .packageSelect family package grants recorder =>
      selecting "package_select" family package grants recorder
  | .continuationTransition session revision kind portable decision tools approvals =>
      tagged "continuation_transition"
        [("session", Id.codec.encode session), ("revision", Codec.u64.encode revision),
          ("transition_kind", .string kind),
          ("portable_sha256", nullable Digest.codec.encode portable),
          ("decision_reference", Id.codec.encode decision), ("pending_tools", .bool tools),
          ("pending_approvals", .bool approvals)]

variable (sha256 : String → Ir.Digest)

def digest (command : Command) : Except Error Digest := do
  command.validate
  return .of sha256 (renderText command.encode)

end Command

end Commands

section Requests

def schema : String := "gateway-management-http/v1"

structure Submission where
  schema : String
  target : Id
  expected : Snapshot
  idempotencyKey : Id
  command : Command

structure Preflight where
  schema : String
  target : Id
  idempotencyKey : Id
  command : Command

structure Reconcile where
  schema : String
  target : Id

namespace Submission

def request (sha256 : String → Ir.Digest) (submission : Submission) : Except Error Request := do
  rejectIf (submission.schema ≠ Api.schema) .invalidInput
  let parametersSha256 ← submission.command.digest sha256
  return ⟨submission.target, submission.command.action, submission.expected,
    submission.idempotencyKey, parametersSha256⟩

def encode (submission : Submission) : Json :=
  .object [("schema", .string submission.schema), ("target", Id.codec.encode submission.target),
    ("expected", Snapshot.codec.encode submission.expected),
    ("idempotency_key", Id.codec.encode submission.idempotencyKey),
    ("command", submission.command.encode)]

end Submission

structure UsageRange where
  after : UInt64
  fromMs : UInt64
  toMs : UInt64
  timezone : String
  deriving DecidableEq, Repr

def isZoneChar (c : Char) : Bool := c.isAlphanum || c ∈ ['/', '_', '+', '-']

def UsageRange.validate (range : UsageRange) : Except Error Unit :=
  rejectIf (range.after.toNat ≥ 2 ^ 63 || range.fromMs ≥ range.toMs ||
    range.toMs.toNat ≥ 2 ^ 63 ||
    range.toMs.toNat - range.fromMs.toNat > 366 * 24 * 60 * 60 * 1000 ||
    range.timezone.isEmpty || range.timezone.utf8ByteSize > 64 ||
    !range.timezone.toList.all isZoneChar) .invalidInput

inductive Query where
  | state
  | usage (range : UsageRange)
  | continuation (session : Id)

def Query.action : Query → Action
  | .state | .continuation _ => .readState
  | .usage _ => .readUsage

end Requests

end ResponseGateway.Api
