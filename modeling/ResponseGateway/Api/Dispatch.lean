import ResponseGateway.Api.Contract
import ResponseGateway.Management.Service

/-!
`gateway_management_app::dispatch`: the adapters behind the service. The team store is the one
of its own module, with the caller's slot for a token; the other adapters are arbitrary. An
operation is prepared, applied and released in the adapter that its command belongs to.
-/

namespace ResponseGateway.Api
open Checked Json Method Management
open Team (Secret)

section Commands

def isLocal (id : Id) : Bool := "local:".toList.isPrefixOf id.value.toList

/-- `team::actions`. -/
def teamActions : List Action :=
  [.teamSubjectRegister, .teamPermissionsChange, .teamCredentialIssue, .teamCredentialRevoke,
    .teamCredentialRotate]

/-- The command of the team store that a command stands for. -/
def Command.toTeam : Command → Option Team.Command
  | .teamSubjectRegister subject permissions => some (.register subject permissions)
  | .teamPermissionsChange subject permissions => some (.permissionsChange subject permissions)
  | .teamCredentialIssue subject credential purpose => some (.issue subject credential purpose)
  | .teamCredentialRevoke credential => some (.revoke credential)
  | .teamCredentialRotate credential replacement => some (.rotate credential replacement)
  | _ => none

def teamIds : Team.Command → List Id
  | .register subject _ | .permissionsChange subject _ => [subject]
  | .issue subject credential _ => [subject, credential]
  | .revoke credential => [credential]
  | .rotate credential replacement => [credential, replacement]

/-- `team::command`. -/
def teamCommand (command : Command) : Except Error Team.Command := do
  let value ← okOr command.toTeam .unsupported
  rejectIf ((teamIds value).any isLocal) .forbidden
  return value

/-- The permissions that a command grants name another target. -/
def grantsElsewhere (target : Id) : Team.Command → Bool
  | .register _ permissions | .permissionsChange _ permissions =>
      permissions.management.sort.any fun g => g.target ≠ target
  | _ => false

end Commands

section Adapters

/-- The team store, if there is one, and all other adapters. Beside them stand the identifier
that a waiting submission was told, and what `completed` returned last. -/
structure Adapters (R : Type) where
  team : Option Team.Manager
  others : R
  announced : Option Id
  delivery : Option Secret

variable {R : Type}

namespace Adapters

def withTeam (team : Team.Manager) (a : Adapters R) : Adapters R := { a with team := some team }

def withOthers (others : R) (a : Adapters R) : Adapters R := { a with others }

def withAnnounced (announced : Option Id) (a : Adapters R) : Adapters R := { a with announced }

def onTeam (f : Team.Manager → Team.Manager) (a : Adapters R) : Adapters R :=
  { a with team := a.team.map f }

/-- What the slot gives out behind an execution. -/
def handedOver (slot : Option Secret) (result : Except Stop Operation) : Option Secret :=
  match slot, result with
  | some secret, .ok operation => if operation.state = .succeeded then some secret else none
  | _, _ => none

/-- Only the team store puts a token into the slot, which is emptied whatever the result is. -/
def completed (result : Except Stop Operation) (a : Adapters R) : Adapters R :=
  { a.onTeam (fun m => { m with secret := none }) with
    delivery := handedOver (a.team.bind (·.secret)) result }

end Adapters

/-- What the adapters do and draw while one request is served. -/
structure Effects (R : Type) where
  others : Backend R
  team : Team.Draw

variable (sha256 : String → Ir.Digest) (target : Id) (effects : Effects R)

/-- `prepare` before it comes to an adapter. -/
def checkIntent (request : Request) (command : Command) : Except Error Digest := do
  let intent ← command.digest sha256
  rejectIf (request.target ≠ target || request.action ≠ command.action ||
    request.parametersSha256 ≠ intent) .invalidInput
  return intent

def checkTeam (command : Command) (a : Adapters R) : Except Error (Team.Command × Team.Manager) := do
  let command ← teamCommand command
  rejectIf (grantsElsewhere target command) .invalidInput
  let m ← okOr a.team .unsupported
  return (command, m)

def prepare (command : Command) (request : Request) (a : Adapters R) :
    Except Error Snapshot × Adapters R :=
  match checkIntent sha256 target request command with
  | .error e => (.error e, a)
  | .ok intent =>
      if command.toTeam.isSome then
        match checkTeam target command a with
        | .error e => (.error e, a)
        | .ok (command, m) =>
            let (result, m) :=
              Team.prepareMapped sha256 target command intent m.secret effects.team request m
            (result, a.withTeam m)
      else
        let (result, others) := effects.others.prepare request a.others
        (result, a.withOthers others)

def reconcileTeam (operation : Operation) (a : Adapters R) : Except Error Effect × Adapters R :=
  match a.team with
  | none => (.error .unsupported, a)
  | some m =>
      let (result, m) := Team.reconcile sha256 target effects.team operation m
      (result, a.withTeam m)

def reconcileAdapters (operation : Operation) (a : Adapters R) :
    Except Error Effect × Adapters R :=
  if operation.request.target ≠ target then (.error .invalidInput, a)
  else if operation.request.action ∈ teamActions then
    reconcileTeam sha256 target effects operation a
  else
    let (result, others) := effects.others.reconcile operation a.others
    (result, a.withOthers others)

/-- `Bound`: the adapters behind the command of a submission. A reconciliation has none. -/
def bound (command : Option Command) : Backend (Adapters R) where
  prepare request a :=
    match command with
    | none => (.error .invalidInput, a)
    | some command => prepare sha256 target effects command request a
  accepted id a :=
    (if ofTeam command then a.onTeam (Team.accepted id)
      else a.withOthers (effects.others.accepted id a.others)).withAnnounced (some id)
  apply a :=
    if ofTeam command then
      match a.team with
      | none => (.uncertain .unverified, a)
      | some m =>
          ((Team.apply sha256 effects.team m).1,
            a.withTeam (Team.apply sha256 effects.team m).2)
    else ((effects.others.apply a.others).1, a.withOthers (effects.others.apply a.others).2)
  torn a :=
    if ofTeam command then
      a.onTeam fun m => if effects.team.late then (Team.apply sha256 effects.team m).2 else m
    else a.withOthers (effects.others.torn a.others)
  release a :=
    if ofTeam command then a.onTeam Team.release
    else a.withOthers (effects.others.release a.others)
  reconcile := reconcileAdapters sha256 target effects
where
  ofTeam : Option Command → Bool
    | some command => command.toTeam.isSome
    | none => false

end Adapters

end ResponseGateway.Api
