import ResponseGateway.Ir.Digest
import ResponseGateway.Library.Checked

/-!
`gateway_management::contract`: identifiers, grants, audited requests and the
operations made of them. Identifiers and digests are checked where they are built,
so every value of their types is valid. The hash function is a parameter.
-/

namespace ResponseGateway.Management
open Checked Ir

inductive Error where
  | invalidInput
  | forbidden
  | conflict
  | notFound
  | alreadyOwned
  | invalidStore
  | unsupportedSchema
  | unsupported
  | storage
  | invalidTransition
  | uncertain (operation : String)
  deriving DecidableEq, Repr

def contract : String := "gateway-management/v1"

section Identifiers

def isIdChar (c : Char) : Bool := c.isAlphanum || c ∈ ['-', '_', '.', ':']

def isId (value : String) : Bool :=
  value ≠ "" && value.utf8ByteSize ≤ 96 && value.toList.all isIdChar

@[ext] structure Id where
  value : String
  valid : isId value = true
  deriving DecidableEq, Repr

def Id.new (value : String) : Except Error Id :=
  if h : isId value = true then .ok ⟨value, h⟩ else .error .invalidInput

@[simp] theorem Id.new_value (id : Id) : Id.new id.value = .ok id := dif_pos id.valid

theorem Id.value_injective : Function.Injective Id.value := fun _ _ h => Id.ext h

/-- The derived order: that of the texts. -/
instance : LinearOrder Id := LinearOrder.lift' Id.value Id.value_injective

def isDigest (value : String) : Bool :=
  value.utf8ByteSize = 64 && value.toList.all isLowerHex

@[ext] structure Digest where
  value : String
  valid : isDigest value = true
  deriving DecidableEq, Repr

def Digest.new (value : String) : Except Error Digest :=
  if h : isDigest value = true then .ok ⟨value, h⟩ else .error .invalidInput

@[simp] theorem Digest.new_value (d : Digest) : Digest.new d.value = .ok d := dif_pos d.valid

theorem isDigest_hex (bytes : Ir.Digest) : isDigest (String.ofList (hex bytes.toList)) = true := by
  have hhex := hex_isLowerHex bytes.toList
  have hsize : (String.ofList (hex bytes.toList)).utf8ByteSize = 64 := by
    rw [utf8ByteSize_ofList, len_of_isLowerHex hhex, hex_length, Vector.length_toList]
  simp only [isDigest, hsize, String.toList_ofList, List.all_eq_true.2 hhex, decide_true,
    Bool.and_self]

/-- `Digest::of`, with the hash of a text as a parameter. -/
def Digest.of (sha256 : String → Ir.Digest) (text : String) : Digest :=
  ⟨String.ofList (hex (sha256 text).toList), isDigest_hex _⟩

end Identifiers

section Authority

inductive Action where
  | readState
  | readUsage
  | readOperations
  | reconcile
  | configurationStage
  | configurationSelect
  | runtimeStart
  | runtimeStop
  | runtimeRestart
  | packageInstall
  | packageEnable
  | packageDisable
  | packageSelect
  | continuationTransition
  | teamSubjectRegister
  | teamCredentialIssue
  | teamCredentialRevoke
  | teamCredentialRotate
  | teamPermissionsChange
  deriving DecidableEq, Repr

def Action.isEffect : Action → Bool
  | .readState | .readUsage | .readOperations | .reconcile => false
  | _ => true

/-- The derived order: that of the declaration. -/
instance : LinearOrder Action := LinearOrder.lift' Action.ctorIdx (by
  intro a b h
  cases a <;> cases b <;> first | rfl | cases h)

structure Grant where
  action : Action
  target : Id
  deriving DecidableEq, Repr

/-- The derived order: the action, then the target. -/
instance : LinearOrder Grant :=
  LinearOrder.lift' (fun g => toLex (g.action, g.target)) (by
    rintro ⟨a, t⟩ ⟨a', t'⟩ h
    simp only [toLex_inj, Prod.mk.injEq] at h
    rw [h.1, h.2])

structure Identity where
  subject : Id
  credential : Id
  deriving DecidableEq, Repr

/-- Built by a trusted authentication adapter only. -/
structure Actor where
  identity : Identity
  grants : Finset Grant
  few : grants.card ≤ 256

def Actor.new (identity : Identity) (grants : Finset Grant) : Except Error Actor :=
  if h : grants.card ≤ 256 then .ok ⟨identity, grants, h⟩ else .error .invalidInput

def Actor.authorize (actor : Actor) (action : Action) (target : Id) : Except Error Grant :=
  if ⟨action, target⟩ ∈ actor.grants then .ok ⟨action, target⟩ else .error .forbidden

theorem Actor.authorize_ok {actor : Actor} {action : Action} {target : Id} {grant : Grant}
    (h : actor.authorize action target = .ok grant) :
    grant = ⟨action, target⟩ ∧ grant ∈ actor.grants := by
  unfold Actor.authorize at h
  split at h
  · next hmem =>
      cases h
      exact ⟨rfl, hmem⟩
  · cases h

end Authority

structure Snapshot where
  revision : UInt64
  digest : Digest
  deriving DecidableEq, Repr

/-- Audit-safe intent. -/
structure Request where
  target : Id
  action : Action
  expected : Snapshot
  idempotencyKey : Id
  parametersSha256 : Digest
  deriving DecidableEq, Repr

def Request.validate (request : Request) : Except Error Unit :=
  if request.action.isEffect then .ok () else .error .invalidInput

inductive FailureCode where
  | rejected
  | stale
  | unavailable
  | interrupted
  | unverified
  | effectFailed
  deriving DecidableEq, Repr

inductive Effect where
  | applied (after : Snapshot) (evidenceSha256 : Digest)
  | notApplied (code : FailureCode)
  | uncertain (code : FailureCode)
  deriving DecidableEq, Repr

inductive State where
  | queued
  | running
  | succeeded
  | failed
  | uncertain
  deriving DecidableEq, Repr

def Effect.state : Effect → State
  | .applied .. => .succeeded
  | .notApplied _ => .failed
  | .uncertain _ => .uncertain

inductive Phase where
  | accepted
  | started
  | finished
  | recovery
  | reconciled
  deriving DecidableEq, Repr

structure Event where
  sequence : UInt64
  atMs : UInt64
  phase : Phase
  state : State
  actor : Option Identity
  authorization : Option Grant
  effect : Option Effect
  deriving DecidableEq, Repr

structure Operation where
  schema : String
  id : Id
  actor : Identity
  authorization : Grant
  request : Request
  state : State
  events : List Event
  deriving DecidableEq, Repr

/-- An adapter over its state: what each call returns and the state after it. A value
of this type stands for the adapter in one call of the journal, so what it draws at
random and where it fails is part of it. `torn` is what a crash inside `apply` leaves
and `release` the end of the prepared guard, by return or by crash. -/
structure Backend (S : Type) where
  prepare : Request → S → Except Error Snapshot × S
  accepted : Id → S → S
  apply : S → Effect × S
  torn : S → S
  release : S → S
  reconcile : Operation → S → Except Error Effect × S

end ResponseGateway.Management
