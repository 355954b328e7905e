import ResponseGateway.Ir.Basic
import ResponseGateway.Library.Checked

/-!
Identifiers of the intermediate representation. The source generates three
newtypes from one template; here they are one structure over its kind, with the
check of `new` as a field, so an invalid identifier cannot be built. Orders are
the derived ones: texts by code point, tool identities by namespace and then by
name, with an absent namespace first.
-/

namespace ResponseGateway.Ir
open Checked

/-- The check of `identity!`. -/
def isIdentifier (value : String) : Bool :=
  !(value.isEmpty || value.utf8ByteSize > 512 || value.toList.any isControl)

inductive IdentityKind where
  | item
  | call
  | response
  deriving DecidableEq, Repr

structure Identity (kind : IdentityKind) where
  value : String
  valid : isIdentifier value = true
  deriving DecidableEq, Repr

abbrev ItemId := Identity .item
abbrev CallId := Identity .call
abbrev ResponseId := Identity .response

namespace Identity

variable {kind : IdentityKind}

def new (value : String) : Except IrError (Identity kind) :=
  if h : isIdentifier value = true then .ok ⟨value, h⟩ else .error .invalidIdentifier

theorem value_injective : Function.Injective (value : Identity kind → String) := by
  rintro ⟨a, _⟩ ⟨b, _⟩ h
  cases h
  rfl

instance : LinearOrder (Identity kind) := LinearOrder.lift' value value_injective

theorem new_ok {value : String} {id : Identity kind} :
    new value = .ok id ↔ id.value = value := by
  unfold new
  split
  · constructor
    · intro h
      cases h
      rfl
    · intro h
      cases h
      rfl
  · next h =>
      refine ⟨fun hne => (by cases hne), fun heq => absurd ?_ h⟩
      exact heq ▸ id.valid

end Identity

structure ToolIdentity where
  «namespace» : Option String
  name : String
  deriving DecidableEq, Repr

namespace ToolIdentity

def validate (tool : ToolIdentity) : Except IrError Unit := do
  let _ ← (Identity.new tool.name : Except IrError ItemId)
  match tool.namespace with
  | some value =>
      let _ ← (Identity.new value : Except IrError ItemId)
      return ()
  | none => return ()

/-- The derived order compares these pairs lexicographically. -/
def sortKey (tool : ToolIdentity) : WithBot String ×ₗ String := toLex (tool.namespace, tool.name)

theorem sortKey_injective : Function.Injective sortKey := by
  rintro ⟨n, a⟩ ⟨m, b⟩ h
  have heq : (n, a) = (m, b) := toLex.injective h
  cases heq
  rfl

instance : LinearOrder ToolIdentity := LinearOrder.lift' sortKey sortKey_injective

end ToolIdentity

inductive ToolKind where
  | function
  | custom
  deriving DecidableEq, Repr

end ResponseGateway.Ir
