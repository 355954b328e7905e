import Mathlib

/-!
Search for an unused name in a sequence of candidates, as a loop with a counter
runs it. With as many attempts as there are names in use, and one more, the search
cannot fail.
-/

namespace FreshName

variable {α : Type*} [DecidableEq α] (name : Nat → α) (taken : List α)

/-- The first counter from `start` on whose name is not taken. -/
def search : Nat → Nat → Option Nat
  | 0, _ => none
  | fuel + 1, start => if name start ∈ taken then search fuel (start + 1) else some start

variable {name taken}

theorem search_not_mem {fuel start n : Nat} (h : search name taken fuel start = some n) :
    name n ∉ taken := by
  induction fuel generalizing start with
  | zero => cases h
  | succ fuel ih =>
      rw [search] at h
      split at h
      · exact ih h
      · next hfree =>
          cases h
          exact hfree

theorem search_none {fuel start : Nat} (h : search name taken fuel start = none) :
    ∀ n ∈ List.range' start fuel, name n ∈ taken := by
  induction fuel generalizing start with
  | zero => simp
  | succ fuel ih =>
      rw [search] at h
      split at h
      · next hused =>
          rw [List.range'_succ]
          exact List.forall_mem_cons.2 ⟨hused, ih h⟩
      · cases h

/-- Distinct candidates outnumber the taken names. -/
theorem search_isSome (hname : Function.Injective name) (start : Nat) :
    (search name taken (taken.length + 1) start).isSome = true := by
  rw [Option.isSome_iff_ne_none]
  intro hnone
  have hnodup : ((List.range' start (taken.length + 1)).map name).Nodup :=
    List.Nodup.map hname List.nodup_range'
  have hsub : (List.range' start (taken.length + 1)).map name ⊆ taken := by
    intro x hx
    obtain ⟨n, hn, rfl⟩ := List.mem_map.1 hx
    exact search_none hnone n hn
  have hle := (hnodup.subperm hsub).length_le
  rw [List.length_map, List.length_range'] at hle
  omega

end FreshName
