import Mathlib

/-!
Sorting by a key that keeps the order of elements with equal keys.
-/

namespace StableSort

variable {α : Type*} (key : α → Nat)

def sortByKey (l : List α) : List α := l.insertionSort fun a b => key a ≤ key b

def Sorted (l : List α) : Prop := l.Pairwise fun a b => key a ≤ key b

theorem perm_sortByKey (l : List α) : (sortByKey key l).Perm l := List.perm_insertionSort _ l

theorem sorted_sortByKey (l : List α) : Sorted key (sortByKey key l) := by
  have : Std.Total fun a b : α => key a ≤ key b := ⟨fun a b => Nat.le_total _ _⟩
  have : IsTrans α fun a b => key a ≤ key b := ⟨fun _ _ _ => Nat.le_trans⟩
  exact List.pairwise_insertionSort _ l

variable {key}

/-- Elements with the same key stay in their order. -/
theorem filter_sortByKey {p : α → Bool} {k : Nat} (h : ∀ a, p a = true → key a = k) (l : List α) :
    (sortByKey key l).filter p = l.filter p := by
  have hsorted : (l.filter p).Pairwise fun a b => key a ≤ key b :=
    List.Pairwise.imp_of_mem (R := fun _ _ => True)
      (fun ha hb _ => Nat.le_of_eq
        ((h _ (List.mem_filter.1 ha).2).trans (h _ (List.mem_filter.1 hb).2).symm))
      (List.pairwise_of_forall fun _ _ => trivial)
  have hsub := (List.sublist_insertionSort hsorted List.filter_sublist).filter p
  rw [List.filter_filter, List.filter_congr fun a _ => Bool.and_self (p a)] at hsub
  exact (hsub.eq_of_length ((perm_sortByKey key l).filter p).length_eq.symm).symm

theorem orderedInsert_last {a last : α} (h : key a ≤ key last) (l : List α) :
    (l ++ [last]).orderedInsert (fun a b => key a ≤ key b) a =
      l.orderedInsert (fun a b => key a ≤ key b) a ++ [last] := by
  induction l with
  | nil =>
      rw [List.nil_append, List.orderedInsert_cons, if_pos h]
      rfl
  | cons b rest ih =>
      rw [List.cons_append, List.orderedInsert_cons, List.orderedInsert_cons]
      split
      · rfl
      · rw [ih, List.cons_append]

/-- A last element with the greatest key stays the last. -/
theorem sortByKey_last {l : List α} {last : α} (h : ∀ a ∈ l, key a ≤ key last) :
    sortByKey key (l ++ [last]) = sortByKey key l ++ [last] := by
  induction l with
  | nil => rfl
  | cons a rest ih =>
      obtain ⟨ha, hrest⟩ := List.forall_mem_cons.1 h
      have htail := ih hrest
      rw [sortByKey, sortByKey] at htail
      rw [sortByKey, List.cons_append, List.insertionSort_cons, htail, orderedInsert_last ha,
        sortByKey, List.insertionSort_cons]

end StableSort
