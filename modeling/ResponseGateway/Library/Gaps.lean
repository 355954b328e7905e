import Mathlib

/-!
Sequences in which some values are missing. The values that are there are in order exactly
when neighbours are, and those are that have only gaps between them.
-/

namespace Gaps

variable {α : Type*} (R : α → α → Prop)

/-- Values that stand next to each other are related. -/
def Adjacent (l : List (Option α)) : Prop := l.IsChain fun x y => ∀ u ∈ x, ∀ v ∈ y, R u v

/-- Values that have only gaps between them are related. -/
def Bridged (l : List (Option α)) : Prop := ∀ before gaps after u v,
  l = before ++ some u :: (gaps ++ some v :: after) → gaps ≠ [] → (∀ g ∈ gaps, g = none) → R u v

variable {R} {l : List (Option α)}

theorem adjacent_append {o : Option (Option α)} : Adjacent R (l ++ o.toList) ↔
    Adjacent R l ∧ ∀ y ∈ o, ∀ u ∈ l.getLast?.join, ∀ v ∈ y, R u v := by
  rw [Adjacent, List.isChain_append, ← Adjacent]
  cases o with
  | none => simp
  | some y =>
      cases l.getLast? with
      | none => simp
      | some x => simp [Option.join]

theorem reduceOption_gaps {gaps : List (Option α)} (h : ∀ g ∈ gaps, g = none) :
    gaps.reduceOption = [] := by
  rw [List.eq_replicate_of_mem h, List.reduceOption_replicate_none]

/-- Values with only gaps between them follow each other. -/
theorem reduceOption_bridge {before gaps after : List (Option α)} {u v : α}
    (h : ∀ g ∈ gaps, g = none) :
    (before ++ some u :: (gaps ++ some v :: after)).reduceOption =
      before.reduceOption ++ u :: v :: after.reduceOption := by
  rw [List.reduceOption_append, List.reduceOption_cons_of_some, List.reduceOption_append,
    reduceOption_gaps h, List.reduceOption_cons_of_some, List.nil_append]

theorem isChain_reduceOption : l.reduceOption.IsChain R ↔ Adjacent R l ∧ Bridged R l := by
  rw [List.isChain_iff_forall_rel_of_append_cons_cons, Adjacent,
    List.isChain_iff_forall_rel_of_append_cons_cons]
  constructor
  · intro h
    refine ⟨?_, ?_⟩
    · rintro x y before after rfl u hu v hv
      cases hu
      cases hv
      exact h (@reduceOption_bridge _ before [] after u v (List.forall_mem_nil _))
    · rintro before gaps after u v rfl - hgaps
      exact h (reduceOption_bridge hgaps)
  · rintro ⟨hadjacent, hbridged⟩ u v before after heq
    obtain ⟨p, q, rfl, -, hq⟩ := List.filterMap_eq_append_iff.1 heq
    obtain ⟨first, x, q, rfl, -, hx, hq⟩ := List.filterMap_eq_cons_iff.1 hq
    obtain ⟨gaps, y, q, rfl, hgaps, hy, -⟩ := List.filterMap_eq_cons_iff.1 hq
    obtain rfl : x = some u := hx
    obtain rfl : y = some v := hy
    rw [← List.append_assoc] at hadjacent hbridged
    cases gaps with
    | nil => exact hadjacent rfl u rfl v rfl
    | cons g gaps =>
        exact hbridged _ (g :: gaps) q u v rfl (List.cons_ne_nil g gaps) hgaps

end Gaps
