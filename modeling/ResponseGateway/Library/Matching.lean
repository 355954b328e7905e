import Mathlib

/-!
A list each of whose elements has exactly one partner in another list of its length, where
no two have a partner in common. Then nothing of the other list is without a partner.
-/

namespace Matching

variable {α β : Type*} (R : α → β → Bool)

def Single (l : List α) (m : List β) : Prop := ∀ a ∈ l, (m.filter (R a)).length = 1

def Apart (l : List α) : Prop := l.Pairwise fun a a' => ∀ b, R a b = true → R a' b = false

variable {R} {l : List α} {m : List β}

theorem Single.covers (h : Single R l m) (hapart : Apart R l) (hlength : m.length = l.length) :
    ∀ b ∈ m, ∃ a ∈ l, R a b = true := by
  induction l generalizing m with
  | nil =>
      rw [List.length_nil, List.length_eq_zero_iff] at hlength
      rw [hlength]
      exact nofun
  | cons a rest ih =>
      obtain ⟨hone, hrest⟩ := List.forall_mem_cons.1 h
      obtain ⟨hfirst, hapart⟩ := List.pairwise_cons.1 hapart
      -- The partner of the first element leaves; those of the others stay.
      have hlength' : (m.filter fun b => !R a b).length = rest.length := by
        have hsum := m.length_eq_length_filter_add (R a)
        rw [hone, hlength, List.length_cons] at hsum
        omega
      have hsingle : Single R rest (m.filter fun b => !R a b) := by
        intro a' ha'
        have hkept : (m.filter fun b => !R a b).filter (R a') = m.filter (R a') := by
          rw [List.filter_filter]
          refine List.filter_congr fun b _ => ?_
          cases hb : R a b with
          | false => rw [Bool.not_false, Bool.and_true]
          | true => rw [hfirst a' ha' b hb, Bool.false_and]
        rw [hkept]
        exact hrest a' ha'
      intro b hb
      cases hR : R a b with
      | true => exact ⟨a, List.mem_cons_self, hR⟩
      | false =>
          have hmem : b ∈ m.filter fun b => !R a b :=
            List.mem_filter.2 ⟨hb, by rw [hR, Bool.not_false]⟩
          obtain ⟨a', ha', hpartner⟩ := ih hsingle hapart hlength' b hmem
          exact ⟨a', List.mem_cons_of_mem a ha', hpartner⟩

end Matching
