import Mathlib

/-!
Regular expressions that are matched against a whole text. Only the elements of one class are
repeated, a number of times between two bounds; the matcher follows every way to begin a text.
-/

inductive Pattern (α : Type*) where
  | repeated (p : α → Bool) (least most : Nat)
  | seq (a b : Pattern α)
  | alt (a b : Pattern α)

namespace Pattern

variable {α : Type*}

/-- One element of a class. -/
def one (p : α → Bool) : Pattern α := .repeated p 1 1

def language : Pattern α → Language α
  | repeated p least most =>
      {text | (least ≤ text.length ∧ text.length ≤ most) ∧ ∀ c ∈ text, p c = true}
  | seq a b => a.language * b.language
  | alt a b => a.language + b.language

/-- What may be left of a text behind a match. -/
def rests : Pattern α → List α → List (List α)
  | repeated p least most, text =>
      ((List.range (most + 1)).filter fun n =>
        least ≤ n && n ≤ text.length && (text.take n).all p).map text.drop
  | seq a b, text => (a.rests text).flatMap b.rests
  | alt a b, text => a.rests text ++ b.rests text

/-- The whole text is matched. -/
def fullMatch (a : Pattern α) (text : List α) : Bool := (a.rests text).any List.isEmpty

variable {p : α → Bool} {least most : Nat} {a b : Pattern α} {text : List α}

theorem mem_repeated : text ∈ (repeated p least most).language ↔
    (least ≤ text.length ∧ text.length ≤ most) ∧ ∀ c ∈ text, p c = true := Iff.rfl

theorem mem_seq : text ∈ (seq a b).language ↔
    ∃ x ∈ a.language, ∃ y ∈ b.language, x ++ y = text := Language.mem_mul

theorem mem_alt : text ∈ (alt a b).language ↔ text ∈ a.language ∨ text ∈ b.language := Iff.rfl

theorem mem_one : text ∈ (one p).language ↔ ∃ c, p c = true ∧ text = [c] := by
  rw [one, mem_repeated]
  constructor
  · rintro ⟨⟨hleast, hmost⟩, hall⟩
    obtain ⟨c, rfl⟩ := List.length_eq_one_iff.1 (Nat.le_antisymm hmost hleast)
    exact ⟨c, hall c (List.mem_singleton_self c), rfl⟩
  · rintro ⟨c, hc, rfl⟩
    exact ⟨⟨Nat.le_refl 1, Nat.le_refl 1⟩, List.forall_mem_singleton.2 hc⟩

/-- An element of one class, and a bounded number of elements of another behind it. -/
theorem mem_one_repeated {q : α → Bool} : text ∈ (seq (one p) (repeated q 0 most)).language ↔
    ∃ c rest, text = c :: rest ∧ p c = true ∧ rest.length ≤ most ∧ ∀ c ∈ rest, q c = true := by
  simp only [mem_seq, mem_one, mem_repeated]
  constructor
  · rintro ⟨_, ⟨c, hc, rfl⟩, rest, ⟨⟨-, hmost⟩, hall⟩, rfl⟩
    exact ⟨c, rest, rfl, hc, hmost, hall⟩
  · rintro ⟨c, rest, rfl, hc, hmost, hall⟩
    exact ⟨[c], ⟨c, hc, rfl⟩, rest, ⟨⟨Nat.zero_le _, hmost⟩, hall⟩, rfl⟩

theorem mem_rests {rest : List α} :
    rest ∈ a.rests text ↔ ∃ front ∈ a.language, front ++ rest = text := by
  induction a generalizing text rest with
  | repeated p least most =>
      simp only [rests, List.mem_map, List.mem_filter, List.mem_range, Bool.and_eq_true,
        decide_eq_true_eq, List.all_eq_true, mem_repeated]
      constructor
      · rintro ⟨n, ⟨hmost, ⟨hleast, hlength⟩, hall⟩, rfl⟩
        refine ⟨text.take n, ⟨?_, hall⟩, List.take_append_drop n text⟩
        rw [List.length_take_of_le hlength]
        exact ⟨hleast, Nat.lt_succ_iff.1 hmost⟩
      · rintro ⟨front, ⟨⟨hleast, hmost⟩, hall⟩, rfl⟩
        refine ⟨front.length, ⟨Nat.lt_succ_iff.2 hmost, ⟨hleast, ?_⟩, ?_⟩, ?_⟩
        · rw [List.length_append]
          exact Nat.le_add_right _ _
        · rwa [List.take_left]
        · exact List.drop_left
  | seq a b iha ihb =>
      simp only [rests, List.mem_flatMap, iha, ihb, mem_seq]
      constructor
      · rintro ⟨_, ⟨x, hx, rfl⟩, y, hy, rfl⟩
        exact ⟨x ++ y, ⟨x, hx, y, hy, rfl⟩, List.append_assoc x y rest⟩
      · rintro ⟨_, ⟨x, hx, y, hy, rfl⟩, rfl⟩
        exact ⟨y ++ rest, ⟨x, hx, (List.append_assoc x y rest).symm⟩, y, hy, rfl⟩
  | alt a b iha ihb =>
      simp only [rests, List.mem_append, iha, ihb, mem_alt, or_and_right, exists_or]

/-- Every class of the pattern is part of a class. -/
def Within (q : α → Bool) : Pattern α → Prop
  | repeated p _ _ => ∀ c, p c = true → q c = true
  | seq a b | alt a b => a.Within q ∧ b.Within q

theorem Within.forall_mem {q : α → Bool} (h : a.Within q) (hmem : text ∈ a.language) :
    ∀ c ∈ text, q c = true := by
  induction a generalizing text with
  | repeated p least most => exact fun c hc => h c (hmem.2 c hc)
  | seq a b iha ihb =>
      obtain ⟨x, hx, y, hy, rfl⟩ := mem_seq.1 hmem
      exact List.forall_mem_append.2 ⟨iha h.1 hx, ihb h.2 hy⟩
  | alt a b iha ihb => exact hmem.elim (iha h.1) (ihb h.2)

/-- The matcher decides the language. -/
theorem fullMatch_iff : a.fullMatch text = true ↔ text ∈ a.language := by
  simp only [fullMatch, List.any_eq_true, mem_rests, List.isEmpty_iff]
  constructor
  · rintro ⟨_, ⟨front, hfront, rfl⟩, rfl⟩
    rwa [List.append_nil]
  · exact fun h => ⟨[], ⟨text, h, List.append_nil text⟩, rfl⟩

end Pattern
