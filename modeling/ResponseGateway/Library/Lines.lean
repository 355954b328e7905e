import Mathlib

/-!
Separator-terminated sequences, prefix and suffix stripping and the splitting
at the first or last occurrence of a pattern, over an arbitrary alphabet.
`splitTerminator` drops only the empty piece behind a final separator, so it
is inverse to `terminate` on separator-free pieces; on other inputs one
direction of the round trip fails, and the lemmas carry that side condition.
-/

namespace Lines

variable {α : Type*} [DecidableEq α]

theorem dropPrefix?_eq_some {l p s : List α} :
    l.dropPrefix? p = some s ↔ l = p ++ s := by
  simp [List.dropPrefix?_eq_some_iff]

theorem dropSuffix?_eq_some {l p s : List α} :
    l.dropSuffix? s = some p ↔ l = p ++ s := by
  simp [List.dropSuffix?_eq_some_iff]

@[simp] theorem dropPrefix?_append (p s : List α) : (p ++ s).dropPrefix? p = some s :=
  dropPrefix?_eq_some.mpr rfl

@[simp] theorem dropSuffix?_append (p s : List α) : (p ++ s).dropSuffix? s = some p :=
  dropSuffix?_eq_some.mpr rfl

theorem dropPrefix?_eq_none {l p : List α} :
    l.dropPrefix? p = none ↔ ¬ p <+: l := by
  constructor
  · rintro h ⟨s, rfl⟩
    simp at h
  · intro h
    cases hl : l.dropPrefix? p with
    | none => rfl
    | some s => exact absurd ⟨s, (dropPrefix?_eq_some.mp hl).symm⟩ h

/-- The first occurrence of a pattern starts right behind a prefix that cannot
overlap it: the pattern's head does not occur in the prefix. -/
theorem dropInfix?_of_notMem {c : α} {l ps s : List α} (h : c ∉ l) :
    (l ++ c :: ps ++ s).dropInfix? (c :: ps) = some (l, s) := by
  rw [List.dropInfix?_eq_some_iff]
  refine ⟨⟨c :: ps, rfl, by simp⟩, ?_⟩
  intro p' i' s' heq hi
  obtain rfl : i' = c :: ps := by simpa using hi
  by_contra hlt
  have hmem : c ∈ (l ++ c :: ps ++ s).take l.length := by
    rw [heq, List.append_assoc]
    refine List.mem_take_iff_getElem.mpr ⟨p'.length, by simp; omega, ?_⟩
    simp
  exact h (by simpa using hmem)

/-- A split at a separator puts the text together again. -/
theorem eq_of_dropInfix? {sep : α} {l front rest : List α}
    (h : l.dropInfix? [sep] = some (front, rest)) : l = front ++ sep :: rest := by
  rw [List.dropInfix?_eq_some_iff] at h
  obtain ⟨⟨infix', heq, hinfix⟩, -⟩ := h
  obtain rfl : infix' = [sep] := by simpa using hinfix
  simpa using heq

/-- Split at the last occurrence of one separator. -/
def rsplitOnce (sep : α) (l : List α) : Option (List α × List α) :=
  match l.reverse.dropInfix? [sep] with
  | none => none
  | some (last, front) => some (front.reverse, last.reverse)

theorem eq_of_rsplitOnce {sep : α} {l front last : List α}
    (h : rsplitOnce sep l = some (front, last)) : l = front ++ sep :: last := by
  unfold rsplitOnce at h
  split at h
  · cases h
  · next last' front' hsplit =>
      cases h
      have hreverse := congrArg List.reverse (eq_of_dropInfix? hsplit)
      simpa using hreverse

theorem rsplitOnce_of_notMem {sep : α} {front last : List α} (h : sep ∉ last) :
    rsplitOnce sep (front ++ sep :: last) = some (front, last) := by
  have hr : (front ++ sep :: last).reverse = last.reverse ++ [sep] ++ front.reverse := by simp
  have hd : (last.reverse ++ [sep] ++ front.reverse).dropInfix? [sep] =
      some (last.reverse, front.reverse) := dropInfix?_of_notMem (by simpa using h)
  rw [rsplitOnce, hr, hd]
  simp

/-- Pieces between separators, without the empty piece behind a final one. -/
def splitTerminator (sep : α) : List α → List (List α)
  | [] => []
  | c :: cs =>
      if c = sep then [] :: splitTerminator sep cs
      else match splitTerminator sep cs with
        | [] => [[c]]
        | l :: ls => (c :: l) :: ls

/-- Every piece followed by the separator. -/
def terminate (sep : α) (ls : List (List α)) : List α :=
  ls.flatMap (· ++ [sep])

omit [DecidableEq α] in
@[simp] theorem terminate_nil (sep : α) : terminate sep ([] : List (List α)) = [] := rfl

omit [DecidableEq α] in
@[simp] theorem terminate_cons (sep : α) (l : List α) (ls : List (List α)) :
    terminate sep (l :: ls) = l ++ sep :: terminate sep ls := by
  simp [terminate]

omit [DecidableEq α] in
@[simp] theorem terminate_append (sep : α) (ls ms : List (List α)) :
    terminate sep (ls ++ ms) = terminate sep ls ++ terminate sep ms := by
  simp [terminate]

@[simp] theorem splitTerminator_nil (sep : α) : splitTerminator sep ([] : List α) = [] := rfl

theorem splitTerminator_append (sep : α) (l rest : List α) (h : sep ∉ l) :
    splitTerminator sep (l ++ sep :: rest) = l :: splitTerminator sep rest := by
  induction l with
  | nil => simp [splitTerminator]
  | cons c cs ih =>
      simp only [List.mem_cons, not_or] at h
      rw [List.cons_append, splitTerminator, if_neg (Ne.symm h.1), ih h.2]

theorem splitTerminator_terminate_append (sep : α) (ls : List (List α)) (rest : List α)
    (h : ∀ l ∈ ls, sep ∉ l) :
    splitTerminator sep (terminate sep ls ++ rest) = ls ++ splitTerminator sep rest := by
  induction ls with
  | nil => rfl
  | cons l ls ih =>
      rw [List.forall_mem_cons] at h
      rw [terminate_cons, List.append_assoc, List.cons_append,
        splitTerminator_append sep l _ h.1, ih h.2, List.cons_append]

theorem splitTerminator_terminate (sep : α) (ls : List (List α)) (h : ∀ l ∈ ls, sep ∉ l) :
    splitTerminator sep (terminate sep ls) = ls := by
  simpa using splitTerminator_terminate_append sep ls [] h

theorem splitTerminator_notMem (sep : α) (t : List α) :
    ∀ l ∈ splitTerminator sep t, sep ∉ l := by
  induction t with
  | nil => simp
  | cons c cs ih =>
      rw [splitTerminator]
      split
      · simpa using ih
      · rename_i hc
        split <;> rename_i hs <;> rw [hs] at ih <;>
          simp_all [Ne.symm hc, List.mem_cons, eq_comm]

/-- A text that is empty or ends with the separator is the termination of its pieces. -/
theorem terminate_splitTerminator (sep : α) (t : List α)
    (h : t = [] ∨ t.getLast? = some sep) :
    terminate sep (splitTerminator sep t) = t := by
  induction t with
  | nil => rfl
  | cons c cs ih =>
      rcases h with h | h
      · cases h
      · rw [splitTerminator]
        split
        · rename_i hc
          have hcs : cs = [] ∨ cs.getLast? = some sep := by
            cases cs with
            | nil => exact .inl rfl
            | cons d ds => exact .inr (by simpa using h)
          simp [ih hcs, hc]
        · rename_i hc
          cases cs with
          | nil => simp at h; exact absurd h hc
          | cons d ds =>
              have ht := ih (.inr (by simpa using h))
              revert ht
              split <;> rename_i hs <;> rw [hs] <;> intro ht
              · simp at ht
              · rw [terminate_cons] at ht ⊢
                rw [List.cons_append, ht]

end Lines
