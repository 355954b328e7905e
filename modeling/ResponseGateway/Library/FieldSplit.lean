import ResponseGateway.Library.OrderedMap

/-!
Taking fields out of a sorted association list and putting them back in another
order. `Split whole rest taken` says that `rest` is `whole` without the fields of
`taken`; a reader adds to `taken`, a writer removes from it, and with nothing
left taken the rest is the whole again.
-/

namespace Assoc

variable {K V : Type*} [LinearOrder K]

/-- The value taken for a key; none when the key was looked at and left alone. -/
def pick (k : K) : List (K × Option V) → Option V
  | [] => none
  | (k', o) :: rest => if k' = k then o else pick k rest

theorem pick_cons (k k' : K) (o : Option V) (taken : List (K × Option V)) :
    pick k ((k', o) :: taken) = if k' = k then o else pick k taken := rfl

theorem pick_filter (k k' : K) (taken : List (K × Option V)) :
    pick k' (taken.filter fun entry => entry.1 ≠ k) = if k = k' then none else pick k' taken := by
  induction taken with
  | nil => simp [pick]
  | cons entry taken ih =>
      obtain ⟨k₀, o⟩ := entry
      by_cases h : k₀ = k
      · rw [List.filter_cons_of_neg (by simpa using h), ih, pick_cons, h]
        split <;> simp_all
      · rw [List.filter_cons_of_pos (by simpa using h), pick_cons, ih, pick_cons]
        by_cases hk : k = k'
        · rw [if_pos hk, if_pos hk, if_neg fun h' => h (h'.trans hk.symm)]
        · rw [if_neg hk, if_neg hk]

structure Split (whole rest : List (K × V)) (taken : List (K × Option V)) : Prop where
  whole_sorted : Sorted whole
  rest_sorted : Sorted rest
  get_eq : ∀ k, get k whole = (pick k taken).or (get k rest)
  absent : ∀ k, pick k taken ≠ none → get k rest = none

namespace Split

variable {whole rest : List (K × V)} {taken : List (K × Option V)} {k : K}

theorem refl (h : Sorted whole) : Split whole whole [] :=
  ⟨h, h, fun _ => rfl, fun _ hne => absurd rfl hne⟩

theorem done (h : Split whole rest []) : rest = whole :=
  ext_get h.rest_sorted h.whole_sorted fun k => (h.get_eq k).symm

/-- A field that was not taken has the same value in the rest. -/
theorem get_rest (h : Split whole rest taken) (hk : pick k taken = none) :
    get k rest = get k whole := by
  rw [h.get_eq k, hk, Option.none_or]

theorem remove {v : V} (h : Split whole rest taken) (hk : pick k taken = none)
    (hv : get k rest = some v) : Split whole (erase k rest) ((k, some v) :: taken) where
  whole_sorted := h.whole_sorted
  rest_sorted := sorted_erase k h.rest_sorted
  get_eq := by
    intro k'
    rw [h.get_eq k', pick_cons, get_erase]
    by_cases heq : k = k'
    · subst heq
      rw [hk, if_pos rfl, hv, Option.none_or, Option.some_or]
    · rw [if_neg heq, if_neg heq]
  absent := by
    intro k' hne
    rw [get_erase]
    by_cases heq : k = k'
    · rw [if_pos heq]
    · rw [pick_cons, if_neg heq] at hne
      rw [if_neg heq, h.absent k' hne]

theorem skip (h : Split whole rest taken) (hk : pick k taken = none) :
    Split whole rest ((k, none) :: taken) where
  whole_sorted := h.whole_sorted
  rest_sorted := h.rest_sorted
  get_eq := by
    intro k'
    rw [h.get_eq k', pick_cons]
    by_cases heq : k = k'
    · rw [if_pos heq, ← heq, hk]
    · rw [if_neg heq]
  absent := by
    intro k' hne
    refine h.absent k' fun hnone => hne ?_
    rw [pick_cons]
    split
    · rfl
    · exact hnone

theorem restore {v : V} (h : Split whole rest taken) (hk : pick k taken = some v) :
    Split whole (insert k v rest) (taken.filter fun entry => entry.1 ≠ k) where
  whole_sorted := h.whole_sorted
  rest_sorted := sorted_insert k v h.rest_sorted
  get_eq := by
    intro k'
    rw [h.get_eq k', pick_filter, get_insert]
    by_cases heq : k = k'
    · subst heq
      rw [hk, if_pos rfl, if_pos rfl, Option.some_or, Option.none_or]
    · rw [if_neg heq, if_neg heq]
  absent := by
    intro k' hne
    rw [pick_filter] at hne
    by_cases heq : k = k'
    · exact absurd (if_pos heq) hne
    · rw [if_neg heq] at hne
      rw [get_insert, if_neg heq, h.absent k' hne]

theorem drop (h : Split whole rest taken) (hk : pick k taken = none) :
    Split whole rest (taken.filter fun entry => entry.1 ≠ k) where
  whole_sorted := h.whole_sorted
  rest_sorted := h.rest_sorted
  get_eq := by
    intro k'
    rw [h.get_eq k', pick_filter]
    split
    · next heq => rw [← heq, hk]
    · rfl
  absent := by
    intro k' hne
    refine h.absent k' fun hnone => hne ?_
    rw [pick_filter, hnone]
    split <;> rfl

/-- A field the whole did not have, counted as taken from a larger whole. -/
theorem add (v : V) (h : Split whole rest taken) (hk : get k whole = none) :
    Split (insert k v whole) rest ((k, some v) :: taken.filter fun entry => entry.1 ≠ k) where
  whole_sorted := sorted_insert k v h.whole_sorted
  rest_sorted := h.rest_sorted
  get_eq := by
    intro k'
    rw [get_insert, pick_cons, pick_filter]
    split
    · rw [Option.some_or]
    · exact h.get_eq k'
  absent := by
    intro k' hne
    rw [pick_cons, pick_filter] at hne
    by_cases heq : k = k'
    · have hnone := h.get_eq k'
      rw [← heq, hk] at hnone
      exact heq ▸ (Option.or_eq_none_iff.1 hnone.symm).2
    · rw [if_neg heq, if_neg heq] at hne
      exact h.absent k' hne

end Split
end Assoc
