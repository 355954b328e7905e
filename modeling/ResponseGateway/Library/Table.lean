import Mathlib

/-!
Tables with unique keys. Two rows clash when they have a key in common; a row that clashes
with a stored one is not inserted.
-/

namespace Table

variable {α β : Type*} (clash : α → α → Bool)

def insert (rows : List α) (row : α) : Option (List α) :=
  if rows.any (clash · row) then none else some (rows ++ [row])

/-- Rows clash when their keys do. -/
def byKey {κ : Type*} (clash : κ → κ → Bool) (key : α → κ) (a b : α) : Bool :=
  clash (key a) (key b)

/-- No two rows clash. -/
def Distinct (rows : List α) : Prop := rows.Pairwise fun a b => clash a b = false

variable {clash} {rows more : List α} {row : α}

theorem insert_eq_some {rows' : List α} : insert clash rows row = some rows' ↔
    (∀ a ∈ rows, clash a row = false) ∧ rows' = rows ++ [row] := by
  rw [insert]
  split
  · next h =>
      obtain ⟨a, ha, hclash⟩ := List.any_eq_true.1 h
      refine ⟨nofun, fun ⟨hnone, _⟩ => ?_⟩
      rw [hnone a ha] at hclash
      cases hclash
  · next h =>
      rw [Bool.not_eq_true, List.any_eq_false] at h
      simp only [Bool.not_eq_true] at h
      rw [Option.some.injEq]
      exact ⟨fun h' => ⟨h, h'.symm⟩, fun h' => h'.2.symm⟩

theorem distinct_append : Distinct clash (rows ++ more) ↔ Distinct clash rows ∧
    Distinct clash more ∧ ∀ a ∈ rows, ∀ b ∈ more, clash a b = false := List.pairwise_append

theorem distinct_byKey {κ : Type*} {clash : κ → κ → Bool} {key : α → κ} {rows : List α} :
    Distinct (byKey clash key) rows ↔ Distinct clash (rows.map key) := by
  rw [Distinct, Distinct, List.pairwise_map]
  rfl

theorem Distinct.sublist (h : Distinct clash rows) (hsub : more.Sublist rows) :
    Distinct clash more := List.Pairwise.sublist hsub h

theorem Distinct.perm (hsymm : ∀ a b, clash a b = clash b a) (h : Distinct clash rows)
    (hperm : rows.Perm more) : Distinct clash more :=
  (hperm.pairwise_iff fun {a b} hab => by rwa [hsymm b a]).1 h

/-- Rows that clash are one row. -/
theorem Distinct.eq_of_clash (hsymm : ∀ a b, clash a b = clash b a) (h : Distinct clash rows)
    {a b : α} (ha : a ∈ rows) (hb : b ∈ rows) (hclash : clash a b = true) : a = b := by
  by_contra hne
  have : Std.Symm fun a b => clash a b = false := ⟨fun a b hab => by rwa [hsymm b a]⟩
  have hforall := List.Pairwise.forall h ha hb hne
  rw [hclash] at hforall
  cases hforall

/-- A key selects the row that has it. -/
theorem Distinct.filter_eq {p : α → Bool} (h : Distinct clash rows) (hrow : row ∈ rows)
    (hp : p row = true)
    (hclash : ∀ a ∈ rows, ∀ b ∈ rows, p a = true → p b = true → clash a b = true) :
    rows.filter p = [row] := by
  induction rows with
  | nil => cases hrow
  | cons a rest ih =>
      obtain ⟨hfirst, hrest⟩ := List.pairwise_cons.1 h
      have hne : ∀ b ∈ rest, ¬ (p a = true ∧ p b = true) := by
        rintro b hb ⟨ha, hb'⟩
        have hno := hfirst b hb
        rw [hclash a List.mem_cons_self b (List.mem_cons_of_mem _ hb) ha hb'] at hno
        cases hno
      rcases List.mem_cons.1 hrow with rfl | hmem
      · rw [List.filter_cons_of_pos hp, List.filter_eq_nil_iff.2 fun b hb hpb => hne b hb ⟨hp, hpb⟩]
      · rw [List.filter_cons_of_neg fun ha => hne row hmem ⟨ha, hp⟩, ih hrest hmem]
        exact fun b hb c hc => hclash b (List.mem_cons_of_mem _ hb) c (List.mem_cons_of_mem _ hc)

/-- Rows of one key are at most one. -/
theorem Distinct.length_filter_le {p : α → Bool} (h : Distinct clash rows)
    (hclash : ∀ a b, p a = true → p b = true → clash a b = true) : (rows.filter p).length ≤ 1 := by
  have hdistinct := h.sublist (List.filter_sublist (p := p))
  match hrows : rows.filter p with
  | [] => exact Nat.zero_le 1
  | [_] => exact Nat.le_refl 1
  | a :: b :: rest =>
      have hmem {c : α} (hc : c ∈ rows.filter p) : p c = true := (List.mem_filter.1 hc).2
      have ha : p a = true := hmem (by rw [hrows]; exact List.mem_cons_self)
      have hb : p b = true := hmem (by rw [hrows]; exact List.mem_cons_of_mem _ List.mem_cons_self)
      rw [hrows] at hdistinct
      have hno := (List.pairwise_cons.1 hdistinct).1 b List.mem_cons_self
      rw [hclash a b ha hb] at hno
      cases hno

/-- Rows that clash with none go in one after the other. -/
theorem insert_all (h : Distinct clash (rows ++ more)) :
    more.foldlM (insert clash) rows = some (rows ++ more) := by
  induction more generalizing rows with
  | nil => rw [List.append_nil, List.foldlM_nil, Option.pure_def]
  | cons row rest ih =>
      have hrow := (distinct_append.1 h).2.2
      have hinsert := insert_eq_some.2 ⟨fun a ha => hrow a ha row List.mem_cons_self, rfl⟩
      rw [List.foldlM_cons, hinsert, Option.bind_eq_bind, Option.bind_some, ih, List.append_assoc,
        List.singleton_append]
      rwa [List.append_assoc, List.singleton_append]

end Table
