import Mathlib

/-!
Linear histories: entries with a key and the key of the entry before them, in
order from a starting point to the current tip.
-/

namespace Chain

variable {α ι : Type*} (key : α → ι) (parent : α → Option ι)

/-- Each entry names the one before it; the last one is the tip. -/
def Chained : Option ι → List α → Option ι → Prop
  | start, [], tip => start = tip
  | start, entry :: rest, tip => parent entry = start ∧ Chained (some (key entry)) rest tip

variable {key parent}

theorem chained_snoc {start tip : Option ι} {l : List α} {entry : α}
    (h : Chained key parent start l tip) (hentry : parent entry = tip) :
    Chained key parent start (l ++ [entry]) (some (key entry)) := by
  induction l generalizing start with
  | nil => exact ⟨hentry.trans h.symm, rfl⟩
  | cons first rest ih => exact ⟨h.1, ih h.2⟩

/-- The tip is the key of the last entry. -/
theorem Chained.tip_eq {start tip : Option ι} {l : List α} (h : Chained key parent start l tip) :
    tip = (l.getLast?.map key).or start := by
  induction l generalizing start with
  | nil => exact h.symm
  | cons first rest ih =>
      rw [ih h.2]
      cases rest with
      | nil => rfl
      | cons second rest => simp [List.getLast?_cons]

/-- The parent of an entry is the key of the entry before it. -/
theorem Chained.parent_eq {start tip : Option ι} {l : List α} (h : Chained key parent start l tip)
    (i : Nat) (hi : i < l.length) :
    parent l[i] = if i = 0 then start else (l[i - 1]?).map key := by
  induction l generalizing start i with
  | nil => cases hi
  | cons first rest ih =>
      cases i with
      | zero => exact h.1
      | succ i =>
          rw [List.getElem_cons_succ, ih h.2 i (by simpa using hi)]
          cases i <;> rfl

theorem chained_map {β : Type*} (f : β → α) {start tip : Option ι} {l : List β} :
    Chained key parent start (l.map f) tip ↔
      Chained (fun b => key (f b)) (fun b => parent (f b)) start l tip := by
  induction l generalizing start with
  | nil => exact Iff.rfl
  | cons first rest ih => exact and_congr_right fun _ => ih

theorem chained_append {start tip : Option ι} {l m : List α}
    (h : Chained key parent start (l ++ m) tip) :
    ∃ mid, Chained key parent start l mid ∧ Chained key parent mid m tip := by
  induction l generalizing start with
  | nil => exact ⟨start, rfl, h⟩
  | cons first rest ih =>
      obtain ⟨mid, hrest, hm⟩ := ih h.2
      exact ⟨mid, ⟨h.1, hrest⟩, hm⟩

/-- The entries before one of a chain decide where it starts, so the tip is unique. -/
theorem Chained.tip_unique {start tip tip' : Option ι} {l : List α}
    (h : Chained key parent start l tip) (h' : Chained key parent start l tip') : tip = tip' :=
  h.tip_eq.trans h'.tip_eq.symm

/-- No entry but the first starts where the chain does. -/
theorem Chained.parent_ne {start origin tip : Option ι} {l : List α}
    (h : Chained key parent start l tip) (hstart : start ≠ origin)
    (hkeys : ∀ entry ∈ l, some (key entry) ≠ origin) : ∀ entry ∈ l, parent entry ≠ origin := by
  induction l generalizing start with
  | nil => simp
  | cons first rest ih =>
      intro entry hentry
      rcases List.mem_cons.1 hentry with rfl | hentry
      · exact h.1 ▸ hstart
      · exact ih h.2 (hkeys first (by simp)) (fun e he => hkeys e (by simp [he])) entry hentry

/-- A chain of entries of another chain with the same start is the beginning of it. -/
theorem Chained.isPrefix {start tip tip' : Option ι} {l m : List α}
    (hl : Chained key parent start l tip) (hm : Chained key parent start m tip')
    (hkeys : (m.map key).Nodup) (hstart : ∀ entry ∈ m, some (key entry) ≠ start)
    (hsub : ∀ entry ∈ l, entry ∈ m) : l <+: m := by
  induction l generalizing start m with
  | nil => exact List.nil_prefix
  | cons first rest ih =>
      cases m with
      | nil => exact absurd (hsub first (by simp)) (by simp)
      | cons root others =>
          have hrootStart := hstart root (by simp)
          have hothers := hm.2.parent_ne hrootStart fun e he => hstart e (by simp [he])
          have hfirst : first = root := by
            rcases List.mem_cons.1 (hsub first (by simp)) with heq | hmem
            · exact heq
            · exact absurd hl.1 (hothers first hmem)
          subst hfirst
          have hnodup := List.nodup_cons.1 hkeys
          refine List.cons_prefix_cons.2 ⟨rfl, ih hl.2 hm.2 hnodup.2 ?_ ?_⟩
          · intro entry hentry heq
            exact hnodup.1 (List.mem_map.2 ⟨entry, hentry, Option.some.inj heq⟩)
          -- the root cannot come again, since only it starts the chain
          · intro entry hentry
            rcases List.mem_cons.1 (hsub entry (by simp [hentry])) with rfl | hmem
            · have hne := hl.2.parent_ne hrootStart
                (fun e he => hstart e (hsub e (by simp [he]))) entry hentry
              exact absurd hl.1 hne
            · exact hmem

/-- A beginning of a chain with the same tip is the whole chain. -/
theorem Chained.eq_of_isPrefix {start tip : Option ι} {l m : List α} (hbegins : l <+: m)
    (hl : Chained key parent start l tip) (hm : Chained key parent start m tip)
    (hkeys : (m.map key).Nodup) (hstart : ∀ entry ∈ m, some (key entry) ≠ start) : l = m := by
  obtain ⟨rest, rfl⟩ := hbegins
  obtain ⟨mid, hmid, hrest⟩ := chained_append hm
  cases hmid.tip_unique hl
  cases rest with
  | nil => simp
  | cons first rest =>
      exfalso
      have htip := hrest.tip_eq
      obtain ⟨last, hlast⟩ : ∃ last, (first :: rest).getLast? = some last := by
        simp [List.getLast?_cons]
      rw [hlast, Option.map_some, Option.some_or] at htip
      have hmem := List.mem_of_getLast? hlast
      cases hback : l.getLast? with
      | none =>
          have hstop := hl.tip_eq
          rw [hback, Option.map_none, Option.none_or, htip] at hstop
          exact hstart last (by simp [hmem]) hstop
      | some before =>
          have hstop := hl.tip_eq
          rw [hback, Option.map_some, Option.some_or, htip] at hstop
          rw [List.map_append, List.nodup_append] at hkeys
          exact hkeys.2.2 _ (List.mem_map_of_mem (List.mem_of_getLast? hback)) _
            (List.mem_map_of_mem hmem) (Option.some.inj hstop).symm

end Chain
