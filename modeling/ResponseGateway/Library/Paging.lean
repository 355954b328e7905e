import Mathlib

/-!
Reading a growing list page by page. A page is the first of the wanted elements behind a
cursor; the next one starts at the last element of the page. The keys increase along the
list, so that what is appended lies behind every cursor that a page returned.
-/

namespace Paging

variable {α : Type*} (key : α → Nat) (p : α → Bool) (n : Nat)

def wanted (after : Nat) (l : List α) : List α := l.filter fun a => after < key a && p a

def page (after : Nat) (l : List α) : List α := (wanted key p after l).take n

/-- Pages are read until one is empty; the list may grow between two pages. -/
inductive Reads : Nat → List α → List α → List α → Prop where
  | last {after : Nat} {l : List α} (empty : page key p n after l = []) : Reads after l [] l
  | next {after : Nat} {l l' l'' more : List α} {a : α}
      (cursor : (page key p n after l).getLast? = some a) (grown : l <+: l')
      (rest : Reads (key a) l' more l'') : Reads after l (page key p n after l ++ more) l''

variable {key p n} {after : Nat} {l l' l'' read : List α}

theorem Reads.grows (h : Reads key p n after l read l') : l <+: l' := by
  induction h with
  | last => exact List.prefix_rfl
  | next _ grown _ ih => exact grown.trans ih

/-- What is behind a cursor is the page and what is behind its last element. -/
theorem wanted_page {a : α} (hsorted : l.Pairwise fun a b => key a < key b)
    (hlast : (page key p n after l).getLast? = some a) :
    wanted key p after l = page key p n after l ++ wanted key p (key a) l := by
  obtain ⟨front, hfront⟩ := List.getLast?_eq_some_iff.1 hlast
  have hsplit : wanted key p after l =
      (front ++ [a]) ++ (wanted key p after l).drop n := by
    rw [← hfront, page, List.take_append_drop]
  have hmem : a ∈ wanted key p after l := by
    rw [hsplit]
    exact List.mem_append_left _ List.mem_concat_self
  have hafter : after < key a := by
    have hkept := (List.mem_filter.1 hmem).2
    rw [Bool.and_eq_true, decide_eq_true_eq] at hkept
    exact hkept.1
  have hordered := hsorted.sublist (List.filter_sublist (p := fun a => after < key a && p a))
  change (wanted key p after l).Pairwise _ at hordered
  rw [hsplit] at hordered
  obtain ⟨hpage, -, hbehind⟩ := List.pairwise_append.1 hordered
  -- The cursor drops the page and keeps what follows it.
  have hrest : wanted key p (key a) l = (wanted key p after l).filter fun b => key a < key b := by
    rw [wanted, wanted, List.filter_filter]
    refine List.filter_congr fun b _ => ?_
    by_cases hb : key a < key b
    · have hb' := hafter.trans hb
      simp [hb, hb']
    · simp [hb]
  rw [hrest, hfront]
  conv_rhs => rw [hsplit]
  have hdropped : (front ++ [a]).filter (fun b => key a < key b) = [] := by
    refine List.filter_eq_nil_iff.2 fun b hb hlt => ?_
    rw [decide_eq_true_eq] at hlt
    rcases List.mem_append.1 hb with hb | hb
    · have hba := (List.pairwise_append.1 hpage).2.2 b hb a (List.mem_singleton.2 rfl)
      omega
    · rw [List.mem_singleton.1 hb] at hlt
      omega
  have hkept : ((wanted key p after l).drop n).filter (fun b => key a < key b) =
      (wanted key p after l).drop n := by
    refine List.filter_eq_self.2 fun b hb => ?_
    exact decide_eq_true (hbehind a List.mem_concat_self b hb)
  rw [List.filter_append, hdropped, hkept, List.nil_append]
  exact hsplit

/-- A page of the list is a page of every list that it has grown to. -/
theorem wanted_grown {a : α} (hsorted : l'.Pairwise fun a b => key a < key b) (hgrown : l <+: l')
    (hlast : (page key p n after l).getLast? = some a) :
    wanted key p after l' = page key p n after l ++ wanted key p (key a) l' := by
  obtain ⟨more, rfl⟩ := hgrown
  have hprefix := (List.pairwise_append.1 hsorted).1
  have hmem : a ∈ wanted key p after l :=
    List.mem_of_mem_take (List.mem_of_getLast? hlast)
  obtain ⟨hin, hkept⟩ := List.mem_filter.1 hmem
  rw [Bool.and_eq_true, decide_eq_true_eq] at hkept
  have hmore : wanted key p after more = wanted key p (key a) more := by
    refine List.filter_congr fun b hb => ?_
    have hlt := (List.pairwise_append.1 hsorted).2.2 a hin b hb
    have hlt' := hkept.1.trans hlt
    simp [hlt, hlt']
  have happend (m : Nat) : wanted key p m (l ++ more) =
      wanted key p m l ++ wanted key p m more := List.filter_append ..
  rw [happend, happend, wanted_page hprefix hlast, hmore, List.append_assoc]

/-- Every wanted element is read exactly once, in the order of the list. -/
theorem Reads.eq_wanted (hn : 0 < n) (hsorted : l'.Pairwise fun a b => key a < key b)
    (h : Reads key p n after l read l') : read = wanted key p after l' := by
  induction h with
  | last empty =>
      rcases List.take_eq_nil_iff.1 empty with h | h
      · omega
      · exact h.symm
  | next cursor grown rest ih => rw [ih hsorted, wanted_grown hsorted (grown.trans rest.grows) cursor]

/-- Going from cursor to cursor of a list that stays as it is comes to its end. -/
theorem induct {motive : Nat → Prop} (hsorted : l.Pairwise fun a b => key a < key b)
    (hlast : ∀ after, page key p n after l = [] → motive after)
    (hnext : ∀ after a, (page key p n after l).getLast? = some a → motive (key a) → motive after)
    (after : Nat) : motive after := by
  induction hlength : (wanted key p after l).length using Nat.strong_induction_on
    generalizing after with
  | _ length ih =>
      cases hcursor : (page key p n after l).getLast? with
      | none => exact hlast after (List.getLast?_eq_none_iff.1 hcursor)
      | some a =>
          have hsplit := congrArg List.length (wanted_page hsorted hcursor)
          have hpos := List.length_pos_of_mem (List.mem_of_getLast? hcursor)
          rw [List.length_append] at hsplit
          exact hnext after a hcursor (ih _ (by omega) (key a) rfl)

end Paging
