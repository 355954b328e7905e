import ResponseGateway.Editing.OperationsRoundTrip

/-!
The places that the paths of an accepted bundle name. The compiler compares texts that it
joins from the components; no two of the paths have places one of which is within the other.
-/

namespace ResponseGateway.Editing
open Ir Lines Checked

section Places

/-- The path with one separator. -/
def slashed (path : Text) : Text := path.map fun c => if c = '\\' then '/' else c

def rooted (path : Text) : Bool := (slashed path).head? = some '/'

/-- The components that say where to go. -/
def components (path : Text) : List Text :=
  ((slashed path).splitOn '/').filter fun part => part ≠ [] && part ≠ ['.']

/-- One step from a place. -/
def follow (place : List Text) (part : Text) : List Text :=
  if part = ['.', '.'] then place.dropLast else place ++ [part]

/-- Some step leads up from where nothing is left to leave. -/
def Escapes (parts : List Text) : Prop :=
  ∃ before, before ++ [['.', '.']] <+: parts ∧ before.foldl follow [] = []

variable (toLowercase : Text → Text)

def place (path : Text) : List Text := ((components path).foldl follow []).map toLowercase

/-- One of the places is the other one or within it. -/
def Overlaps (path path' : Text) : Prop :=
  rooted path = rooted path' ∧
    (place toLowercase path <+: place toLowercase path' ∨
      place toLowercase path' <+: place toLowercase path)

end Places

section Keys

variable {toLowercase : Text → Text} {path path' key key' : Text}

/-- The loop over the components walks from place to place, and never above the start. -/
theorem collectParts_ok {parts result : List Text} (start : List Text)
    (h : collectParts toLowercase (start.map toLowercase) parts = .ok result) :
    result = (((parts.filter fun part => part ≠ [] && part ≠ ['.']).foldl follow start).map
      toLowercase) ∧
    ∀ before, before ++ [['.', '.']] <+: (parts.filter fun part => part ≠ [] && part ≠ ['.']) →
      before.foldl follow start ≠ [] := by
  induction parts generalizing start with
  | nil =>
      rw [collectParts, Except.ok.injEq] at h
      refine ⟨h.symm, fun before hprefix => ?_⟩
      exact absurd (List.prefix_nil.1 hprefix) (by simp)
  | cons part rest ih =>
      rw [collectParts] at h
      split at h
      · next hskip =>
          have hnone : (decide (part ≠ []) && decide (part ≠ ['.'])) = false := by
            rcases hskip with rfl | rfl <;> decide
          rw [List.filter_cons_of_neg (by rw [hnone]; decide)]
          exact ih _ h
      · next hkeep =>
          rw [not_or] at hkeep
          have hkept : (decide (part ≠ []) && decide (part ≠ ['.'])) = true := by
            simpa using hkeep
          rw [List.filter_cons_of_pos (by exact hkept), List.foldl_cons]
          have hstep : ∀ next, collectParts toLowercase (next.map toLowercase) rest = .ok result →
              next = follow start part → (part = ['.', '.'] → start ≠ []) → result =
                (((rest.filter fun part => part ≠ [] && part ≠ ['.']).foldl follow
                  (follow start part)).map toLowercase) ∧
              ∀ before, before ++ [['.', '.']] <+:
                part :: (rest.filter fun part => part ≠ [] && part ≠ ['.']) →
                  before.foldl follow start ≠ [] := by
            rintro next hnext rfl hup
            obtain ⟨hresult, hrest⟩ := ih _ hnext
            refine ⟨hresult, fun before hprefix => ?_⟩
            cases before with
            | nil =>
                rw [List.nil_append, List.cons_prefix_cons] at hprefix
                exact hup hprefix.1.symm
            | cons first before =>
                rw [List.cons_append, List.cons_prefix_cons] at hprefix
                obtain ⟨rfl, hprefix⟩ := hprefix
                exact hrest before hprefix
          split at h
          · next hup =>
              split at h
              · cases h
              · next hstart =>
                  rw [List.map_dropLast.symm] at h
                  refine hstep _ h (if_pos hup).symm fun _ => ?_
                  exact fun hnil => hstart (by rw [hnil]; rfl)
          · next hdown =>
              split at h
              · cases h
              · refine hstep (start ++ [part]) ?_ (if_neg hdown).symm fun hup => absurd hup hdown
                rw [List.map_append]
                exact h

theorem pathKey_place (h : pathKey toLowercase path = .ok key) :
    ¬Escapes (components path) ∧ place toLowercase path ≠ [] ∧
      key = (if rooted path then ['/'] else []) ++
        List.intercalate ['/'] (place toLowercase path) := by
  simp only [pathKey, bind_ok, rejectIf_ok, pure_ok, exists_const, List.isEmpty_eq_false_iff] at h
  obtain ⟨-, parts, hparts, hne, rfl⟩ := h
  obtain ⟨rfl, hescapes⟩ := collectParts_ok [] hparts
  refine ⟨?_, hne, ?_⟩
  · rintro ⟨before, hprefix, hnil⟩
    exact hescapes before hprefix hnil
  · refine congrArg (· ++ _) ?_
    rw [rooted, slashed]
    exact if_congr (decide_eq_true_iff).symm rfl rfl

theorem intercalate_isPrefix {sep : Text} {place more : List Text} (hplace : place ≠ [])
    (hmore : more ≠ []) :
    List.intercalate sep place ++ sep <+: List.intercalate sep (place ++ more) := by
  induction place with
  | nil => exact absurd rfl hplace
  | cons first rest ih =>
      cases rest with
      | nil =>
          rw [List.intercalate_singleton, List.singleton_append,
            List.intercalate_cons_of_ne_nil hmore]
          exact ⟨_, by rw [List.append_assoc]⟩
      | cons second rest =>
          have hne : second :: rest ++ more ≠ [] := List.cons_ne_nil _ _
          rw [List.cons_append, List.intercalate_cons_of_ne_nil (List.cons_ne_nil _ _),
            List.intercalate_cons_of_ne_nil hne, List.append_assoc, List.append_assoc,
            List.append_assoc]
          exact (List.prefix_append_right_inj _).2 <| (List.prefix_append_right_inj _).2 <|
            ih (List.cons_ne_nil _ _)

theorem clash_of_within {lead : Text} {place more : List Text} (hplace : place ≠ []) :
    let key := lead ++ List.intercalate ['/'] place
    let key' := lead ++ List.intercalate ['/'] (place ++ more)
    clash key key' = true ∧ clash key' key = true := by
  intro key key'
  cases more with
  | nil =>
      have hsame : key' = key := congrArg (lead ++ List.intercalate ['/'] ·) (List.append_nil place)
      rw [hsame]
      simp [clash]
  | cons first more =>
      have hprefix : (key ++ ['/']).isPrefixOf key' = true := by
        rw [List.isPrefixOf_iff_prefix, show key = _ from rfl, List.append_assoc]
        exact (List.prefix_append_right_inj _).2
          (intercalate_isPrefix hplace (List.cons_ne_nil _ _))
      exact ⟨by rw [clash, hprefix, Bool.or_true], by rw [clash, hprefix, Bool.or_true, Bool.true_or]⟩

/-- Paths to overlapping places have keys that clash. -/
theorem Overlaps.clash (h : Overlaps toLowercase path path')
    (hkey : pathKey toLowercase path = .ok key) (hkey' : pathKey toLowercase path' = .ok key') :
    Editing.clash key key' = true := by
  obtain ⟨-, hplace, rfl⟩ := pathKey_place hkey
  obtain ⟨-, hplace', rfl⟩ := pathKey_place hkey'
  obtain ⟨hrooted, ⟨more, hmore⟩ | ⟨more, hmore⟩⟩ := h
  · rw [← hrooted, ← hmore]
    exact (clash_of_within hplace).1
  · rw [hrooted, ← hmore]
    exact (clash_of_within hplace').2

end Keys

section Bundles

variable {toLowercase : Text → Text} {seen keys : List Text}

/-- The paths that were touched, with their keys. -/
structure Apart (toLowercase : Text → Text) (seen keys : List Text) : Prop where
  keyed : ∀ path ∈ seen, ∃ key ∈ keys, pathKey toLowercase path = .ok key
  apart : seen.Pairwise fun path path' => ¬Overlaps toLowercase path path'

theorem Apart.touch {touched keys' : List Text} (h : Apart toLowercase seen keys)
    (htouch : touchPaths toLowercase keys touched = .ok keys') :
    Apart toLowercase (seen ++ touched) keys' := by
  induction touched generalizing seen keys with
  | nil =>
      rw [touchPaths, Except.ok.injEq] at htouch
      rw [List.append_nil, ← htouch]
      exact h
  | cons path rest ih =>
      simp only [touchPaths, bind_ok, rejectIf_ok, List.any_eq_false, exists_const] at htouch
      obtain ⟨key, hkey, hclash, hrest⟩ := htouch
      rw [List.append_cons]
      refine ih ⟨?_, ?_⟩ hrest
      · refine List.forall_mem_append.2 ⟨fun path' hpath' => ?_, List.forall_mem_singleton.2
          ⟨key, List.mem_append_right _ (List.mem_singleton_self key), hkey⟩⟩
        obtain ⟨key', hmem, hkey'⟩ := h.keyed path' hpath'
        exact ⟨key', List.mem_append_left _ hmem, hkey'⟩
      · refine List.pairwise_append.2 ⟨h.apart, List.pairwise_singleton _ _, ?_⟩
        intro path' hpath' _ hmem hoverlaps
        obtain rfl := List.mem_singleton.1 hmem
        obtain ⟨key', hkeys, hkey'⟩ := h.keyed path' hpath'
        exact hclash key' hkeys (hoverlaps.clash hkey' hkey)

theorem Apart.push {ops : List Operation} {patch p : Text} {count : Nat}
    (h : Apart toLowercase seen keys)
    (hpush : pushOperations toLowercase keys patch count ops = .ok p) :
    ∃ keys', Apart toLowercase (seen ++ ops.flatMap Operation.touched) keys' := by
  induction ops generalizing seen keys patch count with
  | nil => exact ⟨keys, by rwa [List.flatMap_nil, List.append_nil]⟩
  | cons op ops ih =>
      simp only [pushOperations, bind_ok] at hpush
      obtain ⟨keys', htouch, _, -, _, -, hrest⟩ := hpush
      rw [List.flatMap_cons, ← List.append_assoc]
      exact ih (h.touch htouch) hrest

/-- No two paths of an accepted bundle name places one of which is within the other, and each
names a place below its start. -/
theorem compile_apart (toLowercase : Text → Text) (v : OperationBundle) (p : Text)
    (h : v.compile toLowercase = .ok p) :
    (v.operations.flatMap Operation.touched).Pairwise
      (fun path path' => ¬Overlaps toLowercase path path') ∧
    ∀ path ∈ v.operations.flatMap Operation.touched,
      ¬Escapes (components path) ∧ place toLowercase path ≠ [] := by
  have hassemble := OperationBundle.compile_ok.1 h
  simp only [OperationBundle.assemble, bind_ok] at hassemble
  obtain ⟨_, -, _, hpush, -⟩ := hassemble
  have hstart : Apart toLowercase [] [] := ⟨List.forall_mem_nil _, .nil⟩
  obtain ⟨keys, hkeyed, hapart⟩ := hstart.push hpush
  refine ⟨hapart, fun path hpath => ?_⟩
  obtain ⟨key, -, hkey⟩ := hkeyed path hpath
  exact ⟨(pathKey_place hkey).1, (pathKey_place hkey).2.1⟩

/-- Two paths of one operation that differ in the case of a letter and end apart. -/
theorem compile_apart_move :
    ¬Overlaps (List.map Char.toLower) "a/../B/d".toList "b\\.\\C".toList :=
  List.pairwise_pair.1 (compile_apart (List.map Char.toLower)
    ⟨[.move "a/../B/d".toList "b\\.\\C".toList ["x".toList]]⟩
    "*** Begin Patch\n*** Update File: a/../B/d\n*** Move to: b\\.\\C\n@@\n x\n*** End Patch".toList
    (OperationBundle.compile_ok.2 (by decide +kernel))).1

end Bundles

end ResponseGateway.Editing
