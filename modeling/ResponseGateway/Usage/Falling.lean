import ResponseGateway.Library.Gaps
import ResponseGateway.Usage.Accounting

/-!
When the accumulator notices that a counter falls. It compares a report with the one before
it only, so that a value that falls behind a report without one is not noticed.
-/

namespace ResponseGateway.Usage
open Json

section Numbers

/-- What the observations report under a path: a number, or something that is none. -/
def reports (path : String) (seen : List Json) : List (Option Nat) :=
  seen.filterMap fun value => (at? value path).map Json.asU64

/-- The numbers among the reports of a path. -/
def numbers (path : String) (seen : List Json) : List Nat := (reports path seen).reduceOption

def observed (profile : Profile) (seen : List Json) : Accumulator :=
  seen.foldl (fun a value => (a.observe value).2) (.new profile)

end Numbers

section Merging

variable {profile : Profile} {s : Merge} {path : String}

theorem take_decreased (hpath : takes profile path = true) (c : Counter) :
    (s.take profile (path, c)).incomplete = s.incomplete ∧
      (s.take profile (path, c)).decreased =
        (s.decreased || decreases (s.reported.get path) c) := by
  cases hdecreases : decreases (s.reported.get path) c with
  | true => simp [Merge.take, hpath, hdecreases]
  | false => simp [Merge.take, hpath, hdecreases]

/-- A report of paths that are taken is decreasing when a counter of it is. -/
theorem merged_incomplete {entries : List (String × Counter)} (hsorted : Assoc.Sorted entries)
    (htakes : ∀ entry ∈ entries, takes profile entry.1 = true) :
    (entries.foldl (Merge.take profile) s).incomplete = s.incomplete ∧
      ((entries.foldl (Merge.take profile) s).decreased = false ↔ s.decreased = false ∧
        ∀ entry ∈ entries, decreases (s.reported.get entry.1) entry.2 = false) := by
  induction entries generalizing s with
  | nil => exact ⟨rfl, by simp⟩
  | cons entry rest ih =>
      obtain ⟨key, c⟩ := entry
      obtain ⟨hlt, hrest⟩ := Assoc.sorted_cons.1 hsorted
      obtain ⟨htake, htakesRest⟩ := List.forall_mem_cons.1 htakes
      obtain ⟨hincomplete, hdecreased⟩ := take_decreased (s := s) htake c
      obtain ⟨hincompleteRest, hdecreasedRest⟩ := ih (s := s.take profile (key, c)) hrest htakesRest
      rw [List.foldl_cons, hincompleteRest, hincomplete, hdecreasedRest, hdecreased,
        List.forall_mem_cons, Bool.or_eq_false_iff, and_assoc]
      refine ⟨rfl, and_congr_right fun _ => and_congr_right fun _ => forall₂_congr fun entry hentry => ?_⟩
      rw [take_reported, if_pos htake, OrderedMap.get_insert_of_ne _ _ (hlt entry hentry).ne]

/-- The counters that are put under some paths. -/
theorem get_fold (f : String → Option Counter) (l : List String) (m : Counters) (path : String) :
    (l.foldl (fun m path =>
      match f path with
      | some c => m.insert path c
      | none => m) m).get path = (if path ∈ l then f path else none).or (m.get path) := by
  induction l generalizing m with
  | nil => rw [if_neg List.not_mem_nil]; rfl
  | cons key rest ih =>
      rw [List.foldl_cons, ih]
      by_cases hkey : key = path
      · subst hkey
        rw [if_pos List.mem_cons_self]
        cases hf : f key with
        | none => simp
        | some c => split <;> simp
      · have hmem : path ∈ key :: rest ↔ path ∈ rest := by simp [Ne.symm hkey]
        simp only [hmem]
        cases f key with
        | none => rfl
        | some c => rw [OrderedMap.get_insert_of_ne _ _ hkey]

theorem mem_reading {path : String} :
    path ∈ extract.reading profile ↔ takes profile path = true := by
  rw [extract.reading, takes, List.mem_append, Bool.or_eq_true]
  refine or_congr ?_ ?_
  · simp
  · cases profile <;> simp [lifetimes, eq_comm (a := path)]

theorem extract_get {value : Json} (hvalue : value.isObject = true)
    (hpath : takes profile path = true) :
    (extract profile value).get path = (at? value path).map fun v => .read (some v) := by
  have hfold := get_fold (fun path => (at? value path).map fun v => .read (some v))
    (extract.reading profile) .empty path
  rw [if_pos (mem_reading.2 hpath), OrderedMap.get_empty, Option.or_none] at hfold
  rw [extract, hvalue, ← hfold]
  congr 1
  refine congrArg (fun f => List.foldl f _ _) (funext fun m => funext fun path => ?_)
  cases at? value path <;> rfl

/-- What is extracted is taken. -/
theorem extract_takes (profile : Profile) (value : Json) :
    ∀ entry ∈ (extract profile value).entries, takes profile entry.1 = true := by
  have hfold : ∀ {α : Type} (f : Counters → α → Counters) (l : List α),
      (∀ m, ∀ a ∈ l, ∀ entry ∈ (f m a).entries, entry ∈ m.entries ∨
        takes profile entry.1 = true) →
      ∀ m : Counters, (∀ entry ∈ m.entries, takes profile entry.1 = true) →
        ∀ entry ∈ (l.foldl f m).entries, takes profile entry.1 = true := by
    intro α f l
    induction l with
    | nil => exact fun _ m hm => hm
    | cons a rest ih =>
        intro hf m hm
        refine ih (fun m a ha => hf m a (List.mem_cons_of_mem _ ha)) (f m a) fun entry hentry => ?_
        exact (hf m a List.mem_cons_self entry hentry).elim (hm entry) id
  rw [extract]
  split
  · refine hfold _ _ (fun m e he entry hentry => ?_) .empty (List.forall_mem_nil _)
    rcases Assoc.mem_insert hentry with rfl | hold
    · exact .inr (mem_reading.1 (List.mem_append_left _ (List.mem_map_of_mem he)))
    · exact .inl hold
  · refine hfold _ _ (fun m path hpath entry hentry => ?_) .empty (List.forall_mem_nil _)
    split at hentry
    · rcases Assoc.mem_insert hentry with rfl | hold
      · exact .inr (mem_reading.1 hpath)
      · exact .inl hold
    · exact .inl hentry

end Merging

section Runs

variable {profile : Profile} {seen : List Json} {a : Accumulator}

theorem read_value (value : Json) :
    (Counter.read (some value)).value = value.asU64.map UInt64.ofNat := by
  cases value with
  | null => rfl
  | number n =>
      rw [Counter.read.eq_def]
      dsimp only
      cases (Json.number n).asU64 <;> rfl
  | bool | string | array | object => rfl

/-- A number that is not below the one before it is not a decrease. -/
theorem decreases_read {old : Option Counter} {value : Json} :
    decreases old (.read (some value)) = false ↔
      ∀ u ∈ (old.bind (·.value)).map UInt64.toNat, ∀ v ∈ value.asU64, u ≤ v := by
  rw [decreases, read_value]
  cases hold : old.bind (·.value) with
  | none => simp
  | some u =>
      cases hvalue : value.asU64 with
      | none => simp
      | some v =>
          simp [UInt64.le_iff_toNat_le, UInt64.toNat_ofNat_of_lt' (asU64_lt hvalue)]

/-- What the accumulator knows of the numbers that it observed. -/
structure Accumulator.Notices (profile : Profile) (seen : List Json) (a : Accumulator) : Prop where
  same : a.profile = profile
  complete : a.incomplete = false ↔ (∀ value ∈ seen, value.isObject = true) ∧
    ∀ path, takes profile path = true → Gaps.Adjacent (· ≤ ·) (reports path seen)
  latest : a.incomplete = false → ∀ path, takes profile path = true →
    ((a.reported.get path).bind (·.value)).map UInt64.toNat = (reports path seen).getLast?.join

theorem notices_new (profile : Profile) : (Accumulator.new profile).Notices profile [] where
  same := rfl
  complete := iff_of_true rfl ⟨List.forall_mem_nil _, fun _ _ => List.isChain_nil⟩
  latest _ _ _ := rfl

theorem reports_append (path : String) (seen : List Json) (value : Json) :
    reports path (seen ++ [value]) =
      reports path seen ++ ((at? value path).map Json.asU64).toList := by
  rw [reports, List.filterMap_append, reports, List.filterMap_cons]
  cases at? value path <;> rfl

/-- A call notices what falls against the report before it. -/
theorem observe_complete (a : Accumulator) (value : Json) :
    (a.observe value).2.incomplete = false ↔ a.incomplete = false ∧ value.isObject = true ∧
      ∀ entry ∈ (extract a.profile value).entries,
        decreases (a.reported.get entry.1) entry.2 = false := by
  obtain ⟨hincomplete, hdecreased⟩ := merged_incomplete
    (s := ⟨a.reported, a.incomplete || !value.isObject, false⟩) (extract a.profile value).sorted
    (extract_takes a.profile value)
  rw [Accumulator.observe, Accumulator.observeCounters]
  dsimp only
  rw [Bool.or_eq_false_iff, hincomplete, hdecreased, Bool.or_eq_false_iff, Bool.not_eq_false',
    and_iff_right rfl, and_assoc]

theorem Accumulator.Notices.observe (h : a.Notices profile seen) (value : Json) :
    (a.observe value).2.Notices profile (seen ++ [value]) := by
  obtain rfl := h.same
  have hcall := observe_complete a value
  have hentries : a.incomplete = false → value.isObject = true →
      ((∀ entry ∈ (extract a.profile value).entries,
        decreases (a.reported.get entry.1) entry.2 = false) ↔
      ∀ path, takes a.profile path = true → ∀ y ∈ (at? value path).map Json.asU64,
        ∀ u ∈ (reports path seen).getLast?.join, ∀ v ∈ y, u ≤ v) := by
    intro hcomplete hobject
    constructor
    · intro hall path hpath y hy
      obtain ⟨v, hv, rfl⟩ := Option.map_eq_some_iff.1 hy
      have hget := extract_get hobject hpath
      rw [hv, Option.map_some] at hget
      rw [← h.latest hcomplete path hpath]
      exact decreases_read.1 (hall _ (Assoc.mem_of_get hget))
    · rintro hall ⟨path, c⟩ hentry
      have hpath := extract_takes a.profile value _ hentry
      have hget := extract_get hobject hpath
      rw [OrderedMap.get, Assoc.get_of_mem (extract a.profile value).sorted hentry] at hget
      obtain ⟨v, hv, rfl⟩ := Option.map_eq_some_iff.1 hget.symm
      rw [decreases_read, h.latest hcomplete path hpath]
      exact hall path hpath _ (by rw [hv, Option.map_some]; rfl)
  refine ⟨rfl, ?_, ?_⟩
  · rw [hcall, List.forall_mem_append, List.forall_mem_singleton]
    simp only [reports_append, Gaps.adjacent_append]
    constructor
    · rintro ⟨hcomplete, hobject, hentry⟩
      obtain ⟨hobjects, hadjacent⟩ := h.complete.1 hcomplete
      exact ⟨⟨hobjects, hobject⟩, fun path hpath =>
        ⟨hadjacent path hpath, (hentries hcomplete hobject).1 hentry path hpath⟩⟩
    · rintro ⟨⟨hobjects, hobject⟩, hadjacent⟩
      have hcomplete := h.complete.2 ⟨hobjects, fun path hpath => (hadjacent path hpath).1⟩
      exact ⟨hcomplete, hobject,
        (hentries hcomplete hobject).2 fun path hpath => (hadjacent path hpath).2⟩
  · intro hcomplete path hpath
    obtain ⟨hbefore, hobject, hentry⟩ := hcall.1 hcomplete
    have hmerged := merged_get (s := ⟨a.reported, a.incomplete || !value.isObject, false⟩) hpath
      (extract a.profile value).sorted
    have hget := extract_get hobject hpath
    rw [OrderedMap.get] at hget
    rw [Accumulator.observe, Accumulator.observeCounters, reports_append]
    dsimp only
    rw [hmerged, hget]
    cases hvalue : at? value path with
    | none =>
        rw [Option.map_none, Option.map_none, Option.toList_none, List.append_nil]
        exact h.latest hbefore path hpath
    | some v =>
        have hsame : follow (a.reported.get path) (.read (some v)) = .read (some v) := by
          rw [follow, hentry (path, .read (some v)) (Assoc.mem_of_get (by rw [hget, hvalue]; rfl))]
          rfl
        simp only [Option.map_some, Option.toList_some, List.getLast?_append, List.getLast?_singleton,
          Option.some_or, hsame, Option.bind_some, read_value, Option.map_map]
        cases hnumber : v.asU64 with
        | none => rfl
        | some n =>
            exact congrArg some (UInt64.toNat_ofNat_of_lt' (asU64_lt hnumber))

theorem notices_observed (profile : Profile) (seen : List Json) :
    (observed profile seen).Notices profile seen := by
  induction seen using List.reverseRecOn with
  | nil => exact notices_new profile
  | append_singleton seen value ih =>
      rw [observed, List.foldl_append]
      exact ih.observe value

/-- An attempt that was incomplete stays so. -/
theorem observed_incomplete (h : (observed profile seen).incomplete = true) (more : List Json) :
    (observed profile (seen ++ more)).incomplete = true := by
  induction more using List.reverseRecOn with
  | nil => rwa [List.append_nil]
  | append_singleton more value ih =>
      rw [← List.append_assoc, observed, List.foldl_append, ← observed]
      rw [← Bool.not_eq_false]
      intro hcomplete
      exact absurd (ih.symm.trans ((observe_complete _ value).1 hcomplete).1) nofun

/-- The numbers of every path of a run that is complete are in order, exactly when no number
of a run without other faults falls behind reports without one. A run that is incomplete
stays so. -/
theorem falling_noticed (profile : Profile) (seen : List Json) :
    (((observed profile seen).incomplete = false → ∀ path, takes profile path = true →
        (numbers path seen).IsChain (· ≤ ·)) ↔
      ((∀ value ∈ seen, value.isObject = true) →
        (∀ path, takes profile path = true → Gaps.Adjacent (· ≤ ·) (reports path seen)) →
          ∀ path, takes profile path = true → Gaps.Bridged (· ≤ ·) (reports path seen))) ∧
    ((observed profile seen).incomplete = true → ∀ more,
      (observed profile (seen ++ more)).incomplete = true) := by
  refine ⟨?_, fun h => observed_incomplete h⟩
  rw [(notices_observed profile seen).complete, and_imp]
  refine imp_congr_right fun _ => imp_congr_right fun hadjacent => ?_
  refine forall₂_congr fun path hpath => ?_
  rw [numbers, Gaps.isChain_reduceOption, and_iff_right (hadjacent path hpath)]

/-- A null between two numbers hides that the second one is smaller. -/
theorem falling_unnoticed : ¬∀ (profile : Profile) (seen : List Json),
    (observed profile seen).incomplete = false → ∀ path, takes profile path = true →
      (numbers path seen).IsChain (· ≤ ·) := by
  intro hall
  have hfall := hall .responsesV1 [.object [("output_tokens", .number (.ofNat 5))],
    .object [("output_tokens", .null)], .object [("output_tokens", .number (.ofNat 3))]]
    (by decide +kernel) "output_tokens" (by decide)
  have hnumbers : numbers "output_tokens" [.object [("output_tokens", .number (.ofNat 5))],
      .object [("output_tokens", .null)], .object [("output_tokens", .number (.ofNat 3))]] =
        [5, 3] := by decide +kernel
  rw [hnumbers] at hfall
  exact absurd hfall (by decide)

end Runs

end ResponseGateway.Usage
