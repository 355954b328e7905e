import ResponseGateway.Usage.Normalization

/-!
Everything that the accumulator produces can be recorded, but for a conflict between the
two reports of cached tokens that one profile has: its reason is on no list of the
validator. The conflict is told from the observations alone.
-/

namespace ResponseGateway.Usage
open Json

section Observations

/-- A counter as it is read: with a value, or without one and why. -/
def Counter.plain (c : Counter) : Bool :=
  match c.value, c.source with
  | some _, .reported | none, .notReported | none, .invalid => true
  | _, _ => false

inductive Observation where
  | value (value : Json)
  | counters (counters : Counters) (plain : ∀ c ∈ counters.values, c.plain = true)

def Observation.report (profile : Profile) : Observation → Counters
  | .value v => extract profile v
  | .counters m _ => m

def Accumulator.next (a : Accumulator) : Observation → Accumulator
  | .value v => (a.observe v).2
  | .counters m _ => (a.observeCounters m).2

/-- The accumulator after some observations. -/
def accumulate (profile : Profile) (seen : List Observation) : Accumulator :=
  seen.foldl Accumulator.next (.new profile)

/-- The counter that a path is left with after another report of it. -/
def follow (old : Option Counter) (c : Counter) : Counter := if decreases old c then .invalid else c

/-- The counter that the observations leave under a path. -/
def kept (profile : Profile) (path : String) (seen : List Observation) : Option Counter :=
  seen.foldl (fun old o =>
    match (o.report profile).get path with
    | some c => some (follow old c)
    | none => old) none

/-- The two reports of the cached tokens agree, where a profile has two. -/
def Agrees (profile : Profile) (seen : List Observation) : Prop :=
  profile = .deepSeekV1 → ∀ a b,
    (kept profile "prompt_tokens_details.cached_tokens" seen).bind (·.value) = some a →
    (kept profile "prompt_cache_hit_tokens" seen).bind (·.value) = some b → a = b

end Observations

section Reports

variable {profile : Profile} {s : Merge}

/-- Reports of the profile, as they are read. -/
structure Taken (profile : Profile) (r : Counters) : Prop where
  known : ∀ path ∈ r.keys, takes profile path = true
  plain : ∀ c ∈ r.values, c.plain = true

theorem plain_shaped {c : Counter} (h : c.plain = true) :
    c.shaped = true ∧ c.source ≠ .derived ∧ c.source ≠ .notApplicable := by
  obtain ⟨value, source⟩ := c
  cases value <;> cases source <;> simp_all [Counter.plain, Counter.shaped]

theorem plain_read (v : Option Json) : (Counter.read v).plain = true := by
  rw [Counter.read.eq_def]
  split
  · rfl
  · rfl
  · split <;> rfl

theorem plain_insert {r : Counters} {path : String} {c : Counter}
    (h : ∀ c ∈ r.values, c.plain = true) (hc : c.plain = true) :
    ∀ c' ∈ (r.insert path c).values, c'.plain = true := by
  intro c' hc'
  rcases OrderedMap.values_insert hc' with heq | hold
  · rw [heq]
    exact hc
  · exact h c' hold

/-- A fold that inserts read counters keeps them read. -/
theorem plain_fold {α : Type} {f : Counters → α → Counters}
    (hf : ∀ r a, (∀ c ∈ r.values, c.plain = true) → ∀ c ∈ (f r a).values, c.plain = true)
    (l : List α) : ∀ c ∈ (l.foldl f .empty).values, c.plain = true := by
  have hall : ∀ r : Counters, (∀ c ∈ r.values, c.plain = true) →
      ∀ c ∈ (l.foldl f r).values, c.plain = true := by
    induction l with
    | nil => exact fun r hr => hr
    | cons a l ih => exact fun r hr => ih (f r a) (hf r a hr)
  exact hall .empty nofun

theorem plain_extract (profile : Profile) (value : Json) :
    ∀ c ∈ (extract profile value).values, c.plain = true := by
  rw [extract]
  split
  · exact plain_fold (fun r e hr => plain_insert hr rfl) _
  · refine plain_fold (fun r path hr => ?_) _
    split
    · exact plain_insert hr (plain_read _)
    · exact hr

theorem Observation.plain (o : Observation) (profile : Profile) :
    ∀ c ∈ (o.report profile).values, c.plain = true := by
  cases o with
  | value v => exact plain_extract profile v
  | counters m plain => exact plain

theorem take_reported (profile : Profile) (s : Merge) (path : String) (c : Counter) :
    (s.take profile (path, c)).reported =
      if takes profile path then s.reported.insert path (follow (s.reported.get path) c)
      else s.reported := by
  rw [Merge.take, follow]
  cases takes profile path with
  | false => rfl
  | true =>
      cases decreases (s.reported.get path) c <;> rfl

/-- What a report leaves under a path of the profile. -/
theorem merged_get {path : String} (hpath : takes profile path = true)
    {entries : List (String × Counter)} (hsorted : Assoc.Sorted entries) :
    (entries.foldl (Merge.take profile) s).reported.get path =
      match Assoc.get path entries with
      | some c => some (follow (s.reported.get path) c)
      | none => s.reported.get path := by
  induction entries generalizing s with
  | nil => rfl
  | cons entry rest ih =>
      obtain ⟨key, c⟩ := entry
      obtain ⟨hlt, hrest⟩ := Assoc.sorted_cons.1 hsorted
      rw [List.foldl_cons, ih hrest, take_reported, Assoc.get_cons]
      by_cases hkey : key = path
      · subst hkey
        have hnone : Assoc.get key rest = none :=
          Assoc.get_eq_none.2 fun entry hentry => (hlt entry hentry).ne'
        rw [hnone, if_pos hpath, if_pos rfl, OrderedMap.get_insert_self]
      · rw [if_neg hkey]
        have hsame : (if takes profile key then
            s.reported.insert key (follow (s.reported.get key) c) else s.reported).get path =
              s.reported.get path := by
          split
          · exact OrderedMap.get_insert_of_ne _ _ hkey
          · rfl
        rw [hsame]

theorem taken_merge {entries : List (String × Counter)} (hs : Taken profile s.reported)
    (hplain : ∀ entry ∈ entries, entry.2.plain = true) :
    Taken profile (entries.foldl (Merge.take profile) s).reported := by
  induction entries generalizing s with
  | nil => exact hs
  | cons entry rest ih =>
      obtain ⟨path, c⟩ := entry
      obtain ⟨hc, hrest⟩ := List.forall_mem_cons.1 hplain
      rw [List.foldl_cons]
      refine ih ?_ hrest
      rw [take_reported]
      split
      · next htakes =>
          have hfollow : (follow (s.reported.get path) c).plain = true := by
            rw [follow]
            split
            · rfl
            · exact hc
          refine ⟨fun key hkey => ?_, plain_insert hs.plain hfollow⟩
          obtain ⟨entry, hentry, rfl⟩ := List.mem_map.1 hkey
          rcases Assoc.mem_insert hentry with rfl | hold
          · exact htakes
          · exact hs.known _ (List.mem_map.2 ⟨entry, hold, rfl⟩)
      · exact hs

theorem mem_paths_of_takes {path : String} (h : takes profile path = true) :
    path ∈ (paths profile).map (·.2) ++ lifetimes.map (·.2) := by
  simp only [takes, Bool.or_eq_true, Bool.and_eq_true, List.any_eq_true, decide_eq_true_eq] at h
  rcases h with hpath | ⟨-, hpath⟩
  · exact List.mem_append_left _ (List.mem_map.2 hpath)
  · exact List.mem_append_right _ (List.mem_map.2 hpath)

theorem allowedPath_of_takes {path : String} (h : takes profile path = true) :
    allowedPath path = true := by
  have hall : profile ∈ Profile.all := by cases profile <;> decide
  simp only [takes, Bool.or_eq_true, Bool.and_eq_true] at h
  rw [allowedPath, Bool.or_eq_true]
  exact h.imp (fun hpath => List.any_eq_true.2 ⟨profile, hall, hpath⟩) (·.2)

/-- The reports of a profile are few. -/
theorem Taken.size_le {r : Counters} (h : Taken profile r) : r.size ≤ 16 := by
  have hnodup : r.keys.Nodup := by
    rw [OrderedMap.keys, List.Nodup, List.pairwise_map]
    exact r.sorted.imp fun hlt => hlt.ne
  have hsubset : r.keys ⊆ (paths profile).map (·.2) ++ lifetimes.map (·.2) :=
    fun path hpath => mem_paths_of_takes (h.known path hpath)
  have hfew : ((paths profile).map (·.2) ++ lifetimes.map (·.2)).length ≤ 16 := by
    cases profile <;> decide
  rw [OrderedMap.size_eq_keys]
  exact (hnodup.subperm hsubset).length_le.trans hfew

end Reports

section Validation

variable {profile : Profile} {u : CanonicalUsage}

def admitted : List String := reasons ++ ["counter_decreased"]

/-- The shape of a usage passes, whatever it reports. -/
theorem validate_iff (hu : Formed 2 u) (hr : Taken profile u.reported) {violations : List String}
    (hfew : violations.length ≤ 32) :
    { u with violations }.validate = true ↔ ∀ v ∈ violations, v ∈ admitted := by
  have hsize : u.counters.size = fields.length := by
    rw [OrderedMap.size_eq_keys, hu.keys]
    decide
  have hfields : fields.all u.counters.contains = true := by
    rw [List.all_eq_true]
    intro f hf
    exact OrderedMap.mem_keys.1 (hu.keys ▸ fields_keys f hf)
  have hcounters := List.all_eq_true.2 hu.counters
  have hreported : u.reported.values.all (·.shaped) = true :=
    List.all_eq_true.2 fun c hc => (plain_shaped (hr.plain c hc)).1
  have hdetails := List.all_eq_true.2 hu.details
  have hfewDetails : u.cacheWriteDetails.length ≤ 16 := hu.fewDetails.trans (by decide)
  have hkeys : u.reported.keys.all allowedPath = true :=
    List.all_eq_true.2 fun path hpath => allowedPath_of_takes (hr.known path hpath)
  simp only [CanonicalUsage.validate, hsize, hfields, hcounters, hreported, hdetails, hfewDetails,
    hr.size_le, hfew, hkeys, decide_true, Bool.and_true, Bool.true_and, List.all_eq_true,
    decide_eq_true_eq]
  rfl

theorem Formed.few {n : Nat} (hu : Formed n u) : u.violations.length ≤ 6 := by
  have hsubset : u.violations ⊆ aliasReason :: reasons := by
    intro v hv
    exact List.mem_cons.2 (hu.known v hv)
  exact (hu.nodup.subperm hsubset).length_le

/-- What a normal form may be left with: its reasons, with or without a decrease. -/
def decreasing (decreased : Bool) (u : CanonicalUsage) : CanonicalUsage :=
  if decreased then { u with violations := u.violations ++ ["counter_decreased"] } else u

theorem decreasing_validate (hu : Formed 2 u) (hr : Taken profile u.reported) (decreased : Bool) :
    (decreasing decreased u).validate = true ↔ aliasReason ∉ u.violations := by
  have hknown : (∀ v ∈ u.violations, v ∈ admitted) ↔ aliasReason ∉ u.violations := by
    constructor
    · intro hall hmem
      exact absurd (hall _ hmem) (by decide)
    · intro hnot v hv
      rcases hu.known v hv with rfl | hreason
      · exact absurd hv hnot
      · exact List.mem_append_left _ hreason
  have hfew := hu.few
  cases decreased with
  | false => exact (validate_iff hu hr (Nat.le_trans hfew (by decide))).trans hknown
  | true =>
      have hlength : (u.violations ++ ["counter_decreased"]).length ≤ 32 := by
        rw [List.length_append]
        exact Nat.le_trans (Nat.add_le_add_right hfew 1) (by decide)
      rw [decreasing, if_pos rfl, validate_iff hu hr hlength, ← hknown, List.forall_mem_append]
      exact and_iff_left (List.forall_mem_singleton.2 (by decide))

/-- What an event says agrees with what it reports, decrease or not. -/
theorem consistent_decreasing (e : UsageEvent) {r : Counters} (hr : Taken e.profile r)
    (decreased : Bool) (husage : e.usage = decreasing decreased (normalize e.profile r)) :
    e.consistent = true := by
  obtain ⟨hreported, hu, -⟩ := normalize_profiled (r := r) e.profile fun c hc => (plain_shaped (hr.plain c hc)).1
  have hkept : e.usage.reported = r := by
    rw [husage, decreasing]
    split <;> exact hreported
  have hcounters : e.usage.counters = (normalize e.profile r).counters := by
    rw [husage, decreasing]
    split <;> rfl
  have hdetails : e.usage.cacheWriteDetails = (normalize e.profile r).cacheWriteDetails := by
    rw [husage, decreasing]
    split <;> rfl
  have hothers : (normalize e.profile r).violations.filter (· ≠ "counter_decreased") =
      (normalize e.profile r).violations := by
    rw [List.filter_eq_self]
    intro v hv
    rcases hu.known v hv with rfl | hreason
    · decide
    · refine decide_eq_true ?_
      rintro rfl
      exact absurd hreason (by decide)
  have hviolations : e.usage.violations.filter (· ≠ "counter_decreased") =
      (normalize e.profile r).violations := by
    rw [husage, decreasing]
    split
    · rw [List.filter_append, hothers]
      exact List.append_nil _
    · exact hothers
  have hplain : (r.values.all fun c => c.source ≠ .derived && c.source ≠ .notApplicable) = true := by
    rw [List.all_eq_true]
    intro c hc
    obtain ⟨-, hderived, hnot⟩ := plain_shaped (hr.plain c hc)
    simp [hderived, hnot]
  simp only [UsageEvent.consistent, hkept, hcounters, hdetails, hviolations, hplain, decide_true,
    Bool.and_true]

end Validation

section Runs

variable {profile : Profile} {seen : List Observation} {a : Accumulator}

/-- What the accumulator holds after some observations. -/
structure Accumulator.Holds (profile : Profile) (seen : List Observation) (a : Accumulator) :
    Prop where
  taken : Taken profile a.reported
  reports : ∀ path, takes profile path = true → a.reported.get path = kept profile path seen
  usage : ∃ decreased, a.usage = decreasing decreased (normalize profile a.reported)
  same : a.profile = profile

theorem holds_new (profile : Profile) : (Accumulator.new profile).Holds profile [] where
  same := rfl
  taken := ⟨nofun, nofun⟩
  reports _ _ := rfl
  usage := ⟨false, by cases profile <;> rfl⟩

theorem kept_append (profile : Profile) (path : String) (seen : List Observation)
    (o : Observation) : kept profile path (seen ++ [o]) =
      match (o.report profile).get path with
      | some c => some (follow (kept profile path seen) c)
      | none => kept profile path seen := by
  rw [kept, List.foldl_append]
  rfl

/-- One more observation. -/
theorem Accumulator.Holds.observe (h : a.Holds profile seen) (o : Observation) (incomplete : Bool) :
    ({ a with incomplete }.observeCounters (o.report profile)).2.Holds profile (seen ++ [o]) where
  same := h.same
  taken := by
    obtain rfl := h.same
    exact taken_merge h.taken fun entry hentry =>
      o.plain _ _ (List.mem_map.2 ⟨entry, hentry, rfl⟩)
  reports path hpath := by
    obtain rfl := h.same
    rw [kept_append, ← h.reports path hpath]
    exact merged_get hpath (o.report a.profile).sorted
  usage := by
    obtain rfl := h.same
    exact ⟨_, rfl⟩

theorem Accumulator.Holds.next (h : a.Holds profile seen) (o : Observation) :
    (a.next o).Holds profile (seen ++ [o]) := by
  obtain rfl := h.same
  cases o with
  | value v => exact h.observe (.value v) _
  | counters m plain => exact h.observe (.counters m plain) a.incomplete

theorem holds_accumulate (profile : Profile) (seen : List Observation) :
    (accumulate profile seen).Holds profile seen := by
  induction seen using List.reverseRecOn with
  | nil => exact holds_new profile
  | append_singleton seen o ih =>
      rw [accumulate, List.foldl_append]
      exact ih.next o

theorem agrees_iff (h : a.Holds profile seen) :
    Agrees profile seen ↔ ¬ (profile = .deepSeekV1 ∧ Mismatch a.reported) := by
  rw [not_and, Agrees]
  refine forall_congr' fun hprofile => ?_
  subst hprofile
  rw [Mismatch, h.reports "prompt_tokens_details.cached_tokens" (by decide),
    h.reports "prompt_cache_hit_tokens" (by decide)]
  constructor
  · rintro hagrees ⟨x, y, hx, hy, hne⟩
    exact hne (hagrees x y hx hy)
  · intro hnone x y hx hy
    by_contra hne
    exact hnone ⟨x, y, hx, hy, hne⟩

/-- All of the event is in order but for what it says of the usage. -/
def UsageEvent.Ordinary (e : UsageEvent) : Prop :=
  e.schema = Usage.schema ∧ e.labelled = true ∧ e.digested = true ∧
    e.observedAtMs ≥ e.startedAtMs ∧ e.revised = true

theorem validate_event (h : a.Holds profile seen) (e : UsageEvent) (hordinary : e.Ordinary)
    (husage : e.usage = a.usage) (hprofile : e.profile = profile) :
    e.validate = a.usage.validate := by
  obtain ⟨hschema, hlabelled, hdigested, htimes, hrevised⟩ := hordinary
  obtain ⟨decreased, hdecreasing⟩ := h.usage
  subst hprofile
  have hconsistent := consistent_decreasing e h.taken decreased (husage.trans hdecreasing)
  simp [UsageEvent.validate, hschema, hlabelled, hdigested, htimes, hrevised, hconsistent, husage]

/-- What the accumulator produces, and every event that carries it, passes validation
exactly when the observations do not report two counts of the same cached tokens. -/
theorem accounting_recordable (profile : Profile) (seen : List Observation) :
    ((accumulate profile seen).usage.validate = true ↔ Agrees profile seen) ∧
      ∀ e : UsageEvent, e.Ordinary → e.usage = (accumulate profile seen).usage →
        e.profile = profile → (e.validate = true ↔ Agrees profile seen) := by
  have h := holds_accumulate profile seen
  obtain ⟨decreased, husage⟩ := h.usage
  obtain ⟨hreported, hformed, haliased⟩ := normalize_profiled (r := (accumulate profile seen).reported) profile fun c hc => (plain_shaped (h.taken.plain c hc)).1
  have hvalid : (accumulate profile seen).usage.validate = true ↔ Agrees profile seen := by
    rw [husage, decreasing_validate hformed (hreported.symm ▸ h.taken) decreased, haliased,
      agrees_iff h]
  refine ⟨hvalid, fun e hordinary hcarried hprofile => ?_⟩
  rw [validate_event h e hordinary hcarried hprofile, hvalid]

/-- An event that carries one report of a chat. -/
theorem accounting_recordable_chat :
    let seen : List Observation := [.value (.object [("prompt_tokens", .number (.ofNat 3))])]
    UsageEvent.validate ⟨Usage.schema, "producer", "request", "attempt", "event", 1, .usageUpdated,
      5, 7, "provider", "alias", "model", none, none, some "response", .chatV1,
      String.ofList (List.replicate 64 '0'), (accumulate .chatV1 seen).usage⟩ = true := by
  intro seen
  refine ((accounting_recordable .chatV1 seen).2 _ ?_ rfl rfl).2 nofun
  exact ⟨rfl, by decide, by decide, by decide, by decide⟩

/-- Two counts of the cached tokens that differ are kept from the record. -/
theorem accounting_alias_conflict :
    ¬ ∀ (profile : Profile) (seen : List Observation),
      (accumulate profile seen).usage.validate = true := by
  intro hall
  have hconflict := hall .deepSeekV1 [.value (.object
    [("prompt_cache_hit_tokens", .number (.ofNat 2)),
      ("prompt_tokens_details", .object [("cached_tokens", .number (.ofNat 1))])])]
  exact absurd hconflict (by decide)

end Runs

end ResponseGateway.Usage
