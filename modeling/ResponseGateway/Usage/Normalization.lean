import ResponseGateway.Usage.Contract

/-!
What normalization leaves. Every step puts counters of the seven fields and adds reasons
of a fixed list, so that all that the validator looks at holds, except that one reason
is not among those it knows.
-/

namespace ResponseGateway.Usage
open Json

section Forms

/-- The reason that the validator does not know. -/
def aliasReason : String := "cache_alias_mismatch"

def reasons : List String :=
  ["invalid_counter", "input_partition", "total_mismatch", "subset_exceeds_total", "ttl_mismatch"]

/-- The shape of a usage with at most `n` details. -/
structure Formed (n : Nat) (u : CanonicalUsage) : Prop where
  keys : u.counters.keys = CanonicalUsage.default.counters.keys
  counters : ∀ c ∈ u.counters.values, c.shaped = true
  details : ∀ d ∈ u.cacheWriteDetails, d.inputTokens.shaped = true
  fewDetails : u.cacheWriteDetails.length ≤ n
  nodup : u.violations.Nodup
  known : ∀ v ∈ u.violations, v = aliasReason ∨ v ∈ reasons

/-- A step of the normalization that does not compare the two reports of cached tokens. -/
structure Follows (u u' : CanonicalUsage) : Prop where
  reported : u'.reported = u.reported
  aliased : aliasReason ∈ u'.violations ↔ aliasReason ∈ u.violations
  formed : (∀ c ∈ u.reported.values, c.shaped = true) → ∀ n, Formed n u → Formed n u'

theorem Follows.refl (u : CanonicalUsage) : Follows u u := ⟨rfl, Iff.rfl, fun _ _ h => h⟩

theorem Follows.trans {u v w : CanonicalUsage} (h : Follows u v) (h' : Follows v w) :
    Follows u w where
  reported := h'.reported.trans h.reported
  aliased := h'.aliased.trans h.aliased
  formed hr n hu := h'.formed (h.reported ▸ hr) n (h.formed hr n hu)

theorem fields_keys : ∀ f ∈ fields, f ∈ CanonicalUsage.default.counters.keys := by decide

variable {u : CanonicalUsage} {field reason : String} {c : Counter} {n : Nat}

theorem formed_put (hu : Formed n u) (hfield : field ∈ fields) (hc : c.shaped = true) :
    Formed n (u.put field c) :=
  { hu with
    keys := by
      have hmem : field ∈ u.counters.keys := hu.keys ▸ fields_keys field hfield
      exact (OrderedMap.keys_insert c hmem).trans hu.keys
    counters := by
      intro c' hc'
      rcases OrderedMap.values_insert hc' with rfl | hold
      · exact hc
      · exact hu.counters c' hold }

theorem follows_put (hfield : field ∈ fields) (hc : c.shaped = true) : Follows u (u.put field c) :=
  ⟨rfl, Iff.rfl, fun _ _ hu => formed_put hu hfield hc⟩

theorem value_put (u : CanonicalUsage) (field : String) (c : Counter) (f : String) :
    (u.put field c).value f = if field = f then c.value else u.value f := by
  rw [CanonicalUsage.value, CanonicalUsage.put, OrderedMap.get_insert]
  split <;> rfl

theorem value_refuse (u : CanonicalUsage) (field reason : String) (f : String) :
    (u.refuse field reason).value f = if field = f then none else u.value f :=
  value_put u field .invalid f

@[simp] theorem mem_refuse {v : String} :
    v ∈ (u.refuse field reason).violations ↔ v ∈ u.violations ∨ v = reason := by
  rw [CanonicalUsage.refuse]
  split
  · next hany =>
      have hmem : reason ∈ u.violations := by simpa using hany
      exact ⟨.inl, fun h => h.elim id fun heq => heq ▸ hmem⟩
  · rw [List.mem_append, List.mem_singleton]

theorem nodup_push {l : List String} {v : String} (hl : l.Nodup) (hv : v ∉ l) : (l ++ [v]).Nodup := by
  rw [List.nodup_append_comm]
  exact List.nodup_cons.2 ⟨hv, hl⟩

theorem formed_refuse (hu : Formed n u) (hfield : field ∈ fields)
    (hreason : reason = aliasReason ∨ reason ∈ reasons) : Formed n (u.refuse field reason) :=
  { formed_put (c := .invalid) hu hfield rfl with
    nodup := by
      rw [CanonicalUsage.refuse]
      split
      · exact hu.nodup
      · next hany => exact nodup_push hu.nodup (by simpa using hany)
    known := by
      intro v hv
      rcases mem_refuse.1 hv with hold | rfl
      · exact hu.known v hold
      · exact hreason }

theorem follows_refuse (hfield : field ∈ fields) (hreason : reason ∈ reasons) :
    Follows u (u.refuse field reason) where
  reported := rfl
  aliased := by
    rw [mem_refuse, or_iff_left]
    rintro rfl
    exact absurd hreason (by decide)
  formed _ _ hu := formed_refuse hu hfield (.inr hreason)

theorem follows_flag (hnew : "invalid_counter" ∉ u.violations) : Follows u u.flag := by
  rw [CanonicalUsage.flag]
  split
  · refine ⟨rfl, ?_, fun _ n hu => { hu with nodup := nodup_push hu.nodup hnew, known := ?_ }⟩
    · rw [List.mem_append, or_iff_left]
      decide
    · exact List.forall_mem_append.2 ⟨hu.known, List.forall_mem_singleton.2 (.inr (by decide))⟩
  · exact .refl u

end Forms

section Steps

variable {u : CanonicalUsage} {n : Nat}

theorem shaped_derived (value : Option UInt64) : (Counter.derived value).shaped = true := by
  cases value <;> rfl

theorem paths_fields (profile : Profile) : ∀ e ∈ paths profile, e.1 ∈ fields := by
  cases profile <;> decide

theorem shaped_of_get {m : Counters} (h : ∀ c ∈ m.values, c.shaped = true) {path : String}
    {c : Counter} (hget : m.get path = some c) : c.shaped = true :=
  h c (OrderedMap.mem_values.2 ⟨path, hget⟩)

theorem fill_violations (profile : Profile) : (u.fill profile).violations = u.violations := by
  rw [CanonicalUsage.fill]
  induction paths profile generalizing u with
  | nil => rfl
  | cons e rest ih =>
      rw [List.foldl_cons, ih]
      split <;> rfl

theorem follows_fill (profile : Profile) (hr : ∀ c ∈ u.reported.values, c.shaped = true) :
    Follows u (u.fill profile) := by
  have hfields := paths_fields profile
  rw [CanonicalUsage.fill]
  generalize paths profile = l at hfields
  induction l generalizing u with
  | nil => exact .refl u
  | cons e rest ih =>
      obtain ⟨hfield, hrest⟩ := List.forall_mem_cons.1 hfields
      rw [List.foldl_cons]
      split
      · next c hget =>
          have hput : Follows u (u.put e.1 c) := follows_put hfield (shaped_of_get hr hget)
          exact hput.trans (ih hr hrest)
      · exact ih hr hrest

theorem follows_geminiInteractions : Follows u u.geminiInteractions := by
  refine follows_put (by decide) ?_
  split
  · exact shaped_derived _
  · rfl

theorem follows_sumInput : Follows u u.sumInput := by
  rw [CanonicalUsage.sumInput]
  split
  · exact follows_put (by decide) (shaped_derived _)
  · exact .refl u

theorem follows_checkDetails : Follows u u.checkDetails := by
  rw [CanonicalUsage.checkDetails]
  split
  · dsimp only
    split
    · split
      · exact follows_refuse (by decide) (by decide)
      · exact .refl u
    · exact .refl u
  · exact .refl u

theorem formed_detail (hu : Formed 0 u) (hr : ∀ c ∈ u.reported.values, c.shaped = true) :
    Formed 2 u.detail := by
  have hnone : u.cacheWriteDetails = [] := List.eq_nil_of_length_eq_zero (Nat.le_zero.1 hu.fewDetails)
  refine { hu with details := ?_, fewDetails := ?_ }
  · intro d hd
    rw [CanonicalUsage.detail, hnone, List.nil_append] at hd
    obtain ⟨⟨ttl, path⟩, -, hmap⟩ := List.mem_filterMap.1 hd
    obtain ⟨c, hget, rfl⟩ := Option.map_eq_some_iff.1 hmap
    exact shaped_of_get hr hget
  · rw [CanonicalUsage.detail, hnone, List.nil_append]
    exact List.length_filterMap_le _ _

theorem follows_partition (profile : Profile) : Follows u (u.partition profile) := by
  rw [CanonicalUsage.partition]
  split
  · split
    · split
      · exact follows_put (by decide) (shaped_derived _)
      · exact .refl u
    · exact (follows_refuse (by decide) (by decide)).trans (follows_refuse (by decide) (by decide))
  · exact .refl u

theorem follows_subset {field parent : String} (hfield : field ∈ fields) :
    Follows u (u.subset field parent) := by
  rw [CanonicalUsage.subset]
  split
  · split
    · exact follows_refuse hfield (by decide)
    · exact .refl u
  · exact .refl u

theorem follows_subsets : Follows u u.subsets :=
  ((follows_subset (by decide)).trans (follows_subset (by decide))).trans
    (follows_subset (by decide))

theorem follows_totals : Follows u u.totals := by
  rw [CanonicalUsage.totals]
  split
  · dsimp only
    split
    · split
      · exact follows_refuse (by decide) (by decide)
      · exact .refl u
    · split
      · exact follows_put (by decide) (shaped_derived _)
      · exact .refl u
  · exact .refl u

theorem follows_finish : Follows u u.finish := by
  rw [CanonicalUsage.finish]
  split
  · next hnew =>
      refine follows_flag fun hmem => ?_
      rw [List.any_eq_true.2 ⟨_, hmem, decide_eq_true rfl⟩] at hnew
      cases hnew
  · exact .refl u

/-- The reports of cached tokens are compared in one place. -/
theorem aliased_deepSeek : aliasReason ∈ u.deepSeek.violations ↔
    u.aliasMismatch = true ∨ aliasReason ∈ u.violations := by
  have hpartition (w : CanonicalUsage) : aliasReason ∈
      (w.refuse "input_regular_tokens" "input_partition").violations ↔
        aliasReason ∈ w.violations := (follows_refuse (by decide) (by decide)).aliased
  have hrefused : aliasReason ∈ (if u.aliasMismatch then
      u.refuse "cache_read_input_tokens" "cache_alias_mismatch" else u).violations ↔
        u.aliasMismatch = true ∨ aliasReason ∈ u.violations := by
    split
    · next h => simp [aliasReason, h]
    · next h => simp [h]
  rw [CanonicalUsage.deepSeek, ← hrefused]
  split
  · split
    · exact hpartition _
    · exact Iff.rfl
  · exact Iff.rfl

theorem formed_deepSeek (hu : Formed n u) : Formed n u.deepSeek := by
  have hrefused : Formed n (if u.aliasMismatch then
      u.refuse "cache_read_input_tokens" "cache_alias_mismatch" else u) := by
    split
    · exact formed_refuse hu (by decide) (.inl rfl)
    · exact hu
  rw [CanonicalUsage.deepSeek]
  split
  · split
    · exact formed_refuse hrefused (by decide) (.inr (by decide))
    · exact hrefused
  · exact hrefused

theorem deepSeek_reported : u.deepSeek.reported = u.reported := by
  have hrefused : (if u.aliasMismatch then
      u.refuse "cache_read_input_tokens" "cache_alias_mismatch" else u).reported = u.reported := by
    split <;> rfl
  rw [CanonicalUsage.deepSeek]
  split
  · split <;> exact hrefused
  · exact hrefused

end Steps

section Normal

variable {u : CanonicalUsage} {r : Counters} {profile : Profile}

theorem Formed.mono {m n : Nat} (h : Formed m u) (hle : m ≤ n) : Formed n u :=
  { h with fewDetails := h.fewDetails.trans hle }

/-- What the step of one profile leaves. -/
structure Profiled (profile : Profile) (u u' : CanonicalUsage) : Prop where
  reported : u'.reported = u.reported
  aliased : aliasReason ∈ u'.violations ↔
    (profile = .deepSeekV1 ∧ u.aliasMismatch = true) ∨ aliasReason ∈ u.violations
  formed : (∀ c ∈ u.reported.values, c.shaped = true) → Formed 0 u → Formed 2 u'

theorem Follows.profiled {u' : CanonicalUsage} (h : Follows u u') (hne : profile ≠ .deepSeekV1) :
    Profiled profile u u' where
  reported := h.reported
  aliased := by
    rw [h.aliased, or_iff_right fun hand => hne hand.1]
  formed hr hu := (h.formed hr 0 hu).mono (by decide)

theorem profiled_messages : Profiled .messagesV1 u u.messages where
  reported := follows_checkDetails.reported.trans follows_sumInput.reported
  aliased := by
    have hdetail : aliasReason ∈ u.sumInput.detail.violations ↔ aliasReason ∈ u.violations :=
      follows_sumInput.aliased
    rw [CanonicalUsage.messages, follows_checkDetails.aliased, hdetail, or_iff_right]
    exact fun hand => nomatch hand.1
  formed hr hu := by
    have hsum : ∀ c ∈ u.sumInput.reported.values, c.shaped = true :=
      follows_sumInput.reported.symm ▸ hr
    have hdetail : Formed 2 u.sumInput.detail :=
      formed_detail (follows_sumInput.formed hr 0 hu) hsum
    exact (follows_checkDetails (u := u.sumInput.detail)).formed hsum 2 hdetail

theorem profiled_profiled (u : CanonicalUsage) (profile : Profile) :
    Profiled profile u (u.profiled profile) := by
  cases profile with
  | responsesV1 => exact (Follows.refl u).profiled nofun
  | chatV1 => exact (Follows.refl u).profiled nofun
  | deepSeekV1 => exact ⟨deepSeek_reported, by rw [CanonicalUsage.profiled, aliased_deepSeek]; simp,
      fun _ hu => (formed_deepSeek hu).mono (by decide)⟩
  | messagesV1 => exact profiled_messages
  | geminiInteractionsV1 => exact follows_geminiInteractions.profiled nofun

theorem formed_reporting (r : Counters) : Formed 0 (.reporting r) where
  keys := rfl
  counters := by
    have hall : ∀ c ∈ CanonicalUsage.default.counters.values, c.shaped = true := by decide
    exact hall
  details := nofun
  fewDetails := Nat.le_refl 0
  nodup := List.nodup_nil
  known := nofun

/-- Two reports of the same cached tokens that differ. -/
def Mismatch (r : Counters) : Prop := ∃ a b,
  (r.get "prompt_tokens_details.cached_tokens").bind (·.value) = some a ∧
    (r.get "prompt_cache_hit_tokens").bind (·.value) = some b ∧ a ≠ b

theorem aliasMismatch_iff : u.aliasMismatch = true ↔ Mismatch u.reported := by
  rw [CanonicalUsage.aliasMismatch, CanonicalUsage.reportedValue, CanonicalUsage.reportedValue,
    Mismatch]
  split
  · next a b ha hb => simp [ha, hb]
  · next hnone =>
      refine ⟨nofun, ?_⟩
      rintro ⟨a, b, ha, hb, -⟩
      exact (hnone a b ha hb).elim

variable (profile) in
/-- A normal form has its shape, keeps the reports and compares those of cached tokens. -/
theorem normalize_profiled (hr : ∀ c ∈ r.values, c.shaped = true) :
    (normalize profile r).reported = r ∧ Formed 2 (normalize profile r) ∧
      (aliasReason ∈ (normalize profile r).violations ↔ profile = .deepSeekV1 ∧ Mismatch r) := by
  have hfill := follows_fill (u := .reporting r) profile hr
  have hnone : (CanonicalUsage.fill (.reporting r) profile).violations = [] :=
    fill_violations profile
  have hstart := hfill.trans (follows_flag (hnone ▸ List.not_mem_nil))
  have hprofiled := profiled_profiled (CanonicalUsage.fill (.reporting r) profile).flag profile
  have hrest := (follows_partition profile).trans
    (follows_subsets.trans (follows_totals.trans follows_finish))
      (u := ((CanonicalUsage.fill (.reporting r) profile).flag.profiled profile))
  have hkept : (CanonicalUsage.fill (.reporting r) profile).flag.reported = r := hstart.reported
  have hshaped : ∀ c ∈ (CanonicalUsage.fill (.reporting r) profile).flag.reported.values,
      c.shaped = true := hkept.symm ▸ hr
  refine ⟨hrest.reported.trans (hprofiled.reported.trans hkept), ?_, ?_⟩
  · exact hrest.formed (hprofiled.reported.symm ▸ hshaped) 2
      (hprofiled.formed hshaped (hstart.formed hr 0 (formed_reporting r)))
  · rw [normalize, hrest.aliased, hprofiled.aliased, aliasMismatch_iff, hkept, or_iff_left]
    rw [hstart.aliased]
    exact List.not_mem_nil

end Normal

end ResponseGateway.Usage
