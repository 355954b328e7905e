import ResponseGateway.Usage.Normalization

/-!
The counters of a normal form agree with each other as exact numbers. Each rule of the
normalization leaves most counters alone; the rules that come last only take values away.
One profile has two reports of its cached tokens, and compares its regular ones with only
one of them.
-/

namespace ResponseGateway.Usage

section Sums

theorem checkedAdd_eq_some {a b sum : UInt64} :
    checkedAdd a b = some sum ↔ a.toNat + b.toNat < 2 ^ 64 ∧ sum.toNat = a.toNat + b.toNat := by
  rw [checkedAdd]
  split
  · next hfits =>
      have hsum : (a + b).toNat = a.toNat + b.toNat := by
        rw [UInt64.toNat_add, Nat.mod_eq_of_lt hfits]
      rw [Option.some.injEq, and_iff_right hfits, ← hsum, eq_comm]
      exact UInt64.toNat_inj.symm
  · next hwide => exact ⟨nofun, fun h => absurd h.1 hwide⟩

theorem checkedAdd_eq_none {a b : UInt64} :
    checkedAdd a b = none ↔ 2 ^ 64 ≤ a.toNat + b.toNat := by
  rw [checkedAdd]
  split
  · next hfits => exact iff_of_false nofun (Nat.not_le.2 hfits)
  · next hwide => exact iff_of_true rfl (Nat.not_lt.1 hwide)

theorem checkedSub_eq_some {a b rest : UInt64} :
    checkedSub a b = some rest ↔ b.toNat + rest.toNat = a.toNat := by
  rw [checkedSub]
  split
  · next hle =>
      have hsub : (a - b).toNat = a.toNat - b.toNat := UInt64.toNat_sub_of_le a b hle
      rw [UInt64.le_iff_toNat_le] at hle
      rw [Option.some.injEq, ← UInt64.toNat_inj, hsub]
      omega
  · next hlt =>
      rw [UInt64.not_le, UInt64.lt_iff_toNat_lt] at hlt
      exact iff_of_false nofun (by omega)

end Sums

section Statement

variable (r : Counters) (u : CanonicalUsage)

/-- The value of a counter as a number. -/
def CanonicalUsage.number (field : String) : Option Nat := (u.value field).map UInt64.toNat

/-- The value that is reported under a path as a number. -/
def reportedNumber (path : String) : Option Nat :=
  ((r.get path).bind (·.value)).map UInt64.toNat

/-- Values that are both there are in order. -/
def CanonicalUsage.Within (part whole : String) : Prop :=
  ∀ n ∈ u.number part, ∀ m ∈ u.number whole, n ≤ m

/-- The parts of the input that are there are within it, and all of it when all are there. -/
structure CanonicalUsage.Divided : Prop where
  whole : ∀ input ∈ u.number "input_tokens", ∀ regular ∈ u.number "input_regular_tokens",
    ∀ read ∈ u.number "cache_read_input_tokens", ∀ write ∈ u.number "cache_write_input_tokens",
      regular + read + write = input
  read : ∀ input ∈ u.number "input_tokens", ∀ regular ∈ u.number "input_regular_tokens",
    ∀ read ∈ u.number "cache_read_input_tokens", regular + read ≤ input
  write : ∀ input ∈ u.number "input_tokens", ∀ regular ∈ u.number "input_regular_tokens",
    ∀ write ∈ u.number "cache_write_input_tokens", regular + write ≤ input

/-- The sums that do not fit are marked and have no value. -/
structure Marked (profile : Profile) : Prop where
  total : (∀ c ∈ r.values, c.value.isSome ∨ c.source = .notReported ∨ c = .invalid) →
    ∀ input ∈ u.number "input_tokens", ∀ output ∈ u.number "output_tokens",
      2 ^ 64 ≤ input + output → u.counters.get "total_tokens" = some .invalid
  output : profile = .geminiInteractionsV1 →
    ∀ regular ∈ reportedNumber r "total_output_tokens",
      ∀ thought ∈ reportedNumber r "total_thought_tokens", 2 ^ 64 ≤ regular + thought →
        u.counters.get "output_tokens" = some .invalid
  input : profile = .messagesV1 → ∀ regular ∈ reportedNumber r "input_tokens",
    ∀ read ∈ reportedNumber r "cache_read_input_tokens",
      ∀ write ∈ reportedNumber r "cache_creation_input_tokens",
        2 ^ 64 ≤ regular + read + write → u.counters.get "input_tokens" = some .invalid

/-- The counters of a normal form agree with each other. -/
structure Consistent (profile : Profile) : Prop where
  total : ∀ input ∈ u.number "input_tokens", ∀ output ∈ u.number "output_tokens",
    ∀ total ∈ u.number "total_tokens", total = input + output
  read : u.Within "cache_read_input_tokens" "input_tokens"
  write : u.Within "cache_write_input_tokens" "input_tokens"
  reasoning : u.Within "reasoning_output_tokens" "output_tokens"
  divided : u.Divided
  marked : Marked r u profile

/-- Cached tokens that only the details of the prompt report leave room for those that were
not cached. -/
def Unshared : Prop := r.get "prompt_cache_hit_tokens" = none →
  ∀ input ∈ reportedNumber r "prompt_tokens",
    ∀ cached ∈ reportedNumber r "prompt_tokens_details.cached_tokens",
      ∀ miss ∈ reportedNumber r "prompt_cache_miss_tokens", cached ≤ input → cached + miss ≤ input

end Statement

section Rules

variable {u : CanonicalUsage} {field f : String} {c : Counter} {profile : Profile}

theorem get_put (u : CanonicalUsage) (field : String) (c : Counter) (f : String) :
    (u.put field c).counters.get f = if field = f then some c else u.counters.get f :=
  OrderedMap.get_insert _ _ _ _

theorem get_refuse (u : CanonicalUsage) (field reason : String) (f : String) :
    (u.refuse field reason).counters.get f =
      if field = f then some .invalid else u.counters.get f :=
  OrderedMap.get_insert _ _ _ _

theorem get_deepSeek (hf : f ∉ ["cache_read_input_tokens", "input_regular_tokens"]) :
    u.deepSeek.counters.get f = u.counters.get f := by
  simp only [List.mem_cons, List.not_mem_nil, or_false, not_or] at hf
  have hfirst : ∀ reason, (u.refuse "cache_read_input_tokens" reason).counters.get f =
      u.counters.get f := fun reason => by rw [get_refuse, if_neg (Ne.symm hf.1)]
  rw [CanonicalUsage.deepSeek]
  split
  · split
    · rw [get_refuse, if_neg (Ne.symm hf.2)]
      split
      · exact hfirst _
      · rfl
    · split
      · exact hfirst _
      · rfl
  · split
    · exact hfirst _
    · rfl

theorem get_messages (hf : f ∉ ["input_tokens", "cache_write_input_tokens"]) :
    u.messages.counters.get f = u.counters.get f := by
  simp only [List.mem_cons, List.not_mem_nil, or_false, not_or] at hf
  have hsum : u.sumInput.detail.counters.get f = u.counters.get f := by
    rw [CanonicalUsage.detail, CanonicalUsage.sumInput]
    split
    · exact (get_put _ _ _ _).trans (if_neg (Ne.symm hf.1))
    · rfl
  rw [CanonicalUsage.messages, ← hsum]
  generalize u.sumInput.detail = v
  rw [CanonicalUsage.checkDetails]
  split
  · dsimp only
    split
    · split
      · rw [get_refuse, if_neg (Ne.symm hf.2)]
      · rfl
    · rfl
  · rfl

theorem get_partition (hf : f ∉ ["input_regular_tokens", "cache_read_input_tokens",
    "cache_write_input_tokens"]) : (u.partition profile).counters.get f = u.counters.get f := by
  simp only [List.mem_cons, List.not_mem_nil, or_false, not_or] at hf
  rw [CanonicalUsage.partition]
  split
  · split
    · split
      · rw [get_put, if_neg (Ne.symm hf.1)]
      · rfl
    · rw [get_refuse, if_neg (Ne.symm hf.2.2), get_refuse, if_neg (Ne.symm hf.2.1)]
  · rfl

theorem get_subset {part whole : String} (hf : part ≠ f) :
    (u.subset part whole).counters.get f = u.counters.get f := by
  rw [CanonicalUsage.subset]
  split
  · split
    · rw [get_refuse, if_neg hf]
    · rfl
  · rfl

theorem get_totals (hf : "total_tokens" ≠ f) : u.totals.counters.get f = u.counters.get f := by
  rw [CanonicalUsage.totals]
  split
  · dsimp only
    split
    · split
      · rw [get_refuse, if_neg hf]
      · rfl
    · split
      · rw [get_put, if_neg hf]
      · rfl
  · rfl

theorem counters_flag (u : CanonicalUsage) : u.flag.counters = u.counters := by
  rw [CanonicalUsage.flag]
  split <;> rfl

theorem counters_finish (u : CanonicalUsage) : u.finish.counters = u.counters := by
  rw [CanonicalUsage.finish]
  split
  · exact counters_flag u
  · rfl

/-- A field is filled with the last of its reports. -/
theorem get_fill (profile : Profile) (f : String) : (u.fill profile).counters.get f =
    (paths profile).foldl (fun old e =>
      if e.1 = f then (u.reported.get e.2).or old else old) (u.counters.get f) := by
  rw [CanonicalUsage.fill]
  generalize paths profile = l
  induction l generalizing u with
  | nil => rfl
  | cons e rest ih =>
      rw [List.foldl_cons, List.foldl_cons]
      cases hget : u.reported.get e.2 with
      | none =>
          rw [Option.none_or, ite_self]
          exact ih
      | some c =>
          rw [ih, get_put, Option.some_or]
          rfl

end Rules

section Division

variable {u u' : CanonicalUsage} {field f : String} {n : Nat} {profile : Profile}

theorem mem_number : n ∈ u.number field ↔ ∃ v, u.value field = some v ∧ v.toNat = n := by
  rw [CanonicalUsage.number, Option.mem_map]
  rfl

theorem number_of_get (h : u'.counters.get field = u.counters.get field) :
    u'.number field = u.number field := by
  rw [CanonicalUsage.number, CanonicalUsage.number, CanonicalUsage.value, h, ← CanonicalUsage.value]

theorem number_put (u : CanonicalUsage) (field : String) (c : Counter) (f : String) :
    (u.put field c).number f = if field = f then c.value.map UInt64.toNat else u.number f := by
  rw [CanonicalUsage.number, value_put]
  split <;> rfl

theorem number_refuse (u : CanonicalUsage) (field reason : String) (f : String) :
    (u.refuse field reason).number f = if field = f then none else u.number f :=
  number_put u field .invalid f

/-- What is divided stays so when parts are taken away. -/
theorem CanonicalUsage.Divided.shed (h : u.Divided)
    (hinput : u'.number "input_tokens" = u.number "input_tokens")
    (hregular : u'.number "input_regular_tokens" = u.number "input_regular_tokens")
    (hread : ∀ n ∈ u'.number "cache_read_input_tokens", n ∈ u.number "cache_read_input_tokens")
    (hwrite : ∀ n ∈ u'.number "cache_write_input_tokens", n ∈ u.number "cache_write_input_tokens") :
    u'.Divided := by
  refine ⟨?_, ?_, ?_⟩
  · rw [hinput, hregular]
    exact fun i hi n hn a ha b hb => h.whole i hi n hn a (hread a ha) b (hwrite b hb)
  · rw [hinput, hregular]
    exact fun i hi n hn a ha => h.read i hi n hn a (hread a ha)
  · rw [hinput, hregular]
    exact fun i hi n hn b hb => h.write i hi n hn b (hwrite b hb)

/-- Without regular tokens there is nothing to divide. -/
theorem divided_of_none (h : u.number "input_regular_tokens" = none) : u.Divided := by
  refine ⟨?_, ?_, ?_⟩
  · rw [h]
    exact fun _ _ _ hn => nomatch hn
  · rw [h]
    exact fun _ _ _ hn => nomatch hn
  · rw [h]
    exact fun _ _ _ hn => nomatch hn

theorem divided_partition (h : u.Divided) : (u.partition profile).Divided := by
  rw [CanonicalUsage.partition]
  split
  · next input read write hinput hread hwrite' =>
      split
      · next regular hrest =>
          split
          · obtain ⟨rest, hfirst, hsecond⟩ := Option.bind_eq_some_iff.1 hrest
            rw [checkedSub_eq_some] at hfirst hsecond
            have hnumber : ∀ {f : String} {v : UInt64}, u.value f = some v →
                u.number f = some v.toNat := fun hv => by rw [CanonicalUsage.number, hv]; rfl
            refine ⟨?_, ?_, ?_⟩
            · simp only [number_put, hnumber hinput, hnumber hread, hnumber hwrite']
              simp [Counter.derived]
              omega
            · simp only [number_put, hnumber hinput, hnumber hread]
              simp [Counter.derived]
              omega
            · simp only [number_put, hnumber hinput, hnumber hwrite']
              simp [Counter.derived]
              omega
          · exact h
      · refine ⟨?_, ?_, ?_⟩
        · simp [number_refuse]
        · simp [number_refuse]
        · simp [number_refuse]
  · exact h

/-- Only what is within its whole is left of a part. -/
theorem number_subset (part whole : String) :
    (u.subset part whole).Within part whole ∧
      ∀ n ∈ (u.subset part whole).number part, n ∈ u.number part := by
  rw [CanonicalUsage.subset]
  split
  · next n m hn hm =>
      split
      · rw [CanonicalUsage.Within, number_refuse, if_pos rfl]
        exact ⟨by simp, by simp⟩
      · next hle =>
          refine ⟨fun n' hn' m' hm' => ?_, fun _ h => h⟩
          obtain ⟨v, hv, rfl⟩ := mem_number.1 hn'
          obtain ⟨w, hw, rfl⟩ := mem_number.1 hm'
          obtain rfl := Option.some.inj (hn.symm.trans hv)
          obtain rfl := Option.some.inj (hm.symm.trans hw)
          exact UInt64.le_iff_toNat_le.1 (UInt64.not_lt.1 hle)
  · next hnone =>
      refine ⟨fun n' hn' m' hm' => ?_, fun _ h => h⟩
      obtain ⟨v, hv, -⟩ := mem_number.1 hn'
      obtain ⟨w, hw, -⟩ := mem_number.1 hm'
      exact (hnone v w hv hw).elim

/-- What is within its whole stays. -/
theorem number_subset_kept {part whole : String} (hn : n ∈ u.number part)
    (hle : ∀ m ∈ u.number whole, n ≤ m) : n ∈ (u.subset part whole).number part := by
  rw [CanonicalUsage.subset]
  split
  · next a b ha hb =>
      obtain ⟨v, hv, rfl⟩ := mem_number.1 hn
      obtain rfl := Option.some.inj (ha.symm.trans hv)
      have hab : a ≤ b := UInt64.le_iff_toNat_le.2 (hle _ (mem_number.2 ⟨b, hb, rfl⟩))
      rw [if_neg (UInt64.not_lt.2 hab)]
      exact hn
  · exact hn

/-- What the comparisons with the totals leave. -/
structure Bounded (u u' : CanonicalUsage) : Prop where
  same : ∀ f, f ∉ ["cache_read_input_tokens", "cache_write_input_tokens",
    "reasoning_output_tokens"] → u'.counters.get f = u.counters.get f
  readShed : ∀ n ∈ u'.number "cache_read_input_tokens", n ∈ u.number "cache_read_input_tokens"
  writeShed : ∀ n ∈ u'.number "cache_write_input_tokens", n ∈ u.number "cache_write_input_tokens"
  readKept : ∀ n ∈ u.number "cache_read_input_tokens",
    (∀ m ∈ u.number "input_tokens", n ≤ m) → n ∈ u'.number "cache_read_input_tokens"
  read : u'.Within "cache_read_input_tokens" "input_tokens"
  write : u'.Within "cache_write_input_tokens" "input_tokens"
  reasoning : u'.Within "reasoning_output_tokens" "output_tokens"

theorem bounded_subsets (u : CanonicalUsage) : Bounded u u.subsets := by
  rw [CanonicalUsage.subsets]
  obtain ⟨hread, hreadShed⟩ :=
    number_subset (u := u) "cache_read_input_tokens" "input_tokens"
  have hkept : ∀ n ∈ u.number "cache_read_input_tokens", (∀ m ∈ u.number "input_tokens", n ≤ m) →
      n ∈ (u.subset "cache_read_input_tokens" "input_tokens").number "cache_read_input_tokens" :=
    fun n hn hle => number_subset_kept hn hle
  have hfirst : ∀ f, "cache_read_input_tokens" ≠ f →
      (u.subset "cache_read_input_tokens" "input_tokens").counters.get f = u.counters.get f :=
    fun f hf => get_subset hf
  generalize u.subset "cache_read_input_tokens" "input_tokens" = v
    at hread hreadShed hkept hfirst ⊢
  obtain ⟨hwrite, hwriteShed⟩ :=
    number_subset (u := v) "cache_write_input_tokens" "input_tokens"
  have hsecond : ∀ f, "cache_write_input_tokens" ≠ f →
      (v.subset "cache_write_input_tokens" "input_tokens").counters.get f = v.counters.get f :=
    fun f hf => get_subset hf
  generalize v.subset "cache_write_input_tokens" "input_tokens" = w at hwrite hwriteShed hsecond ⊢
  obtain ⟨hreasoning, -⟩ :=
    number_subset (u := w) "reasoning_output_tokens" "output_tokens"
  have hthird : ∀ f, "reasoning_output_tokens" ≠ f →
      (w.subset "reasoning_output_tokens" "output_tokens").counters.get f = w.counters.get f :=
    fun f hf => get_subset hf
  generalize w.subset "reasoning_output_tokens" "output_tokens" = x at hreasoning hthird ⊢
  have hnumber : ∀ f, "reasoning_output_tokens" ≠ f → x.number f = w.number f :=
    fun f hf => number_of_get (hthird f hf)
  have hnumber' : ∀ f, "cache_write_input_tokens" ≠ f → w.number f = v.number f :=
    fun f hf => number_of_get (hsecond f hf)
  refine ⟨fun f hf => ?_, ?_, ?_, ?_, ?_, ?_, hreasoning⟩
  · simp only [List.mem_cons, List.not_mem_nil, or_false, not_or] at hf
    rw [hthird f (Ne.symm hf.2.2), hsecond f (Ne.symm hf.2.1), hfirst f (Ne.symm hf.1)]
  · rw [hnumber _ (by decide), hnumber' _ (by decide)]
    exact hreadShed
  · rw [hnumber _ (by decide)]
    intro n hn
    rw [← number_of_get (hfirst "cache_write_input_tokens" (by decide))]
    exact hwriteShed n hn
  · rw [hnumber _ (by decide), hnumber' _ (by decide)]
    exact hkept
  · rw [CanonicalUsage.Within, hnumber _ (by decide), hnumber _ (by decide),
      hnumber' _ (by decide), hnumber' _ (by decide)]
    exact hread
  · rw [CanonicalUsage.Within, hnumber _ (by decide), hnumber _ (by decide)]
    exact hwrite

/-- The total is the sum, or has no value; a sum that does not fit leaves a mark. -/
theorem totals_total (u : CanonicalUsage) :
    (∀ input ∈ u.number "input_tokens", ∀ output ∈ u.number "output_tokens",
      ∀ total ∈ u.totals.number "total_tokens", total = input + output) ∧
    (∀ c, u.counters.get "total_tokens" = some c →
      (c.value.isSome ∨ c.source = .notReported ∨ c = .invalid) →
        ∀ input ∈ u.number "input_tokens", ∀ output ∈ u.number "output_tokens",
          2 ^ 64 ≤ input + output → u.totals.counters.get "total_tokens" = some .invalid) := by
  rw [CanonicalUsage.totals]
  split
  · next a b ha hb =>
      have hnumber : u.number "input_tokens" = some a.toNat ∧
          u.number "output_tokens" = some b.toNat := by
        rw [CanonicalUsage.number, CanonicalUsage.number, ha, hb]
        exact ⟨rfl, rfl⟩
      simp only [hnumber.1, hnumber.2, Option.mem_some_iff, forall_eq']
      split
      · next total htotal =>
          split
          · refine ⟨?_, fun _ _ _ _ => by rw [get_refuse, if_pos rfl]⟩
            rw [number_refuse, if_pos rfl]
            simp
          · next hsame =>
              rw [ne_eq, not_not] at hsame
              obtain ⟨hfits, hsum⟩ := checkedAdd_eq_some.1 hsame
              refine ⟨fun n hn => ?_, fun _ _ _ hwide => absurd hfits (Nat.not_lt.2 hwide)⟩
              obtain ⟨v, hv, rfl⟩ := mem_number.1 hn
              rw [← Option.some.inj (htotal.symm.trans hv), hsum]
      · next hnone =>
          split
          · refine ⟨?_, fun _ _ _ hwide => ?_⟩
            · rw [number_put, if_pos rfl, Counter.derived]
              intro n hn
              obtain ⟨v, hv, rfl⟩ := Option.mem_map.1 hn
              exact (checkedAdd_eq_some.1 hv).2
            · rw [get_put, if_pos rfl, checkedAdd_eq_none.2 hwide]
              rfl
          · next hsource =>
              refine ⟨fun n hn => ?_, fun c hc hshape _ => ?_⟩
              · obtain ⟨v, hv, -⟩ := mem_number.1 hn
                cases hnone.symm.trans hv
              · rw [hc, Option.map_some, Option.some.injEq] at hsource
                rw [CanonicalUsage.value, hc, Option.bind_some] at hnone
                rcases hshape with hvalue | hreported | rfl
                · rw [hnone] at hvalue
                  cases hvalue
                · exact absurd hreported hsource
                · exact hc
  · next hmissing =>
      refine ⟨fun input hinput output houtput => ?_, fun _ _ _ input hinput output houtput => ?_⟩
      · obtain ⟨v, hv, -⟩ := mem_number.1 hinput
        obtain ⟨w, hw, -⟩ := mem_number.1 houtput
        exact (hmissing v w hv hw).elim
      · obtain ⟨v, hv, -⟩ := mem_number.1 hinput
        obtain ⟨w, hw, -⟩ := mem_number.1 houtput
        exact (hmissing v w hv hw).elim

end Division

section Profiles

variable {u : CanonicalUsage} {r : Counters} {profile : Profile} {f : String}

theorem checkDetails_write (u : CanonicalUsage) :
    (∀ n ∈ u.checkDetails.number "cache_write_input_tokens",
      n ∈ u.number "cache_write_input_tokens") ∧
    ∀ f, "cache_write_input_tokens" ≠ f → u.checkDetails.counters.get f = u.counters.get f := by
  rw [CanonicalUsage.checkDetails]
  split
  · dsimp only
    split
    · split
      · rw [number_refuse, if_pos rfl]
        exact ⟨by simp, fun f hf => by rw [get_refuse, if_neg hf]⟩
      · exact ⟨fun _ h => h, fun _ _ => rfl⟩
    · exact ⟨fun _ h => h, fun _ _ => rfl⟩
  · exact ⟨fun _ h => h, fun _ _ => rfl⟩

/-- The input is the sum of its parts, or has no value. -/
theorem divided_messages (h : u.number "input_tokens" = none) : u.messages.Divided ∧
    ∀ regular ∈ u.number "input_regular_tokens", ∀ read ∈ u.number "cache_read_input_tokens",
      ∀ write ∈ u.number "cache_write_input_tokens", 2 ^ 64 ≤ regular + read + write →
        u.messages.counters.get "input_tokens" = some .invalid := by
  obtain ⟨hwrite, hrest⟩ := checkDetails_write u.sumInput.detail
  have hsame : ∀ f, u.sumInput.detail.number f = u.sumInput.number f := fun _ => rfl
  have hdivided : u.sumInput.Divided ∧
      ∀ regular ∈ u.number "input_regular_tokens", ∀ read ∈ u.number "cache_read_input_tokens",
        ∀ write ∈ u.number "cache_write_input_tokens", 2 ^ 64 ≤ regular + read + write →
          u.sumInput.counters.get "input_tokens" = some .invalid := by
    rw [CanonicalUsage.sumInput]
    split
    · next a b c ha hb hc =>
        have hnumber : ∀ {f : String} {v : UInt64}, u.value f = some v →
            u.number f = some v.toNat := fun hv => by rw [CanonicalUsage.number, hv]; rfl
        have hsum : ∀ input ∈ (u.put "input_tokens" (.derived
            ((checkedAdd a b).bind fun n => checkedAdd n c))).number "input_tokens",
              input = a.toNat + b.toNat + c.toNat := by
          rw [number_put, if_pos rfl, Counter.derived]
          intro input hinput
          obtain ⟨v, hv, rfl⟩ := Option.mem_map.1 hinput
          obtain ⟨n, hn, hv⟩ := Option.bind_eq_some_iff.1 hv
          rw [checkedAdd_eq_some] at hn hv
          rw [hv.2, hn.2]
        have hothers : ∀ f, "input_tokens" ≠ f → (u.put "input_tokens" (.derived
            ((checkedAdd a b).bind fun n => checkedAdd n c))).number f = u.number f :=
          fun f hf => (number_put _ _ _ _).trans (if_neg hf)
        generalize hv : u.put "input_tokens" (.derived
          ((checkedAdd a b).bind fun n => checkedAdd n c)) = v at hsum hothers
        refine ⟨⟨?_, ?_, ?_⟩, ?_⟩
        · intro input hinput regular hregular read hread write hwrite
          rw [hothers _ (by decide), hnumber ha, Option.mem_some_iff] at hregular
          rw [hothers _ (by decide), hnumber hb, Option.mem_some_iff] at hread
          rw [hothers _ (by decide), hnumber hc, Option.mem_some_iff] at hwrite
          have := hsum input hinput
          omega
        · intro input hinput regular hregular read hread
          rw [hothers _ (by decide), hnumber ha, Option.mem_some_iff] at hregular
          rw [hothers _ (by decide), hnumber hb, Option.mem_some_iff] at hread
          have := hsum input hinput
          omega
        · intro input hinput regular hregular write hwrite
          rw [hothers _ (by decide), hnumber ha, Option.mem_some_iff] at hregular
          rw [hothers _ (by decide), hnumber hc, Option.mem_some_iff] at hwrite
          have := hsum input hinput
          omega
        · rw [hnumber ha, hnumber hb, hnumber hc]
          simp only [Option.mem_some_iff, forall_eq']
          intro hwide
          have hnone : ((checkedAdd a b).bind fun n => checkedAdd n c) = none := by
            rw [Option.bind_eq_none_iff]
            intro n hn
            rw [checkedAdd_eq_none, (checkedAdd_eq_some.1 hn).2]
            exact hwide
          rw [← hv, get_put, if_pos rfl, hnone]
          rfl
    · next hnone =>
        refine ⟨⟨?_, ?_, ?_⟩, ?_⟩
        · rw [h]
          simp
        · rw [h]
          simp
        · rw [h]
          simp
        · intro regular hregular read hread write hwrite
          obtain ⟨a, ha, -⟩ := mem_number.1 hregular
          obtain ⟨b, hb, -⟩ := mem_number.1 hread
          obtain ⟨c, hc, -⟩ := mem_number.1 hwrite
          exact (hnone a b c ha hb hc).elim
  rw [CanonicalUsage.messages]
  refine ⟨hdivided.1.shed ?_ ?_ ?_ hwrite, fun a ha b hb c hc hwide => ?_⟩
  · exact number_of_get (hrest _ (by decide))
  · exact number_of_get (hrest _ (by decide))
  · intro n hn
    rwa [number_of_get (hrest _ (by decide))] at hn
  · rw [hrest _ (by decide)]
    exact hdivided.2 a ha b hb c hc hwide

/-- The counters before the rule of the profile. -/
def filled (profile : Profile) (r : Counters) : CanonicalUsage :=
  ((CanonicalUsage.reporting r).fill profile).flag

theorem get_filled (profile : Profile) (r : Counters) (hf : f ∈ fields) :
    (filled profile r).counters.get f = (paths profile).foldl (fun old e =>
      if e.1 = f then (r.get e.2).or old else old) (some .default) := by
  have hdefault : ∀ f ∈ fields, CanonicalUsage.default.counters.get f = some .default := by decide
  rw [filled, counters_flag, get_fill]
  exact congrArg (fun start => List.foldl _ start _) (hdefault f hf)

theorem reported_filled (profile : Profile) (r : Counters) : (filled profile r).reported = r := by
  have hflag : ∀ u : CanonicalUsage, u.flag.reported = u.reported := by
    intro u
    rw [CanonicalUsage.flag]
    split <;> rfl
  rw [filled, hflag, CanonicalUsage.fill]
  have hinit : (CanonicalUsage.reporting r).reported = r := rfl
  generalize CanonicalUsage.reporting r = u at hinit ⊢
  induction paths profile generalizing u with
  | nil => exact hinit
  | cons e rest ih =>
      rw [List.foldl_cons]
      refine ih _ ?_
      split
      · exact hinit
      · exact hinit

/-- What comes after the rule of the profile. -/
def CanonicalUsage.settled (profile : Profile) (u : CanonicalUsage) : CanonicalUsage :=
  (u.partition profile).subsets.totals.finish

theorem normalize_settled (profile : Profile) (r : Counters) :
    normalize profile r = ((filled profile r).profiled profile).settled profile := rfl

theorem get_settled (u : CanonicalUsage) (hf : f ∈ ["input_tokens", "output_tokens"]) :
    (u.settled profile).counters.get f = u.counters.get f := by
  have hsame := (bounded_subsets (u.partition profile)).same
  rw [CanonicalUsage.settled, counters_finish]
  simp only [List.mem_cons, List.not_mem_nil, or_false] at hf
  rcases hf with rfl | rfl
  · rw [get_totals (by decide), hsame _ (by decide), get_partition (by decide)]
  · rw [get_totals (by decide), hsame _ (by decide), get_partition (by decide)]

theorem number_finish (u : CanonicalUsage) (f : String) : u.finish.number f = u.number f :=
  number_of_get (by rw [counters_finish])

/-- What the later rules see to, whatever the rule of the profile does. -/
structure Settled (profile : Profile) (u u' : CanonicalUsage) : Prop where
  total : ∀ input ∈ u'.number "input_tokens", ∀ output ∈ u'.number "output_tokens",
    ∀ total ∈ u'.number "total_tokens", total = input + output
  wide : ∀ c, u.counters.get "total_tokens" = some c →
    (c.value.isSome ∨ c.source = .notReported ∨ c = .invalid) →
      ∀ input ∈ u'.number "input_tokens", ∀ output ∈ u'.number "output_tokens",
        2 ^ 64 ≤ input + output → u'.counters.get "total_tokens" = some .invalid
  read : u'.Within "cache_read_input_tokens" "input_tokens"
  write : u'.Within "cache_write_input_tokens" "input_tokens"
  reasoning : u'.Within "reasoning_output_tokens" "output_tokens"
  divided : u.Divided → u'.Divided

theorem settled_settled (u : CanonicalUsage) (profile : Profile) :
    Settled profile u (u.settled profile) := by
  have hbounded := bounded_subsets (u.partition profile)
  have hdivided : u.Divided → (u.partition profile).Divided := divided_partition
  have hpartition : (u.partition profile).counters.get "total_tokens" =
      u.counters.get "total_tokens" := get_partition (by decide)
  rw [CanonicalUsage.settled]
  generalize u.partition profile = v at hbounded hdivided hpartition ⊢
  obtain ⟨htotal, hwide⟩ := totals_total v.subsets
  have hkept : ∀ f, "total_tokens" ≠ f → v.subsets.totals.finish.number f = v.subsets.number f :=
    fun f hf => (number_finish _ _).trans (number_of_get (get_totals hf))
  rw [hbounded.same _ (by decide), hpartition] at hwide
  refine ⟨?_, ?_, ?_, ?_, ?_, fun h => ?_⟩
  · rw [hkept _ (by decide), hkept _ (by decide), number_finish]
    exact htotal
  · rw [hkept _ (by decide), hkept _ (by decide), counters_finish]
    exact hwide
  · rw [CanonicalUsage.Within, hkept _ (by decide), hkept _ (by decide)]
    exact hbounded.read
  · rw [CanonicalUsage.Within, hkept _ (by decide), hkept _ (by decide)]
    exact hbounded.write
  · rw [CanonicalUsage.Within, hkept _ (by decide), hkept _ (by decide)]
    exact hbounded.reasoning
  · refine (hdivided h).shed ?_ ?_ ?_ ?_
    · exact (hkept _ (by decide)).trans (number_of_get (hbounded.same _ (by decide)))
    · exact (hkept _ (by decide)).trans (number_of_get (hbounded.same _ (by decide)))
    · rw [hkept _ (by decide)]
      exact hbounded.readShed
    · rw [hkept _ (by decide)]
      exact hbounded.writeShed

theorem profiled_total (u : CanonicalUsage) (profile : Profile) :
    (u.profiled profile).counters.get "total_tokens" = u.counters.get "total_tokens" := by
  cases profile with
  | responsesV1 => rfl
  | chatV1 => rfl
  | deepSeekV1 => exact get_deepSeek (by decide)
  | messagesV1 => exact get_messages (by decide)
  | geminiInteractionsV1 => exact (get_put _ _ _ _).trans (if_neg (by decide))

/-- The total that is there before the later rules is a report or the default. -/
theorem filled_total (profile : Profile) (r : Counters) : ∃ c,
    (filled profile r).counters.get "total_tokens" = some c ∧ (c = .default ∨ c ∈ r.values) := by
  have hreport : ∃ c, (r.get "total_tokens").or (some .default) = some c ∧
      (c = .default ∨ c ∈ r.values) := by
    cases hget : r.get "total_tokens" with
    | none => exact ⟨_, rfl, .inl rfl⟩
    | some c => exact ⟨c, rfl, .inr (OrderedMap.mem_values.2 ⟨_, hget⟩)⟩
  rw [get_filled profile r (by decide)]
  cases profile with
  | responsesV1 => exact hreport
  | chatV1 => exact hreport
  | deepSeekV1 => exact hreport
  | messagesV1 => exact ⟨_, rfl, .inl rfl⟩
  | geminiInteractionsV1 => exact hreport

/-- The value of a report, as a number. -/
theorem number_of_report {path : String} {old : Option Counter}
    (h : u.counters.get f = (r.get path).or old) (hold : old.bind (·.value) = none) :
    u.number f = reportedNumber r path := by
  rw [CanonicalUsage.number, CanonicalUsage.value, h, reportedNumber]
  cases r.get path with
  | none => rw [Option.none_or, hold]; rfl
  | some c => rfl

theorem profiled_regular (hne : profile ≠ .messagesV1) (hne' : profile ≠ .deepSeekV1) :
    ((filled profile r).profiled profile).number "input_regular_tokens" = none := by
  have hnone : (filled profile r).counters.get "input_regular_tokens" = some .default →
      (filled profile r).number "input_regular_tokens" = none := by
    intro h
    rw [CanonicalUsage.number, CanonicalUsage.value, h]
    rfl
  have hget := get_filled (f := "input_regular_tokens") profile r (by decide)
  cases profile with
  | responsesV1 => exact hnone hget
  | chatV1 => exact hnone hget
  | deepSeekV1 => exact absurd rfl hne'
  | messagesV1 => exact absurd rfl hne
  | geminiInteractionsV1 => exact (number_of_get ((get_put _ _ _ _).trans
      (if_neg (by decide)))).trans (hnone hget)

/-- The sum of the parts that is written for one profile. -/
theorem messages_settled (r : Counters) :
    ((filled .messagesV1 r).profiled .messagesV1).Divided ∧
    ∀ regular ∈ reportedNumber r "input_tokens",
      ∀ read ∈ reportedNumber r "cache_read_input_tokens",
        ∀ write ∈ reportedNumber r "cache_creation_input_tokens",
          2 ^ 64 ≤ regular + read + write →
            (normalize .messagesV1 r).counters.get "input_tokens" = some .invalid := by
  have hinput : (filled .messagesV1 r).number "input_tokens" = none := by
    rw [CanonicalUsage.number, CanonicalUsage.value, get_filled .messagesV1 r (by decide)]
    rfl
  have hregular : (filled .messagesV1 r).number "input_regular_tokens" =
      reportedNumber r "input_tokens" :=
    number_of_report (get_filled .messagesV1 r (by decide)) rfl
  have hread : (filled .messagesV1 r).number "cache_read_input_tokens" =
      reportedNumber r "cache_read_input_tokens" :=
    number_of_report (get_filled .messagesV1 r (by decide)) rfl
  have hwrite : (filled .messagesV1 r).number "cache_write_input_tokens" =
      reportedNumber r "cache_creation_input_tokens" :=
    number_of_report (get_filled .messagesV1 r (by decide)) rfl
  have hmessages := divided_messages hinput
  rw [hregular, hread, hwrite] at hmessages
  refine ⟨hmessages.1, fun a ha b hb c hc hwide => ?_⟩
  rw [normalize_settled, get_settled _ (by decide)]
  exact hmessages.2 a ha b hb c hc hwide

/-- The sum of the output that is written for one profile. -/
theorem gemini_output (r : Counters) : ∀ regular ∈ reportedNumber r "total_output_tokens",
    ∀ thought ∈ reportedNumber r "total_thought_tokens", 2 ^ 64 ≤ regular + thought →
      (normalize .geminiInteractionsV1 r).counters.get "output_tokens" = some .invalid := by
  have houtput : (filled .geminiInteractionsV1 r).number "output_tokens" =
      reportedNumber r "total_output_tokens" :=
    number_of_report (get_filled .geminiInteractionsV1 r (by decide)) rfl
  have hthought : (filled .geminiInteractionsV1 r).number "reasoning_output_tokens" =
      reportedNumber r "total_thought_tokens" :=
    number_of_report (get_filled .geminiInteractionsV1 r (by decide)) rfl
  intro regular hregular thought hthoughts hwide
  rw [← houtput] at hregular
  rw [← hthought] at hthoughts
  obtain ⟨a, ha, rfl⟩ := mem_number.1 hregular
  obtain ⟨b, hb, rfl⟩ := mem_number.1 hthoughts
  rw [normalize_settled, get_settled _ (by decide), CanonicalUsage.profiled,
    CanonicalUsage.geminiInteractions, get_put, if_pos rfl, ha, hb]
  exact congrArg (fun sum => some (Counter.derived sum)) (checkedAdd_eq_none.2 hwide)

end Profiles

section DeepSeek

variable {u : CanonicalUsage} {r : Counters}

/-- What is reported of the prompt. -/
theorem filled_deepSeek (r : Counters) :
    (filled .deepSeekV1 r).number "input_tokens" = reportedNumber r "prompt_tokens" ∧
    (filled .deepSeekV1 r).number "input_regular_tokens" =
      reportedNumber r "prompt_cache_miss_tokens" ∧
    (filled .deepSeekV1 r).number "cache_write_input_tokens" = none ∧
    (filled .deepSeekV1 r).number "cache_read_input_tokens" =
      if r.get "prompt_cache_hit_tokens" = none then
        reportedNumber r "prompt_tokens_details.cached_tokens"
      else reportedNumber r "prompt_cache_hit_tokens" := by
  refine ⟨?_, ?_, ?_, ?_⟩
  · exact number_of_report (get_filled .deepSeekV1 r (by decide)) rfl
  · exact number_of_report (get_filled .deepSeekV1 r (by decide)) rfl
  · rw [CanonicalUsage.number, CanonicalUsage.value, get_filled .deepSeekV1 r (by decide)]
    rfl
  · have hget : (filled .deepSeekV1 r).counters.get "cache_read_input_tokens" =
        (r.get "prompt_cache_hit_tokens").or
          ((r.get "prompt_tokens_details.cached_tokens").or (some .default)) :=
      get_filled .deepSeekV1 r (by decide)
    split
    · next hnone =>
        rw [hnone, Option.none_or] at hget
        exact number_of_report hget rfl
    · next hsome =>
        obtain ⟨c, hc⟩ := Option.ne_none_iff_exists'.1 hsome
        rw [hc, Option.some_or] at hget
        refine @number_of_report _ _ _ _ none ?_ rfl
        rw [hget, hc]
        rfl

/-- Without written tokens the comparison of the parts is left to the rule of the profile. -/
theorem settled_divided (hwrite : u.number "cache_write_input_tokens" = none) :
    (u.settled .deepSeekV1).Divided ↔ ∀ input ∈ u.number "input_tokens",
      ∀ regular ∈ u.number "input_regular_tokens", ∀ read ∈ u.number "cache_read_input_tokens",
        read ≤ input → regular + read ≤ input := by
  have hpartition : u.partition .deepSeekV1 = u := by
    rw [CanonicalUsage.number, Option.map_eq_none_iff] at hwrite
    rw [CanonicalUsage.partition]
    split
    · next hsome => rw [hwrite] at hsome; cases hsome
    · rfl
  have hbounded := bounded_subsets u
  have hkept : ∀ f, "total_tokens" ≠ f → (u.settled .deepSeekV1).number f = u.subsets.number f := by
    intro f hf
    rw [CanonicalUsage.settled, hpartition, number_finish, number_of_get (get_totals hf)]
  have hinput : (u.settled .deepSeekV1).number "input_tokens" = u.number "input_tokens" :=
    (hkept _ (by decide)).trans (number_of_get (hbounded.same _ (by decide)))
  have hregular : (u.settled .deepSeekV1).number "input_regular_tokens" =
      u.number "input_regular_tokens" :=
    (hkept _ (by decide)).trans (number_of_get (hbounded.same _ (by decide)))
  constructor
  · intro h input hi regular hn read hr hle
    refine h.read input (hinput ▸ hi) regular (hregular ▸ hn) read ?_
    rw [hkept _ (by decide)]
    refine hbounded.readKept read hr fun m hm => ?_
    obtain rfl := Option.mem_unique hi hm
    exact hle
  · intro h
    have hnone : ∀ n, n ∉ (u.settled .deepSeekV1).number "cache_write_input_tokens" := by
      intro n hn
      rw [hkept _ (by decide)] at hn
      have hold := hbounded.writeShed n hn
      rw [hwrite] at hold
      cases hold
    refine ⟨?_, fun input hi regular hn read hr => ?_, ?_⟩
    · exact fun _ _ _ _ _ _ write hw => absurd hw (hnone write)
    · rw [hkept _ (by decide)] at hr
      refine h input (hinput ▸ hi) regular (hregular ▸ hn) read (hbounded.readShed read hr) ?_
      refine hbounded.read read hr input ?_
      rw [← hkept _ (by decide)]
      exact hi
    · exact fun _ _ _ _ write hw => absurd hw (hnone write)

/-- What is counted as a hit and as a miss is all of the input. -/
theorem deepSeek_hit {hit : Counter} (h : r.get "prompt_cache_hit_tokens" = some hit) :
    ∀ input ∈ (filled .deepSeekV1 r).deepSeek.number "input_tokens",
      ∀ regular ∈ (filled .deepSeekV1 r).deepSeek.number "input_regular_tokens",
        ∀ read ∈ (filled .deepSeekV1 r).deepSeek.number "cache_read_input_tokens",
          regular + read = input := by
  obtain ⟨-, -, -, hfilled⟩ := filled_deepSeek r
  rw [if_neg (by rw [h]; simp)] at hfilled
  have hreported : (filled .deepSeekV1 r).reportedValue "prompt_cache_hit_tokens" = hit.value := by
    rw [CanonicalUsage.reportedValue, reported_filled, h]
    rfl
  have hread : (filled .deepSeekV1 r).number "cache_read_input_tokens" =
      hit.value.map UInt64.toNat := by
    rw [hfilled, reportedNumber, h]
    rfl
  generalize filled .deepSeekV1 r = u at hread hreported
  have hrefused : ∀ n ∈ (if u.aliasMismatch then
      u.refuse "cache_read_input_tokens" "cache_alias_mismatch" else u).number
        "cache_read_input_tokens", n ∈ u.number "cache_read_input_tokens" := by
    split
    · rw [number_refuse, if_pos rfl]
      simp
    · exact fun _ hn => hn
  have hkept : (if u.aliasMismatch then
      u.refuse "cache_read_input_tokens" "cache_alias_mismatch" else u).reportedValue
        "prompt_cache_hit_tokens" = hit.value := by
    split
    · exact hreported
    · exact hreported
  rw [CanonicalUsage.deepSeek]
  generalize (if u.aliasMismatch then
    u.refuse "cache_read_input_tokens" "cache_alias_mismatch" else u) = v at hrefused hkept ⊢
  rw [hkept]
  split
  · next a b c ha hb hc =>
      split
      · rw [number_refuse (f := "input_regular_tokens"), if_pos rfl]
        simp
      · next hsum =>
          rw [ne_eq, not_not] at hsum
          intro input hi regular hn read hr
          have hr := hrefused read hr
          rw [hread, ha, Option.map_some, Option.mem_some_iff] at hr
          rw [CanonicalUsage.number, hc, Option.map_some, Option.mem_some_iff] at hi
          rw [CanonicalUsage.number, hb, Option.map_some, Option.mem_some_iff] at hn
          have := (checkedAdd_eq_some.1 hsum).2
          omega
  · next hmissing =>
      intro input hi regular hn read hr
      have hr := hrefused read hr
      rw [hread] at hr
      obtain ⟨a, ha, -⟩ := Option.mem_map.1 hr
      obtain ⟨b, hb, -⟩ := mem_number.1 hn
      obtain ⟨c, hc, -⟩ := mem_number.1 hi
      exact (hmissing a b c ha hb hc).elim

/-- The parts of a prompt are within it exactly when the cached tokens that only the details
report leave room. -/
theorem deepSeek_divided (r : Counters) : (normalize .deepSeekV1 r).Divided ↔ Unshared r := by
  obtain ⟨hinput, hregular, hwrite, hread⟩ := filled_deepSeek r
  rw [normalize_settled, CanonicalUsage.profiled]
  have hnone : (filled .deepSeekV1 r).deepSeek.number "cache_write_input_tokens" = none :=
    (number_of_get (get_deepSeek (by decide))).trans hwrite
  rw [settled_divided hnone, Unshared]
  cases hhit : r.get "prompt_cache_hit_tokens" with
  | none =>
      have hreported : (filled .deepSeekV1 r).reportedValue "prompt_cache_hit_tokens" = none := by
        rw [CanonicalUsage.reportedValue, reported_filled, hhit]
        rfl
      have hsame : (filled .deepSeekV1 r).deepSeek = filled .deepSeekV1 r := by
        have halias : (filled .deepSeekV1 r).aliasMismatch = false := by
          rw [CanonicalUsage.aliasMismatch, hreported]
          split
          · next hsome => cases hsome
          · rfl
        rw [CanonicalUsage.deepSeek, if_neg (by rw [halias]; decide), hreported]
      rw [if_pos hhit] at hread
      rw [hsame, hinput, hregular, hread]
      refine ⟨fun h _ input hi cached hc miss hm hle => ?_,
        fun h input hi regular hn read hr hle => ?_⟩
      · rw [Nat.add_comm]
        exact h input hi miss hm cached hc hle
      · rw [Nat.add_comm]
        exact h rfl input hi read hr regular hn hle
  | some hit =>
      refine iff_of_true (fun input hi regular hn read hr _ => ?_) (by simp)
      exact (deepSeek_hit hhit input hi regular hn read hr).le

end DeepSeek

section Normal

/-- The counters of a normal form agree with each other, but for one report of one profile. -/
theorem normalize_consistent (profile : Profile) (r : Counters) :
    Consistent r (normalize profile r) profile ↔ (profile = .deepSeekV1 → Unshared r) := by
  have hsettled := settled_settled ((filled profile r).profiled profile) profile
  rw [← normalize_settled] at hsettled
  have hdivided : (normalize profile r).Divided ↔ (profile = .deepSeekV1 → Unshared r) := by
    by_cases hdeep : profile = .deepSeekV1
    · subst hdeep
      rw [deepSeek_divided]
      exact ⟨fun h _ => h, fun h => h rfl⟩
    · refine iff_of_true (hsettled.divided ?_) fun h => absurd h hdeep
      by_cases hmessages : profile = .messagesV1
      · subst hmessages
        exact (messages_settled r).1
      · exact divided_of_none (profiled_regular hmessages hdeep)
  rw [← hdivided]
  refine ⟨fun h => h.divided, fun h => ⟨hsettled.total, hsettled.read, hsettled.write,
    hsettled.reasoning, h, ?_, ?_, ?_⟩⟩
  · intro hshape
    obtain ⟨c, hc, hsource⟩ := filled_total profile r
    refine hsettled.wide c ((profiled_total _ _).trans hc) ?_
    rcases hsource with rfl | hmem
    · exact .inr (.inl rfl)
    · exact hshape c hmem
  · rintro rfl
    exact gemini_output r
  · rintro rfl
    exact (messages_settled r).2

/-- The tokens that were not cached and those that were are more than the input. -/
theorem normalize_inconsistent : ¬∀ (profile : Profile) (r : Counters),
    Consistent r (normalize profile r) profile := by
  intro hall
  have hread := (hall .deepSeekV1 (((OrderedMap.empty.insert "prompt_tokens"
    ⟨some 12, .reported⟩).insert "prompt_tokens_details.cached_tokens"
      ⟨some 5, .reported⟩).insert "prompt_cache_miss_tokens" ⟨some 10, .reported⟩)).divided.read
  have hover := hread 12 (by decide +kernel) 10 (by decide +kernel) 5 (by decide +kernel)
  exact absurd hover (by decide)

end Normal

end ResponseGateway.Usage
