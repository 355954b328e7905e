import ResponseGateway.Providers.Usage
import ResponseGateway.Usage.Accounting

/-!
What is read of a report passes the checks of an event, whatever it reported. A check only
takes values away; a report that follows another one is not below it, or says that it is.
-/

namespace ResponseGateway.Providers
open Usage

section Forms

/-- What holds of counters that were read of a report, whatever it was. -/
structure Framed (u : CanonicalUsage) : Prop where
  keys : u.counters.keys = CanonicalUsage.default.counters.keys
  shaped : ∀ c ∈ u.counters.values, c.shaped = true
  reported : u.reported = .empty
  details : u.cacheWriteDetails = []
  nodup : u.violations.Nodup
  known : ∀ v ∈ u.violations, v ∈ admitted
  told : ∀ c ∈ u.counters.values, c.source = .invalid → u.violations ≠ []

/-- Values are only taken away. -/
def Sheds (u u' : CanonicalUsage) : Prop := ∀ field n, u'.value field = some n → u.value field = some n

/-- A step of a check. -/
structure Checks (u u' : CanonicalUsage) : Prop where
  framed : Framed u → Framed u'
  sheds : Sheds u u'
  tells : ∀ v ∈ u.violations, v ∈ u'.violations

variable {u u' : CanonicalUsage} {field reason : String} {c : Counter}

theorem Checks.refl (u : CanonicalUsage) : Checks u u := ⟨id, fun _ _ => id, fun _ => id⟩

theorem Checks.trans {u'' : CanonicalUsage} (h : Checks u u') (h' : Checks u' u'') :
    Checks u u'' :=
  ⟨h'.framed ∘ h.framed, fun f n hn => h.sheds f n (h'.sheds f n hn),
    fun v hv => h'.tells v (h.tells v hv)⟩

theorem framed_default : Framed .default :=
  ⟨rfl, by decide, rfl, rfl, List.nodup_nil, nofun, by decide⟩

theorem Sheds.missing {f : String} (h : Sheds u u') (hf : u.value f = none) : u'.value f = none := by
  cases hv : u'.value f with
  | none => rfl
  | some n => exact absurd ((h f n hv).symm.trans hf) nofun

theorem Framed.put (h : Framed u) (hfield : field ∈ fields) (hc : c.shaped = true)
    (htold : c.source = .invalid → u.violations ≠ []) : Framed (u.put field c) :=
  { h with
    keys := (OrderedMap.keys_insert c (h.keys ▸ fields_keys field hfield)).trans h.keys
    shaped := by
      intro c' hc'
      rcases OrderedMap.values_insert hc' with rfl | hold
      · exact hc
      · exact h.shaped c' hold
    told := by
      intro c' hc'
      rcases OrderedMap.values_insert hc' with rfl | hold
      · exact htold
      · exact h.told c' hold }

theorem refuse_violations (u : CanonicalUsage) (field reason : String) :
    (u.refuse field reason).violations ≠ [] :=
  List.ne_nil_of_mem (mem_refuse.2 (.inr rfl))

theorem checks_refuse (hfield : field ∈ fields) (hreason : reason ∈ admitted) :
    Checks u (u.refuse field reason) where
  framed h :=
    { keys := (OrderedMap.keys_insert _ (h.keys ▸ fields_keys field hfield)).trans h.keys
      shaped := by
        intro c' hc'
        rcases OrderedMap.values_insert hc' with rfl | hold
        · rfl
        · exact h.shaped c' hold
      reported := h.reported
      details := h.details
      nodup := by
        rw [CanonicalUsage.refuse]
        split
        · exact h.nodup
        · next hany => exact nodup_push h.nodup (by simpa using hany)
      known := by
        intro v hv
        rcases mem_refuse.1 hv with hold | rfl
        · exact h.known v hold
        · exact hreason
      told := fun _ _ _ => refuse_violations u field reason }
  sheds f n hn := by
    rw [value_refuse] at hn
    split at hn
    · cases hn
    · exact hn
  tells _ hv := mem_refuse.2 (.inl hv)

/-- The counters pass the checks of an event that do not compare them. -/
theorem Framed.validate (h : Framed u) : u.validate = true := by
  have hformed : Formed 2 { u with violations := [] } :=
    ⟨h.keys, h.shaped, by simp [h.details], by simp [h.details], List.nodup_nil, nofun⟩
  have htaken : Taken .chatV1 u.reported := by
    rw [h.reported]
    exact ⟨nofun, nofun⟩
  have hfew : u.violations.length ≤ 32 := by
    have hsub : u.violations ⊆ admitted := h.known
    exact Nat.le_trans (h.nodup.subperm hsub).length_le (by decide)
  exact (validate_iff hformed htaken hfew).2 h.known

end Forms

section Comparisons

variable {u u' : CanonicalUsage}

theorem totalled_iff : totalled u = true ↔ ∀ a b c, u.value "input_tokens" = some a →
    u.value "output_tokens" = some b → u.value "total_tokens" = some c →
      checkedAdd a b = some c := by
  rw [totalled]
  split
  · next a b c ha hb hc =>
      rw [decide_eq_true_eq]
      refine ⟨?_, fun h => h a b c ha hb hc⟩
      intro h a' b' c' ha' hb' hc'
      rw [ha] at ha'
      rw [hb] at hb'
      rw [hc] at hc'
      cases ha'
      cases hb'
      cases hc'
      exact h
  · next hnone => exact ⟨fun _ a b c ha hb hc => (hnone a b c ha hb hc).elim, fun _ => rfl⟩

theorem reasoned_iff : reasoned u = true ↔ ∀ a b, u.value "reasoning_output_tokens" = some a →
    u.value "output_tokens" = some b → a ≤ b := by
  rw [reasoned]
  split
  · next a b ha hb =>
      rw [Bool.not_eq_true', decide_eq_false_iff_not]
      refine ⟨?_, fun h => UInt64.not_lt.2 (h a b ha hb)⟩
      intro h a' b' ha' hb'
      rw [ha] at ha'
      rw [hb] at hb'
      cases ha'
      cases hb'
      exact UInt64.not_lt.1 h
  · next hnone => exact ⟨fun _ a b ha hb => (hnone a b ha hb).elim, fun _ => rfl⟩

theorem partitioned_iff : partitioned u = true ↔ ∀ input, u.value "input_tokens" = some input →
    ∃ sum, knownParts u inputParts = some sum ∧ sum ≤ input ∧
      ((inputParts.all fun f => (u.value f).isSome) = true → sum = input) := by
  rw [partitioned]
  cases hinput : u.value "input_tokens" with
  | none => exact ⟨fun _ => nofun, fun _ => rfl⟩
  | some input =>
      cases hsum : knownParts u inputParts with
      | none => exact ⟨nofun, fun h => nomatch (h input rfl).choose_spec.1⟩
      | some sum =>
          simp only [Option.some.injEq, forall_eq', exists_eq_left', Bool.not_eq_true',
            Bool.or_eq_false_iff, decide_eq_false_iff_not, Bool.and_eq_false_imp, ne_eq,
            not_not, gt_iff_lt, UInt64.not_lt]

theorem checkedAdd_le {a a' n sum : UInt64} (h : checkedAdd a n = some sum) (hle : a' ≤ a) :
    a ≤ sum ∧ ∃ sum', checkedAdd a' n = some sum' ∧ sum' ≤ sum := by
  rw [UInt64.le_iff_toNat_le] at hle
  rw [checkedAdd] at h
  split at h
  · next hfits =>
      cases h
      have hfits' : a'.toNat + n.toNat < 2 ^ 64 := by omega
      have hsum : (a + n).toNat = a.toNat + n.toNat := by
        rw [UInt64.toNat_add, Nat.mod_eq_of_lt hfits]
      have hsum' : (a' + n).toNat = a'.toNat + n.toNat := by
        rw [UInt64.toNat_add, Nat.mod_eq_of_lt hfits']
      refine ⟨?_, a' + n, by rw [checkedAdd, if_pos hfits'], ?_⟩
      · rw [UInt64.le_iff_toNat_le]
        omega
      · rw [UInt64.le_iff_toNat_le]
        omega
  · cases h

/-- Fewer parts are not more together. -/
theorem Sheds.knownParts (h : Sheds u u') {l : List String} {sum : UInt64}
    (hsum : knownParts u l = some sum) : ∃ sum', knownParts u' l = some sum' ∧ sum' ≤ sum := by
  rw [Usage.knownParts] at hsum ⊢
  -- The two sums start apart: the smaller one from a smaller accumulator.
  generalize hacc' : (0 : UInt64) = acc'
  generalize hacc : (0 : UInt64) = acc at hsum
  have hle : acc' ≤ acc := by
    rw [← hacc, ← hacc']
    exact UInt64.le_refl 0
  clear hacc hacc'
  induction l generalizing acc acc' with
  | nil =>
      cases hsum
      exact ⟨acc', rfl, hle⟩
  | cons f rest ih =>
      rw [List.foldlM_cons] at hsum ⊢
      cases hvalue : u.value f with
      | none =>
          rw [hvalue] at hsum
          rw [h.missing hvalue]
          exact ih acc' acc hsum hle
      | some n =>
          rw [hvalue] at hsum
          obtain ⟨next, hnext, hrest⟩ := Option.bind_eq_some_iff.1 hsum
          obtain ⟨hacc, next', hnext', hle'⟩ := checkedAdd_le hnext hle
          cases hv : u'.value f with
          | none => exact ih acc' next hrest (UInt64.le_trans hle hacc)
          | some n' =>
              obtain rfl : n = n' := Option.some.inj (hvalue.symm.trans (h f n' hv))
              obtain ⟨sum', hfold', hsum'⟩ := ih next' next hrest hle'
              exact ⟨sum', Option.bind_eq_some_iff.2 ⟨next', hnext', hfold'⟩, hsum'⟩

/-- Parts that are all known are those that were. -/
theorem Sheds.knownParts_eq (h : Sheds u u') {l : List String}
    (hknown : ∀ f ∈ l, (u'.value f).isSome = true) :
    Usage.knownParts u' l = Usage.knownParts u l ∧ ∀ f ∈ l, (u.value f).isSome = true := by
  have hsame : ∀ f ∈ l, u'.value f = u.value f := by
    intro f hf
    obtain ⟨n, hn⟩ := Option.isSome_iff_exists.1 (hknown f hf)
    rw [hn, h f n hn]
  refine ⟨?_, fun f hf => hsame f hf ▸ hknown f hf⟩
  rw [Usage.knownParts, Usage.knownParts]
  clear hknown
  generalize (0 : UInt64) = acc
  induction l generalizing acc with
  | nil => rfl
  | cons f rest ih =>
      rw [List.forall_mem_cons] at hsame
      simp only [List.foldlM_cons, hsame.1, ih hsame.2]

/-- What was in order stays in order when values are taken away. -/
theorem Sheds.ordered (h : Sheds u u') (ht : totalled u = true) (hp : partitioned u = true)
    (hr : reasoned u = true) :
    totalled u' = true ∧ partitioned u' = true ∧ reasoned u' = true := by
  refine ⟨totalled_iff.2 ?_, partitioned_iff.2 ?_, reasoned_iff.2 ?_⟩
  · exact fun a b c ha hb hc => totalled_iff.1 ht a b c (h _ a ha) (h _ b hb) (h _ c hc)
  · intro input hinput
    obtain ⟨sum, hsum, hle, hall⟩ := partitioned_iff.1 hp input (h _ input hinput)
    obtain ⟨sum', hsum', hle'⟩ := h.knownParts hsum
    refine ⟨sum', hsum', UInt64.le_trans hle' hle, fun hknown => ?_⟩
    obtain ⟨heq, hknown'⟩ := h.knownParts_eq (List.all_eq_true.1 hknown)
    rw [heq, hsum] at hsum'
    cases hsum'
    exact hall (List.all_eq_true.2 hknown')
  · exact fun a b ha hb => reasoned_iff.1 hr a b (h _ a ha) (h _ b hb)

end Comparisons

section Reports

variable {u u' : CanonicalUsage}

theorem checks_subset {field parent : String} (hfield : field ∈ fields) :
    Checks u (u.subset field parent) := by
  rw [CanonicalUsage.subset]
  split
  · split
    · exact checks_refuse hfield (by decide)
    · exact .refl u
  · exact .refl u

theorem checks_checkParts : Checks u (checkParts u) :=
  (((checks_subset (by decide)).trans (checks_subset (by decide))).trans
    (checks_subset (by decide))).trans (checks_subset (by decide))

theorem reasoned_checkParts : reasoned (checkParts u) = true := by
  rw [checkParts]
  generalize ((u.subset "input_regular_tokens" "input_tokens").subset "cache_read_input_tokens"
    "input_tokens").subset "cache_write_input_tokens" "input_tokens" = v
  rw [reasoned_iff]
  intro a b ha hb
  have hsheds := (@checks_subset v "reasoning_output_tokens" "output_tokens" (by decide)).sheds
  have ha' := hsheds _ a ha
  have hb' := hsheds _ b hb
  rw [CanonicalUsage.subset, ha', hb'] at ha
  by_contra hlt
  rw [UInt64.not_le] at hlt
  dsimp only at ha
  rw [if_pos hlt, value_refuse, if_pos rfl] at ha
  cases ha

theorem checks_fold (step : CanonicalUsage → String → CanonicalUsage) (l : List String)
    (hstep : ∀ u, ∀ f ∈ l, Checks u (step u f)) (u : CanonicalUsage) :
    Checks u (l.foldl step u) := by
  induction l generalizing u with
  | nil => exact .refl u
  | cons f rest ih =>
      obtain ⟨hfirst, hrest⟩ := List.forall_mem_cons.1 fun f hf v => hstep v f hf
      exact (hfirst u).trans (ih (fun v f hf => hrest f hf v) (step u f))

theorem checks_refusePart {field : String} (hfield : field ∈ fields) :
    Checks u (refusePart u field) := by
  rw [refusePart]
  split
  · exact checks_refuse hfield (by decide)
  · exact .refl u

theorem checks_refusePartition : Checks u (refusePartition u) := by
  have hfold := checks_fold refusePart ("input_tokens" :: inputParts) (u := u) fun v f hf => by
      have hfield : ∀ f ∈ "input_tokens" :: inputParts, f ∈ fields := by decide
      exact checks_refusePart (hfield f hf)
  rw [refusePartition]
  split
  · exact hfold.trans (checks_refuse (by decide) (by decide))
  · exact hfold

/-- A partition that is refused has no input. -/
theorem value_refusePartition : (refusePartition u).value "input_tokens" = none := by
  have hfirst : (refusePart u "input_tokens").value "input_tokens" = none := by
    rw [refusePart]
    split
    · exact (value_refuse _ _ _ _).trans (if_pos rfl)
    · next hnone => exact Option.not_isSome_iff_eq_none.1 hnone
  have hrest : ((("input_tokens" :: inputParts).foldl refusePart u)).value "input_tokens" = none := by
    have hparts : ∀ f ∈ inputParts, f ∈ fields := by decide
    rw [List.foldl_cons]
    exact (checks_fold _ _ (fun v f hf => checks_refusePart (hparts f hf)) (refusePart u "input_tokens")).sheds.missing hfirst
  rw [refusePartition]
  split
  · exact (checks_refuse (by decide) (by decide)).sheds.missing hrest
  · exact hrest

theorem checks_checkPartition : Checks u (checkPartition u) := by
  rw [checkPartition]
  split
  · exact checks_refusePartition
  · exact .refl u

theorem partitioned_checkPartition : partitioned (checkPartition u) = true := by
  rw [checkPartition, partitioned_iff]
  intro input hinput
  split at hinput
  · rw [value_refusePartition] at hinput
    cases hinput
  · next hfits =>
      rw [if_neg hfits]
      rw [exceeded] at hfits
      cases hsum : knownParts u inputParts with
      | none =>
          rw [hsum] at hfits
          exact absurd rfl hfits
      | some sum =>
          simpa [hsum, hinput, UInt64.not_lt] using hfits

theorem sourceOf_eq_some {source : Source} {field : String} (h : sourceOf u field = some source) :
    ∃ c, u.counters.get field = some c ∧ c.source = source :=
  Option.map_eq_some_iff.1 h

theorem Framed.addTotal (h : Framed u) : Framed (addTotal u) := by
  rw [Providers.addTotal]
  split
  · split
    · exact (checks_refuse (by decide) (by decide)).framed h
    · split
      · exact (checks_refuse (by decide) (by decide)).framed h
      · split
        · exact h.put (by decide) rfl nofun
        · exact h
  · exact h

theorem totalled_addTotal : totalled (addTotal u) = true := by
  rw [totalled_iff]
  intro a b c ha hb hc
  rw [Providers.addTotal] at ha hb hc
  cases hinput : u.value "input_tokens" with
  | none =>
      rw [hinput] at ha
      exact absurd (hinput.symm.trans ha) nofun
  | some input =>
      cases houtput : u.value "output_tokens" with
      | none =>
          rw [hinput, houtput] at hb
          exact absurd (houtput.symm.trans hb) nofun
      | some output =>
          simp only [hinput, houtput] at ha hb hc
          cases hsum : checkedAdd input output with
          | none =>
              simp only [hsum, value_refuse] at hc
              cases hc
          | some sum =>
              simp only [hsum] at ha hb hc
              split at hc
              · rw [value_refuse, if_pos rfl] at hc
                cases hc
              · next hsame =>
                  rw [if_neg hsame] at ha hb
                  have hboth : a = input ∧ b = output ∧ c = sum := by
                    split at hc
                    · next hmissing =>
                        rw [if_pos hmissing, value_put, if_neg (by decide)] at ha hb
                        rw [value_put, if_pos rfl] at hc
                        exact ⟨Option.some.inj (ha.symm.trans hinput),
                          Option.some.inj (hb.symm.trans houtput), (Option.some.inj hc).symm⟩
                    · next hgiven =>
                        rw [if_neg hgiven] at ha hb
                        refine ⟨Option.some.inj (ha.symm.trans hinput),
                          Option.some.inj (hb.symm.trans houtput), ?_⟩
                        simpa [hc] using hsame
                  rw [hboth.1, hboth.2.1, hboth.2.2, hsum]

theorem Framed.takeCounter (h : Framed u) {entry : String × SnapshotCounter}
    (hfield : entry.1 ∈ fields) : Framed (takeCounter u entry) := by
  rw [Providers.takeCounter]
  split
  · exact h.put hfield rfl nofun
  · exact h.put hfield rfl nofun
  · exact h.put hfield rfl nofun
  · exact (checks_refuse hfield (by decide)).framed h

/-- What is read of a report is in order. -/
structure Valid (u : CanonicalUsage) : Prop where
  framed : Framed u
  totalled : Usage.totalled u = true
  partitioned : Usage.partitioned u = true
  reasoned : Usage.reasoned u = true

theorem Valid.usable (h : Valid u) : providerUsageValid u = true := by
  have hreported : u.reported.entries.isEmpty = true := by
    rw [h.framed.reported]
    rfl
  have hdetails : u.cacheWriteDetails.isEmpty = true := by
    rw [h.framed.details]
    rfl
  rw [providerUsageValid, h.framed.validate, hreported, hdetails, h.totalled, h.partitioned,
    h.reasoned]
  rfl

theorem Checks.valid (h : Checks u u') (hu : Valid u) : Valid u' := by
  obtain ⟨ht, hp, hr⟩ := h.sheds.ordered hu.totalled hu.partitioned hu.reasoned
  exact ⟨h.framed hu.framed, ht, hp, hr⟩

theorem valid_default : Valid .default := ⟨framed_default, by decide, by decide, by decide⟩

theorem framed_takeSnapshot (snapshot : UsageSnapshot) : Framed (takeSnapshot snapshot) := by
  cases snapshot with
  | unobserved => exact framed_default
  | observed counters =>
      have hfields : ∀ entry ∈ counters.entries, entry.1 ∈ fields := by
        simp [SnapshotCounters.entries, fields]
      have hfold : ∀ (l : List (String × SnapshotCounter)) (u : CanonicalUsage), Framed u →
          (∀ entry ∈ l, entry.1 ∈ fields) → Framed (l.foldl takeCounter u) := by
        intro l
        induction l with
        | nil => exact fun u hu _ => hu
        | cons entry rest ih =>
            intro u hu hall
            rw [List.forall_mem_cons] at hall
            exact ih _ (hu.takeCounter hall.1) hall.2
      exact hfold _ _ framed_default hfields

theorem valid_observe (snapshot : UsageSnapshot) : Valid (observe snapshot) := by
  have hparts := checks_checkParts (u := addTotal (takeSnapshot snapshot))
  have hpartition := checks_checkPartition (u := checkParts (addTotal (takeSnapshot snapshot)))
  rw [observe]
  refine ⟨hpartition.framed (hparts.framed (framed_takeSnapshot snapshot).addTotal), ?_, ?_, ?_⟩
  · rw [totalled_iff]
    intro a b c ha hb hc
    have hsheds := (hparts.trans hpartition).sheds
    exact totalled_iff.1 totalled_addTotal a b c (hsheds _ a ha) (hsheds _ b hb) (hsheds _ c hc)
  · exact partitioned_checkPartition
  · rw [reasoned_iff]
    intro a b ha hb
    exact reasoned_iff.1 reasoned_checkParts a b (hpartition.sheds _ a ha) (hpartition.sheds _ b hb)

theorem checks_follow {previous : CanonicalUsage} {field : String} (hfield : field ∈ fields) :
    Checks u (follow previous u field) := by
  rw [follow]
  split
  · exact .refl u
  · split
    · split
      · exact checks_refuse hfield (by decide)
      · exact .refl u
    · exact .refl u

theorem checks_observeCumulative (previous : CanonicalUsage) :
    Checks u (observeCumulative previous u) := by
  have hfold := checks_fold (follow previous) fields (u := u) fun v f hf => checks_follow hf
  rw [observeCumulative_eq, withdrawTotal]
  split
  · exact hfold.trans (checks_refuse (by decide) (by decide))
  · exact hfold

/-- Every counter that has a value is followed by one that is not below it. -/
def AtLeast (u u' : CanonicalUsage) : Prop :=
  ∀ field n, u.value field = some n → ∃ m, u'.value field = some m ∧ n ≤ m

/-- A usage says that it contradicts itself or another one, or is not below that one. -/
def Grows (u u' : CanonicalUsage) : Prop := u'.violations ≠ [] ∨ AtLeast u u'

theorem AtLeast.refl (u : CanonicalUsage) : AtLeast u u := fun _ n h => ⟨n, h, UInt64.le_refl n⟩

theorem AtLeast.trans {u'' : CanonicalUsage} (h : AtLeast u u') (h' : AtLeast u' u'') :
    AtLeast u u'' := by
  intro f n hn
  obtain ⟨m, hm, hle⟩ := h f n hn
  obtain ⟨k, hk, hle'⟩ := h' f m hm
  exact ⟨k, hk, UInt64.le_trans hle hle'⟩

theorem atLeast_default (u : CanonicalUsage) : AtLeast .default u := by
  intro f n hn
  obtain ⟨c, hc, hvalue⟩ := Option.bind_eq_some_iff.1 hn
  have hnone : ∀ c ∈ CanonicalUsage.default.counters.values, c.value = none := by decide
  exact absurd ((hnone c (OrderedMap.mem_values.2 ⟨f, hc⟩)).symm.trans hvalue) nofun

theorem Checks.clean (h : Checks u u') (hclean : u'.violations = []) : u.violations = [] := by
  rw [List.eq_nil_iff_forall_not_mem]
  intro v hv
  have hv' := h.tells v hv
  rw [hclean] at hv'
  cases hv'

theorem follow_clean {previous : CanonicalUsage} {field : String}
    (hclean : (follow previous u field).violations = []) : follow previous u field = u ∧
      (sourceOf u field ≠ some .invalid → ∀ n, previous.value field = some n →
        ∃ m, u.value field = some m ∧ n ≤ m) := by
  rw [follow] at hclean ⊢
  split at hclean
  · next hinvalid =>
      rw [if_pos hinvalid]
      exact ⟨rfl, fun hne => absurd hinvalid hne⟩
  · next hvalid =>
      rw [if_neg hvalid]
      split at hclean
      · next old hold =>
          split at hclean
          · exact absurd hclean (refuse_violations _ _ _)
          · next hkept =>
              rw [hold, if_neg hkept]
              refine ⟨rfl, fun _ n hn => ?_⟩
              cases hn
              cases hvalue : u.value field with
              | none =>
                  rw [hvalue] at hkept
                  exact absurd rfl hkept
              | some m =>
                  rw [hvalue] at hkept
                  exact ⟨m, rfl, UInt64.not_lt.1 (by simpa using hkept)⟩
      · next hnone =>
          rw [hnone]
          exact ⟨rfl, fun _ n hn => nomatch hn⟩

/-- Every counter of the report before has a value that is not below it. -/
def Covers (previous u : CanonicalUsage) : Prop := ∀ field ∈ fields, ∀ old,
  previous.value field = some old → ∃ new, u.value field = some new ∧ old ≤ new

/-- A report that follows another one without a violation is the report itself, and covers
the other one. -/
theorem observeCumulative_kept {previous : CanonicalUsage} (hu : Framed u)
    (hclean : (observeCumulative previous u).violations = []) :
    observeCumulative previous u = u ∧ Covers previous u := by
  have hfold : ∀ (l : List String) (u : CanonicalUsage), (∀ f ∈ l, f ∈ fields) →
      (l.foldl (follow previous) u).violations = [] → l.foldl (follow previous) u = u ∧
        ∀ f ∈ l, sourceOf u f ≠ some .invalid → ∀ n, previous.value f = some n →
          ∃ m, u.value f = some m ∧ n ≤ m := by
    intro l
    induction l with
    | nil => exact fun u _ _ => ⟨rfl, by simp⟩
    | cons f rest ih =>
        intro u hfields hclean
        rw [List.forall_mem_cons] at hfields
        obtain ⟨hrest, hall⟩ := ih (follow previous u f) hfields.2 hclean
        rw [List.foldl_cons] at hclean
        rw [hrest] at hclean
        obtain ⟨hfirst, hkept⟩ := follow_clean hclean
        rw [List.foldl_cons, hrest, hfirst, List.forall_mem_cons]
        rw [hfirst] at hall
        exact ⟨rfl, hkept, hall⟩
  have hchecks := checks_fold (follow previous) fields (u := u) fun v f hf => checks_follow hf
  have hnone : (fields.foldl (follow previous) u).violations = [] := by
    rw [observeCumulative_eq, withdrawTotal] at hclean
    split at hclean
    · exact absurd hclean (refuse_violations _ _ _)
    · exact hclean
  obtain ⟨hsame, hall⟩ := hfold fields u (fun _ => id) hnone
  refine ⟨?_, fun f hfield n hn => ?_⟩
  · rw [observeCumulative_eq, withdrawTotal] at hclean ⊢
    split at hclean
    · exact absurd hclean (refuse_violations _ _ _)
    · next hkept => rw [if_neg hkept, hsame]
  · refine hall f hfield (fun hinvalid => ?_) n hn
    obtain ⟨c, hc, hsource⟩ := sourceOf_eq_some hinvalid
    exact hu.told c (OrderedMap.mem_values.2 ⟨f, hc⟩) hsource (hchecks.clean hnone)

theorem Framed.field (h : Framed u) {field : String} {n : UInt64} (hn : u.value field = some n) :
    field ∈ fields := by
  have hdefault : ∀ f ∈ CanonicalUsage.default.counters.keys, f ∈ fields := by decide
  obtain ⟨c, hc, -⟩ := Option.bind_eq_some_iff.1 hn
  have hmem : field ∈ u.counters.keys := by
    rw [OrderedMap.mem_keys, OrderedMap.contains, hc]
    rfl
  rw [h.keys] at hmem
  exact hdefault field hmem

theorem observeCumulative_clean {previous : CanonicalUsage} (hprevious : Framed previous)
    (hu : Framed u) (hclean : (observeCumulative previous u).violations = []) :
    observeCumulative previous u = u ∧ AtLeast previous u := by
  obtain ⟨hsame, hcovers⟩ := observeCumulative_kept hu hclean
  exact ⟨hsame, fun f n hn => hcovers f (hprevious.field hn) n hn⟩

theorem checks_invalidUsage : Checks .default invalidUsage :=
  checks_fold (fun u field => u.refuse field "invalid_counter") fields (fun v f hf => checks_refuse hf (by decide)) .default

theorem valid_observeWire {ρ : Type} (wire : Wire ρ) (value : Json) :
    Valid (observeWire wire value) := by
  have hrecovered : ∀ snapshot : Option UsageSnapshot,
      Valid ((snapshot.map observe).getD invalidUsage) := by
    intro snapshot
    cases snapshot with
    | none =>
        rw [Option.map_none, Option.getD_none]
        exact checks_invalidUsage.valid valid_default
    | some snapshot => exact valid_observe snapshot
  rw [observeWire]
  split
  · exact valid_observe _
  · exact hrecovered _

end Reports

end ResponseGateway.Providers
