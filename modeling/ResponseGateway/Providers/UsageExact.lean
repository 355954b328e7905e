import ResponseGateway.Providers.UsageSteps
import ResponseGateway.Usage.Arithmetic

/-!
What is read of a report, exactly. A report that is regular, and not below the one before it,
is taken as it is; any other one leaves a violation.
-/

namespace ResponseGateway.Providers
open Usage

section Reports

/-- The counter of a report as it is taken. -/
def SnapshotCounter.counter : SnapshotCounter → Counter
  | reported value => ⟨some value, .reported⟩
  | notReported => ⟨none, .notReported⟩
  | notApplicable => ⟨none, .notApplicable⟩
  | invalid => .invalid

namespace UsageSnapshot

def counter (s : UsageSnapshot) (field : String) : SnapshotCounter :=
  match s with
  | unobserved => .notReported
  | observed counters => (counters.entries.lookup field).getD .notReported

/-- The value that is reported of a field. -/
def value (s : UsageSnapshot) (field : String) : Option UInt64 := (s.counter field).counter.value

/-- The reported parts of the input together. -/
def parts (s : UsageSnapshot) : Nat :=
  (inputParts.map fun field => ((s.value field).map UInt64.toNat).getD 0).sum

/-- The value of a field, with the total derived when it is not reported. -/
def standing (s : UsageSnapshot) (field : String) : Option Nat :=
  if field = "total_tokens" ∧ s.counter field = .notReported then
    (s.value "input_tokens").bind fun input =>
      (s.value "output_tokens").map fun output => input.toNat + output.toNat
  else (s.value field).map UInt64.toNat

/-- The counters of a report agree with each other, and with those of the one before it. -/
structure Regular (s : UsageSnapshot) (previous : CanonicalUsage) : Prop where
  readable : ∀ field ∈ fields, s.counter field ≠ .invalid
  total : ∀ input output, s.value "input_tokens" = some input →
    s.value "output_tokens" = some output → input.toNat + output.toNat < 2 ^ 64 ∧
      ∀ total, s.value "total_tokens" = some total → total.toNat = input.toNat + output.toNat
  within : ∀ field ∈ inputParts, ∀ part input, s.value field = some part →
    s.value "input_tokens" = some input → part ≤ input
  reasoning : ∀ part output, s.value "reasoning_output_tokens" = some part →
    s.value "output_tokens" = some output → part ≤ output
  fits : s.parts < 2 ^ 64
  partition : ∀ input, s.value "input_tokens" = some input → s.parts ≤ input.toNat ∧
    ((∀ field ∈ inputParts, (s.value field).isSome = true) → s.parts = input.toNat)
  grows : ∀ field ∈ fields, ∀ old, previous.value field = some old →
    ∃ new, s.standing field = some new ∧ old.toNat ≤ new

end UsageSnapshot

end Reports

section Taking

variable {u u' : CanonicalUsage} {s : UsageSnapshot} {field : String}

theorem takeCounter_counters (u : CanonicalUsage) (entry : String × SnapshotCounter) :
    (takeCounter u entry).counters = u.counters.insert entry.1 entry.2.counter := by
  obtain ⟨key, counter⟩ := entry
  cases counter <;> rfl

theorem takeCounter_clean (u : CanonicalUsage) (entry : String × SnapshotCounter) :
    (takeCounter u entry).violations = [] ↔ u.violations = [] ∧ entry.2 ≠ .invalid := by
  obtain ⟨key, counter⟩ := entry
  cases counter with
  | invalid => simpa [takeCounter] using refuse_violations u key "invalid_counter"
  | reported | notReported | notApplicable => exact (and_iff_left (by simp)).symm

theorem takeSnapshot_get (s : UsageSnapshot) (hfield : field ∈ fields) :
    (takeSnapshot s).counters.get field = some (s.counter field).counter := by
  cases s with
  | unobserved =>
      have hall : ∀ f ∈ fields, CanonicalUsage.default.counters.get f = some .default := by decide
      exact hall field hfield
  | observed counters =>
      simp only [takeSnapshot, SnapshotCounters.entries, List.foldl_cons, List.foldl_nil,
        takeCounter_counters, OrderedMap.get_insert]
      simp only [fields, List.mem_cons, List.not_mem_nil, or_false] at hfield
      rcases hfield with rfl | rfl | rfl | rfl | rfl | rfl | rfl <;> rfl

theorem takeSnapshot_clean (s : UsageSnapshot) :
    (takeSnapshot s).violations = [] ↔ ∀ field ∈ fields, s.counter field ≠ .invalid := by
  cases s with
  | unobserved => exact iff_of_true rfl fun _ _ => nofun
  | observed counters =>
      have hfold : ∀ (l : List (String × SnapshotCounter)) (u : CanonicalUsage),
          (l.foldl takeCounter u).violations = [] ↔
            u.violations = [] ∧ ∀ entry ∈ l, entry.2 ≠ .invalid := by
        intro l
        induction l with
        | nil => simp
        | cons entry rest ih =>
            intro u
            rw [List.foldl_cons, ih, takeCounter_clean, List.forall_mem_cons, and_assoc]
      rw [takeSnapshot, hfold, and_iff_right (show CanonicalUsage.default.violations = [] from rfl)]
      simp only [SnapshotCounters.entries, fields, List.forall_mem_cons, List.not_mem_nil,
        false_implies, implies_true, and_true]
      exact Iff.rfl

end Taking

section Checking

variable {u u' : CanonicalUsage} {s : UsageSnapshot} {field parent : String}

theorem subset_clean (u : CanonicalUsage) (field parent : String) :
    ((u.subset field parent).violations = [] ↔ u.violations = [] ∧
      ∀ n m, u.value field = some n → u.value parent = some m → n ≤ m) ∧
    ((u.subset field parent).violations = [] → u.subset field parent = u) := by
  rw [CanonicalUsage.subset]
  split
  · next n m hn hm =>
      split
      · next hlt =>
          have hrefused := refuse_violations u field "subset_exceeds_total"
          refine ⟨iff_of_false hrefused fun h => ?_, fun h => absurd h hrefused⟩
          exact absurd (h.2 n m hn hm) (UInt64.not_le.2 hlt)
      · next hle =>
          refine ⟨(and_iff_left ?_).symm, fun _ => rfl⟩
          intro n' m' hn' hm'
          rw [hn] at hn'
          rw [hm] at hm'
          cases hn'
          cases hm'
          exact UInt64.not_lt.1 hle
  · next hnone => exact ⟨(and_iff_left fun n m hn hm => (hnone n m hn hm).elim).symm, fun _ => rfl⟩

/-- The parts are within their totals. -/
def Contained (u : CanonicalUsage) : Prop :=
  (∀ field ∈ inputParts, ∀ n m, u.value field = some n → u.value "input_tokens" = some m → n ≤ m) ∧
    ∀ n m, u.value "reasoning_output_tokens" = some n → u.value "output_tokens" = some m → n ≤ m

theorem checkParts_clean (u : CanonicalUsage) :
    ((checkParts u).violations = [] ↔ u.violations = [] ∧ Contained u) ∧
      ((checkParts u).violations = [] → checkParts u = u) := by
  rw [checkParts]
  obtain ⟨hregular, hregular'⟩ := subset_clean u "input_regular_tokens" "input_tokens"
  generalize u.subset "input_regular_tokens" "input_tokens" = v at hregular hregular' ⊢
  obtain ⟨hread, hread'⟩ := subset_clean v "cache_read_input_tokens" "input_tokens"
  generalize v.subset "cache_read_input_tokens" "input_tokens" = w at hread hread' ⊢
  obtain ⟨hwrite, hwrite'⟩ := subset_clean w "cache_write_input_tokens" "input_tokens"
  generalize w.subset "cache_write_input_tokens" "input_tokens" = x at hwrite hwrite' ⊢
  obtain ⟨hreasoning, hreasoning'⟩ := subset_clean x "reasoning_output_tokens" "output_tokens"
  have hparts : Contained u ↔
      (∀ n m, u.value "input_regular_tokens" = some n → u.value "input_tokens" = some m → n ≤ m) ∧
      (∀ n m, u.value "cache_read_input_tokens" = some n → u.value "input_tokens" = some m → n ≤ m) ∧
      (∀ n m, u.value "cache_write_input_tokens" = some n → u.value "input_tokens" = some m →
        n ≤ m) ∧
      ∀ n m, u.value "reasoning_output_tokens" = some n → u.value "output_tokens" = some m →
        n ≤ m := by
    rw [Contained, inputParts, List.forall_mem_cons, List.forall_mem_cons, List.forall_mem_singleton,
      and_assoc, and_assoc]
  refine ⟨⟨fun h => ?_, fun hboth => ?_⟩, fun h => ?_⟩
  · obtain ⟨hx, hfourth⟩ := hreasoning.1 h
    obtain ⟨hw, hthird⟩ := hwrite.1 hx
    obtain ⟨hv, hsecond⟩ := hread.1 hw
    obtain ⟨hu, hfirst⟩ := hregular.1 hv
    obtain rfl := hregular' hv
    obtain rfl := hread' hw
    obtain rfl := hwrite' hx
    exact ⟨hu, hparts.2 ⟨hfirst, hsecond, hthird, hfourth⟩⟩
  · obtain ⟨hclean, h⟩ := hboth
    obtain ⟨hfirst, hsecond, hthird, hfourth⟩ := hparts.1 h
    have hv := hregular.2 ⟨hclean, hfirst⟩
    obtain rfl := hregular' hv
    have hw := hread.2 ⟨hv, hsecond⟩
    obtain rfl := hread' hw
    have hx := hwrite.2 ⟨hw, hthird⟩
    obtain rfl := hwrite' hx
    exact hreasoning.2 ⟨hx, hfourth⟩
  · have hx := (hreasoning.1 h).1
    have hw := (hwrite.1 hx).1
    rw [hreasoning' h, hwrite' hx, hread' hw, hregular' (hread.1 hw).1]

/-- The values of some fields together. -/
def together (value : String → Option UInt64) (l : List String) : Nat :=
  (l.map fun field => ((value field).map UInt64.toNat).getD 0).sum

theorem knownParts_eq_some {l : List String} {sum : UInt64} : knownParts u l = some sum ↔
    together u.value l < 2 ^ 64 ∧ sum.toNat = together u.value l := by
  have hzero : (0 : UInt64).toNat + together u.value l = together u.value l := by
    rw [UInt64.toNat_zero, Nat.zero_add]
  rw [← hzero, knownParts]
  clear hzero
  generalize (0 : UInt64) = acc
  induction l generalizing acc with
  | nil =>
      rw [together, List.map_nil, List.sum_nil, Nat.add_zero, and_iff_right acc.toNat_lt]
      refine ⟨fun h => ?_, fun h => ?_⟩
      · cases h
        rfl
      · rw [UInt64.toNat_inj.1 h]
        rfl
  | cons f rest ih =>
      rw [List.foldlM_cons, together, List.map_cons, List.sum_cons, ← together]
      cases hvalue : u.value f with
      | none =>
          rw [Option.map_none, Option.getD_none, Nat.zero_add]
          exact ih acc
      | some n =>
          rw [Option.map_some, Option.getD_some]
          refine Option.bind_eq_some_iff.trans ⟨?_, ?_⟩
          · rintro ⟨next, hnext, hrest⟩
            rw [checkedAdd_eq_some] at hnext
            have hwhole := (ih next).1 hrest
            rwa [hnext.2, Nat.add_assoc] at hwhole
          · rintro ⟨hfits, hsum⟩
            rw [← Nat.add_assoc] at hfits hsum
            have hnext : acc.toNat + n.toNat < 2 ^ 64 :=
              Nat.lt_of_le_of_lt (Nat.le_add_right _ _) hfits
            have hadd : (acc + n).toNat = acc.toNat + n.toNat := by
              rw [UInt64.toNat_add, Nat.mod_eq_of_lt hnext]
            refine ⟨acc + n, checkedAdd_eq_some.2 ⟨hnext, hadd⟩, (ih _).2 ?_⟩
            rw [hadd]
            exact ⟨hfits, hsum⟩

/-- The parts of the input are within it, and all of it when all are known. -/
def Partitioned (value : String → Option UInt64) : Prop :=
  together value inputParts < 2 ^ 64 ∧ ∀ input, value "input_tokens" = some input →
    together value inputParts ≤ input.toNat ∧
      ((∀ field ∈ inputParts, (value field).isSome = true) →
        together value inputParts = input.toNat)

theorem exceeded_iff : exceeded u = false ↔ Partitioned u.value := by
  rw [exceeded, Partitioned]
  cases hsum : knownParts u inputParts with
  | none =>
      refine iff_of_false (by simp) fun h => ?_
      have hknown : knownParts u inputParts = some (UInt64.ofNat (together u.value inputParts)) :=
        knownParts_eq_some.2 ⟨h.1, UInt64.toNat_ofNat_of_lt' h.1⟩
      cases hsum.symm.trans hknown
  | some sum =>
      obtain ⟨hfits, htoNat⟩ := knownParts_eq_some.1 hsum
      rw [and_iff_right hfits, ← htoNat]
      cases hinput : u.value "input_tokens" with
      | none => exact iff_of_true rfl (by simp)
      | some input =>
          simp only [Option.any_some, Option.some.injEq, forall_eq', Bool.or_eq_false_iff,
            decide_eq_false_iff_not, Bool.and_eq_false_imp, List.all_eq_true, ne_eq, not_not,
            gt_iff_lt, UInt64.not_lt, UInt64.le_iff_toNat_le, UInt64.toNat_inj]

theorem refusePart_clean (u : CanonicalUsage) (field : String) :
    (refusePart u field).violations = [] → u.violations = [] ∧ u.value field = none := by
  rw [refusePart]
  split
  · exact fun h => absurd h (refuse_violations _ _ _)
  · next hnone => exact fun h => ⟨h, Option.not_isSome_iff_eq_none.1 hnone⟩

theorem refusePartition_clean (h : (refusePartition u).violations = []) : exceeded u = false := by
  have hfold : ∀ (l : List String) (u : CanonicalUsage),
      (l.foldl refusePart u).violations = [] →
        u.violations = [] ∧ ∀ field ∈ l, u.value field = none := by
    intro l
    induction l with
    | nil => exact fun u h => ⟨h, by simp⟩
    | cons f rest ih =>
        intro u h
        rw [List.foldl_cons] at h
        obtain ⟨hfirst, hrest⟩ := ih _ h
        obtain ⟨hclean, hnone⟩ := refusePart_clean u f hfirst
        have hsame : refusePart u f = u := by
          rw [refusePart, hnone]
          rfl
        rw [hsame] at hrest
        exact ⟨hclean, List.forall_mem_cons.2 ⟨hnone, hrest⟩⟩
  have hnone : (("input_tokens" :: inputParts).foldl refusePart u).violations = [] := by
    rw [refusePartition] at h
    split at h
    · exact absurd h (refuse_violations _ _ _)
    · exact h
  obtain ⟨hinput, hparts⟩ := List.forall_mem_cons.1 (hfold _ u hnone).2
  rw [exceeded_iff, Partitioned, hinput]
  refine ⟨?_, by simp⟩
  have hzero : together u.value inputParts = 0 := by
    simp only [inputParts, List.forall_mem_cons] at hparts
    simp [together, inputParts, hparts.1, hparts.2.1, hparts.2.2.1]
  rw [hzero]
  decide

theorem checkPartition_clean (u : CanonicalUsage) :
    ((checkPartition u).violations = [] ↔ u.violations = [] ∧ Partitioned u.value) ∧
      ((checkPartition u).violations = [] → checkPartition u = u) := by
  rw [← exceeded_iff, checkPartition]
  split
  · next hexceeded =>
      have hrefused : (refusePartition u).violations ≠ [] := fun h =>
        Bool.false_ne_true ((refusePartition_clean h).symm.trans hexceeded)
      exact ⟨iff_of_false hrefused fun h => Bool.false_ne_true (h.2.symm.trans hexceeded),
        fun h => absurd h hrefused⟩
  · next hfits => exact ⟨(and_iff_left (Bool.not_eq_true _ ▸ hfits)).symm, fun _ => rfl⟩

/-- What the total is checked against, and derived from. -/
def Totalled (u : CanonicalUsage) : Prop := ∀ input output, u.value "input_tokens" = some input →
  u.value "output_tokens" = some output → input.toNat + output.toNat < 2 ^ 64 ∧
    ∀ total, u.value "total_tokens" = some total → total.toNat = input.toNat + output.toNat

/-- The value of a field after the total was derived. -/
def totalValue (u : CanonicalUsage) (field : String) : Option Nat :=
  if field = "total_tokens" ∧ sourceOf u field = some .notReported then
    (u.value "input_tokens").bind fun input =>
      (u.value "output_tokens").map fun output => input.toNat + output.toNat
  else (u.value field).map UInt64.toNat

theorem totalled_some {input output : UInt64} (hinput : u.value "input_tokens" = some input)
    (houtput : u.value "output_tokens" = some output) :
    Totalled u ↔ input.toNat + output.toNat < 2 ^ 64 ∧ ∀ total,
      u.value "total_tokens" = some total → total.toNat = input.toNat + output.toNat := by
  refine ⟨fun h => h input output hinput houtput, fun h input' output' hinput' houtput' => ?_⟩
  obtain rfl := Option.some.inj (hinput.symm.trans hinput')
  obtain rfl := Option.some.inj (houtput.symm.trans houtput')
  exact h

theorem addTotal_missing (h : ∀ input output, u.value "input_tokens" = some input →
    u.value "output_tokens" ≠ some output) : addTotal u = u ∧ Totalled u := by
  refine ⟨?_, fun input output hinput houtput => absurd houtput (h input output hinput)⟩
  rw [addTotal]
  split
  · next input output hinput houtput => exact absurd houtput (h input output hinput)
  · rfl

/-- A total that is right, or missing, is derived when it is not reported. -/
theorem addTotal_given {input output : UInt64} (hinput : u.value "input_tokens" = some input)
    (houtput : u.value "output_tokens" = some output) :
    ((addTotal u).violations = [] ↔ u.violations = [] ∧ Totalled u) ∧
      ((addTotal u).violations = [] → ∃ sum, sum.toNat = input.toNat + output.toNat ∧
        addTotal u = if sourceOf u "total_tokens" = some .notReported then
          u.put "total_tokens" ⟨some sum, .derived⟩ else u) := by
  rw [totalled_some hinput houtput, addTotal, hinput, houtput]
  dsimp only
  cases hsum : checkedAdd input output with
  | none =>
      have hrefused := refuse_violations u "total_tokens" "total_mismatch"
      refine ⟨iff_of_false hrefused fun h => ?_, fun h => absurd h hrefused⟩
      have hadd : checkedAdd input output = some (.ofNat (input.toNat + output.toNat)) :=
        checkedAdd_eq_some.2 ⟨h.2.1, UInt64.toNat_ofNat_of_lt' h.2.1⟩
      cases hsum.symm.trans hadd
  | some sum =>
      obtain ⟨hfits, htoNat⟩ := checkedAdd_eq_some.1 hsum
      rw [and_iff_right hfits, ← htoNat]
      have hkept : (if sourceOf u "total_tokens" = some .notReported then
          u.put "total_tokens" ⟨some sum, .derived⟩ else u).violations = u.violations := by
        split <;> rfl
      dsimp only
      by_cases hother : (u.value "total_tokens").any (· ≠ sum) = true
      · have hrefused := refuse_violations u "total_tokens" "total_mismatch"
        rw [if_pos hother]
        refine ⟨iff_of_false hrefused fun h => ?_, fun h => absurd h hrefused⟩
        cases htotal : u.value "total_tokens" with
        | none =>
            rw [htotal] at hother
            cases hother
        | some total =>
            rw [htotal] at hother
            exact of_decide_eq_true hother (UInt64.toNat_inj.1 (h.2 total htotal))
      · rw [if_neg hother, hkept]
        refine ⟨(and_iff_left fun total htotal => ?_).symm, fun _ => ⟨sum, rfl, rfl⟩⟩
        rw [htotal] at hother
        exact congrArg _ (by simpa using hother)

theorem addTotal_clean (u : CanonicalUsage) :
    (addTotal u).violations = [] ↔ u.violations = [] ∧ Totalled u := by
  by_cases h : ∀ input output, u.value "input_tokens" = some input →
      u.value "output_tokens" ≠ some output
  · obtain ⟨hsame, htotalled⟩ := addTotal_missing h
    rw [hsame, and_iff_left htotalled]
  · simp only [not_forall, not_not] at h
    obtain ⟨input, output, hinput, houtput⟩ := h
    exact (addTotal_given hinput houtput).1

/-- A total that is derived is the only thing that changes. -/
theorem addTotal_value (hu : Framed u) (hclean : (addTotal u).violations = []) (field : String) :
    ((addTotal u).value field).map UInt64.toNat = totalValue u field ∧
      (sourceOf u field = some .reported →
        (addTotal u).counters.get field = u.counters.get field) := by
  have hmissing : sourceOf u field = some .notReported → u.value field = none := by
    intro hsource
    obtain ⟨c, hc, hc'⟩ := sourceOf_eq_some hsource
    have hshaped := hu.shaped c (OrderedMap.mem_values.2 ⟨field, hc⟩)
    rw [CanonicalUsage.value, hc, Option.bind_some]
    cases hvalue : c.value with
    | none => rfl
    | some n =>
        rw [Counter.shaped, hvalue, hc'] at hshaped
        cases hshaped
  rw [totalValue]
  by_cases h : ∀ input output, u.value "input_tokens" = some input →
      u.value "output_tokens" ≠ some output
  · rw [(addTotal_missing h).1]
    refine ⟨?_, fun _ => rfl⟩
    split
    · next htotal =>
        rw [hmissing htotal.2]
        cases hinput : u.value "input_tokens" with
        | none => rfl
        | some input =>
            cases houtput : u.value "output_tokens" with
            | none => rfl
            | some output => exact absurd houtput (h input output hinput)
    · rfl
  · simp only [not_forall, not_not] at h
    obtain ⟨input, output, hinput, houtput⟩ := h
    obtain ⟨sum, hsum, heq⟩ := (addTotal_given hinput houtput).2 hclean
    rw [heq, hinput, houtput]
    by_cases hsource : sourceOf u "total_tokens" = some .notReported
    · rw [if_pos hsource, value_put]
      by_cases hfield : field = "total_tokens"
      · subst hfield
        rw [if_pos rfl, if_pos ⟨rfl, hsource⟩]
        refine ⟨congrArg some hsum, fun h => ?_⟩
        cases hsource.symm.trans h
      · rw [if_neg (Ne.symm hfield), if_neg fun h => hfield h.1]
        exact ⟨rfl, fun _ => OrderedMap.get_insert_of_ne _ _ (Ne.symm hfield)⟩
    · rw [if_neg hsource, if_neg]
      · exact ⟨rfl, fun _ => rfl⟩
      · rintro ⟨rfl, h⟩
        exact hsource h

end Checking

section Following

variable {u previous : CanonicalUsage}

theorem follow_covered {field : String} (h : ∀ old, previous.value field = some old →
    ∃ new, u.value field = some new ∧ old ≤ new) : follow previous u field = u := by
  rw [follow]
  split
  · rfl
  · split
    · next old hold =>
        obtain ⟨new, hnew, hle⟩ := h old hold
        have hkept : (u.value field).all (· < old) = false := by
          rw [hnew, Option.all_some, decide_eq_false_iff_not, UInt64.not_lt]
          exact hle
        rw [hkept]
        rfl
    · rfl

theorem observeCumulative_covered (hu : Framed u) (hclean : u.violations = [])
    (h : Covers previous u) : observeCumulative previous u = u := by
  have hfold : ∀ l : List String, (∀ field ∈ l, field ∈ fields) →
      l.foldl (follow previous) u = u := by
    intro l
    induction l with
    | nil => exact fun _ => rfl
    | cons field rest ih =>
        intro hfields
        rw [List.forall_mem_cons] at hfields
        rw [List.foldl_cons, follow_covered (h field hfields.1), ih hfields.2]
  rw [observeCumulative_eq, hfold fields fun _ => id, withdrawTotal, if_neg]
  rw [Bool.and_eq_true, not_and]
  intro _ hinvalid
  obtain ⟨field, -, hsource⟩ := List.any_eq_true.1 hinvalid
  obtain ⟨c, hc, hsource⟩ := sourceOf_eq_some (of_decide_eq_true hsource)
  exact hu.told c (OrderedMap.mem_values.2 ⟨field, hc⟩) hsource hclean

theorem observeCumulative_iff (hu : Framed u) : (observeCumulative previous u).violations = [] ↔
    u.violations = [] ∧ Covers previous u := by
  refine ⟨fun h => ?_, fun ⟨hclean, h⟩ => ?_⟩
  · exact ⟨(checks_observeCumulative previous).clean h, (observeCumulative_kept hu h).2⟩
  · rw [observeCumulative_covered hu hclean h]
    exact hclean

end Following

section Exactness

variable {s : UsageSnapshot} {previous : CanonicalUsage} {field : String}
variable (field) in

theorem takeSnapshot_value (s : UsageSnapshot) (hfield : field ∈ fields) :
    (takeSnapshot s).value field = s.value field := by
  rw [CanonicalUsage.value, takeSnapshot_get s hfield]
  rfl

theorem takeSnapshot_source (s : UsageSnapshot) (hfield : field ∈ fields) :
    sourceOf (takeSnapshot s) field = some .notReported ↔ s.counter field = .notReported := by
  rw [sourceOf, takeSnapshot_get s hfield, Option.map_some, Option.some.injEq]
  cases s.counter field <;> simp [SnapshotCounter.counter, Counter.invalid]

theorem totalValue_standing (s : UsageSnapshot) (hfield : field ∈ fields) :
    totalValue (takeSnapshot s) field = s.standing field := by
  rw [totalValue, UsageSnapshot.standing, takeSnapshot_value _ s hfield,
    takeSnapshot_value "input_tokens" s (by decide),
    takeSnapshot_value "output_tokens" s (by decide)]
  simp only [takeSnapshot_source s hfield]

/-- A total is derived, and every other counter stays as it was reported. -/
theorem addTotal_snapshot (hclean : (addTotal (takeSnapshot s)).violations = [])
    (hfield : field ∈ fields) :
    ((addTotal (takeSnapshot s)).value field).map UInt64.toNat = s.standing field ∧
      (field ≠ "total_tokens" → (addTotal (takeSnapshot s)).value field = s.value field) := by
  have hstanding := (addTotal_value (framed_takeSnapshot s) hclean field).1
  rw [totalValue_standing s hfield] at hstanding
  refine ⟨hstanding, fun hne => ?_⟩
  rw [UsageSnapshot.standing, if_neg fun h => hne h.1] at hstanding
  exact Option.map_injective (fun _ _ => UInt64.toNat_inj.1) hstanding

/-- What is left of a report without a violation. -/
theorem observe_clean (s : UsageSnapshot) :
    ((observe s).violations = [] ↔ (addTotal (takeSnapshot s)).violations = [] ∧
      Contained (addTotal (takeSnapshot s)) ∧ Partitioned (addTotal (takeSnapshot s)).value) ∧
    ((observe s).violations = [] → observe s = addTotal (takeSnapshot s)) := by
  rw [observe]
  generalize addTotal (takeSnapshot s) = u
  obtain ⟨hparts, hparts'⟩ := checkParts_clean u
  obtain ⟨hpartition, hpartition'⟩ := checkPartition_clean (checkParts u)
  refine ⟨⟨fun h => ?_, fun hall => ?_⟩, fun h => ?_⟩
  · obtain ⟨hclean, h⟩ := hpartition.1 h
    obtain ⟨hu, hcontained⟩ := hparts.1 hclean
    rw [hparts' hclean] at h
    exact ⟨hu, hcontained, h⟩
  · obtain ⟨hclean, hcontained, h⟩ := hall
    have hkept := hparts.2 ⟨hclean, hcontained⟩
    refine hpartition.2 ⟨hkept, ?_⟩
    rw [hparts' hkept]
    exact h
  · rw [hpartition' h, hparts' (hpartition.1 h).1]

/-- The parts of a report after the total was derived are those that were reported. -/
theorem contained_iff {u : CanonicalUsage} (h : ∀ field ∈ fields, field ≠ "total_tokens" →
    u.value field = s.value field) : (Contained u ↔
      (∀ field ∈ inputParts, ∀ part input, s.value field = some part →
        s.value "input_tokens" = some input → part ≤ input) ∧
      ∀ part output, s.value "reasoning_output_tokens" = some part →
        s.value "output_tokens" = some output → part ≤ output) ∧
    (Partitioned u.value ↔ s.parts < 2 ^ 64 ∧ ∀ input, s.value "input_tokens" = some input →
      s.parts ≤ input.toNat ∧ ((∀ field ∈ inputParts, (s.value field).isSome = true) →
        s.parts = input.toNat)) := by
  have hparts : ∀ field ∈ inputParts, u.value field = s.value field := by
    have hall : ∀ field ∈ inputParts, field ∈ fields ∧ field ≠ "total_tokens" := by decide
    exact fun field hfield => h field (hall field hfield).1 (hall field hfield).2
  have htogether : together u.value inputParts = s.parts := by
    rw [together, UsageSnapshot.parts]
    exact congrArg List.sum (List.map_congr_left fun field hfield => by rw [hparts field hfield])
  constructor
  · rw [Contained, h "input_tokens" (by decide) (by decide),
      h "reasoning_output_tokens" (by decide) (by decide), h "output_tokens" (by decide) (by decide)]
    refine and_congr_left fun _ => forall₂_congr fun field hfield => ?_
    rw [hparts field hfield]
  · rw [Partitioned, htogether, h "input_tokens" (by decide) (by decide)]
    refine and_congr_right fun _ => forall₂_congr fun input _ => and_congr_right fun _ => ?_
    refine imp_congr_left (forall₂_congr fun field hfield => ?_)
    rw [hparts field hfield]

/-- A report that is taken covers the one before it as the report itself does. -/
theorem covers_iff {u : CanonicalUsage}
    (h : ∀ field ∈ fields, (u.value field).map UInt64.toNat = s.standing field) :
    Covers previous u ↔ ∀ field ∈ fields, ∀ old, previous.value field = some old →
      ∃ new, s.standing field = some new ∧ old.toNat ≤ new := by
  refine forall₂_congr fun field hfield => forall₂_congr fun old _ => ?_
  rw [← h field hfield]
  constructor
  · rintro ⟨new, hnew, hle⟩
    exact ⟨new.toNat, by rw [hnew, Option.map_some], UInt64.le_iff_toNat_le.1 hle⟩
  · rintro ⟨new, hnew, hle⟩
    obtain ⟨new, hvalue, rfl⟩ := Option.map_eq_some_iff.1 hnew
    exact ⟨new, hvalue, UInt64.le_iff_toNat_le.2 hle⟩

theorem observe_regular (s : UsageSnapshot) (previous : CanonicalUsage) :
    (observeCumulative previous (observe s)).violations = [] ↔ s.Regular previous := by
  have htotalled : Totalled (takeSnapshot s) ↔ ∀ input output,
      s.value "input_tokens" = some input → s.value "output_tokens" = some output →
        input.toNat + output.toNat < 2 ^ 64 ∧ ∀ total, s.value "total_tokens" = some total →
          total.toNat = input.toNat + output.toNat := by
    rw [Totalled, takeSnapshot_value "input_tokens" s (by decide),
      takeSnapshot_value "output_tokens" s (by decide),
      takeSnapshot_value "total_tokens" s (by decide)]
  have hadded : (addTotal (takeSnapshot s)).violations = [] ↔
      (∀ field ∈ fields, s.counter field ≠ .invalid) ∧ Totalled (takeSnapshot s) := by
    rw [addTotal_clean, takeSnapshot_clean]
  rw [observeCumulative_iff (valid_observe s).framed]
  constructor
  · rintro ⟨hclean, hcovers⟩
    obtain ⟨hadd, hcontained, hpartitioned⟩ := (observe_clean s).1.1 hclean
    rw [(observe_clean s).2 hclean] at hcovers
    obtain ⟨hreadable, htotal⟩ := hadded.1 hadd
    obtain ⟨hwithin, hparts⟩ :=
      contained_iff fun field hfield => (addTotal_snapshot hadd hfield).2
    obtain ⟨hfits, hpartition⟩ := hparts.1 hpartitioned
    obtain ⟨hinput, hreasoning⟩ := hwithin.1 hcontained
    exact ⟨hreadable, htotalled.1 htotal, hinput, hreasoning, hfits, hpartition,
      (covers_iff fun field hfield => (addTotal_snapshot hadd hfield).1).1 hcovers⟩
  · intro h
    have hadd := hadded.2 ⟨h.readable, htotalled.2 h.total⟩
    obtain ⟨hwithin, hparts⟩ :=
      contained_iff fun field hfield => (addTotal_snapshot hadd hfield).2
    have hclean := (observe_clean s).1.2
      ⟨hadd, hwithin.2 ⟨h.within, h.reasoning⟩, hparts.2 ⟨h.fits, h.partition⟩⟩
    refine ⟨hclean, ?_⟩
    rw [(observe_clean s).2 hclean]
    exact (covers_iff fun field hfield => (addTotal_snapshot hadd hfield).1).2 h.grows

/-- What is read of a report passes the checks of an event. It has no violation exactly when
the report is regular, and then its counters are the reported ones; what is read of a value
that is no report passes the checks as well. -/
theorem observe_exact (s : UsageSnapshot) (previous : CanonicalUsage) :
    providerUsageValid (observeCumulative previous (observe s)) = true ∧
    ((observeCumulative previous (observe s)).violations = [] ↔ s.Regular previous) ∧
    ((observeCumulative previous (observe s)).violations = [] → ∀ field ∈ fields, ∀ n,
      s.counter field = .reported n →
        (observeCumulative previous (observe s)).counters.get field = some ⟨some n, .reported⟩) ∧
    ∀ {ρ : Type} (wire : Wire ρ) (value : Json), providerUsageValid (observeWire wire value) = true ∧
      ∀ s, wire.snapshot value = some s → observeWire wire value = observe s := by
  refine ⟨((checks_observeCumulative previous).valid (valid_observe s)).usable,
    observe_regular s previous, fun hclean field hfield n hn => ?_, fun wire value =>
      ⟨(valid_observeWire wire value).usable, fun s hs => ?_⟩⟩
  · obtain ⟨hobserved, -⟩ := (observeCumulative_iff (valid_observe s).framed).1 hclean
    rw [(observeCumulative_kept (valid_observe s).framed hclean).1, (observe_clean s).2 hobserved]
    have hget := takeSnapshot_get s hfield
    rw [hn] at hget
    have hsource : sourceOf (takeSnapshot s) field = some .reported := by
      rw [sourceOf, hget]
      rfl
    rw [(addTotal_value (framed_takeSnapshot s) ((observe_clean s).1.1 hobserved).1 field).2 hsource]
    exact hget
  · rw [observeWire, hs]

end Exactness

end ResponseGateway.Providers
