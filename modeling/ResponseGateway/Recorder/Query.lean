import ResponseGateway.Library.StableSort
import ResponseGateway.Recorder.Retention
import ResponseGateway.Usage.Arithmetic

/-!
`query::aggregate`: the current events of a window of time, grouped by the day and the model of
their attempt. The calendar is a parameter. Counters are natural numbers: a table has fewer than
`2 ^ 63` rows, so the sums fit their 128 bits. The ratio of a group is left as its two sums.
-/

namespace ResponseGateway.Recorder
open Checked Usage

section Aggregation

/-- The time zones by their names, and the day of an instant in one, where there is one. -/
structure Calendar where
  Zone : Type
  parse : String → Option Zone
  date : Zone → Nat → Option String

inductive QueryFailure where
  | invalidTimezone
  | outOfRange
  | event (failure : RecordedEvent.Failure)
  | invalidTimestamp
  | invalidUsagePartition
  deriving DecidableEq, Repr

structure Group where
  count : Nat
  finalCount : Nat
  partialCount : Nat
  unobserved : Nat
  unfinished : Nat
  observationIncomplete : Nat
  sums : OrderedMap String Nat
  known : OrderedMap String Nat
  ratioInput : Nat
  ratioRead : Nat
  ratioCalls : Nat

namespace Group

def default : Group := ⟨0, 0, 0, 0, 0, 0, .empty, .empty, 0, 0, 0⟩

/-- `*map.entry(key).or_default() += n`. -/
def bump (m : OrderedMap String Nat) (key : String) (n : Nat) : OrderedMap String Nat :=
  m.insert key ((m.get key).getD 0 + n)

/-- A counter of a call that has it. -/
def counted (g : Group) (key : String) (n : Nat) : Group :=
  { g with sums := bump g.sums key n, known := bump g.known key 1 }

def classified (g : Group) (e : EventView) : Group :=
  { g with
    count := g.count + 1
    finalCount := g.finalCount + if e.finality = .final then 1 else 0
    partialCount := g.partialCount + if e.finality = .partly then 1 else 0
    unobserved := g.unobserved + if e.finality = .unobserved then 1 else 0
    unfinished := g.unfinished + if e.kind ≠ .attemptFinished then 1 else 0
    observationIncomplete := g.observationIncomplete + if e.observationIncomplete then 1 else 0 }

def summed (g : Group) (u : CanonicalUsage) : Group :=
  fields.foldl (fun g field =>
    match u.value field with
    | some n => g.counted field n.toNat
    | none => g) g

def nonReadField : String := "non_read_input_tokens"

def divided (g : Group) (u : CanonicalUsage) : Except QueryFailure Group :=
  match u.value "input_tokens", u.value "cache_read_input_tokens" with
  | some input, some read => do
      let rest ← okOr (checkedSub input read) .invalidUsagePartition
      let g := g.counted nonReadField rest.toNat
      return { g with
        ratioInput := g.ratioInput + input.toNat, ratioRead := g.ratioRead + read.toNat
        ratioCalls := g.ratioCalls + 1 }
  | _, _ => return g

/-- What an event adds to its group. -/
def add (g : Group) (e : EventView) : Except QueryFailure Group :=
  ((g.classified e).summed e.usage).divided e.usage

end Group

/-- The day, the provider, the model alias and who read the counters. -/
abbrev GroupKey := String ×ₗ String ×ₗ String ×ₗ String

structure Report where
  timezone : String
  fromMs : UInt64
  toMs : UInt64
  groups : OrderedMap GroupKey Group
  versioned : Bool

/-- `interpretation`, as text. -/
def interpretationText : RecordedEvent → String
  | .v1 e => String.ofList (Json.object [("kind", .string "builtin_parser"),
      ("profile", .string e.profile.name)]).render
  | .v2 e => String.ofList (Interpretation.codec.encode e.interpretation).render

variable (digest : Text → String) (cal : Calendar) (s : Store)

/-- The rows of the query, in their order. -/
def Store.window (fromMs toMs : Nat) : List EventRow :=
  StableSort.sortByKey (·.startedAtMs)
    (s.events.filter fun e => s.isCurrent e && fromMs ≤ e.startedAtMs && e.startedAtMs < toMs)

def readRow (row : EventRow) : Except QueryFailure RecordedEvent :=
  (RecordedEvent.fromStoredBytes digest row.payload row.sha256).mapError .event

def bound (n : UInt64) : Except QueryFailure Nat := (toI64 n).mapError fun _ => .outOfRange

variable (zone : cal.Zone) (versioned : Bool)

def groupKey (date : String) (e : RecordedEvent) : GroupKey :=
  toLex (date, toLex (e.view.provider, toLex (e.view.modelAlias,
    if versioned then interpretationText e else "")))

def tally (groups : OrderedMap GroupKey Group) (e : RecordedEvent) :
    Except QueryFailure (OrderedMap GroupKey Group) := do
  let startedAtMs ← bound e.view.startedAtMs
  let date ← okOr (cal.date zone startedAtMs) .invalidTimestamp
  let key := groupKey versioned date e
  let group ← ((groups.get key).getD .default).add e.view
  return groups.insert key group

def Store.aggregate (fromMs toMs : UInt64) (timezone : String) : Except QueryFailure Report := do
  let zone ← okOr (cal.parse timezone) .invalidTimezone
  let low ← bound fromMs
  let high ← bound toMs
  let events ← (s.window low high).mapM (readRow digest)
  let versioned := events.any (·.isV2)
  let groups ← events.foldlM (tally cal zone versioned) .empty
  return { timezone, fromMs, toMs, groups, versioned }

end Aggregation

section Partition

variable {u : CanonicalUsage}

/-- Parts that are summed are within their sum. -/
theorem knownParts_le {names : List String} {sum : UInt64}
    (h : knownParts u names = some sum) : ∀ field ∈ names, ∀ n ∈ u.number field, n ≤ sum.toNat := by
  rw [knownParts] at h
  suffices hbounds : (0 : UInt64).toNat ≤ sum.toNat ∧
      ∀ field ∈ names, ∀ n ∈ u.number field, n ≤ sum.toNat from hbounds.2
  generalize (0 : UInt64) = start at h ⊢
  induction names generalizing start with
  | nil =>
      cases h
      exact ⟨Nat.le_refl _, List.forall_mem_nil _⟩
  | cons name rest ih =>
      rw [List.foldlM_cons] at h
      obtain ⟨next, hnext, h⟩ := Option.bind_eq_some_iff.1 h
      obtain ⟨hle, hrest⟩ := ih next h
      have hstep : start.toNat ≤ next.toNat ∧ ∀ n ∈ u.number name, n ≤ next.toNat := by
        rw [CanonicalUsage.number]
        cases hvalue : u.value name with
        | none =>
            simp only [hvalue, Option.some.injEq] at hnext
            exact ⟨Nat.le_of_eq (congrArg _ hnext), by simp⟩
        | some n =>
            simp only [hvalue, checkedAdd_eq_some] at hnext
            refine ⟨by omega, fun m hm => ?_⟩
            cases hm
            omega
      refine ⟨hstep.1.trans hle, List.forall_mem_cons.2 ⟨fun n hn => ?_, hrest⟩⟩
      exact (hstep.2 n hn).trans hle

/-- The cached tokens of a valid event are part of its input. -/
theorem within_of_validate {e : RecordedEvent} (h : e.validate = true) :
    e.view.usage.Within "cache_read_input_tokens" "input_tokens" := by
  cases e with
  | v1 e =>
      simp only [RecordedEvent.validate, UsageEvent.validate, UsageEvent.consistent,
        Bool.and_eq_true, decide_eq_true_eq] at h
      have hcounters : e.usage.counters = (normalize e.profile e.usage.reported).counters :=
        h.1.1.1.1.1.2.1.1.1
      have hread := (settled_settled ((filled e.profile e.usage.reported).profiled e.profile)
        e.profile).read
      rw [← normalize_settled] at hread
      have hnumber : ∀ f, e.usage.number f = (normalize e.profile e.usage.reported).number f :=
        fun f => number_of_get (by rw [hcounters])
      intro n hn m hm
      rw [RecordedEvent.view, hnumber] at hn hm
      exact hread n hn m hm
  | v2 e =>
      simp only [RecordedEvent.validate, UsageEventV2.validate, providerUsageValid,
        Bool.and_eq_true] at h
      have hpartitioned : partitioned e.usage = true := h.1.1.1.1.1.1.1.1.2.1.2
      intro n hn m hm
      obtain ⟨input, hinput, rfl⟩ := mem_number.1 hm
      change e.usage.value "input_tokens" = some input at hinput
      simp only [partitioned, hinput] at hpartitioned
      split at hpartitioned
      · cases hpartitioned
      · next sum hsum =>
          have hle := knownParts_le hsum "cache_read_input_tokens" (by decide) n hn
          simp only [Bool.not_eq_true', Bool.or_eq_false_iff, decide_eq_false_iff_not,
            UInt64.not_lt, UInt64.le_iff_toNat_le] at hpartitioned
          exact hle.trans hpartitioned.1

end Partition

section Groups

/-- The sum of a counter over the calls of a group. -/
def Group.sumOf (g : Group) (key : String) : Nat := (g.sums.get key).getD 0

/-- The number of calls of a group that have a counter. -/
def Group.knownOf (g : Group) (key : String) : Nat := (g.known.get key).getD 0

/-- The tokens of the input that were not read from a cache. -/
def nonReadInput (u : CanonicalUsage) : Option Int := do
  let input ← u.number "input_tokens"
  let read ← u.number "cache_read_input_tokens"
  return (input : Int) - read

variable {g g' : Group} {e : EventView} {u : CanonicalUsage}

theorem getD_bump (m : OrderedMap String Nat) (key key' : String) (n : Nat) :
    ((Group.bump m key n).get key').getD 0 = (m.get key').getD 0 + if key = key' then n else 0 := by
  rw [Group.bump, OrderedMap.get_insert]
  split
  · next h =>
      subst h
      rfl
  · rfl

theorem sumOf_counted (key key' : String) (n : Nat) :
    (g.counted key n).sumOf key' = g.sumOf key' + if key = key' then n else 0 :=
  getD_bump g.sums key key' n

theorem knownOf_counted (key key' : String) (n : Nat) :
    (g.counted key n).knownOf key' = g.knownOf key' + if key = key' then 1 else 0 :=
  getD_bump g.known key key' 1

/-- What an event adds to its group. -/
structure Added (g : Group) (e : EventView) (g' : Group) : Prop where
  count : g'.count = g.count + 1
  final : g'.finalCount = g.finalCount + if e.finality = .final then 1 else 0
  partly : g'.partialCount = g.partialCount + if e.finality = .partly then 1 else 0
  unobserved : g'.unobserved = g.unobserved + if e.finality = .unobserved then 1 else 0
  unfinished : g'.unfinished = g.unfinished + if e.kind ≠ .attemptFinished then 1 else 0
  sum : ∀ field ∈ fields, g'.sumOf field = g.sumOf field + (e.usage.number field).getD 0
  known : ∀ field ∈ fields,
    g'.knownOf field = g.knownOf field + if (e.usage.number field).isSome then 1 else 0
  nonRead : (g'.sumOf Group.nonReadField : Int) =
    g.sumOf Group.nonReadField + (nonReadInput e.usage).getD 0
  nonReadKnown : g'.knownOf Group.nonReadField =
    g.knownOf Group.nonReadField + if (nonReadInput e.usage).isSome then 1 else 0

/-- The same calls, with the counters of some fields added. -/
structure Summed (names : List String) (g : Group) (u : CanonicalUsage) (g' : Group) : Prop where
  count : g'.count = g.count
  final : g'.finalCount = g.finalCount
  partly : g'.partialCount = g.partialCount
  unobserved : g'.unobserved = g.unobserved
  unfinished : g'.unfinished = g.unfinished
  sum : ∀ key, g'.sumOf key =
    g.sumOf key + if key ∈ names then (u.number key).getD 0 else 0
  known : ∀ key, g'.knownOf key =
    g.knownOf key + if key ∈ names ∧ (u.number key).isSome then 1 else 0

theorem summed_foldl {names : List String} (hnodup : names.Nodup) (g : Group) :
    Summed names g u (names.foldl (fun g field =>
      match u.value field with
      | some n => g.counted field n.toNat
      | none => g) g) := by
  induction names generalizing g with
  | nil => exact ⟨rfl, rfl, rfl, rfl, rfl, fun key => by simp, fun key => by simp⟩
  | cons name rest ih =>
      rw [List.nodup_cons] at hnodup
      rw [List.foldl_cons]
      cases hvalue : u.value name with
      | none =>
          have hnone : u.number name = none := by rw [CanonicalUsage.number, hvalue]; rfl
          have hrest := ih hnodup.2 g
          refine ⟨hrest.count, hrest.final, hrest.partly, hrest.unobserved, hrest.unfinished,
            fun key => ?_, fun key => ?_⟩
          · rw [hrest.sum key]
            by_cases hkey : key = name
            · simp [hkey, hnone]
            · simp [hkey]
          · rw [hrest.known key]
            by_cases hkey : key = name
            · simp [hkey, hnone]
            · simp [hkey]
      | some n =>
          have hsome : u.number name = some n.toNat := by rw [CanonicalUsage.number, hvalue]; rfl
          have hrest := ih hnodup.2 (g.counted name n.toNat)
          refine ⟨hrest.count, hrest.final, hrest.partly, hrest.unobserved, hrest.unfinished,
            fun key => ?_, fun key => ?_⟩
          · rw [hrest.sum key, sumOf_counted]
            by_cases hkey : key = name
            · simp [hkey, hsome, hnodup.1]
            · simp [hkey, Ne.symm hkey]
          · rw [hrest.known key, knownOf_counted]
            by_cases hkey : key = name
            · simp [hkey, hsome, hnodup.1]
            · simp [hkey, Ne.symm hkey]

theorem nonReadInput_of_values {input read : UInt64} (hinput : u.value "input_tokens" = some input)
    (hread : u.value "cache_read_input_tokens" = some read) :
    nonReadInput u = some ((input.toNat : Int) - read.toNat) := by
  simp [nonReadInput, CanonicalUsage.number, hinput, hread]

theorem nonReadInput_eq_none (h : u.value "input_tokens" = none ∨
    u.value "cache_read_input_tokens" = none) : nonReadInput u = none := by
  rcases h with h | h <;> simp [nonReadInput, CanonicalUsage.number, h]

/-- An event whose cached tokens are part of its input is added to its group. -/
theorem add_ok (g : Group) (h : e.usage.Within "cache_read_input_tokens" "input_tokens") :
    ∃ g', g.add e = .ok g' ∧ Added g e g' := by
  have hsummed : Summed fields (g.classified e) e.usage ((g.classified e).summed e.usage) :=
    summed_foldl (by decide) _
  have hsum : ∀ field ∈ fields, ((g.classified e).summed e.usage).sumOf field =
      g.sumOf field + (e.usage.number field).getD 0 := fun field hfield => by
    rw [hsummed.sum, if_pos hfield]
    rfl
  have hknown : ∀ field ∈ fields, ((g.classified e).summed e.usage).knownOf field =
      g.knownOf field + if (e.usage.number field).isSome then 1 else 0 := fun field hfield => by
    rw [hsummed.known]
    simp only [hfield, true_and]
    rfl
  have hnonRead : ((g.classified e).summed e.usage).sumOf Group.nonReadField =
      g.sumOf Group.nonReadField := by
    rw [hsummed.sum, if_neg (by decide)]
    rfl
  have hnonReadKnown : ((g.classified e).summed e.usage).knownOf Group.nonReadField =
      g.knownOf Group.nonReadField := by
    rw [hsummed.known, if_neg fun h => absurd h.1 (by decide)]
    rfl
  rw [Group.add, Group.divided]
  split
  · next input read hinput hread =>
      have hle : read.toNat ≤ input.toNat :=
        h read.toNat (mem_number.2 ⟨read, hread, rfl⟩) input.toNat (mem_number.2 ⟨input, hinput, rfl⟩)
      obtain ⟨rest, hrest⟩ : ∃ rest, checkedSub input read = some rest :=
        ⟨_, if_pos (UInt64.le_iff_toNat_le.2 hle)⟩
      have hparts := checkedSub_eq_some.1 hrest
      rw [hrest]
      refine ⟨_, rfl, hsummed.count, hsummed.final, hsummed.partly, hsummed.unobserved,
        hsummed.unfinished, fun field hfield => ?_, fun field hfield => ?_, ?_, ?_⟩
      · have hne : Group.nonReadField ≠ field := fun heq => absurd (heq ▸ hfield) (by decide)
        refine (sumOf_counted _ _ rest.toNat).trans ?_
        rw [if_neg hne, Nat.add_zero, hsum field hfield]
      · have hne : Group.nonReadField ≠ field := fun heq => absurd (heq ▸ hfield) (by decide)
        refine (knownOf_counted _ _ rest.toNat).trans ?_
        rw [if_neg hne, Nat.add_zero, hknown field hfield]
      · have hadded := sumOf_counted (g := (g.classified e).summed e.usage) Group.nonReadField
          Group.nonReadField rest.toNat
        rw [if_pos rfl, hnonRead] at hadded
        rw [nonReadInput_of_values hinput hread, Option.getD_some]
        change (((((g.classified e).summed e.usage).counted Group.nonReadField
          rest.toNat).sumOf Group.nonReadField : Nat) : Int) = _
        omega
      · refine (knownOf_counted _ _ rest.toNat).trans ?_
        rw [if_pos rfl, hnonReadKnown, nonReadInput_of_values hinput hread]
        rfl
  · next hmissing =>
      have hnone : nonReadInput e.usage = none := by
        refine nonReadInput_eq_none ?_
        cases hinput : e.usage.value "input_tokens" with
        | none => exact .inl rfl
        | some input =>
            cases hread : e.usage.value "cache_read_input_tokens" with
            | none => exact .inr rfl
            | some read => exact (hmissing input read hinput hread).elim
      refine ⟨_, rfl, hsummed.count, hsummed.final, hsummed.partly, hsummed.unobserved,
        hsummed.unfinished, hsum, hknown, ?_, ?_⟩
      · rw [hnonRead, hnone]
        rfl
      · rw [hnonReadKnown, hnone]
        rfl

end Groups

section Accounts

/-- An attempt with its current event. -/
abbrev Call := (String × String) × RecordedEvent

/-- The last live event of an attempt. -/
def Current (digest : Text → String) (s : Store) (c : Call) : Prop :=
  ∃ row ∈ s.events, row.attempt = c.1 ∧ rowOf digest c.2 = .ok row ∧
    ∀ other ∈ s.events, other.attempt = c.1 → other.revision ≤ row.revision

/-- The live events of an attempt have one that ends it. -/
def Ended (s : Store) (c : Call) : Prop :=
  ∃ row ∈ s.events, row.attempt = c.1 ∧ row.kind = .attemptFinished

instance (s : Store) (c : Call) : Decidable (Ended s c) :=
  inferInstanceAs (Decidable (∃ row ∈ s.events, row.attempt = c.1 ∧ row.kind = .attemptFinished))

/-- What a group says of its calls. -/
structure Accounts (s : Store) (calls : List Call) (g : Group) : Prop where
  count : g.count = calls.length
  final : g.finalCount = calls.countP fun c => c.2.view.finality = .final
  partly : g.partialCount = calls.countP fun c => c.2.view.finality = .partly
  unobserved : g.unobserved = calls.countP fun c => c.2.view.finality = .unobserved
  unfinished : g.unfinished = calls.countP fun c => !decide (Ended s c)
  sum : ∀ field ∈ fields,
    g.sumOf field = (calls.filterMap fun c => c.2.view.usage.number field).sum
  known : ∀ field ∈ fields,
    g.knownOf field = calls.countP fun c => (c.2.view.usage.number field).isSome
  nonRead : (g.sumOf Group.nonReadField : Int) =
    (calls.filterMap fun c => nonReadInput c.2.view.usage).sum
  nonReadKnown : g.knownOf Group.nonReadField =
    calls.countP fun c => (nonReadInput c.2.view.usage).isSome

variable {s : Store} {calls : List Call} {c : Call} {g g' : Group}

/-- Every call is in one of the three states of its observation. -/
theorem Accounts.classes (h : Accounts s calls g) :
    g.finalCount + g.partialCount + g.unobserved = g.count := by
  rw [h.count, h.final, h.partly, h.unobserved]
  clear h
  induction calls with
  | nil => rfl
  | cons c rest ih =>
      simp only [List.countP_cons, List.length_cons]
      cases c.2.view.finality <;> simp <;> omega

theorem accounts_default : Accounts s [] .default :=
  ⟨rfl, rfl, rfl, rfl, rfl, fun _ _ => rfl, fun _ _ => rfl, rfl, rfl⟩

theorem sum_filterMap_append {α β : Type} [AddCommMonoid β] (l : List α) (a : α)
    (f : α → Option β) :
    ((l ++ [a]).filterMap f).sum = (l.filterMap f).sum + (f a).getD 0 := by
  rw [List.filterMap_append, List.sum_append]
  cases h : f a with
  | none => simp [List.filterMap_cons_none h]
  | some b => simp [List.filterMap_cons_some h]

/-- A group with an event more says the same of its calls with that of the event. -/
theorem Accounts.add (h : Accounts s calls g) (hadded : Added g c.2.view g')
    (hended : c.2.view.kind = .attemptFinished ↔ Ended s c) : Accounts s (calls ++ [c]) g' := by
  refine ⟨?_, ?_, ?_, ?_, ?_, fun field hfield => ?_, fun field hfield => ?_, ?_, ?_⟩
  · rw [hadded.count, h.count, List.length_append, List.length_singleton]
  · rw [hadded.final, h.final, List.countP_append, List.countP_singleton]
    simp
  · rw [hadded.partly, h.partly, List.countP_append, List.countP_singleton]
    simp
  · rw [hadded.unobserved, h.unobserved, List.countP_append, List.countP_singleton]
    simp
  · rw [hadded.unfinished, h.unfinished, List.countP_append, List.countP_singleton]
    simp [hended]
  · rw [hadded.sum field hfield, h.sum field hfield, sum_filterMap_append]
  · rw [hadded.known field hfield, h.known field hfield, List.countP_append,
      List.countP_singleton]
  · rw [hadded.nonRead, h.nonRead, sum_filterMap_append]
  · rw [hadded.nonReadKnown, h.nonReadKnown, List.countP_append, List.countP_singleton]

end Accounts

section Tally

variable (cal : Calendar) (zone : cal.Zone) (versioned : Bool) (s : Store)

/-- The group of a call, if the calendar has the day of its start. -/
def keyOf (c : Call) : Option GroupKey :=
  (cal.date zone c.2.view.startedAtMs.toNat).map fun date => groupKey versioned date c.2

/-- The groups say what there is to say of the calls. -/
structure Tallied (calls : List Call) (groups : OrderedMap GroupKey Group) : Prop where
  group : ∀ key, Accounts s (calls.filter fun c => keyOf cal zone versioned c = some key)
    ((groups.get key).getD .default)
  absent : ∀ key, groups.get key = none ↔ ∀ c ∈ calls, keyOf cal zone versioned c ≠ some key
  total : groups.total (·.count) = calls.length

variable {cal zone versioned s} {calls : List Call} {c : Call}
  {groups : OrderedMap GroupKey Group}

/-- A call that can be counted: a valid event at a time that the tables hold. -/
structure Countable (s : Store) (c : Call) : Prop where
  within : c.2.view.usage.Within "cache_read_input_tokens" "input_tokens"
  started : c.2.view.startedAtMs.toNat < 2 ^ 63
  ended : c.2.view.kind = .attemptFinished ↔ Ended s c

theorem bound_ok {n : UInt64} (h : n.toNat < 2 ^ 63) : bound n = .ok n.toNat :=
  mapError_ok.2 (toI64_ok.2 ⟨rfl, h⟩)

theorem tally_undated (hc : Countable s c)
    (h : cal.date zone c.2.view.startedAtMs.toNat = none) :
    tally cal zone versioned groups c.2 = .error .invalidTimestamp := by
  rw [tally, bound_ok hc.started, bind_of_ok, h]
  rfl

theorem Tallied.tally (h : Tallied cal zone versioned s calls groups) (hc : Countable s c)
    {key : GroupKey} (hkey : keyOf cal zone versioned c = some key) :
    ∃ groups', Recorder.tally cal zone versioned groups c.2 = .ok groups' ∧
      Tallied cal zone versioned s (calls ++ [c]) groups' := by
  obtain ⟨date, hdate, rfl⟩ := Option.map_eq_some_iff.1 hkey
  obtain ⟨group, hadd, hadded⟩ :=
    add_ok ((groups.get (groupKey versioned date c.2)).getD .default) hc.within
  refine ⟨groups.insert (groupKey versioned date c.2) group, ?_, fun key => ?_, fun key => ?_, ?_⟩
  · rw [Recorder.tally, bound_ok hc.started, bind_of_ok, hdate, okOr_some, bind_of_ok]
    simp only [hadd, bind_of_ok]
    rfl
  · rw [OrderedMap.get_insert, List.filter_append]
    split
    · next heq =>
        subst heq
        rw [List.filter_singleton, hkey, decide_eq_true rfl, Option.getD_some]
        exact (h.group _).add hadded hc.ended
    · next hne =>
        have hother : decide (keyOf cal zone versioned c = some key) = false := by
          rw [hkey]
          simpa using hne
        rw [List.filter_singleton, hother, cond_false, List.append_nil]
        exact h.group key
  · rw [OrderedMap.get_insert]
    split
    · next heq =>
        subst heq
        exact iff_of_false nofun fun hall => hall c (by simp) hkey
    · next hne =>
        rw [h.absent key, List.forall_mem_append]
        simp only [List.forall_mem_singleton, hkey, ne_eq, Option.some.injEq, hne,
          not_false_eq_true, and_true]
  · rw [List.length_append, List.length_singleton, ← h.total]
    cases hget : groups.get (groupKey versioned date c.2) with
    | none =>
        rw [OrderedMap.total_insert_new _ _ hget, hadded.count, hget]
        rfl
    | some old =>
        have hcount := hadded.count
        rw [hget, Option.getD_some] at hcount
        have hold := OrderedMap.total_insert_old (fun g : Group => g.count) group hget
        omega

theorem tallied_empty : Tallied cal zone versioned s [] .empty :=
  ⟨fun _ => accounts_default,
    fun _ => iff_of_true rfl fun _ hc => absurd hc List.not_mem_nil, rfl⟩

/-- The loop over the calls succeeds exactly when every call has a day. -/
theorem Tallied.run {rest : List Call} (h : Tallied cal zone versioned s calls groups)
    (hrest : ∀ c ∈ rest, Countable s c) :
    ((∀ c ∈ rest, (cal.date zone c.2.view.startedAtMs.toNat).isSome) ∧
      ∃ groups', (rest.map Prod.snd).foldlM (Recorder.tally cal zone versioned) groups =
        .ok groups' ∧ Tallied cal zone versioned s (calls ++ rest) groups') ∨
    (¬(∀ c ∈ rest, (cal.date zone c.2.view.startedAtMs.toNat).isSome) ∧
      (rest.map Prod.snd).foldlM (Recorder.tally cal zone versioned) groups =
        .error .invalidTimestamp) := by
  induction rest generalizing calls groups with
  | nil =>
      rw [List.append_nil]
      exact .inl ⟨fun _ hc => absurd hc List.not_mem_nil, groups, rfl, h⟩
  | cons c rest ih =>
      rw [List.forall_mem_cons] at hrest
      rw [List.map_cons, List.foldlM_cons, List.forall_mem_cons]
      cases hdate : cal.date zone c.2.view.startedAtMs.toNat with
      | none =>
          rw [tally_undated hrest.1 hdate]
          exact .inr ⟨fun hall => Bool.false_ne_true hall.1, rfl⟩
      | some date =>
          obtain ⟨groups', htally, h'⟩ := h.tally hrest.1
            (show keyOf cal zone versioned c = some (groupKey versioned date c.2) by
              rw [keyOf, hdate, Option.map_some])
          rw [htally, bind_of_ok]
          rcases ih h' hrest.2 with ⟨hall, groups'', hrun, h''⟩ | ⟨hnot, hrun⟩
          · rw [List.append_assoc] at h''
            exact .inl ⟨⟨rfl, hall⟩, groups'', hrun, h''⟩
          · exact .inr ⟨fun hall => hnot hall.2, hrun⟩

end Tally

section Windows

variable {digest : Text → String} {cal : Calendar} {s : Store} {fromMs toMs : Nat}
  {calls : List Call} {c : Call}

/-- The calls that started in a window, each with its current event. -/
structure Calls (digest : Text → String) (s : Store) (fromMs toMs : Nat) (calls : List Call) :
    Prop where
  distinct : (calls.map Prod.fst).Nodup
  mem : ∀ c, c ∈ calls ↔ Current digest s c ∧
    fromMs ≤ c.2.view.startedAtMs.toNat ∧ c.2.view.startedAtMs.toNat < toMs

variable (digest) in
/-- Rows that were made from events are read as these. -/
theorem readRow_mapM (rows : List EventRow) (h : ∀ row ∈ rows, ∃ e, rowOf digest e = .ok row) :
    ∃ calls : List Call, rows.mapM (readRow digest) = .ok (calls.map Prod.snd) ∧
      calls.map Prod.fst = rows.map (·.attempt) ∧
      ∀ c : Call, c ∈ calls ↔ ∃ row ∈ rows, row.attempt = c.1 ∧ rowOf digest c.2 = .ok row := by
  induction rows with
  | nil => exact ⟨[], rfl, rfl, fun c => by simp⟩
  | cons row rest ih =>
      rw [List.forall_mem_cons] at h
      obtain ⟨e, he⟩ := h.1
      obtain ⟨calls, hread, hfst, hmem⟩ := ih h.2
      have hrow : readRow digest row = .ok e := by
        rw [readRow, (rowOf_ok he).sha256, fromStoredBytes_bytes digest (rowOf_ok he).payload]
        rfl
      refine ⟨(row.attempt, e) :: calls, ?_, congrArg (row.attempt :: ·) hfst, fun c => ?_⟩
      · rw [List.mapM_cons, hrow, bind_of_ok, hread]
        rfl
      · rw [List.mem_cons, hmem, List.exists_mem_cons_iff]
        refine or_congr ⟨?_, fun ⟨hattempt, hc⟩ => ?_⟩ Iff.rfl
        · rintro rfl
          exact ⟨rfl, he⟩
        · exact Prod.ext hattempt.symm (RowOf.unique hc he rfl).1

theorem mem_window {row : EventRow} : row ∈ s.window fromMs toMs ↔ row ∈ s.events ∧
    (∀ other ∈ s.events, other.attempt = row.attempt → other.revision ≤ row.revision) ∧
    fromMs ≤ row.startedAtMs ∧ row.startedAtMs < toMs := by
  rw [Store.window, (StableSort.perm_sortByKey _ _).mem_iff, List.mem_filter]
  simp only [Store.isCurrent, Bool.and_eq_true, List.all_eq_true, mem_sameAttempt,
    decide_eq_true_eq, and_imp, and_assoc]

/-- Every attempt has one row at most in a window. -/
theorem Sound.window_nodup (hs : Sound digest s) (fromMs toMs : Nat) :
    ((s.window fromMs toMs).map (·.attempt)).Nodup := by
  have hfilter : (s.window fromMs toMs).Perm (s.events.filter fun e =>
      s.isCurrent e && fromMs ≤ e.startedAtMs && e.startedAtMs < toMs) :=
    StableSort.perm_sortByKey _ _
  rw [(hfilter.map _).nodup_iff, List.Nodup, List.pairwise_map]
  refine List.Pairwise.imp_of_mem ?_ (hs.distinct_events.sublist List.filter_sublist)
  intro a b ha hb hclash hattempt
  have hcurrent : ∀ {row}, row ∈ s.events.filter (fun e =>
      s.isCurrent e && fromMs ≤ e.startedAtMs && e.startedAtMs < toMs) →
      row ∈ s.events ∧ ∀ other ∈ s.events, other.attempt = row.attempt →
        other.revision ≤ row.revision := fun hrow =>
    have hwindow := mem_window.1 (hfilter.mem_iff.2 hrow)
    ⟨hwindow.1, hwindow.2.1⟩
  have hle := (hcurrent ha).2 b (hcurrent hb).1 hattempt.symm
  have hle' := (hcurrent hb).2 a (hcurrent ha).1 hattempt
  rw [Table.byKey, ← Bool.not_eq_true, clash_iff] at hclash
  refine hclash (.inr ?_)
  rw [EventRow.keys, EventRow.keys, hattempt, Nat.le_antisymm hle' hle]

/-- The rows of a window are read as its calls. -/
theorem Sound.window_calls (hs : Sound digest s) (fromMs toMs : Nat) : ∃ calls,
    (s.window fromMs toMs).mapM (readRow digest) = .ok (calls.map Prod.snd) ∧
      Calls digest s fromMs toMs calls := by
  obtain ⟨calls, hread, hfst, hmem⟩ := readRow_mapM digest (s.window fromMs toMs) fun row hrow =>
      have ⟨e, he, _⟩ := hs.live row (mem_window.1 hrow).1
      ⟨e, he⟩
  refine ⟨calls, hread, hfst ▸ hs.window_nodup fromMs toMs, fun c => ?_⟩
  rw [hmem]
  constructor
  · rintro ⟨row, hrow, hattempt, hc⟩
    obtain ⟨hevent, hcurrent, hstarted⟩ := mem_window.1 hrow
    rw [(rowOf_ok hc).startedAtMs] at hstarted
    exact ⟨⟨row, hevent, hattempt, hc, hattempt ▸ hcurrent⟩, hstarted⟩
  · rintro ⟨⟨row, hevent, hattempt, hc, hcurrent⟩, hstarted⟩
    rw [← (rowOf_ok hc).startedAtMs] at hstarted
    exact ⟨row, mem_window.2 ⟨hevent, hattempt ▸ hcurrent, hstarted⟩, hattempt, hc⟩

/-- An attempt ended exactly when its current event ends it. -/
theorem Sound.countable (hs : Sound digest s) (hc : Current digest s c) : Countable s c := by
  obtain ⟨row, hrow, hattempt, he, hcurrent⟩ := hc
  have hrowOf := rowOf_ok he
  refine ⟨within_of_validate (bytes_ok hrowOf.payload).1, ?_, ?_⟩
  · rw [← hrowOf.startedAtMs]
    exact hrowOf.fits.2.1
  · rw [← hrowOf.kind]
    refine ⟨fun hkind => ⟨row, hrow, hattempt, hkind⟩, ?_⟩
    rintro ⟨last, hlast, hsame, hkind⟩
    have hle := hs.final last hlast hkind row hrow (hattempt.trans hsame.symm)
    have hle' := hcurrent last hlast hsame
    have heq : last = row := by
      refine hs.eq_of_clash hlast hrow (clash_iff.2 (.inr ?_))
      rw [EventRow.keys, EventRow.keys, hsame, hattempt, Nat.le_antisymm hle' hle]
    rw [← heq]
    exact hkind

end Windows

section Reports

variable {digest : Text → String} {cal : Calendar} {zone : cal.Zone} {s : Store}
  {fromMs midMs toMs : UInt64} {timezone : String} {calls calls₁ calls₂ : List Call}
  {g g₁ g₂ : Group}

/-- What a report says of the calls of its window. -/
structure ReportOf (cal : Calendar) (zone : cal.Zone) (s : Store) (calls : List Call)
    (report : Report) : Prop extends Tallied cal zone report.versioned s calls report.groups where
  versioned : report.versioned = calls.any (·.2.isV2)
  classes : ∀ key g, report.groups.get key = some g →
    g.finalCount + g.partialCount + g.unobserved = g.count
  positive : ∀ c ∈ calls, ∀ n ∈ nonReadInput c.2.view.usage, 0 ≤ n

/-- The calendar has the day on which each call started. -/
def Dated (cal : Calendar) (zone : cal.Zone) (calls : List Call) : Prop :=
  ∀ c ∈ calls, (cal.date zone c.2.view.startedAtMs.toNat).isSome

theorem Countable.positive {c : Call} (h : Countable s c) :
    ∀ n ∈ nonReadInput c.2.view.usage, 0 ≤ n := by
  intro n hn
  obtain ⟨input, hinput, hn⟩ := Option.bind_eq_some_iff.1 hn
  obtain ⟨read, hread, hn⟩ := Option.bind_eq_some_iff.1 hn
  cases hn
  have hle := h.within read hread input hinput
  omega

theorem Tallied.classes {versioned : Bool} {groups : OrderedMap GroupKey Group}
    (h : Tallied cal zone versioned s calls groups) {key : GroupKey} (hg : groups.get key = some g) :
    g.finalCount + g.partialCount + g.unobserved = g.count := by
  have hgroup := h.group key
  rw [hg, Option.getD_some] at hgroup
  exact hgroup.classes

/-- A report is made when the calendar has every day, and says what there is to say. -/
theorem Sound.aggregate_cases (hs : Sound digest s) (hzone : cal.parse timezone = some zone)
    (hfrom : fromMs.toNat < 2 ^ 63) (hto : toMs.toNat < 2 ^ 63) :
    ∃ calls, Calls digest s fromMs.toNat toMs.toNat calls ∧
      ((Dated cal zone calls ∧ ∃ report,
          s.aggregate digest cal fromMs toMs timezone = .ok report ∧
            ReportOf cal zone s calls report) ∨
        (¬Dated cal zone calls ∧
          s.aggregate digest cal fromMs toMs timezone = .error .invalidTimestamp)) := by
  obtain ⟨calls, hread, hcalls⟩ := hs.window_calls fromMs.toNat toMs.toNat
  have hcountable : ∀ c ∈ calls, Countable s c := fun c hc =>
    hs.countable ((hcalls.mem c).1 hc).1
  have haggregate : s.aggregate digest cal fromMs toMs timezone =
      ((calls.map Prod.snd).foldlM
        (tally cal zone ((calls.map Prod.snd).any (·.isV2))) .empty).bind fun groups =>
          .ok ⟨timezone, fromMs, toMs, groups, (calls.map Prod.snd).any (·.isV2)⟩ := by
    rw [Store.aggregate, hzone, okOr_some, bind_of_ok, bound_ok hfrom, bind_of_ok, bound_ok hto,
      bind_of_ok, hread, bind_of_ok]
    rfl
  refine ⟨calls, hcalls, ?_⟩
  rw [haggregate]
  rcases tallied_empty.run hcountable with ⟨hdated, groups, hrun, htallied⟩ | ⟨hnot, hrun⟩
  · rw [hrun]
    exact .inl ⟨hdated, _, rfl, ⟨htallied, List.any_map, fun key g hg => htallied.classes hg,
      fun c hc => (hcountable c hc).positive⟩⟩
  · rw [hrun]
    exact .inr ⟨hnot, rfl⟩

/-- The calls of a window are those of its two parts. -/
theorem Calls.split {fromMs midMs toMs : Nat} (h : Calls digest s fromMs toMs calls)
    (h₁ : Calls digest s fromMs midMs calls₁) (h₂ : Calls digest s midMs toMs calls₂)
    (hfrom : fromMs ≤ midMs) (hto : midMs ≤ toMs) : calls.Perm (calls₁ ++ calls₂) := by
  refine (List.perm_ext_iff_of_nodup (h.distinct.of_map _) ?_).2 fun c => ?_
  · refine List.nodup_append.2 ⟨h₁.distinct.of_map _, h₂.distinct.of_map _, ?_⟩
    rintro c hc _ hc' rfl
    have hbefore := ((h₁.mem c).1 hc).2.2
    have hafter := ((h₂.mem c).1 hc').2.1
    omega
  · rw [List.mem_append, h.mem, h₁.mem, h₂.mem, ← and_or_left]
    refine and_congr_right fun _ => ?_
    omega

/-- The sums of a group are those of its two parts. -/
theorem Accounts.join (h : Accounts s calls g) (h₁ : Accounts s calls₁ g₁)
    (h₂ : Accounts s calls₂ g₂) (hperm : calls.Perm (calls₁ ++ calls₂)) :
    ∀ name ∈ Group.nonReadField :: fields, g.sumOf name = g₁.sumOf name + g₂.sumOf name := by
  rw [List.forall_mem_cons]
  refine ⟨?_, fun field hfield => ?_⟩
  · have hsum := (hperm.filterMap fun c : Call => nonReadInput c.2.view.usage).sum_eq
    rw [List.filterMap_append, List.sum_append, ← h.nonRead, ← h₁.nonRead, ← h₂.nonRead] at hsum
    omega
  · rw [h.sum field hfield, h₁.sum field hfield, h₂.sum field hfield,
      (hperm.filterMap _).sum_eq, List.filterMap_append, List.sum_append]

/-- The sum of a counter in a group of a report. -/
def Report.sumOf (report : Report) (key : GroupKey) (name : String) : Nat :=
  ((report.groups.get key).getD .default).sumOf name

/-- Without events of the second version a report is the sum of those of its two parts. -/
theorem ReportOf.join {report report₁ report₂ : Report} (h : ReportOf cal zone s calls report)
    (h₁ : ReportOf cal zone s calls₁ report₁) (h₂ : ReportOf cal zone s calls₂ report₂)
    (hperm : calls.Perm (calls₁ ++ calls₂)) (hv1 : ∀ c ∈ calls, c.2.isV2 = false)
    (key : GroupKey) : ∀ name ∈ Group.nonReadField :: fields,
      report.sumOf key name = report₁.sumOf key name + report₂.sumOf key name := by
  have hversioned : ∀ {calls' : List Call} {report' : Report}, ReportOf cal zone s calls' report' →
      (∀ c ∈ calls', c ∈ calls) → report'.versioned = false := fun h' hmem => by
    rw [h'.versioned, List.any_eq_false]
    intro c hc
    rw [hv1 c (hmem c hc)]
    exact Bool.false_ne_true
  have hgroup := h.group key
  have hgroup₁ := h₁.group key
  have hgroup₂ := h₂.group key
  rw [hversioned h fun c hc => hc] at hgroup
  rw [hversioned h₁ fun c hc => hperm.mem_iff.2 (List.mem_append_left _ hc)] at hgroup₁
  rw [hversioned h₂ fun c hc => hperm.mem_iff.2 (List.mem_append_right _ hc)] at hgroup₂
  refine hgroup.join hgroup₁ hgroup₂ ?_
  rw [← List.filter_append]
  exact hperm.filter _

/-- A report over a window is made exactly when the calendar has the day on which each of its
calls started, and counts every live attempt whose current event started there once, with the
exact sums of its counters. Without events of the second version the sums over the two parts of
a window add up to those over the window. -/
theorem aggregate_exact {version : Nat} (hreach : Run digest (.empty version) s)
    (hzone : cal.parse timezone = some zone) :
    (∀ fromMs toMs : UInt64, fromMs.toNat < 2 ^ 63 → toMs.toNat < 2 ^ 63 →
      ∃ calls, Calls digest s fromMs.toNat toMs.toNat calls ∧
        ((Dated cal zone calls ∧ ∃ report,
            s.aggregate digest cal fromMs toMs timezone = .ok report ∧
              ReportOf cal zone s calls report) ∨
          (¬Dated cal zone calls ∧
            s.aggregate digest cal fromMs toMs timezone = .error .invalidTimestamp))) ∧
    ∀ fromMs midMs toMs : UInt64, fromMs ≤ midMs → midMs ≤ toMs → toMs.toNat < 2 ^ 63 →
      (∀ c, Current digest s c → fromMs ≤ c.2.view.startedAtMs → c.2.view.startedAtMs < toMs →
        c.2.isV2 = false) →
      ∀ report, s.aggregate digest cal fromMs toMs timezone = .ok report →
        ∃ report₁ report₂, s.aggregate digest cal fromMs midMs timezone = .ok report₁ ∧
          s.aggregate digest cal midMs toMs timezone = .ok report₂ ∧
          ∀ key, ∀ name ∈ Group.nonReadField :: fields,
            report.sumOf key name = report₁.sumOf key name + report₂.sumOf key name := by
  have hs := (@sound_empty digest version).run hreach
  refine ⟨fun fromMs toMs hfrom hto => hs.aggregate_cases hzone hfrom hto, ?_⟩
  intro fromMs midMs toMs hfrom hmid hto hv1 report hreport
  rw [UInt64.le_iff_toNat_le] at hfrom hmid
  obtain ⟨calls, hcalls, hwhole⟩ := hs.aggregate_cases hzone
    ((hfrom.trans hmid).trans_lt hto) hto
  obtain ⟨calls₁, hcalls₁, hfirst⟩ := hs.aggregate_cases hzone
    ((hfrom.trans hmid).trans_lt hto) (hmid.trans_lt hto)
  obtain ⟨calls₂, hcalls₂, hlast⟩ := hs.aggregate_cases hzone (hmid.trans_lt hto) hto
  have hperm := hcalls.split hcalls₁ hcalls₂ hfrom hmid
  rw [hreport] at hwhole
  obtain ⟨hdated, _, heq, hreported⟩ | ⟨-, herror⟩ := hwhole
  · rw [← Except.ok.inj heq] at hreported
    have hdated₁ : Dated cal zone calls₁ := fun c hc =>
      hdated c (hperm.mem_iff.2 (List.mem_append_left _ hc))
    have hdated₂ : Dated cal zone calls₂ := fun c hc =>
      hdated c (hperm.mem_iff.2 (List.mem_append_right _ hc))
    obtain ⟨-, report₁, hreport₁, hreported₁⟩ := hfirst.resolve_right fun h => h.1 hdated₁
    obtain ⟨-, report₂, hreport₂, hreported₂⟩ := hlast.resolve_right fun h => h.1 hdated₂
    refine ⟨report₁, report₂, hreport₁, hreport₂, fun key =>
      hreported.join hreported₁ hreported₂ hperm (fun c hc => ?_) key⟩
    obtain ⟨hcurrent, hstarted⟩ := (hcalls.mem c).1 hc
    exact hv1 c hcurrent (UInt64.le_iff_toNat_le.2 hstarted.1)
      (UInt64.lt_iff_toNat_lt.2 hstarted.2)
  · cases herror

end Reports

section Utc

/-- The last instant of the calendar, at the end of the year 262142. -/
def maxUtcMs : Nat := 8210266876799999

def padded (width n : Nat) : List Char := (Nat.toDigits 10 n).leftpad width '0'

/-- The day of a number of days after that of the epoch. The year begins in March, and the eras
have 400 years. -/
def civil (days : Nat) : String :=
  let shifted := days + 719468
  let era := shifted / 146097
  let dayOfEra := shifted % 146097
  let yearOfEra := (dayOfEra - dayOfEra / 1460 + dayOfEra / 36524 - dayOfEra / 146096) / 365
  let dayOfYear := dayOfEra - (365 * yearOfEra + yearOfEra / 4 - yearOfEra / 100)
  let fromMarch := (5 * dayOfYear + 2) / 153
  let day := dayOfYear - (153 * fromMarch + 2) / 5 + 1
  let month := if fromMarch < 10 then fromMarch + 3 else fromMarch - 9
  let year := yearOfEra + era * 400 + if month ≤ 2 then 1 else 0
  String.ofList ((if 9999 < year then ['+'] else []) ++ padded 4 year ++ '-' :: padded 2 month ++
    '-' :: padded 2 day)

/-- The calendar with the one zone `UTC`. -/
def utc : Calendar where
  Zone := Unit
  parse name := if name = "UTC" then some () else none
  date _ ms := if ms ≤ maxUtcMs then some (civil (ms / 86400000)) else none

example : utc.date () 951782400000 = some "2000-02-29" := by decide +kernel

/-- The days of every window that ends before the last one. -/
theorem dated_utc {digest : Text → String} {s : Store} {fromMs toMs : Nat} {calls : List Call}
    (h : Calls digest s fromMs toMs calls) (hto : toMs ≤ maxUtcMs) : Dated utc () calls := by
  intro c hc
  have hday : utc.date () c.2.view.startedAtMs.toNat =
      some (civil (c.2.view.startedAtMs.toNat / 86400000)) :=
    if_pos (((h.mem c).1 hc).2.2.le.trans hto)
  rw [hday]
  rfl

/-- A store that holds one event. -/
theorem recorded_alone {version : Nat} {e : RecordedEvent} (h : Storable version e) :
    ∃ s, Run String.ofList (.empty version) s ∧
      Current String.ofList s (attemptOf e, e) := by
  have hinj : Function.Injective String.ofList := fun _ _ h => String.ofList_injective h
  obtain ⟨statuses, s, hdeliver, htables, -⟩ := tables_empty.deliver
    ⟨[], List.nodup_nil⟩ hinj (consistent_singleton e)
    (fun e' he' => by rwa [Set.mem_singleton_iff.1 he']) [e] (by simp) (by simp)
  obtain ⟨row, hrow⟩ := h.has_row String.ofList
  refine ⟨s, run_of_deliver hdeliver, row, (htables.events row).2 ⟨e, by simp, hrow⟩,
    (rowOf_ok hrow).attempt, hrow, fun other hother _ => ?_⟩
  obtain ⟨e', he', hrow'⟩ := (htables.events other).1 hother
  obtain rfl : e' = e := by simpa using he'
  rw [hrow, Except.ok.injEq] at hrow'
  rw [hrow']

/-- A store of the first version has no events of the second. -/
theorem Sound.isV2_of_current {digest : Text → String} {s : Store} {c : Call}
    (hs : Sound digest s) (hversion : s.version = 1) (hc : Current digest s c) :
    c.2.isV2 = false := by
  obtain ⟨row, hrow, -, he, -⟩ := hc
  obtain ⟨event, hevent, hv2, -⟩ := hs.live row hrow
  rw [(RowOf.unique he hevent rfl).1, ← Bool.not_eq_true]
  intro h
  rw [hversion] at hv2
  exact absurd (hv2 h) (by decide)

/-- The attempt that started is counted, and the sums of the window are those of its parts. -/
theorem aggregate_exact_started : ∃ s report report₁ report₂,
    Run String.ofList (.empty 1) s ∧
    s.aggregate String.ofList utc 0 3 "UTC" = .ok report ∧ 0 < report.groups.total (·.count) ∧
    s.aggregate String.ofList utc 0 1 "UTC" = .ok report₁ ∧
    s.aggregate String.ofList utc 1 3 "UTC" = .ok report₂ ∧
    ∀ key, ∀ name ∈ Group.nonReadField :: fields,
      report.sumOf key name = report₁.sumOf key name + report₂.sumOf key name := by
  obtain ⟨s, hreach, hcurrent⟩ := recorded_alone (storable_attempt startedEvent (by simp))
  have hs := (sound_empty 1).run hreach
  have hversion : s.version = 1 := ((sound_empty 1).run_keeps hreach).1
  obtain ⟨hreports, hsplit⟩ := @aggregate_exact _ utc () _ "UTC" _ hreach rfl
  obtain ⟨calls, hcalls, ⟨-, report, hreport, hreported⟩ | ⟨hnot, -⟩⟩ :=
    hreports 0 3 (by decide) (by decide)
  · obtain ⟨report₁, report₂, hreport₁, hreport₂, hsums⟩ := hsplit 0 1 3 (by decide) (by decide)
      (by decide) (fun c hc _ _ => hs.isV2_of_current hversion hc) report hreport
    refine ⟨s, report, report₁, report₂, hreach, hreport, ?_, hreport₁, hreport₂, hsums⟩
    rw [hreported.total]
    exact List.length_pos_of_mem ((hcalls.mem _).2 ⟨hcurrent, by decide, by decide⟩)
  · exact absurd (dated_utc hcalls (by decide)) hnot

/-- A table holds an event that started after the last day of the calendar. -/
theorem aggregate_undated : ¬ ∀ s, Run String.ofList (.empty 1) s →
    ∀ fromMs toMs : UInt64, fromMs.toNat < 2 ^ 63 → toMs.toNat < 2 ^ 63 →
      ∃ report, s.aggregate String.ofList utc fromMs toMs "UTC" = .ok report := by
  intro hall
  obtain ⟨s, hreach, hcurrent⟩ := @recorded_alone 1
    (attemptEvent "s" 0 .attemptStarted 8210266876800000)
    ⟨nofun, bytes_of_isSome (by decide +kernel), by decide, by decide, by decide⟩
  obtain ⟨report, hreport⟩ := hall s hreach 0 9223372036854775807 (by decide) (by decide)
  obtain ⟨calls, hcalls, ⟨hdated, -⟩ | ⟨-, herror⟩⟩ := @Sound.aggregate_cases _ utc () s
    0 9223372036854775807 "UTC" ((sound_empty 1).run hreach) rfl (by decide) (by decide)
  · have hday := hdated _ ((hcalls.mem _).2 ⟨hcurrent, by decide, by decide⟩)
    exact absurd hday (by decide)
  · rw [hreport] at herror
    cases herror

end Utc

end ResponseGateway.Recorder
