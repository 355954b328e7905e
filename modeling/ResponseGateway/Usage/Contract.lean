import ResponseGateway.Ir.Digest
import ResponseGateway.Library.JsonNumber
import ResponseGateway.Library.OrderedMap

/-!
`gateway_usage_contract`: the counters that a provider reports, their normal form under
the five profiles, the accumulator over the values of one attempt and the checks behind
which an event is recorded.
-/

namespace ResponseGateway.Usage
open Json
open Ir (isLowerHex)

section Counters

def schema : String := "gateway-usage-event/v1"

def fields : List String := [
  "input_tokens", "output_tokens", "total_tokens", "input_regular_tokens",
  "cache_read_input_tokens", "cache_write_input_tokens", "reasoning_output_tokens"]

inductive Source where
  | reported
  | derived
  | notReported
  | notApplicable
  | invalid
  deriving DecidableEq, Repr

structure Counter where
  value : Option UInt64
  source : Source
  deriving DecidableEq, Repr

namespace Counter

def default : Counter := ⟨none, .notReported⟩

def invalid : Counter := ⟨none, .invalid⟩

def read : Option Json → Counter
  | none | some .null => default
  | some v =>
      match v.asU64 with
      | some n => ⟨some (.ofNat n), .reported⟩
      | none => invalid

def derived (value : Option UInt64) : Counter :=
  ⟨value, if value.isSome then .derived else .invalid⟩

/-- The shapes that `CanonicalUsage::validate` admits. -/
def shaped (c : Counter) : Bool :=
  match c.value, c.source with
  | some _, .reported | some _, .derived => true
  | none, .notReported | none, .notApplicable | none, .invalid => true
  | _, _ => false

end Counter

abbrev Counters := OrderedMap String Counter

structure CacheWriteDetail where
  ttlSeconds : UInt64
  inputTokens : Counter
  deriving DecidableEq, Repr

structure CanonicalUsage where
  counters : Counters
  cacheWriteDetails : List CacheWriteDetail
  /-- Only documented numeric usage paths. -/
  reported : Counters
  violations : List String
  deriving DecidableEq

/-- `checked_add`. -/
def checkedAdd (a b : UInt64) : Option UInt64 :=
  if a.toNat + b.toNat < 2 ^ 64 then some (a + b) else none

/-- `checked_sub`. -/
def checkedSub (a b : UInt64) : Option UInt64 := if b ≤ a then some (a - b) else none

end Counters

section Profiles

inductive Profile where
  | responsesV1
  | chatV1
  | deepSeekV1
  | messagesV1
  | geminiInteractionsV1
  deriving DecidableEq, Repr

def Profile.all : List Profile :=
  [.responsesV1, .chatV1, .deepSeekV1, .messagesV1, .geminiInteractionsV1]

/-- The counters of a profile, with the paths that report them. -/
def paths : Profile → List (String × String)
  | .geminiInteractionsV1 => [
      ("input_tokens", "total_input_tokens"),
      ("output_tokens", "total_output_tokens"),
      ("reasoning_output_tokens", "total_thought_tokens"),
      ("cache_read_input_tokens", "total_cached_tokens"),
      ("total_tokens", "total_tokens")]
  | .responsesV1 => [
      ("input_tokens", "input_tokens"),
      ("output_tokens", "output_tokens"),
      ("total_tokens", "total_tokens"),
      ("cache_read_input_tokens", "input_tokens_details.cached_tokens"),
      ("cache_write_input_tokens", "input_tokens_details.cache_write_tokens"),
      ("reasoning_output_tokens", "output_tokens_details.reasoning_tokens")]
  | .deepSeekV1 => chat ++ [
      ("cache_read_input_tokens", "prompt_cache_hit_tokens"),
      ("input_regular_tokens", "prompt_cache_miss_tokens")]
  | .chatV1 => chat
  | .messagesV1 => [
      ("input_regular_tokens", "input_tokens"),
      ("output_tokens", "output_tokens"),
      ("cache_read_input_tokens", "cache_read_input_tokens"),
      ("cache_write_input_tokens", "cache_creation_input_tokens")]
where
  chat : List (String × String) := [
    ("input_tokens", "prompt_tokens"),
    ("output_tokens", "completion_tokens"),
    ("total_tokens", "total_tokens"),
    ("cache_read_input_tokens", "prompt_tokens_details.cached_tokens"),
    ("reasoning_output_tokens", "completion_tokens_details.reasoning_tokens")]

/-- The split of written cache tokens by their lifetime, which counts for nothing else. -/
def lifetimes : List (UInt64 × String) :=
  [(300, "cache_creation.ephemeral_5m_input_tokens"),
    (3600, "cache_creation.ephemeral_1h_input_tokens")]

def allowedPath (path : String) : Bool :=
  (Profile.all.any fun p => (paths p).any (·.2 = path)) || lifetimes.any (·.2 = path)

/-- The value under a path of keys. -/
def at? (value : Json) (path : String) : Option Json :=
  ((path.toList.splitOn '.').map String.ofList).foldlM Json.field value

/-- Keeps the counters of the profile and nothing else. -/
def extract (profile : Profile) (value : Json) : Counters :=
  if !value.isObject then (paths profile).foldl (fun m e => m.insert e.2 .invalid) .empty
  else (reading profile).foldl (fun m path =>
    match at? value path with
    | some v => m.insert path (.read (some v))
    | none => m) .empty
where
  reading (profile : Profile) : List String :=
    (paths profile).map (·.2) ++ if profile = .messagesV1 then lifetimes.map (·.2) else []

end Profiles

section Normalization

namespace CanonicalUsage

def default : CanonicalUsage where
  counters := fields.foldl (fun m f => m.insert f .default) .empty
  cacheWriteDetails := []
  reported := .empty
  violations := []

/-- The counters as they are before any is filled in. -/
def reporting (reported : Counters) : CanonicalUsage := { default with reported }

variable (u : CanonicalUsage)

def value (field : String) : Option UInt64 := (u.counters.get field).bind (·.value)

/-- The value that a path reported. -/
def reportedValue (path : String) : Option UInt64 := (u.reported.get path).bind (·.value)

def put (field : String) (c : Counter) : CanonicalUsage :=
  { u with counters := u.counters.insert field c }

/-- `invalid`. -/
def refuse (field reason : String) : CanonicalUsage :=
  { u.put field .invalid with
    violations := if u.violations.any (· = reason) then u.violations
      else u.violations ++ [reason] }

def hasInvalid : Bool := u.counters.values.any (·.source = .invalid)

def fill (profile : Profile) : CanonicalUsage :=
  (paths profile).foldl (fun u e =>
    match u.reported.get e.2 with
    | some c => u.put e.1 c
    | none => u) u

def flag : CanonicalUsage :=
  if u.hasInvalid then { u with violations := u.violations ++ ["invalid_counter"] } else u

/-- Two reports of the same cached tokens that differ. -/
def aliasMismatch : Bool :=
  match u.reportedValue "prompt_tokens_details.cached_tokens",
    u.reportedValue "prompt_cache_hit_tokens" with
  | some a, some b => a ≠ b
  | _, _ => false

def deepSeek : CanonicalUsage :=
  let u := if u.aliasMismatch then u.refuse "cache_read_input_tokens" "cache_alias_mismatch" else u
  match u.reportedValue "prompt_cache_hit_tokens", u.value "input_regular_tokens",
    u.value "input_tokens" with
  | some hit, some miss, some input =>
      if checkedAdd hit miss ≠ some input then u.refuse "input_regular_tokens" "input_partition"
      else u
  | _, _, _ => u

def geminiInteractions : CanonicalUsage :=
  u.put "output_tokens" <|
    match u.value "output_tokens", u.value "reasoning_output_tokens" with
    | some regular, some thought => .derived (checkedAdd regular thought)
    | _, _ => .default

def sumInput : CanonicalUsage :=
  match u.value "input_regular_tokens", u.value "cache_read_input_tokens",
    u.value "cache_write_input_tokens" with
  | some a, some b, some c =>
      u.put "input_tokens" (.derived ((checkedAdd a b).bind fun n => checkedAdd n c))
  | _, _, _ => u

def detail : CanonicalUsage :=
  { u with cacheWriteDetails := u.cacheWriteDetails ++ lifetimes.filterMap fun (ttl, path) =>
      (u.reported.get path).map fun c => ⟨ttl, c⟩ }

def checkDetails : CanonicalUsage :=
  if u.cacheWriteDetails.length = 2 then
    let sum := u.cacheWriteDetails.foldlM
      (fun sum d => d.inputTokens.value.bind fun n => checkedAdd sum n) 0
    match sum, u.value "cache_write_input_tokens" with
    | some sum, some total =>
        if sum ≠ total then u.refuse "cache_write_input_tokens" "ttl_mismatch" else u
    | _, _ => u
  else u

def messages : CanonicalUsage := u.sumInput.detail.checkDetails

def partition (profile : Profile) : CanonicalUsage :=
  match u.value "input_tokens", u.value "cache_read_input_tokens",
    u.value "cache_write_input_tokens" with
  | some input, some read, some write =>
      match (checkedSub input read).bind fun n => checkedSub n write with
      | some regular =>
          if profile ≠ .messagesV1 then
            u.put "input_regular_tokens" (.derived (some regular))
          else u
      | none => (u.refuse "cache_read_input_tokens" "input_partition").refuse
          "cache_write_input_tokens" "input_partition"
  | _, _, _ => u

def subset (field parent : String) : CanonicalUsage :=
  match u.value field, u.value parent with
  | some n, some max => if n > max then u.refuse field "subset_exceeds_total" else u
  | _, _ => u

def subsets : CanonicalUsage :=
  ((u.subset "cache_read_input_tokens" "input_tokens").subset
    "cache_write_input_tokens" "input_tokens").subset "reasoning_output_tokens" "output_tokens"

def totals : CanonicalUsage :=
  match u.value "input_tokens", u.value "output_tokens" with
  | some a, some b =>
      let sum := checkedAdd a b
      match u.value "total_tokens" with
      | some total => if sum ≠ some total then u.refuse "total_tokens" "total_mismatch" else u
      | none =>
          if (u.counters.get "total_tokens").map (·.source) = some .notReported then
            u.put "total_tokens" (.derived sum)
          else u
  | _, _ => u

def finish : CanonicalUsage := if !u.violations.any (· = "invalid_counter") then u.flag else u

def validate : Bool :=
  u.counters.size = fields.length && fields.all u.counters.contains &&
    u.counters.values.all (·.shaped) && u.reported.values.all (·.shaped) &&
    u.cacheWriteDetails.all (·.inputTokens.shaped) && u.cacheWriteDetails.length ≤ 16 &&
    u.reported.size ≤ 16 && u.violations.length ≤ 32 && u.reported.keys.all allowedPath &&
    u.violations.all (· ∈ ["invalid_counter", "input_partition", "total_mismatch",
      "subset_exceeds_total", "ttl_mismatch", "counter_decreased"])

end CanonicalUsage

/-- What only one profile does. -/
def CanonicalUsage.profiled (u : CanonicalUsage) : Profile → CanonicalUsage
  | .deepSeekV1 => u.deepSeek
  | .geminiInteractionsV1 => u.geminiInteractions
  | .messagesV1 => u.messages
  | .responsesV1 | .chatV1 => u

def normalize (profile : Profile) (reported : Counters) : CanonicalUsage :=
  (((((CanonicalUsage.reporting reported).fill profile).flag.profiled profile).partition
    profile).subsets.totals).finish

end Normalization

section Accumulation

structure Accumulator where
  profile : Profile
  reported : Counters
  usage : CanonicalUsage
  incomplete : Bool

def Accumulator.new (profile : Profile) : Accumulator := ⟨profile, .empty, .default, false⟩

/-- The paths that are taken for a profile. -/
def takes (profile : Profile) (path : String) : Bool :=
  (paths profile).any (·.2 = path) ||
    (profile = .messagesV1 && lifetimes.any (·.2 = path))

/-- A counter that follows another one of its path. -/
def decreases (old : Option Counter) (c : Counter) : Bool :=
  match old.bind (·.value), c.value with
  | some old, some new => new < old
  | _, _ => false

structure Merge where
  reported : Counters
  incomplete : Bool
  decreased : Bool

def Merge.take (profile : Profile) (s : Merge) (entry : String × Counter) : Merge :=
  let (path, c) := entry
  if !takes profile path then { s with incomplete := true }
  else if decreases (s.reported.get path) c then
    { s with reported := s.reported.insert path .invalid, decreased := true }
  else { s with reported := s.reported.insert path c }

def Accumulator.observeCounters (a : Accumulator) (counters : Counters) : Bool × Accumulator :=
  let s := counters.entries.foldl (Merge.take a.profile) ⟨a.reported, a.incomplete, false⟩
  let next := normalize a.profile s.reported
  let next := if s.decreased then
      { next with violations := next.violations ++ ["counter_decreased"] }
    else next
  (next ≠ a.usage, { a with
    reported := s.reported, usage := next, incomplete := s.incomplete || s.decreased })

def Accumulator.observe (a : Accumulator) (value : Json) : Bool × Accumulator :=
  { a with incomplete := a.incomplete || !value.isObject }.observeCounters
    (extract a.profile value)

end Accumulation

section Events

inductive EventKind where
  | attemptStarted
  | usageUpdated
  | attemptFinished
  deriving DecidableEq, Repr

/-- An event, with the parts that its checks read. -/
structure UsageEvent where
  schema : String
  producerId : String
  requestId : String
  attemptId : String
  eventId : String
  revision : UInt64
  kind : EventKind
  startedAtMs : UInt64
  observedAtMs : UInt64
  provider : String
  modelAlias : String
  upstreamModel : String
  reportedModel : Option String
  providerRequestId : Option String
  providerResponseId : Option String
  profile : Profile
  configurationSha256 : String
  usage : CanonicalUsage

def safeLabel (v : String) : Bool :=
  !v.isEmpty && v.utf8ByteSize ≤ 200 &&
    v.toList.all fun c => c.isAlphanum || c ∈ ['-', '_', '/', '.', ':']

namespace UsageEvent

variable (e : UsageEvent)

/-- What it says is what its reported counters say. -/
def consistent : Bool :=
  let normalized := normalize e.profile e.usage.reported
  e.usage.counters = normalized.counters &&
    e.usage.cacheWriteDetails = normalized.cacheWriteDetails &&
    e.usage.violations.filter (· ≠ "counter_decreased") = normalized.violations &&
    e.usage.reported.values.all fun c => c.source ≠ .derived && c.source ≠ .notApplicable

def labelled : Bool :=
  ([e.producerId, e.requestId, e.attemptId, e.eventId, e.provider, e.modelAlias,
    e.upstreamModel].all safeLabel) &&
  [e.reportedModel, e.providerRequestId, e.providerResponseId].all (·.all safeLabel)

def digested : Bool :=
  e.configurationSha256.utf8ByteSize = 64 && e.configurationSha256.toList.all isLowerHex

/-- Only the first event of an attempt has revision zero. -/
def revised : Bool :=
  (e.kind ≠ .attemptStarted || e.revision = 0) && (e.kind = .attemptStarted || e.revision > 0)

def validate : Bool :=
  e.schema = Usage.schema && e.consistent && e.labelled && e.digested &&
    e.observedAtMs ≥ e.startedAtMs && e.usage.validate && e.revised

end UsageEvent

end Events

end ResponseGateway.Usage
