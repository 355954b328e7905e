import ResponseGateway.Adapters.Json
import ResponseGateway.Usage.Recorded

/-!
`provider_plugins::usage`: the counters that a provider plugin reports, what is read of them
and how a report follows another one. How a frame is read as a value of the contract is a
parameter.
-/

namespace ResponseGateway.Providers
open Usage

section Contract

inductive SnapshotCounter where
  | reported (value : UInt64)
  | notReported
  | notApplicable
  | invalid
  deriving DecidableEq

structure SnapshotCounters where
  inputTokens : SnapshotCounter
  outputTokens : SnapshotCounter
  totalTokens : SnapshotCounter
  inputRegularTokens : SnapshotCounter
  cacheReadInputTokens : SnapshotCounter
  cacheWriteInputTokens : SnapshotCounter
  reasoningOutputTokens : SnapshotCounter
  deriving DecidableEq

inductive UsageSnapshot where
  | unobserved
  | observed (counters : SnapshotCounters)
  deriving DecidableEq

def SnapshotCounters.entries (c : SnapshotCounters) : List (String × SnapshotCounter) := [
  ("input_tokens", c.inputTokens), ("output_tokens", c.outputTokens),
  ("total_tokens", c.totalTokens), ("input_regular_tokens", c.inputRegularTokens),
  ("cache_read_input_tokens", c.cacheReadInputTokens),
  ("cache_write_input_tokens", c.cacheWriteInputTokens),
  ("reasoning_output_tokens", c.reasoningOutputTokens)]

end Contract

section Observing

/-- One reported counter. -/
def takeCounter (u : CanonicalUsage) (entry : String × SnapshotCounter) : CanonicalUsage :=
  match entry.2 with
  | .reported value => u.put entry.1 ⟨some value, .reported⟩
  | .notReported => u.put entry.1 ⟨none, .notReported⟩
  | .notApplicable => u.put entry.1 ⟨none, .notApplicable⟩
  | .invalid => u.refuse entry.1 "invalid_counter"

def sourceOf (u : CanonicalUsage) (field : String) : Option Source :=
  (u.counters.get field).map (·.source)

def addTotal (u : CanonicalUsage) : CanonicalUsage :=
  match u.value "input_tokens", u.value "output_tokens" with
  | some input, some output =>
      match checkedAdd input output with
      | none => u.refuse "total_tokens" "total_mismatch"
      | some sum =>
          if (u.value "total_tokens").any (· ≠ sum) then u.refuse "total_tokens" "total_mismatch"
          else if sourceOf u "total_tokens" = some .notReported then
            u.put "total_tokens" ⟨some sum, .derived⟩
          else u
  | _, _ => u

def checkParts (u : CanonicalUsage) : CanonicalUsage :=
  (((u.subset "input_regular_tokens" "input_tokens").subset "cache_read_input_tokens"
    "input_tokens").subset "cache_write_input_tokens" "input_tokens").subset
      "reasoning_output_tokens" "output_tokens"

/-- The parts of the input are more than it, or are all known and are not all of it. -/
def exceeded (u : CanonicalUsage) : Bool :=
  match knownParts u inputParts with
  | none => true
  | some sum => (u.value "input_tokens").any fun input =>
      sum > input || inputParts.all (fun f => (u.value f).isSome) && sum ≠ input

def refusePart (u : CanonicalUsage) (field : String) : CanonicalUsage :=
  if (u.value field).isSome then u.refuse field "input_partition" else u

def refusePartition (u : CanonicalUsage) : CanonicalUsage :=
  let u := ("input_tokens" :: inputParts).foldl refusePart u
  if sourceOf u "total_tokens" = some .derived then u.refuse "total_tokens" "input_partition" else u

def checkPartition (u : CanonicalUsage) : CanonicalUsage :=
  if exceeded u then refusePartition u else u

def takeSnapshot : UsageSnapshot → CanonicalUsage
  | .unobserved => .default
  | .observed counters => counters.entries.foldl takeCounter .default

/-- Preserves what is invalid from what is missing. -/
def observe (snapshot : UsageSnapshot) : CanonicalUsage :=
  checkPartition (checkParts (addTotal (takeSnapshot snapshot)))

/-- One counter of a report that follows another one. -/
def follow (previous u : CanonicalUsage) (field : String) : CanonicalUsage :=
  if sourceOf u field = some .invalid then u
  else
    match previous.value field with
    | some old =>
        if (u.value field).all (· < old) then u.refuse field "counter_decreased" else u
    | none => u

/-- A total that was derived does not stay when what it was derived from does not. -/
def withdrawTotal (u : CanonicalUsage) : CanonicalUsage :=
  if sourceOf u "total_tokens" = some .derived &&
      ["input_tokens", "output_tokens"].any (fun f => sourceOf u f = some .invalid) then
    u.refuse "total_tokens" "counter_decreased"
  else u

def observeCumulative (previous current : CanonicalUsage) : CanonicalUsage :=
  withdrawTotal (fields.foldl (follow previous) current)

theorem observeCumulative_eq (previous current : CanonicalUsage) :
    observeCumulative previous current =
      withdrawTotal (fields.foldl (follow previous) current) := rfl

-- A method that looks at the result is not to be run on the way.
attribute [irreducible] observeCumulative

end Observing

section Recovering

/-- What is read of a frame: its value of the contract, and those of its parts. -/
structure Wire (ρ : Type) where
  reply : Json → Option ρ
  snapshot : Json → Option UsageSnapshot
  counter : Json → Option SnapshotCounter

def invalidUsage : CanonicalUsage :=
  fields.foldl (fun u field => u.refuse field "invalid_counter") .default

/-- The counters of an object that has the shape of a report. -/
def reportedCounters (value : Json) : Option Json.Fields := do
  let usage ← value.asObject
  let counters ← (value.lookup "counters").asObject
  if usage.length = 2 && (value.field "kind").isSome && (value.field "counters").isSome &&
      value.lookup "kind" = .string "observed" && counters.length = fields.length &&
      fields.all (fun f => (Assoc.get f counters).isSome) then some counters
  else none

variable {ρ : Type} (wire : Wire ρ)

def sanitize (counters : Json.Fields) : Json :=
  .object (fields.foldl (fun counters field =>
    if (wire.counter ((Assoc.get field counters).getD .null)).isNone then
      Assoc.insert field (.object [("source", .string "invalid")]) counters
    else counters) counters)

def observeWire (value : Json) : CanonicalUsage :=
  match wire.snapshot value with
  | some snapshot => observe snapshot
  | none =>
      let sanitized := (reportedCounters value).bind fun counters =>
        wire.snapshot (.object (Assoc.insert "counters" (sanitize wire counters)
          (value.asObject.getD [])))
      (sanitized.map observe).getD invalidUsage

end Recovering

def ensureValid (u : CanonicalUsage) : Except Ir.IrError Unit :=
  Checked.rejectIf (!u.violations.isEmpty) (.invalidField "provider_usage")

/-- The usage of a response is the one that was observed; without one, it may be missing. -/
def verifyResponse (response : Json) (u : CanonicalUsage) : Except Ir.IrError Unit :=
  let actual := response.field "usage"
  Checked.rejectIf (!(actual = some u.responses ||
    !u.counters.values.any (·.value.isSome) && actual.all (·.isNull)))
    (.invalidField "provider_usage")

end ResponseGateway.Providers
