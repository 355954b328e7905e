import ResponseGateway.Adapters.Json
import ResponseGateway.Usage.Contract

/-!
How `gateway_usage_contract` writes counters for a client of the Responses API.
-/

namespace ResponseGateway.Usage
open Json (ofFields)

/-- What became of an attempt. -/
inductive Outcome where
  | unknown
  | inProgress
  | completed
  | incomplete
  | failed
  | cancelled
  | transportLost
  | conversionFailed
  | observationIncomplete
  deriving DecidableEq, Repr

/-- `json!` of a counter. -/
def counterJson (value : Option UInt64) : Json :=
  (value.map fun n => Json.number (.ofNat n.toNat)).getD .null

namespace CanonicalUsage

variable (u : CanonicalUsage)

/-- The details of a group, those of its counters that have a value. -/
def details (group : String) (entries : List (String × String)) : Json.Fields :=
  let present := entries.filterMap fun entry =>
    (u.value entry.1).map fun n => (entry.2, counterJson (some n))
  if present.isEmpty then [] else [(group, ofFields present)]

def responses : Json :=
  ofFields ([("input_tokens", counterJson (u.value "input_tokens")),
      ("output_tokens", counterJson (u.value "output_tokens")),
      ("total_tokens", counterJson (u.value "total_tokens"))] ++
    u.details "input_tokens_details" [("cache_read_input_tokens", "cached_tokens"),
      ("cache_write_input_tokens", "cache_write_tokens")] ++
    u.details "output_tokens_details" [("reasoning_output_tokens", "reasoning_tokens")])

end CanonicalUsage

end ResponseGateway.Usage
