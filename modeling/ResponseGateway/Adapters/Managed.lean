import ResponseGateway.Adapters.Json
import ResponseGateway.Ir.NativeState
import ResponseGateway.Usage.Display

/-!
`adapters::managed`: the accounting of an exchange and its output, with the projection of
the counters to the usage of the response; and the projection of `adapters::messages`,
which counts cached tokens as input.
-/

namespace ResponseGateway.Adapters
open Checked Ir
open Usage (Profile CanonicalUsage extract normalize safeLabel checkedAdd)
open Json (ofFields)

structure Accounting where
  usage : CanonicalUsage
  model : Option String
  responseId : Option String
  upstream : Usage.Outcome
  deriving DecidableEq

namespace Accounting

/-- The counters of a usage object that may be missing. -/
def usageOf (profile : Profile) (usage : Option Json) : CanonicalUsage :=
  normalize profile (extract profile ((usage.filter (!·.isNull)).getD (ofFields [])))

def new (profile : Profile) (usage : Option Json) (metadata : Json) (upstream : Usage.Outcome) :
    Accounting :=
  { usage := usageOf profile usage
    model := (metadata.fieldStr "model").filter safeLabel
    responseId := (metadata.fieldStr "id").filter safeLabel
    upstream }

end Accounting

structure ManagedOutput where
  response : Json
  native : NativeReplay
  outcome : Outcome
  usage : Json
  accounting : Accounting

namespace ManagedOutput

/-- A detail object without its counter is left out. -/
def dropDetails (usage : Json) (entry : String × String) : Except (Fault IrError) Json :=
  if ((usage.lookup entry.1).lookup entry.2).asU64.isSome then return usage
  else do
    let fields ← okOr usage.asObject .panic
    return .object (Assoc.erase entry.1 fields)

def projectUsage (self : ManagedOutput) : Except (Fault IrError) ManagedOutput :=
  if ["input_tokens", "output_tokens", "total_tokens"].any fun key =>
      (self.usage.lookup key).asU64.isNone then do
    let response ← self.response.setAt "usage" .null
    return { self with response }
  else do
    let usage ← [("input_tokens_details", "cached_tokens"),
      ("output_tokens_details", "reasoning_tokens")].foldlM dropDetails self.usage
    let response ← self.response.setAt "usage" usage
    return { self with response }

end ManagedOutput

section Messages

def messagesNumber (usage : Json) (field : String) : Except IrError UInt64 :=
  okOr (((usage.field field).bind (·.asU64)).map .ofNat) (.invalidField "usage")

/-- The input of a message with the cached tokens, what was generated, and their sum. -/
def messagesUsage (usage : Json) : Except IrError (UInt64 × UInt64 × UInt64) := do
  let input ← messagesNumber usage "input_tokens"
  let generated ← messagesNumber usage "output_tokens"
  let inputTotal ← ["cache_read_input_tokens", "cache_creation_input_tokens"].foldlM
    (fun total field => do
      if (usage.field field).isSome then
        let more ← messagesNumber usage field
        okOr (checkedAdd total more) (.invalidField "usage")
      else return total) input
  let total ← okOr (checkedAdd inputTotal generated) (.invalidField "usage")
  return (inputTotal, generated, total)

def responseUsage (raw : Json) (input output total : UInt64) : Except (Fault IrError) Json := do
  let result := (normalize .messagesV1 (extract .messagesV1 raw)).responses
  let result ← result.setAt "input_tokens" (Usage.counterJson (some input))
  let result ← result.setAt "output_tokens" (Usage.counterJson (some output))
  result.setAt "total_tokens" (Usage.counterJson (some total))

def projectedUsage (raw : Json) : Except (Fault IrError) Json := do
  let (input, output, total) ← lift (messagesUsage raw)
  responseUsage raw input output total

end Messages

end ResponseGateway.Adapters
