import ResponseGateway.Adapters.Managed
import ResponseGateway.Adapters.ResponsesStream
import ResponseGateway.Codecs.Verification
import ResponseGateway.Library.StableSort

/-!
`codecs::execution`: what the host does with the answers of a codec process. The answers
are arguments here, so that nothing is assumed of the codec. A run ends with the first
error: the callers drop the stream.
-/

namespace ResponseGateway.Codecs
open Checked Ir Adapters
open Usage (Profile CanonicalUsage Counter Accumulator counterJson safeLabel)
open Json (ofFields)

section Conversion

structure ManagedResult where
  response : Json
  native : NativeReplay
  outcome : Outcome
  accounting : Accounting

inductive ResultValue where
  | ready
  | prepared (payload : Json)
  | json (response : Json)
  | managed (value : ManagedResult)
  | progress (events : List Json) (complete : Bool) (accounting : Option Accounting)
  | finished
  | rejected

/-- What `Session::call` returns. -/
abbrev Answer := Except IrError ResultValue

end Conversion

section Usage

/-- One path of the counters, written back to where it was read. -/
def displayPath (raw : Json) (entry : String × Counter) : Except (Fault IrError) Json := do
  rejectIf (entry.2.source = .invalid) (.error (.invalidField "usage"))
  match (entry.1.toList.splitOn '.').map String.ofList with
  | [first] => raw.setAt first (counterJson entry.2.value)
  | [first, second] => do
      let group ← ((raw.field first).getD (.object [])).setAt second (counterJson entry.2.value)
      raw.setAt first group
  | _ => .error (.error (.invalidField "usage"))

/-- The counters that a response may show for what was observed. -/
def displayUsage (profile : Profile) (observed : CanonicalUsage) :
    Except (Fault IrError) CanonicalUsage :=
  if profile ≠ .messagesV1 then return observed
  else do
    let raw ← observed.reported.entries.foldlM displayPath (ofFields [])
    let display ← projectedUsage raw
    return (Accounting.new .responsesV1 (some display) .null .completed).usage

def verifiedFields : List String :=
  ["input_tokens", "output_tokens", "total_tokens", "cache_read_input_tokens",
    "cache_write_input_tokens", "reasoning_output_tokens"]

/-- A counter that differs from what is expected; where nothing is, zero is no difference. -/
def fabricated (projected expected : CanonicalUsage) (field : String) : Bool :=
  (projected.value field).any fun value =>
    match expected.value field with
    | some expected => value ≠ expected
    | none => value ≠ 0

def verifyUsage (response : Json) (expected : CanonicalUsage) : Except IrError Unit :=
  let projected := Accounting.new .responsesV1 (response.field "usage") response .completed
  rejectIf (verifiedFields.any (fabricated projected.usage expected)) (.invalidField "codec_usage")

end Usage

section Outputs

def validateNative (native : NativeReplay) (api : ApiProtocol) : Except IrError Unit := do
  native.validate
  match native, api with
  | .gemini _ _, .geminiInteractions | .messages _ _ _, .messages
  | .chat _ _ _ _, .chatCompletions => return ()
  | _, _ => .error .continuityMismatch

inductive CodecOutput where
  | stateless (response : Json)
  | managed (output : ManagedOutput)

/-- A response is complete, and waits for tools when it calls one. -/
def checkOutcome (response : Json) (outcome : Outcome) : Except IrError Unit := do
  let output ← okOr (response.lookup "output").asArray .invalidEventOrder
  rejectIf (response.lookup "status" ≠ .string "completed" ||
    decide (outcome = .awaitingTools) != output.any isTool) .invalidEventOrder

structure PreparedCodec where
  verifier : PreparedResponses
  managed : Bool
  profile : Profile
  maximum : Nat
  api : ApiProtocol
  model : String

namespace PreparedCodec

variable (texts : Texts) (self : PreparedCodec)

def verify (response : Json) : Except (Fault IrError) Json := do
  rejectIf (self.maximum < Text.len response.render) (.error .sizeLimit)
  (PreparedResponses.decodeBytes texts response.render self.verifier).1

def output (value : ResultValue) : Except (Fault IrError) CodecOutput :=
  match value, self.managed with
  | .json response, false => do
      let response ← self.verify texts response
      return .stateless response
  | .managed value, true => do
      lift (validateNative value.native self.api)
      let response ← self.verify texts value.response
      lift (checkOutcome response value.outcome)
      return .managed {
        response, native := value.native, outcome := value.outcome
        usage := value.accounting.usage.responses, accounting := value.accounting }
  | _, _ => .error (.error .invalidEventOrder)

/-- The body says that the provider ended its turn. -/
def terminalBody (raw : Json) : Bool :=
  match self.api with
  | .messages => (raw.fieldStr "stop_reason").any fun s => s = "end_turn" || s = "tool_use"
  | .chatCompletions =>
      ((((raw.lookup "choices").asArray.bind (·[0]?)).bind (·.fieldStr "finish_reason"))).any
        fun s => s = "stop" || s = "tool_calls"
  | .geminiInteractions =>
      (raw.fieldStr "status").any fun s => s = "completed" || s = "requires_action"
  | _ => false

/-- A body that is no text is rejected. -/
def json (body : Option Text) (answer : Answer) : Except (Fault IrError) CodecOutput := do
  let body ← lift (okOr body (.invalidField "upstream_json"))
  let value ← lift answer
  let raw ← lift (decode body)
  rejectIf (raw.lookup "model" ≠ .string self.model) (.error (.invalidField "codec_provider_model"))
  rejectIf (self.managed && !self.terminalBody raw) (.error .invalidEventOrder)
  let decoded ← self.output texts value
  let accounting := Accounting.new self.profile (raw.field "usage") raw .completed
  match decoded with
  | .stateless response => do
      let expected ← displayUsage self.profile accounting.usage
      lift (verifyUsage response expected)
      return .stateless response
  | .managed output => do
      rejectIf (!accounting.usage.violations.isEmpty ||
        decide (accounting.usage ≠ output.accounting.usage)) (.error (.invalidField "codec_accounting"))
      let output ← ManagedOutput.projectUsage
        { output with accounting, usage := accounting.usage.responses }
      return .managed output

end PreparedCodec

end Outputs

section Streams

structure CodecStream where
  output : PreparedResponses
  verifier : Option ResponsesStream
  managed : Bool
  maximum : Nat
  profile : Profile
  api : ApiProtocol
  model : String
  complete : Bool
  accounting : Option Accounting
  rawUsage : Accumulator
  progress : Progress
  terminalObserved : Bool
  rawModel : Option String
  rawId : Option String
  held : List Json
  gating : Bool
  sequence : Nat

/-- The codec answers that it is ready for events. -/
def PreparedCodec.stream (self : PreparedCodec) (answer : Answer) : Except IrError CodecStream := do
  match ← answer with
  | .progress [] false none => do
      let verifier ← if self.managed then pure none
        else some <$> ResponsesStream.new self.verifier self.maximum
      return {
        output := self.verifier, verifier, managed := self.managed, maximum := self.maximum
        profile := self.profile, api := self.api, model := self.model, complete := false
        accounting := none, rawUsage := .new self.profile, progress := .default
        terminalObserved := false, rawModel := none, rawId := none, held := [], gating := false
        sequence := 0 }
  | _ => .error .invalidEventOrder

namespace CodecStream

variable (texts : Texts)

section Observing

/-- The event that ends what a provider says. -/
def endsProvider (self : CodecStream) (value : Json) : Bool :=
  decide (self.api = .messages) && decide (value.lookup "type" = .string "message_stop") ||
    decide (self.api = .responses) && (value.fieldStr "type").any fun type =>
      type = "response.completed" || type = "response.incomplete" || type = "response.failed"

/-- Where an event says which model answers. -/
def metadataOf (value : Json) : Json :=
  (((value.field "message").or (value.field "interaction")).or (value.field "response")).getD value

def label (metadata : Json) (key : String) (known : Option String) : Option String :=
  ((metadata.fieldStr key).filter safeLabel).or known

/-- Where an event has its counters. -/
def usageField (profile : Profile) (value : Json) : Option Json :=
  match profile with
  | .responsesV1 => (value.field "response").bind (·.field "usage")
  | .messagesV1 => (value.field "usage").or ((value.field "message").bind (·.field "usage"))
  | .geminiInteractionsV1 =>
      (value.field "usage").or ((value.field "interaction").bind (·.field "usage"))
  | _ => value.field "usage"

def observe (value : Json) (self : CodecStream) : Except IrError CodecStream := do
  let metadata := metadataOf value
  rejectIf ((metadata.field "model").any (· ≠ .string self.model))
    (.invalidField "codec_provider_model")
  rejectIf (self.rawId.any fun id => (metadata.field "id").any (· ≠ .string id)) .invalidEventOrder
  let rawUsage := match (usageField self.profile value).filter (!·.isNull) with
    | some usage => (self.rawUsage.observe usage).2
    | none => self.rawUsage
  return { self with
    terminalObserved := self.terminalObserved || self.endsProvider value
    rawModel := label metadata "model" self.rawModel
    rawId := label metadata "id" self.rawId
    rawUsage }

def checkAccounting (self : CodecStream) (accounting : Accounting) : Except IrError Unit :=
  rejectIf (self.rawUsage.incomplete ||
    decide (accounting.usage.reported ≠ self.rawUsage.usage.reported))
    (.invalidField "codec_accounting")

end Observing

section Managed

/-- The checks of one event that a managed codec publishes. -/
def verifyProgressEvent (prepared : PreparedResponses) (event : Json) : Except IrError Unit := do
  if event.lookup "type" = .string "response.created" then
    let response := event.lookup "response"
    knownFields response ["id", "object", "status", "output"]
    let text ← string response "id"
    let _ : ResponseId ← Identity.new text
    rejectIf (response.lookup "object" ≠ .string "response" ||
      response.lookup "status" ≠ .string "in_progress" ||
      response.lookup "output" ≠ .array []) .invalidEventOrder
  rejectIf (((event.lookup "item").lookup "type" = .string "reasoning" ||
      (event.fieldStr "type").any fun type => type.startsWith "response.reasoning_") &&
    !prepared.supportsReasoning) .unsupportedFeature

/-- The accounting of a codec with what the host knows itself. -/
def provenAccounting (self : CodecStream) (accounting : Accounting) (complete : Bool) :
    Accounting :=
  { accounting with
    usage := self.rawUsage.usage, model := self.rawModel, responseId := self.rawId
    upstream := if complete then .completed else .inProgress }

def managedEvent (events : List Json) (accounting : Option Accounting) (self : CodecStream) :
    Except IrError (List Json × CodecStream) := do
  let accounting ← okOr accounting (.invalidField "codec_accounting")
  self.checkAccounting accounting
  let self := { self with accounting := some (self.provenAccounting accounting self.complete) }
  events.forM (verifyProgressEvent self.output)
  let progress ← self.progress.observe events self.maximum
  return (events, { self with progress })

end Managed

section Stateless

/-- The events that the verifier emits for the events of a codec. -/
def checkEvents : List Json → StreamMethod (List Json)
  | [] => return []
  | event :: rest => do
      let type ← ResponsesStream.ensure (okOr (event.fieldStr "type") .invalidEventOrder)
      let checked ← ResponsesStream.event texts ⟨type.toList, event.render⟩
      let more ← checkEvents rest
      return checked ++ more

/-- The checks at the end of a stream, or before it. -/
def checkEnd (checked : List Json) (verifier : ResponsesStream) (last : Answer)
    (self : CodecStream) : Except (Fault IrError) Unit :=
  if self.complete then do
    lift verifier.finish
    let terminal ← lift (okOr (checked.findSome? (·.field "response")) .invalidEventOrder)
    let expected ← displayUsage self.profile self.rawUsage.usage
    lift (verifyUsage terminal expected)
    match ← lift last with
    | .finished => return ()
    | _ => .error (.error .invalidEventOrder)
  else lift (rejectIf verifier.isComplete .invalidEventOrder)

def isToolAdded (event : Json) : Bool :=
  isAdded event && (announced event "type").any isToolType

/-- One turn of the loop over the checked events: from the first tool on, events are held. -/
def gate (acc : List Json × CodecStream) (event : Json) : List Json × CodecStream :=
  let self := if isToolAdded event then { acc.2 with gating := true } else acc.2
  if self.gating then (acc.1, { self with held := self.held ++ [event] })
  else (acc.1 ++ [event], self)

def indexOf (event : Json) : Nat := ((event.lookup "output_index").asU64).getD (2 ^ 64 - 1)

/-- At the end, the held events follow in the order of their items. -/
def release (published : List Json) (self : CodecStream) : List Json × CodecStream :=
  if self.complete then
    (published ++ StableSort.sortByKey indexOf self.held, { self with held := [] })
  else (published, self)

/-- The events with the numbers from one on. -/
def number : Nat → List Json → Except (Fault IrError) (List Json)
  | _, [] => return []
  | n, event :: rest => do
      let event ← event.setAt "sequence_number" (.number (.ofNat n))
      let rest ← number (n + 1) rest
      return event :: rest

def statelessEvent (events : List Json) (accounting : Option Accounting) (last : Answer)
    (self : CodecStream) : Except (Fault IrError) (List Json × CodecStream) := do
  rejectIf accounting.isSome (.error (.invalidField "codec_accounting"))
  let verifier ← lift (okOr self.verifier .invalidEventOrder)
  match checkEvents texts events verifier with
  | (.error fault, _) => .error fault
  | (.ok checked, verifier) => do
      let self := { self with verifier := some verifier }
      checkEnd checked verifier last self
      let (published, self) := checked.foldl gate ([], self)
      rejectIf (self.maximum < Text.len (Json.array self.held).render) (.error .sizeLimit)
      let (published, self) := release published self
      let published ← number self.sequence published
      return (published, { self with sequence := self.sequence + published.length })

end Stateless

section Events

/-- An event of the provider, and what the codec answers to it. -/
structure Exchange where
  event : SseEvent
  answer : Answer
  /-- The answer to the second call, which only the end of a stream makes. -/
  last : Answer

def doneData : Text := "[DONE]".toList

/-- What the host takes from an event itself. -/
def observeEvent (event : SseEvent) (self : CodecStream) : Except IrError CodecStream :=
  let ends := decide (event.data = doneData) &&
    (decide (self.api = .chatCompletions) || decide (self.api = .geminiInteractions))
  let self := { self with terminalObserved := self.terminalObserved || ends }
  match decode event.data with
  | .ok raw => self.observe raw
  | .error _ => return self

def event (x : Exchange) (self : CodecStream) :
    Except (Fault IrError) (List Json × CodecStream) := do
  rejectIf self.complete (.error .invalidEventOrder)
  let self ← lift (observeEvent x.event self)
  match ← lift x.answer with
  | .progress events complete accounting => do
      rejectIf (complete && (!self.terminalObserved || !self.rawUsage.usage.violations.isEmpty))
        (.error .invalidEventOrder)
      let self := { self with complete }
      if self.managed then lift (managedEvent events accounting self)
      else statelessEvent texts events accounting x.last self
  | _ => .error (.error .invalidEventOrder)

end Events

section Finishing

def finish (answer : Answer) (self : CodecStream) : Except (Fault IrError) ManagedOutput := do
  rejectIf (!self.complete || !self.managed) (.error .invalidEventOrder)
  match ← lift answer with
  | .managed value => do
      lift (validateNative value.native self.api)
      rejectIf (self.maximum < Text.len value.response.render) (.error .sizeLimit)
      let response ← (PreparedResponses.decodeBytes texts value.response.render self.output).1
      lift (checkOutcome response value.outcome)
      lift (self.checkAccounting value.accounting)
      rejectIf (!self.rawUsage.usage.violations.isEmpty) (.error (.invalidField "usage"))
      let output ← ManagedOutput.projectUsage {
        response, native := value.native, outcome := value.outcome
        usage := self.rawUsage.usage.responses
        accounting := self.provenAccounting value.accounting true }
      lift (self.progress.finish output.response)
      return output
  | _ => .error (.error .invalidEventOrder)

end Finishing

end CodecStream

end Streams

end ResponseGateway.Codecs
