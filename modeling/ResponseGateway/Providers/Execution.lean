import ResponseGateway.Codecs.Execution
import ResponseGateway.Continuation.Replay
import ResponseGateway.Providers.Usage
import ResponseGateway.Usage.Attempt

/-!
`provider_plugins::process` and `provider_plugins::execution`: what the host takes from the
replies of a plugin. A reply is the frame that the process answers, or the reason why there
is none; the process is not described further. A method keeps what it changed before it
failed, and a request that fails poisons its session.
-/

namespace ResponseGateway.Providers
open Checked Ir Adapters Usage
open Codecs (Progress)
open Continuation (Base64 decodeProviderState)

section Contract

inductive ProviderOutcome where
  | completed
  | awaitingTools
  | incomplete
  deriving DecidableEq

inductive StateResult where
  | none
  | opaqueState (format : String) (version : Nat) (dataBase64 : String)

structure Completed where
  response : Json
  outcome : ProviderOutcome
  usage : UsageSnapshot
  state : StateResult

inductive ResultValue where
  | ready
  | prepared (payload : Json)
  | progress (events : List Json) (complete : Bool) (usage : UsageSnapshot)
  | completed (value : Completed)
  | rejected

end Contract

section Sessions

structure Session where
  sequence : UInt64
  failed : Bool
  attemptedUsage : Option CanonicalUsage

namespace Session

variable (wire : Wire ResultValue)

def poison (s : Session) : Session := { s with failed := true }

/-- The usage that a frame states, whether or not it is a reply. -/
def attempted (raw : Json) : Option CanonicalUsage :=
  let value := raw.lookup "value"
  match value.fieldStr "result" with
  | some "progress" => some (observeWire wire (value.lookup "usage"))
  | some "completed" => some (observeWire wire ((value.lookup "value").lookup "usage"))
  | _ => none

def receive (raw : Json) : Method Session IrError ResultValue := do
  let s ← Method.read
  Method.check (rejectIf (raw.lookup "protocol" ≠ .string providerProtocol ||
    (raw.lookup "sequence").asU64 ≠ some s.sequence.toNat) .unsupportedVersion)
  Method.write fun s => { s with attemptedUsage := (attempted wire raw).or s.attemptedUsage }
  match ← Method.check (okOr (wire.reply raw) .unsupportedVersion) with
  | .rejected => Method.check (.error .unsupportedFeature)
  | value => return value

def exchange (answer : Except IrError Json) : Method Session IrError ResultValue := do
  let s ← Method.read
  Method.check (rejectIf (s.sequence.toNat + 1 = 2 ^ 64) .sizeLimit)
  Method.write fun s => { s with sequence := s.sequence + 1 }
  let raw ← Method.check answer
  receive wire raw

def call (answer : Except IrError Json) : Method Session IrError ResultValue := fun s =>
  if s.failed then (.error .invalidEventOrder, s)
  else
    match exchange wire answer s with
    | (.error e, s) => (.error e, s.poison)
    | (.ok value, s) => (.ok value, s)

end Session

end Sessions

section Prepared

inductive Phase where
  | prepared
  | streaming
  | finished
  | failed
  deriving DecidableEq

structure PreparedProvider where
  session : Session
  verifier : PreparedResponses
  identity : ProviderIdentity
  maximum : Nat
  phase : Phase
  streaming : Bool
  managed : Bool
  expectedFormat : Option (String × Nat)
  model : String
  observation : ProviderObservation

/-- What the continuation keeps of a state. -/
structure ValidatedProviderState where
  format : String
  version : Nat
  bytes : ByteArray

structure ProviderOutput where
  response : Json
  outcome : ProviderOutcome
  state : Option ValidatedProviderState
  observation : ProviderObservation
  terminalEvents : List Json

/-- A body, which may be no text. -/
inductive Body where
  | text (text : Text)
  | other (size : Nat)

def Body.size : Body → Nat
  | text t => Text.len t
  | other size => size

def ProviderIdentity.stateBinding (identity : ProviderIdentity) : ProviderStateBinding :=
  ⟨identity.protocol, identity.providerProtocol, identity.id, identity.version,
    identity.packageSha256, identity.executableSha256⟩

abbrev ProviderMethod := Method PreparedProvider (Fault IrError)

namespace PreparedProvider

/-- A provider after its first request, which asked for the payload: no frame has stated a
usage yet. -/
def opened (verifier : PreparedResponses) (identity : ProviderIdentity) (maximum : Nat)
    (streaming managed : Bool) (expectedFormat : Option (String × Nat)) (model : String) :
    PreparedProvider where
  session := ⟨1, false, none⟩
  verifier := verifier
  identity := identity
  maximum := maximum
  phase := .prepared
  streaming := streaming
  managed := managed
  expectedFormat := expectedFormat
  model := model
  observation := ⟨identity, .default⟩

section Receiver

variable (self : PreparedProvider)

/-- The usage of a reply that was rejected replaces one without a violation. -/
def captureAttempt : PreparedProvider :=
  if self.observation.usage.violations.isEmpty then
    match self.session.attemptedUsage with
    | some usage => { self with observation := ⟨self.identity, usage⟩ }
    | none => self
  else self

def poison : PreparedProvider := { self with session := self.session.poison }

def fail : PreparedProvider := { self with phase := .failed }.poison

def bound (value : Json) : Except IrError Unit :=
  rejectIf (self.maximum < Text.len value.render) .sizeLimit

def acceptState (base64 : Base64) (state : StateResult) :
    Except IrError (Option ValidatedProviderState) :=
  match state, self.managed with
  | .none, false => return none
  | .opaqueState format version data, true => do
      let decoded ← (decodeProviderState base64 (ProviderIdentity.stateBinding self.identity)
        format version data).mapError fun _ => .continuityMismatch
      rejectIf (decoded.binding ≠ ProviderIdentity.stateBinding self.identity ||
        self.expectedFormat.any fun expected => expected.1 ≠ decoded.format ||
          expected.2 ≠ decoded.version) .continuityMismatch
      (ProviderIdentity.stateBinding self.identity).validate
      return some ⟨decoded.format, decoded.version, decoded.bytes⟩
  | _, _ => .error .continuityMismatch

/-- The outcome fits the response. -/
def settles (response : Json) (tools : Bool) : ProviderOutcome → Bool
  | .awaitingTools => decide (response.lookup "status" = .string "completed") && tools
  | .completed => decide (response.lookup "status" = .string "completed") && !tools
  | .incomplete => decide (response.lookup "status" = .string "incomplete") && !tools

/-- The checks of a final reply whose usage was observed. -/
def accept (texts : Texts) (base64 : Base64) (value : Completed) (responseId : String) :
    Except (Fault IrError) ProviderOutput := do
  let usage := self.observation.usage
  lift (rejectIf (responseId.isEmpty || value.response.lookup "id" ≠ .string responseId)
    .invalidEventOrder)
  let state ← lift (self.acceptState base64 value.state)
  lift (rejectIf (self.managed && value.outcome = .incomplete) .continuityMismatch)
  lift (self.bound value.response)
  lift (verifyResponse value.response usage)
  let response ← (PreparedResponses.decodeBytes texts value.response.render self.verifier).1
  lift (self.bound response)
  lift (verifyResponse response usage)
  let output ← lift (okOr (response.lookup "output").asArray .invalidEventOrder)
  lift (rejectIf (!settles response (output.any isTool) value.outcome) .invalidEventOrder)
  return {
    response, outcome := value.outcome, state, observation := ⟨self.identity, usage⟩
    terminalEvents := [] }

end Receiver

section Methods

variable (texts : Texts) (base64 : Base64) (wire : Wire ResultValue)

def call (answer : Except IrError Json) : ProviderMethod ResultValue :=
  Method.zoom (·.session) (fun session self => { self with session })
    (Method.faulting (Session.call wire answer))

def verify (value : Completed) (previous : CanonicalUsage) (responseId : String) :
    ProviderMethod ProviderOutput := do
  Method.write fun self => { self with
    observation := ⟨self.identity, observeCumulative previous (observe value.usage)⟩ }
  let self ← Method.read
  Method.check (lift (ensureValid self.observation.usage))
  Method.check (self.accept texts base64 value responseId)

/-- A failed request is recovered from, and there is no other one. -/
def settle {α : Type} (result : Except (Fault IrError) α × PreparedProvider) :
    Except (Fault IrError) α × PreparedProvider :=
  match result with
  | (.ok a, self) => (.ok a, { self with phase := .finished })
  | (.error e, self) => (.error e, self.captureAttempt.poison)

def requestJson (body : Body) (responseId : String) (answer : Except IrError Json) :
    ProviderMethod ProviderOutput := do
  let self ← Method.read
  Method.check (lift (rejectIf (self.maximum < body.size) .sizeLimit))
  match body with
  | .other _ => Method.check (.error (.error (.invalidField "upstream_json")))
  | .text text => do
      let _ ← Method.check (lift (decode text))
      match ← call wire answer with
      | .completed value => verify texts base64 value .default responseId
      | _ => Method.check (.error (.error .invalidEventOrder))

def json (body : Body) (responseId : String) (answer : Except IrError Json) :
    ProviderMethod ProviderOutput := fun self =>
  if self.phase ≠ .prepared || self.streaming then (.error (.error .invalidEventOrder), self.fail)
  else settle (requestJson texts base64 wire body responseId answer { self with phase := .failed })

end Methods

end PreparedProvider

end Prepared

section Streams

structure ProviderProgress where
  events : List Json
  observation : ProviderObservation
  semanticComplete : Bool

structure ProviderStream where
  prepared : PreparedProvider
  progress : Progress
  complete : Bool
  observation : CanonicalUsage
  inputBytes : Nat
  responseId : String
  createdAt : Option Nat

abbrev StreamMethod := Method ProviderStream (Fault IrError)

/-- The reply that opens a stream. -/
def ResultValue.opens : ResultValue → Bool
  | .progress [] false .unobserved => true
  | _ => false

def PreparedProvider.stream (wire : Wire ResultValue) (responseId : String)
    (answer : Except IrError Json) (self : PreparedProvider) :
    Except (Fault IrError) ProviderStream × PreparedProvider :=
  if self.phase ≠ .prepared || !self.streaming then
    (.error (.error .invalidEventOrder), self.fail)
  else
    match PreparedProvider.call wire answer { self with phase := .failed } with
    | (.error e, self) => (.error e, self.captureAttempt.fail)
    | (.ok value, self) =>
        if value.opens then
          let self := { self with phase := .streaming }
          (.ok {
            prepared := self, progress := .default, complete := false, observation := .default
            inputBytes := 0, responseId, createdAt := none }, self)
        else (.error (.error .invalidEventOrder), self.captureAttempt.fail)

namespace ProviderStream

variable (texts : Texts) (base64 : Base64) (wire : Wire ResultValue)

def withPrepared {α : Type} (m : ProviderMethod α) : StreamMethod α :=
  Method.zoom (·.prepared) (fun prepared self => { self with prepared }) m

/-- An event of the plugin as the checks of the progress take it: the creation of the
response is compared with what was asked for. -/
def admitEvent (event : Json) : StreamMethod Json := do
  if event.lookup "type" = .string "response.created" then do
    let self ← Method.read
    let response := event.lookup "response"
    Method.check (lift (rejectIf (self.createdAt.isSome ||
      response.lookup "id" ≠ .string self.responseId ||
      response.lookup "model" ≠ .string self.prepared.model) .invalidEventOrder))
    let time ← Method.check (lift (okOr (response.lookup "created_at").asU64 .invalidEventOrder))
    Method.write fun self => { self with createdAt := some time }
    let fields ← Method.check (lift (okOr response.asObject .invalidEventOrder))
    Method.check (event.setAt "response"
      (.object (Assoc.erase "model" (Assoc.erase "created_at" fields))))
  else return event

def admitEvents : List Json → StreamMethod (List Json)
  | [] => return []
  | event :: rest => do
      let event ← admitEvent event
      let rest ← admitEvents rest
      return event :: rest

/-- The checks of the events of a reply whose usage was observed. -/
def admitReply (events : List Json) : StreamMethod Progress := do
  let semantic ← admitEvents events
  let self ← Method.read
  Method.check (lift (semantic.forM
    (Codecs.CodecStream.verifyProgressEvent self.prepared.verifier)))
  Method.check (lift (self.progress.observeProvider events self.prepared.maximum))

def requestEvent (event : SseEvent) (answer : Except IrError Json) :
    StreamMethod ProviderProgress := do
  Method.write fun self => { self with
    inputBytes := self.inputBytes + Text.len event.event + Text.len event.data }
  let self ← Method.read
  Method.check (lift (rejectIf (self.prepared.maximum < self.inputBytes) .sizeLimit))
  match ← withPrepared (PreparedProvider.call wire answer) with
  | .progress events complete usage => do
      let observation := observeCumulative self.observation (observe usage)
      Method.write fun self => { self with
        prepared := { self.prepared with observation := ⟨self.prepared.identity, observation⟩ } }
      Method.check (lift (ensureValid observation))
      let progress ← admitReply events
      Method.write fun self => { self with progress, observation, complete }
      let self ← Method.read
      return {
        events, semanticComplete := complete
        observation := ⟨self.prepared.identity, self.observation⟩ }
  | _ => Method.check (.error (.error .invalidEventOrder))

def event (event : SseEvent) (answer : Except IrError Json) : StreamMethod ProviderProgress :=
  fun self =>
    if self.complete || decide (self.prepared.phase ≠ .streaming) then
      (.error (.error .invalidEventOrder), { self with prepared := self.prepared.fail })
    else
      match requestEvent wire event answer self with
      | (.ok progress, self) => (.ok progress, self)
      | (.error e, self) =>
          (.error e, { self with prepared := self.prepared.captureAttempt.fail })

def isComplete (self : ProviderStream) : Bool :=
  self.complete && decide (self.prepared.phase = .streaming)

def requestFinish (answer : Except IrError Json) : StreamMethod ProviderOutput := do
  let self ← Method.read
  match ← withPrepared (PreparedProvider.call wire answer) with
  | .completed value => do
      let output ← withPrepared
        (PreparedProvider.verify texts base64 value self.observation self.responseId)
      Method.check (lift (rejectIf (self.createdAt.any fun time =>
        (output.response.lookup "created_at").asU64 ≠ some time) .invalidEventOrder))
      let terminalEvents ← Method.check
        (self.progress.terminalEvents output.response self.prepared.maximum)
      return { output with terminalEvents }
  | _ => Method.check (.error (.error .invalidEventOrder))

def finish (answer : Except IrError Json) : StreamMethod ProviderOutput := fun self =>
  if !self.isComplete then
    (.error (.error .invalidEventOrder), { self with prepared := self.prepared.fail })
  else
    match requestFinish texts base64 wire answer
        { self with prepared := { self.prepared with phase := .failed } } with
    | (.ok output, self) =>
        (.ok output, { self with prepared := { self.prepared with phase := .finished } })
    | (.error e, self) =>
        (.error e, { self with prepared := self.prepared.captureAttempt.poison })

end ProviderStream

end Streams

end ResponseGateway.Providers
