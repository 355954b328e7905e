import ResponseGateway.Continuation.Runtime

/-!
`proxy_managed`: the admission of a managed request against the finalized history
of its session, and the publication of a turn. The verifier (`history`) and the
publisher (`publicOutput`, `addEnvelope`) are separate code that must agree.

One request makes several accesses to the store; they are taken together here.
Route admission, encoding, transport and decoding lie outside and enter a turn as
the parameters of an `Exchange`. Lengths are not bounded, so the sum of a start and
a length does not wrap. A failed `expect` is an absent result.
-/

namespace ResponseGateway.Proxy
open Checked Method Json Ir Continuation SqliteStore

structure ApiError where
  status : Nat
  code : String
  message : String
  deriving DecidableEq, Repr

def rejected : ApiError :=
  ⟨409, "continuation_rejected",
    "Continuation cannot be verified; host reconciliation is required"⟩

def upstream : ApiError :=
  ⟨502, "upstream_invalid_response", "Managed provider response could not be validated"⟩

abbrev Access (α : Type) := Method SqliteStore ApiError α

/-- `map_err`, with the updates made before the error. -/
def mapError {α : Type} (e : ApiError) (m : Operation α) : Access α := fun db =>
  match m db with
  | (.ok a, db') => (.ok a, db')
  | (.error _, db') => (.error e, db')

section Normalization

def passthrough : String := "internal_chat_message_metadata_passthrough"

def eraseNull (fields : Fields) (key : String) : Fields :=
  if (Assoc.get key fields).any isNull then Assoc.erase key fields else fields

/-- Empty annotations of an output text are the same as none. -/
def normalizedPart (part : Json) : Json :=
  match part with
  | .object fields =>
      if part.fieldStr "type" = some "output_text" ∧ part.field "annotations" = some (.array [])
      then .object (Assoc.erase "annotations" fields) else part
  | _ => part

def normalizedFields (item : Fields) : Fields :=
  let item := Assoc.erase "status" (Assoc.erase "id" item)
  let item := eraseNull (eraseNull item "phase") passthrough
  let item := if (Assoc.get "type" item).isNone && (Assoc.get "role" item).isSome then
    Assoc.insert "type" (.string "message") item else item
  match Assoc.get "content" item with
  | some (.array parts) => Assoc.insert "content" (.array (parts.map normalizedPart)) item
  | _ => item

mutual

/-- Item metadata only; the content of users and tools is left as it is. -/
def normalized : Json → Json
  | .array items => .array (normalizedItems items)
  | .object item => .object (normalizedFields item)
  | value => value

def normalizedItems : List Json → List Json
  | [] => []
  | item :: rest => normalized item :: normalizedItems rest

end

end Normalization

section Cleaning

def isReasoning (item : Json) : Bool := item.fieldStr "type" = some "reasoning"

def reasoningKeys : List String :=
  ["type", "id", "summary", "encrypted_content", "content", passthrough]

def isSummaryPart (part : Json) : Bool :=
  part.asObject.any fun fields => fields.length = 2 &&
    part.fieldStr "type" = some "summary_text" && (part.fieldStr "text").isSome

/-- The reasoning item without its envelope and the fields that may only be empty. -/
def publicReasoning (fields : Fields) : Fields :=
  Assoc.erase passthrough (Assoc.erase "content" (Assoc.erase "encrypted_content" fields))

/-- The envelope a reasoning item carries, if any. -/
def readEnvelope (item : Json) (summary : List Json) : Except ApiError (Option String) :=
  match (item.field "encrypted_content").filter (!·.isNull) with
  | some token => do
      let token ← okOr token.asStr rejected
      return some token
  | none => do
      rejectIf summary.isEmpty rejected
      return none

/-- What one reasoning item leaves in the input, and the envelope it carries. -/
def readReasoning (item : Json) : Except ApiError (Option Json × Option String) := do
  let fields ← okOr item.asObject rejected
  rejectIf (fields.any fun entry => !(entry.1 ∈ reasoningKeys)) rejected
  rejectIf ((item.field "content").any (fun value => !value.isNull && value ≠ .array []) ||
    (item.field passthrough).any (!·.isNull)) rejected
  let summary ← okOr ((item.field "summary").bind asArray) rejected
  rejectIf (!summary.all isSummaryPart) rejected
  let token ← readEnvelope item summary
  return (if summary.isEmpty then none else some (.object (publicReasoning fields)), token)

def readItem (item : Json) : Except ApiError (Option Json × Option String) :=
  if isReasoning item then readReasoning item else return (some item, none)

/-- The cleaned input and the envelopes, both in order. -/
def scan : List Json → Except ApiError (List Json × List String)
  | [] => return ([], [])
  | item :: rest => do
      let (kept, token) ← readItem item
      let (clean, tokens) ← scan rest
      return (kept.toList ++ clean, token.toList ++ tokens)

end Cleaning

section History

variable (rt : Runtime)

def inputOf (payload : Fields) : Option (List Json) := (Assoc.get "input" payload).bind asArray

/-- The state of the loop over the envelopes. -/
structure Verified where
  segments : OrderedMap Nat (Nat × NativeState)
  seen : List String
  previous : Option String
  lastEnd : Nat

def Verified.init : Verified := { segments := .empty, seen := [], previous := none, lastEnd := 0 }

def inputDigest (items : List Json) : String := digest rt.sha256 (normalized (.array items))

/-- Where the span of a record ends. -/
def stopOf (replay : NormalizedReplay) : Nat := replay.inputLen + replay.output.length

/-- The span of a record in the cleaned input. -/
def spanOf (clean : List Json) (replay : NormalizedReplay) : List Json :=
  (clean.drop replay.inputLen).take replay.output.length

/-- The record continues the last one and lies in the input where it says. -/
def admits (clean : List Json) (state : Verified) (replay : NormalizedReplay) : Bool :=
  !state.seen.contains replay.response && replay.parent = state.previous &&
    state.lastEnd ≤ replay.inputLen &&
    stopOf replay ≤ clean.length &&
    inputDigest rt (clean.take replay.inputLen) = replay.inputSha256 &&
    (spanOf clean replay).map normalized = replay.output.map normalized &&
    (state.segments.get replay.inputLen).isNone

def Verified.push (state : Verified) (replay : NormalizedReplay) : Verified where
  segments := state.segments.insert replay.inputLen (stopOf replay, replay.native)
  seen := replay.response :: state.seen
  previous := some replay.response
  lastEnd := stopOf replay

def verifyToken (session : Session) (clean : List Json) (state : Verified) (token : String) :
    Access Verified := do
  let record ← mapError rejected (rt.restoreRecord session token)
  let replay ← check ((record.intoNormalized rt.base64).mapError fun _ => rejected)
  check (rejectIf (!admits rt clean state replay) rejected)
  return state.push replay

def verifyTokens (session : Session) (clean : List Json) : Verified → List String →
    Access Verified
  | state, [] => return state
  | state, token :: rest => do
      let state ← verifyToken rt session clean state token
      verifyTokens session clean state rest

/-- Every reasoning item lies in a verified span. -/
def covered (clean : List Json) (segments : OrderedMap Nat (Nat × NativeState)) : Bool :=
  clean.zipIdx.all fun (item, position) => !isReasoning item ||
    segments.entries.any fun (start, stop, _) => start ≤ position && position < stop

def isPortableItem (item : Json) : Bool :=
  (item.fieldStr "role").any (· ∈ ["system", "developer", "user"]) &&
    (item.field "type").all (· = .string "message")

/-- A new epoch starts from the approved portable message, which occurs once. -/
def portableAccepted (session : Session) (clean : List Json) : Bool :=
  match session.head, session.portableSha256 with
  | none, some expected => clean.all isPortableItem &&
      clean.countP (fun item => item.fieldStr "role" = some "user" &&
        inputDigest rt [item] = expected) = 1
  | _, _ => true

/-- `history`: the verified spans and the payload with its input cleaned. -/
def history (session : Session) (payload : Fields) :
    Access (VerifiedProviderHistory × Fields) :=
  match inputOf payload with
  | none => do
      check (rejectIf session.head.isSome rejected)
      return (.default, payload)
  | some input => do
      let (clean, tokens) ← check (scan input)
      let state ← verifyTokens rt session clean .init tokens
      check (rejectIf (state.previous ≠ session.head) rejected)
      check (rejectIf (!covered clean state.segments) rejected)
      check (rejectIf (!portableAccepted rt session clean) rejected)
      return (⟨state.segments⟩, Assoc.insert "input" (.array clean) payload)

end History

section Publication

/-- A reasoning item without a summary. -/
def isEmptyReasoning (item : Json) : Bool :=
  isReasoning item && item.field "summary" = some (.array [])

/-- Only the first reasoning item may be empty; it carries the envelope. -/
def publicOutput (response : Json) : Option (List Json) := do
  let output ← (response.field "output").bind asArray
  let selected := output.findIdx? isReasoning
  if output.zipIdx.any fun (item, index) => isEmptyReasoning item && some index ≠ selected then
    none
  else some (output.filter (!isEmptyReasoning ·))

def setEnvelope (token : String) : Json → Json
  | .object fields => .object (Assoc.insert "encrypted_content" (.string token) fields)
  | value => value

/-- The first reasoning item with the envelope, or nothing without one. -/
def envelopeFirst (token : String) : List Json → Option (List Json)
  | [] => none
  | item :: rest =>
      if isReasoning item then some (setEnvelope token item :: rest)
      else (envelopeFirst token rest).map (item :: ·)

/-- The item added when there is no reasoning item to carry the envelope. -/
def carrier (id token : String) : Json :=
  .object [("encrypted_content", .string token), ("id", .string ("rs_" ++ id)),
    ("summary", .array []), ("type", .string "reasoning")]

def addEnvelope (response : Json) (token : String) : Option Json := do
  let fields ← response.asObject
  let output ← (Assoc.get "output" fields).bind asArray
  let id := (response.fieldStr "id").getD "response"
  let output := (envelopeFirst token output).getD (output ++ [carrier id token])
  return .object (Assoc.insert "output" (.array output) fields)

def checkFinalSize (response : Json) (token : String) (max : Nat) : Except Error Unit := do
  let published ← okOr (addEnvelope response token) ⟨"validated output"⟩
  rejectIf ((renderText published).utf8ByteSize > max) ⟨"response limit"⟩

end Publication

section Turns

structure GatewayState where
  runtime : Runtime
  /-- The configured origin of the requested model. -/
  origin : Origin
  maxResponseBytes : Nat

structure Decoded where
  response : Value
  native : NativeState
  outcome : Outcome

/-- What lies outside the gateway's own state in one turn. -/
structure Exchange where
  uuid : String
  nonce : ByteArray
  admission : Fields → VerifiedProviderHistory → Except ApiError Unit
  dispatch : Fields → VerifiedProviderHistory → Except ApiError Decoded
  /-- The limit on the rest of a stream; nothing for a response in one piece. -/
  streamFits : String → Except Error Unit

/-- A completed turn: what `responses` computed on the way to its answer. -/
structure Turn where
  session : Session
  raw : List Json
  clean : List Json
  decoded : Decoded
  output : List Json
  attempt : String
  record : ReplayRecord
  token : String
  published : Json

/-- An input given as a text is one user message. -/
def wrapText (payload : Fields) : Fields :=
  match Assoc.get "input" payload with
  | some (.string text) => Assoc.insert "input" (.array [.object [
      ("content", .array [.object [("text", .string text), ("type", .string "input_text")]]),
      ("role", .string "user"), ("type", .string "message")]]) payload
  | _ => payload

/-- The metadata of the record a turn writes. -/
def turnMetadata (rt : Runtime) (session : Session) (clean : List Json) (attempt : String)
    (outcome : Outcome) : ReplayMetadataOwned where
  session := session.id
  epoch := session.epoch
  origin := session.origin
  response := attempt
  parent := session.head
  inputLen := clean.length
  inputSha256 := inputDigest rt clean
  outcome := outcome

def reserveAttempt (session : Session) (inputDigest : String) (reserve : Nat) (uuid : String) :
    Access String :=
  mapError rejected (begin uuid session.id session.revision session.head inputDigest reserve)

def runTurn (state : GatewayState) (id : String) (payload : Fields) (x : Exchange) :
    Access Turn := do
  let rt := state.runtime
  let session ← mapError rejected (SqliteStore.session id)
  check (rejectIf (!(session.status ∈ [.ready, .compacting])) rejected)
  check (rejectIf (session.origin ≠ state.origin) rejected)
  let payload := wrapText payload
  let raw := (inputOf payload).getD []
  let (replay, payload) ← history rt session payload
  let clean ← check (okOr (inputOf payload) rejected)
  check (x.admission payload replay)
  let attempt ← reserveAttempt session (digest rt.sha256 (.object payload))
    state.maxResponseBytes x.uuid
  let decoded ← check (x.dispatch payload replay)
  let output ← check (okOr (publicOutput decoded.response.1) upstream)
  let record ← check ((ReplayRecord.fromNative rt.base64
    (turnMetadata rt session clean attempt decoded.outcome) decoded.native output).mapError
      fun _ => rejected)
  let token ← mapError rejected (rt.finalizeChecked x.nonce record fun token => do
    checkFinalSize decoded.response.1 token state.maxResponseBytes
    x.streamFits token)
  let published ← check (okOr (addEnvelope decoded.response.1 token) upstream)
  return { session, raw, clean, decoded, output, attempt, record, token, published }

/-- The response the client receives. -/
def responses (state : GatewayState) (id : String) (payload : Fields) (x : Exchange) :
    Access Json := do
  let turn ← runTurn state id payload x
  return turn.published

end Turns

end ResponseGateway.Proxy
