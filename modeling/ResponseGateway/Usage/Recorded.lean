import ResponseGateway.Ir.NativeState
import ResponseGateway.Library.Codec
import ResponseGateway.Library.OrderedMap
import ResponseGateway.Usage.Display

/-!
`gateway_usage_contract::versioned`: the two versions of an event, and their bytes. The
bytes are those of a `serde_json` value, which sorts the fields, so that the records below
list them sorted; a stored event is read without being repaired. The hash of the bytes is
a parameter.
-/

namespace ResponseGateway.Usage
open Checked Ir
open Json (Codec Record)

section Names

def Source.name : Source → String
  | .reported => "reported"
  | .derived => "derived"
  | .notReported => "not_reported"
  | .notApplicable => "not_applicable"
  | .invalid => "invalid"

def Source.codec : Codec Source :=
  .names [.reported, .derived, .notReported, .notApplicable, .invalid] name
    fun s => by cases s <;> rfl

def Profile.name : Profile → String
  | .responsesV1 => "responses_v1"
  | .chatV1 => "chat_v1"
  | .deepSeekV1 => "deep_seek_v1"
  | .messagesV1 => "messages_v1"
  | .geminiInteractionsV1 => "gemini_interactions_v1"

def Profile.codec : Codec Profile := .names all name fun p => by cases p <;> rfl

def EventKind.name : EventKind → String
  | .attemptStarted => "attempt_started"
  | .usageUpdated => "usage_updated"
  | .attemptFinished => "attempt_finished"

def EventKind.codec : Codec EventKind :=
  .names [.attemptStarted, .usageUpdated, .attemptFinished] name fun k => by cases k <;> rfl

def Outcome.name : Outcome → String
  | .unknown => "unknown"
  | .inProgress => "in_progress"
  | .completed => "completed"
  | .incomplete => "incomplete"
  | .failed => "failed"
  | .cancelled => "cancelled"
  | .transportLost => "transport_lost"
  | .conversionFailed => "conversion_failed"
  | .observationIncomplete => "observation_incomplete"

def Outcome.codec : Codec Outcome :=
  .names [.unknown, .inProgress, .completed, .incomplete, .failed, .cancelled, .transportLost,
    .conversionFailed, .observationIncomplete] name fun o => by cases o <;> rfl

inductive Finality where
  | unobserved
  | partly
  | final
  deriving DecidableEq, Repr

def Finality.name : Finality → String
  | .unobserved => "unobserved"
  | .partly => "partial"
  | .final => "final"

def Finality.codec : Codec Finality :=
  .names [.unobserved, .partly, .final] name fun f => by cases f <;> rfl

/-- An optional text. -/
def optionalText : Codec (Option String) := Codec.str.nullable fun _ => nofun

end Names

section Counters

def Counter.codec : Codec Counter :=
  (((Record.field "source" Source.codec).and
    (.optional "value" (Codec.u64.nullable fun _ => nofun))).codec (by decide)).map
    (fun (source, value) => ⟨value, source⟩) (fun c => (c.source, c.value)) fun _ => rfl

def CacheWriteDetail.codec : Codec CacheWriteDetail :=
  (((Record.field "input_tokens" Counter.codec).and
    (.field "ttl_seconds" Codec.u64)).codec (by decide)).map
    (fun (tokens, ttl) => ⟨ttl, tokens⟩) (fun d => (d.inputTokens, d.ttlSeconds)) fun _ => rfl

def CanonicalUsage.codec : Codec CanonicalUsage :=
  (((Record.field "cache_write_details" CacheWriteDetail.codec.list).and <|
    (Record.field "counters" Counter.codec.mapping).and <|
    (Record.field "reported" Counter.codec.mapping).and <|
    .field "violations" Codec.str.list).codec (by decide)).map
    (fun (details, counters, reported, violations) => ⟨counters, details, reported, violations⟩)
    (fun u => (u.cacheWriteDetails, u.counters, u.reported, u.violations)) fun _ => rfl

end Counters

section Interpretation

/-- Which program read the counters. -/
structure Interpretation where
  kind : String
  protocol : String
  providerProtocol : String
  packageId : String
  packageVersion : String
  packageSha256 : String
  executableSha256 : String
  deriving DecidableEq, Repr

namespace Interpretation

variable (i : Interpretation)

def packaged : Bool :=
  let parts := i.packageVersion.toList.splitOn '.'
  !i.packageId.isEmpty && i.packageId.utf8ByteSize ≤ 64 &&
    i.packageId.toList.head?.any Char.isLower &&
    i.packageId.toList.all (fun c => c.isLower || c.isDigit || c = '-') &&
    parts.length = 3 && parts.all isVersionPart

def validate : Bool :=
  validProviderProtocol i.providerProtocol && i.kind = "trusted_provider_plugin" &&
    i.protocol = "gateway-provider/v1" && i.packaged && isSha256 i.packageSha256 &&
    isSha256 i.executableSha256

/-- The fields in the order of their declaration, as they are written without a value. -/
def declared : Json :=
  .object [("kind", .string i.kind), ("protocol", .string i.protocol),
    ("provider_protocol", .string i.providerProtocol), ("package_id", .string i.packageId),
    ("package_version", .string i.packageVersion), ("package_sha256", .string i.packageSha256),
    ("executable_sha256", .string i.executableSha256)]

def codec : Codec Interpretation :=
  (((Record.field "executable_sha256" Codec.str).and <| (Record.field "kind" Codec.str).and <|
    (Record.field "package_id" Codec.str).and <| (Record.field "package_sha256" Codec.str).and <|
    (Record.field "package_version" Codec.str).and <| (Record.field "protocol" Codec.str).and <|
    .field "provider_protocol" Codec.str).codec (by decide)).map
    (fun (executable, kind, id, package, version, protocol, provider) =>
      ⟨kind, protocol, provider, id, version, package, executable⟩)
    (fun i => (i.executableSha256, i.kind, i.packageId, i.packageSha256, i.packageVersion,
      i.protocol, i.providerProtocol))
    fun _ => rfl

end Interpretation

/-- The sum of the parts that are known, if it does not overflow. -/
def knownParts (u : CanonicalUsage) (fields : List String) : Option UInt64 :=
  fields.foldlM (fun sum field =>
    match u.value field with
    | some n => checkedAdd sum n
    | none => some sum) 0

def inputParts : List String :=
  ["input_regular_tokens", "cache_read_input_tokens", "cache_write_input_tokens"]

/-- The parts of the input are within it, and are all of it when all are known. -/
def partitioned (u : CanonicalUsage) : Bool :=
  match u.value "input_tokens" with
  | none => true
  | some input =>
      match knownParts u inputParts with
      | none => false
      | some sum => !(sum > input || inputParts.all (fun f => (u.value f).isSome) && sum ≠ input)

def totalled (u : CanonicalUsage) : Bool :=
  match u.value "input_tokens", u.value "output_tokens", u.value "total_tokens" with
  | some input, some output, some total => checkedAdd input output = some total
  | _, _, _ => true

def reasoned (u : CanonicalUsage) : Bool :=
  match u.value "reasoning_output_tokens", u.value "output_tokens" with
  | some reasoning, some output => !(reasoning > output)
  | _, _ => true

def providerUsageValid (u : CanonicalUsage) : Bool :=
  u.validate && u.reported.entries.isEmpty && u.cacheWriteDetails.isEmpty && totalled u &&
    partitioned u && reasoned u

end Interpretation

section Events

def schemaV2 : String := "gateway-usage-event/v2"

def maxEventBytes : Nat := 65536

/-- An event of the first version, with the parts that no check reads. -/
structure UsageEventV1 extends UsageEvent where
  upstream : Outcome
  gateway : Outcome
  finality : Finality
  observationIncomplete : Bool

structure UsageEventV2 where
  schema : String
  producerId : String
  requestId : String
  attemptId : String
  eventId : String
  revision : UInt64
  kind : EventKind
  startedAtMs : UInt64
  observedAtMs : UInt64
  provider : String
  modelAlias : String
  upstreamModel : String
  reportedModel : Option String
  providerRequestId : Option String
  providerResponseId : Option String
  interpretation : Interpretation
  configurationSha256 : String
  upstream : Outcome
  gateway : Outcome
  finality : Finality
  observationIncomplete : Bool
  usage : CanonicalUsage

def UsageEventV2.validate (e : UsageEventV2) : Bool :=
  e.schema = schemaV2 && e.interpretation.validate && providerUsageValid e.usage &&
    [e.producerId, e.requestId, e.attemptId, e.eventId, e.provider, e.modelAlias,
      e.upstreamModel].all safeLabel &&
    [e.reportedModel, e.providerRequestId, e.providerResponseId].all (·.all safeLabel) &&
    e.configurationSha256.utf8ByteSize = 64 && e.configurationSha256.toList.all isLowerHex &&
    e.observedAtMs ≥ e.startedAtMs && e.usage.validate &&
    (e.kind ≠ .attemptStarted || e.revision = 0) && (e.kind = .attemptStarted || e.revision > 0)

def UsageEventV1.codec : Codec UsageEventV1 :=
  (((Record.field "attempt_id" Codec.str).and <|
    (Record.field "configuration_sha256" Codec.str).and <|
    (Record.field "event_id" Codec.str).and <| (Record.field "finality" Finality.codec).and <|
    (Record.field "gateway" Outcome.codec).and <| (Record.field "kind" EventKind.codec).and <|
    (Record.field "model_alias" Codec.str).and <|
    (Record.field "observation_incomplete" Codec.bool).and <|
    (Record.field "observed_at_ms" Codec.u64).and <| (Record.field "producer_id" Codec.str).and <|
    (Record.field "profile" Profile.codec).and <| (Record.field "provider" Codec.str).and <|
    (Record.optional "provider_request_id" optionalText).and <|
    (Record.optional "provider_response_id" optionalText).and <|
    (Record.optional "reported_model" optionalText).and <|
    (Record.field "request_id" Codec.str).and <| (Record.field "revision" Codec.u64).and <|
    (Record.field "schema" Codec.str).and <| (Record.field "started_at_ms" Codec.u64).and <|
    (Record.field "upstream" Outcome.codec).and <| (Record.field "upstream_model" Codec.str).and <|
    .field "usage" CanonicalUsage.codec).codec (by decide)).map
    (fun (attemptId, configurationSha256, eventId, finality, gateway, kind, modelAlias,
        observationIncomplete, observedAtMs, producerId, profile, provider, providerRequestId,
        providerResponseId, reportedModel, requestId, revision, schema, startedAtMs, upstream,
        upstreamModel, usage) =>
      { schema, producerId, requestId, attemptId, eventId, revision, kind, startedAtMs,
        observedAtMs, provider, modelAlias, upstreamModel, reportedModel, providerRequestId,
        providerResponseId, profile, configurationSha256, upstream, gateway, finality,
        observationIncomplete, usage })
    (fun e => (e.attemptId, e.configurationSha256, e.eventId, e.finality, e.gateway, e.kind,
      e.modelAlias, e.observationIncomplete, e.observedAtMs, e.producerId, e.profile, e.provider,
      e.providerRequestId, e.providerResponseId, e.reportedModel, e.requestId, e.revision,
      e.schema, e.startedAtMs, e.upstream, e.upstreamModel, e.usage))
    fun _ => rfl

def UsageEventV2.codec : Codec UsageEventV2 :=
  (((Record.field "attempt_id" Codec.str).and <|
    (Record.field "configuration_sha256" Codec.str).and <|
    (Record.field "event_id" Codec.str).and <| (Record.field "finality" Finality.codec).and <|
    (Record.field "gateway" Outcome.codec).and <|
    (Record.field "interpretation" Interpretation.codec).and <|
    (Record.field "kind" EventKind.codec).and <| (Record.field "model_alias" Codec.str).and <|
    (Record.field "observation_incomplete" Codec.bool).and <|
    (Record.field "observed_at_ms" Codec.u64).and <| (Record.field "producer_id" Codec.str).and <|
    (Record.field "provider" Codec.str).and <|
    (Record.optional "provider_request_id" optionalText).and <|
    (Record.optional "provider_response_id" optionalText).and <|
    (Record.optional "reported_model" optionalText).and <|
    (Record.field "request_id" Codec.str).and <| (Record.field "revision" Codec.u64).and <|
    (Record.field "schema" Codec.str).and <| (Record.field "started_at_ms" Codec.u64).and <|
    (Record.field "upstream" Outcome.codec).and <| (Record.field "upstream_model" Codec.str).and <|
    .field "usage" CanonicalUsage.codec).codec (by decide)).map
    (fun (attemptId, configurationSha256, eventId, finality, gateway, interpretation, kind,
        modelAlias, observationIncomplete, observedAtMs, producerId, provider, providerRequestId,
        providerResponseId, reportedModel, requestId, revision, schema, startedAtMs, upstream,
        upstreamModel, usage) =>
      { schema, producerId, requestId, attemptId, eventId, revision, kind, startedAtMs,
        observedAtMs, provider, modelAlias, upstreamModel, reportedModel, providerRequestId,
        providerResponseId, interpretation, configurationSha256, upstream, gateway, finality,
        observationIncomplete, usage })
    (fun e => (e.attemptId, e.configurationSha256, e.eventId, e.finality, e.gateway,
      e.interpretation, e.kind, e.modelAlias, e.observationIncomplete, e.observedAtMs,
      e.producerId, e.provider, e.providerRequestId, e.providerResponseId, e.reportedModel,
      e.requestId, e.revision, e.schema, e.startedAtMs, e.upstream, e.upstreamModel, e.usage))
    fun _ => rfl

inductive RecordedEvent where
  | v1 (event : UsageEventV1)
  | v2 (event : UsageEventV2)

/-- What both versions have. -/
structure EventView where
  producerId : String
  requestId : String
  attemptId : String
  eventId : String
  revision : UInt64
  kind : EventKind
  startedAtMs : UInt64
  observedAtMs : UInt64
  provider : String
  modelAlias : String
  upstreamModel : String
  reportedModel : Option String
  providerRequestId : Option String
  providerResponseId : Option String
  configurationSha256 : String
  upstream : Outcome
  gateway : Outcome
  finality : Finality
  observationIncomplete : Bool
  usage : CanonicalUsage

namespace RecordedEvent

def view : RecordedEvent → EventView
  | v1 e =>
      { producerId := e.producerId, requestId := e.requestId, attemptId := e.attemptId
        eventId := e.eventId, revision := e.revision, kind := e.kind
        startedAtMs := e.startedAtMs, observedAtMs := e.observedAtMs, provider := e.provider
        modelAlias := e.modelAlias, upstreamModel := e.upstreamModel
        reportedModel := e.reportedModel, providerRequestId := e.providerRequestId
        providerResponseId := e.providerResponseId, configurationSha256 := e.configurationSha256
        upstream := e.upstream, gateway := e.gateway, finality := e.finality
        observationIncomplete := e.observationIncomplete, usage := e.usage }
  | v2 e =>
      { producerId := e.producerId, requestId := e.requestId, attemptId := e.attemptId
        eventId := e.eventId, revision := e.revision, kind := e.kind
        startedAtMs := e.startedAtMs, observedAtMs := e.observedAtMs, provider := e.provider
        modelAlias := e.modelAlias, upstreamModel := e.upstreamModel
        reportedModel := e.reportedModel, providerRequestId := e.providerRequestId
        providerResponseId := e.providerResponseId, configurationSha256 := e.configurationSha256
        upstream := e.upstream, gateway := e.gateway, finality := e.finality
        observationIncomplete := e.observationIncomplete, usage := e.usage }

def isV2 : RecordedEvent → Bool
  | v1 _ => false
  | v2 _ => true

def schemaOf : RecordedEvent → String
  | v1 e => e.schema
  | v2 e => e.schema

def validate : RecordedEvent → Bool
  | v1 e => e.validate
  | v2 e => e.validate

/-- `serde_json::to_value`. -/
def toValue : RecordedEvent → Json
  | v1 e => UsageEventV1.codec.encode e
  | v2 e => UsageEventV2.codec.encode e

/-- Why there are no bytes, or no event in them. -/
inductive Failure where
  | invalidUsageEvent
  | usageEventTooLarge
  | storedUsageIntegrity
  deriving DecidableEq, Repr

def bytes (e : RecordedEvent) : Except Failure Text := do
  rejectIf (!e.validate) .invalidUsageEvent
  let bytes : Text := e.toValue.render
  rejectIf (bytes.len > maxEventBytes) .usageEventTooLarge
  return bytes

def number (n : UInt64) : Json := .number (.ofNat n.toNat)

/-- What the events of an attempt have in common, as text. -/
def identityBytes : RecordedEvent → Text
  | v1 e => (Json.array [.string e.requestId, number e.startedAtMs, .string e.provider,
      .string e.modelAlias, .string e.upstreamModel, .string e.profile.name,
      .string e.configurationSha256]).render
  | v2 e => (Json.array [.string schemaV2, .string e.requestId, number e.startedAtMs,
      .string e.provider, .string e.modelAlias, .string e.upstreamModel,
      e.interpretation.declared, .string e.configurationSha256]).render

/-- The version is told by the schema. -/
def fromValue (value : Json) : Option RecordedEvent :=
  if value.fieldStr "schema" = some schema then (UsageEventV1.codec.decode value).map v1
  else if value.fieldStr "schema" = some schemaV2 then (UsageEventV2.codec.decode value).map v2
  else none

/-- The nesting that `serde_json` reads. -/
def maxDepth : Nat := 127

def fromStoredBytes (digest : Text → String) (bytes : Text) (sha256 : String) :
    Except Failure RecordedEvent := do
  rejectIf (bytes.len > maxEventBytes || digest bytes ≠ sha256) .storedUsageIntegrity
  let event ← okOr ((Json.parse maxDepth bytes).bind fromValue) .storedUsageIntegrity
  match event.bytes with
  | .ok again =>
      rejectIf (again ≠ bytes) .storedUsageIntegrity
      return event
  | .error _ => .error .storedUsageIntegrity

end RecordedEvent

section Reading

variable {e : RecordedEvent} {b : Text}

theorem bytes_ok (h : e.bytes = .ok b) :
    e.validate = true ∧ b = e.toValue.render ∧ b.len ≤ maxEventBytes := by
  simp only [RecordedEvent.bytes, bind_ok, rejectIf_ok, pure_ok, Bool.not_eq_false',
    decide_eq_false_iff_not, not_lt] at h
  obtain ⟨_, hvalid, _, hsize, rfl⟩ := h
  exact ⟨hvalid, rfl, hsize⟩

theorem schema_of_validate (h : e.validate = true) :
    e.toValue.fieldStr "schema" = some (if e.isV2 then schemaV2 else schema) := by
  cases e with
  | v1 e =>
      have hschema : e.schema = schema := by
        simp only [RecordedEvent.validate, UsageEvent.validate, Bool.and_eq_true,
          decide_eq_true_eq] at h
        exact h.1.1.1.1.1.1
      exact congrArg some hschema
  | v2 e =>
      have hschema : e.schema = schemaV2 := by
        simp only [RecordedEvent.validate, UsageEventV2.validate, Bool.and_eq_true,
          decide_eq_true_eq] at h
        exact h.1.1.1.1.1.1.1.1.1.1
      exact congrArg some hschema

theorem fromValue_toValue (h : e.validate = true) : RecordedEvent.fromValue e.toValue = some e := by
  rw [RecordedEvent.fromValue, schema_of_validate h]
  cases e with
  | v1 e =>
      rw [RecordedEvent.isV2, if_neg Bool.false_ne_true, if_pos rfl, RecordedEvent.toValue,
        UsageEventV1.codec.decode_encode, Option.map_some]
  | v2 e =>
      rw [RecordedEvent.isV2, if_pos rfl, if_neg (by decide), if_pos rfl, RecordedEvent.toValue,
        UsageEventV2.codec.decode_encode, Option.map_some]

theorem nesting_toValue (e : RecordedEvent) : e.toValue.nesting ≤ RecordedEvent.maxDepth := by
  cases e with
  | v1 e => exact Nat.le_trans (UsageEventV1.codec.depth_le e) (by decide)
  | v2 e => exact Nat.le_trans (UsageEventV2.codec.depth_le e) (by decide)

/-- The bytes of an event are read as that event. -/
theorem fromStoredBytes_bytes (digest : Text → String) (h : e.bytes = .ok b) :
    RecordedEvent.fromStoredBytes digest b (digest b) = .ok e := by
  obtain ⟨hvalid, rfl, hsize⟩ := bytes_ok h
  have hcheck : (decide (Text.len e.toValue.render > maxEventBytes) ||
      decide (digest e.toValue.render ≠ digest e.toValue.render)) = false := by
    simp only [ne_eq, not_true_eq_false, decide_false, Bool.or_false, decide_eq_false_iff_not,
      not_lt]
    exact hsize
  rw [RecordedEvent.fromStoredBytes, hcheck, Json.parse_render _ (nesting_toValue e),
    Option.bind_some, fromValue_toValue hvalid, okOr_some]
  simp only [bind_of_ok, rejectIf_false, h, ne_eq, not_true_eq_false, decide_false]
  rfl

/-- The bytes of an event tell which it is. -/
theorem bytes_injective {e' : RecordedEvent} (h : e.bytes = .ok b) (h' : e'.bytes = .ok b) :
    e = e' := by
  have hread := fromStoredBytes_bytes (fun _ => "") h
  rw [fromStoredBytes_bytes (fun _ => "") h', Except.ok.injEq] at hread
  exact hread.symm

end Reading

end Events

end ResponseGateway.Usage
