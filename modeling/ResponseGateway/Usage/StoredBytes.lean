import ResponseGateway.Library.JsonExponent
import ResponseGateway.Library.JsonValue
import ResponseGateway.Usage.Recorded

/-!
The bytes under which an event is kept, as `gateway_usage_contract::versioned` writes and reads
them. The readers are the derived ones: a structure is a map of its fields or the list of them
all, an optional field may be absent, a variant may carry a `null`. That is more than is ever
written, and `from_stored_bytes` therefore writes again what it has read.
-/

namespace ResponseGateway.Usage
open Checked Ir
open Json (structFields unitVariant asStr asBool asU64 Codec)

section Reading

/-- A variant without data, by its name. -/
def readName {α : Type} (all : List α) (name : α → String) (value : Json) : Option α :=
  (unitVariant value).bind fun s => all.find? fun a => name a = s

def readU64 (value : Json) : Option UInt64 := value.asU64.map UInt64.ofNat

def readOptionalU64 : Option Json → Option (Option UInt64)
  | none | some .null => some none
  | some value => (readU64 value).map some

def readCounter (value : Json) : Option Counter := do
  let get ← structFields ["value", "source"] value
  let amount ← readOptionalU64 (get "value")
  let source ← (get "source").bind
    (readName [.reported, .derived, .notReported, .notApplicable, .invalid] Source.name)
  return ⟨amount, source⟩

def readDetail (value : Json) : Option CacheWriteDetail := do
  let get ← structFields ["ttl_seconds", "input_tokens"] value
  let ttlSeconds ← (get "ttl_seconds").bind readU64
  let inputTokens ← (get "input_tokens").bind readCounter
  return ⟨ttlSeconds, inputTokens⟩

def readCounters (value : Json) : Option Counters := do
  let fields ← value.asObject
  let entries ← fields.mapM fun field => (readCounter field.2).map fun c => (field.1, c)
  return entries.foldl (fun m entry => m.insert entry.1 entry.2) .empty

def readUsage (value : Json) : Option CanonicalUsage := do
  let get ← structFields ["counters", "cache_write_details", "reported", "violations"] value
  let counters ← (get "counters").bind readCounters
  let details ← (get "cache_write_details").bind Json.asArray
  let cacheWriteDetails ← details.mapM readDetail
  let reported ← (get "reported").bind readCounters
  let violations ← (get "violations").bind Json.asArray
  let violations ← violations.mapM asStr
  return ⟨counters, cacheWriteDetails, reported, violations⟩

def readInterpretation (value : Json) : Option Interpretation := do
  let get ← structFields ["kind", "protocol", "provider_protocol", "package_id", "package_version",
    "package_sha256", "executable_sha256"] value
  let kind ← (get "kind").bind asStr
  let protocol ← (get "protocol").bind asStr
  let providerProtocol ← (get "provider_protocol").bind asStr
  let packageId ← (get "package_id").bind asStr
  let packageVersion ← (get "package_version").bind asStr
  let packageSha256 ← (get "package_sha256").bind asStr
  let executableSha256 ← (get "executable_sha256").bind asStr
  return { kind, protocol, providerProtocol, packageId, packageVersion, packageSha256,
           executableSha256 }

def readKind : Json → Option EventKind :=
  readName [.attemptStarted, .usageUpdated, .attemptFinished] EventKind.name

def readOutcome : Json → Option Outcome :=
  readName [.unknown, .inProgress, .completed, .incomplete, .failed, .cancelled, .transportLost,
    .conversionFailed, .observationIncomplete] Outcome.name

def readFinality : Json → Option Finality :=
  readName [.unobserved, .partly, .final] Finality.name

/-- The fields of an event, around the one that tells who read the counters. -/
def eventFields (reader : String) : List String :=
  ["schema", "producer_id", "request_id", "attempt_id", "event_id", "revision", "kind",
    "started_at_ms", "observed_at_ms", "provider", "model_alias", "upstream_model",
    "reported_model", "provider_request_id", "provider_response_id", reader,
    "configuration_sha256", "upstream", "gateway", "finality", "observation_incomplete", "usage"]

def readV1 (value : Json) : Option UsageEventV1 := do
  let get ← structFields (eventFields "profile") value
  let schema ← (get "schema").bind asStr
  let producerId ← (get "producer_id").bind asStr
  let requestId ← (get "request_id").bind asStr
  let attemptId ← (get "attempt_id").bind asStr
  let eventId ← (get "event_id").bind asStr
  let revision ← (get "revision").bind readU64
  let kind ← (get "kind").bind readKind
  let startedAtMs ← (get "started_at_ms").bind readU64
  let observedAtMs ← (get "observed_at_ms").bind readU64
  let provider ← (get "provider").bind asStr
  let modelAlias ← (get "model_alias").bind asStr
  let upstreamModel ← (get "upstream_model").bind asStr
  let reportedModel ← Json.optionalStr (get "reported_model")
  let providerRequestId ← Json.optionalStr (get "provider_request_id")
  let providerResponseId ← Json.optionalStr (get "provider_response_id")
  let profile ← (get "profile").bind (readName Profile.all Profile.name)
  let configurationSha256 ← (get "configuration_sha256").bind asStr
  let upstream ← (get "upstream").bind readOutcome
  let gateway ← (get "gateway").bind readOutcome
  let finality ← (get "finality").bind readFinality
  let observationIncomplete ← (get "observation_incomplete").bind asBool
  let usage ← (get "usage").bind readUsage
  return { schema, producerId, requestId, attemptId, eventId, revision, kind, startedAtMs,
           observedAtMs, provider, modelAlias, upstreamModel, reportedModel, providerRequestId,
           providerResponseId, profile, configurationSha256, upstream, gateway, finality,
           observationIncomplete, usage }

def readV2 (value : Json) : Option UsageEventV2 := do
  let get ← structFields (eventFields "interpretation") value
  let schema ← (get "schema").bind asStr
  let producerId ← (get "producer_id").bind asStr
  let requestId ← (get "request_id").bind asStr
  let attemptId ← (get "attempt_id").bind asStr
  let eventId ← (get "event_id").bind asStr
  let revision ← (get "revision").bind readU64
  let kind ← (get "kind").bind readKind
  let startedAtMs ← (get "started_at_ms").bind readU64
  let observedAtMs ← (get "observed_at_ms").bind readU64
  let provider ← (get "provider").bind asStr
  let modelAlias ← (get "model_alias").bind asStr
  let upstreamModel ← (get "upstream_model").bind asStr
  let reportedModel ← Json.optionalStr (get "reported_model")
  let providerRequestId ← Json.optionalStr (get "provider_request_id")
  let providerResponseId ← Json.optionalStr (get "provider_response_id")
  let interpretation ← (get "interpretation").bind readInterpretation
  let configurationSha256 ← (get "configuration_sha256").bind asStr
  let upstream ← (get "upstream").bind readOutcome
  let gateway ← (get "gateway").bind readOutcome
  let finality ← (get "finality").bind readFinality
  let observationIncomplete ← (get "observation_incomplete").bind asBool
  let usage ← (get "usage").bind readUsage
  return { schema, producerId, requestId, attemptId, eventId, revision, kind, startedAtMs,
           observedAtMs, provider, modelAlias, upstreamModel, reportedModel, providerRequestId,
           providerResponseId, interpretation, configurationSha256, upstream, gateway, finality,
           observationIncomplete, usage }

end Reading

namespace RecordedEvent

/-- The dispatch on the schema, between the derived readers. -/
def deserialize (value : Json) : Option RecordedEvent :=
  match value.fieldStr "schema" with
  | some name =>
      if name = schema then (readV1 value).map v1
      else if name = schemaV2 then (readV2 value).map v2
      else none
  | none => none

/-- `serde_json::from_slice`. -/
def fromSlice (bytes : ByteArray) : Option RecordedEvent := do
  let text ← String.fromUTF8? bytes
  let value ← Json.readText maxDepth text.toList
  deserialize value

/-- A text in UTF-8. -/
def utf8 (text : Text) : ByteArray := (String.ofList text).toUTF8

/-- `bytes`, down to the bytes. -/
def byteString (e : RecordedEvent) : Except Failure ByteArray := do
  let text ← e.bytes
  return utf8 text

/-- `from_stored_bytes`. -/
def fromByteString (digest : ByteArray → String) (bytes : ByteArray) (sha256 : String) :
    Except Failure RecordedEvent := do
  rejectIf (bytes.size > maxEventBytes || digest bytes ≠ sha256) .storedUsageIntegrity
  let event ← okOr (fromSlice bytes) .storedUsageIntegrity
  let again ← event.byteString.mapError fun _ => .storedUsageIntegrity
  rejectIf (again ≠ bytes) .storedUsageIntegrity
  return event

end RecordedEvent

section Entries

/-- Fields under the names of a structure, in another order. -/
theorem structFields_of_keys {names : List String} (keys : List String) (fields : Json.Fields)
    (hkeys : fields.map Prod.fst = keys) (hnodup : keys.Nodup)
    (hnames : ∀ key ∈ keys, key ∈ names) :
    structFields names (.object fields) = some fun key => Assoc.get key fields := by
  subst hkeys
  rw [structFields, if_pos ⟨hnodup, hnames⟩]

def u64Json (n : UInt64) : Json := .number (.ofNat n.toNat)

def optionalU64Json : Option UInt64 → Json
  | some n => u64Json n
  | none => .null

def optionalTextJson : Option String → Json
  | some text => .string text
  | none => .null

def Counter.toJson (c : Counter) : Json :=
  .object [("source", .string c.source.name), ("value", optionalU64Json c.value)]

def Counters.toJson (m : Counters) : Json :=
  .object (m.entries.map fun entry => (entry.1, entry.2.toJson))

def CacheWriteDetail.toJson (d : CacheWriteDetail) : Json :=
  .object [("input_tokens", d.inputTokens.toJson), ("ttl_seconds", u64Json d.ttlSeconds)]

def CanonicalUsage.toJson (u : CanonicalUsage) : Json :=
  .object [("cache_write_details", .array (u.cacheWriteDetails.map (·.toJson))),
    ("counters", Counters.toJson u.counters), ("reported", Counters.toJson u.reported),
    ("violations", .array (u.violations.map .string))]

def Interpretation.toJson (i : Interpretation) : Json :=
  .object [("executable_sha256", .string i.executableSha256), ("kind", .string i.kind),
    ("package_id", .string i.packageId), ("package_sha256", .string i.packageSha256),
    ("package_version", .string i.packageVersion), ("protocol", .string i.protocol),
    ("provider_protocol", .string i.providerProtocol)]

/-- The entries of an event: what both versions have, around what each has of its own. -/
def EventView.entries (v : EventView) (schema : String) (interpretation profile : Json.Fields) :
    Json.Fields :=
  [("attempt_id", .string v.attemptId), ("configuration_sha256", .string v.configurationSha256),
    ("event_id", .string v.eventId), ("finality", .string v.finality.name),
    ("gateway", .string v.gateway.name)] ++ interpretation ++
  [("kind", .string v.kind.name), ("model_alias", .string v.modelAlias),
    ("observation_incomplete", .bool v.observationIncomplete),
    ("observed_at_ms", u64Json v.observedAtMs), ("producer_id", .string v.producerId)] ++ profile ++
  [("provider", .string v.provider), ("provider_request_id", optionalTextJson v.providerRequestId),
    ("provider_response_id", optionalTextJson v.providerResponseId),
    ("reported_model", optionalTextJson v.reportedModel), ("request_id", .string v.requestId),
    ("revision", u64Json v.revision), ("schema", .string schema),
    ("started_at_ms", u64Json v.startedAtMs), ("upstream", .string v.upstream.name),
    ("upstream_model", .string v.upstreamModel), ("usage", v.usage.toJson)]

def RecordedEvent.entries (e : RecordedEvent) : Json.Fields :=
  match e with
  | .v1 event => e.view.entries event.schema [] [("profile", .string event.profile.name)]
  | .v2 event => e.view.entries event.schema [("interpretation", event.interpretation.toJson)] []

theorem encode_optionalU64 (o : Option UInt64) :
    (Codec.u64.nullable fun _ => nofun).encode o = optionalU64Json o := by
  cases o <;> rfl

theorem encode_optionalText (o : Option String) : optionalText.encode o = optionalTextJson o := by
  cases o <;> rfl

theorem encode_counter (c : Counter) : Counter.codec.encode c = c.toJson := by
  obtain ⟨value, source⟩ := c
  cases value <;> rfl

theorem encode_counters (m : Counters) : Counter.codec.mapping.encode m = Counters.toJson m :=
  congrArg Json.object (List.map_congr_left fun entry _ => by rw [encode_counter])

theorem encode_detail (d : CacheWriteDetail) : CacheWriteDetail.codec.encode d = d.toJson := by
  have hcounter := encode_counter d.inputTokens
  change Json.object [("input_tokens", Counter.codec.encode d.inputTokens),
    ("ttl_seconds", u64Json d.ttlSeconds)] = d.toJson
  rw [hcounter]
  rfl

theorem encode_usage (u : CanonicalUsage) : CanonicalUsage.codec.encode u = u.toJson := by
  change Json.object [("cache_write_details", .array (u.cacheWriteDetails.map _)),
    ("counters", Counter.codec.mapping.encode u.counters),
    ("reported", Counter.codec.mapping.encode u.reported),
    ("violations", .array (u.violations.map _))] = u.toJson
  rw [encode_counters, encode_counters, List.map_congr_left fun d _ => encode_detail d]
  rfl

theorem toValue_eq (e : RecordedEvent) : e.toValue = .object e.entries := by
  cases e with
  | v1 event =>
      simp only [RecordedEvent.entries, EventView.entries, RecordedEvent.view,
        ← encode_optionalText, ← encode_usage]
      rfl
  | v2 event =>
      simp only [RecordedEvent.entries, EventView.entries, RecordedEvent.view,
        ← encode_optionalText, ← encode_usage]
      rfl

end Entries

section Readers

@[simp] theorem readU64_json (n : UInt64) : readU64 (u64Json n) = some n :=
  Codec.u64.decode_encode n

@[simp] theorem readOptionalU64_json (o : Option UInt64) :
    readOptionalU64 (some (optionalU64Json o)) = some o := by
  cases o with
  | none => rfl
  | some n => exact congrArg (Option.map some) (readU64_json n)

@[simp] theorem optionalStr_json (o : Option String) :
    Json.optionalStr (some (optionalTextJson o)) = some o := by
  cases o <;> rfl

theorem readName_string {α : Type} {all : List α} {name : α → String} (a : α)
    (h : all.find? (fun b => name b = name a) = some a) :
    readName all name (.string (name a)) = some a := h

@[simp] theorem readSource_json (s : Source) :
    readName [.reported, .derived, .notReported, .notApplicable, .invalid] Source.name
      (.string s.name) = some s :=
  readName_string s (by cases s <;> rfl)

@[simp] theorem readProfile_json (p : Profile) :
    readName Profile.all Profile.name (.string p.name) = some p :=
  readName_string p (by cases p <;> rfl)

@[simp] theorem readKind_json (k : EventKind) : readKind (.string k.name) = some k :=
  readName_string k (by cases k <;> rfl)

@[simp] theorem readOutcome_json (o : Outcome) : readOutcome (.string o.name) = some o :=
  readName_string o (by cases o <;> rfl)

@[simp] theorem readFinality_json (f : Finality) : readFinality (.string f.name) = some f :=
  readName_string f (by cases f <;> rfl)

@[simp] theorem readCounter_toJson (c : Counter) : readCounter c.toJson = some c := by
  rw [readCounter, Counter.toJson,
    structFields_of_keys ["source", "value"] _ rfl (by decide) (by decide)]
  simp only [Assoc.get_cons, String.reduceEq, if_true, if_false, Option.bind_eq_bind,
    Option.bind_some, readOptionalU64_json, readSource_json, Option.pure_def]

theorem mapM_map_some {α β : Type} {f : α → β} {g : β → Option α} (h : ∀ a, g (f a) = some a)
    (l : List α) : (l.map f).mapM g = some l := by
  induction l with
  | nil => rfl
  | cons a rest ih => simp [h, ih]

@[simp] theorem readCounters_toJson (m : Counters) : readCounters m.toJson = some m := by
  have hentries := mapM_map_some (f := fun entry : String × Counter => (entry.1, entry.2.toJson))
    (g := fun field => (readCounter field.2).map fun c => (field.1, c)) (by simp) m.entries
  rw [readCounters, Counters.toJson]
  simp only [Json.asObject, Option.bind_eq_bind, Option.bind_some, hentries, Option.pure_def,
    m.foldl_insert_entries]

@[simp] theorem readDetail_toJson (d : CacheWriteDetail) : readDetail d.toJson = some d := by
  rw [readDetail, CacheWriteDetail.toJson,
    structFields_of_keys ["input_tokens", "ttl_seconds"] _ rfl (by decide) (by decide)]
  simp only [Assoc.get_cons, String.reduceEq, if_true, if_false, Option.bind_eq_bind,
    Option.bind_some, readU64_json, readCounter_toJson, Option.pure_def]

@[simp] theorem readUsage_toJson (u : CanonicalUsage) : readUsage u.toJson = some u := by
  have hdetails := mapM_map_some readDetail_toJson u.cacheWriteDetails
  have hviolations := mapM_map_some (f := Json.string) (g := asStr) (fun _ => rfl) u.violations
  rw [readUsage, CanonicalUsage.toJson, structFields_of_keys ["cache_write_details", "counters", "reported", "violations"] _ rfl (by decide) (by decide)]
  simp only [Assoc.get_cons, String.reduceEq, if_true, if_false, Option.bind_eq_bind,
    Option.bind_some, Json.asArray, readCounters_toJson, hdetails, hviolations, Option.pure_def]

@[simp] theorem readInterpretation_toJson (i : Interpretation) :
    readInterpretation i.toJson = some i := by
  rw [readInterpretation, Interpretation.toJson, structFields_of_keys ["executable_sha256", "kind", "package_id", "package_sha256", "package_version", "protocol",
      "provider_protocol"] _ rfl (by decide) (by decide)]
  rfl

/-- The names of the fields in the order of the keys. -/
def entryNames (interpretation profile : List String) : List String :=
  ["attempt_id", "configuration_sha256", "event_id", "finality", "gateway"] ++ interpretation ++
    ["kind", "model_alias", "observation_incomplete", "observed_at_ms", "producer_id"] ++ profile ++
    ["provider", "provider_request_id", "provider_response_id", "reported_model", "request_id",
      "revision", "schema", "started_at_ms", "upstream", "upstream_model", "usage"]

/-- A reader that finds what it reads goes on with it. -/
theorem bind_of_some {α β : Type} {o : Option α} {f : α → Option β} {a : α} {b : β}
    (h : o = some a) (hf : f a = some b) : (o >>= f) = some b := by
  rw [h]
  exact hf

theorem readV1_entries (e : UsageEventV1) :
    readV1 (.object (RecordedEvent.v1 e).entries) = some e := by
  refine bind_of_some (structFields_of_keys (entryNames [] ["profile"]) _ rfl (by decide) (by decide)) ?_
  refine bind_of_some rfl <| bind_of_some rfl <| bind_of_some rfl <| bind_of_some rfl <|
    bind_of_some rfl <| bind_of_some (readU64_json e.revision) ?_
  refine bind_of_some (readKind_json e.kind) <| bind_of_some (readU64_json e.startedAtMs) <|
    bind_of_some (readU64_json e.observedAtMs) ?_
  refine bind_of_some rfl <| bind_of_some rfl <| bind_of_some rfl ?_
  refine bind_of_some (optionalStr_json e.reportedModel) <|
    bind_of_some (optionalStr_json e.providerRequestId) <|
    bind_of_some (optionalStr_json e.providerResponseId) ?_
  refine bind_of_some (readProfile_json e.profile) <| bind_of_some rfl <|
    bind_of_some (readOutcome_json e.upstream) <| bind_of_some (readOutcome_json e.gateway) ?_
  exact bind_of_some (readFinality_json e.finality) <| bind_of_some rfl <|
    bind_of_some (readUsage_toJson e.usage) rfl

theorem readV2_entries (e : UsageEventV2) :
    readV2 (.object (RecordedEvent.v2 e).entries) = some e := by
  refine bind_of_some (structFields_of_keys (entryNames ["interpretation"] []) _ rfl (by decide) (by decide)) ?_
  refine bind_of_some rfl <| bind_of_some rfl <| bind_of_some rfl <| bind_of_some rfl <|
    bind_of_some rfl <| bind_of_some (readU64_json e.revision) ?_
  refine bind_of_some (readKind_json e.kind) <| bind_of_some (readU64_json e.startedAtMs) <|
    bind_of_some (readU64_json e.observedAtMs) ?_
  refine bind_of_some rfl <| bind_of_some rfl <| bind_of_some rfl ?_
  refine bind_of_some (optionalStr_json e.reportedModel) <|
    bind_of_some (optionalStr_json e.providerRequestId) <|
    bind_of_some (optionalStr_json e.providerResponseId) ?_
  refine bind_of_some (readInterpretation_toJson e.interpretation) <| bind_of_some rfl <|
    bind_of_some (readOutcome_json e.upstream) <| bind_of_some (readOutcome_json e.gateway) ?_
  exact bind_of_some (readFinality_json e.finality) <| bind_of_some rfl <|
    bind_of_some (readUsage_toJson e.usage) rfl

theorem deserialize_toValue {e : RecordedEvent} (h : e.validate = true) :
    RecordedEvent.deserialize e.toValue = some e := by
  rw [RecordedEvent.deserialize, schema_of_validate h, toValue_eq]
  cases e with
  | v1 event => simp [RecordedEvent.isV2, readV1_entries]
  | v2 event =>
      have hne : ¬schemaV2 = schema := by decide
      simp [RecordedEvent.isV2, hne, readV2_entries]

end Readers

section Settled

open Json (SettledFields settledItems_iff settledFields_iff numberToken)

theorem settled_object {fields : Json.Fields} (keys : List String)
    (hkeys : fields.map Prod.fst = keys) (hsorted : keys.Pairwise (· < ·))
    (htoken : keys.head? ≠ some numberToken) (h : SettledFields fields) :
    Json.Settled (.object fields) := by
  subst hkeys
  rw [Json.Settled, ← List.head?_map]
  exact ⟨htoken, List.pairwise_map.1 hsorted, h⟩

theorem settled_u64 (n : UInt64) : Json.Settled (u64Json n) := Json.Number.settled_ofNat n.toNat

theorem settled_optionalU64 (o : Option UInt64) : Json.Settled (optionalU64Json o) := by
  cases o with
  | none => trivial
  | some n => exact settled_u64 n

theorem settled_optionalText (o : Option String) : Json.Settled (optionalTextJson o) := by
  cases o <;> trivial

theorem settled_counter (c : Counter) : Json.Settled c.toJson :=
  settled_object ["source", "value"] rfl (by decide +kernel) (by decide)
    ⟨trivial, settled_optionalU64 c.value, trivial⟩

/-- No key of the counters stands for a number. -/
theorem settled_counters {m : Counters} (h : numberToken ∉ m.keys) : Json.Settled m.toJson := by
  have hkeys : (m.entries.map fun entry => (entry.1, entry.2.toJson)).map Prod.fst = m.keys :=
    List.map_map
  refine settled_object m.keys hkeys (List.pairwise_map.2 m.sorted)
    (fun hhead => h (List.mem_of_head? hhead)) ?_
  rw [settledFields_iff]
  intro entry hentry
  obtain ⟨counter, -, rfl⟩ := List.mem_map.1 hentry
  exact settled_counter counter.2

theorem settled_detail (d : CacheWriteDetail) : Json.Settled d.toJson :=
  settled_object ["input_tokens", "ttl_seconds"] rfl (by decide +kernel) (by decide)
    ⟨settled_counter d.inputTokens, settled_u64 d.ttlSeconds, trivial⟩

/-- The keys of valid counters are known names. -/
theorem keys_of_validate {u : CanonicalUsage} (h : u.validate = true) :
    numberToken ∉ u.counters.keys ∧ numberToken ∉ u.reported.keys := by
  simp only [CanonicalUsage.validate, Bool.and_eq_true, decide_eq_true_eq, List.all_eq_true] at h
  obtain ⟨⟨⟨⟨⟨⟨⟨⟨⟨hsize, hfields⟩, -⟩, -⟩, -⟩, -⟩, -⟩, -⟩, hreported⟩, -⟩ := h
  constructor
  · intro htoken
    have hnodup : (numberToken :: fields).Nodup := by decide
    have hsubset : numberToken :: fields ⊆ u.counters.keys := by
      intro key hkey
      rcases List.mem_cons.1 hkey with rfl | hfield
      · exact htoken
      · exact OrderedMap.mem_keys.2 (hfields key hfield)
    have hlength := (hnodup.subperm hsubset).length_le
    rw [← OrderedMap.size_eq_keys, hsize, List.length_cons] at hlength
    omega
  · intro htoken
    exact absurd (hreported _ htoken) (by decide)

theorem settled_usage {u : CanonicalUsage} (h : u.validate = true) : Json.Settled u.toJson := by
  obtain ⟨hcounters, hreported⟩ := keys_of_validate h
  refine settled_object ["cache_write_details", "counters", "reported", "violations"] rfl
    (by decide +kernel) (by decide)
    ⟨settledItems_iff.2 fun item hitem => ?_, settled_counters hcounters,
      settled_counters hreported, settledItems_iff.2 fun item hitem => ?_, trivial⟩
  · obtain ⟨detail, -, rfl⟩ := List.mem_map.1 hitem
    exact settled_detail detail
  · obtain ⟨violation, -, rfl⟩ := List.mem_map.1 hitem
    trivial

theorem settled_interpretation (i : Interpretation) : Json.Settled i.toJson :=
  settled_object ["executable_sha256", "kind", "package_id", "package_sha256", "package_version",
    "protocol", "provider_protocol"] rfl (by decide +kernel) (by decide)
    ⟨trivial, trivial, trivial, trivial, trivial, trivial, trivial, trivial⟩

theorem validate_usage {e : RecordedEvent} (h : e.validate = true) :
    e.view.usage.validate = true := by
  cases e with
  | v1 e =>
      simp only [RecordedEvent.validate, UsageEvent.validate, Bool.and_eq_true] at h
      exact h.1.2
  | v2 e =>
      simp only [RecordedEvent.validate, UsageEventV2.validate, Bool.and_eq_true] at h
      exact h.1.1.2

/-- What is written for a valid event is kept as it is when it is read. -/
theorem settled_toValue {e : RecordedEvent} (h : e.validate = true) : Json.Settled e.toValue := by
  have husage := settled_usage (validate_usage h)
  rw [toValue_eq]
  cases e with
  | v1 e =>
      exact settled_object (entryNames [] ["profile"]) rfl (by decide +kernel) (by decide)
        ⟨trivial, trivial, trivial, trivial, trivial, trivial, trivial, trivial,
          settled_u64 e.observedAtMs, trivial, trivial, trivial,
          settled_optionalText e.providerRequestId, settled_optionalText e.providerResponseId,
          settled_optionalText e.reportedModel, trivial, settled_u64 e.revision, trivial,
          settled_u64 e.startedAtMs, trivial, trivial, husage, trivial⟩
  | v2 e =>
      exact settled_object (entryNames ["interpretation"] []) rfl (by decide +kernel) (by decide)
        ⟨trivial, trivial, trivial, trivial, trivial, settled_interpretation e.interpretation,
          trivial, trivial, trivial, settled_u64 e.observedAtMs, trivial, trivial,
          settled_optionalText e.providerRequestId, settled_optionalText e.providerResponseId,
          settled_optionalText e.reportedModel, trivial, settled_u64 e.revision, trivial,
          settled_u64 e.startedAtMs, trivial, trivial, husage, trivial⟩

end Settled

section Canonical

variable {e : RecordedEvent} {b : ByteArray} {sha256 : String}

theorem utf8_injective {s t : Text} (h : RecordedEvent.utf8 s = RecordedEvent.utf8 t) : s = t :=
  String.ofList_injective (String.toByteArray_inj.1 h)

theorem size_utf8 (text : Text) : (RecordedEvent.utf8 text).size = text.len :=
  utf8ByteSize_ofList text

theorem fromUTF8_utf8 (text : Text) :
    String.fromUTF8? (RecordedEvent.utf8 text) = some (String.ofList text) :=
  dif_pos (String.ofList text).isValidUTF8

theorem byteString_ok :
    e.byteString = .ok b ↔ ∃ text, e.bytes = .ok text ∧ RecordedEvent.utf8 text = b := by
  rw [RecordedEvent.byteString, bind_ok]
  simp only [pure_ok]

/-- The bytes of an event are read as the event, whatever is done with it then. -/
theorem fromSlice_byteString (h : e.byteString = .ok b) : RecordedEvent.fromSlice b = some e := by
  obtain ⟨text, htext, rfl⟩ := byteString_ok.1 h
  obtain ⟨hvalid, rfl, -⟩ := bytes_ok htext
  refine bind_of_some (fromUTF8_utf8 _) (bind_of_some ?_ (deserialize_toValue hvalid))
  rw [Json.readText, String.toList_ofList, Json.parse_render _ (nesting_toValue e),
    Option.bind_some]
  exact (Json.kept_iff _).2 (settled_toValue hvalid)

theorem size_byteString (h : e.byteString = .ok b) : b.size ≤ maxEventBytes := by
  obtain ⟨text, htext, rfl⟩ := byteString_ok.1 h
  rw [size_utf8]
  exact (bytes_ok htext).2.2

/-- What is read from stored bytes is the event that has them. -/
theorem fromByteString_ok {digest : ByteArray → String} :
    RecordedEvent.fromByteString digest b sha256 = .ok e ↔
      e.byteString = .ok b ∧ sha256 = digest b := by
  constructor
  · intro h
    obtain ⟨_, hcheck, h⟩ := bind_ok.1 h
    obtain ⟨event, -, h⟩ := bind_ok.1 h
    obtain ⟨again, hagain, h⟩ := bind_ok.1 h
    obtain ⟨_, hsame, h⟩ := bind_ok.1 h
    cases h
    simp only [rejectIf_ok, Bool.or_eq_false_iff, decide_eq_false_iff_not, not_not] at hcheck hsame
    subst hsame
    exact ⟨mapError_ok.1 hagain, hcheck.2.symm⟩
  · rintro ⟨hbytes, rfl⟩
    have hsize := size_byteString hbytes
    have hcheck : (decide (b.size > maxEventBytes) || decide (digest b ≠ digest b)) = false := by
      simpa using hsize
    have hsame : decide (b ≠ b) = false := by simp
    rw [RecordedEvent.fromByteString, hcheck, fromSlice_byteString hbytes]
    refine bind_ok.2 ⟨(), rfl, bind_ok.2 ⟨e, rfl, bind_ok.2 ⟨b, mapError_ok.2 hbytes, ?_⟩⟩⟩
    rw [hsame]
    rfl

theorem fromStoredBytes_ok {digest : Text → String} {text : Text} :
    RecordedEvent.fromStoredBytes digest text sha256 = .ok e ↔
      e.bytes = .ok text ∧ sha256 = digest text := by
  constructor
  · intro h
    obtain ⟨_, hcheck, h⟩ := bind_ok.1 h
    obtain ⟨event, -, h⟩ := bind_ok.1 h
    simp only [rejectIf_ok, Bool.or_eq_false_iff, decide_eq_false_iff_not, not_not] at hcheck
    cases hbytes : event.bytes with
    | error failure =>
        rw [hbytes] at h
        cases h
    | ok again =>
        rw [hbytes] at h
        obtain ⟨_, hsame, h⟩ := bind_ok.1 h
        cases h
        simp only [rejectIf_ok, decide_eq_false_iff_not, not_not] at hsame
        exact ⟨hsame ▸ hbytes, hcheck.2.symm⟩
  · rintro ⟨hbytes, rfl⟩
    exact fromStoredBytes_bytes digest hbytes

/-- On texts this is the reading of the ledger. -/
theorem fromByteString_utf8 (digest : ByteArray → String) (text : Text) :
    RecordedEvent.fromByteString digest (RecordedEvent.utf8 text) sha256 = .ok e ↔
      RecordedEvent.fromStoredBytes (fun text => digest (RecordedEvent.utf8 text)) text sha256 =
        .ok e := by
  rw [fromByteString_ok, fromStoredBytes_ok, byteString_ok]
  constructor
  · rintro ⟨⟨text', htext, hutf8⟩, hsha⟩
    exact ⟨utf8_injective hutf8 ▸ htext, hsha⟩
  · rintro ⟨htext, hsha⟩
    exact ⟨⟨text, htext, rfl⟩, hsha⟩

/-- The bytes of an event are a canonical encoding of it: they are read as the event and under
their own digest only, nothing else is read, and the bytes tell the event and its version. -/
theorem stored_bytes_canonical (digest : ByteArray → String) :
    (∀ e b, RecordedEvent.byteString e = .ok b →
      RecordedEvent.fromByteString digest b (digest b) = .ok e) ∧
    (∀ b sha256 e, RecordedEvent.fromByteString digest b sha256 = .ok e →
      e.byteString = .ok b ∧ sha256 = digest b) ∧
    (∀ e e' b, RecordedEvent.byteString e = .ok b → RecordedEvent.byteString e' = .ok b → e = e') ∧
    ∀ e b, RecordedEvent.byteString e = .ok b → ∀ e', RecordedEvent.fromSlice b = some e' →
      e'.isV2 = e.isV2 := by
  refine ⟨fun e b h => fromByteString_ok.2 ⟨h, rfl⟩, fun b sha256 e h => fromByteString_ok.1 h,
    fun e e' b h h' => ?_, fun e b h e' h' => ?_⟩
  · exact Option.some.inj ((fromSlice_byteString h).symm.trans (fromSlice_byteString h'))
  · rw [fromSlice_byteString h] at h'
    rw [Option.some.inj h']

/-- The first event of an attempt, which reports no counters. -/
def firstEvent : RecordedEvent :=
  .v1 {
    schema := schema, producerId := "p", requestId := "r", attemptId := "a", eventId := "e"
    revision := 0, kind := .attemptStarted, startedAtMs := 1, observedAtMs := 1, provider := "v"
    modelAlias := "m", upstreamModel := "u", reportedModel := none, providerRequestId := none
    providerResponseId := some "x", profile := .chatV1
    configurationSha256 := String.ofList (List.replicate 64 '0'), usage := .default
    upstream := .unknown, gateway := .inProgress, finality := .unobserved
    observationIncomplete := false }

theorem stored_bytes_canonical_started : ∃ b, firstEvent.byteString = .ok b ∧
    RecordedEvent.fromByteString (fun _ => "") b "" = .ok firstEvent := by
  have hbytes : firstEvent.bytes.toOption.isSome = true := by decide +kernel
  cases htext : firstEvent.bytes with
  | error failure =>
      rw [htext] at hbytes
      cases hbytes
  | ok text =>
      have hstored := byteString_ok.2 ⟨text, htext, rfl⟩
      exact ⟨_, hstored, (stored_bytes_canonical fun _ => "").1 firstEvent _ hstored⟩

end Canonical

end ResponseGateway.Usage
