import ResponseGateway.Continuation.Replay
import ResponseGateway.Library.JsonValue

/-!
Reading the layouts of `continuation::replay` back. Unknown and repeated fields are
refused in each layout and in the native state inside it. A layout that was written
reads as itself exactly when the free-form values in it survive a parser.
-/

namespace ResponseGateway.Continuation
open Ir Json

inductive ReplayVersion where
  | v1
  | v2
  | v3
  deriving DecidableEq, Repr

def ReplayRecord.version : ReplayRecord → ReplayVersion
  | .v1 _ => .v1
  | .v2 _ => .v2
  | .v3 _ => .v3

section Reading

def readOrigin (value : Json) : Option Origin := do
  let get ← structFields ["route", "realm", "generation"] value
  let route ← (get "route").bind kept
  let realm ← (get "realm").bind asStr
  let generation ← (get "generation").bind asStr
  return { route, realm, generation }

def readValues (value : Json) : Option (List Json) := value.asArray.bind keptItems

def readOutcome (value : Json) : Option Outcome := do
  match ← unitVariant value with
  | "completed" => some .completed
  | "awaiting_tools" => some .awaitingTools
  | _ => none

def readDialect (value : Json) : Option ChatDialect := do
  match ← unitVariant value with
  | "deep_seek" => some .deepSeek
  | "open_router" => some .openRouter
  | _ => none

def readNative (value : Json) : Option NativeReplay := do
  let (format, value) ← tagged "format" value
  match format with
  | "gemini_steps" =>
      let get ← structFields ["version", "steps"] value
      let version ← (get "version").bind asU32
      let steps ← (get "steps").bind readValues
      return .gemini version steps
  | "chat_assistant" =>
      let get ← structFields ["version", "dialect", "assistant", "controls"] value
      let version ← (get "version").bind asU32
      let dialect ← (get "dialect").bind readDialect
      let assistant ← (get "assistant").bind kept
      let controls ← (get "controls").bind kept
      return .chat version dialect assistant controls
  | "messages_content" =>
      let get ← structFields ["version", "blocks", "controls"] value
      let version ← (get "version").bind asU32
      let blocks ← (get "blocks").bind readValues
      let controls ← (get "controls").bind kept
      return .messages version blocks controls
  | _ => none

def readBinding (value : Json) : Option ProviderBindingWire := do
  let get ← structFields
    ["protocol", "provider_protocol", "id", "version", "package_sha256", "executable_sha256"] value
  let protocol ← (get "protocol").bind asStr
  let providerProtocol ← (get "provider_protocol").bind asStr
  let id ← (get "id").bind asStr
  let version ← (get "version").bind asStr
  let packageSha256 ← (get "package_sha256").bind asStr
  let executableSha256 ← (get "executable_sha256").bind asStr
  return { protocol, providerProtocol, id, version, packageSha256, executableSha256 }

def readWire (value : Json) : Option ProviderReplayWire := do
  let get ← structFields ["binding", "format", "version", "data_base64"] value
  let binding ← (get "binding").bind readBinding
  let format ← (get "format").bind asStr
  let version ← (get "version").bind asU32
  let dataBase64 ← (get "data_base64").bind asStr
  return { binding, format, version, dataBase64 }

/-- The fields all layouts share. -/
def readFields (get : String → Option Json) : Option ReplayFields := do
  let schema ← (get "schema").bind asStr
  let session ← (get "session").bind asStr
  let epoch ← (get "epoch").bind asI64
  let origin ← (get "origin").bind readOrigin
  let response ← (get "response").bind asStr
  let parent ← optionalStr (get "parent")
  let inputLen ← (get "input_len").bind asU64
  let inputSha256 ← (get "input_sha256").bind asStr
  let output ← (get "output").bind readValues
  return { schema, session, epoch, origin, response, parent, inputLen, inputSha256, output }

/-- The names of the fields of a layout around its own two. -/
def layout (own : List String) : List String :=
  ["schema", "session", "epoch", "origin", "response", "parent", "input_len", "input_sha256"] ++
    own ++ ["output"]

def readRecord (version : ReplayVersion) (value : Json) : Option ReplayRecord :=
  match version with
  | .v1 => do
      let get ← structFields (layout ["provider_status", "steps"]) value
      let fields ← readFields get
      let providerStatus ← (get "provider_status").bind asStr
      let steps ← (get "steps").bind readValues
      return .v1 { fields with providerStatus, steps }
  | .v2 => do
      let get ← structFields (layout ["outcome", "native"]) value
      let fields ← readFields get
      let outcome ← (get "outcome").bind readOutcome
      let native ← (get "native").bind readNative
      return .v2 { fields with outcome, native }
  | .v3 => do
      let get ← structFields (layout ["outcome", "native"]) value
      let fields ← readFields get
      let outcome ← (get "outcome").bind readOutcome
      let native ← (get "native").bind readWire
      return .v3 { fields with outcome, native }

end Reading

section RoundTrip

theorem readOrigin_toJson (origin : Origin) :
    readOrigin origin.toJson = (kept origin.route).map fun route => { origin with route } := by
  rw [readOrigin, Origin.toJson, structFields_object (by rfl) (by decide)]
  simp only [Option.bind_eq_bind, Option.bind_some, Assoc.get_cons, String.reduceEq, if_true,
    if_false, asStr, Option.pure_def]
  cases kept origin.route <;> rfl

theorem readOutcome_toJson (outcome : Outcome) : readOutcome (outcomeToJson outcome) = some outcome := by
  cases outcome <;> rfl

theorem readDialect_toJson (dialect : ChatDialect) :
    readDialect (dialectToJson dialect) = some dialect := by
  cases dialect <;> rfl

theorem readBinding_toJson (binding : ProviderBindingWire) :
    readBinding (.object [("protocol", .string binding.protocol),
      ("provider_protocol", .string binding.providerProtocol), ("id", .string binding.id),
      ("version", .string binding.version), ("package_sha256", .string binding.packageSha256),
      ("executable_sha256", .string binding.executableSha256)]) = some binding := by
  rw [readBinding, structFields_object (by rfl) (by decide)]
  rfl

theorem readWire_toJson {wire : ProviderReplayWire} (h : wire.version < 2 ^ 32) :
    readWire wire.toJson = some wire := by
  rw [readWire, ProviderReplayWire.toJson, structFields_object (by rfl) (by decide)]
  simp [Assoc.get_cons, readBinding_toJson, asU32_ofNat h, asStr]

/-- The free-form values of a native state. -/
def nativeValues : NativeReplay → List Json
  | .gemini _ steps => steps
  | .chat _ _ assistant controls => [assistant, controls]
  | .messages _ blocks controls => blocks ++ [controls]

def nativeVersion : NativeReplay → Nat
  | .gemini version _ | .chat version _ _ _ | .messages version _ _ => version

theorem readValues_iff {items : List Json} :
    readValues (.array items) = some items ↔ ∀ item ∈ items, Json.Settled item := by
  rw [← settledItems_iff, ← keptItems_iff]
  rfl

theorem readNative_toJson {native : NativeReplay} (h : nativeVersion native < 2 ^ 32) :
    readNative (nativeToJson native) = some native ↔
      ∀ value ∈ nativeValues native, Json.Settled value := by
  cases native with
  | gemini version steps =>
      rw [readNative, nativeToJson, tagged_object (by simp)]
      simp only [Option.bind_eq_bind, Option.bind_some]
      rw [structFields_object (by rfl) (by decide)]
      simp [Assoc.get_cons, asU32_ofNat (n := version) h, Option.bind_eq_some_iff, readValues_iff,
        nativeValues]
  | chat version dialect assistant controls =>
      rw [readNative, nativeToJson, tagged_object (by simp)]
      simp only [Option.bind_eq_bind, Option.bind_some]
      rw [structFields_object (by rfl) (by decide)]
      simp [Assoc.get_cons, asU32_ofNat (n := version) h, readDialect_toJson,
        Option.bind_eq_some_iff, kept_iff, nativeValues]
  | messages version blocks controls =>
      rw [readNative, nativeToJson, tagged_object (by simp)]
      simp only [Option.bind_eq_bind, Option.bind_some]
      rw [structFields_object (by rfl) (by decide)]
      simp [Assoc.get_cons, asU32_ofNat (n := version) h, Option.bind_eq_some_iff, kept_iff,
        readValues_iff, nativeValues, or_imp, forall_and]

/-- The ranges of the machine integers in the shared fields. -/
structure ReplayFields.InRange (replay : ReplayFields) : Prop where
  epoch_ge : -2 ^ 63 ≤ replay.epoch
  epoch_lt : replay.epoch < 2 ^ 63
  inputLen_lt : replay.inputLen < 2 ^ 64

/-- The entries of a written layout with its own two. -/
def ReplayFields.entries (replay : ReplayFields) (own : Fields) : Fields :=
  [("schema", .string replay.schema), ("session", .string replay.session),
    ("epoch", .number (.ofInt replay.epoch)), ("origin", replay.origin.toJson),
    ("response", .string replay.response),
    ("parent", (replay.parent.map Json.string).getD .null),
    ("input_len", .number (.ofNat replay.inputLen)),
    ("input_sha256", .string replay.inputSha256)] ++ own ++ [("output", .array replay.output)]

theorem ReplayFields.toJson_entries (replay : ReplayFields) (own : Fields) :
    replay.toJson own = .object (replay.entries own) := rfl

theorem readFields_iff {replay : ReplayFields} (hr : replay.InRange) (hpos : 0 < replay.epoch)
    {own : Fields} {get : String → Option Json}
    (hget : ∀ key value, (key, value) ∈ replay.entries own → get key = some value) :
    readFields get = some replay ↔
      Json.Settled replay.origin.route ∧ ∀ value ∈ replay.output, Json.Settled value := by
  unfold readFields
  rw [hget "schema" (.string replay.schema) (by simp [ReplayFields.entries]),
    hget "session" (.string replay.session) (by simp [ReplayFields.entries]),
    hget "epoch" (.number (.ofInt replay.epoch)) (by simp [ReplayFields.entries]),
    hget "origin" replay.origin.toJson (by simp [ReplayFields.entries]),
    hget "response" (.string replay.response) (by simp [ReplayFields.entries]),
    hget "parent" ((replay.parent.map Json.string).getD .null) (by simp [ReplayFields.entries]),
    hget "input_len" (.number (.ofNat replay.inputLen)) (by simp [ReplayFields.entries]),
    hget "input_sha256" (.string replay.inputSha256) (by simp [ReplayFields.entries]),
    hget "output" (.array replay.output) (by simp [ReplayFields.entries])]
  simp only [Option.bind_eq_bind, Option.bind_some, asStr, asI64_ofInt hpos hr.epoch_lt,
    asU64_ofNat hr.inputLen_lt, optionalStr_map, readOrigin_toJson, Option.pure_def,
    Option.bind_eq_some_iff, Option.map_eq_some_iff, Option.some.injEq]
  constructor
  · rintro ⟨origin, ⟨route, hroute, rfl⟩, output, hvalues, heq⟩
    have hsame : route = replay.origin.route := congrArg (fun r => r.origin.route) heq
    have hall : output = replay.output := congrArg (fun r => r.output) heq
    exact ⟨(kept_iff _).1 (hsame ▸ hroute), readValues_iff.1 (hall ▸ hvalues)⟩
  · rintro ⟨hroute, hvalues⟩
    exact ⟨_, ⟨_, (kept_iff _).2 hroute, rfl⟩, _, readValues_iff.2 hvalues, rfl⟩

/-- The fields of a written layout are found under their names. -/
theorem structFields_entries (replay : ReplayFields) (own : Fields)
    (hown : (layout (own.map Prod.fst)).Nodup) :
    ∃ get, structFields (layout (own.map Prod.fst)) (.object (replay.entries own)) = some get ∧
      ∀ key value, (key, value) ∈ replay.entries own → get key = some value := by
  have hkeys : (replay.entries own).map Prod.fst = layout (own.map Prod.fst) := by
    simp [ReplayFields.entries, layout]
  exact ⟨_, structFields_object hkeys hown,
    fun key value hmem => Assoc.get_of_nodup (hkeys ▸ hown) hmem⟩

/-- The ranges of the machine integers in a record. -/
def ReplayRecord.InRange : ReplayRecord → Prop
  | .v1 replay => replay.toReplayFields.InRange
  | .v2 replay => replay.toReplayFields.InRange ∧ nativeVersion replay.native < 2 ^ 32
  | .v3 replay => replay.toReplayFields.InRange ∧ replay.native.version < 2 ^ 32

/-- The free-form values of a record. -/
def ReplayRecord.values : ReplayRecord → List Json
  | .v1 replay => replay.origin.route :: (replay.steps ++ replay.output)
  | .v2 replay => replay.origin.route :: (nativeValues replay.native ++ replay.output)
  | .v3 replay => replay.origin.route :: replay.output

/-- A record that was written is read as itself exactly when its values are settled. -/
theorem readRecord_iff {r : ReplayRecord} (hr : r.InRange) (hpos : 0 < r.fields.epoch) :
    readRecord r.version r.toJson = some r ↔ ∀ value ∈ r.values, Json.Settled value := by
  have hlayouts : (layout ["provider_status", "steps"]).Nodup ∧
      (layout ["outcome", "native"]).Nodup := by decide
  cases r with
  | v1 replay =>
      obtain ⟨get, hfields, hget⟩ := structFields_entries replay.toReplayFields [("provider_status", .string replay.providerStatus),
          ("steps", .array replay.steps)] hlayouts.1
      have hshared := readFields_iff hr hpos hget
      simp only [ReplayRecord.version, readRecord, ReplayRecord.toJson,
        ReplayFields.toJson_entries, List.map_cons, List.map_nil, Option.bind_eq_bind] at hfields ⊢
      rw [hfields, Option.bind_some,
        hget "provider_status" (.string replay.providerStatus) (by simp [ReplayFields.entries]),
        hget "steps" (.array replay.steps) (by simp [ReplayFields.entries])]
      simp only [Option.bind_some, asStr, Option.pure_def, Option.bind_eq_some_iff,
        Option.some.injEq, ReplayRecord.v1.injEq, ReplayRecord.values, List.forall_mem_cons,
        List.forall_mem_append]
      constructor
      · rintro ⟨fields, hread, steps, hsteps, heq⟩
        have hfirst : fields = replay.toReplayFields := congrArg Replay.toReplayFields heq
        have hsecond : steps = replay.steps := congrArg Replay.steps heq
        subst hfirst hsecond
        obtain ⟨hroute, houtput⟩ := hshared.1 hread
        exact ⟨hroute, readValues_iff.1 hsteps, houtput⟩
      · rintro ⟨hroute, hsteps, houtput⟩
        exact ⟨_, hshared.2 ⟨hroute, houtput⟩, _, readValues_iff.2 hsteps, rfl⟩
  | v2 replay =>
      obtain ⟨get, hfields, hget⟩ := structFields_entries replay.toReplayFields [("outcome", outcomeToJson replay.outcome),
          ("native", nativeToJson replay.native)] hlayouts.2
      have hshared := readFields_iff hr.1 hpos hget
      simp only [ReplayRecord.version, readRecord, ReplayRecord.toJson,
        ReplayFields.toJson_entries, List.map_cons, List.map_nil, Option.bind_eq_bind] at hfields ⊢
      rw [hfields, Option.bind_some,
        hget "outcome" (outcomeToJson replay.outcome) (by simp [ReplayFields.entries]),
        hget "native" (nativeToJson replay.native) (by simp [ReplayFields.entries])]
      simp only [Option.bind_some, readOutcome_toJson, Option.pure_def, Option.bind_eq_some_iff,
        Option.some.injEq, ReplayRecord.v2.injEq, ReplayRecord.values, List.forall_mem_cons,
        List.forall_mem_append]
      constructor
      · rintro ⟨fields, hread, native, hnative, heq⟩
        have hfirst : fields = replay.toReplayFields := congrArg ReplayV2.toReplayFields heq
        have hsecond : native = replay.native := congrArg ReplayV2.native heq
        subst hfirst hsecond
        obtain ⟨hroute, houtput⟩ := hshared.1 hread
        exact ⟨hroute, (readNative_toJson hr.2).1 hnative, houtput⟩
      · rintro ⟨hroute, hnative, houtput⟩
        exact ⟨_, hshared.2 ⟨hroute, houtput⟩, _, (readNative_toJson hr.2).2 hnative, rfl⟩
  | v3 replay =>
      obtain ⟨get, hfields, hget⟩ := structFields_entries replay.toReplayFields [("outcome", outcomeToJson replay.outcome), ("native", replay.native.toJson)] hlayouts.2
      have hshared := readFields_iff hr.1 hpos hget
      simp only [ReplayRecord.version, readRecord, ReplayRecord.toJson,
        ReplayFields.toJson_entries, List.map_cons, List.map_nil, Option.bind_eq_bind] at hfields ⊢
      rw [hfields, Option.bind_some,
        hget "outcome" (outcomeToJson replay.outcome) (by simp [ReplayFields.entries]),
        hget "native" replay.native.toJson (by simp [ReplayFields.entries])]
      simp only [Option.bind_some, readOutcome_toJson, readWire_toJson hr.2, Option.pure_def,
        Option.bind_eq_some_iff, Option.some.injEq, ReplayRecord.v3.injEq, ReplayRecord.values,
        List.forall_mem_cons]
      constructor
      · rintro ⟨fields, hread, heq⟩
        have hfirst : fields = replay.toReplayFields := congrArg ReplayV3.toReplayFields heq
        subst hfirst
        exact hshared.1 hread
      · rintro hvalues
        exact ⟨_, hshared.2 hvalues, rfl⟩

end RoundTrip

end ResponseGateway.Continuation
