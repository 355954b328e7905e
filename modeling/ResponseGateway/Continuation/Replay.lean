import ResponseGateway.Continuation.Store
import ResponseGateway.Ir.NativeState
import ResponseGateway.Library.JsonNumber

/-!
`continuation::replay`: the three layouts of a finalized record. They share the
fields `ReplayFields`; only the native part and the outcome differ. A layout is
serialized in the order of its declaration, and this text is what a finalized
digest is taken over. Base64 belongs to another crate and is a parameter.
-/

namespace ResponseGateway.Continuation
open Checked Ir

def schemaV1 : String := "gateway-continuation/v1"
def schemaV2 : String := "gateway-continuation/v2"
def schemaV3 : String := "gateway-continuation/v3"

/-- The standard alphabet with padding. -/
structure Base64 where
  encode : ByteArray → String
  decode : String → Option ByteArray

structure ReplayFields where
  schema : String
  session : String
  epoch : Int
  origin : Origin
  response : String
  parent : Option String
  inputLen : Nat
  inputSha256 : String
  output : List Json
  deriving DecidableEq, Repr

structure Replay extends ReplayFields where
  providerStatus : String
  steps : List Json
  deriving DecidableEq

structure ReplayV2 extends ReplayFields where
  outcome : Outcome
  native : NativeReplay
  deriving DecidableEq

structure ProviderBindingWire extends ProviderStateBinding where
  deriving DecidableEq

structure ProviderReplayWire where
  binding : ProviderBindingWire
  format : String
  version : Nat
  dataBase64 : String
  deriving DecidableEq

structure ReplayV3 extends ReplayFields where
  outcome : Outcome
  native : ProviderReplayWire
  deriving DecidableEq

inductive ReplayRecord where
  | v1 (replay : Replay)
  | v2 (replay : ReplayV2)
  | v3 (replay : ReplayV3)
  deriving DecidableEq

structure NormalizedReplay where
  response : String
  parent : Option String
  inputLen : Nat
  inputSha256 : String
  native : NativeState
  output : List Json
  deriving DecidableEq

/-- What a turn knows about its record before the native state is added. -/
structure ReplayMetadataOwned where
  session : String
  epoch : Int
  origin : Origin
  response : String
  parent : Option String
  inputLen : Nat
  inputSha256 : String
  outcome : Outcome
  deriving DecidableEq

section Providers

namespace ProviderBindingWire

/-- The route of the origin names this plugin and its package. -/
def matchesOrigin (binding : ProviderBindingWire) (origin : Origin) : Bool :=
  let projection := (origin.route.field "provider_plugin").getD .null
  origin.route.fieldStr "api" = some "plugin" &&
    projection.fieldStr "protocol" = some binding.protocol &&
    projection.fieldStr "provider_protocol" = some binding.providerProtocol &&
    projection.fieldStr "id" = some binding.id &&
    projection.fieldStr "version" = some binding.version &&
    projection.fieldStr "package_sha256" = some binding.packageSha256 &&
    projection.fieldStr "executable_sha256" = some binding.executableSha256

end ProviderBindingWire

variable (base64 : Base64)

def decodeProviderState (binding : ProviderStateBinding) (format : String) (version : Nat)
    (data : String) : Except Error ProviderNativeState := do
  rejectIf (data.utf8ByteSize > (ProviderNativeState.maxBytes + 2) / 3 * 4)
    ⟨"provider state limit"⟩
  let bytes ← okOr (base64.decode data) ⟨"provider state encoding"⟩
  rejectIf (base64.encode bytes ≠ data) ⟨"provider state encoding"⟩
  (ProviderNativeState.new binding format version bytes).mapError fun _ =>
    ⟨"provider state format"⟩

namespace ProviderReplayWire

def internal (wire : ProviderReplayWire) : Except Error ProviderNativeState :=
  decodeProviderState base64 wire.binding.toProviderStateBinding wire.format wire.version
    wire.dataBase64

def fromInternal (state : ProviderNativeState) : ProviderReplayWire where
  binding := ⟨state.binding⟩
  format := state.format
  version := state.version
  dataBase64 := base64.encode state.bytes

variable {base64}

/-- State that was written reads back as itself. -/
theorem internal_fromInternal {state state' : ProviderNativeState}
    (hdecode : base64.decode (base64.encode state.bytes) = some state.bytes)
    (h : (fromInternal base64 state).internal base64 = .ok state') : state' = state := by
  simp only [internal, fromInternal, decodeProviderState, bind_ok, okOr_ok, hdecode] at h
  obtain ⟨_, -, bytes, hbytes, _, -, h⟩ := h
  cases hbytes
  cases hnew : ProviderNativeState.new state.binding state.format state.version state.bytes with
  | error e =>
      rw [hnew] at h
      cases h
  | ok made =>
      rw [hnew] at h
      cases h
      exact ProviderNativeState.new_eq hnew

end ProviderReplayWire

end Providers

section Validation

def isHexDigit (c : Char) : Bool :=
  c.isDigit || ('a' ≤ c && c ≤ 'f') || ('A' ≤ c && c ≤ 'F')

def optionalLabel (value : Option String) : Except Error Unit :=
  match value with
  | some value => label value
  | none => return ()

def Replay.validate (replay : Replay) : Except Error Unit := do
  rejectIf (replay.schema ≠ schemaV1 || replay.epoch ≤ 0 || replay.steps.isEmpty ||
    replay.inputSha256.utf8ByteSize ≠ 64 ||
    !(replay.providerStatus ∈ ["completed", "requires_action"])) ⟨"invalid replay"⟩
  label replay.session
  label replay.response
  replay.origin.validate
  optionalLabel replay.parent

def ReplayV2.validate (replay : ReplayV2) : Except Error Unit := do
  rejectIf (replay.schema ≠ schemaV2 || replay.epoch ≤ 0 ||
    replay.inputSha256.utf8ByteSize ≠ 64 || !replay.inputSha256.toList.all isHexDigit)
    ⟨"invalid replay"⟩
  label replay.session
  label replay.response
  optionalLabel replay.parent
  replay.origin.validate
  replay.native.validate.mapError fun _ => ⟨"native replay format"⟩

def ReplayV3.validate (base64 : Base64) (replay : ReplayV3) : Except Error Unit := do
  rejectIf (replay.schema ≠ schemaV3 || replay.epoch ≤ 0 || replay.inputLen > 2 ^ 32 - 1 ||
    replay.inputSha256.utf8ByteSize ≠ 64 || !replay.inputSha256.toList.all isLowerHex ||
    !replay.native.binding.matchesOrigin replay.origin) ⟨"invalid provider replay"⟩
  label replay.session
  label replay.response
  optionalLabel replay.parent
  replay.origin.validate
  let _ ← replay.native.internal base64
  return ()

end Validation

section Serialization

open Json

def Origin.toJson (origin : Origin) : Json :=
  .object [("route", origin.route), ("realm", .string origin.realm),
    ("generation", .string origin.generation)]

def outcomeToJson : Outcome → Json
  | .completed => .string "completed"
  | .awaitingTools => .string "awaiting_tools"

def dialectToJson : ChatDialect → Json
  | .deepSeek => .string "deep_seek"
  | .openRouter => .string "open_router"

def nativeToJson : NativeReplay → Json
  | .gemini version steps =>
      .object [("format", .string "gemini_steps"), ("version", .number (.ofNat version)),
        ("steps", .array steps)]
  | .chat version dialect assistant controls =>
      .object [("format", .string "chat_assistant"), ("version", .number (.ofNat version)),
        ("dialect", dialectToJson dialect), ("assistant", assistant), ("controls", controls)]
  | .messages version blocks controls =>
      .object [("format", .string "messages_content"), ("version", .number (.ofNat version)),
        ("blocks", .array blocks), ("controls", controls)]

def ProviderReplayWire.toJson (wire : ProviderReplayWire) : Json :=
  .object [
    ("binding", .object [("protocol", .string wire.binding.protocol),
      ("provider_protocol", .string wire.binding.providerProtocol),
      ("id", .string wire.binding.id), ("version", .string wire.binding.version),
      ("package_sha256", .string wire.binding.packageSha256),
      ("executable_sha256", .string wire.binding.executableSha256)]),
    ("format", .string wire.format), ("version", .number (.ofNat wire.version)),
    ("data_base64", .string wire.dataBase64)]

/-- The shared fields with those of one layout before the output. -/
def ReplayFields.toJson (replay : ReplayFields) (own : Fields) : Json :=
  .object ([("schema", .string replay.schema), ("session", .string replay.session),
    ("epoch", .number (.ofInt replay.epoch)), ("origin", replay.origin.toJson),
    ("response", .string replay.response),
    ("parent", (replay.parent.map Json.string).getD .null),
    ("input_len", .number (.ofNat replay.inputLen)),
    ("input_sha256", .string replay.inputSha256)] ++ own ++ [("output", .array replay.output)])

def ReplayRecord.toJson : ReplayRecord → Json
  | .v1 replay => replay.toReplayFields.toJson
      [("provider_status", .string replay.providerStatus), ("steps", .array replay.steps)]
  | .v2 replay => replay.toReplayFields.toJson
      [("outcome", outcomeToJson replay.outcome), ("native", nativeToJson replay.native)]
  | .v3 replay => replay.toReplayFields.toJson
      [("outcome", outcomeToJson replay.outcome), ("native", replay.native.toJson)]

end Serialization

namespace ReplayRecord

variable (base64 : Base64)

def fields : ReplayRecord → ReplayFields
  | .v1 replay => replay.toReplayFields
  | .v2 replay => replay.toReplayFields
  | .v3 replay => replay.toReplayFields

def outcome : ReplayRecord → Outcome
  | .v1 replay => if replay.providerStatus = "requires_action" then .awaitingTools else .completed
  | .v2 replay => replay.outcome
  | .v3 replay => replay.outcome

def validate : ReplayRecord → Except Error Unit
  | .v1 replay => replay.validate
  | .v2 replay => replay.validate
  | .v3 replay => replay.validate base64

def nativeState : ReplayRecord → Except Error NativeState
  | .v1 replay => return .builtin (.gemini 1 replay.steps)
  | .v2 replay => return .builtin replay.native
  | .v3 replay => do
      let state ← replay.native.internal base64
      return .provider state

def intoNormalized (record : ReplayRecord) : Except Error NormalizedReplay := do
  record.validate base64
  let native ← record.nativeState base64
  return {
    response := record.fields.response, parent := record.fields.parent
    inputLen := record.fields.inputLen, inputSha256 := record.fields.inputSha256
    native, output := record.fields.output }

/-- The fields of a new record. -/
def newFields (metadata : ReplayMetadataOwned) (schema : String) (output : List Json) :
    ReplayFields where
  schema := schema
  session := metadata.session
  epoch := metadata.epoch
  origin := metadata.origin
  response := metadata.response
  parent := metadata.parent
  inputLen := metadata.inputLen
  inputSha256 := metadata.inputSha256
  output := output

def fromNative (metadata : ReplayMetadataOwned) (native : NativeState) (output : List Json) :
    Except Error ReplayRecord := do
  match native with
  | .builtin native =>
      rejectIf (metadata.origin.route.fieldStr "api" = some "plugin")
        ⟨"provider replay required"⟩
      let record := ReplayRecord.v2
        { newFields metadata schemaV2 output with outcome := metadata.outcome, native }
      record.validate base64
      return record
  | .provider state =>
      let record := ReplayRecord.v3
        { newFields metadata schemaV3 output with
          outcome := metadata.outcome, native := .fromInternal base64 state }
      record.validate base64
      return record

variable {base64}

theorem intoNormalized_ok {record : ReplayRecord} {replay : NormalizedReplay}
    (h : record.intoNormalized base64 = .ok replay) :
    replay.response = record.fields.response ∧ replay.parent = record.fields.parent ∧
      replay.inputLen = record.fields.inputLen ∧ replay.inputSha256 = record.fields.inputSha256 ∧
      replay.output = record.fields.output ∧ record.nativeState base64 = .ok replay.native := by
  simp only [intoNormalized, bind_ok, pure_ok] at h
  obtain ⟨_, -, native, hnative, rfl⟩ := h
  exact ⟨rfl, rfl, rfl, rfl, rfl, hnative⟩

/-- A record made from native state normalizes to what it was made from. -/
theorem intoNormalized_fromNative {metadata : ReplayMetadataOwned} {native : NativeState}
    {output : List Json} {record : ReplayRecord}
    (hbase64 : ∀ bytes, base64.decode (base64.encode bytes) = some bytes)
    (h : fromNative base64 metadata native output = .ok record) :
    record.intoNormalized base64 = .ok {
      response := metadata.response, parent := metadata.parent, inputLen := metadata.inputLen
      inputSha256 := metadata.inputSha256, native, output } := by
  cases native with
  | builtin native =>
      simp only [fromNative, bind_ok, pure_ok] at h
      obtain ⟨_, -, _, hvalid, rfl⟩ := h
      rw [intoNormalized, hvalid]
      rfl
  | provider state =>
      simp only [fromNative, bind_ok, pure_ok] at h
      obtain ⟨_, hvalid, rfl⟩ := h
      have hinternal : ∃ made, (ProviderReplayWire.fromInternal base64 state).internal base64 =
          .ok made := by
        simp only [validate, ReplayV3.validate, bind_ok] at hvalid
        obtain ⟨_, -, _, -, _, -, _, -, _, -, made, hmade, -⟩ := hvalid
        exact ⟨made, hmade⟩
      obtain ⟨made, hmade⟩ := hinternal
      cases ProviderReplayWire.internal_fromInternal (hbase64 state.bytes) hmade
      rw [intoNormalized, hvalid]
      simp only [nativeState, hmade, bind_of_ok]
      rfl

/-- A new record carries the metadata of its turn. -/
theorem fields_fromNative {metadata : ReplayMetadataOwned} {native : NativeState}
    {output : List Json} {record : ReplayRecord}
    (h : fromNative base64 metadata native output = .ok record) :
    ∃ schema, record.fields = newFields metadata schema output := by
  cases native with
  | builtin native =>
      simp only [fromNative, bind_ok, pure_ok] at h
      obtain ⟨_, -, _, -, rfl⟩ := h
      exact ⟨schemaV2, rfl⟩
  | provider state =>
      simp only [fromNative, bind_ok, pure_ok] at h
      obtain ⟨_, -, rfl⟩ := h
      exact ⟨schemaV3, rfl⟩

end ReplayRecord
end ResponseGateway.Continuation
