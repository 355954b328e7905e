import ResponseGateway.Ir.NativeState
import ResponseGateway.Usage.StoredBytes

/-!
Packages and activations as `extensions::decode` reads them and `validate` checks them. The
readers are the derived ones: a structure is a map of its fields or the list of them, in which
defaulted fields at the end may be left out, and of a repeated key of a map the last value
counts. `decode` therefore writes again what it has read.
-/

namespace ResponseGateway.Extensions
open Checked Ir Usage
open Json (structFields unitVariant asStr asU64 optionalStr)

def packageSchema : String := "gateway-extension-package/v1"

def capabilitiesPackageSchema : String := "gateway-extension-package/v2"

def lockSchema : String := "gateway-extension-lock/v1"

def observerProtocol : String := "gateway-observer/v1"

def recorderProtocol : String := "gateway-usage-recorder/v1"

def recorderV2Protocol : String := "gateway-usage-recorder/v2"

def codecProtocol : String := "gateway-api-codec/v1"

def editingProtocol : String := "gateway-api-codec/v2"

def capabilitiesProtocol : String := "gateway-api-codec/v3"

def capabilitiesSchema : String := "gateway-plugin-capabilities/v1"

def codecPermissions : List String := ["read_model_payload", "transform_model_protocol"]

def permissions : List String := ["observe_http_metadata", "write_private_state"]

def recorderPermissions : List String := ["export_usage", "observe_usage", "write_usage_store"]

def codecApis : List String := ["chat_completions", "gemini_interactions", "messages", "responses"]

def roleFeatures : List String := ["editing", "json", "managed_continuation", "streaming"]

def maxExtensions : Nat := 4

/-- The hosts of native extensions. -/
inductive Target where
  | linuxX64
  | linuxArm64
  | macosX64
  | macosArm64
  deriving DecidableEq, Repr

def Target.name : Target → String
  | linuxX64 => "linux-x64"
  | linuxArm64 => "linux-arm64"
  | macosX64 => "macos-x64"
  | macosArm64 => "macos-arm64"

section Reading

def invalid : String := "Invalid, incompatible or unverified extension configuration"

def decode {α : Type} (read : Json → Option α) (toValue : α → Json) (raw : ByteArray) :
    Except String α := do
  let value ← okOr (do
    let text ← String.fromUTF8? raw
    let json ← Json.parse RecordedEvent.maxDepth text.toList
    read json) invalid
  rejectIf (RecordedEvent.utf8 ((toValue value).render ++ ['\n']) ≠ raw) invalid
  return value

def validId (value : String) : Bool :=
  !value.isEmpty && decide (value.utf8ByteSize ≤ 64) && value.toList.head?.any Char.isLower &&
    value.toList.all fun c => c.isLower || c.isDigit || c = '-'

def validVersion (value : String) : Bool :=
  let parts := value.toList.splitOn '.'
  decide (parts.length = 3) && parts.all isVersionPart

def validHash (value : String) : Bool := isSha256 value

def texts (values : List String) : Json := .array (values.map .string)

def readTexts (value : Json) : Option (List String) := value.asArray.bind (·.mapM asStr)

end Reading

section Capabilities

structure Capabilities where
  schema : String
  apis : List String
  features : List String
  requires : List String
  deriving DecidableEq, Repr

namespace Capabilities

def toValue (c : Capabilities) : Json :=
  .object [("apis", texts c.apis), ("features", texts c.features), ("requires", texts c.requires),
    ("schema", .string c.schema)]

def read (value : Json) : Option Capabilities := do
  let get ← structFields ["schema", "apis", "features", "requires"] value
  let schema ← (get "schema").bind asStr
  let apis ← (get "apis").bind readTexts
  let features ← (get "features").bind readTexts
  let requires ← (get "requires").bind readTexts
  return ⟨schema, apis, features, requires⟩

def sorted : List String → Bool
  | a :: b :: rest => decide (a < b) && sorted (b :: rest)
  | _ => true

def supports (c : Capabilities) (feature : String) : Bool := c.features.any (· = feature)

def validateFor (c : Capabilities) (protocol : String) : Bool :=
  if protocol = "gateway-usage-recorder/v2" then
    c.schema = capabilitiesSchema && c.apis.isEmpty &&
      c.features = ["usage_event_v1", "usage_event_v2"] && c.requires = ["usage_recorder_ipc_v2"]
  else
    c.schema = capabilitiesSchema && sorted c.apis && sorted c.features &&
      c.features.all (roleFeatures.contains ·) && c.supports "json" &&
      if protocol = capabilitiesProtocol then
        !c.apis.isEmpty && c.apis.all (codecApis.contains ·) &&
          c.requires = ["codec_ipc_v3", "responses_output_validation"]
      else if protocol = providerProtocol then
        c.apis.isEmpty && c.requires = ["provider_ipc_v1", "responses_output_validation"]
      else false

end Capabilities

def supportedProtocol (protocol : String) : Bool :=
  protocol = codecProtocol || protocol = editingProtocol || protocol = capabilitiesProtocol

end Capabilities

section Packages

structure Package where
  schema : String
  id : String
  version : String
  target : String
  protocol : String
  permissions : List String
  stateSchema : String
  files : OrderedMap String String
  capabilities : Option Capabilities
  providerProtocol : Option String
  deriving DecidableEq

namespace Package

/-- The fields in their order, of which the last two have defaults. -/
def fields : List String :=
  ["schema", "id", "version", "target", "protocol", "permissions", "state_schema", "files",
    "capabilities", "provider_protocol"]

def readFields : Json → Option (String → Option Json)
  | .array items =>
      if 8 ≤ items.length ∧ items.length ≤ 10 then some fun key => Assoc.get key (fields.zip items)
      else none
  | value => structFields fields value

def readFiles (value : Json) : Option (OrderedMap String String) := do
  let entries ← value.asObject
  let entries ← entries.mapM fun entry => (asStr entry.2).map fun digest => (entry.1, digest)
  return entries.foldl (fun m entry => m.insert entry.1 entry.2) .empty

def readCapabilities : Option Json → Option (Option Capabilities)
  | none | some .null => some none
  | some value => (Capabilities.read value).map some

def read (value : Json) : Option Package := do
  let get ← readFields value
  let schema ← (get "schema").bind asStr
  let id ← (get "id").bind asStr
  let version ← (get "version").bind asStr
  let target ← (get "target").bind asStr
  let protocol ← (get "protocol").bind asStr
  let permissions ← (get "permissions").bind readTexts
  let stateSchema ← (get "state_schema").bind asStr
  let files ← (get "files").bind readFiles
  let capabilities ← readCapabilities (get "capabilities")
  let providerProtocol ← optionalStr (get "provider_protocol")
  return { schema, id, version, target, protocol, permissions, stateSchema, files, capabilities,
           providerProtocol }

variable (p : Package)

def filesValue : Json := .object (p.files.entries.map fun entry => (entry.1, .string entry.2))

/-- The fields that are written only where they are. -/
def capabilitiesEntry : Json.Fields :=
  p.capabilities.toList.map fun c => ("capabilities", c.toValue)

def providerEntry : Json.Fields :=
  p.providerProtocol.toList.map fun name => ("provider_protocol", .string name)

def toValue : Json :=
  .object (p.capabilitiesEntry ++
    [("files", p.filesValue), ("id", .string p.id), ("permissions", texts p.permissions),
      ("protocol", .string p.protocol)] ++ p.providerEntry ++
    [("schema", .string p.schema), ("state_schema", .string p.stateSchema),
      ("target", .string p.target), ("version", .string p.version)])

def legacy : Bool :=
  p.schema = packageSchema && p.capabilities.isNone && p.providerProtocol.isNone &&
    (p.protocol = observerProtocol || p.protocol = recorderProtocol ||
      p.protocol = codecProtocol || p.protocol = editingProtocol)

def versioned : Bool :=
  p.schema = capabilitiesPackageSchema && p.capabilities.any (·.validateFor p.protocol) &&
    if p.protocol = Ir.providerProtocol then p.providerProtocol.any validProviderProtocol
    else p.providerProtocol.isNone

/-- The permissions and the state of the role of the protocol. -/
def roleValid : Bool :=
  (p.protocol = observerProtocol && p.permissions = Extensions.permissions &&
    p.stateSchema = "observer-state/v1") ||
  (p.protocol = recorderProtocol && p.permissions = recorderPermissions &&
    p.stateSchema = "usage-store/v1") ||
  (p.protocol = "gateway-usage-recorder/v2" && p.permissions = recorderPermissions &&
    p.stateSchema = "usage-store/v2") ||
  (supportedProtocol p.protocol && p.permissions = codecPermissions &&
    p.stateSchema = "request-memory/v1") ||
  (p.protocol = Ir.providerProtocol && p.permissions = codecPermissions &&
    p.stateSchema = "provider-request-memory/v1")

def validFile (entry : String × String) : Bool :=
  let (name, digest) := entry
  !(name.isEmpty || decide (name.utf8ByteSize > 64) || !name.toList.head?.any Char.isAlphanum ||
    !name.toList.all (fun c => c.isAlphanum || c = '_' || c = '.' || c = '-') ||
    name = "extension.json" || !validHash digest)

def validate (hostTarget : Target) : Except String Unit := do
  rejectIf (!(p.legacy || p.versioned) || !validId p.id || !validVersion p.version ||
    p.target ≠ hostTarget.name || !p.roleValid || !(2 ≤ p.files.size && p.files.size ≤ 8) ||
    !p.files.contains "extension" || !p.files.contains "LICENSE.txt") invalid
  p.files.entries.forM fun entry => rejectIf (!validFile entry) invalid

end Package

end Packages

section Activations

inductive Mode where
  | off
  | bestEffort
  | durableLocal
  deriving DecidableEq, Repr

def Mode.name : Mode → String
  | off => "off"
  | bestEffort => "best_effort"
  | durableLocal => "durable_local"

structure RecorderBinding where
  storeId : String
  mode : Mode
  queueCapacity : Nat
  ackTimeoutMs : Nat
  configSha256 : String
  deriving DecidableEq, Repr

namespace RecorderBinding

def read (value : Json) : Option RecorderBinding := do
  let get ← structFields ["store_id", "mode", "queue_capacity", "ack_timeout_ms", "config_sha256"]
    value
  let storeId ← (get "store_id").bind asStr
  let mode ← (get "mode").bind (readName [.off, .bestEffort, .durableLocal] Mode.name)
  let queueCapacity ← (get "queue_capacity").bind asU64
  let ackTimeoutMs ← (get "ack_timeout_ms").bind asU64
  let configSha256 ← (get "config_sha256").bind asStr
  return ⟨storeId, mode, queueCapacity, ackTimeoutMs, configSha256⟩

variable (r : RecorderBinding)

def toValue : Json :=
  .object [("ack_timeout_ms", .number (.ofNat r.ackTimeoutMs)),
    ("config_sha256", .string r.configSha256), ("mode", .string r.mode.name),
    ("queue_capacity", .number (.ofNat r.queueCapacity)), ("store_id", .string r.storeId)]

def validate : Bool :=
  decide (r.storeId.utf8ByteSize ≤ 64) &&
    r.storeId.toList.all (fun c => c.isLower || c.isDigit || c = '-') && !r.storeId.isEmpty &&
    (2 ≤ r.queueCapacity && r.queueCapacity ≤ 4096) &&
    (1 ≤ r.ackTimeoutMs && r.ackTimeoutMs ≤ 60000) && r.configSha256.utf8ByteSize = 64

end RecorderBinding

structure EnabledExtension where
  id : String
  version : String
  packageSha256 : String
  grants : List String
  deriving DecidableEq, Repr

namespace EnabledExtension

def read (value : Json) : Option EnabledExtension := do
  let get ← structFields ["id", "version", "package_sha256", "grants"] value
  let id ← (get "id").bind asStr
  let version ← (get "version").bind asStr
  let packageSha256 ← (get "package_sha256").bind asStr
  let grants ← (get "grants").bind readTexts
  return ⟨id, version, packageSha256, grants⟩

def toValue (e : EnabledExtension) : Json :=
  .object [("grants", texts e.grants), ("id", .string e.id),
    ("package_sha256", .string e.packageSha256), ("version", .string e.version)]

def valid (e : EnabledExtension) (recorder : Bool) : Bool :=
  validId e.id && validVersion e.version && validHash e.packageSha256 &&
    (e.grants = permissions || e.grants = codecPermissions ||
      (recorder && e.grants = recorderPermissions))

end EnabledExtension

structure Activation where
  schema : String
  recorder : Option RecorderBinding
  generation : Nat
  extensions : List EnabledExtension
  deriving DecidableEq, Repr

namespace Activation

def readRecorder : Option Json → Option (Option RecorderBinding)
  | none | some .null => some none
  | some value => (RecorderBinding.read value).map some

def read (value : Json) : Option Activation := do
  let get ← structFields ["schema", "recorder", "generation", "extensions"] value
  let schema ← (get "schema").bind asStr
  let recorder ← readRecorder (get "recorder")
  let generation ← (get "generation").bind asU64
  let extensions ← (get "extensions").bind Json.asArray
  let extensions ← extensions.mapM EnabledExtension.read
  return ⟨schema, recorder, generation, extensions⟩

variable (a : Activation)

def toValue : Json :=
  .object ([("extensions", .array (a.extensions.map (·.toValue))),
    ("generation", .number (.ofNat a.generation))] ++
    (a.recorder.toList.map fun r => ("recorder", r.toValue)) ++ [("schema", .string a.schema)])

/-- The loop over the entries, which must come in the order of their names. -/
def validateEntries (recorder : Bool) :
    Option String → List EnabledExtension → Except String Unit
  | _, [] => return ()
  | previous, entry :: rest => do
      rejectIf (!entry.valid recorder || previous.any (entry.id ≤ ·)) invalid
      validateEntries recorder (some entry.id) rest

def validate : Except String Unit := do
  rejectIf (a.schema ≠ (if a.recorder.isSome then "gateway-extension-lock/v2" else lockSchema) ||
    decide (a.extensions.length > maxExtensions) || a.recorder.any (!·.validate)) invalid
  validateEntries a.recorder.isSome none a.extensions

end Activation

end Activations

end ResponseGateway.Extensions
