import ResponseGateway.Extensions.Package
import ResponseGateway.Library.Pattern

/-!
Packages and locks as `extension_manager.py` checks them. A dictionary has its keys in order,
since nothing here depends on the order of insertion. `json.loads` reads a JSON text in UTF-8, and
what it reads besides is a parameter, as is what `json.dumps` writes. A refusal carries its
message, whatever else is raised does not.
-/

namespace ResponseGateway.Extensions.Manager
open Checked Ir Usage
open Json (Fields)

inductive Refusal where
  | raised
  | refused (message : String)
  deriving DecidableEq, Repr

def require (condition : Bool) (message : String) : Except Refusal Unit :=
  rejectIf (!condition) (.refused message)

section Decoding

/-- The pairs of an object. -/
def pairs (items : Fields) : Except Refusal Fields :=
  items.foldlM (fun result entry => do
    require (Assoc.get entry.1 result).isNone "Duplicate JSON field"
    return Assoc.insert entry.1 entry.2 result) []

mutual

/-- The dictionaries of a value, and its integers without a negative zero. -/
def hook : Json → Except Refusal Json
  | .number value => return .number (if value.text = "-0" then .ofNat 0 else value)
  | .array items => do
      let items ← hookItems items
      return .array items
  | .object fields => do
      let items ← hookFields fields
      let fields ← pairs items
      return .object fields
  | .null => return .null
  | .bool b => return .bool b
  | .string text => return .string text

def hookItems : List Json → Except Refusal (List Json)
  | [] => return []
  | item :: rest => do
      let item ← hook item
      let rest ← hookItems rest
      return item :: rest

def hookFields : List (String × Json) → Except Refusal Fields
  | [] => return []
  | (key, value) :: rest => do
      let value ← hook value
      let rest ← hookFields rest
      return (key, value) :: rest

end

variable (lenient : ByteArray → Option Json)

def loads (raw : ByteArray) : Option Json :=
  match (String.fromUTF8? raw).bind fun text => Json.parse RecordedEvent.maxDepth text.toList with
  | some value => some value
  | none => lenient raw

def decodeJson (raw : ByteArray) : Except Refusal Json := do
  let value ← okOr (loads lenient raw) .raised
  hook value

/-- `type(value) is int`, and the integer. -/
def asInt : Json → Option Int
  | .number value =>
      match value.text.toList with
      | '-' :: digits =>
          if digits.all Char.isDigit then some (-(Nat.ofDigitChars 10 digits 0 : Int)) else none
      | digits =>
          if digits.all Char.isDigit then some (Nat.ofDigitChars 10 digits 0 : Int) else none
  | _ => none

end Decoding

section Texts

def isHex (c : Char) : Bool := ('a' ≤ c && c ≤ 'f') || c.isDigit

def isNameChar (c : Char) : Bool := c.isLower || c.isDigit || c = '-'

def isProtocolChar (c : Char) : Bool :=
  c.isLower || c.isDigit || c = '.' || c = '_' || c = '-'

def isFileChar (c : Char) : Bool := c.isAlphanum || c = '_' || c = '.' || c = '-'

def isPositive (c : Char) : Bool := '1' ≤ c && c ≤ '9'

/-- `[a-f0-9]{64}`. -/
def hexPattern : Pattern Char := .repeated isHex 64 64

/-- `[a-z][a-z0-9-]{0,63}`. -/
def identifierPattern : Pattern Char := .seq (.one Char.isLower) (.repeated isNameChar 0 63)

/-- `0|[1-9][0-9]{0,5}`. -/
def numberPattern : Pattern Char :=
  .alt (.one (· = '0')) (.seq (.one isPositive) (.repeated Char.isDigit 0 5))

/-- Three numbers with points between them. -/
def versionPattern : Pattern Char :=
  .seq numberPattern (.seq (.one (· = '.'))
    (.seq numberPattern (.seq (.one (· = '.')) numberPattern)))

/-- `[a-z][a-z0-9._-]{0,63}/v[1-9][0-9]{0,5}`. -/
def providerPattern : Pattern Char :=
  .seq (.seq (.one Char.isLower) (.repeated isProtocolChar 0 63))
    (.seq (.one (· = '/')) (.seq (.one (· = 'v'))
      (.seq (.one isPositive) (.repeated Char.isDigit 0 5))))

/-- `[A-Za-z0-9][A-Za-z0-9_.-]{0,63}`. -/
def filePattern : Pattern Char := .seq (.one Char.isAlphanum) (.repeated isFileChar 0 63)

/-- A text that matches as a whole. -/
def isMatch (pattern : Pattern Char) : Option Json → Bool
  | some (.string text) => pattern.fullMatch text.toList
  | _ => false

def hexDigest : Option Json → Bool := isMatch hexPattern

def identifier : Option Json → Bool := isMatch identifierPattern

def version : Option Json → Bool := isMatch versionPattern

/-- `set(fields) == names`. -/
def hasKeys (fields : Fields) (names : List String) : Bool :=
  decide ((fields.map Prod.fst).toFinset = names.toFinset)

/-- The value is one of some texts. -/
def oneOf (value : Option Json) (names : List String) : Bool :=
  names.any fun name => value = some (.string name)

end Texts

section Packages

def capabilityNames : List String := ["schema", "apis", "features", "requires"]

/-- The check of one of the three lists of a declaration. -/
def validateEntries (value : Option Json) : Except Refusal Unit := do
  let entries ← okOr (value.bind readTexts)
    (.refused "Capability declarations must contain strings")
  require (entries = entries.dedup.mergeSort) "Capability declarations must be sorted and unique"

def validateRoles (fields : Fields) (protocol : Option Json) : Except Refusal Unit := do
  let apis := ((Assoc.get "apis" fields).bind readTexts).getD []
  let features := ((Assoc.get "features" fields).bind readTexts).getD []
  require (!features.isEmpty && features.contains "json" &&
    features.all (roleFeatures.contains ·)) "Unsupported capability feature"
  if oneOf protocol [capabilitiesProtocol] then do
    require (!apis.isEmpty && apis.all (codecApis.contains ·)) "Unsupported codec API declaration"
    require (Assoc.get "requires" fields =
      some (texts ["codec_ipc_v3", "responses_output_validation"]))
      "Unsupported required codec host contracts"
  else do
    require (oneOf protocol [providerProtocol] && apis.isEmpty)
      "Unsupported provider API declaration"
    require (Assoc.get "requires" fields =
      some (texts ["provider_ipc_v1", "responses_output_validation"]))
      "Unsupported required provider host contracts"

def validateCapabilities (value : Option Json) (protocol : Option Json) :
    Except Refusal Unit := do
  let fields ← okOr (value.bind Json.asObject) (.refused "Invalid capability declaration fields")
  require (hasKeys fields capabilityNames) "Invalid capability declaration fields"
  require (oneOf (Assoc.get "schema" fields) [capabilitiesSchema]) "Unsupported capability schema"
  ["apis", "features", "requires"].forM fun name => validateEntries (Assoc.get name fields)
  if oneOf protocol [recorderV2Protocol] then
    require (Assoc.get "apis" fields = some (texts []) &&
      Assoc.get "features" fields = some (texts ["usage_event_v1", "usage_event_v2"]) &&
      Assoc.get "requires" fields = some (texts ["usage_recorder_ipc_v2"]))
      "Unsupported recorder capabilities"
  else validateRoles fields protocol

def baseNames : List String :=
  ["schema", "id", "version", "target", "protocol", "permissions", "state_schema", "files"]

variable (fields : Fields)

def protocolOf : Option Json := Assoc.get "protocol" fields

/-- The schema, and what depends on it. -/
def validateSchema : Except Refusal Unit :=
  if oneOf (Assoc.get "schema" fields) [packageSchema] then do
    require (hasKeys fields baseNames) "Invalid package manifest fields"
    require (oneOf (protocolOf fields) [observerProtocol, recorderProtocol, codecProtocol,
      editingProtocol]) "Unsupported package protocol"
  else do
    require (oneOf (Assoc.get "schema" fields) [capabilitiesPackageSchema] &&
      oneOf (protocolOf fields) [capabilitiesProtocol, providerProtocol, recorderV2Protocol])
      "Unsupported package protocol"
    let provider := oneOf (protocolOf fields) [providerProtocol]
    require (hasKeys fields
      (baseNames ++ if provider then ["capabilities", "provider_protocol"] else ["capabilities"]))
      "Invalid capability package fields"
    validateCapabilities (Assoc.get "capabilities" fields) (protocolOf fields)
    require (!provider || isMatch providerPattern (Assoc.get "provider_protocol" fields))
      "Invalid provider protocol identity"

def expectedPermissions : List String :=
  if oneOf (protocolOf fields) [observerProtocol] then permissions
  else if oneOf (protocolOf fields)
      [codecProtocol, editingProtocol, capabilitiesProtocol, providerProtocol] then
    codecPermissions
  else recorderPermissions

def expectedState : String :=
  if oneOf (protocolOf fields) [observerProtocol] then "observer-state/v1"
  else if oneOf (protocolOf fields) [providerProtocol] then "provider-request-memory/v1"
  else if oneOf (protocolOf fields) [codecProtocol, editingProtocol, capabilitiesProtocol] then
    "request-memory/v1"
  else if oneOf (protocolOf fields) [recorderV2Protocol] then "usage-store/v2"
  else "usage-store/v1"

def validFile (entry : String × Json) : Bool :=
  filePattern.fullMatch entry.1.toList && !(["extension.json", ".", ".."].contains entry.1) &&
    hexDigest (some entry.2)

def validateFiles : Except Refusal Unit := do
  let entries ← okOr ((Assoc.get "files" fields).bind Json.asObject)
    (.refused "Executable and license evidence are required")
  require ((2 ≤ entries.length && entries.length ≤ 8) &&
    ["extension", "LICENSE.txt"].all fun name => (entries.map Prod.fst).contains name)
    "Executable and license evidence are required"
  entries.forM fun entry => require (validFile entry) "Invalid package file record"

def targets : List String := ["linux-x64", "linux-arm64", "macos-x64", "macos-arm64"]

/-- What does not depend on the schema alone. -/
def validateContents (selectedTarget : String) : Except Refusal Unit := do
  require (identifier (Assoc.get "id" fields) && version (Assoc.get "version" fields))
    "Invalid package identity"
  require (targets.contains selectedTarget) "Unsupported package target"
  require (oneOf (Assoc.get "target" fields) [selectedTarget])
    "Package target does not match selected target"
  require (Assoc.get "permissions" fields = some (texts (expectedPermissions fields)))
    "Unsupported package permissions"
  require (oneOf (Assoc.get "state_schema" fields) [expectedState fields])
    "Unsupported package state schema"
  validateFiles fields

variable (lenient : ByteArray → Option Json) (dumps : Json → Text)

def canonical (value : Json) : ByteArray := RecordedEvent.utf8 (dumps value ++ ['\n'])

/-- The target is the expected one, or that of the host. -/
def validatePackage (raw : ByteArray) (selectedTarget : String) : Except Refusal Fields := do
  let package ← decodeJson lenient raw
  let fields ← okOr package.asObject (.refused "Invalid package manifest")
  validateSchema fields
  validateContents fields selectedTarget
  require (canonical dumps package = raw)
    "Package JSON must use canonical sorted keys and a terminal newline"
  return fields

end Packages

section Locks

/-- An integer between two bounds. -/
def within (value : Option Json) (least most : Int) : Bool :=
  (value.bind asInt).any fun n => least ≤ n && n ≤ most

def bindingNames : List String :=
  ["store_id", "mode", "queue_capacity", "ack_timeout_ms", "config_sha256"]

def validateBinding (binding : Json) : Except Refusal Unit := do
  let fields ← okOr binding.asObject (.refused "Invalid recorder binding")
  require (hasKeys fields bindingNames) "Invalid recorder binding"
  require (identifier (Assoc.get "store_id" fields) &&
    oneOf (Assoc.get "mode" fields) ["off", "best_effort", "durable_local"] &&
    within (Assoc.get "queue_capacity" fields) 2 4096 &&
    within (Assoc.get "ack_timeout_ms" fields) 1 60000 &&
    hexDigest (Assoc.get "config_sha256" fields)) "Invalid recorder limits or identity"

def idOf (entry : Json) : String := (entry.fieldStr "id").getD ""

def validEntry (ids : List String) (entry : Json) : Bool :=
  hasKeys (entry.asObject.getD []) ["id", "version", "package_sha256", "grants"] &&
    identifier (entry.field "id") && version (entry.field "version") &&
    hexDigest (entry.field "package_sha256") &&
    ([permissions, recorderPermissions, codecPermissions].any fun grants =>
      entry.field "grants" = some (texts grants)) && !ids.contains (idOf entry)

/-- The loop over the entries, with the names before. -/
def validateActivated : List String → List Json → Except Refusal Unit
  | _, [] => return ()
  | ids, entry :: rest => do
      require (entry.isObject && validEntry ids entry) "Invalid activation entry"
      validateActivated (idOf entry :: ids) rest

/-- The schema and the generation of a lock. -/
def validateGeneration (fields : Fields) : Except Refusal Unit :=
  let recorder := Assoc.get "recorder" fields
  let names := ["schema", "generation", "extensions"] ++ if recorder.isSome then ["recorder"] else []
  require (hasKeys fields names && oneOf (Assoc.get "schema" fields)
    [if recorder.isSome then "gateway-extension-lock/v2" else lockSchema] &&
    within (Assoc.get "generation" fields) 0 (2 ^ 64 - 1)) "Invalid activation lock"

def validateExtensions (fields : Fields) : Except Refusal (List Json) := do
  let extensions ← okOr ((Assoc.get "extensions" fields).bind Json.asArray)
    (.refused "Too many extensions")
  require (extensions.length ≤ maxExtensions) "Too many extensions"
  validateActivated [] extensions
  require (extensions = extensions.insertionSort fun a b => idOf a ≤ idOf b)
    "Activation entries must be ordered"
  return extensions

variable (lenient : ByteArray → Option Json) (dumps : Json → Text)

/-- The lock of a file that is there. -/
def readLock (raw : ByteArray) : Except Refusal Fields := do
  let lock ← decodeJson lenient raw
  let fields ← okOr lock.asObject (.refused "Invalid activation lock")
  validateGeneration fields
  let extensions ← validateExtensions fields
  let recorder := Assoc.get "recorder" fields
  recorder.toList.forM validateBinding
  require ((extensions.countP fun entry => entry.field "grants" = some (texts recorderPermissions)) =
    if recorder.isSome then 1 else 0) "Invalid recorder binding"
  require (canonical dumps lock = raw) "Activation JSON must be canonical"
  return fields

end Locks

end ResponseGateway.Extensions.Manager
