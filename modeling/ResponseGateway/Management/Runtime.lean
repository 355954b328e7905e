import ResponseGateway.Library.Files
import ResponseGateway.Management.RuntimeRecords

/-!
`gateway_management_runtime`: a directory in which configurations are staged and one of them
is selected, and the process that runs the selected one. Every contact with the file system,
the sources, the leases and the process may fail or end the manager. What is no file of the
directory is seen at the contacts only: the sources, what a configuration and its locks
amount to, who holds a lease, and what becomes of the process within its time.
-/

namespace ResponseGateway.Management.RuntimeStore
open Checked Ir Json Method Files

section Types

inductive Path where
  | state
  | lease
  | folder (name : String)
  | candidate (name : Digest)
  | manifest (name : Digest)
  | evidence (name : Digest)
  | temporary (name : Id)
  deriving DecidableEq, Repr

/-- Durations are in nanoseconds. -/
structure Registration where
  target : Id
  executable : String
  executableSha256 : Digest
  credentialGeneration : Id
  sources : OrderedMap Id Source
  environment : OrderedMap String String
  startupTimeout : Nat
  stopTimeout : Nat

structure GatewayReady where
  event : String
  address : String
  baseUrl : String
  version : String
  schema : String
  manifestSchema : String
  configurationSha256 : Digest
  executionSha256 : Option Digest

/-- `serde_json::to_value`. -/
def GatewayReady.toJson (g : GatewayReady) : Json :=
  .object ([("address", .string g.address), ("base_url", .string g.baseUrl),
    ("configuration_sha256", .string g.configurationSha256.value), ("event", .string g.event)] ++
    (g.executionSha256.map fun d => ("execution_sha256", Json.string d.value)).toList ++
    [("manifest_schema", .string g.manifestSchema), ("schema", .string g.schema),
      ("version", .string g.version)])

structure Ready where
  schema : String
  instanceId : Id
  gateway : GatewayReady

/-- What a configuration amounts to with the locks of its source. -/
structure Inspection where
  /-- The variables that the configuration refers to, in their order. -/
  names : List String
  /-- What a process has to report that listens at this address. -/
  readiness : String → Except Error Json
  configurationSha256 : Digest
  executionSha256 : Option Digest
  manifest : Json

/-- How a process ends that is told to: by itself, with an error or killed, or not at all. -/
inductive Ending where
  | clean
  | failed
  | stuck
  deriving DecidableEq, Repr

/-- What a contact finds outside of the directory. -/
structure Outside where
  uuid : Id
  file : String → Except Error Bytes
  inspect : Bytes → Option String → Option String → Option Inspection
  leaseFree : Bool
  exited : Bool
  ready : Except Error Ready
  ending : Ending

theorem isId_zero : isId "0" = true := by decide

instance : Inhabited Outside :=
  ⟨⟨⟨"0", isId_zero⟩, fun _ => .error .invalidStore, fun _ _ _ => none, true, false,
    .error .storage, .clean⟩⟩

structure Owned where
  ready : Option Ready
  manifest : Json

structure Runtime where
  registration : Registration
  state : State
  stateDigest : Digest
  controllerId : Id
  epoch : Id
  owned : Option Owned

structure Status where
  schema : String
  target : Id
  revision : UInt64
  selected : Option Id
  candidates : List Id
  externalChange : Bool
  ownership : Ownership
  running : Option Ready
  runningManifest : Option Json
  desired : Option Json
  desiredValid : Bool
  restartRequired : Bool

/-- A runtime in front of its files. -/
structure Host where
  runtime : Runtime
  machine : Machine Path Outside

abbrev StoreMethod (α : Type) := FileMethod Path Outside Error α

abbrev RuntimeMethod (α : Type) := Method Host (Halt Error) α

end Types

section Texts

variable (sha256 : Bytes → Ir.Digest)

/-- `Digest::of`. -/
def digestOf (bytes : Bytes) : Digest := ⟨String.ofList (hex (sha256 bytes).toList), isDigest_hex _⟩

/-- The hash of a text is that of its bytes. -/
def textHash (text : String) : Ir.Digest := sha256 text.toUTF8.data.toList

def receiptName (id : Id) : Digest := .of (textHash sha256) id.value

def Command.digest (command : Command) : Digest := digestOf sha256 command.toJson.bytes

def Source.toJson (s : Source) : Json :=
  .object [("configuration", .string s.configuration),
    ("extensions_lock", (s.extensionsLock.map Json.string).getD .null),
    ("profile_packs_lock", (s.profilePacksLock.map Json.string).getD .null)]

def Registration.toJson (r : Registration) : Json :=
  .array [.string r.target.value, .string r.executable, .string r.executableSha256.value,
    .string r.credentialGeneration.value,
    .object (r.sources.entries.map fun (id, source) => (id.value, source.toJson))]

def stateSchema : String := "gateway-runtime-state/v1"

def evidenceSchema : String := "gateway-runtime-evidence/v1"

def readySchema : String := "gateway-managed-process/v1"

def maxConfig : Nat := 1024 * 1024

def maxReceipt : Nat := 65536

def maxExecutable : Nat := 256 * 1024 * 1024

def State.initial : State := ⟨stateSchema, 0, none, .empty⟩

/-- `checked_add`. -/
def State.advanced (state : State) : Option State :=
  if state.revision.toNat + 1 < 2 ^ 64 then some { state with revision := state.revision + 1 }
  else none

def State.staged (state : State) (id : Id) (candidate : Candidate) : Option State :=
  { state with candidates := state.candidates.insert id candidate }.advanced

def State.chosen (state : State) (id : Id) : Option State :=
  { state with selected := some id }.advanced

def Registration.environmentOf (r : Registration) (inspection : Inspection) :
    Except Error (List (String × String)) :=
  inspection.names.mapM fun name => do
    let value ← okOr (r.environment.get name) .invalidInput
    return (name, value)

end Texts

section Reading

variable (sha256 : Bytes → Ir.Digest)

def readBounded (path : Path) (limit : Nat) : StoreMethod Bytes := do
  probe (fun d => (d path).any (·.length ≤ limit)) .invalidStore
  let bytes ← readFile path .storage
  ensure (rejectIf (bytes.length > limit) .invalidStore)
  return bytes

/-- A file of the host. -/
def readSource (path : String) (limit : Nat) : StoreMethod Bytes := do
  let bytes ← observe (fun _ x => x.file path) .storage
  ensure (rejectIf (bytes.length > limit) .invalidStore)
  return bytes

def hashFile (path : String) : StoreMethod Digest := do
  let bytes ← readSource path maxExecutable
  return digestOf sha256 bytes

def inspectBytes (bytes : Bytes) (source : Source) : StoreMethod Inspection :=
  observe (fun _ x => okOr (x.inspect bytes source.extensionsLock source.profilePacksLock)
    .invalidInput) .invalidInput

def generatedId : StoreMethod Id := do
  let c ← contact
  return c.outside.uuid

def acquire : StoreMethod Unit :=
  observe (fun _ x => if x.leaseFree then .ok () else .error .alreadyOwned) .storage

def leaseFree : StoreMethod Bool := do
  probe (fun d => (d .lease).isSome) .invalidStore
  observe (fun _ x => .ok x.leaseFree) .storage

def validateRegistration (r : Registration) : StoreMethod Unit := do
  probe (fun _ => true) .invalidStore
  ensure (rejectIf (!r.executable.startsWith "/" || r.sources.size > 128 ||
    !(100000000 ≤ r.startupTimeout && r.startupTimeout ≤ 60000000000) ||
    !(100000000 ≤ r.stopTimeout && r.stopTimeout ≤ 60000000000)) .invalidInput)

def privateDirectory (name : String) : StoreMethod Unit := do
  createNew (.folder name) .storage
  probe (fun _ => true) .invalidStore

/-- `initialize`. -/
def initializeStore (registration : Registration) : StoreMethod Runtime := do
  validateRegistration registration
  acquire
  privateDirectory "candidates"
  privateDirectory "evidence"
  privateDirectory "manifests"
  createNew .lease .storage
  let bytes := State.codec.toBytes .initial
  create .state bytes .invalidStore .storage
  let controllerId ← generatedId
  let epoch ← generatedId
  return ⟨registration, .initial, digestOf sha256 bytes, controllerId, epoch, none⟩

/-- The state in the bytes of its file. -/
def readState (bytes : Bytes) : Except Error State := do
  let state ← okOr (State.codec.readBytes bytes) .invalidStore
  rejectIf (State.codec.toBytes state ≠ bytes || state.schema ≠ stateSchema ||
    state.candidates.size > 128 || state.selected.any fun id => !state.candidates.contains id)
    .invalidStore
  return state

/-- `open`. -/
def openStore (registration : Registration) : StoreMethod Runtime := do
  validateRegistration registration
  acquire
  probe (fun d => (d .lease).isSome) .invalidStore
  let bytes ← readBounded .state maxConfig
  let state ← ensure (readState bytes)
  let controllerId ← generatedId
  let epoch ← generatedId
  return ⟨registration, state, digestOf sha256 bytes, controllerId, epoch, none⟩

def candidatePath (id : Id) : Path := .candidate (receiptName sha256 id)

def receiptPath (id : Id) : Path := .evidence (receiptName sha256 id)

def Runtime.candidate (rt : Runtime) (id : Id) : StoreMethod Inspection := do
  let candidate ← ensure (okOr (rt.state.candidates.get id) .notFound)
  let source ← ensure (okOr (rt.registration.sources.get candidate.source) .invalidStore)
  let bytes ← readBounded (candidatePath sha256 id) maxConfig
  ensure (rejectIf (digestOf sha256 bytes ≠ candidate.rawSha256) .conflict)
  inspectBytes bytes source

def Runtime.desired (rt : Runtime) : StoreMethod Inspection := do
  let id ← ensure (okOr rt.state.selected .notFound)
  rt.candidate sha256 id

def Runtime.externalChange (rt : Runtime) : StoreMethod Bool := do
  let bytes ← attempt (readBounded .state maxConfig)
  return match bytes with
    | .ok bytes => digestOf sha256 bytes ≠ rt.stateDigest
    | .error _ => true

def retainManifest (inspection : Inspection) : StoreMethod Digest := do
  let bytes := inspection.manifest.bytes
  let digest := digestOf sha256 bytes
  let there ← isThere (.manifest digest)
  if there then do
    let kept ← readBounded (.manifest digest) maxConfig
    ensure (rejectIf (kept ≠ bytes) .conflict)
  else create (.manifest digest) bytes .invalidStore .storage
  return digest

end Reading

section Calls

def current : RuntimeMethod Runtime := fun h => (.ok h.runtime, h)

def update (f : Runtime → Runtime) : RuntimeMethod Unit := fun h =>
  (.ok (), { h with runtime := f h.runtime })

def onFiles {α : Type} (m : StoreMethod α) : RuntimeMethod α := fun h =>
  ((m h.machine).1, { h with machine := (m h.machine).2 })

variable (sha256 : Bytes → Ir.Digest)

def refreshChild : RuntimeMethod Unit := do
  let rt ← current
  if rt.owned.isSome then do
    let exited ← onFiles (observe (fun _ x => .ok x.exited) .storage)
    if exited then do
      let epoch ← onFiles generatedId
      update fun rt => { rt with owned := none, epoch }
    else pure ()
  else pure ()

def restartRequired (running : Option Ready) (desired : Except Error Inspection) : Bool :=
  match running, desired with
  | some r, .ok d => r.gateway.configurationSha256 ≠ d.configurationSha256 ||
      r.gateway.executionSha256 ≠ d.executionSha256
  | some _, .error _ => true
  | none, _ => false

def ownership (rt : Runtime) : StoreMethod Ownership :=
  if rt.owned.isSome then pure .owned
  else do
    let free ← leaseFree
    return if free then .stopped else .unowned

def view : RuntimeMethod (Status × Option Inspection) := do
  refreshChild
  let rt ← current
  let desired ← onFiles (attempt (rt.desired sha256))
  let running := rt.owned.bind (·.ready)
  let ownership ← onFiles (ownership rt)
  let externalChange ← onFiles (rt.externalChange sha256)
  let status := {
    schema := "gateway-runtime-status/v1"
    target := rt.registration.target
    revision := rt.state.revision
    selected := rt.state.selected
    candidates := rt.state.candidates.keys
    externalChange
    ownership
    running
    runningManifest := (rt.owned.filter (·.ready.isSome)).map (·.manifest)
    desired := desired.toOption.map (·.manifest)
    desiredValid := desired.isOk
    restartRequired := restartRequired running desired }
  return (status, desired.toOption)

/-- `status`. -/
def statusOf : RuntimeMethod Status := do
  let (status, _) ← view sha256
  return status

def Runtime.observed (rt : Runtime) (status : Status) (desired : Option Inspection) :
    Observation where
  candidates := status.candidates
  controller := rt.controllerId
  desiredConfiguration := desired.map (·.configurationSha256)
  desiredExecution := desired.bind (·.executionSha256)
  desiredManifest := desired.map fun d => digestOf sha256 d.manifest.bytes
  desiredValid := status.desiredValid
  epoch := rt.epoch
  externalChange := status.externalChange
  instanceId := status.running.map (·.instanceId)
  ownership := status.ownership
  registration := digestOf sha256 rt.registration.toJson.bytes
  restartRequired := status.restartRequired
  revision := rt.state.revision
  runningConfiguration := status.running.map (·.gateway.configurationSha256)
  runningExecution := status.running.bind (·.gateway.executionSha256)
  savedState := rt.stateDigest
  selected := status.selected

def observation : RuntimeMethod Observation := do
  let (status, desired) ← view sha256
  let rt ← current
  return rt.observed sha256 status desired

def Observation.digest (o : Observation) : Digest := digestOf sha256 (Observation.codec.toBytes o)

def snapshot : RuntimeMethod Snapshot := do
  let observation ← observation sha256
  let rt ← current
  return ⟨rt.state.revision, observation.digest sha256⟩

def save (state : State) : RuntimeMethod Unit := do
  let rt ← current
  let changed ← onFiles (rt.externalChange sha256)
  ensure (rejectIf changed .conflict)
  let bytes := State.codec.toBytes state
  let name ← onFiles generatedId
  onFiles (replace .state (.temporary name) bytes .invalidStore .storage)
  update fun rt => { rt with state, stateDigest := digestOf sha256 bytes }

def stage (source candidate : Id) (expected : Digest) : RuntimeMethod Unit := do
  let rt ← current
  let binding ← ensure (okOr (rt.registration.sources.get source) .notFound)
  let bytes ← onFiles (readSource binding.configuration maxConfig)
  ensure (rejectIf (digestOf sha256 bytes ≠ expected) .conflict)
  let inspection ← onFiles (inspectBytes bytes binding)
  let _ ← onFiles (retainManifest sha256 inspection)
  ensure (rejectIf (rt.state.candidates.contains candidate || rt.state.candidates.size ≥ 128)
    .conflict)
  let next ← ensure (okOr (rt.state.staged candidate ⟨source, expected⟩) .invalidStore)
  onFiles (create (candidatePath sha256 candidate) bytes .invalidStore .storage)
  save sha256 next

def select (candidate : Id) : RuntimeMethod Unit := do
  let rt ← current
  let _ ← onFiles (rt.candidate sha256 candidate)
  let next ← ensure (okOr (rt.state.chosen candidate) .invalidStore)
  save sha256 next

/-- The end of the process, within its time. -/
def stopOwned : RuntimeMethod Unit := do
  let rt ← current
  match rt.owned with
  | none => do
      let free ← onFiles leaseFree
      ensure (rejectIf (!free) .conflict)
  | some owned => do
      update fun rt => { rt with owned := none }
      let ending ← attempt (onFiles (observe (fun _ x => .ok x.ending) .storage))
      match ending with
      | .ok .clean => pure ()
      | .ok .stuck => do
          update fun rt => { rt with owned := some owned }
          throwing (.failed .storage)
      | _ => throwing (.failed .storage)

/-- The process gets its frame and reports within its time. -/
def awaitReady (inspected : Inspection) (instanceId : Id) : RuntimeMethod Unit := do
  let ready ← onFiles (observe (fun _ x => x.ready) .storage)
  let expected ← ensure (inspected.readiness ready.gateway.address)
  ensure (rejectIf (ready.schema ≠ readySchema || ready.instanceId ≠ instanceId ||
    ready.gateway.toJson ≠ expected) .conflict)
  let exited ← onFiles (observe (fun _ x => .ok x.exited) .storage)
  ensure (rejectIf exited .storage)
  update fun rt => { rt with owned := rt.owned.map fun owned => { owned with ready := some ready } }

def start : RuntimeMethod Unit := do
  refreshChild
  let rt ← current
  ensure (rejectIf rt.owned.isSome .conflict)
  let free ← onFiles leaseFree
  ensure (rejectIf (!free) .conflict)
  let executable ← onFiles (hashFile sha256 rt.registration.executable)
  ensure (rejectIf (executable ≠ rt.registration.executableSha256) .conflict)
  let inspected ← onFiles (rt.desired sha256)
  let _ ← onFiles (retainManifest sha256 inspected)
  let instanceId ← onFiles generatedId
  let _ ← ensure (rt.registration.environmentOf inspected)
  onFiles (probe (fun _ => true) .storage)
  update fun rt => { rt with owned := some ⟨none, inspected.manifest⟩ }
  let result ← attempt (awaitReady inspected instanceId)
  match result with
  | .ok _ => pure ()
  | .error e => do
      let _ ← attempt stopOwned
      throwing (.failed e)

def perform : Command → RuntimeMethod Unit
  | .stage source candidate sourceSha256 => stage sha256 source candidate sourceSha256
  | .select candidate => select sha256 candidate
  | .start => start sha256
  | .stop => stopOwned
  | .restart => do
      let rt ← current
      let _ ← onFiles (rt.desired sha256)
      stopOwned
      start sha256

end Calls

section Operations

variable (sha256 : Bytes → Ir.Digest)

/-- An accepted command, with what was seen when it was prepared. -/
structure Prepared where
  command : Command
  request : Request
  before : Snapshot
  operation : Option Id

/-- The checks of a command before it is accepted. -/
def prepareCheck : Command → RuntimeMethod Unit
  | .stage source candidate sourceSha256 => do
      let rt ← current
      ensure (rejectIf (rt.state.candidates.contains candidate ||
        rt.state.candidates.size ≥ 128) .conflict)
      let registered ← ensure (okOr (rt.registration.sources.get source) .notFound)
      let hash ← onFiles (hashFile sha256 registered.configuration)
      ensure (rejectIf (hash ≠ sourceSha256) .conflict)
      let bytes ← onFiles (readSource registered.configuration maxConfig)
      let _ ← onFiles (inspectBytes bytes registered)
      pure ()
  | .select candidate => do
      let rt ← current
      let _ ← onFiles (rt.candidate sha256 candidate)
      pure ()
  | .start => launchable true
  | .restart => launchable false
  | .stop => do
      refreshChild
      let rt ← current
      if rt.owned.isSome then pure ()
      else do
        let free ← onFiles leaseFree
        ensure (rejectIf (!free) .conflict)
where
  launchable (fresh : Bool) : RuntimeMethod Unit := do
    refreshChild
    let rt ← current
    ensure (rejectIf (fresh && rt.owned.isSome) .conflict)
    if rt.owned.isSome then pure ()
    else do
      let free ← onFiles leaseFree
      ensure (rejectIf (!free) .conflict)
    let inspected ← onFiles (rt.desired sha256)
    let _ ← ensure (rt.registration.environmentOf inspected)
    let executable ← onFiles (hashFile sha256 rt.registration.executable)
    ensure (rejectIf (executable ≠ rt.registration.executableSha256) .conflict)

def prepareMapped (request : Request) (command : Command) (transportSha256 : Digest) :
    RuntimeMethod Prepared := do
  let rt ← current
  ensure (rejectIf (request.target ≠ rt.registration.target || request.action ≠ command.action ||
    request.parametersSha256 ≠ transportSha256) .invalidInput)
  let changed ← onFiles (rt.externalChange sha256)
  ensure (rejectIf (changed && command ≠ .stop) .conflict)
  prepareCheck sha256 command
  let before ← snapshot sha256
  return ⟨command, request, before, none⟩

def prepareCommand (request : Request) (command : Command) : RuntimeMethod Prepared :=
  prepareMapped sha256 request command (command.digest sha256)

def Prepared.accepted (prepared : Prepared) (id : Id) : Prepared :=
  { prepared with operation := some id }

def Prepared.receipt (prepared : Prepared) (operation : Id) (revision : UInt64)
    (observation : Observation) : Receipt where
  schema := evidenceSchema
  operation := operation
  requestSha256 := prepared.request.fingerprint (textHash sha256)
  after := ⟨revision, observation.digest sha256⟩
  observation := observation.value

/-- `complete_evidence`. -/
def completeEvidence (path : Path) (bytes : Bytes) : StoreMethod Unit := do
  create path bytes .invalidStore .storage
  probe (fun d => (d path).isSome) .storage

/-- What `apply` does once it is known that nothing changed. -/
def Prepared.carryOut (prepared : Prepared) (operation : Id) : RuntimeMethod Effect := do
  perform sha256 prepared.command
  let observation ← observation sha256
  let rt ← current
  let receipt := prepared.receipt sha256 operation rt.state.revision observation
  let bytes := Receipt.codec.toBytes receipt
  onFiles (completeEvidence (receiptPath sha256 operation) bytes)
  return .applied receipt.after (digestOf sha256 bytes)

def Prepared.apply (prepared : Prepared) : RuntimeMethod Effect :=
  match prepared.operation with
  | none => pure (.notApplied .rejected)
  | some operation => do
      let now ← attempt (snapshot sha256)
      if now.toOption = some prepared.before then do
        update fun rt => { rt with epoch := operation }
        let result ← attempt (prepared.carryOut sha256 operation)
        return match result with
          | .ok effect => effect
          | .error _ => .uncertain .effectFailed
      else return .notApplied .stale

/-- What the bytes of a receipt prove of an operation. -/
def readReceipt (operation : Operation) (bytes : Bytes) : Except Error Effect := do
  let receipt ← okOr (Receipt.codec.readBytes bytes) .invalidStore
  rejectIf (Receipt.codec.toBytes receipt ≠ bytes || receipt.schema ≠ evidenceSchema ||
    receipt.operation ≠ operation.id ||
    receipt.requestSha256 ≠ operation.request.fingerprint (textHash sha256) ||
    receipt.after.digest ≠ digestOf sha256 receipt.observation.json.bytes ||
    receipt.observation.json.fieldStr "epoch" ≠ some operation.id.value ||
    (receipt.observation.json.field "revision").bind Json.asU64 ≠ some receipt.after.revision.toNat)
    .invalidStore
  return .applied receipt.after (digestOf sha256 bytes)

def reconcile (operation : Operation) : RuntimeMethod Effect := do
  let rt ← current
  ensure (rejectIf (operation.request.target ≠ rt.registration.target) .invalidInput)
  let bytes ← onFiles (attempt (readBounded (receiptPath sha256 operation.id) maxReceipt))
  match bytes with
  | .error _ => return .uncertain .unverified
  | .ok bytes => ensure (readReceipt sha256 operation bytes)

end Operations

end ResponseGateway.Management.RuntimeStore
