import ResponseGateway.Library.JsonBytes
import ResponseGateway.Library.JsonExponent
import ResponseGateway.Management.Encoding

/-!
`gateway_management_runtime`: what it keeps in files. The state names the configurations
that were staged and the one that is selected; a receipt is the evidence that an operation
was carried out. Both are short texts, below the limits they are read back with.
-/

namespace ResponseGateway.Management.RuntimeStore
open Checked Ir Json

section Records

/-- Paths that the host registers under one identifier. -/
structure Source where
  configuration : String
  extensionsLock : Option String
  profilePacksLock : Option String

inductive Command where
  | stage (source candidate : Id) (sourceSha256 : Digest)
  | select (candidate : Id)
  | start
  | stop
  | restart
  deriving DecidableEq, Repr

def Command.action : Command → Action
  | .stage .. => .configurationStage
  | .select _ => .configurationSelect
  | .start => .runtimeStart
  | .stop => .runtimeStop
  | .restart => .runtimeRestart

def Command.toJson : Command → Json
  | .stage source candidate sourceSha256 => .object [("kind", .string "stage"),
      ("source", .string source.value), ("candidate", .string candidate.value),
      ("source_sha256", .string sourceSha256.value)]
  | .select candidate => .object [("kind", .string "select"), ("candidate", .string candidate.value)]
  | .start => .object [("kind", .string "start")]
  | .stop => .object [("kind", .string "stop")]
  | .restart => .object [("kind", .string "restart")]

structure Candidate where
  source : Id
  rawSha256 : Digest
  deriving DecidableEq, Repr

structure State where
  schema : String
  revision : UInt64
  selected : Option Id
  candidates : OrderedMap Id Candidate
  deriving DecidableEq

inductive Ownership where
  | owned
  | stopped
  | unowned
  deriving DecidableEq, Repr

/-- The fields of an observation, in the order of their keys. -/
structure Observation where
  candidates : List Id
  controller : Id
  desiredConfiguration : Option Digest
  desiredExecution : Option Digest
  desiredManifest : Option Digest
  desiredValid : Bool
  epoch : Id
  externalChange : Bool
  instanceId : Option Id
  ownership : Ownership
  registration : Digest
  restartRequired : Bool
  revision : UInt64
  runningConfiguration : Option Digest
  runningExecution : Option Digest
  savedState : Digest
  selected : Option Id

structure Receipt where
  schema : String
  operation : Id
  requestSha256 : Digest
  after : Snapshot
  observation : ReadBack 127

end Records

section Codecs

theorem id_ne_null (id : Id) : Id.codec.encode id ≠ .null := by
  intro h
  cases h

theorem digest_ne_null (d : Digest) : Digest.codec.encode d ≠ .null := by
  intro h
  cases h

def Candidate.codec : Codec Candidate :=
  (((Record.field "source" Id.codec).and (.field "raw_sha256" Digest.codec)).codec (by decide)).map
    (fun (source, rawSha256) => ⟨source, rawSha256⟩) (fun c => (c.source, c.rawSha256)) fun _ => rfl

theorem toOption_new (id : Id) : (Id.new id.value).toOption = some id := by
  rw [Id.new_value]
  rfl

def candidatesCodec : Codec (OrderedMap Id Candidate) :=
  Candidate.codec.keyed Id.value (fun s => (Id.new s).toOption) toOption_new

def State.codec : Codec State :=
  (((Record.field "schema" Codec.str).and <| (Record.field "revision" Codec.u64).and <|
    (Record.optional "selected" (Id.codec.nullable id_ne_null)).and <|
    .field "candidates" candidatesCodec).codec (by decide)).map
    (fun (schema, revision, selected, candidates) => ⟨schema, revision, selected, candidates⟩)
    (fun s => (s.schema, s.revision, s.selected, s.candidates)) fun _ => rfl

def Ownership.name : Ownership → String
  | .owned => "owned"
  | .stopped => "stopped"
  | .unowned => "unowned"

def Ownership.codec : Codec Ownership :=
  .names [.owned, .stopped, .unowned] name fun a => by cases a <;> rfl

def Observation.codec : Codec Observation :=
  (((Record.field "candidates" Id.codec.list).and <| (Record.field "controller" Id.codec).and <|
    (Record.optional "desired_configuration" (Digest.codec.nullable digest_ne_null)).and <|
    (Record.optional "desired_execution" (Digest.codec.nullable digest_ne_null)).and <|
    (Record.optional "desired_manifest" (Digest.codec.nullable digest_ne_null)).and <|
    (Record.field "desired_valid" Codec.bool).and <| (Record.field "epoch" Id.codec).and <|
    (Record.field "external_change" Codec.bool).and <|
    (Record.optional "instance" (Id.codec.nullable id_ne_null)).and <|
    (Record.field "ownership" Ownership.codec).and <|
    (Record.field "registration" Digest.codec).and <|
    (Record.field "restart_required" Codec.bool).and <|
    (Record.field "revision" Codec.u64).and <|
    (Record.optional "running_configuration" (Digest.codec.nullable digest_ne_null)).and <|
    (Record.optional "running_execution" (Digest.codec.nullable digest_ne_null)).and <|
    (Record.field "saved_state" Digest.codec).and <|
    .optional "selected" (Id.codec.nullable id_ne_null)).codec (by decide)).map
    (fun (candidates, controller, desiredConfiguration, desiredExecution, desiredManifest,
        desiredValid, epoch, externalChange, instanceId, ownership, registration, restartRequired,
        revision, runningConfiguration, runningExecution, savedState, selected) =>
      ⟨candidates, controller, desiredConfiguration, desiredExecution, desiredManifest,
        desiredValid, epoch, externalChange, instanceId, ownership, registration, restartRequired,
        revision, runningConfiguration, runningExecution, savedState, selected⟩)
    (fun o => (o.candidates, o.controller, o.desiredConfiguration, o.desiredExecution,
      o.desiredManifest, o.desiredValid, o.epoch, o.externalChange, o.instanceId, o.ownership,
      o.registration, o.restartRequired, o.revision, o.runningConfiguration, o.runningExecution,
      o.savedState, o.selected)) fun _ => rfl

def Receipt.codec : Codec Receipt :=
  (((Record.field "schema" Codec.str).and <| (Record.field "operation" Id.codec).and <|
    (Record.field "request_sha256" Digest.codec).and <| (Record.field "after" Snapshot.codec).and <|
    .field "observation" (Codec.any 127)).codec (by decide)).map
    (fun (schema, operation, requestSha256, after, observation) =>
      ⟨schema, operation, requestSha256, after, observation⟩)
    (fun r => (r.schema, r.operation, r.requestSha256, r.after, r.observation)) fun _ => rfl

end Codecs

section Sizes
open Record Codec

theorem Candidate.within (c : Candidate) : Candidate.codec.Within 200 c :=
  within_map (within_codec (within_and (within_field "source" (Id.within c.source))
    (within_field "raw_sha256" (Digest.within c.rawSha256))) (by decide))

theorem width_id (id : Id) : width (renderString id.value.toList) ≤ 98 := Id.within id

theorem within_candidates {m : OrderedMap Id Candidate} (h : m.size ≤ 128) :
    candidatesCodec.Within 40000 m := by
  refine (within_keyed width_id Candidate.within).mono ?_
  omega

theorem within_digest (o : Option Digest) : (Digest.codec.nullable digest_ne_null).Within 66 o :=
  within_nullable (fun d _ => Digest.within d) (by decide)

theorem within_id (o : Option Id) : (Id.codec.nullable id_ne_null).Within 98 o :=
  within_nullable (fun id _ => Id.within id) (by decide)

theorem State.within {state : State} (hschema : Codec.str.Within 100 state.schema)
    (hfew : state.candidates.size ≤ 128) : State.codec.Within 50000 state :=
  within_map (within_codec (within_and (within_field "schema" hschema) <|
    within_and (within_field "revision" (within_u64 state.revision)) <|
    within_and (within_optional "selected" (within_id state.selected)) <|
    within_field "candidates" (within_candidates hfew)) (by decide))

theorem Ownership.within (o : Ownership) : Ownership.codec.Within 9 o := within_names (by decide) o

theorem within_ids {l : List Id} (h : l.length ≤ 128) : Id.codec.list.Within 20000 l := by
  refine (within_list Id.within).mono ?_
  omega

theorem Observation.within {o : Observation} (hfew : o.candidates.length ≤ 128) :
    Observation.codec.Within 22000 o :=
  within_map (within_codec (within_and (within_field "candidates" (within_ids hfew)) <|
    within_and (within_field "controller" (Id.within o.controller)) <|
    within_and (within_optional "desired_configuration" (within_digest o.desiredConfiguration)) <|
    within_and (within_optional "desired_execution" (within_digest o.desiredExecution)) <|
    within_and (within_optional "desired_manifest" (within_digest o.desiredManifest)) <|
    within_and (within_field "desired_valid" (within_bool o.desiredValid)) <|
    within_and (within_field "epoch" (Id.within o.epoch)) <|
    within_and (within_field "external_change" (within_bool o.externalChange)) <|
    within_and (within_optional "instance" (within_id o.instanceId)) <|
    within_and (within_field "ownership" (Ownership.within o.ownership)) <|
    within_and (within_field "registration" (Digest.within o.registration)) <|
    within_and (within_field "restart_required" (within_bool o.restartRequired)) <|
    within_and (within_field "revision" (within_u64 o.revision)) <|
    within_and (within_optional "running_configuration" (within_digest o.runningConfiguration)) <|
    within_and (within_optional "running_execution" (within_digest o.runningExecution)) <|
    within_and (within_field "saved_state" (Digest.within o.savedState)) <|
    within_optional "selected" (within_id o.selected)) (by decide))

theorem Receipt.within {r : Receipt} (hschema : Codec.str.Within 100 r.schema)
    (hobservation : r.observation.json.size ≤ 22000) : Receipt.codec.Within 30000 r := by
  have hany : (Codec.any 127).Within 22000 r.observation := hobservation
  exact within_map (within_codec (within_and (within_field "schema" hschema) <|
    within_and (within_field "operation" (Id.within r.operation)) <|
    within_and (within_field "request_sha256" (Digest.within r.requestSha256)) <|
    within_and (within_field "after" (Snapshot.within r.after)) <|
    within_field "observation" hany) (by decide))

end Sizes

section Settled

theorem settled_list (l : List Id) : (Id.codec.list.encode l).Settled := by
  change SettledItems (l.map Id.codec.encode)
  rw [settledItems_iff]
  intro item hitem
  obtain ⟨id, -, rfl⟩ := List.mem_map.1 hitem
  exact trivial

theorem settled_digest (o : Option Digest) :
    ((Digest.codec.nullable digest_ne_null).encode o).Settled := by
  cases o with
  | none => exact trivial
  | some d => exact trivial

theorem settled_id (o : Option Id) : ((Id.codec.nullable id_ne_null).encode o).Settled := by
  cases o with
  | none => exact trivial
  | some id => exact trivial

open Record in
/-- An observation is read as it was written. -/
theorem Observation.settled (o : Observation) : (Observation.codec.encode o).Settled :=
  settled_codec (by decide) (by decide) (by decide) <|
    settled_and (settled_field (settled_list o.candidates)) <|
    settled_and (settled_field trivial) <|
    settled_and (settled_optional (settled_digest o.desiredConfiguration)) <|
    settled_and (settled_optional (settled_digest o.desiredExecution)) <|
    settled_and (settled_optional (settled_digest o.desiredManifest)) <|
    settled_and (settled_field trivial) <| settled_and (settled_field trivial) <|
    settled_and (settled_field trivial) <|
    settled_and (settled_optional (settled_id o.instanceId)) <|
    settled_and (settled_field trivial) <| settled_and (settled_field trivial) <|
    settled_and (settled_field trivial) <|
    settled_and (settled_field (Number.settled_ofNat o.revision.toNat)) <|
    settled_and (settled_optional (settled_digest o.runningConfiguration)) <|
    settled_and (settled_optional (settled_digest o.runningExecution)) <|
    settled_and (settled_field trivial) <| settled_optional (settled_id o.selected)

/-- The observation as the value that a receipt holds. -/
def Observation.value (o : Observation) : ReadBack 127 where
  json := Observation.codec.encode o
  settled := (kept_iff _).2 o.settled
  shallow := Nat.le_trans (Observation.codec.depth_le o) (by decide)

end Settled

end ResponseGateway.Management.RuntimeStore
