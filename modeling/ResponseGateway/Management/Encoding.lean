import ResponseGateway.Library.Codec
import ResponseGateway.Management.Contract

/-!
The texts that the management store keeps: operations and events in the order of
their declarations, names in snake case, unknown fields refused. Every text is far
below the limit of `decode`, because identifiers and digests are short and the list
of events is empty in a stored intent.
-/

namespace ResponseGateway.Management
open Checked Ir Json

section Names

def Id.codec : Codec Id :=
  .text Id.value (fun s => (Id.new s).toOption) fun id => by rw [Id.new_value]; rfl

def Digest.codec : Codec Digest :=
  .text Digest.value (fun s => (Digest.new s).toOption) fun d => by rw [Digest.new_value]; rfl

def Action.all : List Action :=
  [.readState, .readUsage, .readOperations, .reconcile, .configurationStage,
    .configurationSelect, .runtimeStart, .runtimeStop, .runtimeRestart, .packageInstall,
    .packageEnable, .packageDisable, .packageSelect, .continuationTransition,
    .teamSubjectRegister, .teamCredentialIssue, .teamCredentialRevoke, .teamCredentialRotate,
    .teamPermissionsChange]

def Action.name : Action → String
  | .readState => "read_state"
  | .readUsage => "read_usage"
  | .readOperations => "read_operations"
  | .reconcile => "reconcile"
  | .configurationStage => "configuration_stage"
  | .configurationSelect => "configuration_select"
  | .runtimeStart => "runtime_start"
  | .runtimeStop => "runtime_stop"
  | .runtimeRestart => "runtime_restart"
  | .packageInstall => "package_install"
  | .packageEnable => "package_enable"
  | .packageDisable => "package_disable"
  | .packageSelect => "package_select"
  | .continuationTransition => "continuation_transition"
  | .teamSubjectRegister => "team_subject_register"
  | .teamCredentialIssue => "team_credential_issue"
  | .teamCredentialRevoke => "team_credential_revoke"
  | .teamCredentialRotate => "team_credential_rotate"
  | .teamPermissionsChange => "team_permissions_change"

def Action.codec : Codec Action := .names all name fun a => by cases a <;> rfl

def FailureCode.name : FailureCode → String
  | .rejected => "rejected"
  | .stale => "stale"
  | .unavailable => "unavailable"
  | .interrupted => "interrupted"
  | .unverified => "unverified"
  | .effectFailed => "effect_failed"

def FailureCode.all : List FailureCode :=
  [.rejected, .stale, .unavailable, .interrupted, .unverified, .effectFailed]

def FailureCode.codec : Codec FailureCode := .names all name fun a => by cases a <;> rfl

def State.name : State → String
  | .queued => "queued"
  | .running => "running"
  | .succeeded => "succeeded"
  | .failed => "failed"
  | .uncertain => "uncertain"

def State.all : List State := [.queued, .running, .succeeded, .failed, .uncertain]

def State.codec : Codec State := .names all name fun a => by cases a <;> rfl

def Phase.name : Phase → String
  | .accepted => "accepted"
  | .started => "started"
  | .finished => "finished"
  | .recovery => "recovery"
  | .reconciled => "reconciled"

def Phase.all : List Phase := [.accepted, .started, .finished, .recovery, .reconciled]

def Phase.codec : Codec Phase := .names all name fun a => by cases a <;> rfl

end Names

section Records

def Grant.codec : Codec Grant :=
  (((Record.field "action" Action.codec).and (.field "target" Id.codec)).codec (by decide)).map
    (fun (action, target) => ⟨action, target⟩) (fun g => (g.action, g.target)) fun _ => rfl

def Identity.codec : Codec Identity :=
  (((Record.field "subject" Id.codec).and (.field "credential" Id.codec)).codec (by decide)).map
    (fun (subject, credential) => ⟨subject, credential⟩) (fun i => (i.subject, i.credential))
    fun _ => rfl

def Snapshot.codec : Codec Snapshot :=
  (((Record.field "revision" Codec.u64).and (.field "digest" Digest.codec)).codec (by decide)).map
    (fun (revision, digest) => ⟨revision, digest⟩) (fun s => (s.revision, s.digest)) fun _ => rfl

def Request.codec : Codec Request :=
  (((Record.field "target" Id.codec).and <| (Record.field "action" Action.codec).and <|
    (Record.field "expected" Snapshot.codec).and <|
    (Record.field "idempotency_key" Id.codec).and <|
    .field "parameters_sha256" Digest.codec).codec (by decide)).map
    (fun (target, action, expected, key, parameters) =>
      ⟨target, action, expected, key, parameters⟩)
    (fun r => (r.target, r.action, r.expected, r.idempotencyKey, r.parametersSha256))
    fun _ => rfl

/-- The variants of an effect, told apart by their tag. -/
def Effect.appliedCodec : Codec (Unit × Snapshot × Digest) :=
  ((Record.tag "kind" "applied").and <| (Record.field "after" Snapshot.codec).and <|
    .field "evidence_sha256" Digest.codec).codec (by decide)

def Effect.codeRecord (name : String) : Record (Unit × FailureCode) :=
  (Record.tag "kind" name).and (.field "code" FailureCode.codec)

theorem Effect.codeRecord_keys (name : String) : (codeRecord name).keys.Nodup := by
  change ["kind", "code"].Nodup
  decide

def Effect.codeCodec (name : String) : Codec (Unit × FailureCode) :=
  (codeRecord name).codec (codeRecord_keys name)

theorem Effect.applied_tag (name : String) (hname : "applied" ≠ name) (b : Unit × FailureCode) :
    appliedCodec.decode ((codeCodec name).encode b) = none :=
  Record.decode_tag (k := codeRecord_keys name) hname b

theorem Effect.code_tag (b : Unit × FailureCode) :
    (codeCodec "not_applied").decode ((codeCodec "uncertain").encode b) = none :=
  Record.decode_tag (h := codeRecord_keys _) (k := codeRecord_keys _) (by decide) b

def Effect.codec : Codec Effect :=
  (appliedCodec.either ((codeCodec "not_applied").either (codeCodec "uncertain") code_tag) (by
      rintro (b | b)
      · exact applied_tag _ (by decide) b
      · exact applied_tag _ (by decide) b)).map
    (fun
      | .inl (_, after, evidence) => .applied after evidence
      | .inr (.inl (_, code)) => .notApplied code
      | .inr (.inr (_, code)) => .uncertain code)
    (fun
      | .applied after evidence => .inl ((), after, evidence)
      | .notApplied code => .inr (.inl ((), code))
      | .uncertain code => .inr (.inr ((), code)))
    (by rintro (_ | _ | _) <;> rfl)

def Event.codec : Codec Event :=
  (((Record.field "sequence" Codec.u64).and <| (Record.field "at_ms" Codec.u64).and <|
    (Record.field "phase" Phase.codec).and <| (Record.field "state" State.codec).and <|
    (Record.optional "actor" (Identity.codec.nullable nofun)).and <|
    (Record.optional "authorization" (Grant.codec.nullable nofun)).and <|
    .optional "effect" (Effect.codec.nullable (by rintro (_ | _ | _) <;> nofun))).codec
      (by decide)).map
    (fun (sequence, atMs, phase, state, actor, authorization, effect) =>
      ⟨sequence, atMs, phase, state, actor, authorization, effect⟩)
    (fun e => (e.sequence, e.atMs, e.phase, e.state, e.actor, e.authorization, e.effect))
    fun _ => rfl

def Operation.codec : Codec Operation :=
  (((Record.field "schema" Codec.str).and <| (Record.field "id" Id.codec).and <|
    (Record.field "actor" Identity.codec).and <|
    (Record.field "authorization" Grant.codec).and <|
    (Record.field "request" Request.codec).and <| (Record.field "state" State.codec).and <|
    .field "events" Event.codec.list).codec (by decide)).map
    (fun (schema, id, actor, authorization, request, state, events) =>
      ⟨schema, id, actor, authorization, request, state, events⟩)
    (fun o => (o.schema, o.id, o.actor, o.authorization, o.request, o.state, o.events))
    fun _ => rfl

end Records

section Texts

/-- `json`. -/
def json {α : Type} (c : Codec α) (a : α) : String := renderText (c.encode a)

/-- `decode`: a bounded text, read with the nesting limit of the parser. -/
def decode {α : Type} (c : Codec α) (text : String) : Except Error α :=
  if text.utf8ByteSize > 65536 then .error .invalidStore
  else okOr (c.read 128 text) .invalidStore

theorem json_size {α : Type} (c : Codec α) (a : α) :
    (json c a).utf8ByteSize = (c.encode a).size := by
  rw [json, renderText, utf8ByteSize_ofList]
  rfl

theorem decode_json {α : Type} {c : Codec α} {a : α} (hdepth : c.depth ≤ 128)
    (hsize : (c.encode a).size ≤ 65536) : decode c (json c a) = .ok a := by
  rw [decode, json_size, if_neg (Nat.not_lt.2 hsize), json, renderText, c.read_render hdepth,
    okOr_some]

def Request.fingerprint (sha256 : String → Ir.Digest) (request : Request) : Digest :=
  .of sha256 (json Request.codec request)

end Texts

section Sizes

theorem isPlain_of_isAlphanum {c : Char} (h : c.isAlphanum = true) : isPlain c = true := by
  have hrange : 0x30 ≤ c.toNat ∧ c.toNat ≤ 0x7a := by
    simp only [Char.isAlphanum, Char.isAlpha, Char.isUpper, Char.isLower, Char.isDigit,
      Bool.or_eq_true, Bool.and_eq_true, decide_eq_true_eq, ge_iff_le,
      UInt32.le_iff_toNat_le] at h
    rcases h with (⟨hlow, hhigh⟩ | ⟨hlow, hhigh⟩) | ⟨hlow, hhigh⟩
    all_goals exact ⟨Nat.le_trans (by decide) hlow, Nat.le_trans hhigh (by decide)⟩
  refine isPlain_of_range (by omega) (by omega) ?_ ?_
  · rintro rfl
    cases h
  · rintro rfl
    cases h

theorem isPlain_of_isIdChar {c : Char} (h : isIdChar c = true) : isPlain c = true := by
  simp only [isIdChar, Bool.or_eq_true, decide_eq_true_eq, List.mem_cons, List.not_mem_nil,
    or_false] at h
  rcases h with h | rfl | rfl | rfl | rfl
  · exact isPlain_of_isAlphanum h
  all_goals decide

theorem isPlain_of_isLowerHex {c : Char} (h : isLowerHex c = true) : isPlain c = true := by
  rw [isLowerHex, Bool.or_eq_true, Bool.and_eq_true, decide_eq_true_eq, decide_eq_true_eq,
    Char.le_def, Char.le_def, UInt32.le_iff_toNat_le, UInt32.le_iff_toNat_le] at h
  rcases h with hdigit | ⟨hlow, hhigh⟩
  · exact isPlain_of_isAlphanum (by rw [Char.isAlphanum, hdigit, Bool.or_true])
  · have hlower : 0x61 ≤ c.toNat := hlow
    have hupper : c.toNat ≤ 0x66 := hhigh
    refine isPlain_of_range (by omega) (by omega) ?_ ?_
    · rintro rfl
      exact absurd hlower (by decide)
    · rintro rfl
      exact absurd hlower (by decide)

theorem length_le_size (text : String) : text.toList.length ≤ text.utf8ByteSize := by
  have hlen (l : Text) : l.length ≤ l.len := by
    induction l with
    | nil => exact Nat.le_refl _
    | cons c rest ih =>
        have hc := c.utf8Size_pos
        rw [List.length_cons, Text.len_cons]
        omega
  have hsize := utf8ByteSize_ofList text.toList
  rw [String.ofList_toList] at hsize
  rw [hsize]
  exact hlen _

theorem Id.within (id : Id) : Id.codec.Within 98 id := by
  have hvalid := id.valid
  simp only [isId, Bool.and_eq_true, decide_eq_true_eq] at hvalid
  exact Codec.within_text
    (fun c hc => isPlain_of_isIdChar (List.all_eq_true.1 hvalid.2 c hc))
    (Nat.le_trans (length_le_size _) hvalid.1.2)

theorem Digest.within (d : Digest) : Digest.codec.Within 66 d := by
  have hvalid := d.valid
  simp only [isDigest, Bool.and_eq_true, decide_eq_true_eq] at hvalid
  exact Codec.within_text
    (fun c hc => isPlain_of_isLowerHex (List.all_eq_true.1 hvalid.2 c hc))
    (Nat.le_trans (length_le_size _) (Nat.le_of_eq hvalid.1))

theorem Action.within (a : Action) : Action.codec.Within 25 a :=
  Codec.within_names (by decide) a

theorem FailureCode.within (code : FailureCode) : FailureCode.codec.Within 15 code :=
  Codec.within_names (by decide) code

theorem State.within (state : State) : State.codec.Within 11 state :=
  Codec.within_names (by decide) state

theorem Phase.within (phase : Phase) : Phase.codec.Within 12 phase :=
  Codec.within_names (by decide) phase

open Record in
theorem Grant.within (grant : Grant) : Grant.codec.Within 160 grant :=
  Codec.within_map (within_codec (within_and (within_field "action" (Action.within grant.action))
    (within_field "target" (Id.within grant.target))) (by decide))

open Record in
theorem Identity.within (identity : Identity) : Identity.codec.Within 240 identity :=
  Codec.within_map (within_codec (within_and (within_field "subject" (Id.within identity.subject))
    (within_field "credential" (Id.within identity.credential))) (by decide))

open Record in
theorem Snapshot.within (snapshot : Snapshot) : Snapshot.codec.Within 120 snapshot :=
  Codec.within_map (within_codec (within_and
    (within_field "revision" (Codec.within_u64 snapshot.revision))
    (within_field "digest" (Digest.within snapshot.digest))) (by decide))

open Record in
theorem Request.within (request : Request) : Request.codec.Within 600 request :=
  Codec.within_map (within_codec (within_and (within_field "target" (Id.within request.target)) <|
    within_and (within_field "action" (Action.within request.action)) <|
    within_and (within_field "expected" (Snapshot.within request.expected)) <|
    within_and (within_field "idempotency_key" (Id.within request.idempotencyKey)) <|
    within_field "parameters_sha256" (Digest.within request.parametersSha256))
    (by decide))

open Record in
theorem Effect.within (effect : Effect) : Effect.codec.Within 300 effect := by
  have hcode (name : String) (code : FailureCode) (hname : (string name).size ≤ 13) :
      (codeCodec name).Within 300 ((), code) := by
    have hkeys : width (renderString "kind".toList) + width (renderString "code".toList) = 12 := by
      decide
    refine within_codec (within_and (within_tag "kind" name ())
      (within_field "code" (FailureCode.within code))) ?_
    omega
  cases effect with
  | applied after evidence =>
      have happlied : appliedCodec.Within 300 ((), after, evidence) :=
        within_codec (within_and (within_tag "kind" "applied" ()) <|
          within_and (within_field "after" (Snapshot.within after)) <|
          within_field "evidence_sha256" (Digest.within evidence)) (by decide)
      exact happlied
  | notApplied code => exact hcode "not_applied" code (by decide)
  | uncertain code => exact hcode "uncertain" code (by decide)

open Record Codec in
theorem Event.within (event : Event) : Event.codec.Within 1000 event :=
  Codec.within_map (within_codec (within_and
    (within_field "sequence" (within_u64 event.sequence)) <|
    within_and (within_field "at_ms" (within_u64 event.atMs)) <|
    within_and (within_field "phase" (Phase.within event.phase)) <|
    within_and (within_field "state" (State.within event.state)) <|
    within_and (within_optional "actor"
      (within_nullable (fun identity _ => Identity.within identity) (by decide))) <|
    within_and (within_optional "authorization"
      (within_nullable (fun grant _ => Grant.within grant) (by decide))) <|
    within_optional "effect"
      (within_nullable (fun effect _ => Effect.within effect) (by decide))) (by decide))

open Record in
theorem Operation.within_intent {operation : Operation} (hschema : operation.schema = contract)
    (hevents : operation.events = []) : Operation.codec.Within 1500 operation := by
  have hcontract : Codec.str.Within 25 operation.schema := by
    rw [hschema]
    decide
  have hnone : Event.codec.list.Within 2 operation.events := by
    rw [hevents]
    decide
  exact Codec.within_map (within_codec (within_and (within_field "schema" hcontract) <|
    within_and (within_field "id" (Id.within operation.id)) <|
    within_and (within_field "actor" (Identity.within operation.actor)) <|
    within_and (within_field "authorization" (Grant.within operation.authorization)) <|
    within_and (within_field "request" (Request.within operation.request)) <|
    within_and (within_field "state" (State.within operation.state)) <|
    within_field "events" hnone) (by decide))

theorem decode_event (event : Event) : decode Event.codec (json Event.codec event) = .ok event :=
  decode_json (by decide) (Nat.le_trans (Event.within event) (by decide))

theorem decode_intent {operation : Operation} (hschema : operation.schema = contract)
    (hevents : operation.events = []) :
    decode Operation.codec (json Operation.codec operation) = .ok operation :=
  decode_json (by decide) (Nat.le_trans (Operation.within_intent hschema hevents) (by decide))

end Sizes

end ResponseGateway.Management
