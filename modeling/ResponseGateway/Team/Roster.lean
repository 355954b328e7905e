import ResponseGateway.Team.Store

/-!
What the tables hold. A `Roster` is their typed content, a `Valid` one is what runs of
the store reach, and `Changed` says what a command may do to it, guards included. On
the tables of a valid roster every read succeeds, so a command that is carried out is
a change of the roster.
-/

namespace ResponseGateway.Team
open Checked Json Method Management
open Ir (hex renderText)

section Contents

structure Roster where
  subjects : List Subject
  credentials : List StoredCredential
  receipts : List Evidence
  commits : List Commit

def SubjectRow.of (s : Subject) : SubjectRow := ⟨s.id.value, json Subject.codec s⟩

def CredentialRow.of (c : StoredCredential) : CredentialRow :=
  ⟨c.metadata.id.value, c.verifier.value, json StoredCredential.codec c⟩

def ReceiptRow.of (e : Evidence) : ReceiptRow := ⟨e.operation.value, json Evidence.codec e⟩

/-- One generation for each receipt. -/
def Roster.tables (σ : Roster) : Tables where
  generation := σ.receipts.length
  subjectRows := σ.subjects.map .of
  credentialRows := σ.credentials.map .of
  receiptRows := σ.receipts.map .of
  commits := σ.commits

theorem SubjectRow.of_injective : Function.Injective SubjectRow.of := by
  intro s s' h
  exact json_injective (by decide) (congrArg SubjectRow.data h)

theorem CredentialRow.of_injective : Function.Injective CredentialRow.of := by
  intro c c' h
  exact json_injective (by decide) (congrArg CredentialRow.data h)

theorem ReceiptRow.of_injective : Function.Injective ReceiptRow.of := by
  intro e e' h
  exact json_injective (by decide) (congrArg ReceiptRow.evidence h)

/-- The tables determine their content. -/
theorem Roster.tables_injective : Function.Injective Roster.tables := by
  intro σ τ h
  have hsubjects := List.map_injective_iff.2 SubjectRow.of_injective
    (congrArg Tables.subjectRows h)
  have hcredentials := List.map_injective_iff.2 CredentialRow.of_injective
    (congrArg Tables.credentialRows h)
  have hreceipts := List.map_injective_iff.2 ReceiptRow.of_injective
    (congrArg Tables.receiptRows h)
  have hcommits : σ.commits = τ.commits := congrArg Tables.commits h
  obtain ⟨subjects, credentials, receipts, commits⟩ := σ
  obtain rfl : subjects = τ.subjects := hsubjects
  obtain rfl : credentials = τ.credentials := hcredentials
  obtain rfl : receipts = τ.receipts := hreceipts
  obtain rfl : commits = τ.commits := hcommits
  rfl

def StoredCredential.withRevoked (revoked : Bool) (c : StoredCredential) : StoredCredential :=
  { c with metadata := { c.metadata with revoked } }

/-- The command ends the credential. -/
def Command.Revokes (key : Id) : Command → Prop
  | .revoke key' | .rotate key' _ => key' = key
  | .register .. | .permissionsChange .. | .issue .. => False

variable (sha256 : String → Ir.Digest)

/-- The token was issued for the credential. -/
structure Token (c : StoredCredential) (token : String) : Prop where
  verifier : c.verifier = .of sha256 token
  shape : ∃ bytes, token = tokenText c.metadata.purpose bytes

structure Roster.Valid (σ : Roster) : Prop where
  subjectIds : (σ.subjects.map (·.id)).Nodup
  permissions : ∀ s ∈ σ.subjects, s.permissions.validate = .ok ()
  fewSubjects : σ.subjects.length ≤ 128
  credentialIds : (σ.credentials.map (·.metadata.id)).Nodup
  verifiers : (σ.credentials.map (·.verifier)).Nodup
  fewCredentials : σ.credentials.length ≤ 1024
  owners : ∀ c ∈ σ.credentials, c.metadata.subject ∈ σ.subjects.map (·.id)
  receiptIds : (σ.receipts.map (·.operation)).Nodup
  schemas : ∀ e ∈ σ.receipts, e.schema = effectSchema
  revisions : ∀ e ∈ σ.receipts, Tables.successor e.before.revision = some e.after.revision
  generation : σ.receipts.length < 2 ^ 63
  commits : σ.commits.map (·.operation) = σ.receipts.map (·.operation)
  issuers : (σ.credentials.map (·.metadata.issuedOperation)).Nodup
  issued : ∀ c ∈ σ.credentials, ∃ e ∈ σ.receipts, e.operation = c.metadata.issuedOperation ∧
    e.requestSha256 = c.requestSha256 ∧
    e.issuedCredentialSha256 = some (credentialDigest sha256 (c.withRevoked false))
  holders : ∀ c ∈ σ.credentials, ∃ commit ∈ σ.commits, ∃ secret,
    commit.operation = c.metadata.issuedOperation ∧ commit.secret = some secret ∧
      secret.credential = c.metadata.id
  tokens : ∀ commit ∈ σ.commits, ∀ secret, commit.secret = some secret →
    (commit.command.action = .teamCredentialIssue ∨
      commit.command.action = .teamCredentialRotate) ∧
    ∃ c ∈ σ.credentials, c.metadata.id = secret.credential ∧ Token sha256 c secret.value
  revoked : ∀ commit ∈ σ.commits, ∀ key, commit.command.Revokes key →
    ∃ c ∈ σ.credentials, c.metadata.id = key ∧ c.metadata.revoked = true

def Roster.empty : Roster := ⟨[], [], [], []⟩

theorem valid_empty : Roster.empty.Valid sha256 where
  subjectIds := List.nodup_nil
  permissions := nofun
  fewSubjects := Nat.zero_le _
  credentialIds := List.nodup_nil
  verifiers := List.nodup_nil
  fewCredentials := Nat.zero_le _
  owners := nofun
  receiptIds := List.nodup_nil
  schemas := nofun
  revisions := nofun
  generation := by decide
  commits := rfl
  issuers := List.nodup_nil
  issued := nofun
  holders := nofun
  tokens := nofun
  revoked := nofun

end Contents

section Reading

variable {sha256 : String → Ir.Digest} {σ : Roster}

theorem find_map {α β γ : Type} [DecidableEq γ] {f : α → β} {key : β → γ} {k : γ} (l : List α) :
    (l.map f).find? (fun b => key b = k) = (l.find? fun a => key (f a) = k).map f := by
  induction l with
  | nil => rfl
  | cons a l ih =>
      rw [List.map_cons, List.find?_cons, List.find?_cons]
      split
      · rfl
      · exact ih

theorem find_id {α : Type} (id : α → Id) (k : Id) (l : List α) :
    (l.find? fun a => (id a).value = k.value) = l.find? fun a => id a = k := by
  congr 1
  funext a
  exact decide_eq_decide.2 ⟨fun h => Management.Id.ext h, congrArg Id.value⟩

theorem subject_tables (h : σ.Valid sha256) (id : Id) :
    σ.tables.subject id = okOr (σ.subjects.find? (·.id = id)) .notFound := by
  have hfind : σ.tables.subjectRows.find? (·.id = id.value) =
      (σ.subjects.find? (·.id = id)).map .of := by
    rw [Roster.tables, find_map]
    exact congrArg _ (find_id _ id _)
  rw [Tables.subject, hfind]
  cases hs : σ.subjects.find? (·.id = id) with
  | none => rfl
  | some s =>
      have hid : s.id = id := by simpa using List.find?_some hs
      have hvalid := h.permissions s (List.mem_of_find?_eq_some hs)
      rw [Option.map_some, okOr_some, bind_of_ok, SubjectRow.of, decode_subject hvalid, bind_of_ok,
        hid, hvalid]
      simp

theorem credential_tables (σ : Roster) (id : Id) :
    σ.tables.credential id = okOr (σ.credentials.find? (·.metadata.id = id)) .notFound := by
  have hfind : σ.tables.credentialRows.find? (·.id = id.value) =
      (σ.credentials.find? (·.metadata.id = id)).map .of := by
    rw [Roster.tables, find_map]
    exact congrArg _ (find_id (fun c : StoredCredential => c.metadata.id) id _)
  rw [Tables.credential, hfind]
  cases hc : σ.credentials.find? (·.metadata.id = id) with
  | none => rfl
  | some c =>
      have hid : c.metadata.id = id := by simpa using List.find?_some hc
      rw [Option.map_some, okOr_some, bind_of_ok, CredentialRow.of, decode_credential, bind_of_ok,
        hid]
      simp

/-- With unique keys, the entry of a key is the one that is found. -/
theorem find_key {α κ : Type} [DecidableEq κ] {key : α → κ} {l : List α} (hl : (l.map key).Nodup)
    {k : κ} {a : α} : l.find? (fun x => key x = k) = some a ↔ a ∈ l ∧ key a = k := by
  constructor
  · intro ha
    exact ⟨List.mem_of_find?_eq_some ha, by simpa using List.find?_some ha⟩
  · rintro ⟨hmem, rfl⟩
    cases hfound : l.find? (fun x => key x = key a) with
    | none => exact absurd (decide_eq_true rfl) (List.find?_eq_none.1 hfound a hmem)
    | some b =>
        have hkey : key b = key a := by simpa using List.find?_some hfound
        rw [List.inj_on_of_nodup_map hl (List.mem_of_find?_eq_some hfound) hmem hkey]

/-- A stored subject is found under its identifier. -/
theorem subject_ok (h : σ.Valid sha256) {id : Id} {s : Subject} :
    σ.tables.subject id = .ok s ↔ s ∈ σ.subjects ∧ s.id = id := by
  rw [subject_tables h, okOr_ok]
  exact find_key h.subjectIds

theorem credential_ok (h : σ.Valid sha256) {id : Id} {c : StoredCredential} :
    σ.tables.credential id = .ok c ↔ c ∈ σ.credentials ∧ c.metadata.id = id := by
  rw [credential_tables, okOr_ok]
  exact find_key h.credentialIds

/-- All subjects read back. -/
theorem subjects_tables (h : σ.Valid sha256) :
    ∃ l, σ.tables.subjects = .ok l ∧ l.length = σ.subjects.length := by
  have hrows : ∀ row ∈ (σ.tables.subjectRows.mergeSort fun a b => a.id ≤ b.id).take 129,
      ∃ s ∈ σ.subjects, decode Subject.codec row.data = .ok s := by
    intro row hrow
    have hmem := (List.mergeSort_perm _ _).mem_iff.1 (List.mem_of_mem_take hrow)
    obtain ⟨s, hs, rfl⟩ := List.mem_map.1 hmem
    exact ⟨s, hs, decode_subject (h.permissions s hs)⟩
  obtain ⟨l, hl, hlength⟩ := mapM_of_forall fun row hrow => by
    obtain ⟨s, -, hs⟩ := hrows row hrow
    exact ⟨s, hs⟩
  have hcount : l.length = σ.subjects.length := by
    rw [hlength, List.length_take, List.length_mergeSort, Roster.tables, List.length_map]
    exact Nat.min_eq_right (Nat.le_trans h.fewSubjects (by decide))
  have hvalid : ∀ s ∈ l, s.permissions.validate.mapError (fun _ => Error.invalidStore) = .ok () := by
    intro s hs
    obtain ⟨row, hrow, hread⟩ := mapM_mem_ok hl hs
    obtain ⟨s', hs', hread'⟩ := hrows row hrow
    obtain rfl := Except.ok.inj (hread'.symm.trans hread)
    rw [h.permissions s' hs']
    rfl
  refine ⟨l, ?_, hcount⟩
  rw [Tables.subjects, hl, bind_of_ok, decide_eq_false (Nat.not_lt.2 (hcount ▸ h.fewSubjects)),
    rejectIf_false, bind_of_ok, forM_of_forall hvalid]
  rfl

/-- All credentials read back. -/
theorem credentials_tables (h : σ.Valid sha256) :
    ∃ l, σ.tables.credentials = .ok l ∧ l.length = σ.credentials.length := by
  obtain ⟨l, hl, hlength⟩ := mapM_of_forall (g := fun row : CredentialRow =>
      decode StoredCredential.codec row.data)
      (l := (σ.tables.credentialRows.mergeSort fun a b => a.id ≤ b.id).take 1025)
      fun row hrow => by
    have hmem := (List.mergeSort_perm _ _).mem_iff.1 (List.mem_of_mem_take hrow)
    obtain ⟨c, -, rfl⟩ := List.mem_map.1 hmem
    exact ⟨c, decode_credential c⟩
  have hcount : l.length = σ.credentials.length := by
    rw [hlength, List.length_take, List.length_mergeSort, Roster.tables, List.length_map]
    exact Nat.min_eq_right (Nat.le_trans h.fewCredentials (by decide))
  refine ⟨l, ?_, hcount⟩
  rw [Tables.credentials, hl, bind_of_ok,
    decide_eq_false (Nat.not_lt.2 (hcount ▸ h.fewCredentials))]
  rfl

end Reading

end ResponseGateway.Team
