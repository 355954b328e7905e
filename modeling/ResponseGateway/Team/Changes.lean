import ResponseGateway.Team.Roster

/-!
What a command does to a roster. `Changed` lists the five changes with the guards that
the tables enforce, `Ready` what the checks before the transaction add, and a commit
puts one receipt behind a change. A valid roster stays valid and only grows.
-/

namespace ResponseGateway.Team
open Checked Json Method Management
open Ir (hex renderText)

section Relation

namespace Roster

def addSubject (s : Subject) (σ : Roster) : Roster := { σ with subjects := σ.subjects ++ [s] }

def putSubject (s : Subject) (σ : Roster) : Roster :=
  { σ with subjects := σ.subjects.map fun s' => if s'.id = s.id then s else s' }

def revoke (key : Id) (σ : Roster) : Roster :=
  { σ with credentials := σ.credentials.map fun c =>
      if c.metadata.id = key then c.withRevoked true else c }

def issue (c : StoredCredential) (σ : Roster) : Roster :=
  { σ with credentials := σ.credentials ++ [c] }

def commit (e : Evidence) (commit : Commit) (σ : Roster) : Roster :=
  { σ with receipts := σ.receipts ++ [e], commits := σ.commits ++ [commit] }

end Roster

variable (sha256 : String → Ir.Digest)

/-- A credential that may be stored next, with its token. -/
structure Issuable (σ : Roster) (operation : Id) (fingerprint : Digest) (c : StoredCredential)
    (token : String) : Prop where
  operation : c.metadata.issuedOperation = operation
  fingerprint : c.requestSha256 = fingerprint
  active : c.metadata.revoked = false
  token : Token sha256 c token
  id : c.metadata.id ∉ σ.credentials.map (·.metadata.id)
  verifier : c.verifier ∉ σ.credentials.map (·.verifier)

inductive Changed (σ : Roster) (operation : Id) (fingerprint : Digest) :
    Command → Option Secret → Roster → Prop where
  | register {s : Subject} (fresh : s.id ∉ σ.subjects.map (·.id)) :
      Changed σ operation fingerprint (.register s.id s.permissions) none (σ.addSubject s)
  | permissionsChange {s s' : Subject} (stored : s ∈ σ.subjects) (same : s'.id = s.id) :
      Changed σ operation fingerprint (.permissionsChange s'.id s'.permissions) none
        (σ.putSubject s')
  | issue {c : StoredCredential} {token : String}
      (issuable : Issuable sha256 σ operation fingerprint c token) :
      Changed σ operation fingerprint (.issue c.metadata.subject c.metadata.id c.metadata.purpose)
        (some ⟨c.metadata.id, token⟩) (σ.issue c)
  | revoke {c : StoredCredential} (stored : c ∈ σ.credentials) :
      Changed σ operation fingerprint (.revoke c.metadata.id) none (σ.revoke c.metadata.id)
  | rotate {c c' : StoredCredential} {token : String} (stored : c ∈ σ.credentials)
      (same : c'.metadata.subject = c.metadata.subject)
      (issuable : Issuable sha256 (σ.revoke c.metadata.id) operation fingerprint c' token) :
      Changed σ operation fingerprint (.rotate c.metadata.id c'.metadata.id)
        (some ⟨c'.metadata.id, token⟩) ((σ.revoke c.metadata.id).issue c')

/-- What the checks of a command leave to know about it. -/
def Ready (σ : Roster) : Command → Prop
  | .register _ permissions => σ.subjects.length < 128 ∧ permissions.validate = .ok ()
  | .permissionsChange _ permissions => permissions.validate = .ok ()
  | .issue id _ _ => id ∈ σ.subjects.map (·.id) ∧ σ.credentials.length < 1024
  | .revoke _ => True
  | .rotate _ _ => σ.credentials.length < 1024

/-- Later contents: nothing is lost, and a revoked credential stays revoked. -/
structure Grows (σ τ : Roster) : Prop where
  receipts : σ.receipts <+: τ.receipts
  commits : σ.commits <+: τ.commits
  credentials : ∀ c ∈ σ.credentials, ∃ revoked, (c.metadata.revoked = true → revoked = true) ∧
    c.withRevoked revoked ∈ τ.credentials

theorem Grows.refl (σ : Roster) : Grows σ σ :=
  ⟨List.prefix_rfl, List.prefix_rfl, fun c hc => ⟨c.metadata.revoked, id, hc⟩⟩

theorem Grows.trans {σ τ υ : Roster} (h : Grows σ τ) (h' : Grows τ υ) : Grows σ υ where
  receipts := h.receipts.trans h'.receipts
  commits := h.commits.trans h'.commits
  credentials c hc := by
    obtain ⟨revoked, hrevoked, hmem⟩ := h.credentials c hc
    obtain ⟨revoked', hrevoked', hmem'⟩ := h'.credentials _ hmem
    exact ⟨revoked', fun hc => hrevoked' (hrevoked hc), hmem'⟩

end Relation

section Validity

variable {sha256 : String → Ir.Digest} {σ τ : Roster}

theorem nodup_append_singleton {α : Type} {l : List α} {a : α} (h : l.Nodup) (ha : a ∉ l) :
    (l ++ [a]).Nodup := by
  rw [List.nodup_append_comm]
  exact List.nodup_cons.2 ⟨ha, h⟩

theorem valid_addSubject (h : σ.Valid sha256) {s : Subject} (hs : s.id ∉ σ.subjects.map (·.id))
    (hvalid : s.permissions.validate = .ok ()) (hroom : σ.subjects.length < 128) :
    (σ.addSubject s).Valid sha256 :=
  { h with
    subjectIds := by
      rw [Roster.addSubject, List.map_append]
      exact nodup_append_singleton h.subjectIds hs
    permissions := List.forall_mem_append.2 ⟨h.permissions, List.forall_mem_singleton.2 hvalid⟩
    fewSubjects := by
      rw [Roster.addSubject, List.length_append]
      exact hroom
    owners := fun c hc => by
      rw [Roster.addSubject, List.map_append]
      exact List.mem_append_left _ (h.owners c hc) }

theorem putSubject_ids (s : Subject) (σ : Roster) :
    (σ.putSubject s).subjects.map (·.id) = σ.subjects.map (·.id) := by
  rw [Roster.putSubject, List.map_map]
  refine List.map_congr_left fun s' _ => ?_
  by_cases hid : s'.id = s.id
  · simp [hid]
  · simp [hid]

theorem valid_putSubject (h : σ.Valid sha256) {s : Subject}
    (hvalid : s.permissions.validate = .ok ()) : (σ.putSubject s).Valid sha256 :=
  { h with
    subjectIds := by
      rw [putSubject_ids]
      exact h.subjectIds
    permissions := by
      intro s' hs'
      obtain ⟨old, hold, rfl⟩ := List.mem_map.1 hs'
      by_cases hid : old.id = s.id
      · rw [if_pos hid]
        exact hvalid
      · rw [if_neg hid]
        exact h.permissions old hold
    fewSubjects := by
      rw [Roster.putSubject, List.length_map]
      exact h.fewSubjects
    owners := fun c hc => by
      rw [putSubject_ids]
      exact h.owners c hc }

/-- The credential that revoking leaves of one. -/
def revokeAt (key : Id) (c : StoredCredential) : StoredCredential :=
  if c.metadata.id = key then c.withRevoked true else c

theorem revokeAt_eq (key : Id) (c : StoredCredential) :
    ∃ revoked, (c.metadata.revoked = true → revoked = true) ∧
      revokeAt key c = c.withRevoked revoked := by
  rw [revokeAt]
  split
  · exact ⟨true, fun _ => rfl, rfl⟩
  · exact ⟨c.metadata.revoked, id, rfl⟩

theorem revoke_credentials (key : Id) (σ : Roster) :
    (σ.revoke key).credentials = σ.credentials.map (revokeAt key) := rfl

/-- Revoking changes no column but the flag. -/
theorem revoke_map {β : Type} (f : StoredCredential → β)
    (hf : ∀ c revoked, f (c.withRevoked revoked) = f c) (key : Id) (σ : Roster) :
    (σ.revoke key).credentials.map f = σ.credentials.map f := by
  rw [revoke_credentials, List.map_map]
  refine List.map_congr_left fun c _ => ?_
  obtain ⟨revoked, -, hc⟩ := revokeAt_eq key c
  rw [Function.comp_apply, hc, hf]

theorem valid_revoke (h : σ.Valid sha256) (key : Id) : (σ.revoke key).Valid sha256 := by
  have hkept {P : StoredCredential → Prop} (hP : ∀ c revoked, P c → P (c.withRevoked revoked))
      (hall : ∀ c ∈ σ.credentials, P c) : ∀ c ∈ (σ.revoke key).credentials, P c := by
    rw [revoke_credentials, List.forall_mem_map]
    intro c hc
    obtain ⟨revoked, -, hrevoke⟩ := revokeAt_eq key c
    rw [hrevoke]
    exact hP c revoked (hall c hc)
  have hexists {c : StoredCredential} (hc : c ∈ σ.credentials) : ∃ revoked,
      (c.metadata.revoked = true → revoked = true) ∧
        c.withRevoked revoked ∈ (σ.revoke key).credentials := by
    obtain ⟨revoked, hrevoked, hrevoke⟩ := revokeAt_eq key c
    exact ⟨revoked, hrevoked, List.mem_map.2 ⟨c, hc, hrevoke⟩⟩
  exact { h with
    credentialIds := by
      rw [revoke_map _ (fun _ _ => rfl)]
      exact h.credentialIds
    verifiers := by
      rw [revoke_map _ (fun _ _ => rfl)]
      exact h.verifiers
    fewCredentials := by
      rw [revoke_credentials, List.length_map]
      exact h.fewCredentials
    owners := hkept (fun _ _ hc => hc) h.owners
    issuers := by
      rw [revoke_map _ (fun _ _ => rfl)]
      exact h.issuers
    issued := hkept (fun _ _ hc => hc) h.issued
    holders := hkept (fun _ _ hc => hc) h.holders
    tokens := fun commit hcommit secret hsecret => by
      obtain ⟨haction, c, hc, hid, htoken⟩ := h.tokens commit hcommit secret hsecret
      obtain ⟨revoked, -, hmem⟩ := hexists hc
      exact ⟨haction, _, hmem, hid, htoken.verifier, htoken.shape⟩
    revoked := fun commit hcommit key' hrevokes => by
      obtain ⟨c, hc, hid, hrevoked⟩ := h.revoked commit hcommit key' hrevokes
      obtain ⟨revoked, hkeep, hmem⟩ := hexists hc
      exact ⟨_, hmem, hid, hkeep hrevoked⟩ }

/-- The receipt of a command, and what it says of the credential it issued. -/
structure Receipt (σ : Roster) (operation : Id) (fingerprint : Digest) (e : Evidence) : Prop where
  fresh : operation ∉ σ.receipts.map (·.operation)
  schema : e.schema = effectSchema
  operation : e.operation = operation
  fingerprint : e.requestSha256 = fingerprint
  revisions : Tables.successor e.before.revision = some e.after.revision
  room : σ.receipts.length + 1 < 2 ^ 63

/-- A receipt behind a change that issues nothing. -/
theorem valid_commit (h : σ.Valid sha256) {operation : Id} {fingerprint : Digest} {e : Evidence}
    (he : Receipt σ operation fingerprint e) {command : Command}
    (hcommand : ∀ key, command.Revokes key →
      ∃ c ∈ σ.credentials, c.metadata.id = key ∧ c.metadata.revoked = true) :
    (σ.commit e ⟨operation, command, none⟩).Valid sha256 :=
  { h with
    receiptIds := by
      rw [Roster.commit, List.map_append, List.map_singleton, he.operation]
      exact nodup_append_singleton h.receiptIds he.fresh
    schemas := List.forall_mem_append.2 ⟨h.schemas, List.forall_mem_singleton.2 he.schema⟩
    revisions := List.forall_mem_append.2 ⟨h.revisions, List.forall_mem_singleton.2 he.revisions⟩
    generation := by
      rw [Roster.commit, List.length_append]
      exact he.room
    commits := by
      rw [Roster.commit, List.map_append, List.map_append, h.commits, List.map_singleton,
        List.map_singleton, he.operation]
    issued := fun c hc => by
      obtain ⟨e', he', hissued⟩ := h.issued c hc
      exact ⟨e', List.mem_append_left _ he', hissued⟩
    holders := fun c hc => by
      obtain ⟨commit, hcommit, hsecret⟩ := h.holders c hc
      exact ⟨commit, List.mem_append_left _ hcommit, hsecret⟩
    tokens := List.forall_mem_append.2 ⟨h.tokens, List.forall_mem_singleton.2 nofun⟩
    revoked := List.forall_mem_append.2 ⟨h.revoked, List.forall_mem_singleton.2 hcommand⟩ }

/-- A receipt behind the credential that its operation issued. -/
theorem valid_issue (h : σ.Valid sha256) {operation : Id} {fingerprint : Digest} {e : Evidence}
    (he : Receipt σ operation fingerprint e) {c : StoredCredential} {token : String}
    (hc : Issuable sha256 σ operation fingerprint c token) (hroom : σ.credentials.length < 1024)
    (howner : c.metadata.subject ∈ σ.subjects.map (·.id))
    (hissued : e.issuedCredentialSha256 = some (credentialDigest sha256 c)) {command : Command}
    (haction : command.action = .teamCredentialIssue ∨ command.action = .teamCredentialRotate)
    (hcommand : ∀ key, command.Revokes key →
      ∃ c ∈ σ.credentials, c.metadata.id = key ∧ c.metadata.revoked = true) :
    ((σ.issue c).commit e ⟨operation, command, some ⟨c.metadata.id, token⟩⟩).Valid sha256 := by
  have hbase := valid_commit h he hcommand
  have hactive : c.withRevoked false = c := by
    rw [StoredCredential.withRevoked, ← hc.active]
  have hnew : c ∈ (σ.issue c).credentials := List.mem_append_right _ (List.mem_singleton_self _)
  have hfresh : operation ∉ σ.credentials.map (·.metadata.issuedOperation) := by
    intro hmem
    obtain ⟨c', hc', heq⟩ := List.mem_map.1 hmem
    obtain ⟨e', he', hop, -⟩ := h.issued c' hc'
    exact he.fresh (List.mem_map.2 ⟨e', he', hop.trans heq⟩)
  exact { hbase with
    credentialIds := by
      rw [Roster.commit, Roster.issue, List.map_append]
      exact nodup_append_singleton h.credentialIds hc.id
    verifiers := by
      rw [Roster.commit, Roster.issue, List.map_append]
      exact nodup_append_singleton h.verifiers hc.verifier
    fewCredentials := by
      rw [Roster.commit, Roster.issue, List.length_append]
      exact hroom
    owners := List.forall_mem_append.2 ⟨h.owners, List.forall_mem_singleton.2 howner⟩
    issuers := by
      rw [Roster.commit, Roster.issue, List.map_append, List.map_singleton, hc.operation]
      exact nodup_append_singleton h.issuers hfresh
    commits := by
      rw [Roster.commit, List.map_append, List.map_append, Roster.issue, h.commits,
        List.map_singleton, List.map_singleton, he.operation]
    issued := by
      refine List.forall_mem_append.2 ⟨hbase.issued, List.forall_mem_singleton.2 ?_⟩
      refine ⟨e, List.mem_append_right _ (List.mem_singleton_self _),
        he.operation.trans hc.operation.symm, he.fingerprint.trans hc.fingerprint.symm, ?_⟩
      rw [hactive, hissued]
    holders := by
      refine List.forall_mem_append.2 ⟨fun c' hc' => ?_, List.forall_mem_singleton.2 ?_⟩
      · obtain ⟨commit, hcommit, hsecret⟩ := h.holders c' hc'
        exact ⟨commit, List.mem_append_left _ hcommit, hsecret⟩
      · exact ⟨_, List.mem_append_right _ (List.mem_singleton_self _), _, hc.operation.symm, rfl,
          rfl⟩
    tokens := by
      refine List.forall_mem_append.2 ⟨fun commit hcommit secret hsecret => ?_,
        List.forall_mem_singleton.2 fun secret hsecret => ?_⟩
      · obtain ⟨hkind, c', hc', hrest⟩ := h.tokens commit hcommit secret hsecret
        exact ⟨hkind, c', List.mem_append_left _ hc', hrest⟩
      · cases hsecret
        exact ⟨haction, c, hnew, rfl, hc.token⟩
    revoked := by
      refine List.forall_mem_append.2 ⟨fun commit hcommit key hrevokes => ?_,
        List.forall_mem_singleton.2 fun key hrevokes => ?_⟩
      · obtain ⟨c', hc', hrest⟩ := h.revoked commit hcommit key hrevokes
        exact ⟨c', List.mem_append_left _ hc', hrest⟩
      · obtain ⟨c', hc', hrest⟩ := hcommand key hrevokes
        exact ⟨c', List.mem_append_left _ hc', hrest⟩ }

end Validity

section Commands

variable {sha256 : String → Ir.Digest} {σ τ : Roster} {operation : Id} {fingerprint : Digest}
  {command : Command} {secret : Option Secret} {e : Evidence}

/-- What the evidence says of the issued credential. -/
def Certifies (sha256 : String → Ir.Digest) (σ : Roster) (secret : Option Secret)
    (issued : Option Digest) : Prop :=
  ∀ s, secret = some s → ∃ c ∈ σ.credentials, c.metadata.id = s.credential ∧
    issued = some (credentialDigest sha256 c)

theorem Issuable.eq_of_id {c c' : StoredCredential} {token : String}
    (h : Issuable sha256 σ operation fingerprint c token) (hmem : c' ∈ (σ.issue c).credentials)
    (hid : c'.metadata.id = c.metadata.id) : c' = c := by
  rcases List.mem_append.1 hmem with hold | hnew
  · exact absurd (List.mem_map.2 ⟨c', hold, hid⟩) h.id
  · exact List.mem_singleton.1 hnew

theorem grows_revoke (σ : Roster) (key : Id) : Grows σ (σ.revoke key) where
  receipts := List.prefix_rfl
  commits := List.prefix_rfl
  credentials c hc := by
    obtain ⟨revoked, hrevoked, heq⟩ := revokeAt_eq key c
    exact ⟨revoked, hrevoked, List.mem_map.2 ⟨c, hc, heq⟩⟩

theorem grows_issue (σ : Roster) (c : StoredCredential) : Grows σ (σ.issue c) where
  receipts := List.prefix_rfl
  commits := List.prefix_rfl
  credentials c' hc' := ⟨c'.metadata.revoked, id, List.mem_append_left _ hc'⟩

theorem grows_commit (σ : Roster) (e : Evidence) (commit : Commit) :
    Grows σ (σ.commit e commit) where
  receipts := List.prefix_append _ _
  commits := List.prefix_append _ _
  credentials c hc := ⟨c.metadata.revoked, id, hc⟩

theorem Changed.grows (h : Changed sha256 σ operation fingerprint command secret τ) :
    Grows σ τ := by
  cases h with
  | register => exact ⟨List.prefix_rfl, List.prefix_rfl, (Grows.refl σ).credentials⟩
  | permissionsChange => exact ⟨List.prefix_rfl, List.prefix_rfl, (Grows.refl σ).credentials⟩
  | issue => exact grows_issue σ _
  | revoke => exact grows_revoke σ _
  | rotate => exact (grows_revoke σ _).trans (grows_issue _ _)

theorem Changed.receipts (h : Changed sha256 σ operation fingerprint command secret τ) :
    τ.receipts = σ.receipts := by
  cases h <;> rfl

theorem Changed.commits (h : Changed sha256 σ operation fingerprint command secret τ) :
    τ.commits = σ.commits := by
  cases h <;> rfl

/-- A change with its receipt leaves a valid roster. -/
theorem Changed.valid_commit (hchanged : Changed sha256 σ operation fingerprint command secret τ)
    (h : σ.Valid sha256) (hready : Ready σ command) (he : Receipt σ operation fingerprint e)
    (hissued : Certifies sha256 τ secret e.issuedCredentialSha256) :
    (τ.commit e ⟨operation, command, secret⟩).Valid sha256 := by
  cases hchanged with
  | @register s fresh =>
      have hbase := valid_addSubject h fresh hready.2 hready.1
      exact Team.valid_commit hbase ⟨he.fresh, he.schema, he.operation,
        he.fingerprint, he.revisions, he.room⟩ nofun
  | @permissionsChange s s' stored same =>
      have hbase := valid_putSubject (s := s') h hready
      exact Team.valid_commit hbase ⟨he.fresh, he.schema, he.operation,
        he.fingerprint, he.revisions, he.room⟩ nofun
  | @issue c token issuable =>
      obtain ⟨c', hmem, hid, hdigest⟩ := hissued _ rfl
      obtain rfl := issuable.eq_of_id hmem hid
      exact valid_issue h he issuable hready.2 hready.1 hdigest (.inl rfl) nofun
  | @revoke c stored =>
      have hbase := valid_revoke h c.metadata.id
      refine Team.valid_commit hbase ⟨he.fresh, he.schema, he.operation,
        he.fingerprint, he.revisions, he.room⟩ fun key hkey => ?_
      obtain rfl : c.metadata.id = key := hkey
      exact ⟨_, List.mem_map.2 ⟨c, stored, if_pos rfl⟩, rfl, rfl⟩
  | @rotate c c' token stored same issuable =>
      obtain ⟨c₂, hmem, hid, hdigest⟩ := hissued _ rfl
      obtain rfl := issuable.eq_of_id hmem hid
      have hbase := valid_revoke h c.metadata.id
      refine valid_issue hbase ⟨he.fresh, he.schema, he.operation, he.fingerprint, he.revisions,
        he.room⟩ issuable ?_ ?_ hdigest (.inr rfl) fun key hkey => ?_
      · rw [revoke_credentials, List.length_map]
        exact hready
      · rw [same]
        exact h.owners c stored
      · obtain rfl : c.metadata.id = key := hkey
        exact ⟨_, List.mem_map.2 ⟨c, stored, if_pos rfl⟩, rfl, rfl⟩

end Commands

end ResponseGateway.Team
