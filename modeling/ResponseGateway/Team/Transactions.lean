import ResponseGateway.Team.Changes

/-!
The statements of a transaction against the roster. Each function of the store gets
one lemma about a call that was served; the last one says that a transaction that
reaches its end is a change of the roster with its receipt.
-/

namespace ResponseGateway.Team
open Checked Json Method Management
open Ir (hex renderText)

section Statements

variable {α : Type} {c c' : Connection}

theorem contact_ok {u : PUnit} (h : contact c = (.ok u, c')) : c'.tables = c.tables := by
  rw [contact] at h
  split at h <;> cases h <;> rfl

theorem select_ok {f : Tables → Except Error α} {a : α} (h : select f c = (.ok a, c')) :
    f c.tables = .ok a ∧ c'.tables = c.tables := by
  obtain ⟨_, c₁, hcontact, h⟩ := bind_accepts.1 h
  rw [read_bind_accepts, check_accepts] at h
  obtain ⟨hread, rfl⟩ := h
  rw [← contact_ok hcontact]
  exact ⟨hread, rfl⟩

theorem execute_ok {f : Tables → Option Tables} {u : PUnit} (h : execute f c = (.ok u, c')) :
    f c.tables = some c'.tables := by
  obtain ⟨_, c₁, hcontact, h⟩ := bind_accepts.1 h
  rw [read_bind_accepts] at h
  obtain ⟨tables, htables, h⟩ := check_bind_accepts.1 h
  rw [write_accepts] at h
  cases h
  rw [← contact_ok hcontact]
  exact okOr_ok.1 htables

theorem advance_ok {u : PUnit} (h : advance c = (.ok u, c')) :
    c.tables.generation < 9223372036854775807 ∧
      c'.tables = { c.tables with generation := c.tables.generation + 1 } := by
  obtain ⟨_, c₁, hcontact, h⟩ := bind_accepts.1 h
  rw [read_bind_accepts] at h
  obtain ⟨_, hroom, h⟩ := check_bind_accepts.1 h
  rw [write_accepts] at h
  cases h
  rw [rejectIf_ok] at hroom
  rw [contact_ok hcontact] at hroom ⊢
  exact ⟨by simpa using hroom, rfl⟩

theorem snapshot_ok {sha256 : String → Ir.Digest} {s : Snapshot}
    (h : snapshot sha256 c = (.ok s, c')) :
    s.revision = UInt64.ofNat c.tables.generation ∧ c'.tables = c.tables := by
  obtain ⟨revision, c₁, hrevision, h⟩ := bind_accepts.1 h
  obtain ⟨subjects, c₂, hsubjects, h⟩ := bind_accepts.1 h
  obtain ⟨credentials, c₃, hcredentials, h⟩ := bind_accepts.1 h
  obtain ⟨hread, ht₁⟩ := select_ok hrevision
  obtain ⟨-, ht₂⟩ := select_ok hsubjects
  obtain ⟨-, ht₃⟩ := select_ok hcredentials
  obtain ⟨heq, rfl⟩ := pure_accepts.1 h
  rw [← heq]
  exact ⟨(Except.ok.inj hread).symm, ht₃.trans (ht₂.trans ht₁)⟩

end Statements

section Checks

variable {sha256 : String → Ir.Digest} {σ : Roster} {c c' : Connection}

/-- Checks that pass say what the command will need. -/
theorem validate_ready (h : σ.Valid sha256) (hc : c.tables = σ.tables) {command : Command}
    {d : Digest} (hdigest : command.digest sha256 = .ok d) {u : PUnit}
    (hvalidate : validate command c = (.ok u, c')) :
    Ready σ command ∧ c'.tables = σ.tables := by
  have hcount {c₁ c₂ : Connection} {known : List StoredCredential} (hc₁ : c₁.tables = σ.tables)
      (hread : select Tables.credentials c₁ = (.ok known, c₂)) :
      known.length = σ.credentials.length ∧ c₂.tables = σ.tables := by
    obtain ⟨hread, ht⟩ := select_ok hread
    obtain ⟨l, hl, hlength⟩ := credentials_tables h
    rw [hc₁, hl] at hread
    cases hread
    exact ⟨hlength, ht.trans hc₁⟩
  cases command with
  | register id permissions =>
      obtain ⟨_, c₁, hfree, hvalidate⟩ := bind_accepts.1 hvalidate
      obtain ⟨known, c₂, hknown, hvalidate⟩ := bind_accepts.1 hvalidate
      obtain ⟨_, hroom, hvalidate⟩ := check_bind_accepts.1 hvalidate
      obtain ⟨-, rfl⟩ := pure_accepts.1 hvalidate
      obtain ⟨-, ht₁⟩ := select_ok hfree
      obtain ⟨hread, ht₂⟩ := select_ok hknown
      obtain ⟨l, hl, hlength⟩ := subjects_tables h
      rw [ht₁, hc, hl] at hread
      cases hread
      obtain ⟨_, hpermissions, -⟩ := bind_ok.1 hdigest
      rw [rejectIf_ok, hlength] at hroom
      exact ⟨⟨by simpa using hroom, hpermissions⟩, ht₂.trans (ht₁.trans hc)⟩
  | permissionsChange id permissions =>
      obtain ⟨_, c₁, hread, hvalidate⟩ := bind_accepts.1 hvalidate
      obtain ⟨-, rfl⟩ := pure_accepts.1 hvalidate
      obtain ⟨-, ht⟩ := select_ok hread
      obtain ⟨_, hpermissions, -⟩ := bind_ok.1 hdigest
      exact ⟨hpermissions, ht.trans hc⟩
  | issue id key purpose =>
      obtain ⟨owner, c₁, howner, hvalidate⟩ := bind_accepts.1 hvalidate
      obtain ⟨_, -, hvalidate⟩ := check_bind_accepts.1 hvalidate
      obtain ⟨_, c₂, hfree, hvalidate⟩ := bind_accepts.1 hvalidate
      obtain ⟨known, c₃, hknown, hvalidate⟩ := bind_accepts.1 hvalidate
      obtain ⟨_, hroom, hvalidate⟩ := check_bind_accepts.1 hvalidate
      obtain ⟨-, rfl⟩ := pure_accepts.1 hvalidate
      obtain ⟨howner, ht₁⟩ := select_ok howner
      obtain ⟨-, ht₂⟩ := select_ok hfree
      obtain ⟨hlength, ht₃⟩ := hcount (ht₂.trans (ht₁.trans hc)) hknown
      rw [hc, subject_ok h] at howner
      rw [rejectIf_ok, hlength] at hroom
      exact ⟨⟨List.mem_map.2 ⟨owner, howner⟩, by simpa using hroom⟩, ht₃⟩
  | revoke key =>
      obtain ⟨old, c₁, hold, hvalidate⟩ := bind_accepts.1 hvalidate
      obtain ⟨_, -, hvalidate⟩ := check_bind_accepts.1 hvalidate
      obtain ⟨-, rfl⟩ := pure_accepts.1 hvalidate
      obtain ⟨-, ht⟩ := select_ok hold
      exact ⟨trivial, ht.trans hc⟩
  | rotate key replacement =>
      obtain ⟨old, c₁, hold, hvalidate⟩ := bind_accepts.1 hvalidate
      obtain ⟨owner, c₂, howner, hvalidate⟩ := bind_accepts.1 hvalidate
      obtain ⟨_, -, hvalidate⟩ := check_bind_accepts.1 hvalidate
      obtain ⟨_, c₃, hfree, hvalidate⟩ := bind_accepts.1 hvalidate
      obtain ⟨known, c₄, hknown, hvalidate⟩ := bind_accepts.1 hvalidate
      obtain ⟨_, hroom, hvalidate⟩ := check_bind_accepts.1 hvalidate
      obtain ⟨-, rfl⟩ := pure_accepts.1 hvalidate
      obtain ⟨-, ht₁⟩ := select_ok hold
      obtain ⟨-, ht₂⟩ := select_ok howner
      obtain ⟨-, ht₃⟩ := select_ok hfree
      obtain ⟨hlength, ht₄⟩ := hcount (ht₃.trans (ht₂.trans (ht₁.trans hc))) hknown
      rw [rejectIf_ok, hlength] at hroom
      have hfits : σ.credentials.length < 1024 := by simpa using hroom
      exact ⟨hfits, ht₄⟩

end Checks

section Changes

variable {sha256 : String → Ir.Digest} {σ : Roster} {c c' : Connection}

theorem insertSubject_tables {s : Subject} {t : Tables}
    (h : σ.tables.insertSubject (.of s) = some t) :
    s.id ∉ σ.subjects.map (·.id) ∧ t = (σ.addSubject s).tables := by
  rw [Tables.insertSubject] at h
  split at h
  · cases h
  · next hfree =>
      cases h
      refine ⟨fun hmem => hfree ?_, ?_⟩
      · obtain ⟨s', hs', hid⟩ := List.mem_map.1 hmem
        refine List.any_eq_true.2 ⟨_, List.mem_map.2 ⟨s', hs', rfl⟩, decide_eq_true ?_⟩
        exact congrArg Id.value hid
      · simp [Roster.tables, Roster.addSubject]

theorem updateSubject_tables (s : Subject) :
    σ.tables.updateSubject s.id.value (json Subject.codec s) = (σ.putSubject s).tables := by
  simp only [Tables.updateSubject, Roster.tables, Roster.putSubject, List.map_map,
    Tables.mk.injEq, true_and, and_true]
  refine List.map_congr_left fun s' _ => ?_
  by_cases hid : s'.id = s.id
  · simp [SubjectRow.of, hid]
  · have hvalue : s'.id.value ≠ s.id.value := fun h => hid (Management.Id.ext h)
    simp [SubjectRow.of, hid, hvalue]

theorem insertCredential_tables {k : StoredCredential} {t : Tables}
    (h : σ.tables.insertCredential (.of k) = some t) :
    k.metadata.id ∉ σ.credentials.map (·.metadata.id) ∧
      k.verifier ∉ σ.credentials.map (·.verifier) ∧ t = (σ.issue k).tables := by
  rw [Tables.insertCredential] at h
  split at h
  · cases h
  · next hfree =>
      cases h
      simp only [Roster.tables, List.any_map, List.any_eq_true, Function.comp_apply,
        Bool.or_eq_true, decide_eq_true_eq, not_exists, not_and, not_or] at hfree
      refine ⟨fun hmem => ?_, fun hmem => ?_, ?_⟩
      · obtain ⟨k', hk', hid⟩ := List.mem_map.1 hmem
        exact (hfree k' hk').1 (congrArg Id.value hid)
      · obtain ⟨k', hk', hverifier⟩ := List.mem_map.1 hmem
        exact (hfree k' hk').2 (congrArg Digest.value hverifier)
      · simp [Roster.tables, Roster.issue]

theorem updateCredential_tables (h : σ.Valid sha256) {k : StoredCredential}
    (hk : k ∈ σ.credentials) :
    σ.tables.updateCredential k.metadata.id.value
      (json StoredCredential.codec (k.withRevoked true)) = (σ.revoke k.metadata.id).tables := by
  simp only [Tables.updateCredential, Roster.tables, Roster.revoke, List.map_map,
    Tables.mk.injEq, true_and, and_true]
  refine List.map_congr_left fun k' hk' => ?_
  by_cases hid : k'.metadata.id = k.metadata.id
  · obtain rfl := List.inj_on_of_nodup_map h.credentialIds hk' hk hid
    simp [CredentialRow.of, StoredCredential.withRevoked]
  · have hvalue : k'.metadata.id.value ≠ k.metadata.id.value :=
      fun heq => hid (Management.Id.ext heq)
    simp [CredentialRow.of, hid, hvalue]

theorem insertReceipt_tables {e : Evidence} {commit : Commit} {t : Tables} {n : Nat}
    (hn : n = σ.receipts.length + 1)
    (h : ({ σ.tables with generation := n }).insertReceipt (.of e) commit = some t) :
    e.operation ∉ σ.receipts.map (·.operation) ∧ t = (σ.commit e commit).tables := by
  rw [Tables.insertReceipt] at h
  split at h
  · cases h
  · next hfree =>
      cases h
      refine ⟨fun hmem => hfree ?_, ?_⟩
      · obtain ⟨e', he', hop⟩ := List.mem_map.1 hmem
        refine List.any_eq_true.2 ⟨_, List.mem_map.2 ⟨e', he', rfl⟩, decide_eq_true ?_⟩
        exact congrArg Id.value hop
      · simp [Roster.tables, Roster.commit, hn]

theorem revoke_ok (h : σ.Valid sha256) (hc : c.tables = σ.tables) {key : Id} {u : PUnit}
    (hrevoke : revoke key c = (.ok u, c')) :
    ∃ k ∈ σ.credentials, k.metadata.id = key ∧ c'.tables = (σ.revoke key).tables := by
  obtain ⟨k, c₁, hread, hrevoke⟩ := bind_accepts.1 hrevoke
  obtain ⟨hread, ht⟩ := select_ok hread
  rw [hc, credential_ok h] at hread
  obtain ⟨hk, rfl⟩ := hread
  have hwritten := execute_ok hrevoke
  rw [ht, hc] at hwritten
  exact ⟨k, hk, rfl, (Option.some.inj hwritten).symm.trans (updateCredential_tables h hk)⟩

theorem issue_ok (hc : c.tables = σ.tables) {owner key operation : Id} {purpose : Purpose}
    {fingerprint : Digest} {random : Option (Vector UInt8 32)} {secret : Secret}
    (hissue : issue sha256 owner key purpose operation fingerprint random c = (.ok secret, c')) :
    ∃ k token, k.metadata.id = key ∧ k.metadata.subject = owner ∧ k.metadata.purpose = purpose ∧
      secret = ⟨key, token⟩ ∧ Issuable sha256 σ operation fingerprint k token ∧
      c'.tables = (σ.issue k).tables := by
  obtain ⟨bytes, -, hissue⟩ := check_bind_accepts.1 hissue
  obtain ⟨_, c₁, hinsert, hissue⟩ := bind_accepts.1 hissue
  obtain ⟨rfl, rfl⟩ := pure_accepts.1 hissue
  have hwritten := execute_ok hinsert
  rw [hc] at hwritten
  obtain ⟨hid, hverifier, ht⟩ := insertCredential_tables
    (k := ⟨⟨key, owner, purpose, false, operation⟩, .of sha256 (tokenText purpose bytes),
      fingerprint⟩) hwritten
  exact ⟨_, _, rfl, rfl, rfl, rfl, ⟨rfl, rfl, rfl, ⟨rfl, bytes, rfl⟩, hid, hverifier⟩, ht⟩

/-- The statements of a command are one change of the roster. -/
theorem change_ok (h : σ.Valid sha256) (hc : c.tables = σ.tables) {command : Command}
    {operation : Id} {fingerprint : Digest} {random : Option (Vector UInt8 32)}
    {secret : Option Secret}
    (hchange : change sha256 command operation fingerprint random c = (.ok secret, c')) :
    ∃ τ, c'.tables = τ.tables ∧ Changed sha256 σ operation fingerprint command secret τ := by
  cases command with
  | register id permissions =>
      obtain ⟨_, c₁, hinsert, hchange⟩ := bind_accepts.1 hchange
      obtain ⟨rfl, rfl⟩ := pure_accepts.1 hchange
      have hwritten := execute_ok hinsert
      rw [hc] at hwritten
      obtain ⟨hfresh, ht⟩ := insertSubject_tables (s := ⟨id, 1, permissions⟩) hwritten
      exact ⟨_, ht, .register hfresh⟩
  | permissionsChange id permissions =>
      obtain ⟨s, c₁, hread, hchange⟩ := bind_accepts.1 hchange
      obtain ⟨revision, -, hchange⟩ := check_bind_accepts.1 hchange
      obtain ⟨_, c₂, hupdate, hchange⟩ := bind_accepts.1 hchange
      obtain ⟨rfl, rfl⟩ := pure_accepts.1 hchange
      obtain ⟨hread, ht⟩ := select_ok hread
      rw [hc, subject_ok h] at hread
      obtain ⟨hs, rfl⟩ := hread
      have hwritten := execute_ok hupdate
      rw [ht, hc] at hwritten
      refine ⟨_, (Option.some.inj hwritten).symm.trans
        (updateSubject_tables ⟨s.id, revision, permissions⟩), ?_⟩
      exact .permissionsChange hs (show (⟨s.id, revision, permissions⟩ : Subject).id = s.id from rfl)
  | issue subject key purpose =>
      obtain ⟨secret', c₁, hissue, hchange⟩ := bind_accepts.1 hchange
      obtain ⟨rfl, rfl⟩ := pure_accepts.1 hchange
      obtain ⟨k, token, rfl, rfl, rfl, rfl, hissuable, ht⟩ := issue_ok hc hissue
      exact ⟨_, ht, .issue hissuable⟩
  | revoke key =>
      obtain ⟨_, c₁, hrevoke, hchange⟩ := bind_accepts.1 hchange
      obtain ⟨rfl, rfl⟩ := pure_accepts.1 hchange
      obtain ⟨k, hk, rfl, ht⟩ := revoke_ok h hc hrevoke
      exact ⟨_, ht, .revoke hk⟩
  | rotate key replacement =>
      obtain ⟨old, c₁, hread, hchange⟩ := bind_accepts.1 hchange
      obtain ⟨_, c₂, hrevoke, hchange⟩ := bind_accepts.1 hchange
      obtain ⟨secret', c₃, hissue, hchange⟩ := bind_accepts.1 hchange
      obtain ⟨rfl, rfl⟩ := pure_accepts.1 hchange
      obtain ⟨hread, ht⟩ := select_ok hread
      rw [hc, credential_ok h] at hread
      obtain ⟨hold, rfl⟩ := hread
      obtain ⟨k', hk', hid, ht₂⟩ := revoke_ok h (ht.trans hc) hrevoke
      obtain ⟨k, token, rfl, howner, -, rfl, hissuable, ht₃⟩ := issue_ok ht₂ hissue
      exact ⟨_, ht₃, .rotate hold howner hissuable⟩

/-- The evidence names the digest of the credential just stored. -/
theorem certify_ok {τ : Roster} (hc : ∀ id, c.tables.credential id = τ.tables.credential id)
    {secret : Option Secret} {issued : Option Digest}
    (h : certify sha256 secret c = (.ok issued, c')) :
    Certifies sha256 τ secret issued ∧ c'.tables = c.tables := by
  cases secret with
  | none =>
      obtain ⟨-, rfl⟩ := pure_accepts.1 h
      exact ⟨nofun, rfl⟩
  | some secret =>
      obtain ⟨k, c₁, hread, h⟩ := bind_accepts.1 h
      obtain ⟨rfl, rfl⟩ := pure_accepts.1 h
      obtain ⟨hread, ht⟩ := select_ok hread
      rw [hc, credential_tables, okOr_ok] at hread
      refine ⟨fun s hs => ?_, ht⟩
      cases hs
      exact ⟨k, List.mem_of_find?_eq_some hread, by simpa using List.find?_some hread, rfl⟩

theorem successor_ofNat {n : Nat} (h : n + 1 < 2 ^ 64) :
    Tables.successor (UInt64.ofNat n) = some (UInt64.ofNat (n + 1)) := by
  have hn : (UInt64.ofNat n).toNat = n := UInt64.toNat_ofNat_of_lt' (Nat.lt_of_succ_lt h)
  rw [Tables.successor, hn, if_pos h, UInt64.ofNat_add]
  rfl

/-- A transaction that reaches its end is a change with its receipt. -/
theorem perform_ok (h : σ.Valid sha256) (hc : c.tables = σ.tables) {p : Prepared}
    (hready : Ready σ p.command) (hbefore : p.before.revision = UInt64.ofNat σ.receipts.length)
    {operation : Id} {random : Option (Vector UInt8 32)} {after : Snapshot} {digest : Digest}
    {secret : Option Secret}
    (hperform : p.perform sha256 operation random c = (.ok (after, digest, secret), c')) :
    ∃ τ e, Changed sha256 σ operation p.requestSha256 p.command secret τ ∧
      Receipt σ operation p.requestSha256 e ∧ e.before = p.before ∧ e.after = after ∧
      digest = .of sha256 (json Evidence.codec e) ∧
      c'.tables = (τ.commit e ⟨operation, p.command, secret⟩).tables ∧
      (τ.commit e ⟨operation, p.command, secret⟩).Valid sha256 := by
  obtain ⟨secret', c₁, hchange, hperform⟩ := bind_accepts.1 hperform
  obtain ⟨_, c₂, hadvance, hperform⟩ := bind_accepts.1 hperform
  obtain ⟨after', c₃, hsnapshot, hperform⟩ := bind_accepts.1 hperform
  obtain ⟨issued, c₄, hissued, hperform⟩ := bind_accepts.1 hperform
  obtain ⟨_, c₅, hinsert, hperform⟩ := bind_accepts.1 hperform
  obtain ⟨heq, rfl⟩ := pure_accepts.1 hperform
  obtain ⟨rfl, rfl, rfl⟩ : after' = after ∧ _ = digest ∧ secret' = secret := by
    simpa only [Prod.mk.injEq] using heq
  obtain ⟨τ, ht₁, hchanged⟩ := change_ok h hc hchange
  obtain ⟨hroom, ht₂⟩ := advance_ok hadvance
  obtain ⟨hrevision, ht₃⟩ := snapshot_ok hsnapshot
  rw [ht₁] at hroom ht₂
  obtain ⟨hcertifies, ht₄⟩ := certify_ok (τ := τ) (fun id => by rw [ht₃, ht₂]; rfl) hissued
  have hlength : τ.receipts.length = σ.receipts.length := congrArg List.length hchanged.receipts
  have hwritten := execute_ok hinsert
  rw [ht₄, ht₃, ht₂] at hwritten
  obtain ⟨hfresh, ht₅⟩ := insertReceipt_tables (σ := τ)
    (e := ⟨effectSchema, operation, p.requestSha256, p.before, after', issued⟩) rfl hwritten
  rw [ht₂] at hrevision
  have hgeneration : τ.tables.generation = σ.receipts.length := hlength
  have hsmall : σ.receipts.length < 9223372036854775807 := hgeneration ▸ hroom
  have hreceipt : Receipt σ operation p.requestSha256
      ⟨effectSchema, operation, p.requestSha256, p.before, after', issued⟩ := by
    refine ⟨hchanged.receipts ▸ hfresh, rfl, rfl, rfl, ?_, by omega⟩
    change Tables.successor p.before.revision = some after'.revision
    rw [hbefore, hrevision, successor_ofNat (by omega)]
    exact congrArg _ (congrArg UInt64.ofNat (congrArg (· + 1) hgeneration.symm))
  exact ⟨τ, _, hchanged, hreceipt, rfl, rfl, rfl, ht₅,
    hchanged.valid_commit h hready hreceipt hcertifies⟩

end Changes

end ResponseGateway.Team
