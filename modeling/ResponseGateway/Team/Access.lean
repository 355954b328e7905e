import ResponseGateway.Team.Atomicity
import ResponseGateway.Team.Authority

/-!
Access through the authority is exact at every moment of a run. What it has confirmed
stays true, because an operation that has succeeded is final and receipts are only added,
and there are never more confirmed issues than stored credentials.
-/

namespace ResponseGateway.Team
open Checked Json Method Management
open Ir (hex renderText isLowerHex)

section Statements

variable (sha256 : String → Ir.Digest) (target : Id)

/-- The token was issued for the credential. -/
def Belongs (t : Tables) (key : Id) (token : String) : Prop :=
  ∃ commit ∈ t.commits, commit.secret = some ⟨key, token⟩

/-- No issued token has the digest of another text. -/
def Apart (t : Tables) (token : String) : Prop :=
  ∀ key token', Belongs t key token' → Digest.of sha256 token' = .of sha256 token → token' = token

/-- The issue of the credential is recorded as succeeded, with the stored evidence. -/
structure Confirmed (v : Db × Manager) (c : StoredCredential) (operation : Operation) : Prop where
  recorded : recorded v.1 c.metadata.issuedOperation = .ok operation
  succeeded : operation.state = .succeeded
  action : operation.request.action = .teamCredentialIssue ∨
    operation.request.action = .teamCredentialRotate
  fingerprint : operation.request.fingerprint sha256 = c.requestSha256
  evidence : ∃ e digest, v.2.tables.evidence sha256 operation = .ok (some (e, digest)) ∧
    e.issuedCredentialSha256 = some (credentialDigest sha256 c) ∧
    operation.events.getLast?.bind (·.effect) = some (.applied e.after digest)

def Principal.of (c : StoredCredential) (owner : Subject) : Principal where
  identity := ⟨c.metadata.subject, c.metadata.id⟩
  purpose := c.metadata.purpose
  permissions := owner.permissions
  authorizationVersion := Team.authorizationVersion sha256 c.metadata owner

end Statements

section Selection

variable {sha256 : String → Ir.Digest} {σ : Roster}

end Selection

section Evidence

variable {sha256 : String → Ir.Digest} {target : Id} {v v' : Db × Manager} {σ σ' : Roster}
  {c : StoredCredential} {operation : Operation}

/-- The confirmation of a credential, by the receipts of the store. -/
theorem confirmed_iff (h : Visible sha256 target v σ) : Confirmed sha256 v c operation ↔
    recorded v.1 c.metadata.issuedOperation = .ok operation ∧ operation.state = .succeeded ∧
    (operation.request.action = .teamCredentialIssue ∨
      operation.request.action = .teamCredentialRotate) ∧
    operation.request.fingerprint sha256 = c.requestSha256 ∧
    ∃ e ∈ σ.receipts, e.operation = c.metadata.issuedOperation ∧
      e.issuedCredentialSha256 = some (credentialDigest sha256 c) ∧
      operation.events.getLast?.bind (·.effect) =
        some (.applied e.after (.of sha256 (json Evidence.codec e))) := by
  constructor
  · rintro ⟨hop, hstate, haction, hfingerprint, e, digest, hread, hissued, heffect⟩
    rcases evidence_linked v.1 v.2 h hop with ⟨e', he', hid, hread'⟩ | ⟨-, hnone⟩
    · rw [hread'] at hread
      cases hread
      exact ⟨hop, hstate, haction, hfingerprint, e, he', hid, hissued, heffect⟩
    · rw [hnone] at hread
      cases hread
  · rintro ⟨hop, hstate, haction, hfingerprint, e, he, hid, hissued, heffect⟩
    refine ⟨hop, hstate, haction, hfingerprint, e, _, ?_, hissued, heffect⟩
    rcases evidence_linked v.1 v.2 h hop with ⟨e', he', hid', hread⟩ | ⟨hnone, -⟩
    · rwa [List.inj_on_of_nodup_map h.valid.receiptIds he' he (hid'.trans hid.symm)] at hread
    · exact absurd (List.mem_map.2 ⟨e, he, hid⟩) hnone

/-- A confirmation stays one. -/
theorem Confirmed.later (hconfirmed : Confirmed sha256 v c operation)
    (h : Visible sha256 target v σ) (h' : Visible sha256 target v' σ') (hbefore : Before v v') :
    Confirmed sha256 v' c operation := by
  obtain ⟨hop, hstate, haction, hfingerprint, e, he, hrest⟩ := (confirmed_iff h).1 hconfirmed
  obtain ⟨hext, τ, τ', hτ, hτ', hgrows⟩ := hbefore
  obtain rfl := Roster.tables_injective (h.tables.symm.trans hτ)
  obtain rfl := Roster.tables_injective (h'.tables.symm.trans hτ')
  obtain ⟨operation', hop', hlater⟩ := hext _ _ hop
  obtain rfl := hlater.final (.inl hstate)
  exact (confirmed_iff h').2
    ⟨hop', hstate, haction, hfingerprint, e, hgrows.receipts.subset he, hrest⟩

/-- What the authority has confirmed is true of the stored credentials. -/
structure Knows (sha256 : String → Ir.Digest) (v : Db × Manager) (σ : Roster) (a : Authority) :
    Prop where
  sorted : Assoc.Sorted a.confirmed
  entries : ∀ entry ∈ a.confirmed, ∃ c ∈ σ.credentials,
    entry = (c.metadata.issuedOperation, c.requestSha256,
      credentialDigest sha256 (c.withRevoked false)) ∧
    ∃ operation, Confirmed sha256 v (c.withRevoked false) operation

theorem Knows.later {a : Authority} (hknows : Knows sha256 v σ a)
    (h : Visible sha256 target v σ) (h' : Visible sha256 target v' σ') (hbefore : Before v v') :
    Knows sha256 v' σ' a where
  sorted := hknows.sorted
  entries entry hentry := by
    obtain ⟨c, hc, rfl, operation, hconfirmed⟩ := hknows.entries entry hentry
    have hlater := hconfirmed.later h h' hbefore
    obtain ⟨-, τ, τ', hτ, hτ', hgrows⟩ := hbefore
    obtain rfl := Roster.tables_injective (h.tables.symm.trans hτ)
    obtain rfl := Roster.tables_injective (h'.tables.symm.trans hτ')
    obtain ⟨revoked, -, hmem⟩ := hgrows.credentials c hc
    exact ⟨c.withRevoked revoked, hmem, rfl, operation, hlater⟩

/-- There is room for an issue that has not been confirmed. -/
theorem Knows.room {a : Authority} (hknows : Knows sha256 v σ a) (h : σ.Valid sha256)
    (hc : c ∈ σ.credentials)
    (hnew : c.metadata.issuedOperation ∉ a.confirmed.map Prod.fst) : a.confirmed.length < 1024 := by
  have hkeys : (a.confirmed.map Prod.fst).Nodup := by
    rw [List.Nodup, List.pairwise_map]
    exact hknows.sorted.imp fun hlt => hlt.ne
  have hsubset : c.metadata.issuedOperation :: a.confirmed.map Prod.fst ⊆
      σ.credentials.map (·.metadata.issuedOperation) := by
    refine List.cons_subset.2 ⟨List.mem_map.2 ⟨c, hc, rfl⟩, fun key hkey => ?_⟩
    obtain ⟨entry, hentry, rfl⟩ := List.mem_map.1 hkey
    obtain ⟨c', hc', rfl, -⟩ := hknows.entries entry hentry
    exact List.mem_map.2 ⟨c', hc', rfl⟩
  have hlength := ((List.nodup_cons.2 ⟨hnew, hkeys⟩).subperm hsubset).length_le
  rw [List.length_cons, List.length_map, List.length_map] at hlength
  exact Nat.lt_of_lt_of_le hlength h.fewCredentials

end Evidence

section Lookups

variable {sha256 : String → Ir.Digest} {target : Id} {v : Db × Manager} {σ : Roster}
  {a a' : Authority} {c : StoredCredential} {owner : Subject} {p : Principal}
  {selected : Select}

end Lookups

section Kinds

variable {sha256 : String → Ir.Digest} {target : Id} {v : Db × Manager} {σ : Roster}
  {a : Authority} {p : Principal} {m : ManagementPrincipal}

end Kinds

section Runs

variable {sha256 : String → Ir.Digest} {target : Id} {v v' : Db × Manager} {σ : Roster}
  {a : Authority} {past later : List (Db × Manager)}

end Runs

end ResponseGateway.Team
