import ResponseGateway.Team.StoreRuns

/-!
The caller's slot for a token. It is filled by a commit that stores the digest of the token,
which no credential stored before has, so a token that was taken out of the slot is not put
into it again.
-/

namespace ResponseGateway.Team
open Checked Json Method Management

section Commits

variable {sha256 : String → Ir.Digest} {σ τ : Roster} {m : Manager}

def Roster.verifiers (σ : Roster) : List Digest := σ.credentials.map (·.verifier)

theorem Grows.verifiers (h : Grows σ τ) {d : Digest} (hd : d ∈ σ.verifiers) : d ∈ τ.verifiers := by
  obtain ⟨c, hc, rfl⟩ := List.mem_map.1 hd
  obtain ⟨revoked, -, hmem⟩ := h.credentials c hc
  exact List.mem_map.2 ⟨_, hmem, rfl⟩

/-- An issued token has the digest of a new credential. -/
theorem Changed.issued {operation : Id} {fingerprint : Digest} {command : Command} {secret : Secret}
    (h : Changed sha256 σ operation fingerprint command (some secret) τ) :
    .of sha256 secret.value ∈ τ.verifiers ∧ .of sha256 secret.value ∉ σ.verifiers := by
  cases h with
  | @issue c token issuable =>
      have hverifier : c.verifier = .of sha256 token := issuable.token.verifier
      rw [← hverifier]
      exact ⟨List.mem_map.2 ⟨c, List.mem_append_right _ (List.mem_singleton_self c), rfl⟩,
        issuable.verifier⟩
  | @rotate c c' token stored same issuable =>
      have hverifier : c'.verifier = .of sha256 token := issuable.token.verifier
      have hkept : (σ.revoke c.metadata.id).credentials.map (·.verifier) =
          σ.credentials.map (·.verifier) := revoke_map _ (fun _ _ => rfl) _ _
      have hnew := issuable.verifier
      rw [hkept] at hnew
      rw [← hverifier]
      exact ⟨List.mem_map.2 ⟨c', List.mem_append_right _ (List.mem_singleton_self c'), rfl⟩, hnew⟩

/-- The slot is left alone, or it is filled by the commit of a change. -/
theorem apply_secret (h : m.Holds sha256 σ) (draw : Draw) :
    (apply sha256 draw m).2.secret = m.secret ∨
      ∃ (p : Prepared) (operation : Id) (e : Evidence) (τ : Roster),
        Changed sha256 σ operation p.requestSha256 p.command (apply sha256 draw m).2.secret τ ∧
          (apply sha256 draw m).2.Holds sha256
            (τ.commit e ⟨operation, p.command, (apply sha256 draw m).2.secret⟩) := by
  cases hp : m.prepared with
  | none =>
      simp only [Team.apply, hp]
      exact .inl trivial
  | some p =>
      have hfits := h.prepared p hp
      cases htx : p.tx with
      | none =>
          simp only [Team.apply, hp, htx]
          exact .inl trivial
      | some tx =>
          cases hop : p.operation with
          | none =>
              simp only [Team.apply, hp, htx, hop]
              exact .inl trivial
          | some operation =>
              have hready := hfits.ready (by rw [htx]; rfl)
              have hbefore := hfits.before (by rw [htx]; rfl)
              simp only [Team.apply, hp, htx, hop]
              rcases hperform : p.perform sha256 operation draw.random ⟨tx, draw.apply⟩ with
                ⟨_ | ⟨after, digest, secret⟩, c⟩
              · exact .inl rfl
              · obtain ⟨τ, e, hchanged, -, -, rfl, rfl, ht, hvalid⟩ :=
                  perform_ok h.valid (hfits.tx tx htx) hready hbefore hperform
                cases draw.commit with
                | none => exact .inr ⟨p, operation, e, τ, hchanged, holds_taken ht hvalid rfl rfl⟩
                | lost => exact .inl rfl
                | crashAfter => exact .inl rfl
                | failed => exact .inl rfl
                | crash => exact .inl rfl

end Commits

section Slots

variable (sha256 : String → Ir.Digest)

/-- The digests belong to stored credentials, and what is in the slot has none of them. -/
def Pending (known : List Digest) (m : Manager) : Prop :=
  ∃ σ, m.Holds sha256 σ ∧ (∀ d ∈ known, d ∈ σ.verifiers) ∧ ∀ secret, m.secret = some secret →
    .of sha256 secret.value ∈ σ.verifiers ∧ .of sha256 secret.value ∉ known

variable {sha256 : String → Ir.Digest} {target : Id} {known : List Digest} {m : Manager}

theorem Pending.prepare (h : Pending sha256 known m) (command : Command) (transport : Digest)
    (draw : Draw) (request : Request) :
    Pending sha256 known
      (prepareMapped sha256 target command transport m.secret draw request m).2 := by
  obtain ⟨σ, hholds, hknown, hslot⟩ := h
  refine ⟨σ, hholds.prepare _ _ _ _ _, hknown, fun secret hsecret => hslot secret ?_⟩
  rcases prepareMapped_cases target hholds command transport m.secret draw request with
    ⟨e, heq⟩ | ⟨p, heq, -⟩
  · rwa [heq] at hsecret
  · rwa [heq] at hsecret

theorem Pending.accepted (h : Pending sha256 known m) (operation : Id) :
    Pending sha256 known (accepted operation m) := by
  obtain ⟨σ, hholds, hrest⟩ := h
  exact ⟨σ, hholds.accepted operation, hrest⟩

theorem Pending.release (h : Pending sha256 known m) : Pending sha256 known (release m) := by
  obtain ⟨σ, hholds, hrest⟩ := h
  exact ⟨σ, hholds.release, hrest⟩

theorem Pending.apply (h : Pending sha256 known m) (draw : Draw) :
    Pending sha256 known (apply sha256 draw m).2 := by
  obtain ⟨σ, hholds, hknown, hslot⟩ := h
  rcases apply_secret hholds draw with hkept | ⟨p, operation, e, τ, hchanged, hafter⟩
  · have hgrown : ∃ σ', (Team.apply sha256 draw m).2.Holds sha256 σ' ∧ Grows σ σ' := by
      rcases apply_cases hholds draw with ⟨hsame, -⟩ | ⟨p, operation, e, σ', -, hcommits, hafter, -⟩
      · exact ⟨σ, hsame, .refl σ⟩
      · exact ⟨σ', hafter, hcommits.grows⟩
    obtain ⟨σ', hafter, hgrows⟩ := hgrown
    refine ⟨σ', hafter, fun d hd => hgrows.verifiers (hknown d hd), fun secret hsecret => ?_⟩
    rw [hkept] at hsecret
    exact ⟨hgrows.verifiers (hslot secret hsecret).1, (hslot secret hsecret).2⟩
  · refine ⟨_, hafter, fun d hd => ?_, fun secret hsecret => ?_⟩
    · exact (hchanged.grows.trans (grows_commit τ e _)).verifiers (hknown d hd)
    · rw [hsecret] at hchanged
      exact ⟨hchanged.issued.1, fun hmem => hchanged.issued.2 (hknown _ hmem)⟩

/-- What is taken out of the slot is known from then on. -/
theorem Pending.take (h : Pending sha256 known m) {secret : Secret} (hsecret : m.secret = some secret) :
    Pending sha256 (known ++ [.of sha256 secret.value]) { m with secret := none } ∧
      .of sha256 secret.value ∉ known := by
  obtain ⟨σ, hholds, hknown, hslot⟩ := h
  refine ⟨⟨σ, ⟨hholds.tables, hholds.valid, hholds.prepared⟩, ?_, nofun⟩, (hslot secret hsecret).2⟩
  exact List.forall_mem_append.2 ⟨hknown, List.forall_mem_singleton.2 (hslot secret hsecret).1⟩

/-- Emptying the slot without looking at it. -/
theorem Pending.empty (h : Pending sha256 known m) :
    Pending sha256 known { m with secret := none } := by
  obtain ⟨σ, hholds, hknown, -⟩ := h
  exact ⟨σ, ⟨hholds.tables, hholds.valid, hholds.prepared⟩, hknown, nofun⟩

end Slots

end ResponseGateway.Team
