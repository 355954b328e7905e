import ResponseGateway.Team.Transactions

/-!
The manager of the team store under any order of its own calls. Its tables are those of
a valid roster and a prepared transaction is a view of them whose checks have passed;
`apply` leaves the tables as they are or with one more receipt.
-/

namespace ResponseGateway.Team
open Checked Json Method Management
open Ir (hex renderText)

section Invariant

variable (sha256 : String → Ir.Digest)

/-- A transaction in progress sees the tables, and its checks have passed. -/
structure Prepared.Fits (σ : Roster) (p : Prepared) : Prop where
  tx : ∀ t, p.tx = some t → t = σ.tables
  ready : p.tx.isSome → Ready σ p.command
  before : p.tx.isSome → p.before.revision = UInt64.ofNat σ.receipts.length

structure Manager.Holds (m : Manager) (σ : Roster) : Prop where
  tables : m.tables = σ.tables
  valid : σ.Valid sha256
  prepared : ∀ p, m.prepared = some p → p.Fits σ

/-- One receipt more, for the operation of the prepared transaction. -/
structure Commits (σ : Roster) (p : Prepared) (operation : Id) (e : Evidence) (σ' : Roster) :
    Prop where
  accepted : p.operation = some operation
  changed : ∃ τ secret, Changed sha256 σ operation p.requestSha256 p.command secret τ ∧
    σ' = τ.commit e ⟨operation, p.command, secret⟩
  receipt : Receipt σ operation p.requestSha256 e
  before : e.before = p.before
  revision : p.before.revision = UInt64.ofNat σ.receipts.length
  valid : σ'.Valid sha256

variable {sha256}

theorem Commits.receipts {σ σ' : Roster} {p : Prepared} {operation : Id} {e : Evidence}
    (h : Commits sha256 σ p operation e σ') : σ'.receipts = σ.receipts ++ [e] := by
  obtain ⟨τ, secret, hchanged, rfl⟩ := h.changed
  rw [Roster.commit, hchanged.receipts]

theorem Commits.grows {σ σ' : Roster} {p : Prepared} {operation : Id} {e : Evidence}
    (h : Commits sha256 σ p operation e σ') : Grows σ σ' := by
  obtain ⟨τ, secret, hchanged, rfl⟩ := h.changed
  exact hchanged.grows.trans (grows_commit τ e _)

end Invariant

section Calls

variable {sha256 : String → Ir.Digest} {target : Id} {m : Manager} {σ : Roster}

theorem holds_new : Manager.new.Holds sha256 .empty := ⟨rfl, valid_empty sha256, nofun⟩

theorem Manager.Holds.release (h : m.Holds sha256 σ) : (release m).Holds sha256 σ :=
  ⟨h.tables, h.valid, nofun⟩

theorem Manager.Holds.accepted (h : m.Holds sha256 σ) (operation : Id) :
    (accepted operation m).Holds sha256 σ := by
  refine ⟨h.tables, h.valid, fun p hp => ?_⟩
  obtain ⟨p', hp', rfl⟩ := Option.map_eq_some_iff.1 hp
  have hfits := h.prepared p' hp'
  exact ⟨hfits.tx, hfits.ready, hfits.before⟩

theorem prepareChecks_ok (h : σ.Valid sha256) {c c' : Connection} (hc : c.tables = σ.tables)
    {request : Request} {command : Command} {transport : Digest} {slot : Option Secret}
    {before : Snapshot} (hchecks : prepareChecks sha256 target request command transport slot c =
      (.ok before, c')) :
    request.target = target ∧ request.action = command.action ∧ Ready σ command ∧
      before.revision = UInt64.ofNat σ.receipts.length ∧ c'.tables = σ.tables := by
  obtain ⟨_, hrequest, hchecks⟩ := check_bind_accepts.1 hchecks
  obtain ⟨d, hdigest, hchecks⟩ := check_bind_accepts.1 hchecks
  obtain ⟨_, -, hchecks⟩ := check_bind_accepts.1 hchecks
  obtain ⟨_, c₁, hcontact, hchecks⟩ := bind_accepts.1 hchecks
  obtain ⟨_, c₂, hvalidate, hsnapshot⟩ := bind_accepts.1 hchecks
  rw [rejectIf_ok, Bool.or_eq_false_iff, Bool.or_eq_false_iff] at hrequest
  obtain ⟨hready, ht⟩ := validate_ready h ((contact_ok hcontact).trans hc) hdigest hvalidate
  obtain ⟨hrevision, ht'⟩ := snapshot_ok hsnapshot
  refine ⟨by simpa using hrequest.1.1, by simpa using hrequest.1.2, hready, ?_, ht'.trans ht⟩
  rw [hrevision, ht]
  rfl

variable (target) in
/-- What a preparation leaves: the manager as it was, or a transaction for the request. -/
theorem prepareMapped_cases (h : m.Holds sha256 σ) (command : Command) (transport : Digest)
    (slot : Option Secret) (draw : Draw) (request : Request) :
    (∃ e, prepareMapped sha256 target command transport slot draw request m = (.error e, m)) ∨
      ∃ p, prepareMapped sha256 target command transport slot draw request m =
          (.ok p.before, { m with prepared := some p, secret := slot }) ∧
        p.Fits σ ∧ p.command = command ∧ p.requestSha256 = request.fingerprint sha256 ∧
        request.target = target ∧ request.action = command.action ∧ p.operation = none := by
  rw [prepareMapped]
  match hchecks : prepareChecks sha256 target request command transport slot
      ⟨m.tables, draw.prepare⟩ with
  | (.error e, c) => exact .inl ⟨e, rfl⟩
  | (.ok before, c) =>
      obtain ⟨htarget, haction, hready, hrevision, ht⟩ :=
        prepareChecks_ok h.valid h.tables hchecks
      refine .inr ⟨⟨some c.tables, command, before, request.fingerprint sha256, none⟩, rfl,
        ⟨fun t heq => ?_, fun _ => hready, fun _ => hrevision⟩, rfl, rfl, htarget, haction, rfl⟩
      cases heq
      exact ht

theorem Manager.Holds.prepare (h : m.Holds sha256 σ) (command : Command) (transport : Digest)
    (slot : Option Secret) (draw : Draw) (request : Request) :
    (prepareMapped sha256 target command transport slot draw request m).2.Holds sha256 σ := by
  rcases prepareMapped_cases target h command transport slot draw request with
    ⟨e, heq⟩ | ⟨p, heq, hfits, -⟩
  · rw [heq]
    exact h
  · rw [heq]
    refine ⟨h.tables, h.valid, fun p' hp' => ?_⟩
    cases hp'
    exact hfits

/-- A transaction that has ended no longer sees the tables. -/
theorem holds_taken (ht : m.tables = σ.tables) (hv : σ.Valid sha256) {p : Prepared}
    (hp : m.prepared = some p) (htx : p.tx = none) : m.Holds sha256 σ := by
  refine ⟨ht, hv, fun p' hp' => ?_⟩
  obtain rfl : p = p' := Option.some.inj (hp.symm.trans hp')
  have hnone : ¬ p.tx.isSome := by
    rw [htx]
    exact Bool.false_ne_true
  refine ⟨fun t heq => ?_, fun h => absurd h hnone, fun h => absurd h hnone⟩
  rw [htx] at heq
  cases heq

/-- What `apply` leaves: the roster as it was and no claim of an effect, or one more
receipt, claimed with its evidence or left open. -/
theorem apply_cases (h : m.Holds sha256 σ) (draw : Draw) :
    ((apply sha256 draw m).2.Holds sha256 σ ∧
      ∀ after evidence, (apply sha256 draw m).1 ≠ .applied after evidence) ∨
    ∃ p operation e σ', m.prepared = some p ∧ Commits sha256 σ p operation e σ' ∧
      (apply sha256 draw m).2.Holds sha256 σ' ∧
      ((apply sha256 draw m).1 = .applied e.after (.of sha256 (json Evidence.codec e)) ∨
        (apply sha256 draw m).1 = .uncertain .unverified) := by
  cases hp : m.prepared with
  | none =>
      simp only [Team.apply, hp]
      exact .inl ⟨h, nofun⟩
  | some p =>
      have hfits := h.prepared p hp
      cases htx : p.tx with
      | none =>
          simp only [Team.apply, hp, htx]
          exact .inl ⟨holds_taken h.tables h.valid rfl rfl, nofun⟩
      | some tx =>
          cases hop : p.operation with
          | none =>
              simp only [Team.apply, hp, htx, hop]
              exact .inl ⟨holds_taken h.tables h.valid rfl rfl, nofun⟩
          | some operation =>
              have hready := hfits.ready (by rw [htx]; rfl)
              have hbefore := hfits.before (by rw [htx]; rfl)
              simp only [Team.apply, hp, htx, hop]
              rcases hperform : p.perform sha256 operation draw.random ⟨tx, draw.apply⟩ with
                ⟨_ | ⟨after, digest, secret⟩, c⟩
              · refine .inl ⟨holds_taken h.tables h.valid rfl rfl, fun after evidence heq => ?_⟩
                dsimp only at heq
                split at heq <;> cases heq
              · obtain ⟨τ, e, hchanged, hreceipt, hb, rfl, rfl, ht, hvalid⟩ :=
                  perform_ok h.valid (hfits.tx tx htx) hready hbefore hperform
                have hcommits : Commits sha256 σ p operation e
                    (τ.commit e ⟨operation, p.command, secret⟩) :=
                  ⟨hop, ⟨τ, secret, hchanged, rfl⟩, hreceipt, hb, hbefore, hvalid⟩
                cases draw.commit with
                | none => exact .inr ⟨p, operation, e, _, rfl, hcommits,
                    holds_taken ht hvalid rfl rfl, .inl rfl⟩
                | lost => exact .inr ⟨p, operation, e, _, rfl, hcommits,
                    holds_taken ht hvalid rfl rfl, .inr rfl⟩
                | crashAfter => exact .inr ⟨p, operation, e, _, rfl, hcommits,
                    holds_taken ht hvalid rfl rfl, .inr rfl⟩
                | failed => exact .inl ⟨holds_taken h.tables h.valid rfl rfl, nofun⟩
                | crash => exact .inl ⟨holds_taken h.tables h.valid rfl rfl, nofun⟩

end Calls

section Runs

variable (sha256 : String → Ir.Digest) (target : Id)

/-- One call of the manager; a crash is the end of the guard. -/
inductive Move (m : Manager) : Manager → Prop where
  | prepare (command : Command) (transport : Digest) (slot : Option Secret) (draw : Draw)
      (request : Request) :
      Move m (prepareMapped sha256 target command transport slot draw request m).2
  | accepted (operation : Id) : Move m (accepted operation m)
  | apply (draw : Draw) : Move m (apply sha256 draw m).2
  | release : Move m (release m)

def Reachable (m : Manager) : Prop := Relation.ReflTransGen (Move sha256 target) Manager.new m

variable {sha256 target} {m : Manager}

theorem Move.holds {m' : Manager} {σ : Roster} (hmove : Move sha256 target m m')
    (h : m.Holds sha256 σ) : ∃ σ', m'.Holds sha256 σ' := by
  cases hmove with
  | prepare command transport slot draw request => exact ⟨σ, h.prepare _ _ _ _ _⟩
  | accepted operation => exact ⟨σ, h.accepted operation⟩
  | apply draw =>
      rcases apply_cases h draw with ⟨hkept, -⟩ | ⟨p, operation, e, σ', -, -, hcommitted, -⟩
      · exact ⟨σ, hkept⟩
      · exact ⟨σ', hcommitted⟩
  | release => exact ⟨σ, h.release⟩

/-- Every run of calls leaves the tables of a valid roster. -/
theorem Reachable.holds (h : Reachable sha256 target m) : ∃ σ, m.Holds sha256 σ := by
  induction h with
  | refl => exact ⟨_, holds_new⟩
  | tail _ hmove ih =>
      obtain ⟨σ, hσ⟩ := ih
      exact hmove.holds hσ

end Runs

section Readable

/-- Every row reads back, within the limits, and so does the whole. -/
structure Tables.Readable (sha256 : String → Ir.Digest) (t : Tables) : Prop where
  fewSubjects : t.subjectRows.length ≤ 128
  fewCredentials : t.credentialRows.length ≤ 1024
  subjects : ∀ row ∈ t.subjectRows, ∃ s, t.subject s.id = .ok s ∧ s.id.value = row.id ∧
    decode Subject.codec row.data = .ok s
  credentials : ∀ row ∈ t.credentialRows, ∃ c, t.credential c.metadata.id = .ok c ∧
    c.metadata.id.value = row.id ∧ c.verifier.value = row.verifier ∧
      decode StoredCredential.codec row.data = .ok c
  receipts : ∀ row ∈ t.receiptRows, ∃ e, decode Evidence.codec row.evidence = .ok e ∧
    e.operation.value = row.operation
  once : (t.receiptRows.map (·.operation)).Nodup
  generation : t.generation = t.receiptRows.length
  whole : ∃ s, snapshot sha256 ⟨t, []⟩ = (.ok s, ⟨t, []⟩)

variable {sha256 : String → Ir.Digest} {σ : Roster}

theorem select_quiet {α : Type} (f : Tables → Except Error α) (t : Tables) :
    select f ⟨t, []⟩ = (f t, ⟨t, []⟩) := rfl

theorem snapshot_tables (h : σ.Valid sha256) :
    ∃ s, snapshot sha256 ⟨σ.tables, []⟩ = (.ok s, ⟨σ.tables, []⟩) := by
  obtain ⟨subjects, hsubjects, -⟩ := subjects_tables h
  obtain ⟨credentials, hcredentials, -⟩ := credentials_tables h
  refine ⟨⟨UInt64.ofNat σ.tables.generation,
    .of sha256 (snapshotText (UInt64.ofNat σ.tables.generation) subjects credentials)⟩, ?_⟩
  simp only [snapshot, Bind.bind, select_quiet, hsubjects, hcredentials]
  rfl

theorem Roster.Valid.readable (h : σ.Valid sha256) : σ.tables.Readable sha256 where
  fewSubjects := by
    rw [Roster.tables, List.length_map]
    exact h.fewSubjects
  fewCredentials := by
    rw [Roster.tables, List.length_map]
    exact h.fewCredentials
  subjects := by
    rw [Roster.tables, List.forall_mem_map]
    intro s hs
    exact ⟨s, (subject_ok h).2 ⟨hs, rfl⟩, rfl, decode_subject (h.permissions s hs)⟩
  credentials := by
    rw [Roster.tables, List.forall_mem_map]
    intro c hc
    exact ⟨c, (credential_ok h).2 ⟨hc, rfl⟩, rfl, rfl, decode_credential c⟩
  receipts := by
    rw [Roster.tables, List.forall_mem_map]
    intro e he
    exact ⟨e, decode_evidence (h.schemas e he), rfl⟩
  once := by
    rw [Roster.tables, List.map_map]
    exact List.Nodup.map_on (fun e he e' he' heq => List.inj_on_of_nodup_map h.receiptIds he he'
      (Management.Id.ext heq)) (List.Nodup.of_map _ h.receiptIds)
  generation := by
    rw [Roster.tables, List.length_map]
  whole := snapshot_tables h

end Readable

end ResponseGateway.Team
