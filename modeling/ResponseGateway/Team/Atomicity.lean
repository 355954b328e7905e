import ResponseGateway.Team.Runs

/-!
Commits of the team store are atomic: an applied command is one more receipt in the
transaction that changed the rows, and a reconciliation answers by the receipt alone.
-/

namespace ResponseGateway.Team
open Checked Json Method Management
open Ir (hex renderText)

section Atomicity

variable (sha256 : String → Ir.Digest)

/-- One transaction more: the next generation, the receipt of its operation and the command
that was carried out. -/
structure Stored (t t' : Tables) (operation : Id) (command : Command) (after : Snapshot)
    (evidence : Digest) : Prop where
  fresh : operation.value ∉ t.receiptRows.map (·.operation)
  generation : t'.generation = t.generation + 1
  revision : after.revision.toNat = t'.generation
  receipt : ∃ text e, t'.receiptRows = t.receiptRows ++ [⟨operation.value, text⟩] ∧
    decode Evidence.codec text = .ok e ∧ e.operation = operation ∧ e.after = after ∧
      evidence = .of sha256 text
  command : ∃ secret, t'.commits = t.commits ++ [⟨operation, command, secret⟩]

/-- The prepared operation has been carried out, as reported. -/
def CarriedOut (m m' : Manager) (after : Snapshot) (evidence : Digest) : Prop :=
  ∃ p operation, m.prepared = some p ∧ p.operation = some operation ∧
    Stored sha256 m.tables m'.tables operation p.command after evidence

/-- What an effect says of the tables. -/
def Atomic (m m' : Manager) : Effect → Prop
  | .applied after evidence => CarriedOut sha256 m m' after evidence
  | .notApplied _ => m'.tables = m.tables
  | .uncertain _ => m'.tables = m.tables ∨ ∃ after evidence, CarriedOut sha256 m m' after evidence

variable {sha256} {m : Manager} {σ : Roster}

theorem toNat_of_successor {a b : UInt64} (h : Tables.successor a = some b) :
    b.toNat = a.toNat + 1 := by
  rw [Tables.successor] at h
  split at h
  · next hlt =>
      cases h
      rw [UInt64.toNat_add]
      exact Nat.mod_eq_of_lt hlt
  · cases h

theorem carriedOut_of_commits (h : m.Holds sha256 σ) {p : Prepared} {operation : Id}
    {e : Evidence} {σ' : Roster} {m' : Manager} (hp : m.prepared = some p)
    (hcommits : Commits sha256 σ p operation e σ') (h' : m'.Holds sha256 σ') :
    CarriedOut sha256 m m' e.after (.of sha256 (json Evidence.codec e)) := by
  have hreceipt := hcommits.receipt
  have hroom : σ.receipts.length + 1 < 2 ^ 63 := hreceipt.room
  refine ⟨p, operation, hp, hcommits.accepted, ?_, ?_, ?_,
    ⟨json Evidence.codec e, e, ?_, decode_evidence hreceipt.schema, hreceipt.operation, rfl, rfl⟩,
    ?_⟩
  · rw [h.tables, Roster.tables, List.map_map]
    intro hmem
    obtain ⟨e', he', heq⟩ := List.mem_map.1 hmem
    exact hreceipt.fresh (List.mem_map.2 ⟨e', he', Management.Id.ext heq⟩)
  · rw [h.tables, h'.tables, Roster.tables, Roster.tables, hcommits.receipts, List.length_append]
    rfl
  · have hsmall : (UInt64.ofNat σ.receipts.length).toNat = σ.receipts.length :=
      UInt64.toNat_ofNat_of_lt' (Nat.lt_trans (Nat.lt_of_succ_lt hroom) (by decide))
    rw [toNat_of_successor hreceipt.revisions, hcommits.before, hcommits.revision, hsmall, h'.tables,
      Roster.tables, hcommits.receipts, List.length_append]
    rfl
  · rw [h.tables, h'.tables, Roster.tables, Roster.tables, hcommits.receipts, List.map_append,
      List.map_singleton, ReceiptRow.of, hreceipt.operation]
  · obtain ⟨τ, secret, hchanged, rfl⟩ := hcommits.changed
    rw [h.tables, h'.tables, Roster.tables, Roster.tables, Roster.commit, hchanged.commits]
    exact ⟨secret, rfl⟩

/-- Every reported effect is what happened to the tables. -/
theorem apply_atomic (h : m.Holds sha256 σ) (draw : Draw) :
    Atomic sha256 m (apply sha256 draw m).2 (apply sha256 draw m).1 := by
  rcases apply_cases h draw with ⟨hkept, hclaim⟩ | ⟨p, operation, e, σ', hp, hcommits, h', heffect⟩
  · have ht : (apply sha256 draw m).2.tables = m.tables := hkept.tables.trans h.tables.symm
    cases heffect : (apply sha256 draw m).1 with
    | applied after evidence => exact absurd heffect (hclaim after evidence)
    | notApplied code => exact ht
    | uncertain code => exact .inl ht
  · have hcarried := carriedOut_of_commits h hp hcommits h'
    rcases heffect with heffect | heffect
    · rw [heffect]
      exact hcarried
    · rw [heffect]
      exact .inr ⟨_, _, hcarried⟩

end Atomicity

section Reconciliation

variable {sha256 : String → Ir.Digest} {target : Id}

/-- No statement fails. -/
def Quiet (faults : List Bool) : Prop := ∀ fault ∈ faults, fault = false

theorem contact_quiet {c : Connection} (h : Quiet c.faults) :
    ∃ faults, Quiet faults ∧ contact c = (.ok ⟨⟩, ⟨c.tables, faults⟩) := by
  obtain ⟨tables, faults⟩ := c
  cases faults with
  | nil => exact ⟨[], h, rfl⟩
  | cons fault rest =>
      obtain ⟨rfl, hrest⟩ := List.forall_mem_cons.1 h
      exact ⟨rest, hrest, rfl⟩

/-- A served reconciliation answers by the stored receipt. -/
theorem reconcile_quiet {m : Manager} {operation : Operation} {draw : Draw}
    (hquiet : Quiet draw.reconcile) (htarget : operation.request.target = target) :
    (reconcile sha256 target draw operation m).1 =
      (m.tables.evidence sha256 operation).map fun
        | none => .uncertain .unverified
        | some (value, digest) => .applied value.after digest := by
  obtain ⟨faults, hfaults, hfirst⟩ := contact_quiet (c := ⟨m.tables, draw.reconcile⟩) hquiet
  obtain ⟨faults', -, hsecond⟩ := contact_quiet (c := ⟨m.tables, faults⟩) hfaults
  simp only [reconcile, answer, select, Bind.bind, Method.check, Method.read, htarget, ne_eq, not_true_eq_false,
    decide_false, rejectIf_false, hfirst, hsecond]
  cases m.tables.evidence sha256 operation with
  | error e => rfl
  | ok found =>
      cases found with
      | none => rfl
      | some value => rfl

/-- The evidence of a recorded operation is found when it is stored, and passes. -/
theorem evidence_linked (db : Db) {σ : Roster} (m : Manager)
    (h : Visible sha256 target (db, m) σ) {id : Id} {operation : Operation}
    (hop : recorded db id = .ok operation) :
    (∃ e ∈ σ.receipts, e.operation = id ∧ m.tables.evidence sha256 operation =
        .ok (some (e, .of sha256 (json Evidence.codec e)))) ∨
      (id ∉ σ.receipts.map (·.operation) ∧ m.tables.evidence sha256 operation = .ok none) := by
  obtain rfl := recorded_id hop
  have htables : m.tables = σ.tables := h.tables
  have hfind : m.tables.receiptRows.find? (·.operation = operation.id.value) =
      (σ.receipts.find? (·.operation = operation.id)).map .of := by
    rw [htables, Roster.tables, find_map]
    exact congrArg _ (find_id (fun e : Evidence => e.operation) operation.id _)
  cases he : σ.receipts.find? (·.operation = operation.id) with
  | none =>
      refine .inr ⟨fun hmem => ?_, ?_⟩
      · obtain ⟨e, hmem, heq⟩ := List.mem_map.1 hmem
        exact List.find?_eq_none.1 he e hmem (decide_eq_true heq)
      · rw [Tables.evidence, hfind, he]
        rfl
  | some e =>
      obtain ⟨hmem, heq⟩ := (find_key h.valid.receiptIds).1 he
      obtain ⟨operation', hasked⟩ := h.linked.receipts e hmem
      obtain rfl : operation = operation' :=
        Except.ok.inj (hop.symm.trans (heq ▸ hasked.recorded))
      have hschema := h.valid.schemas e hmem
      have hrevision := h.valid.revisions e hmem
      rw [hasked.expected] at hrevision
      refine .inl ⟨e, hmem, heq, ?_⟩
      rw [Tables.evidence, hfind, he]
      simp only [Option.map_some, ReceiptRow.of, decode_evidence hschema, bind_of_ok, hschema, heq,
        hasked.fingerprint, hasked.expected, hrevision]
      simp

/-- What a reconciliation of a recorded operation answers. -/
structure Answers (m : Manager) (id : Id) (draw : Draw) (result : Except Error Effect) : Prop where
  applied : ∀ after evidence, result = .ok (.applied after evidence) →
    id.value ∈ m.tables.receiptRows.map (·.operation)
  quiet : Quiet draw.reconcile →
    (∃ after evidence, result = .ok (.applied after evidence)) ∧
        id.value ∈ m.tables.receiptRows.map (·.operation) ∨
      result = .ok (.uncertain .unverified) ∧
        id.value ∉ m.tables.receiptRows.map (·.operation)

theorem reconcile_applied {m : Manager} {operation : Operation} {draw : Draw} {after : Snapshot}
    {evidence : Digest} (h : (reconcile sha256 target draw operation m).1 =
      .ok (.applied after evidence)) :
    ∃ found, m.tables.evidence sha256 operation = .ok (some found) := by
  have hanswer : answer sha256 target operation ⟨m.tables, draw.reconcile⟩ =
      (.ok (.applied after evidence), _) := Prod.ext h rfl
  obtain ⟨_, -, h⟩ := check_bind_accepts.1 hanswer
  obtain ⟨_, c, hcontact, h⟩ := bind_accepts.1 h
  obtain ⟨found, c', hselect, h⟩ := bind_accepts.1 h
  obtain ⟨hread, -⟩ := select_ok hselect
  rw [contact_ok hcontact] at hread
  cases found with
  | none =>
      obtain ⟨heq, -⟩ := pure_accepts.1 h
      cases heq
  | some found => exact ⟨found, hread⟩

theorem answers_linked {db : Db} {σ : Roster} {m : Manager}
    (h : Visible sha256 target (db, m) σ) {id : Id} {operation : Operation}
    (hop : recorded db id = .ok operation) (htarget : operation.request.target = target)
    (draw : Draw) : Answers m id draw (reconcile sha256 target draw operation m).1 := by
  have hrows : id.value ∈ m.tables.receiptRows.map (·.operation) ↔
      id ∈ σ.receipts.map (·.operation) := by
    have htables : m.tables = σ.tables := h.tables
    rw [htables, Roster.tables, List.map_map]
    constructor
    · intro hmem
      obtain ⟨e, he, heq⟩ := List.mem_map.1 hmem
      exact List.mem_map.2 ⟨e, he, Management.Id.ext heq⟩
    · intro hmem
      obtain ⟨e, he, rfl⟩ := List.mem_map.1 hmem
      exact List.mem_map.2 ⟨e, he, rfl⟩
  rcases evidence_linked _ _ h hop with ⟨e, he, rfl, hread⟩ | ⟨hnone, hread⟩
  · have hmem : e.operation ∈ σ.receipts.map (·.operation) := List.mem_map.2 ⟨e, he, rfl⟩
    refine ⟨fun _ _ _ => hrows.2 hmem, fun hquiet => .inl
      ⟨⟨e.after, .of sha256 (json Evidence.codec e), ?_⟩, hrows.2 hmem⟩⟩
    rw [reconcile_quiet hquiet htarget, hread]
    rfl
  · refine ⟨fun after evidence happlied => ?_,
      fun hquiet => .inr ⟨?_, fun hmem => hnone (hrows.1 hmem)⟩⟩
    · obtain ⟨found, hfound⟩ := reconcile_applied happlied
      rw [hread] at hfound
      cases hfound
    · rw [reconcile_quiet hquiet htarget, hread]
      rfl

/-- Commits are atomic under any calls of the manager, every reachable store reads back
within its limits, and behind the journal a reconciliation answers by the receipt. -/
theorem team_store_commits (env : Environment) (target : Id) :
    (∀ m, Reachable env.sha256 target m → m.tables.Readable env.sha256 ∧
      ∀ draw, Atomic env.sha256 m (apply env.sha256 draw m).2 (apply env.sha256 draw m).1) ∧
    ∀ ticks calls, (∀ call ∈ calls, Admitted env.sha256 target call) →
      ∀ v ∈ (run env (.new .new ticks) calls).visible, v.2.tables.Readable env.sha256 ∧
        ∀ id operation, recorded v.1 id = .ok operation → operation.request.target = target →
          ∀ draw, (reconcile env.sha256 target draw operation v.2).2 = v.2 ∧
            Answers v.2 id draw (reconcile env.sha256 target draw operation v.2).1 := by
  constructor
  · intro m hm
    obtain ⟨σ, hσ⟩ := hm.holds
    exact ⟨hσ.tables ▸ hσ.valid.readable, fun draw => apply_atomic hσ draw⟩
  · intro ticks calls hcalls v hv
    have hrun : On (joint env.sha256 target) (run env (.new .new ticks) calls) :=
      joint_run hcalls joint_new
    obtain ⟨σ, hσ⟩ := Joint.visible_all hrun v hv
    exact ⟨hσ.tables ▸ hσ.valid.readable, fun id operation hop htarget draw =>
      ⟨rfl, answers_linked hσ hop htarget draw⟩⟩

end Reconciliation

end ResponseGateway.Team
