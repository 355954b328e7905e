import ResponseGateway.Management.JournalRuns
import ResponseGateway.Team.StoreRuns

/-!
Runs of the journal over the team store. Every receipt belongs to a recorded operation
whose request it carries out, at every moment at which a reader may look, and what is
seen later extends what was seen before. Adapters that leave the team store alone may
share the journal.
-/

namespace ResponseGateway.Team
open Checked Json Method Management
open Ir (hex renderText)

section Invariant

variable (sha256 : String → Ir.Digest) (target : Id)

/-- The operation asked for what the receipt records. -/
structure Asked (db : Db) (e : Evidence) (operation : Operation) : Prop where
  recorded : recorded db e.operation = .ok operation
  fingerprint : e.requestSha256 = operation.request.fingerprint sha256
  expected : e.before = operation.request.expected
  target : operation.request.target = target

structure Linked (db : Db) (σ : Roster) : Prop where
  receipts : ∀ e ∈ σ.receipts, ∃ operation, Asked sha256 target db e operation
  commits : ∀ commit ∈ σ.commits, ∃ operation, recorded db commit.operation = .ok operation ∧
    operation.request.action = commit.command.action

/-- What holds whenever both stores are looked at. -/
structure Visible (v : Db × Manager) (σ : Roster) : Prop where
  tables : v.2.tables = σ.tables
  valid : σ.Valid sha256
  sound : Sound sha256 v.1
  linked : Linked sha256 target v.1 σ

/-- A later look at both stores. -/
def Before (v v' : Db × Manager) : Prop :=
  Extends v.1 v'.1 ∧ ∃ σ σ', v.2.tables = σ.tables ∧ v'.2.tables = σ'.tables ∧ Grows σ σ'

structure Joint (db : Db) (m : Manager) (l : Log Manager) : Prop where
  journal : Inv sha256 (fun _ _ => False) .empty db m l.applications
  store : ∃ σ, m.Holds sha256 σ ∧ Linked sha256 target db σ
  visible : ∀ v ∈ l.seen, ∃ σ, Visible sha256 target v σ
  before : ∀ v ∈ l.seen, Before v (db, m)
  ordered : l.seen.Pairwise Before

end Invariant

section Steps

variable {sha256 : String → Ir.Digest} {target : Id} {db db' : Db} {m m' : Manager}
  {l : Log Manager} {σ σ' : Roster}

theorem Linked.extends (h : Linked sha256 target db σ) (hext : Extends db db') :
    Linked sha256 target db' σ where
  receipts e he := by
    obtain ⟨operation, hasked⟩ := h.receipts e he
    obtain ⟨operation', hop, hlater⟩ := hext _ _ hasked.recorded
    exact ⟨operation', hop, hasked.fingerprint.trans (by rw [hlater.request]),
      hasked.expected.trans (by rw [hlater.request]), by rw [hlater.request, hasked.target]⟩
  commits commit hcommit := by
    obtain ⟨operation, hop, haction⟩ := h.commits commit hcommit
    obtain ⟨operation', hop', hlater⟩ := hext _ _ hop
    exact ⟨operation', hop', by rw [hlater.request, haction]⟩

theorem Before.trans {u v w : Db × Manager} (h : Before u v) (h' : Before v w) : Before u w := by
  obtain ⟨hext, σ, σ', hσ, hσ', hgrows⟩ := h
  obtain ⟨hext', τ, τ', hτ, hτ', hgrows'⟩ := h'
  obtain rfl := Roster.tables_injective (hσ'.symm.trans hτ)
  exact ⟨hext.trans hext', σ, τ', hσ, hτ', hgrows.trans hgrows'⟩

theorem Joint.current (h : Joint sha256 target db m l) : ∃ σ, Visible sha256 target (db, m) σ := by
  obtain ⟨σ, hholds, hlinked⟩ := h.store
  exact ⟨σ, hholds.tables, hholds.valid, h.journal.sound, hlinked⟩

theorem Joint.look (h : Joint sha256 target db m l) : Joint sha256 target db m (l.look db m) := by
  obtain ⟨σ, hσ⟩ := h.current
  have hrefl : Before (db, m) (db, m) := ⟨.refl db, σ, σ, hσ.tables, hσ.tables, .refl σ⟩
  refine { h with
    visible := List.forall_mem_append.2 ⟨h.visible, List.forall_mem_singleton.2 ⟨σ, hσ⟩⟩
    before := List.forall_mem_append.2 ⟨h.before, List.forall_mem_singleton.2 hrefl⟩
    ordered := List.pairwise_append.2 ⟨h.ordered, List.pairwise_singleton _ _, ?_⟩ }
  intro v hv v' hv'
  obtain rfl := List.mem_singleton.1 hv'
  exact h.before v hv

/-- The invariant moves along with the stores. -/
theorem Joint.move (h : Joint sha256 target db m l) {applications : List Application}
    (hjournal : Inv sha256 (fun _ _ => False) .empty db' m' applications)
    (hbefore : Before (db, m) (db', m')) (hholds : m'.Holds sha256 σ')
    (hlinked : Linked sha256 target db' σ') :
    Joint sha256 target db' m' ⟨applications, l.seen⟩ where
  journal := hjournal
  store := ⟨σ', hholds, hlinked⟩
  visible := h.visible
  before v hv := (h.before v hv).trans hbefore
  ordered := h.ordered

/-- Another state of the adapter with the same tables. -/
theorem Joint.manager (h : Joint sha256 target db m l) (ht : m'.tables = m.tables)
    (hholds : ∀ σ, m.Holds sha256 σ → m'.Holds sha256 σ) : Joint sha256 target db m' l := by
  obtain ⟨σ, hσ, hlinked⟩ := h.store
  exact h.move (h.journal.backend fun _ hid => hid)
    ⟨.refl db, σ, σ, hσ.tables, ht.trans hσ.tables, .refl σ⟩ (hholds σ hσ) hlinked

theorem Joint.extends (h : Joint sha256 target db m l)
    (hjournal : Inv sha256 (fun _ _ => False) .empty db' m l.applications)
    (hext : Extends db db') : Joint sha256 target db' m l := by
  obtain ⟨σ, hσ, hlinked⟩ := h.store
  exact h.move hjournal ⟨hext, σ, σ, hσ.tables, hσ.tables, .refl σ⟩ hσ (hlinked.extends hext)

theorem Joint.append (h : Joint sha256 target db m l) {operation : Operation} {event : Event}
    (happend : Appends operation event db db')
    (hrecovery : event.phase = .recovery → (∃ code, event.effect = some (.notApplied code)) →
      operation.id ∉ l.applications.map (·.operation)) : Joint sha256 target db' m l :=
  h.extends (h.journal.append happend hrecovery fun _ _ hfalse => hfalse)
    (extends_append h.journal.sound happend.prior happend.admits happend.inserted)

def joint (sha256 : String → Ir.Digest) (target : Id) : Steady Manager where
  Holds := Joint sha256 target
  look _ _ _ h := h.look

theorem joint_new : Joint sha256 target .empty .new .empty where
  journal := inv_new _ fun _ h => h
  store := ⟨.empty, holds_new, nofun, nofun⟩
  visible := nofun
  before := nofun
  ordered := .nil

theorem recoverable_joint : Recoverable (joint sha256 target) where
  reads db m l id h := recoverable_inv.reads db m l id h.journal
  records db m l operation effect atMs db' h hrecovers hinsert hadmits := by
    have hjournal := recoverable_inv.records db m l operation effect atMs db'
      h.journal hrecovers hinsert hadmits
    exact h.extends hjournal (extends_append h.journal.sound hrecovers.prior hadmits hinsert)

theorem ids_joint (h : Joint sha256 target db m l) : ∃ ids, db.interrupted = .ok ids ∧
    ∀ value ∈ ids, isId value = true := ids_inv h.journal

end Steps

section Calls

variable {env : Environment} {target : Id} {db db' : Db} {m : Manager} {l : Log Manager}
  {actor : Actor} {request : Request} {id : Id}

theorem Joint.accept (h : Joint env.sha256 target db m l) {atMs : UInt64}
    (haccept : Accepts env actor request id atMs db db') :
    Joint env.sha256 target db' m l ∧ Fresh actor request id db' l.applications := by
  obtain ⟨hjournal, hfresh, hnew⟩ := h.journal.accept haccept
  obtain ⟨db₁, hintent, hevent⟩ := haccept.inserted
  exact ⟨h.extends hjournal (extends_accept h.journal.sound hintent hevent), hfresh, atMs, hnew⟩

/-- The start of an accepted operation. -/
theorem Joint.start (h : Joint env.sha256 target db m l)
    (hfresh : Fresh actor request id db l.applications) {operation : Operation} {atMs : UInt64}
    (hid : operation.id = id)
    (happend : Appends operation (.next operation atMs (some actor.identity) .started .running none)
      db db') :
    Joint env.sha256 target db' m l ∧ JustStarted actor request id db' l.applications := by
  obtain ⟨hnew, atMs₀, hop⟩ := hfresh
  have heq : operation = .accepted id actor request atMs₀ :=
    Except.ok.inj (happend.prior.symm.trans (hid.symm ▸ hop))
  subst heq
  exact ⟨h.append happend nofun, hnew, atMs₀, atMs,
    (recorded_append h.journal.sound happend.prior happend.admits happend.inserted).1⟩

/-- The prepared transaction serves the request. -/
structure Serves (sha256 : String → Ir.Digest) (target : Id) (request : Request) (p : Prepared) :
    Prop where
  fingerprint : p.requestSha256 = request.fingerprint sha256
  action : request.action = p.command.action
  target : request.target = target

/-- A transaction prepared for the request, and for the operation once there is one. -/
def Serving (sha256 : String → Ir.Digest) (target : Id) (request : Request) (before : Snapshot)
    (operation : Option Id) (m : Manager) : Prop :=
  ∃ p, m.prepared = some p ∧ Serves sha256 target request p ∧ p.before = before ∧
    p.operation = operation

/-- The call of `apply`, with or without its effect. -/
theorem Joint.apply (h : Joint env.sha256 target db m l)
    (hstarted : JustStarted actor request id db l.applications)
    (hserving : Serving env.sha256 target request request.expected (some id) m) (draw : Draw) :
    Joint env.sha256 target db (release (apply env.sha256 draw m).2)
      (l.apply ⟨actor.identity.subject, request.idempotencyKey, id, db⟩) := by
  obtain ⟨σ, hσ, hlinked⟩ := h.store
  obtain ⟨p, hp, hserves, hexpected, hoperation⟩ := hserving
  have hjournal := @Management.Inv.log_justStarted _ _ _ _ _ _ _ _
    (release (Team.apply env.sha256 draw m).2) _ _ h.journal hstarted fun _ hid => hid.elim
  rcases apply_cases hσ draw with ⟨hkept, -⟩ | ⟨p', operation, e, σ', hp', hcommits, hnew, -⟩
  · exact h.move hjournal ⟨.refl db, σ, σ, hσ.tables, hkept.tables, .refl σ⟩ hkept.release hlinked
  · obtain rfl : p = p' := Option.some.inj (hp.symm.trans hp')
    obtain rfl : id = operation := Option.some.inj (hoperation.symm.trans hcommits.accepted)
    refine h.move hjournal ⟨.refl db, σ, σ', hσ.tables, hnew.tables, hcommits.grows⟩ hnew.release
      ⟨?_, ?_⟩
    · obtain ⟨-, atMs, atMs', hop⟩ := hstarted
      have hread := (congrArg (recorded db) hcommits.receipt.operation).trans hop
      rw [hcommits.receipts]
      exact List.forall_mem_append.2 ⟨hlinked.receipts, List.forall_mem_singleton.2 ⟨_, hread,
        hcommits.receipt.fingerprint.trans hserves.fingerprint, hcommits.before.trans hexpected,
        hserves.target⟩⟩
    · obtain ⟨τ, secret, hchanged, rfl⟩ := hcommits.changed
      obtain ⟨-, atMs, atMs', hop⟩ := hstarted
      rw [Roster.commit, hchanged.commits]
      exact List.forall_mem_append.2 ⟨hlinked.commits,
        List.forall_mem_singleton.2 ⟨_, hop, hserves.action⟩⟩

/-- A call of `apply` that left the tables alone. -/
theorem Joint.log (h : Joint env.sha256 target db m l)
    (hstarted : JustStarted actor request id db l.applications) {m' : Manager}
    (ht : m'.tables = m.tables) (hholds : ∀ σ, m.Holds env.sha256 σ → m'.Holds env.sha256 σ) :
    Joint env.sha256 target db m'
      (l.apply ⟨actor.identity.subject, request.idempotencyKey, id, db⟩) := by
  obtain ⟨σ, hσ, hlinked⟩ := h.store
  exact h.move (h.journal.log_justStarted hstarted fun _ hid => hid.elim)
    ⟨.refl db, σ, σ, hσ.tables, ht.trans hσ.tables, .refl σ⟩ (hholds σ hσ) hlinked

theorem Joint.prepare (h : Joint env.sha256 target db m l) (command : Command)
    (transport : Digest) (slot : Option Secret) (draw : Draw) (request : Request) :
    Joint env.sha256 target db
      (prepareMapped env.sha256 target command transport slot draw request m).2 l := by
  refine h.manager ?_ fun σ hσ => hσ.prepare command transport slot draw request
  rw [prepareMapped]
  split <;> rfl

/-- What `execute` keeps with a bound command. -/
def outline (command : Command) (transport : Digest) (slot : Option Secret) (draw : Draw)
    (actor : Actor) (request : Request) : Outline env (joint env.sha256 target) actor request
      (bound env.sha256 target command transport slot draw) where
  Prepared before := (joint env.sha256 target).with fun _ m _ =>
    Serving env.sha256 target request before none m
  Accepted id := (joint env.sha256 target).with fun db m l => Fresh actor request id db l ∧
    Serving env.sha256 target request request.expected none m
  Hooked id := (joint env.sha256 target).with fun db m l => Fresh actor request id db l ∧
    Serving env.sha256 target request request.expected (some id) m
  Started id := (joint env.sha256 target).with fun db m l => JustStarted actor request id db l ∧
    Serving env.sha256 target request request.expected (some id) m
  Released id _ := (joint env.sha256 target).with fun db _ _ =>
    ∃ operation, recorded db id = .ok operation ∧ operation.actor = actor.identity
  prepared db m l before h hok := by
    change (prepareMapped env.sha256 target command transport slot draw request m).1 = _ at hok
    obtain ⟨σ, hσ, -⟩ := Joint.store h
    rcases prepareMapped_cases target hσ command transport slot draw request with
      ⟨e, heq⟩ | ⟨p, heq, -, hcommand, hfingerprint, htarget, haction, hnone⟩
    · rw [heq] at hok
      cases hok
    · refine ⟨h.prepare command transport slot draw request, p, ?_,
        ⟨hfingerprint, hcommand ▸ haction, htarget⟩, ?_, hnone⟩
      · exact congrArg (fun result => result.2.prepared) heq
      · rw [heq] at hok
        exact Except.ok.inj hok
  refused db m l e h _ := h.prepare command transport slot draw request
  accepted db m l id atMs db' h haccept := by
    obtain ⟨hjoint, hfresh⟩ := Joint.accept h.1 haccept
    exact ⟨hjoint, hfresh, h.2⟩
  hooked db m l id h := by
    obtain ⟨hjoint, hfresh, p, hp, hserves, hbefore, -⟩ := h
    refine ⟨hjoint.manager rfl fun σ hσ => hσ.accepted id, hfresh, { p with operation := some id },
      congrArg (Option.map _) hp, ⟨hserves.fingerprint, hserves.action, hserves.target⟩, hbefore,
      rfl⟩
  owner db m l id operation h hop := h.2.1.owner hop
  started db m l id operation atMs db' h hid happend := by
    obtain ⟨hjoint, hstarted⟩ := h.1.start h.2.1 hid happend
    exact ⟨hjoint, hstarted, h.2.2⟩
  applied db m l id h := ⟨h.1.apply h.2.1 h.2.2 draw, h.2.1.reads⟩
  torn db m l id h := by
    change Joint env.sha256 target db (release (if draw.late then _ else m)) _
    split
    · exact h.1.apply h.2.1 h.2.2 draw
    · exact h.1.log h.2.1 rfl fun σ hσ => hσ.release
  owner' db m l id effect operation h hop := by
    obtain ⟨-, op, hread, hactor⟩ := h
    exact Except.ok.inj (hread.symm.trans hop) ▸ hactor
  finished db m l id effect operation atMs db' h hid happend := h.1.append happend nofun
  cutPrepared db m l before h := h.1.manager rfl fun σ hσ => hσ.release
  cutAccepted db m l id h := h.1.manager rfl fun σ hσ => hσ.release
  cutHooked db m l id h := h.1.manager rfl fun σ hσ => hσ.release
  cutStarted db m l id h := h.1.manager rfl fun σ hσ => hσ.release
  cutReleased db m l id effect h := h.1

/-- An adapter that leaves the team store alone. -/
structure Idle (backend : Backend Manager) : Prop where
  prepare : ∀ request m, (backend.prepare request m).2 = m
  accepted : ∀ operation m, backend.accepted operation m = m
  apply : ∀ m, (backend.apply m).2 = m
  torn : ∀ m, backend.torn m = m
  release : ∀ m, backend.release m = m
  reconcile : ∀ operation m, (backend.reconcile operation m).2 = m

/-- What `execute` keeps with an adapter of something else. -/
def idleOutline {backend : Backend Manager} (hidle : Idle backend) (actor : Actor)
    (request : Request) : Outline env (joint env.sha256 target) actor request backend where
  Prepared _ := joint env.sha256 target
  Accepted id := (joint env.sha256 target).with fun db _ l => Fresh actor request id db l
  Hooked id := (joint env.sha256 target).with fun db _ l => Fresh actor request id db l
  Started id := (joint env.sha256 target).with fun db _ l => JustStarted actor request id db l
  Released id _ := (joint env.sha256 target).with fun db _ _ =>
    ∃ operation, recorded db id = .ok operation ∧ operation.actor = actor.identity
  prepared db m l before h _ := (hidle.prepare request m).symm ▸ h
  refused db m l e h _ := (hidle.prepare request m).symm ▸ h
  accepted db m l id atMs db' h haccept := Joint.accept h haccept
  hooked db m l id h := (hidle.accepted id m).symm ▸ h
  owner db m l id operation h hop := h.2.owner hop
  started db m l id operation atMs db' h hid happend := h.1.start h.2 hid happend
  applied db m l id h := by
    rw [hidle.apply, hidle.release]
    exact ⟨h.1.log h.2 rfl fun _ hσ => hσ, h.2.reads⟩
  torn db m l id h := by
    rw [hidle.torn, hidle.release]
    exact h.1.log h.2 rfl fun _ hσ => hσ
  owner' db m l id effect operation h hop := by
    obtain ⟨-, op, hread, hactor⟩ := h
    exact Except.ok.inj (hread.symm.trans hop) ▸ hactor
  finished db m l id effect operation atMs db' h hid happend := h.1.append happend nofun
  cutPrepared db m l before h := (hidle.release m).symm ▸ h
  cutAccepted db m l id h := (hidle.release m).symm ▸ h.1
  cutHooked db m l id h := (hidle.release m).symm ▸ h.1
  cutStarted db m l id h := (hidle.release m).symm ▸ h.1
  cutReleased db m l id effect h := h.1

/-- A reconciliation only looks at the store. -/
def reconciles {backend : Backend Manager}
    (hsame : ∀ operation m, (backend.reconcile operation m).2 = m) (actor : Actor) :
    Reconciles (joint env.sha256 target) actor backend where
  Answered operation _ := (joint env.sha256 target).with fun db _ _ =>
    recorded db operation.id = .ok operation
  answered db m l operation effect h hop _ _ := ⟨(hsame operation m).symm ▸ h, hop⟩
  refused db m l operation e h _ _ := (hsame operation m).symm ▸ h
  recorded db m l operation effect atMs db' h happend := h.1.append happend nofun
  kept db m l operation effect h := h

/-- A bound command, or the adapter of something else. -/
def Adapter (sha256 : String → Ir.Digest) (target : Id) (backend : Backend Manager) : Prop :=
  (∃ command transport slot draw, backend = bound sha256 target command transport slot draw) ∨
    Idle backend

def Admitted (sha256 : String → Ir.Digest) (target : Id) : Call Manager → Prop
  | .execute _ _ backend | .reconcile _ _ _ backend => Adapter sha256 target backend
  | .openJournal _ | .close | .kill => True

theorem Adapter.keeps {backend : Backend Manager} (h : Adapter env.sha256 target backend) :
    Keeps env (joint env.sha256 target) backend := by
  rcases h with ⟨command, transport, slot, draw, rfl⟩ | hidle
  · exact ⟨fun actor request => ⟨outline command transport slot draw actor request⟩,
      fun actor => ⟨reconciles (fun _ _ => rfl) actor⟩⟩
  · exact ⟨fun actor request => ⟨idleOutline hidle actor request⟩,
      fun actor => ⟨reconciles hidle.reconcile actor⟩⟩

/-- Every run keeps both stores together. -/
theorem joint_run {calls : List (Call Manager)} {w : World Manager}
    (hcalls : ∀ call ∈ calls, Admitted env.sha256 target call)
    (hw : On (joint env.sha256 target) w) : On (joint env.sha256 target) (run env w calls) := by
  refine on_run recoverable_joint (fun _ _ _ h => ids_joint h) (fun call hcall => ?_) hw
  have hadmitted := hcalls call hcall
  cases call with
  | execute actor request backend => exact Adapter.keeps hadmitted
  | reconcile actor target id backend => exact Adapter.keeps hadmitted
  | openJournal attach => trivial
  | close => trivial
  | kill => trivial

theorem Joint.visible_all {w : World Manager} (h : On (joint env.sha256 target) w) :
    ∀ v ∈ w.visible, ∃ σ, Visible env.sha256 target v σ :=
  List.forall_mem_append.2 ⟨Joint.visible h, List.forall_mem_singleton.2 (Joint.current h)⟩

theorem Joint.pairwise {w : World Manager} (h : On (joint env.sha256 target) w) :
    w.visible.Pairwise Before := by
  refine List.pairwise_append.2 ⟨Joint.ordered h, List.pairwise_singleton _ _, fun v hv v' hv' => ?_⟩
  obtain rfl := List.mem_singleton.1 hv'
  exact Joint.before h v hv

end Calls

end ResponseGateway.Team
