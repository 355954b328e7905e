import ResponseGateway.Management.JournalCalls

/-!
At most one application for each subject and key, behind its durable start, in every
run with any faults; recovery never denies an effect, and finished operations stay as
they are. The log of applications is compared with the recorded operations: an
operation in the log has left the queue, so the only `NotApplied` that recovery writes
on its own account concerns operations outside the log.
-/

namespace ResponseGateway.Management
open Checked Ir Json Method

variable {S : Type}

section Adapters

/-- What an adapter promises about the effects it commits: only `apply` and a crash
inside it commit one, that of the accepted operation, and a reconciliation denies an
effect only on proof. -/
structure Backend.Lawful (commits : S → Id → Prop) (backend : Backend S) : Prop where
  prepare : ∀ request s id, commits (backend.prepare request s).2 id → commits s id
  accepted : ∀ operation s id, commits (backend.accepted operation s) id → commits s id
  apply : ∀ operation s id, commits (backend.apply (backend.accepted operation s)).2 id →
    id = operation ∨ commits s id
  torn : ∀ operation s id, commits (backend.torn (backend.accepted operation s)) id →
    id = operation ∨ commits s id
  release : ∀ s id, commits (backend.release s) id → commits s id
  reconcile : ∀ operation s id, commits (backend.reconcile operation s).2 id → commits s id
  proof : ∀ operation s code, (backend.reconcile operation s).1 = .ok (.notApplied code) →
    ¬ commits (backend.reconcile operation s).2 operation.id

/-- Nothing committed at all is a promise every adapter keeps. -/
theorem lawful_none (backend : Backend S) : backend.Lawful fun _ _ => False :=
  ⟨fun _ _ _ h => h, fun _ _ _ h => h, fun _ _ _ h => h.elim, fun _ _ _ h => h.elim,
    fun _ _ h => h, fun _ _ _ h => h, fun _ _ _ _ h => h⟩

def Call.Lawful (commits : S → Id → Prop) : Call S → Prop
  | .execute _ _ backend | .reconcile _ _ _ backend => backend.Lawful commits
  | .openJournal _ | .close | .kill => True

end Adapters

section Invariant

/-- An event of a phase that denies the effect. -/
def Denied (phase : Phase) (operation : Operation) : Prop :=
  ∃ event ∈ operation.events, event.phase = phase ∧
    ∃ code, event.effect = some (.notApplied code)

/-- The operation has been started, and was running when its effect was applied. -/
def StartedIn (db : Db) (a : Application) : Prop :=
  ∃ operation, recorded db a.operation = .ok operation ∧ operation.state = .running ∧
    operation.actor.subject = a.subject ∧
    operation.request.idempotencyKey = a.idempotencyKey ∧
    ∃ event ∈ operation.events, event.phase = .started

/-- An operation in the log has left the queue, on behalf of its subject and key. -/
def Known (db : Db) (a : Application) : Prop :=
  ∃ operation, recorded db a.operation = .ok operation ∧ operation.state ≠ .queued ∧
    operation.actor.subject = a.subject ∧ operation.request.idempotencyKey = a.idempotencyKey

structure Inv (sha256 : String → Ir.Digest) (commits : S → Id → Prop) (start : Db) (db : Db)
    (b : S) (l : List Application) : Prop where
  sound : Sound sha256 db
  extends_ : Extends start db
  distinct : (l.map (·.operation)).Nodup
  known : ∀ a ∈ l, Known db a
  stored : ∀ a ∈ l, StartedIn a.stored a
  recovery : ∀ id operation, recorded db id = .ok operation → Denied .recovery operation →
    id ∉ l.map (·.operation)
  committed : ∀ id, commits b id → id ∈ l.map (·.operation)
  reconciled : ∀ id operation, recorded db id = .ok operation → Denied .reconciled operation →
    ¬ commits b id

variable {sha256 : String → Ir.Digest} {commits : S → Id → Prop} {start db db' : Db} {b b' : S}
  {l : List Application}

theorem inv_new (b : S) (hb : ∀ id, ¬ commits b id) :
    Inv sha256 commits .empty .empty b [] where
  sound := sound_empty sha256
  extends_ := .refl _
  distinct := List.nodup_nil
  known := nofun
  stored := nofun
  recovery _ _ _ _ := List.not_mem_nil
  committed id h := absurd h (hb id)
  reconciled id _ _ _ := hb id

/-- Only the commitments of the adapter matter. -/
theorem Inv.backend (h : Inv sha256 commits start db b l)
    (hb : ∀ id, commits b' id → commits b id) : Inv sha256 commits start db b' l :=
  { h with
    committed := fun id hid => h.committed id (hb id hid)
    reconciled := fun id operation hop hdenied hid => h.reconciled id operation hop hdenied
      (hb id hid) }

theorem validNext_not_queued {before state : State} {phase : Phase} {effect : Option Effect}
    (h : validNext before phase state effect = true) : state ≠ .queued := by
  rintro rfl
  have heffect (e : Effect) : Effect.state e ≠ .queued := by
    cases e <;> nofun
  have hany (h : effect.any (fun e => decide (State.queued = e.state)) = true) : False := by
    cases effect with
    | none => cases h
    | some e => exact heffect e (of_decide_eq_true h).symm
  cases phase with
  | accepted => cases h
  | started => simp [validNext] at h
  | finished => exact hany (Bool.and_eq_true_iff.1 h).2
  | recovery => exact hany (Bool.and_eq_true_iff.1 h).2
  | reconciled => exact hany (Bool.and_eq_true_iff.1 h).2

theorem denied_push {phase : Phase} {operation : Operation} {event : Event}
    (h : Denied phase (operation.push event)) :
    Denied phase operation ∨ event.phase = phase ∧ ∃ code, event.effect = some (.notApplied code) := by
  obtain ⟨e, he, hphase, hcode⟩ := h
  rcases List.mem_append.1 he with he | he
  · exact .inl ⟨e, he, hphase, hcode⟩
  · obtain rfl := List.mem_singleton.1 he
    exact .inr ⟨hphase, hcode⟩

/-- A checked event keeps the invariant, unless it denies an effect without reason. -/
theorem Inv.append (h : Inv sha256 commits start db b l) {operation : Operation} {event : Event}
    (happend : Appends operation event db db')
    (hrecovery : event.phase = .recovery → (∃ code, event.effect = some (.notApplied code)) →
      operation.id ∉ l.map (·.operation))
    (hreconciled : event.phase = .reconciled → (∃ code, event.effect = some (.notApplied code)) →
      ¬ commits b operation.id) : Inv sha256 commits start db' b l := by
  obtain ⟨hprior, hadmits, hinserted⟩ := happend
  obtain ⟨hsame, hothers⟩ := recorded_append h.sound hprior hadmits hinserted
  have hread {id : Id} {op : Operation} (hop : recorded db' id = .ok op) :
      id = operation.id ∧ op = operation.push event ∨ recorded db id = .ok op := by
    by_cases hid : id = operation.id
    · subst hid
      exact .inl ⟨rfl, (Except.ok.inj (hsame.symm.trans hop)).symm⟩
    · exact .inr ((hothers id hid).symm.trans hop)
  refine { h with
    sound := sound_append h.sound hprior hadmits hinserted
    extends_ := h.extends_.trans (extends_append h.sound hprior hadmits hinserted)
    known := fun a ha => ?_
    recovery := fun id op hop hdenied => ?_
    reconciled := fun id op hop hdenied => ?_ }
  · obtain ⟨op, hop, hstate, hsubject, hkey⟩ := h.known a ha
    by_cases hid : a.operation = operation.id
    · obtain rfl : op = operation := by
        rw [hid, hprior] at hop
        exact (Except.ok.inj hop).symm
      exact ⟨op.push event, hid ▸ hsame,
        validNext_not_queued (hadmits.validNext (recorded_events_ne_nil hprior)), hsubject, hkey⟩
    · exact ⟨op, (hothers _ hid).trans hop, hstate, hsubject, hkey⟩
  · rcases hread hop with ⟨rfl, rfl⟩ | hop
    · rcases denied_push hdenied with hdenied | ⟨hphase, hcode⟩
      · exact h.recovery _ _ hprior hdenied
      · exact hrecovery hphase hcode
    · exact h.recovery id op hop hdenied
  · rcases hread hop with ⟨rfl, rfl⟩ | hop
    · rcases denied_push hdenied with hdenied | ⟨hphase, hcode⟩
      · exact h.reconciled _ _ hprior hdenied
      · exact hreconciled hphase hcode
    · exact h.reconciled id op hop hdenied

/-- A newly accepted operation is not in the log, and nothing else changes. -/
theorem Inv.accept {env : Environment} (h : Inv env.sha256 commits start db b l) {actor : Actor}
    {request : Request} {id : Id} {atMs : UInt64} (haccept : Accepts env actor request id atMs db db') :
    Inv env.sha256 commits start db' b l ∧ id ∉ l.map (·.operation) ∧
      recorded db' id = .ok (.accepted id actor request atMs) := by
  obtain ⟨db₁, hintent, hevent⟩ := haccept.inserted
  obtain ⟨hnew, hothers⟩ := recorded_accept h.sound hintent hevent
  have hfree : id.value ∉ db.operations.map (·.id) := (insertOperation_some hintent).2.2.1
  have hkept {id' : Id} (hmem : id'.value ∈ db.operations.map (·.id)) :
      recorded db' id' = recorded db id' :=
    hothers id' fun heq => hfree (heq ▸ hmem)
  have hread {id' : Id} {op : Operation} (hop : recorded db' id' = .ok op) :
      op = .accepted id actor request atMs ∨ recorded db id' = .ok op := by
    by_cases hid : id' = id
    · subst hid
      exact .inl (Except.ok.inj (hnew.symm.trans hop)).symm
    · exact .inr ((hothers id' hid).symm.trans hop)
  have hnotDenied (phase : Phase) : ¬ Denied phase (.accepted id actor request atMs) := by
    rintro ⟨event, hevent, -, code, hcode⟩
    obtain rfl := List.mem_singleton.1 hevent
    cases hcode
  refine ⟨{ h with
    sound := sound_accept h.sound hintent hevent
    extends_ := h.extends_.trans (extends_accept h.sound hintent hevent)
    known := fun a ha => ?_
    recovery := fun id' op hop hdenied => ?_
    reconciled := fun id' op hop hdenied => ?_ }, fun hmem => ?_, hnew⟩
  · obtain ⟨op, hop, hrest⟩ := h.known a ha
    exact ⟨op, (hkept (mem_ids_of_recorded hop)).trans hop, hrest⟩
  · rcases hread hop with rfl | hop
    · exact absurd hdenied (hnotDenied _)
    · exact h.recovery id' op hop hdenied
  · rcases hread hop with rfl | hop
    · exact absurd hdenied (hnotDenied _)
    · exact h.reconciled id' op hop hdenied
  · obtain ⟨a, ha, rfl⟩ := List.mem_map.1 hmem
    obtain ⟨op, hop, -⟩ := h.known a ha
    exact hfree (mem_ids_of_recorded hop)

/-- The log grows by an operation that has just been started. -/
theorem Inv.log (h : Inv sha256 commits start db b l) {a : Application} {operation : Operation}
    (hstored : a.stored = db) (hfresh : a.operation ∉ l.map (·.operation))
    (hop : recorded db a.operation = .ok operation) (hstate : operation.state = .running)
    (hsubject : operation.actor.subject = a.subject)
    (hkey : operation.request.idempotencyKey = a.idempotencyKey)
    (hstarted : ∃ event ∈ operation.events, event.phase = .started)
    (hrecovery : ¬ Denied .recovery operation) (hreconciled : ¬ Denied .reconciled operation)
    (hb : ∀ id, commits b' id → id = a.operation ∨ commits b id) :
    Inv sha256 commits start db b' (l ++ [a]) := by
  have hmem {id : Id} : id ∈ (l ++ [a]).map (·.operation) ↔
      id ∈ l.map (·.operation) ∨ id = a.operation := by
    rw [List.map_append, List.mem_append, List.map_singleton, List.mem_singleton]
  refine ⟨h.sound, h.extends_, ?_, ?_, ?_, ?_, ?_, ?_⟩
  · rw [List.map_append, List.nodup_append_comm]
    exact List.nodup_cons.2 ⟨hfresh, h.distinct⟩
  · rw [List.forall_mem_append]
    refine ⟨h.known, List.forall_mem_singleton.2 ⟨operation, hop, ?_, hsubject, hkey⟩⟩
    rw [hstate]
    nofun
  · rw [List.forall_mem_append]
    refine ⟨h.stored, List.forall_mem_singleton.2 ?_⟩
    exact ⟨operation, hstored ▸ hop, hstate, hsubject, hkey, hstarted⟩
  · intro id op hread hdenied hlog
    rcases hmem.1 hlog with hlog | rfl
    · exact h.recovery id op hread hdenied hlog
    · obtain rfl := Except.ok.inj (hop.symm.trans hread)
      exact hrecovery hdenied
  · intro id hid
    rw [hmem]
    exact (hb id hid).symm.imp_left (h.committed id)
  · intro id op hread hdenied hid
    rcases hb id hid with rfl | hid
    · obtain rfl := Except.ok.inj (hop.symm.trans hread)
      exact hreconciled hdenied
    · exact h.reconciled id op hread hdenied hid

/-- The invariant, which does not mention what was seen. -/
abbrev Invariant (sha256 : String → Ir.Digest) (commits : S → Id → Prop) (start : Db) : Steady S :=
  .of (Inv sha256 commits start)

theorem recoverable_inv : Recoverable (Invariant sha256 commits start) where
  reads db b l id h he := by
    rcases recorded_cases h.sound id with hnone | ⟨op, hop⟩
    · rw [hnone] at he
      cases he
    · rw [hop] at he
      cases he
  records db b l operation effect atMs db' h hrecovers hinsert hadmits := by
    refine h.append ⟨hrecovers.prior, hadmits, hinsert⟩ (fun _ hdenies hlog => ?_) nofun
    -- a denying effect belongs to a queued operation, and those in the log are not queued
    obtain ⟨hstate, -⟩ | ⟨-, heffect⟩ := hrecovers.effect
    · obtain ⟨a, ha, hid⟩ := List.mem_map.1 hlog
      obtain ⟨op, hop, hqueued, -⟩ := h.known a ha
      rw [hid, hrecovers.prior] at hop
      exact hqueued (Except.ok.inj hop ▸ hstate)
    · obtain ⟨code, hcode⟩ := hdenies
      rw [heffect] at hcode
      cases hcode

theorem ids_inv (h : Inv sha256 commits start db b l) : ∃ ids, db.interrupted = .ok ids ∧
    ∀ value ∈ ids, isId value = true := by
  obtain ⟨ids, hids, hvalid⟩ := interrupted_ok h.sound
  refine ⟨ids, hids, fun value hvalue => ?_⟩
  obtain ⟨row, hrow, rfl⟩ := List.mem_map.1 (hvalid value hvalue)
  obtain ⟨op, -, hcolumns⟩ := h.sound.rows row hrow
  rw [hcolumns.id]
  exact op.id.valid

end Invariant

section Calls

variable {commits : S → Id → Prop} {start : Db} {env : Environment}

/-- The operation has just been accepted and is not in the log. -/
def Fresh (actor : Actor) (request : Request) (id : Id) (db : Db) (l : List Application) : Prop :=
  id ∉ l.map (·.operation) ∧ ∃ atMs, recorded db id = .ok (.accepted id actor request atMs)

/-- The operation has just been started and is not in the log. -/
def JustStarted (actor : Actor) (request : Request) (id : Id) (db : Db) (l : List Application) :
    Prop :=
  id ∉ l.map (·.operation) ∧ ∃ atMs atMs', recorded db id =
    .ok ((Operation.accepted id actor request atMs).push
      (.next (.accepted id actor request atMs) atMs' (some actor.identity) .started .running none))

variable {actor : Actor} {request : Request} {id : Id} {db : Db} {b b' : S} {l : List Application}

theorem Fresh.owner (h : Fresh actor request id db l) {operation : Operation}
    (hop : recorded db id = .ok operation) : operation.actor = actor.identity := by
  obtain ⟨-, atMs, hnew⟩ := h
  obtain rfl := Except.ok.inj (hnew.symm.trans hop)
  rfl

theorem JustStarted.reads (h : JustStarted actor request id db l) :
    ∃ operation, recorded db id = .ok operation ∧ operation.actor = actor.identity := by
  obtain ⟨-, atMs, atMs', hop⟩ := h
  exact ⟨_, hop, rfl⟩

/-- The call of `apply` enters the log behind the stored start. -/
theorem Inv.log_justStarted {sha256 : String → Ir.Digest} (h : Inv sha256 commits start db b l)
    (hstarted : JustStarted actor request id db l)
    (hb : ∀ id', commits b' id' → id' = id ∨ commits b id') :
    Inv sha256 commits start db b'
      (l ++ [⟨actor.identity.subject, request.idempotencyKey, id, db⟩]) := by
  obtain ⟨hfresh, atMs, atMs', hop⟩ := hstarted
  have hnotDenied (phase : Phase) : ¬ Denied phase ((Operation.accepted id actor request atMs).push
      (.next (.accepted id actor request atMs) atMs' (some actor.identity) .started .running
        none)) := by
    intro hdenied
    rcases denied_push hdenied with ⟨event, hevent, -, code, hcode⟩ | ⟨-, code, hcode⟩
    · obtain rfl := List.mem_singleton.1 hevent
      cases hcode
    · cases hcode
  exact h.log rfl hfresh hop rfl rfl rfl
    ⟨_, List.mem_append_right _ (List.mem_singleton_self _), rfl⟩ (hnotDenied _) (hnotDenied _) hb

/-- What `execute` keeps with an adapter that keeps its promise. -/
def Inv.outline {backend : Backend S} (hlawful : backend.Lawful commits) (actor : Actor)
    (request : Request) :
    Outline env (Invariant env.sha256 commits start) actor request backend where
  Prepared _ := .of (Inv env.sha256 commits start)
  Accepted id := .of fun db b l =>
    Inv env.sha256 commits start db b l ∧ Fresh actor request id db l
  Hooked id := .of fun db b l => ∃ b₀, b = backend.accepted id b₀ ∧
    Inv env.sha256 commits start db b₀ l ∧ Fresh actor request id db l
  Started id := .of fun db b l => ∃ b₀, b = backend.accepted id b₀ ∧
    Inv env.sha256 commits start db b₀ l ∧ JustStarted actor request id db l
  Released id _ := .of fun db b l => Inv env.sha256 commits start db b l ∧
    ∃ operation, recorded db id = .ok operation ∧ operation.actor = actor.identity
  prepared db b l before h _ := h.backend fun id => hlawful.prepare request b id
  refused db b l e h _ := h.backend fun id => hlawful.prepare request b id
  accepted db b l id atMs db' h haccept := by
    obtain ⟨hinv, hfresh, hnew⟩ := h.accept haccept
    exact ⟨hinv, hfresh, atMs, hnew⟩
  hooked db b l id h := ⟨b, rfl, h.1, h.2⟩
  owner db b l id operation h hop := by
    obtain ⟨b₀, -, -, hfresh⟩ := h
    exact hfresh.owner hop
  started db b l id operation atMs db' h hid happend := by
    obtain ⟨b₀, hb, hinv, hfresh, atMs₀, hnew⟩ := h
    have heq : operation = .accepted id actor request atMs₀ :=
      Except.ok.inj (happend.prior.symm.trans (hid.symm ▸ hnew))
    subst heq
    exact ⟨b₀, hb, hinv.append happend nofun nofun, hfresh, atMs₀, atMs,
      (recorded_append hinv.sound happend.prior happend.admits happend.inserted).1⟩
  applied db b l id h := by
    obtain ⟨b₀, rfl, hinv, hstarted⟩ := h
    have hb (id' : Id) (hid : commits (backend.release (backend.apply
        (backend.accepted id b₀)).2) id') : id' = id ∨ commits b₀ id' :=
      hlawful.apply id b₀ id' (hlawful.release _ id' hid)
    exact ⟨hinv.log_justStarted hstarted hb, hstarted.reads⟩
  torn db b l id h := by
    obtain ⟨b₀, rfl, hinv, hstarted⟩ := h
    exact hinv.log_justStarted hstarted fun id' hid =>
      hlawful.torn id b₀ id' (hlawful.release _ id' hid)
  owner' db b l id effect operation h hop := by
    obtain ⟨-, op, hread, hactor⟩ := h
    exact Except.ok.inj (hread.symm.trans hop) ▸ hactor
  finished db b l id effect operation atMs db' h _ happend := h.1.append happend nofun nofun
  cutPrepared db b l before h := h.backend fun id => hlawful.release b id
  cutAccepted db b l id h := h.1.backend fun id => hlawful.release b id
  cutHooked db b l id h := by
    obtain ⟨b₀, rfl, hinv, -⟩ := h
    exact hinv.backend fun id' hid => hlawful.accepted id b₀ id' (hlawful.release _ id' hid)
  cutStarted db b l id h := by
    obtain ⟨b₀, rfl, hinv, -⟩ := h
    exact hinv.backend fun id' hid => hlawful.accepted id b₀ id' (hlawful.release _ id' hid)
  cutReleased db b l id effect h := h.1

/-- What `reconcile` keeps with an adapter that keeps its promise. -/
def Inv.reconciles {sha256 : String → Ir.Digest} {backend : Backend S}
    (hlawful : backend.Lawful commits) (actor : Actor) :
    Reconciles (Invariant sha256 commits start) actor backend where
  Answered operation effect := .of fun db b l => Inv sha256 commits start db b l ∧
    recorded db operation.id = .ok operation ∧
    ((∃ code, effect = .notApplied code) → ¬ commits b operation.id)
  answered db b l operation effect h hop _ hanswer := by
    refine ⟨h.backend fun id => hlawful.reconcile operation b id, hop, ?_⟩
    rintro ⟨code, rfl⟩
    exact hlawful.proof operation b code hanswer
  refused db b l operation e h _ _ := h.backend fun id => hlawful.reconcile operation b id
  recorded db b l operation effect atMs db' h happend := by
    refine h.1.append happend nofun fun _ hdenies => h.2.2 ?_
    obtain ⟨code, hcode⟩ := hdenies
    exact ⟨code, Option.some.inj hcode⟩
  kept db b l operation effect h := ⟨h.1, h.2.1⟩

theorem keeps_inv {backend : Backend S} (hlawful : backend.Lawful commits) :
    Keeps env (Invariant env.sha256 commits start) backend :=
  ⟨fun actor request => ⟨Inv.outline hlawful actor request⟩,
    fun actor => ⟨Inv.reconciles hlawful actor⟩⟩

theorem Call.Lawful.keeps {call : Call S} (h : call.Lawful commits) :
    call.Keeps env (Invariant env.sha256 commits start) := by
  cases call with
  | execute actor request backend => exact keeps_inv h
  | reconcile actor target id backend => exact keeps_inv h
  | openJournal attach => trivial
  | close => trivial
  | kill => trivial

theorem lawful_none_call (call : Call S) : call.Lawful fun _ _ => False := by
  cases call with
  | execute actor request backend => exact lawful_none backend
  | reconcile actor target id backend => exact lawful_none backend
  | openJournal attach => trivial
  | close => trivial
  | kill => trivial

/-- Every run keeps the invariant that its adapters keep. -/
theorem inv_run {calls : List (Call S)} {w : World S} (hcalls : ∀ call ∈ calls, call.Lawful commits)
    (hw : On (Invariant env.sha256 commits start) w) :
    On (Invariant env.sha256 commits start) (run env w calls) :=
  on_run recoverable_inv (fun _ _ _ => ids_inv) (fun call hcall => (hcalls call hcall).keeps) hw

/-- Whatever the adapters do, their calls are recorded first. -/
theorem inv_run_new (env : Environment) (b : S) (ticks : List Tick) (calls : List (Call S)) :
    On (Invariant env.sha256 (fun _ _ => False) .empty) (run env (.new b ticks) calls) :=
  inv_run (fun call _ => lawful_none_call call) (inv_new b fun _ h => h)

theorem nodup_map_of_nodup_map {α β γ : Type} {f : α → β} {g : α → γ} {l : List α}
    (h : (l.map f).Nodup) (hg : ∀ a ∈ l, ∀ b ∈ l, g a = g b → f a = f b) : (l.map g).Nodup := by
  rw [List.nodup_map_iff_inj_on (List.Nodup.of_map f h)]
  exact fun a ha b hb heq => List.inj_on_of_nodup_map h ha hb (hg a ha b hb heq)

/-- One application for each subject and key. -/
theorem Inv.keys {sha256 : String → Ir.Digest} (h : Inv sha256 commits start db b l) :
    (l.map fun a => (a.subject, a.idempotencyKey)).Nodup := by
  refine nodup_map_of_nodup_map h.distinct fun a ha a' ha' hpair => ?_
  obtain ⟨op, hop, -, hsubject, hkey⟩ := h.known a ha
  obtain ⟨op', hop', -, hsubject', hkey'⟩ := h.known a' ha'
  rw [Prod.mk.injEq] at hpair
  refine h.sound.eq_of_key hop hop' ?_ ?_
  · rw [hsubject, hsubject', hpair.1]
  · rw [hkey, hkey', hpair.2]

end Calls

section Results

variable (env : Environment)

/-- Every command is applied at most once, behind its stored start; no record denies
an effect that was committed, and finished operations stay as they are. -/
theorem journal_at_most_once (b : S) (ticks : List Tick) (calls : List (Call S)) :
    let w := run env (.new b ticks) calls
    (w.applications.map fun a => (a.subject, a.idempotencyKey)).Nodup ∧
    (w.applications.map (·.operation)).Nodup ∧
    (∀ a ∈ w.applications, StartedIn a.stored a) ∧
    (∀ id operation, recorded w.db id = .ok operation → Denied .recovery operation →
      id ∉ w.applications.map (·.operation)) ∧
    (∀ commits : S → Id → Prop, (∀ id, ¬ commits b id) →
      (∀ call ∈ calls, call.Lawful commits) →
      ∀ id operation, recorded w.db id = .ok operation →
        Denied .recovery operation ∨ Denied .reconciled operation → ¬ commits w.backend id) ∧
    ∀ (more : List (Call S)) (id : Id) (operation : Operation),
      recorded w.db id = .ok operation → operation.state.Final →
        recorded (run env w more).db id = .ok operation := by
  intro w
  have hinv : On (Invariant env.sha256 (fun _ _ => False) .empty) w := inv_run_new env b ticks calls
  refine ⟨hinv.keys, hinv.distinct, hinv.stored, hinv.recovery, ?_, ?_⟩
  · intro commits hb hcalls id operation hop hdenied hcommitted
    have hlawful : On (Invariant env.sha256 commits .empty) w := inv_run hcalls (inv_new b hb)
    rcases hdenied with hdenied | hdenied
    · exact hlawful.recovery id operation hop hdenied (hlawful.committed id hcommitted)
    · exact hlawful.reconciled id operation hop hdenied hcommitted
  · intro more id operation hop hfinal
    have hstart : On (Invariant env.sha256 (fun _ _ => False) w.db) w :=
      { hinv with extends_ := .refl w.db }
    have hmore : On (Invariant env.sha256 (fun _ _ => False) w.db) (run env w more) :=
      inv_run (fun call _ => lawful_none_call call) hstart
    obtain ⟨operation', hop', hlater⟩ := hmore.extends_ id operation hop
    rw [hop', hlater.final hfinal]

/-- The reason is not a corrupted store. -/
def Readable {α : Type} (result : Except Stop α) : Prop :=
  result ≠ .error (.failed .invalidStore)

theorem readable_of_triple {α : Type} {P : Assertion S} {Q : α → World S → Prop}
    {R : Stop → Assertion S} {m : Journal S α} (h : Triple (On P) m Q fun e => On (R e))
    (hR : ∀ db b l, ¬ R (.failed .invalidStore) db b l) {w : World S} (hw : On P w) :
    Readable (m w).1 := by
  intro he
  exact hR _ _ _ (h.after_error hw (Prod.ext he rfl))

/-- Appending to sound tables reports no corruption. -/
theorem triple_append_sound (id : Id) (actor : Option Identity) (phase : Phase) (state : State)
    (effect : Option Effect) : Triple (On (Steady.of fun db (_ : S) _ => Sound env.sha256 db))
      (append id actor phase state effect) (fun _ => On fun _ _ _ => True)
      fun e => On fun _ _ _ => e ≠ .failed .invalidStore := by
  refine triple_append (fun _ _ _ _ _ _ _ _ _ _ _ => trivial) (fun e db b l h he heq => ?_)
    (fun e _ _ _ hne _ => hne) fun e _ _ _ hne _ => hne
  cases heq
  rcases recorded_cases h id with hnone | ⟨operation, hop⟩
  · rw [hnone] at he
    cases he
  · rw [hop] at he
    cases he

theorem triple_lookup (actor : Actor) (request : Request) :
    Triple (On (Steady.of fun db (_ : S) _ => Sound env.sha256 db)) (lookup env actor request)
      (fun _ => On fun _ _ _ => True) fun e => On fun _ _ _ => e ≠ .failed .invalidStore := by
  refine triple_query (fun _ _ _ _ _ _ => trivial) (fun e db b l h he heq => ?_)
    fun e _ _ _ hne _ => hne
  cases heq
  rcases lookupIn_cases h actor request with hnone | hconflict | ⟨operation, hop, -⟩
  · rw [hnone] at he
    cases he
  · rw [hconflict] at he
    cases he
  · rw [hop] at he
    cases he

/-- A lookup reads the tables as they are. -/
theorem lookup_world (actor : Actor) (request : Request) (w : World S) :
    (lookup env actor request w).2.db = w.db ∧
      (lookup env actor request w).2.backend = w.backend ∧
      (lookup env actor request w).2.applications = w.applications := by
  have hread : Triple (On (Steady.of fun db b l => db = w.db ∧ b = w.backend ∧ l = w.applications))
      (lookup env actor request)
      (fun _ => On (Steady.of fun db b l => db = w.db ∧ b = w.backend ∧ l = w.applications))
      fun _ => On (Steady.of fun db b l => db = w.db ∧ b = w.backend ∧ l = w.applications) :=
    triple_query (fun _ _ _ _ h _ => h) (fun _ _ _ _ h _ => h) fun _ _ _ _ _ h => h
  exact hread.after ⟨rfl, rfl, rfl⟩

theorem lookup_quiet (actor : Actor) (request : Request) {w : World S}
    (hquiet : w.ticks.head?.all (·.fault = .none)) :
    (lookup env actor request w).1 = (lookupIn env.sha256 w.db actor request).mapError .failed := by
  cases hticks : w.ticks with
  | nil =>
      simp only [lookup, query, tick, Bind.bind, hticks, Tick.quiet]
      rfl
  | cons t rest =>
      have hfault : t.fault = .none := by simpa [hticks] using hquiet
      simp only [lookup, query, tick, Bind.bind, hticks, hfault]
      rfl

/-- Whatever was stored reads back, under every call, and a lookup finds it. -/
theorem journal_readable (b : S) (ticks : List Tick) (calls : List (Call S)) :
    let w := run env (.new b ticks) calls
    (∀ row ∈ w.db.operations, ∃ operation, recorded w.db operation.id = .ok operation ∧
      operation.id.value = row.id ∧
      (w.db.eventsOf row.id).map (·.sequence) = List.range' 1 operation.events.length ∧
      operation.events.length ≤ maxEvents) ∧
    (∀ actor request, Readable (lookup env actor request w).1) ∧
    Readable (openJournal env (.ok ()) w).1 ∧
    (∀ id, Readable (settleInterrupted id w).1) ∧
    (∀ id actor phase state effect, Readable (append id actor phase state effect w).1) ∧
    ∀ actor request, (lookup env actor request w).2.db = w.db ∧
      (w.ticks.head?.all (·.fault = .none) → ∀ id operation, recorded w.db id = .ok operation →
        operation.actor.subject = actor.identity.subject →
        operation.request.idempotencyKey = request.idempotencyKey →
        (lookup env actor request w).1 =
          if operation.request.fingerprint env.sha256 = request.fingerprint env.sha256 then
            .ok (some operation)
          else .error (.failed .conflict)) := by
  intro w
  have hinv : On (Invariant env.sha256 (fun _ _ => False) .empty) w := inv_run_new env b ticks calls
  have hsound : Sound env.sha256 w.db := hinv.sound
  refine ⟨?_, ?_, ?_, ?_, ?_, ?_⟩
  · intro row hrow
    obtain ⟨operation, hop, hcolumns⟩ := hsound.rows row hrow
    refine ⟨operation, hop, hcolumns.id.symm, ?_, recorded_length_le hop⟩
    rw [hcolumns.id, hsound.length_events hop]
    exact hsound.sequences _
  · intro actor request
    exact readable_of_triple (triple_lookup env actor request) (fun _ _ _ hne => hne rfl) hsound
  · have hopen : Triple (On (Invariant env.sha256 (fun (_ : S) _ => False) .empty))
        (openJournal env (.ok ())) (fun _ => On (Invariant env.sha256 (fun _ _ => False) .empty))
        fun e => On (Kept (Invariant env.sha256 (fun _ _ => False) .empty) e) :=
      Triple.bind (triple_returning (Q := fun _ => Invariant env.sha256 (fun _ _ => False) .empty)
        (fun _ _ _ _ _ h => h) nofun) fun _ =>
          triple_recover recoverable_inv env fun _ _ _ => ids_inv
    exact readable_of_triple hopen (fun _ _ _ hkept => hkept.2 rfl) hinv
  · intro id
    exact readable_of_triple (triple_settleInterrupted recoverable_inv id)
      (fun _ _ _ hkept => hkept.2 rfl) hinv
  · intro id actor phase state effect
    exact readable_of_triple (triple_append_sound env id actor phase state effect)
      (fun _ _ _ hne => hne rfl) hsound
  · intro actor request
    refine ⟨(lookup_world env actor request w).1, ?_⟩
    intro hquiet id operation hop hsubject hkey
    obtain rfl := recorded_id hop
    rw [lookup_quiet env actor request hquiet, lookupIn_sound hsound hop hsubject hkey]
    split
    · rfl
    · rfl

end Results

end ResponseGateway.Management
