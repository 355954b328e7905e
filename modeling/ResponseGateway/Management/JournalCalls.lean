import ResponseGateway.Management.JournalSteps

/-!
The rules for `execute` and `reconcile`. An `Outline` names what holds at each point
of `execute` where a run may be cut and says what each step between them must keep;
nothing in it mentions ticks or failures. The rules then give the invariant behind
every call, however it ends.
-/

namespace ResponseGateway.Management
open Checked Ir Json Method

variable {S : Type}

/-- The two insertions of `accept`. -/
structure Accepts (env : Environment) (actor : Actor) (request : Request) (id : Id)
    (atMs : UInt64) (db db' : Db) : Prop where
  inserted : ∃ db₁, db.insertOperation ⟨id.value, actor.identity.subject.value,
      request.idempotencyKey.value, (request.fingerprint env.sha256).value,
      json Operation.codec (.intent id actor request ⟨request.action, request.target⟩)⟩ = some db₁ ∧
    db₁.insertEvent ⟨id.value, 1, json Event.codec
      (.acceptedAt atMs actor ⟨request.action, request.target⟩)⟩ = some db'

/-- The insertion of a checked event behind the recorded ones. -/
structure Appends (operation : Operation) (event : Event) (db db' : Db) : Prop where
  prior : recorded db operation.id = .ok operation
  admits : Admits operation event
  inserted : db.insertEvent ⟨operation.id.value, operation.events.length + 1,
    json Event.codec event⟩ = some db'

/-- The assertions of a run of `execute` behind the lookup, and what its steps keep. -/
structure Outline (env : Environment) (I : Steady S) (actor : Actor) (request : Request)
    (backend : Backend S) where
  Prepared : Snapshot → Steady S
  Accepted : Id → Steady S
  Hooked : Id → Steady S
  Started : Id → Steady S
  Released : Id → Effect → Steady S
  prepared : ∀ db b l before, I db b l → (backend.prepare request b).1 = .ok before →
    Prepared before db (backend.prepare request b).2 l
  refused : ∀ db b l e, I db b l → (backend.prepare request b).1 = .error e →
    I db (backend.prepare request b).2 l
  accepted : ∀ db b l id atMs db', Prepared request.expected db b l →
    Accepts env actor request id atMs db db' → Accepted id db' b l
  hooked : ∀ db b l id, Accepted id db b l → Hooked id db (backend.accepted id b) l
  owner : ∀ db b l id operation, Hooked id db b l → recorded db id = .ok operation →
    operation.actor = actor.identity
  started : ∀ db b l id operation atMs db', Hooked id db b l → operation.id = id →
    Appends operation (.next operation atMs (some actor.identity) .started .running none) db db' →
    Started id db' b l
  applied : ∀ db b l id, Started id db b l →
    Released id (backend.apply b).1 db (backend.release (backend.apply b).2)
      (l.apply ⟨actor.identity.subject, request.idempotencyKey, id, db⟩)
  torn : ∀ db b l id, Started id db b l → I db (backend.release (backend.torn b))
    (l.apply ⟨actor.identity.subject, request.idempotencyKey, id, db⟩)
  owner' : ∀ db b l id effect operation, Released id effect db b l →
    recorded db id = .ok operation → operation.actor = actor.identity
  finished : ∀ db b l id effect operation atMs db', Released id effect db b l →
    operation.id = id → Appends operation
      (.next operation atMs (some actor.identity) .finished effect.state (some effect)) db db' →
    I db' b l
  cutPrepared : ∀ db b l before, Prepared before db b l → I db (backend.release b) l
  cutAccepted : ∀ db b l id, Accepted id db b l → I db (backend.release b) l
  cutHooked : ∀ db b l id, Hooked id db b l → I db (backend.release b) l
  cutStarted : ∀ db b l id, Started id db b l → I db (backend.release b) l
  cutReleased : ∀ db b l id effect, Released id effect db b l → I db b l

section Accept

variable {env : Environment} {actor : Actor} {request : Request}

theorem triple_accept {P : Steady S} {Q : Id → Assertion S} {R : Stop → Assertion S}
    (hwrite : ∀ db b l id atMs db', P db b l → Accepts env actor request id atMs db db' →
      Q id db' b l)
    (hkept : ∀ e db b l, P db b l → R e db b l)
    (hlost : ∀ e db b l id, Q id db b l → R e db b l) :
    Triple (On P) (accept env actor request ⟨request.action, request.target⟩)
      (fun id => On (Q id)) fun e => On (R e) := by
  refine Triple.bind (triple_tick.bind fun t => triple_pure (Q := fun _ => On P)
    fun _ h => h) fun id => ?_
  refine Triple.bind (triple_now fun e db b l _ h => hkept e db b l h) fun atMs => ?_
  refine Triple.bind (triple_store (T := Q id) ?_ (fun e db b l _ h => hkept e db b l h)
    fun e db b l _ h => hlost e db b l id h) fun _ => triple_pure fun _ h => h
  intro db b l db' h hinsert
  obtain ⟨db₁, hoperation, hevent⟩ := Option.bind_eq_some_iff.1 hinsert
  exact hwrite db b l id atMs db' h ⟨db₁, hoperation, hevent⟩

theorem triple_apply {P : Steady S} {Q : Effect → Assertion S} {R : Stop → Assertion S}
    {backend : Backend S} (id : Id)
    (happlied : ∀ db b l, P db b l → Q (backend.apply b).1 db (backend.apply b).2
      (l.apply ⟨actor.identity.subject, request.idempotencyKey, id, db⟩))
    (htorn : ∀ db b l, P db b l → R .crash db (backend.torn b)
      (l.apply ⟨actor.identity.subject, request.idempotencyKey, id, db⟩))
    (hcut : ∀ db b l, P db b l → R .crash db (backend.apply b).2
      (l.apply ⟨actor.identity.subject, request.idempotencyKey, id, db⟩)) :
    Triple (On P) (apply backend actor request id) (fun effect => On (Q effect))
      fun e => On (R e) := by
  intro w hw
  have hlook := P.look _ _ _ hw
  have hdone := happlied _ _ _ hlook
  have hbroken := htorn _ _ _ hlook
  have hlost := hcut _ _ _ hlook
  cases hticks : w.ticks with
  | nil => simpa [Management.apply, On, Bind.bind, tick, hticks, Tick.quiet] using hdone
  | cons t rest =>
      cases hfault : t.fault with
      | crash => simpa [Management.apply, On, Bind.bind, tick, hticks, hfault] using hbroken
      | crashAfter => simpa [Management.apply, On, Bind.bind, tick, hticks, hfault] using hlost
      | none => simpa [Management.apply, On, Bind.bind, tick, hticks, hfault] using hdone
      | failed => simpa [Management.apply, On, Bind.bind, tick, hticks, hfault] using hdone
      | lost => simpa [Management.apply, On, Bind.bind, tick, hticks, hfault] using hdone

end Accept

section Execute

variable {env : Environment} {I : Steady S} {actor : Actor} {request : Request}
  {backend : Backend S}

/-- The invariant behind a failure of the guarded part, once the guard is released. -/
def Guarded (I : Steady S) (backend : Backend S) : Assertion S :=
  fun db b l => I db (backend.release b) l

theorem triple_applyPrepared (o : Outline env I actor request backend) (before : Snapshot) :
    Triple (On (o.Prepared before))
      (applyPrepared env backend actor request ⟨request.action, request.target⟩ before)
      (fun result w => On (o.Released result.1 result.2)
        { w with backend := backend.release w.backend })
      fun _ => On (Guarded I backend) := by
  refine Triple.bind (triple_returning (Q := fun _ => o.Prepared request.expected)
    (R := fun _ => Guarded I backend) (fun _ db b l hsame h => ?_)
    fun _ db b l _ h => o.cutPrepared db b l _ h) fun _ => ?_
  · obtain rfl : before = request.expected := by simpa using hsame
    exact h
  refine Triple.bind (triple_accept (Q := fun id => o.Accepted id)
    (R := fun _ => Guarded I backend) o.accepted (fun _ db b l h => o.cutPrepared db b l _ h)
    fun _ => o.cutAccepted) fun id => ?_
  refine Triple.bind (triple_write (Q := fun _ => On (o.Hooked id))
    fun w h => o.hooked _ _ _ _ h) fun _ => ?_
  refine Triple.bind (triple_append (Q := o.Started id) (R := fun _ => Guarded I backend) ?_
    (fun _ db b l h _ => o.cutHooked db b l _ h) (fun _ db b l _ h => o.cutHooked db b l _ h)
    fun _ db b l _ h => o.cutStarted db b l _ h) fun _ => ?_
  · intro db b l operation atMs db' h hop hroom hvalid hinsert
    obtain rfl := recorded_id hop
    have hactor := o.owner db b l _ operation h hop
    exact o.started db b l _ operation atMs db' h rfl ⟨hop, admits_next
      (recorded_events_ne_nil hop) hroom hvalid (congrArg some hactor.symm), hinsert⟩
  have happly : Triple (On (o.Started id)) (apply backend actor request id)
      (fun effect w => On (o.Released id effect)
        { w with backend := backend.release w.backend })
      fun _ => On (Guarded I backend) :=
    triple_apply (Q := fun effect db b l => o.Released id effect db (backend.release b) l)
      (R := fun _ => Guarded I backend) id (fun db b l h => o.applied db b l id h)
      (fun db b l h => o.torn db b l id h)
      fun db b l h => o.cutReleased db _ _ id _ (o.applied db b l id h)
  exact Triple.bind happly fun effect => triple_pure fun _ h => h

/-- The invariant behind `execute`. -/
theorem triple_execute (hI : Recoverable I) (o : Outline env I actor request backend) :
    Triple (On I) (execute env actor request backend) (fun _ => On I) fun _ => On I := by
  refine Triple.bind (triple_returning (Q := fun _ => I) (R := fun _ => I)
    (fun _ _ _ _ _ h => h) fun _ _ _ _ _ h => h) fun _ => ?_
  refine Triple.bind (triple_returning (R := fun _ => I)
    (Q := fun grant => I.with fun _ _ _ => grant = ⟨request.action, request.target⟩)
    (fun grant _ _ _ hgrant h => ⟨h, (Actor.authorize_ok hgrant).1⟩) fun _ _ _ _ _ h => h)
    fun grant => ?_
  refine Triple.bind (triple_query (R := fun _ => I)
    (Q := fun _ => I.with fun _ _ _ => grant = ⟨request.action, request.target⟩)
    (fun _ _ _ _ h _ => h) (fun _ _ _ _ h _ => h.1) fun _ _ _ _ _ h => h.1) fun known => ?_
  cases known with
  | some operation =>
      exact (triple_settleInterrupted hI operation.id).weaken (fun _ h => h.1) (fun _ _ h => h.1)
        fun _ _ h => h.1
  | none =>
      intro w hw
      obtain ⟨hw, rfl⟩ := hw
      revert w
      refine Triple.bind (triple_consult (P := I) (Q := fun before => o.Prepared before) (R := fun _ => I)
        (fun before db b l h hok => o.prepared db b l before h hok)
        fun e db b l h he => o.refused db b l e h he) fun before => ?_
      refine Triple.bind (triple_ensuring (Q := fun result => On (o.Released result.1 result.2))
        (triple_applyPrepared o before)) fun result => ?_
      obtain ⟨id, effect⟩ := result
      refine Triple.bind (triple_mapErr (triple_append (Q := I) (R := fun _ => I) ?_
        (fun _ db b l h _ => o.cutReleased db b l _ _ h)
        (fun _ db b l _ h => o.cutReleased db b l _ _ h) fun _ _ _ _ _ h => h)) fun _ => ?_
      · intro db b l operation atMs db' h hop hroom hvalid hinsert
        obtain rfl := recorded_id hop
        have hactor := o.owner' db b l _ effect operation h hop
        exact o.finished db b l _ effect operation atMs db' h rfl ⟨hop, admits_next
          (recorded_events_ne_nil hop) hroom hvalid (congrArg some hactor.symm), hinsert⟩
      · exact triple_mapErr (triple_query (fun _ _ _ _ h _ => h) (fun _ _ _ _ h _ => h)
          fun _ _ _ _ _ h => h)

end Execute

section Reconcile

variable {I : Steady S} {actor : Actor} {backend : Backend S}

/-- What a reconciliation must keep: the adapter is asked about a recorded uncertain
operation, and its answer is recorded behind the same events. -/
structure Reconciles (I : Steady S) (actor : Actor) (backend : Backend S) where
  Answered : Operation → Effect → Steady S
  answered : ∀ db b l operation effect, I db b l → recorded db operation.id = .ok operation →
    operation.state = .uncertain → (backend.reconcile operation b).1 = .ok effect →
    Answered operation effect db (backend.reconcile operation b).2 l
  refused : ∀ db b l operation e, I db b l → recorded db operation.id = .ok operation →
    (backend.reconcile operation b).1 = .error e → I db (backend.reconcile operation b).2 l
  recorded : ∀ db b l operation effect atMs db', Answered operation effect db b l →
    Appends operation (.next operation atMs (some actor.identity) .reconciled effect.state
      (some effect)) db db' → I db' b l
  kept : ∀ db b l operation effect, Answered operation effect db b l →
    I db b l ∧ Management.recorded db operation.id = .ok operation

/-- The invariant behind `reconcile`. -/
theorem triple_reconcile (hI : Recoverable I) (r : Reconciles I actor backend) (target id : Id) :
    Triple (On I) (reconcile actor target id backend) (fun _ => On I) fun _ => On I := by
  refine Triple.bind (triple_returning (Q := fun _ => I) (R := fun _ => I)
    (fun _ _ _ _ _ h => h) fun _ _ _ _ _ h => h) fun _ => ?_
  refine Triple.bind (triple_query (Q := fun _ => I) (R := fun _ => I) (fun _ _ _ _ h _ => h)
    (fun _ _ _ _ h _ => h) fun _ _ _ _ _ h => h) fun operation => ?_
  refine Triple.bind (triple_returning (Q := fun _ => I) (R := fun _ => I)
    (fun _ _ _ _ _ h => h) fun _ _ _ _ _ h => h) fun _ => ?_
  refine Triple.bind ((triple_settleInterrupted hI id).weaken (fun _ h => h) (fun _ _ h => h)
    fun _ _ h => h.1) fun operation => ?_
  refine Triple.bind (triple_returning (R := fun _ => I)
    (Q := fun _ => (I.with fun db _ _ => recorded db id = .ok operation).with fun _ _ _ =>
      operation.state = .uncertain) (fun _ _ _ _ hstate h => ⟨h, by simpa using hstate⟩)
    fun _ _ _ _ _ h => h.1) fun _ => ?_
  refine Triple.bind (triple_consult (R := fun _ => I)
    (Q := fun effect => (r.Answered operation effect).with fun _ _ _ => operation.id = id)
    ?_ ?_) fun effect => ?_
  · rintro effect db b l ⟨⟨h, hop⟩, hstate⟩ hanswer
    obtain rfl := recorded_id hop
    exact ⟨r.answered db b l operation effect h hop hstate hanswer, rfl⟩
  · rintro e db b l ⟨⟨h, hop⟩, -⟩ he
    obtain rfl := recorded_id hop
    exact r.refused db b l operation e h hop he
  refine Triple.bind (triple_append (Q := I) (R := fun _ => I) ?_
    (fun _ db b l h _ => (r.kept db b l _ _ h.1).1)
    (fun _ db b l _ h => (r.kept db b l _ _ h.1).1) fun _ _ _ _ _ h => h) fun _ => ?_
  · rintro db b l op atMs db' ⟨h, rfl⟩ hop hroom hvalid hinsert
    obtain rfl : operation = op := Except.ok.inj ((r.kept db b l _ _ h).2.symm.trans hop)
    exact r.recorded db b l operation effect atMs db' h
      ⟨hop, admits_next (recorded_events_ne_nil hop) hroom hvalid rfl, hinsert⟩
  exact triple_query (fun _ _ _ _ h _ => h) (fun _ _ _ _ h _ => h) fun _ _ _ _ _ h => h

end Reconcile

section Runs

variable {env : Environment} {I : Steady S}

/-- A backend that keeps the invariant in both of its uses. -/
structure Keeps (env : Environment) (I : Steady S) (backend : Backend S) : Prop where
  execute : ∀ actor request, Nonempty (Outline env I actor request backend)
  reconcile : ∀ actor, Nonempty (Reconciles I actor backend)

/-- The adapters of a call keep the invariant. -/
def Call.Keeps (env : Environment) (I : Steady S) : Call S → Prop
  | .execute _ _ backend | .reconcile _ _ _ backend => Management.Keeps env I backend
  | .openJournal _ | .close | .kill => True

theorem afterCall_on {α : Type} {m : Journal S α}
    (h : Triple (On I) m (fun _ => On I) fun _ => On I) {w : World S} (hw : On I w) :
    On I (afterCall m w) := by
  have hrun := h.after hw
  match hm : m w with
  | (.error .crash, w') =>
      rw [hm] at hrun
      simpa [afterCall, hm, On] using hrun
  | (.error (.failed e), w') =>
      rw [hm] at hrun
      simpa [afterCall, hm, On] using hrun
  | (.ok a, w') =>
      rw [hm] at hrun
      simpa [afterCall, hm, On] using hrun

theorem afterOpen_on {m : Journal S Unit}
    (h : Triple (On I) m (fun _ => On I) fun _ => On I) {w : World S} (hw : On I w) :
    On I (afterOpen m w) := by
  have hrun := h.after hw
  match hm : m w with
  | (.error e, w') =>
      rw [hm] at hrun
      simpa [afterOpen, hm, On] using hrun
  | (.ok a, w') =>
      rw [hm] at hrun
      simpa [afterOpen, hm, On] using hrun

/-- One call keeps the invariant. -/
theorem on_perform (hI : Recoverable I)
    (hids : ∀ db b l, I db b l → ∃ ids, db.interrupted = .ok ids ∧
      ∀ value ∈ ids, isId value = true)
    {w : World S} {call : Call S} (hcall : call.Keeps env I) (hw : On I w) :
    On I (call.perform env w) := by
  cases call with
  | openJournal attach =>
      have hopen : Triple (On I) (Management.openJournal env attach) (fun _ => On I)
          fun _ => On I :=
        Triple.bind (triple_returning (Q := fun _ => I) (R := fun _ => I)
          (fun _ _ _ _ _ h => h) fun _ _ _ _ _ h => h) fun _ =>
          (triple_recover hI env hids).weaken (fun _ h => h) (fun _ _ h => h) fun _ _ h => h.1
      rw [Call.perform]
      split
      · exact hw
      · exact afterOpen_on hopen hw
  | close => exact hw
  | kill => exact hw
  | execute actor request backend =>
      obtain ⟨o⟩ := Management.Keeps.execute hcall actor request
      rw [Call.perform]
      split
      · exact afterCall_on (triple_execute hI o) hw
      · exact hw
  | reconcile actor target id backend =>
      obtain ⟨r⟩ := Management.Keeps.reconcile hcall actor
      rw [Call.perform]
      split
      · exact afterCall_on (triple_reconcile hI r target id) hw
      · exact hw

/-- Every run keeps the invariant, wherever its calls are cut. -/
theorem on_run (hI : Recoverable I)
    (hids : ∀ db b l, I db b l → ∃ ids, db.interrupted = .ok ids ∧
      ∀ value ∈ ids, isId value = true)
    {calls : List (Call S)} (hcalls : ∀ call ∈ calls, call.Keeps env I) {w : World S}
    (hw : On I w) : On I (run env w calls) := by
  induction calls generalizing w with
  | nil => exact hw
  | cons call rest ih =>
      rw [List.forall_mem_cons] at hcalls
      exact ih hcalls.2 (on_perform hI hids hcalls.1 hw)

end Runs

end ResponseGateway.Management
