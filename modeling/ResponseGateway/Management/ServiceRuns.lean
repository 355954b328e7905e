import ResponseGateway.Management.ServiceSteps

/-!
What the service reports of its operations over whole runs. Between two requests the slot
holds the only operation that waits for its record, as long as the requests are orderly; a
start settles whatever an earlier process left.
-/

namespace ResponseGateway.Management
open Checked Ir Json Method

variable {S : Type} {env : Environment} {sha256 : String → Ir.Digest}

section Executions

variable {actor : Actor} {request : Request} {backend : Backend S}
  {completed : Except Stop Operation → S → S} {observation : ExecutionObservation}
  {w w' : World (Service S)} {start : Db}

theorem dropped_of_inactive (h : observation.active = none) : observation.dropped = observation := by
  rw [ExecutionObservation.dropped, h]

/-- What an execution leaves to its guard. -/
structure Executed (sha256 : String → Ir.Digest) (start : Db) (result : Except Stop Operation)
    (w : World (Service S)) (observation : ExecutionObservation) (bound : Id → Prop) : Prop where
  shown : Shown (.executing start) observation bound
  dropped : Shown (.executing start) observation.dropped bound
  watched : On (Watched sha256 (.executing start) observation bound) w
  complete : ∀ operation, result = .ok operation → observation = .completed
  waiting : result ≠ .error .crash → observation.dropped.active = none ∧
    ∀ id, Unsettled w.db id → observation.dropped.unrecorded = some id

theorem On.withDispatcher {holder : Holder} {bound : Id → Prop}
    (h : On (Watched sha256 holder observation bound) w) (f : S → S) :
    On (Watched sha256 holder observation bound)
      (w.update fun s => s.withDispatcher (f s.dispatcher)) :=
  ⟨h.sound, h.seen, h.holder, h.execution, h.unsettled⟩

theorem On.looked {holder : Holder} {bound : Id → Prop}
    (h : On (Watched sha256 holder observation bound) w)
    (hshown : Shown holder observation bound) :
    On (Watched sha256 holder observation bound) w.look :=
  (watch S sha256 hshown).look _ _ _ h

theorem On.withExecution {holder : Holder} {bound : Id → Prop}
    (h : On (Watched sha256 holder observation bound) w) (o : ExecutionObservation) :
    On (Watched sha256 holder o bound) (w.update (·.withExecution o)) :=
  ⟨h.sound, h.seen, h.holder, rfl, h.unsettled⟩

theorem On.withHolder {holder : Holder} {bound : Id → Prop}
    (h : On (Watched sha256 holder observation bound) w) (holder' : Holder) :
    On (Watched sha256 holder' observation bound) (w.update (·.withHolder holder')) :=
  ⟨h.sound, h.seen, rfl, h.execution, h.unsettled⟩

/-- An execution that found its operation, or finished a new one, has no other left. -/
theorem executed_ok {operation : Operation}
    (h : On (Watched sha256 (.executing start) observation fun _ => False) w)
    (hexecute : execute env actor request backend.bound w' = (.ok operation, w)) :
    ∃ result w₁ bound, executed env actor request backend completed w' = (result, w₁) ∧
      Executed sha256 start result w₁ .completed bound := by
  have hshown : ∀ o, Shown (.executing start) o fun _ => False := fun o => .inr fun _ h => h.elim
  have hend := ((h.withDispatcher (completed (.ok operation))).looked (hshown _)).withExecution .completed
  refine ⟨_, _, fun _ => False, by rw [executed, hexecute], hshown _, hshown _, hend,
    fun _ _ => rfl, fun _ => ⟨rfl, fun id hid => (hend.unsettled id hid).elim⟩⟩

/-- An execution that fails leaves its slot to the guard. -/
theorem executed_error {e : Stop} {bound : Id → Prop}
    (h : On (Watched sha256 (.executing start) observation bound) w)
    (hshown : Shown (.executing start) observation bound)
    (hdropped : Shown (.executing start) observation.dropped bound)
    (hwaiting : e ≠ .crash → observation.dropped.active = none ∧
      ∀ id, Unsettled w.db id → observation.dropped.unrecorded = some id)
    (hexecute : execute env actor request backend.bound w' = (.error e, w)) :
    ∃ result w₁ observation bound, executed env actor request backend completed w' = (result, w₁) ∧
      Executed sha256 start result w₁ observation bound := by
  cases e with
  | crash =>
      exact ⟨_, _, observation, bound, by rw [executed, hexecute], hshown, hdropped, h, (fun _ h => by cases h),
        fun hne => absurd rfl hne⟩
  | failed e =>
      refine ⟨_, _, observation, bound, by rw [executed, hexecute], hshown, hdropped,
        h.withDispatcher _, (fun _ h => by cases h), fun _ => hwaiting nofun⟩

variable (completed) in
/-- Behind an orderly intake nothing but the announced operation waits for its record. -/
theorem executed_spec (hwaiting : Waiting start observation) (hactive : observation.active = none)
    (hw : On ((watch S env.sha256 (shown_unsettled hwaiting)).with fun db _ _ => db = start) w)
    (horderly : OrderlyIntake env actor request backend w) :
    ∃ result w' observation bound, executed env actor request backend completed w = (result, w') ∧
      Executed env.sha256 start result w' observation bound := by
  have hstart : w.db = start := hw.2
  have hdropped := dropped_of_inactive hactive
  have htaken := triple_intake actor request backend hwaiting w hw
  rw [OrderlyIntake, hstart] at horderly
  have hexecute := congrFun (execute_eq env actor request backend.bound) w
  simp only [Bind.bind] at hexecute
  match hintake : intake env actor request backend.bound w with
  | (.error e, w₁) =>
      rw [hintake] at htaken horderly hexecute
      refine executed_error htaken (shown_begun hwaiting) (hdropped.symm ▸ shown_begun hwaiting)
        (fun hne => ?_) hexecute
      rw [hdropped]
      refine ⟨hactive, fun id hid => ?_⟩
      cases e with
      | crash => exact absurd rfl hne
      | failed e =>
          have hmem := unsettled_mem hid
          rw [show w₁.db.operations = start.operations from horderly] at hmem
          exact hwaiting id ((htaken.unsettled id hid).resolve_right (not_not_intro hmem))
  | (.ok (.inl operation), w₁) =>
      rw [hintake] at htaken horderly hexecute
      obtain ⟨hwatched, hop, hsettled, hnamed⟩ := htaken
      have hnone : On (Watched env.sha256 (.executing start) observation fun _ => False) w₁ := by
        refine hwatched.widen fun id hid hbegun => ?_
        obtain ⟨op, hread, hstate⟩ := hbegun
        obtain ⟨op', hread', hstate'⟩ := hid
        rw [hnamed id op hread (horderly id op hread hstate), hop, Except.ok.injEq] at hread'
        exact hsettled (hread' ▸ hstate')
      obtain ⟨result, w', bound, hend⟩ := executed_ok hnone hexecute
      exact ⟨result, w', _, bound, hend⟩
  | (.ok (.inr id), w₁) =>
      rw [hintake] at htaken horderly hexecute
      obtain ⟨hwatched, hfresh, howner, hothers, hunnamed⟩ := htaken
      have halone : On ((watch S env.sha256 (shown_alone hfresh observation)).with fun db _ _ =>
          ∃ op, recorded db id = .ok op ∧ op.actor = actor.identity) w₁ := by
        refine ⟨hwatched.widen fun id' hid' _ => ?_, howner⟩
        rcases hothers id' hid' with heq | ⟨op, hread, hstate⟩
        · exact heq
        · exact absurd (horderly id' op hread hstate) (hunnamed id' op hread)
      have hend := triple_announced request backend hfresh w₁ halone
      match hannounced : announced actor request backend.bound id w₁ with
      | (.ok operation, w₂) =>
          rw [hannounced] at hend
          simp only [hannounced] at hexecute
          obtain ⟨result, w', bound, hend⟩ := executed_ok hend hexecute
          exact ⟨result, w', _, bound, hend⟩
      | (.error e, w₂) =>
          rw [hannounced] at hend
          simp only [hannounced] at hexecute
          exact executed_error hend (shown_alone hfresh _) (shown_alone hfresh _)
            (fun _ => ⟨rfl, fun id' hid' => congrArg some (hend.unsettled id' hid').symm⟩) hexecute

/-- What an execution leaves when its guard has ended. -/
structure Over (sha256 : String → Ir.Digest) (start : Db) (result : Except Stop Operation)
    (w : World (Service S)) (observation : ExecutionObservation) (bound : Id → Prop) : Prop where
  shown : Shown (.executing start) observation bound
  watched : On (Watched sha256 (.executing start) observation bound) w
  waiting : result ≠ .error .crash → observation.active = none ∧
    ∀ id, Unsettled w.db id → observation.unrecorded = some id

theorem guarded_spec {m : Journal (Service S) Operation} {result : Except Stop Operation}
    {bound : Id → Prop} (hm : m w = (result, w'))
    (h : Executed sha256 start result w' observation bound) :
    ∃ result w' observation bound, guarded m w = (result, w') ∧
      Over sha256 start result w' observation bound := by
  cases result with
  | ok operation =>
      obtain rfl := h.complete operation rfl
      exact ⟨_, _, _, bound, by rw [guarded, hm], h.shown, h.watched, h.waiting⟩
  | error e =>
      have hlooked : On (Watched sha256 (.executing start) observation bound) w'.look :=
        On.looked h.watched h.shown
      have hslot : w'.look.backend.execution = observation := hlooked.execution
      have hguarded : guarded m w = (.error e,
          w'.look.update fun s => s.withExecution s.execution.dropped) := by rw [guarded, hm]
      refine ⟨_, _, observation.dropped, bound, hguarded, h.dropped, ?_, h.waiting⟩
      exact ⟨hlooked.sound, hlooked.seen, hlooked.holder, congrArg ExecutionObservation.dropped hslot, hlooked.unsettled⟩

/-- The service waits for requests, and its slot holds what waits for a record. -/
def Standing (sha256 : String → Ir.Digest) (w : World (Service S)) : Prop :=
  ∃ observation : ExecutionObservation, observation.active = none ∧
    On (Watched sha256 .idle observation (observation.unrecorded = some ·)) w

theorem shown_standing (observation : ExecutionObservation) :
    Shown .idle observation (observation.unrecorded = some ·) := .inr fun _ hid => .inr hid

/-- What holds between two requests. -/
structure Served (sha256 : String → Ir.Digest) (w : World (Service S)) : Prop where
  watched : ∃ holder observation bound, Shown holder observation bound ∧
    On (Watched sha256 holder observation bound) w
  standing : w.live = true → Standing sha256 w

theorem Standing.served (h : Standing sha256 w) : Served sha256 w := by
  obtain ⟨observation, hactive, hwatched⟩ := h
  exact ⟨⟨_, _, _, shown_standing observation, hwatched⟩, fun _ => ⟨_, hactive, hwatched⟩⟩

theorem served_closed {holder : Holder} {bound : Id → Prop}
    (h : On (Watched sha256 holder observation bound) w) : Served sha256 (closed w) :=
  ⟨⟨.closed, observation, bound, .inl rfl, h.sound, h.seen, rfl, h.execution, h.unsettled⟩, nofun⟩

theorem locked_spec {m : Journal (Service S) Operation} {result : Except Stop Operation}
    {bound : Id → Prop} (hm : m (w.update (·.withHolder (.executing w.db))) = (result, w'))
    (h : Over sha256 w.db result w' observation bound) :
    Served sha256 (afterRequest (locked m) w) := by
  have hlooked := (On.looked h.watched h.shown).withHolder .idle
  have hstanding (hne : result ≠ .error .crash) :
      Standing sha256 (w'.look.update (·.withHolder .idle)) := by
    obtain ⟨hactive, hslot⟩ := h.waiting hne
    exact ⟨observation, hactive, hlooked.sound, hlooked.seen, rfl, hlooked.execution, hslot⟩
  have hlocked : locked m w = (result, w'.look.update (·.withHolder .idle)) := by
    rw [locked, hm]
  rw [afterRequest, hlocked]
  cases result with
  | ok operation => exact (hstanding fun h => by cases h).served
  | error e =>
      cases e with
      | failed e => exact (hstanding fun h => by cases h).served
      | crash => exact served_closed hlooked

end Executions

section Requests

variable {actor : Actor} {request : Request} {backend : Backend S} {checks : Except Error Unit}
  {completed : Except Stop Operation → S → S} {w : World (Service S)}

/-- The lock is taken with the tables as they are. -/
theorem Standing.locking (h : Standing sha256 w) :
    ∃ (observation : ExecutionObservation) (hwaiting : Waiting w.db observation),
      observation.active = none ∧
      On ((watch S sha256 (shown_unsettled hwaiting)).with fun db _ _ => db = w.db)
        (w.update (·.withHolder (.executing w.db))) := by
  obtain ⟨observation, hactive, hwatched⟩ := h
  have hwaiting : Waiting w.db observation := fun id hid => hwatched.unsettled id hid
  exact ⟨observation, hwaiting, hactive,
    ⟨hwatched.sound, hwatched.seen, rfl, hwatched.execution, fun _ hid => hid⟩, rfl⟩

/-- A request that is refused before the journal is called. -/
theorem executed_refused {observation : ExecutionObservation} {start : Db} {e : Error}
    (hwaiting : Waiting start observation) (hactive : observation.active = none)
    (hw : On ((watch S sha256 (shown_unsettled hwaiting)).with fun db _ _ => db = start) w) :
    Executed sha256 start (.error (.failed e)) w observation (Unsettled start) := by
  have hshown := shown_unsettled hwaiting
  refine ⟨hshown, ?_, hw.1, (fun _ h => by cases h), fun _ => ?_⟩
  · rw [dropped_of_inactive hactive]
    exact hshown
  · rw [dropped_of_inactive hactive]
    exact ⟨hactive, fun id hid => hwaiting id (hw.1.unsettled id hid)⟩

theorem returning_bind_error {α : Type} {e : Error} (m : Journal (Service S) α) :
    (do returning (.error e : Except Error Unit); m) w = (.error (.failed e), w) := rfl

theorem returning_bind_ok {α : Type} (m : Journal (Service S) α) :
    (do returning (.ok () : Except Error Unit); m) w = m w := rfl

theorem submit_spec (h : Standing env.sha256 w)
    (horderly : checks = .ok () → OrderlyIntake env actor request backend
      (w.update (·.withHolder (.executing w.db)))) :
    Served env.sha256
      (afterRequest (Service.submit env checks actor request backend completed) w) := by
  obtain ⟨observation, hwaiting, hactive, hw⟩ := h.locking
  cases checks with
  | error e =>
      obtain ⟨_, _, _, _, hguarded, hover⟩ := guarded_spec
        (returning_bind_error (executed env actor request backend completed))
        (executed_refused hwaiting hactive hw)
      exact locked_spec hguarded hover
  | ok u =>
      obtain ⟨_, _, _, _, hexecuted, hend⟩ :=
        executed_spec completed hwaiting hactive hw (horderly rfl)
      obtain ⟨_, _, _, _, hguarded, hover⟩ := guarded_spec
        ((returning_bind_ok (executed env actor request backend completed)).trans hexecuted) hend
      exact locked_spec hguarded hover

theorem deliver_spec (h : Standing env.sha256 w)
    (horderly : checks = .ok () → OrderlyIntake env actor request backend
      (w.update (·.withHolder (.executing w.db)))) :
    Served env.sha256
      (afterRequest (Service.deliver env checks actor request backend completed) w) := by
  obtain ⟨observation, hwaiting, hactive, hw⟩ := h.locking
  cases checks with
  | error e =>
      refine locked_spec (returning_bind_error _) ⟨shown_unsettled hwaiting, hw.1, fun _ => ?_⟩
      exact ⟨hactive, fun id hid => hwaiting id (hw.1.unsettled id hid)⟩
  | ok u =>
      obtain ⟨_, _, _, _, hexecuted, hend⟩ :=
        executed_spec completed hwaiting hactive hw (horderly rfl)
      obtain ⟨_, _, _, _, hguarded, hover⟩ := guarded_spec hexecuted hend
      exact locked_spec ((returning_bind_ok _).trans hguarded) hover

/-- A reconciliation leaves no operation queued or running. -/
def reconciles_watch {observation : ExecutionObservation} (actor : Actor) (backend : Backend S) :
    Reconciles (watch S sha256 (shown_standing observation)) actor backend.bound where
  Answered operation _ := (watch S sha256 (shown_standing observation)).with fun db _ _ =>
    recorded db operation.id = .ok operation
  answered _ _ _ _ _ h hop _ _ := ⟨h.dispatcher, hop⟩
  refused _ _ _ _ _ h _ _ := h.dispatcher
  recorded _ _ _ _ effect _ _ h happend :=
    h.1.append happend fun hactive => absurd hactive effect.not_active
  kept _ _ _ _ _ h := h

theorem reconcile_spec {target id : Id} (h : Standing sha256 w) :
    Served sha256 (afterRequest (Service.reconcile checks actor target id backend) w) := by
  obtain ⟨observation, hactive, hwatched⟩ := h
  have hrun : Triple (On (watch S sha256 (shown_standing observation)))
      (Service.reconcile checks actor target id backend)
      (fun _ => On (watch S sha256 (shown_standing observation)))
      fun _ => On (watch S sha256 (shown_standing observation)) :=
    Triple.bind (triple_returning (Q := fun _ => watch S sha256 (shown_standing observation))
      (R := fun _ => watch S sha256 (shown_standing observation))
      (fun _ _ _ _ _ h => h) fun _ _ _ _ _ h => h) fun _ =>
        triple_reconcile (recoverable_watch (shown_standing observation))
          (reconciles_watch actor backend) target id
  have hend := hrun.after hwatched
  rw [afterRequest]
  match hm : Service.reconcile checks actor target id backend w with
  | (.ok operation, w') =>
      rw [hm] at hend
      exact Standing.served ⟨observation, hactive, hend⟩
  | (.error (.failed e), w') =>
      rw [hm] at hend
      exact Standing.served ⟨observation, hactive, hend⟩
  | (.error .crash, w') =>
      rw [hm] at hend
      exact served_closed hend

end Requests

section Starts

variable {w : World (Service S)}

theorem shown_closed (observation : ExecutionObservation) (bound : Id → Prop) :
    Shown .closed observation bound := .inl rfl

/-- Every turn of the recovery settles one of the operations that were found. -/
theorem triple_settleAll {observation : ExecutionObservation} {values : List String}
    (hvalid : ∀ value ∈ values, isId value = true) :
    Triple (On (watch S sha256 (shown_closed observation (·.value ∈ values))))
      (values.forM fun value => do
        let id ← returning ((Id.new value).mapError fun _ => .invalidStore)
        let _ ← settleInterrupted id
        pure ⟨⟩)
      (fun _ => On (watch S sha256 (shown_closed observation fun _ => False)))
      fun _ => On (watch S sha256 (shown_closed observation fun _ => True)) := by
  induction values with
  | nil => exact triple_pure fun w h => h.widen fun id _ hid => by cases hid
  | cons value rest ih =>
      rw [List.forall_mem_cons] at hvalid
      have hnew : ((Id.new value).mapError fun _ => Error.invalidStore) =
          .ok ⟨value, hvalid.1⟩ := by
        rw [Id.new, dif_pos hvalid.1]
        rfl
      have hwiden : ∀ {db s l} {bound : Id → Prop},
          Watched (S := S) sha256 .closed observation bound db s l →
            Watched sha256 .closed observation (fun _ => True) db s l :=
        fun h => h.widen fun _ _ _ => trivial
      refine Triple.bind (Q := fun _ => On
        (watch S sha256 (shown_closed observation (·.value ∈ rest)))) ?_ fun _ => ih hvalid.2
      refine Triple.bind (triple_returning (Q := fun id =>
        (watch S sha256 (shown_closed observation (·.value ∈ value :: rest))).with
          fun _ _ _ => id = ⟨value, hvalid.1⟩)
        (R := fun _ => watch S sha256 (shown_closed observation fun _ => True))
        (fun id _ _ _ hid h => ⟨h, (Except.ok.inj (hnew.symm.trans hid)).symm⟩)
        fun _ _ _ _ _ h => hwiden h) fun id => ?_
      rintro w ⟨hw, rfl⟩
      revert w
      refine Triple.bind ((triple_settled (recoverable_watch (shown_closed observation _))
        (fun _ _ _ h => h.sound) _).weaken (fun _ h => h) (fun _ _ h => h) fun _ _ h => hwiden h)
        fun operation => triple_pure fun w h => ?_
      obtain ⟨hwatched, hop, hsettled⟩ := h
      refine hwatched.widen fun id hid hmem => (List.mem_cons.1 hmem).resolve_left fun heq => ?_
      obtain ⟨op, hread, hactive⟩ := hid
      obtain rfl : id = ⟨value, hvalid.1⟩ := Id.ext heq
      exact hsettled (Except.ok.inj (hop.symm.trans hread) ▸ hactive)

/-- Behind a start that succeeds no operation waits for its record. -/
theorem start_spec {observation : ExecutionObservation} {bound : Id → Prop}
    {attach : Except Error Unit}
    (h : On (Watched env.sha256 .closed observation bound) (closed w)) :
    Served env.sha256 (afterStart (openJournal env attach) w) := by
  have hopen : Triple (On (watch S env.sha256 (shown_closed observation bound)))
      (openJournal env attach)
      (fun _ => On (watch S env.sha256 (shown_closed observation fun _ => False)))
      fun _ => On (watch S env.sha256 (shown_closed observation fun _ => True)) := by
    have hwiden : ∀ {db s l}, Watched (S := S) env.sha256 .closed observation bound db s l →
        Watched env.sha256 .closed observation (fun _ => True) db s l :=
      fun h => h.widen fun _ _ _ => trivial
    refine Triple.bind (triple_returning
      (Q := fun _ => watch S env.sha256 (shown_closed observation bound))
      (R := fun _ => watch S env.sha256 (shown_closed observation fun _ => True))
      (fun _ _ _ _ _ h => h) fun _ _ _ _ _ h => hwiden h) fun _ => ?_
    refine Triple.bind (triple_query (Q := fun ids =>
        (watch S env.sha256 (shown_closed observation (·.value ∈ env.order ids))).with
          fun _ _ _ => ∀ value ∈ ids, isId value = true)
      (R := fun _ => watch S env.sha256 (shown_closed observation fun _ => True))
      (fun ids db s l h hids => ⟨h.widen fun id hid _ => ?_, ?_⟩) (fun _ _ _ _ h _ => hwiden h)
      fun _ _ _ _ _ h => hwiden h) fun ids => ?_
    · obtain ⟨op, hop, hactive⟩ := hid
      exact (env.perm ids).mem_iff.2 (interrupted_complete h.sound hids hop hactive)
    · obtain ⟨ids', hids', hvalid⟩ := interrupted_ok h.sound
      obtain rfl : ids = ids' := Except.ok.inj (hids.symm.trans hids')
      intro value hvalue
      obtain ⟨row, hrow, rfl⟩ := List.mem_map.1 (hvalid value hvalue)
      obtain ⟨op, -, hcolumns⟩ := h.sound.rows row hrow
      rw [hcolumns.id]
      exact op.id.valid
    · rintro w ⟨hw, hvalid⟩
      exact triple_settleAll (fun value hvalue =>
        hvalid value ((env.perm ids).mem_iff.1 hvalue)) w hw
  have hrun := hopen _ h
  rw [afterStart]
  match hm : openJournal env attach (closed w) with
  | (.ok u, w') =>
      rw [hm] at hrun
      exact Standing.served ⟨.default, rfl, hrun.sound, hrun.seen, rfl, rfl,
        fun id hid => (hrun.unsettled id hid).elim⟩
  | (.error e, w') =>
      rw [hm] at hrun
      exact served_closed hrun

end Starts

section Runs

variable {w : World (Service S)}

theorem served_perform {call : ServiceCall S} (h : Served env.sha256 w)
    (horderly : Orderly env w call) : Served env.sha256 (call.perform env w) := by
  have hserve : ∀ {w' : World (Service S)}, (w.live = true → Served env.sha256 w') →
      Served env.sha256 (if w.live then w' else w) := by
    intro w' hw'
    split
    · next hlive => exact hw' hlive
    · exact h
  cases call with
  | start attach =>
      rw [ServiceCall.perform]
      split
      · exact h
      · obtain ⟨holder, observation, bound, -, hwatched⟩ := h.watched
        exact start_spec (hwatched.withHolder .closed)
  | stop =>
      obtain ⟨holder, observation, bound, -, hwatched⟩ := h.watched
      exact served_closed hwatched
  | submit checks actor request backend completed =>
      exact hserve fun hlive => submit_spec (h.standing hlive) (horderly hlive)
  | deliver checks actor request backend completed =>
      exact hserve fun hlive => deliver_spec (h.standing hlive) (horderly hlive)
  | reconcile checks actor target id backend =>
      exact hserve fun hlive => reconcile_spec (h.standing hlive)
  | preflight prepared =>
      refine hserve fun hlive => ?_
      obtain ⟨observation, hactive, hwatched⟩ := h.standing hlive
      exact Standing.served ⟨observation, hactive, hwatched.withDispatcher prepared⟩

theorem served_run {calls : List (ServiceCall S)} (h : Served env.sha256 w)
    (horderly : OrderlyRun env w calls) : Served env.sha256 (serviceRun env w calls) := by
  induction calls generalizing w with
  | nil => exact h
  | cons call rest ih => exact ih (served_perform h horderly.1) horderly.2

theorem served_serving (env : Environment) (dispatcher : S) (ticks : List Tick) :
    Served env.sha256 (.serving dispatcher ticks) := by
  refine Standing.served ⟨.default, rfl, sound_empty _, nofun, rfl, rfl, fun id hid => ?_⟩
  exact absurd (unsettled_mem hid) List.not_mem_nil

theorem Served.visible (h : Served sha256 w) : ∀ v ∈ w.visible, Truthful v.1 v.2 := by
  obtain ⟨holder, observation, bound, hshown, hwatched⟩ := h.watched
  rw [World.visible, List.forall_mem_append]
  exact ⟨hwatched.seen, List.forall_mem_singleton.2 (hwatched.truthful hshown)⟩

/-- In a run whose requests are orderly, an operation is shown as queued or running only while
the holder of the lock executes it, and as one without a record for as long as the journal has
it as queued or running otherwise. -/
theorem service_truthful (env : Environment) (dispatcher : S) (ticks : List Tick)
    (calls : List (ServiceCall S)) (horderly : OrderlyRun env (.serving dispatcher ticks) calls) :
    ∀ v ∈ (serviceRun env (.serving dispatcher ticks) calls).visible, v.2.holder ≠ .closed →
      ∀ id operation, recorded v.1 id = .ok operation →
        ((operationView v.2.execution operation).observedState.Active → v.2.holder.Executes id) ∧
        (operation.state.Active → ¬ v.2.holder.Executes id →
          operationView v.2.execution operation =
            ⟨operation, .uncertain, some "result_record_missing"⟩) := by
  intro v hv hopen id operation hop
  have htrue := ((served_run (served_serving env dispatcher ticks) horderly).visible v
    hv).resolve_left hopen id operation hop
  refine ⟨fun hshown => ?_, htrue⟩
  by_contra hnot
  have hactive : operation.state.Active := by
    rw [operationView] at hshown
    split at hshown
    · rcases hshown with hshown | hshown <;> cases hshown
    · exact hshown
  rw [htrue hactive hnot] at hshown
  rcases hshown with hshown | hshown <;> cases hshown

end Runs

section Forgotten

def forgetfulEnvironment : Environment := ⟨fun _ => .replicate 32 0, fun ids => ids, fun _ => .refl _⟩

def runtimeTarget : Id := ⟨"t", by decide⟩

def runtimeSnapshot : Snapshot := ⟨0, .of forgetfulEnvironment.sha256 ""⟩

def runtimeActor : Actor :=
  ⟨⟨⟨"s", by decide⟩, ⟨"c", by decide⟩⟩, {⟨.runtimeStart, runtimeTarget⟩}, by decide⟩

def runtimeRequest (key : Id) : Request :=
  ⟨runtimeTarget, .runtimeStart, runtimeSnapshot, key, .of forgetfulEnvironment.sha256 ""⟩

/-- An adapter whose effects succeed. -/
def runtimeBackend : Backend Unit where
  prepare _ s := (.ok runtimeSnapshot, s)
  accepted _ s := s
  apply s := (.applied runtimeSnapshot (.of forgetfulEnvironment.sha256 ""), s)
  torn s := s
  release s := s
  reconcile _ s := (.ok (.uncertain .unverified), s)

def firstId : Id := ⟨"a", by decide⟩

def secondId : Id := ⟨"b", by decide⟩

def startRuntime (id : Id) : ServiceCall Unit :=
  .submit (.ok ()) runtimeActor (runtimeRequest id) runtimeBackend fun _ s => s

/-- The storage fails when the start of an operation is recorded. -/
def failingTicks (id : Id) : List Tick :=
  [.quiet, ⟨.none, 0, id⟩, .quiet, .quiet, ⟨.failed, 0, id⟩]

/-- A start that was not recorded is reported, as long as no other operation is submitted. -/
theorem service_truthful_start :
    let w := serviceRun forgetfulEnvironment (.serving () (failingTicks firstId))
      [startRuntime firstId]
    ∃ operation, recorded w.db firstId = .ok operation ∧ operation.state = .queued ∧
      operationView w.backend.execution operation =
        ⟨operation, .uncertain, some "result_record_missing"⟩ := by
  intro w
  have hnone : ∀ id, recorded Db.empty id = .error .notFound := fun id => rfl
  have horderly : OrderlyRun forgetfulEnvironment (.serving () (failingTicks firstId))
      [startRuntime firstId] := by
    refine ⟨fun _ _ => ?_, trivial⟩
    have hvacuous : ∀ id operation, recorded Db.empty id = .ok operation →
        operation.state = .queued ∨ operation.state = .running →
          operation.actor.subject = runtimeActor.identity.subject ∧
            operation.request.idempotencyKey = (runtimeRequest firstId).idempotencyKey := by
      intro id operation hop
      rw [hnone] at hop
      cases hop
    exact hvacuous
  have haccept : Accepts forgetfulEnvironment runtimeActor (runtimeRequest firstId) firstId 0
      .empty w.db := ⟨⟨_, rfl, rfl⟩⟩
  obtain ⟨-, hop, -⟩ := unsettled_accept (sound_empty _) haccept
  have hview := service_truthful forgetfulEnvironment () (failingTicks firstId)
    [startRuntime firstId] horderly (w.db, w.backend)
    (List.mem_append_right _ (List.mem_singleton_self _)) nofun firstId _ hop
  exact ⟨_, hop, rfl, hview.2 (.inl rfl) fun ⟨_, hholder, _⟩ => by cases hholder⟩

/-- A second operation that is submitted takes the slot of one whose record is missing. -/
theorem service_forgets :
    ¬ ∀ v ∈ (serviceRun forgetfulEnvironment
        (.serving () (failingTicks firstId ++ failingTicks secondId))
        [startRuntime firstId, startRuntime secondId]).visible, v.2.holder ≠ .closed →
      ∀ id operation, recorded v.1 id = .ok operation →
        ((operationView v.2.execution operation).observedState.Active → v.2.holder.Executes id) ∧
        (operation.state.Active → ¬ v.2.holder.Executes id →
          operationView v.2.execution operation =
            ⟨operation, .uncertain, some "result_record_missing"⟩) := by
  intro hall
  obtain ⟨db, hfirst, hsecond⟩ : ∃ db,
      Accepts forgetfulEnvironment runtimeActor (runtimeRequest firstId) firstId 0 .empty db ∧
      Accepts forgetfulEnvironment runtimeActor (runtimeRequest secondId) secondId 0 db
        (serviceRun forgetfulEnvironment
          (.serving () (failingTicks firstId ++ failingTicks secondId))
          [startRuntime firstId, startRuntime secondId]).db :=
    ⟨_, ⟨⟨_, rfl, rfl⟩⟩, ⟨⟨_, rfl, rfl⟩⟩⟩
  obtain ⟨hsound, hop, -⟩ := unsettled_accept (sound_empty _) hfirst
  obtain ⟨_, hintent, hevent⟩ := hsecond.inserted
  have hkept := (recorded_accept hsound hintent hevent).2 firstId (by decide)
  obtain ⟨start, hholder, -⟩ := (hall _ (List.mem_append_right _ (List.mem_singleton_self _)) nofun
    firstId _ (hkept.trans hop)).1 (.inl rfl)
  cases hholder

end Forgotten

end ResponseGateway.Management
