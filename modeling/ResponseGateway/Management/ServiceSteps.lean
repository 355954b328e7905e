import ResponseGateway.Management.Service

/-!
What a request of the service may do to the journal and to the slots, wherever it is cut.
`Watched` bounds the operations that are queued or running, and every reader saw the truth
so far.
-/

namespace ResponseGateway.Management
open Checked Ir Json Method

section Unsettled

def State.Active (state : State) : Prop := state = .queued ∨ state = .running

/-- The journal has an operation as queued or running. -/
def Unsettled (db : Db) (id : Id) : Prop :=
  ∃ operation, recorded db id = .ok operation ∧ operation.state.Active

theorem Effect.not_active (effect : Effect) : ¬ effect.state.Active := by
  cases effect <;> rintro (h | h) <;> cases h

variable {sha256 : String → Ir.Digest} {db db' : Db} {operation : Operation} {event : Event}

/-- An event settles no operation but its own. -/
theorem unsettled_append (h : Sound sha256 db) (happend : Appends operation event db db') {id : Id}
    (hid : Unsettled db' id) : id = operation.id ∧ event.state.Active ∨ Unsettled db id := by
  obtain ⟨hsame, hothers⟩ := recorded_append h happend.prior happend.admits happend.inserted
  obtain ⟨op, hop, hactive⟩ := hid
  by_cases heq : id = operation.id
  · subst heq
    rw [hsame, Except.ok.injEq] at hop
    rw [← hop] at hactive
    exact .inl ⟨rfl, hactive⟩
  · exact .inr ⟨op, (hothers id heq) ▸ hop, hactive⟩

/-- An operation that is accepted is the only one that becomes queued. -/
theorem unsettled_accept {env : Environment} {actor : Actor} {request : Request} {id : Id}
    {atMs : UInt64} (h : Sound env.sha256 db) (haccept : Accepts env actor request id atMs db db') :
    Sound env.sha256 db' ∧ recorded db' id = .ok (.accepted id actor request atMs) ∧
      id.value ∉ db.operations.map (·.id) ∧
      ∀ id', Unsettled db' id' → id' = id ∨ Unsettled db id' := by
  obtain ⟨db₁, hintent, hevent⟩ := haccept.inserted
  obtain ⟨hnew, hothers⟩ := recorded_accept h hintent hevent
  refine ⟨sound_accept h hintent hevent, hnew, (insertOperation_some hintent).2.2.1, ?_⟩
  rintro id' ⟨op, hop, hactive⟩
  by_cases heq : id' = id
  · exact .inl heq
  · exact .inr ⟨op, (hothers id' heq) ▸ hop, hactive⟩

theorem unsettled_mem {id : Id} (h : Unsettled db id) : id.value ∈ db.operations.map (·.id) := by
  obtain ⟨op, hop, -⟩ := h
  exact mem_ids_of_recorded hop

end Unsettled

section Watching

variable {S : Type} {sha256 : String → Ir.Digest} {holder : Holder}
  {observation : ExecutionObservation} {bound : Id → Prop}

/-- Operations within the bound are shown for what they are. -/
def Shown (holder : Holder) (observation : ExecutionObservation) (bound : Id → Prop) : Prop :=
  holder = .closed ∨ ∀ id, bound id → holder.Executes id ∨ observation.unrecorded = some id

structure Watched (sha256 : String → Ir.Digest) (holder : Holder)
    (observation : ExecutionObservation) (bound : Id → Prop) (db : Db) (s : Service S)
    (l : Log (Service S)) : Prop where
  sound : Sound sha256 db
  seen : ∀ v ∈ l.seen, Truthful v.1 v.2
  holder : s.holder = holder
  execution : s.execution = observation
  unsettled : ∀ id, Unsettled db id → bound id

theorem Watched.truthful {db : Db} {s : Service S} {l : Log (Service S)}
    (h : Watched sha256 holder observation bound db s l)
    (hshown : Shown holder observation bound) : Truthful db s := by
  rw [Truthful, h.holder, h.execution]
  refine hshown.imp id fun hshown id operation hop hactive hnot => ?_
  have hslot : observation.unrecorded = some operation.id := by
    rw [recorded_id hop]
    exact (hshown id (h.unsettled id ⟨operation, hop, hactive⟩)).resolve_left hnot
  simp only [operationView, hslot, hactive, decide_true, Bool.and_self, if_true]

/-- A reader sees the truth where the bound is shown. -/
def watch (S : Type) (sha256 : String → Ir.Digest) (hshown : Shown holder observation bound) :
    Steady (Service S) where
  Holds := Watched sha256 holder observation bound
  look db s l h := { h with
    seen := by
      rw [Log.look, List.forall_mem_append]
      exact ⟨h.seen, List.forall_mem_singleton.2 (h.truthful hshown)⟩ }

/-- Only the holder and the slots are watched. -/
theorem Watched.dispatcher {db : Db} {s : Service S} {l : Log (Service S)} {dispatcher : S}
    (h : Watched sha256 holder observation bound db s l) :
    Watched sha256 holder observation bound db (s.withDispatcher dispatcher) l :=
  ⟨h.sound, h.seen, h.holder, h.execution, h.unsettled⟩

theorem Watched.widen {bound' : Id → Prop} {db : Db} {s : Service S} {l : Log (Service S)}
    (h : Watched sha256 holder observation bound db s l)
    (hbound : ∀ id, Unsettled db id → bound id → bound' id) :
    Watched sha256 holder observation bound' db s l :=
  { h with unsettled := fun id hid => hbound id hid (h.unsettled id hid) }

theorem Watched.append {db db' : Db} {s : Service S} {l : Log (Service S)} {operation : Operation}
    {event : Event} (h : Watched sha256 holder observation bound db s l)
    (happend : Appends operation event db db')
    (hactive : event.state.Active → bound operation.id) :
    Watched sha256 holder observation bound db' s l := by
  refine ⟨sound_append h.sound happend.prior happend.admits happend.inserted, h.seen, h.holder,
    h.execution, fun id hid => ?_⟩
  rcases unsettled_append h.sound happend hid with ⟨rfl, hstate⟩ | hid
  · exact hactive hstate
  · exact h.unsettled id hid

theorem recoverable_watch (hshown : Shown holder observation bound) :
    Recoverable (watch S sha256 hshown) where
  reads db s l id h he := by
    rcases recorded_cases h.sound id with hnone | ⟨op, hop⟩
    · rw [hnone] at he
      cases he
    · rw [hop] at he
      cases he
  records db s l operation effect atMs db' h hrecovers hinsert hadmits :=
    h.append ⟨hrecovers.prior, hadmits, hinsert⟩ fun hactive => absurd hactive effect.not_active

end Watching

section Settling

variable {S : Type} {sha256 : String → Ir.Digest} {I : Steady S}

/-- An operation that is settled is neither queued nor running. -/
theorem triple_settled (hI : Recoverable I) (hsound : ∀ db b l, I db b l → Sound sha256 db) (id : Id) :
    Triple (On I) (settleInterrupted id)
      (fun operation => On (I.with fun db _ _ => recorded db id = .ok operation ∧
        ¬ operation.state.Active)) fun _ => On I := by
  refine Triple.bind ((triple_recorded hI id).weaken (fun _ h => h) (fun _ _ h => h)
    fun _ _ h => h.1) fun operation => ?_
  have hsettle (effect : Effect)
      (heffect : operation.state = .queued ∧ effect = .notApplied .interrupted ∨
        operation.state = .running ∧ effect = .uncertain .interrupted) :
      Triple (On (I.with fun db _ _ => recorded db id = .ok operation))
        (settleInterrupted.settle id effect)
        (fun operation => On (I.with fun db _ _ => recorded db id = .ok operation ∧
          ¬ operation.state.Active)) fun _ => On I := by
    refine Triple.bind (triple_append
      (Q := I.with fun db _ _ => ∀ op, recorded db id = .ok op → ¬ op.state.Active)
      (R := fun _ => I) ?_ (fun _ _ _ _ h _ => h.1) (fun _ _ _ _ _ h => h.1)
      fun _ _ _ _ _ h => h.1) fun _ => ?_
    · rintro db b l op atMs db' ⟨h, hprior⟩ hop hroom hvalid hinsert
      obtain rfl : operation = op := Except.ok.inj (hprior.symm.trans hop)
      obtain rfl := recorded_id hop
      have hadmits : Admits operation (.next operation atMs none .recovery effect.state
        (some effect)) := admits_next (recorded_events_ne_nil hop) hroom hvalid rfl
      refine ⟨hI.records db b l operation effect atMs db' h ⟨hop, heffect⟩ hinsert hadmits,
        fun op' hop' => ?_⟩
      rw [(recorded_append (hsound _ _ _ h) hop hadmits hinsert).1, Except.ok.injEq] at hop'
      rw [← hop']
      exact effect.not_active
    · exact triple_query (fun op _ _ _ h hop => ⟨h.1, hop, h.2 op hop⟩) (fun _ _ _ _ h _ => h.1)
        fun _ _ _ _ _ h => h.1
  cases hstate : operation.state with
  | queued => exact hsettle _ (.inl ⟨hstate, rfl⟩)
  | running => exact hsettle _ (.inr ⟨hstate, rfl⟩)
  | succeeded => exact triple_pure fun _ h => ⟨h.1, h.2, by rw [hstate]; rintro (h | h) <;> cases h⟩
  | failed => exact triple_pure fun _ h => ⟨h.1, h.2, by rw [hstate]; rintro (h | h) <;> cases h⟩
  | uncertain => exact triple_pure fun _ h => ⟨h.1, h.2, by rw [hstate]; rintro (h | h) <;> cases h⟩

end Settling

section Intake

variable {S : Type} {env : Environment} {actor : Actor} {request : Request} {backend : Backend S}
  {start db : Db} {observation : ExecutionObservation}

/-- The operation is that of a request. -/
def Named (actor : Actor) (request : Request) (operation : Operation) : Prop :=
  operation.actor.subject = actor.identity.subject ∧
    operation.request.idempotencyKey = request.idempotencyKey

theorem lookupIn_named (h : Sound env.sha256 db) {known : Option Operation}
    (hlookup : lookupIn env.sha256 db actor request = .ok known) :
    ∀ id operation, recorded db id = .ok operation → Named actor request operation →
      known = some operation := by
  rintro id operation hop ⟨hsubject, hkey⟩
  obtain rfl := recorded_id hop
  rw [lookupIn_sound h hop hsubject hkey] at hlookup
  split at hlookup
  · exact (Except.ok.inj hlookup).symm
  · cases hlookup

theorem triple_releasing {α : Type} {P : World S → Prop} {Q : α → World S → Prop}
    {R : Stop → World S → Prop} {m : Journal S α}
    (h : Triple P m Q fun e w => R e (w.update backend.release)) :
    Triple P (releasing backend m) Q R := by
  intro w hw
  have hrun := h w hw
  rw [releasing]
  match hm : m w with
  | (.ok a, w') =>
      rw [hm] at hrun
      exact hrun
  | (.error e, w') =>
      rw [hm] at hrun
      exact hrun

/-- The bound of an execution: what waited at its start, and what it stores. -/
def Begun (start : Db) (id : Id) : Prop :=
  Unsettled start id ∨ id.value ∉ start.operations.map (·.id)

/-- The slot holds what waited at the start. -/
def Waiting (start : Db) (observation : ExecutionObservation) : Prop :=
  ∀ id, Unsettled start id → observation.unrecorded = some id

theorem shown_begun (h : Waiting start observation) :
    Shown (.executing start) observation (Begun start) :=
  .inr fun id hid => hid.symm.imp (fun hnew => ⟨start, rfl, hnew⟩) (h id)

theorem shown_unsettled (h : Waiting start observation) :
    Shown (.executing start) observation (Unsettled start) := .inr fun id hid => .inr (h id hid)

/-- What an intake leaves. -/
def Taken (sha256 : String → Ir.Digest) (actor : Actor) (request : Request) (start : Db)
    (observation : ExecutionObservation) : Operation ⊕ Id → Assertion (Service S)
  | .inl operation => fun db s l =>
      Watched sha256 (.executing start) observation (Unsettled start) db s l ∧
        recorded db operation.id = .ok operation ∧ ¬ operation.state.Active ∧
        ∀ id op, recorded start id = .ok op → Named actor request op → id = operation.id
  | .inr id => fun db s l =>
      Watched sha256 (.executing start) observation (Begun start) db s l ∧
        id.value ∉ start.operations.map (·.id) ∧
        (∃ op, recorded db id = .ok op ∧ op.actor = actor.identity) ∧
        (∀ id', Unsettled db id' → id' = id ∨ Unsettled start id') ∧
        ∀ id' op, recorded start id' = .ok op → ¬ Named actor request op
variable (actor request backend) in

theorem triple_intake (hwaiting : Waiting start observation) :
    Triple (On ((watch S env.sha256 (shown_unsettled hwaiting)).with fun db _ _ => db = start))
      (intake env actor request backend.bound)
      (fun taken => On (Taken env.sha256 actor request start observation taken))
      fun _ => On (watch S env.sha256 (shown_begun hwaiting)) := by
  have hbegun : ∀ {db s l}, Watched env.sha256 (.executing start) observation (Unsettled start) db
      s l → Watched (S := S) env.sha256 (.executing start) observation (Begun start) db s l :=
    fun h => h.widen fun _ _ hid => .inl hid
  refine Triple.bind (triple_returning
    (Q := fun _ => (watch S env.sha256 (shown_unsettled hwaiting)).with fun db _ _ => db = start)
    (R := fun _ => watch S env.sha256 (shown_begun hwaiting))
    (fun _ _ _ _ _ h => h) fun _ _ _ _ _ h => hbegun h.1) fun _ => ?_
  refine Triple.bind (triple_returning (R := fun _ => watch S env.sha256 (shown_begun hwaiting))
    (Q := fun grant => ((watch S env.sha256 (shown_unsettled hwaiting)).with
      fun db _ _ => db = start).with fun _ _ _ => grant = ⟨request.action, request.target⟩)
    (fun grant _ _ _ hgrant h => ⟨h, (Actor.authorize_ok hgrant).1⟩)
    fun _ _ _ _ _ h => hbegun h.1) fun grant => ?_
  refine Triple.bind (triple_query (R := fun _ => watch S env.sha256 (shown_begun hwaiting))
    (Q := fun known => (((watch S env.sha256 (shown_unsettled hwaiting)).with
      fun db _ _ => db = start).with fun _ _ _ => grant = ⟨request.action, request.target⟩).with
        fun _ _ _ => lookupIn env.sha256 start actor request = .ok known)
    (fun known _ _ _ h hlookup => ⟨h, h.1.2 ▸ hlookup⟩) (fun _ _ _ _ h _ => hbegun h.1.1)
    fun _ _ _ _ _ h => hbegun h.1.1) fun known => ?_
  intro w hw
  obtain ⟨⟨⟨hwatched, hstart⟩, rfl⟩, hlookup⟩ := hw
  have hnamed := lookupIn_named (hstart ▸ hwatched.sound) hlookup
  have hw : On ((watch S env.sha256 (shown_unsettled hwaiting)).with fun db _ _ => db = start) w :=
    ⟨hwatched, hstart⟩
  clear hwatched hstart
  revert w
  cases known with
  | some operation =>
      refine Triple.bind ((triple_settled (recoverable_watch (shown_unsettled hwaiting))
        (fun _ _ _ h => h.sound) operation.id).weaken (fun _ h => h.1) (fun _ _ h => h)
        fun _ _ h => hbegun h) fun settled => triple_pure fun w h => ?_
      obtain ⟨hwatched, hop, hsettled⟩ := h
      have hid := recorded_id hop
      refine ⟨hwatched, hid ▸ hop, hsettled, fun id op hread hname => ?_⟩
      have hsame := Option.some.inj (hnamed id op hread hname)
      rw [hid, hsame, recorded_id hread]
  | none =>
      refine Triple.bind (triple_consult (R := fun _ => watch S env.sha256 (shown_begun hwaiting))
        (P := ((watch S env.sha256 (shown_unsettled hwaiting)).with fun db _ _ => db = start).Holds)
        (Q := fun _ => (watch S env.sha256 (shown_unsettled hwaiting)).with fun db _ _ => db = start)
        (fun _ _ _ _ h _ => ⟨h.1.dispatcher, h.2⟩) fun _ _ _ _ h _ => (hbegun h.1).dispatcher)
        fun before => ?_
      have hstored : Triple
          (On ((watch S env.sha256 (shown_unsettled hwaiting)).with fun db _ _ => db = start))
          (do returning (rejectIf (before ≠ request.expected) .conflict)
              accept env actor request ⟨request.action, request.target⟩)
          (fun id => On (Taken env.sha256 actor request start observation (.inr id)))
          fun _ => On (Guarded (watch S env.sha256 (shown_begun hwaiting)) backend.bound) := by
        refine Triple.bind (triple_returning
          (Q := fun _ => (watch S env.sha256 (shown_unsettled hwaiting)).with
            fun db _ _ => db = start)
          (R := fun _ => Guarded (watch S env.sha256 (shown_begun hwaiting)) backend.bound)
          (fun _ _ _ _ _ h => h) fun _ _ _ _ _ h => (hbegun h.1).dispatcher) fun _ => ?_
        refine triple_accept
          (R := fun _ => Guarded (watch S env.sha256 (shown_begun hwaiting)) backend.bound) ?_
          (fun _ _ _ _ h => (hbegun h.1).dispatcher) fun _ _ _ _ _ h => h.1.dispatcher
        rintro db s l id atMs db' ⟨hwatched, rfl⟩ haccept
        obtain ⟨hsound, hnew, hfresh, hothers⟩ := unsettled_accept hwatched.sound haccept
        refine ⟨⟨hsound, hwatched.seen, hwatched.holder, hwatched.execution, fun id' hid' => ?_⟩,
          hfresh, ⟨_, hnew, rfl⟩, hothers, fun id' op hop hname => nomatch hnamed id' op hop hname⟩
        rcases hothers id' hid' with rfl | hid'
        · exact .inr hfresh
        · exact .inl hid'
      exact Triple.bind (triple_releasing hstored) fun id => triple_pure fun _ h => h

end Intake

section Announcing

variable {S : Type} {env : Environment} {actor : Actor} {request : Request}

/-- The part of `execute` behind the intake of a new operation. -/
def announced (actor : Actor) (request : Request) (backend : Backend S) (id : Id) :
    Journal S Operation := do
  let effect ← ensuring (do
      write fun w => { w with backend := backend.accepted id w.backend }
      append id (some actor.identity) .started .running none
      apply backend actor request id)
    fun w => { w with backend := backend.release w.backend }
  mapErr (Stop.map fun _ => .uncertain id.value)
    (append id (some actor.identity) .finished effect.state (some effect))
  mapErr (Stop.map fun _ => .uncertain id.value) (query (recorded · id))

theorem execute_eq (env : Environment) (actor : Actor) (request : Request) (backend : Backend S) :
    execute env actor request backend = (do
      let taken ← intake env actor request backend
      match taken with
      | .inl operation => pure operation
      | .inr id => announced actor request backend id) := by
  funext w
  simp only [execute, intake, Bind.bind]
  cases hvalidate : (returning request.validate : Journal S Unit) w with
  | mk result w₁ =>
  cases result with
  | error e => rfl
  | ok _ =>
  cases hgrant : (returning (actor.authorize request.action request.target) :
      Journal S Grant) w₁ with
  | mk result w₂ =>
  cases result with
  | error e => simp only [hgrant]
  | ok grant =>
  simp only [hgrant]
  cases hknown : lookup env actor request w₂ with
  | mk result w₃ =>
  cases result with
  | error e => simp only
  | ok known =>
  cases known with
  | some operation =>
      simp only
      cases settleInterrupted operation.id w₃ with
      | mk result w₄ => cases result <;> rfl
  | none =>
      simp only
      cases consult (backend.prepare request) w₃ with
      | mk result w₄ =>
      cases result with
      | error e => rfl
      | ok before =>
      simp only [ensuring, applyPrepared, releasing, Bind.bind, Pure.pure, announced]
      cases (returning (rejectIf (decide (before ≠ request.expected)) .conflict) :
          Journal S Unit) w₄ with
      | mk result w₅ =>
      cases result with
      | error e => rfl
      | ok _ =>
      simp only
      cases accept env actor request grant w₅ with
      | mk result w₆ =>
      cases result with
      | error e => rfl
      | ok id =>
      simp only [write]
      cases append id (some actor.identity) .started .running none
          { w₆ with backend := backend.accepted id w₆.backend } with
      | mk result w₇ =>
      cases result with
      | error e => rfl
      | ok _ =>
      simp only
      cases apply backend actor request id w₇ with
      | mk result w₈ => cases result <;> rfl

variable {sha256 : String → Ir.Digest} {start : Db} {observation : ExecutionObservation} {id : Id}
  {backend : Backend S}

theorem shown_alone (hfresh : id.value ∉ start.operations.map (·.id))
    (observation : ExecutionObservation) :
    Shown (.executing start) observation (· = id) :=
  .inr fun _ hid => .inl ⟨start, rfl, hid ▸ hfresh⟩

variable (request backend) in
/-- Behind its announcement an operation is in the slot, and alone in the bound. -/
theorem triple_announced (hfresh : id.value ∉ start.operations.map (·.id)) :
    Triple (On ((watch S sha256 (shown_alone hfresh observation)).with fun db _ _ =>
        ∃ op, recorded db id = .ok op ∧ op.actor = actor.identity))
      (announced actor request backend.bound id)
      (fun _ => On (Watched sha256 (.executing start) (.accepted id) fun _ => False))
      fun _ => On (watch S sha256 (shown_alone hfresh (.accepted id))) := by
  -- the announced operation, with its owner
  let W := watch S sha256 (shown_alone hfresh (.accepted id))
  let O := W.with fun db _ _ => ∃ op, recorded db id = .ok op ∧ op.actor = actor.identity
  have happend : ∀ {db s l operation atMs db' phase state effect}, O db s l →
      recorded db id = .ok operation → operation.events.length + 1 ≤ maxEvents →
      validNext operation.state phase state effect = true →
      Writes operation phase (some actor.identity) →
      db.insertEvent ⟨id.value, operation.events.length + 1, json Event.codec
        (.next operation atMs (some actor.identity) phase state effect)⟩ = some db' →
      O db' s l ∧ recorded db' id =
        .ok (operation.push (.next operation atMs (some actor.identity) phase state effect)) := by
    rintro db s l operation atMs db' phase state effect ⟨hW, op, hread, hactor⟩ hop hroom hvalid
      hwrites hinsert
    obtain rfl := Except.ok.inj (hread.symm.trans hop)
    obtain rfl := recorded_id hop
    have happends : Appends op (.next op atMs (some actor.identity) phase state effect) db db' :=
      ⟨hop, admits_next (recorded_events_ne_nil hop) hroom hvalid hwrites, hinsert⟩
    have hnew := (recorded_append hW.sound hop happends.admits hinsert).1
    exact ⟨⟨hW.append happends fun _ => rfl, _, hnew, hactor⟩, hnew⟩
  have howner : ∀ {db s l operation}, O db s l → recorded db id = .ok operation →
      some actor.identity = some operation.actor := by
    rintro db s l operation ⟨-, op, hread, hactor⟩ hop
    rw [← Except.ok.inj (hread.symm.trans hop), hactor]
  have heffect : Triple
      (On ((watch S sha256 (shown_alone hfresh observation)).with fun db _ _ =>
        ∃ op, recorded db id = .ok op ∧ op.actor = actor.identity))
      (do write fun w => { w with backend := backend.bound.accepted id w.backend }
          append id (some actor.identity) .started .running none
          apply backend.bound actor request id)
      (fun _ => On fun db s l => O db (backend.bound.release s) l)
      fun _ => On (Guarded W backend.bound) := by
    refine Triple.bind (triple_write (Q := fun _ => On O) fun w h => ?_) fun _ => ?_
    · exact ⟨⟨h.1.sound, h.1.seen, h.1.holder, rfl, h.1.unsettled⟩, h.2⟩
    refine Triple.bind (triple_append (Q := O) (R := fun _ => Guarded W backend.bound)
      (fun db s l operation atMs db' h hop hroom hvalid hinsert =>
        (happend h hop hroom hvalid (howner h hop) hinsert).1)
      (fun _ _ _ _ h _ => h.1.dispatcher) (fun _ _ _ _ _ h => h.1.dispatcher)
      fun _ _ _ _ _ h => h.1.dispatcher) fun _ => ?_
    have hlogged : ∀ {db s l a}, O db s l → Watched sha256 (.executing start) (.accepted id)
        (· = id) db s (l.apply a) := fun h =>
      ⟨h.1.sound, h.1.seen, h.1.holder, h.1.execution, h.1.unsettled⟩
    exact triple_apply (Q := fun _ db s l => O db (backend.bound.release s) l)
      (R := fun _ => Guarded W backend.bound) id
      (fun _ _ _ h => ⟨(hlogged h).dispatcher.dispatcher, h.2⟩)
      (fun _ _ _ h => (hlogged h).dispatcher.dispatcher)
      fun _ _ _ h => (hlogged h).dispatcher.dispatcher
  refine Triple.bind (triple_ensuring (Q := fun _ => On O) (R := fun _ => On W) heffect)
    fun effect => ?_
  refine Triple.bind (triple_mapErr (triple_append (R := fun _ => W)
    (Q := O.with fun db _ _ => ∀ op, recorded db id = .ok op → ¬ op.state.Active) ?_
    (fun _ _ _ _ h _ => h.1) (fun _ _ _ _ _ h => h.1) fun _ _ _ _ _ h => h.1.1)) fun _ => ?_
  · intro db s l operation atMs db' h hop hroom hvalid hinsert
    obtain ⟨hO, hnew⟩ := happend h hop hroom hvalid (howner h hop) hinsert
    refine ⟨hO, fun op hread => ?_⟩
    rw [hnew, Except.ok.injEq] at hread
    rw [← hread]
    exact effect.not_active
  · refine triple_mapErr (triple_query (R := fun _ => W) (fun operation db s l h hop => ?_)
      (fun _ _ _ _ h _ => h.1.1) fun _ _ _ _ _ h => h.1.1)
    refine h.1.1.widen fun id' hid' heq => ?_
    obtain ⟨op, hread, hactive⟩ := hid'
    exact h.2 op (heq ▸ hread) hactive

end Announcing

end ResponseGateway.Management
