import ResponseGateway.Management.RuntimeSteps

/-!
Runs of the runtime: any calls, in any order, with any contact refused or the last one of a
process. The outcome of a command tells what became of its files, and a receipt never proves
more than was done. The state on the disk can always be opened again, and a candidate whose
file was left behind by an interrupted command can never be staged.
-/

namespace ResponseGateway.Management.RuntimeStore
open Checked Ir Json Method Files

section Worlds

variable (sha256 : Bytes → Ir.Digest)

/-- The directory, and the process that owns it. -/
structure World where
  machine : Machine Path Outside
  runtime : Option Runtime

/-- A prepared command, applied under the identifier of its operation. -/
def execute (request : Request) (command : Command) (transport : Digest) (id : Id) :
    RuntimeMethod Effect := do
  let prepared ← prepareMapped sha256 request command transport
  (prepared.accepted id).apply sha256

inductive Call where
  | opening (registration : Registration)
  | status
  | preparing (request : Request) (command : Command) (transport : Digest)
  | executing (request : Request) (command : Command) (transport : Digest) (id : Id)
  | reconciling (operation : Operation)
  | closing

/-- A call of the process, which may end it. -/
def World.visit {α : Type} (w : World) (m : RuntimeMethod α) : World :=
  match w.runtime with
  | none => w
  | some rt =>
      match m ⟨rt, w.machine⟩ with
      | (.error .ended, host) => ⟨host.machine, none⟩
      | (_, host) => ⟨host.machine, some host.runtime⟩

/-- A new process, while no other one owns the directory. -/
def World.start (w : World) (registration : Registration) : World :=
  match w.runtime with
  | some _ => w
  | none =>
      match openStore sha256 registration w.machine with
      | (.ok rt, machine) => ⟨machine, some rt⟩
      | (.error _, machine) => ⟨machine, none⟩

def step (w : World) : Call → World
  | .opening registration => w.start sha256 registration
  | .status => w.visit (statusOf sha256)
  | .preparing request command transport => w.visit (prepareMapped sha256 request command transport)
  | .executing request command transport id => w.visit (execute sha256 request command transport id)
  | .reconciling operation => w.visit (reconcile sha256 operation)
  | .closing => { w.visit stopOwned with runtime := none }

def run (w : World) (calls : List Call) : World := calls.foldl (step sha256) w

end Worlds

section Executing

variable {α : Type} {sha256 : Bytes → Ir.Digest} {v : View} {state : State}

theorem advanced_some {next : State} (h : state.advanced = some next) :
    state.revision.toNat + 1 = next.revision.toNat ∧
      next = { state with revision := state.revision + 1 } := by
  rw [State.advanced] at h
  split at h
  · next hsmall =>
      cases h
      refine ⟨?_, rfl⟩
      change _ = (state.revision + 1).toNat
      rw [UInt64.toNat_add]
      exact (Nat.mod_eq_of_lt hsmall).symm
  · cases h

/-- The candidates behind a command: those before it, and the one that it stages. -/
theorem get_next {command : Command} {next : State} {id : Id} {c : Candidate}
    (h : command.next state = some next) (hc : next.candidates.get id = some c) :
    state.candidates.get id = some c ∨ ∃ source, command = .stage source id c.rawSha256 := by
  cases command with
  | stage source candidate digest =>
      rw [Command.next] at h
      split at h
      · cases h
      · obtain ⟨-, rfl⟩ := advanced_some h
        rw [OrderedMap.get_insert] at hc
        split at hc
        · next heq =>
            cases hc
            subst heq
            exact .inr ⟨source, rfl⟩
        · exact .inl hc
  | select candidate =>
      rw [Command.next] at h
      split at h
      · obtain ⟨-, rfl⟩ := advanced_some h
        exact .inl hc
      · cases h
  | start =>
      cases h
      exact .inl hc
  | stop =>
      cases h
      exact .inl hc
  | restart =>
      cases h
      exact .inl hc

/-- A command that is saved raises the revision by one. -/
theorem revision_next {command : Command} {next : State} (h : command.next state = some next) :
    next.revision.toNat = state.revision.toNat + if command.isSaved then 1 else 0 := by
  cases command with
  | stage source candidate digest =>
      rw [Command.next] at h
      split at h
      · cases h
      · exact (advanced_some h).1.symm
  | select candidate =>
      rw [Command.next] at h
      split at h
      · exact (advanced_some h).1.symm
      · cases h
  | start =>
      cases h
      rfl
  | stop =>
      cases h
      rfl
  | restart =>
      cases h
      rfl

theorem does_prepareMapped (request : Request) (command : Command) (transport : Digest) :
    Does (· = v) (prepareMapped sha256 request command transport)
      (fun prepared v' => prepared.command = command ∧ v' = v) (· = v) := by
  refine does_read fun rt _ _ _ => ?_
  refine does_check rfl fun _ _ => ?_
  refine does_look (looks_onFiles (quiet_externalChange sha256 rt)) rfl fun _ => ?_
  refine does_check rfl fun _ _ => ?_
  refine does_look (looks_prepareCheck sha256 command) rfl fun _ => ?_
  refine does_look (looks_snapshot sha256) rfl fun before => ?_
  exact triple_pure fun host h => ⟨rfl, h⟩

theorem ends_attempt (m : RuntimeMethod α) : Triple (fun _ => True) (attempt m) (fun _ _ => True)
    fun e _ => e = Halt.ended := by
  intro host _
  rw [attempt]
  rcases m host with ⟨(e | _) | a, host'⟩
  · trivial
  · rfl
  · trivial

/-- An accepted command is answered, unless the process ends. -/
theorem ends_apply (prepared : Prepared) : Triple (fun _ => True) (prepared.apply sha256)
    (fun _ _ => True) fun e _ => e = Halt.ended := by
  rw [Prepared.apply]
  split
  · exact triple_pure fun _ h => h
  · next operation _ =>
    refine Triple.bind (ends_attempt _) fun now => ?_
    split
    · have hupdate : Triple (fun _ => True) (update fun rt => { rt with epoch := operation })
          (fun _ _ => True) fun e _ => e = Halt.ended := fun _ _ => trivial
      refine hupdate.bind fun _ => ?_
      exact Triple.bind (ends_attempt _) fun _ => triple_pure fun _ h => h
    · exact triple_pure fun _ h => h

theorem does_execute (request : Request) (command : Command) (transport : Digest) (id : Id) :
    Does (· = v) (execute sha256 request command transport id) (Tells sha256 command id v)
      (fun v' => v' = v ∨ Unsettled sha256 command id v v') := by
  have hprepared : Does (· = v) (prepareMapped sha256 request command transport)
      (fun prepared v' => prepared.command = command ∧ v' = v)
      (fun v' => v' = v ∨ Unsettled sha256 command id v v') :=
    Triple.weaken (does_prepareMapped request command transport) (fun _ h => h) (fun _ _ h => h)
      fun _ _ h => .inl h
  refine hprepared.bind fun prepared => Does.given ?_
  rintro v₁ ⟨rfl, rfl⟩
  exact does_apply rfl

/-- What an execution has done, by its outcome. -/
def Told (sha256 : Bytes → Ir.Digest) (command : Command) (id : Id) (v : View) :
    Except (Halt Error) Effect → View → Prop
  | .ok (.applied after evidence), v' => Settled sha256 command id v v' after evidence ∧
      after.revision.toNat = v.state.revision.toNat + if command.isSaved then 1 else 0
  | .ok (.notApplied _), v' => v' = v
  | .ok (.uncertain _), v' => Unsettled sha256 command id v v'
  | .error (.failed _), v' => v' = v
  | .error .ended, v' => v' = v ∨ Unsettled sha256 command id v v'

theorem told_of_tells {command : Command} {id : Id} {effect : Effect} {v' : View}
    (h : Tells sha256 command id v effect v') : Told sha256 command id v (.ok effect) v' := by
  cases effect with
  | applied after evidence =>
      refine ⟨h, ?_⟩
      obtain ⟨v₁, hperformed, -, prepared, o, -, hrevision, -, rfl, -⟩ := h
      rw [hrevision]
      exact revision_next hperformed.next
  | notApplied code => exact h
  | uncertain code => exact h

/-- The outcome tells what became of the files: they are as they were behind a refusal, the whole
command was carried out behind its receipt, and anything between the two is uncertain. -/
theorem execution_told (request : Request) (command : Command) (transport : Digest) (id : Id)
    (host : Host) : Told sha256 command id host.view
      (execute sha256 request command transport id host).1
      (execute sha256 request command transport id host).2.view := by
  have hprepared := @does_prepareMapped sha256 host.view request command transport host rfl
  rcases hcall : prepareMapped sha256 request command transport host with ⟨e | prepared, host₁⟩
  · rw [hcall] at hprepared
    have hrun : execute sha256 request command transport id host = (.error e, host₁) :=
      bind_rejects.2 (.inl hcall)
    rw [hrun]
    cases e with
    | failed e => exact hprepared
    | ended => exact .inl hprepared
  · rw [hcall] at hprepared
    have hrun : execute sha256 request command transport id host =
        (prepared.accepted id).apply sha256 host₁ := by
      simp only [execute, bind, hcall]
    obtain ⟨rfl, hview⟩ := hprepared
    have happlied := @does_apply sha256 _ (prepared.accepted id) id rfl host₁ rfl
    have hended := @ends_apply sha256 (prepared.accepted id) host₁ trivial
    rw [hrun, ← hview]
    rcases happly : (prepared.accepted id).apply sha256 host₁ with ⟨e | effect, host₂⟩
    · rw [happly] at happlied hended
      cases hended
      exact happlied
    · rw [happly] at happlied
      exact told_of_tells happlied

end Executing

section Lasting

variable {sha256 : Bytes → Ir.Digest} {d d' : Disk Path} {v v' : View} {state : State}

/-- A state that can be opened: every candidate has its file. -/
structure Stored (sha256 : Bytes → Ir.Digest) (d : Disk Path) (state : State) : Prop where
  lease : (d .lease).isSome = true
  schema : state.schema = stateSchema
  few : state.candidates.size ≤ 128
  selected : ∀ id, state.selected = some id → state.candidates.contains id = true
  files : ∀ id c, state.candidates.get id = some c → ∃ bytes,
    d (candidatePath sha256 id) = some bytes ∧ digestOf sha256 bytes = c.rawSha256 ∧
      bytes.length ≤ maxConfig

/-- The file of a candidate that no state knows. -/
def Orphan (sha256 : Bytes → Ir.Digest) (id : Id) (d : Disk Path) (state : State) : Prop :=
  (d (candidatePath sha256 id)).isSome = true ∧ state.candidates.contains id = false

/-- What the files say of a state, whatever commands do to both. -/
structure Lasting (sha256 : Bytes → Ir.Digest) (J : Disk Path → State → Prop) : Prop where
  extended : ∀ {d d' state}, J d state → Extends d d' → J d' state
  next : ∀ {d d' state next} {command : Command}, J d state → command.next state = some next →
    Extends d d' → (∀ source id digest, command = .stage source id digest →
      Filed sha256 d d' id digest) → J d' next

theorem isSome_extended {path : Path} (hne : path ≠ .state) (h : (d path).isSome = true)
    (hextends : Extends d d') : (d' path).isSome = true := by
  obtain ⟨bytes, hbytes⟩ := Option.isSome_iff_exists.1 h
  rw [hextends path bytes hne hbytes]
  rfl

theorem Stored.extended (h : Stored sha256 d state) (hextends : Extends d d') :
    Stored sha256 d' state := by
  refine ⟨isSome_extended (by intro h; cases h) h.lease hextends, h.schema, h.few, h.selected,
    fun id c hc => ?_⟩
  obtain ⟨bytes, hbytes, hrest⟩ := h.files id c hc
  exact ⟨bytes, hextends _ _ (by intro h; cases h) hbytes, hrest⟩

theorem stored_initial (h : (d .lease).isSome = true) : Stored sha256 d .initial := by
  refine ⟨h, rfl, Nat.zero_le _, fun id h => ?_, fun id c h => ?_⟩
  · cases h
  · cases h

theorem Stored.next {command : Command} {next : State} (h : Stored sha256 d state)
    (hnext : command.next state = some next) (hextends : Extends d d')
    (hfiled : ∀ source id digest, command = .stage source id digest →
      Filed sha256 d d' id digest) : Stored sha256 d' next := by
  have hkept := h.extended hextends
  have hfiles : ∀ id c, next.candidates.get id = some c → ∃ bytes,
      d' (candidatePath sha256 id) = some bytes ∧ digestOf sha256 bytes = c.rawSha256 ∧
        bytes.length ≤ maxConfig := by
    intro id c hc
    rcases get_next hnext hc with hold | ⟨source, hcommand⟩
    · exact hkept.files id c hold
    · exact (hfiled source id c.rawSha256 hcommand).bytes
  cases command with
  | stage source candidate digest =>
      rw [Command.next] at hnext
      split at hnext
      · cases hnext
      · next hfree =>
          rw [Bool.or_eq_true, not_or, Bool.not_eq_true, decide_eq_true_eq, Nat.not_le] at hfree
          obtain ⟨-, rfl⟩ := advanced_some hnext
          refine ⟨hkept.lease, h.schema, (OrderedMap.size_insert_le _ _ _).trans hfree.2,
            fun id hid => ?_, hfiles⟩
          have hold := h.selected id hid
          rw [OrderedMap.contains, Option.isSome_iff_exists] at hold
          obtain ⟨c, hc⟩ := hold
          rw [OrderedMap.contains, OrderedMap.get_insert]
          split
          · rfl
          · rw [hc]
            rfl
  | select candidate =>
      rw [Command.next] at hnext
      split at hnext
      · next hcontains =>
          obtain ⟨-, rfl⟩ := advanced_some hnext
          refine ⟨hkept.lease, h.schema, h.few, fun id hid => ?_, hfiles⟩
          cases hid
          exact hcontains
      · cases hnext
  | start =>
      cases hnext
      exact hkept
  | stop =>
      cases hnext
      exact hkept
  | restart =>
      cases hnext
      exact hkept

theorem lasting_stored (sha256 : Bytes → Ir.Digest) : Lasting sha256 (Stored sha256) :=
  ⟨Stored.extended, Stored.next⟩

/-- A file that is there is in the way of every command that would stage its candidate. -/
theorem lasting_orphan (sha256 : Bytes → Ir.Digest) (id : Id) :
    Lasting sha256 (Orphan sha256 id) := by
  have hpath : candidatePath sha256 id ≠ .state := by
    intro h
    cases h
  refine ⟨fun h hextends => ⟨isSome_extended hpath h.1 hextends, h.2⟩,
    fun h hnext hextends hfiled => ⟨isSome_extended hpath h.1 hextends, ?_⟩⟩
  rename_i d d' state next command
  rw [OrderedMap.contains, Option.isSome_eq_false_iff, Option.isNone_iff_eq_none]
  rw [← Option.not_isSome_iff_eq_none, Option.isSome_iff_exists]
  rintro ⟨c, hc⟩
  rcases get_next hnext hc with hold | ⟨source, hcommand⟩
  · have hunknown := h.2
    rw [OrderedMap.contains, hold] at hunknown
    cases hunknown
  · have hthere := h.1
    rw [(hfiled source id c.rawSha256 hcommand).free] at hthere
    cases hthere

/-- It holds of the state on the disk. -/
def Saved (J : Disk Path → State → Prop) (d : Disk Path) : Prop :=
  ∃ state, d .state = some (State.codec.toBytes state) ∧ J d state

/-- It holds of the state on the disk and of the one that the runtime knows. -/
def View.Holds (J : Disk Path → State → Prop) (v : View) : Prop :=
  Saved J v.disk ∧ J v.disk v.state

variable {J : Disk Path → State → Prop}

theorem Saved.extended (hJ : Lasting sha256 J) (h : Saved J d) (hextends : Extends d d')
    (hstate : d' .state = d .state) : Saved J d' := by
  obtain ⟨state, hbytes, hholds⟩ := h
  exact ⟨state, hstate.trans hbytes, hJ.extended hholds hextends⟩

theorem holds_performed {command : Command} (hJ : Lasting sha256 J) (h : v.Holds J)
    (hperformed : Performed sha256 command v v') : v'.Holds J := by
  have hnext := hJ.next h.2 hperformed.next hperformed.extended hperformed.filed
  refine ⟨?_, hnext⟩
  cases hsaved : command.isSaved with
  | true => exact ⟨_, (hperformed.saved hsaved).2.1, hnext⟩
  | false => exact h.1.extended hJ hperformed.extended (hperformed.idle hsaved).1

theorem holds_cut {command : Command} (hJ : Lasting sha256 J) (h : v.Holds J)
    (hcut : Cut sha256 command v v') : v'.Holds J := by
  obtain ⟨hview, hnear | ⟨state, stateDigest, hperformed⟩⟩ := hcut
  · rw [hview]
    exact ⟨h.1.extended hJ hnear.extended hnear.state, hJ.extended h.2 hnear.extended⟩
  · have hholds := holds_performed hJ h hperformed
    rw [hview]
    exact ⟨hholds.1, hJ.extended h.2 hperformed.extended⟩

theorem started_frame {path : Path} {bytes : Bytes} (hne : path ≠ .state)
    (h : Started d path bytes d') : Extends d d' ∧ d' .state = d .state := by
  rcases h with rfl | ⟨hfree, kept, rfl⟩
  · exact ⟨.refl _, rfl⟩
  · exact ⟨extends_put_new hfree, Disk.put_of_ne _ _ hne.symm⟩

theorem holds_unsettled {command : Command} {id : Id} (hJ : Lasting sha256 J) (h : v.Holds J)
    (hleft : Unsettled sha256 command id v v') : v'.Holds J := by
  rcases hleft with hcut | hperformed | ⟨v₁, hperformed, hview, receipt, -, hstarted⟩
  · exact holds_cut hJ h hcut
  · exact holds_performed hJ h hperformed
  · have hholds := holds_performed hJ h hperformed
    obtain ⟨hextends, hstate⟩ := started_frame (by intro h; cases h) hstarted
    rw [hview]
    exact ⟨hholds.1.extended hJ hextends hstate, hJ.extended hholds.2 hextends⟩

theorem holds_tells {command : Command} {id : Id} {effect : Effect} (hJ : Lasting sha256 J)
    (h : v.Holds J) (htells : Tells sha256 command id v effect v') : v'.Holds J := by
  cases effect with
  | applied after evidence =>
      obtain ⟨v₁, hperformed, hfree, prepared, o, -, -, -, -, -, rfl⟩ := htells
      have hholds := holds_performed hJ h hperformed
      have hstate : (v₁.disk.put (receiptPath sha256 id) (Receipt.codec.toBytes
          (prepared.receipt sha256 id o.revision o))) .state = v₁.disk .state :=
        Disk.put_of_ne v₁.disk _ (by intro h; cases h)
      exact ⟨hholds.1.extended hJ (extends_put_new hfree) hstate,
        hJ.extended hholds.2 (extends_put_new hfree)⟩
  | notApplied code =>
      cases htells
      exact h
  | uncertain code => exact holds_unsettled hJ h htells

end Lasting

section Opening

variable {sha256 : Bytes → Ir.Digest} {d : Disk Path} {α : Type}

theorem readState_ok {bytes : Bytes} {state : State} (h : readState bytes = .ok state) :
    State.codec.toBytes state = bytes := by
  obtain ⟨state', -, h⟩ := bind_ok.1 h
  obtain ⟨_, hchecks, h⟩ := bind_ok.1 h
  cases pure_ok.1 h
  rw [rejectIf_ok] at hchecks
  simp only [Bool.or_eq_false_iff, decide_eq_false_iff_not, not_not] at hchecks
  exact hchecks.1.1.1

/-- A state that could be written is read back. -/
theorem readState_stored {state : State} (h : Stored sha256 d state) :
    readState (State.codec.toBytes state) = .ok state := by
  have hread : State.codec.readBytes (State.codec.toBytes state) = some state :=
    Codec.readBytes_toBytes _ (by decide) state
  have hselected : (state.selected.any fun id => !state.candidates.contains id) = false := by
    cases hsel : state.selected with
    | none => rfl
    | some id =>
        rw [Option.any_some, h.selected id hsel]
        rfl
  have hfew : decide (state.candidates.size > 128) = false :=
    decide_eq_false (Nat.not_lt.2 h.few)
  rw [readState, hread, okOr_some, bind_of_ok, h.schema, hselected, hfew]
  simp

theorem stored_short {state : State} (h : Stored sha256 d state) :
    (State.codec.toBytes state).length ≤ maxConfig := by
  rw [Codec.length_toBytes]
  refine Nat.le_trans (State.within ?_ h.few) (by decide)
  rw [h.schema]
  decide

theorem leaves_ensure {x : Except Error α} {I R : Disk Path → Prop} (hR : ∀ d, I d → R d) :
    Leaves I (ensure x : StoreMethod α) (fun a d => x = .ok a ∧ I d) R :=
  triple_ensure (fun _ _ hx hs => ⟨hx, hs⟩) fun _ hs => hR _ hs

theorem leaves_openStore {registration : Registration} : Leaves (· = d)
    (openStore sha256 registration) (fun rt d' => d' = d ∧
      d .state = some (State.codec.toBytes rt.state)) (· = d) := by
  have hvalid : Quiet (validateRegistration registration) :=
    fixes_probe.bind fun _ => fixes_ensure _
  refine Leaves.bind (leaves_quiet hvalid) fun _ => ?_
  refine Leaves.bind (leaves_quiet fixes_observe) fun _ => ?_
  refine Leaves.bind (leaves_quiet fixes_probe) fun _ => ?_
  refine Leaves.bind leaves_readBounded fun bytes => ?_
  refine Leaves.bind (leaves_ensure fun d' h => h.1) fun state => Leaves.given ?_
  rintro d' ⟨hstate, rfl, hbytes, -⟩
  refine Leaves.bind (leaves_quiet quiet_generatedId) fun controllerId => ?_
  refine Leaves.bind (leaves_quiet quiet_generatedId) fun epoch => ?_
  exact triple_pure fun s hs => ⟨hs, by rw [readState_ok hstate, hbytes]⟩

theorem leaves_createNew {path : Path} {I : Disk Path → Prop} {error : Error}
    (hI : ∀ d, I d → I (d.put path [])) : Leaves I (createNew path error : StoreMethod Unit)
      (fun _ d => I d ∧ (d path).isSome = true) I := by
  refine leaves_call (fun d d' hd heffect => ?_) (fun d hd _ => hd) fun d kept hd => ?_
  · split at heffect
    · cases heffect
    · cases heffect
      exact ⟨hI d hd, by rw [Disk.put_self]; rfl⟩
  · split
    · exact hd
    · exact hI d hd

/-- Nothing is refused any more, and no lease is held. -/
def Calm (s : Machine Path Outside) : Prop :=
  ∀ c ∈ s.contacts, c.luck = .served ∧ c.outside.leaseFree = true

/-- A method that returns a value on these files, when nothing is refused. -/
def Returns (d : Disk Path) (m : StoreMethod α) (Q : α → Prop) : Prop :=
  Triple (fun s => Calm s ∧ s.disk = d) m (fun a s => (Calm s ∧ s.disk = d) ∧ Q a) fun _ _ => False

theorem Returns.bind {β : Type} {m : StoreMethod α} {f : α → StoreMethod β} {Q : α → Prop}
    {Q' : β → Prop} (hm : Returns d m Q) (hf : ∀ a, Q a → Returns d (f a) Q') :
    Returns d (m >>= f) Q' := Triple.bind hm fun a s hs => hf a hs.2 s hs.1

theorem returns_pure {a : α} {Q : α → Prop} (h : Q a) : Returns d (pure a) Q :=
  triple_pure fun _ hs => ⟨hs, h⟩

theorem returns_ensure {x : Except Error α} {a : α} (h : x = .ok a) :
    Returns d (ensure x) (· = a) := by
  subst h
  exact fun s hs => ⟨hs, rfl⟩

theorem returns_contact : Returns d contact
    (fun c => c.luck = .served ∧ c.outside.leaseFree = true) := by
  rintro ⟨disk, contacts⟩ ⟨hcalm, rfl⟩
  cases contacts with
  | nil => exact ⟨⟨hcalm, rfl⟩, rfl, rfl⟩
  | cons c rest =>
      exact ⟨⟨fun c' hc' => hcalm c' (List.mem_cons_of_mem _ hc'), rfl⟩, hcalm c List.mem_cons_self⟩

theorem returns_probe {accepts : Disk Path → Bool} {error : Error} (h : accepts d = true) :
    Returns d (probe accepts error) fun _ => True := by
  refine returns_contact.bind fun c hc => ?_
  rintro s ⟨hcalm, rfl⟩
  simp only [hc.1, h, ↓reduceIte]
  exact ⟨⟨hcalm, trivial⟩, trivial⟩

theorem returns_observe {f : Disk Path → Outside → Except Error α} {error : Error} {a : α}
    (h : ∀ x : Outside, x.leaseFree = true → f d x = .ok a) :
    Returns d (observe f error) (· = a) := by
  refine returns_contact.bind fun c hc => ?_
  rintro s ⟨hcalm, rfl⟩
  simp only [hc.1, h c.outside hc.2]
  exact ⟨⟨hcalm, rfl⟩, rfl⟩

theorem returns_readBounded {path : Path} {bytes : Bytes} {limit : Nat}
    (hbytes : d path = some bytes) (hshort : bytes.length ≤ limit) : Returns d (readBounded path limit) (· = bytes) := by
  refine (returns_probe ?_).bind fun _ _ => ?_
  · rw [hbytes, Option.any_some]
    exact decide_eq_true hshort
  · refine (returns_observe (a := bytes) fun x _ => ?_).bind ?_
    · rw [hbytes]
      rfl
    · rintro _ rfl
      refine (returns_ensure (a := ()) ?_).bind fun _ _ => returns_pure rfl
      rw [rejectIf_ok, decide_eq_false_iff_not, Nat.not_lt]
      exact hshort

/-- The registrations that a runtime accepts. -/
def Registration.isValid (r : Registration) : Bool :=
  r.executable.startsWith "/" && r.sources.size ≤ 128 &&
    (100000000 ≤ r.startupTimeout && r.startupTimeout ≤ 60000000000) &&
    (100000000 ≤ r.stopTimeout && r.stopTimeout ≤ 60000000000)

theorem returns_validateRegistration {r : Registration} (h : r.isValid = true) :
    Returns d (validateRegistration r) fun _ => True := by
  refine (returns_probe rfl).bind fun _ _ => ?_
  have hchecks : rejectIf (!r.executable.startsWith "/" || r.sources.size > 128 ||
      !(100000000 ≤ r.startupTimeout && r.startupTimeout ≤ 60000000000) ||
      !(100000000 ≤ r.stopTimeout && r.stopTimeout ≤ 60000000000)) Error.invalidInput = .ok () := by
    simp only [Registration.isValid, Bool.and_eq_true, decide_eq_true_eq] at h
    obtain ⟨⟨⟨habsolute, hfew⟩, hstart, hstart'⟩, hstop, hstop'⟩ := h
    simp [habsolute, Nat.not_lt.2 hfew, hstart, hstart', hstop, hstop']
  exact Triple.post (returns_ensure hchecks) fun _ _ hs => ⟨hs.1, trivial⟩

theorem returns_generatedId : Returns d generatedId fun _ => True :=
  returns_contact.bind fun _ _ => returns_pure trivial

/-- Whatever happened before, the directory can be opened, and the state is the one on the disk. -/
theorem returns_openStore {r : Registration} {state : State} (hvalid : r.isValid = true)
    (hbytes : d .state = some (State.codec.toBytes state)) (hstored : Stored sha256 d state) :
    Returns d (openStore sha256 r) fun rt => rt.state = state ∧ rt.registration = r ∧
      rt.stateDigest = digestOf sha256 (State.codec.toBytes state) := by
  refine (returns_validateRegistration hvalid).bind fun _ _ => ?_
  refine (returns_observe (a := ()) fun x hx => by rw [hx]; rfl).bind fun _ _ => ?_
  refine (returns_probe hstored.lease).bind fun _ _ => ?_
  refine (returns_readBounded hbytes (stored_short hstored)).bind ?_
  rintro _ rfl
  refine (returns_ensure (readState_stored hstored)).bind ?_
  rintro _ rfl
  refine returns_generatedId.bind fun _ _ => returns_generatedId.bind fun _ _ => ?_
  exact returns_pure ⟨rfl, rfl, rfl⟩

theorem fieldStr_epoch (o : Observation) : o.value.json.fieldStr "epoch" = some o.epoch.value := rfl

theorem field_revision (o : Observation) :
    (o.value.json.field "revision").bind Json.asU64 = some o.revision.toNat := by
  have hfield : o.value.json.field "revision" = some (Codec.u64.encode o.revision) := rfl
  rw [hfield]
  exact asU64_ofNat o.revision.toNat_lt

theorem receipt_short {prepared : Prepared} {id : Id} {o : Observation}
    (hfew : o.candidates.length ≤ 128) :
    (Receipt.codec.toBytes (prepared.receipt sha256 id o.revision o)).length ≤ maxReceipt := by
  rw [Codec.length_toBytes]
  have hsize : o.value.json.size ≤ 22000 := Observation.within hfew
  have hschema : Codec.str.Within 100 evidenceSchema := by decide
  exact Nat.le_trans (Receipt.within hschema hsize) (by decide)

/-- A receipt is read back exactly when its observation was made in the epoch of its operation. -/
theorem readReceipt_written (prepared : Prepared) (operation : Operation) (o : Observation)
    (hrequest : prepared.request = operation.request) :
    readReceipt sha256 operation
      (Receipt.codec.toBytes (prepared.receipt sha256 operation.id o.revision o)) =
        if o.epoch = operation.id then .ok (.applied ⟨o.revision, o.digest sha256⟩
          (digestOf sha256 (Receipt.codec.toBytes
            (prepared.receipt sha256 operation.id o.revision o))))
        else .error .invalidStore := by
  have hread : Receipt.codec.readBytes (Receipt.codec.toBytes
      (prepared.receipt sha256 operation.id o.revision o)) =
        some (prepared.receipt sha256 operation.id o.revision o) :=
    Codec.readBytes_toBytes _ (by decide) _
  have hepoch : (prepared.receipt sha256 operation.id o.revision o).observation.json.fieldStr
      "epoch" = some o.epoch.value := fieldStr_epoch o
  have hrevision : ((prepared.receipt sha256 operation.id o.revision o).observation.json.field
      "revision").bind Json.asU64 = some o.revision.toNat := field_revision o
  have hprint : (prepared.receipt sha256 operation.id o.revision o).requestSha256 =
      operation.request.fingerprint (textHash sha256) := by rw [← hrequest]; rfl
  have hdigest : (prepared.receipt sha256 operation.id o.revision o).after.digest =
      digestOf sha256 (prepared.receipt sha256 operation.id o.revision o).observation.json.bytes :=
    rfl
  have hschema : (prepared.receipt sha256 operation.id o.revision o).schema = evidenceSchema := rfl
  have hid : (prepared.receipt sha256 operation.id o.revision o).operation = operation.id := rfl
  have hafter : (prepared.receipt sha256 operation.id o.revision o).after.revision =
      o.revision := rfl
  rw [readReceipt, hread, okOr_some, bind_of_ok, hepoch, hrevision, hprint, ← hdigest, hschema, hid,
    hafter]
  split
  · next hsame =>
      simp [hsame]
      rfl
  · next hother =>
      have hne : o.epoch.value ≠ operation.id.value := fun h => hother (Id.ext h)
      simp [hne]

/-- A receipt that was written proves its operation again, whenever it is read, exactly if it was
observed in the epoch of the operation: a process that is found to have ended behind the command
gives the runtime a new epoch, and the receipt is refused then. -/
theorem reconciled_again {prepared : Prepared} {operation : Operation} {o : Observation}
    {rt : Runtime} {machine : Machine Path Outside}
    (hrequest : prepared.request = operation.request) (hfew : o.candidates.length ≤ 128)
    (hfile : d (receiptPath sha256 operation.id) =
      some (Receipt.codec.toBytes (prepared.receipt sha256 operation.id o.revision o)))
    (htarget : operation.request.target = rt.registration.target) (hcalm : Calm machine)
    (hdisk : machine.disk = d) : (reconcile sha256 operation ⟨rt, machine⟩).1 =
      if o.epoch = operation.id then .ok (.applied ⟨o.revision, o.digest sha256⟩
        (digestOf sha256 (Receipt.codec.toBytes
          (prepared.receipt sha256 operation.id o.revision o))))
      else .error (.failed .invalidStore) := by
  have hread := returns_readBounded hfile (receipt_short hfew) machine ⟨hcalm, hdisk⟩
  rcases hcall : readBounded (receiptPath sha256 operation.id) maxReceipt machine with
    ⟨e | bytes, machine'⟩
  · rw [hcall] at hread
    cases hread
  · rw [hcall] at hread
    obtain ⟨-, hwritten⟩ := hread
    have hsame : (ensure (rejectIf (decide (operation.request.target ≠ rt.registration.target))
        Error.invalidInput) : RuntimeMethod Unit) ⟨rt, machine⟩ = (.ok (), ⟨rt, machine⟩) := by
      rw [decide_eq_false (not_not.2 htarget)]
      rfl
    have hbytes : onFiles (attempt (readBounded (receiptPath sha256 operation.id) maxReceipt))
        ⟨rt, machine⟩ = (.ok (.ok bytes), ⟨rt, machine'⟩) := by
      simp only [onFiles, attempt, hcall]
    have hrun : reconcile sha256 operation ⟨rt, machine⟩ =
        (ensure (readReceipt sha256 operation bytes) : RuntimeMethod Effect) ⟨rt, machine'⟩ :=
      (bind_after rfl).trans <| (bind_after hsame).trans <| (bind_after hbytes).trans rfl
    rw [hrun, hwritten, readReceipt_written prepared operation o hrequest]
    split
    · rfl
    · rfl

theorem reconciled_again_read : ∃ (operation : Operation) (o : Observation) (rt : Runtime)
    (machine : Machine Path Outside), o.epoch = operation.id ∧
      (reconcile (fun _ => .replicate 32 0) operation ⟨rt, machine⟩).1 =
        .ok (.applied ⟨o.revision, o.digest fun _ => .replicate 32 0⟩
          (digestOf (fun _ => .replicate 32 0) [])) := by
  let id : Id := ⟨"operation", by decide⟩
  let digest : Digest := digestOf (fun _ => .replicate 32 0) []
  let request : Request := ⟨id, .runtimeStop, ⟨0, digest⟩, id, digest⟩
  let operation : Operation := ⟨contract, id, ⟨id, id⟩, ⟨.runtimeStop, id⟩, request, .uncertain, []⟩
  let o : Observation := ⟨[], id, none, none, none, false, id, false, none, .stopped, digest, false,
    0, none, none, digest, none⟩
  let prepared : Prepared := ⟨.stop, request, ⟨0, digest⟩, some id⟩
  let rt : Runtime := ⟨⟨id, "/gateway", digest, id, .empty, .empty, 1000000000, 1000000000⟩,
    .initial, digest, id, id, none⟩
  let left : Disk Path := Disk.put (fun _ => none) (receiptPath (fun _ => .replicate 32 0) id)
    (Receipt.codec.toBytes (prepared.receipt (fun _ => .replicate 32 0) id o.revision o))
  have hfew : o.candidates.length ≤ 128 := Nat.zero_le 128
  have hcalm : Calm ⟨left, []⟩ := fun c hc => by cases hc
  exact ⟨operation, o, rt, ⟨left, []⟩, rfl, reconciled_again rfl hfew (Disk.put_self _ _ _) rfl
    hcalm rfl⟩

end Opening

section Running

variable {sha256 : Bytes → Ir.Digest} {J : Disk Path → State → Prop} {w : World} {α : Type}

/-- It holds of the state on the disk, and of the one that the runtime knows while there is one. -/
def World.Holds (J : Disk Path → State → Prop) (w : World) : Prop :=
  Saved J w.machine.disk ∧ ∀ rt, w.runtime = some rt → J w.machine.disk rt.state

theorem World.Holds.visited {m : RuntimeMethod α} (h : w.Holds J)
    (hm : Does (View.Holds J) m (fun _ => View.Holds J) (View.Holds J)) : (w.visit m).Holds J := by
  cases hruntime : w.runtime with
  | none => simpa only [World.visit, hruntime] using h
  | some rt =>
      have hrun := hm ⟨rt, w.machine⟩ ⟨h.1, h.2 rt hruntime⟩
      rcases hcall : m ⟨rt, w.machine⟩ with ⟨(e | _) | a, host⟩
      all_goals
        rw [hcall] at hrun
        simp only [World.visit, hruntime, hcall]
        refine ⟨hrun.1, fun rt' hrt' => ?_⟩
        cases hrt'
      · exact hrun.2
      · exact hrun.2

theorem World.Holds.looked {m : RuntimeMethod α} (h : w.Holds J) (hm : Looks m) :
    (w.visit m).Holds J := h.visited (does_looks hm fun _ hv => hv)

theorem World.Holds.started (h : w.Holds J) (registration : Registration) :
    (w.start sha256 registration).Holds J := by
  cases hruntime : w.runtime with
  | some rt => simpa only [World.start, hruntime] using h
  | none =>
      have hrun := @leaves_openStore sha256 _ registration w.machine rfl
      rcases hcall : openStore sha256 registration w.machine with ⟨e | rt, machine⟩
      · rw [hcall] at hrun
        simp only [World.start, hruntime, hcall]
        refine ⟨?_, fun rt' hrt' => by cases hrt'⟩
        change Saved J machine.disk
        rw [show machine.disk = w.machine.disk from hrun]
        exact h.1
      · rw [hcall] at hrun
        simp only [World.start, hruntime, hcall]
        obtain ⟨hdisk, hstate⟩ := hrun
        replace hdisk : machine.disk = w.machine.disk := hdisk
        obtain ⟨state, hbytes, hholds⟩ := h.1
        rw [hbytes, Option.some.injEq] at hstate
        rw [State.codec.toBytes_injective hstate] at hholds hbytes
        refine ⟨?_, fun rt' hrt' => ?_⟩
        · change Saved J machine.disk
          rw [hdisk]
          exact ⟨rt.state, hbytes, hholds⟩
        · cases hrt'
          change J machine.disk rt.state
          rw [hdisk]
          exact hholds

/-- No call breaks what lasts, whatever is refused and wherever the process ends. -/
theorem holds_step (hJ : Lasting sha256 J) (h : w.Holds J) (call : Call) :
    (step sha256 w call).Holds J := by
  cases call with
  | opening registration => exact h.started registration
  | status => exact h.looked ((looks_view sha256).bind fun _ => fixes_pure _)
  | preparing request command transport =>
      exact h.looked (looks_prepareMapped sha256 request command transport)
  | executing request command transport id =>
      refine h.visited (Does.given fun v hv => ?_)
      refine Triple.weaken (does_execute request command transport id) (fun _ hs => hs)
        (fun effect host htells => holds_tells hJ hv htells) ?_
      rintro e host (hview | hleft)
      · rw [hview]
        exact hv
      · exact holds_unsettled hJ hv hleft
  | reconciling operation => exact h.looked (looks_reconcile sha256 operation)
  | closing =>
      refine ⟨(h.looked looks_stopOwned).1, fun rt hrt => ?_⟩
      cases hrt

theorem holds_run (hJ : Lasting sha256 J) (h : w.Holds J) (calls : List Call) :
    (run sha256 w calls).Holds J := by
  induction calls generalizing w with
  | nil => exact h
  | cons call rest ih => exact ih (holds_step hJ h call)

theorem stored_made {registration : Registration} {start machine : Machine Path Outside}
    {rt : Runtime} (h : initializeStore sha256 registration start = (.ok rt, machine)) :
    World.Holds (Stored sha256) ⟨machine, some rt⟩ := by
  have hlease : ∀ d : Disk Path, (d .lease).isSome = true →
      Leaves (· = d) (create .state (State.codec.toBytes .initial) Error.invalidStore .storage :
        StoreMethod Unit) (fun _ d' => (d' .lease).isSome = true ∧
          d' .state = some (State.codec.toBytes .initial)) fun _ => True := by
    intro d hd
    refine leaves_create.weaken (fun _ h => h) (fun _ d' hd' => ?_) fun _ _ => trivial
    rw [hd'.2]
    exact ⟨by rwa [put_state (by intro h; cases h)], Disk.put_self _ _ _⟩
  have hrun : Leaves (fun _ => True) (initializeStore sha256 registration) (fun rt d =>
      rt.state = .initial ∧ (d .lease).isSome = true ∧
        d .state = some (State.codec.toBytes .initial)) fun _ => True := by
    have htrue {β : Type} {m : StoreMethod β} : Leaves (fun _ => True) m (fun _ _ => True)
        fun _ => True := by
      intro s _
      rcases m s with ⟨e | b, s'⟩
      · exact trivial
      · exact trivial
    refine Leaves.bind htrue fun _ => Leaves.bind htrue fun _ => Leaves.bind htrue fun _ =>
      Leaves.bind htrue fun _ => Leaves.bind htrue fun _ => ?_
    refine Leaves.bind (leaves_createNew fun _ h => h) fun _ => Leaves.given fun d hd => ?_
    refine Leaves.bind (hlease d hd.2) fun _ => ?_
    have hkeep : Leaves (fun d => (d .lease).isSome = true ∧
        d .state = some (State.codec.toBytes .initial)) generatedId (fun _ d =>
        (d .lease).isSome = true ∧ d .state = some (State.codec.toBytes .initial)) fun _ => True :=
      Triple.weaken (Fixes.triple quiet_generatedId (P := fun d : Disk Path =>
        (d .lease).isSome = true ∧ d .state = some (State.codec.toBytes .initial)))
        (fun _ h => h) (fun _ _ h => h) fun _ _ _ => trivial
    refine Leaves.bind hkeep fun _ => Leaves.bind hkeep fun _ => ?_
    exact triple_pure fun _ h => ⟨rfl, h⟩
  have hdone := hrun start trivial
  rw [h] at hdone
  obtain ⟨hstate, hlease, hbytes⟩ := hdone
  refine ⟨⟨.initial, hbytes, stored_initial hlease⟩, fun rt' hrt' => ?_⟩
  cases hrt'
  rw [hstate]
  exact stored_initial hlease

/-- A directory that every valid registration opens again, with each candidate in its file. -/
def Opens (sha256 : Bytes → Ir.Digest) (d : Disk Path) : Prop :=
  ∃ state, d .state = some (State.codec.toBytes state) ∧ Stored sha256 d state ∧
    ∀ r : Registration, r.isValid = true → Returns d (openStore sha256 r) fun rt =>
      rt.state = state ∧ rt.registration = r ∧
        rt.stateDigest = digestOf sha256 (State.codec.toBytes state)

/-- Once a directory was made it can be opened, whatever is called, whatever is refused on the
way and wherever a process ends. -/
theorem state_survives {registration : Registration} {start machine : Machine Path Outside}
    {rt : Runtime} (h : initializeStore sha256 registration start = (.ok rt, machine))
    (calls : List Call) : Opens sha256 (run sha256 ⟨machine, some rt⟩ calls).machine.disk := by
  have hholds := holds_run (lasting_stored sha256) (stored_made h) calls
  obtain ⟨state, hbytes, hstored⟩ := hholds.1
  exact ⟨state, hbytes, hstored, fun r hvalid => returns_openStore hvalid hbytes hstored⟩

theorem state_survives_closed : ∃ registration rt machine,
    initializeStore (fun _ => .replicate 32 0) registration ⟨fun _ => none, []⟩ = (.ok rt, machine) ∧
      Opens (fun _ => .replicate 32 0)
        (run (fun _ => .replicate 32 0) ⟨machine, some rt⟩ [.closing, .status]).machine.disk := by
  let registration : Registration := {
    target := ⟨"gateway", by decide⟩
    executable := "/gateway"
    executableSha256 := digestOf (fun _ => .replicate 32 0) []
    credentialGeneration := ⟨"first", by decide⟩
    sources := .empty
    environment := .empty
    startupTimeout := 1000000000
    stopTimeout := 1000000000 }
  have hvalid : validateRegistration registration = (do
      probe (fun _ => true) .invalidStore
      ensure (.ok ())) := by
    have habsolute : ("/gateway".startsWith "/") = true := by simp
    have hsources : (OrderedMap.empty : OrderedMap Id Source).size = 0 := rfl
    simp [validateRegistration, registration, habsolute, hsources, rejectIf]
  have hmade : ∃ rt machine, initializeStore (fun _ => .replicate 32 0) registration
      ⟨fun _ => none, []⟩ = (.ok rt, machine) := by
    rw [initializeStore, hvalid]
    exact ⟨_, _, rfl⟩
  obtain ⟨rt, machine, h⟩ := hmade
  exact ⟨registration, rt, machine, h, state_survives h _⟩

/-- The answer of a process to a method. -/
def World.answer (w : World) (m : RuntimeMethod α) : Option α :=
  w.runtime.bind fun rt => (m ⟨rt, w.machine⟩).1.toOption

/-- A candidate whose file was left behind by a command that was cut off is never staged: its
identifier is used up, although no state knows it. -/
theorem orphan_never_staged {id : Id} (h : w.Holds (Orphan sha256 id)) (calls : List Call)
    (request : Request) (source : Id) (digest transport : Digest) (operation : Id) :
    Saved (fun _ state => state.candidates.contains id = false)
      (run sha256 w calls).machine.disk ∧
    ∀ after evidence, (run sha256 w calls).answer
      (execute sha256 request (.stage source id digest) transport operation) ≠
        some (.applied after evidence) := by
  have hholds := holds_run (lasting_orphan sha256 id) h calls
  refine ⟨?_, fun after evidence hanswer => ?_⟩
  · obtain ⟨state, hbytes, horphan⟩ := hholds.1
    exact ⟨state, hbytes, horphan.2⟩
  · obtain ⟨rt, hrt, hok⟩ := Option.bind_eq_some_iff.1 hanswer
    have hrun := @does_execute sha256 _ request (.stage source id digest) transport operation
      ⟨rt, (run sha256 w calls).machine⟩ rfl
    rcases hcall : execute sha256 request (.stage source id digest) transport operation
      ⟨rt, (run sha256 w calls).machine⟩ with ⟨e | effect, host⟩
    · rw [hcall] at hok
      cases hok
    · rw [hcall] at hrun hok
      cases hok
      obtain ⟨v₁, hperformed, -⟩ := hrun
      have hfree := (hperformed.filed source id digest rfl).free
      have hthere := (hholds.2 rt hrt).1
      change (run sha256 w calls).machine.disk (candidatePath sha256 id) = none at hfree
      rw [hfree] at hthere
      cases hthere

theorem orphan_never_staged_left : ∃ (id : Id) (w : World),
    w.Holds (Orphan (fun _ => .replicate 32 0) id) ∧
      Saved (fun _ state => state.candidates.contains id = false)
        (run (fun _ => .replicate 32 0) w [.status, .closing]).machine.disk := by
  let id : Id := ⟨"candidate", by decide⟩
  let left : Disk Path := (Disk.put (fun _ => none) .state (State.codec.toBytes .initial)).put
    (candidatePath (fun _ => .replicate 32 0) id) []
  have hfile : left (candidatePath (fun _ => .replicate 32 0) id) = some [] := Disk.put_self _ _ _
  have horphan : Orphan (fun _ => .replicate 32 0) id left .initial :=
    ⟨by rw [hfile]; rfl, rfl⟩
  have hstate : left .state = some (State.codec.toBytes .initial) :=
    (Disk.put_of_ne _ _ (by intro h; cases h)).trans (Disk.put_self _ _ _)
  have hholds : World.Holds (Orphan (fun _ => .replicate 32 0) id) ⟨⟨left, []⟩, none⟩ :=
    ⟨⟨.initial, hstate, horphan⟩, fun rt hrt => by cases hrt⟩
  exact ⟨id, _, hholds, (orphan_never_staged hholds _
    ⟨id, .configurationStage, ⟨0, digestOf (fun _ => .replicate 32 0) []⟩, id,
      digestOf (fun _ => .replicate 32 0) []⟩ id
    (digestOf (fun _ => .replicate 32 0) []) (digestOf (fun _ => .replicate 32 0) []) id).1⟩

end Running

end ResponseGateway.Management.RuntimeStore
