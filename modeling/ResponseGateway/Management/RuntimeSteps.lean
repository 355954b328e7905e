import ResponseGateway.Management.Runtime

/-!
What the methods of the runtime do to its files. Those that only look leave everything as it
is; a command that changes the state writes its files first and replaces the state last. So a
command that was cut off leaves the old state or the new one, and its receipt comes behind
everything else.
-/

namespace ResponseGateway.Management.RuntimeStore
open Checked Ir Json Method Files

section Looking

variable {α : Type} (sha256 : Bytes → Ir.Digest)

/-- What the runtime knows of the state, and the files. -/
structure View where
  registration : Registration
  state : State
  stateDigest : Digest
  disk : Disk Path

def Host.view (h : Host) : View :=
  ⟨h.runtime.registration, h.runtime.state, h.runtime.stateDigest, h.machine.disk⟩

/-- A method that reads the files at most. -/
abbrev Quiet (m : StoreMethod α) : Prop := Fixes Machine.disk m

abbrev Looks (m : RuntimeMethod α) : Prop := Fixes Host.view m

theorem looks_onFiles {m : StoreMethod α} (h : Quiet m) : Looks (onFiles m) := fun host => by
  rw [Host.view, Host.view, onFiles, h host.machine]

theorem looks_current : Looks current := fun _ => rfl

theorem looks_update {f : Runtime → Runtime} (h : ∀ rt, (f rt).registration = rt.registration ∧
    (f rt).state = rt.state ∧ (f rt).stateDigest = rt.stateDigest) : Looks (update f) := by
  intro host
  obtain ⟨hregistration, hstate, hdigest⟩ := h host.runtime
  simp only [Host.view, update, hregistration, hstate, hdigest]

theorem quiet_readBounded (path : Path) (limit : Nat) : Quiet (readBounded path limit) :=
  fixes_probe.bind fun _ => fixes_readFile.bind fun _ => (fixes_ensure _).bind fun _ => fixes_pure _

theorem quiet_readSource (path : String) (limit : Nat) : Quiet (readSource path limit) :=
  fixes_observe.bind fun _ => (fixes_ensure _).bind fun _ => fixes_pure _

theorem quiet_hashFile (path : String) : Quiet (hashFile sha256 path) :=
  (quiet_readSource _ _).bind fun _ => fixes_pure _

theorem quiet_generatedId : Quiet generatedId := fixes_contact.bind fun _ => fixes_pure _

theorem quiet_leaseFree : Quiet leaseFree := fixes_probe.bind fun _ => fixes_observe

theorem quiet_candidate (rt : Runtime) (id : Id) : Quiet (rt.candidate sha256 id) :=
  (fixes_ensure _).bind fun _ => (fixes_ensure _).bind fun _ => (quiet_readBounded _ _).bind fun _ =>
    (fixes_ensure _).bind fun _ => fixes_observe

theorem quiet_desired (rt : Runtime) : Quiet (rt.desired sha256) :=
  (fixes_ensure _).bind fun _ => quiet_candidate sha256 rt _

theorem quiet_externalChange (rt : Runtime) : Quiet (rt.externalChange sha256) :=
  (quiet_readBounded _ _).attempt.bind fun _ => fixes_pure _

theorem quiet_ownership (rt : Runtime) : Quiet (ownership rt) := by
  rw [ownership]
  split
  · exact fixes_pure _
  · exact quiet_leaseFree.bind fun _ => fixes_pure _

theorem looks_refreshChild : Looks refreshChild := by
  refine looks_current.bind fun rt => ?_
  split
  · refine (looks_onFiles fixes_observe).bind fun exited => ?_
    split
    · exact (looks_onFiles quiet_generatedId).bind fun _ => looks_update fun _ => ⟨rfl, rfl, rfl⟩
    · exact fixes_pure _
  · exact fixes_pure _

theorem looks_view : Looks (view sha256) :=
  looks_refreshChild.bind fun _ => looks_current.bind fun rt =>
    (looks_onFiles (quiet_desired sha256 rt).attempt).bind fun _ =>
    (looks_onFiles (quiet_ownership rt)).bind fun _ =>
    (looks_onFiles (quiet_externalChange sha256 rt)).bind fun _ => fixes_pure _

theorem looks_observation : Looks (observation sha256) :=
  (looks_view sha256).bind fun _ => looks_current.bind fun _ => fixes_pure _

theorem looks_snapshot : Looks (snapshot sha256) :=
  (looks_observation sha256).bind fun _ => looks_current.bind fun _ => fixes_pure _

/-- The test whether the lease is free, and the error if it is not. -/
theorem looks_leaseChecked : Looks (onFiles leaseFree >>= fun free =>
    ensure (rejectIf (!free) .conflict)) :=
  (looks_onFiles quiet_leaseFree).bind fun _ => fixes_ensure _

theorem looks_stopOwned : Looks stopOwned := by
  refine looks_current.bind fun rt => ?_
  cases rt.owned with
  | none => exact looks_leaseChecked
  | some owned =>
      refine Fixes.bind (looks_update ?_) fun _ => ?_
      · exact fun _ => ⟨rfl, rfl, rfl⟩
      refine (looks_onFiles fixes_observe).attempt.bind fun ending => ?_
      rcases ending with e | (_ | _ | _)
      · exact fixes_throwing _
      · exact fixes_pure _
      · exact fixes_throwing _
      · refine Fixes.bind (looks_update ?_) fun _ => fixes_throwing _
        exact fun _ => ⟨rfl, rfl, rfl⟩

theorem looks_awaitReady (inspected : Inspection) (instanceId : Id) :
    Looks (awaitReady inspected instanceId) :=
  (looks_onFiles fixes_observe).bind fun _ => (fixes_ensure _).bind fun _ =>
    (fixes_ensure _).bind fun _ => (looks_onFiles fixes_observe).bind fun _ =>
    (fixes_ensure _).bind fun _ => looks_update fun _ => ⟨rfl, rfl, rfl⟩

theorem looks_launchable (fresh : Bool) : Looks (prepareCheck.launchable sha256 fresh) := by
  refine looks_refreshChild.bind fun _ => looks_current.bind fun rt => (fixes_ensure _).bind fun _ => ?_
  have hrest : Looks (do
      let inspected ← onFiles (rt.desired sha256)
      let _ ← ensure (rt.registration.environmentOf inspected)
      let executable ← onFiles (hashFile sha256 rt.registration.executable)
      ensure (rejectIf (executable ≠ rt.registration.executableSha256) .conflict)) :=
    (looks_onFiles (quiet_desired sha256 rt)).bind fun _ => (fixes_ensure _).bind fun _ =>
      (looks_onFiles (quiet_hashFile sha256 _)).bind fun _ => fixes_ensure _
  split
  · exact hrest
  · exact (looks_onFiles quiet_leaseFree).bind fun _ => (fixes_ensure _).bind fun _ => hrest

theorem looks_prepareCheck (command : Command) : Looks (prepareCheck sha256 command) := by
  cases command with
  | stage source candidate sourceSha256 =>
      exact looks_current.bind fun rt => (fixes_ensure _).bind fun _ => (fixes_ensure _).bind fun _ =>
        (looks_onFiles (quiet_hashFile sha256 _)).bind fun _ => (fixes_ensure _).bind fun _ =>
        (looks_onFiles (quiet_readSource _ _)).bind fun _ =>
        (looks_onFiles fixes_observe).bind fun _ => fixes_pure _
  | select candidate =>
      exact looks_current.bind fun rt =>
        (looks_onFiles (quiet_candidate sha256 rt candidate)).bind fun _ => fixes_pure _
  | start => exact looks_launchable sha256 true
  | restart => exact looks_launchable sha256 false
  | stop =>
      refine looks_refreshChild.bind fun _ => looks_current.bind fun rt => ?_
      split
      · exact fixes_pure _
      · exact looks_leaseChecked

/-- The preparation of a command changes nothing that is kept. -/
theorem looks_prepareMapped (request : Request) (command : Command) (transport : Digest) :
    Looks (prepareMapped sha256 request command transport) :=
  looks_current.bind fun rt => (fixes_ensure _).bind fun _ =>
    (looks_onFiles (quiet_externalChange sha256 rt)).bind fun _ => (fixes_ensure _).bind fun _ =>
    (looks_prepareCheck sha256 command).bind fun _ => (looks_snapshot sha256).bind fun _ => fixes_pure _

theorem looks_reconcile (operation : Operation) : Looks (reconcile sha256 operation) := by
  refine looks_current.bind fun rt => (fixes_ensure _).bind fun _ =>
    (looks_onFiles (quiet_readBounded _ _).attempt).bind fun bytes => ?_
  cases bytes with
  | error e => exact fixes_pure _
  | ok bytes => exact fixes_ensure _

end Looking

section Changing

variable {α β : Type} {sha256 : Bytes → Ir.Digest} {d d' d'' : Disk Path} {v v' : View}

/-- From a view with `I`, what a method leaves with a result and wherever it is cut. -/
def Does (I : View → Prop) (m : RuntimeMethod α) (Q : α → View → Prop) (R : View → Prop) : Prop :=
  Triple (fun h => I h.view) m (fun a h => Q a h.view) fun _ h => R h.view

theorem Does.bind {I R : View → Prop} {Q : α → View → Prop} {Q' : β → View → Prop}
    {m : RuntimeMethod α} {f : α → RuntimeMethod β} (hm : Does I m Q R)
    (hf : ∀ a, Does (Q a) (f a) Q' R) : Does I (m >>= f) Q' R := Triple.bind hm hf

theorem Does.given {I R : View → Prop} {Q : α → View → Prop} {m : RuntimeMethod α}
    (h : ∀ v, I v → Does (· = v) m Q R) : Does I m Q R := fun host hI => h host.view hI host rfl

theorem does_looks {m : RuntimeMethod α} (h : Looks m) {I R : View → Prop} (hR : ∀ v, I v → R v) :
    Does I m (fun _ => I) R :=
  Triple.weaken h.triple (fun _ hs => hs) (fun _ _ hs => hs) fun _ _ hs => hR _ hs

section Sequences

variable {Q : β → View → Prop} {R : View → Prop}

theorem does_read {f : Runtime → RuntimeMethod β} (h : ∀ rt, rt.registration = v.registration →
    rt.state = v.state → rt.stateDigest = v.stateDigest → Does (· = v) (f rt) Q R) :
    Does (· = v) (current >>= f) Q R := by
  rintro host rfl
  exact h host.runtime rfl rfl rfl host rfl

theorem does_look {m : RuntimeMethod α} {f : α → RuntimeMethod β} (hm : Looks m) (hR : R v)
    (h : ∀ a, Does (· = v) (f a) Q R) : Does (· = v) (m >>= f) Q R :=
  (does_looks hm fun _ hv => hv ▸ hR).bind h

theorem does_check {x : Except Error α} {f : α → RuntimeMethod β} (hR : R v)
    (h : ∀ a, x = .ok a → Does (· = v) (f a) Q R) : Does (· = v) (ensure x >>= f) Q R :=
  Triple.bind (triple_ensure (Q := fun a host => x = .ok a ∧ host.view = v)
    (fun _ _ hx hs => ⟨hx, hs⟩) fun _ hs => hs ▸ hR) fun a host hs => h a hs.1 host hs.2

theorem does_files {m : StoreMethod α} {f : α → RuntimeMethod β} {Q' : α → Disk Path → Prop}
    {R' : Disk Path → Prop} (hm : Leaves (· = v.disk) m Q' R')
    (hR : ∀ d, R' d → R { v with disk := d })
    (h : ∀ a d, Q' a d → Does (· = { v with disk := d }) (f a) Q R) :
    Does (· = v) (onFiles m >>= f) Q R := by
  refine Triple.bind (Q := fun a host => host.view = { v with disk := host.view.disk } ∧
    Q' a host.view.disk) ?_ fun a host hs => h a host.view.disk hs.2 host hs.1
  rintro host rfl
  have hrun := hm host.machine rfl
  rw [onFiles]
  rcases hcall : m host.machine with ⟨e | a, machine⟩
  · rw [hcall] at hrun
    exact hR _ hrun
  · rw [hcall] at hrun
    exact ⟨rfl, hrun⟩

theorem does_update {f : Runtime → Runtime} {Q : Unit → View → Prop}
    (h : ∀ rt, rt.registration = v.registration → Q () { v with
      registration := (f rt).registration
      state := (f rt).state
      stateDigest := (f rt).stateDigest }) : Does (· = v) (update f) Q R := by
  rintro host rfl
  exact h host.runtime rfl

end Sequences

theorem leaves_quiet {m : StoreMethod α} (h : Quiet m) :
    Leaves (· = d) m (fun _ d' => d' = d) (· = d) := Fixes.triple h (P := (· = d))

/-- Every file but the state stays as it is. -/
def Extends (d d' : Disk Path) : Prop := ∀ path bytes, path ≠ .state → d path = some bytes →
  d' path = some bytes

theorem Extends.refl (d : Disk Path) : Extends d d := fun _ _ _ h => h

theorem Extends.trans (h : Extends d d') (h' : Extends d' d'') : Extends d d'' :=
  fun path bytes hne hpath => h' path bytes hne (h path bytes hne hpath)

theorem extends_put_new {path : Path} {bytes : Bytes} (h : d path = none) :
    Extends d (d.put path bytes) := by
  intro other bytes' _ hother
  rw [Disk.put_of_ne, hother]
  rintro rfl
  rw [h] at hother
  cases hother

theorem extends_put_state (d : Disk Path) (bytes : Bytes) : Extends d (d.put .state bytes) :=
  fun _ _ hne hpath => by rw [Disk.put_of_ne _ _ hne, hpath]

theorem put_state {d : Disk Path} {path : Path} (h : path ≠ .state) (bytes : Bytes) :
    d.put .state bytes path = d path := Disk.put_of_ne d bytes h

/-- A file beside the state and the receipts. -/
def Path.isSide : Path → Bool
  | .state | .evidence _ => false
  | _ => true

/-- Files were added beside the state and the receipts. -/
structure Near (d d' : Disk Path) : Prop where
  extended : Extends d d'
  state : d' .state = d .state
  evidence : ∀ name, d' (.evidence name) = d (.evidence name)

theorem Near.refl (d : Disk Path) : Near d d := ⟨.refl d, rfl, fun _ => rfl⟩

theorem Near.trans (h : Near d d') (h' : Near d' d'') : Near d d'' :=
  ⟨h.extended.trans h'.extended, h'.state.trans h.state,
    fun name => (h'.evidence name).trans (h.evidence name)⟩

theorem near_put {path : Path} {bytes : Bytes} (hside : path.isSide = true) (h : d path = none) :
    Near d (d.put path bytes) := by
  refine ⟨extends_put_new h, Disk.put_of_ne _ _ ?_, fun name => Disk.put_of_ne _ _ ?_⟩
  · rintro rfl
    cases hside
  · rintro rfl
    cases hside

theorem near_started {path : Path} {bytes : Bytes} (hside : path.isSide = true)
    (h : Started d path bytes d') : Near d d' := by
  rcases h with rfl | ⟨hfree, kept, rfl⟩
  · exact .refl d'
  · exact near_put hside hfree

theorem leaves_readBounded {path : Path} {limit : Nat} : Leaves (· = d) (readBounded path limit)
    (fun bytes d' => d' = d ∧ d path = some bytes ∧ bytes.length ≤ limit) (· = d) := by
  refine (leaves_probe fun _ h => h).bind fun _ => ?_
  refine ((leaves_readFile fun _ h => h.1)).bind fun bytes => ?_
  refine Triple.bind (triple_ensure (Q := fun _ s => s.disk = d ∧ d path = some bytes ∧
    bytes.length ≤ limit) (fun _ s hshort hs => ?_) fun s hs => hs.1.1) fun _ => ?_
  · rw [rejectIf_ok, decide_eq_false_iff_not, Nat.not_lt] at hshort
    obtain ⟨⟨rfl, -⟩, hread⟩ := hs
    exact ⟨rfl, hread, hshort⟩
  · exact triple_pure fun _ h => h

theorem leaves_readSource {path : String} {limit : Nat} : Leaves (· = d) (readSource path limit)
    (fun bytes d' => d' = d ∧ bytes.length ≤ limit) (· = d) := by
  refine Leaves.bind (leaves_observe (fun _ h => h) (Q := fun _ d' => d' = d)
    fun _ _ _ h _ => h) fun bytes => ?_
  refine Triple.bind (triple_ensure (Q := fun _ s => s.disk = d ∧ bytes.length ≤ limit)
    (fun _ s hshort hs => ?_) fun s hs => hs) fun _ => ?_
  · rw [rejectIf_ok, decide_eq_false_iff_not, Nat.not_lt] at hshort
    exact ⟨hs, hshort⟩
  · exact triple_pure fun _ h => h

/-- The state on the disk has the digest that the runtime knows. -/
def Agrees (sha256 : Bytes → Ir.Digest) (v : View) : Prop :=
  ∃ bytes, v.disk .state = some bytes ∧ digestOf sha256 bytes = v.stateDigest

theorem leaves_attempt_readBounded {path : Path} {limit : Nat} : Leaves (· = d)
    (attempt (readBounded path limit)) (fun result d' => d' = d ∧ ∀ bytes, result = .ok bytes →
      d path = some bytes) (· = d) := by
  refine triple_attempt (Triple.weaken leaves_readBounded (fun _ h => h) ?_ ?_)
  · rintro bytes s ⟨hdisk, hread, -⟩
    refine ⟨hdisk, fun bytes' hbytes => ?_⟩
    cases hbytes
    exact hread
  · intro e s hdisk
    refine ⟨fun error => ⟨hdisk, fun bytes hbytes => ?_⟩, hdisk⟩
    cases hbytes

theorem leaves_externalChange {rt : Runtime} : Leaves (· = d) (rt.externalChange sha256)
    (fun changed d' => d' = d ∧ (changed = false →
      ∃ bytes, d .state = some bytes ∧ digestOf sha256 bytes = rt.stateDigest)) (· = d) := by
  refine Triple.bind leaves_attempt_readBounded fun result => ?_
  refine triple_pure fun s hs => ⟨hs.1, fun hchanged => ?_⟩
  cases result with
  | error e => cases hchanged
  | ok bytes => exact ⟨bytes, hs.2 bytes rfl, by simpa using hchanged⟩

theorem leaves_retainManifest {inspection : Inspection} :
    Leaves (· = d) (retainManifest sha256 inspection) (fun _ d' => Near d d') (Near d) := by
  have hsame : ∀ d', d' = d → Near d d' := fun d' h => h ▸ .refl d
  refine Leaves.bind (leaves_isThere (I := (· = d)) hsame) fun there => ?_
  split
  · refine Leaves.bind ((leaves_quiet (quiet_readBounded _ _)).weaken (fun _ h => h) (fun _ _ h => h)
      hsame) fun kept => ?_
    exact Triple.bind (triple_ensure (Q := fun _ s => s.disk = d) (fun _ _ _ h => h)
      fun _ h => hsame _ h) fun _ => triple_pure fun _ h => hsame _ h
  · refine Leaves.bind (leaves_create.weaken (fun _ h => h) (fun _ _ h => h)
      fun _ h => near_started rfl h) fun _ => ?_
    exact triple_pure fun s hs => by
      rw [hs.2]
      exact near_put rfl hs.1

/-- The commands that change the state. -/
def Command.isSaved : Command → Bool
  | .stage .. | .select _ => true
  | _ => false

/-- The state behind a command that was carried out. -/
def Command.next : Command → State → Option State
  | .stage source candidate sourceSha256, state =>
      if state.candidates.contains candidate || state.candidates.size ≥ 128 then none
      else state.staged candidate ⟨source, sourceSha256⟩
  | .select candidate, state =>
      if state.candidates.contains candidate then state.chosen candidate else none
  | _, state => some state

/-- A file was free and has the bytes of this digest now. -/
structure Filed (sha256 : Bytes → Ir.Digest) (d d' : Disk Path) (id : Id) (digest : Digest) :
    Prop where
  free : d (candidatePath sha256 id) = none
  bytes : ∃ bytes, d' (candidatePath sha256 id) = some bytes ∧ digestOf sha256 bytes = digest ∧
    bytes.length ≤ maxConfig

/-- What a command that was carried out makes of the files and of what the runtime knows. -/
structure Performed (sha256 : Bytes → Ir.Digest) (command : Command) (v v' : View) : Prop where
  next : command.next v.state = some v'.state
  registration : v'.registration = v.registration
  extended : Extends v.disk v'.disk
  evidence : ∀ name, v'.disk (.evidence name) = v.disk (.evidence name)
  saved : command.isSaved = true → Agrees sha256 v ∧
    v'.disk .state = some (State.codec.toBytes v'.state) ∧
    v'.stateDigest = digestOf sha256 (State.codec.toBytes v'.state)
  idle : command.isSaved = false → v'.disk .state = v.disk .state ∧ v'.stateDigest = v.stateDigest
  filed : ∀ source id digest, command = .stage source id digest →
    Filed sha256 v.disk v'.disk id digest

/-- What a command leaves that was cut off: files beside the state, or all of its files while
the runtime still knows the old state. -/
def Cut (sha256 : Bytes → Ir.Digest) (command : Command) (v v' : View) : Prop :=
  v' = { v with disk := v'.disk } ∧ (Near v.disk v'.disk ∨ ∃ state stateDigest,
    Performed sha256 command v { v' with state, stateDigest })

theorem cut_near {command : Command} {v : View} {d : Disk Path} (h : Near v.disk d) :
    Cut sha256 command v { v with disk := d } := ⟨rfl, .inl h⟩

theorem does_save {next : State} : Does (· = v) (save sha256 next)
    (fun _ v' => Agrees sha256 v ∧ v' = { v with
      state := next
      stateDigest := digestOf sha256 (State.codec.toBytes next)
      disk := v.disk.put .state (State.codec.toBytes next) })
    fun v' => v' = { v with disk := v'.disk } ∧ (Near v.disk v'.disk ∨ Agrees sha256 v ∧
      v'.disk = v.disk.put .state (State.codec.toBytes next)) := by
  have hsame : v = { v with disk := v.disk } ∧ (Near v.disk v.disk ∨ Agrees sha256 v ∧
      v.disk = v.disk.put .state (State.codec.toBytes next)) := ⟨rfl, .inl (.refl _)⟩
  refine does_read fun rt hregistration hstate hdigest => ?_
  refine does_files leaves_externalChange (fun d h => by cases h; exact hsame)
    fun changed d hchanged => ?_
  obtain ⟨rfl, hagrees⟩ := hchanged
  refine does_check hsame fun _ hunchanged => ?_
  rw [rejectIf_ok] at hunchanged
  obtain ⟨bytes, hbytes, hv⟩ := hagrees hunchanged
  replace hv : Agrees sha256 v := ⟨bytes, hbytes, hv.trans hdigest⟩
  refine does_files (leaves_quiet quiet_generatedId) (fun d h => by cases h; exact hsame)
    fun name d hd => ?_
  cases hd
  refine does_files leaves_replace (fun d h => ⟨rfl, ?_⟩) fun _ d h => ?_
  · rcases h with hstarted | ⟨-, -, rfl⟩
    · exact .inl (near_started rfl hstarted)
    · exact .inr ⟨hv, rfl⟩
  · obtain ⟨-, -, rfl⟩ := h
    exact does_update fun rt hrt => ⟨hv, by rw [hrt]⟩

/-- Saving is the last part of a command, after files were added beside the state. -/
theorem does_saved {command : Command} {next : State} {d : Disk Path}
    (hsaved : command.isSaved = true)
    (hnext : command.next v.state = some next) (hnear : Near v.disk d)
    (hfiled : ∀ source id digest, command = .stage source id digest →
      Filed sha256 v.disk d id digest) :
    Does (· = { v with disk := d }) (save sha256 next)
      (fun _ v' => Performed sha256 command v v') (Cut sha256 command v) := by
  have hperformed (hagrees : Agrees sha256 { v with disk := d }) :
      Performed sha256 command v { v with
        state := next
        stateDigest := digestOf sha256 (State.codec.toBytes next)
        disk := d.put .state (State.codec.toBytes next) } := by
    refine ⟨hnext, rfl, hnear.extended.trans (extends_put_state _ _), fun name => ?_, fun _ => ?_,
      fun h => ?_, fun source id digest h => ?_⟩
    · rw [← hnear.evidence name]
      exact @put_state d (.evidence name) (by intro h; cases h) (State.codec.toBytes next)
    · obtain ⟨bytes, hbytes, hdigest⟩ := hagrees
      exact ⟨⟨bytes, hnear.state ▸ hbytes, hdigest⟩, Disk.put_self d .state _, rfl⟩
    · rw [hsaved] at h
      cases h
    · obtain ⟨hfree, bytes, hbytes, hrest⟩ := hfiled source id digest h
      exact ⟨hfree, bytes, (put_state (fun h => by cases h) (State.codec.toBytes next)).trans hbytes,
        hrest⟩
  refine Triple.weaken does_save (fun _ h => h) ?_ ?_
  · rintro _ host ⟨hagrees, hview⟩
    rw [hview]
    exact hperformed hagrees
  · rintro _ host ⟨hview, hdisk⟩
    refine ⟨hview, ?_⟩
    rcases hdisk with h | ⟨hagrees, h⟩
    · exact .inl (hnear.trans h)
    · refine .inr ⟨next, digestOf sha256 (State.codec.toBytes next), ?_⟩
      rw [hview]
      simp only [h]
      exact hperformed hagrees

theorem does_stage {source candidate : Id} {digest : Digest} :
    Does (· = v) (stage sha256 source candidate digest)
      (fun _ v' => Performed sha256 (.stage source candidate digest) v v')
      (Cut sha256 (.stage source candidate digest) v) := by
  have hsame : Cut sha256 (.stage source candidate digest) v v := cut_near (.refl _)
  refine does_read fun rt hregistration hstate hdigest => ?_
  refine does_check hsame fun binding hbinding => ?_
  refine does_files leaves_readSource (fun d h => by cases h; exact hsame) fun bytes d hread => ?_
  obtain ⟨rfl, hshort⟩ := hread
  refine does_check hsame fun _ hbytes => ?_
  rw [rejectIf_ok, decide_eq_false_iff_not, not_not] at hbytes
  refine does_files (leaves_quiet fixes_observe) (fun d h => by cases h; exact hsame)
    fun inspection d hd => ?_
  cases hd
  refine does_files leaves_retainManifest (fun d h => cut_near h) fun _ d hd => ?_
  refine does_check (cut_near hd) fun _ hfree => ?_
  refine does_check (cut_near hd) fun next hnext => ?_
  rw [rejectIf_ok, hstate] at hfree
  rw [okOr_ok, hstate] at hnext
  refine does_files leaves_create (fun d' h => cut_near (hd.trans (near_started rfl h)))
    fun _ d' hd' => ?_
  obtain ⟨hnone, rfl⟩ := hd'
  refine does_saved rfl ?_ (hd.trans (near_put rfl hnone)) fun source' id' digest' hcommand => ?_
  · rw [Command.next, hfree]
    exact hnext
  · cases hcommand
    refine ⟨?_, bytes, Disk.put_self d _ _, hbytes, hshort⟩
    replace hnone : d (candidatePath sha256 candidate) = none := hnone
    cases hold : v.disk (candidatePath sha256 candidate) with
    | none => rfl
    | some old =>
        rw [hd.extended _ old (fun h => by cases h) hold] at hnone
        cases hnone

theorem does_select {candidate : Id} : Does (· = v) (select sha256 candidate)
    (fun _ v' => Performed sha256 (.select candidate) v v') (Cut sha256 (.select candidate) v) := by
  have hsame : Cut sha256 (.select candidate) v v := cut_near (.refl _)
  refine does_read fun rt hregistration hstate hdigest => ?_
  have hcandidate : Leaves (· = v.disk) (rt.candidate sha256 candidate)
      (fun _ d => d = v.disk ∧ rt.state.candidates.contains candidate = true) (· = v.disk) := by
    refine Triple.bind (triple_ensure (Q := fun _ s => s.disk = v.disk ∧
      rt.state.candidates.contains candidate = true) (fun c s hc hs => ?_) fun _ hs => hs) fun c => ?_
    · rw [okOr_ok] at hc
      exact ⟨hs, by rw [OrderedMap.contains, hc]; rfl⟩
    · have hrest : Quiet (do
          let source ← ensure (okOr (rt.registration.sources.get c.source) .invalidStore)
          let bytes ← readBounded (candidatePath sha256 candidate) maxConfig
          ensure (rejectIf (digestOf sha256 bytes ≠ c.rawSha256) .conflict)
          inspectBytes bytes source) :=
        (fixes_ensure _).bind fun _ => (quiet_readBounded _ _).bind fun _ =>
          (fixes_ensure _).bind fun _ => fixes_observe
      exact Triple.weaken (Fixes.triple hrest (P := fun d => d = v.disk ∧
        rt.state.candidates.contains candidate = true)) (fun _ h => h) (fun _ _ h => h)
        fun _ _ h => h.1
  refine does_files hcandidate (fun d h => by cases h; exact hsame) fun _ d hd => ?_
  obtain ⟨rfl, hcontains⟩ := hd
  refine does_check hsame fun next hnext => ?_
  rw [hstate] at hcontains
  rw [okOr_ok, hstate] at hnext
  refine does_saved rfl ?_ (.refl _) fun source' id' digest' hcommand => by cases hcommand
  rw [Command.next, if_pos hcontains]
  exact hnext

theorem performed_idle {command : Command} {v : View} {d : Disk Path}
    (hidle : command.isSaved = false)
    (h : Near v.disk d) : Performed sha256 command v { v with disk := d } := by
  refine ⟨?_, rfl, h.extended, h.evidence, fun hsaved => ?_, fun _ => ⟨h.state, rfl⟩,
    fun source id digest hcommand => ?_⟩
  · cases command with
    | stage source candidate digest => cases hidle
    | select candidate => cases hidle
    | start => rfl
    | stop => rfl
    | restart => rfl
  · rw [hidle] at hsaved
    cases hsaved
  · rw [hcommand] at hidle
    cases hidle

theorem does_start {command : Command} (hidle : command.isSaved = false) :
    Does (· = v) (start sha256) (fun _ v' => Performed sha256 command v v')
      (Cut sha256 command v) := by
  have hsame : Cut sha256 command v v := cut_near (.refl _)
  refine does_look looks_refreshChild hsame fun _ => ?_
  refine does_read fun rt hregistration hstate hdigest => ?_
  refine does_check hsame fun _ _ => ?_
  refine does_look (looks_onFiles quiet_leaseFree) hsame fun free => ?_
  refine does_check hsame fun _ _ => ?_
  refine does_look (looks_onFiles (quiet_hashFile sha256 _)) hsame fun executable => ?_
  refine does_check hsame fun _ _ => ?_
  refine does_look (looks_onFiles (quiet_desired sha256 rt)) hsame fun inspected => ?_
  refine does_files leaves_retainManifest (fun d h => cut_near h) fun _ d hd => ?_
  have hkept : Cut sha256 command v { v with disk := d } := cut_near hd
  refine does_look (looks_onFiles quiet_generatedId) hkept fun instanceId => ?_
  refine does_check hkept fun _ _ => ?_
  refine does_look (looks_onFiles fixes_probe) hkept fun _ => ?_
  refine does_look (looks_update fun _ => ⟨rfl, rfl, rfl⟩) hkept fun _ => ?_
  refine Triple.weaken (does_looks ((looks_awaitReady inspected instanceId).attempt.bind
    fun result => ?_) (I := (· = { v with disk := d })) (R := (· = { v with disk := d }))
    fun _ h => h) (fun _ h => h) ?_ ?_
  · cases result with
    | ok _ => exact fixes_pure _
    | error e => exact looks_stopOwned.attempt.bind fun _ => fixes_throwing _
  · intro _ host hview
    rw [hview]
    exact performed_idle hidle hd
  · intro _ host hview
    rw [hview]
    exact hkept

/-- The one lemma about what a command does. -/
theorem does_perform (command : Command) : Does (· = v) (perform sha256 command)
    (fun _ v' => Performed sha256 command v v') (Cut sha256 command v) := by
  cases command with
  | stage source candidate sourceSha256 => exact does_stage
  | select candidate => exact does_select
  | start => exact does_start rfl
  | stop =>
      refine Triple.weaken (does_looks looks_stopOwned (I := (· = v)) (R := (· = v)) fun _ h => h)
        (fun _ h => h) ?_ ?_
      · intro _ host hview
        rw [hview]
        exact performed_idle rfl (.refl _)
      · intro _ host hview
        rw [hview]
        exact cut_near (.refl _)
  | restart =>
      have hsame : Cut sha256 .restart v v := cut_near (.refl _)
      refine does_read fun rt _ _ _ => ?_
      refine does_look (looks_onFiles (quiet_desired sha256 rt)) hsame fun _ => ?_
      exact does_look looks_stopOwned hsame fun _ => does_start rfl

theorem does_attempt {m : RuntimeMethod α} {Q : Except Error α → View → Prop} {R R' : View → Prop}
    (h : Does (· = v) m (fun a => Q (.ok a)) R') (hfailed : ∀ e v', R' v' → Q (.error e) v')
    (hended : ∀ v', R' v' → R v') : Does (· = v) (attempt m) Q R :=
  triple_attempt (Triple.weaken h (fun _ hv => hv) (fun _ _ hv => hv)
    fun _ _ hv => ⟨fun e => hfailed e _ hv, hended _ hv⟩)

/-- A command that was cut off, or carried out with a part of its receipt at most. -/
def Unsettled (sha256 : Bytes → Ir.Digest) (command : Command) (id : Id) (v v' : View) : Prop :=
  Cut sha256 command v v' ∨ Performed sha256 command v v' ∨
    ∃ v₁, Performed sha256 command v v₁ ∧ v' = { v₁ with disk := v'.disk } ∧
      ∃ receipt : Receipt, receipt.after.revision = v₁.state.revision ∧
        Started v₁.disk (receiptPath sha256 id) (Receipt.codec.toBytes receipt) v'.disk

/-- A command that was carried out, with the receipt of what was observed behind it. -/
def Settled (sha256 : Bytes → Ir.Digest) (command : Command) (id : Id) (v v' : View)
    (after : Snapshot) (evidence : Digest) : Prop :=
  ∃ v₁, Performed sha256 command v v₁ ∧ v₁.disk (receiptPath sha256 id) = none ∧
    ∃ (prepared : Prepared) (o : Observation), prepared.command = command ∧
      o.revision = v₁.state.revision ∧ o.candidates = v₁.state.candidates.keys ∧
      after = ⟨o.revision, o.digest sha256⟩ ∧
      evidence = digestOf sha256 (Receipt.codec.toBytes (prepared.receipt sha256 id o.revision o)) ∧
      v' = { v₁ with
        disk := v₁.disk.put (receiptPath sha256 id)
          (Receipt.codec.toBytes (prepared.receipt sha256 id o.revision o)) }

/-- What the answer to a command says about the files. -/
def Tells (sha256 : Bytes → Ir.Digest) (command : Command) (id : Id) (v : View) :
    Effect → View → Prop
  | .applied after evidence, v' => Settled sha256 command id v v' after evidence
  | .notApplied _, v' => v' = v
  | .uncertain _, v' => Unsettled sha256 command id v v'

def Answered (sha256 : Bytes → Ir.Digest) (command : Command) (id : Id) (v : View) :
    Except Error Effect → View → Prop
  | .ok effect, v' => Tells sha256 command id v effect v'
  | .error _, v' => Unsettled sha256 command id v v'

theorem leaves_completeEvidence {path : Path} {bytes : Bytes} :
    Leaves (· = d) (completeEvidence path bytes) (fun _ d' => d path = none ∧ d' = d.put path bytes)
      (Started d path bytes) := by
  refine Leaves.bind leaves_create fun _ => ?_
  refine (leaves_probe fun d' h => ?_).post fun _ d' h => h.1
  exact .inr ⟨h.1, bytes.length, by rw [List.take_length, h.2]⟩

theorem does_observation : Does (· = v) (observation sha256) (fun o v' => v' = v ∧
    o.revision = v.state.revision ∧ o.candidates = v.state.candidates.keys) (· = v) := by
  have hview : Does (· = v) (view sha256) (fun seen v' => v' = v ∧
      seen.1.candidates = v.state.candidates.keys) (· = v) := by
    refine does_look looks_refreshChild rfl fun _ => ?_
    refine does_read fun rt _ hstate _ => ?_
    refine does_look (looks_onFiles (quiet_desired sha256 rt).attempt) rfl fun _ => ?_
    refine does_look (looks_onFiles (quiet_ownership rt)) rfl fun _ => ?_
    refine does_look (looks_onFiles (quiet_externalChange sha256 rt)) rfl fun _ => ?_
    exact triple_pure fun host h => ⟨h, by rw [hstate]⟩
  refine hview.bind fun seen => Does.given ?_
  rintro v₁ ⟨rfl, hcandidates⟩
  refine does_read fun rt _ hstate _ => ?_
  exact triple_pure fun host h => ⟨h, by rw [← hstate]; rfl, hcandidates⟩

theorem does_carryOut {prepared : Prepared} {id : Id} :
    Does (· = v) (prepared.carryOut sha256 id)
      (fun effect v' => ∃ after evidence, effect = .applied after evidence ∧
        Settled sha256 prepared.command id v v' after evidence)
      (Unsettled sha256 prepared.command id v) := by
  have hperform : Does (· = v) (perform sha256 prepared.command)
      (fun _ v' => Performed sha256 prepared.command v v')
      (Unsettled sha256 prepared.command id v) :=
    Triple.weaken (does_perform prepared.command) (fun _ h => h) (fun _ _ h => h)
      fun _ _ h => .inl h
  refine hperform.bind fun _ => Does.given fun v₁ hperformed => ?_
  have hleft : Unsettled sha256 prepared.command id v v₁ := .inr (.inl hperformed)
  have hobserved : Does (· = v₁) (observation sha256) (fun o v' => v' = v₁ ∧
      o.revision = v₁.state.revision ∧ o.candidates = v₁.state.candidates.keys)
      (Unsettled sha256 prepared.command id v) :=
    Triple.weaken does_observation (fun _ h => h) (fun _ _ h => h) fun _ _ h => h ▸ hleft
  refine hobserved.bind fun o => Does.given ?_
  rintro v₂ ⟨rfl, hrevision, hcandidates⟩
  refine does_read fun rt hregistration hstate hdigest => ?_
  rw [hstate, ← hrevision]
  refine does_files leaves_completeEvidence (fun d h => ?_) fun _ d h => ?_
  · exact .inr (.inr ⟨v₂, hperformed, rfl, _, hrevision, h⟩)
  · obtain ⟨hfree, rfl⟩ := h
    exact triple_pure fun host hview => ⟨_, _, rfl, v₂, hperformed, hfree, prepared, o, rfl,
      hrevision, hcandidates, rfl, rfl, hview⟩

theorem does_apply {prepared : Prepared} {id : Id} (haccepted : prepared.operation = some id) :
    Does (· = v) (prepared.apply sha256) (Tells sha256 prepared.command id v)
      (fun v' => v' = v ∨ Unsettled sha256 prepared.command id v v') := by
  rw [Prepared.apply, haccepted]
  refine does_look (looks_snapshot sha256).attempt (.inl rfl) fun now => ?_
  split
  · refine does_look (looks_update fun _ => ⟨rfl, rfl, rfl⟩) (.inl rfl) fun _ => ?_
    have hcarried : Does (· = v) (attempt (prepared.carryOut sha256 id))
        (Answered sha256 prepared.command id v)
        (fun v' => v' = v ∨ Unsettled sha256 prepared.command id v v') := by
      refine does_attempt (Triple.weaken does_carryOut (fun _ h => h) ?_ fun _ _ h => h)
        (fun _ _ h => h) fun _ h => .inr h
      rintro effect host ⟨after, evidence, rfl, hsettled⟩
      exact hsettled
    refine hcarried.bind fun result => triple_pure fun host h => ?_
    cases result with
    | ok effect => exact h
    | error e => exact h
  · exact triple_pure fun host h => h

end Changing

end ResponseGateway.Management.RuntimeStore
