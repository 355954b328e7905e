import ResponseGateway.Management.Records

/-!
What the methods of the journal do to a world, as triples over the tables, the
adapter and the log of applications. Every contact with the storage may fail or end
the process, so the second postcondition of a triple is what a cut run leaves.
-/

namespace ResponseGateway.Management
open Checked Ir Json Method

variable {S α : Type}

/-- An assertion about the stores and the log. -/
abbrev Assertion (S : Type) := Db → S → Log S → Prop

/-- An assertion that survives a look at the stores it speaks of. -/
structure Steady (S : Type) where
  Holds : Assertion S
  look : ∀ db b l, Holds db b l → Holds db b (l.look db b)

instance : CoeFun (Steady S) fun _ => Assertion S := ⟨Steady.Holds⟩

/-- An assertion that does not mention what was seen. -/
def Steady.of (p : Db → S → List Application → Prop) : Steady S where
  Holds db b l := p db b l.applications
  look _ _ _ h := h

/-- The assertion with a fact that does not mention what was seen. -/
def Steady.with (P : Steady S) (p : Db → S → List Application → Prop) : Steady S where
  Holds db b l := P db b l ∧ p db b l.applications
  look db b l h := ⟨P.look db b l h.1, h.2⟩

def On (P : Assertion S) (w : World S) : Prop := P w.db w.backend w.log

section Primitives

variable {P : Steady S} {T : Assertion S} {Q : α → Assertion S} {R : Stop → Assertion S}

theorem triple_tick {R : Stop → World S → Prop} : Triple (On P) tick (fun _ => On P) R := by
  intro w hw
  have hlook := P.look _ _ _ hw
  cases hticks : w.ticks with
  | nil =>
      simp only [tick, hticks]
      exact hlook
  | cons t rest =>
      simp only [tick, hticks]
      exact hlook

/-- A step that looks at nothing. -/
theorem triple_returning {P : Assertion S} {x : Except Error α}
    (hok : ∀ a db b l, x = .ok a → P db b l → Q a db b l)
    (herror : ∀ e db b l, x = .error e → P db b l → R (.failed e) db b l) :
    Triple (On P) (returning x) (fun a => On (Q a)) fun e => On (R e) := by
  refine triple_check (fun a w hx hw => ?_) fun e w hx hw => ?_
  · cases x with
    | ok a' =>
        cases hx
        exact hok a _ _ _ rfl hw
    | error e => cases hx
  · cases x with
    | ok a' => cases hx
    | error e' =>
        cases hx
        exact herror e' _ _ _ rfl hw

theorem triple_query {f : Db → Except Error α}
    (hok : ∀ a db b l, P db b l → f db = .ok a → Q a db b l)
    (herror : ∀ e db b l, P db b l → f db = .error e → R (.failed e) db b l)
    (hstop : ∀ e db b l, e ≠ .failed .invalidStore → P db b l → R e db b l) :
    Triple (On P) (query f) (fun a => On (Q a)) fun e => On (R e) := by
  refine triple_tick.bind fun t => ?_
  have hfailed : Triple (On P) (throwing (.failed .storage) : Journal S α)
      (fun a => On (Q a)) fun e => On (R e) :=
    triple_throwing fun w hw => hstop _ _ _ _ nofun hw
  have hcrash : Triple (On P) (throwing .crash : Journal S α)
      (fun a => On (Q a)) fun e => On (R e) :=
    triple_throwing fun w hw => hstop _ _ _ _ nofun hw
  cases t.fault with
  | none =>
      intro w hw
      have hread := triple_returning (x := f w.db) (P := fun db b l => P db b l ∧ db = w.db)
        (Q := Q) (R := R) (fun a db b l hx hP => hok a db b l hP.1 (hP.2 ▸ hx))
        (fun e db b l hx hP => herror e db b l hP.1 (hP.2 ▸ hx))
      exact hread w ⟨hw, rfl⟩
  | failed => exact hfailed
  | lost => exact hfailed
  | crash => exact hcrash
  | crashAfter => exact hcrash

theorem triple_now (hstop : ∀ e db b l, e ≠ .failed .invalidStore → P db b l → R e db b l) :
    Triple (On P) now (fun _ => On P) fun e => On (R e) := by
  refine triple_tick.bind fun t => ?_
  cases t.fault with
  | none => exact triple_pure fun _ hw => hw
  | failed => exact triple_throwing fun w hw => hstop _ _ _ _ nofun hw
  | lost => exact triple_throwing fun w hw => hstop _ _ _ _ nofun hw
  | crash => exact triple_throwing fun w hw => hstop _ _ _ _ nofun hw
  | crashAfter => exact triple_throwing fun w hw => hstop _ _ _ _ nofun hw

/-- A write that was stored may still be reported as failed. -/
theorem triple_store {f : Db → Option Db}
    (hwrite : ∀ db b l db', P db b l → f db = some db' → T db' b l)
    (hkept : ∀ e db b l, e ≠ .failed .invalidStore → P db b l → R e db b l)
    (hlost : ∀ e db b l, e ≠ .failed .invalidStore → T db b l → R e db b l) :
    Triple (On P) (store f) (fun _ => On T) fun e => On (R e) := by
  refine triple_tick.bind fun t => ?_
  intro w hw
  have hcut (e : Stop) (he : e ≠ .failed .invalidStore) :
      On (R e) { w with db := (f w.db).getD w.db } := by
    cases hf : f w.db with
    | none => exact hkept e _ _ _ he hw
    | some db => exact hlost e _ _ _ he (hwrite _ _ _ _ hw hf)
  cases t.fault with
  | none =>
      cases hf : f w.db with
      | none =>
          simp only [hf]
          exact hkept _ _ _ _ nofun hw
      | some db =>
          simp only [hf]
          exact hwrite _ _ _ _ hw hf
  | failed => exact hkept _ _ _ _ nofun hw
  | lost => exact hcut _ nofun
  | crash => exact hkept _ _ _ _ nofun hw
  | crashAfter => exact hcut _ nofun

theorem triple_consult {P : Assertion S} {f : S → Except Error α × S}
    (hok : ∀ a db b l, P db b l → (f b).1 = .ok a → Q a db (f b).2 l)
    (herror : ∀ e db b l, P db b l → (f b).1 = .error e → R (.failed e) db (f b).2 l) :
    Triple (On P) (consult f) (fun a => On (Q a)) fun e => On (R e) := by
  intro w hw
  rw [consult]
  match hf : f w.backend with
  | (.ok a, b) =>
      have hQ := hok a _ _ _ hw (by rw [hf])
      rw [hf] at hQ
      exact hQ
  | (.error e, b) =>
      have hR := herror e _ _ _ hw (by rw [hf])
      rw [hf] at hR
      exact hR

end Primitives

section Appending

variable {P : Steady S} {Q : Assertion S} {R : Stop → Assertion S} {id : Id} {actor : Option Identity}
  {phase : Phase} {state : State} {effect : Option Effect}

theorem triple_append
    (hwrite : ∀ db b l operation atMs db', P db b l → recorded db id = .ok operation →
      operation.events.length + 1 ≤ maxEvents →
      validNext operation.state phase state effect = true →
      db.insertEvent ⟨id.value, operation.events.length + 1, json Event.codec
        (.next operation atMs actor phase state effect)⟩ = some db' → Q db' b l)
    (herror : ∀ e db b l, P db b l → recorded db id = .error e → R (.failed e) db b l)
    (hkept : ∀ e db b l, e ≠ .failed .invalidStore → P db b l → R e db b l)
    (hlost : ∀ e db b l, e ≠ .failed .invalidStore → Q db b l → R e db b l) :
    Triple (On P) (append id actor phase state effect) (fun _ => On Q) fun e => On (R e) := by
  refine Triple.bind (triple_query (Q := fun operation =>
      P.with fun db _ _ => recorded db id = .ok operation) (fun _ _ _ _ hP hop => ⟨hP, hop⟩) herror hkept)
    fun operation => ?_
  refine Triple.bind (triple_returning (Q := fun _ =>
      (P.with fun db _ _ => recorded db id = .ok operation).with fun _ _ _ =>
        validNext operation.state phase state effect = true)
    (fun _ db b l hvalid hP => ⟨hP, by simpa using hvalid⟩)
    (fun e db b l he hP => ?_)) fun _ => ?_
  · rw [rejectIf] at he
    split at he
    · cases he
      exact hkept _ db b l (by simp) hP.1
    · cases he
  refine Triple.bind (triple_returning (Q := fun _ =>
      ((P.with fun db _ _ => recorded db id = .ok operation).with fun _ _ _ =>
        validNext operation.state phase state effect = true).with fun _ _ _ =>
        operation.events.length + 1 ≤ maxEvents)
    (fun _ db b l hvalid hP => ⟨hP, by simpa using hvalid⟩)
    (fun e db b l he hP => ?_)) fun _ => ?_
  · rw [rejectIf] at he
    split at he
    · cases he
      exact hkept _ db b l (by simp) hP.1.1
    · cases he
  refine Triple.bind (triple_now fun e db b l he hP => hkept e db b l he hP.1.1.1) fun atMs => ?_
  exact triple_store
    (fun db b l db' hP hinsert =>
      hwrite db b l operation atMs db' hP.1.1.1 hP.1.1.2 hP.2 hP.1.2 hinsert)
    (fun e db b l he hP => hkept e db b l he hP.1.1.1) hlost

/-- Who may write an event of a phase. -/
def Writes (operation : Operation) (phase : Phase) (actor : Option Identity) : Prop :=
  match phase with
  | .accepted => False
  | .started | .finished => actor = some operation.actor
  | .recovery => actor = none
  | .reconciled => actor.isSome = true

theorem admits_next {operation : Operation} {atMs : UInt64} (hevents : operation.events ≠ [])
    (hroom : operation.events.length + 1 ≤ maxEvents)
    (hvalid : validNext operation.state phase state effect = true)
    (hwrites : Writes operation phase actor) :
    Admits operation (.next operation atMs actor phase state effect) := by
  have hsmall : operation.events.length + 1 < 2 ^ 64 := Nat.lt_of_le_of_lt hroom (by decide)
  have hsequence : (UInt64.ofNat (operation.events.length + 1)).toNat =
      operation.events.length + 1 := UInt64.toNat_ofNat_of_lt' hsmall
  refine ⟨hsequence, hsequence ▸ hroom, ?_, ?_⟩
  · cases phase with
    | accepted => exact hwrites.elim
    | started => simpa [attributed, Event.next, Writes] using hwrites
    | finished => simpa [attributed, Event.next, Writes] using hwrites
    | recovery => simpa [attributed, Event.next, Writes] using hwrites
    | reconciled => simpa [attributed, Event.next, Writes] using hwrites
  · rw [continues, List.isEmpty_eq_false_iff.2 hevents]
    exact hvalid

end Appending

section Recovery

variable {I : Steady S} {id : Id}

/-- The invariant, and no corruption reported. -/
def Kept (I : Steady S) (e : Stop) : Steady S := I.with fun _ _ _ => e ≠ .failed .invalidStore

/-- What recovery may record for an operation: the queued ones were never started. -/
structure Recovers (db : Db) (operation : Operation) (effect : Effect) : Prop where
  prior : recorded db operation.id = .ok operation
  effect : operation.state = .queued ∧ effect = .notApplied .interrupted ∨
    operation.state = .running ∧ effect = .uncertain .interrupted

/-- The invariant survives what recovery records, and never hides an operation. -/
structure Recoverable (I : Steady S) : Prop where
  reads : ∀ db b l id, I db b l → recorded db id ≠ .error .invalidStore
  records : ∀ db b l operation effect atMs db', I db b l → Recovers db operation effect →
    db.insertEvent ⟨operation.id.value, operation.events.length + 1, json Event.codec
      (.next operation atMs none .recovery effect.state (some effect))⟩ = some db' →
    Admits operation (.next operation atMs none .recovery effect.state (some effect)) → I db' b l

theorem Recoverable.read_error (hI : Recoverable I) {e : Error} {db : Db} {b : S}
    {l : Log S} (h : I db b l) (he : recorded db id = .error e) :
    Kept I (.failed e) db b l := by
  refine ⟨h, fun heq => hI.reads db b l id h ?_⟩
  cases heq
  exact he

theorem kept_of {e : Stop} {db : Db} {b : S} {l : Log S}
    (he : e ≠ .failed .invalidStore) (h : I db b l) : Kept I e db b l := ⟨h, he⟩

theorem triple_recorded (hI : Recoverable I) (id : Id) :
    Triple (On I) (query (recorded · id))
      (fun operation => On (I.with fun db _ _ => recorded db id = .ok operation))
      fun e => On (Kept I e) :=
  triple_query (fun _ _ _ _ h hop => ⟨h, hop⟩) (fun _ _ _ _ h he => hI.read_error h he)
    fun _ _ _ _ he h => kept_of he h

theorem triple_settle (hI : Recoverable I) {P : Steady S} {effect : Effect}
    (hP : ∀ db b l, P db b l → I db b l)
    (hrecovers : ∀ db b l operation, P db b l → recorded db id = .ok operation →
      Recovers db operation effect) :
    Triple (On P) (settleInterrupted.settle id effect)
      (fun operation => On (I.with fun db _ _ => recorded db id = .ok operation))
      fun e => On (Kept I e) := by
  refine Triple.bind (triple_append (Q := I) ?_ (fun _ _ _ _ h he => hI.read_error (hP _ _ _ h) he)
    (fun _ _ _ _ he h => kept_of he (hP _ _ _ h)) (fun _ _ _ _ he h => kept_of he h))
    fun _ => triple_recorded hI id
  intro db b l operation atMs db' h hop hroom hvalid hinsert
  obtain rfl := recorded_id hop
  exact hI.records db b l operation effect atMs db' (hP _ _ _ h) (hrecovers _ _ _ _ h hop) hinsert
    (admits_next (recorded_events_ne_nil hop) hroom hvalid rfl)

theorem triple_settleInterrupted (hI : Recoverable I) (id : Id) :
    Triple (On I) (settleInterrupted id)
      (fun operation => On (I.with fun db _ _ => recorded db id = .ok operation))
      fun e => On (Kept I e) := by
  refine Triple.bind (triple_recorded hI id) fun operation => ?_
  have hrecovers (effect : Effect)
      (heffect : operation.state = .queued ∧ effect = .notApplied .interrupted ∨
        operation.state = .running ∧ effect = .uncertain .interrupted) :=
    triple_settle hI
      (P := I.with fun db _ _ => recorded db id = .ok operation) (fun _ _ _ h => h.1)
      fun db b l op h hop => by
        obtain rfl : operation = op := Except.ok.inj (h.2.symm.trans hop)
        exact ⟨(recorded_id hop).symm ▸ hop, heffect⟩
  cases hstate : operation.state with
  | queued => exact hrecovers _ (.inl ⟨hstate, rfl⟩)
  | running => exact hrecovers _ (.inr ⟨hstate, rfl⟩)
  | succeeded => exact triple_pure fun _ h => h
  | failed => exact triple_pure fun _ h => h
  | uncertain => exact triple_pure fun _ h => h

theorem triple_recover (hI : Recoverable I) (env : Environment)
    (hids : ∀ db b l, I db b l → ∃ ids, db.interrupted = .ok ids ∧
      ∀ value ∈ ids, isId value = true) :
    Triple (On I) (recover env) (fun _ => On I) fun e => On (Kept I e) := by
  refine Triple.bind (triple_query
    (Q := fun ids => I.with fun _ _ _ => ∀ value ∈ ids, isId value = true) ?_ ?_
    fun _ _ _ _ he h => kept_of he h) fun ids => ?_
  · intro ids db b l h hread
    obtain ⟨ids', hids', hvalid⟩ := hids db b l h
    obtain rfl : ids = ids' := Except.ok.inj (hread.symm.trans hids')
    exact ⟨h, hvalid⟩
  · intro e db b l h he
    obtain ⟨ids', hids', -⟩ := hids db b l h
    rw [hids'] at he
    cases he
  · intro w hw
    have hvalid : ∀ value ∈ env.order ids, isId value = true := fun value hvalue =>
      hw.2 value ((env.perm ids).mem_iff.1 hvalue)
    refine triple_forM (P := On I) (fun value hvalue => ?_) w hw.1
    refine Triple.bind (triple_returning (Q := fun _ => I) (fun _ _ _ _ _ h => h)
      (fun e db b l he h => ?_)) fun id => ?_
    · rw [Id.new, dif_pos (hvalid value hvalue)] at he
      cases he
    · exact Triple.bind ((triple_settleInterrupted hI id).post fun _ _ h => h.1)
        fun _ => triple_pure fun _ h => h

end Recovery

end ResponseGateway.Management
