import ResponseGateway.Library.Triple

/-!
Files behind a file system that may refuse any call, or end the process, after a part of it
was done. A file is created empty and then written, so a call that was cut may leave a part
of the bytes; a file takes the place of another one at once or not at all. The script of a
run says what happens at each contact, and what can be seen outside then.
-/

namespace Files
open Method

universe u

abbrev Bytes := List UInt8

inductive Luck where
  | served
  | refused
  | ended
  deriving DecidableEq, Repr, Inhabited

/-- One contact: how it ends, how much of the call was done when it was cut, and what is
outside. -/
structure Contact (X : Type) where
  luck : Luck
  kept : Nat
  outside : X
  deriving Inhabited

/-- Why a call did not return a value. -/
inductive Halt (ε : Type) where
  | failed (error : ε)
  | ended
  deriving DecidableEq, Repr

abbrev Disk (P : Type) := P → Option Bytes

structure Machine (P X : Type) where
  disk : Disk P
  contacts : List (Contact X)

variable {P X ε α : Type}

namespace Disk

variable [DecidableEq P]

def put (d : Disk P) (path : P) (bytes : Bytes) : Disk P := Function.update d path (some bytes)

def remove (d : Disk P) (path : P) : Disk P := Function.update d path none

@[simp] theorem put_self (d : Disk P) (path : P) (bytes : Bytes) :
    d.put path bytes path = some bytes :=
  Function.update_self ..

theorem put_of_ne (d : Disk P) {path other : P} (bytes : Bytes) (h : other ≠ path) :
    d.put path bytes other = d other := Function.update_of_ne h ..

@[simp] theorem put_put (d : Disk P) (path : P) (bytes bytes' : Bytes) :
    (d.put path bytes).put path bytes' = d.put path bytes' := Function.update_idem ..

/-- A file that is removed again. -/
theorem remove_put (d : Disk P) {path : P} (bytes : Bytes) (h : d path = none) :
    (d.put path bytes).remove path = d := by
  rw [put, remove, Function.update_idem, ← h, Function.update_eq_self]

end Disk

abbrev FileMethod (P X ε α : Type) := Method (Machine P X) (Halt ε) α

section Results

variable {σ : Type}

/-- A result that was computed without a call. -/
def ensure (x : Except ε α) : Method σ (Halt ε) α := check (x.mapError .failed)

/-- The result of a method whose errors are looked at. The end of the process is none. -/
def attempt (m : Method σ (Halt ε) α) : Method σ (Halt ε) (Except ε α) := fun s =>
  match m s with
  | (.ok a, s') => (.ok (.ok a), s')
  | (.error (.failed e), s') => (.ok (.error e), s')
  | (.error .ended, s') => (.error .ended, s')

theorem bind_after {β : Type} {m : Method σ ε α} {f : α → Method σ ε β} {s s' : σ} {a : α}
    (h : m s = (.ok a, s')) : (m >>= f) s = f a s' := by
  simp only [bind, h]

theorem triple_ensure {P : σ → Prop} {x : Except ε α} {Q : α → σ → Prop} {R : σ → Prop}
    (hok : ∀ a s, x = .ok a → P s → Q a s) (herror : ∀ s, P s → R s) :
    Triple P (ensure x : Method σ (Halt ε) α) Q fun _ => R :=
  triple_check (fun a s h => hok a s (Checked.mapError_ok.1 h)) fun _ s _ => herror s

theorem triple_attempt {P : σ → Prop} {m : Method σ (Halt ε) α} {Q : Except ε α → σ → Prop}
    {R : σ → Prop} (h : Triple P m (fun a => Q (.ok a)) fun _ s => (∀ e, Q (.error e) s) ∧ R s) :
    Triple P (attempt m) Q fun _ => R := by
  intro s hs
  have hrun := h s hs
  rw [attempt]
  rcases hm : m s with ⟨(e | _) | a, s'⟩
  · rw [hm] at hrun
    exact hrun.1 e
  · rw [hm] at hrun
    exact hrun.2
  · rw [hm] at hrun
    exact hrun

end Results

section Calls

variable [Inhabited X]

/-- The next contact; a script that is used up refuses nothing. -/
def contact : FileMethod P X ε (Contact X) := fun m =>
  (.ok (m.contacts.headD default), { m with contacts := m.contacts.tail })

/-- A call with an effect on the files, and what it leaves when it is cut. -/
def call (effect : Disk P → Option (Disk P)) (cut : Nat → Disk P → Disk P) (error : ε) :
    FileMethod P X ε Unit := do
  let c ← contact
  fun m =>
    match c.luck, effect m.disk with
    | .served, some disk => (.ok (), { m with disk })
    | .served, none => (.error (.failed error), m)
    | .refused, _ => (.error (.failed error), { m with disk := cut c.kept m.disk })
    | .ended, _ => (.error .ended, { m with disk := cut c.kept m.disk })

/-- A call that has no effect. -/
def probe (accepts : Disk P → Bool) (error : ε) : FileMethod P X ε Unit :=
  call (fun d => if accepts d then some d else none) (fun _ d => d) error

variable [DecidableEq P]

def createNew (path : P) (error : ε) : FileMethod P X ε Unit :=
  call (fun d => if (d path).isSome then none else some (d.put path []))
    (fun kept d => if kept = 0 || (d path).isSome then d else d.put path []) error

/-- Write a file that is empty. -/
def writeAll (path : P) (bytes : Bytes) (error : ε) : FileMethod P X ε Unit :=
  call (fun d => some (d.put path bytes)) (fun kept d => d.put path (bytes.take kept)) error

/-- A file takes the place of another one. -/
def moved (source target : P) (d : Disk P) : Option (Disk P) :=
  (d source).map fun bytes => (d.remove source).put target bytes

def rename (source target : P) (error : ε) : FileMethod P X ε Unit :=
  call (moved source target) (fun kept d => if kept = 0 then d else (moved source target d).getD d)
    error

/-- A value that the world outside gives. -/
def observe (f : Disk P → X → Except ε α) (error : ε) : FileMethod P X ε α := do
  let c ← contact
  fun m =>
    match c.luck with
    | .served => ((f m.disk c.outside).mapError .failed, m)
    | .refused => (.error (.failed error), m)
    | .ended => (.error .ended, m)

def readFile (path : P) (error : ε) : FileMethod P X ε Bytes :=
  observe (fun d _ => Checked.okOr (d path) error) error

/-- Whether a file is there; a refusal is taken for an absent file. -/
def isThere (path : P) : FileMethod P X ε Bool := do
  let c ← contact
  fun m =>
    match c.luck with
    | .served => (.ok (m.disk path).isSome, m)
    | .refused => (.ok false, m)
    | .ended => (.error .ended, m)

/-- A new file with these bytes. The directory is looked at before and synced after it. -/
def create (path : P) (bytes : Bytes) (invalid error : ε) : FileMethod P X ε Unit := do
  probe (fun _ => true) invalid
  createNew path error
  writeAll path bytes error
  probe (fun _ => true) error
  probe (fun _ => true) error

/-- Other bytes for a file, by way of a new one. -/
def replace (path temporary : P) (bytes : Bytes) (invalid error : ε) : FileMethod P X ε Unit := do
  probe (fun _ => true) invalid
  probe (fun d => (d path).isSome) invalid
  create temporary bytes invalid error
  rename temporary path error
  probe (fun _ => true) error

end Calls

section Rules

variable [Inhabited X] {I : Disk P → Prop} {Q : α → Disk P → Prop} {R : Disk P → Prop} {d : Disk P}
  {error invalid : ε}

/-- What a call makes of the files: with a result, or wherever it is cut. -/
def Leaves (I : Disk P → Prop) (m : FileMethod P X ε α) (Q : α → Disk P → Prop)
    (R : Disk P → Prop) : Prop :=
  Triple (fun s => I s.disk) m (fun a s => Q a s.disk) fun _ s => R s.disk

variable {β : Type} {m : FileMethod P X ε α} {I' R' : Disk P → Prop} {Q' : α → Disk P → Prop}

omit [Inhabited X] in
theorem Leaves.weaken (h : Leaves I' m Q' R') (hI : ∀ d, I d → I' d)
    (hQ : ∀ a d, Q' a d → Q a d) (hR : ∀ d, R' d → R d) : Leaves I m Q R :=
  Triple.weaken h (fun _ hs => hI _ hs) (fun _ _ hs => hQ _ _ hs) fun _ _ hs => hR _ hs

omit [Inhabited X] in
theorem Leaves.post (h : Leaves I m Q' R) (hQ : ∀ a d, Q' a d → Q a d) : Leaves I m Q R :=
  h.weaken (fun _ hd => hd) hQ fun _ hd => hd

omit [Inhabited X] in
theorem Leaves.given (h : ∀ d, I d → Leaves (· = d) m Q R) : Leaves I m Q R :=
  fun s hs => h s.disk hs s rfl

omit [Inhabited X] in
/-- The rule for sequences. -/
theorem Leaves.bind {f : α → FileMethod P X ε β} {Q' : β → Disk P → Prop} (hm : Leaves I m Q R)
    (hf : ∀ a, Leaves (Q a) (f a) Q' R) : Leaves I (m >>= f) Q' R := Triple.bind hm hf

theorem leaves_contact : Leaves I (contact : FileMethod P X ε _) (fun _ => I) R := fun _ h => h

theorem leaves_call {effect : Disk P → Option (Disk P)} {cut : Nat → Disk P → Disk P}
    {Q : Disk P → Prop} (hdone : ∀ d d', I d → effect d = some d' → Q d')
    (hnot : ∀ d, I d → effect d = none → R d) (hcut : ∀ d kept, I d → R (cut kept d)) :
    Leaves I (call effect cut error : FileMethod P X ε Unit) (fun _ => Q) R := by
  refine Triple.bind (leaves_contact (R := R)) fun c s hs => ?_
  cases hluck : c.luck with
  | served =>
      cases heffect : effect s.disk with
      | some disk =>
          exact hdone _ _ hs heffect
      | none =>
          exact hnot _ hs heffect
  | refused => exact hcut _ _ hs
  | ended => exact hcut _ _ hs

theorem leaves_probe {accepts : Disk P → Bool} (h : ∀ d, I d → R d) :
    Leaves I (probe accepts error : FileMethod P X ε Unit)
      (fun _ d => I d ∧ accepts d = true) R := by
  refine leaves_call (fun d d' hd heffect => ?_) (fun d hd _ => h d hd) fun d _ hd => h d hd
  split at heffect
  · next haccepts =>
      cases heffect
      exact ⟨hd, haccepts⟩
  · cases heffect

theorem leaves_observe {f : Disk P → X → Except ε α} (h : ∀ d, I d → R d)
    (hvalue : ∀ d x a, I d → f d x = .ok a → Q a d) :
    Leaves I (observe f error : FileMethod P X ε α) Q R := by
  refine Triple.bind (leaves_contact (R := R)) fun c s hs => ?_
  cases c.luck with
  | served =>
      cases hf : f s.disk c.outside with
      | ok a =>
          exact hvalue _ _ _ hs hf
      | error e =>
          exact h _ hs
  | refused => exact h _ hs
  | ended => exact h _ hs

theorem leaves_readFile {path : P} (h : ∀ d, I d → R d) :
    Leaves I (readFile path error : FileMethod P X ε Bytes)
      (fun bytes d => I d ∧ d path = some bytes) R :=
  leaves_observe h fun _ _ _ hd hok => ⟨hd, Checked.okOr_ok.1 hok⟩

theorem leaves_isThere {path : P} (h : ∀ d, I d → R d) :
    Leaves I (isThere path : FileMethod P X ε Bool) (fun _ => I) R := by
  refine Triple.bind (leaves_contact (R := R)) fun c s hs => ?_
  cases c.luck with
  | served => exact hs
  | refused => exact hs
  | ended => exact h _ hs

variable [DecidableEq P]

/-- What is left of a new file: nothing, or a part of it under a name that was free. -/
def Started (d : Disk P) (path : P) (bytes : Bytes) (d' : Disk P) : Prop :=
  d' = d ∨ d path = none ∧ ∃ kept, d' = d.put path (bytes.take kept)

theorem leaves_create {path : P} {bytes : Bytes} :
    Leaves (· = d) (create path bytes invalid error : FileMethod P X ε Unit)
      (fun _ d' => d path = none ∧ d' = d.put path bytes) (Started d path bytes) := by
  have hnew : Leaves (fun d' => d' = d ∧ true = true)
      (createNew path error : FileMethod P X ε Unit)
      (fun _ d' => d path = none ∧ d' = d.put path []) (Started d path bytes) := by
    refine leaves_call ?_ (fun d' h _ => .inl h.1) ?_
    · rintro d' d'' ⟨rfl, -⟩ heffect
      split at heffect
      · cases heffect
      · next hnone =>
          cases heffect
          exact ⟨Option.not_isSome_iff_eq_none.1 hnone, rfl⟩
    · rintro d' kept ⟨rfl, -⟩
      split
      · exact .inl rfl
      · next hnone =>
          rw [Bool.or_eq_true, not_or, Bool.not_eq_true, Bool.not_eq_true,
            Option.isSome_eq_false_iff, Option.isNone_iff_eq_none] at hnone
          exact .inr ⟨hnone.2, 0, by rw [List.take_zero]⟩
  have hwrite : Leaves (fun d' => d path = none ∧ d' = d.put path [])
      (writeAll path bytes error : FileMethod P X ε Unit)
      (fun _ d' => d path = none ∧ d' = d.put path bytes) (Started d path bytes) := by
    refine leaves_call ?_ (fun d' _ heffect => by cases heffect) ?_
    · rintro d' d'' ⟨hnone, rfl⟩ heffect
      cases heffect
      exact ⟨hnone, Disk.put_put ..⟩
    · rintro d' kept ⟨hnone, rfl⟩
      exact .inr ⟨hnone, kept, Disk.put_put ..⟩
  have hleft : ∀ d', d path = none ∧ d' = d.put path bytes → Started d path bytes d' :=
    fun d' h => .inr ⟨h.1, bytes.length, by rw [List.take_length, h.2]⟩
  refine (leaves_probe fun d' h => .inl h).bind fun _ => hnew.bind fun _ => hwrite.bind fun _ => ?_
  refine (leaves_probe hleft).bind fun _ => ?_
  exact (leaves_probe fun d' h => hleft d' h.1).post fun _ d' h => h.1.1

/-- What is left of a replacement: the old file with a part of the new one beside it, or the
new one. -/
def Replaced (d : Disk P) (path temporary : P) (bytes : Bytes) (d' : Disk P) : Prop :=
  Started d temporary bytes d' ∨ d temporary = none ∧ (d path).isSome = true ∧ d' = d.put path bytes

theorem leaves_replace {path temporary : P} {bytes : Bytes} :
    Leaves (· = d) (replace path temporary bytes invalid error : FileMethod P X ε Unit)
      (fun _ d' => d temporary = none ∧ (d path).isSome = true ∧ d' = d.put path bytes)
      (Replaced d path temporary bytes) := by
  have hplace (hsome : (d path).isSome = true) :
      Leaves (fun d' => d temporary = none ∧ d' = d.put temporary bytes)
        (rename temporary path error : FileMethod P X ε Unit)
        (fun _ d' => d temporary = none ∧ d' = d.put path bytes)
        (Replaced d path temporary bytes) := by
    have hmoved : d temporary = none → moved temporary path (d.put temporary bytes) =
        some (d.put path bytes) := fun hnone => by
      rw [moved, Disk.put_self, Option.map_some, Disk.remove_put _ _ hnone]
    refine leaves_call ?_ ?_ ?_
    · rintro d' d'' ⟨hnone, rfl⟩ heffect
      rw [hmoved hnone] at heffect
      cases heffect
      exact ⟨hnone, rfl⟩
    · rintro d' ⟨hnone, rfl⟩ heffect
      rw [hmoved hnone] at heffect
      cases heffect
    · rintro d' kept ⟨hnone, rfl⟩
      split
      · exact .inl (.inr ⟨hnone, bytes.length, by rw [List.take_length]⟩)
      · rw [hmoved hnone, Option.getD_some]
        exact .inr ⟨hnone, hsome, rfl⟩
  refine (leaves_probe fun d' h => .inl (.inl h)).bind fun _ => ?_
  refine (leaves_probe fun d' h => .inl (.inl h.1)).bind fun _ => .given ?_
  rintro d' ⟨⟨rfl, -⟩, hsome⟩
  refine (leaves_create.weaken (fun _ h => h) (fun _ _ h => h) fun _ h => .inl h).bind fun _ =>
    (hplace hsome).bind fun _ => ?_
  exact (leaves_probe fun d'' h => .inr ⟨h.1, hsome, h.2⟩).post fun _ d'' h => ⟨h.1.1, hsome, h.1.2⟩

end Rules

section Fixing

variable {σ τ ε α β : Type} {f : σ → τ}

/-- A part of the receiver that a method does not change, whatever it returns. -/
def Fixes (f : σ → τ) (m : Method σ ε α) : Prop := ∀ s, f (m s).2 = f s

theorem fixes_pure (a : α) : Fixes f (pure a : Method σ ε α) := fun _ => rfl

theorem fixes_ensure (x : Except ε α) : Fixes f (ensure x : Method σ (Halt ε) α) := fun _ => rfl

theorem fixes_throwing (e : ε) : Fixes f (throwing e : Method σ ε α) := fun _ => rfl

theorem Fixes.bind {m : Method σ ε α} {g : α → Method σ ε β} (hm : Fixes f m)
    (hg : ∀ a, Fixes f (g a)) : Fixes f (m >>= g) := by
  intro s
  have hs := hm s
  simp only [Bind.bind]
  rcases hrun : m s with ⟨e | a, s'⟩
  · rw [hrun] at hs
    exact hs
  · rw [hrun] at hs
    exact (hg a s').trans hs

theorem Fixes.attempt {m : Method σ (Halt ε) α} (hm : Fixes f m) : Fixes f (attempt m) := by
  intro s
  have hs := hm s
  rw [Files.attempt]
  rcases hrun : m s with ⟨(e | _) | a, s'⟩
  all_goals
    rw [hrun] at hs
    exact hs

theorem Fixes.triple {m : Method σ ε α} (hm : Fixes f m) {P : τ → Prop} :
    Triple (fun s => P (f s)) m (fun _ s => P (f s)) fun _ s => P (f s) := by
  intro s hs
  have hsame := hm s
  rcases hrun : m s with ⟨e | a, s'⟩
  · rw [hrun] at hsame
    change P (f s')
    rwa [hsame]
  · rw [hrun] at hsame
    change P (f s')
    rwa [hsame]

variable {P X : Type} [Inhabited X]

theorem fixes_contact : Fixes Machine.disk (contact : FileMethod P X ε _) := fun _ => rfl

theorem fixes_observe {g : Disk P → X → Except ε α} {error : ε} :
    Fixes Machine.disk (observe g error : FileMethod P X ε α) :=
  fixes_contact.bind fun c => by
    intro s
    cases c.luck with
    | served => rfl
    | refused => rfl
    | ended => rfl

theorem fixes_readFile {path : P} {error : ε} :
    Fixes Machine.disk (readFile path error : FileMethod P X ε Bytes) := fixes_observe

theorem fixes_probe {accepts : Disk P → Bool} {error : ε} :
    Fixes Machine.disk (probe accepts error : FileMethod P X ε Unit) :=
  fixes_contact.bind fun c => by
    intro s
    cases hluck : c.luck with
    | served =>
        cases haccepts : accepts s.disk with
        | true => simp [haccepts]
        | false => simp [haccepts]
    | refused => rfl
    | ended => rfl

end Fixing

end Files
