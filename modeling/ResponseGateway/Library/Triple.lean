import ResponseGateway.Library.Method

/-!
Pre- and postconditions of methods that may fail at any step. A triple has two
postconditions: one for the result, one for whatever is left when a step fails, so
that an invariant proved at both ends holds wherever a run is cut off.
-/

namespace Method

variable {σ ε α β : Type}

/-- From a state with `P`, a result leaves `Q` and a failure leaves `R`. -/
def Triple (P : σ → Prop) (m : Method σ ε α) (Q : α → σ → Prop) (R : ε → σ → Prop) : Prop :=
  ∀ s, P s → match m s with
    | (.ok a, s') => Q a s'
    | (.error e, s') => R e s'

/-- Stop with an error. -/
def throwing (e : ε) : Method σ ε α := fun s => (.error e, s)

/-- Rename the errors of a method. -/
def mapErr {δ : Type} (f : ε → δ) (m : Method σ ε α) : Method σ δ α := fun s =>
  match m s with
  | (.ok a, s') => (.ok a, s')
  | (.error e, s') => (.error (f e), s')

/-- Run a method and clean up behind it, however it ends. -/
def ensuring (m : Method σ ε α) (f : σ → σ) : Method σ ε α := fun s =>
  let (result, s') := m s
  (result, f s')

section Rules

variable {P P' : σ → Prop} {Q Q' : α → σ → Prop} {R R' : ε → σ → Prop}
  {m : Method σ ε α}

theorem Triple.weaken (h : Triple P' m Q' R') (hP : ∀ s, P s → P' s)
    (hQ : ∀ a s, Q' a s → Q a s) (hR : ∀ e s, R' e s → R e s) : Triple P m Q R := by
  intro s hs
  have hrun := h s (hP s hs)
  match hm : m s with
  | (.ok a, s') =>
      rw [hm] at hrun
      exact hQ a s' hrun
  | (.error e, s') =>
      rw [hm] at hrun
      exact hR e s' hrun

theorem Triple.pre (h : Triple P' m Q R) (hP : ∀ s, P s → P' s) : Triple P m Q R :=
  h.weaken hP (fun _ _ hQ => hQ) fun _ _ hR => hR

theorem Triple.given (h : ∀ s, P s → Triple (· = s) m Q R) : Triple P m Q R :=
  fun s hs => h s hs s rfl

theorem Triple.post (h : Triple P m Q' R) (hQ : ∀ a s, Q' a s → Q a s) : Triple P m Q R :=
  h.weaken (fun _ hP => hP) hQ fun _ _ hR => hR

/-- The rule for sequences: what the first part leaves is what the rest starts from. -/
theorem Triple.bind {f : α → Method σ ε β} {Q' : β → σ → Prop} (hm : Triple P m Q R)
    (hf : ∀ a, Triple (Q a) (f a) Q' R) : Triple P (m >>= f) Q' R := by
  intro s hs
  have hfirst := hm s hs
  simp only [Bind.bind]
  match hrun : m s with
  | (.ok a, s') =>
      rw [hrun] at hfirst
      exact hf a s' hfirst
  | (.error e, s') =>
      rw [hrun] at hfirst
      exact hfirst

theorem triple_pure {a : α} (h : ∀ s, P s → Q a s) : Triple P (pure a : Method σ ε α) Q R := h

theorem triple_throwing {e : ε} (h : ∀ s, P s → R e s) :
    Triple P (throwing e : Method σ ε α) Q R := h

theorem triple_read {Q : σ → σ → Prop} (h : ∀ s, P s → Q s s) :
    Triple P (read : Method σ ε σ) Q R := h

theorem triple_write {f : σ → σ} {Q : PUnit → σ → Prop} (h : ∀ s, P s → Q ⟨⟩ (f s)) :
    Triple P (write f : Method σ ε PUnit) Q R := h

theorem triple_check {x : Except ε α} (hok : ∀ a s, x = .ok a → P s → Q a s)
    (herror : ∀ e s, x = .error e → P s → R e s) : Triple P (check x : Method σ ε α) Q R := by
  intro s hs
  simp only [check]
  cases x with
  | ok a => exact hok a s rfl hs
  | error e => exact herror e s rfl hs

theorem triple_mapErr {δ : Type} {f : ε → δ} {R : δ → σ → Prop}
    (h : Triple P m Q fun e s => R (f e) s) : Triple P (mapErr f m) Q R := by
  intro s hs
  have hrun := h s hs
  simp only [mapErr]
  match hm : m s with
  | (.ok a, s') =>
      rw [hm] at hrun
      exact hrun
  | (.error e, s') =>
      rw [hm] at hrun
      exact hrun

theorem triple_ensuring {f : σ → σ} (h : Triple P m (fun a s => Q a (f s)) fun e s => R e (f s)) :
    Triple P (ensuring m f) Q R := by
  intro s hs
  have hrun := h s hs
  simp only [ensuring]
  match hm : m s with
  | (.ok a, s') =>
      rw [hm] at hrun
      exact hrun
  | (.error e, s') =>
      rw [hm] at hrun
      exact hrun

/-- A method of a part of the receiver, from what is known of the whole. -/
theorem triple_zoom {τ : Type} {get : σ → τ} {set : τ → σ → σ} {n : Method τ ε α}
    (h : ∀ s, P s → Triple (· = get s) n (fun a t => Q a (set t s)) fun e t => R e (set t s)) :
    Triple P (zoom get set n) Q R := by
  intro s hs
  have hrun := h s hs (get s) rfl
  simp only [zoom]
  rcases hm : n (get s) with ⟨e | a, t⟩
  · rw [hm] at hrun
    exact hrun
  · rw [hm] at hrun
    exact hrun

theorem triple_faulting {R : Checked.Fault ε → σ → Prop}
    (h : Triple P m Q fun e s => R (.error e) s) : Triple P (faulting m) Q R := by
  intro s hs
  have hrun := h s hs
  simp only [faulting]
  rcases hm : m s with ⟨e | a, s'⟩
  · rw [hm] at hrun
    exact hrun
  · rw [hm] at hrun
    exact hrun

/-- A loop whose every turn restores what it starts from. -/
theorem triple_forM {ι : Type} {l : List ι} {f : ι → Method σ ε PUnit}
    (h : ∀ i ∈ l, Triple P (f i) (fun _ => P) R) : Triple P (l.forM f) (fun _ => P) R := by
  induction l with
  | nil => exact triple_pure fun _ hs => hs
  | cons i rest ih =>
      rw [List.forall_mem_cons] at h
      exact Triple.bind h.1 fun _ => ih h.2

/-- What holds at both ends holds after the call, with any outcome. -/
theorem Triple.after {I : σ → Prop} (h : Triple P m (fun _ => I) fun _ => I) {s : σ} (hs : P s) :
    I (m s).2 := by
  have hrun := h s hs
  match hm : m s with
  | (.ok a, s') =>
      rw [hm] at hrun
      exact hrun
  | (.error e, s') =>
      rw [hm] at hrun
      exact hrun

theorem Triple.after_error (h : Triple P m Q R) {s s' : σ} {e : ε} (hs : P s)
    (hm : m s = (.error e, s')) : R e s' := by
  have hrun := h s hs
  rw [hm] at hrun
  exact hrun

end Rules

end Method
