import ResponseGateway.Library.Checked

/-!
Methods on a mutable receiver that return a result. An early return of an error
keeps every update made before it, so that a rejected call leaves the receiver
unchanged is something to prove (`Atomic`) and not a matter of the encoding.
`Trace` is the history of accepted calls; the induction over it is the rule for
invariants that mention what has been accepted so far.
-/

universe u

/-- A method on `&mut self`: the result and the receiver after it. -/
def Method (σ ε α : Type u) : Type u := σ → Except ε α × σ

namespace Method

variable {σ ε α β : Type u}

instance : Monad (Method σ ε) where
  pure a := fun s => (.ok a, s)
  bind m f := fun s =>
    match m s with
    | (.ok a, s') => f a s'
    | (.error e, s') => (.error e, s')

/-- The current receiver. -/
def read : Method σ ε σ := fun s => (.ok s, s)

def write (f : σ → σ) : Method σ ε PUnit := fun s => (.ok ⟨⟩, f s)

/-- A step that only looks at values already read. -/
def check (x : Except ε α) : Method σ ε α := fun s => (x, s)

/-- Run the body and undo its updates when it fails. -/
def transaction (m : Method σ ε α) : Method σ ε α := fun s =>
  match m s with
  | (.ok a, s') => (.ok a, s')
  | (.error e, _) => (.error e, s)

theorem bind_accepts {m : Method σ ε α} {f : α → Method σ ε β} {s s' : σ} {b : β} :
    (m >>= f) s = (.ok b, s') ↔ ∃ a s₁, m s = (.ok a, s₁) ∧ f a s₁ = (.ok b, s') := by
  simp only [bind]
  split
  · next a s₁ h => simp [h]
  · next e s₁ h => simp [h]

theorem bind_rejects {m : Method σ ε α} {f : α → Method σ ε β} {s s' : σ} {e : ε} :
    (m >>= f) s = (.error e, s') ↔ m s = (.error e, s') ∨
      ∃ a s₁, m s = (.ok a, s₁) ∧ f a s₁ = (.error e, s') := by
  simp only [bind]
  split
  · next a s₁ h => simp [h]
  · next e s₁ h => simp [h]

theorem check_bind_rejects {x : Except ε α} {f : α → Method σ ε β} {s s' : σ} {e : ε} :
    (check x >>= f) s = (.error e, s') ↔ x = .error e ∧ s = s' ∨
      ∃ a, x = .ok a ∧ f a s = (.error e, s') := by
  rw [bind_rejects]
  simp [check]

@[simp] theorem pure_accepts {a b : α} {s s' : σ} :
    (pure a : Method σ ε α) s = (.ok b, s') ↔ a = b ∧ s = s' := by
  simp [pure]

@[simp] theorem read_accepts {s s' t : σ} :
    (read : Method σ ε σ) s = (.ok t, s') ↔ s = t ∧ s = s' := by
  simp [read]

@[simp] theorem write_accepts {f : σ → σ} {s s' : σ} {u : PUnit} :
    (write f : Method σ ε PUnit) s = (.ok u, s') ↔ f s = s' := by
  simp [write]

@[simp] theorem check_accepts {x : Except ε α} {a : α} {s s' : σ} :
    (check x : Method σ ε α) s = (.ok a, s') ↔ x = .ok a ∧ s = s' := by
  simp [check]

theorem read_bind (f : σ → Method σ ε β) (s : σ) : (read >>= f) s = f s s := rfl

theorem read_bind_accepts {f : σ → Method σ ε β} {s s' : σ} {b : β} :
    (read >>= f) s = (.ok b, s') ↔ f s s = (.ok b, s') := Iff.rfl

theorem check_bind_accepts {x : Except ε α} {f : α → Method σ ε β} {s s' : σ} {b : β} :
    (check x >>= f) s = (.ok b, s') ↔ ∃ a, x = .ok a ∧ f a s = (.ok b, s') := by
  simp [bind_accepts]

theorem check_error_bind (e : ε) (f : α → Method σ ε β) (s : σ) :
    ((check (.error e) : Method σ ε α) >>= f) s = (.error e, s) := rfl

theorem write_bind_accepts {g : σ → σ} {f : PUnit → Method σ ε β} {s s' : σ} {b : β} :
    (write g >>= f) s = (.ok b, s') ↔ f ⟨⟩ (g s) = (.ok b, s') := Iff.rfl

@[simp] theorem transaction_accepts {m : Method σ ε α} {s s' : σ} {a : α} :
    transaction m s = (.ok a, s') ↔ m s = (.ok a, s') := by
  unfold transaction
  split
  · next h => rw [h]
  · next h => simp [h]

theorem transaction_rejects {m : Method σ ε α} {s s' : σ} {e : ε} :
    transaction m s = (.error e, s') ↔ s = s' ∧ ∃ s₁, m s = (.error e, s₁) := by
  unfold transaction
  split
  · next h => simp [h]
  · next e' s₁ h => simp [h, and_comm]

section Parts

variable {τ : Type u}

/-- A method of a part of the receiver. -/
def zoom (get : σ → τ) (set : τ → σ → σ) (m : Method τ ε α) : Method σ ε α := fun s =>
  ((m (get s)).1, set (m (get s)).2 s)

theorem zoom_accepts {get : σ → τ} {set : τ → σ → σ} {m : Method τ ε α} {s s' : σ} {a : α} :
    zoom get set m s = (.ok a, s') ↔ ∃ t, m (get s) = (.ok a, t) ∧ set t s = s' := by
  rw [zoom, Prod.mk.injEq]
  constructor
  · rintro ⟨hresult, rfl⟩
    exact ⟨_, Prod.ext hresult rfl, rfl⟩
  · rintro ⟨t, hcall, rfl⟩
    rw [hcall]
    exact ⟨rfl, rfl⟩

/-- A method that does not panic, inside one that may. -/
def faulting (m : Method σ ε α) : Method σ (Checked.Fault ε) α := fun s =>
  (Checked.lift (m s).1, (m s).2)

@[simp] theorem faulting_accepts {m : Method σ ε α} {s s' : σ} {a : α} :
    faulting m s = (.ok a, s') ↔ m s = (.ok a, s') := by
  rw [faulting, Prod.mk.injEq, Checked.lift_ok, Prod.ext_iff]

end Parts

section Atomicity

/-- The receiver is only looked at. -/
def Keeps (m : Method σ ε α) : Prop := ∀ s, (m s).2 = s

/-- The method returns no error. -/
def Succeeds (m : Method σ ε α) : Prop := ∀ s, ∃ a s', m s = (.ok a, s')

/-- A rejected call leaves the receiver unchanged. -/
def Atomic (m : Method σ ε α) : Prop := ∀ s e s', m s = (.error e, s') → s' = s

theorem keeps_read : Keeps (read : Method σ ε σ) := fun _ => rfl

theorem keeps_check (x : Except ε α) : Keeps (check x : Method σ ε α) := fun _ => rfl

theorem keeps_pure (a : α) : Keeps (pure a : Method σ ε α) := fun _ => rfl

theorem Keeps.keeps_bind {m : Method σ ε α} {f : α → Method σ ε β} (hm : Keeps m)
    (hf : ∀ a, Keeps (f a)) : Keeps (m >>= f) := by
  intro s
  have hs := hm s
  cases hcall : m s with
  | mk result s₁ =>
      rw [hcall] at hs
      cases hs
      cases result with
      | error e => simp only [bind, hcall]
      | ok a =>
          simp only [bind, hcall]
          exact hf a s₁

theorem succeeds_pure (a : α) : Succeeds (pure a : Method σ ε α) := fun s => ⟨a, s, rfl⟩

theorem succeeds_write (f : σ → σ) : Succeeds (write f : Method σ ε PUnit) :=
  fun s => ⟨⟨⟩, f s, rfl⟩

theorem succeeds_bind {m : Method σ ε α} {f : α → Method σ ε β} (hm : Succeeds m)
    (hf : ∀ a, Succeeds (f a)) : Succeeds (m >>= f) := by
  intro s
  obtain ⟨a, s₁, ha⟩ := hm s
  obtain ⟨b, s₂, hb⟩ := hf a s₁
  exact ⟨b, s₂, bind_accepts.2 ⟨a, s₁, ha, hb⟩⟩

theorem Succeeds.atomic {m : Method σ ε α} (hm : Succeeds m) : Atomic m := by
  intro s e s' h
  obtain ⟨a, s₁, ha⟩ := hm s
  rw [ha] at h
  cases h

theorem Keeps.atomic {m : Method σ ε α} (hm : Keeps m) : Atomic m := by
  intro s e s' h
  rw [← hm s, h]

/-- Nothing has been written before the rest of the body runs. -/
theorem Keeps.atomic_bind {m : Method σ ε α} {f : α → Method σ ε β} (hm : Keeps m)
    (hf : ∀ a, Atomic (f a)) : Atomic (m >>= f) := by
  intro s e s' h
  have hs := hm s
  simp only [bind] at h
  split at h
  · next a s₁ hok =>
      rw [hok] at hs
      cases hs
      exact hf a _ e s' h
  · next e' s₁ herr =>
      rw [herr] at hs
      cases h
      exact hs

/-- Nothing fails after the first part has written. -/
theorem Atomic.bind_succeeds {m : Method σ ε α} {f : α → Method σ ε β} (hm : Atomic m)
    (hf : ∀ a, Succeeds (f a)) : Atomic (m >>= f) := by
  intro s e s' h
  simp only [bind] at h
  split at h
  · next a s₁ hok =>
      obtain ⟨b, s₂, hb⟩ := hf a s₁
      rw [hb] at h
      cases h
  · next e' s₁ herr =>
      cases h
      exact hm s e s' herr

theorem atomic_transaction (m : Method σ ε α) : Atomic (transaction m) := by
  intro s e s' h
  unfold transaction at h
  split at h <;> cases h
  rfl

end Atomicity

section Runs

variable {ι : Type*} (step : ι → Method σ ε α)

/-- The receiver after a sequence of calls, accepted or not. -/
def run (s : σ) : List ι → σ
  | [] => s
  | i :: rest => run (step i s).2 rest

/-- The calls of the sequence that were accepted. -/
def accepted (s : σ) : List ι → List ι
  | [] => []
  | i :: rest =>
      match step i s with
      | (.ok _, s') => i :: accepted s' rest
      | (.error _, s') => accepted s' rest

/-- What the calls of the sequence return. -/
def replies (s : σ) : List ι → List (Except ε α)
  | [] => []
  | i :: rest => (step i s).1 :: replies (step i s).2 rest

/-- What the accepted calls return. -/
def returned (s : σ) (calls : List ι) : List α :=
  (replies step s calls).filterMap Except.toOption

/-- The receiver reached by accepted calls alone, oldest first. -/
inductive Trace (s₀ : σ) : List ι → σ → Prop where
  | nil : Trace s₀ [] s₀
  | snoc {past : List ι} {s s' : σ} {i : ι} {a : α} (prior : Trace s₀ past s)
      (call : step i s = (.ok a, s')) : Trace s₀ (past ++ [i]) s'

variable {step}

theorem trace_extend {s₀ s : σ} {past : List ι} (hatomic : ∀ i, Atomic (step i))
    (hpast : Trace step s₀ past s) (calls : List ι) :
    Trace step s₀ (past ++ accepted step s calls) (run step s calls) := by
  induction calls generalizing past s with
  | nil => simpa [run, accepted] using hpast
  | cons i rest ih =>
      rw [run, accepted]
      split
      · next a s' hok =>
          rw [hok, List.append_cons]
          exact ih (hpast.snoc hok)
      · next e s' herr =>
          rw [herr, hatomic i s e s' herr]
          exact ih hpast

/-- With atomic calls, a run is the trace of its accepted calls. -/
theorem trace_run (hatomic : ∀ i, Atomic (step i)) (s : σ) (calls : List ι) :
    Trace step s (accepted step s calls) (run step s calls) :=
  trace_extend hatomic Trace.nil calls

/-- Dropping the rejected calls of a sequence changes neither the final receiver
nor which calls are accepted. -/
theorem run_accepted (hatomic : ∀ i, Atomic (step i)) (s : σ) (calls : List ι) :
    run step s (accepted step s calls) = run step s calls ∧
      accepted step s (accepted step s calls) = accepted step s calls := by
  induction calls generalizing s with
  | nil => exact ⟨rfl, rfl⟩
  | cons i rest ih =>
      simp only [accepted, run]
      split
      · next a s' hok =>
          simpa only [accepted, run, hok, List.cons.injEq, true_and] using ih s'
      · next e s' herr =>
          rw [herr]
          cases hatomic i s e s' herr
          exact ih s

theorem Trace.invariant {s₀ s : σ} {past : List ι} {Inv : σ → Prop} (htrace : Trace step s₀ past s)
    (hinit : Inv s₀) (hstep : ∀ i s a s', Inv s → step i s = (.ok a, s') → Inv s') : Inv s := by
  induction htrace with
  | nil => exact hinit
  | snoc _ call ih => exact hstep _ _ _ _ ih call

/-- A reflexive and transitive relation that every accepted call respects holds
between the ends of a trace. -/
theorem Trace.related {R : σ → σ → Prop} {s₀ s : σ} {past : List ι}
    (htrace : Trace step s₀ past s) (hrefl : ∀ s, R s s)
    (htrans : ∀ a b c, R a b → R b c → R a c)
    (hstep : ∀ i s a s', step i s = (.ok a, s') → R s s') : R s₀ s := by
  induction htrace with
  | nil => exact hrefl _
  | snoc _ call ih => exact htrans _ _ _ ih (hstep _ _ _ _ call)

theorem run_append (s : σ) (calls more : List ι) :
    run step s (calls ++ more) = run step (run step s calls) more := by
  induction calls generalizing s with
  | nil => rfl
  | cons i rest ih => exact ih _

theorem replies_append (s : σ) (calls more : List ι) :
    replies step s (calls ++ more) = replies step s calls ++ replies step (run step s calls) more := by
  induction calls generalizing s with
  | nil => rfl
  | cons i rest ih => rw [List.cons_append, replies, ih, replies, List.cons_append, run]

theorem returned_append (s : σ) (calls more : List ι) : returned step s (calls ++ more) =
    returned step s calls ++ returned step (run step s calls) more := by
  rw [returned, replies_append, List.filterMap_append, ← returned, ← returned]

theorem run_accepts {s s' : σ} {i : ι} {a : α} (h : step i s = (.ok a, s')) (rest : List ι) :
    run step s (i :: rest) = run step s' rest ∧
      returned step s (i :: rest) = a :: returned step s' rest := by
  rw [run, returned, replies, h]
  exact ⟨rfl, rfl⟩

/-- An invariant about the receiver and everything that was returned so far. -/
theorem returned_rule {Inv : List α → σ → Prop} {past : List α} {s : σ}
    (haccept : ∀ past s i a s', Inv past s → step i s = (.ok a, s') → Inv (past ++ [a]) s')
    (hreject : ∀ past s i e s', Inv past s → step i s = (.error e, s') → Inv past s')
    (hinit : Inv past s) (calls : List ι) :
    Inv (past ++ returned step s calls) (run step s calls) := by
  induction calls generalizing past s with
  | nil => simpa [returned, replies, run] using hinit
  | cons i rest ih =>
      rw [run, returned, replies]
      cases hcall : step i s with
      | mk result s' =>
          cases result with
          | ok a =>
              change Inv (past ++ a :: returned step s' rest) (run step s' rest)
              rw [List.append_cons]
              exact ih (haccept past s i a s' hinit hcall)
          | error e =>
              change Inv (past ++ returned step s' rest) (run step s' rest)
              exact ih (hreject past s i e s' hinit hcall)

/-- When a rejected call leaves a receiver that rejects every call, no call is accepted
after it. -/
theorem replies_rule {Over : σ → Prop} (hover : ∀ s i, Over s → ∃ e, step i s = (.error e, s))
    (hreject : ∀ s i e s', step i s = (.error e, s') → Over s') (s : σ) (calls : List ι) :
    ∃ (accepted : List α) (errors : List ε),
      replies step s calls = accepted.map .ok ++ errors.map .error := by
  have hend : ∀ s, Over s → ∀ calls : List ι, ∃ errors : List ε,
      replies step s calls = errors.map .error := by
    intro s hs calls
    induction calls with
    | nil => exact ⟨[], rfl⟩
    | cons i rest ih =>
        obtain ⟨e, he⟩ := hover s i hs
        obtain ⟨errors, herrors⟩ := ih
        exact ⟨e :: errors, by rw [replies, he, herrors, List.map_cons]⟩
  induction calls generalizing s with
  | nil => exact ⟨[], [], rfl⟩
  | cons i rest ih =>
      rw [replies]
      cases hcall : step i s with
      | mk result s' =>
          cases result with
          | ok a =>
              obtain ⟨accepted, errors, h⟩ := ih s'
              exact ⟨a :: accepted, errors, by rw [h, List.map_cons, List.cons_append]⟩
          | error e =>
              obtain ⟨errors, h⟩ := hend s' (hreject s i e s' hcall) rest
              exact ⟨[], e :: errors, by rw [h, List.map_nil, List.nil_append, List.map_cons]⟩

theorem accepted_of_rejecting {s : σ} (hreject : ∀ i, ∃ e, step i s = (.error e, s))
    (calls : List ι) : accepted step s calls = [] := by
  induction calls with
  | nil => rfl
  | cons i rest ih =>
      obtain ⟨e, he⟩ := hreject i
      simp only [accepted, he, ih]

end Runs

end Method
