import Mathlib

/-!
Sequencing of fallible steps. Early returns of the modelled code are `rejectIf`
and `okOr` steps, so a successful run is taken apart with `bind_ok` alone.
`Fault` separates a returned error from a panic, for code whose indexing is
part of what is proved. `Decides` is for fallible tests: they answer, and the
answer is a statement's truth.
-/

namespace Checked

universe u v
variable {ε : Type u} {α β : Type v}

/-- An early return of an error when the condition holds. -/
def rejectIf (c : Bool) (e : ε) : Except ε Unit := if c then .error e else .ok ()

/-- `Option::ok_or`. -/
def okOr (o : Option α) (e : ε) : Except ε α :=
  match o with
  | some a => .ok a
  | none => .error e

theorem bind_ok {x : Except ε α} {f : α → Except ε β} {b : β} :
    (x >>= f) = .ok b ↔ ∃ a, x = .ok a ∧ f a = .ok b := by
  cases x <;> simp [bind, Except.bind]

@[simp] theorem bind_of_ok (a : α) (f : α → Except ε β) : (Except.ok a >>= f) = f a := rfl

@[simp] theorem bind_of_error (e : ε) (f : α → Except ε β) :
    (Except.error e >>= f) = .error e := rfl

theorem bind_congr {x : Except ε α} {f g : α → Except ε β} (h : ∀ a, x = .ok a → f a = g a) :
    (x >>= f) = (x >>= g) := by
  cases x with
  | error e => rfl
  | ok a => exact h a rfl

@[simp] theorem pure_ok {a b : α} : (pure a : Except ε α) = .ok b ↔ a = b := by
  simp [pure, Except.pure]

@[simp] theorem rejectIf_ok {c : Bool} {e : ε} {u : Unit} :
    rejectIf c e = .ok u ↔ c = false := by
  cases c <;> simp [rejectIf]

theorem rejectIf_error {c : Bool} {e e' : ε} :
    rejectIf c e = .error e' ↔ c = true ∧ e = e' := by
  cases c <;> simp [rejectIf]

theorem okOr_error {o : Option α} {e e' : ε} :
    okOr o e = .error e' ↔ o = none ∧ e = e' := by
  cases o <;> simp [okOr]

@[simp] theorem rejectIf_false (e : ε) : rejectIf false e = .ok () := rfl

@[simp] theorem rejectIf_true (e : ε) : rejectIf true e = .error e := rfl

@[simp] theorem okOr_ok {o : Option α} {e : ε} {a : α} : okOr o e = .ok a ↔ o = some a := by
  cases o <;> simp [okOr]

@[simp] theorem okOr_some (a : α) (e : ε) : okOr (some a) e = .ok a := rfl

theorem mapError_ok {ε' : Type*} {f : ε → ε'} {x : Except ε α} {a : α} :
    x.mapError f = .ok a ↔ x = .ok a := by
  cases x <;> simp [Except.mapError]

section Loops

variable {σ : Type v} {f : σ → α → Except ε σ}

/-- The rule for a loop that returns early on an error: what each iteration keeps
holds of the final state, together with the elements seen so far. -/
theorem foldlM_rule {P : List α → σ → Prop} {l : List α} {s s' : σ}
    (h : l.foldlM f s = .ok s') (init : P [] s)
    (step : ∀ done a rest s s', l = done ++ a :: rest → P done s → f s a = .ok s' →
      P (done ++ [a]) s') : P l s' := by
  suffices hrun : ∀ rest done s, l = done ++ rest → P done s → rest.foldlM f s = .ok s' → P l s' by
    exact hrun l [] s rfl init h
  intro rest
  induction rest with
  | nil =>
      intro done s hl hP hrest
      rw [List.append_nil] at hl
      cases hrest
      exact hl ▸ hP
  | cons a rest ih =>
      intro done s hl hP hrest
      rw [List.foldlM_cons] at hrest
      obtain ⟨s₁, hs₁, hrest⟩ := bind_ok.1 hrest
      exact ih (done ++ [a]) s₁ (by rw [hl, List.append_assoc]; rfl)
        (step done a rest s s₁ hl hP hs₁) hrest

variable {g : α → Except ε β} {l : List α}

/-- Whatever a mapped list holds came from one of its arguments. -/
theorem mapM_mem_ok {m : List β} {b : β} (h : l.mapM g = .ok m) (hb : b ∈ m) :
    ∃ a ∈ l, g a = .ok b := by
  induction l generalizing m with
  | nil =>
      cases h
      cases hb
  | cons a l ih =>
      rw [List.mapM_cons] at h
      obtain ⟨x, hx, h⟩ := bind_ok.1 h
      obtain ⟨xs, hxs, h⟩ := bind_ok.1 h
      cases h
      rcases List.mem_cons.1 hb with rfl | hb
      · exact ⟨a, List.mem_cons_self, hx⟩
      · obtain ⟨a', ha', hf⟩ := ih hxs hb
        exact ⟨a', List.mem_cons_of_mem _ ha', hf⟩

/-- A map that fails nowhere. -/
theorem mapM_mem {m : List β} {a : α} {b : β} (h : l.mapM g = .ok m) (ha : a ∈ l)
    (hb : g a = .ok b) : b ∈ m := by
  induction l generalizing m with
  | nil => cases ha
  | cons first l ih =>
      rw [List.mapM_cons] at h
      obtain ⟨b', hb', h⟩ := bind_ok.1 h
      obtain ⟨rest, hrest, h⟩ := bind_ok.1 h
      rw [← pure_ok.1 h]
      rcases List.mem_cons.1 ha with rfl | hmem
      · rw [hb', Except.ok.injEq] at hb
        exact hb ▸ List.mem_cons_self
      · exact List.mem_cons_of_mem _ (ih hrest hmem)

theorem mapM_of_forall (h : ∀ a ∈ l, ∃ b, g a = .ok b) :
    ∃ m, l.mapM g = .ok m ∧ m.length = l.length := by
  induction l with
  | nil => exact ⟨[], rfl, rfl⟩
  | cons a l ih =>
      rw [List.forall_mem_cons] at h
      obtain ⟨⟨b, hb⟩, hrest⟩ := h
      obtain ⟨m, hm, hlength⟩ := ih hrest
      refine ⟨b :: m, ?_, congrArg (· + 1) hlength⟩
      rw [List.mapM_cons, hb, hm]
      rfl

theorem forM_of_forall {f : α → Except ε PUnit} {l : List α} (h : ∀ a ∈ l, f a = .ok ⟨⟩) :
    l.forM f = .ok ⟨⟩ := by
  induction l with
  | nil => rfl
  | cons a l ih =>
      rw [List.forall_mem_cons] at h
      change (f a >>= fun _ => l.forM f) = _
      rw [h.1]
      exact ih h.2

theorem forall_of_forM {f : α → Except ε PUnit} {l : List α} {u : PUnit}
    (h : l.forM f = .ok u) : ∀ a ∈ l, f a = .ok ⟨⟩ := by
  induction l with
  | nil => simp
  | cons a l ih =>
      obtain ⟨_, hfirst, hrest⟩ := bind_ok.1 (show (f a >>= fun _ => l.forM f) = _ from h)
      exact List.forall_mem_cons.2 ⟨hfirst, ih hrest⟩

theorem forM_ok {f : α → Except ε PUnit} {l : List α} {u : PUnit} :
    l.forM f = .ok u ↔ ∀ a ∈ l, f a = .ok ⟨⟩ := ⟨forall_of_forM, forM_of_forall⟩

/-- A mapped list has the results of its arguments, place by place. -/
theorem mapM_getElem_ok {m : List β} (h : l.mapM g = .ok m) :
    m.length = l.length ∧
      ∀ (i : Nat) (b : β), m[i]? = some b → ∃ a, l[i]? = some a ∧ g a = .ok b := by
  induction l generalizing m with
  | nil =>
      cases h
      simp
  | cons a l ih =>
      rw [List.mapM_cons] at h
      obtain ⟨b, hb, h⟩ := bind_ok.1 h
      obtain ⟨rest, hrest, h⟩ := bind_ok.1 h
      cases h
      obtain ⟨hlength, hall⟩ := ih hrest
      refine ⟨by simp [hlength], fun i b' hi => ?_⟩
      cases i with
      | zero =>
          cases hi
          exact ⟨a, rfl, hb⟩
      | succ i => exact hall i b' hi

/-- The same with the places as arguments. -/
theorem mapM_zipIdx_ok {g : α × Nat → Except ε β} {m : List β} (h : l.zipIdx.mapM g = .ok m) :
    m.length = l.length ∧
      ∀ (i : Nat) (a : α) (b : β), l[i]? = some a → m[i]? = some b → g (a, i) = .ok b := by
  obtain ⟨hlength, hall⟩ := mapM_getElem_ok h
  refine ⟨by rw [hlength, List.length_zipIdx], fun i a b ha hb => ?_⟩
  obtain ⟨entry, hentry, hg⟩ := hall i b hb
  rw [List.getElem?_zipIdx, ha, Option.map_some, Option.some.injEq, Nat.zero_add] at hentry
  rwa [hentry]

end Loops

/-- A failed run: an error value, or a panic. -/
inductive Fault (ε : Type u) where
  | error (e : ε)
  | panic
  deriving DecidableEq, Repr

/-- Run fallible code that cannot panic inside code that can. -/
def lift (x : Except ε α) : Except (Fault ε) α :=
  match x with
  | .ok a => .ok a
  | .error e => .error (.error e)

@[simp] theorem lift_ok {x : Except ε α} {a : α} : lift x = .ok a ↔ x = .ok a := by
  cases x <;> simp [lift]

@[simp] theorem lift_of_ok (a : α) : lift (.ok a : Except ε α) = .ok a := rfl

/-- The step does not panic. -/
def Safe (x : Except (Fault ε) α) : Prop := x ≠ .error .panic

theorem safe_ok (a : α) : Safe (.ok a : Except (Fault ε) α) := by
  intro h; cases h

theorem safe_lift (x : Except ε α) : Safe (lift x) := by
  cases x <;> simp [Safe, lift]

theorem safe_bind {x : Except (Fault ε) α} {f : α → Except (Fault ε) β}
    (hx : Safe x) (hf : ∀ a, x = .ok a → Safe (f a)) : Safe (x >>= f) := by
  cases x with
  | error e => exact fun h => hx (by cases h; rfl)
  | ok a => exact hf a rfl

/-- `v[i]`. -/
def index (l : List α) (i : Nat) : Except (Fault ε) α := okOr l[i]? .panic

/-- `v[start..stop]`. -/
def slice (l : List α) (start stop : Nat) : Except (Fault ε) (List α) :=
  if start ≤ stop ∧ stop ≤ l.length then .ok ((l.take stop).drop start) else .error .panic

/-- `v[start..]`. -/
def sliceFrom (l : List α) (start : Nat) : Except (Fault ε) (List α) :=
  if start ≤ l.length then .ok (l.drop start) else .error .panic

theorem index_zero (a : α) (l : List α) :
    (index (a :: l) 0 : Except (Fault ε) α) = .ok a := rfl

theorem slice_of_le {l : List α} {start stop : Nat} (h : start ≤ stop) (hl : stop ≤ l.length) :
    (slice l start stop : Except (Fault ε) (List α)) = .ok ((l.take stop).drop start) :=
  if_pos ⟨h, hl⟩

theorem sliceFrom_of_le (l : List α) {start : Nat} (h : start ≤ l.length) :
    (sliceFrom l start : Except (Fault ε) (List α)) = .ok (l.drop start) :=
  if_pos h

section Deciding

/-- The computation answers, and answers whether the statement holds. -/
def Decides {ε : Type} (x : Except ε Bool) (p : Prop) : Prop := ∃ b, x = .ok b ∧ (b = true ↔ p)

variable {ε α : Type} {x y : Except ε Bool} {p q : Prop}

theorem Decides.congr (h : Decides x p) (hiff : p ↔ q) : Decides x q := by
  obtain ⟨b, hx, hb⟩ := h
  exact ⟨b, hx, hb.trans hiff⟩

/-- A test that ends the computation with `false`. -/
theorem Decides.guard {b : Bool} (hb : b = true ↔ ¬p) (hy : p → Decides y q) :
    Decides (if b = true then Pure.pure false else y) (p ∧ q) := by
  cases b with
  | true => exact ⟨false, rfl, by simp [hb.1 rfl]⟩
  | false =>
      have hp : p := Classical.not_not.1 fun hn => Bool.false_ne_true (hb.2 hn)
      exact (hy hp).congr (by simp [hp])

theorem Decides.bind {f : Bool → Except ε Bool} (hx : Decides x p)
    (hf : ∀ b, (b = true ↔ p) → Decides (f b) q) : Decides (x >>= f) q := by
  obtain ⟨b, rfl, hb⟩ := hx
  exact hf b hb

theorem Decides.anyM {f : α → Except ε Bool} {p : α → Prop} {l : List α}
    (h : ∀ a ∈ l, Decides (f a) (p a)) : Decides (l.anyM f) (∃ a ∈ l, p a) := by
  induction l with
  | nil => exact ⟨false, rfl, by simp⟩
  | cons a l ih =>
      obtain ⟨b, hb, hiff⟩ := h a List.mem_cons_self
      rw [List.anyM_cons, hb, bind_of_ok]
      cases b with
      | true => exact ⟨true, rfl, by simp [hiff.1 rfl]⟩
      | false =>
          have hne : ¬p a := fun ha => Bool.false_ne_true (hiff.2 ha)
          exact (ih fun a ha => h a (List.mem_cons_of_mem _ ha)).congr (by simp [hne])

theorem Decides.allM {f : α → Except ε Bool} {p : α → Prop} {l : List α}
    (h : ∀ a ∈ l, Decides (f a) (p a)) : Decides (l.allM f) (∀ a ∈ l, p a) := by
  induction l with
  | nil => exact ⟨true, rfl, by simp⟩
  | cons a l ih =>
      obtain ⟨b, hb, hiff⟩ := h a List.mem_cons_self
      rw [List.allM_cons, hb, bind_of_ok]
      cases b with
      | true =>
          exact (ih fun a ha => h a (List.mem_cons_of_mem _ ha)).congr (by simp [hiff.1 rfl])
      | false =>
          have hne : ¬p a := fun ha => Bool.false_ne_true (hiff.2 ha)
          exact ⟨false, rfl, by simp [hne]⟩

end Deciding

end Checked
