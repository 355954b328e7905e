import ResponseGateway.Library.Method

/-!
A connection to a store of tables whose statements may fail. A list says which of the next
statements do; those behind it succeed. A statement that violates a constraint fails like
one that the store could not carry out.
-/

universe u

namespace Statements
open Method

structure Connection (τ : Type u) : Type u where
  tables : τ
  /-- Which of the next statements fail. -/
  faults : List Bool

variable {τ ε α : Type u} (failed : ε)

/-- One statement reaches the store. -/
def contact : Method (Connection τ) ε PUnit := fun c =>
  match c.faults with
  | [] => (.ok ⟨⟩, c)
  | true :: rest => (.error failed, { c with faults := rest })
  | false :: rest => (.ok ⟨⟩, { c with faults := rest })

def select (f : τ → α) : Method (Connection τ) ε α := do
  contact failed
  let c ← read
  pure (f c.tables)

def execute (f : τ → Option τ) : Method (Connection τ) ε PUnit := do
  contact failed
  let c ← read
  let tables ← check (Checked.okOr (f c.tables) failed)
  write fun c => { c with tables }

/-- A method on the tables, given which of its statements fail. -/
def serve (faults : List Bool) (m : Method (Connection τ) ε α) : Method τ ε α := fun t =>
  ((m ⟨t, faults⟩).1, (m ⟨t, faults⟩).2.tables)

/-- No statement fails. -/
def Quiet (faults : List Bool) : Prop := ∀ f ∈ faults, f = false

section Accepted

variable {failed} {c c' : Connection τ}

theorem contact_ok {u : PUnit} (h : contact failed c = (.ok u, c')) : c'.tables = c.tables := by
  rw [contact] at h
  split at h <;> cases h <;> rfl

theorem select_ok {f : τ → α} {a : α} (h : select failed f c = (.ok a, c')) :
    f c.tables = a ∧ c'.tables = c.tables := by
  obtain ⟨_, c₁, hcontact, h⟩ := bind_accepts.1 h
  obtain ⟨rfl, rfl⟩ := pure_accepts.1 h
  exact ⟨by rw [contact_ok hcontact], contact_ok hcontact⟩

theorem execute_ok {f : τ → Option τ} {u : PUnit} (h : execute failed f c = (.ok u, c')) :
    f c.tables = some c'.tables := by
  obtain ⟨_, c₁, hcontact, h⟩ := bind_accepts.1 h
  rw [read_bind_accepts] at h
  obtain ⟨tables, htables, h⟩ := check_bind_accepts.1 h
  rw [write_accepts] at h
  cases h
  rw [← contact_ok hcontact]
  exact Checked.okOr_ok.1 htables

theorem serve_ok {faults : List Bool} {m : Method (Connection τ) ε α} {t t' : τ} {a : α}
    (h : serve faults m t = (.ok a, t')) :
    ∃ c, m ⟨t, faults⟩ = (.ok a, c) ∧ c.tables = t' :=
  ⟨_, Prod.ext (Prod.ext_iff.1 h).1 rfl, (Prod.ext_iff.1 h).2⟩

end Accepted

section Tables

/-- The tables stay as they are. -/
def Looks (m : Method (Connection τ) ε α) : Prop := ∀ c, (m c).2.tables = c.tables

/-- A rejected call leaves the tables as they were. -/
def Restores (m : Method (Connection τ) ε α) : Prop :=
  ∀ c e c', m c = (.error e, c') → c'.tables = c.tables

theorem looks_contact : Looks (contact failed : Method (Connection τ) ε PUnit) := by
  intro c
  rw [contact]
  split <;> rfl

theorem looks_check (x : Except ε α) : Looks (check x : Method (Connection τ) ε α) :=
  fun _ => rfl

theorem looks_pure (a : α) : Looks (pure a : Method (Connection τ) ε α) := fun _ => rfl

theorem Looks.looks_bind {β : Type u} {m : Method (Connection τ) ε α}
    {f : α → Method (Connection τ) ε β} (hm : Looks m) (hf : ∀ a, Looks (f a)) :
    Looks (m >>= f) := by
  intro c
  have hc := hm c
  cases hcall : m c with
  | mk result c₁ =>
      rw [hcall] at hc
      cases result with
      | error e =>
          simp only [bind, hcall]
          exact hc
      | ok a =>
          simp only [bind, hcall]
          exact (hf a c₁).trans hc

theorem looks_select (f : τ → α) : Looks (select failed f) := by
  refine (looks_contact failed).looks_bind fun _ => ?_
  exact fun c => rfl

theorem Looks.accepted {m : Method (Connection τ) ε α} (h : Looks m) {c c' : Connection τ} {a : α}
    (hcall : m c = (.ok a, c')) : c'.tables = c.tables := by
  have hc := h c
  rwa [hcall] at hc

theorem Looks.restores {m : Method (Connection τ) ε α} (h : Looks m) : Restores m := by
  intro c e c' hcall
  have hc := h c
  rwa [hcall] at hc

theorem restores_execute (f : τ → Option τ) : Restores (execute failed f) := by
  intro c e c' h
  rcases bind_rejects.1 h with hcontact | ⟨_, c₁, hcontact, h⟩
  · exact (looks_contact failed).restores c e c' hcontact
  · rw [read_bind] at h
    rcases check_bind_rejects.1 h with ⟨-, rfl⟩ | ⟨tables, -, h⟩
    · exact contact_ok hcontact
    · cases h

theorem restores_transaction (m : Method (Connection τ) ε α) : Restores (transaction m) := by
  intro c e c' h
  rw [(transaction_rejects.1 h).1]

/-- Nothing has been written before the rest of the body runs. -/
theorem Looks.restores_bind {β : Type u} {m : Method (Connection τ) ε α}
    {f : α → Method (Connection τ) ε β} (hm : Looks m) (hf : ∀ a, Restores (f a)) :
    Restores (m >>= f) := by
  intro c e c' h
  rcases bind_rejects.1 h with h | ⟨a, c₁, ha, h⟩
  · exact hm.restores c e c' h
  · have hc := hm c
    rw [ha] at hc
    exact (hf a c₁ e c' h).trans hc

theorem Restores.atomic {m : Method (Connection τ) ε α} (h : Restores m) (faults : List Bool) :
    Atomic (serve faults m) := by
  intro t e t' hcall
  obtain ⟨hresult, rfl⟩ := Prod.ext_iff.1 hcall
  exact h ⟨t, faults⟩ e _ (Prod.ext hresult rfl)

theorem Looks.keeps {m : Method (Connection τ) ε α} (h : Looks m) (faults : List Bool) :
    Keeps (serve faults m) := fun t => h ⟨t, faults⟩

end Tables

section Outcomes

variable {failed} {c : Connection τ}

/-- A method does something to the tables of a connection, or one of its statements
failed. -/
def Gives (m : Method (Connection τ) ε α) (failed : ε) (c : Connection τ) (x : Except ε α) :
    Prop :=
  (∃ faults, (Quiet c.faults → Quiet faults) ∧ m c = (x, ⟨c.tables, faults⟩)) ∨
    (¬ Quiet c.faults ∧ (m c).1 = .error failed ∧ (m c).2.tables = c.tables)

theorem contact_gives : Gives (contact failed) failed c (.ok ⟨⟩) := by
  obtain ⟨t, faults⟩ := c
  match faults with
  | [] => exact .inl ⟨[], id, rfl⟩
  | true :: rest =>
      refine .inr ⟨fun h => ?_, rfl, rfl⟩
      cases h true List.mem_cons_self
  | false :: rest => exact .inl ⟨rest, fun h f hf => h f (List.mem_cons_of_mem _ hf), rfl⟩

theorem Gives.bind {β : Type u} {m : Method (Connection τ) ε α}
    {f : α → Method (Connection τ) ε β} {a : α} {x : Except ε β} (hm : Gives m failed c (.ok a))
    (hf : ∀ faults, Gives (f a) failed ⟨c.tables, faults⟩ x) : Gives (m >>= f) failed c x := by
  rcases hm with ⟨faults, hquiet, hcall⟩ | ⟨hloud, hfailed, htables⟩
  · have hbind : (m >>= f) c = f a ⟨c.tables, faults⟩ := by
      simp only [Bind.bind, hcall]
    rcases hf faults with ⟨faults', hquiet', hnext⟩ | ⟨hloud, hfailed, htables⟩
    · exact .inl ⟨faults', fun h => hquiet' (hquiet h), by rw [hbind, hnext]⟩
    · exact .inr ⟨fun h => hloud (hquiet h), by rw [hbind, hfailed], by rw [hbind, htables]⟩
  · obtain ⟨c', hc'⟩ : ∃ c', m c = (.error failed, c') := ⟨_, Prod.ext hfailed rfl⟩
    have hbind : (m >>= f) c = (.error failed, c') := by
      simp only [Bind.bind, hc']
    rw [hc'] at htables
    exact .inr ⟨hloud, by rw [hbind], by rw [hbind]; exact htables⟩

theorem Gives.bind_error {β : Type u} {m : Method (Connection τ) ε α} {e : ε}
    (hm : Gives m failed c (.error e)) (f : α → Method (Connection τ) ε β) :
    Gives (m >>= f) failed c (.error e) := by
  have hbind {e : ε} {c' : Connection τ} (h : m c = (.error e, c')) :
      (m >>= f) c = (.error e, c') := bind_rejects.2 (.inl h)
  rcases hm with ⟨faults, hquiet, hcall⟩ | ⟨hloud, hfailed, htables⟩
  · exact .inl ⟨faults, hquiet, hbind hcall⟩
  · have hnext := hbind (Prod.ext hfailed rfl)
    exact .inr ⟨hloud, by rw [hnext], by rw [hnext]; exact htables⟩

theorem gives_of_eq {m : Method (Connection τ) ε α} {x : Except ε α} (h : m c = (x, c)) :
    Gives m failed c x := .inl ⟨c.faults, id, h⟩

theorem select_gives (f : τ → α) : Gives (select failed f) failed c (.ok (f c.tables)) :=
  contact_gives.bind fun _ => gives_of_eq rfl

theorem check_gives {x : Except ε α} : Gives (check x) failed c x := gives_of_eq rfl

/-- A check that passes. -/
theorem check_bind_gives {β : Type u} {x : Except ε α} {f : α → Method (Connection τ) ε β} {a : α}
    {y : Except ε β} (hx : x = .ok a) (hf : Gives (f a) failed c y) :
    Gives (check x >>= f) failed c y := by
  rw [hx]
  exact hf

/-- A check that fails. -/
theorem check_bind_refuses {β : Type u} {x : Except ε α} {f : α → Method (Connection τ) ε β} {e : ε}
    (hx : x = .error e) : Gives (check x >>= f) failed c (.error e) := by
  rw [hx]
  exact gives_of_eq rfl

theorem Gives.transaction {m : Method (Connection τ) ε α} {x : Except ε α}
    (h : Gives m failed c x) : Gives (transaction m) failed c x := by
  rcases h with ⟨faults, hquiet, hcall⟩ | ⟨hloud, hfailed, -⟩
  · cases x with
    | ok a => exact .inl ⟨faults, hquiet, transaction_accepts.2 hcall⟩
    | error e => exact gives_of_eq (transaction_rejects.2 ⟨rfl, _, hcall⟩)
  · have hcall : Method.transaction m c = (.error failed, c) :=
      transaction_rejects.2 ⟨rfl, _, Prod.ext hfailed rfl⟩
    exact .inr ⟨hloud, by rw [hcall], by rw [hcall]⟩

/-- What a call on tables that it does not change returns. -/
theorem Gives.serve {m : Method (Connection τ) ε α} {t : τ} {faults : List Bool} {x : Except ε α}
    (h : Gives m failed ⟨t, faults⟩ x) : serve faults m t = (x, t) ∨
      (¬ Quiet faults ∧ serve faults m t = (.error failed, t)) := by
  rcases h with ⟨faults', -, hcall⟩ | ⟨hloud, hfailed, htables⟩
  · exact .inl (by rw [Statements.serve, hcall])
  · exact .inr ⟨hloud, Prod.ext hfailed htables⟩

end Outcomes

end Statements
