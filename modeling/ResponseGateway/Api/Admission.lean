import ResponseGateway.Api.Server

/-!
What a handler does before its body: it is refused, at most with a session removed from the
table, or it has found a principal that is entitled to the request. No body but that of a
login comes to the sessions, and none changes who was admitted.
-/

namespace ResponseGateway.Api
open Checked Json Method Management
open Team (CredentialKind Secret)

variable {R α β : Type} {config : Config} {headers : Headers} {draw : Draw R} {s : Server R}

section Confinement

/-- The sessions, the admission and the closing are as they were. -/
structure Same (s s' : Server R) : Prop where
  sessions : s'.sessions = s.sessions
  closing : s'.closing = s.closing
  admitted : s'.admitted = s.admitted

theorem Same.refl (s : Server R) : Same s s := ⟨rfl, rfl, rfl⟩

theorem Same.trans {s s' s'' : Server R} (h : Same s s') (h' : Same s' s'') : Same s s'' :=
  ⟨h'.sessions.trans h.sessions, h'.closing.trans h.closing, h'.admitted.trans h.admitted⟩

/-- A part of a handler that leaves them alone. -/
def Confined (m : Handler R α) : Prop := ∀ s, Same s (m s).2

theorem Confined.next {m : Handler R α} {f : α → Handler R β} (hm : Confined m)
    (hf : ∀ a, Confined (f a)) : Confined (m >>= f) := by
  intro s
  have hs := hm s
  simp only [Bind.bind]
  match hcall : m s with
  | (.ok a, s') =>
      rw [hcall] at hs
      exact hs.trans (hf a s')
  | (.error e, s') =>
      rw [hcall] at hs
      exact hs

theorem Confined.attempt {m : Handler R α} (hm : Confined m) : Confined (attempt m) := hm

end Confinement

section Principals

/-- What is known of a principal that was found for a request. -/
structure Entitled (config : Config) (headers : Headers) (draw : Draw R) (bearerOnly mutation : Bool)
    (s : Server R) (p : Principal) : Prop where
  managed : mutation = true → s.closing = false ∧ p.kind = .management
  source : (∃ value token, headers.authorization = [value] ∧ bearerOf value = some token ∧
      draw.authenticate token = some p) ∨
    (headers.authorization = [] ∧ bearerOnly = false ∧ mutation = false ∧ ∃ secret session now,
      cookieSecret config headers = .ok secret ∧
      s.sessions.get (config.digest secret).value = some session ∧ draw.checked = some now ∧
      session.created ≤ now ∧ now < session.expires ∧ confirmed draw session = some p)

/-- At most one session has been removed. -/
def Refused (s s' : Server R) : Prop :=
  s' = s ∨ ∃ key, s' = s.withSessions (s.sessions.erase key)

end Principals

end ResponseGateway.Api
