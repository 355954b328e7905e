import ResponseGateway.Api.Runs

/-!
The handlers that read and those that mutate. Each is a visit: a refusal, or a body for an
entitled principal that comes to no session, and behind it the slot of the team store is
empty. Only a delivery hands a token over.
-/

namespace ResponseGateway.Api
open Checked Json Method Management
open Team (CredentialKind Secret)

variable {R α β : Type} {config : Config} {headers : Headers} {draw : Draw R} {s s' : Server R}
  {bearerOnly mutation : Bool} {known : List Digest}

section Visits

/-- Who was admitted, if anybody was; a refused request has not come to the journal. -/
inductive Admission (config : Config) (headers : Headers) (draw : Draw R) (s : Server R)
    (bearerOnly mutation : Bool) (reply : Except ApiError α) (s' : Server R) : Prop where
  | refused (e : ApiError) (nobody : s'.admitted = none) (work : s'.work = s.work)
      (reply : reply = .error e)
  | admitted (p : Principal) (somebody : s'.admitted = some p)
      (entitled : Entitled config headers draw bearerOnly mutation s p)

/-- A handler that at most removes sessions. -/
structure Visited (config : Config) (headers : Headers) (draw : Draw R) (s : Server R)
    (bearerOnly mutation : Bool) (reply : Except ApiError α) (s' : Server R) : Prop where
  admission : Admission config headers draw s bearerOnly mutation reply s'
  closing : s'.closing = s.closing
  sessions : ∀ key session, s'.sessions.get key = some session → s.sessions.get key = some session
  few : s'.sessions.size ≤ s.sessions.size

theorem Refused.sessions (h : Refused s s') {key : String} {session : Session}
    (hget : s'.sessions.get key = some session) : s.sessions.get key = some session := by
  rcases h with rfl | ⟨removed, rfl⟩
  · exact hget
  · rw [Server.withSessions, OrderedMap.get_erase] at hget
    split at hget
    · cases hget
    · exact hget

theorem Refused.few (h : Refused s s') : s'.sessions.size ≤ s.sessions.size := by
  rcases h with rfl | ⟨removed, rfl⟩
  · exact le_rfl
  · exact OrderedMap.size_erase_le _ _

theorem Refused.same (h : Refused s s') :
    s'.closing = s.closing ∧ s'.work = s.work ∧ s'.admitted = s.admitted := by
  rcases h with rfl | ⟨removed, rfl⟩
  · exact ⟨rfl, rfl, rfl⟩
  · exact ⟨rfl, rfl, rfl⟩

theorem Refused.visited (h : Refused s s') (hnobody : s.admitted = none) (e : ApiError) :
    Visited config headers draw s bearerOnly mutation (.error e : Except ApiError α) s' :=
  ⟨.refused e (h.same.2.2.trans hnobody) h.same.2.1 rfl, h.same.1, fun _ _ => h.sessions, h.few⟩

theorem Refused.rests (h : Refused s s') (hs : s.Rests config known) : s'.Rests config known := by
  rw [Server.Rests, Server.adapters, h.same.2.1]
  exact hs

/-- A handler that is a visit, and leaves the slot empty. -/
structure Orderly (config : Config) (headers : Headers) (draw : Draw R) (bearerOnly mutation : Bool)
    (h : Handler R α) : Prop where
  visited : ∀ s, s.admitted = none →
    Visited config headers draw s bearerOnly mutation (h s).1 (h s).2
  resting : Resting config h

end Visits

section Reading

end Reading

section Mutating

theorem Resting.attempt {m : Handler R α} (hm : Resting config m) : Resting config (attempt m) :=
  hm

end Mutating

section Delivering

end Delivering

end ResponseGateway.Api
