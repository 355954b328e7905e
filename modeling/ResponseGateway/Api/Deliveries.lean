import ResponseGateway.Api.Admission
import ResponseGateway.Management.AdapterRuns
import ResponseGateway.Team.Slot

/-!
The tokens that leave the service. Between two requests the slot of the team store is empty;
an execution fills it at most with a token that has not been seen before, and `completed`
empties it again, so that a delivery hands over each token once.
-/

namespace ResponseGateway.Api
open Checked Json Method Management
open Team (Secret Pending)

variable {R α β : Type}

section Adapters

/-- The digests belong to credentials of the team store, if there is one. -/
def Adapters.Works (sha256 : String → Ir.Digest) (known : List Digest) (a : Adapters R) : Prop :=
  match a.team with
  | some m => Pending sha256 known m
  | none => known = []

/-- The slot is empty, too. -/
structure Adapters.Rests (sha256 : String → Ir.Digest) (known : List Digest) (a : Adapters R) :
    Prop where
  works : a.Works sha256 known
  empty : ∀ m, a.team = some m → m.secret = none

variable {sha256 : String → Ir.Digest} {known : List Digest} {target : Id} {effects : Effects R}
  {a : Adapters R}

theorem Adapters.Works.of_team {a' : Adapters R} (h : a.Works sha256 known)
    (hteam : a'.team = a.team) : a'.Works sha256 known := by
  rw [Adapters.Works, hteam]
  exact h

theorem Adapters.Rests.of_team {a' : Adapters R} (h : a.Rests sha256 known)
    (hteam : a'.team = a.team) : a'.Rests sha256 known :=
  ⟨h.works.of_team hteam, fun m hm => h.empty m (hteam ▸ hm)⟩

theorem Adapters.Works.onTeam (h : a.Works sha256 known) {f : Team.Manager → Team.Manager}
    (hf : ∀ m, Pending sha256 known m → Pending sha256 known (f m)) :
    (a.onTeam f).Works sha256 known := by
  rw [Adapters.Works] at h ⊢
  cases hteam : a.team with
  | none =>
      rw [hteam] at h
      rw [Adapters.onTeam, hteam]
      exact h
  | some m =>
      rw [hteam] at h
      rw [Adapters.onTeam, hteam]
      exact hf m h

variable (sha256 target effects) in
/-- A preparation comes to the team store as to its own module, or leaves it alone. -/
theorem prepare_cases (command : Command) (request : Request) (a : Adapters R) :
    (prepare sha256 target effects command request a).2.team = a.team ∨
      ∃ teamCommand intent m, a.team = some m ∧
        (prepare sha256 target effects command request a).2 = a.withTeam
          (Team.prepareMapped sha256 target teamCommand intent m.secret effects.team request m).2 := by
  rw [prepare]
  cases checkIntent sha256 target request command with
  | error e => exact .inl rfl
  | ok intent =>
      dsimp only
      split
      · cases hteam : checkTeam target command a with
        | error e => exact .inl rfl
        | ok result =>
            obtain ⟨teamCommand, m⟩ := result
            obtain ⟨_, -, hteam⟩ := bind_ok.1 hteam
            obtain ⟨_, -, hteam⟩ := bind_ok.1 hteam
            obtain ⟨m', hm, hteam⟩ := bind_ok.1 hteam
            cases hteam
            exact .inr ⟨teamCommand, intent, m, okOr_ok.1 hm, rfl⟩
      · exact .inl rfl

theorem Adapters.Works.prepare (h : a.Works sha256 known) (command : Command) (request : Request) :
    (Api.prepare sha256 target effects command request a).2.Works sha256 known := by
  rcases prepare_cases sha256 target effects command request a
    with hsame | ⟨teamCommand, intent, m, hm, hprepared⟩
  · exact h.of_team hsame
  · rw [Adapters.Works, hm] at h
    rw [hprepared]
    exact h.prepare teamCommand intent effects.team request

/-- A preparation does not fill the slot. -/
theorem Adapters.Rests.prepare (h : a.Rests sha256 known) (command : Command) (request : Request) :
    (Api.prepare sha256 target effects command request a).2.Rests sha256 known := by
  refine ⟨h.works.prepare command request, fun m' hm' => ?_⟩
  rcases prepare_cases sha256 target effects command request a
    with hsame | ⟨teamCommand, intent, m, hm, hprepared⟩
  · exact h.empty m' (hsame ▸ hm')
  · have hempty := h.empty m hm
    have hworks := h.works
    rw [Adapters.Works, hm] at hworks
    obtain ⟨σ, hholds, -⟩ := hworks
    rw [hprepared] at hm'
    obtain rfl := Option.some.inj hm'
    rcases Team.prepareMapped_cases target hholds teamCommand intent m.secret effects.team request with ⟨e, heq⟩ | ⟨p, heq, -⟩
    · rw [heq]
      exact hempty
    · rw [heq]
      exact hempty

theorem Adapters.Rests.forget {more : List Digest} (h : a.Rests sha256 (known ++ more)) :
    a.Rests sha256 known := by
  obtain ⟨hworks, hempty⟩ := h
  refine ⟨?_, hempty⟩
  rw [Adapters.Works] at hworks ⊢
  cases hteam : a.team with
  | none =>
      rw [hteam] at hworks
      exact (List.append_eq_nil_iff.1 hworks).1
  | some m =>
      rw [hteam] at hworks
      obtain ⟨σ, hholds, hknown, hslot⟩ := hworks
      refine ⟨σ, hholds, fun d hd => hknown d (List.mem_append_left _ hd), fun secret hsecret => ?_⟩
      exact ⟨(hslot secret hsecret).1,
        fun hmem => (hslot secret hsecret).2 (List.mem_append_left _ hmem)⟩

end Adapters

section Handlers

variable {config : Config} {draw : Draw R} {s : Server R} {known : List Digest}

/-- Unless the service has ended, its slot is empty. -/
def Server.Rests (config : Config) (known : List Digest) (s : Server R) : Prop :=
  s.work.live = true → s.adapters.Rests config.env.sha256 known

/-- A part of a handler behind which the slot is empty again. -/
def Resting (config : Config) (m : Handler R α) : Prop :=
  ∀ known s, s.Rests config known → (m s).2.Rests config known

theorem Resting.next {m : Handler R α} {f : α → Handler R β} (hm : Resting config m)
    (hf : ∀ a, Resting config (f a)) : Resting config (m >>= f) := by
  intro known s hs
  have hrests := hm known s hs
  simp only [Bind.bind]
  match hcall : m s with
  | (.ok a, s') =>
      rw [hcall] at hrests
      exact hf a known s' hrests
  | (.error e, s') =>
      rw [hcall] at hrests
      exact hrests

/-- What an execution leaves behind `completed`: nothing in the slot, and a new token handed
over at most for an operation that has succeeded. -/
def Handed (sha256 : String → Ir.Digest) (known : List Digest) (result : Except Stop Operation)
    (a : Adapters R) : Prop :=
  (a.Rests sha256 known ∧ ∀ operation, result = .ok operation → a.delivery = none) ∨
    ∃ secret operation, a.delivery = some secret ∧ result = .ok operation ∧
      operation.state = .succeeded ∧ .of sha256 secret.value ∉ known ∧
      a.Rests sha256 (known ++ [.of sha256 secret.value])

theorem Handed.rests {sha256 : String → Ir.Digest} {result : Except Stop Operation}
    {a : Adapters R} (h : Handed sha256 known result a) : a.Rests sha256 known := by
  rcases h with ⟨hrests, -⟩ | ⟨secret, operation, -, -, -, -, hrests⟩
  · exact hrests
  · exact hrests.forget

end Handlers

end ResponseGateway.Api
