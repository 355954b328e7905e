import ResponseGateway.Api.Deliveries

/-!
Runs of the service: requests and the end of admission in any order, each request with what is
drawn for it. What a session cookie is worth is said of the history of a run, oldest first,
under the assumption that the secrets of sessions are fresh and their digests are apart.
-/

namespace ResponseGateway.Api
open Checked Json Method Management
open Team (CredentialKind)

section Runs

inductive Input (R : Type) where
  | closeAdmission
  | request (request : HttpRequest) (draw : Draw R)

/-- A request that was served, with the service before and after it. -/
structure Served (R : Type) where
  request : HttpRequest
  draw : Draw R
  before : Server R
  reply : Except ApiError Answer
  after : Server R

inductive Moment (R : Type) where
  | closed
  | served (x : Served R)

variable {R : Type} (config : Config)

/-- `Service::new`. -/
def Server.new (work : World (Service (Adapters R))) : Server R := ⟨.empty, false, work, none⟩

def Server.close (s : Server R) : Server R := { s with closing := true }

def Server.step (s : Server R) : Input R → Moment R × Server R
  | .closeAdmission => (.closed, s.close)
  | .request request draw =>
      (.served ⟨request, draw, s, (serve config draw request s).1, (serve config draw request s).2⟩,
        (serve config draw request s).2)

/-- Nothing happens in a service that has ended. -/
def history (s : Server R) : List (Input R) → List (Moment R)
  | [] => []
  | input :: rest =>
      if s.work.live then (s.step config input).1 :: history (s.step config input).2 rest else []

end Runs

section Routes

namespace Route

def isMutation : Route → Bool
  | .preflight _ | .submit _ | .deliver _ | .reconcile .. => true
  | _ => false

def isRead : Route → Bool
  | .capabilities _ | .state _ | .usage .. | .continuation .. | .operations _ | .operation .. => true
  | _ => false

end Route

variable {R : Type}

namespace Served

/-- The principal that the request was admitted as. -/
def admitted (x : Served R) : Option Principal := x.after.admitted

/-- The secret that is drawn for a session. -/
def drawn (x : Served R) : Option String :=
  match x.request.route with
  | .login _ => x.draw.random.map secretText
  | _ => none

/-- The credential that is handed over. -/
def credential (x : Served R) : Option String :=
  match x.request.route, x.reply with
  | .deliver _, .ok answer => answer.data.fieldStr "credential"
  | _, _ => none

end Served

namespace Moment

def drawn : Moment R → Option String
  | .closed => none
  | .served x => x.drawn

def credential : Moment R → Option String
  | .closed => none
  | .served x => x.credential

end Moment

end Routes

section Statements

variable {R : Type} (config : Config)

/-- A login presents a bearer credential that is read-only. -/
structure Begins (x : Served R) (secret : String) (p : Principal) (created : UInt64) : Prop where
  route : ∃ empty, x.request.route = .login empty
  bearer : ∃ value token, x.request.headers.authorization = [value] ∧
    bearerOf value = some token ∧ x.draw.authenticate token = some p
  kind : p.kind = .readOnly
  created : x.draw.created = some created
  drawn : x.drawn = some secret

/-- The login is answered with the secret. -/
structure LogsIn (x : Served R) (secret : String) (p : Principal) (created : UInt64) : Prop where
  begins : Begins x secret p created
  reply : ∃ answer, x.reply = .ok answer ∧ answer.cookie = some (sessionCookie config secret)

/-- A logout passes its checks and presents the secret. -/
def LogsOut (x : Served R) (secret : String) : Prop :=
  ∃ empty, x.request.route = .logout empty ∧ boundaryChecks config x.request.headers = .ok () ∧
    logoutChecks config x.request.headers empty = .ok (config.digest secret).value ∧
    cookieSecret config x.request.headers = .ok secret

/-- A session cookie is worth what its login was, as long as the authenticator confirms it. -/
def StandsFor (past : List (Moment R)) (x : Served R) (p : Principal) : Prop :=
  ∃ secret before login between origin created now,
    cookieSecret config x.request.headers = .ok secret ∧
    past = before ++ .served login :: between ∧ LogsIn config login secret origin created ∧
    (∀ y, .served y ∈ between → ¬ LogsOut config y secret) ∧
    x.draw.checked = some now ∧ created ≤ now ∧ now.toNat < created.toNat + sessionTtl ∧
    x.draw.refresh origin.actor.identity origin.authorizationVersion = some p ∧
    p.kind = .readOnly ∧ p.actor.identity = origin.actor.identity ∧
    p.authorizationVersion = origin.authorizationVersion

/-- What holds of a request that is served after a past. -/
structure Guarded (past : List (Moment R)) (x : Served R) : Prop where
  sessions : ∀ p, x.admitted = some p → x.request.headers.authorization = [] →
    x.request.route.isRead = true ∧ StandsFor config past x p
  mutations : ∀ p, x.admitted = some p → x.request.route.isMutation = true →
    (∃ value token, x.request.headers.authorization = [value] ∧ bearerOf value = some token ∧
      x.draw.authenticate token = some p) ∧ p.kind = .management ∧ .closed ∉ past
  refused : x.admitted = none → (∀ empty, x.request.route ≠ .logout empty) →
    (∃ e, x.reply = .error e) ∧ x.after.work = x.before.work
  deliveries : ∀ secret, x.credential = some secret → ∃ answer, x.reply = .ok answer ∧
    answer.data.fieldStr "state" = some "succeeded"
  few : x.after.sessions.size ≤ 256

/-- A value that is drawn or presented as the secret of a session. -/
def Occurs (moments : List (Moment R)) (secret : String) : Prop :=
  ∃ x, Moment.served x ∈ moments ∧
    (x.drawn = some secret ∨ cookieSecret config x.request.headers = .ok secret)

/-- No secret is drawn twice or presented before a login has returned it, and no two values
have one digest. -/
structure Fresh (moments : List (Moment R)) : Prop where
  drawn : moments.Pairwise fun m m' => ∀ secret, m.drawn = some secret → m'.drawn ≠ some secret
  returned : ∀ past x later, moments = past ++ .served x :: later → ∀ secret,
    cookieSecret config x.request.headers = .ok secret →
      (∃ y, Moment.served y ∈ moments ∧ y.drawn = some secret) →
        ∃ y, .served y ∈ past ∧ y.drawn = some secret ∧ ∃ answer, y.reply = .ok answer
  digests : ∀ a b, Occurs config moments a → Occurs config moments b →
    config.digest a = config.digest b → a = b

end Statements

end ResponseGateway.Api
