import ResponseGateway.Api.Dispatch
import ResponseGateway.Library.OrderedMap
import ResponseGateway.Team.Authority

/-!
`gateway_management_api::server`: the routes of the management service, with the sessions of
its readers. A request is served as a whole: it comes to the table of sessions at one moment,
and what it does to the journal it does under one lock. What the authenticator, the clock, the
random source and the adapters answer is drawn for each request; a mutex is never poisoned.
-/

namespace ResponseGateway.Api
open Checked Json Method Management
open Ir (hex isLowerHex renderText)
open Team (CredentialKind Secret)

section Types

abbrev Principal := Team.ManagementPrincipal

structure ApiError where
  status : Nat
  code : String
  operation : Option String
  deriving DecidableEq, Repr

namespace ApiError

def error (status : Nat) (code : String) : ApiError := ⟨status, code, none⟩

def unavailable : ApiError := error 503 "management_unavailable"

def invalid : ApiError := error 400 "invalid_request"

def unauthorized : ApiError := error 401 "unauthorized"

def forbidden : ApiError := error 403 "forbidden"

def notFound : ApiError := error 404 "not_found"

def conflict : ApiError := error 409 "conflict"

def busy : ApiError := error 429 "management_busy"

def unsupported : ApiError := error 501 "unsupported_operation"

def of : Error → ApiError
  | .forbidden => forbidden
  | .notFound => notFound
  | .conflict => conflict
  | .invalidInput => invalid
  | .unsupported => unsupported
  | .uncertain operation => ⟨503, "outcome_uncertain", some operation⟩
  | _ => unavailable

end ApiError

/-- The values of the headers that are looked at, each a list of bytes. -/
structure Headers where
  host : List (List UInt8)
  origin : List (List UInt8)
  authorization : List (List UInt8)
  cookie : List (List UInt8)

structure Session where
  identity : Identity
  version : Digest
  created : UInt64
  expires : UInt64
  deriving DecidableEq

inductive Presented where
  | bearer (value : String)
  | session (key : String)
  deriving DecidableEq

/-- What a service is started with. -/
structure Config where
  env : Environment
  target : Id
  authority : String
  webSessions : Bool
  supported : List Action
  features : Json

namespace Config

def digest (config : Config) (text : String) : Digest := .of config.env.sha256 text

def origin (config : Config) : String := "http://" ++ config.authority

def cookieName (config : Config) : String :=
  "gateway_view_" ++ String.ofList ((config.digest config.origin).value.toList.take 16)

end Config

/-- What is drawn for one request: the answers of the authenticator, whether all jobs are
taken, the three readings of the clock, the random bytes, whether a submission is answered when
it is announced, and what the adapters do. -/
structure Draw (R : Type) where
  authenticate : String → Option Principal
  refresh : Identity → Digest → Option Principal
  busy : Bool
  checked : Option UInt64
  created : Option UInt64
  answered : Option UInt64
  random : Option (Vector UInt8 32)
  early : Bool
  snapshot : Command → R → Except Error Snapshot × R
  view : Actor → R → Except ApiError Json × R
  effects : Effects R

/-- The service, with the principal that the request in progress was admitted as. -/
structure Server (R : Type) where
  sessions : OrderedMap String Session
  closing : Bool
  work : World (Service (Adapters R))
  admitted : Option Principal

variable {R : Type}

namespace Server

def withSessions (sessions : OrderedMap String Session) (s : Server R) : Server R :=
  { s with sessions }

def withWork (work : World (Service (Adapters R))) (s : Server R) : Server R := { s with work }

def withAdmitted (admitted : Option Principal) (s : Server R) : Server R := { s with admitted }

def adapters (s : Server R) : Adapters R := s.work.backend.dispatcher

def withAdapters (adapters : Adapters R) (s : Server R) : Server R :=
  s.withWork (s.work.update (·.withDispatcher adapters))

end Server

abbrev Handler (R α : Type) := Method (Server R) ApiError α

/-- An answer, with the session that its cookie opens or closes. -/
structure Answer where
  status : Nat
  data : Json
  cookie : Option String

end Types

section Presenting

/-- `HeaderValue::to_str`. -/
def toStr (value : List UInt8) : Option String :=
  if value.all fun b => (32 ≤ b && b < 127) || b = 9 then
    some (String.ofList (value.map fun b => Char.ofNat b.toNat))
  else none

def isGraphic (c : Char) : Bool := 33 ≤ c.toNat && c.toNat ≤ 126

/-- A credential of a header, without the name of its scheme. -/
def bearerOf (value : List UInt8) : Option String := do
  let text ← toStr value
  let rest ← "Bearer ".toList.isPrefixOf? text.toList
  if 32 ≤ rest.length && rest.length ≤ 4096 && rest.all isGraphic then some (String.ofList rest)
  else none

def isSecret (value : List Char) : Bool := value.length = 64 && value.all isLowerHex

/-- One field of a cookie header. -/
def selectField (name : String) (selected : Option String) (field : List Char) :
    Except ApiError (Option String) :=
  let field := trim field
  let key := field.takeWhile (· ≠ '=')
  if '=' ∈ field && String.ofList key = name then do
    let value := field.drop (key.length + 1)
    rejectIf (selected.isSome || !isSecret value) .unauthorized
    return some (String.ofList value)
  else .ok selected

variable (config : Config) (headers : Headers)

/-- The secret of the one cookie header. -/
def cookieSecret : Except ApiError String := do
  let value ← okOr headers.cookie.head? .unauthorized
  let cookie ← okOr (toStr value) .unauthorized
  rejectIf (headers.cookie.length > 1 || cookie.utf8ByteSize > 8192) .unauthorized
  let selected ← (cookie.toList.splitOn ';').foldlM (selectField config.cookieName) none
  okOr selected .unauthorized

def presented (mutation : Bool) : Except ApiError Presented :=
  match headers.authorization with
  | [value] => (okOr (bearerOf value) .unauthorized).map .bearer
  | _ :: _ :: _ => .error .unauthorized
  | [] => do
      rejectIf (mutation || !config.webSessions) .unauthorized
      let secret ← cookieSecret config headers
      return .session (config.digest secret).value

end Presenting

section Admission

variable {R : Type} (draw : Draw R)

/-- A refreshed principal that a session may stand for. -/
def confirmed (session : Session) : Option Principal :=
  (draw.refresh session.identity session.version).filter fun p =>
    p.kind = .readOnly && p.actor.identity = session.identity &&
      p.authorizationVersion = session.version

/-- A session that has expired is removed when it is looked for. -/
def lookUp (key : String) : Handler R Principal := do
  let s ← read
  let timestamp ← check (okOr draw.checked .unavailable)
  let session ← check (okOr (s.sessions.get key) .unauthorized)
  if timestamp < session.created || timestamp ≥ session.expires then do
    write fun s => s.withSessions (s.sessions.erase key)
    throwing .unauthorized
  else check (okOr (confirmed draw session) .unauthorized)

def identify (mutation : Bool) : Presented → Handler R Principal
  | .bearer value => check (okOr (draw.authenticate value) .unauthorized)
  | .session key => do
      let _ ← check (rejectIf mutation .unauthorized)
      lookUp draw key

def principal (presented : Presented) (mutation : Bool) : Handler R Principal := do
  let s ← read
  let _ ← check (rejectIf (mutation && s.closing) .unavailable)
  let p ← identify draw mutation presented
  let _ ← check (rejectIf (mutation && p.kind ≠ .management) (.error 403 "read_only_credential"))
  write (·.withAdmitted (some p))
  pure p

end Admission

section Handlers

variable {R α β : Type} (config : Config) (headers : Headers) (draw : Draw R)

/-- A handler up to the principal, and behind it what it does for one. -/
def visiting (checks : Except ApiError α) (bearerOnly mutation : Bool)
    (body : α → Principal → Handler R β) : Handler R β := do
  let a ← check checks
  let presented ← check (presented config headers bearerOnly)
  let _ ← check (rejectIf draw.busy .busy)
  let p ← principal draw presented mutation
  body a p

def checkTarget (target : Id) : Except ApiError Unit := rejectIf (target ≠ config.target) .notFound

def supports (action : Action) : Except Error Unit :=
  rejectIf (action ∉ config.supported) .unsupported

def asApi (x : Except Error α) : Except ApiError α := x.mapError .of

def response (status : Nat) (data : Json) : Handler R Answer := do
  let observed ← check (okOr draw.answered .unavailable)
  let value := Json.object [("schema", .string schema), ("observed_at_ms", Codec.u64.encode observed),
    ("data", data)]
  let _ ← check (rejectIf ((renderText value).utf8ByteSize > 2 * 1024 * 1024)
    (.error 503 "response_too_large"))
  pure ⟨status, data, none⟩

/-- A call of the journal under the work lock. A crash ends the service, and nothing is called
after it. -/
def working (m : Journal (Service (Adapters R)) α) : Handler R α := fun s =>
  if s.work.live then
    match m s.work with
    | (.ok a, work) => (.ok a, s.withWork work)
    | (.error (.failed e), work) => (.error (.of e), s.withWork work)
    | (.error .crash, work) => (.error .unavailable, s.withWork (closed work))
  else (.error .unavailable, s)

def adapting (f : Adapters R → Except ApiError α × Adapters R) : Handler R α := fun s =>
  ((f s.adapters).1, s.withAdapters (f s.adapters).2)

def seeing (f : R → Except ApiError α × R) : Handler R α :=
  adapting fun a => ((f a.others).1, a.withOthers (f a.others).2)

def settingAnnounced (announced : Option Id) : Handler R PUnit :=
  write fun s => s.withAdapters (s.adapters.withAnnounced announced)

/-- The result of a body, whatever it is. -/
def attempt (m : Handler R α) : Handler R (Except ApiError α) := fun s =>
  (.ok (m s).1, (m s).2)

def Actor.capabilities (actor : Actor) (target : Id) (supported : List Action) : List Action :=
  supported.filter fun action => (actor.authorize action target).isOk

def readActions : List Action := [.readState, .readUsage, .readOperations]

def capabilities (target : Id) : Handler R Answer :=
  visiting config headers draw (checkTarget config target) false false fun _ p => do
    let allowed := (Actor.capabilities p.actor config.target config.supported).filter fun a =>
      p.kind = .management || a ∈ readActions
    let _ ← check (rejectIf allowed.isEmpty .forbidden)
    response draw 200 (.object [("target", Id.codec.encode config.target),
      ("features", config.features),
      ("supported_operations", .array (config.supported.map Action.codec.encode)),
      ("allowed_operations", .array (allowed.map Action.codec.encode)),
      ("read_sessions", .bool config.webSessions),
      ("unsupported_operations", .array
        [.string "package_remove", .string "data_delete", .string "remote_package_download"])])

/-- What the dispatcher reads is drawn, with the check of a view of the state. -/
def readView (target : Id) (query : Query) : Handler R Answer :=
  visiting config headers draw (checkTarget config target) false false fun _ p => do
    let _ ← check (asApi (p.actor.authorize query.action config.target))
    let _ ← check (asApi (supports config query.action))
    let value ← seeing (draw.view p.actor)
    response draw 200 value

def usage (target : Id) (range : UsageRange) : Handler R Answer := do
  let _ ← check (asApi range.validate)
  readView config headers draw target (.usage range)

/-- `operations` and `operation`: what the reader of the journal finds is drawn. -/
def readOperations (target : Id) : Handler R Answer :=
  visiting config headers draw (checkTarget config target) false false fun _ p => do
    let value ← seeing (draw.view p.actor)
    response draw 200 value

def preflightChecks (body : Option Preflight) : Except ApiError Preflight := do
  let input ← okOr body .invalid
  rejectIf (input.schema ≠ schema) .invalid
  asApi input.command.validate
  checkTarget config input.target
  return input

/-- The preparation of a submission, which is dropped again. -/
def rehearse (submission : Submission) : Handler R PUnit := do
  let request ← check (asApi (submission.request config.env.sha256))
  let backend := bound config.env.sha256 config.target draw.effects (some submission.command)
  let before ← adapting fun a => (asApi (backend.prepare request a).1, (backend.prepare request a).2)
  write fun s => s.withAdapters (backend.release s.adapters)
  let _ ← check (rejectIf (before ≠ submission.expected) .conflict)
  pure ⟨⟩

def preflight (body : Option Preflight) : Handler R Answer :=
  visiting config headers draw (preflightChecks config body) true true fun input p => do
    let _ ← check (asApi (p.actor.authorize input.command.action config.target))
    let _ ← check (asApi (supports config input.command.action))
    let expected ← seeing fun r =>
      (asApi (draw.snapshot input.command r).1, (draw.snapshot input.command r).2)
    let submission : Submission :=
      ⟨schema, input.target, expected, input.idempotencyKey, input.command⟩
    rehearse config draw submission
    response draw 200 (.object [("submission", submission.encode),
      ("authorized_execution", .bool false), ("applied", .bool false)])

/-- The checks of a submission, which names what it is protected for. -/
def submissionChecks (delivery : Bool) (refused : ApiError) (body : Option Submission) :
    Except ApiError (Submission × Request) := do
  let submission ← okOr body .invalid
  rejectIf (submission.command.requiresDelivery ≠ delivery) refused
  let request ← asApi (submission.request config.env.sha256)
  checkTarget config submission.target
  return (submission, request)

def executionChecks (p : Principal) (request : Request) : Except Error Unit := do
  let _ ← p.actor.authorize request.action config.target
  supports config request.action

def operationId (id : Id) : Json := .object [("operation_id", Id.codec.encode id)]

/-- The answer of a submission: the announcement, or the result. A guard that was set up
before the admission finds nothing active. -/
def submit (body : Option Submission) : Handler R Answer :=
  visiting config headers draw
      (submissionChecks config false (.error 400 "protected_delivery_required") body) true true
      fun (submission, request) p => do
    settingAnnounced none
    let result ← attempt (working (Service.submit config.env (executionChecks config p request)
      p.actor request (bound config.env.sha256 config.target draw.effects (some submission.command))
      Adapters.completed))
    let s ← read
    match (if draw.early then s.adapters.announced else none) with
    | some id => response draw 202 (operationId id)
    | none => do
        let operation ← check result
        response draw 202 (operationId operation.id)

/-- A secret is handed over once, with the operation that it belongs to. -/
def delivered (operation : Operation) (secret : Option Secret) : Json :=
  .object [("operation_id", Id.codec.encode operation.id),
    ("state", State.codec.encode operation.state),
    ("credential_id", Command.nullable (Id.codec.encode ·.credential) secret),
    ("credential", Command.nullable (.string ·.value) secret),
    ("delivery", .string (if secret.isSome then "one_time" else "not_available"))]

def deliveryChecks (body : Option Submission) : Except ApiError (Submission × Request) := do
  rejectIf (!headers.origin.isEmpty || !headers.cookie.isEmpty)
    (.error 403 "protected_delivery_required")
  submissionChecks config true .invalid body

def deliver (body : Option Submission) : Handler R Answer :=
  visiting config headers draw (deliveryChecks config headers body) true true
      fun (submission, request) p => do
    let operation ← working (Service.deliver config.env (executionChecks config p request)
      p.actor request (bound config.env.sha256 config.target draw.effects (some submission.command))
      Adapters.completed)
    let s ← read
    response draw 200 (delivered operation
      (if operation.state = .succeeded then s.adapters.delivery else none))

def reconcileChecks (body : Option Reconcile) : Except ApiError Unit := do
  let input ← okOr body .invalid
  rejectIf (input.schema ≠ schema) .invalid
  checkTarget config input.target

def reconcile (id : Id) (body : Option Reconcile) : Handler R Answer :=
  visiting config headers draw (reconcileChecks config body) true true fun _ p => do
    let checks : Except Error Unit := do
      let _ ← p.actor.authorize .reconcile config.target
      supports config .reconcile
    let operation ← working (Service.reconcile checks p.actor config.target id
      (bound config.env.sha256 config.target draw.effects none))
    response draw 200 (Operation.codec.encode operation)

/-- The checks of a page: no body, and the origin of the service itself. -/
def pageChecks (empty : Bool) : Except ApiError Unit :=
  rejectIf (!empty || headers.origin.head?.bind toStr ≠ some config.origin) .invalid

def sessionTtl : Nat := 900000

def secretText (bytes : Vector UInt8 32) : String := String.ofList (hex bytes.toList)

def sessionCookie (secret : String) : String :=
  config.cookieName ++ "=" ++ secret ++
    "; Path=/management/v1; HttpOnly; SameSite=Strict; Max-Age=900"

def clearedCookie : String :=
  config.cookieName ++ "=; Path=/management/v1; HttpOnly; SameSite=Strict; Max-Age=0"

/-- The sessions that have neither expired nor begun later than now. -/
def retained (created : UInt64) (sessions : OrderedMap String Session) : OrderedMap String Session :=
  sessions.filter fun entry => entry.2.expires > created && entry.2.created ≤ created

/-- The part of `login` under the lock of the sessions. -/
def opening (p : Principal) (created expires : UInt64) : Handler R String := do
  write fun s => s.withSessions (retained created s.sessions)
  let s ← read
  let _ ← check (rejectIf (s.sessions.size ≥ 256) (.error 429 "session_capacity"))
  let bytes ← check (okOr draw.random .unavailable)
  let secret := secretText bytes
  write fun s => s.withSessions (s.sessions.insert (config.digest secret).value
    ⟨p.actor.identity, p.authorizationVersion, created, expires⟩)
  pure secret

def loginChecks (p : Principal) : Except ApiError Unit := do
  rejectIf (p.kind ≠ .readOnly) (.error 403 "read_credential_required")
  rejectIf (Actor.capabilities p.actor config.target readActions).isEmpty .forbidden

def expiry (created : UInt64) : Except ApiError UInt64 :=
  if created.toNat + sessionTtl < 2 ^ 64 then .ok (created + .ofNat sessionTtl)
  else .error .unavailable

/-- The part of `login` behind the principal. -/
def entering (p : Principal) : Handler R Answer := do
  let _ ← check (loginChecks config p)
  let created ← check (okOr draw.created .unavailable)
  let expires ← check (expiry created)
  let secret ← opening config draw p created expires
  let answer ← response draw 200 (.object [("scope", .string "read_only"),
    ("expires_at_ms", Codec.u64.encode expires)])
  pure { answer with cookie := some (sessionCookie config secret) }

def login (empty : Bool) : Handler R Answer :=
  visiting config headers draw (pageChecks config headers empty) true false fun _ p =>
    entering config draw p

def logoutChecks (empty : Bool) : Except ApiError String := do
  pageChecks config headers empty
  match ← presented config headers false with
  | .bearer _ => .error .invalid
  | .session key => return key

def logout (empty : Bool) : Handler R Answer := do
  let key ← check (logoutChecks config headers empty)
  write fun s => s.withSessions (s.sessions.erase key)
  let answer ← response draw 200 (.object [("closed", .bool true)])
  pure { answer with cookie := some (clearedCookie config) }

end Handlers

section Routes

/-- The requests of the routes, with their queries and bodies as far as they could be decoded;
any other request is answered by the router, with a status. -/
inductive Route where
  | capabilities (target : Id)
  | state (target : Id)
  | usage (target : Id) (range : UsageRange)
  | continuation (session target : Id)
  | operations (target : Id)
  | operation (id target : Id)
  | preflight (body : Option Preflight)
  | submit (body : Option Submission)
  | deliver (body : Option Submission)
  | reconcile (id : Id) (body : Option Reconcile)
  | login (empty : Bool)
  | logout (empty : Bool)
  | other (status : Nat)

structure HttpRequest where
  headers : Headers
  route : Route

variable {R : Type} (config : Config) (draw : Draw R)

def boundaryChecks (headers : Headers) : Except ApiError Unit := do
  rejectIf (headers.host.length ≠ 1 || headers.host.head?.bind toStr ≠ some config.authority)
    (.error 400 "host_rejected")
  rejectIf (!headers.origin.isEmpty &&
    (headers.origin.length ≠ 1 || headers.origin.head?.bind toStr ≠ some config.origin))
    (.error 403 "origin_rejected")

/-- The error for a status of the router. -/
def routed (status : Nat) : ApiError :=
  .error status <| match status with
    | 404 => "not_found"
    | 405 => "method_not_allowed"
    | 413 => "request_too_large"
    | 400 | 422 | 415 => "invalid_request"
    | _ => "management_unavailable"

def handle (headers : Headers) : Route → Handler R Answer
  | .capabilities target => capabilities config headers draw target
  | .state target => readView config headers draw target .state
  | .usage target range => usage config headers draw target range
  | .continuation session target => readView config headers draw target (.continuation session)
  | .operations target => readOperations config headers draw target
  | .operation _ target => readOperations config headers draw target
  | .preflight body => preflight config headers draw body
  | .submit body => submit config headers draw body
  | .deliver body => deliver config headers draw body
  | .reconcile id body => reconcile config headers draw id body
  | .login empty =>
      if config.webSessions then login config headers draw empty else throwing (routed 404)
  | .logout empty =>
      if config.webSessions then logout config headers draw empty else throwing (routed 404)
  | .other status => throwing (routed status)

/-- A request behind the boundary; nobody is admitted before it. -/
def serve (request : HttpRequest) : Handler R Answer := do
  write (·.withAdmitted none)
  let _ ← check (boundaryChecks config request.headers)
  handle config draw request.headers request.route

end Routes

end ResponseGateway.Api
