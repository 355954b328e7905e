import ResponseGateway.Library.Statements
import ResponseGateway.Library.Table
import ResponseGateway.Requests.Contract

/-!
`gateway_team_http::ledger`: the five tables of the request ledger, their keys and the
calls on them. Nothing is ever updated or deleted. Every statement may fail, also the ones
that begin, step through and end a transaction; what a transaction wrote is lost with it.
-/

namespace ResponseGateway.Requests
open Checked Json Management Method Statements
open Team (Principal)

section Tables

structure RequestRow where
  rowid : Nat
  id : String
  subject : String
  admittedMs : Nat
  intent : String
  deriving DecidableEq, Repr

inductive Phase where
  | headers
  | finished
  deriving DecidableEq, Repr

structure EventRow where
  request : String
  phase : Phase
  evidence : String
  deriving DecidableEq, Repr

structure LinkRow where
  producer : String
  gatewayRequest : String
  request : String
  deriving DecidableEq, Repr

structure SessionRow where
  id : String
  subject : String
  idempotencyKey : String
  intent : String
  deriving DecidableEq, Repr

structure BindingRow where
  session : String
  internal : String
  evidence : String
  deriving DecidableEq, Repr

def RequestRow.clash (a b : RequestRow) : Bool := decide (a.id = b.id)

def EventRow.clash (a b : EventRow) : Bool :=
  decide (a.request = b.request) && decide (a.phase = b.phase)

def LinkRow.clash (a b : LinkRow) : Bool :=
  decide (a.producer = b.producer) && decide (a.gatewayRequest = b.gatewayRequest) ||
    decide (a.request = b.request)

def SessionRow.clash (a b : SessionRow) : Bool :=
  decide (a.id = b.id) ||
    decide (a.subject = b.subject) && decide (a.idempotencyKey = b.idempotencyKey)

def BindingRow.clash (a b : BindingRow) : Bool :=
  decide (a.session = b.session) || decide (a.internal = b.internal)

structure Tables where
  requests : List RequestRow
  requestEvents : List EventRow
  links : List LinkRow
  sessions : List SessionRow
  sessionBindings : List BindingRow
  deriving DecidableEq, Repr

namespace Tables

/-- `Ledger::initialize`. -/
def empty : Tables := ⟨[], [], [], [], []⟩

variable (t : Tables)

/-- The automatic number of the next request: behind the largest one. -/
def nextRowid : Nat := (t.requests.map (·.rowid)).max?.getD 0 + 1

def hasRequest (id : String) : Bool := t.requests.any (·.id = id)

def insertRequest (id subject : String) (admittedMs : Nat) (intent : String) : Option Tables := do
  let requests ← Table.insert RequestRow.clash t.requests
    ⟨t.nextRowid, id, subject, admittedMs, intent⟩
  return { t with requests }

def insertEvent (row : EventRow) : Option Tables :=
  if t.hasRequest row.request then do
    let requestEvents ← Table.insert EventRow.clash t.requestEvents row
    return { t with requestEvents }
  else none

def insertLink (row : LinkRow) : Option Tables :=
  if t.hasRequest row.request then do
    let links ← Table.insert LinkRow.clash t.links row
    return { t with links }
  else none

def insertSession (row : SessionRow) : Option Tables := do
  let sessions ← Table.insert SessionRow.clash t.sessions row
  return { t with sessions }

def insertBinding (row : BindingRow) : Option Tables :=
  if t.sessions.any (·.id = row.session) then do
    let sessionBindings ← Table.insert BindingRow.clash t.sessionBindings row
    return { t with sessionBindings }
  else none

/-- `SELECT rowid,intent FROM requests`, a hundred rows behind a cursor. -/
def page (query : UsageQuery) (subject : Id) : List RequestRow :=
  (t.requests.filter fun row => decide (query.after.toNat < row.rowid) &&
    (decide (query.fromMs.toNat ≤ row.admittedMs) && decide (row.admittedMs < query.toMs.toNat) &&
      (query.all || decide (row.subject = subject.value)))).take 100

def evidence (id : Id) (phase : Phase) : Option String :=
  (t.requestEvents.find? fun row => row.request = id.value && row.phase = phase).map (·.evidence)

def intentAt (subject key : Id) : Option String :=
  (t.sessions.find? fun row =>
    row.subject = subject.value && row.idempotencyKey = key.value).map (·.intent)

def intentOf (id subject : Id) : Option String :=
  (t.sessions.find? fun row => row.id = id.value && row.subject = subject.value).map (·.intent)

def bindingOf (session : Id) : Option String :=
  (t.sessionBindings.find? (·.session = session.value)).map (·.evidence)

end Tables

end Tables

section Calls

/-- What a call draws: which statements fail, the clock and a new identifier. -/
structure Draw where
  faults : List Bool
  now : Option UInt64
  id : Id

structure Record where
  cursor : UInt64
  admission : Admission
  headers : Option Headers
  finished : Option Finished
  deriving DecidableEq, Repr

abbrev Access (α : Type) := Method (Connection Tables) Error α

/-- A text that may be absent. -/
def decodeOption {α : Type} (c : Codec α) : Option String → Except Error (Option α)
  | none => .ok none
  | some text => (decode c text).map some

variable (d : Draw)

def maxRequests : Nat := 1000000

def maxSessions : Nat := 16384

def admitRequest (target : Id) (principal : Principal) (peer : Peer) (route : String)
    (session : Option Id) : Access Admission := do
  let _ ← check (rejectIf (peer.identity.target ≠ target ||
    !principal.permissions.permitsRoute route || route ∉ peer.routes) .forbidden)
  let atMs ← check (okOr d.now .storage)
  let admission : Admission := {
    id := d.id, subject := principal.identity.subject, credential := principal.identity.credential
    authorizationSha256 := principal.authorizationVersion, route, atMs
    instance_ := peer.identity.instance_, configurationSha256 := peer.identity.configurationSha256
    producer := peer.identity.producer, session }
  transaction do
    contact .storage
    let count ← select .storage fun t => t.requests.length
    let _ ← check (rejectIf (count ≥ maxRequests) .conflict)
    let _ ← check (rejectIf (atMs.toNat > maxI64) .storage)
    execute .storage fun t => t.insertRequest admission.id.value admission.subject.value
      atMs.toNat (json Admission.codec admission)
    contact .storage
    pure admission

/-- A link is stored when both of its sides are known. -/
def link (admission : Admission) (headers : Headers) : Access PUnit :=
  match admission.producer, headers.gatewayRequest with
  | some producer, some gatewayRequest =>
      execute .storage fun t =>
        t.insertLink ⟨producer.value, gatewayRequest.value, admission.id.value⟩
  | _, _ => pure ⟨⟩

def headers (admission : Admission) (headers : Headers) : Access PUnit :=
  transaction do
    contact .storage
    link admission headers
    execute .storage fun t =>
      t.insertEvent ⟨admission.id.value, .headers, json Headers.codec headers⟩
    contact .storage

def finish (id : Id) (transport : End) : Access PUnit := do
  let atMs ← check (okOr d.now .storage)
  execute .storage fun t =>
    t.insertEvent ⟨id.value, .finished, json Finished.codec ⟨atMs, transport⟩⟩

def event {α : Type} (c : Codec α) (id : Id) (phase : Phase) : Access (Option α) := do
  let text ← select .storage fun t => t.evidence id phase
  check (decodeOption c text)

/-- The number of a row is never negative. -/
def record (principal : Principal) (query : UsageQuery) (row : RequestRow) : Access Record := do
  let admission ← check (decode Admission.codec row.intent)
  let _ ← check (rejectIf (!query.all && admission.subject ≠ principal.identity.subject)
    .invalidStore)
  let headers ← event Headers.codec admission.id .headers
  let finished ← event Finished.codec admission.id .finished
  pure ⟨UInt64.ofNat row.rowid, admission, headers, finished⟩

/-- The rows are stepped through until the first error or their end. -/
def collect (principal : Principal) (query : UsageQuery) : List RequestRow → Access (List Record)
  | [] => do
      contact .storage
      pure []
  | row :: rest => do
      contact .storage
      let value ← record principal query row
      let more ← collect principal query rest
      pure (value :: more)

def records (principal : Principal) (query : UsageQuery) : Access (List Record) := do
  let _ ← check query.validate
  let _ ← check (rejectIf (query.all && !principal.permissions.readAllUsage) .forbidden)
  contact .storage
  let rows ← select .storage fun t => t.page query principal.identity.subject
  collect principal query rows

def sessionIntent (principal : Principal) (route : String) (origin : Digest) (key : Id) :
    Access (SessionIntent × Bool) := do
  let _ ← check (rejectIf (!principal.permissions.permitsRoute route) .forbidden)
  transaction do
    contact .storage
    let previous ← select .storage fun t => t.intentAt principal.identity.subject key
    match previous with
    | some previous => do
        let value ← check (decode SessionIntent.codec previous)
        let _ ← check (rejectIf (value.subject ≠ principal.identity.subject ||
          value.route ≠ route || value.originSha256 ≠ origin) .conflict)
        pure (value, false)
    | none => do
        let count ← select .storage fun t => t.sessions.length
        let _ ← check (rejectIf (count ≥ maxSessions) .conflict)
        let atMs ← check (okOr d.now .storage)
        let intent : SessionIntent := {
          id := d.id, subject := principal.identity.subject
          credential := principal.identity.credential, route, originSha256 := origin
          idempotencyKey := key, atMs }
        execute .storage fun t => t.insertSession ⟨intent.id.value, intent.subject.value,
          intent.idempotencyKey.value, json SessionIntent.codec intent⟩
        contact .storage
        pure (intent, true)

def bindSession (intent : SessionIntent) (internal : Id) : Access PUnit :=
  execute .storage fun t => t.insertBinding ⟨intent.id.value, internal.value,
    json SessionBinding.codec ⟨intent.id, internal, intent.originSha256⟩⟩

def session (principal : Principal) (id : Id) : Access (SessionIntent × Option SessionBinding) := do
  contact .storage
  let text ← select .storage fun t => t.intentOf id principal.identity.subject
  let text ← check (okOr text .notFound)
  let value ← check (decode SessionIntent.codec text)
  let _ ← check (rejectIf (value.id ≠ id || value.subject ≠ principal.identity.subject)
    .invalidStore)
  let _ ← check (rejectIf (!principal.permissions.permitsRoute value.route) .forbidden)
  let binding ← select .storage fun t => t.bindingOf id
  let binding ← check (decodeOption SessionBinding.codec binding)
  let _ ← check (rejectIf (binding.any fun b =>
    b.session ≠ id || b.originSha256 ≠ value.originSha256) .invalidStore)
  pure (value, binding)

end Calls

section Steps

inductive Call where
  | admitRequest (principal : Principal) (peer : Peer) (route : String) (session : Option Id)
  | headers (admission : Admission) (headers : Headers)
  | finish (id : Id) (transport : End)
  | records (principal : Principal) (query : UsageQuery)
  | sessionIntent (principal : Principal) (route : String) (origin : Digest) (key : Id)
  | bindSession (intent : SessionIntent) (internal : Id)
  | session (principal : Principal) (id : Id)

inductive Reply where
  | admission (value : Admission)
  | done
  | records (values : List Record)
  | intent (value : SessionIntent) (created : Bool)
  | session (value : SessionIntent) (binding : Option SessionBinding)
  deriving DecidableEq, Repr

/-- One call with the surroundings that it draws. -/
def step (target : Id) (call : Call) (d : Draw) : Method Tables Error Reply :=
  serve d.faults (match call with
  | .admitRequest principal peer route session => do
      let admission ← admitRequest d target principal peer route session
      pure (.admission admission)
  | .headers admission evidence => do
      headers admission evidence
      pure .done
  | .finish id transport => do
      finish d id transport
      pure .done
  | .records principal query => do
      let values ← records principal query
      pure (.records values)
  | .sessionIntent principal route origin key => do
      let (intent, created) ← sessionIntent d principal route origin key
      pure (.intent intent created)
  | .bindSession intent internal => do
      bindSession intent internal
      pure .done
  | .session principal id => do
      let (intent, binding) ← session principal id
      pure (.session intent binding))

def Call.principal : Call → Option Principal
  | .admitRequest principal .. | .records principal _ | .sessionIntent principal .. |
    .session principal _ => some principal
  | .headers .. | .finish .. | .bindSession .. => none

/-- The authority hands out principals with checked permissions only. -/
def Call.Authenticated (call : Call) : Prop :=
  ∀ p, call.principal = some p → p.permissions.validate = .ok ()

theorem principal_valid {sha256 : String → Ir.Digest} {target : Id} {v : Db × Team.Manager}
    {selected : Team.Select} {a a' : Team.Authority} {p : Principal}
    (h : Team.principal sha256 target v selected a = (.ok p, a')) :
    p.permissions.validate = .ok () := by
  obtain ⟨⟨key, owner⟩, hholder, h⟩ := check_bind_accepts.1 h
  obtain ⟨_, _, -, h⟩ := bind_accepts.1 h
  obtain ⟨rfl, -⟩ := pure_accepts.1 h
  obtain ⟨key', -, hholder⟩ := bind_ok.1 hholder
  obtain ⟨owner', hsubject, hholder⟩ := bind_ok.1 hholder
  obtain ⟨_, -, hholder⟩ := bind_ok.1 hholder
  cases hholder
  obtain ⟨row, -, hsubject⟩ := bind_ok.1 hsubject
  obtain ⟨value, -, hsubject⟩ := bind_ok.1 hsubject
  obtain ⟨_, -, hsubject⟩ := bind_ok.1 hsubject
  obtain ⟨_, hvalid, hsubject⟩ := bind_ok.1 hsubject
  cases hsubject
  exact hvalid

end Steps

end ResponseGateway.Requests
