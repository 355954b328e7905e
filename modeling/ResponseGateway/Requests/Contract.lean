import ResponseGateway.Library.Codec
import ResponseGateway.Team.Authority

/-!
`gateway_team_http::contract`: the evidence of team requests and sessions with the texts it
is stored as. A route that the authority permits is short, so that every stored text fits
the limit of `decode`.
-/

namespace ResponseGateway.Requests
open Checked Json Management Team

section Types

structure PeerIdentity where
  target : Id
  instance_ : Id
  configurationSha256 : Digest
  producer : Option Id
  deriving DecidableEq, Repr

/-- The identity of a registered peer and the aliases of its routes. -/
structure Peer where
  identity : PeerIdentity
  routes : Finset String

inductive End where
  | eof
  | clientDisconnected
  | gatewayConnectionFailed
  | gatewayBodyLost
  | headerTimeout
  | idleTimeout
  | responseLimit
  deriving DecidableEq, Repr

structure Admission where
  id : Id
  subject : Id
  credential : Id
  authorizationSha256 : Digest
  route : String
  atMs : UInt64
  instance_ : Id
  configurationSha256 : Digest
  producer : Option Id
  session : Option Id
  deriving DecidableEq, Repr

structure Headers where
  atMs : UInt64
  status : UInt16
  gatewayRequest : Option Id
  deriving DecidableEq, Repr

structure Finished where
  atMs : UInt64
  transport : End
  deriving DecidableEq, Repr

structure SessionIntent where
  id : Id
  subject : Id
  credential : Id
  route : String
  originSha256 : Digest
  idempotencyKey : Id
  atMs : UInt64
  deriving DecidableEq, Repr

structure SessionBinding where
  session : Id
  internal : Id
  originSha256 : Digest
  deriving DecidableEq, Repr

structure UsageQuery where
  fromMs : UInt64
  toMs : UInt64
  after : UInt64
  all : Bool
  deriving DecidableEq, Repr

def maxI64 : Nat := 9223372036854775807

def UsageQuery.validate (query : UsageQuery) : Except Error Unit :=
  rejectIf (query.fromMs ≥ query.toMs || query.toMs.toNat > maxI64 ||
    query.toMs - query.fromMs > 366 * 86400000 || query.after.toNat > maxI64) .invalidInput

end Types

section Records

def End.all : List End :=
  [.eof, .clientDisconnected, .gatewayConnectionFailed, .gatewayBodyLost, .headerTimeout,
    .idleTimeout, .responseLimit]

def End.name : End → String
  | .eof => "eof"
  | .clientDisconnected => "client_disconnected"
  | .gatewayConnectionFailed => "gateway_connection_failed"
  | .gatewayBodyLost => "gateway_body_lost"
  | .headerTimeout => "header_timeout"
  | .idleTimeout => "idle_timeout"
  | .responseLimit => "response_limit"

def End.codec : Codec End := .names all name fun a => by cases a <;> rfl

def Admission.codec : Codec Admission :=
  (((Record.field "id" Id.codec).and <| (Record.field "subject" Id.codec).and <|
    (Record.field "credential" Id.codec).and <|
    (Record.field "authorization_sha256" Digest.codec).and <|
    (Record.field "route" Codec.str).and <| (Record.field "at_ms" Codec.u64).and <|
    (Record.field "instance" Id.codec).and <|
    (Record.field "configuration_sha256" Digest.codec).and <|
    (Record.optional "producer" (Id.codec.nullable nofun)).and <|
    .optional "session" (Id.codec.nullable nofun)).codec (by decide)).map
    (fun (id, subject, credential, authorization, route, atMs, inst, configuration, producer,
        session) =>
      ⟨id, subject, credential, authorization, route, atMs, inst, configuration, producer,
        session⟩)
    (fun a => (a.id, a.subject, a.credential, a.authorizationSha256, a.route, a.atMs,
      a.instance_, a.configurationSha256, a.producer, a.session)) fun _ => rfl

def Headers.codec : Codec Headers :=
  (((Record.field "at_ms" Codec.u64).and <| (Record.field "status" Codec.u16).and <|
    .optional "gateway_request" (Id.codec.nullable nofun)).codec (by decide)).map
    (fun (atMs, status, gatewayRequest) => ⟨atMs, status, gatewayRequest⟩)
    (fun h => (h.atMs, h.status, h.gatewayRequest)) fun _ => rfl

def Finished.codec : Codec Finished :=
  (((Record.field "at_ms" Codec.u64).and <|
    .field "transport" End.codec).codec (by decide)).map
    (fun (atMs, transport) => ⟨atMs, transport⟩) (fun f => (f.atMs, f.transport)) fun _ => rfl

def SessionIntent.codec : Codec SessionIntent :=
  (((Record.field "id" Id.codec).and <| (Record.field "subject" Id.codec).and <|
    (Record.field "credential" Id.codec).and <| (Record.field "route" Codec.str).and <|
    (Record.field "origin_sha256" Digest.codec).and <|
    (Record.field "idempotency_key" Id.codec).and <|
    .field "at_ms" Codec.u64).codec (by decide)).map
    (fun (id, subject, credential, route, origin, key, atMs) =>
      ⟨id, subject, credential, route, origin, key, atMs⟩)
    (fun s => (s.id, s.subject, s.credential, s.route, s.originSha256, s.idempotencyKey,
      s.atMs)) fun _ => rfl

def SessionBinding.codec : Codec SessionBinding :=
  (((Record.field "session" Id.codec).and <| (Record.field "internal" Id.codec).and <|
    .field "origin_sha256" Digest.codec).codec (by decide)).map
    (fun (session, internal, origin) => ⟨session, internal, origin⟩)
    (fun b => (b.session, b.internal, b.originSha256)) fun _ => rfl

end Records

section Sizes

open Record Codec

theorem within_route {route : String} (h : route.utf8ByteSize ≤ 256) :
    Codec.str.Within 1538 route := by
  have hsize := Ir.utf8ByteSize_ofList route.toList
  rw [String.ofList_toList] at hsize
  rw [hsize] at h
  exact within_str h

theorem within_optional_id (id : Option Id) : (Id.codec.nullable nofun).Within 98 id :=
  within_nullable (fun id _ => Id.within id) (by decide)

theorem decode_admission {a : Admission} (h : a.route.utf8ByteSize ≤ 256) :
    decode Admission.codec (json Admission.codec a) = .ok a := by
  have hadmission : Admission.codec.Within 3000 a :=
    within_map (within_codec (within_and (within_field "id" (Id.within a.id)) <|
      within_and (within_field "subject" (Id.within a.subject)) <|
      within_and (within_field "credential" (Id.within a.credential)) <|
      within_and (within_field "authorization_sha256" (Digest.within a.authorizationSha256)) <|
      within_and (within_field "route" (within_route h)) <|
      within_and (within_field "at_ms" (within_u64 a.atMs)) <|
      within_and (within_field "instance" (Id.within a.instance_)) <|
      within_and (within_field "configuration_sha256" (Digest.within a.configurationSha256)) <|
      within_and (within_optional "producer" (within_optional_id a.producer)) <|
      within_optional "session" (within_optional_id a.session)) (by decide))
  exact decode_json (by decide) (hadmission.mono (by decide))

theorem decode_headers (h : Headers) : decode Headers.codec (json Headers.codec h) = .ok h := by
  have hheaders : Headers.codec.Within 300 h :=
    within_map (within_codec (within_and (within_field "at_ms" (within_u64 h.atMs)) <|
      within_and (within_field "status" (within_u16 h.status)) <|
      within_optional "gateway_request" (within_optional_id h.gatewayRequest)) (by decide))
  exact decode_json (by decide) (hheaders.mono (by decide))

theorem End.within (e : End) : End.codec.Within 27 e := within_names (by decide) e

theorem decode_finished (f : Finished) :
    decode Finished.codec (json Finished.codec f) = .ok f := by
  have hfinished : Finished.codec.Within 300 f :=
    within_map (within_codec (within_and (within_field "at_ms" (within_u64 f.atMs)) <|
      within_field "transport" (End.within f.transport)) (by decide))
  exact decode_json (by decide) (hfinished.mono (by decide))

theorem decode_intent {s : SessionIntent} (h : s.route.utf8ByteSize ≤ 256) :
    decode SessionIntent.codec (json SessionIntent.codec s) = .ok s := by
  have hintent : SessionIntent.codec.Within 3000 s :=
    within_map (within_codec (within_and (within_field "id" (Id.within s.id)) <|
      within_and (within_field "subject" (Id.within s.subject)) <|
      within_and (within_field "credential" (Id.within s.credential)) <|
      within_and (within_field "route" (within_route h)) <|
      within_and (within_field "origin_sha256" (Digest.within s.originSha256)) <|
      within_and (within_field "idempotency_key" (Id.within s.idempotencyKey)) <|
      within_field "at_ms" (within_u64 s.atMs)) (by decide))
  exact decode_json (by decide) (hintent.mono (by decide))

theorem decode_binding (b : SessionBinding) :
    decode SessionBinding.codec (json SessionBinding.codec b) = .ok b := by
  have hbinding : SessionBinding.codec.Within 400 b :=
    within_map (within_codec (within_and (within_field "session" (Id.within b.session)) <|
      within_and (within_field "internal" (Id.within b.internal)) <|
      within_field "origin_sha256" (Digest.within b.originSha256)) (by decide))
  exact decode_json (by decide) (hbinding.mono (by decide))

end Sizes

end ResponseGateway.Requests
