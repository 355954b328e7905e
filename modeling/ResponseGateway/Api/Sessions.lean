import ResponseGateway.Api.Handlers

/-!
The table of sessions over a run. Every session in it was opened by a login of the past that
no logout has followed, there are never more than two hundred and fifty-six, and what a
request with a session cookie is admitted as is what that login was.
-/

namespace ResponseGateway.Api
open Checked Json Method Management
open Team (CredentialKind Secret)

variable {R α β : Type} {config : Config} {headers : Headers} {draw : Draw R} {s s' : Server R}

section Opening

/-- A session is stored by a login, under the digest of its secret. -/
def Opens (config : Config) (x : Served R) (key : String) (session : Session) : Prop :=
  ∃ secret p created, Begins x secret p created ∧ key = (config.digest secret).value ∧
    session.identity = p.actor.identity ∧ session.version = p.authorizationVersion ∧
    session.created = created ∧ session.expires.toNat = created.toNat + sessionTtl ∧
    ∀ answer, x.reply = .ok answer → answer.cookie = some (sessionCookie config secret)

/-- A logout removes the session of a key. -/
def Closes (config : Config) (x : Served R) (key : String) : Prop :=
  ∃ empty, x.request.route = .logout empty ∧ boundaryChecks config x.request.headers = .ok () ∧
    logoutChecks config x.request.headers empty = .ok key

end Opening

section Steps

/-- What one request does. -/
structure Steps (config : Config) (x : Served R) : Prop where
  closing : x.after.closing = x.before.closing
  admission : (x.admitted = none ∧ x.after.work = x.before.work ∧
      ((∃ e, x.reply = .error e) ∨ ∃ empty, x.request.route = .logout empty)) ∨
    ∃ bearerOnly mutation p, x.admitted = some p ∧
      Entitled config x.request.headers x.draw bearerOnly mutation x.before p ∧
      (x.request.route.isMutation = true → mutation = true) ∧
      (bearerOnly = false → x.request.route.isRead = true)
  sessions : ∀ key session, x.after.sessions.get key = some session →
    (x.before.sessions.get key = some session ∧ ¬ Closes config x key) ∨
      Opens config x key session
  few : x.before.sessions.size ≤ 256 → x.after.sessions.size ≤ 256
  rests : ∀ known, x.before.Rests config known →
    (x.credential = none ∧ x.after.Rests config known) ∨
      ∃ answer secret, x.reply = .ok answer ∧ x.credential = some secret ∧
        answer.data.fieldStr "state" = some "succeeded" ∧ config.digest secret ∉ known ∧
        x.after.Rests config (known ++ [config.digest secret])

variable {x : Served R}

theorem Entitled.before {bearerOnly mutation : Bool} {p : Principal}
    (h : Entitled config headers draw bearerOnly mutation (s.withAdmitted none) p) :
    Entitled config headers draw bearerOnly mutation s p := ⟨h.managed, h.source⟩

end Steps

section Histories

/-- The credentials that were handed over. -/
def credentials (moments : List (Moment R)) : List String := moments.filterMap Moment.credential

/-- What a past says of the service behind it. -/
structure Follows (config : Config) (past : List (Moment R)) (s : Server R) : Prop where
  sessions : ∀ key session, s.sessions.get key = some session → ∃ before login between,
    past = before ++ .served login :: between ∧ Opens config login key session ∧
      ∀ y, .served y ∈ between → ¬ Closes config y key
  few : s.sessions.size ≤ 256
  closing : .closed ∈ past → s.closing = true
  rests : s.Rests config ((credentials past).map config.digest)
  once : (credentials past).Nodup

variable {past : List (Moment R)}

theorem Follows.close (h : Follows config past s) : Follows config (past ++ [.closed]) s.close := by
  have hcredentials : credentials (past ++ [.closed]) = credentials past := by
    rw [credentials, List.filterMap_append]
    exact List.append_nil _
  refine ⟨fun key session hget => ?_, h.few, fun _ => rfl, ?_, ?_⟩
  · obtain ⟨before, login, between, rfl, hopens, hkept⟩ := h.sessions key session hget
    refine ⟨before, login, between ++ [.closed], by simp, hopens, fun y hy => hkept y ?_⟩
    simpa using hy
  · rw [hcredentials]
    exact h.rests
  · rw [hcredentials]
    exact h.once

/-- A request leaves what a longer past says. -/
theorem Follows.serve {x : Served R} (h : Follows config past x.before) (hsteps : Steps config x) :
    Follows config (past ++ [.served x]) x.after := by
  have hcredentials : credentials (past ++ [.served x]) = credentials past ++ x.credential.toList := by
    rw [credentials, List.filterMap_append]
    rfl
  refine ⟨fun key session hget => ?_, hsteps.few h.few, fun hclosed => ?_, ?_, ?_⟩
  · rcases hsteps.sessions key session hget with ⟨hold, hopen⟩ | hopens
    · obtain ⟨before, login, between, rfl, hopens, hkept⟩ := h.sessions key session hold
      refine ⟨before, login, between ++ [.served x], by simp, hopens, fun y hy => ?_⟩
      rcases List.mem_append.1 hy with hy | hy
      · exact hkept y hy
      · cases List.mem_singleton.1 hy
        exact hopen
    · exact ⟨past, x, [], rfl, hopens, fun y hy => absurd hy List.not_mem_nil⟩
  · rw [hsteps.closing]
    refine h.closing ?_
    rcases List.mem_append.1 hclosed with hclosed | hclosed
    · exact hclosed
    · cases List.mem_singleton.1 hclosed
  · rw [hcredentials]
    rcases hsteps.rests _ h.rests with ⟨hnone, hrests⟩ | ⟨answer, secret, -, hsecret, -, -, hrests⟩
    · rw [hnone]
      simpa using hrests
    · rw [hsecret]
      simpa using hrests
  · rw [hcredentials]
    rcases hsteps.rests _ h.rests with ⟨hnone, -⟩ | ⟨answer, secret, -, hsecret, -, hnew, -⟩
    · rw [hnone]
      simpa using h.once
    · rw [hsecret]
      exact Team.nodup_append_singleton h.once fun hmem => hnew (List.mem_map_of_mem hmem)

end Histories

section Guards

variable {past later : List (Moment R)} {moments : List (Moment R)} {x : Served R}

/-- A secret that was presented was returned by the login that opened its session. -/
theorem logsIn_of_fresh (hfresh : Fresh config moments)
    (hmoments : moments = past ++ .served x :: later) {secret : String}
    (hsecret : cookieSecret config x.request.headers = .ok secret) {login : Served R}
    (hlogin : Moment.served login ∈ past) {drawn : String} {p : Principal} {created : UInt64}
    (hbegins : Begins login drawn p created) (hdigest : config.digest secret = config.digest drawn)
    (hcookie : ∀ answer, login.reply = .ok answer →
      answer.cookie = some (sessionCookie config drawn)) :
    secret = drawn ∧ LogsIn config login secret p created := by
  have hpast {m : Moment R} (hm : m ∈ past) : m ∈ moments := by
    rw [hmoments]
    exact List.mem_append_left _ hm
  have hx : Moment.served x ∈ moments := by
    rw [hmoments]
    exact List.mem_append_right _ List.mem_cons_self
  obtain rfl : secret = drawn := hfresh.digests secret drawn ⟨x, hx, .inr hsecret⟩
    ⟨login, hpast hlogin, .inl hbegins.drawn⟩ hdigest
  obtain ⟨y, hy, hdrawn, answer, hreply⟩ := hfresh.returned past x later hmoments secret hsecret
    ⟨login, hpast hlogin, hbegins.drawn⟩
  -- the login that returned the secret is the one that drew it
  have hsame : y = login := by
    by_contra hne
    have hsymm : Std.Symm fun m m' : Moment R =>
        ∀ secret, m.drawn = some secret → m'.drawn ≠ some secret :=
      ⟨fun _ _ h secret hm' hm => h secret hm hm'⟩
    exact hfresh.drawn.forall (hpast hy) (hpast hlogin) (fun heq => hne (Moment.served.inj heq))
      secret hdrawn hbegins.drawn
  subst hsame
  exact ⟨rfl, hbegins, answer, hreply, hcookie answer hreply⟩

theorem logsOut_closes {y : Served R} {secret : String} (h : LogsOut config y secret) :
    Closes config y (config.digest secret).value := by
  obtain ⟨empty, hroute, hboundary, hchecks, -⟩ := h
  exact ⟨empty, hroute, hboundary, hchecks⟩

/-- What a confirmed principal is. -/
theorem confirmed_some {session : Session} {p : Principal} (h : confirmed draw session = some p) :
    draw.refresh session.identity session.version = some p ∧ p.kind = .readOnly ∧
      p.actor.identity = session.identity ∧ p.authorizationVersion = session.version := by
  obtain ⟨hrefresh, hp⟩ := Option.filter_eq_some_iff.1 h
  simp only [Bool.and_eq_true, decide_eq_true_eq] at hp
  exact ⟨hrefresh, hp.1.1, hp.1.2, hp.2⟩

theorem Follows.guarded (h : Follows config past x.before) (hsteps : Steps config x)
    (hfresh : Fresh config moments) (hmoments : moments = past ++ .served x :: later) :
    Guarded config past x where
  sessions p hp hnone := by
    rcases hsteps.admission with ⟨hnobody, -⟩ |
      ⟨bearerOnly, mutation, p', hp', hentitled, -, hread⟩
    · rw [hnobody] at hp
      cases hp
    · obtain rfl := Option.some.inj (hp'.symm.trans hp)
      rcases hentitled.source with ⟨value, token, hvalue, -⟩ | ⟨-, hcookies, -, secret, session, now,
        hsecret, hsession, hnow, hfrom, huntil, hconfirmed⟩
      · rw [hnone] at hvalue
        cases hvalue
      · refine ⟨hread hcookies, ?_⟩
        obtain ⟨before, login, between, hpast, ⟨drawn, origin, created, hbegins, hkey, hidentity,
          hversion, rfl, hexpires, hcookie⟩, hkept⟩ := h.sessions _ session hsession
        have hlogin : Moment.served login ∈ past := by
          rw [hpast]
          exact List.mem_append_right _ List.mem_cons_self
        obtain ⟨rfl, hlogsIn⟩ := logsIn_of_fresh hfresh hmoments hsecret hlogin hbegins
          (Management.Digest.ext hkey) hcookie
        obtain ⟨hrefresh, hkind, hsame, hsameVersion⟩ := confirmed_some hconfirmed
        refine ⟨secret, before, login, between, origin, session.created, now, hsecret, hpast, hlogsIn,
          fun y hy hout => hkept y hy (logsOut_closes hout), hnow, hfrom, ?_, ?_, hkind,
          hsame.trans hidentity, hsameVersion.trans hversion⟩
        · rw [← hexpires]
          exact UInt64.lt_iff_toNat_lt.1 huntil
        · rw [← hidentity, ← hversion]
          exact hrefresh
  mutations p hp hmutation := by
    rcases hsteps.admission with ⟨hnobody, -⟩ |
      ⟨bearerOnly, mutation, p', hp', hentitled, hmanaged, -⟩
    · rw [hnobody] at hp
      cases hp
    · obtain rfl := Option.some.inj (hp'.symm.trans hp)
      obtain ⟨hopen, hkind⟩ := hentitled.managed (hmanaged hmutation)
      refine ⟨?_, hkind, fun hclosed => ?_⟩
      · rcases hentitled.source with hbearer | ⟨-, -, hread, -⟩
        · exact hbearer
        · rw [hmanaged hmutation] at hread
          cases hread
      · rw [h.closing hclosed] at hopen
        cases hopen
  refused hnobody hkept := by
    rcases hsteps.admission with ⟨-, hwork, hreply⟩ | ⟨bearerOnly, mutation, p, hp, -⟩
    · rcases hreply with hreply | ⟨empty, hroute⟩
      · exact ⟨hreply, hwork⟩
      · exact absurd hroute (hkept empty)
    · rw [hnobody] at hp
      cases hp
  deliveries secret hsecret := by
    rcases hsteps.rests _ h.rests with ⟨hnone, -⟩ | ⟨answer, secret', hreply, -, hstate, -⟩
    · rw [hnone] at hsecret
      cases hsecret
    · exact ⟨answer, hreply, hstate⟩
  few := hsteps.few h.few

end Guards

end ResponseGateway.Api
