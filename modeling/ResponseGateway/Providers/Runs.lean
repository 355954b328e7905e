import ResponseGateway.Library.Triple
import ResponseGateway.Providers.Execution
import ResponseGateway.Providers.UsageSteps

/-!
The usages that a provider exposes over a run. Whatever the plugin answers, they pass the
checks of an event. They do not fall without saying so as long as no frame that is not
accepted states less than what is exposed: such a frame is recovered from without being
compared.
-/

namespace ResponseGateway.Providers
open Checked Ir Adapters Usage Method
open Continuation (Base64)

section Calls

/-- A provider with the stream that borrows it, if there is one. -/
inductive Provider where
  | idle (prepared : PreparedProvider)
  | streaming (stream : ProviderStream)

/-- A call, with what the process answers to its request. -/
inductive Call where
  | json (body : Body) (responseId : String) (answer : Except IrError Json)
  | stream (responseId : String) (answer : Except IrError Json)
  | event (event : SseEvent) (answer : Except IrError Json)
  | finish (answer : Except IrError Json)

namespace Provider

def prepared : Provider → PreparedProvider
  | idle p => p
  | streaming s => s.prepared

variable (texts : Texts) (base64 : Base64) (wire : Wire ResultValue)

/-- A stream is given up by the calls of the provider; without one, there is none to call. -/
def call (self : Provider) : Call → Provider
  | .json body responseId answer =>
      .idle (PreparedProvider.json texts base64 wire body responseId answer self.prepared).2
  | .stream responseId answer =>
      match PreparedProvider.stream wire responseId answer self.prepared with
      | (.ok stream, _) => .streaming stream
      | (.error _, prepared) => .idle prepared
  | .event event answer =>
      match self with
      | .idle prepared => .idle prepared
      | .streaming stream => .streaming (ProviderStream.event wire event answer stream).2
  | .finish answer =>
      match self with
      | .idle prepared => .idle prepared
      | .streaming stream => .streaming (ProviderStream.finish texts base64 wire answer stream).2

def observation (self : Provider) : ProviderObservation := self.prepared.observation

/-- What is exposed from a state on, after each call. -/
def observations (self : Provider) : List Call → List ProviderObservation
  | [] => [self.observation]
  | k :: rest => self.observation :: (self.call texts base64 wire k).observations rest

end Provider

end Calls

section Frames

/-- The usage of a reply to an event. -/
def ResultValue.progressed : ResultValue → Option UsageSnapshot
  | .progress _ _ usage => some usage
  | _ => none

/-- The usage of a final reply. -/
def ResultValue.finished : ResultValue → Option UsageSnapshot
  | .completed value => some value.usage
  | _ => none

/-- The frame answers the next request of a session. -/
def Session.Addressed (s : Session) (raw : Json) : Prop :=
  raw.lookup "protocol" = .string providerProtocol ∧
    (raw.lookup "sequence").asU64 = some (s.sequence + 1).toNat

/-- What a frame may do to the usage of a provider, whether it is accepted or not. -/
structure Admits (I : CanonicalUsage → Prop) (wire : Wire ResultValue) (s : Session)
    (previous : CanonicalUsage) (answer : Except IrError Json)
    (accepts : ResultValue → Option UsageSnapshot) : Prop where
  refused : ∀ raw u, answer = .ok raw → s.Addressed raw →
    (∀ reply, wire.reply raw = some reply → accepts reply = none) →
      Session.attempted wire raw = some u → I u
  accepted : ∀ raw reply usage u, answer = .ok raw → s.Addressed raw →
    wire.reply raw = some reply → accepts reply = some usage →
      observeCumulative previous (observe usage) = u → I u ∧ (u.violations = [] →
        ∀ v, (Session.attempted wire raw).or s.attemptedUsage = some v → I v)

/-- What a session keeps of the frame that it is answered. -/
structure Session.Keeps (wire : Wire ResultValue) (answer : Except IrError Json) (s : Session)
    (raw : Json) (s' : Session) : Prop where
  frame : answer = .ok raw
  addressed : s.Addressed raw
  attempt : s'.attemptedUsage = (attempted wire raw).or s.attemptedUsage

variable {wire : Wire ResultValue} {answer : Except IrError Json}

theorem triple_receive (s : Session) (raw : Json) :
    Triple (· = { s with sequence := s.sequence + 1 }) (Session.receive wire raw)
      (fun value s' => Session.Keeps wire (.ok raw) s raw s' ∧ wire.reply raw = some value)
      fun _ s' => s'.attemptedUsage = s.attemptedUsage ∨ Session.Keeps wire (.ok raw) s raw s' ∧
        ∀ value, wire.reply raw = some value → value = .rejected := by
  refine Triple.bind (Q := fun t t' => t = t' ∧ t' = { s with sequence := s.sequence + 1 })
    (triple_read fun t ht => ⟨rfl, ht⟩) fun t => ?_
  refine Triple.bind (Q := fun _ t' => t' = { s with sequence := s.sequence + 1 } ∧
    s.Addressed raw) (triple_check ?_ ?_) fun _ => ?_
  · rintro _ t' hcheck ⟨rfl, rfl⟩
    rw [rejectIf_ok, Bool.or_eq_false_iff, decide_eq_false_iff_not, decide_eq_false_iff_not,
      not_not, not_not] at hcheck
    exact ⟨rfl, hcheck.1, hcheck.2⟩
  · rintro - t' - ⟨rfl, rfl⟩
    exact .inl rfl
  · refine Triple.bind (Q := fun _ t' => Session.Keeps wire (.ok raw) s raw t')
      (triple_write ?_) fun _ => ?_
    · rintro t' ⟨rfl, haddressed⟩
      exact ⟨rfl, haddressed, rfl⟩
    · refine Triple.bind (Q := fun value t' => Session.Keeps wire (.ok raw) s raw t' ∧
        wire.reply raw = some value) (triple_check ?_ ?_) fun value => ?_
      · intro value t' hvalue hkeeps
        cases hreply : wire.reply raw with
        | none =>
            rw [hreply] at hvalue
            cases hvalue
        | some reply =>
            rw [hreply] at hvalue
            cases hvalue
            exact ⟨hkeeps, rfl⟩
      · intro e t' hvalue hkeeps
        refine .inr ⟨hkeeps, fun value hreply => ?_⟩
        rw [hreply] at hvalue
        cases hvalue
      · cases value with
        | rejected =>
            refine triple_check (fun _ _ h => nomatch h) fun e t' _ ht => ?_
            refine .inr ⟨ht.1, fun value hvalue => ?_⟩
            exact (Option.some.inj (ht.2.symm.trans hvalue)).symm
        | ready | prepared | progress | completed => exact triple_pure fun t' ht => ht

/-- What a session is told of a call. -/
theorem triple_sessionCall (s : Session) : Triple (· = s) (Session.call wire answer)
    (fun value s' => ∃ raw, Session.Keeps wire answer s raw s' ∧ wire.reply raw = some value)
    fun _ s' => s'.attemptedUsage = s.attemptedUsage ∨ ∃ raw, Session.Keeps wire answer s raw s' ∧
      ∀ value, wire.reply raw = some value → value = .rejected := by
  have hexchange : Triple (· = s) (Session.exchange wire answer)
      (fun value s' => ∃ raw, Session.Keeps wire answer s raw s' ∧ wire.reply raw = some value)
      fun _ s' => s'.attemptedUsage = s.attemptedUsage ∨
        ∃ raw, Session.Keeps wire answer s raw s' ∧
          ∀ value, wire.reply raw = some value → value = .rejected := by
    refine Triple.bind (Q := fun t t' => t = t' ∧ t' = s) (triple_read fun t ht => ⟨rfl, ht⟩)
      fun t => ?_
    refine Triple.bind (Q := fun _ t' => t' = s) (triple_check ?_ ?_) fun _ => ?_
    · rintro _ t' - ⟨rfl, rfl⟩
      rfl
    · rintro _ t' - ⟨rfl, rfl⟩
      exact .inl rfl
    · refine Triple.bind (Q := fun _ t' => t' = { s with sequence := s.sequence + 1 })
        (triple_write ?_) fun _ => ?_
      · rintro t' rfl
        rfl
      · refine Triple.bind
          (Q := fun raw t' => answer = .ok raw ∧ t' = { s with sequence := s.sequence + 1 })
          (triple_check (fun raw t' h ht => ⟨h, ht⟩) ?_) fun raw => ?_
        · rintro e t' - rfl
          exact .inl rfl
        · intro t' ht
          obtain ⟨rfl, ht⟩ := ht
          refine (triple_receive s raw).weaken (fun _ h => h) ?_ ?_ t' ht
          · exact fun value s' h => ⟨raw, h⟩
          · exact fun e s' h => h.imp_right fun h => ⟨raw, h⟩
  rintro t rfl
  have hrun := hexchange t rfl
  rw [Session.call]
  cases hfailed : t.failed with
  | true => exact .inl rfl
  | false =>
      rw [if_neg Bool.false_ne_true]
      cases hm : Session.exchange wire answer t with
      | mk result s' =>
          rw [hm] at hrun
          cases result with
          | ok value => exact hrun
          | error e =>
              rcases hrun with hsame | ⟨raw, hkeeps, hrejected⟩
              · exact .inl hsame
              · exact .inr ⟨raw, ⟨hkeeps.frame, hkeeps.addressed, hkeeps.attempt⟩, hrejected⟩

end Frames

section Recovery

/-- What holds of the usage that is exposed, and of the one that may replace it. -/
structure Within (identity : ProviderIdentity) (I : CanonicalUsage → Prop) (phase : Phase)
    (p : PreparedProvider) : Prop where
  phase : p.phase = phase
  own : p.identity = identity
  identity : p.observation.identity = identity
  exposed : I p.observation.usage
  recoverable : p.observation.usage.violations = [] →
    ∀ u, p.session.attemptedUsage = some u → I u

variable {identity : ProviderIdentity} {I : CanonicalUsage → Prop} {p : PreparedProvider}
  {phase : Phase}

theorem Within.captureAttempt (h : Within identity I phase p) : Within identity I phase p.captureAttempt := by
  rw [PreparedProvider.captureAttempt]
  split
  · next hclean =>
      split
      · next u hu =>
          have hI := h.recoverable (List.isEmpty_iff.1 hclean) u hu
          refine ⟨h.phase, h.own, h.own, hI, fun _ v hv => ?_⟩
          rw [hu] at hv
          cases hv
          exact hI
      · exact h
  · exact h

theorem Within.poison (h : Within identity I phase p) : Within identity I phase p.poison :=
  ⟨h.phase, h.own, h.identity, h.exposed, h.recoverable⟩

theorem Within.enter (h : Within identity I phase p) (phase : Phase) :
    Within identity I phase { p with phase } :=
  ⟨rfl, h.own, h.identity, h.exposed, h.recoverable⟩

theorem Within.fail (h : Within identity I phase p) : Within identity I .failed p.fail :=
  (h.enter .failed).poison

theorem Within.expose {u : CanonicalUsage} (hphase : p.phase = phase)
    (hown : p.identity = identity) (hexposed : I u)
    (hrecoverable : u.violations = [] → ∀ v, p.session.attemptedUsage = some v → I v) :
    Within identity I phase { p with observation := ⟨p.identity, u⟩ } :=
  ⟨hphase, hown, hown, hexposed, hrecoverable⟩

/-- A frame that is not accepted replaces what is recovered. -/
theorem Within.refuse {wire : Wire ResultValue} {answer : Except IrError Json} {raw : Json}
    {previous : CanonicalUsage} {accepts : ResultValue → Option UsageSnapshot} {s : Session}
    (h : Within identity I phase p) (hadmits : Admits I wire p.session previous answer accepts)
    (hkeeps : p.session.Keeps wire answer raw s)
    (hnone : ∀ reply, wire.reply raw = some reply → accepts reply = none) :
    Within identity I phase { p with session := s } := by
  refine ⟨h.phase, h.own, h.identity, h.exposed, fun hclean u hu => ?_⟩
  rw [hkeeps.attempt, Option.or_eq_some_iff] at hu
  rcases hu with hnew | ⟨-, hold⟩
  · exact hadmits.refused raw u hkeeps.frame hkeeps.addressed hnone hnew
  · exact h.recoverable hclean u hold

section Requests

variable {wire : Wire ResultValue} {answer : Except IrError Json} {previous : CanonicalUsage}
  {accepts : ResultValue → Option UsageSnapshot}

/-- What a request leaves: a reply, or what was kept of a frame that is not accepted. -/
theorem triple_call (hp : Within identity I phase p)
    (hadmits : Admits I wire p.session previous answer accepts)
    (hrejected : accepts .rejected = none) :
    Triple (· = p) (PreparedProvider.call wire answer)
      (fun value p' => ∃ raw s, p.session.Keeps wire answer raw s ∧
        wire.reply raw = some value ∧ p' = { p with session := s })
      fun _ => Within identity I phase := by
  refine triple_zoom ?_
  rintro p rfl
  refine triple_faulting ((triple_sessionCall p.session).weaken (fun _ h => h) ?_ ?_)
  · rintro value s ⟨raw, hkeeps, hreply⟩
    exact ⟨raw, s, hkeeps, hreply, rfl⟩
  · rintro e s (hsame | ⟨raw, hkeeps, hvalue⟩)
    · refine ⟨hp.phase, hp.own, hp.identity, hp.exposed, fun hclean u hu => ?_⟩
      exact hp.recoverable hclean u (hsame ▸ hu)
    · exact hp.refuse hadmits hkeeps fun reply hreply => hvalue reply hreply ▸ hrejected

/-- Checking a final reply exposes its usage first. -/
theorem triple_verify (texts : Texts) (base64 : Base64) (value : Completed) (responseId : String)
    (p : PreparedProvider) (hphase : p.phase = phase) (hown : p.identity = identity)
    {u : CanonicalUsage} (hu : observeCumulative previous (observe value.usage) = u)
    (hexposed : I u)
    (hrecoverable : u.violations = [] → ∀ v, p.session.attemptedUsage = some v → I v) :
    Triple (· = p) (PreparedProvider.verify texts base64 value previous responseId)
      (fun _ => Within identity I phase) fun _ => Within identity I phase := by
  rw [PreparedProvider.verify, hu]
  refine Triple.bind (Q := fun _ => Within identity I phase) (triple_write ?_) fun _ => ?_
  · rintro p rfl
    exact Within.expose hphase hown hexposed hrecoverable
  refine Triple.bind (Q := fun _ => Within identity I phase) (triple_read fun _ h => h)
    fun self => ?_
  refine Triple.bind (Q := fun _ => Within identity I phase)
    (triple_check (fun _ _ _ h => h) fun _ _ _ h => h) fun _ => ?_
  exact triple_check (fun _ _ _ h => h) fun _ _ _ h => h

/-- A reply of another kind is not accepted. -/
theorem Within.declines {raw : Json} {value : ResultValue} {q : Session}
    (hp : Within identity I phase p)
    (hadmits : Admits I wire p.session previous answer accepts)
    (hkeeps : p.session.Keeps wire answer raw q) (hreply : wire.reply raw = some value)
    (hnone : accepts value = none) : Within identity I phase { p with session := q } := by
  refine hp.refuse hadmits hkeeps fun reply h => ?_
  rw [← Option.some.inj (hreply.symm.trans h)]
  exact hnone

theorem Within.completes {texts : Texts} {base64 : Base64} {responseId : String} {raw : Json}
    {value : Completed} {q : Session} (hp : Within identity I phase p)
    (hadmits : Admits I wire p.session previous answer ResultValue.finished)
    (hkeeps : p.session.Keeps wire answer raw q)
    (hreply : wire.reply raw = some (.completed value)) :
    Triple (· = { p with session := q })
      (PreparedProvider.verify texts base64 value previous responseId)
      (fun _ => Within identity I phase) fun _ => Within identity I phase := by
  obtain ⟨u, hu⟩ : ∃ u, observeCumulative previous (observe value.usage) = u := ⟨_, rfl⟩
  obtain ⟨hexposed, hrecoverable⟩ :=
    hadmits.accepted raw _ value.usage u hkeeps.frame hkeeps.addressed hreply rfl hu
  refine triple_verify texts base64 value responseId { p with session := q } hp.phase hp.own
    hu hexposed ?_
  rw [hkeeps.attempt]
  exact hrecoverable

theorem within_json (texts : Texts) (base64 : Base64) (body : Body) (responseId : String)
    (hp : Within identity I phase p)
    (hadmits : p.phase = .prepared →
      Admits I wire p.session .default answer ResultValue.finished) :
    Within identity I .failed (PreparedProvider.json texts base64 wire body responseId answer p).2 ∨
      Within identity I .finished
        (PreparedProvider.json texts base64 wire body responseId answer p).2 := by
  rw [PreparedProvider.json]
  split
  · exact .inl hp.fail
  · next hready =>
    rw [Bool.not_eq_true, Bool.or_eq_false_iff, decide_eq_false_iff_not, not_not] at hready
    replace hadmits := hadmits hready.1
    have hentered := hp.enter .failed
    have hrequest : Triple (· = { p with phase := .failed })
        (PreparedProvider.requestJson texts base64 wire body responseId answer)
        (fun _ => Within identity I .failed) fun _ => Within identity I .failed := by
      refine Triple.bind (Q := fun _ q => q = { p with phase := .failed })
        (triple_read fun _ h => h) fun self => ?_
      refine Triple.bind (Q := fun _ q => q = { p with phase := .failed })
        (triple_check (fun _ _ _ h => h) fun _ _ _ h => h ▸ hentered) fun _ => ?_
      cases body with
      | other size => exact triple_check (fun _ _ _ h => h ▸ hentered) fun _ _ _ h => h ▸ hentered
      | text text =>
          refine Triple.bind (Q := fun _ q => q = { p with phase := .failed })
            (triple_check (fun _ _ _ h => h) fun _ _ _ h => h ▸ hentered) fun _ => ?_
          refine (triple_call hentered hadmits rfl).bind fun value => Triple.given ?_
          rintro _ ⟨raw, q, hkeeps, hreply, rfl⟩
          cases value with
          | completed value => exact hentered.completes hadmits hkeeps hreply
          | ready | prepared | progress | rejected =>
              exact triple_check (fun _ _ h => nomatch h) fun _ _ _ h =>
                h ▸ hentered.declines hadmits hkeeps hreply rfl
    have hrun := hrequest _ rfl
    cases hm : PreparedProvider.requestJson texts base64 wire body responseId answer
        { p with phase := .failed } with
    | mk result q =>
        rw [hm] at hrun
        cases result with
        | ok output => exact .inr (Within.enter hrun .finished)
        | error e => exact .inl (Within.captureAttempt hrun).poison

end Requests

section Streaming

variable {wire : Wire ResultValue} {answer : Except IrError Json} {s s' : ProviderStream}

variable (answer) in
/-- Opening a stream exposes nothing. -/
theorem within_stream {phase : Phase} (responseId : String) (hp : Within identity I phase p)
    (hframes : ∀ raw u, Session.attempted wire raw = some u → I u) :
    (∃ e p', PreparedProvider.stream wire responseId answer p = (.error e, p') ∧
      Within identity I .failed p') ∨
    ∃ s p', PreparedProvider.stream wire responseId answer p = (.ok s, p') ∧
      Within identity I .streaming s.prepared ∧ s.observation = .default ∧
        s.prepared.observation = p.observation ∧ p.phase = .prepared := by
  have hadmits : Admits I wire p.session .default answer fun _ => none :=
    ⟨fun raw u _ _ _ hu => hframes raw u hu, fun _ _ _ _ _ _ _ h _ => nomatch h⟩
  rw [PreparedProvider.stream]
  split
  · exact .inl ⟨_, _, rfl, hp.fail⟩
  · next hready =>
    rw [Bool.not_eq_true, Bool.or_eq_false_iff, decide_eq_false_iff_not, not_not] at hready
    have hrun := triple_call (hp.enter .failed) hadmits rfl _ rfl
    cases hm : PreparedProvider.call wire answer { p with phase := .failed } with
    | mk result q =>
        rw [hm] at hrun
        cases result with
        | error e => exact .inl ⟨_, _, rfl, (Within.captureAttempt hrun).fail⟩
        | ok value =>
            obtain ⟨raw, t, hkeeps, hreply, rfl⟩ := hrun
            have hwithin := (hp.enter .failed).declines hadmits hkeeps hreply rfl
            dsimp only
            split
            · exact .inr ⟨_, _, rfl, hwithin.enter .streaming, rfl, rfl, hready.1⟩
            · exact .inl ⟨_, _, rfl, hwithin.captureAttempt.fail⟩

/-- An event whose reply was accepted. -/
structure Advanced (wire : Wire ResultValue) (answer : Except IrError Json)
    (s s' : ProviderStream) : Prop where
  reply : ∃ raw reply usage, answer = .ok raw ∧ s.prepared.session.Addressed raw ∧
    wire.reply raw = some reply ∧ reply.progressed = some usage ∧
    observeCumulative s.observation (observe usage) = s'.observation ∧
    s'.prepared.session.attemptedUsage =
      (Session.attempted wire raw).or s.prepared.session.attemptedUsage
  clean : s'.observation.violations = []
  shown : s'.prepared.observation.usage = s'.observation

/-- The checks of the events of a reply do not touch the provider. -/
theorem triple_admitReply {p : PreparedProvider} (events : List Json) :
    Triple (fun s : ProviderStream => s.prepared = p) (ProviderStream.admitReply events)
      (fun _ s => s.prepared = p) fun _ s => s.prepared = p := by
  have hevent : ∀ event, Triple (fun s : ProviderStream => s.prepared = p)
      (ProviderStream.admitEvent event) (fun _ s => s.prepared = p) fun _ s => s.prepared = p := by
    intro event
    rw [ProviderStream.admitEvent]
    split
    · refine (triple_read fun _ h => h).bind fun self => ?_
      refine (triple_check (fun _ _ _ h => h) fun _ _ _ h => h).bind fun _ => ?_
      refine (triple_check (fun _ _ _ h => h) fun _ _ _ h => h).bind fun time => ?_
      refine Triple.bind (Q := fun _ s => s.prepared = p) (triple_write fun _ h => h) fun _ => ?_
      refine (triple_check (fun _ _ _ h => h) fun _ _ _ h => h).bind fun fields => ?_
      exact triple_check (fun _ _ _ h => h) fun _ _ _ h => h
    · exact triple_pure fun _ h => h
  have hevents : Triple (fun s : ProviderStream => s.prepared = p)
      (ProviderStream.admitEvents events) (fun _ s => s.prepared = p)
        fun _ s => s.prepared = p := by
    induction events with
    | nil => exact triple_pure fun _ h => h
    | cons event rest ih =>
        exact (hevent event).bind fun _ => ih.bind fun _ => triple_pure fun _ h => h
  refine hevents.bind fun semantic => ?_
  refine (triple_read fun _ h => h).bind fun self => ?_
  refine (triple_check (fun _ _ _ h => h) fun _ _ _ h => h).bind fun _ => ?_
  exact triple_check (fun _ _ _ h => h) fun _ _ _ h => h

theorem triple_requestEvent (event : SseEvent)
    (hp : Within identity I .streaming s.prepared)
    (hadmits : Admits I wire s.prepared.session s.observation answer ResultValue.progressed) :
    Triple (· = s) (ProviderStream.requestEvent wire event answer)
      (fun _ s' => Within identity I .streaming s'.prepared ∧ Advanced wire answer s s')
      fun _ s' => Within identity I .streaming s'.prepared := by
  refine Triple.bind (Q := fun _ t => t.prepared = s.prepared ∧ t.observation = s.observation)
    (triple_write ?_) fun _ => ?_
  · rintro t rfl
    exact ⟨rfl, rfl⟩
  refine Triple.bind (Q := fun t t' => t.observation = s.observation ∧
    t'.prepared = s.prepared ∧ t'.observation = s.observation)
    (triple_read fun _ h => ⟨h.2, h⟩) fun self => Triple.given ?_
  rintro t ⟨hself, hprepared, hobservation⟩
  refine Triple.bind (Q := fun _ t' => t' = t) (triple_check (fun _ _ _ h => h) ?_) fun _ => ?_
  · rintro _ _ - rfl
    exact hprepared ▸ hp
  refine Triple.bind (Q := fun value t' => ∃ raw q, s.prepared.session.Keeps wire answer raw q ∧
    wire.reply raw = some value ∧ t' = { t with prepared := { s.prepared with session := q } })
    (triple_zoom ?_) fun value => Triple.given ?_
  · rintro _ rfl
    rw [hprepared]
    refine (triple_call hp hadmits rfl).weaken (fun _ h => h) ?_ fun _ _ h => h
    rintro value _ ⟨raw, q, hkeeps, hreply, rfl⟩
    exact ⟨raw, q, hkeeps, hreply, rfl⟩
  rintro t' ⟨raw, q, hkeeps, hreply, rfl⟩
  cases value with
  | ready | prepared | completed | rejected =>
      exact triple_check (fun _ _ h => nomatch h) fun _ _ _ h =>
        h ▸ hp.declines hadmits hkeeps hreply rfl
  | progress events complete usage =>
      obtain ⟨u, hu⟩ : ∃ u, observeCumulative s.observation (observe usage) = u := ⟨_, rfl⟩
      obtain ⟨hexposed, hrecoverable⟩ :=
        hadmits.accepted raw _ usage u hkeeps.frame hkeeps.addressed hreply rfl hu
      rw [← hkeeps.attempt] at hrecoverable
      have hwithin : Within identity I .streaming { s.prepared with
          session := q, observation := ⟨s.prepared.identity, u⟩ } :=
        ⟨hp.phase, hp.own, hp.own, hexposed, hrecoverable⟩
      dsimp only
      rw [hself, hu]
      refine Triple.bind (Q := fun _ t' => t'.prepared = { s.prepared with
        session := q, observation := ⟨s.prepared.identity, u⟩ }) (triple_write ?_) fun _ => ?_
      · rintro _ rfl
        rfl
      refine Triple.bind (Q := fun _ t' => u.violations = [] ∧ t'.prepared = { s.prepared with
        session := q, observation := ⟨s.prepared.identity, u⟩ }) (triple_check ?_ ?_) fun _ => ?_
      · intro _ t' hvalid ht
        rw [lift_ok, ensureValid, rejectIf_ok, Bool.not_eq_false', List.isEmpty_iff] at hvalid
        exact ⟨hvalid, ht⟩
      · intro _ t' _ ht
        exact ht ▸ hwithin
      refine Triple.given ?_
      rintro t' ⟨hclean, ht⟩
      refine Triple.bind (Q := fun _ t' => t'.prepared = { s.prepared with
        session := q, observation := ⟨s.prepared.identity, u⟩ })
        ((triple_admitReply events).weaken (fun _ h => h ▸ ht) (fun _ _ h => h)
          fun _ _ h => h ▸ hwithin) fun progress => ?_
      refine Triple.bind (Q := fun _ t' => t'.observation = u ∧ t'.prepared = { s.prepared with
        session := q, observation := ⟨s.prepared.identity, u⟩ }) (triple_write ?_) fun _ => ?_
      · exact fun _ h => ⟨rfl, h⟩
      refine Triple.bind (Q := fun _ t' => t'.observation = u ∧ t'.prepared = { s.prepared with
        session := q, observation := ⟨s.prepared.identity, u⟩ }) (triple_read fun _ h => h)
        fun self => triple_pure ?_
      rintro t' ⟨hobservation, ht⟩
      rw [ht]
      refine ⟨hwithin, ⟨raw, _, usage, hkeeps.frame, hkeeps.addressed, hreply, rfl, ?_, ?_⟩, ?_, ?_⟩
      · rw [hobservation, hu]
      · rw [ht]
        exact hkeeps.attempt
      · rw [hobservation, hclean]
      · rw [hobservation, ht]

/-- A step of a stream: an accepted event, or the end of it. -/
theorem within_event (event : SseEvent) {phase : Phase} (hp : Within identity I phase s.prepared)
    (hadmits : s.prepared.phase = .streaming → s.complete = false →
      Admits I wire s.prepared.session s.observation answer ResultValue.progressed) :
    Within identity I .failed (ProviderStream.event wire event answer s).2.prepared ∨
      Within identity I .streaming (ProviderStream.event wire event answer s).2.prepared ∧
        Advanced wire answer s (ProviderStream.event wire event answer s).2 := by
  rw [ProviderStream.event]
  split
  · exact .inl hp.fail
  · next hopen =>
      rw [Bool.not_eq_true, Bool.or_eq_false_iff, decide_eq_false_iff_not, not_not] at hopen
      obtain rfl : phase = .streaming := hp.phase.symm.trans hopen.2
      have hrun := triple_requestEvent event hp (hadmits hopen.2 hopen.1) s rfl
      cases hm : ProviderStream.requestEvent wire event answer s with
      | mk result t =>
          rw [hm] at hrun
          cases result with
          | ok progress => exact .inr hrun
          | error e => exact .inl (Within.captureAttempt hrun).fail

theorem within_finish (texts : Texts) (base64 : Base64) {phase : Phase}
    (hp : Within identity I phase s.prepared)
    (hadmits : s.isComplete = true →
      Admits I wire s.prepared.session s.observation answer ResultValue.finished) :
    Within identity I .failed (ProviderStream.finish texts base64 wire answer s).2.prepared ∨
      Within identity I .finished (ProviderStream.finish texts base64 wire answer s).2.prepared := by
  rw [ProviderStream.finish]
  split
  · exact .inl hp.fail
  · next hcomplete =>
      rw [Bool.not_eq_true, Bool.not_eq_false'] at hcomplete
      have hentered := hp.enter .failed
      have hrequest : Triple (· = { s with prepared := { s.prepared with phase := .failed } })
          (ProviderStream.requestFinish texts base64 wire answer)
          (fun _ t => Within identity I .failed t.prepared)
          fun _ t => Within identity I .failed t.prepared := by
        refine Triple.bind (Q := fun t t' => t = t' ∧
          t' = { s with prepared := { s.prepared with phase := .failed } })
          (triple_read fun _ h => ⟨rfl, h⟩) fun self => Triple.given ?_
        rintro _ ⟨rfl, rfl⟩
        refine Triple.bind (Q := fun value t => ∃ raw q,
          s.prepared.session.Keeps wire answer raw q ∧ wire.reply raw = some value ∧
            t = { s with prepared := { s.prepared with phase := .failed, session := q } })
          (triple_zoom ?_) fun value => Triple.given ?_
        · rintro _ rfl
          refine (triple_call hentered (hadmits hcomplete) rfl).weaken (fun _ h => h) ?_
            fun _ _ h => h
          rintro value _ ⟨raw, q, hkeeps, hreply, rfl⟩
          exact ⟨raw, q, hkeeps, hreply, rfl⟩
        rintro _ ⟨raw, q, hkeeps, hreply, rfl⟩
        cases value with
        | ready | prepared | progress | rejected =>
            exact triple_check (fun _ _ h => nomatch h) fun _ _ _ h =>
              h ▸ hentered.declines (hadmits hcomplete) hkeeps hreply rfl
        | completed value =>
            refine Triple.bind (Q := fun _ t => Within identity I .failed t.prepared)
              (triple_zoom ?_) fun output => ?_
            · rintro _ rfl
              exact hentered.completes (hadmits hcomplete) hkeeps hreply
            refine Triple.bind (Q := fun _ t => Within identity I .failed t.prepared)
              (triple_check (fun _ _ _ h => h) fun _ _ _ h => h) fun _ => ?_
            refine Triple.bind (Q := fun _ t => Within identity I .failed t.prepared)
              (triple_check (fun _ _ _ h => h) fun _ _ _ h => h) fun events => ?_
            exact triple_pure fun _ h => h
      have hrun := hrequest _ rfl
      cases hm : ProviderStream.requestFinish texts base64 wire answer
          { s with prepared := { s.prepared with phase := .failed } } with
      | mk result t =>
          rw [hm] at hrun
          cases result with
          | ok output => exact .inr (Within.enter hrun .finished)
          | error e => exact .inl (Within.captureAttempt hrun).poison

end Streaming

end Recovery

end ResponseGateway.Providers
