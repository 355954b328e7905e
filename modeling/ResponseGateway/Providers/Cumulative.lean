import ResponseGateway.Providers.Runs
import ResponseGateway.Usage.AttemptRuns

/-!
The usages that are exposed one after the other. They pass the checks of an event whatever
the plugin answers. They do not fall without a violation in a run whose frames are candid;
an attempt that observes such a run does not end with less than it told before.
-/

namespace ResponseGateway.Providers
open Checked Ir Adapters Usage
open Continuation (Base64)

section Frames

/-- A frame that is accepted states its usage where the recovery looks for it, and one that
is not accepted does not state less than what is exposed. -/
structure Candid (wire : Wire ResultValue) (p : PreparedProvider) (answer : Except IrError Json)
    (accepts : ResultValue → Option UsageSnapshot) : Prop where
  stated : ∀ raw reply usage, answer = .ok raw → p.session.Addressed raw →
    wire.reply raw = some reply → accepts reply = some usage →
      Session.attempted wire raw = some (observe usage)
  refused : ∀ raw u, answer = .ok raw → p.session.Addressed raw →
    (∀ reply, wire.reply raw = some reply → accepts reply = none) →
      Session.attempted wire raw = some u → Grows p.observation.usage u

variable {identity : ProviderIdentity} {wire : Wire ResultValue} {answer : Except IrError Json}
  {p : PreparedProvider} {phase : Phase} {previous u : CanonicalUsage}
  {accepts : ResultValue → Option UsageSnapshot} {raw : Json}

theorem valid_attempted (h : Session.attempted wire raw = some u) : Valid u := by
  rw [Session.attempted] at h
  split at h
  · cases h
    exact valid_observeWire _ _
  · cases h
    exact valid_observeWire _ _
  · cases h

/-- Whatever is stated is in order. -/
theorem admits_valid (hp : Within identity Valid phase p)
    (hclean : p.observation.usage.violations = []) :
    Admits Valid wire p.session previous answer accepts where
  refused _ _ _ _ _ hu := valid_attempted hu
  accepted raw reply usage u _ _ _ _ hu := by
    refine ⟨hu ▸ (checks_observeCumulative previous).valid (valid_observe usage), ?_⟩
    intro _ v hv
    rcases Option.or_eq_some_iff.1 hv with hnew | ⟨-, hold⟩
    · exact valid_attempted hnew
    · exact hp.recoverable hclean v hold

/-- What is stated by a candid frame is not below what is exposed. -/
theorem Candid.admits (h : Candid wire p answer accepts) (hvalid : Valid p.observation.usage)
    (hprevious : previous = p.observation.usage) :
    Admits (Grows p.observation.usage) wire p.session previous answer accepts where
  refused := h.refused
  accepted raw reply usage u hframe haddressed hreply haccepts hu := by
    rw [hprevious] at hu
    by_cases hclean : u.violations = []
    · rw [← hu] at hclean
      obtain ⟨hsame, hmore⟩ :=
        observeCumulative_clean hvalid.framed (valid_observe usage).framed hclean
      rw [hsame] at hu
      rw [h.stated raw reply usage hframe haddressed hreply haccepts, ← hu]
      refine ⟨.inr hmore, fun _ v hv => ?_⟩
      cases hv
      exact .inr hmore
    · exact ⟨.inl hclean, fun h => absurd h hclean⟩

end Frames

section Steps

namespace Provider

/-- The calls that look at a frame get a candid one. -/
def Steady (wire : Wire ResultValue) : Provider → Call → Prop
  | .streaming s, .event _ answer => s.prepared.phase = .streaming → s.complete = false →
      Candid wire s.prepared answer ResultValue.progressed
  | .streaming s, .finish answer => s.isComplete = true →
      Candid wire s.prepared answer ResultValue.finished
  | _, _ => True

/-- What is exposed is in order, and so is what it would be replaced with. -/
def Sound (identity : ProviderIdentity) : Provider → Prop
  | .idle p => ∃ phase, Within identity Valid phase p ∧
      (phase = .prepared → p.observation.usage = .default)
  | .streaming s => ∃ phase, Within identity Valid phase s.prepared ∧ phase ≠ .prepared ∧
      (phase = .streaming → s.observation = s.prepared.observation.usage ∧
        s.observation.violations = [])

/-- What the usage of an open stream would be replaced with is not below it. -/
def Live : Provider → Prop
  | .idle _ => True
  | .streaming s => s.prepared.phase = .streaming →
      ∀ u, s.prepared.session.attemptedUsage = some u → Grows s.observation u

variable {texts : Texts} {base64 : Base64} {wire : Wire ResultValue}
  {identity : ProviderIdentity} {self : Provider}

theorem Sound.within (h : self.Sound identity) : ∃ phase,
    Within identity Valid phase self.prepared ∧
      (phase = .prepared → self.prepared.observation.usage = .default) := by
  cases self with
  | idle p => exact h
  | streaming s =>
      obtain ⟨phase, hwithin, hphase, -⟩ := h
      exact ⟨phase, hwithin, fun heq => absurd heq hphase⟩

theorem Sound.call (h : self.Sound identity) (k : Call) :
    (self.call texts base64 wire k).Sound identity := by
  cases k with
  | json body responseId answer =>
      obtain ⟨phase, hwithin, hdefault⟩ := h.within
      have hadmits : self.prepared.phase = .prepared → Admits Valid wire self.prepared.session
          .default answer ResultValue.finished := by
        intro hphase
        refine admits_valid hwithin ?_
        rw [hdefault (hwithin.phase.symm.trans hphase)]
        rfl
      rcases within_json texts base64 body responseId hwithin hadmits with
        hfailed | hfinished
      · exact ⟨.failed, hfailed, nofun⟩
      · exact ⟨.finished, hfinished, nofun⟩
  | stream responseId answer =>
      obtain ⟨phase, hwithin, hdefault⟩ := h.within
      rcases within_stream answer responseId hwithin fun _ _ => valid_attempted with
        ⟨e, p', hcall, hfailed⟩ | ⟨s, p', hcall, hopen, hobservation, hsame, hphase⟩
      · rw [Provider.call, hcall]
        exact ⟨.failed, hfailed, nofun⟩
      · rw [Provider.call, hcall]
        refine ⟨.streaming, hopen, nofun, fun _ => ?_⟩
        rw [hobservation, hsame, hdefault (hwithin.phase.symm.trans hphase)]
        exact ⟨rfl, rfl⟩
  | event event answer =>
      cases self with
      | idle p => exact h
      | streaming s =>
          obtain ⟨phase, hwithin, hphase, hopen⟩ := h
          have hadmits : s.prepared.phase = .streaming → s.complete = false →
              Admits Valid wire s.prepared.session s.observation answer
                ResultValue.progressed := by
            intro hstreaming _
            obtain ⟨hsame, hclean⟩ := hopen (hwithin.phase.symm.trans hstreaming)
            exact admits_valid hwithin (hsame ▸ hclean)
          rcases within_event event hwithin hadmits with hfailed | ⟨hstreaming, hadvanced⟩
          · exact ⟨.failed, hfailed, nofun, nofun⟩
          · exact ⟨.streaming, hstreaming, nofun, fun _ => ⟨hadvanced.shown.symm, hadvanced.clean⟩⟩
  | finish answer =>
      cases self with
      | idle p => exact h
      | streaming s =>
          obtain ⟨phase, hwithin, hphase, hopen⟩ := h
          have hadmits : s.isComplete = true → Admits Valid wire s.prepared.session s.observation
              answer ResultValue.finished := by
            intro hcomplete
            have hstreaming := of_decide_eq_true (Bool.and_eq_true_iff.1 hcomplete).2
            obtain ⟨hsame, hclean⟩ := hopen (hwithin.phase.symm.trans hstreaming)
            exact admits_valid hwithin (hsame ▸ hclean)
          rcases within_finish texts base64 hwithin hadmits with
            hfailed | hfinished
          · exact ⟨.failed, hfailed, nofun, nofun⟩
          · exact ⟨.finished, hfinished, nofun, nofun⟩

/-- A provider that is not ready exposes what it did. -/
theorem call_json (body : Body) (responseId : String) (answer : Except IrError Json)
    (hphase : self.prepared.phase ≠ .prepared) :
    (self.call texts base64 wire (.json body responseId answer)).observation =
      self.observation := by
  rw [Provider.call, PreparedProvider.json, if_pos (by simp [hphase])]
  rfl

theorem call_stream (responseId : String) (answer : Except IrError Json)
    (hphase : self.prepared.phase ≠ .prepared) :
    self.call texts base64 wire (.stream responseId answer) = .idle self.prepared.fail := by
  rw [Provider.call, PreparedProvider.stream, if_pos (by simp [hphase])]

/-- So does a stream that does not wait for the call. -/
theorem call_event {s : ProviderStream} (event : SseEvent) (answer : Except IrError Json)
    (hphase : ¬(s.prepared.phase = .streaming ∧ s.complete = false)) :
    (streaming s).call texts base64 wire (.event event answer) =
      .streaming { s with prepared := s.prepared.fail } := by
  rw [Provider.call, ProviderStream.event, if_pos]
  rw [Bool.or_eq_true, decide_eq_true_eq]
  by_contra hopen
  rw [not_or, not_not, Bool.not_eq_true] at hopen
  exact hphase hopen.symm

theorem call_finish {s : ProviderStream} (answer : Except IrError Json)
    (hcomplete : s.isComplete = false) :
    (streaming s).call texts base64 wire (.finish answer) =
      .streaming { s with prepared := s.prepared.fail } := by
  rw [Provider.call, ProviderStream.finish, hcomplete]
  rfl

/-- What is recovered from an open stream is not below what is exposed. -/
theorem Live.within {s : ProviderStream} {phase : Phase} (h : Live (.streaming s))
    (hwithin : Within identity Valid phase s.prepared) (hopen : s.prepared.phase = .streaming)
    (hsame : s.observation = s.prepared.observation.usage) :
    Within identity (Grows s.prepared.observation.usage) phase s.prepared where
  phase := hwithin.phase
  own := hwithin.own
  identity := hwithin.identity
  exposed := .inr (.refl _)
  recoverable _ u hu := hsame ▸ h hopen u hu

theorem Live.call (hsound : self.Sound identity) (h : self.Live) {k : Call}
    (hsteady : self.Steady wire k) : (self.call texts base64 wire k).Live ∧
      Grows self.observation.usage (self.call texts base64 wire k).observation.usage := by
  cases k with
  | json body responseId answer =>
      refine ⟨trivial, ?_⟩
      by_cases hphase : self.prepared.phase = .prepared
      · obtain ⟨phase, hwithin, hdefault⟩ := hsound.within
        rw [Provider.observation, hdefault (hwithin.phase.symm.trans hphase)]
        exact .inr (atLeast_default _)
      · rw [call_json body responseId answer hphase]
        exact .inr (.refl _)
  | stream responseId answer =>
      by_cases hphase : self.prepared.phase = .prepared
      · obtain ⟨phase, hwithin, hdefault⟩ := hsound.within
        rw [Provider.observation, hdefault (hwithin.phase.symm.trans hphase)]
        refine ⟨?_, .inr (atLeast_default _)⟩
        rcases within_stream answer responseId hwithin fun _ _ => valid_attempted with
          ⟨e, p', hcall, -⟩ | ⟨s, p', hcall, -, hobservation, -⟩
        · rw [Provider.call, hcall]
          trivial
        · rw [Provider.call, hcall]
          intro _ u _
          rw [hobservation]
          exact .inr (atLeast_default u)
      · rw [call_stream responseId answer hphase]
        exact ⟨trivial, .inr (.refl _)⟩
  | event event answer =>
      cases self with
      | idle p => exact ⟨trivial, .inr (.refl _)⟩
      | streaming s =>
          obtain ⟨phase, hwithin, -, hopen⟩ := hsound
          by_cases hstreaming : s.prepared.phase = .streaming ∧ s.complete = false
          · obtain ⟨hsame, hclean⟩ := hopen (hwithin.phase.symm.trans hstreaming.1)
            have hcandid := hsteady hstreaming.1 hstreaming.2
            rcases within_event event (h.within hwithin hstreaming.1 hsame) fun _ _ =>
              hcandid.admits hwithin.exposed hsame with hfailed | ⟨hnext, hadvanced⟩
            · exact ⟨fun hphase => absurd (hfailed.phase.symm.trans hphase) nofun, hfailed.exposed⟩
            · refine ⟨fun _ u hu => ?_, hnext.exposed⟩
              obtain ⟨raw, reply, usage, hframe, haddressed, hreply, haccepts, hobservation,
                hattempt⟩ := hadvanced.reply
              rw [hattempt, hcandid.stated raw reply usage hframe haddressed hreply haccepts] at hu
              cases hu
              have hclean := hadvanced.clean
              rw [← hobservation] at hclean ⊢
              rw [(observeCumulative_clean (hsame ▸ hwithin.exposed).framed
                (valid_observe usage).framed hclean).1]
              exact .inr (.refl _)
          · rw [call_event event answer hstreaming]
            exact ⟨nofun, .inr (.refl _)⟩
  | finish answer =>
      cases self with
      | idle p => exact ⟨trivial, .inr (.refl _)⟩
      | streaming s =>
          obtain ⟨phase, hwithin, -, hopen⟩ := hsound
          by_cases hcomplete : s.isComplete = true
          · have hstreaming := of_decide_eq_true (Bool.and_eq_true_iff.1 hcomplete).2
            obtain ⟨hsame, hclean⟩ := hopen (hwithin.phase.symm.trans hstreaming)
            rcases within_finish texts base64 (h.within hwithin hstreaming hsame) fun _ =>
                (hsteady hcomplete).admits hwithin.exposed hsame with hfailed | hfinished
            · exact ⟨fun hphase => absurd (hfailed.phase.symm.trans hphase) nofun, hfailed.exposed⟩
            · exact ⟨fun hphase => absurd (hfinished.phase.symm.trans hphase) nofun,
                hfinished.exposed⟩
          · rw [call_finish answer (Bool.not_eq_true _ ▸ hcomplete)]
            exact ⟨nofun, .inr (.refl _)⟩

end Provider

end Steps

section Attempts

/-- Among what is told of an attempt, an end that is final is not below what was told
before it. -/
def Settles (told : List RecordedEvent) : Prop :=
  told.Pairwise fun e e' => e'.view.finality = .final → AtLeast e.view.usage e'.view.usage

/-- What an attempt holds is not below what it told, unless it is marked. -/
def Retains (a : ProviderAttempt) (told : List RecordedEvent) : Prop :=
  a.event.observationIncomplete = false → ∀ e ∈ told, AtLeast e.view.usage a.event.usage

/-- What an attempt will observe does not fall below what it holds. -/
structure Expects (identity : ProviderIdentity) (a : ProviderAttempt)
    (rest : List ProviderObservation) : Prop where
  own : ∀ o ∈ rest, o.identity = identity
  valid : ∀ o ∈ rest, providerUsageValid o.usage = true
  grows : a.event.interpretation = interpretation identity → a.finished = false →
    a.event.observationIncomplete = false →
      (a.event.usage :: rest.map (·.usage)).IsChain Grows

/-- What a call leaves is not below what it found, and it tells no more than that. -/
structure Reports (a : ProviderAttempt) (after : After ProviderAttempt) : Prop where
  unmarked : after.attempt.event.observationIncomplete = false →
    a.event.observationIncomplete = false ∧ AtLeast a.event.usage after.attempt.event.usage
  sent : after.sent = [] ∨ ∃ e, after.sent = [e] ∧ e.view.usage = after.attempt.event.usage ∧
    (e.view.finality = .final → after.attempt.event.observationIncomplete = false)

/-- The observation that a call brings. -/
def observedBy : ProviderAttempt.Call → Option ProviderObservation
  | .observe o => some o
  | _ => none

variable {identity : ProviderIdentity} {a a' : ProviderAttempt} {c : Chance}
  {told : List RecordedEvent} {o : ProviderObservation} {rest : List ProviderObservation}

theorem Settles.append {sent : List RecordedEvent} (h : Settles told)
    (hsent : sent = [] ∨ ∃ e, sent = [e] ∧
      (e.view.finality = .final → ∀ e' ∈ told, AtLeast e'.view.usage e.view.usage)) :
    Settles (told ++ sent) := by
  rcases hsent with rfl | ⟨e, rfl, he⟩
  · rwa [List.append_nil]
  · refine List.pairwise_append.2 ⟨h, List.pairwise_singleton _ _, fun e' he' e'' he'' => ?_⟩
    rw [List.mem_singleton.1 he'']
    exact fun hfinal => he hfinal e' he'

/-- What a call tells settles what was told before it. -/
theorem Reports.settles {after : After ProviderAttempt} (h : Reports a after)
    (hcovers : Retains a told) (hsettles : Settles told) :
    Retains after.attempt (told ++ after.sent) ∧ Settles (told ++ after.sent) := by
  have hold : after.attempt.event.observationIncomplete = false →
      ∀ e ∈ told, AtLeast e.view.usage after.attempt.event.usage := by
    intro hmark e he
    obtain ⟨hbefore, hmore⟩ := h.unmarked hmark
    exact (hcovers hbefore e he).trans hmore
  refine ⟨fun hmark e he => ?_, hsettles.append ?_⟩
  · rcases List.mem_append.1 he with he | he
    · exact hold hmark e he
    · rcases h.sent with hnone | ⟨e', hone, husage, -⟩
      · rw [hnone] at he
        cases he
      · rw [hone, List.mem_singleton] at he
        rw [he, husage]
        exact .refl _
  · rcases h.sent with hnone | ⟨e, hone, husage, hfinal⟩
    · exact .inl hnone
    · exact .inr ⟨e, hone, fun hend => husage ▸ hold (hfinal hend)⟩

theorem Reports.kept (hevent : a'.event.observationIncomplete = a.event.observationIncomplete)
    (husage : a'.event.usage = a.event.usage) {ok : Bool} : Reports a ⟨a', [], ok⟩ :=
  ⟨fun hmark => ⟨hevent.symm.trans hmark, husage ▸ .refl _⟩, .inl rfl⟩

theorem deliver_event (a : ProviderAttempt) (terminal : Bool) (c : Chance) :
    (a.deliver terminal c).attempt.event = (a.stamp c).event ∧
      (a.deliver terminal c).attempt.finished = a.finished ∧
        ((a.deliver terminal c).sent = [] ∨
          (a.deliver terminal c).sent = [.v2 (a.stamp c).event]) := by
  refine ⟨rfl, ?_, ?_⟩
  · rw [ProviderAttempt.deliver]
    dsimp only
    rw [Sender.send]
    split
    · split <;> rfl
    · split <;> rfl
  · rw [ProviderAttempt.deliver]
    dsimp only
    rw [Sender.send]
    split
    · split
      · exact .inr rfl
      · exact .inl rfl
    · split
      · exact .inr rfl
      · exact .inl rfl

/-- An event is told after it was written over. -/
theorem reports_deliver (terminal : Bool)
    (hmoved : a'.event.observationIncomplete = false →
      a.event.observationIncomplete = false ∧ AtLeast a.event.usage a'.event.usage)
    (hfinal : a'.event.finality = .final → a'.event.observationIncomplete = false) :
    Reports a (a'.deliver terminal c) := by
  obtain ⟨hevent, -, hsent⟩ := deliver_event a' terminal c
  refine ⟨?_, ?_⟩
  · rw [hevent]
    exact hmoved
  · rw [hevent]
    rcases hsent with hnone | hone
    · exact .inl hnone
    · exact .inr ⟨_, hone, rfl, hfinal⟩

theorem reports_observe (h : Expects identity a (o :: rest)) :
    Reports a (a.observe o c) ∧ Expects identity (a.observe o c).attempt rest := by
  obtain ⟨hown, hownRest⟩ := List.forall_mem_cons.1 h.own
  obtain ⟨hvalid, hvalidRest⟩ := List.forall_mem_cons.1 h.valid
  rw [ProviderAttempt.observe]
  split
  · next hrefused =>
      refine ⟨.kept rfl rfl, hownRest, hvalidRest, fun hinterpretation => ?_⟩
      have hmismatch : interpretation identity ≠ a.event.interpretation := by
        simpa [hvalid, hown] using hrefused
      exact absurd hinterpretation.symm hmismatch
  · split
    · next hfinished =>
        exact ⟨.kept rfl rfl, hownRest, hvalidRest, fun _ hopen =>
          absurd (hopen.symm.trans hfinished) Bool.false_ne_true⟩
    · next hmatch hopen =>
        have hinterpretation : a.event.interpretation = interpretation identity := by
          rw [hown, Bool.or_eq_true, not_or, decide_eq_true_eq, not_not] at hmatch
          exact hmatch.1.symm
        have hgrows := h.grows hinterpretation (Bool.not_eq_true _ ▸ hopen)
        split
        · obtain ⟨hevent, hfinished, -⟩ :=
            deliver_event ((a.replace o.usage).next .usageUpdated c) false c
          refine ⟨reports_deliver false (fun hmark => ?_) fun hfinal => ?_, hownRest, hvalidRest,
            fun _ _ hmark => ?_⟩
          · have hparts := Bool.or_eq_false_iff.1 (Bool.or_eq_false_iff.1 hmark).1
            refine ⟨hparts.1, ?_⟩
            obtain ⟨hfirst, -⟩ := List.isChain_cons_cons.1 (hgrows hparts.1)
            refine hfirst.resolve_left fun hviolations => hviolations ?_
            exact List.isEmpty_iff.1 (by simpa using hparts.2)
          · exact absurd hfinal progress_ne_final
          · rw [hevent] at hmark ⊢
            have hparts := Bool.or_eq_false_iff.1 (Bool.or_eq_false_iff.1 hmark).1
            exact (List.isChain_cons_cons.1 (hgrows hparts.1)).2
        · next hsame =>
            rw [ne_eq, not_not] at hsame
            refine ⟨.kept rfl rfl, hownRest, hvalidRest, fun _ _ hmark => ?_⟩
            rw [hsame]
            exact (List.isChain_cons_cons.1 (hgrows hmark)).2

theorem reports_finish (h : Expects identity a rest) (gateway : Usage.Outcome) :
    Reports a (a.finish gateway c) ∧ Expects identity (a.finish gateway c).attempt rest := by
  rw [ProviderAttempt.finish]
  split
  · exact ⟨.kept rfl rfl, h⟩
  · obtain ⟨hevent, hfinished, -⟩ := deliver_event ((a.close gateway c).grade
      (a.event.usage.closing a.event.observationIncomplete a.event.upstream)) true c
    refine ⟨reports_deliver true (fun hmark => ⟨hmark, .refl _⟩) fun hfinal => ?_, h.own, h.valid,
      fun _ hopen => ?_⟩
    · exact (closing_final hfinal).1
    · rw [hfinished] at hopen
      cases hopen

/-- The observations of some calls are the next ones that are expected. -/
theorem reports_call (k : ProviderAttempt.Call) {next : List ProviderObservation}
    (h : Expects identity a next) (hnext : (observedBy k).toList ++ rest = next) :
    Reports a (a.call c k) ∧ Expects identity (a.call c k).attempt rest := by
  cases hnext
  cases k with
  | observe o => exact reports_observe h
  | amend upstream gateway providerRequestId =>
      have hkept : Reports a ⟨a.amend upstream gateway providerRequestId, [], true⟩ :=
        ⟨fun hmark => ⟨hmark, .refl _⟩, .inl rfl⟩
      exact ⟨hkept, h.own, h.valid, h.grows⟩
  | finish gateway => exact reports_finish h gateway

theorem calls_settle (steps : List (ProviderAttempt.Call × Chance))
    (h : Expects identity a (steps.filterMap (observedBy ·.1))) (hcovers : Retains a told)
    (hsettles : Settles told) :
    Settles (told ++ (calls ProviderAttempt.call steps a).sent) := by
  induction steps generalizing a told with
  | nil => rwa [calls, List.append_nil]
  | cons step rest ih =>
      obtain ⟨k, c⟩ := step
      have hnext : (observedBy k).toList ++ rest.filterMap (observedBy ·.1) =
          ((k, c) :: rest).filterMap (observedBy ·.1) := by
        rw [List.filterMap_cons]
        cases observedBy k <;> rfl
      obtain ⟨hreports, hexpects⟩ := reports_call (c := c) k h hnext
      obtain ⟨hcovers', hsettles'⟩ := hreports.settles hcovers hsettles
      rw [calls]
      dsimp only
      rw [← List.append_assoc]
      exact ih hexpects hcovers' hsettles'

/-- An attempt that is dropped does not end with a final event. -/
theorem drop_settles (h : Settles told) : Settles (told ++ a.drop c) := by
  refine h.append ?_
  rw [ProviderAttempt.drop]
  split
  · exact .inl rfl
  · dsimp only
    rw [Sender.abandon]
    split
    · exact .inr ⟨_, rfl, fun hfinal => absurd hfinal progress_ne_final⟩
    · exact .inl rfl

theorem channel_settles {sink : Option UsageSink} {event : UsageEventV2} {reserved : Bool}
    {closing : Chance} {steps : List (ProviderAttempt.Call × Chance)}
    {observations : List ProviderObservation} (hevent : event.usage = .default)
    (hsteps : steps.filterMap (observedBy ·.1) = observations)
    (hown : ∀ o ∈ observations, o.identity = identity)
    (hvalid : ∀ o ∈ observations, providerUsageValid o.usage = true)
    (hgrows : observations.IsChain fun o o' => Grows o.usage o'.usage)
    (htold : ProviderAttempt.channel sink event reserved c steps closing = some told) :
    Settles told := by
  rw [ProviderAttempt.channel] at htold
  split at htold
  · next opened hopened =>
      cases htold
      cases sink with
      | none => cases hopened
      | some sink =>
          obtain rfl := ProviderAttempt.start_some hopened
          obtain ⟨hstarted, -, hsent⟩ := deliver_event (⟨⟨sink, true, false⟩,
            { event with producerId := sink.producer }⟩ : ProviderAttempt) false c
          generalize (ProviderAttempt.deliver false c ⟨⟨sink, true, false⟩,
            { event with producerId := sink.producer }⟩) = opened at hstarted hsent ⊢
          have husage : opened.attempt.event.usage = .default := by
            rw [hstarted]
            exact hevent
          have hsettles : Settles opened.sent := by
            rcases hsent with hnone | hone
            · rw [hnone]
              exact List.Pairwise.nil
            · rw [hone]
              exact List.pairwise_singleton _ _
          have hcovers : Retains opened.attempt opened.sent := by
            intro _ e he
            rcases hsent with hnone | hone
            · rw [hnone] at he
              cases he
            · rw [hone, List.mem_singleton] at he
              rw [he, hstarted]
              exact .refl _
          have hexpects : Expects identity opened.attempt (steps.filterMap (observedBy ·.1)) := by
            rw [hsteps]
            refine ⟨hown, hvalid, fun _ _ _ => ?_⟩
            rw [husage]
            cases observations with
            | nil => exact List.isChain_singleton _
            | cons o rest =>
                exact List.isChain_cons_cons.2
                  ⟨.inr (atLeast_default _), (List.isChain_map _).2 hgrows⟩
          rw [lifetime]
          split
          · exact drop_settles (calls_settle steps hexpects hcovers hsettles)
          · exact drop_settles hsettles
  · cases htold

end Attempts

section Runs

variable (texts : Texts) (base64 : Base64) (wire : Wire ResultValue)

/-- Every call of a run that looks at a frame gets a candid one. -/
def Provider.SteadyRun (self : Provider) : List Call → Prop
  | [] => True
  | k :: rest => self.Steady wire k ∧ (self.call texts base64 wire k).SteadyRun rest

variable {texts : Texts} {base64 : Base64} {wire : Wire ResultValue} {identity : ProviderIdentity}
  {self : Provider}

theorem Provider.Sound.observations (h : self.Sound identity) (ks : List Call) :
    ∀ o ∈ self.observations texts base64 wire ks, o.identity = identity ∧ Valid o.usage := by
  have hhead : ∀ {self : Provider}, self.Sound identity →
      self.observation.identity = identity ∧ Valid self.observation.usage := by
    intro self h
    obtain ⟨phase, hwithin, -⟩ := h.within
    exact ⟨hwithin.identity, hwithin.exposed⟩
  induction ks generalizing self with
  | nil => exact List.forall_mem_singleton.2 (hhead h)
  | cons k rest ih => exact List.forall_mem_cons.2 ⟨hhead h, ih (h.call k)⟩

theorem Provider.Live.observations (hsound : self.Sound identity) (h : self.Live)
    (ks : List Call) (hsteady : self.SteadyRun texts base64 wire ks) :
    (self.observations texts base64 wire ks).IsChain fun o o' => Grows o.usage o'.usage := by
  induction ks generalizing self with
  | nil => exact List.isChain_singleton _
  | cons k rest ih =>
      obtain ⟨hlive, hgrows⟩ := @Provider.Live.call texts base64 wire identity self hsound h k
        hsteady.1
      have hrest := ih (hsound.call k) hlive hsteady.2
      rw [Provider.observations]
      cases rest with
      | nil => exact List.isChain_cons_cons.2 ⟨hgrows, hrest⟩
      | cons k' rest => exact List.isChain_cons_cons.2 ⟨hgrows, hrest⟩

theorem sound_opened (verifier : PreparedResponses) (identity : ProviderIdentity) (maximum : Nat)
    (streaming managed : Bool) (expectedFormat : Option (String × Nat)) (model : String) :
    (Provider.idle (.opened verifier identity maximum streaming managed expectedFormat
      model)).Sound identity :=
  ⟨.prepared, ⟨rfl, rfl, rfl, valid_default, fun _ _ h => nomatch h⟩, fun _ => rfl⟩

/-- Whatever the plugin answers, what is exposed passes the checks of an event. When every
frame is candid, it does not fall without a violation, and an attempt that observes it does
not end with a final event below what it told. -/
theorem observations_cumulative (verifier : PreparedResponses) (identity : ProviderIdentity)
    (maximum : Nat) (streaming managed : Bool) (expectedFormat : Option (String × Nat))
    (model : String) (ks : List Call) {observations : List ProviderObservation}
    (hrun : (Provider.idle (.opened verifier identity maximum streaming managed expectedFormat
      model)).observations texts base64 wire ks = observations) :
    (∀ o ∈ observations, providerUsageValid o.usage = true) ∧
      ((Provider.idle (.opened verifier identity maximum streaming managed expectedFormat
        model)).SteadyRun texts base64 wire ks →
          observations.IsChain (fun o o' => Grows o.usage o'.usage) ∧
          ∀ {sink : Option UsageSink} {event : UsageEventV2} {reserved : Bool} {c closing : Chance}
            {steps : List (ProviderAttempt.Call × Chance)} {told : List RecordedEvent},
              event.usage = .default → steps.filterMap (observedBy ·.1) = observations →
                ProviderAttempt.channel sink event reserved c steps closing = some told →
                  Settles told) := by
  have hsound := sound_opened verifier identity maximum streaming managed expectedFormat model
  have hall := @Provider.Sound.observations texts base64 wire identity _ hsound ks
  rw [hrun] at hall
  refine ⟨fun o ho => (hall o ho).2.usable, fun hsteady => ?_⟩
  have hgrows := Provider.Live.observations hsound trivial ks hsteady
  rw [hrun] at hgrows
  refine ⟨hgrows, fun hevent hsteps htold => ?_⟩
  exact channel_settles hevent hsteps (fun o ho => (hall o ho).1)
    (fun o ho => (hall o ho).2.usable) hgrows htold

end Runs

section Sampled

/-- An object with these keys and no other ones. -/
def exactly (keys : List String) (value : Json) : Bool :=
  value.asObject.any fun fields =>
    fields.length = keys.length && keys.all fun key => (Assoc.get key fields).isSome

def readCounter (value : Json) : Option SnapshotCounter :=
  match value.fieldStr "source" with
  | some "reported" =>
      if exactly ["source", "value"] value then
        (value.lookup "value").asU64.map fun n => .reported (UInt64.ofNat n)
      else none
  | some "not_reported" => if exactly ["source"] value then some .notReported else none
  | some "not_applicable" => if exactly ["source"] value then some .notApplicable else none
  | some "invalid" => if exactly ["source"] value then some .invalid else none
  | _ => none

def readCounters (value : Json) : Option SnapshotCounters := do
  if exactly (SnapshotCounters.entries ⟨.invalid, .invalid, .invalid, .invalid, .invalid, .invalid,
      .invalid⟩ |>.map Prod.fst) value then
    return {
      inputTokens := ← readCounter (value.lookup "input_tokens")
      outputTokens := ← readCounter (value.lookup "output_tokens")
      totalTokens := ← readCounter (value.lookup "total_tokens")
      inputRegularTokens := ← readCounter (value.lookup "input_regular_tokens")
      cacheReadInputTokens := ← readCounter (value.lookup "cache_read_input_tokens")
      cacheWriteInputTokens := ← readCounter (value.lookup "cache_write_input_tokens")
      reasoningOutputTokens := ← readCounter (value.lookup "reasoning_output_tokens") }
  else none

def readSnapshot (value : Json) : Option UsageSnapshot :=
  match value.fieldStr "kind" with
  | some "unobserved" => if exactly ["kind"] value then some .unobserved else none
  | some "observed" =>
      if exactly ["kind", "counters"] value then
        (readCounters (value.lookup "counters")).map .observed
      else none
  | _ => none

/-- Replies to events, in the form of objects. -/
def readReply (raw : Json) : Option ResultValue := do
  let value := raw.lookup "value"
  if exactly ["protocol", "sequence", "value"] raw && value.fieldStr "result" = some "progress" &&
      exactly ["result", "events", "complete", "usage"] value then
    let events ← (value.lookup "events").asArray
    let complete ← (value.lookup "complete").asBool
    let usage ← readSnapshot (value.lookup "usage")
    return .progress events complete usage
  else none

def sampleWire : Wire ResultValue := ⟨readReply, readSnapshot, readCounter⟩

/-- A usage whose only counter is that of the input. -/
def inputUsage (input : Nat) : Json :=
  let missing := Json.object [("source", .string "not_reported")]
  .object [("kind", .string "observed"), ("counters", .object [
    ("input_tokens", .object [("source", .string "reported"), ("value", .number (.ofNat input))]),
    ("output_tokens", missing), ("total_tokens", missing), ("input_regular_tokens", missing),
    ("cache_read_input_tokens", missing), ("cache_write_input_tokens", missing),
    ("reasoning_output_tokens", missing)])]

def progressFrame (sequence : Nat) (usage : Json) (more : Json.Fields) : Json :=
  .object [("protocol", .string providerProtocol), ("sequence", .number (.ofNat sequence)),
    ("value", .object ([("result", .string "progress"), ("events", .array []),
      ("complete", .bool false), ("usage", usage)] ++ more))]

def sampleIdentity : ProviderIdentity := ⟨providerProtocol, "p/v1", "p", "1", "", ""⟩

/-- A request without tools. -/
def sampleVerifier : PreparedResponses :=
  { original := .object [], echoes := .object []
    tools := {
      registry := {
        codeMode := false, forward := .empty, reverse := .empty, definitions := []
        normalized := .empty }
      parallel := none, choice := none }
    profile := {
      reasoningContract := none, id := "p", version := "1", protocol := .responses, support := [] }
    model := "m", preserveItemOrder := true }

def sampleTexts : Texts := ⟨id, fun _ => false, fun _ => false⟩

def sampleProvider : Provider :=
  .idle (.opened sampleVerifier sampleIdentity 1000 true false none "m")

/-- A stream, an event that counts an input of five tokens, and another one. -/
def countedCalls (last : Json) : List Call := [
  .stream "r" (.ok (progressFrame 2 (.object [("kind", .string "unobserved")]) [])),
  .event ⟨[], []⟩ (.ok (progressFrame 3 (inputUsage 5) [])),
  .event ⟨[], []⟩ (.ok last)]

def countedRun (last : Json) : List ProviderObservation :=
  sampleProvider.observations sampleTexts ⟨fun _ => "", fun _ => none⟩ sampleWire
    (countedCalls last)

/-- A reply that is accepted and states its usage. -/
theorem candid_sample {p : PreparedProvider} {raw : Json} (usage : UsageSnapshot)
    (hreply : (readReply raw).bind ResultValue.progressed = some usage)
    (hstated : Session.attempted sampleWire raw = some (observe usage)) :
    Candid sampleWire p (.ok raw) ResultValue.progressed := by
  obtain ⟨reply, hread, haccepts⟩ := Option.bind_eq_some_iff.1 hreply
  refine ⟨?_, ?_⟩
  · intro raw' reply' usage' hframe _ hread' haccepts'
    cases hframe
    obtain rfl := Option.some.inj (hread.symm.trans hread')
    obtain rfl := Option.some.inj (haccepts.symm.trans haccepts')
    exact hstated
  · intro raw' u hframe _ hnone _
    cases hframe
    exact absurd (haccepts.symm.trans (hnone reply hread)) nofun

theorem steady_sample (self : Provider) {event : SseEvent} {raw : Json}
    (h : ∀ p, Candid sampleWire p (.ok raw) ResultValue.progressed) :
    self.Steady sampleWire (.event event (.ok raw)) := by
  cases self with
  | idle p => trivial
  | streaming s => exact fun _ _ => h s.prepared

def countedEvent : UsageEventV2 :=
  { schema := schemaV2, producerId := "", requestId := "r", attemptId := "a", eventId := "e"
    revision := 0, kind := .attemptStarted, startedAtMs := 1, observedAtMs := 1, provider := "p"
    modelAlias := "m", upstreamModel := "m", reportedModel := none, providerRequestId := none
    providerResponseId := none, interpretation := interpretation sampleIdentity
    configurationSha256 := "", upstream := .inProgress, gateway := .inProgress
    finality := .unobserved, observationIncomplete := false, usage := .default }

def countedChance : Chance := ⟨2, "e", true, true⟩

/-- An attempt that observes a run of the provider and then ends. -/
def countedSteps (observations : List ProviderObservation) :
    List (ProviderAttempt.Call × Chance) :=
  observations.map (fun o => (.observe o, countedChance)) ++
    [(.amend .completed .inProgress none, countedChance), (.finish .completed, countedChance)]

theorem observedBy_countedSteps (observations : List ProviderObservation) :
    (countedSteps observations).filterMap (observedBy ·.1) = observations := by
  rw [countedSteps, List.filterMap_append, List.filterMap_map]
  exact (List.append_nil _).trans List.filterMap_some

/-- A run that counts five and then seven tokens, and the attempt that observes it. -/
theorem observations_cumulative_counted : ∃ (observations : List ProviderObservation)
    (told : List RecordedEvent),
    observations.map (·.usage.value "input_tokens") = [none, none, some 5, some 7] ∧
    observations.IsChain (fun o o' => Grows o.usage o'.usage) ∧ Settles told ∧
    told.map (·.view.finality) = [.unobserved, .partly, .partly, .final] := by
  have hvalues : (countedRun (progressFrame 4 (inputUsage 7) [])).map
      (·.usage.value "input_tokens") = [none, none, some 5, some 7] := by decide +kernel
  have htold : (ProviderAttempt.channel (some ⟨.bestEffort, "p", true⟩) countedEvent true
      countedChance (countedSteps (countedRun (progressFrame 4 (inputUsage 7) [])))
      countedChance).map (·.map (·.view.finality)) =
        some [.unobserved, .partly, .partly, .final] := by decide +kernel
  obtain ⟨told, htold, hfinality⟩ := Option.map_eq_some_iff.1 htold
  have hfirst : ∀ p, Candid sampleWire p (.ok (progressFrame 3 (inputUsage 5) []))
      ResultValue.progressed := fun p =>
    candid_sample ((readSnapshot (inputUsage 5)).getD .unobserved) (by decide +kernel) (by decide +kernel)
  have hsecond : ∀ p, Candid sampleWire p (.ok (progressFrame 4 (inputUsage 7) []))
      ResultValue.progressed := fun p =>
    candid_sample ((readSnapshot (inputUsage 7)).getD .unobserved) (by decide +kernel) (by decide +kernel)
  obtain ⟨-, hrun⟩ := @observations_cumulative sampleTexts ⟨fun _ => "", fun _ => none⟩ sampleWire sampleVerifier sampleIdentity 1000 true false none "m" (countedCalls (progressFrame 4 (inputUsage 7) [])) _ rfl
  obtain ⟨hgrows, hsettles⟩ :=
    hrun ⟨trivial, steady_sample _ hfirst, steady_sample _ hsecond, trivial⟩
  exact ⟨_, told, hvalues, hgrows, hsettles rfl (observedBy_countedSteps _) htold, hfinality⟩

/-- An event that is malformed states an input of three tokens after one of five, and the
provider exposes it without a violation. -/
theorem observations_fall : ¬(countedRun (progressFrame 4 (inputUsage 3)
    [("extra", .null)])).IsChain (fun o o' => Grows o.usage o'.usage) := by
  intro hchain
  have hvalues : (countedRun (progressFrame 4 (inputUsage 3) [("extra", .null)])).map
      (fun o => (o.usage.value "input_tokens", o.usage.violations)) =
        [(none, []), (none, []), (some 5, []), (some 3, [])] := by decide +kernel
  obtain ⟨_, _, hl, -, hvalues⟩ := List.map_eq_cons_iff.1 hvalues
  obtain ⟨_, _, rfl, -, hvalues⟩ := List.map_eq_cons_iff.1 hvalues
  obtain ⟨o, _, rfl, ho, hvalues⟩ := List.map_eq_cons_iff.1 hvalues
  obtain ⟨o', _, rfl, ho', -⟩ := List.map_eq_cons_iff.1 hvalues
  rw [hl, List.isChain_cons_cons, List.isChain_cons_cons, List.isChain_cons_cons] at hchain
  rw [Prod.mk.injEq] at ho ho'
  rcases hchain.2.2.1 with hviolations | hmore
  · exact hviolations ho'.2
  · obtain ⟨m, hm, hle⟩ := hmore "input_tokens" 5 ho.1
    rw [ho'.1] at hm
    cases hm
    exact absurd hle (by decide)

end Sampled

end ResponseGateway.Providers
