import ResponseGateway.Usage.Attempt

/-!
What the channel is told of an attempt. A `Track` is an attempt as the channel sees it: the
event that is being written, whether the end is still to be told, and what was told. The
calls of both kinds of attempts are steps of it, and its runs are the orderly ones.
-/

namespace ResponseGateway.Usage
open Adapters (Accounting)
open Checked

section Tracks

/-- What the events of an attempt have in common. -/
structure Identity where
  reader : Profile ⊕ Interpretation
  schema : String
  producerId : String
  requestId : String
  attemptId : String
  startedAtMs : UInt64
  provider : String
  modelAlias : String
  upstreamModel : String
  configurationSha256 : String

def RecordedEvent.reader : RecordedEvent → Profile ⊕ Interpretation
  | v1 e => .inl e.profile
  | v2 e => .inr e.interpretation

def RecordedEvent.identity (e : RecordedEvent) : Identity where
  reader := e.reader
  schema := e.schemaOf
  producerId := e.view.producerId
  requestId := e.view.requestId
  attemptId := e.view.attemptId
  startedAtMs := e.view.startedAtMs
  provider := e.view.provider
  modelAlias := e.view.modelAlias
  upstreamModel := e.view.upstreamModel
  configurationSha256 := e.view.configurationSha256

/-- Final counters were observed in full, are not contradictory, and the provider ended. -/
def Conclusive (e : RecordedEvent) : Prop :=
  e.view.finality = .final → e.view.observationIncomplete = false ∧
    e.view.usage.violations = [] ∧
    (e.view.upstream = .completed ∨ e.view.upstream = .incomplete)

structure Track where
  current : RecordedEvent
  /-- The end is still to be told. -/
  pending : Bool
  told : List RecordedEvent

/-- An event is changed without being told. -/
structure Kept (e e' : RecordedEvent) : Prop where
  identity : e'.identity = e.identity
  revision : e'.view.revision = e.view.revision

/-- An event follows another one. -/
structure Succeeds (eventId : String) (kind : EventKind) (e e' : RecordedEvent) : Prop where
  identity : e'.identity = e.identity
  revision : e'.view.revision = e.view.revision + 1
  kind : e'.view.kind = kind
  named : e'.view.eventId = eventId
  times : e'.view.startedAtMs ≤ e'.view.observedAtMs

/-- What a call does, with the name that it may give to an event. -/
inductive Track.Step (eventId : String) : Track → Track → Prop where
  | keep {t : Track} {e : RecordedEvent} (kept : Kept t.current e) :
      Step eventId t { t with current := e }
  | update {t : Track} {e e' : RecordedEvent} {sent : List RecordedEvent}
      (pending : t.pending = true) (next : Succeeds eventId .usageUpdated t.current e)
      (reached : sent = [] ∨ sent = [e]) (kept : Kept e e') :
      Step eventId t ⟨e', true, t.told ++ sent⟩
  | finish {t : Track} {e e' : RecordedEvent} (pending : t.pending = true)
      (next : Succeeds eventId .attemptFinished t.current e) (conclusive : Conclusive e)
      (kept : Kept e e') : Step eventId t ⟨e', false, t.told ++ [e]⟩

inductive Track.Run : List String → Track → Track → Prop where
  | nil {t : Track} : Run [] t t
  | cons {t t' t'' : Track} {eventId : String} {ids : List String}
      (step : Step eventId t t') (rest : Run ids t' t'') : Run (eventId :: ids) t t''

/-- What was told of an attempt, with the names that were given so far. -/
structure Track.Orderly (start : RecordedEvent) (ids : List String) (t : Track) : Prop where
  identity : t.current.identity = start.identity
  bounded : t.current.view.revision.toNat + 1 ≤ ids.length
  identities : ∀ e ∈ t.told, e.identity = start.identity
  increasing : t.told.Pairwise (·.view.revision < ·.view.revision)
  latest : ∀ e ∈ t.told, e.view.revision ≤ t.current.view.revision
  started : ∀ e ∈ t.told, e.view.kind = .attemptStarted ↔ e.view.revision = 0
  times : ∀ e ∈ t.told, e.view.startedAtMs ≤ e.view.observedAtMs
  names : (t.told.map (·.view.eventId)).Sublist ids
  ongoing : t.pending = true → ∀ e ∈ t.told, e.view.kind ≠ .attemptFinished
  ended : t.pending = false → ∃ before e, t.told = before ++ [e] ∧
    e.view.kind = .attemptFinished ∧ (∀ e' ∈ before, e'.view.kind ≠ .attemptFinished) ∧
    Conclusive e

variable {start e e' : RecordedEvent} {ids : List String} {eventId : String} {kind : EventKind}
  {t t' : Track}

theorem Kept.refl (e : RecordedEvent) : Kept e e := ⟨rfl, rfl⟩

theorem Kept.trans {e'' : RecordedEvent} (h : Kept e e') (h' : Kept e' e'') : Kept e e'' :=
  ⟨h'.identity.trans h.identity, h'.revision.trans h.revision⟩

theorem Kept.succeeds {e'' : RecordedEvent} (h : Kept e e') (h' : Succeeds eventId kind e' e'') :
    Succeeds eventId kind e e'' :=
  { h' with
    identity := h'.identity.trans h.identity
    revision := by rw [h'.revision, h.revision] }

theorem toNat_next {n : UInt64} (h : n.toNat + 1 < 2 ^ 64) : (n + 1).toNat = n.toNat + 1 := by
  rw [UInt64.toNat_add]
  exact Nat.mod_eq_of_lt h

/-- An event that is told after those before it. -/
theorem Track.Orderly.tell (h : t.Orderly start ids) (hfits : ids.length < 2 ^ 64)
    (hnext : Succeeds eventId kind t.current e) (hkind : kind ≠ .attemptStarted) :
    e.identity = start.identity ∧ e.view.revision.toNat + 1 ≤ (ids ++ [eventId]).length ∧
      (∀ e' ∈ t.told, e'.view.revision < e.view.revision) ∧
      (e.view.kind = .attemptStarted ↔ e.view.revision = 0) := by
  have hbound := h.bounded
  have hrevision : e.view.revision.toNat = t.current.view.revision.toNat + 1 := by
    rw [hnext.revision]
    exact toNat_next (by omega)
  refine ⟨hnext.identity.trans h.identity, ?_, fun e' he' => ?_, ?_⟩
  · rw [List.length_append, List.length_singleton]
    omega
  · have hle := UInt64.le_iff_toNat_le.1 (h.latest e' he')
    rw [UInt64.lt_iff_toNat_lt]
    omega
  · rw [hnext.kind]
    refine ⟨fun heq => absurd heq hkind, fun hzero => ?_⟩
    rw [hzero] at hrevision
    exact absurd hrevision (by simp)

/-- One more event, or none, is told. -/
theorem Track.Orderly.append {sent : List RecordedEvent} {pending : Bool}
    (h : t.Orderly start ids) (hfits : ids.length < 2 ^ 64)
    (hnext : Succeeds eventId kind t.current e) (hkind : kind ≠ .attemptStarted)
    (hsent : sent = [] ∨ sent = [e]) (hkept : Kept e e')
    (hopen : pending = true → ∀ e ∈ t.told ++ sent, e.view.kind ≠ .attemptFinished)
    (hended : pending = false → ∃ before e, t.told ++ sent = before ++ [e] ∧
      e.view.kind = .attemptFinished ∧ (∀ e' ∈ before, e'.view.kind ≠ .attemptFinished) ∧
      Conclusive e) :
    Track.Orderly start (ids ++ [eventId]) ⟨e', pending, t.told ++ sent⟩ := by
  obtain ⟨hidentity, hbound, hlater, hstarted⟩ := h.tell hfits hnext hkind
  have hmem : ∀ e'' ∈ t.told ++ sent, e'' ∈ t.told ∨ e'' = e := by
    intro e'' he''
    rcases List.mem_append.1 he'' with he'' | he''
    · exact .inl he''
    · rcases hsent with rfl | rfl
      · cases he''
      · exact .inr (List.mem_singleton.1 he'')
  refine ⟨hkept.identity.trans hidentity, by rwa [hkept.revision], ?_, ?_, ?_, ?_, ?_, ?_, hopen,
    hended⟩
  · intro e'' he''
    rcases hmem e'' he'' with hold | rfl
    · exact h.identities e'' hold
    · exact hidentity
  · rcases hsent with rfl | rfl
    · rw [List.append_nil]
      exact h.increasing
    · refine List.pairwise_append.2 ⟨h.increasing, List.pairwise_singleton _ _, ?_⟩
      intro e₁ he₁ e₂ he₂
      rw [List.mem_singleton.1 he₂]
      exact hlater e₁ he₁
  · intro e'' he''
    rw [hkept.revision]
    rcases hmem e'' he'' with hold | rfl
    · exact UInt64.le_of_lt (hlater e'' hold)
    · exact UInt64.le_refl _
  · intro e'' he''
    rcases hmem e'' he'' with hold | rfl
    · exact h.started e'' hold
    · exact hstarted
  · intro e'' he''
    rcases hmem e'' he'' with hold | rfl
    · exact h.times e'' hold
    · exact hnext.times
  · rw [List.map_append]
    refine h.names.append ?_
    rcases hsent with rfl | rfl
    · exact List.nil_sublist _
    · rw [List.map_singleton, hnext.named]

theorem Track.Orderly.step (h : t.Orderly start ids) (hfits : ids.length < 2 ^ 64)
    (hstep : Track.Step eventId t t') : t'.Orderly start (ids ++ [eventId]) := by
  cases hstep with
  | keep kept =>
      exact { h with
        identity := kept.identity.trans h.identity
        bounded := by
          rw [kept.revision, List.length_append]
          exact Nat.le_trans h.bounded (Nat.le_add_right _ _)
        latest := by
          intro e he
          rw [kept.revision]
          exact h.latest e he
        names := h.names.trans (List.sublist_append_left _ _) }
  | update pending next reached kept =>
      refine h.append hfits next (by decide) reached kept (fun _ e he => ?_) nofun
      rcases List.mem_append.1 he with he | he
      · exact h.ongoing pending e he
      · rcases reached with rfl | rfl
        · cases he
        · rw [List.mem_singleton.1 he, next.kind]
          decide
  | finish pending next conclusive kept =>
      refine h.append hfits next (by decide) (.inr rfl) kept nofun fun _ => ?_
      exact ⟨t.told, _, rfl, next.kind, h.ongoing pending, conclusive⟩

theorem Track.Orderly.run {ids' : List String} (hrun : Track.Run ids' t t')
    (h : t.Orderly start ids) (hfits : (ids ++ ids').length ≤ 2 ^ 64) :
    t'.Orderly start (ids ++ ids') := by
  induction hrun generalizing ids with
  | nil => rwa [List.append_nil]
  | @cons t t' t'' eventId ids' step rest ih =>
      have hlength : (ids ++ [eventId] ++ ids').length ≤ 2 ^ 64 := by
        rwa [List.append_assoc, List.singleton_append]
      have hfits' : ids.length < 2 ^ 64 := by
        rw [List.length_append, List.length_append, List.length_singleton] at hlength
        omega
      have hall := ih (h.step hfits' step) hlength
      rwa [List.append_assoc, List.singleton_append] at hall

theorem Track.Run.append {ids' : List String} {t'' : Track} (h : Track.Run ids t t')
    (h' : Track.Run ids' t' t'') : Track.Run (ids ++ ids') t t'' := by
  induction h with
  | nil => exact h'
  | cons step rest ih => exact .cons step (ih h')

/-- A change before a step belongs to it. -/
theorem Track.Step.before {pending : Bool} {told : List RecordedEvent} (hkept : Kept e e')
    (h : Track.Step eventId ⟨e', pending, told⟩ t') : Track.Step eventId ⟨e, pending, told⟩ t' := by
  cases h with
  | keep kept => exact .keep (t := ⟨e, pending, told⟩) (hkept.trans kept)
  | update hpending next reached kept =>
      exact .update (t := ⟨e, pending, told⟩) hpending (hkept.succeeds next) reached kept
  | finish hpending next conclusive kept =>
      exact .finish (t := ⟨e, pending, told⟩) hpending (hkept.succeeds next) conclusive kept

/-- A change after a step belongs to it. -/
theorem Track.Step.after (h : Track.Step eventId t t') (hkept : Kept t'.current e) :
    Track.Step eventId t { t' with current := e } := by
  cases h with
  | keep kept => exact .keep (kept.trans hkept)
  | update hpending next reached kept =>
      exact .update hpending next reached (kept.trans hkept)
  | finish hpending next conclusive kept =>
      exact .finish hpending next conclusive (kept.trans hkept)

/-- What was told of an attempt that is over. -/
structure Told (start : RecordedEvent) (ids : List String) (told : List RecordedEvent) :
    Prop where
  identities : ∀ e ∈ told, e.identity = start.identity
  increasing : told.Pairwise (·.view.revision < ·.view.revision)
  started : ∀ e ∈ told, e.view.kind = .attemptStarted ↔ e.view.revision = 0
  times : ∀ e ∈ told, e.view.startedAtMs ≤ e.view.observedAtMs
  ended : ∃ before e, told = before ++ [e] ∧ e.view.kind = .attemptFinished ∧
    (∀ e' ∈ before, e'.view.kind ≠ .attemptFinished) ∧ Conclusive e
  names : (told.map (·.view.eventId)).Sublist ids

theorem Track.Orderly.told (h : t.Orderly start ids) (hended : t.pending = false) :
    Told start ids t.told :=
  ⟨h.identities, h.increasing, h.started, h.times, h.ended hended, h.names⟩

theorem Told.mono {told : List RecordedEvent} {ids' : List String} (h : Told start ids told)
    (hsub : ids.Sublist ids') : Told start ids' told :=
  { h with names := h.names.trans hsub }

/-- An attempt that was just constructed. -/
theorem Track.Orderly.opening {sent : List RecordedEvent} (hrevision : start.view.revision = 0)
    (hkind : start.view.kind = .attemptStarted)
    (htimes : start.view.startedAtMs ≤ start.view.observedAtMs)
    (hsent : sent = [] ∨ sent = [start]) :
    Track.Orderly start [start.view.eventId] ⟨start, true, sent⟩ := by
  have hmem : ∀ e ∈ sent, e = start := by
    rintro e he
    rcases hsent with rfl | rfl
    · cases he
    · exact List.mem_singleton.1 he
  refine ⟨rfl, ?_, ?_, ?_, ?_, ?_, ?_, ?_, ?_, nofun⟩
  · simp [hrevision]
  · intro e he
    rw [hmem e he]
  · rcases hsent with rfl | rfl
    · exact List.Pairwise.nil
    · exact List.pairwise_singleton _ _
  · intro e he
    rw [hmem e he]
    exact UInt64.le_refl _
  · intro e he
    rw [hmem e he]
    exact ⟨fun _ => hrevision, fun _ => hkind⟩
  · intro e he
    rw [hmem e he]
    exact htimes
  · rcases hsent with rfl | rfl
    · exact List.nil_sublist _
    · exact List.Sublist.refl _
  · intro _ e he
    rw [hmem e he, hkind]
    decide

end Tracks

section Tracking

variable {α κ : Type}

/-- A kind of attempt: what is seen of it, and what its calls keep. -/
structure Reporter (α : Type) where
  event : α → RecordedEvent
  terminal : α → Bool
  Sound : α → Prop

namespace Reporter

variable (R : Reporter α)

def track (a : α) (told : List RecordedEvent) : Track := ⟨R.event a, R.terminal a, told⟩

/-- A call keeps the attempt sound and moves its track. -/
structure Moves (c : Chance) (a : α) (after : After α) : Prop where
  sound : R.Sound after.attempt
  step : ∀ told, Track.Step c.eventId (R.track a told)
    (R.track after.attempt (told ++ after.sent))

/-- Dropping an attempt ends it, if it was not ended before. -/
def Ends (c : Chance) (a : α) (sent : List RecordedEvent) : Prop :=
  ∀ told, ∃ t, Track.Step c.eventId (R.track a told) t ∧ t.told = told ++ sent ∧
    t.pending = false

/-- The calls of a kind of attempt move its track. -/
structure Tracked (call : α → Chance → κ → After α)
    (drop : Chance → α → List RecordedEvent) : Prop where
  called : ∀ a c k, R.Sound a → R.Moves c a (call a c k)
  dropped : ∀ a c, R.Sound a → R.Ends c a (drop c a)

variable {R} {call : α → Chance → κ → After α} {drop : Chance → α → List RecordedEvent}
  {start : RecordedEvent} {a a' : α} {c : Chance} {answer : After α} {ok : Bool}

theorem track_of {pending : Bool} (h : R.terminal a = pending) (told : List RecordedEvent) :
    R.track a told = ⟨R.event a, pending, told⟩ := by
  rw [track, h]

theorem Moves.keep (hsound : R.Sound a') (hterminal : R.terminal a' = R.terminal a)
    (hkept : Kept (R.event a) (R.event a')) : R.Moves c a ⟨a', [], ok⟩ where
  sound := hsound
  step told := by
    rw [track, track, hterminal, List.append_nil]
    exact .keep (t := ⟨R.event a, R.terminal a, told⟩) hkept

/-- A change before a call belongs to it. -/
theorem Moves.before (h : R.Moves c a' answer) (hterminal : R.terminal a' = R.terminal a)
    (hkept : Kept (R.event a) (R.event a')) : R.Moves c a answer where
  sound := h.sound
  step told := by
    rw [track, ← hterminal]
    exact (h.step told).before hkept

/-- A change after a call belongs to it. -/
theorem Moves.after (h : R.Moves c a answer) (hsound : R.Sound a')
    (hterminal : R.terminal a' = R.terminal answer.attempt)
    (hkept : Kept (R.event answer.attempt) (R.event a')) :
    R.Moves c a { answer with attempt := a' } where
  sound := hsound
  step told := by
    rw [track, track, hterminal]
    exact (h.step told).after hkept

/-- Counters that are told, or lost. -/
theorem Moves.update (hattempt : answer.attempt = a') (hsound : R.Sound a')
    (hopen : R.terminal a = true) (hheld : R.terminal a' = true)
    (hnext : Succeeds c.eventId .usageUpdated (R.event a) (R.event a'))
    (hsent : answer.sent = [] ∨ answer.sent = [R.event a']) : R.Moves c a answer where
  sound := hattempt ▸ hsound
  step told := by
    rw [hattempt, track_of hheld]
    exact .update (t := R.track a told) hopen hnext hsent (.refl _)

theorem Moves.finish (hattempt : answer.attempt = a') (hsound : R.Sound a')
    (hopen : R.terminal a = true) (hheld : R.terminal a' = false)
    (hnext : Succeeds c.eventId .attemptFinished (R.event a) (R.event a'))
    (hconclusive : Conclusive (R.event a')) (hsent : answer.sent = [R.event a']) :
    R.Moves c a answer where
  sound := hattempt ▸ hsound
  step told := by
    rw [hattempt, hsent, track_of hheld]
    exact .finish (t := R.track a told) hopen hnext hconclusive (.refl _)

theorem Ends.ended (h : R.terminal a = false) : R.Ends c a [] := fun told =>
  ⟨R.track a told, .keep (t := R.track a told) (.refl _), (List.append_nil _).symm, h⟩

theorem Ends.finish {e : RecordedEvent} (hopen : R.terminal a = true)
    (hnext : Succeeds c.eventId .attemptFinished (R.event a) e) (hconclusive : Conclusive e) :
    R.Ends c a [e] := fun told =>
  ⟨_, .finish (t := R.track a told) hopen hnext hconclusive (.refl _), rfl, rfl⟩

theorem Tracked.calls (T : R.Tracked call drop) (steps : List (κ × Chance)) (ha : R.Sound a)
    (told : List RecordedEvent) : R.Sound (calls call steps a).attempt ∧
      Track.Run (steps.map (·.2.eventId)) (R.track a told)
        (R.track (Usage.calls call steps a).attempt (told ++ (Usage.calls call steps a).sent)) := by
  induction steps generalizing a told with
  | nil =>
      refine ⟨ha, ?_⟩
      rw [Usage.calls, List.append_nil]
      exact .nil
  | cons step steps ih =>
      obtain ⟨k, c⟩ := step
      have hfirst := T.called a c k ha
      obtain ⟨hsound, hrun⟩ := ih hfirst.sound (told ++ (call a c k).sent)
      refine ⟨hsound, ?_⟩
      rw [Usage.calls, ← List.append_assoc]
      exact .cons (hfirst.step told) hrun

/-- What reaches the channel in a lifetime. -/
theorem Tracked.lifetime (T : R.Tracked call drop) {opened : After α} {name : String}
    {steps : List (κ × Chance)} (closing : Chance) (hsound : R.Sound opened.attempt)
    (horderly : (R.track opened.attempt opened.sent).Orderly start [name])
    (hfits : steps.length + 1 < 2 ^ 64) :
    Told start (name :: (steps.map (·.2.eventId) ++ [closing.eventId]))
      (lifetime call drop opened steps closing) := by
  rw [Usage.lifetime]
  split
  · obtain ⟨hsound', hrun⟩ := T.calls steps hsound opened.sent
    obtain ⟨t, hlast, htold, hended⟩ := T.dropped (Usage.calls call steps opened.attempt).attempt
      closing hsound' (opened.sent ++ (Usage.calls call steps opened.attempt).sent)
    have hall := horderly.run (hrun.append (.cons hlast .nil)) (by
      simp only [List.length_append, List.length_map, List.length_singleton]
      omega)
    have h := hall.told hended
    rwa [htold] at h
  · obtain ⟨t, hlast, htold, hended⟩ := T.dropped opened.attempt closing hsound opened.sent
    have h := (horderly.step (by simp) hlast).told hended
    rw [htold] at h
    refine h.mono ?_
    rw [List.singleton_append]
    exact (List.sublist_append_right _ _).cons_cons _

end Reporter

end Tracking

section Sending

variable {s : Sender} {c : Chance} {event : RecordedEvent} {u : CanonicalUsage}
  {incomplete : Bool} {upstream : Outcome}

theorem send_update (s : Sender) (c : Chance) (event : RecordedEvent) :
    (s.send c event false).attempt = s ∧
      ((s.send c event false).sent = [] ∨ (s.send c event false).sent = [event]) := by
  rw [Sender.send, if_neg Bool.false_ne_true]
  split
  · exact ⟨rfl, .inr rfl⟩
  · exact ⟨rfl, .inl rfl⟩
variable (event) in

theorem send_terminal (h : s.terminal = true) :
    (s.send c event true).attempt = { s with terminal := false } ∧
      (s.send c event true).sent = [event] := by
  rw [Sender.send, if_pos rfl, if_pos h]
  exact ⟨rfl, rfl⟩

theorem closing_final (h : u.closing incomplete upstream = .final) :
    incomplete = false ∧ u.violations = [] ∧ (upstream = .completed ∨ upstream = .incomplete) := by
  rw [CanonicalUsage.closing] at h
  split at h
  · cases h
  · split at h
    · next hall =>
        simp only [Bool.and_eq_true, Bool.not_eq_true', Outcome.delivered, Bool.or_eq_true,
          decide_eq_true_eq, List.isEmpty_iff] at hall
        exact ⟨hall.1.1, hall.2, hall.1.2⟩
    · cases h

theorem progress_ne_final : u.progress ≠ .final := by
  rw [CanonicalUsage.progress]
  split <;> decide

theorem le_stamp (started now : UInt64) : started ≤ max now started := by
  rw [UInt64.le_iff_toNat_le, UInt64.toNat_max]
  exact Nat.le_max_right _ _

end Sending

section Accumulators

variable {a : Accumulator}

theorem take_incomplete (profile : Profile) {m : Merge} (entry : String × Counter)
    (h : m.incomplete = true) : (m.take profile entry).incomplete = true := by
  obtain ⟨path, counter⟩ := entry
  rw [Merge.take]
  split
  · rfl
  · split <;> exact h

theorem observeCounters_incomplete (counters : Counters) (h : a.incomplete = true) :
    (a.observeCounters counters).2.incomplete = true := by
  have hfold : ∀ (entries : List (String × Counter)) (m : Merge), m.incomplete = true →
      (entries.foldl (Merge.take a.profile) m).incomplete = true := by
    intro entries
    induction entries with
    | nil => exact fun m hm => hm
    | cons entry entries ih => exact fun m hm => ih _ (take_incomplete a.profile entry hm)
  simp only [Accumulator.observeCounters, hfold counters.entries ⟨a.reported, a.incomplete, false⟩ h,
    Bool.true_or]

theorem observe_incomplete (value : Json) (h : a.incomplete = true) :
    (a.observe value).2.incomplete = true :=
  observeCounters_incomplete (a := { a with incomplete := a.incomplete || !value.isObject }) _ (by
    rw [h, Bool.true_or])

end Accumulators

section Builtin

namespace Attempt

/-- The place for the end is held until then, and what was not observed in full stays so. -/
structure Sound (a : Attempt) : Prop where
  terminal : a.terminal = !a.finished
  incomplete : a.event.observationIncomplete = true → a.accumulator.incomplete = true

def reporter : Reporter Attempt := ⟨fun a => .v1 a.event, fun a => a.terminal, Sound⟩

variable {a : Attempt} {c : Chance}

theorem deliver_update (a : Attempt) (c : Chance) : (a.deliver false c).attempt = a.stamp c ∧
    ((a.deliver false c).sent = [] ∨
      (a.deliver false c).sent = [.v1 (a.stamp c).event]) := by
  obtain ⟨hsender, hsent⟩ := send_update a.toSender c (.v1 (a.stamp c).event)
  refine ⟨?_, hsent⟩
  rw [deliver]
  dsimp only
  rw [show (a.stamp c).toSender = a.toSender from rfl, hsender]
  rfl

theorem deliver_terminal (h : a.terminal = true) :
    (a.deliver true c).attempt = { a.stamp c with terminal := false } ∧
      (a.deliver true c).sent = [.v1 (a.stamp c).event] := by
  obtain ⟨hsender, hsent⟩ := send_terminal (c := c) (.v1 (a.stamp c).event) h
  refine ⟨?_, hsent⟩
  rw [deliver]
  dsimp only
  rw [show (a.stamp c).toSender = a.toSender from rfl, hsender]

theorem Sound.stamp (h : a.Sound) : (a.stamp c).Sound where
  terminal := h.terminal
  incomplete hincomplete := by
    rcases Bool.or_eq_true_iff.1 hincomplete with hold | hnew
    · exact h.incomplete hold
    · exact hnew

theorem Sound.held (h : a.Sound) (hopen : a.finished = false) : a.terminal = true := by
  rw [h.terminal, hopen]
  rfl

theorem moves_update (h : a.Sound) (hopen : a.finished = false) : reporter.Moves c a (a.update c) := by
  have hsound : ((a.next .usageUpdated c).grade a.accumulator.usage.progress).Sound :=
    ⟨h.terminal, h.incomplete⟩
  obtain ⟨hattempt, hsent⟩ :=
    deliver_update ((a.next .usageUpdated c).grade a.accumulator.usage.progress) c
  exact .update hattempt hsound.stamp (h.held hopen) (h.held hopen)
    ⟨rfl, rfl, rfl, rfl, le_stamp _ _⟩ hsent

/-- The counters were read, and are told if they changed. -/
theorem moves_read (h : a.Sound) (hopen : a.finished = false) {accumulator : Accumulator}
    {changed : Bool} (hread : a.accumulator.incomplete = true → accumulator.incomplete = true) :
    reporter.Moves c a (if changed then ({ a with accumulator } : Attempt).update c
      else ⟨{ a with accumulator }, [], true⟩) := by
  have hsound : ({ a with accumulator } : Attempt).Sound :=
    ⟨h.terminal, fun hincomplete => hread (h.incomplete hincomplete)⟩
  split
  · exact (moves_update hsound hopen).before rfl (.refl _)
  · exact .keep hsound rfl (.refl _)

theorem moves_observe (h : a.Sound) (value : Json) : reporter.Moves c a (a.observe value c) := by
  rw [observe]
  split
  · exact .keep h rfl (.refl _)
  · next hopen => exact moves_read h (Bool.not_eq_true _ ▸ hopen) (observe_incomplete value)

theorem moves_observeManaged (h : a.Sound) (snapshot : Accounting) :
    reporter.Moves c a (a.observeManaged snapshot c) := by
  have hsound : (a.identify snapshot).Sound := ⟨h.terminal, h.incomplete⟩
  have hkept : Kept (.v1 a.event) (.v1 (a.identify snapshot).event) := ⟨rfl, rfl⟩
  have hmoves : reporter.Moves c (a.identify snapshot) (a.observeManaged snapshot c) := by
    rw [observeManaged]
    dsimp only
    split
    · exact .keep hsound rfl (.refl _)
    · next hopen =>
        exact moves_read hsound (Bool.not_eq_true _ ▸ hopen) (observeCounters_incomplete _)
  exact hmoves.before rfl hkept

theorem moves_observeUsage (h : a.Sound) (source : Json) :
    reporter.Moves c a (a.observeUsage source c) := by
  rw [observeUsage]
  split
  · exact moves_observe h _
  · exact .keep h rfl (.refl _)

theorem moves_observePayload (h : a.Sound) (value : Json) :
    reporter.Moves c a (a.observePayload value c) := by
  have hsound : (a.payloadMetadata value).Sound := ⟨h.terminal, h.incomplete⟩
  have hread := moves_observeUsage (c := c) hsound (sourceOf value)
  have hmoves : reporter.Moves c (a.payloadMetadata value) (a.observePayload value c) := by
    rw [observePayload]
    dsimp only
    split
    · exact hread.after ⟨hread.sound.terminal, hread.sound.incomplete⟩ rfl ⟨rfl, rfl⟩
    · exact hread
  exact hmoves.before rfl ⟨rfl, rfl⟩

/-- The event that ends an attempt is conclusive. -/
theorem conclusive_stamp
    (hincomplete : a.event.observationIncomplete = true → a.accumulator.incomplete = true)
    (hfinality : a.event.finality =
      a.accumulator.usage.closing a.accumulator.incomplete a.event.upstream) :
    Conclusive (.v1 (a.stamp c).event) := by
  intro hfinal
  obtain ⟨hcomplete, hviolations, hupstream⟩ := closing_final (hfinality.symm.trans hfinal)
  refine ⟨Bool.or_eq_false_iff.2 ⟨?_, hcomplete⟩, hviolations, hupstream⟩
  cases hevent : a.event.observationIncomplete with
  | false => rfl
  | true => exact absurd (hincomplete hevent) (by simp [hcomplete])

theorem moves_finish (h : a.Sound) (gateway : Outcome) : reporter.Moves c a (a.finish gateway c) := by
  rw [finish]
  split
  · exact .keep h rfl (.refl _)
  · next hopen =>
      have hheld : a.terminal = true := h.held (Bool.not_eq_true _ ▸ hopen)
      have hconclusive := conclusive_stamp (c := c) (a := (a.close gateway c).grade
        (a.accumulator.usage.closing a.accumulator.incomplete a.event.upstream)) h.incomplete rfl
      obtain ⟨hattempt, hsent⟩ := deliver_terminal (c := c) (a := (a.close gateway c).grade
        (a.accumulator.usage.closing a.accumulator.incomplete a.event.upstream)) hheld
      refine .finish hattempt ⟨rfl, fun hincomplete => ?_⟩ hheld rfl ?_ hconclusive hsent
      · exact (Bool.or_eq_true_iff.1 hincomplete).elim h.incomplete id
      · exact ⟨rfl, rfl, rfl, rfl, le_stamp _ _⟩

theorem moves_call (h : a.Sound) (k : Call) : reporter.Moves c a (a.call c k) := by
  cases k with
  | observe value => exact moves_observe h value
  | observeManaged snapshot => exact moves_observeManaged h snapshot
  | observePayload value => exact moves_observePayload h value
  | incomplete => exact .keep ⟨h.terminal, fun _ => rfl⟩ rfl ⟨rfl, rfl⟩
  | amend upstream gateway providerRequestId =>
      exact .keep ⟨h.terminal, h.incomplete⟩ rfl ⟨rfl, rfl⟩
  | finish gateway => exact moves_finish h gateway

theorem ends_drop (h : a.Sound) : reporter.Ends c a (a.drop c) := by
  rw [drop]
  split
  · next hfinished =>
      refine .ended ?_
      show a.terminal = false
      rw [h.terminal, hfinished]
      rfl
  · next hopen =>
      have hheld : a.terminal = true := h.held (Bool.not_eq_true _ ▸ hopen)
      dsimp only
      rw [Sender.abandon, if_pos (show (((a.next .attemptFinished c).stamp c).grade
        a.accumulator.usage.progress).terminal = true from hheld)]
      exact .finish hheld ⟨rfl, rfl, rfl, rfl, le_stamp _ _⟩
        fun hfinal => absurd hfinal progress_ne_final

theorem tracked : reporter.Tracked call fun c a => drop c a :=
  ⟨fun _ _ k h => moves_call h k, fun _ _ h => ends_drop h⟩

end Attempt

end Builtin

section Provider

namespace ProviderAttempt

def Sound (a : ProviderAttempt) : Prop := a.terminal = !a.finished

def reporter : Reporter ProviderAttempt := ⟨fun a => .v2 a.event, fun a => a.terminal, Sound⟩

variable {a : ProviderAttempt} {c : Chance}

theorem deliver_update (a : ProviderAttempt) (c : Chance) :
    (a.deliver false c).attempt = a.stamp c ∧
      ((a.deliver false c).sent = [] ∨
        (a.deliver false c).sent = [.v2 (a.stamp c).event]) := by
  obtain ⟨hsender, hsent⟩ := send_update a.toSender c (.v2 (a.stamp c).event)
  refine ⟨?_, hsent⟩
  rw [deliver]
  dsimp only
  rw [show (a.stamp c).toSender = a.toSender from rfl, hsender]
  rfl

theorem deliver_terminal (h : a.terminal = true) :
    (a.deliver true c).attempt = { a.stamp c with terminal := false } ∧
      (a.deliver true c).sent = [.v2 (a.stamp c).event] := by
  obtain ⟨hsender, hsent⟩ := send_terminal (c := c) (.v2 (a.stamp c).event) h
  refine ⟨?_, hsent⟩
  rw [deliver]
  dsimp only
  rw [show (a.stamp c).toSender = a.toSender from rfl, hsender]

theorem Sound.held (h : a.Sound) (hopen : a.finished = false) : a.terminal = true := by
  rw [h, hopen]
  rfl

theorem moves_observe (h : a.Sound) (observation : ProviderObservation) :
    reporter.Moves c a (a.observe observation c) := by
  rw [observe]
  split
  · exact .keep h rfl (.refl _)
  · split
    · exact .keep h rfl (.refl _)
    · next hopen =>
        have hheld := h.held (Bool.not_eq_true _ ▸ hopen)
        split
        · obtain ⟨hattempt, hsent⟩ :=
            deliver_update ((a.replace observation.usage).next .usageUpdated c) c
          exact .update hattempt h hheld hheld ⟨rfl, rfl, rfl, rfl, le_stamp _ _⟩ hsent
        · exact .keep h rfl (.refl _)

theorem moves_finish (h : a.Sound) (gateway : Outcome) :
    reporter.Moves c a (a.finish gateway c) := by
  rw [finish]
  split
  · exact .keep h rfl (.refl _)
  · next hopen =>
      have hheld := h.held (Bool.not_eq_true _ ▸ hopen)
      obtain ⟨hattempt, hsent⟩ := deliver_terminal (c := c) (a := (a.close gateway c).grade
        (a.event.usage.closing a.event.observationIncomplete a.event.upstream)) hheld
      exact .finish hattempt rfl hheld rfl ⟨rfl, rfl, rfl, rfl, le_stamp _ _⟩ closing_final hsent

theorem moves_call (h : a.Sound) (k : Call) : reporter.Moves c a (a.call c k) := by
  cases k with
  | observe observation => exact moves_observe h observation
  | amend upstream gateway providerRequestId => exact .keep h rfl ⟨rfl, rfl⟩
  | finish gateway => exact moves_finish h gateway

theorem ends_drop (h : a.Sound) : reporter.Ends c a (a.drop c) := by
  rw [drop]
  split
  · next hfinished =>
      refine .ended ?_
      show a.terminal = false
      rw [h, hfinished]
      rfl
  · next hopen =>
      have hheld := h.held (Bool.not_eq_true _ ▸ hopen)
      dsimp only
      rw [Sender.abandon, if_pos (show (((a.next .attemptFinished c).stamp c).grade
        a.event.usage.progress).terminal = true from hheld)]
      exact .finish hheld ⟨rfl, rfl, rfl, rfl, le_stamp _ _⟩
        fun hfinal => absurd hfinal progress_ne_final

theorem tracked : reporter.Tracked call fun c a => drop c a :=
  ⟨fun _ _ k h => moves_call h k, fun _ _ h => ends_drop h⟩

end ProviderAttempt

end Provider

section Lifetimes

/-- A start as the proxies give it. -/
structure Initial (start : RecordedEvent) : Prop where
  revision : start.view.revision = 0
  kind : start.view.kind = .attemptStarted
  complete : start.view.observationIncomplete = false

/-- The events that could be named in a lifetime. -/
def namesOf {κ : Type} (first : String) (steps : List (κ × Chance)) (closing : Chance) :
    List String :=
  first :: (steps.map (·.2.eventId) ++ [closing.eventId])

/-- What an attempt told the channel, whichever kind it is, with the start that it was given
and the names that its events could take. -/
inductive Reported : RecordedEvent → List String → List RecordedEvent → Prop where
  | builtin {sink : UsageSink} {event : UsageEventV1} {reserved : Bool} {c closing : Chance}
      {steps : List (Attempt.Call × Chance)} {told : List RecordedEvent}
      (channel : Attempt.channel (some sink) event reserved c steps closing = some told) :
      Reported (.v1 { event with producerId := sink.producer })
        (namesOf event.eventId steps closing) told
  | provider {sink : UsageSink} {event : UsageEventV2} {reserved : Bool} {c closing : Chance}
      {steps : List (ProviderAttempt.Call × Chance)} {told : List RecordedEvent}
      (channel : ProviderAttempt.channel (some sink) event reserved c steps closing = some told) :
      Reported (.v2 { event with producerId := sink.producer })
        (namesOf event.eventId steps closing) told

variable {start e : RecordedEvent} {names : List String} {told : List RecordedEvent}

theorem reserve_some {sink : UsageSink} {reserved : Bool} {sender : Sender}
    (h : sink.reserve reserved = .ok (some sender)) : sender = ⟨sink, true, false⟩ := by
  rw [UsageSink.reserve] at h
  split at h
  · cases h
    rfl
  · split at h <;> cases h

theorem Attempt.start_some {sink : UsageSink} {event : UsageEventV1} {reserved : Bool}
    {c : Chance} {opened : After Attempt}
    (h : Attempt.start (some sink) event reserved c = .ok (some opened)) :
    opened = Attempt.deliver false c
      ⟨⟨sink, true, false⟩, { event with producerId := sink.producer }, .new event.profile⟩ := by
  rw [Attempt.start] at h
  split at h
  · cases h
  · obtain ⟨sender, hreserve, hopened⟩ := bind_ok.1 h
    rw [pure_ok, Option.map_eq_some_iff] at hopened
    obtain ⟨s, rfl, rfl⟩ := hopened
    rw [reserve_some hreserve]

theorem ProviderAttempt.start_some {sink : UsageSink} {event : UsageEventV2} {reserved : Bool}
    {c : Chance} {opened : After ProviderAttempt}
    (h : ProviderAttempt.start (some sink) event reserved c = .ok (some opened)) :
    opened = ProviderAttempt.deliver false c
      ⟨⟨sink, true, false⟩, { event with producerId := sink.producer }⟩ := by
  rw [ProviderAttempt.start] at h
  split at h
  · cases h
  · split at h
    · cases h
    · obtain ⟨sender, hreserve, hopened⟩ := bind_ok.1 h
      rw [pure_ok, Option.map_eq_some_iff] at hopened
      obtain ⟨s, rfl, rfl⟩ := hopened
      rw [reserve_some hreserve]

theorem length_namesOf {κ : Type} {first : String} {steps : List (κ × Chance)}
    {closing : Chance} (h : (namesOf first steps closing).length ≤ 2 ^ 64) :
    steps.length + 1 < 2 ^ 64 := by
  simp only [namesOf, List.length_cons, List.length_append, List.length_map, List.length_nil] at h
  omega

/-- The start of an attempt is told first, if it is. -/
theorem opening_stamped {e : RecordedEvent} {sent : List RecordedEvent} (hstart : Initial start)
    (hidentity : e.identity = start.identity) (hrevision : e.view.revision = start.view.revision)
    (hkind : e.view.kind = start.view.kind) (hname : e.view.eventId = start.view.eventId)
    (htimes : e.view.startedAtMs ≤ e.view.observedAtMs) (hsent : sent = [] ∨ sent = [e]) :
    Track.Orderly start [start.view.eventId] ⟨e, true, sent⟩ := by
  have h := Track.Orderly.opening (hrevision.trans hstart.revision) (hkind.trans hstart.kind)
    htimes hsent
  rw [hname] at h
  exact { h with
    identity := hidentity
    identities := fun e' he' => (h.identities e' he').trans hidentity }

/-- What an attempt tells is in order. -/
theorem Reported.orderly (h : Reported start names told) (hstart : Initial start)
    (hfits : names.length ≤ 2 ^ 64) : Told start names told := by
  cases h with
  | @builtin sink event reserved c closing steps told channel =>
      rw [Attempt.channel] at channel
      split at channel
      · next opened hopened =>
          cases channel
          obtain rfl := Attempt.start_some hopened
          obtain ⟨hattempt, hsent⟩ := Attempt.deliver_update (⟨⟨sink, true, false⟩,
            { event with producerId := sink.producer }, .new event.profile⟩ : Attempt) c
          refine Attempt.tracked.lifetime closing ?_ ?_ (length_namesOf hfits)
          · rw [hattempt]
            refine Attempt.Sound.stamp ⟨rfl, fun hincomplete => ?_⟩
            exact absurd hincomplete (Bool.not_eq_true _ ▸ hstart.complete)
          · rw [hattempt]
            exact opening_stamped hstart rfl rfl rfl rfl (le_stamp _ _) hsent
      · cases channel
  | @provider sink event reserved c closing steps told channel =>
      rw [ProviderAttempt.channel] at channel
      split at channel
      · next opened hopened =>
          cases channel
          obtain rfl := ProviderAttempt.start_some hopened
          obtain ⟨hattempt, hsent⟩ := ProviderAttempt.deliver_update (⟨⟨sink, true, false⟩,
            { event with producerId := sink.producer }⟩ : ProviderAttempt) c
          refine ProviderAttempt.tracked.lifetime closing ?_ ?_ (length_namesOf hfits)
          · rw [hattempt]
            rfl
          · rw [hattempt]
            exact opening_stamped hstart rfl rfl rfl rfl (le_stamp _ _) hsent
      · cases channel

end Lifetimes

end ResponseGateway.Usage
