import ResponseGateway.Recorder.Ledger
import ResponseGateway.Usage.AttemptRuns

/-!
The recorder at the end of the channel. What an attempt tells is recorded between the events
of other attempts; an event that cannot be recorded is passed over. None of the attempt's own
events is in conflict with what the store holds.
-/

namespace ResponseGateway.Recorder
open Checked Usage

section Feeding

/-- What the store answers to events one after the other, also after one that fails. -/
def feed (digest : Text → String) (config : RecorderConfig) :
    List RecordedEvent → Store → List (RecordedEvent × Except Failure ReceiptStatus)
  | [], _ => []
  | e :: rest, s =>
      match s.record digest config e with
      | .ok (status, s') => (e, .ok status) :: feed digest config rest s'
      | .error failure => (e, .error failure) :: feed digest config rest s

/-- The keys of everything that was recorded. -/
def Store.keys (s : Store) : List Keys := s.events.map (·.keys) ++ s.tombstones.map (·.keys)

/-- The store knows nothing of an attempt, and none of the names that its events may take. -/
structure Unknown (s : Store) (start : RecordedEvent) (names : List String) : Prop where
  attempts : ∀ a ∈ s.attempts, a.attempt ≠ attemptOf start
  places : ∀ keys ∈ s.keys, keys.place.1 ≠ attemptOf start
  names : ∀ keys ∈ s.keys, ∀ name ∈ names, keys.event ≠ (start.view.producerId, name)

/-- Events of one attempt among those of others, whose names are not its own. -/
structure Among (start : RecordedEvent) (names : List String) (told l : List RecordedEvent) :
    Prop where
  own : l.filter (attemptOf · = attemptOf start) = told
  others : ∀ e ∈ l, attemptOf e ≠ attemptOf start → ∀ name ∈ names,
    nameOf e ≠ (start.view.producerId, name)

/-- A store that recorded some of the events that an attempt told so far. -/
structure Follows (digest : Text → String) (start : RecordedEvent) (names : List String)
    (before : List RecordedEvent) (s : Store) : Prop where
  sound : Sound digest s
  live : ∀ row ∈ s.events, row.attempt = attemptOf start → ∃ e ∈ before, rowOf digest e = .ok row
  gone : ∀ t ∈ s.tombstones, t.attempt ≠ attemptOf start
  attempts : ∀ a ∈ s.attempts, a.attempt = attemptOf start → a.identity = start.identityBytes
  names : ∀ keys ∈ s.keys, ∀ name ∈ names, keys.event = (start.view.producerId, name) →
    ∃ e ∈ before, nameOf e = keys.event

variable {digest : Text → String} {config : RecorderConfig} {start e e' : RecordedEvent}
  {names : List String} {before told l : List RecordedEvent} {s : Store} {row : EventRow}

theorem identityBytes_eq (h : e.identity = e'.identity) : e.identityBytes = e'.identityBytes := by
  rw [RecordedEvent.identity, RecordedEvent.identity, Identity.mk.injEq] at h
  obtain ⟨hreader, -, -, hrequest, -, hstarted, hprovider, halias, hmodel, hconfiguration⟩ := h
  cases e with
  | v1 e =>
      cases e' with
      | v1 e' =>
          simp only [RecordedEvent.view] at hrequest hstarted hprovider halias hmodel hconfiguration
          simp only [RecordedEvent.identityBytes, hrequest, hstarted, hprovider, halias, hmodel,
            hconfiguration, Sum.inl.inj hreader]
      | v2 e' => cases hreader
  | v2 e =>
      cases e' with
      | v1 e' => cases hreader
      | v2 e' =>
          simp only [RecordedEvent.view] at hrequest hstarted hprovider halias hmodel hconfiguration
          simp only [RecordedEvent.identityBytes, hrequest, hstarted, hprovider, halias, hmodel,
            hconfiguration, Sum.inr.inj hreader]

theorem attemptOf_eq (h : e.identity = e'.identity) : attemptOf e = attemptOf e' :=
  Prod.ext (congrArg Identity.producerId h) (congrArg Identity.attemptId h)

theorem Unknown.follows (h : Unknown s start names) (hs : Sound digest s) :
    Follows digest start names [] s where
  sound := hs
  live row hrow hattempt :=
    absurd hattempt (h.places row.keys (List.mem_append_left _ (List.mem_map_of_mem hrow)))
  gone t ht := h.places t.keys (List.mem_append_right _ (List.mem_map_of_mem ht))
  attempts a ha hattempt := absurd hattempt (h.attempts a ha)
  names keys hkeys name hname heq := absurd heq (h.names keys hkeys name hname)

theorem Follows.mono {before' : List RecordedEvent} (h : Follows digest start names before s)
    (hsub : ∀ e ∈ before, e ∈ before') : Follows digest start names before' s :=
  { h with
    live := fun row hrow hattempt => (h.live row hrow hattempt).imp fun e he => ⟨hsub e he.1, he.2⟩
    names := fun keys hkeys name hname heq =>
      (h.names keys hkeys name hname heq).imp fun e he => ⟨hsub e he.1, he.2⟩ }

theorem keys_commit {identity : Text} {keys : Keys}
    (h : keys ∈ (s.commit row config identity).keys) : keys ∈ s.keys ∨ keys = row.keys := by
  rw [Store.keys, Store.commit, List.map_append, List.mem_append, List.mem_append,
    List.map_singleton, List.mem_singleton] at h
  rw [Store.keys, List.mem_append]
  tauto

/-- An event that is recorded, of the attempt or of another one. -/
theorem Follows.commit {before' : List RecordedEvent}
    (h : Follows digest start names before s) (hsub : ∀ e ∈ before, e ∈ before')
    (hversion : e.isV2 = true → s.version = 2) (hrow : rowOf digest e = .ok row)
    (hprior : s.prior row = none) (hadmitted : Admitted s row e.identityBytes)
    (hown : attemptOf e = attemptOf start →
      e.identityBytes = start.identityBytes ∧ e ∈ before')
    (hother : attemptOf e ≠ attemptOf start → ∀ name ∈ names,
      nameOf e ≠ (start.view.producerId, name)) :
    Follows digest start names before' (s.commit row config e.identityBytes) := by
  have hrowOf := rowOf_ok hrow
  obtain ⟨-, hattempts⟩ :=
    insertAttempt_attempts s row e.identityBytes hadmitted.identified h.sound.attempts
  have hmono := h.mono hsub
  refine ⟨h.sound.commit hversion hrow hprior hadmitted, ?_, h.gone, ?_, ?_⟩
  · intro r hr hattempt
    rcases List.mem_append.1 hr with hr | hr
    · exact hmono.live r hr hattempt
    · rw [List.mem_singleton.1 hr] at hattempt ⊢
      exact ⟨e, (hown (hrowOf.attempt.symm.trans hattempt)).2, hrow⟩
  · intro a ha hattempt
    rcases (hattempts a).1 ha with hold | rfl
    · exact h.attempts a hold hattempt
    · exact (hown (hrowOf.attempt.symm.trans hattempt)).1
  · intro keys hkeys name hname heq
    rcases keys_commit hkeys with hold | rfl
    · exact hmono.names keys hold name hname heq
    · by_cases hattempt : attemptOf e = attemptOf start
      · exact ⟨e, (hown hattempt).2, hrowOf.named.symm⟩
      · exact absurd (hrowOf.named.symm.trans heq) (hother hattempt name hname)

/-- An event of another attempt. -/
theorem Follows.other {status : ReceiptStatus} {s' : Store}
    (h : Follows digest start names before s) (hattempt : attemptOf e ≠ attemptOf start)
    (hnames : ∀ name ∈ names, nameOf e ≠ (start.view.producerId, name))
    (hrecord : s.record digest config e = .ok (status, s')) :
    Follows digest start names before s' := by
  obtain ⟨row, hrow, hversion, heq⟩ := h.sound.record_ok hrecord
  rcases decided_cases s row config e.identityBytes with hsame | ⟨hprior, hadmitted, hcommit⟩
  · rw [← heq] at hsame
    rwa [show s' = s from hsame]
  · rw [hcommit, Prod.mk.injEq] at heq
    rw [heq.2]
    exact h.commit (fun _ => id) hversion hrow hprior hadmitted
      (fun hown => absurd hown hattempt) fun _ => hnames

/-- Nothing ends before the last event that an attempt tells. -/
theorem unfinished_before {after : List RecordedEvent}
    (htold : Told start names (before ++ e :: after)) :
    ∀ e' ∈ before, e'.view.kind ≠ .attemptFinished := by
  obtain ⟨updates, last, heq, -, hunfinished, -⟩ := htold.ended
  have hinit : before <+: updates := by
    refine List.prefix_of_prefix_length_le (List.prefix_append before (e :: after)) ?_ ?_
    · rw [heq]
      exact List.prefix_append _ _
    · have hlength := congrArg List.length heq
      simp only [List.length_append, List.length_cons, List.length_nil] at hlength
      omega
  exact fun e' he' => hunfinished e' (hinit.subset he')

/-- The next event that the attempt told is new to the store, and nothing refuses it. -/
theorem Follows.admits {after : List RecordedEvent} (h : Follows digest start names before s)
    (htold : Told start names (before ++ e :: after)) (hnames : names.Nodup)
    (hrow : rowOf digest e = .ok row) :
    s.prior row = none ∧ Admitted s row e.identityBytes := by
  have hrowOf := rowOf_ok hrow
  have hmem : e ∈ before ++ e :: after := List.mem_append_right _ List.mem_cons_self
  have hidentity := htold.identities e hmem
  have hattempt : row.attempt = attemptOf start := hrowOf.attempt.trans (attemptOf_eq hidentity)
  obtain ⟨-, -, hlater⟩ := List.pairwise_append.1 htold.increasing
  have hearlier : ∀ r ∈ s.events, r.attempt = row.attempt → ∃ e' ∈ before,
      rowOf digest e' = .ok r ∧ r.revision < row.revision := by
    intro r hr hsame
    obtain ⟨e', he', hrow'⟩ := h.live r hr (hsame.trans hattempt)
    refine ⟨e', he', hrow', ?_⟩
    rw [(rowOf_ok hrow').revision, hrowOf.revision]
    exact UInt64.lt_iff_toNat_lt.1 (hlater e' he' e List.mem_cons_self)
  have hname : row.event = (start.view.producerId, e.view.eventId) :=
    hrowOf.named.trans (Prod.ext (congrArg Identity.producerId hidentity) rfl)
  have hgiven : e.view.eventId ∈ names := htold.names.subset (List.mem_map_of_mem hmem)
  have hnew : ∀ e' ∈ before, nameOf e' ≠ row.event := by
    intro e' he' heq
    have hnodup := htold.names.nodup hnames
    rw [List.map_append, List.nodup_append] at hnodup
    refine hnodup.2.2 _ (List.mem_map_of_mem he') _ (List.mem_map_of_mem List.mem_cons_self) ?_
    exact congrArg Prod.snd (heq.trans hname)
  have hunnamed : ∀ keys ∈ s.keys, keys.event ≠ row.event := by
    intro keys hkeys heq
    obtain ⟨e', he', heq'⟩ := h.names keys hkeys _ hgiven (heq.trans hname)
    exact hnew e' he' (heq'.trans heq)
  refine ⟨prior_eq_none.2 ⟨fun r hr => ?_, fun t ht => ?_⟩, ⟨?_, ?_, ?_, ?_⟩⟩
  · cases hclash : r.keys.clash row.keys with
    | false => rfl
    | true =>
        rcases clash_iff.1 hclash with hevent | hplace
        · exact absurd hevent
            (hunnamed r.keys (List.mem_append_left _ (List.mem_map_of_mem hr)))
        · rw [EventRow.keys, EventRow.keys, Prod.mk.injEq] at hplace
          obtain ⟨-, -, -, hlt⟩ := hearlier r hr hplace.1
          exact absurd hplace.2 (Nat.ne_of_lt hlt)
  · cases hclash : t.keys.clash row.keys with
    | false => rfl
    | true =>
        rcases clash_iff.1 hclash with hevent | hplace
        · exact absurd hevent
            (hunnamed t.keys (List.mem_append_right _ (List.mem_map_of_mem ht)))
        · exact absurd ((congrArg Prod.fst hplace).trans hattempt) (h.gone t ht)
  · exact fun t ht hsame => absurd (hsame.trans hattempt) (h.gone t ht)
  · intro a ha
    have hsame := List.find?_some ha
    rw [decide_eq_true_eq] at hsame
    rw [h.attempts a (List.mem_of_find?_eq_some ha) (hsame.trans hattempt)]
    exact (identityBytes_eq hidentity).symm
  · intro _ r hr hsame
    obtain ⟨-, -, -, hlt⟩ := hearlier r hr hsame
    exact Nat.le_of_lt hlt
  · intro r hr hsame hkind
    obtain ⟨e', he', hrow', -⟩ := hearlier r hr hsame
    exact absurd ((rowOf_ok hrow').kind.symm.trans hkind) (unfinished_before htold e' he')

/-- The next event of the attempt is recorded, unless it cannot be. -/
theorem Follows.own {after : List RecordedEvent} {status : ReceiptStatus} {s' : Store}
    (h : Follows digest start names before s) (htold : Told start names (before ++ e :: after))
    (hnames : names.Nodup) (hrecord : s.record digest config e = .ok (status, s')) :
    status = .committed ∧ Follows digest start names (before ++ [e]) s' := by
  obtain ⟨row, hrow, hversion, heq⟩ := h.sound.record_ok hrecord
  obtain ⟨hprior, hadmitted⟩ := h.admits htold hnames hrow
  have hidentity := htold.identities e (List.mem_append_right _ List.mem_cons_self)
  have hdecided : s.decided row config e.identityBytes =
      (.committed, s.commit row config e.identityBytes) := by
    simp only [Store.decided, hprior, refuses_eq_false.2 hadmitted, Bool.false_eq_true, if_false]
  rw [hdecided, Prod.mk.injEq] at heq
  obtain ⟨rfl, rfl⟩ := heq
  refine ⟨rfl, h.commit (fun _ => List.mem_append_left _) hversion hrow hprior hadmitted
    (fun _ => ?_) fun hother => absurd (attemptOf_eq hidentity) hother⟩
  exact ⟨identityBytes_eq hidentity, List.mem_append_right _ (List.mem_singleton_self e)⟩

/-- None of the events that an attempt told is in conflict with the store. -/
theorem Follows.feed (h : Follows digest start names before s)
    (htold : Told start names (before ++ l.filter (attemptOf · = attemptOf start)))
    (hnames : names.Nodup)
    (hothers : ∀ e ∈ l, attemptOf e ≠ attemptOf start → ∀ name ∈ names,
      nameOf e ≠ (start.view.producerId, name)) :
    ∀ answer ∈ feed digest config l s, attemptOf answer.1 = attemptOf start →
      answer.2 ≠ .ok .conflict := by
  induction l generalizing before s with
  | nil =>
      rw [Recorder.feed]
      exact List.forall_mem_nil _
  | cons e rest ih =>
      obtain ⟨hfirst, hrest⟩ := List.forall_mem_cons.1 hothers
      rw [Recorder.feed]
      by_cases hattempt : attemptOf e = attemptOf start
      · rw [List.filter_cons_of_pos (by simpa using hattempt)] at htold
        have htold' : Told start names
            (before ++ [e] ++ rest.filter (attemptOf · = attemptOf start)) := by
          rwa [List.append_assoc, List.singleton_append]
        cases hrecord : s.record digest config e with
        | error failure =>
            refine List.forall_mem_cons.2 ⟨fun _ => by simp, ?_⟩
            exact ih (h.mono fun _ => List.mem_append_left _) htold' hrest
        | ok answer =>
            obtain ⟨status, s'⟩ := answer
            obtain ⟨rfl, hfollows⟩ := h.own htold hnames hrecord
            exact List.forall_mem_cons.2 ⟨fun _ => by simp, ih hfollows htold' hrest⟩
      · rw [List.filter_cons_of_neg (by simpa using hattempt)] at htold
        cases hrecord : s.record digest config e with
        | error failure =>
            exact List.forall_mem_cons.2 ⟨fun heq => absurd heq hattempt, ih h htold hrest⟩
        | ok answer =>
            obtain ⟨status, s'⟩ := answer
            exact List.forall_mem_cons.2 ⟨fun heq => absurd heq hattempt,
              ih (h.other hattempt (hfirst hattempt) hrecord) htold hrest⟩

end Feeding

section Streams

/-- What an attempt tells is in order as long as its revisions fit, and where the recorder
knows nothing of it yet, it is never in conflict with what is recorded. -/
theorem attempt_stream {start : RecordedEvent} {names : List String} {told : List RecordedEvent}
    (hreported : Reported start names told) (hstart : Initial start)
    (hfits : names.length ≤ 2 ^ 64) :
    ((∀ e ∈ told, e.identity = start.identity) ∧
      told.Pairwise (·.view.revision < ·.view.revision) ∧
      (∀ e ∈ told, e.view.kind = .attemptStarted ↔ e.view.revision = 0) ∧
      (∀ e ∈ told, e.view.startedAtMs ≤ e.view.observedAtMs) ∧
      ∃ before e, told = before ++ [e] ∧ e.view.kind = .attemptFinished ∧
        (∀ e' ∈ before, e'.view.kind ≠ .attemptFinished) ∧
        (e.view.finality = .final → e.view.observationIncomplete = false ∧
          e.view.usage.violations = [] ∧
          (e.view.upstream = .completed ∨ e.view.upstream = .incomplete))) ∧
    ∀ (digest : Text → String) (config : RecorderConfig) (s : Store) (l : List RecordedEvent),
      Sound digest s → names.Nodup → Unknown s start names → Among start names told l →
        ∀ answer ∈ feed digest config l s, attemptOf answer.1 = attemptOf start →
          answer.2 ≠ .ok .conflict := by
  have htold := hreported.orderly hstart hfits
  refine ⟨⟨htold.identities, htold.increasing, htold.started, htold.times, htold.ended⟩, ?_⟩
  intro digest config s l hs hnames hunknown hamong
  obtain rfl := hamong.own
  exact (hunknown.follows hs).feed htold hnames hamong.others

/-- A sink that waits for nothing, and a call that finds room in the channel. -/
def hurriedSink : UsageSink := ⟨.bestEffort, "p", true⟩

def heeded (eventId : String) : Chance := ⟨2, eventId, true, true⟩

/-- An attempt that counts a prompt and ends. -/
theorem attempt_stream_counted : ∃ start told, told.length = 3 ∧
    ∀ answer ∈ feed String.ofList ⟨[], List.nodup_nil⟩ told (.empty 1),
      attemptOf answer.1 = attemptOf start → answer.2 ≠ .ok .conflict := by
  let event : UsageEventV1 := {
    schema := schema, producerId := "", requestId := "r", attemptId := "a", eventId := "s"
    revision := 0, kind := .attemptStarted, startedAtMs := 1, observedAtMs := 1, provider := "v"
    modelAlias := "m", upstreamModel := "u", reportedModel := none, providerRequestId := none
    providerResponseId := none, profile := .chatV1
    configurationSha256 := String.ofList (List.replicate 64 '0'), usage := .default
    upstream := .inProgress, gateway := .inProgress, finality := .unobserved
    observationIncomplete := false }
  let steps : List (Attempt.Call × Chance) :=
    [(.observe (.object [("prompt_tokens", .number (.ofNat 3))]), heeded "u"),
      (.finish .completed, heeded "f")]
  have hthree : (Attempt.channel (some hurriedSink) event true (heeded "s") steps
      (heeded "d")).map List.length = some 3 := by decide +kernel
  obtain ⟨told, hchannel, hlength⟩ := Option.map_eq_some_iff.1 hthree
  have hreported : Reported (.v1 { event with producerId := "p" })
      (namesOf "s" steps (heeded "d")) told := .builtin hchannel
  have hunknown : Unknown (.empty 1) (.v1 { event with producerId := "p" })
      (namesOf "s" steps (heeded "d")) := ⟨nofun, nofun, nofun⟩
  have hstream := attempt_stream hreported ⟨rfl, rfl, rfl⟩ (by decide)
  have hidentities := hstream.1.1
  refine ⟨_, told, hlength, hstream.2 _ _ _ told (sound_empty 1) (by decide) hunknown ⟨?_, ?_⟩⟩
  · rw [List.filter_eq_self]
    exact fun e he => decide_eq_true (attemptOf_eq (hidentities e he))
  · exact fun e he hother => absurd (attemptOf_eq (hidentities e he)) hother

/-- A plugin that reports two usages in turn. -/
def alternating (identity : ProviderIdentity) (u u' : CanonicalUsage) :
    Nat → List (ProviderAttempt.Call × Chance)
  | 0 => []
  | n + 1 => (.observe ⟨identity, u⟩, heeded "u") :: alternating identity u' u n

/-- Every change of the usage is told. -/
theorem length_alternating {identity : ProviderIdentity} {u u' : CanonicalUsage}
    {a : ProviderAttempt} (hidentity : a.event.interpretation = interpretation identity)
    (husage : a.event.usage = u') (hne : u' ≠ u) (hu : providerUsageValid u = true)
    (hu' : providerUsageValid u' = true) (hopen : a.finished = false) (n : Nat) :
    (calls ProviderAttempt.call (alternating identity u u' n) a).sent.length = n := by
  induction n generalizing a u u' with
  | zero => rfl
  | succ n ih =>
      have hcall : a.call (heeded "u") (.observe ⟨identity, u⟩) =
          ((a.replace u).next .usageUpdated (heeded "u")).deliver false (heeded "u") := by
        rw [ProviderAttempt.call, ProviderAttempt.observe, hidentity, hu, husage, hopen]
        simp only [ne_eq, not_true_eq_false, decide_false, Bool.not_true, Bool.or_false,
          Bool.false_eq_true, if_false, hne, not_false_eq_true, if_true]
      have hrest : (calls ProviderAttempt.call (alternating identity u' u n)
          (a.call (heeded "u") (.observe ⟨identity, u⟩)).attempt).sent.length = n :=
        ih (by rw [hcall]; exact hidentity) (by rw [hcall]; rfl) hne.symm hu' hu
          (by rw [hcall]; exact hopen)
      rw [alternating, calls, List.length_append, hrest, hcall]
      exact Nat.add_comm 1 n

/-- Increasing revisions of 64 bits are no more than there are. -/
theorem length_increasing {told : List RecordedEvent}
    (h : told.Pairwise (·.view.revision < ·.view.revision)) : told.length ≤ 2 ^ 64 := by
  have hnodup : (told.map (·.view.revision.toNat)).Nodup := by
    rw [List.nodup_iff_pairwise_ne, List.pairwise_map]
    exact h.imp fun hlt => Nat.ne_of_lt (UInt64.lt_iff_toNat_lt.1 hlt)
  have hsub : told.map (·.view.revision.toNat) ⊆ List.range (2 ^ 64) := by
    intro n hn
    obtain ⟨e, -, rfl⟩ := List.mem_map.1 hn
    exact List.mem_range.2 (UInt64.toNat_lt _)
  have hlength := (hnodup.subperm hsub).length_le
  rwa [List.length_map, List.length_range] at hlength

/-- The revisions of an attempt that is told of more changes than there are come around. -/
theorem attempt_revisions_wrap : ¬ ∀ start names told, Reported start names told →
    Initial start → told.Pairwise (·.view.revision < ·.view.revision) := by
  intro hall
  let identity : ProviderIdentity := ⟨"gateway-provider/v1", "v/v1", "a", "1.0.0", "", ""⟩
  let event : UsageEventV2 := {
    schema := schemaV2, producerId := "", requestId := "r", attemptId := "a", eventId := "s"
    revision := 0, kind := .attemptStarted, startedAtMs := 1, observedAtMs := 1, provider := "v"
    modelAlias := "m", upstreamModel := "u", reportedModel := none, providerRequestId := none
    providerResponseId := none, interpretation := interpretation identity
    configurationSha256 := String.ofList (List.replicate 64 '0'), usage := .default
    upstream := .inProgress, gateway := .inProgress, finality := .unobserved
    observationIncomplete := false }
  let counted := CanonicalUsage.default.put "input_tokens" ⟨some 1, .reported⟩
  let opened := ProviderAttempt.deliver false (heeded "s")
    ⟨⟨hurriedSink, true, false⟩, { event with producerId := "p" }⟩
  have hsent : ∀ n, (calls ProviderAttempt.call
      (alternating identity counted .default n) opened.attempt).sent.length = n :=
    length_alternating rfl rfl (by decide) (by decide) (by decide) rfl
  have hchannel : ∀ n, ProviderAttempt.channel (some hurriedSink) event true (heeded "s")
      (alternating identity counted .default n) (heeded "d") =
        some (lifetime ProviderAttempt.call (fun c a => a.drop c) opened
          (alternating identity counted .default n) (heeded "d")) := fun n => rfl
  have hincreasing := hall _ _ _ (.provider (hchannel (2 ^ 64))) ⟨rfl, rfl, rfl⟩
  have hlength := length_increasing hincreasing
  rw [lifetime, if_pos (show opened.ok = true from rfl)] at hlength
  simp only [List.length_append, hsent] at hlength
  have hopened : opened.sent.length = 1 := rfl
  omega

end Streams

end ResponseGateway.Recorder
