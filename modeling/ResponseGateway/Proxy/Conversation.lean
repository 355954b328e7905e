import ResponseGateway.Continuation.Clients
import ResponseGateway.Continuation.Ledger
import ResponseGateway.Proxy.Echo

/-!
Conversations of any number of turns, each on the head the previous one left, with
any other calls of the store between them. Each request repeats the previous one,
then the published output, then fresh items. `Spoken` is what such an input looks
like to the verifier; from it alone an accepted history follows.
-/

namespace ResponseGateway.Proxy
open Checked Method Json Ir Continuation SqliteStore Chain World Continuation.Runtime

/-- The turn was finalized and is stored with its digest and envelope. -/
structure Kept (rt : Runtime) (id : String) (db : SqliteStore) (t : Turn) : Prop where
  attempt : ∃ row, db.attempts.get t.attempt = some row ∧ row.session = id ∧
    row.epoch = t.session.epoch ∧ row.status = .finalized
  record : db.records.get t.attempt =
    some { digest := rt.recordDigest t.record, envelope := some t.token }

/-- What a completed turn has checked, apart from the store. -/
structure Settled (state : GatewayState) (id : String) (t : Turn) : Prop where
  labelled : label id = .ok ()
  session : t.session.id = id
  origin : t.session.origin = state.origin
  output : publicOutput t.decoded.response.1 = some t.output
  record : ReplayRecord.fromNative state.runtime.base64
    (turnMetadata state.runtime t.session t.clean t.attempt t.decoded.outcome) t.decoded.native
    t.output = .ok t.record
  token : ∃ nonce, state.runtime.protector.sealRecord nonce t.record = .ok t.token
  published : addEnvelope t.decoded.response.1 t.token = some t.published

section Turns

variable {state : GatewayState} {id : String} {payload : Fields} {x : Exchange}
  {db db' : SqliteStore} {t : Turn}

theorem Kept.commits {rt : Runtime} (hdb : db.Invariant) {call : StoreCall}
    (h : Commits db call db') (ht : Kept rt id db t) : Kept rt id db' t := by
  obtain ⟨row, hrow, hsession, hepoch, hfin⟩ := ht.attempt
  obtain ⟨row', hrow', -, -, hended⟩ := commits_attempt h hrow
  obtain rfl := hended (by rw [hfin]; simp)
  exact ⟨⟨row', hrow', hsession, hepoch, hfin⟩, commits_record hdb h ht.record rfl⟩

/-- A completed turn: a history accepted on the session as it was, a fresh attempt,
and its finalization. -/
theorem runTurn_accepts (hdb : db.Invariant) (hcomplete : Complete db)
    (h : runTurn state id payload x db = (.ok t, db')) :
    Settled state id t ∧ db.sessions.get id = some t.session ∧
      t.raw = (inputOf (wrapText payload)).getD [] ∧
      (∃ replay payload', history state.runtime t.session (wrapText payload) db =
        (.ok (replay, payload'), db) ∧ inputOf payload' = some t.clean) ∧
      db.attempts.get t.attempt = none ∧ ∃ db₁ begins finalizes,
        Commits db begins db₁ ∧ Commits db₁ finalizes db' ∧ Kept state.runtime id db' t := by
  obtain ⟨s, _, hsession, hbody⟩ := bind_accepts.1 h
  obtain ⟨hlabel, hfound, rfl⟩ := session_accepts.1 (mapError_accepts.1 hsession)
  obtain ⟨_, -, hidle⟩ := check_bind_accepts.1 hbody
  obtain ⟨_, horigin, hadmitted⟩ := check_bind_accepts.1 hidle
  obtain ⟨⟨replay, payload'⟩, _, hhistory, hverified⟩ := bind_accepts.1 hadmitted
  obtain rfl := history_keeps hcomplete hhistory
  obtain ⟨clean, hclean, hinput⟩ := check_bind_accepts.1 hverified
  obtain ⟨_, -, hroute⟩ := check_bind_accepts.1 hinput
  obtain ⟨attempt, db₁, hreserve, hreserved⟩ := bind_accepts.1 hroute
  obtain ⟨decoded, -, hanswer⟩ := check_bind_accepts.1 hreserved
  obtain ⟨output, houtput, hprojected⟩ := check_bind_accepts.1 hanswer
  obtain ⟨record, hrecord, hrest⟩ := check_bind_accepts.1 hprojected
  obtain ⟨token, _, hfinalize, hsealed⟩ := bind_accepts.1 hrest
  obtain ⟨published, hpublished, hend⟩ := check_bind_accepts.1 hsealed
  obtain ⟨rfl, rfl⟩ := pure_accepts.1 hend
  have hid := hdb.keyed id s hfound
  obtain ⟨rfl, hbegin⟩ := begin_accepts hdb.keyed (mapError_accepts.1 hreserve)
  obtain ⟨hseal, -, hstore⟩ := finalizeChecked_accepts (mapError_accepts.1 hfinalize)
  obtain ⟨schema, hfields⟩ := ReplayRecord.fields_fromNative (Checked.mapError_ok.1 hrecord)
  have hdb₁ := hdb.step hbegin
  have hfinal := finalize_accepts hdb₁.keyed hstore
  have hown : record.fields.session = id := by rw [hfields]; exact hid
  have hresponse : record.fields.response = "resp_" ++ x.uuid := by rw [hfields]; rfl
  refine ⟨⟨hlabel, hid, by simpa using horigin, okOr_ok.1 houtput, Checked.mapError_ok.1 hrecord,
    ⟨x.nonce, hseal⟩, okOr_ok.1 hpublished⟩, hfound, rfl, ⟨replay, payload', hhistory,
    okOr_ok.1 hclean⟩, ?_, db₁, _, _, hbegin, hfinal, ?_⟩
  · cases hbegin with
    | begin _ _ _ _ fresh => exact fresh
  · rw [hown, hresponse] at hfinal
    cases hfinal with
    | @finalize _ _ _ _ _ s' row found foundAttempt own sameEpoch =>
        cases hbegin with
        | begin foundOld =>
            rw [hid, hfound] at foundOld
            cases foundOld
            simp only [hid, OrderedMap.get_insert_self, Option.some.injEq] at found
            subst found
            exact ⟨⟨_, OrderedMap.get_insert_self _ _ _, own, sameEpoch, rfl⟩,
              OrderedMap.get_insert_self _ _ _⟩

end Turns

/-- A session's turns so far, and the store after them. -/
inductive Conversation (state : GatewayState) (id : String) : SqliteStore → List Turn → Prop where
  | start (limit : Nat) : Conversation state id (empty limit) []
  | other {db db' : SqliteStore} {turns : List Turn} {call : StoreCall}
      {result : Except Error Unit} (prior : Conversation state id db turns)
      (step : execute call db = (result, db')) : Conversation state id db' turns
  | turn {db db' : SqliteStore} {turns : List Turn} {payload : Fields} {x : Exchange} {t : Turn}
      (prior : Conversation state id db turns)
      (echoes : ∀ last, turns.getLast? = some last → ∃ fresh,
        (∀ item ∈ fresh, isReasoning item = false) ∧
        inputOf payload = some (last.raw ++ outputItems last.published ++ fresh))
      (resumes : t.session.head = turns.getLast?.map (·.attempt))
      (call : runTurn state id payload x db = (.ok t, db')) :
      Conversation state id db' (turns ++ [t])

/-- Every reasoning item of the response has the shape the verifier accepts. -/
def echoableTurn (t : Turn) : Prop :=
  ∀ item ∈ outputItems t.decoded.response.1, echoable item = true

/-- The next request goes beyond this turn: by its public output or by a fresh item. -/
def advances (a b : Turn) : Prop :=
  publicOutput a.decoded.response.1 = some [] → b.raw ≠ a.raw ++ outputItems a.published

/-- The verified form of a turn's record. -/
def replayOf (rt : Runtime) (t : Turn) : NormalizedReplay where
  response := t.attempt
  parent := t.session.head
  inputLen := t.clean.length
  inputSha256 := inputDigest rt t.clean
  native := t.decoded.native
  output := t.output

/-- An input that repeats these turns, and what is left of it when it is cleaned. -/
structure Spoken (turns : List Turn) (raw clean : List Json) : Prop where
  scanned : scan raw = .ok (clean, turns.map (·.token))
  placed : ∀ t ∈ turns, t.clean ++ t.output <+: clean
  covered : ∀ (i : Nat) (item : Json), clean[i]? = some item → isReasoning item = true →
    ∃ t ∈ turns, t.clean.length ≤ i ∧ i < t.clean.length + t.output.length
  chained : Chained Turn.attempt (fun t => t.session.head) none turns
    (turns.getLast?.map (·.attempt))
  distinct : (turns.map (·.attempt)).Nodup
  ordered : turns.Pairwise fun a b =>
    a.clean.length + a.output.length ≤ b.clean.length ∧ a.clean.length < b.clean.length

section Speaking

variable {turns : List Turn} {raw clean : List Json}

/-- Fresh items are appended to both. -/
theorem Spoken.fresh (h : Spoken turns raw clean) {items : List Json}
    (hitems : ∀ item ∈ items, isReasoning item = false) :
    Spoken turns (raw ++ items) (clean ++ items) := by
  refine { h with scanned := ?_, placed := ?_, covered := ?_ }
  · simpa using scan_append h.scanned (scan_plain hitems)
  · intro t ht
    exact (h.placed t ht).trans (List.prefix_append _ _)
  · intro i item hi hreasoning
    by_cases hlt : i < clean.length
    · rw [List.getElem?_append_left hlt] at hi
      exact h.covered i item hi hreasoning
    · rw [List.getElem?_append_right (by omega)] at hi
      rw [hitems item (List.mem_of_getElem? hi)] at hreasoning
      cases hreasoning

/-- A turn on the input adds its published output, and its record to the span. -/
theorem Spoken.turn {t : Turn} {state : GatewayState} {id : String}
    (h : Spoken turns t.raw t.clean) (ht : Settled state id t) (hecho : echoableTurn t)
    (hresumes : t.session.head = turns.getLast?.map (·.attempt))
    (hnew : t.attempt ∉ turns.map (·.attempt))
    (hstrict : ∀ a ∈ turns, a.clean.length < t.clean.length) :
    Spoken (turns ++ [t]) (t.raw ++ outputItems t.published) (t.clean ++ t.output) := by
  constructor
  · simpa using scan_append h.scanned (scan_published ht.output ht.published hecho)
  · intro a ha
    rcases List.mem_append.1 ha with ha | ha
    · exact (h.placed a ha).trans (List.prefix_append _ _)
    · obtain rfl := List.mem_singleton.1 ha
      exact List.prefix_rfl
  · intro i item hi hreasoning
    by_cases hlt : i < t.clean.length
    · rw [List.getElem?_append_left hlt] at hi
      obtain ⟨a, ha, hspan⟩ := h.covered i item hi hreasoning
      exact ⟨a, List.mem_append_left _ ha, hspan⟩
    · refine ⟨t, by simp, by omega, ?_⟩
      have hlen := (List.getElem?_eq_some_iff.1 hi).1
      rwa [List.length_append] at hlen
  · rw [List.getLast?_concat, Option.map_some]
    exact chained_snoc h.chained hresumes
  · rw [List.map_append, List.nodup_append]
    refine ⟨h.distinct, by simp, fun a ha b hb => ?_⟩
    obtain rfl := List.mem_singleton.1 hb
    rintro rfl
    exact hnew ha
  · refine List.pairwise_append.2 ⟨h.ordered, by simp, fun a ha b hb => ?_⟩
    obtain rfl := List.mem_singleton.1 hb
    refine ⟨?_, hstrict a ha⟩
    have hlen := (h.placed a ha).length_le
    rwa [List.length_append] at hlen

/-- The first request of an epoch: nothing to repeat and no reasoning in it. -/
theorem spoken_nil {rt : Runtime} {s : Session} {payload payload' : Fields}
    {result : VerifiedProviderHistory} {db db' : SqliteStore} (hhead : s.head = none)
    (h : history rt s payload db = (.ok (result, payload'), db'))
    (hclean : inputOf payload' = some clean) : Spoken [] ((inputOf payload).getD []) clean := by
  cases hinput : inputOf payload with
  | none =>
      obtain ⟨-, -, rfl, -⟩ := (history_accepts_other hinput).1 h
      rw [hinput] at hclean
      cases hclean
  | some input =>
      obtain ⟨clean', tokens, state, hscan, hverify, hprevious, hcovered, -, -, rfl⟩ :=
        (history_accepts hinput).1 h
      rw [inputOf_insert] at hclean
      cases hclean
      cases tokens with
      | nil =>
          obtain ⟨rfl, -⟩ := pure_accepts.1 hverify
          refine { scanned := hscan, placed := by simp, covered := ?_, chained := rfl,
                   distinct := List.nodup_nil, ordered := List.Pairwise.nil }
          intro i item hi hreasoning
          obtain ⟨entry, hentry, -⟩ := covered_iff.1 hcovered i item hi hreasoning
          cases hentry
      | cons token rest =>
          obtain ⟨mid, _, htoken, hrest⟩ := verifyTokens_cons_accepts.1 hverify
          obtain ⟨_, _, -, -, -, rfl⟩ := verifyToken_accepts.1 htoken
          have hlast := verifyTokens_previous hrest rfl
          rw [hprevious, hhead] at hlast
          cases hlast

end Speaking

section Completeness

variable {rt : Runtime} {s : Session} {db : SqliteStore} {clean : List Json}

theorem placed_replay (rt : Runtime) {t : Turn} (h : t.clean ++ t.output <+: clean) :
    stopOf (replayOf rt t) ≤ clean.length ∧ clean.take t.clean.length = t.clean ∧
      spanOf clean (replayOf rt t) = t.output := by
  obtain ⟨rest, rfl⟩ := h
  refine ⟨?_, ?_, ?_⟩
  · simp only [stopOf, replayOf, List.length_append]
    omega
  · rw [List.append_assoc, List.take_left]
  · rw [spanOf, replayOf, List.append_assoc, List.drop_left, List.take_left]

/-- The next turn is admitted where the loop has verified those before it. -/
theorem admits_turn {done rest : List Turn} {t : Turn} {raw : List Json} {state : Verified}
    (hspoken : Spoken (done ++ t :: rest) raw clean)
    (htraced : Traced rt clean (done.map (replayOf rt)) state) :
    admits rt clean state (replayOf rt t) = true := by
  obtain ⟨hinside, hbefore, hspan⟩ := placed_replay rt (hspoken.placed t (by simp))
  have hpairs := (List.pairwise_append.1 hspoken.ordered).2.2
  have hearlier : ∀ a ∈ done, stopOf (replayOf rt a) ≤ t.clean.length ∧
      a.clean.length < t.clean.length := fun a ha => hpairs a ha t (by simp)
  refine admits_iff.2 ⟨?_, ?_, ?_, hinside, ?_, ?_, ?_⟩
  · rw [htraced.seen, List.map_map]
    have hnodup := hspoken.distinct
    rw [List.map_append, List.nodup_append] at hnodup
    intro hmem
    exact hnodup.2.2 _ hmem _ (List.mem_map_of_mem (List.mem_cons_self ..)) rfl
  · obtain ⟨mid, hdone, hrest⟩ := chained_append hspoken.chained
    have htip : Chained Turn.attempt (fun t => t.session.head) none done state.previous :=
      (chained_map (replayOf rt)).1 htraced.chained
    exact hrest.1.trans (hdone.tip_unique htip)
  · rcases htraced.reached with hzero | ⟨r, hr, hlast⟩
    · rw [hzero]
      exact Nat.zero_le _
    · obtain ⟨a, ha, rfl⟩ := List.mem_map.1 hr
      rw [hlast]
      exact (hearlier a ha).1
  · exact congrArg (inputDigest rt) hbefore
  · rw [hspan]
    rfl
  · refine Assoc.get_eq_none.2 fun entry hentry => ?_
    rw [htraced.entries, List.map_map] at hentry
    obtain ⟨a, ha, rfl⟩ := List.mem_map.1 hentry
    exact (hearlier a ha).2.ne

/-- The loop accepts the envelopes of turns that can all be restored. -/
theorem verifyTokens_complete {done todo : List Turn} {raw : List Json} {state : Verified}
    (hspoken : Spoken (done ++ todo) raw clean)
    (hrestore : ∀ t ∈ todo, rt.restoreRecord s t.token db = (.ok t.record, db))
    (hnormal : ∀ t ∈ todo, t.record.intoNormalized rt.base64 = .ok (replayOf rt t))
    (htraced : Traced rt clean (done.map (replayOf rt)) state) :
    ∃ state', verifyTokens rt s clean state (todo.map (·.token)) db = (.ok state', db) ∧
      Traced rt clean ((done ++ todo).map (replayOf rt)) state' := by
  induction todo generalizing done state with
  | nil => exact ⟨state, rfl, by simpa using htraced⟩
  | cons t rest ih =>
      have hadmits := admits_turn hspoken htraced
      have hnext := htraced.push hadmits
      rw [← List.map_singleton, ← List.map_append] at hnext
      obtain ⟨state', hverify, hend⟩ := ih (by simpa using hspoken)
        (fun u hu => hrestore u (by simp [hu])) (fun u hu => hnormal u (by simp [hu])) hnext
      refine ⟨state', ?_, by simpa using hend⟩
      exact verifyTokens_cons_accepts.2 ⟨_, db, verifyToken_accepts.2
        ⟨t.record, replayOf rt t, hrestore t (by simp), hnormal t (by simp), hadmits, rfl⟩,
        hverify⟩

/-- The segment a turn leaves in the verified history. -/
def turnSegment (t : Turn) : Nat × Nat × NativeState :=
  (t.clean.length, t.clean.length + t.output.length, t.decoded.native)

theorem history_complete {turns : List Turn} {last : Turn} {raw : List Json} {payload : Fields}
    (hspoken : Spoken turns raw clean) (hlast : turns.getLast? = some last)
    (hhead : s.head = some last.attempt) (hinput : inputOf payload = some raw)
    (hrestore : ∀ t ∈ turns, rt.restoreRecord s t.token db = (.ok t.record, db))
    (hnormal : ∀ t ∈ turns, t.record.intoNormalized rt.base64 = .ok (replayOf rt t)) :
    ∃ result, history rt s payload db =
        (.ok (result, Assoc.insert "input" (.array clean) payload), db) ∧
      result.segments.entries = turns.map turnSegment := by
  have hnone : Traced rt clean (([] : List Turn).map (replayOf rt)) .init := traced_init
  obtain ⟨state, hverify, htraced⟩ := verifyTokens_complete (by simpa using hspoken) hrestore
    hnormal hnone
  rw [List.nil_append] at htraced
  have hsegments : state.segments.entries = turns.map turnSegment := by
    rw [htraced.entries, List.map_map]
    rfl
  refine ⟨⟨state.segments⟩, (history_accepts hinput).2 ⟨clean, _, state, hspoken.scanned, hverify,
    ?_, ?_, ?_, rfl, rfl⟩, hsegments⟩
  · have htip : Chained Turn.attempt (fun t => t.session.head) none turns state.previous :=
      (chained_map (replayOf rt)).1 htraced.chained
    rw [htip.tip_unique hspoken.chained, hlast, hhead]
    rfl
  · refine covered_iff.2 fun i item hi hreasoning => ?_
    obtain ⟨t, ht, hspan⟩ := hspoken.covered i item hi hreasoning
    exact ⟨turnSegment t, hsegments ▸ List.mem_map_of_mem ht, hspan⟩
  · rw [portableAccepted, hhead]

end Completeness

end ResponseGateway.Proxy
