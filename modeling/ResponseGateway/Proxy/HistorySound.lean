import ResponseGateway.Continuation.Ledger
import ResponseGateway.Proxy.EchoRuns

/-!
Soundness of `history`: an accepted request carries exactly the envelopes of the
finalized chain of its session and epoch up to the head, and its cleaned input holds
each record's output where the record says.

Two assumptions. `Authentic`: an envelope the request presents or the store holds
opens only to a record that was sealed before. And no two sealed records share a
digest.
-/

namespace ResponseGateway.Proxy
open Checked Method Json Ir Continuation SqliteStore Chain World Continuation.Runtime

/-- The envelopes the input carries, in order. -/
def envelopes (payload : Fields) : List String :=
  ((inputOf payload).getD []).filterMap envelopeOf

/-- The input installed in a payload. -/
def cleaned (payload : Fields) : List Json := (inputOf payload).getD []

/-- An envelope within reach opens only to a sealed record. -/
def Authentic (rt : Runtime) (l : Ledger) (payload : Fields) : Prop :=
  ∀ e, (e ∈ envelopes payload ∨
      ∃ a stored, l.world.db.records.get a = some stored ∧ stored.envelope = some e) →
    ∀ r, rt.protector.openRecord e = .ok r → r ∈ l.sealedRecords

/-- The envelope opens to the record finalized under the identifier it names, for
this session, epoch and origin. -/
def Restores (rt : Runtime) (db : SqliteStore) (s : Session) (token : String)
    (replay : NormalizedReplay) : Prop :=
  ∃ r stored, rt.protector.openRecord token = .ok r ∧
    r.intoNormalized rt.base64 = .ok replay ∧ r.fields.session = s.id ∧
    r.fields.epoch = s.epoch ∧ r.fields.origin = s.origin ∧
    db.records.get replay.response = some stored ∧ stored.digest = rt.recordDigest r

/-- The log entry of a record of this session and epoch. -/
def entryFor (s : Session) (replay : NormalizedReplay) : LogEntry :=
  { attempt := replay.response, session := s.id, epoch := s.epoch, parent := replay.parent }

section Soundness

variable {rt : Runtime} {l : Ledger} {s : Session} {payload : Fields} {db' : SqliteStore}

/-- What is restored is the finalized record that the presented envelope opens to. -/
theorem restoreRecord_sound (hl : l.Sound rt) (hauth : Authentic rt l payload)
    (hinj : Set.InjOn rt.recordDigest {r | r ∈ l.sealedRecords}) {token : String}
    (htoken : token ∈ envelopes payload) {r : ReplayRecord}
    (h : rt.restoreRecord s token l.world.db = (.ok r, db')) :
    ∃ stored, rt.protector.openRecord token = .ok r ∧ r.fields.session = s.id ∧
      r.fields.epoch = s.epoch ∧ r.fields.origin = s.origin ∧
      l.world.db.records.get r.fields.response = some stored ∧
      stored.digest = rt.recordDigest r ∧ r.entry ∈ l.world.log ∧ db' = l.world.db := by
  obtain ⟨original, _, stored, saved, hopen, hsession, hepoch, horigin, -, -, -, -, hstored,
    hdigest, hsaved, hauthoritative, hsame, hdb⟩ := restoreRecord_accepts hl.complete h
  obtain ⟨final, hfinal, hfinalDigest, -, hentry⟩ := hl.recorded _ stored hstored
  have hsealed := hauth token (.inl htoken) original hopen
  have hsealed' := hauth saved (.inr ⟨_, stored, hstored, hsaved⟩) r hauthoritative
  have heq : original = final := hinj hsealed hfinal (hdigest.symm.trans hfinalDigest)
  have heq' : r = original := hinj hsealed' hsealed hsame
  subst heq' heq
  exact ⟨stored, hopen, hsession, hepoch, horigin, hstored, hdigest, hentry, hdb⟩

theorem verifyToken_sound (hl : l.Sound rt) (hauth : Authentic rt l payload)
    (hinj : Set.InjOn rt.recordDigest {r | r ∈ l.sealedRecords}) {token : String}
    (htoken : token ∈ envelopes payload) {clean : List Json} {state state' : Verified}
    {replays : List NormalizedReplay} (htraced : Traced rt clean replays state)
    (h : verifyToken rt s clean state token l.world.db = (.ok state', db')) :
    ∃ replay, Restores rt l.world.db s token replay ∧ entryFor s replay ∈ l.world.log ∧
      Traced rt clean (replays ++ [replay]) state' ∧ db' = l.world.db := by
  obtain ⟨r, replay, hrestore, hreplay, hadmits, rfl⟩ := verifyToken_accepts.1 h
  obtain ⟨stored, hopen, hsession, hepoch, horigin, hstored, hdigest, hentry, hdb⟩ :=
    restoreRecord_sound hl hauth hinj htoken hrestore
  obtain ⟨hresponse, hparent, -⟩ := ReplayRecord.intoNormalized_ok hreplay
  refine ⟨replay, ⟨r, stored, hopen, hreplay, hsession, hepoch, horigin, hresponse ▸ hstored,
    hdigest⟩, ?_, htraced.push hadmits, hdb⟩
  rwa [ReplayRecord.entry, ← hresponse, ← hparent, hsession, hepoch] at hentry

/-- The loop over the envelopes restores one finalized record for each, and leaves
the store as it was. -/
theorem verifyTokens_sound (hl : l.Sound rt) (hauth : Authentic rt l payload)
    (hinj : Set.InjOn rt.recordDigest {r | r ∈ l.sealedRecords}) {clean : List Json}
    {tokens : List String} (htokens : ∀ token ∈ tokens, token ∈ envelopes payload)
    {state state' : Verified} {done : List NormalizedReplay} (htraced : Traced rt clean done state)
    (h : verifyTokens rt s clean state tokens l.world.db = (.ok state', db')) :
    ∃ replays, List.Forall₂ (Restores rt l.world.db s) tokens replays ∧
      (∀ replay ∈ replays, entryFor s replay ∈ l.world.log) ∧
      Traced rt clean (done ++ replays) state' := by
  induction tokens generalizing state done with
  | nil =>
      obtain ⟨rfl, -⟩ := pure_accepts.1 h
      exact ⟨[], .nil, by simp, by simpa using htraced⟩
  | cons token rest ih =>
      obtain ⟨mid, _, htoken, hrest⟩ := verifyTokens_cons_accepts.1 h
      obtain ⟨replay, hrestores, hlogged, hmid, rfl⟩ :=
        verifyToken_sound hl hauth hinj (htokens token (by simp)) htraced htoken
      obtain ⟨replays, hall, hentries, hend⟩ :=
        ih (fun t ht => htokens t (by simp [ht])) hmid hrest
      refine ⟨replay :: replays, .cons hrestores hall, ?_, by simpa using hend⟩
      intro r hr
      rcases List.mem_cons.1 hr with rfl | hr
      · exact hlogged
      · exact hentries r hr

/-- A chain of logged records is the beginning of the log of its epoch, and all of
it when it ends at the head the session has now. -/
theorem chain_isPrefix (hl : l.Sound rt) {replays : List NormalizedReplay} {head : Option String}
    (hlogged : ∀ replay ∈ replays, entryFor s replay ∈ l.world.log)
    (hchain : Chained NormalizedReplay.response NormalizedReplay.parent none replays head) :
    replays.map (entryFor s) <+: l.world.recordsOf s.id s.epoch ∧
      ((∃ now, l.world.db.sessions.get s.id = some now ∧ now.epoch = s.epoch ∧ now.head = head) →
        replays.map (entryFor s) = l.world.recordsOf s.id s.epoch) := by
  obtain ⟨tip, htip⟩ := hl.chains s.id s.epoch
  have hentries : Chained LogEntry.attempt LogEntry.parent none (replays.map (entryFor s)) head :=
    (chained_map (entryFor s)).2 hchain
  have hsub : ∀ entry ∈ replays.map (entryFor s), entry ∈ l.world.recordsOf s.id s.epoch := by
    intro entry hentry
    obtain ⟨replay, hreplay, rfl⟩ := List.mem_map.1 hentry
    exact List.mem_filter.2 ⟨hlogged replay hreplay, by simp [entryFor]⟩
  have hbegins := hentries.isPrefix htip (hl.keys_nodup s.id s.epoch) (by simp) hsub
  refine ⟨hbegins, fun ⟨now, hnow, hepoch, hhead⟩ => ?_⟩
  have hcurrent := hl.linear.chained s.id now hnow
  rw [hepoch, hhead] at hcurrent
  exact hentries.eq_of_isPrefix hbegins hcurrent (hl.keys_nodup s.id s.epoch) (by simp)

end Soundness

/-- Soundness of an accepted history, in every reachable state, for every session
value and every payload. -/
theorem history_sound (rt : Runtime) (limit : Nat) (l : Ledger) (s : Session)
    (payload payload' : Fields) (result : VerifiedProviderHistory) (db' : SqliteStore)
    (hrun : Ledger.Runs rt (Ledger.init limit) l) (hauth : Authentic rt l payload)
    (hinj : Set.InjOn rt.recordDigest {r | r ∈ l.sealedRecords})
    (h : history rt s payload l.world.db = (.ok (result, payload'), db')) :
    ∃ replays : List NormalizedReplay,
      -- the envelopes are the chain from the root to the head, each once
      List.Forall₂ (Restores rt l.world.db s) (envelopes payload) replays ∧
      Chained NormalizedReplay.response NormalizedReplay.parent none replays s.head ∧
      (replays.map (·.response)).Nodup ∧
      replays.map (entryFor s) <+: l.world.recordsOf s.id s.epoch ∧
      (l.world.db.sessions.get s.id = some s →
        replays.map (entryFor s) = l.world.recordsOf s.id s.epoch) ∧
      -- the segments are their spans, in order and disjoint
      result.segments.entries = replays.map segmentOf ∧
      (replays.Pairwise fun a b => stopOf a ≤ b.inputLen) ∧
      (∀ replay ∈ replays, Placed rt (cleaned payload') replay) ∧
      -- no reasoning item is outside
      (∀ (i : Nat) (item : Json), (cleaned payload')[i]? = some item → isReasoning item = true →
        ∃ replay ∈ replays, replay.inputLen ≤ i ∧ i < stopOf replay) := by
  have hl := Ledger.sound_runs hrun
  cases hinput : inputOf payload with
  | none =>
      obtain ⟨hhead, rfl, rfl, rfl⟩ := (history_accepts_other hinput).1 h
      have hnone : Chained NormalizedReplay.response NormalizedReplay.parent none [] s.head :=
        hhead.symm
      obtain ⟨hbegins, hall⟩ := chain_isPrefix (s := s) hl (by simp) hnone
      refine ⟨[], by simp [envelopes, hinput], hnone, by simp, hbegins,
        fun hs => hall ⟨s, hs, rfl, rfl⟩, rfl, .nil, by simp, by simp [cleaned, hinput]⟩
  | some input =>
      obtain ⟨clean, tokens, state, hscan, hverify, hprevious, hcovered, -, rfl, rfl⟩ :=
        (history_accepts hinput).1 h
      have htokens : tokens = envelopes payload := by
        rw [envelopes, hinput, scan_envelopes hscan]
        rfl
      obtain ⟨replays, hrestores, hlogged, htraced⟩ :=
        verifyTokens_sound hl hauth hinj (htokens ▸ fun _ ht => ht) traced_init hverify
      rw [List.nil_append] at htraced
      have hclean : cleaned (Assoc.insert "input" (.array clean) payload) = clean := by
        rw [cleaned, inputOf_insert]
        rfl
      have hchain := htraced.chained
      rw [hprevious] at hchain
      obtain ⟨hbegins, hall⟩ := chain_isPrefix hl hlogged hchain
      rw [hclean]
      refine ⟨replays, htokens ▸ hrestores, hchain, htraced.distinct, hbegins,
        fun hs => hall ⟨s, hs, rfl, rfl⟩, htraced.entries, htraced.ordered, htraced.placed, ?_⟩
      intro i item hitem hreasoning
      obtain ⟨entry, hentry, hspan⟩ := covered_iff.1 hcovered i item hitem hreasoning
      rw [htraced.entries] at hentry
      obtain ⟨replay, hreplay, rfl⟩ := List.mem_map.1 hentry
      exact ⟨replay, hreplay, hspan⟩

/-- The store, the clients and the sealed record after one turn. -/
def sampleLedger : Ledger where
  world := {
    db := sampleStoreAfter (sampleSha256 recordSha256) [sampleThought []]
    snapshots := [sampleSession], tickets := [⟨"resp_a", sampleSession⟩]
    log := [Ticket.entry ⟨"resp_a", sampleSession⟩] }
  sealedRecords := [sampleRecord (sampleSha256 recordSha256) [sampleThought []]]

theorem runs_sampleLedger :
    Ledger.Runs (sampleEchoState recordSha256 [sampleThought []]).runtime (Ledger.init 1048576)
      sampleLedger := by
  have created : Ledger.Runs (sampleEchoState recordSha256 [sampleThought []]).runtime
      (Ledger.init 1048576) ⟨{ World.init 1048576 with db := sampleStore }, []⟩ :=
    .single (.other (@World.Step.host _ (.create "s" sampleOrigin) _ rfl rfl) rfl)
  have observed : Ledger.Runs (sampleEchoState recordSha256 [sampleThought []]).runtime
      (Ledger.init 1048576)
      ⟨{ World.init 1048576 with db := sampleStore, snapshots := [sampleSession] }, []⟩ :=
    created.tail (.other (@World.Step.observe _ "s" _ _ rfl) rfl)
  have begun : Ledger.Runs (sampleEchoState recordSha256 [sampleThought []]).runtime
      (Ledger.init 1048576) ⟨{ World.init 1048576 with
        db := sampleStoreBegun (sampleSha256 recordSha256), snapshots := [sampleSession]
        tickets := [⟨"resp_a", sampleSession⟩] }, []⟩ :=
    observed.tail (.other (@World.Step.begin _ "a"
      (digest (sampleSha256 recordSha256) (.object samplePayload)) _ 4096 sampleSession _
      (List.mem_singleton_self _) rfl) rfl)
  exact begun.tail (.finalize (t := ⟨"resp_a", sampleSession⟩) (List.mem_singleton_self _)
    ⟨rfl, rfl, rfl, rfl, rfl⟩
    (finalize_sample sampleBase64 (sampleSha256 recordSha256) [sampleThought []]
      (fun _ => .ok ()) rfl))

theorem authentic_sampleLedger (payload : Fields) :
    Authentic (sampleEchoState recordSha256 [sampleThought []]).runtime sampleLedger payload := by
  intro e _ r hopen
  change (if e = sampleToken then _ else _) = _ at hopen
  split at hopen
  · cases hopen
    exact List.mem_singleton_self _
  · cases hopen

/-- The echo of one turn, verified as that turn. -/
theorem history_sound_thought : ∃ replays : List NormalizedReplay,
    replays.map (entryFor sampleSessionAfter) = [Ticket.entry ⟨"resp_a", sampleSession⟩] ∧
      ∀ replay ∈ replays, Placed (sampleEchoState recordSha256 [sampleThought []]).runtime
        [sampleQuestion, sampleThought [], sampleQuestion] replay := by
  have hrun := conversation_sample sampleBase64 (sampleSha256 recordSha256) publish_thought.1
    publish_thought.2 (size_thought [] (.inl rfl))
  have hstanding := standing_conversation hrun (by
    intro t ht
    rw [List.mem_singleton.1 ht]
    unfold echoableTurn
    decide) (List.isChain_singleton _)
  have hfresh : ∀ item ∈ [sampleQuestion], isReasoning item = false := by decide
  have hinput : inputOf (echoPayload []) =
    some ([sampleQuestion] ++ [carryingThought []] ++ [sampleQuestion]) := rfl
  have hsession : (sampleStoreAfter (sampleSha256 recordSha256) [sampleThought []]).sessions.get
    "s" = some sampleSessionAfter := rfl
  obtain ⟨result, hhistory, -⟩ := hstanding.accepts (sampleProtector_inverse _)
    sampleBase64_inverse rfl hsession rfl hfresh hinput
  obtain ⟨replays, -, -, -, -, hall, -, -, hplaced, -⟩ :=
    history_sound _ 1048576 sampleLedger sampleSessionAfter (echoPayload []) _ result _
      runs_sampleLedger (authentic_sampleLedger _) (by simp [sampleLedger]) hhistory
  exact ⟨replays, hall rfl, hplaced⟩

end ResponseGateway.Proxy
