import ResponseGateway.Proxy.Conversation

/-!
Every conversation keeps its store and its inputs in step, so that each echo is
accepted and cleaned to the recorded items. Two conditions on the turns are needed:
every response is echoable, and no turn without public output is repeated without
a fresh item.
-/

namespace ResponseGateway.Proxy
open Checked Method Json Ir Continuation SqliteStore Chain World Continuation.Runtime

/-- The store and the turns of a conversation, together. -/
structure Standing (state : GatewayState) (id : String) (db : SqliteStore) (turns : List Turn) :
    Prop where
  store : db.Invariant
  complete : Complete db
  settled : ∀ t ∈ turns, Settled state id t
  kept : ∀ t ∈ turns, Kept state.runtime id db t
  epochs : ∀ a ∈ turns, ∀ b ∈ turns, a.session.epoch = b.session.epoch
  origin : turns ≠ [] → ∃ now, db.sessions.get id = some now ∧ now.origin = state.origin
  spoken : ∀ last, turns.getLast? = some last →
    Spoken turns (last.raw ++ outputItems last.published) (last.clean ++ last.output)

section Runs

variable {state : GatewayState} {id : String} {db db' : SqliteStore} {turns : List Turn}

theorem Standing.commits (h : Standing state id db turns) {call : StoreCall}
    (hcommits : Commits db call db') : Standing state id db' turns where
  store := h.store.step hcommits
  complete := h.complete.commits hcommits
  settled := h.settled
  kept := fun t ht => (h.kept t ht).commits h.store hcommits
  epochs := h.epochs
  origin := fun hne => by
    obtain ⟨now, hnow, horigin⟩ := h.origin hne
    obtain ⟨next, hnext, hsame⟩ := commits_origin hcommits hnow
    exact ⟨next, hnext, hsame.trans horigin⟩
  spoken := h.spoken

theorem Standing.other (h : Standing state id db turns) {call : StoreCall}
    {result : Except Error Unit} (hstep : execute call db = (result, db')) :
    Standing state id db' turns := by
  cases result with
  | error e =>
      rw [atomic_execute call db e db' hstep]
      exact h
  | ok u => exact h.commits (execute_accepts h.store.keyed hstep)

/-- The session that stands at the last turn is in the epoch of the conversation. -/
theorem Standing.epoch_eq (h : Standing state id db turns) {last : Turn} {s : Session}
    (hlast : turns.getLast? = some last) (hs : db.sessions.get id = some s)
    (hhead : s.head = some last.attempt) : ∀ t ∈ turns, t.session.epoch = s.epoch := by
  intro t ht
  have hmem := List.mem_of_getLast? hlast
  obtain ⟨row, hrow, -, hepoch, -⟩ := (h.kept last hmem).attempt
  obtain ⟨row', hrow', -, hepoch', -⟩ := h.store.head_finalized id s last.attempt hs hhead
  rw [hrow] at hrow'
  cases hrow'
  rw [h.epochs t ht last hmem, ← hepoch, hepoch']

theorem wrapText_of_input {payload : Fields} {input : List Json}
    (h : inputOf payload = some input) : wrapText payload = payload := by
  obtain ⟨value, hvalue, harray⟩ := Option.bind_eq_some_iff.1 h
  obtain rfl := asArray_eq_some.1 harray
  rw [wrapText, hvalue]

/-- The request of the next turn is spoken before the turn is. -/
theorem Standing.request {payload : Fields} {x : Exchange} {t : Turn}
    (h : Standing state id db turns)
    (hechoes : ∀ last, turns.getLast? = some last → ∃ fresh,
      (∀ item ∈ fresh, isReasoning item = false) ∧
      inputOf payload = some (last.raw ++ outputItems last.published ++ fresh))
    (hresumes : t.session.head = turns.getLast?.map (·.attempt))
    (hcall : runTurn state id payload x db = (.ok t, db'))
    (hadvances : ∀ last, turns.getLast? = some last → advances last t) :
    Spoken turns t.raw t.clean ∧ ∀ a ∈ turns, a.clean.length < t.clean.length := by
  obtain ⟨-, -, hraw, ⟨result, payload', hhistory, hclean⟩, -⟩ :=
    runTurn_accepts h.store h.complete hcall
  cases hlast : turns.getLast? with
  | none =>
      obtain rfl := List.getLast?_eq_none_iff.1 hlast
      rw [hraw]
      exact ⟨spoken_nil hresumes hhistory hclean, by simp⟩
  | some last =>
      obtain ⟨fresh, hfresh, hinput⟩ := hechoes last hlast
      have hspoken := (h.spoken last hlast).fresh hfresh
      rw [wrapText_of_input hinput] at hraw hhistory
      rw [hinput, Option.getD_some] at hraw
      -- the scan decides what is left of the input
      obtain ⟨clean, tokens, verified, hscan, -, -, -, -, -, rfl⟩ :=
        (history_accepts hinput).1 hhistory
      rw [inputOf_insert] at hclean
      cases hclean
      rw [hspoken.scanned] at hscan
      obtain ⟨heq, -⟩ := Prod.mk.inj (Except.ok.inj hscan)
      have hlonger : last.clean.length < t.clean.length := by
        rw [← heq, List.length_append, List.length_append]
        by_contra hle
        have houtput : last.output = [] := List.eq_nil_of_length_eq_zero (by omega)
        have hnil : fresh = [] := List.eq_nil_of_length_eq_zero (by omega)
        refine hadvances last hlast ?_ (by rw [hraw, hnil, List.append_nil])
        rw [(h.settled last (List.mem_of_getLast? hlast)).output, houtput]
      refine ⟨by rw [hraw, ← heq]; exact hspoken, fun a ha => ?_⟩
      obtain ⟨init, hinit⟩ := List.getLast?_eq_some_iff.1 hlast
      rw [hinit] at ha
      rcases List.mem_append.1 ha with ha | ha
      · have hordered := hspoken.ordered
        rw [hinit] at hordered
        exact ((List.pairwise_append.1 hordered).2.2 a ha last (by simp)).2.trans hlonger
      · obtain rfl := List.mem_singleton.1 ha
        exact hlonger

theorem Standing.turn {payload : Fields} {x : Exchange} {t : Turn}
    (h : Standing state id db turns)
    (hechoes : ∀ last, turns.getLast? = some last → ∃ fresh,
      (∀ item ∈ fresh, isReasoning item = false) ∧
      inputOf payload = some (last.raw ++ outputItems last.published ++ fresh))
    (hresumes : t.session.head = turns.getLast?.map (·.attempt))
    (hcall : runTurn state id payload x db = (.ok t, db'))
    (hadvances : ∀ last, turns.getLast? = some last → advances last t) (hecho : echoableTurn t) :
    Standing state id db' (turns ++ [t]) := by
  obtain ⟨hspoken, hstrict⟩ := h.request hechoes hresumes hcall hadvances
  obtain ⟨hsettled, hsession, -, -, hnew, db₁, _, _, hbegin, hfinalize, hkept⟩ :=
    runTurn_accepts h.store h.complete hcall
  have hstanding := (h.commits hbegin).commits hfinalize
  refine { hstanding with settled := ?_, kept := ?_, epochs := ?_, origin := ?_, spoken := ?_ }
  · simpa [or_imp, forall_and] using ⟨h.settled, hsettled⟩
  · simpa [or_imp, forall_and] using ⟨hstanding.kept, hkept⟩
  · have hepoch : ∀ a ∈ turns, a.session.epoch = t.session.epoch := by
      intro a ha
      obtain ⟨last, hlast⟩ : ∃ last, turns.getLast? = some last :=
        Option.isSome_iff_exists.1 (List.getLast?_isSome.2 (List.ne_nil_of_mem ha))
      exact h.epoch_eq hlast hsession (by rw [hresumes, hlast]; rfl) a ha
    intro a ha b hb
    rcases List.mem_append.1 ha with ha | ha <;> rcases List.mem_append.1 hb with hb | hb
    · exact h.epochs a ha b hb
    · exact (hepoch a ha).trans (by rw [List.mem_singleton.1 hb])
    · exact (by rw [List.mem_singleton.1 ha] : a.session.epoch = t.session.epoch).trans
        (hepoch b hb).symm
    · rw [List.mem_singleton.1 ha, List.mem_singleton.1 hb]
  · intro _
    obtain ⟨now, hnow, hsame⟩ := commits_origin hbegin hsession
    obtain ⟨next, hnext, hsame'⟩ := commits_origin hfinalize hnow
    exact ⟨next, hnext, (hsame'.trans hsame).trans hsettled.origin⟩
  · intro last hlast
    rw [List.getLast?_concat] at hlast
    cases hlast
    refine hspoken.turn hsettled hecho hresumes (fun hmem => ?_) hstrict
    obtain ⟨a, ha, heq⟩ := List.mem_map.1 hmem
    obtain ⟨row, hrow, -⟩ := (h.kept a ha).attempt
    rw [heq, hnew] at hrow
    cases hrow

/-- Every conversation whose turns meet the two conditions stands. -/
theorem standing_conversation (h : Conversation state id db turns)
    (hecho : ∀ t ∈ turns, echoableTurn t) (hadvances : turns.IsChain advances) :
    Standing state id db turns := by
  induction h with
  | start limit =>
      refine { store := invariant_empty limit, complete := by simp [empty, Complete],
               settled := by simp, kept := by simp, epochs := by simp, origin := by simp,
               spoken := by simp }
  | other prior step ih => exact (ih hecho hadvances).other step
  | @turn db db' turns payload x t prior echoes resumes call ih =>
      have hprior := ih (fun a ha => hecho a (by simp [ha])) hadvances.left_of_append
      refine hprior.turn echoes resumes call (fun last hlast => ?_) (hecho t (by simp))
      obtain ⟨init, rfl⟩ := List.getLast?_eq_some_iff.1 hlast
      rw [List.append_assoc] at hadvances
      exact (List.isChain_cons_cons.1 hadvances.right_of_append).1

end Runs

/-- The session that stands at the last turn accepts the echo. -/
theorem Standing.accepts {state : GatewayState} {id : String} {db : SqliteStore}
    {turns : List Turn} {last : Turn} {s : Session} {fresh : List Json} {payload : Fields}
    (hstanding : Standing state id db turns)
    (hseal : ∀ nonce r e, state.runtime.protector.sealRecord nonce r = .ok e →
      state.runtime.protector.openRecord e = .ok r)
    (hbase64 : ∀ bytes, state.runtime.base64.decode (state.runtime.base64.encode bytes) =
      some bytes)
    (hlast : turns.getLast? = some last) (hs : db.sessions.get id = some s)
    (hhead : s.head = some last.attempt) (hfresh : ∀ item ∈ fresh, isReasoning item = false)
    (hinput : inputOf payload = some (last.raw ++ outputItems last.published ++ fresh)) :
    ∃ result, history state.runtime s payload db = (.ok (result,
        Assoc.insert "input" (.array (last.clean ++ last.output ++ fresh)) payload), db) ∧
      result.segments.entries = turns.map turnSegment := by
  have hspoken := (hstanding.spoken last hlast).fresh hfresh
  have hid : s.id = id := hstanding.store.keyed id s hs
  have hepoch := hstanding.epoch_eq hlast hs hhead
  obtain ⟨now, hnow, horigin⟩ := hstanding.origin (List.ne_nil_of_mem (List.mem_of_getLast? hlast))
  rw [hs] at hnow
  cases hnow
  refine history_complete hspoken hlast hhead hinput (fun t ht => ?_) (fun t ht => ?_)
  · have hsettled := hstanding.settled t ht
    obtain ⟨row, hrow, hsession, hrowEpoch, hfin⟩ := (hstanding.kept t ht).attempt
    obtain ⟨nonce, htoken⟩ := hsettled.token
    obtain ⟨schema, hfields⟩ := ReplayRecord.fields_fromNative hsettled.record
    have hresponse : t.record.fields.response = t.attempt := by rw [hfields]; rfl
    refine restoreRecord_of (by rw [hid]; exact hsettled.labelled) (by rw [hid]; exact hs)
      (hseal nonce _ _ htoken) ?_ ?_ ?_ (hresponse ▸ hrow) hfin (hsession.trans hid.symm)
      (hrowEpoch.trans (hepoch t ht)) (hresponse ▸ (hstanding.kept t ht).record)
    · rw [hfields, hid, ← hsettled.session]
      rfl
    · rw [hfields, ← hepoch t ht]
      rfl
    · rw [hfields, horigin, ← hsettled.origin]
      rfl
  · exact ReplayRecord.intoNormalized_fromNative hbase64 (hstanding.settled t ht).record

/-- The echo of a conversation is accepted for the session that stands at its last
turn, cleaned to the recorded items, and verified as exactly the turns so far. -/
theorem echo_round_trip (state : GatewayState) (id : String) (db : SqliteStore)
    (turns : List Turn) (last : Turn) (s : Session) (fresh : List Json) (payload : Fields)
    (hseal : ∀ nonce r e, state.runtime.protector.sealRecord nonce r = .ok e →
      state.runtime.protector.openRecord e = .ok r)
    (hbase64 : ∀ bytes, state.runtime.base64.decode (state.runtime.base64.encode bytes) =
      some bytes)
    (hrun : Conversation state id db turns) (hecho : ∀ t ∈ turns, echoableTurn t)
    (hadvances : turns.IsChain advances) (hlast : turns.getLast? = some last)
    (hs : db.sessions.get id = some s) (hhead : s.head = some last.attempt)
    (hfresh : ∀ item ∈ fresh, isReasoning item = false)
    (hinput : inputOf payload = some (last.raw ++ outputItems last.published ++ fresh)) :
    ∃ result, history state.runtime s payload db = (.ok (result,
        Assoc.insert "input" (.array (last.clean ++ last.output ++ fresh)) payload), db) ∧
      result.segments.entries = turns.map turnSegment :=
  (standing_conversation hrun hecho hadvances).accepts hseal hbase64 hlast hs hhead hfresh hinput

section Sample

def sampleOrigin : Origin where
  route := .object [("api", .string "messages")]
  realm := "realm"
  generation := "generation"

def sampleQuestion : Json := .object [
  ("content", .string "hi"), ("role", .string "user"), ("type", .string "message")]

def samplePayload : Fields := [("input", .array [sampleQuestion])]

/-- A reasoning item with a summary and these fields between its own. -/
def sampleThought (more : Fields) : Json := .object ([("id", .string "rs_1")] ++ more ++
  [("summary", .array [.object [("text", .string "plan"), ("type", .string "summary_text")]]),
    ("type", .string "reasoning")])

def sampleResponse (items : List Json) : Json := .object [("output", .array items)]

def sampleSession : Session where
  id := "s"
  epoch := 1
  revision := 1
  origin := sampleOrigin
  status := .ready
  head := none
  pendingTools := false
  portableSha256 := none

def sampleNative : NativeReplay := .messages 1 [.object []] (.object [])

def sampleRecord (sha256 : String → Digest) (output : List Json) : ReplayRecord := .v2 {
  schema := schemaV2, session := "s", epoch := 1, origin := sampleOrigin, response := "resp_a"
  parent := none, inputLen := 1
  inputSha256 := digest sha256 (normalized (.array [sampleQuestion])), output
  outcome := .completed, native := sampleNative }

def sampleToken : String := "arg-continuation-v2.key.000000000000000000000000.00"

/-- A protector that has sealed this one record. -/
def sampleProtector (r : ReplayRecord) : Protector where
  sealRecord := fun _ other => if other = r then .ok sampleToken else .error ⟨"encryption"⟩
  openRecord := fun e => if e = sampleToken then .ok r else .error ⟨"authentication"⟩

def sampleState (rt : Runtime) : GatewayState :=
  { runtime := rt, origin := sampleOrigin, maxResponseBytes := 4096 }

def sampleStore : SqliteStore :=
  { empty 1048576 with sessions := OrderedMap.empty.insert "s" sampleSession }

def inputSha256 : Digest := #v[
    0xcd, 0xfa, 0xaa, 0x35, 0x60, 0x8c, 0xc7, 0x9a, 0x40, 0x96, 0xb8, 0x41, 0xaf, 0xbc, 0x3e, 0xc0,
    0xa5, 0xa0, 0x5e, 0x60, 0xe6, 0x83, 0xdd, 0xc4, 0x03, 0x2c, 0x91, 0x25, 0xb9, 0x68, 0x60, 0x15]

def payloadSha256 : Digest := #v[
    0x0a, 0xe2, 0x67, 0x08, 0x48, 0xe5, 0x9c, 0xd8, 0x0a, 0x6c, 0xb0, 0xa4, 0xb0, 0xe1, 0x02, 0xed,
    0xce, 0x34, 0xe0, 0x44, 0x05, 0x67, 0xeb, 0x95, 0x68, 0xea, 0x32, 0x09, 0xea, 0x24, 0xd5, 0x9f]

def recordSha256 : Digest := #v[
    0xa7, 0x95, 0xdf, 0x67, 0x73, 0x7c, 0x38, 0x14, 0x16, 0xe9, 0x14, 0x53, 0xca, 0x36, 0xe9, 0x45,
    0x9f, 0x3b, 0xea, 0x34, 0xe8, 0x95, 0xf6, 0x34, 0x66, 0xfb, 0xbc, 0x41, 0x56, 0x57, 0xe3, 0x15]

def statusRecordSha256 : Digest := #v[
    0xf7, 0x2c, 0x75, 0xfb, 0xda, 0x7c, 0x33, 0xab, 0xf9, 0xd9, 0xea, 0x09, 0x7f, 0x43, 0x5f, 0x8c,
    0x08, 0x1a, 0x24, 0xc5, 0x08, 0x86, 0x53, 0x9f, 0x2e, 0xf6, 0x30, 0x46, 0x01, 0x13, 0x2b, 0x4b]

/-- SHA-256 on the texts of one turn. -/
def sampleSha256 (record : Digest) (text : String) : Digest :=
  if text = renderText (.array [sampleQuestion]) then inputSha256
  else if text = renderText (.object samplePayload) then payloadSha256
  else record

/-- Bytes as characters; no sample has provider state. -/
def sampleBase64 : Base64 where
  encode := fun bytes => String.ofList (bytes.data.toList.map fun b => Char.ofNat b.toNat)
  decode := fun text => some ⟨(text.toList.map fun c => UInt8.ofNat c.toNat).toArray⟩

theorem sampleBase64_inverse (bytes : ByteArray) :
    sampleBase64.decode (sampleBase64.encode bytes) = some bytes := by
  have hchar : ∀ n < 256, (Char.ofNat n).toNat = n := by decide +kernel
  have hbyte : ∀ b : UInt8, UInt8.ofNat (Char.ofNat b.toNat).toNat = b := by
    intro b
    rw [hchar b.toNat b.toNat_lt, UInt8.ofNat_toNat]
  have hlist : (bytes.data.toList.map fun b => Char.ofNat b.toNat).map
      (fun c => UInt8.ofNat c.toNat) = bytes.data.toList := by
    rw [List.map_map]
    exact (List.map_congr_left fun b _ => hbyte b).trans (List.map_id _)
  simp only [sampleBase64, String.toList_ofList, hlist, Array.toArray_toList]

theorem sampleProtector_inverse (r : ReplayRecord) (nonce : ByteArray) (other : ReplayRecord)
    (e : String) (h : (sampleProtector r).sealRecord nonce other = .ok e) :
    (sampleProtector r).openRecord e = .ok other := by
  simp only [sampleProtector] at h
  split at h
  · next heq =>
      cases h
      rw [heq]
      rfl
  · cases h

variable (base64 : Base64) (sha256 : String → Digest)

def sampleRuntime (output : List Json) : Runtime :=
  { protector := sampleProtector (sampleRecord sha256 output), sha256, base64 }

theorem validate_sampleRecord (output : List Json) :
    (sampleRecord sha256 output).validate base64 = .ok () := by
  have hsize := digest_size sha256 (normalized (.array [sampleQuestion]))
  have hhex : (digest sha256 (normalized (.array [sampleQuestion]))).toList.all isHexDigit =
      true := by
    rw [List.all_eq_true]
    intro c hc
    rw [isHexDigit, ← isLowerHex, digest_isLowerHex sha256 _ c hc, Bool.true_or]
  simp only [ReplayRecord.validate, sampleRecord, ReplayV2.validate, hsize, hhex]
  rfl

def sampleExchange (response : Value) : Exchange where
  uuid := "a"
  nonce := .empty
  admission := fun _ _ => .ok ()
  dispatch := fun _ _ => .ok { response, native := .builtin sampleNative, outcome := .completed }
  streamFits := fun _ => .ok ()

def sampleTurn (response : Value) (output : List Json) (published : Json) : Turn where
  session := sampleSession
  raw := [sampleQuestion]
  clean := [sampleQuestion]
  decoded := { response, native := .builtin sampleNative, outcome := .completed }
  output := output
  attempt := "resp_a"
  record := sampleRecord sha256 output
  token := sampleToken
  published := published

def sampleStoreBegun : SqliteStore :=
  { empty 1048576 with
    sessions := OrderedMap.empty.insert "s" { sampleSession with revision := 2, status := .pending }
    attempts := OrderedMap.empty.insert "resp_a"
      { session := "s", epoch := 1, inputDigest := digest sha256 (.object samplePayload),
        status := .pending, reserve := 4096 } }

/-- The store after the turn. -/
def sampleStoreAfter (output : List Json) : SqliteStore :=
  { sampleStoreBegun sha256 with
    sessions := (sampleStoreBegun sha256).sessions.insert "s"
      { sampleSession with revision := 3, head := some "resp_a" }
    attempts := (sampleStoreBegun sha256).attempts.insert "resp_a"
      { session := "s", epoch := 1, inputDigest := digest sha256 (.object samplePayload),
        status := .finalized, reserve := 4096 }
    records := OrderedMap.empty.insert "resp_a"
      { digest := digest sha256 (sampleRecord sha256 output).toJson, envelope := some sampleToken } }

theorem history_samplePayload (rt : Runtime) :
    history rt sampleSession samplePayload sampleStore = (.ok (.default, samplePayload), sampleStore) := by
  have hinput : inputOf samplePayload = some [sampleQuestion] := rfl
  exact (history_accepts hinput).2 ⟨[sampleQuestion], [], .init, rfl, rfl, rfl, rfl, rfl, rfl, rfl⟩

theorem begin_sample :
    begin "a" "s" 1 none (digest sha256 (.object samplePayload)) 4096 sampleStore =
      (.ok "resp_a", sampleStoreBegun sha256) := rfl

theorem finalize_sample (output : List Json) (fits : String → Except Error Unit)
    (hfits : fits sampleToken = .ok ()) :
    (sampleRuntime base64 sha256 output).finalizeChecked .empty (sampleRecord sha256 output) fits
      (sampleStoreBegun sha256) = (.ok sampleToken, sampleStoreAfter sha256 output) := by
  refine bind_accepts.2 ⟨(), _, rfl, check_bind_accepts.2 ⟨sampleToken, if_pos rfl, ?_⟩⟩
  refine check_bind_accepts.2 ⟨(), hfits, bind_accepts.2 ⟨(), sampleStoreAfter sha256 output, ?_, rfl⟩⟩
  have hpending : decide ((sampleRecord sha256 output).outcome = Outcome.awaitingTools) = false := rfl
  rw [hpending]
  have hfits : ¬ 4096 < sampleToken.utf8ByteSize := by decide
  refine transaction_accepts.2 (bind_accepts.2 ⟨_, _, rfl, bind_accepts.2 ⟨_, _, rfl, ?_⟩⟩)
  refine check_bind_accepts.2 ⟨(), ?_, bind_accepts.2 ⟨(), _, rfl, bind_accepts.2 ⟨(), _, rfl, ?_⟩⟩⟩
  · rw [rejectIf_ok]
    exact Bool.or_eq_false_iff.2 ⟨decide_eq_false hfits, rfl⟩
  rfl

theorem runTurn_sample {response : Value} {output : List Json} {published : Json}
    (houtput : publicOutput response.1 = some output)
    (hpublished : addEnvelope response.1 sampleToken = some published)
    (hsize : (renderText published).utf8ByteSize ≤ 4096) :
    runTurn (sampleState (sampleRuntime base64 sha256 output)) "s" samplePayload
      (sampleExchange response) sampleStore =
      (.ok (sampleTurn sha256 response output published), sampleStoreAfter sha256 output) := by
  refine bind_accepts.2 ⟨sampleSession, sampleStore, rfl, ?_⟩
  refine check_bind_accepts.2 ⟨(), rfl, check_bind_accepts.2 ⟨(), rfl, ?_⟩⟩
  refine bind_accepts.2 ⟨(.default, samplePayload), sampleStore, history_samplePayload _, ?_⟩
  refine check_bind_accepts.2 ⟨[sampleQuestion], rfl, check_bind_accepts.2 ⟨(), rfl, ?_⟩⟩
  refine bind_accepts.2 ⟨"resp_a", sampleStoreBegun sha256, rfl, ?_⟩
  refine check_bind_accepts.2 ⟨_, rfl, check_bind_accepts.2 ⟨output, okOr_ok.2 houtput, ?_⟩⟩
  refine check_bind_accepts.2 ⟨sampleRecord sha256 output, ?_, ?_⟩
  · exact Checked.mapError_ok.2 (bind_ok.2 ⟨(), rfl, bind_ok.2 ⟨(), validate_sampleRecord base64 sha256 output, rfl⟩⟩)
  refine bind_accepts.2 ⟨sampleToken, sampleStoreAfter sha256 output, mapError_accepts.2 (finalize_sample base64 sha256 output _ ?_), ?_⟩
  · refine bind_ok.2 ⟨(), ?_, rfl⟩
    rw [checkFinalSize, hpublished, okOr_some, bind_of_ok, rejectIf_ok]
    exact decide_eq_false (Nat.not_lt.2 hsize)
  · exact check_bind_accepts.2 ⟨published, okOr_ok.2 hpublished, rfl⟩

theorem conversation_sample {response : Value} {output : List Json} {published : Json}
    (houtput : publicOutput response.1 = some output)
    (hpublished : addEnvelope response.1 sampleToken = some published)
    (hsize : (renderText published).utf8ByteSize ≤ 4096) :
    Conversation (sampleState (sampleRuntime base64 sha256 output)) "s"
      (sampleStoreAfter sha256 output) [sampleTurn sha256 response output published] :=
  have created : Conversation (sampleState (sampleRuntime base64 sha256 output)) "s" sampleStore [] :=
    @Conversation.other _ _ _ _ _ (.create "s" sampleOrigin) _ (.start 1048576) rfl
  .turn created (by simp) rfl (runTurn_sample base64 sha256 houtput hpublished hsize)

def statusFields : Fields := [("status", .string "completed")]

def thoughtResponse : Value where
  val := sampleResponse [sampleThought []]
  property := by
    simp only [sampleResponse, sampleThought, Canonical, CanonicalItems, CanonicalFields,
      Assoc.Sorted, and_true, List.pairwise_cons, List.mem_cons, List.not_mem_nil, or_false,
      forall_eq_or_imp, forall_eq, List.Pairwise.nil, String.lt_iff_toList_lt, false_imp_iff,
      implies_true, List.cons_append, List.nil_append]
    decide

/-- The same response with a status on its reasoning item. -/
def statusResponse : Value where
  val := sampleResponse [sampleThought statusFields]
  property := by
    simp only [sampleResponse, sampleThought, statusFields, Canonical, CanonicalItems,
      CanonicalFields, Assoc.Sorted, and_true, List.pairwise_cons, List.mem_cons,
      List.not_mem_nil, or_false, forall_eq_or_imp, forall_eq, List.Pairwise.nil,
      String.lt_iff_toList_lt, false_imp_iff, implies_true, List.cons_append, List.nil_append]
    decide

def carryingThought (more : Fields) : Json :=
  setEnvelope sampleToken (sampleThought more)

theorem publish_thought : publicOutput thoughtResponse.1 = some [sampleThought []] ∧
    addEnvelope thoughtResponse.1 sampleToken = some (sampleResponse [carryingThought []]) :=
  ⟨rfl, rfl⟩

theorem publish_statusThought :
    publicOutput statusResponse.1 = some [sampleThought statusFields] ∧
      addEnvelope statusResponse.1 sampleToken =
        some (sampleResponse [carryingThought statusFields]) :=
  ⟨rfl, rfl⟩

theorem size_thought (more : Fields) (h : more = [] ∨ more = statusFields) :
    (renderText (sampleResponse [carryingThought more])).utf8ByteSize ≤ 4096 := by
  rw [renderText, utf8ByteSize_ofList]
  rcases h with rfl | rfl <;> decide +kernel

/-- The next request of a client that repeats the turn and adds a question. -/
def echoPayload (more : Fields) : Fields :=
  [("input", .array [sampleQuestion, carryingThought more, sampleQuestion])]

/-- The session after the turn. -/
def sampleSessionAfter : Session := { sampleSession with revision := 3, head := some "resp_a" }

def sampleEchoState (record : Digest) (output : List Json) : GatewayState :=
  sampleState (sampleRuntime sampleBase64 (sampleSha256 record) output)

end Sample

theorem echo_round_trip_thought : ∃ result,
    history (sampleEchoState recordSha256 [sampleThought []]).runtime sampleSessionAfter
        (echoPayload []) (sampleStoreAfter (sampleSha256 recordSha256) [sampleThought []]) =
      (.ok (result, [("input", .array [sampleQuestion, sampleThought [], sampleQuestion])]),
        sampleStoreAfter (sampleSha256 recordSha256) [sampleThought []]) ∧
      result.segments.entries = [(1, 2, .builtin sampleNative)] := by
  have hrun := conversation_sample sampleBase64 (sampleSha256 recordSha256) publish_thought.1
    publish_thought.2 (size_thought [] (.inl rfl))
  refine echo_round_trip (sampleEchoState recordSha256 [sampleThought []]) "s" _ _ _
    sampleSessionAfter [sampleQuestion] (echoPayload []) (sampleProtector_inverse _)
    sampleBase64_inverse hrun ?_ (List.isChain_singleton _) rfl rfl rfl ?_ rfl
  · intro t ht
    rw [List.mem_singleton.1 ht]
    unfold echoableTurn
    decide
  · decide

/-- A turn whose reasoning item has a status is published, and its echo is rejected. -/
theorem status_echo_rejected : ∃ t : Turn,
    (∀ nonce r e, (sampleEchoState statusRecordSha256
      [sampleThought statusFields]).runtime.protector.sealRecord nonce r = .ok e →
      (sampleEchoState statusRecordSha256
        [sampleThought statusFields]).runtime.protector.openRecord e = .ok r) ∧
    Conversation (sampleEchoState statusRecordSha256 [sampleThought statusFields]) "s"
      (sampleStoreAfter (sampleSha256 statusRecordSha256) [sampleThought statusFields]) [t] ∧
    t.decoded.response = statusResponse ∧
    (sampleStoreAfter (sampleSha256 statusRecordSha256)
      [sampleThought statusFields]).sessions.get "s" = some sampleSessionAfter ∧
    sampleSessionAfter.head = some t.attempt ∧
    inputOf (echoPayload statusFields) =
      some (t.raw ++ outputItems t.published ++ [sampleQuestion]) ∧
    history (sampleEchoState statusRecordSha256 [sampleThought statusFields]).runtime
        sampleSessionAfter (echoPayload statusFields)
        (sampleStoreAfter (sampleSha256 statusRecordSha256) [sampleThought statusFields]) =
      (.error rejected,
        sampleStoreAfter (sampleSha256 statusRecordSha256) [sampleThought statusFields]) := by
  have hrun := conversation_sample sampleBase64 (sampleSha256 statusRecordSha256)
    publish_statusThought.1 publish_statusThought.2 (size_thought statusFields (.inr rfl))
  exact ⟨_, sampleProtector_inverse _, hrun, rfl, rfl, rfl, rfl, rfl⟩

end ResponseGateway.Proxy
