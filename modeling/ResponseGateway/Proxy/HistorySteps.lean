import ResponseGateway.Library.Chain
import ResponseGateway.Proxy.Managed

/-!
What an accepted step of `history` says: of the loop over the items, of the loop
over the envelopes, and of the function as a whole. Both directions of the result
on histories argue from these statements.
-/

namespace ResponseGateway.Proxy
open Checked Method Json Ir Continuation SqliteStore Chain Continuation.Runtime

theorem mapError_accepts {α : Type} {e : ApiError} {m : Operation α} {db db' : SqliteStore}
    {a : α} : mapError e m db = (.ok a, db') ↔ m db = (.ok a, db') := by
  unfold mapError
  split
  · next h => simp [h]
  · next h => simp [h]

theorem normalizedItems_eq (items : List Json) : normalizedItems items = items.map normalized := by
  induction items with
  | nil => rfl
  | cons item rest ih => rw [normalizedItems, ih, List.map_cons]

section Cleaning

theorem scan_cons_ok {item : Json} {rest clean : List Json} {tokens : List String} :
    scan (item :: rest) = .ok (clean, tokens) ↔ ∃ kept token clean' tokens',
      readItem item = .ok (kept, token) ∧ scan rest = .ok (clean', tokens') ∧
      clean = kept.toList ++ clean' ∧ tokens = token.toList ++ tokens' := by
  simp only [scan, bind_ok, pure_ok, Prod.exists, Prod.mk.injEq]
  constructor
  · rintro ⟨kept, token, hitem, clean', tokens', hrest, rfl, rfl⟩
    exact ⟨kept, token, clean', tokens', hitem, hrest, rfl, rfl⟩
  · rintro ⟨kept, token, clean', tokens', hitem, hrest, rfl, rfl⟩
    exact ⟨kept, token, hitem, clean', tokens', hrest, rfl, rfl⟩

theorem scan_append {items more clean clean' : List Json} {tokens tokens' : List String}
    (h : scan items = .ok (clean, tokens)) (hmore : scan more = .ok (clean', tokens')) :
    scan (items ++ more) = .ok (clean ++ clean', tokens ++ tokens') := by
  induction items generalizing clean tokens with
  | nil =>
      cases h
      exact hmore
  | cons item rest ih =>
      obtain ⟨kept, token, c, t, hitem, hrest, rfl, rfl⟩ := scan_cons_ok.1 h
      exact scan_cons_ok.2 ⟨kept, token, _, _, hitem, ih hrest, by simp, by simp⟩

theorem readItem_plain {item : Json} (h : isReasoning item = false) :
    readItem item = .ok (some item, none) := by
  rw [readItem, h]
  rfl

/-- Items that are not reasoning stay as they are. -/
theorem scan_plain {items : List Json} (h : ∀ item ∈ items, isReasoning item = false) :
    scan items = .ok (items, []) := by
  induction items with
  | nil => rfl
  | cons item rest ih =>
      exact scan_cons_ok.2 ⟨some item, none, rest, [], readItem_plain (h item (by simp)),
        ih fun other hother => h other (by simp [hother]), by simp, rfl⟩

/-- The envelope an input item carries. -/
def envelopeOf (item : Json) : Option String :=
  if isReasoning item then item.fieldStr "encrypted_content" else none

theorem readEnvelope_ok {item : Json} {summary : List Json} {token : Option String}
    (h : readEnvelope item summary = .ok token) : token = item.fieldStr "encrypted_content" := by
  unfold readEnvelope at h
  split at h
  · next value hvalue =>
      simp only [bind_ok, okOr_ok, pure_ok, asStr_eq_some] at h
      obtain ⟨text, rfl, rfl⟩ := h
      have hfield := (Option.filter_eq_some_iff.1 hvalue).1
      simp [fieldStr, hfield, asStr]
  · next hnone =>
      simp only [bind_ok, pure_ok] at h
      obtain ⟨_, -, rfl⟩ := h
      rw [Option.filter_eq_none_iff] at hnone
      cases hfield : item.field "encrypted_content" with
      | none => simp [fieldStr, hfield]
      | some value =>
          have hnull := hnone value hfield
          cases value <;> simp [isNull] at hnull
          simp [fieldStr, hfield, asStr]

theorem readItem_envelope {item : Json} {kept : Option Json} {token : Option String}
    (h : readItem item = .ok (kept, token)) : token = envelopeOf item := by
  unfold readItem at h
  rw [envelopeOf]
  split at h
  · next hreasoning =>
      simp only [readReasoning, bind_ok, pure_ok, Prod.mk.injEq] at h
      obtain ⟨fields, -, _, -, _, -, summary, -, _, -, token, htoken, -, rfl⟩ := h
      rw [if_pos hreasoning, readEnvelope_ok htoken]
  · next hreasoning =>
      cases h
      rw [if_neg hreasoning]

theorem scan_envelopes {items clean : List Json} {tokens : List String}
    (h : scan items = .ok (clean, tokens)) : tokens = items.filterMap envelopeOf := by
  induction items generalizing clean tokens with
  | nil =>
      cases h
      rfl
  | cons item rest ih =>
      obtain ⟨kept, token, c, t, hitem, hrest, -, rfl⟩ := scan_cons_ok.1 h
      rw [List.filterMap_cons, ← readItem_envelope hitem, ← ih hrest]
      cases token <;> rfl

end Cleaning

section Verification

variable {rt : Runtime} {s : Session} {clean : List Json} {db db' : SqliteStore}

theorem verifyToken_accepts {state state' : Verified} {token : String} :
    verifyToken rt s clean state token db = (.ok state', db') ↔ ∃ record replay,
      rt.restoreRecord s token db = (.ok record, db') ∧
      record.intoNormalized rt.base64 = .ok replay ∧ admits rt clean state replay = true ∧
      state' = state.push replay := by
  constructor
  · intro h
    obtain ⟨record, _, hrestore, h⟩ := bind_accepts.1 h
    obtain ⟨replay, hreplay, h⟩ := check_bind_accepts.1 h
    obtain ⟨_, hadmits, h⟩ := check_bind_accepts.1 h
    obtain ⟨rfl, rfl⟩ := pure_accepts.1 h
    exact ⟨record, replay, mapError_accepts.1 hrestore, Checked.mapError_ok.1 hreplay,
      by simpa using hadmits, rfl⟩
  · rintro ⟨record, replay, hrestore, hreplay, hadmits, rfl⟩
    exact bind_accepts.2 ⟨record, db', mapError_accepts.2 hrestore,
      check_bind_accepts.2 ⟨replay, Checked.mapError_ok.2 hreplay,
        check_bind_accepts.2 ⟨(), by simp [hadmits], rfl⟩⟩⟩

theorem verifyTokens_cons_accepts {state state' : Verified} {token : String}
    {rest : List String} :
    verifyTokens rt s clean state (token :: rest) db = (.ok state', db') ↔ ∃ mid db₁,
      verifyToken rt s clean state token db = (.ok mid, db₁) ∧
      verifyTokens rt s clean mid rest db₁ = (.ok state', db') := by
  rw [verifyTokens, bind_accepts]

/-- Where every record has its envelope, verification only reads the store. -/
theorem verifyTokens_keeps (hcomplete : Complete db) {state state' : Verified}
    {tokens : List String} (h : verifyTokens rt s clean state tokens db = (.ok state', db')) :
    db' = db := by
  induction tokens generalizing state with
  | nil => exact (pure_accepts.1 h).2.symm
  | cons token rest ih =>
      obtain ⟨mid, _, htoken, hrest⟩ := verifyTokens_cons_accepts.1 h
      obtain ⟨_, _, hrestore, -⟩ := verifyToken_accepts.1 htoken
      obtain ⟨_, _, _, _, -, -, -, -, -, -, -, -, -, -, -, -, -, rfl⟩ :=
        restoreRecord_accepts hcomplete hrestore
      exact ih hrest

/-- Once a record is verified there is a previous one. -/
theorem verifyTokens_previous {state state' : Verified} {tokens : List String}
    (h : verifyTokens rt s clean state tokens db = (.ok state', db'))
    (hsome : state.previous.isSome = true) : state'.previous.isSome = true := by
  induction tokens generalizing state db with
  | nil =>
      obtain ⟨rfl, -⟩ := pure_accepts.1 h
      exact hsome
  | cons token rest ih =>
      obtain ⟨mid, _, htoken, hrest⟩ := verifyTokens_cons_accepts.1 h
      obtain ⟨_, _, -, -, -, rfl⟩ := verifyToken_accepts.1 htoken
      exact ih hrest rfl

theorem admits_iff {state : Verified} {replay : NormalizedReplay} :
    admits rt clean state replay = true ↔ replay.response ∉ state.seen ∧
      replay.parent = state.previous ∧ state.lastEnd ≤ replay.inputLen ∧
      stopOf replay ≤ clean.length ∧ inputDigest rt (clean.take replay.inputLen) = replay.inputSha256 ∧
      (spanOf clean replay).map normalized = replay.output.map normalized ∧
      state.segments.get replay.inputLen = none := by
  simp [admits, and_assoc]

/-- A record lies in the input where it says, after normalization. -/
structure Placed (rt : Runtime) (clean : List Json) (replay : NormalizedReplay) : Prop where
  inside : stopOf replay ≤ clean.length
  before : inputDigest rt (clean.take replay.inputLen) = replay.inputSha256
  span : (spanOf clean replay).map normalized = replay.output.map normalized

def segmentOf (replay : NormalizedReplay) : Nat × Nat × NativeState :=
  (replay.inputLen, stopOf replay, replay.native)

/-- The state of the loop after these records: the loop invariant. -/
structure Traced (rt : Runtime) (clean : List Json) (replays : List NormalizedReplay)
    (state : Verified) : Prop where
  entries : state.segments.entries = replays.map segmentOf
  chained : Chained NormalizedReplay.response NormalizedReplay.parent none replays state.previous
  seen : ∀ a, a ∈ state.seen ↔ a ∈ replays.map (·.response)
  distinct : (replays.map (·.response)).Nodup
  ordered : replays.Pairwise fun a b => stopOf a ≤ b.inputLen
  ended : ∀ r ∈ replays, stopOf r ≤ state.lastEnd
  reached : state.lastEnd = 0 ∨ ∃ r ∈ replays, state.lastEnd = stopOf r
  placed : ∀ r ∈ replays, Placed rt clean r

theorem traced_init : Traced rt clean [] .init where
  entries := rfl
  chained := rfl
  seen := by simp [Verified.init]
  distinct := List.nodup_nil
  ordered := List.Pairwise.nil
  ended := by simp
  reached := .inl rfl
  placed := by simp

theorem Traced.push {replays : List NormalizedReplay} {state : Verified}
    {replay : NormalizedReplay} (h : Traced rt clean replays state)
    (hadmits : admits rt clean state replay = true) :
    Traced rt clean (replays ++ [replay]) (state.push replay) := by
  obtain ⟨hnew, hparent, hstart, hinside, hbefore, hspan, hkey⟩ := admits_iff.1 hadmits
  have hnotMem : replay.response ∉ replays.map (·.response) := fun hmem => hnew ((h.seen _).2 hmem)
  have hended : ∀ r ∈ replays, stopOf r ≤ replay.inputLen :=
    fun r hr => (h.ended r hr).trans hstart
  constructor
  · have hlast : ∀ entry ∈ state.segments.entries, entry.1 < replay.inputLen := by
      intro entry hentry
      refine lt_of_le_of_ne ?_ (Assoc.get_eq_none.1 hkey entry hentry)
      rw [h.entries] at hentry
      obtain ⟨r, hr, rfl⟩ := List.mem_map.1 hentry
      exact (Nat.le_add_right _ _).trans (hended r hr)
    change Assoc.insert _ _ _ = _
    rw [Assoc.insert_last _ hlast, h.entries, List.map_append]
    rfl
  · exact chained_snoc h.chained hparent
  · intro a
    rw [List.map_append, List.mem_append, or_comm]
    simp only [Verified.push, List.mem_cons, h.seen a, List.map_cons, List.map_nil,
      List.not_mem_nil, or_false]
  · rw [List.map_append, List.nodup_append]
    refine ⟨h.distinct, by simp, fun a ha b hb => ?_⟩
    obtain rfl := List.mem_singleton.1 hb
    rintro rfl
    exact hnotMem ha
  · refine List.pairwise_append.2 ⟨h.ordered, by simp, fun r hr b hb => ?_⟩
    obtain rfl := List.mem_singleton.1 hb
    exact hended r hr
  · intro r hr
    rcases List.mem_append.1 hr with hr | hr
    · exact (hended r hr).trans (Nat.le_add_right _ _)
    · obtain rfl := List.mem_singleton.1 hr
      exact le_rfl
  · exact .inr ⟨replay, by simp, rfl⟩
  · intro r hr
    rcases List.mem_append.1 hr with hr | hr
    · exact h.placed r hr
    · obtain rfl := List.mem_singleton.1 hr
      exact ⟨hinside, hbefore, hspan⟩

end Verification

section Whole

variable {rt : Runtime} {s : Session} {payload payload' : Fields} {db db' : SqliteStore}
  {result : VerifiedProviderHistory}

/-- Every check of an accepted history over an input that is a list. -/
theorem history_accepts {input : List Json} (hinput : inputOf payload = some input) :
    history rt s payload db = (.ok (result, payload'), db') ↔ ∃ clean tokens state,
      scan input = .ok (clean, tokens) ∧
      verifyTokens rt s clean .init tokens db = (.ok state, db') ∧ state.previous = s.head ∧
      covered clean state.segments = true ∧ portableAccepted rt s clean = true ∧
      result = ⟨state.segments⟩ ∧ payload' = Assoc.insert "input" (.array clean) payload := by
  rw [history, hinput]
  constructor
  · intro h
    obtain ⟨⟨clean, tokens⟩, hscan, h⟩ := check_bind_accepts.1 h
    obtain ⟨state, _, hverify, h⟩ := bind_accepts.1 h
    obtain ⟨_, hprevious, h⟩ := check_bind_accepts.1 h
    obtain ⟨_, hcovered, h⟩ := check_bind_accepts.1 h
    obtain ⟨_, hportable, h⟩ := check_bind_accepts.1 h
    obtain ⟨heq, rfl⟩ := pure_accepts.1 h
    cases heq
    exact ⟨clean, tokens, state, hscan, hverify, by simpa using hprevious,
      by simpa using hcovered, by simpa using hportable, rfl, rfl⟩
  · rintro ⟨clean, tokens, state, hscan, hverify, hprevious, hcovered, hportable, rfl, rfl⟩
    refine check_bind_accepts.2 ⟨(clean, tokens), hscan, bind_accepts.2 ⟨state, db', hverify, ?_⟩⟩
    refine check_bind_accepts.2 ⟨(), by simp [hprevious], ?_⟩
    refine check_bind_accepts.2 ⟨(), by simp [hcovered], ?_⟩
    exact check_bind_accepts.2 ⟨(), by simp [hportable], rfl⟩

theorem history_accepts_other (hinput : inputOf payload = none) :
    history rt s payload db = (.ok (result, payload'), db') ↔
      s.head = none ∧ result = .default ∧ payload' = payload ∧ db' = db := by
  simp only [history, hinput, check_bind_accepts, rejectIf_ok, pure_accepts, Prod.mk.injEq,
    Option.isSome_eq_false_iff, Option.isNone_iff_eq_none]
  constructor
  · rintro ⟨_, hhead, ⟨rfl, rfl⟩, rfl⟩
    exact ⟨hhead, rfl, rfl, rfl⟩
  · rintro ⟨hhead, rfl, rfl, rfl⟩
    exact ⟨(), hhead, ⟨rfl, rfl⟩, rfl⟩

theorem history_keeps (hcomplete : Complete db)
    (h : history rt s payload db = (.ok (result, payload'), db')) : db' = db := by
  cases hinput : inputOf payload with
  | none => exact ((history_accepts_other hinput).1 h).2.2.2
  | some input =>
      obtain ⟨_, _, _, -, hverify, -⟩ := (history_accepts hinput).1 h
      exact verifyTokens_keeps hcomplete hverify

theorem inputOf_insert (clean : List Json) :
    inputOf (Assoc.insert "input" (.array clean) payload) = some clean := by
  rw [inputOf, Assoc.get_insert, if_pos rfl]
  rfl

theorem covered_iff {clean : List Json} {segments : OrderedMap Nat (Nat × NativeState)} :
    covered clean segments = true ↔ ∀ (i : Nat) (item : Json), clean[i]? = some item →
      isReasoning item = true → ∃ entry ∈ segments.entries, entry.1 ≤ i ∧ i < entry.2.1 := by
  simp only [covered, List.all_eq_true, Prod.forall, List.mk_mem_zipIdx_iff_getElem?,
    Bool.or_eq_true, Bool.not_eq_true', List.any_eq_true, Bool.and_eq_true, decide_eq_true_eq]
  constructor
  · intro h i item hitem hreasoning
    rcases h item i hitem with hplain | hspan
    · rw [hreasoning] at hplain
      cases hplain
    · exact hspan
  · intro h item i hitem
    cases hreasoning : isReasoning item with
    | false => exact .inl rfl
    | true => exact .inr (h i item hitem hreasoning)

end Whole

end ResponseGateway.Proxy
