import ResponseGateway.Continuation.Envelope

/-!
What an ideal cipher makes of the envelopes. The cipher opens what the protectors of
its keys have sealed and nothing else; then an accepted line is one that was sealed
under the same key, identity and version. Opening gives back the record itself when its
text can be read back, which the writer does not look at: nesting is bounded for the
reader only, and a parser writes some values in another way.
-/

namespace ResponseGateway.Continuation
open Checked Ir

variable {aead : Aead} {base64 : Base64}

/-- A call of `sealRecord`: the protector, the nonce it drew and the record. -/
abbrev SealCall (aead : Aead) : Type := KeyProtector aead × ByteArray × ReplayRecord

/-- What successful calls had the cipher seal. -/
def Produced (base64 : Base64) (calls : Set (SealCall aead)) (key : aead.Key)
    (nonce data plain cipher : ByteArray) : Prop :=
  ∃ q r, (q, nonce, r) ∈ calls ∧ (∃ e, q.sealRecord base64 nonce r = .ok e) ∧ q.key = key ∧
    q.aad r.version = data ∧ payload r = plain ∧
    aead.sealInPlace key nonce data plain = some cipher

/-- The cipher opens exactly what was sealed; a tag of sixteen bytes is appended. -/
structure Ideal (base64 : Base64) (calls : Set (SealCall aead)) : Prop where
  opens : ∀ {key nonce data cipher plain},
    aead.openInPlace key nonce data cipher = some plain ↔
      Produced base64 calls key nonce data plain cipher
  tag : ∀ {key nonce data plain cipher}, aead.sealInPlace key nonce data plain = some cipher →
    cipher.size = plain.size + 16

section Sealing

variable {p : KeyProtector aead} {nonce : ByteArray} {r : ReplayRecord} {e : String}

theorem sealRecord_ok :
    p.sealRecord base64 nonce r = .ok e ↔
      r.validate base64 = .ok () ∧ (payload r).size ≤ maxPayload ∧ nonce.size = 12 ∧
        ∃ cipher, aead.sealInPlace p.key nonce (p.aad r.version) (payload r) = some cipher ∧
          p.envelope r.version nonce cipher = e := by
  simp only [KeyProtector.sealRecord, bind_ok, rejectIf_ok, okOr_ok, pure_ok,
    decide_eq_false_iff_not, not_lt, ne_eq, not_not]
  constructor
  · rintro ⟨_, hvalid, _, hsize, _, hnonce, cipher, hcipher, rfl⟩
    exact ⟨hvalid, hsize, hnonce, cipher, hcipher, rfl⟩
  · rintro ⟨hvalid, hsize, hnonce, cipher, hcipher, rfl⟩
    exact ⟨(), hvalid, (), hsize, (), hnonce, cipher, hcipher, rfl⟩

/-- A valid record carries the schema of its version and a positive epoch. -/
theorem validate_schema (h : r.validate base64 = .ok ()) :
    r.version.schema = r.fields.schema ∧ 0 < r.fields.epoch := by
  cases r with
  | v1 replay =>
      simp only [ReplayRecord.validate, Replay.validate, bind_ok, rejectIf_ok,
        Bool.or_eq_false_iff, decide_eq_false_iff_not, ne_eq, not_not, not_le] at h
      obtain ⟨_, ⟨⟨⟨⟨hschema, hepoch⟩, -⟩, -⟩, -⟩, -⟩ := h
      exact ⟨hschema.symm, hepoch⟩
  | v2 replay =>
      simp only [ReplayRecord.validate, ReplayV2.validate, bind_ok, rejectIf_ok,
        Bool.or_eq_false_iff, decide_eq_false_iff_not, ne_eq, not_not, not_le] at h
      obtain ⟨_, ⟨⟨⟨hschema, hepoch⟩, -⟩, -⟩, -⟩ := h
      exact ⟨hschema.symm, hepoch⟩
  | v3 replay =>
      simp only [ReplayRecord.validate, ReplayV3.validate, bind_ok, rejectIf_ok,
        Bool.or_eq_false_iff, decide_eq_false_iff_not, ne_eq, not_not, not_le] at h
      obtain ⟨_, ⟨⟨⟨⟨⟨hschema, hepoch⟩, -⟩, -⟩, -⟩, -⟩, -⟩ := h
      exact ⟨hschema.symm, hepoch⟩

theorem hexText_size (bytes : ByteArray) : (hexText bytes).utf8ByteSize = 2 * bytes.size := by
  rw [hexText, utf8ByteSize_ofList, len_of_isLowerHex (hex_isLowerHex _), hex_length,
    Array.length_toList, ByteArray.size_data]

theorem label_size {value : String} (h : label value = .ok ()) : value.utf8ByteSize ≤ 128 := by
  simp only [label, rejectIf_ok, Bool.or_eq_false_iff, decide_eq_false_iff_not, not_lt] at h
  exact h.1.2

/-- A sealed line is within the bound of the reader. -/
theorem envelope_size (hpayload : (payload r).size ≤ maxPayload) (hnonce : nonce.size = 12)
    {cipher : ByteArray} (hcipher : cipher.size = (payload r).size + 16) :
    (p.envelope r.version nonce cipher).utf8ByteSize ≤ 2 * maxPayload + 1024 := by
  have hprefix : r.version.envelope.utf8ByteSize = 20 := by
    cases r.version <;> rfl
  have hid := label_size p.valid
  have hdot : ".".utf8ByteSize = 1 := rfl
  simp only [KeyProtector.envelope, String.utf8ByteSize_append, hexText_size, hprefix, hdot,
    hnonce, hcipher]
  omega

theorem parse_renderText {value : Json} :
    Json.parse 127 (renderText r.toJson).toList = some value ↔
      value = r.toJson ∧ r.toJson.nesting ≤ 127 := by
  rw [renderText, String.toList_ofList]
  exact Json.parse_render_iff

theorem fromUTF8_payload : String.fromUTF8? (payload r) = some (renderText r.toJson) :=
  dif_pos (renderText r.toJson).isValidUTF8

/-- The text of a record is read only within the bound on nesting. -/
theorem readPlain_nesting {version : ReplayVersion} {r' : ReplayRecord}
    (h : KeyProtector.readPlain base64 version (payload r) = .ok r') :
    r.toJson.nesting ≤ 127 := by
  simp only [KeyProtector.readPlain, bind_ok, okOr_ok, fromUTF8_payload, Option.some.injEq] at h
  obtain ⟨_, -, text, rfl, value, hread, -⟩ := h
  exact (parse_renderText.1 hread).2

/-- The text of a record is read back as the record exactly within the bound on nesting,
when its free-form values are as a parser keeps them. -/
theorem readPlain_payload (hr : r.InRange) (hvalid : r.validate base64 = .ok ())
    (hsize : (payload r).size ≤ maxPayload) :
    KeyProtector.readPlain base64 r.version (payload r) = .ok r ↔
      r.toJson.nesting ≤ 127 ∧ ∀ value ∈ r.values, Json.Settled value := by
  rw [← readRecord_iff hr (validate_schema hvalid).2]
  simp only [KeyProtector.readPlain, bind_ok, rejectIf_ok, okOr_ok, pure_ok,
    fromUTF8_payload, decide_eq_false_iff_not, not_lt, Option.some.injEq]
  constructor
  · rintro ⟨_, -, text, rfl, value, hread, replay, hrecord, _, -, _, -, _, -, rfl⟩
    obtain ⟨rfl, hnesting⟩ := parse_renderText.1 hread
    exact ⟨hnesting, hrecord⟩
  · rintro ⟨hnesting, hrecord⟩
    exact ⟨(), hsize, _, rfl, _, parse_renderText.2 ⟨rfl, hnesting⟩, r, hrecord, (), hvalid, (),
      by simp, (), by simp, rfl⟩

end Sealing

section Opening

variable {p q : KeyProtector aead} {e : String}

theorem aad_toList (version : ReplayVersion) :
    p.aad version =
      (String.ofList ((if version = .v1 then [] else version.envelope.toList) ++
        p.id.toList)).toUTF8 := by
  cases version <;> simp [KeyProtector.aad]

/-- The additional data determine the version and the identity of the key. -/
theorem aad_injective {version version' : ReplayVersion} (h : q.aad version = p.aad version') :
    version = version' ∧ q.id = p.id := by
  have hdot : ∀ {version : ReplayVersion} {rest : Text} {value : String},
      label value = .ok () → version.envelope.toList ++ rest ≠ value.toList := by
    intro version rest value hvalue heq
    have hmem : '.' ∈ version.envelope.toList := by cases version <;> decide
    exact label_dot hvalue (heq ▸ List.mem_append_left rest hmem)
  rw [aad_toList, aad_toList, String.toUTF8_eq_toByteArray, String.toUTF8_eq_toByteArray,
    String.toByteArray_inj, String.ofList_inj] at h
  by_cases hv : version = .v1
  · by_cases hv' : version' = .v1
    · rw [if_pos hv, if_pos hv', List.nil_append, List.nil_append, String.toList_inj] at h
      exact ⟨hv.trans hv'.symm, h⟩
    · rw [if_pos hv, if_neg hv', List.nil_append] at h
      exact (hdot q.valid h.symm).elim
  · by_cases hv' : version' = .v1
    · rw [if_neg hv, if_pos hv', List.nil_append] at h
      exact (hdot p.valid h).elim
    · rw [if_neg hv, if_neg hv'] at h
      obtain ⟨hversion, hid⟩ := List.append_inj h (by rw [envelope_length, envelope_length])
      exact ⟨envelope_injective hversion, String.toList_inj.1 hid⟩

theorem readRecord_version {version : ReplayVersion} {value : Json} {r : ReplayRecord}
    (h : readRecord version value = some r) : r.version = version := by
  cases version <;>
    · simp only [readRecord, Option.bind_eq_bind, Option.bind_eq_some_iff, Option.pure_def,
        Option.some.injEq] at h
      obtain ⟨-, -, -, -, -, -, -, -, rfl⟩ := h
      rfl

theorem readPlain_version {version : ReplayVersion} {plain : ByteArray} {r : ReplayRecord}
    (h : KeyProtector.readPlain base64 version plain = .ok r) : r.version = version := by
  simp only [KeyProtector.readPlain, bind_ok, okOr_ok, pure_ok] at h
  obtain ⟨_, -, _, -, value, -, replay, hrecord, _, -, _, -, _, -, rfl⟩ := h
  exact readRecord_version hrecord

/-- A line that opens was sealed under the same key, identity and version. -/
theorem openRecord_sound {calls : Set (SealCall aead)} (ideal : Ideal base64 calls)
    {r' : ReplayRecord} (h : p.openRecord base64 e = .ok r') :
    ∃ q nonce r cipher, (q, nonce, r) ∈ calls ∧ q.key = p.key ∧ q.id = p.id ∧
      r.version = r'.version ∧ q.sealRecord base64 nonce r = .ok e ∧
      e = r'.version.envelope ++ p.id ++ "." ++ hexText nonce ++ "." ++ hexText cipher := by
  simp only [KeyProtector.openRecord, bind_ok, okOr_ok] at h
  obtain ⟨⟨version, nonce, cipher⟩, hfields, plain, hopen, hread⟩ := h
  obtain ⟨rfl, hnonce, -⟩ := envelopeFields_iff.1 hfields
  obtain ⟨q, r, hcall, ⟨e', he'⟩, hkey, haad, hplain, hcipher⟩ := ideal.opens.1 hopen
  obtain ⟨hversion, hid⟩ := aad_injective haad
  obtain rfl := readPlain_version hread
  obtain ⟨hvalid, hsize, -, -⟩ := sealRecord_ok.1 he'
  refine ⟨q, nonce, r, cipher, hcall, hkey, hid, hversion, ?_, rfl⟩
  refine sealRecord_ok.2 ⟨hvalid, hsize, hnonce, cipher, ?_, ?_⟩
  · rw [hkey, haad, hplain]
    exact hcipher
  · rw [KeyProtector.envelope, KeyProtector.envelope, hversion, hid]

/-- Opening what was sealed reads the text of the record. -/
theorem openRecord_sealed {calls : Set (SealCall aead)} (ideal : Ideal base64 calls)
    {nonce : ByteArray} {r : ReplayRecord} (hcall : (p, nonce, r) ∈ calls)
    (h : p.sealRecord base64 nonce r = .ok e) :
    p.openRecord base64 e = KeyProtector.readPlain base64 r.version (payload r) := by
  obtain ⟨-, hsize, hnonce, cipher, hcipher, rfl⟩ := sealRecord_ok.1 h
  have hfields : p.envelopeFields (p.envelope r.version nonce cipher) =
      .ok (r.version, nonce, cipher) :=
    envelopeFields_iff.2 ⟨rfl, hnonce, envelope_size hsize hnonce (ideal.tag hcipher)⟩
  have hopen : aead.openInPlace p.key nonce (p.aad r.version) cipher = some (payload r) :=
    ideal.opens.2 ⟨p, r, hcall, ⟨_, h⟩, rfl, rfl, rfl, hcipher⟩
  rw [KeyProtector.openRecord, hfields, bind_of_ok]
  simp only [hopen, okOr_some, bind_of_ok]

end Opening

/-- What was sealed opens to the same record exactly when the text of the record can be
read back as it is; what opens was sealed under the same key, identity and version. -/
theorem envelope_round_trip (sha256 : String → Digest) {calls : Set (SealCall aead)}
    (ideal : Ideal base64 calls) :
    (∀ p nonce r e, (p, nonce, r) ∈ calls → r.InRange → p.sealRecord base64 nonce r = .ok e →
      ((∃ r', p.openRecord base64 e = .ok r' ∧ r' = r ∧
          digest sha256 r'.toJson = digest sha256 r.toJson) ↔
        r.toJson.nesting ≤ 127 ∧ ∀ value ∈ r.values, Json.Settled value)) ∧
    ∀ (p : KeyProtector aead) e r', p.openRecord base64 e = .ok r' →
      ∃ q nonce r cipher, (q, nonce, r) ∈ calls ∧ q.key = p.key ∧ q.id = p.id ∧
        r.version = r'.version ∧ q.sealRecord base64 nonce r = .ok e ∧
        e = r'.version.envelope ++ p.id ++ "." ++ hexText nonce ++ "." ++ hexText cipher := by
  refine ⟨fun p nonce r e hcall hr hseal => ?_, fun p e r' => openRecord_sound ideal⟩
  obtain ⟨hvalid, hsize, -, -⟩ := sealRecord_ok.1 hseal
  rw [openRecord_sealed ideal hcall hseal, ← readPlain_payload hr hvalid hsize]
  constructor
  · rintro ⟨r', hread, rfl, -⟩
    exact hread
  · intro hread
    exact ⟨r, hread, rfl, rfl⟩

section OneCall

/-- A cipher that appends an empty tag and opens one line. -/
def oneCall (nonce data plain : ByteArray) : Aead where
  Key := Unit
  sealInPlace _ _ _ plain := some ⟨plain.data ++ Array.replicate 16 0⟩
  openInPlace _ nonce' data' cipher :=
    if nonce' = nonce ∧ data' = data ∧ cipher = ⟨plain.data ++ Array.replicate 16 0⟩ then
      some plain
    else none

theorem oneCall_ideal {nonce data plain : ByteArray} {p : KeyProtector (oneCall nonce data plain)}
    {r : ReplayRecord} {e : String} (hdata : p.aad r.version = data) (hplain : payload r = plain)
    (hseal : p.sealRecord base64 nonce r = .ok e) : Ideal base64 {(p, nonce, r)} where
  opens := by
    intro key nonce' data' cipher plain'
    have hcipher : ∀ {plain' cipher : ByteArray},
        (oneCall nonce data plain).sealInPlace key nonce' data' plain' = some cipher ↔
          (⟨plain'.data ++ Array.replicate 16 0⟩ : ByteArray) = cipher := by
      intro plain' cipher
      exact ⟨Option.some.inj, congrArg some⟩
    simp only [Produced, hcipher, Set.mem_singleton_iff, Prod.mk.injEq]
    simp only [oneCall, Option.ite_none_right_eq_some, Option.some.injEq]
    constructor
    · rintro ⟨⟨rfl, rfl, rfl⟩, rfl⟩
      exact ⟨p, r, ⟨rfl, rfl, rfl⟩, ⟨e, hseal⟩, rfl, hdata, hplain, rfl⟩
    · rintro ⟨q, r', ⟨rfl, rfl, rfl⟩, -, -, rfl, rfl, rfl⟩
      exact ⟨⟨rfl, hdata, by rw [hplain]⟩, hplain.symm⟩
  tag := by
    intro key nonce' data' plain' cipher h
    obtain rfl : (⟨plain'.data ++ Array.replicate 16 0⟩ : ByteArray) = cipher :=
      Option.some.inj h
    simp only [ByteArray.size, Array.size_append, Array.size_replicate]

def sampleBase64 : Base64 where
  encode _ := ""
  decode _ := none

def sampleNonce : ByteArray := ⟨Array.replicate 12 0⟩

/-- An array around `null`, `n` deep. -/
def nestedArray : Nat → Json
  | 0 => .null
  | n + 1 => .array [nestedArray n]

/-- The record of a tool call with the given input. -/
def sampleRecord (input : Json) : ReplayRecord :=
  .v2 {
    schema := schemaV2, session := "s1", epoch := 1
    origin := { route := .object [], realm := "r", generation := "g" }
    response := "a1", parent := none, inputLen := 1
    inputSha256 := String.ofList (List.replicate 64 '0'), output := [], outcome := .awaitingTools
    native := .messages 1 [.object [("id", .string "c1"), ("input", .object [("x", input)]),
      ("name", .string "f"), ("type", .string "tool_use")]] (.object []) }

abbrev sampleAead (r : ReplayRecord) : Aead :=
  oneCall sampleNonce "arg-continuation-v2.k1".toUTF8 (payload r)

theorem label_sample : label "k1" = .ok () := by decide

def sampleProtector (r : ReplayRecord) : KeyProtector (sampleAead r) where
  key := ()
  id := "k1"
  valid := label_sample

variable {r : ReplayRecord}

theorem sample_seal (hvalid : r.validate sampleBase64 = .ok ())
    (hsize : (payload r).size ≤ maxPayload) :
    ∃ e, (sampleProtector r).sealRecord sampleBase64 sampleNonce r = .ok e :=
  ⟨_, sealRecord_ok.2 ⟨hvalid, hsize, by decide, _, rfl, rfl⟩⟩

theorem sample_payload (hsize : Text.len r.toJson.render ≤ maxPayload) :
    (payload r).size ≤ maxPayload := by
  rw [payload, String.toUTF8_eq_toByteArray, String.size_toByteArray, renderText,
    utf8ByteSize_ofList]
  exact hsize

/-- A record nested within the bound is read back. -/
theorem envelope_round_trip_sample :
    ∃ e, (sampleProtector (sampleRecord .null)).sealRecord sampleBase64 sampleNonce
        (sampleRecord .null) = .ok e ∧
      ∃ r', (sampleProtector (sampleRecord .null)).openRecord sampleBase64 e = .ok r' ∧
        r' = sampleRecord .null ∧
        digest (fun _ => .replicate 32 0) r'.toJson =
          digest (fun _ => .replicate 32 0) (sampleRecord .null).toJson := by
  obtain ⟨e, he⟩ := sample_seal (r := sampleRecord .null) (by decide +kernel)
    (sample_payload (by decide +kernel))
  have hideal := oneCall_ideal (p := sampleProtector (sampleRecord .null)) rfl rfl he
  refine ⟨e, he, ((envelope_round_trip _ hideal).1 _ _ _ e rfl ?_ he).2 ⟨by decide +kernel, ?_⟩⟩
  · exact ⟨⟨by decide, by decide, by decide⟩, by decide⟩
  · simp only [ReplayRecord.values, sampleRecord, nativeValues, List.append_nil,
      List.cons_append, List.nil_append, List.forall_mem_cons, Json.Settled, Json.SettledFields,
      Assoc.Sorted, List.pairwise_cons, List.Pairwise.nil, String.lt_iff_toList_lt,
      List.not_mem_nil, false_imp_iff, implies_true, and_true]
    decide

/-- A tool input at the nesting limit of a provider's body is sealed and cannot be opened. -/
theorem envelope_round_trip_nested :
    ∃ e, (sampleProtector (sampleRecord (nestedArray 123))).sealRecord sampleBase64 sampleNonce
        (sampleRecord (nestedArray 123)) = .ok e ∧
      Ideal sampleBase64 {(sampleProtector (sampleRecord (nestedArray 123)), sampleNonce,
        sampleRecord (nestedArray 123))} ∧
      ∀ r', (sampleProtector (sampleRecord (nestedArray 123))).openRecord sampleBase64 e ≠
        .ok r' := by
  obtain ⟨e, he⟩ := sample_seal (r := sampleRecord (nestedArray 123)) (by decide +kernel)
    (sample_payload (by decide +kernel))
  have hideal :=
    oneCall_ideal (p := sampleProtector (sampleRecord (nestedArray 123))) rfl rfl he
  refine ⟨e, he, hideal, fun r' hopen => ?_⟩
  rw [openRecord_sealed hideal rfl he] at hopen
  have hnesting := readPlain_nesting hopen
  rw [(by decide +kernel : (sampleRecord (nestedArray 123)).toJson.nesting = 128)] at hnesting
  omega

end OneCall

end ResponseGateway.Continuation
