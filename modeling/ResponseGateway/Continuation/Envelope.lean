import ResponseGateway.Continuation.ReplayReading
import ResponseGateway.Continuation.Runtime

/-!
`continuation::Protector`. A sealed record is one line of text: the prefix of its
version, the key identity, the nonce and the ciphertext, between dots. Versions and
key identities are authenticated through the additional data, and nothing of the line
is read loosely, so it is determined by what was sealed. The cipher belongs to another
crate and is a parameter; a nonce that is not of twelve bytes stands for a failure of
the random source.
-/

namespace ResponseGateway.Continuation
open Checked Ir

def maxPayload : Nat := 2 * 1024 * 1024

def envelopePrefix : String := "arg-continuation-v1."
def envelopeV2 : String := "arg-continuation-v2."
def envelopeV3 : String := "arg-continuation-v3."

namespace ReplayVersion

def envelope : ReplayVersion → String
  | v1 => envelopePrefix
  | v2 => envelopeV2
  | v3 => envelopeV3

def schema : ReplayVersion → String
  | v1 => schemaV1
  | v2 => schemaV2
  | v3 => schemaV3

/-- The version an envelope starts with. -/
def ofEnvelope (envelope : Text) : Option ReplayVersion :=
  if envelopePrefix.toList.isPrefixOf envelope then some v1
  else if envelopeV2.toList.isPrefixOf envelope then some v2
  else if envelopeV3.toList.isPrefixOf envelope then some v3
  else none

end ReplayVersion

section Hexadecimal

def hexText (bytes : ByteArray) : String := String.ofList (hex bytes.data.toList)

def hexDigitValue (c : Char) : Nat :=
  if c.isDigit then c.toNat - '0'.toNat else c.toNat - 'a'.toNat + 10

/-- The bytes of pairs of digits. -/
def hexPairs : Text → List UInt8
  | high :: low :: rest => UInt8.ofNat (16 * hexDigitValue high + hexDigitValue low) :: hexPairs rest
  | _ => []

def unhex (text : Text) : Except Error ByteArray := do
  rejectIf (text.len % 2 ≠ 0 || !text.all isLowerHex) ⟨"hex encoding"⟩
  return ⟨(hexPairs text).toArray⟩

end Hexadecimal

/-- AES-256-GCM: sealing under a key with a nonce and additional data, and opening. -/
structure Aead where
  Key : Type
  sealInPlace : Key → ByteArray → ByteArray → ByteArray → Option ByteArray
  openInPlace : Key → ByteArray → ByteArray → ByteArray → Option ByteArray

/-- A key and its identity. -/
structure KeyProtector (aead : Aead) where
  key : aead.Key
  id : String
  valid : label id = .ok ()

/-- The bytes that are sealed. -/
def payload (r : ReplayRecord) : ByteArray := (renderText r.toJson).toUTF8

namespace KeyProtector

variable {aead : Aead} (base64 : Base64) (p : KeyProtector aead)

def aad : ReplayVersion → ByteArray
  | .v1 => p.id.toUTF8
  | version => (version.envelope ++ p.id).toUTF8

def envelope (version : ReplayVersion) (nonce cipher : ByteArray) : String :=
  version.envelope ++ p.id ++ "." ++ hexText nonce ++ "." ++ hexText cipher

def sealRecord (nonce : ByteArray) (r : ReplayRecord) : Except Error String := do
  r.validate base64
  rejectIf (maxPayload < (payload r).size) ⟨"payload limit"⟩
  rejectIf (nonce.size ≠ 12) ⟨"randomness"⟩
  let cipher ← okOr (aead.sealInPlace p.key nonce (p.aad r.version) (payload r)) ⟨"encryption"⟩
  return p.envelope r.version nonce cipher

/-- The version, the nonce and the ciphertext of an envelope for this key. -/
def envelopeFields (envelope : String) : Except Error (ReplayVersion × ByteArray × ByteArray) := do
  let version ← okOr (ReplayVersion.ofEnvelope envelope.toList) ⟨"envelope version"⟩
  rejectIf (2 * maxPayload + 1024 < envelope.utf8ByteSize) ⟨"payload limit"⟩
  let fields := (envelope.toList.drop version.envelope.toList.length).splitOn '.'
  rejectIf (fields[0]? ≠ some p.id.toList) ⟨"key identity"⟩
  let nonce ← unhex (← okOr fields[1]? ⟨"envelope"⟩)
  rejectIf (nonce.size ≠ 12) ⟨"nonce"⟩
  let cipher ← unhex (← okOr fields[2]? ⟨"envelope"⟩)
  rejectIf fields[3]?.isSome ⟨"envelope"⟩
  return (version, nonce, cipher)

/-- The record in an authenticated plaintext. -/
def readPlain (version : ReplayVersion) (plain : ByteArray) : Except Error ReplayRecord := do
  rejectIf (maxPayload < plain.size) ⟨"payload limit"⟩
  let text ← okOr (String.fromUTF8? plain) ⟨"replay format"⟩
  let value ← okOr (Json.parse 127 text.toList) ⟨"replay format"⟩
  let replay ← okOr (readRecord version value) ⟨"replay format"⟩
  replay.validate base64
  rejectIf (replay.version.schema ≠ version.schema) ⟨"replay version mismatch"⟩
  rejectIf (version = .v3 && payload replay ≠ plain) ⟨"noncanonical provider replay"⟩
  return replay

def openRecord (envelope : String) : Except Error ReplayRecord := do
  let (version, nonce, cipher) ← p.envelopeFields envelope
  let plain ← okOr (aead.openInPlace p.key nonce (p.aad version) cipher) ⟨"authentication"⟩
  readPlain base64 version plain

/-- The protector of a runtime. -/
def toProtector : Protector where
  sealRecord := p.sealRecord base64
  openRecord := p.openRecord base64

end KeyProtector

section Texts

theorem hexDigitValue_digitChar : ∀ n < 16, hexDigitValue (Nat.digitChar n) = n := by decide

theorem digitChar_hexDigitValue {c : Char} (h : isLowerHex c = true) :
    hexDigitValue c < 16 ∧ Nat.digitChar (hexDigitValue c) = c := by
  have hsmall : c.toNat < 128 := by
    have hsize := isLowerHex_size h
    rw [Char.utf8Size_eq_one_iff] at hsize
    exact Nat.lt_succ_of_le (UInt32.le_iff_toNat_le.1 hsize)
  have hall : ∀ n < 128, isLowerHex (Char.ofNat n) = true →
      hexDigitValue (Char.ofNat n) < 16 ∧
        Nat.digitChar (hexDigitValue (Char.ofNat n)) = Char.ofNat n := by decide
  have hvalue := hall c.toNat hsmall
  rw [Char.ofNat_toNat] at hvalue
  exact hvalue h

theorem hexPairs_hex (bytes : List UInt8) : hexPairs (hex bytes) = bytes := by
  induction bytes with
  | nil => rfl
  | cons b rest ih =>
      have hb : b.toNat < 256 := b.toNat_lt
      rw [hex, List.flatMap_cons, ← hex]
      simp only [List.cons_append, List.nil_append, hexPairs, ih,
        hexDigitValue_digitChar _ (by omega : b.toNat / 16 < 16),
        hexDigitValue_digitChar _ (by omega : b.toNat % 16 < 16)]
      rw [Nat.div_add_mod, UInt8.ofNat_toNat]

theorem hex_hexPairs {text : Text} (heven : text.length % 2 = 0)
    (hdigits : ∀ c ∈ text, isLowerHex c = true) : hex (hexPairs text) = text := by
  induction text using hexPairs.induct with
  | case1 high low rest ih =>
      rw [List.forall_mem_cons, List.forall_mem_cons] at hdigits
      obtain ⟨hhigh, hcharHigh⟩ := digitChar_hexDigitValue hdigits.1
      obtain ⟨hlow, hcharLow⟩ := digitChar_hexDigitValue hdigits.2.1
      simp only [List.length_cons] at heven
      rw [hexPairs, hex, List.flatMap_cons, ← hex, ih (by omega) hdigits.2.2]
      have hvalue : (UInt8.ofNat (16 * hexDigitValue high + hexDigitValue low)).toNat =
          16 * hexDigitValue high + hexDigitValue low := by
        rw [UInt8.toNat_ofNat']
        omega
      rw [hvalue, Nat.mul_add_div (by decide), Nat.div_eq_of_lt hlow, Nat.mul_add_mod,
        Nat.mod_eq_of_lt hlow, Nat.add_zero, hcharHigh, hcharLow]
      rfl
  | case2 text hshort =>
      cases text with
      | nil => rfl
      | cons high rest =>
          cases rest with
          | nil => simp at heven
          | cons low rest => exact (hshort high low rest rfl).elim

theorem unhex_iff {text : Text} {bytes : ByteArray} :
    unhex text = .ok bytes ↔ text = hex bytes.data.toList := by
  simp only [unhex, bind_ok, rejectIf_ok, pure_ok, Bool.or_eq_false_iff, decide_eq_false_iff_not,
    ne_eq, not_not, Bool.not_eq_false', List.all_eq_true]
  constructor
  · rintro ⟨_, ⟨heven, hdigits⟩, rfl⟩
    rw [len_of_isLowerHex hdigits] at heven
    exact (hex_hexPairs heven hdigits).symm
  · rintro rfl
    have hdigits := hex_isLowerHex bytes.data.toList
    refine ⟨(), ⟨?_, hdigits⟩, ?_⟩
    · rw [len_of_isLowerHex hdigits, hex_length, Nat.mul_mod_right]
    · rw [hexPairs_hex]

end Texts

section Fields

theorem envelope_length (version : ReplayVersion) : version.envelope.toList.length = 20 := by
  cases version <;> rfl

theorem envelope_injective {version version' : ReplayVersion}
    (h : version.envelope.toList = version'.envelope.toList) : version = version' := by
  cases version <;> cases version' <;> first | rfl | exact absurd h (by decide)

theorem ofEnvelope_iff {text : Text} {version : ReplayVersion} :
    ReplayVersion.ofEnvelope text = some version ↔ version.envelope.toList <+: text := by
  have hone : ∀ version version' : ReplayVersion, version.envelope.toList <+: text →
      version'.envelope.toList <+: text → version = version' := by
    intro version version' h h'
    have hinit := List.prefix_of_prefix_length_le h h'
      (by rw [envelope_length, envelope_length])
    exact envelope_injective
      (hinit.eq_of_length (by rw [envelope_length, envelope_length]))
  simp only [ReplayVersion.ofEnvelope, List.isPrefixOf_iff_prefix]
  constructor
  · intro h
    split_ifs at h with h1 h2 h3 <;> cases h
    · exact h1
    · exact h2
    · exact h3
  · intro h
    split_ifs with h1 h2 h3
    · rw [hone .v1 _ h1 h]
    · rw [hone .v2 _ h2 h]
    · rw [hone .v3 _ h3 h]
    · cases version
      · exact absurd h h1
      · exact absurd h h2
      · exact absurd h h3

theorem label_dot {value : String} (h : label value = .ok ()) : '.' ∉ value.toList := by
  simp only [label, rejectIf_ok, Bool.or_eq_false_iff, Bool.not_eq_false', List.all_eq_true] at h
  intro hdot
  exact absurd (h.2 '.' hdot) (by decide)

theorem hex_dot (bytes : ByteArray) : '.' ∉ hex bytes.data.toList := by
  intro hdot
  exact absurd (hex_isLowerHex _ '.' hdot) (by decide)

variable {aead : Aead} {p : KeyProtector aead}

theorem envelope_toList (version : ReplayVersion) (nonce cipher : ByteArray) :
    (p.envelope version nonce cipher).toList = version.envelope.toList ++
      ['.'].intercalate [p.id.toList, hex nonce.data.toList, hex cipher.data.toList] := by
  simp [KeyProtector.envelope, hexText, List.intercalate]

/-- The fields of a line determine the line. -/
theorem envelopeFields_iff {envelope : String} {version : ReplayVersion}
    {nonce cipher : ByteArray} :
    p.envelopeFields envelope = .ok (version, nonce, cipher) ↔
      envelope = p.envelope version nonce cipher ∧ nonce.size = 12 ∧
        envelope.utf8ByteSize ≤ 2 * maxPayload + 1024 := by
  have hsplit : (['.'].intercalate
      [p.id.toList, hex nonce.data.toList, hex cipher.data.toList]).splitOn '.' =
      [p.id.toList, hex nonce.data.toList, hex cipher.data.toList] := by
    refine List.splitOn_intercalate '.' ?_ (by simp)
    simp only [List.forall_mem_cons]
    exact ⟨label_dot p.valid, hex_dot _, hex_dot _, by simp⟩
  simp only [KeyProtector.envelopeFields, bind_ok, okOr_ok, rejectIf_ok, pure_ok, ofEnvelope_iff,
    unhex_iff, decide_eq_false_iff_not, ne_eq, not_not, not_lt, Prod.mk.injEq,
    Option.isSome_eq_false_iff, Option.isNone_iff_eq_none]
  constructor
  · rintro ⟨version', ⟨rest, hrest⟩, _, hsize, _, hid, _, hnonceField, nonce', rfl, _, hnonce, _,
      hcipherField, cipher', rfl, _, hend, rfl, rfl, rfl⟩
    rw [← hrest, List.drop_left] at hid hnonceField hcipherField hend
    refine ⟨?_, hnonce, hsize⟩
    rw [← String.toList_inj, envelope_toList, ← hrest]
    congr 1
    have hjoin : ['.'].intercalate (rest.splitOn '.') = rest := List.intercalate_splitOn '.'
    rw [← hjoin]
    congr 1
    generalize rest.splitOn '.' = fields at *
    rcases fields with _ | ⟨a, _ | ⟨b, _ | ⟨c, _ | ⟨d, rest⟩⟩⟩⟩
    · simp at hid
    · simp at hnonceField
    · simp at hcipherField
    · simp_all
    · simp at hend
  · rintro ⟨henvelope, hnonce, hsize⟩
    have hlist := congrArg String.toList henvelope
    rw [envelope_toList] at hlist
    refine ⟨version, ⟨_, hlist.symm⟩, (), hsize, (), ?_⟩
    rw [hlist, List.drop_left, hsplit]
    exact ⟨rfl, _, rfl, nonce, rfl, (), hnonce, _, rfl, cipher, rfl, (), rfl, rfl, rfl, rfl⟩

end Fields

end ResponseGateway.Continuation
