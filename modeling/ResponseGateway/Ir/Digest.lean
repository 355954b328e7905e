import ResponseGateway.Ir.Basic
import ResponseGateway.Library.JsonText

/-!
Digests of serialized values: the hash of the compact text, in hexadecimal. The
hash function itself belongs to another crate and is a parameter.
-/

namespace ResponseGateway.Ir

abbrev Digest := Vector UInt8 32

/-- `continuation::hex`. -/
def hex (bytes : List UInt8) : Text :=
  bytes.flatMap fun b => [Nat.digitChar (b.toNat / 16), Nat.digitChar (b.toNat % 16)]

/-- `serde_json::to_string`. -/
def renderText (value : Json) : String := String.ofList value.render

/-- `continuation::digest`. -/
def digest (sha256 : String → Digest) (value : Json) : String :=
  String.ofList (hex (sha256 (renderText value)).toList)

/-- A lower-case hexadecimal digit. -/
def isLowerHex (c : Char) : Bool := c.isDigit || ('a' ≤ c && c ≤ 'f')

theorem digitChar_isLowerHex : ∀ n < 16, isLowerHex (Nat.digitChar n) = true := by decide

theorem isLowerHex_size {c : Char} (h : isLowerHex c = true) : c.utf8Size = 1 := by
  have hle : c.val.toNat ≤ 0x7f := by
    simp only [isLowerHex, Char.isDigit, Bool.or_eq_true, Bool.and_eq_true,
      decide_eq_true_eq, Char.le_def, UInt32.le_iff_toNat_le] at h
    rcases h with ⟨-, h⟩ | ⟨-, h⟩ <;> exact le_trans h (by decide)
  exact (Char.utf8Size_eq_one_iff).2 (UInt32.le_iff_toNat_le.2 hle)

theorem hex_isLowerHex (bytes : List UInt8) : ∀ c ∈ hex bytes, isLowerHex c = true := by
  intro c hc
  obtain ⟨b, -, hc⟩ := List.mem_flatMap.1 hc
  have hb : b.toNat < 256 := b.toNat_lt
  rcases List.mem_pair.1 hc with rfl | rfl
  · exact digitChar_isLowerHex _ (by omega)
  · exact digitChar_isLowerHex _ (by omega)

theorem hex_length (bytes : List UInt8) : (hex bytes).length = 2 * bytes.length := by
  induction bytes with
  | nil => rfl
  | cons b rest ih =>
      rw [hex, List.flatMap_cons, List.length_append, ← hex, ih, List.length_cons]
      simp only [List.length_cons, List.length_nil]
      omega

theorem utf8ByteSize_ofList (text : Text) : (String.ofList text).utf8ByteSize = text.len := by
  induction text with
  | nil => rfl
  | cons c rest ih =>
      rw [String.ofList_cons, String.utf8ByteSize_append, String.utf8ByteSize_singleton, ih,
        Text.len_cons]

theorem len_of_isLowerHex {text : Text} (h : ∀ c ∈ text, isLowerHex c = true) :
    text.len = text.length := by
  induction text with
  | nil => rfl
  | cons c rest ih =>
      rw [Text.len_cons, isLowerHex_size (h c (by simp)), ih fun d hd => h d (by simp [hd]),
        List.length_cons]
      omega

/-- A digest is written with sixty-four hexadecimal digits. -/
theorem digest_size (sha256 : String → Digest) (value : Json) :
    (digest sha256 value).utf8ByteSize = 64 := by
  rw [digest, utf8ByteSize_ofList, len_of_isLowerHex (hex_isLowerHex _), hex_length,
    Vector.length_toList]

theorem digest_isLowerHex (sha256 : String → Digest) (value : Json) :
    ∀ c ∈ (digest sha256 value).toList, isLowerHex c = true := by
  rw [digest, String.toList_ofList]
  exact hex_isLowerHex _

end ResponseGateway.Ir
