import Mathlib

/-!
Identifiers and static diagnostics shared by the request, event, grammar and
bridge models. Texts are sequences of Unicode scalar values; the length the
code compares with its limits is the length in UTF-8 bytes.
-/

namespace ResponseGateway

/-- A Rust `str`, as the sequence of its scalar values. -/
abbrev Text := List Char

/-- Length in UTF-8 bytes, the value of `str::len`. -/
def Text.len (t : Text) : Nat := (t.map Char.utf8Size).sum

@[simp] theorem Text.len_nil : Text.len [] = 0 := rfl

@[simp] theorem Text.len_cons (c : Char) (t : Text) :
    Text.len (c :: t) = c.utf8Size + Text.len t := by
  simp [Text.len]

@[simp] theorem Text.len_append (s t : Text) : Text.len (s ++ t) = Text.len s + Text.len t := by
  simp [Text.len]

theorem Text.len_replicate (n : Nat) (c : Char) :
    Text.len (List.replicate n c) = n * c.utf8Size := by
  simp [Text.len]

/-- `char::is_control`: general category Cc. -/
def isControl (c : Char) : Bool :=
  c.toNat < 0x20 || (0x7f ≤ c.toNat && c.toNat < 0xa0)

/-- `char::is_whitespace`: the White_Space property. -/
def isWhitespace (c : Char) : Bool :=
  let n := c.toNat
  (0x09 ≤ n && n ≤ 0x0d) || n == 0x20 || n == 0x85 || n == 0xa0 || n == 0x1680 ||
    (0x2000 ≤ n && n ≤ 0x200a) || n == 0x2028 || n == 0x2029 || n == 0x202f ||
    n == 0x205f || n == 0x3000

/-- `str::trim`. -/
def trim (t : Text) : Text :=
  ((t.dropWhile isWhitespace).reverse.dropWhile isWhitespace).reverse

namespace Ir

/-- `ir::IrError`. -/
inductive IrError where
  | invalidField (field : String)
  | invalidIdentifier
  | unsupportedVersion
  | unsupportedFeature
  | unsupportedExtension
  | extensionConflict
  | wrongProtocol
  | unboundOpaqueState
  | continuityMismatch
  | duplicateId
  | invalidToolMapping
  | invalidJsonArguments
  | invalidEventOrder
  | unknownItem
  | sizeLimit
  deriving DecidableEq, Repr

/-- The limit repeated by every text check of the editing and grammar code. -/
def maxText : Nat := 8 * 1024 * 1024

end Ir
end ResponseGateway
