import ResponseGateway.Library.Json

/-!
Unsigned integers among JSON numbers. A number text has no sign `+` and no
leading zero, so the text of an unsigned integer is determined by its value.
-/

namespace Json

/-- The text without a plus sign, which `parse` admits and JSON does not. -/
def unplus : List Char → List Char
  | '+' :: rest => rest
  | rest => rest

/-- `str::parse::<u64>`. -/
def parseU64 (text : String) : Option Nat :=
  let digits := unplus text.toList
  if digits.isEmpty || !digits.all Char.isDigit then none
  else
    let value := Nat.ofDigitChars 10 digits 0
    if value < 2 ^ 64 then some value else none

/-- `Number::as_u64` on a number kept as text. -/
def Number.asU64 (number : Number) : Option Nat := parseU64 number.text

def asU64 : Json → Option Nat
  | number value => value.asU64
  | _ => none

/-- Decimal digits without a leading zero. -/
def Plain (digits : List Char) : Prop :=
  (∀ c ∈ digits, c.isDigit = true) ∧ digits ≠ [] ∧ (digits.head? = some '0' → digits = ['0'])

theorem digitChar_of_isDigit {c : Char} (h : c.isDigit = true) :
    c.toNat - '0'.toNat < 10 ∧ Nat.digitChar (c.toNat - '0'.toNat) = c := by
  have hrange : 48 ≤ c.toNat ∧ c.toNat ≤ 57 := Char.isDigit_iff_toNat.1 h
  have hlt : c.toNat - '0'.toNat < 10 := by
    have hzero : '0'.toNat = 48 := rfl
    omega
  refine ⟨hlt, Char.toNat_inj.1 ?_⟩
  rw [Nat.toNat_digitChar_of_lt_ten hlt]
  have hzero : '0'.toNat = 48 := rfl
  omega

theorem ofDigitChars_concat (digits : List Char) (c : Char) :
    Nat.ofDigitChars 10 (digits ++ [c]) 0 =
      10 * Nat.ofDigitChars 10 digits 0 + (c.toNat - '0'.toNat) := by
  simp [Nat.ofDigitChars_eq_foldl]

theorem plain_dropLast {digits : List Char} {c : Char} (h : Plain (digits ++ [c]))
    (hne : digits ≠ []) : Plain digits ∧ digits.head? ≠ some '0' := by
  obtain ⟨hdigit, -, hzero⟩ := h
  have hhead : (digits ++ [c]).head? = digits.head? := by
    cases digits with
    | nil => exact absurd rfl hne
    | cons d rest => rfl
  have hnot : digits.head? ≠ some '0' := by
    intro h0
    have hlen := congrArg List.length (hzero (hhead.trans h0))
    have hpos := List.length_pos_iff.2 hne
    rw [List.length_append, List.length_singleton, List.length_singleton] at hlen
    omega
  exact ⟨⟨fun d hd => hdigit d (List.mem_append_left _ hd), hne, fun h0 => absurd h0 hnot⟩, hnot⟩

theorem toDigits_ofDigitChars {digits : List Char} (h : Plain digits) :
    Nat.toDigits 10 (Nat.ofDigitChars 10 digits 0) = digits ∧
      (digits.head? ≠ some '0' → 0 < Nat.ofDigitChars 10 digits 0) := by
  induction digits using List.reverseRecOn with
  | nil => exact absurd rfl h.2.1
  | append_singleton rest c ih =>
      obtain ⟨hlt, hchar⟩ := digitChar_of_isDigit (h.1 c (by simp))
      rw [ofDigitChars_concat]
      by_cases hne : rest = []
      · subst hne
        have hvalue : 10 * Nat.ofDigitChars 10 [] 0 + (c.toNat - '0'.toNat) =
            c.toNat - '0'.toNat := by simp
        rw [hvalue, Nat.toDigits_of_lt_base hlt, hchar]
        refine ⟨rfl, fun hhead => Nat.pos_of_ne_zero fun h0 => hhead ?_⟩
        rw [h0] at hchar
        rw [← hchar]
        rfl
      · obtain ⟨hplain, hnot⟩ := plain_dropLast h hne
        obtain ⟨hdigits, hpos⟩ := ih hplain
        rw [← Nat.toDigits_append_toDigits (by omega) (hpos hnot) hlt, hdigits,
          Nat.toDigits_of_lt_base hlt, hchar]
        have hpos' := hpos hnot
        exact ⟨rfl, fun _ => by omega⟩

theorem scanFraction_of_digit {c : Char} (h : c.isDigit = true) (rest : List Char) :
    (scanFraction (c :: rest)).bind scanExponent = some (c :: rest) := by
  unfold scanFraction
  split
  · next heq =>
      cases heq
      cases h
  · rw [Option.bind_some]
    unfold scanExponent
    split <;> first | rfl | (next heq => cases heq; cases h)

/-- A number text made of digits alone has no leading zero. -/
theorem plain_of_isNumber {text : String} (h : isNumber text = true) (hne : text.toList ≠ [])
    (hdigits : ∀ c ∈ text.toList, c.isDigit = true) : Plain text.toList := by
  refine ⟨hdigits, hne, fun hhead => ?_⟩
  cases htext : text.toList with
  | nil => exact absurd htext hne
  | cons c rest =>
      rw [htext] at hhead hdigits
      cases hhead
      cases rest with
      | nil => rfl
      | cons d rest =>
          have hscan : (scanFraction (d :: rest)).bind scanExponent = some [] := by
            rw [isNumber, htext] at h
            exact of_decide_eq_true h
          rw [scanFraction_of_digit (hdigits d (by simp))] at hscan
          cases hscan

theorem dropWhile_digits {digits : List Char} (h : ∀ c ∈ digits, c.isDigit = true) :
    digits.dropWhile Char.isDigit = [] := by
  induction digits with
  | nil => rfl
  | cons c rest ih =>
      rw [List.dropWhile_cons_of_pos (h c (by simp)), ih fun d hd => h d (by simp [hd])]

theorem unsigned_digits {digits : List Char} (h : ∀ c ∈ digits, c.isDigit = true) :
    unsigned digits = digits := by
  unfold unsigned
  split
  · next rest =>
      have hminus := h '-' (by simp)
      cases hminus
  · rfl

theorem scanInteger_digits {digits : List Char} (h : Plain digits) :
    scanInteger digits = some [] := by
  obtain ⟨hdigit, hne, hzero⟩ := h
  unfold scanInteger
  split
  · exact absurd rfl hne
  · next rest =>
      have hsingle := hzero rfl
      cases hsingle
      rfl
  · next c rest _ =>
      rw [if_pos (hdigit c (by simp)), dropWhile_digits fun d hd => hdigit d (by simp [hd])]

theorem plain_toDigits (n : Nat) : Plain (Nat.toDigits 10 n) := by
  refine ⟨fun c hc => Nat.isDigit_of_mem_toDigits (by omega) (by omega) hc, Nat.toDigits_ne_nil, ?_⟩
  induction n using Nat.strongRecOn with
  | ind n ih =>
      rw [Nat.toDigits_eq_if (by omega)]
      split
      · next hlt =>
          intro h
          simpa using h
      · next hge =>
          intro h
          have hsmaller : (Nat.toDigits 10 (n / 10)).head? = some '0' := by
            rwa [List.head?_append_of_ne_nil _ Nat.toDigits_ne_nil] at h
          have hsingle := ih (n / 10) (by omega) hsmaller
          have hpos : 0 < n / 10 := by omega
          rw [Nat.toDigits_eq_if (by omega)] at hsingle
          split at hsingle
          · simp only [List.cons.injEq, and_true, Nat.digitChar_eq_zero] at hsingle
            omega
          · have hlen := congrArg List.length hsingle
            simp only [List.length_append, List.length_singleton] at hlen
            have hne := List.length_pos_iff.2 (Nat.toDigits_ne_nil : Nat.toDigits 10 (n / 10 / 10) ≠ [])
            omega

theorem isNumber_repr (n : Nat) : isNumber n.repr = true := by
  have hplain := plain_toDigits n
  rw [isNumber, Nat.toList_repr, unsigned_digits hplain.1, scanInteger_digits hplain]
  rfl

/-- `Number::from(u64)`. -/
def Number.ofNat (n : Nat) : Number := ⟨n.repr, isNumber_repr n⟩

theorem Number.ofNat_injective {m n : Nat} (h : Number.ofNat m = Number.ofNat n) : m = n := by
  have htext : m.repr.toList = n.repr.toList := congrArg (fun number => number.text.toList) h
  rw [Nat.toList_repr, Nat.toList_repr] at htext
  rw [← Nat.ofDigitChars_ten_toDigits (n := m), htext, Nat.ofDigitChars_ten_toDigits]

theorem isNumber_neg_repr (n : Nat) : isNumber ("-" ++ n.repr) = true := by
  have hplain := plain_toDigits n
  have hunsigned : unsigned ("-" ++ n.repr).toList = Nat.toDigits 10 n := by
    rw [String.toList_append, Nat.toList_repr]
    rfl
  rw [isNumber, hunsigned, scanInteger_digits hplain]
  rfl

/-- `Number::from(i64)`. -/
def Number.ofInt : Int → Number
  | .ofNat n => .ofNat n
  | .negSucc n => ⟨"-" ++ (n + 1).repr, isNumber_neg_repr (n + 1)⟩

/-- A number that reads as an unsigned integer is written as that integer. -/
theorem Number.asU64_eq_some {number : Number} {n : Nat} (h : number.asU64 = some n) :
    number = Number.ofNat n := by
  obtain ⟨text, valid⟩ := number
  have hplus : unplus text.toList = text.toList := by
    unfold unplus
    split
    · next rest heq =>
        rw [isNumber, heq] at valid
        cases valid
    · rfl
  have htext : text.toList = Nat.toDigits 10 n := by
    simp only [Number.asU64, parseU64, hplus] at h
    split at h
    · cases h
    · next hdigits =>
        simp only [Bool.or_eq_true, not_or, Bool.not_eq_true, List.isEmpty_eq_false_iff,
          Bool.not_eq_false', List.all_eq_true] at hdigits
        split at h
        · cases h
          exact (toDigits_ofDigitChars (plain_of_isNumber valid hdigits.1 hdigits.2)).1.symm
        · cases h
  have heq : text = n.repr := by
    rw [← String.toList_inj, Nat.toList_repr, htext]
  subst heq
  rfl

theorem Number.asU64_ofNat {n : Nat} (h : n < 2 ^ 64) : (Number.ofNat n).asU64 = some n := by
  have hplain := plain_toDigits n
  have hplus : unplus (Nat.toDigits 10 n) = Nat.toDigits 10 n := by
    unfold unplus
    split
    · next rest heq =>
        have hdigit := hplain.1 '+' (by rw [heq]; exact List.mem_cons_self)
        cases hdigit
    · rfl
  have hdigits : ((Nat.toDigits 10 n).isEmpty || !(Nat.toDigits 10 n).all Char.isDigit) =
      false := by
    rw [List.isEmpty_eq_false_iff.2 hplain.2.1, List.all_eq_true.2 hplain.1]
    rfl
  simp only [Number.asU64, Number.ofNat, parseU64, Nat.toList_repr, hplus, hdigits,
    Bool.false_eq_true, if_false, Nat.ofDigitChars_ten_toDigits, h, if_true]

theorem parseU64_lt {text : String} {n : Nat} (h : parseU64 text = some n) : n < 2 ^ 64 := by
  simp only [parseU64] at h
  split at h
  · cases h
  · split at h
    · next hlt =>
        cases h
        exact hlt
    · cases h

theorem asU64_lt {value : Json} {n : Nat} (h : value.asU64 = some n) : n < 2 ^ 64 := by
  cases value with
  | number number => exact parseU64_lt h
  | null | bool _ | string _ | array _ | object _ => cases h

end Json
