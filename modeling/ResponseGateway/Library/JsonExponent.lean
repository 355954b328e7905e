import ResponseGateway.Library.JsonValue

/-!
The sign that a parser writes into an exponent. Every scan of a number text reads the signed
text as it reads the text itself, so a number stays a number and is always kept.
-/

namespace Json

theorem not_exponent_of_isDigit {c : Char} (h : c.isDigit = true) : ¬(c = 'e' ∨ c = 'E') := by
  rintro (rfl | rfl) <;> cases h

theorem signExponent_cons_of_not {c : Char} (h : ¬(c = 'e' ∨ c = 'E')) (rest : List Char) :
    signExponent (c :: rest) = c :: signExponent rest := by
  rw [signExponent, if_neg h]

theorem head_signExponent (c : Char) (rest : List Char) :
    ∃ tail, signExponent (c :: rest) = c :: tail := by
  rw [signExponent]
  split_ifs <;> exact ⟨_, rfl⟩

/-- Digits before the exponent stay. -/
theorem dropWhile_signExponent (text : List Char) :
    (signExponent text).dropWhile Char.isDigit = signExponent (text.dropWhile Char.isDigit) := by
  induction text with
  | nil => rfl
  | cons c rest ih =>
      by_cases hdigit : c.isDigit = true
      · rw [signExponent_cons_of_not (not_exponent_of_isDigit hdigit),
          List.dropWhile_cons_of_pos hdigit, List.dropWhile_cons_of_pos hdigit, ih]
      · obtain ⟨tail, htail⟩ := head_signExponent c rest
        rw [List.dropWhile_cons_of_neg hdigit, htail, List.dropWhile_cons_of_neg hdigit]

theorem scanDigits_signExponent {text rest : List Char} (h : scanDigits text = some rest) :
    scanDigits (signExponent text) = some (signExponent rest) := by
  cases text with
  | nil => cases h
  | cons c text =>
      simp only [scanDigits, Option.ite_none_right_eq_some, Option.some.injEq] at h
      obtain ⟨hdigit, rfl⟩ := h
      rw [signExponent_cons_of_not (not_exponent_of_isDigit hdigit), scanDigits, if_pos hdigit,
        dropWhile_signExponent]

theorem scanInteger_signExponent {text rest : List Char} (h : scanInteger text = some rest) :
    scanInteger (signExponent text) = some (signExponent rest) := by
  unfold scanInteger at h
  split at h
  · cases h
  · cases h
    rw [signExponent_cons_of_not (by decide)]
    rfl
  · next c text hzero =>
      simp only [Option.ite_none_right_eq_some, Option.some.injEq] at h
      obtain ⟨hdigit, rfl⟩ := h
      rw [signExponent_cons_of_not (not_exponent_of_isDigit hdigit), scanInteger.eq_3, if_pos hdigit,
        dropWhile_signExponent]
      exact hzero

theorem scanFraction_signExponent {text rest : List Char} (h : scanFraction text = some rest) :
    scanFraction (signExponent text) = some (signExponent rest) := by
  unfold scanFraction at h
  split at h
  · next text =>
      rw [signExponent_cons_of_not (by decide), scanFraction]
      exact scanDigits_signExponent h
  · next hdot =>
      cases h
      cases text with
      | nil => rfl
      | cons c text =>
          obtain ⟨tail, htail⟩ := head_signExponent c text
          rw [htail, scanFraction]
          rintro rest heq
          cases heq
          exact hdot _ rfl

/-- An exponent that starts with a digit has no sign. -/
theorem head_of_scanDigits {text rest : List Char} (h : scanDigits text = some rest) :
    ¬(text.head? = some '+' ∨ text.head? = some '-') := by
  cases text with
  | nil => cases h
  | cons c text =>
      rintro (hhead | hhead) <;> cases hhead <;> cases h

theorem scanExponent_signExponent {text : List Char} (h : scanExponent text = some []) :
    scanExponent (signExponent text) = some [] := by
  unfold scanExponent at h
  split at h
  · exact h
  · exact h
  · exact h
  · exact h
  · rw [signExponent, if_pos (.inl rfl), if_neg (head_of_scanDigits h)]
    exact h
  · rw [signExponent, if_pos (.inr rfl), if_neg (head_of_scanDigits h)]
    exact h
  · cases h
    rfl

/-- The text kept for a number text is a number text. -/
theorem isNumber_signExponent {text : String} (h : isNumber text = true) :
    isNumber (String.ofList (signExponent text.toList)) = true := by
  obtain ⟨fraction, hfraction, hexponent⟩ := Option.bind_eq_some_iff.1 (of_decide_eq_true h)
  obtain ⟨integer, hinteger, hscan⟩ := Option.bind_eq_some_iff.1 hfraction
  have hunsigned : unsigned (signExponent text.toList) = signExponent (unsigned text.toList) := by
    cases text.toList with
    | nil => rfl
    | cons c rest =>
        by_cases hminus : c = '-'
        · subst hminus
          rw [signExponent_cons_of_not (by decide)]
          rfl
        · obtain ⟨tail, htail⟩ := head_signExponent c rest
          have hsame : ∀ tail, unsigned (c :: tail) = c :: tail := by
            intro tail
            unfold unsigned
            split
            · next heq => cases heq; exact absurd rfl hminus
            · rfl
          rw [htail, hsame, hsame, htail]
  rw [isNumber, String.toList_ofList, hunsigned, scanInteger_signExponent hinteger,
    Option.bind_some, scanFraction_signExponent hscan, Option.bind_some,
    scanExponent_signExponent hexponent]
  rfl

/-- A parser keeps every number. -/
theorem Number.kept_eq_some (value : Number) :
    ∃ number, value.kept = some (.number number) ∧ number.text =
      if value.text = "-0" then "0" else String.ofList (signExponent value.text.toList) := by
  have hvalid : isNumber (if value.text = "-0" then "0"
      else String.ofList (signExponent value.text.toList)) = true := by
    split
    · decide
    · exact isNumber_signExponent value.valid
  exact ⟨⟨_, hvalid⟩, dif_pos hvalid, rfl⟩

theorem signExponent_of_digits {digits : List Char} (h : ∀ c ∈ digits, c.isDigit = true) :
    signExponent digits = digits := by
  induction digits with
  | nil => rfl
  | cons c rest ih =>
      rw [List.forall_mem_cons] at h
      rw [signExponent_cons_of_not (not_exponent_of_isDigit h.1), ih h.2]

theorem Number.settled_ofNat (n : Nat) : (Number.ofNat n).Settled := by
  have hdigits : ∀ c ∈ n.repr.toList, c.isDigit = true := by
    rw [Nat.toList_repr]
    exact (plain_toDigits n).1
  refine ⟨fun h => ?_, signExponent_of_digits hdigits⟩
  have hminus : '-' ∈ n.repr.toList := by
    rw [show n.repr = "-0" from h]
    decide
  exact absurd (hdigits '-' hminus) (by decide)

end Json
