import ResponseGateway.Extensions.Manager

/-!
The patterns of the manager accept the texts that the predicates of the gateway accept.
-/

namespace ResponseGateway.Extensions
open Ir Usage
open Manager (isHex isNameChar isProtocolChar isFileChar isPositive numberPattern)

/-- A character that is written as itself in ASCII. -/
def printable (c : Char) : Bool := 0x20 ≤ c.toNat && c.toNat < 0x7f

section Classes

variable {c : Char} {text : Text}

theorem size_of_printable (h : printable c = true) : c.utf8Size = 1 := by
  simp only [printable, Bool.and_eq_true, decide_eq_true_eq] at h
  have hle : c.val.toNat ≤ 0x7f := h.2.le
  exact Char.utf8Size_eq_one_iff.2 (UInt32.le_iff_toNat_le.2 hle)

theorem printable_of_isAlphanum (h : c.isAlphanum = true) : printable c = true := by
  simp only [Char.isAlphanum, Char.isAlpha, Char.isUpper, Char.isLower, Char.isDigit,
    Bool.or_eq_true, Bool.and_eq_true, decide_eq_true_eq, ge_iff_le,
    UInt32.le_iff_toNat_le] at h
  simp only [printable, Bool.and_eq_true, decide_eq_true_eq]
  change (((65 ≤ c.toNat ∧ c.toNat ≤ 90) ∨ (97 ≤ c.toNat ∧ c.toNat ≤ 122)) ∨
    (48 ≤ c.toNat ∧ c.toNat ≤ 57)) at h
  omega

theorem isAlphanum_of_isLower (h : c.isLower = true) : c.isAlphanum = true := by
  rw [Char.isAlphanum, Char.isAlpha, h, Bool.or_true, Bool.true_or]

theorem isAlphanum_of_isDigit (h : c.isDigit = true) : c.isAlphanum = true := by
  rw [Char.isAlphanum, h, Bool.or_true]

theorem printable_of_isFileChar (h : isFileChar c = true) : printable c = true := by
  simp only [isFileChar, Bool.or_eq_true, decide_eq_true_eq] at h
  rcases h with ((h | rfl) | rfl) | rfl
  · exact printable_of_isAlphanum h
  all_goals rfl

theorem isFileChar_of_isProtocolChar (h : isProtocolChar c = true) : isFileChar c = true := by
  simp only [isProtocolChar, Bool.or_eq_true, decide_eq_true_eq] at h
  rcases h with (((h | h) | rfl) | rfl) | rfl
  · rw [isFileChar, isAlphanum_of_isLower h, Bool.true_or, Bool.true_or, Bool.true_or]
  · rw [isFileChar, isAlphanum_of_isDigit h, Bool.true_or, Bool.true_or, Bool.true_or]
  all_goals rfl

theorem isProtocolChar_of_isNameChar (h : isNameChar c = true) : isProtocolChar c = true := by
  simp only [isNameChar, Bool.or_eq_true, decide_eq_true_eq] at h
  rcases h with (h | h) | rfl
  · rw [isProtocolChar, h, Bool.true_or, Bool.true_or, Bool.true_or, Bool.true_or]
  · rw [isProtocolChar, h, Bool.or_true, Bool.true_or, Bool.true_or, Bool.true_or]
  · rfl

theorem isDigit_of_isPositive (h : isPositive c = true) : c.isDigit = true := by
  simp only [isPositive, Bool.and_eq_true, decide_eq_true_eq, Char.le_def,
    UInt32.le_iff_toNat_le] at h
  simp only [Char.isDigit, Bool.and_eq_true, decide_eq_true_eq, ge_iff_le,
    UInt32.le_iff_toNat_le]
  exact ⟨h.1.trans' (by decide), h.2⟩

/-- A digit that is not the first one. -/
theorem isPositive_of_isDigit (h : c.isDigit = true) (hne : c ≠ '0') : isPositive c = true := by
  have hrange : 48 ≤ c.toNat ∧ c.toNat ≤ 57 := Char.isDigit_iff_toNat.1 h
  have hzero : c.toNat ≠ 48 := fun heq => hne (Char.toNat_inj.1 heq)
  simp only [isPositive, Bool.and_eq_true, decide_eq_true_eq, Char.le_def,
    UInt32.le_iff_toNat_le]
  change 49 ≤ c.toNat ∧ c.toNat ≤ 57
  omega

theorem len_of_printable (h : ∀ c ∈ text, printable c = true) : text.len = text.length := by
  induction text with
  | nil => rfl
  | cons c rest ih =>
      obtain ⟨hc, hrest⟩ := List.forall_mem_cons.1 h
      rw [Text.len_cons, size_of_printable hc, ih hrest, List.length_cons, Nat.add_comm]

theorem utf8ByteSize_eq (s : String) : s.utf8ByteSize = Text.len s.toList := by
  rw [← utf8ByteSize_ofList, String.ofList_toList]

end Classes

section Names

variable {p q : Char → Bool} {text : Text}

/-- A first character of one class, and more of a wider class. -/
theorem mem_name (hpq : ∀ c, p c = true → q c = true)
    (hq : ∀ c, q c = true → printable c = true) (most : Nat) :
    text ∈ (Pattern.seq (.one p) (.repeated q 0 most)).language ↔
      (decide (1 ≤ text.len ∧ text.len ≤ most + 1) && text.head?.any p && text.all q) = true := by
  rw [Pattern.mem_one_repeated]
  simp only [Bool.and_eq_true, decide_eq_true_eq, List.all_eq_true]
  constructor
  · rintro ⟨c, rest, rfl, hc, hlength, hrest⟩
    have hall : ∀ d ∈ c :: rest, q d = true := List.forall_mem_cons.2 ⟨hpq c hc, hrest⟩
    rw [len_of_printable fun d hd => hq d (hall d hd), List.length_cons]
    exact ⟨⟨⟨Nat.le_add_left 1 _, Nat.succ_le_succ hlength⟩, hc⟩, hall⟩
  · rintro ⟨⟨hlength, hhead⟩, hall⟩
    rw [len_of_printable fun d hd => hq d (hall d hd)] at hlength
    cases text with
    | nil => cases hhead
    | cons c rest =>
        exact ⟨c, rest, rfl, hhead, Nat.le_of_succ_le_succ hlength.2,
          (List.forall_mem_cons.1 hall).2⟩

theorem fullMatch_name (hpq : ∀ c, p c = true → q c = true)
    (hq : ∀ c, q c = true → printable c = true) (most : Nat) :
    (Pattern.seq (.one p) (.repeated q 0 most)).fullMatch text =
      (decide (1 ≤ text.len ∧ text.len ≤ most + 1) && text.head?.any p && text.all q) := by
  rw [Bool.eq_iff_iff, Pattern.fullMatch_iff, mem_name hpq hq]

theorem fullMatch_identifier (s : String) :
    Manager.identifierPattern.fullMatch s.toList = validId s := by
  rw [Manager.identifierPattern, fullMatch_name (fun c h => by simp [isNameChar, h]) fun c h =>
    printable_of_isFileChar (isFileChar_of_isProtocolChar (isProtocolChar_of_isNameChar h)),
    validId, utf8ByteSize_eq, Bool.eq_iff_iff]
  simp only [Bool.and_eq_true, decide_eq_true_eq, Bool.not_eq_true', List.all_eq_true]
  refine and_congr (and_congr ?_ Iff.rfl) Iff.rfl
  rw [Nat.one_le_iff_ne_zero, ← utf8ByteSize_eq]
  refine and_congr ?_ Iff.rfl
  simp [String.isEmpty]

theorem fullMatch_hex (s : String) : Manager.hexPattern.fullMatch s.toList = validHash s := by
  rw [Bool.eq_iff_iff, Pattern.fullMatch_iff, Manager.hexPattern, Pattern.mem_repeated,
    ← le_antisymm_iff.trans and_comm, validHash, isSha256, utf8ByteSize_eq]
  simp only [Bool.and_eq_true, decide_eq_true_eq, List.all_eq_true]
  have hclass : ∀ c, isHex c = isLowerHex c := fun c => Bool.or_comm _ _
  simp only [hclass]
  refine and_congr_left fun hall => ?_
  rw [len_of_isLowerHex hall, eq_comm]

theorem isEmpty_eq_false (s : String) : s.isEmpty = false ↔ 1 ≤ Text.len s.toList := by
  rw [Nat.one_le_iff_ne_zero, ← utf8ByteSize_eq]
  simp [String.isEmpty]

/-- The records of files. -/
theorem validFile_eq (name digest : String) :
    Manager.validFile (name, .string digest) = Package.validFile (name, digest) := by
  have hdots : name.toList.head?.any Char.isAlphanum = true → name ≠ "." ∧ name ≠ ".." :=
    fun hhead => ⟨fun h => by rw [h] at hhead; revert hhead; decide,
      fun h => by rw [h] at hhead; revert hhead; decide⟩
  rw [Manager.validFile, Manager.hexDigest, Manager.isMatch, fullMatch_hex, Manager.filePattern,
    fullMatch_name (fun c h => by rw [isFileChar, h]; rfl) (fun c => printable_of_isFileChar),
    Package.validFile, utf8ByteSize_eq, Bool.eq_iff_iff]
  simp only [Bool.and_eq_true, decide_eq_true_eq, Bool.not_eq_true', Bool.or_eq_false_iff,
    Bool.not_eq_false', decide_eq_false_iff_not, not_lt, isEmpty_eq_false, isFileChar,
    List.contains_eq_mem, List.mem_cons, List.not_mem_nil, or_false, not_or]
  constructor
  · rintro ⟨⟨⟨⟨⟨hpos, hle⟩, hhead⟩, hall⟩, hname, -⟩, hdigest⟩
    exact ⟨⟨⟨⟨⟨hpos, hle⟩, hhead⟩, hall⟩, hname⟩, hdigest⟩
  · rintro ⟨⟨⟨⟨⟨hpos, hle⟩, hhead⟩, hall⟩, hname⟩, hdigest⟩
    exact ⟨⟨⟨⟨⟨hpos, hle⟩, hhead⟩, hall⟩, hname, hdots hhead⟩, hdigest⟩

end Names

section Versions

variable {text : Text}

theorem isDigit_ne_point {c : Char} (h : c.isDigit = true) : c ≠ '.' := by
  rintro rfl
  cases h

/-- A part of a version. -/
theorem mem_number : text ∈ numberPattern.language ↔ isVersionPart text = true := by
  rw [numberPattern, Pattern.mem_alt, Pattern.mem_one, Pattern.mem_one_repeated, isVersionPart]
  simp only [Bool.and_eq_true, decide_eq_true_eq, Bool.not_eq_true', List.all_eq_true,
    List.isEmpty_eq_false_iff]
  constructor
  · rintro (⟨c, rfl, rfl⟩ | ⟨c, rest, rfl, hc, hlength, hrest⟩)
    · exact ⟨⟨⟨List.cons_ne_nil _ _, by decide⟩, List.forall_mem_singleton.2 rfl⟩, by decide⟩
    · have hall : ∀ d ∈ c :: rest, d.isDigit = true :=
        List.forall_mem_cons.2 ⟨isDigit_of_isPositive hc, hrest⟩
      rw [len_of_printable fun d hd => printable_of_isAlphanum (isAlphanum_of_isDigit (hall d hd)),
        List.length_cons]
      refine ⟨⟨⟨List.cons_ne_nil _ _, Nat.succ_le_succ hlength⟩, hall⟩, ?_⟩
      rw [Bool.and_eq_false_iff]
      refine .inr (decide_eq_false fun hhead => ?_)
      cases hhead
      cases hc
  · rintro ⟨⟨⟨hne, hlength⟩, hall⟩, hzero⟩
    rw [len_of_printable fun d hd => printable_of_isAlphanum (isAlphanum_of_isDigit (hall d hd))]
      at hlength hzero
    cases text with
    | nil => exact absurd rfl hne
    | cons c rest =>
        obtain ⟨hc, hrest⟩ := List.forall_mem_cons.1 hall
        by_cases h0 : c = '0'
        · subst h0
          rw [List.head?_cons, decide_eq_true rfl, Bool.and_true, decide_eq_false_iff_not,
            List.length_cons] at hzero
          have hnil : rest = [] := List.eq_nil_of_length_eq_zero (by omega)
          exact .inl ⟨'0', rfl, by rw [hnil]⟩
        · exact .inr ⟨c, rest, rfl, isPositive_of_isDigit hc h0, Nat.le_of_succ_le_succ hlength,
            hrest⟩

theorem point_notMem (h : isVersionPart text = true) : '.' ∉ text := by
  simp only [isVersionPart, Bool.and_eq_true, List.all_eq_true] at h
  exact fun hmem => isDigit_ne_point (h.1.2 '.' hmem) rfl

theorem fullMatch_version (s : String) :
    Manager.versionPattern.fullMatch s.toList = validVersion s := by
  rw [Bool.eq_iff_iff, Pattern.fullMatch_iff, Manager.versionPattern, validVersion]
  simp only [Pattern.mem_seq, Pattern.mem_one, mem_number, decide_eq_true_eq, Bool.and_eq_true,
    List.all_eq_true]
  constructor
  · rintro ⟨a, ha, _, ⟨_, ⟨_, rfl, rfl⟩, _, ⟨b, hb, _, ⟨_, ⟨_, rfl, rfl⟩, c, hc, rfl⟩, rfl⟩, rfl⟩,
      hs⟩
    have hsplit : s.toList.splitOn '.' = [a, b, c] := by
      have hjoin : s.toList = ['.'].intercalate [a, b, c] := by
        rw [← hs]
        simp [List.intercalate]
      rw [hjoin]
      refine List.splitOn_intercalate '.' ?_ (List.cons_ne_nil _ _)
      simp only [List.forall_mem_cons]
      exact ⟨point_notMem ha, point_notMem hb, point_notMem hc, by simp⟩
    rw [hsplit]
    refine ⟨rfl, ?_⟩
    simp only [List.forall_mem_cons]
    exact ⟨ha, hb, hc, by simp⟩
  · rintro ⟨hlength, hall⟩
    have hjoin : ['.'].intercalate (s.toList.splitOn '.') = s.toList :=
      List.intercalate_splitOn '.'
    generalize s.toList.splitOn '.' = parts at *
    match parts, hlength, hall with
    | [a, b, c], _, hall =>
        simp only [List.forall_mem_cons] at hall
        obtain ⟨ha, hb, hc, -⟩ := hall
        refine ⟨a, ha, _, ⟨['.'], ⟨'.', rfl, rfl⟩, _, ⟨b, hb, _, ⟨['.'], ⟨'.', rfl, rfl⟩, c, hc,
          rfl⟩, rfl⟩, rfl⟩, ?_⟩
        rw [← hjoin]
        simp [List.intercalate]

end Versions

section Protocols

variable {text name version : Text}

theorem eq_of_splitVersion (h : splitVersion text = some (name, version)) :
    text = name ++ '/' :: 'v' :: version := by
  fun_induction splitVersion text generalizing name with
  | case1 => cases h
  | case2 rest =>
      cases h
      rfl
  | case3 c rest _ ih =>
      obtain ⟨⟨name', version'⟩, hrest, heq⟩ := Option.map_eq_some_iff.1 h
      cases heq
      rw [ih hrest, List.cons_append]

theorem splitVersion_append (hname : '/' ∉ name) :
    splitVersion (name ++ '/' :: 'v' :: version) = some (name, version) := by
  induction name with
  | nil => rfl
  | cons c rest ih =>
      rw [List.mem_cons, not_or] at hname
      rw [List.cons_append, splitVersion, ih hname.2]
      · rfl
      · rintro _ rfl
        exact fun _ => hname.1 rfl

/-- A name and a version with the mark between them. -/
theorem mem_marked {a b : Pattern Char} :
    text ∈ (Pattern.seq a (.seq (.one (· = '/')) (.seq (.one (· = 'v')) b))).language ↔
      ∃ name ∈ a.language, ∃ version ∈ b.language, name ++ '/' :: 'v' :: version = text := by
  simp only [Pattern.mem_seq, Pattern.mem_one, decide_eq_true_eq]
  constructor
  · rintro ⟨name, hname, _, ⟨_, ⟨_, rfl, rfl⟩, _, ⟨_, ⟨_, rfl, rfl⟩, version, hversion, rfl⟩, rfl⟩,
      rfl⟩
    exact ⟨name, hname, version, hversion, rfl⟩
  · rintro ⟨name, hname, version, hversion, rfl⟩
    exact ⟨name, hname, _, ⟨['/'], ⟨'/', rfl, rfl⟩, _, ⟨['v'], ⟨'v', rfl, rfl⟩, version, hversion,
      rfl⟩, rfl⟩, rfl⟩

theorem fullMatch_provider (s : String) :
    Manager.providerPattern.fullMatch s.toList = validProviderProtocol s := by
  rw [Bool.eq_iff_iff, Pattern.fullMatch_iff, Manager.providerPattern, mem_marked,
    validProviderProtocol, Option.any_eq_true]
  simp only [mem_name (p := Char.isLower) (q := isProtocolChar)
      (fun c h => by simp [isProtocolChar, h])
      (fun c h => printable_of_isFileChar (isFileChar_of_isProtocolChar h)),
    mem_name (p := isPositive) (q := Char.isDigit) (fun c => isDigit_of_isPositive)
      (fun c h => printable_of_isAlphanum (isAlphanum_of_isDigit h)), Prod.exists]
  have hclass : ∀ name : Text, name.all isProtocolChar = name.all isDottedName := fun _ => rfl
  have hnameOnly : ∀ name : Text, name.all isDottedName = true → '/' ∉ name := fun name hall hmem =>
    absurd (List.all_eq_true.1 hall '/' hmem) (by decide)
  constructor
  · rintro ⟨name, hname, version, hversion, hs⟩
    rw [hclass, Bool.and_eq_true] at hname
    refine ⟨name, version, ?_, ?_⟩
    · rw [← hs, splitVersion_append (hnameOnly name hname.2)]
    · rw [Bool.and_assoc, Bool.and_assoc, Bool.and_eq_true, Bool.and_eq_true]
      exact ⟨hname, by rwa [← Bool.and_assoc]⟩
  · rintro ⟨name, version, hsplit, hvalid⟩
    rw [Bool.and_assoc, Bool.and_assoc, Bool.and_eq_true, ← Bool.and_assoc] at hvalid
    exact ⟨name, hvalid.1, version, hvalid.2, (eq_of_splitVersion hsplit).symm⟩

end Protocols

end ResponseGateway.Extensions
