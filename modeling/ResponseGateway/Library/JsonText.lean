import ResponseGateway.Library.Json

/-!
The text of a JSON value. `render` writes the compact form: no spaces, short
escapes where they exist and four hex digits for the other control characters.
`parse` reads any JSON text with a bound on the nesting of arrays and objects; it
keeps the order of fields and repeated keys, so that a reader of a typed value can
reject them. The number of recursive calls is bounded by the length of the text.
-/

namespace Json

section Rendering

def hexDigit (n : Nat) : Char := Nat.digitChar n

/-- The escaped form of a character in a string. -/
def escape (c : Char) : List Char :=
  if c = '"' then ['\\', '"']
  else if c = '\\' then ['\\', '\\']
  else if c = '\x08' then ['\\', 'b']
  else if c = '\x0c' then ['\\', 'f']
  else if c = '\n' then ['\\', 'n']
  else if c = '\r' then ['\\', 'r']
  else if c = '\t' then ['\\', 't']
  else if c.toNat < 0x20 then
    ['\\', 'u', '0', '0', hexDigit (c.toNat / 16), hexDigit (c.toNat % 16)]
  else [c]

def renderString (text : List Char) : List Char := '"' :: (text.flatMap escape ++ ['"'])

mutual

def render : Json → List Char
  | null => "null".toList
  | bool true => "true".toList
  | bool false => "false".toList
  | number value => value.text.toList
  | string value => renderString value.toList
  | array items => '[' :: (renderItems items ++ [']'])
  | object fields => '\x7b' :: (renderFields fields ++ ['\x7d'])

def renderItems : List Json → List Char
  | [] => []
  | item :: rest => render item ++ renderMoreItems rest

def renderMoreItems : List Json → List Char
  | [] => []
  | item :: rest => ',' :: (render item ++ renderMoreItems rest)

def renderFields : List (String × Json) → List Char
  | [] => []
  | (key, value) :: rest => renderString key.toList ++ ':' :: (render value ++ renderMoreFields rest)

def renderMoreFields : List (String × Json) → List Char
  | [] => []
  | (key, value) :: rest =>
      ',' :: (renderString key.toList ++ ':' :: (render value ++ renderMoreFields rest))

end

end Rendering

section Parsing

def isSpace (c : Char) : Bool := c = ' ' || c = '\n' || c = '\t' || c = '\r'

def skipSpace (text : List Char) : List Char := text.dropWhile isSpace

def hexValue (c : Char) : Option Nat :=
  if '0' ≤ c ∧ c ≤ '9' then some (c.toNat - '0'.toNat)
  else if 'a' ≤ c ∧ c ≤ 'f' then some (c.toNat - 'a'.toNat + 10)
  else if 'A' ≤ c ∧ c ≤ 'F' then some (c.toNat - 'A'.toNat + 10)
  else none

def hexUnit (a b c d : Char) : Option Nat := do
  let a ← hexValue a
  let b ← hexValue b
  let c ← hexValue c
  let d ← hexValue d
  return ((a * 16 + b) * 16 + c) * 16 + d

/-- The second half of a surrogate pair. -/
def readTrailing (high : Nat) : List Char → Option (Char × List Char)
  | '\\' :: 'u' :: a :: b :: c :: d :: rest => do
      let low ← hexUnit a b c d
      if 0xdc00 ≤ low ∧ low < 0xe000 then
        return (Char.ofNat (0x10000 + (high - 0xd800) * 0x400 + (low - 0xdc00)), rest)
      else none
  | _ => none

/-- What follows a backslash. -/
def readEscape : List Char → Option (Char × List Char)
  | '"' :: rest => some ('"', rest)
  | '\\' :: rest => some ('\\', rest)
  | '/' :: rest => some ('/', rest)
  | 'b' :: rest => some ('\x08', rest)
  | 'f' :: rest => some ('\x0c', rest)
  | 'n' :: rest => some ('\n', rest)
  | 'r' :: rest => some ('\r', rest)
  | 't' :: rest => some ('\t', rest)
  | 'u' :: a :: b :: c :: d :: rest => do
      let unit ← hexUnit a b c d
      if 0xdc00 ≤ unit ∧ unit < 0xe000 then none
      else if 0xd800 ≤ unit ∧ unit < 0xdc00 then readTrailing unit rest
      else return (Char.ofNat unit, rest)
  | _ => none

/-- The characters of a string up to its closing quote. -/
def readChars : Nat → List Char → Option (List Char × List Char)
  | 0, _ => none
  | _ + 1, [] => none
  | fuel + 1, c :: rest =>
      if c = '"' then some ([], rest)
      else if c = '\\' then do
        let (c, rest) ← readEscape rest
        let (chars, rest) ← readChars fuel rest
        return (c :: chars, rest)
      else if c.toNat < 0x20 then none
      else do
        let (chars, rest) ← readChars fuel rest
        return (c :: chars, rest)

/-- Characters of numbers and of the three literal names. -/
def isWord (c : Char) : Bool := c.isAlphanum || c = '+' || c = '-' || c = '.'

def atomOf (word : String) : Option Json :=
  if word = "null" then some null
  else if word = "true" then some (bool true)
  else if word = "false" then some (bool false)
  else if h : isNumber word = true then some (number ⟨word, h⟩)
  else none

def parseAtom (text : List Char) : Option (Json × List Char) := do
  let value ← atomOf (String.ofList (text.takeWhile isWord))
  return (value, text.dropWhile isWord)

mutual

def parseValue : Nat → Nat → List Char → Option (Json × List Char)
  | 0, _, _ => none
  | fuel + 1, depth, text =>
      match skipSpace text with
      | [] => none
      | c :: rest =>
          if c = '"' then do
            let (chars, rest) ← readChars fuel rest
            return (string (String.ofList chars), rest)
          else if c = '[' then
            if depth = 0 then none
            else if (skipSpace rest).head? = some ']' then
              some (array [], (skipSpace rest).tail)
            else do
              let (items, rest) ← parseItems fuel (depth - 1) rest
              return (array items, rest)
          else if c = '\x7b' then
            if depth = 0 then none
            else if (skipSpace rest).head? = some '\x7d' then
              some (object [], (skipSpace rest).tail)
            else do
              let (fields, rest) ← parseFields fuel (depth - 1) rest
              return (object fields, rest)
          else parseAtom (c :: rest)

/-- The items of an array that is not empty, and its closing bracket. -/
def parseItems : Nat → Nat → List Char → Option (List Json × List Char)
  | 0, _, _ => none
  | fuel + 1, depth, text => do
      let (item, rest) ← parseValue fuel depth text
      match skipSpace rest with
      | ',' :: rest => do
          let (items, rest) ← parseItems fuel depth rest
          return (item :: items, rest)
      | ']' :: rest => return ([item], rest)
      | _ => none

/-- The fields of an object that is not empty, and its closing brace. -/
def parseFields : Nat → Nat → List Char → Option (List (String × Json) × List Char)
  | 0, _, _ => none
  | fuel + 1, depth, text =>
      match skipSpace text with
      | '"' :: rest => do
          let (key, rest) ← readChars fuel rest
          match skipSpace rest with
          | ':' :: rest => do
              let (value, rest) ← parseValue fuel depth rest
              match skipSpace rest with
              | ',' :: rest => do
                  let (fields, rest) ← parseFields fuel depth rest
                  return ((String.ofList key, value) :: fields, rest)
              | '\x7d' :: rest => return ([(String.ofList key, value)], rest)
              | _ => none
          | _ => none
      | _ => none

end

/-- A whole text with nothing but space behind the value. -/
def parse (maxDepth : Nat) (text : List Char) : Option Json :=
  match parseValue (text.length + 1) maxDepth text with
  | some (value, rest) => if skipSpace rest = [] then some value else none
  | none => none

end Parsing

section Strings

theorem hexValue_hexDigit : ∀ n < 16, hexValue (hexDigit n) = some n := by decide

theorem hexUnit_control {n : Nat} (h : n < 0x20) :
    hexUnit '0' '0' (hexDigit (n / 16)) (hexDigit (n % 16)) = some n := by
  have hzero : hexValue '0' = some 0 := by decide
  simp only [hexUnit, hzero, hexValue_hexDigit _ (by omega : n / 16 < 16),
    hexValue_hexDigit _ (by omega : n % 16 < 16), Option.bind_eq_bind, Option.bind_some,
    Option.pure_def, Option.some.injEq]
  omega

/-- One escaped character is read as itself. -/
theorem readChars_escape (fuel : Nat) (c : Char) (rest : List Char) :
    readChars (fuel + 1) (escape c ++ rest) =
      (readChars fuel rest).map fun p => (c :: p.1, p.2) := by
  have hread : ∀ tail, readEscape tail = some (c, rest) →
      readChars (fuel + 1) ('\\' :: tail) =
        (readChars fuel rest).map fun p => (c :: p.1, p.2) := by
    intro tail htail
    simp only [readChars, if_neg (by decide : ¬ '\\' = '"'), if_true, htail,
      Option.bind_eq_bind, Option.bind_some]
    cases readChars fuel rest <;> rfl
  unfold escape
  split_ifs with hq hb h8 hf hn hr ht hctl
  · exact hread ('"' :: rest) (by rw [hq]; rfl)
  · exact hread ('\\' :: rest) (by rw [hb]; rfl)
  · exact hread ('b' :: rest) (by rw [h8]; rfl)
  · exact hread ('f' :: rest) (by rw [hf]; rfl)
  · exact hread ('n' :: rest) (by rw [hn]; rfl)
  · exact hread ('r' :: rest) (by rw [hr]; rfl)
  · exact hread ('t' :: rest) (by rw [ht]; rfl)
  · refine hread ('u' :: '0' :: '0' :: hexDigit _ :: hexDigit _ :: rest) ?_
    simp only [readEscape, hexUnit_control hctl,
      Option.bind_eq_bind, Option.bind_some, if_neg (by omega : ¬(0xdc00 ≤ c.toNat ∧ c.toNat < 0xe000)),
      if_neg (by omega : ¬(0xd800 ≤ c.toNat ∧ c.toNat < 0xdc00)), Char.ofNat_toNat, Option.pure_def]
  · simp only [List.cons_append, List.nil_append, readChars, if_neg hq, if_neg hb, if_neg hctl]
    cases readChars fuel rest <;> rfl

theorem readChars_render {text rest : List Char} {fuel : Nat} (h : text.length < fuel) :
    readChars fuel (text.flatMap escape ++ '"' :: rest) = some (text, rest) := by
  induction text generalizing fuel with
  | nil =>
      obtain ⟨fuel, rfl⟩ := Nat.exists_eq_add_of_lt h
      simp [readChars]
  | cons c text ih =>
      obtain ⟨fuel, rfl⟩ := Nat.exists_eq_succ_of_ne_zero (Nat.ne_of_gt (Nat.zero_lt_of_lt h))
      rw [List.flatMap_cons, List.append_assoc, readChars_escape,
        ih (by simpa using h)]
      rfl

theorem length_le_escape (text : List Char) : text.length ≤ (text.flatMap escape).length := by
  induction text with
  | nil => simp
  | cons c text ih =>
      have hone : 1 ≤ (escape c).length := by
        unfold escape
        split_ifs <;> simp
      rw [List.flatMap_cons, List.length_append, List.length_cons]
      omega

end Strings

section RoundTrip

mutual

/-- How deep arrays and objects are nested. -/
def nesting : Json → Nat
  | array items => nestingItems items + 1
  | object fields => nestingFields fields + 1
  | _ => 0

def nestingItems : List Json → Nat
  | [] => 0
  | item :: rest => max (nesting item) (nestingItems rest)

def nestingFields : List (String × Json) → Nat
  | [] => 0
  | (_, value) :: rest => max (nesting value) (nestingFields rest)

end

theorem nestingItems_le {items : List Json} {n : Nat} (h : ∀ item ∈ items, item.nesting ≤ n) :
    nestingItems items ≤ n := by
  induction items with
  | nil => exact Nat.zero_le n
  | cons item items ih =>
      rw [nestingItems]
      exact max_le (h item (by simp)) (ih fun item' h' => h item' (by simp [h']))

theorem nestingFields_le {fields : Fields} {n : Nat} (h : ∀ entry ∈ fields, entry.2.nesting ≤ n) :
    nestingFields fields ≤ n := by
  induction fields with
  | nil => exact Nat.zero_le n
  | cons entry rest ih =>
      obtain ⟨key, value⟩ := entry
      obtain ⟨hvalue, hrest⟩ := List.forall_mem_cons.1 h
      rw [nestingFields]
      exact max_le hvalue (ih hrest)

/-- A text that does not continue a word. -/
def Closed (rest : List Char) : Prop := ∀ c, rest.head? = some c → isWord c = false

theorem skipSpace_cons {c : Char} {rest : List Char} (h : isSpace c = false) :
    skipSpace (c :: rest) = c :: rest := by
  simp [skipSpace, h]

theorem takeWhile_word {word rest : List Char} (hword : ∀ c ∈ word, isWord c = true)
    (hrest : Closed rest) : (word ++ rest).takeWhile isWord = word ∧
      (word ++ rest).dropWhile isWord = rest := by
  induction word with
  | nil =>
      cases rest with
      | nil => simp
      | cons c rest => simp [hrest c rfl]
  | cons c word ih =>
      obtain ⟨htake, hdrop⟩ := ih fun c' hc' => hword c' (by simp [hc'])
      simp [hword c (by simp), htake, hdrop]

/-- The second text is what remains of the first behind some word characters. -/
def Reads (text rest : List Char) : Prop :=
  ∃ word, text = word ++ rest ∧ ∀ c ∈ word, isWord c = true

theorem Reads.refl (text : List Char) : Reads text text := ⟨[], rfl, by simp⟩

theorem Reads.trans {a b c : List Char} (hab : Reads a b) (hbc : Reads b c) : Reads a c := by
  obtain ⟨w, rfl, hw⟩ := hab
  obtain ⟨w', rfl, hw'⟩ := hbc
  refine ⟨w ++ w', (List.append_assoc _ _ _).symm, fun x hx => ?_⟩
  rcases List.mem_append.1 hx with hx | hx
  · exact hw x hx
  · exact hw' x hx

theorem Reads.cons {c : Char} {text rest : List Char} (hc : isWord c = true)
    (h : Reads text rest) : Reads (c :: text) rest := by
  obtain ⟨w, rfl, hw⟩ := h
  exact ⟨c :: w, rfl, List.forall_mem_cons.2 ⟨hc, hw⟩⟩

theorem isWord_of_isDigit {c : Char} (h : c.isDigit = true) : isWord c = true := by
  simp [isWord, Char.isAlphanum, h]

theorem reads_digits (text : List Char) : Reads text (text.dropWhile Char.isDigit) :=
  ⟨text.takeWhile Char.isDigit, List.takeWhile_append_dropWhile.symm,
    fun _ hc => isWord_of_isDigit (List.mem_takeWhile_imp hc)⟩

theorem scanDigits_reads {text rest : List Char} (h : scanDigits text = some rest) :
    Reads text rest := by
  cases text with
  | nil => cases h
  | cons c text =>
      simp only [scanDigits, Option.ite_none_right_eq_some, Option.some.injEq] at h
      obtain ⟨hc, rfl⟩ := h
      exact .cons (isWord_of_isDigit hc) (reads_digits text)

theorem scanInteger_reads {text rest : List Char} (h : scanInteger text = some rest) :
    Reads text rest := by
  unfold scanInteger at h
  split at h
  · cases h
  · cases h
    exact .cons (by decide) (.refl _)
  · simp only [Option.ite_none_right_eq_some, Option.some.injEq] at h
    obtain ⟨hc, rfl⟩ := h
    exact .cons (isWord_of_isDigit hc) (reads_digits _)

theorem scanFraction_reads {text rest : List Char} (h : scanFraction text = some rest) :
    Reads text rest := by
  unfold scanFraction at h
  split at h
  · exact .cons (by decide) (scanDigits_reads h)
  · cases h
    exact .refl _

theorem scanExponent_reads {text rest : List Char} (h : scanExponent text = some rest) :
    Reads text rest := by
  unfold scanExponent at h
  split at h
  · exact .cons (by decide) (.cons (by decide) (scanDigits_reads h))
  · exact .cons (by decide) (.cons (by decide) (scanDigits_reads h))
  · exact .cons (by decide) (.cons (by decide) (scanDigits_reads h))
  · exact .cons (by decide) (.cons (by decide) (scanDigits_reads h))
  · exact .cons (by decide) (scanDigits_reads h)
  · exact .cons (by decide) (scanDigits_reads h)
  · cases h
    exact .refl _

theorem number_word {text : String} (h : isNumber text = true) :
    ∀ c ∈ text.toList, isWord c = true := by
  obtain ⟨l, hl, hexp⟩ := Option.bind_eq_some_iff.1 (of_decide_eq_true h)
  obtain ⟨l', hl', hfrac⟩ := Option.bind_eq_some_iff.1 hl
  have hreads : Reads (unsigned text.toList) [] :=
    ((scanInteger_reads hl').trans (scanFraction_reads hfrac)).trans (scanExponent_reads hexp)
  have hsign : Reads text.toList [] := by
    unfold unsigned at hreads
    split at hreads
    · next heq =>
        rw [heq]
        exact .cons (by decide) hreads
    · exact hreads
  obtain ⟨w, hw, hword⟩ := hsign
  rw [List.append_nil] at hw
  exact hw ▸ hword

theorem parseAtom_word {word : List Char} {value : Json} {rest : List Char}
    (hatom : atomOf (String.ofList word) = some value) (hword : ∀ c ∈ word, isWord c = true)
    (hrest : Closed rest) : parseAtom (word ++ rest) = some (value, rest) := by
  obtain ⟨htake, hdrop⟩ := takeWhile_word hword hrest
  rw [parseAtom, htake, hdrop, hatom]
  rfl

theorem isWord_not_space {c : Char} (h : isWord c = true) : isSpace c = false := by
  cases hs : isSpace c with
  | false => rfl
  | true =>
      simp only [isSpace, Bool.or_eq_true, decide_eq_true_eq] at hs
      rcases hs with ((rfl | rfl) | rfl) | rfl <;> exact absurd h (by decide)

/-- The first character of a word is dispatched to `parseAtom`. -/
theorem parseValue_atom (word : List Char) {value : Json} {rest : List Char} {fuel depth : Nat}
    (hatom : atomOf (String.ofList word) = some value) (hword : ∀ c ∈ word, isWord c = true)
    (hne : word ≠ []) (hrest : Closed rest) :
    parseValue (fuel + 1) depth (word ++ rest) = some (value, rest) := by
  obtain ⟨c, word, rfl⟩ := List.exists_cons_of_ne_nil hne
  have hc := hword c (by simp)
  have hne : c ≠ '"' ∧ c ≠ '[' ∧ c ≠ '\x7b' := by
    refine ⟨?_, ?_, ?_⟩ <;> rintro rfl <;> exact absurd hc (by decide)
  rw [parseValue, List.cons_append, skipSpace_cons (isWord_not_space hc)]
  simp only [if_neg hne.1, if_neg hne.2.1, if_neg hne.2.2]
  exact parseAtom_word hatom hword hrest

theorem atomOf_number (value : Number) : atomOf value.text = some (number value) := by
  have hne : ∀ word, isNumber word = false → value.text ≠ word := by
    rintro word hword rfl
    rw [value.valid] at hword
    cases hword
  rw [atomOf, if_neg (hne _ (by decide)), if_neg (hne _ (by decide)), if_neg (hne _ (by decide)),
    dif_pos value.valid]

theorem number_ne_nil (value : Number) : value.text.toList ≠ [] := by
  intro hnil
  have hvalid := value.valid
  rw [isNumber, hnil] at hvalid
  cases hvalid

theorem closed_cons {c : Char} {rest : List Char} (h : isWord c = false) : Closed (c :: rest) := by
  intro c' hc'
  cases hc'
  exact h

/-- A rendered value starts with a character that opens it. -/
theorem render_head (value : Json) :
    ∃ c tail, render value = c :: tail ∧ isSpace c = false ∧ c ≠ ']' := by
  cases value with
  | bool b => cases b <;> exact ⟨_, _, rfl, by decide, by decide⟩
  | number value =>
      obtain ⟨c, tail, htext⟩ := List.exists_cons_of_ne_nil (number_ne_nil value)
      have hc := number_word value.valid c (by simp [htext])
      refine ⟨c, tail, htext, isWord_not_space hc, ?_⟩
      rintro rfl
      exact absurd hc (by decide)
  | null | string _ | array _ | object _ =>
      simp only [render, renderString]
      exact ⟨_, _, rfl, by decide, by decide⟩

/-- What each parser does with rendered text when it has enough fuel. -/
structure ParsesRendered (fuel : Nat) : Prop where
  value : ∀ (value : Json) depth rest, (render value).length ≤ fuel → value.nesting ≤ depth →
    Closed rest → parseValue fuel depth (render value ++ rest) = some (value, rest)
  items : ∀ item items depth rest, (renderItems (item :: items)).length < fuel →
    nestingItems (item :: items) ≤ depth →
    parseItems fuel depth (renderItems (item :: items) ++ ']' :: rest) = some (item :: items, rest)
  fields : ∀ entry fields depth rest, (renderFields (entry :: fields)).length < fuel →
    nestingFields (entry :: fields) ≤ depth →
    parseFields fuel depth (renderFields (entry :: fields) ++ '\x7d' :: rest) =
      some (entry :: fields, rest)

theorem parseValue_string {text rest : List Char} {fuel depth : Nat} (h : text.length < fuel) :
    parseValue (fuel + 1) depth (renderString text ++ rest) =
      some (string (String.ofList text), rest) := by
  simp only [parseValue, renderString, List.cons_append, List.append_assoc, List.nil_append,
    skipSpace_cons (by decide : isSpace '"' = false), if_true, readChars_render h]
  rfl

theorem parseValue_array {fuel depth : Nat} (ih : ParsesRendered fuel) (items : List Json)
    (rest : List Char) (hlen : (renderItems items).length < fuel)
    (hdepth : nestingItems items + 1 ≤ depth) :
    parseValue (fuel + 1) depth ('[' :: (renderItems items ++ ']' :: rest)) =
      some (array items, rest) := by
  rw [parseValue, skipSpace_cons (by decide)]
  simp only [if_neg (by decide : ¬ '[' = '"'), if_true, if_neg (by omega : ¬depth = 0)]
  cases items with
  | nil => simp [renderItems, skipSpace_cons (by decide : isSpace ']' = false)]
  | cons item items =>
      obtain ⟨c, tail, htext, hspace, hne⟩ := render_head item
      have hhead : ∀ more, skipSpace (renderItems (item :: items) ++ more) =
          c :: (tail ++ renderMoreItems items ++ more) := by
        intro more
        rw [renderItems, htext]
        simp [skipSpace_cons hspace]
      rw [hhead, List.head?_cons, if_neg (by simpa using hne), ih.items _ _ _ _ hlen (by omega)]
      rfl

theorem parseValue_object {fuel depth : Nat} (ih : ParsesRendered fuel) (fields : Fields)
    (rest : List Char) (hlen : (renderFields fields).length < fuel)
    (hdepth : nestingFields fields + 1 ≤ depth) :
    parseValue (fuel + 1) depth ('\x7b' :: (renderFields fields ++ '\x7d' :: rest)) =
      some (object fields, rest) := by
  rw [parseValue, skipSpace_cons (by decide)]
  simp only [if_neg (by decide : ¬ '\x7b' = '"'), if_neg (by decide : ¬ '\x7b' = '['), if_true,
    if_neg (by omega : ¬depth = 0)]
  cases fields with
  | nil => simp [renderFields, skipSpace_cons (by decide : isSpace '\x7d' = false)]
  | cons entry fields =>
      have hhead : ∀ more, (skipSpace (renderFields (entry :: fields) ++ more)).head? = some '"' := by
        intro more
        simp [renderFields, renderString, skipSpace_cons (by decide : isSpace '"' = false)]
      rw [hhead, if_neg (by decide), ih.fields _ _ _ _ hlen (by omega)]
      rfl

theorem parseItems_step {fuel depth : Nat} (ih : ParsesRendered fuel) (item : Json)
    (items : List Json) (rest : List Char) (hlen : (renderItems (item :: items)).length ≤ fuel)
    (hdepth : nestingItems (item :: items) ≤ depth) :
    parseItems (fuel + 1) depth (renderItems (item :: items) ++ ']' :: rest) =
      some (item :: items, rest) := by
  rw [renderItems, List.length_append] at hlen
  rw [nestingItems, max_le_iff] at hdepth
  rw [parseItems, renderItems, List.append_assoc]
  cases items with
  | nil =>
      rw [renderMoreItems, List.nil_append,
        ih.value _ _ _ (by omega) hdepth.1 (closed_cons (by decide))]
      simp [skipSpace_cons (by decide : isSpace ']' = false)]
  | cons next items =>
      have hmore : renderMoreItems (next :: items) = ',' :: renderItems (next :: items) := by
        rw [renderMoreItems, renderItems]
      rw [hmore, List.length_cons] at hlen
      rw [hmore, List.cons_append, ih.value _ _ _ (by omega) hdepth.1 (closed_cons (by decide))]
      simp [skipSpace_cons (by decide : isSpace ',' = false),
        ih.items next items depth rest (by omega) hdepth.2]

theorem parseFields_step {fuel depth : Nat} (ih : ParsesRendered fuel) (entry : String × Json)
    (fields : Fields) (rest : List Char) (hlen : (renderFields (entry :: fields)).length ≤ fuel)
    (hdepth : nestingFields (entry :: fields) ≤ depth) :
    parseFields (fuel + 1) depth (renderFields (entry :: fields) ++ '\x7d' :: rest) =
      some (entry :: fields, rest) := by
  obtain ⟨key, value⟩ := entry
  have hescape := length_le_escape key.toList
  simp only [renderFields, renderString, List.length_append, List.length_cons,
    List.length_nil] at hlen
  rw [nestingFields, max_le_iff] at hdepth
  simp only [parseFields, renderFields, renderString, List.cons_append, List.append_assoc,
    List.nil_append, skipSpace_cons (by decide : isSpace '"' = false),
    readChars_render (by omega : key.toList.length < fuel), Option.bind_eq_bind, Option.bind_some,
    skipSpace_cons (by decide : isSpace ':' = false), String.ofList_toList]
  cases fields with
  | nil =>
      rw [renderMoreFields, List.nil_append,
        ih.value _ _ _ (by omega) hdepth.1 (closed_cons (by decide))]
      simp [skipSpace_cons (by decide : isSpace '\x7d' = false)]
  | cons next fields =>
      have hmore : renderMoreFields (next :: fields) = ',' :: renderFields (next :: fields) := by
        rw [renderMoreFields, renderFields]
      rw [hmore, List.length_cons] at hlen
      rw [hmore, List.cons_append, ih.value _ _ _ (by omega) hdepth.1 (closed_cons (by decide))]
      simp [skipSpace_cons (by decide : isSpace ',' = false),
        ih.fields next fields depth rest (by omega) hdepth.2]

theorem parsesRendered (fuel : Nat) : ParsesRendered fuel := by
  induction fuel with
  | zero =>
      refine ⟨fun value depth rest hlen => ?_, fun _ _ _ _ hlen => absurd hlen (Nat.not_lt_zero _),
        fun _ _ _ _ hlen => absurd hlen (Nat.not_lt_zero _)⟩
      obtain ⟨c, tail, htext, -⟩ := render_head value
      rw [htext] at hlen
      exact absurd hlen (Nat.not_succ_le_zero _)
  | succ fuel ih =>
      refine ⟨?_, ?_, ?_⟩
      · intro value depth rest hlen hdepth hrest
        cases value with
        | null => exact parseValue_atom "null".toList rfl (by simp [isWord]) (by simp) hrest
        | bool b =>
            cases b with
            | true => exact parseValue_atom "true".toList rfl (by simp [isWord]) (by simp) hrest
            | false =>
                exact parseValue_atom "false".toList rfl (by simp [isWord]) (by simp) hrest
        | number value =>
            rw [render]
            refine parseValue_atom _ ?_ (number_word value.valid) (number_ne_nil value) hrest
            rw [String.ofList_toList, atomOf_number]
        | string value =>
            have hescape := length_le_escape value.toList
            rw [render] at hlen ⊢
            simp only [renderString, List.length_cons, List.length_append, List.length_nil] at hlen
            rw [parseValue_string (by omega), String.ofList_toList]
        | array items =>
            rw [nesting] at hdepth
            simp only [render, List.length_cons, List.length_append, List.length_nil] at hlen
            rw [render, List.cons_append, List.append_assoc]
            exact parseValue_array ih items rest (by omega) hdepth
        | object fields =>
            rw [nesting] at hdepth
            simp only [render, List.length_cons, List.length_append, List.length_nil] at hlen
            rw [render, List.cons_append, List.append_assoc]
            exact parseValue_object ih fields rest (by omega) hdepth
      · exact fun item items depth rest hlen hdepth =>
          parseItems_step ih item items rest (Nat.lt_succ_iff.1 hlen) hdepth
      · exact fun entry fields depth rest hlen hdepth =>
          parseFields_step ih entry fields rest (Nat.lt_succ_iff.1 hlen) hdepth

/-- Reading a rendered value gives the value. -/
theorem parse_render {maxDepth : Nat} (value : Json) (h : value.nesting ≤ maxDepth) :
    parse maxDepth (render value) = some value := by
  have hread := (parsesRendered ((render value).length + 1)).value value maxDepth []
    (Nat.le_succ _) h (by intro c hc; cases hc)
  rw [List.append_nil] at hread
  rw [parse, hread]
  rfl

end RoundTrip

end Json
