import ResponseGateway.Library.JsonNumber
import ResponseGateway.Library.JsonText

/-!
The value a parser hands out for a text. Objects become sorted maps in which the
last of two equal keys wins, the exponent of a number gets a sign, and the integer
`-0` is zero. A number reaches the value through an object with one reserved key, so
a text that has such an object reads as a number too. `Settled` values are those that
reading leaves as they are; `readText` adds the bound on nesting.
-/

namespace Json

section Parsing

/-- A parser that accepts a text accepts it under a weaker bound. -/
structure ParsesDeeper (fuel : Nat) : Prop where
  value : ∀ {depth depth' text value rest}, depth ≤ depth' →
    parseValue fuel depth text = some (value, rest) →
    parseValue fuel depth' text = some (value, rest) ∧ value.nesting ≤ depth
  items : ∀ {depth depth' text items rest}, depth ≤ depth' →
    parseItems fuel depth text = some (items, rest) →
    parseItems fuel depth' text = some (items, rest) ∧ nestingItems items ≤ depth
  fields : ∀ {depth depth' text fields rest}, depth ≤ depth' →
    parseFields fuel depth text = some (fields, rest) →
    parseFields fuel depth' text = some (fields, rest) ∧ nestingFields fields ≤ depth

theorem atomOf_nesting {word : String} {value : Json} (h : atomOf word = some value) :
    value.nesting = 0 := by
  unfold atomOf at h
  split_ifs at h <;> cases h <;> rfl

theorem parseAtom_nesting {text rest : List Char} {value : Json}
    (h : parseAtom text = some (value, rest)) : value.nesting = 0 := by
  simp only [parseAtom, Option.bind_eq_bind, Option.bind_eq_some_iff, Option.pure_def,
    Option.some.injEq, Prod.mk.injEq] at h
  obtain ⟨value, hatom, rfl, -⟩ := h
  exact atomOf_nesting hatom

theorem parseValue_deeper {fuel depth depth' : Nat} {text rest : List Char} {value : Json}
    (ih : ParsesDeeper fuel) (hle : depth ≤ depth')
    (h : parseValue (fuel + 1) depth text = some (value, rest)) :
    parseValue (fuel + 1) depth' text = some (value, rest) ∧ value.nesting ≤ depth := by
  rw [parseValue] at h ⊢
  split at h
  · cases h
  next c tail htext =>
  by_cases hquote : c = '"'
  · simp only [if_pos hquote, Option.bind_eq_bind, Option.bind_eq_some_iff, Option.pure_def,
      Option.some.injEq, Prod.mk.injEq, Prod.exists] at h ⊢
    obtain ⟨chars, rest', hread, rfl, rfl⟩ := h
    exact ⟨⟨chars, rest', hread, rfl, rfl⟩, Nat.zero_le _⟩
  simp only [if_neg hquote] at h ⊢
  by_cases hopen : c = '['
  · simp only [if_pos hopen] at h ⊢
    by_cases hzero : depth = 0
    · rw [if_pos hzero] at h
      cases h
    rw [if_neg hzero] at h
    rw [if_neg (by omega : ¬depth' = 0)]
    by_cases hclose : (skipSpace tail).head? = some ']'
    · simp only [if_pos hclose, Option.some.injEq, Prod.mk.injEq] at h ⊢
      obtain ⟨rfl, rfl⟩ := h
      exact ⟨⟨rfl, rfl⟩, Nat.pos_of_ne_zero hzero⟩
    · simp only [if_neg hclose, Option.bind_eq_bind, Option.bind_eq_some_iff, Option.pure_def,
        Option.some.injEq, Prod.mk.injEq, Prod.exists] at h ⊢
      obtain ⟨items, rest', hread, rfl, rfl⟩ := h
      obtain ⟨hread', hnesting⟩ := ih.items (Nat.sub_le_sub_right hle 1) hread
      rw [nesting]
      exact ⟨⟨items, rest', hread', rfl, rfl⟩, by omega⟩
  simp only [if_neg hopen] at h ⊢
  by_cases hbrace : c = '\x7b'
  · simp only [if_pos hbrace] at h ⊢
    by_cases hzero : depth = 0
    · rw [if_pos hzero] at h
      cases h
    rw [if_neg hzero] at h
    rw [if_neg (by omega : ¬depth' = 0)]
    by_cases hclose : (skipSpace tail).head? = some '\x7d'
    · simp only [if_pos hclose, Option.some.injEq, Prod.mk.injEq] at h ⊢
      obtain ⟨rfl, rfl⟩ := h
      exact ⟨⟨rfl, rfl⟩, Nat.pos_of_ne_zero hzero⟩
    · simp only [if_neg hclose, Option.bind_eq_bind, Option.bind_eq_some_iff, Option.pure_def,
        Option.some.injEq, Prod.mk.injEq, Prod.exists] at h ⊢
      obtain ⟨fields, rest', hread, rfl, rfl⟩ := h
      obtain ⟨hread', hnesting⟩ := ih.fields (Nat.sub_le_sub_right hle 1) hread
      rw [nesting]
      exact ⟨⟨fields, rest', hread', rfl, rfl⟩, by omega⟩
  · simp only [if_neg hbrace] at h ⊢
    exact ⟨h, (parseAtom_nesting h).le.trans (Nat.zero_le _)⟩

theorem parseItems_deeper {fuel depth depth' : Nat} {text rest : List Char} {items : List Json}
    (ih : ParsesDeeper fuel) (hle : depth ≤ depth')
    (h : parseItems (fuel + 1) depth text = some (items, rest)) :
    parseItems (fuel + 1) depth' text = some (items, rest) ∧ nestingItems items ≤ depth := by
  simp only [parseItems, Option.bind_eq_bind, Option.bind_eq_some_iff, Prod.exists] at h ⊢
  obtain ⟨item, rest₁, hitem, h⟩ := h
  obtain ⟨hitem', hnesting⟩ := ih.value hle hitem
  split at h
  · next rest₂ hcomma =>
      simp only [Option.bind_eq_some_iff, Option.pure_def, Option.some.injEq, Prod.mk.injEq,
        Prod.exists] at h
      obtain ⟨more, rest₃, hmore, rfl, rfl⟩ := h
      obtain ⟨hmore', hrest⟩ := ih.items hle hmore
      refine ⟨⟨item, rest₁, hitem', ?_⟩, Nat.max_le.2 ⟨hnesting, hrest⟩⟩
      rw [hcomma]
      simp only [hmore', Option.bind_some, Option.pure_def]
  · next rest₂ hclose =>
      simp only [Option.pure_def, Option.some.injEq, Prod.mk.injEq] at h
      obtain ⟨rfl, rfl⟩ := h
      refine ⟨⟨item, rest₁, hitem', ?_⟩, Nat.max_le.2 ⟨hnesting, Nat.zero_le _⟩⟩
      rw [hclose]
      rfl
  · cases h

theorem parseFields_deeper {fuel depth depth' : Nat} {text rest : List Char} {fields : Fields}
    (ih : ParsesDeeper fuel) (hle : depth ≤ depth')
    (h : parseFields (fuel + 1) depth text = some (fields, rest)) :
    parseFields (fuel + 1) depth' text = some (fields, rest) ∧ nestingFields fields ≤ depth := by
  rw [parseFields] at h ⊢
  split at h
  · next rest₀ hquote =>
      simp only [Option.bind_eq_bind, Option.bind_eq_some_iff, Prod.exists] at h ⊢
      obtain ⟨key, rest₁, hkey, h⟩ := h
      split at h
      · next rest₂ hcolon =>
          simp only [Option.bind_eq_some_iff, Prod.exists] at h
          obtain ⟨value, rest₃, hvalue, h⟩ := h
          obtain ⟨hvalue', hnesting⟩ := ih.value hle hvalue
          split at h
          · next rest₄ hcomma =>
              simp only [Option.bind_eq_some_iff, Option.pure_def, Option.some.injEq,
                Prod.mk.injEq, Prod.exists] at h
              obtain ⟨more, rest₅, hmore, rfl, rfl⟩ := h
              obtain ⟨hmore', hrest⟩ := ih.fields hle hmore
              refine ⟨⟨key, rest₁, hkey, ?_⟩, Nat.max_le.2 ⟨hnesting, hrest⟩⟩
              simp only [hcolon, hvalue', hcomma, hmore', Option.bind_some, Option.pure_def]
          · next rest₄ hclose =>
              simp only [Option.pure_def, Option.some.injEq, Prod.mk.injEq] at h
              obtain ⟨rfl, rfl⟩ := h
              refine ⟨⟨key, rest₁, hkey, ?_⟩, Nat.max_le.2 ⟨hnesting, Nat.zero_le _⟩⟩
              simp only [hcolon, hvalue', hclose, Option.bind_some, Option.pure_def]
          · cases h
      · cases h
  · cases h

theorem parsesDeeper (fuel : Nat) : ParsesDeeper fuel := by
  induction fuel with
  | zero =>
      refine ⟨fun _ h => ?_, fun _ h => ?_, fun _ h => ?_⟩
      · rw [parseValue] at h
        cases h
      · rw [parseItems] at h
        cases h
      · rw [parseFields] at h
        cases h
  | succ fuel ih =>
      exact ⟨parseValue_deeper ih, parseItems_deeper ih, parseFields_deeper ih⟩

/-- A rendered value is read as itself exactly within the bound on nesting. -/
theorem parse_render_iff {maxDepth : Nat} {value value' : Json} :
    parse maxDepth (render value) = some value' ↔ value' = value ∧ value.nesting ≤ maxDepth := by
  constructor
  · intro h
    have hdeep := parse_render value (Nat.le_max_right maxDepth value.nesting)
    unfold parse at h hdeep
    split at h
    · next value'' rest hread =>
        obtain ⟨hread', hnesting⟩ :=
          (parsesDeeper _).value (Nat.le_max_left maxDepth value.nesting) hread
        simp only [hread'] at hdeep
        split at h
        · next hend =>
            rw [if_pos hend] at hdeep
            cases h
            cases hdeep
            exact ⟨rfl, hnesting⟩
        · cases h
    · cases h
  · rintro ⟨rfl, h⟩
    exact parse_render _ h

end Parsing

section Values

/-- The key under which a parser hands a number over. -/
def numberToken : String := "$serde_json::private::Number"

/-- The exponent is given a sign. -/
def signExponent : List Char → List Char
  | [] => []
  | c :: rest =>
      if c = 'e' ∨ c = 'E' then
        if rest.head? = some '+' ∨ rest.head? = some '-' then c :: rest else c :: '+' :: rest
      else c :: signExponent rest

/-- The number kept for a number text. -/
def Number.kept (value : Number) : Option Json :=
  let text := if value.text = "-0" then "0" else String.ofList (signExponent value.text.toList)
  if h : isNumber text = true then some (number ⟨text, h⟩) else none

/-- The number an object with the reserved key stands for. -/
def tokenNumber (value : Json) (rest : Fields) : Option Json :=
  match value, rest with
  | string text, [] => if h : isNumber text = true then Number.kept ⟨text, h⟩ else none
  | _, _ => none

mutual

/-- The value kept for a parsed one. -/
def kept : Json → Option Json
  | null => some null
  | bool b => some (bool b)
  | string text => some (string text)
  | number value => value.kept
  | array items => (keptItems items).map array
  | object [] => some (object [])
  | object ((key, value) :: rest) =>
      if key = numberToken then tokenNumber value rest
      else do
        let value ← kept value
        let rest ← keptFields rest
        return object (if (Assoc.get key rest).isSome then rest else Assoc.insert key value rest)

def keptItems : List Json → Option (List Json)
  | [] => some []
  | item :: rest => do
      let item ← kept item
      let rest ← keptItems rest
      return item :: rest

/-- From the back, so that a key is not written over by an earlier one. -/
def keptFields : List (String × Json) → Option Fields
  | [] => some []
  | (key, value) :: rest => do
      let value ← kept value
      let rest ← keptFields rest
      return if (Assoc.get key rest).isSome then rest else Assoc.insert key value rest

end

/-- The value of a text. -/
def readText (maxDepth : Nat) (text : List Char) : Option Json :=
  (parse maxDepth text).bind kept

/-- A number as a parser keeps it. -/
def Number.Settled (value : Number) : Prop :=
  value.text ≠ "-0" ∧ signExponent value.text.toList = value.text.toList

mutual

/-- Sorted objects, numbers as a parser keeps them, and no object that stands for one. -/
def Settled : Json → Prop
  | number value => value.Settled
  | array items => SettledItems items
  | object fields =>
      fields.head?.map Prod.fst ≠ some numberToken ∧ Assoc.Sorted fields ∧ SettledFields fields
  | _ => True

def SettledItems : List Json → Prop
  | [] => True
  | item :: rest => Settled item ∧ SettledItems rest

def SettledFields : List (String × Json) → Prop
  | [] => True
  | (_, value) :: rest => Settled value ∧ SettledFields rest

end

theorem settledItems_iff {items : List Json} :
    SettledItems items ↔ ∀ item ∈ items, Settled item := by
  induction items with
  | nil => simp [SettledItems]
  | cons item rest ih => simp [SettledItems, ih]

theorem settledFields_iff {fields : Fields} :
    SettledFields fields ↔ ∀ entry ∈ fields, Settled entry.2 := by
  induction fields with
  | nil => simp [SettledFields]
  | cons entry rest ih => simp [SettledFields, ih]

theorem Number.kept_iff {value : Number} : value.kept = some (number value) ↔ value.Settled := by
  unfold Number.kept Number.Settled
  by_cases hzero : value.text = "-0"
  · have hne : (⟨"0", by decide⟩ : Number) ≠ value := by
      rintro rfl
      exact absurd hzero (by decide)
    simpa [hzero, (by decide : isNumber "0" = true)] using hne
  · simp only [hzero, ↓reduceIte, ne_eq, not_false_eq_true, true_and]
    constructor
    · intro h
      by_cases hnumber : isNumber (String.ofList (signExponent value.text.toList)) = true
      · rw [dif_pos hnumber, Option.some.injEq, number.injEq] at h
        conv_rhs => rw [← h]
        rw [String.toList_ofList]
      · rw [dif_neg hnumber] at h
        cases h
    · intro h
      rw [dif_pos (by rw [h, String.ofList_toList]; exact value.valid)]
      simp only [h, String.ofList_toList]

theorem tokenNumber_ne (value : Json) (rest fields : Fields) :
    tokenNumber value rest ≠ some (object fields) := by
  unfold tokenNumber
  split
  · split
    · unfold Number.kept
      split <;> simp
    · simp
  · simp

theorem keptFields_sorted {fields l : Fields} (h : keptFields fields = some l) :
    Assoc.Sorted l := by
  induction fields generalizing l with
  | nil =>
      cases h
      exact Assoc.sorted_nil
  | cons entry rest ih =>
      obtain ⟨key, value⟩ := entry
      simp only [keptFields, Option.bind_eq_bind, Option.bind_eq_some_iff, Option.pure_def,
        Option.some.injEq] at h
      obtain ⟨value', -, rest', hrest, rfl⟩ := h
      split
      · exact ih hrest
      · exact Assoc.sorted_insert _ _ (ih hrest)

theorem keptFields_keys {fields l : Fields} (h : keptFields fields = some l) :
    ∀ entry ∈ l, ∃ entry' ∈ fields, entry'.1 = entry.1 := by
  induction fields generalizing l with
  | nil =>
      cases h
      simp
  | cons head rest ih =>
      obtain ⟨key, value⟩ := head
      simp only [keptFields, Option.bind_eq_bind, Option.bind_eq_some_iff, Option.pure_def,
        Option.some.injEq] at h
      obtain ⟨value', -, rest', hrest, rfl⟩ := h
      intro entry hentry
      split at hentry
      · obtain ⟨entry', hmem, heq⟩ := ih hrest entry hentry
        exact ⟨entry', List.mem_cons_of_mem _ hmem, heq⟩
      · rcases Assoc.mem_insert hentry with rfl | hentry
        · exact ⟨(key, value), List.mem_cons_self, rfl⟩
        · obtain ⟨entry', hmem, heq⟩ := ih hrest entry hentry
          exact ⟨entry', List.mem_cons_of_mem _ hmem, heq⟩

/-- A field in front of larger keys stays there. -/
theorem keptFields_cons {key : String} {value : Json} {rest : Fields}
    (hlt : ∀ entry ∈ rest, key < entry.1) :
    keptFields ((key, value) :: rest) = some ((key, value) :: rest) ↔
      kept value = some value ∧ keptFields rest = some rest := by
  have hfront : ∀ {l : Fields}, keptFields rest = some l → ∀ entry ∈ l, key < entry.1 := by
    intro l hl entry hentry
    obtain ⟨entry', hmem, heq⟩ := keptFields_keys hl entry hentry
    exact heq ▸ hlt entry' hmem
  have hfresh : ∀ {l : Fields}, keptFields rest = some l → (Assoc.get key l).isSome = false := by
    intro l hl
    rw [Assoc.get_eq_none.2 fun entry hentry => (hfront hl entry hentry).ne']
    rfl
  simp only [keptFields, Option.bind_eq_bind, Option.bind_eq_some_iff, Option.pure_def,
    Option.some.injEq]
  constructor
  · rintro ⟨value', hvalue, rest', hrest, heq⟩
    rw [hfresh hrest, if_neg Bool.false_ne_true, Assoc.insert_first _ (hfront hrest)] at heq
    cases heq
    exact ⟨hvalue, hrest⟩
  · rintro ⟨hvalue, hrest⟩
    refine ⟨value, hvalue, rest, hrest, ?_⟩
    rw [hfresh hrest, if_neg Bool.false_ne_true, Assoc.insert_first _ hlt]

mutual

/-- Reading leaves exactly the settled values as they are. -/
theorem kept_iff : (value : Json) → (kept value = some value ↔ Settled value)
  | null | bool _ | string _ => by simp [kept, Settled]
  | number value => by
      rw [kept, Settled, Number.kept_iff]
  | array items => by
      rw [kept, Settled, ← keptItems_iff items]
      simp [Option.map_eq_some_iff]
  | object [] => by simp [kept, Settled, SettledFields, Assoc.sorted_nil]
  | object ((key, value) :: rest) => by
      rw [kept, Settled]
      by_cases htoken : key = numberToken
      · simp [htoken, tokenNumber_ne]
      · have hfields : (do
            let value ← kept value
            let rest ← keptFields rest
            return object (if (Assoc.get key rest).isSome then rest
              else Assoc.insert key value rest)) =
            (keptFields ((key, value) :: rest)).map object := by
          rw [keptFields]
          cases kept value <;> cases keptFields rest <;> rfl
        rw [if_neg htoken, hfields, Option.map_eq_some_iff, ← keptFields_iff ((key, value) :: rest)]
        simp [htoken]

theorem keptItems_iff : (items : List Json) → (keptItems items = some items ↔ SettledItems items)
  | [] => by simp [keptItems, SettledItems]
  | item :: rest => by
      rw [SettledItems, ← kept_iff item, ← keptItems_iff rest, keptItems]
      simp only [Option.bind_eq_bind, Option.bind_eq_some_iff, Option.pure_def, Option.some.injEq,
        List.cons.injEq]
      constructor
      · rintro ⟨item', hitem, rest', hrest, rfl, rfl⟩
        exact ⟨hitem, hrest⟩
      · rintro ⟨hitem, hrest⟩
        exact ⟨item, hitem, rest, hrest, rfl, rfl⟩

theorem keptFields_iff : (fields : Fields) →
    (keptFields fields = some fields ↔ Assoc.Sorted fields ∧ SettledFields fields)
  | [] => by simp [keptFields, SettledFields, Assoc.sorted_nil]
  | (key, value) :: rest => by
      rw [SettledFields, Assoc.sorted_cons, ← kept_iff value]
      constructor
      · intro h
        obtain ⟨hlt, hsorted⟩ := Assoc.sorted_cons.1 (keptFields_sorted h)
        obtain ⟨hvalue, hrest⟩ := (keptFields_cons hlt).1 h
        exact ⟨⟨hlt, hsorted⟩, hvalue, ((keptFields_iff rest).1 hrest).2⟩
      · rintro ⟨⟨hlt, hsorted⟩, hvalue, hrest⟩
        exact (keptFields_cons hlt).2 ⟨hvalue, (keptFields_iff rest).2 ⟨hsorted, hrest⟩⟩

end

end Values

section Readers

/-- The fields of a structure: a map of known keys, each once, or all values in order. -/
def structFields (names : List String) : Json → Option (String → Option Json)
  | object fields =>
      if (fields.map Prod.fst).Nodup ∧ ∀ key ∈ fields.map Prod.fst, key ∈ names then
        some fun key => Assoc.get key fields
      else none
  | array items =>
      if items.length = names.length then some fun key => Assoc.get key (names.zip items) else none
  | _ => none

/-- The name of a variant without data. -/
def unitVariant : Json → Option String
  | string name => some name
  | object [(name, null)] => some name
  | _ => none

/-- A structure with the name of its variant in a field. -/
def tagged (tag : String) : Json → Option (String × Json)
  | object fields =>
      match fields.filter fun entry => entry.1 = tag with
      | [(_, string name)] => some (name, object (fields.filter fun entry => entry.1 ≠ tag))
      | _ => none
  | array (string name :: rest) => some (name, array rest)
  | _ => none

def asU32 (value : Json) : Option Nat :=
  value.asU64.bind fun n => if n < 2 ^ 32 then some n else none

def Number.asI64 (value : Number) : Option Int :=
  match value.text.toList with
  | '-' :: digits =>
      (parseU64 (String.ofList digits)).bind fun n =>
        if 0 < n ∧ n ≤ 2 ^ 63 then some (-n : Int) else none
  | _ => value.asU64.bind fun n => if n < 2 ^ 63 then some (n : Int) else none

def asI64 : Json → Option Int
  | number value => value.asI64
  | _ => none

/-- A text that may be absent or `null`. -/
def optionalStr : Option Json → Option (Option String)
  | none | some null => some none
  | some (string text) => some (some text)
  | _ => none

theorem structFields_object {names : List String} {fields : Fields}
    (hkeys : fields.map Prod.fst = names) (hnodup : names.Nodup) :
    structFields names (object fields) = some fun key => Assoc.get key fields := by
  rw [structFields, if_pos ⟨hkeys ▸ hnodup, fun key hkey => hkeys ▸ hkey⟩]

theorem tagged_object {tag name : String} {rest : Fields}
    (h : ∀ entry ∈ rest, entry.1 ≠ tag) :
    tagged tag (object ((tag, string name) :: rest)) = some (name, object rest) := by
  have hnone : rest.filter (fun entry => entry.1 = tag) = [] :=
    List.filter_eq_nil_iff.2 fun entry hentry => by simpa using h entry hentry
  have hall : rest.filter (fun entry => entry.1 ≠ tag) = rest :=
    List.filter_eq_self.2 fun entry hentry => by simpa using h entry hentry
  rw [tagged, List.filter_cons_of_pos (by simp), hnone, List.filter_cons_of_neg (by simp), hall]

theorem asU64_ofNat {n : Nat} (h : n < 2 ^ 64) : asU64 (number (.ofNat n)) = some n :=
  Number.asU64_ofNat h

theorem asU32_ofNat {n : Nat} (h : n < 2 ^ 32) : asU32 (number (.ofNat n)) = some n := by
  rw [asU32, asU64_ofNat (h.trans (by decide)), Option.bind_some, if_pos h]

theorem asI64_ofInt {n : Int} (hpos : 0 < n) (h : n < 2 ^ 63) :
    asI64 (number (.ofInt n)) = some n := by
  obtain ⟨n, rfl⟩ := Int.eq_ofNat_of_zero_le hpos.le
  have hlt : n < 2 ^ 63 := by exact_mod_cast h
  change (Number.ofNat n).asI64 = _
  have hplain := plain_toDigits n
  unfold Number.asI64
  split
  · next digits heq =>
      have htext : (Number.ofNat n).text.toList = Nat.toDigits 10 n := Nat.toList_repr
      rw [htext] at heq
      exact absurd (hplain.1 '-' (heq ▸ List.mem_cons_self)) (by decide)
  · rw [Number.asU64_ofNat (hlt.trans (by decide)), Option.bind_some, if_pos hlt]

theorem optionalStr_map (text : Option String) :
    optionalStr (some ((text.map string).getD null)) = some text := by
  cases text <;> rfl

end Readers

end Json
