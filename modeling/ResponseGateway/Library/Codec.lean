import ResponseGateway.Library.JsonNumber
import ResponseGateway.Library.JsonText

/-!
Typed values in JSON texts. A `Codec` carries the proof that what it writes reads
back; a `Record` is the field list of an object, which refuses unknown and repeated
keys. Sizes are those of the compact text in UTF-8 bytes, and `Within` results
compose along the same combinators, so that a limit on the text of a stored value is
checked once, at its type.
-/

namespace Json

/-- Length of a text in UTF-8 bytes. -/
def width (text : List Char) : Nat := (text.map Char.utf8Size).sum

/-- Length of the compact text in UTF-8 bytes. -/
def size (value : Json) : Nat := width (render value)

/-- Upper bound for the fields of an object, each with a comma and a colon. -/
def fieldsSize : Fields → Nat
  | [] => 0
  | (key, value) :: rest => width (renderString key.toList) + value.size + 2 + fieldsSize rest

/-- Upper bound for the items of an array, each with a comma. -/
def itemsSize : List Json → Nat
  | [] => 0
  | item :: rest => item.size + 1 + itemsSize rest

section Width

@[simp] theorem width_nil : width [] = 0 := rfl

@[simp] theorem width_cons (c : Char) (text : List Char) :
    width (c :: text) = c.utf8Size + width text := by
  simp [width]

@[simp] theorem width_append (s t : List Char) : width (s ++ t) = width s + width t := by
  simp [width]

theorem width_renderMoreFields (fields : Fields) :
    width (renderMoreFields fields) = fieldsSize fields := by
  induction fields with
  | nil => rfl
  | cons entry rest ih =>
      obtain ⟨key, value⟩ := entry
      have hcomma : Char.utf8Size ',' = 1 := rfl
      have hcolon : Char.utf8Size ':' = 1 := rfl
      simp only [renderMoreFields, width_cons, width_append, ih, hcomma, hcolon, fieldsSize, size]
      omega

theorem size_object (fields : Fields) : (object fields).size ≤ fieldsSize fields + 2 := by
  have hopen : Char.utf8Size '\x7b' = 1 := rfl
  have hclose : Char.utf8Size '\x7d' = 1 := rfl
  cases fields with
  | nil => simp [size, render, renderFields, hopen, hclose]
  | cons entry rest =>
      obtain ⟨key, value⟩ := entry
      have hcolon : Char.utf8Size ':' = 1 := rfl
      simp only [size, render, renderFields, width_cons, width_append, width_renderMoreFields,
        width_nil, hopen, hclose, hcolon, fieldsSize]
      omega

theorem width_renderMoreItems (items : List Json) :
    width (renderMoreItems items) = itemsSize items := by
  induction items with
  | nil => rfl
  | cons item rest ih =>
      have hcomma : Char.utf8Size ',' = 1 := rfl
      simp only [renderMoreItems, width_cons, width_append, ih, hcomma, itemsSize, size]
      omega

theorem size_array (items : List Json) : (array items).size ≤ itemsSize items + 2 := by
  have hopen : Char.utf8Size '[' = 1 := rfl
  have hclose : Char.utf8Size ']' = 1 := rfl
  cases items with
  | nil => simp [size, render, renderItems, hopen, hclose]
  | cons item rest =>
      simp only [size, render, renderItems, width_cons, width_append, width_renderMoreItems,
        width_nil, hopen, hclose, itemsSize]
      omega

theorem fieldsSize_append (l m : Fields) : fieldsSize (l ++ m) = fieldsSize l + fieldsSize m := by
  induction l with
  | nil => simp [fieldsSize]
  | cons entry rest ih =>
      simp only [List.cons_append, fieldsSize, ih]
      omega

theorem nestingFields_append (l m : Fields) :
    nestingFields (l ++ m) = max (nestingFields l) (nestingFields m) := by
  induction l with
  | nil => simp [nestingFields]
  | cons entry rest ih => simp only [List.cons_append, nestingFields, ih, Nat.max_assoc]

theorem width_digits {digits : List Char} (h : ∀ c ∈ digits, c.isDigit = true) :
    width digits = digits.length := by
  induction digits with
  | nil => rfl
  | cons c rest ih =>
      rw [List.forall_mem_cons] at h
      have hone : c.utf8Size = 1 := Char.utf8Size_eq_one_iff.2
        (UInt32.le_iff_toNat_le.2 (Nat.le_trans (Char.isDigit_iff_toNat.1 h.1).2 (by decide)))
      rw [width_cons, hone, ih h.2, List.length_cons, Nat.add_comm]

/-- A character that stands for itself and takes one byte. -/
def isPlain (c : Char) : Bool := escape c = [c] && c.utf8Size = 1

theorem isPlain_of_range {c : Char} (hlow : 0x20 ≤ c.toNat) (hhigh : c.toNat ≤ 0x7f)
    (hquote : c ≠ '"') (hslash : c ≠ '\\') : isPlain c = true := by
  have hone : c.utf8Size = 1 := Char.utf8Size_eq_one_iff.2 (UInt32.le_iff_toNat_le.2 hhigh)
  have hne {d : Char} (hd : d.toNat < 0x20) : c ≠ d := by
    rintro rfl
    omega
  have hescape : escape c = [c] := by
    rw [escape, if_neg hquote, if_neg hslash, if_neg (hne (by decide)), if_neg (hne (by decide)),
      if_neg (hne (by decide)), if_neg (hne (by decide)), if_neg (hne (by decide)),
      if_neg (Nat.not_lt.2 hlow)]
  simp [isPlain, hescape, hone]

theorem width_escape (c : Char) : width (escape c) ≤ 6 * c.utf8Size := by
  have hdigit {n : Nat} (h : n < 16) : (hexDigit n).utf8Size = 1 := by
    have hall : ∀ n < 16, (hexDigit n).utf8Size = 1 := by decide
    exact hall n h
  have hshort (d : Char) (hd : d.utf8Size = 1) : width ['\\', d] ≤ 6 * c.utf8Size := by
    have hslash : Char.utf8Size '\\' = 1 := rfl
    have hpos := c.utf8Size_pos
    rw [width_cons, width_cons, width_nil, hslash, hd]
    omega
  unfold escape
  split_ifs with _ _ _ _ _ _ _ hlow
  · exact hshort '"' rfl
  · exact hshort '\\' rfl
  · exact hshort 'b' rfl
  · exact hshort 'f' rfl
  · exact hshort 'n' rfl
  · exact hshort 'r' rfl
  · exact hshort 't' rfl
  · have hslash : Char.utf8Size '\\' = 1 := rfl
    have hu : Char.utf8Size 'u' = 1 := rfl
    have hzero : Char.utf8Size '0' = 1 := rfl
    have hpos := c.utf8Size_pos
    have hhigh : c.toNat / 16 < 16 := by omega
    rw [width_cons, width_cons, width_cons, width_cons, width_cons, width_cons, width_nil,
      hslash, hu, hzero, hdigit hhigh, hdigit (Nat.mod_lt c.toNat (by decide))]
    omega
  · rw [width_cons, width_nil]
    omega

theorem size_string (text : String) : (string text).size ≤ 6 * width text.toList + 2 := by
  have hquote : Char.utf8Size '"' = 1 := rfl
  have hwidth (l : List Char) : width (l.flatMap escape) ≤ 6 * width l := by
    induction l with
    | nil => exact Nat.le_refl _
    | cons c rest ih =>
        have hc := width_escape c
        rw [List.flatMap_cons, width_append, width_cons]
        omega
  have htext := hwidth text.toList
  simp only [size, render, renderString, width_cons, width_append, width_nil, hquote]
  omega

theorem size_plain {text : String} (h : ∀ c ∈ text.toList, isPlain c = true) :
    (string text).size = text.toList.length + 2 := by
  have hquote : Char.utf8Size '"' = 1 := rfl
  have hwidth {l : List Char} (hl : ∀ c ∈ l, isPlain c = true) :
      width (l.flatMap escape) = l.length := by
    induction l with
    | nil => rfl
    | cons c rest ih =>
        rw [List.forall_mem_cons] at hl
        obtain ⟨hc, hrest⟩ := hl
        simp only [isPlain, Bool.and_eq_true, decide_eq_true_eq] at hc
        rw [List.flatMap_cons, width_append, hc.1, ih hrest, width_cons, hc.2, width_nil,
          List.length_cons]
        omega
  simp only [size, render, renderString, width_cons, width_append, width_nil, hwidth h, hquote]
  omega

end Width

/-- Writing and reading a type, with a bound on the nesting of what is written. -/
structure Codec (α : Type) where
  encode : α → Json
  decode : Json → Option α
  decode_encode : ∀ a, decode (encode a) = some a
  depth : Nat
  depth_le : ∀ a, (encode a).nesting ≤ depth

namespace Codec

variable {α β γ : Type}

/-- The text of a value has at most this many bytes. -/
def Within (c : Codec α) (n : Nat) (a : α) : Prop := (c.encode a).size ≤ n

instance (c : Codec α) (n : Nat) (a : α) : Decidable (c.Within n a) :=
  inferInstanceAs (Decidable ((c.encode a).size ≤ n))

theorem Within.mono {c : Codec α} {m n : Nat} {a : α} (h : c.Within m a) (hle : m ≤ n) :
    c.Within n a := Nat.le_trans h hle

theorem encode_inj (c : Codec α) {a b : α} (h : c.encode a = c.encode b) : a = b := by
  have hread := c.decode_encode a
  rw [h, c.decode_encode b] at hread
  exact (Option.some.inj hread).symm

/-- A type written as a text. -/
def text (write : α → String) (read : String → Option α) (h : ∀ a, read (write a) = some a) :
    Codec α where
  encode a := .string (write a)
  decode value := value.asStr.bind read
  decode_encode := h
  depth := 0
  depth_le _ := Nat.le_refl 0

theorem within_text {write : α → String} {read : String → Option α}
    {h : ∀ a, read (write a) = some a} {n : Nat} {a : α}
    (hplain : ∀ c ∈ (write a).toList, isPlain c = true)
    (hlength : (write a).toList.length ≤ n) : (text write read h).Within (n + 2) a := by
  change (string (write a)).size ≤ n + 2
  rw [size_plain hplain]
  exact Nat.add_le_add_right hlength 2

/-- Any text. -/
def str : Codec String := text id some fun _ => rfl

theorem within_str {s : String} {n : Nat} (h : width s.toList ≤ n) :
    str.Within (6 * n + 2) s := by
  have hsize := size_string s
  change (string s).size ≤ 6 * n + 2
  omega

/-- A type with finitely many names. -/
def names (all : List α) (name : α → String)
    (h : ∀ a, all.find? (fun b => name b = name a) = some a) : Codec α :=
  text name (fun s => all.find? fun b => name b = s) h

theorem within_names {all : List α} {name : α → String}
    {h : ∀ a, all.find? (fun b => name b = name a) = some a} {n : Nat}
    (hall : ∀ a ∈ all, (name a).toList.all isPlain = true ∧ (name a).toList.length ≤ n) (a : α) :
    (names all name h).Within (n + 2) a := by
  have hmem : a ∈ all := List.mem_of_find?_eq_some (h a)
  exact within_text (List.all_eq_true.1 (hall a hmem).1) (hall a hmem).2

def bool : Codec Bool where
  encode b := .bool b
  decode := Json.asBool
  decode_encode _ := rfl
  depth := 0
  depth_le _ := Nat.le_refl 0

theorem within_bool (b : Bool) : bool.Within 5 b := by
  cases b with
  | true => decide
  | false => decide

def u64 : Codec UInt64 where
  encode n := .number (.ofNat n.toNat)
  decode value := value.asU64.map UInt64.ofNat
  decode_encode n := by
    rw [Json.asU64, Number.asU64_ofNat n.toNat_lt, Option.map_some, UInt64.ofNat_toNat]
  depth := 0
  depth_le _ := Nat.le_refl 0

theorem within_u64 (n : UInt64) : u64.Within 20 n := by
  change width n.toNat.repr.toList ≤ 20
  rw [Nat.toList_repr, width_digits (plain_toDigits _).1]
  exact Nat.toDigits_length 10 _ 20 (by decide) (Nat.lt_trans n.toNat_lt (by decide))

def u16 : Codec UInt16 where
  encode n := .number (.ofNat n.toNat)
  decode value := value.asU64.bind fun n => if n < 2 ^ 16 then some (UInt16.ofNat n) else none
  decode_encode n := by
    have hn : n.toNat < 2 ^ 16 := n.toNat_lt
    rw [Json.asU64, Number.asU64_ofNat (hn.trans (by decide)), Option.bind_some, if_pos hn,
      UInt16.ofNat_toNat]
  depth := 0
  depth_le _ := Nat.le_refl 0

theorem within_u16 (n : UInt16) : u16.Within 20 n := by
  change width n.toNat.repr.toList ≤ 20
  rw [Nat.toList_repr, width_digits (plain_toDigits _).1]
  exact Nat.toDigits_length 10 _ 20 (by decide) (Nat.lt_trans n.toNat_lt (by decide))

/-- An optional value; a missing one is `null`. -/
def nullable (c : Codec α) (h : ∀ a, c.encode a ≠ .null) : Codec (Option α) where
  encode
    | some a => c.encode a
    | none => .null
  decode value := if value = .null then some none else (c.decode value).map some
  decode_encode a := by
    cases a with
    | none => rfl
    | some a => rw [if_neg (h a), c.decode_encode, Option.map_some]
  depth := c.depth
  depth_le a := by
    cases a with
    | none => exact Nat.zero_le _
    | some a => exact c.depth_le a

theorem within_nullable {c : Codec α} {h : ∀ a, c.encode a ≠ .null} {n : Nat} {o : Option α}
    (hc : ∀ a, o = some a → c.Within n a) (hn : 4 ≤ n) : (c.nullable h).Within n o := by
  cases o with
  | none => exact hn
  | some a => exact hc a rfl

def list (c : Codec α) : Codec (List α) where
  encode l := .array (l.map c.encode)
  decode value := value.asArray.bind fun items => items.mapM c.decode
  decode_encode l := by
    change (l.map c.encode).mapM c.decode = some l
    induction l with
    | nil => rfl
    | cons a rest ih => simp [c.decode_encode, ih]
  depth := c.depth + 1
  depth_le l := by
    change nestingItems (l.map c.encode) + 1 ≤ c.depth + 1
    refine Nat.add_le_add_right ?_ 1
    induction l with
    | nil => exact Nat.zero_le _
    | cons a rest ih => exact Nat.max_le.2 ⟨c.depth_le a, ih⟩

/-- A map from texts, written as an object. -/
def mapping (c : Codec α) : Codec (OrderedMap String α) where
  encode m := .object (m.entries.map fun entry => (entry.1, c.encode entry.2))
  decode value := do
    let fields ← value.asObject
    let entries ← fields.mapM fun field => (c.decode field.2).map fun a => (field.1, a)
    return entries.foldl (fun m entry => m.insert entry.1 entry.2) .empty
  decode_encode m := by
    have hentries : ∀ l : List (String × α), (l.map fun entry => (entry.1, c.encode entry.2)).mapM
        (fun field => (c.decode field.2).map fun a => (field.1, a)) = some l := by
      intro l
      induction l with
      | nil => rfl
      | cons entry rest ih => simp [c.decode_encode, ih]
    simp only [asObject, Option.bind_eq_bind, Option.bind_some, hentries, Option.pure_def,
      m.foldl_insert_entries]
  depth := c.depth + 1
  depth_le m := by
    change nestingFields (m.entries.map fun entry => (entry.1, c.encode entry.2)) + 1 ≤ c.depth + 1
    refine Nat.add_le_add_right ?_ 1
    induction m.entries with
    | nil => exact Nat.zero_le _
    | cons entry rest ih => exact Nat.max_le.2 ⟨c.depth_le entry.2, ih⟩

/-- The same values under another type. -/
def map (c : Codec α) (f : α → β) (g : β → α) (h : ∀ b, f (g b) = b) : Codec β where
  encode b := c.encode (g b)
  decode value := (c.decode value).map f
  decode_encode b := by rw [c.decode_encode, Option.map_some, h]
  depth := c.depth
  depth_le b := c.depth_le (g b)

theorem within_map {c : Codec α} {f : α → β} {g : β → α} {h : ∀ b, f (g b) = b} {n : Nat} {b : β}
    (hc : c.Within n (g b)) : (c.map f g h).Within n b := hc

/-- One of two forms that no text has both of. -/
def either (c : Codec α) (d : Codec β) (h : ∀ b, c.decode (d.encode b) = none) :
    Codec (α ⊕ β) where
  encode
    | .inl a => c.encode a
    | .inr b => d.encode b
  decode value := ((c.decode value).map .inl).or ((d.decode value).map .inr)
  decode_encode x := by
    cases x with
    | inl a => simp [c.decode_encode]
    | inr b => simp [h, d.decode_encode]
  depth := max c.depth d.depth
  depth_le x := by
    cases x with
    | inl a => exact Nat.le_trans (c.depth_le a) (Nat.le_max_left _ _)
    | inr b => exact Nat.le_trans (d.depth_le b) (Nat.le_max_right _ _)

end Codec

/-- The fields of an object type, in the order they are written. -/
structure Record (α : Type) where
  keys : List String
  encode : α → Fields
  keys_encode : ∀ a, (encode a).map Prod.fst = keys
  decode : (String → Option Json) → Option α
  decode_encode : ∀ a get, (∀ entry ∈ encode a, get entry.1 = some entry.2) → decode get = some a
  depth : Nat
  depth_le : ∀ a, nestingFields (encode a) ≤ depth

namespace Record

variable {α β : Type}

/-- The fields take at most this many bytes, each with a comma and a colon. -/
def Within (r : Record α) (n : Nat) (a : α) : Prop := fieldsSize (r.encode a) ≤ n

def field (key : String) (c : Codec α) : Record α where
  keys := [key]
  encode a := [(key, c.encode a)]
  keys_encode _ := rfl
  decode get := (get key).bind c.decode
  decode_encode a get h := by
    rw [h (key, c.encode a) (List.mem_singleton_self _), Option.bind_some, c.decode_encode]
  depth := c.depth
  depth_le a := Nat.max_le.2 ⟨c.depth_le a, Nat.zero_le _⟩

/-- A field that may be absent, which reads as `null` does. -/
def optional (key : String) (c : Codec (Option α)) : Record (Option α) where
  keys := [key]
  encode a := [(key, c.encode a)]
  keys_encode _ := rfl
  decode get :=
    match get key with
    | some value => c.decode value
    | none => some none
  decode_encode a get h := by
    rw [h (key, c.encode a) (List.mem_singleton_self _)]
    exact c.decode_encode a
  depth := c.depth
  depth_le a := Nat.max_le.2 ⟨c.depth_le a, Nat.zero_le _⟩

/-- A tag. -/
def tag (key name : String) : Record Unit where
  keys := [key]
  encode _ := [(key, .string name)]
  keys_encode _ := rfl
  decode get := if get key = some (.string name) then some () else none
  decode_encode a get h := by
    rw [h (key, .string name) (List.mem_singleton_self _), if_pos rfl]
  depth := 0
  depth_le _ := Nat.le_refl 0

def and (r : Record α) (s : Record β) : Record (α × β) where
  keys := r.keys ++ s.keys
  encode a := r.encode a.1 ++ s.encode a.2
  keys_encode a := by rw [List.map_append, r.keys_encode, s.keys_encode]
  decode get := do
    let a ← r.decode get
    let b ← s.decode get
    return (a, b)
  decode_encode a get h := by
    rw [List.forall_mem_append] at h
    rw [r.decode_encode a.1 get h.1, s.decode_encode a.2 get h.2]
    rfl
  depth := max r.depth s.depth
  depth_le a := by
    rw [nestingFields_append]
    exact Nat.max_le.2 ⟨Nat.le_trans (r.depth_le a.1) (Nat.le_max_left _ _),
      Nat.le_trans (s.depth_le a.2) (Nat.le_max_right _ _)⟩

theorem within_field (key : String) {c : Codec α} {n : Nat} {a : α} (hc : c.Within n a) :
    (field key c).Within (width (renderString key.toList) + n + 2) a := by
  have ha : (c.encode a).size ≤ n := hc
  change width _ + (c.encode a).size + 2 + 0 ≤ _
  omega

theorem within_optional (key : String) {c : Codec (Option α)} {n : Nat} {a : Option α}
    (hc : c.Within n a) :
    (optional key c).Within (width (renderString key.toList) + n + 2) a := within_field key hc

theorem within_tag (key name : String) (a : Unit) :
    (tag key name).Within (width (renderString key.toList) + (string name).size + 2) a :=
  Nat.le_refl _

theorem within_and {r : Record α} {s : Record β} {m n : Nat} {a : α × β} (hr : r.Within m a.1)
    (hs : s.Within n a.2) : (r.and s).Within (m + n) a := by
  change fieldsSize (r.encode a.1 ++ s.encode a.2) ≤ m + n
  rw [fieldsSize_append]
  exact Nat.add_le_add hr hs

/-- The object with these fields and no others, each once. -/
def codec (r : Record α) (h : r.keys.Nodup) : Codec α where
  encode a := .object (r.encode a)
  decode value := do
    let fields ← value.asObject
    if (fields.map Prod.fst).Nodup ∧ ∀ key ∈ fields.map Prod.fst, key ∈ r.keys then
      r.decode fun key => Assoc.get key fields
    else none
  decode_encode a := by
    have hkeys := r.keys_encode a
    have hnodup : ((r.encode a).map Prod.fst).Nodup := hkeys ▸ h
    change (if ((r.encode a).map Prod.fst).Nodup ∧ _ then _ else none) = _
    rw [if_pos ⟨hnodup, fun key hkey => hkeys ▸ hkey⟩]
    exact r.decode_encode a _ fun entry hentry => Assoc.get_of_nodup hnodup hentry
  depth := r.depth + 1
  depth_le a := Nat.add_le_add_right (r.depth_le a) 1

theorem within_codec {r : Record α} {h : r.keys.Nodup} {m n : Nat} {a : α} (hr : r.Within m a)
    (hle : m + 2 ≤ n) : (r.codec h).Within n a :=
  Nat.le_trans (Nat.le_trans (size_object _) (Nat.add_le_add_right hr 2)) hle

/-- Objects with different tags are never confused. -/
theorem decode_tag {key name other : String} {r : Record α} {s : Record β}
    {h : ((tag key name).and r).keys.Nodup} {k : ((tag key other).and s).keys.Nodup}
    (hne : name ≠ other) (b : Unit × β) :
    (((tag key name).and r).codec h).decode ((((tag key other).and s).codec k).encode b) =
      none := by
  have hread : ((tag key name).and r).decode
      (fun k => Assoc.get k (((tag key other).and s).encode b)) = none := by
    simp [Record.and, tag, Ne.symm hne, Assoc.get_cons]
  change (if _ then ((tag key name).and r).decode _ else none) = none
  rw [hread, ite_self]

end Record

/-- The value of a text, with the nesting limit of the parser. -/
def Codec.read {α : Type} (c : Codec α) (maxDepth : Nat) (text : String) : Option α :=
  (parse maxDepth text.toList).bind c.decode

theorem Codec.read_render {α : Type} (c : Codec α) {maxDepth : Nat} (h : c.depth ≤ maxDepth)
    (a : α) : c.read maxDepth (String.ofList (render (c.encode a))) = some a := by
  rw [Codec.read, String.toList_ofList, parse_render _ (Nat.le_trans (c.depth_le a) h),
    Option.bind_some, c.decode_encode]

end Json
