import ResponseGateway.Library.OrderedMap

/-!
JSON values. An object is an association list; `Canonical` says that its keys,
and those of every object inside it, are strictly increasing, which is what a
map sorted by key guarantees. A number is its text: values that differ only in
how a number is written are different values.
-/

namespace Json

/-- The rest after the digits of an integer without leading zeros. -/
def scanInteger : List Char → Option (List Char)
  | [] => none
  | '0' :: rest => some rest
  | c :: rest => if c.isDigit then some (rest.dropWhile Char.isDigit) else none

/-- The rest after at least one digit. -/
def scanDigits : List Char → Option (List Char)
  | [] => none
  | c :: rest => if c.isDigit then some (rest.dropWhile Char.isDigit) else none

def scanFraction : List Char → Option (List Char)
  | '.' :: rest => scanDigits rest
  | rest => some rest

def scanExponent : List Char → Option (List Char)
  | 'e' :: '+' :: rest | 'e' :: '-' :: rest | 'E' :: '+' :: rest | 'E' :: '-' :: rest =>
      scanDigits rest
  | 'e' :: rest | 'E' :: rest => scanDigits rest
  | rest => some rest

/-- The text without a minus sign. -/
def unsigned : List Char → List Char
  | '-' :: rest => rest
  | rest => rest

/-- The JSON grammar of numbers. -/
def isNumber (text : String) : Bool :=
  ((scanInteger (unsigned text.toList)).bind scanFraction).bind scanExponent = some []

structure Number where
  text : String
  valid : isNumber text = true
  deriving DecidableEq, Repr

end Json

inductive Json where
  | null
  | bool (value : Bool)
  | number (value : Json.Number)
  | string (value : String)
  | array (items : List Json)
  | object (fields : List (String × Json))
  deriving Repr

namespace Json

mutual

def decEq : (a b : Json) → Decidable (a = b)
  | null, null => isTrue rfl
  | bool a, bool b => decidable_of_iff (a = b) (by simp)
  | number a, number b => decidable_of_iff (a = b) (by simp)
  | string a, string b => decidable_of_iff (a = b) (by simp)
  | array a, array b =>
      match decEqItems a b with
      | isTrue h => isTrue (congrArg array h)
      | isFalse h => isFalse (by simpa using h)
  | object a, object b =>
      match decEqFields a b with
      | isTrue h => isTrue (congrArg object h)
      | isFalse h => isFalse (by simpa using h)
  | null, bool _ | null, number _ | null, string _ | null, array _ | null, object _
  | bool _, null | bool _, number _ | bool _, string _ | bool _, array _ | bool _, object _
  | number _, null | number _, bool _ | number _, string _ | number _, array _
  | number _, object _ | string _, null | string _, bool _ | string _, number _
  | string _, array _ | string _, object _ | array _, null | array _, bool _ | array _, number _
  | array _, string _ | array _, object _ | object _, null | object _, bool _
  | object _, number _ | object _, string _ | object _, array _ =>
      isFalse (by simp)

def decEqItems : (a b : List Json) → Decidable (a = b)
  | [], [] => isTrue rfl
  | [], _ :: _ | _ :: _, [] => isFalse (by simp)
  | a :: as, b :: bs =>
      match decEq a b, decEqItems as bs with
      | isTrue h, isTrue hs => isTrue (by rw [h, hs])
      | isFalse h, _ => isFalse (by simp [h])
      | _, isFalse hs => isFalse (by simp [hs])

def decEqFields : (a b : List (String × Json)) → Decidable (a = b)
  | [], [] => isTrue rfl
  | [], _ :: _ | _ :: _, [] => isFalse (by simp)
  | (k, a) :: as, (k', b) :: bs =>
      match decEq a b, decEqFields as bs with
      | isTrue h, isTrue hs =>
          decidable_of_iff (k = k') (by simp [h, hs])
      | isFalse h, _ => isFalse (by simp [h])
      | _, isFalse hs => isFalse (by simp [hs])

end

instance : DecidableEq Json := decEq

/-- The fields of an object in key order. -/
abbrev Fields := List (String × Json)

mutual

/-- Keys are strictly increasing in every object of the value. -/
def Canonical : Json → Prop
  | array items => CanonicalItems items
  | object fields => Assoc.Sorted fields ∧ CanonicalFields fields
  | _ => True

def CanonicalItems : List Json → Prop
  | [] => True
  | item :: rest => Canonical item ∧ CanonicalItems rest

def CanonicalFields : List (String × Json) → Prop
  | [] => True
  | (_, value) :: rest => Canonical value ∧ CanonicalFields rest

end

theorem canonicalItems_iff {items : List Json} :
    CanonicalItems items ↔ ∀ item ∈ items, Canonical item := by
  induction items with
  | nil => simp [CanonicalItems]
  | cons item rest ih => simp [CanonicalItems, ih]

theorem canonicalFields_iff {fields : Fields} :
    CanonicalFields fields ↔ ∀ entry ∈ fields, Canonical entry.2 := by
  induction fields with
  | nil => simp [CanonicalFields]
  | cons entry rest ih =>
      obtain ⟨key, value⟩ := entry
      simp [CanonicalFields, ih]

theorem Canonical.get {fields : Fields} {key : String} {value : Json}
    (h : Canonical (object fields)) (hget : Assoc.get key fields = some value) :
    Canonical value := by
  rw [Canonical] at h
  exact canonicalFields_iff.1 h.2 _ (Assoc.mem_of_get hget)

theorem Canonical.sorted {fields : Fields} (h : Canonical (object fields)) :
    Assoc.Sorted fields := by
  rw [Canonical] at h
  exact h.1

theorem Canonical.insert {fields : Fields} {key : String} {value : Json}
    (h : Canonical (object fields)) (hvalue : Canonical value) :
    Canonical (object (Assoc.insert key value fields)) := by
  rw [Canonical] at h ⊢
  refine ⟨Assoc.sorted_insert key value h.1, canonicalFields_iff.2 fun entry hmem => ?_⟩
  rcases Assoc.mem_insert hmem with rfl | hmem
  · exact hvalue
  · exact canonicalFields_iff.1 h.2 entry hmem

theorem Canonical.items {items : List Json} (h : Canonical (array items)) {item : Json}
    (hmem : item ∈ items) : Canonical item := by
  rw [Canonical] at h
  exact canonicalItems_iff.1 h item hmem

def asStr : Json → Option String
  | string value => some value
  | _ => none

def asBool : Json → Option Bool
  | bool value => some value
  | _ => none

def asArray : Json → Option (List Json)
  | array items => some items
  | _ => none

def asObject : Json → Option Fields
  | object fields => some fields
  | _ => none

/-- `Value::get` with a key: nothing outside objects. -/
def field (value : Json) (key : String) : Option Json := value.asObject.bind (Assoc.get key)

/-- The text of a field, when it is a text. -/
def fieldStr (value : Json) (key : String) : Option String := (value.field key).bind asStr

def isObject (value : Json) : Bool := value.asObject.isSome

def isNull : Json → Bool
  | null => true
  | _ => false

@[simp] theorem asStr_eq_some {value : Json} {s : String} :
    value.asStr = some s ↔ value = string s := by
  cases value <;> simp [asStr]

@[simp] theorem asArray_eq_some {value : Json} {items : List Json} :
    value.asArray = some items ↔ value = array items := by
  cases value <;> simp [asArray]

@[simp] theorem asObject_eq_some {value : Json} {fields : Fields} :
    value.asObject = some fields ↔ value = object fields := by
  cases value <;> simp [asObject]

/-- JSON values as sorted maps keep them. -/
abbrev Value := { value : Json // value.Canonical }

end Json
