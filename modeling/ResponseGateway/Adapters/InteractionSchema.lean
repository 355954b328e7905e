import ResponseGateway.Adapters.Json
import ResponseGateway.Ir.Basic

/-!
The schemas of structured output in `adapters::interactions`: `schema` admits a subset of JSON
schema, `schema_matches` evaluates an admitted schema. The evaluation takes fuel and keeps its
`expect`, so that an admitted schema needs a bounded depth and reaches no panic. `Satisfies`
says what the keywords of the subset mean.
-/

namespace ResponseGateway.Adapters.Interactions
open Checked Ir

section Admission

/-- The keywords whose value is no schema. -/
def plainKeyword (key : String) (value : Json) : Except IrError Unit :=
  if key = "type" then
    rejectIf (!(value.asStr.any fun name =>
      ["object", "array", "string", "number", "integer", "boolean", "null"].contains name))
      .unsupportedFeature
  else if key = "title" ∨ key = "description" then
    rejectIf value.asStr.isNone .unsupportedFeature
  else if key = "enum" then
    rejectIf (!(value.asArray.any fun options => !options.isEmpty)) .unsupportedFeature
  else if key = "required" then
    rejectIf (!(value.asArray.any fun keys => keys.all fun key => key.asStr.isSome))
      .unsupportedFeature
  else if key = "additionalProperties" then
    rejectIf value.asBool.isNone .unsupportedFeature
  else .error .unsupportedFeature

mutual

def schema (value : Json) (depth : Nat) : Except IrError Unit :=
  if depth > 64 then .error .sizeLimit
  else
    match value with
    | .object fields => schemaFields fields depth
    | _ => .error .unsupportedFeature

/-- The loop over the keywords of a schema. -/
def schemaFields : List (String × Json) → Nat → Except IrError Unit
  | [], _ => .ok ()
  | (key, value) :: rest, depth => do
      (if key = "properties" then schemaProperties value (depth + 1)
      else if key = "items" then schema value (depth + 1)
      else if key = "anyOf" then schemaAnyOf value (depth + 1)
      else plainKeyword key value)
      schemaFields rest depth

def schemaProperties : Json → Nat → Except IrError Unit
  | .object children, depth => schemaChildren children depth
  | _, _ => .error .unsupportedFeature

def schemaAnyOf : Json → Nat → Except IrError Unit
  | .array [], _ => .error .unsupportedFeature
  | .array branches, depth => schemaBranches branches depth
  | _, _ => .error .unsupportedFeature

def schemaChildren : List (String × Json) → Nat → Except IrError Unit
  | [], _ => .ok ()
  | (_, child) :: rest, depth => do
      schema child depth
      schemaChildren rest depth

def schemaBranches : List Json → Nat → Except IrError Unit
  | [], _ => .ok ()
  | child :: rest, depth => do
      schema child depth
      schemaBranches rest depth

end

end Admission

section Evaluation

/-- How an evaluation may fail to answer: by its `expect`, or by running out of depth. -/
inductive Halt where
  | panic
  | depth
  deriving DecidableEq, Repr

-- For `integer`, `as_f64().is_some_and(|n| n.fract() == 0.0)`.
variable (wholeFloat : Json.Number → Bool)

/-- The numeric predicate of `integer`. -/
def isInteger : Json → Bool
  | .number n => n.asI64.isSome || n.asU64.isSome || wholeFloat n
  | _ => false

def typeMatches (name : String) (value : Json) : Bool :=
  if name = "object" then value.asObject.isSome
  else if name = "array" then value.asArray.isSome
  else if name = "string" then value.asStr.isSome
  else if name = "integer" then isInteger wholeFloat value
  else if name = "number" then
    match value with
    | .number _ => true
    | _ => false
  else if name = "boolean" then value.asBool.isSome
  else if name = "null" then value.isNull
  else false

/-- A key of `required` that the object lacks; the text of a key is an `expect`. -/
def lacks (fields : Json.Fields) (key : Json) : Except Halt Bool := do
  let key ← okOr key.asStr .panic
  return (Assoc.get key fields).isNone

-- The recursive call of `schema_matches`.
variable (recurse : Json → Json → Except Halt Bool)

def anyOfMatches (schema value : Json) : Except Halt Bool :=
  match (schema.field "anyOf").bind Json.asArray with
  | none => .ok true
  | some branches => branches.anyM fun branch => recurse branch value

/-- One turn of the loop over the fields of an object. -/
def entryMatches (schema : Json) (entry : String × Json) : Except Halt Bool :=
  match (schema.field "properties").bind (Json.field · entry.1) with
  | some child => recurse child entry.2
  | none => .ok (schema.field "additionalProperties" ≠ some (.bool false))

def requiredLacking (schema : Json) (fields : Json.Fields) : Except Halt Bool :=
  match (schema.field "required").bind Json.asArray with
  | none => .ok false
  | some keys => keys.anyM (lacks fields)

def objectMatches (schema : Json) (fields : Json.Fields) : Except Halt Bool := do
  let lacking ← requiredLacking schema fields
  if lacking then return false
  fields.allM (entryMatches recurse schema)

def itemsMatch (schema : Json) (items : List Json) : Except Halt Bool :=
  match schema.field "items" with
  | some child => items.allM (recurse child)
  | none => .ok true

/-- The body of `schema_matches`. -/
def matchesWith (schema value : Json) : Except Halt Bool := do
  if ((schema.field "enum").bind Json.asArray).any fun options => !options.contains value then
    return false
  let branch ← anyOfMatches recurse schema value
  if !branch then return false
  if ((schema.field "type").bind Json.asStr).any fun name => !typeMatches wholeFloat name value then
    return false
  match value with
  | .object fields => objectMatches recurse schema fields
  | .array items => itemsMatch recurse schema items
  | _ => return true

/-- `schema_matches`, stopped below a depth of calls. -/
def schemaMatches : Nat → Json → Json → Except Halt Bool
  | 0, _, _ => .error .depth
  | depth + 1, schema, value => matchesWith wholeFloat (schemaMatches depth) schema value

/-- The types a schema may declare. -/
inductive OfType : String → Json → Prop
  | object (fields : Json.Fields) : OfType "object" (.object fields)
  | array (items : List Json) : OfType "array" (.array items)
  | string (text : String) : OfType "string" (.string text)
  | number (n : Json.Number) : OfType "number" (.number n)
  | integer {value : Json} : isInteger wholeFloat value = true → OfType "integer" value
  | boolean (b : Bool) : OfType "boolean" (.bool b)
  | null : OfType "null" .null

mutual

/-- What an accepted schema says of a value, keyword by keyword. -/
inductive Satisfies : Json → Json → Prop
  | intro {schema value : Json}
      (enum : ∀ options, schema.field "enum" = some (.array options) → value ∈ options)
      (anyOf : ∀ branches, schema.field "anyOf" = some (.array branches) →
        SatisfiesBranch branches value)
      (type : ∀ name, schema.field "type" = some (.string name) → OfType wholeFloat name value)
      (required : ∀ fields keys key, value = .object fields →
        schema.field "required" = some (.array keys) → .string key ∈ keys →
        ∃ item, (key, item) ∈ fields)
      (properties : ∀ fields children key item child, value = .object fields →
        schema.field "properties" = some (.object children) → (key, item) ∈ fields →
        (Json.object children).field key = some child → Satisfies child item)
      (additional : ∀ fields key item, value = .object fields →
        schema.field "additionalProperties" = some (.bool false) → (key, item) ∈ fields →
        ∃ children child, schema.field "properties" = some (.object children) ∧
          (Json.object children).field key = some child)
      (items : ∀ items child item, value = .array items → schema.field "items" = some child →
        item ∈ items → Satisfies child item) :
      Satisfies schema value

/-- At least one of the schemas is satisfied. -/
inductive SatisfiesBranch : List Json → Json → Prop
  | here {schema value : Json} {rest : List Json} :
      Satisfies schema value → SatisfiesBranch (schema :: rest) value
  | later {schema value : Json} {rest : List Json} :
      SatisfiesBranch rest value → SatisfiesBranch (schema :: rest) value

end

end Evaluation

section Admitted

theorem schema_ok {value : Json} {depth : Nat} (h : schema value depth = .ok ()) :
    depth ≤ 64 ∧ ∃ fields, value = .object fields ∧ schemaFields fields depth = .ok () := by
  by_cases hdepth : depth > 64
  · rw [schema.eq_def, if_pos hdepth] at h
    cases h
  · rw [schema.eq_def, if_neg hdepth] at h
    cases value with
    | object fields => exact ⟨Nat.le_of_not_lt hdepth, fields, rfl, h⟩
    | _ => cases h

theorem schemaChildren_ok {children : Json.Fields} {depth : Nat}
    (h : schemaChildren children depth = .ok ()) :
    ∀ entry ∈ children, schema entry.2 depth = .ok () := by
  induction children with
  | nil => simp
  | cons entry rest ih =>
      obtain ⟨key, child⟩ := entry
      rw [schemaChildren] at h
      obtain ⟨⟨⟩, hchild, hrest⟩ := bind_ok.1 h
      exact List.forall_mem_cons.2 ⟨hchild, ih hrest⟩

theorem schemaBranches_ok {branches : List Json} {depth : Nat}
    (h : schemaBranches branches depth = .ok ()) :
    ∀ branch ∈ branches, schema branch depth = .ok () := by
  induction branches with
  | nil => simp
  | cons branch rest ih =>
      rw [schemaBranches] at h
      obtain ⟨⟨⟩, hbranch, hrest⟩ := bind_ok.1 h
      exact List.forall_mem_cons.2 ⟨hbranch, ih hrest⟩

/-- The keyword under a name of an admitted schema is admitted on its own. -/
theorem keyword_ok {value item : Json} {key : String} {depth : Nat}
    (h : schema value depth = .ok ()) (hfield : value.field key = some item) :
    (if key = "properties" then schemaProperties item (depth + 1)
    else if key = "items" then schema item (depth + 1)
    else if key = "anyOf" then schemaAnyOf item (depth + 1)
    else plainKeyword key item) = .ok () := by
  obtain ⟨-, fields, rfl, hfields⟩ := schema_ok h
  change Assoc.get key fields = some item at hfield
  clear h
  induction fields with
  | nil => cases hfield
  | cons entry rest ih =>
      obtain ⟨key', value⟩ := entry
      rw [schemaFields] at hfields
      obtain ⟨⟨⟩, hkeyword, hrest⟩ := bind_ok.1 hfields
      rw [Assoc.get_cons] at hfield
      split at hfield
      · next hkey =>
          cases hkey
          cases hfield
          exact hkeyword
      · exact ih hrest hfield

/-- What `schema` promises of the keywords that `schema_matches` reads. -/
structure Admitted (value : Json) (depth : Nat) : Prop where
  bound : depth ≤ 64
  enum : ∀ item, value.field "enum" = some item → ∃ options, item = .array options
  anyOf : ∀ item, value.field "anyOf" = some item → ∃ branches, item = .array branches ∧
    ∀ branch ∈ branches, schema branch (depth + 1) = .ok ()
  type : ∀ item, value.field "type" = some item → ∃ name, item = .string name
  required : ∀ item, value.field "required" = some item → ∃ keys, item = .array keys ∧
    ∀ key ∈ keys, ∃ text, key = .string text
  properties : ∀ item, value.field "properties" = some item → ∃ children, item = .object children ∧
    ∀ entry ∈ children, schema entry.2 (depth + 1) = .ok ()
  items : ∀ item, value.field "items" = some item → schema item (depth + 1) = .ok ()

theorem admitted_of_schema {value : Json} {depth : Nat} (h : schema value depth = .ok ()) :
    Admitted value depth := by
  refine ⟨(schema_ok h).1, fun item hitem => ?_, fun item hitem => ?_, fun item hitem => ?_,
    fun item hitem => ?_, fun item hitem => ?_, fun item hitem => ?_⟩
  · have hkeyword : plainKeyword "enum" item = .ok () := keyword_ok h hitem
    cases item with
    | array options => exact ⟨options, rfl⟩
    | _ => cases hkeyword
  · have hkeyword : schemaAnyOf item (depth + 1) = .ok () := keyword_ok h hitem
    unfold schemaAnyOf at hkeyword
    split at hkeyword
    · cases hkeyword
    · next _ branches _ => exact ⟨branches, rfl, schemaBranches_ok hkeyword⟩
    · cases hkeyword
  · have hkeyword : plainKeyword "type" item = .ok () := keyword_ok h hitem
    cases item with
    | string name => exact ⟨name, rfl⟩
    | _ => cases hkeyword
  · have hkeyword : plainKeyword "required" item = .ok () := keyword_ok h hitem
    cases item with
    | array keys =>
        have hkeys := rejectIf_ok.1 hkeyword
        refine ⟨keys, rfl, fun key hkey => ?_⟩
        simp only [Json.asArray, Option.any_some, Bool.not_eq_false', List.all_eq_true] at hkeys
        obtain ⟨text, htext⟩ := Option.isSome_iff_exists.1 (hkeys key hkey)
        exact ⟨text, Json.asStr_eq_some.1 htext⟩
    | _ => cases hkeyword
  · have hkeyword : schemaProperties item (depth + 1) = .ok () := keyword_ok h hitem
    unfold schemaProperties at hkeyword
    split at hkeyword
    · next children => exact ⟨children, rfl, schemaChildren_ok hkeyword⟩
    · cases hkeyword
  · exact keyword_ok h hitem

/-- A schema lies a number of levels inside another. -/
inductive Below : Nat → Json → Json → Prop
  | here (value : Json) : Below 0 value value
  | property {n : Nat} {inner value child : Json} {children : Json.Fields} {key : String} :
      value.field "properties" = some (.object children) → (key, child) ∈ children →
      Below n inner child → Below (n + 1) inner value
  | items {n : Nat} {inner value child : Json} :
      value.field "items" = some child → Below n inner child → Below (n + 1) inner value
  | anyOf {n : Nat} {inner value branch : Json} {branches : List Json} :
      value.field "anyOf" = some (.array branches) → branch ∈ branches →
      Below n inner branch → Below (n + 1) inner value

/-- Admission goes down to every schema inside, with its level added to the depth. -/
theorem schema_below {n depth : Nat} {inner value : Json} (hbelow : Below n inner value)
    (h : schema value depth = .ok ()) : schema inner (depth + n) = .ok () := by
  induction hbelow generalizing depth with
  | here value => exact h
  | property hproperties hmem _ ih =>
      obtain ⟨children, heq, hchildren⟩ := (admitted_of_schema h).properties _ hproperties
      cases heq
      exact Nat.add_right_comm depth 1 _ ▸ ih (hchildren _ hmem)
  | items hitems _ ih =>
      exact Nat.add_right_comm depth 1 _ ▸ ih ((admitted_of_schema h).items _ hitems)
  | anyOf hanyOf hmem _ ih =>
      obtain ⟨branches, heq, hbranches⟩ := (admitted_of_schema h).anyOf _ hanyOf
      cases heq
      exact Nat.add_right_comm depth 1 _ ▸ ih (hbranches _ hmem)

/-- No keyword outside the subset survives admission, so none is left unread but the two
annotations. -/
theorem known_keywords {value : Json} {depth : Nat} (h : schema value depth = .ok ()) :
    ∃ fields, value = .object fields ∧ ∀ entry ∈ fields, entry.1 ∈
      ["type", "title", "description", "enum", "required", "additionalProperties", "properties",
        "items", "anyOf"] := by
  obtain ⟨-, fields, rfl, hfields⟩ := schema_ok h
  refine ⟨fields, rfl, ?_⟩
  clear h
  induction fields with
  | nil => simp
  | cons entry rest ih =>
      obtain ⟨key, value⟩ := entry
      rw [schemaFields] at hfields
      obtain ⟨⟨⟩, hkeyword, hrest⟩ := bind_ok.1 hfields
      refine List.forall_mem_cons.2 ⟨?_, ih hrest⟩
      by_contra hunknown
      simp only [List.mem_cons, List.not_mem_nil, or_false, not_or] at hunknown
      simp [plainKeyword, hunknown] at hkeyword

end Admitted

section Sound

variable {wholeFloat : Json.Number → Bool}

theorem typeMatches_iff {name : String} {value : Json} :
    typeMatches wholeFloat name value = true ↔ OfType wholeFloat name value := by
  constructor
  · intro h
    unfold typeMatches at h
    split_ifs at h with hname hname hname hname hname hname hname
    all_goals subst hname
    · cases value with
      | object fields => exact .object fields
      | _ => cases h
    · cases value with
      | array items => exact .array items
      | _ => cases h
    · cases value with
      | string text => exact .string text
      | _ => cases h
    · exact .integer h
    · cases value with
      | number n => exact .number n
      | _ => cases h
    · cases value with
      | bool b => exact .boolean b
      | _ => cases h
    · cases value with
      | null => exact .null
      | _ => cases h
  · intro h
    cases h with
    | integer h => exact h
    | _ => rfl

theorem satisfiesBranch_iff {branches : List Json} {value : Json} :
    SatisfiesBranch wholeFloat branches value ↔
      ∃ branch ∈ branches, Satisfies wholeFloat branch value := by
  induction branches with
  | nil =>
      constructor
      · intro h
        cases h
      · simp
  | cons branch rest ih =>
      rw [List.exists_mem_cons_iff, ← ih]
      constructor
      · intro h
        cases h with
        | here h => exact .inl h
        | later h => exact .inr h
      · rintro (h | h)
        · exact .here h
        · exact .later h

/-- What the keywords of objects say of the fields of one. -/
def FieldsSatisfy (wholeFloat : Json.Number → Bool) (schema : Json) (fields : Json.Fields) : Prop :=
  (∀ keys key, schema.field "required" = some (.array keys) → .string key ∈ keys →
    ∃ item, (key, item) ∈ fields) ∧
  ∀ entry ∈ fields,
    (∀ children child, schema.field "properties" = some (.object children) →
      (Json.object children).field entry.1 = some child → Satisfies wholeFloat child entry.2) ∧
    (schema.field "additionalProperties" = some (.bool false) →
      ∃ children child, schema.field "properties" = some (.object children) ∧
        (Json.object children).field entry.1 = some child)

/-- The keywords in the order in which they are evaluated. -/
theorem satisfies_iff {schema value : Json} :
    Satisfies wholeFloat schema value ↔
      (∀ options, schema.field "enum" = some (.array options) → value ∈ options) ∧
      (∀ branches, schema.field "anyOf" = some (.array branches) →
        ∃ branch ∈ branches, Satisfies wholeFloat branch value) ∧
      (∀ name, schema.field "type" = some (.string name) → OfType wholeFloat name value) ∧
      (∀ fields, value = .object fields → FieldsSatisfy wholeFloat schema fields) ∧
      ∀ items, value = .array items → ∀ item ∈ items, ∀ child, schema.field "items" = some child →
        Satisfies wholeFloat child item := by
  constructor
  · intro h
    cases h with
    | intro enum anyOf type required properties additional items =>
        exact ⟨enum, fun branches h => satisfiesBranch_iff.1 (anyOf branches h), type,
          fun fields hvalue => ⟨fun keys key => required fields keys key hvalue,
            fun entry hentry => ⟨fun children child hchildren =>
              properties fields children entry.1 entry.2 child hvalue hchildren hentry,
              fun h => additional fields entry.1 entry.2 hvalue h hentry⟩⟩,
          fun list hvalue item hitem child hchild => items list child item hvalue hchild hitem⟩
  · rintro ⟨enum, anyOf, type, hfields, items⟩
    exact .intro enum (fun branches h => satisfiesBranch_iff.2 (anyOf branches h)) type
      (fun fields keys key hvalue => (hfields fields hvalue).1 keys key)
      (fun fields children key item child hvalue hchildren hmem =>
        ((hfields fields hvalue).2 _ hmem).1 children child hchildren)
      (fun fields key item hvalue h hmem => ((hfields fields hvalue).2 _ hmem).2 h)
      (fun list child item hvalue hchild hmem => items list hvalue item hmem child hchild)

theorem lacks_decides {fields : Json.Fields} {key : Json} {text : String}
    (hkey : key = .string text) :
    Decides (lacks fields key) (¬∃ item, (text, item) ∈ fields) := by
  subst hkey
  refine ⟨(Assoc.get text fields).isNone, rfl, ?_⟩
  rw [Option.isNone_iff_eq_none, Assoc.get_eq_none]
  constructor
  · rintro h ⟨item, hmem⟩
    exact h _ hmem rfl
  · intro h entry hmem hkey
    exact h ⟨entry.2, hkey ▸ hmem⟩

variable {recurse : Json → Json → Except Halt Bool} {schema value : Json} {depth : Nat}

theorem enum_guard :
    ((schema.field "enum").bind Json.asArray).any (fun options => !options.contains value) = true ↔
      ¬∀ options, schema.field "enum" = some (.array options) → value ∈ options := by
  rw [Option.any_eq_true]
  simp only [Option.bind_eq_some_iff, Json.asArray_eq_some, Bool.not_eq_true', not_forall,
    exists_prop, exists_eq_right, List.contains_iff_mem, Bool.eq_false_iff, ne_eq]

theorem type_guard :
    ((schema.field "type").bind Json.asStr).any (fun name => !typeMatches wholeFloat name value) =
        true ↔
      ¬∀ name, schema.field "type" = some (.string name) → OfType wholeFloat name value := by
  rw [Option.any_eq_true]
  simp only [Option.bind_eq_some_iff, Json.asStr_eq_some, Bool.not_eq_true', not_forall,
    exists_prop, exists_eq_right, ← typeMatches_iff, Bool.eq_false_iff, ne_eq]

theorem anyOfMatches_decides (hadmitted : Admitted schema depth)
    (ih : ∀ child value, Interactions.schema child (depth + 1) = .ok () →
      Decides (recurse child value) (Satisfies wholeFloat child value)) :
    Decides (anyOfMatches recurse schema value)
      (∀ branches, schema.field "anyOf" = some (.array branches) →
        ∃ branch ∈ branches, Satisfies wholeFloat branch value) := by
  unfold anyOfMatches
  cases hfield : schema.field "anyOf" with
  | none => exact ⟨true, rfl, by simp⟩
  | some item =>
      obtain ⟨branches, rfl, hbranches⟩ := hadmitted.anyOf item hfield
      refine (Decides.anyM fun branch hbranch => ih branch value (hbranches branch hbranch)).congr ?_
      simp

theorem requiredLacking_decides (hadmitted : Admitted schema depth) {fields : Json.Fields} :
    Decides (requiredLacking schema fields)
      (¬∀ keys key, schema.field "required" = some (.array keys) → .string key ∈ keys →
        ∃ item, (key, item) ∈ fields) := by
  unfold requiredLacking
  cases hfield : schema.field "required" with
  | none => exact ⟨false, rfl, by simp⟩
  | some item =>
      obtain ⟨keys, rfl, hkeys⟩ := hadmitted.required item hfield
      refine (Decides.anyM (p := fun key =>
        ∃ text, key = .string text ∧ ¬∃ item, (text, item) ∈ fields) fun key hkey => ?_).congr ?_
      · obtain ⟨text, htext⟩ := hkeys key hkey
        refine (lacks_decides htext).congr ?_
        simp [htext]
      · constructor
        · rintro ⟨_, hmem, text, rfl, hlacks⟩ hall
          exact hlacks (hall keys text rfl hmem)
        · intro hnot
          by_contra hnone
          refine hnot fun keys' key hkeys' hmem => ?_
          cases hkeys'
          by_contra hlacks
          exact hnone ⟨_, hmem, key, rfl, hlacks⟩

theorem entryMatches_decides (hadmitted : Admitted schema depth)
    (ih : ∀ child value, Interactions.schema child (depth + 1) = .ok () →
      Decides (recurse child value) (Satisfies wholeFloat child value)) (entry : String × Json) :
    Decides (entryMatches recurse schema entry)
      ((∀ children child, schema.field "properties" = some (.object children) →
        (Json.object children).field entry.1 = some child → Satisfies wholeFloat child entry.2) ∧
      (schema.field "additionalProperties" = some (.bool false) →
        ∃ children child, schema.field "properties" = some (.object children) ∧
          (Json.object children).field entry.1 = some child)) := by
  unfold entryMatches
  cases hfield : (schema.field "properties").bind (Json.field · entry.1) with
  | none =>
      have hundeclared : ¬∃ children child, schema.field "properties" = some (.object children) ∧
          (Json.object children).field entry.1 = some child := by
        rintro ⟨children, child, hproperties, hchild⟩
        rw [hproperties, Option.bind_some, hchild] at hfield
        cases hfield
      refine ⟨_, rfl, ?_⟩
      rw [decide_eq_true_iff]
      constructor
      · intro hne
        exact ⟨fun children child hproperties hchild =>
          (hundeclared ⟨children, child, hproperties, hchild⟩).elim, fun h => (hne h).elim⟩
      · exact fun h hfalse => hundeclared (h.2 hfalse)
  | some child =>
      obtain ⟨item, hproperties, hchild⟩ := Option.bind_eq_some_iff.1 hfield
      obtain ⟨children, rfl, hchildren⟩ := hadmitted.properties item hproperties
      refine (ih child entry.2 (hchildren _ (Assoc.mem_of_get hchild))).congr ?_
      constructor
      · intro h
        refine ⟨fun children' child' hproperties' hchild' => ?_,
          fun _ => ⟨children, child, hproperties, hchild⟩⟩
        cases hproperties.symm.trans hproperties'
        cases hchild.symm.trans hchild'
        exact h
      · exact fun h => h.1 children child hproperties hchild

theorem objectMatches_decides (hadmitted : Admitted schema depth)
    (ih : ∀ child value, Interactions.schema child (depth + 1) = .ok () →
      Decides (recurse child value) (Satisfies wholeFloat child value)) {fields : Json.Fields} :
    Decides (objectMatches recurse schema fields) (FieldsSatisfy wholeFloat schema fields) := by
  refine Decides.bind (requiredLacking_decides hadmitted) fun lacking hlacking =>
    Decides.guard hlacking fun _ => ?_
  exact Decides.allM fun entry _ => entryMatches_decides hadmitted ih entry

theorem itemsMatch_decides (hadmitted : Admitted schema depth)
    (ih : ∀ child value, Interactions.schema child (depth + 1) = .ok () →
      Decides (recurse child value) (Satisfies wholeFloat child value)) {items : List Json} :
    Decides (itemsMatch recurse schema items)
      (∀ item ∈ items, ∀ child, schema.field "items" = some child →
        Satisfies wholeFloat child item) := by
  unfold itemsMatch
  cases hfield : schema.field "items" with
  | none => exact ⟨true, rfl, by simp⟩
  | some child =>
      refine (Decides.allM fun item _ => ih child item (hadmitted.items child hfield)).congr ?_
      simp

theorem matchesWith_decides (hadmitted : Admitted schema depth)
    (ih : ∀ child value, Interactions.schema child (depth + 1) = .ok () →
      Decides (recurse child value) (Satisfies wholeFloat child value)) :
    Decides (matchesWith wholeFloat recurse schema value) (Satisfies wholeFloat schema value) := by
  refine Decides.congr ?_ satisfies_iff.symm
  unfold matchesWith
  refine Decides.guard enum_guard fun _ =>
    Decides.bind (anyOfMatches_decides hadmitted ih) fun branch hbranch =>
    Decides.guard (by rw [← hbranch]; cases branch <;> simp) fun _ =>
    Decides.guard type_guard fun _ => ?_
  cases value with
  | object fields =>
      refine (objectMatches_decides hadmitted ih).congr ?_
      simp
  | array items =>
      refine (itemsMatch_decides hadmitted ih).congr ?_
      simp
  | _ => exact ⟨true, rfl, by simp⟩

/-- An admitted schema is evaluated within the depth its admission leaves. -/
theorem schemaMatches_decides {fuel : Nat} (h : Interactions.schema schema depth = .ok ())
    (hfuel : 65 ≤ fuel + depth) :
    Decides (schemaMatches wholeFloat fuel schema value) (Satisfies wholeFloat schema value) := by
  induction fuel generalizing depth schema value with
  | zero =>
      have hbound := (admitted_of_schema h).bound
      omega
  | succ fuel ih =>
      exact matchesWith_decides (admitted_of_schema h) fun child value hchild =>
        ih hchild (by omega)

/-- An admitted schema is evaluated to an answer, the one its keywords mean, within 65 calls
inside one another; and it is nested at most 64 levels deep. -/
theorem schema_matches_exact (wholeFloat : Json.Number → Bool) (schema : Json)
    (h : Interactions.schema schema 0 = .ok ()) :
    (∀ depth ≥ 65, ∀ value, ∃ b, schemaMatches wholeFloat depth schema value = .ok b ∧
      (b = true ↔ Satisfies wholeFloat schema value)) ∧
    ∀ level inner, Below level inner schema → level ≤ 64 := by
  refine ⟨fun depth hdepth value => schemaMatches_decides h (by omega), fun level inner hbelow => ?_⟩
  have hbound := (admitted_of_schema (schema_below hbelow h)).bound
  omega

/-- An object with a required integer `count` and no other field. -/
def countSchema : Json := .object [("additionalProperties", .bool false),
  ("properties", .object [("count", .object [("type", .string "integer")])]),
  ("required", .array [.string "count"]), ("type", .string "object")]

theorem schema_matches_exact_count :
    Interactions.schema countSchema 0 = .ok () ∧
    (∃ b, schemaMatches (fun _ => false) 65 countSchema (.object [("count", .null)]) = .ok b ∧
      (b = true ↔ Satisfies (fun _ => false) countSchema (.object [("count", .null)]))) ∧
    schemaMatches (fun _ => false) 65 countSchema (.object [("count", .null)]) = .ok false ∧
    schemaMatches (fun _ => false) 65 countSchema (.object [("count", .number (.ofNat 3))]) =
      .ok true :=
  have hadmitted : Interactions.schema countSchema 0 = .ok () := by decide +kernel
  ⟨hadmitted, (schema_matches_exact _ countSchema hadmitted).1 65 (Nat.le_refl 65) _,
    by decide +kernel, by decide +kernel⟩

end Sound

end ResponseGateway.Adapters.Interactions
