import ResponseGateway.Adapters.Json
import ResponseGateway.Library.JsonExponent

/-!
`adapters::json::decode` from bytes. The first pass visits what the deserializer presents and
refuses a key that a map has shown before; a number beyond the machine integers is presented as
a map too, with the reserved key alone. The second pass builds the value. `Mirrors` says what
the value is member by member, on the syntax tree and without either pass.
-/

namespace ResponseGateway.Adapters
open Checked Ir

/-- What `deserialize_any` presents to a visitor. -/
inductive Presented where
  | unit
  | bool (value : Bool)
  | i64 (value : Int)
  | u64 (value : Nat)
  | str (text : String)
  | seq (items : List Presented)
  | map (entries : List (String × Presented))

/-- A number goes by as a machine integer when it is one, else by its text. -/
def presentNumber (value : Json.Number) : Presented :=
  match value.text.toList with
  | '-' :: digits =>
      match (Json.parseU64 (String.ofList digits)).filter (· ≤ 2 ^ 63) with
      | some n => .i64 (-n)
      | none => .map [(Json.numberToken, .str value.text)]
  | _ =>
      match value.asU64 with
      | some n => .u64 n
      | none => .map [(Json.numberToken, .str value.text)]

mutual

def present : Json → Presented
  | .null => .unit
  | .bool value => .bool value
  | .number value => presentNumber value
  | .string text => .str text
  | .array items => .seq (presentItems items)
  | .object fields => .map (presentFields fields)

def presentItems : List Json → List Presented
  | [] => []
  | item :: rest => present item :: presentItems rest

def presentFields : List (String × Json) → List (String × Presented)
  | [] => []
  | (key, value) :: rest => (key, present value) :: presentFields rest

end

namespace Unique

mutual

/-- `Deserialize` for `Unique`. -/
def visit : Presented → Except String Unit
  | .map entries => visitMap [] entries
  | .seq items => visitSeq items
  | _ => return ()

def visitMap (keys : List String) : List (String × Presented) → Except String Unit
  | [] => return ()
  | (key, value) :: rest => do
      rejectIf (keys.contains key) "duplicate object key"
      visit value
      visitMap (key :: keys) rest

def visitSeq : List Presented → Except String Unit
  | [] => return ()
  | item :: rest => do
      visit item
      visitSeq rest

end

end Unique

/-- The syntax tree of bytes: strings are UTF-8, and nesting stays below the limit of 128. -/
def syntaxTree (bytes : ByteArray) : Except String Json :=
  okOr ((String.fromUTF8? bytes).bind fun text => Json.parse 127 text.toList) "invalid JSON"

/-- `serde_json::from_slice::<Unique>`. -/
def uniqueFromSlice (bytes : ByteArray) : Except String Unit := do
  let tree ← syntaxTree bytes
  Unique.visit (present tree)

/-- `serde_json::from_slice::<Value>`. -/
def valueFromSlice (bytes : ByteArray) : Except String Json := do
  let tree ← syntaxTree bytes
  okOr tree.kept "invalid number"

/-- `json::decode` on bytes. -/
def decodeBytes (bytes : ByteArray) : Except IrError Json := do
  (uniqueFromSlice bytes).mapError fun _ => .invalidField "upstream_json"
  (valueFromSlice bytes).mapError fun _ => .invalidField "upstream_json"

section Tree

/-- A value inside a value, at any depth. -/
inductive Inside : Json → Json → Prop
  | refl (value : Json) : Inside value value
  | item {value item : Json} {items : List Json} :
      item ∈ items → Inside value item → Inside value (.array items)
  | member {value member : Json} {key : String} {fields : Json.Fields} :
      (key, member) ∈ fields → Inside value member → Inside value (.object fields)

/-- No object of the tree has two members with one key. -/
def Distinct (tree : Json) : Prop :=
  ∀ fields, Inside (.object fields) tree → (fields.map Prod.fst).Nodup

mutual

/-- The value has the members of the tree. Read plainly, numbers are their texts and objects
are objects; a parser signs exponents and takes an object behind the reserved key for a number. -/
def Mirrors (plain : Bool) : Json → Json → Prop
  | .number number, value =>
      ∃ number', value = .number number' ∧ number'.text =
        if plain then number.text
        else if number.text = "-0" then "0"
        else String.ofList (Json.signExponent number.text.toList)
  | .array items, value => ∃ items', value = .array items' ∧ MirrorsItems plain items items'
  | .object [], value => value = .object []
  | .object ((key, member) :: rest), value =>
      if plain = false ∧ key = Json.numberToken then Json.tokenNumber member rest = some value
      else ∃ fields, value = .object fields ∧ Assoc.Sorted fields ∧
        (∀ entry ∈ fields, entry.1 = key ∨ entry.1 ∈ rest.map Prod.fst) ∧
        (∃ member', Assoc.get key fields = some member' ∧ Mirrors plain member member') ∧
        MirrorsFields plain rest fields
  | tree, value => value = tree

def MirrorsItems (plain : Bool) : List Json → List Json → Prop
  | [], items' => items' = []
  | item :: rest, items' =>
      ∃ item' rest', items' = item' :: rest' ∧ Mirrors plain item item' ∧
        MirrorsItems plain rest rest'

def MirrorsFields (plain : Bool) : List (String × Json) → Json.Fields → Prop
  | [], _ => True
  | (key, member) :: rest, fields =>
      (∃ member', Assoc.get key fields = some member' ∧ Mirrors plain member member') ∧
        MirrorsFields plain rest fields

end

end Tree

section FirstPass

theorem visit_presentNumber (value : Json.Number) :
    Unique.visit (presentNumber value) = .ok () := by
  unfold presentNumber
  split <;> split <;> rfl

mutual

/-- The visitor accepts what is presented for a tree exactly when no object repeats a key. -/
theorem visit_present : (tree : Json) →
    (Unique.visit (present tree) = .ok () ↔ tree.uniqueKeys = true)
  | .null | .bool _ | .string _ => by simp [present, Unique.visit, Json.uniqueKeys]
  | .number value => by simp [present, visit_presentNumber, Json.uniqueKeys]
  | .array items => by rw [present, Unique.visit, Json.uniqueKeys, visitSeq_present items]
  | .object fields => by
      rw [present, Unique.visit, Json.uniqueKeys, visitMap_present fields]
      simp

theorem visitSeq_present : (items : List Json) →
    (Unique.visitSeq (presentItems items) = .ok () ↔ Json.uniqueItems items = true)
  | [] => by simp [presentItems, Unique.visitSeq, Json.uniqueItems]
  | item :: rest => by
      rw [presentItems, Unique.visitSeq, Json.uniqueItems, bind_ok, Bool.and_eq_true,
        ← visit_present item, ← visitSeq_present rest]
      exact ⟨fun ⟨_, hitem, hrest⟩ => ⟨hitem, hrest⟩, fun ⟨hitem, hrest⟩ => ⟨(), hitem, hrest⟩⟩

theorem visitMap_present {keys : List String} : (fields : List (String × Json)) →
    (Unique.visitMap keys (presentFields fields) = .ok () ↔
      (fields.map Prod.fst).Nodup ∧ (∀ key ∈ fields.map Prod.fst, key ∉ keys) ∧
        Json.uniqueFields fields = true)
  | [] => by simp [presentFields, Unique.visitMap, Json.uniqueFields]
  | (key, value) :: rest => by
      simp only [presentFields, Unique.visitMap, Json.uniqueFields, bind_ok, rejectIf_ok,
        visit_present value, visitMap_present rest, List.map_cons, List.nodup_cons,
        Bool.and_eq_true, List.contains_eq_mem, decide_eq_false_iff_not, List.mem_cons, not_or]
      constructor
      · rintro ⟨-, hkey, -, hvalue, hnodup, hfresh, hrest⟩
        refine ⟨⟨fun hmem => (hfresh key hmem).1 rfl, hnodup⟩, ?_, hvalue, hrest⟩
        rintro key' (rfl | hkey')
        · exact hkey
        · exact (hfresh key' hkey').2
      · rintro ⟨⟨hnew, hnodup⟩, hfresh, hvalue, hrest⟩
        exact ⟨(), hfresh key (.inl rfl), (), hvalue, hnodup,
          fun key' hkey' => ⟨fun heq => hnew (heq ▸ hkey'), hfresh key' (.inr hkey')⟩, hrest⟩

end

theorem distinct_array {items : List Json} :
    Distinct (.array items) ↔ ∀ item ∈ items, Distinct item := by
  constructor
  · exact fun h item hitem fields hinside => h fields (.item hitem hinside)
  · intro h fields hinside
    cases hinside with
    | item hitem hinside => exact h _ hitem fields hinside

theorem distinct_object {fields : Json.Fields} :
    Distinct (.object fields) ↔
      (fields.map Prod.fst).Nodup ∧ ∀ entry ∈ fields, Distinct entry.2 := by
  constructor
  · exact fun h => ⟨h fields (.refl _),
      fun entry hentry fields hinside => h fields (.member hentry hinside)⟩
  · rintro ⟨hnodup, h⟩ fields' hinside
    cases hinside with
    | refl => exact hnodup
    | member hmember hinside => exact h _ hmember fields' hinside

theorem distinct_scalar {tree : Json} (harray : tree.asArray = none)
    (hobject : tree.asObject = none) : Distinct tree := by
  intro fields hinside
  cases hinside with
  | refl => cases hobject
  | item _ _ => cases harray
  | member _ _ => cases hobject

mutual

theorem uniqueKeys_iff : (tree : Json) → (tree.uniqueKeys = true ↔ Distinct tree)
  | .null | .bool _ | .number _ | .string _ =>
      ⟨fun _ => distinct_scalar rfl rfl, fun _ => rfl⟩
  | .array items => by rw [Json.uniqueKeys, uniqueItems_iff items, distinct_array]
  | .object fields => by
      rw [Json.uniqueKeys, Bool.and_eq_true, decide_eq_true_eq, uniqueFields_iff fields,
        distinct_object]

theorem uniqueItems_iff : (items : List Json) →
    (Json.uniqueItems items = true ↔ ∀ item ∈ items, Distinct item)
  | [] => by simp [Json.uniqueItems]
  | item :: rest => by
      rw [Json.uniqueItems, Bool.and_eq_true, uniqueKeys_iff item, uniqueItems_iff rest,
        List.forall_mem_cons]

theorem uniqueFields_iff : (fields : List (String × Json)) →
    (Json.uniqueFields fields = true ↔ ∀ entry ∈ fields, Distinct entry.2)
  | [] => by simp [Json.uniqueFields]
  | (key, value) :: rest => by
      rw [Json.uniqueFields, Bool.and_eq_true, uniqueKeys_iff value, uniqueFields_iff rest,
        List.forall_mem_cons]

end

end FirstPass

section SecondPass

/-- Fields with keys of their own are all kept, sorted and with nothing else among them. -/
structure KeepsFields (fields kept : Json.Fields) : Prop where
  sorted : Assoc.Sorted kept
  keys : ∀ entry ∈ kept, entry.1 ∈ fields.map Prod.fst
  members : MirrorsFields false fields kept

/-- A field written beside the others does not change what these show. -/
theorem mirrorsFields_insert {plain : Bool} {key : String} {value : Json} {kept : Json.Fields} :
    ∀ {fields : Json.Fields}, key ∉ fields.map Prod.fst → MirrorsFields plain fields kept →
      MirrorsFields plain fields (Assoc.insert key value kept)
  | [], _, _ => trivial
  | (key', member) :: rest, hkey, h => by
      rw [List.map_cons, List.mem_cons, not_or] at hkey
      obtain ⟨⟨member', hget, hmember⟩, hrest⟩ := h
      refine ⟨⟨member', ?_, hmember⟩, mirrorsFields_insert hkey.2 hrest⟩
      rw [Assoc.get_insert, if_neg hkey.1, hget]

mutual

/-- The value kept for a tree without repeated keys has the members of the tree. -/
theorem mirrors_of_kept : (tree : Json) → {value : Json} → tree.uniqueKeys = true →
    tree.kept = some value → Mirrors false tree value
  | .null, _, _, h | .bool _, _, _, h | .string _, _, _, h => (Option.some.inj h).symm
  | .number number, _, _, h => by
      obtain ⟨number', hkept, htext⟩ := number.kept_eq_some
      cases hkept.symm.trans h
      exact ⟨number', rfl, htext⟩
  | .array items, _, hunique, h => by
      rw [Json.kept, Option.map_eq_some_iff] at h
      obtain ⟨items', hitems, rfl⟩ := h
      exact ⟨items', rfl, mirrorsItems_of_kept items hunique hitems⟩
  | .object [], _, _, h => (Option.some.inj h).symm
  | .object ((key, member) :: rest), value, hunique, h => by
      rw [Json.uniqueKeys, Bool.and_eq_true, decide_eq_true_eq] at hunique
      rw [Json.kept] at h
      rw [Mirrors]
      by_cases htoken : key = Json.numberToken
      · rw [if_pos htoken] at h
        rwa [if_pos ⟨rfl, htoken⟩]
      · rw [if_neg htoken] at h
        simp only [Option.bind_eq_bind, Option.bind_eq_some_iff, Option.pure_def,
          Option.some.injEq] at h
        obtain ⟨member', hmember, rest', hrest, rfl⟩ := h
        have hkept := keepsFields_of_kept ((key, member) :: rest) hunique.1 hunique.2
          (show Json.keptFields ((key, member) :: rest) = some _ by
            rw [Json.keptFields, hmember, hrest]; rfl)
        rw [if_neg (fun h => htoken h.2)]
        refine ⟨_, rfl, hkept.sorted, fun entry hentry => ?_, hkept.members.1, hkept.members.2⟩
        exact List.mem_cons.1 (hkept.keys entry hentry)

theorem mirrorsItems_of_kept : (items : List Json) → {kept : List Json} →
    Json.uniqueItems items = true → Json.keptItems items = some kept →
    MirrorsItems false items kept
  | [], _, _, h => (Option.some.inj h).symm
  | item :: rest, _, hunique, h => by
      rw [Json.uniqueItems, Bool.and_eq_true] at hunique
      simp only [Json.keptItems, Option.bind_eq_bind, Option.bind_eq_some_iff, Option.pure_def,
        Option.some.injEq] at h
      obtain ⟨item', hitem, rest', hrest, rfl⟩ := h
      exact ⟨item', rest', rfl, mirrors_of_kept item hunique.1 hitem,
        mirrorsItems_of_kept rest hunique.2 hrest⟩

theorem keepsFields_of_kept : (fields : List (String × Json)) → {kept : Json.Fields} →
    (fields.map Prod.fst).Nodup → Json.uniqueFields fields = true →
    Json.keptFields fields = some kept → KeepsFields fields kept
  | [], _, _, _, h => by
      cases h
      exact ⟨Assoc.sorted_nil, fun _ hentry => absurd hentry List.not_mem_nil, trivial⟩
  | (key, member) :: rest, _, hnodup, hunique, h => by
      rw [List.map_cons, List.nodup_cons] at hnodup
      rw [Json.uniqueFields, Bool.and_eq_true] at hunique
      simp only [Json.keptFields, Option.bind_eq_bind, Option.bind_eq_some_iff, Option.pure_def,
        Option.some.injEq] at h
      obtain ⟨member', hmember, rest', hrest, rfl⟩ := h
      have hkept := keepsFields_of_kept rest hnodup.2 hunique.2 hrest
      have hfresh : Assoc.get key rest' = none :=
        Assoc.get_eq_none.2 fun entry hentry heq => hnodup.1 (heq ▸ hkept.keys entry hentry)
      rw [hfresh, if_neg (by decide)]
      refine ⟨Assoc.sorted_insert _ _ hkept.sorted, fun entry hentry => ?_,
        ⟨member', ?_, mirrors_of_kept member hunique.1 hmember⟩,
        mirrorsFields_insert hnodup.1 hkept.members⟩
      · rcases Assoc.mem_insert hentry with rfl | hentry
        · exact List.mem_cons_self
        · exact List.mem_cons_of_mem _ (hkept.keys entry hentry)
      · rw [Assoc.get_insert, if_pos rfl]

end

end SecondPass

section Decoding

/-- Bytes are decoded as their text. -/
theorem decodeBytes_eq (bytes : ByteArray) :
    decodeBytes bytes = match String.fromUTF8? bytes with
      | some text => decode text.toList
      | none => .error (.invalidField "upstream_json") := by
  unfold decodeBytes uniqueFromSlice valueFromSlice syntaxTree decode
  cases String.fromUTF8? bytes with
  | none => rfl
  | some text =>
      simp only [Option.bind_some]
      cases Json.parse 127 text.toList with
      | none => rfl
      | some tree =>
          simp only [okOr_some, bind_of_ok]
          cases hunique : tree.uniqueKeys with
          | true =>
              rw [(visit_present tree).2 hunique]
              cases tree.kept <;> rfl
          | false =>
              cases hvisit : Unique.visit (present tree) with
              | error e => rfl
              | ok u =>
                  have htrue := (visit_present tree).1 hvisit
                  rw [hunique] at htrue
                  cases htrue

end Decoding

end ResponseGateway.Adapters
