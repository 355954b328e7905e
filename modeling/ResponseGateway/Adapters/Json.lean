import ResponseGateway.Ir.Digest
import ResponseGateway.Ir.Event
import ResponseGateway.Library.JsonValue

/-!
`adapters::json`: reading a provider's text and the fields of its values, and cutting a
decoded text into deltas of bounded size. Objects that the gateway writes itself are sorted by key, as
maps are; writing a field into a value that is no object is a panic.
-/

namespace Json
open Checked

/-- `value[key]`. -/
def lookup (value : Json) (key : String) : Json := (value.field key).getD null

/-- `json!` with the fields of an object. -/
def ofFields (fields : Fields) : Json :=
  object (fields.foldr (fun entry rest => Assoc.insert entry.1 entry.2 rest) [])

/-- `value[key] = new`. -/
def setAt {ε : Type} (value : Json) (key : String) (new : Json) : Except (Fault ε) Json :=
  match value with
  | object fields => .ok (object (Assoc.insert key new fields))
  | null => .ok (object [(key, new)])
  | _ => .error .panic

@[simp] theorem field_ofFields_nil (key : String) : (ofFields []).field key = none := rfl

@[simp] theorem field_ofFields_cons (key key' : String) (value : Json) (rest : Fields) :
    (ofFields ((key, value) :: rest)).field key' =
      if key = key' then some value else (ofFields rest).field key' := by
  simp only [field, ofFields, asObject, Option.bind_some, List.foldr_cons, Assoc.get_insert]

theorem field_setAt {ε : Type} {value new value' : Json} {key : String}
    (h : (value.setAt key new : Except (Fault ε) Json) = .ok value') (key' : String) :
    value'.field key' = if key = key' then some new else value.field key' := by
  unfold setAt at h
  split at h <;> cases h
  · exact Assoc.get_insert _ _ _ _
  · rfl

mutual

/-- No object, at any depth, repeats a key. -/
def uniqueKeys : Json → Bool
  | array items => uniqueItems items
  | object fields => decide (fields.map Prod.fst).Nodup && uniqueFields fields
  | _ => true

def uniqueItems : List Json → Bool
  | [] => true
  | item :: rest => uniqueKeys item && uniqueItems rest

def uniqueFields : List (String × Json) → Bool
  | [] => true
  | (_, value) :: rest => uniqueKeys value && uniqueFields rest

end

theorem lookup_of_field {value item : Json} {key : String} (h : value.field key = some item) :
    value.lookup key = item := by
  rw [lookup, h, Option.getD_some]

/-- A text that is found is found as a field. -/
theorem fieldStr_eq_some {value : Json} {key text : String} :
    value.fieldStr key = some text ↔ value.field key = some (string text) := by
  rw [fieldStr, Option.bind_eq_some_iff]
  simp

theorem asStr_lookup (value : Json) (key : String) : (value.lookup key).asStr = value.fieldStr key := by
  rw [lookup, fieldStr]
  cases value.field key <;> rfl

end Json

namespace ResponseGateway.Adapters
open Checked Ir

section Fields

def decode (text : Text) : Except IrError Json := do
  let parsed ← okOr (Json.parse 127 text) (.invalidField "upstream_json")
  rejectIf (!parsed.uniqueKeys) (.invalidField "upstream_json")
  okOr parsed.kept (.invalidField "upstream_json")

def object (value : Json) : Except IrError Json.Fields :=
  okOr value.asObject (.invalidField "upstream_json")

def string (value : Json) (field : String) : Except IrError String :=
  okOr (value.fieldStr field) (.invalidField field)

def knownFields (value : Json) (fields : List String) : Except IrError Unit := do
  let entries ← object value
  rejectIf (entries.any fun entry => !fields.contains entry.1) .unsupportedExtension

theorem string_ok {value : Json} {field text : String} :
    string value field = .ok text ↔ value.fieldStr field = some text := okOr_ok

/-- A value with known fields only has no other field. -/
theorem knownFields_ok {value : Json} {fields : List String} {u : Unit}
    (h : knownFields value fields = .ok u) {key : String} (hkey : key ∉ fields) :
    value.field key = none := by
  obtain ⟨entries, hentries, h⟩ := bind_ok.1 h
  rw [object, okOr_ok] at hentries
  rw [rejectIf_ok, List.any_eq_false] at h
  rw [Json.field, hentries, Option.bind_some, Assoc.get_eq_none]
  rintro entry hentry rfl
  exact h entry hentry (by simpa using hkey)

end Fields

section Chunks

/-- The longest prefix within a number of bytes, and the rest. -/
def splitAtBytes : Nat → Text → Text × Text
  | _, [] => ([], [])
  | room, c :: rest =>
      if c.utf8Size ≤ room then
        let split := splitAtBytes (room - c.utf8Size) rest
        (c :: split.1, split.2)
      else ([], c :: rest)

def maxDeltaBytes : Nat := ({} : EventLimits).maxDeltaBytes

theorem splitAtBytes_append (room : Nat) (text : Text) :
    (splitAtBytes room text).1 ++ (splitAtBytes room text).2 = text := by
  induction text generalizing room with
  | nil => rfl
  | cons c rest ih =>
      rw [splitAtBytes]
      split
      · rw [List.cons_append, ih]
      · rfl

theorem splitAtBytes_shorter (c : Char) (rest : Text) :
    (splitAtBytes maxDeltaBytes (c :: rest)).2.length < (c :: rest).length := by
  have hsize : c.utf8Size ≤ maxDeltaBytes := c.utf8Size_le_four.trans (by decide)
  have happend := congrArg List.length
    (splitAtBytes_append (maxDeltaBytes - c.utf8Size) rest)
  rw [List.length_append] at happend
  rw [splitAtBytes, if_pos hsize, List.length_cons]
  exact Nat.lt_succ_of_le (happend ▸ Nat.le_add_left _ _)

/-- Parts of at most a mebibyte, cut between characters. -/
def eventTextChunks : Text → List Text
  | [] => []
  | c :: rest =>
      (splitAtBytes maxDeltaBytes (c :: rest)).1 ::
        eventTextChunks (splitAtBytes maxDeltaBytes (c :: rest)).2
termination_by text => text.length
decreasing_by exact splitAtBytes_shorter c rest

/-- The chunks are the text. -/
theorem flatten_eventTextChunks (text : Text) : (eventTextChunks text).flatten = text := by
  induction text using eventTextChunks.induct with
  | case1 => rw [eventTextChunks, List.flatten_nil]
  | case2 c rest ih => rw [eventTextChunks, List.flatten_cons, ih, splitAtBytes_append]

end Chunks

end ResponseGateway.Adapters
