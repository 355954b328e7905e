import ResponseGateway.Library.Codec
import ResponseGateway.Library.JsonValue

/-!
JSON values as bytes, and tables of values under typed keys. A part of the bytes of an
object is the whole of it or not the bytes of an object, so that a file which was cut off
while an object was written to it does not pass for another object.
-/

namespace Json

section Bytes

def bytes (value : Json) : List UInt8 := (String.ofList value.render).toUTF8.data.toList

/-- The value of a text, before its numbers and repeated keys are settled. -/
def ofBytes (maxDepth : Nat) (bytes : List UInt8) : Option Json :=
  (String.fromUTF8? ⟨bytes.toArray⟩).bind fun text => parse maxDepth text.toList

theorem length_bytes (value : Json) : value.bytes.length = value.size := by
  have hsize (text : List Char) : (List.utf8Encode text).size = width text := by
    induction text with
    | nil => rfl
    | cons c rest ih =>
        rw [List.utf8Encode_cons, ByteArray.size_append, ih, width_cons,
          List.utf8Encode_singleton, List.size_toByteArray, String.length_utf8EncodeChar]
  exact hsize value.render

theorem ofBytes_bytes {maxDepth : Nat} {value : Json} (h : value.nesting ≤ maxDepth) :
    ofBytes maxDepth value.bytes = some value := by
  have htext : String.fromUTF8? ⟨value.bytes.toArray⟩ = some (String.ofList value.render) := by
    rw [bytes, Array.toArray_toList]
    exact dif_pos (String.ofList value.render).isValidUTF8
  rw [ofBytes, htext, Option.bind_some, String.toList_ofList, parse_render value h]

theorem bytes_injective {value value' : Json} (h : value.bytes = value'.bytes) : value = value' := by
  have hread := ofBytes_bytes (Nat.le_max_left value.nesting value'.nesting)
  rw [h, ofBytes_bytes (Nat.le_max_right value.nesting value'.nesting)] at hread
  exact (Option.some.inj hread).symm

end Bytes

section Values

/-- A value that is read back as it is, of limited nesting. -/
structure ReadBack (depth : Nat) where
  json : Json
  settled : kept json = some json
  shallow : json.nesting ≤ depth

def ReadBack.new (depth : Nat) (json : Json) : Option (ReadBack depth) :=
  if h : kept json = some json ∧ json.nesting ≤ depth then some ⟨json, h.1, h.2⟩ else none

theorem ReadBack.new_json {depth : Nat} (value : ReadBack depth) : ReadBack.new depth value.json = some value :=
  dif_pos ⟨value.settled, value.shallow⟩

namespace Codec

variable {α K : Type} [LinearOrder K]

/-- Any value, as a parser keeps it. -/
def any (depth : Nat) : Codec (ReadBack depth) where
  encode value := value.json
  decode json := (kept json).bind (ReadBack.new depth)
  decode_encode value := by rw [value.settled, Option.bind_some, value.new_json]
  depth := depth
  depth_le value := value.shallow

/-- A map from keys that are written as texts. -/
def keyed (write : K → String) (read : String → Option K) (h : ∀ k, read (write k) = some k)
    (c : Codec α) : Codec (OrderedMap K α) where
  encode m := .object (m.entries.map fun entry => (write entry.1, c.encode entry.2))
  decode value := do
    let fields ← value.asObject
    let entries ← fields.mapM fun field => do
      let k ← read field.1
      let a ← c.decode field.2
      return (k, a)
    return entries.foldl (fun m entry => m.insert entry.1 entry.2) .empty
  decode_encode m := by
    have hentries (l : List (K × α)) : ((l.map fun entry => (write entry.1, c.encode entry.2)).mapM
        fun field => do
          let k ← read field.1
          let a ← c.decode field.2
          return (k, a)) = some l := by
      induction l with
      | nil => rfl
      | cons entry rest ih =>
          rw [List.map_cons, List.mapM_cons, ih, h, c.decode_encode]
          rfl
    change (((m.entries.map fun entry => (write entry.1, c.encode entry.2)).mapM _ :
      Option (List (K × α))) >>= _) = _
    rw [hentries]
    exact congrArg some m.foldl_insert_entries
  depth := c.depth + 1
  depth_le m := by
    refine Nat.add_le_add_right (nestingFields_le fun entry hentry => ?_) 1
    obtain ⟨entry', -, rfl⟩ := List.mem_map.1 hentry
    exact c.depth_le entry'.2

theorem within_keyed {write : K → String} {read : String → Option K}
    {h : ∀ k, read (write k) = some k} {c : Codec α} {a n : Nat} {m : OrderedMap K α}
    (hkey : ∀ k, width (renderString (write k).toList) ≤ a) (hc : ∀ v, c.Within n v) :
    (c.keyed write read h).Within (m.size * (a + n + 2) + 2) m := by
  have hfields (l : List (K × α)) :
      fieldsSize (l.map fun entry => (write entry.1, c.encode entry.2)) ≤ l.length * (a + n + 2) := by
    induction l with
    | nil => exact Nat.zero_le _
    | cons entry rest ih =>
        have hwrite := hkey entry.1
        have hvalue : (c.encode entry.2).size ≤ n := hc entry.2
        simp only [List.map_cons, fieldsSize, List.length_cons, Nat.succ_mul]
        omega
  exact Nat.le_trans (size_object _) (Nat.add_le_add_right (hfields m.entries) 2)

theorem within_list {c : Codec α} {n : Nat} {l : List α} (hc : ∀ v, c.Within n v) :
    c.list.Within (l.length * (n + 1) + 2) l := by
  have hitems (l : List α) : itemsSize (l.map c.encode) ≤ l.length * (n + 1) := by
    induction l with
    | nil => exact Nat.zero_le _
    | cons v rest ih =>
        have hvalue : (c.encode v).size ≤ n := hc v
        simp only [List.map_cons, itemsSize, List.length_cons, Nat.succ_mul]
        omega
  exact Nat.le_trans (size_array _) (Nat.add_le_add_right (hitems l) 2)

def toBytes (c : Codec α) (a : α) : List UInt8 := (c.encode a).bytes

/-- The value of a file, with the nesting limit of the parser. -/
def readBytes (c : Codec α) (bytes : List UInt8) : Option α := (ofBytes 128 bytes).bind c.decode

theorem readBytes_toBytes (c : Codec α) (h : c.depth ≤ 128) (a : α) :
    c.readBytes (c.toBytes a) = some a := by
  rw [readBytes, toBytes, ofBytes_bytes (Nat.le_trans (c.depth_le a) h), Option.bind_some,
    c.decode_encode]

theorem length_toBytes (c : Codec α) (a : α) : (c.toBytes a).length = (c.encode a).size :=
  length_bytes _

theorem toBytes_injective (c : Codec α) {a b : α} (h : c.toBytes a = c.toBytes b) : a = b :=
  c.encode_inj (bytes_injective h)

end Codec

end Values

section Settling

namespace Record

variable {α β : Type} {key : String} {r : Record α}

theorem settled_field {c : Codec α} {a : α} (h : (c.encode a).Settled) :
    SettledFields ((field key c).encode a) := ⟨h, trivial⟩

theorem settled_optional {c : Codec (Option α)} {a : Option α} (h : (c.encode a).Settled) :
    SettledFields ((optional key c).encode a) := ⟨h, trivial⟩

theorem settled_and {s : Record β} {a : α × β} (hr : SettledFields (r.encode a.1))
    (hs : SettledFields (s.encode a.2)) : SettledFields ((r.and s).encode a) := by
  rw [settledFields_iff] at hr hs ⊢
  intro entry hentry
  rcases List.mem_append.1 hentry with h | h
  · exact hr entry h
  · exact hs entry h

/-- An object whose keys are sorted is read as it was written, when its fields are. -/
theorem settled_codec (h : r.keys.Nodup) {a : α} (hkeys : r.keys.Pairwise (· < ·))
    (hhead : r.keys.head? ≠ some numberToken) (hfields : SettledFields (r.encode a)) :
    ((r.codec h).encode a).Settled := by
  refine ⟨?_, ?_, hfields⟩
  · rw [← List.head?_map, r.keys_encode]
    exact hhead
  · rw [Assoc.Sorted, ← List.pairwise_map (f := Prod.fst), r.keys_encode]
    exact hkeys

end Record

end Settling

end Json
