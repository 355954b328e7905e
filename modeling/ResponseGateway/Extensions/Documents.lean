import ResponseGateway.Extensions.Texts

/-!
Canonical documents, as both sides read and write them. The gateway reads exactly what it
writes; what the manager has read is sorted, and has its integers as `json.dumps` writes them.
-/

namespace ResponseGateway.Extensions
open Checked Usage
open Json (Fields)
open Manager (Refusal hook hookItems hookFields pairs require hasKeys oneOf isMatch)

section Writing

/-- A document is its value in one line. -/
def document (value : Json) : ByteArray := RecordedEvent.utf8 (value.render ++ ['\n'])

variable {value value' : Json} {raw : ByteArray}

theorem parse_line {maxDepth : Nat} (h : value.nesting ≤ maxDepth) :
    Json.parse maxDepth (value.render ++ ['\n']) = some value := by
  have hclosed : Json.Closed ['\n'] := Json.closed_cons (by decide)
  have hlength : value.render.length ≤ (value.render ++ ['\n']).length + 1 := by
    rw [List.length_append]
    omega
  rw [Json.parse, (Json.parsesRendered _).value value maxDepth ['\n'] hlength h hclosed]
  rfl

theorem read_document (h : value.nesting ≤ RecordedEvent.maxDepth) :
    ((String.fromUTF8? (document value)).bind fun text =>
      Json.parse RecordedEvent.maxDepth text.toList) = some value := by
  rw [document, fromUTF8_utf8, Option.bind_some, String.toList_ofList, parse_line h]

/-- What the gateway reads is what it writes. -/
theorem decode_iff {α : Type} {read : Json → Option α} {toValue : α → Json} {a : α}
    (hread : read (toValue a) = some a) (h : (toValue a).nesting ≤ RecordedEvent.maxDepth) :
    decode read toValue raw = .ok a ↔ raw = document (toValue a) := by
  simp only [decode, bind_ok, okOr_ok, rejectIf_ok, pure_ok, decide_eq_false_iff_not, ne_eq,
    not_not]
  constructor
  · rintro ⟨_, -, _, hraw, rfl⟩
    exact hraw.symm
  · rintro rfl
    refine ⟨a, ?_, (), rfl, rfl⟩
    have hdocument := read_document h
    obtain ⟨text, htext, hparse⟩ := Option.bind_eq_some_iff.1 hdocument
    exact bind_of_some htext (bind_of_some hparse hread)

end Writing

section Loading

mutual

/-- Sorted objects, and no negative zero. -/
def Loaded : Json → Prop
  | .number value => value.text ≠ "-0"
  | .array items => LoadedItems items
  | .object fields => Assoc.Sorted fields ∧ LoadedFields fields
  | _ => True

def LoadedItems : List Json → Prop
  | [] => True
  | item :: rest => Loaded item ∧ LoadedItems rest

def LoadedFields : List (String × Json) → Prop
  | [] => True
  | (_, value) :: rest => Loaded value ∧ LoadedFields rest

end

theorem loadedItems_iff {items : List Json} :
    LoadedItems items ↔ ∀ item ∈ items, Loaded item := by
  induction items with
  | nil => simp [LoadedItems]
  | cons item rest ih => simp [LoadedItems, ih]

theorem loadedFields_iff {fields : Fields} :
    LoadedFields fields ↔ ∀ entry ∈ fields, Loaded entry.2 := by
  induction fields with
  | nil => simp [LoadedFields]
  | cons entry rest ih => simp [LoadedFields, ih]

theorem pairs_ok {items fields : Fields} (h : pairs items = .ok fields) :
    Assoc.Sorted fields ∧ ∀ entry ∈ fields, entry ∈ items := by
  refine foldlM_rule (P := fun done result => Assoc.Sorted result ∧ ∀ entry ∈ result, entry ∈ done)
    h ⟨Assoc.sorted_nil, nofun⟩ ?_
  intro done entry rest result result' _ hresult hstep
  simp only [bind_ok, pure_ok] at hstep
  obtain ⟨_, -, rfl⟩ := hstep
  refine ⟨Assoc.sorted_insert _ _ hresult.1, fun entry' hentry' => ?_⟩
  rcases Assoc.mem_insert hentry' with rfl | hentry'
  · exact List.mem_append_right _ (List.mem_singleton_self _)
  · exact List.mem_append_left _ (hresult.2 entry' hentry')

theorem pairs_sorted {fields : Fields} (h : Assoc.Sorted fields) : pairs fields = .ok fields := by
  suffices hrun : ∀ done : Fields, Assoc.Sorted (done ++ fields) →
      fields.foldlM (fun result entry => do
        require (Assoc.get entry.1 result).isNone "Duplicate JSON field"
        return Assoc.insert entry.1 entry.2 result) done =
          (.ok (done ++ fields) : Except Refusal Fields) by
    exact hrun [] h
  clear h
  induction fields with
  | nil =>
      intro done _
      rw [List.append_nil]
      rfl
  | cons entry rest ih =>
      intro done hsorted
      have hlt : ∀ e ∈ done, e.1 < entry.1 := fun e he =>
        (List.pairwise_append.1 hsorted).2.2 e he entry List.mem_cons_self
      have hnew : Assoc.get entry.1 done = none :=
        Assoc.get_eq_none.2 fun e he => (hlt e he).ne
      have hstep := ih (done ++ [entry]) (by rwa [List.append_assoc])
      rw [List.append_assoc] at hstep
      rw [List.foldlM_cons, hnew, Assoc.insert_last _ hlt]
      exact hstep

mutual

/-- What the hooks leave. -/
theorem hook_loaded : (value : Json) → ∀ {value' : Json}, hook value = .ok value' → Loaded value'
  | .null, _, h | .bool _, _, h | .string _, _, h => by
      cases h
      trivial
  | .number value, _, h => by
      cases h
      rw [Loaded]
      split
      · decide
      · next hzero => exact hzero
  | .array items, _, h => by
      simp only [hook, bind_ok, pure_ok] at h
      obtain ⟨items', hitems, rfl⟩ := h
      exact hookItems_loaded items hitems
  | .object fields, _, h => by
      simp only [hook, bind_ok, pure_ok] at h
      obtain ⟨items, hitems, fields', hpairs, rfl⟩ := h
      obtain ⟨hsorted, hmem⟩ := pairs_ok hpairs
      have hloaded := loadedFields_iff.1 (hookFields_loaded fields hitems)
      exact ⟨hsorted, loadedFields_iff.2 fun entry hentry => hloaded entry (hmem entry hentry)⟩

theorem hookItems_loaded : (items : List Json) → ∀ {items' : List Json},
    hookItems items = .ok items' → LoadedItems items'
  | [], _, h => by
      cases h
      trivial
  | item :: rest, _, h => by
      simp only [hookItems, bind_ok, pure_ok] at h
      obtain ⟨item', hitem, rest', hrest, rfl⟩ := h
      exact ⟨hook_loaded item hitem, hookItems_loaded rest hrest⟩

theorem hookFields_loaded : (fields : Fields) → ∀ {fields' : Fields},
    hookFields fields = .ok fields' → LoadedFields fields'
  | [], _, h => by
      cases h
      trivial
  | (key, value) :: rest, _, h => by
      simp only [hookFields, bind_ok, pure_ok] at h
      obtain ⟨value', hvalue, rest', hrest, rfl⟩ := h
      exact ⟨hook_loaded value hvalue, hookFields_loaded rest hrest⟩

end

mutual

/-- The hooks leave what they made as it is. -/
theorem hook_of_loaded : (value : Json) → Loaded value → hook value = .ok value
  | .null, _ | .bool _, _ | .string _, _ => rfl
  | .number value, h => by
      rw [hook, if_neg h]
      rfl
  | .array items, h => by
      rw [hook, hookItems_of_loaded items h]
      rfl
  | .object fields, h => by
      rw [hook, hookFields_of_loaded fields h.2, bind_of_ok, pairs_sorted h.1]
      rfl

theorem hookItems_of_loaded : (items : List Json) → LoadedItems items →
    hookItems items = .ok items
  | [], _ => rfl
  | item :: rest, h => by
      rw [hookItems, hook_of_loaded item h.1, bind_of_ok, hookItems_of_loaded rest h.2]
      rfl

theorem hookFields_of_loaded : (fields : Fields) → LoadedFields fields →
    hookFields fields = .ok fields
  | [], _ => rfl
  | (key, value) :: rest, h => by
      rw [hookFields, hook_of_loaded value h.1, bind_of_ok, hookFields_of_loaded rest h.2]
      rfl

end

variable {lenient : ByteArray → Option Json} {value : Json} {raw : ByteArray}

theorem decodeJson_loaded (h : Manager.decodeJson lenient raw = .ok value) : Loaded value := by
  simp only [Manager.decodeJson, bind_ok] at h
  obtain ⟨value', -, hhook⟩ := h
  exact hook_loaded value' hhook

theorem decodeJson_document (hloaded : Loaded value)
    (h : value.nesting ≤ RecordedEvent.maxDepth) :
    Manager.decodeJson lenient (document value) = .ok value := by
  have hloads : Manager.loads lenient (document value) = some value := by
    rw [Manager.loads, read_document h]
  rw [Manager.decodeJson, hloads, okOr_some, bind_of_ok, hook_of_loaded value hloaded]

end Loading

section Simplicity

/-- Sorted objects of printable ASCII texts and unsigned integers. -/
inductive Simple : Json → Prop where
  | number (n : Nat) : Simple (.number (.ofNat n))
  | string (text : String) (chars : ∀ c ∈ text.toList, printable c = true) :
      Simple (.string text)
  | array (items : List Json) (values : ∀ item ∈ items, Simple item) : Simple (.array items)
  | object (fields : Fields) (sorted : Assoc.Sorted fields)
      (keys : ∀ entry ∈ fields, ∀ c ∈ entry.1.toList, printable c = true)
      (values : ∀ entry ∈ fields, Simple entry.2) : Simple (.object fields)

theorem Simple.loaded {value : Json} (h : Simple value) : Loaded value := by
  induction h with
  | number n =>
      rw [Loaded]
      intro heq
      have hdigit := (Json.plain_toDigits n).1 '-' (by
        rw [← Nat.toList_repr, show n.repr = "-0" from heq]
        decide)
      cases hdigit
  | string text chars => trivial
  | array items values ih => exact loadedItems_iff.2 ih
  | object fields sorted keys values ih => exact ⟨sorted, loadedFields_iff.2 ih⟩

/-- A text is simple when its characters are printable. -/
def PrintableText (text : String) : Prop := ∀ c ∈ text.toList, printable c = true

instance (text : String) : Decidable (PrintableText text) :=
  List.decidableBAll (fun c => printable c = true) text.toList

theorem simple_texts {values : List String} (h : ∀ text ∈ values, PrintableText text) :
    Simple (texts values) := by
  refine .array _ fun item hitem => ?_
  obtain ⟨text, htext, rfl⟩ := List.mem_map.1 hitem
  exact .string text (h text htext)

end Simplicity

section Fields

variable {fields : Fields} {names keys : List String}

variable (keys) in
/-- The keys of a dictionary, in their order. -/
theorem keys_of_hasKeys (hsorted : Assoc.Sorted fields) (h : hasKeys fields names = true)
    (hkeys : keys.Pairwise (· < ·)) (hsame : keys.toFinset = names.toFinset) :
    fields.map Prod.fst = keys := by
  rw [hasKeys, decide_eq_true_eq, ← hsame] at h
  refine List.Pairwise.eq_of_mem_iff (r := (· < ·)) (List.pairwise_map.2 hsorted) hkeys
    fun key => ?_
  rw [← List.mem_toFinset, h, List.mem_toFinset]

/-- A dictionary of known keys is known by its values. -/
theorem eq_of_keys (h : fields.map Prod.fst = keys) (hkeys : keys.Nodup) :
    fields = keys.map fun key => (key, (Assoc.get key fields).getD .null) := by
  subst h
  rw [List.map_map]
  refine (List.map_id fields).symm.trans (List.map_congr_left fun entry hentry => ?_)
  rw [Function.comp_apply, Assoc.get_of_nodup hkeys hentry, Option.getD_some]
  rfl

end Fields

end ResponseGateway.Extensions
