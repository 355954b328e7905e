import ResponseGateway.Codecs.ProgressFinal

/-!
The events that complete published progress: for each item of the output a block, with
the announcement if the item was not announced, the arguments of a tool or the parts that
are still missing, and the item itself. Every event of a block carries the index of its
item.
-/

namespace ResponseGateway.Codecs
open Checked Ir Adapters
open Json (ofFields)

section Families

variable (event : Json)

def isTerminal : Bool :=
  typeOf event = some "response.completed" || typeOf event = some "response.incomplete"

/-- Arguments of a tool, or a tool that is announced or done. -/
def isToolEvent : Bool :=
  (typeOf event).any (toolTypes.contains ·) ||
    (isAdded event || isDone event) && (announced event "type").any isToolType

variable {event}

theorem content_not_terminal {type : String} (hmem : type ∈ toolTypes ++ partTypes)
    (h : typeOf event = some type) : isTerminal event = false := by
  have hother : ∀ type ∈ toolTypes ++ partTypes, type ≠ "response.completed" ∧
      type ≠ "response.incomplete" := by decide
  simpa [isTerminal, h] using hother type hmem

end Families

section Parts

variable {reasoning : Bool} {id : String} {index partIndex : Nat} {part : Json}
  {observed : Option Item}

/-- An event about a part of an item. -/
structure PartContent (reasoning : Bool) (id : String) (index partIndex : Nat) (event : Json) :
    Prop extends ContentEvent event id index where
  isPart : ∃ type ∈ partTypes, typeOf event = some type
  atPart : event.field (indexKey reasoning) = some (.number (.ofNat partIndex))

theorem partContent_partEvent {type key : String} {value : Json} (h : type ∈ partTypes) :
    PartContent reasoning id index partIndex
      (partEvent type reasoning id index partIndex key value) where
  type := ⟨type, List.mem_append_right _ h, by simp [typeOf, partEvent, Json.fieldStr]⟩
  named := by simp [partEvent, Json.fieldStr]
  carries := by simp [partEvent]
  isPart := ⟨type, h, by simp [typeOf, partEvent, Json.fieldStr]⟩
  atPart := by cases reasoning <;> simp [partEvent, indexKey]

theorem typeOf_partEvent {type key : String} {value : Json} :
    typeOf (partEvent type reasoning id index partIndex key value) = some type := by
  simp [typeOf, partEvent, Json.fieldStr]

theorem deltaOf_textDelta (chunk : Text) :
    deltaOf (textDelta reasoning id index partIndex chunk) = String.ofList chunk := by
  cases reasoning <;> simp [deltaOf, textDelta, partEvent, indexKey, Json.fieldStr, Json.asStr]

/-- The last events of a part. -/
def partClosing (reasoning : Bool) (id : String) (index partIndex : Nat) (part : Json) :
    List Json :=
  [textDone reasoning id index partIndex part, partDone reasoning id index partIndex part]

/-- The announcement of a part and the deltas of its text. -/
structure PartOpening (reasoning : Bool) (text : Option String) (first : Json)
    (deltas : List Json) : Prop where
  opens : typeOf first = some (partPrefix reasoning ++ ".added")
  continues : ∀ d ∈ deltas, typeOf d = some (textPrefix reasoning ++ ".delta")
  whole : text = some (textOf deltas)

/-- The events that complete one part. -/
structure PartBlock (reasoning : Bool) (id : String) (index : Nat) (observed : Option Item)
    (partIndex : Nat) (part : Json) (block : List Json) : Prop where
  content : ∀ e ∈ block, PartContent reasoning id index partIndex e
  known : ∀ item, observed = some item → partIndex < item.parts.length →
    block = partClosing reasoning id index partIndex part
  missing : (∀ item, observed = some item → item.parts.length ≤ partIndex) →
    ∃ first deltas, block = first :: (deltas ++ partClosing reasoning id index partIndex part) ∧
      PartOpening reasoning (part.fieldStr "text") first deltas

theorem partClosing_content : ∀ e ∈ partClosing reasoning id index partIndex part,
    PartContent reasoning id index partIndex e := by
  obtain ⟨-, hdone, -, htext⟩ := partPrefix_mem reasoning
  intro e he
  simp only [partClosing, List.mem_cons, List.not_mem_nil, or_false] at he
  rcases he with rfl | rfl
  · exact partContent_partEvent htext
  · exact partContent_partEvent hdone

theorem partEvents_ok {block : List Json}
    (h : Progress.partEvents reasoning id index observed (part, partIndex) = .ok block) :
    PartBlock reasoning id index observed partIndex part block := by
  obtain ⟨hadded, -, hdelta, -⟩ := partPrefix_mem reasoning
  unfold Progress.partEvents at h
  split at h
  · next hall =>
      simp only [bind_ok, lift_ok, string_ok, pure_ok] at h
      obtain ⟨empty, -, text, htext, _, rfl, rfl⟩ := h
      refine ⟨fun e he => ?_, fun item hitem hlt => ?_, fun _ => ⟨_, _, rfl, ?_⟩⟩
      · rcases List.mem_append.1 he with he | he
        · rcases List.mem_cons.1 he with rfl | he
          · exact partContent_partEvent hadded
          · obtain ⟨chunk, -, rfl⟩ := List.mem_map.1 he
            exact partContent_partEvent hdelta
        · exact partClosing_content e he
      · rw [hitem] at hall
        simp [hlt] at hall
      · refine ⟨typeOf_partEvent, fun d hd => ?_, ?_⟩
        · obtain ⟨chunk, -, rfl⟩ := List.mem_map.1 hd
          exact typeOf_partEvent
        · rw [textOf_chunks deltaOf_textDelta, htext]
  · next hall =>
      simp only [bind_ok, pure_ok] at h
      obtain ⟨_, rfl, rfl⟩ := h
      refine ⟨partClosing_content, fun item _ _ => rfl, fun hmissing => absurd ?_ hall⟩
      rw [Option.all_eq_true]
      intro item hitem
      simpa using hmissing item hitem

end Parts

section Arguments

variable {custom : Bool} {id : String} {index : Nat} {item : Json}

theorem deltaOf_argumentsDelta (chunk : Text) :
    deltaOf (argumentsDelta custom id index chunk) = String.ofList chunk := by
  simp [deltaOf, argumentsDelta, Json.fieldStr, Json.asStr]

/-- The arguments of a tool in deltas, and as a whole. -/
structure ArgumentBlock (custom : Bool) (id : String) (index : Nat) (item : Json)
    (block : List Json) : Prop where
  content : ∀ e ∈ block, ContentEvent e id index
  deltas : ∃ deltas, block = deltas ++ [argumentsDone custom id index item] ∧
    (∀ d ∈ deltas, typeOf d = some (argumentsPrefix custom ++ ".delta")) ∧
    item.fieldStr (argumentsKey custom) = some (textOf deltas)

theorem argumentEvents_ok {block : List Json}
    (h : Progress.argumentEvents custom id index item = .ok block) :
    ArgumentBlock custom id index item block := by
  obtain ⟨hdelta, hdone⟩ := argumentsPrefix_mem custom
  simp only [Progress.argumentEvents, bind_ok, lift_ok, string_ok, pure_ok] at h
  obtain ⟨text, htext, rfl⟩ := h
  have htype : ∀ chunk, typeOf (argumentsDelta custom id index chunk) =
      some (argumentsPrefix custom ++ ".delta") := by
    intro chunk
    simp [typeOf, argumentsDelta, Json.fieldStr]
  refine ⟨fun e he => ?_, _, rfl, fun d hd => ?_, ?_⟩
  · rcases List.mem_append.1 he with he | he
    · obtain ⟨chunk, -, rfl⟩ := List.mem_map.1 he
      exact ⟨⟨_, List.mem_append_left _ hdelta, htype chunk⟩,
        by simp [argumentsDelta, Json.fieldStr], by simp [argumentsDelta]⟩
    · rw [List.mem_singleton.1 he]
      exact ⟨⟨_, List.mem_append_left _ hdone, by simp [typeOf, argumentsDone, Json.fieldStr]⟩,
        by simp [argumentsDone, Json.fieldStr], by simp [argumentsDone]⟩
  · obtain ⟨chunk, -, rfl⟩ := List.mem_map.1 hd
    exact htype chunk
  · rw [textOf_chunks deltaOf_argumentsDelta, htext]

end Arguments

section Items

variable {self : Progress} {kind id : String} {index : Nat} {item : Json}

theorem fieldStr_setAt {ε : Type} {value new value' : Json} {key key' : String}
    (h : (value.setAt key new : Except (Fault ε) Json) = .ok value') (hne : key ≠ key') :
    value'.fieldStr key' = value.fieldStr key' := by
  rw [Json.fieldStr, Json.field_setAt h, if_neg hne, Json.fieldStr]

/-- The announced item has the identity and the type of the item. -/
theorem started_ok {value : Json} (h : Progress.started kind item = .ok value) :
    value.fieldStr "id" = item.fieldStr "id" ∧ value.fieldStr "type" = item.fieldStr "type" := by
  unfold Progress.started at h
  split at h
  · obtain ⟨middle, hmiddle, h⟩ := bind_ok.1 h
    have hkey : argumentsKey (kind = "custom_tool_call") ≠ "id" ∧
        argumentsKey (kind = "custom_tool_call") ≠ "type" := by
      cases decide (kind = "custom_tool_call") <;> decide
    exact ⟨(fieldStr_setAt h hkey.1).trans (fieldStr_setAt hmiddle (by decide)),
      (fieldStr_setAt h hkey.2).trans (fieldStr_setAt hmiddle (by decide))⟩
  · split at h
    · exact ⟨fieldStr_setAt h (by decide), fieldStr_setAt h (by decide)⟩
    · obtain ⟨middle, hmiddle, h⟩ := bind_ok.1 h
      exact ⟨(fieldStr_setAt h (by decide)).trans (fieldStr_setAt hmiddle (by decide)),
        (fieldStr_setAt h (by decide)).trans (fieldStr_setAt hmiddle (by decide))⟩

/-- The announcement of an item that was not announced. -/
inductive Announces (progress : Progress) (id kind : String) (index : Nat) : List Json → Prop where
  | known {item : Item} (found : progress.items.get id = some item) : Announces progress id kind index []
  | new {value : Json} (missing : progress.items.get id = none)
      (last : ∀ other item, progress.items.get other = some item → item.index ≤ index)
      (hasId : value.fieldStr "id" = some id) (hasKind : value.fieldStr "type" = some kind) :
      Announces progress id kind index [itemAdded index value]

/-- The parts of an item that is no tool. -/
def PartsBlock (observed : Option Item) (reasoning : Bool) (id : String) (index : Nat)
    (parts : List Json) (content : List Json) : Prop :=
  ∃ blocks : List (List Json), content = blocks.flatten ∧ blocks.length = parts.length ∧
    ∀ (j : Nat) part block, parts[j]? = some part → blocks[j]? = some block →
      PartBlock reasoning id index observed j part block

/-- The events that complete one item. -/
structure ItemBlock (progress : Progress) (index : Nat) (item : Json) (id kind : String)
    (added content : List Json) : Prop where
  hasId : item.fieldStr "id" = some id
  hasKind : item.fieldStr "type" = some kind
  place : ∀ known, progress.items.get id = some known → known.index = index
  announces : Announces progress id kind index added
  tool : isToolType kind = true → ArgumentBlock (kind = "custom_tool_call") id index item content
  parts : isToolType kind = false → ∃ parts, item.lookup (partsKey (kind = "reasoning")) = .array parts ∧
    PartsBlock (progress.items.get id) (kind = "reasoning") id index parts content

theorem addedEvents_ok {added : List Json}
    (h : self.addedEvents kind (self.items.get id) index item = .ok added)
    (hasId : item.fieldStr "id" = some id) (hasKind : item.fieldStr "type" = some kind) :
    Announces self id kind index added := by
  unfold Progress.addedEvents at h
  split at h
  · next hnone =>
      simp only [bind_ok, lift_ok, rejectIf_ok, pure_ok, OrderedMap.any_values_eq_false,
        decide_eq_false_iff_not, Nat.not_lt] at h
      obtain ⟨_, hlast, value, hvalue, rfl⟩ := h
      obtain ⟨hid, hkind⟩ := started_ok hvalue
      exact .new (Option.isNone_iff_eq_none.1 hnone) hlast (hid.trans hasId) (hkind.trans hasKind)
  · next hsome =>
      cases h
      rw [Bool.not_eq_true, Option.isNone_eq_false_iff] at hsome
      obtain ⟨known, hknown⟩ := Option.isSome_iff_exists.1 hsome
      exact .known hknown

theorem itemEvents_ok {block : List Json} (h : self.itemEvents (item, index) = .ok block) :
    ∃ id kind added content, block = added ++ content ++ [itemDone index item] ∧
      ItemBlock self index item id kind added content := by
  simp only [Progress.itemEvents, bind_ok, lift_ok, string_ok, rejectIf_ok] at h
  obtain ⟨id, hid, kind, hkind, _, hplace, added, hadded, h⟩ := h
  have hplaced : ∀ known, self.items.get id = some known → known.index = index := by
    intro known hknown
    rw [hknown] at hplace
    simpa using hplace
  have hannounces := addedEvents_ok hadded hid hkind
  split at h
  · next htool =>
      obtain ⟨content, hcontent, h⟩ := bind_ok.1 h
      cases h
      exact ⟨id, kind, added, content, rfl, hid, hkind, hplaced, hannounces,
        fun _ => argumentEvents_ok hcontent, fun hnot => by rw [htool] at hnot; cases hnot⟩
  · next htool =>
      simp only [bind_ok, lift_ok, okOr_ok, Json.asArray_eq_some, pure_ok] at h
      obtain ⟨parts, hparts, blocks, hblocks, _, rfl, rfl⟩ := h
      obtain ⟨hlength, hall⟩ := mapM_zipIdx_ok hblocks
      exact ⟨id, kind, added, blocks.flatten, rfl, hid, hkind, hplaced, hannounces,
        fun h => absurd h htool, fun _ => ⟨parts, hparts, blocks, rfl, hlength,
          fun j part events hpart hevents => partEvents_ok (hall j part events hpart hevents)⟩⟩

theorem PartsBlock.content {observed : Option Item} {reasoning : Bool} {parts content : List Json}
    (h : PartsBlock observed reasoning id index parts content) {event : Json}
    (he : event ∈ content) : ContentEvent event id index ∧
      ∃ j < parts.length, event.field (indexKey reasoning) = some (.number (.ofNat j)) := by
  obtain ⟨blocks, rfl, hlength, hall⟩ := h
  obtain ⟨block, hblock, he⟩ := List.mem_flatten.1 he
  obtain ⟨j, hj, hget⟩ := List.getElem_of_mem hblock
  have hpart := (hall j _ block (List.getElem?_eq_getElem (hlength ▸ hj))
    (hget ▸ List.getElem?_eq_getElem hj)).content event he
  exact ⟨hpart.toContentEvent, j, hlength ▸ hj, hpart.atPart⟩

theorem ItemBlock.content_event {added content : List Json}
    (h : ItemBlock self index item id kind added content) {event : Json} (he : event ∈ content) :
    ContentEvent event id index := by
  cases htool : isToolType kind with
  | true => exact (h.tool htool).content event he
  | false =>
      obtain ⟨parts, -, hparts⟩ := h.parts htool
      exact (hparts.content he).1

theorem isAdded_itemAdded (value : Json) : isAdded (itemAdded index value) = true := by
  simp [isAdded, typeOf, itemAdded, Json.fieldStr, Json.asStr]
variable (index) in

theorem isDone_itemDone (value : Json) : isDone (itemDone index value) = true ∧
    isAdded (itemDone index value) = false := by
  simp [isAdded, isDone, typeOf, itemDone, Json.fieldStr, Json.asStr]

theorem not_isDone_itemAdded (value : Json) : isDone (itemAdded index value) = false := by
  simp [isDone, typeOf, itemAdded, Json.fieldStr, Json.asStr]

theorem Announces.isAdded {added : List Json} (h : Announces self id kind index added) :
    added.filter isAdded = added ∧ added.filter isDone = [] := by
  cases h with
  | known => exact ⟨rfl, rfl⟩
  | new => simp [isAdded_itemAdded, not_isDone_itemAdded]

/-- The announcements and the finished items of a block. -/
theorem ItemBlock.families {added content : List Json}
    (h : ItemBlock self index item id kind added content) :
    (added ++ content ++ [itemDone index item]).filter isAdded = added ∧
      (added ++ content ++ [itemDone index item]).filter isDone = [itemDone index item] := by
  have hadded : content.filter isAdded = [] :=
    List.filter_eq_nil_iff.2 fun e he => by simp [(h.content_event he).other]
  have hdone : content.filter isDone = [] :=
    List.filter_eq_nil_iff.2 fun e he => by simp [(h.content_event he).other]
  obtain ⟨hadds, hdones⟩ := h.announces.isAdded
  obtain ⟨hitem, hitem'⟩ := isDone_itemDone index item
  simp only [List.filter_append, hadded, hdone, hadds, hdones, List.filter_cons, hitem, hitem',
    List.filter_nil, List.append_nil, List.nil_append, Bool.false_eq_true, if_false, if_true,
    and_self]

/-- Every event of a block carries the index of its item, and starts or ends nothing. -/
theorem ItemBlock.event {added content : List Json}
    (h : ItemBlock self index item id kind added content) {event : Json}
    (he : event ∈ added ++ content ++ [itemDone index item]) :
    event.field "output_index" = some (.number (.ofNat index)) ∧ isCreated event = false ∧
      isTerminal event = false := by
  simp only [List.mem_append, List.mem_singleton] at he
  rcases he with (he | he) | rfl
  · cases h.announces with
    | known => cases he
    | new =>
        rw [List.mem_singleton.1 he]
        simp [itemAdded, isCreated, isTerminal, typeOf, Json.fieldStr, Json.asStr]
  · obtain ⟨type, hmem, htype⟩ := (h.content_event he).type
    have hcreated := (h.content_event he).other.1
    have hterminal := content_not_terminal hmem htype
    exact ⟨(h.content_event he).carries, hcreated, hterminal⟩
  · simp [itemDone, isCreated, isTerminal, typeOf, Json.fieldStr, Json.asStr]

end Items

section Completing

variable {self : Progress} {response : Json} {output : List Json}

/-- `response.created`, if it was not published. -/
inductive Opens (progress : Progress) : List Json → Prop where
  | known {id : String} (created : progress.created = some id) : Opens progress []
  | new {value : Json} (created : progress.created = none) (items : progress.items = .empty) :
      Opens progress [ofFields [("type", .string "response.created"), ("response", value)]]

/-- The blocks that complete the progress. -/
structure Completion (progress : Progress) (response : Json) (output : List Json)
    (created : List Json) (blocks : List (List Json)) (type : String) : Prop where
  finished : progress.finish response = .ok ()
  opens : Opens progress created
  terminal : Progress.terminalType response = .ok type
  length : blocks.length = output.length
  block : ∀ (k : Nat) item block, output[k]? = some item → blocks[k]? = some block →
    ∃ id kind added content, block = added ++ content ++ [itemDone k item] ∧
      ItemBlock progress k item id kind added content

theorem createdEvent_ok {created : List Json} (h : self.createdEvent response = .ok created) :
    Opens self created := by
  unfold Progress.createdEvent at h
  split at h
  · next hnone =>
      simp only [bind_ok, lift_ok, rejectIf_ok, Bool.not_eq_false', List.isEmpty_iff,
        pure_ok] at h
      obtain ⟨_, hitems, _, -, _, -, _, -, rfl⟩ := h
      exact .new (Option.isNone_iff_eq_none.1 hnone) (OrderedMap.ext_entries hitems)
  · next hsome =>
      cases h
      rw [Bool.not_eq_true, Option.isNone_eq_false_iff] at hsome
      obtain ⟨id, hid⟩ := Option.isSome_iff_exists.1 hsome
      exact .known hid

theorem terminalEvents_ok {events : List Json} {maximum : Nat}
    (h : self.terminalEvents response maximum = .ok events)
    (houtput : response.lookup "output" = .array output) : ∃ created blocks type,
      events = created ++ blocks.flatten ++ [Progress.terminalEvent type response] ∧
      Completion self response output created blocks type := by
  simp only [Progress.terminalEvents, bind_ok, lift_ok, okOr_ok, Json.asArray_eq_some, rejectIf_ok,
    pure_ok] at h
  obtain ⟨_, hfinish, created, hcreated, output', houtput', blocks, hblocks, type, htype, _, -,
    rfl⟩ := h
  cases houtput.symm.trans houtput'
  obtain ⟨hlength, hall⟩ := mapM_zipIdx_ok hblocks
  exact ⟨created, blocks, type, rfl, hfinish, createdEvent_ok hcreated, htype, hlength,
    fun k item block hitem hblock => itemEvents_ok (hall k item block hitem hblock)⟩

end Completing

end ResponseGateway.Codecs
