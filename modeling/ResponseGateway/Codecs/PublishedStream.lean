import ResponseGateway.Codecs.TerminalEvents

/-!
The stream of a provider plugin: progress that was observed, then the events that the
host writes. Progress announces items in the order of their indices, so the items that
are announced later come after them, and for every index the two parts fit together.
-/

namespace ResponseGateway.Codecs
open Checked Ir Adapters
open Json (ofFields)

section Streams

/-- The events of a part, in their order. -/
def PartStream (reasoning : Bool) (id : String) (index partIndex : Nat) (part : Json)
    (events : List Json) : Prop :=
  ∃ first deltas, events = first :: (deltas ++ partClosing reasoning id index partIndex part) ∧
    PartOpening reasoning (part.fieldStr "text") first deltas

/-- The events between the announcement of an item and its end. -/
structure ContentStream (id kind : String) (index : Nat) (item : Json) (events : List Json) :
    Prop where
  named : ∀ e ∈ events, names e id = true
  tool : isToolType kind = true → ∃ deltas,
    events = deltas ++ [argumentsDone (kind = "custom_tool_call") id index item] ∧
    (∀ d ∈ deltas, typeOf d = some (argumentsPrefix (kind = "custom_tool_call") ++ ".delta")) ∧
    item.fieldStr (argumentsKey (kind = "custom_tool_call")) = some (textOf deltas)
  parts : isToolType kind = false → ∃ parts, item.lookup (partsKey (kind = "reasoning")) = .array parts ∧
    (∀ e ∈ events, ∃ j < parts.length, atPart e (kind = "reasoning") j = true) ∧
    ∀ (j : Nat) part, parts[j]? = some part → PartStream (kind = "reasoning") id index j part
      (events.filter (atPart · (kind = "reasoning") j))

/-- The events that carry the index of an item. -/
structure ItemStream (index : Nat) (item : Json) (events : List Json) : Prop where
  content : ∃ id kind first middle, item.fieldStr "id" = some id ∧
    item.fieldStr "type" = some kind ∧ events = first :: (middle ++ [itemDone index item]) ∧
    isAdded first = true ∧ announced first "id" = some id ∧ announced first "type" = some kind ∧
    ContentStream id kind index item middle

/-- A whole stream of events for a response. -/
structure StreamOf (events : List Json) (response : Json) (output : List Json) : Prop where
  created : ∃ first rest, events = first :: rest ∧ isCreated first = true ∧
    ∀ e ∈ rest, isCreated e = false
  added : (events.filter isAdded).map (·.field "output_index") =
    (List.range output.length).map fun k => some (.number (.ofNat k))
  done : events.filter isDone = output.mapIdx itemDone
  item : ∀ (k : Nat) item, output[k]? = some item → ItemStream k item (events.filter (atIndex · k))
  terminal : ∃ before type, events = before ++ [Progress.terminalEvent type response] ∧
    Progress.terminalType response = .ok type ∧ ∀ e ∈ before, isTerminal e = false
  whole : ∀ e ∈ events, isCreated e = true ∨ isTerminal e = true ∨
    ∃ k < output.length, atIndex e k = true

end Streams

section Provided

/-- Progress of a provider. -/
structure Provided (events : List Json) (progress : Progress) : Prop where
  tracked : Tracked events progress
  opening : events = [] ∧ progress = { Progress.default with bytes := progress.bytes } ∨
    progress.created.isSome = true ∧ ∃ first rest, events = first :: rest ∧
      isCreated first = true ∧ ∀ e ∈ rest, isCreated e = false
  order : (events.filter isAdded).map (·.field "output_index") =
    (List.range progress.items.size).map fun k => some (.number (.ofNat k))
  places : ∀ k, k < progress.items.size ↔
    ∃ id item, progress.items.get id = some item ∧ item.index = k

variable {self self' : Progress} {events : List Json} {event : Json} {maximum : Nat}

theorem provided_default : Provided [] Progress.default where
  tracked := tracked_default
  opening := .inl ⟨rfl, rfl⟩
  order := rfl
  places := by simp [Progress.default]

theorem observeProviderEvent_ok
    (h : Progress.observeProviderEvent maximum self event = .ok self') :
    Observes self event self' ∧
      (typeOf event ≠ some "response.created" → self.created.isSome = true) ∧
      (typeOf event = some "response.output_item.added" →
        event.field "output_index" = some (.number (.ofNat self.items.size))) := by
  simp only [Progress.observeProviderEvent, bind_ok, rejectIf_ok, Bool.and_eq_false_iff,
    decide_eq_false_iff_not, ne_eq, not_not, lookup_string, Option.isNone_eq_false_iff] at h
  obtain ⟨_, hcreated, _, hindex, h⟩ := h
  rw [Progress.observe, List.foldlM_cons] at h
  obtain ⟨next, hnext, h⟩ := bind_ok.1 h
  cases h
  exact ⟨observeEvent_ok hnext, fun htype => hcreated.resolve_left htype,
    fun htype => field_of_asU64 (hindex.resolve_left (not_not_intro htype))⟩

theorem Provided.opened (h : Provided events self) (hsome : self.created.isSome = true)
    (hevent : isCreated event = false) : ∃ first rest, events ++ [event] = first :: rest ∧
      isCreated first = true ∧ ∀ e ∈ rest, isCreated e = false := by
  rcases h.opening with ⟨-, heq⟩ | ⟨-, first, rest, rfl, hfirst, hrest⟩
  · rw [heq] at hsome
    cases hsome
  · refine ⟨first, rest ++ [event], rfl, hfirst, fun e he => ?_⟩
    rcases List.mem_append.1 he with he | he
    · exact hrest e he
    · rw [List.mem_singleton.1 he]
      exact hevent

/-- An event about a part leaves the announced items as they are. -/
theorem Provided.content_step (h : Provided events self) {bytes : Nat} {id type : String}
    {item : Item} {parts : List String} (hmem : type ∈ partTypes) (htype : typeOf event = some type)
    (found : self.items.get id = some item) (hsome : self.created.isSome = true)
    (tracked : Tracked (events ++ [event])
      { self with bytes, items := self.items.insert id { item with parts } }) :
    Provided (events ++ [event])
      { self with bytes, items := self.items.insert id { item with parts } } := by
  obtain ⟨hcreated, hadded, -⟩ := content_other (List.mem_append_right _ hmem) htype
  have hsize := OrderedMap.size_insert_old { item with parts } found
  refine ⟨tracked, .inr ⟨hsome, h.opened hsome hcreated⟩, ?_, fun k => ?_⟩
  · rw [List.filter_append, List.filter_cons_of_neg (by simp [hadded]), List.filter_nil,
      List.append_nil, h.order, hsize]
  · rw [hsize, h.places]
    constructor
    · rintro ⟨other, known, hknown, hindex⟩
      by_cases heq : id = other
      · subst heq
        cases found.symm.trans hknown
        exact ⟨id, _, OrderedMap.get_insert_self _ _ _, hindex⟩
      · exact ⟨other, known, by rw [OrderedMap.get_insert_of_ne _ _ heq, hknown], hindex⟩
    · rintro ⟨other, known, hknown, hindex⟩
      rw [OrderedMap.get_insert] at hknown
      split at hknown
      · cases hknown
        exact ⟨id, item, found, hindex⟩
      · exact ⟨other, known, hknown, hindex⟩

theorem Provided.step (h : Provided events self)
    (hstep : Progress.observeProviderEvent maximum self event = .ok self') :
    Provided (events ++ [event]) self' := by
  obtain ⟨hobserves, hguard, hnext⟩ := observeProviderEvent_ok hstep
  have htracked := h.tracked.step hobserves
  cases hobserves with
  | created type first none =>
      have hempty : events = [] := by
        rcases h.opening with ⟨hempty, -⟩ | ⟨hsome, -⟩
        · exact hempty
        · rw [first] at hsome
          cases hsome
      subst hempty
      refine ⟨htracked, .inr ⟨rfl, event, [], rfl, by simp [isCreated, type], by simp⟩, ?_, ?_⟩
      · rw [none, List.nil_append, List.filter_cons_of_neg (by simp [isAdded, type])]
        rfl
      · rw [none]
        simp
  | @added bytes index id kind type known noName carries hasId hasKind later fresh =>
      have hsome := hguard (by rw [type]; decide)
      have hindex : index = self.items.size := ofNat_field_inj (carries.symm.trans (hnext type))
      subst hindex
      have hsize := OrderedMap.size_insert_new
        { kind, index := self.items.size, parts := [] : Item } fresh
      refine ⟨htracked, .inr ⟨hsome, h.opened hsome (by simp [isCreated, type])⟩, ?_, fun k => ?_⟩
      · rw [List.filter_append, List.filter_cons_of_pos (by simp [isAdded, type]), List.filter_nil,
          List.map_append, h.order, hsize, List.range_succ, List.map_append, List.map_singleton,
          List.map_singleton, carries]
      · rw [hsize, Nat.lt_succ_iff_lt_or_eq, h.places]
        constructor
        · rintro (⟨other, item, hitem, hindex⟩ | heq)
          · exact ⟨other, item, OrderedMap.get_insert_of_some fresh hitem, hindex⟩
          · exact ⟨id, _, OrderedMap.get_insert_self _ _ _, heq.symm⟩
        · rintro ⟨other, item, hitem, hindex⟩
          rw [OrderedMap.get_insert] at hitem
          split at hitem
          · cases hitem
            exact .inr hindex.symm
          · exact .inl ⟨other, item, hitem, hindex⟩
  | @partAdded bytes id item reasoning type found =>
      have hmem := (partPrefix_mem reasoning).1
      refine h.content_step hmem type found (hguard fun hc => ?_) htracked
      rw [type, Option.some.injEq] at hc
      exact (PartType.ne ⟨reasoning, .inl rfl⟩).1 hc
  | @textDelta bytes index id text item reasoning type found =>
      have hmem := (partPrefix_mem reasoning).2.2.1
      refine h.content_step hmem type found (hguard fun hc => ?_) htracked
      rw [type, Option.some.injEq] at hc
      exact (PartType.ne ⟨reasoning, .inr rfl⟩).1 hc

/-- Everything a provider published. -/
theorem provided_observe {progress : Progress}
    (h : Progress.default.observeProvider events maximum = .ok progress) :
    Provided events progress := by
  refine foldlM_rule (P := Provided) h provided_default ?_
  intro done event rest s s' _ hP hstep
  exact hP.step hstep

end Provided

section Blocks

variable {α β : Type}

theorem flatten_selected {p : α → Bool} {f : α → β} {l : List α} :
    (l.map fun a => if p a then [f a] else []).flatten = (l.filter p).map f := by
  induction l with
  | nil => rfl
  | cons a l ih =>
      rw [List.map_cons, List.flatten_cons, ih, List.filter_cons]
      split <;> rfl

/-- The places below a number and those from it on. -/
theorem range_split {m n : Nat} (h : n ≤ m) :
    List.range n ++ (List.range m).filter (fun k => decide (n ≤ k)) = List.range m := by
  obtain ⟨d, rfl⟩ := Nat.exists_eq_add_of_le h
  have hlow : (List.range n).filter (fun k => decide (n ≤ k)) = [] :=
    List.filter_eq_nil_iff.2 fun k hk => by simpa using List.mem_range.1 hk
  have hhigh : ((List.range d).map (n + ·)).filter (fun k => decide (n ≤ k)) =
      (List.range d).map (n + ·) :=
    List.filter_eq_self.2 fun k hk => by
      obtain ⟨j, -, rfl⟩ := List.mem_map.1 hk
      simp
  rw [List.range_add, List.filter_append, hlow, hhigh, List.nil_append]

end Blocks

section Completing

variable {progress : Progress} {events created output : List Json} {blocks : List (List Json)}
  {response : Json} {type : String}

theorem Completion.block_of (h : Completion progress response output created blocks type) {k : Nat}
    {item : Json} (hitem : output[k]? = some item) : ∃ id kind added content,
      blocks[k]? = some (added ++ content ++ [itemDone k item]) ∧
      ItemBlock progress k item id kind added content := by
  have hlt : k < blocks.length := h.length ▸ (List.getElem?_eq_some_iff.1 hitem).1
  have hget := List.getElem?_eq_getElem hlt
  obtain ⟨id, kind, added, content, heq, hblock⟩ := h.block k item _ hitem hget
  exact ⟨id, kind, added, content, hget.trans (congrArg some heq), hblock⟩

/-- An item that was announced stands at its index. -/
theorem Completion.place (h : Completion progress response output created blocks type)
    (houtput : response.lookup "output" = .array output) {id : String} {known : Item}
    (hknown : progress.items.get id = some known) :
    ∃ final, output[known.index]? = some final ∧ FinalItem output id known final := by
  obtain ⟨-, output', houtput', hfinal⟩ := finish_ok h.finished
  cases houtput.symm.trans houtput'
  obtain ⟨final, hfinal⟩ := hfinal id known hknown
  obtain ⟨i, hi⟩ := hfinal.found
  obtain ⟨id', kind, added, content, -, hblock⟩ := h.block_of hi
  cases hblock.hasId.symm.trans hfinal.hasId
  rw [hblock.place known hknown]
  exact ⟨final, hi, hfinal⟩

/-- The announced items are those below their number. -/
theorem Completion.known_iff (h : Completion progress response output created blocks type)
    (houtput : response.lookup "output" = .array output) (hP : Provided events progress) {k : Nat}
    {item : Json} (hitem : output[k]? = some item) {id kind : String} {added content : List Json}
    (hblock : ItemBlock progress k item id kind added content) :
    progress.items.get id = none ↔ progress.items.size ≤ k := by
  rw [← Nat.not_lt, hP.places]
  constructor
  · rintro hnone ⟨other, known, hknown, rfl⟩
    obtain ⟨final, hfound, hfinal⟩ := h.place houtput hknown
    cases hitem.symm.trans hfound
    cases hblock.hasId.symm.trans hfinal.hasId
    rw [hknown] at hnone
    cases hnone
  · intro hnone
    cases hget : progress.items.get id with
    | none => rfl
    | some known => exact absurd ⟨id, known, hget, hblock.place known hget⟩ hnone

theorem Completion.size_le (h : Completion progress response output created blocks type)
    (houtput : response.lookup "output" = .array output) (hP : Provided events progress) :
    progress.items.size ≤ output.length := by
  refine Nat.le_of_not_lt fun hlt => ?_
  obtain ⟨id, known, hknown, hindex⟩ := (hP.places output.length).1 hlt
  obtain ⟨final, hfound, -⟩ := h.place houtput hknown
  exact absurd (List.getElem?_eq_some_iff.1 hfound).1 (by rw [hindex]; exact lt_irrefl _)

/-- The announcements that are still missing. -/
theorem Completion.added (h : Completion progress response output created blocks type)
    (houtput : response.lookup "output" = .array output) (hP : Provided events progress) :
    (blocks.flatten.filter isAdded).map (·.field "output_index") =
      ((List.range output.length).filter fun k => decide (progress.items.size ≤ k)).map
        fun k => some (.number (.ofNat k)) := by
  rw [List.filter_flatten, List.map_flatten, List.map_map, ← flatten_selected]
  congr 1
  refine List.ext_getElem? fun k => ?_
  rw [List.getElem?_map, List.getElem?_map]
  cases hitem : output[k]? with
  | none =>
      rw [List.getElem?_eq_none_iff] at hitem
      rw [List.getElem?_eq_none (h.length ▸ hitem), List.getElem?_eq_none (by simpa using hitem)]
      rfl
  | some item =>
      obtain ⟨id, kind, added, content, hget, hblock⟩ := h.block_of hitem
      have hrange : (List.range output.length)[k]? = some k :=
        List.getElem?_range (List.getElem?_eq_some_iff.1 hitem).1
      have hknown := h.known_iff houtput hP hitem hblock
      rw [hget, hrange, Option.map_some, Option.map_some, Function.comp_apply,
        hblock.families.1, Option.some.injEq]
      cases hblock.announces with
      | known found =>
          rw [if_neg (by rw [decide_eq_true_eq, ← hknown, found]; simp)]
          rfl
      | new missing =>
          rw [if_pos (by rw [decide_eq_true_eq, ← hknown, missing])]
          simp [itemAdded]

theorem Completion.done (h : Completion progress response output created blocks type) :
    blocks.flatten.filter isDone = output.mapIdx itemDone := by
  have hblocks : blocks.map (List.filter isDone) =
      (output.mapIdx itemDone).map fun e => [e] := by
    refine List.ext_getElem? fun k => ?_
    rw [List.getElem?_map, List.getElem?_map, List.getElem?_mapIdx]
    cases hitem : output[k]? with
    | none =>
        rw [List.getElem?_eq_none_iff] at hitem
        rw [List.getElem?_eq_none (h.length ▸ hitem)]
        rfl
    | some item =>
        obtain ⟨id, kind, added, content, hget, hblock⟩ := h.block_of hitem
        rw [hget, Option.map_some, hblock.families.2]
        rfl
  rw [List.filter_flatten, hblocks, ← List.flatMap_def, List.flatMap_singleton']

/-- The events about one part, once it is completed. -/
theorem PartBlock.stream {reasoning : Bool} {id : String} {index j : Nat} {observed : Option Item}
    {part : Json} {block before : List Json}
    (h : PartBlock reasoning id index observed j part block)
    (known : ∀ item, observed = some item → j < item.parts.length →
      ∃ first deltas, before = first :: deltas ∧
        PartOpening reasoning (part.fieldStr "text") first deltas)
    (missing : (∀ item, observed = some item → item.parts.length ≤ j) → before = []) :
    PartStream reasoning id index j part (before ++ block) := by
  by_cases hmissing : ∀ item, observed = some item → item.parts.length ≤ j
  · obtain ⟨first, deltas, rfl, hopening⟩ := h.missing hmissing
    rw [missing hmissing, List.nil_append]
    exact ⟨first, deltas, rfl, hopening⟩
  · simp only [not_forall, Nat.not_le] at hmissing
    obtain ⟨item, hitem, hlt⟩ := hmissing
    obtain ⟨first, deltas, rfl, hopening⟩ := known item hitem hlt
    rw [h.known item hitem hlt]
    exact ⟨first, deltas, rfl, hopening⟩

theorem PartsBlock.filter_part {observed : Option Item} {reasoning : Bool} {id : String}
    {index : Nat} {parts content : List Json} (h : PartsBlock observed reasoning id index parts content)
    {j : Nat} {part : Json} (hpart : parts[j]? = some part) :
    PartBlock reasoning id index observed j part (content.filter (atPart · reasoning j)) := by
  obtain ⟨blocks, rfl, hlength, hall⟩ := h
  have hlt : j < blocks.length := hlength ▸ (List.getElem?_eq_some_iff.1 hpart).1
  have hget := List.getElem?_eq_getElem hlt
  rw [filter_flatten_block (p := fun k e => atPart e reasoning k) (fun i block hi e he k => ?_) hget]
  · exact hall j part _ hpart hget
  · have hi' : i < parts.length := hlength ▸ (List.getElem?_eq_some_iff.1 hi).1
    exact atPart_of ((hall i _ block (List.getElem?_eq_getElem hi') hi).content e he).atPart

theorem TrackedItem.no_part {id : String} {known : Item} (h : TrackedItem events id known) {j : Nat}
    (hj : known.parts.length ≤ j) :
    (events.filter (names · id)).filter (atPart · known.reasoning j) = [] := by
  refine List.filter_eq_nil_iff.2 fun e he hat => ?_
  obtain ⟨he, hname⟩ := List.mem_filter.1 he
  obtain ⟨i, hi, hat'⟩ := h.inParts e he hname
  rw [atPart, decide_eq_true_eq] at hat hat'
  exact absurd (ofNat_field_inj (hat'.symm.trans hat)) (by omega)

/-- The content of an item whose first events were published before. -/
theorem TrackedItem.content {id kind : String} {known : Item} {index : Nat} {item : Json}
    {added content : List Json} (h : TrackedItem events id known)
    (hfinal : FinalItem output id known item) (found : progress.items.get id = some known)
    (hblock : ItemBlock progress index item id kind added content) :
    kind = known.kind ∧
      ContentStream id kind index item (events.filter (names · id) ++ content) := by
  cases hblock.hasKind.symm.trans hfinal.hasKind
  have htool : isToolType known.kind = false := by
    rcases h.known with hkind | hkind <;> rw [hkind] <;> decide
  obtain ⟨parts, hparts, hcontent⟩ := hblock.parts htool
  obtain ⟨parts', hparts', htexts⟩ := hfinal.parts
  cases hparts.symm.trans hparts'
  refine ⟨rfl, fun e he => ?_, fun hnot => ?_, fun _ => ⟨parts, hparts, fun e he => ?_,
    fun j part hpart => ?_⟩⟩
  · rcases List.mem_append.1 he with he | he
    · exact (List.mem_filter.1 he).2
    · exact decide_eq_true (hcontent.content he).1.named
  · rw [htool] at hnot
    cases hnot
  · rcases List.mem_append.1 he with he | he
    · obtain ⟨he, hname⟩ := List.mem_filter.1 he
      obtain ⟨j, hj, hat⟩ := h.inParts e he hname
      obtain ⟨part, hpart, -⟩ := htexts j _ (List.getElem?_eq_getElem hj)
      exact ⟨j, (List.getElem?_eq_some_iff.1 hpart).1, hat⟩
    · obtain ⟨-, j, hj, hat⟩ := hcontent.content he
      exact ⟨j, hj, decide_eq_true hat⟩
  · rw [List.filter_append]
    refine (hcontent.filter_part hpart).stream (fun known' hknown' hj => ?_) fun hmissing => ?_
    · cases found.symm.trans hknown'
      obtain ⟨first, deltas, hfilter, hfirst, hdeltas, htext⟩ :=
        h.part j _ (List.getElem?_eq_getElem hj)
      obtain ⟨part', hpart', hsame⟩ := htexts j _ (List.getElem?_eq_getElem hj)
      cases hpart.symm.trans hpart'
      refine ⟨first, deltas, ?_, hfirst, hdeltas, by rw [hsame, htext]⟩
      rw [List.filter_filter, ← hfilter]
      exact List.filter_congr fun e _ => Bool.and_comm _ _
    · exact h.no_part (hmissing known found)

/-- The content of an item of which nothing was published. -/
theorem ItemBlock.content_new {id kind : String} {index : Nat} {item : Json}
    {added content : List Json} (h : ItemBlock progress index item id kind added content)
    (missing : progress.items.get id = none) : ContentStream id kind index item content where
  named := fun e he => decide_eq_true (h.content_event he).named
  tool := fun htool => (h.tool htool).deltas
  parts := by
    intro htool
    obtain ⟨parts, hparts, hcontent⟩ := h.parts htool
    refine ⟨parts, hparts, fun e he => ?_, fun j part hpart => ?_⟩
    · obtain ⟨-, j, hj, hat⟩ := hcontent.content he
      exact ⟨j, hj, decide_eq_true hat⟩
    · exact @PartBlock.stream _ _ _ _ _ _ _ [] (hcontent.filter_part hpart)
        (fun known hknown => by rw [missing] at hknown; cases hknown) fun _ => rfl

theorem Completion.item (h : Completion progress response output created blocks type)
    (houtput : response.lookup "output" = .array output) (hP : Provided events progress) {k : Nat}
    {item : Json} (hitem : output[k]? = some item) :
    ItemStream k item (events.filter (atIndex · k) ++ blocks.flatten.filter (atIndex · k)) := by
  obtain ⟨id, kind, added, content, hget, hblock⟩ := h.block_of hitem
  have hselect : blocks.flatten.filter (atIndex · k) = added ++ content ++ [itemDone k item] := by
    refine filter_flatten_block (p := fun k e => atIndex e k) (fun i block hi e he k => ?_) hget
    have hi' : i < output.length := h.length ▸ (List.getElem?_eq_some_iff.1 hi).1
    obtain ⟨_, _, _, _, rfl, hblock⟩ := h.block i _ block (List.getElem?_eq_getElem hi') hi
    exact atIndex_of (hblock.event he).1
  rw [hselect]
  cases hblock.announces with
  | @known known found =>
      obtain ⟨final, hfound, hfinal⟩ := h.place houtput found
      cases hblock.place known found
      cases hitem.symm.trans hfound
      have htracked := hP.tracked.item id known found
      obtain ⟨first, hfirst, htype, hid, hkind⟩ := htracked.started
      obtain ⟨rfl, hcontent⟩ := htracked.content hfinal found hblock
      refine ⟨id, _, first, _, hblock.hasId, hblock.hasKind, ?_, decide_eq_true htype, hid, hkind,
        hcontent⟩
      rw [hfirst]
      simp
  | @new value missing last hid hkind =>
      have hnone : events.filter (atIndex · k) = [] := by
        refine List.filter_eq_nil_iff.2 fun e he hat => ?_
        obtain ⟨other, known, hknown, rfl⟩ := (hP.tracked.known e he).index_of_mem hat
        obtain ⟨final, hfound, hfinal⟩ := h.place houtput hknown
        cases hitem.symm.trans hfound
        cases hblock.hasId.symm.trans hfinal.hasId
        rw [hknown] at missing
        cases missing
      refine ⟨id, kind, itemAdded k value, content, hblock.hasId, hblock.hasKind, ?_,
        isAdded_itemAdded value, ?_, ?_, hblock.content_new missing⟩
      · rw [hnone]
        simp
      · rw [announced, @Json.lookup_of_field _ value _ (by simp [itemAdded]), hid]
      · rw [announced, @Json.lookup_of_field _ value _ (by simp [itemAdded]), hkind]

end Completing

section Whole

variable {progress : Progress} {events created output : List Json} {blocks : List (List Json)}
  {response event : Json} {type : String}

theorem PartType.mem (h : PartType type) : type ∈ partTypes := by
  obtain ⟨reasoning, rfl | rfl⟩ := h
  · exact (partPrefix_mem reasoning).1
  · exact (partPrefix_mem reasoning).2.2.1

/-- Progress ends nothing. -/
theorem Known.not_last (h : Known progress event) :
    isDone event = false ∧ isTerminal event = false := by
  cases h with
  | created type => simp [isDone, isTerminal, type]
  | added type => simp [isDone, isTerminal, type]
  | @part id item type =>
      obtain ⟨type', heq, hpart⟩ : ∃ type', typeOf event = some type' ∧ PartType type' := by
        rcases type with htype | htype
        · exact ⟨_, htype, _, .inl rfl⟩
        · exact ⟨_, htype, _, .inr rfl⟩
      have hmem := List.mem_append_right toolTypes hpart.mem
      exact ⟨(content_other hmem heq).2.2, content_not_terminal hmem heq⟩

/-- Progress says nothing about tools. -/
theorem Tracked.no_tool (h : Tracked events progress) : ∀ e ∈ events, isToolEvent e = false := by
  have hparts : ∀ type ∈ partTypes, toolTypes.contains type = false := by decide
  intro e he
  cases hadded : isAdded e with
  | true =>
      obtain ⟨id, item, hitem, -, hkind, -⟩ := h.announced_item he hadded
      have htool : isToolType item.kind = false := by
        rcases (h.item id item hitem).known with hkind | hkind <;> rw [hkind] <;> decide
      have htype : typeOf e = some "response.output_item.added" := of_decide_eq_true hadded
      rw [isToolEvent, hkind, htype, Option.any_some, Option.any_some, htool, Bool.and_false,
        Bool.or_false]
      decide
  | false =>
      have hdone := ((h.known e he).not_last).1
      rw [isToolEvent, hadded, hdone, Bool.or_false, Bool.false_and, Bool.or_false]
      cases h.known e he with
      | created type =>
          rw [type]
          decide
      | added type =>
          rw [type]
          decide
      | part type =>
          rcases type with type | type <;> rw [type, Option.any_some]
          · exact hparts _ (PartType.mem ⟨_, .inl rfl⟩)
          · exact hparts _ (PartType.mem ⟨_, .inr rfl⟩)

theorem Opens.events_are (h : Opens progress created) : ∀ e ∈ created, isCreated e = true ∧
    isAdded e = false ∧ isDone e = false ∧ isTerminal e = false ∧
      e.field "output_index" = none := by
  intro e he
  cases h with
  | known => cases he
  | new =>
      rw [List.mem_singleton.1 he]
      simp [isCreated, isAdded, isDone, isTerminal, typeOf, Json.fieldStr, Json.asStr]

theorem terminalType_ok (h : Progress.terminalType response = .ok type) :
    type = "response.completed" ∨ type = "response.incomplete" := by
  unfold Progress.terminalType at h
  obtain ⟨status, -, h⟩ := bind_ok.1 h
  split at h
  · exact .inl (pure_ok.1 h).symm
  · exact .inr (pure_ok.1 h).symm
  · cases h

theorem terminalEvent_event (h : Progress.terminalType response = .ok type) :
    isCreated (Progress.terminalEvent type response) = false ∧
      isAdded (Progress.terminalEvent type response) = false ∧
      isDone (Progress.terminalEvent type response) = false ∧
      isTerminal (Progress.terminalEvent type response) = true ∧
      (Progress.terminalEvent type response).field "output_index" = none := by
  rcases terminalType_ok h with rfl | rfl <;>
    simp [Progress.terminalEvent, isCreated, isAdded, isDone, isTerminal, typeOf, Json.fieldStr,
      Json.asStr]

theorem Completion.events_are (h : Completion progress response output created blocks type) :
    ∀ e ∈ blocks.flatten, isCreated e = false ∧ isTerminal e = false ∧
      ∃ k < output.length, atIndex e k = true := by
  intro e he
  obtain ⟨block, hblock, he⟩ := List.mem_flatten.1 he
  obtain ⟨k, hk, hget⟩ := List.getElem_of_mem hblock
  have hk' : k < output.length := h.length ▸ hk
  obtain ⟨_, _, _, _, rfl, hitem⟩ :=
    h.block k _ block (List.getElem?_eq_getElem hk') (hget ▸ List.getElem?_eq_getElem hk)
  obtain ⟨hindex, hcreated, hterminal⟩ := hitem.event he
  exact ⟨hcreated, hterminal, k, hk', decide_eq_true hindex⟩

theorem filter_of_none {p : Json → Bool} {l : List Json} (h : ∀ e ∈ l, p e = false) :
    l.filter p = [] :=
  List.filter_eq_nil_iff.2 fun e he => by simp [h e he]

/-- A response is created once, by the progress or by the host. -/
theorem Completion.first (h : Completion progress response output created blocks type)
    (hP : Provided events progress) {tail : List Json} (htail : ∀ e ∈ tail, isCreated e = false) :
    ∃ first rest, events ++ (created ++ tail) = first :: rest ∧ isCreated first = true ∧
      ∀ e ∈ rest, isCreated e = false := by
  cases h.opens with
  | known hsome =>
      rcases hP.opening with ⟨-, heq⟩ | ⟨-, first, rest, rfl, hfirst, hrest⟩
      · rw [heq] at hsome
        cases hsome
      · refine ⟨first, rest ++ tail, rfl, hfirst, fun e he => ?_⟩
        rcases List.mem_append.1 he with he | he
        · exact hrest e he
        · exact htail e he
  | new hnone hitems =>
      rcases hP.opening with ⟨rfl, -⟩ | ⟨hsome, -⟩
      · exact ⟨_, tail, rfl, (h.opens.events_are _ (List.mem_singleton_self _)).1, htail⟩
      · rw [hnone] at hsome
        cases hsome

/-- Progress that a provider published and the events the host adds to it are one whole
stream for the response, and no tool is part of the progress. -/
theorem provider_stream {maximum limit : Nat} {added : List Json}
    (hobserve : Progress.default.observeProvider events maximum = .ok progress)
    (hterminal : progress.terminalEvents response limit = .ok added) :
    (∃ output, response.lookup "output" = .array output ∧
      StreamOf (events ++ added) response output) ∧ ∀ e ∈ events, isToolEvent e = false := by
  have hP := provided_observe hobserve
  refine ⟨?_, hP.tracked.no_tool⟩
  obtain ⟨-, output, houtput, -⟩ := finish_ok (u := ()) (by
    obtain ⟨_, hfinish, -⟩ := bind_ok.1 hterminal
    exact lift_ok.1 hfinish)
  refine ⟨output, houtput, ?_⟩
  obtain ⟨created, blocks, type, rfl, hC⟩ := terminalEvents_ok hterminal houtput
  obtain ⟨hlastCreated, hlastAdded, hlastDone, hlast, hlastIndex⟩ := terminalEvent_event hC.terminal
  have hopens := hC.opens.events_are
  have hblocks := hC.events_are
  have hprogress := fun e he => (hP.tracked.known e he).not_last
  refine { created := ?_, added := ?_, done := ?_, item := fun k item hitem => ?_, terminal := ?_,
           whole := fun e he => ?_ }
  · rw [List.append_assoc created]
    refine hC.first hP fun e he => ?_
    rcases List.mem_append.1 he with he | he
    · exact (hblocks e he).1
    · rw [List.mem_singleton.1 he]
      exact hlastCreated
  · rw [List.filter_append, List.filter_append, List.filter_append,
      filter_of_none fun e he => (hopens e he).2.1, List.filter_cons_of_neg (by simp [hlastAdded]),
      List.filter_nil, List.nil_append, List.append_nil, List.map_append, hP.order,
      hC.added houtput hP, ← List.map_append, range_split (hC.size_le houtput hP)]
  · rw [List.filter_append, List.filter_append, List.filter_append,
      filter_of_none fun e he => (hprogress e he).1,
      filter_of_none fun e he => (hopens e he).2.2.1, List.filter_cons_of_neg (by simp [hlastDone]),
      List.filter_nil, List.nil_append, List.nil_append, List.append_nil, hC.done]
  · rw [List.filter_append, List.filter_append, List.filter_append,
      filter_of_none fun e he => not_atIndex (hopens e he).2.2.2.2,
      List.filter_cons_of_neg (by simp [not_atIndex hlastIndex]), List.filter_nil, List.nil_append,
      List.append_nil]
    exact hC.item houtput hP hitem
  · refine ⟨events ++ (created ++ blocks.flatten), type, by simp, hC.terminal, fun e he => ?_⟩
    simp only [List.mem_append] at he
    rcases he with he | he | he
    · exact (hprogress e he).2
    · exact (hopens e he).2.2.2.1
    · exact (hblocks e he).2.1
  · simp only [List.mem_append, List.mem_singleton] at he
    rcases he with he | (he | he) | rfl
    · rcases hP.tracked.known e he with
        ⟨type⟩ | ⟨-, found, -, -, carries⟩ | ⟨-, found, -, carries⟩
      · exact .inl (decide_eq_true type)
      · obtain ⟨final, hfound, -⟩ := hC.place houtput found
        exact .inr (.inr ⟨_, (List.getElem?_eq_some_iff.1 hfound).1, decide_eq_true carries⟩)
      · obtain ⟨final, hfound, -⟩ := hC.place houtput found
        exact .inr (.inr ⟨_, (List.getElem?_eq_some_iff.1 hfound).1, decide_eq_true carries⟩)
    · exact .inl (hopens e he).1
    · exact .inr (.inr (hblocks e he).2.2)
    · exact .inr (.inl hlast)

/-- A response with a message, of which a part is published, and a tool call. -/
def answered : Json :=
  ofFields [("id", .string "r"), ("status", .string "completed"),
    ("output", .array [message "m" ["shown"],
      ofFields [("id", .string "f"), ("type", .string "function_call"),
        ("arguments", .string "{}")]])]

def answering : List Json :=
  ofFields [("type", .string "response.created"), ("response", ofFields [("id", .string "r")])] ::
    shown.flatten

theorem provider_stream_answered : ∃ progress added,
    Progress.default.observeProvider answering 4096 = .ok progress ∧
    progress.terminalEvents answered 4096 = .ok added ∧
    (∃ output, answered.lookup "output" = .array output ∧
      StreamOf (answering ++ added) answered output) ∧
    ∀ e ∈ answering, isToolEvent e = false := by
  have hobserve : Progress.default.observeProvider answering 4096 =
      .ok { items := announcedAt 0 ["shown"], bytes := 422, created := some "r" } := by
    decide +kernel
  have hok : (Progress.terminalEvents
      { items := announcedAt 0 ["shown"], bytes := 422, created := some "r" } answered 4096).isOk =
      true := by
    unfold Progress.terminalEvents renderText
    -- sizes are counted over characters
    simp only [utf8ByteSize_ofList]
    decide +kernel
  cases hadded : Progress.terminalEvents
      { items := announcedAt 0 ["shown"], bytes := 422, created := some "r" } answered 4096 with
  | ok added => exact ⟨_, added, hobserve, hadded, provider_stream hobserve hadded⟩
  | error fault =>
      rw [hadded] at hok
      cases hok

end Whole

end ResponseGateway.Codecs
