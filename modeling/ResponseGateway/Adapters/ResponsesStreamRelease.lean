import ResponseGateway.Adapters.ResponsesStreamSteps

/-!
What the terminal event of a Responses stream releases. The output of the response is the
list of the recorded items; each tool of the restored output is emitted as a block of
events, in the order of the output, and the terminal event comes after them.
-/

namespace ResponseGateway.Adapters
open Checked Ir Request Method
open Json (ofFields)

namespace ResponsesStream

variable {texts : Texts} {s s' : ResponsesStream} {value : Json} {events : List Json}

section Releasing

variable {item : Json} {n : Nat} {id : String}

/-- What is released of a tool: its arguments and the tool as a whole. -/
structure ToolContent (n : Nat) (id : String) (item : Json) (deltas : List Json)
    (argumentsDone done : Json) : Prop where
  eachDelta : ∀ e ∈ deltas, typeOf e = some (argumentsPrefix (isCustom item) ++ ".delta") ∧
    e.fieldStr "item_id" = some id ∧ e.field "output_index" = some (.number (.ofNat n))
  text : item.fieldStr (argumentsKey (isCustom item)) = some (textOf deltas)
  argumentsType : typeOf argumentsDone = some (argumentsPrefix (isCustom item) ++ ".done")
  named : argumentsDone.fieldStr "item_id" = some id
  argumentsIndex : argumentsDone.field "output_index" = some (.number (.ofNat n))
  doneType : isDone done = true
  doneIndex : done.field "output_index" = some (.number (.ofNat n))
  same : done.lookup "item" = item

/-- The events of a tool at the end of a stream. -/
structure ToolBlock (preserve : Bool) (n : Nat) (item : Json) (block : List Json) : Prop where
  content : ∃ id opening deltas argumentsDone done,
    block = opening ++ (deltas ++ [argumentsDone, done]) ∧ item.fieldStr "id" = some id ∧
    ToolAdded n id (!preserve) opening ∧ ToolContent n id item deltas argumentsDone done

theorem isTool_iff : isTool item = true ↔
    ∃ type, item.fieldStr "type" = some type ∧ isToolType type = true := by
  rw [isTool, Option.any_eq_true]

theorem announceLate_accepts (hid : item.fieldStr "id" = some id) (htool : isTool item = true)
    (h : announceLate item n s = (.ok events, s')) :
    Emits s.view events s'.view ∧ ToolAdded n id (!s.view.preserve) events := by
  simp only [announceLate, read_bind_accepts, check_bind_accepts] at h
  obtain ⟨middle, hmiddle, started, hstarted, h⟩ := h
  have hkey : argumentsKey (isCustom item) ≠ "id" ∧ argumentsKey (isCustom item) ≠ "type" := by
    cases isCustom item <;> decide
  have hkept : ∀ key, "status" ≠ key → argumentsKey (isCustom item) ≠ key →
      started.fieldStr key = item.fieldStr key := by
    intro key hstatus hother
    rw [Json.fieldStr, Json.field_setAt hstarted, if_neg hother, Json.field_setAt hmiddle,
      if_neg hstatus, Json.fieldStr]
  split at h
  · next hpreserve =>
      obtain ⟨event, s₁, hemit, h⟩ := bind_accepts.1 h
      rw [pure_accepts] at h
      obtain ⟨rfl, rfl⟩ := h
      obtain ⟨hemits, hstamp⟩ := Emits.one hemit
      have hitem : event.lookup "item" = started := lookup_emitted hstamp (by decide) (by simp)
      have hview : (!s.view.preserve) = true := hpreserve
      refine ⟨hemits, hview ▸ .now ?_ ?_ ?_ ?_⟩
      · rw [isAdded, typeOf, hstamp.fieldStr (by decide)]
        simp [Json.fieldStr, Json.asStr]
      · rw [hstamp.field (by decide)]
        simp
      · rw [announced, hitem, hkept "id" (by decide) hkey.1, hid]
      · rw [announced, hitem, hkept "type" (by decide) hkey.2]
        exact htool
  · next hpreserve =>
      rw [pure_accepts] at h
      obtain ⟨rfl, rfl⟩ := h
      have hview : (!s.view.preserve) = false := Bool.eq_false_iff.2 hpreserve
      exact ⟨Emits.nil _, hview ▸ .later⟩

/-- Events that are emitted for a list. -/
theorem emitAll_accepts {β : Type} {make : β → Json} {l : List β}
    (h : emitAll (fun b => emit (make b)) l s = (.ok events, s')) :
    Emits s.view events s'.view ∧ List.Forall₂ (fun b e => ∃ k, Stamped k (make b) e) l events := by
  induction l generalizing s events with
  | nil =>
      rw [emitAll, pure_accepts] at h
      obtain ⟨rfl, rfl⟩ := h
      exact ⟨Emits.nil _, .nil⟩
  | cons b rest ih =>
      rw [emitAll] at h
      obtain ⟨event, s₁, hemit, h⟩ := bind_accepts.1 h
      obtain ⟨events', s₂, hrest, h⟩ := bind_accepts.1 h
      rw [pure_accepts] at h
      obtain ⟨rfl, rfl⟩ := h
      obtain ⟨hemits, hstamp⟩ := Emits.one hemit
      obtain ⟨hmore, hevents⟩ := ih hrest
      exact ⟨hemits.append hmore, .cons ⟨_, hstamp⟩ hevents⟩

theorem textOf_stamped {β : Type} {make : β → Json} {l : List β}
    (h : List.Forall₂ (fun b e => ∃ k, Stamped k (make b) e) l events) :
    textOf events = textOf (l.map make) := by
  induction h with
  | nil => rfl
  | @cons b e rest events hstamp _ ih =>
      obtain ⟨k, hstamp⟩ := hstamp
      have hdelta : deltaOf e = deltaOf (make b) := by
        rw [deltaOf, deltaOf, hstamp.fieldStr (by decide)]
      rw [textOf, List.map_cons, String.join_cons, hdelta, ← textOf, ih, List.map_cons, textOf,
        textOf, List.map_cons, String.join_cons]

theorem stamped_of_mem {β : Type} {make : β → Json} {l : List β}
    (h : List.Forall₂ (fun b e => ∃ k, Stamped k (make b) e) l events) {event : Json}
    (hevent : event ∈ events) : ∃ b k, Stamped k (make b) event := by
  induction h with
  | nil => cases hevent
  | cons hstamp _ ih =>
      rcases List.mem_cons.1 hevent with rfl | hrest
      · exact ⟨_, hstamp⟩
      · exact ih hrest

theorem emitTool_accepts (hid : item.fieldStr "id" = some id) (htool : isTool item = true)
    (h : emitTool item n s = (.ok events, s')) :
    Emits s.view events s'.view ∧ ToolBlock s.view.preserve n item events := by
  rw [emitTool] at h
  obtain ⟨opening, s₁, hopening, h⟩ := bind_accepts.1 h
  simp only [ensure_bind_accepts, string_ok] at h
  obtain ⟨text, htext, h⟩ := h
  obtain ⟨deltas, s₂, hdeltas, h⟩ := bind_accepts.1 h
  obtain ⟨argumentsDone, s₃, hargs, h⟩ := bind_accepts.1 h
  obtain ⟨done, s₄, hdone, h⟩ := bind_accepts.1 h
  rw [pure_accepts] at h
  obtain ⟨rfl, rfl⟩ := h
  obtain ⟨hemits₁, hadded⟩ := announceLate_accepts hid htool hopening
  obtain ⟨hemits₂, hstamps⟩ := emitAll_accepts hdeltas
  obtain ⟨hemits₃, hargs⟩ := Emits.one hargs
  obtain ⟨hemits₄, hdone⟩ := Emits.one hdone
  have hlookup : item.lookup "id" = .string id := lookup_string.2 hid
  have hemits : Emits s.view (opening ++ deltas ++ [argumentsDone, done]) s₄.view :=
    (hemits₁.append hemits₂).append (hemits₃.append hemits₄)
  refine ⟨hemits, id, opening, deltas, argumentsDone, done, List.append_assoc _ _ _, hid, hadded, ?_⟩
  refine ⟨fun e he => ?_, ?_, ?_, ?_, ?_, ?_, ?_, ?_⟩
  · obtain ⟨chunk, k, hstamp⟩ := stamped_of_mem hstamps he
    rw [typeOf, hstamp.fieldStr (by decide), hstamp.fieldStr (by decide),
      hstamp.field (by decide), hlookup]
    simp [Json.fieldStr, Json.asStr]
  · rw [htext, textOf_stamped hstamps, textOf_chunks]
    intro chunk
    simp [deltaOf, Json.fieldStr, Json.asStr]
  · rw [typeOf, hargs.fieldStr (by decide)]
    simp [Json.fieldStr, Json.asStr]
  · rw [hargs.fieldStr (by decide), hlookup]
    simp [Json.fieldStr, Json.asStr]
  · rw [hargs.field (by decide)]
    simp
  · rw [isDone, typeOf, hdone.fieldStr (by decide)]
    simp [Json.fieldStr, Json.asStr]
  · rw [hdone.field (by decide)]
    simp
  · exact lookup_emitted hdone (by decide) (by simp)

end Releasing

section Terminating

/-- What is released of an item when the stream ends. -/
inductive Released (preserve : Bool) (n : Nat) (item : Json) : List Json → Prop where
  | tool {block : List Json} (tool : isTool item = true)
      (content : ToolBlock preserve n item block) : Released preserve n item block
  | text (text : isTool item = false) : Released preserve n item []

/-- The blocks of the items from a place on. -/
structure Blocks (preserve : Bool) (n : Nat) (items : List Json) (blocks : List (List Json)) :
    Prop where
  length : blocks.length = items.length
  block : ∀ (k : Nat) item block, items[k]? = some item → blocks[k]? = some block →
    Released preserve (n + k) item block

theorem Blocks.cons {preserve : Bool} {n : Nat} {item : Json} {items : List Json}
    {block : List Json} {blocks : List (List Json)} (h : Released preserve n item block)
    (hrest : Blocks preserve (n + 1) items blocks) :
    Blocks preserve n (item :: items) (block :: blocks) where
  length := by rw [List.length_cons, List.length_cons, hrest.length]
  block := by
    intro k item' block' hitem hblock
    cases k with
    | zero =>
        cases hitem
        cases hblock
        exact h
    | succ k =>
        rw [← Nat.add_assoc, Nat.add_right_comm]
        exact hrest.block k item' block' hitem hblock

theorem emitTools_cons {n : Nat} {id : String} {item : Json} {rest : List Json}
    (hid : item.fieldStr "id" = some id)
    (h : emitTools texts n (item :: rest) s = (.ok events, s')) : ∃ block s₁ more,
      Emits s.view block s₁.view ∧ Released s.view.preserve n item block ∧
        emitTools texts (n + 1) rest s₁ = (.ok more, s') ∧ events = block ++ more := by
  rw [emitTools] at h
  split at h
  · next htool =>
      obtain ⟨_, s₁, hvalidate, h⟩ := bind_accepts.1 h
      obtain ⟨validator, -, rfl⟩ := zoom_accepts.1 hvalidate
      obtain ⟨block, s₂, hblock, h⟩ := bind_accepts.1 h
      obtain ⟨more, s₃, hmore, h⟩ := bind_accepts.1 h
      rw [pure_accepts] at h
      obtain ⟨rfl, rfl⟩ := h
      obtain ⟨hemits, hcontent⟩ := emitTool_accepts hid htool hblock
      exact ⟨block, s₂, more, hemits, .tool htool hcontent, hmore, rfl⟩
  · next htool =>
      obtain ⟨block, s₁, hblock, h⟩ := bind_accepts.1 h
      obtain ⟨hnone, hsame⟩ := pure_accepts.1 hblock
      subst hnone hsame
      obtain ⟨more, s₂, hmore, h⟩ := bind_accepts.1 h
      rw [pure_accepts] at h
      obtain ⟨rfl, rfl⟩ := h
      exact ⟨[], s, more, Emits.nil _, .text (Bool.eq_false_iff.2 htool), hmore, rfl⟩

theorem emitTools_accepts {n : Nat} {items : List Json}
    (hids : ∀ item ∈ items, ∃ id, item.fieldStr "id" = some id)
    (h : emitTools texts n items s = (.ok events, s')) : Emits s.view events s'.view ∧
      ∃ blocks, events = blocks.flatten ∧ Blocks s.view.preserve n items blocks := by
  induction items generalizing n s events with
  | nil =>
      rw [emitTools, pure_accepts] at h
      obtain ⟨rfl, rfl⟩ := h
      exact ⟨Emits.nil _, [], rfl, rfl, by simp⟩
  | cons item rest ih =>
      obtain ⟨⟨id, hid⟩, hids⟩ := List.forall_mem_cons.1 hids
      obtain ⟨block, s₁, more, hemits, hreleased, hmore, rfl⟩ := emitTools_cons hid h
      obtain ⟨hrest, blocks, rfl, hblocks⟩ := ih hids hmore
      have hpreserve : s₁.view.preserve = s.view.preserve := by rw [hemits.view]
      rw [hpreserve] at hblocks
      exact ⟨hemits.append hrest, block :: blocks, rfl, .cons hreleased hblocks⟩

/-- The recorded items are the items of an output. -/
structure Recorded (items : OrderedMap Nat StreamItem) (output : List Json) : Prop where
  size : output.length = items.size
  done : ∀ (k : Nat) raw, output[k]? = some raw →
    ∃ item, items.get k = some item ∧ item.done = some raw

theorem checkOutput_ok {output : List Json} {u : Unit} (h : s.checkOutput output = .ok u) :
    Recorded s.view.items output := by
  simp only [checkOutput, bind_ok, rejectIf_ok, Bool.or_eq_false_iff, decide_eq_false_iff_not,
    ne_eq, not_not] at h
  obtain ⟨_, ⟨hsize, -⟩, h⟩ := h
  refine ⟨hsize, fun k raw hraw => ?_⟩
  have hmem : (raw, k) ∈ output.zipIdx := List.mem_zipIdx_iff_getElem?.2 hraw
  have hentry := forall_of_forM h _ hmem
  simp only [bind_ok, okOr_ok, rejectIf_ok, decide_eq_false_iff_not, not_not] at hentry
  exact hentry

/-- Nothing is recorded outside of the output. -/
theorem Recorded.none {items : OrderedMap Nat StreamItem} {output : List Json}
    (h : Recorded items output) {n : Nat} (hn : output.length ≤ n) : items.get n = none := by
  refine OrderedMap.get_of_full (fun k hk => ?_) (h.size ▸ hn)
  rw [← h.size] at hk
  obtain ⟨item, hitem, -⟩ := h.done k _ (List.getElem?_eq_getElem hk)
  rw [OrderedMap.contains, hitem]
  rfl

/-- A call that ends the stream with a response. -/
structure Terminated (v : View) (events : List Json) (v' : View) : Prop where
  numbers : events.map (·.field "sequence_number") =
    (List.range' v.sequence events.length).map fun k => some (.number (.ofNat k))
  view : v' = { v with sequence := v.sequence + events.length, complete := true }
  release : ∃ status raw response items output blocks last,
    events = blocks.flatten ++ [last] ∧ status ∈ ["completed", "incomplete", "failed"] ∧
    PreparedResponses.Decoded raw response items output ∧ response.fieldStr "status" = some status ∧
    Recorded v.items items ∧ Blocks v.preserve 0 output blocks ∧
    typeOf last = some ("response." ++ status) ∧ last.lookup "response" = response ∧
    last.field "output_index" = none

theorem restored_ids {items output : List Json} (h : List.Forall₂ Restored items output) :
    ∀ item ∈ output, ∃ id, item.fieldStr "id" = some id := by
  induction h with
  | nil => simp
  | cons hrestored _ ih =>
      obtain ⟨id, -, hid⟩ := hrestored.id
      exact List.forall_mem_cons.2 ⟨⟨id, hid⟩, ih⟩

theorem terminated_accepts {status : String}
    (hstatus : status ∈ ["completed", "incomplete", "failed"])
    (h : terminated texts status value s = (.ok events, s')) :
    Terminated s.view events s'.view := by
  simp only [terminated, ensure_bind_accepts] at h
  obtain ⟨_, -, h⟩ := h
  obtain ⟨_, s₁, hcheck, h⟩ := bind_accepts.1 h
  cases checkResponse_accepts hcheck
  simp only [ensure_bind_accepts, read_bind_accepts, okOr_ok, Json.asArray_eq_some, rejectIf_ok,
    decide_eq_false_iff_not, ne_eq, not_not, lookup_string] at h
  obtain ⟨_, hknown, raw, hraw, _, hrecorded, h⟩ := h
  obtain ⟨response, s₂, hcall, h⟩ := bind_accepts.1 h
  obtain ⟨prepared, hdecode, hview₂⟩ := withPrepared_accepts hcall
  obtain ⟨hpreserve, items, output, hdecoded⟩ := PreparedResponses.decodeValue_accepts hdecode
  cases hraw.symm.trans hdecoded.hasItems
  simp only [check_bind_accepts, okOr_ok, Json.asArray_eq_some] at h
  obtain ⟨output', houtput, h⟩ := h
  cases houtput.symm.trans hdecoded.hasOutput
  obtain ⟨released, s₃, htools, h⟩ := bind_accepts.1 h
  obtain ⟨hemits, blocks, rfl, hblocks⟩ := emitTools_accepts (restored_ids hdecoded.restored) htools
  simp only [ensure_bind_accepts] at h
  obtain ⟨outcome, -, h⟩ := h
  obtain ⟨_, s₄, hvalidate, h⟩ := bind_accepts.1 h
  obtain ⟨last, s₅, hlast, h⟩ := bind_accepts.1 h
  simp only [write_bind_accepts, pure_accepts] at h
  obtain ⟨rfl, rfl⟩ := h
  obtain ⟨hone, hstamp⟩ := Emits.one hlast
  rw [validate_accepts hvalidate] at hone
  have hall := hemits.append hone
  rw [hview₂ hpreserve] at hall hblocks
  refine ⟨hall.numbers, ?_, status, _, response, raw, output, blocks, last, rfl, hstatus, hdecoded,
    hdecoded.status.trans hknown, checkOutput_ok hrecorded, hblocks, ?_, ?_, ?_⟩
  · have hsame := hall.view
    rw [view] at hsame ⊢
    rw [View.mk.injEq] at hsame ⊢
    exact ⟨hsame.1, hsame.2.1, rfl, hsame.2.2.2⟩
  · rw [typeOf, hstamp.fieldStr (by decide)]
    simp [Json.fieldStr, Json.asStr]
  · rw [hstamp.lookup (by decide)]
    exact Json.lookup_of_field (by simp)
  · rw [hstamp.field (by decide)]
    simp

end Terminating

section Converting

theorem checkEvent_accepts {event : SseEvent} {type : String} {u : Unit}
    (h : checkEvent event type value s = (.ok u, s')) : s'.view = s.view := by
  simp only [checkEvent, ensure_bind_accepts, read_bind_accepts, write_bind_accepts] at h
  obtain ⟨_, -, sequence, -, _, -, h⟩ := h
  cases hcounters : ((value.field "response").bind (·.field "usage")).filter (!·.isNull) with
  | some counters =>
      rw [hcounters] at h
      simp only [write_bind_accepts, read_bind_accepts, ensure_accepts] at h
      obtain ⟨-, rfl⟩ := h
      rfl
  | none =>
      rw [hcounters] at h
      simp only [read_bind_accepts, ensure_accepts] at h
      obtain ⟨-, rfl⟩ := h
      rfl

/-- What one accepted event does. -/
theorem convert_accepts {event : SseEvent} (h : convert texts event s = (.ok events, s')) :
    Converted s.view events s'.view ∨ Terminated s.view events s'.view := by
  simp only [convert, read_bind_accepts, ensure_bind_accepts, string_ok] at h
  obtain ⟨_, -, value, -, type, htype, h⟩ := h
  obtain ⟨_, s₁, hcheck, h⟩ := bind_accepts.1 h
  rw [← checkEvent_accepts hcheck]
  rw [read_bind_accepts] at h
  split at h
  · exact .inl (created_accepts h)
  split at h
  · exact absurd h not_fails
  generalize harm : dispatch texts type value = arm at h
  unfold dispatch at harm
  split at harm <;> subst harm
  · exact .inl (inProgress_accepts htype h)
  · exact .inl (itemAdded_accepts htype h)
  · exact .inl (argumentsDelta_accepts h)
  · exact .inl (argumentsDelta_accepts h)
  · exact .inl (argumentsDone_accepts h)
  · exact .inl (argumentsDone_accepts h)
  · exact .inl (partAdded_accepts htype h)
  · exact .inl (partAdded_accepts htype h)
  · exact .inl (textDelta_accepts htype h)
  · exact .inl (textDelta_accepts htype h)
  · exact .inl (textDone_accepts htype h)
  · exact .inl (textDone_accepts htype h)
  · exact .inl (partDone_accepts htype h)
  · exact .inl (partDone_accepts htype h)
  · exact .inl (itemDone_accepts htype h)
  · exact .inr (terminated_accepts (by decide) h)
  · exact .inr (terminated_accepts (by decide) h)
  · exact .inr (terminated_accepts (by decide) h)
  · exact absurd h not_fails

theorem event_accepts {sse : SseEvent} (h : event texts sse s = (.ok events, s')) :
    s.invalid = false ∧ s.complete = false ∧
      (Converted s.view events s'.view ∨ Terminated s.view events s'.view) := by
  unfold event at h
  split at h
  · cases h
  · next hgoing =>
      rw [Bool.or_eq_true, not_or, Bool.not_eq_true, Bool.not_eq_true] at hgoing
      split at h
      · next hconvert =>
          cases h
          exact ⟨hgoing.1, hgoing.2, convert_accepts hconvert⟩
      · cases h

theorem event_valid {sse : SseEvent} (h : event texts sse s = (.ok events, s')) :
    s'.invalid = false := by
  obtain ⟨hvalid, -, hconverted | hterminated⟩ := event_accepts h
  · exact hconverted.invalid.trans hvalid
  · exact (congrArg View.invalid hterminated.view).trans hvalid

/-- A stream that is over rejects every event. -/
theorem event_of_over (sse : SseEvent) (h : (s.invalid || s.complete) = true) :
    event texts sse s = (.error (.error .invalidEventOrder), s) := by
  rw [event, if_pos h]

theorem event_rejects {sse : SseEvent} {fault : Fault IrError}
    (h : event texts sse s = (.error fault, s')) :
    s' = s ∧ (s.invalid || s.complete) = true ∨ s'.invalid = true := by
  unfold event at h
  split at h
  · next hover =>
      cases h
      exact .inl ⟨rfl, hover⟩
  · split at h
    · cases h
    · cases h
      exact .inr rfl

end Converting

end ResponsesStream

end ResponseGateway.Adapters
