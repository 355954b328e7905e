import ResponseGateway.Adapters.Responses

/-!
What decoding a response keeps. A restored item has the identity it had; a tool stays a
tool, and every other item is unchanged. The decoded response differs from the response
in its output, in what it repeats of the request and in the error of a failure.
-/

namespace ResponseGateway.Adapters
open Checked Ir Request Method
open Json (ofFields)

variable {texts : Texts} {p p' : PreparedResponses} {item restored value value' : Json}

section Items

/-- An item, and the item the client gets for it. -/
structure Restored (item restored : Json) : Prop where
  id : ∃ id, item.fieldStr "id" = some id ∧ restored.fieldStr "id" = some id
  kind : isTool item = true ∧ isTool restored = true ∨
    isTool item = false ∧ restored = item ∧
      ∃ reasoning, item.fieldStr "type" = some (itemType reasoning)

theorem toolOutput_ok {call : ToolCall} {status : String}
    (h : toolOutput call status = .ok value) :
    ∃ id, call.itemId = some id ∧ value.fieldStr "id" = some id.value ∧ isTool value = true := by
  simp only [toolOutput, bind_ok, okOr_ok, pure_ok] at h
  obtain ⟨id, hid, rfl⟩ := h
  refine ⟨id, hid, ?_⟩
  cases htool : call.tool.namespace <;> cases hinput : call.input <;>
    simp [isTool, inputFields, Json.fieldStr, Json.asStr, isToolType]

theorem restoreCall_accepts {toLowercase : Text → Text} {isObjectText : String → Bool}
    {bridge bridge' : CustomToolBridge} {lowered call : ToolCall}
    (h : CustomToolBridge.restoreCall toLowercase isObjectText lowered bridge = (.ok call, bridge')) :
    call.itemId = lowered.itemId := by
  simp only [CustomToolBridge.restoreCall, read_bind_accepts, check_bind_accepts] at h
  obtain ⟨_, -, binding, -, h⟩ := h
  obtain ⟨input, _, -, h⟩ := bind_accepts.1 h
  rw [pure_accepts] at h
  rw [← h.1]

namespace PreparedResponses

theorem loweredCall_ok {id : ItemId} {call : ToolCall} (h : p.loweredCall id item = .ok call) :
    call.itemId = some id := by
  unfold loweredCall at h
  simp only [bind_ok] at h
  obtain ⟨_, -, status, -, _, -, h⟩ := h
  split at h <;> simp only [bind_ok, pure_ok] at h
  · obtain ⟨_, -, _, -, _, -, _, -, _, -, _, -, _, -, _, -, _, -, rfl⟩ := h
    rfl
  · obtain ⟨_, -, _, -, _, -, _, -, _, -, _, -, _, -, rfl⟩ := h
    rfl

theorem restoreItem_accepts (h : restoreItem texts item p = (.ok restored, p')) :
    Restored item restored ∧ p'.preserveItemOrder = p.preserveItemOrder := by
  simp only [restoreItem, read_bind_accepts, check_bind_accepts, lift_ok, string_ok,
    Identity.new_ok] at h
  obtain ⟨text, htext, id, rfl, type, htype, h⟩ := h
  split at h
  · next htool =>
      simp only [check_bind_accepts, lift_ok] at h
      obtain ⟨lowered, hlowered, h⟩ := h
      obtain ⟨call, p₁, hcall, h⟩ := bind_accepts.1 h
      rw [check_accepts] at h
      obtain ⟨houtput, rfl⟩ := h
      obtain ⟨registry, hrestore, rfl⟩ := zoom_accepts.1 hcall
      obtain ⟨id', hid', hid, hkind⟩ := toolOutput_ok houtput
      rw [restoreCall_accepts (faulting_accepts.1 hrestore), loweredCall_ok hlowered] at hid'
      cases hid'
      exact ⟨⟨⟨_, htext, hid⟩, .inl ⟨by rw [isTool, htype, Option.any_some, htool], hkind⟩⟩, rfl⟩
  · next htool =>
      have hnot : isTool item = false := by
        rw [isTool, htype, Option.any_some, Bool.eq_false_iff]
        exact htool
      split at h
      · next hmessage =>
          simp only [check_bind_accepts, pure_accepts] at h
          obtain ⟨_, -, rfl, rfl⟩ := h
          exact ⟨⟨⟨_, htext, htext⟩, .inr ⟨hnot, rfl, false, htype.trans (congrArg some hmessage)⟩⟩, rfl⟩
      split at h
      · next hreasoning =>
          simp only [check_bind_accepts, pure_accepts] at h
          obtain ⟨_, -, rfl, rfl⟩ := h
          exact ⟨⟨⟨_, htext, htext⟩, .inr ⟨hnot, rfl, true, htype.trans (congrArg some hreasoning)⟩⟩, rfl⟩
      · rw [check_accepts] at h
        cases h.1

theorem decodeItems_accepts {status : Terminal} {validator : EventValidator} {index : Nat}
    {items : List Json} {result : List Json × EventValidator}
    (h : decodeItems texts status validator index items p = (.ok result, p')) :
    List.Forall₂ Restored items result.1 ∧
      (∀ item ∈ result.1, isTool item = true → status = .completed) ∧
      p'.preserveItemOrder = p.preserveItemOrder := by
  induction items generalizing validator index p result with
  | nil =>
      rw [decodeItems, pure_accepts] at h
      obtain ⟨rfl, rfl⟩ := h
      exact ⟨.nil, by simp, rfl⟩
  | cons item rest ih =>
      rw [decodeItems] at h
      obtain ⟨restored, p₁, hrestored, h⟩ := bind_accepts.1 h
      simp only [check_bind_accepts, rejectIf_ok] at h
      obtain ⟨_, -, _, htool, _, -, h⟩ := h
      obtain ⟨⟨items, validator'⟩, p₂, hrest, h⟩ := bind_accepts.1 h
      rw [pure_accepts] at h
      obtain ⟨rfl, rfl⟩ := h
      obtain ⟨hitem, hpreserve⟩ := restoreItem_accepts hrestored
      obtain ⟨hitems, htools, hrest⟩ := ih hrest
      refine ⟨.cons hitem hitems, List.forall_mem_cons.2 ⟨fun hkind => ?_, htools⟩,
        hrest.trans hpreserve⟩
      rw [hkind, Bool.true_and, decide_eq_false_iff_not, not_not] at htool
      exact htool

end PreparedResponses

end Items

section Responses

namespace PreparedResponses

theorem restoreEcho_ok {key : String} (h : p.restoreEcho value key = .ok value') {other : String}
    (hne : key ≠ other) : value'.field other = value.field other := by
  unfold restoreEcho at h
  split at h
  · rw [pure_ok] at h
    rw [h]
  · obtain ⟨_, -, h⟩ := bind_ok.1 h
    split at h
    · rw [Json.field_setAt h, if_neg hne]
    · rw [pure_ok] at h
      rw [h]

theorem restoreEchoes_ok (h : p.restoreEchoes value = .ok value') {key : String}
    (hkey : key ∉ ["tools", "tool_choice", "parallel_tool_calls"]) :
    value'.field key = value.field key := by
  refine foldlM_rule (P := fun _ v => v.field key = value.field key) h rfl ?_
  intro done echo rest v v' hlist hP hstep
  rw [restoreEcho_ok hstep, hP]
  rintro rfl
  exact hkey (hlist ▸ List.mem_append_right done List.mem_cons_self)

/-- A response, and the response the client gets for it. -/
structure Decoded (value value' : Json) (items output : List Json) : Prop where
  hasItems : value.lookup "output" = .array items
  hasOutput : value'.lookup "output" = .array output
  restored : List.Forall₂ Restored items output
  status : value'.fieldStr "status" = value.fieldStr "status"
  tools : ∀ item ∈ output, isTool item = true → value.fieldStr "status" = some "completed"
  usage : value'.field "usage" = value.field "usage"
  id : value'.field "id" = value.field "id"

theorem terminal_completed {text : String} (h : terminal text = .ok .completed) :
    text = "completed" := by
  unfold terminal at h
  split at h <;> cases h
  rfl

theorem decodeValue_accepts (h : decodeValue texts value p = (.ok value', p')) :
    p'.preserveItemOrder = p.preserveItemOrder ∧
      ∃ items output, Decoded value value' items output := by
  simp only [decodeValue, read_bind_accepts, check_bind_accepts, lift_ok, string_ok, okOr_ok,
    Json.asArray_eq_some] at h
  obtain ⟨_, -, text, htext, status, hstatus, items, hitems, _, -, _, -, id, -, _, -, h⟩ := h
  obtain ⟨⟨output, _⟩, p₁, hdecode, h⟩ := bind_accepts.1 h
  simp only [check_bind_accepts, lift_ok] at h
  obtain ⟨_, -, _, -, _, -, _, -, v₁, hset, v₂, hechoes, h⟩ := h
  obtain ⟨hrestored, htools, hpreserve⟩ := decodeItems_accepts hdecode
  have hfields : ∀ key, key ∉ ["tools", "tool_choice", "parallel_tool_calls"] → key ≠ "error" →
      p' = p₁ ∧ value'.field key = v₁.field key := by
    intro key hkey hne
    split at h
    · rw [check_accepts] at h
      rw [Json.field_setAt h.1, if_neg (Ne.symm hne), restoreEchoes_ok hechoes hkey]
      exact ⟨h.2.symm, rfl⟩
    · rw [pure_accepts] at h
      rw [← h.1, restoreEchoes_ok hechoes hkey]
      exact ⟨h.2.symm, rfl⟩
  have hkept : ∀ key, key ∉ ["tools", "tool_choice", "parallel_tool_calls"] → key ≠ "error" →
      key ≠ "output" → value'.field key = value.field key := by
    intro key hkey hne houtput
    rw [(hfields key hkey hne).2, Json.field_setAt hset, if_neg (Ne.symm houtput)]
  refine ⟨?_, items, output, hitems, ?_, hrestored, ?_, ?_, ?_, ?_⟩
  · rw [(hfields "id" (by decide) (by decide)).1, hpreserve]
  · refine Json.lookup_of_field ?_
    rw [(hfields "output" (by decide) (by decide)).2, Json.field_setAt hset, if_pos rfl]
  · rw [Json.fieldStr, hkept "status" (by decide) (by decide) (by decide), Json.fieldStr]
  · intro item hitem htool
    rw [htools item hitem htool] at hstatus
    rw [htext, terminal_completed hstatus]
  · exact hkept "usage" (by decide) (by decide) (by decide)
  · exact hkept "id" (by decide) (by decide) (by decide)

end PreparedResponses

end Responses

end ResponseGateway.Adapters
