import ResponseGateway.Ir.ResponsesItems

/-!
The status of an item, read as text or as an object with one key. An item and its
plain form are read alike; they are the same value unless the status was an object.
-/

namespace ResponseGateway.Ir.Responses
open Checked Json Request Assoc

section Statuses

variable {binding : Option ContinuityBinding} {fields rest : Fields} {item : Item}

/-- The status field of a decoded item, and that any value naming the same status
could stand in its place. -/
def StatusRead (decodeFields : Fields → Except IrError Item) (fields : Fields) (item : Item) :
    Prop :=
  (get "status" fields = none ∨ get "status" fields = some null) ∨
    ∃ value status, get "status" fields = some value ∧ statusOf value = some status ∧
      ∀ x, statusOf x = some status → decodeFields (insert "status" x fields) = .ok item

theorem statusOf_null : statusOf null = none := rfl

theorem decodeStatus_insert {status : Option ToolCallStatus} (hf : Sorted fields)
    (h : decodeStatus fields = .ok (status, rest)) :
    (get "status" fields = none ∨ get "status" fields = some null) ∨
      ∃ value s, get "status" fields = some value ∧ statusOf value = some s ∧
        ∀ x, statusOf x = some s → decodeStatus (insert "status" x fields) = .ok (status, rest) := by
  cases status with
  | none => exact .inl (takeWith_none h).2
  | some s =>
      obtain ⟨value, hget, -, hvalue, rfl⟩ := takeWith_some h
      refine .inr ⟨value, s, hget, okOr_ok.1 hvalue, fun x hx => ?_⟩
      refine takeWith_insert_self hf ?_ (okOr_ok.2 hx)
      rintro rfl
      cases hx

theorem decodeMessage_status {explicitType : Bool} (hf : Sorted fields)
    (h : decodeMessage explicitType fields = .ok item) :
    StatusRead (decodeMessage explicitType) fields item := by
  obtain ⟨⟨role, f₁⟩, hrole, h⟩ := bind_ok.1 h
  obtain ⟨role', hrole', h⟩ := bind_ok.1 h
  obtain ⟨⟨status, f₂⟩, hstatus, h⟩ := bind_ok.1 h
  have hget := (required_split (Split.refl hf) rfl hrole).get_rest (k := "status") rfl
  have hsorted := (required_insert (x := null) hf (by decide : "role" ≠ "status") hrole).1
  have hread := decodeStatus_insert hsorted hstatus
  rw [hget] at hread
  refine hread.imp_right fun ⟨value, s, hvalue, hs, hinsert⟩ => ⟨value, s, hvalue, hs, fun x hx => ?_⟩
  have hrole'' := (required_insert (x := x) hf (by decide : "role" ≠ "status") hrole).2
  exact bind_ok.2 ⟨_, hrole'', bind_ok.2 ⟨_, hrole', bind_ok.2 ⟨_, hinsert x hx, h⟩⟩⟩

theorem decodeToolCall_status {kind : ToolKind} (hf : Sorted fields)
    (h : decodeToolCall kind fields = .ok item) :
    StatusRead (decodeToolCall kind) fields item := by
  obtain ⟨⟨id, f₁⟩, hid, h⟩ := bind_ok.1 h
  obtain ⟨⟨callId, f₂⟩, hcallId, h⟩ := bind_ok.1 h
  obtain ⟨callId', hcallId', h⟩ := bind_ok.1 h
  obtain ⟨⟨tool, f₃⟩, htool, h⟩ := bind_ok.1 h
  obtain ⟨⟨raw, f₄⟩, hraw, h⟩ := bind_ok.1 h
  obtain ⟨⟨status, f₅⟩, hstatus, h⟩ := bind_ok.1 h
  have hinput : inputField kind ≠ "status" := by cases kind <;> decide
  have hs := itemId_split (Split.refl hf) rfl hid
  have hs := required_split hs rfl hcallId
  have hs := toolIdentity_split hs rfl rfl htool
  have hs := required_split hs (by cases kind <;> rfl) hraw
  have hget := hs.get_rest (k := "status") (by cases kind <;> rfl)
  have hread := decodeStatus_insert hs.rest_sorted hstatus
  rw [hget] at hread
  refine hread.imp_right fun ⟨value, s, hvalue, hstatusOf, hinsert⟩ =>
    ⟨value, s, hvalue, hstatusOf, fun x hx => ?_⟩
  obtain ⟨hsorted, hid'⟩ := itemId_insert (x := x) hf (by decide : "id" ≠ "status") hid
  obtain ⟨hsorted, hcall'⟩ :=
    required_insert (x := x) hsorted (by decide : "call_id" ≠ "status") hcallId
  obtain ⟨hsorted, htool'⟩ := toolIdentity_insert (x := x) hsorted
    (by decide : "namespace" ≠ "status") (by decide : "name" ≠ "status") htool
  obtain ⟨-, hraw'⟩ := required_insert (x := x) hsorted hinput hraw
  exact bind_ok.2 ⟨_, hid', bind_ok.2 ⟨_, hcall', bind_ok.2 ⟨_, hcallId', bind_ok.2 ⟨_, htool',
    bind_ok.2 ⟨_, hraw', bind_ok.2 ⟨_, hinsert x hx, h⟩⟩⟩⟩⟩⟩

theorem StatusRead.lift {decodeFields : Fields → Except IrError Item} {whole : Fields}
    (hread : StatusRead decodeFields fields item) (hget : get "status" fields = get "status" whole)
    (hlift : ∀ x, decodeFields (insert "status" x fields) = .ok item →
      decodeItem binding (.object (insert "status" x whole)) = .ok item) :
    StatusRead (fun fields => decodeItem binding (.object fields)) whole item := by
  unfold StatusRead at hread ⊢
  rw [hget] at hread
  exact hread.imp_right fun ⟨value, s, hvalue, hs, hinsert⟩ =>
    ⟨value, s, hvalue, hs, fun x hx => hlift x (hinsert x hx)⟩

theorem decodeItem_status {whole : Fields} (hf : Sorted whole) (hreads : readsStatus whole = true)
    (h : decodeItem binding (.object whole) = .ok item) :
    StatusRead (fun fields => decodeItem binding (.object fields)) whole item := by
  obtain ⟨_, hwhole, hbody⟩ := bind_ok.1 h
  cases hwhole
  obtain ⟨⟨tag, f₁⟩, htag, hkind⟩ := bind_ok.1 hbody
  have hs := string_split (Split.refl hf) rfl htag
  have hget := hs.get_rest (k := "status") rfl
  have htag' := fun x => (takeWith_insert (x := x) hf (by decide : "type" ≠ "status") htag).2
  have hdispatch : ∀ x, decodeItem binding (.object (insert "status" x whole)) =
      (string (insert "status" x whole) "type" >>= _) := fun x => rfl
  dsimp only at hkind
  split at hkind
  · exact (decodeMessage_status hs.rest_sorted hkind).lift hget fun x hx => by
      rw [hdispatch, string, htag', bind_of_ok]
      exact hx
  · exact (decodeToolCall_status hs.rest_sorted hkind).lift hget fun x hx => by
      rw [hdispatch, string, htag', bind_of_ok]
      exact hx
  · exact (decodeToolCall_status hs.rest_sorted hkind).lift hget fun x hx => by
      rw [hdispatch, string, htag', bind_of_ok]
      exact hx
  · rw [readsStatus, string_some htag] at hreads
    simp at hreads
  · rw [readsStatus, string_some htag] at hreads
    simp at hreads
  · rw [readsStatus, string_some htag] at hreads
    simp at hreads
  · next name _ _ _ _ _ _ =>
      rw [readsStatus, string_some htag] at hreads
      simp_all
  · split at hkind
    · next hrole =>
        refine (decodeMessage_status hs.rest_sorted hkind).lift hget fun x hx => ?_
        rw [hdispatch, string, htag', bind_of_ok]
        have hrole' : (get "role" (insert "status" x f₁)).isSome = true := by
          rw [get_insert, if_neg (by decide)]
          exact hrole
        exact (if_pos hrole').trans hx
    · cases hkind

/-- A status given as an object, where the codec reads one. -/
def objectStatus : Json → Bool
  | .object fields => readsStatus fields && (get "status" fields).any isObject
  | _ => false

theorem plainStatus_eq_self {value : Json} {status : ToolCallStatus}
    (h : statusOf value = some status) : plainStatus value = value ↔ value.isObject = false := by
  rw [plainStatus_of_statusOf h]
  cases value with
  | object _ => simp [isObject, asObject]
  | string name =>
      rw [statusNamed_some h]
      simp [isObject, asObject]
  | null | bool _ | number _ | array _ => cases h

/-- An item and its plain form are read alike, and differ when the status was an
object. -/
theorem decodeItem_plainItem {value : Json} (hv : value.Canonical)
    (h : decodeItem binding value = .ok item) :
    decodeItem binding (plainItem value) = .ok item ∧
      (plainItem value = value ↔ objectStatus value = false) := by
  cases value with
  | null | bool _ | number _ | string _ | array _ => exact ⟨h, by simp [plainItem, objectStatus]⟩
  | object whole =>
      cases hreads : readsStatus whole with
      | false => simp [plainItem, objectStatus, hreads, h]
      | true =>
          simp only [plainItem, objectStatus, hreads, if_true, Bool.true_and]
          rcases decodeItem_status hv.sorted hreads h with hnone | ⟨value, s, hget, hs, hinsert⟩
          · rcases hnone with hnone | hnone
            · rw [hnone]
              exact ⟨h, by simp⟩
            · rw [hnone]
              dsimp only [plainStatus]
              rw [insert_of_get hv.sorted hnone]
              exact ⟨h, by simp [isObject, asObject]⟩
          · rw [hget]
            refine ⟨hinsert _ (statusOf_plainStatus hs), ?_⟩
            rw [Option.any_some, ← plainStatus_eq_self hs]
            constructor
            · intro heq
              have hsame := congrArg (get "status") (Json.object.inj heq)
              rw [get_insert, if_pos rfl, hget] at hsame
              exact Option.some.inj hsame
            · intro heq
              dsimp only
              rw [heq, insert_of_get hv.sorted hget]

theorem plainStatus_canonical {value : Json} (h : value.Canonical) :
    (plainStatus value).Canonical := by
  unfold plainStatus
  split
  · simp [Canonical]
  · exact h

theorem plainStatus_idem (value : Json) : plainStatus (plainStatus value) = plainStatus value := by
  have hform : (∃ name, value = .object [(name, .null)]) ∨ plainStatus value = value := by
    unfold plainStatus
    split
    · exact .inl ⟨_, rfl⟩
    · exact .inr rfl
  rcases hform with ⟨name, rfl⟩ | hsame
  · rfl
  · rw [hsame, hsame]

theorem readsStatus_insert (fields : Fields) (x : Json) :
    readsStatus (insert "status" x fields) = readsStatus fields := by
  simp only [readsStatus, get_insert, if_neg (by decide : ¬"status" = "type"),
    if_neg (by decide : ¬"status" = "role")]

theorem plainItem_canonical {value : Json} (h : value.Canonical) : (plainItem value).Canonical := by
  unfold plainItem
  split
  · split
    · split
      · next status hget => exact h.insert (plainStatus_canonical (h.get hget))
      · exact h
    · exact h
  · exact h

theorem plainItem_idem {value : Json} (h : value.Canonical) :
    plainItem (plainItem value) = plainItem value := by
  cases value with
  | null | bool _ | number _ | string _ | array _ => rfl
  | object whole =>
      cases hreads : readsStatus whole with
      | false => simp [plainItem, hreads]
      | true =>
          cases hget : get "status" whole with
          | none => simp [plainItem, hreads, hget]
          | some status =>
              simp only [plainItem, hreads, hget, if_true, readsStatus_insert, get_insert,
                plainStatus_idem]
              rw [insert_of_get (sorted_insert _ _ h.sorted) (by rw [get_insert, if_pos rfl])]

theorem isStored_of_status {fields : Fields} {status : Json}
    (h : get "status" fields = some status) :
    isStored (.object fields) =
      ((get "type" fields).bind asStr).any
        (· ∈ ["item_reference", "compaction", "compaction_trigger"]) := by
  have hall : (fields.all fun entry => entry.1 = "id" || entry.1 = "type") = false := by
    rw [List.all_eq_false]
    exact ⟨_, mem_of_get h, by simp⟩
  change (((get "type" fields).bind asStr).any
      (· ∈ ["item_reference", "compaction", "compaction_trigger"]) ||
    (((get "id" fields).bind asStr).isSome && (get "type" fields).all (·.isNull) &&
      fields.all fun entry => entry.1 = "id" || entry.1 = "type")) = _
  rw [hall, Bool.and_false, Bool.or_false]

theorem isStored_plainItem (value : Json) : isStored (plainItem value) = isStored value := by
  unfold plainItem
  split
  · split
    · split
      · next status hget =>
          rw [isStored_of_status hget, isStored_of_status (by rw [get_insert, if_pos rfl]),
            get_insert, if_neg (by decide)]
      · rfl
    · rfl
  · rfl

end Statuses

end ResponseGateway.Ir.Responses
