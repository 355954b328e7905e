import ResponseGateway.Proxy.HistorySteps

/-!
The publisher and the verifier of one turn. What `addEnvelope` publishes reads back,
item by item, as what `publicOutput` recorded and the envelope, provided that every
reasoning item has the shape the verifier accepts (`echoable`). The publisher does
not check this shape: the verifier's list of fields lacks `status`, and it drops an
`encrypted_content` that the record keeps.
-/

namespace ResponseGateway.Proxy
open Checked Json Ir

/-- The fields a published reasoning item with a summary may have. -/
def summaryKeys : List String := ["type", "id", "summary"]

/-- The rest of the verifier's conditions on an item whose summary is empty. -/
def isBareCarrier (fields : Fields) : Bool :=
  fields.all (fun entry => entry.1 ∈ reasoningKeys) &&
    (Assoc.get "content" fields).all (fun value => value.isNull || value = .array []) &&
    (Assoc.get passthrough fields).all (·.isNull)

/-- A response item the verifier takes back as it was recorded. -/
def echoable (item : Json) : Bool :=
  !isReasoning item ||
    match item.asObject, (item.field "summary").bind asArray with
    | some fields, some summary => summary.all isSummaryPart &&
        if summary.isEmpty then isBareCarrier fields
        else fields.all fun entry => entry.1 ∈ summaryKeys
    | _, _ => false

section Items

variable {fields : Fields} {summary : List Json} {token : String}

theorem field_object (fields : Fields) (key : String) :
    (Json.object fields).field key = Assoc.get key fields := rfl

theorem echoable_reasoning {item : Json} (h : echoable item = true)
    (hreasoning : isReasoning item = true) : ∃ fields summary, item = .object fields ∧
      Assoc.get "summary" fields = some (.array summary) ∧ summary.all isSummaryPart = true ∧
      (if summary.isEmpty then isBareCarrier fields
        else fields.all fun entry => entry.1 ∈ summaryKeys) = true := by
  rw [echoable, hreasoning, Bool.not_true, Bool.false_or] at h
  split at h
  · next fields summary hfields hsummary =>
      obtain rfl := asObject_eq_some.1 hfields
      rw [field_object] at hsummary
      obtain ⟨value, hvalue, harray⟩ := Option.bind_eq_some_iff.1 hsummary
      obtain rfl := asArray_eq_some.1 harray
      rw [Bool.and_eq_true] at h
      exact ⟨fields, summary, rfl, hvalue, h.1, h.2⟩
  · cases h

theorem get_none_of_summaryKeys {key : String}
    (h : (fields.all fun entry => entry.1 ∈ summaryKeys) = true) (hkey : key ∉ summaryKeys) :
    Assoc.get key fields = none := by
  rw [Assoc.get_eq_none]
  intro entry hentry heq
  have hmem := List.all_eq_true.1 h entry hentry
  rw [heq, decide_eq_true_eq] at hmem
  exact hkey hmem

/-- An item with a summary keeps its fields once the envelope is taken off. -/
theorem publicReasoning_of_summaryKeys
    (h : (fields.all fun entry => entry.1 ∈ summaryKeys) = true) :
    publicReasoning fields = fields := by
  rw [publicReasoning,
    Assoc.erase_of_get_none (get_none_of_summaryKeys h (by decide : "encrypted_content" ∉ _)),
    Assoc.erase_of_get_none (get_none_of_summaryKeys h (by decide : "content" ∉ _)),
    Assoc.erase_of_get_none (get_none_of_summaryKeys h (by decide : passthrough ∉ _))]

theorem isBareCarrier_of_summaryKeys
    (h : (fields.all fun entry => entry.1 ∈ summaryKeys) = true) : isBareCarrier fields = true := by
  have hkeys : (fields.all fun entry => entry.1 ∈ reasoningKeys) = true := by
    rw [List.all_eq_true] at h ⊢
    intro entry hentry
    have hmem := h entry hentry
    simp only [summaryKeys, List.mem_cons, List.not_mem_nil, or_false, decide_eq_true_eq] at hmem
    rcases hmem with hmem | hmem | hmem <;> simp [hmem, reasoningKeys]
  rw [isBareCarrier, hkeys,
    get_none_of_summaryKeys h (by decide : "content" ∉ _),
    get_none_of_summaryKeys h (by decide : passthrough ∉ _)]
  rfl

/-- A reasoning item of the accepted shape is read with the envelope it carries. -/
theorem readReasoning_of {kept : Option String} (hbare : isBareCarrier fields = true)
    (hsummary : Assoc.get "summary" fields = some (.array summary))
    (hparts : summary.all isSummaryPart = true)
    (henvelope : readEnvelope (.object fields) summary = .ok kept) :
    readReasoning (.object fields) = .ok
      (if summary.isEmpty then none else some (.object (publicReasoning fields)), kept) := by
  simp only [isBareCarrier, Bool.and_eq_true] at hbare
  obtain ⟨⟨hkeys, hcontent⟩, hpass⟩ := hbare
  have hallowed : (fields.any fun entry => !(entry.1 ∈ reasoningKeys)) = false := by
    rw [List.any_eq_false]
    intro entry hentry
    have hmem := List.all_eq_true.1 hkeys entry hentry
    simpa using hmem
  have hempty : ((Assoc.get "content" fields).any fun value =>
      !value.isNull && value ≠ .array []) = false := by
    cases hget : Assoc.get "content" fields with
    | none => rfl
    | some value =>
        rw [hget] at hcontent
        simpa [Option.any, Option.all, Bool.or_eq_true, Classical.or_iff_not_imp_left] using hcontent
  have hnull : ((Assoc.get passthrough fields).any fun value => !value.isNull) = false := by
    cases hget : Assoc.get passthrough fields with
    | none => rfl
    | some value =>
        rw [hget] at hpass
        simpa [Option.any, Option.all] using hpass
  have hitems : ((Json.object fields).field "summary").bind asArray = some summary := by
    rw [field_object, hsummary]
    rfl
  simp only [readReasoning, asObject, okOr_some, bind_of_ok, hallowed, rejectIf_false,
    field_object, hempty, hnull, Bool.or_false]
  rw [← field_object, hitems, okOr_some, bind_of_ok, hparts, Bool.not_true, rejectIf_false,
    bind_of_ok, henvelope]
  rfl

theorem readEnvelope_absent (hnone : Assoc.get "encrypted_content" fields = none)
    (hne : summary ≠ []) : readEnvelope (.object fields) summary = .ok none := by
  have hempty : summary.isEmpty = false := List.isEmpty_eq_false_iff.2 hne
  simp only [readEnvelope, field_object, hnone, Option.filter_none, hempty, rejectIf_false]
  rfl

theorem readEnvelope_present
    (hsome : Assoc.get "encrypted_content" fields = some (.string token)) :
    readEnvelope (.object fields) summary = .ok (some token) := by
  simp only [readEnvelope, field_object, hsome]
  rfl

theorem isReasoning_object : isReasoning (.object fields) =
    decide ((Assoc.get "type" fields).bind asStr = some "reasoning") := rfl

/-- An item with a summary and no envelope stays as it is. -/
theorem readItem_summary {item : Json} (h : echoable item = true)
    (hfull : isEmptyReasoning item = false) : readItem item = .ok (some item, none) := by
  cases hreasoning : isReasoning item with
  | false => exact readItem_plain hreasoning
  | true =>
      obtain ⟨fields, summary, rfl, hsummary, hparts, hshape⟩ := echoable_reasoning h hreasoning
      have hne : summary ≠ [] := by
        rintro rfl
        rw [isEmptyReasoning, hreasoning, field_object, hsummary] at hfull
        simp at hfull
      rw [List.isEmpty_eq_false_iff.2 hne] at hshape
      have hread := readReasoning_of (isBareCarrier_of_summaryKeys hshape) hsummary hparts
        (readEnvelope_absent
          (get_none_of_summaryKeys hshape (by decide : "encrypted_content" ∉ _)) hne)
      rw [readItem, hreasoning, if_pos rfl, hread, List.isEmpty_eq_false_iff.2 hne,
        publicReasoning_of_summaryKeys hshape]
      rfl

theorem isBareCarrier_insert (hbare : isBareCarrier fields = true) :
    isBareCarrier (Assoc.insert "encrypted_content" (.string token) fields) = true := by
  simp only [isBareCarrier, Bool.and_eq_true, List.all_eq_true] at hbare ⊢
  obtain ⟨⟨hkeys, hcontent⟩, hpass⟩ := hbare
  refine ⟨⟨fun entry hentry => ?_, ?_⟩, ?_⟩
  · rcases Assoc.mem_insert hentry with rfl | hold
    · rfl
    · exact hkeys entry hold
  · rwa [Assoc.get_insert, if_neg (by decide)]
  · rwa [Assoc.get_insert, if_neg (by decide)]

/-- The item that carries the envelope gives it back and stays, unless it is empty. -/
theorem readItem_setEnvelope (token : String) {item : Json} (hcanonical : Canonical item)
    (h : echoable item = true) (hreasoning : isReasoning item = true) :
    readItem (setEnvelope token item) =
      .ok (if isEmptyReasoning item then none else some item, some token) := by
  obtain ⟨fields, summary, rfl, hsummary, hparts, hshape⟩ := echoable_reasoning h hreasoning
  have hother : ∀ key, "encrypted_content" ≠ key →
      Assoc.get key (Assoc.insert "encrypted_content" (.string token) fields) =
        Assoc.get key fields := by
    intro key hne
    rw [Assoc.get_insert, if_neg hne]
  have hset : isReasoning (setEnvelope token (.object fields)) = true := by
    rw [setEnvelope, isReasoning_object, hother "type" (by decide), ← isReasoning_object,
      hreasoning]
  have hbare : isBareCarrier fields = true := by
    split at hshape
    · exact hshape
    · exact isBareCarrier_of_summaryKeys hshape
  have hread := readReasoning_of (isBareCarrier_insert  hbare)
    ((hother "summary" (by decide)).trans hsummary) hparts
    (readEnvelope_present (by rw [Assoc.get_insert, if_pos rfl]))
  have hkind : isEmptyReasoning (.object fields) = summary.isEmpty := by
    rw [isEmptyReasoning, hreasoning, Bool.true_and, field_object, hsummary]
    cases summary <;> simp
  rw [readItem, hset, if_pos rfl, setEnvelope, hread, hkind]
  cases hempty : summary.isEmpty with
  | true => rfl
  | false =>
      rw [hempty] at hshape
      have hsorted := hcanonical.sorted
      have hback : publicReasoning (Assoc.insert "encrypted_content" (.string token) fields) =
          publicReasoning fields := by
        rw [publicReasoning, publicReasoning, Assoc.erase_insert_self _ _ hsorted]
      rw [hback, publicReasoning_of_summaryKeys hshape]

end Items

section Outputs

variable {token : String}

theorem envelopeFirst_none {output : List Json} (h : envelopeFirst token output = none) :
    ∀ item ∈ output, isReasoning item = false := by
  induction output with
  | nil => simp
  | cons first rest ih =>
      rw [envelopeFirst] at h
      split at h
      · cases h
      · next hplain =>
          intro item hitem
          rcases List.mem_cons.1 hitem with rfl | hitem
          · simpa using hplain
          · exact ih (by simpa using h) item hitem

theorem envelopeFirst_some {output published : List Json}
    (h : envelopeFirst token output = some published) : ∃ before item after,
      output = before ++ item :: after ∧ (∀ other ∈ before, isReasoning other = false) ∧
      isReasoning item = true ∧ published = before ++ setEnvelope token item :: after := by
  induction output generalizing published with
  | nil => cases h
  | cons first rest ih =>
      rw [envelopeFirst] at h
      split at h
      · next hreasoning =>
          cases h
          exact ⟨[], first, rest, rfl, by simp, hreasoning, rfl⟩
      · next hplain =>
          obtain ⟨published', hrest, rfl⟩ := Option.map_eq_some_iff.1 h
          obtain ⟨before, item, after, rfl, hbefore, hitem, rfl⟩ := ih hrest
          refine ⟨first :: before, item, after, rfl, ?_, hitem, rfl⟩
          intro other hother
          rcases List.mem_cons.1 hother with rfl | hother
          · simpa using hplain
          · exact hbefore other hother

theorem publicOutput_some {response : Json} {output : List Json}
    (h : publicOutput response = some output) : ∃ fields items,
      response = .object fields ∧ Assoc.get "output" fields = some (.array items) ∧
      output = items.filter (!isEmptyReasoning ·) ∧
      ∀ before item after, items = before ++ item :: after →
        (∀ other ∈ before, isReasoning other = false) → isReasoning item = true →
        ∀ other ∈ after, isEmptyReasoning other = false := by
  simp only [publicOutput, Option.bind_eq_bind, Option.bind_eq_some_iff] at h
  obtain ⟨items, ⟨value, hvalue, harray⟩, h⟩ := h
  obtain rfl := asArray_eq_some.1 harray
  obtain ⟨fields, hfields, hget⟩ := Option.bind_eq_some_iff.1 hvalue
  obtain rfl := asObject_eq_some.1 hfields
  split at h
  · cases h
  · next hselected =>
      cases h
      refine ⟨fields, items, rfl, hget, rfl, ?_⟩
      rintro before item after rfl hbefore hitem other hother
      have hindex : (before ++ item :: after).findIdx? isReasoning = some before.length := by
        rw [List.findIdx?_append, List.findIdx?_eq_none_iff.2 hbefore]
        simp [List.findIdx?_cons, hitem]
      rw [hindex] at hselected
      simp only [List.any_eq_true, Prod.exists, List.mk_mem_zipIdx_iff_getElem?, Bool.and_eq_true,
        decide_eq_true_eq, not_exists, not_and, ne_eq, not_not, Option.some.injEq] at hselected
      obtain ⟨j, hj, rfl⟩ := List.getElem_of_mem hother
      by_contra hempty
      have hlater := hselected after[j] (before.length + 1 + j)
        (by rw [List.getElem?_append_right (by omega)]
            simp [show before.length + 1 + j - before.length = j + 1 by omega])
        (by simpa using hempty)
      omega

theorem readItem_carrier (id : String) : readItem (carrier id token) = .ok (none, some token) := rfl

/-- What the client receives as the output of a response. -/
def outputItems (response : Json) : List Json := ((response.field "output").bind asArray).getD []

theorem addEnvelope_some {fields : Fields} {items : List Json} {published : Json}
    (hitems : Assoc.get "output" fields = some (.array items))
    (h : addEnvelope (.object fields) token = some published) :
    outputItems published = (envelopeFirst token items).getD
      (items ++ [carrier (((Json.object fields).fieldStr "id").getD "response") token]) := by
  simp only [addEnvelope, asObject, hitems, Option.bind_eq_bind, Option.bind_some, asArray] at h
  cases h
  rw [outputItems, field_object, Assoc.get_insert, if_pos rfl]
  rfl

theorem scan_summary {items : List Json} (h : ∀ item ∈ items, echoable item = true)
    (hfull : ∀ item ∈ items, isEmptyReasoning item = false) : scan items = .ok (items, []) := by
  induction items with
  | nil => rfl
  | cons item rest ih =>
      refine scan_cons_ok.2 ⟨some item, none, rest, [], ?_, ?_, rfl, rfl⟩
      · exact readItem_summary (h item (by simp)) (hfull item (by simp))
      · exact ih (fun i hi => h i (by simp [hi])) (fun i hi => hfull i (by simp [hi]))

theorem filter_plain {items : List Json} (h : ∀ item ∈ items, isEmptyReasoning item = false) :
    items.filter (!isEmptyReasoning ·) = items :=
  List.filter_eq_self.2 fun item hitem => by simp [h item hitem]

theorem isEmptyReasoning_plain {item : Json} (h : isReasoning item = false) :
    isEmptyReasoning item = false := by
  rw [isEmptyReasoning, h, Bool.false_and]

/-- The verifier reads the published output as the recorded one, with the envelope. -/
theorem scan_published {response : Value} {output : List Json} {published : Json}
    (hpublic : publicOutput response.1 = some output)
    (hpublished : addEnvelope response.1 token = some published)
    (hecho : ∀ item ∈ outputItems response.1, echoable item = true) :
    scan (outputItems published) = .ok (output, [token]) := by
  obtain ⟨response, hcanonical⟩ := response
  obtain ⟨fields, items, rfl, hitems, rfl, hselected⟩ := publicOutput_some hpublic
  have hown : outputItems (.object fields) = items := by
    rw [outputItems, field_object, hitems]
    rfl
  rw [hown] at hecho
  rw [addEnvelope_some hitems hpublished]
  cases hfirst : envelopeFirst token items with
  | none =>
      have hplain := envelopeFirst_none hfirst
      rw [filter_plain fun item hitem => isEmptyReasoning_plain (hplain item hitem)]
      have hcarrier := fun id => scan_cons_ok.2
        ⟨none, some token, [], [], readItem_carrier id, scan_plain (by simp), rfl, rfl⟩
      simpa using scan_append (scan_plain hplain) (hcarrier _)
  | some published =>
      obtain ⟨before, item, after, rfl, hbefore, hitem, rfl⟩ := envelopeFirst_some hfirst
      have hafter := hselected before item after rfl hbefore hitem
      have hitemCanonical : Canonical item :=
        (hcanonical.get hitems).items (by simp)
      have hread := readItem_setEnvelope token hitemCanonical
        (hecho item (by simp)) hitem
      have hrest := scan_summary (fun i hi => hecho i (by simp [hi])) hafter
      have hscan := scan_append (scan_plain hbefore)
        (scan_cons_ok.2 ⟨_, _, _, _, hread, hrest, rfl, rfl⟩)
      rw [List.filter_append, filter_plain fun i hi => isEmptyReasoning_plain (hbefore i hi),
        List.filter_cons, filter_plain hafter]
      cases hempty : isEmptyReasoning item with
      | true => simpa [hempty] using hscan
      | false => simpa [hempty] using hscan

end Outputs

end ResponseGateway.Proxy
