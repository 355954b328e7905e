import ResponseGateway.Codecs.Progress

/-!
Progress and the final response of a managed codec. What was published about an item is
compared with the item of the response that has its identity: the type, and the text of
each part. The place of that item in the response is not compared with the index that
was published, so the two can differ; everything else agrees.
-/

namespace ResponseGateway.Codecs
open Checked Ir Adapters

/-- The batches of one stream, one after the other. -/
def observeBatches (batches : List (List Json)) (maximum : Nat) : Except IrError Progress :=
  batches.foldlM (fun progress events => progress.observe events maximum) .default

theorem observeBatches_eq (batches : List (List Json)) (maximum : Nat) :
    observeBatches batches maximum = Progress.default.observe batches.flatten maximum := by
  rw [observeBatches, Progress.observe]
  generalize Progress.default = progress
  induction batches generalizing progress with
  | nil => rfl
  | cons events rest ih =>
      rw [List.foldlM_cons, List.flatten_cons, List.foldlM_append]
      exact bind_congr fun next _ => ih next

section Finishing

variable {progress : Progress} {response : Json}

/-- The item of the response under an identity, as it was checked. -/
structure FinalItem (output : List Json) (id : String) (item : Item) (final : Json) : Prop where
  found : ∃ index : Nat, output[index]? = some final
  hasId : final.fieldStr "id" = some id
  hasKind : final.fieldStr "type" = some item.kind
  parts : ∃ parts, final.lookup (partsKey item.reasoning) = .array parts ∧
    ∀ (j : Nat) text, item.parts[j]? = some text →
      ∃ part, parts[j]? = some part ∧ part.fieldStr "text" = some text

theorem finishItem_ok {output : List Json} {id : String} {item : Item} {u : Unit}
    (h : Progress.finishItem output (id, item) = .ok u) : ∃ final, FinalItem output id item final := by
  simp only [Progress.finishItem, bind_ok, okOr_ok, rejectIf_ok, decide_eq_false_iff_not, ne_eq,
    not_not, lookup_string, Json.asArray_eq_some] at h
  obtain ⟨final, hfind, _, hkind, parts, hparts, h⟩ := h
  refine ⟨final, List.getElem?_of_mem (List.mem_of_find?_eq_some hfind), ?_, hkind, parts, hparts,
    fun j text hj => ?_⟩
  · have hid := List.find?_some hfind
    rwa [decide_eq_true_eq] at hid
  · have hpart := forall_of_forM h (text, j) (List.mem_zipIdx_iff_getElem?.2 hj)
    simp only [Progress.finishPart, rejectIf_ok, decide_eq_false_iff_not, ne_eq, not_not,
      Option.bind_eq_some_iff] at hpart
    exact hpart

theorem finish_ok {u : Unit} (h : progress.finish response = .ok u) :
    (∀ id, progress.created = some id → response.fieldStr "id" = some id) ∧
    ∃ output, response.lookup "output" = .array output ∧
      ∀ id item, progress.items.get id = some item → ∃ final, FinalItem output id item final := by
  simp only [Progress.finish, bind_ok, okOr_ok, rejectIf_ok, Json.asArray_eq_some] at h
  obtain ⟨_, hcreated, output, houtput, h⟩ := h
  refine ⟨fun id hid => ?_, output, houtput, fun id item hitem => ?_⟩
  · rw [hid] at hcreated
    simpa [lookup_string] using hcreated
  · exact finishItem_ok (forall_of_forM h (id, item) (Assoc.mem_of_get hitem))

end Finishing

section Binding

/-- An announcement of a reasoning item. -/
def isReasoning (event : Json) : Bool := announced event "type" = some "reasoning"

/-- The deltas published for a part of an item. -/
def deltasOf (events : List Json) (id : String) (reasoning : Bool) (part : Nat) : List Json :=
  events.filter fun e => names e id && atPart e reasoning part &&
    decide (typeOf e = some (textPrefix reasoning ++ ".delta"))

/-- What was published about an announced item agrees with one item of the output. -/
structure BoundItem (events output : List Json) (event : Json) (id : String) (index : Nat)
    (final : Json) : Prop where
  hasId : announced event "id" = some id
  carries : event.field "output_index" = some (.number (.ofNat index))
  found : output[index]? = some final
  finalId : final.fieldStr "id" = some id
  only : ∀ (i : Nat) other, output[i]? = some other → other.fieldStr "id" = some id → i = index
  kind : final.fieldStr "type" = announced event "type"
  sameIndex : ∀ e ∈ events, names e id = true →
    e.field "output_index" = some (.number (.ofNat index))
  text : ∃ parts, final.lookup (partsKey (isReasoning event)) = .array parts ∧
    ∀ e ∈ events, names e id = true → ∃ j part, atPart e (isReasoning event) j = true ∧
      parts[j]? = some part ∧
      part.fieldStr "text" = some (textOf (deltasOf events id (isReasoning event) j))

/-- Everything that was published agrees with the response. -/
structure Bound (events : List Json) (response : Json) (output : List Json) : Prop where
  created : ∀ e ∈ events, typeOf e = some "response.created" →
    ∃ id, (e.lookup "response").fieldStr "id" = some id ∧ response.fieldStr "id" = some id
  item : ∀ e ∈ events, isAdded e = true → ∃ id index final, BoundItem events output e id index final

variable {events output : List Json} {progress : Progress} {response : Json}

theorem deltasOf_part {first : Json} {deltas : List Json} {id : String} {reasoning : Bool} {j : Nat}
    (hfilter : events.filter (fun e => names e id && atPart e reasoning j) = first :: deltas)
    (hfirst : typeOf first = some (partPrefix reasoning ++ ".added"))
    (hdeltas : ∀ d ∈ deltas, typeOf d = some (textPrefix reasoning ++ ".delta")) :
    deltasOf events id reasoning j = deltas := by
  have hsplit : deltasOf events id reasoning j =
      (events.filter (fun e => names e id && atPart e reasoning j)).filter
        fun e => decide (typeOf e = some (textPrefix reasoning ++ ".delta")) := by
    rw [List.filter_filter, deltasOf]
    exact List.filter_congr fun e _ => Bool.and_comm _ _
  have hne : partPrefix reasoning ++ ".added" ≠ textPrefix reasoning ++ ".delta" := by
    cases reasoning <;> decide
  rw [hsplit, hfilter, List.filter_cons_of_neg (by simpa [hfirst] using hne)]
  exact List.filter_eq_self.2 fun d hd => decide_eq_true (hdeltas d hd)

/-- An announced item of accepted progress, as it was remembered. -/
theorem Tracked.announced_item (h : Tracked events progress) {event : Json} (he : event ∈ events)
    (hadded : isAdded event = true) : ∃ id item, progress.items.get id = some item ∧
      announced event "id" = some id ∧ announced event "type" = some item.kind ∧
      event.field "output_index" = some (.number (.ofNat item.index)) := by
  obtain ⟨id, item, found, hasId, noName, carries⟩ := (h.known event he).added_of_type hadded
  refine ⟨id, item, found, hasId, ?_, carries⟩
  obtain ⟨first, hfirst, -, -, hkind⟩ := (h.item id item found).started
  have hmem : event ∈ events.filter (atIndex · item.index) :=
    List.mem_filter.2 ⟨he, by rw [atIndex_of carries, decide_eq_true_eq]⟩
  rw [hfirst] at hmem
  rcases List.mem_cons.1 hmem with rfl | hmem
  · exact hkind
  · have hname := (List.mem_filter.1 hmem).2
    rw [not_names noName] at hname
    cases hname

theorem Tracked.named_index (h : Tracked events progress) {event : Json} (he : event ∈ events)
    {id : String} {item : Item} (hid : names event id = true)
    (hitem : progress.items.get id = some item) :
    event.field "output_index" = some (.number (.ofNat item.index)) := by
  cases h.known event he with
  | created _ _ noName | added _ _ _ noName =>
      rw [not_names noName] at hid
      cases hid
  | part _ found named carries =>
      rw [names_of named, decide_eq_true_eq] at hid
      subst hid
      cases found.symm.trans hitem
      exact carries

/-- Progress that was accepted in batches and compared with the response agrees with it
exactly when no identity that was announced stands at another place of the output. -/
theorem progress_bound_iff {batches : List (List Json)} {maximum : Nat}
    (hobserve : observeBatches batches maximum = .ok progress)
    (hfinish : progress.finish response = .ok ()) (houtput : response.lookup "output" = .array output) :
    Bound batches.flatten response output ↔
      ∀ e ∈ batches.flatten, isAdded e = true → ∀ (i : Nat) other, output[i]? = some other →
        other.fieldStr "id" = announced e "id" → atIndex e i = true := by
  rw [observeBatches_eq] at hobserve
  have htracked := tracked_observe hobserve
  obtain ⟨hcreated, output', houtput', hfinal⟩ := finish_ok hfinish
  cases houtput.symm.trans houtput'
  constructor
  · intro hbound e he hadded i other hother hid
    obtain ⟨id, index, final, hitem⟩ := hbound.item e he hadded
    rw [atIndex_of hitem.carries, decide_eq_true_eq]
    exact hitem.only i other hother (hid.trans hitem.hasId)
  · intro hplaces
    refine ⟨fun e he htype => ?_, fun e he hadded => ?_⟩
    · obtain ⟨id, hnamed, hsame⟩ := (htracked.known e he).created_of_type htype
      exact ⟨id, hnamed, hcreated id hsame⟩
    · obtain ⟨id, item, hitem, hasId, hkind, hcarries⟩ := htracked.announced_item he hadded
      obtain ⟨final, hfinal⟩ := hfinal id item hitem
      have hplace : ∀ (i : Nat) other, output[i]? = some other → other.fieldStr "id" = some id →
          i = item.index := by
        intro i other hother hid
        have hat := hplaces e he hadded i other hother (hid.trans hasId.symm)
        rwa [atIndex_of hcarries, decide_eq_true_eq] at hat
      obtain ⟨index, hfound⟩ := hfinal.found
      have hindex := hplace index final hfound hfinal.hasId
      subst hindex
      have hreasoning : isReasoning e = item.reasoning := by
        rw [isReasoning, hkind, Item.reasoning, decide_eq_decide, Option.some.injEq]
      refine ⟨id, item.index, final, hasId, hcarries, hfound, hfinal.hasId, hplace,
        hfinal.hasKind.trans hkind.symm, fun d hd hname => htracked.named_index hd hname hitem, ?_⟩
      obtain ⟨parts, hparts, htexts⟩ := hfinal.parts
      rw [hreasoning]
      refine ⟨parts, hparts, fun d hd hname => ?_⟩
      obtain ⟨j, hj, hat⟩ := (htracked.item id item hitem).inParts d hd hname
      obtain ⟨first, deltas, hfilter, hfirst, hdeltas, htext⟩ :=
        (htracked.item id item hitem).part j _ (List.getElem?_eq_getElem hj)
      obtain ⟨part, hpart, hsame⟩ := htexts j _ (List.getElem?_eq_getElem hj)
      refine ⟨j, part, hat, hpart, ?_⟩
      rw [deltasOf_part hfilter hfirst hdeltas, htext, hsame]

/-- A message that was announced at an index, with no parts yet. -/
def announcement (index : Nat) (id : String) : Json :=
  itemAdded index (Json.ofFields [("id", .string id), ("type", .string "message"),
    ("role", .string "assistant"), ("status", .string "in_progress"), ("content", .array [])])

def message (id : String) (texts : List String) : Json :=
  Json.ofFields [("id", .string id), ("type", .string "message"),
    ("content", .array (texts.map fun text => Json.ofFields [("text", .string text)]))]

def responseOf (output : List Json) : Json :=
  Json.ofFields [("id", .string "r"), ("output", .array output)]

/-- One part of one message, published where it ends. -/
def shown : List (List Json) :=
  [[announcement 0 "m"],
    [partAdded false "m" 0 0
        (Json.ofFields [("type", .string "output_text"), ("text", .string "")]),
      textDelta false "m" 0 0 "shown".toList]]

def announcedAt (index : Nat) (parts : List String) : OrderedMap String Item :=
  OrderedMap.empty.insert "m" { kind := "message", index, parts }

theorem progress_bound_shown :
    Bound shown.flatten (responseOf [message "m" ["shown"]]) [message "m" ["shown"]] := by
  have hobserve : observeBatches shown 4096 =
      .ok { items := announcedAt 0 ["shown"], bytes := 373, created := none } := by
    decide +kernel
  have hplace : ∀ e ∈ shown.flatten, isAdded e = true → atIndex e 0 = true := by decide +kernel
  refine (progress_bound_iff hobserve (by decide +kernel) (by decide +kernel)).2
    fun e he hadded i other hother _ => ?_
  obtain ⟨hlt, -⟩ := List.getElem?_eq_some_iff.1 hother
  rw [Nat.lt_one_iff.1 hlt]
  exact hplace e he hadded

/-- A message that was published at index one and ends at index zero is accepted. -/
theorem progress_bound_moved :
    ∃ progress, observeBatches [[announcement 1 "m"]] 4096 = .ok progress ∧
      progress.finish (responseOf [message "m" []]) = .ok () ∧
      (responseOf [message "m" []]).lookup "output" = .array [message "m" []] ∧
      ¬ Bound [announcement 1 "m"] (responseOf [message "m" []]) [message "m" []] := by
  refine ⟨{ items := announcedAt 1 [], bytes := 144, created := none }, by decide +kernel,
    by decide +kernel, by decide +kernel, fun hbound => ?_⟩
  obtain ⟨id, index, final, hitem⟩ := hbound.item _ (List.mem_singleton_self _) (by decide)
  have hindex : index = 1 := (ofNat_field_inj (hitem.carries.symm.trans (by decide)))
  have hfound := hitem.found
  rw [hindex] at hfound
  cases hfound

end Binding

end ResponseGateway.Codecs
