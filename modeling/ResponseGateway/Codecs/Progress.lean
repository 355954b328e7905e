import ResponseGateway.Codecs.Verification

/-!
What progress that was accepted looks like. An item is announced once; the events that
carry its index are the announcement and those that name it, and for each part of it
these are the announcement of the part and deltas whose texts make up what is remembered.
-/

namespace ResponseGateway.Codecs
open Checked Ir Adapters

/-- What an accepted event does. -/
inductive Observes (self : Progress) (event : Json) : Progress → Prop where
  | created {bytes : Nat} {id : String} (type : typeOf event = some "response.created")
      (first : self.created = none) (none : self.items = .empty)
      (noIndex : event.field "output_index" = Option.none)
      (noName : event.field "item_id" = Option.none)
      (named : (event.lookup "response").fieldStr "id" = some id) :
      Observes self event { self with bytes, created := some id }
  | added {bytes index : Nat} {id kind : String}
      (type : typeOf event = some "response.output_item.added")
      (known : kind = "message" ∨ kind = "reasoning")
      (noName : event.field "item_id" = Option.none)
      (carries : event.field "output_index" = some (.number (.ofNat index)))
      (hasId : announced event "id" = some id) (hasKind : announced event "type" = some kind)
      (later : ∀ other item, self.items.get other = some item → item.index < index)
      (fresh : self.items.get id = Option.none) :
      Observes self event
        { self with bytes, items := self.items.insert id { kind, index, parts := [] } }
  | partAdded {bytes : Nat} {id : String} {item : Item} {reasoning : Bool}
      (type : typeOf event = some (partPrefix reasoning ++ ".added"))
      (found : self.items.get id = some item) (named : event.fieldStr "item_id" = some id)
      (carries : event.field "output_index" = some (.number (.ofNat item.index)))
      (family : reasoning = decide (item.kind = "reasoning"))
      (next : event.field (indexKey reasoning) = some (.number (.ofNat item.parts.length))) :
      Observes self event { self with
        bytes, items := self.items.insert id { item with parts := item.parts ++ [""] } }
  | textDelta {bytes index : Nat} {id text : String} {item : Item} {reasoning : Bool}
      (type : typeOf event = some (textPrefix reasoning ++ ".delta"))
      (found : self.items.get id = some item) (named : event.fieldStr "item_id" = some id)
      (carries : event.field "output_index" = some (.number (.ofNat item.index)))
      (family : reasoning = decide (item.kind = "reasoning"))
      (part : event.field (indexKey reasoning) = some (.number (.ofNat index)))
      (opened : item.parts[index]? = some text) :
      Observes self event { self with
        bytes
        items := self.items.insert id
          { item with parts := item.parts.set index (text ++ deltaOf event) } }

section Inversion

variable {self self' : Progress} {event : Json} {maximum : Nat}

theorem observeCreated_ok {bytes : Nat} (type : typeOf event = some "response.created")
    (h : Progress.observeCreated event { self with bytes } = .ok self') :
    Observes self event self' := by
  simp only [Progress.observeCreated, bind_ok, rejectIf_ok, pure_ok, Bool.or_eq_false_iff,
    string_ok, Bool.not_eq_false', List.isEmpty_iff, Option.isSome_eq_false_iff,
    Option.isNone_iff_eq_none] at h
  obtain ⟨_, hknown, _, ⟨hfirst, hnone⟩, id, hid, _, -, rfl⟩ := h
  exact .created type hfirst (OrderedMap.ext_entries hnone) (knownFields_ok hknown (by decide))
    (knownFields_ok hknown (by decide)) hid

theorem observeAdded_ok {bytes : Nat} (type : typeOf event = some "response.output_item.added")
    (h : Progress.observeAdded event { self with bytes } = .ok self') :
    Observes self event self' := by
  simp only [Progress.observeAdded, bind_ok, rejectIf_ok, pure_ok, okOr_ok, string_ok,
    Bool.or_eq_false_iff, Bool.not_eq_false', Bool.or_eq_true, decide_eq_true_eq,
    OrderedMap.any_values_eq_false, decide_eq_false_iff_not, Nat.not_le,
    OrderedMap.contains_eq_false] at h
  obtain ⟨_, hknown, kind, hkind, _, hmember, _, -, _, -, index, hindex, _, ⟨⟨-, hlater⟩, -⟩, id,
    hid, _, hfresh, rfl⟩ := h
  exact .added type hmember (knownFields_ok hknown (by decide)) (field_of_asU64 hindex) hid hkind
    hlater hfresh

theorem observePart_ok {bytes : Nat} (reasoning : Bool) (added : Bool)
    (type : typeOf event = some (if added then partPrefix reasoning ++ ".added"
      else textPrefix reasoning ++ ".delta"))
    (h : Progress.observePart reasoning added event { self with bytes } = .ok self') :
    Observes self event self' := by
  simp only [Progress.observePart, bind_ok, rejectIf_ok, okOr_ok, string_ok,
    Bool.or_eq_false_iff, decide_eq_false_iff_not, ne_eq, not_not, bne_eq_false_iff_eq] at h
  obtain ⟨_, -, id, hid, item, hitem, _, ⟨hindex, hfamily⟩, index, hpart, h⟩ := h
  cases added with
  | true =>
      simp only [if_true, bind_ok, rejectIf_ok, pure_ok, Bool.or_eq_false_iff,
        decide_eq_false_iff_not, not_not] at h type
      obtain ⟨_, -, _, ⟨⟨-, hnext⟩, -⟩, rfl⟩ := h
      exact .partAdded type hitem hid (field_of_asU64 hindex) hfamily.symm
        (hnext ▸ field_of_asU64 hpart)
  | false =>
      simp only [Bool.false_eq_true, if_false, bind_ok, okOr_ok, string_ok, pure_ok] at h type
      obtain ⟨text, htext, delta, hdelta, rfl⟩ := h
      have hsame : deltaOf event = delta := by rw [deltaOf, hdelta, Option.getD_some]
      exact hsame ▸ .textDelta type hitem hid (field_of_asU64 hindex) hfamily.symm
        (field_of_asU64 hpart) htext

theorem observeEvent_ok (h : Progress.observeEvent maximum self event = .ok self') :
    Observes self event self' := by
  simp only [Progress.observeEvent, bind_ok, string_ok] at h
  obtain ⟨_, -, type, htype, h⟩ := h
  split at h
  · exact observeCreated_ok htype h
  · exact observeAdded_ok htype h
  · exact observePart_ok false true (htype.trans (by decide)) h
  · exact observePart_ok true true (htype.trans (by decide)) h
  · exact observePart_ok false false (htype.trans (by decide)) h
  · exact observePart_ok true false (htype.trans (by decide)) h
  · cases h

end Inversion

section Tracking

def Item.reasoning (item : Item) : Bool := item.kind = "reasoning"

/-- The events about an item, so far. -/
structure TrackedItem (events : List Json) (id : String) (item : Item) : Prop where
  known : item.kind = "message" ∨ item.kind = "reasoning"
  started : ∃ first, events.filter (atIndex · item.index) = first :: events.filter (names · id) ∧
    typeOf first = some "response.output_item.added" ∧ announced first "id" = some id ∧
    announced first "type" = some item.kind
  inParts : ∀ e ∈ events, names e id = true →
    ∃ j < item.parts.length, atPart e item.reasoning j = true
  part : ∀ j text, item.parts[j]? = some text → ∃ first deltas,
    events.filter (fun e => names e id && atPart e item.reasoning j) = first :: deltas ∧
    typeOf first = some (partPrefix item.reasoning ++ ".added") ∧
    (∀ d ∈ deltas, typeOf d = some (textPrefix item.reasoning ++ ".delta")) ∧
    textOf deltas = text

/-- An event that was accepted, and what it is about. -/
inductive Known (self : Progress) (event : Json) : Prop where
  | created {id : String} (type : typeOf event = some "response.created")
      (noIndex : event.field "output_index" = none) (noName : event.field "item_id" = none)
      (named : (event.lookup "response").fieldStr "id" = some id) (same : self.created = some id)
  | added {id : String} {item : Item} (type : typeOf event = some "response.output_item.added")
      (found : self.items.get id = some item) (hasId : announced event "id" = some id)
      (noName : event.field "item_id" = none)
      (carries : event.field "output_index" = some (.number (.ofNat item.index)))
  | part {id : String} {item : Item}
      (type : typeOf event = some (partPrefix item.reasoning ++ ".added") ∨
        typeOf event = some (textPrefix item.reasoning ++ ".delta"))
      (found : self.items.get id = some item) (named : event.fieldStr "item_id" = some id)
      (carries : event.field "output_index" = some (.number (.ofNat item.index)))

structure Tracked (events : List Json) (progress : Progress) : Prop where
  item : ∀ id item, progress.items.get id = some item → TrackedItem events id item
  distinct : ∀ id id' item item', progress.items.get id = some item →
    progress.items.get id' = some item' → item.index = item'.index → id = id'
  known : ∀ e ∈ events, Known progress e
  created : progress.created.isSome = true → ∃ e ∈ events, typeOf e = some "response.created"

theorem tracked_default : Tracked [] Progress.default where
  item := by simp [Progress.default]
  distinct := by simp [Progress.default]
  known := by simp
  created := by simp [Progress.default]

variable {self : Progress} {events : List Json} {event : Json} {id : String} {item : Item}

/-- An event about something else. -/
theorem TrackedItem.other (h : TrackedItem events id item)
    (hindex : atIndex event item.index = false) (hname : names event id = false) :
    TrackedItem (events ++ [event]) id item where
  known := h.known
  started := by
    obtain ⟨first, hfirst, hrest⟩ := h.started
    refine ⟨first, ?_, hrest⟩
    simp only [List.filter_append, hfirst, List.filter_cons, hindex, hname, Bool.false_eq_true,
      if_false, List.filter_nil, List.append_nil]
  inParts := by
    intro e he hnames
    rcases List.mem_append.1 he with he | he
    · exact h.inParts e he hnames
    · rw [List.mem_singleton.1 he, hname] at hnames
      cases hnames
  part := by
    intro j text hj
    obtain ⟨first, deltas, hfilter, hrest⟩ := h.part j text hj
    refine ⟨first, deltas, ?_, hrest⟩
    simp only [List.filter_append, hfilter, List.filter_cons, hname, Bool.false_and,
      Bool.false_eq_true, if_false, List.filter_nil, List.append_nil]

/-- An event that names the item, with the parts it leads to. -/
theorem TrackedItem.named (h : TrackedItem events id item) {parts : List String}
    (hindex : atIndex event item.index = true) (hname : names event id = true)
    (hlength : item.parts.length ≤ parts.length)
    (hpart : ∃ j < parts.length, atPart event item.reasoning j = true)
    (part : ∀ j text, parts[j]? = some text → ∃ first deltas,
      (events ++ [event]).filter (fun e => names e id && atPart e item.reasoning j) =
        first :: deltas ∧
      typeOf first = some (partPrefix item.reasoning ++ ".added") ∧
      (∀ d ∈ deltas, typeOf d = some (textPrefix item.reasoning ++ ".delta")) ∧
      textOf deltas = text) :
    TrackedItem (events ++ [event]) id { item with parts } where
  known := h.known
  started := by
    obtain ⟨first, hfirst, hrest⟩ := h.started
    refine ⟨first, ?_, hrest⟩
    simp only [List.filter_append, hfirst, List.filter_cons, hindex, hname, if_true,
      List.filter_nil, List.cons_append]
  inParts := by
    intro e he hnames
    rcases List.mem_append.1 he with he | he
    · obtain ⟨j, hj, hat⟩ := h.inParts e he hnames
      exact ⟨j, hj.trans_le hlength, hat⟩
    · rw [List.mem_singleton.1 he]
      exact hpart
  part := part

theorem Known.mono {self' : Progress} (h : Known self event)
    (items : ∀ id item, self.items.get id = some item → ∃ item',
      self'.items.get id = some item' ∧ item'.index = item.index ∧ item'.kind = item.kind)
    (created : ∀ id, self.created = some id → self'.created = some id) : Known self' event := by
  cases h with
  | created type noIndex noName named same => exact .created type noIndex noName named (created _ same)
  | added type found hasId noName carries =>
      obtain ⟨item', hfound, hindex, -⟩ := items _ _ found
      exact .added type hfound hasId noName (hindex ▸ carries)
  | @part id item type found named carries =>
      obtain ⟨item', hfound, hindex, hkind⟩ := items _ _ found
      have hreasoning : item'.reasoning = item.reasoning := by rw [Item.reasoning, hkind]; rfl
      exact .part (hreasoning ▸ type) hfound named (hindex ▸ carries)

/-- The types of events about parts. -/
def PartType (type : String) : Prop := ∃ reasoning : Bool,
  type = partPrefix reasoning ++ ".added" ∨ type = textPrefix reasoning ++ ".delta"

theorem PartType.ne {type : String} (h : PartType type) :
    type ≠ "response.created" ∧ type ≠ "response.output_item.added" := by
  obtain ⟨reasoning, rfl | rfl⟩ := h <;> cases reasoning <;> decide

theorem Known.created_of_type (h : Known self event)
    (htype : typeOf event = some "response.created") :
    ∃ id, (event.lookup "response").fieldStr "id" = some id ∧ self.created = some id := by
  cases h with
  | created _ _ _ named same => exact ⟨_, named, same⟩
  | added type => exact absurd (htype.symm.trans type) (by decide)
  | part type =>
      rw [htype, Option.some.injEq, Option.some.injEq] at type
      exact absurd rfl (PartType.ne ⟨_, type⟩).1

theorem Known.added_of_type (h : Known self event) (htype : isAdded event = true) :
    ∃ id item, self.items.get id = some item ∧ announced event "id" = some id ∧
      event.field "item_id" = none ∧
      event.field "output_index" = some (.number (.ofNat item.index)) := by
  have htype : typeOf event = some "response.output_item.added" := of_decide_eq_true htype
  cases h with
  | created type => exact absurd (htype.symm.trans type) (by decide)
  | added _ found hasId noName carries => exact ⟨_, _, found, hasId, noName, carries⟩
  | part type =>
      rw [htype, Option.some.injEq, Option.some.injEq] at type
      exact absurd rfl (PartType.ne ⟨_, type⟩).2

/-- The events so far carry the indices of items. -/
theorem Known.index_of_mem (h : Known self event) {k : Nat} (hk : atIndex event k = true) :
    ∃ id item, self.items.get id = some item ∧ item.index = k := by
  cases h with
  | created _ noIndex =>
      rw [not_atIndex noIndex] at hk
      cases hk
  | added _ found _ _ carries | part _ found _ carries =>
      rw [atIndex_of carries, decide_eq_true_eq] at hk
      exact ⟨_, _, found, hk.symm⟩

theorem Known.item_of_names (h : Known self event) (hid : names event id = true) :
    ∃ item, self.items.get id = some item := by
  cases h with
  | created _ _ noName | added _ _ _ noName =>
      rw [not_names noName] at hid
      cases hid
  | part _ found named =>
      rw [names_of named, decide_eq_true_eq] at hid
      exact ⟨_, hid ▸ found⟩

theorem Tracked.created_step (h : Tracked events self) {bytes : Nat}
    (type : typeOf event = some "response.created") (first : self.created = none)
    (none : self.items = .empty) (noIndex : event.field "output_index" = Option.none)
    (noName : event.field "item_id" = Option.none)
    (named : (event.lookup "response").fieldStr "id" = some id) :
    Tracked (events ++ [event]) { self with bytes, created := some id } where
  item := by simp [none]
  distinct := h.distinct
  known := by
    intro e he
    rcases List.mem_append.1 he with he | he
    · refine (h.known e he).mono (fun id item hitem => ⟨item, hitem, rfl, rfl⟩) fun id hid => ?_
      rw [first] at hid
      cases hid
    · rw [List.mem_singleton.1 he]
      exact .created type noIndex noName named rfl
  created := fun _ => ⟨event, by simp, type⟩

theorem Tracked.added_step (h : Tracked events self) {bytes index : Nat} {kind : String}
    (type : typeOf event = some "response.output_item.added")
    (known : kind = "message" ∨ kind = "reasoning") (noName : event.field "item_id" = none)
    (carries : event.field "output_index" = some (.number (.ofNat index)))
    (hasId : announced event "id" = some id) (hasKind : announced event "type" = some kind)
    (later : ∀ other item, self.items.get other = some item → item.index < index)
    (fresh : self.items.get id = none) :
    Tracked (events ++ [event])
      { self with bytes, items := self.items.insert id { kind, index, parts := [] } } where
  item := by
    intro id' item hitem
    rw [OrderedMap.get_insert] at hitem
    split at hitem
    · next heq =>
        subst heq
        cases hitem
        have hindex : events.filter (atIndex · index) = [] := by
          refine List.filter_eq_nil_iff.2 fun e he hat => ?_
          obtain ⟨other, item, hfound, heq⟩ := (h.known e he).index_of_mem hat
          exact absurd heq (later other item hfound).ne
        have hnames : ∀ e ∈ events, names e id = false := by
          intro e he
          refine Bool.eq_false_iff.2 fun hname => ?_
          obtain ⟨item, hitem⟩ := (h.known e he).item_of_names hname
          rw [fresh] at hitem
          cases hitem
        refine { known := known, started := ⟨event, ?_, type, hasId, hasKind⟩, inParts := ?_,
                 part := by simp }
        · have hnone : events.filter (names · id) = [] :=
            List.filter_eq_nil_iff.2 fun e he => by simp [hnames e he]
          simp only [List.filter_append, hindex, hnone, List.filter_cons, atIndex_of carries,
            decide_true, if_true, not_names noName, Bool.false_eq_true, if_false, List.filter_nil,
            List.nil_append]
        · intro e he hname
          rcases List.mem_append.1 he with he | he
          · rw [hnames e he] at hname
            cases hname
          · rw [List.mem_singleton.1 he, not_names noName] at hname
            cases hname
    · refine (h.item id' item hitem).other ?_ (not_names noName)
      rw [atIndex_of carries, decide_eq_false_iff_not]
      exact (later id' item hitem).ne
  distinct := by
    intro a b item item' ha hb hindex
    rw [OrderedMap.get_insert] at ha hb
    split at ha <;> split at hb
    · next hid hid' => exact hid.symm.trans hid'
    · cases ha
      exact absurd hindex.symm (later b item' hb).ne
    · cases hb
      exact absurd hindex (later a item ha).ne
    · exact h.distinct a b item item' ha hb hindex
  known := by
    intro e he
    rcases List.mem_append.1 he with he | he
    · refine (h.known e he).mono (fun id' item hitem => ?_) fun _ hid => hid
      exact ⟨item, OrderedMap.get_insert_of_some fresh hitem, rfl, rfl⟩
    · rw [List.mem_singleton.1 he]
      exact .added type (OrderedMap.get_insert_self _ _ _) hasId noName carries
  created := by
    intro hcreated
    obtain ⟨e, he, htype⟩ := h.created hcreated
    exact ⟨e, List.mem_append_left _ he, htype⟩

/-- An event that names an item and changes its parts. -/
theorem Tracked.part_step (h : Tracked events self) {bytes : Nat} {parts : List String}
    (type : typeOf event = some (partPrefix item.reasoning ++ ".added") ∨
      typeOf event = some (textPrefix item.reasoning ++ ".delta"))
    (found : self.items.get id = some item) (named : event.fieldStr "item_id" = some id)
    (carries : event.field "output_index" = some (.number (.ofNat item.index)))
    (tracked : TrackedItem (events ++ [event]) id { item with parts }) :
    Tracked (events ++ [event])
      { self with bytes, items := self.items.insert id { item with parts } } where
  item := by
    intro id' item' hitem
    rw [OrderedMap.get_insert] at hitem
    split at hitem
    · next heq =>
        subst heq
        cases hitem
        exact tracked
    · next hne =>
        refine (h.item id' item' hitem).other ?_ ?_
        · rw [atIndex_of carries, decide_eq_false_iff_not]
          exact fun heq => hne (h.distinct id id' item item' found hitem heq.symm)
        · rw [names_of named, decide_eq_false_iff_not]
          exact Ne.symm hne
  distinct := by
    have hold : ∀ a item', (self.items.insert id { item with parts }).get a = some item' →
        ∃ old, self.items.get a = some old ∧ old.index = item'.index := by
      intro a item' ha
      rw [OrderedMap.get_insert] at ha
      split at ha
      · next heq =>
          cases ha
          exact ⟨item, heq ▸ found, rfl⟩
      · exact ⟨item', ha, rfl⟩
    intro a b item₁ item₂ ha hb hindex
    obtain ⟨old, hold₁, heq₁⟩ := hold a item₁ ha
    obtain ⟨old', hold₂, heq₂⟩ := hold b item₂ hb
    exact h.distinct a b old old' hold₁ hold₂ (heq₁.trans (hindex.trans heq₂.symm))
  known := by
    intro e he
    rcases List.mem_append.1 he with he | he
    · refine (h.known e he).mono (fun id' item' hitem => ?_) fun _ hid => hid
      by_cases heq : id = id'
      · subst heq
        cases found.symm.trans hitem
        exact ⟨_, OrderedMap.get_insert_self _ _ _, rfl, rfl⟩
      · exact ⟨item', by rw [OrderedMap.get_insert_of_ne _ _ heq, hitem], rfl, rfl⟩
    · rw [List.mem_singleton.1 he]
      exact @Known.part _ _ _ { item with parts } type (OrderedMap.get_insert_self _ _ _) named
        carries
  created := by
    intro hcreated
    obtain ⟨e, he, htype⟩ := h.created hcreated
    exact ⟨e, List.mem_append_left _ he, htype⟩

theorem TrackedItem.partAdded (h : TrackedItem events id item)
    (type : typeOf event = some (partPrefix item.reasoning ++ ".added"))
    (named : event.fieldStr "item_id" = some id)
    (carries : event.field "output_index" = some (.number (.ofNat item.index)))
    (next : event.field (indexKey item.reasoning) = some (.number (.ofNat item.parts.length))) :
    TrackedItem (events ++ [event]) id { item with parts := item.parts ++ [""] } := by
  have hname : names event id = true := by rw [names_of named, decide_eq_true_eq]
  refine h.named (by rw [atIndex_of carries, decide_eq_true_eq]) hname (by simp)
    ⟨item.parts.length, by simp, by rw [atPart_of next, decide_eq_true_eq]⟩ fun j text hj => ?_
  rw [filter_part_snoc hname next]
  by_cases heq : j = item.parts.length
  · subst heq
    rw [List.getElem?_concat_length, Option.some.injEq] at hj
    subst hj
    -- nothing was known of this part before
    have hnone : events.filter (fun e => names e id && atPart e item.reasoning item.parts.length) =
        [] := by
      refine List.filter_eq_nil_iff.2 fun e he hboth => ?_
      obtain ⟨hname, hat⟩ := Bool.and_eq_true_iff.1 hboth
      obtain ⟨j, hj, hat'⟩ := h.inParts e he hname
      rw [atPart, decide_eq_true_eq] at hat hat'
      exact hj.ne (ofNat_field_inj (hat'.symm.trans hat))
    rw [hnone, if_pos rfl]
    exact ⟨event, [], rfl, type, by simp, rfl⟩
  · have hold : item.parts[j]? = some text := by
      rw [List.getElem?_append] at hj
      split at hj
      · exact hj
      · next hlt =>
          rw [List.getElem?_singleton, if_neg (by omega)] at hj
          cases hj
    rw [if_neg heq, List.append_nil]
    exact h.part j text hold

theorem TrackedItem.textDelta (h : TrackedItem events id item) {index : Nat} {text : String}
    (type : typeOf event = some (textPrefix item.reasoning ++ ".delta"))
    (named : event.fieldStr "item_id" = some id)
    (carries : event.field "output_index" = some (.number (.ofNat item.index)))
    (part : event.field (indexKey item.reasoning) = some (.number (.ofNat index)))
    (opened : item.parts[index]? = some text) :
    TrackedItem (events ++ [event]) id
      { item with parts := item.parts.set index (text ++ deltaOf event) } := by
  have hname : names event id = true := by rw [names_of named, decide_eq_true_eq]
  have hlt : index < item.parts.length := (List.getElem?_eq_some_iff.1 opened).1
  refine h.named (by rw [atIndex_of carries, decide_eq_true_eq]) hname (by simp)
    ⟨index, by simpa using hlt, by rw [atPart_of part, decide_eq_true_eq]⟩ fun j text' hj => ?_
  rw [filter_part_snoc hname part]
  by_cases heq : j = index
  · subst heq
    rw [List.getElem?_set_self hlt, Option.some.injEq] at hj
    subst hj
    obtain ⟨first, deltas, hfilter, hfirst, hdeltas, htext⟩ := h.part j text opened
    refine ⟨first, deltas ++ [event], by rw [hfilter, if_pos rfl]; rfl, hfirst, ?_, ?_⟩
    · intro d hd
      rcases List.mem_append.1 hd with hd | hd
      · exact hdeltas d hd
      · rw [List.mem_singleton.1 hd]
        exact type
    · rw [textOf_snoc, htext]
  · rw [List.getElem?_set_ne (Ne.symm heq)] at hj
    rw [if_neg heq, List.append_nil]
    exact h.part j text' hj

theorem Tracked.step (h : Tracked events self) {self' : Progress} (ho : Observes self event self') :
    Tracked (events ++ [event]) self' := by
  cases ho with
  | created type first none noIndex noName named =>
      exact h.created_step type first none noIndex noName named
  | added type known noName carries hasId hasKind later fresh =>
      exact h.added_step type known noName carries hasId hasKind later fresh
  | partAdded type found named carries family next =>
      subst family
      exact h.part_step (.inl type) found named carries
        ((h.item _ _ found).partAdded type named carries next)
  | textDelta type found named carries family part opened =>
      subst family
      exact h.part_step (.inr type) found named carries
        ((h.item _ _ found).textDelta type named carries part opened)

/-- Progress that was accepted event by event is tracked. -/
theorem tracked_observe {maximum : Nat} {progress : Progress}
    (h : Progress.default.observe events maximum = .ok progress) : Tracked events progress :=
  foldlM_rule h tracked_default fun _ _ _ _ _ _ hs hevent => hs.step (observeEvent_ok hevent)

end Tracking

end ResponseGateway.Codecs
