import ResponseGateway.Adapters.ChatDecoding
import ResponseGateway.Adapters.ChatStream
import ResponseGateway.Adapters.ResponsesStreamRuns

/-!
What an accepted chunk does to a Chat stream. `ChatView` keeps what decides about later
events, `Spoken` says what was emitted of a text, and `Flushed` what is emitted of an item
when the reason for the end is known.
-/

namespace ResponseGateway.Adapters
open Checked Ir Request Method
open Json (ofFields)
open PreparedChat (given said itemName)

/-- The part of a stream that decides what it publishes. -/
structure ChatView where
  prepared : PreparedChat
  id : Option String
  created : Option Nat
  text : Option String
  calls : OrderedMap Nat ToolFragments
  finishReason : Option String
  finalResponse : Option Json
  usage : Option Json
  sequence : Nat
  failed : Bool
  done : Bool

def ChatStream.view (s : ChatStream) : ChatView :=
  { prepared := s.prepared, id := s.id, created := s.created, text := s.text, calls := s.calls
    finishReason := s.finishReason, finalResponse := s.finalResponse, usage := s.usage
    sequence := s.sequence, failed := s.failed, done := s.done }

/-- An event with a type and a number, and otherwise as it was. -/
def Typed (n : Nat) (type : String) (event event' : Json) : Prop :=
  ∀ key, event'.field key =
    if "sequence_number" = key then some (.number (.ofNat n))
    else if "type" = key then some (.string type) else event.field key

namespace Typed

variable {n : Nat} {type : String} {event event' : Json}

theorem field (h : Typed n type event event') {key : String} (hnumber : "sequence_number" ≠ key)
    (htype : "type" ≠ key) : event'.field key = event.field key := by
  rw [h key, if_neg hnumber, if_neg htype]

theorem fieldStr (h : Typed n type event event') {key : String} (hnumber : "sequence_number" ≠ key)
    (htype : "type" ≠ key) : event'.fieldStr key = event.fieldStr key := by
  rw [Json.fieldStr, h.field hnumber htype, Json.fieldStr]

theorem lookup (h : Typed n type event event') {key : String} (hnumber : "sequence_number" ≠ key)
    (htype : "type" ≠ key) : event'.lookup key = event.lookup key := by
  rw [Json.lookup, h.field hnumber htype, Json.lookup]

theorem typeOf (h : Typed n type event event') : typeOf event' = some type := by
  rw [Adapters.typeOf, Json.fieldStr, h, if_neg (by decide), if_pos rfl]
  rfl

theorem number (h : Typed n type event event') :
    event'.field "sequence_number" = some (.number (.ofNat n)) := by
  rw [h, if_pos rfl]

end Typed

/-- The numbers of some events, from one on. -/
def Numbers (n : Nat) (events : List Json) : Prop :=
  events.map (·.field "sequence_number") =
    (List.range' n events.length).map fun k => some (.number (.ofNat k))

theorem Numbers.nil (n : Nat) : Numbers n [] := rfl

theorem Numbers.append {n : Nat} {events events' : List Json} (h : Numbers n events)
    (h' : Numbers (n + events.length) events') : Numbers n (events ++ events') := by
  rw [Numbers, List.map_append, List.length_append, ← List.range'_append_1, List.map_append, h, h']

theorem Numbers.one {n : Nat} {type : String} {event event' : Json} (h : Typed n type event event') :
    Numbers n [event'] := by
  rw [Numbers, List.map_singleton, h.number]
  rfl

namespace ChatStream

variable {texts : Texts} {s s' : ChatStream} {events : List Json}

section Primitives

variable {α : Type}

@[simp] theorem ensure_accepts {x : Except IrError α} {a : α} :
    (ensure x : ChatMethod α) s = (.ok a, s') ↔ x = .ok a ∧ s = s' := by
  simp [ensure]

theorem ensure_bind_accepts {β : Type} {x : Except IrError α} {f : α → ChatMethod β} {b : β} :
    (ensure x >>= f) s = (.ok b, s') ↔ ∃ a, x = .ok a ∧ f a s = (.ok b, s') := by
  simp only [ensure, check_bind_accepts, lift_ok]

theorem validate_accepts {event : EventIR} {u : Unit} (h : validate texts event s = (.ok u, s')) :
    s'.view = s.view := by
  obtain ⟨validator, -, rfl⟩ := zoom_accepts.1 h
  rfl

theorem reserve_accepts {bytes : Nat} {u : Unit} (h : reserve bytes s = (.ok u, s')) :
    s'.view = s.view := by
  simp only [reserve, read_bind_accepts, ensure_bind_accepts, write_accepts] at h
  obtain ⟨_, -, rfl⟩ := h
  rfl

theorem emit_accepts {type : String} {event event' : Json}
    (h : emit type event s = (.ok event', s')) :
    Typed s.view.sequence type event event' ∧
      s'.view = { s.view with sequence := s.view.sequence + 1 } := by
  simp only [emit, read_bind_accepts, check_bind_accepts, write_bind_accepts, pure_accepts] at h
  obtain ⟨typed, htyped, _, hset, _, -, rfl, rfl⟩ := h
  refine ⟨fun key => ?_, rfl⟩
  rw [Json.field_setAt hset, Json.field_setAt htyped]
  rfl

end Primitives

section Text

/-- How a message is opened. -/
structure Opens (id : String) (added part : Json) : Prop where
  opens : isAdded added = true
  named : announced added "id" = some id
  carries : added.field "output_index" = some (.number (.ofNat 0))
  content : ContentEvent part id 0
  partType : typeOf part = some "response.content_part.added"
  message : announced added "type" = some "message"

/-- What was emitted of a text. -/
inductive Spoken (id : String) : Option String → List Json → Prop where
  | silent : Spoken id none []
  | said {added part : Json} {deltas : List Json} (opens : Opens id added part)
      (content : ∀ e ∈ deltas, ContentEvent e id 0 ∧
        typeOf e = some "response.output_text.delta" ∧
        e.field "content_index" = some (.number (.ofNat 0))) :
      Spoken id (some (textOf deltas)) (added :: part :: deltas)

variable {item : ItemId} {id : String}

/-- An event about the part of the message is one about its content. -/
theorem content_partEvent {n : Nat} {place : Nat} {type : String} {fields : Json.Fields}
    {event : Json} (hmem : type ∈ partTypes)
    (h : Typed n type (partEvent item place fields) event) : ContentEvent event item.value place := by
  refine ⟨⟨type, List.mem_append_right _ hmem, h.typeOf⟩, ?_, ?_⟩
  · rw [h.fieldStr (by decide) (by decide)]
    simp [partEvent, Json.fieldStr, Json.asStr]
  · rw [h.field (by decide) (by decide)]
    simp [partEvent]

theorem announce_accepts (h : announce texts item s = (.ok events, s')) :
    s.text.isSome = true ∧ events = [] ∧ s' = s ∨
      s.text = none ∧ Numbers s.view.sequence events ∧
        s'.view = { s.view with text := some "", sequence := s.view.sequence + events.length } ∧
        Spoken item.value (some "") events := by
  simp only [announce, read_bind_accepts] at h
  split at h
  · next hnone =>
      rw [Option.isNone_iff_eq_none] at hnone
      obtain ⟨_, hroom, h⟩ := ensure_bind_accepts.1 h
      obtain ⟨_, s₁, hitem, h⟩ := bind_accepts.1 h
      obtain ⟨_, s₂, hpart, h⟩ := bind_accepts.1 h
      rw [write_bind_accepts] at h
      obtain ⟨added, s₃, hadded, h⟩ := bind_accepts.1 h
      obtain ⟨part, s₄, hpart', h⟩ := bind_accepts.1 h
      rw [pure_accepts] at h
      obtain ⟨rfl, rfl⟩ := h
      obtain ⟨htyped, hview⟩ := emit_accepts hadded
      obtain ⟨htyped', hview'⟩ := emit_accepts hpart'
      have hbefore : s₂.view = s.view := (validate_accepts hpart).trans (validate_accepts hitem)
      have hsequence : s₂.sequence = s.sequence := congrArg ChatView.sequence hbefore
      have hview₃ : s₃.view = { s.view with text := some "", sequence := s.sequence + 1 } := by
        rw [hview]
        change { s₂.view with text := some "", sequence := s₂.sequence + 1 } = _
        rw [hbefore, hsequence]
      change Typed s₂.sequence _ _ _ at htyped
      rw [hsequence] at htyped
      rw [hview₃] at htyped' hview'
      refine .inr ⟨hnone, (Numbers.one htyped).append (Numbers.one htyped'), hview', ?_⟩
      refine @Spoken.said item.value added part [] ⟨?_, ?_, ?_, ?_, htyped'.typeOf, ?_⟩ (by simp)
      · rw [isAdded, htyped.typeOf]
        rfl
      · rw [announced, htyped.lookup (by decide) (by decide)]
        simp [messageAdded, Json.lookup, Json.fieldStr, Json.asStr]
      · rw [htyped.field (by decide) (by decide)]
        simp [messageAdded]
      · exact content_partEvent (by decide) htyped'
      · rw [announced, htyped.lookup (by decide) (by decide)]
        simp [messageAdded, Json.lookup, Json.fieldStr, Json.asStr]
  · next hsome =>
      obtain ⟨rfl, rfl⟩ := pure_accepts.1 h
      rw [Bool.not_eq_true, Option.isNone_eq_false_iff] at hsome
      exact .inl ⟨hsome, rfl, rfl⟩

/-- A delta of the text. -/
theorem Spoken.delta {n : Nat} {known text : String} {before : List Json} {event : Json}
    (h : Spoken item.value (some known) before)
    (hevent : Typed n "response.output_text.delta"
      (partEvent item 0 [("delta", .string text), ("logprobs", .array [])]) event) :
    Spoken item.value (some (known ++ text)) (before ++ [event]) := by
  cases h with
  | @said added part deltas opens content =>
      have hdelta : deltaOf event = text := by
        rw [deltaOf, hevent.fieldStr (by decide) (by decide)]
        simp [partEvent, Json.fieldStr, Json.asStr]
      rw [← hdelta, ← textOf_snoc]
      refine .said opens fun e he => ?_
      rcases List.mem_append.1 he with he | he
      · exact content e he
      · rw [List.mem_singleton.1 he]
        refine ⟨content_partEvent (by decide) hevent, hevent.typeOf, ?_⟩
        rw [hevent.field (by decide) (by decide)]
        simp [partEvent]

theorem textDelta_accepts {text : String} (h : textDelta texts text s = (.ok events, s')) :
    ∃ id, s.id = some id ∧ Numbers s.view.sequence events ∧
      s'.view = { s.view with
        text := some (s.text.getD "" ++ text), sequence := s.view.sequence + events.length } ∧
      ∀ before, Spoken (itemName id 0) s.text before →
        Spoken (itemName id 0) (some (s.text.getD "" ++ text)) (before ++ events) := by
  rw [textDelta] at h
  obtain ⟨_, s₁, hreserve, h⟩ := bind_accepts.1 h
  simp only [read_bind_accepts, check_bind_accepts, ensure_bind_accepts, okOr_ok,
    Identity.new_ok] at h
  obtain ⟨id, hid, item, hitem, h⟩ := h
  obtain ⟨opening, s₂, hopening, h⟩ := bind_accepts.1 h
  obtain ⟨_, s₃, hvalidate, h⟩ := bind_accepts.1 h
  simp only [read_bind_accepts, check_bind_accepts, okOr_ok, write_bind_accepts] at h
  obtain ⟨known, hknown, h⟩ := h
  have hview₁ : s₁.view = s.view := reserve_accepts hreserve
  have hview₃ : s₃.view = s₂.view := validate_accepts hvalidate
  have hknown' : s₂.text = some known := (congrArg ChatView.text hview₃).symm.trans hknown
  refine ⟨id, (congrArg ChatView.id hview₁).symm.trans hid, ?_⟩
  rw [← hitem]
  -- The message is announced, and has the known text, before the delta is emitted.
  have hopened : Numbers s.view.sequence opening ∧ s₂.view = { s.view with
        text := some (s.text.getD ""), sequence := s.view.sequence + opening.length } ∧
      ∀ before, Spoken item.value s.text before →
        Spoken item.value (some (s.text.getD "")) (before ++ opening) := by
    have htext : s₁.text = s.text := congrArg ChatView.text hview₁
    rcases announce_accepts hopening with ⟨hsome, rfl, rfl⟩ | ⟨hnone, hnumbers, hview, hspoken⟩
    · rw [htext, Option.isSome_iff_exists] at hsome
      obtain ⟨known, hsome⟩ := hsome
      refine ⟨Numbers.nil _, ?_, fun before hbefore => ?_⟩
      · rw [hview₁, hsome]
        exact congrArg (fun text => { s.view with text }) hsome
      · rw [List.append_nil, hsome, Option.getD_some, ← hsome]
        exact hbefore
    · rw [htext] at hnone
      rw [hview₁] at hnumbers hview
      rw [hnone]
      refine ⟨hnumbers, hview, fun before hbefore => ?_⟩
      cases hbefore
      exact hspoken
  obtain ⟨hnumbers, hview₂, hspoken⟩ := hopened
  have hgetD : known = s.text.getD "" :=
    Option.some.inj (hknown'.symm.trans (congrArg ChatView.text hview₂))
  rw [← hgetD] at hview₂ hspoken ⊢
  rw [hview₂] at hview₃
  split at h
  · next htext =>
      obtain ⟨event, s₄, hemit, h⟩ := bind_accepts.1 h
      obtain ⟨rfl, rfl⟩ := pure_accepts.1 h
      obtain ⟨htyped, hview⟩ := emit_accepts hemit
      have hsequence : s₃.sequence = s.view.sequence + opening.length :=
        congrArg ChatView.sequence hview₃
      change Typed s₃.sequence _ _ _ at htyped
      rw [hsequence] at htyped
      refine ⟨hnumbers.append (Numbers.one htyped), ?_, fun before hbefore => ?_⟩
      · rw [hview, List.length_append]
        change { s₃.view with text := some (known ++ text), sequence := s₃.sequence + 1 } = _
        rw [hview₃, hsequence]
        rfl
      · rw [← List.append_assoc]
        exact (hspoken before hbefore).delta htyped
  · next htext =>
      obtain ⟨rfl, rfl⟩ := pure_accepts.1 h
      rw [ne_eq, not_not] at htext
      subst htext
      refine ⟨hnumbers, ?_, fun before hbefore => ?_⟩
      · change { s₃.view with text := some (known ++ "") } = _
        rw [hview₃]
      · rw [String.append_empty]
        exact hspoken before hbefore

end Text

section Advances

/-- Events that were emitted, when nothing else changed. -/
structure Advances (v : ChatView) (events : List Json) (v' : ChatView) : Prop where
  numbers : Numbers v.sequence events
  view : v' = { v with sequence := v.sequence + events.length }

variable {v v' v'' : ChatView} {events' : List Json}

theorem Advances.nil (v : ChatView) : Advances v [] v := ⟨.nil _, rfl⟩

theorem Advances.append (h : Advances v events v') (h' : Advances v' events' v'') :
    Advances v (events ++ events') v'' := by
  have hnumbers := h'.numbers
  rw [h.view] at hnumbers
  refine ⟨h.numbers.append hnumbers, ?_⟩
  rw [h'.view, h.view, List.length_append, Nat.add_assoc]

theorem Advances.validate {event : EventIR} {u : Unit} (h : validate texts event s = (.ok u, s')) :
    Advances s.view [] s'.view := by
  rw [validate_accepts h]
  exact .nil _

theorem Advances.one {type : String} {event event' : Json}
    (h : emit type event s = (.ok event', s')) :
    Advances s.view [event'] s'.view ∧ ∃ n, Typed n type event event' := by
  obtain ⟨htyped, hview⟩ := emit_accepts h
  exact ⟨⟨.one htyped, hview⟩, _, htyped⟩

end Advances

section Tools

variable {item : Json} {n : Nat} {id : ItemId} {custom : Bool}

/-- A delta of the arguments of a tool. -/
def argumentsDelta (id : ItemId) (n : Nat) (chunk : Text) : Json :=
  ofFields [("item_id", .string id.value), ("output_index", .number (.ofNat n)),
    ("delta", .string (String.ofList chunk))]

theorem flushDeltas_accepts {chunks : List Text}
    (h : emitAll (flushDelta texts custom id n) chunks s = (.ok events, s')) :
    Advances s.view events s'.view ∧ List.Forall₂ (fun chunk e => ∃ k,
      Typed k (argumentsPrefix custom ++ ".delta") (argumentsDelta id n chunk) e) chunks events := by
  induction chunks generalizing s events with
  | nil =>
      rw [emitAll, pure_accepts] at h
      obtain ⟨rfl, rfl⟩ := h
      exact ⟨.nil _, .nil⟩
  | cons chunk rest ih =>
      rw [emitAll] at h
      obtain ⟨event, s₁, hflush, h⟩ := bind_accepts.1 h
      obtain ⟨more, s₂, hrest, h⟩ := bind_accepts.1 h
      obtain ⟨rfl, rfl⟩ := pure_accepts.1 h
      obtain ⟨_, s₃, hvalidate, hemit⟩ := bind_accepts.1 hflush
      obtain ⟨hone, htyped⟩ := Advances.one hemit
      obtain ⟨hmore, hevents⟩ := ih hrest
      exact ⟨((Advances.validate hvalidate).append hone).append hmore, .cons htyped hevents⟩

theorem textOf_typed {type : String} {chunks : List Text}
    (h : List.Forall₂ (fun chunk e => ∃ k, Typed k type (argumentsDelta id n chunk) e)
      chunks events) : textOf events = String.ofList chunks.flatten := by
  induction h with
  | nil => rfl
  | @cons chunk e rest events htyped _ ih =>
      obtain ⟨k, htyped⟩ := htyped
      have hdelta : deltaOf e = String.ofList chunk := by
        rw [deltaOf, htyped.fieldStr (by decide) (by decide)]
        simp [argumentsDelta, Json.fieldStr, Json.asStr]
      rw [textOf, List.map_cons, String.join_cons, hdelta, ← textOf, ih, List.flatten_cons,
        String.ofList_append]

theorem mem_typed {type : String} {chunks : List Text}
    (h : List.Forall₂ (fun chunk e => ∃ k, Typed k type (argumentsDelta id n chunk) e)
      chunks events) {event : Json} (hevent : event ∈ events) : typeOf event = some type ∧
      event.fieldStr "item_id" = some id.value ∧
      event.field "output_index" = some (.number (.ofNat n)) := by
  induction h with
  | nil => cases hevent
  | cons htyped _ ih =>
      rcases List.mem_cons.1 hevent with rfl | hrest
      · obtain ⟨k, htyped⟩ := htyped
        refine ⟨htyped.typeOf, ?_, ?_⟩
        · rw [htyped.fieldStr (by decide) (by decide)]
          simp [argumentsDelta, Json.fieldStr, Json.asStr]
        · rw [htyped.field (by decide) (by decide)]
          simp [argumentsDelta]
      · exact ih hrest

/-- The events of a tool, but for the last one. -/
theorem flushTool_accepts (hid : item.fieldStr "id" = some id.value) (htool : isTool item = true)
    (h : flushTool texts item id n s = (.ok events, s')) : Advances s.view events s'.view ∧
      ∃ added deltas argumentsDone, events = added :: (deltas ++ [argumentsDone]) ∧
        ResponsesStream.ToolAdded n id.value true [added] ∧ ∀ done, isDone done = true →
          done.field "output_index" = some (.number (.ofNat n)) → done.lookup "item" = item →
          ResponsesStream.ToolContent n id.value item deltas argumentsDone done := by
  simp only [flushTool, check_bind_accepts] at h
  obtain ⟨kind, -, h⟩ := h
  obtain ⟨_, s₁, hvalidate, h⟩ := bind_accepts.1 h
  simp only [check_bind_accepts] at h
  obtain ⟨middle, hmiddle, started, hstarted, h⟩ := h
  obtain ⟨added, s₂, hadded, h⟩ := bind_accepts.1 h
  simp only [check_bind_accepts, okOr_ok] at h
  obtain ⟨text, htext, h⟩ := h
  obtain ⟨deltas, s₃, hdeltas, h⟩ := bind_accepts.1 h
  obtain ⟨argumentsDone, s₄, hargs, h⟩ := bind_accepts.1 h
  obtain ⟨rfl, rfl⟩ := pure_accepts.1 h
  have hkey : argumentsKey (isCustom item) ≠ "id" ∧ argumentsKey (isCustom item) ≠ "type" := by
    cases isCustom item <;> decide
  have hkept : ∀ key, "status" ≠ key → argumentsKey (isCustom item) ≠ key →
      started.fieldStr key = item.fieldStr key := by
    intro key hstatus hother
    rw [Json.fieldStr, Json.field_setAt hstarted, if_neg hother, Json.field_setAt hmiddle,
      if_neg hstatus, Json.fieldStr]
  obtain ⟨hone, k, htyped⟩ := Advances.one hadded
  obtain ⟨hmore, hevents⟩ := flushDeltas_accepts hdeltas
  obtain ⟨hlast, j, htyped'⟩ := Advances.one hargs
  refine ⟨?_, added, deltas, argumentsDone, rfl, ?_, fun done hdone hindex hsame => ?_⟩
  · exact (Advances.validate hvalidate).append (hone.append (hmore.append hlast))
  · have hitem : added.lookup "item" = started := by
      rw [htyped.lookup (by decide) (by decide)]
      exact Json.lookup_of_field (by simp)
    refine .now ?_ ?_ ?_ ?_
    · rw [isAdded, htyped.typeOf]
      rfl
    · rw [htyped.field (by decide) (by decide)]
      simp
    · rw [announced, hitem, hkept "id" (by decide) hkey.1, hid]
    · rw [announced, hitem, hkept "type" (by decide) hkey.2]
      exact htool
  · refine ⟨fun e he => mem_typed hevents he, ?_, htyped'.typeOf, ?_, ?_, hdone, hindex, hsame⟩
    · rw [htext, textOf_typed hevents, flatten_eventTextChunks, String.ofList_toList]
    · rw [htyped'.fieldStr (by decide) (by decide)]
      simp [Json.fieldStr, Json.asStr]
    · rw [htyped'.field (by decide) (by decide)]
      simp

end Tools

section Flushing

variable {item : Json} {n : Nat}

/-- What is emitted of an item when the message is known. -/
inductive Flushed (n : Nat) (item : Json) : List Json → Prop where
  | message {id : String} {textDone partDone done : Json} (hasId : item.fieldStr "id" = some id)
      (type : item.fieldStr "type" = some "message") (text : ContentEvent textDone id n)
      (part : ContentEvent partDone id n)
      (noDelta : ∀ e ∈ [textDone, partDone], typeOf e ≠ some "response.output_text.delta")
      (finishes : isDone done = true) (carries : done.field "output_index" = some (.number (.ofNat n)))
      (same : done.lookup "item" = item) : Flushed n item [textDone, partDone, done]
  | tool {block : List Json} (tool : isTool item = true)
      (content : ResponsesStream.ToolBlock false n item block) : Flushed n item block

theorem flushText_accepts {id : ItemId} (h : flushText texts item id n s = (.ok events, s')) :
    Advances s.view events s'.view ∧ ∃ textDone partDone, events = [textDone, partDone] ∧
      ContentEvent textDone id.value n ∧ ContentEvent partDone id.value n ∧
      ∀ e ∈ events, typeOf e ≠ some "response.output_text.delta" := by
  rw [flushText] at h
  obtain ⟨_, s₁, hvalidate, h⟩ := bind_accepts.1 h
  obtain ⟨textDone, s₂, htext, h⟩ := bind_accepts.1 h
  obtain ⟨partDone, s₃, hpart, h⟩ := bind_accepts.1 h
  obtain ⟨rfl, rfl⟩ := pure_accepts.1 h
  obtain ⟨hone, k, htyped⟩ := Advances.one htext
  obtain ⟨hmore, j, htyped'⟩ := Advances.one hpart
  refine ⟨(Advances.validate hvalidate).append (hone.append hmore), textDone, partDone, rfl,
    content_partEvent (by decide) htyped, content_partEvent (by decide) htyped', fun e he => ?_⟩
  rcases List.mem_cons.1 he with rfl | he
  · rw [htyped.typeOf]
    decide
  · rw [List.mem_singleton.1 he, htyped'.typeOf]
    decide

theorem flushItem_accepts {id : String} {content : Option String}
    (hitem : PreparedChat.OutputItem id content n item)
    (h : flushItem texts item n s = (.ok events, s')) :
    Advances s.view events s'.view ∧ Flushed n item events := by
  simp only [flushItem, check_bind_accepts, ensure_bind_accepts, okOr_ok, Identity.new_ok] at h
  obtain ⟨text, hid, itemId, hitemId, h⟩ := h
  subst hitemId
  obtain ⟨before, s₁, hbefore, h⟩ : ∃ before s₁,
      (if item.lookup "type" = .string "message" then flushText texts item itemId n
        else flushTool texts item itemId n) s = (.ok before, s₁) ∧
      ((do
        validate texts (.itemFinished itemId)
        let done ← emit "response.output_item.done"
          (ofFields [("output_index", .number (.ofNat n)), ("item", item)])
        return before ++ [done]) : ChatMethod (List Json)) s₁ = (.ok events, s') := by
    split at h
    · next hmessage =>
        obtain ⟨before, s₁, hbefore, h⟩ := bind_accepts.1 h
        exact ⟨before, s₁, by rwa [if_pos hmessage], h⟩
    · next hmessage =>
        obtain ⟨before, s₁, hbefore, h⟩ := bind_accepts.1 h
        exact ⟨before, s₁, by rwa [if_neg hmessage], h⟩
  obtain ⟨_, s₂, hvalidate, h⟩ := bind_accepts.1 h
  obtain ⟨done, s₃, hdone, h⟩ := bind_accepts.1 h
  obtain ⟨rfl, rfl⟩ := pure_accepts.1 h
  obtain ⟨hlast, k, htyped⟩ := Advances.one hdone
  have hrest := (Advances.validate hvalidate).append hlast
  have hisDone : isDone done = true := by
    rw [isDone, htyped.typeOf]
    rfl
  have hindex : done.field "output_index" = some (.number (.ofNat n)) := by
    rw [htyped.field (by decide) (by decide)]
    simp
  have hsame : done.lookup "item" = item := by
    rw [htyped.lookup (by decide) (by decide)]
    exact Json.lookup_of_field (by simp)
  cases hitem with
  | message said first hasId type =>
      rw [if_pos (lookup_string.2 type)] at hbefore
      obtain ⟨hadvances, textDone, partDone, rfl, htext, hpart, hnone⟩ := flushText_accepts hbefore
      exact ⟨hadvances.append hrest, .message hid type htext hpart hnone hisDone hindex hsame⟩
  | tool later hasId tool =>
      have htype : ¬ item.lookup "type" = .string "message" := by
        intro htype
        rw [isTool, lookup_string.1 htype] at tool
        revert tool
        decide
      rw [if_neg htype] at hbefore
      obtain ⟨hadvances, added, deltas, argumentsDone, rfl, hadded, hcontent⟩ :=
        flushTool_accepts hid tool hbefore
      refine ⟨hadvances.append hrest, .tool tool ⟨_, [added], deltas, argumentsDone, done, ?_, hid,
        hadded, hcontent done hisDone hindex hsame⟩⟩
      rw [List.cons_append, List.append_assoc]
      rfl

theorem Flushed.carries {block : List Json} (h : Flushed n item block) :
    ∀ e ∈ block, e.field "output_index" = some (.number (.ofNat n)) := by
  cases h with
  | message hasId type text part noDelta finishes carries =>
      simpa using ⟨text.carries, part.carries, carries⟩
  | tool tool content => exact (ResponsesStream.Released.tool tool content).carries

theorem content_not_ending {id : String} {event : Json} (h : ContentEvent event id n) :
    isEnding event = false := by
  obtain ⟨type, hmem, htype⟩ := h.type
  exact Adapters.not_ending (List.mem_append_left _ hmem) htype

theorem Flushed.not_ending {block : List Json} (h : Flushed n item block) :
    ∀ e ∈ block, isEnding e = false := by
  cases h with
  | message hasId type text part noDelta finishes =>
      simpa using ⟨content_not_ending text, content_not_ending part,
        Adapters.not_ending (by decide) (of_decide_eq_true finishes)⟩
  | tool tool content => exact (ResponsesStream.Released.tool tool content).not_ending

/-- The blocks of the items from a place on. -/
inductive Blocks : Nat → List Json → List (List Json) → Prop where
  | nil {n : Nat} : Blocks n [] []
  | cons {n : Nat} {item : Json} {items : List Json} {block : List Json} {blocks : List (List Json)}
      (flushed : Flushed n item block) (rest : Blocks (n + 1) items blocks) :
      Blocks n (item :: items) (block :: blocks)

theorem flushItems_accepts {id : String} {content : Option String} {items : List Json}
    (hitems : ∀ (k : Nat) item, items[k]? = some item →
      PreparedChat.OutputItem id content (n + k) item)
    (h : flushItems texts n items s = (.ok events, s')) : Advances s.view events s'.view ∧
      ∃ blocks, events = blocks.flatten ∧ Blocks n items blocks := by
  induction items generalizing n s events with
  | nil =>
      rw [flushItems, pure_accepts] at h
      obtain ⟨rfl, rfl⟩ := h
      exact ⟨.nil _, [], rfl, .nil⟩
  | cons item rest ih =>
      rw [flushItems] at h
      obtain ⟨block, s₁, hblock, h⟩ := bind_accepts.1 h
      obtain ⟨more, s₂, hmore, h⟩ := bind_accepts.1 h
      obtain ⟨rfl, rfl⟩ := pure_accepts.1 h
      obtain ⟨hadvances, hflushed⟩ := flushItem_accepts (hitems 0 item rfl) hblock
      have hrest : ∀ (k : Nat) item, rest[k]? = some item →
          PreparedChat.OutputItem id content (n + 1 + k) item := by
        intro k item hk
        rw [Nat.add_right_comm]
        exact hitems (k + 1) item hk
      obtain ⟨hmore, blocks, rfl, hblocks⟩ := ih hrest hmore
      exact ⟨hadvances.append hmore, block :: blocks, rfl, .cons hflushed hblocks⟩

theorem Blocks.length {items : List Json} {blocks : List (List Json)} (h : Blocks n items blocks) :
    blocks.length = items.length := by
  induction h with
  | nil => rfl
  | cons flushed rest ih => rw [List.length_cons, List.length_cons, ih]

theorem Blocks.get {items : List Json} {blocks : List (List Json)} (h : Blocks n items blocks)
    {k : Nat} {block : List Json} (hk : blocks[k]? = some block) :
    ∃ item, items[k]? = some item ∧ Flushed (n + k) item block := by
  induction h generalizing k with
  | nil => cases hk
  | @cons n item items block' blocks flushed rest ih =>
      cases k with
      | zero =>
          cases hk
          exact ⟨item, rfl, flushed⟩
      | succ k =>
          obtain ⟨item, hitem, hflushed⟩ := ih hk
          rw [Nat.add_right_comm] at hflushed
          exact ⟨item, hitem, hflushed⟩

end Flushing

end ChatStream

end ResponseGateway.Adapters
