import ResponseGateway.Adapters.ResponsesStreamRuns

/-!
The same events under other numbers. Everything that is said of the events of an item
leaves their numbers aside, so that it holds of renumbered events too.
-/

namespace ResponseGateway.Adapters
open Ir

/-- The same events, numbered from a number on. -/
inductive Renumbered : Nat → List Json → List Json → Prop where
  | nil {n : Nat} : Renumbered n [] []
  | cons {n : Nat} {event event' : Json} {events events' : List Json}
      (stamped : Stamped n event event') (rest : Renumbered (n + 1) events events') :
      Renumbered n (event :: events) (event' :: events')

/-- Two events that may differ in their numbers. -/
def Same (event event' : Json) : Prop := ∃ n, Stamped n event event'

namespace Renumbered

variable {n : Nat} {events events' more more' : List Json}

theorem length (h : Renumbered n events events') : events'.length = events.length := by
  induction h with
  | nil => rfl
  | cons _ _ ih => rw [List.length_cons, List.length_cons, ih]

theorem append (h : Renumbered n events events') (hmore : Renumbered (n + events.length) more more') :
    Renumbered n (events ++ more) (events' ++ more') := by
  induction h with
  | nil => exact hmore
  | cons stamped _ ih =>
      refine .cons stamped (ih ?_)
      rwa [List.length_cons, ← Nat.add_assoc, Nat.add_right_comm] at hmore

theorem numbers (h : Renumbered n events events') : events'.map (·.field "sequence_number") =
    (List.range' n events'.length).map fun k => some (.number (.ofNat k)) := by
  induction h with
  | nil => rfl
  | cons stamped _ ih =>
      rw [List.map_cons, stamped.number, ih, List.length_cons, List.range'_succ, List.map_cons]

theorem same (h : Renumbered n events events') : List.Forall₂ Same events events' := by
  induction h with
  | nil => exact .nil
  | cons stamped _ ih => exact .cons ⟨_, stamped⟩ ih

end Renumbered

section Same

variable {event event' : Json} {events events' : List Json}

namespace Same

theorem typeOf (h : Same event event') : typeOf event' = typeOf event := by
  obtain ⟨n, h⟩ := h
  exact h.fieldStr (by decide)

theorem isAdded (h : Same event event') : isAdded event' = isAdded event := by
  rw [Adapters.isAdded, h.typeOf, Adapters.isAdded]

theorem isDone (h : Same event event') : isDone event' = isDone event := by
  rw [Adapters.isDone, h.typeOf, Adapters.isDone]

theorem item (h : Same event event') : event'.lookup "item" = event.lookup "item" := by
  obtain ⟨n, h⟩ := h
  exact h.lookup (by decide)

theorem response (h : Same event event') : event'.lookup "response" = event.lookup "response" := by
  obtain ⟨n, h⟩ := h
  exact h.lookup (by decide)

theorem announced (h : Same event event') (key : String) :
    announced event' key = announced event key := by
  rw [Adapters.announced, h.item, Adapters.announced]

theorem deltaOf (h : Same event event') : deltaOf event' = deltaOf event := by
  obtain ⟨n, h⟩ := h
  rw [Adapters.deltaOf, h.fieldStr (by decide), Adapters.deltaOf]

theorem atIndex (h : Same event event') (k : Nat) : atIndex event' k = atIndex event k := by
  obtain ⟨n, h⟩ := h
  rw [Adapters.atIndex, h.field (by decide), Adapters.atIndex]

theorem atPart (h : Same event event') (reasoning : Bool) (k : Nat) :
    atPart event' reasoning k = atPart event reasoning k := by
  obtain ⟨n, h⟩ := h
  rw [Adapters.atPart, h.field (by cases reasoning <;> decide), Adapters.atPart]

theorem content {id : String} {k : Nat} (h : Same event event') (hcontent : ContentEvent event id k) :
    ContentEvent event' id k := by
  obtain ⟨type, hmem, htype⟩ := hcontent.type
  refine ⟨⟨type, hmem, h.typeOf.trans htype⟩, ?_, ?_⟩
  · obtain ⟨n, h⟩ := h
    exact (h.fieldStr (by decide)).trans hcontent.named
  · obtain ⟨n, h⟩ := h
    exact (h.field (by decide)).trans hcontent.carries

end Same

theorem filter_same {p : Json → Bool} (hp : ∀ e e', Same e e' → p e' = p e)
    (h : List.Forall₂ Same events events') :
    List.Forall₂ Same (events.filter p) (events'.filter p) := by
  induction h with
  | nil => exact .nil
  | cons hsame _ ih =>
      rw [List.filter_cons, List.filter_cons, hp _ _ hsame]
      split
      · exact .cons hsame ih
      · exact ih

theorem single_same (h : List.Forall₂ Same [event] events') : ∃ event', events' = [event'] := by
  cases h with
  | cons _ hnone =>
      cases hnone
      exact ⟨_, rfl⟩

theorem textOf_same (h : List.Forall₂ Same events events') : textOf events' = textOf events := by
  induction h with
  | nil => rfl
  | cons hsame _ ih =>
      rw [textOf, List.map_cons, String.join_cons, hsame.deltaOf, ← textOf, ih, textOf, textOf,
        List.map_cons, String.join_cons]

theorem forall_same {P Q : Json → Prop} (hPQ : ∀ e e', Same e e' → P e → Q e')
    (h : List.Forall₂ Same events events') (hP : ∀ e ∈ events, P e) : ∀ e ∈ events', Q e := by
  induction h with
  | nil => simp
  | cons hsame _ ih =>
      rw [List.forall_mem_cons] at hP ⊢
      exact ⟨hPQ _ _ hsame hP.1, ih hP.2⟩

theorem same_append {before after : List Json} (h : List.Forall₂ Same (before ++ after) events') :
    ∃ before' after', List.Forall₂ Same before before' ∧ List.Forall₂ Same after after' ∧
      events' = before' ++ after' := by
  induction before generalizing events' with
  | nil => exact ⟨[], events', .nil, h, rfl⟩
  | cons e before ih =>
      cases h with
      | cons hsame hrest =>
          obtain ⟨before', after', hbefore, hafter, rfl⟩ := ih hrest
          exact ⟨_ :: before', after', .cons hsame hbefore, hafter, rfl⟩

/-- The events of an item stay its events under other numbers. -/
theorem ResponsesStream.ItemEvents.same {n : Nat} {item : Json}
    (h : ResponsesStream.ItemEvents n item events) (hsame : List.Forall₂ Same events events') :
    ResponsesStream.ItemEvents n item events' := by
  obtain ⟨id, added, middle, done, rfl, hid, hadded, hannounced, hmiddle, hdone, hitem⟩ := h.content
  refine ⟨?_, h.kind, fun htool => ?_, fun reasoning htype => ?_⟩
  · cases hsame with
    | @cons _ added' _ events' hfirst hrest =>
        obtain ⟨middle', last, hmiddle', hlast, rfl⟩ := same_append hrest
        cases hlast with
        | cons hlast hnone =>
            cases hnone
            refine ⟨id, added', middle', _, rfl, hid, hfirst.isAdded.trans hadded,
              (hfirst.announced "id").trans hannounced, ?_, hlast.isDone.trans hdone,
              hlast.item.trans hitem⟩
            exact forall_same (fun e e' he hcontent => he.content hcontent) hmiddle' hmiddle
  · rw [h.arguments htool, argumentDeltas, argumentDeltas, textOf_same (filter_same ?_ hsame)]
    intro e e' he
    rw [he.typeOf]
  · obtain ⟨parts, hparts, htexts⟩ := h.texts reasoning htype
    refine ⟨parts, hparts, fun j part hpart => ?_⟩
    rw [htexts j part hpart, partDeltas, partDeltas, textOf_same (filter_same ?_ hsame)]
    intro e e' he
    rw [he.typeOf, he.atPart]

end Same

end ResponseGateway.Adapters
