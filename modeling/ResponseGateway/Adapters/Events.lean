import ResponseGateway.Adapters.Json

/-!
Events of the Responses protocol as values: the names that depend on the kind of an item,
what the checks read of an event, and the families that its type puts it in.
-/

namespace ResponseGateway.Adapters
open Ir

section Names

def itemType (reasoning : Bool) : String := if reasoning then "reasoning" else "message"

def indexKey (reasoning : Bool) : String := if reasoning then "summary_index" else "content_index"

def partsKey (reasoning : Bool) : String := if reasoning then "summary" else "content"

def partPrefix (reasoning : Bool) : String :=
  if reasoning then "response.reasoning_summary_part" else "response.content_part"

def textPrefix (reasoning : Bool) : String :=
  if reasoning then "response.reasoning_summary_text" else "response.output_text"

def partType (reasoning : Bool) : String := if reasoning then "summary_text" else "output_text"

/-- The two types of a tool call. -/
def isToolType (type : String) : Bool := type = "function_call" || type = "custom_tool_call"

def toolType (custom : Bool) : String := if custom then "custom_tool_call" else "function_call"

def argumentsPrefix (custom : Bool) : String :=
  if custom then "response.custom_tool_call_input" else "response.function_call_arguments"

/-- The field that holds what a tool is called with. -/
def argumentsKey (custom : Bool) : String := if custom then "input" else "arguments"

end Names

section Readers

variable (event : Json)

def typeOf : Option String := event.fieldStr "type"

/-- The event carries this output index. -/
def atIndex (index : Nat) : Bool := event.field "output_index" = some (.number (.ofNat index))

/-- The event names this item. -/
def names (id : String) : Bool := event.fieldStr "item_id" = some id

/-- The event carries this index of a part. -/
def atPart (reasoning : Bool) (index : Nat) : Bool :=
  event.field (indexKey reasoning) = some (.number (.ofNat index))

/-- The identity and the type of an announced item. -/
def announced (key : String) : Option String := (event.lookup "item").fieldStr key

def deltaOf : String := (event.fieldStr "delta").getD ""

/-- The concatenation of deltas. -/
def textOf (events : List Json) : String := String.join (events.map deltaOf)

end Readers

section Families

variable (event : Json)

def isCreated : Bool := typeOf event = some "response.created"

def isAdded : Bool := typeOf event = some "response.output_item.added"

def isDone : Bool := typeOf event = some "response.output_item.done"

/-- The event ends a stream. -/
def isEnding : Bool :=
  (typeOf event).any
    (["response.completed", "response.incomplete", "response.failed"].contains ·)

/-- The types of events about the arguments of tools. -/
def toolTypes : List String :=
  ["response.function_call_arguments.delta", "response.function_call_arguments.done",
    "response.custom_tool_call_input.delta", "response.custom_tool_call_input.done"]

/-- The types of events about parts. -/
def partTypes : List String :=
  ["response.content_part.added", "response.content_part.done",
    "response.reasoning_summary_part.added", "response.reasoning_summary_part.done",
    "response.output_text.delta", "response.output_text.done",
    "response.reasoning_summary_text.delta", "response.reasoning_summary_text.done"]

theorem partPrefix_mem (reasoning : Bool) : partPrefix reasoning ++ ".added" ∈ partTypes ∧
    partPrefix reasoning ++ ".done" ∈ partTypes ∧ textPrefix reasoning ++ ".delta" ∈ partTypes ∧
    textPrefix reasoning ++ ".done" ∈ partTypes := by
  cases reasoning <;> decide

theorem argumentsPrefix_mem (custom : Bool) : argumentsPrefix custom ++ ".delta" ∈ toolTypes ∧
    argumentsPrefix custom ++ ".done" ∈ toolTypes := by
  cases custom <;> decide

/-- An event about the content of an item. -/
structure ContentEvent (id : String) (index : Nat) : Prop where
  type : ∃ type ∈ toolTypes ++ partTypes, typeOf event = some type
  named : event.fieldStr "item_id" = some id
  carries : event.field "output_index" = some (.number (.ofNat index))

variable {event}

theorem content_other {type : String} (hmem : type ∈ toolTypes ++ partTypes)
    (h : typeOf event = some type) :
    isCreated event = false ∧ isAdded event = false ∧ isDone event = false := by
  have hother : ∀ type ∈ toolTypes ++ partTypes, type ≠ "response.created" ∧
      type ≠ "response.output_item.added" ∧ type ≠ "response.output_item.done" := by decide
  simpa [isCreated, isAdded, isDone, h] using hother type hmem

theorem not_ending {type : String} (hmem : type ∈ toolTypes ++ partTypes ++
      ["response.created", "response.in_progress", "response.output_item.added",
        "response.output_item.done"])
    (h : typeOf event = some type) : isEnding event = false := by
  have hother : ∀ type ∈ toolTypes ++ partTypes ++
      ["response.created", "response.in_progress", "response.output_item.added",
        "response.output_item.done"],
      ["response.completed", "response.incomplete", "response.failed"].contains type = false := by
    decide
  rw [isEnding, h, Option.any_some, hother type hmem]

theorem ContentEvent.other {id : String} {index : Nat} (h : ContentEvent event id index) :
    isCreated event = false ∧ isAdded event = false ∧ isDone event = false := by
  obtain ⟨type, hmem, htype⟩ := h.type
  exact content_other hmem htype

end Families

section Reading

variable {event : Json} {events : List Json} {id : String}

theorem textOf_snoc (events : List Json) (event : Json) :
    textOf (events ++ [event]) = textOf events ++ deltaOf event := by
  rw [textOf, List.map_append, String.join_append]
  simp [textOf]

theorem textOf_map {chunks : List Text} {make : Text → Json}
    (h : ∀ chunk, deltaOf (make chunk) = String.ofList chunk) :
    textOf (chunks.map make) = String.ofList chunks.flatten := by
  induction chunks with
  | nil => rfl
  | cons chunk rest ih =>
      rw [List.flatten_cons, String.ofList_append, ← ih, ← h chunk, textOf, textOf, List.map_cons,
        List.map_cons, String.join_cons]

/-- The deltas of a text are the text. -/
theorem textOf_chunks {make : Text → Json}
    (h : ∀ chunk, deltaOf (make chunk) = String.ofList chunk) (text : String) :
    textOf ((eventTextChunks text.toList).map make) = text := by
  rw [textOf_map h, flatten_eventTextChunks, String.ofList_toList]

/-- Exactly one natural number is written in a field. -/
theorem ofNat_field_inj {m n : Nat}
    (h : some (Json.number (.ofNat m)) = some (Json.number (.ofNat n))) : m = n := by
  simp only [Option.some.injEq, Json.number.injEq] at h
  exact Json.Number.ofNat_injective h

theorem field_of_asU64 {value : Json} {key : String} {n : Nat}
    (h : (value.lookup key).asU64 = some n) : value.field key = some (.number (.ofNat n)) := by
  rw [Json.lookup] at h
  cases hfield : value.field key with
  | none =>
      rw [hfield] at h
      cases h
  | some item =>
      rw [hfield, Option.getD_some] at h
      cases item with
      | number number => rw [Json.Number.asU64_eq_some h]
      | null | bool _ | string _ | array _ | object _ => cases h

theorem lookup_string {value : Json} {key text : String} :
    value.lookup key = .string text ↔ value.fieldStr key = some text := by
  rw [← Json.asStr_lookup, Json.asStr_eq_some]

theorem atIndex_of {index k : Nat}
    (h : event.field "output_index" = some (.number (.ofNat index))) :
    atIndex event k = decide (k = index) := by
  rw [atIndex, h, decide_eq_decide]
  exact ⟨fun h => (ofNat_field_inj h).symm, fun h => h ▸ rfl⟩

theorem atPart_of {reasoning : Bool} {index k : Nat}
    (h : event.field (indexKey reasoning) = some (.number (.ofNat index))) :
    atPart event reasoning k = decide (k = index) := by
  rw [atPart, h, decide_eq_decide]
  exact ⟨fun h => (ofNat_field_inj h).symm, fun h => h ▸ rfl⟩

theorem names_of {other : String} (h : event.fieldStr "item_id" = some other) :
    names event id = decide (id = other) := by
  rw [names, h, decide_eq_decide]
  exact ⟨fun h => (Option.some.inj h).symm, fun h => h ▸ rfl⟩

theorem not_names (h : event.field "item_id" = none) : names event id = false := by
  rw [names, Json.fieldStr, h]
  rfl

theorem not_atIndex {k : Nat} (h : event.field "output_index" = none) :
    atIndex event k = false := by
  rw [atIndex, h]
  rfl

/-- The events of one part, with one event more. -/
theorem filter_part_snoc (hname : names event id = true) {reasoning : Bool} {index : Nat}
    (hpart : event.field (indexKey reasoning) = some (.number (.ofNat index))) (j : Nat) :
    (events ++ [event]).filter (fun e => names e id && atPart e reasoning j) =
      events.filter (fun e => names e id && atPart e reasoning j) ++
        if j = index then [event] else [] := by
  simp only [List.filter_append, List.filter_cons, hname, atPart_of hpart, Bool.true_and,
    decide_eq_true_eq, List.filter_nil]

end Reading

section Blocks

/-- Among blocks whose elements belong to their places, a place selects its block. -/
theorem filter_flatten_block {α : Type} {p : Nat → α → Bool} {blocks : List (List α)}
    (h : ∀ (i : Nat) block, blocks[i]? = some block → ∀ a ∈ block, ∀ k, p k a = decide (k = i))
    {k : Nat} {block : List α} (hk : blocks[k]? = some block) :
    blocks.flatten.filter (p k) = block := by
  induction blocks generalizing p k with
  | nil => cases hk
  | cons first rest ih =>
      have hfirst := h 0 first rfl
      have hrest := fun i block hi => h (i + 1) block (List.getElem?_cons_succ.trans hi)
      rw [List.flatten_cons, List.filter_append]
      cases k with
      | zero =>
          cases hk
          have hnone : rest.flatten.filter (p 0) = [] := by
            refine List.filter_eq_nil_iff.2 fun a ha => ?_
            obtain ⟨block, hblock, ha⟩ := List.mem_flatten.1 ha
            obtain ⟨i, hi, hget⟩ := List.getElem_of_mem hblock
            rw [hrest i block (hget ▸ List.getElem?_eq_getElem hi) a ha]
            simp
          rw [hnone, List.append_nil]
          exact List.filter_eq_self.2 fun a ha => by simp [hfirst a ha]
      | succ k =>
          have hnone : first.filter (p (k + 1)) = [] :=
            List.filter_eq_nil_iff.2 fun a ha => by simp [hfirst a ha]
          rw [hnone, List.nil_append]
          refine ih (p := fun k => p (k + 1)) (fun i block hi a ha k => ?_) hk
          rw [hrest i block hi a ha, decide_eq_decide, Nat.add_right_cancel_iff]

end Blocks

end ResponseGateway.Adapters
