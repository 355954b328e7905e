import ResponseGateway.Adapters.Json
import ResponseGateway.Continuation.Ledger
import ResponseGateway.Proxy.Echo

/-!
The last events of a managed stream. They are computed twice, for the check of their size
before the turn is saved and for their publication after it; what is published agrees with
the response as it was finalized, and with what was reported before stays within the limit.
-/

namespace ResponseGateway.Proxy
open Checked Json Ir Continuation

section Events

def doneType : String := "response.output_item.done"

def addedType : String := "response.output_item.added"

def completedType : String := "response.completed"

def doneEvent (index : Nat) (item : Json) : Json :=
  ofFields [("type", .string doneType), ("output_index", .number (.ofNat index)), ("item", item)]

def addedEvent (index : Nat) (item : Json) : Json :=
  ofFields [("type", .string addedType), ("output_index", .number (.ofNat index)),
    ("item", ofFields [("type", .string "reasoning"), ("id", item.lookup "id"),
      ("summary", .array [])])]

def completedEvent (response : Json) : Json :=
  ofFields [("type", .string completedType), ("response", response)]

def finalizedEvents (response : Json) (token : String) : Option (List Json) := do
  let response ← addEnvelope response token
  let output ← (response.field "output").bind asArray
  return output.zipIdx.map (fun (item, index) => doneEvent index item) ++ [completedEvent response]

/-- An event with one of its fields replaced. -/
def replaced (event : Json) (key : String) (value : Json) : Json :=
  match event with
  | .object fields => .object (Assoc.insert key value fields)
  | other => other

/-- The item of an event that ends an item. -/
def withItem (output : List Json) (event : Json) : Json :=
  if event.fieldStr "type" = some doneType then
    match ((event.field "output_index").bind asU64).bind (output[·]?) with
    | some item => replaced event "item" item
    | none => event
  else event

/-- The body of the loop over the events. -/
def rewritten (response : Json) (output : List Json) (event : Json) : Json :=
  let event := withItem output event
  if event.fieldStr "type" = some completedType then replaced event "response" response else event

def managedFinalEvents (response : Json) (token : String) :
    Option (List Json) → Option (List Json)
  | none => finalizedEvents response token
  | some events => do
      let previous ← (response.field "output").bind asArray
      let response ← addEnvelope response token
      let output ← (response.field "output").bind asArray
      let events := events.map (rewritten response output)
      if output.length > previous.length then
        let item ← output.getLast?
        let index := events.length - 1
        return events.take index ++
          [addedEvent previous.length item, doneEvent previous.length item] ++ events.drop index
      else return events

end Events

section Streaming

/-- What was yielded so far, and how it is counted. -/
structure Output where
  written : Nat
  sequence : Nat
  yielded : List String

/-- The bytes of a numbered event; an event that is no object has none. -/
def numbered (value : Json) (sequence : Nat) : Option String := do
  let value ← (value.setAt "sequence_number" (.number (.ofNat sequence)) :
    Except (Fault Error) Json).toOption
  return "event: " ++ (value.fieldStr "type").getD "error" ++ "\ndata: " ++ renderText value ++ "\n\n"

/-- The loop over the progress of one event, and whether it went through. -/
def report (max : Nat) : List Json → Output → Output × Bool
  | [], out => (out, true)
  | event :: rest, out =>
      match numbered event out.sequence with
      | none => (out, false)
      | some bytes =>
          let written := out.written + bytes.utf8ByteSize
          if written > max then ({ out with written, sequence := out.sequence + 1 }, false)
          else report max rest ⟨written, out.sequence + 1, out.yielded ++ [bytes]⟩

/-- The loop over the events of the provider, as the adapter takes them: it fails, or tells its
progress and whether the response is complete. -/
def pump (max : Nat) : List (Option (List Json × Bool)) → Output → Output × Bool
  | [], out => (out, false)
  | none :: _, out => (out, false)
  | some (progress, complete) :: rest, out =>
      match report max progress out with
      | (out, false) => (out, false)
      | (out, true) => if complete then (out, true) else pump max rest out

/-- The sum of the sizes of events that are numbered from a number on. -/
def remaining : List Json → Nat → Option Nat
  | [], _ => some 0
  | event :: rest, sequence => do
      let bytes ← numbered event sequence
      let more ← remaining rest (sequence + 1)
      return bytes.utf8ByteSize + more

def publish : List Json → Output → Output
  | [], out => out
  | event :: rest, out =>
      match numbered event out.sequence with
      | none => out
      | some bytes => publish rest ⟨out.written, out.sequence + 1, out.yielded ++ [bytes]⟩

/-- What the adapter makes of a complete stream. -/
structure Finished where
  response : Json
  record : ReplayRecord
  terminalEvents : Option (List Json)

/-- What an `Exchange` of a stream checks beyond the size of the response. -/
def streamFits (max : Nat) (out : Output) (finished : Finished) (token : String) :
    Except Error Unit := do
  let events ← okOr (managedFinalEvents finished.response token finished.terminalEvents)
    ⟨"validated output"⟩
  let remaining ← okOr (remaining events out.sequence) ⟨"validated output"⟩
  rejectIf (out.written + remaining > max) ⟨"stream limit"⟩

/-- The check before a turn is saved. -/
def finalFits (max : Nat) (out : Output) (finished : Finished) (token : String) :
    Except Error Unit := do
  checkFinalSize finished.response token max
  streamFits max out finished token

/-- The stream of one turn: what it yields, with the store after it. It is told what the
adapter makes of the events and of their end, and whether the usage can be saved. -/
def streamed (rt : Runtime) (nonce : ByteArray) (max : Nat)
    (heard : List (Option (List Json × Bool))) (finish : Option Finished) (accounted : Bool)
    (db : SqliteStore) : List String × SqliteStore :=
  match pump max heard ⟨0, 0, []⟩ with
  | (out, false) => (out.yielded, db)
  | (out, true) =>
      match finish with
      | none => (out.yielded, db)
      | some finished =>
          match rt.finalizeChecked nonce finished.record (finalFits max out finished) db with
          | (.error _, db) => (out.yielded, db)
          | (.ok token, db) =>
              if !accounted then (out.yielded, db)
              else
                match managedFinalEvents finished.response token finished.terminalEvents with
                | none => (out.yielded, db)
                | some events => ((publish events out).yielded, db)

end Streaming

section Sizes

variable {max : Nat} {out : Output}

def size (yielded : List String) : Nat := (yielded.map String.utf8ByteSize).sum

theorem size_push (yielded : List String) (bytes : String) :
    size (yielded ++ [bytes]) = size yielded + bytes.utf8ByteSize := by
  rw [size, List.map_append, List.sum_append, List.map_singleton, List.sum_singleton]
  rfl

/-- What is counted is what was yielded, or more than that by the event that was too long. -/
structure Output.Counts (max : Nat) (out : Output) (going : Bool) : Prop where
  bound : size out.yielded ≤ max
  exact : going = true → out.written = size out.yielded

theorem counts_report (events : List Json) (h : out.Counts max true) :
    (report max events out).1.Counts max (report max events out).2 := by
  induction events generalizing out with
  | nil => exact h
  | cons event rest ih =>
      rw [report]
      split
      · exact ⟨h.bound, nofun⟩
      · next bytes _ =>
          dsimp only
          split
          · exact ⟨h.bound, nofun⟩
          · next hfits =>
              have hexact := h.exact rfl
              refine ih ⟨?_, fun _ => ?_⟩
              · rw [size_push, ← hexact]
                exact Nat.not_lt.1 hfits
              · rw [size_push, ← hexact]

theorem counts_pump {heard : List (Option (List Json × Bool))} (h : out.Counts max true) :
    (pump max heard out).1.Counts max (pump max heard out).2 := by
  induction heard generalizing out with
  | nil => exact ⟨h.bound, nofun⟩
  | cons first rest ih =>
      cases first with
      | none => exact ⟨h.bound, nofun⟩
      | some told =>
          obtain ⟨progress, complete⟩ := told
          have hreport := counts_report progress h
          rw [pump]
          split
          · next out' heq =>
              rw [heq] at hreport
              exact hreport
          · next out' heq =>
              rw [heq] at hreport
              split
              · exact hreport
              · exact ih hreport

theorem size_publish {events : List Json} {rest : Nat}
    (h : remaining events out.sequence = some rest) :
    size (publish events out).yielded = size out.yielded + rest := by
  induction events generalizing out rest with
  | nil => cases h; rfl
  | cons event events ih =>
      simp only [remaining, Option.bind_eq_bind, Option.bind_eq_some_iff] at h
      obtain ⟨bytes, hbytes, more, hmore, hsum⟩ := h
      cases hsum
      rw [publish, hbytes]
      have hnext : remaining events
          (⟨out.written, out.sequence + 1, out.yielded ++ [bytes]⟩ : Output).sequence = some more :=
        hmore
      refine (ih hnext).trans ?_
      rw [size_push, Nat.add_assoc]

theorem finalFits_ok {finished : Finished} {token : String}
    (h : finalFits max out finished token = .ok ()) : ∃ events rest,
      managedFinalEvents finished.response token finished.terminalEvents = some events ∧
      remaining events out.sequence = some rest ∧ out.written + rest ≤ max := by
  simp only [finalFits, streamFits, bind_ok, okOr_ok, rejectIf_ok, decide_eq_false_iff_not,
    Nat.not_lt] at h
  obtain ⟨_, -, events, hevents, rest, hrest, hfits⟩ := h
  exact ⟨events, rest, hevents, hrest, hfits⟩

/-- A stream yields at most its limit, before and after its turn is saved. -/
theorem size_streamed (rt : Runtime) (nonce : ByteArray) (max : Nat)
    (heard : List (Option (List Json × Bool))) (finish : Option Finished) (accounted : Bool)
    (db : SqliteStore) :
    size (streamed rt nonce max heard finish accounted db).1 ≤ max := by
  have hpump : (pump max heard ⟨0, 0, []⟩).1.Counts max (pump max heard ⟨0, 0, []⟩).2 :=
    counts_pump ⟨Nat.zero_le max, fun _ => rfl⟩
  rw [streamed]
  split
  · next out heq =>
      rw [heq] at hpump
      exact hpump.bound
  · next out heq =>
      rw [heq] at hpump
      split
      · exact hpump.bound
      · next finished =>
          split
          · exact hpump.bound
          · next token db' hfinalize =>
              obtain ⟨-, hfits, -⟩ := Runtime.finalizeChecked_accepts hfinalize
              obtain ⟨events, rest, hevents, hrest, hle⟩ := finalFits_ok hfits
              split
              · exact hpump.bound
              · rw [hevents]
                exact (size_publish hrest).trans_le (hpump.exact rfl ▸ hle)

end Sizes

section Agreement

variable {response published : Json} {token : String} {items : List Json}

/-- A response as the adapters leave it: its items carry no envelope. -/
structure Validated (response : Json) (items : List Json) : Prop where
  output : (response.field "output").bind asArray = some items
  few : items.length < 2 ^ 64
  objects : ∀ item ∈ items, item.isObject = true
  bare : ∀ item ∈ items, (item.field "encrypted_content").all (·.isNull) = true

def carries (token : String) (item : Json) : Bool := item.fieldStr "encrypted_content" = some token

/-- The finalized response. -/
structure Enveloped (response : Json) (token : String) (items : List Json) (published : Json) :
    Prop where
  adds : addEnvelope response token = some published
  output : (published.field "output").bind asArray = some (outputItems published)
  single : (outputItems published).countP (carries token) = 1
  length : (outputItems published).length = items.length ∨
    ∃ id, outputItems published = items ++ [carrier id token]

theorem carries_bare {item : Json} (h : (item.field "encrypted_content").all (·.isNull) = true) :
    carries token item = false := by
  rw [carries, decide_eq_false_iff_not, fieldStr]
  intro hcarries
  obtain ⟨value, hvalue, hstr⟩ := Option.bind_eq_some_iff.1 hcarries
  obtain rfl := asStr_eq_some.1 hstr
  rw [hvalue] at h
  cases h

theorem carries_setEnvelope {item : Json} (h : item.isObject = true) :
    carries token (setEnvelope token item) = true := by
  obtain ⟨fields, hfields⟩ := Option.isSome_iff_exists.1 h
  obtain rfl := asObject_eq_some.1 hfields
  rw [carries, decide_eq_true_iff, setEnvelope, fieldStr, field_object, Assoc.get_insert, if_pos rfl]
  rfl

theorem carries_carrier (id token : String) : carries token (carrier id token) = true := by
  rw [carries, decide_eq_true_iff, fieldStr, carrier, field_object, Assoc.get, if_pos rfl]
  rfl

theorem Validated.enveloped (h : Validated response items) (token : String) :
    ∃ published, Enveloped response token items published := by
  obtain ⟨value, hvalue, harray⟩ := Option.bind_eq_some_iff.1 h.output
  obtain rfl := asArray_eq_some.1 harray
  obtain ⟨fields, hfields, hget⟩ := Option.bind_eq_some_iff.1 hvalue
  obtain rfl := asObject_eq_some.1 hfields
  have hpublished : ∃ published, addEnvelope (.object fields) token = some published := by
    simp only [addEnvelope, asObject, hget, Option.bind_eq_bind, Option.bind_some, asArray]
    exact ⟨_, rfl⟩
  obtain ⟨published, hpublished⟩ := hpublished
  have hitems := addEnvelope_some hget hpublished
  have hcount : ∀ l : List Json, (∀ item ∈ l, item ∈ items) → l.countP (carries token) = 0 := by
    intro l hl
    refine List.countP_eq_zero.2 fun item hitem => ?_
    rw [carries_bare (h.bare item (hl item hitem))]
    decide
  refine ⟨published, hpublished, ?_, ?_, ?_⟩
  · simp only [addEnvelope, asObject, hget, Option.bind_eq_bind, Option.bind_some, asArray] at hpublished
    cases hpublished
    rw [outputItems, field_object, Assoc.get_insert, if_pos rfl]
    rfl
  · rw [hitems]
    cases hfirst : envelopeFirst token items with
    | none =>
        rw [Option.getD_none, List.countP_append, hcount items fun _ h => h, List.countP_singleton,
          if_pos (carries_carrier _ _)]
    | some l =>
        obtain ⟨before, item, after, rfl, -, -, rfl⟩ := envelopeFirst_some hfirst
        rw [Option.getD_some, List.countP_append, List.countP_cons,
          hcount before fun _ h => List.mem_append_left _ h,
          hcount after fun _ h => List.mem_append_right _ (List.mem_cons_of_mem _ h),
          if_pos (carries_setEnvelope (h.objects item (by simp)))]
  · rw [hitems]
    cases hfirst : envelopeFirst token items with
    | none => exact .inr ⟨_, rfl⟩
    | some l =>
        obtain ⟨before, item, after, rfl, -, -, rfl⟩ := envelopeFirst_some hfirst
        refine .inl ?_
        rw [Option.getD_some, List.length_append, List.length_append, List.length_cons,
          List.length_cons]

theorem field_replaced_ne {event value : Json} {key key' : String} (hne : key ≠ key') :
    (replaced event key value).field key' = event.field key' := by
  cases event with
  | object fields => rw [replaced, field_object, Assoc.get_insert, if_neg hne, field_object]
  | null => rfl
  | bool _ => rfl
  | number _ => rfl
  | string _ => rfl
  | array _ => rfl

theorem field_replaced {event value : Json} {key : String} (h : event.isObject = true) :
    (replaced event key value).field key = some value := by
  obtain ⟨fields, hfields⟩ := Option.isSome_iff_exists.1 h
  obtain rfl := asObject_eq_some.1 hfields
  rw [replaced, field_object, Assoc.get_insert, if_pos rfl]

theorem isObject_of_fieldStr {event : Json} {key text : String}
    (h : event.fieldStr key = some text) : event.isObject = true := by
  obtain ⟨value, hvalue, -⟩ := Option.bind_eq_some_iff.1 h
  obtain ⟨fields, hfields, -⟩ := Option.bind_eq_some_iff.1 hvalue
  rw [isObject, hfields]
  rfl

variable {output : List Json} {event : Json} {key : String}

/-- Only the item and the response of an event change. -/
theorem field_rewritten (hitem : "item" ≠ key) (hresponse : "response" ≠ key) :
    (rewritten published output event).field key = event.field key := by
  have hfirst : (withItem output event).field key = event.field key := by
    rw [withItem]
    split
    · split
      · exact field_replaced_ne hitem
      · rfl
    · rfl
  rw [rewritten]
  split
  · rw [field_replaced_ne hresponse, hfirst]
  · exact hfirst

theorem type_rewritten : (rewritten published output event).fieldStr "type" =
    event.fieldStr "type" :=
  congrArg (·.bind asStr) (field_rewritten (by decide) (by decide))

theorem rewritten_done {index : Nat} {item : Json} (htype : event.fieldStr "type" = some doneType)
    (hindex : (event.field "output_index").bind asU64 = some index)
    (hitem : output[index]? = some item) :
    (rewritten published output event).field "item" = some item := by
  have hreplaced : withItem output event = replaced event "item" item := by
    rw [withItem, if_pos htype, hindex, Option.bind_some, hitem]
  have hother : (replaced event "item" item).fieldStr "type" ≠ some completedType := by
    rw [fieldStr, field_replaced_ne (by decide), ← fieldStr, htype]
    decide
  rw [rewritten, hreplaced, if_neg hother]
  exact field_replaced (isObject_of_fieldStr htype)

theorem rewritten_completed (htype : event.fieldStr "type" = some completedType) :
    (rewritten published output event).field "response" = some published := by
  have hsame : withItem output event = event := by
    rw [withItem, if_neg]
    rw [htype]
    decide
  rw [rewritten, hsame, if_pos htype]
  exact field_replaced (isObject_of_fieldStr htype)

/-- Terminal events that end with the completed response and end only items that it has. -/
structure Ending (length : Nat) (events : List Json) : Prop where
  completed : ∃ before last, events = before ++ [last] ∧
    last.fieldStr "type" = some completedType
  indices : ∀ e ∈ events, e.fieldStr "type" = some doneType →
    ∃ index, (e.field "output_index").bind asU64 = some index ∧ index < length

/-- An event that ends an item carries the one that the response has there. -/
def Ends (output : List Json) (e : Json) : Prop := ∃ index item,
  (e.field "output_index").bind asU64 = some index ∧ output[index]? = some item ∧
    e.field "item" = some item

/-- The events that are published agree with the finalized response. -/
structure Agrees (items : List Json) (published : Json) (events : Option (List Json))
    (result : List Json) : Prop where
  last : ∃ before last, result = before ++ [last] ∧
    last.fieldStr "type" = some completedType ∧ last.field "response" = some published
  ends : ∀ e ∈ result, e.fieldStr "type" = some doneType → Ends (outputItems published) e
  unlisted : events = none → ∃ last, result = (outputItems published).zipIdx.map
    (fun (item, index) => doneEvent index item) ++ [last]
  carrier : ∀ id token, outputItems published = items ++ [Proxy.carrier id token] →
    ∀ l, events = some l → ∃ before last, before.map (·.fieldStr "type") =
        l.dropLast.map (·.fieldStr "type") ∧
      result = before ++ [addedEvent items.length (Proxy.carrier id token),
        doneEvent items.length (Proxy.carrier id token), last]

theorem ends_doneEvent {index : Nat} {item : Json} (hindex : index < 2 ^ 64)
    (hitem : output[index]? = some item) : Ends output (doneEvent index item) := by
  refine ⟨index, item, ?_, hitem, ?_⟩
  · simp [doneEvent, asU64_ofNat hindex]
  · simp [doneEvent]

theorem Ending.ends_rewritten {l : List Json} (h : Ending items.length l)
    (hlonger : ∀ index < items.length, index < output.length) :
    ∀ e ∈ l, (rewritten published output e).fieldStr "type" = some doneType →
      Ends output (rewritten published output e) := by
  intro e he htype
  rw [type_rewritten] at htype
  obtain ⟨index, hindex, hlt⟩ := h.indices e he htype
  have hindexed := hlonger index hlt
  have hitem : output[index]? = some output[index] := List.getElem?_eq_getElem hindexed
  refine ⟨index, _, ?_, hitem, rewritten_done htype hindex hitem⟩
  rw [field_rewritten (by decide) (by decide)]
  exact hindex

theorem Enveloped.longer (h : Enveloped response token items published) :
    items.length ≤ (outputItems published).length ∧
      (outputItems published).length ≤ items.length + 1 := by
  rcases h.length with hsame | ⟨id, happended⟩
  · omega
  · rw [happended, List.length_append, List.length_singleton]
    omega

theorem type_completedEvent (response : Json) :
    (completedEvent response).fieldStr "type" = some completedType := by
  simp [completedEvent, fieldStr, asStr]

/-- Without a list of terminal events every item ends, and then the response. -/
theorem Enveloped.agrees_unlisted (hv : Validated response items)
    (h : Enveloped response token items published) : ∃ result,
      managedFinalEvents response token none = some result ∧
        Agrees items published none result := by
  refine ⟨(outputItems published).zipIdx.map (fun (item, index) => doneEvent index item) ++
    [completedEvent published], ?_, ⟨_, _, rfl, type_completedEvent published, ?_⟩,
    fun e he htype => ?_, fun _ => ⟨_, rfl⟩, fun _ _ _ _ hl => (nomatch hl)⟩
  · simp only [managedFinalEvents, finalizedEvents, h.adds, Option.bind_eq_bind,
      Option.bind_some, h.output]
    rfl
  · simp [completedEvent]
  · rcases List.mem_append.1 he with he | he
    · obtain ⟨⟨item, index⟩, hmem, rfl⟩ := List.mem_map.1 he
      have hitem := List.mk_mem_zipIdx_iff_getElem?.1 hmem
      have hlt := (List.getElem?_eq_some_iff.1 hitem).1
      have hfew := hv.few
      have hlonger := h.longer
      exact ends_doneEvent (by omega) hitem
    · rw [List.mem_singleton.1 he, type_completedEvent] at htype
      exact absurd htype (by decide)

/-- Where an item of the response carries the envelope the events stay the same ones. -/
theorem Enveloped.agrees_kept {l : List Json} (hv : Validated response items)
    (h : Enveloped response token items published) (hending : Ending items.length l)
    (hsame : (outputItems published).length = items.length) : ∃ result,
      managedFinalEvents response token (some l) = some result ∧
        Agrees items published (some l) result := by
  obtain ⟨before, last, hl, hlast⟩ := hending.completed
  refine ⟨l.map (rewritten published (outputItems published)), ?_,
    ⟨before.map (rewritten published (outputItems published)),
      rewritten published (outputItems published) last, ?_, type_rewritten.trans hlast,
      rewritten_completed hlast⟩, ?_, nofun, fun id token' happended => ?_⟩
  · simp only [managedFinalEvents, hv.output, h.adds, h.output, Option.bind_eq_bind,
      Option.bind_some]
    rw [if_neg (by omega)]
    rfl
  · rw [hl, List.map_append, List.map_singleton]
  · exact List.forall_mem_map.2 (hending.ends_rewritten fun index hlt => hsame ▸ hlt)
  · rw [happended, List.length_append, List.length_singleton] at hsame
    omega

/-- A carrier that is appended begins and ends before the response does. -/
theorem Enveloped.agrees_grown {l : List Json} {id : String} (hv : Validated response items)
    (h : Enveloped response token items published) (hending : Ending items.length l)
    (happended : outputItems published = items ++ [carrier id token]) : ∃ result,
      managedFinalEvents response token (some l) = some result ∧
        Agrees items published (some l) result := by
  obtain ⟨before, last, rfl, hlast⟩ := hending.completed
  have hgrown : (outputItems published).length > items.length := by
    rw [happended, List.length_append, List.length_singleton]
    omega
  have hgetLast : (outputItems published).getLast? = some (carrier id token) := by
    rw [happended, List.getLast?_append, List.getLast?_singleton, Option.some_or]
  have hget : (outputItems published)[items.length]? = some (carrier id token) := by
    rw [happended, List.getElem?_append_right (Nat.le_refl _), Nat.sub_self]
    rfl
  have hends := @Ending.ends_rewritten published items (outputItems published) _ hending
    fun index hlt => hlt.trans hgrown
  refine ⟨before.map (rewritten published (outputItems published)) ++
    [addedEvent items.length (carrier id token), doneEvent items.length (carrier id token),
      rewritten published (outputItems published) last], ?_,
    ⟨before.map (rewritten published (outputItems published)) ++
      [addedEvent items.length (carrier id token), doneEvent items.length (carrier id token)],
      rewritten published (outputItems published) last, ?_, type_rewritten.trans hlast,
      rewritten_completed hlast⟩, ?_, nofun, ?_⟩
  · have hindex : ((before ++ [last]).map (rewritten published (outputItems published))).length -
        1 = (before.map (rewritten published (outputItems published))).length := by
      rw [List.map_append, List.length_append, List.map_singleton, List.length_singleton,
        Nat.add_sub_cancel]
    simp only [managedFinalEvents, hv.output, h.adds, h.output, Option.bind_eq_bind,
      Option.bind_some]
    rw [if_pos hgrown, hgetLast, hindex, List.map_append, List.take_left, List.drop_left,
      Option.bind_some, List.append_assoc]
    rfl
  · rw [List.append_assoc]
    rfl
  · intro e he htype
    rcases List.mem_append.1 he with he | he
    · obtain ⟨event, hevent, rfl⟩ := List.mem_map.1 he
      exact hends event (List.mem_append_left _ hevent) htype
    · simp only [List.mem_cons, List.not_mem_nil, or_false] at he
      rcases he with rfl | rfl | rfl
      · simp [addedEvent, fieldStr, asStr, addedType, doneType] at htype
      · exact ends_doneEvent hv.few hget
      · rw [type_rewritten, hlast] at htype
        exact absurd htype (by decide)
  · intro id' token' happended' l hl
    cases hl
    rw [happended] at happended'
    have hsame := List.append_cancel_left happended'
    rw [List.cons.injEq] at hsame
    refine ⟨before.map (rewritten published (outputItems published)), _, ?_, by rw [← hsame.1]⟩
    rw [List.dropLast_concat, List.map_map]
    exact List.map_congr_left fun event _ => type_rewritten

/-- What is published of a turn agrees with the finalized response, and all that its stream
yields stays within the limit. -/
theorem publication_agrees :
    (∀ response items token events, Validated response items →
      (∀ l, events = some l → Ending items.length l) → ∃ published result,
        addEnvelope response token = some published ∧
        managedFinalEvents response token events = some result ∧
        Agrees items published events result ∧
        (outputItems published).countP (carries token) = 1) ∧
    ∀ rt nonce max heard finish accounted db,
      size (streamed rt nonce max heard finish accounted db).1 ≤ max := by
  refine ⟨fun response items token events hv hevents => ?_, size_streamed⟩
  obtain ⟨published, h⟩ := hv.enveloped token
  have hresult : ∃ result, managedFinalEvents response token events = some result ∧
      Agrees items published events result := by
    cases events with
    | none => exact h.agrees_unlisted hv
    | some l =>
        rcases h.length with hsame | ⟨id, happended⟩
        · exact h.agrees_kept hv (hevents l rfl) hsame
        · exact h.agrees_grown hv (hevents l rfl) happended
  obtain ⟨result, hresult, hagrees⟩ := hresult
  exact ⟨published, result, h.adds, hresult, hagrees, h.single⟩

def emptyResponse : Json := .object [("output", .array [])]

theorem validated_emptyResponse : Validated emptyResponse [] :=
  ⟨rfl, by decide, fun _ h => (nomatch h), fun _ h => (nomatch h)⟩

/-- The one event that ends an empty response comes after those of the carrier. -/
theorem publication_agrees_empty : ∃ published result,
    addEnvelope emptyResponse "t" = some published ∧
    managedFinalEvents emptyResponse "t" (some [completedEvent .null]) = some result ∧
    Agrees [] published (some [completedEvent .null]) result ∧
    (outputItems published).countP (carries "t") = 1 := by
  refine publication_agrees.1 emptyResponse [] "t" _ validated_emptyResponse ?_
  rintro l ⟨rfl⟩
  refine ⟨⟨[], _, rfl, type_completedEvent .null⟩, List.forall_mem_singleton.2 fun h => ?_⟩
  rw [type_completedEvent] at h
  exact absurd h (by decide)

/-- Without a list of terminal events the carrier that is appended is not announced. -/
theorem publication_unannounced : ¬∀ response items token events result,
    Validated response items → (∀ l, events = some l → Ending items.length l) →
    managedFinalEvents response token events = some result →
    ∀ id published, addEnvelope response token = some published →
      outputItems published = items ++ [carrier id token] →
      ∃ before last, result = before ++ [addedEvent items.length (carrier id token),
        doneEvent items.length (carrier id token), last] := by
  intro hall
  obtain ⟨result, hresult, hlength⟩ : ∃ result,
      managedFinalEvents emptyResponse "t" none = some result ∧ result.length = 2 := ⟨_, rfl, rfl⟩
  obtain ⟨before, last, hlist⟩ := hall emptyResponse [] "t" none result validated_emptyResponse
    (fun _ h => (nomatch h)) hresult "response" _ rfl rfl
  rw [hlist, List.length_append] at hlength
  exact absurd hlength (by simp)

end Agreement

end ResponseGateway.Proxy
