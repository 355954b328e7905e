import ResponseGateway.Adapters.ChatStreamSteps

/-!
What an accepted chunk does to a Chat stream. A chunk carries a piece of the text and pieces
of calls; `Took` says how they are added to what was collected, and what is emitted.
-/

namespace ResponseGateway.Adapters
open Checked Ir Request Method
open Json (ofFields)
open PreparedChat (given said itemName reported)

theorem OrderedMap.insert_insert {K V : Type} [LinearOrder K] (m : OrderedMap K V) (k : K)
    (v v' : V) : (m.insert k v).insert k v' = m.insert k v' := by
  refine OrderedMap.ext_get fun k' => ?_
  simp only [OrderedMap.get_insert]
  split <;> rfl

namespace ChatStream

section Pieces

/-- The choice of a chunk, if it has one. -/
def choiceOf (chunk : Json) : Option Json := ((chunk.field "choices").bind Json.asArray).bind List.head?

def chunkDelta (chunk : Json) : Option Json := (choiceOf chunk).bind (·.field "delta")

def textAt (value : Json) (key : String) : Option String := (given value key).bind Json.asStr

/-- The piece of the text in a chunk. -/
def contentOf (chunk : Json) : Option String := (chunkDelta chunk).bind (textAt · "content")

def callsIn (delta : Json) : List Json := ((given delta "tool_calls").bind Json.asArray).getD []

/-- The pieces of calls in a chunk. -/
def fragmentsOf (chunk : Json) : List Json := ((chunkDelta chunk).map callsIn).getD []

def finishOf (chunk : Json) : Option String := (choiceOf chunk).bind (textAt · "finish_reason")

def createdOf (chunk : Json) : Option Nat := (chunk.field "created").bind Json.asU64

/-- The call that a piece belongs to. -/
def placeOf (piece : Json) : Option Nat := (piece.field "index").bind Json.asU64

/-- A field of the function of a piece. -/
def functionText (piece : Json) (key : String) : Option String :=
  (given piece "function").bind (textAt · key)

/-- The text with a piece more. -/
def heard (known : Option String) (piece : Option String) : Option String :=
  (piece.map fun text => some (known.getD "" ++ text)).getD known

/-- A call with a piece more. -/
def grown (call : ToolFragments) (piece : Json) : ToolFragments where
  id := call.id ++ (textAt piece "id").getD ""
  name := call.name ++ (functionText piece "name").getD ""
  arguments := call.arguments ++ (functionText piece "arguments").getD ""
  functionType := call.functionType || (given piece "type").isSome

/-- The calls with a piece more. -/
def take (calls : OrderedMap Nat ToolFragments) (piece : Json) : OrderedMap Nat ToolFragments :=
  ((placeOf piece).map fun k => calls.insert k (grown ((calls.get k).getD {}) piece)).getD calls

end Pieces

variable {texts : Texts} {s s' : ChatStream} {events : List Json}

section Choices

variable {delta choice : Json}

theorem fragment_ok {key : String} {text : Option String}
    (h : fragment (delta.field key) = .ok text) : text = textAt delta key := by
  rw [fragment] at h
  rw [textAt, given]
  cases hgiven : (delta.field key).filter (!·.isNull) with
  | none =>
      rw [hgiven] at h
      cases h
      rfl
  | some value =>
      rw [hgiven] at h
      simp only [bind_ok, okOr_ok, pure_ok] at h
      obtain ⟨text', htext, rfl⟩ := h
      exact htext.symm

theorem fragment_function_ok {key : String} {text : Option String}
    (h : fragment ((given delta "function").bind (·.field key)) = .ok text) :
    text = functionText delta key := by
  rw [functionText]
  cases hfunction : given delta "function" with
  | none =>
      rw [hfunction] at h
      cases h
      rfl
  | some function =>
      rw [hfunction] at h
      exact fragment_ok h

theorem extend_ok {limit : Nat} {known text : String} {more : Option String}
    (h : extend limit known more = .ok text) : text = known ++ more.getD "" := by
  cases more with
  | none =>
      cases h
      exact String.append_empty.symm
  | some piece =>
      simp only [extend, bind_ok, pure_ok] at h
      obtain ⟨_, -, rfl⟩ := h
      rfl

theorem functionType_ok {known known' : Bool} (h : functionType delta known = .ok known') :
    known' = (known || (given delta "type").isSome) := by
  rw [functionType] at h
  cases hgiven : given delta "type" with
  | none =>
      rw [hgiven] at h
      cases h
      exact (Bool.or_false _).symm
  | some kind =>
      rw [hgiven] at h
      simp only [bind_ok, pure_ok] at h
      obtain ⟨_, -, rfl⟩ := h
      exact (Bool.or_true _).symm

theorem countArguments_accepts {arguments : String} {u : Unit}
    (h : countArguments arguments s = (.ok u, s')) : s'.view = s.view := by
  simp only [countArguments, read_bind_accepts, ensure_bind_accepts, write_accepts] at h
  obtain ⟨_, -, rfl⟩ := h
  rfl

theorem toolDelta_accepts {u : Unit} (h : toolDelta delta s = (.ok u, s')) :
    (placeOf delta).isSome = true ∧
      s'.view = { s.view with calls := take s.view.calls delta } := by
  simp only [toolDelta, read_bind_accepts, ensure_bind_accepts] at h
  obtain ⟨_, -, index, hindex, _, -, _, -, id, hid, name, hname, arguments, harguments, h⟩ := h
  obtain ⟨_, s₁, hreserve, h⟩ := bind_accepts.1 h
  obtain ⟨s₂, hview₂, h⟩ : ∃ s₂, s₂.view = s₁.view ∧ ((do
      let self ← read
      let call := (self.calls.get index).getD {}
      setCall index call
      let functionType ← ensure (functionType delta call.functionType)
      setCall index { call with functionType }
      let id ← ensure (extend 512 call.id id)
      setCall index { call with functionType, id }
      let name ← ensure (extend 64 call.name name)
      setCall index { call with
        functionType, id, name, arguments := call.arguments ++ arguments.getD "" }) :
          ChatMethod Unit) s₂ = (.ok u, s') := by
    cases arguments with
    | none => exact ⟨s₁, rfl, h⟩
    | some arguments =>
        obtain ⟨_, s₂, hcount, h⟩ := bind_accepts.1 h
        exact ⟨s₂, countArguments_accepts hcount, h⟩
  simp only [read_bind_accepts, setCall, write_bind_accepts, ensure_bind_accepts,
    write_accepts] at h
  obtain ⟨kind, hkind, id', hid', name', hname', rfl⟩ := h
  have hplace : placeOf delta = some index := by
    rw [toolIndex, okOr_ok, Option.filter_eq_some_iff] at hindex
    exact hindex.1
  have hview : s₂.view = s.view := hview₂.trans (reserve_accepts hreserve)
  refine ⟨by rw [hplace]; rfl, ?_⟩
  rw [take, hplace, Option.map_some, Option.getD_some, ← hview]
  have hcall : (⟨id', name', ((s₂.calls.get index).getD {}).arguments ++ arguments.getD "", kind⟩ :
      ToolFragments) = grown ((s₂.calls.get index).getD {}) delta := by
    rw [grown, functionType_ok hkind, extend_ok hid', extend_ok hname', fragment_ok hid,
      fragment_function_ok hname, fragment_function_ok harguments]
  rw [show s₂.view.calls = s₂.calls from rfl, ← hcall]
  refine congrArg (fun calls => { s₂.view with calls }) ?_
  rw [OrderedMap.insert_insert, OrderedMap.insert_insert, OrderedMap.insert_insert]

theorem toolDeltas_accepts {deltas : List Json} {u : Unit}
    (h : toolDeltas deltas s = (.ok u, s')) : (∀ delta ∈ deltas, (placeOf delta).isSome = true) ∧
      s'.view = { s.view with calls := deltas.foldl take s.view.calls } := by
  induction deltas generalizing s with
  | nil =>
      obtain ⟨-, rfl⟩ := pure_accepts.1 h
      exact ⟨by simp, rfl⟩
  | cons delta rest ih =>
      obtain ⟨_, s₁, hfirst, hrest⟩ := bind_accepts.1 h
      obtain ⟨hplace, hview⟩ := toolDelta_accepts hfirst
      obtain ⟨hplaces, hview'⟩ := ih hrest
      refine ⟨List.forall_mem_cons.2 ⟨hplace, hplaces⟩, ?_⟩
      rw [hview', hview]
      rfl

theorem takeCalls_accepts {u : Unit} (h : takeCalls delta s = (.ok u, s')) :
    (∀ piece ∈ callsIn delta, (placeOf piece).isSome = true) ∧
      s'.view = { s.view with calls := (callsIn delta).foldl take s.view.calls } := by
  rw [takeCalls] at h
  rw [callsIn]
  cases hgiven : given delta "tool_calls" with
  | none =>
      rw [hgiven] at h
      obtain ⟨-, rfl⟩ := pure_accepts.1 h
      exact ⟨by simp, rfl⟩
  | some value =>
      rw [hgiven] at h
      obtain ⟨calls, hcalls, h⟩ := ensure_bind_accepts.1 h
      rw [okOr_ok] at hcalls
      rw [Option.bind_some, hcalls, Option.getD_some]
      exact toolDeltas_accepts h

/-- What is emitted for a piece of the text. -/
theorem takeText_accepts (h : takeText texts delta s = (.ok events, s')) :
    Numbers s.view.sequence events ∧
      s'.view = { s.view with
        text := heard s.view.text (textAt delta "content")
        sequence := s.view.sequence + events.length } ∧
      ∀ id before, s.view.id = some id → Spoken (itemName id 0) s.view.text before →
        Spoken (itemName id 0) (heard s.view.text (textAt delta "content")) (before ++ events) := by
  rw [takeText] at h
  rw [textAt]
  cases hgiven : given delta "content" with
  | none =>
      rw [hgiven] at h
      obtain ⟨rfl, rfl⟩ := pure_accepts.1 h
      refine ⟨.nil _, rfl, fun id before hid hbefore => ?_⟩
      rw [List.append_nil]
      exact hbefore
  | some content =>
      rw [hgiven] at h
      obtain ⟨text, htext, h⟩ := ensure_bind_accepts.1 h
      rw [okOr_ok] at htext
      obtain ⟨id, hid, hnumbers, hview, hspoken⟩ := textDelta_accepts h
      rw [Option.bind_some, htext]
      refine ⟨hnumbers, hview, fun id' before hid' hbefore => ?_⟩
      cases hid.symm.trans hid'
      exact hspoken before hbefore

end Choices

section Flushes

/-- The completion that was collected, without its usage. -/
def ChatView.collected (v : ChatView) (calls : List Json) : Json :=
  completionOf v.id v.created v.prepared.model v.text calls v.finishReason .null

/-- What is emitted when the message is known. -/
structure Flushes (texts : Texts) (v : ChatView) (events : List Json) (v' : ChatView) : Prop where
  numbers : Numbers v.sequence events
  flushed : ∃ calls response output blocks id p,
    checkCalls v.calls.entries = .ok calls ∧ v.id = some id ∧
    PreparedChat.decode texts (ChatView.collected v calls) v.prepared = (.ok response, p) ∧
    PreparedChat.Decoded v.prepared (ChatView.collected v calls) response output ∧
    PreparedChat.Items id v.text calls.length output ∧ events = blocks.flatten ∧
    Blocks 0 output blocks ∧ v' = { v with
      prepared := p, finalResponse := some response, sequence := v.sequence + events.length }

theorem header_collected {v : ChatView} {calls : List Json} {head : String × ResponseId × Nat}
    (h : v.prepared.header (ChatView.collected v calls) = .ok head) : v.id = some head.1 := by
  simp only [PreparedChat.header, bind_ok, string_ok, pure_ok] at h
  obtain ⟨_, -, _, -, _, -, _, -, text, htext, _, -, _, -, rfl⟩ := h
  cases hid : v.id with
  | none => simp [ChatView.collected, completionOf, Json.fieldStr, hid, textOrNull, Json.asStr] at htext
  | some id =>
      simp [ChatView.collected, completionOf, Json.fieldStr, hid, textOrNull, Json.asStr] at htext
      rw [htext]

theorem message_collected {v : ChatView} {calls : List Json} {choice msg : Json}
    (h : PreparedChat.message (ChatView.collected v calls) = .ok (choice, msg)) :
    said msg = v.text ∧ PreparedChat.calls msg = .ok calls ∧
      choice.fieldStr "finish_reason" = v.finishReason := by
  simp only [PreparedChat.message, bind_ok, okOr_ok, pure_ok, Prod.mk.injEq] at h
  obtain ⟨choices, hchoices, found, hfound, _, -, found', hfound', _, -, _, -, _, -, _, -, rfl, rfl⟩ := h
  rw [Option.filter_eq_some_iff] at hchoices
  obtain ⟨hchoices, -⟩ := hchoices
  simp [ChatView.collected, completionOf, Json.asArray] at hchoices
  subst hchoices
  simp at hfound
  subst hfound
  simp at hfound'
  subst hfound'
  refine ⟨?_, ?_, ?_⟩
  · cases htext : v.text with
    | none => simp [said, given, textOrNull, Json.isNull]
    | some text =>
        simp [said, given, textOrNull]
        rfl
  · simp [PreparedChat.calls, given, Json.isNull, Json.asArray]
    rfl
  · cases v.finishReason <;> simp [Json.fieldStr, textOrNull, Json.asStr]

theorem decoded_output {p : PreparedChat} {value response : Json} {output : List Json}
    (h : PreparedChat.Decoded p value response output) :
    response.lookup "output" = .array output := by
  obtain ⟨_, _, _, _, _, _, _, _, _, -, -, -, -, -, -, hresponse, -⟩ := h.parts
  rw [hresponse]
  exact Json.lookup_of_field (by simp [PreparedChat.responseOf])

theorem flush_accepts (h : flush texts s = (.ok events, s')) :
    Flushes texts s.view events s'.view := by
  simp only [flush, read_bind_accepts, ensure_bind_accepts] at h
  obtain ⟨calls, hcalls, h⟩ := h
  obtain ⟨response, s₁, hzoom, h⟩ := bind_accepts.1 h
  obtain ⟨p, hdecode, rfl⟩ := zoom_accepts.1 hzoom
  change PreparedChat.decode texts (ChatView.collected s.view calls) s.view.prepared = _ at hdecode
  simp only [check_bind_accepts, okOr_ok] at h
  obtain ⟨output, houtput, h⟩ := h
  obtain ⟨events, s₂, hflush, h⟩ := bind_accepts.1 h
  simp only [write_bind_accepts, pure_accepts] at h
  obtain ⟨rfl, rfl⟩ := h
  obtain ⟨⟨output', hdecoded⟩, -⟩ := PreparedChat.decode_accepts hdecode
  obtain ⟨id, hheader, items⟩ : ∃ id, s.view.id = some id ∧
      PreparedChat.Items id s.view.text calls.length output' := by
    obtain ⟨id, _, _, choice, msg, tools, _, _, _, hheader, hmessage, htools, -, -, -, -, hitems⟩ :=
      hdecoded.parts
    obtain ⟨hsaid, hcalls, -⟩ := message_collected hmessage
    cases htools.symm.trans hcalls
    rw [hsaid] at hitems
    exact ⟨id, header_collected hheader, hitems⟩
  have hsame : output' = output := by
    rw [decoded_output hdecoded] at houtput
    exact Option.some.inj houtput
  subst hsame
  obtain ⟨hadvances, blocks, rfl, hblocks⟩ := flushItems_accepts (n := 0)
    (fun k item hk => (Nat.zero_add k).symm ▸ items.item k item hk) hflush
  refine ⟨hadvances.numbers, calls, response, output', blocks, id, p, hcalls, hheader, hdecode,
    hdecoded, items, rfl, hblocks, ?_⟩
  have hview := hadvances.view
  change { s₂.view with finalResponse := some response } = _
  rw [hview]
  rfl

end Flushes

section Chunks

variable {value choice : Json}

/-- The first chunk names the response, and every other one names the same. -/
structure Identified (v : ChatView) (value : Json) (events : List Json) (v' : ChatView) : Prop where
  numbers : Numbers v.sequence events
  opens : ∀ e ∈ events, isCreated e = true ∧ e.field "output_index" = none
  named : ∃ id created, value.fieldStr "id" = some id ∧ createdOf value = some created ∧
    (v.id = none ∧ events ≠ [] ∨ v.id = some id ∧ v.created = some created ∧ events = []) ∧
    v' = { v with id := some id, created := some created, sequence := v.sequence + events.length }

theorem identify_accepts (h : identify texts value s = (.ok events, s')) :
    Identified s.view value events s'.view := by
  simp only [identify, read_bind_accepts, ensure_bind_accepts, string_ok, okOr_ok] at h
  obtain ⟨id, hid, created, hcreated, h⟩ := h
  cases hknown : s.id with
  | some existing =>
      simp only [hknown, ensure_bind_accepts, rejectIf_ok, pure_accepts, Bool.or_eq_false_iff,
        decide_eq_false_iff_not, ne_eq, not_not] at h
      obtain ⟨_, ⟨rfl, hsame⟩, rfl, rfl⟩ := h
      refine ⟨.nil _, by simp, existing, created, hid, hcreated, .inr ⟨hknown, hsame, rfl⟩, ?_⟩
      change s.view = { s.view with id := some existing, created := some created }
      rw [← hknown, ← hsame]
      rfl
  | none =>
      simp only [hknown, ensure_bind_accepts] at h
      obtain ⟨response, -, h⟩ := h
      obtain ⟨_, s₁, hvalidate, h⟩ := bind_accepts.1 h
      rw [write_bind_accepts] at h
      obtain ⟨event, s₂, hemit, h⟩ := bind_accepts.1 h
      obtain ⟨rfl, rfl⟩ := pure_accepts.1 h
      obtain ⟨htyped, hview⟩ := emit_accepts hemit
      have hview₁ := validate_accepts hvalidate
      have hsequence : s₁.sequence = s.sequence := congrArg ChatView.sequence hview₁
      change Typed s₁.sequence _ _ _ at htyped
      rw [hsequence] at htyped
      refine ⟨.one htyped, ?_, id, created, hid, hcreated, .inl ⟨hknown, by simp⟩, ?_⟩
      · refine List.forall_mem_singleton.2 ⟨?_, ?_⟩
        · rw [isCreated, htyped.typeOf]
          rfl
        · rw [htyped.field (by decide) (by decide)]
          simp
      · rw [hview]
        change { s₁.view with
          id := some id, created := some created, sequence := s₁.sequence + 1 } = _
        rw [hview₁, hsequence]
        rfl

theorem takeUsage_accepts {u : Unit} (h : takeUsage texts value s = (.ok u, s')) :
    ∃ usage, reported value = .ok usage ∧
      s'.view = { s.view with usage := usage.or s.view.usage } := by
  simp only [takeUsage, check_bind_accepts] at h
  obtain ⟨usage, hreported, h⟩ := h
  cases usage with
  | none =>
      obtain ⟨-, rfl⟩ := pure_accepts.1 h
      exact ⟨none, hreported, rfl⟩
  | some usage =>
      obtain ⟨_, s₁, hvalidate, h⟩ := bind_accepts.1 h
      rw [write_accepts] at h
      cases h
      refine ⟨some usage, hreported, ?_⟩
      change { s₁.view with usage := some usage } = _
      rw [validate_accepts hvalidate]
      rfl

/-- The choice of a chunk, taken. -/
structure Chosen (texts : Texts) (v : ChatView) (value : Json) (events : List Json)
    (v' : ChatView) : Prop where
  numbers : Numbers v.sequence events
  places : ∀ piece ∈ fragmentsOf value, (placeOf piece).isSome = true
  once : v.finishReason = none ∨
    contentOf value = none ∧ fragmentsOf value = [] ∧ finishOf value = none ∧ events = []
  taken : ∃ spoken flushed, events = spoken ++ flushed ∧
    (∀ id before, v.id = some id → Spoken (itemName id 0) v.text before →
      Spoken (itemName id 0) (heard v.text (contentOf value)) (before ++ spoken)) ∧
    ∃ w, w = { v with
        text := heard v.text (contentOf value), calls := (fragmentsOf value).foldl take v.calls
        finishReason := (finishOf value).or v.finishReason
        sequence := v.sequence + spoken.length } ∧
      (finishOf value = none ∧ flushed = [] ∧ v' = w ∨
        (finishOf value).isSome = true ∧ Flushes texts w flushed v')

theorem checkDelta_ok {delta : Json} (h : checkDelta choice = .ok delta) :
    choice.field "delta" = some delta := by
  simp only [checkDelta, bind_ok, okOr_ok, pure_ok] at h
  obtain ⟨_, -, _, -, delta', hdelta, _, -, _, -, _, -, rfl⟩ := h
  exact hdelta

theorem takeFinish_accepts (h : takeFinish texts choice s = (.ok events, s')) :
    textAt choice "finish_reason" = none ∧ events = [] ∧ s' = s ∨
      ∃ finish, textAt choice "finish_reason" = some finish ∧
        Flushes texts { s.view with finishReason := some finish } events s'.view := by
  rw [takeFinish] at h
  rw [textAt]
  cases hgiven : given choice "finish_reason" with
  | none =>
      rw [hgiven] at h
      obtain ⟨rfl, rfl⟩ := pure_accepts.1 h
      exact .inl ⟨rfl, rfl, rfl⟩
  | some value =>
      rw [hgiven] at h
      simp only [ensure_bind_accepts, okOr_ok, write_bind_accepts] at h
      obtain ⟨finish, hfinish, h⟩ := h
      exact .inr ⟨finish, hfinish, flush_accepts h⟩

theorem takeChoices_accepts (h : takeChoices texts value s = (.ok events, s')) :
    Chosen texts s.view value events s'.view := by
  simp only [takeChoices, ensure_bind_accepts, read_bind_accepts, okOr_ok] at h
  obtain ⟨choices, hchoices, h⟩ := h
  cases choices with
  | nil =>
      simp only [ensure_bind_accepts, pure_accepts] at h
      obtain ⟨_, -, rfl, rfl⟩ := h
      have hnone : choiceOf value = none := by
        rw [choiceOf, hchoices]
        rfl
      have hdelta : chunkDelta value = none := by
        rw [chunkDelta, hnone]
        rfl
      have hcontent : contentOf value = none := by
        rw [contentOf, hdelta]
        rfl
      have hfragments : fragmentsOf value = [] := by
        rw [fragmentsOf, hdelta]
        rfl
      have hfinish : finishOf value = none := by
        rw [finishOf, hnone]
        rfl
      refine ⟨.nil _, by simp [hfragments], .inr ⟨hcontent, hfragments, hfinish, rfl⟩, [], [], rfl,
        fun id before _ hbefore => ?_, _, rfl, .inl ⟨hfinish, rfl, ?_⟩⟩
      · rw [hcontent, List.append_nil]
        exact hbefore
      · rw [hcontent, hfragments, hfinish]
        rfl
  | cons choice rest =>
      simp only [ensure_bind_accepts, rejectIf_ok, Bool.or_eq_false_iff] at h
      obtain ⟨_, ⟨-, hopen⟩, h⟩ := h
      have hopen : s.view.finishReason = none :=
        Option.not_isSome_iff_eq_none.1 (Bool.eq_false_iff.1 hopen)
      have hchoice : choiceOf value = some choice := by
        rw [choiceOf, hchoices]
        rfl
      simp only [takeChoice, ensure_bind_accepts] at h
      obtain ⟨delta, hdelta, h⟩ := h
      obtain ⟨spoken, s₁, hspoken, h⟩ := bind_accepts.1 h
      obtain ⟨_, s₂, hcalls, h⟩ := bind_accepts.1 h
      obtain ⟨flushed, s₃, hflushed, h⟩ := bind_accepts.1 h
      obtain ⟨rfl, rfl⟩ := pure_accepts.1 h
      obtain ⟨hnumbers, hview₁, hsaid⟩ := takeText_accepts hspoken
      obtain ⟨hplaces, hview₂⟩ := takeCalls_accepts hcalls
      have hchunk : chunkDelta value = some delta := by
        rw [chunkDelta, hchoice]
        exact checkDelta_ok hdelta
      have hcontent : contentOf value = textAt delta "content" := by
        rw [contentOf, hchunk]
        rfl
      have hfragments : fragmentsOf value = callsIn delta := by
        rw [fragmentsOf, hchunk]
        rfl
      have hfinish : finishOf value = textAt choice "finish_reason" := by
        rw [finishOf, hchoice]
        rfl
      rw [hview₁] at hview₂
      rcases takeFinish_accepts hflushed with ⟨hnone, rfl, rfl⟩ | ⟨finish, hsome, hflush⟩
      · refine ⟨by rwa [List.append_nil], hfragments ▸ hplaces, .inl hopen, spoken, [], rfl,
          hcontent ▸ hsaid, _, rfl, .inl ⟨hfinish.trans hnone, rfl, ?_⟩⟩
        rw [hview₂, hcontent, hfragments, hfinish, hnone]
        rfl
      · have hw : { s₂.view with finishReason := some finish } = { s.view with
            text := heard s.view.text (contentOf value)
            calls := (fragmentsOf value).foldl take s.view.calls
            finishReason := (finishOf value).or s.view.finishReason
            sequence := s.view.sequence + spoken.length } := by
          rw [hview₂, hcontent, hfragments, hfinish, hsome]
          rfl
        rw [hw] at hflush
        refine ⟨hnumbers.append hflush.numbers, hfragments ▸ hplaces, .inl hopen, spoken, flushed, rfl,
          hcontent ▸ hsaid, _, rfl, .inr ⟨?_, hflush⟩⟩
        rw [hfinish, hsome]
        rfl

/-- An accepted chunk. -/
structure Took (texts : Texts) (v : ChatView) (value : Json) (events : List Json) (v' : ChatView) :
    Prop where
  taken : ∃ opening chosen v₁ v₂ usage, events = opening ++ chosen ∧
    Identified v value opening v₁ ∧ Chosen texts v₁ value chosen v₂ ∧
    reported value = .ok usage ∧ v' = { v₂ with usage := usage.or v₂.usage }

theorem chunk_accepts (h : chunk texts value s = (.ok events, s')) :
    Took texts s.view value events s'.view := by
  simp only [chunk, read_bind_accepts, ensure_bind_accepts] at h
  obtain ⟨_, -, h⟩ := h
  obtain ⟨opening, s₁, hopening, h⟩ := bind_accepts.1 h
  obtain ⟨chosen, s₂, hchosen, h⟩ := bind_accepts.1 h
  obtain ⟨_, s₃, husage, h⟩ := bind_accepts.1 h
  obtain ⟨rfl, rfl⟩ := pure_accepts.1 h
  obtain ⟨usage, hreported, hview⟩ := takeUsage_accepts husage
  exact ⟨opening, chosen, s₁.view, s₂.view, usage, rfl, identify_accepts hopening,
    takeChoices_accepts hchosen, hreported, hview⟩

end Chunks

section Events

/-- The end of a stream. -/
structure Closed (v : ChatView) (events : List Json) (v' : ChatView) : Prop where
  closes : ∃ finish outcome response response' last,
    v.finishReason = some finish ∧ v.prepared.terminal finish v.calls.size = .ok outcome ∧
    v.finalResponse = some response ∧
    (response.setAt "usage" (v.usage.getD .null) : Except (Fault IrError) Json) = .ok response' ∧
    events = [last] ∧ typeOf last = some ("response." ++ PreparedChat.statusText outcome.1) ∧
    last.lookup "response" = response' ∧ last.field "output_index" = none ∧
    Numbers v.sequence events ∧
    v' = { v with finalResponse := none, sequence := v.sequence + 1, done := true }

theorem close_accepts (h : close texts s = (.ok events, s')) : Closed s.view events s'.view := by
  simp only [close, read_bind_accepts, ensure_bind_accepts, okOr_ok, write_bind_accepts,
    check_bind_accepts] at h
  obtain ⟨finish, hfinish, outcome, houtcome, response, hresponse, response', hset, h⟩ := h
  obtain ⟨_, s₁, hvalidate, h⟩ := bind_accepts.1 h
  obtain ⟨last, s₂, hemit, h⟩ := bind_accepts.1 h
  rw [write_bind_accepts, pure_accepts] at h
  obtain ⟨rfl, rfl⟩ := h
  obtain ⟨htyped, hview⟩ := emit_accepts hemit
  have hview₁ : s₁.view = { s.view with finalResponse := none } := validate_accepts hvalidate
  rw [hview₁] at htyped hview
  refine ⟨finish, outcome, response, response', last, hfinish, houtcome, hresponse, hset, rfl,
    htyped.typeOf, ?_, ?_, .one htyped, congrArg (fun v : ChatView => { v with done := true }) hview⟩
  · rw [htyped.lookup (by decide) (by decide)]
    exact Json.lookup_of_field (by simp)
  · rw [htyped.field (by decide) (by decide)]
    simp

theorem event_accepts {sse : SseEvent} (h : event texts sse s = (.ok events, s')) :
    s.view.failed = false ∧ s.view.done = false ∧
      (sse.data = doneText ∧ Closed s.view events s'.view ∨ sse.data ≠ doneText ∧
        ∃ value, Adapters.decode sse.data = .ok value ∧ Took texts s.view value events s'.view) := by
  unfold event at h
  split at h
  · cases h
  · next hgoing =>
      rw [Bool.or_eq_true, not_or, Bool.not_eq_true, Bool.not_eq_true] at hgoing
      refine ⟨hgoing.1, hgoing.2, ?_⟩
      split at h
      · next hconvert =>
          cases h
          simp only [convert, read_bind_accepts, ensure_bind_accepts] at hconvert
          obtain ⟨_, -, _, -, hconvert⟩ := hconvert
          split at hconvert
          · next hdone => exact .inl ⟨hdone, close_accepts hconvert⟩
          · next hdone =>
              obtain ⟨value, hvalue, hconvert⟩ := ensure_bind_accepts.1 hconvert
              exact .inr ⟨hdone, value, hvalue, chunk_accepts hconvert⟩
      · cases h

/-- A stream that is over rejects every event. -/
theorem event_of_over (sse : SseEvent) (h : (s.failed || s.done) = true) :
    event texts sse s = (.error (.error .invalidEventOrder), s) := by
  rw [event, if_pos h]

theorem event_rejects {sse : SseEvent} {fault : Fault IrError}
    (h : event texts sse s = (.error fault, s')) :
    s' = s ∧ (s.failed || s.done) = true ∨ s'.failed = true := by
  unfold event at h
  split at h
  · next hover =>
      cases h
      exact .inl ⟨rfl, hover⟩
  · split at h
    · cases h
    · cases h
      exact .inr rfl

end Events

end ChatStream

end ResponseGateway.Adapters
