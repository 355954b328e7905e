import ResponseGateway.Ir.ResponsesFields

/-!
Encoding what was decoded. Every part, tool, choice and option is restored as it
was. The one place where a value is not kept is the status of a message or tool
call: an object with one key is read as the status it names and written as text,
so items are restored up to `plainItem`.
-/

namespace ResponseGateway.Ir.Responses
open Checked Json Request Assoc

theorem object_ok {value : Json} {field : String} {fields : Fields} :
    object value field = .ok fields ↔ value = .object fields := by
  simp [object]

theorem array_ok {value : Json} {field : String} {items : List Json} :
    array value field = .ok items ↔ value = .array items := by
  simp [array]

/-- Decoding a list and encoding it again, element by element. -/
theorem mapM_inverse {α β γ : Type} {decode : α → Except IrError β} {encode : β → Except IrError γ}
    {f : α → γ} {l : List α} {m : List β} (h : l.mapM decode = .ok m)
    (hinv : ∀ a ∈ l, ∀ b, decode a = .ok b → encode b = .ok (f a)) :
    m.mapM encode = .ok (l.map f) := by
  induction l generalizing m with
  | nil =>
      rw [List.mapM_nil] at h
      cases h
      rfl
  | cons a l ih =>
      rw [List.mapM_cons] at h
      obtain ⟨b, hb, h⟩ := bind_ok.1 h
      obtain ⟨bs, hbs, h⟩ := bind_ok.1 h
      cases h
      rw [List.mapM_cons, hinv a (by simp) b hb, bind_of_ok,
        ih hbs fun a' ha' => hinv a' (by simp [ha'])]
      rfl

section Parts

theorem encodePart_decodePart {value : Json} {part : Part} (hv : value.Canonical)
    (h : decodePart value = .ok part) : encodePart part = .ok value := by
  obtain ⟨whole, hwhole, h⟩ := bind_ok.1 h
  obtain ⟨⟨tag, f₁⟩, htag, h⟩ := bind_ok.1 h
  obtain ⟨known, hknown, h⟩ := bind_ok.1 h
  rw [object_ok] at hwhole
  subst hwhole
  have hs := required_split (Split.refl hv.sorted) rfl htag
  unfold decodePartKind at hknown
  split at hknown
  · obtain ⟨⟨text, f₂⟩, htext, hknown⟩ := bind_ok.1 hknown
    cases hknown
    cases h
    have hs := required_split hs rfl htext
    exact put_bind hs rfl fun _ hs => put_bind hs rfl fun _ hs => finish hs rfl
  · obtain ⟨⟨text, f₂⟩, htext, hknown⟩ := bind_ok.1 hknown
    cases hknown
    obtain ⟨⟨annotations, f₃⟩, hannotations, h⟩ := bind_ok.1 h
    cases h
    have hs := required_split hs rfl htext
    have hs := takeWith_plain (f := .array) hs rfl hannotations
      fun _ _ hx => (array_ok.1 hx).symm
    exact optional_bind hs rfl fun _ hs => put_bind hs rfl fun _ hs => put_bind hs rfl fun _ hs =>
      finish hs rfl
  · obtain ⟨⟨text, f₂⟩, htext, hknown⟩ := bind_ok.1 hknown
    cases hknown
    cases h
    have hs := required_split hs rfl htext
    exact put_bind hs rfl fun _ hs => put_bind hs rfl fun _ hs => finish hs rfl
  · obtain ⟨⟨url, f₂⟩, hurl, hknown⟩ := bind_ok.1 hknown
    obtain ⟨⟨detail, f₃⟩, hdetail, hknown⟩ := bind_ok.1 hknown
    cases hknown
    cases h
    have hs := string_split (required_split hs rfl hurl) rfl hdetail
    exact put_bind hs rfl fun _ hs => put_bind hs rfl fun _ hs => optional_bind hs rfl fun _ hs =>
      finish hs rfl
  · cases hknown
    cases h
    rfl

theorem encodeContent_decodeContent {value : Json} {content : Content} (hv : value.Canonical)
    (h : decodeContent value = .ok content) : encodeContent content = .ok value := by
  cases value with
  | string text =>
      cases h
      rfl
  | array items =>
      obtain ⟨parts, hparts, h⟩ := bind_ok.1 h
      cases h
      have hback := mapM_inverse (f := id) hparts
        fun value hmem part hpart => encodePart_decodePart (hv.items hmem) hpart
      rw [encodeContent, hback, List.map_id]
      rfl
  | null | bool _ | number _ | object _ => cases h

theorem encodeParts_decodeSummary {value : Json} {parts : List Part} (hv : value.Canonical)
    (h : decodeSummary value = .ok parts) : encodeParts parts = .ok value := by
  obtain ⟨items, hitems, h⟩ := bind_ok.1 h
  rw [array_ok] at hitems
  subst hitems
  have hback := mapM_inverse (f := id) h
    fun value hmem part hpart => encodePart_decodePart (hv.items hmem) hpart
  rw [encodeParts, hback, List.map_id]
  rfl

end Parts

section Statuses

/-- The text form of a status that was given as an object with one key. -/
def plainStatus : Json → Json
  | .object [(name, .null)] => .string name
  | value => value

/-- Whether the codec reads the status of an item with these fields. -/
def readsStatus (fields : Fields) : Bool :=
  match get "type" fields with
  | some (.string tag) => tag ∈ ["message", "function_call", "custom_tool_call"]
  | some .null | none => (get "role" fields).isSome
  | some _ => false

/-- The item as the codec writes it. -/
def plainItem : Json → Json
  | .object fields =>
      if readsStatus fields then
        match get "status" fields with
        | some status => .object (insert "status" (plainStatus status) fields)
        | none => .object fields
      else .object fields
  | value => value

theorem statusNamed_name (status : ToolCallStatus) : statusNamed (statusName status) = some status := by
  cases status <;> rfl

theorem statusNamed_some {name : String} {status : ToolCallStatus}
    (h : statusNamed name = some status) : name = statusName status := by
  unfold statusNamed at h
  split at h <;> cases h <;> rfl

theorem plainStatus_of_statusOf {value : Json} {status : ToolCallStatus}
    (h : statusOf value = some status) : plainStatus value = .string (statusName status) := by
  unfold statusOf at h
  split at h
  · rw [statusNamed_some h]
    rfl
  · rw [statusNamed_some h]
    rfl
  · cases h

theorem statusOf_plainStatus {value : Json} {status : ToolCallStatus}
    (h : statusOf value = some status) : statusOf (plainStatus value) = some status := by
  rw [plainStatus_of_statusOf h]
  exact statusNamed_name status

theorem decodeStatus_split {whole fields rest : Fields} {taken : List (String × Option Json)}
    {status : Option ToolCallStatus} (hs : Split whole fields taken)
    (hk : pick "status" taken = none)
    (hplain : ∀ value, get "status" whole = some value → plainStatus value = value)
    (h : decodeStatus fields = .ok (status, rest)) :
    Split whole rest (("status", encodeStatus status) :: taken) := by
  obtain ⟨o, ho, hsplit⟩ := takeWith_split
    (fun status => .ok (.string (statusName status))) hs hk h
    (fun value x hget hx => by
      rw [← plainStatus_of_statusOf (okOr_ok.1 hx), hplain value hget])
  rw [encodeOption_pure] at ho
  cases ho
  exact hsplit

theorem plain_of_plainItem {whole : Fields} (hplain : plainItem (.object whole) = .object whole)
    (hreads : readsStatus whole = true) :
    ∀ value, get "status" whole = some value → plainStatus value = value := by
  intro value hget
  rw [plainItem, if_pos hreads, hget] at hplain
  have hsame := congrArg (get "status") (Json.object.inj hplain)
  rw [get_insert, if_pos rfl, hget] at hsame
  exact Option.some.inj hsame

end Statuses

section Items

variable {binding : Option ContinuityBinding} {whole fields : Fields} {item : Item}

theorem roleName_of_roleNamed {name : String} {role : Role} (h : roleNamed name = .ok role) :
    roleName role = name := by
  unfold roleNamed at h
  split at h <;> cases h <;> rfl

/-- The tag of a message, when it has one. -/
def messageTag (explicitType : Bool) : Option Json :=
  if explicitType then some (.string "message") else none

theorem encodeItem_decodeMessage (explicitType : Bool) (hv : (Json.object whole).Canonical)
    (hs : Split whole fields [("type", messageTag explicitType)])
    (hplain : ∀ value, get "status" whole = some value → plainStatus value = value)
    (h : decodeMessage explicitType fields = .ok item) :
    encodeItem binding item = .ok (.object whole) := by
  obtain ⟨⟨role, f₁⟩, hrole, h⟩ := bind_ok.1 h
  obtain ⟨role', hrole', h⟩ := bind_ok.1 h
  obtain ⟨⟨status, f₂⟩, hstatus, h⟩ := bind_ok.1 h
  obtain ⟨⟨id, f₃⟩, hid, h⟩ := bind_ok.1 h
  obtain ⟨⟨content, f₄⟩, hcontent, h⟩ := bind_ok.1 h
  obtain ⟨content', hcontent', h⟩ := bind_ok.1 h
  cases h
  obtain rfl := roleName_of_roleNamed hrole'
  have hs := required_split hs rfl hrole
  have hs := decodeStatus_split hs rfl hplain hstatus
  have hs := itemId_split hs rfl hid
  obtain ⟨hs, hget⟩ := remove_split hs rfl hcontent
  have hback := encodeContent_decodeContent (hv.get hget) hcontent'
  refine optional_bind hs rfl fun _ hs => ?_
  cases explicitType with
  | true =>
      refine put_bind hs rfl fun _ hs => optional_bind hs rfl fun _ hs =>
        put_bind hs rfl fun _ hs => ?_
      rw [hback]
      exact put_bind hs rfl fun _ hs => finish hs rfl
  | false =>
      have hs := hs.drop (k := "type") rfl
      refine optional_bind hs rfl fun _ hs => put_bind hs rfl fun _ hs => ?_
      rw [hback]
      exact put_bind hs rfl fun _ hs => finish hs rfl

theorem encodeItem_decodeToolCall (kind : ToolKind)
    (hs : Split whole fields [("type", some (.string (callTag kind)))])
    (hplain : ∀ value, get "status" whole = some value → plainStatus value = value)
    (h : decodeToolCall kind fields = .ok item) :
    encodeItem binding item = .ok (.object whole) := by
  obtain ⟨⟨id, f₁⟩, hid, h⟩ := bind_ok.1 h
  obtain ⟨⟨callId, f₂⟩, hcallId, h⟩ := bind_ok.1 h
  obtain ⟨callId', hcallId', h⟩ := bind_ok.1 h
  obtain ⟨⟨tool, f₃⟩, htool, h⟩ := bind_ok.1 h
  obtain ⟨⟨raw, f₄⟩, hraw, h⟩ := bind_ok.1 h
  obtain ⟨⟨status, f₅⟩, hstatus, h⟩ := bind_ok.1 h
  cases h
  obtain rfl := Identity.new_ok.1 hcallId'
  have hs := itemId_split hs rfl hid
  have hs := required_split hs rfl hcallId
  have hs := toolIdentity_split hs rfl rfl htool
  cases kind with
  | function | custom =>
      have hs := required_split hs rfl hraw
      have hs := decodeStatus_split hs rfl hplain hstatus
      exact optional_bind hs rfl fun _ hs => put_bind hs rfl fun _ hs =>
        putTool_bind hs rfl rfl fun _ hs => optional_bind hs rfl fun _ hs =>
        put_bind hs rfl fun _ hs => put_bind hs rfl fun _ hs => finish hs rfl

theorem encodeItem_decodeToolResult (kind : ToolKind)
    (hs : Split whole fields [("type", some (.string (resultTag kind)))])
    (h : decodeToolResult kind fields = .ok item) :
    encodeItem binding item = .ok (.object whole) := by
  obtain ⟨⟨id, f₁⟩, hid, h⟩ := bind_ok.1 h
  obtain ⟨⟨callId, f₂⟩, hcallId, h⟩ := bind_ok.1 h
  obtain ⟨callId', hcallId', h⟩ := bind_ok.1 h
  obtain ⟨⟨output, f₃⟩, houtput, h⟩ := bind_ok.1 h
  cases h
  obtain rfl := Identity.new_ok.1 hcallId'
  have hs := itemId_split hs rfl hid
  have hs := required_split hs rfl hcallId
  obtain ⟨hs, -⟩ := remove_split hs rfl houtput
  exact optional_bind hs rfl fun _ hs => put_bind hs rfl fun _ hs => put_bind hs rfl fun _ hs =>
    put_bind hs rfl fun _ hs => finish hs rfl

theorem fromUTF8_toUTF8 (text : String) : String.fromUTF8? text.toUTF8 = some text :=
  dif_pos text.isValidUTF8

theorem encodeOpaque_decodeOpaque {value : Json} {state : OpaqueState}
    (h : decodeOpaque binding value = .ok state) : encodeOpaque binding state = .ok value := by
  obtain ⟨text, htext, h⟩ := bind_ok.1 h
  obtain ⟨target, htarget, h⟩ := bind_ok.1 h
  obtain ⟨_, -, hnew⟩ := bind_ok.1 h
  rw [okOr_ok, asStr_eq_some] at htext
  rw [encodeOpaque, htarget, bind_of_ok, OpaqueState.replay_of_new hnew, bind_of_ok,
    fromUTF8_toUTF8, htext]
  rfl

theorem encodeItem_decodeReasoning (hv : (Json.object whole).Canonical)
    (hs : Split whole fields [("type", some (.string "reasoning"))])
    (h : decodeReasoning binding fields = .ok item) :
    encodeItem binding item = .ok (.object whole) := by
  obtain ⟨⟨id, f₁⟩, hid, h⟩ := bind_ok.1 h
  obtain ⟨⟨summary, f₂⟩, hsummary, h⟩ := bind_ok.1 h
  obtain ⟨⟨state, f₃⟩, hstate, h⟩ := bind_ok.1 h
  cases h
  have hs := itemId_split hs rfl hid
  obtain ⟨summaryJson, hsummaryBack, hs⟩ := takeWith_split encodeParts hs rfl hsummary
    fun value parts hget hparts => encodeParts_decodeSummary (hv.get hget) hparts
  obtain ⟨stateJson, hstateBack, hs⟩ := takeWith_split (encodeOpaque binding) hs rfl hstate
    fun value state _ hstate => encodeOpaque_decodeOpaque hstate
  refine optional_bind hs rfl fun _ hs => put_bind hs rfl fun _ hs => ?_
  rw [hsummaryBack]
  refine optional_bind hs rfl fun _ hs => ?_
  rw [hstateBack]
  exact optional_bind hs rfl fun _ hs => finish hs rfl

theorem string_some {s key : String} {rest : Fields} (h : string fields key = .ok (some s, rest)) :
    get key fields = some (.string s) := by
  obtain ⟨value, hget, -, hvalue, -⟩ := takeWith_some h
  rw [okOr_ok, asStr_eq_some] at hvalue
  rw [hget, hvalue]

theorem encodeItem_decodeItem {value : Json} (hv : value.Canonical)
    (hplain : plainItem value = value) (h : decodeItem binding value = .ok item) :
    encodeItem binding item = .ok value := by
  obtain ⟨whole, hwhole, h⟩ := bind_ok.1 h
  obtain ⟨⟨tag, f₁⟩, htag, h⟩ := bind_ok.1 h
  rw [object_ok] at hwhole
  subst hwhole
  have hs := string_split (Split.refl hv.sorted) rfl htag
  have hreads : ∀ name, tag = some name → name ∈ ["message", "function_call", "custom_tool_call"] →
      readsStatus whole = true := by
    rintro name rfl hname
    rw [readsStatus, string_some htag]
    exact decide_eq_true hname
  dsimp only at h
  split at h
  · exact encodeItem_decodeMessage true hv hs
      (plain_of_plainItem hplain (hreads _ rfl (by simp))) h
  · exact encodeItem_decodeToolCall .function hs
      (plain_of_plainItem hplain (hreads _ rfl (by simp))) h
  · exact encodeItem_decodeToolCall .custom hs
      (plain_of_plainItem hplain (hreads _ rfl (by simp))) h
  · exact encodeItem_decodeToolResult .function hs h
  · exact encodeItem_decodeToolResult .custom hs h
  · exact encodeItem_decodeReasoning hv hs h
  · cases h
    rfl
  · split at h
    · next hrole =>
        obtain ⟨hrest, hnone⟩ := takeWith_none htag
        rw [hrest] at hrole
        refine encodeItem_decodeMessage false hv hs
          (plain_of_plainItem hplain ?_) h
        rcases hnone with hnone | hnone <;> rw [readsStatus, hnone] <;> exact hrole
    · cases h

end Items

end ResponseGateway.Ir.Responses
