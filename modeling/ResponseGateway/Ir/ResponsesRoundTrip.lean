import ResponseGateway.Ir.ResponsesStatus
import ResponseGateway.Ir.ResponsesTools

/-!
The request codec as a whole: encoding a decoded request gives the client's
object with `store` set to false, exactly when no status the codec reads was
given as an object; decoding the encoded request gives the request back in every
case.
-/

namespace ResponseGateway.Ir.Responses
open Checked Json Request Assoc

section Admission

variable {request fields : Fields} {model : String} {stream : Bool}

theorem boolField_ok {key : String} {value : Option Bool} :
    boolField request key = .ok value ↔ get key request = value.map .bool := by
  unfold boolField
  split
  · next v hget =>
      rw [bind_ok, hget]
      cases v <;> cases value <;> simp [asBool, okOr]
  · next hget =>
      rw [hget]
      cases value <;> simp

/-- What the stateless rules require of a request. -/
structure Admitted (request : Fields) (model : String) (stream : Bool) : Prop where
  model_get : get "model" request = some (.string model)
  model_ne : model.isEmpty = false
  store : get "store" request = none ∨ get "store" request = some (.bool false)
  background : get "background" request = none ∨ get "background" request = some (.bool false)
  history : hasHistory request = false
  stored : hasStored request = false
  stream_get : get "stream" request = none ∧ stream = false ∨
    get "stream" request = some (.bool stream)

theorem flag_off {key : String} {value : Option Bool} (h : get key request = value.map .bool)
    (hoff : value ≠ some true) : get key request = none ∨ get key request = some (.bool false) := by
  match value with
  | none => exact .inl h
  | some false => exact .inr h
  | some true => exact absurd rfl hoff

theorem flag_of_off {key : String}
    (h : get key request = none ∨ get key request = some (.bool false)) :
    ∃ value, value ≠ some true ∧ boolField request key = .ok value := by
  rcases h with h | h
  · exact ⟨none, by decide, boolField_ok.2 h⟩
  · exact ⟨some false, by decide, boolField_ok.2 h⟩

theorem normalizeStateless_ok {value : Json} :
    normalizeStateless value = .ok (fields, model, stream) ↔
      ∃ request, value = .object request ∧ fields = insert "store" (.bool false) request ∧
        Admitted request model stream := by
  constructor
  · intro h
    obtain ⟨request, hrequest, h⟩ := bind_ok.1 h
    obtain ⟨name, hname, h⟩ := bind_ok.1 h
    obtain ⟨store, hstore, h⟩ := bind_ok.1 h
    obtain ⟨_, hstoreOff, h⟩ := bind_ok.1 h
    obtain ⟨background, hbackground, h⟩ := bind_ok.1 h
    obtain ⟨_, hoff, h⟩ := bind_ok.1 h
    obtain ⟨streaming, hstream, h⟩ := bind_ok.1 h
    cases h
    rw [okOr_ok, asObject_eq_some] at hrequest
    rw [okOr_ok, Option.filter_eq_some_iff] at hname
    simp only [rejectIf_ok, Bool.or_eq_false_iff, decide_eq_false_iff_not] at hstoreOff hoff
    obtain ⟨text, htext, hstr⟩ := Option.bind_eq_some_iff.1 hname.1
    rw [asStr_eq_some] at hstr
    subst hstr
    refine ⟨request, hrequest, rfl, htext, by simpa using hname.2, ?_, ?_, hoff.1.2, hoff.2, ?_⟩
    · exact flag_off (boolField_ok.1 hstore) hstoreOff
    · exact flag_off (boolField_ok.1 hbackground) hoff.1.1
    · rw [boolField_ok] at hstream
      cases streaming with
      | none => exact .inl ⟨hstream, rfl⟩
      | some b => exact .inr hstream
  · rintro ⟨request, rfl, rfl, ha⟩
    obtain ⟨store, hstoreOff, hstore⟩ := flag_of_off ha.store
    obtain ⟨background, hbackgroundOff, hbackground⟩ := flag_of_off ha.background
    have hmodel : ((get "model" request).bind asStr).filter (!·.isEmpty) = some model := by
      rw [ha.model_get]
      simp [asStr, ha.model_ne]
    have hstream : ∃ streaming, boolField request "stream" = .ok streaming ∧
        streaming.getD false = stream := by
      rcases ha.stream_get with ⟨hget, rfl⟩ | hget
      · exact ⟨none, boolField_ok.2 hget, rfl⟩
      · exact ⟨some stream, boolField_ok.2 hget, rfl⟩
    obtain ⟨streaming, hstreaming, rfl⟩ := hstream
    refine bind_ok.2 ⟨request, rfl, bind_ok.2 ⟨model, okOr_ok.2 hmodel, bind_ok.2 ⟨store, hstore,
      bind_ok.2 ⟨(), by simpa using hstoreOff, bind_ok.2 ⟨background, hbackground,
      bind_ok.2 ⟨(), ?_, bind_ok.2 ⟨streaming, hstreaming, rfl⟩⟩⟩⟩⟩⟩⟩
    rw [rejectIf_ok, ha.history, ha.stored]
    simpa using hbackgroundOff

/-- Other values under `store` and `input` are admitted as well, as long as they
are off and name no stored item. -/
theorem Admitted.congr {request' : Fields} (ha : Admitted request model stream)
    (hget : ∀ key, key ≠ "store" → key ≠ "input" → get key request' = get key request)
    (hstore : get "store" request' = none ∨ get "store" request' = some (.bool false))
    (hstored : hasStored request' = hasStored request) : Admitted request' model stream where
  model_get := by rw [hget _ (by decide) (by decide), ha.model_get]
  model_ne := ha.model_ne
  store := hstore
  background := by
    rw [hget _ (by decide) (by decide)]
    exact ha.background
  history := by
    rw [← ha.history, hasHistory, hasHistory]
    simp only [List.any_cons, List.any_nil, hget _ (by decide : "previous_response_id" ≠ "store")
      (by decide), hget _ (by decide : "conversation" ≠ "store") (by decide),
      hget _ (by decide : "context_management" ≠ "store") (by decide)]
  stored := by rw [hstored, ha.stored]
  stream_get := by
    rw [hget _ (by decide) (by decide)]
    exact ha.stream_get

end Admission

section Requests

variable {parsesJson : String → Bool} {binding : Option ContinuityBinding} {whole : Fields}
  {request : RequestIR}

/-- The fields the request is read from. -/
def core (whole : Fields) : Fields := erase "store" (erase "model" whole)

theorem core_insert_store (hf : Sorted whole) (x : Json) :
    core (insert "store" x whole) = core whole := by
  rw [core, erase_insert_of_ne x hf (by decide), erase_insert_self _ _ (sorted_erase _ hf)]
  rfl

theorem core_insert (hf : Sorted whole) {key : String} (x : Json) (hm : "model" ≠ key)
    (hs : "store" ≠ key) : core (insert key x whole) = insert key x (core whole) := by
  rw [core, erase_insert_of_ne x hf hm, erase_insert_of_ne x (sorted_erase _ hf) hs]
  rfl

theorem decode_ok (hf : Sorted whole) :
    decode parsesJson (.object whole) binding = .ok request ↔
      ∃ model stream, Admitted whole model stream ∧
        decodeFields binding model (core whole) = .ok request ∧
        request.validate parsesJson = .ok () := by
  constructor
  · intro h
    obtain ⟨⟨fields, model, stream⟩, hnormal, h⟩ := bind_ok.1 h
    obtain ⟨request', hfields, h⟩ := bind_ok.1 h
    obtain ⟨_, hvalid, h⟩ := bind_ok.1 h
    cases h
    obtain ⟨_, hwhole, rfl, ha⟩ := normalizeStateless_ok.1 (mapError_ok.1 hnormal)
    cases hwhole
    rw [← core, core_insert_store hf] at hfields
    exact ⟨model, stream, ha, hfields, hvalid⟩
  · rintro ⟨model, stream, ha, hfields, hvalid⟩
    have hnormal := normalizeStateless_ok.2 ⟨whole, rfl, rfl, ha⟩
    refine bind_ok.2 ⟨_, mapError_ok.2 hnormal, bind_ok.2 ⟨request, ?_,
      bind_ok.2 ⟨(), hvalid, rfl⟩⟩⟩
    rw [← core, core_insert_store hf, hfields]

/-- Turning `store` off does not change what is read. -/
theorem decode_insert_store (hf : Sorted whole)
    (h : decode parsesJson (.object whole) binding = .ok request) :
    decode parsesJson (.object (insert "store" (.bool false) whole)) binding = .ok request := by
  obtain ⟨model, stream, ha, hfields, hvalid⟩ := (decode_ok hf).1 h
  refine (decode_ok (sorted_insert _ _ hf)).2 ⟨model, stream, ?_, ?_, hvalid⟩
  · refine ha.congr (fun key hs _ => ?_) (.inr ?_) ?_
    · rw [get_insert, if_neg hs.symm]
    · rw [get_insert, if_pos rfl]
    · rw [hasStored, get_insert, if_neg (by decide)]
      rfl
  · rw [core_insert_store hf, hfields]

def plainInput : Json → Json
  | .array items => .array (items.map plainItem)
  | value => value

/-- The request with every status it reads as text. -/
def plainRequest (whole : Fields) : Fields :=
  match get "input" whole with
  | some input => insert "input" (plainInput input) whole
  | none => whole

theorem mapM_congr {α β : Type} {decode : α → Except IrError β} {f : α → α} {l : List α}
    {m : List β} (h : l.mapM decode = .ok m)
    (hsame : ∀ a ∈ l, ∀ b, decode a = .ok b → decode (f a) = .ok b) :
    (l.map f).mapM decode = .ok m := by
  induction l generalizing m with
  | nil => exact h
  | cons a l ih =>
      rw [List.mapM_cons] at h
      obtain ⟨b, hb, h⟩ := bind_ok.1 h
      obtain ⟨bs, hbs, h⟩ := bind_ok.1 h
      rw [List.map_cons, List.mapM_cons, hsame a (by simp) b hb, bind_of_ok,
        ih hbs fun a' ha' => hsame a' (by simp [ha']), bind_of_ok, h]

theorem decodeInput_plainInput {value : Json} {input : Input} (hv : value.Canonical)
    (h : decodeInput binding value = .ok input) :
    decodeInput binding (plainInput value) = .ok input := by
  cases value with
  | null | bool _ | number _ | string _ | object _ => exact h
  | array items =>
      obtain ⟨decoded, hitems, h⟩ := bind_ok.1 h
      have hplain := mapM_congr (f := plainItem) hitems
        fun item hmem _ hitem => (decodeItem_plainItem (hv.items hmem) hitem).1
      exact bind_ok.2 ⟨decoded, hplain, h⟩

theorem hasStored_plainRequest (whole : Fields) : hasStored (plainRequest whole) = hasStored whole := by
  unfold plainRequest
  split
  · next input hget =>
      rw [hasStored, hasStored, get_insert, if_pos rfl, hget]
      cases input with
      | null | bool _ | number _ | string _ | object _ => rfl
      | array items =>
          simp only [plainInput, Option.bind_some, asArray, Option.any_some, List.any_map,
            Function.comp_def, isStored_plainItem]
  · rfl

theorem plainRequest_sorted (hf : Sorted whole) : Sorted (plainRequest whole) := by
  unfold plainRequest
  split
  · exact sorted_insert _ _ hf
  · exact hf

/-- The plain form is read as the same request. -/
theorem decode_plainRequest (hv : (Json.object whole).Canonical)
    (h : decode parsesJson (.object whole) binding = .ok request) :
    decode parsesJson (.object (plainRequest whole)) binding = .ok request := by
  obtain ⟨model, stream, ha, hfields, hvalid⟩ := (decode_ok hv.sorted).1 h
  refine (decode_ok (plainRequest_sorted hv.sorted)).2 ⟨model, stream, ?_, ?_, hvalid⟩
  · have hget : ∀ key, key ≠ "input" → get key (plainRequest whole) = get key whole := by
      intro key hne
      unfold plainRequest
      split
      · rw [get_insert, if_neg hne.symm]
      · rfl
    refine ha.congr (fun key _ hne => hget key hne) ?_ (hasStored_plainRequest whole)
    rw [hget _ (by decide)]
    exact ha.store
  · unfold plainRequest
    split
    · next value hget =>
        rw [core_insert hv.sorted _ (by decide) (by decide)]
        have hcore : Sorted (core whole) := sorted_erase _ (sorted_erase _ hv.sorted)
        obtain ⟨⟨instructions, f₁⟩, hinstructions, hrest⟩ := bind_ok.1 hfields
        obtain ⟨⟨input, f₂⟩, hinput, hrest⟩ := bind_ok.1 hrest
        obtain ⟨hsorted, hinstructions'⟩ := takeWith_insert (x := plainInput value) hcore
          (by decide : "instructions" ≠ "input") hinstructions
        refine bind_ok.2 ⟨_, hinstructions', bind_ok.2 ⟨(input, f₂), ?_, hrest⟩⟩
        have hget₁ : get "input" f₁ = some value := by
          have hs := string_split (Split.refl hcore) rfl hinstructions
          rw [hs.get_rest rfl, core, get_erase, if_neg (by decide), get_erase, if_neg (by decide),
            hget]
        cases input with
        | none =>
            obtain ⟨rfl, hnone⟩ := takeWith_none hinput
            rw [hget₁] at hnone
            obtain rfl : value = null := by simpa using hnone
            rw [plainInput, insert_of_get hsorted hget₁]
            · exact hinput
            · intro items heq
              cases heq
        | some input =>
            obtain ⟨value', hget', hne, hvalue, rfl⟩ := takeWith_some hinput
            rw [hget₁] at hget'
            cases hget'
            refine takeWith_insert_self hsorted ?_
              (decodeInput_plainInput (hv.get hget) hvalue)
            intro hnull
            cases value with
            | array items => cases hnull
            | null | bool _ | number _ | string _ | object _ => exact hne hnull
    · exact hfields

/-- Some item of the input gives a status as an object. -/
def objectStatuses (whole : Fields) : Bool :=
  match get "input" whole with
  | some (.array items) => items.any objectStatus
  | _ => false

theorem encodeInput_decodeInput {value : Json} {input : Input} (hv : value.Canonical)
    (hplain : plainInput value = value) (h : decodeInput binding value = .ok input) :
    encodeInput binding input = .ok value := by
  cases value with
  | string text =>
      cases h
      rfl
  | array items =>
      obtain ⟨decoded, hitems, h⟩ := bind_ok.1 h
      cases h
      have hplain := List.map_inj_left.1 ((Json.array.inj hplain).trans (List.map_id items).symm)
      have hback := mapM_inverse (f := id) hitems fun item hmem _ hitem =>
        encodeItem_decodeItem (hv.items hmem) (hplain item hmem) hitem
      rw [encodeInput, hback, List.map_id]
      rfl
  | null | bool _ | number _ | object _ => cases h

def generationKeys : List String :=
  ["stream", "max_output_tokens", "temperature", "top_p", "parallel_tool_calls", "tool_choice",
    "text", "reasoning"]

/-- The generation fields and what an encoder has to put back for them. -/
def generationTaken (g : GenerationOptions) (choice output reasoning : Option Json) :
    List (String × Option Json) :=
  [("reasoning", reasoning), ("text", output), ("tool_choice", choice),
    ("parallel_tool_calls", g.parallelToolCalls.map .bool), ("top_p", g.topP.map .number),
    ("temperature", g.temperature.map .number),
    ("max_output_tokens", g.maxOutputTokens.map fun n => .number (Number.ofNat n)),
    ("stream", g.stream.map .bool)]

/-- The generation options written as JSON. -/
structure GenerationJson (g : GenerationOptions) (choice output reasoning : Option Json) : Prop where
  choice : encodeOption encodeChoice g.toolChoice = .ok choice
  output : encodeOption encodeOutput g.output = .ok output
  reasoning : encodeOption encodeReasoningOptions g.reasoning = .ok reasoning

theorem maxOutputTokens_back {value : Json} {n : Nat}
    (h : okOr value.asU64 (IrError.invalidField "max_output_tokens") = .ok n) :
    Json.number (Number.ofNat n) = value := by
  rw [okOr_ok] at h
  cases value with
  | number x => rw [Number.asU64_eq_some h]
  | null | bool _ | string _ | array _ | object _ => cases h

theorem decodeGeneration_split {fields rest : Fields}
    {taken : List (String × Option Json)} {generation : GenerationOptions}
    (hv : (Json.object whole).Canonical) (hs : Split whole fields taken)
    (hk : ∀ key ∈ generationKeys, pick key taken = none)
    (h : decodeGeneration fields = .ok (generation, rest)) :
    ∃ choice output reasoning, GenerationJson generation choice output reasoning ∧
      Split whole rest (generationTaken generation choice output reasoning ++ taken) := by
  obtain ⟨⟨stream, f₁⟩, hstream, h⟩ := bind_ok.1 h
  obtain ⟨⟨maxOutputTokens, f₂⟩, hmax, h⟩ := bind_ok.1 h
  obtain ⟨⟨temperature, f₃⟩, htemperature, h⟩ := bind_ok.1 h
  obtain ⟨⟨topP, f₄⟩, htopP, h⟩ := bind_ok.1 h
  obtain ⟨⟨parallel, f₅⟩, hparallel, h⟩ := bind_ok.1 h
  obtain ⟨⟨choice, f₆⟩, hchoice, h⟩ := bind_ok.1 h
  obtain ⟨⟨output, f₇⟩, houtput, h⟩ := bind_ok.1 h
  obtain ⟨⟨reasoning, f₈⟩, hreasoning, h⟩ := bind_ok.1 h
  cases h
  have hs := boolean_split hs (hk _ (by decide)) hstream
  have hs := takeWith_plain hs (hk "max_output_tokens" (by decide)) hmax
    fun _ _ hx => maxOutputTokens_back hx
  have hs := number_split hs (hk "temperature" (by decide)) htemperature
  have hs := number_split hs (hk "top_p" (by decide)) htopP
  have hs := boolean_split hs (hk "parallel_tool_calls" (by decide)) hparallel
  obtain ⟨choiceJson, hchoiceBack, hs⟩ := takeWith_split encodeChoice hs
    (hk "tool_choice" (by decide)) hchoice
    fun _ _ hget hx => encodeChoice_decodeChoice (hv.get hget) hx
  obtain ⟨outputJson, houtputBack, hs⟩ := takeWith_split encodeOutput hs
    (hk "text" (by decide)) houtput
    fun _ _ hget hx => encodeOutput_decodeOutput (hv.get hget) hx
  obtain ⟨reasoningJson, hreasoningBack, hs⟩ := takeWith_split encodeReasoningOptions hs
    (hk "reasoning" (by decide)) hreasoning
    fun _ _ hget hx => encodeReasoningOptions_decode (hv.get hget) hx
  exact ⟨choiceJson, outputJson, reasoningJson, ⟨hchoiceBack, houtputBack, hreasoningBack⟩, hs⟩

theorem encodeGeneration_bind {β : Type} {g : Fields → Except IrError β} {r : Except IrError β}
    {fields : Fields} {store : Json} {generation : GenerationOptions}
    {choice output reasoning : Option Json}
    (hs : Split whole fields
      (generationTaken generation choice output reasoning ++ [("store", some store)]))
    (hjson : GenerationJson generation choice output reasoning)
    (h : ∀ rest, Split whole rest [("store", some store)] → g rest = r) :
    (encodeGeneration fields generation >>= g) = r := by
  simp only [encodeGeneration, bind_assoc]
  refine optional_bind hs rfl fun _ hs => optional_bind hs rfl fun _ hs =>
    optional_bind hs rfl fun _ hs => optional_bind hs rfl fun _ hs =>
    optional_bind hs rfl fun _ hs => ?_
  rw [hjson.choice]
  refine optional_bind hs rfl fun _ hs => ?_
  rw [hjson.output]
  refine optional_bind hs rfl fun _ hs => ?_
  rw [hjson.reasoning]
  exact optional_bind hs rfl fun _ hs => h _ hs

theorem encode_of_plain (hv : (Json.object whole).Canonical) (hplain : plainRequest whole = whole)
    (h : decode parsesJson (.object whole) binding = .ok request) :
    encode parsesJson request binding = .ok (.object (insert "store" (.bool false) whole)) := by
  obtain ⟨model, streaming, ha, hfields, hvalid⟩ := (decode_ok hv.sorted).1 h
  obtain ⟨⟨instructions, f₁⟩, hinstructions, hrest⟩ := bind_ok.1 hfields
  obtain ⟨⟨input, f₂⟩, hinput, hrest⟩ := bind_ok.1 hrest
  obtain ⟨⟨tools, f₃⟩, htools, hrest⟩ := bind_ok.1 hrest
  obtain ⟨⟨generation, f₄⟩, hgeneration, hrest⟩ := bind_ok.1 hrest
  cases hrest
  have hv' : (Json.object (insert "store" (.bool false) whole)).Canonical := hv.insert trivial
  have hs := Split.refl hv'.sorted
  have hs := hs.remove (k := "model") rfl (by rw [get_insert, if_neg (by decide), ha.model_get])
  have hs := hs.remove (k := "store") rfl
    (by rw [get_erase, if_neg (by decide), get_insert, if_pos rfl])
  rw [← core, core_insert_store hv.sorted] at hs
  have hs := string_split hs rfl hinstructions
  have hinputPlain : ∀ value, get "input" whole = some value → plainInput value = value := by
    intro value hget
    rw [plainRequest, hget] at hplain
    have hsame := congrArg (get "input") hplain
    rw [get_insert, if_pos rfl, hget] at hsame
    exact Option.some.inj hsame
  obtain ⟨inputJson, hinputBack, hs⟩ := takeWith_split (encodeInput binding) hs rfl hinput
    fun value input hget hvalue => by
      rw [get_insert, if_neg (by decide)] at hget
      exact encodeInput_decodeInput (hv.get hget) (hinputPlain value hget) hvalue
  obtain ⟨toolsJson, htoolsBack, hs⟩ := takeWith_split encodeTools hs rfl htools
    fun value tools hget hvalue => encodeTools_decodeTools (hv'.get hget) hvalue
  obtain ⟨choice, output, reasoning, hjson, hs⟩ := decodeGeneration_split hv' hs
    (by simp [generationKeys, pick]) hgeneration
  rw [encode, hvalid]
  refine put_bind hs rfl fun _ hs => optional_bind hs rfl fun _ hs => ?_
  rw [hinputBack]
  refine optional_bind hs rfl fun _ hs => ?_
  rw [htoolsBack]
  refine optional_bind hs rfl fun _ hs => encodeGeneration_bind hs hjson fun data hs => ?_
  have hdone : insert "store" (.bool false) data = insert "store" (.bool false) whole :=
    (hs.restore (k := "store") rfl).done
  have hget : ∀ key, key ≠ "store" → get key data = get key whole := by
    intro key hne
    have hsame := congrArg (get key) hdone
    rwa [get_insert, get_insert, if_neg hne.symm, if_neg hne.symm] at hsame
  have hadmitted : Admitted data model streaming := by
    refine ha.congr (fun key hne _ => hget key hne) (.inl (hs.absent _ (by decide))) ?_
    rw [hasStored, hasStored, hget _ (by decide)]
  rw [mapError_ok.2 (normalizeStateless_ok.2 ⟨data, rfl, rfl, hadmitted⟩), ← hdone]
  rfl

theorem plainInput_canonical {value : Json} (h : value.Canonical) : (plainInput value).Canonical := by
  cases value with
  | null | bool _ | number _ | string _ | object _ => exact h
  | array items =>
      rw [plainInput, Canonical, canonicalItems_iff]
      intro item hmem
      obtain ⟨item', hmem', rfl⟩ := List.mem_map.1 hmem
      exact plainItem_canonical (h.items hmem')

theorem plainInput_idem {value : Json} (h : value.Canonical) :
    plainInput (plainInput value) = plainInput value := by
  cases value with
  | null | bool _ | number _ | string _ | object _ => rfl
  | array items =>
      simp only [plainInput, List.map_map, Json.array.injEq]
      exact List.map_congr_left fun item hmem => plainItem_idem (h.items hmem)

theorem plainRequest_canonical (hv : (Json.object whole).Canonical) :
    (Json.object (plainRequest whole)).Canonical := by
  unfold plainRequest
  split
  · next input hget => exact hv.insert (plainInput_canonical (hv.get hget))
  · exact hv

theorem plainRequest_idem (hv : (Json.object whole).Canonical) :
    plainRequest (plainRequest whole) = plainRequest whole := by
  cases hget : get "input" whole with
  | none => simp only [plainRequest, hget]
  | some input =>
      simp only [plainRequest, hget, get_insert, if_true, plainInput_idem (hv.get hget)]
      exact insert_of_get (sorted_insert _ _ hv.sorted) (by rw [get_insert, if_pos rfl])

theorem encode_decode (hv : (Json.object whole).Canonical)
    (h : decode parsesJson (.object whole) binding = .ok request) :
    encode parsesJson request binding =
      .ok (.object (insert "store" (.bool false) (plainRequest whole))) :=
  encode_of_plain (plainRequest_canonical hv) (plainRequest_idem hv) (decode_plainRequest hv h)

theorem mapM_mem {α β : Type} {decode : α → Except IrError β} {l : List α} {m : List β}
    (h : l.mapM decode = .ok m) : ∀ a ∈ l, ∃ b, decode a = .ok b := by
  induction l generalizing m with
  | nil => simp
  | cons a l ih =>
      rw [List.mapM_cons] at h
      obtain ⟨b, hb, h⟩ := bind_ok.1 h
      obtain ⟨bs, hbs, -⟩ := bind_ok.1 h
      exact List.forall_mem_cons.2 ⟨⟨b, hb⟩, ih hbs⟩

/-- Every item of an accepted request was read. -/
theorem decode_items {items : List Json} (hf : Sorted whole)
    (h : decode parsesJson (.object whole) binding = .ok request)
    (hget : get "input" whole = some (.array items)) :
    ∀ item ∈ items, ∃ x, decodeItem binding item = .ok x := by
  obtain ⟨model, streaming, -, hfields, -⟩ := (decode_ok hf).1 h
  obtain ⟨⟨instructions, f₁⟩, hinstructions, hrest⟩ := bind_ok.1 hfields
  obtain ⟨⟨input, f₂⟩, hinput, -⟩ := bind_ok.1 hrest
  have hcore : Sorted (core whole) := sorted_erase _ (sorted_erase _ hf)
  have hget₁ : get "input" f₁ = some (.array items) := by
    have hs := string_split (Split.refl hcore) rfl hinstructions
    rw [hs.get_rest rfl, core, get_erase, if_neg (by decide), get_erase, if_neg (by decide), hget]
  cases input with
  | none =>
      obtain ⟨-, hnone⟩ := takeWith_none hinput
      simp [hget₁] at hnone
  | some input =>
      obtain ⟨value, hvalue, -, hdecode, -⟩ := takeWith_some hinput
      rw [hget₁] at hvalue
      cases hvalue
      obtain ⟨decoded, hitems, -⟩ := bind_ok.1 hdecode
      exact mapM_mem hitems

theorem plainInput_eq_self {input : Json} (hv : (Json.object whole).Canonical)
    (h : decode parsesJson (.object whole) binding = .ok request)
    (hget : get "input" whole = some input) :
    plainInput input = input ↔ objectStatuses whole = false := by
  rw [objectStatuses, hget]
  cases input with
  | null | bool _ | number _ | string _ | object _ => simp [plainInput]
  | array items =>
      have hitem : ∀ item ∈ items, plainItem item = item ↔ objectStatus item = false := by
        intro item hmem
        obtain ⟨x, hx⟩ := decode_items hv.sorted h hget item hmem
        exact (decodeItem_plainItem ((hv.get hget).items hmem) hx).2
      have hmap : items.map plainItem = items ↔ ∀ item ∈ items, plainItem item = item := by
        conv_lhs => rhs; rw [← List.map_id items]
        exact List.map_inj_left
      simp only [plainInput, Json.array.injEq, hmap, List.any_eq_false, Bool.not_eq_true]
      exact forall₂_congr hitem

theorem plainRequest_eq_self (hv : (Json.object whole).Canonical)
    (h : decode parsesJson (.object whole) binding = .ok request) :
    insert "store" (.bool false) (plainRequest whole) = insert "store" (.bool false) whole ↔
      objectStatuses whole = false := by
  cases hget : get "input" whole with
  | none => simp [plainRequest, objectStatuses, hget]
  | some input =>
      rw [← plainInput_eq_self hv h hget, plainRequest, hget]
      constructor
      · intro heq
        have hsame := congrArg (get "input") heq
        rw [get_insert, if_neg (by decide), get_insert, if_pos rfl, get_insert,
          if_neg (by decide), hget] at hsame
        exact Option.some.inj hsame
      · intro heq
        dsimp only
        rw [heq, insert_of_get hv.sorted hget]

end Requests

section RoundTrip

/-- The value with `store` turned off, in an object. -/
def setStore : Json → Json
  | .object fields => .object (insert "store" (.bool false) fields)
  | value => value

/-- Some item of a request's input gives a status as an object, where the codec
reads a status: in a message, with or without its type, and in a tool call. -/
def hasObjectStatus : Json → Bool
  | .object fields => objectStatuses fields
  | _ => false

/-- A decoded request is written back as the client's value with `store` off
exactly when no status was given as an object, and reading what was written gives
the same request in every case. -/
theorem responses_round_trip (parsesJson : String → Bool) (value : Json.Value)
    (binding : Option ContinuityBinding) (request : RequestIR)
    (h : decode parsesJson value.1 binding = .ok request) :
    (encode parsesJson request binding = .ok (setStore value.1) ↔
        hasObjectStatus value.1 = false) ∧
      ∃ written, encode parsesJson request binding = .ok written ∧
        decode parsesJson written binding = .ok request := by
  obtain ⟨value, hv⟩ := value
  cases value with
  | null | bool _ | number _ | string _ | array _ => cases h
  | object whole =>
      have hencode := encode_decode hv h
      have hback := decode_insert_store (plainRequest_sorted hv.sorted) (decode_plainRequest hv h)
      refine ⟨?_, _, hencode, hback⟩
      rw [hencode, Except.ok.injEq, setStore, Json.object.injEq]
      exact plainRequest_eq_self hv h

/-- A request with one user message whose status is the given value. -/
def statusRequest (status : Json) : Json :=
  .object [("input", .array [.object [("content", .string "x"), ("role", .string "user"),
    ("status", status), ("type", .string "message")]]), ("model", .string "m")]

theorem statusRequest_canonical {status : Json} (h : status.Canonical) :
    (statusRequest status).Canonical := by
  simp only [statusRequest, Canonical, CanonicalItems, CanonicalFields, Sorted, h, and_true,
    List.pairwise_cons, List.mem_cons, List.not_mem_nil, or_false, forall_eq_or_imp, forall_eq,
    List.Pairwise.nil, String.lt_iff_toList_lt, false_imp_iff, implies_true]
  decide

/-- The message of `statusRequest` as it is read. -/
def statusRequestIR : RequestIR where
  version := Request.version
  source := .responses
  model := "m"
  instructions := none
  input := some (.items [.message {
    status := some .completed, id := none, role := .user, content := .text "x",
    explicitType := true, extensions := ext [] }])
  tools := none
  generation := {
    stream := none, maxOutputTokens := none, temperature := none, topP := none,
    parallelToolCalls := none, toolChoice := none, output := none, reasoning := none }
  extensions := ext []

theorem responses_round_trip_status :
    decode (fun _ => true) (statusRequest (.string "completed")) none = .ok statusRequestIR ∧
      encode (fun _ => true) statusRequestIR none =
        .ok (setStore (statusRequest (.string "completed"))) := by
  have h : decode (fun _ => true) (statusRequest (.string "completed")) none =
      .ok statusRequestIR := rfl
  have hround := responses_round_trip (fun _ => true)
    ⟨statusRequest (.string "completed"), statusRequest_canonical trivial⟩ none statusRequestIR h
  exact ⟨h, hround.1.2 (by decide)⟩

theorem object_status_not_restored :
    decode (fun _ => true) (statusRequest (.object [("completed", .null)])) none =
        .ok statusRequestIR ∧
      encode (fun _ => true) statusRequestIR none ≠
        .ok (setStore (statusRequest (.object [("completed", .null)]))) := by
  refine ⟨rfl, ?_⟩
  have hwritten : encode (fun _ => true) statusRequestIR none =
      .ok (setStore (statusRequest (.string "completed"))) := rfl
  rw [hwritten, ne_eq, Except.ok.injEq]
  decide

end RoundTrip

end ResponseGateway.Ir.Responses
