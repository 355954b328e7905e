import ResponseGateway.Adapters.ChatStreamChunks

/-!
Whole runs of a Chat stream. The chunks that were accepted are the pieces of one completion:
`completion` puts them together. A complete stream has emitted what that completion decodes
to, and nothing of a tool is emitted before the completion is known to decode.
-/

namespace ResponseGateway.Adapters
open Checked Ir Request Method
open Json (ofFields)
open PreparedChat (given said itemName reported)
open ResponsesStream (ItemEvents Whole Quiet Numbered partDeltas)

namespace ChatStream

section Assembling

/-- The text that was said in pieces. -/
def spokenText (chunks : List Json) : Option String :=
  if chunks.filterMap contentOf = [] then none else some (String.join (chunks.filterMap contentOf))

/-- The pieces of the call with an index. -/
def piecesAt (k : Nat) (pieces : List Json) : List Json :=
  pieces.filter fun piece => decide (placeOf piece = some k)

def callAt (k : Nat) (pieces : List Json) : ToolFragments :=
  let own := piecesAt k pieces
  { id := String.join (own.filterMap (textAt · "id"))
    name := String.join (own.filterMap (functionText · "name"))
    arguments := String.join (own.filterMap (functionText · "arguments"))
    functionType := own.any fun piece => (given piece "type").isSome }

/-- How many calls there are pieces of. -/
def callCount (pieces : List Json) : Nat := (pieces.filterMap placeOf).dedup.length

/-- The last usage that was reported. -/
def lastUsage (chunks : List Json) : Option Json := (chunks.filterMap (given · "usage")).getLast?

/-- The completion that the chunks are the pieces of. -/
def completion (model : String) (chunks : List Json) : Json :=
  let pieces := chunks.flatMap fragmentsOf
  completionOf (chunks.head?.bind (·.fieldStr "id")) (chunks.head?.bind createdOf) model
    (spokenText chunks) ((List.range (callCount pieces)).map fun k => callJson (callAt k pieces))
    (chunks.filterMap finishOf).getLast? ((lastUsage chunks).getD .null)

end Assembling

section Calls

variable {pieces : List Json} {k : Nat}

theorem piecesAt_snoc (pieces : List Json) (piece : Json) (k : Nat) :
    piecesAt k (pieces ++ [piece]) =
      piecesAt k pieces ++ if placeOf piece = some k then [piece] else [] := by
  rw [piecesAt, List.filter_append, ← piecesAt, List.filter_cons]
  simp

theorem join_filterMap_snoc (f : Json → Option String) (pieces : List Json) (piece : Json) :
    String.join ((pieces ++ [piece]).filterMap f) =
      String.join (pieces.filterMap f) ++ (f piece).getD "" := by
  rw [List.filterMap_append, String.join_append, List.filterMap_cons]
  cases f piece <;> simp [String.join]

theorem callAt_snoc_own {piece : Json} (h : placeOf piece = some k) :
    callAt k (pieces ++ [piece]) = grown (callAt k pieces) piece := by
  rw [callAt, piecesAt_snoc, if_pos h, grown]
  simp only [join_filterMap_snoc, callAt, List.any_append, List.any_cons, List.any_nil, Bool.or_false]

theorem callAt_snoc_other {piece : Json} (h : placeOf piece ≠ some k) :
    callAt k (pieces ++ [piece]) = callAt k pieces := by
  rw [callAt, piecesAt_snoc, if_neg h, List.append_nil, callAt]

/-- What is collected under an index. -/
theorem get_take (hplaces : ∀ piece ∈ pieces, (placeOf piece).isSome = true) (k : Nat) :
    (pieces.foldl take .empty).get k =
      if some k ∈ pieces.map placeOf then some (callAt k pieces) else none := by
  induction pieces using List.reverseRecOn with
  | nil => rfl
  | append_singleton pieces piece ih =>
      have ih := ih fun piece hpiece => hplaces piece (List.mem_append_left _ hpiece)
      obtain ⟨place, hplace⟩ := Option.isSome_iff_exists.1 (hplaces piece (by simp))
      rw [List.foldl_append, List.foldl_cons, List.foldl_nil, take, hplace, Option.map_some,
        Option.getD_some, OrderedMap.get_insert, List.map_append, List.map_singleton, hplace]
      by_cases hk : place = k
      · subst hk
        rw [if_pos rfl, if_pos (by simp), callAt_snoc_own hplace, ih]
        by_cases hknown : some place ∈ pieces.map placeOf
        · rw [if_pos hknown, Option.getD_some]
        · rw [if_neg hknown, Option.getD_none]
          have hnone : piecesAt place pieces = [] := by
            refine List.filter_eq_nil_iff.2 fun piece hpiece => ?_
            rw [decide_eq_true_eq]
            exact fun heq => hknown (List.mem_map.2 ⟨piece, hpiece, heq⟩)
          have hfresh : callAt place pieces = {} := by
            rw [callAt, hnone]
            rfl
          rw [hfresh]
      · rw [if_neg hk, ih, callAt_snoc_other (by rw [hplace]; simpa using hk)]
        simp [Ne.symm hk]

theorem checkCalls_ok {calls : OrderedMap Nat ToolFragments} {output : List Json}
    (h : checkCalls calls.entries = .ok output) :
    output.length = calls.size ∧ ∀ (k : Nat) json, output[k]? = some json →
      ∃ call, calls.get k = some call ∧ json = callJson call := by
  obtain ⟨hlength, hall⟩ := mapM_getElem_ok h
  rw [List.length_zipIdx] at hlength
  refine ⟨hlength, fun k json hk => ?_⟩
  obtain ⟨entry, hentry, hcall⟩ := hall k json hk
  rw [List.getElem?_zipIdx, Option.map_eq_some_iff] at hentry
  obtain ⟨known, hknown, rfl⟩ := hentry
  simp only [bind_ok, rejectIf_ok, pure_ok, Bool.or_eq_false_iff, decide_eq_false_iff_not,
    ne_eq, not_not, Nat.zero_add] at hcall
  obtain ⟨_, ⟨hplace, -⟩, rfl⟩ := hcall
  refine ⟨known.2, ?_, rfl⟩
  rw [hplace]
  exact Assoc.get_of_mem calls.sorted (List.mem_of_getElem? hknown)

theorem size_take (hplaces : ∀ piece ∈ pieces, (placeOf piece).isSome = true) :
    (pieces.foldl take .empty).size = callCount pieces := by
  have hnodup : (pieces.foldl take .empty).keys.Nodup :=
    List.Pairwise.map _ (fun _ _ h => ne_of_lt h) (pieces.foldl take .empty).sorted
  rw [OrderedMap.size_eq_keys, callCount]
  refine List.Perm.length_eq
    ((List.perm_ext_iff_of_nodup hnodup (List.nodup_dedup _)).2 fun k => ?_)
  rw [OrderedMap.mem_keys, OrderedMap.contains, get_take hplaces, List.mem_dedup,
    List.mem_filterMap, ← List.mem_map]
  by_cases hk : some k ∈ pieces.map placeOf
  · simp only [hk, if_true, Option.isSome_some]
  · simp only [hk, if_false, Option.isSome_none, Bool.false_eq_true]

/-- The calls of a completion, from what was collected. -/
theorem checkCalls_take (hplaces : ∀ piece ∈ pieces, (placeOf piece).isSome = true)
    {output : List Json} (h : checkCalls (pieces.foldl take .empty).entries = .ok output) :
    output = (List.range (callCount pieces)).map fun k => callJson (callAt k pieces) := by
  obtain ⟨hlength, hall⟩ := checkCalls_ok h
  rw [size_take hplaces] at hlength
  refine List.ext_getElem (by rw [hlength, List.length_map, List.length_range]) fun k hk hk' => ?_
  obtain ⟨call, hcall, hjson⟩ := hall k _ (List.getElem?_eq_getElem hk)
  rw [get_take hplaces] at hcall
  split at hcall
  · rw [hjson, List.getElem_map, List.getElem_range, Option.some.inj hcall]
  · cases hcall

end Calls

section Collecting

variable {texts : Texts} {v v' : ChatView} {chunks events : List Json} {value : Json}

/-- The view holds what the chunks say together. -/
structure Collected (chunks : List Json) (v : ChatView) : Prop where
  named : chunks ≠ [] → v.id.isSome = true
  id : v.id = chunks.head?.bind (·.fieldStr "id")
  created : v.created = chunks.head?.bind createdOf
  text : v.text = spokenText chunks
  places : ∀ piece ∈ chunks.flatMap fragmentsOf, (placeOf piece).isSome = true
  calls : v.calls = (chunks.flatMap fragmentsOf).foldl take .empty
  finish : v.finishReason = (chunks.filterMap finishOf).getLast?
  usage : ∀ value, given value "usage" = lastUsage chunks → reported value = .ok v.usage

theorem spokenText_snoc (chunks : List Json) (value : Json) :
    spokenText (chunks ++ [value]) = heard (spokenText chunks) (contentOf value) := by
  rw [spokenText, List.filterMap_append, List.filterMap_cons]
  cases hcontent : contentOf value with
  | none => rw [List.filterMap_nil, List.append_nil, ← spokenText, heard, Option.map_none,
      Option.getD_none]
  | some text =>
      have hjoin : (spokenText chunks).getD "" = String.join (chunks.filterMap contentOf) := by
        rw [spokenText]
        split
        · next h => rw [h]; rfl
        · rfl
      rw [List.filterMap_nil, if_neg (by simp), heard, Option.map_some, Option.getD_some, hjoin,
        String.join_append]
      simp [String.join]

theorem getLast_snoc {α : Type} {f : Json → Option α} (chunks : List Json) (value : Json) :
    ((chunks ++ [value]).filterMap f).getLast? = (f value).or (chunks.filterMap f).getLast? := by
  rw [List.filterMap_append, List.filterMap_cons]
  cases f value with
  | none => rw [List.filterMap_nil, List.append_nil, Option.none_or]
  | some a => rw [List.filterMap_nil, List.getLast?_append, List.getLast?_singleton]

theorem reported_congr {value value' : Json} (h : given value "usage" = given value' "usage") :
    reported value = reported value' := by
  rw [reported, h, reported]

/-- The fields of a view after a chunk. -/
theorem Took.fields (h : Took texts v value events v') :
    (∃ id created, value.fieldStr "id" = some id ∧ createdOf value = some created ∧
      (v.id = none ∨ v.id = some id ∧ v.created = some created) ∧
      v'.id = some id ∧ v'.created = some created) ∧
    v'.text = heard v.text (contentOf value) ∧
    v'.calls = (fragmentsOf value).foldl take v.calls ∧
    v'.finishReason = (finishOf value).or v.finishReason ∧
    (∀ piece ∈ fragmentsOf value, (placeOf piece).isSome = true) ∧
    ∃ usage, reported value = .ok usage ∧ v'.usage = usage.or v.usage := by
  obtain ⟨opening, chosen, v₁, v₂, usage, -, hidentified, hchosen, hreported, rfl⟩ := h.taken
  obtain ⟨id, created, hid, hcreated, hknown, rfl⟩ := hidentified.named
  obtain ⟨spoken, flushed, -, -, w, rfl, hw⟩ := hchosen.taken
  have hnamed : v.id = none ∨ v.id = some id ∧ v.created = some created :=
    hknown.imp And.left fun hknown => ⟨hknown.1, hknown.2.1⟩
  rcases hw with ⟨-, -, rfl⟩ | ⟨-, hflush⟩
  · exact ⟨⟨id, created, hid, hcreated, hnamed, rfl, rfl⟩, rfl, rfl, rfl, hchosen.places, usage,
      hreported, rfl⟩
  · obtain ⟨_, _, _, _, _, _, -, -, -, -, -, -, -, rfl⟩ := hflush.flushed
    exact ⟨⟨id, created, hid, hcreated, hnamed, rfl, rfl⟩, rfl, rfl, rfl, hchosen.places, usage,
      hreported, rfl⟩

theorem Collected.took (h : Collected chunks v) (htook : Took texts v value events v') :
    Collected (chunks ++ [value]) v' := by
  obtain ⟨⟨id, created, hid, hcreated, hknown, hid', hcreated'⟩, htext, hcalls, hfinish, hplaces,
    usage, hreported, husage⟩ := htook.fields
  have hflat : (chunks ++ [value]).flatMap fragmentsOf =
      chunks.flatMap fragmentsOf ++ fragmentsOf value := by
    rw [List.flatMap_append, List.flatMap_singleton]
  have hhead : (chunks ++ [value]).head?.bind (·.fieldStr "id") = some id ∧
      (chunks ++ [value]).head?.bind createdOf = some created := by
    cases chunks with
    | nil => exact ⟨hid, hcreated⟩
    | cons first rest =>
        rcases hknown with hnone | ⟨hsame, hsame'⟩
        · have hsome := h.named (List.cons_ne_nil _ _)
          rw [hnone] at hsome
          cases hsome
        · exact ⟨h.id.symm.trans hsame, h.created.symm.trans hsame'⟩
  refine ⟨fun _ => by rw [hid']; rfl, hid'.trans hhead.1.symm, hcreated'.trans hhead.2.symm, ?_, ?_,
    ?_, ?_, fun other hother => ?_⟩
  · rw [htext, h.text, spokenText_snoc]
  · rw [hflat]
    intro piece hpiece
    rcases List.mem_append.1 hpiece with hpiece | hpiece
    · exact h.places piece hpiece
    · exact hplaces piece hpiece
  · rw [hcalls, h.calls, hflat, List.foldl_append]
  · rw [hfinish, h.finish, getLast_snoc]
  · rw [lastUsage, getLast_snoc, ← lastUsage] at hother
    rw [husage]
    cases hgiven : given value "usage" with
    | none =>
        rw [hgiven, Option.none_or] at hother
        have hnone : reported value = .ok none := by
          rw [reported, hgiven]
          rfl
        cases hreported.symm.trans hnone
        exact h.usage other hother
    | some raw =>
        have hsame : reported other = reported value :=
          reported_congr (hother.trans (by rw [hgiven, Option.some_or]))
        have hsome : ∃ known, usage = some known := by
          rw [reported, hgiven] at hreported
          simp only [bind_ok, pure_ok] at hreported
          obtain ⟨known, -, rfl⟩ := hreported
          exact ⟨known, rfl⟩
        obtain ⟨known, rfl⟩ := hsome
        rw [hsame, hreported, Option.some_or]

theorem collected_new (hid : v.id = none) (hcreated : v.created = none) (htext : v.text = none)
    (hcalls : v.calls = .empty) (hfinish : v.finishReason = none) (husage : v.usage = none) :
    Collected [] v := by
  refine ⟨fun h => absurd rfl h, hid, hcreated, htext, by simp, hcalls, hfinish, fun value hvalue => ?_⟩
  have hnone : given value "usage" = none := hvalue
  rw [reported, hnone, husage]
  rfl

end Collecting

section Completing

variable {texts : Texts} {p : PreparedChat} {v : ChatView} {chunks output : List Json}
  {response : Json}

theorem upToUsage_completionOf (id : Option String) (created : Option Nat) (model : String)
    (text : Option String) (calls : List Json) (finish : Option String) (usage usage' : Json) :
    PreparedChat.UpToUsage (completionOf id created model text calls finish usage)
      (completionOf id created model text calls finish usage') := by
  intro key hkey
  simp only [completionOf, ofFields, Json.field, Json.asObject, Option.bind_some, List.foldr_cons,
    List.foldr_nil, Assoc.get_insert, if_neg hkey]

/-- The message is known, and decodes to the response. -/
structure Known (texts : Texts) (p : PreparedChat) (v : ChatView) (response : Json)
    (output : List Json) : Prop where
  named : v.id.isSome = true
  final : v.finalResponse = some response
  finish : v.finishReason.isSome = true
  kept : PreparedChat.Kept p v.prepared
  known : ∃ calls, checkCalls v.calls.entries = .ok calls ∧
    PreparedChat.decode texts (ChatView.collected v calls) p = (.ok response, v.prepared) ∧
    PreparedChat.Decoded p (ChatView.collected v calls) response output

/-- The completion that was collected decodes to the response with the last usage. -/
theorem Known.decodes (h : Known texts p v response output) (hcollected : Collected chunks v) :
    ∃ response', (response.setAt "usage" (v.usage.getD .null) : Except (Fault IrError) Json) =
      .ok response' ∧
      (PreparedChat.decode texts (completion p.model chunks) p).1 = .ok response' ∧
      response'.lookup "output" = .array output ∧
      ∀ finish outcome, v.finishReason = some finish →
        v.prepared.terminal finish v.calls.size = .ok outcome →
        response'.fieldStr "status" = some (PreparedChat.statusText outcome.1) := by
  obtain ⟨calls, hcalls, hdecode, hdecoded⟩ := h.known
  obtain ⟨id, responseId, created, choice, msg, tools, finish, outcome, usage, -, hmessage, htools,
    hfinish, hterminal, -, hresponse, -⟩ := hdecoded.parts
  obtain ⟨-, hsame, hreason⟩ := message_collected hmessage
  cases htools.symm.trans hsame
  have hset := PreparedChat.setAt_responseOf (ε := IrError) responseId created p.model
    (PreparedChat.statusText outcome.1) output (usage.getD .null) (v.usage.getD .null) outcome.2
  rw [← hresponse] at hset
  refine ⟨_, hset, ?_, ?_, fun finish' outcome' hfinish' houtcome => ?_⟩
  · have hcompletion : completion p.model chunks = completionOf v.id v.created v.prepared.model
        v.text calls v.finishReason ((lastUsage chunks).getD .null) := by
      rw [hcollected.calls] at hcalls
      rw [completion, hcollected.id, hcollected.created, hcollected.text, hcollected.finish,
        h.kept.model, checkCalls_take hcollected.places hcalls]
    have hgiven : given (completion p.model chunks) "usage" = lastUsage chunks := by
      rw [hcompletion]
      cases hlast : lastUsage chunks with
      | none => simp [completionOf, given, Json.isNull]
      | some raw =>
          obtain ⟨chunk, -, hchunk⟩ := List.mem_filterMap.1 (List.mem_of_getLast? hlast)
          rw [given, Option.filter_eq_some_iff] at hchunk
          simp [completionOf, given, hchunk.2]
    have hnone : given (ChatView.collected v calls) "usage" = none := by
      simp [ChatView.collected, completionOf, given, Json.isNull]
    have hsame : PreparedChat.UpToUsage (ChatView.collected v calls) (completion p.model chunks) := by
      rw [hcompletion]
      exact upToUsage_completionOf _ _ _ _ _ _ _ _
    exact congrArg Prod.fst
      (PreparedChat.decode_usage hsame hnone (hcollected.usage _ hgiven) hdecode hset)
  · exact Json.lookup_of_field (by simp [PreparedChat.responseOf])
  · have hsize : v.calls.size = calls.length := (checkCalls_ok hcalls).1.symm
    have hreason' : choice.fieldStr "finish_reason" = some finish' := hreason.trans hfinish'
    cases hfinish.symm.trans hreason'
    rw [hsize, h.kept.terminal] at houtcome
    cases hterminal.symm.trans houtcome
    simp [PreparedChat.responseOf, Json.fieldStr, Json.asStr]

end Completing

section Speaking

variable {id : String} {text : Option String} {emitted events : List Json}

/-- Arguments of a tool, a tool that is announced or a tool that is done. -/
def isToolEvent (event : Json) : Bool :=
  ResponsesStream.isToolRelease event ||
    isAdded event && (announced event "type").any isToolType

/-- The event is not about a tool and does not end the stream. -/
def Calm (event : Json) : Prop := isToolEvent event = false ∧ isEnding event = false

theorem calm_of_type {type : String} {event : Json} (htype : typeOf event = some type)
    (hmem : type ∈ ["response.created", "response.content_part.added",
      "response.output_text.delta"]) : Calm event := by
  have hother : ∀ type ∈ ["response.created", "response.content_part.added",
      "response.output_text.delta"], toolTypes.contains type = false ∧
        type ≠ "response.output_item.done" ∧ type ≠ "response.output_item.added" ∧
        ["response.completed", "response.incomplete", "response.failed"].contains type = false := by
    decide
  obtain ⟨hcontent, hdone, hadded, hending⟩ := hother type hmem
  refine ⟨?_, ?_⟩
  · rw [isToolEvent, ResponsesStream.not_release htype hcontent hdone, isAdded, htype]
    simp only [Option.some.injEq, hadded, decide_false, Bool.false_and, Bool.or_false]
  · rw [isEnding, htype, Option.any_some, hending]

theorem Spoken.calm (h : Spoken id text events) : ∀ e ∈ events, Calm e ∧
    e.field "output_index" = some (.number (.ofNat 0)) := by
  cases h with
  | silent => simp
  | @said added part deltas opens content =>
      have hadded : typeOf added = some "response.output_item.added" :=
        of_decide_eq_true opens.opens
      refine List.forall_mem_cons.2 ⟨⟨⟨?_, ?_⟩, opens.carries⟩, List.forall_mem_cons.2
        ⟨⟨calm_of_type opens.partType (by decide), opens.content.carries⟩, fun e he => ?_⟩⟩
      · rw [isToolEvent, ResponsesStream.not_release hadded (by decide) (by decide), opens.message]
        simp only [Option.any_some, Bool.false_or, Bool.and_eq_false_iff]
        exact .inr (by decide)
      · exact Adapters.not_ending (by decide) hadded
      · obtain ⟨hcontent, htype, -⟩ := content e he
        exact ⟨calm_of_type htype (by decide), hcontent.carries⟩

/-- The events of the message, when it is done. -/
theorem Spoken.itemEvents {item part textDone partDone done : Json} {said : String}
    (h : Spoken id (some said) events) (hid : item.fieldStr "id" = some id)
    (htype : item.fieldStr "type" = some "message")
    (hholds : item.lookup "content" = .array [part]) (hsame : part.fieldStr "text" = some said)
    (htext : ContentEvent textDone id 0) (hpart : ContentEvent partDone id 0)
    (hnone : ∀ e ∈ [textDone, partDone], typeOf e ≠ some "response.output_text.delta")
    (hdone : isDone done = true) (hitem : done.lookup "item" = item) :
    ItemEvents 0 item (events ++ [textDone, partDone, done]) := by
  cases h with
  | @said added opening deltas opens content =>
      have htool : isTool item = false :=
        ResponsesStream.not_tool_of_itemType (show item.fieldStr "type" = some (itemType false) from htype)
      refine ⟨⟨id, added, opening :: (deltas ++ [textDone, partDone]), done, by simp, hid,
        opens.opens, opens.named, fun e he => ?_, hdone, hitem⟩, .inr ⟨false, htype⟩, fun h => ?_,
        fun reasoning hreasoning => ?_⟩
      · simp only [List.mem_cons, List.mem_append, List.not_mem_nil, or_false] at he
        rcases he with rfl | he | rfl | rfl
        · exact opens.content
        · exact (content e he).1
        · exact htext
        · exact hpart
      · rw [htool] at h
        cases h
      · have hfalse : reasoning = false :=
          ResponsesStream.itemType_injective (Option.some.inj (hreasoning.symm.trans htype))
        subst hfalse
        refine ⟨[part], hholds, fun j found hfound => ?_⟩
        rw [List.getElem?_singleton] at hfound
        split at hfound
        · next hj =>
            cases hfound
            subst hj
            have hadded : typeOf added = some "response.output_item.added" :=
              of_decide_eq_true opens.opens
            have hdoneType : typeOf done = some "response.output_item.done" :=
              of_decide_eq_true hdone
            have hdeltas : partDeltas false 0 deltas = deltas :=
              List.filter_eq_self.2 fun e he => by
                obtain ⟨-, htype, hat⟩ := content e he
                rw [atPart_of hat, htype]
                rfl
            have hother : ∀ {e : Json}, typeOf e ≠ some (textPrefix false ++ ".delta") →
                (decide (typeOf e = some (textPrefix false ++ ".delta")) && atPart e false 0) =
                  false := fun hne => by rw [decide_eq_false hne, Bool.false_and]
            have hselect : partDeltas false 0 (added :: opening :: deltas ++
                [textDone, partDone, done]) = deltas := by
              rw [partDeltas, List.cons_append, List.cons_append, List.filter_cons,
                hother (by rw [hadded]; decide), List.filter_cons,
                hother (by rw [opens.partType]; decide), List.filter_append, ← partDeltas, hdeltas]
              simp only [Bool.false_eq_true, if_false, List.filter_cons, List.filter_nil,
                hother (hnone textDone (by simp)), hother (hnone partDone (by simp)),
                hother (show typeOf done ≠ some (textPrefix false ++ ".delta") by
                  rw [hdoneType]; decide), List.append_nil]
            rw [hselect, hsame]
        · cases hfound

end Speaking

section Phases

variable {texts : Texts} {p : PreparedChat} {v v' : ChatView} {output emitted events : List Json}
  {response value : Json}

/-- The events under every index are those of an item of the output. -/
structure Parts (output emitted : List Json) : Prop where
  item : ∀ (n : Nat) item, output[n]? = some item → ItemEvents n item (emitted.filter (atIndex · n))
  nothing : ∀ n, output.length ≤ n → emitted.filter (atIndex · n) = []

/-- What was emitted while the message is not yet known. -/
structure Speaking (p : PreparedChat) (v : ChatView) (emitted : List Json) : Prop where
  unfinished : v.finishReason = none
  prepared : v.prepared = p
  calm : ∀ e ∈ emitted, Calm e
  above : ∀ n, 0 < n → emitted.filter (atIndex · n) = []
  spoken : ∀ id, v.id = none ∨ v.id = some id →
    Spoken (itemName id 0) v.text (emitted.filter (atIndex · 0))

/-- What was emitted when the message is known and the stream is not at its end. -/
structure Settled (texts : Texts) (p : PreparedChat) (v : ChatView) (emitted : List Json) :
    Prop where
  known : ∃ response output, Known texts p v response output ∧ Parts output emitted
  going : ∀ e ∈ emitted, isEnding e = false

theorem filter_carried {n : Nat}
    (h : ∀ e ∈ events, e.field "output_index" = some (.number (.ofNat n))) (k : Nat) :
    events.filter (atIndex · k) = if k = n then events else [] :=
  ResponsesStream.filter_index h k

theorem filter_unplaced (h : ∀ e ∈ events, e.field "output_index" = none) (k : Nat) :
    events.filter (atIndex · k) = [] :=
  List.filter_eq_nil_iff.2 fun e he => by simp [not_atIndex (h e he)]

/-- The message is flushed after its text. -/
theorem Speaking.flushed {w : ChatView} {spoken : List Json} (h : ∀ e ∈ emitted ++ spoken, Calm e)
    (habove : ∀ n, 0 < n → (emitted ++ spoken).filter (atIndex · n) = [])
    (hspoken : ∀ id, w.id = some id →
      Spoken (itemName id 0) w.text ((emitted ++ spoken).filter (atIndex · 0)))
    (hprepared : w.prepared = p) (hfinish : w.finishReason.isSome = true)
    (hflush : Flushes texts w events v') : Settled texts p v' (emitted ++ spoken ++ events) := by
  obtain ⟨calls, response, output, blocks, id, p', hcalls, hid, hdecode, hdecoded, hitems, rfl,
    hblocks, rfl⟩ := hflush.flushed
  subst hprepared
  have hkept := (PreparedChat.decode_accepts hdecode).2
  have hcollected : ChatView.collected { w with
        prepared := p', finalResponse := some response
        sequence := w.sequence + blocks.flatten.length } calls = ChatView.collected w calls := by
    rw [ChatView.collected, ChatView.collected, hkept.model]
  have hplaces : ∀ (i : Nat) block, blocks[i]? = some block → ∀ e ∈ block, ∀ k,
      atIndex e k = decide (k = i) := by
    intro i block hblock e he k
    obtain ⟨item, -, hflushed⟩ := hblocks.get hblock
    rw [Nat.zero_add] at hflushed
    exact atIndex_of (hflushed.carries e he)
  have hlength : blocks.length = output.length := hblocks.length
  -- Only the text was emitted before, and under the first index.
  have hsilent : ∀ k, (w.text.isSome = true → 0 < k) →
      (emitted ++ spoken).filter (atIndex · k) = [] := by
    intro k hlater
    rcases Nat.eq_zero_or_pos k with rfl | hpos
    · have hsaid := hspoken id hid
      cases htext : w.text with
      | none =>
          rw [htext] at hsaid
          generalize (emitted ++ spoken).filter (atIndex · 0) = before at hsaid
          cases hsaid
          rfl
      | some said => exact absurd (hlater (by rw [htext]; rfl)) (Nat.lt_irrefl 0)
    · exact habove k hpos
  refine ⟨⟨response, output, ⟨by rw [hid]; rfl, rfl, hfinish, hkept, calls, hcalls, ?_, ?_⟩,
    fun k item hk => ?_, fun k hk => ?_⟩, fun e he => ?_⟩
  · rw [hcollected]
    exact hdecode
  · rw [hcollected]
    exact hdecoded
  · have hlt : k < blocks.length := hlength ▸ (List.getElem?_eq_some_iff.1 hk).1
    obtain ⟨item', hitem', hflushed⟩ := hblocks.get (List.getElem?_eq_getElem hlt)
    cases hk.symm.trans hitem'
    rw [Nat.zero_add] at hflushed
    rw [List.filter_append,
      filter_flatten_block (p := fun k e => atIndex e k) hplaces (List.getElem?_eq_getElem hlt)]
    have hitem := hitems.item k item hk
    generalize blocks[k] = block at hflushed
    cases hflushed with
    | @message id' textDone partDone done hasId type text part noDelta finishes carries same =>
        cases hitem with
        | @message said part said' first hasId' type' holds same' =>
            subst first
            cases hasId.symm.trans hasId'
            have hsaid := hspoken id hid
            rw [said'] at hsaid
            exact hsaid.itemEvents hasId type holds same' text part noDelta finishes same
        | tool later hasId' tool =>
            rw [isTool, type] at tool
            exact absurd tool (by decide)
    | tool tool content =>
        cases hitem with
        | message said first hasId type =>
            rw [isTool, type] at tool
            exact absurd tool (by decide)
        | tool later hasId tool =>
            rw [hsilent k later]
            exact content.itemEvents tool hasId .later
  · have hlater : w.text.isSome = true → 0 < k := fun hsome => by
      have hcount := hitems.length
      rw [hsome] at hcount
      exact Nat.lt_of_lt_of_le (by rw [hcount]; exact Nat.lt_add_right _ Nat.one_pos) hk
    rw [List.filter_append, hsilent k hlater, List.nil_append]
    refine List.filter_eq_nil_iff.2 fun e he => ?_
    obtain ⟨block, hblock, he⟩ := List.mem_flatten.1 he
    obtain ⟨i, hi, rfl⟩ := List.getElem_of_mem hblock
    rw [hplaces i _ (List.getElem?_eq_getElem hi) e he, decide_eq_true_eq]
    omega
  · rcases List.mem_append.1 he with he | he
    · exact (h e he).2
    · obtain ⟨block, hblock, he⟩ := List.mem_flatten.1 he
      obtain ⟨i, hi, rfl⟩ := List.getElem_of_mem hblock
      obtain ⟨item, -, hflushed⟩ := hblocks.get (List.getElem?_eq_getElem hi)
      exact hflushed.not_ending e he

theorem Settled.withUsage (h : Settled texts p v emitted) (usage : Option Json) :
    Settled texts p { v with usage } emitted := by
  obtain ⟨⟨response, output, hknown, hparts⟩, hgoing⟩ := h
  exact ⟨⟨response, output, ⟨hknown.named, hknown.final, hknown.finish, hknown.kept, hknown.known⟩,
    hparts⟩, hgoing⟩

theorem Speaking.took (h : Speaking p v emitted) (htook : Took texts v value events v') :
    Speaking p v' (emitted ++ events) ∨ Settled texts p v' (emitted ++ events) := by
  obtain ⟨opening, chosen, v₁, v₂, usage, rfl, hidentified, hchosen, -, rfl⟩ := htook.taken
  obtain ⟨id, created, -, -, hknown, rfl⟩ := hidentified.named
  obtain ⟨spoken, flushed, rfl, hspoken, w, rfl, hw⟩ := hchosen.taken
  have hid : v.id = none ∨ v.id = some id := hknown.imp And.left And.left
  have hopening : ∀ k, (emitted ++ opening).filter (atIndex · k) = emitted.filter (atIndex · k) := by
    intro k
    rw [List.filter_append, filter_unplaced fun e he => (hidentified.opens e he).2, List.append_nil]
  have hsaid := hspoken id _ rfl (h.spoken id hid)
  have hplaced : ∀ e ∈ spoken, Calm e ∧ e.field "output_index" = some (.number (.ofNat 0)) :=
    fun e he => hsaid.calm e (List.mem_append_right _ he)
  have hfilter : ∀ k, (emitted ++ opening ++ spoken).filter (atIndex · k) =
      emitted.filter (atIndex · k) ++ if k = 0 then spoken else [] := by
    intro k
    rw [List.filter_append, hopening, filter_carried fun e he => (hplaced e he).2]
  have hcalm : ∀ e ∈ emitted ++ opening ++ spoken, Calm e := by
    intro e he
    rcases List.mem_append.1 he with he | he
    · rcases List.mem_append.1 he with he | he
      · exact h.calm e he
      · exact calm_of_type (of_decide_eq_true (hidentified.opens e he).1) (by decide)
    · exact (hplaced e he).1
  have habove : ∀ n, 0 < n → (emitted ++ opening ++ spoken).filter (atIndex · n) = [] := by
    intro n hn
    rw [hfilter, h.above n hn, if_neg (Nat.ne_of_gt hn)]
    rfl
  have hfirst : Spoken (itemName id 0) (heard v.text (contentOf value))
      ((emitted ++ opening ++ spoken).filter (atIndex · 0)) := by
    rw [hfilter, if_pos rfl]
    exact hsaid
  rcases hw with ⟨hfinish, rfl, rfl⟩ | ⟨hfinish, hflush⟩
  · rw [List.append_nil, ← List.append_assoc]
    refine .inl ⟨?_, h.prepared, hcalm, habove, fun id' hid' => ?_⟩
    · rw [hfinish, Option.none_or]
      exact h.unfinished
    · rcases hid' with hnone | hsome
      · cases hnone
      · cases hsome
        exact hfirst
  · rw [← List.append_assoc, ← List.append_assoc]
    refine .inr (Settled.withUsage ?_ _)
    refine Speaking.flushed hcalm habove (fun id' hid' => ?_) ?_ ?_ hflush
    · cases hid'
      exact hfirst
    · exact h.prepared
    · rw [Option.isSome_or, hfinish]
      rfl

theorem Settled.took (h : Settled texts p v emitted) (htook : Took texts v value events v') :
    Settled texts p v' (emitted ++ events) := by
  obtain ⟨opening, chosen, v₁, v₂, usage, rfl, hidentified, hchosen, -, rfl⟩ := htook.taken
  obtain ⟨⟨response, output, hknown, hparts⟩, hgoing⟩ := h
  obtain ⟨id, created, -, -, hnamed, rfl⟩ := hidentified.named
  rcases hnamed with ⟨hnone, -⟩ | ⟨hid, hcreated, rfl⟩
  · have hnamed := hknown.named
    rw [hnone] at hnamed
    cases hnamed
  rcases hchosen.once with hopen | ⟨hcontent, hfragments, hfinish, rfl⟩
  · have hfinish := hknown.finish
    rw [show v.finishReason = none from hopen] at hfinish
    cases hfinish
  obtain ⟨spoken, flushed, heq, -, w, rfl, hw⟩ := hchosen.taken
  obtain ⟨rfl, rfl⟩ := List.append_eq_nil_iff.1 heq.symm
  rcases hw with ⟨-, -, rfl⟩ | ⟨hsome, -⟩
  · refine Settled.withUsage ?_ _
    rw [hcontent, hfragments, hfinish]
    have hsame : { v with id := some id, created := some created } = v := by
      rw [← hid, ← hcreated]
    have hsettled : Settled texts p v emitted := ⟨⟨response, output, hknown, hparts⟩, hgoing⟩
    rw [← hsame] at hsettled
    rw [List.append_nil, List.append_nil]
    exact hsettled
  · rw [hfinish] at hsome
    cases hsome

/-- The end of the stream completes what was emitted. -/
theorem Settled.closes {chunks : List Json} (h : Settled texts p v emitted)
    (hcollected : Collected chunks v) (hclosed : Closed v events v') : ∃ response output,
      (PreparedChat.decode texts (completion p.model chunks) p).1 = .ok response ∧
        Whole (emitted ++ events) response output := by
  obtain ⟨⟨response, output, hknown, hparts⟩, hgoing⟩ := h
  obtain ⟨finish, outcome, final, response', last, hfinish, houtcome, hfinal, hset, rfl, htype,
    hlast, hindex, -, -⟩ := hclosed.closes
  cases hknown.final.symm.trans hfinal
  obtain ⟨decoded, hset', hdecode, houtput, hstatus⟩ := hknown.decodes hcollected
  cases hset.symm.trans hset'
  have hfilter : ∀ k, (emitted ++ [last]).filter (atIndex · k) = emitted.filter (atIndex · k) := by
    intro k
    rw [List.filter_append, filter_unplaced (List.forall_mem_singleton.2 hindex) k, List.append_nil]
  refine ⟨response', output, hdecode, houtput, ?_, fun n hn => ?_, fun n item hn => ?_, fun n hn => ?_⟩
  · refine ⟨emitted, last, _, rfl, ?_, htype, hstatus finish outcome hfinish houtcome, hlast, hgoing⟩
    rw [PreparedChat.statusText]
    split <;> simp
  · have honce := (hparts.item n _ (List.getElem?_eq_getElem hn)).once
    rw [← hfilter] at honce
    simp only [List.filter_filter] at honce
    exact honce
  · rw [hfilter]
    exact hparts.item n item hn
  · rw [hfilter]
    exact hparts.nothing n hn

end Phases

section Runs

variable {texts : Texts} {p : PreparedChat} {s s' : ChatStream}
  {accepted : List (SseEvent × List Json)}

/-- An accepted event, with what was emitted for it. -/
def answer (texts : Texts) (sse : SseEvent) : ChatMethod (SseEvent × List Json) := do
  let events ← event texts sse
  return (sse, events)

/-- What was emitted for the accepted events. -/
def emitted (accepted : List (SseEvent × List Json)) : List Json := accepted.flatMap Prod.snd

/-- The accepted events are these chunks, or these chunks and the end of the stream. -/
def Reads (accepted : List (SseEvent × List Json)) (chunks : List Json) (done : Bool) : Prop :=
  ∃ sses ending, accepted.map Prod.fst = sses ++ ending ∧
    List.Forall₂ (fun sse chunk => sse.data ≠ doneText ∧ Adapters.decode sse.data = .ok chunk) sses
      chunks ∧
    (done = false ∧ ending = [] ∨ done = true ∧ ∃ last, ending = [last] ∧ last.data = doneText)

/-- The last state that no rejected event changed. -/
structure Standing (texts : Texts) (p : PreparedChat) (accepted : List (SseEvent × List Json))
    (chunks : List Json) (v : ChatView) : Prop where
  reads : Reads accepted chunks v.done
  collected : Collected chunks v
  phase : v.done = false ∧ (Speaking p v (emitted accepted) ∨ Settled texts p v (emitted accepted)) ∨
    v.done = true ∧ ∃ response output,
      (PreparedChat.decode texts (completion p.model chunks) p).1 = .ok response ∧
        Whole (emitted accepted) response output

structure Streaming (texts : Texts) (p : PreparedChat) (accepted : List (SseEvent × List Json))
    (s : ChatStream) : Prop where
  numbered : Numbered (emitted accepted)
  standing : ∃ v chunks, (s.failed = true ∨ s.view = v) ∧ v.sequence = (emitted accepted).length ∧
    Standing texts p accepted chunks v

theorem emitted_snoc (accepted : List (SseEvent × List Json)) (sse : SseEvent) (events : List Json) :
    emitted (accepted ++ [(sse, events)]) = emitted accepted ++ events := by
  rw [emitted, List.flatMap_append, List.flatMap_singleton, ← emitted]

theorem Took.numbers {v v' : ChatView} {value : Json} {events : List Json}
    (h : Took texts v value events v') : Numbers v.sequence events ∧
      v'.sequence = v.sequence + events.length ∧ v'.done = v.done := by
  obtain ⟨opening, chosen, v₁, v₂, usage, rfl, hidentified, hchosen, -, rfl⟩ := h.taken
  obtain ⟨id, created, -, -, -, rfl⟩ := hidentified.named
  obtain ⟨spoken, flushed, rfl, -, w, rfl, hw⟩ := hchosen.taken
  refine ⟨hidentified.numbers.append hchosen.numbers, ?_⟩
  rcases hw with ⟨-, rfl, rfl⟩ | ⟨-, hflush⟩
  · simp [Nat.add_assoc]
  · obtain ⟨_, _, _, blocks, _, _, -, -, -, -, -, -, -, rfl⟩ := hflush.flushed
    simp [Nat.add_assoc]

theorem Reads.chunk {chunks : List Json} {sse : SseEvent} {value : Json} {events : List Json}
    (h : Reads accepted chunks false) (hdata : sse.data ≠ doneText)
    (hvalue : Adapters.decode sse.data = .ok value) :
    Reads (accepted ++ [(sse, events)]) (chunks ++ [value]) false := by
  obtain ⟨sses, ending, hmap, hall, ⟨-, rfl⟩ | ⟨hdone, -⟩⟩ := h
  · refine ⟨sses ++ [sse], [], ?_, List.rel_append hall (.cons ⟨hdata, hvalue⟩ .nil), .inl ⟨rfl, rfl⟩⟩
    rw [List.map_append, hmap, List.append_nil, List.append_nil]
    rfl
  · cases hdone

theorem Reads.last {chunks : List Json} {sse : SseEvent} {events : List Json}
    (h : Reads accepted chunks false) (hdata : sse.data = doneText) :
    Reads (accepted ++ [(sse, events)]) chunks true := by
  obtain ⟨sses, ending, hmap, hall, ⟨-, rfl⟩ | ⟨hdone, -⟩⟩ := h
  · refine ⟨sses, [sse], ?_, hall, .inr ⟨rfl, sse, rfl, hdata⟩⟩
    rw [List.map_append, hmap, List.append_nil]
    rfl
  · cases hdone

theorem Streaming.accept {sse : SseEvent} {answered : SseEvent × List Json}
    (h : Streaming texts p accepted s) (hcall : answer texts sse s = (.ok answered, s')) :
    Streaming texts p (accepted ++ [answered]) s' := by
  obtain ⟨events, s₁, hevent, hreturn⟩ := bind_accepts.1 hcall
  obtain ⟨rfl, rfl⟩ := pure_accepts.1 hreturn
  obtain ⟨hvalid, hgoing, hcases⟩ := event_accepts hevent
  obtain ⟨v, chunks, hview, hsequence, hstanding⟩ := h.standing
  rcases hview with hfailed | rfl
  · rw [show s.failed = false from hvalid] at hfailed
    cases hfailed
  have hreads := hstanding.reads
  rw [hgoing] at hreads
  rcases hstanding.phase with ⟨-, hphase⟩ | ⟨hdone, -⟩
  · suffices hnext : Numbers s.view.sequence events ∧
        s₁.view.sequence = s.view.sequence + events.length ∧
        ∃ chunks, Standing texts p (accepted ++ [(sse, events)]) chunks s₁.view by
      obtain ⟨hnumbers, hnext, chunks, hstanding⟩ := hnext
      rw [hsequence] at hnumbers hnext
      refine ⟨?_, s₁.view, chunks, .inr rfl, ?_, hstanding⟩
      · rw [emitted_snoc]
        exact h.numbered.append hnumbers
      · rw [hnext, emitted_snoc, List.length_append]
    rcases hcases with ⟨hdata, hclosed⟩ | ⟨hdata, value, hvalue, htook⟩
    · rcases hphase with hspeaking | hsettled
      · obtain ⟨finish, _, _, _, _, hfinish, -⟩ := hclosed.closes
        rw [hspeaking.unfinished] at hfinish
        cases hfinish
      · have hdone := hsettled.closes hstanding.collected hclosed
        obtain ⟨_, _, _, _, last, -, -, -, -, rfl, -, -, -, hnumbers, hview⟩ := hclosed.closes
        refine ⟨hnumbers, by rw [hview]; rfl, chunks, ?_⟩
        rw [hview]
        refine ⟨hreads.last hdata, ?_, .inr ⟨rfl, ?_⟩⟩
        · exact ⟨hstanding.collected.named, hstanding.collected.id, hstanding.collected.created,
            hstanding.collected.text, hstanding.collected.places, hstanding.collected.calls,
            hstanding.collected.finish, hstanding.collected.usage⟩
        · rw [emitted_snoc]
          exact hdone
    · obtain ⟨hnumbers, hnext, hdone⟩ := htook.numbers
      refine ⟨hnumbers, hnext, chunks ++ [value], ?_, hstanding.collected.took htook, .inl ⟨?_, ?_⟩⟩
      · rw [hdone, hgoing]
        exact hreads.chunk hdata hvalue
      · exact hdone.trans hgoing
      · rw [emitted_snoc]
        rcases hphase with hspeaking | hsettled
        · exact hspeaking.took htook
        · exact .inr (hsettled.took htook)
  · rw [hgoing] at hdone
    cases hdone

theorem Streaming.reject {sse : SseEvent} {fault : Fault IrError}
    (h : Streaming texts p accepted s) (hcall : answer texts sse s = (.error fault, s')) :
    Streaming texts p accepted s' := by
  have hcall : event texts sse s = (.error fault, s') := by
    rcases bind_rejects.1 hcall with hcall | ⟨events, s₁, -, hreturn⟩
    · exact hcall
    · cases hreturn
  obtain ⟨v, chunks, hview, hrest⟩ := h.standing
  rcases event_rejects hcall with ⟨rfl, -⟩ | hfailed
  · exact h
  · exact ⟨h.numbered, v, chunks, .inl hfailed, hrest⟩

theorem streaming_new {limit : Nat} (h : new p limit = .ok s) : Streaming texts p [] s := by
  simp only [new, bind_ok, pure_ok] at h
  obtain ⟨_, -, validator, -, rfl⟩ := h
  refine ⟨rfl, _, [], .inr rfl, rfl, ⟨[], [], rfl, .nil, .inl ⟨rfl, rfl⟩⟩,
    collected_new rfl rfl rfl rfl rfl rfl, .inl ⟨rfl, .inl ⟨rfl, rfl, ?_, fun _ _ => rfl, ?_⟩⟩⟩
  · exact List.forall_mem_nil _
  · exact fun id _ => .silent

theorem streaming_run {limit : Nat} (h : new p limit = .ok s) (sses : List SseEvent) :
    Streaming texts p (returned (answer texts) s sses) (Method.run (answer texts) s sses) := by
  have hstreaming : Streaming texts p ([] ++ returned (answer texts) s sses)
      (Method.run (answer texts) s sses) :=
    returned_rule (fun _ _ _ _ _ hinv hcall => hinv.accept hcall)
      (fun _ _ _ _ _ hinv hcall => hinv.reject hcall) (streaming_new h) sses
  rwa [List.nil_append] at hstreaming

/-- A complete stream was fed the pieces of a completion and then its end, and it has emitted
the response that this completion decodes to. -/
theorem streamed_completion {limit : Nat} (h : new p limit = .ok s) (sses : List SseEvent)
    (hcomplete : (Method.run (answer texts) s sses).isComplete = true) :
    ∃ chunks response output, Reads (returned (answer texts) s sses) chunks true ∧
      (PreparedChat.decode texts (completion p.model chunks) p).1 = .ok response ∧
      Whole (emitted (returned (answer texts) s sses)) response output := by
  obtain ⟨v, chunks, hview, -, hstanding⟩ := (streaming_run h sses).standing
  rw [isComplete, Bool.and_eq_true, Bool.not_eq_true'] at hcomplete
  rcases hview with hfailed | hview
  · rw [hcomplete.2] at hfailed
    cases hfailed
  · have hdone : v.done = true := hview ▸ hcomplete.1
    have hreads := hstanding.reads
    rw [hdone] at hreads
    rcases hstanding.phase with ⟨hgoing, -⟩ | ⟨-, response, output, hdecode, hwhole⟩
    · rw [hdone] at hgoing
      cases hgoing
    · exact ⟨chunks, response, output, hreads, hdecode, hwhole⟩

/-- Whatever is fed to a stream, nothing is accepted after a rejected event, and what is emitted
is numbered from 0 on. Once anything of a tool is emitted, the pieces so far are a completion
that decodes, and every item of its response is emitted as a whole. -/
theorem tools_released_whole {limit : Nat} (h : new p limit = .ok s) (sses : List SseEvent) :
    (∃ (accepted : List (SseEvent × List Json)) (faults : List (Fault IrError)),
      replies (answer texts) s sses = accepted.map .ok ++ faults.map .error) ∧
    Numbered (emitted (returned (answer texts) s sses)) ∧
    ((∃ e ∈ emitted (returned (answer texts) s sses), isToolEvent e = true) →
      ∃ chunks done response output, Reads (returned (answer texts) s sses) chunks done ∧
        (PreparedChat.decode texts (completion p.model chunks) p).1 = .ok response ∧
        response.lookup "output" = .array output ∧
        Parts output (emitted (returned (answer texts) s sses))) := by
  have hstreaming := @streaming_run texts _ _ _ h sses
  refine ⟨?_, hstreaming.numbered, ?_⟩
  · have hover : ∀ s sse, (s.failed || s.done) = true → ∃ fault, answer texts sse s =
        (.error fault, s) := fun s sse hover =>
      ⟨_, bind_rejects.2 (.inl (event_of_over sse hover))⟩
    refine replies_rule hover (fun s sse fault s' hcall => ?_) s sses
    have hcall : event texts sse s = (.error fault, s') := by
      rcases bind_rejects.1 hcall with hcall | ⟨events, s₁, -, hreturn⟩
      · exact hcall
      · cases hreturn
    rcases event_rejects hcall with ⟨rfl, hover⟩ | hfailed
    · exact hover
    · rw [hfailed, Bool.true_or]
  · rintro ⟨e, he, htool⟩
    obtain ⟨v, chunks, -, -, hstanding⟩ := hstreaming.standing
    rcases hstanding.phase with ⟨-, hspeaking | ⟨⟨response, output, hknown, hparts⟩, -⟩⟩ |
      ⟨-, response, output, hdecode, hwhole⟩
    · rw [(hspeaking.calm e he).1] at htool
      cases htool
    · obtain ⟨response', -, hdecode, houtput, -⟩ := hknown.decodes hstanding.collected
      exact ⟨chunks, v.done, response', output, hstanding.reads, hdecode, houtput, hparts⟩
    · exact ⟨chunks, v.done, response, output, hstanding.reads, hdecode, hwhole.hasOutput,
        hwhole.item, hwhole.nothing⟩

/-- A request with one tool. -/
def lookChat : PreparedChat := ⟨"m", ResponsesStream.lookRequest.tools⟩

def chunkEvent (choices : List Json) (more : Json.Fields) : SseEvent :=
  ⟨"message".toList, (Json.object ([("choices", .array choices),
    ("created", .number (.ofNat 1)), ("id", .string "r"), ("model", .string "m"),
    ("object", .string "chat.completion.chunk")] ++ more)).render⟩

def pieceOf (fields : Json.Fields) : Json :=
  .object [("index", .number (.ofNat 0)), ("delta", .object fields)]

def lookPiece (fields : Json.Fields) (arguments : String) : Json.Fields :=
  [("tool_calls", .array [.object (("index", .number (.ofNat 0)) :: fields ++
    [("function", .object [("name", .string (if fields.isEmpty then "" else "look")),
      ("arguments", .string arguments)])])])]

/-- Some text, and the tool is called with an empty object, all of it in pieces. -/
def chatEvents : List SseEvent :=
  [chunkEvent [pieceOf [("content", .string "a")]] [],
    chunkEvent [pieceOf [("content", .string "b")]] [],
    chunkEvent [pieceOf (lookPiece [("id", .string "c"), ("type", .string "function")] "\x7b")] [],
    chunkEvent [.object [("index", .number (.ofNat 0)), ("delta", .object (lookPiece [] "\x7d")),
      ("finish_reason", .string "tool_calls")]] [],
    ⟨"message".toList, doneText⟩]

theorem streamed_look : ∃ s, new lookChat 1000 = .ok s ∧
    (Method.run (answer ResponsesStream.plainTexts) s chatEvents).isComplete = true ∧
    ∃ chunks response output,
      Reads (returned (answer ResponsesStream.plainTexts) s chatEvents) chunks true ∧
      (PreparedChat.decode ResponsesStream.plainTexts (completion "m" chunks) lookChat).1 =
        .ok response ∧
      Whole (emitted (returned (answer ResponsesStream.plainTexts) s chatEvents)) response output := by
  have hlook : ((new lookChat 1000).toOption.any fun s =>
      (Method.run (answer ResponsesStream.plainTexts) s chatEvents).isComplete) = true := by
    decide +kernel
  cases hnew : new lookChat 1000 with
  | error e =>
      rw [hnew] at hlook
      cases hlook
  | ok s =>
      rw [hnew] at hlook
      have hcomplete : (Method.run (answer ResponsesStream.plainTexts) s chatEvents).isComplete =
        true := hlook
      exact ⟨s, rfl, hcomplete, streamed_completion hnew chatEvents hcomplete⟩

/-- The tool was released in the same run. -/
theorem tools_released_look : ∃ s, new lookChat 1000 = .ok s ∧
    (∃ (accepted : List (SseEvent × List Json)) (faults : List (Fault IrError)),
      replies (answer ResponsesStream.plainTexts) s chatEvents =
        accepted.map .ok ++ faults.map .error) ∧
    Numbered (emitted (returned (answer ResponsesStream.plainTexts) s chatEvents)) ∧
    ∃ chunks done response output,
      Reads (returned (answer ResponsesStream.plainTexts) s chatEvents) chunks done ∧
      (PreparedChat.decode ResponsesStream.plainTexts (completion "m" chunks) lookChat).1 =
        .ok response ∧
      response.lookup "output" = .array output ∧
      Parts output (emitted (returned (answer ResponsesStream.plainTexts) s chatEvents)) := by
  have hlook : ((new lookChat 1000).toOption.any fun s =>
      (emitted (returned (answer ResponsesStream.plainTexts) s chatEvents)).any isToolEvent) =
        true := by
    decide +kernel
  cases hnew : new lookChat 1000 with
  | error e =>
      rw [hnew] at hlook
      cases hlook
  | ok s =>
      rw [hnew] at hlook
      obtain ⟨hreplies, hnumbered, htools⟩ :=
        @tools_released_whole ResponsesStream.plainTexts _ _ _ hnew chatEvents
      exact ⟨s, rfl, hreplies, hnumbered, htools (List.any_eq_true.1 hlook)⟩

end Runs

end ChatStream

end ResponseGateway.Adapters
