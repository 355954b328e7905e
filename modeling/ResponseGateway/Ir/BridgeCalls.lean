import ResponseGateway.Editing.PolicyRoundTrip
import ResponseGateway.Ir.BridgeIdentities

/-!
Restoring a lowered call. A call takes one of three ways down: as a structured edit
under an alternative alias, as text in a JSON wrapper, or as it is. The last two come
back in every case. The first comes back unless the JSON form of the edit is longer
than its reader accepts.
-/

namespace ResponseGateway.Ir
open Checked Json Request Editing

namespace CustomToolBridge

variable {sha256 : String → Digest} {flags : BuildFlags} {policy : Option Policy}
  {tools exposed synthetic : List ToolDefinition} {bridge : CustomToolBridge}
  {toLowercase : Text → Text} {isObjectText : String → Bool}

section Bindings

theorem binding_ok {t : ToolIdentity} {b : Binding} :
    bridge.binding t = .ok b ↔ ∃ a, bridge.forward.get t = some a ∧ bridge.reverse.get a = some b := by
  simp only [binding, aliasOf, bind_ok, okOr_ok]

/-- The binding of a declared tool leads back to it and is not structured. -/
theorem Invariant.own_binding (hinv : bridge.Invariant sha256 flags policy tools exposed synthetic)
    {t a : ToolIdentity} {b : Binding} (ha : bridge.forward.get t = some a)
    (hb : bridge.reverse.get a = some b) : b.original = t ∧ b.structured = none := by
  rcases hinv.reverse a b hb with ⟨hforward, hstructured⟩ | ⟨hrange, -⟩
  · exact ⟨hinv.injective _ _ a hforward ha, hstructured⟩
  · exact absurd ha (hrange t)

theorem alternative_some {t a : ToolIdentity} {representation : Representation}
    (h : bridge.alternative t = some (a, representation)) :
    ∃ b, bridge.reverse.get a = some b ∧ b.original = t ∧ b.structured = some representation := by
  obtain ⟨⟨a', b⟩, hmem, hfound⟩ := List.exists_of_findSome?_eq_some h
  dsimp only at hfound
  split at hfound
  · next horiginal =>
      obtain ⟨r, hr, heq⟩ := Option.map_eq_some_iff.1 hfound
      cases heq
      exact ⟨b, Assoc.get_of_mem bridge.reverse.sorted hmem, horiginal, hr⟩
  · cases hfound

/-- An alternative has the grammar of the tool it stands for. -/
theorem Invariant.alternative_grammar
    (hinv : bridge.Invariant sha256 flags policy tools exposed synthetic) {a : ToolIdentity}
    {b own : Binding} (hb : bridge.reverse.get a = some b) (hstructured : b.structured ≠ none)
    (hown : bridge.binding b.original = .ok own) : own.grammar = b.grammar := by
  rcases hinv.reverse a b hb with ⟨-, hnone⟩ | ⟨-, -, p, halt⟩
  · exact absurd hnone hstructured
  · obtain ⟨a', b', ha', hb', hgrammar⟩ := halt.original
    obtain ⟨a'', ha'', hb''⟩ := binding_ok.1 hown
    rw [ha'] at ha''
    cases ha''
    rw [hb'] at hb''
    cases hb''
    exact hgrammar

end Bindings

section Edits

/-- The JSON form of the edit a call carries can be read again. -/
def EditFits (toLowercase : Text → Text) (bridge : CustomToolBridge) (call : ToolCall) : Prop :=
  ∀ patch a representation value, bridge.originalPatch call = .ok (some patch) →
    bridge.alternative call.tool = some (a, representation) →
    representation.Expresses toLowercase patch value → Text.len value.render ≤ maxText

/-- The way of a structured edit. -/
theorem lowerEdit_some {call lowered : ToolCall}
    (h : bridge.lowerEdit toLowercase call = .ok (some lowered)) :
    ∃ patch a representation value, bridge.originalPatch call = .ok (some patch) ∧
      bridge.alternative call.tool = some (a, representation) ∧
      representation.Expresses toLowercase patch value ∧
      lowered = { call with
        tool := a, input := .json (String.ofList value.render), extensions := .responses } := by
  obtain ⟨patch?, hpatch, h⟩ := bind_ok.1 h
  rw [lift_ok] at hpatch
  split at h
  · next patch a representation halternative =>
      split at h
      · next edit hedit =>
          cases h
          obtain ⟨value, hvalue, rfl⟩ := Representation.decode_ok.1 hedit
          exact ⟨patch, a, representation, value, hpatch, halternative, hvalue, rfl⟩
      · cases h
      · cases h
  · cases h

/-- No edit expresses a call that is not lowered as one. -/
theorem editFits_of_lowerEdit_none {call : ToolCall}
    (h : bridge.lowerEdit toLowercase call = .ok none) : EditFits toLowercase bridge call := by
  intro patch a representation value hpatch halternative hvalue
  have hdecode := Representation.decode_ok.2 ⟨value, hvalue, rfl⟩
  rw [lowerEdit, hpatch, lift_of_ok, bind_of_ok, halternative] at h
  simp only [hdecode] at h
  cases h

/-- The edit form is unique to the patch. -/
theorem editFits_iff {call : ToolCall} {patch : Text} {a : ToolIdentity}
    {representation : Representation} {value : Json}
    (hpatch : bridge.originalPatch call = .ok (some patch))
    (halternative : bridge.alternative call.tool = some (a, representation))
    (hvalue : representation.Expresses toLowercase patch value) :
    EditFits toLowercase bridge call ↔ Text.len value.render ≤ maxText := by
  constructor
  · intro hfits
    exact hfits patch a representation value hpatch halternative hvalue
  · intro hlen patch' a' representation' value' hpatch' halternative' hvalue'
    rw [hpatch] at hpatch'
    cases hpatch'
    rw [halternative] at halternative'
    cases halternative'
    have hsame := Representation.decode_ok.2 ⟨value', hvalue', rfl⟩
    rw [Representation.decode_ok.2 ⟨value, hvalue, rfl⟩] at hsame
    rw [← Except.ok.inj hsame]
    exact hlen

/-- What the client's text is, given the patch in it. -/
theorem originalPatch_some {call : ToolCall} {patch : Text}
    (h : bridge.originalPatch call = .ok (some patch)) :
    ∃ text own, call.input = .freeform text ∧ bridge.binding call.tool = .ok own ∧
      ((own.grammar = some .codeModeSourceV1 ∧ helperPatch text.toList = .ok patch) ∨
        (own.grammar ≠ some .codeModeSourceV1 ∧ patch = text.toList)) := by
  unfold originalPatch at h
  split at h
  · next text hinput =>
      obtain ⟨own, hown, h⟩ := bind_ok.1 h
      refine ⟨text, own, hinput, hown, ?_⟩
      split at h
      · next hgrammar =>
          cases hp : helperPatch text.toList with
          | error e =>
              rw [hp] at h
              cases h
          | ok p =>
              rw [hp] at h
              cases h
              exact .inl ⟨hgrammar, rfl⟩
      · next hgrammar =>
          cases h
          exact .inr ⟨hgrammar, rfl⟩
  · cases h

theorem restoreEdit_render {call : ToolCall} {patch : Text} {b : Binding}
    {representation : Representation} {value : Json}
    (hpatch : bridge.originalPatch call = .ok (some patch))
    (hvalue : representation.Expresses toLowercase patch value)
    (hgrammar : ∀ own, bridge.binding call.tool = .ok own → own.grammar = b.grammar) :
    restoreEdit toLowercase b representation (.json (String.ofList value.render)) =
      if Text.len value.render > maxText then .error .sizeLimit else .ok call.input := by
  obtain ⟨text, own, hinput, hown, hcases⟩ := originalPatch_some hpatch
  rw [hgrammar own hown] at hcases
  rw [restoreEdit, String.toList_ofList, Representation.compile_render hvalue, hinput]
  split
  · rfl
  · rcases hcases with ⟨hcode, hhelper⟩ | ⟨hdirect, rfl⟩
    · rw [bind_of_ok, if_pos hcode, helperProgram_of_helperPatch hhelper, bind_of_ok,
        String.ofList_toList]
      rfl
    · rw [bind_of_ok, if_neg hdirect, String.ofList_toList]
      rfl

end Edits

section Restoring

/-- Restoring a call is restoring its input. -/
theorem restoreCall_eq {lowered : ToolCall} {b : Binding} {result : Except IrError ToolInput}
    {bridge' : CustomToolBridge} (hextensions : lowered.extensions = .responses)
    (hb : bridge.reverse.get lowered.tool = some b)
    (hbound : restoreBound toLowercase isObjectText b lowered bridge = (result, bridge')) :
    restoreCall toLowercase isObjectText lowered bridge =
      (result.map fun input => { lowered with tool := b.original, input, extensions := .responses },
        bridge') := by
  have hread : restoreCall toLowercase isObjectText lowered bridge =
      (restoreBound toLowercase isObjectText b lowered >>= fun input =>
        pure { lowered with tool := b.original, input, extensions := .responses }) bridge := by
    simp only [restoreCall, Method.read_bind]
    rw [hextensions, hb]
    rfl
  rw [hread]
  simp only [bind, hbound]
  cases result <;> rfl

theorem normalizedInput_valid {b : Binding} {grammar : Grammar} (call : CallId) {text : Text}
    (hinv : bridge.Invariant sha256 flags policy tools exposed synthetic) {a : ToolIdentity}
    (hb : bridge.reverse.get a = some b) (hgrammar : b.grammar = some grammar)
    (hvalid : grammar.validate text = .ok ()) :
    normalizedInput b call text bridge = (.ok text, bridge) := by
  unfold normalizedInput
  split
  · next hnormalize =>
      have hcodex := hinv.normalize a b hb hnormalize
      rw [hgrammar] at hcodex
      cases hcodex
      rw [normalizePatchEnvelope_valid hvalid]
      rfl
  · rfl

theorem fromStr_envelope (text : String) :
    fromStr envelopeOfJson (renderText (.object [("input", .string text)])).toList =
      some text.toList := by
  rw [renderText, String.toList_ofList]
  refine fromStr_render (by simp [nesting, nestingFields, maxNesting]) ?_
  have hfields : structFields ["input"] (.object [("input", .string text)]) =
      some [.string text] := rfl
  rw [envelopeOfJson, hfields]
  rfl

/-- Text in a wrapper, bare text and arguments are restored as they were. -/
theorem restoreInput_lowerInput {b : Binding} {lowered : ToolCall} {original input : ToolInput}
    (hinv : bridge.Invariant sha256 flags policy tools exposed synthetic) {a : ToolIdentity}
    (hb : bridge.reverse.get a = some b)
    (harguments : ∀ raw, original = .json raw → isObjectText raw = true)
    (hinput : lowered.input = input) (h : lowerInput b original = .ok input) :
    restoreInput isObjectText b lowered bridge = (.ok original, bridge) := by
  unfold lowerInput at h
  split at h
  · next text grammar hgrammar =>
      obtain ⟨_, hvalid, h⟩ := bind_ok.1 h
      have hnormalized := normalizedInput_valid lowered.callId hinv hb hgrammar hvalid
      split at h
      · next hwrapped =>
          cases h
          unfold restoreInput
          rw [hgrammar, hwrapped, hinput]
          simp only [fromStr_envelope, okOr_some, bind, Method.check, hnormalized, hvalid,
            String.ofList_toList]
          rfl
      · next hbare =>
          cases h
          unfold restoreInput
          rw [hgrammar, Bool.eq_false_iff.2 hbare, hinput]
          simp only [bind, Method.check, hnormalized, hvalid, String.ofList_toList]
          rfl
  · next raw hgrammar =>
      cases h
      unfold restoreInput
      rw [hgrammar, hinput]
      simp only [bind, Method.check, harguments raw rfl]
      rfl
  · cases h

end Restoring

section RoundTrip

/-- The two ways a call is lowered. -/
theorem lowerCall_cases {call lowered : ToolCall}
    (h : bridge.lowerCall toLowercase call = .ok lowered) :
    bridge.lowerEdit toLowercase call = .ok (some lowered) ∨
      bridge.lowerEdit toLowercase call = .ok none ∧
      ∃ a b input, bridge.forward.get call.tool = some a ∧ bridge.reverse.get a = some b ∧
        lowerInput b call.input = .ok input ∧
        lowered = { call with tool := a, input, extensions := .responses } := by
  obtain ⟨_, -, h⟩ := bind_ok.1 h
  obtain ⟨_, -, h⟩ := bind_ok.1 h
  obtain ⟨edit, hedit, h⟩ := bind_ok.1 h
  cases edit with
  | some edit =>
      cases h
      exact .inl hedit
  | none =>
      obtain ⟨b, hb, h⟩ := bind_ok.1 h
      obtain ⟨input, hinput, h⟩ := bind_ok.1 h
      obtain ⟨a, ha, h⟩ := bind_ok.1 h
      cases h
      rw [lift_ok, binding_ok] at hb
      rw [lift_ok] at hinput ha
      obtain ⟨a', ha', hb⟩ := hb
      obtain rfl : a' = a := Option.some.inj (ha'.symm.trans (okOr_ok.1 ha))
      exact .inr ⟨hedit, a', b, input, ha', hb, hinput, rfl⟩

/-- A lowered call is restored exactly when the JSON form of the edit it carries is
not too long, and then the bridge is unchanged. Function arguments are texts of
objects. -/
theorem bridge_round_trip (sha256 : String → Digest) (toLowercase : Text → Text)
    (isObjectText : String → Bool) (tools : List ToolDefinition) (flags : BuildFlags)
    (policy : Option Policy) (request : RequestIR) (wanted : Bool) (built bridge : CustomToolBridge)
    (call lowered : ToolCall) (hbuild : build sha256 tools flags = .ok built)
    (hediting : built.withEditing sha256 policy request wanted = .ok bridge)
    (harguments : ∀ raw, call.input = .json raw → isObjectText raw = true)
    (hlower : bridge.lowerCall toLowercase call = .ok lowered) :
    restoreCall toLowercase isObjectText lowered bridge =
        (.ok { call with extensions := .responses }, bridge) ↔
      EditFits toLowercase bridge call := by
  obtain ⟨exposed, hbuilt⟩ := invariant_build policy hbuild
  obtain ⟨synthetic, hinv⟩ := invariant_withEditing hbuilt hediting
  rcases lowerCall_cases hlower with hedit | ⟨hnone, a, b, input, ha, hb, hinput, rfl⟩
  · obtain ⟨patch, a, representation, value, hpatch, halternative, hvalue, rfl⟩ :=
      lowerEdit_some hedit
    obtain ⟨b, hb, horiginal, hstructured⟩ := alternative_some halternative
    have hgrammar : ∀ own, bridge.binding call.tool = .ok own → own.grammar = b.grammar := by
      rw [← horiginal]
      exact fun own hown => hinv.alternative_grammar hb (by simp [hstructured]) hown
    have hbound : restoreBound toLowercase isObjectText b { call with
        tool := a, input := .json (String.ofList value.render), extensions := .responses } bridge =
        (if Text.len value.render > maxText then .error .sizeLimit else .ok call.input, bridge) := by
      rw [restoreBound, hstructured, ← restoreEdit_render hpatch hvalue hgrammar]
      rfl
    rw [editFits_iff hpatch halternative hvalue, restoreCall_eq rfl hb hbound, horiginal]
    split
    · next hlong => simpa [Except.map] using hlong
    · next hshort => simpa [Except.map] using hshort
  · refine iff_of_true ?_ (editFits_of_lowerEdit_none hnone)
    obtain ⟨horiginal, hstructured⟩ := hinv.own_binding ha hb
    have hbound : restoreBound toLowercase isObjectText b
        { call with tool := a, input, extensions := .responses } bridge =
        (.ok call.input, bridge) := by
      rw [restoreBound, hstructured]
      exact restoreInput_lowerInput hinv hb harguments rfl hinput
    rw [restoreCall_eq rfl hb hbound, horiginal]
    rfl

/-- A call of the patch tool. -/
def patchCall (patch : Text) : ToolCall where
  status := none
  itemId := none
  callId := ⟨"c", by decide⟩
  tool := patchTool.identity
  input := .freeform (String.ofList patch)
  extensions := .responses

/-- Its lowered form under the structured alternative. -/
def linesCall (edit : ContextEdit) : ToolCall :=
  { patchCall [] with
    tool := linesAlias, input := .json (String.ofList edit.toJson.render) }

theorem originalPatch_patchCall (patch : Text) :
    linesBridge.originalPatch (patchCall patch) = .ok (some patch) := by
  have hfree : linesBridge.originalPatch (patchCall patch) =
      .ok (some (String.ofList patch).toList) := rfl
  rw [hfree, String.toList_ofList]

theorem alternative_patchCall (patch : Text) :
    linesBridge.alternative (patchCall patch).tool = some (linesAlias, .contextLines) := rfl

theorem lowerCall_patchCall (toLowercase : Text → Text) {edit : ContextEdit} {patch : Text}
    (h : edit.compile = .ok patch) :
    linesBridge.lowerCall toLowercase (patchCall patch) = .ok (linesCall edit) := by
  have hdecode : Representation.contextLines.decode toLowercase patch = .ok edit.toJson.render :=
    Representation.decode_ok.2 ⟨_, ⟨edit, h, rfl⟩, rfl⟩
  have hedit : linesBridge.lowerEdit toLowercase (patchCall patch) = .ok (some (linesCall edit)) := by
    rw [lowerEdit, originalPatch_patchCall, lift_of_ok, bind_of_ok, alternative_patchCall]
    simp only [hdecode]
    rfl
  rw [lowerCall, hedit]
  rfl

theorem bridge_round_trip_deletion :
    linesBridge.lowerCall id (patchCall (deletionOf 'x' 1).patch) =
        .ok (linesCall (deletionOf 'x' 1)) ∧
      restoreCall id (fun _ => true) (linesCall (deletionOf 'x' 1)) linesBridge =
        (.ok (patchCall (deletionOf 'x' 1).patch), linesBridge) := by
  have hcompile : (deletionOf 'x' 1).compile = .ok (deletionOf 'x' 1).patch :=
    ContextEdit.compile_ok.mpr ⟨deletionOf_wellFormed (by decide) 1, rfl, by decide⟩
  have hlower := lowerCall_patchCall id hcompile
  refine ⟨hlower, (bridge_round_trip patchSha256 id (fun _ => true) [patchTool] nativeFlags
    (some linesPolicy) patchRequest true patchBridge linesBridge _ _
    (build_patchTool patchSha256_grammar) (withEditing_patchBridge editName_patchTool)
    (fun _ _ => rfl) hlower).2 ?_⟩
  exact (editFits_iff (originalPatch_patchCall _) (alternative_patchCall _)
    ⟨_, hcompile, rfl⟩).2 (by decide)

/-- The JSON form doubles every quotation mark. -/
theorem len_quotes (n : Nat) : 2 * n ≤ Text.len (deletionOf '"' n).toJson.render := by
  have hescape : Text.len ((List.replicate n '"').flatMap escape) = 2 * n := by
    induction n with
    | zero => rfl
    | succ n ih =>
        rw [List.replicate_succ, List.flatMap_cons, Text.len_append, ih]
        have hone : Text.len (escape '"') = 2 := by decide
        omega
  simp only [ContextEdit.toJson, deletionOf, linesJson, textJson, List.map_cons, List.map_nil,
    render, renderFields, renderMoreFields, renderItems, renderMoreItems, renderString,
    String.toList_ofList, Text.len_append, Text.len_cons, hescape]
  omega

/-- A patch of four million quotation marks is within every limit on the way down
and is refused on the way back. -/
theorem quotes_not_restored :
    build patchSha256 [patchTool] nativeFlags = .ok patchBridge ∧
      patchBridge.withEditing patchSha256 (some linesPolicy) patchRequest true = .ok linesBridge ∧
      linesBridge.lowerCall id (patchCall (deletionOf '"' 4194305).patch) =
        .ok (linesCall (deletionOf '"' 4194305)) ∧
      restoreCall id (fun _ => true) (linesCall (deletionOf '"' 4194305)) linesBridge =
        (.error .sizeLimit, linesBridge) := by
  have hone : '"'.utf8Size = 1 := by decide
  have hend : Text.len endPatch = 13 := by decide
  have hlength := deletionOf_len '"' 4194305
  have hfits : Text.len (deletionOf '"' 4194305).patch ≤ maxText := by
    rw [ContextEdit.patch, Text.len_append, hlength, hone, hend]
    decide
  have hcompile : (deletionOf '"' 4194305).compile = .ok (deletionOf '"' 4194305).patch :=
    ContextEdit.compile_ok.mpr ⟨deletionOf_wellFormed (by decide) _, rfl, hfits⟩
  refine ⟨build_patchTool patchSha256_grammar, withEditing_patchBridge editName_patchTool,
    lowerCall_patchCall id hcompile, ?_⟩
  have hlong : maxText < Text.len (deletionOf '"' 4194305).toJson.render :=
    lt_of_lt_of_le (by decide) (len_quotes 4194305)
  have hrefused : Representation.contextLines.compile id (deletionOf '"' 4194305).toJson.render =
      .error .sizeLimit := by
    have hexpresses : Representation.contextLines.Expresses id (deletionOf '"' 4194305).patch
        (deletionOf '"' 4194305).toJson := ⟨_, hcompile, rfl⟩
    rw [Representation.compile_render hexpresses, if_pos hlong]
  have hbound : restoreBound id (fun _ => true)
      ⟨false, some .contextLines, patchTool.identity, some .codexPatchV1, true⟩
      (linesCall (deletionOf '"' 4194305)) linesBridge = (.error .sizeLimit, linesBridge) := by
    simp only [restoreBound, linesCall, restoreEdit, String.toList_ofList, hrefused]
    rfl
  rw [restoreCall_eq rfl rfl hbound]
  rfl

end RoundTrip

end CustomToolBridge
end ResponseGateway.Ir
