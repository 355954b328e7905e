import ResponseGateway.Ir.BridgeCalls

/-!
The patch envelope rule and the evidence a bridge keeps of it. A text is rewritten only when
its first and last line are the markers with or without a star suffix and at least one has it,
and the result is then a patch. The evidence counts the calls whose text came back changed.
-/

namespace ResponseGateway.Editing
open Ir Lines Checked

/-- The suffix that the rule removes from a marker. -/
def starred : Text := " ***".toList

/-- The two texts differ in star suffixes of the outer markers alone, and in one at least. -/
def Repaired (text result : Text) : Prop :=
  ∃ first last middle final : Text,
    (first = [] ∨ first = starred) ∧ (last = [] ∨ last = starred) ∧ (first ≠ [] ∨ last ≠ []) ∧
    (final = [] ∨ final = ['\n']) ∧
    text = beginLine ++ first ++ '\n' :: (middle ++ '\n' :: (endPatch ++ last)) ++ final ∧
    result = beginLine ++ '\n' :: (middle ++ '\n' :: endPatch) ++ final

section Rule

theorem Repaired.ne {text result : Text} (h : Repaired text result) : text ≠ result := by
  obtain ⟨first, last, middle, final, -, -, hsome, -, rfl, rfl⟩ := h
  intro heq
  have hlen := congrArg List.length heq
  simp only [List.length_append, List.length_cons] at hlen
  rcases hsome with hfirst | hlast
  · have hpos := List.length_pos_iff.2 hfirst
    omega
  · have hpos := List.length_pos_iff.2 hlast
    omega

/-- A text is one final line feed longer than its stripped form, or the same. -/
theorem strip_final (text : Text) :
    text = (text.dropSuffix? ['\n']).getD text ++
      if text.getLast? = some '\n' then ['\n'] else [] := by
  by_cases hlast : text.getLast? = some '\n'
  · obtain ⟨body, rfl⟩ := List.getLast?_eq_some_iff.1 hlast
    rw [if_pos hlast, PatchGrammar.stripFinal_lf]
  · rw [if_neg hlast, PatchGrammar.stripFinal_other hlast, List.append_nil]

/-- A marker with or without the suffix. -/
theorem marker_cases {marker withSuffix line : Text} (hsuffix : withSuffix = marker ++ starred)
    (h : line = marker ∨ line = withSuffix) :
    ∃ suffix, (suffix = [] ∨ suffix = starred) ∧ line = marker ++ suffix := by
  rcases h with rfl | rfl
  · exact ⟨[], .inl rfl, (List.append_nil _).symm⟩
  · exact ⟨starred, .inr rfl, hsuffix⟩

/-- The two outcomes of the rule. -/
theorem normalizePatchEnvelope_ok {text : Text} {patch : NormalizedPatch}
    (h : normalizePatchEnvelope text = .ok patch) :
    patch = ⟨text, none⟩ ∨ patch.appliedRule = some "patch-envelope/v1" ∧
      Grammar.codexPatchV1.validate patch.text = .ok () ∧ Repaired text patch.text := by
  obtain ⟨_, -, h⟩ := bind_ok.1 h
  dsimp only at h
  split at h
  · exact .inl (pure_ok.1 h).symm
  next first rest hfirst =>
  split at h
  · exact .inl (pure_ok.1 h).symm
  next middle last hlast =>
  split at h
  · exact .inl (pure_ok.1 h).symm
  next hmarkers =>
  obtain ⟨_, hvalid, h⟩ := bind_ok.1 h
  cases h
  refine .inr ⟨rfl, hvalid, ?_⟩
  obtain ⟨a, ha, rfl⟩ := marker_cases (by decide : starredBegin = beginLine ++ starred)
    (by_contra fun hbegin => hmarkers (.inl hbegin))
  obtain ⟨b, hb, rfl⟩ := marker_cases (by decide : starredEnd = endPatch ++ starred)
    (by_contra fun hend => hmarkers (.inr (.inl hend)))
  have hbody := eq_of_dropInfix? hfirst
  rw [eq_of_rsplitOnce hlast] at hbody
  refine ⟨a, b, middle, if text.getLast? = some '\n' then ['\n'] else [], ha, hb, ?_, ?_, ?_, ?_⟩
  · by_contra hnone
    simp only [not_or, not_not] at hnone
    obtain ⟨rfl, rfl⟩ := hnone
    exact hmarkers (.inr (.inr ⟨List.append_nil _, List.append_nil _⟩))
  · split
    · exact .inr rfl
    · exact .inl rfl
  · rw [← hbody]
    exact strip_final text
  · have hbegin : beginPatch = beginLine ++ ['\n'] := by decide
    simp [hbegin]

/-- A repair that ends in a patch is what the rule does. -/
theorem normalizePatchEnvelope_repaired {text result : Text} (h : Repaired text result)
    (hvalid : Grammar.codexPatchV1.validate result = .ok ()) (hshort : text.len ≤ maxText) :
    normalizePatchEnvelope text = .ok ⟨result, some "patch-envelope/v1"⟩ := by
  obtain ⟨a, b, middle, final, ha, hb, hsome, hfinal, rfl, rfl⟩ := h
  have hfirst : (beginLine ++ a ++ '\n' :: (middle ++ '\n' :: (endPatch ++ b))).dropInfix? ['\n'] =
      some (beginLine ++ a, middle ++ '\n' :: (endPatch ++ b)) := by
    have hline : '\n' ∉ beginLine ++ a := by rcases ha with rfl | rfl <;> decide
    have hsplit : (beginLine ++ a ++ '\n' :: [] ++ (middle ++ '\n' :: (endPatch ++ b))).dropInfix?
        ('\n' :: []) = some (beginLine ++ a, middle ++ '\n' :: (endPatch ++ b)) :=
      dropInfix?_of_notMem hline
    simpa using hsplit
  have hlast : rsplitOnce '\n' (middle ++ '\n' :: (endPatch ++ b)) = some (middle, endPatch ++ b) :=
    rsplitOnce_of_notMem (by rcases hb with rfl | rfl <;> decide)
  have hmarkers : ¬(¬(beginLine ++ a = beginLine ∨ beginLine ++ a = starredBegin) ∨
      ¬(endPatch ++ b = endPatch ∨ endPatch ++ b = starredEnd) ∨
      (beginLine ++ a = beginLine ∧ endPatch ++ b = endPatch)) := by
    rcases ha with rfl | rfl <;> rcases hb with rfl | rfl
    · exact absurd hsome (by simp)
    · decide
    · decide
    · decide
  have hend : (endPatch ++ b).getLast? ≠ some '\n' ∧ endPatch ++ b ≠ [] := by
    rcases hb with rfl | rfl <;> decide
  have hopen : (beginLine ++ a ++ '\n' :: (middle ++ '\n' :: (endPatch ++ b))).getLast? ≠
      some '\n' := by
    have hfront : beginLine ++ a ++ '\n' :: (middle ++ '\n' :: (endPatch ++ b)) =
        (beginLine ++ a ++ '\n' :: (middle ++ ['\n'])) ++ (endPatch ++ b) := by
      simp only [List.append_assoc, List.cons_append, List.nil_append]
    rw [hfront, List.getLast?_append_of_ne_nil _ hend.2]
    exact hend.1
  have hresult : beginPatch ++ middle ++ ['\n'] ++ endPatch ++ final =
      beginLine ++ '\n' :: (middle ++ '\n' :: endPatch) ++ final := by
    simp [(by decide : beginPatch = beginLine ++ ['\n'])]
  rw [← hresult] at hvalid ⊢
  generalize beginLine ++ a ++ '\n' :: (middle ++ '\n' :: (endPatch ++ b)) = body at *
  have hstrip : ((body ++ final).dropSuffix? ['\n']).getD (body ++ final) = body := by
    rcases hfinal with rfl | rfl
    · rw [List.append_nil, PatchGrammar.stripFinal_other hopen]
    · rw [PatchGrammar.stripFinal_lf]
  have hlf : (if (body ++ final).getLast? = some '\n' then ['\n'] else []) = final := by
    rcases hfinal with rfl | rfl
    · rw [List.append_nil, if_neg hopen]
    · rw [List.getLast?_append_of_ne_nil _ (List.cons_ne_nil _ _), List.getLast?_singleton,
        if_pos rfl]
  have hsize : rejectIf (decide (Text.len (body ++ final) > maxText)) IrError.sizeLimit = .ok () := by
    rw [rejectIf_ok, decide_eq_false_iff_not]
    exact Nat.not_lt.2 hshort
  rw [normalizePatchEnvelope, hsize, bind_of_ok]
  simp only [hstrip, hfirst, hlast, if_neg hmarkers, hlf, hvalid, bind_of_ok]
  rfl

/-- The result of the rule is left alone by it. -/
theorem normalizePatchEnvelope_idem {text : Text} {patch : NormalizedPatch}
    (h : normalizePatchEnvelope text = .ok patch) :
    normalizePatchEnvelope patch.text = .ok ⟨patch.text, none⟩ := by
  rcases normalizePatchEnvelope_ok h with rfl | ⟨-, hvalid, -⟩
  · exact h
  · exact normalizePatchEnvelope_valid hvalid

/-- The rule is applied exactly when the text comes back changed. -/
theorem appliedRule_isSome {text : Text} {patch : NormalizedPatch}
    (h : normalizePatchEnvelope text = .ok patch) :
    patch.appliedRule.isSome = true ↔ patch.text ≠ text := by
  rcases normalizePatchEnvelope_ok h with rfl | ⟨hrule, -, hrepaired⟩
  · simp
  · rw [hrule]
    exact iff_of_true rfl hrepaired.ne.symm

end Rule

end ResponseGateway.Editing

namespace ResponseGateway.Ir
open Checked Json Request Editing

structure NormalizationEvidence where
  rule : Option String
  distinctCalls : Nat
  deriving DecidableEq, Repr

/-- A patch is a text of every grammar. -/
theorem validate_of_patch {text : Text} (h : Grammar.codexPatchV1.validate text = .ok ())
    (grammar : Grammar) : grammar.validate text = .ok () := by
  cases grammar with
  | codexPatchV1 => exact h
  | text =>
      unfold Grammar.validate at h ⊢
      split at h
      · cases h
      · next hshort => rw [if_neg hshort]
  | codeModeSourceV1 =>
      unfold Grammar.validate at h ⊢
      split at h
      · cases h
      · next hshort =>
          have hne : text ≠ [] := by
            rintro rfl
            cases h
          rw [if_neg hshort]
          exact if_neg hne

namespace CustomToolBridge

variable (toLowercase : Text → Text) (isObjectText : String → Bool)

def normalizationEvidence (bridge : CustomToolBridge) : NormalizationEvidence where
  rule := if bridge.normalized.size = 0 then none else some "patch-envelope/v1"
  distinctCalls := bridge.normalized.size

/-- The client's text in a lowered call: bare, or the input of the wrapper. -/
def carriedText (binding : Binding) (input : ToolInput) : Option Text :=
  match binding.structured, binding.grammar, binding.wrapped, input with
  | none, some _, false, .freeform text => some text.toList
  | none, some _, true, .json raw => fromStr envelopeOfJson raw.toList
  | _, _, _, _ => none

/-- The call is restored with another text than the one it carries. -/
def changesInput (bridge : CustomToolBridge) (lowered : ToolCall) : Bool :=
  match (bridge.reverse.get lowered.tool).bind (carriedText · lowered.input),
      (restoreCall toLowercase isObjectText lowered bridge).1 with
  | some text, .ok restored => restored.input ≠ .freeform (String.ofList text)
  | _, _ => false

/-- The ids of the calls in a sequence that come back changed. -/
def changedCalls (bridge : CustomToolBridge) : List ToolCall → List CallId
  | [] => []
  | lowered :: rest =>
      let later := changedCalls (restoreCall toLowercase isObjectText lowered bridge).2 rest
      if changesInput toLowercase isObjectText bridge lowered then lowered.callId :: later
      else later

variable {toLowercase isObjectText}

section Evidence

/-- The id of a call among the normalized ones. -/
def recorded (bridge : CustomToolBridge) (call : CallId) : CustomToolBridge :=
  { bridge with normalized := bridge.normalized.insert call () }

/-- How restoring the input of a call ends: refused, with the client's text as it was, or with
the patch that the rule makes of it. The last case alone is recorded. -/
inductive Ends (bridge : CustomToolBridge) (call : CallId) (carried : Option Text) :
    Except IrError ToolInput × CustomToolBridge → Prop
  | refused (e : IrError) : Ends bridge call carried (.error e, bridge)
  | plain {input : ToolInput} :
      (∀ text, carried = some text → input = .freeform (String.ofList text)) →
      Ends bridge call carried (.ok input, bridge)
  | changed {text text' : Text} : carried = some text → text' ≠ text →
      Ends bridge call carried (.ok (.freeform (String.ofList text')), bridge.recorded call)

/-- The client's text through the rule and the grammar. -/
theorem normalizedInput_ends (binding : Binding) (grammar : Grammar) (call : CallId) (text : Text)
    (bridge : CustomToolBridge) :
    Ends bridge call (some text) ((do
      let text ← normalizedInput binding call text
      Method.check (grammar.validate text)
      return .freeform (String.ofList text) : Method CustomToolBridge IrError ToolInput) bridge) := by
  have hplain (hsame : normalizedInput binding call text bridge = (.ok text, bridge)) :
      Ends bridge call (some text) ((do
        let text ← normalizedInput binding call text
        Method.check (grammar.validate text)
        return .freeform (String.ofList text) : Method CustomToolBridge IrError ToolInput)
        bridge) := by
    cases hvalid : grammar.validate text with
    | error e =>
        simp only [bind, hsame, Method.check, hvalid]
        exact .refused e
    | ok u =>
        simp only [bind, hsame, Method.check, hvalid]
        refine .plain fun text' htext' => ?_
        cases htext'
        rfl
  by_cases hnormalize : binding.normalize = true
  · cases hrule : normalizePatchEnvelope text with
    | error e =>
        have hrefused : normalizedInput binding call text bridge = (.error e, bridge) := by
          rw [normalizedInput, if_pos hnormalize, hrule]
          rfl
        simp only [bind, hrefused]
        exact .refused e
    | ok patch =>
        have hinput : normalizedInput binding call text bridge =
            (.ok patch.text, recordNormalized call patch bridge) := by
          rw [normalizedInput, if_pos hnormalize, hrule]
          rfl
        rcases normalizePatchEnvelope_ok hrule with rfl | ⟨hsome, hvalid, hrepaired⟩
        · exact hplain hinput
        · have hrecorded : recordNormalized call patch bridge = bridge.recorded call :=
            if_pos (by rw [hsome]; rfl)
          simp only [bind, hinput, Method.check, validate_of_patch hvalid grammar, hrecorded]
          exact .changed rfl hrepaired.ne.symm
  · refine hplain ?_
    rw [normalizedInput, if_neg hnormalize]
    rfl

theorem check_ends {call : CallId} {bridge : CustomToolBridge} (x : Except IrError ToolInput) :
    Ends bridge call none (Method.check x bridge) := by
  cases x with
  | error e => exact .refused e
  | ok input => exact .plain fun text htext => by cases htext

/-- The input of a call, whatever its alias is bound to. -/
theorem restoreBound_ends (binding : Binding) (lowered : ToolCall) (bridge : CustomToolBridge) :
    Ends bridge lowered.callId (carriedText binding lowered.input)
      (restoreBound toLowercase isObjectText binding lowered bridge) := by
  obtain ⟨normalize, structured, original, grammar, wrapped⟩ := binding
  obtain ⟨status, itemId, call, tool, input, extensions⟩ := lowered
  cases structured with
  | some representation => exact check_ends _
  | none =>
      cases grammar with
      | none =>
          cases input with
          | freeform text => exact check_ends _
          | json raw =>
              cases hobject : isObjectText raw with
              | false =>
                  simp only [restoreBound, restoreInput, hobject]
                  exact .refused _
              | true =>
                  simp only [restoreBound, restoreInput, hobject]
                  exact .plain fun text htext => by cases htext
      | some grammar =>
          cases wrapped with
          | false =>
              cases input with
              | freeform text => exact normalizedInput_ends _ grammar call text.toList bridge
              | json raw => exact check_ends _
          | true =>
              cases input with
              | freeform text => exact check_ends _
              | json raw =>
                  simp only [restoreBound, restoreInput, carriedText]
                  cases hinput : fromStr envelopeOfJson raw.toList with
                  | none => exact .refused _
                  | some text => exact normalizedInput_ends _ grammar call text bridge

/-- A call is recorded exactly when it comes back changed. -/
theorem restoreCall_recorded (lowered : ToolCall) (bridge : CustomToolBridge) :
    (restoreCall toLowercase isObjectText lowered bridge).2 =
      if changesInput toLowercase isObjectText bridge lowered then bridge.recorded lowered.callId
      else bridge := by
  unfold changesInput
  cases hbinding : bridge.reverse.get lowered.tool with
  | none =>
      have hrefused : (restoreCall toLowercase isObjectText lowered bridge).2 = bridge := by
        unfold restoreCall
        rw [Method.read_bind, hbinding]
        cases lowered.extensions.fields.isEmpty <;> rfl
      simpa using hrefused
  | some binding =>
      rw [Option.bind_some]
      cases hextensions : lowered.extensions.fields.isEmpty with
      | false =>
          have hrefused : restoreCall toLowercase isObjectText lowered bridge =
              (.error .unsupportedExtension, bridge) := by
            unfold restoreCall
            rw [Method.read_bind, hextensions]
            rfl
          rw [hrefused]
          simp
      | true =>
          have hends : Ends bridge lowered.callId (carriedText binding lowered.input)
              (restoreBound toLowercase isObjectText binding lowered bridge) :=
            restoreBound_ends binding lowered bridge
          obtain ⟨result, bridge', hbound⟩ : ∃ result bridge',
              restoreBound toLowercase isObjectText binding lowered bridge = (result, bridge') :=
            ⟨_, _, rfl⟩
          have hrestore : restoreCall toLowercase isObjectText lowered bridge =
              (result.map fun input => { lowered with
                tool := binding.original, input, extensions := .responses }, bridge') := by
            unfold restoreCall
            rw [Method.read_bind, hextensions, hbinding]
            simp only [bind, Method.check, okOr_some, Bool.not_true, rejectIf_false, hbound]
            cases result <;> rfl
          rw [hbound] at hends
          rw [hrestore]
          cases hends with
          | refused e => cases carriedText binding lowered.input <;> rfl
          | plain hplain =>
              cases hcarried : carriedText binding lowered.input with
              | none => rfl
              | some text =>
                  rw [hplain text hcarried]
                  simp [Except.map]
          | @changed text text' hcarried hne =>
              have hdiffer : String.ofList text' ≠ String.ofList text :=
                fun heq => hne (String.ofList_injective heq)
              rw [hcarried]
              simp [Except.map, hdiffer]

theorem keys_recorded (call : CallId) (bridge : CustomToolBridge) :
    (bridge.recorded call).normalized.keys.toFinset =
      insert call bridge.normalized.keys.toFinset := by
  ext id
  simp only [List.mem_toFinset, OrderedMap.mem_keys, Finset.mem_insert, recorded,
    OrderedMap.contains, OrderedMap.get_insert]
  by_cases heq : call = id
  · simp [heq]
  · simp [heq, Ne.symm heq]

/-- A run records the ids of the calls that come back changed, and nothing else. -/
theorem keys_run (calls : List ToolCall) (bridge : CustomToolBridge) :
    (Method.run (restoreCall toLowercase isObjectText) bridge calls).normalized.keys.toFinset =
      bridge.normalized.keys.toFinset ∪
        (changedCalls toLowercase isObjectText bridge calls).toFinset := by
  induction calls generalizing bridge with
  | nil => simp [Method.run, changedCalls]
  | cons lowered calls ih =>
      have hstep : (restoreCall toLowercase isObjectText lowered bridge).2 =
          if changesInput toLowercase isObjectText bridge lowered then
            bridge.recorded lowered.callId
          else bridge := restoreCall_recorded lowered bridge
      rw [Method.run, ih, changedCalls]
      split at hstep
      · next hchanged =>
          simp only [hstep, hchanged, if_true, keys_recorded, List.toFinset_cons,
            Finset.insert_union, Finset.union_insert]
      · next hplain => simp only [hstep, hplain, Bool.false_eq_true, if_false]

theorem size_eq_card (map : OrderedMap CallId Unit) : map.size = map.keys.toFinset.card := by
  have hnodup : map.keys.Nodup := (List.pairwise_map.2 map.sorted).imp fun hlt => hlt.ne
  rw [OrderedMap.size_eq_keys, List.toFinset_card_of_nodup hnodup]

end Evidence

section Start

variable {sha256 : String → Digest} {built bridge : CustomToolBridge}

theorem build_normalized {tools : List ToolDefinition} {flags : BuildFlags}
    (h : build sha256 tools flags = .ok built) : built.normalized = .empty := by
  obtain ⟨leaves, -, h⟩ := bind_ok.1 h
  obtain ⟨registry, -, h⟩ := bind_ok.1 h
  obtain ⟨definitions, -, h⟩ := bind_ok.1 h
  cases h
  rfl

theorem setNormalize_normalized {original : ToolIdentity}
    (h : setNormalize built original = .ok bridge) : bridge.normalized = built.normalized := by
  obtain ⟨toolAlias, -, h⟩ := bind_ok.1 h
  obtain ⟨binding, -, h⟩ := bind_ok.1 h
  cases h
  rfl

theorem addAlternative_normalized {p : Policy} {original : ToolIdentity}
    (h : addAlternative sha256 p built original = .ok bridge) :
    bridge.normalized = built.normalized := by
  obtain ⟨_, -, h⟩ := bind_ok.1 h
  obtain ⟨_, -, h⟩ := bind_ok.1 h
  cases h
  rfl

/-- Editing starts with the evidence that the bridge had. -/
theorem withEditing_normalized {policy : Option Policy} {request : RequestIR} {wanted : Bool}
    (h : built.withEditing sha256 policy request wanted = .ok bridge) :
    bridge.normalized = built.normalized := by
  cases policy with
  | none =>
      cases h
      rfl
  | some p =>
      obtain ⟨_, -, h⟩ := bind_ok.1 h
      obtain ⟨selected, -, h⟩ := bind_ok.1 h
      obtain ⟨_, -, h⟩ := bind_ok.1 h
      obtain ⟨marked, hmarked, h⟩ := bind_ok.1 h
      rw [lift_ok] at hmarked h
      have hsame : marked.normalized = built.normalized := by
        unfold markNormalized at hmarked
        split at hmarked
        · exact foldlM_rule (P := fun _ br => br.normalized = built.normalized) hmarked rfl
            fun _ _ _ _ _ _ hbr hstep => (setNormalize_normalized hstep).trans hbr
        · cases hmarked
          rfl
      unfold addAlternatives at h
      split at h
      · cases h
        exact hsame
      · exact foldlM_rule (P := fun _ br => br.normalized = built.normalized) h hsame
          fun _ _ _ _ _ _ hbr hstep => (addAlternative_normalized hstep).trans hbr

end Start

/-- The envelope rule repairs the outer markers only: a second application does nothing, what is
rewritten differs in star suffixes of the markers and is a patch, and a patch is left alone. After
any calls the evidence counts the distinct ids of those that came back changed. -/
theorem patch_envelope_exact (sha256 : String → Digest) (toLowercase : Text → Text)
    (isObjectText : String → Bool) :
    (∀ text patch, normalizePatchEnvelope text = .ok patch →
      normalizePatchEnvelope patch.text = .ok ⟨patch.text, none⟩ ∧
      (patch.appliedRule = none → patch.text = text) ∧
      (patch.appliedRule ≠ none → Grammar.codexPatchV1.validate patch.text = .ok () ∧
        patch.text ∈ PatchGrammar.patch ∧ Repaired text patch.text)) ∧
    (∀ text, Grammar.codexPatchV1.validate text = .ok () →
      normalizePatchEnvelope text = .ok ⟨text, none⟩) ∧
    ∀ tools flags policy request wanted built bridge,
      build sha256 tools flags = .ok built →
      built.withEditing sha256 policy request wanted = .ok bridge →
      ∀ calls, (Method.run (restoreCall toLowercase isObjectText) bridge calls).normalizationEvidence =
        { rule := if changedCalls toLowercase isObjectText bridge calls = [] then none
            else some "patch-envelope/v1"
          distinctCalls := (changedCalls toLowercase isObjectText bridge calls).toFinset.card } := by
  refine ⟨fun text patch h => ⟨normalizePatchEnvelope_idem h, fun hnone => ?_, fun hsome => ?_⟩,
    fun text => normalizePatchEnvelope_valid, ?_⟩
  · rcases normalizePatchEnvelope_ok h with rfl | ⟨hrule, -, -⟩
    · rfl
    · rw [hrule] at hnone
      cases hnone
  · rcases normalizePatchEnvelope_ok h with rfl | ⟨-, hvalid, hrepaired⟩
    · exact absurd rfl hsome
    · refine ⟨hvalid, (PatchGrammar.validatePatch_iff _).1 ?_, hrepaired⟩
      unfold Grammar.validate at hvalid
      split at hvalid
      · cases hvalid
      · exact hvalid
  · intro tools flags policy request wanted built bridge hbuild hediting calls
    have hempty : bridge.normalized.keys.toFinset = ∅ := by
      rw [withEditing_normalized hediting, build_normalized hbuild]
      rfl
    have hsize : (Method.run (restoreCall toLowercase isObjectText) bridge calls).normalized.size =
        (changedCalls toLowercase isObjectText bridge calls).toFinset.card := by
      rw [size_eq_card, keys_run, hempty, Finset.empty_union]
    simp only [normalizationEvidence, hsize, Finset.card_eq_zero, List.toFinset_eq_empty_iff]

section Sample

/-- The patch text alone, with the envelope rule. -/
def envelopePolicy : Policy :=
  { linesPolicy with representation := .patchText, normalization := .patchEnvelope }

def envelopeBridge : CustomToolBridge :=
  { patchBridge with
    reverse := patchBridge.reverse.insert patchTool.identity
      ⟨true, none, patchTool.identity, some .codexPatchV1, false⟩ }

def starredPatch : Text :=
  "*** Begin Patch ***\n*** Update File: a\n@@\n-x\n*** End Patch".toList

theorem withEditing_envelopePolicy :
    patchBridge.withEditing patchSha256 (some envelopePolicy) patchRequest true =
      .ok envelopeBridge := rfl

theorem validate_deletion : Grammar.codexPatchV1.validate (deletionOf 'x' 1).patch = .ok () := by
  rw [ContextEdit.validate_patch (deletionOf_wellFormed (by decide) 1)]
  decide

theorem normalizePatchEnvelope_starredPatch :
    normalizePatchEnvelope starredPatch =
      .ok ⟨(deletionOf 'x' 1).patch, some "patch-envelope/v1"⟩ :=
  normalizePatchEnvelope_repaired
    ⟨starred, [], "*** Update File: a\n@@\n-x".toList, [], .inr rfl, .inl rfl, .inl (by decide),
      .inl rfl, by decide, by decide⟩ validate_deletion (by decide)

variable {bridge : CustomToolBridge}

theorem restoreCall_starredPatch (h : bridge.reverse = envelopeBridge.reverse) :
    restoreCall id (fun _ => true) (patchCall starredPatch) bridge =
      (.ok (patchCall (deletionOf 'x' 1).patch), bridge.recorded ⟨"c", by decide⟩) := by
  have hb : bridge.reverse.get (patchCall starredPatch).tool =
      some ⟨true, none, patchTool.identity, some .codexPatchV1, false⟩ := by
    rw [h]
    rfl
  have hinput : normalizedInput ⟨true, none, patchTool.identity, some .codexPatchV1, false⟩
      ⟨"c", by decide⟩ (String.ofList starredPatch).toList bridge =
      (.ok (deletionOf 'x' 1).patch, bridge.recorded ⟨"c", by decide⟩) := by
    rw [String.toList_ofList, normalizedInput, if_pos rfl, normalizePatchEnvelope_starredPatch]
    rfl
  have hbound : restoreBound id (fun _ => true)
      ⟨true, none, patchTool.identity, some .codexPatchV1, false⟩ (patchCall starredPatch) bridge =
      (.ok (.freeform (String.ofList (deletionOf 'x' 1).patch)),
        bridge.recorded ⟨"c", by decide⟩) := by
    simp only [restoreBound, restoreInput, patchCall, bind, hinput, Method.check,
      validate_deletion]
    rfl
  rw [restoreCall_eq rfl hb hbound]
  rfl

theorem changesInput_starredPatch (h : bridge.reverse = envelopeBridge.reverse) :
    changesInput id (fun _ => true) bridge (patchCall starredPatch) = true := by
  have hcarried : (bridge.reverse.get (patchCall starredPatch).tool).bind
      (carriedText · (patchCall starredPatch).input) =
      some (String.ofList starredPatch).toList := by
    rw [h]
    rfl
  have hdiffer : (deletionOf 'x' 1).patch ≠ starredPatch := by decide
  rw [changesInput, hcarried, restoreCall_starredPatch h]
  simp [patchCall, String.ofList_inj, hdiffer]

/-- A repaired call counts once, however often it comes. -/
theorem patch_envelope_exact_starred :
    (Method.run (restoreCall id fun _ => true) envelopeBridge
      [patchCall starredPatch, patchCall starredPatch]).normalizationEvidence =
        ⟨some "patch-envelope/v1", 1⟩ := by
  have hcalls : changedCalls id (fun _ => true) envelopeBridge
      [patchCall starredPatch, patchCall starredPatch] =
      [⟨"c", by decide⟩, ⟨"c", by decide⟩] := by
    have hlater : changesInput id (fun _ => true) (envelopeBridge.recorded ⟨"c", by decide⟩)
        (patchCall starredPatch) = true := changesInput_starredPatch rfl
    simp only [changedCalls, changesInput_starredPatch rfl, restoreCall_starredPatch rfl, hlater,
      if_true]
    rfl
  obtain ⟨-, -, hruns⟩ := patch_envelope_exact patchSha256 id fun _ => true
  rw [hruns _ _ _ _ _ _ _ (build_patchTool patchSha256_grammar) withEditing_envelopePolicy, hcalls]
  decide

end Sample

end CustomToolBridge
end ResponseGateway.Ir
