import ResponseGateway.Editing.CodeMode
import ResponseGateway.Ir.BridgeIdentities

/-!
`ir::bridge`: lowering and restoring tool results. The kind of a lowered result follows the way
its call takes down; the output is wrapped for programs only. Both directions make their checks
on one call, so each undoes the other.
-/

namespace ResponseGateway.Ir
open Checked Json Request Editing

namespace CustomToolBridge

variable (toLowercase : Text → Text)

/-- The output in the other form; only the results of programs have two. -/
def convertOutput (grammar : Option Grammar) (restore : Bool) (output : Json) :
    Except IrError Json :=
  if grammar = some .codeModeSourceV1 then
    if restore then do
      let text ← okOr output.asStr .invalidToolMapping
      codeModeResultParts text.toList
    else do
      let text ← codeModeResult output
      return .string (String.ofList text)
  else return output

/-- `CustomToolBridge::result`. -/
def result (bridge : CustomToolBridge) (original : ToolResult) (call : ToolCall) (restore : Bool) :
    Except (Fault IrError) ToolResult := do
  let lowered ← bridge.lowerCall toLowercase call
  let own ← lift (bridge.binding call.tool)
  let kind : ToolKind := if own.grammar.isSome then .custom else .function
  let loweredKind : ToolKind :=
    match lowered.input with
    | .json _ => .function
    | .freeform _ => kind
  rejectIf (original.callId ≠ call.callId ||
    original.kind ≠ if restore then loweredKind else kind) (.error .invalidToolMapping)
  rejectIf (!original.extensions.fields.isEmpty) (.error .unsupportedExtension)
  let output ← lift (convertOutput own.grammar restore original.output)
  return { original with output, kind := if restore then kind else loweredKind }

def lowerResult (bridge : CustomToolBridge) (original : ToolResult) (call : ToolCall) :
    Except (Fault IrError) ToolResult := bridge.result toLowercase original call false

def restoreResult (bridge : CustomToolBridge) (lowered : ToolResult) (call : ToolCall) :
    Except (Fault IrError) ToolResult := bridge.result toLowercase lowered call true

variable {toLowercase}

/-- Everything a conversion checks, and what it gives. -/
theorem result_ok {bridge : CustomToolBridge} {original converted : ToolResult} {call : ToolCall}
    {restore : Bool} :
    bridge.result toLowercase original call restore = .ok converted ↔
      ∃ lowered own, bridge.lowerCall toLowercase call = .ok lowered ∧
        bridge.binding call.tool = .ok own ∧ original.callId = call.callId ∧
        original.extensions.fields.isEmpty = true ∧
        ∃ kind loweredKind output,
          kind = (if own.grammar.isSome then ToolKind.custom else .function) ∧
          loweredKind = (match lowered.input with | .json _ => ToolKind.function | .freeform _ => kind) ∧
          original.kind = (if restore then loweredKind else kind) ∧
          convertOutput own.grammar restore original.output = .ok output ∧
          converted = { original with output, kind := if restore then kind else loweredKind } := by
  simp only [result, bind_ok, lift_ok, rejectIf_ok, pure_ok]
  constructor
  · rintro ⟨lowered, hlowered, own, hown, -, hchecks, -, hextensions, output, houtput, rfl⟩
    simp only [Bool.or_eq_false_iff, decide_eq_false_iff_not, not_not] at hchecks
    exact ⟨lowered, own, hlowered, hown, hchecks.1, by simpa using hextensions, _, _, output, rfl, rfl,
      hchecks.2, houtput, rfl⟩
  · rintro ⟨lowered, own, hlowered, hown, hid, hextensions, _, _, output, rfl, rfl, hkind, houtput,
      rfl⟩
    refine ⟨lowered, hlowered, own, hown, (), ?_, (), ?_, output, houtput, rfl⟩
    · simp only [Bool.or_eq_false_iff, decide_eq_false_iff_not, not_not]
      exact ⟨hid, hkind⟩
    · simpa using hextensions

/-- What was lowered is restored. -/
theorem convertOutput_restore {grammar : Option Grammar} {output lowered : Json}
    (hcanonical : output.Canonical) (h : convertOutput grammar false output = .ok lowered) :
    convertOutput grammar true lowered = .ok output := by
  unfold convertOutput at h ⊢
  split at h
  · next hcode =>
      obtain ⟨text, htext, h⟩ := bind_ok.1 h
      cases h
      rw [if_pos hcode, if_pos rfl]
      simp only [asStr, okOr_some, bind_of_ok, String.toList_ofList]
      exact codeModeResultParts_of_result hcanonical htext
  · next hother =>
      cases h
      rw [if_neg hother]
      rfl

/-- What was restored is lowered. -/
theorem convertOutput_lower {grammar : Option Grammar} {output lowered : Json}
    (h : convertOutput grammar true lowered = .ok output) :
    convertOutput grammar false output = .ok lowered := by
  unfold convertOutput at h ⊢
  split at h
  · next hcode =>
      rw [if_pos rfl] at h
      obtain ⟨text, htext, h⟩ := bind_ok.1 h
      rw [okOr_ok, asStr_eq_some] at htext
      subst htext
      rw [if_pos hcode, if_neg (by decide), codeModeResult_of_parts h, bind_of_ok,
        String.ofList_toList]
      rfl
  · next hother =>
      cases h
      rw [if_neg hother]
      rfl

/-- Results, programs and the texts of program results come back as they were, in both
directions. The values that are wrapped are sorted maps. -/
theorem wrappers_round_trip (toLowercase : Text → Text) (bridge : CustomToolBridge) :
    (∀ call original lowered, original.output.Canonical →
      bridge.lowerResult toLowercase original call = .ok lowered →
      bridge.restoreResult toLowercase lowered call = .ok original) ∧
    (∀ call original lowered, bridge.restoreResult toLowercase lowered call = .ok original →
      bridge.lowerResult toLowercase original call = .ok lowered) ∧
    (∀ patch program, helperProgram patch = .ok program → helperPatch program = .ok patch) ∧
    (∀ patch program, helperPatch program = .ok patch → helperProgram patch = .ok program) ∧
    (∀ parts text, parts.Canonical → codeModeResult parts = .ok text →
      codeModeResultParts text = .ok parts) ∧
    ∀ parts text, codeModeResultParts text = .ok parts → codeModeResult parts = .ok text := by
  refine ⟨?_, ?_, fun _ _ => helperPatch_of_helperProgram, fun _ _ => helperProgram_of_helperPatch,
    fun _ _ => codeModeResultParts_of_result, fun _ _ => codeModeResult_of_parts⟩
  · intro call original lowered hcanonical h
    obtain ⟨loweredCall, own, hcall, hown, hid, hextensions, kind, loweredKind, output, hkind,
      hloweredKind, hsame, houtput, rfl⟩ := result_ok.1 h
    refine result_ok.2 ⟨loweredCall, own, hcall, hown, hid, hextensions, kind, loweredKind,
      original.output, hkind, hloweredKind, rfl, convertOutput_restore hcanonical houtput, ?_⟩
    rw [if_neg (by decide)] at hsame
    rw [← hsame]
    rfl
  · intro call original lowered h
    obtain ⟨loweredCall, own, hcall, hown, hid, hextensions, kind, loweredKind, output, hkind,
      hloweredKind, hsame, houtput, rfl⟩ := result_ok.1 h
    refine result_ok.2 ⟨loweredCall, own, hcall, hown, hid, hextensions, kind, loweredKind,
      lowered.output, hkind, hloweredKind, rfl, convertOutput_lower houtput, ?_⟩
    rw [if_pos rfl] at hsame
    rw [← hsame]
    rfl

/-- The result of a program in two parts, the first with a line feed and a quotation mark. -/
def sampleParts : Json :=
  .array [.object [("text", .string "a\n\""), ("type", .string "input_text")],
    .object [("text", .string ""), ("type", .string "input_text")]]

theorem wrappers_round_trip_parts :
    codeModeResultParts (resultJson sampleParts).render = .ok sampleParts := by
  have hcanonical : sampleParts.Canonical := by
    simp only [sampleParts, Canonical, CanonicalItems, CanonicalFields, Assoc.Sorted,
      List.pairwise_cons, List.mem_singleton, List.not_mem_nil, forall_eq, false_implies,
      implies_true, List.Pairwise.nil, and_self, and_true]
    decide
  have hshort : ¬Text.len (resultJson sampleParts).render > maxText := by decide +kernel
  have hresult : codeModeResult sampleParts = .ok (resultJson sampleParts).render := by
    rw [codeModeResult]
    simp only [decide_eq_false hshort, rejectIf_false, bind_of_ok]
    rfl
  exact (wrappers_round_trip id patchBridge).2.2.2.2.1 _ _ hcanonical hresult

end CustomToolBridge
end ResponseGateway.Ir
