import ResponseGateway.Editing.PolicyRoundTrip
import ResponseGateway.Library.JsonValue

/-!
The wrappers of Code Mode: the program around a patch and the text around the parts of a result.
Both readers build the text again and compare it, so each inverts its writer and accepts nothing
else; `codeModeResultParts` builds its value as the parser keeps it.
-/

namespace ResponseGateway.Editing
open Ir Lines Checked

section Results

/-- An object of the two fields of a text part. -/
def isTextPart (value : Json) : Bool :=
  match value.asObject with
  | some fields =>
      fields.length = 2 && value.field "type" = some (.string "input_text") &&
        (value.fieldStr "text").isSome
  | none => false

def resultSchema : String := "codex-exec-text-parts/v1"

/-- The text around parts, its fields in the order of a map. -/
def resultJson (parts : Json) : Json := .object [("parts", parts), ("schema", .string resultSchema)]

def codeModeResult (parts : Json) : Except IrError Text := do
  let values ← okOr parts.asArray invalid
  rejectIf (values.length > 4096 || values.any fun value => !isTextPart value) invalid
  let result : Text := (resultJson parts).render
  rejectIf (result.len > maxText) .sizeLimit
  return result

/-- `Envelope`, with the schema and the parts. -/
def resultOfJson (value : Json) : Option (Text × Json) := do
  let values ← structFields ["schema", "parts"] value
  match values with
  | [schema, parts] => return (← textOfJson schema, ← parts.kept)
  | _ => none

def codeModeResultParts (text : Text) : Except IrError Json := do
  rejectIf (text.len > maxText) .sizeLimit
  let (schema, parts) ← okOr (fromStr resultOfJson text) invalid
  rejectIf (schema ≠ resultSchema.toList) invalid
  let again ← codeModeResult parts
  rejectIf (again ≠ text) invalid
  return parts

/-- In a sorted map a text part is its two fields in order. -/
theorem isTextPart_eq {value : Json} (hcanonical : value.Canonical) (h : isTextPart value = true) :
    ∃ text, value = .object [("text", .string text), ("type", .string "input_text")] := by
  unfold isTextPart at h
  split at h
  · next fields hfields =>
      rw [Json.asObject_eq_some] at hfields
      subst hfields
      simp only [Bool.and_eq_true, decide_eq_true_eq, Option.isSome_iff_exists, Json.fieldStr,
        Option.bind_eq_some_iff, Json.asStr_eq_some] at h
      obtain ⟨⟨hlength, htype⟩, text, _, htext, rfl⟩ := h
      obtain ⟨⟨first, a⟩, ⟨second, b⟩, rfl⟩ := List.length_eq_two.1 hlength
      have hlt : first < second := by
        have hsorted := hcanonical.sorted
        simpa [Assoc.Sorted] using hsorted
      simp only [Json.field, Json.asObject, Option.bind_some, Assoc.get_cons, Assoc.get_nil] at htype htext
      split at htext
      · next hfirst =>
          subst hfirst
          rw [if_neg (by decide)] at htype
          split at htype
          · next hsecond =>
              subst hsecond
              cases htype
              cases htext
              exact ⟨text, rfl⟩
          · cases htype
      · split at htext
        · next hsecond =>
            subst hsecond
            split at htype
            · next hfirst =>
                subst hfirst
                exact absurd hlt (by decide)
            · rw [if_neg (by decide)] at htype
              cases htype
        · cases htext
  · cases h

/-- A canonical value that can be wrapped is kept as it is when it is read. -/
theorem kept_of_codeModeResult {parts : Json} {text : Text} (hcanonical : parts.Canonical)
    (h : codeModeResult parts = .ok text) : parts.kept = some parts ∧ parts.nesting ≤ 2 := by
  obtain ⟨values, hvalues, h⟩ := bind_ok.1 h
  obtain ⟨_, hparts, -⟩ := bind_ok.1 h
  rw [okOr_ok, Json.asArray_eq_some] at hvalues
  subst hvalues
  simp only [rejectIf_ok, Bool.or_eq_false_iff, List.any_eq_false, Bool.not_eq_true',
    Bool.not_eq_false] at hparts
  have hpart : ∀ value ∈ values, value.Settled ∧ value.nesting ≤ 1 := by
    intro value hvalue
    obtain ⟨text, rfl⟩ := isTextPart_eq (hcanonical.items hvalue) (hparts.2 value hvalue)
    have htoken : some "text" ≠ some Json.numberToken := by decide
    exact ⟨⟨htoken, (hcanonical.items hvalue).sorted, trivial, trivial, trivial⟩, Nat.le_refl _⟩
  refine ⟨(Json.kept_iff _).2 ?_, ?_⟩
  · rw [Json.Settled, Json.settledItems_iff]
    exact fun value hvalue => (hpart value hvalue).1
  · rw [Json.nesting]
    exact Nat.succ_le_succ (Json.nestingItems_le fun value hvalue => (hpart value hvalue).2)

/-- Nothing but the wrapped form of a value is read as it. -/
theorem codeModeResult_of_parts {parts : Json} {text : Text}
    (h : codeModeResultParts text = .ok parts) : codeModeResult parts = .ok text := by
  obtain ⟨_, -, h⟩ := bind_ok.1 h
  obtain ⟨⟨schema, parts'⟩, -, h⟩ := bind_ok.1 h
  obtain ⟨_, -, h⟩ := bind_ok.1 h
  obtain ⟨again, hagain, h⟩ := bind_ok.1 h
  obtain ⟨_, hsame, h⟩ := bind_ok.1 h
  cases h
  obtain rfl : again = text := by simpa using hsame
  exact hagain

/-- The wrapped form of a value is read as the value. -/
theorem codeModeResultParts_of_result {parts : Json} {text : Text} (hcanonical : parts.Canonical)
    (h : codeModeResult parts = .ok text) : codeModeResultParts text = .ok parts := by
  obtain ⟨hkept, hnesting⟩ := kept_of_codeModeResult hcanonical h
  have hwrapped := h
  obtain ⟨values, -, h⟩ := bind_ok.1 h
  obtain ⟨_, -, h⟩ := bind_ok.1 h
  obtain ⟨_, hshort, h⟩ := bind_ok.1 h
  cases h
  have hread : fromStr resultOfJson (resultJson parts).render = some (resultSchema.toList, parts) := by
    refine fromStr_render ?_ ?_
    · simp only [resultJson, Json.nesting, Json.nestingFields]
      have hbound : maxNesting = 127 := rfl
      omega
    · have hfields : structFields ["schema", "parts"] (resultJson parts) =
          some [.string resultSchema, parts] := rfl
      rw [resultOfJson, hfields]
      simp [textOfJson, Json.asStr, hkept]
  rw [codeModeResultParts, hshort, bind_of_ok, hread]
  simp only [okOr_some, bind_of_ok, ne_eq, not_true_eq_false, decide_false, rejectIf_false, hwrapped]
  rfl

end Results

section Programs

/-- The program of a patch gives the patch back. -/
theorem helperPatch_of_helperProgram {patch program : Text} (h : helperProgram patch = .ok program) :
    helperPatch program = .ok patch := by
  have hprogram := h
  obtain ⟨_, -, h⟩ := bind_ok.1 h
  obtain ⟨_, hshort, h⟩ := bind_ok.1 h
  cases h
  have hencoded : ((wrapperStart ++ Json.renderString patch ++ wrapperEnd).dropPrefix?
      wrapperStart).bind (·.dropSuffix? wrapperEnd) = some (Json.renderString patch) := by
    rw [List.append_assoc, dropPrefix?_append, Option.bind_some, dropSuffix?_append]
  have hread : fromStr textOfJson (Json.renderString patch) = some patch := by
    have htext : (textJson patch).render = Json.renderString patch := by
      rw [textJson, Json.render, String.toList_ofList]
    rw [← htext]
    exact fromStr_render (Nat.zero_le _) (textOfJson_textJson patch)
  rw [helperPatch, hshort, bind_of_ok, hencoded]
  simp only [okOr_some, bind_of_ok, hread, hprogram, ne_eq, not_true_eq_false, decide_false,
    rejectIf_false]
  rfl

theorem helperPatch_iff {patch program : Text} :
    helperPatch program = .ok patch ↔ helperProgram patch = .ok program :=
  ⟨helperProgram_of_helperPatch, helperPatch_of_helperProgram⟩

end Programs

end ResponseGateway.Editing
