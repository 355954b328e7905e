import ResponseGateway.Editing.Policy

/-!
The JSON form of an edit is read back as the edit, so a patch that was decoded
compiles to itself again unless its JSON form is too long for the reader. A patch
of the grammar is left alone by the envelope rule.
-/

namespace ResponseGateway.Editing
open Ir Lines Checked

section Serialization

theorem textOfJson_textJson (text : Text) : textOfJson (textJson text) = some text := by
  simp [textOfJson, textJson, Json.asStr]

theorem mapM_inverse_some {α β : Type} {f : α → β} {g : β → Option α} (l : List α)
    (h : ∀ a ∈ l, g (f a) = some a) : (l.map f).mapM g = some l := by
  induction l with
  | nil => rfl
  | cons a l ih =>
      rw [List.map_cons, List.mapM_cons, h a (by simp), ih fun a' ha' => h a' (by simp [ha'])]
      rfl

theorem linesOfJson_linesJson (lines : List Text) : linesOfJson (linesJson lines) = some lines := by
  simp only [linesOfJson, linesJson, Json.asArray, Option.bind_some]
  exact mapM_inverse_some lines fun text _ => textOfJson_textJson text

theorem ContextEdit.ofJson_toJson (edit : ContextEdit) : ofJson edit.toJson = some edit := by
  have hfields : structFields ["path", "before_context", "old_lines", "new_lines", "after_context"]
      edit.toJson = some [textJson edit.path, linesJson edit.beforeContext, linesJson edit.oldLines,
        linesJson edit.newLines, linesJson edit.afterContext] := rfl
  simp [ofJson, hfields, textOfJson_textJson, linesOfJson_linesJson]

theorem Operation.ofJson_toJson (operation : Operation) : ofJson operation.toJson = some operation := by
  cases operation with
  | create path lines =>
      have htag : taggedContent "operation" (create path lines).toJson =
          some ("create", .object [("path", textJson path), ("lines", linesJson lines)]) := rfl
      have hfields : structFields ["path", "lines"]
          (.object [("path", textJson path), ("lines", linesJson lines)]) =
          some [textJson path, linesJson lines] := rfl
      simp [ofJson, htag, ofContent, hfields, textOfJson_textJson, linesOfJson_linesJson]
  | delete path =>
      have htag : taggedContent "operation" (delete path).toJson =
          some ("delete", .object [("path", textJson path)]) := rfl
      have hfields : structFields ["path"] (.object [("path", textJson path)]) =
          some [textJson path] := rfl
      simp [ofJson, htag, ofContent, hfields, textOfJson_textJson]
  | move source destination context =>
      have htag : taggedContent "operation" (move source destination context).toJson =
          some ("move", .object [("source", textJson source), ("destination", textJson destination),
            ("context", linesJson context)]) := rfl
      have hfields : structFields ["source", "destination", "context"]
          (.object [("source", textJson source), ("destination", textJson destination),
            ("context", linesJson context)]) =
          some [textJson source, textJson destination, linesJson context] := rfl
      simp [ofJson, htag, ofContent, hfields, textOfJson_textJson, linesOfJson_linesJson]
  | update edit =>
      have htag : taggedContent "operation" (update edit).toJson =
          some ("update", .object [("edit", edit.toJson)]) := rfl
      have hfields : structFields ["edit"] (.object [("edit", edit.toJson)]) =
          some [edit.toJson] := rfl
      simp [ofJson, htag, ofContent, hfields, ContextEdit.ofJson_toJson]

theorem OperationBundle.ofJson_toJson (bundle : OperationBundle) :
    ofJson bundle.toJson = some bundle := by
  have hfields : structFields ["operations"] bundle.toJson =
      some [.array (bundle.operations.map Operation.toJson)] := rfl
  have hback := mapM_inverse_some bundle.operations
    fun operation _ => Operation.ofJson_toJson operation
  simp [ofJson, hfields, Json.asArray, hback]

end Serialization

section Nesting

theorem nesting_textJson (text : Text) : (textJson text).nesting = 0 := rfl

theorem nesting_linesJson (lines : List Text) : (linesJson lines).nesting ≤ 1 := by
  rw [linesJson, Json.nesting]
  refine Nat.succ_le_succ (Json.nestingItems_le fun item hmem => ?_)
  obtain ⟨text, -, rfl⟩ := List.mem_map.1 hmem
  exact le_rfl

theorem ContextEdit.nesting_toJson (edit : ContextEdit) : edit.toJson.nesting ≤ 2 := by
  simp only [toJson, Json.nesting, Json.nestingFields, nesting_textJson]
  have h₁ := nesting_linesJson edit.beforeContext
  have h₂ := nesting_linesJson edit.oldLines
  have h₃ := nesting_linesJson edit.newLines
  have h₄ := nesting_linesJson edit.afterContext
  omega

theorem Operation.nesting_toJson (operation : Operation) : operation.toJson.nesting ≤ 3 := by
  cases operation with
  | create path lines =>
      have h := nesting_linesJson lines
      simp only [toJson, Json.nesting, Json.nestingFields, nesting_textJson]
      omega
  | delete path =>
      simp only [toJson, Json.nesting, Json.nestingFields, nesting_textJson]
      omega
  | move source destination context =>
      have h := nesting_linesJson context
      simp only [toJson, Json.nesting, Json.nestingFields, nesting_textJson]
      omega
  | update edit =>
      have h := edit.nesting_toJson
      simp only [toJson, Json.nesting, Json.nestingFields]
      omega

theorem OperationBundle.nesting_toJson (bundle : OperationBundle) : bundle.toJson.nesting ≤ 5 := by
  have h : Json.nestingItems (bundle.operations.map Operation.toJson) ≤ 3 := by
    refine Json.nestingItems_le fun item hmem => ?_
    obtain ⟨operation, -, rfl⟩ := List.mem_map.1 hmem
    exact operation.nesting_toJson
  simp only [toJson, Json.nesting, Json.nestingFields]
  omega

theorem fromStr_render {α : Type} {ofJson : Json → Option α} {value : Json} {a : α}
    (hnesting : value.nesting ≤ maxNesting) (h : ofJson value = some a) :
    fromStr ofJson value.render = some a := by
  rw [fromStr, Json.parse_render value hnesting, Option.bind_some, h]

end Nesting

namespace Representation

variable {toLowercase : Text → Text} {patch : Text} {value : Json}

/-- The JSON form of the edit that compiles to the patch. -/
def Expresses (toLowercase : Text → Text) (representation : Representation) (patch : Text)
    (value : Json) : Prop :=
  match representation with
  | contextLines => ∃ edit : ContextEdit, edit.compile = .ok patch ∧ value = edit.toJson
  | operations => ∃ bundle : OperationBundle,
      bundle.compile toLowercase = .ok patch ∧ value = bundle.toJson
  | patchText => False

/-- Decoding succeeds on compiled patches only. -/
theorem decode_ok {representation : Representation} {text : Text} :
    representation.decode toLowercase patch = .ok text ↔
      ∃ value, representation.Expresses toLowercase patch value ∧ text = value.render := by
  cases representation with
  | contextLines =>
      constructor
      · intro h
        obtain ⟨edit, hedit, h⟩ := bind_ok.1 h
        cases h
        exact ⟨_, ⟨edit, ContextEdit.compile_of_fromPatch (lift_ok.1 hedit), rfl⟩, rfl⟩
      · rintro ⟨_, ⟨edit, hedit, rfl⟩, rfl⟩
        exact bind_ok.2 ⟨edit, lift_ok.2 (ContextEdit.fromPatch_of_compile hedit), rfl⟩
  | operations =>
      constructor
      · intro h
        obtain ⟨bundle, hbundle, h⟩ := bind_ok.1 h
        cases h
        exact ⟨_, ⟨bundle, OperationBundle.compile_of_fromPatch hbundle, rfl⟩, rfl⟩
      · rintro ⟨_, ⟨bundle, hbundle, rfl⟩, rfl⟩
        exact bind_ok.2 ⟨bundle, OperationBundle.fromPatch_of_compile hbundle, rfl⟩
  | patchText =>
      constructor
      · intro h
        cases h
      · rintro ⟨_, hfalse, -⟩
        exact hfalse.elim

theorem decode_safe (representation : Representation) :
    Safe (representation.decode toLowercase patch) := by
  cases representation with
  | contextLines => exact safe_bind (safe_lift _) fun _ _ => safe_ok _
  | operations => exact safe_bind (OperationBundle.fromPatch_safe _ _) fun _ _ => safe_ok _
  | patchText =>
      intro h
      cases h

/-- Compiling the JSON form gives the patch, unless the form is too long to be read. -/
theorem compile_render {representation : Representation}
    (h : representation.Expresses toLowercase patch value) :
    representation.compile toLowercase value.render =
      if Text.len value.render > maxText then .error .sizeLimit else .ok patch := by
  cases representation with
  | contextLines =>
      obtain ⟨edit, hedit, rfl⟩ := h
      have hread := fromStr_render (edit.nesting_toJson.trans (by decide)) edit.ofJson_toJson
      rw [compile, ContextEdit.fromJson, hread]
      split
      · next hlong => simp [hlong]
      · next hshort => simp [hshort, hedit]
  | operations =>
      obtain ⟨bundle, hbundle, rfl⟩ := h
      have hread := fromStr_render (bundle.nesting_toJson.trans (by decide)) bundle.ofJson_toJson
      rw [compile, OperationBundle.fromJson, hread]
      split
      · next hlong => simp [hlong]
      · next hshort => simp [hshort, hbundle]
  | patchText => exact h.elim

end Representation

/-- The patch of a program compiles to the program. -/
theorem helperProgram_of_helperPatch {program patch : Text} (h : helperPatch program = .ok patch) :
    helperProgram patch = .ok program := by
  obtain ⟨_, -, h⟩ := bind_ok.1 h
  obtain ⟨encoded, -, h⟩ := bind_ok.1 h
  obtain ⟨patch', -, h⟩ := bind_ok.1 h
  obtain ⟨rebuilt, hrebuilt, h⟩ := bind_ok.1 h
  obtain ⟨_, hsame, h⟩ := bind_ok.1 h
  cases h
  obtain rfl : rebuilt = program := by simpa using hsame
  exact hrebuilt

section Envelope

theorem validatePatch_envelope {text : Text} (h : validatePatch text = .ok ()) :
    ∃ middle, (text.dropSuffix? ['\n']).getD text = beginPatch ++ middle ++ '\n' :: endPatch := by
  unfold validatePatch at h
  dsimp only at h
  split at h
  · cases h
  · next body hbody =>
      split at h
      · cases h
      · next hlast =>
          obtain ⟨rest, hrest, hsuffix⟩ := Option.bind_eq_some_iff.1 hbody
          rw [dropPrefix?_eq_some] at hrest
          rw [dropSuffix?_eq_some] at hsuffix
          rw [not_not] at hlast
          obtain ⟨middle, rfl⟩ := List.getLast?_eq_some_iff.1 hlast
          exact ⟨middle, by rw [hrest, hsuffix]; simp⟩

/-- A patch of the grammar has the right markers. -/
theorem normalizePatchEnvelope_valid {text : Text} (h : Grammar.codexPatchV1.validate text = .ok ()) :
    normalizePatchEnvelope text = .ok ⟨text, none⟩ := by
  unfold Grammar.validate at h
  split at h
  · cases h
  · next hshort =>
      obtain ⟨middle, hbody⟩ := validatePatch_envelope h
      have hfirst : (beginPatch ++ middle ++ '\n' :: endPatch).dropInfix? ['\n'] =
          some (beginLine, middle ++ '\n' :: endPatch) := by
        have hsplit : (beginLine ++ ['\n'] ++ (middle ++ '\n' :: endPatch)).dropInfix? ['\n'] =
            some (beginLine, middle ++ '\n' :: endPatch) := dropInfix?_of_notMem (by decide)
        rw [← hsplit, List.append_assoc, show beginPatch = beginLine ++ ['\n'] by decide]
      have hlast : rsplitOnce '\n' (middle ++ '\n' :: endPatch) = some (middle, endPatch) :=
        rsplitOnce_of_notMem (by decide)
      rw [normalizePatchEnvelope]
      simp only [hshort, decide_false, rejectIf_false, bind_of_ok, hbody, hfirst, hlast, true_or,
        not_true_eq_false, and_self, or_true, if_true]
      rfl

end Envelope

end ResponseGateway.Editing
