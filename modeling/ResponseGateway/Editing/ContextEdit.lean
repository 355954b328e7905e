import ResponseGateway.Library.Checked
import ResponseGateway.Ir.GrammarRecognition

/-!
`editing::ContextEdit`: one context-based line edit, its compilation to a patch
and the inverse that accepts only compiled patches. `assemble` is `compile`
without its last step, so that what the final grammar check can still reject
is a statement about two definitions.
-/

namespace ResponseGateway.Editing
open Ir Lines Checked

structure ContextEdit where
  path : Text
  beforeContext : List Text
  oldLines : List Text
  newLines : List Text
  afterContext : List Text
  deriving DecidableEq, Repr

def invalid : IrError := .invalidField "structured_edit"

/-- The path test shared by `ContextEdit::compile` and `path_key`. -/
def badPath (path : Text) : Bool :=
  path.isEmpty || trim path ≠ path || path.any isControl

/-- `contains(['\n', '\r', '\0'])`. -/
def badLine (line : Text) : Bool :=
  line.any (fun c => c = '\n' || c = '\r' || c = '\x00')

/-- The inner loop of `compile`, with its size check after each line. -/
def pushLines (mark : Char) : Text → List Text → Except IrError Text
  | patch, [] => .ok patch
  | patch, line :: lines =>
      if Text.len (patch ++ mark :: (line ++ ['\n'])) > maxText then .error .sizeLimit
      else pushLines mark (patch ++ mark :: (line ++ ['\n'])) lines

/-- The mark between the file header and the change lines. -/
def openMark : Text := "\n@@\n".toList

namespace ContextEdit

/-- `compile` up to the call of the grammar validator. -/
def assemble (e : ContextEdit) : Except IrError Text := do
  rejectIf (badPath e.path || e.oldLines = e.newLines || e.oldLines.isEmpty) invalid
  rejectIf (e.beforeContext.length + e.oldLines.length + e.newLines.length
      + e.afterContext.length > 16384
    || (e.beforeContext ++ e.oldLines ++ e.newLines ++ e.afterContext).any badLine) invalid
  let patch ← pushLines ' ' (beginPatch ++ updateFile ++ e.path ++ openMark) e.beforeContext
  let patch ← pushLines '-' patch e.oldLines
  let patch ← pushLines '+' patch e.newLines
  let patch ← pushLines ' ' patch e.afterContext
  return patch ++ endPatch

def compile (e : ContextEdit) : Except IrError Text := do
  let patch ← e.assemble
  Grammar.codexPatchV1.validate patch
  return patch

/-- `split_at_checked(1)`: the first byte must be a character of its own. -/
def splitMark : Text → Option (Char × Text)
  | c :: text => if c.utf8Size = 1 then some (c, text) else none
  | [] => none

/-- The loop of `from_patch` over the change lines, with its phase. -/
def readLines : Nat → ContextEdit → List Text → Except IrError ContextEdit
  | _, value, [] => .ok value
  | phase, value, line :: lines =>
      match splitMark line with
      | none => .error invalid
      | some (mark, text) =>
          if mark = ' ' ∧ phase = 0 then
            readLines phase { value with beforeContext := value.beforeContext ++ [text] } lines
          else if mark = '-' ∧ phase ≤ 1 then
            readLines 1 { value with oldLines := value.oldLines ++ [text] } lines
          else if mark = '+' ∧ 1 ≤ phase ∧ phase ≤ 2 then
            readLines 2 { value with newLines := value.newLines ++ [text] } lines
          else if mark = ' ' ∧ 1 ≤ phase then
            readLines 3 { value with afterContext := value.afterContext ++ [text] } lines
          else .error invalid

def fromPatch (patch : Text) : Except IrError ContextEdit := do
  let body ← okOr (patch.dropPrefix? (beginPatch ++ updateFile)) invalid
  let (path, body) ← okOr (body.dropInfix? openMark) invalid
  let body ← okOr (body.dropSuffix? endPatch) invalid
  let value ← readLines 0 ⟨path, [], [], [], []⟩ (splitTerminator '\n' body)
  let compiled ← value.compile
  rejectIf (compiled ≠ patch) invalid
  return value

/-- The change lines of the compiled patch. -/
def lines (e : ContextEdit) : List Text :=
  e.beforeContext.map (' ' :: ·) ++ e.oldLines.map ('-' :: ·) ++
    e.newLines.map ('+' :: ·) ++ e.afterContext.map (' ' :: ·)

/-- The hunk of the compiled patch, without the envelope. -/
def body (e : ContextEdit) : Text :=
  updateFile ++ e.path ++ openMark ++ terminate '\n' e.lines

/-- The compiled patch. -/
def patch (e : ContextEdit) : Text := beginPatch ++ e.body ++ endPatch

/-- The checks that do not concern the size of the text. -/
structure WellFormed (e : ContextEdit) : Prop where
  path : badPath e.path = false
  changed : e.oldLines ≠ e.newLines
  old : e.oldLines ≠ []
  count : e.beforeContext.length + e.oldLines.length + e.newLines.length
    + e.afterContext.length ≤ 16384
  content : ∀ l ∈ e.beforeContext ++ e.oldLines ++ e.newLines ++ e.afterContext, badLine l = false

end ContextEdit

theorem badPath_false {path : Text} (h : badPath path = false) : path ≠ [] ∧ '\n' ∉ path := by
  simp only [badPath, Bool.or_eq_false_iff, List.isEmpty_eq_false_iff, List.any_eq_false] at h
  exact ⟨h.1.1, fun hm => h.2 '\n' hm (by decide)⟩

theorem badLine_false {line : Text} (h : badLine line = false) : '\n' ∉ line := by
  simp only [badLine, List.any_eq_false] at h
  exact fun hm => h '\n' hm (by decide)

/-- The loop succeeds exactly when it is empty or its final text fits. -/
theorem pushLines_ok {mark : Char} {lines : List Text} {patch p : Text} :
    pushLines mark patch lines = .ok p ↔
      p = patch ++ terminate '\n' (lines.map (mark :: ·)) ∧ (lines = [] ∨ p.len ≤ maxText) := by
  induction lines generalizing patch with
  | nil => simp [pushLines, eq_comm]
  | cons line lines ih =>
      rw [pushLines]
      split
      · rename_i hlen
        simp only [reduceCtorEq, List.map_cons, terminate_cons, false_or, false_iff, not_and]
        rintro rfl
        simp only [Text.len_append, Text.len_cons, Text.len_nil, List.cons_append] at hlen ⊢
        omega
      · rename_i hlen
        rw [ih]
        simp only [List.map_cons, terminate_cons, reduceCtorEq, false_or, List.append_assoc,
          List.cons_append, List.nil_append]
        constructor
        · rintro ⟨rfl, rfl | h⟩
          · exact ⟨rfl, by simpa using hlen⟩
          · exact ⟨rfl, h⟩
        · rintro ⟨rfl, h⟩
          exact ⟨rfl, .inr h⟩

namespace ContextEdit

theorem lines_notMem {e : ContextEdit} (h : e.WellFormed) : ∀ l ∈ e.lines, '\n' ∉ l := by
  have hcontent := h.content
  simp only [List.forall_mem_append] at hcontent
  obtain ⟨⟨⟨hb, ho⟩, hn⟩, ha⟩ := hcontent
  have mark (ls : List Text) (c : Char) (hc : '\n' ≠ c) (hls : ∀ l ∈ ls, badLine l = false) :
      ∀ l ∈ ls.map (c :: ·), '\n' ∉ l := by
    simp only [List.mem_map, forall_exists_index, and_imp, forall_apply_eq_imp_iff₂]
    intro l hl hm
    exact (List.mem_cons.mp hm).elim hc (badLine_false (hls l hl))
  simp only [lines, List.forall_mem_append]
  exact ⟨⟨⟨mark _ ' ' (by decide) hb, mark _ '-' (by decide) ho⟩, mark _ '+' (by decide) hn⟩,
    mark _ ' ' (by decide) ha⟩

/-- What `assemble` accepts and produces. The last disjunct of the loops is the
size of the text before the end marker. -/
theorem assemble_ok {e : ContextEdit} {p : Text} :
    e.assemble = .ok p ↔
      e.WellFormed ∧ p = e.patch ∧ Text.len (beginPatch ++ e.body) ≤ maxText := by
  simp only [assemble, bind_ok, rejectIf_ok, pure_ok, pushLines_ok, exists_const,
    Bool.or_eq_false_iff, decide_eq_false_iff_not, List.isEmpty_eq_false_iff, List.any_eq_false,
    not_lt, Bool.not_eq_true]
  constructor
  · rintro ⟨⟨⟨hp, hch⟩, hold⟩, ⟨hc, hl⟩, p1, ⟨rfl, -⟩, p2, ⟨rfl, h2⟩, p3, ⟨rfl, h3⟩, p4,
      ⟨rfl, h4⟩, rfl⟩
    refine ⟨⟨hp, hch, hold, hc, hl⟩, by simp [patch, body, lines], ?_⟩
    simp only [body, lines, terminate_append, ← List.append_assoc]
    rcases h4 with h4 | h4
    · rcases h3 with h3 | h3
      · simpa [h3, h4] using h2.resolve_left hold
      · simpa [h4] using h3
    · exact h4
  · rintro ⟨⟨hp, hch, hold, hc, hl⟩, rfl, hlen⟩
    refine ⟨⟨⟨hp, hch⟩, hold⟩, ⟨hc, hl⟩, _, ⟨rfl, .inr ?_⟩, _, ⟨rfl, .inr ?_⟩, _,
      ⟨rfl, .inr ?_⟩, _, ⟨rfl, .inr ?_⟩, by simp [patch, body, lines]⟩ <;>
    · simp only [body, lines, terminate_append, Text.len_append] at hlen ⊢
      omega

theorem isChange_lines (e : ContextEdit) : ∀ l ∈ e.lines, isChange l = true := by
  simp only [lines, List.forall_mem_append, List.mem_map, forall_exists_index, and_imp,
    forall_apply_eq_imp_iff₂]
  exact ⟨⟨⟨fun l _ => by simp [isChange], fun l _ => by simp [isChange]⟩,
    fun l _ => by simp [isChange]⟩, fun l _ => by simp [isChange]⟩

/-- The compiled text is a patch of one update hunk. -/
theorem patch_mem {e : ContextEdit} (h : e.WellFormed) : e.patch ∈ PatchGrammar.patch := by
  obtain ⟨hne, hnl⟩ := badPath_false h.path
  refine PatchGrammar.mem_patch.mpr ⟨e.body, [], ?_, .inl rfl, by simp [patch]⟩
  refine PatchGrammar.mem_hunks.mpr ⟨[(updateFile ++ e.path) :: ([] ++ (hunkMark :: e.lines ++ []))],
    by simp, ?_, ?_, ?_⟩
  · simp only [List.mem_singleton, forall_eq]
    refine .update e.path [] (hunkMark :: e.lines) [] hne (.inl rfl) ?_ (.inl rfl)
    exact List.forall_mem_cons.mpr ⟨by decide, isChange_lines e⟩
  · simp only [List.flatten_cons, List.flatten_nil, List.append_nil, List.nil_append,
      List.forall_mem_cons]
    refine ⟨?_, by decide, lines_notMem h⟩
    simp only [List.mem_append, not_or]
    exact ⟨by decide, hnl⟩
  · have hopen : openMark = '\n' :: (hunkMark ++ ['\n']) := by decide
    simp [body, hopen]

/-- After all checks of `compile` the validator looks at the size only. -/
theorem validate_patch {e : ContextEdit} (h : e.WellFormed) :
    Grammar.codexPatchV1.validate e.patch =
      if e.patch.len > maxText then .error .sizeLimit else .ok () := by
  rw [Grammar.validate]
  split
  · rfl
  · exact (PatchGrammar.validatePatch_iff _).mpr (patch_mem h)

theorem compile_ok {e : ContextEdit} {p : Text} :
    e.compile = .ok p ↔ e.WellFormed ∧ p = e.patch ∧ p.len ≤ maxText := by
  simp only [compile, bind_ok, assemble_ok, pure_ok]
  constructor
  · rintro ⟨_, ⟨hw, rfl, -⟩, _, hv, rfl⟩
    refine ⟨hw, rfl, ?_⟩
    rw [validate_patch hw] at hv
    by_contra hlen
    rw [if_pos (Nat.lt_of_not_le hlen)] at hv
    cases hv
  · rintro ⟨hw, rfl, hlen⟩
    refine ⟨_, ⟨hw, rfl, ?_⟩, (), ?_, rfl⟩
    · simp only [patch, Text.len_append] at hlen ⊢
      omega
    · rw [validate_patch hw, if_neg (Nat.not_lt.mpr hlen)]

theorem readLines_before (ls rest : List Text) (v : ContextEdit) :
    readLines 0 v (ls.map (' ' :: ·) ++ rest) =
      readLines 0 { v with beforeContext := v.beforeContext ++ ls } rest := by
  induction ls generalizing v with
  | nil => simp
  | cons l ls ih =>
      rw [List.map_cons, List.cons_append, readLines, splitMark, if_pos (by decide)]
      simp only [and_self, if_true, ih, List.append_assoc, List.cons_append, List.nil_append]

theorem readLines_old (ls rest : List Text) (v : ContextEdit) (phase : Nat) (hp : phase ≤ 1)
    (hne : ls ≠ []) :
    readLines phase v (ls.map ('-' :: ·) ++ rest) =
      readLines 1 { v with oldLines := v.oldLines ++ ls } rest := by
  induction ls generalizing v phase with
  | nil => exact absurd rfl hne
  | cons l ls ih =>
      rw [List.map_cons, List.cons_append, readLines, splitMark, if_pos (by decide)]
      have h1 : ¬('-' = ' ' ∧ phase = 0) := fun h => absurd h.1 (by decide)
      simp only [h1, if_false, hp, and_self, if_true]
      cases ls with
      | nil => simp
      | cons m ls => rw [ih _ 1 le_rfl (by simp)]; simp

theorem readLines_new (ls rest : List Text) (v : ContextEdit) (phase : Nat)
    (h1 : 1 ≤ phase) (h2 : phase ≤ 2) :
    ∃ phase', 1 ≤ phase' ∧ phase' ≤ 2 ∧ readLines phase v (ls.map ('+' :: ·) ++ rest) =
      readLines phase' { v with newLines := v.newLines ++ ls } rest := by
  induction ls generalizing v phase with
  | nil => exact ⟨phase, h1, h2, by simp⟩
  | cons l ls ih =>
      obtain ⟨phase', hl, hu, he⟩ :=
        ih { v with newLines := v.newLines ++ [l] } 2 (by decide) le_rfl
      refine ⟨phase', hl, hu, ?_⟩
      rw [List.map_cons, List.cons_append, readLines, splitMark, if_pos (by decide)]
      have hb : ¬('+' = ' ' ∧ phase = 0) := fun h => absurd h.1 (by decide)
      have ho : ¬('+' = '-' ∧ phase ≤ 1) := fun h => absurd h.1 (by decide)
      simp only [hb, ho, if_false, h1, h2, and_self, if_true, he]
      simp

theorem readLines_after (ls : List Text) (v : ContextEdit) (phase : Nat) (h1 : 1 ≤ phase) :
    readLines phase v (ls.map (' ' :: ·)) =
      .ok { v with afterContext := v.afterContext ++ ls } := by
  induction ls generalizing v phase with
  | nil => simp [readLines]
  | cons l ls ih =>
      rw [List.map_cons, readLines, splitMark, if_pos (by decide)]
      have hz : phase ≠ 0 := by omega
      have ho : ¬(' ' = '-' ∧ phase ≤ 1) := fun h => absurd h.1 (by decide)
      simp only [hz, and_false, ho, if_false, h1, and_self, if_true, ih _ 3 (by decide)]
      simp

/-- Nonempty old lines separate the two context blocks, so the phases recover all four lists. -/
theorem readLines_lines {e : ContextEdit} (h : e.oldLines ≠ []) :
    readLines 0 ⟨e.path, [], [], [], []⟩ e.lines = .ok e := by
  obtain ⟨phase, hl, -, he⟩ := readLines_new e.newLines (e.afterContext.map (' ' :: ·))
    ⟨e.path, e.beforeContext, e.oldLines, [], []⟩ 1 le_rfl (by decide)
  simp only [lines, List.append_assoc, readLines_before, List.nil_append,
    readLines_old _ _ _ 0 (Nat.zero_le 1) h, he, readLines_after _ _ phase hl]

theorem fromPatch_of_compile {e : ContextEdit} {p : Text} (h : e.compile = .ok p) :
    fromPatch p = .ok e := by
  obtain ⟨hw, rfl, -⟩ := compile_ok.mp h
  have hpath := (badPath_false hw.path).2
  have hbegins : e.patch.dropPrefix? (beginPatch ++ updateFile) =
      some (e.path ++ (openMark ++ (terminate '\n' e.lines ++ endPatch))) := by
    rw [dropPrefix?_eq_some]
    simp [patch, body]
  have hinside : (e.path ++ (openMark ++ (terminate '\n' e.lines ++ endPatch))).dropInfix? openMark =
      some (e.path, terminate '\n' e.lines ++ endPatch) := by
    rw [← List.append_assoc]
    exact dropInfix?_of_notMem hpath
  simp only [fromPatch, hbegins, okOr_some, bind_of_ok, hinside, dropSuffix?_append,
    splitTerminator_terminate _ _ (lines_notMem hw), readLines_lines hw.old, h]
  simp only [ne_eq, not_true_eq_false, decide_false, rejectIf_false, bind_of_ok]
  rfl

theorem compile_of_fromPatch {e : ContextEdit} {p : Text} (h : fromPatch p = .ok e) :
    e.compile = .ok p := by
  simp only [fromPatch, bind_ok, rejectIf_ok, pure_ok, decide_eq_false_iff_not, ne_eq,
    not_not] at h
  obtain ⟨_, -, _, -, _, -, v, -, q, hq, _, rfl, rfl⟩ := h
  exact hq

end ContextEdit
end ResponseGateway.Editing
