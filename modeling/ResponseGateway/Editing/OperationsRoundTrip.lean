import ResponseGateway.Editing.Operations

/-!
Compilation and re-reading of operation bundles are inverse to each other.
The argument is by lines: an accepted operation emits a header line followed
by lines that are no headers, so the text re-splits into the same chunks, and
each chunk determines its operation.
-/

namespace ResponseGateway.Editing
open Ir Lines Checked

namespace Operation

/-- The lines of the compiled operation. -/
def lines : Operation → List Text
  | create path ls => (addFile ++ path) :: ls.map ('+' :: ·)
  | delete path => [deleteFile ++ path]
  | move source destination context =>
      (updateFile ++ source) :: (moveTo ++ destination) :: hunkMark :: context.map (' ' :: ·)
  | update edit => (updateFile ++ edit.path) :: hunkMark :: edit.lines

/-- The content checks of `compile` on one operation. -/
def Accepted : Operation → Prop
  | create path ls => badPath path = false ∧ ls ≠ [] ∧ ∀ l ∈ ls, badLine l = false
  | delete path => badPath path = false
  | move source destination context =>
      badPath source = false ∧ badPath destination = false ∧
        context ≠ [] ∧ ∀ l ∈ context, badLine l = false
  | update edit => edit.compile = .ok edit.patch

end Operation

theorem openMark_eq : openMark = '\n' :: (hunkMark ++ ['\n']) := by decide

theorem linesValid_ok {ls : List Text} {u : Unit} (h : linesValid ls = .ok u) :
    ls ≠ [] ∧ ∀ l ∈ ls, badLine l = false := by
  simp only [linesValid, rejectIf_ok, Bool.or_eq_false_iff, List.isEmpty_eq_false_iff,
    List.any_eq_false, Bool.not_eq_true] at h
  exact ⟨h.1.1, h.2⟩

theorem pathKey_ok {toLowercase : Text → Text} {path key : Text}
    (h : pathKey toLowercase path = .ok key) : badPath path = false := by
  simp only [pathKey, bind_ok, rejectIf_ok, exists_const] at h
  exact h.1

theorem touchPaths_ok {toLowercase : Text → Text} {paths touched result : List Text}
    (h : touchPaths toLowercase paths touched = .ok result) :
    ∀ path ∈ touched, badPath path = false := by
  induction touched generalizing paths with
  | nil => simp
  | cons path rest ih =>
      simp only [touchPaths, bind_ok] at h
      obtain ⟨key, hkey, -, -, hrest⟩ := h
      exact List.forall_mem_cons.mpr ⟨pathKey_ok hkey, ih hrest⟩

theorem body_eq_terminate (e : ContextEdit) :
    e.body = terminate '\n' ((updateFile ++ e.path) :: hunkMark :: e.lines) := by
  simp [ContextEdit.body, openMark_eq]

theorem emit_ok {op : Operation} {text : Text} {n : Nat}
    (h : op.emit = .ok (text, n)) (hp : ∀ path ∈ op.touched, badPath path = false) :
    op.Accepted ∧ text = terminate '\n' op.lines := by
  cases op with
  | create path ls =>
      simp only [Operation.emit, bind_ok, pure_ok, Prod.mk.injEq] at h
      obtain ⟨_, hv, rfl, -⟩ := h
      exact ⟨⟨hp path (by simp [Operation.touched]), linesValid_ok hv⟩, by simp [Operation.lines]⟩
  | delete path =>
      simp only [Operation.emit, pure_ok, Prod.mk.injEq] at h
      exact ⟨hp path (by simp [Operation.touched]), by simp [Operation.lines, ← h.1]⟩
  | move source destination context =>
      simp only [Operation.emit, bind_ok, pure_ok, Prod.mk.injEq] at h
      obtain ⟨_, hv, rfl, -⟩ := h
      exact ⟨⟨hp source (by simp [Operation.touched]), hp destination (by simp [Operation.touched]),
        linesValid_ok hv⟩, by simp [Operation.lines, openMark_eq]⟩
  | update edit =>
      simp only [Operation.emit, bind_ok, okOr_ok, pure_ok, Prod.mk.injEq] at h
      obtain ⟨compiled, hc, inner, hi, rfl, -⟩ := h
      obtain ⟨-, rfl, -⟩ := ContextEdit.compile_ok.mp hc
      refine ⟨hc, ?_⟩
      have hinner : (edit.patch.dropPrefix? beginPatch).bind (·.dropSuffix? endPatch) =
          some edit.body := by
        simp [ContextEdit.patch, List.append_assoc]
      rw [hinner] at hi
      obtain rfl := Option.some.inj hi
      exact body_eq_terminate edit

theorem pushOperations_ok {toLowercase : Text → Text} {ops : List Operation} {paths : List Text}
    {patch p : Text} {count : Nat}
    (h : pushOperations toLowercase paths patch count ops = .ok p) :
    (∀ op ∈ ops, op.Accepted) ∧ p = patch ++ terminate '\n' (ops.flatMap Operation.lines) := by
  induction ops generalizing paths patch count with
  | nil => exact ⟨by simp, by simpa [pushOperations] using h.symm⟩
  | cons op ops ih =>
      simp only [pushOperations, bind_ok] at h
      obtain ⟨paths', hpaths, ⟨text, n⟩, hemit, _, -, hrest⟩ := h
      obtain ⟨hacc, rfl⟩ := emit_ok hemit (touchPaths_ok hpaths)
      obtain ⟨hall, rfl⟩ := ih hrest
      exact ⟨List.forall_mem_cons.mpr ⟨hacc, hall⟩, by simp⟩

theorem notMem_map_mark {ls : List Text} {mark : Char} (hm : '\n' ≠ mark)
    (h : ∀ l ∈ ls, badLine l = false) : ∀ l ∈ ls.map (mark :: ·), '\n' ∉ l := by
  simp only [List.mem_map, forall_exists_index, and_imp, forall_apply_eq_imp_iff₂]
  intro l hl hmem
  exact (List.mem_cons.mp hmem).elim hm (badLine_false (h l hl))

theorem notMem_header {header path : Text} (hh : '\n' ∉ header) (hp : badPath path = false) :
    '\n' ∉ header ++ path := by
  simp only [List.mem_append, not_or]
  exact ⟨hh, (badPath_false hp).2⟩

namespace Operation

theorem lines_notMem {op : Operation} (h : op.Accepted) : ∀ l ∈ op.lines, '\n' ∉ l := by
  cases op with
  | create path ls =>
      exact List.forall_mem_cons.mpr
        ⟨notMem_header (by decide) h.1, notMem_map_mark (by decide) h.2.2⟩
  | delete path =>
      exact List.forall_mem_cons.mpr ⟨notMem_header (by decide) h, by simp⟩
  | move source destination context =>
      exact List.forall_mem_cons.mpr ⟨notMem_header (by decide) h.1,
        List.forall_mem_cons.mpr ⟨notMem_header (by decide) h.2.1,
          List.forall_mem_cons.mpr ⟨by decide, notMem_map_mark (by decide) h.2.2.2⟩⟩⟩
  | update edit =>
      have hw := (ContextEdit.compile_ok.mp h).1
      exact List.forall_mem_cons.mpr ⟨notMem_header (by decide) hw.path,
        List.forall_mem_cons.mpr ⟨by decide, ContextEdit.lines_notMem hw⟩⟩

/-- Every accepted operation is one hunk of the patch grammar. -/
theorem lines_hunk {op : Operation} (h : op.Accepted) : PatchGrammar.HunkLines op.lines := by
  cases op with
  | create path ls =>
      refine .add path _ (badPath_false h.1).1 (by simpa using h.2.1) ?_
      simp
  | delete path => exact .delete path (badPath_false h).1
  | move source destination context =>
      have hu := PatchGrammar.HunkLines.update source [moveTo ++ destination]
        (hunkMark :: context.map (' ' :: ·)) [] (badPath_false h.1).1
        (.inr ⟨destination, (badPath_false h.2.1).1, rfl⟩)
        (List.forall_mem_cons.mpr ⟨by decide, by simp [isChange]⟩) (.inl rfl)
      simpa [lines] using hu
  | update edit =>
      have hw := (ContextEdit.compile_ok.mp h).1
      have hu := PatchGrammar.HunkLines.update edit.path [] (hunkMark :: edit.lines) []
        (badPath_false hw.path).1 (.inl rfl)
        (List.forall_mem_cons.mpr ⟨by decide, ContextEdit.isChange_lines edit⟩) (.inl rfl)
      simpa [lines] using hu

end Operation

/-- The text of a bundle as `compile` produces it. -/
def OperationBundle.patch (v : OperationBundle) : Text :=
  beginPatch ++ terminate '\n' (v.operations.flatMap Operation.lines) ++ endPatch

namespace OperationBundle

theorem assemble_ok {toLowercase : Text → Text} {v : OperationBundle} {p : Text}
    (h : v.assemble toLowercase = .ok p) :
    v.operations ≠ [] ∧ v.operations.length ≤ 64 ∧ (∀ op ∈ v.operations, op.Accepted) ∧
      p = v.patch ∧ p.len ≤ maxText := by
  simp only [assemble, bind_ok, rejectIf_ok, pure_ok, Bool.or_eq_false_iff,
    List.isEmpty_eq_false_iff, decide_eq_false_iff_not, not_lt, exists_const] at h
  obtain ⟨⟨hne, hlen⟩, p', hpush, hsize, rfl⟩ := h
  obtain ⟨hall, rfl⟩ := pushOperations_ok hpush
  exact ⟨hne, hlen, hall, rfl, hsize⟩

theorem patch_mem {v : OperationBundle} (hne : v.operations ≠ [])
    (hall : ∀ op ∈ v.operations, op.Accepted) : v.patch ∈ PatchGrammar.patch := by
  refine PatchGrammar.mem_patch.mpr
    ⟨terminate '\n' (v.operations.flatMap Operation.lines), [], ?_, .inl rfl, by simp [patch]⟩
  refine PatchGrammar.mem_hunks.mpr ⟨v.operations.map Operation.lines, by simpa using hne, ?_, ?_,
    by rw [List.flatMap_def]⟩
  · simp only [List.mem_map, forall_exists_index, and_imp, forall_apply_eq_imp_iff₂]
    exact fun op hop => Operation.lines_hunk (hall op hop)
  · intro l hl
    obtain ⟨_, hm, hl⟩ := List.mem_flatten.mp hl
    obtain ⟨op, hop, rfl⟩ := List.mem_map.mp hm
    exact Operation.lines_notMem (hall op hop) l hl

/-- The last step of `compile` never fails. -/
theorem validate_of_assemble {toLowercase : Text → Text} {v : OperationBundle} {p : Text}
    (h : v.assemble toLowercase = .ok p) : Grammar.codexPatchV1.validate p = .ok () := by
  obtain ⟨hne, -, hall, rfl, hsize⟩ := assemble_ok h
  rw [Grammar.validate, if_neg (Nat.not_lt.mpr hsize)]
  exact (PatchGrammar.validatePatch_iff _).mpr (patch_mem hne hall)

theorem compile_ok {toLowercase : Text → Text} {v : OperationBundle} {p : Text} :
    v.compile toLowercase = .ok p ↔ v.assemble toLowercase = .ok p := by
  simp only [compile, bind_ok, pure_ok]
  constructor
  · rintro ⟨q, hq, _, -, rfl⟩
    exact hq
  · intro h
    exact ⟨p, h, (), validate_of_assemble h, rfl⟩

end OperationBundle

/-- What follows a chunk: nothing, or another header line. -/
def StartsChunk (rest : List Text) : Prop := ∀ l, rest.head? = some l → isHeader l = true

theorem nextHeader_skip (lead body rest : List Text) (hbody : ∀ l ∈ body, isHeader l = false)
    (hrest : StartsChunk rest) :
    nextHeader (lead ++ (body ++ rest)) lead.length = lead.length + body.length := by
  induction body generalizing lead with
  | nil =>
      rw [nextHeader]
      cases rest with
      | nil => simp
      | cons l rest => simp [hrest l rfl]
  | cons l body ih =>
      rw [List.forall_mem_cons] at hbody
      have hih := ih (lead ++ [l]) hbody.2
      simp only [List.append_assoc, List.cons_append, List.nil_append, List.length_append,
        List.length_singleton] at hih
      rw [nextHeader, dif_pos (by simp)]
      have hget : (lead ++ (l :: body ++ rest)).get ⟨lead.length, by simp⟩ = l := by simp
      rw [hget, if_neg (by simp [hbody.1]), List.cons_append, hih, List.length_cons]
      omega

theorem isHeader_lines_tail (op : Operation) : ∀ l ∈ op.lines.tail, isHeader l = false := by
  cases op with
  | create path ls =>
      simp only [Operation.lines, List.tail_cons, List.mem_map, forall_exists_index, and_imp,
        forall_apply_eq_imp_iff₂]
      exact fun _ _ => rfl
  | delete path => simp [Operation.lines]
  | move source destination context =>
      simp only [Operation.lines, List.tail_cons, List.forall_mem_cons, List.mem_map,
        forall_exists_index, and_imp, forall_apply_eq_imp_iff₂]
      exact ⟨rfl, by decide, fun _ _ => rfl⟩
  | update edit =>
      simp only [Operation.lines, List.tail_cons, List.forall_mem_cons, ContextEdit.lines,
        List.forall_mem_append, List.mem_map, forall_exists_index, and_imp,
        forall_apply_eq_imp_iff₂]
      exact ⟨by decide, ⟨⟨⟨fun _ _ => rfl, fun _ _ => rfl⟩, fun _ _ => rfl⟩, fun _ _ => rfl⟩⟩

theorem isPrefixOf_append (a b : Text) : a.isPrefixOf (a ++ b) = true :=
  List.isPrefixOf_iff_prefix.mpr ⟨b, rfl⟩

theorem lines_startsChunk (op : Operation) (rest : List Text) : StartsChunk (op.lines ++ rest) := by
  intro l hl
  cases op <;> simp only [Operation.lines, List.cons_append, List.head?_cons,
    Option.some.injEq] at hl <;> subst hl <;> simp [isHeader, isPrefixOf_append]

theorem lines_cons (op : Operation) : ∃ first tail, op.lines = first :: tail := by
  cases op <;> exact ⟨_, _, rfl⟩

theorem unmark_map (mark : Char) (ls : List Text) :
    unmark mark (ls.map (mark :: ·)) = .ok ls := by
  induction ls with
  | nil => rfl
  | cons l ls ih =>
      have hl : (mark :: l).dropPrefix? [mark] = some l := by simp [dropPrefix?_eq_some]
      rw [unmark] at ih
      rw [unmark, List.map_cons, List.mapM_cons, hl, ih]
      rfl

theorem intercalate_terminate (first : Text) (rest : List Text) :
    List.intercalate ['\n'] (first :: rest) ++ ['\n'] = terminate '\n' (first :: rest) := by
  induction rest generalizing first with
  | nil => simp [List.intercalate]
  | cons l rest ih =>
      rw [List.intercalate_cons_cons, List.append_assoc, List.append_assoc, ih l, terminate_cons]
      simp

theorem dropPrefix?_addFile_delete (t : Text) : (deleteFile ++ t).dropPrefix? addFile = none := rfl
theorem dropPrefix?_addFile_update (t : Text) : (updateFile ++ t).dropPrefix? addFile = none := rfl
theorem dropPrefix?_deleteFile_update (t : Text) :
    (updateFile ++ t).dropPrefix? deleteFile = none := rfl

/-- A chunk of an accepted operation reads back as that operation. -/
theorem readOperation_lines {op : Operation} (h : op.Accepted) :
    readOperation op.lines = .ok op := by
  cases op with
  | create path ls =>
      simp only [readOperation, Operation.lines, index_zero, bind_of_ok, dropPrefix?_append,
        sliceFrom_of_le ((addFile ++ path) :: ls.map ('+' :: ·)) (by simp : 1 ≤ _),
        List.drop_succ_cons, List.drop_zero, unmark_map, lift_of_ok]
      rfl
  | delete path =>
      simp only [readOperation, Operation.lines, index_zero, bind_of_ok,
        dropPrefix?_addFile_delete, dropPrefix?_append]
      rfl
  | move source destination context =>
      simp only [readOperation, Operation.lines, index_zero, bind_of_ok,
        dropPrefix?_addFile_update, dropPrefix?_deleteFile_update, dropPrefix?_append,
        List.getElem?_cons_succ, List.getElem?_cons_zero, Option.bind_some, ne_eq,
        not_true_eq_false, decide_false, rejectIf_false,
        sliceFrom_of_le ((updateFile ++ source) :: (moveTo ++ destination) :: hunkMark ::
          context.map (' ' :: ·)) (by simp : 3 ≤ _),
        List.drop_succ_cons, List.drop_zero, unmark_map, lift_of_ok]
      rfl
  | update edit =>
      have htext : beginPatch ++ List.intercalate ['\n']
          ((updateFile ++ edit.path) :: hunkMark :: edit.lines) ++ ['\n'] ++ endPatch =
            edit.patch := by
        rw [List.append_assoc beginPatch, intercalate_terminate, ContextEdit.patch,
          body_eq_terminate]
      have hmark : hunkMark.dropPrefix? moveTo = none := by decide
      simp only [readOperation, Operation.lines, index_zero, bind_of_ok,
        dropPrefix?_addFile_update, dropPrefix?_deleteFile_update, dropPrefix?_append,
        List.getElem?_cons_succ, List.getElem?_cons_zero, Option.bind_some, hmark, htext,
        ContextEdit.fromPatch_of_compile h, lift_of_ok]
      rfl

theorem readOperations_lines (lead : List Text) (acc ops : List Operation)
    (hops : ∀ op ∈ ops, op.Accepted) (hlen : acc.length + ops.length ≤ 64) :
    readOperations (lead ++ ops.flatMap Operation.lines) lead.length acc = .ok (acc ++ ops) := by
  induction ops generalizing lead acc with
  | nil =>
      rw [readOperations, if_neg (by simp)]
      simp
  | cons op ops ih =>
      rw [List.forall_mem_cons] at hops
      obtain ⟨first, tail, hcons⟩ := lines_cons op
      have htail : ∀ l ∈ tail, isHeader l = false := by
        simpa [hcons] using isHeader_lines_tail op
      have hrest : StartsChunk (ops.flatMap Operation.lines) := by
        cases ops with
        | nil => intro l hl; cases hl
        | cons o os => exact lines_startsChunk o _
      have hnext := nextHeader_skip (lead ++ [first]) tail (ops.flatMap Operation.lines) htail hrest
      have hih := ih (lead ++ op.lines) (acc ++ [op]) hops.2 (by simp at hlen ⊢; omega)
      simp only [hcons, List.append_assoc, List.cons_append, List.nil_append, List.length_append,
        List.length_cons, List.length_nil, Nat.zero_add] at hnext hih
      rw [readOperations, List.flatMap_cons, hcons, if_pos (by simp), List.cons_append, hnext,
        slice_of_le (by omega) (by simp; omega)]
      have hchunk : ((lead ++ first :: (tail ++ ops.flatMap Operation.lines)).take
          (lead.length + 1 + tail.length)).drop lead.length = op.lines := by
        rw [hcons, Nat.add_assoc, List.take_length_add_append]
        simp [Nat.add_comm 1 tail.length]
      have hcount : ¬ (acc ++ [op]).length > 64 := by simp at hlen ⊢; omega
      rw [bind_of_ok, hchunk, readOperation_lines hops.1, bind_of_ok, decide_eq_false hcount,
        rejectIf_false, bind_of_ok, show lead.length + 1 + tail.length =
          lead.length + (tail.length + 1) by omega, hih]

theorem safe_index {l : List Text} {i : Nat} (h : i < l.length) :
    Safe (index l i : Except (Fault IrError) Text) := by
  rw [index, List.getElem?_eq_getElem h]
  exact safe_ok _

theorem safe_sliceFrom {l : List Text} {i : Nat} (h : i ≤ l.length) :
    Safe (sliceFrom l i : Except (Fault IrError) (List Text)) := by
  rw [sliceFrom_of_le l h]
  exact safe_ok _

theorem safe_rejectIf {c : Bool} {e : IrError} :
    Safe (rejectIf c (.error e) : Except (Fault IrError) Unit) := by
  cases c <;> simp [Safe]

/-- No index or slice of a nonempty chunk is out of range. -/
theorem readOperation_safe {chunk : List Text} (h : chunk ≠ []) : Safe (readOperation chunk) := by
  have hpos : 0 < chunk.length := List.length_pos_iff.mpr h
  refine safe_bind (safe_index hpos) ?_
  intro first _
  split
  · exact safe_bind (safe_sliceFrom hpos) fun rest _ =>
      safe_bind (safe_lift _) fun lines _ => safe_ok _
  · split
    · exact safe_bind safe_rejectIf fun _ _ => safe_ok _
    · split
      · split
        · refine safe_bind safe_rejectIf fun u hu => ?_
          -- The third line is the mark, so the slice from it on is in range.
          have hmark : chunk[2]? = some hunkMark := by
            simpa only [rejectIf_ok, decide_eq_false_iff_not, ne_eq, not_not] using hu
          have h2 : 2 < chunk.length := (List.getElem?_eq_some_iff.mp hmark).1
          exact safe_bind (safe_sliceFrom h2) fun rest _ =>
            safe_bind (safe_lift _) fun lines _ => safe_ok _
        · exact safe_bind (safe_lift _) fun edit _ => safe_ok _
      · simp [Safe]

theorem readOperations_safe (lines : List Text) (cursor : Nat) (acc : List Operation) :
    Safe (readOperations lines cursor acc) := by
  induction cursor, acc using readOperations.induct lines with
  | case1 cursor acc hlt ih =>
      rw [readOperations, if_pos hlt]
      have hle := le_nextHeader lines (cursor + 1)
      have hge := nextHeader_le lines (cursor + 1) hlt
      rw [slice_of_le (by omega) hge, bind_of_ok]
      refine safe_bind (readOperation_safe ?_) fun op _ =>
        safe_bind safe_rejectIf fun _ _ => ih op
      rw [← List.length_pos_iff]
      simp
      omega
  | case2 cursor acc hge =>
      rw [readOperations, if_neg hge]
      exact safe_ok _

namespace OperationBundle

theorem fromPatch_safe (toLowercase : Text → Text) (p : Text) : Safe (fromPatch toLowercase p) :=
  safe_bind safe_rejectIf fun _ _ => safe_bind (safe_lift _) fun _ _ =>
    safe_bind (readOperations_safe _ _ _) fun _ _ => safe_bind (safe_lift _) fun _ _ =>
      safe_bind safe_rejectIf fun _ _ => safe_ok _

theorem compile_of_fromPatch {toLowercase : Text → Text} {v : OperationBundle} {p : Text}
    (h : fromPatch toLowercase p = .ok v) : v.compile toLowercase = .ok p := by
  simp only [fromPatch, bind_ok, rejectIf_ok, lift_ok, pure_ok, decide_eq_false_iff_not, ne_eq,
    not_not] at h
  obtain ⟨_, -, _, -, ops, -, q, hq, _, rfl, rfl⟩ := h
  exact hq

theorem fromPatch_of_compile {toLowercase : Text → Text} {v : OperationBundle} {p : Text}
    (h : v.compile toLowercase = .ok p) : fromPatch toLowercase p = .ok v := by
  obtain ⟨-, hlen, hall, rfl, hsize⟩ := assemble_ok (compile_ok.mp h)
  have hnl : ∀ l ∈ v.operations.flatMap Operation.lines, '\n' ∉ l := by
    intro l hl
    obtain ⟨op, hop, hl⟩ := List.mem_flatMap.mp hl
    exact Operation.lines_notMem (hall op hop) l hl
  have hbody : (v.patch.dropPrefix? beginPatch).bind (·.dropSuffix? endPatch) =
      some (terminate '\n' (v.operations.flatMap Operation.lines)) := by
    simp [patch, List.append_assoc]
  have hread := readOperations_lines [] [] v.operations hall (by simpa using hlen)
  simp only [List.nil_append, List.length_nil] at hread
  rw [fromPatch, decide_eq_false (Nat.not_lt.mpr hsize), rejectIf_false, bind_of_ok, hbody,
    okOr_some, lift_of_ok, bind_of_ok, splitTerminator_terminate _ _ hnl, hread, bind_of_ok, h,
    lift_of_ok, bind_of_ok]
  simp

end OperationBundle

/-- Both representations: reading back inverts compilation and accepts nothing
else, the bundle reader never indexes out of range, and the validator's verdict
on a text that passed the compiler's own checks. For a bundle it accepts; for a
single edit the end marker is appended behind the last size check, and the
validator is what rejects a text the marker takes over the limit. -/
theorem editing_round_trip (toLowercase : Text → Text) :
    (∀ (v : OperationBundle) p, v.compile toLowercase = .ok p →
      OperationBundle.fromPatch toLowercase p = .ok v) ∧
    (∀ (v : OperationBundle) p, OperationBundle.fromPatch toLowercase p = .ok v →
      v.compile toLowercase = .ok p) ∧
    (∀ p, Safe (OperationBundle.fromPatch toLowercase p)) ∧
    (∀ (v : OperationBundle) p, v.assemble toLowercase = .ok p →
      Grammar.codexPatchV1.validate p = .ok ()) ∧
    (∀ (e : ContextEdit) p, e.compile = .ok p → ContextEdit.fromPatch p = .ok e) ∧
    (∀ (e : ContextEdit) p, ContextEdit.fromPatch p = .ok e → e.compile = .ok p) ∧
    (∀ (e : ContextEdit) p, e.assemble = .ok p →
      p.len ≤ 8 * 1024 * 1024 + 13 ∧ Grammar.codexPatchV1.validate p =
        if p.len > 8 * 1024 * 1024 then .error .sizeLimit else .ok ()) := by
  refine ⟨fun v p h => OperationBundle.fromPatch_of_compile h,
    fun v p h => OperationBundle.compile_of_fromPatch h,
    OperationBundle.fromPatch_safe toLowercase,
    fun v p h => OperationBundle.validate_of_assemble h,
    fun e p h => ContextEdit.fromPatch_of_compile h,
    fun e p h => ContextEdit.compile_of_fromPatch h, fun e p h => ?_⟩
  obtain ⟨hw, rfl, hlen⟩ := ContextEdit.assemble_ok.mp h
  refine ⟨?_, ContextEdit.validate_patch hw⟩
  have hend : Text.len endPatch = 13 := by decide
  rw [ContextEdit.patch, Text.len_append, hend]
  exact Nat.add_le_add_right hlen 13

/-- A deletion and a context edit, compiled and read back. -/
theorem editing_round_trip_small :
    OperationBundle.fromPatch id "*** Begin Patch\n*** Delete File: a\n*** End Patch".toList =
        .ok ⟨[.delete ['a']]⟩ ∧
      ContextEdit.fromPatch
          "*** Begin Patch\n*** Update File: a\n@@\n-x\n*** End Patch".toList =
        .ok ⟨['a'], [], [['x']], [], []⟩ := by
  refine ⟨(editing_round_trip id).1 _ _ (OperationBundle.compile_ok.mpr (by decide)),
    (editing_round_trip id).2.2.2.2.1 _ _ (ContextEdit.compile_ok.mpr ⟨?_, by decide, by decide⟩)⟩
  exact ⟨by decide, by decide, by decide, by decide, by decide⟩

/-- The edit that deletes one line of `n` equal characters. -/
def deletionOf (c : Char) (n : Nat) : ContextEdit := ⟨['a'], [], [List.replicate n c], [], []⟩

theorem deletionOf_wellFormed {c : Char} (h : badLine [c] = false) (n : Nat) :
    (deletionOf c n).WellFormed := by
  refine ⟨show badPath ['a'] = false by decide, by simp [deletionOf], by simp [deletionOf],
    by simp [deletionOf], ?_⟩
  simp only [badLine, List.any_cons, List.any_nil, Bool.or_false, Bool.or_eq_false_iff,
    decide_eq_false_iff_not] at h
  simp [deletionOf, badLine, h]

theorem deletionOf_len (c : Char) (n : Nat) :
    Text.len (beginPatch ++ (deletionOf c n).body) = n * c.utf8Size + 40 := by
  have hb : Text.len beginPatch = 16 := by decide
  have hu : Text.len updateFile = 17 := by decide
  have ho : Text.len openMark = 4 := by decide
  have ha : 'a'.utf8Size = 1 := by decide
  have hm : '-'.utf8Size = 1 := by decide
  have hl : '\n'.utf8Size = 1 := by decide
  simp only [ContextEdit.body, ContextEdit.lines, deletionOf, List.map_nil, List.map_cons,
    List.nil_append, List.append_nil, terminate_cons, terminate_nil, Text.len_append,
    Text.len_cons, Text.len_nil, Text.len_replicate, hb, hu, ho, ha, hm, hl]
  omega

/-- Before its end marker this edit's text is exactly as long as the limit. Every
check of `ContextEdit::compile` passes on it, and the last step fails. -/
theorem deletionOf_fails_last_step :
    (deletionOf 'x' 8388568).assemble = .ok (deletionOf 'x' 8388568).patch ∧
      Grammar.codexPatchV1.validate (deletionOf 'x' 8388568).patch = .error .sizeLimit := by
  have hw : (deletionOf 'x' 8388568).WellFormed := deletionOf_wellFormed (by decide) 8388568
  have hx : 'x'.utf8Size = 1 := by decide
  have hlen := deletionOf_len 'x' 8388568
  rw [hx] at hlen
  refine ⟨ContextEdit.assemble_ok.mpr ⟨hw, rfl, hlen.le⟩, ?_⟩
  have hend : Text.len endPatch = 13 := by decide
  rw [ContextEdit.validate_patch hw, if_pos]
  rw [ContextEdit.patch, Text.len_append, hlen, hend]
  decide

end ResponseGateway.Editing
