import ResponseGateway.Ir.GrammarLanguage

/-!
The scanner of `Grammar::validate` recognises exactly the pinned patch grammar.
The greedy loops stop where the next hunk's header line begins, because no
header is an added line, a change line, a move line or an end mark. That makes
the decomposition into hunks found by the scanner the only one.
-/

namespace ResponseGateway.Ir
open Lines Computability

namespace PatchGrammar

/-- What may follow a complete hunk: nothing, or a line that continues no hunk. -/
def Boundary (rest : List Text) : Prop :=
  ∀ l, rest.head? = some l →
    l.head? ≠ some '+' ∧ isChange l = false ∧ hasPath moveTo l = false ∧ l ≠ endOfFile

theorem boundary_nil : Boundary [] := by
  intro l h; cases h

theorem hunkLines_boundary {h : List Text} (hh : HunkLines h) (rest : List Text) :
    Boundary (h ++ rest) := by
  intro l hl
  cases hh with
  | add n ls hn hne hls =>
      obtain rfl : addFile ++ n = l := by simpa using hl
      exact ⟨fun h => absurd (show some '*' = some '+' from h) (by decide), rfl, rfl,
        fun h => absurd (show some 'A' = some 'E' from congrArg (·[4]?) h) (by decide)⟩
  | delete n hn =>
      obtain rfl : deleteFile ++ n = l := by simpa using hl
      exact ⟨fun h => absurd (show some '*' = some '+' from h) (by decide), rfl, rfl,
        fun h => absurd (show some 'D' = some 'E' from congrArg (·[4]?) h) (by decide)⟩
  | update n mv cs eof hn hmv hcs heof =>
      obtain rfl : updateFile ++ n = l := by simpa using hl
      exact ⟨fun h => absurd (show some '*' = some '+' from h) (by decide), rfl, rfl,
        fun h => absurd (show some 'U' = some 'E' from congrArg (·[4]?) h) (by decide)⟩

theorem takeAdded_append (ls rest : List Text) (count : Nat)
    (hls : ∀ l ∈ ls, l.head? = some '+') (hrest : Boundary rest) :
    takeAdded count (ls ++ rest) = (count + ls.length, rest) := by
  induction ls generalizing count with
  | nil =>
      cases rest with
      | nil => rfl
      | cons l rest =>
          rw [List.nil_append, takeAdded, if_neg (hrest l rfl).1]
          rfl
  | cons l ls ih =>
      rw [List.forall_mem_cons] at hls
      rw [List.cons_append, takeAdded, if_pos hls.1, ih (count + 1) hls.2, List.length_cons]
      congr 1
      omega

theorem takeAdded_spec (lines : List Text) (count : Nat) :
    ∃ ls, lines = ls ++ (takeAdded count lines).2 ∧ (∀ l ∈ ls, l.head? = some '+') ∧
      (takeAdded count lines).1 = count + ls.length := by
  induction lines generalizing count with
  | nil => exact ⟨[], rfl, by simp, rfl⟩
  | cons l lines ih =>
      rw [takeAdded]
      split
      · rename_i hl
        obtain ⟨ls, he, hls, hc⟩ := ih (count + 1)
        refine ⟨l :: ls, by rw [List.cons_append, ← he], List.forall_mem_cons.mpr ⟨hl, hls⟩, ?_⟩
        rw [hc, List.length_cons]
        omega
      · exact ⟨[], rfl, by simp, rfl⟩

theorem takeChanges_append (cs rest : List Text) (changed : Bool)
    (hcs : ∀ l ∈ cs, isChange l = true)
    (hrest : ∀ l, rest.head? = some l → isChange l = false) :
    takeChanges changed (cs ++ rest) = (changed || !cs.isEmpty, rest) := by
  induction cs generalizing changed with
  | nil =>
      cases rest with
      | nil => simp [takeChanges]
      | cons l rest => simp [takeChanges, hrest l rfl]
  | cons c cs ih =>
      rw [List.forall_mem_cons] at hcs
      rw [List.cons_append, takeChanges, if_pos hcs.1, ih true hcs.2]
      simp

theorem takeChanges_spec (lines : List Text) (changed : Bool) :
    ∃ cs, lines = cs ++ (takeChanges changed lines).2 ∧ (∀ l ∈ cs, isChange l = true) ∧
      (takeChanges changed lines).1 = (changed || !cs.isEmpty) := by
  induction lines generalizing changed with
  | nil => exact ⟨[], rfl, by simp, by simp [takeChanges]⟩
  | cons l lines ih =>
      rw [takeChanges]
      split
      · rename_i hl
        obtain ⟨cs, he, hcs, hc⟩ := ih true
        exact ⟨l :: cs, by rw [List.cons_append, ← he], List.forall_mem_cons.mpr ⟨hl, hcs⟩,
          by simpa using hc⟩
      · exact ⟨[], rfl, by simp, by simp⟩

theorem skipMove_spec (lines : List Text) :
    ∃ mv, (mv = [] ∨ ∃ m, m ≠ [] ∧ mv = [moveTo ++ m]) ∧ lines = mv ++ skipMove lines := by
  cases lines with
  | nil => exact ⟨[], .inl rfl, rfl⟩
  | cons l lines =>
      rw [skipMove]
      split
      · rename_i hl
        obtain ⟨m, hm, rfl⟩ := hasPath_iff.mp hl
        exact ⟨[moveTo ++ m], .inr ⟨m, hm, rfl⟩, rfl⟩
      · exact ⟨[], .inl rfl, rfl⟩

theorem skipMove_append {mv rest : List Text}
    (hmv : mv = [] ∨ ∃ m, m ≠ [] ∧ mv = [moveTo ++ m])
    (hrest : ∀ l, rest.head? = some l → hasPath moveTo l = false) :
    skipMove (mv ++ rest) = rest := by
  rcases hmv with rfl | ⟨m, hm, rfl⟩
  · cases rest with
    | nil => rfl
    | cons l rest => simp [skipMove, hrest l rfl]
  · have h : hasPath moveTo (moveTo ++ m) = true := hasPath_iff.mpr ⟨m, hm, rfl⟩
    simp [skipMove, h]

theorem isChange_not_move {l : Text} (h : isChange l = true) : hasPath moveTo l = false := by
  rw [Bool.eq_false_iff]
  intro hm
  obtain ⟨m, -, rfl⟩ := hasPath_iff.mp hm
  exact absurd h (by rw [show isChange (moveTo ++ m) = false from rfl]; decide)

theorem endOfFile_boundary : isChange endOfFile = false ∧ hasPath moveTo endOfFile = false :=
  ⟨by decide, by decide⟩

/-- Consuming a complete hunk leaves exactly what follows it. -/
theorem scanHunks_append {h : List Text} (hh : HunkLines h) (rest : List Text)
    (hrest : Boundary rest) (k : Nat) : scanHunks k (h ++ rest) = scanHunks (k + 1) rest := by
  cases hh with
  | add n ls hn hne hls =>
      have hp : hasPath addFile (addFile ++ n) = true := hasPath_iff.mpr ⟨n, hn, rfl⟩
      rw [List.cons_append, scanHunks, if_pos hp, takeAdded_append ls rest 0 hls hrest]
      simp [hne]
  | delete n hn =>
      have hp : hasPath deleteFile (deleteFile ++ n) = true := hasPath_iff.mpr ⟨n, hn, rfl⟩
      rw [List.cons_append, List.nil_append, scanHunks,
        show hasPath addFile (deleteFile ++ n) = false from rfl, if_neg (by decide), if_pos hp]
  | update n mv cs eof hn hmv hcs heof =>
      have hp : hasPath updateFile (updateFile ++ n) = true := hasPath_iff.mpr ⟨n, hn, rfl⟩
      -- The tail behind the change lines: the end mark if present, then what follows.
      have htail : ∀ l, (eof ++ rest).head? = some l →
          isChange l = false ∧ hasPath moveTo l = false := by
        intro l hl
        rcases heof with rfl | ⟨-, rfl⟩
        · exact ⟨(hrest l hl).2.1, (hrest l hl).2.2.1⟩
        · simp only [List.cons_append, List.head?_cons, Option.some.injEq] at hl
          subst hl
          exact endOfFile_boundary
      have hmove : ∀ l, (cs ++ (eof ++ rest)).head? = some l → hasPath moveTo l = false := by
        intro l hl
        cases cs with
        | nil => exact (htail l hl).2
        | cons c cs =>
            simp only [List.cons_append, List.head?_cons, Option.some.injEq] at hl
            subst hl
            exact isChange_not_move (hcs c (by simp))
      have hskip : skipMove (mv ++ (cs ++ (eof ++ rest))) = cs ++ (eof ++ rest) :=
        skipMove_append hmv hmove
      have htake := takeChanges_append cs (eof ++ rest) false hcs (fun l hl => (htail l hl).1)
      rw [List.cons_append, scanHunks, show hasPath addFile (updateFile ++ n) = false from rfl,
        show hasPath deleteFile (updateFile ++ n) = false from rfl, if_neg (by decide),
        if_neg (by decide), if_pos hp]
      simp only [List.append_assoc, hskip, htake]
      rcases heof with rfl | ⟨hne, rfl⟩
      · rw [List.nil_append, if_neg]
        intro hl
        exact (hrest _ hl).2.2.2 rfl
      · simp [hne]

theorem scanHunks_flatten (hs : List (List Text)) (hhs : ∀ h ∈ hs, HunkLines h) (k : Nat) :
    scanHunks k hs.flatten = .ok (k + hs.length) := by
  induction hs generalizing k with
  | nil => simp [scanHunks]
  | cons h hs ih =>
      rw [List.forall_mem_cons] at hhs
      have hb : Boundary hs.flatten := by
        cases hs with
        | nil => exact boundary_nil
        | cons g gs => exact hunkLines_boundary (hhs.2 g (by simp)) gs.flatten
      rw [List.flatten_cons, scanHunks_append hhs.1 _ hb, ih hhs.2, List.length_cons]
      congr 1
      omega

/-- Whatever the scanner accepts is a sequence of hunks, as many as it counted. -/
theorem scanHunks_sound (k : Nat) (lines : List Text) (m : Nat) (h : scanHunks k lines = .ok m) :
    ∃ hs : List (List Text), (∀ g ∈ hs, HunkLines g) ∧ lines = hs.flatten ∧ m = k + hs.length := by
  induction k, lines using scanHunks.induct with
  | case1 k =>
      rw [scanHunks] at h
      exact ⟨[], by simp, rfl, by simpa using h.symm⟩
  | case2 k l lines hadd hzero => rw [scanHunks, if_pos hadd, if_pos hzero] at h; cases h
  | case3 k l lines hadd hpos ih =>
      rw [scanHunks, if_pos hadd, if_neg hpos] at h
      obtain ⟨hs, hhs, he, hm⟩ := ih h
      obtain ⟨n, hn, rfl⟩ := hasPath_iff.mp hadd
      obtain ⟨ls, hls, hplus, hcount⟩ := takeAdded_spec lines 0
      have hne : ls ≠ [] := by rintro rfl; simp at hcount; exact hpos hcount
      refine ⟨((addFile ++ n) :: ls) :: hs,
        List.forall_mem_cons.mpr ⟨.add n ls hn hne hplus, hhs⟩, ?_, by simp; omega⟩
      rw [List.flatten_cons, List.cons_append, ← he, ← hls]
  | case4 k l lines hadd hdel ih =>
      rw [scanHunks, if_neg hadd, if_pos hdel] at h
      obtain ⟨hs, hhs, he, hm⟩ := ih h
      obtain ⟨n, hn, rfl⟩ := hasPath_iff.mp hdel
      exact ⟨[deleteFile ++ n] :: hs, List.forall_mem_cons.mpr ⟨.delete n hn, hhs⟩,
        by simp [he], by simp; omega⟩
  | case5 k l lines hadd hdel hupd changes heof hchanged ih =>
      rw [scanHunks, if_neg hadd, if_neg hdel, if_pos hupd] at h
      simp only [changes] at heof hchanged ih
      simp only [heof, if_true, hchanged] at h
      obtain ⟨hs, hhs, he, hm⟩ := ih h
      obtain ⟨n, hn, rfl⟩ := hasPath_iff.mp hupd
      obtain ⟨mv, hmv, hskip⟩ := skipMove_spec lines
      obtain ⟨cs, hcs, hall, hflag⟩ := takeChanges_spec (skipMove lines) false
      have hne : cs ≠ [] := by rintro rfl; simp [hchanged] at hflag
      have hrest : (takeChanges false (skipMove lines)).2 = [endOfFile] ++ hs.flatten := by
        obtain ⟨tl, htl⟩ := List.head?_eq_some_iff.mp heof
        rw [htl] at he ⊢
        simp [← he]
      refine ⟨((updateFile ++ n) :: (mv ++ (cs ++ [endOfFile]))) :: hs,
        List.forall_mem_cons.mpr ⟨.update n mv cs _ hn hmv hall (.inr ⟨hne, rfl⟩), hhs⟩, ?_,
        by simp; omega⟩
      rw [hskip, hcs, hrest]
      simp
  | case6 k l lines hadd hdel hupd changes heof hchanged =>
      rw [scanHunks, if_neg hadd, if_neg hdel, if_pos hupd] at h
      simp only [changes] at heof hchanged
      simp [heof, hchanged] at h
  | case7 k l lines hadd hdel hupd changes heof ih =>
      rw [scanHunks, if_neg hadd, if_neg hdel, if_pos hupd] at h
      simp only [changes] at heof ih
      simp only [heof, if_false] at h
      obtain ⟨hs, hhs, he, hm⟩ := ih h
      obtain ⟨n, hn, rfl⟩ := hasPath_iff.mp hupd
      obtain ⟨mv, hmv, hskip⟩ := skipMove_spec lines
      obtain ⟨cs, hcs, hall, -⟩ := takeChanges_spec (skipMove lines) false
      refine ⟨((updateFile ++ n) :: (mv ++ (cs ++ []))) :: hs,
        List.forall_mem_cons.mpr ⟨.update n mv cs [] hn hmv hall (.inl rfl), hhs⟩, ?_,
        by simp; omega⟩
      rw [hskip, hcs, he]
      simp
  | case8 k l lines hadd hdel hupd =>
      rw [scanHunks, if_neg hadd, if_neg hdel, if_neg hupd] at h
      cases h

theorem mem_hunks {w : List Char} :
    w ∈ plus hunk ↔ ∃ hs : List (List Text), hs ≠ [] ∧ (∀ h ∈ hs, HunkLines h) ∧
      (∀ l ∈ hs.flatten, '\n' ∉ l) ∧ w = terminate '\n' hs.flatten := by
  have hstar : ∀ w, w ∈ hunk∗ ↔ ∃ hs : List (List Text), (∀ h ∈ hs, HunkLines h) ∧
      (∀ l ∈ hs.flatten, '\n' ∉ l) ∧ w = terminate '\n' hs.flatten := by
    intro w
    rw [Language.mem_kstar]
    constructor
    · rintro ⟨ws, rfl, hws⟩
      induction ws with
      | nil => exact ⟨[], by simp, by simp, rfl⟩
      | cons w ws ih =>
          rw [List.forall_mem_cons] at hws
          obtain ⟨ls, hls, hnl, rfl⟩ := mem_hunk.mp hws.1
          obtain ⟨hs, hhs, hfl, he⟩ := ih hws.2
          refine ⟨ls :: hs, List.forall_mem_cons.mpr ⟨hls, hhs⟩, ?_, by simp [he]⟩
          exact List.forall_mem_append.mpr ⟨hnl, hfl⟩
    · rintro ⟨hs, hhs, hnl, rfl⟩
      refine ⟨hs.map (terminate '\n'), ?_, ?_⟩
      · induction hs with
        | nil => rfl
        | cons h hs ih =>
            rw [List.forall_mem_cons] at hhs
            rw [List.flatten_cons, List.forall_mem_append] at hnl
            simp [ih hhs.2 hnl.2]
      · intro y hy
        obtain ⟨h, hh, rfl⟩ := List.mem_map.mp hy
        exact mem_hunk.mpr ⟨h, hhs h hh,
          fun l hl => hnl l (List.mem_flatten.mpr ⟨h, hh, hl⟩), rfl⟩
  rw [plus, Language.mem_mul]
  constructor
  · rintro ⟨a, ha, b, hb, rfl⟩
    obtain ⟨ls, hls, hnl, rfl⟩ := mem_hunk.mp ha
    obtain ⟨hs, hhs, hfl, rfl⟩ := (hstar b).mp hb
    exact ⟨ls :: hs, by simp, List.forall_mem_cons.mpr ⟨hls, hhs⟩,
      List.forall_mem_append.mpr ⟨hnl, hfl⟩, by simp⟩
  · rintro ⟨hs, hne, hhs, hnl, rfl⟩
    cases hs with
    | nil => exact absurd rfl hne
    | cons h hs =>
        rw [List.forall_mem_cons] at hhs
        rw [List.flatten_cons, List.forall_mem_append] at hnl
        exact ⟨_, mem_hunk.mpr ⟨h, hhs.1, hnl.1, rfl⟩, _,
          (hstar _).mpr ⟨hs, hhs.2, hnl.2, rfl⟩, by simp⟩

theorem mem_patch {w : List Char} :
    w ∈ patch ↔ ∃ body fin, body ∈ plus hunk ∧ (fin = [] ∨ fin = ['\n']) ∧
      w = beginPatch ++ body ++ endPatch ++ fin := by
  have hbegin : lit "*** Begin Patch" * lf = lit "*** Begin Patch\n" := by
    ext v
    rw [Language.mem_mul]
    constructor
    · rintro ⟨_, rfl, _, rfl, rfl⟩
      rfl
    · rintro rfl
      exact ⟨_, rfl, _, rfl, rfl⟩
  rw [patch, hbegin]
  simp only [Language.mem_mul, mem_opt]
  constructor
  · rintro ⟨_, ⟨_, ⟨_, rfl, body, hb, rfl⟩, _, rfl, rfl⟩, fin, hf, rfl⟩
    exact ⟨body, fin, hb, hf, rfl⟩
  · rintro ⟨body, fin, hb, hf, rfl⟩
    exact ⟨_, ⟨_, ⟨_, rfl, body, hb, rfl⟩, _, rfl, rfl⟩, fin, hf, rfl⟩

/-- The body between the markers is accepted exactly when it is a sequence of hunks. -/
theorem scan_body {body : Text} :
    (body.getLast? = some '\n' ∧
      ∃ k, scanHunks 0 (splitTerminator '\n' body) = .ok k ∧ k ≠ 0) ↔ body ∈ plus hunk := by
  rw [mem_hunks]
  constructor
  · rintro ⟨hlast, k, hk, hpos⟩
    obtain ⟨hs, hhs, he, rfl⟩ := scanHunks_sound 0 _ k hk
    refine ⟨hs, ?_, hhs, ?_, ?_⟩
    · rintro rfl
      exact hpos rfl
    · rw [← he]
      exact splitTerminator_notMem _ _
    · rw [← he, terminate_splitTerminator _ _ (.inr hlast)]
  · rintro ⟨hs, hne, hhs, hnl, rfl⟩
    refine ⟨?_, hs.length, ?_, by simpa using hne⟩
    · cases hs with
      | nil => exact absurd rfl hne
      | cons h hs =>
          have hf : (h :: hs).flatten ≠ [] := by
            cases hhs h (by simp) <;> simp
          rw [terminate, List.flatMap_def, ← List.dropLast_append_getLast hf]
          simp
    · rw [splitTerminator_terminate _ _ hnl]
      simpa using scanHunks_flatten hs hhs 0

theorem stripFinal_lf (t : Text) :
    ((t ++ ['\n']).dropSuffix? ['\n']).getD (t ++ ['\n']) = t := by
  simp

theorem stripFinal_other {t : Text} (h : t.getLast? ≠ some '\n') :
    (t.dropSuffix? ['\n']).getD t = t := by
  cases ht : t.dropSuffix? ['\n'] with
  | none => rfl
  | some s =>
      rw [dropSuffix?_eq_some] at ht
      exact absurd (by simp [ht]) h

theorem validatePatch_stripped {t : Text} (text : Text)
    (h : (text.dropSuffix? ['\n']).getD text = t) :
    validatePatch text = .ok () ↔
      ∃ body, t = beginPatch ++ body ++ endPatch ∧ body ∈ plus hunk := by
  simp only [← scan_body, validatePatch, h]
  cases hb : (t.dropPrefix? beginPatch).bind (·.dropSuffix? endPatch) with
  | none =>
      simp only [reduceCtorEq, false_iff, not_exists, not_and]
      rintro body rfl
      simp [List.append_assoc] at hb
  | some body =>
      obtain ⟨rest, hr, hs⟩ := Option.bind_eq_some_iff.mp hb
      obtain rfl := dropPrefix?_eq_some.mp hr
      obtain rfl := dropSuffix?_eq_some.mp hs
      have huniq : ∀ b : Text, beginPatch ++ (body ++ endPatch) = beginPatch ++ b ++ endPatch ↔
          b = body := by
        intro b
        rw [List.append_assoc, List.append_cancel_left_eq, List.append_cancel_right_eq, eq_comm]
      simp only [huniq, exists_eq_left]
      cases hk : scanHunks 0 (splitTerminator '\n' body) with
      | error e => by_cases hlast : body.getLast? = some '\n' <;> simp [hlast]
      | ok k => by_cases hlast : body.getLast? = some '\n' <;> simp [hlast]

theorem endPatch_getLast (t : Text) : (t ++ endPatch).getLast? ≠ some '\n' := by
  rw [List.getLast?_append, show endPatch.getLast? = some 'h' by decide]
  simp

/-- The scanner accepts exactly the words of the grammar. -/
theorem validatePatch_iff (text : Text) : validatePatch text = .ok () ↔ text ∈ patch := by
  rw [mem_patch]
  constructor
  · intro h
    obtain ⟨body, hb, hm⟩ := (validatePatch_stripped text rfl).mp h
    cases hs : text.dropSuffix? ['\n'] with
    | none =>
        rw [hs] at hb
        exact ⟨body, [], hm, .inl rfl, by simpa using hb⟩
    | some t =>
        rw [hs] at hb
        obtain rfl := dropSuffix?_eq_some.mp hs
        obtain rfl : t = beginPatch ++ body ++ endPatch := hb
        exact ⟨body, ['\n'], hm, .inr rfl, rfl⟩
  · rintro ⟨body, fin, hm, rfl | rfl, rfl⟩
    · rw [List.append_nil]
      exact (validatePatch_stripped _ (stripFinal_other (endPatch_getLast _))).mpr ⟨body, rfl, hm⟩
    · exact (validatePatch_stripped _ (stripFinal_lf _)).mpr ⟨body, rfl, hm⟩

end PatchGrammar

/-- Within the size limit the validator accepts exactly the pinned grammar. -/
theorem codexPatch_validate_iff (s : Text) (h : s.len ≤ 8 * 1024 * 1024) :
    Grammar.codexPatchV1.validate s = .ok () ↔ s ∈ PatchGrammar.patch := by
  rw [Grammar.validate, if_neg (show ¬ s.len > maxText from Nat.not_lt.mpr h)]
  exact PatchGrammar.validatePatch_iff s

/-- A patch with a marker-like content line and no final line feed is in the language. -/
theorem codexPatch_validate_iff_marker :
    Text.len "*** Begin Patch\n*** Add File: a\n+*** End Patch\n*** End Patch".toList
        ≤ 8 * 1024 * 1024 ∧
      (Grammar.codexPatchV1.validate
          "*** Begin Patch\n*** Add File: a\n+*** End Patch\n*** End Patch".toList = .ok () ↔
        "*** Begin Patch\n*** Add File: a\n+*** End Patch\n*** End Patch".toList ∈
          PatchGrammar.patch) :=
  ⟨by decide, codexPatch_validate_iff _ (by decide)⟩

end ResponseGateway.Ir
