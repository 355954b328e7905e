import ResponseGateway.Ir.Grammar

/-!
The pinned patch grammar as a language over characters, and the line shape of
its hunks: a word is a hunk exactly when it terminates the lines of one hunk.
Nothing here refers to the scanner beyond its test for a single change line.
-/

namespace ResponseGateway.Ir
open Lines Computability

namespace PatchGrammar

def lit (s : String) : Language Char := ({s.toList} : Set (List Char))

def lf : Language Char := lit "\n"

/-- A nonempty sequence of characters other than the line feed. -/
def name : Language Char := {w : List Char | w ≠ [] ∧ '\n' ∉ w}

/-- A possibly empty sequence of characters other than the line feed. -/
def text : Language Char := {w : List Char | '\n' ∉ w}

def opt (l : Language Char) : Language Char := 1 + l

def plus (l : Language Char) : Language Char := l * l∗

def added : Language Char := lit "+" * text * lf

def change : Language Char :=
  lit "@@" * lf + lit "@@ " * name * lf + (lit "+" + lit "-" + lit " ") * text * lf

def addHunk : Language Char := lit "*** Add File: " * name * lf * plus added

def deleteHunk : Language Char := lit "*** Delete File: " * name * lf

def updateHunk : Language Char :=
  lit "*** Update File: " * name * lf * opt (lit "*** Move to: " * name * lf) *
    opt (plus change * opt (lit "*** End of File" * lf))

def hunk : Language Char := addHunk + deleteHunk + updateHunk

/-- The start rule of the pinned grammar. -/
def patch : Language Char :=
  lit "*** Begin Patch" * lf * plus hunk * lit "*** End Patch" * opt lf

theorem mem_lit {s : String} {w : List Char} : w ∈ lit s ↔ w = s.toList := Iff.rfl

theorem mem_name {w : List Char} : w ∈ name ↔ w ≠ [] ∧ '\n' ∉ w := Iff.rfl

theorem mem_text {w : List Char} : w ∈ text ↔ '\n' ∉ w := Iff.rfl

/-- Words of one line that satisfies `P`, with its line feed. -/
def lineOf (P : Text → Prop) : Language Char :=
  {w : List Char | ∃ l, P l ∧ '\n' ∉ l ∧ w = l ++ ['\n']}

theorem mem_lineOf {P : Text → Prop} {w : List Char} :
    w ∈ lineOf P ↔ ∃ l, P l ∧ '\n' ∉ l ∧ w = l ++ ['\n'] := Iff.rfl

theorem mem_lineOf_kstar {P : Text → Prop} {w : List Char} :
    w ∈ (lineOf P)∗ ↔ ∃ ls : List Text, (∀ l ∈ ls, P l ∧ '\n' ∉ l) ∧ w = terminate '\n' ls := by
  rw [Language.mem_kstar]
  constructor
  · rintro ⟨ws, rfl, hws⟩
    induction ws with
    | nil => exact ⟨[], by simp, rfl⟩
    | cons w ws ih =>
        rw [List.forall_mem_cons] at hws
        obtain ⟨l, hl, hn, rfl⟩ := hws.1
        obtain ⟨ls, hls, he⟩ := ih hws.2
        refine ⟨l :: ls, List.forall_mem_cons.mpr ⟨⟨hl, hn⟩, hls⟩, ?_⟩
        simp [he]
  · rintro ⟨ls, hls, rfl⟩
    refine ⟨ls.map (· ++ ['\n']), by simp [terminate, List.flatMap_def], ?_⟩
    intro w hw
    obtain ⟨l, hl, rfl⟩ := List.mem_map.mp hw
    exact ⟨l, (hls l hl).1, (hls l hl).2, rfl⟩

theorem mem_lineOf_plus {P : Text → Prop} {w : List Char} :
    w ∈ plus (lineOf P) ↔
      ∃ ls : List Text, ls ≠ [] ∧ (∀ l ∈ ls, P l ∧ '\n' ∉ l) ∧ w = terminate '\n' ls := by
  rw [plus, Language.mem_mul]
  constructor
  · rintro ⟨a, ⟨l, hl, hn, rfl⟩, b, hb, rfl⟩
    obtain ⟨ls, hls, rfl⟩ := mem_lineOf_kstar.mp hb
    exact ⟨l :: ls, by simp, List.forall_mem_cons.mpr ⟨⟨hl, hn⟩, hls⟩, by simp⟩
  · rintro ⟨ls, hne, hls, rfl⟩
    cases ls with
    | nil => exact absurd rfl hne
    | cons l ls =>
        rw [List.forall_mem_cons] at hls
        exact ⟨l ++ ['\n'], ⟨l, hls.1.1, hls.1.2, rfl⟩, _,
          mem_lineOf_kstar.mpr ⟨ls, hls.2, rfl⟩, by simp⟩

/-- A header, a name and the line feed form one line. -/
theorem mem_header {s : String} (hs : '\n' ∉ s.toList) {w : List Char} :
    w ∈ lit s * name * lf ↔ w ∈ lineOf (fun l => ∃ n, n ≠ [] ∧ l = s.toList ++ n) := by
  simp only [Language.mem_mul, mem_lit, mem_name, mem_lineOf, lf]
  constructor
  · rintro ⟨_, ⟨_, rfl, n, ⟨hne, hn⟩, rfl⟩, _, rfl, rfl⟩
    exact ⟨s.toList ++ n, ⟨n, hne, rfl⟩, by simp [hs, hn], rfl⟩
  · rintro ⟨_, ⟨n, hne, rfl⟩, hn, rfl⟩
    simp only [List.mem_append, not_or] at hn
    exact ⟨_, ⟨_, rfl, n, ⟨hne, hn.2⟩, rfl⟩, _, rfl, rfl⟩

theorem mem_marked {s : String} {w : List Char} (hs : '\n' ∉ s.toList) :
    w ∈ lit s * text * lf ↔ w ∈ lineOf (fun l => s.toList <+: l) := by
  simp only [Language.mem_mul, mem_lit, mem_text, mem_lineOf, lf]
  constructor
  · rintro ⟨_, ⟨_, rfl, t, ht, rfl⟩, _, rfl, rfl⟩
    exact ⟨s.toList ++ t, ⟨t, rfl⟩, by simp [hs, ht], rfl⟩
  · rintro ⟨_, ⟨t, rfl⟩, hn, rfl⟩
    simp only [List.mem_append, not_or] at hn
    exact ⟨_, ⟨_, rfl, t, hn.2, rfl⟩, _, rfl, rfl⟩

theorem mem_exact {s : String} {w : List Char} (hs : '\n' ∉ s.toList) :
    w ∈ lit s * lf ↔ w ∈ lineOf (fun l => l = s.toList) := by
  simp only [Language.mem_mul, mem_lit, mem_lineOf, lf]
  constructor
  · rintro ⟨_, rfl, _, rfl, rfl⟩
    exact ⟨_, rfl, hs, rfl⟩
  · rintro ⟨_, rfl, _, rfl⟩
    exact ⟨_, rfl, _, rfl, rfl⟩

theorem head?_eq_iff_prefix {c : Char} {l : Text} : l.head? = some c ↔ [c] <+: l := by
  cases l with
  | nil => simp
  | cons d l => simp [eq_comm]

theorem hasPath_iff {header line : Text} :
    hasPath header line = true ↔ ∃ n, n ≠ [] ∧ line = header ++ n := by
  rw [hasPath]
  split
  · rename_i n hn
    obtain rfl := dropPrefix?_eq_some.mp hn
    simp
  · rename_i hn
    rw [dropPrefix?_eq_none] at hn
    simp only [Bool.false_eq_true, false_iff, not_exists, not_and]
    rintro n - rfl
    exact hn ⟨n, rfl⟩

theorem mem_added {w : List Char} : w ∈ added ↔ w ∈ lineOf (fun l => l.head? = some '+') := by
  rw [added, mem_marked (by decide)]
  simp only [mem_lineOf, head?_eq_iff_prefix]
  rfl

theorem mem_change {w : List Char} : w ∈ change ↔ w ∈ lineOf (fun l => isChange l = true) := by
  have hset : change = lineOf (fun l => l = "@@".toList) +
      lineOf (fun l => ∃ n, n ≠ [] ∧ l = "@@ ".toList ++ n) +
      (lineOf (fun l => "+".toList <+: l) + lineOf (fun l => "-".toList <+: l) +
        lineOf (fun l => " ".toList <+: l)) := by
    rw [change, add_mul, add_mul, add_mul, add_mul]
    congr 1
    · congr 1 <;> ext w
      · exact mem_exact (by decide)
      · exact mem_header (by decide)
    · congr 1
      · congr 1 <;> ext w <;> exact mem_marked (by decide)
      · ext w; exact mem_marked (by decide)
  rw [hset]
  simp only [Language.mem_add, mem_lineOf, isChange, Bool.or_eq_true, decide_eq_true_eq,
    hasPath_iff, head?_eq_iff_prefix]
  constructor
  · rintro ((⟨l, h, hn⟩ | ⟨l, h, hn⟩) | ((⟨l, h, hn⟩ | ⟨l, h, hn⟩) | ⟨l, h, hn⟩))
    · exact ⟨l, .inl (.inl (.inl (.inl h))), hn⟩
    · exact ⟨l, .inl (.inl (.inl (.inr h))), hn⟩
    · exact ⟨l, .inl (.inl (.inr h)), hn⟩
    · exact ⟨l, .inl (.inr h), hn⟩
    · exact ⟨l, .inr h, hn⟩
  · rintro ⟨l, (((h | h) | h) | h) | h, hn⟩
    · exact .inl (.inl ⟨l, h, hn⟩)
    · exact .inl (.inr ⟨l, h, hn⟩)
    · exact .inr (.inl (.inl ⟨l, h, hn⟩))
    · exact .inr (.inl (.inr ⟨l, h, hn⟩))
    · exact .inr (.inr ⟨l, h, hn⟩)

/-- The lines of one hunk, as the scanner consumes them. -/
inductive HunkLines : List Text → Prop where
  | add (n : Text) (ls : List Text) (hn : n ≠ []) (hne : ls ≠ [])
      (hls : ∀ l ∈ ls, l.head? = some '+') : HunkLines ((addFile ++ n) :: ls)
  | delete (n : Text) (hn : n ≠ []) : HunkLines [deleteFile ++ n]
  | update (n : Text) (mv cs eof : List Text) (hn : n ≠ [])
      (hmv : mv = [] ∨ ∃ m, m ≠ [] ∧ mv = [moveTo ++ m])
      (hcs : ∀ l ∈ cs, isChange l = true)
      (heof : eof = [] ∨ cs ≠ [] ∧ eof = [endOfFile]) :
      HunkLines ((updateFile ++ n) :: (mv ++ (cs ++ eof)))

theorem added_eq : added = lineOf (fun l => l.head? = some '+') := by
  ext w; exact mem_added

theorem change_eq : change = lineOf (fun l => isChange l = true) := by
  ext w; exact mem_change

theorem header_eq {s : String} (hs : '\n' ∉ s.toList) :
    lit s * name * lf = lineOf (fun l => ∃ n, n ≠ [] ∧ l = s.toList ++ n) := by
  ext w; exact mem_header hs

theorem exact_eq {s : String} (hs : '\n' ∉ s.toList) :
    lit s * lf = lineOf (fun l => l = s.toList) := by
  ext w; exact mem_exact hs

theorem addHeader_eq : lit "*** Add File: " * name * lf =
    lineOf (fun l => ∃ n, n ≠ [] ∧ l = addFile ++ n) := header_eq (by decide)

theorem deleteHeader_eq : lit "*** Delete File: " * name * lf =
    lineOf (fun l => ∃ n, n ≠ [] ∧ l = deleteFile ++ n) := header_eq (by decide)

theorem updateHeader_eq : lit "*** Update File: " * name * lf =
    lineOf (fun l => ∃ n, n ≠ [] ∧ l = updateFile ++ n) := header_eq (by decide)

theorem moveHeader_eq : lit "*** Move to: " * name * lf =
    lineOf (fun l => ∃ n, n ≠ [] ∧ l = moveTo ++ n) := header_eq (by decide)

theorem endMark_eq : lit "*** End of File" * lf = lineOf (fun l => l = endOfFile) :=
  exact_eq (by decide)

theorem mem_opt {l : Language Char} {w : List Char} : w ∈ opt l ↔ w = [] ∨ w ∈ l := by
  rw [opt, Language.mem_add, Language.mem_one]

theorem mem_addHunk {w : List Char} :
    w ∈ addHunk ↔ ∃ n ls, n ≠ [] ∧ ls ≠ [] ∧ (∀ l ∈ ls, l.head? = some '+') ∧
      (∀ l ∈ (addFile ++ n) :: ls, '\n' ∉ l) ∧ w = terminate '\n' ((addFile ++ n) :: ls) := by
  rw [addHunk, addHeader_eq, added_eq, Language.mem_mul]
  constructor
  · rintro ⟨_, ⟨_, ⟨n, hn, rfl⟩, hnl, rfl⟩, _, hb, rfl⟩
    obtain ⟨ls, hne, hls, rfl⟩ := mem_lineOf_plus.mp hb
    refine ⟨n, ls, hn, hne, fun l hl => (hls l hl).1, ?_, by simp⟩
    exact List.forall_mem_cons.mpr ⟨hnl, fun l hl => (hls l hl).2⟩
  · rintro ⟨n, ls, hn, hne, hls, hnl, rfl⟩
    rw [List.forall_mem_cons] at hnl
    exact ⟨_, ⟨_, ⟨n, hn, rfl⟩, hnl.1, rfl⟩, _,
      mem_lineOf_plus.mpr ⟨ls, hne, fun l hl => ⟨hls l hl, hnl.2 l hl⟩, rfl⟩, by simp⟩

/-- The optional move line of an update. -/
theorem mem_moveLine {w : List Char} :
    w ∈ opt (lit "*** Move to: " * name * lf) ↔
      ∃ mv : List Text, (mv = [] ∨ ∃ m, m ≠ [] ∧ mv = [moveTo ++ m]) ∧
        (∀ l ∈ mv, '\n' ∉ l) ∧ w = terminate '\n' mv := by
  rw [mem_opt, moveHeader_eq]
  constructor
  · rintro (rfl | ⟨_, ⟨m, hm, rfl⟩, hnl, rfl⟩)
    · exact ⟨[], .inl rfl, by simp, rfl⟩
    · exact ⟨[moveTo ++ m], .inr ⟨m, hm, rfl⟩, by simpa using hnl, by simp⟩
  · rintro ⟨_, rfl | ⟨m, hm, rfl⟩, hnl, rfl⟩
    · exact .inl rfl
    · exact .inr ⟨moveTo ++ m, ⟨m, hm, rfl⟩, hnl _ (by simp), by simp⟩

/-- The optional change block of an update, with its optional end mark. -/
theorem mem_changeBlock {w : List Char} :
    w ∈ opt (plus change * opt (lit "*** End of File" * lf)) ↔
      ∃ cs eof : List Text, (∀ l ∈ cs, isChange l = true) ∧
        (eof = [] ∨ cs ≠ [] ∧ eof = [endOfFile]) ∧
        (∀ l ∈ cs ++ eof, '\n' ∉ l) ∧ w = terminate '\n' (cs ++ eof) := by
  rw [mem_opt, Language.mem_mul, change_eq, endMark_eq]
  constructor
  · rintro (rfl | ⟨_, ha, _, hb, rfl⟩)
    · exact ⟨[], [], by simp, .inl rfl, by simp, rfl⟩
    · obtain ⟨cs, hne, hcs, rfl⟩ := mem_lineOf_plus.mp ha
      have hnl : ∀ l ∈ cs, '\n' ∉ l := fun l hl => (hcs l hl).2
      rcases mem_opt.mp hb with rfl | ⟨_, rfl, he, rfl⟩
      · exact ⟨cs, [], fun l hl => (hcs l hl).1, .inl rfl, by simpa using hnl, by simp⟩
      · refine ⟨cs, [endOfFile], fun l hl => (hcs l hl).1, .inr ⟨hne, rfl⟩, ?_,
          by simp⟩
        simp only [List.mem_append, List.mem_singleton]
        rintro l (hl | rfl)
        · exact hnl l hl
        · exact he
  · rintro ⟨cs, eof, hcs, heof, hnl, rfl⟩
    rw [List.forall_mem_append] at hnl
    have hline : ∀ l ∈ cs, isChange l = true ∧ '\n' ∉ l := fun l hl => ⟨hcs l hl, hnl.1 l hl⟩
    rcases heof with rfl | ⟨hne, rfl⟩
    · cases hcs' : cs with
      | nil => exact .inl rfl
      | cons c ds =>
          refine .inr ⟨_, mem_lineOf_plus.mpr ⟨cs, by simp [hcs'], hline, rfl⟩, [],
            mem_opt.mpr (.inl rfl), by simp [hcs']⟩
    · refine .inr ⟨_, mem_lineOf_plus.mpr ⟨cs, hne, hline, rfl⟩, endOfFile ++ ['\n'],
        mem_opt.mpr (.inr ⟨_, rfl, by decide, rfl⟩), by simp⟩

theorem mem_updateHunk {w : List Char} :
    w ∈ updateHunk ↔ ∃ n mv cs eof, n ≠ [] ∧ (mv = [] ∨ ∃ m, m ≠ [] ∧ mv = [moveTo ++ m]) ∧
      (∀ l ∈ cs, isChange l = true) ∧ (eof = [] ∨ cs ≠ [] ∧ eof = [endOfFile]) ∧
      (∀ l ∈ (updateFile ++ n) :: (mv ++ (cs ++ eof)), '\n' ∉ l) ∧
      w = terminate '\n' ((updateFile ++ n) :: (mv ++ (cs ++ eof))) := by
  rw [updateHunk, updateHeader_eq, Language.mem_mul]
  simp only [Language.mem_mul (l := lineOf _)]
  constructor
  · rintro ⟨_, ⟨_, ⟨_, ⟨n, hn, rfl⟩, hnl, rfl⟩, _, hm, rfl⟩, _, hc, rfl⟩
    obtain ⟨mv, hmv, hmn, rfl⟩ := mem_moveLine.mp hm
    obtain ⟨cs, eof, hcs, heof, hcn, rfl⟩ := mem_changeBlock.mp hc
    refine ⟨n, mv, cs, eof, hn, hmv, hcs, heof, ?_, by simp⟩
    exact List.forall_mem_cons.mpr ⟨hnl, List.forall_mem_append.mpr ⟨hmn, hcn⟩⟩
  · rintro ⟨n, mv, cs, eof, hn, hmv, hcs, heof, hnl, rfl⟩
    rw [List.forall_mem_cons, List.forall_mem_append] at hnl
    exact ⟨_, ⟨_, ⟨_, ⟨n, hn, rfl⟩, hnl.1, rfl⟩, _, mem_moveLine.mpr ⟨mv, hmv, hnl.2.1, rfl⟩,
      rfl⟩, _, mem_changeBlock.mpr ⟨cs, eof, hcs, heof, hnl.2.2, rfl⟩, by simp⟩

/-- A word is a hunk exactly when it terminates the lines of a hunk. -/
theorem mem_hunk {w : List Char} :
    w ∈ hunk ↔ ∃ ls, HunkLines ls ∧ (∀ l ∈ ls, '\n' ∉ l) ∧ w = terminate '\n' ls := by
  rw [hunk, Language.mem_add, Language.mem_add, mem_addHunk, mem_updateHunk, deleteHunk,
    deleteHeader_eq]
  constructor
  · rintro ((⟨n, ls, hn, hne, hls, hnl, rfl⟩ | ⟨_, ⟨n, hn, rfl⟩, hnl, rfl⟩) |
      ⟨n, mv, cs, eof, hn, hmv, hcs, heof, hnl, rfl⟩)
    · exact ⟨_, .add n ls hn hne hls, hnl, rfl⟩
    · exact ⟨_, .delete n hn, by simpa using hnl, by simp⟩
    · exact ⟨_, .update n mv cs eof hn hmv hcs heof, hnl, rfl⟩
  · rintro ⟨_, h, hnl, rfl⟩
    cases h with
    | add n ls hn hne hls => exact .inl (.inl ⟨n, ls, hn, hne, hls, hnl, rfl⟩)
    | delete n hn => exact .inl (.inr ⟨_, ⟨n, hn, rfl⟩, hnl _ (by simp), by simp⟩)
    | update n mv cs eof hn hmv hcs heof => exact .inr ⟨n, mv, cs, eof, hn, hmv, hcs, heof, hnl, rfl⟩

end PatchGrammar
end ResponseGateway.Ir
