import ResponseGateway.Adapters.Json
import ResponseGateway.Ir.EventReduction

/-!
`adapters::json::event_text_chunks` as the iterator it is: each call walks back from the limit
to a character boundary and splits there. `eventTextChunks` is what its calls yield, and every
chunk passes the limits of the reducer when the whole text passes the limit of arguments.
-/

namespace ResponseGateway.Adapters
open Checked Ir Method

/-- `str::is_char_boundary`. -/
def isCharBoundary (text : Text) (index : Nat) : Bool :=
  String.Pos.Raw.isValid (String.ofList text) ⟨index⟩

/-- `while !text.is_char_boundary(end) { end -= 1; }`; below zero the subtraction panics. -/
def charBoundary (text : Text) : Nat → Except (Fault Empty) Nat
  | 0 => if isCharBoundary text 0 then .ok 0 else .error .panic
  | index + 1 => if isCharBoundary text (index + 1) then .ok (index + 1) else charBoundary text index

/-- `str::split_at`, which panics inside a character. -/
def splitAt : Text → Nat → Except (Fault Empty) (Text × Text)
  | text, 0 => .ok ([], text)
  | [], _ + 1 => .error .panic
  | c :: rest, index + 1 =>
      if c.utf8Size ≤ index + 1 then do
        let (chunk, rest) ← splitAt rest (index + 1 - c.utf8Size)
        return (c :: chunk, rest)
      else .error .panic

/-- One call of the iterator: nothing at the end, else a chunk and the remaining text. -/
def nextChunk (text : Text) : Except (Fault Empty) (Option (Text × Text)) :=
  if text = [] then .ok none
  else do
    let index ← charBoundary text (min (text.len) maxDeltaBytes)
    let (chunk, rest) ← splitAt text index
    return some (chunk, rest)

/-- The calls of the iterator up to the one that ends it. -/
inductive Yields : Text → List Text → Prop
  | done {text : Text} : nextChunk text = .ok none → Yields text []
  | more {text chunk rest : Text} {chunks : List Text} :
      nextChunk text = .ok (some (chunk, rest)) → Yields rest chunks → Yields text (chunk :: chunks)

section Boundaries

theorem len_eq_zero {text : Text} : text.len = 0 ↔ text = [] := by
  cases text with
  | nil => simp
  | cons c text =>
      have hpos := c.utf8Size_pos
      simp only [Text.len_cons, reduceCtorEq, iff_false]
      omega

/-- A boundary lies behind a part of the characters. -/
theorem isCharBoundary_iff {text : Text} {index : Nat} :
    isCharBoundary text index = true ↔
      ∃ done rest, text = done ++ rest ∧ done.len = index := by
  rw [isCharBoundary, String.Pos.Raw.isValid_eq_true_iff, String.Pos.Raw.isValid_ofList]
  constructor
  · rintro ⟨n, hindex⟩
    exact ⟨text.take n, text.drop n, (List.take_append_drop n text).symm,
      (utf8ByteSize_ofList _).symm.trans hindex.symm⟩
  · rintro ⟨done, rest, rfl, rfl⟩
    exact ⟨done.length, by rw [List.take_left]; exact (utf8ByteSize_ofList done).symm⟩

theorem isCharBoundary_zero (text : Text) : isCharBoundary text 0 = true :=
  isCharBoundary_iff.2 ⟨[], text, rfl, rfl⟩

/-- The walk stops at the last boundary that is not above its start, and never below zero. -/
theorem charBoundary_greatest {text : Text} {index last : Nat}
    (hlast : isCharBoundary text last = true) (hle : last ≤ index)
    (hgreatest : ∀ other, isCharBoundary text other = true → other ≤ index → other ≤ last) :
    charBoundary text index = .ok last := by
  induction index with
  | zero =>
      rw [charBoundary, if_pos (isCharBoundary_zero text), Nat.le_zero.1 hle]
  | succ index ih =>
      rw [charBoundary]
      by_cases hindex : isCharBoundary text (index + 1) = true
      · rw [if_pos hindex, le_antisymm hle (hgreatest _ hindex le_rfl)]
      · have hne : last ≠ index + 1 := fun heq => hindex (heq ▸ hlast)
        rw [if_neg hindex]
        exact ih (by omega) fun other hother hother' => hgreatest other hother (by omega)

theorem splitAt_eq (chunk rest : Text) :
    splitAt (chunk ++ rest) (chunk.len) = .ok (chunk, rest) := by
  induction chunk with
  | nil => cases rest <;> rfl
  | cons c chunk ih =>
      obtain ⟨index, hindex⟩ : ∃ index, Text.len (c :: chunk) = index + 1 :=
        Nat.exists_eq_succ_of_ne_zero fun hzero => by cases len_eq_zero.1 hzero
      have hsize : index + 1 = c.utf8Size + Text.len chunk := by rw [← hindex, Text.len_cons]
      rw [hindex, List.cons_append, splitAt, if_pos (by omega), hsize, Nat.add_sub_cancel_left, ih]
      rfl

end Boundaries

section Prefixes

/-- The longest prefix fits. -/
theorem len_splitAtBytes (room : Nat) (text : Text) :
    Text.len (splitAtBytes room text).1 ≤ room := by
  induction text generalizing room with
  | nil => exact Nat.zero_le _
  | cons c rest ih =>
      rw [splitAtBytes]
      split
      · next hfits =>
          have hrest := ih (room - c.utf8Size)
          rw [Text.len_cons]
          omega
      · exact Nat.zero_le _

/-- No longer prefix fits. -/
theorem splitAtBytes_greatest {room : Nat} {done rest : Text} (h : done.len ≤ room) :
    done.len ≤ Text.len (splitAtBytes room (done ++ rest)).1 := by
  induction done generalizing room with
  | nil => exact Nat.zero_le _
  | cons c done ih =>
      rw [Text.len_cons] at h
      rw [List.cons_append, splitAtBytes, if_pos (by omega), Text.len_cons, Text.len_cons]
      exact Nat.add_le_add_left (ih (by omega)) _

/-- A chunk of the iterator is the longest prefix within the limit. -/
theorem nextChunk_cons (c : Char) (text : Text) :
    nextChunk (c :: text) = .ok (some (splitAtBytes maxDeltaBytes (c :: text))) := by
  have happend := splitAtBytes_append maxDeltaBytes (c :: text)
  have hboundary : charBoundary (c :: text) (min (Text.len (c :: text)) maxDeltaBytes) =
      .ok (Text.len (splitAtBytes maxDeltaBytes (c :: text)).1) := by
    refine charBoundary_greatest (isCharBoundary_iff.2 ⟨_, _, happend.symm, rfl⟩)
      (le_min ?_ (len_splitAtBytes _ _)) fun other hother hle => ?_
    · have hsize := congrArg Text.len happend
      rw [Text.len_append] at hsize
      omega
    · obtain ⟨done, rest, htext, rfl⟩ := isCharBoundary_iff.1 hother
      rw [htext]
      exact splitAtBytes_greatest (hle.trans (min_le_right _ _))
  have hsplit := splitAt_eq (splitAtBytes maxDeltaBytes (c :: text)).1
    (splitAtBytes maxDeltaBytes (c :: text)).2
  rw [happend] at hsplit
  rw [nextChunk, if_neg (List.cons_ne_nil c text), hboundary, bind_of_ok, hsplit]
  rfl

/-- The iterator ends on every text, and its chunks are those of `eventTextChunks`. -/
theorem yields_eventTextChunks (text : Text) : Yields text (eventTextChunks text) := by
  induction text using eventTextChunks.induct with
  | case1 =>
      rw [eventTextChunks]
      exact .done rfl
  | case2 c rest ih =>
      rw [eventTextChunks]
      exact .more (nextChunk_cons c rest) ih

theorem Yields.unique {text : Text} {chunks chunks' : List Text} (h : Yields text chunks)
    (h' : Yields text chunks') : chunks = chunks' := by
  induction h generalizing chunks' with
  | done hnone =>
      cases h' with
      | done => rfl
      | more hsome => cases hnone.symm.trans hsome
  | more hsome _ ih =>
      cases h' with
      | done hnone => cases hnone.symm.trans hsome
      | more hsome' hrest =>
          cases hsome.symm.trans hsome'
          rw [ih hrest]

/-- A chunk has a character, since a character is never as long as the limit. -/
theorem chunk_bounds {text chunk : Text} (h : chunk ∈ eventTextChunks text) :
    chunk ≠ [] ∧ chunk.len ≤ maxDeltaBytes := by
  induction text using eventTextChunks.induct with
  | case1 =>
      rw [eventTextChunks] at h
      cases h
  | case2 c rest ih =>
      rw [eventTextChunks, List.mem_cons] at h
      rcases h with rfl | h
      · have hsize : c.utf8Size ≤ maxDeltaBytes := c.utf8Size_le_four.trans (by decide)
        refine ⟨?_, len_splitAtBytes _ _⟩
        rw [splitAtBytes, if_pos hsize]
        exact List.cons_ne_nil _ _
      · exact ih h

/-- Every cut between two chunks is a boundary of the text. -/
theorem chunks_boundary (text : Text) (n : Nat) :
    isCharBoundary text (Text.len ((eventTextChunks text).take n).flatten) = true := by
  refine isCharBoundary_iff.2
    ⟨_, ((eventTextChunks text).drop n).flatten, ?_, rfl⟩
  rw [← List.flatten_append, List.take_append_drop, flatten_eventTextChunks]

end Prefixes

section Deltas

variable (parsesJson : String → Bool)

/-- An open tool item takes a delta within both limits. -/
theorem apply_argumentsDelta {v : EventValidator} {item : ItemId} {state : ItemState}
    {text : String} (hstarted : v.started = true) (hterminal : v.terminal = none)
    (hitem : v.items.get item = some state) (hopen : state.isOpen = true)
    (htool : state.kind.isTool = true) (hdelta : text.utf8ByteSize ≤ v.limits.maxDeltaBytes)
    (hroom : text.utf8ByteSize ≤ v.limits.maxArgumentBytes - v.argumentBytes) :
    v.apply parsesJson (.argumentsDelta item text) = (.ok (), { v with
      items := v.items.insert item { state with arguments := state.arguments ++ text }
      argumentBytes := v.argumentBytes + text.utf8ByteSize }) := by
  have hsizes : (decide (v.limits.maxDeltaBytes < text.utf8ByteSize) ||
      decide (v.limits.maxArgumentBytes - v.argumentBytes < text.utf8ByteSize)) = false := by
    simp only [Bool.or_eq_false_iff, decide_eq_false_iff_not, not_lt]
    exact ⟨hdelta, hroom⟩
  have hstate : (!state.isOpen || !state.kind.isTool) = false := by rw [hopen, htool]; rfl
  simp only [EventValidator.apply, EventValidator.dispatch, EventValidator.afterStart,
    EventValidator.argumentsDelta, EventValidator.setItem, read_bind_accepts, check_bind_accepts,
    write_bind_accepts, write_accepts, rejectIf_ok, okOr_ok]
  exact ⟨(), by rw [hterminal]; rfl, (), by rw [hstarted]; rfl, (), hsizes, state, hitem, (),
    hstate, rfl⟩

/-- The deltas of an item in order. -/
def argumentsDeltas (item : ItemId) (chunks : List Text) : EventValidator.Step :=
  chunks.forM fun chunk => EventValidator.apply parsesJson (.argumentsDelta item (String.ofList chunk))

theorem argumentsDeltas_accepted {v : EventValidator} {item : ItemId} {state : ItemState}
    {chunks : List Text} (hstarted : v.started = true) (hterminal : v.terminal = none)
    (hitem : v.items.get item = some state) (hopen : state.isOpen = true)
    (htool : state.kind.isTool = true)
    (hdeltas : ∀ chunk ∈ chunks, chunk.len ≤ v.limits.maxDeltaBytes)
    (hroom : Text.len chunks.flatten ≤ v.limits.maxArgumentBytes - v.argumentBytes) :
    ∃ v', argumentsDeltas parsesJson item chunks v = (.ok (), v') ∧
      v'.items.get item =
        some { state with arguments := state.arguments ++ String.ofList chunks.flatten } ∧
      v'.argumentBytes = v.argumentBytes + Text.len chunks.flatten := by
  induction chunks generalizing v state with
  | nil => exact ⟨v, rfl, by simpa using hitem, rfl⟩
  | cons chunk chunks ih =>
      rw [List.flatten_cons, Text.len_append] at hroom
      have hdelta : (String.ofList chunk).utf8ByteSize ≤ v.limits.maxDeltaBytes :=
        (utf8ByteSize_ofList chunk).le.trans (hdeltas chunk List.mem_cons_self)
      have happly := apply_argumentsDelta parsesJson hstarted hterminal hitem hopen htool hdelta
        ((utf8ByteSize_ofList chunk).le.trans (by omega))
      rw [utf8ByteSize_ofList] at happly
      obtain ⟨v', hrest, hitem', hbytes⟩ := ih (v := { v with
          items := v.items.insert item
            { state with arguments := state.arguments ++ String.ofList chunk }
          argumentBytes := v.argumentBytes + chunk.len })
        hstarted hterminal (OrderedMap.get_insert_self _ _ _) hopen htool
        (fun other hother => hdeltas other (List.mem_cons_of_mem _ hother))
        (show _ ≤ v.limits.maxArgumentBytes - (v.argumentBytes + chunk.len) by omega)
      refine ⟨v', ?_, ?_, ?_⟩
      · exact bind_accepts.2 ⟨(), _, happly, hrest⟩
      · rw [hitem', List.flatten_cons, String.ofList_append, ← String.append_assoc]
      · rw [hbytes, List.flatten_cons, Text.len_append, Nat.add_assoc]

end Deltas

/-- The iterator ends on every text and never panics. Its chunks are not empty, within the
limit of a delta and cut at boundaries, and together they are the text. A reducer with the
default limits takes the chunks of every text that its limit of arguments takes. -/
theorem event_text_chunks_exact (text : Text) :
    (∃ chunks, Yields text chunks) ∧ ∀ chunks, Yields text chunks →
      chunks.flatten = text ∧
      (∀ chunk ∈ chunks, chunk ≠ [] ∧ chunk.len ≤ maxDeltaBytes) ∧
      (∀ n, isCharBoundary text (Text.len (chunks.take n).flatten) = true) ∧
      ∀ (parsesJson : String → Bool) (v : EventValidator) (item : ItemId) (state : ItemState),
        v.limits = {} → v.started = true → v.terminal = none → v.items.get item = some state →
        state.isOpen = true → state.kind.isTool = true →
        text.len ≤ v.limits.maxArgumentBytes - v.argumentBytes →
        ∃ v', argumentsDeltas parsesJson item chunks v = (.ok (), v') ∧
          v'.items.get item =
            some { state with arguments := state.arguments ++ String.ofList text } ∧
          v'.argumentBytes = v.argumentBytes + text.len := by
  refine ⟨⟨_, yields_eventTextChunks text⟩, fun chunks hyields => ?_⟩
  cases hyields.unique (yields_eventTextChunks text)
  have hflatten := flatten_eventTextChunks text
  refine ⟨hflatten, fun chunk hchunk => chunk_bounds hchunk, chunks_boundary text, ?_⟩
  intro parsesJson v item state hlimits hstarted hterminal hitem hopen htool hroom
  have hdeltas : ∀ chunk ∈ eventTextChunks text, chunk.len ≤ v.limits.maxDeltaBytes :=
    fun chunk hchunk => hlimits ▸ (chunk_bounds hchunk).2
  have haccepted := argumentsDeltas_accepted parsesJson hstarted hterminal hitem hopen htool
    hdeltas (hflatten.symm ▸ hroom)
  rwa [hflatten] at haccepted

/-- An open tool item of a fresh reducer takes the chunks of its arguments. -/
theorem event_text_chunks_exact_open :
    ∃ v', argumentsDeltas (fun _ => true) ⟨"item_1", rfl⟩ (eventTextChunks ['\x7b', '\x7d'])
      { started := true, terminal := none, terminalReason := none
        items := OrderedMap.empty.insert ⟨"item_1", rfl⟩
          ⟨.tool ⟨none, "shell"⟩ ⟨"call_1", rfl⟩ .function, true, .empty, ""⟩
        indices := {0}, calls := {⟨"call_1", rfl⟩}, parts := 0, argumentBytes := 0, usage := none
        limits := {} } = (.ok (), v') := by
  obtain ⟨-, -, -, hdeltas⟩ := (event_text_chunks_exact _).2 _ (yields_eventTextChunks _)
  refine (hdeltas _ _ _ _ rfl rfl rfl (OrderedMap.get_insert_self _ _ _) ?_ ?_ ?_).imp
    fun v' haccepted => haccepted.1
  · rfl
  · rfl
  · decide

end ResponseGateway.Adapters
