import ResponseGateway.Adapters.Sse

/-!
The line grammar of server-sent events and the parse of a complete byte string by
it. The parse splits the whole text into lines first and keeps the fields of an
event as lists; it knows nothing of chunks, of a pending carriage return or of a
partially read line. The decoder reports exactly what this parse reports, for
every way of cutting the text.
-/

namespace ResponseGateway.Adapters
open Ir Resumable Checked

/-- No line end inside. -/
def Plain (bytes : List UInt8) : Prop := ∀ b ∈ bytes, b ≠ lf ∧ b ≠ cr

/-- A text, its complete lines and the rest behind the last line end. A carriage
return and the line feed behind it end one line together. -/
inductive Lined : List UInt8 → List (List UInt8) → List UInt8 → Prop where
  | rest {tail : List UInt8} (plain : Plain tail) : Lined tail [] tail
  | feed {line text tail : List UInt8} {lines : List (List UInt8)} (plain : Plain line)
      (more : Lined text lines tail) : Lined (line ++ lf :: text) (line :: lines) tail
  | both {line text tail : List UInt8} {lines : List (List UInt8)} (plain : Plain line)
      (more : Lined text lines tail) : Lined (line ++ cr :: lf :: text) (line :: lines) tail
  | carriage {line text tail : List UInt8} {lines : List (List UInt8)} (plain : Plain line)
      (alone : text.head? ≠ some lf) (more : Lined text lines tail) :
      Lined (line ++ cr :: text) (line :: lines) tail

/-- The complete lines of a text and the rest behind them. -/
def splitLines : List UInt8 → List (List UInt8) × List UInt8
  | [] => ([], [])
  | b :: text =>
      if b = lf then let (lines, tail) := splitLines text; ([] :: lines, tail)
      else if b = cr then
        match text with
        | c :: after =>
            if c = lf then let (lines, tail) := splitLines after; ([] :: lines, tail)
            else let (lines, tail) := splitLines (c :: after); ([] :: lines, tail)
        | [] => ([[]], [])
      else
        match splitLines text with
        | ([], tail) => ([], b :: tail)
        | (line :: lines, tail) => ((b :: line) :: lines, tail)

/-- The fields of the event being collected. -/
structure Pending where
  event : Text
  data : List Text

namespace Pending

def empty : Pending := ⟨[], []⟩

/-- The bytes of the fields, each data line with its line feed. -/
def size (p : Pending) : Nat := p.event.len + Text.len (Lines.terminate '\n' p.data)

/-- The event an empty line dispatches, if there is data. -/
def event? (p : Pending) : Option SseEvent :=
  if p.data = [] then none
  else some ⟨if p.event = [] then "message".toList else p.event, List.intercalate ['\n'] p.data⟩

/-- A line with a field; fields of other names and comments say nothing. -/
def field (p : Pending) (line : Text) : Pending :=
  let (name, value) := splitField line
  if name = "event".toList then { p with event := value }
  else if name = "data".toList then { p with data := p.data ++ [value] }
  else p

end Pending

/-- The events of the lines, up to the first line that does not fit into the limit
or is not UTF-8. Only the first line of a stream may start with a byte order mark. -/
def parseLines (limit : Nat) (first : Bool) (p : Pending) (tail : List UInt8) :
    List (List UInt8) → List SseEvent × Option IrError
  | [] => ([], if p.size + tail.length > limit then some .sizeLimit else none)
  | line :: lines =>
      if p.size + line.length > limit then ([], some .sizeLimit)
      else match decodeUtf8 (SseDecoder.contents first line) with
        | none => ([], some (.invalidField "sse_utf8"))
        | some [] =>
            match p.event? with
            | none => parseLines limit false .empty tail lines
            | some event =>
                let (events, error) := parseLines limit false .empty tail lines
                (event :: events, error)
        | some text => parseLines limit false (p.field text) tail lines

/-- The reference parse of a complete byte string. -/
def referenceParse (limit : UInt64) (bytes : List UInt8) :
    Except IrError (List SseEvent × Option IrError) :=
  if limit = 0 then .error .sizeLimit
  else
    let (lines, tail) := splitLines bytes
    .ok (parseLines limit.toNat true .empty tail lines)

section Grammar

theorem Lined.cons {b : UInt8} {text tail : List UInt8} {lines : List (List UInt8)}
    (hlf : b ≠ lf) (hcr : b ≠ cr) (h : Lined text lines tail) :
    (lines = [] → Lined (b :: text) [] (b :: tail)) ∧
      ∀ line rest, lines = line :: rest → Lined (b :: text) ((b :: line) :: rest) tail := by
  have hplain {bytes : List UInt8} (hbytes : Plain bytes) : Plain (b :: bytes) :=
    List.forall_mem_cons.2 ⟨⟨hlf, hcr⟩, hbytes⟩
  cases h with
  | rest plain => exact ⟨fun _ => .rest (hplain plain), nofun⟩
  | feed plain more =>
      refine ⟨nofun, fun line rest hlines => ?_⟩
      cases hlines
      exact .feed (hplain plain) more
  | both plain more =>
      refine ⟨nofun, fun line rest hlines => ?_⟩
      cases hlines
      exact .both (hplain plain) more
  | carriage plain alone more =>
      refine ⟨nofun, fun line rest hlines => ?_⟩
      cases hlines
      exact .carriage (hplain plain) alone more

theorem plain_nil : Plain [] := nofun

/-- The splitting follows the grammar. -/
theorem lined_splitLines (text : List UInt8) :
    Lined text (splitLines text).1 (splitLines text).2 := by
  fun_induction splitLines text with
  | case1 => exact .rest plain_nil
  | case2 text lines tail hsplit ih =>
      rw [hsplit] at ih
      exact .feed plain_nil ih
  | case3 after lines tail hsplit hne ih =>
      rw [hsplit] at ih
      exact .both plain_nil ih
  | case4 c after hc lines tail hsplit hne ih =>
      rw [hsplit] at ih
      exact .carriage plain_nil (by simpa using hc) ih
  | case5 hne => exact .carriage plain_nil (by simp) (.rest plain_nil)
  | case6 b text hlf hcr tail hsplit ih =>
      rw [hsplit] at ih
      exact (ih.cons hlf hcr).1 rfl
  | case7 b text hlf hcr line lines tail hsplit ih =>
      rw [hsplit] at ih
      exact (ih.cons hlf hcr).2 line lines rfl

end Grammar

section Sizes

theorem decodeUtf8_len {bytes : List UInt8} {text : Text} (h : decodeUtf8 bytes = some text) :
    text.len = bytes.length := by
  obtain ⟨s, hs, rfl⟩ := Option.map_eq_some_iff.1 h
  rw [← utf8ByteSize_ofList, String.ofList_toList]
  rw [String.fromUTF8?] at hs
  split at hs
  · cases hs
    simp [String.fromUTF8, String.utf8ByteSize, ByteArray.size]
  · cases hs

theorem contents_length (first : Bool) (line : List UInt8) :
    (SseDecoder.contents first line).length ≤ line.length := by
  rw [SseDecoder.contents]
  split
  · cases h : line.dropPrefix? bom with
    | none => exact Nat.le_refl _
    | some rest =>
        rw [Lines.dropPrefix?_eq_some.1 h, Option.getD_some, List.length_append]
        exact Nat.le_add_left _ _
  · exact Nat.le_refl _

theorem dropSpace_len (value : Text) :
    Text.len ((value.dropPrefix? [' ']).getD value) ≤ value.len := by
  cases h : value.dropPrefix? [' '] with
  | none => exact Nat.le_refl _
  | some rest =>
      rw [Lines.dropPrefix?_eq_some.1 h, Option.getD_some, Text.len_append]
      exact Nat.le_add_left _ _

/-- The value of a field leaves room for at least one byte of its line. -/
theorem splitField_len {line : Text} (h : line ≠ []) : (splitField line).2.len + 1 ≤ line.len := by
  rw [splitField]
  cases hsplit : splitOnce ':' line with
  | none =>
      obtain ⟨c, rest, rfl⟩ := List.exists_cons_of_ne_nil h
      have hc := c.utf8Size_pos
      have hvalue := dropSpace_len []
      simp only [Option.getD_none, Text.len_nil, Text.len_cons] at hvalue ⊢
      omega
  | some pair =>
      obtain ⟨name, value⟩ := pair
      obtain ⟨⟨colon, hline, hcolon⟩, -⟩ := List.dropInfix?_eq_some_iff.1 hsplit
      obtain rfl : colon = [':'] := by simpa using hcolon
      have hvalue := dropSpace_len value
      have hone : Char.utf8Size ':' = 1 := rfl
      simp only [Option.getD_some, hline, Text.len_append, Text.len_cons, Text.len_nil, hone]
      omega

theorem saturatingAdd_le (a b : Nat) : saturatingAdd a b ≤ a + b := Nat.min_le_left _ _

/-- The check before a byte is kept is exact: a limit is a `usize`. -/
theorem limit_le_saturating {a b c : Nat} {limit : UInt64} :
    limit.toNat ≤ saturatingAdd (saturatingAdd a b) c ↔ limit.toNat ≤ a + b + c := by
  have hlimit := limit.toNat_lt
  simp only [saturatingAdd]
  omega

theorem field_size {p : Pending} {line : Text} (h : line ≠ []) :
    (p.field line).size ≤ p.size + line.len := by
  have hvalue := splitField_len h
  have hone : Char.utf8Size '\n' = 1 := rfl
  simp only [Pending.field, Pending.size]
  split
  · simp only
    omega
  · split
    · simp only [Lines.terminate_append, Lines.terminate_cons, Lines.terminate_nil,
        Text.len_append, Text.len_cons, Text.len_nil, hone]
      omega
    · omega

end Sizes

section Simulation

/-- Between two lines, the decoder holds the pending fields. -/
structure Follows (limit : UInt64) (first : Bool) (p : Pending) (d : SseDecoder) : Prop where
  line : d.line = []
  event : d.event = p.event
  data : d.data = Lines.terminate '\n' p.data
  hasData : d.hasData = !p.data.isEmpty
  firstLine : d.firstLine = first
  limit : d.limit = limit

variable {limit : UInt64} {first : Bool} {p : Pending} {d : SseDecoder}

theorem Follows.buffered (h : Follows limit first p d) : d.buffered = p.size := by
  rw [SseDecoder.buffered, Pending.size, h.line, h.event, h.data, List.length_nil]
  omega

theorem Follows.afterCr (h : Follows limit first p d) (value : Bool) :
    Follows limit first p { d with afterCr := value } :=
  ⟨h.line, h.event, h.data, h.hasData, h.firstLine, h.limit⟩

theorem dropLast_terminate (l : Text) (ls : List Text) :
    (Lines.terminate '\n' (l :: ls)).dropLast = List.intercalate ['\n'] (l :: ls) := by
  induction ls generalizing l with
  | nil => simp
  | cons m ms ih =>
      have hne : Lines.terminate '\n' (m :: ms) ≠ [] := by simp
      rw [Lines.terminate_cons, List.dropLast_append_cons, List.dropLast_cons_of_ne_nil hne, ih,
        List.intercalate_cons_cons]
      simp

theorem dispatch_follows (h : Follows limit first p d) :
    d.dispatch.1 = p.event? ∧ Follows limit first .empty d.dispatch.2 ∧
      d.dispatch.2.afterCr = d.afterCr := by
  obtain ⟨event, data⟩ := p
  cases data with
  | nil =>
      have hdata : d.hasData = false := h.hasData
      simp only [SseDecoder.dispatch, hdata, Pending.event?]
      exact ⟨rfl, ⟨h.line, rfl, h.data, rfl, h.firstLine, h.limit⟩, rfl⟩
  | cons value values =>
      have hdata : d.hasData = true := h.hasData
      rw [SseDecoder.dispatch, hdata, Pending.event?, if_neg (List.cons_ne_nil _ _),
        ← dropLast_terminate, ← h.data, ← h.event]
      refine ⟨?_, ⟨h.line, rfl, rfl, rfl, h.firstLine, h.limit⟩, rfl⟩
      cases d.event with
      | nil => rfl
      | cons c rest => rfl

/-- A collected line never meets the second size check: its value is shorter than
the line that has already been counted. -/
theorem collect_follows {line : Text} (h : Follows limit first p d) (hne : line ≠ [])
    (hsize : p.size + line.len ≤ limit.toNat) :
    ∃ d', d.collect line = (.ok none, d') ∧ Follows limit first (p.field line) d' ∧
      d'.afterCr = d.afterCr := by
  have hvalue := splitField_len hne
  rw [SseDecoder.collect]
  split
  · next hcolon =>
      obtain ⟨c, rest, rfl⟩ := List.exists_cons_of_ne_nil hne
      obtain rfl : c = ':' := by simpa using hcolon
      have hsplit : splitOnce ':' (':' :: rest) = some ([], rest) :=
        @Lines.dropInfix?_of_notMem _ _ _ [] [] rest (by simp)
      have hfield : p.field (':' :: rest) = p := by
        simp [Pending.field, splitField, hsplit]
      rw [hfield]
      exact ⟨d, rfl, h, rfl⟩
  · simp only [Pending.field]
    split
    · exact ⟨_, rfl, ⟨h.line, rfl, h.data, h.hasData, h.firstLine, h.limit⟩, rfl⟩
    · split
      · have hroom : ¬ saturatingAdd (saturatingAdd (saturatingAdd d.data.len
            (splitField line).2.len) 1) d.event.len > d.limit.toNat := by
          have h₁ := saturatingAdd_le d.data.len (splitField line).2.len
          have h₂ := saturatingAdd_le (saturatingAdd d.data.len (splitField line).2.len) 1
          have h₃ := saturatingAdd_le
            (saturatingAdd (saturatingAdd d.data.len (splitField line).2.len) 1) d.event.len
          rw [Pending.size, ← h.event, ← h.data] at hsize
          rw [h.limit]
          omega
        rw [if_neg hroom]
        refine ⟨_, rfl, ⟨h.line, h.event, ?_, by simp, h.firstLine, h.limit⟩, rfl⟩
        simp [h.data]
      · exact ⟨d, rfl, h, rfl⟩

theorem endLine_follows {line : List UInt8} (h : Follows limit first p d)
    (hsize : p.size + line.length ≤ limit.toNat) :
    match decodeUtf8 (SseDecoder.contents first line) with
    | none => ∃ d', SseDecoder.endLine { d with line } = (.error (.invalidField "sse_utf8"), d')
    | some [] => ∃ d', SseDecoder.endLine { d with line } = (.ok p.event?, d') ∧
        Follows limit false .empty d' ∧ d'.afterCr = d.afterCr
    | some text => ∃ d', SseDecoder.endLine { d with line } = (.ok none, d') ∧
        Follows limit false (p.field text) d' ∧ d'.afterCr = d.afterCr ∧
        (p.field text).size ≤ limit.toNat := by
  have hafter : Follows limit false p { d with line := [], firstLine := false } :=
    ⟨rfl, h.event, h.data, h.hasData, rfl, h.limit⟩
  have hlength := contents_length first line
  simp only [SseDecoder.endLine, h.firstLine]
  cases htext : decodeUtf8 (SseDecoder.contents first line) with
  | none => exact ⟨_, rfl⟩
  | some text =>
      have hlen := decodeUtf8_len htext
      cases text with
      | nil =>
          obtain ⟨hevent, hfollows, hcr⟩ := dispatch_follows hafter
          exact ⟨_, by rw [← hevent], hfollows, hcr⟩
      | cons c rest =>
          obtain ⟨d', hd', hfollows, hcr⟩ :=
            collect_follows hafter (List.cons_ne_nil c rest) (by omega)
          refine ⟨d', hd', hfollows, hcr, ?_⟩
          have hfield := field_size (p := p) (List.cons_ne_nil c rest)
          omega

/-- Bytes inside a line are kept until the limit is reached. -/
theorem scan_plain {bytes : List UInt8} (rest : List UInt8) (hplain : Plain bytes)
    (hcr : d.afterCr = false) (hfit : d.buffered ≤ d.limit.toNat) :
    (scan SseDecoder.byteStep d (bytes ++ rest)).outcome =
      if d.buffered + bytes.length ≤ d.limit.toNat then
        (scan SseDecoder.byteStep { d with line := d.line ++ bytes } rest).outcome
      else ([], some .sizeLimit) := by
  induction bytes generalizing d with
  | nil => simp [hfit]
  | cons b bytes ih =>
      obtain ⟨⟨hlf, hne⟩, hbytes⟩ := List.forall_mem_cons.1 hplain
      have hinside : ¬ (b = lf ∨ b = cr) := fun hend => hend.elim hlf hne
      rw [List.cons_append, scan, List.length_cons]
      by_cases hfull : d.limit.toNat ≤ d.buffered
      · have hstep : SseDecoder.byteStep b d =
            (.error .sizeLimit, { d with afterCr := false }) := by
          simp [SseDecoder.byteStep, hcr, hinside, limit_le_saturating.2 hfull]
        rw [hstep, if_neg (by omega)]
        rfl
      · have hstep : SseDecoder.byteStep b d =
            (.ok none, { d with afterCr := false, line := d.line ++ [b] }) := by
          have hroom := mt limit_le_saturating.1 hfull
          simp [SseDecoder.byteStep, hcr, hinside, Nat.not_le.1 hroom]
        have hkept : { d with afterCr := false, line := d.line ++ [b] }.buffered =
            d.buffered + 1 := by
          simp only [SseDecoder.buffered, List.length_append, List.length_singleton]
          omega
        rw [hstep]
        simp only
        rw [ih hbytes rfl (by rw [hkept]; simp only; omega), hkept]
        simp only [List.append_assoc, List.singleton_append, hcr, Nat.add_assoc,
          Nat.add_comm 1]

/-- One complete line, with what is known of the text behind its end. -/
theorem scan_line {byte : UInt8} {line text tail : List UInt8} {lines : List (List UInt8)}
    (hplain : Plain line) (hbyte : byte = lf ∨ byte = cr) (h : Follows limit first p d)
    (hcr : d.afterCr = false) (hsize : p.size ≤ limit.toNat)
    (hmore : ∀ p' d', Follows limit false p' d' → d'.afterCr = decide (byte = cr) →
      p'.size ≤ limit.toNat → (scan SseDecoder.byteStep d' text).outcome =
        parseLines limit.toNat false p' tail lines) :
    (scan SseDecoder.byteStep d (line ++ byte :: text)).outcome =
      parseLines limit.toNat first p tail (line :: lines) := by
  have hbuffered := h.buffered
  obtain rfl := h.limit
  rw [scan_plain _ hplain hcr (by rw [hbuffered]; exact hsize), hbuffered, h.line,
    List.nil_append, parseLines]
  by_cases hfit : p.size + line.length ≤ d.limit.toNat
  · rw [if_pos hfit, if_neg (Nat.not_lt.2 hfit), scan]
    have hended := h.afterCr (decide (byte = cr))
    have hstep : SseDecoder.byteStep byte { d with line } =
        SseDecoder.endLine { d with line, afterCr := byte = cr } := by
      have hend : (decide (byte = lf) || decide (byte = cr)) = true := by simpa using hbyte
      simp only [SseDecoder.byteStep, hcr, hend, Bool.false_and, Bool.false_eq_true, if_false,
        if_true]
    have hline := endLine_follows hended hfit
    rw [hstep]
    revert hline
    cases decodeUtf8 (SseDecoder.contents first line) with
    | none =>
        rintro ⟨d', hd'⟩
        rw [hd']
        rfl
    | some text' =>
        cases text' with
        | nil =>
            rintro ⟨d', hd', hfollows, hafter⟩
            have hnext := hmore .empty d' hfollows hafter (Nat.zero_le _)
            rw [hd']
            cases hevent : p.event? with
            | none => exact hnext
            | some event => exact Report.outcome_cons hnext
        | cons c rest =>
            rintro ⟨d', hd', hfollows, hafter, hnew⟩
            rw [hd']
            exact hmore _ d' hfollows hafter hnew
  · rw [if_neg hfit, if_pos (Nat.not_le.1 hfit)]

/-- A pending carriage return matters only in front of a line feed. -/
theorem scan_afterCr {text : List UInt8} (h : text.head? ≠ some lf) :
    (scan SseDecoder.byteStep d text).outcome =
      (scan SseDecoder.byteStep { d with afterCr := false } text).outcome := by
  cases text with
  | nil => rfl
  | cons b text =>
      have hb : b ≠ lf := by simpa using h
      have hstep : SseDecoder.byteStep b d =
          SseDecoder.byteStep b { d with afterCr := false } := by
        simp [SseDecoder.byteStep, hb]
      rw [scan, scan, hstep]

/-- The decoder's scan of a text is the parse of its lines. -/
theorem scan_lined {text tail : List UInt8} {lines : List (List UInt8)}
    (hlined : Lined text lines tail) (h : Follows limit first p d) (hcr : d.afterCr = false)
    (hsize : p.size ≤ limit.toNat) :
    (scan SseDecoder.byteStep d text).outcome = parseLines limit.toNat first p tail lines := by
  induction hlined generalizing d p first with
  | @rest tail plain =>
      have hfit : d.buffered ≤ d.limit.toNat := by
        rw [h.buffered, h.limit]
        exact hsize
      have hscan := scan_plain [] plain hcr hfit
      rw [List.append_nil, h.buffered, h.limit] at hscan
      rw [hscan, parseLines]
      by_cases hroom : p.size + tail.length ≤ limit.toNat
      · rw [if_pos hroom, if_neg (Nat.not_lt.2 hroom)]
        rfl
      · rw [if_neg hroom, if_pos (Nat.not_le.1 hroom)]
  | feed plain more ih =>
      exact scan_line plain (.inl rfl) h hcr hsize fun p' d' hd' hafter hnew =>
        ih hd' hafter hnew
  | both plain more ih =>
      refine scan_line plain (.inr rfl) h hcr hsize fun p' d' hd' hafter hnew => ?_
      have hstep : SseDecoder.byteStep lf d' = (.ok none, { d' with afterCr := false }) := by
        rw [SseDecoder.byteStep, hafter]
        rfl
      rw [scan, hstep]
      exact ih (hd'.afterCr false) rfl hnew
  | carriage plain alone more ih =>
      refine scan_line plain (.inr rfl) h hcr hsize fun p' d' hd' hafter hnew => ?_
      rw [scan_afterCr alone]
      exact ih (hd'.afterCr false) rfl hnew

end Simulation

section Limit

/-- A decoder after any calls, failed ones included. -/
inductive Reachable (limit : UInt64) : SseDecoder → Prop where
  | new {d : SseDecoder} (start : SseDecoder.new limit = .ok d) : Reachable limit d
  | call {d : SseDecoder} (prior : Reachable limit d) (input : List UInt8) :
      Reachable limit (d.nextEvent input).2.1

/-- What is held back stays within the limit. -/
def Bounded (limit : UInt64) (d : SseDecoder) : Prop :=
  d.limit = limit ∧ d.buffered ≤ limit.toNat

variable {limit : UInt64} {d : SseDecoder}

theorem bounded_dispatch (h : Bounded limit d) : Bounded limit d.dispatch.2 := by
  obtain ⟨hlimit, hsize⟩ := h
  simp only [SseDecoder.buffered] at hsize
  rw [SseDecoder.dispatch]
  split
  · refine ⟨hlimit, ?_⟩
    simp only [SseDecoder.buffered, Text.len_nil]
    omega
  · refine ⟨hlimit, ?_⟩
    simp only [SseDecoder.buffered, Text.len_nil]
    omega

theorem bounded_collect {line : Text} (hne : line ≠ []) (hlimit : d.limit = limit)
    (hempty : d.line = []) (hsize : line.len + d.data.len + d.event.len ≤ limit.toNat) :
    Bounded limit (d.collect line).2 := by
  have hvalue := splitField_len hne
  have hone : Char.utf8Size '\n' = 1 := rfl
  rw [SseDecoder.collect]
  split
  · refine ⟨hlimit, ?_⟩
    simp only [SseDecoder.buffered, hempty, List.length_nil]
    omega
  · simp only
    split
    · refine ⟨hlimit, ?_⟩
      simp only [SseDecoder.buffered, hempty, List.length_nil]
      omega
    · split
      · split
        · refine ⟨hlimit, ?_⟩
          simp only [SseDecoder.buffered, hempty, List.length_nil]
          omega
        · refine ⟨hlimit, ?_⟩
          simp only [SseDecoder.buffered, hempty, List.length_nil, Text.len_append,
            Text.len_cons, Text.len_nil, hone]
          omega
      · refine ⟨hlimit, ?_⟩
        simp only [SseDecoder.buffered, hempty, List.length_nil]
        omega

theorem bounded_endLine (h : Bounded limit d) : Bounded limit d.endLine.2 := by
  obtain ⟨hlimit, hsize⟩ := h
  have hlength := contents_length d.firstLine d.line
  have hcleared : Bounded limit { d with line := [], firstLine := false } := by
    refine ⟨hlimit, ?_⟩
    simp only [SseDecoder.buffered, List.length_nil] at hsize ⊢
    omega
  rw [SseDecoder.endLine]
  cases htext : decodeUtf8 (SseDecoder.contents d.firstLine d.line) with
  | none => exact hcleared
  | some text =>
      have hlen := decodeUtf8_len htext
      cases text with
      | nil => exact bounded_dispatch hcleared
      | cons c rest =>
          refine bounded_collect (List.cons_ne_nil c rest) hlimit rfl ?_
          simp only [SseDecoder.buffered] at hsize
          simp only
          omega

theorem bounded_byteStep (byte : UInt8) (h : Bounded limit d) :
    Bounded limit (SseDecoder.byteStep byte d).2 := by
  rw [SseDecoder.byteStep]
  split
  · exact h
  · split
    · exact bounded_endLine h
    · split
      · exact h
      · next hfull =>
          obtain ⟨hlimit, hsize⟩ := h
          have hroom := mt limit_le_saturating.2 hfull
          refine ⟨hlimit, ?_⟩
          rw [hlimit] at hroom
          simp only [SseDecoder.buffered, List.length_append, List.length_singleton]
          omega

theorem bounded_reachable (h : Reachable limit d) : Bounded limit d := by
  induction h with
  | new start =>
      rw [SseDecoder.new] at start
      split at start
      · cases start
      · cases start
        exact ⟨rfl, Nat.zero_le _⟩
  | call prior input ih =>
      rw [SseDecoder.nextEvent_eq_next]
      exact next_invariant _ (fun b s => bounded_byteStep b) ih input

end Limit

theorem decodeChunks_reference (limit : UInt64) (chunks : List (List UInt8)) :
    decodeChunks limit chunks = referenceParse limit chunks.flatten := by
  rw [decodeChunks, referenceParse, SseDecoder.new, SseDecoder.nextEvent_eq_next]
  split
  · rfl
  · have hstart : Follows limit true .empty
        { line := [], data := [], event := [], hasData := false, firstLine := true,
          afterCr := false, limit } := ⟨rfl, rfl, rfl, rfl, rfl, rfl⟩
    rw [bind_of_ok, feed_next, scan_lined (lined_splitLines _) hstart rfl (Nat.zero_le _)]
    rfl

/-- Decoding does not depend on the cuts between the chunks, is the parse of the whole
text by the line grammar, and never holds back more than the limit. -/
theorem sse_decoding (limit : UInt64) (chunks : List (List UInt8)) :
    decodeChunks limit chunks = decodeChunks limit [chunks.flatten] ∧
      decodeChunks limit chunks = referenceParse limit chunks.flatten ∧
      ∀ d, Reachable limit d → d.buffered ≤ limit.toNat := by
  refine ⟨?_, decodeChunks_reference limit chunks, fun d hd => (bounded_reachable hd).2⟩
  rw [decodeChunks_reference, decodeChunks_reference, List.flatten_singleton]

end ResponseGateway.Adapters
