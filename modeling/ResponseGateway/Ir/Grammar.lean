import ResponseGateway.Library.Lines
import ResponseGateway.Ir.Basic

/-!
The syntax-only validator `Grammar::validate` and the language of the pinned
patch grammar. The scanner is the source's: it strips one final line feed and
the two envelope markers, splits the body into lines and walks over them with
greedy inner loops. The language is written with concatenation, union and
iteration only, and knows nothing of lines.
-/

namespace ResponseGateway.Ir
open Lines

inductive Grammar where
  | text
  | codexPatchV1
  | codeModeSourceV1
  deriving DecidableEq, Repr

def beginPatch : Text := "*** Begin Patch\n".toList
def endPatch : Text := "*** End Patch".toList
def addFile : Text := "*** Add File: ".toList
def deleteFile : Text := "*** Delete File: ".toList
def updateFile : Text := "*** Update File: ".toList
def moveTo : Text := "*** Move to: ".toList
def endOfFile : Text := "*** End of File".toList
def hunkMark : Text := "@@".toList
def hunkContext : Text := "@@ ".toList

def grammarFail : IrError := .invalidField "custom_tool_grammar"

/-- The closure `path` of the scanner: the header is followed by a nonempty name. -/
def hasPath (header line : Text) : Bool :=
  match line.dropPrefix? header with
  | some name => name ≠ []
  | none => false

/-- The loop over the added lines of a new file; it returns their number. -/
def takeAdded : Nat → List Text → Nat × List Text
  | count, line :: lines =>
      if line.head? = some '+' then takeAdded (count + 1) lines else (count, line :: lines)
  | count, [] => (count, [])

def isChange (line : Text) : Bool :=
  line = hunkMark || hasPath hunkContext line ||
    line.head? = some '+' || line.head? = some '-' || line.head? = some ' '

/-- The loop over the change lines of an update; the flag tells whether it consumed one. -/
def takeChanges : Bool → List Text → Bool × List Text
  | changed, line :: lines =>
      if isChange line then takeChanges true lines else (changed, line :: lines)
  | changed, [] => (changed, [])

def skipMove : List Text → List Text
  | line :: lines => if hasPath moveTo line then lines else line :: lines
  | [] => []

theorem takeAdded_length (count : Nat) (lines : List Text) :
    (takeAdded count lines).2.length ≤ lines.length := by
  induction lines generalizing count with
  | nil => simp [takeAdded]
  | cons line lines ih =>
      rw [takeAdded]
      split
      · exact (ih _).trans (Nat.le_succ _)
      · exact le_rfl

theorem takeChanges_length (changed : Bool) (lines : List Text) :
    (takeChanges changed lines).2.length ≤ lines.length := by
  induction lines generalizing changed with
  | nil => simp [takeChanges]
  | cons line lines ih =>
      rw [takeChanges]
      split
      · exact (ih _).trans (Nat.le_succ _)
      · exact le_rfl

theorem skipMove_length (lines : List Text) : (skipMove lines).length ≤ lines.length := by
  cases lines with
  | nil => exact le_rfl
  | cons line lines => rw [skipMove]; split <;> simp

/-- The `while let Some(line)` loop of the scanner, with its hunk counter. -/
def scanHunks (hunks : Nat) : List Text → Except IrError Nat
  | [] => .ok hunks
  | line :: lines =>
      if hasPath addFile line then
        if (takeAdded 0 lines).1 = 0 then .error grammarFail
        else scanHunks (hunks + 1) (takeAdded 0 lines).2
      else if hasPath deleteFile line then
        scanHunks (hunks + 1) lines
      else if hasPath updateFile line then
        let changes := takeChanges false (skipMove lines)
        if changes.2.head? = some endOfFile then
          if changes.1 then scanHunks (hunks + 1) changes.2.tail else .error grammarFail
        else scanHunks (hunks + 1) changes.2
      else .error grammarFail
termination_by lines => lines.length
decreasing_by
  · exact Nat.lt_succ_of_le (takeAdded_length 0 lines)
  · simp
  · have h := (takeChanges_length false (skipMove lines)).trans (skipMove_length lines)
    simp only [List.length_tail, List.length_cons]
    omega
  · exact Nat.lt_succ_of_le ((takeChanges_length false _).trans (skipMove_length lines))

/-- The `CodexPatchV1` part of `Grammar::validate`. -/
def validatePatch (text : Text) : Except IrError Unit :=
  let text := (text.dropSuffix? ['\n']).getD text
  match (text.dropPrefix? beginPatch).bind (·.dropSuffix? endPatch) with
  | none => .error grammarFail
  | some body =>
      if body.getLast? ≠ some '\n' then .error grammarFail
      else match scanHunks 0 (splitTerminator '\n' body) with
        | .error e => .error e
        | .ok hunks => if hunks = 0 then .error grammarFail else .ok ()

def Grammar.validate (grammar : Grammar) (text : Text) : Except IrError Unit :=
  if text.len > maxText then .error .sizeLimit
  else match grammar with
    | .codeModeSourceV1 =>
        if text = [] then .error (.invalidField "code_mode_source") else .ok ()
    | .text => .ok ()
    | .codexPatchV1 => validatePatch text

end ResponseGateway.Ir
