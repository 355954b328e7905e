import ResponseGateway.Editing.ContextEdit

/-!
`editing::OperationBundle`: independent file operations flattened into one
patch, and the inverse that re-splits the text at its header lines. Indexing
and slicing of the re-split lines can panic in the source and therefore can
here. `str::to_lowercase` is a parameter: no result depends on which function
it is, only on its being the same one on both sides.
-/

namespace ResponseGateway.Editing
open Ir Lines Checked

inductive Operation where
  | create (path : Text) (lines : List Text)
  | delete (path : Text)
  | move (source destination : Text) (context : List Text)
  | update (edit : ContextEdit)
  deriving DecidableEq, Repr

structure OperationBundle where
  operations : List Operation
  deriving DecidableEq, Repr

/-- The two suffixes a path component must not have. -/
def badComponent (part : Text) : Bool :=
  part.getLast? = some ' ' || part.getLast? = some '.'

/-- The loop of `path_key` over the components. -/
def collectParts (toLowercase : Text → Text) : List Text → List Text → Except IrError (List Text)
  | parts, [] => .ok parts
  | parts, part :: rest =>
      if part = [] ∨ part = ['.'] then collectParts toLowercase parts rest
      else if part = ['.', '.'] then
        if parts = [] then .error invalid else collectParts toLowercase parts.dropLast rest
      else if badComponent part then .error invalid
      else collectParts toLowercase (parts ++ [toLowercase part]) rest

def pathKey (toLowercase : Text → Text) (path : Text) : Except IrError Text := do
  rejectIf (badPath path) invalid
  let normalized := path.map (fun c => if c = '\\' then '/' else c)
  let parts ← collectParts toLowercase [] (normalized.splitOn '/')
  rejectIf parts.isEmpty invalid
  return (if normalized.head? = some '/' then ['/'] else []) ++ List.intercalate ['/'] parts

/-- Equal keys, or one a directory prefix of the other. -/
def clash (old key : Text) : Bool :=
  old = key || (key ++ ['/']).isPrefixOf old || (old ++ ['/']).isPrefixOf key

def linesValid (lines : List Text) : Except IrError Unit :=
  rejectIf (lines.isEmpty || lines.length > 16384 || lines.any badLine) invalid

namespace Operation

def touched : Operation → List Text
  | create path _ => [path]
  | delete path => [path]
  | move source destination _ => [source, destination]
  | update edit => [edit.path]

/-- The text an operation appends and the lines it counts. -/
def emit : Operation → Except IrError (Text × Nat)
  | create path lines => do
      linesValid lines
      return (addFile ++ path ++ ['\n'] ++ terminate '\n' (lines.map ('+' :: ·)), lines.length)
  | delete path => return (deleteFile ++ path ++ ['\n'], 0)
  | move source destination context => do
      linesValid context
      return (updateFile ++ source ++ ['\n'] ++ moveTo ++ destination ++ openMark ++
        terminate '\n' (context.map (' ' :: ·)), context.length)
  | update edit => do
      let compiled ← edit.compile
      let inner ← okOr ((compiled.dropPrefix? beginPatch).bind (·.dropSuffix? endPatch)) invalid
      return (inner, edit.beforeContext.length + edit.oldLines.length + edit.newLines.length
        + edit.afterContext.length)

end Operation

/-- The loop over the touched paths of one operation. -/
def touchPaths (toLowercase : Text → Text) :
    List Text → List Text → Except IrError (List Text)
  | paths, [] => .ok paths
  | paths, path :: rest => do
      let key ← pathKey toLowercase path
      rejectIf (paths.any (clash · key)) invalid
      touchPaths toLowercase (paths ++ [key]) rest

/-- The loop over the operations, with its paths, text and line count. -/
def pushOperations (toLowercase : Text → Text) :
    List Text → Text → Nat → List Operation → Except IrError Text
  | _, patch, _, [] => .ok patch
  | paths, patch, count, operation :: rest => do
      let paths ← touchPaths toLowercase paths operation.touched
      let (text, lines) ← operation.emit
      rejectIf (Text.len (patch ++ text) > maxText || count + lines > 16384) .sizeLimit
      pushOperations toLowercase paths (patch ++ text) (count + lines) rest

/-- `operation.starts_with` any of the three headers that open a chunk. -/
def isHeader (line : Text) : Bool :=
  addFile.isPrefixOf line || deleteFile.isPrefixOf line || updateFile.isPrefixOf line

/-- The inner `while` of `from_patch`: the next header from `cursor` on. -/
def nextHeader (lines : List Text) (cursor : Nat) : Nat :=
  if h : cursor < lines.length then
    if isHeader (lines.get ⟨cursor, h⟩) then cursor else nextHeader lines (cursor + 1)
  else cursor
termination_by lines.length - cursor

theorem le_nextHeader (lines : List Text) (cursor : Nat) : cursor ≤ nextHeader lines cursor := by
  induction cursor using nextHeader.induct lines with
  | case1 cursor h hh => rw [nextHeader, dif_pos h, if_pos hh]
  | case2 cursor h hh ih => rw [nextHeader, dif_pos h, if_neg hh]; omega
  | case3 cursor h => rw [nextHeader, dif_neg h]

theorem nextHeader_le (lines : List Text) (cursor : Nat) (hc : cursor ≤ lines.length) :
    nextHeader lines cursor ≤ lines.length := by
  induction cursor using nextHeader.induct lines with
  | case1 cursor h hh => rw [nextHeader, dif_pos h, if_pos hh]; exact hc
  | case2 cursor h hh ih => rw [nextHeader, dif_pos h, if_neg hh]; exact ih h
  | case3 cursor h => rw [nextHeader, dif_neg h]; exact hc

/-- `strip_prefix` of one marker on every line. -/
def unmark (mark : Char) (lines : List Text) : Except IrError (List Text) :=
  lines.mapM (fun line => okOr (line.dropPrefix? [mark]) invalid)

/-- The body of the outer `while`: one chunk of lines to one operation. -/
def readOperation (chunk : List Text) : Except (Fault IrError) Operation := do
  let first ← index chunk 0
  if let some path := first.dropPrefix? addFile then
    let rest ← sliceFrom chunk 1
    let lines ← lift (unmark '+' rest)
    return .create path lines
  else if let some path := first.dropPrefix? deleteFile then
    rejectIf (chunk.length ≠ 1) (.error invalid)
    return .delete path
  else if let some source := first.dropPrefix? updateFile then
    if let some destination := chunk[1]?.bind (·.dropPrefix? moveTo) then
      rejectIf (chunk[2]? ≠ some hunkMark) (.error invalid)
      let rest ← sliceFrom chunk 3
      let context ← lift (unmark ' ' rest)
      return .move source destination context
    else
      let edit ← lift (ContextEdit.fromPatch
        (beginPatch ++ List.intercalate ['\n'] chunk ++ ['\n'] ++ endPatch))
      return .update edit
  else
    .error (.error invalid)

/-- The outer `while` of `from_patch`. -/
def readOperations (lines : List Text) (cursor : Nat) (operations : List Operation) :
    Except (Fault IrError) (List Operation) :=
  if cursor < lines.length then do
    let chunk ← slice lines cursor (nextHeader lines (cursor + 1))
    let operation ← readOperation chunk
    rejectIf ((operations ++ [operation]).length > 64) (.error .sizeLimit)
    readOperations lines (nextHeader lines (cursor + 1)) (operations ++ [operation])
  else .ok operations
termination_by lines.length - cursor
decreasing_by
  have := le_nextHeader lines (cursor + 1)
  omega

namespace OperationBundle

/-- `compile` up to the call of the grammar validator. -/
def assemble (toLowercase : Text → Text) (v : OperationBundle) : Except IrError Text := do
  rejectIf (v.operations.isEmpty || v.operations.length > 64) invalid
  let patch ← pushOperations toLowercase [] beginPatch 0 v.operations
  rejectIf (Text.len (patch ++ endPatch) > maxText) .sizeLimit
  return patch ++ endPatch

def compile (toLowercase : Text → Text) (v : OperationBundle) : Except IrError Text := do
  let patch ← v.assemble toLowercase
  Grammar.codexPatchV1.validate patch
  return patch

def fromPatch (toLowercase : Text → Text) (patch : Text) :
    Except (Fault IrError) OperationBundle := do
  rejectIf (patch.len > maxText) (.error .sizeLimit)
  let body ← lift (okOr ((patch.dropPrefix? beginPatch).bind (·.dropSuffix? endPatch)) invalid)
  let operations ← readOperations (splitTerminator '\n' body) 0 []
  let compiled ← lift (compile toLowercase ⟨operations⟩)
  rejectIf (compiled ≠ patch) (.error invalid)
  return ⟨operations⟩

end OperationBundle
end ResponseGateway.Editing
