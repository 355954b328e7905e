import ResponseGateway.Ir.Digest
import ResponseGateway.Library.Lines
import ResponseGateway.Library.Resumable

/-!
The bounded decoder of server-sent events. `nextEvent` is the loop of the source
over one chunk; `byteStep` is one turn of that loop, and everything a feeding
reports is the scan of the concatenated bytes with it.
-/

namespace ResponseGateway.Adapters
open Ir

structure SseEvent where
  event : Text
  data : Text
  deriving DecidableEq, Repr

structure SseDecoder where
  line : List UInt8
  data : Text
  event : Text
  hasData : Bool
  firstLine : Bool
  afterCr : Bool
  limit : UInt64
  deriving DecidableEq, Repr

/-- `usize::saturating_add`. -/
def saturatingAdd (a b : Nat) : Nat := min (a + b) (2 ^ 64 - 1)

def lf : UInt8 := 0x0a
def cr : UInt8 := 0x0d
def bom : List UInt8 := [0xef, 0xbb, 0xbf]

/-- `str::from_utf8`. -/
def decodeUtf8 (bytes : List UInt8) : Option Text :=
  (String.fromUTF8? ⟨bytes.toArray⟩).map String.toList

/-- `str::split_once` at one character. -/
def splitOnce (c : Char) (text : Text) : Option (Text × Text) := text.dropInfix? [c]

/-- The field name and its value, without one leading space. -/
def splitField (line : Text) : Text × Text :=
  let (field, value) := (splitOnce ':' line).getD (line, [])
  (field, (value.dropPrefix? [' ']).getD value)

namespace SseDecoder

def new (limit : UInt64) : Except IrError SseDecoder :=
  if limit = 0 then .error .sizeLimit
  else .ok {
    line := [], data := [], event := [], hasData := false, firstLine := true, afterCr := false,
    limit }

/-- The bytes of the finished line, without a byte order mark in front of the stream. -/
def contents (firstLine : Bool) (line : List UInt8) : List UInt8 :=
  if firstLine then (line.dropPrefix? bom).getD line else line

/-- An empty line: the event, unless no data has been collected. -/
def dispatch (d : SseDecoder) : Option SseEvent × SseDecoder :=
  if !d.hasData then (none, { d with event := [] })
  else
    (some ⟨if d.event.isEmpty then "message".toList else d.event, d.data.dropLast⟩,
      { d with hasData := false, data := [], event := [] })

/-- A line that is not empty. -/
def collect (line : Text) (d : SseDecoder) : Except IrError (Option SseEvent) × SseDecoder :=
  if line.head? = some ':' then (.ok none, d)
  else
    let (field, value) := splitField line
    if field = "event".toList then (.ok none, { d with event := value })
    else if field = "data".toList then
      if saturatingAdd (saturatingAdd (saturatingAdd d.data.len value.len) 1) d.event.len >
          d.limit.toNat then (.error .sizeLimit, d)
      else (.ok none, { d with data := d.data ++ value ++ ['\n'], hasData := true })
    else (.ok none, d)

def endLine (d : SseDecoder) : Except IrError (Option SseEvent) × SseDecoder :=
  let line := contents d.firstLine d.line
  let d := { d with line := [], firstLine := false }
  match decodeUtf8 line with
  | none => (.error (.invalidField "sse_utf8"), d)
  | some [] => let (event, d) := d.dispatch; (.ok event, d)
  | some line => d.collect line

/-- At most one complete event; the bytes behind it are left. -/
def nextEvent (d : SseDecoder) :
    List UInt8 → Except IrError (Option SseEvent) × SseDecoder × List UInt8
  | [] => (.ok none, d, [])
  | byte :: rest =>
      if d.afterCr && byte = lf then nextEvent { d with afterCr := false } rest
      else if byte = lf || byte = cr then
        match endLine { d with afterCr := byte = cr } with
        | (.error e, d) => (.error e, d, rest)
        | (.ok (some event), d) => (.ok (some event), d, rest)
        | (.ok none, d) => nextEvent d rest
      else if saturatingAdd (saturatingAdd d.line.length d.data.len) d.event.len ≥
          d.limit.toNat then (.error .sizeLimit, { d with afterCr := false }, rest)
      else nextEvent { d with afterCr := false, line := d.line ++ [byte] } rest

def finish (d : SseDecoder) : Except IrError Unit :=
  if d.hasData || !d.line.isEmpty || !d.event.isEmpty then .error .invalidEventOrder else .ok ()

/-- One turn of the loop. -/
def byteStep (byte : UInt8) : Method SseDecoder IrError (Option SseEvent) := fun d =>
  if d.afterCr && byte = lf then (.ok none, { d with afterCr := false })
  else if byte = lf || byte = cr then endLine { d with afterCr := byte = cr }
  else if saturatingAdd (saturatingAdd d.line.length d.data.len) d.event.len ≥
      d.limit.toNat then (.error .sizeLimit, { d with afterCr := false })
  else (.ok none, { d with afterCr := false, line := d.line ++ [byte] })

theorem nextEvent_eq_next : nextEvent = Resumable.next byteStep := by
  funext d input
  induction input generalizing d with
  | nil => rfl
  | cons byte rest ih =>
      rw [nextEvent, Resumable.next, byteStep]
      split
      · exact ih _
      · split
        · rcases endLine { d with afterCr := byte = cr } with ⟨e | _ | event, d'⟩
          · rfl
          · exact ih d'
          · rfl
        · split
          · rfl
          · exact ih _

end SseDecoder

/-- The bytes a decoder holds back. -/
def SseDecoder.buffered (d : SseDecoder) : Nat := d.line.length + d.data.len + d.event.len

/-- A new decoder fed with the chunks, each until it is used up. -/
def decodeChunks (limit : UInt64) (chunks : List (List UInt8)) :
    Except IrError (List SseEvent × Option IrError) := do
  let d ← SseDecoder.new limit
  return (Resumable.feed SseDecoder.nextEvent d chunks).outcome

end ResponseGateway.Adapters
