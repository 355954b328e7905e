import ResponseGateway.Ir.Identity
import ResponseGateway.Library.Method
import ResponseGateway.Library.OrderedMap

/-!
`ir::event::EventValidator`: the reducer that every decoded event stream passes
through. Each event is a method on the validator with the checks and updates in
the order of the source, so that a check after an update would be seen. The JSON
parser is a parameter: the validator only asks whether a text parses.
-/

namespace ResponseGateway.Ir
open Checked Method

/-- `u32` positions, kept apart from counters. -/
abbrev OutputIndex := Fin (2 ^ 32)
abbrev ContentIndex := Fin (2 ^ 32)

inductive OutputKind where
  | message
  | reasoning
  | tool (tool : ToolIdentity) (callId : CallId) (kind : ToolKind)
  deriving DecidableEq, Repr

inductive PartKind where
  | text
  | reasoningText
  deriving DecidableEq, Repr

inductive Terminal where
  | completed
  | incomplete
  | failed
  | cancelled
  | transportLost
  deriving DecidableEq, Repr

structure Usage where
  inputTokens : Option Nat
  outputTokens : Option Nat
  deriving DecidableEq, Repr

inductive EventIR where
  | started (id : ResponseId)
  | itemStarted (id : ItemId) (index : OutputIndex) (kind : OutputKind)
  | partStarted (item : ItemId) (index : ContentIndex) (kind : PartKind)
  | textDelta (item : ItemId) (index : ContentIndex) (text : String)
  | partFinished (item : ItemId) (index : ContentIndex)
  | argumentsDelta (item : ItemId) (text : String)
  | itemFinished (item : ItemId)
  | usageUpdated (usage : Usage)
  | finished (status : Terminal) (reason : Option String)
  deriving DecidableEq, Repr

structure PartState where
  isOpen : Bool
  deriving DecidableEq

structure ItemState where
  kind : OutputKind
  isOpen : Bool
  parts : OrderedMap ContentIndex PartState
  arguments : String
  deriving DecidableEq

structure EventLimits where
  maxItems : Nat := 4096
  maxParts : Nat := 16384
  maxDeltaBytes : Nat := 1024 * 1024
  maxArgumentBytes : Nat := 8 * 1024 * 1024
  deriving DecidableEq, Repr

structure EventValidator where
  started : Bool
  terminal : Option Terminal
  terminalReason : Option String
  items : OrderedMap ItemId ItemState
  indices : Finset OutputIndex
  calls : Finset CallId
  parts : Nat
  argumentBytes : Nat
  usage : Option Usage
  limits : EventLimits
  deriving DecidableEq

/-- The call id of a tool item. -/
def OutputKind.callId? : OutputKind → Option CallId
  | tool _ callId _ => some callId
  | _ => none

def OutputKind.isTool : OutputKind → Bool
  | tool _ _ _ => true
  | _ => false

def OutputKind.isFunction : OutputKind → Bool
  | tool _ _ .function => true
  | _ => false

/-- The pairs of item and part kind that `PartStarted` admits. -/
def OutputKind.holds : OutputKind → PartKind → Bool
  | message, .text => true
  | reasoning, .reasoningText => true
  | _, _ => false

namespace EventValidator

def new (limits : EventLimits) : Except IrError EventValidator := do
  rejectIf (limits.maxItems == 0 || limits.maxParts == 0 || limits.maxDeltaBytes == 0 ||
    limits.maxArgumentBytes == 0) .sizeLimit
  return {
    started := false, terminal := none, terminalReason := none, items := .empty, indices := ∅,
    calls := ∅, parts := 0, argumentBytes := 0, usage := none, limits }

def arguments (self : EventValidator) (item : ItemId) : Except IrError String := do
  let state ← okOr (self.items.get item) .unknownItem
  rejectIf (state.isOpen || !state.kind.isTool) .invalidEventOrder
  return state.arguments

abbrev Step := Method EventValidator IrError Unit

/-- A later count below an earlier one. -/
def decreases : Option Nat → Option Nat → Bool
  | some a, some b => b < a
  | _, _ => false

/-- The store through `get_mut`. -/
def setItem (item : ItemId) (state : ItemState) : Step :=
  write fun self => { self with items := self.items.insert item state }

def registerCall : OutputKind → Step
  | .tool tool callId _ => do
      check tool.validate
      let self ← read
      check (rejectIf (decide (callId ∈ self.calls)) .duplicateId)
      write fun self => { self with calls := insert callId self.calls }
  | _ => pure ()

def itemStarted (id : ItemId) (index : OutputIndex) (kind : OutputKind) : Step := do
  let self ← read
  check (rejectIf (self.limits.maxItems ≤ self.items.size) .sizeLimit)
  check (rejectIf (self.items.contains id || decide (index ∈ self.indices)) .duplicateId)
  registerCall kind
  write fun self => { self with indices := insert index self.indices }
  setItem id { kind, isOpen := true, parts := .empty, arguments := "" }

def partStarted (item : ItemId) (index : ContentIndex) (kind : PartKind) : Step := do
  let self ← read
  check (rejectIf (self.limits.maxParts ≤ self.parts) .sizeLimit)
  let state ← check (okOr (self.items.get item) .unknownItem)
  check (rejectIf (!state.isOpen || !state.kind.holds kind) .invalidEventOrder)
  check (rejectIf (state.parts.contains index) .duplicateId)
  setItem item { state with parts := state.parts.insert index { isOpen := true } }
  write fun self => { self with parts := self.parts + 1 }

/-- Text is forwarded by the caller and not accumulated. -/
def textDelta (item : ItemId) (index : ContentIndex) (text : String) : Step := do
  let self ← read
  check (rejectIf (self.limits.maxDeltaBytes < text.utf8ByteSize) .sizeLimit)
  let state ← check (okOr (self.items.get item) .unknownItem)
  check (rejectIf (!state.isOpen || !(state.parts.get index).any (·.isOpen)) .invalidEventOrder)

def partFinished (item : ItemId) (index : ContentIndex) : Step := do
  let self ← read
  let state ← check (okOr (self.items.get item) .unknownItem)
  let part ← check (okOr (state.parts.get index) .invalidEventOrder)
  check (rejectIf (!state.isOpen || !part.isOpen) .invalidEventOrder)
  setItem item { state with parts := state.parts.insert index { isOpen := false } }

def argumentsDelta (item : ItemId) (text : String) : Step := do
  let self ← read
  check (rejectIf (self.limits.maxDeltaBytes < text.utf8ByteSize ||
    self.limits.maxArgumentBytes - self.argumentBytes < text.utf8ByteSize) .sizeLimit)
  let state ← check (okOr (self.items.get item) .unknownItem)
  check (rejectIf (!state.isOpen || !state.kind.isTool) .invalidEventOrder)
  setItem item { state with arguments := state.arguments ++ text }
  write fun self => { self with argumentBytes := self.argumentBytes + text.utf8ByteSize }

def itemFinished (parsesJson : String → Bool) (item : ItemId) : Step := do
  let self ← read
  let state ← check (okOr (self.items.get item) .unknownItem)
  check (rejectIf (!state.isOpen || state.parts.values.any (·.isOpen)) .invalidEventOrder)
  check (rejectIf (state.kind.isFunction && !parsesJson state.arguments) .invalidJsonArguments)
  setItem item { state with isOpen := false }

def usageUpdated (usage : Usage) : Step := do
  let self ← read
  let previous := self.usage
  check (rejectIf (decreases (previous.bind (·.inputTokens)) usage.inputTokens)
    .invalidEventOrder)
  check (rejectIf (decreases (previous.bind (·.outputTokens)) usage.outputTokens)
    .invalidEventOrder)
  write fun self => { self with usage := some {
    inputTokens := usage.inputTokens.or (previous.bind (·.inputTokens))
    outputTokens := usage.outputTokens.or (previous.bind (·.outputTokens)) } }

def finished (status : Terminal) (reason : Option String) : Step := do
  let self ← read
  check (rejectIf (reason.any (1024 < ·.utf8ByteSize)) .sizeLimit)
  check (rejectIf (status = .completed && self.items.values.any (·.isOpen)) .invalidEventOrder)
  write fun self => { self with terminal := some status }
  write fun self => { self with terminalReason := reason }

/-- The check between the `Started` branch and all others. -/
def afterStart (branch : Step) : Step := do
  let self ← read
  check (rejectIf (!self.started) .invalidEventOrder)
  branch

def dispatch (parsesJson : String → Bool) : EventIR → Step
  | .started _ => do
      let self ← read
      check (rejectIf self.started .invalidEventOrder)
      write fun self => { self with started := true }
  | .itemStarted id index kind => afterStart (itemStarted id index kind)
  | .partStarted item index kind => afterStart (partStarted item index kind)
  | .textDelta item index text => afterStart (textDelta item index text)
  | .partFinished item index => afterStart (partFinished item index)
  | .argumentsDelta item text => afterStart (argumentsDelta item text)
  | .itemFinished item => afterStart (itemFinished parsesJson item)
  | .usageUpdated usage => afterStart (usageUpdated usage)
  | .finished status reason => afterStart (finished status reason)

def apply (parsesJson : String → Bool) (event : EventIR) : Step := do
  let self ← read
  check (rejectIf self.terminal.isSome .invalidEventOrder)
  dispatch parsesJson event

end EventValidator
end ResponseGateway.Ir
