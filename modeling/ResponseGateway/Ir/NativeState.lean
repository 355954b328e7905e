import ResponseGateway.Ir.Digest
import ResponseGateway.Library.Checked

/-!
`ir::continuity`: the native state a provider needs back on the next turn. Built-in
adapters keep JSON in the form of their API; a provider plugin keeps opaque bytes
bound to the exact package that made them. Version numbers are not computed with,
so their width plays no part.
-/

namespace ResponseGateway.Ir
open Checked

inductive Outcome where
  | completed
  | awaitingTools
  deriving DecidableEq, Repr

inductive ChatDialect where
  | deepSeek
  | openRouter
  deriving DecidableEq, Repr

inductive NativeReplay where
  | gemini (version : Nat) (steps : List Json)
  | chat (version : Nat) (dialect : ChatDialect) (assistant controls : Json)
  | messages (version : Nat) (blocks : List Json) (controls : Json)
  deriving DecidableEq, Repr

namespace NativeReplay

def accepted : NativeReplay → Bool
  | gemini 1 steps => !steps.isEmpty
  | chat 1 _ assistant controls => assistant.isObject && controls.isObject
  | messages 1 blocks controls => !blocks.isEmpty && controls.isObject
  | _ => false

def validate (native : NativeReplay) : Except IrError Unit :=
  rejectIf (!native.accepted) .continuityMismatch

end NativeReplay

section ProviderState

def providerProtocol : String := "gateway-provider/v1"

/-- `split_once("/v")`. -/
def splitVersion : Text → Option (Text × Text)
  | [] => none
  | '/' :: 'v' :: rest => some ([], rest)
  | c :: rest => (splitVersion rest).map fun (name, version) => (c :: name, version)

def isDottedName (c : Char) : Bool :=
  c.isLower || c.isDigit || c = '.' || c = '_' || c = '-'

def validProviderProtocol (value : String) : Bool :=
  (splitVersion value.toList).any fun (name, version) =>
    decide (1 ≤ name.len ∧ name.len ≤ 64) && name.head?.any Char.isLower &&
      name.all isDottedName && decide (1 ≤ version.len ∧ version.len ≤ 6) &&
      version.head?.any (fun c => '1' ≤ c && c ≤ '9') && version.all Char.isDigit

def isSha256 (value : String) : Bool :=
  value.utf8ByteSize = 64 && value.toList.all isLowerHex

/-- One of the three parts of a version. -/
def isVersionPart (part : Text) : Bool :=
  !part.isEmpty && decide (part.len ≤ 6) && part.all Char.isDigit &&
    !(decide (1 < part.len) && part.head? = some '0')

structure ProviderStateBinding where
  protocol : String
  providerProtocol : String
  id : String
  version : String
  packageSha256 : String
  executableSha256 : String
  deriving DecidableEq, Repr

def ProviderStateBinding.validate (binding : ProviderStateBinding) : Except IrError Unit :=
  let parts := binding.version.toList.splitOn '.'
  rejectIf (binding.protocol ≠ Ir.providerProtocol ||
    !validProviderProtocol binding.providerProtocol || binding.id.isEmpty ||
    binding.id.utf8ByteSize > 64 || !binding.id.toList.head?.any Char.isLower ||
    !binding.id.toList.all (fun c => c.isLower || c.isDigit || c = '-') ||
    parts.length ≠ 3 || !parts.all isVersionPart || !isSha256 binding.packageSha256 ||
    !isSha256 binding.executableSha256) .continuityMismatch

structure ProviderNativeState where
  binding : ProviderStateBinding
  format : String
  version : Nat
  bytes : ByteArray
  deriving DecidableEq

namespace ProviderNativeState

def maxBytes : Nat := 1024 * 1024

def new (binding : ProviderStateBinding) (format : String) (version : Nat) (bytes : ByteArray) :
    Except IrError ProviderNativeState := do
  binding.validate
  rejectIf (format.isEmpty || format.utf8ByteSize > 64 ||
    !format.toList.head?.any Char.isLower || !format.toList.all isDottedName || version == 0 ||
    bytes.size > maxBytes) .continuityMismatch
  return { binding, format, version, bytes }

theorem new_eq {binding : ProviderStateBinding} {format : String} {version : Nat}
    {bytes : ByteArray} {state : ProviderNativeState}
    (h : new binding format version bytes = .ok state) :
    state = { binding, format, version, bytes } := by
  simp only [new, bind_ok, pure_ok] at h
  obtain ⟨_, -, _, -, rfl⟩ := h
  rfl

end ProviderNativeState

end ProviderState

inductive NativeState where
  | builtin (native : NativeReplay)
  | provider (state : ProviderNativeState)
  deriving DecidableEq

/-- Replay spans by their start in the input: the end of each and its native state. -/
structure VerifiedProviderHistory where
  segments : OrderedMap Nat (Nat × NativeState)

def VerifiedProviderHistory.default : VerifiedProviderHistory := ⟨.empty⟩

end ResponseGateway.Ir
