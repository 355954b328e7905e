import ResponseGateway.Ir.Identity
import ResponseGateway.Library.OrderedMap

/-!
Route snapshots, the bindings made of them and opaque provider state. A binding
is compared as a whole; its checks are those of the route, of the declared
capabilities and of the reasoning contract.
-/

namespace ResponseGateway.Ir
open Checked

inductive ApiProtocol where
  | responses
  | messages
  | chatCompletions
  | geminiInteractions
  | plugin
  deriving DecidableEq, Repr

inductive Feature where
  | instructions
  | instructionHierarchy
  | images
  | functionTools
  | strictToolArguments
  | customTools
  | customGrammar
  | namespacedTools
  | structuredToolOutput
  | toolChoice
  | parallelToolControl
  | structuredOutput
  | strictStructuredOutput
  | maxOutputTokens
  | temperature
  | topP
  | reasoningEffort
  | reasoningSummary
  | reasoningItems
  | opaqueContinuation
  | extensions
  deriving DecidableEq, Repr

inductive BridgeRule where
  | codeModeTextParts
  | customToolJson
  | toolNamespace
  | codexPatchGrammar
  | registeredGrammarValidation
  | messagesInstructionEnvelope
  | geminiInstructionEnvelope
  | providerParallelPermission
  | chatInstructionEnvelope
  deriving DecidableEq, Repr

inductive Support where
  | native
  | bridged (rule : BridgeRule)
  | unsupported
  deriving DecidableEq, Repr

inductive ReasoningContract where
  | deepSeek (version : Nat) (efforts : List String) (defaultEffort : String)
  | openRouter (version : Nat) (providerEndpoint : String) (efforts : List String)
      (defaultEffort : Option String) (maxTokens : Option Nat) (formats : List String)
  | claudeAdaptive (version : Nat) (efforts : List String) (defaultEffort : String)
      (allowForcedTools : Bool)
  | claudeManual (version : Nat) (budgetTokens : Nat) (effortBudgets : List (String × Nat))
      (interleavedBeta : Bool)
  deriving DecidableEq, Repr

def knownRouterFormat (value : String) : Bool :=
  value ∈ ["unknown", "openai-responses-v1", "azure-openai-responses-v1",
    "bedrock-openai-responses-v1", "bedrock-xai-responses-v1", "xai-responses-v1",
    "meta-responses-v1", "anthropic-claude-v1", "google-gemini-v1"]

def isEndpointChar (c : Char) : Bool := c.isAlphanum || c ∈ ['-', '_', '/', '.', ':']

namespace ReasoningContract

def accepts (api : ApiProtocol) : ReasoningContract → Bool
  | deepSeek 1 efforts defaultEffort =>
      api = .chatCompletions && !efforts.isEmpty && efforts.contains defaultEffort &&
        efforts.all (· ∈ ["low", "high", "max"])
  | openRouter 1 providerEndpoint efforts defaultEffort maxTokens formats =>
      api = .chatCompletions && providerEndpoint.toList.contains '/' &&
        decide (providerEndpoint.utf8ByteSize ≤ 128) &&
        providerEndpoint.toList.all isEndpointChar && !formats.isEmpty &&
        formats.all knownRouterFormat &&
        match maxTokens with
        | some n => decide (0 < n) && efforts.isEmpty && defaultEffort.isNone
        | none => !efforts.isEmpty && defaultEffort.any efforts.contains &&
            efforts.all (· ∈ ["minimal", "low", "medium", "high", "xhigh", "max"])
  | claudeAdaptive 1 efforts defaultEffort _ =>
      api = .messages && !efforts.isEmpty && efforts.contains defaultEffort &&
        efforts.all (· ∈ ["low", "medium", "high", "xhigh", "max"])
  | claudeManual 1 budgetTokens effortBudgets _ =>
      api = .messages && decide (1024 ≤ budgetTokens) &&
        effortBudgets.all fun (effort, budget) =>
          effort ∈ ["low", "medium", "high", "xhigh", "max"] && decide (1024 ≤ budget)
  | _ => false

def validate (contract : ReasoningContract) (api : ApiProtocol) : Except IrError Unit :=
  rejectIf (!contract.accepts api) .unsupportedFeature

def isDeepSeek : ReasoningContract → Bool
  | deepSeek _ _ _ => true
  | _ => false

end ReasoningContract

/-- The support table is a map; here it is its entries in feature order. -/
structure CapabilityProfile where
  reasoningContract : Option ReasoningContract
  id : String
  version : String
  protocol : ApiProtocol
  support : List (Feature × Support)
  deriving DecidableEq, Repr

namespace CapabilityProfile

def supportOf (profile : CapabilityProfile) (feature : Feature) : Support :=
  ((profile.support.find? (·.1 = feature)).map (·.2)).getD .unsupported

/-- The bridges the profile may declare for a feature. -/
def bridgeAllowed (profile : CapabilityProfile) (feature : Feature) : Support → Bool
  | .bridged .chatInstructionEnvelope =>
      feature = .instructionHierarchy && profile.protocol = .chatCompletions
  | .bridged .providerParallelPermission =>
      feature = .parallelToolControl && profile.protocol = .chatCompletions &&
        profile.reasoningContract.any (·.isDeepSeek)
  | .bridged .codeModeTextParts => feature = .structuredToolOutput
  | .bridged .customToolJson => feature = .customTools
  | .bridged .toolNamespace => feature = .namespacedTools
  | .bridged .codexPatchGrammar => feature = .customGrammar
  | .bridged .registeredGrammarValidation =>
      feature = .customGrammar && profile.protocol = .responses &&
        profile.supportOf .customTools = .native
  | .bridged .geminiInstructionEnvelope =>
      feature = .instructionHierarchy && profile.protocol = .geminiInteractions
  | .bridged .messagesInstructionEnvelope =>
      feature = .instructionHierarchy && profile.protocol = .messages
  | .native | .unsupported => true

def validate (profile : CapabilityProfile) : Except IrError Unit := do
  rejectIf (profile.id.isEmpty || profile.version.isEmpty) (.invalidField "capability_profile")
  match profile.reasoningContract with
  | some contract =>
      contract.validate profile.protocol
      rejectIf (profile.supportOf .reasoningSummary ≠ .native ||
        profile.supportOf .reasoningItems ≠ .native) .unsupportedFeature
  | none => pure ()
  rejectIf (!profile.support.all fun (feature, support) => profile.bridgeAllowed feature support)
    .unsupportedFeature

end CapabilityProfile

structure RouteSnapshot where
  providerId : String
  model : String
  api : ApiProtocol
  credentialBinding : String
  adapterVersion : String
  capabilities : CapabilityProfile
  contextWindow : Option Nat
  maxOutputTokens : Option Nat
  deriving DecidableEq, Repr

def RouteSnapshot.validate (route : RouteSnapshot) : Except IrError Unit := do
  rejectIf (!([route.providerId, route.model, route.credentialBinding,
    route.adapterVersion].all isIdentifier)) .invalidIdentifier
  route.capabilities.validate
  rejectIf (route.api ≠ route.capabilities.protocol) .wrongProtocol
  rejectIf (route.contextWindow = some 0 || route.maxOutputTokens = some 0)
    (.invalidField "route_limits")

structure ContinuityBinding where
  route : RouteSnapshot
  scope : String
  deriving DecidableEq, Repr

def ContinuityBinding.validate (binding : ContinuityBinding) : Except IrError Unit := do
  binding.route.validate
  rejectIf (!isIdentifier binding.scope) .invalidIdentifier

structure OpaqueState where
  binding : ContinuityBinding
  format : String
  bytes : ByteArray
  deriving DecidableEq

namespace OpaqueState

def new (binding : ContinuityBinding) (format : String) (bytes : ByteArray) :
    Except IrError OpaqueState := do
  binding.validate
  rejectIf (format.isEmpty || format.utf8ByteSize > 128 || format.toList.any isControl)
    (.invalidField "opaque_format")
  rejectIf (bytes.size == 0 || bytes.size > 8 * 1024 * 1024) .sizeLimit
  return { binding, format, bytes }

def replay (state : OpaqueState) (target : ContinuityBinding) (format : String) :
    Except IrError ByteArray := do
  target.validate
  rejectIf (target ≠ state.binding || format ≠ state.format) .continuityMismatch
  return state.bytes

/-- State replays for the binding and format it was made with. -/
theorem replay_of_new {binding : ContinuityBinding} {format : String} {bytes : ByteArray}
    {state : OpaqueState} (h : new binding format bytes = .ok state) :
    state.replay binding format = .ok bytes := by
  simp only [new, bind_ok, pure_ok] at h
  obtain ⟨_, hbinding, _, -, _, -, rfl⟩ := h
  simp [replay, hbinding]

end OpaqueState
end ResponseGateway.Ir
