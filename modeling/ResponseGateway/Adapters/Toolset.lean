import ResponseGateway.Adapters.Events
import ResponseGateway.Ir.Bridge

/-!
`adapters::toolset`: the registry of a request with the choice of tools it allows, and
the item that a restored call is written as.
-/

namespace ResponseGateway.Adapters
open Checked Ir Request
open Json (ofFields)

structure PreparedTools where
  registry : CustomToolBridge
  parallel : Option Bool
  choice : Option ToolChoice

namespace PreparedTools

/-- The tool that a request fixes, if it fixes one. -/
def choiceExcludes (choice : Option ToolChoice) (tool : ToolIdentity) : Bool :=
  match choice with
  | some .none => true
  | some (.named named _ _) => named ≠ tool
  | _ => false

def choiceNeeds (choice : Option ToolChoice) : Bool :=
  match choice with
  | some .required | some (.named _ _ _) => true
  | _ => false

def resolveIdentity (self : PreparedTools) (toolAlias : ToolIdentity) :
    Except IrError (ToolIdentity × ToolKind) := do
  let result ← self.registry.originalOf toolAlias
  rejectIf (choiceExcludes self.choice result.1) .invalidToolMapping
  return result

def validateCount (self : PreparedTools) (count : Nat) (completed : Bool) : Except IrError Unit :=
  rejectIf (self.parallel = some false && decide (1 < count) ||
    completed && decide (count = 0) && choiceNeeds self.choice) .invalidToolMapping

end PreparedTools

/-- The fields of an input. -/
def inputFields : ToolInput → Json.Fields
  | .json raw => [("type", .string "function_call"), ("arguments", .string raw)]
  | .freeform raw => [("type", .string "custom_tool_call"), ("input", .string raw)]

def toolOutput (call : ToolCall) (status : String) : Except (Fault IrError) Json := do
  let id ← okOr call.itemId .panic
  return ofFields ([("id", .string id.value), ("status", .string status),
      ("call_id", .string call.callId.value), ("name", .string call.tool.name)] ++
    (call.tool.namespace.map fun value => ("namespace", Json.string value)).toList ++
    inputFields call.input)

end ResponseGateway.Adapters
