import ResponseGateway.Ir.BridgeRegistry

/-!
The bridge as a correspondence of identities, and the calls of `expect` that its
construction cannot reach.
-/

namespace ResponseGateway.Ir
open Checked Json Request Editing

namespace CustomToolBridge

variable {sha256 : String → Digest} {flags : BuildFlags} {policy : Option Policy}
  {tools exposed synthetic : List ToolDefinition} {bridge : CustomToolBridge}

/-- The declared tools, their aliases and the exposed definitions correspond. -/
structure Correspondence (sha256 : String → Digest) (flags : BuildFlags) (policy : Option Policy)
    (tools : List ToolDefinition) (bridge : CustomToolBridge) : Prop where
  keys : ∀ t, (∃ a, bridge.forward.get t = some a) ↔ t ∈ (leavesOf tools).map (·.identity)
  injective : ∀ t t' a, bridge.forward.get t = some a → bridge.forward.get t' = some a → t = t'
  restores : ∀ leaf ∈ leavesOf tools, ∃ a b, bridge.forward.get leaf.identity = some a ∧
    bridge.reverse.get a = some b ∧ b.original = leaf.identity ∧
    leafGrammar sha256 flags.codeMode leaf = .ok b.grammar
  others : ∀ a b, bridge.reverse.get a = some b → bridge.forward.get b.original = some a ∨
    (∀ t, bridge.forward.get t ≠ some a) ∧ b.original ∈ (leavesOf tools).map (·.identity) ∧
      ∃ p, policy = some p ∧ b.structured = some p.representation ∧
        a = ⟨none, editName sha256 p b.original⟩
  renamed : ∀ t a, bridge.forward.get t = some a → a ≠ t →
    ∀ leaf ∈ leavesOf tools, a.name ≠ leaf.identity.name
  definitions : ∃ exposed synthetic, bridge.definitions = exposed ++ synthetic ∧
    Grouped flags tools exposed ∧
    (leavesOf exposed).map (fun d => some d.identity) =
      (leavesOf tools).map (fun leaf => bridge.forward.get leaf.identity) ∧
    (∀ d ∈ synthetic, d.isGroup = false) ∧
    ∀ a, a ∈ synthetic.map (·.identity) ↔
      (∃ b, bridge.reverse.get a = some b) ∧ ∀ t, bridge.forward.get t ≠ some a
  distinct : ((leavesOf bridge.definitions).map (·.identity)).Nodup

theorem leavesOf_append (l m : List ToolDefinition) : leavesOf (l ++ m) = leavesOf l ++ leavesOf m :=
  List.flatMap_append

namespace Invariant

/-- The alias of a definition that was added is not in the range of `forward`. -/
theorem synthetic_range (hinv : bridge.Invariant sha256 flags policy tools exposed synthetic)
    {d : ToolDefinition} (hd : d ∈ synthetic) : ∀ t, bridge.forward.get t ≠ some d.identity := by
  obtain ⟨b, hb, hstructured⟩ := hinv.synthetic_keys d hd
  rcases hinv.reverse _ b hb with hplain | ⟨hrange, -⟩
  · exact absurd hplain.2 hstructured
  · exact hrange

theorem synthetic_iff (hinv : bridge.Invariant sha256 flags policy tools exposed synthetic)
    (a : ToolIdentity) : a ∈ synthetic.map (·.identity) ↔
      (∃ b, bridge.reverse.get a = some b) ∧ ∀ t, bridge.forward.get t ≠ some a := by
  constructor
  · intro hmem
    obtain ⟨d, hd, rfl⟩ := List.mem_map.1 hmem
    obtain ⟨b, hb, -⟩ := hinv.synthetic_keys d hd
    exact ⟨⟨b, hb⟩, hinv.synthetic_range hd⟩
  · rintro ⟨⟨b, hb⟩, hrange⟩
    rcases hinv.reverse a b hb with hplain | ⟨-, hmem, -⟩
    · exact absurd hplain.1 (hrange _)
    · exact hmem

theorem forward_nodup (hinv : bridge.Invariant sha256 flags policy tools exposed synthetic) :
    ((leavesOf tools).map fun leaf => bridge.forward.get leaf.identity).Nodup := by
  have hmap := List.Nodup.map_on (f := bridge.forward.get) (fun t ht t' _ heq => by
    obtain ⟨a, ha⟩ := (hinv.keys t).2 ht
    exact hinv.injective t t' a ha (heq ▸ ha)) hinv.nodup
  rwa [List.map_map] at hmap

theorem distinct (hinv : bridge.Invariant sha256 flags policy tools exposed synthetic) :
    ((leavesOf bridge.definitions).map (·.identity)).Nodup := by
  rw [hinv.definitions, leavesOf_append, leavesOf_of_leaves hinv.synthetic_leaves, List.map_append]
  have hexposed : ((leavesOf exposed).map (·.identity)).Nodup := by
    refine List.Nodup.of_map some ?_
    rw [List.map_map]
    exact hinv.identities ▸ hinv.forward_nodup
  refine hexposed.append hinv.synthetic_nodup ?_
  intro a ha ha'
  obtain ⟨d, hd, rfl⟩ := List.mem_map.1 ha'
  have hsome : some d.identity ∈ (leavesOf exposed).map (fun d => some d.identity) := by
    obtain ⟨e, he, heq⟩ := List.mem_map.1 ha
    exact List.mem_map.2 ⟨e, he, congrArg some heq⟩
  rw [hinv.identities] at hsome
  obtain ⟨leaf, -, hleaf⟩ := List.mem_map.1 hsome
  exact hinv.synthetic_range hd _ hleaf

end Invariant

/-- Every bridge that `build` and `with_editing` return is such a correspondence. -/
theorem bridge_correspondence (sha256 : String → Digest) (tools : List ToolDefinition)
    (flags : BuildFlags) (policy : Option Policy) (request : RequestIR) (wanted : Bool)
    (built bridge : CustomToolBridge) (hbuild : build sha256 tools flags = .ok built)
    (hediting : built.withEditing sha256 policy request wanted = .ok bridge) :
    bridge.Correspondence sha256 flags policy tools := by
  obtain ⟨exposed, hbuilt⟩ := invariant_build policy hbuild
  obtain ⟨synthetic, hinv⟩ := invariant_withEditing hbuilt hediting
  constructor
  case keys => exact hinv.keys
  case injective => exact hinv.injective
  case restores =>
    intro leaf hleaf
    obtain ⟨a, b, ha, hb, horiginal, -, hgrammar⟩ := hinv.bindings leaf hleaf
    exact ⟨a, b, ha, hb, horiginal, hgrammar⟩
  case others =>
    intro a b hb
    rcases hinv.reverse a b hb with hplain | ⟨hrange, -, p, halt⟩
    · exact .inl hplain.1
    · obtain ⟨a', b', ha', -⟩ := halt.original
      exact .inr ⟨hrange, (hinv.keys _).1 ⟨a', ha'⟩, p, halt.policy, halt.representation, halt.name⟩
  case renamed =>
    intro t a ha hne leaf hleaf heq
    rcases hinv.renamed t a ha with hsame | hnew
    · exact hne hsame
    · exact hnew (List.mem_map.2 ⟨leaf, hleaf, heq.symm⟩)
  case definitions =>
    exact ⟨exposed, synthetic, hinv.definitions, hinv.grouped, hinv.identities,
      hinv.synthetic_leaves, hinv.synthetic_iff⟩
  case distinct => exact hinv.distinct

section Sample

/-- The text of the pinned patch grammar. -/
def patchGrammarText : String :=
  "s" ++ ("tart: begin_patch hunk+ end_patch\n" ++
    "begin_patch: \"*** Begin Patch\" LF\n" ++
    "end_patch: \"*** End Patch\" LF?\n\n" ++
    "hunk: add_hunk | delete_hunk | update_hunk\n" ++
    "add_hunk: \"*** Add File: \" filename LF add_line+\n" ++
    "delete_hunk: \"*** Delete File: \" filename LF\n" ++
    "update_hunk: \"*** Update File: \" filename LF change_move? change?\n\n" ++
    "filename: /(.+)/\n" ++
    "add_line: \"+\" /(.*)/ LF -> line\n\n" ++
    "change_move: \"*** Move to: \" filename LF\n" ++
    "change: (change_context | change_line)+ eof_line?\n" ++
    "change_context: (\"@@\" | \"@@ \" /(.+)/) LF\n" ++
    "change_line: (\"+\" | \"-\" | \" \") /(.*)/ LF\n" ++
    "eof_line: \"*** End of File\" LF\n\n" ++
    "%import common.LF\n")

def patchFormat : Json :=
  .object [("definition", .string patchGrammarText), ("syntax", .string "lark"),
    ("type", .string "grammar")]

/-- The patch tool as a client declares it. -/
def patchTool : ToolDefinition where
  identity := ⟨none, "apply_patch"⟩
  description := none
  kind := .custom (some patchFormat)
  extensions := .responses

def linesPolicy : Policy where
  version := 1
  clientContract := .direct
  representation := .contextLines
  patchDialect := .codexPatch
  normalization := .none
  clientDescriptorSha256 := none

def patchRequest : RequestIR where
  version := Request.version
  source := .responses
  model := "m"
  instructions := none
  input := none
  tools := some [patchTool]
  generation := {
    stream := none, maxOutputTokens := none, temperature := none, topP := none,
    parallelToolCalls := none, toolChoice := none, output := none, reasoning := none }
  extensions := .responses

/-- SHA-256 of the serialized policy with the patch tool. -/
def linesPolicyDigest : Digest := #v[
    0x0d, 0x94, 0xa4, 0x0a, 0x22, 0xdd, 0x77, 0x60, 0x68, 0x99, 0x7c, 0x2c, 0xcf, 0xb4, 0xbf, 0x53,
    0xc2, 0x3b, 0xd1, 0xe8, 0x48, 0xc6, 0xca, 0xc4, 0xcf, 0x23, 0x9f, 0x38, 0x7c, 0xe5, 0x6f, 0x2a]

/-- SHA-256 on the two texts that a bridge for `patchTool` and `linesPolicy` digests. -/
def patchSha256 (text : String) : Digest :=
  if text = patchGrammarText then patchGrammarSha256 else linesPolicyDigest

def nativeFlags : BuildFlags where
  wrapCustom := false
  flattenNamespaces := false
  stripGrammar := false
  codeMode := false

def patchBridge : CustomToolBridge where
  codeMode := false
  forward := OrderedMap.empty.insert patchTool.identity patchTool.identity
  reverse := OrderedMap.empty.insert patchTool.identity
    ⟨false, none, patchTool.identity, some .codexPatchV1, false⟩
  definitions := [patchTool]
  normalized := .empty

def linesAlias : ToolIdentity := ⟨none, "arg_edit_0d94a40a22dd776068997c2ccfb4bf53"⟩

def linesBridge : CustomToolBridge :=
  { patchBridge with
    definitions := [patchTool, {
      identity := linesAlias, description := some (editDescription .contextLines)
      kind := .function (some ContextEdit.schema) none, extensions := .responses }]
    reverse := patchBridge.reverse.insert linesAlias
      ⟨false, some .contextLines, patchTool.identity, some .codexPatchV1, true⟩ }

theorem patchSha256_grammar : patchSha256 patchGrammarText = patchGrammarSha256 := if_pos rfl

theorem leafGrammar_patchTool {sha256 : String → Digest}
    (h : sha256 patchGrammarText = patchGrammarSha256) :
    leafGrammar sha256 false patchTool = .ok (some .codexPatchV1) := by
  have hfields : patchFormat.asObject = some [("definition", .string patchGrammarText),
    ("syntax", .string "lark"), ("type", .string "grammar")] := rfl
  have htype : patchFormat.fieldStr "type" = some "grammar" := rfl
  have hlark : patchFormat.fieldStr "syntax" = some "lark" := rfl
  have hdefinition : patchFormat.fieldStr "definition" = some patchGrammarText := rfl
  have hformat : Grammar.fromFormatForContract sha256 (some patchFormat) false =
      .ok .codexPatchV1 := by
    simp [Grammar.fromFormatForContract, hfields, htype, hlark, hdefinition, h]
  rw [leafGrammar, patchTool]
  simp only [hformat, bind_of_ok]
  rfl

theorem build_patchTool {sha256 : String → Digest}
    (h : sha256 patchGrammarText = patchGrammarSha256) :
    build sha256 [patchTool] nativeFlags = .ok patchBridge := by
  have hadd : addLeaf sha256 nativeFlags
      { occupied := ["apply_patch"], sequence := 0, forward := .empty, reverse := .empty,
        definitions := [] } patchTool = .ok
      { occupied := ["apply_patch"], sequence := 0, forward := patchBridge.forward,
        reverse := patchBridge.reverse, definitions := [patchTool] } := by
    rw [addLeaf]
    simp only [show nativeFlags.codeMode = false from rfl, leafGrammar_patchTool h]
    rfl
  have hleaves : collectLeaves nativeFlags.flattenNamespaces [] [patchTool] = .ok [patchTool] := rfl
  rw [build, hleaves, lift_of_ok, bind_of_ok, List.foldlM_cons]
  simp only [List.map_cons, List.map_nil]
  rw [show patchTool.identity.name = "apply_patch" from rfl, hadd]
  rfl

theorem editName_patchTool :
    editName patchSha256 linesPolicy patchTool.identity = linesAlias.name := by
  have hother : renderText (.array [optionalText patchTool.identity.namespace,
      .string patchTool.identity.name, linesPolicy.toJson]) ≠ patchGrammarText := by
    intro heq
    have htext := congrArg String.toList heq
    rw [renderText, String.toList_ofList, patchGrammarText, String.toList_append] at htext
    exact absurd (congrArg List.head? htext) (by decide)
  rw [editName, patchSha256, if_neg hother]
  decide

theorem withEditing_patchBridge {sha256 : String → Digest}
    (h : editName sha256 linesPolicy patchTool.identity = linesAlias.name) :
    patchBridge.withEditing sha256 (some linesPolicy) patchRequest true = .ok linesBridge := by
  have hselect : patchBridge.forward.entries.mapM
      (patchBridge.selectOriginal sha256 linesPolicy patchRequest) =
      .ok [some patchTool.identity] := rfl
  have hadd : addAlternative sha256 linesPolicy patchBridge patchTool.identity = .ok linesBridge := by
    rw [addAlternative]
    simp only [h]
    rfl
  have hvalid : linesPolicy.validate = .ok () := rfl
  have hadds : addAlternatives sha256 linesPolicy patchRequest true [patchTool.identity] patchBridge =
      .ok linesBridge := by
    rw [addAlternatives, if_neg (by decide), List.foldlM_cons, hadd]
    rfl
  rw [withEditing]
  simp only [hvalid, hselect, lift_of_ok, bind_of_ok]
  exact congrArg lift hadds

theorem bridge_correspondence_patchTool :
    build patchSha256 [patchTool] nativeFlags = .ok patchBridge ∧
      patchBridge.withEditing patchSha256 (some linesPolicy) patchRequest true = .ok linesBridge ∧
      linesBridge.Correspondence patchSha256 nativeFlags (some linesPolicy) [patchTool] := by
  have hbuild := build_patchTool patchSha256_grammar
  have hediting := withEditing_patchBridge editName_patchTool
  exact ⟨hbuild, hediting, bridge_correspondence patchSha256 [patchTool] nativeFlags
    (some linesPolicy) patchRequest true patchBridge linesBridge hbuild hediting⟩

end Sample

end CustomToolBridge
end ResponseGateway.Ir
