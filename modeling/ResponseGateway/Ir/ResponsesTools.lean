import ResponseGateway.Ir.ResponsesItems

/-!
Round trips of tools, tool choices and generation options. A member of a
namespace is decoded without a namespace of its own, carries the name of its
group in the representation, and is encoded with that field and then without it.
-/

namespace ResponseGateway.Ir.Responses
open Checked Json Request Assoc

section Tools

variable {whole fields rest : Fields} {value : Json}

/-- The fields a tool has lost after its common part was read. -/
abbrev toolTaken (tag : String) (identity : ToolIdentity) (description : Option String) :
    List (String × Option Json) :=
  [("description", description.map .string), ("name", some (.string identity.name)),
    ("namespace", identity.namespace.map .string), ("type", some (.string tag))]

theorem decodeToolWith_ok
    {decodeKind : String → ToolIdentity → Fields →
      Except IrError (ToolDefinitionKind ToolDefinition × Fields)}
    {tool : ToolDefinition} (hv : value.Canonical)
    (h : decodeToolWith decodeKind value = .ok tool) :
    ∃ whole tag fields rest, value = .object whole ∧
      Split whole fields (toolTaken tag tool.identity tool.description) ∧
      decodeKind tag tool.identity fields = .ok (tool.kind, rest) ∧ tool.extensions = ext rest := by
  obtain ⟨whole, hwhole, h⟩ := bind_ok.1 h
  obtain ⟨⟨tag, f₁⟩, htag, h⟩ := bind_ok.1 h
  obtain ⟨⟨identity, f₂⟩, hidentity, h⟩ := bind_ok.1 h
  obtain ⟨⟨description, f₃⟩, hdescription, h⟩ := bind_ok.1 h
  obtain ⟨⟨kind, f₄⟩, hkind, h⟩ := bind_ok.1 h
  cases h
  rw [object_ok] at hwhole
  subst hwhole
  have hs := required_split (Split.refl hv.sorted) rfl htag
  have hs := toolIdentity_split hs rfl rfl hidentity
  have hs := string_split hs rfl hdescription
  exact ⟨whole, tag, f₃, f₄, rfl, hs, hkind, rfl⟩

/-- What a leaf kind takes, and its tag. -/
theorem decodeLeafKind_split {tag : String} {kind : ToolDefinitionKind ToolDefinition}
    {taken : List (String × Option Json)} (hs : Split whole fields taken)
    (hparameters : pick "parameters" taken = none) (hstrict : pick "strict" taken = none)
    (hformat : pick "format" taken = none) (h : decodeLeafKind tag fields = .ok (kind, rest)) :
    (tag = "function" ∧ ∃ parameters strict, kind = .function parameters strict ∧
      Split whole rest (("strict", strict.map .bool) :: ("parameters", parameters) :: taken)) ∨
    (tag = "custom" ∧ ∃ format, kind = .custom format ∧
      Split whole rest (("format", format) :: taken)) := by
  unfold decodeLeafKind at h
  split at h
  · rcases htake : take fields "parameters" with ⟨parameters, f₁⟩
    rw [htake] at h
    obtain ⟨⟨strict, f₂⟩, hbool, h⟩ := bind_ok.1 h
    cases h
    have hs := (take_split hs hparameters htake).1
    refine .inl ⟨rfl, parameters, strict, rfl, boolean_split hs ?_ hbool⟩
    rw [pick_cons, if_neg (by decide), hstrict]
  · rcases htake : take fields "format" with ⟨format, f₁⟩
    rw [htake] at h
    cases h
    exact .inr ⟨rfl, format, rfl, (take_split hs hformat htake).1⟩
  · cases h

theorem encodeTool_decodeLeaf {tag : String} {tool : ToolDefinition}
    (hs : Split whole fields (toolTaken tag tool.identity tool.description))
    (hkind : decodeLeafKind tag fields = .ok (tool.kind, rest)) (hext : tool.extensions = ext rest) :
    encodeTool tool = .ok (.object whole) := by
  obtain ⟨identity, description, kind, extensions⟩ := tool
  cases hext
  rcases decodeLeafKind_split hs rfl rfl rfl hkind with
    ⟨rfl, parameters, strict, rfl, hs⟩ | ⟨rfl, format, rfl, hs⟩
  · rw [encodeTool]
    exact putTool_bind hs rfl rfl fun _ hs => optional_bind hs rfl fun _ hs =>
      put_bind hs rfl fun _ hs => optional_bind hs rfl fun _ hs =>
      optional_bind hs rfl fun _ hs => finish hs rfl
  · rw [encodeTool]
    exact putTool_bind hs rfl rfl fun _ hs => optional_bind hs rfl fun _ hs =>
      put_bind hs rfl fun _ hs => optional_bind hs rfl fun _ hs => finish hs rfl

/-- A member of a namespace is encoded with the name of its group, and loses it. -/
theorem encodeChild_decodeChild {group : String} {tool : ToolDefinition} (hv : value.Canonical)
    (h : decodeChild group value = .ok tool) :
    ∃ child, encodeTool tool = .ok child ∧ withoutNamespace child = value := by
  obtain ⟨_, hreject, h⟩ := bind_ok.1 h
  obtain ⟨child, hchild, hdone⟩ := bind_ok.1 h
  cases hdone
  obtain ⟨identity, description, kind, extensions⟩ := child
  obtain ⟨whole, tag, f₁, f₂, rfl, hs, hkind, hext⟩ := decodeToolWith_ok hv hchild
  have habsent : get "namespace" whole = none := by
    simp only [rejectIf_ok, Bool.or_eq_false_iff] at hreject
    simpa [field, asObject] using hreject.2
  have hback : withoutNamespace (.object (insert "namespace" (.string group) whole)) =
      .object whole := by
    rw [withoutNamespace, erase_insert_self _ _ hv.sorted, erase_of_get_none habsent]
  refine ⟨_, ?_, hback⟩
  dsimp only at hs hkind hext
  subst hext
  rcases decodeLeafKind_split hs rfl rfl rfl hkind with
    ⟨rfl, parameters, strict, rfl, hs⟩ | ⟨rfl, format, rfl, hs⟩
  · have hs := hs.add (.string group) habsent
    rw [encodeTool]
    exact putTool_bind hs rfl rfl fun _ hs => optional_bind hs rfl fun _ hs =>
      put_bind hs rfl fun _ hs => optional_bind hs rfl fun _ hs =>
      optional_bind hs rfl fun _ hs => finish hs rfl
  · have hs := hs.add (.string group) habsent
    rw [encodeTool]
    exact putTool_bind hs rfl rfl fun _ hs => optional_bind hs rfl fun _ hs =>
      put_bind hs rfl fun _ hs => optional_bind hs rfl fun _ hs => finish hs rfl

theorem encodeChildren_decodeChildren {group : String} {items : List Json}
    {tools : List ToolDefinition} (hv : ∀ item ∈ items, item.Canonical)
    (h : items.mapM (decodeChild group) = .ok tools) : encodeChildren tools = .ok items := by
  induction items generalizing tools with
  | nil =>
      rw [List.mapM_nil] at h
      cases h
      rfl
  | cons item items ih =>
      rw [List.mapM_cons] at h
      obtain ⟨tool, htool, h⟩ := bind_ok.1 h
      obtain ⟨rest, hrest, h⟩ := bind_ok.1 h
      cases h
      obtain ⟨child, hchild, hback⟩ := encodeChild_decodeChild (hv item (by simp)) htool
      rw [encodeChildren, hchild, bind_of_ok, ih (fun i hi => hv i (by simp [hi])) hrest,
        bind_of_ok, hback]
      rfl

theorem encodeTool_decodeTool {tool : ToolDefinition} (hv : value.Canonical)
    (h : decodeTool value = .ok tool) : encodeTool tool = .ok value := by
  obtain ⟨whole, tag, f₁, f₂, rfl, hs, hkind, hext⟩ := decodeToolWith_ok hv h
  unfold decodeKind at hkind
  split at hkind
  · obtain ⟨identity, description, kind, extensions⟩ := tool
    obtain ⟨_, -, hkind⟩ := bind_ok.1 hkind
    obtain ⟨⟨children, f₃⟩, hchildren, hkind⟩ := bind_ok.1 hkind
    obtain ⟨items, hitems, hkind⟩ := bind_ok.1 hkind
    obtain ⟨tools, htools, hkind⟩ := bind_ok.1 hkind
    cases hkind
    cases hext
    obtain ⟨hs, hget⟩ := remove_split hs rfl hchildren
    rw [array_ok] at hitems
    subst hitems
    have hback := encodeChildren_decodeChildren (fun item hitem => (hv.get hget).items hitem) htools
    rw [encodeTool]
    refine putTool_bind hs rfl rfl fun _ hs => optional_bind hs rfl fun _ hs =>
      put_bind hs rfl fun _ hs => ?_
    rw [hback]
    exact put_bind hs rfl fun _ hs => finish hs rfl
  · exact encodeTool_decodeLeaf hs hkind hext

theorem encodeTools_decodeTools {tools : List ToolDefinition} (hv : value.Canonical)
    (h : decodeTools value = .ok tools) : encodeTools tools = .ok value := by
  obtain ⟨items, hitems, h⟩ := bind_ok.1 h
  rw [array_ok] at hitems
  subst hitems
  have hback := mapM_inverse (f := id) h
    fun item hmem tool htool => encodeTool_decodeTool (hv.items hmem) htool
  rw [encodeTools, hback, List.map_id]
  rfl

end Tools

section Options

variable {value : Json}

theorem toolKindName_of_named {name : String} {kind : ToolKind}
    (h : toolKindNamed name = some kind) : name = toolKindName kind := by
  unfold toolKindNamed at h
  split at h <;> cases h <;> rfl

theorem encodeChoice_decodeChoice {choice : ToolChoice} (hv : value.Canonical)
    (h : decodeChoice value = .ok choice) : encodeChoice choice = .ok value := by
  unfold decodeChoice at h
  split at h
  · cases h
    rfl
  · cases h
    rfl
  · cases h
    rfl
  · next whole =>
      split at h
      · next kind hkind =>
          obtain ⟨⟨tool, f₁⟩, htool, h⟩ := bind_ok.1 h
          cases h
          obtain ⟨name, hname, hnamed⟩ := Option.bind_eq_some_iff.1 hkind
          obtain ⟨tag, htag, hstr⟩ := Option.bind_eq_some_iff.1 hname
          rw [asStr_eq_some] at hstr
          subst hstr
          obtain rfl := toolKindName_of_named hnamed
          have hs := (Split.refl hv.sorted).remove (k := "type") rfl htag
          have hs := toolIdentity_split hs rfl rfl htool
          exact putTool_bind hs rfl rfl fun _ hs => put_bind hs rfl fun _ hs => finish hs rfl
      · cases h
        rfl
  · cases h
    rfl

theorem encodeFormat_decodeFormat {format : OutputFormat} (hv : value.Canonical)
    (h : decodeFormat value = .ok format) : encodeFormat format = .ok value := by
  obtain ⟨whole, hwhole, h⟩ := bind_ok.1 h
  obtain ⟨⟨tag, f₁⟩, htag, h⟩ := bind_ok.1 h
  rw [object_ok] at hwhole
  subst hwhole
  have hs := required_split (Split.refl hv.sorted) rfl htag
  dsimp only at h
  split at h
  · cases h
    exact put_bind hs rfl fun _ hs => finish hs rfl
  · cases h
    exact put_bind hs rfl fun _ hs => finish hs rfl
  · obtain ⟨⟨name, f₂⟩, hname, h⟩ := bind_ok.1 h
    obtain ⟨⟨schema, f₃⟩, hschema, h⟩ := bind_ok.1 h
    obtain ⟨⟨strict, f₄⟩, hstrict, h⟩ := bind_ok.1 h
    cases h
    have hs := required_split hs rfl hname
    obtain ⟨hs, -⟩ := remove_split hs rfl hschema
    have hs := boolean_split hs rfl hstrict
    exact put_bind hs rfl fun _ hs => put_bind hs rfl fun _ hs => optional_bind hs rfl fun _ hs =>
      put_bind hs rfl fun _ hs => finish hs rfl
  · cases h
    rfl

theorem encodeOutput_decodeOutput {output : OutputOptions} (hv : value.Canonical)
    (h : decodeOutput value = .ok output) : encodeOutput output = .ok value := by
  obtain ⟨whole, hwhole, h⟩ := bind_ok.1 h
  obtain ⟨⟨format, f₁⟩, hformat, h⟩ := bind_ok.1 h
  cases h
  rw [object_ok] at hwhole
  subst hwhole
  obtain ⟨o, hback, hs⟩ := takeWith_split encodeFormat (Split.refl hv.sorted) rfl hformat
    fun value format hget hformat => encodeFormat_decodeFormat (hv.get hget) hformat
  rw [encodeOutput, fieldsOf_ext, bind_of_ok, hback, bind_of_ok]
  exact optional_bind hs rfl fun _ hs => finish hs rfl

theorem encodeReasoningOptions_decode {reasoning : ReasoningOptions} (hv : value.Canonical)
    (h : decodeReasoningOptions value = .ok reasoning) :
    encodeReasoningOptions reasoning = .ok value := by
  obtain ⟨whole, hwhole, h⟩ := bind_ok.1 h
  obtain ⟨⟨effort, f₁⟩, heffort, h⟩ := bind_ok.1 h
  obtain ⟨⟨summary, f₂⟩, hsummary, h⟩ := bind_ok.1 h
  cases h
  rw [object_ok] at hwhole
  subst hwhole
  have hs := string_split (Split.refl hv.sorted) rfl heffort
  have hs := string_split hs rfl hsummary
  exact optional_bind hs rfl fun _ hs => optional_bind hs rfl fun _ hs => finish hs rfl

end Options

end ResponseGateway.Ir.Responses
