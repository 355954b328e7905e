import ResponseGateway.Ir.Bridge

/-!
The registry of a bridge as a correspondence between identities. The loop over the
leaves keeps `Registry.Invariant`; every alias it draws is a name that neither a
declared leaf nor an earlier alias has, so the aliases stay distinct although only
names and not identities are compared. Editing alternatives are added under names
that no key has.
-/

namespace ResponseGateway.Ir
open Checked Json Request Editing

section Leaves

/-- The leaf tools of a list of declarations, in order. -/
def leavesOf (tools : List ToolDefinition) : List ToolDefinition :=
  tools.flatMap ToolDefinition.leaves

/-- A leaf as it was declared, up to its description. -/
structure Redescribed (leaf declared : ToolDefinition) : Prop where
  identity : leaf.identity = declared.identity
  kind : leaf.kind = declared.kind

theorem memberLeaf_ok {flatten : Bool} {group child leaf : ToolDefinition}
    (h : memberLeaf flatten group child = .ok leaf) :
    Redescribed leaf child ∧ child.isGroup = false := by
  obtain ⟨_, hreject, hleaf⟩ := bind_ok.1 h
  rw [rejectIf_ok, Bool.or_eq_false_iff] at hreject
  refine ⟨?_, hreject.2⟩
  split at hleaf
  · cases hleaf
    exact ⟨rfl, rfl⟩
  · cases hleaf
    exact ⟨rfl, rfl⟩

theorem mapM_forall₂ {α β : Type} {f : α → Except IrError β} {R : β → α → Prop} {l : List α}
    {m : List β} (h : l.mapM f = .ok m) (hR : ∀ a b, f a = .ok b → R b a) :
    List.Forall₂ R m l := by
  induction l generalizing m with
  | nil =>
      cases h
      exact .nil
  | cons a l ih =>
      rw [List.mapM_cons] at h
      obtain ⟨b, hb, h⟩ := bind_ok.1 h
      obtain ⟨bs, hbs, h⟩ := bind_ok.1 h
      cases h
      exact .cons (hR a b hb) (ih hbs)

theorem leaves_of_not_group {tool : ToolDefinition} (h : tool.isGroup = false) :
    tool.leaves = [tool] := by
  unfold ToolDefinition.leaves
  split
  · next heq => simp [ToolDefinition.isGroup, ToolDefinition.toolKind, heq] at h
  · rfl

theorem leaves_of_group {tool : ToolDefinition} {children : List ToolDefinition}
    (h : tool.kind = .group children) : tool.leaves = children := by
  unfold ToolDefinition.leaves
  rw [h]

theorem isGroup_eq_false {tool : ToolDefinition} (h : ∀ children, tool.kind ≠ .group children) :
    tool.isGroup = false := by
  unfold ToolDefinition.isGroup ToolDefinition.toolKind
  split
  · rfl
  · rfl
  · next children heq => exact absurd heq (h children)

/-- The collected leaves are the declared ones, up to their descriptions. -/
theorem collectLeaves_ok {flatten : Bool} {groups : List String} {tools leaves : List ToolDefinition}
    (h : collectLeaves flatten groups tools = .ok leaves) :
    List.Forall₂ Redescribed leaves (leavesOf tools) := by
  induction tools generalizing groups leaves with
  | nil =>
      cases h
      exact .nil
  | cons tool tools ih =>
      obtain ⟨_, -, hkind⟩ := bind_ok.1 h
      rw [leavesOf, List.flatMap_cons]
      split at hkind
      · next children heq =>
          obtain ⟨_, -, hkind⟩ := bind_ok.1 hkind
          obtain ⟨_, -, hkind⟩ := bind_ok.1 hkind
          obtain ⟨members, hmembers, hkind⟩ := bind_ok.1 hkind
          obtain ⟨rest, hrest, hdone⟩ := bind_ok.1 hkind
          cases hdone
          rw [leaves_of_group heq]
          exact List.rel_append (mapM_forall₂ hmembers fun _ _ hleaf => (memberLeaf_ok hleaf).1)
            (ih hrest)
      · next hne =>
          obtain ⟨rest, hrest, hdone⟩ := bind_ok.1 hkind
          cases hdone
          rw [leaves_of_not_group (isGroup_eq_false fun children heq => hne children heq)]
          exact .cons ⟨rfl, rfl⟩ (ih hrest)

end Leaves

section Registry

/-- What the loop over the leaves keeps. `names` are the names of all leaves and
`done` are the leaves seen so far. -/
structure Registry.Invariant (sha256 : String → Digest) (flags : BuildFlags) (names : List String)
    (done : List ToolDefinition) (registry : Registry) : Prop where
  names_occupied : ∀ name ∈ names, name ∈ registry.occupied
  keys : ∀ t, (∃ a, registry.forward.get t = some a) ↔ t ∈ done.map (·.identity)
  nodup : (done.map (·.identity)).Nodup
  occupied : ∀ t a, registry.forward.get t = some a → a.name ∈ registry.occupied
  renamed : ∀ t a, registry.forward.get t = some a → a = t ∨ a.name ∉ names
  injective : ∀ t t' a, registry.forward.get t = some a → registry.forward.get t' = some a → t = t'
  reverse : ∀ a b, registry.reverse.get a = some b → registry.forward.get b.original = some a ∧
    b.normalize = false ∧ b.structured = none
  bindings : ∀ leaf ∈ done, ∃ a b, registry.forward.get leaf.identity = some a ∧
    registry.reverse.get a = some b ∧ b.original = leaf.identity ∧
    leafGrammar sha256 flags.codeMode leaf = .ok b.grammar
  definitions : registry.definitions.map (fun d => some d.identity) =
    done.map fun leaf => registry.forward.get leaf.identity
  leaves : ∀ d ∈ registry.definitions, d.isGroup = false

variable {sha256 : String → Digest} {flags : BuildFlags} {names : List String}
  {done : List ToolDefinition} {registry : Registry} {tool : ToolDefinition}

/-- The alias of a leaf is its own identity, or a name nobody has. -/
structure NewAlias (registry registry' : Registry) (tool : ToolDefinition) (a : ToolIdentity) :
    Prop where
  forward : registry'.forward = registry.forward
  reverse : registry'.reverse = registry.reverse
  definitions : registry'.definitions = registry.definitions
  grows : ∀ name ∈ registry.occupied, name ∈ registry'.occupied
  occupied : a.name ∈ registry'.occupied
  fresh : a = tool.identity ∨ a.name ∉ registry.occupied

theorem drawAlias_ok {flatten : Bool} {grammar : Option Grammar} {a : ToolIdentity}
    {registry' : Registry} (h : drawAlias flatten registry grammar tool = .ok (a, registry')) :
    NewAlias registry registry' tool a := by
  obtain ⟨n, hn, h⟩ := bind_ok.1 h
  obtain ⟨_, -, h⟩ := bind_ok.1 h
  cases h
  refine ⟨rfl, rfl, rfl, fun name hname => List.mem_cons_of_mem _ hname, List.mem_cons_self, .inr ?_⟩
  exact FreshName.search_not_mem (okOr_ok.1 hn)

theorem leafGrammar_ok {grammar : Option Grammar} (h : leafGrammar sha256 flags.codeMode tool = .ok grammar) :
    tool.isGroup = false := by
  refine isGroup_eq_false fun children heq => ?_
  rw [leafGrammar, heq] at h
  cases h

theorem lowerDefinition_ok {strip wrapped : Bool} {grammar : Option Grammar} {a : ToolIdentity}
    {definition : ToolDefinition} (hleaf : tool.isGroup = false)
    (h : lowerDefinition strip wrapped grammar a tool = .ok definition) :
    definition.identity = a ∧ definition.isGroup = false := by
  unfold lowerDefinition at h
  dsimp only at h
  split at h
  · obtain ⟨parameters, -, h⟩ := bind_ok.1 h
    cases h
    exact ⟨rfl, rfl⟩
  · split at h
    · split at h
      · cases h
        exact ⟨rfl, rfl⟩
      · cases h
    · cases h
      exact ⟨rfl, hleaf⟩

/-- Everything one iteration does to the registry. -/
structure LeafAdded (sha256 : String → Digest) (flags : BuildFlags) (registry registry' : Registry)
    (tool : ToolDefinition) (a : ToolIdentity) (b : Binding) (definition : ToolDefinition) : Prop where
  unseen : registry.forward.get tool.identity = none
  occupied : ∀ name ∈ registry.occupied, name ∈ registry'.occupied
  alias_occupied : a.name ∈ registry'.occupied
  fresh : a = tool.identity ∨ a.name ∉ registry.occupied
  original : b.original = tool.identity
  grammar : leafGrammar sha256 flags.codeMode tool = .ok b.grammar
  plain : b.normalize = false ∧ b.structured = none
  identity : definition.identity = a
  leaf : definition.isGroup = false
  forward : registry'.forward = registry.forward.insert tool.identity a
  reverse : registry'.reverse = registry.reverse.insert a b
  definitions : registry'.definitions = registry.definitions ++ [definition]

theorem addLeaf_ok {registry' : Registry} (hname : tool.identity.name ∈ registry.occupied)
    (h : addLeaf sha256 flags registry tool = .ok registry') :
    ∃ a b definition, LeafAdded sha256 flags registry registry' tool a b definition := by
  obtain ⟨_, -, h⟩ := bind_ok.1 h
  obtain ⟨_, hunseen, h⟩ := bind_ok.1 h
  obtain ⟨_, -, h⟩ := bind_ok.1 h
  obtain ⟨grammar, hgrammar, h⟩ := bind_ok.1 h
  obtain ⟨⟨a, registry₁⟩, halias, h⟩ := bind_ok.1 h
  obtain ⟨definition, hdefinition, h⟩ := bind_ok.1 h
  cases h
  rw [lift_ok] at hgrammar
  have hnew : NewAlias registry registry₁ tool a := by
    unfold chooseAlias at halias
    split at halias
    · exact drawAlias_ok halias
    · cases halias
      exact ⟨rfl, rfl, rfl, fun _ hn => hn, hname, .inl rfl⟩
  obtain ⟨hidentity, hleaf⟩ := lowerDefinition_ok (leafGrammar_ok hgrammar) hdefinition
  refine ⟨a, ⟨false, none, tool.identity, grammar, grammar.isSome && flags.wrapCustom⟩,
    definition, ?_, hnew.grows, hnew.occupied, hnew.fresh, rfl, hgrammar, ⟨rfl, rfl⟩, hidentity, hleaf, ?_, ?_, ?_⟩
  · simpa using hunseen
  · simp only [hnew.forward]
  · simp only [hnew.reverse]
  · simp only [hnew.definitions]

/-- A new alias differs from every alias so far. -/
theorem Registry.Invariant.alias_new {registry' : Registry} {a : ToolIdentity} {b : Binding}
    {definition : ToolDefinition} (hinv : registry.Invariant sha256 flags names done)
    (hname : tool.identity.name ∈ names)
    (hadd : LeafAdded sha256 flags registry registry' tool a b definition) :
    ∀ t, registry.forward.get t ≠ some a := by
  intro t ht
  rcases hadd.fresh with rfl | hfresh
  · rcases hinv.renamed t _ ht with rfl | hrenamed
    · rw [hadd.unseen] at ht
      cases ht
    · exact hrenamed hname
  · exact hfresh (hinv.occupied t a ht)

theorem Registry.Invariant.addLeaf {registry' : Registry}
    (hinv : registry.Invariant sha256 flags names done) (hname : tool.identity.name ∈ names)
    (h : Ir.addLeaf sha256 flags registry tool = .ok registry') :
    registry'.Invariant sha256 flags names (done ++ [tool]) := by
  obtain ⟨a, b, definition, hadd⟩ := addLeaf_ok (hinv.names_occupied _ hname) h
  have hnew := hinv.alias_new hname hadd
  have hself : registry'.forward.get tool.identity = some a := by
    rw [hadd.forward, OrderedMap.get_insert_self]
  have hold : ∀ t x, registry.forward.get t = some x → registry'.forward.get t = some x := by
    intro t x hx
    rw [hadd.forward]
    exact OrderedMap.get_insert_of_some hadd.unseen hx
  have hcases : ∀ t x, registry'.forward.get t = some x →
      (t = tool.identity ∧ x = a) ∨ registry.forward.get t = some x := by
    intro t x hx
    by_cases heq : t = tool.identity
    · subst heq
      rw [hself] at hx
      cases hx
      exact .inl ⟨rfl, rfl⟩
    · rw [hadd.forward, OrderedMap.get_insert_of_ne _ _ (Ne.symm heq)] at hx
      exact .inr hx
  have hreverse : registry.reverse.get a = none := by
    cases hb : registry.reverse.get a with
    | none => rfl
    | some x => exact absurd (hinv.reverse a x hb).1 (hnew _)
  refine {
    names_occupied := fun name hn => hadd.occupied name (hinv.names_occupied name hn)
    keys := ?_
    nodup := ?_
    occupied := ?_
    renamed := ?_
    injective := ?_
    reverse := ?_
    bindings := ?_
    definitions := ?_
    leaves := ?_ }
  · intro t
    rw [List.map_append, List.mem_append, ← hinv.keys]
    constructor
    · rintro ⟨x, hx⟩
      rcases hcases t x hx with ⟨rfl, -⟩ | hx
      · exact .inr (by simp)
      · exact .inl ⟨x, hx⟩
    · rintro (⟨x, hx⟩ | hmem)
      · exact ⟨x, hold t x hx⟩
      · obtain rfl : t = tool.identity := by simpa using hmem
        exact ⟨a, hself⟩
  · rw [List.map_append, List.nodup_append_comm]
    refine List.nodup_cons.2 ⟨fun hmem => ?_, by simpa using hinv.nodup⟩
    obtain ⟨x, hx⟩ := (hinv.keys _).2 (by simpa using hmem)
    rw [hadd.unseen] at hx
    cases hx
  · intro t x hx
    rcases hcases t x hx with ⟨-, rfl⟩ | hx
    · exact hadd.alias_occupied
    · exact hadd.occupied _ (hinv.occupied t x hx)
  · intro t x hx
    rcases hcases t x hx with ⟨rfl, rfl⟩ | hx
    · exact hadd.fresh.imp_right fun hfresh hn => hfresh (hinv.names_occupied _ hn)
    · exact hinv.renamed t x hx
  · intro t t' x hx hx'
    rcases hcases t x hx with ⟨rfl, rfl⟩ | hx
    · rcases hcases t' _ hx' with ⟨rfl, -⟩ | hx'
      · rfl
      · exact absurd hx' (hnew t')
    · rcases hcases t' x hx' with ⟨rfl, rfl⟩ | hx'
      · exact absurd hx (hnew t)
      · exact hinv.injective t t' x hx hx'
  · intro x y hxy
    rw [hadd.reverse, OrderedMap.get_insert] at hxy
    split at hxy
    · next heq =>
        cases hxy
        rw [← heq, hadd.original]
        exact ⟨hself, hadd.plain⟩
    · obtain ⟨hforward, hplain⟩ := hinv.reverse x y hxy
      exact ⟨hold _ _ hforward, hplain⟩
  · intro leaf hmem
    rcases List.mem_append.1 hmem with hmem | hmem
    · obtain ⟨x, y, hx, hy, hrest⟩ := hinv.bindings leaf hmem
      refine ⟨x, y, hold _ _ hx, ?_, hrest⟩
      rw [hadd.reverse]
      exact OrderedMap.get_insert_of_some hreverse hy
    · obtain rfl := List.mem_singleton.1 hmem
      exact ⟨a, b, hself, by rw [hadd.reverse, OrderedMap.get_insert_self], hadd.original,
        hadd.grammar⟩
  · rw [hadd.definitions, List.map_append, List.map_append, hinv.definitions]
    have hlast : [definition].map (fun d => some d.identity) =
        [tool].map fun leaf => registry'.forward.get leaf.identity := by
      simp [hadd.identity, hself]
    rw [hlast]
    congr 1
    refine List.map_congr_left fun leaf hmem => ?_
    obtain ⟨x, hx⟩ := (hinv.keys _).2 (List.mem_map_of_mem hmem)
    rw [hx, hold _ _ hx]
  · intro d hd
    rw [hadd.definitions] at hd
    rcases List.mem_append.1 hd with hd | hd
    · exact hinv.leaves d hd
    · rw [List.mem_singleton.1 hd]
      exact hadd.leaf

end Registry

section Grouping

/-- The exposed definition in the place of a declared tool. -/
def SameGroup (tool definition : ToolDefinition) : Prop :=
  match tool.kind with
  | .group children => ∃ members, definition = { tool with kind := .group members } ∧
      members.length = children.length
  | _ => definition.isGroup = false

theorem regroup_ok {tools flat groups : List ToolDefinition}
    (hflat : ∀ d ∈ flat, d.isGroup = false) (hlength : flat.length = (leavesOf tools).length)
    (h : regroup tools flat = .ok groups) :
    leavesOf groups = flat ∧ List.Forall₂ SameGroup tools groups := by
  induction tools generalizing flat groups with
  | nil =>
      cases h
      obtain rfl := List.eq_nil_of_length_eq_zero hlength
      exact ⟨rfl, .nil⟩
  | cons tool tools ih =>
      rw [leavesOf, List.flatMap_cons, List.length_append] at hlength
      unfold regroup at h
      split at h
      · next children heq =>
          obtain ⟨rest, hrest, hdone⟩ := bind_ok.1 h
          cases hdone
          rw [leaves_of_group heq] at hlength
          obtain ⟨hleaves, hgroups⟩ := ih (fun d hd => hflat d (List.mem_of_mem_drop hd))
            (by rw [List.length_drop]; exact Nat.sub_eq_of_eq_add' hlength) hrest
          refine ⟨?_, .cons ?_ hgroups⟩
          · rw [leavesOf, List.flatMap_cons, leaves_of_group rfl]
            exact (congrArg _ hleaves).trans (List.take_append_drop _ _)
          · rw [SameGroup, heq]
            refine ⟨_, rfl, ?_⟩
            rw [List.length_take]
            omega
      · next hne =>
          have hleaf := isGroup_eq_false fun children heq => hne children heq
          rw [leaves_of_not_group hleaf] at hlength
          cases flat with
          | nil => cases h
          | cons definition flat =>
              obtain ⟨rest, hrest, hdone⟩ := bind_ok.1 h
              cases hdone
              have hlength : flat.length = (leavesOf tools).length := by
                rw [leavesOf]
                simp only [List.length_cons, List.length_nil] at hlength
                omega
              obtain ⟨hleaves, hgroups⟩ := ih (fun d hd => hflat d (by simp [hd])) hlength hrest
              have hd := hflat definition (by simp)
              refine ⟨?_, .cons ?_ hgroups⟩
              · rw [leavesOf, List.flatMap_cons, leaves_of_not_group hd]
                exact congrArg (definition :: ·) hleaves
              · unfold SameGroup
                split
                · next children heq => exact absurd heq (hne children)
                · exact hd

/-- Whether namespaces are kept in the exposed definitions. -/
def Grouped (flags : BuildFlags) (tools exposed : List ToolDefinition) : Prop :=
  if flags.flattenNamespaces then ∀ d ∈ exposed, d.isGroup = false
  else List.Forall₂ SameGroup tools exposed

theorem leavesOf_of_leaves {flat : List ToolDefinition}
    (h : ∀ d ∈ flat, d.isGroup = false) : leavesOf flat = flat := by
  induction flat with
  | nil => rfl
  | cons d flat ih =>
      rw [leavesOf, List.flatMap_cons, leaves_of_not_group (h d (by simp))]
      exact congrArg (d :: ·) (ih fun d' hd' => h d' (by simp [hd']))

theorem exposedDefinitions_ok {flags : BuildFlags} {tools flat exposed : List ToolDefinition}
    (hflat : ∀ d ∈ flat, d.isGroup = false) (hlength : flat.length = (leavesOf tools).length)
    (h : exposedDefinitions flags tools flat = .ok exposed) :
    leavesOf exposed = flat ∧ Grouped flags tools exposed := by
  unfold exposedDefinitions at h
  unfold Grouped
  split at h
  · next hflatten =>
      cases h
      rw [if_pos hflatten]
      exact ⟨leavesOf_of_leaves hflat, hflat⟩
  · next hkept =>
      rw [if_neg hkept]
      exact regroup_ok hflat hlength h

end Grouping

namespace CustomToolBridge

section Invariant

/-- The binding of an alternative: its alias is the policy's name for the tool, and
the tool itself is bound with the grammar the policy expects. -/
structure Alternative (sha256 : String → Digest) (policy : Option Policy)
    (bridge : CustomToolBridge) (a : ToolIdentity) (b : Binding) (p : Policy) : Prop where
  policy : policy = some p
  representation : b.structured = some p.representation
  name : a = ⟨none, editName sha256 p b.original⟩
  grammar : b.grammar = some (expectedGrammar p.clientContract)
  original : ∃ a' b', bridge.forward.get b.original = some a' ∧ bridge.reverse.get a' = some b' ∧
    b'.grammar = b.grammar

/-- What holds of a bridge from `build` on. `exposed` are the definitions of the
declared tools, `synthetic` those of the alternatives. -/
structure Invariant (sha256 : String → Digest) (flags : BuildFlags) (policy : Option Policy)
    (tools exposed synthetic : List ToolDefinition) (bridge : CustomToolBridge) : Prop where
  keys : ∀ t, (∃ a, bridge.forward.get t = some a) ↔ t ∈ (leavesOf tools).map (·.identity)
  nodup : ((leavesOf tools).map (·.identity)).Nodup
  injective : ∀ t t' a, bridge.forward.get t = some a → bridge.forward.get t' = some a → t = t'
  renamed : ∀ t a, bridge.forward.get t = some a →
    a = t ∨ a.name ∉ (leavesOf tools).map (·.identity.name)
  bindings : ∀ leaf ∈ leavesOf tools, ∃ a b, bridge.forward.get leaf.identity = some a ∧
    bridge.reverse.get a = some b ∧ b.original = leaf.identity ∧ b.structured = none ∧
    leafGrammar sha256 flags.codeMode leaf = .ok b.grammar
  reverse : ∀ a b, bridge.reverse.get a = some b →
    (bridge.forward.get b.original = some a ∧ b.structured = none) ∨
    ((∀ t, bridge.forward.get t ≠ some a) ∧ a ∈ synthetic.map (·.identity) ∧
      ∃ p, Alternative sha256 policy bridge a b p)
  normalize : ∀ a b, bridge.reverse.get a = some b → b.normalize = true →
    b.grammar = some .codexPatchV1
  definitions : bridge.definitions = exposed ++ synthetic
  identities : (leavesOf exposed).map (fun d => some d.identity) =
    (leavesOf tools).map fun leaf => bridge.forward.get leaf.identity
  grouped : Grouped flags tools exposed
  synthetic_leaves : ∀ d ∈ synthetic, d.isGroup = false
  synthetic_keys : ∀ d ∈ synthetic, ∃ b, bridge.reverse.get d.identity = some b ∧
    b.structured ≠ none
  synthetic_nodup : (synthetic.map (·.identity)).Nodup

variable {sha256 : String → Digest} {flags : BuildFlags} {policy : Option Policy}
  {tools exposed synthetic : List ToolDefinition} {bridge bridge' : CustomToolBridge}

theorem leafGrammar_congr {leaf declared : ToolDefinition} (h : Redescribed leaf declared) :
    leafGrammar sha256 flags.codeMode leaf = leafGrammar sha256 flags.codeMode declared := by
  rw [leafGrammar, leafGrammar, h.kind]

theorem forall₂_map {leaves declared : List ToolDefinition} {β : Type} {f : ToolDefinition → β}
    (h : List.Forall₂ Redescribed leaves declared)
    (hf : ∀ leaf d, Redescribed leaf d → f leaf = f d) : leaves.map f = declared.map f := by
  induction h with
  | nil => rfl
  | cons hab _ ih => rw [List.map_cons, List.map_cons, hf _ _ hab, ih]

theorem forall₂_mem {leaves declared : List ToolDefinition} {d : ToolDefinition}
    (h : List.Forall₂ Redescribed leaves declared) (hmem : d ∈ declared) :
    ∃ leaf ∈ leaves, Redescribed leaf d := by
  induction h with
  | nil => cases hmem
  | cons hab _ ih =>
      rcases List.mem_cons.1 hmem with rfl | hmem
      · exact ⟨_, List.mem_cons_self, hab⟩
      · obtain ⟨leaf, hleaf, hsame⟩ := ih hmem
        exact ⟨leaf, List.mem_cons_of_mem _ hleaf, hsame⟩

/-- `build` establishes the invariant, with no alternatives yet. -/
theorem invariant_build (policy : Option Policy) (h : build sha256 tools flags = .ok bridge) :
    ∃ exposed, bridge.Invariant sha256 flags policy tools exposed [] := by
  obtain ⟨leaves, hleaves, h⟩ := bind_ok.1 h
  obtain ⟨registry, hregistry, h⟩ := bind_ok.1 h
  obtain ⟨exposed, hexposed, h⟩ := bind_ok.1 h
  cases h
  have hdeclared := collectLeaves_ok (lift_ok.1 hleaves)
  have hinv : registry.Invariant sha256 flags (leaves.map (·.identity.name)) leaves := by
    refine foldlM_rule (P := fun done r =>
      r.Invariant sha256 flags (leaves.map (·.identity.name)) done) hregistry ?_ ?_
    · constructor <;> simp
    · intro done tool rest r r' hsplit hr hstep
      exact hr.addLeaf (by simp [hsplit]) hstep
  have hids := forall₂_map (f := (·.identity)) hdeclared fun _ _ h => h.identity
  have hnames := forall₂_map (f := (·.identity.name)) hdeclared
    fun _ _ h => congrArg ToolIdentity.name h.identity
  have hget := forall₂_map (f := fun leaf => registry.forward.get leaf.identity) hdeclared
    fun _ _ h => congrArg registry.forward.get h.identity
  have hlength : registry.definitions.length = (leavesOf tools).length := by
    have hlen := congrArg List.length (hinv.definitions.trans hget)
    simpa using hlen
  obtain ⟨hflat, hgrouped⟩ := exposedDefinitions_ok hinv.leaves hlength hexposed
  refine ⟨exposed, ?_⟩
  constructor
  case keys => exact fun t => hids ▸ hinv.keys t
  case nodup => exact hids ▸ hinv.nodup
  case injective => exact hinv.injective
  case renamed => exact fun t a ha => hnames ▸ hinv.renamed t a ha
  case bindings =>
    intro declared hmem
    obtain ⟨leaf, hleaf, hsame⟩ := forall₂_mem hdeclared hmem
    obtain ⟨a, b, ha, hb, horiginal, hgrammar⟩ := hinv.bindings leaf hleaf
    refine ⟨a, b, hsame.identity ▸ ha, hb, hsame.identity ▸ horiginal, (hinv.reverse a b hb).2.2, ?_⟩
    rw [← leafGrammar_congr hsame, hgrammar]
  case reverse =>
    intro a b hb
    obtain ⟨hforward, -, hstructured⟩ := hinv.reverse a b hb
    exact .inl ⟨hforward, hstructured⟩
  case normalize =>
    intro a b hb hnormalize
    rw [(hinv.reverse a b hb).2.1] at hnormalize
    cases hnormalize
  case definitions => exact (List.append_nil _).symm
  case identities => rw [hflat, hinv.definitions, hget]
  case grouped => exact hgrouped
  case synthetic_leaves => simp
  case synthetic_keys => simp
  case synthetic_nodup => simp

/-- The tools selected by a policy are bound with the grammar it expects. -/
def Selected (p : Policy) (originals : List ToolIdentity) (bridge : CustomToolBridge) : Prop :=
  ∀ t ∈ originals, ∃ a b, bridge.forward.get t = some a ∧ bridge.reverse.get a = some b ∧
    b.grammar = some (expectedGrammar p.clientContract)

theorem selectOriginal_ok {p : Policy} {request : RequestIR} {entry : ToolIdentity × ToolIdentity}
    {t : ToolIdentity} (h : bridge.selectOriginal sha256 p request entry = .ok (some t)) :
    entry.1 = t ∧ ∃ b, bridge.reverse.get entry.2 = some b ∧
      b.grammar = some (expectedGrammar p.clientContract) := by
  obtain ⟨original, a⟩ := entry
  unfold selectOriginal at h
  dsimp only at h
  split at h
  · obtain ⟨b, hb, h⟩ := bind_ok.1 h
    obtain ⟨_, hgrammar, h⟩ := bind_ok.1 h
    obtain ⟨_, -, h⟩ := bind_ok.1 h
    cases h
    exact ⟨rfl, b, okOr_ok.1 hb, by simpa using hgrammar⟩
  · cases h

theorem selected_of_mapM {p : Policy} {request : RequestIR} {selected : List (Option ToolIdentity)}
    (h : bridge.forward.entries.mapM (bridge.selectOriginal sha256 p request) = .ok selected) :
    Selected p selected.reduceOption bridge := by
  intro t ht
  obtain ⟨⟨original, a⟩, hmem, hselect⟩ := mapM_mem_ok h (List.reduceOption_mem_iff.1 ht)
  obtain ⟨rfl, b, hb, hgrammar⟩ := selectOriginal_ok hselect
  exact ⟨a, b, Assoc.get_of_mem bridge.forward.sorted hmem, hb, hgrammar⟩

/-- Two bridges that differ in the marks of their bindings only. -/
structure Remarked (bridge bridge' : CustomToolBridge) : Prop where
  forward : bridge'.forward = bridge.forward
  definitions : bridge'.definitions = bridge.definitions
  kept : ∀ a b, bridge.reverse.get a = some b →
    ∃ n, bridge'.reverse.get a = some { b with normalize := n }
  came : ∀ a b', bridge'.reverse.get a = some b' →
    ∃ n, bridge.reverse.get a = some { b' with normalize := n }
  marked : ∀ a b', bridge'.reverse.get a = some b' → b'.normalize = true →
    b'.grammar = some .codexPatchV1

theorem Alternative.remark {a : ToolIdentity} {b : Binding} {p : Policy} {n : Bool}
    (hr : Remarked bridge bridge') (h : Alternative sha256 policy bridge a { b with normalize := n } p) :
    Alternative sha256 policy bridge' a b p := by
  obtain ⟨a', b', ha', hb', hgrammar⟩ := h.original
  obtain ⟨m, hm⟩ := hr.kept a' b' hb'
  exact ⟨h.policy, h.representation, h.name, h.grammar, a', _, by rw [hr.forward]; exact ha', hm,
    hgrammar⟩

theorem Invariant.remark (hinv : bridge.Invariant sha256 flags policy tools exposed synthetic)
    (hr : Remarked bridge bridge') :
    bridge'.Invariant sha256 flags policy tools exposed synthetic := by
  constructor
  case keys => exact hr.forward ▸ hinv.keys
  case nodup => exact hinv.nodup
  case injective => exact hr.forward ▸ hinv.injective
  case renamed => exact hr.forward ▸ hinv.renamed
  case bindings =>
    intro leaf hleaf
    obtain ⟨a, b, ha, hb, hrest⟩ := hinv.bindings leaf hleaf
    obtain ⟨n, hn⟩ := hr.kept a b hb
    exact ⟨a, _, by rw [hr.forward]; exact ha, hn, hrest⟩
  case reverse =>
    intro a b' hb'
    obtain ⟨n, hb⟩ := hr.came a b' hb'
    rw [hr.forward]
    rcases hinv.reverse a _ hb with hplain | ⟨hrange, hmem, p, halt⟩
    · exact .inl hplain
    · exact .inr ⟨hrange, hmem, p, halt.remark hr⟩
  case normalize => exact hr.marked
  case definitions => rw [hr.definitions, hinv.definitions]
  case identities => rw [hr.forward, hinv.identities]
  case grouped => exact hinv.grouped
  case synthetic_leaves => exact hinv.synthetic_leaves
  case synthetic_keys =>
    intro d hd
    obtain ⟨b, hb, hstructured⟩ := hinv.synthetic_keys d hd
    obtain ⟨n, hn⟩ := hr.kept _ b hb
    exact ⟨_, hn, hstructured⟩
  case synthetic_nodup => exact hinv.synthetic_nodup

theorem Selected.remark {p : Policy} {originals : List ToolIdentity}
    (h : Selected p originals bridge) (hr : Remarked bridge bridge') :
    Selected p originals bridge' := by
  intro t ht
  obtain ⟨a, b, ha, hb, hgrammar⟩ := h t ht
  obtain ⟨n, hn⟩ := hr.kept a b hb
  exact ⟨a, _, by rw [hr.forward]; exact ha, hn, hgrammar⟩

/-- Marking a tool with a patch grammar. -/
theorem setNormalize_remarked {t a : ToolIdentity} {b : Binding}
    (hinv : bridge.Invariant sha256 flags policy tools exposed synthetic)
    (ha : bridge.forward.get t = some a) (hb : bridge.reverse.get a = some b)
    (hgrammar : b.grammar = some .codexPatchV1) (h : setNormalize bridge t = .ok bridge') :
    Remarked bridge bridge' := by
  obtain ⟨a', ha', h⟩ := bind_ok.1 h
  obtain ⟨b', hb', h⟩ := bind_ok.1 h
  cases h
  rw [okOr_ok] at ha' hb'
  obtain rfl : a = a' := Option.some.inj (ha.symm.trans ha')
  obtain rfl : b = b' := Option.some.inj (hb.symm.trans hb')
  refine ⟨rfl, rfl, fun x y hy => ?_, fun x y hy => ?_, fun x y hy hn => ?_⟩
  · by_cases heq : a = x
    · subst heq
      obtain rfl : b = y := Option.some.inj (hb.symm.trans hy)
      exact ⟨true, OrderedMap.get_insert_self _ _ _⟩
    · exact ⟨y.normalize, by rw [OrderedMap.get_insert_of_ne _ _ heq]; exact hy⟩
  · by_cases heq : a = x
    · subst heq
      rw [OrderedMap.get_insert_self] at hy
      cases hy
      exact ⟨b.normalize, hb⟩
    · rw [OrderedMap.get_insert_of_ne _ _ heq] at hy
      exact ⟨y.normalize, hy⟩
  · by_cases heq : a = x
    · subst heq
      rw [OrderedMap.get_insert_self] at hy
      cases hy
      exact hgrammar
    · rw [OrderedMap.get_insert_of_ne _ _ heq] at hy
      exact hinv.normalize x y hy hn

theorem Policy_direct_of_envelope {p : Policy} (hvalid : p.validate = .ok ())
    (h : p.normalization = .patchEnvelope) : p.clientContract = .direct := by
  rw [Policy.validate] at hvalid
  cases hc : p.clientContract with
  | direct => rfl
  | codeMode => simp [hc, h] at hvalid

theorem Invariant.markNormalized {p : Policy} {originals : List ToolIdentity}
    (hinv : bridge.Invariant sha256 flags policy tools exposed synthetic)
    (hselected : Selected p originals bridge) (hvalid : p.validate = .ok ())
    (h : CustomToolBridge.markNormalized p originals bridge = .ok bridge') :
    bridge'.Invariant sha256 flags policy tools exposed synthetic ∧ Selected p originals bridge' := by
  unfold CustomToolBridge.markNormalized at h
  split at h
  · next henvelope =>
      have hdirect := Policy_direct_of_envelope hvalid henvelope
      refine foldlM_rule (P := fun _ br =>
        br.Invariant sha256 flags policy tools exposed synthetic ∧ Selected p originals br)
        h ⟨hinv, hselected⟩ ?_
      rintro done t rest br br' rfl ⟨hbr, hsel⟩ hstep
      obtain ⟨a, b, ha, hb, hgrammar⟩ := hsel t (by simp)
      rw [hdirect] at hgrammar
      have hr := setNormalize_remarked hbr ha hb hgrammar hstep
      exact ⟨hbr.remark hr, hsel.remark hr⟩
  · cases h
    exact ⟨hinv, hselected⟩

/-- Everything one added alternative does to the bridge. -/
structure AlternativeAdded (sha256 : String → Digest) (p : Policy)
    (bridge bridge' : CustomToolBridge) (original : ToolIdentity) (d : ToolDefinition) (b : Binding) :
    Prop where
  identity : d.identity = ⟨none, editName sha256 p original⟩
  leaf : d.isGroup = false
  structured : b.structured = some p.representation
  original : b.original = original
  grammar : b.grammar = some (expectedGrammar p.clientContract)
  normalize : b.normalize = false
  new_reverse : ∀ a x, bridge.reverse.get a = some x → a.name ≠ d.identity.name
  new_forward : ∀ t a, bridge.forward.get t = some a → t.name ≠ d.identity.name
  forward : bridge'.forward = bridge.forward
  definitions : bridge'.definitions = bridge.definitions ++ [d]
  reverse : bridge'.reverse = bridge.reverse.insert d.identity b

theorem addAlternative_ok {p : Policy} {original : ToolIdentity}
    (h : addAlternative sha256 p bridge original = .ok bridge') :
    ∃ d b, AlternativeAdded sha256 p bridge bridge' original d b := by
  obtain ⟨_, hnew, h⟩ := bind_ok.1 h
  obtain ⟨_, -, h⟩ := bind_ok.1 h
  cases h
  simp only [rejectIf_ok, Bool.or_eq_false_iff, List.any_eq_false, decide_eq_true_eq] at hnew
  exact ⟨_, _, rfl, rfl, rfl, rfl, rfl, rfl, fun a x hx => hnew.1 _ (Assoc.mem_of_get hx),
    fun t a ha => hnew.2 _ (Assoc.mem_of_get ha), rfl, rfl, rfl⟩

theorem Invariant.addAlternative {p : Policy} {original : ToolIdentity} {d : ToolDefinition}
    {b : Binding} (hinv : bridge.Invariant sha256 flags (some p) tools exposed synthetic)
    (horiginal : ∃ a b, bridge.forward.get original = some a ∧ bridge.reverse.get a = some b ∧
      b.grammar = some (expectedGrammar p.clientContract))
    (hadd : AlternativeAdded sha256 p bridge bridge' original d b) :
    bridge'.Invariant sha256 flags (some p) tools exposed (synthetic ++ [d]) := by
  have hnone : bridge.reverse.get d.identity = none := by
    cases hget : bridge.reverse.get d.identity with
    | none => rfl
    | some x => exact absurd rfl (hadd.new_reverse _ x hget)
  have hold : ∀ a x, bridge.reverse.get a = some x → bridge'.reverse.get a = some x := by
    intro a x hx
    rw [hadd.reverse]
    exact OrderedMap.get_insert_of_some hnone hx
  have hself : bridge'.reverse.get d.identity = some b := by
    rw [hadd.reverse, OrderedMap.get_insert_self]
  have hcases : ∀ a x, bridge'.reverse.get a = some x →
      (a = d.identity ∧ x = b) ∨ bridge.reverse.get a = some x := by
    intro a x hx
    by_cases heq : a = d.identity
    · subst heq
      rw [hself] at hx
      cases hx
      exact .inl ⟨rfl, rfl⟩
    · rw [hadd.reverse, OrderedMap.get_insert_of_ne _ _ (Ne.symm heq)] at hx
      exact .inr hx
  have hrange : ∀ t, bridge.forward.get t ≠ some d.identity := by
    intro t ht
    obtain ⟨leaf, hleaf, hid⟩ := List.mem_map.1 ((hinv.keys t).1 ⟨_, ht⟩)
    obtain ⟨a, x, ha, hx, -⟩ := hinv.bindings leaf hleaf
    rw [hid, ht] at ha
    cases ha
    rw [hnone] at hx
    cases hx
  have hlift : ∀ a x q, Alternative sha256 (some p) bridge a x q →
      Alternative sha256 (some p) bridge' a x q := by
    intro a x q halt
    obtain ⟨a', b', ha', hb', hgrammar⟩ := halt.original
    exact ⟨halt.policy, halt.representation, halt.name, halt.grammar, a', b',
      by rw [hadd.forward]; exact ha', hold _ _ hb', hgrammar⟩
  constructor
  case keys => exact hadd.forward ▸ hinv.keys
  case nodup => exact hinv.nodup
  case injective => exact hadd.forward ▸ hinv.injective
  case renamed => exact hadd.forward ▸ hinv.renamed
  case bindings =>
    intro leaf hleaf
    obtain ⟨a, x, ha, hx, hrest⟩ := hinv.bindings leaf hleaf
    exact ⟨a, x, by rw [hadd.forward]; exact ha, hold _ _ hx, hrest⟩
  case reverse =>
    intro a x hx
    rw [hadd.forward, List.map_append]
    rcases hcases a x hx with ⟨rfl, rfl⟩ | hx
    · obtain ⟨a', b', ha', hb', hgrammar⟩ := horiginal
      refine .inr ⟨hrange, List.mem_append_right _ (by simp), p, rfl, hadd.structured, ?_,
        hadd.grammar, a', b', ?_, hold _ _ hb', hgrammar.trans hadd.grammar.symm⟩
      · rw [hadd.identity, hadd.original]
      · rw [hadd.forward, hadd.original, ha']
    · rcases hinv.reverse a x hx with hplain | ⟨hr, hmem, q, halt⟩
      · exact .inl hplain
      · exact .inr ⟨hr, List.mem_append_left _ hmem, q, hlift a x q halt⟩
  case normalize =>
    intro a x hx hn
    rcases hcases a x hx with ⟨rfl, rfl⟩ | hx
    · rw [hadd.normalize] at hn
      cases hn
    · exact hinv.normalize a x hx hn
  case definitions => rw [hadd.definitions, hinv.definitions, List.append_assoc]
  case identities => rw [hadd.forward, hinv.identities]
  case grouped => exact hinv.grouped
  case synthetic_leaves =>
    intro d' hd'
    rcases List.mem_append.1 hd' with hd' | hd'
    · exact hinv.synthetic_leaves d' hd'
    · rw [List.mem_singleton.1 hd']
      exact hadd.leaf
  case synthetic_keys =>
    intro d' hd'
    rcases List.mem_append.1 hd' with hd' | hd'
    · obtain ⟨x, hx, hstructured⟩ := hinv.synthetic_keys d' hd'
      exact ⟨x, hold _ _ hx, hstructured⟩
    · rw [List.mem_singleton.1 hd']
      exact ⟨b, hself, by rw [hadd.structured]; simp⟩
  case synthetic_nodup =>
    rw [List.map_append, List.nodup_append_comm]
    refine List.nodup_cons.2 ⟨fun hmem => ?_, by simpa using hinv.synthetic_nodup⟩
    obtain ⟨d', hd', hid⟩ := List.mem_map.1 (by simpa using hmem : d.identity ∈ synthetic.map (·.identity))
    obtain ⟨x, hx, -⟩ := hinv.synthetic_keys d' hd'
    rw [hid, hnone] at hx
    cases hx

theorem Selected.addAlternative {p : Policy} {original : ToolIdentity} {originals : List ToolIdentity}
    {d : ToolDefinition} {b : Binding} (h : Selected p originals bridge)
    (hadd : AlternativeAdded sha256 p bridge bridge' original d b) :
    Selected p originals bridge' := by
  intro t ht
  obtain ⟨a, x, ha, hx, hgrammar⟩ := h t ht
  refine ⟨a, x, by rw [hadd.forward]; exact ha, ?_, hgrammar⟩
  rw [hadd.reverse, OrderedMap.get_insert_of_ne]
  · exact hx
  · rintro rfl
    exact hadd.new_reverse _ x hx rfl

/-- A bridge with editing keeps the invariant, with the alternatives it added. -/
theorem invariant_withEditing {request : RequestIR} {wanted : Bool}
    (hinv : bridge.Invariant sha256 flags policy tools exposed [])
    (h : bridge.withEditing sha256 policy request wanted = .ok bridge') :
    ∃ synthetic, bridge'.Invariant sha256 flags policy tools exposed synthetic := by
  cases policy with
  | none =>
      cases h
      exact ⟨[], hinv⟩
  | some p =>
      obtain ⟨_, hvalid, h⟩ := bind_ok.1 h
      obtain ⟨selected, hselected, h⟩ := bind_ok.1 h
      obtain ⟨_, -, h⟩ := bind_ok.1 h
      obtain ⟨marked, hmarked, h⟩ := bind_ok.1 h
      rw [lift_ok] at hvalid hmarked h
      obtain ⟨hinv, hsel⟩ := hinv.markNormalized (selected_of_mapM hselected) hvalid hmarked
      unfold addAlternatives at h
      split at h
      · cases h
        exact ⟨[], hinv⟩
      · have hrun : (∃ synthetic, bridge'.Invariant sha256 flags (some p) tools exposed synthetic) ∧
            Selected p selected.reduceOption bridge' := by
          refine foldlM_rule (P := fun _ br =>
            (∃ synthetic, br.Invariant sha256 flags (some p) tools exposed synthetic) ∧
              Selected p selected.reduceOption br) h ⟨⟨[], hinv⟩, hsel⟩ ?_
          rintro done t rest br br' hsplit ⟨⟨synthetic, hbr⟩, hsel⟩ hstep
          obtain ⟨d, b, hadd⟩ := addAlternative_ok hstep
          exact ⟨⟨_, hbr.addAlternative (hsel t (by simp [hsplit])) hadd⟩, hsel.addAlternative hadd⟩
        exact hrun.1

end Invariant

end CustomToolBridge
end ResponseGateway.Ir
