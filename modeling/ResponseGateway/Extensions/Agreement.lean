import ResponseGateway.Extensions.Roles

/-!
The manager accepts the packages that the gateway accepts, and both read the same from them.
What the manager has loaded passes its checks exactly where it is the value of a well-formed
package.
-/

namespace ResponseGateway.Extensions
open Checked Ir Usage
open Json (Fields)
open Manager (Refusal require hasKeys oneOf isMatch)

section Checks

variable {value : Option Json} {names : List String}

@[simp] theorem require_ok {condition : Bool} {message : String} {u : Unit} :
    require condition message = .ok u ↔ condition = true := by
  rw [require, rejectIf_ok, Bool.not_eq_false']

theorem isMatch_iff {pattern : Pattern Char} {valid : String → Bool}
    (h : ∀ s : String, pattern.fullMatch s.toList = valid s) :
    isMatch pattern value = true ↔ ∃ s, value = some (.string s) ∧ valid s = true := by
  unfold isMatch
  split
  · next text =>
      rw [h text]
      constructor
      · exact fun hvalid => ⟨text, rfl, hvalid⟩
      · rintro ⟨s, heq, hvalid⟩
        cases heq
        exact hvalid
  · next hnot =>
      refine iff_of_false Bool.false_ne_true ?_
      rintro ⟨s, rfl, -⟩
      exact hnot s rfl

theorem oneOf_iff : oneOf value names = true ↔ ∃ name ∈ names, value = some (.string name) := by
  rw [oneOf, List.any_eq_true]
  simp only [decide_eq_true_eq]

theorem oneOf_singleton {name : String} :
    oneOf value [name] = true ↔ value = some (.string name) := by
  rw [oneOf_iff, List.exists_mem_cons_iff]
  simp only [List.not_mem_nil, false_and, exists_false, or_false]

/-- The role is told by the protocol. -/
theorem oneOf_roles (role : Role) (roles : List Role) :
    oneOf (some (.string role.protocol)) (roles.map Role.protocol) = decide (role ∈ roles) := by
  rw [Bool.eq_iff_iff, oneOf_iff, decide_eq_true_eq]
  simp only [List.mem_map, Option.some.injEq, Json.string.injEq]
  constructor
  · rintro ⟨_, ⟨role', hmem, rfl⟩, heq⟩
    rwa [Role.protocol_injective heq]
  · exact fun hmem => ⟨_, ⟨role, hmem, rfl⟩, rfl⟩

theorem mapM_asStr {items : List Json} {values : List String} :
    items.mapM Json.asStr = some values ↔ items = values.map .string := by
  constructor
  · intro h
    induction items generalizing values with
    | nil =>
        cases h
        rfl
    | cons item rest ih =>
        rw [List.mapM_cons] at h
        obtain ⟨text, hitem, h⟩ := Option.bind_eq_some_iff.1 h
        obtain ⟨texts, hrest, h⟩ := Option.bind_eq_some_iff.1 h
        cases h
        rw [Json.asStr_eq_some.1 hitem, ih hrest, List.map_cons]
  · rintro rfl
    exact mapM_map_some (f := Json.string) (g := Json.asStr) (fun _ => rfl) values

theorem readTexts_iff {v : Json} {values : List String} :
    readTexts v = some values ↔ v = texts values := by
  simp only [readTexts, Option.bind_eq_some_iff, Json.asArray_eq_some, mapM_asStr, texts]
  constructor
  · rintro ⟨_, hv, rfl⟩
    exact hv
  · intro hv
    exact ⟨_, hv, rfl⟩

theorem texts_inj {values values' : List String} :
    texts values = texts values' ↔ values = values' := by
  rw [texts, texts, Json.array.injEq]
  exact List.map_inj_right fun _ _ h => Json.string.inj h

theorem eq_sort_iff (values : List String) :
    values = values.dedup.mergeSort ↔ values.Pairwise (· < ·) := by
  constructor
  · intro h
    have hsorted : values.dedup.mergeSort.Pairwise (· ≤ ·) := List.sortedLE_mergeSort.pairwise
    have hnodup : values.dedup.mergeSort.Nodup :=
      (List.mergeSort_perm _ _).nodup_iff.2 values.nodup_dedup
    rw [h]
    exact List.Pairwise.imp₂ (fun _ _ hle hne => lt_of_le_of_ne hle hne) hsorted hnodup
  · intro h
    rw [h.nodup.dedup, List.mergeSort_of_pairwise]
    exact h.imp fun hlt => decide_eq_true hlt.le

end Checks

section Capabilities

variable {value : Option Json} {role : Role} {c : Capabilities}

theorem validateEntries_iff : Manager.validateEntries value = .ok () ↔
    ∃ values, value = some (texts values) ∧ values.Pairwise (· < ·) := by
  simp only [Manager.validateEntries, bind_ok, okOr_ok, require_ok, decide_eq_true_eq,
    eq_sort_iff, Option.bind_eq_some_iff, readTexts_iff]
  refine exists_congr fun values => and_congr_left fun _ => ?_
  constructor
  · rintro ⟨_, hvalue, rfl⟩
    exact hvalue
  · intro hvalue
    exact ⟨_, hvalue, rfl⟩

def Capabilities.entries (c : Capabilities) : Fields :=
  [("apis", texts c.apis), ("features", texts c.features), ("requires", texts c.requires),
    ("schema", .string c.schema)]

/-- The checks that depend on the protocol. -/
theorem declares_iff (hapis : c.apis.Pairwise (· < ·)) (hfeatures : c.features.Pairwise (· < ·))
    (hschema : c.schema = capabilitiesSchema) :
    (if oneOf (some (.string role.protocol)) [recorderV2Protocol] then
      require (Assoc.get "apis" c.entries = some (texts []) &&
        Assoc.get "features" c.entries = some (texts ["usage_event_v1", "usage_event_v2"]) &&
        Assoc.get "requires" c.entries = some (texts ["usage_recorder_ipc_v2"]))
        "Unsupported recorder capabilities"
    else Manager.validateRoles c.entries (some (.string role.protocol))) = .ok () ↔
      role.Declares c := by
  have hrecorder := oneOf_roles role [.recorderV2]
  have hcodec := oneOf_roles role [.capabilities]
  have hprovider := oneOf_roles role [.provider]
  have hgetApis : Assoc.get "apis" c.entries = some (texts c.apis) := rfl
  have hgetFeatures : Assoc.get "features" c.entries = some (texts c.features) := rfl
  have hgetRequires : Assoc.get "requires" c.entries = some (texts c.requires) := rfl
  have hfeatured : Featured c.features ↔ (c.features ≠ [] ∧ "json" ∈ c.features) ∧
      ∀ feature ∈ c.features, feature ∈ roleFeatures :=
    ⟨fun h => ⟨⟨List.ne_nil_of_mem h.json, h.json⟩, h.known⟩, fun h => ⟨hfeatures, h.2, h.1.2⟩⟩
  change oneOf _ [recorderV2Protocol] = _ at hrecorder
  change oneOf _ [capabilitiesProtocol] = _ at hcodec
  change oneOf _ [providerProtocol] = _ at hprovider
  have hread : ∀ values, (readTexts (texts values)).getD [] = values := fun values => by
    rw [readTexts_iff.2 rfl, Option.getD_some]
  rw [hrecorder, Manager.validateRoles, hcodec, hprovider, hgetApis, hgetFeatures, hgetRequires]
  simp only [Option.bind_some, hread]
  cases role
  case recorderV2 =>
    rw [if_pos (by decide), require_ok]
    simp only [Bool.and_eq_true, decide_eq_true_eq, Option.some.injEq, texts_inj, Role.Declares]
    tauto
  case capabilities =>
    rw [if_neg (by decide), bind_ok, if_pos (by decide)]
    simp only [bind_ok, require_ok, Bool.and_eq_true, decide_eq_true_eq, Option.some.injEq,
      texts_inj, Bool.not_eq_true', List.isEmpty_eq_false_iff, List.all_eq_true,
      List.contains_iff_mem, exists_const, Role.Declares, hfeatured]
    tauto
  case provider =>
    rw [if_neg (by decide), bind_ok, if_neg (by decide)]
    simp only [bind_ok, require_ok, Bool.and_eq_true, decide_eq_true_eq, Option.some.injEq,
      texts_inj, Bool.not_eq_true', List.isEmpty_eq_false_iff, List.isEmpty_iff, List.all_eq_true,
      List.contains_iff_mem, exists_const, Role.Declares, hfeatured, List.mem_singleton, true_and]
    tauto
  all_goals
    rw [if_neg (by decide), bind_ok, if_neg (by decide)]
    refine iff_of_false ?_ id
    rintro ⟨_, -, h⟩
    obtain ⟨_, h, -⟩ := bind_ok.1 h
    cases require_ok.1 h

theorem Role.Declares.shape (h : role.Declares c) : c.schema = capabilitiesSchema ∧
    c.apis.Pairwise (· < ·) ∧ c.features.Pairwise (· < ·) ∧ c.requires.Pairwise (· < ·) := by
  cases role
  case capabilities =>
    obtain ⟨hfeatured, hapis, -, -, hschema, hrequires⟩ := h
    exact ⟨hschema, hapis, hfeatured.sorted, by rw [hrequires]; decide⟩
  case provider =>
    obtain ⟨hfeatured, hapis, hschema, hrequires⟩ := h
    exact ⟨hschema, by rw [hapis]; exact .nil, hfeatured.sorted, by rw [hrequires]; decide⟩
  case recorderV2 =>
    obtain ⟨hschema, hapis, hfeatures, hrequires⟩ := h
    exact ⟨hschema, by rw [hapis]; exact .nil, by rw [hfeatures]; decide,
      by rw [hrequires]; decide⟩
  all_goals exact h.elim

theorem validateCapabilities_iff (hloaded : ∀ v, value = some v → Loaded v) :
    Manager.validateCapabilities value (some (.string role.protocol)) = .ok () ↔
      ∃ c, value = some (Capabilities.toValue c) ∧ role.Declares c := by
  simp only [Manager.validateCapabilities, bind_ok, okOr_ok, require_ok, forM_ok,
    List.forall_mem_cons, validateEntries_iff, Option.bind_eq_some_iff, Json.asObject_eq_some]
  constructor
  · rintro ⟨fields, ⟨_, hvalue, rfl⟩, _, hkeys, _, hschema, _, ⟨⟨apis, hapis, hsortedApis⟩,
      ⟨features, hfeatures, hsortedFeatures⟩, ⟨requires, hrequires, -⟩, -⟩, h⟩
    obtain ⟨hsorted, -⟩ := hloaded _ hvalue
    let c : Capabilities := ⟨capabilitiesSchema, apis, features, requires⟩
    have hnames : ["apis", "features", "requires", "schema"].toFinset =
        Manager.capabilityNames.toFinset := by decide
    have hentries := eq_of_keys (keys_of_hasKeys _ hsorted hkeys (by decide) hnames) (by decide)
    simp only [List.map_cons, List.map_nil, hapis, hfeatures, hrequires,
      oneOf_singleton.1 hschema, Option.getD_some] at hentries
    have hc : fields = c.entries := hentries
    rw [hc] at h hvalue
    exact ⟨c, hvalue, (declares_iff hsortedApis hsortedFeatures rfl).1 h⟩
  · rintro ⟨c, rfl, hdeclares⟩
    obtain ⟨hschema, hapis, hfeatures, hrequires⟩ := hdeclares.shape
    have hkeys : hasKeys c.entries Manager.capabilityNames = true :=
      (by decide : decide (["apis", "features", "requires", "schema"].toFinset =
        Manager.capabilityNames.toFinset) = true)
    refine ⟨c.entries, ⟨_, rfl, rfl⟩, (), hkeys, (), oneOf_singleton.2 ?_, (), ⟨⟨_, rfl, hapis⟩, ⟨_, rfl, hfeatures⟩,
      ⟨_, rfl, hrequires⟩, List.forall_mem_nil _⟩, (declares_iff hapis hfeatures hschema).2 hdeclares⟩
    rw [← hschema]
    rfl

end Capabilities

section Files

variable {fields : Fields} {entries : Fields}

/-- The value of the digests of files. -/
def filesOf (files : OrderedMap String String) : Json :=
  .object (files.entries.map fun entry => (entry.1, .string entry.2))
variable (entries) in

theorem exists_texts (h : ∀ entry ∈ entries, ∃ text, entry.2 = Json.string text) :
    ∃ l : List (String × String), entries = l.map fun entry => (entry.1, .string entry.2) := by
  induction entries with
  | nil => exact ⟨[], rfl⟩
  | cons entry rest ih =>
      obtain ⟨key, value⟩ := entry
      obtain ⟨⟨text, htext⟩, hrest⟩ := List.forall_mem_cons.1 h
      obtain ⟨l, rfl⟩ := ih hrest
      exact ⟨(key, text) :: l, by rw [List.map_cons, ← htext]⟩

theorem sorted_texts {l : List (String × String)} :
    Assoc.Sorted (l.map fun entry => (entry.1, Json.string entry.2)) ↔ Assoc.Sorted l :=
  List.pairwise_map

/-- The digests that are accepted. -/
structure FilesValid (files : OrderedMap String String) : Prop where
  size : 2 ≤ files.size ∧ files.size ≤ 8
  extension : "extension" ∈ files.keys
  license : "LICENSE.txt" ∈ files.keys
  files : ∀ entry ∈ files.entries, Package.validFile entry = true

theorem validateFiles_iff (hloaded : ∀ v, Assoc.get "files" fields = some v → Loaded v) :
    Manager.validateFiles fields = .ok () ↔
      ∃ files, Assoc.get "files" fields = some (filesOf files) ∧ FilesValid files := by
  simp only [Manager.validateFiles, bind_ok, okOr_ok, require_ok, forM_ok, Bool.and_eq_true,
    decide_eq_true_eq, List.all_eq_true, List.forall_mem_cons, List.contains_iff_mem,
    Option.bind_eq_some_iff, Json.asObject_eq_some]
  constructor
  · rintro ⟨entries, ⟨_, hget, rfl⟩, _, ⟨hsize, hextension, hlicense, -⟩, hfiles⟩
    obtain ⟨hsorted, -⟩ := hloaded _ hget
    obtain ⟨l, rfl⟩ := exists_texts entries fun entry hentry => by
      have hvalid := hfiles entry hentry
      rw [Manager.validFile, Bool.and_eq_true, Manager.hexDigest, isMatch_iff fullMatch_hex]
        at hvalid
      obtain ⟨-, s, heq, -⟩ := hvalid
      exact ⟨s, Option.some.inj heq⟩
    rw [List.map_map] at hextension hlicense
    rw [List.length_map] at hsize
    refine ⟨⟨l, sorted_texts.1 hsorted⟩, hget, hsize, hextension, hlicense, fun entry hentry => ?_⟩
    rw [← validFile_eq]
    exact hfiles _ (List.mem_map_of_mem hentry)
  · rintro ⟨files, hget, h⟩
    refine ⟨_, ⟨_, hget, rfl⟩, (), ⟨?_, ?_, ?_, List.forall_mem_nil _⟩, fun entry hentry => ?_⟩
    · rw [List.length_map]
      exact h.size
    · rw [List.map_map]
      exact h.extension
    · rw [List.map_map]
      exact h.license
    · obtain ⟨entry, hmem, rfl⟩ := List.mem_map.1 hentry
      rw [validFile_eq]
      exact h.files entry hmem

end Files

section Schemas

variable {value : Option Json} {fields : Fields} {role : Role}

namespace Role

/-- The fields of a package of the role. -/
def names (role : Role) : List String :=
  Manager.baseNames ++
    if role.isLegacy then []
    else if role = provider then ["capabilities", "provider_protocol"] else ["capabilities"]

end Role

theorem oneOf_roles_iff (roles : List Role) : oneOf value (roles.map Role.protocol) = true ↔
    ∃ role ∈ roles, value = some (.string role.protocol) := by
  rw [oneOf_iff]
  simp only [List.mem_map, exists_exists_and_eq_and]

theorem get_of_hasKeys {names : List String} {key : String} (h : hasKeys fields names = true)
    (hkey : key ∉ names) : Assoc.get key fields = none := by
  rw [hasKeys, decide_eq_true_eq] at h
  refine Assoc.get_eq_none.2 fun entry hentry heq => hkey ?_
  rw [← List.mem_toFinset, ← h, List.mem_toFinset, ← heq]
  exact List.mem_map_of_mem hentry

/-- What is under the keys that depend on the role. -/
structure Shaped (fields : Fields) (role : Role) (c : Option Capabilities)
    (name : Option String) : Prop where
  schema : Assoc.get "schema" fields = some (.string role.schema)
  protocol : Manager.protocolOf fields = some (.string role.protocol)
  keys : hasKeys fields role.names = true
  capabilities : Assoc.get "capabilities" fields = c.map Capabilities.toValue
  provider : Assoc.get "provider_protocol" fields = name.map .string
  declares : role.DeclaresIn c
  names : role.NamesIn name

theorem validateSchema_legacy (hlegacy : role.isLegacy = true)
    (hschema : Assoc.get "schema" fields = some (.string packageSchema))
    (hprotocol : Manager.protocolOf fields = some (.string role.protocol)) :
    Manager.validateSchema fields = .ok () ↔ Shaped fields role none none := by
  have hnames : role.names = Manager.baseNames := by
    rw [Role.names, if_pos hlegacy, List.append_nil]
  have hne : role ≠ .provider := by
    rintro rfl
    cases hlegacy
  have hmem : role ∈ [Role.observer, .recorder, .codec, .editing] := by
    revert hlegacy
    cases role <;> decide
  have honeOf : oneOf (Manager.protocolOf fields) [observerProtocol, recorderProtocol,
      codecProtocol, editingProtocol] = true :=
    (oneOf_roles_iff _).2 ⟨role, hmem, hprotocol⟩
  rw [Manager.validateSchema, if_pos (oneOf_singleton.2 hschema), honeOf]
  simp only [bind_ok, require_ok, exists_const, and_true]
  constructor
  · intro h
    refine ⟨?_, hprotocol, hnames ▸ h, get_of_hasKeys h (by decide), get_of_hasKeys h (by decide),
      ?_, ?_⟩
    · rw [hschema, Role.schema, if_pos hlegacy]
    · rw [Role.DeclaresIn, if_pos hlegacy]
    · rw [Role.NamesIn, if_neg hne]
  · exact fun h => hnames ▸ h.keys

theorem validateSchema_versioned (hversioned : role.isLegacy = false)
    (hschema : Assoc.get "schema" fields = some (.string capabilitiesPackageSchema))
    (hprotocol : Manager.protocolOf fields = some (.string role.protocol))
    (hloaded : ∀ v, Assoc.get "capabilities" fields = some v → Loaded v) :
    Manager.validateSchema fields = .ok () ↔ ∃ c name, Shaped fields role (some c) name := by
  have hprovider : oneOf (Manager.protocolOf fields) [providerProtocol] =
      decide (role = .provider) := by
    rw [hprotocol]
    exact (oneOf_roles role [.provider]).trans (by simp only [List.mem_singleton])
  have hnames : role.names = Manager.baseNames ++
      if decide (role = .provider) then ["capabilities", "provider_protocol"]
      else ["capabilities"] := by
    rw [Role.names, hversioned, if_neg Bool.false_ne_true]
    by_cases hrole : role = .provider
    · rw [if_pos hrole, if_pos (decide_eq_true hrole)]
    · rw [if_neg hrole, if_neg (by simpa using hrole)]
  have hfirst : oneOf (Assoc.get "schema" fields) [packageSchema] = false := by
    rw [hschema]
    decide
  have hmem : role ∈ [Role.capabilities, .provider, .recorderV2] := by
    revert hversioned
    cases role <;> decide
  have honeOf : oneOf (Manager.protocolOf fields) [capabilitiesProtocol, providerProtocol,
      recorderV2Protocol] = true :=
    (oneOf_roles_iff _).2 ⟨role, hmem, hprotocol⟩
  rw [Manager.validateSchema, hfirst, if_neg Bool.false_ne_true, honeOf,
    oneOf_singleton.2 hschema, hprovider]
  simp only [← hnames, hprotocol, bind_ok, require_ok, exists_const, Bool.and_true, true_and,
    validateCapabilities_iff hloaded, Bool.or_eq_true, Bool.not_eq_true', decide_eq_false_iff_not,
    isMatch_iff fullMatch_provider]
  constructor
  · rintro ⟨hkeys, ⟨c, hc, hdeclares⟩, hspoken⟩
    have hdeclaresIn : role.DeclaresIn (some c) := by
      rw [Role.DeclaresIn, hversioned, if_neg Bool.false_ne_true]
      exact ⟨c, rfl, hdeclares⟩
    have hschema' : Assoc.get "schema" fields = some (.string role.schema) := by
      rw [hschema, Role.schema, hversioned, if_neg Bool.false_ne_true]
    by_cases hrole : role = .provider
    · obtain ⟨spoken, hget, hvalid⟩ := hspoken.resolve_left fun h => h hrole
      refine ⟨c, some spoken, hschema', hprotocol, hkeys, hc, hget, hdeclaresIn, ?_⟩
      rw [Role.NamesIn, if_pos hrole]
      exact ⟨spoken, rfl, hvalid⟩
    · refine ⟨c, none, hschema', hprotocol, hkeys, hc, get_of_hasKeys hkeys ?_, hdeclaresIn, ?_⟩
      · rw [hnames, decide_eq_false hrole]
        decide
      · rw [Role.NamesIn, if_neg hrole]
  · rintro ⟨c, name, h⟩
    obtain ⟨_, hc, hdeclares⟩ : ∃ declared, some c = some declared ∧ role.Declares declared := by
      have hdeclaresIn := h.declares
      rwa [Role.DeclaresIn, hversioned, if_neg Bool.false_ne_true] at hdeclaresIn
    cases hc
    refine ⟨h.keys, ⟨c, h.capabilities, hdeclares⟩, ?_⟩
    by_cases hrole : role = .provider
    · have hnamesIn := h.names
      rw [Role.NamesIn, if_pos hrole] at hnamesIn
      obtain ⟨spoken, rfl, hvalid⟩ := hnamesIn
      exact .inr ⟨spoken, h.provider, hvalid⟩
    · exact .inl hrole

/-- The part of the check that depends on the role. -/
theorem validateSchema_iff (hloaded : ∀ v, Assoc.get "capabilities" fields = some v → Loaded v) :
    Manager.validateSchema fields = .ok () ↔ ∃ role c name, Shaped fields role c name := by
  constructor
  · intro h
    have h' := h
    rw [Manager.validateSchema] at h'
    split at h'
    · next hschema =>
        simp only [bind_ok, require_ok] at h'
        obtain ⟨_, -, hprotocol⟩ := h'
        obtain ⟨role, hmem, hprotocol⟩ := (oneOf_roles_iff [.observer, .recorder, .codec, .editing]).1 hprotocol
        have hlegacy : role.isLegacy = true := by
          revert hmem
          cases role <;> decide
        exact ⟨role, none, none,
          (validateSchema_legacy hlegacy (oneOf_singleton.1 hschema) hprotocol).1 h⟩
    · simp only [bind_ok, require_ok, Bool.and_eq_true] at h'
      obtain ⟨_, ⟨hschema, hprotocol⟩, -⟩ := h'
      obtain ⟨role, hmem, hprotocol⟩ := (oneOf_roles_iff [.capabilities, .provider, .recorderV2]).1 hprotocol
      have hversioned : role.isLegacy = false := by
        revert hmem
        cases role <;> decide
      obtain ⟨c, name, hshaped⟩ := (validateSchema_versioned hversioned
        (oneOf_singleton.1 hschema) hprotocol hloaded).1 h
      exact ⟨role, some c, name, hshaped⟩
  · rintro ⟨role, c, name, h⟩
    have hschema := h.schema
    have hdeclares := h.declares
    have hnames := h.names
    cases hlegacy : role.isLegacy with
    | true =>
        rw [Role.schema, if_pos hlegacy] at hschema
        rw [Role.DeclaresIn, if_pos hlegacy] at hdeclares
        have hne : role ≠ .provider := by
          rintro rfl
          cases hlegacy
        rw [Role.NamesIn, if_neg hne] at hnames
        subst hdeclares hnames
        exact (validateSchema_legacy hlegacy hschema h.protocol).2 h
    | false =>
        rw [Role.schema, hlegacy, if_neg Bool.false_ne_true] at hschema
        rw [Role.DeclaresIn, hlegacy, if_neg Bool.false_ne_true] at hdeclares
        obtain ⟨c, rfl, -⟩ := hdeclares
        exact (validateSchema_versioned hlegacy hschema h.protocol hloaded).2 ⟨c, name, h⟩

end Schemas

section Contents

variable {fields : Fields} {role : Role} {target : Target}

theorem expectedPermissions_eq
    (h : Manager.protocolOf fields = some (.string role.protocol)) :
    Manager.expectedPermissions fields = role.permissions := by
  rw [Manager.expectedPermissions, h]
  cases role <;> rfl

theorem expectedState_eq (h : Manager.protocolOf fields = some (.string role.protocol)) :
    Manager.expectedState fields = role.state := by
  rw [Manager.expectedState, h]
  cases role <;> rfl

/-- The part of the check that depends on the role by its permissions and its state. -/
theorem validateContents_iff (h : Manager.protocolOf fields = some (.string role.protocol))
    (hloaded : ∀ v, Assoc.get "files" fields = some v → Loaded v) :
    Manager.validateContents fields target.name = .ok () ↔
      (∃ id, Assoc.get "id" fields = some (.string id) ∧ validId id = true) ∧
      (∃ version, Assoc.get "version" fields = some (.string version) ∧
        validVersion version = true) ∧
      Assoc.get "target" fields = some (.string target.name) ∧
      Assoc.get "permissions" fields = some (texts role.permissions) ∧
      Assoc.get "state_schema" fields = some (.string role.state) ∧
      ∃ files, Assoc.get "files" fields = some (filesOf files) ∧ FilesValid files := by
  have htarget : Manager.targets.contains target.name = true := by
    cases target <;> decide
  simp only [Manager.validateContents, bind_ok, require_ok, exists_const, Bool.and_eq_true,
    htarget, true_and, oneOf_singleton, expectedPermissions_eq h, expectedState_eq h,
    decide_eq_true_eq, validateFiles_iff hloaded, Manager.identifier, Manager.version,
    isMatch_iff fullMatch_identifier, isMatch_iff fullMatch_version, and_assoc]

end Contents

end ResponseGateway.Extensions
