import ResponseGateway.Extensions.Agreement

/-!
Packages as both sides read them. The values under the keys of a manifest tell the package, and
what the manager has checked is the value of a well-formed one; such a value is plain, so that both
sides write it alike.
-/

namespace ResponseGateway.Extensions
open Checked Ir Usage
open Json (Fields)
open Manager (hasKeys isProtocolChar)

section Entries

variable {fields fields' : Fields} {p : Package} {role : Role} {target : Target}

def Package.entries (p : Package) : Fields :=
  p.capabilitiesEntry ++
    [("files", p.filesValue), ("id", .string p.id), ("permissions", texts p.permissions),
      ("protocol", .string p.protocol)] ++ p.providerEntry ++
    [("schema", .string p.schema), ("state_schema", .string p.stateSchema),
      ("target", .string p.target), ("version", .string p.version)]

/-- A manifest says of a package what there is to say. -/
structure Holds (fields : Fields) (p : Package) : Prop where
  schema : Assoc.get "schema" fields = some (.string p.schema)
  id : Assoc.get "id" fields = some (.string p.id)
  version : Assoc.get "version" fields = some (.string p.version)
  target : Assoc.get "target" fields = some (.string p.target)
  protocol : Assoc.get "protocol" fields = some (.string p.protocol)
  permissions : Assoc.get "permissions" fields = some (texts p.permissions)
  state : Assoc.get "state_schema" fields = some (.string p.stateSchema)
  files : Assoc.get "files" fields = some (filesOf p.files)
  capabilities : Assoc.get "capabilities" fields = p.capabilities.map Capabilities.toValue
  provider : Assoc.get "provider_protocol" fields = p.providerProtocol.map .string

theorem holds_entries (p : Package) : Holds p.entries p := by
  obtain ⟨schema, id, version, target, protocol, permissions, state, files, c, name⟩ := p
  cases c <;> cases name <;> exact ⟨rfl, rfl, rfl, rfl, rfl, rfl, rfl, rfl, rfl, rfl⟩

theorem Holds.get_eq (h : Holds fields p) (h' : Holds fields' p) :
    ∀ key ∈ Package.fields, Assoc.get key fields = Assoc.get key fields' := by
  simp only [Package.fields, List.forall_mem_cons]
  exact ⟨h.schema.trans h'.schema.symm, h.id.trans h'.id.symm, h.version.trans h'.version.symm,
    h.target.trans h'.target.symm, h.protocol.trans h'.protocol.symm,
    h.permissions.trans h'.permissions.symm, h.state.trans h'.state.symm,
    h.files.trans h'.files.symm, h.capabilities.trans h'.capabilities.symm,
    h.provider.trans h'.provider.symm, nofun⟩

/-- The keys of a manifest of the role, in their order. -/
def Role.keys (role : Role) : List String :=
  (if role.isLegacy then [] else ["capabilities"]) ++ ["files", "id", "permissions", "protocol"] ++
    (if role = provider then ["provider_protocol"] else []) ++
    ["schema", "state_schema", "target", "version"]

theorem Role.keys_sorted (role : Role) : role.keys.Pairwise (· < ·) := by
  cases role <;> decide

theorem Role.keys_names (role : Role) : role.keys.toFinset = role.names.toFinset := by
  cases role <;> decide

theorem Role.keys_fields (role : Role) : ∀ key ∈ role.keys, key ∈ Package.fields := by
  cases role <;> decide

theorem keys_entries (hdeclares : role.DeclaresIn p.capabilities)
    (hnames : role.NamesIn p.providerProtocol) : p.entries.map Prod.fst = role.keys := by
  have hcapabilities : p.capabilitiesEntry.map Prod.fst =
      if role.isLegacy then [] else ["capabilities"] := by
    rw [Package.capabilitiesEntry]
    rw [Role.DeclaresIn] at hdeclares
    split at hdeclares
    · next hlegacy =>
        rw [if_pos hlegacy, hdeclares]
        rfl
    · next hlegacy =>
        obtain ⟨c, hc, -⟩ := hdeclares
        rw [if_neg hlegacy, hc]
        rfl
  have hprovider : p.providerEntry.map Prod.fst =
      if role = .provider then ["provider_protocol"] else [] := by
    rw [Package.providerEntry]
    rw [Role.NamesIn] at hnames
    split at hnames
    · next hrole =>
        obtain ⟨name, hname, -⟩ := hnames
        rw [if_pos hrole, hname]
        rfl
    · next hrole =>
        rw [if_neg hrole, hnames]
        rfl
  rw [Package.entries, Role.keys, List.map_append, List.map_append, List.map_append,
    hcapabilities, hprovider]
  rfl

/-- The package and the keys tell the manifest. -/
theorem Holds.eq_entries (h : Holds fields p) (hkeys : fields.map Prod.fst = role.keys)
    (hkeys' : p.entries.map Prod.fst = role.keys) : fields = p.entries := by
  have hnodup : role.keys.Nodup := role.keys_sorted.nodup
  rw [eq_of_keys hkeys hnodup, eq_of_keys hkeys' hnodup]
  refine List.map_congr_left fun key hkey => ?_
  rw [h.get_eq (holds_entries p) key (role.keys_fields key hkey)]

/-- What the manager has checked is the manifest of a well-formed package. -/
theorem checked_iff (hloaded : Loaded (.object fields)) :
    (Manager.validateSchema fields = .ok () ∧
      Manager.validateContents fields target.name = .ok ()) ↔
      ∃ role p, fields = p.entries ∧ WellFormed target role p := by
  have hvalues : ∀ key v, Assoc.get key fields = some v → Loaded v := fun key v hget =>
    loadedFields_iff.1 hloaded.2 _ (Assoc.mem_of_get hget)
  rw [validateSchema_iff (hvalues "capabilities")]
  constructor
  · rintro ⟨⟨role, c, name, hshaped⟩, hcontents⟩
    obtain ⟨⟨id, hid, hvalidId⟩, ⟨version, hversion, hvalidVersion⟩, htarget, hpermissions, hstate,
      files, hfiles, hfilesValid⟩ :=
      (validateContents_iff hshaped.protocol (hvalues "files")).1 hcontents
    let p : Package := {
      schema := role.schema, id, version, target := target.name, protocol := role.protocol
      permissions := role.permissions, stateSchema := role.state, files, capabilities := c
      providerProtocol := name }
    have hholds : Holds fields p := ⟨hshaped.schema, hid, hversion, htarget, hshaped.protocol,
      hpermissions, hstate, hfiles, hshaped.capabilities, hshaped.provider⟩
    refine ⟨role, p, hholds.eq_entries
      (keys_of_hasKeys role.keys hloaded.1 hshaped.keys role.keys_sorted role.keys_names)
      (keys_entries hshaped.declares hshaped.names), ?_⟩
    exact ⟨rfl, rfl, rfl, rfl, hshaped.declares, hshaped.names, hvalidId, hvalidVersion, rfl,
      hfilesValid.size, hfilesValid.extension, hfilesValid.license, hfilesValid.files⟩
  · rintro ⟨role, p, rfl, h⟩
    have hholds := holds_entries p
    have hkeys : hasKeys p.entries role.names = true := by
      rw [hasKeys, keys_entries h.declares h.names, role.keys_names, decide_eq_true rfl]
    have hprotocol : Manager.protocolOf p.entries = some (.string role.protocol) := by
      rw [← h.protocol]
      exact hholds.protocol
    refine ⟨⟨role, p.capabilities, p.providerProtocol, ?_, hprotocol, hkeys, hholds.capabilities,
      hholds.provider, h.declares, h.names⟩, (validateContents_iff hprotocol (hvalues "files")).2
        ⟨⟨p.id, hholds.id, h.id⟩, ⟨p.version, hholds.version, h.version⟩, ?_, ?_, ?_, p.files,
          hholds.files, ⟨h.size, h.extension, h.license, h.files⟩⟩⟩
    · rw [← h.schema]
      exact hholds.schema
    · rw [← h.target]
      exact hholds.target
    · rw [← h.permissions]
      exact hholds.permissions
    · rw [← h.state]
      exact hholds.state

end Entries

section Printing

variable {s : String}

theorem printable_of_fullMatch {pattern : Pattern Char}
    (hmatch : pattern.fullMatch s.toList = true) (h : pattern.Within printable) :
    PrintableText s :=
  h.forall_mem (Pattern.fullMatch_iff.1 hmatch)

theorem printable_of_isDigit (c : Char) (h : c.isDigit = true) : printable c = true :=
  printable_of_isAlphanum (isAlphanum_of_isDigit h)

theorem printable_of_isLower (c : Char) (h : c.isLower = true) : printable c = true :=
  printable_of_isAlphanum (isAlphanum_of_isLower h)

theorem printable_of_eq {d : Char} (hd : printable d = true) (c : Char)
    (h : decide (c = d) = true) : printable c = true := by
  rw [of_decide_eq_true h]
  exact hd

theorem printable_of_isPositive (c : Char) (h : Manager.isPositive c = true) :
    printable c = true :=
  printable_of_isDigit c (isDigit_of_isPositive h)

theorem printable_of_validId (h : validId s = true) : PrintableText s := by
  rw [← fullMatch_identifier] at h
  exact printable_of_fullMatch h (.intro printable_of_isLower fun c h =>
    printable_of_isFileChar (isFileChar_of_isProtocolChar (isProtocolChar_of_isNameChar h)))

theorem printable_of_validVersion (h : validVersion s = true) : PrintableText s := by
  rw [← fullMatch_version] at h
  have hnumber : Manager.numberPattern.Within printable :=
    .intro (printable_of_eq rfl) (.intro printable_of_isPositive printable_of_isDigit)
  exact printable_of_fullMatch h (.intro hnumber (.intro (printable_of_eq rfl)
    (.intro hnumber (.intro (printable_of_eq rfl) hnumber))))

theorem printable_of_validHash (h : validHash s = true) : PrintableText s := by
  rw [← fullMatch_hex] at h
  refine printable_of_fullMatch h fun c hc => ?_
  simp only [Manager.isHex, Bool.or_eq_true, Bool.and_eq_true, decide_eq_true_eq, Char.le_def,
    UInt32.le_iff_toNat_le] at hc
  rcases hc with ⟨hleast, hmost⟩ | hdigit
  · change 97 ≤ c.toNat at hleast
    change c.toNat ≤ 102 at hmost
    simp only [printable, Bool.and_eq_true, decide_eq_true_eq]
    omega
  · exact printable_of_isDigit c hdigit

theorem printable_of_provider (h : validProviderProtocol s = true) : PrintableText s := by
  rw [← fullMatch_provider] at h
  have hname : (Pattern.seq (.one Char.isLower) (.repeated isProtocolChar 0 63)).Within
      printable :=
    .intro printable_of_isLower fun c h =>
      printable_of_isFileChar (isFileChar_of_isProtocolChar h)
  exact printable_of_fullMatch h (.intro hname (.intro (printable_of_eq rfl)
    (.intro (printable_of_eq rfl) (.intro printable_of_isPositive printable_of_isDigit))))

theorem printable_of_validFile {name digest : String}
    (h : Package.validFile (name, digest) = true) : PrintableText name ∧ PrintableText digest := by
  rw [← validFile_eq, Manager.validFile, Bool.and_eq_true, Bool.and_eq_true, Manager.hexDigest,
    isMatch_iff fullMatch_hex] at h
  obtain ⟨⟨hname, -⟩, text, heq, hdigest⟩ := h
  cases heq
  exact ⟨printable_of_fullMatch hname (.intro (fun c => printable_of_isAlphanum)
    fun c => printable_of_isFileChar), printable_of_validHash hdigest⟩

variable {p : Package} {role : Role} {target : Target} {c : Capabilities}

theorem Role.Declares.printable (h : role.Declares c) : (∀ api ∈ c.apis, PrintableText api) ∧
    (∀ feature ∈ c.features, PrintableText feature) ∧
    ∀ name ∈ c.requires, PrintableText name := by
  have hfeatures : Featured c.features → ∀ feature ∈ c.features, PrintableText feature :=
    fun h feature hmem => (by decide : ∀ feature ∈ roleFeatures, PrintableText feature) feature
      (h.known feature hmem)
  cases role
  case capabilities =>
    obtain ⟨hfeatured, -, -, hapis, -, hrequires⟩ := h
    exact ⟨fun api hmem => (by decide : ∀ api ∈ codecApis, PrintableText api) api (hapis api hmem),
      hfeatures hfeatured, by rw [hrequires]; decide⟩
  case provider =>
    obtain ⟨hfeatured, hapis, -, hrequires⟩ := h
    exact ⟨by rw [hapis]; exact nofun, hfeatures hfeatured, by rw [hrequires]; decide⟩
  case recorderV2 =>
    obtain ⟨-, hapis, hfeatured, hrequires⟩ := h
    exact ⟨by rw [hapis]; exact nofun, by rw [hfeatured]; decide, by rw [hrequires]; decide⟩
  all_goals exact h.elim

theorem sorted_of_keys {fields : Fields} {keys : List String} (h : fields.map Prod.fst = keys)
    (hkeys : keys.Pairwise (· < ·)) : Assoc.Sorted fields := by
  rw [← h, List.pairwise_map] at hkeys
  exact hkeys

theorem Role.Declares.simple (h : role.Declares c) : Simple c.toValue := by
  obtain ⟨hapis, hfeatures, hrequires⟩ := h.printable
  have hkeys : c.entries.map Prod.fst = ["apis", "features", "requires", "schema"] := rfl
  refine .object c.entries (sorted_of_keys hkeys (by decide)) (fun entry hentry => ?_) ?_
  · exact (by decide : ∀ key ∈ ["apis", "features", "requires", "schema"], PrintableText key)
      entry.1 (hkeys ▸ List.mem_map_of_mem hentry)
  · rw [Capabilities.entries]
    simp only [List.forall_mem_cons]
    refine ⟨simple_texts hapis, simple_texts hfeatures, simple_texts hrequires, .string _ ?_, nofun⟩
    rw [h.shape.1]
    exact (by decide : PrintableText capabilitiesSchema)

theorem FilesValid.simple {files : OrderedMap String String} (h : FilesValid files) :
    Simple (filesOf files) := by
  refine .object _ (sorted_texts.2 files.sorted) (fun entry hentry => ?_) fun entry hentry => ?_
  · obtain ⟨entry, hmem, rfl⟩ := List.mem_map.1 hentry
    exact (printable_of_validFile (h.files entry hmem)).1
  · obtain ⟨entry, hmem, rfl⟩ := List.mem_map.1 hentry
    exact .string _ (printable_of_validFile (h.files entry hmem)).2

theorem Role.keys_printable (role : Role) : ∀ key ∈ role.keys, PrintableText key := by
  cases role <;> decide

theorem Role.printable (role : Role) : PrintableText role.schema ∧
    PrintableText role.protocol ∧ PrintableText role.state ∧
    ∀ name ∈ role.permissions, PrintableText name := by
  cases role <;> decide

/-- A well-formed package is written alike by both sides. -/
theorem WellFormed.simple (h : WellFormed target role p) : Simple (.object p.entries) := by
  have hkeys := keys_entries h.declares h.names
  obtain ⟨hschema, hprotocol, hstate, hpermissions⟩ := role.printable
  refine .object _ (sorted_of_keys hkeys role.keys_sorted) (fun entry hentry => ?_) ?_
  · exact role.keys_printable entry.1 (hkeys ▸ List.mem_map_of_mem hentry)
  · rw [Package.entries]
    simp only [List.forall_mem_append, List.forall_mem_cons]
    refine ⟨⟨⟨?_, FilesValid.simple ⟨h.size, h.extension, h.license, h.files⟩,
      .string _ (printable_of_validId h.id), simple_texts (h.permissions ▸ hpermissions),
      .string _ (h.protocol ▸ hprotocol), nofun⟩, ?_⟩, .string _ (h.schema ▸ hschema),
      .string _ (h.state ▸ hstate), .string _ ?_, .string _ (printable_of_validVersion h.version),
      nofun⟩
    · intro entry hentry
      obtain ⟨c, hc, rfl⟩ := List.mem_map.1 hentry
      have hdeclares := h.declares
      rw [Role.DeclaresIn, Option.mem_toList.1 hc] at hdeclares
      split at hdeclares
      · cases hdeclares
      · obtain ⟨_, heq, hdeclares⟩ := hdeclares
        cases heq
        exact hdeclares.simple
    · intro entry hentry
      obtain ⟨name, hname, rfl⟩ := List.mem_map.1 hentry
      have hnames := h.names
      rw [Role.NamesIn, Option.mem_toList.1 hname] at hnames
      split at hnames
      · obtain ⟨_, heq, hvalid⟩ := hnames
        cases heq
        exact .string _ (printable_of_provider hvalid)
      · cases hnames
    · rw [h.target]
      exact (by cases target <;> decide : PrintableText target.name)

end Printing

section Reading

variable {p : Package} {role : Role} {target : Target}

theorem nesting_texts (values : List String) : (texts values).nesting ≤ 1 := by
  refine Nat.succ_le_succ (Json.nestingItems_le fun item hitem => ?_)
  obtain ⟨text, -, rfl⟩ := List.mem_map.1 hitem
  exact Nat.le_refl 0

theorem nesting_filesOf (files : OrderedMap String String) : (filesOf files).nesting ≤ 1 := by
  refine Nat.succ_le_succ (Json.nestingFields_le fun entry hentry => ?_)
  obtain ⟨entry, -, rfl⟩ := List.mem_map.1 hentry
  exact Nat.le_refl 0

theorem nesting_capabilities (c : Capabilities) : c.toValue.nesting ≤ 2 := by
  refine Nat.succ_le_succ (Json.nestingFields_le ?_)
  simp only [List.forall_mem_cons]
  exact ⟨nesting_texts _, nesting_texts _, nesting_texts _, Nat.zero_le _, nofun⟩

theorem nesting_entries (p : Package) : (Json.object p.entries).nesting ≤ 3 := by
  refine Nat.succ_le_succ (Json.nestingFields_le ?_)
  rw [Package.entries]
  simp only [List.forall_mem_append, List.forall_mem_cons]
  refine ⟨⟨⟨?_, (nesting_filesOf _).trans (by decide), Nat.zero_le _,
    (nesting_texts _).trans (by decide), Nat.zero_le _, nofun⟩, ?_⟩, Nat.zero_le _, Nat.zero_le _,
    Nat.zero_le _, Nat.zero_le _, nofun⟩
  · intro entry hentry
    obtain ⟨c, -, rfl⟩ := List.mem_map.1 hentry
    exact nesting_capabilities c
  · intro entry hentry
    obtain ⟨name, -, rfl⟩ := List.mem_map.1 hentry
    exact Nat.zero_le _

/-- A field that is there, and its reader. -/
theorem bind_field {α : Type} {o : Option Json} {f : Json → Option α} {v : Json} {a : α}
    (h : o = some v) (hf : f v = some a) : o.bind f = some a := by
  rw [h]
  exact hf

@[simp] theorem readTexts_texts (values : List String) : readTexts (texts values) = some values :=
  readTexts_iff.2 rfl

@[simp] theorem readFiles_filesOf (files : OrderedMap String String) :
    Package.readFiles (filesOf files) = some files := by
  have hentries : (files.entries.map fun entry => (entry.1, Json.string entry.2)).mapM
      (fun entry => (Json.asStr entry.2).map fun digest => (entry.1, digest)) =
        some files.entries :=
    mapM_map_some (f := fun entry : String × String => (entry.1, Json.string entry.2))
      (fun _ => rfl) files.entries
  refine bind_of_some rfl (bind_of_some hentries ?_)
  exact congrArg some (OrderedMap.foldl_insert_entries files)

@[simp] theorem readCapabilities_toValue (c : Capabilities) :
    Capabilities.read c.toValue = some c := by
  refine bind_of_some (structFields_of_keys ["apis", "features", "requires", "schema"] c.entries rfl (by decide) (by decide)) ?_
  exact bind_of_some (bind_field rfl rfl) <| bind_of_some (bind_field rfl (readTexts_texts _)) <|
    bind_of_some (bind_field rfl (readTexts_texts _)) <|
    bind_of_some (bind_field rfl (readTexts_texts _)) rfl

theorem readCapabilities_map (c : Option Capabilities) :
    Package.readCapabilities (c.map Capabilities.toValue) = some c := by
  cases c with
  | none => rfl
  | some c => exact congrArg (Option.map some) (readCapabilities_toValue c)

theorem optionalStr_map (name : Option String) :
    Json.optionalStr (name.map .string) = some name := by
  cases name <;> rfl

/-- What is written for a package of a role reads as it. -/
theorem read_entries (hkeys : p.entries.map Prod.fst = role.keys) :
    Package.read (.object p.entries) = some p := by
  have h := holds_entries p
  refine bind_of_some (a := fun key => Assoc.get key p.entries)
    (structFields_of_keys role.keys _ hkeys role.keys_sorted.nodup role.keys_fields) ?_
  refine bind_of_some (bind_field h.schema rfl) <| bind_of_some (bind_field h.id rfl) <|
    bind_of_some (bind_field h.version rfl) <| bind_of_some (bind_field h.target rfl) <|
    bind_of_some (bind_field h.protocol rfl) <|
    bind_of_some (bind_field h.permissions (readTexts_texts _)) <|
    bind_of_some (bind_field h.state rfl) <|
    bind_of_some (bind_field h.files (readFiles_filesOf _)) <|
    bind_of_some ((congrArg _ h.capabilities).trans (readCapabilities_map _)) <|
    bind_of_some ((congrArg _ h.provider).trans (optionalStr_map _)) rfl

end Reading

section Agreement

variable {lenient : ByteArray → Option Json} {dumps : Json → Text} {raw : ByteArray}
  {fields : Fields} {p : Package} {target : Target}

/-- The gateway accepts the documents of well-formed packages. -/
theorem package_iff : (decode Package.read Package.toValue raw = .ok p ∧
    p.validate target = .ok ()) ↔
      ∃ role, WellFormed target role p ∧ raw = document (.object p.entries) := by
  have hdecode : ∀ {role}, WellFormed target role p →
      (decode Package.read Package.toValue raw = .ok p ↔ raw = document (.object p.entries)) :=
    fun h => decode_iff (read_entries (keys_entries h.declares h.names))
      ((nesting_entries p).trans (by decide))
  rw [validate_iff]
  constructor
  · rintro ⟨hread, role, h⟩
    exact ⟨role, h, (hdecode h).1 hread⟩
  · rintro ⟨role, h, hraw⟩
    exact ⟨(hdecode h).2 hraw, role, h⟩

/-- The manager accepts the documents of well-formed packages. -/
theorem validatePackage_iff (hdumps : ∀ v, Simple v → dumps v = v.render) :
    Manager.validatePackage lenient dumps raw target.name = .ok fields ↔
      ∃ role p, fields = p.entries ∧ WellFormed target role p ∧
        raw = document (.object p.entries) := by
  have hcanonical : ∀ {role p}, WellFormed target role p →
      Manager.canonical dumps (.object p.entries) = document (.object p.entries) := fun h => by
    rw [Manager.canonical, hdumps _ h.simple, document]
  simp only [Manager.validatePackage, bind_ok, okOr_ok, require_ok, pure_ok, decide_eq_true_eq,
    Json.asObject_eq_some]
  constructor
  · rintro ⟨_, hdecode, _, rfl, _, hschema, _, hcontents, _, hraw, rfl⟩
    obtain ⟨role, p, rfl, h⟩ := (checked_iff (decodeJson_loaded hdecode)).1 ⟨hschema, hcontents⟩
    exact ⟨role, p, rfl, h, by rw [← hraw, hcanonical h]⟩
  · rintro ⟨role, p, rfl, h, rfl⟩
    obtain ⟨hschema, hcontents⟩ := (checked_iff h.simple.loaded).2 ⟨role, p, rfl, h⟩
    exact ⟨_, decodeJson_document h.simple.loaded ((nesting_entries p).trans (by decide)), _, rfl,
      (), hschema, (), hcontents, (), hcanonical h, rfl⟩

end Agreement

end ResponseGateway.Extensions
