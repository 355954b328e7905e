import ResponseGateway.Extensions.Packages

/-!
Activation locks. What the manager accepts is the value of an activation that the gateway
accepts; the gateway asks less of the binding of a recorder.
-/

namespace ResponseGateway.Extensions
open Checked Ir Usage
open Json (Fields)
open Manager (hasKeys oneOf asInt)

section Integers

variable {value : Json} {n : Int}

theorem number_of_digits {number : Json.Number} (hne : number.text.toList ≠ [])
    (h : ∀ c ∈ number.text.toList, c.isDigit = true) :
    number = .ofNat (Nat.ofDigitChars 10 number.text.toList 0) := by
  obtain ⟨text, valid⟩ := number
  have hplain := Json.plain_of_isNumber valid hne h
  have htext : text = (Nat.ofDigitChars 10 text.toList 0).repr := by
    rw [← String.toList_inj, Nat.toList_repr]
    exact (Json.toDigits_ofDigitChars hplain).1.symm
  rw [Json.Number.mk.injEq]
  exact htext

/-- A minus sign before a zero. -/
theorem negative_zero {number : Json.Number} {digits : List Char}
    (htext : number.text.toList = '-' :: digits) (h : ∀ c ∈ digits, c.isDigit = true)
    (hzero : Nat.ofDigitChars 10 digits 0 = 0) : number.text = "-0" := by
  obtain ⟨text, valid⟩ := number
  have hnumber : Json.isNumber (String.ofList digits) = true := by
    rw [Json.isNumber, String.toList_ofList, Json.unsigned_digits h]
    rw [Json.isNumber, htext] at valid
    exact valid
  have hne : digits ≠ [] := by
    rintro rfl
    rw [Json.isNumber, htext] at valid
    cases valid
  have hplain : Json.Plain digits := by
    have hplain := Json.plain_of_isNumber hnumber
    rw [String.toList_ofList] at hplain
    exact hplain hne h
  have hdigits := (Json.toDigits_ofDigitChars hplain).1
  rw [hzero] at hdigits
  rw [← String.toList_inj, htext, ← hdigits]
  rfl

/-- An integer that is not negative is written as it is read. -/
theorem number_of_asInt (hloaded : Loaded value) (h : asInt value = some n) (hn : 0 ≤ n) :
    value = .number (.ofNat n.toNat) := by
  unfold asInt at h
  split at h
  · next number =>
      split at h
      · next digits htext =>
          split at h
          · next hall =>
              rw [List.all_eq_true] at hall
              cases h
              have hzero : Nat.ofDigitChars 10 digits 0 = 0 := by omega
              exact absurd (negative_zero htext hall hzero) hloaded
          · cases h
      · split at h
        · next hall =>
            rw [List.all_eq_true] at hall
            cases h
            rw [Int.toNat_natCast, ← number_of_digits (Json.number_ne_nil number) hall]
        · cases h
  · cases h

theorem within_iff {value : Option Json} (hloaded : ∀ v, value = some v → Loaded v)
    {least most : Nat} (h : Manager.within value least most = true) :
    ∃ n : Nat, value = some (.number (.ofNat n)) ∧ least ≤ n ∧ n ≤ most := by
  simp only [Manager.within, Option.any_eq_true, Option.bind_eq_some_iff, Bool.and_eq_true,
    decide_eq_true_eq] at h
  obtain ⟨n, ⟨v, hvalue, hn⟩, hleast, hmost⟩ := h
  refine ⟨n.toNat, ?_, by omega, by omega⟩
  rw [hvalue, number_of_asInt (hloaded v hvalue) hn (by omega)]

end Integers

section Bindings

variable {binding : Json} {r : RecorderBinding}

def RecorderBinding.entries (r : RecorderBinding) : Fields :=
  [("ack_timeout_ms", .number (.ofNat r.ackTimeoutMs)),
    ("config_sha256", .string r.configSha256), ("mode", .string r.mode.name),
    ("queue_capacity", .number (.ofNat r.queueCapacity)), ("store_id", .string r.storeId)]

def bindingKeys : List String :=
  ["ack_timeout_ms", "config_sha256", "mode", "queue_capacity", "store_id"]

/-- What the manager asks of a binding. -/
structure Bound (r : RecorderBinding) : Prop where
  store : validId r.storeId = true
  queue : 2 ≤ r.queueCapacity ∧ r.queueCapacity ≤ 4096
  ack : 1 ≤ r.ackTimeoutMs ∧ r.ackTimeoutMs ≤ 60000
  config : validHash r.configSha256 = true

theorem bound_of_validateBinding (hloaded : Loaded binding)
    (h : Manager.validateBinding binding = .ok ()) :
    ∃ r, binding = .object (RecorderBinding.entries r) ∧ Bound r := by
  simp only [Manager.validateBinding, bind_ok, okOr_ok, require_ok, Bool.and_eq_true,
    Json.asObject_eq_some, Manager.identifier, Manager.hexDigest,
    isMatch_iff fullMatch_identifier, isMatch_iff fullMatch_hex, oneOf_iff] at h
  obtain ⟨fields, rfl, _, hkeys, ⟨⟨⟨⟨store, hstore, hvalidStore⟩, name, hname, hmode⟩, hqueue⟩, hack⟩,
    config, hconfig, hvalidConfig⟩ := h
  have hvalues : ∀ key v, Assoc.get key fields = some v → Loaded v := fun key v hget =>
    loadedFields_iff.1 hloaded.2 _ (Assoc.mem_of_get hget)
  obtain ⟨queue, hqueue, hqueueBounds⟩ := within_iff (hvalues "queue_capacity") hqueue
  obtain ⟨ack, hack, hackBounds⟩ := within_iff (hvalues "ack_timeout_ms") hack
  obtain ⟨mode, rfl⟩ : ∃ mode : Mode, mode.name = name := by
    simp only [List.mem_cons, List.not_mem_nil, or_false] at hname
    rcases hname with rfl | rfl | rfl
    · exact ⟨.off, rfl⟩
    · exact ⟨.bestEffort, rfl⟩
    · exact ⟨.durableLocal, rfl⟩
  have hsame : bindingKeys.toFinset = Manager.bindingNames.toFinset := by decide
  have hentries := eq_of_keys (keys_of_hasKeys bindingKeys hloaded.1 hkeys (by decide) hsame) (by decide)
  simp only [bindingKeys, List.map_cons, List.map_nil, hstore, hmode, hqueue, hack, hconfig,
    Option.getD_some] at hentries
  exact ⟨⟨store, mode, queue, ack, config⟩, congrArg Json.object hentries, hvalidStore,
    hqueueBounds, hackBounds, hvalidConfig⟩

theorem Bound.validate (h : Bound r) : r.validate = true := by
  have hstore := h.store
  have hconfig := h.config
  simp only [validId, Bool.and_eq_true, decide_eq_true_eq] at hstore
  simp only [validHash, isSha256, Bool.and_eq_true, decide_eq_true_eq] at hconfig
  simp only [RecorderBinding.validate, Bool.and_eq_true, decide_eq_true_eq]
  exact ⟨⟨⟨⟨⟨hstore.1.1.2, hstore.2⟩, hstore.1.1.1⟩, h.queue⟩, h.ack⟩, hconfig.1⟩

theorem Bound.simple (h : Bound r) : Simple (.object r.entries) := by
  have hkeys : r.entries.map Prod.fst = bindingKeys := rfl
  refine .object r.entries (sorted_of_keys hkeys (by decide)) (fun entry hentry => ?_) ?_
  · exact (by decide : ∀ key ∈ bindingKeys, PrintableText key) entry.1
      (hkeys ▸ List.mem_map_of_mem hentry)
  · rw [RecorderBinding.entries]
    simp only [List.forall_mem_cons]
    refine ⟨.number _, .string _ (printable_of_validHash h.config), .string _ ?_, .number _,
      .string _ (printable_of_validId h.store), nofun⟩
    exact (by cases r.mode <;> decide : PrintableText r.mode.name)

theorem Bound.read (h : Bound r) : RecorderBinding.read (.object r.entries) = some r := by
  have hqueue : r.queueCapacity < 2 ^ 64 := h.queue.2.trans_lt (by decide)
  have hack : r.ackTimeoutMs < 2 ^ 64 := h.ack.2.trans_lt (by decide)
  refine bind_of_some (structFields_of_keys bindingKeys r.entries rfl (by decide) (by decide)) ?_
  exact bind_of_some (bind_field rfl rfl) <|
    bind_of_some (bind_field rfl (readName_string r.mode (by cases r.mode <;> rfl))) <|
    bind_of_some (bind_field rfl (Json.asU64_ofNat hqueue)) <|
    bind_of_some (bind_field rfl (Json.asU64_ofNat hack)) <| bind_of_some (bind_field rfl rfl) rfl

end Bindings

section Entries

variable {entry : Json} {e : EnabledExtension} {ids : List String}

def EnabledExtension.entries (e : EnabledExtension) : Fields :=
  [("grants", texts e.grants), ("id", .string e.id),
    ("package_sha256", .string e.packageSha256), ("version", .string e.version)]

def entryKeys : List String := ["grants", "id", "package_sha256", "version"]

/-- What the manager asks of an entry. -/
structure Enabled (e : EnabledExtension) : Prop where
  id : validId e.id = true
  version : validVersion e.version = true
  digest : validHash e.packageSha256 = true
  grants : e.grants ∈ [permissions, recorderPermissions, codecPermissions]

theorem enabled_of_validEntry (hloaded : Loaded entry)
    (h : (entry.isObject && Manager.validEntry ids entry) = true) :
    ∃ e, entry = .object (EnabledExtension.entries e) ∧ Enabled e ∧ e.id ∉ ids := by
  rw [Bool.and_eq_true, Json.isObject, Option.isSome_iff_exists] at h
  obtain ⟨⟨fields, hfields⟩, h⟩ := h
  obtain rfl := Json.asObject_eq_some.1 hfields
  have hfield : ∀ key, (Json.object fields).field key = Assoc.get key fields := fun _ => rfl
  simp only [Manager.validEntry, Bool.and_eq_true, Manager.identifier, Manager.version,
    Manager.hexDigest, isMatch_iff fullMatch_identifier, isMatch_iff fullMatch_version,
    isMatch_iff fullMatch_hex, List.any_eq_true, decide_eq_true_eq, Bool.not_eq_true',
    List.contains_eq_mem, decide_eq_false_iff_not, hfield] at h
  obtain ⟨⟨⟨⟨⟨hkeys, id, hid, hvalidId⟩, version, hversion, hvalidVersion⟩, digest, hdigest,
    hvalidDigest⟩, grants, hgrants, hget⟩, hnew⟩ := h
  have hsame : entryKeys.toFinset =
      ["id", "version", "package_sha256", "grants"].toFinset := by decide
  have hentries := eq_of_keys (keys_of_hasKeys entryKeys hloaded.1 hkeys (by decide) hsame) (by decide)
  simp only [entryKeys, List.map_cons, List.map_nil, hid, hversion, hdigest, hget,
    Option.getD_some] at hentries
  refine ⟨⟨id, version, digest, grants⟩, congrArg Json.object hentries,
    ⟨hvalidId, hvalidVersion, hvalidDigest, hgrants⟩, ?_⟩
  have hidOf : Manager.idOf (.object fields) = id := by
    rw [Manager.idOf, Json.fieldStr, hfield, hid]
    rfl
  rwa [hidOf] at hnew

theorem idOf_entries (e : EnabledExtension) : Manager.idOf (.object e.entries) = e.id := rfl

theorem Enabled.simple (h : Enabled e) : Simple (.object e.entries) := by
  have hkeys : e.entries.map Prod.fst = entryKeys := rfl
  refine .object e.entries (sorted_of_keys hkeys (by decide)) (fun entry hentry => ?_) ?_
  · exact (by decide : ∀ key ∈ entryKeys, PrintableText key) entry.1
      (hkeys ▸ List.mem_map_of_mem hentry)
  · rw [EnabledExtension.entries]
    simp only [List.forall_mem_cons]
    refine ⟨simple_texts ?_, .string _ (printable_of_validId h.id),
      .string _ (printable_of_validHash h.digest), .string _ (printable_of_validVersion h.version),
      nofun⟩
    exact (by decide : ∀ grants ∈ [permissions, recorderPermissions, codecPermissions],
      ∀ name ∈ grants, PrintableText name) e.grants h.grants

theorem read_enabled (e : EnabledExtension) :
    EnabledExtension.read (.object e.entries) = some e := by
  refine bind_of_some (structFields_of_keys entryKeys e.entries rfl (by decide) (by decide)) ?_
  exact bind_of_some (bind_field rfl rfl) <| bind_of_some (bind_field rfl rfl) <|
    bind_of_some (bind_field rfl rfl) <| bind_of_some (bind_field rfl (readTexts_texts _)) rfl

/-- The entries that the loop accepts are those of extensions with different names. -/
theorem enabled_of_validateActivated {items : List Json} (hloaded : ∀ item ∈ items, Loaded item)
    (h : Manager.validateActivated ids items = .ok ()) :
    ∃ es : List EnabledExtension, items = es.map (fun e => .object e.entries) ∧
      (∀ e ∈ es, Enabled e ∧ e.id ∉ ids) ∧ (es.map (·.id)).Nodup := by
  induction items generalizing ids with
  | nil => exact ⟨[], rfl, nofun, .nil⟩
  | cons item rest ih =>
      rw [List.forall_mem_cons] at hloaded
      simp only [Manager.validateActivated, bind_ok, require_ok] at h
      obtain ⟨_, hitem, hrest⟩ := h
      obtain ⟨e, rfl, henabled, hnew⟩ := enabled_of_validEntry hloaded.1 hitem
      obtain ⟨es, rfl, hall, hnodup⟩ := ih hloaded.2 hrest
      rw [idOf_entries] at hall
      refine ⟨e :: es, rfl, List.forall_mem_cons.2 ⟨⟨henabled, hnew⟩, fun e' he' => ?_⟩, ?_⟩
      · exact ⟨(hall e' he').1, fun hmem => (hall e' he').2 (List.mem_cons_of_mem _ hmem)⟩
      · rw [List.map_cons, List.nodup_cons]
        refine ⟨fun hmem => ?_, hnodup⟩
        obtain ⟨e', he', heq⟩ := List.mem_map.1 hmem
        exact (hall e' he').2 (heq ▸ List.mem_cons_self)

/-- Entries in the order of their names come in increasing order. -/
theorem increasing_of_sorted {es : List EnabledExtension} (hnodup : (es.map (·.id)).Nodup)
    (h : es.map (fun e => Json.object e.entries) =
      (es.map fun e => Json.object e.entries).insertionSort fun a b =>
        Manager.idOf a ≤ Manager.idOf b) : es.Pairwise fun a b => a.id < b.id := by
  have : Std.Total fun a b : Json => Manager.idOf a ≤ Manager.idOf b := ⟨fun a b => le_total _ _⟩
  have : IsTrans Json fun a b => Manager.idOf a ≤ Manager.idOf b := ⟨fun _ _ _ => le_trans⟩
  have hsorted := List.pairwise_insertionSort
    (fun a b : Json => Manager.idOf a ≤ Manager.idOf b) (es.map fun e => .object e.entries)
  rw [← h, List.pairwise_map] at hsorted
  rw [List.Nodup, List.pairwise_map] at hnodup
  exact (hsorted.and hnodup).imp fun ⟨hle, hne⟩ => lt_of_le_of_ne hle hne

/-- The loop of the gateway accepts valid entries in increasing order. -/
theorem validateEntries_ok {recorder : Bool} {previous : Option String}
    {es : List EnabledExtension} (hvalid : ∀ e ∈ es, e.valid recorder = true)
    (hsorted : es.Pairwise fun a b => a.id < b.id)
    (hprevious : ∀ id ∈ previous, ∀ e ∈ es, id < e.id) :
    Activation.validateEntries recorder previous es = .ok () := by
  induction es generalizing previous with
  | nil => rfl
  | cons e rest ih =>
      rw [List.forall_mem_cons] at hvalid
      obtain ⟨hfirst, hrest⟩ := List.pairwise_cons.1 hsorted
      have hnot : previous.any (e.id ≤ ·) = false := by
        cases previous with
        | none => rfl
        | some id =>
            exact decide_eq_false (not_le.2 (hprevious id rfl e List.mem_cons_self))
      rw [Activation.validateEntries, hvalid.1, hnot]
      refine ih hvalid.2 hrest fun id hid e' he' => ?_
      cases hid
      exact hfirst e' he'

end Entries

section Activations

variable {fields : Fields} {a : Activation}

def Activation.entries (a : Activation) : Fields :=
  [("extensions", .array (a.extensions.map (·.toValue))),
    ("generation", .number (.ofNat a.generation))] ++
    (a.recorder.toList.map fun r => ("recorder", r.toValue)) ++ [("schema", .string a.schema)]

/-- The keys of a lock, with a recorder or without. -/
def lockKeys (recorder : Bool) : List String :=
  ["extensions", "generation"] ++ (if recorder then ["recorder"] else []) ++ ["schema"]

theorem lockKeys_sorted (recorder : Bool) : (lockKeys recorder).Pairwise (· < ·) := by
  cases recorder <;> decide

theorem keys_lock (a : Activation) : a.entries.map Prod.fst = lockKeys a.recorder.isSome := by
  rw [Activation.entries, lockKeys, List.map_append, List.map_append]
  cases a.recorder <;> rfl

/-- A lock says of an activation what there is to say. -/
structure Locks (fields : Fields) (a : Activation) : Prop where
  schema : Assoc.get "schema" fields = some (.string a.schema)
  generation : Assoc.get "generation" fields = some (.number (.ofNat a.generation))
  extensions : Assoc.get "extensions" fields = some (.array (a.extensions.map (·.toValue)))
  recorder : Assoc.get "recorder" fields = a.recorder.map (·.toValue)

theorem locks_entries (a : Activation) : Locks a.entries a := by
  obtain ⟨schema, recorder, generation, extensions⟩ := a
  cases recorder <;> exact ⟨rfl, rfl, rfl, rfl⟩

theorem Locks.eq_entries (h : Locks fields a)
    (hkeys : fields.map Prod.fst = lockKeys a.recorder.isSome) : fields = a.entries := by
  have hnodup : (lockKeys a.recorder.isSome).Nodup := (lockKeys_sorted _).nodup
  have h' := locks_entries a
  rw [eq_of_keys hkeys hnodup, eq_of_keys (keys_lock a) hnodup]
  refine List.map_congr_left fun key hkey => ?_
  have hcases : key = "extensions" ∨ key = "generation" ∨ key = "recorder" ∨ key = "schema" := by
    revert key
    cases a.recorder.isSome <;> decide
  have hget : Assoc.get key fields = Assoc.get key a.entries := by
    rcases hcases with rfl | rfl | rfl | rfl
    · rw [h.extensions, h'.extensions]
    · rw [h.generation, h'.generation]
    · rw [h.recorder, h'.recorder]
    · rw [h.schema, h'.schema]
  rw [hget]

/-- What the manager asks of a lock. -/
structure Locked (a : Activation) : Prop where
  schema : a.schema = if a.recorder.isSome then "gateway-extension-lock/v2" else lockSchema
  generation : a.generation < 2 ^ 64
  length : a.extensions.length ≤ maxExtensions
  enabled : ∀ e ∈ a.extensions, Enabled e
  increasing : a.extensions.Pairwise fun x y => x.id < y.id
  recorder : ∀ r, a.recorder = some r → Bound r
  grants : a.extensions.countP (·.grants = recorderPermissions) =
    if a.recorder.isSome then 1 else 0

theorem enabled_of_validateExtensions {items : List Json}
    (hloaded : ∀ v, Assoc.get "extensions" fields = some v → Loaded v)
    (h : Manager.validateExtensions fields = .ok items) :
    ∃ es : List EnabledExtension, items = es.map (·.toValue) ∧
      Assoc.get "extensions" fields = some (.array (es.map (·.toValue))) ∧
      es.length ≤ maxExtensions ∧ (∀ e ∈ es, Enabled e) ∧ es.Pairwise fun x y => x.id < y.id := by
  simp only [Manager.validateExtensions, bind_ok, okOr_ok, require_ok, pure_ok,
    Option.bind_eq_some_iff, Json.asArray_eq_some, decide_eq_true_eq] at h
  obtain ⟨_, ⟨_, hget, rfl⟩, _, hlength, _, hactivated, _, hsorted, rfl⟩ := h
  obtain ⟨es, rfl, henabled, hnodup⟩ :=
    enabled_of_validateActivated (loadedItems_iff.1 (hloaded _ hget)) hactivated
  rw [List.length_map] at hlength
  exact ⟨es, rfl, hget, hlength, fun e he => (henabled e he).1, increasing_of_sorted hnodup hsorted⟩

theorem bound_of_recorder (hloaded : ∀ v, Assoc.get "recorder" fields = some v → Loaded v)
    (h : (Assoc.get "recorder" fields).toList.forM Manager.validateBinding = .ok ()) :
    ∃ recorder : Option RecorderBinding, Assoc.get "recorder" fields = recorder.map (·.toValue) ∧
      ∀ r, recorder = some r → Bound r := by
  cases hget : Assoc.get "recorder" fields with
  | none => exact ⟨none, rfl, nofun⟩
  | some binding =>
      rw [hget, forM_ok] at h
      obtain ⟨r, rfl, hbound⟩ :=
        bound_of_validateBinding (hloaded binding hget) (h binding (List.mem_singleton_self _))
      refine ⟨some r, rfl, fun r' hr' => ?_⟩
      cases hr'
      exact hbound

theorem grants_toValue (e : EnabledExtension) :
    (e.toValue.field "grants" = some (texts recorderPermissions)) ↔
      e.grants = recorderPermissions := by
  rw [show e.toValue.field "grants" = some (texts e.grants) from rfl, Option.some_inj, texts_inj]

/-- What the manager has checked of a lock is the value of an activation. -/
theorem locked_of_checks {items : List Json} (hloaded : Loaded (.object fields))
    (hgeneration : Manager.validateGeneration fields = .ok ())
    (hextensions : Manager.validateExtensions fields = .ok items)
    (hrecorder : (Assoc.get "recorder" fields).toList.forM Manager.validateBinding = .ok ())
    (hcount : (items.countP fun entry => entry.field "grants" = some (texts recorderPermissions)) =
      if (Assoc.get "recorder" fields).isSome then 1 else 0) :
    ∃ a, fields = Activation.entries a ∧ Locked a := by
  have hvalues : ∀ key v, Assoc.get key fields = some v → Loaded v := fun key v hget =>
    loadedFields_iff.1 hloaded.2 _ (Assoc.mem_of_get hget)
  obtain ⟨es, rfl, hes, hlength, henabled, hincreasing⟩ :=
    enabled_of_validateExtensions (hvalues "extensions") hextensions
  obtain ⟨recorder, hget, hbound⟩ := bound_of_recorder (hvalues "recorder") hrecorder
  have hsome : (Assoc.get "recorder" fields).isSome = recorder.isSome := by
    rw [hget, Option.isSome_map]
  rw [hsome, List.countP_map] at hcount
  simp only [Function.comp_def, grants_toValue] at hcount
  simp only [Manager.validateGeneration, require_ok, Bool.and_eq_true, oneOf_singleton,
    hsome] at hgeneration
  obtain ⟨⟨hkeys, hschema⟩, hwithin⟩ := hgeneration
  obtain ⟨n, hn, -, hmost⟩ := @within_iff _ (hvalues "generation") 0 (2 ^ 64 - 1) hwithin
  let a : Activation := ⟨if recorder.isSome then "gateway-extension-lock/v2" else lockSchema,
    recorder, n, es⟩
  have hlocks : Locks fields a := ⟨hschema, hn, hes, hget⟩
  refine ⟨a, hlocks.eq_entries (keys_of_hasKeys _ hloaded.1 hkeys (lockKeys_sorted _) ?_),
    rfl, hmost.trans_lt (by decide), hlength, henabled, hincreasing, hbound, hcount⟩
  change (lockKeys recorder.isSome).toFinset = _
  cases recorder.isSome <;> decide

theorem Locked.recorder_of_grants (h : Locked a) {e : EnabledExtension} (he : e ∈ a.extensions)
    (hgrants : e.grants = recorderPermissions) : a.recorder.isSome = true := by
  have hcount := h.grants
  cases hrecorder : a.recorder.isSome with
  | true => rfl
  | false =>
      rw [hrecorder, if_neg Bool.false_ne_true, List.countP_eq_zero] at hcount
      exact absurd (decide_eq_true hgrants) (hcount e he)

/-- What is locked is valid for the gateway. -/
theorem Locked.validate (h : Locked a) : a.validate = .ok () := by
  have hvalid : ∀ e ∈ a.extensions, e.valid a.recorder.isSome = true := fun e he => by
    have henabled := h.enabled e he
    rw [EnabledExtension.valid, henabled.id, henabled.version, henabled.digest]
    simp only [Bool.true_and, Bool.or_eq_true, Bool.and_eq_true, decide_eq_true_eq]
    have hgrants := henabled.grants
    simp only [List.mem_cons, List.not_mem_nil, or_false] at hgrants
    rcases hgrants with hgrants | hgrants | hgrants
    · exact .inl (.inl hgrants)
    · exact .inr ⟨h.recorder_of_grants he hgrants, hgrants⟩
    · exact .inl (.inr hgrants)
  have hbinding : (a.recorder.any fun r => !r.validate) = false := by
    rw [Option.any_eq_false]
    intro r hr
    rw [(h.recorder r hr).validate]
    decide
  simp only [Activation.validate, bind_ok, rejectIf_ok, Bool.or_eq_false_iff,
    decide_eq_false_iff_not, ne_eq, not_not, not_lt]
  exact ⟨(), ⟨⟨h.schema, h.length⟩, hbinding⟩, validateEntries_ok hvalid h.increasing (by simp)⟩

theorem Locked.simple (h : Locked a) : Simple (.object a.entries) := by
  refine .object _ (sorted_of_keys (keys_lock a) (lockKeys_sorted _)) (fun entry hentry => ?_) ?_
  · have hprintable : ∀ recorder, ∀ key ∈ lockKeys recorder, PrintableText key := by decide
    exact hprintable _ entry.1 (keys_lock a ▸ List.mem_map_of_mem hentry)
  · rw [Activation.entries]
    simp only [List.forall_mem_append, List.forall_mem_cons]
    refine ⟨⟨⟨.array _ fun item hitem => ?_, .number _, nofun⟩, fun entry hentry => ?_⟩,
      .string _ ?_, nofun⟩
    · obtain ⟨e, he, rfl⟩ := List.mem_map.1 hitem
      exact (h.enabled e he).simple
    · obtain ⟨r, hr, rfl⟩ := List.mem_map.1 hentry
      exact (h.recorder r (Option.mem_toList.1 hr)).simple
    · have hschemas : ∀ recorder : Bool,
          PrintableText (if recorder then "gateway-extension-lock/v2" else lockSchema) := by decide
      rw [h.schema]
      exact hschemas _

theorem nesting_lock (a : Activation) : (Json.object a.entries).nesting ≤ 4 := by
  refine Nat.succ_le_succ (Json.nestingFields_le ?_)
  rw [Activation.entries]
  simp only [List.forall_mem_append, List.forall_mem_cons]
  refine ⟨⟨⟨Nat.succ_le_succ (Json.nestingItems_le fun item hitem => ?_), Nat.zero_le _, nofun⟩,
    fun entry hentry => ?_⟩, Nat.zero_le _, nofun⟩
  · obtain ⟨e, -, rfl⟩ := List.mem_map.1 hitem
    refine Nat.succ_le_succ (Json.nestingFields_le ?_)
    rw [List.forall_mem_cons]
    exact ⟨nesting_texts _, by simp [Json.nesting]⟩
  · obtain ⟨r, -, rfl⟩ := List.mem_map.1 hentry
    refine Nat.succ_le_succ (Json.nestingFields_le ?_)
    simp [Json.nesting]

theorem Locked.read (h : Locked a) : Activation.read (.object a.entries) = some a := by
  have hlocks := locks_entries a
  have hrecorder : Activation.readRecorder (a.recorder.map (·.toValue)) = some a.recorder := by
    cases hr : a.recorder with
    | none => rfl
    | some r => exact congrArg (Option.map some) (h.recorder r hr).read
  have hextensions : (a.extensions.map (·.toValue)).mapM EnabledExtension.read =
      some a.extensions := mapM_map_some read_enabled a.extensions
  refine bind_of_some (a := fun key => Assoc.get key a.entries)
    (structFields_of_keys _ _ (keys_lock a) (lockKeys_sorted _).nodup ?_) ?_
  · cases a.recorder.isSome <;> decide
  · exact bind_of_some (bind_field hlocks.schema rfl) <|
      bind_of_some ((congrArg _ hlocks.recorder).trans hrecorder) <|
      bind_of_some (bind_field hlocks.generation (Json.asU64_ofNat h.generation)) <|
      bind_of_some (bind_field hlocks.extensions rfl) <| bind_of_some hextensions rfl

variable {lenient : ByteArray → Option Json} {dumps : Json → Text} {raw : ByteArray}

/-- A lock of the manager is one of the gateway. -/
theorem readLock_accepted (hdumps : ∀ v, Simple v → dumps v = v.render)
    (h : Manager.readLock lenient dumps raw = .ok fields) :
    ∃ a, decode Activation.read Activation.toValue raw = .ok a ∧ a.validate = .ok () ∧
      Locks fields a := by
  simp only [Manager.readLock, bind_ok, okOr_ok, require_ok, pure_ok, decide_eq_true_eq,
    Json.asObject_eq_some] at h
  obtain ⟨_, hdecode, _, rfl, _, hgeneration, items, hextensions, _, hrecorder, _, hcount, _,
    hraw, rfl⟩ := h
  obtain ⟨a, rfl, hlocked⟩ := locked_of_checks (decodeJson_loaded hdecode) hgeneration hextensions
    hrecorder hcount
  rw [Manager.canonical, hdumps _ hlocked.simple] at hraw
  have hread : decode Activation.read Activation.toValue raw = .ok a ↔
      raw = document (.object a.entries) :=
    decode_iff hlocked.read ((nesting_lock a).trans (by decide))
  exact ⟨a, hread.2 hraw.symm, hlocked.validate, locks_entries a⟩

end Activations

section Documents

/-- Both sides accept the same packages and read the same of them, and the gateway accepts the
locks of the manager with their entries. -/
theorem documents_agree {lenient : ByteArray → Option Json} {dumps : Json → Text}
    (hdumps : ∀ v, Simple v → dumps v = v.render) :
    (∀ (target : Target) (raw : ByteArray),
      ((∃ fields, Manager.validatePackage lenient dumps raw target.name = .ok fields) ↔
        ∃ p, decode Package.read Package.toValue raw = .ok p ∧ p.validate target = .ok ()) ∧
      ∀ fields p, Manager.validatePackage lenient dumps raw target.name = .ok fields →
        decode Package.read Package.toValue raw = .ok p → Holds fields p) ∧
    ∀ (raw : ByteArray) (fields : Fields), Manager.readLock lenient dumps raw = .ok fields →
      ∃ a, decode Activation.read Activation.toValue raw = .ok a ∧ a.validate = .ok () ∧
        Locks fields a := by
  refine ⟨fun target raw => ⟨⟨?_, ?_⟩, fun fields p hmanager hgateway => ?_⟩,
    fun raw fields h => readLock_accepted hdumps h⟩
  · rintro ⟨fields, h⟩
    obtain ⟨role, p, -, hformed, hraw⟩ := (validatePackage_iff hdumps).1 h
    exact ⟨p, package_iff.2 ⟨role, hformed, hraw⟩⟩
  · rintro ⟨p, h⟩
    obtain ⟨role, hformed, hraw⟩ := package_iff.1 h
    exact ⟨p.entries, (validatePackage_iff hdumps).2 ⟨role, p, rfl, hformed, hraw⟩⟩
  · obtain ⟨role, p', rfl, hformed, hraw⟩ := (validatePackage_iff hdumps).1 hmanager
    obtain ⟨hgateway', -⟩ := package_iff.2 ⟨role, hformed, hraw⟩
    obtain rfl : p' = p := Except.ok.inj (hgateway'.symm.trans hgateway)
    exact holds_entries p'

def exampleDigest : String := "0123456789abcdef0123456789abcdef0123456789abcdef0123456789abcdef"

/-- An observer with its executable and its licence. -/
def examplePackage : Package where
  schema := packageSchema
  id := "meter"
  version := "1.0.2"
  target := Target.linuxX64.name
  protocol := observerProtocol
  permissions := permissions
  stateSchema := "observer-state/v1"
  files := (OrderedMap.empty.insert "extension" exampleDigest).insert "LICENSE.txt" exampleDigest
  capabilities := none
  providerProtocol := none

theorem wellFormed_example : WellFormed .linuxX64 .observer examplePackage where
  schema := rfl
  protocol := rfl
  permissions := rfl
  state := rfl
  declares := rfl
  names := rfl
  id := by decide
  version := by decide
  target := rfl
  size := by decide
  extension := by decide
  license := by decide
  files := by decide

/-- A lock with an observer. -/
def exampleLock : Activation where
  schema := lockSchema
  recorder := none
  generation := 3
  extensions := [⟨"meter", "1.0.2", exampleDigest, permissions⟩]

theorem locked_example : Locked exampleLock where
  schema := rfl
  generation := by decide
  length := by decide
  enabled e he := by
    obtain rfl := List.mem_singleton.1 he
    exact ⟨by decide, by decide, by decide, by decide⟩
  increasing := List.pairwise_singleton _ _
  recorder := nofun
  grants := by decide

theorem readLock_example :
    Manager.readLock (fun _ => none) Json.render (document (.object exampleLock.entries)) =
      .ok exampleLock.entries := by
  rw [Manager.readLock, decodeJson_document locked_example.simple.loaded
    ((nesting_lock _).trans (by decide)), bind_of_ok]
  simp only [bind_ok, okOr_ok, require_ok, pure_ok, Json.asObject_eq_some]
  refine ⟨exampleLock.entries, rfl, (), ?_, exampleLock.extensions.map (·.toValue), ?_, (), rfl,
    (), ?_, (), decide_eq_true rfl, rfl⟩
  · decide
  · decide
  · decide

theorem documents_agree_observer :
    (∃ fields, Manager.validatePackage (fun _ => none) Json.render
      (document examplePackage.toValue) "linux-x64" = .ok fields) ∧
    ∃ a, decode Activation.read Activation.toValue (document (.object exampleLock.entries)) =
      .ok a ∧ a.validate = .ok () ∧ Locks exampleLock.entries a :=
  have h := @documents_agree (fun _ => none) Json.render fun _ _ => rfl
  ⟨(h.1 .linuxX64 (document examplePackage.toValue)).1.2
    ⟨examplePackage, package_iff.2 ⟨.observer, wellFormed_example, rfl⟩⟩,
    h.2 _ _ readLock_example⟩

end Documents

end ResponseGateway.Extensions
