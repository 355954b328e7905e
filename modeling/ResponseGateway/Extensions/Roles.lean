import ResponseGateway.Extensions.Documents

/-!
What a package may be: one of seven roles, each with its protocol, permissions and state, and
with what it declares. `validate` accepts exactly the well-formed packages of some role.
-/

namespace ResponseGateway.Extensions
open Checked Ir Usage

inductive Role where
  | observer
  | recorder
  | codec
  | editing
  | capabilities
  | provider
  | recorderV2
  deriving DecidableEq, Repr

/-- The features of a codec or of a provider. -/
structure Featured (features : List String) : Prop where
  sorted : features.Pairwise (· < ·)
  known : ∀ feature ∈ features, feature ∈ roleFeatures
  json : "json" ∈ features

namespace Role

def protocol : Role → String
  | observer => observerProtocol
  | recorder => recorderProtocol
  | codec => codecProtocol
  | editing => editingProtocol
  | capabilities => capabilitiesProtocol
  | provider => providerProtocol
  | recorderV2 => recorderV2Protocol

/-- Roles that declare nothing. -/
def isLegacy : Role → Bool
  | observer | recorder | codec | editing => true
  | capabilities | provider | recorderV2 => false

def schema (role : Role) : String :=
  if role.isLegacy then packageSchema else capabilitiesPackageSchema

def permissions : Role → List String
  | observer => Extensions.permissions
  | codec | editing | capabilities | provider => codecPermissions
  | recorder | recorderV2 => recorderPermissions

def state : Role → String
  | observer => "observer-state/v1"
  | recorder => "usage-store/v1"
  | codec | editing | capabilities => "request-memory/v1"
  | provider => "provider-request-memory/v1"
  | recorderV2 => "usage-store/v2"

/-- The declarations of a role. -/
def Declares : Role → Capabilities → Prop
  | capabilities, c => Featured c.features ∧ c.apis.Pairwise (· < ·) ∧ c.apis ≠ [] ∧
      (∀ api ∈ c.apis, api ∈ codecApis) ∧ c.schema = capabilitiesSchema ∧
      c.requires = ["codec_ipc_v3", "responses_output_validation"]
  | provider, c => Featured c.features ∧ c.apis = [] ∧ c.schema = capabilitiesSchema ∧
      c.requires = ["provider_ipc_v1", "responses_output_validation"]
  | recorderV2, c => c.schema = capabilitiesSchema ∧ c.apis = [] ∧
      c.features = ["usage_event_v1", "usage_event_v2"] ∧ c.requires = ["usage_recorder_ipc_v2"]
  | _, _ => False

/-- The declarations are there exactly where the role has some. -/
def DeclaresIn (role : Role) (c : Option Capabilities) : Prop :=
  if role.isLegacy then c = none else ∃ declared, c = some declared ∧ role.Declares declared

/-- The protocol that a provider speaks. -/
def NamesIn (role : Role) (name : Option String) : Prop :=
  if role = provider then ∃ spoken, name = some spoken ∧ validProviderProtocol spoken = true
  else name = none

theorem protocol_injective {role role' : Role} (h : role.protocol = role'.protocol) :
    role = role' := by
  revert h
  cases role <;> cases role' <;> decide

end Role

/-- A package of a role, for a host. -/
structure WellFormed (target : Target) (role : Role) (p : Package) : Prop where
  schema : p.schema = role.schema
  protocol : p.protocol = role.protocol
  permissions : p.permissions = role.permissions
  state : p.stateSchema = role.state
  declares : role.DeclaresIn p.capabilities
  names : role.NamesIn p.providerProtocol
  id : validId p.id = true
  version : validVersion p.version = true
  target : p.target = target.name
  size : 2 ≤ p.files.size ∧ p.files.size ≤ 8
  extension : "extension" ∈ p.files.keys
  license : "LICENSE.txt" ∈ p.files.keys
  files : ∀ entry ∈ p.files.entries, Package.validFile entry = true

section Declarations

variable {c : Capabilities} {role : Role}

theorem sorted_iff (values : List String) :
    Capabilities.sorted values = true ↔ values.Pairwise (· < ·) := by
  rw [← List.isChain_iff_pairwise]
  fun_induction Capabilities.sorted values with
  | case1 a b rest ih =>
      rw [Bool.and_eq_true, decide_eq_true_eq, ih, List.isChain_cons_cons]
  | case2 values h =>
      refine iff_of_true rfl ?_
      match values, h with
      | [], _ => exact .nil
      | [a], _ => exact .singleton a
      | a :: b :: rest, h => exact (h a b rest rfl).elim

theorem featured_iff : (Capabilities.sorted c.features &&
    c.features.all (roleFeatures.contains ·) && c.supports "json") = true ↔
      Featured c.features := by
  simp only [Bool.and_eq_true, sorted_iff, List.all_eq_true, List.contains_iff_mem,
    Capabilities.supports, List.any_eq_true, decide_eq_true_eq, exists_eq_right]
  exact ⟨fun ⟨⟨hsorted, hknown⟩, hjson⟩ => ⟨hsorted, hknown, hjson⟩,
    fun h => ⟨⟨h.sorted, h.known⟩, h.json⟩⟩

/-- The declarations that go with a protocol. -/
theorem validateFor_iff : c.validateFor role.protocol = true ↔ role.Declares c := by
  have hfeatured := featured_iff (c := c)
  simp only [Bool.and_eq_true] at hfeatured
  cases role
  case recorderV2 =>
    rw [Capabilities.validateFor, if_pos (by rfl), Role.Declares]
    simp only [Bool.and_eq_true, decide_eq_true_eq, List.isEmpty_iff, and_assoc]
  case capabilities =>
    rw [Capabilities.validateFor, if_neg (by decide), if_pos (by rfl), Role.Declares,
      ← hfeatured, ← sorted_iff]
    simp only [Bool.and_eq_true, decide_eq_true_eq, Bool.not_eq_true', List.isEmpty_eq_false_iff,
      List.all_eq_true, List.contains_iff_mem]
    tauto
  case provider =>
    rw [Capabilities.validateFor, if_neg (by decide), if_neg (by decide), if_pos (by rfl),
      Role.Declares, ← hfeatured]
    simp only [Bool.and_eq_true, decide_eq_true_eq, List.isEmpty_iff]
    constructor
    · tauto
    · rintro ⟨h, hapis, hschema, hrequires⟩
      exact ⟨⟨⟨⟨⟨hschema, by rw [hapis]; rfl⟩, h.1.1⟩, h.1.2⟩, h.2⟩, hapis, hrequires⟩
  all_goals
    rw [Capabilities.validateFor, if_neg (by decide), if_neg (by decide), if_neg (by decide),
      Bool.and_false]
    exact iff_of_false Bool.false_ne_true id

/-- Only protocols of roles have declarations. -/
theorem role_of_validateFor {protocol : String} (h : c.validateFor protocol = true) :
    ∃ role : Role, role.protocol = protocol ∧ role.isLegacy = false := by
  simp only [Capabilities.validateFor] at h
  split at h
  · next heq => exact ⟨.recorderV2, heq.symm, rfl⟩
  · rw [Bool.and_eq_true] at h
    obtain ⟨-, h⟩ := h
    split at h
    · next heq => exact ⟨.capabilities, heq.symm, rfl⟩
    · split at h
      · next heq => exact ⟨.provider, heq.symm, rfl⟩
      · cases h

end Declarations

section Validating

variable {p : Package} {role : Role} {target : Target}

theorem legacy_iff (h : p.protocol = role.protocol) : p.legacy = true ↔ role.isLegacy = true ∧
    p.schema = packageSchema ∧ p.capabilities = none ∧ p.providerProtocol = none := by
  rw [Package.legacy, h]
  simp only [Bool.and_eq_true, Bool.or_eq_true, decide_eq_true_eq, Option.isNone_iff_eq_none]
  have hlegacy : (((role.protocol = observerProtocol ∨ role.protocol = recorderProtocol) ∨
      role.protocol = codecProtocol) ∨ role.protocol = editingProtocol) ↔
        role.isLegacy = true := by
    cases role <;> decide
  rw [hlegacy]
  tauto

theorem versioned_iff (h : p.protocol = role.protocol) : p.versioned = true ↔
    p.schema = capabilitiesPackageSchema ∧ (∃ c, p.capabilities = some c ∧ role.Declares c) ∧
      role.NamesIn p.providerProtocol := by
  have hprovider : p.protocol = Ir.providerProtocol ↔ role = .provider := by
    rw [h]
    cases role <;> decide
  rw [Package.versioned, Role.NamesIn]
  simp only [Bool.and_eq_true, decide_eq_true_eq, Option.any_eq_true, h, validateFor_iff,
    and_assoc]
  refine and_congr_right fun _ => and_congr_right fun _ => ?_
  rw [← h]
  by_cases hrole : role = .provider
  · rw [if_pos (hprovider.2 hrole), if_pos hrole, Option.any_eq_true]
  · rw [if_neg (mt hprovider.1 hrole), if_neg hrole, Option.isNone_iff_eq_none]

theorem roleValid_iff (h : p.protocol = role.protocol) :
    p.roleValid = true ↔ p.permissions = role.permissions ∧ p.stateSchema = role.state := by
  rw [Package.roleValid, h]
  simp only [Bool.or_eq_true, Bool.and_eq_true, decide_eq_true_eq, supportedProtocol]
  cases role <;>
    simp [Role.protocol, Role.permissions, Role.state, observerProtocol, recorderProtocol,
      codecProtocol, editingProtocol, capabilitiesProtocol, providerProtocol, recorderV2Protocol]

/-- A package that one of the two checks of the schema accepts has a role. -/
theorem exists_role (h : p.legacy = true ∨ p.versioned = true) :
    ∃ role : Role, p.protocol = role.protocol := by
  rcases h with h | h
  · simp only [Package.legacy, Bool.and_eq_true, Bool.or_eq_true, decide_eq_true_eq] at h
    rcases h.2 with ((h | h) | h) | h
    · exact ⟨.observer, h⟩
    · exact ⟨.recorder, h⟩
    · exact ⟨.codec, h⟩
    · exact ⟨.editing, h⟩
  · simp only [Package.versioned, Bool.and_eq_true, Option.any_eq_true] at h
    obtain ⟨⟨-, c, -, hvalid⟩, -⟩ := h
    obtain ⟨role, hrole, -⟩ := role_of_validateFor hvalid
    exact ⟨role, hrole.symm⟩

theorem role_iff (h : p.protocol = role.protocol) : p.legacy = true ∨ p.versioned = true ↔
    p.schema = role.schema ∧ role.DeclaresIn p.capabilities ∧ role.NamesIn p.providerProtocol := by
  rw [legacy_iff h, versioned_iff h, Role.schema, Role.DeclaresIn]
  cases hlegacy : role.isLegacy with
  | true =>
      have hnames : role.NamesIn p.providerProtocol ↔ p.providerProtocol = none := by
        rw [Role.NamesIn, if_neg]
        rintro rfl
        cases hlegacy
      have hnone : ¬∃ c, p.capabilities = some c ∧ role.Declares c := by
        rintro ⟨c, -, hdeclares⟩
        cases role <;> first | exact hdeclares | cases hlegacy
      rw [hnames, if_pos rfl, if_pos rfl]
      simp only [hnone, false_and, and_false, or_false, true_and]
  | false =>
      rw [if_neg Bool.false_ne_true, if_neg Bool.false_ne_true]
      simp only [Bool.false_eq_true, false_and, false_or]

/-- The gateway accepts the well-formed packages of all roles. -/
theorem validate_iff : p.validate target = .ok () ↔ ∃ role, WellFormed target role p := by
  simp only [Package.validate, bind_ok, rejectIf_ok, forM_ok, Bool.or_eq_false_iff,
    Bool.not_eq_false', Bool.or_eq_true, Bool.and_eq_true, decide_eq_true_eq,
    decide_eq_false_iff_not, ne_eq, not_not, exists_const]
  constructor
  · rintro ⟨⟨⟨⟨⟨⟨⟨⟨hschema, hid⟩, hversion⟩, htarget⟩, hrole⟩, hsize⟩, hextension⟩, hlicense⟩, hfiles⟩
    obtain ⟨role, hprotocol⟩ := exists_role hschema
    obtain ⟨hschema, hdeclares, hnames⟩ := (role_iff hprotocol).1 hschema
    obtain ⟨hpermissions, hstate⟩ := (roleValid_iff hprotocol).1 hrole
    exact ⟨role, hschema, hprotocol, hpermissions, hstate, hdeclares, hnames, hid, hversion,
      htarget, hsize, OrderedMap.mem_keys.2 hextension, OrderedMap.mem_keys.2 hlicense, hfiles⟩
  · rintro ⟨role, h⟩
    exact ⟨⟨⟨⟨⟨⟨⟨⟨(role_iff h.protocol).2 ⟨h.schema, h.declares, h.names⟩, h.id⟩, h.version⟩,
      h.target⟩, (roleValid_iff h.protocol).2 ⟨h.permissions, h.state⟩⟩, h.size⟩,
      OrderedMap.mem_keys.1 h.extension⟩, OrderedMap.mem_keys.1 h.license⟩, h.files⟩

end Validating

end ResponseGateway.Extensions
