import Mathlib

/-!
Maps kept as association lists with strictly increasing keys. The list
operations stand alone, because a tree type can nest only lists; `OrderedMap`
bundles them with the order invariant. Counting over the values of a map goes
through `Assoc.insert_perm`: an insertion puts one entry in front of the map
without the old entry of its key.
-/

namespace Assoc

variable {K V W : Type*} [LinearOrder K]

def get (k : K) : List (K × V) → Option V
  | [] => none
  | (k', v) :: rest => if k' = k then some v else get k rest

def insert (k : K) (v : V) : List (K × V) → List (K × V)
  | [] => [(k, v)]
  | (k', v') :: rest =>
      if k < k' then (k, v) :: (k', v') :: rest
      else if k = k' then (k, v) :: rest
      else (k', v') :: insert k v rest

def erase (k : K) (l : List (K × V)) : List (K × V) := l.filter (fun entry => entry.1 ≠ k)

/-- Strictly increasing keys. -/
def Sorted (l : List (K × V)) : Prop := l.Pairwise (fun a b => a.1 < b.1)

theorem sorted_nil : Sorted ([] : List (K × V)) := List.Pairwise.nil

theorem sorted_cons {k : K} {v : V} {l : List (K × V)} :
    Sorted ((k, v) :: l) ↔ (∀ entry ∈ l, k < entry.1) ∧ Sorted l := List.pairwise_cons

@[simp] theorem get_nil (k : K) : get k ([] : List (K × V)) = none := rfl

theorem get_cons (k k' : K) (v : V) (l : List (K × V)) :
    get k ((k', v) :: l) = if k' = k then some v else get k l := rfl

theorem get_eq_none {k : K} {l : List (K × V)} :
    get k l = none ↔ ∀ entry ∈ l, entry.1 ≠ k := by
  induction l with
  | nil => simp
  | cons entry l ih =>
      obtain ⟨k', v⟩ := entry
      rw [get_cons]
      split
      · simp [*]
      · simp [*]

theorem mem_of_get {k : K} {v : V} {l : List (K × V)} (h : get k l = some v) : (k, v) ∈ l := by
  induction l with
  | nil => cases h
  | cons entry l ih =>
      obtain ⟨k', v'⟩ := entry
      rw [get_cons] at h
      split at h
      · simp_all
      · exact List.mem_cons_of_mem _ (ih h)

theorem get_of_nodup {k : K} {v : V} {l : List (K × V)} (hl : (l.map Prod.fst).Nodup)
    (h : (k, v) ∈ l) : get k l = some v := by
  induction l with
  | nil => cases h
  | cons entry l ih =>
      obtain ⟨k', v'⟩ := entry
      rw [List.map_cons, List.nodup_cons] at hl
      rw [get_cons]
      rcases List.mem_cons.1 h with heq | hmem
      · cases heq
        rw [if_pos rfl]
      · have hne : k' ≠ k := fun hkey => hl.1 (List.mem_map.2 ⟨(k, v), hmem, hkey.symm⟩)
        rw [if_neg hne, ih hl.2 hmem]

theorem get_of_mem {k : K} {v : V} {l : List (K × V)} (hl : Sorted l) (h : (k, v) ∈ l) :
    get k l = some v := by
  induction l with
  | nil => cases h
  | cons entry l ih =>
      obtain ⟨k', v'⟩ := entry
      obtain ⟨hlt, hl⟩ := sorted_cons.1 hl
      rw [get_cons]
      rcases List.mem_cons.1 h with h | h
      · cases h
        rw [if_pos rfl]
      · rw [if_neg (hlt _ h).ne, ih hl h]

theorem mem_insert {k : K} {v : V} {entry : K × V} {l : List (K × V)}
    (h : entry ∈ insert k v l) : entry = (k, v) ∨ entry ∈ l := by
  induction l with
  | nil => exact .inl (List.mem_singleton.1 h)
  | cons head l ih =>
      obtain ⟨k', v'⟩ := head
      unfold insert at h
      split_ifs at h <;> simp only [List.mem_cons] at h ⊢ <;> tauto

theorem sorted_insert (k : K) (v : V) {l : List (K × V)} (hl : Sorted l) :
    Sorted (insert k v l) := by
  induction l with
  | nil => exact sorted_cons.2 ⟨by simp, sorted_nil⟩
  | cons head l ih =>
      obtain ⟨k', v'⟩ := head
      obtain ⟨hlt, htail⟩ := sorted_cons.1 hl
      unfold insert
      split_ifs with hlt' heq
      · refine sorted_cons.2 ⟨fun entry hentry => ?_, hl⟩
        rcases List.mem_cons.1 hentry with rfl | hentry
        · exact hlt'
        · exact hlt'.trans (hlt _ hentry)
      · subst heq
        exact sorted_cons.2 ⟨hlt, htail⟩
      · refine sorted_cons.2 ⟨fun entry hentry => ?_, ih htail⟩
        rcases mem_insert hentry with rfl | hentry
        · exact lt_of_le_of_ne (not_lt.1 hlt') (Ne.symm heq)
        · exact hlt _ hentry

theorem sorted_erase (k : K) {l : List (K × V)} (hl : Sorted l) : Sorted (erase k l) :=
  hl.filter _

theorem get_insert (k k' : K) (v : V) (l : List (K × V)) :
    get k' (insert k v l) = if k = k' then some v else get k' l := by
  induction l with
  | nil => rfl
  | cons head l ih =>
      obtain ⟨k₀, v₀⟩ := head
      by_cases hlt : k < k₀
      · rw [insert, if_pos hlt, get_cons]
      · by_cases heq : k = k₀
        · subst heq
          rw [insert, if_neg hlt, if_pos rfl, get_cons, get_cons]
          split <;> rfl
        · rw [insert, if_neg hlt, if_neg heq, get_cons, ih, get_cons]
          by_cases hk : k₀ = k'
          · rw [if_pos hk, if_pos hk, if_neg fun hk' => heq (hk'.trans hk.symm)]
          · rw [if_neg hk, if_neg hk]

theorem get_erase (k k' : K) (l : List (K × V)) :
    get k' (erase k l) = if k = k' then none else get k' l := by
  induction l with
  | nil => simp [erase]
  | cons head l ih =>
      obtain ⟨k₀, v₀⟩ := head
      by_cases h : k₀ = k
      · have he : erase k ((k₀, v₀) :: l) = erase k l := by simp [erase, h]
        rw [he, ih, get_cons]
        grind
      · have he : erase k ((k₀, v₀) :: l) = (k₀, v₀) :: erase k l := by simp [erase, h]
        rw [he, get_cons, ih, get_cons]
        grind

theorem erase_of_get_none {k : K} {l : List (K × V)} (h : get k l = none) : erase k l = l :=
  List.filter_eq_self.2 fun entry hentry => decide_eq_true (get_eq_none.1 h entry hentry)

/-- Two sorted lists with the same lookups are the same list. -/
theorem ext_get {l l' : List (K × V)} (hl : Sorted l) (hl' : Sorted l')
    (h : ∀ k, get k l = get k l') : l = l' := by
  have hmem : ∀ entry, entry ∈ l ↔ entry ∈ l' := fun entry =>
    ⟨fun he => mem_of_get (h entry.1 ▸ get_of_mem hl he),
      fun he => mem_of_get ((h entry.1).symm ▸ get_of_mem hl' he)⟩
  have hnodup : ∀ {l : List (K × V)}, Sorted l → l.Nodup := fun hl =>
    hl.imp fun hlt heq => absurd (congrArg Prod.fst heq) hlt.ne
  exact ((List.perm_ext_iff_of_nodup (hnodup hl) (hnodup hl')).2 hmem).eq_of_pairwise
    (fun a b _ _ hab hba => absurd hab (not_lt.2 hba.le)) hl hl'

theorem erase_insert_self (k : K) (v : V) {l : List (K × V)} (hl : Sorted l) :
    erase k (insert k v l) = erase k l := by
  refine ext_get (sorted_erase k (sorted_insert k v hl)) (sorted_erase k hl) fun k' => ?_
  rw [get_erase, get_erase, get_insert]
  split <;> rfl

theorem erase_insert_of_ne {k k' : K} (v : V) {l : List (K × V)} (hl : Sorted l) (h : k' ≠ k) :
    erase k' (insert k v l) = insert k v (erase k' l) := by
  refine ext_get (sorted_erase k' (sorted_insert k v hl)) (sorted_insert k v (sorted_erase k' hl))
    fun i => ?_
  rw [get_erase, get_insert, get_insert, get_erase]
  by_cases hi : k' = i
  · rw [if_pos hi, if_pos hi, if_neg fun heq => h (hi.trans heq.symm)]
  · rw [if_neg hi, if_neg hi]

theorem insert_of_get {k : K} {v : V} {l : List (K × V)} (hl : Sorted l) (h : get k l = some v) :
    insert k v l = l := by
  refine ext_get (sorted_insert k v hl) hl fun k' => ?_
  rw [get_insert]
  split
  · next heq => rw [← heq, h]
  · rfl

theorem insert_perm (k : K) (v : V) {l : List (K × V)} (hl : Sorted l) :
    (insert k v l).Perm ((k, v) :: erase k l) := by
  induction l with
  | nil => exact List.Perm.refl _
  | cons head l ih =>
      obtain ⟨k', v'⟩ := head
      obtain ⟨hlt, htail⟩ := sorted_cons.1 hl
      have habove : ∀ {k : K}, k ≤ k' → erase k l = l := fun hle =>
        erase_of_get_none (get_eq_none.2 fun entry he => (lt_of_le_of_lt hle (hlt entry he)).ne')
      unfold insert
      split_ifs with hlt' heq
      · rw [erase, List.filter_cons_of_pos (by simpa using hlt'.ne'), ← erase, habove hlt'.le]
      · subst heq
        rw [erase, List.filter_cons_of_neg (by simp), ← erase, habove le_rfl]
      · rw [erase, List.filter_cons_of_pos (by simpa using Ne.symm heq), ← erase]
        exact ((ih htail).cons _).trans (List.Perm.swap _ _ _)

/-- Replacing a value leaves the keys as they are. -/
theorem keys_insert {k : K} (v : V) {l : List (K × V)} (hl : Sorted l)
    (h : k ∈ l.map Prod.fst) : (insert k v l).map Prod.fst = l.map Prod.fst := by
  induction l with
  | nil => cases h
  | cons head l ih =>
      obtain ⟨k', v'⟩ := head
      obtain ⟨hlt, htail⟩ := sorted_cons.1 hl
      rw [List.map_cons, List.mem_cons] at h
      rw [insert]
      rcases h with rfl | hmem
      · rw [if_neg (lt_irrefl _), if_pos rfl, List.map_cons, List.map_cons]
      · obtain ⟨entry, hentry, rfl⟩ := List.mem_map.1 hmem
        have hgt := hlt entry hentry
        rw [if_neg hgt.not_gt, if_neg hgt.ne', List.map_cons, List.map_cons, ih htail hmem]

/-- A key below all others goes to the front. -/
theorem insert_first {k : K} (v : V) {l : List (K × V)} (h : ∀ entry ∈ l, k < entry.1) :
    insert k v l = (k, v) :: l := by
  cases l with
  | nil => rfl
  | cons head l =>
      obtain ⟨k', v'⟩ := head
      rw [insert, if_pos (h (k', v') List.mem_cons_self)]

/-- A key above all others goes to the end. -/
theorem insert_last {k : K} (v : V) {l : List (K × V)} (h : ∀ entry ∈ l, entry.1 < k) :
    insert k v l = l ++ [(k, v)] := by
  induction l with
  | nil => rfl
  | cons entry rest ih =>
      obtain ⟨k', v'⟩ := entry
      have hlt : k' < k := h (k', v') (by simp)
      rw [insert, if_neg hlt.not_gt, if_neg hlt.ne', ih fun e he => h e (by simp [he])]
      rfl

/-- The map in front of which an entry is found, without that entry. -/
theorem perm_of_get {k : K} {v : V} {l : List (K × V)} (hl : Sorted l) (h : get k l = some v) :
    l.Perm ((k, v) :: erase k l) := by
  simpa only [insert_of_get hl h] using insert_perm k v hl

end Assoc

/-- A finite map with its keys in increasing order. -/
structure OrderedMap (K V : Type*) [LinearOrder K] where
  entries : List (K × V)
  sorted : Assoc.Sorted entries

namespace OrderedMap

variable {K V : Type*} [LinearOrder K]

@[ext] theorem ext_entries {m m' : OrderedMap K V} (h : m.entries = m'.entries) : m = m' := by
  cases m; cases m'; cases h; rfl

instance [DecidableEq V] : DecidableEq (OrderedMap K V) := fun m m' =>
  decidable_of_iff (m.entries = m'.entries) ⟨ext_entries, congrArg entries⟩

def empty : OrderedMap K V := ⟨[], Assoc.sorted_nil⟩

def get (m : OrderedMap K V) (k : K) : Option V := Assoc.get k m.entries

def contains (m : OrderedMap K V) (k : K) : Bool := (m.get k).isSome

def insert (m : OrderedMap K V) (k : K) (v : V) : OrderedMap K V :=
  ⟨Assoc.insert k v m.entries, Assoc.sorted_insert k v m.sorted⟩

def erase (m : OrderedMap K V) (k : K) : OrderedMap K V :=
  ⟨Assoc.erase k m.entries, Assoc.sorted_erase k m.sorted⟩

def filter (m : OrderedMap K V) (p : K × V → Bool) : OrderedMap K V :=
  ⟨m.entries.filter p, m.sorted.sublist List.filter_sublist⟩

def size (m : OrderedMap K V) : Nat := m.entries.length

def values (m : OrderedMap K V) : List V := m.entries.map Prod.snd

def keys (m : OrderedMap K V) : List K := m.entries.map Prod.fst

def mapValues (m : OrderedMap K V) (f : V → V) : OrderedMap K V :=
  ⟨m.entries.map (Prod.map id f), m.sorted.map _ fun _ _ h => h⟩

/-- The sum of a measure over the values. -/
def total (m : OrderedMap K V) (f : V → Nat) : Nat := (m.values.map f).sum

@[simp] theorem get_empty (k : K) : (empty : OrderedMap K V).get k = none := rfl

@[simp] theorem size_empty : (empty : OrderedMap K V).size = 0 := rfl

@[simp] theorem total_empty (f : V → Nat) : (empty : OrderedMap K V).total f = 0 := rfl

theorem get_insert (m : OrderedMap K V) (k k' : K) (v : V) :
    (m.insert k v).get k' = if k = k' then some v else m.get k' :=
  Assoc.get_insert k k' v m.entries

@[simp] theorem get_insert_self (m : OrderedMap K V) (k : K) (v : V) :
    (m.insert k v).get k = some v := by
  rw [get_insert, if_pos rfl]

theorem get_insert_of_ne (m : OrderedMap K V) {k k' : K} (v : V) (h : k ≠ k') :
    (m.insert k v).get k' = m.get k' := by
  rw [get_insert, if_neg h]

/-- A new key hides no other one. -/
theorem get_insert_of_some {m : OrderedMap K V} {k k' : K} {v v' : V} (hk : m.get k = none)
    (h : m.get k' = some v') : (m.insert k v).get k' = some v' := by
  rw [get_insert_of_ne, h]
  rintro rfl
  rw [hk] at h
  cases h

theorem get_erase (m : OrderedMap K V) (k k' : K) :
    (m.erase k).get k' = if k = k' then none else m.get k' :=
  Assoc.get_erase k k' m.entries

theorem get_mapValues (m : OrderedMap K V) (f : V → V) (k : K) :
    (m.mapValues f).get k = (m.get k).map f := by
  simp only [get, mapValues]
  induction m.entries with
  | nil => rfl
  | cons entry l ih =>
      obtain ⟨k', v⟩ := entry
      simp only [List.map_cons, Prod.map, id, Assoc.get_cons, ih]
      split <;> rfl

theorem ext_get {m m' : OrderedMap K V} (h : ∀ k, m.get k = m'.get k) : m = m' :=
  ext_entries (Assoc.ext_get m.sorted m'.sorted h)

@[simp] theorem contains_eq_false {m : OrderedMap K V} {k : K} :
    m.contains k = false ↔ m.get k = none := by
  simp [contains]

theorem mem_values {m : OrderedMap K V} {v : V} : v ∈ m.values ↔ ∃ k, m.get k = some v := by
  simp only [values, List.mem_map, Prod.exists, exists_eq_right]
  exact exists_congr fun k => ⟨Assoc.get_of_mem m.sorted, Assoc.mem_of_get⟩

/-- A property of every value is a property of every lookup. -/
theorem any_values_eq_false {m : OrderedMap K V} {p : V → Bool} :
    m.values.any p = false ↔ ∀ k v, m.get k = some v → p v = false := by
  simp only [List.any_eq_false, mem_values, Bool.not_eq_true]
  exact ⟨fun h k v hv => h v ⟨k, hv⟩, fun h v ⟨k, hv⟩ => h k v hv⟩

theorem keys_insert {m : OrderedMap K V} {k : K} (v : V) (h : k ∈ m.keys) :
    (m.insert k v).keys = m.keys := Assoc.keys_insert v m.sorted h

theorem values_insert {m : OrderedMap K V} {k : K} {v v' : V} (h : v' ∈ (m.insert k v).values) :
    v' = v ∨ v' ∈ m.values := by
  obtain ⟨entry, hentry, rfl⟩ := List.mem_map.1 h
  rcases Assoc.mem_insert hentry with rfl | hold
  · exact .inl rfl
  · exact .inr (List.mem_map.2 ⟨entry, hold, rfl⟩)

theorem size_eq_keys (m : OrderedMap K V) : m.size = m.keys.length :=
  (List.length_map Prod.fst).symm

theorem mem_keys {m : OrderedMap K V} {k : K} : k ∈ m.keys ↔ m.contains k = true := by
  rw [contains, Option.isSome_iff_exists]
  constructor
  · intro h
    obtain ⟨⟨k, v⟩, hentry, rfl⟩ := List.mem_map.1 h
    exact ⟨v, Assoc.get_of_mem m.sorted hentry⟩
  · rintro ⟨v, hv⟩
    exact List.mem_map.2 ⟨(k, v), Assoc.mem_of_get hv, rfl⟩

/-- A map that has as many keys as it has places below its size has no others. -/
theorem get_of_full {m : OrderedMap Nat V} (h : ∀ k < m.size, m.contains k = true) {n : Nat}
    (hn : m.size ≤ n) : m.get n = none := by
  have hsub : List.range m.size ⊆ m.keys := fun k hk => mem_keys.2 (h k (List.mem_range.1 hk))
  have hperm := (List.nodup_range.subperm hsub).perm_of_length_le
    (by rw [List.length_range, size_eq_keys])
  rw [← contains_eq_false, ← Bool.not_eq_true, ← mem_keys, ← hperm.mem_iff, List.mem_range]
  omega

theorem size_insert_new {m : OrderedMap K V} {k : K} (v : V) (h : m.get k = none) :
    (m.insert k v).size = m.size + 1 := by
  have hp := (Assoc.insert_perm k v m.sorted).length_eq
  rwa [Assoc.erase_of_get_none h, List.length_cons] at hp

theorem size_insert_old {m : OrderedMap K V} {k : K} {v : V} (v' : V) (h : m.get k = some v) :
    (m.insert k v').size = m.size := by
  have hp := (Assoc.insert_perm k v' m.sorted).length_eq
  have hq := (Assoc.perm_of_get m.sorted h).length_eq
  simp only [List.length_cons] at hp hq
  exact hp.trans hq.symm

theorem size_erase_le (m : OrderedMap K V) (k : K) : (m.erase k).size ≤ m.size :=
  List.length_filter_le _ _

theorem size_insert_le (m : OrderedMap K V) (k : K) (v : V) : (m.insert k v).size ≤ m.size + 1 := by
  cases h : m.get k with
  | none => exact (size_insert_new v h).le
  | some v' => exact (size_insert_old v h).le.trans (Nat.le_succ _)

theorem total_eq_of_perm {m : OrderedMap K V} {k : K} {v : V} {l : List (K × V)} (f : V → Nat)
    (h : m.entries.Perm ((k, v) :: l)) : m.total f = f v + (l.map (f ∘ Prod.snd)).sum := by
  have hs := ((h.map Prod.snd).map f).sum_eq
  simpa [total, values] using hs

theorem total_insert_new {m : OrderedMap K V} {k : K} (f : V → Nat) (v : V)
    (h : m.get k = none) : (m.insert k v).total f = m.total f + f v := by
  have hp := Assoc.insert_perm k v m.sorted
  rw [Assoc.erase_of_get_none h] at hp
  rw [total_eq_of_perm f hp, total, values, List.map_map, Nat.add_comm]

/-- Replacing a value changes a total by the difference of the two measures. -/
theorem total_insert_old {m : OrderedMap K V} {k : K} {v : V} (f : V → Nat) (v' : V)
    (h : m.get k = some v) : (m.insert k v').total f + f v = m.total f + f v' := by
  rw [total_eq_of_perm f (Assoc.insert_perm k v' m.sorted),
    total_eq_of_perm f (Assoc.perm_of_get m.sorted h)]
  omega

theorem total_mapValues (m : OrderedMap K V) {f : V → V} {g : V → Nat}
    (h : ∀ v, g (f v) = g v) : (m.mapValues f).total g = m.total g := by
  simp only [total, values, mapValues, List.map_map]
  congr 1
  exact List.map_congr_left fun entry _ => h entry.2

theorem le_total {m : OrderedMap K V} {k : K} {v : V} (f : V → Nat) (h : m.get k = some v) :
    f v ≤ m.total f := by
  rw [total_eq_of_perm f (Assoc.perm_of_get m.sorted h)]
  exact Nat.le_add_right _ _

theorem entries_foldl_insert {l : List (K × V)} {m : OrderedMap K V} (hl : Assoc.Sorted l)
    (h : ∀ entry ∈ m.entries, ∀ entry' ∈ l, entry.1 < entry'.1) :
    (l.foldl (fun m entry => m.insert entry.1 entry.2) m).entries = m.entries ++ l := by
  induction l generalizing m with
  | nil => rw [List.foldl_nil, List.append_nil]
  | cons entry rest ih =>
      obtain ⟨k, v⟩ := entry
      obtain ⟨hk, hrest⟩ := Assoc.sorted_cons.1 hl
      have hentries : (m.insert k v).entries = m.entries ++ [(k, v)] :=
        Assoc.insert_last v fun e he => h e he _ List.mem_cons_self
      rw [List.foldl_cons, ih hrest, hentries, List.append_assoc, List.singleton_append]
      intro e he e' he'
      rw [hentries] at he
      rcases List.mem_append.1 he with he | he
      · exact h e he e' (List.mem_cons_of_mem _ he')
      · rw [List.mem_singleton.1 he]
        exact hk e' he'

/-- A map is made of its entries. -/
theorem foldl_insert_entries (m : OrderedMap K V) :
    m.entries.foldl (fun m entry => m.insert entry.1 entry.2) empty = m :=
  ext_entries ((entries_foldl_insert m.sorted (m := empty) (by simp [empty])).trans rfl)

end OrderedMap
