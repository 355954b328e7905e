import ResponseGateway.Ir.Responses
import ResponseGateway.Library.FieldSplit

/-!
One rule for each way the codec takes a field and each way it puts one back. A
decoder's run ends with the fields it has left and the list of what it took; an
encoder that puts the same list back, in any order, restores the object.
-/

namespace ResponseGateway.Ir.Responses
open Checked Json Request Assoc

variable {whole fields rest : Fields} {taken : List (String × Option Json)} {key : String}

section Taking

theorem take_split {o : Option Json} (hs : Split whole fields taken) (hk : pick key taken = none)
    (h : take fields key = (o, rest)) :
    Split whole rest ((key, o) :: taken) ∧ ∀ value, o = some value → get key whole = some value := by
  unfold take at h
  split at h
  · cases h
    exact ⟨hs.skip hk, fun _ hv => by cases hv⟩
  · next value _ hget =>
      cases h
      refine ⟨hs.remove hk hget, fun v hv => ?_⟩
      cases hv
      rw [← hs.get_rest hk, hget]
  · cases h
    exact ⟨hs.skip hk, fun _ hv => by cases hv⟩

/-- Taking and decoding a field, when the decoder of its value has an inverse. -/
theorem takeWith_split {α : Type} {decode : Json → Except IrError α} {a : Option α}
    (encode : α → Except IrError Json) (hs : Split whole fields taken)
    (hk : pick key taken = none) (h : takeWith decode fields key = .ok (a, rest))
    (henc : ∀ value x, get key whole = some value → decode value = .ok x → encode x = .ok value) :
    ∃ o, encodeOption encode a = .ok o ∧ Split whole rest ((key, o) :: taken) := by
  unfold takeWith at h
  split at h
  · next value rest' htake =>
      obtain ⟨x, hx, h⟩ := bind_ok.1 h
      cases h
      obtain ⟨hsplit, hget⟩ := take_split hs hk htake
      refine ⟨some value, ?_, hsplit⟩
      rw [encodeOption, henc value x (hget value rfl) hx]
      rfl
  · next rest' htake =>
      cases h
      exact ⟨none, rfl, (take_split hs hk htake).1⟩

theorem encodeOption_pure {α : Type} (f : α → Json) (a : Option α) :
    encodeOption (fun x => .ok (f x)) a = .ok (a.map f) := by
  cases a <;> rfl

/-- A field whose decoder only looks at the kind of its value. -/
theorem takeWith_plain {α : Type} {decode : Json → Except IrError α} {f : α → Json}
    {a : Option α} (hs : Split whole fields taken) (hk : pick key taken = none)
    (h : takeWith decode fields key = .ok (a, rest))
    (hf : ∀ value x, decode value = .ok x → f x = value) :
    Split whole rest ((key, a.map f) :: taken) := by
  obtain ⟨o, ho, hsplit⟩ := takeWith_split _ hs hk h
    (fun value x _ hx => congrArg Except.ok (hf value x hx))
  rw [encodeOption_pure] at ho
  cases ho
  exact hsplit

theorem string_split {s : Option String} (hs : Split whole fields taken)
    (hk : pick key taken = none) (h : string fields key = .ok (s, rest)) :
    Split whole rest ((key, s.map .string) :: taken) :=
  takeWith_plain hs hk h fun _ _ hx => (asStr_eq_some.1 (okOr_ok.1 hx)).symm

theorem boolean_split {b : Option Bool} (hs : Split whole fields taken)
    (hk : pick key taken = none) (h : boolean fields key = .ok (b, rest)) :
    Split whole rest ((key, b.map .bool) :: taken) := by
  refine takeWith_plain hs hk h fun value x hx => ?_
  cases value <;> simp_all [asBool, okOr]

theorem number_split {n : Option Number} (hs : Split whole fields taken)
    (hk : pick key taken = none) (h : number fields key = .ok (n, rest)) :
    Split whole rest ((key, n.map .number) :: taken) := by
  refine takeWith_plain hs hk h fun value x hx => ?_
  cases value <;> simp_all [asNumber, okOr]

theorem required_split {s : String} (hs : Split whole fields taken)
    (hk : pick key taken = none) (h : required fields key = .ok (s, rest)) :
    Split whole rest ((key, some (.string s)) :: taken) := by
  obtain ⟨⟨s', rest'⟩, hstring, h⟩ := bind_ok.1 h
  obtain ⟨s'', hs'', h⟩ := bind_ok.1 h
  cases h
  rw [okOr_ok] at hs''
  subst hs''
  exact string_split hs hk hstring

theorem remove_split {value : Json} (hs : Split whole fields taken)
    (hk : pick key taken = none) (h : remove fields key = .ok (value, rest)) :
    Split whole rest ((key, some value) :: taken) ∧ get key whole = some value := by
  obtain ⟨v, hv, h⟩ := bind_ok.1 h
  cases h
  rw [okOr_ok] at hv
  exact ⟨hs.remove hk hv, by rw [← hs.get_rest hk, hv]⟩

theorem itemId_split {id : Option ItemId} (hs : Split whole fields taken)
    (hk : pick "id" taken = none) (h : itemId fields = .ok (id, rest)) :
    Split whole rest (("id", id.map fun id => .string id.value) :: taken) := by
  obtain ⟨⟨s, rest'⟩, hstring, h⟩ := bind_ok.1 h
  have hsplit := string_split hs hk hstring
  cases s with
  | none =>
      cases h
      exact hsplit
  | some s =>
      obtain ⟨id', hid, h⟩ := bind_ok.1 h
      cases h
      rw [Identity.new_ok] at hid
      subst hid
      exact hsplit

theorem toolIdentity_split {tool : ToolIdentity} (hs : Split whole fields taken)
    (hn : pick "namespace" taken = none) (hk : pick "name" taken = none)
    (h : toolIdentity fields = .ok (tool, rest)) :
    Split whole rest (("name", some (.string tool.name)) ::
      ("namespace", tool.namespace.map .string) :: taken) := by
  obtain ⟨⟨ns, f₁⟩, hns, h⟩ := bind_ok.1 h
  obtain ⟨⟨name, f₂⟩, hname, h⟩ := bind_ok.1 h
  obtain ⟨_, -, h⟩ := bind_ok.1 h
  cases h
  refine required_split (string_split hs hn hns) ?_ hname
  rw [pick_cons, if_neg (by decide), hk]

end Taking

section Replacing

variable {other : String} {x : Json}

/-- Taking one field after another was replaced. -/
theorem take_insert {o : Option Json} (hf : Sorted fields) (hne : key ≠ other)
    (h : take fields key = (o, rest)) :
    Sorted rest ∧ take (insert other x fields) key = (o, insert other x rest) := by
  unfold take at h ⊢
  rw [get_insert, if_neg hne.symm]
  split at h
  · next hget =>
      cases h
      exact ⟨hf, rfl⟩
  · next value hnull hget =>
      cases h
      exact ⟨sorted_erase key hf, by rw [erase_insert_of_ne x hf hne]⟩
  · next hget =>
      cases h
      exact ⟨hf, rfl⟩

theorem takeWith_insert {α : Type} {decode : Json → Except IrError α} {a : Option α}
    (hf : Sorted fields) (hne : key ≠ other) (h : takeWith decode fields key = .ok (a, rest)) :
    Sorted rest ∧ takeWith decode (insert other x fields) key = .ok (a, insert other x rest) := by
  unfold takeWith at h ⊢
  split at h
  · next value rest' htake =>
      obtain ⟨y, hy, h⟩ := bind_ok.1 h
      cases h
      obtain ⟨hsorted, htake'⟩ := take_insert hf hne htake
      rw [htake']
      exact ⟨hsorted, bind_ok.2 ⟨y, hy, rfl⟩⟩
  · next rest' htake =>
      cases h
      obtain ⟨hsorted, htake'⟩ := take_insert hf hne htake
      rw [htake']
      exact ⟨hsorted, rfl⟩

theorem required_insert {s : String} (hf : Sorted fields) (hne : key ≠ other)
    (h : required fields key = .ok (s, rest)) :
    Sorted rest ∧ required (insert other x fields) key = .ok (s, insert other x rest) := by
  obtain ⟨⟨s', rest'⟩, hstring, h⟩ := bind_ok.1 h
  obtain ⟨hsorted, hstring'⟩ := takeWith_insert hf hne hstring
  obtain ⟨s'', hs'', h⟩ := bind_ok.1 h
  cases h
  exact ⟨hsorted, bind_ok.2 ⟨_, hstring', bind_ok.2 ⟨_, hs'', rfl⟩⟩⟩

theorem itemId_insert {id : Option ItemId} (hf : Sorted fields) (hne : "id" ≠ other)
    (h : itemId fields = .ok (id, rest)) :
    Sorted rest ∧ itemId (insert other x fields) = .ok (id, insert other x rest) := by
  obtain ⟨⟨s, rest'⟩, hstring, h⟩ := bind_ok.1 h
  obtain ⟨hsorted, hstring'⟩ := takeWith_insert hf hne hstring
  cases s with
  | none =>
      cases h
      exact ⟨hsorted, bind_ok.2 ⟨_, hstring', rfl⟩⟩
  | some s =>
      obtain ⟨id', hid, h⟩ := bind_ok.1 h
      cases h
      exact ⟨hsorted, bind_ok.2 ⟨_, hstring', bind_ok.2 ⟨_, hid, rfl⟩⟩⟩

theorem toolIdentity_insert {tool : ToolIdentity} (hf : Sorted fields)
    (hn : "namespace" ≠ other) (hk : "name" ≠ other)
    (h : toolIdentity fields = .ok (tool, rest)) :
    Sorted rest ∧ toolIdentity (insert other x fields) = .ok (tool, insert other x rest) := by
  obtain ⟨⟨ns, f₁⟩, hns, h⟩ := bind_ok.1 h
  obtain ⟨⟨name, f₂⟩, hname, h⟩ := bind_ok.1 h
  obtain ⟨_, hvalid, h⟩ := bind_ok.1 h
  cases h
  obtain ⟨hsorted, hns'⟩ := takeWith_insert hf hn hns
  obtain ⟨hsorted, hname'⟩ := required_insert hsorted hk hname
  exact ⟨hsorted, bind_ok.2 ⟨_, hns', bind_ok.2 ⟨_, hname', bind_ok.2 ⟨_, hvalid, rfl⟩⟩⟩⟩

/-- Taking the replaced field itself. -/
theorem takeWith_insert_self {α : Type} {decode : Json → Except IrError α} {a : α}
    (hf : Sorted fields) (hx : x ≠ null) (hdecode : decode x = .ok a) :
    takeWith decode (insert key x fields) key = .ok (some a, erase key fields) := by
  have htake : take (insert key x fields) key = (some x, erase key fields) := by
    unfold take
    rw [get_insert, if_pos rfl, erase_insert_self key x hf]
    split
    · next heq =>
        cases heq
        exact absurd rfl hx
    · next heq =>
        cases heq
        rfl
    · next heq => cases heq
  rw [takeWith, htake]
  simp only [hdecode, bind_of_ok]
  rfl

/-- A taken field had a value that is not null. -/
theorem takeWith_some {α : Type} {decode : Json → Except IrError α} {a : α}
    (h : takeWith decode fields key = .ok (some a, rest)) :
    ∃ value, get key fields = some value ∧ value ≠ null ∧ decode value = .ok a ∧
      rest = erase key fields := by
  unfold takeWith at h
  split at h
  · next value rest' htake =>
      obtain ⟨y, hy, h⟩ := bind_ok.1 h
      cases h
      unfold take at htake
      split at htake
      · cases htake
      · next v hnull hget =>
          cases htake
          exact ⟨value, hget, fun heq => hnull (heq ▸ rfl), hy, rfl⟩
      · cases htake
  · cases h

theorem takeWith_none {α : Type} {decode : Json → Except IrError α}
    (h : takeWith decode fields key = .ok (none, rest)) :
    rest = fields ∧ (get key fields = none ∨ get key fields = some null) := by
  unfold takeWith at h
  split at h
  · obtain ⟨y, hy, h⟩ := bind_ok.1 h
    cases h
  · next rest' htake =>
      cases h
      unfold take at htake
      split at htake
      · next hget =>
          cases htake
          exact ⟨rfl, .inr hget⟩
      · cases htake
      · next hget =>
          cases htake
          exact ⟨rfl, .inl hget⟩

end Replacing

section Putting

theorem fieldsOf_ext (fields : Fields) : fieldsOf (ext fields) = .ok fields := rfl

variable {β : Type} {g : Fields → Except IrError β} {r : Except IrError β}

theorem optional_bind {o : Option Json} (hs : Split whole fields taken) (hk : pick key taken = o)
    (h : ∀ rest, Split whole rest (taken.filter fun entry => entry.1 ≠ key) → g rest = r) :
    (optional fields key o >>= g) = r := by
  cases o with
  | none => exact h fields (hs.drop hk)
  | some value =>
      have habsent : get key fields = none := hs.absent key (by simp [hk])
      simp only [optional, put, habsent, Option.isSome_none, rejectIf_false, bind_of_ok]
      exact h _ (hs.restore hk)

theorem put_bind {value : Json} (hs : Split whole fields taken)
    (hk : pick key taken = some value)
    (h : ∀ rest, Split whole rest (taken.filter fun entry => entry.1 ≠ key) → g rest = r) :
    (put fields key value >>= g) = r :=
  optional_bind (o := some value) hs hk h

theorem putTool_bind {tool : ToolIdentity} (hs : Split whole fields taken)
    (hk : pick "name" taken = some (.string tool.name))
    (hn : pick "namespace" taken = tool.namespace.map .string)
    (h : ∀ rest, Split whole rest ((taken.filter fun entry => entry.1 ≠ "name").filter
      fun entry => entry.1 ≠ "namespace") → g rest = r) :
    (putTool fields tool >>= g) = r := by
  rw [putTool, bind_assoc]
  refine put_bind hs hk fun d hs => optional_bind hs ?_ h
  rw [pick_filter, if_neg (by decide), hn]

theorem finish (hs : Split whole fields taken) (hnil : taken = []) :
    (pure (.object fields) : Except IrError Json) = .ok (.object whole) := by
  subst hnil
  rw [hs.done]
  rfl

end Putting

end ResponseGateway.Ir.Responses
