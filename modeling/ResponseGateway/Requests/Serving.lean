import ResponseGateway.Requests.History

/-!
What a served call wrote. Each writing call has one lemma about the tables before and after
it; together they say that the tables stay the trace of the calls that were served.
-/

namespace ResponseGateway.Requests
open Checked Json Management Method Statements
open Team (Principal)

section Writing

variable {d : Draw} {c c' : Connection Tables}

theorem admit_ok {target : Id} {principal : Principal} {peer : Peer} {route : String}
    {session : Option Id} {a : Admission}
    (h : admitRequest d target principal peer route session c = (.ok a, c')) :
    principal.permissions.permitsRoute a.route = true ∧
      a.subject = principal.identity.subject ∧ c.tables.requests.length < maxRequests ∧
      c.tables.insertRequest a.id.value a.subject.value a.atMs.toNat (json Admission.codec a) =
        some c'.tables := by
  obtain ⟨_, hallowed, h⟩ := check_bind_accepts.1 h
  obtain ⟨atMs, -, h⟩ := check_bind_accepts.1 h
  rw [transaction_accepts] at h
  obtain ⟨_, c₁, hbegin, h⟩ := bind_accepts.1 h
  obtain ⟨count, c₂, hcount, h⟩ := bind_accepts.1 h
  obtain ⟨_, hroom, h⟩ := check_bind_accepts.1 h
  obtain ⟨_, -, h⟩ := check_bind_accepts.1 h
  obtain ⟨_, c₃, hinsert, h⟩ := bind_accepts.1 h
  obtain ⟨_, c₄, hcommit, h⟩ := bind_accepts.1 h
  obtain ⟨rfl, rfl⟩ := pure_accepts.1 h
  obtain ⟨rfl, ht₂⟩ := select_ok hcount
  have hwritten := execute_ok hinsert
  rw [ht₂, contact_ok hbegin, ← contact_ok hcommit] at hwritten
  rw [rejectIf_ok, contact_ok hbegin, decide_eq_false_iff_not, Nat.not_le] at hroom
  rw [rejectIf_ok, Bool.or_eq_false_iff, Bool.or_eq_false_iff, Bool.not_eq_false'] at hallowed
  exact ⟨hallowed.1.2, rfl, hroom, hwritten⟩

/-- A row of `links` is stored where there is one. -/
def Links (row : Option LinkRow) (t t' : Tables) : Prop :=
  match row with
  | some row => t.insertLink row = some t'
  | none => t' = t

theorem link_ok {a : Admission} {h : Headers} {u : PUnit} (hcall : link a h c = (.ok u, c')) :
    Links (Served.linkRow a h) c.tables c'.tables := by
  unfold link at hcall
  unfold Served.linkRow
  cases hproducer : a.producer with
  | none =>
      rw [hproducer] at hcall
      obtain ⟨-, rfl⟩ := pure_accepts.1 hcall
      rfl
  | some producer =>
      rw [hproducer] at hcall
      cases hrequest : h.gatewayRequest with
      | none =>
          rw [hrequest] at hcall
          obtain ⟨-, rfl⟩ := pure_accepts.1 hcall
          rfl
      | some gatewayRequest =>
          rw [hrequest] at hcall
          exact execute_ok hcall

theorem headers_ok {a : Admission} {h : Headers} {u : PUnit}
    (hcall : headers a h c = (.ok u, c')) : ∃ t, Links (Served.linkRow a h) c.tables t ∧
      t.insertEvent (EventRow.of (a.id, .headers h)) = some c'.tables := by
  rw [headers, transaction_accepts] at hcall
  obtain ⟨_, c₁, hbegin, hcall⟩ := bind_accepts.1 hcall
  obtain ⟨_, c₂, hlink, hcall⟩ := bind_accepts.1 hcall
  obtain ⟨_, c₃, hinsert, hcommit⟩ := bind_accepts.1 hcall
  have hwritten := execute_ok hinsert
  have hlinked := link_ok hlink
  rw [← contact_ok hcommit] at hwritten
  rw [contact_ok hbegin] at hlinked
  exact ⟨c₂.tables, hlinked, hwritten⟩

theorem finish_ok {id : Id} {transport : End} {u : PUnit}
    (h : finish d id transport c = (.ok u, c')) : ∃ atMs, d.now = some atMs ∧
      c.tables.insertEvent (EventRow.of (id, .finished ⟨atMs, transport⟩)) = some c'.tables := by
  obtain ⟨atMs, hnow, h⟩ := check_bind_accepts.1 h
  exact ⟨atMs, okOr_ok.1 hnow, execute_ok h⟩

/-- A session that is returned was stored before, or it is stored now. -/
theorem sessionIntent_ok {principal : Principal} {route : String} {origin : Digest} {key : Id}
    {s : SessionIntent} {created : Bool}
    (h : sessionIntent d principal route origin key c = (.ok (s, created), c')) :
    (∃ text, c.tables.intentAt principal.identity.subject key = some text ∧
      decode SessionIntent.codec text = .ok s ∧ s.subject = principal.identity.subject ∧
      created = false ∧ c'.tables = c.tables) ∨
    (c.tables.intentAt principal.identity.subject key = none ∧ created = true ∧
      principal.permissions.permitsRoute s.route = true ∧
      s.subject = principal.identity.subject ∧ s.idempotencyKey = key ∧
      c.tables.insertSession (SessionRow.of s) = some c'.tables) := by
  obtain ⟨_, hallowed, h⟩ := check_bind_accepts.1 h
  rw [transaction_accepts] at h
  obtain ⟨_, c₁, hbegin, h⟩ := bind_accepts.1 h
  obtain ⟨previous, c₂, hprevious, h⟩ := bind_accepts.1 h
  obtain ⟨hprevious, ht₂⟩ := select_ok hprevious
  rw [contact_ok hbegin] at hprevious ht₂
  rw [hprevious]
  cases previous with
  | some text =>
      obtain ⟨value, hdecode, h⟩ := check_bind_accepts.1 h
      obtain ⟨_, hsame, h⟩ := check_bind_accepts.1 h
      obtain ⟨heq, rfl⟩ := pure_accepts.1 h
      cases heq
      rw [rejectIf_ok, Bool.or_eq_false_iff, Bool.or_eq_false_iff] at hsame
      exact .inl ⟨text, rfl, hdecode, by simpa using hsame.1.1, rfl, ht₂⟩
  | none =>
      obtain ⟨count, c₃, hcount, h⟩ := bind_accepts.1 h
      obtain ⟨_, -, h⟩ := check_bind_accepts.1 h
      obtain ⟨atMs, -, h⟩ := check_bind_accepts.1 h
      obtain ⟨_, c₄, hinsert, h⟩ := bind_accepts.1 h
      obtain ⟨_, c₅, hcommit, h⟩ := bind_accepts.1 h
      obtain ⟨heq, rfl⟩ := pure_accepts.1 h
      cases heq
      have hwritten := execute_ok hinsert
      rw [(select_ok hcount).2, ht₂, ← contact_ok hcommit] at hwritten
      rw [rejectIf_ok, Bool.not_eq_false'] at hallowed
      exact .inr ⟨rfl, rfl, hallowed, rfl, rfl, hwritten⟩

theorem bindSession_ok {intent : SessionIntent} {internal : Id} {u : PUnit}
    (h : bindSession intent internal c = (.ok u, c')) :
    c.tables.insertBinding (BindingRow.of ⟨intent.id, internal, intent.originSha256⟩) =
      some c'.tables := execute_ok h

end Writing

section Histories

variable {past : List Served} {x : Served}

theorem forall_none {α : Type} {P : α → Prop} {o : Option α} (h : o = none) :
    ∀ a, o = some a → P a := by
  rw [h]
  exact nofun

theorem filterMap_snoc {α : Type} (f : Served → Option α) :
    (past ++ [x]).filterMap f = past.filterMap f ++ (f x).toList := by
  rw [List.filterMap_append]
  cases hf : f x with
  | none =>
      rw [List.filterMap_cons_none hf]
      rfl
  | some a =>
      rw [List.filterMap_cons_some hf]
      rfl

theorem written_append : written (past ++ [x]) = {
    requests := (written past).requests ++
      (x.admitted.map fun a => RequestRow.of (a, (admitted past).length + 1)).toList
    requestEvents := (written past).requestEvents ++ (x.evidenced.map EventRow.of).toList
    links := (written past).links ++ x.linked.toList
    sessions := (written past).sessions ++ (x.opened.map SessionRow.of).toList
    sessionBindings := (written past).sessionBindings ++ (x.bound.map BindingRow.of).toList } := by
  have hmap {α β : Type} (f : Served → Option α) (g : α → β) :
      ((past ++ [x]).filterMap f).map g = (past.filterMap f).map g ++ ((f x).map g).toList := by
    rw [filterMap_snoc, List.map_append]
    cases f x with
    | none => rfl
    | some a => rfl
  have hnumbered : (numbered (past ++ [x])).map RequestRow.of = (numbered past).map RequestRow.of ++
      (x.admitted.map fun a => RequestRow.of (a, (admitted past).length + 1)).toList := by
    cases hx : x.admitted with
    | none =>
        rw [numbered, admitted, filterMap_snoc, hx, Option.toList_none, List.append_nil, Option.map_none,
          Option.toList_none, List.append_nil, numbered, admitted]
    | some a =>
        rw [numbered_append hx, List.map_append]
        rfl
  rw [written, hnumbered, evidenced, hmap, opened, hmap, bound, hmap, filterMap_snoc]
  rfl

/-- What a served call adds clashes with nothing, and its routes are short. -/
structure Fits (past : List Served) (x : Served) : Prop where
  admission : ∀ a, x.admitted = some a → a.route.utf8ByteSize ≤ 256 ∧
    (admitted past).length < maxRequests ∧ ∀ other ∈ (written past).requests,
      other.clash (RequestRow.of (a, (admitted past).length + 1)) = false
  event : ∀ e, x.evidenced = some e → ∀ other ∈ (written past).requestEvents,
    other.clash (EventRow.of e) = false
  link : ∀ row, x.linked = some row → ∀ other ∈ (written past).links, other.clash row = false
  session : ∀ s, x.opened = some s → s.route.utf8ByteSize ≤ 256 ∧
    ∀ other ∈ (written past).sessions, other.clash (SessionRow.of s) = false
  binding : ∀ b, x.bound = some b → ∀ other ∈ (written past).sessionBindings,
    other.clash (BindingRow.of b) = false

theorem distinct_toList {α : Type} {clash : α → α → Bool} {rows : List α} {row : Option α}
    (h : Table.Distinct clash rows) (hfree : ∀ r, row = some r → ∀ other ∈ rows,
      clash other r = false) : Table.Distinct clash (rows ++ row.toList) := by
  cases row with
  | none => rwa [Option.toList_none, List.append_nil]
  | some r => exact distinct_snoc h (hfree r rfl)

theorem Sound.append (h : Sound past) (hfits : Fits past x) : Sound (past ++ [x]) := by
  have hmap {α β : Type} {f : α → β} {o : Option α} {P : β → Prop} (ho : ∀ a, o = some a → P (f a))
      (b : β) (hb : o.map f = some b) : P b := by
    obtain ⟨a, ha, rfl⟩ := Option.map_eq_some_iff.1 hb
    exact ho a ha
  have hmem {α : Type} {f : Served → Option α} {P : α → Prop} (hold : ∀ a ∈ past.filterMap f, P a)
      (hnew : ∀ a, f x = some a → P a) : ∀ a ∈ (past ++ [x]).filterMap f, P a := by
    intro a ha
    rw [filterMap_snoc, List.mem_append, Option.mem_toList] at ha
    exact ha.elim (hold a) (hnew a)
  constructor
  case routes => exact hmem h.routes fun a ha => (hfits.admission a ha).1
  case sessionRoutes => exact hmem h.sessionRoutes fun s hs => (hfits.session s hs).1
  case few =>
      have hfew := h.few
      rw [admitted, filterMap_snoc, List.length_append, ← admitted]
      cases hx : x.admitted with
      | none => exact hfew
      | some a => exact (hfits.admission a hx).2.1
  all_goals rw [written_append]
  case requests => exact distinct_toList h.requests (hmap fun a ha => (hfits.admission a ha).2.2)
  case requestEvents => exact distinct_toList h.requestEvents (hmap hfits.event)
  case links => exact distinct_toList h.links hfits.link
  case sessions => exact distinct_toList h.sessions (hmap fun s hs => (hfits.session s hs).2)
  case sessionBindings => exact distinct_toList h.sessionBindings (hmap hfits.binding)

end Histories

section Looking

variable {principal : Principal} {query : UsageQuery}

theorem looks_event {α : Type} (c : Codec α) (id : Id) (phase : Phase) :
    Looks (event c id phase) :=
  (looks_select _ _).looks_bind fun _ => looks_check _

theorem looks_record (row : RequestRow) : Looks (record principal query row) :=
  (looks_check _).looks_bind fun _ => (looks_check _).looks_bind fun _ =>
    (looks_event _ _ _).looks_bind fun _ => (looks_event _ _ _).looks_bind fun _ => looks_pure _

theorem looks_collect (rows : List RequestRow) : Looks (collect principal query rows) := by
  induction rows with
  | nil => exact (looks_contact _).looks_bind fun _ => looks_pure _
  | cons row rest ih =>
      exact (looks_contact _).looks_bind fun _ => (looks_record row).looks_bind fun _ =>
        ih.looks_bind fun _ => looks_pure _

theorem looks_records : Looks (records principal query) :=
  (looks_check _).looks_bind fun _ => (looks_check _).looks_bind fun _ =>
    (looks_contact _).looks_bind fun _ => (looks_select _ _).looks_bind fun rows =>
      looks_collect rows

theorem looks_session (id : Id) : Looks (session principal id) :=
  (looks_contact _).looks_bind fun _ => (looks_select _ _).looks_bind fun _ =>
    (looks_check _).looks_bind fun _ => (looks_check _).looks_bind fun _ =>
      (looks_check _).looks_bind fun _ => (looks_check _).looks_bind fun _ =>
        (looks_select _ _).looks_bind fun _ => (looks_check _).looks_bind fun _ =>
          (looks_check _).looks_bind fun _ => looks_pure _

/-- A call that fails changes no table. -/
theorem step_atomic (target : Id) (call : Call) (d : Draw) : Atomic (step target call d) := by
  refine Restores.atomic ?_ d.faults
  have hreply {α : Type} {m : Access α} (hm : Restores m) (f : α → Reply) :
      Restores (do let a ← m; pure (f a)) := by
    intro c e c' h
    rcases bind_rejects.1 h with h | ⟨a, c₁, ha, h⟩
    · exact hm c e c' h
    · cases h
  cases call with
  | admitRequest principal peer route session =>
      refine hreply ?_ _
      exact (looks_check _).restores_bind fun _ => (looks_check _).restores_bind fun _ =>
        restores_transaction _
  | headers a h => exact hreply (restores_transaction _) fun _ => .done
  | finish id transport =>
      exact hreply ((looks_check _).restores_bind fun _ => restores_execute _ _) fun _ => .done
  | records principal query => exact hreply looks_records.restores .records
  | sessionIntent principal route origin key =>
      refine hreply ?_ fun reply : SessionIntent × Bool => .intent reply.1 reply.2
      exact (looks_check _).restores_bind fun _ => restores_transaction _
  | bindSession intent internal => exact hreply (restores_execute _ _) fun _ => .done
  | session principal id =>
      exact hreply (looks_session id).restores fun reply => .session reply.1 reply.2

end Looking

section Steps

variable {past : List Served} {target : Id} {call : Call} {d : Draw} {reply : Reply} {t : Tables}
  {x : Served}

/-- Nothing was stored. -/
theorem fits_nothing (ha : x.admitted = none) (he : x.evidenced = none) (hl : x.linked = none)
    (ho : x.opened = none) (hb : x.bound = none) :
    written past = written (past ++ [x]) ∧ Fits past x := by
  refine ⟨?_, forall_none ha, forall_none he, forall_none hl, forall_none ho, forall_none hb⟩
  rw [written_append, ha, he, hl, ho, hb]
  simp only [Option.map_none, Option.toList_none, List.append_nil]

/-- Evidence was stored, perhaps with a link. -/
theorem fits_event {e : Id × Evidence} {row : Option LinkRow} {t t' : Tables}
    (ha : x.admitted = none) (he : x.evidenced = some e) (hl : x.linked = row)
    (ho : x.opened = none) (hb : x.bound = none)
    (hlink : Links row (written past) t)
    (hevent : t.insertEvent (EventRow.of e) = some t') :
    t' = written (past ++ [x]) ∧ Fits past x := by
  obtain ⟨rfl, hfree⟩ := insertEvent_eq hevent
  rw [written_append, ha, he, hl, ho, hb]
  have hlinked : t = { written past with links := (written past).links ++ row.toList } ∧
      ∀ r, row = some r → ∀ other ∈ (written past).links, other.clash r = false := by
    cases row with
    | none =>
        cases hlink
        rw [Option.toList_none, List.append_nil]
        exact ⟨rfl, nofun⟩
    | some row =>
        obtain ⟨ht, hunlinked⟩ := insertLink_eq hlink
        exact ⟨ht, by rintro r ⟨⟩; exact hunlinked⟩
  obtain ⟨rfl, hunlinked⟩ := hlinked
  refine ⟨by simp only [Option.map_none, Option.toList_none, List.append_nil, Option.map_some,
    Option.toList_some], forall_none ha, ?_, ?_, forall_none ho, forall_none hb⟩
  · rw [he]
    rintro e' ⟨⟩
    exact hfree
  · rw [hl]
    exact hunlinked

theorem fits_admission {a : Admission} {t : Tables} (ha : x.admitted = some a)
    (he : x.evidenced = none) (hl : x.linked = none) (ho : x.opened = none) (hb : x.bound = none)
    (hroute : a.route.utf8ByteSize ≤ 256) (hroom : (written past).requests.length < maxRequests)
    (hinsert : (written past).insertRequest a.id.value a.subject.value a.atMs.toNat
      (json Admission.codec a) = some t) :
    t = written (past ++ [x]) ∧ Fits past x := by
  obtain ⟨rfl, hfree⟩ := insertRequest_eq hinsert
  rw [written, List.length_map, numbered, List.length_zipIdx] at hroom
  rw [written_append, ha, he, hl, ho, hb]
  refine ⟨by simp only [Option.map_none, Option.toList_none, List.append_nil, Option.map_some,
    Option.toList_some, RequestRow.of], ?_, forall_none he, forall_none hl, forall_none ho, forall_none hb⟩
  rw [ha]
  rintro a' ⟨⟩
  exact ⟨hroute, hroom, hfree⟩

theorem fits_session {s : SessionIntent} {t : Tables} (ha : x.admitted = none)
    (he : x.evidenced = none) (hl : x.linked = none) (ho : x.opened = some s) (hb : x.bound = none)
    (hroute : s.route.utf8ByteSize ≤ 256)
    (hinsert : (written past).insertSession (SessionRow.of s) = some t) :
    t = written (past ++ [x]) ∧ Fits past x := by
  obtain ⟨rfl, hfree⟩ := insertSession_eq hinsert
  rw [written_append, ha, he, hl, ho, hb]
  refine ⟨by simp only [Option.map_none, Option.toList_none, List.append_nil, Option.map_some,
    Option.toList_some], forall_none ha, forall_none he, forall_none hl, ?_, forall_none hb⟩
  rw [ho]
  rintro s' ⟨⟩
  exact ⟨hroute, hfree⟩

theorem fits_binding {b : SessionBinding} {t : Tables} (ha : x.admitted = none)
    (he : x.evidenced = none) (hl : x.linked = none) (ho : x.opened = none) (hb : x.bound = some b)
    (hinsert : (written past).insertBinding (BindingRow.of b) = some t) :
    t = written (past ++ [x]) ∧ Fits past x := by
  obtain ⟨rfl, hfree⟩ := insertBinding_eq hinsert
  rw [written_append, ha, he, hl, ho, hb]
  refine ⟨by simp only [Option.map_none, Option.toList_none, List.append_nil, Option.map_some,
    Option.toList_some], forall_none ha, forall_none he, forall_none hl, forall_none ho, ?_⟩
  rw [hb]
  rintro b' ⟨⟩
  exact hfree

/-- The tables stay the trace of the served calls. -/
theorem step_served (hauth : call.Authenticated)
    (h : step target call d (written past) = (.ok reply, t)) :
    t = written (past ++ [⟨call, d, reply⟩]) ∧ Fits past ⟨call, d, reply⟩ := by
  obtain ⟨c, hserved, rfl⟩ := serve_ok h
  clear h
  cases call with
  | admitRequest principal peer route session =>
      obtain ⟨a, c₁, hcall, hserved⟩ := bind_accepts.1 hserved
      obtain ⟨rfl, rfl⟩ := pure_accepts.1 hserved
      obtain ⟨hroute, -, hroom, hinsert⟩ := admit_ok hcall
      exact fits_admission rfl rfl rfl rfl rfl
        (Team.Permissions.route_size (hauth principal rfl) hroute) hroom hinsert
  | headers a h =>
      obtain ⟨_, c₁, hcall, hserved⟩ := bind_accepts.1 hserved
      obtain ⟨rfl, rfl⟩ := pure_accepts.1 hserved
      obtain ⟨t, hlinked, hevent⟩ := headers_ok hcall
      exact fits_event rfl rfl rfl rfl rfl hlinked hevent
  | finish id transport =>
      obtain ⟨_, c₁, hcall, hserved⟩ := bind_accepts.1 hserved
      obtain ⟨rfl, rfl⟩ := pure_accepts.1 hserved
      obtain ⟨atMs, hnow, hevent⟩ := finish_ok hcall
      have hevidenced : Served.evidenced ⟨.finish id transport, d, .done⟩ =
          some (id, .finished ⟨atMs, transport⟩) := by
        rw [Served.evidenced, hnow, Option.map_some]
      exact fits_event rfl hevidenced rfl rfl rfl rfl hevent
  | records principal query =>
      obtain ⟨values, c₁, hcall, hserved⟩ := bind_accepts.1 hserved
      obtain ⟨rfl, rfl⟩ := pure_accepts.1 hserved
      rw [looks_records.accepted hcall]
      exact fits_nothing rfl rfl rfl rfl rfl
  | sessionIntent principal route origin key =>
      obtain ⟨⟨s, created⟩, c₁, hcall, hserved⟩ := bind_accepts.1 hserved
      obtain ⟨rfl, rfl⟩ := pure_accepts.1 hserved
      rcases sessionIntent_ok hcall with ⟨_, -, -, -, rfl, ht⟩ | ⟨-, rfl, hroute, -, -, hinsert⟩
      · rw [ht]
        exact fits_nothing rfl rfl rfl rfl rfl
      · exact fits_session rfl rfl rfl rfl rfl
          (Team.Permissions.route_size (hauth principal rfl) hroute) hinsert
  | bindSession intent internal =>
      obtain ⟨_, c₁, hcall, hserved⟩ := bind_accepts.1 hserved
      obtain ⟨rfl, rfl⟩ := pure_accepts.1 hserved
      exact fits_binding rfl rfl rfl rfl rfl (bindSession_ok hcall)
  | session principal id =>
      obtain ⟨⟨s, binding⟩, c₁, hcall, hserved⟩ := bind_accepts.1 hserved
      obtain ⟨rfl, rfl⟩ := pure_accepts.1 hserved
      rw [(looks_session id).accepted hcall]
      exact fits_nothing rfl rfl rfl rfl rfl

end Steps

end ResponseGateway.Requests
