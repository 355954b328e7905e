import ResponseGateway.Requests.Reading

/-!
Runs of the request ledger. Every reply shows its principal what is its own or what it may
oversee, sessions are opened once for a subject and a key, and pages that follow the
returned cursors list each request once.
-/

namespace ResponseGateway.Requests
open Checked Json Management Method Statements
open Team (Principal)

section Statement

/-- Calls of any principals in any order, with any failing statements, clocks and
identifiers. -/
inductive Run (target : Id) : List Served → Tables → Prop where
  | start : Run target [] .empty
  | served {past : List Served} {t t' : Tables} {call : Call} {d : Draw} {reply : Reply}
      (prior : Run target past t) (auth : call.Authenticated)
      (accepted : step target call d t = (.ok reply, t')) :
      Run target (past ++ [⟨call, d, reply⟩]) t'
  | refused {past : List Served} {t t' : Tables} {call : Call} {d : Draw} {e : Error}
      (prior : Run target past t) (auth : call.Authenticated)
      (failed : step target call d t = (.error e, t')) : Run target past t'

/-- The sessions that were asked for, with the subject and the key of the call and whether
it created them. -/
def Served.asked : Served → Option ((Id × Id) × SessionIntent × Bool)
  | ⟨.sessionIntent p _ _ key, _, .intent s created⟩ => some ((p.identity.subject, key), s, created)
  | _ => none

def asked (past : List Served) : List ((Id × Id) × SessionIntent × Bool) :=
  past.filterMap Served.asked

def Reply.admissions : Reply → List Admission
  | .admission a => [a]
  | .records l => l.map (·.admission)
  | .done | .intent .. | .session .. => []

def Reply.sessions : Reply → List SessionIntent
  | .intent s _ | .session s _ => [s]
  | .admission _ | .done | .records _ => []

/-- A query over all subjects by a principal that may read all usage. -/
def Call.oversees : Call → Bool
  | .records p query => query.all && p.permissions.readAllUsage
  | _ => false

def Call.Owns (call : Call) (subject : Id) : Prop :=
  ∃ p, call.principal = some p ∧ p.identity.subject = subject

/-- Pages of a query, each behind the last cursor of the one before, with calls of anyone
between them. The last page is empty. -/
inductive Pages (target : Id) (principal : Principal) (query : UsageQuery) :
    UInt64 → List Served → List Record → List Served → Prop where
  | last {after : UInt64} {past : List Served} {t : Tables} {d : Draw} (run : Run target past t)
      (call : step target (.records principal { query with after }) d t = (.ok (.records []), t)) :
      Pages target principal query after past [] past
  | next {after : UInt64} {past past' past'' : List Served} {t : Tables} {d : Draw}
      {page more : List Record} {r : Record} (run : Run target past t)
      (call : step target (.records principal { query with after }) d t = (.ok (.records page), t))
      (cursor : page.getLast? = some r) (later : past <+: past')
      (rest : Pages target principal query r.cursor past' more past'') :
      Pages target principal query after past (page ++ more) past''

structure Isolated (target : Id) (past : List Served) (t : Tables) : Prop where
  /-- Calls for one subject and key return one session, which only the first created. -/
  intents : (asked past).Pairwise fun a b => a.1 = b.1 → b.2 = (a.2.1, false)
  /-- A further call returns it or the conflict, unless a statement fails. -/
  repeated : ∀ a ∈ asked past, ∀ (principal : Principal) (route : String) (origin : Digest)
    (d : Draw), principal.identity.subject = a.1.1 →
    principal.permissions.permitsRoute route = true →
    let result := step target (.sessionIntent principal route origin a.1.2) d t
    result = (if route = a.2.1.route ∧ origin = a.2.1.originSha256 then
        .ok (.intent a.2.1 false) else .error .conflict, t) ∨
      ¬ Quiet d.faults ∧ result = (.error .storage, t)
  /-- What is shown is the principal's own, or it may oversee. -/
  own : ∀ x ∈ past, (∀ a ∈ x.reply.admissions, x.call.Owns a.subject ∨ x.call.oversees = true) ∧
    ∀ s ∈ x.reply.sessions, x.call.Owns s.subject
  /-- What is shown was admitted or opened, and what was admitted or opened belongs to the
  principal of that call. -/
  genuine : ∀ x ∈ past, (∀ a ∈ x.reply.admissions, ∃ y ∈ past, y.admitted = some a ∧
      y.call.Owns a.subject) ∧
    ∀ s ∈ x.reply.sessions, ∃ y ∈ past, y.opened = some s ∧ y.call.Owns s.subject
  events : ∀ request phase,
    (t.requestEvents.filter fun e => e.request = request && e.phase = phase).length ≤ 1
  links : ∀ producer gatewayRequest, (t.links.filter fun l =>
    l.producer = producer && l.gatewayRequest = gatewayRequest).length ≤ 1
  internals : ∀ internal, (t.sessionBindings.filter (·.internal = internal)).length ≤ 1
  /-- A call that fails changes no table. -/
  failing : ∀ call d e t', step target call d t = (.error e, t') → t' = t
  /-- Pages list every request that the query asks for once, in the order of admission. -/
  paged : ∀ principal query l past', query.after = 0 →
    Pages target principal query 0 past l past' →
    l.map (·.admission) = (admitted past').filter (query.matches principal.identity.subject)
  /-- They come to an end when no other call is between them. -/
  pages : ∀ principal query, query.after = 0 → query.validate = .ok () →
    (query.all = true → principal.permissions.readAllUsage = true) →
    ∃ l, Pages target principal query 0 past l past

end Statement

section Runs

variable {target : Id} {past : List Served} {t : Tables}

theorem Run.sound (h : Run target past t) : t = written past ∧ Sound past := by
  induction h with
  | start => exact ⟨rfl, sound_nil⟩
  | served prior auth accepted ih =>
      obtain ⟨rfl, hsound⟩ := ih
      obtain ⟨ht, hfits⟩ := step_served auth accepted
      exact ⟨ht, hsound.append hfits⟩
  | refused prior auth failed ih =>
      obtain ⟨rfl, hsound⟩ := ih
      exact ⟨step_atomic _ _ _ _ _ _ failed, hsound⟩

/-- What is said of a call and the calls served before it holds along a run. -/
theorem Run.induct {P : List Served → Served → Prop} {Q : List Served → Prop}
    (hcall : ∀ {past call d reply t}, Sound past →
      step target call d (written past) = (.ok reply, t) → P past ⟨call, d, reply⟩)
    (hnil : Q []) (hsnoc : ∀ {past x}, Q past → P past x → Q (past ++ [x]))
    (h : Run target past t) : Q past := by
  induction h with
  | start => exact hnil
  | served prior auth accepted ih =>
      obtain ⟨rfl, hsound⟩ := prior.sound
      exact hsnoc ih (hcall hsound accepted)
  | refused _ _ _ ih => exact ih

end Runs

section Intents

variable {target : Id} {past : List Served} {t : Tables}

/-- A call finds the session that is stored, or it stores the one it returns. -/
def Finds (past : List Served) (x : Served) : Prop :=
  ∀ a, x.asked = some a → (intentAt past a.1.1 a.1.2 = some a.2.1 ∧ a.2.2 = false) ∨
    (intentAt past a.1.1 a.1.2 = none ∧ x.opened = some a.2.1 ∧ a.2.1.subject = a.1.1 ∧
      a.2.1.idempotencyKey = a.1.2)

theorem step_finds {call : Call} {d : Draw} {reply : Reply} (hsound : Sound past)
    (h : step target call d (written past) = (.ok reply, t)) :
    Finds past ⟨call, d, reply⟩ := by
  intro a ha
  obtain ⟨c, hserved, rfl⟩ := serve_ok h
  cases call with
  | sessionIntent principal route origin key =>
      obtain ⟨⟨s, created⟩, c₁, hcall, hserved⟩ := bind_accepts.1 hserved
      obtain ⟨rfl, rfl⟩ := pure_accepts.1 hserved
      cases ha
      obtain ⟨hsubject, hfound⟩ := sessionIntent_served hsound hcall
      rcases hfound with hknown | ⟨hnone, rfl, hkey⟩
      · exact .inl hknown
      · exact .inr ⟨hnone, rfl, hsubject, hkey⟩
  | admitRequest | headers | finish | records | bindSession | session => cases ha

theorem intentAt_append {x : Served} {subject key : Id} : intentAt (past ++ [x]) subject key =
    (intentAt past subject key).or (x.opened.filter fun s =>
      decide (s.subject = subject) && decide (s.idempotencyKey = key)) := by
  rw [intentAt, opened, filterMap_snoc, List.find?_append, ← opened, ← intentAt]
  cases x.opened with
  | none => rfl
  | some s =>
      rw [Option.toList_some, List.find?_singleton, Option.filter_some]

/-- The session that was returned is the one that is stored, and later calls return it. -/
def Settled (past : List Served) : Prop :=
  (asked past).Pairwise (fun a b => a.1 = b.1 → b.2 = (a.2.1, false)) ∧
    ∀ a ∈ asked past, intentAt past a.1.1 a.1.2 = some a.2.1

theorem Settled.append {x : Served} (h : Settled past) (hx : Finds past x) :
    Settled (past ++ [x]) := by
  obtain ⟨hpairs, hstored⟩ := h
  rw [Settled, asked, filterMap_snoc, ← asked]
  constructor
  · refine List.pairwise_append.2 ⟨hpairs, ?_, ?_⟩
    · cases x.asked with
      | none => exact .nil
      | some a => exact List.pairwise_singleton _ _
    · intro a ha b hb hkey
      rw [Option.mem_toList] at hb
      have hfound := hstored a ha
      rcases hx b hb with ⟨hknown, hcreated⟩ | ⟨hnone, -⟩
      · rw [← hkey, hfound] at hknown
        exact Prod.ext (Option.some.inj hknown).symm hcreated
      · rw [← hkey, hfound] at hnone
        cases hnone
  · intro a ha
    rw [List.mem_append, Option.mem_toList] at ha
    rw [intentAt_append]
    rcases ha with ha | ha
    · rw [hstored a ha, Option.some_or]
    · rcases hx a ha with ⟨hknown, -⟩ | ⟨hnone, hopened, hsubject, hkey⟩
      · rw [hknown, Option.some_or]
      · rw [hnone, Option.none_or, hopened, Option.filter_some, hsubject, hkey]
        simp

theorem Run.settled (h : Run target past t) : Settled past :=
  h.induct step_finds ⟨.nil, fun _ h => absurd h List.not_mem_nil⟩ Settled.append

theorem Run.repeated (h : Run target past t) {a : (Id × Id) × SessionIntent × Bool}
    (ha : a ∈ asked past) {principal : Principal} {route : String} {origin : Digest} {d : Draw}
    (hsubject : principal.identity.subject = a.1.1)
    (hpermitted : principal.permissions.permitsRoute route = true) :
    step target (.sessionIntent principal route origin a.1.2) d t =
        (if route = a.2.1.route ∧ origin = a.2.1.originSha256 then
          .ok (.intent a.2.1 false) else .error .conflict, t) ∨
      ¬ Quiet d.faults ∧
        step target (.sessionIntent principal route origin a.1.2) d t = (.error .storage, t) := by
  obtain ⟨rfl, hsound⟩ := h.sound
  have hknown := h.settled.2 a ha
  rw [← hsubject] at hknown
  refine Gives.serve ?_
  have hcall : Gives (sessionIntent d principal route origin a.1.2) .storage
      ⟨written past, d.faults⟩ _ := sessionIntent_known hsound hknown hpermitted
  split at hcall
  · next hsame =>
      rw [if_pos hsame]
      exact hcall.bind fun _ => gives_of_eq rfl
  · next hdiffers =>
      rw [if_neg hdiffers]
      exact hcall.bind_error _

end Intents

section Owners

variable {target : Id} {past : List Served} {t : Tables}

/-- What a reply shows is the principal's or it may oversee, and it is recorded. -/
def Shows (past : List Served) (x : Served) : Prop :=
  (∀ a ∈ x.reply.admissions, (x.call.Owns a.subject ∨ x.call.oversees = true) ∧
    a ∈ admitted (past ++ [x])) ∧
  ∀ s ∈ x.reply.sessions, x.call.Owns s.subject ∧ s ∈ opened (past ++ [x])

theorem step_shows {call : Call} {d : Draw} {reply : Reply} (hsound : Sound past)
    (h : step target call d (written past) = (.ok reply, t)) :
    Shows past ⟨call, d, reply⟩ := by
  have hnone {α : Type} {P : α → Prop} : ∀ a ∈ ([] : List α), P a :=
    fun _ h => absurd h List.not_mem_nil
  have hone {α : Type} {P : α → Prop} {a : α} (ha : P a) : ∀ b ∈ [a], P b := by
    intro b hb
    rwa [List.mem_singleton.1 hb]
  obtain ⟨c, hserved, rfl⟩ := serve_ok h
  cases call with
  | admitRequest principal peer route session =>
      obtain ⟨a, c₁, hcall, hserved⟩ := bind_accepts.1 hserved
      obtain ⟨rfl, rfl⟩ := pure_accepts.1 hserved
      obtain ⟨-, hsubject, -, -⟩ := admit_ok hcall
      refine ⟨hone ⟨.inl ⟨principal, rfl, hsubject.symm⟩, ?_⟩, hnone⟩
      rw [admitted, filterMap_snoc]
      exact List.mem_append_right _ List.mem_cons_self
  | headers a h =>
      obtain ⟨_, c₁, hcall, hserved⟩ := bind_accepts.1 hserved
      obtain ⟨rfl, rfl⟩ := pure_accepts.1 hserved
      exact ⟨hnone, hnone⟩
  | finish id transport =>
      obtain ⟨_, c₁, hcall, hserved⟩ := bind_accepts.1 hserved
      obtain ⟨rfl, rfl⟩ := pure_accepts.1 hserved
      exact ⟨hnone, hnone⟩
  | records principal query =>
      obtain ⟨values, c₁, hcall, hserved⟩ := bind_accepts.1 hserved
      obtain ⟨rfl, rfl⟩ := pure_accepts.1 hserved
      obtain ⟨-, hright, rfl⟩ := records_ok hsound hcall
      refine ⟨fun a ha => ?_, hnone⟩
      rw [Reply.admissions, List.map_map] at ha
      obtain ⟨x, hx, rfl⟩ := List.mem_map.1 ha
      obtain ⟨hmem, -, hmatch⟩ := mem_pageOf hx
      refine ⟨?_, ?_⟩
      · rw [UsageQuery.matches, Bool.and_eq_true, Bool.or_eq_true, decide_eq_true_eq] at hmatch
        rcases hmatch.2 with hall | hsubject
        · refine .inr ?_
          rw [Call.oversees, hall, hright hall]
          rfl
        · exact .inl ⟨principal, rfl, hsubject.symm⟩
      · rw [admitted, filterMap_snoc]
        exact List.mem_append_left _ hmem
  | sessionIntent principal route origin key =>
      obtain ⟨⟨s, created⟩, c₁, hcall, hserved⟩ := bind_accepts.1 hserved
      obtain ⟨rfl, rfl⟩ := pure_accepts.1 hserved
      obtain ⟨hsubject, hfound⟩ := sessionIntent_served hsound hcall
      refine ⟨hnone, hone ⟨⟨principal, rfl, hsubject.symm⟩, ?_⟩⟩
      rw [opened, filterMap_snoc]
      rcases hfound with ⟨hknown, -⟩ | ⟨-, rfl, -⟩
      · exact List.mem_append_left _ (intentAt_some hknown).1
      · exact List.mem_append_right _ List.mem_cons_self
  | bindSession intent internal =>
      obtain ⟨_, c₁, hcall, hserved⟩ := bind_accepts.1 hserved
      obtain ⟨rfl, rfl⟩ := pure_accepts.1 hserved
      exact ⟨hnone, hnone⟩
  | session principal id =>
      obtain ⟨⟨s, binding⟩, c₁, hcall, hserved⟩ := bind_accepts.1 hserved
      obtain ⟨rfl, rfl⟩ := pure_accepts.1 hserved
      obtain ⟨hmem, -, hsubject, -⟩ := session_ok hsound hcall
      refine ⟨hnone, hone ⟨⟨principal, rfl, hsubject.symm⟩, ?_⟩⟩
      rw [opened, filterMap_snoc]
      exact List.mem_append_left _ hmem

/-- Every reply shows what it may. -/
def Discreet (past : List Served) : Prop := ∀ x ∈ past,
  (∀ a ∈ x.reply.admissions, (x.call.Owns a.subject ∨ x.call.oversees = true) ∧
    a ∈ admitted past) ∧
  ∀ s ∈ x.reply.sessions, x.call.Owns s.subject ∧ s ∈ opened past

theorem Discreet.append {x : Served} (h : Discreet past) (hx : Shows past x) :
    Discreet (past ++ [x]) := by
  have hmem {α : Type} (f : Served → Option α) : past.filterMap f ⊆ (past ++ [x]).filterMap f := by
    rw [filterMap_snoc]
    exact List.subset_append_left _ _
  intro y hy
  rcases List.mem_append.1 hy with hy | hy
  · obtain ⟨hadmissions, hsessions⟩ := h y hy
    exact ⟨fun a ha => ⟨(hadmissions a ha).1, hmem _ (hadmissions a ha).2⟩,
      fun s hs => ⟨(hsessions s hs).1, hmem _ (hsessions s hs).2⟩⟩
  · rw [List.mem_singleton.1 hy]
    exact hx

theorem Run.discreet (h : Run target past t) : Discreet past :=
  h.induct step_shows (fun _ h => absurd h List.not_mem_nil) Discreet.append

theorem Discreet.admission (h : Discreet past) {a : Admission} (ha : a ∈ admitted past) :
    ∃ y ∈ past, y.admitted = some a ∧ y.call.Owns a.subject := by
  obtain ⟨y, hy, hadmitted⟩ := List.mem_filterMap.1 ha
  obtain ⟨call, d, reply⟩ := y
  refine ⟨_, hy, hadmitted, ?_⟩
  cases call with
  | admitRequest principal peer route session =>
      cases reply with
      | admission a' =>
          cases hadmitted
          refine ((h _ hy).1 a List.mem_cons_self).1.resolve_right ?_
          exact Bool.false_ne_true
      | done | records | intent | session => cases hadmitted
  | headers | finish | records | sessionIntent | bindSession | session => cases hadmitted

theorem Discreet.session (h : Discreet past) {s : SessionIntent} (hs : s ∈ opened past) :
    ∃ y ∈ past, y.opened = some s ∧ y.call.Owns s.subject := by
  obtain ⟨y, hy, hopened⟩ := List.mem_filterMap.1 hs
  obtain ⟨call, d, reply⟩ := y
  refine ⟨_, hy, hopened, ?_⟩
  cases call with
  | sessionIntent principal route origin key =>
      cases reply with
      | intent s' created =>
          cases created with
          | true =>
              cases hopened
              exact ((h _ hy).2 s List.mem_cons_self).1
          | false => cases hopened
      | done | records | admission | session => cases hopened
  | headers | finish | records | admitRequest | bindSession | session => cases hopened

end Owners

section Pages

variable {target : Id} {past past' : List Served} {t : Tables} {principal : Principal}
  {query : UsageQuery} {after : UInt64}

/-- The admission of a record with its number. -/
def Record.entry (r : Record) : Admission × Nat := (r.admission, r.cursor.toNat)

theorem numbered_lt (hsound : Sound past) {x : Admission × Nat} (hx : x ∈ numbered past) :
    x.2 ≤ maxRequests := by
  have hlt := List.snd_lt_add_of_mem_zipIdx hx
  have hfew := hsound.few
  omega

theorem entry_recordOf (hsound : Sound past) {x : Admission × Nat} (hx : x ∈ numbered past) :
    (recordOf past x).entry = x := by
  have hsmall : x.2 < 2 ^ 64 := (numbered_lt hsound hx).trans_lt (by decide)
  exact Prod.ext rfl (UInt64.toNat_ofNat_of_lt' hsmall)

theorem mem_numbered {subject : Id} {x : Admission × Nat} (h : x ∈ pageOf past query subject) :
    x ∈ numbered past := (List.mem_filter.1 (List.mem_of_mem_take h)).1

theorem numbered_isPrefix (h : past <+: past') : numbered past <+: numbered past' := by
  obtain ⟨more, rfl⟩ := h
  rw [numbered, numbered, admitted, admitted, List.filterMap_append, List.zipIdx_append]
  exact List.prefix_append _ _

theorem page_served (hrun : Run target past t) {d : Draw} {page : List Record}
    (hcall : step target (.records principal query) d t = (.ok (.records page), t)) :
    page = (pageOf past query principal.identity.subject).map (recordOf past) := by
  obtain ⟨rfl, hsound⟩ := hrun.sound
  obtain ⟨c, hserved, -⟩ := serve_ok hcall
  obtain ⟨values, c₁, hrecords, hserved⟩ := bind_accepts.1 hserved
  obtain ⟨heq, -⟩ := pure_accepts.1 hserved
  cases heq
  exact (records_ok hsound hrecords).2.2

theorem entries_page (hsound : Sound past) {subject : Id} :
    ((pageOf past query subject).map (recordOf past)).map Record.entry =
      pageOf past query subject := by
  rw [List.map_map]
  have hentry : ∀ x ∈ pageOf past query subject, (Record.entry ∘ recordOf past) x = id x :=
    fun x hx => entry_recordOf hsound (mem_numbered hx)
  rw [List.map_congr_left hentry, List.map_id]

/-- Following the cursors reads the numbered admissions. -/
theorem Pages.reads {l : List Record} (h : Pages target principal query after past l past') :
    Paging.Reads Prod.snd (fun x => query.matches principal.identity.subject x.1) 100 after.toNat
      (numbered past) (l.map Record.entry) (numbered past') := by
  induction h with
  | last run call =>
      have hpage := page_served run call
      exact .last (List.map_eq_nil_iff.1 hpage.symm)
  | @next after past _ _ _ _ _ _ _ run call cursor later rest ih =>
      obtain ⟨-, hsound⟩ := run.sound
      obtain rfl := page_served run call
      rw [List.getLast?_map] at cursor
      obtain ⟨x, hx, rfl⟩ := Option.map_eq_some_iff.1 cursor
      rw [List.map_append, entries_page hsound]
      have hcursor : (recordOf past x).cursor.toNat = x.2 :=
        (Prod.ext_iff.1 (entry_recordOf hsound (mem_numbered (List.mem_of_getLast? hx)))).2
      rw [hcursor] at ih
      exact .next hx (numbered_isPrefix later) ih

theorem Pages.run {l : List Record} (h : Pages target principal query after past l past') :
    ∃ t, Run target past' t := by
  induction h with
  | last run _ => exact ⟨_, run⟩
  | next _ _ _ _ _ ih => exact ih

theorem Pages.admissions {l : List Record} (h : Pages target principal query 0 past l past') :
    l.map (·.admission) = (admitted past').filter (query.matches principal.identity.subject) := by
  have hread := h.reads.eq_wanted (by decide) numbered_sorted
  have hfirst : l.map (·.admission) = (l.map Record.entry).map Prod.fst := by
    rw [List.map_map]
    rfl
  have hwanted : Paging.wanted Prod.snd (fun x : Admission × Nat =>
      query.matches principal.identity.subject x.1) (UInt64.toNat 0) (numbered past') =
      (numbered past').filter (query.matches principal.identity.subject ∘ Prod.fst) := by
    refine List.filter_congr fun x hx => ?_
    have hpos := List.le_snd_of_mem_zipIdx hx
    have hbehind : UInt64.toNat 0 < x.2 := hpos
    rw [decide_eq_true hbehind, Bool.true_and]
    rfl
  rw [hfirst, hread, hwanted, ← List.filter_map, numbered, List.zipIdx_map_fst]

theorem UsageQuery.validate_after (h : query.validate = .ok ()) (hafter : after.toNat ≤ maxI64) :
    UsageQuery.validate { query with after } = .ok () := by
  rw [UsageQuery.validate, rejectIf_ok, Bool.or_eq_false_iff] at h ⊢
  exact ⟨h.1, decide_eq_false (Nat.not_lt.2 hafter)⟩

/-- Nobody else calls, and no statement fails. -/
theorem Run.pages (hrun : Run target past t) (hvalid : query.validate = .ok ())
    (hright : query.all = true → principal.permissions.readAllUsage = true) :
    ∃ l, Pages target principal query 0 past l past := by
  obtain ⟨rfl, hsound⟩ := hrun.sound
  have hcall (after : UInt64) (hafter : after.toNat ≤ maxI64) :
      step target (.records principal { query with after })
        ⟨[], none, principal.identity.subject⟩ (written past) =
      (.ok (.records ((pageOf past { query with after } principal.identity.subject).map
        (recordOf past))), written past) := by
    have hpage : Gives (records principal { query with after }) .storage ⟨written past, []⟩ _ :=
      records_gives hsound (UsageQuery.validate_after hvalid hafter) hright
    have hreply : Gives (do
        let values ← records principal { query with after }
        pure (Reply.records values)) .storage ⟨written past, []⟩ (.ok (.records _)) :=
      hpage.bind fun _ => gives_of_eq rfl
    rcases hreply.serve with hserved | ⟨hloud, -⟩
    · exact hserved
    · exact absurd (fun _ h => absurd h List.not_mem_nil) hloud
  refine Paging.induct (motive := fun n => ∀ after : UInt64, after.toNat = n →
    after.toNat ≤ maxI64 → ∃ l, Pages target principal query after past l past) (n := 100)
    (l := numbered past) (p := fun x => query.matches principal.identity.subject x.1) numbered_sorted ?_ ?_ 0 0 rfl
    (Nat.zero_le _)
  · rintro _ hempty after rfl hafter
    have hserved := hcall after hafter
    rw [show pageOf past { query with after } principal.identity.subject = [] from hempty] at hserved
    exact ⟨[], .last hrun hserved⟩
  · rintro _ x hlast hrest after rfl hafter
    have hmem : x ∈ numbered past :=
      (List.mem_filter.1 (List.mem_of_mem_take (List.mem_of_getLast? hlast))).1
    have hentry := (Prod.ext_iff.1 (entry_recordOf hsound hmem)).2
    change (recordOf past x).cursor.toNat = x.2 at hentry
    have hsmall : x.2 ≤ maxI64 := (numbered_lt hsound hmem).trans (by decide)
    obtain ⟨more, hmore⟩ := hrest (recordOf past x).cursor hentry (by rw [hentry]; exact hsmall)
    refine ⟨_, .next hrun (hcall after hafter) ?_ List.prefix_rfl hmore⟩
    rw [List.getLast?_map]
    exact congrArg (Option.map (recordOf past)) hlast

end Pages

section Result

variable {target : Id} {past : List Served} {t : Tables}

theorem ledger_isolated (h : Run target past t) : Isolated target past t where
  intents := h.settled.1
  repeated a ha _ _ _ _ hsubject hpermitted := h.repeated ha hsubject hpermitted
  own x hx := ⟨fun a ha => ((h.discreet x hx).1 a ha).1, fun s hs => ((h.discreet x hx).2 s hs).1⟩
  genuine x hx := ⟨fun a ha => h.discreet.admission ((h.discreet x hx).1 a ha).2,
    fun s hs => h.discreet.session ((h.discreet x hx).2 s hs).2⟩
  events request phase := by
    obtain ⟨rfl, hsound⟩ := h.sound
    refine hsound.requestEvents.length_filter_le fun a b ha hb => ?_
    simp only [Bool.and_eq_true, decide_eq_true_eq] at ha hb
    rw [EventRow.clash, ha.1, ha.2, hb.1, hb.2, decide_eq_true rfl, decide_eq_true rfl]
    rfl
  links producer gatewayRequest := by
    obtain ⟨rfl, hsound⟩ := h.sound
    refine hsound.links.length_filter_le fun a b ha hb => ?_
    simp only [Bool.and_eq_true, decide_eq_true_eq] at ha hb
    rw [LinkRow.clash, ha.1, ha.2, hb.1, hb.2, decide_eq_true rfl, decide_eq_true rfl]
    rfl
  internals internal := by
    obtain ⟨rfl, hsound⟩ := h.sound
    refine hsound.sessionBindings.length_filter_le fun a b ha hb => ?_
    rw [decide_eq_true_eq] at ha hb
    rw [BindingRow.clash, ha, hb, decide_eq_true rfl, Bool.or_true]
  failing _ _ _ _ hfailed := step_atomic _ _ _ _ _ _ hfailed
  paged _ _ _ _ _ hpages := hpages.admissions
  pages _ _ _ hvalid hright := h.pages hvalid hright

def sample : Principal where
  identity := ⟨⟨"alice", by decide⟩, ⟨"laptop", by decide⟩⟩
  purpose := .model
  permissions := ⟨true, {"m"}, ∅, false⟩
  authorizationVersion := ⟨String.ofList (List.replicate 64 'a'), by decide⟩

theorem sample_valid : sample.permissions.validate = .ok () := by
  refine Team.Permissions.validate_ok.2 ⟨⟨by decide, by decide, by decide⟩, ?_⟩
  have hroutes : Finset.sort ({"m"} : Finset String) = ["m"] := Finset.sort_singleton _ _
  have hgrants : Finset.sort (∅ : Finset Grant) = [] := Finset.sort_empty _
  change Codec.Within _ _ (Team.Permissions.mk true {"m"} ∅ false)
  simp only [Codec.Within, Team.Permissions.codec, Codec.map, Record.codec, Record.and, Record.field,
    Team.setCodec, Codec.list, hroutes, hgrants]
  decide

def sampleCall (route : String) : Call :=
  .sessionIntent sample route ⟨String.ofList (List.replicate 64 'b'), by decide⟩
    ⟨"first", by decide⟩

def sampleDraw : Draw := ⟨[], some 1, ⟨"s1", by decide⟩⟩

def sampleIntent : SessionIntent where
  id := ⟨"s1", by decide⟩
  subject := sample.identity.subject
  credential := sample.identity.credential
  route := "m"
  originSha256 := ⟨String.ofList (List.replicate 64 'b'), by decide⟩
  idempotencyKey := ⟨"first", by decide⟩
  atMs := 1

theorem sample_run (target : Id) : Run target [⟨sampleCall "m", sampleDraw, .intent sampleIntent true⟩]
    (step target (sampleCall "m") sampleDraw .empty).2 := by
  have hauth : (sampleCall "m").Authenticated := by
    rintro p ⟨⟩
    exact sample_valid
  exact .served .start hauth (Prod.ext rfl rfl)

theorem ledger_isolated_sample : Isolated sample.identity.subject
    [⟨sampleCall "m", sampleDraw, .intent sampleIntent true⟩]
    (step sample.identity.subject (sampleCall "m") sampleDraw .empty).2 :=
  ledger_isolated (sample_run sample.identity.subject)

/-- A route that the principal has no permission for is forbidden before the stored session
is looked at. -/
theorem sessionIntent_forbidden : ¬ ∀ (target : Id) (past : List Served) (t : Tables),
    Run target past t → ∀ a ∈ asked past, ∀ (principal : Principal) (route : String)
      (origin : Digest) (d : Draw), principal.permissions.validate = .ok () → Quiet d.faults →
      principal.identity.subject = a.1.1 →
      route ≠ a.2.1.route ∨ origin ≠ a.2.1.originSha256 →
      step target (.sessionIntent principal route origin a.1.2) d t = (.error .conflict, t) := by
  intro h
  have hcall := h _ _ _ (sample_run sample.identity.subject)
    ((sample.identity.subject, sampleIntent.idempotencyKey), sampleIntent, true)
    List.mem_cons_self sample "x" sampleIntent.originSha256 sampleDraw sample_valid
    (fun _ hf => absurd hf List.not_mem_nil) rfl (.inl (by decide))
  cases congrArg Prod.fst hcall

end Result

end ResponseGateway.Requests
