import ResponseGateway.Requests.Serving

/-!
What the reading calls return, read off the calls that were served before. No text of the
tables fails to decode.
-/

namespace ResponseGateway.Requests
open Checked Json Management Method Statements
open Team (Principal)

section Histories

variable (past : List Served)

def evidenceOf (id : Id) (phase : Phase) : Option Evidence :=
  ((evidenced past).find? fun e => e.1 = id && e.2.phase = phase).map (·.2)

def recordOf (x : Admission × Nat) : Record where
  cursor := UInt64.ofNat x.2
  admission := x.1
  headers := (evidenceOf past x.1.id .headers).bind Evidence.headers?
  finished := (evidenceOf past x.1.id .finished).bind Evidence.finished?

/-- The admissions that a query asks for. -/
def UsageQuery.matches (query : UsageQuery) (subject : Id) (a : Admission) : Bool :=
  decide (query.fromMs ≤ a.atMs) && decide (a.atMs < query.toMs) &&
    (query.all || decide (a.subject = subject))

def pageOf (query : UsageQuery) (subject : Id) : List (Admission × Nat) :=
  Paging.page Prod.snd (fun x => query.matches subject x.1) 100 query.after.toNat (numbered past)

/-- The session of a subject under a key. -/
def intentAt (subject key : Id) : Option SessionIntent :=
  (opened past).find? fun s => s.subject = subject && s.idempotencyKey = key

end Histories

section Texts

variable {past : List Served}

theorem value_inj {a b : Id} : a.value = b.value ↔ a = b := Id.value_injective.eq_iff

theorem evidence_written (id : Id) (phase : Phase) :
    (written past).evidence id phase = (evidenceOf past id phase).map Evidence.text := by
  have hrow : (fun row : EventRow => decide (row.request = id.value) && decide (row.phase = phase)) ∘
      EventRow.of = fun e => decide (e.1 = id) && decide (e.2.phase = phase) := by
    funext e
    change (decide (e.1.value = id.value) && decide (e.2.phase = phase)) = _
    simp only [value_inj]
  rw [Tables.evidence, written, List.find?_map, hrow, evidenceOf, Option.map_map, Option.map_map]
  rfl

theorem evidenceOf_phase {id : Id} {phase : Phase} {e : Evidence}
    (h : evidenceOf past id phase = some e) : (id, e) ∈ evidenced past ∧ e.phase = phase := by
  obtain ⟨⟨id', e'⟩, hfind, rfl⟩ := Option.map_eq_some_iff.1 h
  have hmem := List.mem_of_find?_eq_some hfind
  have hkey := List.find?_some hfind
  rw [Bool.and_eq_true, decide_eq_true_eq, decide_eq_true_eq] at hkey
  obtain ⟨rfl, hphase⟩ := hkey
  exact ⟨hmem, hphase⟩

theorem headers_written (id : Id) :
    decodeOption Headers.codec ((written past).evidence id .headers) =
      .ok ((evidenceOf past id .headers).bind Evidence.headers?) := by
  rw [evidence_written]
  cases h : evidenceOf past id .headers with
  | none => rfl
  | some e =>
      cases e with
      | headers value =>
          change (decode Headers.codec (json Headers.codec value)).map some = _
          rw [decode_headers]
          rfl
      | finished value => cases (evidenceOf_phase h).2

theorem finished_written (id : Id) :
    decodeOption Finished.codec ((written past).evidence id .finished) =
      .ok ((evidenceOf past id .finished).bind Evidence.finished?) := by
  rw [evidence_written]
  cases h : evidenceOf past id .finished with
  | none => rfl
  | some e =>
      cases e with
      | headers value => cases (evidenceOf_phase h).2
      | finished value =>
          change (decode Finished.codec (json Finished.codec value)).map some = _
          rw [decode_finished]
          rfl

theorem page_written (query : UsageQuery) (subject : Id) :
    (written past).page query subject = (pageOf past query subject).map RequestRow.of := by
  have hrow : (fun row : RequestRow => decide (query.after.toNat < row.rowid) &&
      (decide (query.fromMs.toNat ≤ row.admittedMs) && decide (row.admittedMs < query.toMs.toNat) &&
        (query.all || decide (row.subject = subject.value)))) ∘ RequestRow.of =
      fun x => decide (query.after.toNat < x.2) && query.matches subject x.1 := by
    funext x
    change (decide (query.after.toNat < x.2) && (decide (query.fromMs ≤ x.1.atMs) &&
      decide (x.1.atMs < query.toMs) && (query.all || decide (x.1.subject.value = subject.value)))) = _
    simp only [value_inj]
    rfl
  rw [Tables.page, written, List.filter_map, hrow, ← List.map_take]
  rfl

theorem intentAt_written (subject key : Id) : (written past).intentAt subject key =
    (intentAt past subject key).map (json SessionIntent.codec) := by
  have hrow : (fun row : SessionRow => decide (row.subject = subject.value) &&
      decide (row.idempotencyKey = key.value)) ∘ SessionRow.of =
      fun s => decide (s.subject = subject) && decide (s.idempotencyKey = key) := by
    funext s
    simp only [Function.comp_apply, SessionRow.of, value_inj]
  rw [Tables.intentAt, written, List.find?_map, hrow, intentAt, Option.map_map]
  rfl

theorem intentAt_some {subject key : Id} {s : SessionIntent}
    (h : intentAt past subject key = some s) :
    s ∈ opened past ∧ s.subject = subject ∧ s.idempotencyKey = key := by
  have hkey := List.find?_some h
  rw [Bool.and_eq_true, decide_eq_true_eq, decide_eq_true_eq] at hkey
  exact ⟨List.mem_of_find?_eq_some h, hkey⟩

theorem intentOf_written (id subject : Id) : (written past).intentOf id subject =
    ((opened past).find? fun s => s.id = id && s.subject = subject).map
      (json SessionIntent.codec) := by
  have hrow : (fun row : SessionRow => decide (row.id = id.value) &&
      decide (row.subject = subject.value)) ∘ SessionRow.of =
      fun s => decide (s.id = id) && decide (s.subject = subject) := by
    funext s
    simp only [Function.comp_apply, SessionRow.of, value_inj]
  rw [Tables.intentOf, written, List.find?_map, hrow, Option.map_map]
  rfl

end Texts

section Pages

variable {past : List Served} {principal : Principal} {query : UsageQuery}

theorem mem_pageOf {subject : Id} {x : Admission × Nat} (h : x ∈ pageOf past query subject) :
    x.1 ∈ admitted past ∧ query.after.toNat < x.2 ∧ query.matches subject x.1 = true := by
  obtain ⟨hmem, hkept⟩ := List.mem_filter.1 (List.mem_of_mem_take h)
  rw [Bool.and_eq_true, decide_eq_true_eq] at hkept
  exact ⟨List.fst_mem_of_mem_zipIdx hmem, hkept⟩

theorem record_gives (hsound : Sound past) {x : Admission × Nat} (hx : x.1 ∈ admitted past)
    (hmatch : query.matches principal.identity.subject x.1 = true) {faults : List Bool} :
    Gives (record principal query (.of x)) .storage ⟨written past, faults⟩
      (.ok (recordOf past x)) := by
  have hdecode : decode Admission.codec (RequestRow.of x).intent = .ok x.1 :=
    decode_admission (hsound.routes x.1 hx)
  have hown : rejectIf (!query.all && x.1.subject ≠ principal.identity.subject)
      Error.invalidStore = .ok () := by
    rw [UsageQuery.matches, Bool.and_eq_true, Bool.or_eq_true, decide_eq_true_eq] at hmatch
    rw [rejectIf_ok]
    rcases hmatch.2 with hall | hsubject
    · rw [hall]
      rfl
    · rw [hsubject]
      simp
  have hevent {α : Type} {c : Codec α} {id : Id} {phase : Phase} {o : Option α} {faults : List Bool}
      (h : decodeOption c ((written past).evidence id phase) = .ok o) :
      Gives (event c id phase) Error.storage ⟨written past, faults⟩ (.ok o) :=
    (select_gives _).bind fun _ => h ▸ check_gives
  refine check_bind_gives hdecode (check_bind_gives hown ?_)
  refine (hevent (headers_written x.1.id)).bind fun _ => ?_
  refine (hevent (finished_written x.1.id)).bind fun _ => ?_
  exact gives_of_eq rfl

theorem collect_gives (hsound : Sound past) {l : List (Admission × Nat)}
    (hl : ∀ x ∈ l, x.1 ∈ admitted past ∧ query.matches principal.identity.subject x.1 = true)
    {faults : List Bool} :
    Gives (collect principal query (l.map .of)) .storage ⟨written past, faults⟩
      (.ok (l.map (recordOf past))) := by
  induction l generalizing faults with
  | nil => exact contact_gives.bind fun _ => gives_of_eq rfl
  | cons x rest ih =>
      rw [List.forall_mem_cons] at hl
      obtain ⟨⟨hmem, hmatch⟩, hrest⟩ := hl
      refine contact_gives.bind fun _ => ?_
      refine (record_gives hsound hmem hmatch).bind fun _ => ?_
      exact (ih hrest).bind fun _ => gives_of_eq rfl

/-- A page that is asked for with the right to see it. -/
theorem records_gives (hsound : Sound past) (hvalid : query.validate = .ok ())
    (hright : query.all = true → principal.permissions.readAllUsage = true) {faults : List Bool} :
    Gives (records principal query) .storage ⟨written past, faults⟩
      (.ok ((pageOf past query principal.identity.subject).map (recordOf past))) := by
  have hpermitted : rejectIf (query.all && !principal.permissions.readAllUsage)
      Error.forbidden = .ok () := by
    rw [rejectIf_ok]
    cases hall : query.all with
    | false => rfl
    | true =>
        rw [hright hall]
        rfl
  refine check_bind_gives hvalid (check_bind_gives hpermitted ?_)
  refine contact_gives.bind fun _ => ?_
  refine (select_gives _).bind fun _ => ?_
  rw [page_written]
  exact collect_gives hsound fun x hx => ⟨(mem_pageOf hx).1, (mem_pageOf hx).2.2⟩

/-- A page that was served. -/
theorem records_ok (hsound : Sound past) {faults : List Bool} {c : Connection Tables}
    {l : List Record} (h : records principal query ⟨written past, faults⟩ = (.ok l, c)) :
    query.validate = .ok () ∧ (query.all = true → principal.permissions.readAllUsage = true) ∧
      l = (pageOf past query principal.identity.subject).map (recordOf past) := by
  have hcall := h
  obtain ⟨_, hvalid, h⟩ := check_bind_accepts.1 h
  obtain ⟨_, hpermitted, -⟩ := check_bind_accepts.1 h
  rw [rejectIf_ok, Bool.and_eq_false_iff, Bool.not_eq_false'] at hpermitted
  have hright : query.all = true → principal.permissions.readAllUsage = true := by
    intro hall
    rw [hall] at hpermitted
    exact hpermitted.resolve_left (by decide)
  refine ⟨hvalid, hright, ?_⟩
  have hpage : Gives (records principal query) .storage ⟨written past, faults⟩ _ :=
    records_gives hsound hvalid hright
  rcases hpage with ⟨_, -, hgives⟩ | ⟨-, hfailed, -⟩
  · rw [hcall] at hgives
    cases hgives
    rfl
  · rw [hcall] at hfailed
    cases hfailed

end Pages

section Sessions

variable {past : List Served} {principal : Principal} {d : Draw}

/-- A session that is known is returned to calls with its route and origin only. -/
theorem sessionIntent_known (hsound : Sound past) {key : Id} {s : SessionIntent} {route : String}
    {origin : Digest} (hknown : intentAt past principal.identity.subject key = some s)
    (hpermitted : principal.permissions.permitsRoute route = true) {faults : List Bool} :
    Gives (sessionIntent d principal route origin key) .storage ⟨written past, faults⟩
      (if route = s.route ∧ origin = s.originSha256 then .ok (s, false) else .error .conflict) := by
  obtain ⟨hmem, hsubject, -⟩ := intentAt_some hknown
  have hallowed : rejectIf (!principal.permissions.permitsRoute route) Error.forbidden = .ok () := by
    rw [hpermitted]
    rfl
  refine check_bind_gives hallowed (Gives.transaction ?_)
  refine contact_gives.bind fun _ => (select_gives _).bind fun _ => ?_
  rw [intentAt_written, hknown]
  refine check_bind_gives (decode_intent (hsound.sessionRoutes s hmem)) ?_
  split
  · next hsame =>
      refine check_bind_gives (a := ()) ?_ (gives_of_eq rfl)
      rw [rejectIf_ok, hsubject, hsame.1, hsame.2]
      simp
  · next hdiffers =>
      refine check_bind_refuses ?_
      rw [rejectIf_error]
      rw [not_and_or] at hdiffers
      rcases hdiffers with hroute | horigin
      · simp [Ne.symm hroute]
      · simp [Ne.symm horigin]

/-- What a served call found: the stored session or none. -/
theorem sessionIntent_served (hsound : Sound past) {key : Id} {s : SessionIntent} {route : String}
    {origin : Digest} {created : Bool} {faults : List Bool} {c : Connection Tables}
    (h : sessionIntent d principal route origin key ⟨written past, faults⟩ =
      (.ok (s, created), c)) : s.subject = principal.identity.subject ∧
      ((intentAt past principal.identity.subject key = some s ∧ created = false) ∨
        (intentAt past principal.identity.subject key = none ∧ created = true ∧
          s.idempotencyKey = key)) := by
  rcases sessionIntent_ok h with ⟨text, htext, hdecode, hsubject, rfl, -⟩ |
      ⟨hnone, rfl, -, hsubject, hkey, -⟩
  · rw [intentAt_written] at htext
    obtain ⟨stored, hstored, rfl⟩ := Option.map_eq_some_iff.1 htext
    rw [decode_intent (hsound.sessionRoutes stored (intentAt_some hstored).1)] at hdecode
    cases hdecode
    exact ⟨hsubject, .inl ⟨hstored, rfl⟩⟩
  · rw [intentAt_written, Option.map_eq_none_iff] at hnone
    exact ⟨hsubject, .inr ⟨hnone, rfl, hkey⟩⟩

/-- A session is shown to its subject. -/
theorem session_ok (hsound : Sound past) {id : Id} {s : SessionIntent}
    {binding : Option SessionBinding} {faults : List Bool} {c : Connection Tables}
    (h : session principal id ⟨written past, faults⟩ = (.ok (s, binding), c)) :
    s ∈ opened past ∧ s.id = id ∧ s.subject = principal.identity.subject ∧
      ∀ b, binding = some b → b.session = id := by
  obtain ⟨_, c₁, hbegin, h⟩ := bind_accepts.1 h
  obtain ⟨text, c₂, htext, h⟩ := bind_accepts.1 h
  obtain ⟨htext, -⟩ := select_ok htext
  obtain ⟨text', hsome, h⟩ := check_bind_accepts.1 h
  obtain ⟨value, hdecode, h⟩ := check_bind_accepts.1 h
  obtain ⟨_, hown, h⟩ := check_bind_accepts.1 h
  obtain ⟨_, -, h⟩ := check_bind_accepts.1 h
  obtain ⟨_, c₃, -, h⟩ := bind_accepts.1 h
  obtain ⟨found, -, h⟩ := check_bind_accepts.1 h
  obtain ⟨_, hbound, h⟩ := check_bind_accepts.1 h
  obtain ⟨heq, -⟩ := pure_accepts.1 h
  cases heq
  rw [contact_ok hbegin, intentOf_written, okOr_ok.1 hsome] at htext
  obtain ⟨stored, hstored, rfl⟩ := Option.map_eq_some_iff.1 htext
  have hmem := List.mem_of_find?_eq_some hstored
  rw [decode_intent (hsound.sessionRoutes stored hmem)] at hdecode
  cases hdecode
  rw [rejectIf_ok, Bool.or_eq_false_iff, decide_eq_false_iff_not, decide_eq_false_iff_not,
    not_not, not_not] at hown
  refine ⟨hmem, hown.1, hown.2, ?_⟩
  rintro b rfl
  rw [rejectIf_ok, Option.any_some, Bool.or_eq_false_iff, decide_eq_false_iff_not, not_not] at hbound
  exact hbound.1

end Sessions

end ResponseGateway.Requests
