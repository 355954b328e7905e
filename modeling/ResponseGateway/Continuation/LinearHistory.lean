import ResponseGateway.Continuation.Clients

/-!
Every interleaving of clients keeps histories linear: an input is dispatched at
most once, an attempt ends once, and the finalized records of an epoch form one
chain that ends at the head.
-/

namespace ResponseGateway.Continuation.World
open Checked Method SqliteStore Chain

section Preservation

variable {w : World} {db' : SqliteStore} {call : StoreCall}

theorem Linear.snapshot_step (hw : w.Linear) (h : Commits w.db call db') :
    ∀ s ∈ w.snapshots, ∃ now, db'.sessions.get s.id = some now ∧
      s.revision ≤ now.revision ∧ (s.revision = now.revision → s = now) := by
  intro s hs
  obtain ⟨now, hnow, hle, heq⟩ := hw.snapshot s hs
  obtain ⟨next, hnext, hraised, hkept⟩ := advances_step h hnow
  refine ⟨next, hnext, ?_⟩
  by_cases hr : w.db.raises s.id call
  · obtain ⟨hrevision, -⟩ := hraised hr
    exact ⟨by omega, fun h => by omega⟩
  · rw [hkept hr]
    exact ⟨hle, heq⟩

theorem Linear.ticket_step (hw : w.Linear) (h : Commits w.db call db') :
    ∀ t ∈ w.tickets, ∃ row now, db'.attempts.get t.attempt = some row ∧
      row.session = t.snapshot.id ∧ row.epoch = t.snapshot.epoch ∧
      db'.sessions.get t.snapshot.id = some now ∧ t.snapshot.revision < now.revision ∧
      (row.status = .pending → now.head = t.snapshot.head) := by
  intro t ht
  obtain ⟨row, now, hrow, hsession, hepoch, hnow, hlt, hhead⟩ := hw.ticket t ht
  obtain ⟨row', hrow', hsession', hepoch', hended⟩ := commits_attempt h hrow
  obtain ⟨next, hnext, hraised, hkept⟩ := advances_step h hnow
  refine ⟨row', next, hrow', hsession'.trans hsession, hepoch'.trans hepoch, hnext, ?_, ?_⟩
  · by_cases hr : w.db.raises t.snapshot.id call
    · have hrevision := (hraised hr).1
      omega
    · rwa [hkept hr]
  · intro hpending'
    have hpending : row.status = .pending := by
      by_contra hne
      rw [hended hne] at hpending'
      exact hne hpending'
    have hquiet := commits_quiet hw.store h hrow hpending hrow' hpending' (hsession ▸ hnow)
    rw [hsession, hnext] at hquiet
    cases hquiet
    exact hhead hpending

theorem Linear.logged_step (hw : w.Linear) (h : Commits w.db call db') :
    ∀ entry ∈ w.log, ∃ row, db'.attempts.get entry.attempt = some row ∧
      row.session = entry.session ∧ row.epoch = entry.epoch ∧ row.status = .finalized := by
  intro entry hentry
  obtain ⟨row, hrow, hsession, hepoch, hfin⟩ := hw.logged entry hentry
  obtain ⟨row', hrow', -, -, hended⟩ := commits_attempt h hrow
  have hsame : row' = row := hended (by rw [hfin]; simp)
  rw [hsame] at hrow'
  exact ⟨row, hrow', hsession, hepoch, hfin⟩

theorem Linear.recordsOf_eq_nil (hw : w.Linear) {id : String} {epoch : Int}
    (h : ∀ a row, w.db.attempts.get a = some row → row.session = id → row.epoch < epoch) :
    w.recordsOf id epoch = [] := by
  simp only [recordsOf, List.filter_eq_nil_iff, Bool.and_eq_true, decide_eq_true_eq, not_and]
  intro entry hentry hid hepoch
  obtain ⟨row, hrow, hsession, hrowEpoch, -⟩ := hw.logged entry hentry
  have hlt := h entry.attempt row hrow (hsession.trans hid)
  omega

/-- A call that finalizes nothing keeps the log linear. -/
theorem Linear.keep (hw : w.Linear) (h : Commits w.db call db')
    (hcall : isFinalize call = false) : ({ w with db := db' } : World).Linear where
  store := hw.store.step h
  snapshot := hw.snapshot_step h
  ticket := hw.ticket_step h
  tickets_distinct := hw.tickets_distinct
  logged := hw.logged_step h
  log_complete := fun a row ha hfin =>
    hw.log_complete a row (commits_finalized h hcall ha hfin) hfin
  log_distinct := hw.log_distinct
  chained := by
    intro id t ht
    rcases commits_head hw.store h hcall ht with ⟨s, hs, hepoch, hhead⟩ | ⟨hnone, hlt⟩
    · rw [hepoch, hhead]
      exact hw.chained id s hs
    · change Chained _ _ none (w.recordsOf id t.epoch) t.head
      rw [hw.recordsOf_eq_nil hlt, hnone]
      rfl

theorem recordsOf_snoc (w : World) (db : SqliteStore) (entry : LogEntry) (id : String)
    (epoch : Int) : ({ w with db, log := w.log ++ [entry] } : World).recordsOf id epoch =
      w.recordsOf id epoch ++ if entry.session = id ∧ entry.epoch = epoch then [entry] else [] := by
  rw [recordsOf, List.filter_append, List.filter_singleton, cond_eq_ite]
  simp only [recordsOf, Bool.and_eq_true, decide_eq_true_eq]

theorem Linear.finalize (hw : w.Linear) {t : Ticket} {digest envelope : String}
    {pendingTools : Bool} (held : t ∈ w.tickets)
    (h : Commits w.db (.finalize t.snapshot.id t.attempt digest envelope pendingTools) db') :
    ({ w with db := db', log := w.log ++ [t.entry] } : World).Linear := by
  obtain ⟨row, now, hrow, hsession, hepoch, hnow, hlt, hhead⟩ := hw.ticket t held
  have hframe := hw.logged_step h
  have hsnapshot := hw.snapshot_step h
  have hticket := hw.ticket_step h
  have hstore := hw.store.step h
  cases h with
  | @finalize _ _ _ _ _ s old found foundAttempt own sameEpoch waiting =>
      rw [hnow] at found
      cases found
      rw [hrow] at foundAttempt
      cases foundAttempt
      have hnotLogged : t.attempt ∉ w.log.map (·.attempt) := by
        intro hmem
        obtain ⟨entry, hentry, heq⟩ := List.mem_map.1 hmem
        obtain ⟨row', hrow', -, -, hfin⟩ := hw.logged entry hentry
        rw [heq, hrow] at hrow'
        cases hrow'
        rw [waiting] at hfin
        cases hfin
      refine { store := hstore, snapshot := hsnapshot, ticket := hticket,
               tickets_distinct := hw.tickets_distinct, logged := ?_, log_complete := ?_,
               log_distinct := ?_, chained := ?_ }
      · intro entry hentry
        rcases List.mem_append.1 hentry with hentry | hentry
        · exact hframe entry hentry
        · cases List.mem_singleton.1 hentry
          exact ⟨_, OrderedMap.get_insert_self _ _ _, hsession, hepoch, rfl⟩
      · intro a row' ha hfin
        by_cases heq : t.attempt = a
        · exact ⟨t.entry, by simp, heq⟩
        · rw [OrderedMap.get_insert_of_ne _ _ heq] at ha
          obtain ⟨entry, hentry, hattempt⟩ := hw.log_complete a row' ha hfin
          exact ⟨entry, List.mem_append_left _ hentry, hattempt⟩
      · rw [List.map_append]
        exact List.nodup_append'.2 ⟨hw.log_distinct, List.nodup_singleton _, by
          simpa [Ticket.entry] using hnotLogged⟩
      · intro id u hu
        rw [recordsOf_snoc]
        rw [OrderedMap.get_insert] at hu
        split at hu
        · next heq =>
            subst heq
            cases hu
            rw [if_pos ⟨rfl, hepoch.symm.trans sameEpoch⟩]
            exact chained_snoc (hw.chained _ now hnow) (hhead waiting).symm
        · next hne =>
            rw [if_neg fun hboth => hne hboth.1, List.append_nil]
            exact hw.chained id u hu

theorem Linear.begin (hw : w.Linear) {uuid inputDigest attempt : String} {reserve : Nat}
    {s : Session} (held : s ∈ w.snapshots)
    (call : begin uuid s.id s.revision s.head inputDigest reserve w.db = (.ok attempt, db')) :
    ({ w with db := db', tickets := ⟨attempt, s⟩ :: w.tickets } : World).Linear := by
  obtain ⟨rfl, h⟩ := begin_accepts hw.store.keyed call
  have hkeep := hw.keep h rfl
  obtain ⟨now, hnow, -, hsame⟩ := hw.snapshot s held
  cases h with
  | @begin _ _ _ _ _ _ s' found current idle tip fresh newInput =>
      rw [hnow] at found
      cases found
      cases hsame current.symm
      refine { hkeep with ticket := ?_, tickets_distinct := ?_ }
      · intro t ht
        rcases List.mem_cons.1 ht with rfl | ht
        · exact ⟨_, _, OrderedMap.get_insert_self _ _ _, rfl, rfl,
            OrderedMap.get_insert_self _ _ _, by simp, fun _ => rfl⟩
        · exact hkeep.ticket t ht
      · refine List.pairwise_cons.2 ⟨fun t ht => ?_, hw.tickets_distinct⟩
        obtain ⟨row, cur, hrow, -, -, hcur, hlt, -⟩ := hw.ticket t ht
        refine ⟨?_, fun hid hrevision => ?_⟩
        · intro heq
          rw [← heq, fresh] at hrow
          cases hrow
        · rw [← hid, hnow] at hcur
          cases hcur
          exact hlt.ne hrevision.symm

theorem Linear.step (hw : w.Linear) {w' : World} (h : Step w w') : w'.Linear := by
  cases h with
  | @observe id s db call =>
      obtain ⟨_, -, call⟩ := check_bind_accepts.1 call
      obtain ⟨hfound, rfl⟩ := load_accepts.1 call
      refine { hw with snapshot := fun t ht => ?_ }
      rcases List.mem_cons.1 ht with rfl | ht
      · exact ⟨t, by rw [hw.store.keyed id t hfound, hfound], le_rfl, fun _ => rfl⟩
      · exact hw.snapshot t ht
  | begin held call => exact hw.begin held call
  | finalize held call => exact hw.finalize held (finalize_accepts hw.store.keyed call)
  | uncertain held call => exact hw.keep (uncertain_accepts hw.store.keyed call) rfl
  | @host c db own call =>
      refine hw.keep (execute_accepts hw.store.keyed call) ?_
      cases c <;> first | rfl | cases own
  | failed call =>
      rw [atomic_execute _ _ _ _ call]
      exact hw

theorem linear_runs {limit : Nat} (h : Runs (init limit) w) : w.Linear := by
  induction h with
  | refl => exact linear_init limit
  | tail _ hstep ih => exact ih.step hstep

end Preservation

section Endings

variable {w w' : World}

theorem commits_of_step (hw : w.Linear) (h : Step w w') :
    w'.db = w.db ∨ ∃ call, Commits w.db call w'.db := by
  cases h with
  | observe call =>
      obtain ⟨_, -, call⟩ := check_bind_accepts.1 call
      exact .inl (load_accepts.1 call).2.symm
  | begin held call => exact .inr ⟨_, (begin_accepts hw.store.keyed call).2⟩
  | finalize held call => exact .inr ⟨_, finalize_accepts hw.store.keyed call⟩
  | uncertain held call => exact .inr ⟨_, uncertain_accepts hw.store.keyed call⟩
  | host own call => exact .inr ⟨_, execute_accepts hw.store.keyed call⟩
  | failed call => exact .inl (atomic_execute _ _ _ _ call)

/-- An attempt that has ended keeps its row for ever. -/
theorem ended_kept (hw : w.Linear) (h : Runs w w') {a : String} {row : AttemptRow}
    (ha : w.db.attempts.get a = some row) (hended : row.status ≠ .pending) :
    w'.db.attempts.get a = some row ∧ w'.Linear := by
  induction h with
  | refl => exact ⟨ha, hw⟩
  | tail _ hstep ih =>
      obtain ⟨hrow, hlinear⟩ := ih
      refine ⟨?_, hlinear.step hstep⟩
      rcases commits_of_step hlinear hstep with heq | ⟨call, hcommits⟩
      · rw [heq, hrow]
      · obtain ⟨row', hrow', -, -, hsame⟩ := commits_attempt hcommits hrow
        rw [hrow', hsame hended]

theorem finalize_rejects (hw : w.Linear) {a : String} {row : AttemptRow}
    (ha : w.db.attempts.get a = some row) (hended : row.status ≠ .pending)
    (id digest envelope : String) (pendingTools : Bool) :
    ∃ e, finalize id a digest envelope pendingTools w.db = (.error e, w.db) := by
  rcases hcall : finalize id a digest envelope pendingTools w.db with ⟨result | result, db'⟩
  · exact ⟨result, by rw [atomic_transaction _ _ _ _ hcall]⟩
  · cases finalize_accepts hw.store.keyed hcall with
    | finalize found foundAttempt own sameEpoch waiting =>
        rw [ha] at foundAttempt
        cases foundAttempt
        exact absurd waiting hended

/-- A snapshot that has obtained an attempt obtains no other. -/
theorem begin_rejects (hw : w.Linear) {t : Ticket} (held : t ∈ w.tickets)
    (uuid inputDigest : String) (reserve : Nat) :
    ∃ e, begin uuid t.snapshot.id t.snapshot.revision t.snapshot.head inputDigest reserve w.db =
      (.error e, w.db) := by
  rcases hcall : begin uuid t.snapshot.id t.snapshot.revision t.snapshot.head inputDigest reserve
    w.db with ⟨result | result, db'⟩
  · exact ⟨result, by rw [atomic_transaction _ _ _ _ hcall]⟩
  · obtain ⟨row, now, -, -, -, hnow, hlt, -⟩ := hw.ticket t held
    cases (begin_accepts hw.store.keyed hcall).2 with
    | begin found current =>
        rw [hnow] at found
        cases found
        exact absurd current.symm hlt.ne

theorem Linear.snapshots_differ (hw : w.Linear) {t t' : Ticket} (ht : t ∈ w.tickets)
    (ht' : t' ∈ w.tickets) (hne : t ≠ t') (hid : t.snapshot.id = t'.snapshot.id) :
    t.snapshot.revision ≠ t'.snapshot.revision := by
  have hsymm : Std.Symm fun t t' : Ticket =>
      t.snapshot.id = t'.snapshot.id → t.snapshot.revision ≠ t'.snapshot.revision :=
    ⟨fun _ _ h hid => (h hid.symm).symm⟩
  exact (hw.tickets_distinct.imp And.right).forall ht ht' hne hid

theorem mem_recordsOf (hw : w.Linear) {id : String} {epoch : Int} {a : String} :
    a ∈ (w.recordsOf id epoch).map (·.attempt) ↔ ∃ row, w.db.attempts.get a = some row ∧
      row.session = id ∧ row.epoch = epoch ∧ row.status = .finalized := by
  simp only [recordsOf, List.mem_map, List.mem_filter, Bool.and_eq_true, decide_eq_true_eq]
  constructor
  · rintro ⟨entry, ⟨hentry, hid, hepoch⟩, rfl⟩
    obtain ⟨row, hrow, hsession, hrowEpoch, hfin⟩ := hw.logged entry hentry
    exact ⟨row, hrow, hsession.trans hid, hrowEpoch.trans hepoch, hfin⟩
  · rintro ⟨row, hrow, hsession, hepoch, hfin⟩
    obtain ⟨entry, hentry, rfl⟩ := hw.log_complete a row hrow hfin
    obtain ⟨row', hrow', hsession', hepoch', -⟩ := hw.logged entry hentry
    rw [hrow] at hrow'
    cases hrow'
    exact ⟨entry, ⟨hentry, hsession'.symm.trans hsession, hepoch'.symm.trans hepoch⟩, rfl⟩

end Endings

/-- Every interleaving of managed clients, host transitions and crashes: an input
is dispatched at most once and a snapshot yields at most one attempt; an attempt
ends once; the finalized records of the current epoch are one chain to the head. -/
theorem linear_history (limit : Nat) (w : World) (hw : Runs (init limit) w) :
    (∀ a b row other, w.db.attempts.get a = some row → w.db.attempts.get b = some other →
      row.session = other.session → row.epoch = other.epoch →
      row.inputDigest = other.inputDigest → a = b) ∧
    (∀ t ∈ w.tickets, ∀ uuid inputDigest reserve, ∃ e,
      begin uuid t.snapshot.id t.snapshot.revision t.snapshot.head inputDigest reserve w.db =
        (.error e, w.db)) ∧
    (∀ t ∈ w.tickets, ∀ t' ∈ w.tickets, t.snapshot.id = t'.snapshot.id →
      t.snapshot.revision = t'.snapshot.revision → t = t') ∧
    (w.log.map (·.attempt)).Nodup ∧
    (∀ a row, w.db.attempts.get a = some row → row.status ≠ .pending →
      (∀ id digest envelope pendingTools, ∃ e,
        finalize id a digest envelope pendingTools w.db = (.error e, w.db)) ∧
      ∀ w', Runs w w' → w'.db.attempts.get a = some row ∧
        (row.status = .unknown → ∀ id s, w'.db.sessions.get id = some s → s.head ≠ some a)) ∧
    (∀ id s, w.db.sessions.get id = some s →
      (∀ i, ∀ hi : i < (w.recordsOf id s.epoch).length, ((w.recordsOf id s.epoch)[i]).parent =
        if i = 0 then none else ((w.recordsOf id s.epoch)[i - 1]?).map (·.attempt)) ∧
      s.head = (w.recordsOf id s.epoch).getLast?.map (·.attempt) ∧
      ∀ a, a ∈ (w.recordsOf id s.epoch).map (·.attempt) ↔ ∃ row,
        w.db.attempts.get a = some row ∧ row.session = id ∧ row.epoch = s.epoch ∧
        row.status = .finalized) := by
  have hlinear := linear_runs hw
  refine ⟨?_, fun t ht uuid inputDigest reserve => begin_rejects hlinear ht uuid inputDigest reserve,
    ?_, hlinear.log_distinct, ?_, ?_⟩
  · intro a b row other ha hb hsession hepoch hdigest
    exact hlinear.store.unique_input a b row other ha hb
      (by simp [AttemptRow.sameInput, hsession, hepoch, hdigest])
  · intro t ht t' ht' hid hrevision
    by_contra hne
    exact hlinear.snapshots_differ ht ht' hne hid hrevision
  · intro a row ha hended
    refine ⟨finalize_rejects hlinear ha hended, fun w' hruns => ?_⟩
    obtain ⟨hrow, hlinear'⟩ := ended_kept hlinear hruns ha hended
    refine ⟨hrow, fun hunknown id s hs hhead => ?_⟩
    obtain ⟨row', hrow', -, -, hfin⟩ := hlinear'.store.head_finalized id s a hs hhead
    rw [hrow] at hrow'
    cases hrow'
    rw [hunknown] at hfin
    cases hfin
  · intro id s hs
    have hchain := hlinear.chained id s hs
    exact ⟨fun i hi => hchain.parent_eq i hi, by simpa using hchain.tip_eq,
      fun a => mem_recordsOf hlinear⟩

/-- One finalized turn is reachable. -/
theorem linear_history_first_turn :
    ∃ w, Runs (init 1048576) w ∧ w.log.map (·.attempt) = ["resp_a"] ∧
      (w.log.map (·.attempt)).Nodup := by
  have created := Relation.ReflTransGen.single (@Step.host (init 1048576)
    (.create "s" ⟨.object [], "realm", "generation"⟩) _ rfl rfl)
  have observed := created.tail (@Step.observe _ "s" _ _ rfl)
  have begun := observed.tail
    (@Step.begin _ "a" "digest" _ 16 _ _ (List.mem_singleton_self _) rfl)
  have finalized := begun.tail
    (@Step.finalize _ _ "digest" "envelope" false _ (List.mem_singleton_self _) rfl)
  exact ⟨_, finalized, rfl, (linear_history 1048576 _ finalized).2.2.2.1⟩

end ResponseGateway.Continuation.World
