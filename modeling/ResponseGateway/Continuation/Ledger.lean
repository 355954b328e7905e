import ResponseGateway.Continuation.LinearHistory
import ResponseGateway.Continuation.Runtime

/-!
Runs in which records are written through the runtime. A `Ledger` keeps, beside the
clients and their store, every record that was ever sealed; a record may be sealed
and then not be finalized. In every such run a stored digest is that of a sealed
record which the log names, and the log of each epoch, past or current, is a chain.
-/

namespace ResponseGateway.Continuation
open Checked Method SqliteStore Chain World Continuation.Runtime

/-- The log entry of a record. -/
def ReplayRecord.entry (r : ReplayRecord) : LogEntry :=
  { attempt := r.fields.response, session := r.fields.session, epoch := r.fields.epoch
    parent := r.fields.parent }

/-- The record a managed client writes for its ticket. -/
structure Ticket.Writes (t : Ticket) (r : ReplayRecord) : Prop where
  session : r.fields.session = t.snapshot.id
  epoch : r.fields.epoch = t.snapshot.epoch
  origin : r.fields.origin = t.snapshot.origin
  response : r.fields.response = t.attempt
  parent : r.fields.parent = t.snapshot.head

theorem Ticket.Writes.entry_eq {t : Ticket} {r : ReplayRecord} (h : t.Writes r) :
    r.entry = t.entry := by
  rw [ReplayRecord.entry, Ticket.entry, h.session, h.epoch, h.response, h.parent]

structure Ledger where
  world : World
  sealedRecords : List ReplayRecord

namespace Runtime

variable {rt : Runtime} {db db' : SqliteStore}

theorem keeps_session (id : String) : Keeps (SqliteStore.session id) :=
  (keeps_check _).keeps_bind fun _ => keeps_read.keeps_bind fun _ => keeps_check _

theorem keeps_record (id : String) : Keeps (record id) :=
  keeps_read.keeps_bind fun _ => (keeps_check _).keeps_bind fun _ => (keeps_check _).keeps_bind fun _ =>
    (keeps_check _).keeps_bind fun _ => keeps_pure _

theorem keeps_checkParent (s : Session) (provider : ReplayV3) (parent : String) :
    Keeps (rt.checkParent s provider parent) := by
  refine (keeps_record parent).keeps_bind fun _ => (keeps_check _).keeps_bind fun _ =>
    (keeps_check _).keeps_bind fun _ => (keeps_check _).keeps_bind fun previous =>
    (keeps_check _).keeps_bind fun _ => ?_
  cases previous <;> exact keeps_check _

variable (rt) in
/-- The checks before a record is sealed only read. -/
theorem keeps_checkRecord (r : ReplayRecord) : Keeps (rt.checkRecord r) := by
  cases r with
  | v1 | v2 => exact keeps_pure _
  | v3 provider =>
      refine (keeps_check _).keeps_bind fun _ => (keeps_session _).keeps_bind fun s =>
        (keeps_check _).keeps_bind fun _ => ?_
      cases provider.parent with
      | some parent => exact keeps_checkParent s provider parent
      | none => exact keeps_pure _

theorem checkRecord_keeps {r : ReplayRecord} {u : Unit}
    (h : rt.checkRecord r db = (.ok u, db')) : db' = db := by
  have hkeeps := keeps_checkRecord rt r db
  rw [h] at hkeeps
  exact hkeeps

theorem atomic_finalizeChecked (nonce : ByteArray) (r : ReplayRecord)
    (fits : String → Except Error Unit) : Atomic (rt.finalizeChecked nonce r fits) :=
  (keeps_checkRecord _ r).atomic_bind fun _ => (keeps_check _).atomic_bind fun _ =>
    (keeps_check _).atomic_bind fun _ => (atomic_transaction _).bind_succeeds fun _ =>
      succeeds_pure _

/-- A finalized record was sealed and is stored with its digest and envelope. -/
theorem finalizeChecked_accepts {nonce : ByteArray} {r : ReplayRecord}
    {fits : String → Except Error Unit} {token : String}
    (h : rt.finalizeChecked nonce r fits db = (.ok token, db')) :
    rt.protector.sealRecord nonce r = .ok token ∧ fits token = .ok () ∧
      finalize r.fields.session r.fields.response (rt.recordDigest r) token
        (r.outcome = .awaitingTools) db = (.ok (), db') := by
  obtain ⟨_, _, hrecord, hchecked⟩ := bind_accepts.1 h
  rw [checkRecord_keeps hrecord] at hchecked
  obtain ⟨envelope, hseal, hsealed⟩ := check_bind_accepts.1 hchecked
  obtain ⟨_, hfits, hrest⟩ := check_bind_accepts.1 hsealed
  obtain ⟨_, _, hfinalize, hend⟩ := bind_accepts.1 hrest
  obtain ⟨rfl, rfl⟩ := pure_accepts.1 hend
  exact ⟨hseal, hfits, hfinalize⟩

end Runtime

namespace Ledger

def init (limit : Nat) : Ledger := { world := World.init limit, sealedRecords := [] }

variable (rt : Runtime)

/-- A step that writes no record is any step of the clients, the host or a crash. -/
inductive Step (l : Ledger) : Ledger → Prop where
  | other {w : World} (step : World.Step l.world w) (same : w.log = l.world.log) :
      Step l { l with world := w }
  | sealOnly (r : ReplayRecord) : Step l { l with sealedRecords := r :: l.sealedRecords }
  | finalize {t : Ticket} {nonce : ByteArray} {r : ReplayRecord}
      {fits : String → Except Error Unit} {token : String} {db : SqliteStore}
      (held : t ∈ l.world.tickets) (own : t.Writes r)
      (call : rt.finalizeChecked nonce r fits l.world.db = (.ok token, db)) :
      Step l { world := { l.world with db, log := l.world.log ++ [t.entry] }
               sealedRecords := r :: l.sealedRecords }

abbrev Runs := Relation.ReflTransGen (Step rt)

structure Sound (l : Ledger) : Prop where
  linear : l.world.Linear
  complete : Complete l.world.db
  recorded : ∀ a stored, l.world.db.records.get a = some stored → ∃ r ∈ l.sealedRecords,
    stored.digest = rt.recordDigest r ∧ r.fields.response = a ∧ r.entry ∈ l.world.log
  chains : ∀ id epoch, ∃ tip,
    Chained LogEntry.attempt LogEntry.parent none (l.world.recordsOf id epoch) tip

variable {rt}

theorem sound_init (limit : Nat) : (init limit).Sound rt where
  linear := linear_init limit
  complete := by simp [init, World.init, empty, Complete]
  recorded := by simp [init, World.init, empty]
  chains := fun _ _ => ⟨none, rfl⟩

section Preservation

variable {l : Ledger}

/-- A step without a new log entry finalizes nothing. -/
theorem quiet_step {w w' : World} (hw : w.Linear) (h : World.Step w w')
    (hlog : w'.log = w.log) :
    w'.db = w.db ∨ ∃ call, isFinalize call = false ∧ Commits w.db call w'.db := by
  cases h with
  | observe call => exact .inl (session_accepts.1 call).2.2.symm
  | begin held call => exact .inr ⟨_, rfl, (begin_accepts hw.store.keyed call).2⟩
  | finalize => simp at hlog
  | uncertain held call => exact .inr ⟨_, rfl, uncertain_accepts hw.store.keyed call⟩
  | @host c db own call =>
      refine .inr ⟨c, ?_, execute_accepts hw.store.keyed call⟩
      cases c <;> first | rfl | cases own
  | failed call => exact .inl (atomic_execute _ _ _ _ call)

/-- Outside finalization the digests of the records stay as they are. -/
theorem commits_digest {db db' : SqliteStore} {call : StoreCall} (h : Commits db call db')
    (hcall : isFinalize call = false) {a : String} {stored : RecordRow}
    (ha : db'.records.get a = some stored) :
    ∃ old, db.records.get a = some old ∧ old.digest = stored.digest := by
  cases h with
  | create | begin | uncertain | uncertainLate | transition | reopen => exact ⟨stored, ha, rfl⟩
  | finalize => cases hcall
  | repair found sameDigest =>
      rw [OrderedMap.get_insert] at ha
      split at ha
      · next heq =>
          cases ha
          exact ⟨_, heq ▸ found, sameDigest⟩
      · exact ⟨stored, ha, rfl⟩

theorem Sound.other (hl : l.Sound rt) {w : World} (h : World.Step l.world w)
    (hlog : w.log = l.world.log) : ({ l with world := w } : Ledger).Sound rt := by
  have hrecords : ∀ id epoch, w.recordsOf id epoch = l.world.recordsOf id epoch := by
    intro id epoch
    rw [recordsOf, recordsOf, hlog]
  refine { linear := hl.linear.step h, complete := ?_, recorded := ?_, chains := ?_ }
  · rcases quiet_step hl.linear h hlog with heq | ⟨call, -, hcommits⟩
    · change Complete w.db
      rw [heq]
      exact hl.complete
    · exact hl.complete.commits hcommits
  · intro a stored ha
    change ∃ r ∈ l.sealedRecords, _ ∧ _ ∧ r.entry ∈ w.log
    rw [hlog]
    rcases quiet_step hl.linear h hlog with heq | ⟨call, hcall, hcommits⟩
    · exact hl.recorded a stored (heq ▸ ha)
    · obtain ⟨old, hold, hdigest⟩ := commits_digest hcommits hcall ha
      rw [← hdigest]
      exact hl.recorded a old hold
  · intro id epoch
    obtain ⟨tip, htip⟩ := hl.chains id epoch
    exact ⟨tip, (hrecords id epoch).symm ▸ htip⟩

theorem Sound.sealOnly (hl : l.Sound rt) (r : ReplayRecord) :
    ({ l with sealedRecords := r :: l.sealedRecords } : Ledger).Sound rt where
  linear := hl.linear
  complete := hl.complete
  recorded := fun a stored ha => by
    obtain ⟨r', hr', hrest⟩ := hl.recorded a stored ha
    exact ⟨r', List.mem_cons_of_mem r hr', hrest⟩
  chains := hl.chains

theorem Sound.finalize (hl : l.Sound rt) {t : Ticket} {nonce : ByteArray} {r : ReplayRecord}
    {fits : String → Except Error Unit} {token : String} {db : SqliteStore}
    (held : t ∈ l.world.tickets) (own : t.Writes r)
    (call : rt.finalizeChecked nonce r fits l.world.db = (.ok token, db)) :
    ({ world := { l.world with db, log := l.world.log ++ [t.entry] }
       sealedRecords := r :: l.sealedRecords } : Ledger).Sound rt := by
  obtain ⟨-, -, hfinalize⟩ := finalizeChecked_accepts call
  rw [own.session, own.response] at hfinalize
  have hlinear := hl.linear.step (.finalize held hfinalize)
  have hcommits := finalize_accepts hl.linear.store.keyed hfinalize
  refine { linear := hlinear, complete := hl.complete.commits hcommits, recorded := ?_,
           chains := ?_ }
  · intro a stored ha
    cases hcommits with
    | finalize =>
        change (OrderedMap.insert _ _ _).get a = _ at ha
        rw [OrderedMap.get_insert] at ha
        split at ha
        · next heq =>
            cases ha
            exact ⟨r, by simp, rfl, own.response.trans heq, by simp [own.entry_eq]⟩
        · obtain ⟨r', hr', hdigest, hresponse, hentry⟩ := hl.recorded a stored ha
          exact ⟨r', List.mem_cons_of_mem r hr', hdigest, hresponse,
            List.mem_append_left _ hentry⟩
  · intro id epoch
    by_cases hown : t.snapshot.id = id ∧ t.snapshot.epoch = epoch
    -- the epoch of the new record is the current one, whose chain the clients keep
    · obtain ⟨rfl, rfl⟩ := hown
      obtain ⟨row, -, hrow, -, hepoch, -⟩ := hl.linear.ticket t held
      cases hcommits with
      | finalize found foundAttempt _ sameEpoch =>
          rw [hrow] at foundAttempt
          cases foundAttempt
          have hchain := hlinear.chained t.snapshot.id _ (OrderedMap.get_insert_self _ _ _)
          rw [← hepoch, sameEpoch]
          exact ⟨_, hchain⟩
    · obtain ⟨tip, htip⟩ := hl.chains id epoch
      refine ⟨tip, ?_⟩
      have hsame : World.recordsOf { l.world with db, log := l.world.log ++ [t.entry] } id epoch =
          l.world.recordsOf id epoch := by
        simp only [recordsOf, List.filter_append, Ticket.entry]
        rw [List.filter_cons_of_neg (by simpa using hown), List.filter_nil, List.append_nil]
      exact hsame ▸ htip

theorem Sound.step (hl : l.Sound rt) {l' : Ledger} (h : Step rt l l') : l'.Sound rt := by
  cases h with
  | other step same => exact hl.other step same
  | sealOnly r => exact hl.sealOnly r
  | finalize held own call => exact hl.finalize held own call

theorem sound_runs {limit : Nat} (h : Runs rt (init limit) l) : l.Sound rt := by
  induction h with
  | refl => exact sound_init limit
  | tail _ hstep ih => exact ih.step hstep

theorem Sound.keys_nodup (hl : l.Sound rt) (id : String) (epoch : Int) :
    ((l.world.recordsOf id epoch).map LogEntry.attempt).Nodup :=
  hl.linear.log_distinct.sublist (List.filter_sublist.map _)

end Preservation

end Ledger
end ResponseGateway.Continuation
