import ResponseGateway.Continuation.Runtime
import ResponseGateway.Continuation.StoreInvariant

/-!
Capacity of the store. `begin` reserves room for an attempt out of one sum over the
attempts of every session, and nothing gives a reservation back; `finalize` compares
the envelope in bytes with what was reserved. `repair` compares characters, which
would not be enough, but it only replaces a missing envelope, and no operation of
the store leaves one missing.
-/

namespace ResponseGateway.Continuation.SqliteStore
open Checked Method Continuation.Runtime

/-- The bytes of an envelope fit into the reservation of its attempt. -/
def Reserved (db : SqliteStore) : Prop :=
  ∀ a stored envelope, db.records.get a = some stored → stored.envelope = some envelope →
    ∃ row, db.attempts.get a = some row ∧ envelope.utf8ByteSize ≤ row.reserve

structure Accounted (limit : Nat) (db : SqliteStore) : Prop where
  store : db.Invariant
  complete : Complete db
  limit_eq : db.limit = limit
  bound : db.attempts.total (·.reserve) ≤ limit
  positive : ∀ a row, db.attempts.get a = some row → 0 < row.reserve
  reserved : Reserved db

section Preservation

variable {limit : Nat} {db db' : SqliteStore}

theorem givenUp_reserve (row : AttemptRow) : row.givenUp.reserve = row.reserve := by
  unfold AttemptRow.givenUp
  split <;> rfl

/-- The end of an attempt keeps what it reserved. -/
theorem Accounted.settled_total (hdb : db.Accounted limit) {attempt : String} {row : AttemptRow}
    {status : AttemptStatus} (found : db.attempts.get attempt = some row) :
    (db.attempts.insert attempt { row with status }).total (·.reserve) ≤ limit := by
  have htotal := OrderedMap.total_insert_old (·.reserve) { row with status } found
  have hbound := hdb.bound
  simp only at htotal
  omega

theorem Accounted.settled_positive (hdb : db.Accounted limit) {attempt : String} {row : AttemptRow}
    {status : AttemptStatus} (found : db.attempts.get attempt = some row) {a : String}
    {other : AttemptRow}
    (ha : (db.attempts.insert attempt { row with status }).get a = some other) :
    0 < other.reserve := by
  rw [OrderedMap.get_insert] at ha
  split at ha
  · cases ha
    exact hdb.positive attempt row found
  · exact hdb.positive a other ha

/-- Records stay within their reservations while no record is written. -/
theorem Reserved.attempts (h : Reserved db) {attempts : OrderedMap String AttemptRow}
    (hkept : ∀ a row, db.attempts.get a = some row →
      ∃ row', attempts.get a = some row' ∧ row'.reserve = row.reserve)
    (hrecords : db'.records = db.records) (hattempts : db'.attempts = attempts) :
    Reserved db' := by
  intro a stored envelope ha henvelope
  rw [hrecords] at ha
  obtain ⟨row, hrow, hle⟩ := h a stored envelope ha henvelope
  obtain ⟨row', hrow', hreserve⟩ := hkept a row hrow
  exact ⟨row', by rw [hattempts, hrow'], hreserve ▸ hle⟩

theorem kept_settled {attempts : OrderedMap String AttemptRow} {attempt : String}
    {row : AttemptRow} {status : AttemptStatus} (found : attempts.get attempt = some row)
    (a : String) (other : AttemptRow) (ha : attempts.get a = some other) :
    ∃ row', (attempts.insert attempt { row with status }).get a = some row' ∧
      row'.reserve = other.reserve := by
  by_cases heq : attempt = a
  · subst heq
    rw [found] at ha
    cases ha
    exact ⟨_, OrderedMap.get_insert_self _ _ _, rfl⟩
  · exact ⟨other, by rw [OrderedMap.get_insert_of_ne _ _ heq, ha], rfl⟩

theorem Accounted.step (hdb : db.Accounted limit) {call : StoreCall}
    (hsame : ∀ l, call = .reopen l → l = limit) (h : Commits db call db') :
    db'.Accounted limit := by
  have hstore := hdb.store.step h
  have hcomplete := hdb.complete.commits h
  cases h with
  | create => exact ⟨hstore, hcomplete, hdb.limit_eq, hdb.bound, hdb.positive, hdb.reserved⟩
  | begin _ _ _ _ fresh _ positive room =>
      refine ⟨hstore, hcomplete, hdb.limit_eq, ?_, ?_, ?_⟩
      · rw [OrderedMap.total_insert_new _ _ fresh]
        exact hdb.limit_eq ▸ room
      · intro a row ha
        rw [OrderedMap.get_insert] at ha
        split at ha
        · cases ha
          exact positive
        · exact hdb.positive a row ha
      · exact hdb.reserved.attempts
          (fun a row ha => ⟨row, OrderedMap.get_insert_of_some fresh ha, rfl⟩) rfl rfl
  | @finalize id attempt digest envelope _ s row found foundAttempt _ _ _ fits =>
      refine ⟨hstore, hcomplete, hdb.limit_eq, hdb.settled_total foundAttempt,
        fun _ _ => hdb.settled_positive foundAttempt, ?_⟩
      intro a stored saved ha hsaved
      rw [OrderedMap.get_insert] at ha
      split at ha
      · next heq =>
          subst heq
          cases ha
          cases hsaved
          exact ⟨_, OrderedMap.get_insert_self _ _ _, fits⟩
      · obtain ⟨other, hother, hle⟩ := hdb.reserved a stored saved ha hsaved
        obtain ⟨other', hother', hreserve⟩ := kept_settled foundAttempt a other hother
        exact ⟨other', hother', hreserve ▸ hle⟩
  | uncertain _ foundAttempt =>
      exact ⟨hstore, hcomplete, hdb.limit_eq, hdb.settled_total foundAttempt,
        fun _ _ => hdb.settled_positive foundAttempt,
        hdb.reserved.attempts (kept_settled foundAttempt) rfl rfl⟩
  | uncertainLate => exact hdb
  | repair found _ missing =>
      have hsome := hdb.complete _ _ found
      rw [missing] at hsome
      cases hsome
  | transition => exact ⟨hstore, hcomplete, hdb.limit_eq, hdb.bound, hdb.positive, hdb.reserved⟩
  | @reopen l sessions recovered =>
      refine ⟨hstore, hcomplete, hsame l rfl, ?_, ?_, ?_⟩
      · exact (OrderedMap.total_mapValues _ givenUp_reserve).trans_le hdb.bound
      · intro a row ha
        obtain ⟨old, hold, rfl⟩ := get_givenUp.1 ha
        rw [givenUp_reserve]
        exact hdb.positive a old hold
      · exact hdb.reserved.attempts
          (fun a row ha => ⟨row.givenUp, get_givenUp.2 ⟨row, ha, rfl⟩, givenUp_reserve row⟩)
          rfl rfl

/-- Every run from an accounted store whose reopenings use its limit. -/
theorem Accounted.run (hdb : db.Accounted limit) {calls : List StoreCall}
    (hsame : ∀ l, .reopen l ∈ calls → l = limit) :
    (Method.run execute db calls).Accounted limit := by
  induction calls generalizing db with
  | nil => exact hdb
  | cons call rest ih =>
      refine ih ?_ fun l hl => hsame l (List.mem_cons_of_mem _ hl)
      cases hcall : execute call db with
      | mk result db' =>
          cases result with
          | error e =>
              rw [atomic_execute call db e db' hcall]
              exact hdb
          | ok u =>
              exact hdb.step (fun l hl => hsame l (hl ▸ List.mem_cons_self))
                (execute_accepts hdb.store.keyed hcall)

end Preservation

section Requests

variable {limit : Nat} {db db₀ : SqliteStore}

/-- The sum over the attempts stays an `i64`. -/
theorem Accounted.usedReserve_eq (hdb : db.Accounted limit) (hlimit : limit ≤ i64Max) :
    usedReserve db = (.ok (db.attempts.total (·.reserve)), db) :=
  usedReserve_accepts.2 ⟨hdb.bound.trans hlimit, rfl, rfl⟩

variable {uuid id inputDigest : String} {revision : Int} {parent : Option String} {reserve : Nat}

theorem insertAttempt_rejects {a : String} {row : AttemptRow} {e : Error} {db' : SqliteStore}
    (h : insertAttempt a row db = (.error e, db')) : e = .sql := by
  obtain ⟨⟨⟩⟩ | ⟨_, _, hread, h⟩ := bind_rejects.1 h
  cases hread
  obtain ⟨h, -⟩ | ⟨_, -, h⟩ := check_bind_rejects.1 h
  · exact (rejectIf_error.1 h).2.symm
  obtain ⟨h, -⟩ | ⟨_, -, h⟩ := check_bind_rejects.1 h
  · exact (rejectIf_error.1 h).2.symm
  obtain ⟨h, -⟩ | ⟨_, -, ⟨⟩⟩ := check_bind_rejects.1 h
  exact (rejectIf_error.1 h).2.symm

/-- Whatever the arguments are, an attempt is refused for the session, for its room
or by a constraint of the tables, and never because a number does not fit. -/
theorem Accounted.begin_rejects (hdb : db.Accounted limit) (hlimit : limit ≤ i64Max)
    {e : Error} {db' : SqliteStore}
    (h : begin uuid id revision parent inputDigest reserve db = (.error e, db')) :
    e = .sql ∨ e = ⟨"session conflict or reconciliation required"⟩ ∨
      e = ⟨"store capacity"⟩ := by
  obtain ⟨-, _, h⟩ := transaction_rejects.1 h
  obtain h | ⟨s, _, hload, h⟩ := bind_rejects.1 h
  · obtain ⟨⟨⟩⟩ | ⟨_, _, hread, h⟩ := bind_rejects.1 h
    cases hread
    cases hget : db.sessions.get id with
    | none =>
        rw [hget] at h
        cases h
        exact .inl rfl
    | some s =>
        rw [hget] at h
        cases h
  obtain ⟨-, rfl⟩ := load_accepts.1 hload
  obtain ⟨h, -⟩ | ⟨_, -, h⟩ := check_bind_rejects.1 h
  · exact .inr (.inl (rejectIf_error.1 h).2.symm)
  obtain h | ⟨used, _, hused, h⟩ := bind_rejects.1 h
  · rw [hdb.usedReserve_eq hlimit] at h
    cases h
  obtain ⟨-, rfl, rfl⟩ := usedReserve_accepts.1 hused
  obtain ⟨⟨⟩⟩ | ⟨_, _, hread, h⟩ := bind_rejects.1 h
  cases hread
  obtain ⟨h, -⟩ | ⟨_, hcapacity, h⟩ := check_bind_rejects.1 h
  · exact .inr (.inr (rejectIf_error.1 h).2.symm)
  obtain ⟨-, -, hroom⟩ := capacity_accepts.1 (rejectIf_ok.1 hcapacity)
  rw [hdb.limit_eq] at hroom
  obtain ⟨h, -⟩ | ⟨_, -, h⟩ := check_bind_rejects.1 h
  · obtain ⟨hlarge, -⟩ := rejectIf_error.1 h
    rw [decide_eq_true_eq] at hlarge
    omega
  obtain h | ⟨_, _, -, h⟩ := bind_rejects.1 h
  · exact .inl (insertAttempt_rejects h)
  obtain ⟨⟨⟩⟩ | ⟨_, _, -, ⟨⟩⟩ := bind_rejects.1 h

end Requests

end ResponseGateway.Continuation.SqliteStore
