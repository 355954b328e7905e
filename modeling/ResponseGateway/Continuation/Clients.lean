import ResponseGateway.Continuation.StoreInvariant
import ResponseGateway.Library.Chain

/-!
Managed clients over the store. A client reads a session, begins an attempt on
that snapshot, and finalizes it with a record whose parent is the snapshot's
head, or gives it up, possibly late. Clients interleave with each other, with
host transitions and with crashes. Snapshots and attempts once obtained are kept
for ever, which allows every late or repeated use of them. The parent of a record
lies inside its sealed envelope, so it is kept beside the tables in `log`, in the
order of finalization.
-/

namespace ResponseGateway.Continuation
open Checked Method SqliteStore Chain

/-- An attempt a client obtained, with the snapshot it was begun on. -/
structure Ticket where
  attempt : String
  snapshot : Session
  deriving DecidableEq, Repr

/-- A finalized record as its client wrote it. -/
structure LogEntry where
  attempt : String
  session : String
  epoch : Int
  parent : Option String
  deriving DecidableEq, Repr

/-- The record a client writes for its ticket. -/
def Ticket.entry (t : Ticket) : LogEntry :=
  { attempt := t.attempt, session := t.snapshot.id, epoch := t.snapshot.epoch
    parent := t.snapshot.head }

structure World where
  db : SqliteStore
  snapshots : List Session
  tickets : List Ticket
  log : List LogEntry

namespace World

def init (limit : Nat) : World := { db := empty limit, snapshots := [], tickets := [], log := [] }

/-- The calls that need no ticket. -/
def isHostCall : StoreCall → Bool
  | .create _ _ | .repair _ _ _ | .transition _ _ _ _ _ _ | .reopen _ => true
  | _ => false

inductive Step (w : World) : World → Prop where
  | observe {id : String} {s : Session} {db : SqliteStore} (call : session id w.db = (.ok s, db)) :
      Step w { w with db, snapshots := s :: w.snapshots }
  | begin {uuid inputDigest attempt : String} {reserve : Nat} {s : Session} {db : SqliteStore}
      (held : s ∈ w.snapshots)
      (call : begin uuid s.id s.revision s.head inputDigest reserve w.db = (.ok attempt, db)) :
      Step w { w with db, tickets := ⟨attempt, s⟩ :: w.tickets }
  | finalize {t : Ticket} {digest envelope : String} {pendingTools : Bool} {db : SqliteStore}
      (held : t ∈ w.tickets)
      (call : finalize t.snapshot.id t.attempt digest envelope pendingTools w.db = (.ok (), db)) :
      Step w { w with db, log := w.log ++ [t.entry] }
  | uncertain {t : Ticket} {db : SqliteStore} (held : t ∈ w.tickets)
      (call : uncertain t.snapshot.id t.attempt w.db = (.ok (), db)) : Step w { w with db }
  | host {c : StoreCall} {db : SqliteStore} (own : isHostCall c = true)
      (call : execute c w.db = (.ok (), db)) : Step w { w with db }
  | failed {c : StoreCall} {e : Error} {db : SqliteStore}
      (call : execute c w.db = (.error e, db)) : Step w { w with db }

/-- Any number of steps of any clients. -/
abbrev Runs := Relation.ReflTransGen Step

/-- The finalized records of one epoch of a session, oldest first. -/
def recordsOf (w : World) (id : String) (epoch : Int) : List LogEntry :=
  w.log.filter fun entry => entry.session = id && entry.epoch = epoch

structure Linear (w : World) : Prop where
  store : w.db.Invariant
  snapshot : ∀ s ∈ w.snapshots, ∃ now, w.db.sessions.get s.id = some now ∧
    s.revision ≤ now.revision ∧ (s.revision = now.revision → s = now)
  ticket : ∀ t ∈ w.tickets, ∃ row now, w.db.attempts.get t.attempt = some row ∧
    row.session = t.snapshot.id ∧ row.epoch = t.snapshot.epoch ∧
    w.db.sessions.get t.snapshot.id = some now ∧ t.snapshot.revision < now.revision ∧
    (row.status = .pending → now.head = t.snapshot.head)
  tickets_distinct : w.tickets.Pairwise fun t t' => t.attempt ≠ t'.attempt ∧
    (t.snapshot.id = t'.snapshot.id → t.snapshot.revision ≠ t'.snapshot.revision)
  logged : ∀ entry ∈ w.log, ∃ row, w.db.attempts.get entry.attempt = some row ∧
    row.session = entry.session ∧ row.epoch = entry.epoch ∧ row.status = .finalized
  log_complete : ∀ a row, w.db.attempts.get a = some row → row.status = .finalized →
    ∃ entry ∈ w.log, entry.attempt = a
  log_distinct : (w.log.map (·.attempt)).Nodup
  chained : ∀ id s, w.db.sessions.get id = some s →
    Chained LogEntry.attempt LogEntry.parent none (w.recordsOf id s.epoch) s.head

theorem linear_init (limit : Nat) : (init limit).Linear where
  store := invariant_empty limit
  snapshot := by simp [init]
  ticket := by simp [init]
  tickets_distinct := List.Pairwise.nil
  logged := by simp [init]
  log_complete := by simp [init, empty]
  log_distinct := List.nodup_nil
  chained := by simp [init, empty]

section Frames

variable {db db' : SqliteStore} {call : StoreCall}

/-- Attempts are never removed, and one that has ended is never changed. -/
theorem commits_attempt (h : Commits db call db') {a : String} {row : AttemptRow}
    (ha : db.attempts.get a = some row) :
    ∃ row', db'.attempts.get a = some row' ∧ row'.session = row.session ∧
      row'.epoch = row.epoch ∧ (row.status ≠ .pending → row' = row) := by
  cases h with
  | create | uncertainLate | repair | transition => exact ⟨row, ha, rfl, rfl, fun _ => rfl⟩
  | begin _ _ _ _ fresh =>
      exact ⟨row, OrderedMap.get_insert_of_some fresh ha, rfl, rfl, fun _ => rfl⟩
  | @finalize id attempt digest envelope _ s old found foundAttempt own sameEpoch waiting =>
      by_cases heq : attempt = a
      · subst heq
        rw [foundAttempt] at ha
        cases ha
        exact ⟨_, OrderedMap.get_insert_self _ _ _, rfl, rfl, fun hne => absurd waiting hne⟩
      · exact ⟨row, by rw [OrderedMap.get_insert_of_ne _ _ heq, ha], rfl, rfl, fun _ => rfl⟩
  | @uncertain id attempt s old found foundAttempt own waiting =>
      by_cases heq : attempt = a
      · subst heq
        rw [foundAttempt] at ha
        cases ha
        exact ⟨_, OrderedMap.get_insert_self _ _ _, rfl, rfl, fun hne => absurd waiting hne⟩
      · exact ⟨row, by rw [OrderedMap.get_insert_of_ne _ _ heq, ha], rfl, rfl, fun _ => rfl⟩
  | reopen =>
      obtain ⟨hsession, hepoch, -⟩ := givenUp_columns row
      exact ⟨row.givenUp, get_givenUp.2 ⟨row, ha, rfl⟩, hsession, hepoch, fun hne => if_neg hne⟩

/-- A session whose attempt stays pending is not touched. -/
theorem commits_quiet (hdb : db.Invariant) (h : Commits db call db') {a : String}
    {row row' : AttemptRow} {s : Session} (ha : db.attempts.get a = some row)
    (hpending : row.status = .pending) (ha' : db'.attempts.get a = some row')
    (hpending' : row'.status = .pending) (hs : db.sessions.get row.session = some s) :
    db'.sessions.get row.session = some s := by
  have hflight := (hdb.pending_flight _ s a row hs ha rfl hpending).1
  cases h with
  | create fresh => exact OrderedMap.get_insert_of_some fresh hs
  | @begin _ id _ _ _ _ s' found _ idle =>
      refine (OrderedMap.get_insert_of_ne _ _ ?_).trans hs
      rintro rfl
      rw [hs] at found
      cases found
      rw [hflight] at idle
      cases idle
  | @finalize id attempt _ _ _ s' old found foundAttempt own _ waiting =>
      refine (OrderedMap.get_insert_of_ne _ _ ?_).trans hs
      rintro rfl
      obtain rfl := hdb.pending_unique _ _ _ _ foundAttempt ha own waiting hpending
      rw [OrderedMap.get_insert_self] at ha'
      cases ha'
      cases hpending'
  | @uncertain id attempt s' old found foundAttempt own waiting =>
      refine (OrderedMap.get_insert_of_ne _ _ ?_).trans hs
      rintro rfl
      obtain rfl := hdb.pending_unique _ _ _ _ foundAttempt ha own waiting hpending
      rw [OrderedMap.get_insert_self] at ha'
      cases ha'
      cases hpending'
  | uncertainLate | repair => exact hs
  | @transition _ id _ _ _ _ s' t _ found _ idle =>
      refine (OrderedMap.get_insert_of_ne _ _ ?_).trans hs
      rintro rfl
      rw [hs] at found
      cases found
      rw [hflight] at idle
      cases idle
  | reopen =>
      obtain ⟨old, -, rfl⟩ := get_givenUp.1 ha'
      exact absurd hpending' (givenUp_status old)

def isFinalize : StoreCall → Bool
  | .finalize _ _ _ _ _ => true
  | _ => false

/-- Only finalization makes an attempt finalized. -/
theorem commits_finalized (h : Commits db call db') (hcall : isFinalize call = false) {a : String}
    {row : AttemptRow} (ha : db'.attempts.get a = some row) (hfin : row.status = .finalized) :
    db.attempts.get a = some row := by
  cases h with
  | create | uncertainLate | repair | transition => exact ha
  | begin _ _ _ _ fresh => grind [OrderedMap.get_insert]
  | finalize => cases hcall
  | uncertain => grind [OrderedMap.get_insert]
  | reopen =>
      obtain ⟨old, hold, rfl⟩ := get_givenUp.1 ha
      have hne : old.status ≠ .pending := by
        rw [givenUp_finalized.1 hfin]
        simp
      rwa [AttemptRow.givenUp, if_neg hne]

theorem kept_insert {id i : String} {s u t : Session} (found : db.sessions.get i = some s)
    (ht : (db.sessions.insert i u).get id = some t) (hepoch : u.epoch = s.epoch)
    (hhead : u.head = s.head) :
    ∃ s, db.sessions.get id = some s ∧ t.epoch = s.epoch ∧ t.head = s.head := by
  rw [OrderedMap.get_insert] at ht
  split at ht
  · next heq =>
      subst heq
      cases ht
      exact ⟨s, found, hepoch, hhead⟩
  · exact ⟨t, ht, rfl, rfl⟩

/-- Outside finalization a session keeps its epoch and head, or has no head and an
epoch above every attempt so far. -/
theorem commits_head (hdb : db.Invariant) (h : Commits db call db')
    (hcall : isFinalize call = false) {id : String} {t : Session}
    (ht : db'.sessions.get id = some t) :
    (∃ s, db.sessions.get id = some s ∧ t.epoch = s.epoch ∧ t.head = s.head) ∨
      (t.head = none ∧ ∀ a row, db.attempts.get a = some row → row.session = id →
        row.epoch < t.epoch) := by
  cases h with
  | @create uuid _ s fresh _ _ _ _ head_eq =>
      rw [OrderedMap.get_insert] at ht
      split at ht
      · next heq =>
          subst heq
          cases ht
          refine .inr ⟨head_eq, fun a row ha hown => ?_⟩
          obtain ⟨u, hu, -⟩ := hdb.attempt_session a row ha
          rw [hown, fresh] at hu
          cases hu
      · exact .inl ⟨t, ht, rfl, rfl⟩
  | begin found => exact .inl (kept_insert found ht rfl rfl)
  | finalize => cases hcall
  | uncertain found => exact .inl (kept_insert found ht rfl rfl)
  | uncertainLate | repair => exact .inl ⟨t, ht, rfl, rfl⟩
  | @transition _ _ _ _ _ _ s u _ found _ _ target =>
      obtain ⟨-, -, -, -, ⟨hnone, hlt⟩ | ⟨hsame, hepoch⟩⟩ := transitioned_spec target
      · rw [OrderedMap.get_insert] at ht
        split at ht
        · next heq =>
            subst heq
            cases ht
            refine .inr ⟨hnone, fun a row ha hown => ?_⟩
            obtain ⟨u, hu, hle⟩ := hdb.attempt_session a row ha
            rw [hown, found] at hu
            cases hu
            exact lt_of_le_of_lt hle hlt
        · exact .inl ⟨t, ht, rfl, rfl⟩
      · exact .inl (kept_insert found ht hepoch hsame)
  | reopen recovered =>
      change _ = some t at ht
      rw [recovered, Option.map_eq_some_iff] at ht
      obtain ⟨s, hs, rfl⟩ := ht
      refine .inl ⟨s, hs, ?_⟩
      split <;> exact ⟨rfl, rfl⟩

theorem transitioned_origin {s t : Session} {kind : String} {portable : Option String}
    (h : transitioned s kind portable = .ok t) : t.origin = s.origin := by
  unfold transitioned at h
  split_ifs at h <;> simp only [restart, bind_ok, pure_ok, Except.ok.injEq] at h
  · cases h
    rfl
  all_goals
    obtain ⟨_, -, rfl⟩ := h
    rfl

/-- Sessions are never removed, and keep their origin. -/
theorem commits_origin (h : Commits db call db') {id : String} {s : Session}
    (hs : db.sessions.get id = some s) :
    ∃ t, db'.sessions.get id = some t ∧ t.origin = s.origin := by
  have hupdate : ∀ {i : String} {old new : Session}, db.sessions.get i = some old →
      new.origin = old.origin →
      ∃ t, (db.sessions.insert i new).get id = some t ∧ t.origin = s.origin := by
    intro i old new hold horigin
    by_cases heq : i = id
    · subst heq
      rw [hs] at hold
      cases hold
      exact ⟨new, OrderedMap.get_insert_self _ _ _, horigin⟩
    · exact ⟨s, by rw [OrderedMap.get_insert_of_ne _ _ heq, hs], rfl⟩
  cases h with
  | create fresh => exact ⟨s, OrderedMap.get_insert_of_some fresh hs, rfl⟩
  | begin found => exact hupdate found rfl
  | finalize found => exact hupdate found rfl
  | uncertain found => exact hupdate found rfl
  | uncertainLate | repair => exact ⟨s, hs, rfl⟩
  | transition found _ _ target =>
      have horigin := transitioned_origin target
      exact hupdate found horigin
  | reopen recovered =>
      refine ⟨_, (recovered id).trans (by rw [hs]; rfl), ?_⟩
      split <;> rfl

/-- A stored record with its envelope is never changed. -/
theorem commits_record (hdb : db.Invariant) (h : Commits db call db') {a : String}
    {stored : RecordRow} (ha : db.records.get a = some stored)
    (hsome : stored.envelope.isSome = true) : db'.records.get a = some stored := by
  cases h with
  | create | begin | uncertain | uncertainLate | transition | reopen => exact ha
  | finalize found foundAttempt _ _ waiting =>
      refine (OrderedMap.get_insert_of_ne _ _ ?_).trans ha
      rintro rfl
      obtain ⟨row, hrow, hfin⟩ := (hdb.record_iff _).1 ⟨stored, ha⟩
      rw [foundAttempt] at hrow
      cases hrow
      rw [waiting] at hfin
      cases hfin
  | repair found _ missing =>
      refine (OrderedMap.get_insert_of_ne _ _ ?_).trans ha
      rintro rfl
      rw [ha] at found
      cases found
      rw [missing] at hsome
      cases hsome

end Frames

end World
end ResponseGateway.Continuation
