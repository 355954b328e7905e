import ResponseGateway.Continuation.Replay
import ResponseGateway.Continuation.StoreSteps

/-!
`continuation::Runtime`: restoring a record from an envelope and finalizing one.
Each runs under the lock of the store, so it is one operation on the database.
Sealing and opening of envelopes are the functions of a `Protector`; the nonce it
draws is an argument. What is assumed of them stands with the results that use it.
-/

namespace ResponseGateway.Continuation
open Checked Method Ir SqliteStore

structure Protector where
  sealRecord : ByteArray → ReplayRecord → Except Error String
  openRecord : String → Except Error ReplayRecord

structure Runtime where
  protector : Protector
  sha256 : String → Digest
  base64 : Base64

namespace Runtime

variable (rt : Runtime)

def recordDigest (record : ReplayRecord) : String := digest rt.sha256 record.toJson

/-- A provider record is restored only for the session as it is now. -/
def checkCurrent (session : Session) : Operation Unit := do
  let current ← SqliteStore.session session.id
  check (rejectIf (current ≠ session) ⟨"stale provider session"⟩)

def checkRestored (session : Session) : ReplayRecord → Operation Unit
  | .v3 _ => checkCurrent session
  | _ => pure ()

def restoreRecord (session : Session) (envelope : String) : Operation ReplayRecord := do
  let original ← check (rt.protector.openRecord envelope)
  checkRestored session original
  check (rejectIf (original.fields.session ≠ session.id || original.fields.epoch ≠ session.epoch ||
    original.fields.origin ≠ session.origin) ⟨"origin mismatch"⟩)
  let saved ← record original.fields.response
  check (rejectIf (saved.session ≠ session.id || saved.epoch ≠ session.epoch ||
    saved.digest ≠ rt.recordDigest original) ⟨"record mismatch"⟩)
  match saved.envelope with
  | some stored =>
      let authoritative ← check (rt.protector.openRecord stored)
      check (rejectIf (rt.recordDigest authoritative ≠ rt.recordDigest original)
        ⟨"stored payload mismatch"⟩)
      return authoritative
  | none =>
      repair saved.id (rt.recordDigest original) envelope
      return original

/-- The previous record of a provider's lineage is of the same provider. -/
def checkParent (session : Session) (provider : ReplayV3) (parent : String) : Operation Unit := do
  let saved ← record parent
  check (rejectIf (saved.session ≠ session.id || saved.epoch ≠ session.epoch)
    ⟨"provider parent origin"⟩)
  let stored ← check (okOr saved.envelope ⟨"provider parent payload missing"⟩)
  let previous ← check (rt.protector.openRecord stored)
  check (rejectIf (rt.recordDigest previous ≠ saved.digest) ⟨"provider parent digest"⟩)
  match previous with
  | .v3 previous =>
      check (rejectIf (previous.response ≠ parent || previous.origin ≠ provider.origin ||
        previous.native.binding ≠ provider.native.binding ||
        previous.native.format ≠ provider.native.format ||
        previous.native.version ≠ provider.native.version) ⟨"provider state binding"⟩)
  | _ => check (.error ⟨"provider parent version"⟩)

def checkLineage (provider : ReplayV3) : Operation Unit := do
  check (provider.validate rt.base64)
  let session ← SqliteStore.session provider.session
  check (rejectIf (session.epoch ≠ provider.epoch || session.origin ≠ provider.origin ||
    session.head ≠ provider.parent || !session.status.inFlight) ⟨"provider checkpoint origin"⟩)
  match provider.parent with
  | some parent => rt.checkParent session provider parent
  | none => pure ()

def checkRecord : ReplayRecord → Operation Unit
  | .v3 provider => rt.checkLineage provider
  | _ => pure ()

def finalizeChecked (nonce : ByteArray) (record : ReplayRecord)
    (fits : String → Except Error Unit) : Operation String := do
  rt.checkRecord record
  let envelope ← check (rt.protector.sealRecord nonce record)
  check (fits envelope)
  finalize record.fields.session record.fields.response (rt.recordDigest record) envelope
    (record.outcome = .awaitingTools)
  return envelope

section Success

variable {rt} {db db' : SqliteStore}

theorem session_accepts {id : String} {s : Session} :
    SqliteStore.session id db = (.ok s, db') ↔
      label id = .ok () ∧ db.sessions.get id = some s ∧ db = db' := by
  rw [SqliteStore.session, check_bind_accepts]
  simp only [load_accepts]
  exact ⟨fun ⟨_, hlabel, h⟩ => ⟨hlabel, h⟩, fun ⟨hlabel, h⟩ => ⟨(), hlabel, h⟩⟩

theorem record_accepts {id : String} {saved : StoredReplay} :
    record id db = (.ok saved, db') ↔ ∃ row stored, db.attempts.get id = some row ∧
      row.status = .finalized ∧ db.records.get id = some stored ∧
      saved = { id, session := row.session, epoch := row.epoch, digest := stored.digest,
                envelope := stored.envelope } ∧ db = db' := by
  simp only [record, read_bind_accepts, check_bind_accepts, okOr_ok, rejectIf_ok, pure_accepts,
    decide_eq_false_iff_not, ne_eq, not_not]
  constructor
  · rintro ⟨row, hrow, _, hfin, stored, hstored, rfl, rfl⟩
    exact ⟨row, stored, hrow, hfin, hstored, rfl, rfl⟩
  · rintro ⟨row, stored, hrow, hfin, hstored, rfl, rfl⟩
    exact ⟨row, hrow, (), hfin, stored, hstored, rfl, rfl⟩

theorem checkCurrent_accepts {s : Session} {u : Unit} :
    checkCurrent s db = (.ok u, db') ↔
      label s.id = .ok () ∧ db.sessions.get s.id = some s ∧ db = db' := by
  simp only [checkCurrent, bind_accepts, session_accepts, check_accepts, rejectIf_ok,
    decide_eq_false_iff_not, ne_eq, not_not]
  constructor
  · rintro ⟨_, _, ⟨hlabel, hfound, rfl⟩, rfl, rfl⟩
    exact ⟨hlabel, hfound, rfl⟩
  · rintro ⟨hlabel, hfound, rfl⟩
    exact ⟨s, db, ⟨hlabel, hfound, rfl⟩, rfl, rfl⟩

/-- Every finalized record still has its envelope. -/
def Complete (db : SqliteStore) : Prop :=
  ∀ a stored, db.records.get a = some stored → stored.envelope.isSome = true

theorem Complete.commits (hdb : Complete db) {call : StoreCall} (h : Commits db call db') :
    Complete db' := by
  cases h with
  | create | begin | uncertain | uncertainLate | transition | reopen => exact hdb
  | finalize =>
      intro a stored ha
      rw [OrderedMap.get_insert] at ha
      split at ha
      · cases ha
        rfl
      · exact hdb a stored ha
  | repair found _ missing =>
      have hsome := hdb _ _ found
      rw [missing] at hsome
      cases hsome

theorem checkRestored_keeps {s : Session} {r : ReplayRecord} {u : Unit}
    (h : checkRestored s r db = (.ok u, db')) : db' = db := by
  cases r with
  | v1 | v2 => exact (pure_accepts.1 h).2.symm
  | v3 => exact (checkCurrent_accepts.1 h).2.2.symm

/-- A restored record is what the stored envelope opens to, and has the digest of
the record finalized under the identifier the presented envelope names. -/
theorem restoreRecord_accepts (hcomplete : Complete db) {s : Session} {envelope : String}
    {r : ReplayRecord} (h : rt.restoreRecord s envelope db = (.ok r, db')) :
    ∃ original row stored saved, rt.protector.openRecord envelope = .ok original ∧
      original.fields.session = s.id ∧ original.fields.epoch = s.epoch ∧
      original.fields.origin = s.origin ∧
      db.attempts.get original.fields.response = some row ∧ row.status = .finalized ∧
      row.session = s.id ∧ row.epoch = s.epoch ∧
      db.records.get original.fields.response = some stored ∧
      stored.digest = rt.recordDigest original ∧ stored.envelope = some saved ∧
      rt.protector.openRecord saved = .ok r ∧ rt.recordDigest r = rt.recordDigest original ∧
      db' = db := by
  obtain ⟨original, hopen, hopened⟩ := check_bind_accepts.1 h
  obtain ⟨_, _, hcurrent, hchecked⟩ := bind_accepts.1 hopened
  rw [checkRestored_keeps hcurrent] at hchecked
  obtain ⟨_, horigin, hsame⟩ := check_bind_accepts.1 hchecked
  obtain ⟨_, _, hrecord, hfound⟩ := bind_accepts.1 hsame
  obtain ⟨row, stored, hrow, hfin, hstored, rfl, rfl⟩ := record_accepts.1 hrecord
  obtain ⟨_, hmatch, hrest⟩ := check_bind_accepts.1 hfound
  simp only [rejectIf_ok, Bool.or_eq_false_iff, decide_eq_false_iff_not, ne_eq, not_not]
    at horigin hmatch
  obtain ⟨⟨hsession, hepoch⟩, horigin⟩ := horigin
  obtain ⟨⟨hrowSession, hrowEpoch⟩, hdigest⟩ := hmatch
  cases henvelope : stored.envelope with
  | none =>
      have hsome := hcomplete _ _ hstored
      rw [henvelope] at hsome
      cases hsome
  | some saved =>
      simp only [henvelope] at hrest
      obtain ⟨authoritative, hauthoritative, hrest⟩ := check_bind_accepts.1 hrest
      obtain ⟨_, hhash, hrest⟩ := check_bind_accepts.1 hrest
      obtain ⟨rfl, rfl⟩ := pure_accepts.1 hrest
      exact ⟨original, row, stored, saved, hopen, hsession, hepoch, horigin, hrow, hfin,
        hrowSession, hrowEpoch, hstored, hdigest, henvelope, hauthoritative,
        by simpa using hhash, rfl⟩

/-- The envelope of a finalized record restores it for the current session. -/
theorem restoreRecord_of {s : Session} {envelope : String} {r : ReplayRecord} {row : AttemptRow}
    (hlabel : label s.id = .ok ()) (hs : db.sessions.get s.id = some s)
    (hopen : rt.protector.openRecord envelope = .ok r) (hsession : r.fields.session = s.id)
    (hepoch : r.fields.epoch = s.epoch) (horigin : r.fields.origin = s.origin)
    (hrow : db.attempts.get r.fields.response = some row) (hfin : row.status = .finalized)
    (hrowSession : row.session = s.id) (hrowEpoch : row.epoch = s.epoch)
    (hstored : db.records.get r.fields.response =
      some { digest := rt.recordDigest r, envelope := some envelope }) :
    rt.restoreRecord s envelope db = (.ok r, db) := by
  refine check_bind_accepts.2 ⟨r, hopen, bind_accepts.2 ⟨(), db, ?_, ?_⟩⟩
  · cases r with
    | v1 | v2 => rfl
    | v3 => exact checkCurrent_accepts.2 ⟨hlabel, hs, rfl⟩
  refine check_bind_accepts.2 ⟨(), by simp [hsession, hepoch, horigin], ?_⟩
  refine bind_accepts.2 ⟨_, db, record_accepts.2 ⟨row, _, hrow, hfin, hstored, rfl, rfl⟩, ?_⟩
  refine check_bind_accepts.2 ⟨(), by simp [hrowSession, hrowEpoch], ?_⟩
  exact check_bind_accepts.2 ⟨r, hopen, check_bind_accepts.2 ⟨(), by simp, rfl⟩⟩

end Success

end Runtime
end ResponseGateway.Continuation
