import ResponseGateway.Recorder.Export
import ResponseGateway.Recorder.Ledger

/-!
The ledger in PostgreSQL, and that it decides as the local one does. A batch is one
transaction, and a query for at most one row fails when there are several. What the
connection and the server may refuse beyond this is left out.
-/

namespace ResponseGateway.Recorder
open Checked Usage

section Remote

structure RemoteRow where
  producerId : String
  eventId : String
  attemptId : String
  revision : Nat
  identity : Text
  kind : String
  sha256 : String
  payload : Text
  inputTokens : Option UInt64
  outputTokens : Option UInt64
  deriving DecidableEq, Repr

def RemoteRow.attempt (r : RemoteRow) : String × String := (r.producerId, r.attemptId)

def RemoteRow.keys (r : RemoteRow) : Keys := ⟨(r.producerId, r.eventId), r.attempt, r.revision⟩

/-- The schema `gateway_usage`. -/
structure Remote where
  version : Nat
  events : List RemoteRow

/-- Why a batch fails. -/
inductive RemoteFailure where
  | host (failure : Failure)
  | tooManyRows
  | unsupportedRemoteSchema
  deriving DecidableEq, Repr

def initializePostgres : Remote := ⟨1, []⟩

/-- The tuple that identifies an attempt, as text. -/
def pgIdentity (e : UsageEventV1) : Text :=
  (Json.array [.string e.requestId, RecordedEvent.number e.startedAtMs, .string e.provider,
    .string e.modelAlias, .string e.upstreamModel, .string e.profile.name,
    .string e.configurationSha256]).render

variable (digest : Text → String)

/-- What is inserted for an event. -/
def pgRow (e : UsageEventV1) : Except RemoteFailure RemoteRow := do
  let payload ← (RecordedEvent.v1 e).bytes.mapError fun failure => .host (.event failure)
  let revision ← (toI64 e.revision).mapError .host
  return {
    producerId := e.producerId, eventId := e.eventId, attemptId := e.attemptId, revision
    identity := pgIdentity e, kind := e.kind.name, sha256 := digest payload, payload
    inputTokens := e.usage.value "input_tokens", outputTokens := e.usage.value "output_tokens" }

/-- A query for at most one row. -/
def queryOpt : List RemoteRow → Except RemoteFailure (Option RemoteRow)
  | [] => .ok none
  | [r] => .ok (some r)
  | _ => .error .tooManyRows

/-- A row of the attempt that a new row may not follow. -/
def RemoteRow.forbids (new : RemoteRow) (finished : Bool) (r : RemoteRow) : Bool :=
  decide (r.identity ≠ new.identity) || (finished && decide (r.revision > new.revision)) ||
    (decide (r.kind = "attempt_finished") && (decide (new.revision ≥ r.revision) || finished))

/-- One event of a batch. -/
def pgStep (rows : List RemoteRow) (e : UsageEventV1) :
    Except RemoteFailure (Receipt × List RemoteRow) := do
  let new ← pgRow digest e
  let receipt := fun status => Receipt.mk e.producerId e.eventId new.sha256 status
  let duplicate ← queryOpt (rows.filter (·.keys.clash new.keys))
  match duplicate with
  | some row => return (receipt (if row.sha256 = new.sha256 then .duplicate else .conflict), rows)
  | none =>
      if (rows.filter (·.attempt = new.attempt)).any
          (new.forbids (decide (e.kind = .attemptFinished))) then return (receipt .conflict, rows)
      else do
        let rows ← okOr (Table.insert (Table.byKey Keys.clash RemoteRow.keys) rows new)
          (.host .constraint)
        return (receipt .committed, rows)

def pgEvents : List UsageEventV1 → List RemoteRow →
    Except RemoteFailure (List Receipt × List RemoteRow)
  | [], rows => .ok ([], rows)
  | e :: rest, rows => do
      let (receipt, rows) ← pgStep digest rows e
      let (receipts, rows) ← pgEvents rest rows
      return (receipt :: receipts, rows)

def pgBatch (events : List UsageEventV1) (remote : Remote) :
    Except RemoteFailure (List Receipt × Remote) := do
  rejectIf (decide (remote.version ≠ 1)) .unsupportedRemoteSchema
  let (receipts, rows) ← pgEvents digest events remote.events
  return (receipts, { remote with events := rows })

/-- Batches are sent one after the other. -/
def pgBatches : List (List UsageEventV1) → Remote →
    Except RemoteFailure (List (List Receipt) × Remote)
  | [], remote => .ok ([], remote)
  | events :: rest, remote => do
      let (receipts, remote) ← pgBatch digest events remote
      let (more, remote) ← pgBatches rest remote
      return (receipts :: more, remote)

end Remote

section Agreement

variable {digest : Text → String} {config : RecorderConfig} {events : List UsageEventV1}
  {e : UsageEventV1} {row : EventRow} {r new : RemoteRow} {s : Store} {rows : List RemoteRow}

theorem finished_name {kind : EventKind} :
    kind.name = "attempt_finished" ↔ kind = .attemptFinished := by
  cases kind <;> decide

/-- The rows of one event in the two ledgers. -/
structure Twins (digest : Text → String) (e : UsageEventV1) (row : EventRow) (r : RemoteRow) :
    Prop where
  stored : rowOf digest (.v1 e) = .ok row
  remote : pgRow digest e = .ok r
  keys : r.keys = row.keys
  sha256 : r.sha256 = row.sha256
  identity : r.identity = (RecordedEvent.v1 e).identityBytes
  kind : r.kind = row.kind.name

theorem twins (hrow : rowOf digest (.v1 e) = .ok row) : ∃ r, Twins digest e row r := by
  have h := hrow
  simp only [rowOf, bind_ok, pure_ok, toI64_ok] at h
  obtain ⟨payload, hbytes, _, ⟨rfl, hfits⟩, _, -, _, -, rfl⟩ := h
  have hpayload : (RecordedEvent.v1 e).bytes = .ok payload := (rowOf_ok hrow).payload
  refine ⟨{
    producerId := e.producerId, eventId := e.eventId, attemptId := e.attemptId
    revision := e.revision.toNat, identity := pgIdentity e, kind := e.kind.name
    sha256 := digest payload, payload, inputTokens := e.usage.value "input_tokens"
    outputTokens := e.usage.value "output_tokens" }, hrow, ?_, rfl, rfl, rfl, rfl⟩
  have hrevision : toI64 e.revision = .ok e.revision.toNat := toI64_ok.2 ⟨rfl, hfits⟩
  rw [pgRow, hpayload, hrevision]
  rfl

namespace Twins

theorem attempt (h : Twins digest e row r) : r.attempt = row.attempt :=
  congrArg (fun keys : Keys => keys.place.1) h.keys

theorem revision (h : Twins digest e row r) : r.revision = row.revision :=
  congrArg (fun keys : Keys => keys.place.2) h.keys

/-- An event has one row in each ledger. -/
theorem remote_eq (h : Twins digest e row r) (hnew : pgRow digest e = .ok new) : new = r := by
  rw [h.remote, Except.ok.injEq] at hnew
  exact hnew.symm

end Twins

/-- The same events are stored in both ledgers, and none was removed. -/
structure Agree (digest : Text → String) (events : List UsageEventV1) (s : Store)
    (rows : List RemoteRow) : Prop where
  intact : Intact digest s
  tombstones : s.tombstones = []
  stored : ∀ e ∈ events, ∃ row, rowOf digest (.v1 e) = .ok row
  live : ∀ row, row ∈ s.events ↔ ∃ e ∈ events, rowOf digest (.v1 e) = .ok row
  attempts : ∀ a, a ∈ s.attempts ↔ ∃ e ∈ events,
    a = ⟨e.producerId, e.attemptId, (RecordedEvent.v1 e).identityBytes⟩
  remote : ∀ r, r ∈ rows ↔ ∃ e ∈ events, pgRow digest e = .ok r
  distinct : Table.Distinct (Table.byKey Keys.clash RemoteRow.keys) rows

theorem agree_empty (version : Nat) : Agree digest [] (.empty version) [] where
  intact := intact_empty version
  tombstones := rfl
  stored := by simp
  live := by simp [Store.empty]
  attempts := by simp [Store.empty]
  remote := by simp
  distinct := .nil

namespace Agree

theorem twins_of_live (h : Agree digest events s rows) (hrow : row ∈ s.events) :
    ∃ e ∈ events, ∃ r ∈ rows, Twins digest e row r := by
  obtain ⟨e, he, hrow⟩ := (h.live row).1 hrow
  obtain ⟨r, htwins⟩ := twins hrow
  exact ⟨e, he, r, (h.remote r).2 ⟨e, he, htwins.remote⟩, htwins⟩

theorem twins_of_remote (h : Agree digest events s rows) (hr : r ∈ rows) :
    ∃ e ∈ events, ∃ row ∈ s.events, Twins digest e row r := by
  obtain ⟨e, he, hr⟩ := (h.remote r).1 hr
  obtain ⟨row, hrow⟩ := h.stored e he
  obtain ⟨r', htwins⟩ := twins hrow
  rw [← htwins.remote_eq hr] at htwins
  exact ⟨e, he, row, (h.live row).2 ⟨e, he, hrow⟩, htwins⟩

/-- What is known of an attempt is the identity of all its events. -/
theorem identified (h : Agree digest events s rows) (row : EventRow) (identity : Text) :
    (∀ a, s.attempts.find? (·.attempt = row.attempt) = some a → a.identity = identity) ↔
      ∀ r ∈ rows, r.attempt = row.attempt → r.identity = identity := by
  constructor
  · intro hfind r hr hsame
    obtain ⟨e, he, row', -, htwins⟩ := h.twins_of_remote hr
    have hmem := (h.attempts _).2 ⟨e, he, rfl⟩
    have hkey : (⟨e.producerId, e.attemptId, (RecordedEvent.v1 e).identityBytes⟩ :
        AttemptRow).attempt = row.attempt := by
      rw [← hsame, htwins.attempt, (rowOf_ok htwins.stored).attempt]
      rfl
    obtain ⟨a, ha⟩ := Option.isSome_iff_exists.1
      ((List.find?_isSome (p := (·.attempt = row.attempt))).2 ⟨_, hmem, decide_eq_true hkey⟩)
    have hattempt := List.find?_some ha
    rw [decide_eq_true_eq] at hattempt
    have heq := List.inj_on_of_nodup_map h.intact.attempts (List.mem_of_find?_eq_some ha) hmem
      (hattempt.trans hkey.symm)
    rw [htwins.identity, ← hfind a ha, heq]
  · intro hrows a ha
    have hattempt := List.find?_some ha
    rw [decide_eq_true_eq] at hattempt
    obtain ⟨e, he, rfl⟩ := (h.attempts a).1 (List.mem_of_find?_eq_some ha)
    obtain ⟨row', hrow'⟩ := h.stored e he
    obtain ⟨r, htwins⟩ := twins hrow'
    rw [← htwins.identity]
    refine hrows r ((h.remote r).2 ⟨e, he, htwins.remote⟩) ?_
    rw [htwins.attempt, (rowOf_ok hrow').attempt, ← hattempt]
    rfl

/-- The guards of the two ledgers admit the same rows. -/
theorem forbids_eq_false (h : Agree digest events s rows) (hnew : Twins digest e row new) :
    (rows.filter (·.attempt = new.attempt)).any
        (new.forbids (decide (e.kind = .attemptFinished))) = false ↔
      Admitted s row (RecordedEvent.v1 e).identityBytes := by
  have hkind : e.kind = row.kind := (rowOf_ok hnew.stored).kind.symm
  have hforbids : ∀ r, new.forbids (decide (e.kind = .attemptFinished)) r = false ↔
      r.identity = (RecordedEvent.v1 e).identityBytes ∧
        (row.kind = .attemptFinished → r.revision ≤ row.revision) ∧
        (r.kind = "attempt_finished" → row.revision < r.revision ∧ row.kind ≠ .attemptFinished) := by
    intro r
    rw [RemoteRow.forbids, hkind, hnew.identity, hnew.revision]
    simp only [ne_eq, decide_not, Bool.or_eq_false_iff, Bool.not_eq_eq_eq_not, Bool.not_false,
      decide_eq_true_eq, Bool.and_eq_false_imp, decide_eq_false_iff_not, not_lt, not_le, and_assoc,
      gt_iff_lt, ge_iff_le]
  simp only [List.any_eq_false, List.mem_filter, decide_eq_true_eq, Bool.not_eq_true, hforbids,
    hnew.attempt, and_imp]
  constructor
  · intro hrows
    refine ⟨by simp [h.tombstones], (h.identified row _).2 fun r hr hr' => (hrows r hr hr').1,
      fun hfinished row' hrow' hsame => ?_, fun f hf hsame hfinished => ?_⟩
    · obtain ⟨e', -, r, hr, htwins⟩ := h.twins_of_live hrow'
      rw [← htwins.revision]
      exact (hrows r hr (htwins.attempt.trans hsame)).2.1 hfinished
    · obtain ⟨e', -, r, hr, htwins⟩ := h.twins_of_live hf
      rw [← htwins.revision]
      refine (hrows r hr (htwins.attempt.trans hsame)).2.2 ?_
      rw [htwins.kind, finished_name, hfinished]
  · intro hadmitted r hr hsame
    obtain ⟨e', -, row', hrow', htwins⟩ := h.twins_of_remote hr
    have hsame' : row'.attempt = row.attempt := htwins.attempt.symm.trans hsame
    refine ⟨(h.identified row _).1 hadmitted.identified r hr hsame, fun hfinished => ?_,
      fun hfinished => ?_⟩
    · rw [htwins.revision]
      exact hadmitted.later hfinished row' hrow' hsame'
    · rw [htwins.revision]
      rw [htwins.kind, finished_name] at hfinished
      exact hadmitted.unfinished row' hrow' hsame' hfinished

/-- An event that both ledgers admit is stored in both. -/
theorem commit (h : Agree digest events s rows) (hnew : Twins digest e row new)
    (hprior : s.prior row = none) (hadmitted : Admitted s row (RecordedEvent.v1 e).identityBytes)
    (hremote : ∀ r ∈ rows, r.keys.clash new.keys = false) :
    Agree digest (events ++ [e]) (s.commit row config (RecordedEvent.v1 e).identityBytes)
      (rows ++ [new]) := by
  obtain ⟨-, hattempts⟩ := insertAttempt_attempts s row (RecordedEvent.v1 e).identityBytes
    hadmitted.identified h.intact.attempts
  have hold : ∀ {P : UsageEventV1 → Prop}, (∃ e' ∈ events ++ [e], P e') ↔
      (∃ e' ∈ events, P e') ∨ P e := by
    intro P
    simp only [List.mem_append, List.mem_singleton, or_and_right, exists_or, exists_eq_left]
  refine ⟨h.intact.commit nofun hnew.stored hprior hadmitted.identified, h.tombstones, ?_, ?_, ?_,
    ?_, ?_⟩
  · intro e' he'
    rcases List.mem_append.1 he' with he' | he'
    · exact h.stored e' he'
    · rw [List.mem_singleton.1 he']
      exact ⟨row, hnew.stored⟩
  · intro row'
    rw [hold, Store.commit, List.mem_append, h.live row', List.mem_singleton, hnew.stored,
      Except.ok.injEq, eq_comm]
  · intro a
    rw [hold, Store.commit, hattempts a, h.attempts a, row_attempt hnew.stored]
    rfl
  · intro r
    rw [hold, List.mem_append, h.remote r, List.mem_singleton, hnew.remote, Except.ok.injEq,
      eq_comm]
  · refine Table.distinct_append.2 ⟨h.distinct, List.pairwise_singleton _ _, fun r hr r' hr' => ?_⟩
    rw [List.mem_singleton.1 hr']
    exact hremote r hr

end Agree

/-- The keys of a stored event and of a new one collide. -/
def Collides (row : EventRow) (e : UsageEventV1) : Prop :=
  row.event = (e.producerId, e.eventId) ∨
    row.attempt = (e.producerId, e.attemptId) ∧ row.revision = e.revision.toNat

/-- At most one stored event collides with a new one. -/
def Single (s : Store) (e : UsageEventV1) : Prop :=
  ∀ row ∈ s.events, ∀ row' ∈ s.events, Collides row e → Collides row' e → row = row'

theorem collides_iff {old : EventRow} (hrow : rowOf digest (.v1 e) = .ok row) :
    Collides old e ↔ old.keys.clash row.keys = true := by
  have hrowOf := rowOf_ok hrow
  have hplace : old.keys.place = row.keys.place ↔
      old.attempt = row.attempt ∧ old.revision = row.revision := Prod.mk.injEq _ _ _ _ ▸ Iff.rfl
  rw [clash_iff, hplace, hrowOf.attempt, hrowOf.revision, EventRow.keys, EventRow.keys,
    hrowOf.named]
  exact Iff.rfl

/-- A remote row collides when its twin does. -/
theorem Agree.filter_clash (h : Agree digest events s rows) (hnew : Twins digest e row new)
    (hsingle : Single s e) {old : EventRow} {r : RemoteRow} {e' : UsageEventV1}
    (hold : old ∈ s.events) (htwins : Twins digest e' old r) (hr : r ∈ rows)
    (hclash : old.keys.clash row.keys = true) :
    rows.filter (·.keys.clash new.keys) = [r] := by
  refine h.distinct.filter_eq hr ?_ fun a ha b hb hclash_a hclash_b => ?_
  · rw [htwins.keys, hnew.keys, hclash]
  · obtain ⟨e₁, -, row₁, hrow₁, h₁⟩ := h.twins_of_remote ha
    obtain ⟨e₂, -, row₂, hrow₂, h₂⟩ := h.twins_of_remote hb
    rw [h₁.keys, hnew.keys] at hclash_a
    rw [h₂.keys, hnew.keys] at hclash_b
    rw [Table.byKey, h₁.keys, h₂.keys, hsingle row₁ hrow₁ row₂ hrow₂
      ((collides_iff hnew.stored).2 hclash_a) ((collides_iff hnew.stored).2 hclash_b), clash_self]

/-- The two ledgers decide alike about an event that collides with at most one stored one. -/
theorem Agree.step (h : Agree digest events s rows) (hrow : rowOf digest (.v1 e) = .ok row)
    (hsingle : Single s e) : ∃ status s' receipt rows' events',
      s.record digest config (.v1 e) = .ok (status, s') ∧
      pgStep digest rows e = .ok (receipt, rows') ∧ receipt.status = status ∧
      status ≠ .rejected ∧ s'.version = s.version ∧ Agree digest events' s' rows' := by
  obtain ⟨new, hnew⟩ := twins hrow
  have hv2 : (RecordedEvent.v1 e).isV2 = true → s.version = 2 := nofun
  rw [h.intact.record_eq hv2 hrow, Store.decided, pgStep, hnew.remote, bind_of_ok]
  cases hprior : s.prior row with
  | some kept =>
      obtain ⟨sha256, payload⟩ := kept
      obtain ⟨old, hold, hclash, rfl, -⟩ : ∃ old ∈ s.events, old.keys.clash row.keys = true ∧
          sha256 = old.sha256 ∧ payload = some old.payload := by
        rcases prior_eq_some hprior with hlive | ⟨t, ht, -⟩
        · exact hlive
        · rw [h.tombstones] at ht
          cases ht
      obtain ⟨e', -, r, hr, htwins⟩ := h.twins_of_live hold
      rw [h.filter_clash hnew hsingle hold htwins hr hclash, queryOpt]
      refine ⟨_, _, _, _, events, rfl, rfl, ?_, ?_, rfl, h⟩
      · simp only [htwins.sha256, hnew.sha256]
      · split <;> decide
  | none =>
      obtain ⟨hlive, -⟩ := prior_eq_none.1 hprior
      have hremote : ∀ r ∈ rows, r.keys.clash new.keys = false := by
        intro r hr
        obtain ⟨e', -, old, hold, htwins⟩ := h.twins_of_remote hr
        rw [htwins.keys, hnew.keys, hlive old hold]
      have hnone : rows.filter (·.keys.clash new.keys) = [] := by
        simp only [List.filter_eq_nil_iff, Bool.not_eq_true]
        exact hremote
      rw [hnone, queryOpt, bind_of_ok]
      cases hforbids : (rows.filter (·.attempt = new.attempt)).any
          (new.forbids (decide (e.kind = .attemptFinished))) with
      | false =>
          have hadmitted := (h.forbids_eq_false hnew).1 hforbids
          have hinsert : Table.insert (Table.byKey Keys.clash RemoteRow.keys) rows new =
              some (rows ++ [new]) := Table.insert_eq_some.2 ⟨hremote, rfl⟩
          rw [refuses_eq_false.2 hadmitted, hinsert]
          exact ⟨_, _, _, _, _, rfl, rfl, rfl, by decide, rfl,
            h.commit hnew hprior hadmitted hremote⟩
      | true =>
          have hrefuses : s.refuses row (RecordedEvent.v1 e).identityBytes = true := by
            rw [← Bool.not_eq_false, refuses_eq_false, ← h.forbids_eq_false hnew, hforbids]
            decide
          rw [hrefuses]
          exact ⟨_, _, _, _, events, rfl, rfl, rfl, by decide, rfl, h⟩

theorem queryOpt_several {l : List RemoteRow} {r r' : RemoteRow} (hr : r ∈ l) (hr' : r' ∈ l)
    (hne : r ≠ r') : queryOpt l = .error .tooManyRows := by
  match l with
  | [] => cases hr
  | [a] =>
      rw [List.mem_singleton] at hr hr'
      exact absurd (hr.trans hr'.symm) hne
  | _ :: _ :: _ => rfl

/-- Where two stored events collide with a new one, the query of the remote ledger fails. -/
theorem Agree.step_fails (h : Agree digest events s rows)
    (hrow : rowOf digest (.v1 e) = .ok row) (hseveral : ¬ Single s e) :
    pgStep digest rows e = .error .tooManyRows := by
  obtain ⟨new, hnew⟩ := twins hrow
  simp only [Single, not_forall] at hseveral
  obtain ⟨row₁, hrow₁, row₂, hrow₂, h₁, h₂, hne⟩ := hseveral
  obtain ⟨e₁, -, r₁, hr₁, htwins₁⟩ := h.twins_of_live hrow₁
  obtain ⟨e₂, -, r₂, hr₂, htwins₂⟩ := h.twins_of_live hrow₂
  have hclash : ∀ {old : EventRow} {r : RemoteRow} {e' : UsageEventV1}, Twins digest e' old r →
      Collides old e → r ∈ rows → r ∈ rows.filter (·.keys.clash new.keys) := by
    intro old r e' htwins hcollides hr
    rw [List.mem_filter, htwins.keys, hnew.keys]
    exact ⟨hr, (collides_iff hrow).1 hcollides⟩
  have hne' : r₁ ≠ r₂ := by
    rintro rfl
    refine hne (h.intact.eq_of_clash hrow₁ hrow₂ ?_)
    rw [← htwins₁.keys, ← htwins₂.keys, clash_self]
  rw [pgStep, hnew.remote, bind_of_ok,
    queryOpt_several (hclash htwins₁ h₁ hr₁) (hclash htwins₂ h₂ hr₂) hne']
  rfl

/-- Along a sequence of events, each event collides with at most one that was stored before. -/
def Singly (digest : Text → String) (config : RecorderConfig) (s : Store)
    (l : List UsageEventV1) : Prop :=
  ∀ before e after, l = before ++ e :: after → ∀ statuses s',
    deliver digest config (before.map .v1) s = .ok (statuses, s') → Single s' e

theorem Agree.run {l : List UsageEventV1} (h : Agree digest events s rows)
    (hstorable : ∀ e ∈ l, Storable s.version (.v1 e)) (hsingly : Singly digest config s l) :
    ∃ statuses s' receipts rows' events',
      deliver digest config (l.map .v1) s = .ok (statuses, s') ∧
      pgEvents digest l rows = .ok (receipts, rows') ∧ receipts.map (·.status) = statuses ∧
      Agree digest events' s' rows' := by
  induction l generalizing events s rows with
  | nil => exact ⟨[], s, [], rows, events, rfl, rfl, rfl, h⟩
  | cons e rest ih =>
      obtain ⟨row, hrow⟩ := (hstorable e List.mem_cons_self).has_row digest
      obtain ⟨status, s₁, receipt, rows₁, events₁, hrecord, hstep, rfl, -, hversion, h₁⟩ :=
        h.step hrow (hsingly [] e rest rfl [] s rfl)
      have hsingly₁ : Singly digest config s₁ rest := by
        intro before e' after heq statuses s' hdeliver
        refine hsingly (e :: before) e' after (by rw [heq, List.cons_append])
          (receipt.status :: statuses) s' ?_
        rw [List.map_cons, deliver, hrecord, bind_of_ok]
        simp only [hdeliver]
        rfl
      obtain ⟨statuses, s', receipts, rows', events', hdeliver, hevents, rfl, h'⟩ := ih h₁
        (fun e' he' => hversion ▸ hstorable e' (List.mem_cons_of_mem _ he')) hsingly₁
      refine ⟨_, s', receipt :: receipts, rows', events', ?_, ?_, rfl, h'⟩
      · rw [List.map_cons, deliver, hrecord, bind_of_ok]
        simp only [hdeliver]
        rfl
      · rw [pgEvents, hstep, bind_of_ok]
        simp only [hevents]
        rfl

theorem pgEvents_append {l l' : List UsageEventV1} {receipts : List Receipt}
    {rows' : List RemoteRow} (h : pgEvents digest (l ++ l') rows = .ok (receipts, rows')) :
    ∃ first mid second, pgEvents digest l rows = .ok (first, mid) ∧
      pgEvents digest l' mid = .ok (second, rows') ∧ receipts = first ++ second := by
  induction l generalizing rows receipts with
  | nil => exact ⟨[], rows, receipts, rfl, h, rfl⟩
  | cons e rest ih =>
      simp only [List.cons_append, pgEvents, bind_ok, pure_ok, Prod.mk.injEq] at h
      obtain ⟨⟨receipt, rows₁⟩, hstep, ⟨more, _⟩, hrest, rfl, rfl⟩ := h
      obtain ⟨first, mid, second, hfirst, hsecond, rfl⟩ := ih hrest
      refine ⟨receipt :: first, mid, second, ?_, hsecond, rfl⟩
      rw [pgEvents, hstep, bind_of_ok]
      simp only [hfirst]
      rfl

/-- Batches store what one batch of all their events stores. -/
theorem pgBatches_flatten {batches : List (List UsageEventV1)} {receipts : List Receipt}
    (remote : Remote) (hversion : remote.version = 1)
    (h : pgEvents digest batches.flatten remote.events = .ok (receipts, rows)) :
    ∃ answers, pgBatches digest batches remote = .ok (answers, { remote with events := rows }) ∧
      answers.flatten = receipts := by
  induction batches generalizing remote receipts with
  | nil =>
      cases h
      exact ⟨[], rfl, rfl⟩
  | cons events rest ih =>
      obtain ⟨first, mid, second, hfirst, hsecond, rfl⟩ := pgEvents_append h
      have hbatch : pgBatch digest events remote = .ok (first, { remote with events := mid }) := by
        have hcheck : decide (remote.version ≠ 1) = false := by
          rw [decide_eq_false_iff_not, not_not, hversion]
        rw [pgBatch, hcheck, rejectIf_false, bind_of_ok, hfirst]
        rfl
      obtain ⟨answers, hanswers, rfl⟩ := ih { remote with events := mid } hversion hsecond
      refine ⟨first :: answers, ?_, rfl⟩
      rw [pgBatches, hbatch, bind_of_ok]
      simp only [hanswers]
      rfl

/-- What the two ledgers have in common of an event. -/
def EventRow.entry (row : EventRow) : String × String × String × Nat × String :=
  (row.producerId, row.eventId, row.attemptId, row.revision, row.sha256)

def RemoteRow.entry (r : RemoteRow) : String × String × String × Nat × String :=
  (r.producerId, r.eventId, r.attemptId, r.revision, r.sha256)

theorem Twins.entry (h : Twins digest e row r) : r.entry = row.entry := by
  have hevent : (r.producerId, r.eventId) = (row.producerId, row.eventId) :=
    congrArg Keys.event h.keys
  have hattempt : (r.producerId, r.attemptId) = (row.producerId, row.attemptId) := h.attempt
  rw [Prod.mk.injEq] at hevent hattempt
  rw [RemoteRow.entry, EventRow.entry, hevent.1, hevent.2, hattempt.2, h.revision, h.sha256]

theorem Agree.entries (h : Agree digest events s rows)
    (entry : String × String × String × Nat × String) :
    entry ∈ rows.map (·.entry) ↔ entry ∈ s.events.map (·.entry) := by
  constructor
  · intro hentry
    obtain ⟨r, hr, rfl⟩ := List.mem_map.1 hentry
    obtain ⟨e, -, row, hrow, htwins⟩ := h.twins_of_remote hr
    exact htwins.entry ▸ List.mem_map_of_mem hrow
  · intro hentry
    obtain ⟨row, hrow, rfl⟩ := List.mem_map.1 hentry
    obtain ⟨e, -, r, hr, htwins⟩ := h.twins_of_live hrow
    exact htwins.entry ▸ List.mem_map_of_mem hr

/-- The two ledgers make the same decision, and neither fails. -/
def Alike (digest : Text → String) (config : RecorderConfig) (s : Store) (rows : List RemoteRow)
    (e : UsageEventV1) : Prop :=
  ∃ status s' receipt rows', s.record digest config (.v1 e) = .ok (status, s') ∧
    pgStep digest rows e = .ok (receipt, rows') ∧ receipt.status = status ∧ status ≠ .rejected

/-- Ledgers with the same events decide alike about an event that the local one can hold and
that collides with at most one stored event; and so they store the same when they are given
the same events, whatever the batches. -/
theorem ledgers_agree (digest : Text → String) (config : RecorderConfig) :
    (∀ events s rows e, Agree digest events s rows → Storable s.version (.v1 e) → Single s e →
      Alike digest config s rows e) ∧
    ∀ (version : Nat) (batches : List (List UsageEventV1)),
      (∀ e ∈ batches.flatten, Storable version (.v1 e)) →
      Singly digest config (.empty version) batches.flatten → ∃ statuses s answers remote,
        deliver digest config (batches.flatten.map .v1) (.empty version) = .ok (statuses, s) ∧
        pgBatches digest batches initializePostgres = .ok (answers, remote) ∧
        answers.flatten.map (·.status) = statuses ∧
        ∀ entry, entry ∈ remote.events.map (·.entry) ↔ entry ∈ s.events.map (·.entry) := by
  constructor
  · intro events s rows e hagree hstorable hsingle
    obtain ⟨row, hrow⟩ := hstorable.has_row digest
    obtain ⟨status, s', receipt, rows', -, hrecord, hstep, hstatus, hne, -⟩ :=
      hagree.step hrow hsingle
    exact ⟨status, s', receipt, rows', hrecord, hstep, hstatus, hne⟩
  · intro version batches hstorable hsingly
    obtain ⟨statuses, s, receipts, rows, events, hdeliver, hevents, hstatus, hagree⟩ :=
      (agree_empty version).run hstorable hsingly
    obtain ⟨answers, hbatches, rfl⟩ :=
      pgBatches_flatten initializePostgres rfl hevents
    exact ⟨statuses, s, answers, _, hdeliver, hbatches, hstatus, hagree.entries⟩

/-- Events that belong together collide with no other of them. -/
theorem Consistent.singly {set : Set RecordedEvent} {version : Nat} {l : List UsageEventV1}
    (hset : Consistent set) (hinj : Function.Injective digest)
    (hstorable : ∀ e ∈ set, Storable version e) (hl : ∀ e ∈ l, RecordedEvent.v1 e ∈ set) :
    Singly digest config (.empty version) l := by
  intro before e after heq statuses s hdeliver
  have hbefore : ∀ e ∈ before.map RecordedEvent.v1, e ∈ set := by
    intro e' he'
    obtain ⟨earlier, hearlier, rfl⟩ := List.mem_map.1 he'
    exact hl earlier (heq ▸ List.mem_append_left _ hearlier)
  have he : RecordedEvent.v1 e ∈ set := hl e (by simp [heq])
  obtain ⟨statuses', s', hdeliver', htables, -⟩ :=
    tables_empty.deliver _ hinj hset hstorable _ (by simp) hbefore
  rw [hdeliver, Except.ok.injEq, Prod.mk.injEq] at hdeliver'
  rw [← hdeliver'.2, List.nil_append] at htables
  obtain ⟨row, hrow⟩ := (hstorable _ he).has_row digest
  have hone : ∀ old ∈ s.events, Collides old e → old = row := by
    intro old hold hcollides
    obtain ⟨e', he', hrow'⟩ := (htables.events old).1 hold
    rw [hset.eq_of_clash (hbefore e' he') he hrow' hrow ((collides_iff hrow).1 hcollides), hrow,
      Except.ok.injEq] at hrow'
    exact hrow'.symm
  intro row₁ hrow₁ row₂ hrow₂ h₁ h₂
  rw [hone row₁ hrow₁ h₁, hone row₂ hrow₂ h₂]

section Attempt

theorem mem_attempt {started finished e : UsageEventV1} (hstarted : startedEvent = .v1 started)
    (hfinished : finishedEvent = .v1 finished) (he : e ∈ [started, finished]) :
    RecordedEvent.v1 e ∈ ({startedEvent, finishedEvent} : Set RecordedEvent) := by
  rw [hstarted, hfinished]
  rcases List.mem_cons.1 he with rfl | he
  · exact .inl rfl
  · rw [List.mem_singleton.1 he]
    exact .inr rfl

/-- The ledgers agree about an attempt whose events come in two batches. -/
theorem ledgers_agree_attempt : ∃ started finished, startedEvent = .v1 started ∧
    finishedEvent = .v1 finished ∧ ∃ statuses s answers remote,
      deliver String.ofList ⟨[], List.nodup_nil⟩ [startedEvent, finishedEvent] (.empty 1) =
        .ok (statuses, s) ∧
      pgBatches String.ofList [[started], [finished]] initializePostgres = .ok (answers, remote) ∧
      answers.flatten.map (·.status) = statuses := by
  have hinj : Function.Injective String.ofList := fun _ _ h => String.ofList_injective h
  obtain ⟨started, hstarted⟩ : ∃ e, startedEvent = .v1 e := ⟨_, rfl⟩
  obtain ⟨finished, hfinished⟩ : ∃ e, finishedEvent = .v1 e := ⟨_, rfl⟩
  have hmem : ∀ e ∈ [started, finished], RecordedEvent.v1 e ∈
      ({startedEvent, finishedEvent} : Set RecordedEvent) := fun e he =>
    mem_attempt hstarted hfinished he
  obtain ⟨statuses, s, answers, remote, hdeliver, hbatches, hstatus, -⟩ :=
    (ledgers_agree String.ofList ⟨[], List.nodup_nil⟩).2 1 [[started], [finished]]
      (fun e he => storable_attempt _ (hmem e he))
      (consistent_attempt.singly hinj storable_attempt hmem)
  rw [hstarted, hfinished]
  exact ⟨started, finished, rfl, rfl, statuses, s, answers, remote, hdeliver, hbatches, hstatus⟩

/-- The local ledger refuses a time that its tables do not hold, and the remote one fails when
an event has the name of one stored event and the place of another. -/
theorem ledgers_differ :
    (¬ ∀ (config : RecorderConfig) events s rows e, Agree String.ofList events s rows →
      (RecordedEvent.v1 e).validate = true → Alike String.ofList config s rows e) ∧
    ¬ ∀ (config : RecorderConfig) events s rows e, Agree String.ofList events s rows →
      Storable s.version (.v1 e) → Alike String.ofList config s rows e := by
  have hinj : Function.Injective String.ofList := fun _ _ h => String.ofList_injective h
  constructor
  · intro hall
    obtain ⟨e, he⟩ : ∃ e, attemptEvent "s" 0 .attemptStarted 9223372036854775808 = .v1 e :=
      ⟨_, rfl⟩
    obtain ⟨status, s', -, -, hrecord, -⟩ := hall ⟨[], List.nodup_nil⟩ [] (.empty 1) [] e
      (agree_empty 1) (he ▸ by decide)
    obtain ⟨row, hrow⟩ := (record_input hrecord).2
    obtain ⟨-, hfits, -⟩ := (rowOf_ok hrow).fits
    rw [(rowOf_ok hrow).startedAtMs, ← he] at hfits
    have htime : (9223372036854775808 : UInt64).toNat = 2 ^ 63 := by decide
    exact Nat.lt_irrefl _ (htime ▸ hfits)
  · intro hall
    obtain ⟨started, hstarted⟩ : ∃ e, startedEvent = .v1 e := ⟨_, rfl⟩
    obtain ⟨finished, hfinished⟩ : ∃ e, finishedEvent = .v1 e := ⟨_, rfl⟩
    have hmem : ∀ e ∈ [started, finished], RecordedEvent.v1 e ∈
        ({startedEvent, finishedEvent} : Set RecordedEvent) := fun e he =>
      mem_attempt hstarted hfinished he
    obtain ⟨e, he⟩ : ∃ e, attemptEvent "s" 1 .usageUpdated 1 = .v1 e := ⟨_, rfl⟩
    have hstorable : Storable 1 (.v1 e) := by
      rw [← he]
      exact ⟨nofun, bytes_of_isSome (by decide +kernel), by decide, by decide, by decide⟩
    obtain ⟨statuses, s, receipts, rows, events, hdeliver, -, -, hagree⟩ :=
      (agree_empty 1).run (fun e he => storable_attempt _ (hmem e he))
        (@Consistent.singly String.ofList ⟨[], List.nodup_nil⟩ _ _ _ consistent_attempt hinj
          storable_attempt hmem)
    obtain ⟨statuses', s', hdeliver', htables, -⟩ :=
      tables_empty.deliver _ hinj consistent_attempt storable_attempt _ (by simp)
        (List.forall_mem_map.2 hmem)
    rw [hdeliver, Except.ok.injEq, Prod.mk.injEq] at hdeliver'
    rw [← hdeliver'.2, List.nil_append] at htables
    have hlive : ∀ e ∈ [started, finished], ∃ row ∈ s.events,
        row.event = (e.producerId, e.eventId) ∧ row.attempt = (e.producerId, e.attemptId) ∧
          row.revision = e.revision.toNat := by
      intro e he
      obtain ⟨row, hrow⟩ := (storable_attempt _ (hmem e he)).has_row String.ofList
      exact ⟨row, (htables.events row).2 ⟨_, List.mem_map_of_mem he, hrow⟩,
        (rowOf_ok hrow).named, (rowOf_ok hrow).attempt, (rowOf_ok hrow).revision⟩
    obtain ⟨row₁, hrow₁, hnamed₁, -⟩ := hlive started (by simp)
    obtain ⟨row₂, hrow₂, hnamed₂, hattempt₂, hrevision₂⟩ := hlive finished (by simp)
    have hname : Collides row₁ e := by
      cases hstarted
      cases he
      exact .inl hnamed₁
    have hplace : Collides row₂ e := by
      cases hfinished
      cases he
      exact .inr ⟨hattempt₂, hrevision₂⟩
    have hseveral : ¬ Single s e := fun hsingle => by
      rw [← hsingle row₁ hrow₁ row₂ hrow₂ hname hplace, hnamed₁] at hnamed₂
      cases hstarted
      cases hfinished
      exact absurd hnamed₂ (by decide)
    obtain ⟨row, hrow⟩ := hstorable.has_row String.ofList
    obtain ⟨_, _, _, _, -, hstep, -⟩ :=
      hall ⟨[], List.nodup_nil⟩ events s rows _ hagree (htables.version ▸ hstorable)
    rw [hagree.step_fails hrow hseveral] at hstep
    cases hstep

end Attempt

end Agreement

end ResponseGateway.Recorder
