import ResponseGateway.Management.Journal

/-!
What the two tables keep. `Sound` says that every stored operation reads back and
that its columns are those of the operation; a `Write` is one of the two things that
are ever stored, an accepted operation or a checked event behind the recorded ones.
Both keep the tables sound and extend the recorded operations.
-/

namespace ResponseGateway.Management
open Checked Ir Json

/-- An operation and its row agree. -/
structure Row (sha256 : String → Ir.Digest) (row : OperationRow) (operation : Operation) :
    Prop where
  id : row.id = operation.id.value
  subject : row.subject = operation.actor.subject.value
  idempotencyKey : row.idempotencyKey = operation.request.idempotencyKey.value
  fingerprint : row.fingerprint = (operation.request.fingerprint sha256).value

/-- Every stored operation reads back. -/
structure Sound (sha256 : String → Ir.Digest) (db : Db) : Prop where
  ids : (db.operations.map (·.id)).Nodup
  keys : (db.operations.map fun o => (o.subject, o.idempotencyKey)).Nodup
  sequences : ∀ id, (db.eventsOf id).map (·.sequence) = List.range' 1 (db.eventsOf id).length
  owned : ∀ e ∈ db.events, e.operationId ∈ db.operations.map (·.id)
  texts : ∀ e ∈ db.events, ∃ event, e.event = json Event.codec event
  rows : ∀ row ∈ db.operations, ∃ operation,
    recorded db operation.id = .ok operation ∧ Row sha256 row operation

theorem sound_empty (sha256 : String → Ir.Digest) : Sound sha256 .empty where
  ids := List.nodup_nil
  keys := List.nodup_nil
  sequences _ := rfl
  owned := nofun
  texts := nofun
  rows := nofun

section Reading

variable {db : Db} {id : Id} {operation : Operation}

/-- The checks of one event, when it reads back. -/
structure Admits (operation : Operation) (event : Event) : Prop where
  sequence : event.sequence.toNat = operation.events.length + 1
  within : event.sequence.toNat ≤ maxEvents
  attributed : attributed operation event = true
  continues : continues operation event = true

theorem replayEvent_json {event : Event} (h : Admits operation event) :
    replayEvent operation (json Event.codec event) = .ok (operation.push event) := by
  have hsequence : (decide (event.sequence.toNat ≠ operation.events.length + 1) ||
      decide (event.sequence.toNat > maxEvents)) = false := by
    simp only [Bool.or_eq_false_iff, decide_eq_false_iff_not, not_not, Nat.not_lt]
    exact ⟨h.sequence, h.within⟩
  rw [replayEvent, decode_event, bind_of_ok, hsequence, h.attributed, h.continues]
  rfl

theorem replayEvent_ok {text : String} {operation' : Operation}
    (h : replayEvent operation text = .ok operation') :
    ∃ event, Admits operation event ∧ operation' = operation.push event := by
  obtain ⟨event, -, h⟩ := bind_ok.1 h
  obtain ⟨_, hsequence, h⟩ := bind_ok.1 h
  obtain ⟨_, hattributed, h⟩ := bind_ok.1 h
  obtain ⟨_, hcontinues, h⟩ := bind_ok.1 h
  rw [rejectIf_ok] at hsequence hattributed hcontinues
  simp only [Bool.or_eq_false_iff, decide_eq_false_iff_not, not_not, Nat.not_lt] at hsequence
  refine ⟨event, ⟨hsequence.1, hsequence.2, by simpa using hattributed,
    by simpa using hcontinues⟩, (pure_ok.1 h).symm⟩

/-- The event that was written is the event that is replayed. -/
theorem replayEvent_json_ok {event : Event} {operation' : Operation}
    (h : replayEvent operation (json Event.codec event) = .ok operation') :
    operation' = operation.push event := by
  rw [replayEvent, decode_event, bind_of_ok] at h
  obtain ⟨_, -, h⟩ := bind_ok.1 h
  obtain ⟨_, -, h⟩ := bind_ok.1 h
  obtain ⟨_, -, h⟩ := bind_ok.1 h
  exact (pure_ok.1 h).symm

/-- What a replay of events keeps of the operation it starts from. -/
structure Continued (before after : Operation) (count : Nat) : Prop where
  schema : after.schema = before.schema
  id : after.id = before.id
  actor : after.actor = before.actor
  authorization : after.authorization = before.authorization
  request : after.request = before.request
  events : after.events.length = before.events.length + count

theorem replay_continued {texts : List String} {before after : Operation}
    (h : texts.foldlM replayEvent before = .ok after) :
    Continued before after texts.length := by
  refine foldlM_rule (P := fun done op => Continued before op done.length) h
    ⟨rfl, rfl, rfl, rfl, rfl, rfl⟩ ?_
  intro done text rest s s' _ hs hstep
  obtain ⟨event, -, rfl⟩ := replayEvent_ok hstep
  refine ⟨hs.schema, hs.id, hs.actor, hs.authorization, hs.request, ?_⟩
  simp [Operation.push, hs.events, Nat.add_assoc]

/-- The stored intent of an operation. -/
structure Intent (id : Id) (intent : Operation) : Prop where
  id : intent.id = id
  schema : intent.schema = contract
  events : intent.events = []
  state : intent.state = .queued
  authorization : intent.authorization = ⟨intent.request.action, intent.request.target⟩

/-- What reading an operation finds: its row, its intent and its events. -/
theorem recorded_ok :
    recorded db id = .ok operation ↔ ∃ row intent,
      db.operations.find? (·.id = id.value) = some row ∧
      decode Operation.codec row.intent = .ok intent ∧ Intent id intent ∧
      (db.history id.value).foldlM replayEvent intent = .ok operation ∧
      operation.events ≠ [] := by
  constructor
  · intro h
    obtain ⟨row, hrow, h⟩ := bind_ok.1 h
    obtain ⟨intent, hintent, h⟩ := bind_ok.1 h
    obtain ⟨_, hchecks, h⟩ := bind_ok.1 h
    obtain ⟨operation', hreplay, h⟩ := bind_ok.1 h
    obtain ⟨_, hevents, h⟩ := bind_ok.1 h
    cases pure_ok.1 h
    rw [rejectIf_ok] at hchecks hevents
    simp only [Bool.or_eq_false_iff, decide_eq_false_iff_not, not_not, Bool.not_eq_false',
      List.isEmpty_iff] at hchecks
    obtain ⟨⟨⟨⟨⟨hid, hschema⟩, hempty⟩, hstate⟩, haction⟩, htarget⟩ := hchecks
    refine ⟨row, intent, okOr_ok.1 hrow, hintent, ⟨hid, hschema, hempty, hstate, ?_⟩, hreplay,
      List.isEmpty_eq_false_iff.1 hevents⟩
    rw [← haction, ← htarget]
  · rintro ⟨row, intent, hrow, hintent, hvalid, hreplay, hevents⟩
    have hchecks : (decide (intent.id ≠ id) || decide (intent.schema ≠ contract) ||
        !intent.events.isEmpty || decide (intent.state ≠ .queued) ||
        decide (intent.authorization.action ≠ intent.request.action) ||
        decide (intent.authorization.target ≠ intent.request.target)) = false := by
      simp [hvalid.id, hvalid.schema, hvalid.events, hvalid.state, hvalid.authorization]
    rw [recorded, hrow, okOr_some, bind_of_ok, hintent, bind_of_ok, hchecks]
    change (db.history id.value).foldlM replayEvent intent >>= _ = _
    rw [hreplay, bind_of_ok, List.isEmpty_eq_false_iff.2 hevents]
    rfl

end Reading

section Writing

variable {sha256 : String → Ir.Digest} {db db' : Db} {id : Id} {operation : Operation}

theorem eventsOf_insertEvent {row : EventRow} (h : db.insertEvent row = some db') (id : String) :
    db'.eventsOf id = db.eventsOf id ++ (if row.operationId = id then [row] else []) := by
  rw [Db.insertEvent] at h
  split at h
  · cases h
  · split at h
    · cases h
    · cases h
      rw [Db.eventsOf, Db.eventsOf, List.filter_append]
      congr 1
      by_cases hid : row.operationId = id
      · simp [hid]
      · simp [hid]

theorem insertEvent_some {row : EventRow} (h : db.insertEvent row = some db') :
    db'.operations = db.operations ∧ db'.events = db.events ++ [row] ∧
      row.operationId ∈ db.operations.map (·.id) := by
  rw [Db.insertEvent] at h
  split at h
  · cases h
  · next howner =>
      split at h
      · cases h
      · cases h
        obtain ⟨o, ho, hid⟩ : ∃ o ∈ db.operations, o.id = row.operationId := by
          simpa using howner
        exact ⟨rfl, rfl, List.mem_map.2 ⟨o, ho, hid⟩⟩

/-- Events are stored in the order of their sequence numbers. -/
theorem history_eq {id : String} (h : (db.eventsOf id).map (·.sequence) =
    List.range' 1 (db.eventsOf id).length) : db.history id = (db.eventsOf id).map (·.event) := by
  have hsorted : (db.eventsOf id).Pairwise fun a b => decide (a.sequence ≤ b.sequence) = true := by
    have hrange : ((db.eventsOf id).map (·.sequence)).Pairwise (· ≤ ·) := by
      rw [h]
      exact List.pairwise_le_range' 1
    simpa [List.pairwise_map] using hrange
  rw [Db.history, List.mergeSort_of_pairwise hsorted]

theorem Sound.length_events (h : Sound sha256 db) (hop : recorded db id = .ok operation) :
    operation.events.length = (db.eventsOf id.value).length := by
  obtain ⟨row, intent, -, -, hintent, hreplay, -⟩ := recorded_ok.1 hop
  rw [(replay_continued hreplay).events, hintent.events, history_eq (h.sequences _),
    List.length_map]
  exact Nat.zero_add _

/-- What is read of an operation depends on its row and its events alone. -/
theorem recorded_congr (hrow : db'.operations.find? (·.id = id.value) =
    db.operations.find? (·.id = id.value)) (hevents : db'.eventsOf id.value = db.eventsOf id.value) :
    recorded db' id = recorded db id := by
  rw [recorded, recorded, hrow, Db.history, Db.history, hevents]

theorem mem_ids_of_recorded (hop : recorded db id = .ok operation) :
    id.value ∈ db.operations.map (·.id) := by
  obtain ⟨row, -, hrow, -⟩ := recorded_ok.1 hop
  have hid := List.find?_some hrow
  exact List.mem_map.2 ⟨row, List.mem_of_find?_eq_some hrow, of_decide_eq_true hid⟩

theorem recorded_id (hop : recorded db id = .ok operation) : operation.id = id := by
  obtain ⟨row, intent, -, -, hintent, hreplay, -⟩ := recorded_ok.1 hop
  rw [(replay_continued hreplay).id, hintent.id]

/-- What reads back has at most the events that fit. -/
theorem recorded_length_le (hop : recorded db id = .ok operation) :
    operation.events.length ≤ maxEvents := by
  obtain ⟨row, intent, -, -, hintent, hreplay, -⟩ := recorded_ok.1 hop
  refine foldlM_rule (P := fun _ op => op.events.length ≤ maxEvents) hreplay ?_ ?_
  · rw [hintent.events]
    exact Nat.zero_le _
  · intro done text rest s s' _ hs hstep
    obtain ⟨event, hadmits, rfl⟩ := replayEvent_ok hstep
    rw [Operation.push, List.length_append, List.length_singleton, ← hadmits.sequence]
    exact hadmits.within

/-- The two things that are stored. -/
inductive Write (sha256 : String → Ir.Digest) (db : Db) : Db → Prop where
  | accept {db₁ db' : Db} (id : Id) (actor : Actor) (request : Request) (atMs : UInt64)
      (intent : db.insertOperation ⟨id.value, actor.identity.subject.value,
        request.idempotencyKey.value, (request.fingerprint sha256).value,
        json Operation.codec (.intent id actor request ⟨request.action, request.target⟩)⟩ =
          some db₁)
      (event : db₁.insertEvent ⟨id.value, 1, json Event.codec
        (.acceptedAt atMs actor ⟨request.action, request.target⟩)⟩ = some db') :
      Write sha256 db db'
  | append {db' : Db} {operation : Operation} {event : Event}
      (prior : recorded db operation.id = .ok operation) (admits : Admits operation event)
      (insert : db.insertEvent ⟨operation.id.value, operation.events.length + 1,
        json Event.codec event⟩ = some db') : Write sha256 db db'

/-- An event with the next number keeps the numbers of every operation contiguous. -/
theorem sequences_insertEvent {row : EventRow}
    (h : ∀ id, (db.eventsOf id).map (·.sequence) = List.range' 1 (db.eventsOf id).length)
    (hnext : row.sequence = (db.eventsOf row.operationId).length + 1)
    (hinsert : db.insertEvent row = some db') (id : String) :
    (db'.eventsOf id).map (·.sequence) = List.range' 1 (db'.eventsOf id).length := by
  rw [eventsOf_insertEvent hinsert]
  by_cases hid : row.operationId = id
  · subst hid
    rw [if_pos rfl, List.map_append, h, List.length_append, List.length_singleton,
      List.range'_1_concat, List.map_singleton, hnext, Nat.add_comm 1]
  · rw [if_neg hid, List.append_nil]
    exact h id

/-- An event behind the recorded ones is read behind them, and nothing else changes. -/
theorem recorded_append {event : Event} (h : Sound sha256 db)
    (hop : recorded db operation.id = .ok operation) (hadmits : Admits operation event)
    (hinsert : db.insertEvent ⟨operation.id.value, operation.events.length + 1,
      json Event.codec event⟩ = some db') :
    recorded db' operation.id = .ok (operation.push event) ∧
      ∀ id, id ≠ operation.id → recorded db' id = recorded db id := by
  obtain ⟨hoperations, -, -⟩ := insertEvent_some hinsert
  constructor
  · obtain ⟨row, intent, hrow, hintent, hvalid, hreplay, -⟩ := recorded_ok.1 hop
    have hnext := congrArg (· + 1) (h.length_events hop)
    have hsequences := sequences_insertEvent h.sequences hnext hinsert operation.id.value
    have hhistory : db'.history operation.id.value =
        db.history operation.id.value ++ [json Event.codec event] := by
      rw [history_eq hsequences, history_eq (h.sequences _), eventsOf_insertEvent hinsert,
        if_pos rfl, List.map_append, List.map_singleton]
    refine recorded_ok.2
      ⟨row, intent, hoperations ▸ hrow, hintent, hvalid, ?_, by simp [Operation.push]⟩
    rw [hhistory, List.foldlM_append, hreplay, bind_of_ok, List.foldlM_cons,
      replayEvent_json hadmits]
    rfl
  · intro id hne
    apply recorded_congr
    · rw [hoperations]
    · have hvalue : operation.id.value ≠ id.value := fun heq => hne (Id.ext heq.symm)
      rw [eventsOf_insertEvent hinsert, if_neg hvalue, List.append_nil]

theorem sound_append {event : Event} (h : Sound sha256 db)
    (hop : recorded db operation.id = .ok operation) (hadmits : Admits operation event)
    (hinsert : db.insertEvent ⟨operation.id.value, operation.events.length + 1,
      json Event.codec event⟩ = some db') : Sound sha256 db' := by
  obtain ⟨hoperations, hevents, howner⟩ := insertEvent_some hinsert
  obtain ⟨hsame, hothers⟩ := recorded_append h hop hadmits hinsert
  refine ⟨hoperations ▸ h.ids, hoperations ▸ h.keys, ?_, ?_, ?_, ?_⟩
  · exact sequences_insertEvent h.sequences (congrArg (· + 1) (h.length_events hop)) hinsert
  · rw [hevents, hoperations, List.forall_mem_append]
    exact ⟨h.owned, List.forall_mem_singleton.2 howner⟩
  · rw [hevents, List.forall_mem_append]
    exact ⟨h.texts, List.forall_mem_singleton.2 ⟨event, rfl⟩⟩
  · rw [hoperations]
    intro row hrow
    obtain ⟨op, hread, hcolumns⟩ := h.rows row hrow
    by_cases hid : op.id = operation.id
    · obtain rfl : op = operation := by
        rw [hid, hop] at hread
        exact (Except.ok.inj hread).symm
      exact ⟨op.push event, hsame, ⟨hcolumns.id, hcolumns.subject, hcolumns.idempotencyKey,
        hcolumns.fingerprint⟩⟩
    · exact ⟨op, (hothers _ hid).trans hread, hcolumns⟩

theorem insertOperation_some {row : OperationRow} (h : db.insertOperation row = some db') :
    db'.operations = db.operations ++ [row] ∧ db'.events = db.events ∧
      row.id ∉ db.operations.map (·.id) ∧
      (row.subject, row.idempotencyKey) ∉
        db.operations.map fun o => (o.subject, o.idempotencyKey) := by
  rw [Db.insertOperation] at h
  split at h
  · cases h
  · next hfree =>
      cases h
      simp only [List.any_eq_true, Bool.or_eq_true, Bool.and_eq_true, decide_eq_true_eq,
        not_exists, not_and, not_or] at hfree
      refine ⟨rfl, rfl, fun hid => ?_, fun hkey => ?_⟩
      · obtain ⟨o, ho, heq⟩ := List.mem_map.1 hid
        exact (hfree o ho).1 heq
      · obtain ⟨o, ho, heq⟩ := List.mem_map.1 hkey
        rw [Prod.mk.injEq] at heq
        exact (hfree o ho).2 heq.1 heq.2

section Accepting

variable {db₁ : Db} {actor : Actor} {request : Request} {atMs : UInt64}

/-- The operation that `accept` stores. -/
def Operation.accepted (id : Id) (actor : Actor) (request : Request) (atMs : UInt64) : Operation :=
  (Operation.intent id actor request ⟨request.action, request.target⟩).push
    (.acceptedAt atMs actor ⟨request.action, request.target⟩)

/-- What inserting an operation and its first event changes. -/
theorem recorded_accept (h : Sound sha256 db)
    (hintent : db.insertOperation ⟨id.value, actor.identity.subject.value,
      request.idempotencyKey.value, (request.fingerprint sha256).value,
      json Operation.codec (.intent id actor request ⟨request.action, request.target⟩)⟩ = some db₁)
    (hevent : db₁.insertEvent ⟨id.value, 1, json Event.codec
      (.acceptedAt atMs actor ⟨request.action, request.target⟩)⟩ = some db') :
    recorded db' id = .ok (.accepted id actor request atMs) ∧
      ∀ id', id' ≠ id → recorded db' id' = recorded db id' := by
  obtain ⟨hoperations, hevents, hfree, -⟩ := insertOperation_some hintent
  obtain ⟨hoperations', -, -⟩ := insertEvent_some hevent
  have heventsOf (value : String) : db₁.eventsOf value = db.eventsOf value := by
    rw [Db.eventsOf, hevents]
    rfl
  have hnone : db.eventsOf id.value = [] := by
    rw [Db.eventsOf, List.filter_eq_nil_iff]
    intro e he hid
    exact hfree (of_decide_eq_true hid ▸ h.owned e he)
  constructor
  · have hfind : db'.operations.find? (·.id = id.value) = some ⟨id.value,
        actor.identity.subject.value, request.idempotencyKey.value,
        (request.fingerprint sha256).value,
        json Operation.codec (.intent id actor request ⟨request.action, request.target⟩)⟩ := by
      have habsent : db.operations.find? (·.id = id.value) = none := by
        rw [List.find?_eq_none]
        intro o ho hid
        exact hfree (List.mem_map.2 ⟨o, ho, of_decide_eq_true hid⟩)
      rw [hoperations', hoperations, List.find?_append, habsent]
      simp
    have hhistory : db'.history id.value = [json Event.codec
        (.acceptedAt atMs actor ⟨request.action, request.target⟩)] := by
      have hone : db'.eventsOf id.value = [⟨id.value, 1, json Event.codec
          (.acceptedAt atMs actor ⟨request.action, request.target⟩)⟩] := by
        rw [eventsOf_insertEvent hevent, heventsOf, hnone, if_pos rfl, List.nil_append]
      rw [Db.history, hone, List.mergeSort_singleton, List.map_singleton]
    have hadmits : Admits (.intent id actor request ⟨request.action, request.target⟩)
        (.acceptedAt atMs actor ⟨request.action, request.target⟩) := by
      refine ⟨rfl, Nat.le_of_ble_eq_true rfl, ?_, rfl⟩
      simp [attributed, Event.acceptedAt, Operation.intent]
    refine recorded_ok.2 ⟨_, _, hfind, decode_intent rfl rfl, ⟨rfl, rfl, rfl, rfl, rfl⟩, ?_, ?_⟩
    · rw [hhistory, List.foldlM_cons, replayEvent_json hadmits]
      rfl
    · simp [Operation.accepted, Operation.push]
  · intro id' hne
    have hvalue : id.value ≠ id'.value := fun heq => hne (Id.ext heq.symm)
    apply recorded_congr
    · rw [hoperations', hoperations, List.find?_append]
      simp [hvalue]
    · rw [eventsOf_insertEvent hevent, heventsOf, if_neg hvalue, List.append_nil]

theorem sound_accept (h : Sound sha256 db)
    (hintent : db.insertOperation ⟨id.value, actor.identity.subject.value,
      request.idempotencyKey.value, (request.fingerprint sha256).value,
      json Operation.codec (.intent id actor request ⟨request.action, request.target⟩)⟩ = some db₁)
    (hevent : db₁.insertEvent ⟨id.value, 1, json Event.codec
      (.acceptedAt atMs actor ⟨request.action, request.target⟩)⟩ = some db') :
    Sound sha256 db' := by
  obtain ⟨hoperations, hevents, hfree, hkey⟩ := insertOperation_some hintent
  obtain ⟨hoperations', hevents', howner⟩ := insertEvent_some hevent
  obtain ⟨hnew, hothers⟩ := recorded_accept h hintent hevent
  have heventsOf (value : String) : db₁.eventsOf value = db.eventsOf value := by
    rw [Db.eventsOf, hevents]
    rfl
  have hnone : db.eventsOf id.value = [] := by
    rw [Db.eventsOf, List.filter_eq_nil_iff]
    intro e he hid
    exact hfree (of_decide_eq_true hid ▸ h.owned e he)
  have hrows := hoperations'.trans hoperations
  refine ⟨?_, ?_, ?_, ?_, ?_, ?_⟩
  · rw [hrows, List.map_append, List.nodup_append_comm]
    exact List.nodup_cons.2 ⟨hfree, h.ids⟩
  · rw [hrows, List.map_append, List.nodup_append_comm]
    exact List.nodup_cons.2 ⟨hkey, h.keys⟩
  · refine sequences_insertEvent (fun value => ?_) ?_ hevent
    · rw [heventsOf]
      exact h.sequences value
    · change 1 = (db₁.eventsOf id.value).length + 1
      rw [heventsOf, hnone]
      rfl
  · rw [hevents', hevents, hrows, List.forall_mem_append]
    refine ⟨fun e he => ?_, List.forall_mem_singleton.2 ?_⟩
    · rw [List.map_append]
      exact List.mem_append_left _ (h.owned e he)
    · rw [← hoperations]
      exact howner
  · rw [hevents', hevents, List.forall_mem_append]
    exact ⟨h.texts, List.forall_mem_singleton.2 ⟨_, rfl⟩⟩
  · have hrow : Row sha256 ⟨id.value, actor.identity.subject.value,
        request.idempotencyKey.value, (request.fingerprint sha256).value,
        json Operation.codec (.intent id actor request ⟨request.action, request.target⟩)⟩
        (.accepted id actor request atMs) := ⟨rfl, rfl, rfl, rfl⟩
    rw [hrows, List.forall_mem_append]
    refine ⟨fun row hrow => ?_,
      List.forall_mem_singleton.2 ⟨.accepted id actor request atMs, hnew, hrow⟩⟩
    obtain ⟨op, hread, hcolumns⟩ := h.rows row hrow
    refine ⟨op, (hothers op.id fun heq => ?_).trans hread, hcolumns⟩
    exact hfree (List.mem_map.2 ⟨row, hrow, hcolumns.id.trans (congrArg Id.value heq)⟩)

end Accepting

theorem sound_write (h : Sound sha256 db) (hwrite : Write sha256 db db') : Sound sha256 db' := by
  cases hwrite with
  | accept id actor request atMs intent event => exact sound_accept h intent event
  | append prior admits insert => exact sound_append h prior admits insert

end Writing

section History

variable {sha256 : String → Ir.Digest} {db db' db'' : Db} {id : Id} {operation : Operation}

/-- No further event is valid. -/
def State.Final (state : State) : Prop := state = .succeeded ∨ state = .failed

instance (state : State) : Decidable state.Final :=
  inferInstanceAs (Decidable (state = .succeeded ∨ state = .failed))

theorem validNext_not_final {before state : State} {phase : Phase} {effect : Option Effect}
    (h : validNext before phase state effect = true) : ¬ before.Final := by
  rintro (rfl | rfl)
  · cases phase <;> simp [validNext] at h
  · cases phase <;> simp [validNext] at h

theorem recorded_events_ne_nil (hop : recorded db id = .ok operation) : operation.events ≠ [] := by
  obtain ⟨row, intent, -, -, -, -, hevents⟩ := recorded_ok.1 hop
  exact hevents

theorem Admits.validNext {event : Event} (h : Admits operation event)
    (hevents : operation.events ≠ []) :
    validNext operation.state event.phase event.state event.effect = true := by
  have hcontinues := h.continues
  rwa [Management.continues, List.isEmpty_eq_false_iff.2 hevents] at hcontinues

/-- The same operation with more events; none behind a final state. -/
structure Later (before after : Operation) : Prop where
  actor : after.actor = before.actor
  request : after.request = before.request
  events : before.events <+: after.events
  final : before.state.Final → after = before

theorem Later.refl (operation : Operation) : Later operation operation :=
  ⟨rfl, rfl, List.prefix_rfl, fun _ => rfl⟩

theorem Later.trans {a b c : Operation} (hab : Later a b) (hbc : Later b c) : Later a c where
  actor := hbc.actor.trans hab.actor
  request := hbc.request.trans hab.request
  events := hab.events.trans hbc.events
  final h := by
    have hb := hab.final h
    rw [hb] at hbc
    exact hbc.final h

theorem later_push {event : Event} (h : Admits operation event)
    (hevents : operation.events ≠ []) : Later operation (operation.push event) :=
  ⟨rfl, rfl, List.prefix_append _ _,
    fun hfinal => absurd hfinal (validNext_not_final (h.validNext hevents))⟩

/-- Every recorded operation is still recorded, with the same events and perhaps more. -/
def Extends (db db' : Db) : Prop :=
  ∀ id operation, recorded db id = .ok operation →
    ∃ operation', recorded db' id = .ok operation' ∧ Later operation operation'

theorem Extends.refl (db : Db) : Extends db db := fun _ operation h => ⟨operation, h, .refl _⟩

theorem Extends.trans (h : Extends db db') (h' : Extends db' db'') : Extends db db'' := by
  intro id operation hop
  obtain ⟨operation₁, hop₁, hlater⟩ := h id operation hop
  obtain ⟨operation₂, hop₂, hlater'⟩ := h' id operation₁ hop₁
  exact ⟨operation₂, hop₂, hlater.trans hlater'⟩

theorem extends_append {event : Event} (h : Sound sha256 db)
    (hop : recorded db operation.id = .ok operation) (hadmits : Admits operation event)
    (hinsert : db.insertEvent ⟨operation.id.value, operation.events.length + 1,
      json Event.codec event⟩ = some db') : Extends db db' := by
  obtain ⟨hsame, hothers⟩ := recorded_append h hop hadmits hinsert
  intro id op hread
  by_cases hid : id = operation.id
  · subst hid
    obtain rfl : operation = op := Except.ok.inj (hop.symm.trans hread)
    exact ⟨_, hsame, later_push hadmits (recorded_events_ne_nil hop)⟩
  · exact ⟨op, (hothers id hid).trans hread, .refl _⟩

theorem extends_accept {db₁ : Db} {actor : Actor} {request : Request} {atMs : UInt64}
    (h : Sound sha256 db)
    (hintent : db.insertOperation ⟨id.value, actor.identity.subject.value,
      request.idempotencyKey.value, (request.fingerprint sha256).value,
      json Operation.codec (.intent id actor request ⟨request.action, request.target⟩)⟩ = some db₁)
    (hevent : db₁.insertEvent ⟨id.value, 1, json Event.codec
      (.acceptedAt atMs actor ⟨request.action, request.target⟩)⟩ = some db') :
    Extends db db' := by
  obtain ⟨-, -, hfree, -⟩ := insertOperation_some hintent
  obtain ⟨-, hothers⟩ := recorded_accept h hintent hevent
  intro id' op hread
  have hne : id' ≠ id := by
    rintro rfl
    exact hfree (mem_ids_of_recorded hread)
  exact ⟨op, (hothers id' hne).trans hread, .refl _⟩

theorem extends_write (h : Sound sha256 db) (hwrite : Write sha256 db db') : Extends db db' := by
  cases hwrite with
  | accept id actor request atMs intent event => exact extends_accept h intent event
  | append prior admits insert => exact extends_append h prior admits insert

end History

section Lookup

variable {sha256 : String → Ir.Digest} {db : Db}

theorem Sound.row_of_recorded (h : Sound sha256 db) {id : Id} {operation : Operation}
    (hop : recorded db id = .ok operation) : ∃ row ∈ db.operations, Row sha256 row operation := by
  obtain ⟨row, hrow, hvalue⟩ := List.mem_map.1 (mem_ids_of_recorded hop)
  obtain ⟨op, hread, hcolumns⟩ := h.rows row hrow
  obtain rfl : op.id = id := Id.ext (hcolumns.id.symm.trans hvalue)
  obtain rfl : op = operation := Except.ok.inj (hread.symm.trans hop)
  exact ⟨row, hrow, hcolumns⟩

/-- One operation for a subject and a key. -/
theorem Sound.eq_of_key (h : Sound sha256 db) {id id' : Id} {operation operation' : Operation}
    (hop : recorded db id = .ok operation) (hop' : recorded db id' = .ok operation')
    (hsubject : operation.actor.subject = operation'.actor.subject)
    (hkey : operation.request.idempotencyKey = operation'.request.idempotencyKey) : id = id' := by
  obtain ⟨row, hrow, hcolumns⟩ := h.row_of_recorded hop
  obtain ⟨row', hrow', hcolumns'⟩ := h.row_of_recorded hop'
  have hpair : (row.subject, row.idempotencyKey) = (row'.subject, row'.idempotencyKey) := by
    rw [hcolumns.subject, hcolumns.idempotencyKey, hcolumns'.subject, hcolumns'.idempotencyKey,
      hsubject, hkey]
  obtain rfl := List.inj_on_of_nodup_map h.keys hrow hrow' hpair
  rw [← recorded_id hop, ← recorded_id hop']
  exact Id.ext (hcolumns.id.symm.trans hcolumns'.id)

theorem lookupIn_of_row {row : OperationRow} {operation : Operation} {actor : Actor}
    {request : Request} (hfind : db.operations.find? (fun o =>
      o.subject = actor.identity.subject.value &&
        o.idempotencyKey = request.idempotencyKey.value) = some row)
    (hcolumns : Row sha256 row operation) (hop : recorded db operation.id = .ok operation) :
    lookupIn sha256 db actor request =
      if operation.request.fingerprint sha256 = request.fingerprint sha256 then
        .ok (some operation)
      else .error .conflict := by
  have hsame : row.fingerprint = (request.fingerprint sha256).value ↔
      operation.request.fingerprint sha256 = request.fingerprint sha256 := by
    rw [hcolumns.fingerprint]
    exact ⟨Digest.ext, congrArg Digest.value⟩
  simp only [lookupIn, hfind, ne_eq, hsame]
  by_cases hdigest : operation.request.fingerprint sha256 = request.fingerprint sha256
  · simp only [hdigest, not_true_eq_false, decide_false, rejectIf_false, bind_of_ok, if_true,
      hcolumns.id, Id.new_value]
    change recorded db operation.id >>= _ = _
    rw [hop]
    rfl
  · simp only [hdigest, not_false_eq_true, decide_true, rejectIf_true, bind_of_error, if_false]

/-- Looking up a stored pair finds its operation, and refuses another command. -/
theorem lookupIn_sound (h : Sound sha256 db) {operation : Operation}
    (hop : recorded db operation.id = .ok operation) {actor : Actor} {request : Request}
    (hsubject : operation.actor.subject = actor.identity.subject)
    (hkey : operation.request.idempotencyKey = request.idempotencyKey) :
    lookupIn sha256 db actor request =
      if operation.request.fingerprint sha256 = request.fingerprint sha256 then
        .ok (some operation)
      else .error .conflict := by
  obtain ⟨row, hrow, hcolumns⟩ := h.row_of_recorded hop
  refine lookupIn_of_row ?_ hcolumns hop
  have hmatch : (row.subject = actor.identity.subject.value &&
      row.idempotencyKey = request.idempotencyKey.value) = true := by
    simp [hcolumns.subject, hcolumns.idempotencyKey, hsubject, hkey]
  cases hfind : db.operations.find? (fun o => o.subject = actor.identity.subject.value &&
      o.idempotencyKey = request.idempotencyKey.value) with
  | none => exact absurd hmatch (List.find?_eq_none.1 hfind row hrow)
  | some found =>
      have hfound := List.find?_some hfind
      simp only [Bool.and_eq_true, decide_eq_true_eq] at hfound hmatch
      have hpair : (found.subject, found.idempotencyKey) = (row.subject, row.idempotencyKey) := by
        rw [hfound.1, hfound.2, hmatch.1, hmatch.2]
      rw [List.inj_on_of_nodup_map h.keys (List.mem_of_find?_eq_some hfind) hrow hpair]

/-- What a lookup reports: nothing, the stored operation of the pair, or a conflict. -/
theorem lookupIn_cases (h : Sound sha256 db) (actor : Actor) (request : Request) :
    lookupIn sha256 db actor request = .ok none ∨
      lookupIn sha256 db actor request = .error .conflict ∨
      ∃ operation, lookupIn sha256 db actor request = .ok (some operation) ∧
        recorded db operation.id = .ok operation := by
  cases hfind : db.operations.find? (fun o => o.subject = actor.identity.subject.value &&
      o.idempotencyKey = request.idempotencyKey.value) with
  | none => exact .inl (by rw [lookupIn, hfind])
  | some row =>
      obtain ⟨operation, hop, hcolumns⟩ := h.rows row (List.mem_of_find?_eq_some hfind)
      rw [lookupIn_of_row hfind hcolumns hop]
      split
      · exact .inr (.inr ⟨operation, rfl, hop⟩)
      · exact .inr (.inl rfl)

end Lookup

section Reads

variable {sha256 : String → Ir.Digest} {db : Db}

/-- A stored operation never fails to read. -/
theorem recorded_cases (h : Sound sha256 db) (id : Id) :
    recorded db id = .error .notFound ∨ ∃ operation, recorded db id = .ok operation := by
  cases hfind : db.operations.find? (·.id = id.value) with
  | none =>
      refine .inl ?_
      rw [recorded, hfind]
      rfl
  | some row =>
      obtain ⟨operation, hop, hcolumns⟩ := h.rows row (List.mem_of_find?_eq_some hfind)
      have hvalue : row.id = id.value := by simpa using List.find?_some hfind
      obtain rfl : operation.id = id := Id.ext (hcolumns.id.symm.trans hvalue)
      exact .inr ⟨operation, hop⟩

theorem stateOf_json (event : Event) :
    stateOf (json Event.codec event) = .ok (some event.state.name) := by
  have hparse : Json.parse 1000 (json Event.codec event).toList =
      some (Event.codec.encode event) := by
    rw [json, renderText, String.toList_ofList]
    exact parse_render _ (Nat.le_trans (Event.codec.depth_le event) (by decide))
  rw [stateOf, hparse]
  rfl

/-- The events that the recovery looks at are texts with a state. -/
theorem interrupted_ok (h : Sound sha256 db) : ∃ ids, db.interrupted = .ok ids ∧
    ∀ value ∈ ids, value ∈ db.operations.map (·.id) := by
  have hlast : ∀ entry ∈ db.lastEvents, entry.1 ∈ db.operations.map (·.id) ∧
      ∃ state, stateOf entry.2 = .ok state := by
    intro entry hentry
    obtain ⟨o, ho, hentry⟩ := List.mem_flatMap.1 hentry
    obtain ⟨e, he, rfl⟩ := List.mem_map.1 hentry
    have hevent : e ∈ db.events := List.mem_of_mem_filter (List.mem_of_mem_filter he)
    obtain ⟨event, htext⟩ := h.texts e hevent
    exact ⟨List.mem_map.2 ⟨o, ho, rfl⟩, _, htext ▸ stateOf_json event⟩
  obtain ⟨states, hstates, -⟩ : ∃ states, (db.lastEvents.mapM fun entry => do
      let state ← stateOf entry.2
      return (entry.1, state)) = .ok states ∧ states.length = db.lastEvents.length := by
    refine mapM_of_forall fun entry hentry => ?_
    obtain ⟨-, state, hstate⟩ := hlast entry hentry
    exact ⟨(entry.1, state), bind_ok.2 ⟨state, hstate, rfl⟩⟩
  have hids : ∀ entry ∈ states, entry.1 ∈ db.operations.map (·.id) := by
    intro entry hentry
    obtain ⟨last, hmem, hread⟩ := mapM_mem_ok hstates hentry
    obtain ⟨state, -, heq⟩ := bind_ok.1 hread
    cases heq
    exact (hlast last hmem).1
  refine ⟨_, (congrArg (· >>= _) hstates).trans rfl, ?_⟩
  intro value hvalue
  obtain ⟨⟨id, state⟩, hentry, hsome⟩ := List.mem_filterMap.1 hvalue
  obtain ⟨-, heq⟩ := Option.ite_none_right_eq_some.1 hsome
  cases heq
  exact hids _ hentry

/-- The state of an operation is that of its last event. -/
theorem last_event (h : Sound sha256 db) {id : Id} {operation : Operation}
    (hop : recorded db id = .ok operation) : ∃ event,
      (id.value, json Event.codec event) ∈ db.lastEvents ∧ operation.state = event.state := by
  obtain ⟨row, intent, hrow, -, hintent, hreplay, hevents⟩ := recorded_ok.1 hop
  have hsequences := h.sequences id.value
  have hlength := h.length_events hop
  rw [history_eq hsequences] at hreplay
  rcases List.eq_nil_or_concat (db.eventsOf id.value) with hnil | ⟨before, last, hlast⟩
  · rw [hnil, List.length_nil, List.length_eq_zero_iff] at hlength
    exact absurd hlength hevents
  have hmem : last ∈ db.eventsOf id.value := by simp [hlast]
  obtain ⟨event, htext⟩ := h.texts last (List.mem_of_mem_filter hmem)
  refine ⟨event, ?_, ?_⟩
  · have hmax : ∀ e ∈ db.eventsOf id.value, e.sequence ≤ last.sequence := by
      rw [hlast, List.concat_eq_append, List.map_append, List.length_append, List.map_singleton,
        List.length_singleton, List.range'_concat, Nat.one_mul] at hsequences
      obtain ⟨hbefore, hnext⟩ := List.append_inj' hsequences rfl
      rw [List.cons.injEq] at hnext
      intro e he
      rw [hlast, List.concat_eq_append, List.mem_append, List.mem_singleton] at he
      rcases he with he | rfl
      · have hsmall := List.mem_map_of_mem (f := EventRow.sequence) he
        rw [hbefore, List.mem_range'_1] at hsmall
        omega
      · exact Nat.le_refl _
    refine List.mem_flatMap.2 ⟨row, List.mem_of_find?_eq_some hrow, ?_⟩
    have hvalue : row.id = id.value := by simpa using List.find?_some hrow
    rw [hvalue, ← htext]
    refine List.mem_map.2 ⟨last, List.mem_filter.2 ⟨hmem, ?_⟩, rfl⟩
    exact List.all_eq_true.2 fun e he => decide_eq_true (hmax e he)
  · rw [hlast, List.concat_eq_append, List.map_append, List.foldlM_append] at hreplay
    obtain ⟨prior, -, hreplay⟩ := bind_ok.1 hreplay
    rw [List.map_singleton, List.foldlM_cons, htext] at hreplay
    obtain ⟨after, hafter, hreplay⟩ := bind_ok.1 hreplay
    rw [← pure_ok.1 hreplay, replayEvent_json_ok hafter]
    rfl

/-- The recovery finds every operation that is queued or running. -/
theorem interrupted_complete (h : Sound sha256 db) {ids : List String}
    (hids : db.interrupted = .ok ids) {id : Id} {operation : Operation}
    (hop : recorded db id = .ok operation)
    (hstate : operation.state = .queued ∨ operation.state = .running) : id.value ∈ ids := by
  obtain ⟨event, hlast, hevent⟩ := last_event h hop
  rw [Db.interrupted] at hids
  obtain ⟨states, hstates, hids⟩ := bind_ok.1 hids
  rw [← pure_ok.1 hids]
  have hmem : (id.value, some event.state.name) ∈ states := by
    refine mapM_mem hstates hlast ?_
    simp only [stateOf_json, bind_of_ok]
    rfl
  refine List.mem_filterMap.2 ⟨_, hmem, ?_⟩
  rw [hevent] at hstate
  rcases hstate with hstate | hstate
  · rw [hstate]
    rfl
  · rw [hstate]
    rfl

end Reads

end ResponseGateway.Management
