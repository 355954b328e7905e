import ResponseGateway.Library.Matching
import ResponseGateway.Recorder.Retention

/-!
What an export leaves of the outbox, whatever it is answered. A row is committed only when
the receipts as a whole match the events that were sent, one by one, and the one for its
event accepts it.
-/

namespace ResponseGateway.Recorder
open Checked Usage

section Statement

variable (digest : Text → String)

/-- What one destination is sent in a run, and the tables before and after it. -/
structure Sending where
  destination : Destination
  surroundings : Surroundings
  before : Store
  after : Store

namespace Sending

variable (x : Sending)

def entries : List (RecordedEvent × Nat) :=
  (batch digest 128 (x.before.due x.destination.id x.surroundings.now)).toOption.getD []

def events : List RecordedEvent := (x.entries digest).map Prod.fst

def answered : ExportAnswer :=
  match refusal x.destination (x.events digest) with
  | some error => .error error
  | none => x.surroundings.answer (x.events digest)

/-- A row of an event that is sent. -/
def Sends (o : OutboxRow) : Prop :=
  o.destination = x.destination.id ∧ ∃ e ∈ x.events digest, nameOf e = o.event

end Sending

/-- The sendings of a run, one after the other. -/
def sendings : List (Destination × Surroundings) → Store → List Sending
  | [], _ => []
  | (d, w) :: rest, s =>
      match exportTo digest d w.now w.answer w.clock s with
      | .error _ => []
      | .ok (_, s') => ⟨d, w, s, s'⟩ :: sendings rest s'

/-- A receipt of the stored bytes of an event. -/
def Matches (e : RecordedEvent) (r : Receipt) : Bool :=
  r.producerId = e.view.producerId && r.eventId = e.view.eventId &&
    e.bytes.toOption.any fun b => r.sha256 = digest b

/-- The receipts match the events one by one, and the one for an event accepts it. -/
structure Acknowledged (events : List RecordedEvent) (receipts : List Receipt)
    (e : RecordedEvent) : Prop where
  length : receipts.length = events.length
  single : ∀ e ∈ events, (receipts.filter (Matches digest e)).length = 1
  accepted : ∃ r ∈ receipts, Matches digest e r = true ∧
    (r.status = .committed ∨ r.status = .duplicate)

/-- The delay after a count of attempts, unless an operation overflows. The count is added to
and capped as a signed number, and the shift must be below the width of the number. -/
def backoff (attempts : Int) : Option Nat :=
  let n := min (attempts + 1) (2 ^ 63 - 1)
  let shift := min n 8
  if 0 ≤ shift ∧ shift < 64 then some (min (1000 * 2 ^ shift.toNat) (2 ^ 64 - 1)) else none

/-- What a sending makes of a row. -/
structure Sending.Moves (x : Sending) (o o' : OutboxRow) : Prop where
  key : o'.key = o.key
  unsent : ¬x.Sends digest o → o' = o
  retryable : x.Sends digest o → ∀ error, x.answered digest = .error error →
    error.isPermanent = false → o'.state = .pending
  committed : x.Sends digest o → o'.state = .committed → ∃ e ∈ x.events digest,
    nameOf e = o.event ∧ ∃ receipts, x.answered digest = .ok receipts ∧
      Acknowledged digest (x.events digest) receipts e
  delayed : x.Sends digest o → ∃ now delay, backoff o.attempts = some delay ∧ delay ≤ 256000 ∧
    o'.nextAtMs = asI64 (min (now + delay) (2 ^ 64 - 1))

/-- What holds of a sending. -/
structure Exported (x : Sending) : Prop where
  rows : List.Forall₂ (x.Moves digest) x.before.outbox x.after.outbox
  nonempty : (∃ o ∈ x.before.outbox, o.destination = x.destination.id ∧ o.state = .pending ∧
    o.nextAtMs ≤ asI64 x.surroundings.now) → x.events digest ≠ []
  fits : ∃ payloads : List Text, (x.events digest).map (·.bytes) = payloads.map .ok ∧
    128 + (payloads.map fun b => b.len + 1).sum ≤ 1048576
  few : (x.events digest).length ≤ 100

end Statement

section Selections

variable {digest : Text → String} {s : Store} {destination : String} {now : Nat}

/-- A due row as its event was recorded. -/
structure Pending.Reads (digest : Text → String) (p : Pending) (x : RecordedEvent × Nat) : Prop where
  row : RowOf digest x.1 p.row
  attempts : x.2 = p.attempts

theorem Pending.Reads.stored {p : Pending} {x : RecordedEvent × Nat} (h : p.Reads digest x) :
    RecordedEvent.fromStoredBytes digest p.row.payload p.row.sha256 = .ok x.1 := by
  rw [h.row.sha256]
  exact fromStoredBytes_bytes digest h.row.payload

theorem Pending.Reads.short {p : Pending} {x : RecordedEvent × Nat} (h : p.Reads digest x) :
    p.row.payload.len ≤ 65536 := (bytes_ok h.row.payload).2.2

/-- A batch is what fits of the rows, in their order, and never fails on what was recorded. -/
theorem batch_ok {rows : List Pending} {read : Pending → RecordedEvent × Nat}
    (hrows : ∀ p ∈ rows, p.Reads digest (read p)) (bytes : Nat) :
    ∃ taken, taken <+: rows ∧ batch digest bytes rows = .ok (taken.map read) ∧
      (bytes ≤ 1048576 → bytes + (taken.map fun p => p.row.payload.len + 1).sum ≤ 1048576) ∧
      (bytes + 65537 ≤ 1048576 → rows ≠ [] → taken ≠ []) := by
  induction rows generalizing bytes with
  | nil => exact ⟨[], List.prefix_rfl, rfl, fun h => h, fun _ h => absurd rfl h⟩
  | cons p rest ih =>
      obtain ⟨hp, hrest⟩ := List.forall_mem_cons.1 hrows
      rw [batch, hp.stored]
      simp only [Except.mapError, bind_of_ok]
      split
      · next hwide =>
          refine ⟨[], List.nil_prefix, rfl, fun h => h, fun hbytes _ => ?_⟩
          have := hp.short
          omega
      · next hfits =>
          obtain ⟨taken, hinit, hbatch, hsum, -⟩ := ih hrest (bytes + p.row.payload.len + 1)
          refine ⟨p :: taken, List.cons_prefix_cons.2 ⟨rfl, hinit⟩, ?_, fun _ => ?_,
            fun _ _ => List.cons_ne_nil _ _⟩
          · rw [hbatch, ← hp.attempts]
            rfl
          · have := hsum (Nat.not_lt.1 hfits)
            rw [List.map_cons, List.sum_cons]
            omega

/-- The rows that are joined, before they are put in order. -/
def Store.joined (s : Store) (destination : String) (now : Nat) : List Pending :=
  (s.outbox.filter fun o => o.destination = destination &&
    (o.state = .pending && decide (o.nextAtMs ≤ asI64 now))).flatMap fun o =>
      (s.events.filter (·.event = o.event)).map fun e => ⟨e, o.attempts⟩

theorem due_perm (s : Store) (destination : String) (now : Nat) :
    ∃ l : List Pending, l.Perm (s.joined destination now) ∧ s.due destination now = l.take 100 :=
  ⟨_, List.mergeSort_perm _ _, rfl⟩

theorem mem_joined {p : Pending} : p ∈ s.joined destination now ↔ ∃ o ∈ s.outbox,
    (o.destination = destination ∧ o.state = .pending ∧ o.nextAtMs ≤ asI64 now) ∧
      p.row ∈ s.events ∧ p.row.event = o.event ∧ p.attempts = o.attempts := by
  simp only [Store.joined, List.mem_flatMap, List.mem_filter, Bool.and_eq_true, decide_eq_true_iff,
    List.mem_map]
  constructor
  · rintro ⟨o, ⟨ho, hdue⟩, e, ⟨he, hevent⟩, rfl⟩
    exact ⟨o, ho, hdue, he, hevent, rfl⟩
  · rintro ⟨o, ho, hdue, he, hevent, hattempts⟩
    refine ⟨o, ⟨ho, hdue⟩, p.row, ⟨he, hevent⟩, ?_⟩
    cases p
    cases hattempts
    rfl

theorem joined_apart (hs : Intact digest s) :
    (s.joined destination now).Pairwise fun p p' => p.row.event ≠ p'.row.event := by
  have hevents : s.events.Pairwise fun e e' => e.event ≠ e'.event := by
    refine hs.distinct_events.imp fun {e e'} hclash hsame => ?_
    rw [Table.byKey, clash_iff.2 (.inl hsame)] at hclash
    cases hclash
  have hkeys : s.outbox.Pairwise fun o o' => o.key ≠ o'.key := List.pairwise_map.1 hs.outbox
  refine List.pairwise_flatMap.2 ⟨fun o _ => ?_, ?_⟩
  · exact List.pairwise_map.2 (hevents.filter _)
  · refine (hkeys.filter _).imp_of_mem fun {o o'} ho ho' hne p hp p' hp' => ?_
    simp only [List.mem_map, List.mem_filter, Bool.and_eq_true, decide_eq_true_iff] at ho ho' hp hp'
    obtain ⟨e, ⟨-, he⟩, rfl⟩ := hp
    obtain ⟨e', ⟨-, he'⟩, rfl⟩ := hp'
    intro hsame
    refine hne (Prod.ext (he.symm.trans (hsame.trans he')) ?_)
    exact ho.2.1.trans ho'.2.1.symm

theorem due_apart (hs : Intact digest s) :
    (s.due destination now).Pairwise fun p p' => p.row.event ≠ p'.row.event := by
  obtain ⟨l, hperm, hdue⟩ := due_perm s destination now
  rw [hdue]
  refine List.Pairwise.sublist (List.take_sublist 100 l) ?_
  exact (hperm.pairwise_iff fun {p p'} hne => Ne.symm hne).2 (joined_apart hs)

theorem mem_due {p : Pending} (hp : p ∈ s.due destination now) : ∃ o ∈ s.outbox,
    (o.destination = destination ∧ o.state = .pending ∧ o.nextAtMs ≤ asI64 now) ∧
      p.row ∈ s.events ∧ p.row.event = o.event ∧ p.attempts = o.attempts := by
  obtain ⟨l, hperm, hdue⟩ := due_perm s destination now
  rw [hdue] at hp
  exact mem_joined.1 (hperm.mem_iff.1 (List.mem_of_mem_take hp))

theorem due_ne_nil (hs : Intact digest s) (hrow : ∃ o ∈ s.outbox, o.destination = destination ∧
    o.state = .pending ∧ o.nextAtMs ≤ asI64 now) : s.due destination now ≠ [] := by
  obtain ⟨o, ho, hdue⟩ := hrow
  obtain ⟨e, he, hevent⟩ := hs.delivered o ho
  have hmem : (⟨e, o.attempts⟩ : Pending) ∈ s.joined destination now :=
    mem_joined.2 ⟨o, ho, hdue, he, hevent, rfl⟩
  obtain ⟨l, hperm, htake⟩ := due_perm s destination now
  rw [htake, ne_eq, List.take_eq_nil_iff, not_or]
  refine ⟨by decide, fun hnil => ?_⟩
  rw [hnil] at hperm
  rw [← hperm.nil_eq] at hmem
  cases hmem
variable (destination now) in

theorem due_reads (hs : Intact digest s) : ∃ read : Pending → RecordedEvent × Nat,
    ∀ p ∈ s.due destination now, p.Reads digest (read p) := by
  have hreads : ∀ p ∈ s.due destination now, ∃ x, p.Reads digest x := by
    intro p hp
    obtain ⟨o, -, -, hrow, -, -⟩ := mem_due hp
    obtain ⟨event, hevent, -⟩ := hs.live p.row hrow
    exact ⟨(event, p.attempts), rowOf_ok hevent, rfl⟩
  have : Nonempty (RecordedEvent × Nat) := ⟨startedEvent, 0⟩
  choose! read hread using hreads
  exact ⟨read, hread⟩

end Selections

section Batches

variable {digest : Text → String} {x : Sending}

/-- What is sent of an intact store. -/
structure Sending.Selected (digest : Text → String) (x : Sending) : Prop where
  batch : Recorder.batch digest 128 (x.before.due x.destination.id x.surroundings.now) =
    .ok (x.entries digest)
  names : ((x.events digest).map nameOf).Nodup
  row : ∀ entry ∈ x.entries digest, ∃ o ∈ x.before.outbox, o.destination = x.destination.id ∧
    o.event = nameOf entry.1 ∧ entry.2 = o.attempts
  nonempty : (∃ o ∈ x.before.outbox, o.destination = x.destination.id ∧ o.state = .pending ∧
    o.nextAtMs ≤ asI64 x.surroundings.now) → x.events digest ≠ []
  fits : ∃ payloads : List Text, (x.events digest).map (·.bytes) = payloads.map .ok ∧
    128 + (payloads.map fun b => b.len + 1).sum ≤ 1048576
  few : (x.events digest).length ≤ 100

theorem Sending.selected (hs : Intact digest x.before) : x.Selected digest := by
  obtain ⟨read, hread⟩ := due_reads x.destination.id x.surroundings.now hs
  obtain ⟨taken, hinit, hbatch, hsum, hnonempty⟩ := batch_ok hread 128
  have hentries : x.entries digest = taken.map read := by
    rw [Sending.entries, hbatch]
    rfl
  have hevents : x.events digest = taken.map fun p => (read p).1 := by
    rw [Sending.events, hentries, List.map_map]
    rfl
  have htaken : ∀ p ∈ taken, p.Reads digest (read p) := fun p hp => hread p (hinit.subset hp)
  refine ⟨hentries ▸ hbatch, ?_, ?_, fun hdue => ?_, ⟨taken.map (·.row.payload), ?_, ?_⟩, ?_⟩
  · have hnames : (x.events digest).map nameOf = taken.map (·.row.event) := by
      rw [hevents, List.map_map]
      exact List.map_congr_left fun p hp => ((htaken p hp).row.named).symm
    rw [hnames]
    exact List.pairwise_map.2 ((due_apart hs).sublist hinit.sublist)
  · rw [hentries]
    refine List.forall_mem_map.2 fun p hp => ?_
    obtain ⟨o, ho, hdue, -, hevent, hattempts⟩ := mem_due (hinit.subset hp)
    exact ⟨o, ho, hdue.1, hevent.symm.trans (htaken p hp).row.named,
      (htaken p hp).attempts.trans hattempts⟩
  · rw [hevents]
    exact fun hnil => hnonempty (by decide) (due_ne_nil hs hdue) (List.map_eq_nil_iff.1 hnil)
  · rw [hevents, List.map_map, List.map_map]
    exact List.map_congr_left fun p hp => (htaken p hp).row.payload
  · rw [List.map_map]
    exact hsum (by decide)
  · rw [hevents, List.length_map]
    exact hinit.length_le.trans (List.length_take_le _ _)

end Batches

section Updates

variable {digest : Text → String} {x : Sending}

/-- What one update makes of a row. -/
def settleRow (destination : String) (e : RecordedEvent) (state : DeliveryState)
    (attempts now : Nat) (o : OutboxRow) : OutboxRow :=
  if o.event = (e.view.producerId, e.view.eventId) && o.destination = destination then
    { o with state, attempts, nextAtMs := retryAt now attempts }
  else o

theorem settle_rows {α : Type*} (f : α → OutboxRow → OutboxRow) (l : List α) (s : Store) :
    l.foldl (fun s a => { s with outbox := s.outbox.map (f a) }) s =
      { s with outbox := s.outbox.map fun o => l.foldl (fun o a => f a o) o } := by
  induction l generalizing s with
  | nil => rw [List.foldl_nil, List.map_congr_left fun o _ => List.foldl_nil, List.map_id']
  | cons a rest ih =>
      rw [List.foldl_cons, ih, List.map_map]
      rfl

theorem settleRow_other {destination : String} {e : RecordedEvent} {o : OutboxRow}
    (h : ¬(o.destination = destination ∧ nameOf e = o.event)) (state : DeliveryState)
    (attempts now : Nat) : settleRow destination e state attempts now o = o := by
  refine if_neg fun hsame => h ?_
  simp only [Bool.and_eq_true, decide_eq_true_iff] at hsame
  exact ⟨hsame.2, hsame.1.symm⟩

theorem settleRow_own {destination : String} {e : RecordedEvent} {o : OutboxRow}
    (hdestination : o.destination = destination) (hname : nameOf e = o.event)
    (state : DeliveryState) (attempts now : Nat) : settleRow destination e state attempts now o =
      { o with state, attempts, nextAtMs := retryAt now attempts } := by
  refine if_pos ?_
  simp only [Bool.and_eq_true, decide_eq_true_iff]
  exact ⟨hname.symm, hdestination⟩

section Folding

variable {destination : String} (state : RecordedEvent → DeliveryState) (clock : Nat → Nat)

/-- All updates of one row. -/
def settleAll (destination : String) (l : List ((RecordedEvent × Nat) × Nat)) (o : OutboxRow) :
    OutboxRow :=
  l.foldl (fun o a => settleRow destination a.1.1 (state a.1.1) (again a.1.2) (clock a.2) o) o

theorem settleAll_other {l : List ((RecordedEvent × Nat) × Nat)} {o : OutboxRow}
    (h : ∀ a ∈ l, ¬(o.destination = destination ∧ nameOf a.1.1 = o.event)) :
    settleAll state clock destination l o = o := by
  induction l with
  | nil => rfl
  | cons a rest ih =>
      obtain ⟨hfirst, hrest⟩ := List.forall_mem_cons.1 h
      rw [settleAll, List.foldl_cons, settleRow_other hfirst]
      exact ih hrest

/-- A row is updated once, by the update for its event. -/
theorem settleAll_own {l : List ((RecordedEvent × Nat) × Nat)}
    (hnames : (l.map fun a => nameOf a.1.1).Nodup) {o : OutboxRow}
    (hdestination : o.destination = destination) {a : (RecordedEvent × Nat) × Nat} (ha : a ∈ l)
    (hname : nameOf a.1.1 = o.event) : settleAll state clock destination l o =
      { o with
        state := state a.1.1
        attempts := again a.1.2
        nextAtMs := retryAt (clock a.2) (again a.1.2) } := by
  induction l with
  | nil => cases ha
  | cons b rest ih =>
      obtain ⟨hnew, hrest⟩ := List.nodup_cons.1 hnames
      rw [settleAll, List.foldl_cons]
      rcases List.mem_cons.1 ha with rfl | ha
      · rw [settleRow_own hdestination hname]
        refine settleAll_other state clock ?_
        rintro c hc ⟨-, hsame⟩
        exact hnew (List.mem_map.2 ⟨c, hc, hsame.trans hname.symm⟩)
      · rw [settleRow_other]
        · exact ih hrest ha
        · rintro ⟨-, hsame⟩
          exact hnew (List.mem_map.2 ⟨a, ha, hname.trans hsame.symm⟩)

end Folding

end Updates

section Answers

variable {digest : Text → String} {events : List RecordedEvent} {receipts : List Receipt}
  {answer : ExportAnswer} {e : RecordedEvent}

theorem confirms_eq (e : RecordedEvent) (r : Receipt) : r.confirms digest e = Matches digest e r := by
  rw [Receipt.confirms, Receipt.names, Matches, Bool.and_comm (decide (r.eventId = _))]
  congr 2
  funext b
  exact decide_eq_decide.2 eq_comm

/-- A receipt for an event is the one that matches it, where the answer as a whole is valid. -/
theorem matches_of_names (hnames : (events.map nameOf).Nodup)
    (hvalid : valid digest events receipts = true) (he : e ∈ events) {r : Receipt}
    (hr : r ∈ receipts) (hr' : r.names e = true) : Matches digest e r = true := by
  simp only [valid, Bool.and_eq_true, decide_eq_true_iff, List.all_eq_true, confirms_eq] at hvalid
  have hname : ∀ {e' : RecordedEvent}, r.names e' = true → nameOf e' = (r.producerId, r.eventId) := by
    intro e' h
    simp only [Receipt.names, Bool.and_eq_true, decide_eq_true_iff] at h
    exact Prod.ext h.2.symm h.1.symm
  have hapart : Matching.Apart (Matches digest) events := by
    refine (List.pairwise_map.1 hnames).imp fun {a a'} hne b hb => ?_
    cases hb' : Matches digest a' b with
    | false => rfl
    | true =>
        simp only [Matches, Bool.and_eq_true, decide_eq_true_iff] at hb hb'
        exact absurd (Prod.ext (hb.1.1.symm.trans hb'.1.1) (hb.1.2.symm.trans hb'.1.2)) hne
  have hcovers := Matching.Single.covers (R := Matches digest) hvalid.2 hapart hvalid.1
  obtain ⟨e', he', hmatch⟩ := hcovers r hr
  have hnamed : r.names e' = true := by
    rw [← confirms_eq, Receipt.confirms, Bool.and_eq_true] at hmatch
    exact hmatch.1
  obtain rfl := List.inj_on_of_nodup_map hnames he' he ((hname hnamed).trans (hname hr').symm)
  exact hmatch

theorem stateFor_pending {error : ExportError} (h : error.isPermanent = false) :
    stateFor digest events (.error error) e = .pending := by
  cases error with
  | other text => rfl
  | unsupportedUsageExportContract => cases h
  | permanentExportError => cases h
  | invalidExportAck => cases h
  | invalidExportUrl => cases h
  | emptyExportCredential => cases h
  | unsupportedRemoteSchema => cases h

theorem stateFor_committed (hnames : (events.map nameOf).Nodup) (he : e ∈ events)
    (h : stateFor digest events answer e = .committed) :
    ∃ receipts, answer = .ok receipts ∧ Acknowledged digest events receipts e := by
  cases answer with
  | error error =>
      cases error with
      | other text => cases h
      | unsupportedUsageExportContract => cases h
      | permanentExportError => cases h
      | invalidExportAck => cases h
      | invalidExportUrl => cases h
      | emptyExportCredential => cases h
      | unsupportedRemoteSchema => cases h
  | ok receipts =>
      rw [stateFor] at h
      split at h
      · next hvalid =>
          refine ⟨receipts, rfl, ?_, ?_, ?_⟩
          · simp only [valid, Bool.and_eq_true, decide_eq_true_iff] at hvalid
            exact hvalid.1
          · simp only [valid, Bool.and_eq_true, decide_eq_true_iff, List.all_eq_true,
              confirms_eq] at hvalid
            exact hvalid.2
          · cases hfind : receipts.find? (·.names e) with
            | none =>
                rw [hfind] at h
                cases h
            | some r =>
                have hmatch := matches_of_names hnames hvalid he (List.mem_of_find?_eq_some hfind)
                  (List.find?_some (p := fun r : Receipt => r.names e) hfind)
                refine ⟨r, List.mem_of_find?_eq_some hfind, hmatch, ?_⟩
                rw [hfind] at h
                cases hstatus : r.status with
                | committed => exact .inl rfl
                | duplicate => exact .inr rfl
                | conflict =>
                    simp only [Option.map_some, hstatus] at h
                    cases h
                | rejected =>
                    simp only [Option.map_some, hstatus] at h
                    cases h
      · cases h

/-- The delay of a stored count. -/
theorem backoff_count (attempts : Nat) :
    backoff attempts = some (1000 * 2 ^ min (again attempts) 8) ∧
      1000 * 2 ^ min (again attempts) 8 ≤ 256000 := by
  have hshift : (min (min ((attempts : Int) + 1) (2 ^ 63 - 1)) 8) =
      ((min (again attempts) 8 : Nat) : Int) := by
    rw [again]
    push_cast
    rfl
  have hpow : 2 ^ min (again attempts) 8 ≤ 2 ^ 8 :=
    Nat.pow_le_pow_right (by decide) (Nat.min_le_right _ _)
  refine ⟨?_, by omega⟩
  rw [backoff, hshift, if_pos ⟨Int.natCast_nonneg _, by omega⟩, Int.toNat_natCast, Nat.min_eq_left]
  omega

end Answers

section Exports

variable {digest : Text → String} {s : Store} {x : Sending} {sent : Nat}

/-- The tables after a sending. -/
theorem Sending.after_eq (hs : Intact digest x.before)
    (h : exportTo digest x.destination x.surroundings.now x.surroundings.answer
      x.surroundings.clock x.before = .ok (sent, x.after)) :
    x.after = { x.before with
      outbox := x.before.outbox.map (settleAll (stateFor digest (x.events digest)
        (x.answered digest)) x.surroundings.clock x.destination.id
          (x.entries digest).zipIdx) } := by
  simp only [exportTo, (x.selected hs).batch, bind_of_ok] at h
  generalize x.after = after at h ⊢
  split at h
  · next hempty =>
      have hnil : x.entries digest = [] := List.map_eq_nil_iff.1 (List.isEmpty_iff.1 hempty)
      cases h
      rw [hnil]
      exact congrArg (fun outbox => { x.before with outbox }) (List.map_id x.before.outbox).symm
  · cases h
    exact settle_rows (fun a : (RecordedEvent × Nat) × Nat => settleRow x.destination.id a.1.1
      (stateFor digest (x.events digest) (x.answered digest) a.1.1) (again a.1.2)
      (x.surroundings.clock a.2)) _ _

theorem Sending.exported (hs : Intact digest x.before)
    (h : exportTo digest x.destination x.surroundings.now x.surroundings.answer
      x.surroundings.clock x.before = .ok (sent, x.after)) : Exported digest x := by
  have hselected := x.selected hs
  refine ⟨?_, hselected.nonempty, hselected.fits, hselected.few⟩
  rw [x.after_eq hs h, List.forall₂_map_right_iff]
  refine List.forall₂_same.2 fun o ho => ?_
  have hnames : ((x.entries digest).zipIdx.map fun a => nameOf a.1.1).Nodup := by
    have hfst : (x.entries digest).zipIdx.map (fun a => nameOf a.1.1) =
        (x.events digest).map nameOf := by
      rw [Sending.events, List.map_map, ← List.zipIdx_map_fst 0 (x.entries digest), List.map_map,
        List.zipIdx_map_fst]
      rfl
    rw [hfst]
    exact hselected.names
  by_cases hsends : x.Sends digest o
  · obtain ⟨hdestination, e, he, hname⟩ := id hsends
    obtain ⟨entry, hentry, rfl⟩ := List.mem_map.1 he
    obtain ⟨i, hi⟩ : ∃ i, (entry, i) ∈ (x.entries digest).zipIdx := by
      rw [← List.zipIdx_map_fst 0 (x.entries digest)] at hentry
      obtain ⟨a, ha, rfl⟩ := List.mem_map.1 hentry
      exact ⟨a.2, ha⟩
    have hattempts : entry.2 = o.attempts := by
      obtain ⟨o', ho', hdestination', hevent, heq⟩ := hselected.row entry hentry
      have hsame : o' = o := List.inj_on_of_nodup_map hs.outbox ho' ho
        (Prod.ext (hevent.trans hname) (hdestination'.trans hdestination.symm))
      rw [heq, hsame]
    rw [settleAll_own _ _ hnames hdestination hi hname]
    refine ⟨rfl, fun hno => absurd hsends hno, fun _ error herror hretry => ?_, fun _ hstate => ?_,
      fun _ => ⟨x.surroundings.clock i, _, (backoff_count o.attempts).1,
        (backoff_count o.attempts).2, ?_⟩⟩
    · rw [herror]
      exact stateFor_pending hretry
    · obtain ⟨receipts, hanswer, hacknowledged⟩ := stateFor_committed hselected.names he hstate
      exact ⟨entry.1, he, hname, receipts, hanswer, hacknowledged⟩
    · rw [← hattempts]
      rfl
  · rw [settleAll_other]
    · exact ⟨rfl, fun _ => rfl, fun h => absurd h hsends, fun h => absurd h hsends,
        fun h => absurd h hsends⟩
    · rintro a ha ⟨hdestination, hname⟩
      refine hsends ⟨hdestination, a.1.1, ?_, hname⟩
      have hmem : a.1 ∈ x.entries digest := by
        rw [← List.zipIdx_map_fst 0 (x.entries digest)]
        exact List.mem_map_of_mem ha
      exact List.mem_map_of_mem hmem

/-- An export of an intact store does not fail. -/
theorem exportTo_ok (hs : Intact digest s) (d : Destination) (w : Surroundings) :
    ∃ sent s', exportTo digest d w.now w.answer w.clock s = .ok (sent, s') := by
  have hselected := Sending.selected (x := ⟨d, w, s, s⟩) hs
  simp only [exportTo, hselected.batch, bind_of_ok]
  split
  · exact ⟨_, _, rfl⟩
  · exact ⟨_, _, rfl⟩

/-- The last sending that touches a row decides; without one the row stays. -/
structure Chained (digest : Text → String) (targets : List (Destination × Surroundings))
    (s : Store) : Prop where
  succeeds : ∃ sent, (runOnce digest targets s).1 = .ok sent
  each : (sendings digest targets s).map (fun x => (x.destination, x.surroundings)) = targets
  exported : ∀ x ∈ sendings digest targets s, Exported digest x
  committed : ∀ o' ∈ (runOnce digest targets s).2.outbox, o'.state = .committed →
    (∃ o ∈ s.outbox, o.key = o'.key ∧ o.state = .committed) ∨
    ∃ x ∈ sendings digest targets s, o'.destination = x.destination.id ∧
      ∃ e ∈ x.events digest, nameOf e = o'.event ∧
        ∃ receipts, x.answered digest = .ok receipts ∧
          Acknowledged digest (x.events digest) receipts e
  unsent : ∀ o ∈ s.outbox, (∀ x ∈ sendings digest targets s, ¬x.Sends digest o) →
    o ∈ (runOnce digest targets s).2.outbox

theorem mem_of_forall₂ {α β : Type*} {R : α → β → Prop} {l : List α} {m : List β}
    (h : List.Forall₂ R l m) : (∀ b ∈ m, ∃ a ∈ l, R a b) ∧ ∀ a ∈ l, ∃ b ∈ m, R a b := by
  induction h with
  | nil => exact ⟨nofun, nofun⟩
  | @cons a b l m hab _ ih =>
      refine ⟨List.forall_mem_cons.2 ⟨⟨a, List.mem_cons_self, hab⟩, fun c hc => ?_⟩,
        List.forall_mem_cons.2 ⟨⟨b, List.mem_cons_self, hab⟩, fun c hc => ?_⟩⟩
      · obtain ⟨a', ha', hR⟩ := ih.1 c hc
        exact ⟨a', List.mem_cons_of_mem a ha', hR⟩
      · obtain ⟨b', hb', hR⟩ := ih.2 c hc
        exact ⟨b', List.mem_cons_of_mem b hb', hR⟩

/-- What a run of the export does, whatever the destinations answer. -/
theorem runOnce_chained (targets : List (Destination × Surroundings)) (hs : Sound digest s) :
    Chained digest targets s := by
  induction targets generalizing s with
  | nil => exact ⟨⟨0, rfl⟩, rfl, fun x hx => absurd hx List.not_mem_nil,
      fun o' ho' h => .inl ⟨o', ho', rfl, h⟩, fun o ho _ => ho⟩
  | cons target rest ih =>
      obtain ⟨d, w⟩ := target
      obtain ⟨sent, s', hexport⟩ := exportTo_ok hs.toIntact d w
      have hfirst : Exported digest ⟨d, w, s, s'⟩ := Sending.exported hs.toIntact hexport
      have hrest := ih (hs.settled (settled_exportTo hexport))
      obtain ⟨more, hmore⟩ := hrest.succeeds
      have hsendings : sendings digest ((d, w) :: rest) s =
          ⟨d, w, s, s'⟩ :: sendings digest rest s' := by
        rw [sendings, hexport]
      have hrun : runOnce digest ((d, w) :: rest) s =
          (.ok (sent + more), (runOnce digest rest s').2) := by
        rw [runOnce, hexport]
        simp only
        split
        · next heq =>
            rw [heq] at hmore ⊢
            rw [Except.ok.inj hmore]
        · next heq =>
            rw [heq] at hmore
            cases hmore
      obtain ⟨hback, hforth⟩ := mem_of_forall₂ hfirst.rows
      refine ⟨⟨sent + more, congrArg Prod.fst hrun⟩, ?_, ?_, ?_, ?_⟩
      · rw [hsendings, List.map_cons, hrest.each]
      · rw [hsendings]
        exact List.forall_mem_cons.2 ⟨hfirst, hrest.exported⟩
      · rw [hrun, hsendings]
        intro o' ho' hstate
        rcases hrest.committed o' ho' hstate with ⟨o₁, ho₁, hkey, hcommitted⟩ | ⟨x, hx, hlater⟩
        · obtain ⟨o, ho, hmoves⟩ := hback o₁ ho₁
          by_cases hsends : Sending.Sends digest ⟨d, w, s, s'⟩ o
          · obtain ⟨e, he, hname, hacknowledged⟩ := hmoves.committed hsends hcommitted
            have hsame : o.key = o'.key := hmoves.key.symm.trans hkey
            exact .inr ⟨_, List.mem_cons_self,
              (congrArg Prod.snd hsame).symm.trans hsends.1, e, he,
              hname.trans (congrArg Prod.fst hsame), hacknowledged⟩
          · obtain rfl := hmoves.unsent hsends
            exact .inl ⟨o₁, ho, hkey, hcommitted⟩
        · exact .inr ⟨x, List.mem_cons_of_mem _ hx, hlater⟩
      · rw [hrun, hsendings]
        intro o ho hnone
        obtain ⟨hfirstNone, hrestNone⟩ := List.forall_mem_cons.1 hnone
        obtain ⟨o', ho', hmoves⟩ := hforth o ho
        obtain rfl := hmoves.unsent hfirstNone
        exact hrest.unsent o' ho' hrestNone

/-- A recorded event that its destination confirms. -/
theorem runOnce_chained_attempt : ∃ (s : Store) (w : Surroundings),
    Run String.ofList (.empty 1) s ∧ Chained String.ofList [(.http "d" "u" "b", w)] s ∧
      ∃ o ∈ s.outbox, o.destination = "d" ∧ o.state = .pending ∧ o.nextAtMs ≤ asI64 w.now := by
  have hinj : Function.Injective String.ofList := fun _ _ h => String.ofList_injective h
  have hstarted : startedEvent ∈ ({startedEvent, finishedEvent} : Set RecordedEvent) := by simp
  obtain ⟨statuses, s, hdeliver, htables, -⟩ := tables_empty.deliver
    ⟨[.http "d" "u" "b"], List.nodup_singleton _⟩ hinj consistent_attempt storable_attempt
    [startedEvent] (by simp) (by simp)
  obtain ⟨row, hrow⟩ := (storable_attempt _ hstarted).has_row String.ofList
  have hmem : row ∈ s.events := (htables.events row).2 ⟨startedEvent, by simp, hrow⟩
  refine ⟨s, ⟨0, fun events => .ok (events.map fun e => ⟨e.view.producerId, e.view.eventId,
    (e.bytes.toOption.map String.ofList).getD "", .committed⟩), fun _ => 0⟩,
    run_of_deliver hdeliver, runOnce_chained _ htables.sound, ?_⟩
  exact ⟨Store.pendingAt row (.http "d" "u" "b"), (htables.outbox _).2 ⟨row, hmem, _,
    List.mem_singleton_self _, rfl⟩, rfl, rfl, le_refl 0⟩

end Exports

end ResponseGateway.Recorder
