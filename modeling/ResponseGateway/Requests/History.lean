import ResponseGateway.Library.Paging
import ResponseGateway.Requests.Ledger

/-!
The tables as a function of the calls that were served: every row is the trace of one of
them, and what the reading calls return is read off the same history.
-/

namespace ResponseGateway.Requests
open Checked Json Management Method Statements
open Team (Principal)

section Histories

/-- A call that was served, with what it drew and what it returned. -/
structure Served where
  call : Call
  draw : Draw
  reply : Reply

inductive Evidence where
  | headers (value : Headers)
  | finished (value : Finished)
  deriving DecidableEq, Repr

namespace Evidence

def phase : Evidence → Phase
  | .headers _ => .headers
  | .finished _ => .finished

def text : Evidence → String
  | .headers value => json Headers.codec value
  | .finished value => json Finished.codec value

def headers? : Evidence → Option Headers
  | .headers value => some value
  | .finished _ => none

def finished? : Evidence → Option Finished
  | .headers _ => none
  | .finished value => some value

end Evidence

namespace Served

def admitted : Served → Option Admission
  | ⟨.admitRequest .., _, .admission a⟩ => some a
  | _ => none

def evidenced : Served → Option (Id × Evidence)
  | ⟨.headers a h, _, .done⟩ => some (a.id, .headers h)
  | ⟨.finish id transport, d, .done⟩ => d.now.map fun atMs => (id, .finished ⟨atMs, transport⟩)
  | _ => none

/-- The row that ties a request of a producer to an admission. -/
def linkRow (a : Admission) (h : Headers) : Option LinkRow :=
  match a.producer, h.gatewayRequest with
  | some producer, some gatewayRequest => some ⟨producer.value, gatewayRequest.value, a.id.value⟩
  | _, _ => none

def linked : Served → Option LinkRow
  | ⟨.headers a h, _, .done⟩ => linkRow a h
  | _ => none

def opened : Served → Option SessionIntent
  | ⟨.sessionIntent .., _, .intent s true⟩ => some s
  | _ => none

def bound : Served → Option SessionBinding
  | ⟨.bindSession intent internal, _, .done⟩ => some ⟨intent.id, internal, intent.originSha256⟩
  | _ => none

end Served

variable (past : List Served)

def admitted : List Admission := past.filterMap Served.admitted

def evidenced : List (Id × Evidence) := past.filterMap Served.evidenced

def opened : List SessionIntent := past.filterMap Served.opened

def bound : List SessionBinding := past.filterMap Served.bound

/-- The admissions with the numbers of their rows. -/
def numbered : List (Admission × Nat) := (admitted past).zipIdx 1

def RequestRow.of (x : Admission × Nat) : RequestRow :=
  ⟨x.2, x.1.id.value, x.1.subject.value, x.1.atMs.toNat, json Admission.codec x.1⟩

def EventRow.of (x : Id × Evidence) : EventRow := ⟨x.1.value, x.2.phase, x.2.text⟩

def SessionRow.of (s : SessionIntent) : SessionRow :=
  ⟨s.id.value, s.subject.value, s.idempotencyKey.value, json SessionIntent.codec s⟩

def BindingRow.of (b : SessionBinding) : BindingRow :=
  ⟨b.session.value, b.internal.value, json SessionBinding.codec b⟩

def written : Tables where
  requests := (numbered past).map RequestRow.of
  requestEvents := (evidenced past).map EventRow.of
  links := past.filterMap Served.linked
  sessions := (opened past).map SessionRow.of
  sessionBindings := (bound past).map BindingRow.of

/-- What the ledger relies on: short routes, room for cursors and unique keys. -/
structure Sound : Prop where
  routes : ∀ a ∈ admitted past, a.route.utf8ByteSize ≤ 256
  sessionRoutes : ∀ s ∈ opened past, s.route.utf8ByteSize ≤ 256
  few : (admitted past).length ≤ maxRequests
  requests : Table.Distinct RequestRow.clash (written past).requests
  requestEvents : Table.Distinct EventRow.clash (written past).requestEvents
  links : Table.Distinct LinkRow.clash (written past).links
  sessions : Table.Distinct SessionRow.clash (written past).sessions
  sessionBindings : Table.Distinct BindingRow.clash (written past).sessionBindings

theorem sound_nil : Sound [] where
  routes := fun _ h => absurd h List.not_mem_nil
  sessionRoutes := fun _ h => absurd h List.not_mem_nil
  few := Nat.zero_le _
  requests := .nil
  requestEvents := .nil
  links := .nil
  sessions := .nil
  sessionBindings := .nil

end Histories

section Tables

variable {past : List Served} {x : Served}

theorem numbered_append {a : Admission} (h : x.admitted = some a) :
    numbered (past ++ [x]) = numbered past ++ [(a, (admitted past).length + 1)] := by
  rw [numbered, numbered, admitted, List.filterMap_append, List.filterMap_cons_some h,
    List.zipIdx_append, ← admitted]
  rw [Nat.add_comm]
  rfl

theorem numbered_snd : (numbered past).map (·.2) = List.range' 1 (admitted past).length := by
  rw [numbered, List.zipIdx_map_snd]

theorem numbered_sorted : (numbered past).Pairwise fun x y => x.2 < y.2 := by
  have h : List.Pairwise (· < ·) (List.range' 1 (admitted past).length) :=
    List.pairwise_lt_range'
  rwa [← numbered_snd, List.pairwise_map] at h

theorem nextRowid_written : (written past).nextRowid = (admitted past).length + 1 := by
  have hrows : (written past).requests.map (·.rowid) =
      List.range' 1 (admitted past).length := by
    rw [← numbered_snd, written, List.map_map]
    rfl
  rw [Tables.nextRowid, hrows]
  cases hlength : (admitted past).length with
  | zero => rfl
  | succ n =>
      have hmax : (List.range' 1 (n + 1)).max? = some (n + 1) := by
        refine List.max?_eq_some_iff.2 ⟨List.mem_range'_1.2 (by omega), fun m hm => ?_⟩
        have := List.mem_range'_1.1 hm
        omega
      rw [hmax, Option.getD_some]

variable {t : Tables}

theorem insertRequest_eq {id subject intent : String} {admittedMs : Nat}
    (h : (written past).insertRequest id subject admittedMs intent = some t) :
    let row : RequestRow := ⟨(admitted past).length + 1, id, subject, admittedMs, intent⟩
    t = { written past with requests := (written past).requests ++ [row] } ∧
      ∀ other ∈ (written past).requests, other.clash row = false := by
  obtain ⟨requests, hinsert, h⟩ := Option.bind_eq_some_iff.1 h
  cases h
  rw [nextRowid_written] at hinsert
  obtain ⟨hfree, rfl⟩ := Table.insert_eq_some.1 hinsert
  exact ⟨rfl, hfree⟩

theorem insertEvent_eq {t' : Tables} {row : EventRow} (h : t.insertEvent row = some t') :
    t' = { t with requestEvents := t.requestEvents ++ [row] } ∧
      ∀ other ∈ t.requestEvents, other.clash row = false := by
  rw [Tables.insertEvent] at h
  split at h
  · obtain ⟨rows, hinsert, h⟩ := Option.bind_eq_some_iff.1 h
    cases h
    obtain ⟨hfree, rfl⟩ := Table.insert_eq_some.1 hinsert
    exact ⟨rfl, hfree⟩
  · cases h

theorem insertLink_eq {t' : Tables} {row : LinkRow} (h : t.insertLink row = some t') :
    t' = { t with links := t.links ++ [row] } ∧ ∀ other ∈ t.links, other.clash row = false := by
  rw [Tables.insertLink] at h
  split at h
  · obtain ⟨rows, hinsert, h⟩ := Option.bind_eq_some_iff.1 h
    cases h
    obtain ⟨hfree, rfl⟩ := Table.insert_eq_some.1 hinsert
    exact ⟨rfl, hfree⟩
  · cases h

theorem insertSession_eq {t' : Tables} {row : SessionRow} (h : t.insertSession row = some t') :
    t' = { t with sessions := t.sessions ++ [row] } ∧
      ∀ other ∈ t.sessions, other.clash row = false := by
  obtain ⟨rows, hinsert, h⟩ := Option.bind_eq_some_iff.1 h
  cases h
  obtain ⟨hfree, rfl⟩ := Table.insert_eq_some.1 hinsert
  exact ⟨rfl, hfree⟩

theorem insertBinding_eq {t' : Tables} {row : BindingRow} (h : t.insertBinding row = some t') :
    t' = { t with sessionBindings := t.sessionBindings ++ [row] } ∧
      ∀ other ∈ t.sessionBindings, other.clash row = false := by
  rw [Tables.insertBinding] at h
  split at h
  · obtain ⟨rows, hinsert, h⟩ := Option.bind_eq_some_iff.1 h
    cases h
    obtain ⟨hfree, rfl⟩ := Table.insert_eq_some.1 hinsert
    exact ⟨rfl, hfree⟩
  · cases h

theorem distinct_snoc {α : Type} {clash : α → α → Bool} {rows : List α} {row : α}
    (h : Table.Distinct clash rows) (hfree : ∀ other ∈ rows, clash other row = false) :
    Table.Distinct clash (rows ++ [row]) :=
  Table.distinct_append.2 ⟨h, List.pairwise_singleton _ _, fun a ha b hb => by
    rw [List.mem_singleton.1 hb]
    exact hfree a ha⟩

end Tables

end ResponseGateway.Requests
