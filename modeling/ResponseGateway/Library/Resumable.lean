import ResponseGateway.Library.Method

/-!
Scanners that are fed in pieces. A scanner consumes one symbol at a time and may
report a result after any of them; a reading call stops at the first result and
leaves the rest of its piece, so that the caller asks again. What a whole feeding
reports depends on the concatenation of the pieces alone (`feed_next`).
-/

namespace Resumable

variable {σ ε α β : Type}

/-- What was reported, the error that ended the reading, and the scanner after it. -/
structure Report (σ ε α : Type) where
  results : List α
  error : Option ε
  state : σ

namespace Report

/-- Go on after a report that ended without an error. -/
def andThen (r : Report σ ε α) (f : σ → Report σ ε α) : Report σ ε α :=
  match r.error with
  | some _ => r
  | none => { f r.state with results := r.results ++ (f r.state).results }

/-- A result in front of a report. -/
def cons (a : α) (r : Report σ ε α) : Report σ ε α := { r with results := a :: r.results }

/-- The report without the scanner it ends in. -/
def outcome (r : Report σ ε α) : List α × Option ε := (r.results, r.error)

theorem andThen_cons (a : α) (r : Report σ ε α) (f : σ → Report σ ε α) :
    (r.cons a).andThen f = (r.andThen f).cons a := by
  cases h : r.error with
  | none => simp [andThen, cons, h]
  | some e => simp [andThen, cons, h]

theorem outcome_cons {a : α} {r : Report σ ε α} {results : List α} {error : Option ε}
    (h : r.outcome = (results, error)) : (r.cons a).outcome = (a :: results, error) := by
  rw [outcome, Prod.mk.injEq] at h
  simp [outcome, cons, h.1, h.2]

end Report

section Calls

/-- A reading call on the receiver and the rest of the current piece. -/
abbrev Call (σ ε α β : Type) := σ → List β → Except ε (Option α) × σ × List β

/-- Reading calls on one piece until it is used up or a call fails. Every call but
the last consumes a symbol, so one more call than there are symbols is enough. -/
def drain (call : Call σ ε α β) : Nat → σ → List β → Report σ ε α
  | 0, s, _ => ⟨[], none, s⟩
  | fuel + 1, s, piece =>
      match call s piece with
      | (.error e, s', _) => ⟨[], some e, s'⟩
      | (.ok none, s', _) => ⟨[], none, s'⟩
      | (.ok (some a), s', rest) => (drain call fuel s' rest).cons a

/-- The pieces one after the other, each until it is used up. -/
def feed (call : Call σ ε α β) (s : σ) : List (List β) → Report σ ε α
  | [] => ⟨[], none, s⟩
  | piece :: rest => (drain call (piece.length + 1) s piece).andThen fun s' => feed call s' rest

end Calls

section Scanner

variable (step : β → Method σ ε (Option α))

/-- The reading call of a scanner: symbols are consumed up to the first result. -/
def next (s : σ) : List β → Except ε (Option α) × σ × List β
  | [] => (.ok none, s, [])
  | b :: rest =>
      match step b s with
      | (.error e, s') => (.error e, s', rest)
      | (.ok (some a), s') => (.ok (some a), s', rest)
      | (.ok none, s') => next s' rest

theorem next_invariant {Inv : σ → Prop} (hstep : ∀ b s, Inv s → Inv (step b s).2) {s : σ}
    (hs : Inv s) (piece : List β) : Inv (next step s piece).2.1 := by
  induction piece generalizing s with
  | nil => exact hs
  | cons b rest ih =>
      have hb := hstep b s hs
      rw [next]
      match hstep : step b s with
      | (.error e, s') => simpa [hstep] using hb
      | (.ok (some a), s') => simpa [hstep] using hb
      | (.ok none, s') => exact ih (by simpa [hstep] using hb)

/-- Everything a scanner reports on a text, symbol by symbol. -/
def scan (s : σ) : List β → Report σ ε α
  | [] => ⟨[], none, s⟩
  | b :: rest =>
      match step b s with
      | (.error e, s') => ⟨[], some e, s'⟩
      | (.ok (some a), s') => (scan s' rest).cons a
      | (.ok none, s') => scan s' rest

theorem scan_append (s : σ) (l m : List β) :
    scan step s (l ++ m) = (scan step s l).andThen fun s' => scan step s' m := by
  induction l generalizing s with
  | nil => simp [scan, Report.andThen]
  | cons b rest ih =>
      rw [List.cons_append, scan, scan]
      match step b s with
      | (.error e, s') => rfl
      | (.ok (some a), s') =>
          simp only
          rw [ih, Report.andThen_cons]
      | (.ok none, s') => exact ih s'

theorem drain_next (s : σ) (piece : List β) (fuel : Nat) (h : piece.length < fuel) :
    drain (next step) fuel s piece = scan step s piece := by
  induction piece generalizing s fuel with
  | nil =>
      obtain ⟨fuel, rfl⟩ := Nat.exists_eq_succ_of_ne_zero (Nat.ne_of_gt h)
      rfl
  | cons b rest ih =>
      obtain ⟨fuel, rfl⟩ := Nat.exists_eq_succ_of_ne_zero (Nat.ne_zero_of_lt h)
      have hlen : rest.length < fuel := by simpa using h
      rw [drain, next, scan]
      match step b s with
      | (.error e, s') => rfl
      | (.ok (some a), s') =>
          simp only
          rw [ih s' fuel hlen]
      | (.ok none, s') =>
          -- the call goes on inside the same piece, with a symbol less to read
          have hnext := ih s' (fuel + 1) (Nat.lt_succ_of_lt hlen)
          rw [drain] at hnext
          exact hnext

/-- What is reported does not depend on where the text is cut. -/
theorem feed_next (s : σ) (pieces : List (List β)) :
    feed (next step) s pieces = scan step s pieces.flatten := by
  induction pieces generalizing s with
  | nil => rfl
  | cons piece rest ih =>
      rw [feed, drain_next step s piece _ (Nat.lt_succ_self _), List.flatten_cons, scan_append]
      congr 1
      funext s'
      exact ih s'

end Scanner

end Resumable
