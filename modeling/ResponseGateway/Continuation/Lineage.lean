import ResponseGateway.Continuation.EnvelopeSound
import ResponseGateway.Continuation.Ledger

/-!
Provider checkpoints. A session of a provider plugin keeps opaque state of one exact
package, so each of its records has to continue the one before it. The runtime looks
at the previous record through its sealed envelope; a `Lineage` keeps beside the store
only the head each session had when an attempt was begun. Records made from native
state are finalized by anyone in any order, and any other call of the store may come
between. Records of a built-in adapter are not compared with their session: for those
it is assumed that they carry its origin.
-/

namespace ResponseGateway.Continuation
open Checked Method Ir SqliteStore World Continuation.Runtime

/-- What is sealed can be opened again. -/
def Aead.Correct (aead : Aead) : Prop :=
  ∀ key nonce data plain cipher, aead.sealInPlace key nonce data plain = some cipher →
    aead.openInPlace key nonce data cipher = some plain

/-- The native part of a provider's record that its successors share. -/
def ReplayV3.provider (replay : ReplayV3) : ProviderBindingWire × String × Nat :=
  (replay.native.binding, replay.native.format, replay.native.version)

def Origin.isPlugin (origin : Origin) : Prop := origin.route.fieldStr "api" = some "plugin"

section Reopening

variable {aead : Aead} {base64 : Base64} {p : KeyProtector aead} {nonce : ByteArray} {e : String}

theorem payload_injective {r r' : ReplayRecord} (h : payload r = payload r') :
    r.toJson = r'.toJson := by
  rw [payload, payload, String.toUTF8_eq_toByteArray, String.toUTF8_eq_toByteArray,
    String.toByteArray_inj, renderText, renderText, String.ofList_inj] at h
  have hread := Json.parse_render r.toJson (Nat.le_refl _)
  rw [h] at hread
  exact (Json.parse_render_iff.1 hread).1

/-- What opens under the key it was sealed with is the plaintext that was sealed. -/
theorem openRecord_own (correct : aead.Correct) {r r' : ReplayRecord}
    (hseal : p.sealRecord base64 nonce r = .ok e) (hopen : p.openRecord base64 e = .ok r') :
    KeyProtector.readPlain base64 r.version (payload r) = .ok r' := by
  obtain ⟨-, -, hnonce, cipher, hcipher, rfl⟩ := sealRecord_ok.1 hseal
  simp only [KeyProtector.openRecord, bind_ok, okOr_ok] at hopen
  obtain ⟨⟨version, nonce', cipher'⟩, hfields, plain, hplain, hread⟩ := hopen
  obtain ⟨-, -, hsize⟩ := envelopeFields_iff.1 hfields
  rw [envelopeFields_iff.2 ⟨rfl, hnonce, hsize⟩] at hfields
  cases hfields
  rw [correct _ _ _ _ _ hcipher] at hplain
  cases hplain
  exact hread

theorem Origin.toJson_injective {origin origin' : Origin} (h : origin.toJson = origin'.toJson) :
    origin = origin' := by
  obtain ⟨route, realm, generation⟩ := origin
  obtain ⟨route', realm', generation'⟩ := origin'
  simp only [Origin.toJson, Json.object.injEq, List.cons.injEq, Prod.mk.injEq, true_and,
    Json.string.injEq, and_true] at h
  obtain ⟨rfl, rfl, rfl⟩ := h
  rfl

theorem ProviderReplayWire.toJson_injective {wire wire' : ProviderReplayWire}
    (h : wire.toJson = wire'.toJson) : wire = wire' := by
  obtain ⟨⟨⟨a, b, c, d, f, g⟩⟩, format, version, data⟩ := wire
  obtain ⟨⟨⟨a', b', c', d', f', g'⟩⟩, format', version', data'⟩ := wire'
  simp only [ProviderReplayWire.toJson, Json.object.injEq, List.cons.injEq, Prod.mk.injEq,
    true_and, Json.string.injEq, Json.number.injEq, and_true] at h
  obtain ⟨⟨rfl, rfl, rfl, rfl, rfl, rfl⟩, rfl, hversion, rfl⟩ := h
  rw [Json.Number.ofNat_injective hversion]

/-- A provider record that is read back continues what was written. -/
theorem readPlain_v3 {r : ReplayV3} {r' : ReplayRecord}
    (h : KeyProtector.readPlain base64 .v3 (payload (.v3 r)) = .ok r') :
    ∃ replay, r' = .v3 replay ∧ replay.origin = r.origin ∧ replay.provider = r.provider := by
  have hversion := readPlain_version h
  simp only [KeyProtector.readPlain, bind_ok, rejectIf_ok, pure_ok, Bool.and_eq_false_iff,
    decide_eq_false_iff_not, not_true, false_or, ne_eq, not_not] at h
  obtain ⟨_, -, _, -, _, -, replay, -, _, -, _, -, _, hcanonical, rfl⟩ := h
  cases replay with
  | v1 | v2 => cases hversion
  | v3 replay =>
      have hjson := payload_injective hcanonical
      simp only [ReplayRecord.toJson, ReplayFields.toJson, List.cons_append, List.nil_append,
        Json.object.injEq, List.cons.injEq, Prod.mk.injEq, true_and] at hjson
      obtain ⟨-, -, -, horigin, -, -, -, -, -, hwire, -⟩ := hjson
      refine ⟨replay, rfl, Origin.toJson_injective horigin, ?_⟩
      rw [ReplayV3.provider, ReplayV3.provider, ProviderReplayWire.toJson_injective hwire]

end Reopening

/-- The store, and the head each attempt was begun on. -/
structure Lineage where
  db : SqliteStore
  begun : OrderedMap String (Option String)

namespace Lineage

def init (limit : Nat) : Lineage := { db := empty limit, begun := .empty }

def isBegin : StoreCall → Bool
  | .begin _ _ _ _ _ _ => true
  | _ => false

variable {aead : Aead} (rt : Runtime) (base64 : Base64) (p : KeyProtector aead)

/-- A record made from native state; one of a built-in adapter has the origin of its session. -/
def Built (db : SqliteStore) (r : ReplayRecord) : Prop :=
  ∃ metadata native output, ReplayRecord.fromNative base64 metadata native output = .ok r ∧
    ∀ replay, native = .builtin replay →
      ∀ s, db.sessions.get metadata.session = some s → metadata.origin = s.origin

/-- Records are written by `finalize_checked` only; a call that fails may leave its mark. -/
inductive Step (l : Lineage) : Lineage → Prop where
  | begin {uuid id : String} {revision : Int} {parent : Option String} {inputDigest : String}
      {reserve : Nat} {attempt : String} {s : Session} {db : SqliteStore}
      (found : l.db.sessions.get id = some s)
      (call : begin uuid id revision parent inputDigest reserve l.db = (.ok attempt, db)) :
      Step l { db, begun := l.begun.insert attempt s.head }
  | other {call : StoreCall} (own : isFinalize call = false)
      (failed : isBegin call = true → ∃ e, (execute call l.db).1 = .error e) :
      Step l { l with db := (execute call l.db).2 }
  | finalize {nonce : ByteArray} {r : ReplayRecord} {fits : String → Except Error Unit}
      (built : Built base64 l.db r) : Step l { l with db := (rt.finalizeChecked nonce r fits l.db).2 }

abbrev Runs := Relation.ReflTransGen (Step rt base64)

/-- The stored record of a finalized attempt. -/
structure Checkpoint (l : Lineage) (a : String) (row : AttemptRow) (s : Session) (r : ReplayV3) :
    Prop where
  stored : ∃ nonce envelope, p.sealRecord base64 nonce (.v3 r) = .ok envelope ∧
    l.db.records.get a =
      some { digest := rt.recordDigest (.v3 r), envelope := some envelope }
  session : r.session = row.session
  epoch : r.epoch = row.epoch
  response : r.response = a
  origin : r.origin = s.origin
  parent : l.begun.get a = some r.parent

structure Sound (l : Lineage) : Prop where
  store : l.db.Invariant
  pending : ∀ a row s, l.db.attempts.get a = some row → row.status = .pending →
    l.db.sessions.get row.session = some s → l.begun.get a = some s.head
  headless : ∀ id s, l.db.sessions.get id = some s → s.head = none →
    ∀ a row, l.db.attempts.get a = some row → row.session = id → row.epoch = s.epoch →
      row.status ≠ .finalized
  lineage : ∃ provider : String → Int → ProviderBindingWire × String × Nat,
    ∀ a row s, l.db.attempts.get a = some row → row.status = .finalized →
      l.db.sessions.get row.session = some s → s.origin.isPlugin →
      ∃ r, l.Checkpoint rt base64 p a row s r ∧ r.provider = provider row.session row.epoch

theorem sound_init (limit : Nat) : (init limit).Sound rt base64 p where
  store := invariant_empty limit
  pending := by simp [init, empty]
  headless := by simp [init, empty]
  lineage := ⟨fun _ _ => (⟨⟨"", "", "", "", "", ""⟩⟩, "", 0), by simp [init, empty]⟩

section Preservation

variable {rt base64 p} {l : Lineage} {db : SqliteStore} {call : StoreCall}
variable {begun : OrderedMap String (Option String)}

theorem commits_fresh (h : Commits l.db call db) (own : isBegin call = false) {a : String}
    (ha : l.db.attempts.get a = none) : db.attempts.get a = none := by
  cases h with
  | create | uncertainLate | repair | transition => exact ha
  | begin => cases own
  | finalize _ foundAttempt | uncertain _ foundAttempt =>
      refine (OrderedMap.get_insert_of_ne _ _ ?_).trans ha
      rintro rfl
      rw [ha] at foundAttempt
      cases foundAttempt
  | reopen => rw [OrderedMap.get_mapValues, ha, Option.map_none]

/-- The session of a pending attempt keeps its head. -/
theorem Sound.pending_commits (hl : l.Sound rt base64 p) (h : Commits l.db call db)
    (kept : ∀ a row, l.db.attempts.get a = some row → begun.get a = l.begun.get a)
    (added : ∀ a row s, l.db.attempts.get a = none → db.attempts.get a = some row →
      db.sessions.get row.session = some s → begun.get a = some s.head)
    {a : String} {row : AttemptRow} {s : Session} (ha : db.attempts.get a = some row)
    (hpending : row.status = .pending) (hs : db.sessions.get row.session = some s) :
    begun.get a = some s.head := by
  cases hold : l.db.attempts.get a with
  | none => exact added a row s hold ha hs
  | some old =>
      obtain ⟨row', hrow', hsession, -, hended⟩ := commits_attempt h hold
      rw [ha] at hrow'
      cases hrow'
      have hwaiting : old.status = .pending := by
        by_contra hne
        exact hne (hended hne ▸ hpending)
      obtain ⟨s₀, hs₀, -⟩ := hl.store.attempt_session a old hold
      have hquiet := commits_quiet hl.store h hold hwaiting ha hpending hs₀
      rw [hsession, hquiet] at hs
      cases hs
      rw [kept a old hold]
      exact hl.pending a old _ hold hwaiting hs₀

/-- What was stored for an attempt stays stored. -/
theorem Checkpoint.commits {a : String} {row : AttemptRow} {s s' : Session} {r : ReplayV3}
    (hr : l.Checkpoint rt base64 p a row s r) (hdb : l.db.Invariant) (h : Commits l.db call db)
    (horigin : s'.origin = s.origin) (kept : begun.get a = l.begun.get a) :
    ({ db, begun } : Lineage).Checkpoint rt base64 p a row s' r where
  stored := by
    obtain ⟨nonce, envelope, hseal, hstored⟩ := hr.stored
    exact ⟨nonce, envelope, hseal, commits_record hdb h hstored rfl⟩
  session := hr.session
  epoch := hr.epoch
  response := hr.response
  origin := hr.origin.trans horigin.symm
  parent := kept.trans hr.parent

theorem Sound.quiet (hl : l.Sound rt base64 p) (h : Commits l.db call db)
    (own : isFinalize call = false)
    (kept : ∀ a row, l.db.attempts.get a = some row → begun.get a = l.begun.get a)
    (added : ∀ a row s, l.db.attempts.get a = none → db.attempts.get a = some row →
      db.sessions.get row.session = some s → begun.get a = some s.head) :
    ({ db, begun } : Lineage).Sound rt base64 p where
  store := hl.store.step h
  pending := fun a row s => hl.pending_commits h kept added
  headless := by
    intro id t ht hhead a row ha hown hepoch hfin
    have hold := commits_finalized h own ha hfin
    obtain ⟨s, hs, hsame, hheads⟩ | ⟨-, hlt⟩ := commits_head hl.store h own ht
    · exact hl.headless id s hs (hheads ▸ hhead) a row hold hown (hepoch.trans hsame) hfin
    · exact absurd hepoch (hlt a row hold hown).ne
  lineage := by
    obtain ⟨provider, hprovider⟩ := hl.lineage
    refine ⟨provider, fun a row t ha hfin ht hplugin => ?_⟩
    have hold := commits_finalized h own ha hfin
    obtain ⟨s, hs, -⟩ := hl.store.attempt_session a row hold
    obtain ⟨t', ht', horigin⟩ := commits_origin h hs
    cases ht.symm.trans ht'
    obtain ⟨r, hr, hsame⟩ := hprovider a row s hold hfin hs (horigin ▸ hplugin)
    exact ⟨r, hr.commits hl.store h horigin (kept a row hold), hsame⟩

theorem Sound.begin (hl : l.Sound rt base64 p) {uuid id inputDigest attempt : String}
    {revision : Int} {parent : Option String} {reserve : Nat} {s : Session}
    (found : l.db.sessions.get id = some s)
    (call : begin uuid id revision parent inputDigest reserve l.db = (.ok attempt, db)) :
    ({ db, begun := l.begun.insert attempt s.head } : Lineage).Sound rt base64 p := by
  obtain ⟨rfl, hcommits⟩ := begin_accepts hl.store.keyed call
  refine hl.quiet hcommits rfl ?_ ?_
  · intro a row ha
    cases hcommits with
    | begin _ _ _ _ fresh =>
        refine OrderedMap.get_insert_of_ne _ _ ?_
        rintro rfl
        rw [fresh] at ha
        cases ha
  · intro a row t hnone ha ht
    cases hcommits with
    | @begin _ _ _ _ _ _ s' found' =>
        cases found.symm.trans found'
        rw [OrderedMap.get_insert] at ha
        split at ha
        · next heq =>
            subst heq
            cases ha
            rw [OrderedMap.get_insert_self] at ht
            cases ht
            exact OrderedMap.get_insert_self _ _ _
        · rw [hnone] at ha
          cases ha

theorem Sound.other (hl : l.Sound rt base64 p) (own : isFinalize call = false)
    (failed : isBegin call = true → ∃ e, (execute call l.db).1 = .error e) :
    ({ l with db := (execute call l.db).2 } : Lineage).Sound rt base64 p := by
  cases hcall : execute call l.db with
  | mk result db =>
      cases result with
      | error e =>
          rw [atomic_execute call l.db e db hcall]
          exact hl
      | ok u =>
          have hbegin : isBegin call = false := by
            by_contra hne
            obtain ⟨e, he⟩ := failed (by simpa using hne)
            rw [hcall] at he
            cases he
          have hcommits := execute_accepts hl.store.keyed hcall
          refine hl.quiet hcommits own (fun _ _ _ => rfl) fun a row s hnone ha => ?_
          rw [commits_fresh hcommits hbegin hnone] at ha
          cases ha

/-- The checks of a provider record that was let through. -/
structure Continues (db : SqliteStore) (rt : Runtime) (provider : ReplayV3) (s : Session) : Prop where
  found : db.sessions.get provider.session = some s
  epoch : s.epoch = provider.epoch
  origin : s.origin = provider.origin
  head : s.head = provider.parent
  parent : ∀ a, provider.parent = some a → ∃ stored envelope previous,
    db.records.get a = some stored ∧ stored.envelope = some envelope ∧
      rt.protector.openRecord envelope = .ok (.v3 previous) ∧
      previous.provider = provider.provider

theorem checkParent_accepts {s : Session} {provider : ReplayV3} {parent : String} {u : Unit}
    {db db' : SqliteStore} (h : rt.checkParent s provider parent db = (.ok u, db')) :
    ∃ stored envelope previous, db.records.get parent = some stored ∧
      stored.envelope = some envelope ∧ rt.protector.openRecord envelope = .ok (.v3 previous) ∧
      previous.provider = provider.provider := by
  obtain ⟨_, _, hrecord, h⟩ := bind_accepts.1 h
  obtain ⟨row, stored, -, -, hstored, rfl, rfl⟩ := record_accepts.1 hrecord
  obtain ⟨_, -, h⟩ := check_bind_accepts.1 h
  obtain ⟨envelope, henvelope, h⟩ := check_bind_accepts.1 h
  obtain ⟨previous, hopen, h⟩ := check_bind_accepts.1 h
  obtain ⟨_, -, h⟩ := check_bind_accepts.1 h
  cases previous with
  | v1 | v2 => cases (check_accepts.1 h).1
  | v3 previous =>
      obtain ⟨hsame, -⟩ := check_accepts.1 h
      simp only [rejectIf_ok, Bool.or_eq_false_iff, decide_eq_false_iff_not, ne_eq, not_not]
        at hsame
      obtain ⟨⟨⟨-, hbinding⟩, hformat⟩, hversion⟩ := hsame
      refine ⟨stored, envelope, previous, hstored, okOr_ok.1 henvelope, hopen, ?_⟩
      rw [ReplayV3.provider, ReplayV3.provider, hbinding, hformat, hversion]

theorem checkLineage_accepts {provider : ReplayV3} {u : Unit} {db db' : SqliteStore}
    (h : rt.checkLineage provider db = (.ok u, db')) : ∃ s, Continues db rt provider s := by
  obtain ⟨_, -, hvalid⟩ := check_bind_accepts.1 h
  obtain ⟨s, _, hsession, hfound⟩ := bind_accepts.1 hvalid
  obtain ⟨-, hs, rfl⟩ := session_accepts.1 hsession
  obtain ⟨_, hsame, hrest⟩ := check_bind_accepts.1 hfound
  simp only [rejectIf_ok, Bool.or_eq_false_iff, decide_eq_false_iff_not, ne_eq, not_not] at hsame
  obtain ⟨⟨⟨hepoch, horigin⟩, hhead⟩, -⟩ := hsame
  refine ⟨s, hs, hepoch, horigin, hhead, fun a ha => ?_⟩
  simp only [ha] at hrest
  exact checkParent_accepts hrest

/-- A record of a built-in adapter names no session of a plugin. -/
theorem Built.provider {db : SqliteStore} {r : ReplayRecord} (h : Built base64 db r) {s : Session}
    (hs : db.sessions.get r.fields.session = some s) (hplugin : s.origin.isPlugin) :
    ∃ provider, r = .v3 provider := by
  obtain ⟨metadata, native, output, hmade, howner⟩ := h
  obtain ⟨schema, hfields⟩ := ReplayRecord.fields_fromNative hmade
  rw [hfields] at hs
  cases native with
  | builtin native =>
      simp only [ReplayRecord.fromNative, bind_ok, rejectIf_ok, decide_eq_false_iff_not] at hmade
      obtain ⟨_, hroute, -⟩ := hmade
      rw [howner native rfl s hs] at hroute
      exact absurd hplugin hroute
  | provider state =>
      simp only [ReplayRecord.fromNative, bind_ok, pure_ok] at hmade
      obtain ⟨_, -, rfl⟩ := hmade
      exact ⟨_, rfl⟩

/-- A record is read back from its stored envelope with the provider it was made by. -/
theorem Checkpoint.reopened (correct : aead.Correct)
    (hrt : rt.protector = p.toProtector base64) {a : String} {row : AttemptRow} {s : Session}
    {r previous : ReplayV3} (hr : l.Checkpoint rt base64 p a row s r) {stored : RecordRow}
    {envelope : String} (hstored : l.db.records.get a = some stored)
    (henvelope : stored.envelope = some envelope)
    (hopen : rt.protector.openRecord envelope = .ok (.v3 previous)) :
    previous.provider = r.provider := by
  obtain ⟨nonce, envelope', hseal, hstored'⟩ := hr.stored
  cases hstored.symm.trans hstored'
  cases henvelope
  rw [hrt] at hopen
  obtain ⟨replay, hreplay, -, hprovider⟩ := readPlain_v3 (openRecord_own correct hseal hopen)
  cases hreplay
  exact hprovider

/-- The provider of the epoch of a record that was let through. -/
theorem Sound.next_provider (correct : aead.Correct) (hrt : rt.protector = p.toProtector base64)
    (hl : l.Sound rt base64 p) {provider : String → Int → ProviderBindingWire × String × Nat}
    (hprovider : ∀ a row s, l.db.attempts.get a = some row → row.status = .finalized →
      l.db.sessions.get row.session = some s → s.origin.isPlugin →
      ∃ r, l.Checkpoint rt base64 p a row s r ∧ r.provider = provider row.session row.epoch)
    {r : ReplayRecord} {s : Session} (built : Built base64 l.db r)
    (hs : l.db.sessions.get r.fields.session = some s)
    (hrecord : ∃ u db, rt.checkRecord r l.db = (.ok u, db)) :
    ∃ next, (s.origin.isPlugin → ∃ r', r = .v3 r' ∧ Continues l.db rt r' s ∧ r'.provider = next) ∧
      (s.head ≠ none → next = provider r.fields.session s.epoch) := by
  have hcontinues : s.origin.isPlugin → ∃ r', r = .v3 r' ∧ Continues l.db rt r' s := by
    intro hplugin
    obtain ⟨r', rfl⟩ := built.provider hs hplugin
    obtain ⟨u, db, hrecord⟩ := hrecord
    obtain ⟨s', hs'⟩ := checkLineage_accepts hrecord
    cases hs.symm.trans hs'.found
    exact ⟨r', rfl, hs'⟩
  cases hhead : s.head with
  | none =>
      by_cases hplugin : s.origin.isPlugin
      · obtain ⟨r', rfl, hr'⟩ := hcontinues hplugin
        exact ⟨r'.provider, fun _ => ⟨r', rfl, hr', rfl⟩, fun hne => absurd rfl hne⟩
      · exact ⟨provider r.fields.session s.epoch, fun h => absurd h hplugin, fun _ => rfl⟩
  | some a =>
      refine ⟨provider r.fields.session s.epoch, fun hplugin => ?_, fun _ => rfl⟩
      obtain ⟨r', rfl, hr'⟩ := hcontinues hplugin
      obtain ⟨row, hrow, hown, hepoch, hfin⟩ := hl.store.head_finalized _ s a hs hhead
      obtain ⟨r₀, hr₀, hsame⟩ := hprovider a row s hrow hfin (hown ▸ hs) hplugin
      obtain ⟨stored, envelope, previous, hstored, henvelope, hopen, hprevious⟩ :=
        hr'.parent a (hr'.head.symm.trans hhead)
      refine ⟨r', rfl, hr', ?_⟩
      rw [← hprevious, hr₀.reopened correct hrt hstored henvelope hopen, hsame, hown, hepoch]

theorem Sound.finalize (correct : aead.Correct) (hrt : rt.protector = p.toProtector base64)
    (hl : l.Sound rt base64 p) {nonce : ByteArray} {r : ReplayRecord}
    {fits : String → Except Error Unit} {token : String} (built : Built base64 l.db r)
    (call : rt.finalizeChecked nonce r fits l.db = (.ok token, db)) :
    ({ l with db } : Lineage).Sound rt base64 p := by
  obtain ⟨_, _, hrecord, -⟩ := bind_accepts.1 call
  obtain ⟨hseal, -, hfinalize⟩ := finalizeChecked_accepts call
  have hcommits := finalize_accepts hl.store.keyed hfinalize
  obtain ⟨s, row, hs, hrow, hown, hepoch, hwaiting, hdb⟩ : ∃ s row,
      l.db.sessions.get r.fields.session = some s ∧
      l.db.attempts.get r.fields.response = some row ∧ row.session = r.fields.session ∧
      row.epoch = s.epoch ∧ row.status = .pending ∧ db = { l.db with
        records := l.db.records.insert r.fields.response
          { digest := rt.recordDigest r, envelope := some token }
        attempts := l.db.attempts.insert r.fields.response { row with status := .finalized }
        sessions := l.db.sessions.insert r.fields.session { s with
          status := s.status.settled, head := some r.fields.response
          pendingTools := r.outcome = .awaitingTools, revision := s.revision + 1 } } := by
    cases hcommits with
    | finalize found foundAttempt own sameEpoch waiting =>
        exact ⟨_, _, found, foundAttempt, own, sameEpoch, waiting, rfl⟩
  -- an attempt that is finalized now either was so before or is the one of the record
  have hattempts : ∀ a row', db.attempts.get a = some row' →
      (a = r.fields.response ∧ row' = { row with status := .finalized }) ∨
        (a ≠ r.fields.response ∧ l.db.attempts.get a = some row') := by
    intro a row' ha
    rw [hdb, OrderedMap.get_insert] at ha
    split at ha
    · next heq =>
        cases ha
        exact .inl ⟨heq.symm, rfl⟩
    · next hne => exact .inr ⟨Ne.symm hne, ha⟩
  refine { store := hl.store.step hcommits, pending := ?_, headless := ?_, lineage := ?_ }
  · intro a row' t
    refine hl.pending_commits hcommits (fun _ _ _ => rfl) fun a row' t hnone ha => ?_
    rw [commits_fresh hcommits rfl hnone] at ha
    cases ha
  · intro id t ht hhead a row' ha hown' hepoch' hfin
    rw [hdb, OrderedMap.get_insert] at ht
    split at ht
    · cases ht
      cases hhead
    · next hne =>
        obtain ⟨-, rfl⟩ | ⟨-, hold⟩ := hattempts a row' ha
        · exact hne (hown.symm.trans hown')
        · exact hl.headless id t ht hhead a row' hold hown' hepoch' hfin
  · obtain ⟨provider, hprovider⟩ := hl.lineage
    obtain ⟨next, hnext, hsame⟩ := hl.next_provider correct hrt hprovider built hs ⟨_, _, hrecord⟩
    refine ⟨fun id epoch => if id = r.fields.session ∧ epoch = s.epoch then next
      else provider id epoch, fun a row' t ha hfin ht hplugin => ?_⟩
    obtain ⟨rfl, rfl⟩ | ⟨hne, hold⟩ := hattempts a row' ha
    · have horigin : t.origin = s.origin := by
        rw [hdb, hown, OrderedMap.get_insert_self] at ht
        cases ht
        rfl
      obtain ⟨r', rfl, hr', hprovider'⟩ := hnext (horigin ▸ hplugin)
      refine ⟨r', ?_, hprovider'.trans (if_pos ⟨hown, hepoch⟩).symm⟩
      refine { stored := ?_, session := hown.symm, epoch := hr'.epoch.symm.trans hepoch.symm,
               response := rfl, origin := hr'.origin.symm.trans horigin.symm, parent := ?_ }
      · refine ⟨nonce, token, ?_, by rw [hdb, OrderedMap.get_insert_self]⟩
        rw [hrt] at hseal
        exact hseal
      · rw [← hr'.head]
        exact hl.pending _ row s hrow hwaiting (hown ▸ hs)
    · obtain ⟨u, hu, -⟩ := hl.store.attempt_session a row' hold
      obtain ⟨t', ht', horigin⟩ := commits_origin hcommits hu
      cases ht.symm.trans ht'
      obtain ⟨r₀, hr₀, hprovider₀⟩ := hprovider a row' u hold hfin hu (horigin ▸ hplugin)
      refine ⟨r₀, hr₀.commits hl.store hcommits horigin rfl, ?_⟩
      by_cases hcurrent : row'.session = r.fields.session ∧ row'.epoch = s.epoch
      · have hhead : s.head ≠ none := fun hhead =>
          hl.headless _ s hs hhead a row' hold hcurrent.1 hcurrent.2 hfin
        refine hprovider₀.trans (Eq.trans ?_ (if_pos hcurrent).symm)
        rw [hcurrent.1, hcurrent.2, hsame hhead]
      · exact hprovider₀.trans (if_neg hcurrent).symm

end Preservation

section Rejection

/-- The reasons for which a record is refused before the store is written. -/
inductive Refused (db : SqliteStore) (nonce : ByteArray) (r : ReplayRecord)
    (fits : String → Except Error Unit) : Prop where
  | lineage {e : Error} (failed : (rt.checkRecord r db).1 = .error e)
  | caller {token : String} {e : Error} (made : rt.protector.sealRecord nonce r = .ok token)
      (failed : fits token = .error e)
  | reserve {token : String} {row : AttemptRow}
      (made : rt.protector.sealRecord nonce r = .ok token)
      (found : db.attempts.get r.fields.response = some row)
      (large : row.reserve < token.utf8ByteSize)

variable {rt} {db : SqliteStore} {nonce : ByteArray} {r : ReplayRecord}
variable {fits : String → Except Error Unit}

theorem Refused.unchanged (hdb : db.Invariant) (h : Refused rt db nonce r fits) :
    ∃ e, rt.finalizeChecked nonce r fits db = (.error e, db) := by
  cases hcall : rt.finalizeChecked nonce r fits db with
  | mk result db' =>
      cases result with
      | error e => exact ⟨e, by rw [atomic_finalizeChecked nonce r fits db e db' hcall]⟩
      | ok token =>
          obtain ⟨_, _, hrecord, -⟩ := bind_accepts.1 hcall
          obtain ⟨hseal, hfits, hfinalize⟩ := finalizeChecked_accepts hcall
          cases h with
          | lineage failed =>
              rw [hrecord] at failed
              cases failed
          | caller made failed =>
              cases hseal.symm.trans made
              cases hfits.symm.trans failed
          | reserve made found large =>
              cases hseal.symm.trans made
              cases finalize_accepts hdb.keyed hfinalize with
              | finalize _ foundAttempt _ _ _ fits =>
                  cases found.symm.trans foundAttempt
                  exact absurd fits (Nat.not_le.2 large)

end Rejection

section Runs

variable {rt base64 p} {l l' : Lineage}

theorem Sound.step (correct : aead.Correct) (hrt : rt.protector = p.toProtector base64)
    (hl : l.Sound rt base64 p) (h : Step rt base64 l l') : l'.Sound rt base64 p := by
  cases h with
  | begin found call => exact hl.begin found call
  | other own failed => exact hl.other own failed
  | @finalize nonce r fits built =>
      cases hcall : rt.finalizeChecked nonce r fits l.db with
      | mk result db =>
          cases result with
          | error e =>
              rw [atomic_finalizeChecked nonce r fits l.db e db hcall]
              exact hl
          | ok token => exact hl.finalize correct hrt built hcall

theorem sound_runs (correct : aead.Correct) (hrt : rt.protector = p.toProtector base64)
    {limit : Nat} (h : Runs rt base64 (init limit) l) : l.Sound rt base64 p := by
  induction h with
  | refl => exact sound_init rt base64 p limit
  | tail _ hstep ih => exact ih.step correct hrt hstep

/-- In every run, each epoch of a plugin's session has one provider: every finalized
attempt has the sealed record of that provider, for this session and its origin, whose
parent is the head the attempt was begun on. A record that is refused changes nothing. -/
theorem lineage_run (correct : aead.Correct) (hrt : rt.protector = p.toProtector base64)
    {limit : Nat} (h : Runs rt base64 (init limit) l) :
    (∃ provider : String → Int → ProviderBindingWire × String × Nat,
      ∀ a row s, l.db.attempts.get a = some row → row.status = .finalized →
        l.db.sessions.get row.session = some s → s.origin.isPlugin →
        ∃ r, l.Checkpoint rt base64 p a row s r ∧ r.provider = provider row.session row.epoch) ∧
    ∀ nonce r fits, Refused rt l.db nonce r fits →
      ∃ e, rt.finalizeChecked nonce r fits l.db = (.error e, l.db) := by
  have hl := sound_runs correct hrt h
  exact ⟨hl.lineage, fun nonce r fits hrefused => hrefused.unchanged hl.store⟩

end Runs

section Samples

/-- A cipher that appends an empty tag. -/
def appendTag : Aead where
  Key := Unit
  sealInPlace _ _ _ plain := some ⟨(plain.data.toList ++ List.replicate 16 0).toArray⟩
  openInPlace _ _ _ cipher := some ⟨(cipher.data.toList.take (cipher.size - 16)).toArray⟩

theorem appendTag_size (plain : ByteArray) :
    (⟨(plain.data.toList ++ List.replicate 16 0).toArray⟩ : ByteArray).size = plain.size + 16 := by
  simp only [ByteArray.size, List.size_toArray, List.length_append, List.length_replicate,
    Array.length_toList]

theorem appendTag_correct : appendTag.Correct := by
  intro key nonce data plain cipher h
  obtain rfl := Option.some.inj h
  refine congrArg some (ByteArray.ext ?_)
  rw [appendTag_size, Nat.add_sub_cancel, ← ByteArray.size_data, ← Array.length_toList,
    List.take_left' rfl, Array.toArray_toList]

def tagProtector : KeyProtector appendTag where
  key := ()
  id := "k1"
  valid := label_sample

def emptyBase64 : Base64 where
  encode _ := ""
  decode _ := some .empty

def sampleRuntime : Runtime where
  protector := tagProtector.toProtector emptyBase64
  sha256 _ := .replicate 32 0
  base64 := emptyBase64

def sampleBinding : ProviderStateBinding where
  protocol := Ir.providerProtocol
  providerProtocol := "p/v1"
  id := "a"
  version := "1.0.0"
  packageSha256 := String.ofList (List.replicate 64 '0')
  executableSha256 := String.ofList (List.replicate 64 '0')

def pluginOrigin : Origin where
  route := .object [("api", .string "plugin"), ("provider_plugin", .object [
    ("executable_sha256", .string sampleBinding.executableSha256),
    ("id", .string sampleBinding.id), ("package_sha256", .string sampleBinding.packageSha256),
    ("protocol", .string sampleBinding.protocol),
    ("provider_protocol", .string sampleBinding.providerProtocol),
    ("version", .string sampleBinding.version)])]
  realm := "r"
  generation := "g"

/-- A session of the plugin with an attempt that waits for its record. -/
def waitingStore : SqliteStore :=
  run execute (empty (8 * maxPayload)) [.create "s1" pluginOrigin,
    .begin "a" "s1" 1 none "d" (2 * maxPayload + 1024)]

def sampleMetadata (origin : Origin) : ReplayMetadataOwned where
  session := "s1"
  epoch := 1
  origin := origin
  response := "resp_a"
  parent := none
  inputLen := 1
  inputSha256 := String.ofList (List.replicate 64 '0')
  outcome := .completed

def sampleV3 : ReplayV3 where
  toReplayFields := ReplayRecord.newFields (sampleMetadata pluginOrigin) schemaV3 []
  outcome := .completed
  native := { binding := ⟨sampleBinding⟩, format := "f", version := 1, dataBase64 := "" }

def foreignOrigin : Origin where
  route := .object [("api", .string "gemini")]
  realm := "r"
  generation := "g"

def foreignV2 : ReplayV2 where
  toReplayFields := ReplayRecord.newFields (sampleMetadata foreignOrigin) schemaV2 []
  outcome := .completed
  native := .gemini 1 [.null]

def readySession : Session where
  id := "s1"
  epoch := 1
  revision := 1
  origin := pluginOrigin
  status := .ready
  head := none
  pendingTools := false
  portableSha256 := none

def waitingSession : Session := { readySession with status := .pending, revision := 2 }

/-- The waiting attempt is finalized by any record of it that passes the checks. -/
theorem finalize_waiting {r : ReplayRecord} (hsession : r.fields.session = "s1")
    (hresponse : r.fields.response = "resp_a") (hvalid : r.validate emptyBase64 = .ok ())
    (hrender : Text.len r.toJson.render ≤ maxPayload)
    (hrecord : sampleRuntime.checkRecord r waitingStore = (.ok (), waitingStore)) :
    ∃ token, sampleRuntime.finalizeChecked sampleNonce r (fun _ => .ok ()) waitingStore =
      (.ok token, { waitingStore with
        records := waitingStore.records.insert "resp_a"
          { digest := sampleRuntime.recordDigest r, envelope := some token }
        attempts := waitingStore.attempts.insert "resp_a"
          { session := "s1", epoch := 1, inputDigest := "d", status := .finalized
            reserve := 2 * maxPayload + 1024 }
        sessions := waitingStore.sessions.insert "s1" { waitingSession with
          status := .ready, head := some "resp_a", pendingTools := r.outcome = .awaitingTools
          revision := 3 } }) := by
  have hsize := sample_payload hrender
  have hseal := (@sealRecord_ok _ _ tagProtector sampleNonce _ _).2
    ⟨hvalid, hsize, by decide, _, rfl, rfl⟩
  have hfits := @envelope_size _ tagProtector sampleNonce _ hsize (by decide) _ (appendTag_size _)
  generalize tagProtector.envelope r.version sampleNonce _ = token at hseal hfits
  refine ⟨token, bind_accepts.2 ⟨(), _, hrecord, check_bind_accepts.2 ⟨token, hseal, ?_⟩⟩⟩
  refine check_bind_accepts.2 ⟨(), rfl, bind_accepts.2 ⟨(), _, ?_, rfl⟩⟩
  rw [hsession, hresponse]
  refine transaction_accepts.2 (bind_accepts.2 ⟨waitingSession, waitingStore, rfl, ?_⟩)
  refine bind_accepts.2 ⟨_, waitingStore, rfl, check_bind_accepts.2 ⟨(), ?_, ?_⟩⟩
  · rw [rejectIf_ok]
    exact Bool.or_eq_false_iff.2 ⟨decide_eq_false (Nat.not_lt.2 hfits), rfl⟩
  · exact bind_accepts.2 ⟨(), _, rfl, bind_accepts.2 ⟨(), _, rfl, rfl⟩⟩

def waitingLineage : Lineage where
  db := waitingStore
  begun := OrderedMap.empty.insert "resp_a" none

theorem runs_waiting : Runs sampleRuntime emptyBase64 (init (8 * maxPayload)) waitingLineage := by
  have hcreate : Step sampleRuntime emptyBase64 (init (8 * maxPayload)) _ :=
    .other (show isFinalize (.create "s1" pluginOrigin) = false from rfl) fun h => by cases h
  have hcall : SqliteStore.begin "a" "s1" 1 none "d" (2 * maxPayload + 1024)
      (run execute (empty (8 * maxPayload)) [.create "s1" pluginOrigin]) =
      (.ok "resp_a", waitingStore) := by
    decide +kernel
  have hbegin : Step sampleRuntime emptyBase64
      ⟨run execute (empty (8 * maxPayload)) [.create "s1" pluginOrigin], .empty⟩
      ⟨waitingStore, OrderedMap.empty.insert "resp_a" readySession.head⟩ := .begin rfl hcall
  exact .tail (.single hcreate) hbegin

theorem fromNative_sampleV3 :
    ReplayRecord.fromNative emptyBase64 (sampleMetadata pluginOrigin)
      (.provider ⟨sampleBinding, "f", 1, .empty⟩) [] = .ok (.v3 sampleV3) := by
  decide +kernel

/-- The first record of a plugin's session. -/
theorem lineage_run_first :
    ∃ l row s r, Runs sampleRuntime emptyBase64 (init (8 * maxPayload)) l ∧
      l.db.attempts.get "resp_a" = some row ∧ row.status = .finalized ∧
      l.db.sessions.get row.session = some s ∧
      l.Checkpoint sampleRuntime emptyBase64 tagProtector "resp_a" row s r := by
  obtain ⟨token, hcall⟩ := finalize_waiting (r := .v3 sampleV3) rfl rfl (by decide +kernel)
    (by decide +kernel) (by
      refine check_bind_accepts.2 ⟨(), by decide +kernel, ?_⟩
      refine bind_accepts.2 ⟨waitingSession, waitingStore, rfl, ?_⟩
      exact check_bind_accepts.2 ⟨(), by decide +kernel, rfl⟩)
  have built : Built emptyBase64 waitingStore (.v3 sampleV3) :=
    ⟨_, _, _, fromNative_sampleV3, fun _ h => by cases h⟩
  have hruns := runs_waiting.tail
    (@Step.finalize _ _ _ sampleNonce (.v3 sampleV3) (fun _ => .ok ()) built)
  change Runs _ _ _ { waitingLineage with db := (sampleRuntime.finalizeChecked sampleNonce
    (.v3 sampleV3) (fun _ => .ok ()) waitingStore).2 } at hruns
  rw [hcall] at hruns
  obtain ⟨⟨provider, hprovider⟩, -⟩ := lineage_run appendTag_correct rfl hruns
  obtain ⟨r, hr, -⟩ := hprovider "resp_a" _ _ (OrderedMap.get_insert_self _ _ _) rfl
    (OrderedMap.get_insert_self _ _ _) rfl
  exact ⟨_, _, _, r, hruns, OrderedMap.get_insert_self _ _ _, rfl,
    OrderedMap.get_insert_self _ _ _, hr⟩

/-- A record of a built-in adapter that names a session of a plugin, under another origin. -/
theorem lineage_run_foreign :
    ReplayRecord.fromNative emptyBase64 (sampleMetadata foreignOrigin)
      (.builtin (.gemini 1 [.null])) [] = .ok (.v2 foreignV2) ∧
    ∃ token db row s, sampleRuntime.finalizeChecked sampleNonce (.v2 foreignV2)
        (fun _ => .ok ()) waitingStore = (.ok token, db) ∧
      db.attempts.get "resp_a" = some row ∧ row.status = .finalized ∧
      db.sessions.get row.session = some s ∧ s.origin.isPlugin ∧
      db.records.get "resp_a" = some
        { digest := sampleRuntime.recordDigest (.v2 foreignV2), envelope := some token } := by
  refine ⟨by decide +kernel, ?_⟩
  obtain ⟨token, hcall⟩ := finalize_waiting (r := .v2 foreignV2) rfl rfl (by decide +kernel)
    (by decide +kernel) rfl
  exact ⟨token, _, _, _, hcall, OrderedMap.get_insert_self _ _ _, rfl,
    OrderedMap.get_insert_self _ _ _, rfl, OrderedMap.get_insert_self _ _ _⟩

end Samples

end Lineage

end ResponseGateway.Continuation
