import ResponseGateway.Adapters.Chat
import ResponseGateway.Adapters.ResponsesDecoding
import ResponseGateway.Ir.EventReduction

/-!
What decoding a completion says. The response has one item for the text, if there is one,
and then one item for each call, named after the completion and their places. The usage is
only carried over: the same completion with another usage decodes to the same response but
for that.
-/

namespace ResponseGateway.Adapters
open Checked Ir Request Method
open Json (ofFields)

namespace PreparedTools

variable {texts : Texts} {tools tools' : PreparedTools}

theorem restore_accepts {name raw : String} {callId : CallId} {item : ItemId} {call : ToolCall}
    (h : restore texts name callId item raw tools = (.ok call, tools')) :
    call.itemId = some item ∧ tools'.parallel = tools.parallel ∧ tools'.choice = tools.choice := by
  simp only [restore, check_bind_accepts] at h
  obtain ⟨_, -, h⟩ := h
  obtain ⟨call', s₁, hcall, h⟩ := bind_accepts.1 h
  obtain ⟨registry, hrestore, rfl⟩ := zoom_accepts.1 hcall
  rw [faulting_accepts] at hrestore
  simp only [read_bind_accepts, check_bind_accepts, pure_accepts] at h
  obtain ⟨_, -, rfl, rfl⟩ := h
  exact ⟨restoreCall_accepts hrestore, rfl, rfl⟩

end PreparedTools

namespace PreparedChat

variable {texts : Texts} {p p' : PreparedChat} {value response : Json}

section Validator

/-- The validator still takes events, and knows as much of the usage as before. -/
structure Untold (v v' : EventValidator) : Prop where
  started : v'.started = v.started
  terminal : v'.terminal = v.terminal
  usage : v'.usage = v.usage

theorem Untold.refl (v : EventValidator) : Untold v v := ⟨rfl, rfl, rfl⟩

theorem Untold.trans {v v' v'' : EventValidator} (h : Untold v v') (h' : Untold v' v'') :
    Untold v v'' :=
  ⟨h'.started.trans h.started, h'.terminal.trans h.terminal, h'.usage.trans h.usage⟩

/-- The events about an item. -/
def isItemEvent : EventIR → Bool
  | .itemStarted _ _ _ | .partStarted _ _ _ | .textDelta _ _ _ | .partFinished _ _
  | .argumentsDelta _ _ | .itemFinished _ => true
  | .started _ | .usageUpdated _ | .finished _ _ => false

variable {v v' : EventValidator}

theorem apply_untold {event : EventIR} {u : Unit} (hevent : isItemEvent event = true)
    (h : apply texts event v = (.ok u, v')) : Untold v v' := by
  rw [apply, faulting_accepts] at h
  obtain ⟨-, haccepts⟩ := EventValidator.apply_accepts h
  cases haccepts with
  | started | usageUpdated | finished => cases hevent
  | itemStarted | partStarted | textDelta | partFinished | argumentsDelta | itemFinished =>
      exact ⟨rfl, rfl, rfl⟩

theorem forM_untold {α : Type} {f : α → EventIR} (hf : ∀ a, isItemEvent (f a) = true)
    {l : List α} {u : Unit} (h : (l.forM fun a => apply texts (f a)) v = (.ok u, v')) :
    Untold v v' := by
  induction l generalizing v with
  | nil =>
      obtain ⟨-, rfl⟩ := pure_accepts.1 h
      exact .refl v
  | cons a rest ih =>
      obtain ⟨_, v₁, hfirst, hrest⟩ := bind_accepts.1
        (show (apply texts (f a) >>= fun _ => rest.forM fun a => apply texts (f a)) v = _ from h)
      exact (apply_untold (hf a) hfirst).trans (ih hrest)

theorem advance_ok {m : Method EventValidator (Fault IrError) Unit} :
    advance m v = .ok v' ↔ ∃ u, m v = (.ok u, v') := by
  simp only [advance, bind_ok, pure_ok, Prod.ext_iff, exists_and_right]

theorem validateText_untold {item : ItemId} {text : String} {u : Unit}
    (h : validateText texts item text v = (.ok u, v')) : Untold v v' := by
  obtain ⟨_, v₁, h₁, h⟩ := bind_accepts.1 h
  obtain ⟨_, v₂, h₂, h⟩ := bind_accepts.1 h
  obtain ⟨_, v₃, h₃, h⟩ := bind_accepts.1 h
  obtain ⟨_, v₄, h₄, h₅⟩ := bind_accepts.1 h
  exact (((apply_untold rfl h₁).trans (apply_untold rfl h₂)).trans
    (forM_untold (fun _ => rfl) h₃)).trans ((apply_untold rfl h₄).trans (apply_untold rfl h₅))

theorem validateCall_untold {item : ItemId} {place : Fin (2 ^ 32)} {call : ToolCall} {u : Unit}
    (h : validateCall texts item place call v = (.ok u, v')) : Untold v v' := by
  obtain ⟨_, v₁, h₁, h⟩ := bind_accepts.1 h
  obtain ⟨_, v₂, h₂, h₃⟩ := bind_accepts.1 h
  exact ((apply_untold rfl h₁).trans (forM_untold (fun _ => rfl) h₂)).trans
    (apply_untold rfl h₃)

end Validator

section Items

/-- An item of the output, by what the completion says. -/
inductive OutputItem (id : String) (content : Option String) (place : Nat) (item : Json) : Prop where
  | message {text : String} {part : Json} (said : content = some text) (first : place = 0)
      (hasId : item.fieldStr "id" = some (itemName id 0))
      (type : item.fieldStr "type" = some "message")
      (holds : item.lookup "content" = .array [part])
      (same : part.fieldStr "text" = some text)
  | tool (later : content.isSome = true → 0 < place)
      (hasId : item.fieldStr "id" = some (itemName id place)) (tool : isTool item = true)

/-- The items of a completion, in the order of their places. -/
structure Items (id : String) (content : Option String) (count : Nat) (output : List Json) :
    Prop where
  length : output.length = content.isSome.toNat + count
  item : ∀ (k : Nat) item, output[k]? = some item → OutputItem id content k item

variable {id : String} {msg : Json} {v v' : EventValidator} {items : List Json}

/-- The text that a message says. -/
def said (message : Json) : Option String := (given message "content").bind Json.asStr

theorem decodeText_ok (h : decodeText texts id msg v = .ok (items, v')) :
    Untold v v' ∧ items.length = (said msg).isSome.toNat ∧
      ∀ (k : Nat) item, items[k]? = some item → OutputItem id (said msg) k item := by
  rw [decodeText] at h
  cases hcontent : given msg "content" with
  | none =>
      rw [hcontent] at h
      rw [pure_ok, Prod.mk.injEq] at h
      obtain ⟨rfl, rfl⟩ := h
      rw [said, hcontent]
      exact ⟨.refl v, rfl, by simp⟩
  | some content =>
      rw [hcontent] at h
      simp only [bind_ok, lift_ok, okOr_ok, Identity.new_ok, advance_ok, pure_ok,
        Prod.mk.injEq] at h
      obtain ⟨text, htext, item, hitem, _, ⟨_, hvalidate⟩, rfl, rfl⟩ := h
      have hsaid : said msg = some text := by rw [said, hcontent, Option.bind_some, htext]
      refine ⟨validateText_untold hvalidate, by rw [hsaid]; rfl, fun k item' hk => ?_⟩
      rw [List.getElem?_singleton] at hk
      split at hk
      · next hzero =>
          cases hk
          refine @OutputItem.message _ _ _ _ _ (textPart text) hsaid hzero ?_ ?_ (Json.lookup_of_field ?_) ?_
          · simp [messageItem, Json.fieldStr, Json.asStr, hitem]
          · simp [messageItem, Json.fieldStr, Json.asStr]
          · simp [messageItem]
          · simp [textPart, Json.fieldStr, Json.asStr]
      · cases hk

theorem decodeCall_accepts {place : Nat} {tool item : Json}
    (h : decodeCall texts id place tool v p = (.ok (item, v'), p')) :
    Untold v v' ∧ item.fieldStr "id" = some (itemName id place) ∧ isTool item = true ∧
      p'.model = p.model ∧ p'.tools.parallel = p.tools.parallel ∧
        p'.tools.choice = p.tools.choice := by
  simp only [decodeCall, check_bind_accepts, lift_ok, Identity.new_ok] at h
  obtain ⟨function, -, itemId, hitem, name, -, text, -, callId, -, raw, -, h⟩ := h
  obtain ⟨call, p₁, hcall, h⟩ := bind_accepts.1 h
  obtain ⟨tools, hrestore, rfl⟩ := zoom_accepts.1 hcall
  simp only [check_bind_accepts, advance_ok, pure_accepts, Prod.mk.injEq] at h
  obtain ⟨index, -, _, ⟨_, hvalidate⟩, output, houtput, ⟨rfl, rfl⟩, rfl⟩ := h
  obtain ⟨hid, hparallel, hchoice⟩ := PreparedTools.restore_accepts hrestore
  obtain ⟨itemId', hitemId, hname, htool⟩ := toolOutput_ok houtput
  cases hid.symm.trans hitemId
  exact ⟨validateCall_untold hvalidate, hname.trans (congrArg some hitem), htool, rfl, hparallel,
    hchoice⟩

theorem decodeCalls_accepts {place : Nat} {tools : List Json}
    (h : decodeCalls texts id place tools v p = (.ok (items, v'), p')) :
    Untold v v' ∧ items.length = tools.length ∧
      (∀ (k : Nat) item, items[k]? = some item →
        item.fieldStr "id" = some (itemName id (place + k)) ∧ isTool item = true) ∧
      p'.model = p.model ∧ p'.tools.parallel = p.tools.parallel ∧
        p'.tools.choice = p.tools.choice := by
  induction tools generalizing place v p items with
  | nil =>
      rw [decodeCalls, pure_accepts, Prod.mk.injEq] at h
      obtain ⟨⟨rfl, rfl⟩, rfl⟩ := h
      exact ⟨.refl v, rfl, by simp, rfl, rfl, rfl⟩
  | cons tool rest ih =>
      rw [decodeCalls] at h
      obtain ⟨⟨item, v₁⟩, p₁, hfirst, h⟩ := bind_accepts.1 h
      obtain ⟨⟨more, v₂⟩, p₂, hrest, h⟩ := bind_accepts.1 h
      rw [pure_accepts, Prod.mk.injEq] at h
      obtain ⟨⟨rfl, rfl⟩, rfl⟩ := h
      obtain ⟨huntold, hid, htool, hmodel, hparallel, hchoice⟩ := decodeCall_accepts hfirst
      obtain ⟨huntold', hlength, hitems, hmodel', hparallel', hchoice'⟩ := ih hrest
      refine ⟨huntold.trans huntold', congrArg (· + 1) hlength, fun k item' hk => ?_,
        hmodel'.trans hmodel, hparallel'.trans hparallel, hchoice'.trans hchoice⟩
      cases k with
      | zero =>
          cases hk
          exact ⟨hid, htool⟩
      | succ k =>
          rw [← Nat.add_assoc, Nat.add_right_comm]
          exact hitems k item' hk

theorem OutputItem.congr {content : Option String} {place : Nat} {item item' : Json}
    (h : OutputItem id content place item)
    (hsame : ∀ key, "status" ≠ key → item'.field key = item.field key) :
    OutputItem id content place item' := by
  have hstr : ∀ key, "status" ≠ key → item'.fieldStr key = item.fieldStr key := fun key hkey => by
    rw [Json.fieldStr, hsame key hkey, Json.fieldStr]
  cases h with
  | message said first hasId type holds same =>
      refine .message said first ((hstr _ (by decide)).trans hasId)
        ((hstr _ (by decide)).trans type) ?_ same
      rw [Json.lookup, hsame _ (by decide), ← Json.lookup, holds]
  | tool later hasId tool =>
      refine .tool later ((hstr _ (by decide)).trans hasId) ?_
      rw [isTool, hstr _ (by decide), ← isTool, tool]

theorem settle_ok {outcome : Terminal} {output : List Json} (h : settle outcome items = .ok output) :
    output.length = items.length ∧ ∀ (k : Nat) item', output[k]? = some item' →
      ∃ item, items[k]? = some item ∧ ∀ key, "status" ≠ key → item'.field key = item.field key := by
  rw [settle] at h
  split at h
  · obtain ⟨hlength, hall⟩ := mapM_getElem_ok h
    refine ⟨hlength, fun k item' hk => ?_⟩
    obtain ⟨item, hitem, hset⟩ := hall k item' hk
    exact ⟨item, hitem, fun key hkey => (Json.field_setAt hset key).trans (if_neg hkey)⟩
  · cases h
    exact ⟨rfl, fun k item hk => ⟨item, hk, fun _ _ => rfl⟩⟩

end Items

section Decoding

/-- A completion and the response that it is decoded to. -/
structure Decoded (p : PreparedChat) (value response : Json) (output : List Json) : Prop where
  parts : ∃ text id created choice msg tools finish outcome usage,
    p.header value = .ok (text, id, created) ∧ message value = .ok (choice, msg) ∧
    calls msg = .ok tools ∧ choice.fieldStr "finish_reason" = some finish ∧
    p.terminal finish tools.length = .ok outcome ∧ reported value = .ok usage ∧
    response = responseOf id created p.model (statusText outcome.1) output (usage.getD .null)
      outcome.2 ∧
    Items text (said msg) tools.length output

/-- The prepared request but for what its registry remembers of calls. -/
structure Kept (p p' : PreparedChat) : Prop where
  model : p'.model = p.model
  parallel : p'.tools.parallel = p.tools.parallel
  choice : p'.tools.choice = p.tools.choice

theorem Kept.terminal (h : Kept p p') (finish : String) (count : Nat) :
    p'.terminal finish count = p.terminal finish count := by
  simp only [PreparedChat.terminal, PreparedTools.validateCount, h.parallel, h.choice]

theorem decode_accepts (h : decode texts value p = (.ok response, p')) :
    (∃ output, Decoded p value response output) ∧ Kept p p' := by
  simp only [decode, read_bind_accepts, check_bind_accepts, lift_ok, Prod.exists] at h
  obtain ⟨text, id, created, hheader, choice, msg, hmessage, v₀, -, v₁, -, spoken, v₂, hspoken,
    tools, htools, h⟩ := h
  obtain ⟨⟨called, v₃⟩, p₁, hcalled, h⟩ := bind_accepts.1 h
  simp only [check_bind_accepts, lift_ok, string_ok, pure_accepts, Prod.exists] at h
  obtain ⟨finish, hfinish, outcome, reason, hterminal, usage, husage, v₄, -, _, -, output, hsettle,
    rfl, rfl⟩ := h
  obtain ⟨-, hlength, hitems⟩ := decodeText_ok hspoken
  obtain ⟨-, hcount, hcalls, hmodel, hparallel, hchoice⟩ := decodeCalls_accepts hcalled
  obtain ⟨hsettled, hsame⟩ := settle_ok hsettle
  rw [hcount] at hterminal
  refine ⟨⟨output, text, id, created, choice, msg, tools, finish, (outcome, reason), usage, hheader,
    hmessage, htools, hfinish, hterminal, husage, rfl, ?_, fun k item' hk => ?_⟩,
    hmodel, hparallel, hchoice⟩
  · rw [hsettled, List.length_append, hlength, hcount]
  · obtain ⟨item, hitem, hfields⟩ := hsame k item' hk
    refine OutputItem.congr ?_ hfields
    by_cases hlt : k < spoken.length
    · rw [List.getElem?_append_left hlt] at hitem
      exact hitems k item hitem
    · rw [List.getElem?_append_right (Nat.le_of_not_lt hlt)] at hitem
      obtain ⟨hid, htool⟩ := hcalls _ item hitem
      rw [Nat.add_sub_cancel' (Nat.le_of_not_lt hlt)] at hid
      refine .tool (fun hsaid => ?_) hid htool
      rw [hsaid] at hlength
      exact Nat.lt_of_lt_of_le (hlength ▸ Nat.one_pos) (Nat.le_of_not_lt hlt)

end Decoding

section Usage

theorem string_congr {value value' : Json} {key : String} (h : value'.field key = value.field key) :
    string value' key = string value key := by
  rw [string, Json.fieldStr, h, string, Json.fieldStr]

/-- Two values that differ in what they report as usage, at most. -/
def UpToUsage (value value' : Json) : Prop :=
  ∀ key, "usage" ≠ key → value'.field key = value.field key

variable {value' : Json} {v v' : EventValidator}

theorem UpToUsage.header (h : UpToUsage value value') : p.header value' = p.header value := by
  rw [PreparedChat.header, PreparedChat.header, string_congr (h "object" (by decide)),
    string_congr (h "model" (by decide)), string_congr (h "id" (by decide)),
    h "created" (by decide)]

theorem UpToUsage.message (h : UpToUsage value value') : message value' = message value := by
  rw [PreparedChat.message, PreparedChat.message, h "choices" (by decide)]

/-- A first usage is always accepted. -/
theorem advance_counted (usage : Json) (hstarted : v.started = true) (hterminal : v.terminal = none)
    (husage : v.usage = none) :
    ∃ known, advance (apply texts (counted usage)) v = .ok { v with usage := known } := by
  suffices hcall : ∃ known, apply texts (counted usage) v = (.ok (), { v with usage := known }) from
    hcall.imp fun known hcall => advance_ok.2 ⟨(), hcall⟩
  simp only [apply, faulting_accepts, counted, EventValidator.apply, EventValidator.dispatch,
    EventValidator.afterStart, EventValidator.usageUpdated, read_bind_accepts, check_bind_accepts,
    write_accepts, rejectIf_ok]
  refine ⟨_, (), by rw [hterminal]; rfl, (), by rw [hstarted]; rfl, (), ?_, (), ?_, rfl⟩
  · rw [husage]
    rfl
  · rw [husage]
    rfl

theorem advance_finished {outcome : Terminal} {reason : Option String} (usage : Option Usage)
    (h : advance (apply texts (.finished outcome reason)) v = .ok v') :
    ∃ v'', advance (apply texts (.finished outcome reason)) { v with usage } = .ok v'' := by
  obtain ⟨u, h⟩ := advance_ok.1 h
  rw [apply, faulting_accepts] at h
  simp only [EventValidator.apply, EventValidator.dispatch, EventValidator.afterStart,
    EventValidator.finished, read_bind_accepts, check_bind_accepts, write_bind_accepts,
    write_accepts] at h
  obtain ⟨_, hterminal, _, hstarted, _, hreason, _, hitems, -⟩ := h
  suffices hcall : ∃ v'', apply texts (.finished outcome reason) { v with usage } = (.ok u, v'') from
    hcall.imp fun v'' hcall => advance_ok.2 ⟨u, hcall⟩
  simp only [apply, faulting_accepts, EventValidator.apply, EventValidator.dispatch,
    EventValidator.afterStart, EventValidator.finished, read_bind_accepts, check_bind_accepts,
    write_bind_accepts, write_accepts]
  exact ⟨_, _, hterminal, _, hstarted, _, hreason, _, hitems, rfl⟩

theorem sorted_fields (fields : Json.Fields) :
    Assoc.Sorted (fields.foldr (fun entry rest => Assoc.insert entry.1 entry.2 rest) []) := by
  induction fields with
  | nil => exact Assoc.sorted_nil
  | cons entry rest ih => exact Assoc.sorted_insert _ _ ih

/-- Inserting a field again. -/
theorem insert_fields {key : String} {before : Json.Fields} (value value' : Json)
    (h : ∀ entry ∈ before, entry.1 ≠ key) (rest : Json.Fields) :
    Assoc.insert key value' ((before ++ (key, value) :: rest).foldr
      (fun entry rest => Assoc.insert entry.1 entry.2 rest) []) =
    (before ++ (key, value') :: rest).foldr (fun entry rest => Assoc.insert entry.1 entry.2 rest)
      [] := by
  refine Assoc.ext_get (Assoc.sorted_insert _ _ (sorted_fields _)) (sorted_fields _) fun other => ?_
  rw [Assoc.get_insert]
  induction before with
  | nil =>
      simp only [List.nil_append, List.foldr_cons, Assoc.get_insert]
      split <;> rfl
  | cons entry before ih =>
      obtain ⟨hentry, hrest⟩ := List.forall_mem_cons.1 h
      simp only [List.cons_append, List.foldr_cons, Assoc.get_insert]
      rw [← ih hrest]
      by_cases hother : key = other
      · rw [if_pos hother, if_neg fun heq => hentry (heq.trans hother.symm), if_pos hother]
      · rw [if_neg hother, if_neg hother]

theorem setAt_responseOf {ε : Type} (id : ResponseId) (created : Nat) (model status : String)
    (output : List Json) (usage usage' : Json) (reason : Option String) :
    ((responseOf id created model status output usage reason).setAt "usage" usage' :
      Except (Fault ε) Json) = .ok (responseOf id created model status output usage' reason) := by
  let before : Json.Fields := [("id", .string id.value), ("object", .string "response"),
    ("created_at", .number (.ofNat created)), ("model", .string model), ("status", .string status),
    ("output", .array output)]
  have hbefore : ∀ entry ∈ before, entry.1 ≠ "usage" := by
    simp [before]
  exact congrArg (fun fields => Except.ok (Json.object fields)) (insert_fields usage usage' hbefore _)

/-- A completion that reports a usage, and the same one without it. -/
theorem decode_usage {usage : Option Json} {response' : Json} (hsame : UpToUsage value value')
    (hnone : given value "usage" = none) (hreported : reported value' = .ok usage)
    (h : decode texts value p = (.ok response, p'))
    (hset : (response.setAt "usage" (usage.getD .null) : Except (Fault IrError) Json) =
      .ok response') : decode texts value' p = (.ok response', p') := by
  have hreported' : reported value = .ok none := by
    rw [reported, hnone]
    rfl
  simp only [decode, read_bind_accepts, check_bind_accepts, lift_ok, Prod.exists] at h ⊢
  obtain ⟨text, id, created, hheader, choice, msg, hmessage, v₀, hnew, v₁, hstarted, spoken, v₂,
    hspoken, tools, htools, h⟩ := h
  refine ⟨text, id, created, hsame.header.trans hheader, choice, msg, hsame.message.trans hmessage,
    v₀, hnew, v₁, hstarted, spoken, v₂, hspoken, tools, htools, ?_⟩
  obtain ⟨⟨called, v₃⟩, p₁, hcalled, h⟩ := bind_accepts.1 h
  refine bind_accepts.2 ⟨(called, v₃), p₁, hcalled, ?_⟩
  simp only [check_bind_accepts, lift_ok, pure_accepts, Prod.exists, hreported',
    Except.ok.injEq, exists_eq_left', pure_ok] at h ⊢
  obtain ⟨finish, hfinish, outcome, reason, hterminal, _, hfinal, output, hsettle, rfl, rfl⟩ := h
  rw [Option.getD_none, setAt_responseOf] at hset
  cases hset
  have hfresh : v₃.started = true ∧ v₃.terminal = none ∧ v₃.usage = none := by
    obtain ⟨_, hstarted⟩ := advance_ok.1 hstarted
    rw [apply, faulting_accepts] at hstarted
    obtain ⟨hterminal, haccepts⟩ := EventValidator.apply_accepts hstarted
    have huntold := (decodeText_ok hspoken).1.trans (decodeCalls_accepts hcalled).1
    rw [huntold.started, huntold.terminal, huntold.usage]
    cases haccepts with
    | started =>
        simp only [EventValidator.new, bind_ok, pure_ok] at hnew
        obtain ⟨_, -, rfl⟩ := hnew
        exact ⟨rfl, rfl, rfl⟩
  cases usage with
  | none =>
      exact ⟨finish, hfinish, outcome, reason, hterminal, none, hreported, v₃, rfl, _, hfinal, output,
        hsettle, rfl, rfl⟩
  | some usage =>
      obtain ⟨known, hcounted⟩ := @advance_counted texts v₃ usage hfresh.1 hfresh.2.1 hfresh.2.2
      obtain ⟨v₅, hfinal⟩ := advance_finished known hfinal
      exact ⟨finish, hfinish, outcome, reason, hterminal, some usage, hreported, _, hcounted, v₅,
        hfinal, output, hsettle, rfl, rfl⟩

end Usage

end PreparedChat

end ResponseGateway.Adapters
