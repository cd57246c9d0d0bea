/-
The messages that concurrent children of the data server store.

Whatever the requests, however their statements interleave and whichever of
them fail, the table of messages holds the messages there were and those the
children have stored, each once, except those of chats that were deleted
(`concurrent_stored`). What a child stores is what MySQL reads in the text of
its `INSERT`; the statements considered are of one row of literals, as they
are for strings without quotes. So a `SEND_MESSAGE` that is answered with
success has stored one message, and one that is refused has stored none, but
for the half sent one whose `UPDATE` failed.
-/
import FinalServer.Atomicity
import FinalServer.LastMessage
import FinalServer.Pasts

namespace FinalServer

/-- The row of a message with an id, at a time. -/
def Message.row (msg : Message) (clock : Nat) (messageId : Int) : MessageRow :=
  ⟨messageId, msg.chatId, msg.senderId, msg.content, msg.messageType, clock⟩

/-- The text of an `INSERT` into `messages` of one row of literals. -/
def oneRow (sql : CString) : Option Message :=
  match MessageSql.readRows sql with
  | some [msg] => some msg
  | _ => none

/-- If the statement is an `INSERT` into `messages`, it is of one row of literals. -/
def Query.StoresOne (q : Query) : Prop := ∀ sql ∈ q.newMessage, (oneRow sql).isSome = true

instance (q : Query) : Decidable q.StoresOne := inferInstanceAs (Decidable (∀ sql ∈ _, _))

/-- The row that an answered statement has stored at a time. -/
def newRow (clock : Nat) : (q : Query) → q.Result → Option MessageRow
  | .insertMessage sql, r => (oneRow sql).bind fun msg => Option.map (fun id : Int => msg.row clock id) r
  | _, _ => none

/-- The rows that a child has stored, in the order of its statements. -/
def rowsStored (clock : Nat) (past : List Entry) : List MessageRow := past.filterMap fun e => newRow clock e.1 e.2

theorem rowsStored_concat (clock : Nat) (past : List Entry) (e : Entry) :
    rowsStored clock (past ++ [e]) = rowsStored clock past ++ (newRow clock e.1 e.2).toList := by
  rw [rowsStored, List.filterMap_append]
  cases h : newRow clock e.1 e.2 <;> simp [rowsStored, h]

theorem readRows_of_oneRow {sql : CString} {msg : Message} (h : oneRow sql = some msg) :
    MessageSql.readRows sql = some [msg] := by
  rw [oneRow] at h
  split at h
  next hread =>
    cases h
    exact hread
  next => cases h

/-- A refused statement has stored nothing. -/
theorem newRow_refused (clock : Nat) (q : Query) : newRow clock q q.refused = none := by
  cases q with
  | insertMessage sql =>
    rw [newRow]
    cases oneRow sql <;> rfl
  | _ => rfl

namespace Tables

variable {m : Mysql} {t : Tables} {q : Query} {row : MessageRow}

/-- An `INSERT` of one row of literals stores it, or nothing. -/
theorem insertMessage_oneRow {sql : CString} {msg : Message} (h : oneRow sql = some msg) :
    t.insertMessage m sql = (none, t) ∨
      (msg.chatId ∈ t.chatIds ∧ t.insertMessage m sql = (some t.nextMessageId, { t with
        messages := t.messages ++ [msg.row t.clock t.nextMessageId], nextMessageId := t.nextMessageId + 1 })) := by
  rw [insertMessage, m.messageRows_literal (readRows_of_oneRow h), insertRows_singleton]
  cases hrow : t.insertMessageRow msg with
  | none => exact .inl rfl
  | some t' =>
    obtain ⟨⟨hchat, -⟩, rfl⟩ := insertMessageRow_eq_some.mp hrow
    exact .inr ⟨hchat, rfl⟩

/-- The row a statement stores is in the table, with the next id, and its chat is there. -/
theorem exec_newRow (h : newRow t.clock q (exec m q t).1 = some row) :
    row ∈ (exec m q t).2.messages ∧ row.messageId = t.nextMessageId ∧ row.chatId ∈ t.chatIds ∧
      (exec m q t).2.nextMessageId = t.nextMessageId + 1 := by
  cases q with
  | insertMessage sql =>
    obtain ⟨msg, hmsg, hid⟩ := Option.bind_eq_some_iff.mp h
    obtain hnone | ⟨hchat, hstored⟩ := insertMessage_oneRow (m := m) (t := t) hmsg
    · have hid' : Option.map (fun id : Int => msg.row t.clock id) (t.insertMessage m sql).1 = some row := hid
      rw [hnone] at hid'
      cases hid'
    · have hid' : Option.map (fun id : Int => msg.row t.clock id) (t.insertMessage m sql).1 = some row := hid
      rw [hstored] at hid'
      obtain rfl := Option.some.inj hid'
      simp only [exec, hstored]
      exact ⟨List.mem_append_right _ (List.mem_singleton_self _), rfl, hchat, trivial⟩
  | _ => cases h

/-- Nothing else is new in the table. -/
theorem exec_messages_cases (hq : q.StoresOne) (h : row ∈ (exec m q t).2.messages) :
    row ∈ t.messages ∨ newRow t.clock q (exec m q t).1 = some row := by
  cases q with
  | insertMessage sql =>
    obtain ⟨msg, hmsg⟩ := Option.isSome_iff_exists.mp (hq sql rfl)
    simp only [newRow, exec, hmsg, Option.bind_some] at h ⊢
    obtain hnone | ⟨-, hstored⟩ := insertMessage_oneRow (m := m) (t := t) hmsg
    · rw [hnone] at h
      exact .inl h
    · rw [hstored] at h ⊢
      rcases List.mem_append.mp h with h | h
      · exact .inl h
      · exact .inr (congrArg some (List.mem_singleton.mp h).symm)
  | updateLastMessage => exact .inl h
  | _ => exact .inl (exec_messages_subset rfl h)

theorem exec_clock (m : Mysql) (q : Query) (t : Tables) : (exec m q t).2.clock = t.clock := by
  cases q with
  | insertUser sql =>
    simp only [exec]
    split
    · unfold insertUser
      split <;> rfl
    · rfl
  | insertChat sql =>
    refine insertRows_invariant (P := fun t' => t'.clock = t.clock) (fun hrow h => ?_) rfl
    obtain ⟨-, rfl⟩ := insertChatRow_eq_some.mp hrow
    exact h
  | insertParticipant c u a =>
    simp only [exec, insertParticipant]
    split <;> rfl
  | insertMessage sql =>
    refine insertRows_invariant (P := fun t' => t'.clock = t.clock) (fun hrow h => ?_) rfl
    obtain ⟨-, rfl⟩ := insertMessageRow_eq_some.mp hrow
    exact h
  | _ => rfl

end Tables

/-! ## Every message is accounted for -/

section Accounted

variable {ι : Type*} {d₀ d : Db} {past : ι → List Entry}

/-- A message there was, or one that a child has stored. -/
def Sent (d₀ : Db) (past : ι → List Entry) (row : MessageRow) : Prop :=
  row ∈ d₀.messages ∨ ∃ i, row ∈ rowsStored d₀.clock (past i)

/-- The table holds what was sent to the chats that are there. The ids of what
the children have stored are new, and no two are the same. -/
structure Accounted (d₀ d : Db) (past : ι → List Entry) : Prop where
  clock : d.clock = d₀.clock
  table : ∀ row, row ∈ d.messages ↔ Sent d₀ past row ∧ row.chatId ∈ d.chatIds
  range : ∀ row, Sent d₀ past row → row.messageId < d.nextMessageId ∧ row.chatId < d.nextChatId
  fresh : ∀ i, ∀ row ∈ rowsStored d₀.clock (past i), d₀.nextMessageId ≤ row.messageId
  next : d₀.nextMessageId ≤ d.nextMessageId
  ordered : ∀ i, (rowsStored d₀.clock (past i)).Pairwise (·.messageId < ·.messageId)
  apart : ∀ i j, i ≠ j → ∀ row ∈ rowsStored d₀.clock (past i), ∀ row' ∈ rowsStored d₀.clock (past j),
    row.messageId ≠ row'.messageId
  /-- What the children store is what the texts say. -/
  literal : ∀ i, ∀ e ∈ past i, e.1.StoresOne

theorem accounted_start (d : Db) : Accounted d d fun _ : ι => [] where
  clock := rfl
  table row := by
    have hnone : ¬ ∃ _ : ι, row ∈ rowsStored d.clock [] := fun ⟨_, h⟩ => by cases h
    simp only [Sent, or_iff_left hnone]
    exact ⟨fun h => ⟨h, d.wf.messages_chat row h⟩, And.left⟩
  range row h := by
    obtain h | ⟨i, h⟩ := h
    · obtain ⟨chat, hchat, hid⟩ := Tables.mem_chatIds.mp (d.wf.messages_chat row h)
      exact ⟨d.wf.messages_lt row h, hid ▸ d.wf.chats_lt chat hchat⟩
    · cases h
  fresh i row h := by cases h
  next := le_rfl
  ordered i := .nil
  apart i j _ row h := by cases h
  literal i e h := by cases h

variable [DecidableEq ι] {m : Mysql} {i : ι}

theorem mem_rowsStored_update {clock : Nat} {e : Entry} {j : ι} {row : MessageRow} :
    row ∈ rowsStored clock (Function.update past i (past i ++ [e]) j) ↔
      row ∈ rowsStored clock (past j) ∨ (j = i ∧ newRow clock e.1 e.2 = some row) := by
  by_cases hj : j = i
  · subst hj
    rw [Function.update_self, rowsStored_concat, List.mem_append, Option.mem_toList]
    simp
  · simp [hj]

theorem sent_update {e : Entry} {row : MessageRow} : Sent d₀ (Function.update past i (past i ++ [e])) row ↔
    Sent d₀ past row ∨ newRow d₀.clock e.1 e.2 = some row := by
  simp only [Sent, mem_rowsStored_update, exists_or, exists_eq_left, or_assoc]

theorem mem_update_past {e e' : Entry} {j : ι} :
    e' ∈ Function.update past i (past i ++ [e]) j ↔ e' ∈ past j ∨ (j = i ∧ e' = e) := by
  by_cases hj : j = i
  · subst hj
    simp
  · simp [hj]

/-- A statement that fails. -/
theorem Accounted.refused (h : Accounted d₀ d past) (i : ι) {q : Query} (hq : q.StoresOne) :
    Accounted d₀ d (Function.update past i (past i ++ [⟨q, q.refused⟩])) := by
  have hrows : ∀ j, rowsStored d₀.clock (Function.update past i (past i ++ [⟨q, q.refused⟩]) j) =
      rowsStored d₀.clock (past j) := by
    intro j
    by_cases hj : j = i
    · subst hj
      rw [Function.update_self, rowsStored_concat, newRow_refused, Option.toList_none, List.append_nil]
    · rw [Function.update_of_ne hj]
  have hsent : ∀ row, Sent d₀ (Function.update past i (past i ++ [⟨q, q.refused⟩])) row ↔ Sent d₀ past row := by
    simp only [Sent, hrows, implies_true]
  refine ⟨h.clock, fun row => ?_, fun row hrow => h.range row ((hsent row).mp hrow), fun j => ?_, h.next, fun j => ?_,
    fun j j' => ?_, fun j e he => ?_⟩
  · rw [hsent]
    exact h.table row
  · rw [hrows]
    exact h.fresh j
  · rw [hrows]
    exact h.ordered j
  · rw [hrows, hrows]
    exact h.apart j j'
  · rcases mem_update_past.mp he with hold | ⟨-, rfl⟩
    · exact h.literal j e hold
    · exact hq

/-- A statement of one of the children. -/
theorem Accounted.statement (h : Accounted d₀ d past) (i : ι) {q : Query} (hq : q.StoresOne) :
    Accounted d₀ (d.exec m q).2 (Function.update past i (past i ++ [⟨q, (d.exec m q).1⟩])) := by
  have hgrows : ∀ c, Tables.Grows c d.toTables (d.exec m q).2.toTables := fun c => Tables.exec_grows q
  have hids : d.nextMessageId ≤ (d.exec m q).2.nextMessageId := Tables.exec_nextMessageId q d.toTables
  have hnew : ∀ row, newRow d₀.clock q (d.exec m q).1 = some row → row ∈ (d.exec m q).2.messages ∧
      row.messageId = d.nextMessageId ∧ row.chatId ∈ d.chatIds ∧
        (d.exec m q).2.nextMessageId = d.nextMessageId + 1 := by
    intro row hrow
    rw [← h.clock] at hrow
    exact Tables.exec_newRow hrow
  refine ⟨(Tables.exec_clock m q d.toTables).trans h.clock, fun row => ?_, fun row hrow => ?_, fun j row hrow => ?_,
    h.next.trans hids, fun j => ?_, fun j j' hne row hrow row' hrow' => ?_, fun j e he => ?_⟩
  · rw [sent_update]
    constructor
    · intro hrow
      refine ⟨?_, (d.exec m q).2.wf.messages_chat row hrow⟩
      rcases Tables.exec_messages_cases hq hrow with hold | hstored
      · exact .inl ((h.table row).mp hold).1
      · exact .inr (h.clock ▸ hstored)
    · rintro ⟨hsent | hstored, hchat⟩
      · -- The chat was there before, and so was the message.
        have hc := (h.range row hsent).2
        have hold := (h.table row).mpr ⟨hsent, (hgrows _).chats hc hchat⟩
        have hgrown := ((hgrows _).messages hc hchat).subset (Tables.mem_messagesOf.mpr ⟨hold, rfl⟩)
        exact (Tables.mem_messagesOf.mp hgrown).1
      · exact (hnew row hstored).1
  · rcases sent_update.mp hrow with hsent | hstored
    · obtain ⟨hid, hc⟩ := h.range row hsent
      exact ⟨hid.trans_le hids, hc.trans_le (hgrows row.chatId).next⟩
    · obtain ⟨-, hid, hc, hnext⟩ := hnew row hstored
      obtain ⟨chat, hchat, hcid⟩ := Tables.mem_chatIds.mp hc
      have hlt := (d.wf.chats_lt chat hchat).trans_le (hgrows row.chatId).next
      exact ⟨by omega, hcid ▸ hlt⟩
  · rcases mem_rowsStored_update.mp hrow with hold | ⟨-, hstored⟩
    · exact h.fresh j row hold
    · exact (hnew row hstored).2.1 ▸ h.next
  · by_cases hj : j = i
    · subst hj
      rw [Function.update_self, rowsStored_concat, List.pairwise_append]
      refine ⟨h.ordered j, ?_, fun row hrow row' hrow' => ?_⟩
      · cases newRow d₀.clock q (d.exec m q).1 <;> simp
      rw [(hnew row' (Option.mem_toList.mp hrow')).2.1]
      exact (h.range row (.inr ⟨j, hrow⟩)).1
    · rw [Function.update_of_ne hj]
      exact h.ordered j
  · have hbefore : ∀ j, ∀ row ∈ rowsStored d₀.clock (past j), row.messageId < d.nextMessageId :=
      fun j row hrow => (h.range row (.inr ⟨j, hrow⟩)).1
    rcases mem_rowsStored_update.mp hrow with hold | ⟨hj, hstored⟩
    · rcases mem_rowsStored_update.mp hrow' with hold' | ⟨-, hstored'⟩
      · exact h.apart j j' hne row hold row' hold'
      · rw [(hnew row' hstored').2.1]
        exact (hbefore j row hold).ne
    · rcases mem_rowsStored_update.mp hrow' with hold' | ⟨hj', -⟩
      · rw [(hnew row hstored).2.1]
        exact (hbefore j' row' hold').ne'
      · exact absurd (hj.trans hj'.symm) hne
  · rcases mem_update_past.mp he with hold | ⟨-, rfl⟩
    · exact h.literal j e hold
    · exact hq

end Accounted

/-! ## What a child has stored when it answers -/

/-- `handle_action` for a `SEND_MESSAGE` request, statement by statement. -/
theorem handleAction_sendMessage (un : Uninit) {json : Json} (ha : queryAction json = some .sendMessage)
    {p : SendMessageParams} (hp : sendMessageParams json = some p) :
    handleAction un json = .call (.insertMessage p.message.sql) fun stored =>
        match stored with
        | some id => .call (.updateLastMessage id p.chatId) fun updated => .ret (some (
          if updated then
            HandleAction.reply [] ("Message from " ++ CString.ofInt p.senderId ++ " was succesfully sent to chat " ++
              CString.ofInt p.chatId) 200
          else HandleAction.reply [] "Message couldn't be sent unsuccesful" 400))
        | none => .ret (some (HandleAction.reply [] "Message couldn't be sent unsuccesful" 400)) := by
  obtain ⟨item, hitem, hcode⟩ := Option.bind_eq_some_iff.mp ha
  simp only [handleAction, hitem, hcode, HandleAction.answer, HandleAction.sendMessage, hp, sendMessage]
  refine congrArg (Prog.call _) (funext fun stored => ?_)
  cases stored with
  | none => rfl
  | some id => exact congrArg (Prog.call _) (funext fun updated => by cases updated <;> rfl)

/-- The child has stored the message of its request, as MySQL reads its text, and nothing else. -/
def StoredOnce (d₀ : Db) (json : Json) (past : List Entry) : Prop :=
  ∃ p msg id, sendMessageParams json = some p ∧ MessageSql.readRows p.message.sql = some [msg] ∧
    d₀.nextMessageId ≤ id ∧ rowsStored d₀.clock past = [msg.row d₀.clock id]

/-- A child's `UPDATE` of `last_message_id` has failed. -/
def UpdateFailed (past : List Entry) : Prop := ∃ id c, (⟨.updateLastMessage id c, false⟩ : Entry) ∈ past

/-- What a child with a `SEND_MESSAGE` request has stored when it has answered. -/
theorem sendMessage_rowsStored {d₀ : Db} (un : Uninit) {json : Json} {past : List Entry} {reply : Json}
    {A : (q : Query) → q.Result → Prop} (ha : queryAction json = some .sendMessage)
    (h : Prog.Leads A (handleAction un json) past (.ret (some reply))) (hone : ∀ e ∈ past, e.1.StoresOne)
    (hfresh : ∀ row ∈ rowsStored d₀.clock past, d₀.nextMessageId ≤ row.messageId) :
    (HandleAction.responseCode reply = some 200 ∧ StoredOnce d₀ json past) ∨
      (HandleAction.responseCode reply = some 400 ∧
        (rowsStored d₀.clock past = [] ∨ StoredOnce d₀ json past ∧ UpdateFailed past)) := by
  cases hp : sendMessageParams json with
  | none =>
    -- The request is refused for its form.
    obtain ⟨item, hitem, hcode⟩ := Option.bind_eq_some_iff.mp ha
    have hprog : handleAction un json = .ret (some (HandleAction.reply [] "Parameter format invalid" 400)) := by
      simp only [handleAction, hitem, hcode, HandleAction.answer, HandleAction.sendMessage, hp]
      rfl
    rw [hprog] at h
    cases h
    exact .inr ⟨HandleAction.responseCode_reply _ (by decide) (by decide), .inl rfl⟩
  | some p =>
    rw [handleAction_sendMessage un ha hp] at h
    cases h with
    | @call _ _ stored past _ _ h =>
      change Option Int at stored
      cases stored with
      | none =>
        cases h
        refine .inr ⟨HandleAction.responseCode_reply _ (by decide) (by decide), .inl ?_⟩
        exact List.filterMap_eq_nil_iff.mpr fun e he => by
          obtain rfl := List.mem_singleton.mp he
          exact newRow_refused d₀.clock (.insertMessage p.message.sql)
      | some id =>
        obtain ⟨msg, hmsg⟩ := Option.isSome_iff_exists.mp (hone _ List.mem_cons_self p.message.sql rfl)
        cases h with
        | @call _ _ updated past _ hupdated h =>
          change Bool at updated
          cases h
          have hrows : rowsStored d₀.clock
              [⟨.insertMessage p.message.sql, some id⟩, ⟨.updateLastMessage id p.chatId, updated⟩] =
              [msg.row d₀.clock id] := by
            simp [rowsStored, newRow, hmsg]
          have hstored : StoredOnce d₀ json
              [⟨.insertMessage p.message.sql, some id⟩, ⟨.updateLastMessage id p.chatId, updated⟩] :=
            ⟨p, msg, id, hp, readRows_of_oneRow hmsg, hfresh (msg.row d₀.clock id) (hrows ▸ List.mem_cons_self), hrows⟩
          cases updated with
          | true => exact .inl ⟨HandleAction.responseCode_reply _ (by decide) (by decide), hstored⟩
          | false =>
            exact .inr ⟨HandleAction.responseCode_reply _ (by decide) (by decide),
              .inr ⟨hstored, id, p.chatId, List.mem_cons_of_mem _ List.mem_cons_self⟩⟩

/-! ## All children -/

/-- The children at work, when the statements fail that the sequence says. -/
def failingChildren {ι : Type*} (d : Db) (fails : Nat → Bool) (un : ι → Uninit) (requests : ι → Json) :
    Pool ι ((Nat → Bool) × Db) Query Query.Result (Option Json) :=
  .start (fails, d) fun i => handleAction (un i) (requests i)

/-- The messages are those there were and those the children have stored, in
chats that are there; each has an id of its own; and what a child has stored
when it answers a `SEND_MESSAGE` goes with its answer. -/
structure ExactlyOnce {ι : Type*} (d₀ : Db) (requests : ι → Json)
    (P : Pool ι ((Nat → Bool) × Db) Query Query.Result (Option Json)) : Prop where
  table : ∀ row, row ∈ P.store.2.messages ↔
    Sent d₀ (fun i => (P.process i).past) row ∧ row.chatId ∈ P.store.2.chatIds
  ids : ∀ i j, ∀ row ∈ rowsStored d₀.clock (P.process i).past, ∀ row' ∈ rowsStored d₀.clock (P.process j).past,
    row.messageId = row'.messageId → i = j ∧ row = row'
  answered : ∀ i reply, queryAction (requests i) = some .sendMessage → (P.process i).rest = .ret (some reply) →
    (HandleAction.responseCode reply = some 200 ∧ StoredOnce d₀ (requests i) (P.process i).past) ∨
      (HandleAction.responseCode reply = some 400 ∧ (rowsStored d₀.clock (P.process i).past = [] ∨
        StoredOnce d₀ (requests i) (P.process i).past ∧ UpdateFailed (P.process i).past))

/-- **Exactly once.** Whatever the requests, however the statements of the
children interleave and whichever of them fail, if what is stored is of one
row of literals each. -/
theorem concurrent_stored {ι : Type*} [DecidableEq ι] (m : Mysql) (d : Db) (fails : Nat → Bool) (un : ι → Uninit)
    (requests : ι → Json) (schedule : List ι)
    (hone : Run.Along (Pool.step (Prog.faulty (Db.exec m) Query.refused)) (Pool.Allows fun _ _ q => q.StoresOne)
      (failingChildren d fails un requests) schedule) :
    ExactlyOnce d requests (Run.exec (Pool.step (Prog.faulty (Db.exec m) Query.refused))
      (failingChildren d fails un requests) schedule) := by
  have h : Accounted d _ _ := Pool.along_pasts
    (I := fun s : (Nat → Bool) × Db => Accounted d s.2) (fun s past i q hq h => by
      rw [Prog.faulty]
      split
      · exact h.refused i hq
      · exact h.statement (m := m) i hq) hone (accounted_start d)
  refine ⟨h.table, fun i j row hrow row' hrow' hid => ?_, fun i reply ha hrest => ?_⟩
  · by_cases hij : i = j
    · subst hij
      refine ⟨rfl, ?_⟩
      have hnodup : ((rowsStored d.clock _).map (·.messageId)).Nodup :=
        List.pairwise_map.mpr ((h.ordered i).imp ne_of_lt)
      exact List.inj_on_of_nodup_map hnodup hrow hrow' hid
    · exact absurd hid (h.apart i j hij row hrow row' hrow')
  · have hleads : Prog.Leads (fun q r => ∃ s, (Prog.faulty (Db.exec m) Query.refused q s).1 = r)
        (handleAction (un i) (requests i)) _ _ :=
      Pool.start_leads (fails, d) (fun i => handleAction (un i) (requests i)) schedule i
    exact sendMessage_rowsStored (un i) ha (hrest ▸ hleads) (h.literal i) (h.fresh i)

theorem concurrent_stored_bothSend :
    ExactlyOnce twoInChat bothSend (Run.exec (Pool.step (Prog.faulty (Db.exec .tableOrder) Query.refused))
      (failingChildren twoInChat (fun n => n == 3) (fun _ => .zero) bothSend) [false, true, true, false]) :=
  concurrent_stored .tableOrder twoInChat (fun n => n == 3) (fun _ => .zero) bothSend [false, true, true, false]
    (by decide +kernel)

end FinalServer
