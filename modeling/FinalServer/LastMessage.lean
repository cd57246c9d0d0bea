/-
The last message of a chat, when requests overlap.

`send_message` stores a message and makes it the chat's last one in a second
statement, whatever the chat has there by then. In between the process owes
the chat that update (`Owed`). Every message of a chat is no later than its
last one, or its update is owed (`Covered`), as long as MySQL reads one row
in the text of a message and no update finds a later message (`InOrder`).
-/
import FinalServer.ConcurrentExit
import FinalServer.MessageLog

namespace FinalServer

open Prog (Only)

/-- The update a process has yet to make. -/
inductive Owed
  | none
  | update (messageId chatId : Int)

/-- What is owed after the answer to an `INSERT` into `messages`. -/
def Owed.ofInsert (chatId : Int) : Option Int → Owed
  | some messageId => .update messageId chatId
  | Option.none => .none

/-- How the statements of the data server move what is owed. -/
inductive SendRule (past : List Entry) : Owed → (q : Query) → (q.Result → Owed) → Prop
  | other {q : Query} (hq : q.sendsNothing = true) : SendRule past .none q fun _ => .none
  | store {sql rest : CString} (c s : Int) (hsql : sql = MessageSql.rowFirst c s ++ rest) :
    SendRule past .none (.insertMessage sql) (Owed.ofInsert c)
  | update (i c : Int) : SendRule past (.update i c) (.updateLastMessage i c) fun _ => .none

/-- A program that owes nothing at the start and at the end. -/
def Sends {α : Type} (m : Mysql) (p : DbProg α) : Prop :=
  ∀ past : List Entry, Pool.Follows (Db.exec m) SendRule (· = .none) past .none p

/-! ## The code pays what it owes -/

section Sends

variable {m : Mysql} {α β : Type}

theorem Sends.ret (a : α) : Sends m (.ret a) := fun _ => .ret a rfl

theorem Sends.bind {p : DbProg α} {f : α → DbProg β} (hp : Sends m p) (hf : ∀ a, Sends m (f a)) :
    Sends m (p >>= f) := by
  intro past
  refine (hp past).bind fun past' x a _ hx => ?_
  subst hx
  exact hf a past'

theorem Sends.query {q : Query} (hq : q.sendsNothing = true) : Sends m (mysqlQuery q) :=
  fun _ => .call _ (.other hq) fun _ => .ret _ rfl

theorem Sends.query_bind {q : Query} {f : q.Result → DbProg β} (hq : q.sendsNothing = true)
    (hf : ∀ d : Db, Sends m (f (d.exec m q).1)) : Sends m (mysqlQuery q >>= f) :=
  fun _ => .call _ (.other hq) fun d => hf d _

theorem sendMessage_sends {msg : Message} (hc : Json.INT_MIN ≤ msg.chatId ∧ msg.chatId ≤ Json.INT_MAX)
    (hs : Json.INT_MIN ≤ msg.senderId ∧ msg.senderId ≤ Json.INT_MAX) : Sends m (sendMessage msg) := by
  intro past
  obtain ⟨rest, hsql⟩ := MessageSql.query_insertText hc hs
  refine .call (Owed.ofInsert msg.chatId) (.store msg.chatId msg.senderId hsql) fun d => ?_
  generalize (d.exec m (.insertMessage msg.sql)).1 = r
  cases r with
  | none => exact .ret _ rfl
  | some i => exact .call _ (.update i msg.chatId) fun d => .ret _ rfl

theorem systemMessage_sends {c : Int} (hc : Json.INT_MIN ≤ c ∧ c ≤ Json.INT_MAX) (content : CString) :
    Sends m (sendMessage (HandleAction.systemMessage c content)) :=
  sendMessage_sends hc (by decide : Json.INT_MIN ≤ 1 ∧ 1 ≤ Json.INT_MAX)

theorem Sends.of_only {p : DbProg α} (hp : Only (fun q => q.quiet = true ∧ q.sendsNothing = true) p) :
    Sends m p := by
  induction hp with
  | ret a => exact .ret a
  | call hq _ ih => exact fun past => .call _ (.other hq.2) fun d => ih _ _

theorem Sends.of_reads {p : DbProg α} (hp : Only Query.reads p) : Sends m p :=
  .of_only (hp.mono fun _ hq => hq.looksUp)

theorem addEach_sends {c : Int} (hc : Json.INT_MIN ≤ c ∧ c ≤ Json.INT_MAX) (by_ : Int) (f : Int → Int) (us : List Int) :
    Sends m (HandleAction.addEach c by_ f us) := by
  induction us with
  | nil => exact .ret _
  | cons u us ih =>
    refine .bind (.query rfl) fun r => ?_
    split
    · exact .bind (systemMessage_sends hc _) fun _ => .bind ih fun _ => .ret _
    · exact ih

theorem removeEach_sends {c : Int} (hc : Json.INT_MIN ≤ c ∧ c ≤ Json.INT_MAX) (r : Int) (ids : List Json) :
    Sends m (HandleAction.removeEach c r ids) := by
  induction ids with
  | nil => exact .ret _
  | cons j js ih =>
    simp only [HandleAction.removeEach]
    split
    · refine .bind (.query rfl) fun ok => ?_
      split
      · exact .bind (systemMessage_sends hc _) fun _ => .bind ih fun _ => .ret _
      · exact ih
    · exact ih

theorem createChat_sends (un : Uninit) (json : Json) : Sends m (HandleAction.createChat un json) := by
  unfold HandleAction.createChat
  split
  · split
    · refine .query_bind rfl fun d => ?_
      cases hid : (d.exec m (.insertChat _)).1 with
      | none => exact .ret _
      | some c =>
        have hc := d.wf.insertChat_range hid
        exact .bind (systemMessage_sends hc _) fun _ => .bind (addEach_sends hc _ _ _) fun _ => .ret _
    · exact .ret _
  · exact .ret _

theorem addToGroupChat_sends (un : Uninit) (json : Json) : Sends m (HandleAction.addToGroupChat un json) := by
  unfold HandleAction.addToGroupChat
  split
  next hp =>
    refine .bind (addEach_sends (addToGroupChatParams_range hp) _ _ _) fun n => ?_
    split <;> exact .ret _
  · exact .ret _

theorem handleAction_sendMessage_sends (json : Json) : Sends m (HandleAction.sendMessage json) := by
  unfold HandleAction.sendMessage
  split
  next hp =>
    refine .bind (sendMessage_sends (sendMessageParams_range hp).1 (sendMessageParams_range hp).2) fun ok => ?_
    split <;> exact .ret _
  · exact .ret _

theorem removeFromChat_sends (json : Json) : Sends m (HandleAction.removeFromChat json) := by
  unfold HandleAction.removeFromChat
  split
  next hp =>
    refine .bind (.of_reads (isUserAdmin_reads _ _)) fun ok => ?_
    split
    · exact .ret _
    refine .bind (.of_reads (isGroupChat_reads _)) fun ok => ?_
    split
    · exact .ret _
    · exact .bind (removeEach_sends (removeFromChatParams_range hp) _ _) fun _ => .ret _
  · exact .ret _

theorem exitLast_sends (c u : Int) : Sends m (HandleAction.exitLast c u) := by
  refine .bind (.query rfl) fun ok => ?_
  split <;> exact .ret _

theorem exitAdmin_sends (c u : Int) : Sends m (HandleAction.exitAdmin c u) := by
  refine .bind (.query rfl) fun n => ?_
  split
  · refine .bind (.bind (.query rfl) fun r => ?_) fun ok => ?_
    · split
      · exact .query rfl
      · exact .ret _
    · split <;> exact .ret _
  · exact .ret _

theorem exitChat_sends (json : Json) : Sends m (HandleAction.exitChat json) := by
  unfold HandleAction.exitChat
  split
  next hp =>
    refine .bind (.of_reads (isUserAdmin_reads _ _)) fun isAdmin => .bind (.query rfl) fun n =>
      .bind (.query rfl) fun ok => ?_
    split
    · exact .ret _
    refine .bind (systemMessage_sends (exitChatParams_range hp) _) fun _ => ?_
    split
    · exact exitLast_sends _ _
    split
    · exact exitAdmin_sends _ _
    · exact .ret _
  · exact .ret _

theorem answer_sends (un : Uninit) (json : Json) (a : Option Action) : Sends m (HandleAction.answer un json a) := by
  cases a with
  | none => exact .ret _
  | some a =>
    cases a with
    | createChat => exact createChat_sends un json
    | addToGroupChat => exact addToGroupChat_sends un json
    | sendMessage => exact handleAction_sendMessage_sends json
    | removeFromChat => exact removeFromChat_sends json
    | exitChat => exact exitChat_sends json
    | _ => exact .of_only (answer_looksUp rfl (by decide))

/-- A child process owes nothing when it has answered. -/
theorem handleAction_sends (un : Uninit) (json : Json) : Sends m (handleAction un json) := by
  unfold handleAction
  split
  · exact .ret _
  · exact .bind (answer_sends un json _) fun _ => .ret _

end Sends

/-! ## What the statements do to the last messages -/

namespace Tables

/-- Each chat's last message is the one with the largest id. -/
def LastIsLargest (t : Tables) : Prop :=
  ∀ chat ∈ t.chats, chat.lastMessageId = ((t.messagesOf chat.chatId).map (·.messageId)).max?

variable {m : Mysql} {t : Tables}

/-- A statement other than the update keeps the rows of the chats, or adds
chats without a last message. -/
theorem exec_chats_cases {q : Query} (hq : ∀ i c, q ≠ .updateLastMessage i c) {chat : ChatRow}
    (h : chat ∈ (exec m q t).2.chats) :
    chat ∈ t.chats ∨ (t.nextChatId ≤ chat.chatId ∧ chat.lastMessageId = none) := by
  cases q with
  | insertUser sql =>
    simp only [exec] at h
    split at h
    · unfold insertUser at h
      split at h <;> exact .inl h
    · exact .inl h
  | insertChat sql =>
    -- The ids go up from row to row.
    have hrows : t.nextChatId ≤ (t.insertChat m sql).2.nextChatId ∧ ∀ chat ∈ (t.insertChat m sql).2.chats,
        chat ∈ t.chats ∨ (t.nextChatId ≤ chat.chatId ∧ chat.lastMessageId = none) := by
      refine insertRows_invariant (P := fun t' => t.nextChatId ≤ t'.nextChatId ∧ ∀ chat ∈ t'.chats,
        chat ∈ t.chats ∨ (t.nextChatId ≤ chat.chatId ∧ chat.lastMessageId = none)) (fun hrow h => ?_)
        ⟨le_rfl, fun _ => .inl⟩
      obtain ⟨-, rfl⟩ := insertChatRow_eq_some.mp hrow
      exact ⟨Int.le_add_one h.1, forall_mem_concat.mpr ⟨h.2, .inr ⟨h.1, rfl⟩⟩⟩
    exact hrows.2 chat h
  | insertParticipant c u a =>
    simp only [exec, insertParticipant] at h
    split at h <;> exact .inl h
  | insertMessage sql =>
    have hrows : (t.insertMessage m sql).2.chats = t.chats := by
      refine insertRows_invariant (P := fun t' => t'.chats = t.chats) (fun hrow h => ?_) rfl
      obtain ⟨-, rfl⟩ := insertMessageRow_eq_some.mp hrow
      exact h
    exact .inl (hrows ▸ h)
  | updateLastMessage i c => exact absurd rfl (hq i c)
  | deleteChat c => exact .inl (List.mem_of_mem_filter h)
  | _ => exact .inl h

/-- Only `send_message` stores messages. -/
theorem exec_messages_subset {q : Query} (hq : q.sendsNothing = true) : (exec m q t).2.messages ⊆ t.messages := by
  cases q with
  | insertMessage | updateLastMessage => cases hq
  | insertUser sql =>
    simp only [exec]
    split
    · unfold insertUser
      split <;> exact List.Subset.refl _
    · exact List.Subset.refl _
  | insertChat sql =>
    refine insertRows_invariant (P := fun t' => t'.messages ⊆ t.messages) (fun hrow h => ?_) (List.Subset.refl _)
    obtain ⟨-, rfl⟩ := insertChatRow_eq_some.mp hrow
    exact h
  | insertParticipant c u a =>
    simp only [exec, insertParticipant]
    split <;> exact List.Subset.refl _
  | deleteChat c => exact List.filter_subset_self _
  | _ => exact List.Subset.refl _

end Tables

/-! ## Covered -/

section Covered

variable {ι : Type*} {d : Db} {g : ι → Owed}

/-- What a chat has as its last message is one of its messages, what is owed is
a message of its chat, and every message is no later than the last one of its
chat, or its update is owed. -/
structure Covered (d : Db) (g : ι → Owed) : Prop where
  last : ∀ chat ∈ d.chats, ∀ k ∈ chat.lastMessageId, ∃ r ∈ d.messagesOf chat.chatId, r.messageId = k
  range : ∀ i k c, g i = .update k c → c < d.nextChatId
  owed : ∀ i k c, g i = .update k c → c ∈ d.chatIds → ∃ r ∈ d.messagesOf c, r.messageId = k
  covered : ∀ chat ∈ d.chats, ∀ r ∈ d.messagesOf chat.chatId,
    (∃ k ∈ chat.lastMessageId, r.messageId ≤ k) ∨ ∃ i, g i = .update r.messageId chat.chatId

/-- The message a statement makes the last one of a chat. -/
def Query.newLast : Query → Option (Int × Int)
  | .updateLastMessage messageId chatId => some (messageId, chatId)
  | _ => none

/-- The text of a message that a statement stores. -/
def Query.newMessage : Query → Option CString
  | .insertMessage sql => some sql
  | _ => none

/-- An update finds no later message in its chat, and MySQL reads no second row in the text of a message. -/
def InOrder (m : Mysql) (d : Db) (_ : List Entry) (q : Query) : Prop :=
  (∀ new ∈ q.newLast, ∀ chat ∈ d.chats, chat.chatId = new.2 → ∀ k ∈ chat.lastMessageId, k ≤ new.1) ∧
    ∀ sql ∈ q.newMessage, ∀ rows ∈ m.messageRows d.toTables sql, rows.length ≤ 1

instance (m : Mysql) (d : Db) (past : List Entry) (q : Query) : Decidable (InOrder m d past q) :=
  inferInstanceAs (Decidable (_ ∧ _))

theorem covered_of_lastIsLargest (h : d.LastIsLargest) : Covered d fun _ : ι => Owed.none where
  last chat hchat k hk := by
    rw [h chat hchat, Option.mem_def, List.max?_eq_some_iff] at hk
    exact List.mem_map.mp hk.1
  range i k c hi := by cases hi
  owed i k c hi := by cases hi
  covered chat hchat r hr := by
    have hmem : r.messageId ∈ (d.messagesOf chat.chatId).map (·.messageId) := List.mem_map_of_mem hr
    rw [h chat hchat]
    cases hmax : ((d.messagesOf chat.chatId).map (·.messageId)).max? with
    | none =>
      rw [List.max?_eq_none_iff] at hmax
      rw [hmax] at hmem
      cases hmem
    | some k => exact .inl ⟨k, rfl, (List.max?_eq_some_iff.mp hmax).2 _ hmem⟩

/-- When nothing is owed any more, the last messages are the largest. -/
theorem Covered.lastIsLargest (h : Covered d g) (hnone : ∀ i, g i = .none) : d.LastIsLargest := by
  intro chat hchat
  have hcovered : ∀ r ∈ d.messagesOf chat.chatId, ∃ k ∈ chat.lastMessageId, r.messageId ≤ k := by
    intro r hr
    rcases h.covered chat hchat r hr with hle | ⟨i, hi⟩
    · exact hle
    · cases (hnone i).symm.trans hi
  symm
  cases hlast : chat.lastMessageId with
  | none =>
    rw [List.max?_eq_none_iff, List.map_eq_nil_iff, List.eq_nil_iff_forall_not_mem]
    intro r hr
    obtain ⟨k, hk, -⟩ := hcovered r hr
    cases hlast.symm.trans hk
  | some k =>
    obtain ⟨r, hr, hk⟩ := h.last chat hchat k hlast
    refine List.max?_eq_some_iff.mpr ⟨List.mem_map.mpr ⟨r, hr, hk⟩, List.forall_mem_map.mpr fun r hr => ?_⟩
    obtain ⟨k', hk', hle⟩ := hcovered r hr
    cases hlast.symm.trans hk'
    exact hle

variable {d' : Db} {m : Mysql}

/-- What is known to be stored stays stored while the chat is there. -/
theorem messagesOf_grows (hgrows : ∀ c, Tables.Grows c d.toTables d'.toTables) {c k : Int}
    (hc : c < d.nextChatId) (hc' : c ∈ d'.chatIds) (h : ∃ r ∈ d.messagesOf c, r.messageId = k) :
    ∃ r ∈ d'.messagesOf c, r.messageId = k := by
  obtain ⟨r, hr, hk⟩ := h
  exact ⟨r, ((hgrows c).messages hc hc').subset hr, hk⟩

theorem Covered.owed_grows (h : Covered d g) (hgrows : ∀ c, Tables.Grows c d.toTables d'.toTables) {i : ι}
    {k c : Int} (hi : g i = .update k c) (hc' : c ∈ d'.chatIds) : ∃ r ∈ d'.messagesOf c, r.messageId = k := by
  have hc := h.range i k c hi
  exact messagesOf_grows hgrows hc hc' (h.owed i k c hi ((hgrows c).chats hc hc'))

theorem Covered.last_grows (h : Covered d g) (hgrows : ∀ c, Tables.Grows c d.toTables d'.toTables)
    {chat : ChatRow} (hchat : chat ∈ d'.chats)
    (hold : chat ∈ d.chats ∨ (d.nextChatId ≤ chat.chatId ∧ chat.lastMessageId = none)) {k : Int}
    (hk : k ∈ chat.lastMessageId) : ∃ r ∈ d'.messagesOf chat.chatId, r.messageId = k := by
  rcases hold with hold | ⟨-, hnone⟩
  · exact messagesOf_grows hgrows (d.wf.chats_lt chat hold) (Tables.mem_chatIds.mpr ⟨chat, hchat, rfl⟩)
      (h.last chat hold k hk)
  · cases hnone.symm.trans hk

theorem Covered.other {q : Query} (h : Covered d g) (hq : q.sendsNothing = true) : Covered (d.exec m q).2 g := by
  have hgrows : ∀ c, Tables.Grows c d.toTables (d.exec m q).2.toTables := fun c => Tables.exec_grows q
  have hupdate : ∀ i c, q ≠ .updateLastMessage i c := by
    intro i c heq
    rw [heq] at hq
    cases hq
  have hold : ∀ chat ∈ (d.exec m q).2.chats, _ := fun chat hchat => Tables.exec_chats_cases hupdate hchat
  refine ⟨fun chat hchat k hk => h.last_grows hgrows hchat (hold chat hchat) hk,
    fun i k c hi => (h.range i k c hi).trans_le (hgrows c).next,
    fun i k c hi hc => h.owed_grows hgrows hi hc, fun chat hchat r hr => ?_⟩
  obtain ⟨hr, hrc⟩ := Tables.mem_messagesOf.mp hr
  replace hr := Tables.exec_messages_subset hq hr
  rcases hold chat hchat with hchat | ⟨hnew, -⟩
  · exact h.covered chat hchat r (Tables.mem_messagesOf.mpr ⟨hr, hrc⟩)
  · -- A new chat has no message yet.
    obtain ⟨chat', hchat', heq⟩ := Tables.mem_chatIds.mp (d.wf.messages_chat r hr)
    have hlt := d.wf.chats_lt chat' hchat'
    rw [heq, hrc] at hlt
    exact absurd hnew (not_le_of_gt hlt)

variable [DecidableEq ι]

/-- What is owed by the others. -/
theorem update_eq_update {i j : ι} {x : Owed} {k c : Int} (hj : Function.update g i x j = .update k c)
    (hx : x ≠ .update k c) : j ≠ i ∧ g j = .update k c := by
  have hne : j ≠ i := by
    intro heq
    rw [heq, Function.update_self] at hj
    exact hx hj
  rw [Function.update_of_ne hne] at hj
  exact ⟨hne, hj⟩

/-- The row of a message is stored in the chat that is owed its update. -/
theorem Covered.store {i : ι} (h : Covered d g) (hi : g i = .none) (c s : Int) {sql rest : CString}
    (hsql : sql = MessageSql.rowFirst c s ++ rest)
    (hone : ∀ rows ∈ m.messageRows d.toTables sql, rows.length ≤ 1) :
    Covered (d.exec m (.insertMessage sql)).2
      (Function.update g i (.ofInsert c (d.exec m (.insertMessage sql)).1)) := by
  have hgrows : ∀ c', Tables.Grows c' d.toTables (d.exec m (.insertMessage sql)).2.toTables :=
    fun c' => Tables.exec_grows _
  obtain ⟨-, hnone⟩ | ⟨r, rs, hread, hfit, hsome⟩ := Tables.insertMessage_cases m d.toTables sql
  · have hid : (d.exec m (.insertMessage sql)).1 = none := congrArg Prod.fst hnone
    have hsame : d.exec m (.insertMessage sql) = (none, d) := Prod.ext hid (Db.ext (congrArg Prod.snd hnone))
    rw [hsame]
    show Covered d (Function.update g i .none)
    rw [← hi, Function.update_eq_self]
    exact h
  · obtain rfl : rs = [] := by simpa using hone _ hread
    obtain ⟨rfl, -⟩ := m.messageRows_first (hsql ▸ hread)
    have hid : (d.exec m (.insertMessage sql)).1 = some d.nextMessageId := congrArg Prod.fst hsome
    have hmessages : (d.exec m (.insertMessage sql)).2.messages =
        d.messages ++ [⟨d.nextMessageId, r.chatId, r.senderId, r.content, r.messageType, d.clock⟩] :=
      congrArg (·.2.messages) hsome
    have hchats : (d.exec m (.insertMessage sql)).2.chats = d.chats := congrArg (·.2.chats) hsome
    rw [hid]
    obtain ⟨chat₀, hchat₀, hc₀⟩ := Tables.mem_chatIds.mp (hfit.keys r List.mem_cons_self).1
    have hrange : ∀ j k c', Function.update g i (.update d.nextMessageId r.chatId) j = .update k c' →
        (k = d.nextMessageId ∧ c' = r.chatId) ∨ g j = .update k c' := by
      intro j k c' hj
      by_cases heq : Owed.update d.nextMessageId r.chatId = .update k c'
      · cases heq
        exact .inl ⟨rfl, rfl⟩
      · exact .inr (update_eq_update hj heq).2
    refine ⟨fun chat hchat k hk => h.last_grows hgrows hchat (.inl (hchats ▸ hchat)) hk, fun j k c' hj => ?_,
      fun j k c' hj hc' => ?_, fun chat hchat r' hr => ?_⟩
    · refine lt_of_lt_of_le ?_ (hgrows c').next
      rcases hrange j k c' hj with ⟨-, rfl⟩ | hj
      · exact hc₀ ▸ d.wf.chats_lt chat₀ hchat₀
      · exact h.range j k c' hj
    · rcases hrange j k c' hj with ⟨rfl, rfl⟩ | hj
      · refine ⟨⟨d.nextMessageId, r.chatId, r.senderId, r.content, r.messageType, d.clock⟩,
          Tables.mem_messagesOf.mpr ⟨?_, rfl⟩, rfl⟩
        rw [hmessages]
        exact List.mem_append_right _ (List.mem_singleton_self _)
      · exact h.owed_grows hgrows hj hc'
    · obtain ⟨hr, hrc⟩ := Tables.mem_messagesOf.mp hr
      rw [hmessages, List.mem_append, List.mem_singleton] at hr
      rcases hr with hr | rfl
      · rcases h.covered chat (hchats ▸ hchat) r' (Tables.mem_messagesOf.mpr ⟨hr, hrc⟩) with hle | ⟨j, hj⟩
        · exact .inl hle
        · refine .inr ⟨j, ?_⟩
          rw [Function.update_of_ne]
          · exact hj
          · rintro rfl
            cases hi.symm.trans hj
      · refine .inr ⟨i, ?_⟩
        rw [Function.update_self, ← hrc]
        rfl

theorem Covered.update {i : ι} {k c : Int} (h : Covered d g) (hi : g i = .update k c) {past : List Entry}
    (hok : InOrder m d past (.updateLastMessage k c)) :
    Covered (d.exec m (.updateLastMessage k c)).2 (Function.update g i .none) := by
  have hothers : ∀ j k' c', Function.update g i .none j = .update k' c' → g j = .update k' c' :=
    fun j k' c' hj => (update_eq_update hj (by simp)).2
  have hchat : ∀ chat ∈ (d.exec m (.updateLastMessage k c)).2.chats, ∃ old ∈ d.chats,
      old.chatId = chat.chatId ∧ chat.lastMessageId = if old.chatId = c then some k else old.lastMessageId := by
    intro chat hchat
    obtain ⟨old, hold, rfl⟩ := List.mem_map.mp hchat
    refine ⟨old, hold, ?_⟩
    split <;> exact ⟨rfl, rfl⟩
  have hids : (d.exec m (.updateLastMessage k c)).2.chatIds = d.chatIds := Tables.chatIds_updateLastMessage k c
  refine ⟨fun chat hmem k' hk' => ?_, fun j k' c' hj => h.range j k' c' (hothers j k' c' hj),
    fun j k' c' hj hc' => h.owed j k' c' (hothers j k' c' hj) (hids ▸ hc'), fun chat hmem r hr => ?_⟩
  · obtain ⟨old, hold, hid, hlast⟩ := hchat chat hmem
    rw [hlast] at hk'
    rw [← hid]
    split at hk'
    next hc =>
      cases hk'
      subst hc
      exact h.owed i k _ hi (Tables.mem_chatIds.mpr ⟨old, hold, rfl⟩)
    next => exact h.last old hold k' hk'
  · obtain ⟨old, hold, hid, hlast⟩ := hchat chat hmem
    rw [hlast]
    rw [← hid] at hr ⊢
    split
    next hc =>
      subst hc
      rcases h.covered old hold r hr with ⟨k', hk', hle⟩ | ⟨j, hj⟩
      · exact .inl ⟨k, rfl, hle.trans (hok.1 _ rfl old hold rfl k' hk')⟩
      · by_cases hij : j = i
        · subst hij
          cases hi.symm.trans hj
          exact .inl ⟨r.messageId, rfl, le_rfl⟩
        · exact .inr ⟨j, by rw [Function.update_of_ne hij, hj]⟩
    next hc =>
      refine (h.covered old hold r hr).imp_right fun ⟨j, hj⟩ => ⟨j, ?_⟩
      rw [Function.update_of_ne]
      · exact hj
      · rintro rfl
        cases hi.symm.trans hj
        exact hc rfl

/-- **One statement.** If it is in order, all messages are covered after it. -/
theorem Covered.statement {i : ι} {past : List Entry} {q : Query} {next : q.Result → Owed} (h : Covered d g)
    (hrule : SendRule past (g i) q next) (hok : InOrder m d past q) :
    Covered (d.exec m q).2 (Function.update g i (next (d.exec m q).1)) := by
  generalize hi : g i = x at hrule
  cases hrule with
  | other hq =>
    rw [← hi, Function.update_eq_self]
    exact h.other hq
  | store c s hsql => exact h.store hi c s hsql (hok.2 _ rfl)
  | update k c => exact h.update hi hok

end Covered

/-! ## All requests together -/

/-- **Overlapping messages.** Under every schedule in which MySQL reads one row
in the text of each message and no update finds a later message, each chat's
last message is the one with the largest id once all requests are done. -/
theorem concurrent_lastIsLargest {ι : Type*} [DecidableEq ι] (m : Mysql) (d : Db) (un : ι → Uninit)
    (requests : ι → Json) (hd : d.LastIsLargest) (schedule : List ι)
    (hok : Run.Along (Pool.step (Db.exec m)) (Pool.Allows (InOrder m)) (childProcesses d un requests) schedule)
    (hdone : ∀ i, ((Run.exec (Pool.step (Db.exec m)) (childProcesses d un requests) schedule).process i).done) :
    (Run.exec (Pool.step (Db.exec m)) (childProcesses d un requests) schedule).store.LastIsLargest := by
  have hsends : ∀ i, Pool.Follows (Db.exec m) SendRule (· = .none) [] .none (handleAction (un i) (requests i)) :=
    fun i => handleAction_sends (un i) (requests i) []
  obtain ⟨g, hg, hcovered⟩ := Pool.Along.follows (I := Covered) hok hsends (covered_of_lastIsLargest hd)
    fun d g i past q next h hrule hok => h.statement hrule hok
  exact hcovered.lastIsLargest fun i => (hg i).last_of_done (hdone i)

/-! ## Two messages at once -/

instance {t : Tables} : Decidable t.LastIsLargest := inferInstanceAs (Decidable (∀ c ∈ _, _))

/-- Alice's message and Bob's. -/
def bothSend (bob : Bool) : Json :=
  .object [("action", .createNumber 6), ("chat_id", .createNumber 1),
    ("sender_id", .createNumber (if bob then 3 else 2)), ("content", .string "hello"),
    ("message_type", .string "text")]

theorem concurrent_lastIsLargest_inOrder :
    (Run.exec (Pool.step (Db.exec .tableOrder)) (childProcesses twoInChat (fun _ => .zero) bothSend)
      [false, true, false, true]).store.LastIsLargest :=
  concurrent_lastIsLargest .tableOrder twoInChat (fun _ => .zero) bothSend (by decide +kernel)
    [false, true, false, true]
    (by decide +kernel) (by decide +kernel)

/-- Alice's message stays the last one although Bob's is later. -/
theorem earlier_message_last :
    ¬ ∀ (ι : Type) (_ : DecidableEq ι) (m : Mysql) (d : Db) (un : ι → Uninit) (requests : ι → Json)
      (schedule : List ι), (∀ i, queryAction (requests i) = some .sendMessage) → d.LastIsLargest →
      (∀ i, ((Run.exec (Pool.step (Db.exec m)) (childProcesses d un requests) schedule).process i).done) →
      (Run.exec (Pool.step (Db.exec m)) (childProcesses d un requests) schedule).store.LastIsLargest := by
  intro h
  have hok := h Bool inferInstance .tableOrder twoInChat (fun _ => .zero) bothSend [false, true, true, false]
    (fun _ => rfl) (by decide +kernel) (by decide +kernel)
  exact absurd hok (by decide +kernel)

end FinalServer
