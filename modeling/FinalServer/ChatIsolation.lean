/-
Children of the data server that work on different chats.

What there is of a chat is its row, its participants and its messages; the
ids of its messages come from a counter that all chats share, so they are
left out. A child whose request is about a chat answers it, and leaves the
chat, as if it were alone, whatever children with requests about other
chats do between its statements (`concurrent_isolated`). An `INSERT` into
`messages` is about the chat MySQL reads in its text, so the statements
considered are of one row of literals.
-/
import FinalServer.ConcurrentExit
import FinalServer.Isolation
import FinalServer.RemovalEffect
import FinalServer.StoredMessages

namespace FinalServer

/-- A message, but for its id. -/
def MessageRow.forgetId (r : MessageRow) : MessageRow := { r with messageId := 0 }

@[simp] theorem ChatRow.chatName_forgetLast (c : Int) (r : ChatRow) : (r.forgetLast c).chatName = r.chatName := by
  unfold ChatRow.forgetLast
  split <;> rfl

@[simp] theorem ChatRow.isGroup_forgetLast (c : Int) (r : ChatRow) : (r.forgetLast c).isGroup = r.isGroup := by
  unfold ChatRow.forgetLast
  split <;> rfl

/-- The two databases have the same users, and the same of chat `c`; the first
has assigned as many ids of messages as the second, or more. -/
structure Tables.SameChat (c : Int) (t t' : Tables) : Prop where
  users : t.users = t'.users
  clock : t.clock = t'.clock
  rows : (t.chats.filter (·.chatId = c)).map (ChatRow.forgetLast c) =
    (t'.chats.filter (·.chatId = c)).map (ChatRow.forgetLast c)
  members : t.members c = t'.members c
  messages : (t.messagesOf c).map MessageRow.forgetId = (t'.messagesOf c).map MessageRow.forgetId
  ids : t'.nextMessageId ≤ t.nextMessageId
  /-- The id of the chat will not be assigned again. -/
  assigned : c < t.nextChatId

/-- The chat whose rows a statement is about. -/
def Query.chat : Query → Option Int
  | .insertMessage sql => (oneRow sql).map (·.chatId)
  | .insertParticipant c _ _ | .updateLastMessage _ c | .selectMessages c _ | .selectChat c
  | .selectParticipants c | .selectIsAdmin c _ | .selectIsGroup c | .deleteParticipant c _ | .countParticipants c
  | .countAdmins c | .selectFirstParticipant c | .promote c _ | .deleteChat c => some c
  | .insertUser _ | .selectPassword _ | .selectUserInfo _ | .insertChat _ | .selectChats .. => none

/-- The statement is about another chat than `c`, or about none, and stores no user. -/
def Query.Elsewhere (c : Int) (q : Query) : Prop := q.chat ≠ some c ∧ q.keepsUsers

/-- The answer to the statement shows an id of a message, or may. -/
def Query.showsIds : Query → Bool
  | .insertMessage _ | .selectChat _ | .selectMessages .. => true
  | _ => false

/-- A statement about chat `c`, and the one that takes its place in a lone run. -/
inductive Paired (c : Int) : Query → Query → Prop
  | same {q : Query} (hq : q.chat = some c) (hlist : ∀ c' since, q ≠ .selectMessages c' since) : Paired c q q
  | message {sql : CString} (h : ∀ msg, oneRow sql = some msg → msg.chatId = c) :
      Paired c (.insertMessage sql) (.insertMessage sql)
  | update (i i' : Int) : Paired c (.updateLastMessage i c) (.updateLastMessage i' c)

/-- Answers that differ in the ids of messages at most. -/
inductive SameAnswer (c : Int) : (q q' : Query) → q.Result → q'.Result → Prop
  | same {q : Query} (hq : q.showsIds = false) (r : q.Result) : SameAnswer c q q r r
  | stored {sql : CString} {r r' : Option Int} (h : r.isSome = r'.isSome) :
      SameAnswer c (.insertMessage sql) (.insertMessage sql) r r'
  | chat {rows rows' : List ChatRow} (h : rows.map (ChatRow.forgetLast c) = rows'.map (ChatRow.forgetLast c)) :
      SameAnswer c (.selectChat c) (.selectChat c) (some rows) (some rows')
  | updated {i i' : Int} (r : Bool) : SameAnswer c (.updateLastMessage i c) (.updateLastMessage i' c) r r

/-- The id that an `INSERT` of chats answers is an `int`, and not `c`. -/
def Query.NewChat (c : Int) : (q : Query) → q.Result → Prop
  | .insertChat _, r => ∀ c', r = some c' → c' ≠ c ∧ Json.INT_MIN ≤ c' ∧ c' ≤ Json.INT_MAX
  | _, _ => True

/-- An id is left for a message, and an `INSERT` into `messages` is of one row of literals. -/
def StoresPlainly (d : Db) (q : Query) : Prop := d.nextMessageId ≤ Json.INT_MAX ∧ q.StoresOne

instance (d : Db) (q : Query) : Decidable (StoresPlainly d q) := inferInstanceAs (Decidable (_ ∧ _))

/-- The first row of a message's statement is of its chat. -/
theorem chatId_of_oneRow {message msg : Message} (hc : Json.INT_MIN ≤ message.chatId ∧ message.chatId ≤ Json.INT_MAX)
    (hu : Json.INT_MIN ≤ message.senderId ∧ message.senderId ≤ Json.INT_MAX) (h : oneRow message.sql = some msg) :
    msg.chatId = message.chatId := by
  obtain ⟨rest, hsql⟩ := MessageSql.query_insertText hc hu
  have hread := readRows_of_oneRow h
  rw [Message.sql, hsql] at hread
  exact (MessageSql.readRows_first hread).1

namespace Tables

variable {m : Mysql} {t t' : Tables} {c : Int}

theorem SameChat.chatIds (h : t.SameChat c t') : c ∈ t.chatIds ↔ c ∈ t'.chatIds := by
  have hrows : ∀ t : Tables, c ∈ t.chatIds ↔ (t.chats.filter (·.chatId = c)).map (ChatRow.forgetLast c) ≠ [] := by
    intro t
    simp [Tables.chatIds]
  rw [hrows, hrows, h.rows]

theorem SameChat.userIds (h : t.SameChat c t') : t.userIds = t'.userIds := by
  rw [Tables.userIds, Tables.userIds, h.users]

theorem memberRows_eq_filter (u : Int) : t.memberRows c u = (t.members c).filter (·.userId = u) := by
  simp only [memberRows, members, List.filter_filter]
  exact List.filter_congr fun p _ => by simp [Bool.and_comm]

theorem SameChat.memberRows (h : t.SameChat c t') (u : Int) : t.memberRows c u = t'.memberRows c u := by
  rw [memberRows_eq_filter, memberRows_eq_filter, h.members]

theorem admins_eq_filter : t.admins c = (t.members c).filter (·.isAdmin = 1) := by
  simp only [admins, members, List.filter_filter]
  exact List.filter_congr fun p _ => by simp [Bool.and_comm]

theorem SameChat.admins (h : t.SameChat c t') : t.admins c = t'.admins c := by
  rw [admins_eq_filter, admins_eq_filter, h.members]

/-! ## Statements about other chats -/

/-- What a change leaves alone is found as before, if it makes nothing else look like it. -/
theorem filter_map_other {α : Type*} {p : α → Bool} {f : α → α} (hp : ∀ a, p (f a) = p a)
    (hf : ∀ a, p a = true → f a = a) (l : List α) : (l.map f).filter p = l.filter p := by
  have hcomp : p ∘ f = p := funext hp
  rw [List.filter_map, hcomp]
  refine (List.map_congr_left fun a ha => ?_).trans (List.map_id _)
  exact hf a (List.mem_filter.mp ha).2

/-- Of what is left, as much is about `c`. -/
theorem filter_filter_other {α : Type*} {p q : α → Bool} (h : ∀ a, p a = true → q a = true) (l : List α) :
    (l.filter q).filter p = l.filter p := by
  rw [List.filter_filter]
  refine List.filter_congr fun a _ => ?_
  by_cases ha : p a = true
  · simp [ha, h a ha]
  · simp [ha]

theorem SameChat.of_elsewhere {t₁ : Tables} (h : t.SameChat c t') (husers : t₁.users = t.users)
    (hclock : t₁.clock = t.clock) (hrows : t₁.chats.filter (·.chatId = c) = t.chats.filter (·.chatId = c))
    (hmembers : t₁.members c = t.members c) (hmessages : t₁.messagesOf c = t.messagesOf c)
    (hids : t.nextMessageId ≤ t₁.nextMessageId) (hassigned : t.nextChatId ≤ t₁.nextChatId) : t₁.SameChat c t' where
  users := husers.trans h.users
  clock := hclock.trans h.clock
  rows := by rw [hrows, h.rows]
  members := hmembers.trans h.members
  messages := by rw [hmessages, h.messages]
  ids := h.ids.trans hids
  assigned := h.assigned.trans_le hassigned

theorem exec_elsewhere {q : Query} (hwf : t.Wf) (hq : q.Elsewhere c) (hone : q.StoresOne) (h : t.SameChat c t') :
    q.NewChat c (exec m q t).1 ∧ (exec m q t).2.SameChat c t' := by
  obtain ⟨hchat, husers⟩ := hq
  have hother : ∀ {c'}, q.chat = some c' → c' ≠ c := fun hc' he => hchat (he ▸ hc')
  cases q with
  | insertUser => cases husers
  | insertChat sql =>
    refine ⟨fun c' hc' => ⟨?_, hwf.insertChat_range hc'⟩, ?_⟩
    · -- The new chat has the next id, which is larger than `c`.
      obtain ⟨-, hnone⟩ | ⟨r, rs, -, hsome⟩ := insertChat_cases m t sql
      · simp only [exec, hnone] at hc'
        cases hc'
      · simp only [exec, hsome, Option.some.injEq] at hc'
        exact hc' ▸ h.assigned.ne'
    · refine insertRows_invariant (P := fun t => t.SameChat c t') (fun hrow h => ?_) h
      obtain ⟨-, rfl⟩ := insertChatRow_eq_some.mp hrow
      refine h.of_elsewhere rfl rfl ?_ rfl rfl le_rfl (Int.le_add_one le_rfl)
      simp [List.filter_append, h.assigned.ne']
  | insertParticipant c' u a =>
    refine ⟨trivial, ?_⟩
    simp only [exec, insertParticipant]
    split
    · refine h.of_elsewhere rfl rfl rfl ?_ rfl le_rfl le_rfl
      simp [members, List.filter_append, hother rfl]
    · exact h
  | insertMessage sql =>
    obtain ⟨msg, hmsg⟩ := Option.isSome_iff_exists.mp (hone sql rfl)
    have hne : msg.chatId ≠ c := hother (by rw [Query.chat, hmsg, Option.map_some])
    refine ⟨trivial, ?_⟩
    simp only [exec]
    obtain hnone | ⟨-, hstored⟩ := insertMessage_oneRow (m := m) (t := t) hmsg
    · rw [hnone]
      exact h
    · rw [hstored]
      refine h.of_elsewhere rfl rfl rfl rfl ?_ (Int.le_add_one le_rfl) le_rfl
      simp [messagesOf, List.filter_append, Message.row, hne]
  | updateLastMessage i c' =>
    refine ⟨trivial, h.of_elsewhere rfl rfl ?_ rfl rfl le_rfl le_rfl⟩
    have hne : c' ≠ c := hother rfl
    refine filter_map_other (fun r => ?_) (fun r hr => if_neg ?_) t.chats
    · split <;> rfl
    · exact fun he => hne (he.symm.trans (of_decide_eq_true hr))
  | deleteParticipant c' u =>
    refine ⟨trivial, h.of_elsewhere rfl rfl rfl ?_ rfl le_rfl le_rfl⟩
    have hne : c' ≠ c := hother rfl
    exact filter_filter_other (fun p hp => by simp [of_decide_eq_true hp, hne.symm]) t.participants
  | promote c' u =>
    refine ⟨trivial, h.of_elsewhere rfl rfl rfl ?_ rfl le_rfl le_rfl⟩
    have hne : c' ≠ c := hother rfl
    refine filter_map_other (fun p => ?_) (fun p hp => if_neg ?_) t.participants
    · split <;> rfl
    · exact fun he => hne (he.1.symm.trans (of_decide_eq_true hp))
  | deleteChat c' =>
    have hne : c ≠ c' := (hother rfl).symm
    refine ⟨trivial, h.of_elsewhere rfl rfl ?_ ?_ ?_ le_rfl le_rfl⟩
    · exact filter_filter_other (fun r hr => by simp [of_decide_eq_true hr, hne]) t.chats
    · exact filter_filter_other (fun p hp => by simp [of_decide_eq_true hp, hne]) t.participants
    · exact filter_filter_other (fun r hr => by simp [of_decide_eq_true hr, hne]) t.messages
  | _ => exact ⟨trivial, h⟩

/-! ## Statements about the chat -/

/-- A change of both that goes no further than the chat. -/
theorem SameChat.both {t₁ t₁' : Tables} (h : t.SameChat c t') (husers : t₁.users = t.users ∧ t₁'.users = t'.users)
    (hclock : t₁.clock = t.clock ∧ t₁'.clock = t'.clock)
    (hrows : (t₁.chats.filter (·.chatId = c)).map (ChatRow.forgetLast c) =
      (t₁'.chats.filter (·.chatId = c)).map (ChatRow.forgetLast c))
    (hmembers : t₁.members c = t₁'.members c)
    (hmessages : (t₁.messagesOf c).map MessageRow.forgetId = (t₁'.messagesOf c).map MessageRow.forgetId)
    (hids : t₁'.nextMessageId ≤ t₁.nextMessageId) (hassigned : t₁.nextChatId = t.nextChatId) :
    t₁.SameChat c t₁' where
  users := by rw [husers.1, husers.2, h.users]
  clock := by rw [hclock.1, hclock.2, h.clock]
  rows := hrows
  members := hmembers
  messages := hmessages
  ids := hids
  assigned := hassigned ▸ h.assigned

theorem rows_updateLastMessage (i : Int) :
    ((t.updateLastMessage i c).chats.filter (·.chatId = c)).map (ChatRow.forgetLast c) =
      (t.chats.filter (·.chatId = c)).map (ChatRow.forgetLast c) := by
  have hkey : (fun r : ChatRow => decide (r.chatId = c)) ∘
      (fun r => if r.chatId = c then { r with lastMessageId := some i } else r) = fun r => decide (r.chatId = c) := by
    funext r
    simp only [Function.comp_apply]
    split <;> rfl
  rw [updateLastMessage, List.filter_map, hkey, List.map_map]
  refine List.map_congr_left fun r _ => ?_
  by_cases hr : r.chatId = c <;> simp [ChatRow.forgetLast, hr]

theorem SameChat.updateLastMessage (h : t.SameChat c t') (i i' : Int) :
    (t.updateLastMessage i c).SameChat c (t'.updateLastMessage i' c) :=
  h.both ⟨rfl, rfl⟩ ⟨rfl, rfl⟩ (by rw [rows_updateLastMessage, rows_updateLastMessage, h.rows]) h.members h.messages
    h.ids rfl

theorem members_deleteParticipant (u : Int) :
    (t.deleteParticipant c u).members c = (t.members c).filter fun p => ¬ (p.chatId = c ∧ p.userId = u) := by
  simp only [members, deleteParticipant, List.filter_filter]
  exact List.filter_congr fun p _ => Bool.and_comm _ _

theorem members_promote (u : Int) : (t.promote c u).members c =
    (t.members c).map fun p => if p.chatId = c ∧ p.userId = u then { p with isAdmin := 1 } else p := by
  rw [members, members, promote, List.filter_map]
  congr 1
  refine List.filter_congr fun p _ => ?_
  simp only [Function.comp_apply]
  split <;> rfl

theorem rows_deleteChat (t : Tables) (c : Int) : (t.deleteChat c).chats.filter (·.chatId = c) = [] := by
  simp [deleteChat, List.filter_filter]

theorem members_deleteChat (t : Tables) (c : Int) : (t.deleteChat c).members c = [] := by
  simp [deleteChat, members, List.filter_filter]

theorem messagesOf_deleteChat (t : Tables) (c : Int) : (t.deleteChat c).messagesOf c = [] := by
  simp [deleteChat, messagesOf, List.filter_filter]

/-- A message of the chat is stored in both, or in neither. -/
theorem insertMessage_paired {sql : CString} {msg : Message} (hmsg : oneRow sql = some msg) (hc : msg.chatId = c)
    (hroom : t.nextMessageId ≤ Json.INT_MAX) (h : t.SameChat c t') :
    (t.insertMessage m sql).1.isSome = (t'.insertMessage m sql).1.isSome ∧
      (t.insertMessage m sql).2.SameChat c (t'.insertMessage m sql).2 := by
  subst hc
  have hiff : (msg.chatId ∈ t.chatIds ∧ msg.senderId ∈ t.userIds ∧ t.nextMessageId ≤ Json.INT_MAX) ↔
      (msg.chatId ∈ t'.chatIds ∧ msg.senderId ∈ t'.userIds ∧ t'.nextMessageId ≤ Json.INT_MAX) := by
    rw [h.chatIds, h.userIds, iff_true_intro hroom, iff_true_intro (h.ids.trans hroom)]
  rw [insertMessage, insertMessage, m.messageRows_literal (readRows_of_oneRow hmsg),
    m.messageRows_literal (readRows_of_oneRow hmsg), insertRows_singleton, insertRows_singleton]
  simp only [insertMessageRow, hiff]
  by_cases hfit : msg.chatId ∈ t'.chatIds ∧ msg.senderId ∈ t'.userIds ∧ t'.nextMessageId ≤ Json.INT_MAX
  · simp only [if_pos hfit]
    refine ⟨rfl, h.both ⟨rfl, rfl⟩ ⟨rfl, rfl⟩ h.rows h.members ?_ (by simpa using h.ids) rfl⟩
    have hmessages := h.messages
    simp only [messagesOf] at hmessages
    simp [messagesOf, List.filter_append, hmessages, MessageRow.forgetId, h.clock]
  · simp only [if_neg hfit]
    exact ⟨trivial, h⟩

theorem exec_paired {q q' : Query} (hq : Paired c q q') (hroom : t.nextMessageId ≤ Json.INT_MAX) (hone : q.StoresOne)
    (h : t.SameChat c t') :
    SameAnswer c q q' (exec m q t).1 (exec m q' t').1 ∧ (exec m q t).2.SameChat c (exec m q' t').2 := by
  cases hq with
  | update i i' => exact ⟨.updated true, h.updateLastMessage i i'⟩
  | @message sql hc =>
    obtain ⟨msg, hmsg⟩ := Option.isSome_iff_exists.mp (hone sql rfl)
    obtain ⟨hsome, hsame⟩ := insertMessage_paired (m := m) hmsg (hc msg hmsg) hroom h
    exact ⟨.stored hsome, hsame⟩
  | same hq hlist =>
  have hsame : q.showsIds = false → (exec m q t').1 = (exec m q t).1 →
      SameAnswer c q q (exec m q t).1 (exec m q t').1 := by
    intro hshow hans
    rw [hans]
    exact .same hshow _
  cases q with
  | insertUser | selectPassword | selectUserInfo | insertChat | selectChats => cases hq
  | selectMessages c' since => exact absurd rfl (hlist c' since)
  | insertParticipant c' u a =>
    obtain rfl : c' = c := Option.some.inj hq
    have hiff : (c' ∈ t.chatIds ∧ u ∈ t.userIds ∧ t.memberRows c' u = []) ↔
        (c' ∈ t'.chatIds ∧ u ∈ t'.userIds ∧ t'.memberRows c' u = []) := by
      rw [h.chatIds, h.userIds, h.memberRows]
    refine ⟨hsame rfl ?_, ?_⟩
    · simp only [exec, insertParticipant, hiff]
      split <;> rfl
    · simp only [exec, insertParticipant, hiff]
      split
      · refine h.both ⟨rfl, rfl⟩ ⟨rfl, rfl⟩ h.rows ?_ h.messages h.ids rfl
        have hmembers := h.members
        simp only [members] at hmembers
        simp [members, List.filter_append, hmembers]
      · exact h
  | insertMessage sql =>
    rw [Query.chat, Option.map_eq_some_iff] at hq
    obtain ⟨msg, hmsg, hc⟩ := hq
    obtain ⟨hsome, hsame⟩ := insertMessage_paired (m := m) hmsg hc hroom h
    exact ⟨.stored hsome, hsame⟩
  | updateLastMessage i c' =>
    obtain rfl : c' = c := Option.some.inj hq
    exact ⟨.updated true, h.updateLastMessage i i⟩
  | selectChat c' =>
    obtain rfl : c' = c := Option.some.inj hq
    exact ⟨.chat h.rows, h⟩
  | selectParticipants c' =>
    obtain rfl : c' = c := Option.some.inj hq
    refine ⟨hsame rfl ?_, h⟩
    simp only [exec, h.members, findUser, h.users]
  | selectIsAdmin c' u =>
    obtain rfl : c' = c := Option.some.inj hq
    exact ⟨hsame rfl (by simp only [exec, h.memberRows]), h⟩
  | selectIsGroup c' =>
    obtain rfl : c' = c := Option.some.inj hq
    have hgroup : (·.isGroup) ∘ ChatRow.forgetLast c' = (·.isGroup) := funext fun r => r.isGroup_forgetLast c'
    have hrows := congrArg (List.map (·.isGroup)) h.rows
    rw [List.map_map, List.map_map, hgroup] at hrows
    exact ⟨hsame rfl (congrArg some hrows.symm), h⟩
  | deleteParticipant c' u =>
    obtain rfl : c' = c := Option.some.inj hq
    refine ⟨hsame rfl rfl, h.both ⟨rfl, rfl⟩ ⟨rfl, rfl⟩ h.rows ?_ h.messages h.ids rfl⟩
    simp only [exec, members_deleteParticipant, h.members]
  | countParticipants c' =>
    obtain rfl : c' = c := Option.some.inj hq
    exact ⟨hsame rfl (by simp only [exec, h.members]), h⟩
  | countAdmins c' =>
    obtain rfl : c' = c := Option.some.inj hq
    exact ⟨hsame rfl (by simp only [exec, h.admins]), h⟩
  | selectFirstParticipant c' =>
    obtain rfl : c' = c := Option.some.inj hq
    exact ⟨hsame rfl (by simp only [exec, h.members]), h⟩
  | promote c' u =>
    obtain rfl : c' = c := Option.some.inj hq
    refine ⟨hsame rfl rfl, h.both ⟨rfl, rfl⟩ ⟨rfl, rfl⟩ h.rows ?_ h.messages h.ids rfl⟩
    simp only [exec, members_promote, h.members]
  | deleteChat c' =>
    obtain rfl : c' = c := Option.some.inj hq
    refine ⟨hsame rfl rfl, h.both ⟨rfl, rfl⟩ ⟨rfl, rfl⟩ ?_ ?_ ?_ h.ids rfl⟩
    · simp only [exec, rows_deleteChat]
    · simp only [exec, members_deleteChat]
    · simp only [exec, messagesOf_deleteChat]

end Tables

/-! ## The chat of a request -/

/-- The chat that an action's parameters name. -/
def chatParam (a : Action) (json : Json) : Option Int :=
  match a with
  | .addToGroupChat => (addToGroupChatParams json).map (·.chatId)
  | .sendMessage => (sendMessageParams json).map (·.chatId)
  | .getChatMessages => (getChatMessagesParams json).map (·.1)
  | .getChatInfo => getChatInfoParams json
  | .removeFromChat => (removeFromChatParams json).map (·.chatId)
  | .exitChat => (exitChatParams json).map (·.1)
  | _ => none

/-- The actions that are about one chat, and list no messages. -/
def Action.onOneChat : Action → Bool
  | .addToGroupChat | .sendMessage | .getChatInfo | .removeFromChat | .exitChat => true
  | _ => false

namespace HandleAction

variable {α : Type} {c : Int}

/-- Alone the program does the same, up to ids of messages. -/
abbrev Alone (c : Int) (p : DbProg α) : Prop := Prog.Alike (Paired c) (SameAnswer c) Eq p p

theorem alone_ret (a : α) : Alone c (.ret a) := .ret rfl

theorem Alone.bind {β : Type} {p : DbProg α} {f : α → DbProg β} (hp : Alone c p) (hf : ∀ a, Alone c (f a)) :
    Alone c (p >>= f) := Prog.Alike.bind hp fun a _ h => h ▸ hf a

theorem alone_query {q : Query} (hq : q.chat = some c) (hshow : q.showsIds = false) : Alone c (mysqlQuery q) := by
  refine .call (.same hq fun c' since he => ?_) fun r r' h => ?_
  · subst he
    cases hshow
  · cases h with
    | same => exact .ret rfl
    | updated => exact .ret rfl
    | stored | chat => cases hshow

theorem sendMessage_alone {message : Message} (hc : Json.INT_MIN ≤ message.chatId ∧ message.chatId ≤ Json.INT_MAX)
    (hu : Json.INT_MIN ≤ message.senderId ∧ message.senderId ≤ Json.INT_MAX) :
    Alone message.chatId (FinalServer.sendMessage message) := by
  refine .call (.message fun msg hmsg => chatId_of_oneRow hc hu hmsg) fun r r' h => ?_
  cases h with
  | same hshow => cases hshow
  | @stored _ r r' hsome =>
    cases r with
    | none =>
      cases r' with
      | none => exact .ret rfl
      | some i' => cases hsome
    | some i =>
      cases r' with
      | none => cases hsome
      | some i' =>
        refine .call (.update i i') fun r r' h => ?_
        cases h with
        | same | updated => exact .ret rfl

theorem systemMessage_alone (hc : Json.INT_MIN ≤ c ∧ c ≤ Json.INT_MAX) (content : CString) :
    Alone c (FinalServer.sendMessage (systemMessage c content)) :=
  @sendMessage_alone (systemMessage c content) hc (show Json.INT_MIN ≤ 1 ∧ (1 : Int) ≤ Json.INT_MAX by decide)

theorem addEach_alone (hc : Json.INT_MIN ≤ c ∧ c ≤ Json.INT_MAX) (by_ : Int) (f : Int → Int) (us : List Int) :
    Alone c (addEach c by_ f us) := by
  induction us with
  | nil => exact alone_ret 0
  | cons u us ih =>
    refine Alone.bind (alone_query rfl rfl) fun ok => ?_
    split
    · exact (systemMessage_alone hc _).bind fun _ => ih.bind fun _ => alone_ret _
    · exact ih

theorem removeEach_alone (hc : Json.INT_MIN ≤ c ∧ c ≤ Json.INT_MAX) (by_ : Int) (ids : List Json) :
    Alone c (removeEach c by_ ids) := by
  induction ids with
  | nil => exact alone_ret 0
  | cons id ids ih =>
    simp only [removeEach]
    split
    · refine Alone.bind (alone_query rfl rfl) fun ok => ?_
      split
      · exact (systemMessage_alone hc _).bind fun _ => ih.bind fun _ => alone_ret _
      · exact ih
    · exact ih

theorem isUserAdmin_alone (c u : Int) : Alone c (isUserAdmin c u) := by
  refine Alone.bind (alone_query rfl rfl) fun r => ?_
  split <;> exact alone_ret _

theorem isGroupChat_alone (c : Int) : Alone c (isGroupChat c) := by
  refine Alone.bind (alone_query rfl rfl) fun r => ?_
  split <;> exact alone_ret _

/-- What is read of a chat's row is not the id of its last message. -/
theorem getChatInfo_alike (c : Int) : Prog.Alike (Paired c) (SameAnswer c)
    (fun r r' => r.map (fun info => (info.1.forgetLast c, info.2)) = r'.map fun info => (info.1.forgetLast c, info.2))
    (FinalServer.getChatInfo c) (FinalServer.getChatInfo c) := by
  refine .call (.same rfl nofun) fun r r' h => ?_
  cases h with
  | same hshow => cases hshow
  | @chat rows rows' hrows =>
    cases rows with
    | nil =>
      cases rows' with
      | nil => exact .ret rfl
      | cons row' rows' => cases hrows
    | cons row rows =>
      cases rows' with
      | nil => cases hrows
      | cons row' rows' =>
        obtain ⟨hrow, -⟩ := List.cons.inj hrows
        refine .call (.same rfl nofun) fun r r' h => ?_
        cases h with
        | same =>
          cases r with
          | none => exact .ret rfl
          | some participants => exact .ret (congrArg (fun row => some (row, participants.take MAX_PARTICIPANTS)) hrow)

theorem exitLast_alone (c u : Int) : Alone c (exitLast c u) := by
  refine Alone.bind (alone_query rfl rfl) fun ok => ?_
  split <;> exact alone_ret _

theorem exitAdmin_alone (c u : Int) : Alone c (exitAdmin c u) := by
  refine Alone.bind (alone_query rfl rfl) fun n => ?_
  split
  · refine Alone.bind (Alone.bind (alone_query rfl rfl) fun r => ?_) fun ok => ?_
    · split
      · exact alone_query rfl rfl
      · exact alone_ret _
    · split <;> exact alone_ret _
  · exact alone_ret _

theorem answer_alone (un : Uninit) {json : Json} {a : Action} (ha : a.onOneChat = true)
    (hc : chatParam a json = some c) : Alone c (answer un json a) := by
  cases a with
  | addToGroupChat =>
    obtain ⟨p, hp, rfl⟩ := Option.map_eq_some_iff.mp hc
    simp only [answer, addToGroupChat, hp]
    refine (addEach_alone (addToGroupChatParams_range hp) _ _ _).bind fun n => ?_
    split <;> exact alone_ret _
  | sendMessage =>
    obtain ⟨p, hp, rfl⟩ := Option.map_eq_some_iff.mp hc
    simp only [answer, sendMessage, hp]
    have hrange := sendMessageParams_range hp
    refine Alone.bind (@sendMessage_alone p.message hrange.1 hrange.2) fun ok => ?_
    split <;> exact alone_ret _
  | getChatInfo =>
    have hp : getChatInfoParams json = some c := hc
    simp only [answer, getChatInfo, hp]
    refine Prog.Alike.bind (getChatInfo_alike c) fun r r' h => ?_
    rcases r with _ | ⟨chat, participants⟩
    · rcases r' with _ | _
      · exact alone_ret _
      · cases h
    · rcases r' with _ | ⟨chat', participants'⟩
      · cases h
      · obtain ⟨hchat, rfl⟩ := Prod.mk.inj (Option.some.inj h)
        have hid := congrArg ChatRow.chatId hchat
        have hname := congrArg ChatRow.chatName hchat
        have hgroup := congrArg ChatRow.isGroup hchat
        simp only [ChatRow.chatId_forgetLast] at hid
        simp only [ChatRow.chatName_forgetLast] at hname
        simp only [ChatRow.isGroup_forgetLast] at hgroup
        exact .ret (by simp only [hid, hname, hgroup])
  | removeFromChat =>
    obtain ⟨p, hp, rfl⟩ := Option.map_eq_some_iff.mp hc
    simp only [answer, removeFromChat, hp]
    refine (isUserAdmin_alone _ _).bind fun isAdmin => ?_
    split
    · exact alone_ret _
    refine (isGroupChat_alone _).bind fun isGroup => ?_
    split
    · exact alone_ret _
    · exact (removeEach_alone (removeFromChatParams_range hp) _ _).bind fun _ => alone_ret _
  | exitChat =>
    obtain ⟨⟨c, u⟩, hp, rfl⟩ := Option.map_eq_some_iff.mp hc
    simp only [answer, exitChat, hp]
    refine (isUserAdmin_alone _ _).bind fun isAdmin => Alone.bind (alone_query rfl rfl) fun count => ?_
    refine Alone.bind (alone_query rfl rfl) fun ok => ?_
    split
    · exact alone_ret _
    refine (systemMessage_alone (exitChatParams_range hp) _).bind fun _ => ?_
    split
    · exact exitLast_alone c u
    · split
      · exact exitAdmin_alone c u
      · exact alone_ret _
  | _ => cases ha

/-! ## Requests about other chats -/

/-- The statements are about other chats than `c`. -/
abbrev Apart (c : Int) (p : DbProg α) : Prop := Prog.Meets (Query.Elsewhere c) (Query.NewChat c) (fun _ => True) p

theorem apart_ret (a : α) : Apart c (.ret a) := .ret trivial

theorem Apart.bind {β : Type} {p : DbProg α} {f : α → DbProg β} (hp : Apart c p) (hf : ∀ a, Apart c (f a)) :
    Apart c (p >>= f) := Prog.Meets.bind hp fun a _ => hf a

theorem apart_query {q : Query} (hq : q.Elsewhere c) : Apart c (mysqlQuery q) :=
  (Prog.Meets.stmt hq).mono fun _ _ => trivial

theorem elsewhere_noChat {q : Query} (hq : q.chat = none) (husers : q.keepsUsers) : q.Elsewhere c :=
  ⟨fun h => absurd (hq.symm.trans h) (Option.some_ne_none c).symm, husers⟩

theorem apart_chat {q : Query} {c' : Int} (hq : q.chat = some c') (hne : c' ≠ c) (husers : q.keepsUsers) :
    Apart c (mysqlQuery q) := apart_query ⟨fun h => hne (Option.some.inj (hq.symm.trans h)), husers⟩

theorem sendMessage_apart {message : Message} (hc : Json.INT_MIN ≤ message.chatId ∧ message.chatId ≤ Json.INT_MAX)
    (hu : Json.INT_MIN ≤ message.senderId ∧ message.senderId ≤ Json.INT_MAX) (hne : message.chatId ≠ c) :
    Apart c (FinalServer.sendMessage message) := by
  have hq : Query.Elsewhere c (.insertMessage message.sql) := by
    refine ⟨fun hchat => ?_, trivial⟩
    rw [Query.chat, Option.map_eq_some_iff] at hchat
    obtain ⟨msg, hmsg, hmc⟩ := hchat
    exact hne ((chatId_of_oneRow hc hu hmsg).symm.trans hmc)
  refine Apart.bind (apart_query hq) fun r => ?_
  split
  · exact apart_ret _
  · exact apart_chat rfl hne trivial

theorem systemMessage_apart {c' : Int} (hc : Json.INT_MIN ≤ c' ∧ c' ≤ Json.INT_MAX) (hne : c' ≠ c)
    (content : CString) : Apart c (FinalServer.sendMessage (systemMessage c' content)) :=
  sendMessage_apart hc (show Json.INT_MIN ≤ 1 ∧ (1 : Int) ≤ Json.INT_MAX by decide) hne

theorem addEach_apart {c' : Int} (hc : Json.INT_MIN ≤ c' ∧ c' ≤ Json.INT_MAX) (hne : c' ≠ c) (by_ : Int)
    (f : Int → Int) (us : List Int) : Apart c (addEach c' by_ f us) := by
  induction us with
  | nil => exact apart_ret 0
  | cons u us ih =>
    refine Apart.bind (apart_chat rfl hne trivial) fun ok => ?_
    split
    · exact (systemMessage_apart hc hne _).bind fun _ => ih.bind fun _ => apart_ret _
    · exact ih

theorem removeEach_apart {c' : Int} (hc : Json.INT_MIN ≤ c' ∧ c' ≤ Json.INT_MAX) (hne : c' ≠ c) (by_ : Int)
    (ids : List Json) : Apart c (removeEach c' by_ ids) := by
  induction ids with
  | nil => exact apart_ret 0
  | cons id ids ih =>
    simp only [removeEach]
    split
    · refine Apart.bind (apart_chat rfl hne trivial) fun ok => ?_
      split
      · exact (systemMessage_apart hc hne _).bind fun _ => ih.bind fun _ => apart_ret _
      · exact ih
    · exact ih

theorem insertChat_apart (isGroup : Int) (chatName : CString) :
    Prog.Meets (Query.Elsewhere c) (Query.NewChat c)
      (fun r => ∀ c', r = some c' → c' ≠ c ∧ Json.INT_MIN ≤ c' ∧ c' ≤ Json.INT_MAX)
      (FinalServer.createChat isGroup chatName) := by
  have hq : Query.Elsewhere c (.insertChat (ChatSql.query (ChatSql.insertText isGroup chatName))) :=
    elsewhere_noChat rfl trivial
  exact .stmt hq

/-- A new chat is another one, and so is all that is done to it. -/
theorem createChat_apart (un : Uninit) (json : Json) : Apart c (createChat un json) := by
  unfold createChat
  split
  · split
    · refine Prog.Meets.bind (insertChat_apart _ _) fun r hr => ?_
      split
      next c' =>
        obtain ⟨hne, hrange⟩ := hr c' rfl
        exact (systemMessage_apart hrange hne _).bind fun _ =>
          (addEach_apart hrange hne _ _ _).bind fun _ => apart_ret _
      next => exact apart_ret _
    · exact apart_ret _
  · exact apart_ret _

theorem exitChat_apart {c' : Int} (hne : c' ≠ c) (u : Int) (isAdmin : Bool) (count : Option Nat) :
    Apart c (if count = some 1 then exitLast c' u else if isAdmin then exitAdmin c' u else
      .ret (reply [] ("User " ++ CString.ofInt u ++ " exited chat " ++ CString.ofInt c' ++ " successfully") 200)) := by
  split
  · refine Apart.bind (apart_chat rfl hne trivial) fun ok => ?_
    split <;> exact apart_ret _
  · split
    · refine Apart.bind (apart_chat rfl hne trivial) fun n => ?_
      split
      · refine Apart.bind (Apart.bind (apart_chat rfl hne trivial) fun r => ?_) fun ok => ?_
        · split
          · exact apart_chat rfl hne trivial
          · exact apart_ret _
        · split <;> exact apart_ret _
      · exact apart_ret _
    · exact apart_ret _

theorem isUserAdmin_apart {c' : Int} (hne : c' ≠ c) (u : Int) : Apart c (isUserAdmin c' u) := by
  refine Apart.bind (apart_chat rfl hne trivial) fun r => ?_
  split <;> exact apart_ret _

theorem isGroupChat_apart {c' : Int} (hne : c' ≠ c) : Apart c (isGroupChat c') := by
  refine Apart.bind (apart_chat rfl hne trivial) fun r => ?_
  split <;> exact apart_ret _

theorem answer_apart (un : Uninit) {json : Json} {a : Action} (ha : a ≠ .createUser) (hc : chatParam a json ≠ some c) :
    Apart c (answer un json a) := by
  cases a with
  | createUser => exact absurd rfl ha
  | ping => exact apart_ret _
  | createChat => exact createChat_apart un json
  | validateUser =>
    simp only [answer, validateUser]
    split
    · refine Apart.bind (Apart.bind (apart_query (elsewhere_noChat rfl trivial)) fun r => ?_) fun r => ?_ <;>
        split <;> exact apart_ret _
    · exact apart_ret _
  | getUserInfo =>
    simp only [answer, getUserInfo]
    split
    · refine Apart.bind (Apart.bind (apart_query (elsewhere_noChat rfl trivial)) fun r => ?_) fun r => ?_ <;>
        split <;> exact apart_ret _
    · exact apart_ret _
  | getChats =>
    simp only [answer, getChats]
    split
    · refine Apart.bind (Apart.bind (apart_query (elsewhere_noChat rfl trivial)) fun r => ?_) fun r => ?_ <;>
        split <;> exact apart_ret _
    · exact apart_ret _
  | addToGroupChat =>
    simp only [answer, addToGroupChat]
    split
    next p hp =>
      have hne : p.chatId ≠ c := fun he => hc (by simp [chatParam, hp, he])
      refine (addEach_apart (addToGroupChatParams_range hp) hne _ _ _).bind fun n => ?_
      split <;> exact apart_ret _
    next => exact apart_ret _
  | sendMessage =>
    simp only [answer, sendMessage]
    split
    next p hp =>
      have hne : p.chatId ≠ c := fun he => hc (by simp [chatParam, hp, he])
      have hrange := sendMessageParams_range hp
      refine Apart.bind (sendMessage_apart hrange.1 hrange.2 hne) fun ok => ?_
      split <;> exact apart_ret _
    next => exact apart_ret _
  | getChatMessages =>
    simp only [answer, getChatMessages]
    split
    next c' since hp =>
      have hne : c' ≠ c := fun he => hc (by simp [chatParam, hp, he])
      refine Apart.bind (Apart.bind (apart_chat rfl hne trivial) fun r => ?_) fun r => ?_ <;>
        split <;> exact apart_ret _
    next => exact apart_ret _
  | getChatInfo =>
    simp only [answer, getChatInfo]
    split
    next c' hp =>
      have hne : c' ≠ c := fun he => hc (by simp [chatParam, hp, he])
      refine Apart.bind (Apart.bind (apart_chat rfl hne trivial) fun r => ?_) fun r => ?_
      · split
        · refine Apart.bind (apart_chat rfl hne trivial) fun r => ?_
          split <;> exact apart_ret _
        · exact apart_ret _
      · split <;> exact apart_ret _
    next => exact apart_ret _
  | removeFromChat =>
    simp only [answer, removeFromChat]
    split
    next p hp =>
      have hne : p.chatId ≠ c := fun he => hc (by simp [chatParam, hp, he])
      refine (isUserAdmin_apart hne _).bind fun isAdmin => ?_
      split
      · exact apart_ret _
      refine (isGroupChat_apart hne).bind fun isGroup => ?_
      split
      · exact apart_ret _
      · exact (removeEach_apart (removeFromChatParams_range hp) hne _ _).bind fun _ => apart_ret _
    next => exact apart_ret _
  | exitChat =>
    simp only [answer, exitChat]
    split
    next c' u hp =>
      have hne : c' ≠ c := fun he => hc (by simp [chatParam, hp, he])
      refine (isUserAdmin_apart hne _).bind fun isAdmin => Apart.bind (apart_chat rfl hne trivial) fun count => ?_
      refine Apart.bind (apart_chat rfl hne trivial) fun ok => ?_
      split
      · exact apart_ret _
      · exact (systemMessage_apart (exitChatParams_range hp) hne _).bind fun _ => exitChat_apart hne u isAdmin count
    next => exact apart_ret _

end HandleAction

/-! ## Every schedule -/

open HandleAction (Alone Apart)

theorem handleAction_alone (un : Uninit) {json : Json} {a : Action} {c : Int} (haction : queryAction json = some a)
    (ha : a.onOneChat = true) (hc : chatParam a json = some c) : Alone c (handleAction un json) := by
  obtain ⟨item, hitem, hcode⟩ := Option.bind_eq_some_iff.mp haction
  simp only [handleAction, hitem, hcode]
  exact (HandleAction.answer_alone un ha hc).bind fun _ => HandleAction.alone_ret _

theorem handleAction_apart (un : Uninit) {json : Json} {c : Int}
    (h : ∀ a, queryAction json = some a → a ≠ .createUser ∧ chatParam a json ≠ some c) :
    Apart c (handleAction un json) := by
  unfold handleAction
  split
  · exact HandleAction.apart_ret _
  next item hitem =>
    refine Apart.bind ?_ fun _ => HandleAction.apart_ret _
    cases hcode : Action.ofCode item.valueint with
    | none => exact HandleAction.apart_ret _
    | some a =>
      have haction : queryAction json = some a := Option.bind_eq_some_iff.mpr ⟨item, hitem, hcode⟩
      exact HandleAction.answer_apart un (h a haction).1 (h a haction).2

variable {m : Mysql} {c : Int}

theorem undisturbed : Pool.Undisturbed (Db.exec m) (Paired c) (SameAnswer c) (Query.Elsewhere c) (Query.NewChat c)
    (fun d d' : Db => d.SameChat c d'.toTables) StoresPlainly where
  own _ _ _ _ hq hok h := Tables.exec_paired hq hok.1 hok.2 h
  other _ d _ hq hok h := Tables.exec_elsewhere d.wf hq hok.2 h

/-- **Isolation of chats.** Whatever the others do between its statements, a
child whose request is about one chat answers it, and leaves the chat, as if
it were alone; the others' requests are about other chats and create no user. -/
theorem concurrent_isolated {ι : Type*} [DecidableEq ι] (m : Mysql) (d : Db) (un : ι → Uninit) (requests : ι → Json)
    {i : ι} {a : Action} {c : Int} (haction : queryAction (requests i) = some a) (ha : a.onOneChat = true)
    (hc : chatParam a (requests i) = some c) (hassigned : c < d.nextChatId)
    (hothers : ∀ j, j ≠ i → ∀ b, queryAction (requests j) = some b →
      b ≠ .createUser ∧ chatParam b (requests j) ≠ some c)
    (schedule : List ι)
    (hok : Run.Along (Pool.step (Db.exec m)) (Pool.Allows fun d _ q => StoresPlainly d q)
      (childProcesses d un requests) schedule)
    {reply : Option Json}
    (hdone : ((Run.exec (Pool.step (Db.exec m)) (childProcesses d un requests) schedule).process i).rest = .ret reply) :
    reply = (d.run m (handleAction (un i) (requests i))).1 ∧
      (Run.exec (Pool.step (Db.exec m)) (childProcesses d un requests) schedule).store.SameChat c
        (d.run m (handleAction (un i) (requests i))).2.toTables := by
  have hsame : d.SameChat c d.toTables := ⟨rfl, rfl, rfl, rfl, rfl, le_rfl, hassigned⟩
  refine Pool.Along.alone undisturbed hok ⟨handleAction_alone (un i) haction ha hc, hsame, fun j hj => ?_⟩ hdone
  exact handleAction_apart (un j) (hothers j hj)

/-! ## Alice leaves one chat while Carol leaves another -/

/-- The chat of Alice and Bob, and the group of Alice and Carol. -/
def twoChats : Db := Run.exec (Db.serve .tableOrder) .threeUsers [.createChat 2 false [3], .createChat 2 true [4]]

/-- Alice's request, about chat 1, and Carol's, about chat 2. -/
def exitOwn (carol : Bool) : Json := (if carol then Call.exitChat 2 4 else Call.exitChat 1 2).request

/-- By turns, until both are done. -/
def byTurns : List Bool := (List.replicate 9 [false, true]).flatten

theorem concurrent_isolated_exitOwn :
    some (HandleAction.reply [] "User 2 exited chat 1 successfully" 200) =
        (twoChats.run .tableOrder (handleAction .zero (exitOwn false))).1 ∧
      (Run.exec (Pool.step (Db.exec .tableOrder)) (childProcesses twoChats (fun _ => .zero) exitOwn)
        byTurns).store.SameChat 1 (twoChats.run .tableOrder (handleAction .zero (exitOwn false))).2.toTables := by
  refine concurrent_isolated .tableOrder twoChats (fun _ => .zero) exitOwn rfl rfl rfl (by decide +kernel)
    (fun j hj b hb => ?_) byTurns (by decide +kernel)
    (Process.rest_of_result (by decide +kernel))
  cases j with
  | false => exact absurd rfl hj
  | true =>
    cases hb
    decide

end FinalServer
