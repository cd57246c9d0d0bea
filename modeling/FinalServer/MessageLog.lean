/-
The messages of a chat as a log.

Nothing changes a stored message, and only the deletion of its chat removes
it. So as long as the chat is there its messages grow at the end (`Grows`),
and they stand in the order of their times (`TimesOrdered`). A chat that is
gone stays gone, since ids are not assigned twice.
-/
import FinalServer.MessageSql

namespace FinalServer

namespace Tables

variable {m : Mysql} {t t' t'' : Tables} {c : Int}

theorem mem_messagesOf {r : MessageRow} : r ∈ t.messagesOf c ↔ r ∈ t.messages ∧ r.chatId = c := by
  simp [messagesOf]

theorem Wf.messageIds_nodup (h : t.Wf) (c : Int) : ((t.messagesOf c).map (·.messageId)).Nodup :=
  List.pairwise_map.mpr ((h.messages_sorted.filter _).imp ne_of_lt)

/-- Between two states chat `c` was deleted for good, or its messages grew. -/
structure Grows (c : Int) (t t' : Tables) : Prop where
  next : t.nextChatId ≤ t'.nextChatId
  clock : t.clock ≤ t'.clock
  chats : c < t.nextChatId → c ∈ t'.chatIds → c ∈ t.chatIds
  messages : c < t.nextChatId → c ∈ t'.chatIds → t.messagesOf c <+: t'.messagesOf c

theorem Grows.of_eq (hchats : t'.chatIds = t.chatIds) (hnext : t'.nextChatId = t.nextChatId)
    (hclock : t'.clock = t.clock) (hmessages : t'.messages = t.messages) : Grows c t t' where
  next := hnext.ge
  clock := hclock.ge
  chats _ hc := hchats ▸ hc
  messages _ _ := by simp only [messagesOf, hmessages, List.prefix_rfl]

theorem Grows.refl : Grows c t t := .of_eq rfl rfl rfl rfl

theorem Grows.trans (h : Grows c t t') (h' : Grows c t' t'') : Grows c t t'' where
  next := h.next.trans h'.next
  clock := h.clock.trans h'.clock
  chats hc hc'' := h.chats hc (h'.chats (hc.trans_le h.next) hc'')
  messages hc hc'' :=
    (h.messages hc (h'.chats (hc.trans_le h.next) hc'')).trans (h'.messages (hc.trans_le h.next) hc'')

theorem insertUser_grows (u e p : CString) : Grows c t (t.insertUser u e p).2 := by
  unfold insertUser
  split <;> exact .of_eq rfl rfl rfl rfl

theorem insertChatRow_grows {row : ChatValues} (h : t.insertChatRow row = some t') : Grows c t t' := by
  obtain ⟨-, rfl⟩ := insertChatRow_eq_some.mp h
  refine ⟨by simp, le_rfl, fun hc hmem => ?_, fun _ _ => List.prefix_rfl⟩
  simp only [chatIds, List.map_append, List.mem_append, List.map_cons, List.map_nil, List.mem_singleton] at hmem
  exact hmem.resolve_right hc.ne

theorem insertParticipant_grows (c' u a : Int) : Grows c t (t.insertParticipant c' u a).2 := by
  unfold insertParticipant
  split <;> exact .of_eq rfl rfl rfl rfl

theorem insertMessageRow_grows {row : Message} (h : t.insertMessageRow row = some t') : Grows c t t' := by
  obtain ⟨-, rfl⟩ := insertMessageRow_eq_some.mp h
  refine ⟨le_rfl, le_rfl, fun _ hc => hc, fun _ _ => ?_⟩
  simp only [messagesOf, List.filter_append]
  exact List.prefix_append _ _

theorem deleteChat_grows (c' : Int) : Grows c t (t.deleteChat c') := by
  refine ⟨le_rfl, le_rfl, fun _ hc => ?_, fun _ hc => ?_⟩
  · obtain ⟨r, hr, rfl⟩ := mem_chatIds.mp hc
    exact mem_chatIds.mpr ⟨r, List.mem_of_mem_filter hr, rfl⟩
  · -- The chat is another one than the deleted.
    obtain ⟨r, hr, rfl⟩ := mem_chatIds.mp hc
    have hne : r.chatId ≠ c' := by simpa using (List.mem_filter.mp hr).2
    simp only [messagesOf, deleteChat, List.filter_filter]
    refine (congrArg (t.messagesOf r.chatId <+: ·) (List.filter_congr fun r' _ => ?_)).mpr List.prefix_rfl
    by_cases hr' : r'.chatId = r.chatId <;> simp [hr', hne]

/-- Every statement lets the log grow. -/
theorem exec_grows (q : Query) : Grows c t (exec m q t).2 := by
  cases q with
  | insertUser sql =>
    simp only [exec]
    split
    · exact insertUser_grows _ _ _
    · exact .refl
  | insertChat sql =>
    exact insertRows_invariant (P := Grows c t) (fun hrow h => h.trans (insertChatRow_grows hrow)) .refl
  | insertParticipant c' u a => exact insertParticipant_grows c' u a
  | insertMessage sql =>
    exact insertRows_invariant (P := Grows c t) (fun hrow h => h.trans (insertMessageRow_grows hrow)) .refl
  | updateLastMessage i c' => exact .of_eq (chatIds_updateLastMessage i c') rfl rfl rfl
  | deleteChat c' => exact deleteChat_grows c'
  | deleteParticipant c' u => exact .of_eq rfl rfl rfl rfl
  | promote c' u => exact .of_eq rfl rfl rfl rfl
  | _ => exact .refl

/-- No statement takes an id of a message back. -/
theorem exec_nextMessageId (q : Query) (t : Tables) : t.nextMessageId ≤ (exec m q t).2.nextMessageId := by
  cases q with
  | insertUser sql =>
    simp only [exec]
    split
    · unfold insertUser
      split <;> exact le_rfl
    · exact le_rfl
  | insertChat sql =>
    refine insertRows_invariant (P := fun t' => t.nextMessageId ≤ t'.nextMessageId) (fun hrow h => ?_) le_rfl
    obtain ⟨-, rfl⟩ := insertChatRow_eq_some.mp hrow
    exact h
  | insertParticipant c u a =>
    simp only [exec, insertParticipant]
    split <;> exact le_rfl
  | insertMessage sql =>
    refine insertRows_invariant (P := fun t' => t.nextMessageId ≤ t'.nextMessageId) (fun hrow h => ?_) le_rfl
    obtain ⟨-, rfl⟩ := insertMessageRow_eq_some.mp hrow
    exact Int.le_add_one h
  | _ => exact le_rfl

/-! ## The order of the times -/

/-- Messages are stored in the order of their times, none of which is to come. -/
structure TimesOrdered (t : Tables) : Prop where
  sorted : t.messages.Pairwise (·.createdAt ≤ ·.createdAt)
  past : ∀ r ∈ t.messages, r.createdAt ≤ t.clock

theorem TimesOrdered.of_eq (h : t.TimesOrdered) (hclock : t.clock ≤ t'.clock) (hmessages : t'.messages = t.messages) :
    t'.TimesOrdered where
  sorted := hmessages ▸ h.sorted
  past r hr := (h.past r (hmessages ▸ hr)).trans hclock

theorem exec_timesOrdered (q : Query) (h : t.TimesOrdered) : (exec m q t).2.TimesOrdered := by
  cases q with
  | insertUser sql =>
    simp only [exec]
    split
    · unfold insertUser
      split <;> exact h.of_eq le_rfl rfl
    · exact h
  | insertChat sql =>
    refine insertRows_invariant (P := TimesOrdered) (fun hrow h => ?_) h
    obtain ⟨-, rfl⟩ := insertChatRow_eq_some.mp hrow
    exact h.of_eq le_rfl rfl
  | insertParticipant c' u a =>
    simp only [exec, insertParticipant]
    split <;> exact h.of_eq le_rfl rfl
  | insertMessage sql =>
    refine insertRows_invariant (P := TimesOrdered) (fun hrow h => ?_) h
    obtain ⟨-, rfl⟩ := insertMessageRow_eq_some.mp hrow
    exact ⟨pairwise_concat.mpr ⟨h.sorted, h.past⟩, forall_mem_concat.mpr ⟨h.past, le_rfl⟩⟩
  | deleteChat c' => exact ⟨h.sorted.filter _, fun r hr => h.past r (List.mem_of_mem_filter hr)⟩
  | updateLastMessage | deleteParticipant | promote => exact h.of_eq le_rfl rfl
  | _ => exact h

/-! ## What a poll lists -/

theorem findUser_isSome {v : Int} (h : v ∈ t.userIds) : (t.findUser v).isSome = true := by
  obtain ⟨r, hr, hv⟩ := mem_userIds.mp h
  rw [findUser, List.find?_isSome]
  exact ⟨r, hr, by simpa using hv⟩

/-- The messages of a chat that `get_chat_messages` lists. -/
def listMessages (m : Mysql) (t : Tables) (c : Int) (since : Option CString) : List MessageListing :=
  ((t.messagesOf c).filter fun r => messageSince m r.createdAt since).filterMap (t.listMessage m)

theorem selectMessages_asWritten {since : Option CString} (h : ∀ time ∈ since, MessageSql.AsWritten c time) :
    t.selectMessages m c since = some (t.listMessages m c since) := if_pos h

end Tables

/-! ## Over a run -/

namespace Db

open Tables (Grows TimesOrdered)

variable {m : Mysql} {d : Db} {c : Int} {α : Type}

theorem tick_grows (n : Nat) : Grows c d.toTables (d.tick n).toTables :=
  ⟨le_rfl, Nat.le_add_right _ _, fun _ hc => hc, fun _ _ => List.prefix_rfl⟩

theorem run_grows (p : DbProg α) : Grows c d.toTables (d.run m p).2.toTables :=
  run_invariant (I := Grows c d.toTables) p.only_true (fun q _ _ _ h => h.trans (Tables.exec_grows q)) .refl

theorem run_timesOrdered (p : DbProg α) (h : d.TimesOrdered) : (d.run m p).2.TimesOrdered :=
  run_invariant p.only_true (fun q _ _ _ h => Tables.exec_timesOrdered q h) h

theorem serve_grows (call : Call) : Grows c d.toTables (d.serve m call).toTables :=
  (tick_grows _).trans (run_grows _)

theorem serve_timesOrdered (call : Call) (h : d.TimesOrdered) : (d.serve m call).TimesOrdered :=
  run_timesOrdered _ (h.of_eq (Nat.le_add_right _ _) rfl)

end Db

/-! ## Storing and listing -/

variable {m : Mysql} {d : Db} {msg : Message}

theorem run_sendMessage_refused (h : ¬ d.Storable m msg.sql) : d.run m (sendMessage msg) = (false, d) := by
  have hexec : Tables.exec m (.insertMessage msg.sql) d.toTables = (none, d.toTables) := Tables.insertMessage_refused h
  rw [sendMessage, Db.run_query_bind _ (congrArg Prod.fst hexec)]
  exact Prod.ext rfl (Db.ext (congrArg Prod.snd hexec))

/-- A message that can be stored is stored as MySQL reads it. -/
theorem run_sendMessage_stored {r : Message} {rs : List Message}
    (hread : m.messageRows d.toTables msg.sql = some (r :: rs)) (hfit : d.RowsFit (r :: rs)) :
    (d.run m (sendMessage msg)).1 = true ∧
      (d.run m (sendMessage msg)).2.messages = d.messages ++ Tables.newMessages d.clock d.nextMessageId (r :: rs) := by
  obtain ⟨hno, -⟩ | ⟨r', rs', hread', -, hstored⟩ := Tables.insertMessage_cases m d.toTables msg.sql
  · exact absurd ⟨r, rs, hread, hfit⟩ hno
  · cases hread.symm.trans hread'
    have hans : (Tables.exec m (.insertMessage msg.sql) d.toTables).1 = some d.nextMessageId :=
      congrArg Prod.fst hstored
    rw [sendMessage, Db.run_query_bind _ hans]
    refine ⟨rfl, ?_⟩
    change (d.insertMessage m msg.sql).2.messages = _
    rw [hstored]

/-- An accepted message is the manager's call and a reply by its success. -/
theorem run_sendMessage_params {query : Json} {p : SendMessageParams} (hp : sendMessageParams query = some p) (d : Db) :
    d.run m (HandleAction.sendMessage query) =
      (if (d.run m (sendMessage p.message)).1 then
          HandleAction.reply []
            ("Message from " ++ CString.ofInt p.senderId ++ " was succesfully sent to chat " ++
              CString.ofInt p.chatId) 200
        else HandleAction.reply [] "Message couldn't be sent unsuccesful" 400,
        (d.run m (sendMessage p.message)).2) := by
  simp only [HandleAction.sendMessage, hp, Db.run_bind]
  split <;> rfl

/-- What `GET_CHAT_MESSAGES` answers with the rows of its `SELECT`. -/
def messagesAnswer : Option (List MessageListing) → Json
  | some rows =>
    let messages := rows.map MessageListing.copy
    HandleAction.reply [("messages_array", .array (messages.map HandleAction.messageJson))]
      (CString.ofInt messages.length ++ " messages succesfully retreived") 200
  | none => HandleAction.reply [] "Messages couldn't be retreived" 400

theorem run_getChatMessages_params {query : Json} {c : Int} {since : Option CString}
    (hp : getChatMessagesParams query = some (c, since)) (d : Db) :
    d.run m (HandleAction.getChatMessages query) = (messagesAnswer (d.selectMessages m c since), d) := by
  have hans : (Tables.exec m (.selectMessages c since) d.toTables).1 = d.selectMessages m c since := rfl
  simp only [HandleAction.getChatMessages, hp, getChatMessages]
  rw [Db.run_bind, Db.run_query_bind _ hans]
  cases d.selectMessages m c since <;> rfl

end FinalServer
