/-
What becomes of a message that `SEND_MESSAGE` accepted.

Its text is copied into a `Message`, written into a statement, read by
MySQL, and copied into a `Message` again when it is listed. The statement is
never cut and the second copy is as long as the first. So a later poll lists
the message as it was sent exactly when content and type fit the `Message`,
MySQL reads them as they stand, and the chat is still there; or another
message of the chat happens to be the same.
-/
import FinalServer.MessageLog
import FinalServer.ReplySize

namespace FinalServer

variable {m : Mysql} {d : Db} {c : Int} {un : Uninit} {request : Json}

theorem Db.execServe_grows (calls : List Call) :
    Tables.Grows c d.toTables (Run.exec (Db.serve m) d calls).toTables :=
  (Run.along_true calls).invariant (I := fun d' : Db => Tables.Grows c d.toTables d'.toTables)
    (fun _ call h _ => h.trans (Db.serve_grows call)) .refl

/-- A poll changes nothing and answers with what the database lists, if its time is read as it stands. -/
theorem run_handleAction_poll {since : Option CString} (hq : queryAction request = some .getChatMessages)
    (hp : getChatMessagesParams request = some (c, since)) (hsince : ∀ time ∈ since, MessageSql.AsWritten c time) :
    d.run m (handleAction un request) = (some (messagesReply (d.listMessages m c since)), d) := by
  have hreply : messagesAnswer (some (d.listMessages m c since)) = messagesReply (d.listMessages m c since) := by
    simp only [messagesAnswer, List.map_map, List.length_map]
    rfl
  have hrun : d.run m (HandleAction.answer un request (some .getChatMessages)) =
      (messagesReply (d.listMessages m c since), d) :=
    (run_getChatMessages_params hp d).trans (by rw [Tables.selectMessages_asWritten hsince, hreply])
  rw [Db.run_handleAction hq, hrun]

/-! ## What a reply lists -/

/-- The reply lists a message with this sender, content and type. -/
def Lists (reply : Json) (senderId : Int) (content messageType : CString) : Prop :=
  ∃ item ∈ ((reply.getObjectItem "messages_array").getD .null).items,
    item.getObjectItem "sender_id" = some (.createNumber senderId) ∧
      item.getObjectItem "content" = some (.string content) ∧
      item.getObjectItem "message_type" = some (.string messageType)

theorem lists_messagesReply {rows : List MessageListing} {s : Int} {x y : CString} :
    Lists (messagesReply rows) s x y ↔
      ∃ row ∈ rows, row.copy.senderId = s ∧ row.copy.content = x ∧ row.copy.messageType = y := by
  have hitems : (((messagesReply rows).getObjectItem "messages_array").getD .null).items =
      rows.map fun row => HandleAction.messageJson row.copy := rfl
  have hfields : ∀ row : MessageListing,
      (HandleAction.messageJson row).getObjectItem "sender_id" = some (.createNumber row.senderId) ∧
        (HandleAction.messageJson row).getObjectItem "content" = some (.string row.content) ∧
        (HandleAction.messageJson row).getObjectItem "message_type" = some (.string row.messageType) :=
    fun _ => ⟨rfl, rfl, rfl⟩
  simp only [Lists, hitems, List.mem_map, exists_exists_and_eq_and, hfields, Option.some.injEq, Json.string.injEq,
    Json.createNumber, Json.number.injEq, Int.cast_inj]

/-- The messages of the chat fit the array of the data server and the buffer. -/
structure PollFits (m : Mysql) (d : Db) (c : Int) : Prop where
  array : (d.listMessages m c none).length ≤ MAX_MESSAGES
  buffer : messagesSize (d.listMessages m c none) < BUFFER_SIZE

/-- What arrives of a poll's reply lists a message with this sender, content and type. -/
def PollLists (m : Mysql) (d : Db) (un : Uninit) (poll : Json) (senderId : Int) (content messageType : CString) :
    Prop :=
  ∃ reply, (d.run m (handleAction un poll)).1 = some reply ∧
    ∃ r, reply.overWire = some r ∧ Lists r senderId content messageType

theorem pollLists_iff {poll : Json} {s : Int} {x y : CString} (hq : queryAction poll = some .getChatMessages)
    (hp : getChatMessagesParams poll = some (c, none)) (hfits : PollFits m d c) :
    PollLists m d un poll s x y ↔
      ∃ row ∈ d.listMessages m c none, row.copy.senderId = s ∧ row.copy.content = x ∧ row.copy.messageType = y := by
  have hwire : (messagesReply (d.listMessages m c none)).overWire = some (messagesReply (d.listMessages m c none)) :=
    Json.overWire_of_lt (by rw [length_print_messagesReply]; exact hfits.buffer)
  simp only [PollLists, run_handleAction_poll hq hp (fun _ h => by cases h), Option.some.injEq, exists_eq_left', hwire,
    lists_messagesReply]

/-- A listed message takes less than the buffer, whatever is in it. -/
theorem messageSize_le (row : MessageListing) : messageSize row ≤ 2398 := by
  have hnum : ∀ n : Int, Json.numberSize n ≤ 11 := fun n =>
    length_ofInt_le (Json.valueint_range _).1 (Json.valueint_range _).2
  have htext : ∀ (n : Nat) (s : CString), Json.escapedLength (s.take n) ≤ 6 * n := fun n s =>
    (Json.escapedLength_le _).trans (Nat.mul_le_mul_left 6 (CString.length_take_le n s))
  have h₁ := hnum row.copy.messageId
  have h₂ := hnum row.copy.senderId
  have h₃ : _ ≤ 6 * 63 := htext 63 row.senderUsername
  have h₄ : _ ≤ 6 * 255 := htext 255 row.content
  have h₅ : _ ≤ 6 * 31 := htext 31 row.messageType
  have h₆ : _ ≤ 6 * 31 := htext 31 row.createdAt
  unfold messageSize
  simp only [MessageListing.copy, MAX_USERNAME_LENGTH, MAX_CONTENT_LENGTH, MAX_TYPE_LENGTH, MAX_TIMESTAMP_LENGTH,
    Nat.reduceSub] at h₁ h₂ ⊢
  omega

/-- So one message always arrives. -/
theorem messagesSize_singleton (row : MessageListing) : messagesSize [row] < BUFFER_SIZE := by
  have hrow := messageSize_le row
  have hdigits : Json.escapedLength (CString.ofInt (1 : Nat)) = 1 := by decide
  rw [messagesSize, List.length_singleton, hdigits, List.map_singleton, List.sum_singleton, BUFFER_SIZE]
  omega

/-! ## A message that was accepted -/

/-- A listing shows the row as the message that was sent. -/
structure SentAs (p : SendMessageParams) (r : MessageRow) : Prop where
  sender : r.senderId = p.senderId
  content : r.content.take (MAX_CONTENT_LENGTH - 1) = p.content
  messageType : r.messageType.take (MAX_TYPE_LENGTH - 1) = p.messageType

/-- A row that the `INSERT` of the message stores, as MySQL reads it. -/
def StoredBy (m : Mysql) (d : Db) (p : SendMessageParams) (r : MessageRow) : Prop :=
  ∃ rows ∈ m.messageRows d.toTables p.message.sql, r ∈ Tables.newMessages d.clock d.nextMessageId rows

/-- MySQL reads the message, as it was sent, in the text of its `INSERT`. -/
def ReadAsSent (m : Mysql) (d : Db) (p : SendMessageParams) : Prop :=
  ∃ r, StoredBy m d p r ∧ r.chatId = p.chatId ∧ SentAs p r

/-- Another message of the chat is the same. -/
def SentTwice (m : Mysql) (d : Db) (p : SendMessageParams) (later : Db) : Prop :=
  ∃ r ∈ later.messagesOf p.chatId, ¬ StoredBy m d p r ∧ SentAs p r

/-- A poll of the whole chat shows every message of it, as far as a `Message` holds it. -/
theorem listed_sentAs_iff {p : SendMessageParams} :
    (∃ row ∈ d.listMessages m p.chatId none,
      row.copy.senderId = p.senderId ∧ row.copy.content = p.content ∧ row.copy.messageType = p.messageType) ↔
      ∃ r ∈ d.messagesOf p.chatId, SentAs p r := by
  simp only [Tables.listMessages, List.mem_filterMap, List.mem_filter, Tables.messageSince, and_true]
  constructor
  · rintro ⟨row, ⟨r, hr, hlist⟩, hs, hx, hy⟩
    obtain ⟨u, -, rfl⟩ := Option.map_eq_some_iff.mp hlist
    exact ⟨r, hr, hs, hx, hy⟩
  · rintro ⟨r, hr, hs, hx, hy⟩
    obtain ⟨u, hu⟩ := Option.isSome_iff_exists.mp
      (Tables.findUser_isSome (d.wf.messages_sender r (List.mem_of_mem_filter hr)))
    refine ⟨⟨r.messageId, r.senderId, u.username, r.content, r.messageType, m.timestampText r.createdAt⟩,
      ⟨r, hr, ?_⟩, hs, hx, hy⟩
    rw [Tables.listMessage, hu, Option.map_some]

/-- An accepted message is stored as MySQL reads it. -/
theorem accepted_stored {p : SendMessageParams} (hq : queryAction request = some .sendMessage)
    (hp : sendMessageParams request = some p)
    (hok : ∃ reply, (d.run m (handleAction un request)).1 = some reply ∧ Session.isSuccess reply = true) :
    p.chatId ∈ d.chatIds ∧ ∃ rows ∈ m.messageRows d.toTables p.message.sql,
      (d.run m (handleAction un request)).2.messages =
        d.messages ++ Tables.newMessages d.clock d.nextMessageId rows := by
  have hrun : d.run m (HandleAction.answer un request (some .sendMessage)) = _ := run_sendMessage_params hp d
  obtain ⟨reply, hreply, hsucc⟩ := hok
  rw [Db.run_handleAction hq, hrun] at hreply ⊢
  by_cases hstore : d.Storable m p.message.sql
  · obtain ⟨r, rs, hread, hfit⟩ := hstore
    have hchat := (hfit.keys r List.mem_cons_self).1
    rw [(messageRows_request hp hread).1] at hchat
    exact ⟨hchat, r :: rs, hread, (run_sendMessage_stored hread hfit).2⟩
  · rw [run_sendMessage_refused hstore] at hreply
    obtain rfl := Option.some.inj hreply
    have hfails :
        Session.isSuccess (HandleAction.reply [] "Message couldn't be sent unsuccesful" 400) = false := by decide
    exact absurd (hfails.symm.trans hsucc) (by decide)

/-- A message whose strings fit a `Message`, without quotes and without
backslashes but before `%` and `_`, is read as it was sent. -/
theorem readAsSent_of_verbatim {p : SendMessageParams} (hp : sendMessageParams request = some p)
    (hlen : p.content.length < MAX_CONTENT_LENGTH ∧ p.messageType.length < MAX_TYPE_LENGTH)
    (hx : SqlText.Verbatim p.content.bytes) (hy : SqlText.Verbatim p.messageType.bytes) : ReadAsSent m d p := by
  have hx' : p.content.take (MAX_CONTENT_LENGTH - 1) = p.content :=
    CString.take_eq_self_iff.mpr (Nat.le_pred_of_lt hlen.1)
  have hy' : p.messageType.take (MAX_TYPE_LENGTH - 1) = p.messageType :=
    CString.take_eq_self_iff.mpr (Nat.le_pred_of_lt hlen.2)
  have hrows : MessageSql.readRows p.message.sql = some [p.message] :=
    MessageSql.readRows_query (sendMessageParams_range hp).1 (sendMessageParams_range hp).2
      (by rwa [SendMessageParams.message, hx']) (by rwa [SendMessageParams.message, hy']) (insertText_fits hp)
  have hread := m.messageRows_literal (t := d.toTables) hrows
  refine ⟨_, ⟨_, hread, List.mem_cons_self⟩, rfl, rfl, ?_, ?_⟩
  · simp only [SendMessageParams.message, hx']
  · simp only [SendMessageParams.message, hy']

/-- **When an accepted message is listed as it was sent.** After any further
requests, what arrives of a poll of the whole chat has a message with the
sender, the content and the type of a `SEND_MESSAGE` that was answered with
200, exactly when content and type fit a `Message`, the chat is there, and
MySQL read them as they stand or another message of the chat is the same. -/
theorem accepted_message_listed_iff (m : Mysql) (d : Db) (un un' : Uninit) {request poll : Json}
    {p : SendMessageParams} (hq : queryAction request = some .sendMessage) (hp : sendMessageParams request = some p)
    (hok : ∃ reply, (d.run m (handleAction un request)).1 = some reply ∧ Session.isSuccess reply = true)
    (calls : List Call) (hq' : queryAction poll = some .getChatMessages)
    (hp' : getChatMessagesParams poll = some (p.chatId, none))
    (hfits : PollFits m (Run.exec (Db.serve m) (d.run m (handleAction un request)).2 calls) p.chatId) :
    PollLists m (Run.exec (Db.serve m) (d.run m (handleAction un request)).2 calls) un' poll
        p.senderId p.content p.messageType ↔
      p.content.length < MAX_CONTENT_LENGTH ∧ p.messageType.length < MAX_TYPE_LENGTH ∧
        p.chatId ∈ (Run.exec (Db.serve m) (d.run m (handleAction un request)).2 calls).chatIds ∧
        (ReadAsSent m d p ∨ SentTwice m d p (Run.exec (Db.serve m) (d.run m (handleAction un request)).2 calls)) := by
  obtain ⟨hchat, rows, hread, hstored⟩ := accepted_stored hq hp hok
  have hgrows : Tables.Grows p.chatId (d.run m (handleAction un request)).2.toTables
      (Run.exec (Db.serve m) (d.run m (handleAction un request)).2 calls).toTables := Db.execServe_grows calls
  have hnext : d.nextChatId ≤ (d.run m (handleAction un request)).2.nextChatId :=
    (Db.run_grows (c := p.chatId) (handleAction un request)).next
  rw [pollLists_iff hq' hp' hfits, listed_sentAs_iff]
  clear hfits hok
  generalize Run.exec (Db.serve m) (d.run m (handleAction un request)).2 calls = e at hgrows ⊢
  constructor
  · rintro ⟨r, hr, hsent⟩
    obtain ⟨hmem, hc⟩ := Tables.mem_messagesOf.mp hr
    -- What is listed went through the second copy.
    have hlen := CString.length_take_le (MAX_CONTENT_LENGTH - 1) r.content
    have hlen' := CString.length_take_le (MAX_TYPE_LENGTH - 1) r.messageType
    rw [hsent.content] at hlen
    rw [hsent.messageType] at hlen'
    refine ⟨Nat.lt_of_le_pred (by decide) hlen, Nat.lt_of_le_pred (by decide) hlen', hc ▸ e.wf.messages_chat r hmem, ?_⟩
    by_cases hby : StoredBy m d p r
    · exact .inl ⟨r, hby, hc, hsent⟩
    · exact .inr ⟨r, hr, hby, hsent⟩
  · rintro ⟨-, -, hc, ⟨r, ⟨rows', hread', hr⟩, hrc, hsent⟩ | ⟨r, hr, -, hsent⟩⟩
    · -- The stored row is still there.
      cases hread.symm.trans hread'
      obtain ⟨chat, hmem, hid⟩ := Tables.mem_chatIds.mp hchat
      refine ⟨r, (hgrows.messages ((hid ▸ d.wf.chats_lt chat hmem).trans_le hnext) hc).subset ?_, hsent⟩
      rw [Tables.mem_messagesOf, hstored]
      exact ⟨List.mem_append_right _ hr, hrc⟩
    · exact ⟨r, hr, hsent⟩

/-! ## Alice writes to Bob -/

/-- A chat of Alice and Bob, without messages. -/
def Db.oneChat : Db where
  users := Db.threeUsers.users
  chats := [⟨1, 0, "chat", none⟩]
  participants := [⟨1, 2, 1⟩, ⟨1, 3, 0⟩]
  messages := []
  nextUserId := 5
  nextChatId := 2
  nextMessageId := 1
  clock := 0
  wf := {
    Db.threeUsers.wf with
    chats_sorted := by decide
    chats_lt := by decide
    chats_next := by decide
    participants_unique := by decide
    participants_chat := by decide
    participants_user := by decide
    messages_sorted := .nil
    messages_lt := nofun
    messages_chat := nofun
    messages_sender := nofun }

/-- Alice's `SEND_MESSAGE` with this content. -/
def writeJson (content : CString) : Json :=
  .object [("action", .createNumber 6), ("chat_id", .createNumber 1), ("sender_id", .createNumber 2),
    ("content", .string content), ("message_type", .string "text")]

/-- Its parameters. -/
def writeParams (content : CString) : SendMessageParams := ⟨1, 2, content, "text"⟩

example : MessageSql.readRows (writeParams "C:\\new").message.sql = some [⟨1, 2, "C:\new", "text"⟩] := by
  decide +kernel

/-- The database after Alice's message. -/
def afterWrite (content : CString) : Db := (Db.oneChat.run .tableOrder (handleAction .zero (writeJson content))).2

theorem write_ok {content : CString}
    (h : (Db.oneChat.run .tableOrder (handleAction .zero (writeJson content))).1.map Session.isSuccess = some true) :
    ∃ reply, (Db.oneChat.run .tableOrder (handleAction .zero (writeJson content))).1 = some reply ∧
      Session.isSuccess reply = true := Option.map_eq_some_iff.mp h

/-- A poll then gets one message. -/
theorem write_fits {content : CString} (h : ((afterWrite content).listMessages .tableOrder 1 none).length = 1) :
    PollFits .tableOrder (afterWrite content) 1 := by
  obtain ⟨row, hrow⟩ := List.length_eq_one_iff.mp h
  refine ⟨?_, ?_⟩
  · rw [hrow]
    exact show 1 ≤ MAX_MESSAGES by decide
  · rw [hrow]
    exact messagesSize_singleton row

theorem accepted_message_listed_iff_hello :
    PollLists .tableOrder (afterWrite "hello") .zero pollJson 2 "hello" "text" ↔
      CString.length "hello" < MAX_CONTENT_LENGTH ∧ CString.length "text" < MAX_TYPE_LENGTH ∧
        1 ∈ (afterWrite "hello").chatIds ∧ (ReadAsSent .tableOrder .oneChat (writeParams "hello") ∨
          SentTwice .tableOrder .oneChat (writeParams "hello") (afterWrite "hello")) :=
  have hq : queryAction (writeJson "hello") = some .sendMessage := rfl
  accepted_message_listed_iff .tableOrder .oneChat .zero .zero (p := writeParams "hello") hq rfl
    (write_ok (by decide +kernel)) [] rfl rfl (write_fits (by decide +kernel))

/-- A content of 256 bytes. -/
def longContent : CString := ⟨List.replicate 256 97, fun h => absurd (List.eq_of_mem_replicate h) (by decide)⟩

/-- Alice's long message is not listed as she sent it. -/
theorem long_message_cut :
    ¬ ∀ (m : Mysql) (d : Db) (un un' : Uninit) (request poll : Json) (p : SendMessageParams),
      queryAction request = some .sendMessage → sendMessageParams request = some p →
      UserSql.Plain p.content → UserSql.Plain p.messageType →
      (∃ reply, (d.run m (handleAction un request)).1 = some reply ∧ Session.isSuccess reply = true) →
      ∀ calls : List Call, queryAction poll = some .getChatMessages →
      getChatMessagesParams poll = some (p.chatId, none) →
      PollFits m (Run.exec (Db.serve m) (d.run m (handleAction un request)).2 calls) p.chatId →
      p.chatId ∈ (Run.exec (Db.serve m) (d.run m (handleAction un request)).2 calls).chatIds →
      PollLists m (Run.exec (Db.serve m) (d.run m (handleAction un request)).2 calls) un' poll
        p.senderId p.content p.messageType := by
  intro h
  have hplain : UserSql.Plain longContent := by
    intro b hb
    rw [List.eq_of_mem_replicate hb]
    decide
  have hfits : PollFits .tableOrder (afterWrite longContent) 1 := write_fits (by decide +kernel)
  have hlists := h .tableOrder .oneChat .zero .zero (writeJson longContent) pollJson (writeParams longContent) rfl rfl
    hplain (by decide) (write_ok (by decide +kernel)) [] rfl rfl hfits (by decide +kernel)
  obtain ⟨row, -, -, hcontent, -⟩ := (pollLists_iff rfl rfl hfits).mp hlists
  have hlen := CString.length_take_le (MAX_CONTENT_LENGTH - 1) row.content
  have hcopy : row.content.take (MAX_CONTENT_LENGTH - 1) = longContent := hcontent
  rw [hcopy, CString.length, longContent, List.length_replicate] at hlen
  exact absurd hlen (by decide)

end FinalServer
