/-
The statement of a `SEND_MESSAGE`.

The ids of a request are `int`s and its strings are copied into a `Message`,
so the text of the `INSERT` always fits the `query` of `send_message`, and
what MySQL reads there is decided by the two quoted strings alone.
-/
import FinalServer.Serve

namespace FinalServer

/-- The ids of a request are `int`s. -/
theorem sendMessageParams_range {json : Json} {p : SendMessageParams} (hp : sendMessageParams json = some p) :
    (Json.INT_MIN ≤ p.chatId ∧ p.chatId ≤ Json.INT_MAX) ∧ Json.INT_MIN ≤ p.senderId ∧ p.senderId ≤ Json.INT_MAX := by
  simp only [sendMessageParams, Option.bind_eq_bind, Option.bind_eq_some_iff, Option.pure_def,
    Option.some.injEq] at hp
  obtain ⟨c, -, _, -, s, -, _, -, _, -, _, -, _, -, _, -, rfl⟩ := hp
  exact ⟨c.valueint_range, s.valueint_range⟩

theorem addToGroupChatParams_range {json : Json} {p : AddToGroupChatParams} (hp : addToGroupChatParams json = some p) :
    Json.INT_MIN ≤ p.chatId ∧ p.chatId ≤ Json.INT_MAX := by
  simp only [addToGroupChatParams, Option.bind_eq_bind, Option.bind_eq_some_iff, Option.pure_def,
    Option.some.injEq] at hp
  obtain ⟨c, -, _, -, _, -, _, -, _, -, _, -, _, -, rfl⟩ := hp
  exact c.valueint_range

theorem removeFromChatParams_range {json : Json} {p : RemoveFromChatParams} (hp : removeFromChatParams json = some p) :
    Json.INT_MIN ≤ p.chatId ∧ p.chatId ≤ Json.INT_MAX := by
  simp only [removeFromChatParams, Option.bind_eq_bind, Option.bind_eq_some_iff, Option.pure_def,
    Option.some.injEq] at hp
  obtain ⟨c, -, _, -, _, -, _, -, rfl⟩ := hp
  exact c.valueint_range

theorem exitChatParams_range {json : Json} {c u : Int} (hp : exitChatParams json = some (c, u)) :
    Json.INT_MIN ≤ c ∧ c ≤ Json.INT_MAX := by
  simp only [exitChatParams, numberParam, Option.bind_eq_bind, Option.bind_eq_some_iff, Option.pure_def,
    Option.some.injEq] at hp
  obtain ⟨_, ⟨c, -, _, -, rfl⟩, _, -, heq⟩ := hp
  cases heq
  exact c.valueint_range

theorem getChatMessagesParams_range {json : Json} {c : Int} {since : Option CString}
    (hp : getChatMessagesParams json = some (c, since)) : Json.INT_MIN ≤ c ∧ c ≤ Json.INT_MAX := by
  simp only [getChatMessagesParams, numberParam, Option.bind_eq_bind, Option.bind_eq_some_iff, Option.pure_def,
    Option.some.injEq] at hp
  obtain ⟨_, ⟨item, -, _, -, rfl⟩, _, -, heq⟩ := hp
  cases heq
  exact item.valueint_range

/-- A time of this length without quotes and backslashes is read as it stands. -/
theorem asWritten_of_plain {c : Int} {time : CString} (hc : Json.INT_MIN ≤ c ∧ c ≤ Json.INT_MAX)
    (htime : UserSql.Plain time) (hlen : time.length < MAX_TIMESTAMP_LENGTH) : MessageSql.AsWritten c time := by
  have h := length_ofInt_le hc.1 hc.2
  have h₁ : CString.length
      "SELECT m.message_id, m.sender_id, u.username AS sender_username, m.content, m.message_type, m.created_at " =
      105 := by decide
  have h₂ : CString.length "FROM messages m JOIN users u ON u.user_id = m.sender_id WHERE m.chat_id = " = 74 := by
    decide
  have h₃ : CString.length " AND m.is_deleted = 0 AND (m.created_at > '" = 43 := by decide
  have h₄ : CString.length "')" = 2 := by decide
  refine ⟨SqlText.Plain.verbatim htime, ?_⟩
  simp only [MessageSql.selectText, MessageSql.selectFirst, CString.length_append, MessageSql.QUERY_SIZE,
    MAX_TIMESTAMP_LENGTH] at *
  omega

theorem length_insertText (message : Message) :
    (MessageSql.insertText message).length = MessageSql.insertFirst.length + (CString.ofInt message.chatId).length +
      (CString.ofInt message.senderId).length + message.content.length + message.messageType.length + 12 := by
  simp only [MessageSql.insertText, MessageSql.rowFirst, CString.length_append]
  have h₀ : CString.length "(" = 1 := by decide
  have h₁ : CString.length ", " = 2 := by decide
  have h₂ : CString.length ", '" = 3 := by decide
  have h₃ : CString.length "', '" = 4 := by decide
  have h₄ : CString.length "')" = 2 := by decide
  omega

/-- The statement of a request's message is never cut. -/
theorem insertText_fits {json : Json} {p : SendMessageParams} (hp : sendMessageParams json = some p) :
    (MessageSql.insertText p.message).length < MessageSql.QUERY_SIZE := by
  obtain ⟨⟨hc, hc'⟩, hs, hs'⟩ := sendMessageParams_range hp
  have hfirst : MessageSql.insertFirst.length = 72 := by decide
  have h₁ := length_ofInt_le hc hc'
  have h₂ := length_ofInt_le hs hs'
  have h₃ := CString.length_take_le (MAX_CONTENT_LENGTH - 1) p.content
  have h₄ := CString.length_take_le (MAX_TYPE_LENGTH - 1) p.messageType
  rw [length_insertText, hfirst]
  simp only [SendMessageParams.message, MessageSql.QUERY_SIZE, MAX_CONTENT_LENGTH, MAX_TYPE_LENGTH] at *
  omega

/-- Whatever MySQL reads in a request's statement, its first row is of the chat and the sender asked for. -/
theorem messageRows_request {m : Mysql} {t : Tables} {json : Json} {p : SendMessageParams} {r : Message}
    {rs : List Message} (hp : sendMessageParams json = some p)
    (hread : m.messageRows t p.message.sql = some (r :: rs)) :
    r.chatId = p.chatId ∧ r.senderId = p.senderId := by
  obtain ⟨hc, hs⟩ : (Json.INT_MIN ≤ p.message.chatId ∧ p.message.chatId ≤ Json.INT_MAX) ∧
      Json.INT_MIN ≤ p.message.senderId ∧ p.message.senderId ≤ Json.INT_MAX := sendMessageParams_range hp
  obtain ⟨rest, hsql⟩ := MessageSql.query_insertText hc hs
  rw [Message.sql, hsql] at hread
  exact m.messageRows_first hread

/-- A message without quotes, and without backslashes but before `%` and `_`, is
stored if its chat and its sender are there and an id is left. -/
theorem storable_message_iff {m : Mysql} {t : Tables} {json : Json} {p : SendMessageParams}
    (hp : sendMessageParams json = some p) (hx : SqlText.Verbatim p.message.content.bytes)
    (hy : SqlText.Verbatim p.message.messageType.bytes) :
    t.Storable m p.message.sql ↔ p.chatId ∈ t.chatIds ∧ p.senderId ∈ t.userIds ∧ t.nextMessageId ≤ Json.INT_MAX :=
  Tables.storable_iff (sendMessageParams_range hp).1 (sendMessageParams_range hp).2 hx hy (insertText_fits hp)

end FinalServer
