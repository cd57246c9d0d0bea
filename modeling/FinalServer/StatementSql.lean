/-
The statements that carry a client's strings, as text.

`user_manager.c` and `chat_manager.c` put the strings between quotes as they
are, with `snprintf` into a `query` of the function's own size.
`Statement.lexes_iff` says which strings MySQL reads back from the text that
`mysql_query` gets.
-/
import FinalServer.MessageSql
import FinalServer.UserSql

namespace FinalServer

/-- A statement with the strings the client supplies for it. -/
inductive Statement
  | createUser (username email password : CString)
  | validateUser (key : CString)
  | getUserInfo (key : CString)
  | createChat (isGroup : Int) (chatName : CString)
  | sendMessage (chatId senderId : Int) (content messageType : CString)
  | getChats (userId : Int) (lastUpdateTimestamp : CString)
  | getChatMessages (chatId : Int) (lastUpdateTimestamp : CString)

namespace Statement

/-- `sizeof(query)`. -/
def size : Statement → Nat
  | .createUser .. | .validateUser _ | .getUserInfo _ => UserSql.QUERY_SIZE
  | .createChat .. => ChatSql.QUERY_SIZE
  | .sendMessage .. | .getChatMessages .. => MessageSql.QUERY_SIZE
  | .getChats .. => ChatSql.SELECT_SIZE

/-- The strings the client supplied, in the places of the literals. -/
def values : Statement → List CString
  | .createUser username email password => [username, email, password]
  | .validateUser key | .getUserInfo key => [key, key]
  | .createChat _ chatName => [chatName]
  | .sendMessage _ _ content messageType => [content, messageType]
  | .getChats _ lastUpdateTimestamp | .getChatMessages _ lastUpdateTimestamp => [lastUpdateTimestamp]

/-- The strings that are formatted: `SEND_MESSAGE` copies its two into a `Message` first. -/
def formatted : Statement → List CString
  | .sendMessage _ _ content messageType =>
    [content.take (MAX_CONTENT_LENGTH - 1), messageType.take (MAX_TYPE_LENGTH - 1)]
  | s => s.values

/-- The text up to the first of the literals. -/
def first : Statement → CString
  | .createUser .. => UserSql.insertFirst
  | .validateUser _ => UserSql.passwordFirst
  | .getUserInfo _ => UserSql.infoFirst
  | .createChat isGroup _ => ChatSql.rowFirst isGroup
  | .sendMessage chatId senderId _ _ => MessageSql.rowFirst chatId senderId
  | .getChats userId _ => ChatSql.selectFirst userId
  | .getChatMessages chatId _ => MessageSql.selectFirst chatId

/-- The words behind the literals. -/
def words : Statement → List (List UInt8)
  | .createUser .. => UserSql.insertWords
  | .validateUser _ | .getUserInfo _ => UserSql.selectWords
  | .createChat .. => [CString.bytes ")"]
  | .sendMessage .. => [CString.bytes ", '", CString.bytes ")"]
  | .getChats .. => [CString.bytes " AND m2.is_deleted = 0)) ORDER BY c.chat_id"]
  | .getChatMessages .. => [CString.bytes ")"]

/-- What the function formats. -/
def text : Statement → CString
  | .createUser username email password => UserSql.insertText username email password
  | .validateUser key => UserSql.selectText UserSql.passwordFirst key
  | .getUserInfo key => UserSql.selectText UserSql.infoFirst key
  | .createChat isGroup chatName => ChatSql.insertText isGroup chatName
  | .sendMessage chatId senderId content messageType =>
    MessageSql.insertText (SendMessageParams.message { chatId, senderId, content, messageType })
  | .getChats userId lastUpdateTimestamp => ChatSql.selectText userId lastUpdateTimestamp
  | .getChatMessages chatId lastUpdateTimestamp => MessageSql.selectText chatId lastUpdateTimestamp

/-- `snprintf(query, sizeof(query), ...)`: what `mysql_query` gets. -/
def query (s : Statement) : CString := s.text.take (s.size - 1)

/-- The values MySQL reads for the literals, if the text is such a statement. -/
def read (s : Statement) : Option (List (List UInt8)) := SqlText.read s.first.bytes s.words s.query.bytes

/-- The strings are read as they stand, the statement fits its buffer, and the
copies of `SEND_MESSAGE` are whole. -/
structure Intact (s : Statement) : Prop where
  verbatim : ∀ v ∈ s.values, SqlText.Verbatim v.bytes
  fits : s.text.length < s.size
  copied : s.formatted = s.values

theorem text_bytes (s : Statement) :
    s.text.bytes = SqlText.render s.first.bytes s.words (s.formatted.map CString.bytes) := by
  cases s with
  | createUser username email password => exact UserSql.insertText_bytes
  | validateUser key => exact UserSql.selectText_bytes
  | getUserInfo key => exact UserSql.selectText_bytes
  | sendMessage chatId senderId content messageType =>
    simp only [text, first, MessageSql.insertText, SendMessageParams.message, CString.append_bytes, words, formatted,
      SqlText.render, SqlText.body, List.map_cons, List.map_nil, List.append_assoc]
    rfl
  | createChat isGroup chatName =>
    simp only [text, ChatSql.insertText, CString.append_bytes, List.append_assoc]
    rfl
  | getChats userId lastUpdateTimestamp =>
    simp only [text, ChatSql.selectText, CString.append_bytes, List.append_assoc]
    rfl
  | getChatMessages chatId lastUpdateTimestamp =>
    simp only [text, MessageSql.selectText, CString.append_bytes, List.append_assoc]
    rfl

theorem words_separated (s : Statement) : SqlText.Separated s.words := by
  cases s <;> simp only [words] <;> decide

theorem length_words (s : Statement) : s.words.length = s.values.length := by cases s <;> rfl

theorem size_pos (s : Statement) : 0 < s.size := by cases s <;> exact Nat.zero_lt_succ _

/-- Only a `SEND_MESSAGE` has copies to be cut, and they can only be shorter. -/
theorem formatted_eq_of_length (s : Statement)
    (h : (SqlText.render s.first.bytes s.words (s.values.map CString.bytes)).length ≤
      (SqlText.render s.first.bytes s.words (s.formatted.map CString.bytes)).length) :
    s.formatted = s.values := by
  cases s with
  | sendMessage chatId senderId content messageType =>
    have hc := CString.length_take_le (MAX_CONTENT_LENGTH - 1) content
    have ht := CString.length_take_le (MAX_TYPE_LENGTH - 1) messageType
    have hc' : (content.take (MAX_CONTENT_LENGTH - 1)).length ≤ content.length := List.length_take_le' _ _
    have ht' : (messageType.take (MAX_TYPE_LENGTH - 1)).length ≤ messageType.length := List.length_take_le' _ _
    simp only [formatted, values, words, List.map_cons, List.map_nil, SqlText.render, SqlText.body,
      List.length_append, List.length_cons] at h
    simp only [CString.length] at hc ht hc' ht'
    have hcw : content.take (MAX_CONTENT_LENGTH - 1) = content := by
      rw [CString.take_eq_self_iff, CString.length]
      omega
    have htw : messageType.take (MAX_TYPE_LENGTH - 1) = messageType := by
      rw [CString.take_eq_self_iff, CString.length]
      omega
    rw [formatted, hcw, htw]
    rfl
  | _ => rfl

/-- **What MySQL reads.** The values of the literals are the client's strings
exactly if these have no quote, and no backslash but before a `%` or a `_`,
the text fits the buffer, and `SEND_MESSAGE` has copied them whole. -/
theorem lexes_iff (s : Statement) : s.read = some (s.values.map CString.bytes) ↔ s.Intact := by
  have hlen : s.words.length = (s.values.map CString.bytes).length := by rw [List.length_map, s.length_words]
  have hbytes : s.query.bytes =
      (SqlText.render s.first.bytes s.words (s.formatted.map CString.bytes)).take (s.size - 1) := by
    rw [query, CString.take_bytes, text_bytes]
  have hsize := s.size_pos
  constructor
  · intro h
    rw [read, hbytes] at h
    have hshort := (SqlText.read_length h).1
    have hcopied : s.formatted = s.values := by
      refine s.formatted_eq_of_length (hshort.trans ?_)
      rw [List.length_take]
      exact Nat.min_le_right _ _
    rw [hcopied, SqlText.read_take_iff hlen s.words_separated] at h
    refine ⟨fun v hv => h.2 _ (List.mem_map_of_mem hv), ?_, hcopied⟩
    rw [CString.length, text_bytes, hcopied]
    omega
  · rintro ⟨hverb, hfits, hcopied⟩
    rw [CString.length, text_bytes, hcopied] at hfits
    rw [read, hbytes, hcopied, SqlText.read_take_iff hlen s.words_separated]
    refine ⟨by omega, fun v hv => ?_⟩
    obtain ⟨c, hc, rfl⟩ := List.mem_map.mp hv
    exact hverb c hc

/-- O'Brien registers. -/
def obrien : Statement := .createUser "O'Brien" "ob@x" "pw"

/-- His name ends at the apostrophe. -/
theorem obrien_not_lexed : ¬ ∀ s : Statement, s.read = some (s.values.map CString.bytes) := by
  intro h
  have hread := h obrien
  revert hread
  decide +kernel

end Statement

end FinalServer
