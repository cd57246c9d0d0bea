/-
How long the replies with lists are, and which of them arrive.

`handle_action` copies the printed reply into a buffer of 4096 bytes, and
the logic server parses what it reads of that. The reply of a
`GET_CHAT_MESSAGES` or a `GET_CHATS` grows with its rows, by what each of
them prints (`messagesSize`, `chatsSize`); it arrives exactly when this is
less than the buffer.
-/
import FinalServer.HandleAction
import FinalServer.JsonPrint
import FinalServer.Session

namespace FinalServer

/-- What `handle_action` leaves in `response_buffer`, and the child process sends. -/
def responseBuffer (reply : Json) : List UInt8 := reply.print.take (BUFFER_SIZE - 1)

/-- A `cJSON_Parse` reads the printed object back, and no proper prefix of it. -/
structure CjsonParses (parse : List UInt8 → Option Json) (j : Json) : Prop where
  whole : parse j.print = some j
  cut : ∀ n < j.print.length, parse (j.print.take n) = none

/-- So what the logic server parses is the whole reply, or nothing. -/
theorem CjsonParses.responseBuffer {parse : List UInt8 → Option Json} {j : Json} (h : CjsonParses parse j) :
    parse (responseBuffer j) = j.overWire := by
  rw [FinalServer.responseBuffer, Json.overWire]
  split
  next hlen => rw [List.take_of_length_le (by omega), h.whole]
  next hlen => exact h.cut _ (by simp only [BUFFER_SIZE] at hlen ⊢; omega)

/-! ## The length of a printed list -/

namespace Json

/-- The bytes of a number. -/
def numberSize (n : Int) : Nat := (CString.ofInt (createNumber n).valueint).length

theorem length_print_string (s : CString) : (string s).print.length = escapedLength s + 2 := by
  rw [print, length_printString]

theorem length_printItems (js : List Json) :
    (printItems js).length = (js.map (·.print.length)).sum + (js.length - 1) := by
  induction js with
  | nil => rfl
  | cons j js ih =>
    cases js with
    | nil => simp [printItems]
    | cons j' js =>
      rw [printItems]
      · simp only [List.length_append, List.length_cons, ih, List.map_cons, List.sum_cons]
        omega
      · simp

theorem length_print_array (js : List Json) :
    (array js).print.length = (js.map (·.print.length)).sum + (js.length - 1) + 2 := by
  rw [print, List.length_cons, List.length_append, length_printItems, List.length_singleton]

end Json

/-! ## The two replies -/

open Json HandleAction

/-- A printed message: 96 bytes, and what is in its fields. -/
def messageSize (row : MessageListing) : Nat :=
  96 + numberSize row.copy.messageId + numberSize row.copy.senderId + escapedLength row.copy.senderUsername +
    escapedLength row.copy.content + escapedLength row.copy.messageType + escapedLength row.copy.createdAt

/-- The printed reply of `GET_CHAT_MESSAGES` with these rows. -/
def messagesSize (rows : List MessageListing) : Nat :=
  91 + escapedLength (CString.ofInt rows.length) + (rows.map messageSize).sum + (rows.length - 1)

/-- A printed chat: 129 bytes, and what is in its fields. -/
def chatSize (row : ChatListing) : Nat :=
  let chat := Chat.ofListing row
  129 + numberSize chat.id + escapedLength chat.chatName + escapedLength chat.lastMessageContent +
    escapedLength chat.lastMessageType + escapedLength chat.lastMessageTimestamp +
    escapedLength chat.lastMessageBy

/-- The printed reply of `GET_CHATS` with these rows. -/
def chatsSize (rows : List ChatListing) : Nat :=
  85 + escapedLength (CString.ofInt rows.length) + (rows.map chatSize).sum + (rows.length - 1)

theorem length_print_messageJson (row : MessageListing) :
    (HandleAction.messageJson row.copy).print.length = messageSize row := by
  have hnames : (printString "message_id").length = 12 ∧ (printString "sender_id").length = 11 ∧
      (printString "sender_username").length = 17 ∧ (printString "content").length = 9 ∧
      (printString "message_type").length = 14 ∧ (printString "created_at").length = 12 := by decide
  obtain ⟨h₁, h₂, h₃, h₄, h₅, h₆⟩ := hnames
  simp only [HandleAction.messageJson, print, printFields, List.length_append, List.length_cons, List.length_nil,
    h₁, h₂, h₃, h₄, h₅, h₆, length_printString, messageSize, numberSize, createNumber, valueint]
  simp only [CString.length]
  omega

theorem length_print_chatJson (row : ChatListing) :
    (chatJson (Chat.ofListing row)).print.length = chatSize row := by
  have hnames : (printString "chat_id").length = 9 ∧ (printString "chat_name").length = 11 ∧
      (printString "last_message_content").length = 22 ∧ (printString "last_message_type").length = 19 ∧
      (printString "last_message_timestamp").length = 24 ∧ (printString "last_message_sender").length = 21 := by
    decide
  obtain ⟨h₁, h₂, h₃, h₄, h₅, h₆⟩ := hnames
  simp only [chatJson, print, printFields, List.length_append, List.length_cons, List.length_nil,
    h₁, h₂, h₃, h₄, h₅, h₆, length_printString, chatSize, numberSize, createNumber, valueint]
  simp only [CString.length]
  omega

/-- A successful reply with one list. -/
theorem length_print_listReply (name text : CString) (js : List Json) :
    (HandleAction.reply [(name, .array js)] text 200).print.length =
      (printString name).length + (js.map (·.print.length)).sum + (js.length - 1) + escapedLength text + 44 := by
  have hnames : (printString "response_text").length = 15 ∧ (printString "response_code").length = 15 ∧
      (createNumber 200).print.length = 3 := by decide
  obtain ⟨h₁, h₂, h₃⟩ := hnames
  simp only [HandleAction.reply, addStringToObject, addNumberToObject, addItemToObject, List.cons_append,
    List.nil_append]
  rw [print]
  simp only [printFields, List.length_append, List.length_cons, List.length_nil, h₁, h₂, h₃,
    length_print_array, length_print_string]
  omega

/-- The reply of `GET_CHAT_MESSAGES` with these rows. -/
def messagesReply (rows : List MessageListing) : Json :=
  HandleAction.reply [("messages_array", .array (rows.map fun row => HandleAction.messageJson row.copy))]
    (CString.ofInt rows.length ++ " messages succesfully retreived") 200

/-- The reply of `GET_CHATS` with these rows. -/
def chatsReply (rows : List ChatListing) : Json :=
  HandleAction.reply [("chats_array", .array (rows.map fun row => chatJson (Chat.ofListing row)))]
    (CString.ofInt rows.length ++ " chats succesfully retreived") 200

theorem length_print_messagesReply (rows : List MessageListing) :
    (messagesReply rows).print.length = messagesSize rows := by
  have hnames : (printString "messages_array").length = 16 ∧
      escapedLength " messages succesfully retreived" = 31 := by decide
  obtain ⟨h₁, h₂⟩ := hnames
  have hrows : (fun row : MessageListing => (HandleAction.messageJson row.copy).print.length) = messageSize :=
    funext length_print_messageJson
  rw [messagesReply, length_print_listReply, List.map_map, List.length_map, escapedLength_append, h₁, h₂,
    messagesSize, ← hrows]
  simp only [Function.comp_def]
  omega

theorem length_print_chatsReply (rows : List ChatListing) :
    (chatsReply rows).print.length = chatsSize rows := by
  have hnames : (printString "chats_array").length = 13 ∧
      escapedLength " chats succesfully retreived" = 28 := by decide
  obtain ⟨h₁, h₂⟩ := hnames
  have hrows : (fun row : ChatListing => (chatJson (Chat.ofListing row)).print.length) = chatSize :=
    funext length_print_chatJson
  rw [chatsReply, length_print_listReply, List.map_map, List.length_map, escapedLength_append, h₁, h₂,
    chatsSize, ← hrows]
  simp only [Function.comp_def]
  omega

/-! ## Which rows arrive -/

/-- The query of the request succeeds, with no more rows than the arrays of
the data server hold, and the reply with them takes `n` bytes. -/
inductive ListAnswered (json : Json) (answers : List (Σ q : Query, q.Result) → (q : Query) → q.Result) :
    Nat → Prop
  | messages {c : Int} {since : Option CString} {rows : List MessageListing}
      (ha : queryAction json = some .getChatMessages) (hp : getChatMessagesParams json = some (c, since))
      (hrows : answers [] (.selectMessages c since) = some rows) (hlen : rows.length ≤ MAX_MESSAGES) :
      ListAnswered json answers (messagesSize rows)
  | chats {u : Int} {since : Option CString} {rows : List ChatListing}
      (ha : queryAction json = some .getChats) (hp : getChatsParams json = some (u, since))
      (hrows : answers [] (.selectChats u since) = some rows) (hlen : rows.length ≤ MAX_CHATS) :
      ListAnswered json answers (chatsSize rows)

/-- The logic server parses the reply as it was built, and passes it on to its client. -/
structure Relayed (parse : List UInt8 → Option Json) (reply : Json) : Prop where
  parsed : parse (responseBuffer reply) = some reply
  passedOn : ∀ (env : Env) (now connect : Int) (s : Session) (req : Json), s.cur.requestJson = some req →
    s.cur.action ≠ .validateUser →
    s.handleDbResponse env now (parse (responseBuffer reply)) connect = s.sendClient reply

variable {json : Json} {answers : List (Σ q : Query, q.Result) → (q : Query) → q.Result} {n : Nat}

theorem observe_getChatMessages {c : Int} {since : Option CString} {rows : List MessageListing} (un : Uninit)
    (ha : queryAction json = some .getChatMessages) (hp : getChatMessagesParams json = some (c, since))
    (hrows : answers [] (.selectMessages c since) = some rows) :
    ((handleAction un json).observe answers).2 = some (messagesReply rows) := by
  obtain ⟨item, hitem, hcode⟩ := Option.bind_eq_some_iff.mp ha
  simp only [handleAction, hitem, hcode, answer, HandleAction.getChatMessages, hp,
    FinalServer.getChatMessages, mysqlQuery, Prog.stmt, Prog.call_bind, Prog.ret_bind, Prog.observe, hrows,
    Prog.pure_eq, List.map_map, List.length_map]
  rfl

theorem observe_getChats {u : Int} {since : Option CString} {rows : List ChatListing} (un : Uninit)
    (ha : queryAction json = some .getChats) (hp : getChatsParams json = some (u, since))
    (hrows : answers [] (.selectChats u since) = some rows) (hlen : rows.length ≤ MAX_CHATS) :
    ((handleAction un json).observe answers).2 = some (chatsReply rows) := by
  obtain ⟨item, hitem, hcode⟩ := Option.bind_eq_some_iff.mp ha
  simp only [handleAction, hitem, hcode, answer, HandleAction.getChats, hp,
    FinalServer.getChats, mysqlQuery, Prog.stmt, Prog.call_bind, Prog.ret_bind, Prog.observe, hrows,
    Prog.pure_eq, List.map_map, List.length_map, List.take_of_length_le hlen]
  rfl

/-- The reply takes that many bytes. -/
theorem ListAnswered.length_reply (h : ListAnswered json answers n) {un : Uninit} {reply : Json}
    (hreply : ((handleAction un json).observe answers).2 = some reply) : reply.print.length = n := by
  cases h with
  | messages ha hp hrows hlen =>
    rw [observe_getChatMessages un ha hp hrows] at hreply
    rw [← Option.some.inj hreply, length_print_messagesReply]
  | chats ha hp hrows hlen =>
    rw [observe_getChats un ha hp hrows hlen] at hreply
    rw [← Option.some.inj hreply, length_print_chatsReply]

/-- **When a list arrives.** The logic server parses the reply with the rows of
a successful query, and relays it, exactly when the rows take less than the
buffer; otherwise it has nothing to parse. -/
theorem listReply_relayed_iff (parse : List UInt8 → Option Json) (un : Uninit) {reply : Json}
    (h : ListAnswered json answers n) (hreply : ((handleAction un json).observe answers).2 = some reply)
    (hparse : CjsonParses parse reply) : Relayed parse reply ↔ n < BUFFER_SIZE := by
  rw [← h.length_reply hreply]
  constructor
  · intro hr
    by_contra hlong
    have hnone := hr.parsed
    rw [hparse.responseBuffer, Json.overWire, if_neg hlong] at hnone
    cases hnone
  · intro hfits
    have hwhole : parse (responseBuffer reply) = some reply := by
      rw [hparse.responseBuffer, Json.overWire_of_lt hfits]
    refine ⟨hwhole, fun env now connect s req hreq ha => ?_⟩
    rw [hwhole, Session.handleDbResponse_relay hreq ha]

/-- A parser that knows one object. -/
def parseOnly (j : Json) (text : List UInt8) : Option Json := if text = j.print then some j else none

theorem parseOnly_parses (j : Json) : CjsonParses (parseOnly j) j where
  whole := if_pos rfl
  cut n hn := by
    rw [parseOnly, if_neg]
    intro he
    have := congrArg List.length he
    rw [List.length_take] at this
    omega

/-- A client asks for the messages of chat 1. -/
def pollJson : Json :=
  .object [("action", .createNumber 8), ("chat_id", .createNumber 1), ("last_update_timestamp", .null)]

/-- MySQL answers every `SELECT` of messages with these rows. -/
def answerRows (rows : List MessageListing) (_ : List (Σ q : Query, q.Result)) : (q : Query) → q.Result
  | .selectMessages .. => some rows
  | _ => default

/-- Alice says hello. -/
def helloRow : MessageListing := ⟨1, 2, "alice", "hello", "text", "2025-06-01 12:00:00"⟩

theorem listReply_relayed_iff_hello :
    Relayed (parseOnly (messagesReply [helloRow])) (messagesReply [helloRow]) ↔
      messagesSize [helloRow] < BUFFER_SIZE :=
  have hans : ListAnswered pollJson (answerRows [helloRow]) (messagesSize [helloRow]) :=
    .messages rfl rfl rfl (by decide)
  listReply_relayed_iff _ ⟨0, "", fun _ => 0, ⟨"", "", ""⟩⟩ hans (observe_getChatMessages _ rfl rfl rfl)
    (parseOnly_parses _)

/-- Two hundred times hello does not arrive. -/
theorem full_list_not_relayed :
    ¬ ∀ (parse : List UInt8 → Option Json) (un : Uninit) (json reply : Json)
        (answers : List (Σ q : Query, q.Result) → (q : Query) → q.Result) (c : Int) (since : Option CString)
        (rows : List MessageListing),
      queryAction json = some .getChatMessages → getChatMessagesParams json = some (c, since) →
      answers [] (.selectMessages c since) = some rows → rows.length ≤ MAX_MESSAGES →
      (∀ row ∈ rows, row.senderUsername.length < MAX_USERNAME_LENGTH ∧ row.content.length < MAX_CONTENT_LENGTH ∧
        row.messageType.length < MAX_TYPE_LENGTH ∧ row.createdAt.length < MAX_TIMESTAMP_LENGTH) →
      ((handleAction un json).observe answers).2 = some reply → CjsonParses parse reply →
      Relayed parse reply := by
  intro h
  have hlen : (List.replicate MAX_MESSAGES helloRow).length = MAX_MESSAGES := List.length_replicate
  have hsize : messagesSize (List.replicate MAX_MESSAGES helloRow) = 26493 := by
    have hhello : messageSize helloRow = 131 := by decide
    have hdigits : escapedLength (CString.ofInt (MAX_MESSAGES : Nat)) = 3 := by decide
    rw [messagesSize, List.map_replicate, List.sum_replicate_nat, hlen, hhello, hdigits]
    rfl
  have hrow : ∀ row ∈ List.replicate MAX_MESSAGES helloRow, row = helloRow := fun _ => List.eq_of_mem_replicate
  generalize List.replicate MAX_MESSAGES helloRow = rows at hlen hsize hrow
  have hr := h (parseOnly (messagesReply rows)) ⟨0, "", fun _ => 0, ⟨"", "", ""⟩⟩ pollJson (messagesReply rows)
    (answerRows rows) 1 none rows rfl rfl rfl hlen.le (fun row hmem => hrow row hmem ▸ by decide)
    (observe_getChatMessages _ rfl rfl rfl) (parseOnly_parses _)
  have hnone := hr.parsed
  rw [(parseOnly_parses _).responseBuffer, Json.overWire, length_print_messagesReply, hsize, BUFFER_SIZE,
    if_neg (by decide)] at hnone
  cases hnone

end FinalServer
