/-
The database: its rows, and what MySQL does for each statement.

A statement is executed as a whole or fails; the answer to a `SELECT` is its
rows, `none` if it failed. Keys are those the repository's statements rely
on: ids are assigned increasing, names and e-mails of users and the pairs of
`chat_participants` are unique, a participant and a message need their chat
and their user, and a chat takes its rows with it. `Db` is a database in
which these hold; every statement stays in it.

The statements that carry a client's strings come as text (`UserSql`,
`ChatSql`), the others as what their text says. What MySQL makes of a text
that is more than literals is a parameter (`Mysql`).
-/
import FinalServer.ChatSql
import Mathlib.Data.List.Pairwise

namespace FinalServer

structure UserRow where
  userId : Int
  username : CString
  email : CString
  passwordHash : CString
  deriving DecidableEq

structure ChatRow where
  chatId : Int
  isGroup : Int
  chatName : CString
  lastMessageId : Option Int
  deriving DecidableEq

/-- A row of `chat_participants`. -/
structure ParticipantRow where
  chatId : Int
  userId : Int
  isAdmin : Int
  deriving DecidableEq

structure MessageRow where
  messageId : Int
  chatId : Int
  senderId : Int
  content : CString
  messageType : CString
  createdAt : Nat
  deriving DecidableEq

/-- The tables, the next automatic ids and the time, in seconds. -/
structure Tables where
  users : List UserRow
  chats : List ChatRow
  participants : List ParticipantRow
  messages : List MessageRow
  nextUserId : Int
  nextChatId : Int
  nextMessageId : Int
  clock : Nat
  deriving DecidableEq

/-! ## Statements and answers -/

/-- A row of `get_chats`; columns of a message or sender that is not there are `NULL`. -/
structure ChatListing where
  chatId : Int
  chatName : CString
  isGroup : Int
  lastContent : Option CString
  lastType : Option CString
  lastTimestamp : Option CString
  lastSender : Option CString

/-- A row of `get_chat_messages`. -/
structure MessageListing where
  messageId : Int
  senderId : Int
  senderUsername : CString
  content : CString
  messageType : CString
  createdAt : CString

/-- A row of the participants of `get_chat_info`. -/
structure ParticipantListing where
  user : UserRow
  isAdmin : Int

/-- What the server's MySQL does where the statements leave it open. -/
structure Mysql where
  /-- `created_at > '...'`. -/
  later : Nat → CString → Bool
  /-- The text of a `created_at`. -/
  timestampText : Nat → CString
  /-- A date has no quote and no backslash. -/
  timestampText_plain : ∀ n, UserSql.Plain (timestampText n)
  /-- A text as a condition. -/
  isTrue : CString → Bool
  /-- The row that `LIMIT 1` leaves of those that match. -/
  limitOne : List ParticipantRow → Option ParticipantRow
  limitOne_mem : ∀ {rows p}, limitOne rows = some p → p ∈ rows
  limitOne_isSome : ∀ {rows}, rows ≠ [] → (limitOne rows).isSome
  /-- The rows that the text of an `INSERT INTO chats` gives, `none` if it is refused. -/
  chatRows : Tables → CString → Option (List ChatValues)
  /-- Literals are the values they stand for. -/
  chatRows_literal : ∀ {t sql rows}, ChatSql.readRows sql = some rows → chatRows t sql = some rows
  /-- The first value stands in front of the client's string. -/
  chatRows_first : ∀ {t g rest r rs}, chatRows t (ChatSql.rowFirst g ++ rest) = some (r :: rs) → r.isGroup = g
  /-- `is_group` is an integer column. -/
  chatRows_range : ∀ {t sql rows}, chatRows t sql = some rows →
    ∀ r ∈ rows, Json.INT_MIN ≤ r.isGroup ∧ r.isGroup ≤ Json.INT_MAX
  /-- The rows that the text of an `INSERT INTO messages` gives, `none` if it is refused. -/
  messageRows : Tables → CString → Option (List Message)
  messageRows_literal : ∀ {t sql rows}, MessageSql.readRows sql = some rows → messageRows t sql = some rows
  /-- The first two values stand in front of the client's strings. -/
  messageRows_first : ∀ {t c u rest r rs}, messageRows t (MessageSql.rowFirst c u ++ rest) = some (r :: rs) →
    r.chatId = c ∧ r.senderId = u
  /-- What `get_chats` and `get_chat_messages` select with a time that is not read as it stands. -/
  oddChats : Tables → Int → CString → Option (List ChatListing)
  oddChats_range : ∀ {t u since rows}, oddChats t u since = some rows →
    ∀ r ∈ rows, Json.INT_MIN ≤ r.chatId ∧ r.chatId ≤ Json.INT_MAX
  oddMessages : Tables → Int → CString → Option (List MessageListing)
  oddMessages_range : ∀ {t c since rows}, oddMessages t c since = some rows →
    ∀ r ∈ rows, (Json.INT_MIN ≤ r.messageId ∧ r.messageId ≤ Json.INT_MAX) ∧
      Json.INT_MIN ≤ r.senderId ∧ r.senderId ≤ Json.INT_MAX

/-- The statements of the two managers. -/
inductive Query
  | insertUser (sql : CString)
  | selectPassword (sql : CString)
  | selectUserInfo (sql : CString)
  | insertChat (sql : CString)
  | insertParticipant (chatId userId isAdmin : Int)
  | insertMessage (sql : CString)
  | updateLastMessage (messageId chatId : Int)
  | selectChats (userId : Int) (since : Option CString)
  | selectMessages (chatId : Int) (since : Option CString)
  | selectChat (chatId : Int)
  | selectParticipants (chatId : Int)
  | selectIsAdmin (chatId userId : Int)
  | selectIsGroup (chatId : Int)
  | deleteParticipant (chatId userId : Int)
  | countParticipants (chatId : Int)
  | countAdmins (chatId : Int)
  | selectFirstParticipant (chatId : Int)
  | promote (chatId userId : Int)
  | deleteChat (chatId : Int)

/-- What `mysql_query` and the reading of its result give: whether it
succeeded, the inserted id, or the rows. -/
@[reducible] def Query.Result : Query → Type
  | .insertUser _ | .insertParticipant .. | .updateLastMessage .. | .deleteParticipant .. | .promote ..
  | .deleteChat _ => Bool
  | .insertChat _ | .insertMessage _ => Option Int
  | .selectPassword _ | .selectUserInfo _ => Option (List UserRow)
  | .selectChats .. => Option (List ChatListing)
  | .selectMessages .. => Option (List MessageListing)
  | .selectChat _ => Option (List ChatRow)
  | .selectParticipants _ => Option (List ParticipantListing)
  | .selectIsAdmin .. | .selectIsGroup _ | .selectFirstParticipant _ => Option (List Int)
  | .countParticipants _ | .countAdmins _ => Option Nat

instance : ∀ q : Query, Inhabited q.Result
  | .insertUser _ | .insertParticipant .. | .updateLastMessage .. | .deleteParticipant .. | .promote ..
  | .deleteChat _ => ⟨false⟩
  | .insertChat _ | .insertMessage _ => ⟨none⟩
  | .selectPassword _ | .selectUserInfo _ => ⟨none⟩
  | .selectChats .. => ⟨none⟩
  | .selectMessages .. => ⟨none⟩
  | .selectChat _ => ⟨none⟩
  | .selectParticipants _ => ⟨none⟩
  | .selectIsAdmin .. | .selectIsGroup _ | .selectFirstParticipant _ => ⟨none⟩
  | .countParticipants _ | .countAdmins _ => ⟨none⟩

namespace Tables

variable (m : Mysql) (t : Tables)

def chatIds : List Int := t.chats.map (·.chatId)

def userIds : List Int := t.users.map (·.userId)

/-- The participants of a chat. -/
def members (chatId : Int) : List ParticipantRow := t.participants.filter (·.chatId = chatId)

/-- The messages of a chat. -/
def messagesOf (chatId : Int) : List MessageRow := t.messages.filter (·.chatId = chatId)

/-- The row of a user in a chat. -/
def memberRows (chatId userId : Int) : List ParticipantRow :=
  t.participants.filter fun p => p.chatId = chatId ∧ p.userId = userId

def admins (chatId : Int) : List ParticipantRow :=
  t.participants.filter fun p => p.chatId = chatId ∧ p.isAdmin = 1

def findUser (userId : Int) : Option UserRow := t.users.find? (·.userId = userId)

def findMessage (messageId : Int) : Option MessageRow := t.messages.find? (·.messageId = messageId)

/-- The rows of `users` a condition selects, in the order of the table. -/
def selectUsers : UserSql.Condition → List UserRow
  | .username key => t.users.filter (·.username = key)
  | .usernameOrTrueEmail key => t.users.filter fun r => r.username = key ∨ m.isTrue r.email = true
  | .usernameOrEmail key key' => t.users.filter fun r => r.username = key ∨ r.email = key'

/-- A chat joined with its last message and the sender of that. -/
def listChat (c : ChatRow) : ChatListing :=
  let last := c.lastMessageId.bind t.findMessage
  { chatId := c.chatId, chatName := c.chatName, isGroup := c.isGroup
    lastContent := last.map (·.content)
    lastType := last.map (·.messageType)
    lastTimestamp := last.map fun r => m.timestampText r.createdAt
    lastSender := (last.bind fun r => t.findUser r.senderId).map (·.username) }

/-- The condition of `get_chats` on the time of the messages of a chat. -/
def chatChanged (c : ChatRow) : Option CString → Bool
  | none => true
  | some since => c.lastMessageId.isNone ||
      t.messages.any fun r => r.chatId = c.chatId && m.later r.createdAt since

/-- The condition of `get_chat_messages` on the time of a message. -/
def messageSince (createdAt : Nat) : Option CString → Bool
  | none => true
  | some since => m.later createdAt since

/-- A message joined with its sender. -/
def listMessage (r : MessageRow) : Option MessageListing :=
  (t.findUser r.senderId).map fun u =>
    { messageId := r.messageId, senderId := r.senderId, senderUsername := u.username
      content := r.content, messageType := r.messageType, createdAt := m.timestampText r.createdAt }

def insertUser (username email passwordHash : CString) : Bool × Tables :=
  if (t.users.any fun r => r.username = username || r.email = email) || Json.INT_MAX < t.nextUserId then
    (false, t)
  else (true, { t with
    users := t.users ++ [{ userId := t.nextUserId, username, email, passwordHash }]
    nextUserId := t.nextUserId + 1 })

/-- The rows of an `INSERT`, one after another: all are stored, or none. -/
def insertRows {α : Type} (insert : Tables → α → Option Tables) (nextId : Int) : Option (List α) → Option Int × Tables
  | some (r :: rs) =>
    match (r :: rs).foldlM insert t with
    | some t' => (some nextId, t')
    | none => (none, t)
  | _ => (none, t)

def insertChatRow (row : ChatValues) : Option Tables :=
  if Json.INT_MAX < t.nextChatId then none
  else some { t with
    chats := t.chats ++ [{ chatId := t.nextChatId, isGroup := row.isGroup, chatName := row.chatName
                           lastMessageId := none }]
    nextChatId := t.nextChatId + 1 }

/-- `mysql_insert_id` is the id of the first row. -/
def insertChat (sql : CString) : Option Int × Tables := t.insertRows insertChatRow t.nextChatId (m.chatRows t sql)

def insertParticipant (chatId userId isAdmin : Int) : Bool × Tables :=
  if chatId ∈ t.chatIds ∧ userId ∈ t.userIds ∧ t.memberRows chatId userId = [] then
    (true, { t with participants := t.participants ++ [{ chatId, userId, isAdmin }] })
  else (false, t)

def insertMessageRow (row : Message) : Option Tables :=
  if row.chatId ∈ t.chatIds ∧ row.senderId ∈ t.userIds ∧ t.nextMessageId ≤ Json.INT_MAX then
    some { t with
      messages := t.messages ++
        [{ messageId := t.nextMessageId, chatId := row.chatId, senderId := row.senderId
           content := row.content, messageType := row.messageType, createdAt := t.clock }]
      nextMessageId := t.nextMessageId + 1 }
  else none

@[inherit_doc insertChat]
def insertMessage (sql : CString) : Option Int × Tables :=
  t.insertRows insertMessageRow t.nextMessageId (m.messageRows t sql)

def updateLastMessage (messageId chatId : Int) : Tables :=
  { t with chats := t.chats.map fun c =>
      if c.chatId = chatId then { c with lastMessageId := some messageId } else c }

def deleteParticipant (chatId userId : Int) : Tables :=
  { t with participants := t.participants.filter fun p => ¬ (p.chatId = chatId ∧ p.userId = userId) }

def promote (chatId userId : Int) : Tables :=
  { t with participants := t.participants.map fun p =>
      if p.chatId = chatId ∧ p.userId = userId then { p with isAdmin := 1 } else p }

def deleteChat (chatId : Int) : Tables :=
  { t with
    chats := t.chats.filter (·.chatId ≠ chatId)
    participants := t.participants.filter (·.chatId ≠ chatId)
    messages := t.messages.filter (·.chatId ≠ chatId) }

/-- The rows of `get_chats`. -/
def selectChats (userId : Int) (since : Option CString) : Option (List ChatListing) :=
  if ∀ time ∈ since, ChatSql.AsWritten userId time then
    some ((t.chats.filter fun c => (t.memberRows c.chatId userId ≠ [] : Bool) && t.chatChanged m c since).map
      (t.listChat m))
  else since.bind (m.oddChats t userId)

/-- The rows of `get_chat_messages`. -/
def selectMessages (chatId : Int) (since : Option CString) : Option (List MessageListing) :=
  if ∀ time ∈ since, MessageSql.AsWritten chatId time then
    some (((t.messagesOf chatId).filter fun r => messageSince m r.createdAt since).filterMap (t.listMessage m))
  else since.bind (m.oddMessages t chatId)

/-- What MySQL does for a statement. -/
def exec : (q : Query) → Tables → q.Result × Tables
  | .insertUser sql, t =>
    match UserSql.readInsert sql with
    | some (username, email, passwordHash) => t.insertUser username email passwordHash
    | none => (false, t)
  | .selectPassword sql, t => ((UserSql.readCondition UserSql.passwordFirst sql).map (t.selectUsers m), t)
  | .selectUserInfo sql, t => ((UserSql.readCondition UserSql.infoFirst sql).map (t.selectUsers m), t)
  | .insertChat sql, t => t.insertChat m sql
  | .insertParticipant chatId userId isAdmin, t => t.insertParticipant chatId userId isAdmin
  | .insertMessage sql, t => t.insertMessage m sql
  | .updateLastMessage messageId chatId, t => (true, t.updateLastMessage messageId chatId)
  | .selectChats userId since, t => (t.selectChats m userId since, t)
  | .selectMessages chatId since, t => (t.selectMessages m chatId since, t)
  | .selectChat chatId, t => (some (t.chats.filter (·.chatId = chatId)), t)
  | .selectParticipants chatId, t =>
    (some ((t.members chatId).filterMap fun p =>
      (t.findUser p.userId).map fun user => { user, isAdmin := p.isAdmin }), t)
  | .selectIsAdmin chatId userId, t => (some ((t.memberRows chatId userId).map (·.isAdmin)), t)
  | .selectIsGroup chatId, t => (some ((t.chats.filter (·.chatId = chatId)).map (·.isGroup)), t)
  | .deleteParticipant chatId userId, t => (true, t.deleteParticipant chatId userId)
  | .countParticipants chatId, t => (some (t.members chatId).length, t)
  | .countAdmins chatId, t => (some (t.admins chatId).length, t)
  | .selectFirstParticipant chatId, t =>
    (some ((m.limitOne (t.members chatId)).toList.map (·.userId)), t)
  | .promote chatId userId, t => (true, t.promote chatId userId)
  | .deleteChat chatId, t => (true, t.deleteChat chatId)

end Tables

end FinalServer
