/-
The data server's two managers (`user_manager.c`, `chat_manager.c`).

Each function is a program of MySQL statements; what it returns says what
the C function returns, with `none` and `false` for its `-1`. Text columns
are copied into the sizes of `Message`.
-/
import FinalServer.DataRequest
import FinalServer.Prog
import FinalServer.Tables

namespace FinalServer

/-- A program of the data server. -/
abbrev DbProg := Prog Query Query.Result

/-- `mysql_query`, with the reading of its result. -/
def mysqlQuery (q : Query) : DbProg q.Result := Prog.stmt q

def MAX_CHATS : Nat := 100
def MAX_MESSAGES : Nat := 200
def MAX_USERNAME_LENGTH : Nat := 64
def MAX_CONTENT_LENGTH : Nat := 256
def MAX_TYPE_LENGTH : Nat := 32
def MAX_TIMESTAMP_LENGTH : Nat := 32

/-! ## `user_manager.c` -/

def createUser (newUser : NewUser) : DbProg Bool :=
  mysqlQuery (.insertUser (UserSql.query
    (UserSql.insertText newUser.username newUser.email newUser.hashPassword)))

/-- The first 64 bytes of the stored hash, unless the first row is the system user's. -/
def validateUser (key : CString) : DbProg (Option CString) := do
  match ← mysqlQuery (.selectPassword (UserSql.query (UserSql.selectText UserSql.passwordFirst key))) with
  | some (row :: _) => return if row.userId ≠ 1 then some (row.passwordHash.take 64) else none
  | _ => return none

def getUserInfo (key : CString) : DbProg (Option UserRow) := do
  match ← mysqlQuery (.selectUserInfo (UserSql.query (UserSql.selectText UserSql.infoFirst key))) with
  | some (row :: _) => return some row
  | _ => return none

/-! ## `chat_manager.c` -/

/-- A chat as `get_chats` returns it. -/
structure Chat where
  id : Int
  chatName : CString
  isGroup : Int
  lastMessageContent : CString
  lastMessageType : CString
  lastMessageTimestamp : CString
  lastMessageBy : CString

def createChat (isGroup : Int) (chatName : CString) : DbProg (Option Int) :=
  mysqlQuery (.insertChat (ChatSql.query (ChatSql.insertText isGroup chatName)))

def addToChat (chatId userId isAdmin : Int) : DbProg Bool := mysqlQuery (.insertParticipant chatId userId isAdmin)

/-- The message is stored first, and then made the last one of its chat. -/
def sendMessage (message : Message) : DbProg Bool := do
  match ← mysqlQuery (.insertMessage message.sql) with
  | none => return false
  | some messageId => mysqlQuery (.updateLastMessage messageId message.chatId)

/-- The columns of a listed chat, with the defaults for `NULL`. -/
def Chat.ofListing (row : ChatListing) : Chat where
  id := row.chatId
  chatName := row.chatName
  isGroup := row.isGroup
  lastMessageContent := row.lastContent.getD "No messages yet"
  lastMessageType := row.lastType.getD ""
  lastMessageTimestamp := row.lastTimestamp.getD ""
  lastMessageBy := row.lastSender.getD ""

def getChats (userId : Int) (since : Option CString) : DbProg (Option (List Chat)) := do
  match ← mysqlQuery (.selectChats userId since) with
  | some rows => return some ((rows.take MAX_CHATS).map Chat.ofListing)
  | none => return none

/-- A message copied into the arrays of `Message`. -/
def MessageListing.copy (row : MessageListing) : MessageListing :=
  { row with
    senderUsername := row.senderUsername.take (MAX_USERNAME_LENGTH - 1)
    content := row.content.take (MAX_CONTENT_LENGTH - 1)
    messageType := row.messageType.take (MAX_TYPE_LENGTH - 1)
    createdAt := row.createdAt.take (MAX_TIMESTAMP_LENGTH - 1) }

def getChatMessages (chatId : Int) (since : Option CString) : DbProg (Option (List MessageListing)) := do
  match ← mysqlQuery (.selectMessages chatId since) with
  | some rows => return some (rows.map MessageListing.copy)
  | none => return none

def getChatInfo (chatId : Int) : DbProg (Option (ChatRow × List ParticipantListing)) := do
  match ← mysqlQuery (.selectChat chatId) with
  | some (chat :: _) =>
    match ← mysqlQuery (.selectParticipants chatId) with
    | some rows => return some (chat, rows.take MAX_PARTICIPANTS)
    | none => return none
  | _ => return none

def isUserAdmin (chatId userId : Int) : DbProg Bool := do
  match ← mysqlQuery (.selectIsAdmin chatId userId) with
  | some (isAdmin :: _) => return isAdmin == 1
  | _ => return false

def isGroupChat (chatId : Int) : DbProg Bool := do
  match ← mysqlQuery (.selectIsGroup chatId) with
  | some (isGroup :: _) => return isGroup == 1
  | _ => return false

def removeFromChat (chatId userId : Int) : DbProg Bool := mysqlQuery (.deleteParticipant chatId userId)

def getParticipantCount (chatId : Int) : DbProg (Option Nat) := mysqlQuery (.countParticipants chatId)

def getAdminCount (chatId : Int) : DbProg (Option Nat) := mysqlQuery (.countAdmins chatId)

def promoteRandomParticipantToAdmin (chatId : Int) : DbProg Bool := do
  match ← mysqlQuery (.selectFirstParticipant chatId) with
  | some (userId :: _) => mysqlQuery (.promote chatId userId)
  | _ => return false

def deleteChat (chatId : Int) : DbProg Bool := mysqlQuery (.deleteChat chatId)

end FinalServer
