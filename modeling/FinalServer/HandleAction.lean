/-
The data server's answer to a request (`handle_action` in `data_server.c`).

One program per `case`, under the name of the action. What a local holds
before the code assigns it is a parameter (`Uninit`): some branches read it.
Texts are formatted whole and the local arrays hold what is written to them;
the sizes of the buffers are a subject of their own.
-/
import FinalServer.Managers

namespace FinalServer

/-- What the locals of `handle_action` hold before it assigns them. -/
structure Uninit where
  responseCode : Int
  responseText : CString
  participants : Nat → Int
  newUser : NewUser

/-- The message of a `SEND_MESSAGE`, copied into a `Message`. -/
def SendMessageParams.message (p : SendMessageParams) : Message where
  chatId := p.chatId
  senderId := p.senderId
  content := p.content.take (MAX_CONTENT_LENGTH - 1)
  messageType := p.messageType.take (MAX_TYPE_LENGTH - 1)

namespace HandleAction

/-- `response_json`: the fields of a branch, then the text and the code. -/
def reply (fields : List (CString × Json)) (responseText : CString) (responseCode : Int) : Json :=
  ((Json.object fields).addStringToObject "response_text" (some responseText)).addNumberToObject
    "response_code" responseCode

/-- `response_code` as the sender of the request reads it. -/
def responseCode (replyJson : Json) : Option Int := (replyJson.getObjectItem "response_code").map (·.valueint)

/-- `response_text` as the sender of the request reads it. -/
def responseText (replyJson : Json) : Option CString :=
  (replyJson.getObjectItem "response_text").bind (·.valuestring)

theorem responseCode_reply (text : CString) {code : Int} (hlo : Json.INT_MIN ≤ code) (hhi : code ≤ Json.INT_MAX) :
    responseCode (reply [] text code) = some code :=
  congrArg some (Json.valueint_createNumber hlo hhi)

theorem responseText_reply (text : CString) (code : Int) : responseText (reply [] text code) = some text := rfl

/-- The reply of a branch that assigns neither. -/
def Uninit.reply (un : Uninit) : Json := HandleAction.reply [] un.responseText un.responseCode

def systemMessage (chatId : Int) (content : CString) : Message :=
  { chatId, senderId := 1, content, messageType := "system" }

def validateUser (json : Json) : DbProg Json := do
  match queryKey json with
  | some key =>
    match ← FinalServer.validateUser key with
    | some passwordHash =>
      return reply [("password_hash", .string passwordHash)]
        ("password_hash found for user with the key: " ++ key) 200
    | none => return reply [] ("error retrieving password_hash for key: " ++ key) 400
  | none => return reply [] "Invalid parameters" 400

/-- Without the three strings the user that is stored is the uninitialised one. -/
def createUser (un : Uninit) (json : Json) : DbProg Json := do
  let newUser := (createUserParams json).getD un.newUser
  if ← FinalServer.createUser newUser then
    return reply []
      ("User " ++ newUser.username ++ " with email " ++ newUser.email ++
        " has been stored in the database") 200
  else return reply [] "Unable to generate user" 400

def getUserInfo (un : Uninit) (json : Json) : DbProg Json := do
  match queryKey json with
  | some key =>
    match ← FinalServer.getUserInfo key with
    | some user =>
      return reply [("user_id", .createNumber user.userId), ("username", .string user.username),
          ("email", .string user.email)]
        ("User " ++ user.username ++ " was found with the ID: " ++ CString.ofInt user.userId) 200
    | none => return reply [] ("Error retreiving user info for key: " ++ key) 400
  | none => return Uninit.reply un

/-- The entries of `participants` from index `i` on after the list has been
copied in: what is not a number leaves the entry as it was. -/
def copyIds (participants : Nat → Int) : Nat → List Json → List Int
  | _, [] => []
  | i, id :: ids => (if id.isNumber then id.valueint else participants i) :: copyIds participants (i + 1) ids

theorem length_copyIds (ps : Nat → Int) (i : Nat) (ids : List Json) : (copyIds ps i ids).length = ids.length := by
  induction ids generalizing i with
  | nil => rfl
  | cons id ids ih => simp [copyIds, ih]

/-- The loop of `add_to_chat` calls, each with its message; the number that succeeded. -/
def addEach (chatId addedBy : Int) (isAdmin : Int → Int) : List Int → DbProg Nat
  | [] => return 0
  | userId :: userIds => do
    if ← addToChat chatId userId (isAdmin userId) then
      let _ ← sendMessage (systemMessage chatId
        ("User " ++ CString.ofInt addedBy ++ " has added user " ++ CString.ofInt userId))
      let successCount ← addEach chatId addedBy isAdmin userIds
      return successCount + 1
    else addEach chatId addedBy isAdmin userIds

def createChat (un : Uninit) (json : Json) : DbProg Json := do
  match createChatParams json with
  | some p =>
    if p.countValid then
      match ← FinalServer.createChat p.isGroup p.chatName with
      | some chatId =>
        let _ ← sendMessage (systemMessage chatId
          ("User " ++ CString.ofInt p.createdBy ++ " has created the chat " ++ p.chatName))
        let participants := p.createdBy :: copyIds un.participants 1 p.participantIds
        let successCount ← addEach chatId p.createdBy (fun id => if id = p.createdBy then 1 else 0) participants
        return reply []
          ("Chat " ++ p.chatName ++ " was succesfully created with " ++ CString.ofInt successCount ++
            " users") 200
      | none => return reply [] "Chat couldn't be created unsuccesful" 400
    else
      return reply []
        ("Number of participants invalid for a chat of type " ++
          (if p.isGroup ≠ 0 then "group" else "direct message" : String)) 400
  | none => return Uninit.reply un

def addToGroupChat (un : Uninit) (json : Json) : DbProg Json := do
  match addToGroupChatParams json with
  | some p =>
    let participants := copyIds un.participants 0 p.participantIds
    let successCount ← addEach p.chatId p.addedBy (fun _ => 0) participants
    if 0 < successCount then
      return reply []
        ("Chat " ++ CString.ofInt p.chatId ++ " has succesfully added " ++ CString.ofInt successCount ++
          " users") 200
    else return reply [] ("Unable to add users to chat " ++ CString.ofInt p.chatId) 400
  | none => return Uninit.reply un

def sendMessage (json : Json) : DbProg Json := do
  match sendMessageParams json with
  | some p =>
    if ← FinalServer.sendMessage p.message then
      return reply []
        ("Message from " ++ CString.ofInt p.senderId ++ " was succesfully sent to chat " ++
          CString.ofInt p.chatId) 200
    else return reply [] "Message couldn't be sent unsuccesful" 400
  | none => return reply [] "Parameter format invalid" 400

def chatJson (chat : Chat) : Json :=
  .object [("chat_id", .createNumber chat.id), ("chat_name", .string chat.chatName),
    ("last_message_content", .string chat.lastMessageContent),
    ("last_message_type", .string chat.lastMessageType),
    ("last_message_timestamp", .string chat.lastMessageTimestamp),
    ("last_message_sender", .string chat.lastMessageBy)]

def getChats (json : Json) : DbProg Json := do
  match getChatsParams json with
  | some (userId, since) =>
    match ← FinalServer.getChats userId since with
    | some chats =>
      return reply [("chats_array", .array (chats.map chatJson))]
        (CString.ofInt chats.length ++ " chats succesfully retreived") 200
    | none => return reply [] "Chats couldn't be retreived" 400
  | none => return reply [] "Wrong format for the parameters" 400

def messageJson (message : MessageListing) : Json :=
  .object [("message_id", .createNumber message.messageId), ("sender_id", .createNumber message.senderId),
    ("sender_username", .string message.senderUsername), ("content", .string message.content),
    ("message_type", .string message.messageType), ("created_at", .string message.createdAt)]

def getChatMessages (json : Json) : DbProg Json := do
  match getChatMessagesParams json with
  | some (chatId, since) =>
    match ← FinalServer.getChatMessages chatId since with
    | some messages =>
      return reply [("messages_array", .array (messages.map messageJson))]
        (CString.ofInt messages.length ++ " messages succesfully retreived") 200
    | none => return reply [] "Messages couldn't be retreived" 400
  | none => return reply [] "Wrong format for the parameters" 400

def participantJson (participant : ParticipantListing) : Json :=
  .object [("user_id", .createNumber participant.user.userId),
    ("username", .string participant.user.username), ("is_admin", .createNumber participant.isAdmin)]

def getChatInfo (json : Json) : DbProg Json := do
  match getChatInfoParams json with
  | some chatId =>
    match ← FinalServer.getChatInfo chatId with
    | some (chat, participants) =>
      return reply [("chat_id", .createNumber chat.chatId), ("chat_name", .string chat.chatName),
          ("is_group", .createNumber chat.isGroup),
          ("participants", .array (participants.map participantJson))]
        ("Chat info for ID " ++ CString.ofInt chatId ++ " retrieved successfully") 200
    | none => return reply [] ("Could not retrieve info for chat ID " ++ CString.ofInt chatId) 400
  | none => return reply [] "Invalid or missing chat_id" 400

/-- The loop of `remove_from_chat` calls; the number that succeeded. Nobody
removes himself, and what is not a number is passed over. -/
def removeEach (chatId removedBy : Int) : List Json → DbProg Nat
  | [] => return 0
  | idItem :: idItems => do
    if idItem.isNumber ∧ idItem.valueint ≠ removedBy then
      if ← removeFromChat chatId idItem.valueint then
        let _ ← FinalServer.sendMessage (systemMessage chatId
          ("User " ++ CString.ofInt removedBy ++ " has removed user " ++ CString.ofInt idItem.valueint))
        let removedCount ← removeEach chatId removedBy idItems
        return removedCount + 1
      else removeEach chatId removedBy idItems
    else removeEach chatId removedBy idItems

def removeFromChat (json : Json) : DbProg Json := do
  match removeFromChatParams json with
  | some p =>
    if !(← isUserAdmin p.chatId p.removedBy) then
      return reply [] "Only admins can remove participants." 403
    else if !(← isGroupChat p.chatId) then
      return reply [] "Only participants from group chats can be removed." 403
    else
      let removedCount ← removeEach p.chatId p.removedBy p.participantIds
      return reply []
        ("Removed " ++ CString.ofInt removedCount ++ " out of " ++ CString.ofInt p.participantIds.length ++
          " participants from chat " ++ CString.ofInt p.chatId) 200
  | none => return reply [] "Invalid parameters for REMOVE_FROM_CHAT" 400

/-- The last participant takes the chat with him. -/
def exitLast (chatId userId : Int) : DbProg Json := do
  if ← deleteChat chatId then
    return reply []
      ("User " ++ CString.ofInt userId ++ " left chat " ++ CString.ofInt chatId ++
        ". Chat deleted as last participant.") 200
  else return reply [] "User left, but chat deletion failed." 500

/-- The last admin is replaced. -/
def exitAdmin (chatId userId : Int) : DbProg Json := do
  let exited := reply []
    ("User " ++ CString.ofInt userId ++ " exited chat " ++ CString.ofInt chatId ++ " successfully") 200
  if (← getAdminCount chatId) = some 0 then
    if ← promoteRandomParticipantToAdmin chatId then return exited
    else return reply [] "User left, but failed to promote new admin." 500
  else return exited

def exitChat (json : Json) : DbProg Json := do
  match exitChatParams json with
  | some (chatId, userId) =>
    let isAdmin ← isUserAdmin chatId userId
    let participantCount ← getParticipantCount chatId
    if !(← FinalServer.removeFromChat chatId userId) then return reply [] "Failed to exit chat." 400
    else
      let _ ← FinalServer.sendMessage (systemMessage chatId
        ("User " ++ CString.ofInt userId ++ " has exited the chat"))
      if participantCount = some 1 then exitLast chatId userId
      else if isAdmin then exitAdmin chatId userId
      else
        return reply []
          ("User " ++ CString.ofInt userId ++ " exited chat " ++ CString.ofInt chatId ++ " successfully") 200
  | none => return reply [] "Invalid parameters for EXIT_CHAT" 400

/-- The `switch`. -/
def answer (un : Uninit) (json : Json) : Option Action → DbProg Json
  | some .validateUser => validateUser json
  | some .createUser => createUser un json
  | some .getUserInfo => getUserInfo un json
  | some .createChat => createChat un json
  | some .addToGroupChat => addToGroupChat un json
  | some .sendMessage => sendMessage json
  | some .getChats => getChats json
  | some .getChatMessages => getChatMessages json
  | some .getChatInfo => getChatInfo json
  | some .removeFromChat => removeFromChat json
  | some .exitChat => exitChat json
  | some .ping | none => return reply [] "UNKNOWN COMMAND\n" 404

end HandleAction

/-- `handle_action`. Without an `action` field the child process dies on the
`NULL` and answers nothing. -/
def handleAction (un : Uninit) (json : Json) : DbProg (Option Json) := do
  match json.getObjectItem "action" with
  | none => return none
  | some item => return some (← HandleAction.answer un json (Action.ofCode item.valueint))

end FinalServer
