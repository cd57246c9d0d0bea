/-
The texts that `handle_action` formats (`data_server.c`).

`sprintf` looks at no size: what it writes to `response_text` and to the
`content` of a `Message` fits or runs over. Here every such call is noted,
with its pieces; without the notes the branches are `HandleAction`'s
(`handleActionTexts_forget`). Texts of constants and numbers always fit, and
so do those of most actions; a key, a name or an e-mail can be as long as the
request.
-/
import FinalServer.HandleAction
import FinalServer.Logged
import FinalServer.MessageSql
import FinalServer.ParticipantLimit

namespace FinalServer

/-- What is formatted into: `char response_text[1024]`, or the `content` of a `Message`. -/
inductive TextBuffer
  | responseText
  | content
  deriving DecidableEq

def TextBuffer.size : TextBuffer → Nat
  | .responseText => 1024
  | .content => MAX_CONTENT_LENGTH

/-- A piece of a format: its own text or that of a `%s`, or the number of a `%d`. -/
inductive Piece
  | text (s : CString)
  | int (n : Int)

namespace Piece

/-- What a piece prints; `%d` prints an `int` of 32 bits. -/
def print : Piece → CString
  | .text s => s
  | .int n => CString.ofInt (n.bmod 4294967296)

/-- The same where every number is an `int`. -/
def whole : Piece → CString
  | .text s => s
  | .int n => CString.ofInt n

/-- What `sprintf` writes before the NUL. -/
def printAll : List Piece → CString
  | [] => ""
  | p :: ps => p.print ++ printAll ps

def wholeAll : List Piece → CString
  | [] => ""
  | p :: ps => ps.foldl (fun t p => t ++ p.whole) p.whole

/-- The number of the piece, if it has one, is an `int`. -/
def InRange : Piece → Prop
  | .text _ => True
  | .int n => Json.INT_MIN ≤ n ∧ n ≤ Json.INT_MAX

theorem InRange.print_eq {p : Piece} (h : p.InRange) : p.print = p.whole := by
  cases p with
  | text s => rfl
  | int n =>
    obtain ⟨hlo, hhi⟩ := h
    simp only [Json.INT_MIN, Json.INT_MAX] at hlo hhi
    rw [print, whole, Int.bmod_eq_of_le (by omega) (by omega)]

/-- Where every number is an `int`, the text is the one the branch goes on with. -/
theorem printAll_eq_wholeAll {pieces : List Piece} (h : ∀ p ∈ pieces, p.InRange) :
    printAll pieces = wholeAll pieces := by
  have hfold : ∀ (ps : List Piece) (t : CString), (∀ p ∈ ps, p.InRange) →
      ps.foldl (fun t p => t ++ p.whole) t = t ++ printAll ps := by
    intro ps
    induction ps with
    | nil =>
      intro t _
      exact CString.ext (List.append_nil t.bytes).symm
    | cons p ps ih =>
      intro t hps
      rw [List.foldl_cons, ih _ fun q hq => hps q (.tail _ hq), ← (hps p (.head _)).print_eq]
      exact CString.ext (List.append_assoc _ _ _)
  cases pieces with
  | nil => rfl
  | cons p ps => rw [printAll, wholeAll, hfold ps _ fun q hq => h q (.tail _ hq), (h p (.head _)).print_eq]

end Piece

/-- A call of `sprintf`. -/
structure FormatCall where
  buffer : TextBuffer
  pieces : List Piece

/-- The text and its NUL are within the buffer. -/
def FormatCall.Fits (c : FormatCall) : Prop := (Piece.printAll c.pieces).length + 1 ≤ c.buffer.size

/-- A branch of the data server with its calls of `sprintf`. -/
abbrev TextProg (α : Type) := LogProg Query Query.Result FormatCall α

def sprintf (buffer : TextBuffer) (pieces : List Piece) : TextProg CString := do
  Prog.note ⟨buffer, pieces⟩
  return Piece.wholeAll pieces

namespace HandleAction

def validateUserTexts (json : Json) : TextProg Json := do
  match queryKey json with
  | some key =>
    match ← (FinalServer.validateUser key).unlogged with
    | some passwordHash =>
      let text ← sprintf .responseText [.text "password_hash found for user with the key: ", .text key]
      return reply [("password_hash", .string passwordHash)] text 200
    | none =>
      let text ← sprintf .responseText [.text "error retrieving password_hash for key: ", .text key]
      return reply [] text 400
  | none => return reply [] "Invalid parameters" 400

def createUserTexts (un : Uninit) (json : Json) : TextProg Json := do
  let newUser := (createUserParams json).getD un.newUser
  if ← (FinalServer.createUser newUser).unlogged then
    let text ← sprintf .responseText
      [.text "User ", .text newUser.username, .text " with email ", .text newUser.email,
        .text " has been stored in the database"]
    return reply [] text 200
  else return reply [] "Unable to generate user" 400

def getUserInfoTexts (un : Uninit) (json : Json) : TextProg Json := do
  match queryKey json with
  | some key =>
    match ← (FinalServer.getUserInfo key).unlogged with
    | some user =>
      let text ← sprintf .responseText
        [.text "User ", .text user.username, .text " was found with the ID: ", .int user.userId]
      return reply [("user_id", .createNumber user.userId), ("username", .string user.username),
          ("email", .string user.email)] text 200
    | none =>
      let text ← sprintf .responseText [.text "Error retreiving user info for key: ", .text key]
      return reply [] text 400
  | none => return Uninit.reply un

def addEachTexts (chatId addedBy : Int) (isAdmin : Int → Int) : List Int → TextProg Nat
  | [] => return 0
  | userId :: userIds => do
    if ← (addToChat chatId userId (isAdmin userId)).unlogged then
      let content ← sprintf .content [.text "User ", .int addedBy, .text " has added user ", .int userId]
      let _ ← (FinalServer.sendMessage (systemMessage chatId content)).unlogged
      let successCount ← addEachTexts chatId addedBy isAdmin userIds
      return successCount + 1
    else addEachTexts chatId addedBy isAdmin userIds

def createChatTexts (un : Uninit) (json : Json) : TextProg Json := do
  match createChatParams json with
  | some p =>
    if p.countValid then
      match ← (FinalServer.createChat p.isGroup p.chatName).unlogged with
      | some chatId =>
        let content ← sprintf .content
          [.text "User ", .int p.createdBy, .text " has created the chat ", .text p.chatName]
        let _ ← (FinalServer.sendMessage (systemMessage chatId content)).unlogged
        let participants := p.createdBy :: copyIds un.participants 1 p.participantIds
        let successCount ← addEachTexts chatId p.createdBy (fun id => if id = p.createdBy then 1 else 0) participants
        let text ← sprintf .responseText
          [.text "Chat ", .text p.chatName, .text " was succesfully created with ", .int successCount, .text " users"]
        return reply [] text 200
      | none => return reply [] "Chat couldn't be created unsuccesful" 400
    else
      let text ← sprintf .responseText
        [.text "Number of participants invalid for a chat of type ",
          .text (if p.isGroup ≠ 0 then "group" else "direct message" : String)]
      return reply [] text 400
  | none => return Uninit.reply un

def addToGroupChatTexts (un : Uninit) (json : Json) : TextProg Json := do
  match addToGroupChatParams json with
  | some p =>
    let participants := copyIds un.participants 0 p.participantIds
    let successCount ← addEachTexts p.chatId p.addedBy (fun _ => 0) participants
    if 0 < successCount then
      let text ← sprintf .responseText
        [.text "Chat ", .int p.chatId, .text " has succesfully added ", .int successCount, .text " users"]
      return reply [] text 200
    else
      let text ← sprintf .responseText [.text "Unable to add users to chat ", .int p.chatId]
      return reply [] text 400
  | none => return Uninit.reply un

def sendMessageTexts (json : Json) : TextProg Json := do
  match sendMessageParams json with
  | some p =>
    let message : Message :=
      { chatId := p.chatId, senderId := p.senderId
        content := p.content.take (MAX_CONTENT_LENGTH - 1)
        messageType := p.messageType.take (MAX_TYPE_LENGTH - 1) }
    if ← (FinalServer.sendMessage message).unlogged then
      let text ← sprintf .responseText
        [.text "Message from ", .int p.senderId, .text " was succesfully sent to chat ", .int p.chatId]
      return reply [] text 200
    else return reply [] "Message couldn't be sent unsuccesful" 400
  | none => return reply [] "Parameter format invalid" 400

def getChatsTexts (json : Json) : TextProg Json := do
  match getChatsParams json with
  | some (userId, since) =>
    match ← (FinalServer.getChats userId since).unlogged with
    | some chats =>
      let text ← sprintf .responseText [.int chats.length, .text " chats succesfully retreived"]
      return reply [("chats_array", .array (chats.map chatJson))] text 200
    | none => return reply [] "Chats couldn't be retreived" 400
  | none => return reply [] "Wrong format for the parameters" 400

def getChatMessagesTexts (json : Json) : TextProg Json := do
  match getChatMessagesParams json with
  | some (chatId, since) =>
    match ← (FinalServer.getChatMessages chatId since).unlogged with
    | some messages =>
      let text ← sprintf .responseText [.int messages.length, .text " messages succesfully retreived"]
      return reply [("messages_array", .array (messages.map messageJson))] text 200
    | none => return reply [] "Messages couldn't be retreived" 400
  | none => return reply [] "Wrong format for the parameters" 400

def getChatInfoTexts (json : Json) : TextProg Json := do
  match getChatInfoParams json with
  | some chatId =>
    match ← (FinalServer.getChatInfo chatId).unlogged with
    | some (chat, participants) =>
      let text ← sprintf .responseText [.text "Chat info for ID ", .int chatId, .text " retrieved successfully"]
      return reply [("chat_id", .createNumber chat.chatId), ("chat_name", .string chat.chatName),
          ("is_group", .createNumber chat.isGroup),
          ("participants", .array (participants.map participantJson))] text 200
    | none =>
      let text ← sprintf .responseText [.text "Could not retrieve info for chat ID ", .int chatId]
      return reply [] text 400
  | none => return reply [] "Invalid or missing chat_id" 400

def removeEachTexts (chatId removedBy : Int) : List Json → TextProg Nat
  | [] => return 0
  | idItem :: idItems => do
    if idItem.isNumber ∧ idItem.valueint ≠ removedBy then
      if ← (FinalServer.removeFromChat chatId idItem.valueint).unlogged then
        let content ← sprintf .content
          [.text "User ", .int removedBy, .text " has removed user ", .int idItem.valueint]
        let _ ← (FinalServer.sendMessage (systemMessage chatId content)).unlogged
        let removedCount ← removeEachTexts chatId removedBy idItems
        return removedCount + 1
      else removeEachTexts chatId removedBy idItems
    else removeEachTexts chatId removedBy idItems

def removeFromChatTexts (json : Json) : TextProg Json := do
  match removeFromChatParams json with
  | some p =>
    if !(← (isUserAdmin p.chatId p.removedBy).unlogged) then
      return reply [] "Only admins can remove participants." 403
    else if !(← (isGroupChat p.chatId).unlogged) then
      return reply [] "Only participants from group chats can be removed." 403
    else
      let removedCount ← removeEachTexts p.chatId p.removedBy p.participantIds
      let text ← sprintf .responseText
        [.text "Removed ", .int removedCount, .text " out of ", .int p.participantIds.length,
          .text " participants from chat ", .int p.chatId]
      return reply [] text 200
  | none => return reply [] "Invalid parameters for REMOVE_FROM_CHAT" 400

def exitLastTexts (chatId userId : Int) : TextProg Json := do
  if ← (deleteChat chatId).unlogged then
    let text ← sprintf .responseText
      [.text "User ", .int userId, .text " left chat ", .int chatId, .text ". Chat deleted as last participant."]
    return reply [] text 200
  else return reply [] "User left, but chat deletion failed." 500

def exitedTexts (chatId userId : Int) : TextProg Json := do
  let text ← sprintf .responseText
    [.text "User ", .int userId, .text " exited chat ", .int chatId, .text " successfully"]
  return reply [] text 200

def exitAdminTexts (chatId userId : Int) : TextProg Json := do
  if (← (getAdminCount chatId).unlogged) = some 0 then
    if ← (promoteRandomParticipantToAdmin chatId).unlogged then exitedTexts chatId userId
    else return reply [] "User left, but failed to promote new admin." 500
  else exitedTexts chatId userId

def exitChatTexts (json : Json) : TextProg Json := do
  match exitChatParams json with
  | some (chatId, userId) =>
    let isAdmin ← (isUserAdmin chatId userId).unlogged
    let participantCount ← (getParticipantCount chatId).unlogged
    if !(← (FinalServer.removeFromChat chatId userId).unlogged) then return reply [] "Failed to exit chat." 400
    else
      let content ← sprintf .content [.text "User ", .int userId, .text " has exited the chat"]
      let _ ← (FinalServer.sendMessage (systemMessage chatId content)).unlogged
      if participantCount = some 1 then exitLastTexts chatId userId
      else if isAdmin then exitAdminTexts chatId userId
      else exitedTexts chatId userId
  | none => return reply [] "Invalid parameters for EXIT_CHAT" 400

def answerTexts (un : Uninit) (json : Json) : Option Action → TextProg Json
  | some .validateUser => validateUserTexts json
  | some .createUser => createUserTexts un json
  | some .getUserInfo => getUserInfoTexts un json
  | some .createChat => createChatTexts un json
  | some .addToGroupChat => addToGroupChatTexts un json
  | some .sendMessage => sendMessageTexts json
  | some .getChats => getChatsTexts json
  | some .getChatMessages => getChatMessagesTexts json
  | some .getChatInfo => getChatInfoTexts json
  | some .removeFromChat => removeFromChatTexts json
  | some .exitChat => exitChatTexts json
  | some .ping | none => return reply [] "UNKNOWN COMMAND\n" 404

end HandleAction

def handleActionTexts (un : Uninit) (json : Json) : TextProg (Option Json) := do
  match json.getObjectItem "action" with
  | none => return none
  | some item => return some (← HandleAction.answerTexts un json (Action.ofCode item.valueint))

/-! ## Without the notes -/

namespace HandleAction

@[simp] theorem sprintf_forget (buffer : TextBuffer) (pieces : List Piece) :
    (sprintf buffer pieces).forget = .ret (Piece.wholeAll pieces) := rfl

theorem validateUserTexts_forget (json : Json) : (validateUserTexts json).forget = validateUser json := by
  simp only [validateUserTexts, validateUser]
  cases queryKey json with
  | none => rfl
  | some key =>
    refine Prog.forget_unlogged_bind fun r => ?_
    cases r <;> rfl

theorem createUserTexts_forget (un : Uninit) (json : Json) : (createUserTexts un json).forget = createUser un json := by
  refine Prog.forget_unlogged_bind fun r => ?_
  cases r <;> rfl

theorem getUserInfoTexts_forget (un : Uninit) (json : Json) :
    (getUserInfoTexts un json).forget = getUserInfo un json := by
  simp only [getUserInfoTexts, getUserInfo]
  cases queryKey json with
  | none => rfl
  | some key =>
    refine Prog.forget_unlogged_bind fun r => ?_
    cases r <;> rfl

theorem addEachTexts_forget (c b : Int) (f : Int → Int) (userIds : List Int) :
    (addEachTexts c b f userIds).forget = addEach c b f userIds := by
  induction userIds with
  | nil => rfl
  | cons userId userIds ih =>
    refine Prog.forget_unlogged_bind fun r => ?_
    cases r with
    | false => exact ih
    | true =>
      simp only [if_true, Prog.forget_bind, Prog.forget_unlogged, sprintf_forget, ih]
      rfl

theorem createChatTexts_forget (un : Uninit) (json : Json) : (createChatTexts un json).forget = createChat un json := by
  simp only [createChatTexts, createChat]
  cases createChatParams json with
  | none => rfl
  | some p =>
    cases hvalid : p.countValid with
    | false =>
      simp only [hvalid]
      rfl
    | true =>
      simp only [hvalid, if_true]
      refine Prog.forget_unlogged_bind fun r => ?_
      cases r with
      | none => rfl
      | some chatId =>
        simp only [Prog.forget_bind, Prog.forget_unlogged, sprintf_forget, addEachTexts_forget]
        rfl

theorem addToGroupChatTexts_forget (un : Uninit) (json : Json) :
    (addToGroupChatTexts un json).forget = addToGroupChat un json := by
  simp only [addToGroupChatTexts, addToGroupChat]
  cases addToGroupChatParams json with
  | none => rfl
  | some p =>
    simp only [Prog.forget_bind, addEachTexts_forget]
    refine Prog.bind_congr fun successCount => ?_
    split <;> rfl

theorem sendMessageTexts_forget (json : Json) : (sendMessageTexts json).forget = sendMessage json := by
  simp only [sendMessageTexts, sendMessage]
  cases sendMessageParams json with
  | none => rfl
  | some p =>
    refine Prog.forget_unlogged_bind fun r => ?_
    cases r <;> rfl

theorem getChatsTexts_forget (json : Json) : (getChatsTexts json).forget = getChats json := by
  simp only [getChatsTexts, getChats]
  cases getChatsParams json with
  | none => rfl
  | some p =>
    refine Prog.forget_unlogged_bind fun r => ?_
    cases r <;> rfl

theorem getChatMessagesTexts_forget (json : Json) : (getChatMessagesTexts json).forget = getChatMessages json := by
  simp only [getChatMessagesTexts, getChatMessages]
  cases getChatMessagesParams json with
  | none => rfl
  | some p =>
    refine Prog.forget_unlogged_bind fun r => ?_
    cases r <;> rfl

theorem getChatInfoTexts_forget (json : Json) : (getChatInfoTexts json).forget = getChatInfo json := by
  simp only [getChatInfoTexts, getChatInfo]
  cases getChatInfoParams json with
  | none => rfl
  | some chatId =>
    refine Prog.forget_unlogged_bind fun r => ?_
    cases r <;> rfl

theorem removeEachTexts_forget (c b : Int) (idItems : List Json) :
    (removeEachTexts c b idItems).forget = removeEach c b idItems := by
  induction idItems with
  | nil => rfl
  | cons idItem idItems ih =>
    simp only [removeEachTexts, removeEach]
    split
    · refine Prog.forget_unlogged_bind fun r => ?_
      cases r with
      | false => exact ih
      | true =>
        simp only [if_true, Prog.forget_bind, Prog.forget_unlogged, sprintf_forget, ih]
        rfl
    · exact ih

theorem removeFromChatTexts_forget (json : Json) : (removeFromChatTexts json).forget = removeFromChat json := by
  simp only [removeFromChatTexts, removeFromChat]
  cases removeFromChatParams json with
  | none => rfl
  | some p =>
    refine Prog.forget_unlogged_bind fun isAdmin => ?_
    cases isAdmin with
    | false => rfl
    | true =>
      simp only [Bool.not_true, Bool.false_eq_true, if_false]
      refine Prog.forget_unlogged_bind fun isGroup => ?_
      cases isGroup with
      | false => rfl
      | true =>
        simp only [Bool.not_true, Bool.false_eq_true, if_false, Prog.forget_bind, removeEachTexts_forget]
        rfl

theorem exitLastTexts_forget (c u : Int) : (exitLastTexts c u).forget = exitLast c u := by
  refine Prog.forget_unlogged_bind fun r => ?_
  cases r <;> rfl

theorem exitAdminTexts_forget (c u : Int) : (exitAdminTexts c u).forget = exitAdmin c u := by
  refine Prog.forget_unlogged_bind fun adminCount => ?_
  split
  · refine Prog.forget_unlogged_bind fun r => ?_
    cases r <;> rfl
  · rfl

theorem exitChatTexts_forget (json : Json) : (exitChatTexts json).forget = exitChat json := by
  simp only [exitChatTexts, exitChat]
  cases exitChatParams json with
  | none => rfl
  | some p =>
    refine Prog.forget_unlogged_bind fun isAdmin => Prog.forget_unlogged_bind fun participantCount => ?_
    refine Prog.forget_unlogged_bind fun removed => ?_
    cases removed with
    | false => rfl
    | true =>
      simp only [Bool.not_true, Bool.false_eq_true, if_false, Prog.forget_bind, Prog.forget_unlogged, sprintf_forget,
        Prog.ret_bind]
      refine Prog.bind_congr fun _ => ?_
      split
      · exact exitLastTexts_forget _ _
      · split
        · exact exitAdminTexts_forget _ _
        · rfl

theorem answerTexts_forget (un : Uninit) (json : Json) (action : Option Action) :
    (answerTexts un json action).forget = answer un json action := by
  unfold answerTexts answer
  split
  · exact validateUserTexts_forget json
  · exact createUserTexts_forget un json
  · exact getUserInfoTexts_forget un json
  · exact createChatTexts_forget un json
  · exact addToGroupChatTexts_forget un json
  · exact sendMessageTexts_forget json
  · exact getChatsTexts_forget json
  · exact getChatMessagesTexts_forget json
  · exact getChatInfoTexts_forget json
  · exact removeFromChatTexts_forget json
  · exact exitChatTexts_forget json
  all_goals rfl

end HandleAction

open HandleAction

/-- Formatting answers what `HandleAction` answers. -/
theorem handleActionTexts_forget (un : Uninit) (json : Json) :
    (handleActionTexts un json).forget = handleAction un json := by
  unfold handleActionTexts handleAction
  cases json.getObjectItem "action" with
  | none => rfl
  | some item =>
    rw [Prog.forget_bind, answerTexts_forget]
    rfl

end FinalServer
