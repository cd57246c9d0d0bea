/-
What `handle_action` reads of a request (`data_server.c`).

Each action has its own reading: which fields it looks up, under which of
cJSON's two lookups, and what it asks of them before it goes on. A reading
is `none` where the code goes to its error branch. `actingUser` is the user
an accepted request is carried out for, and `parameterCheck` the whole check
of an action.
-/
import FinalServer.Action
import FinalServer.Json

namespace FinalServer

open Json

def MAX_PARTICIPANTS : Nat := 10

/-- The action the data server reads in a query. -/
def queryAction (query : Json) : Option Action :=
  (query.getObjectItem "action").bind fun i => Action.ofCode i.valueint

/-- The key of `VALIDATE_USER` and `GET_USER_INFO`. -/
def queryKey (query : Json) : Option CString :=
  (query.getObjectItemCaseSensitive "key").bind Json.valuestring

/-- A user as `CREATE_USER` fills it in. -/
structure NewUser where
  username : CString
  email : CString
  hashPassword : CString
  deriving DecidableEq

def createUserParams (json : Json) : Option NewUser := do
  let username ← (← json.getObjectItem "username").valuestring
  let email ← (← json.getObjectItem "email").valuestring
  let hashPassword ← (← json.getObjectItem "password").valuestring
  return { username, email, hashPassword }

structure CreateChatParams where
  isGroup : Int
  chatName : CString
  createdBy : Int
  participantIds : List Json

def createChatParams (json : Json) : Option CreateChatParams := do
  let isGroupItem ← json.getObjectItem "is_group"
  guard isGroupItem.isBool
  let chatName ← (← json.getObjectItem "chat_name").valuestring
  let createdByItem ← json.getObjectItem "created_by"
  guard (createdByItem.valueint ≠ 0)
  let participantIdsItem ← json.getObjectItem "participant_ids"
  guard participantIdsItem.isArray
  return { isGroup := isGroupItem.valueint, chatName, createdBy := createdByItem.valueint,
           participantIds := participantIdsItem.items }

/-- The limit on the list of a new chat; the creator comes on top of it. -/
def CreateChatParams.countValid (p : CreateChatParams) : Bool :=
  0 < p.participantIds.length && p.participantIds.length < MAX_PARTICIPANTS - (if p.isGroup ≠ 0 then 1 else 8)

structure AddToGroupChatParams where
  chatId : Int
  participantIds : List Json
  addedBy : Int

def addToGroupChatParams (json : Json) : Option AddToGroupChatParams := do
  let chatIdItem ← json.getObjectItemCaseSensitive "chat_id"
  guard (chatIdItem.valueint ≠ 0)
  let participantIdsItem ← json.getObjectItemCaseSensitive "participant_ids"
  guard participantIdsItem.isArray
  guard (0 < participantIdsItem.items.length)
  let addedByItem ← json.getObjectItemCaseSensitive "added_by"
  guard (addedByItem.valueint ≠ 0)
  return { chatId := chatIdItem.valueint, participantIds := participantIdsItem.items,
           addedBy := addedByItem.valueint }

structure SendMessageParams where
  chatId : Int
  senderId : Int
  content : CString
  messageType : CString

def sendMessageParams (json : Json) : Option SendMessageParams := do
  let chatIdItem ← json.getObjectItem "chat_id"
  guard (chatIdItem.valueint ≠ 0)
  let senderIdItem ← json.getObjectItem "sender_id"
  guard (senderIdItem.valueint ≠ 0)
  let content ← (← json.getObjectItem "content").valuestring
  let messageType ← (← json.getObjectItem "message_type").valuestring
  return { chatId := chatIdItem.valueint, senderId := senderIdItem.valueint, content, messageType }

/-- A timestamp or `null`, which reads as no timestamp. -/
def timestampParam (json : Json) : Option (Option CString) := do
  let item ← json.getObjectItemCaseSensitive "last_update_timestamp"
  guard (item.isString || item.isNull)
  return item.valuestring

/-- A field that has to be a number. -/
def numberParam (json : Json) (name : CString) : Option Int := do
  let item ← json.getObjectItemCaseSensitive name
  guard item.isNumber
  return item.valueint

/-- The user and the timestamp. -/
def getChatsParams (json : Json) : Option (Int × Option CString) := do
  return (← numberParam json "user_id", ← timestampParam json)

/-- The chat and the timestamp. -/
def getChatMessagesParams (json : Json) : Option (Int × Option CString) := do
  return (← numberParam json "chat_id", ← timestampParam json)

def getChatInfoParams (json : Json) : Option Int := numberParam json "chat_id"

structure RemoveFromChatParams where
  chatId : Int
  removedBy : Int
  participantIds : List Json

def removeFromChatParams (json : Json) : Option RemoveFromChatParams := do
  let chatIdItem ← json.getObjectItemCaseSensitive "chat_id"
  let removedByItem ← json.getObjectItemCaseSensitive "removed_by"
  let participantIdsItem ← json.getObjectItemCaseSensitive "participant_ids"
  guard participantIdsItem.isArray
  return { chatId := chatIdItem.valueint, removedBy := removedByItem.valueint,
           participantIds := participantIdsItem.items }

/-- The chat and the user. -/
def exitChatParams (json : Json) : Option (Int × Int) := do
  return (← numberParam json "chat_id", ← numberParam json "user_id")

/-! ## The acting user and the whole check -/

/-- The field of the user an action is carried out for. -/
def identityField : Action → Option CString
  | .createChat => some "created_by"
  | .addToGroupChat => some "added_by"
  | .sendMessage => some "sender_id"
  | .getChats | .exitChat => some "user_id"
  | .removeFromChat => some "removed_by"
  | _ => none

/-- The acting user the data server reads in a request it takes as `action`. -/
def actingUser (action : Action) (json : Json) : Option Int :=
  match action with
  | .createChat => (createChatParams json).map (·.createdBy)
  | .addToGroupChat => (addToGroupChatParams json).map (·.addedBy)
  | .sendMessage => (sendMessageParams json).map (·.senderId)
  | .getChats => (getChatsParams json).map (·.1)
  | .removeFromChat => (removeFromChatParams json).map (·.removedBy)
  | .exitChat => (exitChatParams json).map (·.2)
  | _ => none

/-- The acting user the data server reads in a query, under the action it reads. -/
def readActingUser (query : Json) : Option Int := (queryAction query).bind (actingUser · query)

/-- The parameters of `action` pass the data server's check. -/
def parameterCheck (action : Action) (json : Json) : Bool :=
  match action with
  | .validateUser | .getUserInfo => (queryKey json).isSome
  | .createUser => (createUserParams json).isSome
  | .createChat => (createChatParams json).any (·.countValid)
  | .addToGroupChat => (addToGroupChatParams json).isSome
  | .sendMessage => (sendMessageParams json).isSome
  | .getChats => (getChatsParams json).isSome
  | .getChatMessages => (getChatMessagesParams json).isSome
  | .getChatInfo => (getChatInfoParams json).isSome
  | .removeFromChat => (removeFromChatParams json).isSome
  | .exitChat => (exitChatParams json).isSome
  | .ping => false

/-- The fields an action's reading looks up. -/
def paramNames : Action → List CString
  | .validateUser | .getUserInfo => ["key"]
  | .createUser => ["username", "email", "password"]
  | .createChat => ["is_group", "chat_name", "created_by", "participant_ids"]
  | .addToGroupChat => ["chat_id", "participant_ids", "added_by"]
  | .sendMessage => ["chat_id", "sender_id", "content", "message_type"]
  | .getChats => ["user_id", "last_update_timestamp"]
  | .getChatMessages => ["chat_id", "last_update_timestamp"]
  | .getChatInfo => ["chat_id"]
  | .removeFromChat => ["chat_id", "removed_by", "participant_ids"]
  | .exitChat => ["chat_id", "user_id"]
  | .ping => []

/-- A name reads the same in two requests, under either lookup. -/
def LooksSame (name : CString) (j j' : Json) : Prop :=
  j.getObjectItem name = j'.getObjectItem name ∧
    j.getObjectItemCaseSensitive name = j'.getObjectItemCaseSensitive name

/-- The field a request's acting user is read from. -/
def identityItem (action : Action) (json : Json) : Option Json := do
  let f ← identityField action
  if action = .createChat ∨ action = .sendMessage then json.getObjectItem f
  else json.getObjectItemCaseSensitive f

variable {j j' : Json} {a : Action}

theorem numberParam_value {n : CString} {v : Int} (h : numberParam j n = some v) :
    ∃ i, j.getObjectItemCaseSensitive n = some i ∧ i.valueint = v := by
  simp only [numberParam, Option.bind_eq_bind, Option.bind_eq_some_iff, Option.pure_def,
    Option.some.injEq] at h
  obtain ⟨i, hi, _, -, rfl⟩ := h
  exact ⟨i, hi, rfl⟩

/-- The acting user is the value of the identity field. -/
theorem actingUser_value {v : Int} (h : actingUser a j = some v) :
    ∃ i, identityItem a j = some i ∧ i.valueint = v := by
  cases a with
  | createChat =>
    simp only [actingUser, createChatParams, Option.map_eq_some_iff, Option.bind_eq_bind,
      Option.bind_eq_some_iff, Option.pure_def, Option.some.injEq] at h
    obtain ⟨_, ⟨_, -, _, -, _, -, _, -, i, hi, _, -, _, -, _, -, rfl⟩, rfl⟩ := h
    exact ⟨i, hi, rfl⟩
  | addToGroupChat =>
    simp only [actingUser, addToGroupChatParams, Option.map_eq_some_iff, Option.bind_eq_bind,
      Option.bind_eq_some_iff, Option.pure_def, Option.some.injEq] at h
    obtain ⟨_, ⟨_, -, _, -, _, -, _, -, _, -, i, hi, _, -, rfl⟩, rfl⟩ := h
    exact ⟨i, hi, rfl⟩
  | sendMessage =>
    simp only [actingUser, sendMessageParams, Option.map_eq_some_iff, Option.bind_eq_bind,
      Option.bind_eq_some_iff, Option.pure_def, Option.some.injEq] at h
    obtain ⟨_, ⟨_, -, _, -, i, hi, _, -, _, -, _, -, _, -, _, -, rfl⟩, rfl⟩ := h
    exact ⟨i, hi, rfl⟩
  | getChats =>
    simp only [actingUser, getChatsParams, Option.map_eq_some_iff, Option.bind_eq_bind,
      Option.bind_eq_some_iff, Option.pure_def, Option.some.injEq] at h
    obtain ⟨_, ⟨_, hi, _, -, rfl⟩, rfl⟩ := h
    exact numberParam_value hi
  | removeFromChat =>
    simp only [actingUser, removeFromChatParams, Option.map_eq_some_iff, Option.bind_eq_bind,
      Option.bind_eq_some_iff, Option.pure_def, Option.some.injEq] at h
    obtain ⟨_, ⟨_, -, i, hi, _, -, _, -, rfl⟩, rfl⟩ := h
    exact ⟨i, hi, rfl⟩
  | exitChat =>
    simp only [actingUser, exitChatParams, Option.map_eq_some_iff, Option.bind_eq_bind,
      Option.bind_eq_some_iff, Option.pure_def, Option.some.injEq] at h
    obtain ⟨_, ⟨_, -, _, hi, rfl⟩, rfl⟩ := h
    exact numberParam_value hi
  | _ => cases h

/-- The acting user depends on the fields of the reading only. -/
theorem actingUser_congr (h : ∀ n ∈ paramNames a, LooksSame n j j') :
    actingUser a j = actingUser a j' := by
  cases a <;> simp only [paramNames, LooksSame, List.forall_mem_cons] at h <;>
    simp only [actingUser, createChatParams, addToGroupChatParams, sendMessageParams, getChatsParams,
      removeFromChatParams, exitChatParams, numberParam, timestampParam, h]

end FinalServer
