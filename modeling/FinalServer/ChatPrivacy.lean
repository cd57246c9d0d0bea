/-
What a user who is not in a chat can do to it, and see of it.

The logic server puts the user of the token into a request, and the data
server never looks for it in the chat: not when it stores a message, lists
messages or participants, or adds participants. `relay` is the way of a
client's text through both servers, `Private` what an outsider's request
should meet, and `relay_private_iff` says that it does so only if it is
refused for its form or there is nothing to do or to show.
-/
import FinalServer.Identity
import FinalServer.MessageLog
import FinalServer.ParticipantLimit

namespace FinalServer

open HandleAction (copyIds addEach)

/-- A client's text through both servers: the answer, and the database after it. -/
def relay (env : Env) (now : Int) (cur : CurrentRequest) (un : Uninit) (m : Mysql) (raw : CString) (d : Db) :
    Option Json × Db :=
  let p := processClientRequest env now cur raw
  if p.handledLocally then (some p.message, d) else d.run m (handleAction un p.message)

/-- The databases differ in nothing but the messages and participants of chat `c`. -/
structure Tables.SameBut (c : Int) (t t' : Tables) : Prop where
  users : t'.users = t.users
  chats : t'.chats = t.chats
  participants : t'.participants.filter (·.chatId ≠ c) = t.participants.filter (·.chatId ≠ c)
  messages : t'.messages.filter (·.chatId ≠ c) = t.messages.filter (·.chatId ≠ c)
  nextUserId : t'.nextUserId = t.nextUserId
  nextChatId : t'.nextChatId = t.nextChatId
  nextMessageId : t'.nextMessageId = t.nextMessageId
  clock : t'.clock = t.clock

/-- A database that user `u`, who is not in chat `c`, should not tell from this one. -/
structure Db.Alike (c u : Int) (d d' : Db) : Prop where
  same : d.SameBut c d'.toTables
  outside : u ∉ d'.memberIds c

/-- The request leaves chat `c` as it is, and its answer depends on nothing in
the chat, as far as user `u` is not in it. -/
structure Private {α : Type} (answer : Db → α × Db) (c u : Int) (d : Db) : Prop where
  messages : (answer d).2.messagesOf c = d.messagesOf c
  participants : (answer d).2.members c = d.members c
  reply : ∀ d' : Db, d.Alike c u d' → (answer d').1 = (answer d).1

/-- The actions on a chat that are not about leaving or removing. -/
def Action.concernsChat : Action → Bool
  | .sendMessage | .getChatMessages | .getChatInfo | .addToGroupChat => true
  | _ => false

/-- The chat of an accepted request. -/
def requestChat (a : Action) (query : Json) : Option Int :=
  match a with
  | .sendMessage => (sendMessageParams query).map (·.chatId)
  | .getChatMessages => (getChatMessagesParams query).map (·.1)
  | .getChatInfo => getChatInfoParams query
  | .addToGroupChat => (addToGroupChatParams query).map (·.chatId)
  | _ => none

/-- The messages `get_chat_messages` reads of what MySQL selects. -/
def Tables.readMessages (m : Mysql) (t : Tables) (c : Int) (since : Option CString) : Option (List MessageListing) :=
  (t.selectMessages m c since).map (·.map MessageListing.copy)

/-- The request is refused for its form, or there is nothing to do or to show:
an `INSERT` that MySQL refuses, whatever the chat holds; no message that could
be listed, or with a time that is not read as it stands the same messages,
whatever the chat holds; no participant but the user; nobody to add. -/
def Harmless (m : Mysql) (un : Uninit) (d : Db) (c u : Int) (query : Json) : Action → Prop
  | .sendMessage => ∀ p, sendMessageParams query = some p → ∀ d', d.Alike c u d' → ¬ d'.Storable m p.message.sql
  | .getChatMessages => ∀ p, getChatMessagesParams query = some p →
      if ∀ time ∈ p.2, MessageSql.AsWritten c time then d.users = [] ∨ ∀ n, Tables.messageSince m n p.2 = false
      else ∀ d', d.Alike c u d' → d'.readMessages m c p.2 = d.readMessages m c p.2
  | .getChatInfo => ∀ c, getChatInfoParams query = some c → ∀ v ∈ d.userIds, v = u
  | .addToGroupChat => ∀ p, addToGroupChatParams query = some p →
      ∀ v ∈ copyIds un.participants 0 p.participantIds, v ∉ d.userIds
  | _ => True

variable {m : Mysql} {d d' : Db} {c u : Int} {un : Uninit} {query : Json}

/-! ## Databases that differ in one chat -/

namespace Tables.SameBut

variable {t t' : Tables}

theorem refl : SameBut c t t := ⟨rfl, rfl, rfl, rfl, rfl, rfl, rfl, rfl⟩

theorem userIds (h : SameBut c t t') : t'.userIds = t.userIds := by rw [Tables.userIds, h.users, Tables.userIds]

theorem chatIds (h : SameBut c t t') : t'.chatIds = t.chatIds := by rw [Tables.chatIds, h.chats, Tables.chatIds]

theorem findUser (h : SameBut c t t') (v : Int) : t'.findUser v = t.findUser v := by
  rw [Tables.findUser, h.users, Tables.findUser]

end Tables.SameBut

namespace Db

/-- The database without the participants of a chat. -/
def withoutParticipants (d : Db) (c : Int) : Db where
  toTables := { d.toTables with participants := d.participants.filter (·.chatId ≠ c) }
  wf := {
    d.wf with
    participants_unique := d.wf.participants_unique.filter _
    participants_chat := fun p hp => d.wf.participants_chat p (List.mem_of_mem_filter hp)
    participants_user := fun p hp => d.wf.participants_user p (List.mem_of_mem_filter hp) }

/-- The database without the messages of a chat. -/
def withoutMessages (d : Db) (c : Int) : Db where
  toTables := { d.toTables with messages := d.messages.filter (·.chatId ≠ c) }
  wf := {
    d.wf with
    messages_sorted := d.wf.messages_sorted.filter _
    messages_lt := fun r hr => d.wf.messages_lt r (List.mem_of_mem_filter hr)
    messages_chat := fun r hr => d.wf.messages_chat r (List.mem_of_mem_filter hr)
    messages_sender := fun r hr => d.wf.messages_sender r (List.mem_of_mem_filter hr) }

/-- An id below those of all messages. -/
def lowMessageId (d : Db) : Int := d.messages.head?.elim d.nextMessageId (·.messageId) - 1

theorem lowMessageId_lt (d : Db) :
    (∀ r ∈ d.messages, d.lowMessageId < r.messageId) ∧ d.lowMessageId < d.nextMessageId := by
  have hsorted := d.wf.messages_sorted
  have hlt := d.wf.messages_lt
  rw [lowMessageId]
  cases hm : d.messages with
  | nil => exact ⟨nofun, by simp⟩
  | cons s rs =>
    rw [hm] at hsorted hlt
    have hs := hlt s List.mem_cons_self
    refine ⟨fun r hr => ?_, by simp only [List.head?_cons, Option.elim_some]; omega⟩
    rcases List.mem_cons.mp hr with rfl | hr
    · simp
    · have := List.rel_of_pairwise_cons hsorted hr
      simp only [List.head?_cons, Option.elim_some]
      omega

/-- The database with an older message of a user in a chat. -/
def withMessage (d : Db) {c v : Int} (n : Nat) (hc : c ∈ d.chatIds) (hv : v ∈ d.userIds) : Db where
  toTables := { d.toTables with
    messages := { messageId := d.lowMessageId, chatId := c, senderId := v, content := "", messageType := "text",
                  createdAt := n } :: d.messages }
  wf := {
    d.wf with
    messages_sorted := List.pairwise_cons.mpr ⟨d.lowMessageId_lt.1, d.wf.messages_sorted⟩
    messages_lt := List.forall_mem_cons.mpr ⟨d.lowMessageId_lt.2, d.wf.messages_lt⟩
    messages_chat := List.forall_mem_cons.mpr ⟨hc, d.wf.messages_chat⟩
    messages_sender := List.forall_mem_cons.mpr ⟨hv, d.wf.messages_sender⟩ }

theorem withoutParticipants_sameBut : d.SameBut c (d.withoutParticipants c).toTables :=
  ⟨rfl, rfl, by simp [withoutParticipants], rfl, rfl, rfl, rfl, rfl⟩

theorem withoutMessages_sameBut : d.SameBut c (d.withoutMessages c).toTables :=
  ⟨rfl, rfl, rfl, by simp [withoutMessages], rfl, rfl, rfl, rfl⟩

theorem withMessage_sameBut {v : Int} {n : Nat} (hc : c ∈ d.chatIds) (hv : v ∈ d.userIds) :
    d.SameBut c (d.withMessage n hc hv).toTables :=
  ⟨rfl, rfl, rfl, by simp [withMessage], rfl, rfl, rfl, rfl⟩

theorem insertParticipant_sameBut (v a : Int) : d.SameBut c (d.exec m (.insertParticipant c v a)).2.toTables := by
  simp only [exec_tables, Tables.exec, Tables.insertParticipant]
  split
  · exact ⟨rfl, rfl, by simp, rfl, rfl, rfl, rfl, rfl⟩
  · exact ⟨rfl, rfl, rfl, rfl, rfl, rfl, rfl, rfl⟩

theorem memberIds_withoutParticipants : (d.withoutParticipants c).memberIds c = [] := by
  simp [withoutParticipants, Tables.memberIds, Tables.members]

end Db

/-- Two answers differ when their fields do. -/
theorem HandleAction.reply_inj {fs fs' : List (CString × Json)} {t t' : CString} {n n' : Int}
    (h : HandleAction.reply fs t n = HandleAction.reply fs' t' n') :
    fs = fs' ∧ Json.createNumber n = Json.createNumber n' := by
  simp only [HandleAction.reply, Json.addStringToObject, Json.addNumberToObject, Json.addItemToObject,
    Json.object.injEq] at h
  obtain ⟨h, hcode⟩ := List.append_inj' h rfl
  exact ⟨(List.append_inj' h rfl).1, by simpa using hcode⟩

/-! ## Sending a message -/

/-- A stored message is one more in the chat it was sent to. -/
theorem run_sendMessage_messagesOf {p : SendMessageParams} (hp : sendMessageParams query = some p)
    (hstore : d.Storable m p.message.sql) :
    (d.run m (sendMessage p.message)).1 = true ∧
      (d.run m (sendMessage p.message)).2.messagesOf p.chatId ≠ d.messagesOf p.chatId := by
  obtain ⟨r, rs, hread, hfit⟩ := hstore
  obtain ⟨hok, hmessages⟩ := run_sendMessage_stored hread hfit
  refine ⟨hok, fun hsame => ?_⟩
  simp [Tables.messagesOf, hmessages, Tables.newMessages, (messageRows_request hp hread).1] at hsame

theorem sendMessage_private_iff (hu : u ∉ d.memberIds c)
    (habout : ∀ p, sendMessageParams query = some p → p.chatId = c) :
    Private (fun d => d.run m (HandleAction.sendMessage query)) c u d ↔
      ∀ p, sendMessageParams query = some p → ∀ d', d.Alike c u d' → ¬ d'.Storable m p.message.sql := by
  cases hp : sendMessageParams query with
  | none =>
    have hrun : ∀ d : Db, d.run m (HandleAction.sendMessage query) =
        (HandleAction.reply [] "Parameter format invalid" 400, d) := fun d => by
      simp only [HandleAction.sendMessage, hp]
      rfl
    refine iff_of_true ⟨?_, ?_, fun d' _ => ?_⟩ (by simp) <;> simp only [hrun]
  | some p =>
    have hrun := run_sendMessage_params (m := m) hp
    obtain rfl := habout p hp
    simp only [Option.some.injEq, forall_eq']
    constructor
    · intro hpriv d' hd' hstore
      have hrefused : d.run m (sendMessage p.message) = (false, d) := run_sendMessage_refused fun hstore => by
        have hsame := hpriv.messages
        rw [hrun] at hsame
        exact (run_sendMessage_messagesOf hp hstore).2 hsame
      -- The one database answers 200, the other 400.
      have hreply := hpriv.reply d' hd'
      simp only [hrun, hrefused, (run_sendMessage_messagesOf hp hstore).1, if_true] at hreply
      exact absurd (HandleAction.reply_inj hreply).2 (by decide)
    · intro hno
      have hrefused : ∀ d' : Db, d.Alike p.chatId u d' → d'.run m (sendMessage p.message) = (false, d') :=
        fun d' hd' => run_sendMessage_refused (hno d' hd')
      have hd := hrefused d ⟨.refl, hu⟩
      exact {
        messages := by simp only [hrun, hd]
        participants := by simp only [hrun, hd]
        reply := fun d' hd' => by simp only [hrun, hd, hrefused d' hd'] }

/-- A message of strings that are read as they stand is refused if its sender is
nobody, or no id is left. -/
theorem harmless_sendMessage_iff {p : SendMessageParams} (hp : sendMessageParams query = some p)
    (hc : p.chatId ∈ d.chatIds) (hu : u ∉ d.memberIds c) (hx : SqlText.Verbatim p.message.content.bytes)
    (hy : SqlText.Verbatim p.message.messageType.bytes) :
    Harmless m un d c u query .sendMessage ↔ p.senderId ∉ d.userIds ∨ Json.INT_MAX < d.nextMessageId := by
  simp only [Harmless, hp, Option.some.injEq, forall_eq', storable_message_iff hp hx hy]
  constructor
  · intro h
    have hd := h d ⟨.refl, hu⟩
    by_contra hno
    rw [not_or, not_not, not_lt] at hno
    exact hd ⟨hc, hno⟩
  · rintro h d' ⟨hd', -⟩ ⟨-, hs, hid⟩
    rw [hd'.userIds] at hs
    rw [hd'.nextMessageId] at hid
    exact h.elim (fun h => h hs) fun h => by omega

/-! ## Reading messages -/

namespace Tables

variable {t : Tables}

/-- Every message has a sender, so every message of the time asked for is listed. -/
theorem Wf.listMessages_eq_nil (h : t.Wf) {since : Option CString} :
    t.listMessages m c since = [] ↔
      ∀ r ∈ t.messages, r.chatId = c → messageSince m r.createdAt since = false := by
  have hsome : ∀ r ∈ t.messages, t.listMessage m r ≠ none := fun r hr => by
    rw [listMessage, Option.ne_none_iff_isSome, Option.isSome_map]
    exact findUser_isSome (h.messages_sender r hr)
  simp only [listMessages, messagesOf, List.filterMap_eq_nil_iff, List.mem_filter, decide_eq_true_eq, and_imp]
  constructor
  · intro hall r hr hc
    by_contra hv
    exact hsome r hr (hall r hr hc (by simpa using hv))
  · intro hall r hr hc hv
    rw [hall r hr hc] at hv
    cases hv

end Tables

theorem HandleAction.messageJson_injective : Function.Injective HandleAction.messageJson := by
  rintro ⟨⟩ ⟨⟩ h
  simpa [HandleAction.messageJson, Json.createNumber] using h

/-- The answer shows the messages that were read, and no more. -/
theorem messagesAnswer_eq_iff {rows rows' : Option (List MessageListing)} :
    messagesAnswer rows' = messagesAnswer rows ↔
      rows'.map (·.map MessageListing.copy) = rows.map (·.map MessageListing.copy) := by
  cases rows with
  | none =>
    cases rows' with
    | none => simp
    | some rows' => exact iff_of_false (fun h => absurd (HandleAction.reply_inj h).2 (by decide)) (by simp)
  | some rows =>
    cases rows' with
    | none => exact iff_of_false (fun h => absurd (HandleAction.reply_inj h).2 (by decide)) (by simp)
    | some rows' =>
      simp only [messagesAnswer, Option.map_some, Option.some.injEq]
      refine ⟨fun h => ?_, fun h => by rw [h]⟩
      have hfields := (HandleAction.reply_inj h).1
      simp only [List.cons.injEq, Prod.mk.injEq, Json.array.injEq, true_and, and_true] at hfields
      exact HandleAction.messageJson_injective.list_map hfields

/-- The answer is the same exactly if the same messages are read. -/
theorem getChatMessages_answer_iff {since : Option CString} (hp : getChatMessagesParams query = some (c, since)) :
    (d'.run m (HandleAction.getChatMessages query)).1 = (d.run m (HandleAction.getChatMessages query)).1 ↔
      d'.readMessages m c since = d.readMessages m c since := by
  rw [run_getChatMessages_params hp, run_getChatMessages_params hp]
  exact messagesAnswer_eq_iff

/-- With a time that is read as it stands, the same messages are read of all
databases that an outsider should not tell apart only if none can be listed. -/
theorem readMessages_alike_iff {since : Option CString} (hc : c ∈ d.chatIds) (hu : u ∉ d.memberIds c)
    (hsince : ∀ time ∈ since, MessageSql.AsWritten c time) :
    (∀ d', d.Alike c u d' → d'.readMessages m c since = d.readMessages m c since) ↔
      d.users = [] ∨ ∀ n, Tables.messageSince m n since = false := by
  have hread : ∀ d : Db, d.readMessages m c since = some ((d.listMessages m c since).map MessageListing.copy) := by
    intro d
    rw [Tables.readMessages, Tables.selectMessages_asWritten hsince, Option.map_some]
  simp only [hread, Option.some.injEq]
  constructor
  · intro hall
    have hlen : ∀ d' : Db, d.Alike c u d' → (d'.listMessages m c since).length = (d.listMessages m c since).length := by
      intro d' hd'
      simpa using congrArg List.length (hall d' hd')
    by_contra hno
    rw [not_or] at hno
    obtain ⟨husers, hvisible⟩ := hno
    simp only [not_forall, Bool.not_eq_false] at hvisible
    obtain ⟨n, hn⟩ := hvisible
    obtain ⟨row, hrow⟩ := List.exists_mem_of_ne_nil _ husers
    have hv : row.userId ∈ d.userIds := Tables.mem_userIds.mpr ⟨row, hrow, rfl⟩
    by_cases hnil : d.listMessages m c since = []
    · -- One message more would be listed.
      have hmore := hlen (d.withMessage n hc hv) ⟨Db.withMessage_sameBut hc hv, hu⟩
      rw [hnil, List.length_nil, List.length_eq_zero_iff, (Db.wf _).listMessages_eq_nil] at hmore
      have := hmore _ List.mem_cons_self rfl
      rw [hn] at this
      cases this
    · -- Without messages none would be.
      have hless := hlen (d.withoutMessages c) ⟨Db.withoutMessages_sameBut, hu⟩
      have hnil' : (d.withoutMessages c).listMessages m c since = [] := by
        simp [Tables.listMessages, Tables.messagesOf, Db.withoutMessages]
      rw [hnil', List.length_nil] at hless
      exact hnil (List.length_eq_zero_iff.mp hless.symm)
  · intro hno
    have hnil : ∀ d' : Db, d.SameBut c d'.toTables → d'.listMessages m c since = [] := by
      intro d' hd'
      rw [d'.wf.listMessages_eq_nil]
      intro r hr _
      rcases hno with husers | hinvisible
      · obtain ⟨row, hrow, -⟩ := Tables.mem_userIds.mp (d'.wf.messages_sender r hr)
        simp [hd'.users, husers] at hrow
      · exact hinvisible _
    intro d' hd'
    rw [hnil d .refl, hnil d' hd'.same]

theorem getChatMessages_private_iff (hc : c ∈ d.chatIds) (hu : u ∉ d.memberIds c)
    (habout : ∀ p, getChatMessagesParams query = some p → p.1 = c) :
    Private (fun d => d.run m (HandleAction.getChatMessages query)) c u d ↔
      Harmless m un d c u query .getChatMessages := by
  rw [Harmless]
  cases hp : getChatMessagesParams query with
  | none =>
    have hrun : ∀ d : Db, d.run m (HandleAction.getChatMessages query) =
        (HandleAction.reply [] "Wrong format for the parameters" 400, d) := fun d => by
      simp only [HandleAction.getChatMessages, hp]
      rfl
    refine iff_of_true ⟨?_, ?_, fun d' _ => ?_⟩ (by simp) <;> simp only [hrun]
  | some p =>
    obtain ⟨c', since⟩ := p
    obtain rfl : c' = c := habout _ hp
    have hiff : Private (fun d => d.run m (HandleAction.getChatMessages query)) c' u d ↔
        ∀ d', d.Alike c' u d' → d'.readMessages m c' since = d.readMessages m c' since := by
      refine ⟨fun hpriv d' hd' => (getChatMessages_answer_iff hp).mp (hpriv.reply d' hd'), fun h => ?_⟩
      exact {
        messages := by rw [run_getChatMessages_params hp]
        participants := by rw [run_getChatMessages_params hp]
        reply := fun d' hd' => (getChatMessages_answer_iff hp).mpr (h d' hd') }
    simp only [Option.some.injEq, forall_eq']
    rw [hiff]
    split
    next hsince => exact readMessages_alike_iff hc hu hsince
    next => rfl

/-! ## Reading the participants -/

/-- The participants of a chat as `get_chat_info` lists them. -/
def Tables.listParticipants (t : Tables) (c : Int) : List ParticipantListing :=
  (t.members c).filterMap fun p => (t.findUser p.userId).map fun user => { user, isAdmin := p.isAdmin }

/-- Every participant is a user, so only a chat without any lists none. -/
theorem Tables.Wf.listParticipants_eq_nil {t : Tables} (h : t.Wf) :
    t.listParticipants c = [] ↔ t.memberIds c = [] := by
  rw [listParticipants, memberIds, List.filterMap_eq_nil_iff, List.map_eq_nil_iff, List.eq_nil_iff_forall_not_mem]
  refine forall₂_congr fun p hp => iff_false_intro fun hnone => ?_
  have hsome := findUser_isSome (h.participants_user p (List.mem_of_mem_filter hp))
  rw [Option.map_eq_none_iff] at hnone
  simp [hnone] at hsome

theorem run_getChatInfo_params {chat : ChatRow} (hchat : chat ∈ d.chats)
    (hp : getChatInfoParams query = some chat.chatId) :
    d.run m (HandleAction.getChatInfo query) =
      (HandleAction.reply [("chat_id", .createNumber chat.chatId), ("chat_name", .string chat.chatName),
          ("is_group", .createNumber chat.isGroup),
          ("participants", .array (((d.listParticipants chat.chatId).take MAX_PARTICIPANTS).map
            HandleAction.participantJson))]
        ("Chat info for ID " ++ CString.ofInt chat.chatId ++ " retrieved successfully") 200, d) := by
  obtain ⟨rs, hrs⟩ := d.wf.filter_chatId hchat
  have hans : (Tables.exec m (.selectChat chat.chatId) d.toTables).1 = some (chat :: rs) := congrArg some hrs
  have hans' : (Tables.exec m (.selectParticipants chat.chatId) d.toTables).1 =
      some (d.listParticipants chat.chatId) := rfl
  simp only [HandleAction.getChatInfo, hp, getChatInfo]
  rw [Db.run_bind, Db.run_query_bind _ hans]
  rfl

theorem getChatInfo_private_iff (hc : c ∈ d.chatIds) (hu : u ∉ d.memberIds c)
    (habout : ∀ c', getChatInfoParams query = some c' → c' = c) :
    Private (fun d => d.run m (HandleAction.getChatInfo query)) c u d ↔
      ∀ c, getChatInfoParams query = some c → ∀ v ∈ d.userIds, v = u := by
  obtain ⟨chat, hchat, rfl⟩ := Tables.mem_chatIds.mp hc
  cases hp : getChatInfoParams query with
  | none =>
    have hrun : ∀ d : Db, d.run m (HandleAction.getChatInfo query) =
        (HandleAction.reply [] "Invalid or missing chat_id" 400, d) := fun d => by
      simp only [HandleAction.getChatInfo, hp]
      rfl
    refine iff_of_true ⟨?_, ?_, fun d' _ => ?_⟩ (by simp) <;> simp only [hrun]
  | some c' =>
    obtain rfl := habout _ hp
    have hmem : ∀ d' : Db, d.SameBut chat.chatId d'.toTables → chat ∈ d'.chats := fun d' hd' => by
      rwa [hd'.chats]
    simp only [Option.some.injEq, forall_eq']
    constructor
    · intro hpriv v hv
      by_contra hvu
      -- The answers of two databases that differ in the chat show as many participants.
      have hlen : ∀ d' : Db, d.SameBut chat.chatId d'.toTables → u ∉ d'.memberIds chat.chatId →
          (d'.listParticipants chat.chatId = [] ↔ d.listParticipants chat.chatId = []) := by
        intro d' hd' hu'
        have hreply := hpriv.reply d' ⟨hd', hu'⟩
        simp only [run_getChatInfo_params hchat hp, run_getChatInfo_params (hmem d' hd') hp] at hreply
        have hfields := (HandleAction.reply_inj hreply).1
        simp only [List.cons.injEq, Prod.mk.injEq, Json.array.injEq, true_and, and_true] at hfields
        have hlen := congrArg List.length hfields
        simp only [List.length_map, List.length_take, MAX_PARTICIPANTS] at hlen
        rw [← List.length_eq_zero_iff, ← List.length_eq_zero_iff]
        omega
      by_cases hnil : d.memberIds chat.chatId = []
      · -- Somebody else could be in the chat.
        have hmems : ∀ w, w ∈ (d.exec m (.insertParticipant chat.chatId v 0)).2.memberIds chat.chatId ↔ w = v := by
          intro w
          rw [Db.exec_tables, Tables.exec, Tables.mem_insertParticipant]
          simp only [hnil, List.not_mem_nil, false_or, true_and]
          exact ⟨And.left, fun h => ⟨h, hc, hv⟩⟩
        have h := hlen _ (Db.insertParticipant_sameBut (m := m) v 0) fun hw => hvu ((hmems u).mp hw).symm
        rw [(Db.wf _).listParticipants_eq_nil, d.wf.listParticipants_eq_nil, hnil] at h
        have hin := (hmems v).mpr rfl
        rw [h.mpr rfl] at hin
        cases hin
      · -- Nobody could.
        have h := hlen (d.withoutParticipants chat.chatId) Db.withoutParticipants_sameBut
          (by simp [Db.memberIds_withoutParticipants])
        rw [(Db.wf _).listParticipants_eq_nil, d.wf.listParticipants_eq_nil, Db.memberIds_withoutParticipants] at h
        exact hnil (h.mp rfl)
    · intro hall
      have hnil : ∀ d' : Db, d.SameBut chat.chatId d'.toTables → u ∉ d'.memberIds chat.chatId →
          d'.listParticipants chat.chatId = [] := by
        intro d' hd' hu'
        rw [d'.wf.listParticipants_eq_nil, List.eq_nil_iff_forall_not_mem]
        intro w hw
        obtain ⟨p, hp, -, rfl⟩ := Tables.mem_memberIds.mp hw
        have := hall _ (hd'.userIds ▸ d'.wf.participants_user p hp)
        exact hu' (this ▸ hw)
      exact {
        messages := by rw [run_getChatInfo_params hchat hp]
        participants := by rw [run_getChatInfo_params hchat hp]
        reply := fun d' hd' => by
          rw [run_getChatInfo_params hchat hp, run_getChatInfo_params (hmem d' hd'.same) hp, hnil d .refl hu,
            hnil d' hd'.same hd'.outside] }

/-! ## Adding participants -/

theorem insertParticipant_true_iff {v a : Int} :
    (d.exec m (.insertParticipant c v a)).1 = true ↔ c ∈ d.chatIds ∧ v ∈ d.userIds ∧ v ∉ d.memberIds c := by
  have hrows : d.memberRows c v = [] ↔ v ∉ d.memberIds c := by
    rw [Tables.memberRows_eq_nil, Tables.mem_memberIds]
    simp
  simp only [Db.exec, Tables.exec, Tables.insertParticipant, hrows]
  split <;> simp_all

/-- The loop adds somebody exactly if the list names a user who is not in the chat. -/
theorem addEach_pos_iff (hc : c ∈ d.chatIds) (by_ : Int) (f : Int → Int) (us : List Int) :
    0 < (d.run m (addEach c by_ f us)).1 ↔ ∃ v ∈ us, v ∈ d.userIds ∧ v ∉ d.memberIds c := by
  induction us generalizing d with
  | nil => simp [addEach]
  | cons v us ih =>
    obtain ⟨d', hsame, husers, hrun⟩ := run_addEach_cons (m := m) (d := d) c by_ v f us
    rw [hrun]
    have hins := insertParticipant_true_iff (m := m) (d := d) (c := c) (v := v) (a := f v)
    by_cases hv : v ∈ d.userIds ∧ v ∉ d.memberIds c
    · rw [hins.mpr ⟨hc, hv⟩]
      exact iff_of_true (Nat.succ_pos _) ⟨v, List.mem_cons_self, hv⟩
    · -- A failed insert leaves the chat as it was for the rest of the list.
      have hno : (d.exec m (.insertParticipant c v (f v))).1 = false := by
        rw [← Bool.not_eq_true, hins]
        exact fun h => hv h.2
      have hids : d'.userIds = d.userIds := by rw [Tables.userIds, husers, Tables.userIds]
      have hchats : d'.chatIds = d.chatIds := by
        rw [hsame.chatIds, Db.exec_tables, Tables.exec, Tables.chatIds_eq_groups, Tables.groups_insertParticipant,
          Tables.chatIds_eq_groups]
      have hmem : ∀ w, w ∈ d'.memberIds c ↔ w ∈ d.memberIds c := by
        intro w
        rw [hsame.memberIds, Db.exec_tables, Tables.exec, Tables.mem_insertParticipant]
        refine ⟨fun h => h.elim id ?_, .inl⟩
        rintro ⟨-, rfl, -, hu⟩
        exact not_not.mp fun hw => hv ⟨hu, hw⟩
      rw [hno, Bool.toNat_false, Nat.add_zero, ih (hchats ▸ hc)]
      simp only [hids, hmem, List.exists_mem_cons_iff, hv, false_or]

/-- A list that names no user is added without effect. -/
theorem run_addEach_refused (by_ : Int) (f : Int → Int) {us : List Int} (h : ∀ v ∈ us, v ∉ d.userIds) :
    d.run m (addEach c by_ f us) = (0, d) := by
  induction us with
  | nil => rfl
  | cons v us ih =>
    have hexec : Tables.exec m (.insertParticipant c v (f v)) d.toTables = (false, d.toTables) := by
      simp only [Tables.exec, Tables.insertParticipant]
      rw [if_neg fun hok => h v List.mem_cons_self hok.2.1]
    have hno : (d.exec m (.insertParticipant c v (f v))).1 = false := congrArg Prod.fst hexec
    have hd : (d.exec m (.insertParticipant c v (f v))).2 = d := Db.ext (congrArg Prod.snd hexec)
    simp only [addEach, Db.run_bind, Db.run_addToChat, hno, hd]
    exact ih fun w hw => h w (List.mem_cons_of_mem _ hw)

theorem addToGroupChat_private_iff (hc : c ∈ d.chatIds)
    (habout : ∀ p, addToGroupChatParams query = some p → p.chatId = c) :
    Private (fun d => d.run m (HandleAction.addToGroupChat un query)) c u d ↔
      ∀ p, addToGroupChatParams query = some p →
        ∀ v ∈ copyIds un.participants 0 p.participantIds, v ∉ d.userIds := by
  cases hp : addToGroupChatParams query with
  | none =>
    have hrun : ∀ d : Db, d.run m (HandleAction.addToGroupChat un query) =
        (HandleAction.Uninit.reply un, d) := fun d => by
      simp only [HandleAction.addToGroupChat, hp]
      rfl
    refine iff_of_true ⟨?_, ?_, fun d' _ => ?_⟩ (by simp) <;> simp only [hrun]
  | some p =>
    obtain rfl := habout p hp
    simp only [Option.some.injEq, forall_eq']
    constructor
    · intro hpriv v hv hvu
      -- Whoever is listed is in the chat already, since nobody joins it.
      have hin : ∀ w ∈ copyIds un.participants 0 p.participantIds, w ∈ d.userIds → w ∈ d.memberIds p.chatId := by
        intro w hw hwu
        have hsame := hpriv.participants
        rw [run_addToGroupChat un hp] at hsame
        rw [Tables.memberIds, ← hsame]
        exact ((addEach_members p.chatId p.addedBy (fun _ => 0) _).2 _ w).mpr (.inr ⟨rfl, hw, hc, hwu⟩)
      have hnone : ¬ 0 < (d.run m (addEach p.chatId p.addedBy (fun _ => 0)
          (copyIds un.participants 0 p.participantIds))).1 := by
        rw [addEach_pos_iff hc]
        rintro ⟨w, hw, hwu, hwin⟩
        exact hwin (hin w hw hwu)
      -- In the chat without participants the same list would be added.
      have hsome : 0 < ((d.withoutParticipants p.chatId).run m (addEach p.chatId p.addedBy (fun _ => 0)
          (copyIds un.participants 0 p.participantIds))).1 := by
        rw [addEach_pos_iff (d := d.withoutParticipants p.chatId) hc, Db.memberIds_withoutParticipants]
        exact ⟨v, hv, hvu, List.not_mem_nil⟩
      have hreply := hpriv.reply (d.withoutParticipants p.chatId)
        ⟨Db.withoutParticipants_sameBut, by simp [Db.memberIds_withoutParticipants]⟩
      simp only [run_addToGroupChat un hp, if_pos hsome, if_neg hnone] at hreply
      exact absurd (HandleAction.reply_inj hreply).2 (by decide)
    · intro hno
      have hrun : ∀ d' : Db, d.SameBut p.chatId d'.toTables →
          d'.run m (addEach p.chatId p.addedBy (fun _ => 0) (copyIds un.participants 0 p.participantIds)) =
            (0, d') := fun d' hd' =>
        run_addEach_refused _ _ (by rwa [hd'.userIds])
      have hd := hrun d .refl
      exact {
        messages := by simp only [run_addToGroupChat un hp, hd]
        participants := by simp only [run_addToGroupChat un hp, hd]
        reply := fun d' hd' => by simp only [run_addToGroupChat un hp, hd, hrun d' hd'.same] }

/-! ## Both servers -/

variable {env : Env} {now : Int} {raw : CString} {json : Json} {a a₀ : Action}

/-- Carol asks who is in chat 1. -/
def infoText : CString := "\x7b\"action\":9,\"chat_id\":1,\"token\":\"t4\"\x7d"

@[inherit_doc infoText]
def infoJson : Json :=
  .object [("action", .createNumber 9), ("chat_id", .createNumber 1), ("token", .string "t4")]

def infoEnv : Env := Env.ofTables [(infoText, infoJson)] [("t4", { exp := 0, userId := 4 })]

/-- Alice writes to Bob. -/
def directChat : List Call := [.createChat 2 false [3]]

theorem infoJson_isRequest : IsRequest infoEnv infoText infoJson .getChatInfo where
  parse := rfl
  action := ⟨9, rfl, rfl⟩
  fields := by decide

theorem infoJson_authorised : Authorised infoEnv 0 infoJson 4 := ⟨"t4", rfl, rfl⟩

end FinalServer
