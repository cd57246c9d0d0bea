/-
The arrays that rows are fetched into (`chat_manager.c`).

`get_chats` and the participants of `get_chat_info` stop when their array is
full; `get_chat_messages` does not look. Here the loops write slot after slot
and the callers in `data_server.c` walk what they are told was written; the
replies are `HandleAction`'s (`getChatsArray_run` and the others).
-/
import FinalServer.HandleAction
import FinalServer.LocalArray

namespace FinalServer

/-- A function of the data server with an array of `V`. -/
abbrev SlotsProg (V : Type) (α : Type) := ArrayProg Query Query.Result V α

variable {V ρ : Type}

def readSlot (i : Nat) : SlotsProg V V := Prog.stmt (ArrayOp.read i)

def writeSlot (i : Nat) (x : V) : SlotsProg V PUnit := Prog.stmt (ArrayOp.write i x)

/-- `mysql_query` and `mysql_store_result`; the rows are then fetched one by one. -/
def storeResult (q : Query) : SlotsProg V q.Result := (mysqlQuery q).lift

/-! ## Text in a `Message` -/

/-- `strncpy(d, s, size - 1); d[size - 1] = '\0'`: what is left of the buffer is filled with NULs. -/
def strncpyTerminated (size : Nat) (s : CString) : List UInt8 :=
  s.bytes.take (size - 1) ++ List.replicate (size - 1 - s.length) 0 ++ [0]

/-- A buffer of `size` bytes holds a column, or as much of it as leaves room for the NUL. -/
structure TextCopy (size : Nat) (column : CString) (buffer : List UInt8) : Prop where
  length : buffer.length = size
  terminated : 0 ∈ buffer
  text : CString.ofBytes buffer = column.take (size - 1)

theorem ofBytes_append_zero (s : CString) (rest : List UInt8) : CString.ofBytes (s.bytes ++ 0 :: rest) = s := by
  ext1
  have hall : ∀ b ∈ s.bytes, (b != 0) = true := by
    intro b hb
    rw [bne_iff_ne]
    rintro rfl
    exact s.noNul hb
  show (s.bytes ++ 0 :: rest).takeWhile (· != 0) = s.bytes
  rw [List.takeWhile_append_of_pos hall, List.takeWhile_cons_of_neg (by simp), List.append_nil]

theorem strncpyTerminated_textCopy {size : Nat} (hsize : 0 < size) (s : CString) :
    TextCopy size s (strncpyTerminated size s) where
  length := by
    simp only [strncpyTerminated, List.length_append, List.length_take, List.length_replicate, List.length_singleton,
      CString.length]
    omega
  terminated := by simp [strncpyTerminated]
  text := by
    -- The first NUL comes right after the text, from the filling or the terminator.
    obtain ⟨rest, hrest⟩ : ∃ rest, List.replicate (size - 1 - s.length) 0 ++ [0] = (0 : UInt8) :: rest := by
      cases size - 1 - s.length with
      | zero => exact ⟨[], rfl⟩
      | succ n => exact ⟨List.replicate n 0 ++ [0], rfl⟩
    rw [strncpyTerminated, List.append_assoc, hrest]
    exact ofBytes_append_zero (s.take (size - 1)) rest

/-- A `Message` of the array. -/
structure MessageSlot where
  messageId : Int
  senderId : Int
  senderUsername : List UInt8
  content : List UInt8
  messageType : List UInt8
  createdAt : List UInt8

def MessageSlot.ofListing (row : MessageListing) : MessageSlot where
  messageId := row.messageId
  senderId := row.senderId
  senderUsername := strncpyTerminated MAX_USERNAME_LENGTH row.senderUsername
  content := strncpyTerminated MAX_CONTENT_LENGTH row.content
  messageType := strncpyTerminated MAX_TYPE_LENGTH row.messageType
  createdAt := strncpyTerminated MAX_TIMESTAMP_LENGTH row.createdAt

/-- The slot as the caller reads it. -/
def MessageSlot.read (m : MessageSlot) : MessageListing where
  messageId := m.messageId
  senderId := m.senderId
  senderUsername := .ofBytes m.senderUsername
  content := .ofBytes m.content
  messageType := .ofBytes m.messageType
  createdAt := .ofBytes m.createdAt

/-- A slot has the numbers of a row, and its texts as far as they fit. -/
structure MessageSlot.Copies (row : MessageListing) (m : MessageSlot) : Prop where
  ids : m.messageId = row.messageId ∧ m.senderId = row.senderId
  senderUsername : TextCopy MAX_USERNAME_LENGTH row.senderUsername m.senderUsername
  content : TextCopy MAX_CONTENT_LENGTH row.content m.content
  messageType : TextCopy MAX_TYPE_LENGTH row.messageType m.messageType
  createdAt : TextCopy MAX_TIMESTAMP_LENGTH row.createdAt m.createdAt

theorem MessageSlot.ofListing_copies (row : MessageListing) : MessageSlot.Copies row (.ofListing row) where
  ids := ⟨rfl, rfl⟩
  senderUsername := strncpyTerminated_textCopy (by decide) _
  content := strncpyTerminated_textCopy (by decide) _
  messageType := strncpyTerminated_textCopy (by decide) _
  createdAt := strncpyTerminated_textCopy (by decide) _

theorem MessageSlot.read_ofListing (row : MessageListing) : (MessageSlot.ofListing row).read = row.copy := by
  have h := MessageSlot.ofListing_copies row
  simp only [read, MessageListing.copy, h.senderUsername.text, h.content.text, h.messageType.text, h.createdAt.text]
  rfl

/-! ## The loops -/

/-- `while ((row = mysql_fetch_row(res)) != NULL && count < limit)`. -/
def fetchLoop (limit : Nat) (fill : ρ → V) : List ρ → Nat → SlotsProg V Nat
  | [], count => return count
  | row :: rows, count => do
    if count < limit then
      writeSlot count (fill row)
      fetchLoop limit fill rows (count + 1)
    else return count

/-- The loop of `get_chat_messages`, which ends with the rows. -/
def messageLoop : List MessageListing → Nat → SlotsProg MessageSlot Nat
  | [], count => return count
  | row :: rows, count => do
    writeSlot count (.ofListing row)
    messageLoop rows (count + 1)

def getChatsArray (userId : Int) (since : Option CString) : SlotsProg Chat (Option Nat) := do
  match ← storeResult (.selectChats userId since) with
  | some rows => return some (← fetchLoop MAX_CHATS Chat.ofListing rows 0)
  | none => return none

def getChatMessagesArray (chatId : Int) (since : Option CString) : SlotsProg MessageSlot (Option Nat) := do
  match ← storeResult (.selectMessages chatId since) with
  | some rows => return some (← messageLoop rows 0)
  | none => return none

/-- The chat and `*participant_count`. -/
def getChatInfoArray (chatId : Int) : SlotsProg ParticipantListing (Option (ChatRow × Nat)) := do
  match ← storeResult (.selectChat chatId) with
  | some (chat :: _) =>
    match ← storeResult (.selectParticipants chatId) with
    | some rows => return some (chat, ← fetchLoop MAX_PARTICIPANTS id rows 0)
    | none => return none
  | _ => return none

/-! ## What the loops write -/

section Loops

variable {σ : Type*} {exec : (q : Query) → σ → q.Result × σ} {a : Nat → V} {s : σ}

@[simp] theorem readSlot_run (i : Nat) : (readSlot i).onArray exec (a, s) = (a i, a, s) := rfl

@[simp] theorem writeSlot_run (i : Nat) (x : V) :
    (writeSlot i x).onArray exec (a, s) = (⟨⟩, Function.update a i x, s) := rfl

@[simp] theorem storeResult_run (q : Query) :
    (storeResult q).onArray exec (a, s) = ((exec q s).1, a, (exec q s).2) := rfl

theorem mysqlQuery_run (q : Query) (s : σ) : (mysqlQuery q).run exec s = exec q s := rfl

@[simp] theorem storeResult_accesses (q : Query) (t : (Nat → V) × σ) : (storeResult q).accesses exec t = [] := rfl

/-- So many rows as there is room for, one slot after the other. -/
theorem fetchLoop_run (exec : (q : Query) → σ → q.Result × σ) (s : σ) (limit : Nat) (fill : ρ → V) (rows : List ρ)
    (count : Nat) (a : Nat → V) :
    ∃ a', (fetchLoop limit fill rows count).onArray exec (a, s) =
        (count + min rows.length (limit - count), a', s) ∧
      (∀ j < count, a' j = a j) ∧
      ∀ i row, (rows.take (limit - count))[i]? = some row → a' (count + i) = fill row := by
  induction rows generalizing count a with
  | nil => exact ⟨a, by simp [fetchLoop], fun _ _ => rfl, by simp⟩
  | cons row rows ih =>
    rw [fetchLoop]
    by_cases hcount : count < limit
    · have hroom : limit - count = limit - (count + 1) + 1 := by omega
      obtain ⟨a', hrun, hold, hnew⟩ := ih (count + 1) (Function.update a count (fill row))
      refine ⟨a', ?_, fun j hj => ?_, fun i r hr => ?_⟩
      · rw [if_pos hcount, Prog.onArray_bind, writeSlot_run]
        refine hrun.trans ?_
        rw [List.length_cons]
        congr 1
        omega
      · rw [hold j (by omega), Function.update_of_ne (by omega)]
      · rw [hroom, List.take_succ_cons] at hr
        cases i with
        | zero =>
          obtain rfl := Option.some.inj hr
          rw [Nat.add_zero, hold count (by omega), Function.update_self]
        | succ i =>
          rw [Nat.add_comm i 1, ← Nat.add_assoc]
          exact hnew i r hr
    · refine ⟨a, ?_, fun _ _ => rfl, fun i r hr => ?_⟩
      · rw [if_neg hcount, Nat.sub_eq_zero_of_le (by omega), Nat.min_zero]
        rfl
      · rw [Nat.sub_eq_zero_of_le (by omega)] at hr
        simp at hr

theorem fetchLoop_below (limit : Nat) (fill : ρ → V) (rows : List ρ) (count : Nat) :
    Prog.Only (ArrayOp.Below limit) (fetchLoop limit fill rows count) := by
  induction rows generalizing count with
  | nil => exact .ret _
  | cons row rows ih =>
    rw [fetchLoop]
    split
    next hcount => exact .call (fun i hi => by cases hi; exact hcount) fun _ => ih (count + 1)
    next => exact .ret _

/-- With room for all rows the loop that does not look is one that does. -/
theorem messageLoop_eq {limit : Nat} {rows : List MessageListing} {count : Nat} (h : count + rows.length ≤ limit) :
    messageLoop rows count = fetchLoop limit .ofListing rows count := by
  induction rows generalizing count with
  | nil => rfl
  | cons row rows ih =>
    rw [List.length_cons] at h
    rw [messageLoop, fetchLoop, if_pos (by omega)]
    exact Prog.bind_congr fun _ => ih (by omega)

/-- It writes a slot for every row. -/
theorem messageLoop_writes (rows : List MessageListing) (count : Nat) (t : (Nat → MessageSlot) × σ) {j : Nat}
    (hlo : count ≤ j) (hhi : j < count + rows.length) : j ∈ (messageLoop rows count).accesses exec t := by
  induction rows generalizing count t with
  | nil =>
    rw [List.length_nil] at hhi
    omega
  | cons row rows ih =>
    rw [messageLoop, Prog.accesses_bind, List.mem_append]
    by_cases hj : j = count
    · exact .inl (List.mem_singleton.mpr hj)
    · rw [List.length_cons] at hhi
      exact .inr (ih (count + 1) _ (by omega) (by omega))

theorem getChatsArray_none {userId : Int} {since : Option CString} (h : (exec (.selectChats userId since) s).1 = none)
    {a : Nat → Chat} : (getChatsArray userId since).onArray exec (a, s) =
      (none, a, (exec (.selectChats userId since) s).2) := by
  rw [getChatsArray, Prog.onArray_bind, storeResult_run]
  dsimp only
  rw [h]
  rfl

theorem getChatsArray_some {userId : Int} {since : Option CString} {rows : List ChatListing}
    (h : (exec (.selectChats userId since) s).1 = some rows) (a : Nat → Chat) :
    ∃ a', (getChatsArray userId since).onArray exec (a, s) =
        (some (min rows.length MAX_CHATS), a', (exec (.selectChats userId since) s).2) ∧
      ∀ i row, (rows.take MAX_CHATS)[i]? = some row → a' i = Chat.ofListing row := by
  obtain ⟨a', hrun, -, hnew⟩ :=
    fetchLoop_run exec (exec (.selectChats userId since) s).2 MAX_CHATS Chat.ofListing rows 0 a
  simp only [Nat.zero_add, Nat.sub_zero] at hrun hnew
  refine ⟨a', ?_, hnew⟩
  rw [getChatsArray, Prog.onArray_bind, storeResult_run]
  dsimp only
  rw [h]
  simp only [Prog.onArray_bind, hrun]
  rfl

theorem getChatMessagesArray_none {chatId : Int} {since : Option CString}
    (h : (exec (.selectMessages chatId since) s).1 = none) {a : Nat → MessageSlot} :
    (getChatMessagesArray chatId since).onArray exec (a, s) =
      (none, a, (exec (.selectMessages chatId since) s).2) := by
  rw [getChatMessagesArray, Prog.onArray_bind, storeResult_run]
  dsimp only
  rw [h]
  rfl

theorem getChatMessagesArray_some {chatId : Int} {since : Option CString} {rows : List MessageListing}
    (h : (exec (.selectMessages chatId since) s).1 = some rows) (a : Nat → MessageSlot) :
    ∃ a', (getChatMessagesArray chatId since).onArray exec (a, s) =
        (some rows.length, a', (exec (.selectMessages chatId since) s).2) ∧
      ∀ i row, rows[i]? = some row → a' i = MessageSlot.ofListing row := by
  obtain ⟨a', hrun, -, hnew⟩ :=
    fetchLoop_run exec (exec (.selectMessages chatId since) s).2 rows.length MessageSlot.ofListing rows 0 a
  simp only [Nat.zero_add, Nat.sub_zero, Nat.min_self, List.take_length] at hrun hnew
  refine ⟨a', ?_, hnew⟩
  rw [getChatMessagesArray, Prog.onArray_bind, storeResult_run]
  dsimp only
  rw [h]
  simp only [messageLoop_eq (Nat.le_of_eq (Nat.zero_add rows.length)), Prog.onArray_bind, hrun]
  rfl

theorem getChatInfoArray_some {chatId : Int} {chat : ChatRow} {more : List ChatRow} {rows : List ParticipantListing}
    (hchat : (exec (.selectChat chatId) s).1 = some (chat :: more))
    (h : (exec (.selectParticipants chatId) (exec (.selectChat chatId) s).2).1 = some rows)
    (a : Nat → ParticipantListing) :
    ∃ a', (getChatInfoArray chatId).onArray exec (a, s) =
        (some (chat, min rows.length MAX_PARTICIPANTS), a',
          (exec (.selectParticipants chatId) (exec (.selectChat chatId) s).2).2) ∧
      ∀ i row, (rows.take MAX_PARTICIPANTS)[i]? = some row → a' i = row := by
  obtain ⟨a', hrun, -, hnew⟩ := fetchLoop_run exec
    (exec (.selectParticipants chatId) (exec (.selectChat chatId) s).2).2 MAX_PARTICIPANTS id rows 0 a
  simp only [Nat.zero_add, Nat.sub_zero] at hrun hnew
  refine ⟨a', ?_, hnew⟩
  rw [getChatInfoArray, Prog.onArray_bind, storeResult_run]
  dsimp only
  rw [hchat]
  dsimp only
  rw [Prog.onArray_bind, storeResult_run]
  dsimp only
  rw [h]
  simp only [Prog.onArray_bind, hrun]
  rfl

theorem getChatInfoArray_noChat {chatId : Int}
    (hchat : ∀ chat more, (exec (.selectChat chatId) s).1 ≠ some (chat :: more)) {a : Nat → ParticipantListing} :
    (getChatInfoArray chatId).onArray exec (a, s) = (none, a, (exec (.selectChat chatId) s).2) := by
  rw [getChatInfoArray, Prog.onArray_bind, storeResult_run]
  dsimp only
  split
  next chat more h => exact absurd h (hchat chat more)
  next => rfl

theorem getChatInfo_noChat {chatId : Int}
    (hchat : ∀ chat more, (exec (.selectChat chatId) s).1 ≠ some (chat :: more)) :
    (getChatInfo chatId).run exec s = (none, (exec (.selectChat chatId) s).2) := by
  rw [getChatInfo, Prog.run_bind]
  split
  next chat more h => exact absurd h (hchat chat more)
  next => rfl

section Participants

variable {chatId : Int} {chat : ChatRow} {more : List ChatRow}

theorem getChatInfoArray_noParticipants (hchat : (exec (.selectChat chatId) s).1 = some (chat :: more))
    (h : (exec (.selectParticipants chatId) (exec (.selectChat chatId) s).2).1 = none) {a : Nat → ParticipantListing} :
    (getChatInfoArray chatId).onArray exec (a, s) =
      (none, a, (exec (.selectParticipants chatId) (exec (.selectChat chatId) s).2).2) := by
  rw [getChatInfoArray, Prog.onArray_bind, storeResult_run]
  dsimp only
  rw [hchat]
  dsimp only
  rw [Prog.onArray_bind, storeResult_run]
  dsimp only
  rw [h]
  rfl

theorem getChatInfo_noParticipants (hchat : (exec (.selectChat chatId) s).1 = some (chat :: more))
    (h : (exec (.selectParticipants chatId) (exec (.selectChat chatId) s).2).1 = none) :
    (getChatInfo chatId).run exec s =
      (none, (exec (.selectParticipants chatId) (exec (.selectChat chatId) s).2).2) := by
  rw [getChatInfo, Prog.run_bind, mysqlQuery_run, hchat]
  dsimp only
  rw [Prog.run_bind, mysqlQuery_run, h]
  rfl

theorem getChatInfo_some {rows : List ParticipantListing}
    (hchat : (exec (.selectChat chatId) s).1 = some (chat :: more))
    (h : (exec (.selectParticipants chatId) (exec (.selectChat chatId) s).2).1 = some rows) :
    (getChatInfo chatId).run exec s = (some (chat, rows.take MAX_PARTICIPANTS),
      (exec (.selectParticipants chatId) (exec (.selectChat chatId) s).2).2) := by
  rw [getChatInfo, Prog.run_bind, mysqlQuery_run, hchat]
  dsimp only
  rw [Prog.run_bind, mysqlQuery_run, h]
  rfl

end Participants

theorem getChats_none {userId : Int} {since : Option CString} (h : (exec (.selectChats userId since) s).1 = none) :
    (getChats userId since).run exec s = (none, (exec (.selectChats userId since) s).2) := by
  rw [getChats, Prog.run_bind, mysqlQuery_run, h]
  rfl

theorem getChats_some {userId : Int} {since : Option CString} {rows : List ChatListing}
    (h : (exec (.selectChats userId since) s).1 = some rows) : (getChats userId since).run exec s =
      (some ((rows.take MAX_CHATS).map Chat.ofListing), (exec (.selectChats userId since) s).2) := by
  rw [getChats, Prog.run_bind, mysqlQuery_run, h]
  rfl

theorem getChatMessages_none {chatId : Int} {since : Option CString}
    (h : (exec (.selectMessages chatId since) s).1 = none) :
    (getChatMessages chatId since).run exec s = (none, (exec (.selectMessages chatId since) s).2) := by
  rw [getChatMessages, Prog.run_bind, mysqlQuery_run, h]
  rfl

theorem getChatMessages_some {chatId : Int} {since : Option CString} {rows : List MessageListing}
    (h : (exec (.selectMessages chatId since) s).1 = some rows) : (getChatMessages chatId since).run exec s =
      (some (rows.map MessageListing.copy), (exec (.selectMessages chatId since) s).2) := by
  rw [getChatMessages, Prog.run_bind, mysqlQuery_run, h]
  rfl

end Loops

/-! ## The callers -/

namespace HandleAction

/-- `for (int i = 0; i < count; i++)`, with what is made of a slot. -/
def walkLoop (render : V → Json) : Nat → Nat → SlotsProg V (List Json)
  | 0, _ => return []
  | turns + 1, i => do
    let slot ← readSlot i
    let rest ← walkLoop render turns (i + 1)
    return render slot :: rest

def getChatsArray (json : Json) : SlotsProg Chat Json := do
  match getChatsParams json with
  | some (userId, since) =>
    match ← FinalServer.getChatsArray userId since with
    | some chatCount =>
      let chats ← walkLoop chatJson chatCount 0
      return reply [("chats_array", .array chats)] (CString.ofInt chatCount ++ " chats succesfully retreived") 200
    | none => return reply [] "Chats couldn't be retreived" 400
  | none => return reply [] "Wrong format for the parameters" 400

def getChatMessagesArray (json : Json) : SlotsProg MessageSlot Json := do
  match getChatMessagesParams json with
  | some (chatId, since) =>
    match ← FinalServer.getChatMessagesArray chatId since with
    | some messageCount =>
      let messages ← walkLoop (fun m => messageJson m.read) messageCount 0
      return reply [("messages_array", .array messages)]
        (CString.ofInt messageCount ++ " messages succesfully retreived") 200
    | none => return reply [] "Messages couldn't be retreived" 400
  | none => return reply [] "Wrong format for the parameters" 400

def getChatInfoArray (json : Json) : SlotsProg ParticipantListing Json := do
  match getChatInfoParams json with
  | some chatId =>
    match ← FinalServer.getChatInfoArray chatId with
    | some (chat, participantCount) =>
      let participants ← walkLoop participantJson participantCount 0
      return reply [("chat_id", .createNumber chat.chatId), ("chat_name", .string chat.chatName),
          ("is_group", .createNumber chat.isGroup), ("participants", .array participants)]
        ("Chat info for ID " ++ CString.ofInt chatId ++ " retrieved successfully") 200
    | none => return reply [] ("Could not retrieve info for chat ID " ++ CString.ofInt chatId) 400
  | none => return reply [] "Invalid or missing chat_id" 400

section Run

variable {σ : Type*} {exec : (q : Query) → σ → q.Result × σ} {a : Nat → V} {s : σ}

theorem walkLoop_run (render : V → Json) (turns i : Nat) :
    (walkLoop render turns i).onArray exec (a, s) = ((List.range' i turns).map fun j => render (a j), a, s) := by
  induction turns generalizing i with
  | zero => rfl
  | succ turns ih =>
    rw [walkLoop, Prog.onArray_bind, readSlot_run, Prog.onArray_bind, ih]
    rfl

theorem map_filled {fill : ρ → V} {rows : List ρ} (limit : Nat) (render : V → Json)
    (h : ∀ i row, (rows.take limit)[i]? = some row → a i = fill row) :
    ((List.range' 0 (min rows.length limit)).map fun j => render (a j)) = ((rows.take limit).map fill).map render := by
  refine List.ext_getElem (by simp [Nat.min_comm]) fun i hi _ => ?_
  have hlt : i < (rows.take limit).length := by
    simp only [List.length_map, List.length_range'] at hi
    rw [List.length_take, Nat.min_comm]
    exact hi
  simp only [List.getElem_map, List.getElem_range', Nat.zero_add, Nat.one_mul]
  rw [h i _ (List.getElem?_eq_getElem hlt)]

theorem getChatsArray_run (json : Json) (a : Nat → Chat) :
    let r := (getChatsArray json).onArray exec (a, s)
    (r.1, r.2.2) = (getChats json).run exec s := by
  cases hp : getChatsParams json with
  | none =>
    simp only [getChatsArray, getChats, hp]
    rfl
  | some p =>
    obtain ⟨userId, since⟩ := p
    simp only [getChatsArray, getChats, hp, Prog.onArray_bind, Prog.run_bind]
    cases h : (exec (.selectChats userId since) s).1 with
    | none =>
      rw [getChatsArray_none h, getChats_none h]
      rfl
    | some rows =>
      obtain ⟨a', hrun, hnew⟩ := getChatsArray_some h a
      have hmap := map_filled MAX_CHATS chatJson hnew
      rw [hrun, getChats_some h]
      simp only [Prog.onArray_bind, walkLoop_run, hmap, List.length_map, List.length_take, Nat.min_comm MAX_CHATS]
      rfl

theorem getChatMessagesArray_run (json : Json) (a : Nat → MessageSlot) :
    let r := (getChatMessagesArray json).onArray exec (a, s)
    (r.1, r.2.2) = (getChatMessages json).run exec s := by
  cases hp : getChatMessagesParams json with
  | none =>
    simp only [getChatMessagesArray, getChatMessages, hp]
    rfl
  | some p =>
    obtain ⟨chatId, since⟩ := p
    simp only [getChatMessagesArray, getChatMessages, hp, Prog.onArray_bind, Prog.run_bind]
    cases h : (exec (.selectMessages chatId since) s).1 with
    | none =>
      rw [getChatMessagesArray_none h, getChatMessages_none h]
      rfl
    | some rows =>
      obtain ⟨a', hrun, hnew⟩ := getChatMessagesArray_some h a
      have hmap := map_filled rows.length (fun m : MessageSlot => messageJson m.read) (by rwa [List.take_length])
      rw [Nat.min_self, List.take_length, List.map_map] at hmap
      have hread : ((fun m => messageJson (MessageSlot.read m)) ∘ MessageSlot.ofListing) =
          messageJson ∘ MessageListing.copy :=
        funext fun row => congrArg messageJson (MessageSlot.read_ofListing row)
      rw [hrun, getChatMessages_some h]
      simp only [Prog.onArray_bind, walkLoop_run, hmap, hread, List.length_map, List.map_map]
      rfl

theorem getChatInfoArray_run (json : Json) (a : Nat → ParticipantListing) :
    let r := (getChatInfoArray json).onArray exec (a, s)
    (r.1, r.2.2) = (getChatInfo json).run exec s := by
  cases hp : getChatInfoParams json with
  | none =>
    simp only [getChatInfoArray, getChatInfo, hp]
    rfl
  | some chatId =>
    simp only [getChatInfoArray, getChatInfo, hp, Prog.onArray_bind, Prog.run_bind]
    rcases hchat : (exec (.selectChat chatId) s).1 with _ | _ | ⟨chat, more⟩
    · rw [getChatInfoArray_noChat (by simp [hchat]), getChatInfo_noChat (by simp [hchat])]
      rfl
    · rw [getChatInfoArray_noChat (by simp [hchat]), getChatInfo_noChat (by simp [hchat])]
      rfl
    cases h : (exec (.selectParticipants chatId) (exec (.selectChat chatId) s).2).1 with
    | none =>
      rw [getChatInfoArray_noParticipants hchat h, getChatInfo_noParticipants hchat h]
      rfl
    | some rows =>
      obtain ⟨a', hrun, hnew⟩ := getChatInfoArray_some hchat h a
      have hnew : ∀ i row, (rows.take MAX_PARTICIPANTS)[i]? = some row → a' i = id row := hnew
      have hmap := map_filled MAX_PARTICIPANTS participantJson hnew
      rw [List.map_id] at hmap
      rw [hrun, getChatInfo_some hchat h]
      simp only [Prog.onArray_bind, walkLoop_run, hmap]
      rfl

end Run

end HandleAction

/-! ## What is fetched -/

section Fetched

variable {σ : Type*}

/-- A function has fetched rows into its array: it has touched slots below the
limit only, and the rows that there is room for are counted and copied. -/
structure Fetched {α : Type} (exec : (q : Query) → σ → q.Result × σ) (limit : Nat) (rows : List ρ)
    (Copies : ρ → V → Prop) (count : α → Option Nat) (p : SlotsProg V α) (t : (Nat → V) × σ) : Prop where
  inBounds : ∀ i ∈ p.accesses exec t, i < limit
  count : count (p.onArray exec t).1 = some (min rows.length limit)
  contents : ∀ i row, (rows.take limit)[i]? = some row → Copies row ((p.onArray exec t).2.1 i)

variable {exec : (q : Query) → σ → q.Result × σ} {s : σ}

theorem getChatsArray_fetched {userId : Int} {since : Option CString} {rows : List ChatListing}
    (h : (exec (.selectChats userId since) s).1 = some rows) (chats : Nat → Chat) :
    Fetched exec MAX_CHATS rows (fun row chat => chat = .ofListing row) id (getChatsArray userId since) (chats, s) := by
  obtain ⟨a', hrun, hnew⟩ := getChatsArray_some h chats
  have hbelow : Prog.Only (ArrayOp.Below MAX_CHATS) (getChatsArray userId since) := by
    refine .bind (Prog.only_lift _) fun r => ?_
    split
    · exact .bind (fetchLoop_below _ _ _ _) fun _ => .ret _
    · exact .ret _
  exact ⟨hbelow.accesses_lt, by rw [hrun]; rfl, by rwa [hrun]⟩

theorem getChatInfoArray_fetched {chatId : Int} {chat : ChatRow} {more : List ChatRow} {rows : List ParticipantListing}
    (hchat : (exec (.selectChat chatId) s).1 = some (chat :: more))
    (h : (exec (.selectParticipants chatId) (exec (.selectChat chatId) s).2).1 = some rows)
    (participants : Nat → ParticipantListing) :
    Fetched exec MAX_PARTICIPANTS rows (fun row user => user = row) (Option.map Prod.snd) (getChatInfoArray chatId)
      (participants, s) := by
  obtain ⟨a', hrun, hnew⟩ := getChatInfoArray_some hchat h participants
  have hbelow : Prog.Only (ArrayOp.Below MAX_PARTICIPANTS) (getChatInfoArray chatId) := by
    refine .bind (Prog.only_lift _) fun r => ?_
    split
    · refine .bind (Prog.only_lift _) fun r => ?_
      split
      · exact .bind (fetchLoop_below _ _ _ _) fun _ => .ret _
      · exact .ret _
    · exact .ret _
  exact ⟨hbelow.accesses_lt, by rw [hrun]; rfl, by rwa [hrun]⟩

/-- With more rows than slots, the row after the last slot is written. -/
theorem getChatMessagesArray_fetched_iff {chatId : Int} {since : Option CString} {rows : List MessageListing}
    (h : (exec (.selectMessages chatId since) s).1 = some rows) (messages : Nat → MessageSlot) :
    Fetched exec MAX_MESSAGES rows MessageSlot.Copies id (getChatMessagesArray chatId since) (messages, s) ↔
      rows.length ≤ MAX_MESSAGES := by
  have haccesses : (getChatMessagesArray chatId since).accesses exec (messages, s) =
      (messageLoop rows 0).accesses exec (messages, (exec (.selectMessages chatId since) s).2) := by
    rw [getChatMessagesArray, Prog.accesses_bind, storeResult_accesses, storeResult_run]
    dsimp only
    rw [h]
    simp only [List.nil_append, Prog.accesses_bind]
    exact List.append_nil _
  obtain ⟨a', hrun, hnew⟩ := getChatMessagesArray_some h messages
  constructor
  · intro hf
    by_contra hmany
    have hover := hf.inBounds MAX_MESSAGES
    rw [haccesses] at hover
    exact lt_irrefl _ (hover (messageLoop_writes rows 0 _ (Nat.zero_le _) (by omega)))
  · intro hle
    refine ⟨?_, ?_, fun i row hrow => ?_⟩
    · have hroom : 0 + rows.length ≤ MAX_MESSAGES := by rwa [Nat.zero_add]
      rw [haccesses, messageLoop_eq hroom]
      exact (fetchLoop_below _ _ _ _).accesses_lt
    · rw [hrun, Nat.min_eq_left hle]
      rfl
    · rw [List.take_of_length_le hle] at hrow
      have hslot := MessageSlot.ofListing_copies row
      rw [← hnew i row hrow] at hslot
      rwa [hrun]

end Fetched

/-- **Fetching.** Whatever rows MySQL answers with, `get_chats` and
`get_chat_info` stay in their arrays and return the first rows in order.
`get_chat_messages` does exactly when there are no more rows than slots. -/
theorem fetched_iff {σ : Type*} (exec : (q : Query) → σ → q.Result × σ) (s : σ) (userId chatId : Int)
    (since since' : Option CString) {chatRows : List ChatListing} {messageRows : List MessageListing}
    {participantRows : List ParticipantListing} {chat : ChatRow} {more : List ChatRow}
    (hchats : (exec (.selectChats userId since) s).1 = some chatRows)
    (hmessages : (exec (.selectMessages chatId since') s).1 = some messageRows)
    (hchat : (exec (.selectChat chatId) s).1 = some (chat :: more))
    (hparticipants : (exec (.selectParticipants chatId) (exec (.selectChat chatId) s).2).1 = some participantRows)
    (chats : Nat → Chat) (messages : Nat → MessageSlot) (participants : Nat → ParticipantListing) :
    Fetched exec MAX_CHATS chatRows (fun row chat => chat = .ofListing row) id (getChatsArray userId since)
        (chats, s) ∧
      (Fetched exec MAX_MESSAGES messageRows MessageSlot.Copies id (getChatMessagesArray chatId since')
          (messages, s) ↔ messageRows.length ≤ MAX_MESSAGES) ∧
      Fetched exec MAX_PARTICIPANTS participantRows (fun row user => user = row) (Option.map Prod.snd)
        (getChatInfoArray chatId) (participants, s) :=
  ⟨getChatsArray_fetched hchats chats, getChatMessagesArray_fetched_iff hmessages messages,
    getChatInfoArray_fetched hchat hparticipants participants⟩

/-- A chat of one participant with so many messages. -/
def chatty (n : Nat) : (q : Query) → Unit → q.Result × Unit
  | .selectChats .., _ => (some [⟨1, "notes", 0, none, none, none, none⟩], ())
  | .selectMessages .., _ => (some (List.replicate n ⟨1, 2, "alice", "hi", "text", "2024-01-01 00:00:00"⟩), ())
  | .selectChat _, _ => (some [⟨1, 0, "notes", none⟩], ())
  | .selectParticipants _, _ => (some [⟨⟨2, "alice", "alice@x", "hash"⟩, 1⟩], ())
  | _, _ => (default, ())

theorem fetched_iff_chatty :
    Fetched (chatty 3) MAX_CHATS [⟨1, "notes", 0, none, none, none, none⟩] (fun row chat => chat = .ofListing row) id
        (getChatsArray 2 none) (fun _ => .ofListing ⟨0, "", 0, none, none, none, none⟩, ()) ∧
      (Fetched (chatty 3) MAX_MESSAGES (List.replicate 3 ⟨1, 2, "alice", "hi", "text", "2024-01-01 00:00:00"⟩)
          MessageSlot.Copies id (getChatMessagesArray 1 none) (fun _ => ⟨0, 0, [], [], [], []⟩, ()) ↔
        (List.replicate 3 (⟨1, 2, "alice", "hi", "text", "2024-01-01 00:00:00"⟩ : MessageListing)).length ≤
          MAX_MESSAGES) ∧
      Fetched (chatty 3) MAX_PARTICIPANTS [⟨⟨2, "alice", "alice@x", "hash"⟩, 1⟩] (fun row user => user = row)
        (Option.map Prod.snd) (getChatInfoArray 1) (fun _ => ⟨⟨0, "", "", ""⟩, 0⟩, ()) :=
  fetched_iff (chatty 3) () 2 1 none none rfl rfl rfl rfl _ _ _

/-- The 201st message is written behind the array. -/
theorem message_out_of_bounds :
    ¬ ∀ (exec : (q : Query) → Unit → q.Result × Unit) (chatId : Int) (since : Option CString)
      (rows : List MessageListing) (messages : Nat → MessageSlot),
      (exec (.selectMessages chatId since) ()).1 = some rows →
      Fetched exec MAX_MESSAGES rows MessageSlot.Copies id (getChatMessagesArray chatId since) (messages, ()) := by
  intro h
  have hf := h (chatty 201) 1 none _ (fun _ => ⟨0, 0, [], [], [], []⟩) rfl
  exact absurd ((getChatMessagesArray_fetched_iff rfl _).mp hf) (by rw [List.length_replicate]; decide)

end FinalServer
