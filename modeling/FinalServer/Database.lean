/-
The database with its keys: the tables in which ids, names, pairs and
references are in order.

`Wf` is what the schema promises and `exec_wf` that every statement keeps
it; `Db` carries it, so nothing later has to.
-/
import FinalServer.Prog
import FinalServer.Tables

namespace FinalServer

namespace Tables

/-- The keys of the schema hold. -/
structure Wf (t : Tables) : Prop where
  users_sorted : t.users.Pairwise (·.userId < ·.userId)
  users_lt : ∀ u ∈ t.users, u.userId < t.nextUserId
  users_range : ∀ u ∈ t.users, 0 < u.userId ∧ u.userId ≤ Json.INT_MAX
  users_next : 0 < t.nextUserId
  users_unique : t.users.Pairwise fun u v => u.username ≠ v.username ∧ u.email ≠ v.email
  chats_sorted : t.chats.Pairwise (·.chatId < ·.chatId)
  chats_lt : ∀ c ∈ t.chats, c.chatId < t.nextChatId
  chats_next : 0 < t.nextChatId
  participants_unique : t.participants.Pairwise fun p q => ¬ (p.chatId = q.chatId ∧ p.userId = q.userId)
  participants_chat : ∀ p ∈ t.participants, p.chatId ∈ t.chatIds
  participants_user : ∀ p ∈ t.participants, p.userId ∈ t.userIds
  messages_sorted : t.messages.Pairwise (·.messageId < ·.messageId)
  messages_lt : ∀ r ∈ t.messages, r.messageId < t.nextMessageId
  messages_chat : ∀ r ∈ t.messages, r.chatId ∈ t.chatIds
  messages_sender : ∀ r ∈ t.messages, r.senderId ∈ t.userIds

variable {m : Mysql} {t : Tables}

theorem mem_chatIds {c : Int} : c ∈ t.chatIds ↔ ∃ r ∈ t.chats, r.chatId = c := by simp [chatIds]

theorem mem_userIds {u : Int} : u ∈ t.userIds ↔ ∃ r ∈ t.users, r.userId = u := by simp [userIds]

theorem memberRows_eq_nil {c u : Int} :
    t.memberRows c u = [] ↔ ∀ p ∈ t.participants, ¬ (p.chatId = c ∧ p.userId = u) := by
  simp [memberRows]

@[simp] theorem chatIds_updateLastMessage (i c : Int) : (t.updateLastMessage i c).chatIds = t.chatIds := by
  simp only [chatIds, updateLastMessage, List.map_map]
  refine List.map_congr_left fun r _ => ?_
  simp only [Function.comp_apply]
  split <;> rfl

theorem forall_mem_concat {α : Type*} {P : α → Prop} {l : List α} {b : α} :
    (∀ a ∈ l ++ [b], P a) ↔ (∀ a ∈ l, P a) ∧ P b := by simp [or_imp, forall_and]

theorem pairwise_concat {α : Type*} {R : α → α → Prop} {l : List α} {b : α} :
    (l ++ [b]).Pairwise R ↔ l.Pairwise R ∧ ∀ a ∈ l, R a b := by simp [List.pairwise_append]

/-! ## The rows of an `INSERT` -/

section Rows

variable {α : Type} {insert : Tables → α → Option Tables} {nextId : Int} {rows : Option (List α)}

/-- An `INSERT` is refused without effect, or stores all its rows, of which there are some. -/
theorem insertRows_cases (insert : Tables → α → Option Tables) (nextId : Int) (rows : Option (List α)) :
    t.insertRows insert nextId rows = (none, t) ∨
      ∃ r rs t', rows = some (r :: rs) ∧ (r :: rs).foldlM insert t = some t' ∧
        t.insertRows insert nextId rows = (some nextId, t') := by
  unfold insertRows
  split
  next r rs =>
    cases h : (r :: rs).foldlM insert t with
    | none => exact .inl rfl
    | some t' => exact .inr ⟨r, rs, t', rfl, h, rfl⟩
  next => exact .inl rfl

/-- What every row preserves, all of them preserve. -/
theorem foldlM_invariant {P : Tables → Prop} {rs : List α}
    (hstep : ∀ {t r t'}, r ∈ rs → insert t r = some t' → P t → P t') {t t' : Tables}
    (h : rs.foldlM insert t = some t') (hp : P t) : P t' := by
  induction rs generalizing t with
  | nil => cases h; exact hp
  | cons r rs ih =>
    rw [List.foldlM_cons, Option.bind_eq_bind, Option.bind_eq_some_iff] at h
    obtain ⟨t₁, hr, hrs⟩ := h
    exact ih (fun hmem => hstep (List.mem_cons_of_mem _ hmem)) hrs (hstep List.mem_cons_self hr hp)

theorem insertRows_invariant_of_mem {P : Tables → Prop}
    (hstep : ∀ {t r t'}, (∃ rs ∈ rows, r ∈ rs) → insert t r = some t' → P t → P t') (h : P t) :
    P (t.insertRows insert nextId rows).2 := by
  obtain hnone | ⟨r, rs, t', rfl, hrows, hsome⟩ := insertRows_cases (t := t) insert nextId rows
  · rw [hnone]
    exact h
  · rw [hsome]
    exact foldlM_invariant (fun hmem => hstep ⟨_, rfl, hmem⟩) hrows h

theorem insertRows_invariant {P : Tables → Prop} (hstep : ∀ {t r t'}, insert t r = some t' → P t → P t') (h : P t) :
    P (t.insertRows insert nextId rows).2 := insertRows_invariant_of_mem (fun _ => hstep) h

theorem insertRows_none (h : (t.insertRows insert nextId rows).1 = none) :
    t.insertRows insert nextId rows = (none, t) := by
  obtain hnone | ⟨r, rs, t', -, -, hsome⟩ := insertRows_cases (t := t) insert nextId rows
  · exact hnone
  · rw [hsome] at h
    cases h

/-- One row. -/
theorem insertRows_singleton (r : α) : t.insertRows insert nextId (some [r]) =
    match insert t r with
    | some t' => (some nextId, t')
    | none => (none, t) := by
  simp only [insertRows, List.foldlM_cons, List.foldlM_nil]
  cases insert t r <;> rfl

end Rows

theorem insertChatRow_eq_some {row : ChatValues} {t' : Tables} : t.insertChatRow row = some t' ↔
    t.nextChatId ≤ Json.INT_MAX ∧ t' = { t with
      chats := t.chats ++ [⟨t.nextChatId, row.isGroup, row.chatName, none⟩]
      nextChatId := t.nextChatId + 1 } := by
  rw [insertChatRow, Option.ite_none_left_eq_some, Option.some.injEq, not_lt]
  exact and_congr_right fun _ => eq_comm

theorem insertMessageRow_eq_some {row : Message} {t' : Tables} : t.insertMessageRow row = some t' ↔
    (row.chatId ∈ t.chatIds ∧ row.senderId ∈ t.userIds ∧ t.nextMessageId ≤ Json.INT_MAX) ∧ t' = { t with
      messages := t.messages ++
        [⟨t.nextMessageId, row.chatId, row.senderId, row.content, row.messageType, t.clock⟩]
      nextMessageId := t.nextMessageId + 1 } := by
  rw [insertMessageRow, Option.ite_none_right_eq_some, Option.some.injEq]
  exact and_congr_right fun _ => eq_comm

/-- The rows that an `INSERT` adds to `chats`, from an id on. -/
def newChats : Int → List ChatValues → List ChatRow
  | _, [] => []
  | id, row :: rows => ⟨id, row.isGroup, row.chatName, none⟩ :: newChats (id + 1) rows

/-- The rows that an `INSERT` adds to `messages`, from an id on. -/
def newMessages (clock : Nat) : Int → List Message → List MessageRow
  | _, [] => []
  | id, row :: rows =>
    ⟨id, row.chatId, row.senderId, row.content, row.messageType, clock⟩ :: newMessages clock (id + 1) rows

theorem le_of_mem_newChats {id : Int} {rows : List ChatValues} {c : ChatRow} (h : c ∈ newChats id rows) :
    id ≤ c.chatId := by
  induction rows generalizing id with
  | nil => cases h
  | cons row rows ih =>
    rcases List.mem_cons.mp h with rfl | h
    · exact le_rfl
    · exact (Int.le_add_one le_rfl).trans (ih h)

/-- Several chats go in together exactly if ids are left for all. -/
theorem insertChatRows {r : ChatValues} {rs : List ChatValues} {t t' : Tables} :
    (r :: rs).foldlM insertChatRow t = some t' ↔ t.nextChatId + (r :: rs).length ≤ Json.INT_MAX + 1 ∧ t' = { t with
      chats := t.chats ++ newChats t.nextChatId (r :: rs), nextChatId := t.nextChatId + (r :: rs).length } := by
  induction rs generalizing r t with
  | nil =>
    simp only [List.foldlM_cons, Option.bind_eq_bind, Option.bind_eq_some_iff, insertChatRow_eq_some, List.foldlM_nil,
      Option.pure_def, Option.some.injEq, newChats]
    constructor
    · rintro ⟨_, ⟨hid, rfl⟩, rfl⟩
      exact ⟨by simpa using hid, by simp⟩
    · rintro ⟨hids, rfl⟩
      exact ⟨_, ⟨by simpa using hids, rfl⟩, by simp⟩
  | cons r' rs ih =>
    have hlen : t.nextChatId + ((r :: r' :: rs).length : Int) = t.nextChatId + 1 + (r' :: rs).length := by
      simp only [List.length_cons]
      push_cast
      omega
    rw [List.foldlM_cons, Option.bind_eq_bind, Option.bind_eq_some_iff, hlen]
    constructor
    · rintro ⟨t₁, hrow, hrest⟩
      obtain ⟨-, rfl⟩ := insertChatRow_eq_some.mp hrow
      obtain ⟨hids, rfl⟩ := ih.mp hrest
      exact ⟨hids, by simp [newChats]⟩
    · rintro ⟨hids, ht'⟩
      have hid : t.nextChatId ≤ Json.INT_MAX := by
        simp only [List.length_cons] at hids
        omega
      refine ⟨_, insertChatRow_eq_some.mpr ⟨hid, rfl⟩, ih.mpr ⟨hids, ht'.trans ?_⟩⟩
      simp [newChats]

/-- MySQL reads rows in the text of an `INSERT` into `chats`, and ids are left for them. -/
def MakesChats (t : Tables) (m : Mysql) (sql : CString) (rows : List ChatValues) : Prop :=
  m.chatRows t sql = some rows ∧ rows ≠ [] ∧ t.nextChatId + rows.length ≤ Json.INT_MAX + 1

/-- An `INSERT` into `chats` makes the chats MySQL reads in its text, or nothing. -/
theorem insertChat_cases (m : Mysql) (t : Tables) (sql : CString) :
    ((∀ rows, ¬ t.MakesChats m sql rows) ∧ t.insertChat m sql = (none, t)) ∨
      ∃ r rs, t.MakesChats m sql (r :: rs) ∧ t.insertChat m sql = (some t.nextChatId, { t with
        chats := t.chats ++ newChats t.nextChatId (r :: rs), nextChatId := t.nextChatId + (r :: rs).length }) := by
  obtain hnone | ⟨r, rs, t', hread, hrows, hsome⟩ :=
    insertRows_cases (t := t) insertChatRow t.nextChatId (m.chatRows t sql)
  · refine .inl ⟨?_, hnone⟩
    rintro rows ⟨hread, hne, hids⟩
    obtain ⟨r, rs, rfl⟩ := List.exists_cons_of_ne_nil hne
    rw [hread, insertRows, insertChatRows.mpr ⟨hids, rfl⟩] at hnone
    cases hnone
  · obtain ⟨hids, rfl⟩ := insertChatRows.mp hrows
    exact .inr ⟨r, rs, ⟨hread, List.cons_ne_nil _ _, hids⟩, hsome⟩

/-- The id of a new chat is an `int`. -/
theorem Wf.insertChat_range (h : t.Wf) {sql : CString} {c : Int} (hc : (t.insertChat m sql).1 = some c) :
    Json.INT_MIN ≤ c ∧ c ≤ Json.INT_MAX := by
  obtain ⟨-, hnone⟩ | ⟨r, rs, ⟨-, -, hids⟩, hsome⟩ := insertChat_cases m t sql
  · rw [hnone] at hc
    cases hc
  · rw [hsome] at hc
    cases hc
    rw [List.length_cons] at hids
    have hpos := h.chats_next
    exact ⟨(show Json.INT_MIN ≤ 0 by decide).trans hpos.le, by omega⟩

/-- The rows of messages can be stored: their chats and senders are there, and ids are left. -/
structure RowsFit (t : Tables) (rows : List Message) : Prop where
  keys : ∀ row ∈ rows, row.chatId ∈ t.chatIds ∧ row.senderId ∈ t.userIds
  ids : t.nextMessageId + rows.length ≤ Json.INT_MAX + 1

/-- Several messages go in together exactly if each fits. -/
theorem insertMessageRows {r : Message} {rs : List Message} {t t' : Tables} :
    (r :: rs).foldlM insertMessageRow t = some t' ↔ t.RowsFit (r :: rs) ∧ t' = { t with
      messages := t.messages ++ newMessages t.clock t.nextMessageId (r :: rs)
      nextMessageId := t.nextMessageId + (r :: rs).length } := by
  induction rs generalizing r t with
  | nil =>
    simp only [List.foldlM_cons, Option.bind_eq_bind, Option.bind_eq_some_iff, insertMessageRow_eq_some,
      List.foldlM_nil, Option.pure_def, Option.some.injEq, newMessages]
    constructor
    · rintro ⟨_, ⟨⟨hc, hs, hid⟩, rfl⟩, rfl⟩
      exact ⟨⟨by simp [hc, hs], by simpa using hid⟩, by simp⟩
    · rintro ⟨⟨hkeys, hids⟩, rfl⟩
      obtain ⟨hc, hs⟩ := hkeys r List.mem_cons_self
      exact ⟨_, ⟨⟨hc, hs, by simpa using hids⟩, rfl⟩, by simp⟩
  | cons r' rs ih =>
    have hlen : t.nextMessageId + ((r :: r' :: rs).length : Int) = t.nextMessageId + 1 + (r' :: rs).length := by
      simp only [List.length_cons]
      push_cast
      omega
    rw [List.foldlM_cons, Option.bind_eq_bind, Option.bind_eq_some_iff]
    constructor
    · rintro ⟨t₁, hrow, hrest⟩
      obtain ⟨⟨hc, hs, hid⟩, rfl⟩ := insertMessageRow_eq_some.mp hrow
      obtain ⟨⟨hkeys, hids⟩, rfl⟩ := ih.mp hrest
      rw [hlen]
      exact ⟨⟨List.forall_mem_cons.mpr ⟨⟨hc, hs⟩, hkeys⟩, hlen ▸ hids⟩, by simp [newMessages]⟩
    · rintro ⟨⟨hkeys, hids⟩, ht'⟩
      obtain ⟨⟨hc, hs⟩, hkeys⟩ := List.forall_mem_cons.mp hkeys
      rw [hlen] at hids ht'
      have hid : t.nextMessageId ≤ Json.INT_MAX := by
        simp only [List.length_cons] at hids
        omega
      refine ⟨_, insertMessageRow_eq_some.mpr ⟨⟨hc, hs, hid⟩, rfl⟩, ih.mpr ⟨⟨hkeys, hids⟩, ht'.trans ?_⟩⟩
      simp [newMessages]

/-- MySQL reads rows in the text of an `INSERT` into `messages`, and they can be stored. -/
def Storable (t : Tables) (m : Mysql) (sql : CString) : Prop :=
  ∃ r rs, m.messageRows t sql = some (r :: rs) ∧ t.RowsFit (r :: rs)

/-- An `INSERT` into `messages` stores the rows MySQL reads in its text, or nothing. -/
theorem insertMessage_cases (m : Mysql) (t : Tables) (sql : CString) :
    (¬ t.Storable m sql ∧ t.insertMessage m sql = (none, t)) ∨
      ∃ r rs, m.messageRows t sql = some (r :: rs) ∧ t.RowsFit (r :: rs) ∧
        t.insertMessage m sql = (some t.nextMessageId, { t with
          messages := t.messages ++ newMessages t.clock t.nextMessageId (r :: rs)
          nextMessageId := t.nextMessageId + (r :: rs).length }) := by
  obtain hnone | ⟨r, rs, t', hread, hrows, hsome⟩ :=
    insertRows_cases (t := t) insertMessageRow t.nextMessageId (m.messageRows t sql)
  · refine .inl ⟨?_, hnone⟩
    rintro ⟨r, rs, hread, hfit⟩
    rw [hread, insertRows, insertMessageRows.mpr ⟨hfit, rfl⟩] at hnone
    cases hnone
  · obtain ⟨hfit, rfl⟩ := insertMessageRows.mp hrows
    exact .inr ⟨r, rs, hread, hfit, hsome⟩

theorem insertMessage_refused {sql : CString} (h : ¬ t.Storable m sql) : t.insertMessage m sql = (none, t) := by
  obtain ⟨-, hnone⟩ | ⟨r, rs, hread, hfit, -⟩ := insertMessage_cases m t sql
  · exact hnone
  · exact absurd ⟨r, rs, hread, hfit⟩ h

/-- Strings that are read as they stand make the row they were meant to make. -/
theorem storable_iff {message : Message} (hc : Json.INT_MIN ≤ message.chatId ∧ message.chatId ≤ Json.INT_MAX)
    (hu : Json.INT_MIN ≤ message.senderId ∧ message.senderId ≤ Json.INT_MAX)
    (hx : SqlText.Verbatim message.content.bytes) (hy : SqlText.Verbatim message.messageType.bytes)
    (hfits : (MessageSql.insertText message).length < MessageSql.QUERY_SIZE) :
    t.Storable m (MessageSql.query (MessageSql.insertText message)) ↔
      message.chatId ∈ t.chatIds ∧ message.senderId ∈ t.userIds ∧ t.nextMessageId ≤ Json.INT_MAX := by
  have hread := m.messageRows_literal (t := t) (MessageSql.readRows_query hc hu hx hy hfits)
  simp only [Storable, hread, Option.some.injEq, List.cons.injEq]
  constructor
  · rintro ⟨_, _, ⟨rfl, rfl⟩, hkeys, hids⟩
    obtain ⟨hchat, hsender⟩ := hkeys message List.mem_cons_self
    exact ⟨hchat, hsender, by simpa using hids⟩
  · rintro ⟨hchat, hsender, hids⟩
    exact ⟨message, [], ⟨rfl, rfl⟩, by simp [hchat, hsender], by simpa using hids⟩

/-! ## Every statement keeps the keys -/

theorem insertUser_wf {u e p : CString} (h : t.Wf) : (t.insertUser u e p).2.Wf := by
  simp only [insertUser]
  split
  · exact h
  next hnew =>
  simp only [Bool.or_eq_true, List.any_eq_true, decide_eq_true_eq, not_or, not_exists, not_and,
    not_lt] at hnew
  obtain ⟨hnew, hid⟩ := hnew
  have hids : ∀ x ∈ t.userIds, x ∈ (t.users ++ [(⟨t.nextUserId, u, e, p⟩ : UserRow)]).map (·.userId) := by
    intro x hx
    rw [List.map_append, List.mem_append]
    exact .inl hx
  exact {
    h with
    users_sorted := pairwise_concat.mpr ⟨h.users_sorted, h.users_lt⟩
    users_lt := forall_mem_concat.mpr ⟨fun a ha => (h.users_lt a ha).trans (Int.lt_succ _), Int.lt_succ _⟩
    users_range := forall_mem_concat.mpr ⟨h.users_range, h.users_next, hid⟩
    users_next := h.users_next.trans (Int.lt_succ _)
    users_unique := pairwise_concat.mpr ⟨h.users_unique, hnew⟩
    participants_user := fun q hq => hids _ (h.participants_user q hq)
    messages_sender := fun r hr => hids _ (h.messages_sender r hr) }

theorem insertChatRow_wf {row : ChatValues} {t' : Tables} (hrow : t.insertChatRow row = some t') (h : t.Wf) :
    t'.Wf := by
  obtain ⟨-, rfl⟩ := insertChatRow_eq_some.mp hrow
  have hids : ∀ x ∈ t.chatIds,
      x ∈ (t.chats ++ [(⟨t.nextChatId, row.isGroup, row.chatName, none⟩ : ChatRow)]).map (·.chatId) := by
    intro x hx
    rw [List.map_append, List.mem_append]
    exact .inl hx
  exact {
    h with
    chats_sorted := pairwise_concat.mpr ⟨h.chats_sorted, h.chats_lt⟩
    chats_lt := forall_mem_concat.mpr ⟨fun a ha => (h.chats_lt a ha).trans (Int.lt_succ _), Int.lt_succ _⟩
    chats_next := h.chats_next.trans (Int.lt_succ _)
    participants_chat := fun q hq => hids _ (h.participants_chat q hq)
    messages_chat := fun r hr => hids _ (h.messages_chat r hr) }

theorem insertParticipant_wf {c u a : Int} (h : t.Wf) : (t.insertParticipant c u a).2.Wf := by
  simp only [insertParticipant]
  split
  next hok =>
    obtain ⟨hc, hu, hnew⟩ := hok
    exact {
      h with
      participants_unique := pairwise_concat.mpr ⟨h.participants_unique, memberRows_eq_nil.mp hnew⟩
      participants_chat := forall_mem_concat.mpr ⟨h.participants_chat, hc⟩
      participants_user := forall_mem_concat.mpr ⟨h.participants_user, hu⟩ }
  next => exact h

theorem insertMessageRow_wf {row : Message} {t' : Tables} (hrow : t.insertMessageRow row = some t') (h : t.Wf) :
    t'.Wf := by
  obtain ⟨⟨hc, hs, -⟩, rfl⟩ := insertMessageRow_eq_some.mp hrow
  exact {
    h with
    messages_sorted := pairwise_concat.mpr ⟨h.messages_sorted, h.messages_lt⟩
    messages_lt :=
      forall_mem_concat.mpr ⟨fun r hr => (h.messages_lt r hr).trans (Int.lt_succ _), Int.lt_succ _⟩
    messages_chat := forall_mem_concat.mpr ⟨h.messages_chat, hc⟩
    messages_sender := forall_mem_concat.mpr ⟨h.messages_sender, hs⟩ }

theorem updateLastMessage_wf {i c : Int} (h : t.Wf) : (t.updateLastMessage i c).Wf := by
  have hkey : ∀ r : ChatRow,
      (if r.chatId = c then { r with lastMessageId := some i } else r).chatId = r.chatId := by
    intro r
    split <;> rfl
  exact {
    h with
    chats_sorted := by
      simp only [updateLastMessage, List.pairwise_map, hkey]
      exact h.chats_sorted
    chats_lt := by
      simp only [updateLastMessage, List.forall_mem_map, hkey]
      exact h.chats_lt
    participants_chat := by
      rw [chatIds_updateLastMessage]
      exact h.participants_chat
    messages_chat := by
      rw [chatIds_updateLastMessage]
      exact h.messages_chat }

theorem deleteParticipant_wf {c u : Int} (h : t.Wf) : (t.deleteParticipant c u).Wf :=
  { h with
    participants_unique := h.participants_unique.filter _
    participants_chat := fun p hp => h.participants_chat p (List.mem_of_mem_filter hp)
    participants_user := fun p hp => h.participants_user p (List.mem_of_mem_filter hp) }

theorem promote_wf {c u : Int} (h : t.Wf) : (t.promote c u).Wf := by
  have hkey : ∀ p : ParticipantRow,
      (if p.chatId = c ∧ p.userId = u then { p with isAdmin := 1 } else p).chatId = p.chatId ∧
      (if p.chatId = c ∧ p.userId = u then { p with isAdmin := 1 } else p).userId = p.userId := by
    intro p
    split <;> exact ⟨rfl, rfl⟩
  exact {
    h with
    participants_unique := by
      simp only [promote, List.pairwise_map, hkey]
      exact h.participants_unique
    participants_chat := by
      simp only [promote, List.forall_mem_map, hkey]
      exact h.participants_chat
    participants_user := by
      simp only [promote, List.forall_mem_map, hkey]
      exact h.participants_user }

theorem deleteChat_wf {c : Int} (h : t.Wf) : (t.deleteChat c).Wf := by
  -- A row whose chat is another one still has its chat.
  have hids : ∀ x ∈ t.chatIds, x ≠ c → x ∈ (t.deleteChat c).chatIds := by
    intro x hx hne
    obtain ⟨r, hr, rfl⟩ := mem_chatIds.mp hx
    exact mem_chatIds.mpr ⟨r, by simp [deleteChat, hr, hne], rfl⟩
  exact {
    h with
    chats_sorted := h.chats_sorted.filter _
    chats_lt := fun r hr => h.chats_lt r (List.mem_of_mem_filter hr)
    participants_unique := h.participants_unique.filter _
    participants_chat := fun p hp => by
      obtain ⟨hp, hne⟩ := List.mem_filter.mp hp
      exact hids _ (h.participants_chat p hp) (by simpa using hne)
    participants_user := fun p hp => h.participants_user p (List.mem_of_mem_filter hp)
    messages_sorted := h.messages_sorted.filter _
    messages_lt := fun r hr => h.messages_lt r (List.mem_of_mem_filter hr)
    messages_chat := fun r hr => by
      obtain ⟨hr, hne⟩ := List.mem_filter.mp hr
      exact hids _ (h.messages_chat r hr) (by simpa using hne)
    messages_sender := fun r hr => h.messages_sender r (List.mem_of_mem_filter hr) }

/-- Every statement keeps the keys. -/
theorem exec_wf (q : Query) (h : t.Wf) : (exec m q t).2.Wf := by
  cases q with
  | insertUser sql =>
    simp only [exec]
    split
    · exact insertUser_wf h
    · exact h
  | insertChat sql => exact insertRows_invariant insertChatRow_wf h
  | insertParticipant c u a => exact insertParticipant_wf h
  | insertMessage sql => exact insertRows_invariant insertMessageRow_wf h
  | updateLastMessage i c => exact updateLastMessage_wf h
  | deleteParticipant c u => exact deleteParticipant_wf h
  | promote c u => exact promote_wf h
  | deleteChat c => exact deleteChat_wf h
  | _ => exact h

end Tables

/-- A database whose keys hold. -/
structure Db extends Tables where
  wf : toTables.Wf

namespace Db

@[ext] theorem ext {d d' : Db} (h : d.toTables = d'.toTables) : d = d' := by
  cases d; cases d'; cases h; rfl

/-- What MySQL does for a statement. -/
def exec (m : Mysql) (q : Query) (d : Db) : q.Result × Db :=
  ((Tables.exec m q d.toTables).1, ⟨(Tables.exec m q d.toTables).2, Tables.exec_wf q d.wf⟩)

end Db

end FinalServer
