/-
The numbers of the database are `int`s, and so are those of the replies.

Ids start where their counters do and stop at `INT_MAX`, and a flag is
stored as it is read of a request; so every number that a statement of the
managers selects is an `int`, over any run. With that every reply of
`handle_action` is a message that survives its text (`handleAction_ints`).
-/
import FinalServer.Answered
import FinalServer.JsonPlain
import FinalServer.ParticipantLimit

namespace FinalServer

open Json (InRange)

/-- The columns that replies print are `int`s, and will be. -/
structure Tables.IntColumns (t : Tables) : Prop where
  chats : ∀ c ∈ t.chats, InRange c.chatId ∧ InRange c.isGroup
  participants : ∀ p ∈ t.participants, InRange p.isAdmin
  messages : ∀ r ∈ t.messages, InRange r.messageId
  nextChatId : Json.INT_MIN ≤ t.nextChatId
  nextMessageId : Json.INT_MIN ≤ t.nextMessageId

/-- The flag a statement stores is an `int`. -/
def Query.IntColumns : Query → Prop
  | .insertParticipant _ _ isAdmin => InRange isAdmin
  | _ => True

/-- The numbers among the columns of an answer are `int`s. -/
def Query.IntAnswer : (q : Query) → q.Result → Prop
  | .selectUserInfo _, r => ∀ rows, r = some rows → ∀ row ∈ rows, InRange row.userId
  | .selectChats .., r => ∀ rows, r = some rows → ∀ row ∈ rows, InRange row.chatId
  | .selectMessages .., r => ∀ rows, r = some rows → ∀ row ∈ rows, InRange row.messageId ∧ InRange row.senderId
  | .selectChat _, r => ∀ rows, r = some rows → ∀ row ∈ rows, InRange row.chatId ∧ InRange row.isGroup
  | .selectParticipants _, r =>
    ∀ rows, r = some rows → ∀ row ∈ rows, InRange row.user.userId ∧ InRange row.isAdmin
  | _, _ => True

section Tables

variable {m : Mysql} {t : Tables}

theorem exec_intColumns {q : Query} (hq : q.IntColumns) (h : t.IntColumns) : (Tables.exec m q t).2.IntColumns := by
  cases q with
  | insertUser sql =>
    simp only [Tables.exec, Tables.insertUser]
    split
    · split <;> exact { h with }
    · exact h
  | insertChat sql =>
    refine Tables.insertRows_invariant_of_mem (P := Tables.IntColumns) (fun {t r _} hmem hrow h => ?_) h
    obtain ⟨rows, hread, hr⟩ := hmem
    obtain ⟨hid, rfl⟩ := Tables.insertChatRow_eq_some.mp hrow
    exact { h with
      chats := Tables.forall_mem_concat.mpr ⟨h.chats, ⟨h.nextChatId, hid⟩, m.chatRows_range hread r hr⟩
      nextChatId := h.nextChatId.trans (Int.le_add_one le_rfl) }
  | insertParticipant c u a =>
    simp only [Tables.exec, Tables.insertParticipant]
    split
    · exact { h with participants := Tables.forall_mem_concat.mpr ⟨h.participants, hq⟩ }
    · exact h
  | insertMessage sql =>
    refine Tables.insertRows_invariant (P := Tables.IntColumns) (fun hrow h => ?_) h
    obtain ⟨⟨-, -, hid⟩, rfl⟩ := Tables.insertMessageRow_eq_some.mp hrow
    exact { h with
      messages := Tables.forall_mem_concat.mpr ⟨h.messages, h.nextMessageId, hid⟩
      nextMessageId := h.nextMessageId.trans (Int.le_add_one le_rfl) }
  | updateLastMessage i c =>
    refine { h with chats := List.forall_mem_map.mpr fun r hr => ?_ }
    split <;> exact h.chats r hr
  | deleteParticipant c u =>
    exact { h with participants := fun p hp => h.participants p (List.mem_of_mem_filter hp) }
  | promote c u =>
    refine { h with participants := List.forall_mem_map.mpr fun p hp => ?_ }
    split
    · exact (by decide : InRange 1)
    · exact h.participants p hp
  | deleteChat c =>
    exact { h with
      chats := fun r hr => h.chats r (List.mem_of_mem_filter hr)
      participants := fun p hp => h.participants p (List.mem_of_mem_filter hp)
      messages := fun r hr => h.messages r (List.mem_of_mem_filter hr) }
  | _ => exact h

theorem Tables.Wf.userId_inRange (hwf : t.Wf) {r : UserRow} (hr : r ∈ t.users) : InRange r.userId := by
  obtain ⟨hpos, hmax⟩ := hwf.users_range r hr
  exact ⟨(by decide : Json.INT_MIN ≤ 0).trans hpos.le, hmax⟩

theorem mem_of_mem_selectUsers {c : UserSql.Condition} {r : UserRow} (hr : r ∈ t.selectUsers m c) : r ∈ t.users := by
  cases c <;> exact List.mem_of_mem_filter hr

theorem exec_intAnswer (q : Query) (hwf : t.Wf) (h : t.IntColumns) : q.IntAnswer (Tables.exec m q t).1 := by
  cases q with
  | selectUserInfo sql =>
    intro rows hrows row hrow
    obtain ⟨c, -, rfl⟩ := Option.map_eq_some_iff.mp hrows
    exact hwf.userId_inRange (mem_of_mem_selectUsers hrow)
  | selectChats u since =>
    intro rows hrows row hrow
    simp only [Tables.exec, Tables.selectChats] at hrows
    split at hrows
    · cases hrows
      obtain ⟨c, hc, rfl⟩ := List.mem_map.mp hrow
      exact (h.chats c (List.mem_of_mem_filter hc)).1
    · obtain ⟨time, -, hodd⟩ := Option.bind_eq_some_iff.mp hrows
      exact m.oddChats_range hodd row hrow
  | selectMessages c since =>
    intro rows hrows row hrow
    simp only [Tables.exec, Tables.selectMessages] at hrows
    split at hrows
    · cases hrows
      obtain ⟨r, hr, hlist⟩ := List.mem_filterMap.mp hrow
      obtain ⟨u, -, rfl⟩ := Option.map_eq_some_iff.mp hlist
      have hin : r ∈ t.messages := List.mem_of_mem_filter (List.mem_of_mem_filter hr)
      obtain ⟨s, hs, hsender⟩ := Tables.mem_userIds.mp (hwf.messages_sender r hin)
      exact ⟨h.messages r hin, hsender ▸ hwf.userId_inRange hs⟩
    · obtain ⟨time, -, hodd⟩ := Option.bind_eq_some_iff.mp hrows
      exact m.oddMessages_range hodd row hrow
  | selectChat c =>
    intro rows hrows row hrow
    cases hrows
    exact h.chats row (List.mem_of_mem_filter hrow)
  | selectParticipants c =>
    intro rows hrows row hrow
    cases hrows
    obtain ⟨p, hp, hlist⟩ := List.mem_filterMap.mp hrow
    obtain ⟨u, hu, rfl⟩ := Option.map_eq_some_iff.mp hlist
    exact ⟨hwf.userId_inRange (List.mem_of_find?_eq_some hu), h.participants p (List.mem_of_mem_filter hp)⟩
  | _ => trivial

end Tables

namespace HandleAction

open Prog (Only)

/-- The statements store `int`s; what is returned is in `P` if they are answered with `int`s. -/
abbrev Ints {α : Type} (P : α → Prop) (p : DbProg α) : Prop := Prog.Meets Query.IntColumns Query.IntAnswer P p

theorem ints_query {q : Query} (hq : q.IntColumns) : Ints q.IntAnswer (mysqlQuery q) := .stmt hq

theorem ints_shrinks {α : Type} {p : DbProg α} (hp : Only Query.shrinks p) : Ints (fun _ => True) p :=
  .of_only (hp.mono fun q hq => by cases q <;> trivial)

theorem ints_sendMessage (message : Message) : Ints (fun _ => True) (FinalServer.sendMessage message) :=
  ints_shrinks (sendMessage_shrinks message)

theorem ints_addEach (c by_ : Int) {f : Int → Int} (hf : ∀ u, InRange (f u)) (us : List Int) :
    Ints (fun _ => True) (addEach c by_ f us) := by
  induction us with
  | nil => exact .ret trivial
  | cons u us ih =>
    refine .bind (ints_query (q := .insertParticipant c u (f u)) (hf u)) fun ok _ => ?_
    split
    · exact .bind (ints_sendMessage _) fun _ _ => .bind ih fun _ _ => .ret trivial
    · exact ih

/-! ## The replies -/

theorem plain_reply {fields : List (CString × Json)} (h : ∀ f ∈ fields, Json.Fits 2 f.2) (text : CString) {code : Int}
    (hcode : InRange code) : (reply fields text code).Plain := by
  refine Json.Plain.of_object (n := 2) (by decide) ?_
  refine Tables.forall_mem_concat.mpr ⟨Tables.forall_mem_concat.mpr ⟨h, Json.fits_string text⟩, ?_⟩
  exact Json.fits_number hcode

theorem plain_text (text : CString) {code : Int} (hcode : InRange code) : (reply [] text code).Plain :=
  plain_reply (List.forall_mem_nil _) text hcode

theorem ints_text (text : CString) {code : Int} (hcode : InRange code) : Ints Json.Plain (.ret (reply [] text code)) :=
  .ret (plain_text text hcode)

theorem validateUser_ints (json : Json) : Ints Json.Plain (validateUser json) := by
  unfold validateUser
  split
  · refine .bind (P := fun _ => True) (.bind (ints_query trivial) fun r _ => ?_) fun r _ => ?_
    · split <;> exact .ret trivial
    · split
      · exact .ret (plain_reply (by simp [Json.fits_string]) _ (by decide))
      · exact ints_text _ (by decide)
  · exact ints_text _ (by decide)

theorem createUser_ints (un : Uninit) (json : Json) : Ints Json.Plain (createUser un json) := by
  refine .bind (ints_query (q := .insertUser _) trivial) fun ok _ => ?_
  split <;> exact ints_text _ (by decide)

theorem getUserInfo_ints {un : Uninit} (hun : InRange un.responseCode) (json : Json) :
    Ints Json.Plain (getUserInfo un json) := by
  unfold getUserInfo
  split
  · refine .bind (P := fun r => ∀ row, r = some row → InRange row.userId) (.bind (ints_query trivial) fun r hr => ?_)
      fun r hr => ?_
    · split
      next row rows => exact .ret fun _ h => by cases h; exact hr _ rfl row List.mem_cons_self
      next => exact .ret fun _ h => by cases h
    · split
      next row =>
        refine .ret (plain_reply ?_ _ (by decide))
        simp [Json.fits_string, Json.fits_number (hr row rfl)]
      next => exact ints_text _ (by decide)
  · exact ints_text _ hun

theorem createChat_ints {un : Uninit} (hun : InRange un.responseCode) (json : Json) :
    Ints Json.Plain (createChat un json) := by
  unfold createChat
  split
  · split
    · refine .bind (ints_query (q := .insertChat _) trivial) fun r _ => ?_
      split
      · refine .bind (ints_sendMessage _) fun _ _ => .bind (ints_addEach _ _ (fun u => ?_) _) fun n _ => ?_
        · split <;> decide
        · exact ints_text _ (by decide)
      · exact ints_text _ (by decide)
    · exact ints_text _ (by decide)
  · exact ints_text _ hun

theorem addToGroupChat_ints {un : Uninit} (hun : InRange un.responseCode) (json : Json) :
    Ints Json.Plain (addToGroupChat un json) := by
  unfold addToGroupChat
  split
  · refine .bind (ints_addEach _ _ (fun _ => by decide) _) fun n _ => ?_
    split <;> exact ints_text _ (by decide)
  · exact ints_text _ hun

theorem sendMessage_ints (json : Json) : Ints Json.Plain (sendMessage json) := by
  unfold sendMessage
  split
  · refine .bind (ints_sendMessage _) fun ok _ => ?_
    split <;> exact ints_text _ (by decide)
  · exact ints_text _ (by decide)

theorem fits_chatJson {row : ChatListing} (h : InRange row.chatId) : Json.Fits 1 (chatJson (Chat.ofListing row)) :=
  Json.fits_object.mpr (by simp [Chat.ofListing, Json.fits_string, Json.fits_number h])

theorem getChats_ints (json : Json) : Ints Json.Plain (getChats json) := by
  unfold getChats
  split
  · refine .bind (P := fun r => ∀ chats, r = some chats → ∀ c ∈ chats, Json.Fits 1 (chatJson c))
      (.bind (ints_query trivial) fun r hr => ?_) fun r hr => ?_
    · split
      next rows =>
        refine .ret fun _ h c hc => ?_
        cases h
        obtain ⟨row, hrow, rfl⟩ := List.mem_map.mp hc
        exact fits_chatJson (hr _ rfl row (List.mem_of_mem_take hrow))
      next => exact .ret fun _ h => by cases h
    · split
      next chats =>
        refine .ret (plain_reply ?_ _ (by decide))
        simpa [Json.fits_array] using hr chats rfl
      next => exact ints_text _ (by decide)
  · exact ints_text _ (by decide)

theorem fits_messageJson {row : MessageListing} (h : InRange row.messageId ∧ InRange row.senderId) :
    Json.Fits 1 (messageJson row.copy) :=
  Json.fits_object.mpr (by simp [MessageListing.copy, Json.fits_string, Json.fits_number h.1, Json.fits_number h.2])

theorem getChatMessages_ints (json : Json) : Ints Json.Plain (getChatMessages json) := by
  unfold getChatMessages
  split
  · refine .bind (P := fun r => ∀ rows, r = some rows → ∀ row ∈ rows, Json.Fits 1 (messageJson row))
      (.bind (ints_query trivial) fun r hr => ?_) fun r hr => ?_
    · split
      next rows =>
        refine .ret fun _ h copied hcopied => ?_
        cases h
        obtain ⟨row, hrow, rfl⟩ := List.mem_map.mp hcopied
        exact fits_messageJson (hr _ rfl row hrow)
      next => exact .ret fun _ h => by cases h
    · split
      next rows =>
        refine .ret (plain_reply ?_ _ (by decide))
        simpa [Json.fits_array] using hr rows rfl
      next => exact ints_text _ (by decide)
  · exact ints_text _ (by decide)

theorem fits_participantJson {row : ParticipantListing} (h : InRange row.user.userId ∧ InRange row.isAdmin) :
    Json.Fits 1 (participantJson row) :=
  Json.fits_object.mpr (by simp [Json.fits_string, Json.fits_number h.1, Json.fits_number h.2])

/-- The columns of a chat and its participants. -/
def IntInfo (info : ChatRow × List ParticipantListing) : Prop :=
  (InRange info.1.chatId ∧ InRange info.1.isGroup) ∧
    ∀ row ∈ info.2, InRange row.user.userId ∧ InRange row.isAdmin

theorem ints_getChatInfo (c : Int) :
    Ints (fun r => ∀ info, r = some info → IntInfo info) (FinalServer.getChatInfo c) := by
  refine .bind (ints_query trivial) fun r hr => ?_
  split
  next chat _ =>
    refine .bind (ints_query trivial) fun r' hr' => ?_
    split
    next rows =>
      refine .ret fun info h => ?_
      cases h
      exact ⟨hr _ rfl chat List.mem_cons_self, fun row hrow => hr' rows rfl row (List.mem_of_mem_take hrow)⟩
    next => exact .ret fun _ h => by cases h
  next => exact .ret fun _ h => by cases h

theorem getChatInfo_ints (json : Json) : Ints Json.Plain (getChatInfo json) := by
  unfold getChatInfo
  split
  · refine .bind (ints_getChatInfo _) fun r hr => ?_
    split
    next chat participants =>
      obtain ⟨⟨hid, hgroup⟩, hrows⟩ := hr _ rfl
      refine .ret (plain_reply ?_ _ (by decide))
      have harray : Json.Fits 2 (.array (participants.map participantJson)) :=
        Json.fits_array.mpr (List.forall_mem_map.mpr fun row hrow => fits_participantJson (hrows row hrow))
      simp [Json.fits_string, Json.fits_number hid, Json.fits_number hgroup, harray]
    next => exact ints_text _ (by decide)
  · exact ints_text _ (by decide)

theorem removeFromChat_ints (json : Json) : Ints Json.Plain (removeFromChat json) := by
  unfold removeFromChat
  split
  · refine .bind (ints_shrinks (isUserAdmin_shrinks _ _)) fun ok _ => ?_
    split
    · exact ints_text _ (by decide)
    have hgroup : ∀ c, Only Query.shrinks (isGroupChat c) := fun c =>
      (isGroupChat_reads c).mono fun _ hq => Query.shrinks_of_quiet hq.looksUp.1
    refine .bind (ints_shrinks (hgroup _)) fun ok _ => ?_
    split
    · exact ints_text _ (by decide)
    · exact .bind (ints_shrinks (removeEach_shrinks _ _ _)) fun _ _ => ints_text _ (by decide)
  · exact ints_text _ (by decide)

theorem exitLast_ints (c u : Int) : Ints Json.Plain (exitLast c u) := by
  refine .bind (ints_query (q := .deleteChat c) trivial) fun ok _ => ?_
  split <;> exact ints_text _ (by decide)

theorem exitAdmin_ints (c u : Int) : Ints Json.Plain (exitAdmin c u) := by
  refine .bind (ints_query (q := .countAdmins c) trivial) fun n _ => ?_
  split
  · refine .bind (P := fun _ => True) (.bind (ints_query trivial) fun r _ => ?_) fun ok _ => ?_
    · split
      · exact (ints_query (q := .promote c _) trivial).mono fun _ _ => trivial
      · exact .ret trivial
    · split <;> exact ints_text _ (by decide)
  · exact ints_text _ (by decide)

theorem exitChat_ints (json : Json) : Ints Json.Plain (exitChat json) := by
  unfold exitChat
  split
  next c u _ =>
    refine .bind (ints_shrinks (isUserAdmin_shrinks _ _)) fun isAdmin _ => ?_
    refine .bind (ints_query (q := .countParticipants c) trivial) fun count _ => ?_
    refine .bind (ints_query (q := .deleteParticipant c u) trivial) fun ok _ => ?_
    split
    · exact ints_text _ (by decide)
    refine .bind (ints_sendMessage _) fun _ _ => ?_
    split
    · exact exitLast_ints _ _
    · split
      · exact exitAdmin_ints _ _
      · exact ints_text _ (by decide)
  · exact ints_text _ (by decide)

theorem answer_ints {un : Uninit} (hun : InRange un.responseCode) (json : Json) (a : Option Action) :
    Ints Json.Plain (answer un json a) := by
  rcases a with _ | a
  · exact ints_text _ (by decide)
  cases a with
  | validateUser => exact validateUser_ints json
  | createUser => exact createUser_ints un json
  | getUserInfo => exact getUserInfo_ints hun json
  | createChat => exact createChat_ints hun json
  | addToGroupChat => exact addToGroupChat_ints hun json
  | sendMessage => exact sendMessage_ints json
  | getChats => exact getChats_ints json
  | getChatMessages => exact getChatMessages_ints json
  | getChatInfo => exact getChatInfo_ints json
  | removeFromChat => exact removeFromChat_ints json
  | exitChat => exact exitChat_ints json
  | ping => exact ints_text _ (by decide)

end HandleAction

/-! ## Over runs -/

variable {m : Mysql} {d : Db} {un : Uninit}

/-- The reply to a request is plain, and the columns are `int`s after it. -/
theorem handleAction_ints (hd : d.IntColumns) (hun : InRange un.responseCode) (json : Json) :
    (∀ reply, (d.run m (handleAction un json)).1 = some reply → reply.Plain) ∧
      (d.run m (handleAction un json)).2.IntColumns := by
  have hprog : HandleAction.Ints (fun r => ∀ reply, r = some reply → reply.Plain) (handleAction un json) := by
    unfold handleAction
    split
    · exact .ret fun _ h => by cases h
    · refine .bind (HandleAction.answer_ints hun _ _) fun r hr => .ret fun _ h => ?_
      cases h
      exact hr
  exact hprog.run (I := fun d : Db => d.IntColumns)
    (fun q d hq h => ⟨exec_intAnswer q d.wf h, exec_intColumns hq h⟩) hd

theorem tick_intColumns (h : d.IntColumns) (n : Nat) : (d.tick n).IntColumns := { h with }

theorem serve_intColumns (h : d.IntColumns) {c : Call} (hc : InRange c.un.responseCode) : (d.serve m c).IntColumns :=
  (handleAction_ints (tick_intColumns h c.elapsed) hc c.request).2

end FinalServer
