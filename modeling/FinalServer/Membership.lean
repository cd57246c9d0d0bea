/-
Who is in which chat: what each request does to the rows of
`chat_participants` and to which chats there are.

Five statements touch them; the others are `quiet`, and a program of quiet
statements leaves membership alone. `HasAdmin` follows the admin of a chat
through the five.
-/
import FinalServer.Serve

namespace FinalServer

/-- The statement adds or removes no chat and no row of `chat_participants`,
and changes none of the latter. -/
def Query.quiet : Query → Bool
  | .insertChat .. | .insertParticipant .. | .deleteParticipant .. | .promote .. | .deleteChat .. => false
  | _ => true

namespace Tables

/-- The chats and whether each is a group. -/
def groups (t : Tables) : List (Int × Int) := t.chats.map fun r => (r.chatId, r.isGroup)

/-- The same chats and participants; users may have come. -/
structure SameMembers (t t' : Tables) : Prop where
  participants : t'.participants = t.participants
  groups : t'.groups = t.groups
  users : t.userIds ⊆ t'.userIds

/-- The chat is a group. -/
def IsGroup (t : Tables) (c : Int) : Prop := ∃ r ∈ t.chats, r.chatId = c ∧ r.isGroup = 1

instance (t : Tables) (c : Int) : Decidable (t.IsGroup c) := inferInstanceAs (Decidable (∃ r ∈ _, _))

variable {m : Mysql} {t t' t'' : Tables} {c c' u v : Int}

theorem chatIds_eq_groups : t.chatIds = t.groups.map (·.1) := by simp [chatIds, groups]

theorem SameMembers.refl : SameMembers t t := ⟨rfl, rfl, fun _ h => h⟩

theorem SameMembers.trans (h : SameMembers t t') (h' : SameMembers t' t'') : SameMembers t t'' :=
  ⟨h'.participants.trans h.participants, h'.groups.trans h.groups, fun _ hx => h'.users (h.users hx)⟩

theorem SameMembers.chatIds (h : SameMembers t t') : t'.chatIds = t.chatIds := by
  rw [chatIds_eq_groups, chatIds_eq_groups, h.groups]

theorem insertUser_same (x y z : CString) : SameMembers t (t.insertUser x y z).2 := by
  simp only [insertUser]
  split
  · exact .refl
  · exact ⟨rfl, rfl, fun _ hx => by simp only [userIds, List.map_append, List.mem_append]; exact .inl hx⟩

theorem insertMessageRow_same {row : Message} (h : t.insertMessageRow row = some t') : SameMembers t t' := by
  obtain ⟨-, rfl⟩ := insertMessageRow_eq_some.mp h
  exact ⟨rfl, rfl, fun _ hx => hx⟩

theorem updateLastMessage_same (i : Int) : SameMembers t (t.updateLastMessage i c) where
  participants := rfl
  groups := by
    simp only [groups, updateLastMessage, List.map_map]
    refine List.map_congr_left fun r _ => ?_
    simp only [Function.comp_apply]
    split <;> rfl
  users _ hx := hx

theorem exec_same {q : Query} (hq : q.quiet = true) : SameMembers t (exec m q t).2 := by
  cases q with
  | insertUser sql =>
    simp only [exec]
    split
    · exact insertUser_same _ _ _
    · exact .refl
  | insertMessage sql =>
    exact insertRows_invariant (P := SameMembers t) (fun hrow h => h.trans (insertMessageRow_same hrow)) .refl
  | updateLastMessage i c => exact updateLastMessage_same i
  | insertChat | insertParticipant | deleteParticipant | promote | deleteChat => cases hq
  | _ => exact .refl

@[simp] theorem groups_insertParticipant (a : Int) : (t.insertParticipant c u a).2.groups = t.groups := by
  simp only [insertParticipant]
  split <;> rfl

@[simp] theorem users_insertParticipant (a : Int) : (t.insertParticipant c u a).2.users = t.users := by
  simp only [insertParticipant]
  split <;> rfl

/-- The chats that an `INSERT` makes, from an id on. -/
def newGroups (id : Int) (rows : List ChatValues) : List (Int × Int) :=
  (newChats id rows).map fun r => (r.chatId, r.isGroup)

theorem le_of_mem_newGroups {id : Int} {rows : List ChatValues} {g : Int × Int} (h : g ∈ newGroups id rows) :
    id ≤ g.1 := by
  obtain ⟨r, hr, rfl⟩ := List.mem_map.mp h
  exact le_of_mem_newChats hr

/-- New chats have ids of their own, and nobody in them. -/
theorem insertChat_some {sql : CString} {c : Int} (hwf : t.Wf) (h : (t.insertChat m sql).1 = some c) :
    (t.insertChat m sql).2.participants = t.participants ∧ (t.insertChat m sql).2.users = t.users ∧
      (∀ p ∈ t.participants, p.chatId < c) ∧ ∃ r rs, t.MakesChats m sql (r :: rs) ∧
        (t.insertChat m sql).2.groups = t.groups ++ newGroups c (r :: rs) := by
  obtain ⟨-, hnone⟩ | ⟨r, rs, hmakes, hsome⟩ := insertChat_cases m t sql
  · rw [hnone] at h
    cases h
  · rw [hsome] at h ⊢
    cases h
    refine ⟨rfl, rfl, fun p hp => ?_, r, rs, hmakes, by simp [groups, newGroups]⟩
    obtain ⟨chat, hchat, hid⟩ := mem_chatIds.mp (hwf.participants_chat p hp)
    exact hid ▸ hwf.chats_lt chat hchat

theorem insertChat_none {sql : CString} (h : (t.insertChat m sql).1 = none) : (t.insertChat m sql).2 = t := by
  rw [insertChat] at h ⊢
  rw [insertRows_none h]

/-! ## The admins of a chat -/

/-- The chat has a participant who is an admin. -/
def HasAdmin (t : Tables) (c : Int) : Prop := ∃ p ∈ t.participants, p.chatId = c ∧ p.isAdmin = 1

theorem IsAdmin.hasAdmin (h : t.IsAdmin c u) : t.HasAdmin c := by
  obtain ⟨p, hp, hc, -, ha⟩ := h
  exact ⟨p, hp, hc, ha⟩

theorem SameMembers.hasAdmin (h : SameMembers t t') : t'.HasAdmin c ↔ t.HasAdmin c := by
  simp only [HasAdmin, h.participants]

theorem SameMembers.isAdmin (h : SameMembers t t') : t'.IsAdmin c u ↔ t.IsAdmin c u := by
  simp only [IsAdmin, h.participants]

theorem SameMembers.members (h : SameMembers t t') : t'.members c = t.members c := by
  simp only [Tables.members, h.participants]

theorem SameMembers.admins (h : SameMembers t t') : t'.admins c = t.admins c := by
  simp only [Tables.admins, h.participants]

theorem hasAdmin_iff_admins : t.HasAdmin c ↔ t.admins c ≠ [] := by
  simp [HasAdmin, admins, List.filter_eq_nil_iff]

theorem HasAdmin.insertParticipant (a : Int) (h : t.HasAdmin c) :
    (t.insertParticipant c' u a).2.HasAdmin c := by
  simp only [Tables.insertParticipant]
  split
  · obtain ⟨p, hp, hpc⟩ := h
    exact ⟨p, List.mem_append_left _ hp, hpc⟩
  · exact h

/-- An admin survives the removal of somebody else. -/
theorem IsAdmin.deleteParticipant (h : t.IsAdmin c u) (hne : c ≠ c' ∨ u ≠ v) :
    (t.deleteParticipant c' v).IsAdmin c u := by
  obtain ⟨p, hp, rfl, rfl, ha⟩ := h
  refine ⟨p, List.mem_filter.mpr ⟨hp, ?_⟩, rfl, rfl, ha⟩
  rw [decide_eq_true_eq]
  rintro ⟨hc, hu⟩
  exact hne.elim (fun h => h hc) fun h => h hu

/-- A chat keeps an admin when one that is no admin is removed, or one of another chat. -/
theorem HasAdmin.deleteParticipant (h : t.HasAdmin c) (hne : c ≠ c' ∨ ¬ t.IsAdmin c u) :
    (t.deleteParticipant c' u).HasAdmin c := by
  obtain ⟨p, hp, hc, ha⟩ := h
  refine ⟨p, List.mem_filter.mpr ⟨hp, ?_⟩, hc, ha⟩
  rw [decide_eq_true_eq]
  rintro ⟨hc', hu⟩
  exact hne.elim (fun h => h (hc.symm.trans hc')) fun h => h ⟨p, hp, hc, hu, ha⟩

theorem HasAdmin.promote (h : t.HasAdmin c) : (t.promote c' u).HasAdmin c := by
  obtain ⟨p, hp, hc, ha⟩ := h
  refine ⟨_, List.mem_map_of_mem hp, ?_, ?_⟩ <;> split <;> first | exact hc | exact ha | rfl

/-- A promotion gives the chat of a participant an admin. -/
theorem hasAdmin_promote {p : ParticipantRow} (hp : p ∈ t.members c) : (t.promote c p.userId).HasAdmin c := by
  simp only [Tables.members, List.mem_filter, decide_eq_true_eq] at hp
  refine ⟨_, List.mem_map_of_mem hp.1, ?_, ?_⟩ <;> simp [hp.2]

theorem HasAdmin.deleteChat (h : t.HasAdmin c) (hne : c ≠ c') : (t.deleteChat c').HasAdmin c := by
  obtain ⟨p, hp, hc, ha⟩ := h
  exact ⟨p, List.mem_filter.mpr ⟨hp, by simp [hc, hne]⟩, hc, ha⟩

theorem chatIds_deleteChat : c ∈ (t.deleteChat c').chatIds ↔ c ∈ t.chatIds ∧ c ≠ c' := by
  simp only [mem_chatIds, deleteChat, List.mem_filter, decide_eq_true_eq]
  constructor
  · rintro ⟨r, ⟨hr, hne⟩, rfl⟩
    exact ⟨⟨r, hr, rfl⟩, hne⟩
  · rintro ⟨⟨r, hr, rfl⟩, hne⟩
    exact ⟨r, ⟨hr, hne⟩, rfl⟩

/-- Of two or more participants one stays when a user is removed. -/
theorem Wf.members_deleteParticipant (h : t.Wf) (hlen : 2 ≤ (t.members c).length) :
    (t.deleteParticipant c u).members c ≠ [] := by
  obtain ⟨p, q, rest, hm⟩ : ∃ p q rest, t.members c = p :: q :: rest := by
    match t.members c, hlen with
    | p :: q :: rest, _ => exact ⟨p, q, rest, rfl⟩
  have hp : p ∈ t.members c := by simp [hm]
  have hq : q ∈ t.members c := by simp [hm]
  simp only [members, List.mem_filter, decide_eq_true_eq] at hp hq
  have hpq : p.userId ≠ q.userId := by
    have hpw : (t.members c).Pairwise fun p q => ¬ (p.chatId = q.chatId ∧ p.userId = q.userId) :=
      h.participants_unique.filter _
    rw [hm] at hpw
    exact fun hu => (List.pairwise_cons.mp hpw).1 q (by simp) ⟨hp.2.trans hq.2.symm, hu⟩
  -- At most one of the two is the user.
  obtain ⟨r, hr, hrc, hru⟩ : ∃ r ∈ t.participants, r.chatId = c ∧ r.userId ≠ u := by
    by_cases hu : p.userId = u
    · exact ⟨q, hq.1, hq.2, fun h => hpq (hu.trans h.symm)⟩
    · exact ⟨p, hp.1, hp.2, hu⟩
  intro hnil
  simpa [deleteParticipant, hr, hrc, hru] using List.filter_eq_nil_iff.mp hnil r

end Tables

/-! ## Quiet programs -/

open Prog (Only)

variable {m : Mysql} {d : Db}

theorem Db.run_same {α : Type} {p : DbProg α} (hp : Only (fun q => q.quiet = true) p) :
    d.toTables.SameMembers (d.run m p).2.toTables :=
  Db.run_invariant (I := d.toTables.SameMembers) hp (fun _ _ hq _ h => h.trans (Tables.exec_same hq)) .refl

theorem sendMessage_quiet (message : Message) : Only (fun q => q.quiet = true) (sendMessage message) := by
  refine .bind (Db.only_query rfl) fun r => ?_
  split
  · exact .ret _
  · exact Db.only_query rfl

/-- The actions that change membership. -/
def Action.changesMembers : Action → Bool
  | .createChat | .addToGroupChat | .removeFromChat | .exitChat => true
  | _ => false

/-- The statement is neither of the two of `send_message`. -/
def Query.sendsNothing : Query → Bool
  | .insertMessage .. | .updateLastMessage .. => false
  | _ => true

/-- The statement is a `SELECT`. -/
def Query.reads : Query → Prop
  | .selectPassword _ | .selectUserInfo _ | .selectChats .. | .selectMessages .. | .selectChat _
  | .selectParticipants _ | .selectIsAdmin .. | .selectIsGroup _ | .countParticipants _ | .countAdmins _
  | .selectFirstParticipant _ => True
  | _ => False

theorem Query.reads.looksUp {q : Query} (hq : q.reads) : q.quiet = true ∧ q.sendsNothing = true := by
  cases q <;> first | exact ⟨rfl, rfl⟩ | cases hq

theorem isUserAdmin_reads (c u : Int) : Only Query.reads (isUserAdmin c u) := by
  refine .bind (Db.only_query trivial) fun r => ?_
  split <;> exact .ret _

theorem isGroupChat_reads (c : Int) : Only Query.reads (isGroupChat c) := by
  refine .bind (Db.only_query trivial) fun r => ?_
  split <;> exact .ret _

/-- The other actions but `SEND_MESSAGE` and `CREATE_USER` look something up. -/
theorem answer_reads {un : Uninit} {json : Json} {a : Action} (ha : a.changesMembers = false)
    (hsend : a ≠ .sendMessage) (hcreate : a ≠ .createUser) :
    Only Query.reads (HandleAction.answer un json a) := by
  cases a with
  | createChat | addToGroupChat | removeFromChat | exitChat => cases ha
  | sendMessage => exact absurd rfl hsend
  | createUser => exact absurd rfl hcreate
  | validateUser =>
    simp only [HandleAction.answer, HandleAction.validateUser]
    split
    · refine .bind (.bind (Db.only_query trivial) fun r => ?_) fun r => ?_ <;> split <;> exact .ret _
    · exact .ret _
  | getUserInfo =>
    simp only [HandleAction.answer, HandleAction.getUserInfo]
    split
    · refine .bind (.bind (Db.only_query trivial) fun r => ?_) fun r => ?_ <;> split <;> exact .ret _
    · exact .ret _
  | getChats =>
    simp only [HandleAction.answer, HandleAction.getChats]
    split
    · refine .bind (.bind (Db.only_query trivial) fun r => ?_) fun r => ?_ <;> split <;> exact .ret _
    · exact .ret _
  | getChatMessages =>
    simp only [HandleAction.answer, HandleAction.getChatMessages]
    split
    · refine .bind (.bind (Db.only_query trivial) fun r => ?_) fun r => ?_ <;> split <;> exact .ret _
    · exact .ret _
  | getChatInfo =>
    simp only [HandleAction.answer, HandleAction.getChatInfo]
    split
    · refine .bind (.bind (Db.only_query trivial) fun r => ?_) fun r => ?_
      · split
        · refine .bind (Db.only_query trivial) fun r => ?_
          split <;> exact .ret _
        · exact .ret _
      · split <;> exact .ret _
    · exact .ret _
  | ping => exact .ret _

/-- The other actions but `SEND_MESSAGE` look something up, or store a user. -/
theorem answer_looksUp {un : Uninit} {json : Json} {a : Action} (ha : a.changesMembers = false)
    (hsend : a ≠ .sendMessage) :
    Only (fun q => q.quiet = true ∧ q.sendsNothing = true) (HandleAction.answer un json a) := by
  by_cases hcreate : a = .createUser
  · subst hcreate
    refine .bind (Db.only_query ⟨rfl, rfl⟩) fun r => ?_
    split <;> exact .ret _
  · exact (answer_reads ha hsend hcreate).mono fun q hq => hq.looksUp

/-- The other actions are quiet. -/
theorem answer_quiet {un : Uninit} {json : Json} {a : Action} (ha : a.changesMembers = false) :
    Only (fun q => q.quiet = true) (HandleAction.answer un json a) := by
  by_cases hsend : a = .sendMessage
  · subst hsend
    simp only [HandleAction.answer, HandleAction.sendMessage]
    split
    · refine .bind (sendMessage_quiet _) fun r => ?_
      split <;> exact .ret _
    · exact .ret _
  · exact (answer_looksUp ha hsend).mono fun q hq => hq.1

/-! ## The users -/

/-- The statement is no `INSERT` into `users`. -/
def Query.keepsUsers : Query → Prop
  | .insertUser _ => False
  | _ => True

theorem exec_users {q : Query} {t : Tables} (hq : q.keepsUsers) : (Tables.exec m q t).2.users = t.users := by
  cases q with
  | insertUser => cases hq
  | insertChat sql =>
    refine Tables.insertRows_invariant (P := fun t' => t'.users = t.users) (fun hrow h => ?_) rfl
    obtain ⟨-, rfl⟩ := Tables.insertChatRow_eq_some.mp hrow
    exact h
  | insertParticipant c u a => exact Tables.users_insertParticipant a
  | insertMessage sql =>
    refine Tables.insertRows_invariant (P := fun t' => t'.users = t.users) (fun hrow h => ?_) rfl
    obtain ⟨-, rfl⟩ := Tables.insertMessageRow_eq_some.mp hrow
    exact h
  | _ => rfl

theorem sendMessage_keepsUsers (message : Message) : Only Query.keepsUsers (sendMessage message) := by
  refine .bind (Db.only_query trivial) fun r => ?_
  split
  · exact .ret _
  · exact Db.only_query trivial

theorem Db.run_users {α : Type} {p : DbProg α} (hp : Only Query.keepsUsers p) :
    (d.run m p).2.users = d.users :=
  Db.run_invariant (I := fun t => t.users = d.users) hp (fun _ _ hq _ h => (exec_users hq).trans h) rfl

/-! ## Adding a list, and making a chat -/

open HandleAction (addEach copyIds)

/-- One turn of the loop: the insert, and a message if it succeeded. -/
theorem run_addEach_cons (c by_ u : Int) (f : Int → Int) (us : List Int) :
    ∃ d' : Db, (d.exec m (.insertParticipant c u (f u))).2.SameMembers d'.toTables ∧ d'.users = d.users ∧
      d.run m (addEach c by_ f (u :: us)) =
        ((d'.run m (addEach c by_ f us)).1 + (d.exec m (.insertParticipant c u (f u))).1.toNat,
          (d'.run m (addEach c by_ f us)).2) := by
  have husers : (d.exec m (.insertParticipant c u (f u))).2.users = d.users := exec_users trivial
  by_cases hins : (d.exec m (.insertParticipant c u (f u))).1 = true
  · simp only [addEach, Db.run_bind, Db.run_addToChat, hins, if_true]
    exact ⟨_, Db.run_same (sendMessage_quiet (HandleAction.systemMessage c
      ("User " ++ CString.ofInt by_ ++ " has added user " ++ CString.ofInt u))),
      (Db.run_users (sendMessage_keepsUsers _)).trans husers, rfl⟩
  · simp only [addEach, Db.run_bind, Db.run_addToChat, hins]
    exact ⟨_, .refl, husers, rfl⟩

/-- `ADD_TO_GROUP_CHAT` is the loop, and a reply by the number of successes. -/
theorem run_addToGroupChat (un : Uninit) {json : Json} {p : AddToGroupChatParams}
    (hp : addToGroupChatParams json = some p) :
    d.run m (HandleAction.addToGroupChat un json) =
      let r := d.run m (addEach p.chatId p.addedBy (fun _ => 0) (copyIds un.participants 0 p.participantIds))
      (if 0 < r.1 then
          HandleAction.reply []
            ("Chat " ++ CString.ofInt p.chatId ++ " has succesfully added " ++ CString.ofInt r.1 ++ " users") 200
        else HandleAction.reply [] ("Unable to add users to chat " ++ CString.ofInt p.chatId) 400, r.2) := by
  simp only [HandleAction.addToGroupChat, hp, Db.run_bind]
  split <;> rfl

/-- The text of the `INSERT` of a `CREATE_CHAT`. -/
def CreateChatParams.sql (p : CreateChatParams) : CString := ChatSql.query (ChatSql.insertText p.isGroup p.chatName)

theorem createChatParams_isGroup {json : Json} {p : CreateChatParams} (h : createChatParams json = some p) :
    Json.INT_MIN ≤ p.isGroup ∧ p.isGroup ≤ Json.INT_MAX := by
  simp only [createChatParams, Option.bind_eq_bind, Option.bind_eq_some_iff, Option.pure_def, Option.some.injEq] at h
  obtain ⟨isGroupItem, -, _, -, _, -, _, -, _, -, _, -, _, -, _, -, rfl⟩ := h
  exact isGroupItem.valueint_range

/-- `CREATE_CHAT` changes nothing, and reports no success unless it reads what
it should, or makes the chats of its `INSERT`, lets the loop add the creator
and then those listed to the first, and reports the number of successes. -/
theorem createChat_cases (un : Uninit) (json : Json) :
    ((d.run m (HandleAction.createChat un json)).2 = d ∧
        ((createChatParams json).isSome →
          HandleAction.responseCode (d.run m (HandleAction.createChat un json)).1 = some 400) ∧
        ∀ p, createChatParams json = some p → p.countValid = true → ∀ rows, ¬ d.MakesChats m p.sql rows) ∨
      ∃ p c r more, ∃ d' : Db, createChatParams json = some p ∧ p.countValid = true ∧
        d.MakesChats m p.sql (r :: more) ∧ d'.participants = d.participants ∧ d'.users = d.users ∧
        d'.groups = d.groups ++ (c, p.isGroup) :: Tables.newGroups (c + 1) more ∧
        (∀ q ∈ d.participants, q.chatId < c) ∧
        d.run m (HandleAction.createChat un json) =
          let r := d'.run m (addEach c p.createdBy (fun id => if id = p.createdBy then 1 else 0)
            (p.createdBy :: copyIds un.participants 1 p.participantIds))
          (HandleAction.reply [] ("Chat " ++ p.chatName ++ " was succesfully created with " ++
            CString.ofInt r.1 ++ " users") 200, r.2) := by
  simp only [HandleAction.createChat]
  split
  next p hp =>
    split
    next hvalid =>
      simp only [Db.run_bind, Db.run_createChat]
      split
      next c hnew =>
        obtain ⟨hpart, husers, hfresh, r, more, hmakes, hgroups⟩ := Tables.insertChat_some d.wf hnew
        -- The flag stands in the text before the name.
        obtain ⟨rest, hsql⟩ := ChatSql.query_insertText (createChatParams_isGroup hp).1 (createChatParams_isGroup hp).2
          p.chatName
        have hgroup : r.isGroup = p.isGroup := m.chatRows_first (hsql ▸ hmakes.1)
        have hsend := sendMessage_quiet (HandleAction.systemMessage c
          ("User " ++ CString.ofInt p.createdBy ++ " has created the chat " ++ p.chatName))
        have hsame := Db.run_same (m := m) (d := (d.exec m (.insertChat p.sql)).2) hsend
        simp only [Db.run_bind, Db.run_pure]
        refine .inr ⟨p, c, r, more, _, hp, hvalid, hmakes, hsame.participants.trans hpart,
          (Db.run_users (sendMessage_keepsUsers _)).trans husers, hsame.groups.trans ?_, hfresh, rfl⟩
        rw [← hgroup]
        exact hgroups
      next hnone =>
        refine .inl ⟨Db.ext (Tables.insertChat_none hnone), fun _ =>
          HandleAction.responseCode_reply _ (by decide) (by decide), fun p' hp' _ => ?_⟩
        cases hp.symm.trans hp'
        obtain ⟨hno, -⟩ | ⟨r, rs, -, hsome⟩ := Tables.insertChat_cases m d.toTables p.sql
        · exact hno
        · have hexec : (d.exec m (.insertChat p.sql)).1 = some d.nextChatId := congrArg Prod.fst hsome
          cases hnone.symm.trans hexec
    next hvalid =>
      refine .inl ⟨rfl, fun _ => HandleAction.responseCode_reply _ (by decide) (by decide), fun p' hp' hvalid' => ?_⟩
      cases hp.symm.trans hp'
      exact absurd hvalid' hvalid
  next hnone => exact .inl ⟨rfl, fun h => by simp [hnone] at h, fun p hp _ => by cases hnone.symm.trans hp⟩

/-! ## Removing, and leaving -/

open HandleAction (removeEach)

/-- The database once a user's row in a chat is deleted and the chat was told so. -/
def Db.removed (m : Mysql) (d : Db) (c u : Int) (content : CString) : Db :=
  ((d.exec m (.deleteParticipant c u)).2.run m (sendMessage (HandleAction.systemMessage c content))).2

theorem Db.removed_same (c u : Int) (content : CString) :
    (d.deleteParticipant c u).SameMembers (d.removed m c u content).toTables :=
  Db.run_same (m := m) (d := (d.exec m (.deleteParticipant c u)).2) (sendMessage_quiet _)

/-- One turn of the loop for an id that is removed. -/
theorem run_removeEach_cons {r : Int} {j : Json} (c : Int) (js : List Json) (hj : j.isNumber ∧ j.valueint ≠ r) :
    d.run m (removeEach c r (j :: js)) =
      let d' := d.removed m c j.valueint
        ("User " ++ CString.ofInt r ++ " has removed user " ++ CString.ofInt j.valueint)
      ((d'.run m (removeEach c r js)).1 + 1, (d'.run m (removeEach c r js)).2) := by
  rw [removeEach, if_pos hj, Db.run_bind, Db.run_removeFromChat, if_pos rfl, Db.run_bind, Db.run_bind]
  rfl

/-- One turn of the loop for an element that is passed over. -/
theorem removeEach_skip {r : Int} {j : Json} (c : Int) (js : List Json) (hj : ¬ (j.isNumber ∧ j.valueint ≠ r)) :
    removeEach c r (j :: js) = removeEach c r js := if_neg hj

/-- `REMOVE_FROM_CHAT` is the loop, for an admin of a group. -/
theorem run_removeFromChat {json : Json} {p : RemoveFromChatParams} (hp : removeFromChatParams json = some p) :
    d.run m (HandleAction.removeFromChat json) =
      if ¬ d.IsAdmin p.chatId p.removedBy then (HandleAction.reply [] "Only admins can remove participants." 403, d)
      else if ¬ d.IsGroup p.chatId then
        (HandleAction.reply [] "Only participants from group chats can be removed." 403, d)
      else
        let r := d.run m (removeEach p.chatId p.removedBy p.participantIds)
        (HandleAction.reply [] ("Removed " ++ CString.ofInt r.1 ++ " out of " ++
          CString.ofInt p.participantIds.length ++ " participants from chat " ++ CString.ofInt p.chatId) 200, r.2) := by
  simp only [HandleAction.removeFromChat, hp]
  rw [Db.run_bind, Db.run_isUserAdmin]
  by_cases hadmin : d.IsAdmin p.chatId p.removedBy
  · rw [if_neg (by simpa using hadmin), if_neg (not_not.mpr hadmin), Db.run_bind, Db.run_isGroupChat]
    by_cases hgroup : d.IsGroup p.chatId
    · rw [if_neg (by simpa [Tables.IsGroup] using hgroup), if_neg (not_not.mpr hgroup), Db.run_bind]
      rfl
    · rw [if_pos (by simpa [Tables.IsGroup] using hgroup), if_pos hgroup]
      rfl
  · rw [if_pos (by simpa using hadmin), if_pos hadmin]
    rfl

/-- `EXIT_CHAT` deletes the user's row and tells the chat. Then it looks at
what it read before: the last participant takes the chat with him, and an
admin may need a successor. -/
theorem run_exitChat {json : Json} {c u : Int} (hp : exitChatParams json = some (c, u)) :
    d.run m (HandleAction.exitChat json) =
      let d' := d.removed m c u ("User " ++ CString.ofInt u ++ " has exited the chat")
      if (d.members c).length = 1 then d'.run m (HandleAction.exitLast c u)
      else if d.IsAdmin c u then d'.run m (HandleAction.exitAdmin c u)
      else (HandleAction.reply []
        ("User " ++ CString.ofInt u ++ " exited chat " ++ CString.ofInt c ++ " successfully") 200, d') := by
  simp only [HandleAction.exitChat, hp]
  rw [Db.run_bind, Db.run_isUserAdmin, Db.run_bind, Db.run_getParticipantCount, Db.run_bind,
    Db.run_removeFromChat]
  simp only [Bool.not_true, Bool.false_eq_true, if_false, Db.run_bind, Option.some.injEq]
  by_cases hcount : (d.members c).length = 1
  · rw [if_pos hcount, if_pos hcount]
    rfl
  rw [if_neg hcount, if_neg hcount]
  by_cases hadmin : d.IsAdmin c u
  · rw [if_pos (decide_eq_true hadmin), if_pos hadmin]
    rfl
  · rw [if_neg (by simpa using hadmin), if_neg hadmin]
    rfl

end FinalServer
