/-
Every chat has an admin.

The invariant (`AdminOK`) holds between requests, not between statements: a
new chat is without its admin until the creator is added, and a chat whose
last admin leaves is, until another participant is promoted or the chat is
deleted. So each of the four actions that change membership is followed
through its statements, and the others are quiet. What breaks it is a name
that makes the `INSERT` of `CREATE_CHAT` one of several rows: the creator is
added to the first chat, and nobody to the others (`MakesOneChat`).
-/
import FinalServer.Membership

namespace FinalServer

namespace Tables

/-- Every chat has a participant who is an admin. -/
def AdminOK (t : Tables) : Prop := ∀ c ∈ t.chatIds, t.HasAdmin c

/-- Every chat but one. -/
def AdminOKBut (t : Tables) (c : Int) : Prop := ∀ c' ∈ t.chatIds, c' ≠ c → t.HasAdmin c'

variable {m : Mysql} {t t' : Tables}

theorem SameMembers.adminOK (h : SameMembers t t') (hok : t.AdminOK) : t'.AdminOK := by
  intro c hc
  rw [h.chatIds] at hc
  exact h.hasAdmin.mpr (hok c hc)

theorem SameMembers.adminOKBut {c : Int} (h : SameMembers t t') (hok : t.AdminOKBut c) : t'.AdminOKBut c := by
  intro c' hc' hne
  rw [h.chatIds] at hc'
  exact h.hasAdmin.mpr (hok c' hc' hne)

theorem AdminOKBut.adminOK {c : Int} (h : t.AdminOKBut c) (hc : c ∈ t.chatIds → t.HasAdmin c) : t.AdminOK := by
  intro c' hc'
  by_cases heq : c' = c
  · exact heq ▸ hc (heq ▸ hc')
  · exact h c' hc' heq

@[simp] theorem chatIds_insertParticipant (c u a : Int) :
    (t.insertParticipant c u a).2.chatIds = t.chatIds := by
  simp only [insertParticipant]
  split <;> rfl

theorem AdminOK.insertParticipant (c u a : Int) (h : t.AdminOK) : (t.insertParticipant c u a).2.AdminOK := by
  intro c' hc'
  rw [chatIds_insertParticipant] at hc'
  exact (h c' hc').insertParticipant a

/-- The first participant of a chat comes in. -/
theorem insertParticipant_first {c u a : Int} (hc : c ∈ t.chatIds) (hu : u ∈ t.userIds)
    (hno : ∀ p ∈ t.participants, p.chatId ≠ c) :
    t.insertParticipant c u a = (true, { t with participants := t.participants ++ [⟨c, u, a⟩] }) := by
  rw [insertParticipant, if_pos ⟨hc, hu, memberRows_eq_nil.mpr fun p hp h => hno p hp h.1⟩]

end Tables

open Prog (Only)
open HandleAction (addEach removeEach)

variable {m : Mysql} {d : Db}

/-! ## Adding -/

/-- The statement is quiet or adds a participant to chat `c`. -/
def Query.addsTo (c : Int) (q : Query) : Prop := q.quiet = true ∨ ∃ u a, q = .insertParticipant c u a

theorem exec_addsTo_adminOK {q : Query} {t : Tables} {c : Int} (hq : q.addsTo c) (h : t.AdminOK) :
    (Tables.exec m q t).2.AdminOK := by
  rcases hq with hq | ⟨u, a, rfl⟩
  · exact (Tables.exec_same hq).adminOK h
  · exact h.insertParticipant c u a

theorem addEach_addsTo (c by_ : Int) (f : Int → Int) (us : List Int) :
    Only (Query.addsTo c) (addEach c by_ f us) := by
  induction us with
  | nil => exact .ret _
  | cons u us ih =>
    refine .bind (Db.only_query (.inr ⟨_, _, rfl⟩)) fun r => ?_
    split
    · refine .bind ((sendMessage_quiet _).mono fun q hq => .inl hq) fun _ => .bind ih fun _ => .ret _
    · exact ih

theorem addEach_adminOK (c by_ : Int) (f : Int → Int) (us : List Int) (h : d.AdminOK) :
    (d.run m (addEach c by_ f us)).2.AdminOK :=
  Db.run_invariant (addEach_addsTo c by_ f us) (fun _ _ hq _ h => exec_addsTo_adminOK hq h) h

/-- Another chat stays as empty as it was. -/
theorem addEach_elsewhere {c c' : Int} (by_ : Int) (f : Int → Int) (us : List Int) (hne : c' ≠ c)
    (hc : c' ∈ d.chatIds) (hno : ∀ p ∈ d.participants, p.chatId ≠ c') :
    c' ∈ (d.run m (addEach c by_ f us)).2.chatIds ∧
      ∀ p ∈ (d.run m (addEach c by_ f us)).2.participants, p.chatId ≠ c' := by
  refine Db.run_invariant (I := fun t => c' ∈ t.chatIds ∧ ∀ p ∈ t.participants, p.chatId ≠ c')
    (addEach_addsTo c by_ f us) ?_ ⟨hc, hno⟩
  rintro q t (hq | ⟨u, a, rfl⟩) - ⟨hc, hno⟩
  · have hsame := Tables.exec_same (m := m) (t := t) hq
    exact ⟨hsame.chatIds ▸ hc, hsame.participants ▸ hno⟩
  · refine ⟨(Tables.chatIds_insertParticipant c u a).symm ▸ hc, ?_⟩
    simp only [Tables.exec, Tables.insertParticipant]
    split
    · exact Tables.forall_mem_concat.mpr ⟨hno, hne.symm⟩
    · exact hno

/-- `ADD_TO_GROUP_CHAT` only adds. -/
theorem addToGroupChat_adminOK (un : Uninit) (json : Json) (h : d.AdminOK) :
    (d.run m (HandleAction.addToGroupChat un json)).2.AdminOK := by
  simp only [HandleAction.addToGroupChat]
  split
  · rw [Db.run_bind]
    split <;> exact addEach_adminOK _ _ _ _ h
  · exact h

/-- The first of the list is let into a chat without participants, and becomes its admin. -/
theorem addEach_first_adminOK {c u : Int} (by_ : Int) (f : Int → Int) (us : List Int) (hf : f u = 1)
    (hc : c ∈ d.chatIds) (hu : u ∈ d.userIds) (hno : ∀ p ∈ d.participants, p.chatId ≠ c)
    (h : d.AdminOKBut c) : (d.run m (addEach c by_ f (u :: us))).2.AdminOK := by
  have hins : d.toTables.insertParticipant c u (f u) = _ := Tables.insertParticipant_first hc hu hno
  have hans : (d.exec m (.insertParticipant c u (f u))).1 = true := congrArg Prod.fst hins
  have hok : (d.exec m (.insertParticipant c u (f u))).2.AdminOK := by
    intro c' hc'
    have hc' : c' ∈ d.chatIds := by
      rwa [Db.exec_tables, Tables.exec, Tables.chatIds_insertParticipant] at hc'
    by_cases heq : c' = c
    · refine ⟨⟨c, u, f u⟩, ?_, heq.symm, hf⟩
      rw [Db.exec_tables, Tables.exec, hins]
      simp
    · exact (h c' hc' heq).insertParticipant _
  simp only [addEach, Db.run_bind, Db.run_addToChat, hans, if_true]
  exact addEach_adminOK _ _ _ _ ((Db.run_same (sendMessage_quiet _)).adminOK hok)

/-- The request makes no more than one chat: MySQL reads no second row in the
text of the `INSERT`, or the ids do not suffice for all rows. -/
def MakesOneChat (m : Mysql) (t : Tables) (json : Json) : Prop :=
  ∀ p, createChatParams json = some p → p.countValid = true → ∀ rows, t.MakesChats m p.sql rows → rows.length = 1

/-- The creator comes first into the first chat, as an admin, and whoever is
added after takes nothing away; but nobody comes into a second one. -/
theorem createChat_adminOK_iff (un : Uninit) {json : Json}
    (hcreator : ∀ p, createChatParams json = some p → p.createdBy ∈ d.userIds) (h : d.AdminOK) :
    (d.run m (HandleAction.createChat un json)).2.AdminOK ↔ MakesOneChat m d.toTables json := by
  rcases createChat_cases (m := m) (d := d) un json with
    ⟨hsame, -, hno⟩ | ⟨p, c, r, more, d', hp, hvalid, hmakes, hpart, husers, hgroups, hfresh, hrun⟩
  · rw [hsame]
    exact iff_of_true h fun p hp hvalid rows hrows => absurd hrows (hno p hp hvalid rows)
  have hids : ∀ c', c' ∈ d'.chatIds ↔ c' ∈ d.chatIds ∨ c' = c ∨ c' ∈ (Tables.newGroups (c + 1) more).map (·.1) := by
    intro c'
    rw [Tables.chatIds_eq_groups, hgroups, Tables.chatIds_eq_groups]
    simp
  rw [hrun]
  cases more with
  | nil =>
    refine iff_of_true ?_ fun p' hp' _ rows hrows => ?_
    · refine addEach_first_adminOK _ _ _ (if_pos rfl) ((hids c).mpr (.inr (.inl rfl))) ?_
        (hpart ▸ fun p hp => (hfresh p hp).ne) ?_
      · rw [Tables.userIds, husers]
        exact hcreator p hp
      · intro c' hc' hne
        rcases (hids c').mp hc' with hold | heq | hnew
        · have := h c' hold
          rwa [Tables.HasAdmin, hpart]
        · exact absurd heq hne
        · cases hnew
    · cases hp.symm.trans hp'
      cases hmakes.1.symm.trans hrows.1
      rfl
  | cons r' more =>
    refine iff_of_false (fun hok => ?_) fun hone => by cases hone p hp hvalid _ hmakes
    -- Nobody is in the second chat.
    have hsecond : c + 1 ∈ d'.chatIds := (hids _).mpr (.inr (.inr (by simp [Tables.newGroups, Tables.newChats])))
    obtain ⟨hc, hno⟩ := addEach_elsewhere (m := m) p.createdBy (fun id => if id = p.createdBy then 1 else 0)
      (p.createdBy :: HandleAction.copyIds un.participants 1 p.participantIds) (Int.lt_succ c).ne' hsecond
      (hpart ▸ fun q hq => ((hfresh q hq).trans (Int.lt_succ c)).ne)
    obtain ⟨q, hq, hqc, -⟩ := hok (c + 1) hc
    exact hno q hq hqc

/-! ## Removing -/

/-- The statement is quiet or removes somebody else than `r` from chat `c`. -/
def Query.removesOthers (c r : Int) (q : Query) : Prop :=
  q.quiet = true ∨ ∃ u, u ≠ r ∧ q = .deleteParticipant c u

theorem removeEach_removesOthers (c r : Int) (ids : List Json) :
    Only (Query.removesOthers c r) (removeEach c r ids) := by
  induction ids with
  | nil => exact .ret _
  | cons j js ih =>
    simp only [removeEach]
    split
    next hj =>
      refine .bind (Db.only_query (.inr ⟨_, hj.2, rfl⟩)) fun ok => ?_
      split
      · refine .bind ((sendMessage_quiet _).mono fun q hq => .inl hq) fun _ => .bind ih fun _ => .ret _
      · exact ih
    next => exact ih

/-- While others are removed the remover is an admin, so every chat has one. -/
theorem removeEach_adminOK {c r : Int} (ids : List Json) (h : d.AdminOK) (hr : d.IsAdmin c r) :
    (d.run m (removeEach c r ids)).2.AdminOK ∧ (d.run m (removeEach c r ids)).2.IsAdmin c r := by
  refine Db.run_invariant (I := fun t => t.AdminOK ∧ t.IsAdmin c r) (removeEach_removesOthers c r ids) ?_ ⟨h, hr⟩
  rintro q t (hq | ⟨u, hu, rfl⟩) - ⟨hok, hadmin⟩
  · have hsame := Tables.exec_same (m := m) (t := t) hq
    exact ⟨hsame.adminOK hok, hsame.isAdmin.mpr hadmin⟩
  · have hadmin' : (t.deleteParticipant c u).IsAdmin c r := hadmin.deleteParticipant (.inr hu.symm)
    refine ⟨fun c' hc' => ?_, hadmin'⟩
    by_cases heq : c' = c
    · exact heq ▸ hadmin'.hasAdmin
    · exact (hok c' hc').deleteParticipant (u := u) (.inl heq)

/-- The remover is an admin and stays one. -/
theorem removeFromChat_adminOK (json : Json) (h : d.AdminOK) :
    (d.run m (HandleAction.removeFromChat json)).2.AdminOK := by
  cases hp : removeFromChatParams json with
  | none =>
    simp only [HandleAction.removeFromChat, hp]
    exact h
  | some p =>
    rw [run_removeFromChat hp]
    by_cases hadmin : d.IsAdmin p.chatId p.removedBy
    · rw [if_neg (not_not.mpr hadmin)]
      split
      · exact h
      · exact (removeEach_adminOK _ h hadmin).1
    · rw [if_pos hadmin]
      exact h

/-! ## Leaving -/

theorem AdminOK.deleteParticipant {t : Tables} (c u : Int) (h : t.AdminOK) :
    (t.deleteParticipant c u).AdminOKBut c :=
  fun c' hc' hne => (h c' hc').deleteParticipant (u := u) (.inl hne)

theorem exitLast_adminOK {c : Int} (u : Int) (h : d.AdminOKBut c) :
    (d.run m (HandleAction.exitLast c u)).2.AdminOK := by
  simp only [HandleAction.exitLast, Db.run_bind, Db.run_deleteChat, if_true, Db.run_pure]
  intro c' hc'
  obtain ⟨hc', hne⟩ := Tables.chatIds_deleteChat.mp hc'
  exact (h c' hc' hne).deleteChat hne

/-- Whoever is picked among those who stay becomes the admin. -/
theorem exitAdmin_adminOK {c : Int} (u : Int) (h : d.AdminOKBut c) (hne : d.members c ≠ []) :
    (d.run m (HandleAction.exitAdmin c u)).2.AdminOK := by
  simp only [HandleAction.exitAdmin, Db.run_bind]
  by_cases hcount : (d.run m (getAdminCount c)).1 = some 0
  · rw [if_pos hcount]
    obtain ⟨p, hp⟩ := Option.isSome_iff_exists.mp (m.limitOne_isSome hne)
    simp only [Db.run_bind, Db.run_getAdminCount, Db.run_promote, hp, if_true, Db.run_pure]
    have hids : (d.toTables.promote c p.userId).chatIds = d.chatIds := rfl
    refine Tables.AdminOKBut.adminOK (c := c) (fun c' hc' hne' => ?_) fun _ => ?_
    · exact (h c' (hids ▸ hc') hne').promote
    · exact Tables.hasAdmin_promote (m.limitOne_mem hp)
  · rw [if_neg hcount]
    refine h.adminOK fun _ => Tables.hasAdmin_iff_admins.mpr fun hnil => hcount ?_
    rw [Db.run_getAdminCount, hnil]
    rfl

/-- A participant leaves: the last one with the chat, the last admin against
another one's promotion. -/
theorem exitChat_adminOK (json : Json) (h : d.AdminOK) :
    (d.run m (HandleAction.exitChat json)).2.AdminOK := by
  cases hp : exitChatParams json with
  | none =>
    simp only [HandleAction.exitChat, hp]
    exact h
  | some p =>
    obtain ⟨c, u⟩ := p
    rw [run_exitChat hp]
    set d' := d.removed m c u ("User " ++ CString.ofInt u ++ " has exited the chat")
    have hsame : (d.deleteParticipant c u).SameMembers d'.toTables := Db.removed_same ..
    have hbut : d'.AdminOKBut c := hsame.adminOKBut (AdminOK.deleteParticipant c u h)
    by_cases hcount : (d.members c).length = 1
    · rw [if_pos hcount]
      exact exitLast_adminOK u hbut
    rw [if_neg hcount]
    by_cases hadmin : d.IsAdmin c u
    · rw [if_pos hadmin]
      refine exitAdmin_adminOK u hbut ?_
      -- The leaver was a participant, so somebody else is left.
      obtain ⟨p, hp, hpc, -⟩ := hadmin
      have hmem : p ∈ d.members c := by simp [Tables.members, hp, hpc]
      have hpos := List.length_pos_of_mem hmem
      rw [hsame.members]
      exact d.wf.members_deleteParticipant (by omega)
    · rw [if_neg hadmin]
      refine hbut.adminOK fun hc => ?_
      rw [hsame.chatIds] at hc
      rw [hsame.hasAdmin]
      exact (h c hc).deleteParticipant (.inr hadmin)

/-! ## Runs -/

/-- The creator of a chat is a user. -/
def CreatorExists (d : Db) (call : Call) : Prop :=
  queryAction call.request = some .createChat → ∀ u, readActingUser call.request = some u → u ∈ d.userIds

/-- If the request makes a chat, it makes no more than one. -/
def OneChat (m : Mysql) (d : Db) (call : Call) : Prop :=
  queryAction call.request = some .createChat → MakesOneChat m (d.tick call.elapsed).toTables call.request

theorem answer_adminOK_iff {un : Uninit} {json : Json} {a : Option Action}
    (hcreator : a = some .createChat → ∀ p, createChatParams json = some p → p.createdBy ∈ d.userIds)
    (h : d.AdminOK) : (d.run m (HandleAction.answer un json a)).2.AdminOK ↔
      (a = some .createChat → MakesOneChat m d.toTables json) := by
  cases a with
  | none => exact iff_of_true h (fun ha => by cases ha)
  | some a =>
    cases a with
    | createChat =>
      refine (createChat_adminOK_iff un (hcreator rfl) h).trans ?_
      exact ⟨fun hone _ => hone, fun hone => hone rfl⟩
    | addToGroupChat => exact iff_of_true (addToGroupChat_adminOK un json h) (fun ha => by cases ha)
    | removeFromChat => exact iff_of_true (removeFromChat_adminOK json h) (fun ha => by cases ha)
    | exitChat => exact iff_of_true (exitChat_adminOK json h) (fun ha => by cases ha)
    | _ => exact iff_of_true ((Db.run_same (answer_quiet rfl)).adminOK h) (fun ha => by cases ha)

/-- One request keeps every chat with an admin exactly if it makes no second chat. -/
theorem serve_adminOK_iff {call : Call} (h : d.AdminOK) (hcreator : CreatorExists d call) :
    (d.serve m call).AdminOK ↔ OneChat m d call := by
  have htick : (d.tick call.elapsed).AdminOK := h
  simp only [Db.serve, handleAction, OneChat, queryAction]
  split
  next hnone => simp [hnone, htick]
  next item hitem =>
    simp only [Db.run_bind, Db.run_pure, hitem, Option.bind_some]
    refine answer_adminOK_iff (fun ha p hp => ?_) htick
    have hq : queryAction call.request = some .createChat := by simp [queryAction, hitem, ha]
    exact hcreator hq p.createdBy (by simp [readActingUser, hq, actingUser, hp])

/-- **When every chat has an admin.** In every state that requests, one after
another, lead to from empty chat tables, exactly if none of them makes more
than one chat. -/
theorem reachable_adminOK_iff (m : Mysql) (d : Db) (hd : d.chats = []) (calls : List Call)
    (hcreator : Run.Along (Db.serve m) CreatorExists d calls) :
    (∀ pre, pre <+: calls → (Run.exec (Db.serve m) d pre).AdminOK) ↔
      Run.Along (Db.serve m) (OneChat m) d calls := by
  refine hcreator.forall_prefix_iff (I := fun d => d.AdminOK) (J := fun _ => True) (fun _ _ _ _ => trivial) trivial
    (fun d call _ hc h => serve_adminOK_iff h hc) ?_
  intro c hc
  simp [Tables.chatIds, hd] at hc

/-- A name without quotes, and without backslashes but before `%` and `_`, that
fits the statement makes one chat. -/
theorem makesOneChat_of_verbatim {t : Tables} {json : Json} (h : ∀ p, createChatParams json = some p →
    SqlText.Verbatim p.chatName.bytes ∧ (ChatSql.insertText p.isGroup p.chatName).length < ChatSql.QUERY_SIZE) :
    MakesOneChat m t json := by
  rintro p hp - rows ⟨hread, -⟩
  obtain ⟨hlo, hhi⟩ := createChatParams_isGroup hp
  have hone := m.chatRows_literal (t := t) (ChatSql.readRows_query hlo hhi (h p hp).1 (h p hp).2)
  cases hone.symm.trans hread
  rfl

/-- Alice makes a group with Bob and leaves it. -/
def founderLeaves : List Call := [.createChat 2 true [3], .exitChat 1 2]

theorem reachable_adminOK_iff_founderLeaves :
    (∀ pre, pre <+: founderLeaves → (Run.exec (Db.serve .tableOrder) .threeUsers pre).AdminOK) ↔
      Run.Along (Db.serve .tableOrder) (OneChat .tableOrder) .threeUsers founderLeaves :=
  reachable_adminOK_iff .tableOrder .threeUsers rfl founderLeaves
    ⟨fun _ u hu => by
      obtain rfl : 2 = u := Option.some.inj hu
      decide, fun hq => absurd hq (by decide), trivial⟩

/-- Alice makes a group with a name that ends its row and starts another. -/
def twoRows : Call :=
  .of .createChat [("is_group", .bool true), ("chat_name", .string "x'), ('1', 'y"), ("created_by", .createNumber 2),
    ("participant_ids", .array [.createNumber 3])]

/-- There are two chats then, and nobody is in the second. -/
theorem second_chat_empty :
    ¬ ∀ (m : Mysql) (d : Db) (calls : List Call), d.chats = [] → Run.Along (Db.serve m) CreatorExists d calls →
      (Run.exec (Db.serve m) d calls).AdminOK := by
  intro h
  have hok := h .tableOrder .threeUsers [twoRows] rfl
    ⟨fun _ u hu => by
      obtain rfl : 2 = u := Option.some.inj hu
      decide, trivial⟩
  have hchat : 2 ∈ (Run.exec (Db.serve .tableOrder) .threeUsers [twoRows]).chatIds := by decide +kernel
  obtain ⟨p, hp, hc, -⟩ := hok 2 hchat
  have hnobody : ∀ p ∈ (Run.exec (Db.serve .tableOrder) .threeUsers [twoRows]).participants, p.chatId ≠ 2 := by
    decide +kernel
  exact hnobody p hp hc

end FinalServer
