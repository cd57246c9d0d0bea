/-
The data server at work: requests answered one after another.

Each request is handled by a child process of its own, here to its end
before the next; between two requests time passes. What the managers'
queries answer is stated once, in terms of the tables.
-/
import FinalServer.Database
import FinalServer.HandleAction
import FinalServer.Run
import Mathlib.Data.List.Nodup

namespace FinalServer

/-- A request as it reaches a child process. -/
structure Call where
  un : Uninit
  /-- The seconds since the request before. -/
  elapsed : Nat
  request : Json

namespace Tables

variable {t : Tables}

/-- The user has an admin's row in the chat. -/
def IsAdmin (t : Tables) (c u : Int) : Prop :=
  ∃ p ∈ t.participants, p.chatId = c ∧ p.userId = u ∧ p.isAdmin = 1

instance (c u : Int) : Decidable (t.IsAdmin c u) := inferInstanceAs (Decidable (∃ p ∈ _, _))

/-- A user has at most one row in a chat. -/
theorem Wf.participants_inj (h : t.Wf) {p q : ParticipantRow} (hp : p ∈ t.participants)
    (hq : q ∈ t.participants) (hc : p.chatId = q.chatId) (hu : p.userId = q.userId) : p = q := by
  have hn : (t.participants.map fun p => (p.chatId, p.userId)).Nodup :=
    List.pairwise_map.mpr (h.participants_unique.imp fun hab he => hab (by simpa using he))
  exact List.inj_on_of_nodup_map hn hp hq (by simp [hc, hu])

/-- A chat has one row. -/
theorem Wf.chats_inj (h : t.Wf) {r s : ChatRow} (hr : r ∈ t.chats) (hs : s ∈ t.chats)
    (he : r.chatId = s.chatId) : r = s :=
  List.inj_on_of_nodup_map (List.pairwise_map.mpr (h.chats_sorted.imp ne_of_lt)) hr hs he

/-- A chat that is there has a row, and `SELECT` finds it alone. -/
theorem Wf.filter_chatId (h : t.Wf) {r : ChatRow} (hr : r ∈ t.chats) :
    ∃ rs, t.chats.filter (·.chatId = r.chatId) = r :: rs := by
  cases hf : t.chats.filter (·.chatId = r.chatId) with
  | nil => simpa using List.filter_eq_nil_iff.mp hf r hr
  | cons s rs =>
    have hs := List.mem_filter.mp (hf ▸ List.mem_cons_self : s ∈ t.chats.filter (·.chatId = r.chatId))
    exact ⟨rs, by rw [h.chats_inj hs.1 hr (by simpa using hs.2)]⟩

end Tables

namespace Db

def tick (d : Db) (n : Nat) : Db := { d with clock := d.clock + n, wf := { d.wf with } }

/-- A program alone. -/
def run {α : Type} (m : Mysql) (p : DbProg α) (d : Db) : α × Db := Prog.run (Db.exec m) p d

/-- The database after a request. -/
def serve (m : Mysql) (d : Db) (c : Call) : Db := ((d.tick c.elapsed).run m (handleAction c.un c.request)).2

section Run

variable {m : Mysql} {d : Db} {α β : Type}

@[simp] theorem run_ret (a : α) : d.run m (.ret a) = (a, d) := rfl

@[simp] theorem run_pure (a : α) : d.run m (pure a) = (a, d) := rfl

@[simp] theorem run_bind (p : DbProg α) (f : α → DbProg β) :
    d.run m (p >>= f) = ((d.run m p).2).run m (f (d.run m p).1) := Prog.run_bind _ _ _ _

theorem run_mysqlQuery (q : Query) : d.run m (mysqlQuery q) = d.exec m q := rfl

/-- A statement answered by `r`, and what follows it. -/
theorem run_query_bind {q : Query} {r : q.Result} (f : q.Result → DbProg β)
    (h : (Tables.exec m q d.toTables).1 = r) :
    d.run m (mysqlQuery q >>= f) = ((d.exec m q).2).run m (f r) := by
  subst h
  rfl

@[simp] theorem exec_tables (q : Query) : (d.exec m q).2.toTables = (Tables.exec m q d.toTables).2 := rfl

/-- What every statement of a program preserves, the program preserves. -/
theorem run_invariant {P : Query → Prop} {I : Tables → Prop} {p : DbProg α} (hp : Prog.Only P p)
    (hexec : ∀ q t, P q → t.Wf → I t → I (Tables.exec m q t).2) (h : I d.toTables) :
    I (d.run m p).2.toTables :=
  hp.invariant (I := fun d : Db => I d.toTables) (fun q d hq hd => hexec q d.toTables hq d.wf hd) h

end Run

theorem only_query {P : Query → Prop} {q : Query} (h : P q) : Prog.Only P (mysqlQuery q) := .call h .ret

/-! ## What the managers' functions do -/

variable {m : Mysql} {d : Db}

@[simp] theorem run_createChat (g : Int) (n : CString) :
    d.run m (createChat g n) = d.exec m (.insertChat (ChatSql.query (ChatSql.insertText g n))) := rfl

@[simp] theorem run_addToChat (c u a : Int) :
    d.run m (addToChat c u a) = d.exec m (.insertParticipant c u a) := rfl

@[simp] theorem run_removeFromChat (c u : Int) :
    d.run m (removeFromChat c u) = (true, (d.exec m (.deleteParticipant c u)).2) := rfl

@[simp] theorem run_deleteChat (c : Int) :
    d.run m (deleteChat c) = (true, (d.exec m (.deleteChat c)).2) := rfl

@[simp] theorem run_getParticipantCount (c : Int) :
    d.run m (getParticipantCount c) = (some (d.members c).length, d) := rfl

@[simp] theorem run_getAdminCount (c : Int) :
    d.run m (getAdminCount c) = (some (d.admins c).length, d) := rfl

/-- `is_user_admin` reads whether the user's row, if any, is an admin's. -/
@[simp] theorem run_isUserAdmin (c u : Int) :
    d.run m (isUserAdmin c u) = (decide (d.IsAdmin c u), d) := by
  have hans : (Tables.exec m (.selectIsAdmin c u) d.toTables).1 =
      some ((d.memberRows c u).map (·.isAdmin)) := rfl
  rw [isUserAdmin, run_query_bind _ hans]
  cases hr : d.memberRows c u with
  | nil =>
    have hno : ¬ d.IsAdmin c u := by
      rintro ⟨p, hp, hc, hu, -⟩
      exact Tables.memberRows_eq_nil.mp hr p hp ⟨hc, hu⟩
    rw [decide_eq_false hno]
    rfl
  | cons p ps =>
    have hmem : p ∈ d.memberRows c u := hr ▸ List.mem_cons_self
    simp only [Tables.memberRows, List.mem_filter, decide_eq_true_eq] at hmem
    obtain ⟨hp, hc, hu⟩ := hmem
    have hiff : (p.isAdmin == 1) = decide (d.IsAdmin c u) := by
      rw [Bool.eq_iff_iff, beq_iff_eq, decide_eq_true_iff]
      constructor
      · exact fun ha => ⟨p, hp, hc, hu, ha⟩
      · rintro ⟨q, hq, hqc, hqu, ha⟩
        rwa [d.wf.participants_inj hp hq (hc.trans hqc.symm) (hu.trans hqu.symm)]
    rw [← hiff]
    rfl

/-- `is_group_chat` reads the flag of the chat's row, if any. -/
@[simp] theorem run_isGroupChat (c : Int) :
    d.run m (isGroupChat c) = (decide (∃ r ∈ d.chats, r.chatId = c ∧ r.isGroup = 1), d) := by
  have hans : (Tables.exec m (.selectIsGroup c) d.toTables).1 =
      some ((d.chats.filter (·.chatId = c)).map (·.isGroup)) := rfl
  rw [isGroupChat, run_query_bind _ hans]
  by_cases hc : ∃ r ∈ d.chats, r.chatId = c
  · obtain ⟨r, hr, rfl⟩ := hc
    obtain ⟨rs, hrs⟩ := d.wf.filter_chatId hr
    have hiff : (r.isGroup == 1) = decide (∃ s ∈ d.chats, s.chatId = r.chatId ∧ s.isGroup = 1) := by
      rw [Bool.eq_iff_iff, beq_iff_eq, decide_eq_true_iff]
      constructor
      · exact fun hg => ⟨r, hr, rfl, hg⟩
      · rintro ⟨s, hs, he, hg⟩
        rwa [d.wf.chats_inj hr hs he.symm]
    rw [hrs, ← hiff]
    rfl
  · have hnil : d.chats.filter (·.chatId = c) = [] := by simpa using hc
    have hno : ¬ ∃ r ∈ d.chats, r.chatId = c ∧ r.isGroup = 1 := by
      rintro ⟨r, hr, he, -⟩
      exact hc ⟨r, hr, he⟩
    rw [hnil, decide_eq_false hno]
    rfl

/-- The promotion of whoever `LIMIT 1` picks; of nobody in an empty chat. -/
theorem run_promote (c : Int) :
    d.run m (promoteRandomParticipantToAdmin c) =
      match m.limitOne (d.members c) with
      | some p => (true, (d.exec m (.promote c p.userId)).2)
      | none => (false, d) := by
  have hans : (Tables.exec m (.selectFirstParticipant c) d.toTables).1 =
      some ((m.limitOne (d.members c)).toList.map (·.userId)) := rfl
  rw [promoteRandomParticipantToAdmin, run_query_bind _ hans]
  cases m.limitOne (d.members c) <;> rfl

/-- A request with an action is its branch of the `switch`. -/
theorem run_handleAction {un : Uninit} {query : Json} {a : Action} (ha : queryAction query = some a) :
    d.run m (handleAction un query) =
      (some (d.run m (HandleAction.answer un query a)).1, (d.run m (HandleAction.answer un query a)).2) := by
  obtain ⟨item, hitem, hcode⟩ := Option.bind_eq_some_iff.mp ha
  simp only [handleAction, hitem, hcode, run_bind, run_pure]

end Db

/-! ## A small server to run -/

/-- Rows come in the order of the table, times are written as decimal seconds,
and a text with more than literals is refused. -/
def Mysql.tableOrder : Mysql where
  later n s := s.bytes.foldl (fun acc b => 10 * acc + (b.toNat - 48)) 0 < n
  timestampText n := CString.ofInt n
  timestampText_plain n := plain_ofInt n
  isTrue _ := false
  limitOne := List.head?
  limitOne_mem h := List.mem_of_mem_head? h
  limitOne_isSome h := by simpa [List.isSome_head?] using h
  chatRows _ := ChatSql.readRows
  chatRows_literal h := h
  chatRows_first h := ChatSql.readRows_first h
  chatRows_range h := ChatSql.readRows_range h
  messageRows _ := MessageSql.readRows
  messageRows_literal h := h
  messageRows_first h := MessageSql.readRows_first h
  oddChats _ _ _ := none
  oddChats_range h := by cases h
  oddMessages _ _ _ := none
  oddMessages_range h := by cases h

/-- The system user, Alice, Bob and Carol, and no chats. -/
def Db.threeUsers : Db where
  users := [⟨1, "system", "system@x", "-"⟩, ⟨2, "alice", "alice@x", "sesame"⟩, ⟨3, "bob", "bob@x", "hush"⟩,
    ⟨4, "carol", "carol@x", "mum"⟩]
  chats := []
  participants := []
  messages := []
  nextUserId := 5
  nextChatId := 1
  nextMessageId := 1
  clock := 0
  wf := {
    users_sorted := by decide
    users_lt := by decide
    users_range := by decide
    users_next := by decide
    users_unique := by decide
    chats_sorted := .nil
    chats_lt := nofun
    chats_next := by decide
    participants_unique := .nil
    participants_chat := nofun
    participants_user := nofun
    messages_sorted := .nil
    messages_lt := nofun
    messages_chat := nofun
    messages_sender := nofun }

/-- Locals that hold zeros. -/
def Uninit.zero : Uninit := ⟨0, "", fun _ => 0, ⟨"", "", ""⟩⟩

/-- A request sent at once, with fields as the data server gets them. -/
def Call.of (a : Action) (fields : List (CString × Json)) : Call :=
  { un := .zero, elapsed := 0, request := .object (("action", .createNumber a.code) :: fields) }

def Call.createChat (createdBy : Int) (isGroup : Bool) (ids : List Int) : Call :=
  .of .createChat [("is_group", .bool isGroup), ("chat_name", .string "chat"),
    ("created_by", .createNumber createdBy), ("participant_ids", .array (ids.map .createNumber))]

def Call.addToGroupChat (chatId addedBy : Int) (ids : List Int) : Call :=
  .of .addToGroupChat [("chat_id", .createNumber chatId), ("added_by", .createNumber addedBy),
    ("participant_ids", .array (ids.map .createNumber))]

def Call.exitChat (chatId userId : Int) : Call :=
  .of .exitChat [("chat_id", .createNumber chatId), ("user_id", .createNumber userId)]

end FinalServer
