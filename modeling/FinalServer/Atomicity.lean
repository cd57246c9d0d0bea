/-
What a refused request leaves behind when statements fail.

A `400` is meant to say that nothing was done. It does for every action and
whichever statements fail, but for one: a message whose `INSERT` succeeded
stays where it is when the `UPDATE` of `last_message_id` fails, and the sender
is told that it could not be sent.
-/
import FinalServer.Faults
import FinalServer.Membership
import FinalServer.MessageSql

namespace FinalServer

/-- The answer to a statement that failed. -/
def Query.refused (q : Query) : q.Result := default

/-- A program while the statements fail that the sequence says, one entry a statement. -/
def Db.runFailing {α : Type} (m : Mysql) (fails : Nat → Bool) (p : DbProg α) (d : Db) : α × Db :=
  let r := p.run (Prog.faulty (Db.exec m) Query.refused) (fails, d)
  (r.1, r.2.2)

namespace Tables

variable {m : Mysql} {t t' : Tables}

/-- The rows of the four tables are the same. -/
structure SameRows (t t' : Tables) : Prop where
  users : t'.users = t.users
  chats : t'.chats = t.chats
  participants : t'.participants = t.participants
  messages : t'.messages = t.messages

theorem SameRows.refl : SameRows t t := ⟨rfl, rfl, rfl, rfl⟩

theorem exec_reads {q : Query} (hq : q.reads) : (exec m q t).2 = t := by
  cases q <;> first | rfl | cases hq

/-- A statement that MySQL refuses has no effect. -/
theorem exec_refused {q : Query} (h : (exec m q t).1 = q.refused) : (exec m q t).2 = t := by
  cases q with
  | insertUser sql =>
    simp only [exec] at h ⊢
    split
    next u e p hread =>
      rw [hread] at h
      simp only [insertUser] at h ⊢
      split
      · rfl
      next hnew =>
        rw [if_neg hnew] at h
        cases h
    next => rfl
  | insertChat sql => exact insertChat_none h
  | insertParticipant c u a =>
    simp only [exec, insertParticipant] at h ⊢
    split
    next hok =>
      rw [if_pos hok] at h
      cases h
    next => rfl
  | insertMessage sql =>
    have hnone : (t.insertMessage m sql).1 = none := h
    simp only [exec, insertMessage] at hnone ⊢
    rw [insertRows_none hnone]
  | updateLastMessage | deleteParticipant | promote | deleteChat => cases h
  | _ => rfl

end Tables

open Prog (Only Returns AllOrNothing)
open HandleAction (addEach removeEach responseCode responseCode_reply)

variable {m : Mysql} {d : Db}

/-! ## What refuses a request changes nothing -/

/-- A program that changes nothing when it answers with a `400`. -/
abbrev RefusesWhole (p : DbProg Json) : Prop :=
  AllOrNothing Query.refused Query.reads (fun r => responseCode r = some 400) p

/-- The other replies. -/
theorem returns_reply {text : CString} {code : Int} (hlo : Json.INT_MIN ≤ code) (hhi : code ≤ Json.INT_MAX)
    (hne : code ≠ 400) :
    Returns (Q := Query) (R := Query.Result) (fun r => ¬ responseCode r = some 400)
      (.ret (HandleAction.reply [] text code)) := by
  refine .ret ?_
  rw [responseCode_reply text hlo hhi]
  simpa using hne

theorem createUser_refusesWhole (un : Uninit) (json : Json) : RefusesWhole (HandleAction.createUser un json) := by
  refine .write_bind (.ret _) fun r hr => ?_
  obtain rfl : r = true := eq_true_of_ne_false hr
  exact returns_reply (by decide) (by decide) (by decide)

/-- No user is added only if every `INSERT` is refused. -/
theorem addEach_allOrNothing (c by_ : Int) (f : Int → Int) (us : List Int) :
    AllOrNothing Query.refused Query.reads (· = 0) (addEach c by_ f us) := by
  induction us with
  | nil => exact .ret _
  | cons u us ih =>
    refine .write_bind ih fun r hr => ?_
    obtain rfl : r = true := eq_true_of_ne_false hr
    show Returns _ (sendMessage _ >>= fun _ => addEach c by_ f us >>= fun n => .ret (n + 1))
    exact .bind _ fun _ => .bind _ fun n => .ret (Nat.succ_ne_zero n)

theorem addToGroupChat_refusesWhole (un : Uninit) (json : Json) :
    RefusesWhole (HandleAction.addToGroupChat un json) := by
  simp only [HandleAction.addToGroupChat]
  split
  · refine .bind (addEach_allOrNothing ..) (fun n hn => ?_) fun n hn => ?_
    · rw [if_neg (by omega)]
      exact .ret _
    · rw [if_pos (by omega)]
      exact returns_reply (by decide) (by decide) (by decide)
  · exact .ret _

theorem createChat_refusesWhole (un : Uninit) (json : Json) : RefusesWhole (HandleAction.createChat un json) := by
  simp only [HandleAction.createChat]
  split
  · split
    · refine .write_bind (.ret _) fun r hr => ?_
      obtain ⟨c, rfl⟩ := Option.ne_none_iff_exists'.mp hr
      refine .bind _ fun _ => .bind _ fun n => ?_
      exact returns_reply (by decide) (by decide) (by decide)
    · exact .ret _
  · exact .ret _

theorem removeFromChat_refusesWhole (json : Json) : RefusesWhole (HandleAction.removeFromChat json) := by
  simp only [HandleAction.removeFromChat]
  split
  · refine .reads_bind (isUserAdmin_reads _ _) fun isAdmin => ?_
    split
    · exact .ret _
    refine .reads_bind (isGroupChat_reads _) fun isGroup => ?_
    split
    · exact .ret _
    · refine .never (.bind _ fun n => ?_)
      exact returns_reply (by decide) (by decide) (by decide)
  · exact .ret _

theorem exitChat_refusesWhole (json : Json) : RefusesWhole (HandleAction.exitChat json) := by
  simp only [HandleAction.exitChat]
  split
  · refine .reads_bind (isUserAdmin_reads _ _) fun isAdmin => ?_
    refine .read trivial fun count => ?_
    refine .write_bind (.ret _) fun r hr => ?_
    obtain rfl : r = true := eq_true_of_ne_false hr
    simp only [Bool.not_true, Bool.false_eq_true, if_false]
    -- Once the row is deleted a failure is a 500.
    refine .bind _ fun _ => ?_
    split
    · refine .bind _ fun deleted => ?_
      split <;> exact returns_reply (by decide) (by decide) (by decide)
    split
    · refine .bind _ fun count => ?_
      split
      · refine .bind _ fun promoted => ?_
        split <;> exact returns_reply (by decide) (by decide) (by decide)
      · exact returns_reply (by decide) (by decide) (by decide)
    · exact returns_reply (by decide) (by decide) (by decide)
  · exact .ret _

/-- Every action but `SEND_MESSAGE` refuses a request as a whole. -/
theorem answer_refusesWhole (un : Uninit) (json : Json) {a : Option Action} (hsend : a ≠ some .sendMessage) :
    RefusesWhole (HandleAction.answer un json a) := by
  cases a with
  | none => exact .ret _
  | some a =>
    cases a with
    | createUser => exact createUser_refusesWhole un json
    | createChat => exact createChat_refusesWhole un json
    | addToGroupChat => exact addToGroupChat_refusesWhole un json
    | removeFromChat => exact removeFromChat_refusesWhole json
    | exitChat => exact exitChat_refusesWhole json
    | sendMessage => exact absurd rfl hsend
    | _ => exact .of_only (answer_reads rfl (by simp) (by simp))

/-! ## Runs with failures -/

section Run

variable {fails : Nat → Bool} {α β : Type}

/-- Without failures the database runs as it does. -/
theorem Db.runFailing_never (p : DbProg α) : d.runFailing m (fun _ => false) p = d.run m p := by
  simp only [Db.runFailing, Prog.run_faulty_never]
  rfl

theorem Db.runFailing_bind_ret (p : DbProg α) (g : α → β) :
    d.runFailing m fails (p >>= fun a => .ret (g a)) =
      (g (d.runFailing m fails p).1, (d.runFailing m fails p).2) := by
  simp only [Db.runFailing, Prog.run_bind, Prog.run_ret]

theorem Db.runFailing_query_bind (q : Query) (f : q.Result → DbProg β) :
    d.runFailing m fails (mysqlQuery q >>= f) =
      if fails 0 then d.runFailing m (fun n => fails (n + 1)) (f q.refused)
      else (d.exec m q).2.runFailing m (fun n => fails (n + 1)) (f (d.exec m q).1) := by
  have hrun : Prog.run (Prog.faulty (Db.exec m) Query.refused) (mysqlQuery q >>= f) (fails, d) =
      (f (Prog.faulty (Db.exec m) Query.refused q (fails, d)).1).run (Prog.faulty (Db.exec m) Query.refused)
        (Prog.faulty (Db.exec m) Query.refused q (fails, d)).2 := rfl
  simp only [Db.runFailing, hrun, Prog.faulty]
  split <;> rfl

/-- `send_message` is two statements, the second only after the first. -/
theorem Db.runFailing_sendMessage_bind (msg : Message) (g : Bool → β) :
    d.runFailing m fails (sendMessage msg >>= fun ok => .ret (g ok)) =
      let stored := d.exec m (.insertMessage msg.sql)
      if fails 0 then (g false, d)
      else match stored.1 with
        | none => (g false, stored.2)
        | some i =>
          if fails 1 then (g false, stored.2)
          else (g true, (stored.2.exec m (.updateLastMessage i msg.chatId)).2) := by
  rw [sendMessage, Prog.bind_assoc, Db.runFailing_query_bind]
  split
  · rfl
  next =>
    generalize d.exec m (.insertMessage msg.sql) = stored
    obtain ⟨answer, d'⟩ := stored
    cases answer with
    | none => rfl
    | some i =>
      show d'.runFailing m _ (mysqlQuery (.updateLastMessage i msg.chatId) >>= fun ok => .ret (g ok)) = _
      rw [Db.runFailing_query_bind]
      split <;> rfl

end Run

/-! ## When a refusal is whole -/

variable {fails : Nat → Bool} {query : Json}

/-- The request sends a message, its `INSERT` goes through and its `UPDATE` fails. -/
def HalfSent (m : Mysql) (d : Db) (fails : Nat → Bool) (query : Json) : Prop :=
  queryAction query = some .sendMessage ∧
    ∃ p, sendMessageParams query = some p ∧ d.Storable m p.message.sql ∧ fails 0 = false ∧ fails 1 = true

theorem exec_insertMessage_storable {sql : CString} (h : d.Storable m sql) :
    (d.exec m (.insertMessage sql)).1 = some d.nextMessageId ∧
      d.messages.length < (d.exec m (.insertMessage sql)).2.messages.length := by
  obtain ⟨hno, -⟩ | ⟨r, rs, -, -, hstored⟩ := Tables.insertMessage_cases m d.toTables sql
  · exact absurd h hno
  · refine ⟨congrArg Prod.fst hstored, ?_⟩
    rw [Db.exec_tables, Tables.exec, hstored, List.length_append]
    exact Nat.lt_add_of_pos_right (Nat.succ_pos _)

theorem exec_insertMessage_refused {sql : CString} (h : ¬ d.Storable m sql) :
    d.exec m (.insertMessage sql) = (none, d) := by
  have hnone : (d.exec m (.insertMessage sql)).1 = none := congrArg Prod.fst (Tables.insertMessage_refused h)
  exact Prod.ext hnone (Db.ext (Tables.exec_refused hnone))

/-- `SEND_MESSAGE` is `send_message`, and a reply by its success. -/
theorem sendMessage_answers {p : SendMessageParams} (hp : sendMessageParams query = some p) :
    ∃ answer : Bool → Json,
      HandleAction.sendMessage query = sendMessage p.message >>= (fun ok => .ret (answer ok)) ∧
        responseCode (answer false) = some 400 ∧ responseCode (answer true) = some 200 := by
  refine ⟨fun ok =>
    if ok then HandleAction.reply [] ("Message from " ++ CString.ofInt p.senderId ++
      " was succesfully sent to chat " ++ CString.ofInt p.chatId) 200
    else HandleAction.reply [] "Message couldn't be sent unsuccesful" 400, ?_,
    responseCode_reply _ (by decide) (by decide), responseCode_reply _ (by decide) (by decide)⟩
  simp only [HandleAction.sendMessage, hp]
  refine Prog.bind_congr fun ok => ?_
  cases ok <;> rfl

/-- A message that was not accepted is nowhere, unless it was half sent. -/
theorem sendMessage_sameRows_iff {p : SendMessageParams} (hp : sendMessageParams query = some p) :
    (responseCode (d.runFailing m fails (HandleAction.sendMessage query)).1 = some 400 →
        d.SameRows (d.runFailing m fails (HandleAction.sendMessage query)).2.toTables) ↔
      ¬ (d.Storable m p.message.sql ∧ fails 0 = false ∧ fails 1 = true) := by
  obtain ⟨answer, hprog, hrefused, hsent⟩ := sendMessage_answers hp
  rw [hprog, Db.runFailing_sendMessage_bind]
  by_cases hstore : d.Storable m p.message.sql
  · obtain ⟨hid, hrows⟩ := exec_insertMessage_storable hstore
    simp only [hid]
    cases h₀ : fails 0 with
    | true => simp [Tables.SameRows.refl]
    | false =>
      cases h₁ : fails 1 with
      | true =>
        -- The message is there.
        simp only [hstore, hrefused, true_implies, and_self, not_true_eq_false, iff_false,
          Bool.false_eq_true, if_false, if_true]
        intro hsame
        rw [hsame.messages] at hrows
        exact lt_irrefl _ hrows
      | false => simp [hsent]
  · simp only [exec_insertMessage_refused hstore]
    simp [hstore, Tables.SameRows.refl]

/-- **When a `400` means that nothing was done.** For every action and whichever
of its statements fail, exactly unless a message was half sent. -/
theorem badRequest_sameRows_iff (m : Mysql) (d : Db) (un : Uninit) (query : Json) (fails : Nat → Bool) :
    ((d.runFailing m fails (handleAction un query)).1.bind responseCode = some 400 →
        d.SameRows (d.runFailing m fails (handleAction un query)).2.toTables) ↔
      ¬ HalfSent m d fails query := by
  simp only [handleAction, HalfSent, queryAction]
  cases hitem : query.getObjectItem "action" with
  | none =>
    simp only [Option.bind_none, reduceCtorEq, false_and, not_false_eq_true, iff_true]
    exact fun h => by cases h
  | some item =>
    simp only [Option.bind_some, Prog.pure_eq, Db.runFailing_bind_ret]
    by_cases hsend : Action.ofCode item.valueint = some .sendMessage
    · rw [hsend]
      simp only [true_and, HandleAction.answer]
      cases hp : sendMessageParams query with
      | some p => simpa using sendMessage_sameRows_iff hp
      | none =>
        simp only [HandleAction.sendMessage, hp, reduceCtorEq, false_and, exists_false, not_false_eq_true, iff_true]
        exact fun _ => .refl
    · refine iff_of_true (fun hcode => ?_) fun h => hsend h.1
      have hreads : ∀ (q : Query) (d : Db), q.reads → (d.exec m q).2 = d :=
        fun q d hq => Db.ext (Tables.exec_reads hq)
      have hrefused : ∀ (q : Query) (d : Db), (d.exec m q).1 = q.refused → (d.exec m q).2 = d :=
        fun q d hr => Db.ext (Tables.exec_refused hr)
      have hsame := (answer_refusesWhole un query hsend).run_faulty hreads hrefused (fails, d) hcode
      have hd : (d.runFailing m fails (HandleAction.answer un query (Action.ofCode item.valueint))).2 = d := hsame
      rw [hd]
      exact .refl

/-- Alice writes to the first chat. -/
def Call.hello : Call :=
  .of .sendMessage [("chat_id", .createNumber 1), ("sender_id", .createNumber 2), ("content", .string "hello"),
    ("message_type", .string "text")]

/-- Alice's group with Bob. -/
def groupOfTwo : Db := Run.exec (Db.serve .tableOrder) .threeUsers [.createChat 2 true [3]]

/-- The second statement fails: Alice is told that her message could not be
sent, and it is there. -/
theorem half_sent_stays :
    (let r := groupOfTwo.runFailing .tableOrder (fun n => n == 1) (handleAction .zero Call.hello.request)
     r.1.bind responseCode = some 400 ∧
       r.2.messages = groupOfTwo.messages ++ [⟨groupOfTwo.nextMessageId, 1, 2, "hello", "text", 0⟩]) ∧
      ¬ ((groupOfTwo.runFailing .tableOrder (fun n => n == 1)
            (handleAction .zero Call.hello.request)).1.bind responseCode = some 400 →
          groupOfTwo.SameRows (groupOfTwo.runFailing .tableOrder (fun n => n == 1)
            (handleAction .zero Call.hello.request)).2.toTables) := by
  refine ⟨⟨by decide +kernel, by decide +kernel⟩, fun h => ?_⟩
  exact absurd (h (by decide +kernel)).messages (by decide +kernel)

end FinalServer
