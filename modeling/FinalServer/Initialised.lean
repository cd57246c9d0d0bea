/-
Which requests reach a local that `handle_action` has not assigned.

Three things leave it: statements, the reply, and what it passes to `free`.
`handleActionFrees` is `handle_action` with the last written down, and
`handleActionFrees_fst` says that it is otherwise the same. Two runs from
different locals cannot be told apart by any MySQL exactly when the request
is `Initialised`.
-/
import FinalServer.HandleAction

namespace FinalServer

/-- The locals again, with the `user` of `GET_USER_INFO`: its name and its e-mail. -/
structure Locals extends Uninit where
  user : CString × CString

/-- What is passed to `free`: a string, or an item of the request. -/
inductive Freed
  | string (s : CString)
  | item (j : Option Json)

namespace HandleAction

/-- `CREATE_USER` frees the three strings of `newUser`. -/
def createUserFrees (un : Uninit) (json : Json) : DbProg (Json × List Freed) := do
  let newUser := (createUserParams json).getD un.newUser
  let r ← createUser un json
  return (r, [.string newUser.username, .string newUser.email, .string newUser.hashPassword])

/-- `GET_USER_INFO` frees two strings of `user`, found or not. -/
def getUserInfoFrees (l : Locals) (json : Json) : DbProg (Json × List Freed) := do
  match queryKey json with
  | some key =>
    match ← FinalServer.getUserInfo key with
    | some user =>
      return (reply [("user_id", .createNumber user.userId), ("username", .string user.username),
          ("email", .string user.email)]
        ("User " ++ user.username ++ " was found with the ID: " ++ CString.ofInt user.userId) 200,
        [.string user.username, .string user.email])
    | none =>
      return (reply [] ("Error retreiving user info for key: " ++ key) 400, [.string l.user.1, .string l.user.2])
  | none => return (Uninit.reply l.toUninit, [])

/-- `EXIT_CHAT` frees the two items it looked up, unless it leaves by a `break` before. -/
def exitChatFrees (json : Json) : DbProg (Json × List Freed) := do
  let items : List Freed :=
    [.item (json.getObjectItemCaseSensitive "chat_id"), .item (json.getObjectItemCaseSensitive "user_id")]
  match exitChatParams json with
  | some (chatId, userId) =>
    let exited := reply []
      ("User " ++ CString.ofInt userId ++ " exited chat " ++ CString.ofInt chatId ++ " successfully") 200
    let isAdmin ← isUserAdmin chatId userId
    let participantCount ← getParticipantCount chatId
    if !(← FinalServer.removeFromChat chatId userId) then return (reply [] "Failed to exit chat." 400, [])
    else
      let _ ← FinalServer.sendMessage (systemMessage chatId
        ("User " ++ CString.ofInt userId ++ " has exited the chat"))
      if participantCount = some 1 then
        let r ← exitLast chatId userId
        return (r, [])
      else if isAdmin then
        if (← getAdminCount chatId) = some 0 then
          if ← promoteRandomParticipantToAdmin chatId then return (exited, items)
          else return (reply [] "User left, but failed to promote new admin." 500, [])
        else return (exited, items)
      else return (exited, items)
  | none => return (reply [] "Invalid parameters for EXIT_CHAT" 400, items)

/-- The `switch`, with what it frees. -/
def answerFrees (l : Locals) (json : Json) : Option Action → DbProg (Json × List Freed)
  | some .createUser => createUserFrees l.toUninit json
  | some .getUserInfo => getUserInfoFrees l json
  | some .exitChat => exitChatFrees json
  | a => do
    let r ← answer l.toUninit json a
    return (r, [])

end HandleAction

/-- `handle_action`, with what it frees. -/
def handleActionFrees (l : Locals) (json : Json) : DbProg (Option Json × List Freed) := do
  match json.getObjectItem "action" with
  | none => return (none, [])
  | some item =>
    let r ← HandleAction.answerFrees l json (Action.ofCode item.valueint)
    return (some r.1, r.2)

/-- The request assigns every local that leaves `handle_action`. -/
def Initialised (json : Json) : Prop :=
  match queryAction json with
  | some .createUser => (createUserParams json).isSome
  | some .getUserInfo => False
  | some .createChat =>
    ∃ p, createChatParams json = some p ∧ (p.countValid = true → ∀ id ∈ p.participantIds, id.isNumber = true)
  | some .addToGroupChat =>
    ∃ p, addToGroupChatParams json = some p ∧ ∀ id ∈ p.participantIds, id.isNumber = true
  | _ => True

/-! ## The same program, but for the frees -/

variable {l l' : Locals} {json : Json}

theorem createUserFrees_fst :
    (do let r ← HandleAction.createUserFrees l.toUninit json; return r.1) =
      HandleAction.createUser l.toUninit json := by
  simp only [HandleAction.createUserFrees, Prog.bind_assoc, Prog.pure_eq, Prog.ret_bind]
  exact Prog.bind_ret _

theorem getUserInfoFrees_fst :
    (do let r ← HandleAction.getUserInfoFrees l json; return r.1) = HandleAction.getUserInfo l.toUninit json := by
  unfold HandleAction.getUserInfoFrees HandleAction.getUserInfo
  cases queryKey json with
  | none => rfl
  | some key =>
    rw [Prog.bind_assoc]
    refine Prog.bind_congr fun user => ?_
    cases user <;> rfl

theorem exitChatFrees_fst :
    (do let r ← HandleAction.exitChatFrees json; return r.1) = HandleAction.exitChat json := by
  unfold HandleAction.exitChatFrees HandleAction.exitChat
  cases exitChatParams json with
  | none => rfl
  | some p =>
    obtain ⟨chatId, userId⟩ := p
    simp only [Prog.bind_assoc]
    refine Prog.bind_congr fun isAdmin => Prog.bind_congr fun count => Prog.bind_congr fun removed => ?_
    cases removed with
    | false => rfl
    | true =>
      simp only [Bool.not_true, Bool.false_eq_true, if_false, Prog.bind_assoc]
      refine Prog.bind_congr fun _ => ?_
      split
      · simp only [Prog.bind_assoc, Prog.pure_eq, Prog.ret_bind]
        exact Prog.bind_ret _
      cases isAdmin with
      | false => rfl
      | true =>
        simp only [if_true, HandleAction.exitAdmin, Prog.bind_assoc]
        refine Prog.bind_congr fun admins => ?_
        split
        · rw [Prog.bind_assoc]
          refine Prog.bind_congr fun promoted => ?_
          cases promoted <;> rfl
        · rfl

/-- What is freed aside, `handleActionFrees` is `handle_action`. -/
theorem handleActionFrees_fst :
    (do let r ← handleActionFrees l json; return r.1) = handleAction l.toUninit json := by
  unfold handleActionFrees handleAction
  cases json.getObjectItem "action" with
  | none => rfl
  | some item =>
    have hanswer : ∀ a, (do let r ← HandleAction.answerFrees l json a; return r.1) =
        HandleAction.answer l.toUninit json a := by
      intro a
      unfold HandleAction.answerFrees
      split
      · exact createUserFrees_fst
      · exact getUserInfoFrees_fst
      · exact exitChatFrees_fst
      · simp only [Prog.bind_assoc, Prog.pure_eq, Prog.ret_bind]
        exact Prog.bind_ret _
    simp only [← hanswer, Prog.bind_assoc]
    rfl

/-! ## What is left of a loop that adds -/

open HandleAction (addEach copyIds length_copyIds)

/-- The loop shows whom it adds. -/
theorem addEach_inj {α : Type} {c by_ : Int} {f : Int → Int} {us us' : List Int} (hlen : us.length = us'.length)
    {g g' : Nat → DbProg α} (h : addEach c by_ f us >>= g = addEach c by_ f us' >>= g') : us = us' := by
  induction us generalizing us' with
  | nil => exact (List.length_eq_zero_iff.mp hlen.symm).symm
  | cons u us ih =>
    cases us' with
    | nil => cases hlen
    | cons u' us' =>
      simp only [addEach, addToChat, mysqlQuery, Prog.stmt, Prog.call_bind, Prog.ret_bind] at h
      obtain rfl : u = u' := by
        simp only [Prog.call.injEq, Query.insertParticipant.injEq] at h
        exact h.1.2.1
      -- Whoever cannot be added is passed over.
      have htail := Prog.call_inj h false
      simp only [Bool.false_eq_true, if_false] at htail
      rw [ih (by simpa using hlen) htail]

/-- The list that is added comes from the request alone exactly when it holds numbers only. -/
theorem copyIds_congr_iff {i : Nat} {ids : List Json} :
    (∀ ps ps', copyIds ps i ids = copyIds ps' i ids) ↔ ∀ id ∈ ids, id.isNumber = true := by
  induction ids generalizing i with
  | nil => simp [copyIds]
  | cons id ids ih =>
    simp only [copyIds, List.cons.injEq, List.forall_mem_cons, forall_and, ih]
    refine and_congr_left fun _ => ⟨fun h => ?_, fun h ps ps' => by simp [h]⟩
    by_contra hno
    simpa [hno] using h (fun _ => 0) fun _ => 1

/-! ## Which requests tell two runs apart -/

/-- Locals that all hold `n` and `s`. -/
def Locals.filled (n : Int) (s : CString) : Locals where
  responseCode := n
  responseText := s
  participants _ := n
  newUser := ⟨s, s, s⟩
  user := (s, s)

theorem reply_filled_ne :
    HandleAction.Uninit.reply (Locals.filled 0 "").toUninit ≠
      HandleAction.Uninit.reply (Locals.filled 1 "a").toUninit := by
  decide

theorem createUserFrees_congr_iff :
    (∀ l l' : Locals, HandleAction.createUserFrees l.toUninit json = HandleAction.createUserFrees l'.toUninit json) ↔
      (createUserParams json).isSome := by
  unfold HandleAction.createUserFrees HandleAction.createUser
  cases createUserParams json with
  | some u => simp
  | none =>
    refine iff_of_false (fun h => ?_) (by simp)
    -- Another user is stored.
    have hstmt := (Prog.call.inj (h (.filled 0 "") (.filled 1 "a"))).1
    revert hstmt
    simp only [Option.getD_none, Query.insertUser.injEq]
    decide

theorem getUserInfoFrees_differs :
    HandleAction.getUserInfoFrees (.filled 0 "") json ≠ HandleAction.getUserInfoFrees (.filled 1 "a") json := by
  unfold HandleAction.getUserInfoFrees
  cases queryKey json with
  | none => exact fun h => reply_filled_ne (Prod.mk.inj (Prog.ret.inj h)).1
  | some key =>
    intro h
    -- When the query fails, what `user` held is freed.
    have hfail := Prog.call_inj h none
    cases (Prod.mk.inj (Prog.ret.inj hfail)).2

theorem createChat_congr_iff :
    (∀ l l' : Locals, HandleAction.createChat l.toUninit json = HandleAction.createChat l'.toUninit json) ↔
      ∃ p, createChatParams json = some p ∧
        (p.countValid = true → ∀ id ∈ p.participantIds, id.isNumber = true) := by
  unfold HandleAction.createChat
  cases createChatParams json with
  | none =>
    refine iff_of_false (fun h => ?_) (by simp)
    exact reply_filled_ne (Prog.ret.inj (h (.filled 0 "") (.filled 1 "a")))
  | some p =>
    simp only [Option.some.injEq, exists_eq_left']
    cases hvalid : p.countValid with
    | false => simp
    | true =>
      simp only [if_true, forall_const]
      rw [← copyIds_congr_iff (i := 1)]
      constructor
      · intro h ps ps'
        -- The chat is made, the message about it is not stored, and then the list is added.
        have hmade := Prog.call_inj (h { Locals.filled 0 "" with participants := ps }
          { Locals.filled 0 "" with participants := ps' }) (some 0)
        have hlist := addEach_inj (by simp [length_copyIds]) (Prog.call_inj hmade none)
        exact (List.cons.inj hlist).2
      · intro h l l'
        rw [h l.participants l'.participants]

theorem addToGroupChat_congr_iff :
    (∀ l l' : Locals, HandleAction.addToGroupChat l.toUninit json = HandleAction.addToGroupChat l'.toUninit json) ↔
      ∃ p, addToGroupChatParams json = some p ∧ ∀ id ∈ p.participantIds, id.isNumber = true := by
  unfold HandleAction.addToGroupChat
  cases addToGroupChatParams json with
  | none =>
    refine iff_of_false (fun h => ?_) (by simp)
    exact reply_filled_ne (Prog.ret.inj (h (.filled 0 "") (.filled 1 "a")))
  | some p =>
    simp only [Option.some.injEq, exists_eq_left']
    rw [← copyIds_congr_iff (i := 0)]
    constructor
    · intro h ps ps'
      exact addEach_inj (by simp [length_copyIds]) (h { Locals.filled 0 "" with participants := ps }
        { Locals.filled 0 "" with participants := ps' })
    · intro h l l'
      rw [h l.participants l'.participants]

/-- Branch by branch. -/
theorem answerFrees_congr_iff (a : Option Action) :
    (∀ l l' : Locals, HandleAction.answerFrees l json a = HandleAction.answerFrees l' json a) ↔
      match a with
      | some .createUser => (createUserParams json).isSome
      | some .getUserInfo => False
      | some .createChat =>
        ∃ p, createChatParams json = some p ∧
          (p.countValid = true → ∀ id ∈ p.participantIds, id.isNumber = true)
      | some .addToGroupChat =>
        ∃ p, addToGroupChatParams json = some p ∧ ∀ id ∈ p.participantIds, id.isNumber = true
      | _ => True := by
  have hpair : ∀ r r' : Json, (r, ([] : List Freed)) = (r', []) → r = r' := fun r r' h => (Prod.mk.inj h).1
  have hfrees : ∀ l : Locals, (a ≠ some .createUser ∧ a ≠ some .getUserInfo ∧ a ≠ some .exitChat) →
      HandleAction.answerFrees l json a =
        (HandleAction.answer l.toUninit json a >>= fun r => Prog.ret (r, [])) := by
    intro l ha
    unfold HandleAction.answerFrees
    split <;> first | rfl | simp at ha
  cases a with
  | none => simp [HandleAction.answerFrees, HandleAction.answer]
  | some a =>
    cases a with
    | createUser => exact createUserFrees_congr_iff
    | getUserInfo => exact iff_of_false (fun h => getUserInfoFrees_differs (h _ _)) id
    | exitChat => exact iff_of_true (fun _ _ => rfl) trivial
    | createChat =>
      simp only [hfrees _ (by simp)]
      rw [← createChat_congr_iff]
      exact ⟨fun h l l' => Prog.bind_ret_inj hpair (h l l'), fun h l l' => by
        rw [HandleAction.answer, HandleAction.answer, h l l']⟩
    | addToGroupChat =>
      simp only [hfrees _ (by simp)]
      rw [← addToGroupChat_congr_iff]
      exact ⟨fun h l l' => Prog.bind_ret_inj hpair (h l l'), fun h l l' => by
        rw [HandleAction.answer, HandleAction.answer, h l l']⟩
    | _ => exact iff_of_true (fun _ _ => rfl) trivial

/-- **When the locals do not show.** Whatever they hold at the start and
whatever MySQL answers, the statements, the reply and what is freed are the
same, exactly when the request is `Initialised`. -/
theorem handleActionFrees_observe_iff (json : Json) :
    (∀ (l l' : Locals) (answers : List (Σ q : Query, q.Result) → (q : Query) → q.Result),
      (handleActionFrees l json).observe answers = (handleActionFrees l' json).observe answers) ↔
      Initialised json := by
  have hpair : ∀ r r' : Json × List Freed, (some r.1, r.2) = (some r'.1, r'.2) → r = r' := by simp
  simp only [Prog.eq_iff_observe, handleActionFrees, Initialised, queryAction]
  cases json.getObjectItem "action" with
  | none => simp
  | some item =>
    rw [Option.bind_some, ← answerFrees_congr_iff]
    exact ⟨fun h l l' => Prog.bind_ret_inj hpair (h l l'), fun h l l' => by simp only [h l l']⟩

/-- A new chat whose list holds the string "3". -/
def textInList : Json :=
  .object [("action", .createNumber 4), ("is_group", .bool true), ("chat_name", .string "chat"),
    ("created_by", .createNumber 2), ("participant_ids", .array [.string "3"])]

/-- The user a statement adds to a chat. -/
def Query.added : Query → Option Int
  | .insertParticipant _ userId _ => some userId
  | _ => none

/-- What the array held is added to the chat. -/
theorem unassigned_participant_added :
    ¬ ∀ (json item : Json), json.getObjectItem "action" = some item → item.isNumber = true →
      ∀ (l l' : Locals) (answers : List (Σ q : Query, q.Result) → (q : Query) → q.Result),
        (handleActionFrees l json).observe answers = (handleActionFrees l' json).observe answers := by
  intro h
  -- The chat is made, and nothing else succeeds.
  have hobs := h textInList (.createNumber 4) rfl rfl (.filled 5 "") (.filled 6 "") fun _ q =>
    match q with
    | .insertChat .. => some 1
    | q => default
  exact absurd (congrArg (fun o => o.1.filterMap fun e => e.1.added) hobs) (by decide)

end FinalServer
