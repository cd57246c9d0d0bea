/-
How a login ends.

Only the token's branch of `handle_db_response` goes back to
`AUTH_STATE_INITIAL`. The errors of the second step leave the session in
`AUTH_STATE_VALIDATED`, and the first reply to the next login is taken for a
user's data (`login_over_iff`).
-/
import FinalServer.SessionLogin

namespace FinalServer

open Session

/-- A reply is handled while a login is the current request. -/
def TakesLoginReply (s : Session) : Event → Prop
  | .reply .. => s.awaited ≠ none ∧ ∃ req, InLogin s req
  | _ => False

/-- The login is over: the state is the initial one, and whatever comes before
the first reply to a later login, that reply is judged by comparing passwords. -/
structure LoginOver (env : Env) (s : Session) : Prop where
  initial : s.cur.authState = .initial
  nextCompared : ∀ es, Run.Along (step env) (fun s e => ¬ TakesLoginReply s e) s es →
    ∀ now connect req dbJson, InLogin (Run.exec (step env) s es) req →
      handleDbResponse env now (Run.exec (step env) s es).answered (some dbJson) connect =
        (Run.exec (step env) s es).answered.initialReply connect req dbJson

/-- The login is in its first step, or the reply of the second one has the
user's id. (`AUTH_STATE_GOT_USER_INFO` answers nothing to a reply it can read.) -/
def EndsInOrder (s : Session) (reply : Option Json) : Prop :=
  match s.cur.authState with
  | .initial => True
  | .validated => s.cur.requestJson ≠ none ∧ ∃ dbJson d, reply = some dbJson ∧ isSuccess dbJson = true ∧
      dbJson.getObjectItem "user_id" = some (.number d)
  | .gotUserInfo => s.cur.requestJson ≠ none ∧ reply ≠ none

variable {env : Env} {s : Session} {now connect : Int} {reply : Option Json}

/-! ## The state is kept until the next reply to a login -/

theorem leave_authState (s : Session) : s.leave.cur.authState = .initial := rfl

/-- A reply to anything but a login leaves `current_request` alone. -/
theorem handleDbResponse_cur (hno : ∀ req, ¬ InLogin s req) :
    (handleDbResponse env now s reply connect).cur = s.cur := by
  have hreact := handleDbResponse_reacts env now s reply connect
  generalize handleDbResponse env now s reply connect = s' at hreact ⊢
  cases hreact with
  | error | ignored | relayed => rfl
  | matched r req p hl => exact absurd hl (hno req)
  | token r req d hl => exact absurd hl (hno req)

theorem step_initial {e : Event} (h : s.cur.authState = .initial) (he : ¬ TakesLoginReply s e) :
    (s.step env e).cur.authState = .initial := by
  by_cases hrun : s.running = true
  · cases e with
    | client now raw =>
      simp only [Session.step, hrun, if_true, handleClient]
      split <;> exact (processClientRequest_keeps env now s.cur raw).1.trans h
    | reply now r connect =>
      simp only [Session.step, hrun, if_true]
      split
      next q hq =>
        have hno : ∀ req, ¬ InLogin s.answered req := fun req hl => he ⟨by simp [hq], req, hl.request, hl.action⟩
        rw [handleDbResponse_cur hno]
        exact h
      next => exact h
    | clientGone =>
      simp only [Session.step, hrun, if_true]
      exact leave_authState s
    | dbGone timeout =>
      simp only [Session.step, hrun, if_true]
      exact leave_authState _
  · rw [step_left env e hrun]
    exact h

/-- From the initial state on, the next reply to a login is compared. -/
theorem loginOver_of_initial (h : s.cur.authState = .initial) : LoginOver env s where
  initial := h
  nextCompared es hes now connect req dbJson hl := by
    have hinit : (Run.exec (step env) s es).cur.authState = .initial :=
      hes.invariant (fun _ _ hs he => step_initial hs he) h
    simp only [handleDbResponse, answered_cur, hl.request, hl.action, if_true, hinit]

/-! ## The three states -/

/-- After a match either a second query has gone out and nothing to the client, or the state is kept. -/
theorem passwordMatched_authState (s : Session) (connect : Int) (req : Json) :
    (s.passwordMatched connect req).sent = s.sent ∨
      (s.passwordMatched connect req).cur.authState = s.cur.authState := by
  simp only [passwordMatched]
  split <;> split
  all_goals first | exact .inr rfl | exact .inl rfl

/-- The first step answers without leaving its state. -/
theorem handleDbResponse_initial (hst : s.cur.authState = .initial) (ha : s.cur.action = .validateUser)
    (hsent : (handleDbResponse env now s reply connect).sent ≠ s.sent) :
    (handleDbResponse env now s reply connect).cur.authState = .initial := by
  have hreact := handleDbResponse_reacts env now s reply connect
  generalize handleDbResponse env now s reply connect = s' at hreact hsent ⊢
  cases hreact with
  | error | ignored => exact hst
  | relayed r req hreq hne => exact absurd ha hne
  | matched r req p hl =>
    rcases passwordMatched_authState s connect req with he | he
    · exact absurd he hsent
    · exact he.trans hst
  | token r req d hl hst' =>
    rw [hst] at hst'
    cases hst'

/-- The second step gives the token, or an error in the state it is in. -/
theorem handleDbResponse_validated (env : Env) (now connect : Int) (reply : Option Json)
    (hst : s.cur.authState = .validated) (ha : s.cur.action = .validateUser) :
    (EndsInOrder s reply ∧ ∃ u, handleDbResponse env now s reply connect = loggedIn env now s u) ∨
      (¬ EndsInOrder s reply ∧ ∃ m, handleDbResponse env now s reply connect = s.sendClient m) := by
  simp only [handleDbResponse, EndsInOrder, ha, hst, if_true]
  split
  next => exact .inr ⟨by simp, _, rfl⟩
  next dbJson =>
  split
  next hreq => exact .inr ⟨by simp [hreq], _, rfl⟩
  next req hreq =>
  simp only [validatedReply]
  split
  next hs =>
    refine .inr ⟨?_, _, rfl⟩
    rintro ⟨-, r, d, hr, hok, -⟩
    obtain rfl := Option.some.inj hr
    simp [hok] at hs
  next hs =>
  split
  next d hd => exact .inl ⟨⟨by simp [hreq], dbJson, d, rfl, by simpa using hs, hd⟩, _, rfl⟩
  next hno =>
    refine .inr ⟨?_, _, rfl⟩
    rintro ⟨-, r, d, hr, -, hd⟩
    obtain rfl := Option.some.inj hr
    exact hno d hd

/-- The third state, which nothing enters, answers only what it cannot read. -/
theorem handleDbResponse_gotUserInfo (env : Env) (now connect : Int) (reply : Option Json)
    (hst : s.cur.authState = .gotUserInfo) (ha : s.cur.action = .validateUser) :
    (EndsInOrder s reply ∧ handleDbResponse env now s reply connect = s) ∨
      (¬ EndsInOrder s reply ∧ ∃ m, handleDbResponse env now s reply connect = s.sendClient m) := by
  simp only [handleDbResponse, EndsInOrder, ha, hst, if_true]
  split
  next => exact .inr ⟨by simp, _, rfl⟩
  next dbJson =>
  split
  next hreq => exact .inr ⟨by simp [hreq], _, rfl⟩
  next req hreq => exact .inl ⟨by simp [hreq], rfl⟩

theorem sendClient_sent_ne (m : Json) : (s.sendClient m).sent ≠ s.sent := by simp

/-- An error leaves the state as it was, so only in the initial one is the login over. -/
theorem not_loginOver_sendClient (hst : s.cur.authState ≠ .initial) (m : Json) : ¬ LoginOver env (s.sendClient m) := by
  intro h
  have hinit := h.initial
  rw [sendClient_cur] at hinit
  exact hst hinit

/-- **When a login is over.** The final answer of a login attempt leaves the
state as the next login needs it exactly when the attempt ends in order: in its
first step, or with the user's id. -/
theorem login_over_iff (env : Env) (now connect : Int) (s : Session) (reply : Option Json)
    (ha : s.cur.action = .validateUser) :
    ((handleDbResponse env now s reply connect).sent ≠ s.sent →
      LoginOver env (handleDbResponse env now s reply connect)) ↔ EndsInOrder s reply := by
  cases hst : s.cur.authState with
  | initial =>
    have horder : EndsInOrder s reply := by rw [EndsInOrder, hst]; trivial
    exact iff_of_true (fun hsent => loginOver_of_initial (handleDbResponse_initial hst ha hsent)) horder
  | validated =>
    rcases handleDbResponse_validated env now connect reply hst ha with
      ⟨horder, u, he⟩ | ⟨hno, m, he⟩
    · rw [he]
      exact iff_of_true (fun _ => loginOver_of_initial rfl) horder
    · rw [he]
      exact iff_of_false (fun h => not_loginOver_sendClient (by simp [hst]) m (h (sendClient_sent_ne m))) hno
  | gotUserInfo =>
    rcases handleDbResponse_gotUserInfo env now connect reply hst ha with
      ⟨horder, he⟩ | ⟨hno, m, he⟩
    · rw [he]
      exact iff_of_true (fun hsent => absurd rfl hsent) horder
    · rw [he]
      exact iff_of_false (fun h => not_loginOver_sendClient (by simp [hst]) m (h (sendClient_sent_ne m))) hno

/-! ## Alice's user data cannot be had -/

/-- Alice's password matches, and the second query is out. -/
def matchedLogin : List Event :=
  [.client 0 (loginText "alice" "sesame"), .reply 0 (some (hashReply "sesame" "")) 6]

/-- The reply of a failed `GET_USER_INFO`. -/
def noInfoReply : Json := .object [("response_text", .string ""), ("response_code", .createNumber 400)]

theorem login_over_iff_noInfo :
    ((handleDbResponse loginEnv 0 (Run.exec (step loginEnv) (start 5) matchedLogin) (some noInfoReply) 6).sent ≠
        (Run.exec (step loginEnv) (start 5) matchedLogin).sent →
      LoginOver loginEnv
        (handleDbResponse loginEnv 0 (Run.exec (step loginEnv) (start 5) matchedLogin) (some noInfoReply) 6)) ↔
      EndsInOrder (Run.exec (step loginEnv) (start 5) matchedLogin) (some noInfoReply) :=
  login_over_iff loginEnv 0 6 _ (some noInfoReply) rfl

/-- After the error Alice's next login is not compared: with her password she
gets an error again. -/
theorem failed_login_not_over :
    (let again := [.reply 0 (some noInfoReply) 6, .client 0 (loginText "alice" "sesame")]
     let s := Run.exec (step loginEnv) (start 5) (matchedLogin ++ again)
     InLogin s (loginJson "alice" "sesame") ∧
       (handleDbResponse loginEnv 0 s (some (hashReply "sesame" "")) 6).sent =
         s.sent ++ [createErrorResponse ERROR_INVALID_CREDENTIALS]) ∧
    ¬ ∀ (env : Env) (now connect : Int) (s : Session) (reply : Option Json), s.cur.action = .validateUser →
      (handleDbResponse env now s reply connect).sent ≠ s.sent →
        LoginOver env (handleDbResponse env now s reply connect) := by
  refine ⟨⟨⟨by decide, by decide⟩, by decide⟩, fun h => ?_⟩
  have hover := h loginEnv 0 6 (Run.exec (step loginEnv) (start 5) matchedLogin) (some noInfoReply) rfl (by decide)
  exact absurd hover.initial (by decide)

end FinalServer
