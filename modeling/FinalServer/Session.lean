/-
One client session of the logic server: `handle_client`'s poll loop and
`handle_db_response`.

A session holds the single `current_request`, the descriptor polled for
replies (`fds[1].fd`), and the data connections this process has open, each
with the queries written to it and not answered yet, oldest first. The loop
takes whatever is readable: a client text, or a reply to the oldest
unanswered query of the polled connection. `sent` and `received` record what
has gone to the client and come from it.
-/
import FinalServer.LogicRequest

namespace FinalServer

structure Session where
  cur : CurrentRequest
  /-- `fds[1].fd`. -/
  dbFd : Int
  /-- The open data connections and their unanswered queries. -/
  conns : Int → Option (List Json)
  /-- The poll loop has not been left. -/
  running : Bool
  sent : List Json
  received : List CString

/-- What one turn of the loop takes. -/
inductive Event
  /-- A client text, received and decrypted, at a time. -/
  | client (now : Int) (raw : CString)
  /-- A data-server reply as `cJSON_Parse` reads it (`none`: it does not parse),
  and what `connect_to_db_balancers` returns if this reply makes it called. -/
  | reply (now : Int) (reply : Option Json) (connect : Int)
  /-- `recv` from the client fails or finds it gone. -/
  | clientGone
  /-- `recv` from the data connection fails, by the 15 s timeout or otherwise. -/
  | dbGone (timeout : Bool)

namespace Session

/-- `send_encrypted_response`. -/
def sendClient (s : Session) (m : Json) : Session := { s with sent := s.sent ++ [m] }

/-- `write` to a data connection; on a descriptor that is not open nothing is written. -/
def write (s : Session) (fd : Int) (query : Json) : Session :=
  { s with conns := Function.update s.conns fd ((s.conns fd).map (· ++ [query])) }

/-- `close`. -/
def close (s : Session) (fd : Int) : Session := { s with conns := Function.update s.conns fd none }

/-- A connection just made. -/
def open_ (s : Session) (fd : Int) : Session := { s with conns := Function.update s.conns fd (some []) }

/-- The state in which `handle_client` enters its loop. -/
def start (fd : Int) : Session :=
  { cur := .fresh fd, dbFd := fd, conns := fun d => if d = fd then some [] else none, running := true,
    sent := [], received := [] }

/-- The reply reports success: a number `response_code` of 200. -/
def isSuccess (dbJson : Json) : Bool :=
  match dbJson.getObjectItem "response_code" with
  | some (.number d) => Json.toInt d == 200
  | _ => false

/-- The second query of a login. -/
def userInfoQuery (key : Option CString) : Json :=
  ((Json.object []).addNumberToObject "action" Action.getUserInfo.code).addStringToObject "key" key

/-- The final answer of a login that succeeded. -/
def loginAnswer (env : Env) (now userId : Int) : Json :=
  ((((Json.object []).addNumberToObject "response_code" 200).addStringToObject "response_text"
    (some "Authentication successful")).addStringToObject "token"
      (some (createToken env now userId))).addNumberToObject "user_id" userId

/-- The rest of `case AUTH_STATE_INITIAL` after a password match: the key of the
request moves to `current_request.key`, the data connection is closed, and a
new one carries the second query. -/
def passwordMatched (s : Session) (connect : Int) (requestJson : Json) : Session :=
  let key := match requestJson.getObjectItem "key" with
    | some (.string k) => some k
    | _ => s.cur.key
  let s : Session := { s with cur := { s.cur with key } }
  let s := if 0 ≤ s.cur.currentDbSock then s.close s.cur.currentDbSock else s
  if connect < 0 then s.sendClient (createErrorResponse ERROR_DB_UNAVAILABLE)
  else
    let s : Session := { s.open_ connect with
      dbFd := connect
      cur := { s.cur with currentDbSock := connect, authState := .validated } }
    s.write connect (userInfoQuery s.cur.key)

/-- `case AUTH_STATE_INITIAL`: the stored password of the reply is compared
with the password of the current request. -/
def initialReply (s : Session) (connect : Int) (requestJson dbJson : Json) : Session :=
  match requestJson.getObjectItem "password", dbJson.getObjectItem "password_hash" with
  | some (.string clientPassword), some (.string dbPassword) =>
    if !isSuccess dbJson then s.sendClient (createErrorResponse ERROR_INVALID_CREDENTIALS)
    else if clientPassword ≠ dbPassword then s.sendClient (createErrorResponse ERROR_INVALID_CREDENTIALS)
    else s.passwordMatched connect requestJson
  | _, _ => s.sendClient (createErrorResponse ERROR_INVALID_CREDENTIALS)

/-- The token goes to the client and the login is cleaned up. -/
def loggedIn (env : Env) (now : Int) (s : Session) (userId : Int) : Session :=
  { s.sendClient (loginAnswer env now userId) with
    cur := { s.cur with
      key := none, requestJson := none, action := .validateUser, authState := .initial } }

/-- `case AUTH_STATE_VALIDATED`: the user id of the reply becomes a token. -/
def validatedReply (env : Env) (now : Int) (s : Session) (dbJson : Json) : Session :=
  if !isSuccess dbJson then s.sendClient (createErrorResponse ERROR_INVALID_CREDENTIALS)
  else
    match dbJson.getObjectItem "user_id" with
    | some (.number d) => loggedIn env now s (Json.toInt d)
    | _ => s.sendClient (createErrorResponse ERROR_INVALID_CREDENTIALS)

/-- `handle_db_response`. -/
def handleDbResponse (env : Env) (now : Int) (s : Session) (reply : Option Json) (connect : Int) : Session :=
  match reply with
  | none => s.sendClient (createErrorResponse ERROR_DB_CONNECTION)
  | some dbJson =>
    match s.cur.requestJson with
    | none => s.sendClient (createErrorResponse ERROR_DB_CONNECTION)
    | some requestJson =>
      if s.cur.action = .validateUser then
        match s.cur.authState with
        | .initial => s.initialReply connect requestJson dbJson
        | .validated => validatedReply env now s dbJson
        | .gotUserInfo => s
      else s.sendClient dbJson

/-- The client branch of the loop: process the text, then answer it or write
the query to the data connection of the current request. -/
def handleClient (env : Env) (now : Int) (s : Session) (raw : CString) : Session :=
  let p := processClientRequest env now s.cur raw
  let s := { s with cur := p.current, received := s.received ++ [raw] }
  if p.handledLocally then s.sendClient p.message else s.write s.cur.currentDbSock p.message

/-- Leaving the loop closes the data connection and clears the request. -/
def leave (s : Session) : Session :=
  let s := if 0 ≤ s.cur.currentDbSock then s.close s.cur.currentDbSock else s
  { s with cur := .fresh 0, running := false }

/-- The query the next reply answers: the oldest one of the polled connection. -/
def awaited (s : Session) : Option Json := (s.conns s.dbFd).bind List.head?

/-- The polled connection after its oldest query has been answered. -/
def answered (s : Session) : Session :=
  { s with conns := Function.update s.conns s.dbFd ((s.conns s.dbFd).map List.tail) }

/-- One turn of the loop. A reply is taken only when a query of the polled
connection awaits one. -/
def step (env : Env) (s : Session) (e : Event) : Session :=
  if s.running then
    match e with
    | .client now raw => handleClient env now s raw
    | .reply now r connect =>
      match s.awaited with
      | some _ => handleDbResponse env now s.answered r connect
      | none => s
    | .clientGone => s.leave
    | .dbGone timeout =>
      (if timeout then s.sendClient (createErrorResponse ERROR_DB_UNAVAILABLE) else s).leave
  else s

theorem step_left (env : Env) {s : Session} (e : Event) (hleft : s.running ≠ true) : s.step env e = s := if_neg hleft

/-! ## What a reply can do -/

/-- The errors `handle_db_response` answers. -/
def replyErrors : List Json :=
  [createErrorResponse ERROR_DB_CONNECTION, createErrorResponse ERROR_INVALID_CREDENTIALS]

/-- A login is the current request: `VALIDATE_USER` is stored as `req`. -/
structure InLogin (s : Session) (req : Json) : Prop where
  request : s.cur.requestJson = some req
  action : s.cur.action = .validateUser

/-- The five ways `handle_db_response` ends. -/
inductive Reacts (env : Env) (now : Int) (s : Session) (connect : Int) : Option Json → Session → Prop
  | error (r : Option Json) (m : Json) (hm : m ∈ replyErrors) :
      Reacts env now s connect r (s.sendClient m)
  | ignored (r : Option Json) : Reacts env now s connect r s
  | relayed (r req : Json) (hreq : s.cur.requestJson = some req) (ha : s.cur.action ≠ .validateUser) :
      Reacts env now s connect (some r) (s.sendClient r)
  | matched (r req : Json) (p : CString) (hl : InLogin s req) (hst : s.cur.authState = .initial)
      (hs : isSuccess r = true) (hp : req.getObjectItem "password" = some (.string p))
      (hh : r.getObjectItem "password_hash" = some (.string p)) :
      Reacts env now s connect (some r) (s.passwordMatched connect req)
  | token (r req : Json) (d : ℚ) (hl : InLogin s req) (hst : s.cur.authState = .validated)
      (hs : isSuccess r = true) (hu : r.getObjectItem "user_id" = some (.number d)) :
      Reacts env now s connect (some r) (loggedIn env now s (Json.toInt d))

theorem initialReply_reacts {env : Env} {now : Int} {s : Session} {connect : Int} {req r : Json}
    (hl : InLogin s req) (hst : s.cur.authState = .initial) :
    Reacts env now s connect (some r) (s.initialReply connect req r) := by
  simp only [initialReply]
  split
  next p h hp hh =>
    split
    · exact .error _ _ (by simp [replyErrors])
    next hs =>
    split
    · exact .error _ _ (by simp [replyErrors])
    next heq =>
    obtain rfl : p = h := not_not.mp heq
    exact .matched r req p hl hst (by simpa using hs) hp hh
  · exact .error _ _ (by simp [replyErrors])

theorem validatedReply_reacts {env : Env} {now : Int} {s : Session} {connect : Int} {req r : Json}
    (hl : InLogin s req) (hst : s.cur.authState = .validated) :
    Reacts env now s connect (some r) (validatedReply env now s r) := by
  simp only [validatedReply]
  split
  · exact .error _ _ (by simp [replyErrors])
  next hs =>
  split
  next d hu => exact .token r req d hl hst (by simpa using hs) hu
  next => exact .error _ _ (by simp [replyErrors])

theorem handleDbResponse_reacts (env : Env) (now : Int) (s : Session) (reply : Option Json) (connect : Int) :
    Reacts env now s connect reply (handleDbResponse env now s reply connect) := by
  simp only [handleDbResponse]
  split
  · exact .error _ _ (by simp [replyErrors])
  next r =>
  split
  · exact .error _ _ (by simp [replyErrors])
  next req hreq =>
  split
  next ha =>
    split
    next hst => exact initialReply_reacts ⟨hreq, ha⟩ hst
    next hst => exact validatedReply_reacts ⟨hreq, ha⟩ hst
    next => exact .ignored _
  next ha => exact .relayed r req hreq ha

/-- While another request than a login is stored, a reply is passed on as it is. -/
theorem handleDbResponse_relay {env : Env} {now connect : Int} {s : Session} {req r : Json}
    (hreq : s.cur.requestJson = some req) (ha : s.cur.action ≠ .validateUser) :
    handleDbResponse env now s (some r) connect = s.sendClient r := by
  simp only [handleDbResponse, hreq, ha, if_false]

/-! ## What each operation leaves alone -/

@[simp] theorem sendClient_cur (s : Session) (m : Json) : (s.sendClient m).cur = s.cur := rfl
@[simp] theorem sendClient_conns (s : Session) (m : Json) : (s.sendClient m).conns = s.conns := rfl
@[simp] theorem sendClient_sent (s : Session) (m : Json) : (s.sendClient m).sent = s.sent ++ [m] := rfl
@[simp] theorem sendClient_received (s : Session) (m : Json) : (s.sendClient m).received = s.received := rfl
@[simp] theorem write_cur (s : Session) (fd : Int) (q : Json) : (s.write fd q).cur = s.cur := rfl
@[simp] theorem write_sent (s : Session) (fd : Int) (q : Json) : (s.write fd q).sent = s.sent := rfl
@[simp] theorem write_received (s : Session) (fd : Int) (q : Json) :
    (s.write fd q).received = s.received := rfl
@[simp] theorem answered_cur (s : Session) : s.answered.cur = s.cur := rfl
@[simp] theorem answered_sent (s : Session) : s.answered.sent = s.sent := rfl
@[simp] theorem answered_received (s : Session) : s.answered.received = s.received := rfl
@[simp] theorem loggedIn_sent (env : Env) (now : Int) (s : Session) (u : Int) :
    (loggedIn env now s u).sent = s.sent ++ [loginAnswer env now u] := rfl
@[simp] theorem loggedIn_received (env : Env) (now : Int) (s : Session) (u : Int) :
    (loggedIn env now s u).received = s.received := rfl

@[simp] theorem leave_sent (s : Session) : s.leave.sent = s.sent := by
  simp only [leave]
  split <;> rfl

@[simp] theorem leave_received (s : Session) : s.leave.received = s.received := by
  simp only [leave]
  split <;> rfl

@[simp] theorem passwordMatched_received (s : Session) (connect : Int) (req : Json) :
    (s.passwordMatched connect req).received = s.received := by
  simp only [passwordMatched]
  split <;> split <;> rfl

@[simp] theorem passwordMatched_requestJson (s : Session) (connect : Int) (req : Json) :
    (s.passwordMatched connect req).cur.requestJson = s.cur.requestJson := by
  simp only [passwordMatched]
  split <;> split <;> rfl

@[simp] theorem passwordMatched_action (s : Session) (connect : Int) (req : Json) :
    (s.passwordMatched connect req).cur.action = s.cur.action := by
  simp only [passwordMatched]
  split <;> split <;> rfl

/-- The kept key is the request's. -/
theorem passwordMatched_key (s : Session) (connect : Int) {req : Json} {k : CString}
    (hk : req.getObjectItem "key" = some (.string k)) :
    (s.passwordMatched connect req).cur.key = some k := by
  simp only [passwordMatched, hk]
  split <;> split <;> rfl

/-- After a match only an unreachable data server is reported. -/
theorem passwordMatched_sent (s : Session) (connect : Int) (req : Json) :
    (s.passwordMatched connect req).sent = s.sent ∨
      (s.passwordMatched connect req).sent = s.sent ++ [createErrorResponse ERROR_DB_UNAVAILABLE] := by
  simp only [passwordMatched]
  split <;> split
  all_goals first | exact .inr rfl | exact .inl rfl

end Session

end FinalServer
