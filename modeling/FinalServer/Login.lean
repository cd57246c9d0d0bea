/-
A login, from the client's text to the answer, through both servers.

`Login` is an exchange run to its end: a `VALIDATE_USER` request in a session
that waits for nothing, the data server's answer to its query, and its
answer to the `GET_USER_INFO` query that follows. `login_iff` says when a
registered user gets in with his password and with no other: when his name
or e-mail is not too long for the lookups, leads to him before anybody else,
his password is at most 64 bytes, and his names, printed, fit a message.
-/
import FinalServer.Accounts
import FinalServer.DbAnswers
import FinalServer.JsonPrint
import FinalServer.LogicGate

namespace FinalServer

open Json (escapedLength overWire)
open UserSql (Plain)

/-- What comes back for a query: a reply as it parses, or the connection is closed. -/
def dataAnswer (un : Uninit) (m : Mysql) (d : Db) (query : Json) : Option (Option Json) :=
  query.overWire.bind fun query => (d.run m (handleAction un query)).1.map Json.overWire

namespace Session

/-- The data server answers the query the session waits for, if any, or goes away. -/
def await (env : Env) (un : Uninit) (m : Mysql) (d : Db) (now connect : Int) (s : Session) : Session :=
  match s.awaited with
  | none => s
  | some query =>
    match dataAnswer un m d query with
    | some reply => s.step env (.reply now reply connect)
    | none => s.step env (.dbGone false)

/-- The session can take a login: it polls the connection of the current
request, waits for nothing and is in the middle of no other login. -/
structure Ready (s : Session) : Prop where
  running : s.running = true
  polled : s.dbFd = s.cur.currentDbSock
  idle : s.conns s.dbFd = some []
  initial : s.cur.authState = .initial

theorem ready_start (fd : Int) : (start fd).Ready := ⟨rfl, rfl, if_pos rfl, rfl⟩

end Session

/-- A request for a login with a key and a password, and what it meets. -/
structure Login (key password : CString) where
  env : Env
  session : Session
  raw : CString
  json : Json
  isRequest : IsRequest env raw json .validateUser
  hasKey : json.getObjectItem "key" = some (.string key)
  hasPassword : json.getObjectItem "password" = some (.string password)
  ready : session.Ready
  connect : Int
  connected : 0 ≤ connect
  /-- When the request, the first and the second reply are taken. -/
  times : Int × Int × Int
  un : Uninit × Uninit

namespace Login

variable {key password : CString} (l : Login key password) (m : Mysql) (d : Db)

/-- The request is taken. -/
def requested : Session := l.session.step l.env (.client l.times.1 l.raw)

/-- The first query is answered. -/
def validated : Session := l.requested.await l.env l.un.1 m d l.times.2.1 l.connect

/-- The second one is, if there is one. -/
def finished : Session := (l.validated m d).await l.env l.un.2 m d l.times.2.2 l.connect

/-- The client gets a token for a user. -/
def GivesToken (userId : Int) : Prop :=
  (l.finished m d).sent = l.session.sent ++ [Session.loginAnswer l.env l.times.2.2 userId]

/-- The client gets an error. -/
def Fails : Prop := ∃ e ∈ Session.replyErrors, (l.finished m d).sent = l.session.sent ++ [e]

end Login

/-! ## The two queries and their answers -/

/-- A query for a key. -/
def keyQuery (a : Action) (key : CString) : Json :=
  .object [("action", .createNumber a.code), ("key", .string key)]

/-- The reply to `VALIDATE_USER`. -/
def validateReply (key : CString) : Option CString → Json
  | some hash => hashReply hash ("password_hash found for user with the key: " ++ key)
  | none => HandleAction.reply [] ("error retrieving password_hash for key: " ++ key) 400

/-- The reply to `GET_USER_INFO` for a key of a user. -/
def infoReply (row : UserRow) : Json :=
  userInfoReply row.userId row.username row.email
    ("User " ++ row.username ++ " was found with the ID: " ++ CString.ofInt row.userId)

variable {m : Mysql} {d : Db} {key password : CString} {un : Uninit}

theorem queryAction_keyQuery (a : Action) : queryAction (keyQuery a key) = some a := by
  have hcode : (Json.createNumber a.code).valueint = a.code := by
    refine Json.valueint_createNumber ?_ ?_ <;> cases a <;> decide
  exact (congrArg Action.ofCode hcode).trans (Action.ofCode_code a)

theorem validateUserQuery_eq {json : Json} (h : json.getObjectItem "key" = some (.string key)) :
    validateUserQuery json = keyQuery .validateUser key := by
  rw [validateUserQuery, h]
  rfl

theorem userInfoQuery_eq : Session.userInfoQuery (some key) = keyQuery .getUserInfo key := rfl

theorem run_validateQuery :
    (d.run m (handleAction un (keyQuery .validateUser key))).1 =
      some (validateReply key (d.run m (validateUser key)).1) := by
  have hkey : queryKey (keyQuery .validateUser key) = some key := rfl
  simp only [Db.run_handleAction (queryAction_keyQuery _), HandleAction.answer, HandleAction.validateUser, hkey,
    Db.run_bind]
  cases (d.run m (validateUser key)).1 <;> rfl

theorem run_infoQuery :
    (d.run m (handleAction un (keyQuery .getUserInfo key))).1 =
      some (match (d.run m (getUserInfo key)).1 with
        | some row => infoReply row
        | none => HandleAction.reply [] ("Error retreiving user info for key: " ++ key) 400) := by
  have hkey : queryKey (keyQuery .getUserInfo key) = some key := rfl
  simp only [Db.run_handleAction (queryAction_keyQuery _), HandleAction.answer, HandleAction.getUserInfo, hkey,
    Db.run_bind]
  cases (d.run m (getUserInfo key)).1 <;> rfl

/-! ## What fits a message -/

theorem length_print_keyQuery (a : Action) :
    (keyQuery a key).print.length = escapedLength key + (Json.createNumber a.code).print.length + 20 := by
  have h₁ : escapedLength "action" = 6 := by decide
  have h₂ : escapedLength "key" = 3 := by decide
  simp only [keyQuery, Json.print, Json.printFields, List.length_append, List.length_cons, List.length_nil,
    Json.length_printString, h₁, h₂]
  omega

theorem keyQuery_fits (hlen : key.length ≤ MAX_KEY_LENGTH) :
    (keyQuery .validateUser key).overWire = some (keyQuery .validateUser key) ∧
      (keyQuery .getUserInfo key).overWire = some (keyQuery .getUserInfo key) := by
  have hkey := Json.escapedLength_le key
  have h₀ : (Json.createNumber Action.validateUser.code).print.length = 1 := by decide
  have h₃ : (Json.createNumber Action.getUserInfo.code).print.length = 1 := by decide
  rw [MAX_KEY_LENGTH] at hlen
  constructor <;> refine Json.overWire_of_lt ?_ <;> rw [length_print_keyQuery, BUFFER_SIZE] <;> omega

theorem hashReply_fits {hash : CString} (hlen : key.length ≤ MAX_KEY_LENGTH) (hhash : hash.length ≤ 64) :
    (validateReply key (some hash)).overWire = some (validateReply key (some hash)) := by
  have hkey := Json.escapedLength_le key
  have hh := Json.escapedLength_le hash
  have h₁ : escapedLength "password_hash" = 13 := by decide
  have h₂ : escapedLength "response_text" = 13 := by decide
  have h₃ : escapedLength "response_code" = 13 := by decide
  have h₄ : escapedLength "password_hash found for user with the key: " = 43 := by decide
  have h₅ : (Json.createNumber 200).print.length = 3 := by decide
  rw [MAX_KEY_LENGTH] at hlen
  refine Json.overWire_of_lt ?_
  simp only [validateReply, hashReply, Json.print, Json.printFields, List.length_append, List.length_cons,
    List.length_nil, Json.length_printString, Json.escapedLength_append, h₁, h₂, h₃, h₄, h₅,
    BUFFER_SIZE]
  omega

/-- The names of a user fit the reply about him, which prints the username and
the id twice. -/
def NamesFit (row : UserRow) : Prop :=
  2 * escapedLength row.username + escapedLength row.email + escapedLength (CString.ofInt row.userId) +
    (CString.ofInt row.userId).length + 105 < BUFFER_SIZE

theorem infoReply_fits_iff {row : UserRow} (hlo : Json.INT_MIN ≤ row.userId) (hhi : row.userId ≤ Json.INT_MAX) :
    (infoReply row).print.length < BUFFER_SIZE ↔ NamesFit row := by
  have hid : (Json.createNumber row.userId).print = (CString.ofInt row.userId).bytes := by
    have h := Json.valueint_createNumber hlo hhi
    simp only [Json.createNumber, Json.valueint] at h
    simp only [Json.createNumber, Json.print, h]
  have h₁ : escapedLength "user_id" = 7 := by decide
  have h₂ : escapedLength "username" = 8 := by decide
  have h₃ : escapedLength "email" = 5 := by decide
  have h₄ : escapedLength "response_text" = 13 := by decide
  have h₅ : escapedLength "response_code" = 13 := by decide
  have h₆ : escapedLength "User " = 5 := by decide
  have h₇ : escapedLength " was found with the ID: " = 24 := by decide
  have h₈ : (Json.createNumber 200).print.length = 3 := by decide
  simp only [infoReply, userInfoReply, Json.print, Json.printFields, List.length_append, List.length_cons,
    List.length_nil, Json.length_printString, Json.escapedLength_append, hid, h₁, h₂, h₃, h₄, h₅, h₆, h₇, h₈,
    BUFFER_SIZE, NamesFit, CString.length]
  omega

/-! ## The exchange, step by step -/

namespace Session

variable {env : Env} {now connect : Int} {s : Session} {query : Json}

theorem await_idle (h : s.awaited = none) : s.await env un m d now connect = s := by rw [await, h]

/-- An answer is taken by `handle_db_response`. -/
theorem await_reply {reply : Option Json} (hrun : s.running = true) (h : s.awaited = some query)
    (hans : dataAnswer un m d query = some reply) :
    s.await env un m d now connect = handleDbResponse env now s.answered reply connect := by
  rw [await, h]
  simp only [hans, step, hrun, if_true, h]

/-- A closed connection ends the session, and the client hears nothing. -/
theorem await_gone (env : Env) (now connect : Int) (h : s.awaited = some query)
    (hans : dataAnswer un m d query = none) :
    (s.await env un m d now connect).sent = s.sent ∧
      (s.running = true → (s.await env un m d now connect).running = false) := by
  rw [await, h]
  simp only [hans, step]
  split
  next hrun => exact ⟨leave_sent s, fun _ => by simp [leave]⟩
  next hrun => exact ⟨rfl, fun h => absurd h hrun⟩

theorem await_left (hrun : s.running = false) : (s.await env un m d now connect).sent = s.sent := by
  rw [await]
  split
  · rfl
  · split <;> simp [step, hrun]

/-- A login that awaits the answer to its first query. -/
structure AsksPassword (key : CString) (req : Json) (s : Session) : Prop where
  running : s.running = true
  awaited : s.conns s.dbFd = some [keyQuery .validateUser key]
  inLogin : s.InLogin req
  initial : s.cur.authState = .initial

/-- A login that awaits the answer to its second query. -/
structure AsksUser (key : CString) (req : Json) (s : Session) : Prop where
  running : s.running = true
  awaited : s.conns s.dbFd = some [keyQuery .getUserInfo key]
  inLogin : s.InLogin req
  validated : s.cur.authState = .validated

theorem answered_awaited (h : s.conns s.dbFd = some [query]) : s.answered.awaited = none := by
  simp [Session.awaited, answered, h]

/-- With a connection the second query goes out, and nothing to the client. -/
theorem passwordMatched_asks {req : Json} (h : AsksPassword key req s)
    (hk : req.getObjectItem "key" = some (.string key)) (hconnect : 0 ≤ connect) :
    AsksUser key req (s.answered.passwordMatched connect req) ∧
      (s.answered.passwordMatched connect req).sent = s.sent := by
  have hneg : ¬ connect < 0 := by omega
  simp only [passwordMatched, hk, hneg, if_false]
  constructor
  · constructor
    · split <;> exact h.running
    · split <;> simp [write, open_, close, userInfoQuery_eq]
    · constructor
      · split <;> exact h.inLogin.request
      · split <;> exact h.inLogin.action
    · split <;> rfl
  · split <;> rfl

end Session

open Session

theorem Login.requested_asks (l : Login key password) :
    AsksPassword key l.json l.requested ∧ l.requested.sent = l.session.sent := by
  have hstep : l.requested = ({ l.session with
      cur := l.session.cur.store .validateUser l.json
      received := l.session.received ++ [l.raw] } : Session).write l.session.cur.currentDbSock
        (keyQuery .validateUser key) := by
    simp only [Login.requested, step, l.ready.running, if_true, handleClient,
      processClientRequest_validateUser _ l.isRequest, validateUserQuery_eq l.hasKey]
    rfl
  rw [hstep]
  refine ⟨⟨l.ready.running, ?_, ⟨rfl, rfl⟩, l.ready.initial⟩, rfl⟩
  have hidle := l.ready.idle
  rw [l.ready.polled] at hidle
  simp [Session.write, l.ready.polled, hidle]

/-! ## Who gets a token -/

/-- No error is the answer of a successful login. -/
theorem loginAnswer_not_error {env : Env} {now u : Int} : loginAnswer env now u ∉ replyErrors := by
  simp [replyErrors, loginAnswer, createErrorResponse, Json.addNumberToObject, Json.addStringToObject,
    Json.addItemToObject]

theorem loginAnswer_inj {env : Env} {now u v : Int} (h : loginAnswer env now u = loginAnswer env now v) : u = v := by
  simp only [loginAnswer, Json.addNumberToObject, Json.addStringToObject, Json.addItemToObject, Json.createNumber,
    Json.object.injEq] at h
  simpa using (List.append_inj' h rfl).2

/-- A password hash in the reply to the first query is the one the data server found. -/
theorem validateReply_hash {found : Option CString} {hash : CString}
    (h : (validateReply key found).getObjectItem "password_hash" = some (.string hash)) : found = some hash := by
  cases found with
  | none => cases h
  | some p =>
    have hp : (validateReply key (some p)).getObjectItem "password_hash" = some (.string p) := rfl
    rw [hp] at h
    simpa using h

/-- The first answer: the session ends or gives an error, or the password is
the one the data server found. -/
theorem Login.validated_cases (l : Login key password) :
    ((l.validated m d).sent = l.session.sent ∧
        ((l.validated m d).running = false ∨ (l.validated m d).awaited = none)) ∨
      (∃ e ∈ replyErrors, (l.validated m d).sent = l.session.sent ++ [e] ∧ (l.validated m d).awaited = none) ∨
      ((d.run m (validateUser key)).1 = some password ∧ AsksUser key l.json (l.validated m d) ∧
        (l.validated m d).sent = l.session.sent) := by
  obtain ⟨hask, hsent⟩ := l.requested_asks
  have haw : l.requested.awaited = some (keyQuery .validateUser key) := by simp [Session.awaited, hask.awaited]
  have hidle : l.requested.answered.awaited = none := answered_awaited hask.awaited
  rw [Login.validated]
  cases hans : dataAnswer l.un.1 m d (keyQuery .validateUser key) with
  | none =>
    obtain ⟨hs, hrun⟩ := await_gone l.env l.times.2.1 l.connect haw hans
    exact .inl ⟨hs.trans hsent, .inl (hrun hask.running)⟩
  | some reply =>
    rw [await_reply hask.running haw hans]
    have hreacts := handleDbResponse_reacts l.env l.times.2.1 l.requested.answered reply l.connect
    generalize handleDbResponse l.env l.times.2.1 l.requested.answered reply l.connect = s₂ at hreacts ⊢
    cases hreacts with
    | error r e he => exact .inr (.inl ⟨e, he, congrArg (· ++ [e]) hsent, hidle⟩)
    | ignored => exact .inl ⟨hsent, .inr hidle⟩
    | relayed r req hreq ha => exact absurd hask.inLogin.action ha
    | token r req x hl hst => simp [hask.initial] at hst
    | matched r req p hl _ _ hp hh =>
      obtain rfl : l.json = req := Option.some.inj (hask.inLogin.request.symm.trans hl.request)
      obtain rfl : password = p := by simpa [l.hasPassword] using hp
      obtain ⟨hasks, hs⟩ := passwordMatched_asks hask l.hasKey l.connected
      refine .inr (.inr ⟨?_, hasks, hs.trans hsent⟩)
      -- The hash is the one the data server has found.
      obtain ⟨q, hq, hrun⟩ := Option.bind_eq_some_iff.mp hans
      obtain rfl : keyQuery .validateUser key = q := Json.overWire_eq hq
      rw [run_validateQuery, Option.map_some, Option.some.injEq] at hrun
      exact validateReply_hash (Json.overWire_eq hrun ▸ hh)

/-- The second answer: the session ends or gives an error, or a token of the
user the data server found. -/
theorem Session.AsksUser.await_cases {s : Session} {req : Json} (h : AsksUser key req s) (env : Env) (un : Uninit)
    (m : Mysql) (d : Db) (now connect : Int) :
    (s.await env un m d now connect).sent = s.sent ∨
      (∃ e ∈ replyErrors, (s.await env un m d now connect).sent = s.sent ++ [e]) ∨
      ∃ row, (d.run m (getUserInfo key)).1 = some row ∧ (infoReply row).overWire ≠ none ∧
        (s.await env un m d now connect).sent =
          s.sent ++ [loginAnswer env now (Json.createNumber row.userId).valueint] := by
  have haw : s.awaited = some (keyQuery .getUserInfo key) := by simp [Session.awaited, h.awaited]
  cases hans : dataAnswer un m d (keyQuery .getUserInfo key) with
  | none => exact .inl (await_gone env now connect haw hans).1
  | some reply =>
    rw [await_reply h.running haw hans]
    have hreacts := handleDbResponse_reacts env now s.answered reply connect
    generalize handleDbResponse env now s.answered reply connect = s₂ at hreacts ⊢
    cases hreacts with
    | error r e he => exact .inr (.inl ⟨e, he, rfl⟩)
    | ignored => exact .inl rfl
    | relayed r req hreq ha => exact absurd h.inLogin.action ha
    | matched r req p hl hst => simp [h.validated] at hst
    | token r req x hl hst hs hu =>
      obtain ⟨q, hq, hrun⟩ := Option.bind_eq_some_iff.mp hans
      obtain rfl : keyQuery .getUserInfo key = q := Json.overWire_eq hq
      rw [run_infoQuery, Option.map_some, Option.some.injEq] at hrun
      have hr := Json.overWire_eq hrun
      cases hfound : (d.run m (getUserInfo key)).1 with
      | none =>
        -- The reply would carry no user.
        rw [hfound] at hr
        subst hr
        cases hu
      | some row =>
        rw [hfound] at hr hrun
        subst hr
        refine .inr (.inr ⟨row, rfl, by simp [hrun], ?_⟩)
        have hx : (infoReply row).getObjectItem "user_id" = some (.createNumber row.userId) := rfl
        rw [hx] at hu
        rw [Option.some.inj hu]
        rfl

/-- A token is given only if both queries found the user, the first one his
password, and the second reply came through. -/
theorem Login.GivesToken.found {l : Login key password} {u : Int} (h : l.GivesToken m d u) :
    (d.run m (validateUser key)).1 = some password ∧
      ∃ row, (d.run m (getUserInfo key)).1 = some row ∧ (infoReply row).overWire ≠ none ∧
        (Json.createNumber row.userId).valueint = u := by
  -- The session has sent something, and it is no error.
  have hnil : (l.finished m d).sent ≠ l.session.sent := by
    rw [h]
    simp
  have herr : ∀ e ∈ replyErrors, (l.finished m d).sent ≠ l.session.sent ++ [e] := by
    intro e he heq
    rw [h, List.append_cancel_left_eq, List.cons.injEq] at heq
    exact loginAnswer_not_error (heq.1 ▸ he)
  rcases l.validated_cases (m := m) (d := d) with ⟨hs, hrun | hidle⟩ | ⟨e, he, hs, hidle⟩ | ⟨hfound, hasks, hs⟩
  · exact absurd ((await_left hrun).trans hs) hnil
  · exact absurd (by rw [Login.finished, await_idle hidle, hs]) hnil
  · exact absurd (by rw [Login.finished, await_idle hidle, hs]) (herr e he)
  · refine ⟨hfound, ?_⟩
    rcases hasks.await_cases l.env l.un.2 m d l.times.2.2 l.connect with
      hs' | ⟨e, he, hs'⟩ | ⟨row, hrow, hwire, hs'⟩
    · exact absurd (hs'.trans hs) hnil
    · exact absurd (hs'.trans (congrArg (· ++ [e]) hs)) (herr e he)
    · refine ⟨row, hrow, hwire, ?_⟩
      have heq := h.symm.trans (hs'.trans (congrArg (· ++ [_]) hs))
      rw [List.append_cancel_left_eq, List.cons.injEq] at heq
      exact (loginAnswer_inj heq.1).symm

section Found

variable {row : UserRow}

theorem dataAnswer_validate (hplain : Plain key) (hlen : key.length ≤ MAX_KEY_LENGTH)
    (hfind : d.findKey key = some row) (hne : row.userId ≠ 1) :
    dataAnswer un m d (keyQuery .validateUser key) =
      some (some (validateReply key (some (row.passwordHash.take 64)))) := by
  rw [dataAnswer, (keyQuery_fits hlen).1, Option.bind_some, run_validateQuery, run_validateUser hplain hlen, hfind,
    Option.bind_some, if_pos hne, Option.map_some, hashReply_fits hlen (CString.length_take_le 64 _)]

theorem dataAnswer_info (hplain : Plain key) (hlen : key.length ≤ MAX_KEY_LENGTH)
    (hfind : d.findKey key = some row) (hfits : (infoReply row).print.length < BUFFER_SIZE) :
    dataAnswer un m d (keyQuery .getUserInfo key) = some (some (infoReply row)) := by
  rw [dataAnswer, (keyQuery_fits hlen).2, Option.bind_some, run_infoQuery, run_getUserInfo hplain hlen, hfind,
    Option.map_some, Json.overWire_of_lt hfits]

theorem Login.validated_eq (l : Login key password) (hplain : Plain key) (hlen : key.length ≤ MAX_KEY_LENGTH)
    (hfind : d.findKey key = some row) (hne : row.userId ≠ 1) :
    l.validated m d =
      if password ≠ row.passwordHash.take 64 then
        l.requested.answered.sendClient (createErrorResponse ERROR_INVALID_CREDENTIALS)
      else l.requested.answered.passwordMatched l.connect l.json := by
  obtain ⟨hask, -⟩ := l.requested_asks
  have haw : l.requested.awaited = some (keyQuery .validateUser key) := by simp [Session.awaited, hask.awaited]
  have hhash : (validateReply key (some (row.passwordHash.take 64))).getObjectItem "password_hash" =
    some (.string (row.passwordHash.take 64)) := rfl
  have hok : isSuccess (validateReply key (some (row.passwordHash.take 64))) = true := rfl
  rw [Login.validated, await_reply hask.running haw (dataAnswer_validate hplain hlen hfind hne)]
  simp only [handleDbResponse, answered_cur, hask.inLogin.request, hask.inLogin.action, hask.initial, if_true,
    initialReply, l.hasPassword, hhash, hok, Bool.not_true, Bool.false_eq_true, if_false]

/-- The stored hash, cut at 64 bytes, opens the account. -/
theorem Login.givesToken (l : Login key password) (hplain : Plain key) (hlen : key.length ≤ MAX_KEY_LENGTH)
    (hfind : d.findKey key = some row) (hne : row.userId ≠ 1) (hlo : Json.INT_MIN ≤ row.userId)
    (hhi : row.userId ≤ Json.INT_MAX) (hfits : NamesFit row) (hp : password = row.passwordHash.take 64) :
    l.GivesToken m d row.userId := by
  obtain ⟨hask, hsent⟩ := l.requested_asks
  obtain ⟨hasks, hs⟩ := passwordMatched_asks hask l.hasKey l.connected
  have haw : (l.requested.answered.passwordMatched l.connect l.json).awaited = some (keyQuery .getUserInfo key) := by
    simp [Session.awaited, hasks.awaited]
  have hid : (infoReply row).getObjectItem "user_id" = some (.createNumber row.userId) := rfl
  have hok : isSuccess (infoReply row) = true := rfl
  have hval : Json.toInt (row.userId : ℚ) = row.userId := Json.valueint_createNumber hlo hhi
  rw [Login.GivesToken, Login.finished, l.validated_eq hplain hlen hfind hne, if_neg (not_not.mpr hp),
    await_reply hasks.running haw (dataAnswer_info hplain hlen hfind ((infoReply_fits_iff hlo hhi).mpr hfits))]
  simp only [handleDbResponse, answered_cur, hasks.inLogin.request, hasks.inLogin.action, hasks.validated, if_true,
    validatedReply, hok, Bool.not_true, Bool.false_eq_true, if_false, hid, Json.createNumber, hval, loggedIn_sent,
    answered_sent, hs, hsent]

/-- And nothing else does. -/
theorem Login.fails (l : Login key password) (hplain : Plain key) (hlen : key.length ≤ MAX_KEY_LENGTH)
    (hfind : d.findKey key = some row) (hne : row.userId ≠ 1) (hp : password ≠ row.passwordHash.take 64) :
    l.Fails m d := by
  obtain ⟨hask, hsent⟩ := l.requested_asks
  have hidle : (l.requested.answered.sendClient (createErrorResponse ERROR_INVALID_CREDENTIALS)).awaited = none :=
    answered_awaited hask.awaited
  refine ⟨createErrorResponse ERROR_INVALID_CREDENTIALS, by simp [replyErrors], ?_⟩
  rw [Login.finished, l.validated_eq hplain hlen hfind hne, if_pos hp, await_idle hidle]
  exact congrArg (· ++ [_]) hsent

end Found

/-! ## Registered users -/

/-- A `CREATE_USER` answered with success adds the user of the request. -/
theorem createUser_registers {request : Json} {u : NewUser} (hq : queryAction request = some .createUser)
    (hu : createUserParams request = some u) (hplain : u.Plain)
    (hok : ∃ reply, (d.run m (handleAction un request)).1 = some reply ∧ isSuccess reply = true) :
    (d.run m (handleAction un request)).2.users =
      d.users ++ [⟨d.nextUserId, u.username, u.email, u.hashPassword⟩] := by
  obtain ⟨reply, hreply, hok⟩ := hok
  simp only [Db.run_handleAction hq, HandleAction.answer, HandleAction.createUser, hu, Option.getD_some,
    Db.run_bind] at hreply ⊢
  by_cases hstored : (d.run m (createUser u)).1 = true
  · rw [if_pos hstored, Db.run_pure]
    exact (run_createUser (m := m) (d := d) hplain).2 hstored
  · rw [if_neg hstored] at hreply
    obtain rfl := Option.some.inj hreply
    cases hok

theorem Tables.Wf.users_inj {t : Tables} (h : t.Wf) {u v : UserRow} (hu : u ∈ t.users) (hv : v ∈ t.users)
    (he : u.userId = v.userId) : u = v :=
  List.inj_on_of_nodup_map (List.pairwise_map.mpr (h.users_sorted.imp ne_of_lt)) hu hv he

/-- With the key the user gets in with his password, and with no other. -/
def LoginRight (m : Mysql) (d : Db) (key : CString) (row : UserRow) : Prop :=
  ∀ password (l : Login key password),
    (password = row.passwordHash → l.GivesToken m d row.userId) ∧ (password ≠ row.passwordHash → l.Fails m d)

/-- The key is short enough, leads to the user, whose password is short enough
and whose names fit the reply about him. -/
structure CanLogin (d : Db) (key : CString) (row : UserRow) : Prop where
  short : key.length ≤ MAX_KEY_LENGTH
  first : d.findKey key = some row
  password : row.passwordHash.length ≤ 64
  names : NamesFit row

/-- A login with a key and a password in a new session. -/
def plainLoginOf (key password : CString) : Login key password where
  env := Env.ofTables [(loginText key password, loginJson key password)] []
  session := .start 3
  raw := loginText key password
  json := loginJson key password
  isRequest := {
    parse := by simp [Env.ofTables]
    action := ⟨0, rfl, by decide⟩
    fields := List.forall_mem_cons.mpr ⟨rfl, List.forall_mem_cons.mpr ⟨rfl, nofun⟩⟩ }
  hasKey := rfl
  hasPassword := rfl
  ready := ready_start 3
  connect := 4
  connected := by decide
  times := (0, 0, 0)
  un := (.zero, .zero)

theorem loginRight_iff {row : UserRow} (hrow : row ∈ d.users) (hne : row.userId ≠ 1) (hplain : UserSql.Plain key) :
    LoginRight m d key row ↔ CanLogin d key row := by
  have hrange := d.wf.users_range row hrow
  have hlo : Json.INT_MIN ≤ row.userId := by simp only [Json.INT_MIN]; omega
  constructor
  · intro h
    obtain ⟨hvalidate, row', hinfo, hwire, hid⟩ := ((h _ (plainLoginOf key row.passwordHash)).1 rfl).found
    -- Both lookups have found somebody, so the key was not cut.
    have hlen : key.length ≤ MAX_KEY_LENGTH := by
      by_contra hlong
      rcases lookup_fails (m := m) (d := d) hplain (not_le.mp hlong) with hnone | hnone
      · rw [hnone] at hvalidate
        cases hvalidate
      · rw [hnone] at hinfo
        cases hinfo
    rw [run_getUserInfo hplain hlen] at hinfo
    rw [run_validateUser hplain hlen, show d.findKey key = some row' from hinfo, Option.bind_some] at hvalidate
    -- It is the user himself, by his id.
    have hrow' := List.mem_of_find?_eq_some hinfo
    have hrange' := d.wf.users_range row' hrow'
    rw [Json.valueint_createNumber (by simp only [Json.INT_MIN]; omega) hrange'.2] at hid
    obtain rfl := d.wf.users_inj hrow' hrow hid
    rw [if_pos hne] at hvalidate
    refine ⟨hlen, hinfo, CString.take_eq_self_iff.mp (Option.some.inj hvalidate), ?_⟩
    rw [← infoReply_fits_iff hlo hrange.2]
    by_contra hfits
    exact hwire (if_neg hfits)
  · intro h password l
    have htake : row.passwordHash.take 64 = row.passwordHash := CString.take_eq_self_iff.mpr h.password
    refine ⟨fun hp => ?_, fun hp => ?_⟩
    · exact l.givesToken hplain h.short h.first hne hlo hrange.2 h.names (hp.trans htake.symm)
    · exact l.fails hplain h.short h.first hne (htake.symm ▸ hp)

/-- **Who can log in.** A user whose `CREATE_USER` was answered with success
gets in later, with his name or e-mail, with the password he registered and
with no other, exactly when key and password are short enough, nobody before
him has the key as a name or an e-mail, and his names fit a message. -/
theorem login_iff (m : Mysql) (d₀ : Db) (hsystem : 1 ∈ d₀.userIds) (un : Uninit) {request : Json} {u : NewUser}
    (hq : queryAction request = some .createUser) (hu : createUserParams request = some u) (hplain : u.Plain)
    (hok : ∃ reply, (d₀.run m (handleAction un request)).1 = some reply ∧ isSuccess reply = true)
    (calls : List Call) {key : CString} (hkey : key = u.username ∨ key = u.email) :
    LoginRight m (Run.exec (Db.serve m) (d₀.run m (handleAction un request)).2 calls) key
        ⟨d₀.nextUserId, u.username, u.email, u.hashPassword⟩ ↔
      CanLogin (Run.exec (Db.serve m) (d₀.run m (handleAction un request)).2 calls) key
        ⟨d₀.nextUserId, u.username, u.email, u.hashPassword⟩ := by
  refine loginRight_iff ?_ ?_ ?_
  · refine (exec_serve_users (m := m) calls).subset ?_
    rw [createUser_registers hq hu hplain hok]
    simp
  · obtain ⟨r, hr, hid⟩ := Tables.mem_userIds.mp hsystem
    have := d₀.wf.users_lt r hr
    rw [hid] at this
    exact this.ne'
  · rcases hkey with rfl | rfl
    · exact hplain.username
    · exact hplain.email

/-! ## Dave registers -/

/-- Dave's `CREATE_USER` with a password. -/
def createDave (password : CString) : Json :=
  .object [("action", .createNumber 2), ("username", .string "dave"), ("email", .string "dave@x"),
    ("password", .string password)]

theorem dave_plain {password : CString} (hp : UserSql.Plain password) : NewUser.Plain ⟨"dave", "dave@x", password⟩ where
  username := show UserSql.Plain (CString.ofString "dave") by decide
  email := show UserSql.Plain (CString.ofString "dave@x") by decide
  hashPassword := hp

/-- A plain password that fits the statement is registered. -/
theorem createDave_ok {password : CString} (hp : UserSql.Plain password) (hlen : password.length ≤ 100) :
    ∃ reply, (Db.threeUsers.run .tableOrder (handleAction .zero (createDave password))).1 = some reply ∧
      isSuccess reply = true := by
  have hfits : (UserSql.insertText "dave" "dave@x" password).length < UserSql.QUERY_SIZE := by
    have h₁ : UserSql.insertFirst.length = 60 := by decide
    have h₂ : CString.length "dave" = 4 := by decide
    have h₃ : CString.length "', '" = 4 := by decide
    have h₄ : CString.length "dave@x" = 6 := by decide
    have h₅ : CString.length "')" = 2 := by decide
    simp only [UserSql.insertText, CString.length_append, h₁, h₂, h₃, h₄, h₅, UserSql.QUERY_SIZE]
    omega
  have hstored : (Db.threeUsers.run .tableOrder (createUser ⟨"dave", "dave@x", password⟩)).1 = true := by
    rw [(run_createUser (dave_plain hp)).1, decide_eq_true hfits]
    rfl
  have hu : createUserParams (createDave password) = some ⟨"dave", "dave@x", password⟩ := rfl
  simp only [Db.run_handleAction (show queryAction (createDave password) = some .createUser from rfl),
    HandleAction.answer, HandleAction.createUser, hu, Option.getD_some, Db.run_bind]
  rw [if_pos hstored]
  exact ⟨_, rfl, rfl⟩

/-- Dave's account after his registration. -/
def afterDave (password : CString) : Db :=
  Run.exec (Db.serve .tableOrder) (Db.threeUsers.run .tableOrder (handleAction .zero (createDave password))).2 []

theorem afterDave_users {password : CString} (hp : UserSql.Plain password) (hlen : password.length ≤ 100) :
    (afterDave password).users = Db.threeUsers.users ++ [⟨5, "dave", "dave@x", password⟩] := by
  have h := createUser_registers (by rfl) (by rfl) (dave_plain hp) (createDave_ok hp hlen)
  rw [afterDave, Run.exec_nil, h]
  rfl

theorem login_iff_dave :
    LoginRight .tableOrder (afterDave "kiwi") "dave" ⟨5, "dave", "dave@x", "kiwi"⟩ ↔
      CanLogin (afterDave "kiwi") "dave" ⟨5, "dave", "dave@x", "kiwi"⟩ :=
  login_iff .tableOrder .threeUsers (by decide) .zero (u := ⟨"dave", "dave@x", "kiwi"⟩) rfl rfl
    (dave_plain (by decide)) (createDave_ok (by decide) (by decide)) [] (.inl rfl)

/-- A password of 65 bytes. -/
def longPassword : CString := ⟨List.replicate 65 97, by simp⟩

/-- Dave cannot log in with the password he registered. -/
theorem long_password_refused :
    ¬ ∀ (m : Mysql) (d₀ : Db) (un : Uninit) (request : Json) (u : NewUser) (calls : List Call) (key : CString),
      1 ∈ d₀.userIds → queryAction request = some .createUser → createUserParams request = some u → u.Plain →
      (∃ reply, (d₀.run m (handleAction un request)).1 = some reply ∧ isSuccess reply = true) →
      (key = u.username ∨ key = u.email) →
      LoginRight m (Run.exec (Db.serve m) (d₀.run m (handleAction un request)).2 calls) key
        ⟨d₀.nextUserId, u.username, u.email, u.hashPassword⟩ := by
  intro h
  have hlong : UserSql.Plain longPassword := by
    intro b hb
    rw [List.eq_of_mem_replicate hb]
    decide
  have hlen : longPassword.length ≤ 100 := by simp [longPassword, CString.length]
  have hright : LoginRight .tableOrder (afterDave longPassword) "dave" ⟨5, "dave", "dave@x", longPassword⟩ :=
    h .tableOrder .threeUsers .zero (createDave longPassword) ⟨"dave", "dave@x", longPassword⟩ [] "dave"
      (by decide) rfl rfl (dave_plain hlong) (createDave_ok hlong hlen) (.inl rfl)
  have husers := afterDave_users hlong hlen
  generalize afterDave longPassword = d at husers hright
  have hfind : d.findKey "dave" = some ⟨5, "dave", "dave@x", longPassword⟩ := by
    rw [Tables.findKey, husers]
    rfl
  -- The lookup gives the first 64 bytes.
  have hfound := ((hright _ (plainLoginOf "dave" longPassword)).1 rfl).found.1
  rw [run_validateUser (by decide) (by decide), hfind] at hfound
  exact absurd (CString.take_eq_self_iff.mp (Option.some.inj hfound)) (by simp [longPassword, CString.length])

end FinalServer
