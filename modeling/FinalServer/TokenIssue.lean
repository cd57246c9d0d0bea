/-
What a token stands for.

In a run of a session and the data server, with whatever other clients do to
the database, each query is answered on the connection it was written to.
While no request is forwarded before the last one has its reply, the two
replies of a login belong to the login the client waits for, and
`step_traced` says of every token that it is given for the password of its
user. The key has to be plain text for that, and only the first 64 bytes of
the stored password count; what the lookups do with another key is up to
what it makes of their SQL.
-/
import FinalServer.Faults
import FinalServer.SessionLogin
import FinalServer.SessionServing

namespace FinalServer

/-! ## Replies without a token -/

namespace HandleAction

theorem reply_noToken {fields : List (CString × Json)} (h : (Json.object fields).getObjectItem "token" = none)
    (text : CString) (code : Int) : (reply fields text code).getObjectItem "token" = none := by
  have htext : CString.eqNoCase "response_text" "token" = false := by decide
  have hcode : CString.eqNoCase "response_code" "token" = false := by decide
  exact (Json.getObjectItem_add_other hcode).trans ((Json.getObjectItem_add_other htext).trans h)

/-- Whatever the answers, the reply has no token. -/
abbrev NoToken (p : DbProg Json) : Prop := Prog.Returns (fun r : Json => r.getObjectItem "token" = none) p

theorem noToken_reply {fields : List (CString × Json)} {text : CString} {code : Int}
    (h : (Json.object fields).getObjectItem "token" = none) : NoToken (.ret (reply fields text code)) :=
  .ret (reply_noToken h text code)

theorem exitAdmin_noToken (c u : Int) : NoToken (exitAdmin c u) := by
  refine .bind _ fun count => .ite (.bind _ fun promoted => .ite ?_ ?_) ?_ <;> exact noToken_reply rfl

theorem answer_noToken (un : Uninit) (json : Json) (a : Option Action) : NoToken (answer un json a) := by
  rcases a with _ | a
  · exact noToken_reply rfl
  cases a with
  | ping => exact noToken_reply rfl
  | validateUser | getUserInfo | getChats | getChatMessages | getChatInfo =>
    simp only [answer, validateUser, getUserInfo, getChats, getChatMessages, getChatInfo]
    split
    · refine .bind _ fun r => ?_
      split <;> exact noToken_reply rfl
    · exact noToken_reply rfl
  | createUser => exact .bind _ fun stored => .ite (noToken_reply rfl) (noToken_reply rfl)
  | addToGroupChat | sendMessage =>
    simp only [answer, addToGroupChat, sendMessage]
    split
    · exact .bind _ fun r => .ite (noToken_reply rfl) (noToken_reply rfl)
    · exact noToken_reply rfl
  | createChat =>
    simp only [answer, createChat]
    split
    · refine .ite (.bind _ fun r => ?_) (noToken_reply rfl)
      split
      · exact .bind _ fun _ => .bind _ fun n => noToken_reply rfl
      · exact noToken_reply rfl
    · exact noToken_reply rfl
  | removeFromChat =>
    simp only [answer, removeFromChat]
    split
    · refine .bind _ fun isAdmin => .ite (noToken_reply rfl) (.bind _ fun isGroup => .ite (noToken_reply rfl) ?_)
      exact .bind _ fun n => noToken_reply rfl
    · exact noToken_reply rfl
  | exitChat =>
    simp only [answer, exitChat]
    split
    · refine .bind _ fun isAdmin => .bind _ fun count => .bind _ fun removed => .ite (noToken_reply rfl) ?_
      refine .bind _ fun _ => .ite (.bind _ fun deleted => .ite ?_ ?_) (.ite (exitAdmin_noToken _ _) ?_) <;>
        exact noToken_reply rfl
    · exact noToken_reply rfl

end HandleAction

theorem dataAnswer_noToken {un : Uninit} {m : Mysql} {d : Db} {query r : Json}
    (h : dataAnswer un m d query = some (some r)) : r.getObjectItem "token" = none := by
  obtain ⟨q, -, hrun⟩ := Option.bind_eq_some_iff.mp h
  obtain ⟨reply, hreply, hwire⟩ := Option.map_eq_some_iff.mp hrun
  obtain rfl : reply = r := Json.overWire_eq hwire
  simp only [handleAction] at hreply
  split at hreply
  · cases hreply
  next item _ =>
    simp only [Db.run_bind, Db.run_pure, Option.some.injEq] at hreply
    subst hreply
    exact (HandleAction.answer_noToken un q _).run d

/-! ## What the two queries of a login tell -/

/-- A password hash comes only for a key that is a text, and is the one found for it. -/
theorem validateAnswer_hash {un : Uninit} {m : Mysql} {d : Db} {json r : Json} {p : CString}
    (h : dataAnswer un m d (validateUserQuery json) = some (some r))
    (hp : r.getObjectItem "password_hash" = some (.string p)) :
    ∃ key, json.getObjectItem "key" = some (.string key) ∧ (d.run m (validateUser key)).1 = some p := by
  obtain ⟨q, hq, hrun⟩ := Option.bind_eq_some_iff.mp h
  obtain rfl : validateUserQuery json = q := Json.overWire_eq hq
  by_cases hkey : ∃ key, json.getObjectItem "key" = some (.string key)
  · obtain ⟨key, hkey⟩ := hkey
    rw [validateUserQuery_eq hkey, run_validateQuery, Option.map_some, Option.some.injEq] at hrun
    exact ⟨key, hkey, validateReply_hash (Json.overWire_eq hrun ▸ hp)⟩
  · -- The query has no key, and the reply is an error.
    have hquery : validateUserQuery json = .object [("action", .createNumber Action.validateUser.code)] := by
      unfold validateUserQuery
      split
      next item hitem =>
        have hstring : item.valuestring = none := by
          cases item with
          | string key => exact absurd ⟨key, hitem⟩ hkey
          | _ => rfl
        rw [hstring]
        rfl
      next => rfl
    rw [hquery] at hrun
    have hreply : r = HandleAction.reply [] "Invalid parameters" 400 := (Json.overWire_eq (Option.some.inj hrun)).symm
    rw [hreply] at hp
    cases hp

/-- A user id comes only with a user that was found. -/
theorem infoAnswer_userId {un : Uninit} {m : Mysql} {d : Db} {key : CString} {r : Json} {x : ℚ}
    (h : dataAnswer un m d (keyQuery .getUserInfo key) = some (some r))
    (hx : r.getObjectItem "user_id" = some (.number x)) :
    ∃ row, (d.run m (getUserInfo key)).1 = some row ∧ Json.toInt x = (Json.createNumber row.userId).valueint := by
  obtain ⟨q, hq, hrun⟩ := Option.bind_eq_some_iff.mp h
  obtain rfl : keyQuery .getUserInfo key = q := Json.overWire_eq hq
  rw [run_infoQuery, Option.map_some, Option.some.injEq] at hrun
  have hr := Json.overWire_eq hrun
  cases hfound : (d.run m (getUserInfo key)).1 with
  | none =>
    rw [hfound] at hr
    subst hr
    cases hx
  | some row =>
    rw [hfound] at hr
    subst hr
    have hrow : (infoReply row).getObjectItem "user_id" = some (.createNumber row.userId) := rfl
    rw [hrow] at hx
    exact ⟨row, rfl, congrArg Json.valueint (Option.some.inj hx).symm⟩

section Lookups

open UserSql (passwordFirst infoFirst selectText readCondition)

variable {m : Mysql} {d d' : Db} {key : CString}

theorem run_validateUser_eq_some {p : CString} : (d.run m (validateUser key)).1 = some p ↔
    ∃ c row rest, readCondition passwordFirst (UserSql.query (selectText passwordFirst key)) = some c ∧
      d.selectUsers m c = row :: rest ∧ row.userId ≠ 1 ∧ row.passwordHash.take 64 = p := by
  have hans : (Tables.exec m (.selectPassword (UserSql.query (selectText passwordFirst key))) d.toTables).1 =
    (readCondition passwordFirst (UserSql.query (selectText passwordFirst key))).map (d.selectUsers m) := rfl
  rw [validateUser, Db.run_query_bind _ hans]
  rcases readCondition passwordFirst (UserSql.query (selectText passwordFirst key)) with _ | c
  · simp
  rcases hrows : d.selectUsers m c with _ | ⟨row, rest⟩
  · simp [hrows]
  · by_cases hone : row.userId = 1 <;> simp [hrows, hone]

theorem run_getUserInfo_eq_some {row : UserRow} : (d.run m (getUserInfo key)).1 = some row ↔
    ∃ c rest, readCondition infoFirst (UserSql.query (selectText infoFirst key)) = some c ∧
      d.selectUsers m c = row :: rest := by
  have hans : (Tables.exec m (.selectUserInfo (UserSql.query (selectText infoFirst key))) d.toTables).1 =
    (readCondition infoFirst (UserSql.query (selectText infoFirst key))).map (d.selectUsers m) := rfl
  rw [getUserInfo, Db.run_query_bind _ hans]
  rcases readCondition infoFirst (UserSql.query (selectText infoFirst key)) with _ | c
  · simp
  rcases hrows : d.selectUsers m c with _ | ⟨row', rest⟩ <;> simp [hrows]

/-- Who is selected first stays first when users are added. -/
theorem selectUsers_grows (h : d.users <+: d'.users) {c : UserSql.Condition} {row : UserRow} {rest : List UserRow}
    (hrows : d.selectUsers m c = row :: rest) : ∃ rest', d'.selectUsers m c = row :: rest' := by
  have hgrow : d.selectUsers m c <+: d'.selectUsers m c := by
    cases c <;> exact h.filter _
  obtain ⟨added, hadded⟩ := hrows ▸ hgrow
  exact ⟨rest ++ added, hadded.symm⟩

theorem validateUser_grows (h : d.users <+: d'.users) {p : CString}
    (hfound : (d.run m (validateUser key)).1 = some p) : (d'.run m (validateUser key)).1 = some p := by
  obtain ⟨c, row, rest, hc, hrows, hp⟩ := run_validateUser_eq_some.mp hfound
  obtain ⟨rest', hrows'⟩ := selectUsers_grows h hrows
  exact run_validateUser_eq_some.mpr ⟨c, row, rest', hc, hrows', hp⟩

theorem getUserInfo_grows (h : d.users <+: d'.users) {row : UserRow}
    (hfound : (d.run m (getUserInfo key)).1 = some row) : (d'.run m (getUserInfo key)).1 = some row := by
  obtain ⟨c, rest, hc, hrows⟩ := run_getUserInfo_eq_some.mp hfound
  obtain ⟨rest', hrows'⟩ := selectUsers_grows h hrows
  exact run_getUserInfo_eq_some.mpr ⟨c, rest', hc, hrows'⟩

/-- A user that was found is one. -/
theorem userId_of_getUserInfo {row : UserRow} (hfound : (d.run m (getUserInfo key)).1 = some row) :
    0 < row.userId ∧ row.userId ≤ Json.INT_MAX := by
  obtain ⟨c, rest, -, hrows⟩ := run_getUserInfo_eq_some.mp hfound
  have hmem : row ∈ d.selectUsers m c := hrows ▸ List.mem_cons_self
  have hrow : row ∈ d.users := by
    cases c <;> exact List.mem_of_mem_filter hmem
  exact d.wf.users_range row hrow

/-- For plain text both lookups find the user that has the key. -/
theorem findKey_of_lookups {p : CString} {row : UserRow} (hplain : UserSql.Plain key)
    (hp : (d.run m (validateUser key)).1 = some p) (hrow : (d.run m (getUserInfo key)).1 = some row) :
    d.findKey key = some row ∧ row.userId ≠ 1 ∧ p = row.passwordHash.take 64 := by
  -- A key too long for one of the lookups would not have come so far.
  have hlen : key.length ≤ MAX_KEY_LENGTH := by
    by_contra hlong
    rcases lookup_fails (m := m) (d := d) hplain (not_le.mp hlong) with hnone | hnone
    · simp [hnone] at hp
    · simp [hnone] at hrow
  rw [run_validateUser hplain hlen] at hp
  rw [run_getUserInfo hplain hlen] at hrow
  have hfind : d.findKey key = some row := hrow
  rw [hfind, Option.bind_some] at hp
  split at hp
  next hne => exact ⟨hfind, hne, (Option.some.inj hp).symm⟩
  next => cases hp

end Lookups

/-! ## The session between two replies -/

namespace Served

variable {env : Env} {m : Mysql} {survivesFree : Bool} {s : Served}

/-- A child of the data server has answered the query, and only users have been added since. -/
def AnsweredBefore (m : Mysql) (d : Db) (query : Json) (r : Option Json) : Prop :=
  ∃ (un : Uninit) (d₀ : Db), d₀.users <+: d.users ∧ dataAnswer un m d₀ query = some r

/-- The query is with the data server, or its answer is on the way back. -/
structure Awaits (m : Mysql) (s : Served) (query : Json) : Prop where
  conns : s.session.conns s.session.dbFd = some [query]
  peer : s.peer s.session.dbFd = .waiting ∨
    ∃ r, s.peer s.session.dbFd = .closed (some r) ∧ AnsweredBefore m s.db query r

/-- A request that is forwarded finds no other one waiting for its reply. -/
def OneAtATime (env : Env) (s : Served) : Event → Prop
  | .request now raw => Forwarded env (now, raw) → s.pending = []
  | _ => True

/-- Where the session is with the request its client waits for. -/
inductive Stage (env : Env) (m : Mysql) (s : Served) : Prop
  | idle (hpending : s.pending = []) (hstate : s.session.cur.authState = .initial)
      (hconns : s.session.conns s.session.dbFd = some []) (hpeer : s.peer s.session.dbFd = .waiting)
  | asked {now : Int} {raw : CString} {a : Action} {stored query : Json} (hpending : s.pending = [(now, raw)])
      (hf : Forwards env now raw a stored query) (hrequest : s.session.cur.requestJson = some stored)
      (haction : s.session.cur.action = a) (hstate : s.session.cur.authState = .initial) (hawaits : s.Awaits m query)
  /-- The password of the login is the one that was found for its key. -/
  | verified {now : Int} {raw key password : CString} (hpending : s.pending = [(now, raw)])
      (hlogin : LoginRequest env raw key password) (hstate : s.session.cur.authState = .validated)
      (hfound : (s.db.run m (validateUser key)).1 = some password)
      (hawaits : s.Awaits m (keyQuery .getUserInfo key))
  /-- The child has gone, and its answer has been taken. -/
  | spent (hpeer : s.peer s.session.dbFd = .closed none)

/-- A session that runs writes to the connection it polls, no child waits for
a query that is on another one, and the session is at one of the stages. -/
structure Traced (env : Env) (m : Mysql) (s : Served) : Prop where
  polled : s.session.running = true → s.session.dbFd = s.session.cur.currentDbSock
  others : ∀ fd, fd ≠ s.session.dbFd → s.peer fd = .waiting → ∀ query rest, s.session.conns fd ≠ some (query :: rest)
  single : s.pending.length ≤ 1
  stage : Stage env m s

theorem start_traced (env : Env) (m : Mysql) (fd : Int) (d : Db) : (start fd d).Traced env m where
  polled _ := rfl
  others fd' hne _ query rest hconns := by
    cases (if_neg hne).symm.trans hconns
  single := Nat.zero_le 1
  stage := .idle rfl rfl (if_pos rfl) rfl

/-- A stage does not depend on what has been sent, nor on users added by other clients. -/
theorem Stage.of_same (h : Stage env m s) {s' : Served} (hcur : s'.session.cur = s.session.cur)
    (hfd : s'.session.dbFd = s.session.dbFd) (hconns : s'.session.conns = s.session.conns) (hpeer : s'.peer = s.peer)
    (hdb : s.db.users <+: s'.db.users) (hpending : s'.pending = s.pending) : Stage env m s' := by
  have hawaits : ∀ {query}, s.Awaits m query → s'.Awaits m query := by
    intro query h
    refine ⟨by rw [hconns, hfd, h.conns], ?_⟩
    rw [hpeer, hfd]
    refine h.peer.imp_right ?_
    rintro ⟨r, hr, un, d₀, hd₀, hans⟩
    exact ⟨r, hr, un, d₀, hd₀.trans hdb, hans⟩
  cases h with
  | idle hp hstate hc hw =>
    exact .idle (hpending.trans hp) (by rw [hcur, hstate]) (by rw [hconns, hfd, hc]) (by rw [hpeer, hfd, hw])
  | asked hp hf hrequest haction hstate h =>
    exact .asked (hpending.trans hp) hf (by rw [hcur, hrequest]) (by rw [hcur, haction]) (by rw [hcur, hstate])
      (hawaits h)
  | verified hp hlogin hstate hfound h =>
    exact .verified (hpending.trans hp) hlogin (by rw [hcur, hstate]) (validateUser_grows hdb hfound) (hawaits h)
  | spent hw => exact .spent (by rw [hpeer, hfd, hw])

theorem request_traced (h : s.Traced env m) {now : Int} {raw : CString} (hone : OneAtATime env s (.request now raw)) :
    (s.request env survivesFree now raw).Traced env m := by
  rw [request]
  split
  next hrun =>
    have hpolled := h.polled hrun
    simp only [Session.step, hrun, if_true, Session.handleClient]
    rcases processClientRequest_cases env now s.session.cur raw with ⟨a, stored, query, hf, hp⟩ | hr
    · simp only [hp, Bool.false_eq_true, if_false]
      have hpending := hone ⟨a, stored, query, hf⟩
      refine ⟨fun _ => hpolled, fun fd hne hwait query' rest => ?_, by simp [hpending], ?_⟩
      · have hother : fd ≠ s.session.cur.currentDbSock := hpolled ▸ hne
        show Function.update s.session.conns s.session.cur.currentDbSock _ fd ≠ _
        rw [Function.update_of_ne hother]
        exact h.others fd hne hwait query' rest
      · cases h.stage with
        | idle _ hstate hconns hpeer =>
          refine .asked (by rw [hpending]; rfl) hf rfl rfl hstate ⟨?_, .inl hpeer⟩
          rw [hpolled] at hconns
          simp [Session.write, CurrentRequest.store, hpolled, hconns]
        | asked hasked => cases hpending.symm.trans hasked
        | verified hasked => cases hpending.symm.trans hasked
        | spent hpeer => exact .spent hpeer
    · simp only [hr.handledLocally, if_true, hr.current]
      cases survivesFree with
      | true => exact ⟨fun _ => hpolled, h.others, h.single, h.stage.of_same rfl rfl rfl rfl List.prefix_rfl rfl⟩
      | false =>
        exact ⟨fun hrun' => (by cases hrun'), h.others, h.single, h.stage.of_same rfl rfl rfl rfl List.prefix_rfl rfl⟩
  next => exact h

/-- What arrives of a child's reply is an answer to its query. -/
theorem dataAnswer_of_child {un : Uninit} {d : Db} {query : Json} {r : Option Json}
    (h : (child m survivesFree un d query.overWire).1.map Json.overWire = some r) :
    dataAnswer un m d query = some r := by
  obtain ⟨reply, hreply, rfl⟩ := Option.map_eq_some_iff.mp h
  obtain ⟨q, hq, hrun⟩ := child_fst hreply
  rw [dataAnswer, hq, Option.bind_some, hrun, Option.map_some]

theorem child_users (un : Uninit) (d : Db) (query : Option Json) :
    d.users <+: (child m survivesFree un d query).2.users := by
  cases query with
  | none => exact List.prefix_rfl
  | some query => exact Db.run_users_grow _

/-- The child at the other end of a connection answers its query. -/
theorem Stage.answered (h : Stage env m s) {fd : Int} {query : Json} {rest : List Json} (hpeer : s.peer fd = .waiting)
    (hconns : s.session.conns fd = some (query :: rest)) {un : Uninit} {answer : Option (Option Json)} {d : Db}
    (hanswer : ∀ r, answer = some r → dataAnswer un m s.db query = some r) (hd : s.db.users <+: d.users) :
    Stage env m { s with peer := Function.update s.peer fd (.closed answer), db := d } := by
  by_cases hfd : fd = s.session.dbFd
  · subst hfd
    cases answer with
    | none => exact .spent (by simp)
    | some r =>
    have hawaits : ∀ {q}, s.Awaits m q → Awaits m
        { s with peer := Function.update s.peer s.session.dbFd (.closed (some r)), db := d } q := by
      intro q hq
      have hcons := Option.some.inj (hconns.symm.trans hq.conns)
      obtain rfl : query = q := (List.cons.inj hcons).1
      exact ⟨hq.conns, .inr ⟨r, by simp, un, s.db, hd, hanswer r rfl⟩⟩
    cases h with
    | idle _ _ hidle => simp [hidle] at hconns
    | asked hpending hf hrequest haction hstate h => exact .asked hpending hf hrequest haction hstate (hawaits h)
    | verified hpending hlogin hstate hfound h =>
      exact .verified hpending hlogin hstate (validateUser_grows hd hfound) (hawaits h)
    | spent hgone => simp [hgone] at hpeer
  · have hother : Function.update s.peer fd (.closed answer) s.session.dbFd = s.peer s.session.dbFd :=
      Function.update_of_ne (Ne.symm hfd) _ _
    have hawaits : ∀ {q}, Awaits m { s with db := d } q → Awaits m
        { s with peer := Function.update s.peer fd (.closed answer), db := d } q := by
      intro q hq
      exact ⟨hq.conns, hq.peer.imp (hother.trans ·) fun ⟨r, hr, hans⟩ => ⟨r, hother.trans hr, hans⟩⟩
    have hsame : Stage env m { s with db := d } := h.of_same rfl rfl rfl rfl hd rfl
    cases hsame with
    | idle hpending hstate hconns hpeer => exact .idle hpending hstate hconns (hother.trans hpeer)
    | asked hpending hf hrequest haction hstate h => exact .asked hpending hf hrequest haction hstate (hawaits h)
    | verified hpending hlogin hstate hfound h => exact .verified hpending hlogin hstate hfound (hawaits h)
    | spent hpeer => exact .spent (hother.trans hpeer)

theorem answer_traced (h : s.Traced env m) (fd : Int) (un : Uninit) :
    (s.answer m survivesFree fd un).Traced env m := by
  rw [answer]
  split
  next query rest hpeer hconns =>
    refine ⟨h.polled, fun fd' hne hwait => h.others fd' hne ?_, h.single,
      h.stage.answered hpeer hconns (fun _ => dataAnswer_of_child) (child_users un s.db _)⟩
    have hne' : fd' ≠ fd := by
      rintro rfl
      simp at hwait
    simpa [Function.update_of_ne hne'] using hwait
  next => exact h

/-- A query that a child can answer is that of the request the client waits
for, or the second one of its login. -/
theorem Traced.answerable (h : s.Traced env m) {fd : Int} {query : Json} {rest : List Json}
    (hpeer : s.peer fd = .waiting) (hconns : s.session.conns fd = some (query :: rest)) :
    (∃ key, query = keyQuery .getUserInfo key) ∨
      ∃ now raw a stored, s.pending = [(now, raw)] ∧ Forwards env now raw a stored query := by
  by_cases hfd : fd = s.session.dbFd
  · subst hfd
    cases h.stage with
    | idle _ _ hidle => cases hidle.symm.trans hconns
    | asked hpending hf _ _ _ hawaits =>
      have hcons := Option.some.inj (hawaits.conns.symm.trans hconns)
      exact .inr ⟨_, _, _, _, hpending, (List.cons.inj hcons).1 ▸ hf⟩
    | verified _ _ _ _ hawaits =>
      have hcons := Option.some.inj (hawaits.conns.symm.trans hconns)
      exact .inl ⟨_, (List.cons.inj hcons).1.symm⟩
    | spent hgone => cases hgone.symm.trans hpeer
  · exact absurd hconns (h.others fd hfd hpeer query rest)

/-! ## What a token is given for -/

/-- The text is a login with the password found for its key, of the user
found for it. For a key in plain text both are the user's who has the key, of
whose stored password only the first 64 bytes count. -/
def EarnedBy (env : Env) (m : Mysql) (d : Db) (raw : CString) (u : Int) : Prop :=
  ∃ key password row, LoginRequest env raw key password ∧ (d.run m (validateUser key)).1 = some password ∧
    (d.run m (getUserInfo key)).1 = some row ∧ row.userId = u ∧
    (UserSql.Plain key → d.findKey key = some row ∧ u ≠ 1 ∧ password = row.passwordHash.take 64)

/-- The client waits for the reply to such a login, and for no other. -/
def Earns (env : Env) (m : Mysql) (s : Served) (u : Int) : Prop :=
  ∃ now raw, s.pending = [(now, raw)] ∧ EarnedBy env m s.db raw u

/-- A message of this step with a token is the answer to a login that has earned it. -/
def Earned (env : Env) (m : Mysql) (s s' : Served) (now : Int) : Prop :=
  ∀ msg, s'.session.sent = s.session.sent ++ [msg] → msg.getObjectItem "token" ≠ none →
    ∃ u, msg = Session.loginAnswer env now u ∧ s.Earns env m u

theorem earned_of_silent {s' : Served} (now : Int) (hsent : s'.session.sent = s.session.sent) :
    Earned env m s s' now := by
  intro msg hmsg
  rw [hsent] at hmsg
  simp at hmsg

theorem earned_of_noToken {s' : Served} {e : Json} (now : Int) (hsent : s'.session.sent = s.session.sent ++ [e])
    (he : e.getObjectItem "token" = none) : Earned env m s s' now := by
  intro msg hmsg htoken
  rw [hsent, List.append_cancel_left_eq, List.cons.injEq] at hmsg
  exact absurd (hmsg.1 ▸ he) htoken

/-- The data server's ends of the connections once the session has taken an answer. -/
def peersAfter (s : Served) (t : Session) (connect : Int) : Int → Peer :=
  if Reconnects s.session t then Function.update (Function.update s.peer s.session.dbFd (.closed none)) connect .waiting
  else Function.update s.peer s.session.dbFd (.closed none)

/-- Without a new connection the stage is the last one. -/
theorem took_spent {t : Session} (hfd : t.dbFd = s.session.dbFd) (hstate : ¬ Reconnects s.session t) (connect : Int) :
    Stage env m (s.took t (s.peersAfter t connect)) := by
  refine .spent ?_
  rw [peersAfter, if_neg hstate]
  simp [took, hfd]

/-- On other connections than the old one and a new one nothing changes. -/
theorem Traced.took_others (h : s.Traced env m) {t : Session} {connect : Int}
    (hre : Reconnects s.session t → t.dbFd = connect)
    (hconns : ∀ fd, fd ≠ s.session.dbFd → fd ≠ t.dbFd → t.conns fd = s.session.conns fd) {fd : Int} (hne : fd ≠ t.dbFd)
    (hwait : s.peersAfter t connect fd = .waiting) (query : Json) (rest : List Json) :
    t.conns fd ≠ some (query :: rest) := by
  have hwait' : Function.update s.peer s.session.dbFd (.closed none) fd = .waiting := by
    rw [peersAfter] at hwait
    split at hwait
    next hyes => rwa [Function.update_of_ne (hre hyes ▸ hne)] at hwait
    next => exact hwait
  have hold : fd ≠ s.session.dbFd := by
    rintro rfl
    simp at hwait'
  rw [Function.update_of_ne hold] at hwait'
  rw [hconns fd hold hne]
  exact h.others fd hold hwait' query rest

theorem Traced.took_single (h : s.Traced env m) (t : Session) (peer : Int → Peer) :
    (s.took t peer).pending.length ≤ 1 := by
  have hsingle := h.single
  simp only [took]
  split
  · exact hsingle
  · rw [List.length_tail]
    omega

section Matched

open Session

variable {t : Session} {req : Json} {connect : Int}

theorem passwordMatched_closed (hconnect : connect < 0) :
    (t.passwordMatched connect req).dbFd = t.dbFd ∧
      (t.passwordMatched connect req).cur.currentDbSock = t.cur.currentDbSock ∧
      (t.passwordMatched connect req).cur.authState = t.cur.authState := by
  simp only [passwordMatched, hconnect, if_true]
  split <;> exact ⟨rfl, rfl, rfl⟩

/-- A match changes the old connection and the new one. -/
theorem passwordMatched_conns {fd : Int} (hold : fd ≠ t.cur.currentDbSock)
    (hnew : fd ≠ (t.passwordMatched connect req).dbFd) : (t.passwordMatched connect req).conns fd = t.conns fd := by
  by_cases hconnect : connect < 0
  · simp only [passwordMatched, hconnect, if_true]
    split <;> simp [close, Function.update_of_ne hold]
  · simp only [passwordMatched, hconnect, if_false] at hnew ⊢
    have hne : fd ≠ connect := by
      split at hnew <;> exact hnew
    split <;> simp [Session.write, open_, close, Function.update_of_ne hold, Function.update_of_ne hne]

theorem passwordMatched_opened (hconnect : ¬ connect < 0) {key : CString}
    (hkey : req.getObjectItem "key" = some (.string key)) :
    (t.passwordMatched connect req).dbFd = connect ∧ (t.passwordMatched connect req).cur.currentDbSock = connect ∧
      (t.passwordMatched connect req).cur.authState = .validated ∧
      (t.passwordMatched connect req).conns connect = some [keyQuery .getUserInfo key] := by
  simp only [passwordMatched, hconnect, if_false, hkey]
  split <;> simp [Session.write, open_, close, userInfoQuery_eq]

end Matched

theorem answered_conns {t : Session} {fd : Int} (hne : fd ≠ t.dbFd) : t.answered.conns fd = t.conns fd :=
  Function.update_of_ne hne _ _

/-- A match of the passwords opens a connection for the second query, or says that there is none. -/
theorem matched_traced (h : s.Traced env m) (hrun : s.session.running = true) {now : Int} {raw : CString}
    {stored query r : Json} {p : CString} (hpending : s.pending = [(now, raw)])
    (hf : Forwards env now raw .validateUser stored query)
    (hstate : s.session.cur.authState = .initial) (hans : AnsweredBefore m s.db query (some r))
    (hp : stored.getObjectItem "password" = some (.string p)) (hh : r.getObjectItem "password_hash" = some (.string p))
    (connect : Int) :
    Traced env m (s.took (s.session.answered.passwordMatched connect stored)
      (s.peersAfter (s.session.answered.passwordMatched connect stored) connect)) := by
  obtain ⟨un, d₀, hd₀, hans⟩ := hans
  have hpolled := h.polled hrun
  have hconns : ∀ fd, fd ≠ s.session.dbFd → fd ≠ (s.session.answered.passwordMatched connect stored).dbFd →
      (s.session.answered.passwordMatched connect stored).conns fd = s.session.conns fd := by
    intro fd hne hnew
    have hfd : fd ≠ s.session.answered.cur.currentDbSock := hpolled ▸ hne
    rw [passwordMatched_conns hfd hnew, answered_conns hne]
  cases hf with
  | token _ _ _ _ ha => cases ha
  | validateUser _ hreq =>
    obtain ⟨key, hkey, hfound⟩ := validateAnswer_hash hans hh
    by_cases hconnect : connect < 0
    · obtain ⟨hfd, hsock, hsame⟩ := passwordMatched_closed (t := s.session.answered) hconnect
      have hno : ¬ Reconnects s.session (s.session.answered.passwordMatched connect stored) := by
        intro hre
        rw [Reconnects, hsame, Session.answered_cur, hstate] at hre
        cases hre.2
      exact ⟨fun _ => hfd.trans (hpolled.trans hsock.symm),
        fun fd hne hwait => h.took_others (fun hre => absurd hre hno) hconns hne hwait,
        h.took_single _ _, took_spent hfd hno connect⟩
    · obtain ⟨hfd, hsock, hvalidated, hopened⟩ :=
        passwordMatched_opened (t := s.session.answered) hconnect hkey
      have hsent : (s.session.answered.passwordMatched connect stored).sent = s.session.sent :=
        passwordMatched_sent_eq_iff.mpr hconnect
      refine ⟨fun _ => hfd.trans hsock.symm,
        fun fd hne hwait => h.took_others (fun _ => hfd) hconns hne hwait, h.took_single _ _, ?_⟩
      rw [peersAfter, if_pos ⟨hstate, hvalidated⟩]
      refine .verified ((if_pos hsent).trans hpending) ⟨stored, hreq, hkey, hp⟩ hvalidated ?_ ⟨?_, .inl ?_⟩
      · exact validateUser_grows hd₀ hfound
      · simp [took, hfd, hopened]
      · simp [took, hfd]

/-- A reply that opens no connection leaves nothing to wait for. -/
theorem Traced.stays (h : s.Traced env m) (hrun : s.session.running = true) {t : Session} {connect : Int}
    (hfd : t.dbFd = s.session.dbFd) (hsock : t.cur.currentDbSock = s.session.cur.currentDbSock)
    (hconns : t.conns = s.session.answered.conns) (hno : ¬ Reconnects s.session t) :
    (s.took t (s.peersAfter t connect)).Traced env m := by
  refine ⟨fun _ => ?_, fun fd hne hwait => ?_, h.took_single _ _, took_spent hfd hno connect⟩
  · show t.dbFd = t.cur.currentDbSock
    rw [hfd, hsock, h.polled hrun]
  · refine h.took_others (fun hre => absurd hre hno) (fun fd' hne' _ => ?_) hne hwait
    rw [hconns, answered_conns hne']

/-- An answer that has come for a query. -/
theorem Awaits.answered {query : Json} {r : Option Json} (h : s.Awaits m query)
    (hpeer : s.peer s.session.dbFd = .closed (some r)) :
    s.session.awaited = some query ∧ AnsweredBefore m s.db query r := by
  obtain ⟨r', hr', hans⟩ := h.peer.resolve_left (by simp [hpeer])
  obtain rfl : r = r' := by simpa [hpeer] using hr'
  exact ⟨by simp [Session.awaited, h.conns], hans⟩

/-- An answer only comes for a query. -/
theorem Stage.answer_for (h : Stage env m s) {r : Option Json} (hpeer : s.peer s.session.dbFd = .closed (some r)) :
    ∃ query, s.session.awaited = some query ∧ AnsweredBefore m s.db query r := by
  cases h with
  | idle _ _ _ hwaits => simp [hwaits] at hpeer
  | asked _ _ _ _ _ hawaits => exact ⟨_, hawaits.answered hpeer⟩
  | verified _ _ _ _ hawaits => exact ⟨_, hawaits.answered hpeer⟩
  | spent hgone => simp [hgone] at hpeer

/-- The user found for the key of a login whose password was found has earned a token. -/
theorem earns_of_info {now : Int} {raw key password : CString} {r : Json} {x : ℚ} (hpending : s.pending = [(now, raw)])
    (hlogin : LoginRequest env raw key password) (hfound : (s.db.run m (validateUser key)).1 = some password)
    (hans : AnsweredBefore m s.db (keyQuery .getUserInfo key) (some r))
    (hx : r.getObjectItem "user_id" = some (.number x)) : s.Earns env m (Json.toInt x) := by
  obtain ⟨un, d₀, hd₀, hans⟩ := hans
  obtain ⟨row, hrow, hid⟩ := infoAnswer_userId hans hx
  have hnow := getUserInfo_grows hd₀ hrow
  obtain ⟨hpos, hmax⟩ := userId_of_getUserInfo hrow
  rw [Json.valueint_createNumber (by rw [Json.INT_MIN]; omega) hmax] at hid
  refine ⟨_, _, hpending, _, _, row, hlogin, hfound, hnow, hid.symm, fun hplain => ?_⟩
  obtain ⟨hfind, hne, hpassword⟩ := findKey_of_lookups hplain hfound hnow
  exact ⟨hfind, hid ▸ hne, hpassword⟩

/-- A reply taken from the data connection. -/
theorem reply_traced (h : s.Traced env m) (hrun : s.session.running = true) (now connect : Int) :
    (s.reply env now connect).Traced env m ∧ Earned env m s (s.reply env now connect) now := by
  rw [reply]
  split
  next r hpeer =>
    have hsame : ¬ Reconnects s.session s.session := fun hre => by cases hre.1.symm.trans hre.2
    obtain ⟨query, hawaited, hans⟩ := h.stage.answer_for hpeer
    simp only [Session.step, hrun, if_true, hawaited]
    have hreacts := Session.handleDbResponse_reacts env now s.session.answered r connect
    generalize Session.handleDbResponse env now s.session.answered r connect = t at hreacts ⊢
    cases hreacts with
    | error r e he => exact ⟨h.stays hrun rfl rfl rfl hsame, earned_of_noToken now rfl (replyErrors_noToken he)⟩
    | ignored => exact ⟨h.stays hrun rfl rfl rfl hsame, earned_of_silent now rfl⟩
    | relayed r =>
      obtain ⟨un, d₀, -, hans⟩ := hans
      exact ⟨h.stays hrun rfl rfl rfl hsame, earned_of_noToken now rfl (dataAnswer_noToken hans)⟩
    | matched r req p hl hst hs hp hh =>
      -- It is the first query of a login that was answered.
      cases h.stage with
      | idle _ _ _ hwaits => simp [hwaits] at hpeer
      | spent hgone => simp [hgone] at hpeer
      | verified _ _ hstate => cases hstate.symm.trans hst
      | asked hpending hf hrequest haction hstate hawaits =>
        obtain rfl : _ = req := Option.some.inj (hrequest.symm.trans hl.request)
        obtain rfl : _ = Action.validateUser := haction.symm.trans hl.action
        refine ⟨matched_traced h hrun hpending hf hstate (hawaits.answered hpeer).2 hp hh connect, ?_⟩
        rcases Session.passwordMatched_sent s.session.answered connect _ with hsent | hsent
        · exact earned_of_silent now hsent
        · exact earned_of_noToken now hsent (by decide)
    | token r req x hl hst hs hu =>
      -- It is the second one.
      have hno : ¬ Reconnects s.session (Session.loggedIn env now s.session.answered (Json.toInt x)) := by
        intro hre
        cases hst.symm.trans hre.1
      refine ⟨h.stays hrun rfl rfl rfl hno, fun msg hmsg _ => ⟨Json.toInt x, ?_, ?_⟩⟩
      · have hsent := (List.append_cancel_left_eq ..).mp hmsg
        exact (List.cons.inj hsent).1.symm
      · cases h.stage with
        | idle _ _ _ hwaits => simp [hwaits] at hpeer
        | spent hgone => simp [hgone] at hpeer
        | asked _ _ _ _ hstate => cases hstate.symm.trans hst
        | verified hpending hlogin _ hfound hawaits =>
          exact earns_of_info hpending hlogin hfound (hawaits.answered hpeer).2 hu
  next => exact ⟨h, earned_of_silent now rfl⟩

/-- A step sends no message, or one, and with a token only after a reply. -/
theorem step_sent (env : Env) (m : Mysql) (survivesFree : Bool) (s : Served) (e : Event) :
    (s.step env m survivesFree e).session.sent = s.session.sent ∨
      ∃ msg, (s.step env m survivesFree e).session.sent = s.session.sent ++ [msg] ∧
        (msg.getObjectItem "token" = none ∨ ∃ now connect, e = .reply now connect) := by
  cases e with
  | request now raw =>
    simp only [step, request]
    split
    next hrun =>
      simp only [Session.step, hrun, if_true, Session.handleClient]
      rcases processClientRequest_cases env now s.session.cur raw with ⟨a, stored, query, hf, hp⟩ | hr
      · simp only [hp, Bool.false_eq_true, if_false]
        exact .inl rfl
      · simp only [hr.handledLocally, if_true]
        cases survivesFree <;> exact .inr ⟨_, rfl, .inl (localAnswers_noToken hr.message)⟩
    next => exact .inl rfl
  | answer fd un =>
    simp only [step, answer]
    split <;> exact .inl rfl
  | reply now connect =>
    simp only [step, reply, took, Session.step]
    split
    next r hpeer =>
      simp only
      split
      · split
        next =>
          have hreacts := Session.handleDbResponse_reacts env now s.session.answered r connect
          generalize Session.handleDbResponse env now s.session.answered r connect = t at hreacts ⊢
          cases hreacts with
          | ignored => exact .inl rfl
          | matched r req =>
            refine (Session.passwordMatched_sent _ connect req).imp_right fun h => ⟨_, h, .inr ⟨now, connect, rfl⟩⟩
          | error | relayed | token => exact .inr ⟨_, rfl, .inr ⟨now, connect, rfl⟩⟩
        next => exact .inl rfl
      · exact .inl rfl
    next => exact .inl rfl
  | closed timeout =>
    simp only [step, closed, took, Session.step]
    split
    · split
      · cases timeout
        · exact .inl (Session.leave_sent _)
        · exact .inr ⟨_, Session.leave_sent _, .inl (by decide)⟩
      · exact .inl rfl
    · exact .inl rfl
  | gone => exact .inl rfl
  | other c => exact .inl rfl

/-- A message of the step with a token is the reply to a login that has earned it. -/
def TokenEarned (env : Env) (m : Mysql) (survivesFree : Bool) (s : Served) (e : Event) : Prop :=
  ∀ msg, (s.step env m survivesFree e).session.sent = s.session.sent ++ [msg] → msg.getObjectItem "token" ≠ none →
    ∃ now connect u, e = .reply now connect ∧ msg = Session.loginAnswer env now u ∧ s.Earns env m u

/-- A session that has left its loop only forgets what it had not read. -/
theorem left_traced (h : s.Traced env m) (hleft : s.session.running = false) (e : Event) :
    (s.step env m survivesFree e).Traced env m := by
  have hsame : ¬ Reconnects s.session s.session := fun hre => by cases hre.1.symm.trans hre.2
  cases e with
  | request now raw =>
    rw [step, request, if_neg (by rw [hleft]; decide)]
    exact h
  | answer fd un => exact answer_traced h fd un
  | reply now connect =>
    rw [step, reply]
    split
    · simp only [Session.step_left env _ (show ¬ s.session.running = true by rw [hleft]; decide)]
      refine ⟨fun hrun => (by cases hleft.symm.trans hrun), fun fd hne hwait => ?_, h.took_single _ _,
        took_spent rfl hsame connect⟩
      exact h.took_others (fun hre => absurd hre hsame) (fun _ _ _ => rfl) hne hwait
    · exact h
  | closed timeout =>
    rw [step, closed]
    split
    next hpeer =>
      simp only [Session.step_left env _ (show ¬ s.session.running = true by rw [hleft]; decide)]
      exact ⟨h.polled, h.others, h.took_single _ _, .spent hpeer⟩
    next => exact h
  | gone =>
    exact ⟨fun hrun => (by cases hrun), h.others, h.single, h.stage.of_same rfl rfl rfl rfl List.prefix_rfl rfl⟩
  | other c =>
    exact ⟨h.polled, h.others, h.single,
      h.stage.of_same rfl rfl rfl rfl (Db.run_users_grow (d := s.db.tick c.elapsed) _) rfl⟩

/-- Leaving the loop changes no connection but the closed one. -/
theorem dbGone_conns (env : Env) (t : Session) (timeout : Bool) :
    (t.step env (.dbGone timeout)).dbFd = t.dbFd ∧
      ∀ fd queries, (t.step env (.dbGone timeout)).conns fd = some queries → t.conns fd = some queries := by
  have hleave : ∀ t : Session, t.leave.dbFd = t.dbFd ∧
      ∀ fd queries, t.leave.conns fd = some queries → t.conns fd = some queries := by
    intro t
    simp only [Session.leave]
    split
    · refine ⟨rfl, fun fd queries hconns => ?_⟩
      by_cases hfd : fd = t.cur.currentDbSock
      · simp [Session.close, hfd] at hconns
      · simpa [Session.close, Function.update_of_ne hfd] using hconns
    · exact ⟨rfl, fun _ _ h => h⟩
  rw [Session.step]
  split
  · cases timeout <;> exact hleave _
  · exact ⟨rfl, fun _ _ h => h⟩

/-- **What a step keeps.** A session stays at one of the stages, and a message
of the step with a token has been earned. -/
theorem step_traced (h : s.Traced env m) {e : Event} (hone : s.OneAtATime env e) :
    TokenEarned env m survivesFree s e ∧ (s.step env m survivesFree e).Traced env m := by
  cases hrun : s.session.running with
  | false =>
    have hleft := step_left env m survivesFree hrun e
    refine ⟨fun msg hmsg => ?_, left_traced h hrun e⟩
    simp [hleft] at hmsg
  | true =>
    refine ⟨fun msg hmsg htoken => ?_, ?_⟩
    · rcases step_sent env m survivesFree s e with hsame | ⟨msg', hsent, hnone | ⟨now, connect, rfl⟩⟩
      · simp [hsame] at hmsg
      · rw [hsent, List.append_cancel_left_eq, List.cons.injEq] at hmsg
        exact absurd (hmsg.1 ▸ hnone) htoken
      · obtain ⟨u, hu, hearns⟩ := (reply_traced h hrun now connect).2 msg hmsg htoken
        exact ⟨now, connect, u, rfl, hu, hearns⟩
    · cases e with
      | request now raw => exact request_traced h hone
      | answer fd un => exact answer_traced h fd un
      | reply now connect => exact (reply_traced h hrun now connect).1
      | closed timeout =>
        rw [step, closed]
        split
        next hpeer =>
          obtain ⟨hfd, hconns⟩ := dbGone_conns env s.session timeout
          refine ⟨fun hrun' => ?_, fun fd hne hwait query rest hq => ?_, h.took_single _ _, .spent ?_⟩
          · cases (dbGone_running env s.session timeout).symm.trans hrun'
          · rw [took, hfd] at hne
            exact h.others fd hne hwait query rest (hconns fd _ hq)
          · rw [took, hfd]
            exact hpeer
        next => exact h
      | gone =>
        exact ⟨fun hrun' => (by cases hrun'), h.others, h.single,
          h.stage.of_same rfl rfl rfl rfl List.prefix_rfl rfl⟩
      | other c =>
        exact ⟨h.polled, h.others, h.single,
          h.stage.of_same rfl rfl rfl rfl (Db.run_users_grow (d := s.db.tick c.elapsed) _) rfl⟩

/-- What the session sends while it takes something is the reply to its one request. -/
theorem Traced.took_pending (h : s.Traced env m) {t : Session} {peer : Int → Peer} {r : Int × CString}
    (hr : r ∈ (s.took t peer).pending) : t.sent = s.session.sent ∧ r ∈ s.pending := by
  by_cases hsent : t.sent = s.session.sent
  · exact ⟨hsent, by rwa [took, if_pos hsent] at hr⟩
  · rw [took, if_neg hsent] at hr
    have hsingle := h.single
    rcases hpending : s.pending with _ | ⟨q, _ | ⟨q', qs⟩⟩
    · simp [hpending] at hr
    · simp [hpending] at hr
    · simp [hpending] at hsingle

/-- The client waits for what it waited for, and the step forwards no request and sends no token. -/
structure StillWaits (env : Env) (m : Mysql) (survivesFree : Bool) (s : Served) (e : Event) (r : Int × CString) :
    Prop where
  waited : r ∈ s.pending
  notForwarded : ∀ now raw, e = .request now raw → ¬ Forwarded env (now, raw)
  noToken : ∃ sent, (s.step env m survivesFree e).session.sent = s.session.sent ++ sent ∧
    ∀ msg ∈ sent, msg.getObjectItem "token" = none

/-- A step that takes no request and sends nothing. -/
theorem StillWaits.silent {e : Event} {r : Int × CString} (hr : r ∈ s.pending) (he : ∀ now raw, e ≠ .request now raw)
    (hsent : (s.step env m survivesFree e).session.sent = s.session.sent) : StillWaits env m survivesFree s e r :=
  ⟨hr, fun now raw h => absurd h (he now raw), [], by rw [hsent, List.append_nil], List.forall_mem_nil _⟩

/-- A request is the one the client waits for from then on, or is answered at once. -/
theorem request_pending {now : Int} {raw : CString} (hone : OneAtATime env s (.request now raw)) {r : Int × CString}
    (hr : r ∈ (s.request env survivesFree now raw).pending) :
    (r = (now, raw) ∧ (s.request env survivesFree now raw).session.sent = s.session.sent) ∨
      StillWaits env m survivesFree s (.request now raw) r := by
  by_cases hrun : s.session.running = true
  · rcases processClientRequest_cases env now s.session.cur raw with ⟨a, stored, query, hf, hp⟩ | hlocal
    · simp only [request, hrun, if_true, Session.step, Session.handleClient, hp, Bool.false_eq_true, if_false,
        hone ⟨a, stored, query, hf⟩, List.nil_append, List.mem_singleton] at hr ⊢
      exact .inl ⟨hr, rfl⟩
    · simp only [request, hrun, if_true, Session.step, Session.handleClient, hlocal.handledLocally] at hr
      refine .inr ⟨hr, fun now' raw' he hforwarded => ?_,
        [(processClientRequest env now s.session.cur raw).message], ?_, ?_⟩
      · cases he
        obtain ⟨a, stored, query, hf⟩ := hforwarded
        exact hlocal.not_forwards a stored query hf
      · simp only [step, request, hrun, if_true, Session.step, Session.handleClient, hlocal.handledLocally]
        cases survivesFree <;> rfl
      · rw [List.forall_mem_singleton]
        exact localAnswers_noToken hlocal.message
  · have hsame : s.request env survivesFree now raw = s := by rw [request, if_neg hrun]
    rw [hsame] at hr
    refine .inr ⟨hr, fun now' raw' he hforwarded => ?_, [], ?_, List.forall_mem_nil _⟩
    · cases he
      rw [hone hforwarded] at hr
      cases hr
    · rw [step, hsame, List.append_nil]

/-- A request the client waits for is the one it has just sent, or it waited
for it before, and has been sent no token since. -/
theorem step_pending (h : s.Traced env m) {e : Event} (hone : s.OneAtATime env e) {r : Int × CString}
    (hr : r ∈ (s.step env m survivesFree e).pending) :
    (e = .request r.1 r.2 ∧ (s.step env m survivesFree e).session.sent = s.session.sent) ∨
      StillWaits env m survivesFree s e r := by
  cases e with
  | request now raw =>
    refine (request_pending hone hr).imp_left fun hnew => ⟨?_, hnew.2⟩
    rw [hnew.1]
  | answer fd un =>
    have hsame : (s.answer m survivesFree fd un).pending = s.pending ∧
        (s.answer m survivesFree fd un).session = s.session := by
      rw [answer]
      split <;> exact ⟨rfl, rfl⟩
    exact .inr (.silent (hsame.1 ▸ hr) (fun _ _ he => (by cases he)) (congrArg Session.sent hsame.2))
  | reply now connect =>
    have hkept : r ∈ s.pending ∧ (s.reply env now connect).session.sent = s.session.sent := by
      rw [step, reply] at hr
      rw [reply]
      split at hr
      · exact (h.took_pending hr).symm
      · exact ⟨hr, rfl⟩
    exact .inr (.silent hkept.1 (fun _ _ he => (by cases he)) hkept.2)
  | closed timeout =>
    have hkept : r ∈ s.pending ∧ (s.closed env timeout).session.sent = s.session.sent := by
      rw [step, closed] at hr
      rw [closed]
      split at hr
      · exact (h.took_pending hr).symm
      · exact ⟨hr, rfl⟩
    exact .inr (.silent hkept.1 (fun _ _ he => (by cases he)) hkept.2)
  | gone => exact .inr (.silent hr (fun _ _ he => (by cases he)) rfl)
  | other => exact .inr (.silent hr (fun _ _ he => (by cases he)) rfl)

end Served

end FinalServer
