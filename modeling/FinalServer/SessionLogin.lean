/-
Who can get a token in a session.

A login compares a reply with the request that is current when the reply
arrives, not with the one that caused it. So what a token proves depends on
whether every reply taken during a login answers a query about that login's
own key (`OwnAnswer`). When they all do, a token for a user goes out only
after a request with the stored password of a key of that user
(`token_only_after_password`); when one does not, a client can log in as
somebody else.
-/
import FinalServer.DbAnswers
import FinalServer.LogicGate
import FinalServer.Run

namespace FinalServer

open Session

/-- The text is a login request with this key and password. -/
def LoginRequest (env : Env) (raw : CString) (k p : CString) : Prop :=
  ∃ json, IsRequest env raw json .validateUser ∧ json.getObjectItem "key" = some (.string k) ∧
    json.getObjectItem "password" = some (.string p)

/-- The message gives the client a token of user `u`. -/
def TokenFor (env : Env) (m : Json) (u : Int) : Prop :=
  ∃ now, m.getObjectItem "token" = some (.string (createToken env now u)) ∧
    m.getObjectItem "user_id" = some (.createNumber u)

/-- The client has sent a login request for the key with its stored password. -/
def KeyVerified (env : Env) (d : Directory) (s : Session) (k : CString) : Prop :=
  ∃ raw ∈ s.received, ∃ p, LoginRequest env raw k p ∧ d.password k = some p

/-- A reply taken while a login is current answers a query about that login:
its key is the request's before the password is checked, and the kept key
afterwards. -/
def OwnAnswer (s : Session) : Event → Prop
  | .reply _ (some _) _ => ∀ q req, s.awaited = some q → InLogin s req →
      (s.cur.authState = .initial → queryAction q = some .validateUser →
        queryKey q = (req.getObjectItem "key").bind Json.valuestring) ∧
      (s.cur.authState = .validated → queryAction q = some .getUserInfo → queryKey q = s.cur.key)
  | _ => True

/-- Tokens are for verified keys; a stored login came from the client; the key
kept between the two queries of a login is verified. -/
structure LoginInv (env : Env) (d : Directory) (s : Session) : Prop where
  tokens : ∀ m ∈ s.sent, ∀ u, TokenFor env m u → ∃ k, d.userId k = some u ∧ KeyVerified env d s k
  request : ∀ req, InLogin s req → ∃ raw ∈ s.received, IsRequest env raw req .validateUser
  key : s.cur.authState = .validated → ∃ k, s.cur.key = some k ∧ KeyVerified env d s k

variable {env : Env} {d : Directory} {s s' : Session}

theorem KeyVerified.mono {k : CString} (h : KeyVerified env d s k) (hr : s.received ⊆ s'.received) :
    KeyVerified env d s' k := by
  obtain ⟨raw, hm, p, hl, hp⟩ := h
  exact ⟨raw, hr hm, p, hl, hp⟩

/-! ## The messages without a token -/

theorem not_tokenFor {m : Json} (h : m.getObjectItem "token" = none) (u : Int) : ¬ TokenFor env m u := by
  rintro ⟨now, ht, -⟩
  simp [h] at ht

theorem localAnswers_noToken {m : Json} (h : m ∈ localAnswers) : m.getObjectItem "token" = none := by
  revert m
  decide

theorem replyErrors_noToken {m : Json} (h : m ∈ replyErrors) : m.getObjectItem "token" = none := by
  revert m
  decide

theorem loginAnswer_tokenFor {now u v : Int} (h : TokenFor env (loginAnswer env now u) v) : v = u := by
  obtain ⟨-, -, hu⟩ := h
  have : (loginAnswer env now u).getObjectItem "user_id" = some (.createNumber u) := rfl
  rw [this] at hu
  simpa [Json.createNumber, eq_comm] using hu

/-! ## One step -/

/-- Sending a message that gives no token, with the login as it was. -/
theorem LoginInv.sendClient (h : LoginInv env d s) {m : Json} (hm : ∀ u, ¬ TokenFor env m u) :
    LoginInv env d (s.sendClient m) where
  tokens m' hm' u hu := by
    simp only [sendClient_sent, List.mem_append, List.mem_singleton] at hm'
    rcases hm' with hm' | rfl
    · exact h.tokens m' hm' u hu
    · exact absurd hu (hm u)
  request req hl := h.request req ⟨hl.request, hl.action⟩
  key := h.key

theorem LoginInv.answered (h : LoginInv env d s) : LoginInv env d s.answered where
  tokens := h.tokens
  request req hl := h.request req ⟨hl.request, hl.action⟩
  key := h.key

theorem LoginInv.leave (h : LoginInv env d s) : LoginInv env d s.leave where
  tokens m hm u hu := by
    rw [leave_sent] at hm
    obtain ⟨k, hk, hv⟩ := h.tokens m hm u hu
    exact ⟨k, hk, hv.mono (by simp)⟩
  request req hl := by
    have := hl.request
    simp [Session.leave, CurrentRequest.fresh] at this
  key hst := by simp [Session.leave, CurrentRequest.fresh] at hst

theorem LoginInv.client (h : LoginInv env d s) (now : Int) (raw : CString) :
    LoginInv env d (handleClient env now s raw) := by
  have hsub : s.received ⊆ s.received ++ [raw] := by simp
  rcases processClientRequest_cases env now s.cur raw with ⟨a, stored, query, hf, he⟩ | hr
  · -- Forwarded: only what is stored changes, and a stored login is this text.
    simp only [handleClient, he, Bool.false_eq_true, if_false]
    refine ⟨fun m hm u hu => ?_, fun req hl => ?_, fun hst => ?_⟩
    · obtain ⟨k, hk, hv⟩ := h.tokens m hm u hu
      exact ⟨k, hk, hv.mono hsub⟩
    · have hreq := hl.request
      have ha := hl.action
      simp only [write_cur, CurrentRequest.store, Option.some.injEq] at hreq ha
      subst hreq ha
      refine ⟨raw, by simp, ?_⟩
      cases hf with
      | validateUser _ hj => exact hj
      | token _ _ _ _ hn => simp [Action.needsToken] at hn
    · obtain ⟨k, hk, hv⟩ := h.key hst
      exact ⟨k, hk, hv.mono hsub⟩
  · -- Answered locally: the request is as before.
    simp only [handleClient, hr.handledLocally, hr.current, if_true]
    refine LoginInv.sendClient ?_ (not_tokenFor (localAnswers_noToken hr.message))
    refine ⟨fun m hm u hu => ?_, fun req hl => ?_, fun hst => ?_⟩
    · obtain ⟨k, hk, hv⟩ := h.tokens m hm u hu
      exact ⟨k, hk, hv.mono hsub⟩
    · obtain ⟨raw', hm, hj⟩ := h.request req ⟨hl.request, hl.action⟩
      exact ⟨raw', hsub hm, hj⟩
    · obtain ⟨k, hk, hv⟩ := h.key hst
      exact ⟨k, hk, hv.mono hsub⟩

theorem LoginInv.reply (h : LoginInv env d s) {now connect : Int} {r : Option Json} {q : Json}
    (hq : s.awaited = some q) (hans : AnsweredBy d s (.reply now r connect))
    (hown : OwnAnswer s (.reply now r connect)) :
    LoginInv env d (handleDbResponse env now s.answered r connect) := by
  have hr := handleDbResponse_reacts env now s.answered r connect
  generalize handleDbResponse env now s.answered r connect = t at hr
  cases hr with
  | error _ m hm => exact h.answered.sendClient (not_tokenFor (replyErrors_noToken hm))
  | ignored => exact h.answered
  | relayed r req => exact h.answered.sendClient (not_tokenFor (hans q hq).noToken)
  | matched r req p hl hst hs hp hh =>
    -- The stored password is that of the queried key, which is the request's.
    obtain ⟨hqa, k, hqk, hk⟩ := (hans q hq).hash p hs hh
    have hkey := (hown q req hq ⟨hl.request, hl.action⟩).1 hst hqa
    rw [hqk] at hkey
    obtain ⟨raw, hm, hj⟩ := h.request req ⟨hl.request, hl.action⟩
    obtain ⟨i, hi, hik⟩ := Option.bind_eq_some_iff.mp hkey.symm
    have hi' : req.getObjectItem "key" = some (.string k) := by
      cases i <;> simp [Json.valuestring] at hik
      rw [hi, hik]
    have hv : KeyVerified env d s k := ⟨raw, hm, p, ⟨req, hj, hi', hp⟩, hk⟩
    refine ⟨fun m hm u hu => ?_, fun req' hl' => ?_, fun _ => ⟨k, passwordMatched_key _ _ hi', ?_⟩⟩
    · have hms : m ∈ s.sent := by
        rcases passwordMatched_sent s.answered connect req with hs' | hs'
        · rwa [hs'] at hm
        · rw [hs', List.mem_append, List.mem_singleton] at hm
          rcases hm with hm | rfl
          · exact hm
          · exact absurd hu (not_tokenFor rfl u)
      obtain ⟨k', hk', hv'⟩ := h.tokens m hms u hu
      exact ⟨k', hk', hv'.mono (by simp)⟩
    · have hreq := hl'.request
      have ha := hl'.action
      simp only [passwordMatched_requestJson, passwordMatched_action] at hreq ha
      simpa using h.request req' ⟨hreq, ha⟩
    · exact hv.mono (by simp)
  | token r req x hl hst hs hu =>
    -- The user id is that of the queried key, which is the kept, verified one.
    obtain ⟨hqa, k, hqk, hk⟩ := (hans q hq).userId x hs hu
    have hkey := (hown q req hq ⟨hl.request, hl.action⟩).2 hst hqa
    obtain ⟨k', hk', hv⟩ := h.key hst
    obtain rfl : k = k' := by
      rw [hqk, hk'] at hkey
      simpa using hkey
    refine ⟨fun m hm u hu => ?_, fun req' hl' => ?_, fun hst' => ?_⟩
    · rw [loggedIn_sent, List.mem_append, List.mem_singleton] at hm
      rcases hm with hm | rfl
      · exact h.tokens m hm u hu
      · rw [loginAnswer_tokenFor hu]
        exact ⟨k, hk, hv⟩
    · cases hl'.request
    · cases hst'

theorem LoginInv.step {e : Event} (h : LoginInv env d s) (hans : AnsweredBy d s e) (hown : OwnAnswer s e) :
    LoginInv env d (step env s e) := by
  simp only [Session.step]
  split
  · cases e with
    | client now raw => exact h.client now raw
    | reply now r connect =>
      cases hq : s.awaited with
      | none => exact h
      | some q => exact h.reply hq hans hown
    | clientGone => exact h.leave
    | dbGone timeout =>
      cases timeout with
      | false => exact h.leave
      | true => exact (h.sendClient (not_tokenFor rfl)).leave
  · exact h

theorem LoginInv.start (env : Env) (d : Directory) (fd : Int) : LoginInv env d (start fd) where
  tokens m hm := by simp [Session.start] at hm
  request req hl := by cases hl.request
  key hst := by cases hst

/-! ## Every run -/

/-- **Tokens need the password.** In a session in which every reply taken during
a login answers a query about that login's own key, a token for user `u` goes
out only when the client has sent a login request whose key is one of `u` and
whose password is the one stored for that key. -/
theorem token_only_after_password (env : Env) (d : Directory) (fd : Int) (es : List Event)
    (hans : Run.Along (step env) (AnsweredBy d) (start fd) es)
    (hown : Run.Along (step env) OwnAnswer (start fd) es) :
    ∀ m ∈ (Run.exec (step env) (start fd) es).sent, ∀ u, TokenFor env m u →
      ∃ raw ∈ (Run.exec (step env) (start fd) es).received, ∃ k p,
        LoginRequest env raw k p ∧ d.userId k = some u ∧ d.password k = some p := by
  have hinv := (hans.and hown).invariant (fun s e (h : LoginInv env d s) ho => h.step ho.1 ho.2)
    (LoginInv.start env d fd)
  intro m hm u hu
  obtain ⟨k, hk, raw, hraw, p, hl, hp⟩ := hinv.tokens m hm u hu
  exact ⟨raw, hraw, k, p, hl, hk, hp⟩

/-! ## Two runs -/

/-- Two users, each with a password of their own. -/
def twoUsers : Directory where
  password k := if k = "alice" then some "sesame" else if k = "mallory" then some "pw" else none
  userId k := if k = "alice" then some 7 else if k = "mallory" then some 8 else none

def loginEnv : Env :=
  .ofTables [(loginText "alice" "sesame", loginJson "alice" "sesame"),
    (loginText "alice" "pw", loginJson "alice" "pw"),
    (loginText "mallory" "pw", loginJson "mallory" "pw")] []

/-- Alice logs in, one message at a time. -/
def plainLogin : List Event :=
  [.client 0 (loginText "alice" "sesame"), .reply 0 (some (hashReply "sesame" "")) 6,
    .reply 0 (some (userInfoReply 7 "alice" "" "")) 6]

theorem plainLogin_answered : Run.Along (step loginEnv) (AnsweredBy twoUsers) (start 5) plainLogin := by
  refine ⟨trivial, fun q hq => ?_, fun q hq => ?_, trivial⟩
  · obtain rfl : validateUserQuery (loginJson "alice" "sesame") = q := Option.some.inj hq
    exact hashReply_answers (k := "alice") "" rfl rfl rfl
  · obtain rfl : userInfoQuery (some "alice") = q := Option.some.inj hq
    exact userInfoReply_answers (k := "alice") "alice" "" "" rfl rfl rfl (by decide) (by decide)

theorem plainLogin_own : Run.Along (step loginEnv) OwnAnswer (start 5) plainLogin := by
  refine ⟨trivial, fun q req hq hl => ?_, fun q req hq hl => ?_, trivial⟩
  · obtain rfl : validateUserQuery (loginJson "alice" "sesame") = q := Option.some.inj hq
    obtain rfl : loginJson "alice" "sesame" = req := Option.some.inj hl.request
    exact ⟨fun _ _ => rfl, nofun⟩
  · obtain rfl : userInfoQuery (some "alice") = q := Option.some.inj hq
    exact ⟨nofun, fun _ _ => rfl⟩

theorem plainLogin_sent : loginAnswer loginEnv 0 7 ∈ (Run.exec (step loginEnv) (start 5) plainLogin).sent := by
  decide

/-- Alice's token is for user 7, and her password was in what she sent. -/
theorem token_only_after_password_plainLogin :
    TokenFor loginEnv (loginAnswer loginEnv 0 7) 7 ∧
      ∃ raw ∈ (Run.exec (step loginEnv) (start 5) plainLogin).received, ∃ k p,
        LoginRequest loginEnv raw k p ∧ twoUsers.userId k = some 7 ∧ twoUsers.password k = some p :=
  ⟨⟨0, rfl, rfl⟩, token_only_after_password loginEnv twoUsers 5 plainLogin plainLogin_answered plainLogin_own
    _ plainLogin_sent 7 ⟨0, rfl, rfl⟩⟩

/-- Mallory asks for her own key and, before the reply, for Alice's with the
same password. -/
def crossedLogin : List Event :=
  [.client 0 (loginText "mallory" "pw"), .client 0 (loginText "alice" "pw"),
    .reply 0 (some (hashReply "pw" "")) 6, .reply 0 (some (userInfoReply 7 "alice" "" "")) 6]

theorem crossedLogin_answered : Run.Along (step loginEnv) (AnsweredBy twoUsers) (start 5) crossedLogin := by
  refine ⟨trivial, trivial, fun q hq => ?_, fun q hq => ?_, trivial⟩
  · obtain rfl : validateUserQuery (loginJson "mallory" "pw") = q := Option.some.inj hq
    exact hashReply_answers (k := "mallory") "" rfl rfl rfl
  · obtain rfl : userInfoQuery (some "alice") = q := Option.some.inj hq
    exact userInfoReply_answers (k := "alice") "alice" "" "" rfl rfl rfl (by decide) (by decide)

/-- Mallory gets Alice's token without her password. -/
theorem token_without_password :
    ¬ ∀ (env : Env) (d : Directory) (fd : Int) (es : List Event),
      Run.Along (step env) (AnsweredBy d) (start fd) es →
      ∀ m ∈ (Run.exec (step env) (start fd) es).sent, ∀ u, TokenFor env m u →
        ∃ raw ∈ (Run.exec (step env) (start fd) es).received, ∃ k p,
          LoginRequest env raw k p ∧ d.userId k = some u ∧ d.password k = some p := by
  intro h
  have hsent : loginAnswer loginEnv 0 7 ∈ (Run.exec (step loginEnv) (start 5) crossedLogin).sent := by
    decide
  obtain ⟨raw, hraw, k, p, ⟨json, hj, hk, hp⟩, hu, hpw⟩ :=
    h loginEnv twoUsers 5 crossedLogin crossedLogin_answered _ hsent 7 ⟨0, rfl, rfl⟩
  -- The key of user 7 is Alice's, and nobody sent her password.
  have hka : k = "alice" := by
    simp only [twoUsers] at hu
    split at hu
    · assumption
    split at hu <;> simp at hu
  subst hka
  obtain rfl : "sesame" = p := Option.some.inj hpw
  have hr : (Run.exec (step loginEnv) (start 5) crossedLogin).received =
    [loginText "mallory" "pw", loginText "alice" "pw"] := rfl
  rw [hr, List.mem_pair] at hraw
  have hparse := hj.parse
  rcases hraw with rfl | rfl
  · obtain rfl : loginJson "mallory" "pw" = json := Option.some.inj hparse
    revert hp
    decide
  · obtain rfl : loginJson "alice" "pw" = json := Option.some.inj hparse
    revert hp
    decide

end FinalServer
