/-
Who can change chats.

A query that a child can answer is that of the request its session's client
waits for, or the second one of a login. `changes_authenticated` follows a
change of the tables of chats back to that request, and from the token that
came with it to the login the token was given for. One kind of request needs
no token: a `CREATE_USER` whose fields the data server takes for another
action, since it finds `action` in any letter case.
-/
import FinalServer.JsonParse
import FinalServer.Sessions

namespace FinalServer

/-! ## Requests that leave the chats alone -/

/-- The tables of chats are the same in both. -/
structure Tables.SameChats (t t' : Tables) : Prop where
  chats : t.chats = t'.chats
  participants : t.participants = t'.participants
  messages : t.messages = t'.messages

/-- The statement is about users only. -/
def Query.aboutUsers : Query → Prop
  | .insertUser _ | .selectPassword _ | .selectUserInfo _ => True
  | _ => False

/-- The actions of users that are in no chat yet. -/
def Action.aboutUsers : Action → Bool
  | .validateUser | .createUser | .getUserInfo => true
  | _ => false

theorem exec_sameChats {m : Mysql} {q : Query} {t t₀ : Tables} (hq : q.aboutUsers) (h : t₀.SameChats t) :
    t₀.SameChats (Tables.exec m q t).2 := by
  cases q with
  | insertUser sql =>
    simp only [Tables.exec]
    split
    · simp only [Tables.insertUser]
      split <;> exact ⟨h.chats, h.participants, h.messages⟩
    · exact h
  | selectPassword | selectUserInfo => exact h
  | _ => exact hq.elim

theorem answer_aboutUsers (un : Uninit) (json : Json) {a : Action} (ha : a.aboutUsers = true) :
    Prog.Only Query.aboutUsers (HandleAction.answer un json a) := by
  cases a with
  | validateUser =>
    simp only [HandleAction.answer, HandleAction.validateUser]
    split
    · refine .bind (.bind (Db.only_query trivial) fun r => ?_) fun r => ?_ <;> split <;> exact .ret _
    · exact .ret _
  | getUserInfo =>
    simp only [HandleAction.answer, HandleAction.getUserInfo]
    split
    · refine .bind (.bind (Db.only_query trivial) fun r => ?_) fun r => ?_ <;> split <;> exact .ret _
    · exact .ret _
  | createUser =>
    refine .bind (Db.only_query trivial) fun stored => ?_
    split <;> exact .ret _
  | _ => cases ha

/-- What a request about users does, it does to users. -/
theorem serve_sameChats {m : Mysql} {d : Db} {c : Call} {a : Action} (hc : queryAction c.request = some a)
    (ha : a.aboutUsers = true) : d.SameChats (d.serve m c).toTables := by
  rw [Db.serve, Db.run_handleAction hc]
  exact Db.run_invariant (answer_aboutUsers c.un c.request ha) (fun q t hq _ h => exec_sameChats hq h) ⟨rfl, rfl, rfl⟩

theorem queryAction_validateUserQuery (json : Json) : queryAction (validateUserQuery json) = some .validateUser := by
  unfold validateUserQuery
  split
  next item _ => cases item.valuestring <;> rfl
  next => rfl

namespace Sessions

variable {ι : Type*} [DecidableEq ι] {env : Env} {m : Mysql} {survivesFree : Bool} {i : ι}

/-! ## Tokens that come back -/

/-- The clients present no tokens of `libjwt`'s but those that the sessions have sent. -/
def TokensSent (env : Env) (S : Sessions ι) : Event ι → Prop
  | (_, .request _ raw) => ∀ json token, env.parse raw = some json →
      json.getObjectItemCaseSensitive "token" = some (.string token) → env.jwtDecode token ≠ none →
      ∃ k, ∃ msg ∈ (S.session k).sent, msg.getObjectItem "token" = some (.string token)
  | _ => True

end Sessions

/-- What `libjwt` reads in a token is what it was made of. -/
def Env.ReadsGrants (env : Env) : Prop := ∀ jwt jwt', env.jwtDecode (env.jwtEncode jwt) = some jwt' → jwt' = jwt

/-- The id of a user is what the server makes of it in a token. -/
theorem intOfLong_eq {u : Int} (hlo : 0 < u) (hhi : u ≤ Json.INT_MAX) : intOfLong u = u := by
  have hmax : Json.INT_MAX = 2147483647 := rfl
  exact Int.bmod_eq_of_le (by omega) (by omega)

/-- An accepted token that was made of these grants. -/
theorem validateToken_created {env : Env} (hjwt : env.ReadsGrants) {now now' u u' : Int} (hlo : 0 < u')
    (hhi : u' ≤ Json.INT_MAX) (h : validateToken env now (createToken env now' u') = some u) :
    u = u' ∧ (0 ≤ now' → now ≤ now' + 3600) := by
  simp only [validateToken] at h
  split at h
  · cases h
  next jwt hdecode =>
    obtain rfl := hjwt _ _ hdecode
    rw [intOfLong_eq hlo hhi] at h
    split at h
    · cases h
    next hexpired =>
      rw [if_neg (by omega), Option.some.injEq] at h
      refine ⟨h.symm, fun hnow' => ?_⟩
      by_contra hlate
      exact hexpired ⟨by simp; omega, by simp; omega⟩

namespace Sessions

variable {ι : Type*} [DecidableEq ι] {env : Env} {m : Mysql} {survivesFree : Bool} {i : ι}

/-- A change of the chats is the answer to a query that is not about users. -/
theorem changed_query {S : Sessions ι} {e : Served.Event} (hown : ∀ c, e ≠ .other c)
    (hchanged : ¬ S.db.SameChats (S.step env m survivesFree (i, e)).db.toTables) :
    ∃ fd un query rest, e = .answer fd un ∧ S.peer i fd = .waiting ∧ (S.session i).conns fd = some (query :: rest) ∧
      ∀ a, queryAction query = some a → a.aboutUsers = false := by
  rw [step_db] at hchanged
  cases e with
  | answer fd un =>
    simp only [call] at hchanged
    split at hchanged
    next query rest hpeer hconns =>
      refine ⟨fd, un, query, rest, rfl, hpeer, hconns, fun a ha => ?_⟩
      by_contra habout
      refine hchanged ?_
      cases hwire : query.overWire with
      | none => exact ⟨rfl, rfl, rfl⟩
      | some query' =>
        obtain rfl := Json.overWire_eq hwire
        exact serve_sameChats ha (by simpa using habout)
    next => exact absurd ⟨rfl, rfl, rfl⟩ hchanged
  | other c => exact absurd rfl (hown c)
  | request | reply | closed | gone => exact absurd ⟨rfl, rfl, rfl⟩ hchanged

/-- Why a request of a session may have the data server answer the query: it
is a `CREATE_USER` that the data server takes for another action, or it came
with a token given within the hour to a client with the password of its user. -/
def Entitled (env : Env) (m : Mysql) (survivesFree : Bool) (S₀ : Sessions ι) (before : List (Event ι)) (now : Int)
    (json : Json) (a : Action) (query : Json) : Prop :=
  (a = .createUser ∧ query = json ∧ queryAction json ≠ some .createUser) ∨
    ∃ u given, a.needsToken = true ∧ Authorised env now json u ∧
      query = injectIdentity a u (json.deleteItemFromObject "token") ∧
      Given env m survivesFree S₀ before given u ∧ (0 ≤ given → now ≤ given + 3600)

/-- Alice's first token is the only one there is. -/
def aliceEnv : Env where
  parse := Json.parse
  jwtDecode token := if token = "alice's" then some ⟨3600, 2⟩ else none
  jwtEncode jwt := if jwt = ⟨3600, 2⟩ then "alice's" else ""

def aliceCreates : CString :=
  "\x7b\"action\":4,\"token\":\"alice's\",\"created_by\":0," ++
    "\"is_group\":true,\"chat_name\":\"hi\",\"participant_ids\":[3]\x7d"

/-- Alice logs in, and a minute later asks for a chat in another session. -/
def aliceAgain : List (Event Bool) :=
  [(false, .request 0 "\x7b\"action\":0,\"key\":\"alice\",\"password\":\"sesame\"\x7d"), (false, .answer 5 .zero),
    (false, .reply 0 6), (false, .answer 6 .zero), (false, .reply 0 7), (true, .request 60 aliceCreates)]

/-- Mallory has no token. What the logic server takes for a registration the
data server takes for Alice's request for a chat. -/
def malloryCreates : CString :=
  "\x7b\"Action\":4,\"action\":2,\"username\":\"\",\"email\":\"\",\"password\":\"\",\"created_by\":2," ++
    "\"is_group\":true,\"chat_name\":\"hi\",\"participant_ids\":[3]\x7d"

theorem change_without_token :
    (∀ now json u, aliceEnv.parse malloryCreates = some json → ¬ Authorised aliceEnv now json u) ∧
      ¬ (Run.exec (step aliceEnv .tableOrder true) (start (fun _ => 5) .threeUsers)
          [((), .request 0 malloryCreates)]).db.SameChats
        (Run.exec (step aliceEnv .tableOrder true) (start (fun _ => 5) .threeUsers)
          [((), .request 0 malloryCreates), ((), .answer 5 .zero)]).db.toTables := by
  refine ⟨fun now json u hparse => ?_, fun hsame => absurd hsame.chats (by decide +kernel)⟩
  rintro ⟨token, htoken, -⟩
  have hread : (aliceEnv.parse malloryCreates).bind (·.getObjectItemCaseSensitive "token") = none := by decide +kernel
  rw [hparse, Option.bind_some, htoken] at hread
  cases hread

end Sessions

end FinalServer
