/-
Stored passwords and the client.

Whether a reply is consumed by the login or relayed as it is depends on the
action that is current when it arrives. A run keeps every stored password
from the client exactly when each reply that carries one is taken while the
current request is a login, or while there is none (`sent_noHash_iff`).
-/
import FinalServer.DbAnswers
import FinalServer.LogicGate
import FinalServer.Run

namespace FinalServer

open Session

/-- The message has the field `password_hash`. -/
def CarriesHash (m : Json) : Prop := (m.getObjectItemCaseSensitive "password_hash").isSome

instance (m : Json) : Decidable (CarriesHash m) := inferInstanceAs (Decidable (_ = true))

/-- Nothing sent to the client so far has the field. -/
def NoHashSent (s : Session) : Prop := ∀ m ∈ s.sent, ¬ CarriesHash m

/-- Of the data server's replies only those to `VALIDATE_USER` queries have it. -/
def HashOnlyForLogin (s : Session) : Event → Prop
  | .reply _ (some r) _ => ∀ q, s.awaited = some q → CarriesHash r → queryAction q = some .validateUser
  | _ => True

/-- A reply to a `VALIDATE_USER` query that carries the stored password is
taken while a login is the current request, or while no request is. -/
def HashToLogin (s : Session) : Event → Prop
  | .reply _ (some r) _ => ∀ q, s.running = true → s.awaited = some q →
      queryAction q = some .validateUser → CarriesHash r →
      s.cur.requestJson = none ∨ s.cur.action = .validateUser
  | _ => True

variable {env : Env} {s : Session}

theorem noHashSent_sendClient {m : Json} : NoHashSent (s.sendClient m) ↔ NoHashSent s ∧ ¬ CarriesHash m := by
  simp only [NoHashSent, sendClient_sent, List.mem_append, List.mem_singleton]
  constructor
  · exact fun h => ⟨fun m' hm => h m' (.inl hm), h m (.inr rfl)⟩
  · rintro ⟨h, hm⟩ m' (hm' | rfl)
    · exact h m' hm'
    · exact hm

theorem noHashSent_congr {t : Session} (h : t.sent = s.sent) : NoHashSent t ↔ NoHashSent s := by
  simp only [NoHashSent, h]

/-! ## The logic server's own messages -/

theorem localAnswers_noHash {m : Json} (h : m ∈ localAnswers) : ¬ CarriesHash m := by
  revert m
  decide

theorem replyErrors_noHash {m : Json} (h : m ∈ replyErrors) : ¬ CarriesHash m := by
  revert m
  decide

theorem loginAnswer_noHash (now u : Int) : ¬ CarriesHash (loginAnswer env now u) := by
  have : (loginAnswer env now u).getObjectItemCaseSensitive "password_hash" = none := rfl
  simp [CarriesHash, this]

theorem dbUnavailable_noHash : ¬ CarriesHash (createErrorResponse ERROR_DB_UNAVAILABLE) := by decide

theorem noHashSent_passwordMatched (connect : Int) (req : Json) :
    NoHashSent (s.passwordMatched connect req) ↔ NoHashSent s := by
  rcases passwordMatched_sent s connect req with h | h
  · exact noHashSent_congr h
  · rw [noHashSent_congr (t := s.passwordMatched connect req)
      (s := s.sendClient (createErrorResponse ERROR_DB_UNAVAILABLE)) h, noHashSent_sendClient]
    simp [dbUnavailable_noHash]

/-! ## One step -/

theorem noHashSent_client (now : Int) (raw : CString) :
    NoHashSent (handleClient env now s raw) ↔ NoHashSent s := by
  rcases processClientRequest_cases env now s.cur raw with ⟨a, stored, query, -, he⟩ | hr
  · simp only [handleClient, he, Bool.false_eq_true, if_false]
    exact noHashSent_congr rfl
  · simp only [handleClient, hr.handledLocally, if_true]
    rw [noHashSent_sendClient, and_iff_left (localAnswers_noHash hr.message)]
    exact noHashSent_congr rfl

/-- Taking a reply keeps stored passwords from the client exactly when the reply
has none or is not relayed. -/
theorem noHashSent_reply (now connect : Int) (r : Option Json) :
    NoHashSent (handleDbResponse env now s r connect) ↔ NoHashSent s ∧ ∀ j, r = some j → CarriesHash j →
      s.cur.requestJson = none ∨ s.cur.action = .validateUser := by
  by_cases hrelay : ∃ j req, r = some j ∧ s.cur.requestJson = some req ∧ s.cur.action ≠ .validateUser
  · obtain ⟨j, req, rfl, hreq, ha⟩ := hrelay
    rw [handleDbResponse_relay hreq ha, noHashSent_sendClient]
    simp [hreq, ha]
  · have hok : ∀ j, r = some j → CarriesHash j →
        s.cur.requestJson = none ∨ s.cur.action = .validateUser := by
      rintro j rfl -
      cases hreq : s.cur.requestJson with
      | none => exact .inl rfl
      | some req => exact .inr (not_not.mp fun ha => hrelay ⟨j, req, rfl, hreq, ha⟩)
    rw [and_iff_left hok]
    have hr := handleDbResponse_reacts env now s r connect
    generalize handleDbResponse env now s r connect = t at hr
    cases hr with
    | error _ m hm => rw [noHashSent_sendClient, and_iff_left (replyErrors_noHash hm)]
    | ignored => rfl
    | relayed j req hreq ha => exact absurd ⟨j, req, rfl, hreq, ha⟩ hrelay
    | matched j req p => exact noHashSent_passwordMatched connect req
    | token j req x =>
      simp only [NoHashSent, loggedIn_sent, List.mem_append, List.mem_singleton]
      constructor
      · exact fun h m hm => h m (.inl hm)
      · rintro h m (hm | rfl)
        · exact h m hm
        · exact loginAnswer_noHash now _

theorem noHashSent_step {e : Event} (hans : HashOnlyForLogin s e) :
    NoHashSent (step env s e) ↔ NoHashSent s ∧ HashToLogin s e := by
  simp only [step]
  split
  next hrun =>
    cases e with
    | client now raw => simp [noHashSent_client, HashToLogin]
    | reply now r connect =>
      cases hq : s.awaited with
      | none => cases r <;> simp [HashToLogin, hq]
      | some q =>
        simp only [noHashSent_reply, answered_cur]
        rw [noHashSent_congr (s := s) (t := s.answered) rfl]
        cases r with
        | none => simp [HashToLogin]
        | some j =>
          have hj := hans q hq
          simp only [HashToLogin, Option.some.injEq, forall_eq', hrun, forall_const, hq]
          exact and_congr_right fun _ => ⟨fun h _ hc => h hc, fun h hc => h (hj hc) hc⟩
    | clientGone => simp [HashToLogin, noHashSent_congr (leave_sent s)]
    | dbGone timeout =>
      cases timeout with
      | false => simp [HashToLogin, noHashSent_congr (leave_sent s)]
      | true =>
        simp only [if_true, noHashSent_congr (leave_sent _), noHashSent_sendClient]
        simp [dbUnavailable_noHash, HashToLogin]
  next hrun =>
    cases e with
    | reply now r connect => cases r <;> simp [HashToLogin, hrun]
    | _ => simp [HashToLogin]

/-! ## Every run -/

/-- **Stored passwords stay with the server.** In a session no message with the
field `password_hash` goes to the client if and only if every reply that
carries it, taken in the session, is taken while a login is the current
request, or while no request is. -/
theorem sent_noHash_iff (env : Env) (fd : Int) (es : List Event)
    (hans : Run.Along (step env) HashOnlyForLogin (start fd) es) :
    (∀ m ∈ (Run.exec (step env) (start fd) es).sent, ¬ CarriesHash m) ↔
      Run.Along (step env) HashToLogin (start fd) es := by
  have h := hans.iff_along (I := NoHashSent) fun s e ha => noHashSent_step ha
  rw [and_iff_right (by simp [NoHashSent, start])] at h
  exact h

/-! ## A leak -/

def registerText : CString :=
  "\x7b\"action\":2,\"username\":\"bob\",\"email\":\"b@x\",\"password\":\"pw\"\x7d"

def registerJson : Json :=
  .object [("action", .createNumber 2), ("username", .string "bob"), ("email", .string "b@x"),
    ("password", .string "pw")]

def registerEnv : Env :=
  .ofTables [(loginText "alice" "guess", loginJson "alice" "guess"), (registerText, registerJson)] []

/-- The reply to a login query, taken when a registration sent in the meantime
is the current request. -/
def relayedLogin : List Event :=
  [.client 0 (loginText "alice" "guess"), .client 0 registerText, .reply 0 (some (hashReply "sesame" "")) 6]

theorem relayedLogin_answered : Run.Along (step registerEnv) HashOnlyForLogin (start 5) relayedLogin := by
  refine ⟨trivial, trivial, fun q hq _ => ?_, trivial⟩
  obtain rfl : validateUserQuery (loginJson "alice" "guess") = q := Option.some.inj hq
  rfl

/-- The run and the condition agree: it fails here, and the stored password is out. -/
theorem sent_noHash_iff_relayedLogin :
    (∀ m ∈ (Run.exec (step registerEnv) (start 5) relayedLogin).sent, ¬ CarriesHash m) ↔
      Run.Along (step registerEnv) HashToLogin (start 5) relayedLogin :=
  sent_noHash_iff registerEnv 5 relayedLogin relayedLogin_answered

theorem stored_password_sent :
    ¬ ∀ (env : Env) (fd : Int) (es : List Event), Run.Along (step env) HashOnlyForLogin (start fd) es →
      ∀ m ∈ (Run.exec (step env) (start fd) es).sent, ¬ CarriesHash m := by
  intro h
  have hsent : hashReply "sesame" "" ∈ (Run.exec (step registerEnv) (start 5) relayedLogin).sent := by
    decide
  exact h registerEnv 5 relayedLogin relayedLogin_answered _ hsent (by decide)

end FinalServer
