/-
What the logic server relies on about the data server's replies.

The data server is seen from outside as a directory of users, and a reply as
an answer to one query. `Answers` is read off the reply objects
`handle_action` builds: the stored password of a key stands only in the
reply to a `VALIDATE_USER` query for that key, the user id only in the reply
to a `GET_USER_INFO` query, and no reply carries a token. Which query a
reply belongs to is the order of the connection, which `Session` keeps.
-/
import FinalServer.DataRequest
import FinalServer.Session

namespace FinalServer

/-- Who the data server says the users are. -/
structure Directory where
  password : CString → Option CString
  userId : CString → Option Int

/-- The reply is one the data server of directory `d` can give to the query. -/
structure Answers (d : Directory) (query reply : Json) : Prop where
  hash : ∀ p, Session.isSuccess reply = true →
    reply.getObjectItem "password_hash" = some (.string p) →
    queryAction query = some .validateUser ∧ ∃ k, queryKey query = some k ∧ d.password k = some p
  userId : ∀ x, Session.isSuccess reply = true → reply.getObjectItem "user_id" = some (.number x) →
    queryAction query = some .getUserInfo ∧ ∃ k, queryKey query = some k ∧ d.userId k = some (Json.toInt x)
  noToken : reply.getObjectItem "token" = none

/-- Replies come from the data server of directory `d`, in the order of the
queries of their connection. -/
def AnsweredBy (d : Directory) (s : Session) : Event → Prop
  | .reply _ (some r) _ => ∀ q, s.awaited = some q → Answers d q r
  | _ => True

/-! ## The messages of a login -/

/-- A login request, as text and as what it parses to. -/
def loginText (k p : CString) : CString :=
  "\x7b\"action\":0,\"key\":\"" ++ k ++ "\",\"password\":\"" ++ p ++ "\"\x7d"

@[inherit_doc loginText]
def loginJson (k p : CString) : Json :=
  .object [("action", .createNumber 0), ("key", .string k), ("password", .string p)]

/-- The reply to a `VALIDATE_USER` query for a known key. -/
def hashReply (password text : CString) : Json :=
  .object [("password_hash", .string password), ("response_text", .string text),
    ("response_code", .createNumber 200)]

/-- The reply to a `GET_USER_INFO` query for a known key. -/
def userInfoReply (userId : Int) (username email text : CString) : Json :=
  .object [("user_id", .createNumber userId), ("username", .string username), ("email", .string email),
    ("response_text", .string text), ("response_code", .createNumber 200)]

theorem hashReply_answers {d : Directory} {q : Json} {k p : CString} (text : CString)
    (hq : queryAction q = some .validateUser) (hk : queryKey q = some k) (hp : d.password k = some p) :
    Answers d q (hashReply p text) where
  hash p' _ hh := by
    obtain rfl : p = p' := by
      have : (hashReply p text).getObjectItem "password_hash" = some (.string p) := rfl
      rw [this] at hh
      simpa using hh
    exact ⟨hq, k, hk, hp⟩
  userId x _ hu := by
    have : (hashReply p text).getObjectItem "user_id" = none := rfl
    rw [this] at hu
    cases hu
  noToken := rfl

theorem userInfoReply_answers {d : Directory} {q : Json} {k : CString} {u : Int}
    (username email text : CString) (hq : queryAction q = some .getUserInfo) (hk : queryKey q = some k)
    (hu : d.userId k = some u) (hlo : Json.INT_MIN ≤ u) (hhi : u ≤ Json.INT_MAX) :
    Answers d q (userInfoReply u username email text) where
  hash p _ hh := by
    have : (userInfoReply u username email text).getObjectItem "password_hash" = none := rfl
    rw [this] at hh
    cases hh
  userId x _ hx := by
    have : (userInfoReply u username email text).getObjectItem "user_id" = some (.createNumber u) := rfl
    rw [this] at hx
    obtain rfl : (u : ℚ) = x := by simpa [Json.createNumber] using hx
    refine ⟨hq, k, hk, ?_⟩
    rw [hu]
    exact congrArg some (Json.valueint_createNumber hlo hhi).symm
  noToken := rfl

end FinalServer
