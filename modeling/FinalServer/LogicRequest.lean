/-
The logic server's side of one client message: `process_client_request` and
what it calls (`logic_server.c`).

Texts are modelled by what they carry: a raw client text goes through
`cJSON_Parse`, a parameter; a message handed on is the tree that
`cJSON_PrintUnformatted` prints. `libjwt` is a parameter too, as the grants
`jwt_decode` finds in a token it accepts and the token `jwt_encode_str`
makes of two grants.
-/
import FinalServer.Action
import FinalServer.Json

namespace FinalServer

/-- The integer grants `validate_token` reads; a missing grant reads as 0. -/
structure Jwt where
  exp : Int
  userId : Int
  deriving DecidableEq

/-- What the server takes from cJSON's parser and from `libjwt`. -/
structure Env where
  /-- `cJSON_Parse`. -/
  parse : CString → Option Json
  /-- `jwt_decode` under `HMAC_SECRET`. -/
  jwtDecode : CString → Option Jwt
  /-- `jwt_encode_str` of a token with these grants, signed under `HMAC_SECRET`. -/
  jwtEncode : Jwt → CString

/-- An environment in which exactly the listed texts parse, and exactly the
listed tokens decode. -/
def Env.ofTables (texts : List (CString × Json)) (tokens : List (CString × Jwt)) : Env where
  parse t := (texts.find? (·.1 == t)).map (·.2)
  jwtDecode t := (tokens.find? (·.1 == t)).map (·.2)
  jwtEncode j := CString.ofInt j.userId ++ "." ++ CString.ofInt j.exp

/-! ## Tokens -/

/-- The conversion `(int)` of a `long`. -/
def intOfLong (n : Int) : Int := n.bmod (2 ^ 32)

/-- `validate_token`: the user of a token that decodes, has not expired and
names a positive user. -/
def validateToken (env : Env) (now : Int) (jwtStr : CString) : Option Int :=
  match env.jwtDecode jwtStr with
  | none => none
  | some jwt =>
    if 0 < jwt.exp ∧ jwt.exp < now then none
    else
      let userId := intOfLong jwt.userId
      if userId ≤ 0 then none else some userId

/-- `create_token`: one hour. -/
def createToken (env : Env) (now userId : Int) : CString :=
  env.jwtEncode { exp := now + 3600, userId }

theorem validateToken_pos {env : Env} {now u : Int} {t : CString} (h : validateToken env now t = some u) :
    0 < u := by
  simp only [validateToken] at h
  split at h
  · cases h
  split at h
  · cases h
  split at h
  · cases h
  · cases h; omega

/-- The user of an accepted token is an `int`. -/
theorem validateToken_range {env : Env} {now u : Int} {t : CString} (h : validateToken env now t = some u) :
    Json.INT_MIN ≤ u ∧ u ≤ Json.INT_MAX := by
  simp only [validateToken] at h
  split at h
  · cases h
  next jwt _ =>
  split at h
  · cases h
  split at h
  · cases h
  · cases h
    have hlo := Int.le_bmod (x := jwt.userId) (m := 2 ^ 32) (by decide)
    have hhi := Int.bmod_lt (x := jwt.userId) (m := 2 ^ 32) (by decide)
    simp only [intOfLong, Json.INT_MIN, Json.INT_MAX]
    omega

/-! ## Error answers -/

structure ErrorResponse where
  code : Int
  text : CString

def ERROR_INVALID_JSON : ErrorResponse := ⟨400, "Invalid JSON"⟩
def ERROR_MISSING_ACTION : ErrorResponse := ⟨400, "Missing or invalid action"⟩
def ERROR_MISSING_FIELDS : ErrorResponse := ⟨400, "Missing required fields for this action"⟩
def ERROR_MISSING_TOKEN : ErrorResponse := ⟨401, "Unauthorized: token missing"⟩
def ERROR_INVALID_TOKEN : ErrorResponse := ⟨401, "Unauthorized: invalid token"⟩
def ERROR_UNKNOWN_ACTION : ErrorResponse := ⟨404, "Unknown action"⟩
def ERROR_DB_UNAVAILABLE : ErrorResponse :=
  ⟨503, "Service unavailable: all DB load balancers are unreachable"⟩
def ERROR_DB_CONNECTION : ErrorResponse := ⟨500, "DB connection error"⟩
def ERROR_INVALID_CREDENTIALS : ErrorResponse := ⟨401, "Invalid credentials"⟩

def createErrorResponse (error : ErrorResponse) : Json :=
  ((Json.object []).addNumberToObject "response_code" error.code).addStringToObject "response_text"
    (some error.text)

/-! ## The rule table -/

/-- `validation_rules`. -/
def validationRules : List (Action × List CString) := [
  (.validateUser, ["key", "password"]),
  (.createUser, ["username", "email", "password"]),
  (.getUserInfo, ["key"]),
  (.createChat, ["is_group", "chat_name", "participant_ids"]),
  (.addToGroupChat, ["chat_id", "participant_ids"]),
  (.sendMessage, ["chat_id", "content", "message_type"]),
  (.getChats, ["last_update_timestamp"]),
  (.getChatMessages, ["chat_id", "last_update_timestamp"]),
  (.getChatInfo, ["chat_id"]),
  (.removeFromChat, ["chat_id", "participant_ids"]),
  (.exitChat, ["chat_id"]),
  (.ping, [])]

/-- `validate_request`: the action has a rule and the request has its fields. -/
def validateRequest (action : Int) (json : Json) : Bool :=
  match validationRules.find? fun r => r.1.code == action with
  | none => false
  | some rules => rules.2.all json.hasObjectItem

/-- The fields the table asks of an action. -/
def requiredFields (a : Action) : List CString :=
  ((validationRules.find? fun r => r.1 == a).map (·.2)).getD []

theorem find_validationRules (a : Action) :
    validationRules.find? (fun r => r.1.code == a.code) = some (a, requiredFields a) := by
  cases a <;> rfl

theorem validateRequest_iff {action : Int} {json : Json} :
    validateRequest action json = true ↔
      ∃ a : Action, action = a.code ∧ ∀ f ∈ requiredFields a, json.hasObjectItem f = true := by
  constructor
  · intro h
    simp only [validateRequest] at h
    split at h
    · cases h
    next r hr =>
    obtain ⟨a, fs⟩ := r
    have hcode : a.code = action := by simpa using List.find?_some hr
    refine ⟨a, hcode.symm, ?_⟩
    rw [← hcode, find_validationRules] at hr
    cases hr
    simpa using h
  · rintro ⟨a, rfl, hf⟩
    simp only [validateRequest, find_validationRules]
    simpa using hf

/-! ## The session's current request -/

inductive AuthState
  | initial | validated | gotUserInfo
  deriving DecidableEq, Repr

/-- `CurrentRequest`, one for the whole session. -/
structure CurrentRequest where
  action : Action
  requestJson : Option Json
  authState : AuthState
  key : Option CString
  currentDbSock : Int
  deriving DecidableEq

/-- The zeroed `current_request` of a new process, with the connection
`handle_client` opens. -/
def CurrentRequest.fresh (dbSock : Int) : CurrentRequest :=
  { action := .validateUser, requestJson := none, authState := .initial, key := none,
    currentDbSock := dbSock }

/-- Clear any previous request and store this one. -/
def CurrentRequest.store (cur : CurrentRequest) (action : Action) (json : Json) : CurrentRequest :=
  { cur with action, requestJson := some json }

/-! ## Identity injection -/

/-- A timestamp given as the text `NULL`, in any case, becomes the value `null`. -/
def nullTimestamp (json : Json) : Json :=
  match json.getObjectItem "last_update_timestamp" with
  | some (.string s) =>
    if s.eqNoCase "NULL" then json.replaceItemInObject "last_update_timestamp" .null else json
  | _ => json

/-- The `switch` on the actions that need a token: what becomes of the request
when the user of the token is put into it. -/
def injectIdentity (action : Action) (userId : Int) (json : Json) : Json :=
  match action with
  | .getUserInfo => json
  | .createChat => json.replaceItemInObject "created_by" (.createNumber userId)
  | .addToGroupChat => json.replaceItemInObject "added_by" (.createNumber userId)
  | .sendMessage => json.replaceItemInObject "sender_id" (.createNumber userId)
  | .getChats => nullTimestamp (json.replaceItemInObject "user_id" (.createNumber userId))
  | .getChatMessages => nullTimestamp (json.addNumberToObject "user_id" userId)
  | .getChatInfo => json
  | .removeFromChat => json.addNumberToObject "removed_by" userId
  | .exitChat => json.addNumberToObject "user_id" userId
  -- `default`: no rule lets such a request come this far.
  | .validateUser | .createUser | .ping => json.addNumberToObject "user_id" userId

/-- The query of a login: the key, without the password. -/
def validateUserQuery (json : Json) : Json :=
  let dbQuery := (Json.object []).addNumberToObject "action" Action.validateUser.code
  match json.getObjectItem "key" with
  | some userKey => dbQuery.addStringToObject "key" userKey.valuestring
  | none => dbQuery

/-! ## `process_client_request` -/

/-- What `process_client_request` returns: the flag, the message, and
`current_request` as it leaves it. -/
structure Processed where
  handledLocally : Bool
  message : Json
  current : CurrentRequest
  deriving DecidableEq

def pong : Json := .object [("response", .string "pong")]

/-- The branch of the actions that require a token. -/
def processTokenRequest (env : Env) (now : Int) (cur : CurrentRequest) (action : Action) (json : Json) :
    Processed :=
  match json.getObjectItemCaseSensitive "token" with
  | some (.string token) =>
    match validateToken env now token with
    | none => ⟨true, createErrorResponse ERROR_INVALID_TOKEN, cur⟩
    | some userId =>
      let json := json.deleteItemFromObject "token"
      ⟨false, injectIdentity action userId json, cur.store action json⟩
  | _ => ⟨true, createErrorResponse ERROR_MISSING_TOKEN, cur⟩

def processClientRequest (env : Env) (now : Int) (cur : CurrentRequest) (rawJson : CString) : Processed :=
  match env.parse rawJson with
  | none => ⟨true, createErrorResponse ERROR_INVALID_JSON, cur⟩
  | some json =>
    match json.getObjectItemCaseSensitive "action" with
    | some (.number d) =>
      let action := Json.toInt d
      if validateRequest action json then
        match Action.ofCode action with
        | some .ping => ⟨true, pong, cur⟩
        | some .validateUser => ⟨false, validateUserQuery json, cur.store .validateUser json⟩
        | some .createUser => ⟨false, json, cur.store .createUser json⟩
        | some action => processTokenRequest env now cur action json
        -- The last `return`: a code without a rule has failed `validate_request`.
        | none => ⟨true, createErrorResponse ERROR_UNKNOWN_ACTION, cur⟩
      else ⟨true, createErrorResponse ERROR_MISSING_FIELDS, cur⟩
    | _ => ⟨true, createErrorResponse ERROR_MISSING_ACTION, cur⟩

end FinalServer
