/-
The error that a client's text is answered with.

The checks have a documented order, and the first one that fails decides
(`Check.inOrder`). `validate_request` comes before the action is looked at,
and it refuses an action without a rule as if a field were missing: the
`Unknown action` at the end of `process_client_request` is never reached. For
every other text the order is kept (`errorsInOrder_iff`).
-/
import FinalServer.LogicGate
import FinalServer.Session

namespace FinalServer

/-! ## The documented order -/

/-- `action`, if it is a number. -/
def requestCode (json : Json) : Option Int :=
  ((json.getObjectItemCaseSensitive "action").filter Json.isNumber).map Json.valueint

/-- `token`, if it is a string. -/
def requestToken (json : Json) : Option CString := (json.getObjectItemCaseSensitive "token").bind Json.valuestring

/-- The number a text has for its action. -/
def readCode (env : Env) (raw : CString) : Option Int := (env.parse raw).bind requestCode

/-- A text of a defined action. -/
def readRequest (env : Env) (raw : CString) : Option (Json × Action) :=
  (env.parse raw).bind fun json => (requestCode json).bind fun n => (Action.ofCode n).map (json, ·)

/-- What a text is checked for. -/
inductive Check
  | parses | numericAction | definedAction | fieldsPresent | stringToken | acceptedToken
  deriving DecidableEq, Repr

namespace Check

def inOrder : List Check := [parses, numericAction, definedAction, fieldsPresent, stringToken, acceptedToken]

/-- The error for the check. -/
def error : Check → ErrorResponse
  | parses => ERROR_INVALID_JSON
  | numericAction => ERROR_MISSING_ACTION
  | definedAction => ERROR_UNKNOWN_ACTION
  | fieldsPresent => ERROR_MISSING_FIELDS
  | stringToken => ERROR_MISSING_TOKEN
  | acceptedToken => ERROR_INVALID_TOKEN

/-- The text passes the check. -/
def passes (env : Env) (now : Int) (raw : CString) : Check → Bool
  | parses => (env.parse raw).isSome
  | numericAction => (readCode env raw).isSome
  | definedAction => (readRequest env raw).isSome
  | fieldsPresent => (readRequest env raw).any fun (json, a) => (requiredFields a).all json.hasObjectItem
  | stringToken => (readRequest env raw).any fun (json, a) => !a.needsToken || (requestToken json).isSome
  | acceptedToken => (readRequest env raw).any fun (json, a) =>
      !a.needsToken || (requestToken json).any fun token => (validateToken env now token).isSome

/-- The first check the text fails. -/
def firstFailing (env : Env) (now : Int) (raw : CString) : Option Check :=
  inOrder.find? fun c => !c.passes env now raw

end Check

open Check

/-- In the turn of the loop that takes the text, the client is sent this error. -/
def AnswersError (env : Env) (now : Int) (s : Session) (raw : CString) (e : ErrorResponse) : Prop :=
  (s.handleClient env now raw).sent = s.sent ++ [createErrorResponse e]

/-- The text is answered with the error of the first check it fails, and with no
other; and with none if it fails none. -/
structure ErrorsInOrder (env : Env) (now : Int) (s : Session) (raw : CString) : Prop where
  failed : ∀ c, firstFailing env now raw = some c → ∀ e, AnswersError env now s raw e ↔ e = c.error
  passed : firstFailing env now raw = none → ∀ e, ¬ AnswersError env now s raw e

variable {env : Env} {now : Int} {s : Session} {raw : CString} {json : Json} {a : Action} {e : ErrorResponse}

theorem createErrorResponse_inj {e' : ErrorResponse} (h : createErrorResponse e = createErrorResponse e') : e = e' := by
  obtain ⟨code, text⟩ := e
  obtain ⟨code', text'⟩ := e'
  have hfields : code = code' ∧ text = text' := by
    simpa [createErrorResponse, Json.addNumberToObject, Json.addStringToObject, Json.addItemToObject,
      Json.createNumber] using h
  rw [hfields.1, hfields.2]

/-- An error is answered where a text is handled locally, and nothing but the error. -/
theorem answersError_iff : AnswersError env now s raw e ↔
    (processClientRequest env now s.cur raw).handledLocally = true ∧
      (processClientRequest env now s.cur raw).message = createErrorResponse e := by
  simp only [AnswersError, Session.handleClient]
  split
  next h => simp [h]
  next h => simp [h]

/-! ## What is read of a text -/

theorem requestCode_eq_some {n : Int} : requestCode json = some n ↔
    ∃ d, json.getObjectItemCaseSensitive "action" = some (.number d) ∧ Json.toInt d = n := by
  unfold requestCode
  cases json.getObjectItemCaseSensitive "action" with
  | none => simp
  | some item => cases item <;> simp [Json.isNumber, Json.valueint]

theorem requestToken_eq_some {token : CString} : requestToken json = some token ↔
    json.getObjectItemCaseSensitive "token" = some (.string token) := by
  unfold requestToken
  cases json.getObjectItemCaseSensitive "token" with
  | none => simp
  | some item => cases item <;> simp [Json.valuestring]

theorem readRequest_eq_some : readRequest env raw = some (json, a) ↔
    env.parse raw = some json ∧ requestCode json = some a.code := by
  simp only [readRequest, Option.bind_eq_some_iff, Option.map_eq_some_iff, Action.ofCode_eq_some, Prod.mk.injEq]
  constructor
  · rintro ⟨json', hp, n, hn, a', rfl, rfl, rfl⟩
    exact ⟨hp, hn⟩
  · rintro ⟨hp, hn⟩
    exact ⟨json, hp, _, hn, a, rfl, rfl, rfl⟩

/-- An undefined action is the first thing that is wrong with its text. -/
theorem firstFailing_undefined {n : Int} (hn : readCode env raw = some n) (ha : Action.ofCode n = none) :
    firstFailing env now raw = some definedAction := by
  obtain ⟨json, hp, hcode⟩ := Option.bind_eq_some_iff.mp hn
  simp [firstFailing, inOrder, passes, readCode, readRequest, hp, hcode, ha]

/-- A text of a defined action has only the checks of the action before it. -/
theorem firstFailing_request (h : readRequest env raw = some (json, a)) : firstFailing env now raw =
    [fieldsPresent, stringToken, acceptedToken].find? fun c => !c.passes env now raw := by
  obtain ⟨hp, hn⟩ := readRequest_eq_some.mp h
  simp [firstFailing, inOrder, passes, readCode, hp, hn, h]

/-! ## What the code answers -/

/-- The error the code has for a check: of an undefined action it says that fields are missing. -/
def Check.answered : Check → ErrorResponse
  | definedAction => ERROR_MISSING_FIELDS
  | c => c.error

theorem processClientRequest_noCode (cur : CurrentRequest) (hp : env.parse raw = some json)
    (hn : requestCode json = none) :
    processClientRequest env now cur raw = ⟨true, createErrorResponse ERROR_MISSING_ACTION, cur⟩ := by
  simp only [processClientRequest, hp]
  split
  next d hd =>
    rw [requestCode_eq_some.mpr ⟨d, hd, rfl⟩] at hn
    cases hn
  next => rfl

theorem processClientRequest_fields (cur : CurrentRequest) {d : ℚ} (hp : env.parse raw = some json)
    (hd : json.getObjectItemCaseSensitive "action" = some (.number d))
    (hno : ¬ ∃ a : Action, Json.toInt d = a.code ∧ ∀ f ∈ requiredFields a, json.hasObjectItem f = true) :
    processClientRequest env now cur raw = ⟨true, createErrorResponse ERROR_MISSING_FIELDS, cur⟩ := by
  have hrefused : ¬ validateRequest (Json.toInt d) json = true := fun h => hno (validateRequest_iff.mp h)
  simp only [processClientRequest, hp, hd, if_neg hrefused]

/-- An action that needs no token is handed on, or answered with a pong. -/
theorem processClientRequest_noToken (cur : CurrentRequest) (h : IsRequest env raw json a)
    (ha : a.needsToken = false) : (processClientRequest env now cur raw).handledLocally = false ∨
      (processClientRequest env now cur raw).message = pong := by
  rw [processClientRequest_isRequest now cur h]
  cases a with
  | ping => exact .inr rfl
  | validateUser | createUser => exact .inl rfl
  | _ => cases ha

theorem processTokenRequest_noToken (cur : CurrentRequest) (ht : requestToken json = none) :
    processTokenRequest env now cur a json = ⟨true, createErrorResponse ERROR_MISSING_TOKEN, cur⟩ := by
  rw [processTokenRequest]
  split
  next token htoken =>
    rw [requestToken_eq_some.mpr htoken] at ht
    cases ht
  next => rfl

theorem processTokenRequest_token (env : Env) (now : Int) (a : Action) (cur : CurrentRequest) {token : CString}
    (ht : requestToken json = some token) :
    match validateToken env now token with
    | some _ => (processTokenRequest env now cur a json).handledLocally = false
    | none => processTokenRequest env now cur a json = ⟨true, createErrorResponse ERROR_INVALID_TOKEN, cur⟩ := by
  simp only [processTokenRequest, requestToken_eq_some.mp ht]
  cases validateToken env now token <;> rfl

theorem pong_ne_error : pong ≠ createErrorResponse e := by
  simp [pong, createErrorResponse, Json.addNumberToObject, Json.addStringToObject, Json.addItemToObject]

/-- What `process_client_request` does about a text whose first failing check this is. -/
def AnsweredFor (env : Env) (now : Int) (cur : CurrentRequest) (raw : CString) : Option Check → Prop
  | some c => processClientRequest env now cur raw = ⟨true, createErrorResponse c.answered, cur⟩
  | none => (processClientRequest env now cur raw).handledLocally = false ∨
      (processClientRequest env now cur raw).message = pong

/-- A text of a defined action is answered by the checks of its action. -/
theorem answeredFor_request (cur : CurrentRequest) (hread : readRequest env raw = some (json, a)) :
    AnsweredFor env now cur raw (firstFailing env now raw) := by
  obtain ⟨hp, hn⟩ := readRequest_eq_some.mp hread
  obtain ⟨d, hd, hcode⟩ := requestCode_eq_some.mp hn
  rw [firstFailing_request hread]
  by_cases hfields : ∀ f ∈ requiredFields a, json.hasObjectItem f = true
  · have hreq : IsRequest env raw json a := ⟨hp, ⟨d, hd, hcode⟩, hfields⟩
    have hpassed : (requiredFields a).all json.hasObjectItem = true := List.all_eq_true.mpr hfields
    cases hneeds : a.needsToken with
    | false => simpa [AnsweredFor, passes, hread, hpassed, hneeds] using processClientRequest_noToken cur hreq hneeds
    | true =>
      have hbranch := processClientRequest_needsToken now cur hreq hneeds
      cases ht : requestToken json with
      | none =>
        simp only [List.find?_cons, passes, hread, Option.any_some, hpassed, hneeds, ht]
        exact hbranch.trans (processTokenRequest_noToken cur ht)
      | some token =>
        have htoken := processTokenRequest_token env now a cur ht
        rw [← hbranch] at htoken
        cases hv : validateToken env now token with
        | none =>
          rw [hv] at htoken
          simp only [List.find?_cons, passes, hread, Option.any_some, hpassed, hneeds, ht, hv]
          exact htoken
        | some u =>
          rw [hv] at htoken
          simp only [List.find?_cons, passes, hread, Option.any_some, hpassed, hneeds, ht, hv]
          exact .inl htoken
  · have hfailed : (requiredFields a).all json.hasObjectItem = false := by
      rw [← Bool.not_eq_true, List.all_eq_true]
      exact hfields
    simp only [List.find?_cons, passes, hread, Option.any_some, hfailed, Bool.not_false]
    refine processClientRequest_fields cur hp hd ?_
    rintro ⟨a', hcode', hfields'⟩
    rw [hcode, ← Action.ofCode_eq_some, Action.ofCode_code] at hcode'
    cases hcode'
    exact hfields hfields'

/-- The first check that fails decides what is answered; where none fails no error is. -/
theorem answeredFor_firstFailing (env : Env) (now : Int) (cur : CurrentRequest) (raw : CString) :
    AnsweredFor env now cur raw (firstFailing env now raw) := by
  cases hp : env.parse raw with
  | none =>
    have hfirst : firstFailing env now raw = some parses := by simp [firstFailing, inOrder, passes, hp]
    rw [hfirst]
    simp only [AnsweredFor, processClientRequest, hp]
    rfl
  | some json =>
  cases hn : requestCode json with
  | none =>
    have hfirst : firstFailing env now raw = some numericAction := by
      simp [firstFailing, inOrder, passes, readCode, hp, hn]
    rw [hfirst]
    exact processClientRequest_noCode cur hp hn
  | some n =>
  cases ha : Action.ofCode n with
  | none =>
    rw [firstFailing_undefined (Option.bind_eq_some_iff.mpr ⟨json, hp, hn⟩) ha]
    obtain ⟨d, hd, rfl⟩ := requestCode_eq_some.mp hn
    refine processClientRequest_fields cur hp hd ?_
    rintro ⟨a, hcode, -⟩
    rw [Action.ofCode_eq_some.mpr hcode] at ha
    cases ha
  | some a =>
    rw [Action.ofCode_eq_some] at ha
    exact answeredFor_request cur (readRequest_eq_some.mpr ⟨hp, ha ▸ hn⟩)

theorem Check.answered_eq_error {c : Check} (hc : c ≠ definedAction) : c.answered = c.error := by
  cases c <;> first | rfl | exact absurd rfl hc

/-- A text that first fails to have a defined action has a number for it. -/
theorem readCode_of_firstFailing (h : firstFailing env now raw = some definedAction) :
    ∃ n, readCode env raw = some n ∧ Action.ofCode n = none := by
  cases hn : readCode env raw with
  | none =>
    cases hp : env.parse raw <;> simp [firstFailing, inOrder, passes, hn, hp] at h
  | some n =>
    refine ⟨n, rfl, ?_⟩
    obtain ⟨json, hp, hcode⟩ := Option.bind_eq_some_iff.mp hn
    have hfails : definedAction.passes env now raw = false := by simpa using List.find?_some h
    simpa [passes, readRequest, hp, hcode] using hfails

/-- **The order of the checks.** The error answered is that of the first check that
fails, and none where none fails, exactly if the text has no number for its action
or that of a defined one. -/
theorem errorsInOrder_iff (env : Env) (now : Int) (s : Session) (raw : CString) :
    ErrorsInOrder env now s raw ↔ ∀ n, readCode env raw = some n → ∃ a : Action, n = a.code := by
  have hanswered := answeredFor_firstFailing env now s.cur raw
  constructor
  · intro horder n hn
    cases ha : Action.ofCode n with
    | some a => exact ⟨a, Action.ofCode_eq_some.mp ha⟩
    | none =>
      have hfirst : firstFailing env now raw = some definedAction := firstFailing_undefined hn ha
      rw [hfirst] at hanswered
      have hmissing : AnswersError env now s raw ERROR_MISSING_FIELDS := by
        rw [answersError_iff, show processClientRequest env now s.cur raw = _ from hanswered]
        exact ⟨rfl, rfl⟩
      have herror := (horder.failed _ hfirst _).mp hmissing
      exact absurd (congrArg ErrorResponse.code herror) (by decide)
  · intro hdefined
    refine ⟨fun c hc e => ?_, fun hnone e he => ?_⟩
    · have hne : c ≠ definedAction := by
        rintro rfl
        obtain ⟨n, hn, hno⟩ := readCode_of_firstFailing hc
        obtain ⟨a, rfl⟩ := hdefined n hn
        rw [Action.ofCode_code] at hno
        cases hno
      rw [hc] at hanswered
      rw [answersError_iff, show processClientRequest env now s.cur raw = _ from hanswered,
        Check.answered_eq_error hne]
      exact ⟨fun h => (createErrorResponse_inj h.2).symm, fun h => ⟨rfl, by rw [h]⟩⟩
    · rw [hnone] at hanswered
      obtain ⟨hlocal, hmessage⟩ := answersError_iff.mp he
      rcases hanswered with hforwarded | hpong
      · rw [hforwarded] at hlocal
        cases hlocal
      · exact pong_ne_error (hpong.symm.trans hmessage)

/-- A number that is no action's. -/
def unusedCodeText : CString := "\x7b\"action\":1\x7d"

def unusedCodeEnv : Env := Env.ofTables [(unusedCodeText, .object [("action", .createNumber 1)])] []

/-- The client is told that fields are missing. -/
theorem undefined_action_missing_fields :
    AnswersError unusedCodeEnv 0 (.start 5) unusedCodeText ERROR_MISSING_FIELDS ∧
      ¬ ∀ (env : Env) (now : Int) (s : Session) (raw : CString), ErrorsInOrder env now s raw := by
  have hmissing : AnswersError unusedCodeEnv 0 (.start 5) unusedCodeText ERROR_MISSING_FIELDS := rfl
  refine ⟨hmissing, fun h => ?_⟩
  have herror := ((h unusedCodeEnv 0 (.start 5) unusedCodeText).failed definedAction rfl _).mp hmissing
  exact absurd (congrArg ErrorResponse.code herror) (by decide)

end FinalServer
