/-
What `process_client_request` hands on, and what it answers itself.

`Forwards` lists the three ways a message is handed on, each with the checks
that stand before it; `processClientRequest_cases` says that the function
does one of these or answers locally with one of its fixed texts and leaves
`current_request` alone. Everything later about a client message goes
through that lemma.
-/
import FinalServer.LogicRequest

namespace FinalServer

/-- The text parses, its action is `a`, and the fields the table asks of `a`
are there. -/
structure IsRequest (env : Env) (rawJson : CString) (json : Json) (a : Action) : Prop where
  parse : env.parse rawJson = some json
  action : ∃ d, json.getObjectItemCaseSensitive "action" = some (.number d) ∧ Json.toInt d = a.code
  fields : ∀ f ∈ requiredFields a, json.hasObjectItem f = true

/-- The request carries a string token, and it is accepted as a token of `u`. -/
def Authorised (env : Env) (now : Int) (json : Json) (u : Int) : Prop :=
  ∃ token, json.getObjectItemCaseSensitive "token" = some (.string token) ∧
    validateToken env now token = some u

/-- The actions of the token branch. -/
def Action.needsToken : Action → Bool
  | .ping | .validateUser | .createUser => false
  | _ => true

/-- The request `a` is handed on as `query` and remembered as `stored`. -/
inductive Forwards (env : Env) (now : Int) (rawJson : CString) : Action → Json → Json → Prop
  | validateUser (json : Json) (h : IsRequest env rawJson json .validateUser) :
      Forwards env now rawJson .validateUser json (validateUserQuery json)
  | createUser (json : Json) (h : IsRequest env rawJson json .createUser) :
      Forwards env now rawJson .createUser json json
  | token (json : Json) (a : Action) (u : Int) (h : IsRequest env rawJson json a)
      (ha : a.needsToken = true) (hu : Authorised env now json u) :
      Forwards env now rawJson a (json.deleteItemFromObject "token")
        (injectIdentity a u (json.deleteItemFromObject "token"))

/-- The fixed answers of the logic server itself to a client message. -/
def localAnswers : List Json :=
  [createErrorResponse ERROR_INVALID_JSON, createErrorResponse ERROR_MISSING_ACTION,
    createErrorResponse ERROR_MISSING_FIELDS, createErrorResponse ERROR_MISSING_TOKEN,
    createErrorResponse ERROR_INVALID_TOKEN, createErrorResponse ERROR_UNKNOWN_ACTION, pong]

/-- The two ways `process_client_request` ends. -/
structure Refuses (env : Env) (now : Int) (cur : CurrentRequest) (rawJson : CString) (r : Processed) :
    Prop where
  handledLocally : r.handledLocally = true
  message : r.message ∈ localAnswers
  current : r.current = cur
  not_forwards : ∀ a stored query, ¬ Forwards env now rawJson a stored query

theorem IsRequest.unique {env : Env} {raw : CString} {json json' : Json} {a a' : Action}
    (h : IsRequest env raw json a) (h' : IsRequest env raw json' a') : json = json' ∧ a = a' := by
  have hj : json = json' := by simpa [h.parse] using h'.parse
  subst hj
  obtain ⟨d, hd, hc⟩ := h.action
  obtain ⟨d', hd', hc'⟩ := h'.action
  rw [hd] at hd'
  cases hd'
  have := Action.ofCode_eq_some.mpr (hc.symm.trans hc').symm
  simp only [Action.ofCode_code, Option.some.injEq] at this
  exact ⟨rfl, this.symm⟩

theorem Forwards.isRequest {env : Env} {now : Int} {raw : CString} {a : Action} {stored query : Json}
    (h : Forwards env now raw a stored query) : ∃ json, IsRequest env raw json a := by
  cases h with
  | validateUser _ h => exact ⟨_, h⟩
  | createUser _ h => exact ⟨_, h⟩
  | token _ _ _ h => exact ⟨_, h⟩

/-- A request goes to the branch of its action. -/
theorem processClientRequest_isRequest {env : Env} {raw : CString} {json : Json} {a : Action} (now : Int)
    (cur : CurrentRequest) (h : IsRequest env raw json a) : processClientRequest env now cur raw =
      match a with
      | .ping => ⟨true, pong, cur⟩
      | .validateUser => ⟨false, validateUserQuery json, cur.store .validateUser json⟩
      | .createUser => ⟨false, json, cur.store .createUser json⟩
      | a => processTokenRequest env now cur a json := by
  obtain ⟨d, hd, hcode⟩ := h.action
  have hvalid : validateRequest a.code json = true := validateRequest_iff.mpr ⟨a, rfl, h.fields⟩
  simp only [processClientRequest, h.parse, hd, hcode, hvalid, if_true, Action.ofCode_code]
  cases a <;> rfl

theorem processClientRequest_needsToken {env : Env} {raw : CString} {json : Json} {a : Action} (now : Int)
    (cur : CurrentRequest) (h : IsRequest env raw json a) (ha : a.needsToken = true) :
    processClientRequest env now cur raw = processTokenRequest env now cur a json := by
  rw [processClientRequest_isRequest now cur h]
  cases a <;> first | rfl | cases ha

theorem processTokenRequest_cases {env : Env} (now : Int) (cur : CurrentRequest) {raw : CString}
    {json : Json} {a : Action} (h : IsRequest env raw json a) (ha : a.needsToken = true) :
    (∃ stored query, Forwards env now raw a stored query ∧
      processTokenRequest env now cur a json = ⟨false, query, cur.store a stored⟩) ∨
    Refuses env now cur raw (processTokenRequest env now cur a json) := by
  -- A forwarded message of this text is one of this action with a token.
  have inv : ∀ a' stored query, Forwards env now raw a' stored query → ∃ u, Authorised env now json u := by
    intro a' stored query hf
    cases hf with
    | validateUser j hj => obtain ⟨-, rfl⟩ := h.unique hj; simp [Action.needsToken] at ha
    | createUser j hj => obtain ⟨-, rfl⟩ := h.unique hj; simp [Action.needsToken] at ha
    | token j a' u hj _ hu => obtain ⟨rfl, -⟩ := h.unique hj; exact ⟨u, hu⟩
  simp only [processTokenRequest]
  split
  next token ht =>
    split
    next hv =>
      refine .inr ⟨rfl, by simp [localAnswers], rfl, fun a' s q hf => ?_⟩
      obtain ⟨u, t', ht', hv'⟩ := inv a' s q hf
      rw [ht] at ht'
      cases ht'
      rw [hv] at hv'
      cases hv'
    next u hv => exact .inl ⟨_, _, .token json a u h ha ⟨token, ht, hv⟩, rfl⟩
  next hnone =>
    refine .inr ⟨rfl, by simp [localAnswers], rfl, fun a' s q hf => ?_⟩
    obtain ⟨u, t', ht', -⟩ := inv a' s q hf
    exact hnone t' ht'

/-- `process_client_request` hands a message on as `Forwards` says, and
otherwise answers it locally and leaves `current_request` as it was. -/
theorem processClientRequest_cases (env : Env) (now : Int) (cur : CurrentRequest) (raw : CString) :
    (∃ a stored query, Forwards env now raw a stored query ∧
      processClientRequest env now cur raw = ⟨false, query, cur.store a stored⟩) ∨
    Refuses env now cur raw (processClientRequest env now cur raw) := by
  -- A text that is no request of any action is refused.
  have refuse : ∀ m ∈ localAnswers, (∀ json a, ¬ IsRequest env raw json a) →
      Refuses env now cur raw ⟨true, m, cur⟩ := fun m hm hno =>
    ⟨rfl, hm, rfl, fun a s q hf => by
      obtain ⟨json, hj⟩ := hf.isRequest
      exact hno json a hj⟩
  simp only [processClientRequest]
  split
  next hp =>
    exact .inr (refuse _ (by simp [localAnswers]) fun json a h => by simpa [hp] using h.parse)
  next json hp =>
  split
  next d hd =>
    split
    next hv =>
      obtain ⟨a, hcode, hf⟩ := validateRequest_iff.mp hv
      have hreq : IsRequest env raw json a := ⟨hp, ⟨d, hd, hcode⟩, hf⟩
      rw [hcode, Action.ofCode_code]
      cases a with
      | ping =>
        refine .inr ⟨rfl, by simp [localAnswers], rfl, fun a s q hfw => ?_⟩
        cases hfw with
        | validateUser j hj => cases (hreq.unique hj).2
        | createUser j hj => cases (hreq.unique hj).2
        | token j a u hj ha => obtain ⟨-, rfl⟩ := hreq.unique hj; simp [Action.needsToken] at ha
      | validateUser => exact .inl ⟨_, _, _, .validateUser json hreq, rfl⟩
      | createUser => exact .inl ⟨_, _, _, .createUser json hreq, rfl⟩
      | _ =>
        rcases processTokenRequest_cases now cur hreq rfl with ⟨s, q, hfw, he⟩ | hr
        · exact .inl ⟨_, s, q, hfw, he⟩
        · exact .inr hr
    next hv =>
      refine .inr (refuse _ (by simp [localAnswers]) fun json' a h => hv (validateRequest_iff.mpr ?_))
      obtain rfl : json = json' := by simpa [hp] using h.parse
      obtain ⟨d', hd', hc⟩ := h.action
      rw [hd] at hd'
      cases hd'
      exact ⟨a, hc, h.fields⟩
  next hnone =>
    refine .inr (refuse _ (by simp [localAnswers]) fun json' a h => ?_)
    obtain rfl : json = json' := by simpa [hp] using h.parse
    obtain ⟨d, hd, -⟩ := h.action
    exact hnone d hd

/-- A client message leaves the state of a login and the data connection as they are. -/
theorem processClientRequest_keeps (env : Env) (now : Int) (cur : CurrentRequest) (raw : CString) :
    (processClientRequest env now cur raw).current.authState = cur.authState ∧
      (processClientRequest env now cur raw).current.currentDbSock = cur.currentDbSock := by
  rcases processClientRequest_cases env now cur raw with ⟨a, stored, query, -, he⟩ | hr
  · rw [he]
    exact ⟨rfl, rfl⟩
  · rw [hr.current]
    exact ⟨rfl, rfl⟩

/-- A login request is handed on as a query for its key. -/
theorem processClientRequest_validateUser {env : Env} {now : Int} {raw : CString} {json : Json}
    (cur : CurrentRequest) (h : IsRequest env raw json .validateUser) :
    processClientRequest env now cur raw =
      ⟨false, validateUserQuery json, cur.store .validateUser json⟩ :=
  processClientRequest_isRequest now cur h

/-- A request that needs a token and has one is handed on with its user put in. -/
theorem processClientRequest_token {env : Env} {now : Int} {raw : CString} {json : Json} {a : Action}
    {u : Int} (cur : CurrentRequest) (h : IsRequest env raw json a) (ha : a.needsToken = true)
    (hu : Authorised env now json u) :
    processClientRequest env now cur raw =
      ⟨false, injectIdentity a u (json.deleteItemFromObject "token"),
        cur.store a (json.deleteItemFromObject "token")⟩ := by
  obtain ⟨token, ht, hv⟩ := hu
  rw [processClientRequest_needsToken now cur h ha]
  simp only [processTokenRequest, ht, hv]

end FinalServer
