/-
Whether the data server accepts what the logic server lets through.

The logic server checks a request against a table of names; the data server
checks types, and asks for the identity field on top. A request that is well
formed by the API reference has no identity field: the logic server is to
put it in. `forwarded_accepted_iff` says for which actions the two checks
agree.
-/
import FinalServer.Identity

namespace FinalServer

open Json

/-- The types the API reference gives to request fields. -/
inductive FieldType
  | id | ids | flag | text | timestamp
  deriving DecidableEq

def documentedType (name : CString) : FieldType :=
  if name = "chat_id" then .id
  else if name = "participant_ids" then .ids
  else if name = "is_group" then .flag
  else if name = "last_update_timestamp" then .timestamp
  else .text

def isId (j : Json) : Bool := j.isNumber && 0 < j.valueint

/-- The value has the type. -/
def FieldType.admits : FieldType → Json → Bool
  | .id, j => isId j
  | .ids, j => j.isArray && 0 < j.items.length && j.items.all isId
  | .flag, j => j.isBool
  | .text, j => j.isString
  | .timestamp, j => j.isString || j.isNull

/-- How many ids a request may list. -/
def sizeLimit (a : Action) (json : Json) : Nat :=
  if a = .createChat then
    if json.getObjectItemCaseSensitive "is_group" = some (.bool true) then MAX_PARTICIPANTS - 2 else 1
  else MAX_PARTICIPANTS

/-- The field is there under its exact name, with a value of its documented type. -/
def Typed (name : CString) (json : Json) : Prop :=
  ∃ i, json.getObjectItemCaseSensitive name = some i ∧ (documentedType name).admits i = true

/-- The required fields are there, with values of the documented types and
ranges, and the identity field is left to the server. -/
structure WellFormed (a : Action) (json : Json) : Prop where
  typed : ∀ n ∈ requiredFields a, Typed n json
  size : ∀ ids, json.getObjectItemCaseSensitive "participant_ids" = some (.array ids) →
    ids.length ≤ sizeLimit a json
  noIdentity : ∀ f, identityField a = some f → json.getObjectItem f = none

variable {j json : Json} {a : Action} {f n : CString} {u : Int}

/-! ## The forwarded fields -/

/-- A timestamp stays a timestamp or becomes `null`. -/
theorem nullTimestamp_lookup :
    (nullTimestamp j).getObjectItemCaseSensitive "last_update_timestamp" =
        j.getObjectItemCaseSensitive "last_update_timestamp" ∨
      (nullTimestamp j).getObjectItemCaseSensitive "last_update_timestamp" = some .null := by
  simp only [nullTimestamp]
  split
  next s hs =>
    split
    · exact .inr (by rw [getCaseSensitive_replace_self, hs]; rfl)
    · exact .inl rfl
  next => exact .inl rfl

theorem Typed.congr {j' : Json} (h : Typed n j) (hs : LooksSame n j' j) : Typed n j' := by
  obtain ⟨i, hi, ht⟩ := h
  exact ⟨i, hs.2.trans hi, ht⟩

theorem Typed.nullTimestamp (h : Typed n j)
    (hn : n = "last_update_timestamp" ∨ CString.eqNoCase "last_update_timestamp" n = false) :
    Typed n (nullTimestamp j) := by
  rcases hn with rfl | hn
  · rcases nullTimestamp_lookup (j := j) with hl | hl
    · obtain ⟨i, hi, ht⟩ := h
      exact ⟨i, hl.trans hi, ht⟩
    · exact ⟨.null, hl, rfl⟩
  · exact h.congr (looksSame_nullTimestamp hn)

/-- The names the logic server removes, replaces or adds, besides the timestamp. -/
def editedNames : List CString := ["token", "created_by", "added_by", "sender_id", "user_id", "removed_by"]

/-- None of them is, up to case, a required field. -/
theorem requiredFields_edited (hn : n ∈ requiredFields a) :
    (∀ g ∈ editedNames, CString.eqNoCase g n = false) ∧
    (n = "last_update_timestamp" ∨ CString.eqNoCase "last_update_timestamp" n = false) := by
  revert n
  cases a <;> decide

/-- A required field is forwarded with a value of its type. -/
theorem forwarded_typed (h : Typed n json) (hn : n ∈ requiredFields a) : Typed n (forwarded a u json) := by
  obtain ⟨hedit, hts⟩ := requiredFields_edited hn
  have hdel : Typed n (json.deleteItemFromObject "token") :=
    h.congr (looksSame_delete (hedit _ (by simp [editedNames])))
  cases a with
  | getUserInfo | getChatInfo => exact hdel
  | createChat | addToGroupChat | sendMessage => exact hdel.congr (looksSame_replace (hedit _ (by simp [editedNames])))
  | getChats => exact (hdel.congr (looksSame_replace (hedit _ (by simp [editedNames])))).nullTimestamp hts
  | getChatMessages => exact (hdel.congr (looksSame_add (hedit _ (by simp [editedNames])))).nullTimestamp hts
  | removeFromChat | exitChat | validateUser | createUser | ping =>
    exact hdel.congr (looksSame_add (hedit _ (by simp [editedNames])))

/-- The identity field the server adds is the first one of its name. -/
theorem forwarded_identity_added (hobj : ∃ fs, json = object fs) (hf : identityField a = some f)
    (hr : a.replacesIdentity = false) (hno : json.getObjectItem f = none) :
    (forwarded a u json).getObjectItemCaseSensitive f = some (createNumber u) := by
  have htok : CString.eqNoCase "token" f = false := by cases a <;> cases hf <;> decide
  have hcs : json.getObjectItemCaseSensitive f = none := by
    by_contra hne
    obtain ⟨i, hi⟩ := Option.ne_none_iff_exists'.mp hne
    simpa [hno] using getObjectItem_isSome hi
  obtain ⟨fs, rfl⟩ := hobj
  have hadd := (added_identity (u := u) (FieldList.erase (CString.eqNoCase "token") fs) hf hr).2
  rw [show object (FieldList.erase _ fs) = (object fs).deleteItemFromObject "token" from rfl,
    (looksSame_delete htok).2, hcs] at hadd
  exact hadd

/-- Where the server replaces an identity field that is not there, none is forwarded. -/
theorem forwarded_identity_missing (hf : identityField a = some f) (hr : a.replacesIdentity = true)
    (hno : json.getObjectItem f = none) : identityItem a (forwarded a u json) = none := by
  have htok : CString.eqNoCase "token" f = false := by cases a <;> cases hf <;> decide
  rw [forwarded, replaced_identityItem hf hr hf, (looksSame_delete htok).1, hno]
  rfl

/-! ## Agreement of the two checks -/

theorem Typed.id (h : Typed n j) (hn : documentedType n = .id) :
    ∃ i, j.getObjectItemCaseSensitive n = some i ∧ i.isNumber = true := by
  obtain ⟨i, hi, ht⟩ := h
  simp only [hn, FieldType.admits, isId, Bool.and_eq_true] at ht
  exact ⟨i, hi, ht.1⟩

theorem Typed.ids (h : Typed n j) (hn : documentedType n = .ids) :
    ∃ i, j.getObjectItemCaseSensitive n = some i ∧ i.isArray = true := by
  obtain ⟨i, hi, ht⟩ := h
  simp only [hn, FieldType.admits, Bool.and_eq_true] at ht
  exact ⟨i, hi, ht.1.1⟩

theorem Typed.text (h : Typed n j) (hn : documentedType n = .text) :
    ∃ s, j.getObjectItemCaseSensitive n = some (.string s) := by
  obtain ⟨i, hi, ht⟩ := h
  rw [hn] at ht
  cases i with
  | string s => exact ⟨s, hi⟩
  | _ => cases ht

theorem Typed.timestamp (h : Typed n j) (hn : documentedType n = .timestamp) :
    ∃ i, j.getObjectItemCaseSensitive n = some i ∧ (i.isString = true ∨ i.isNull = true) := by
  obtain ⟨i, hi, ht⟩ := h
  simp only [hn, FieldType.admits, Bool.or_eq_true] at ht
  exact ⟨i, hi, ht⟩

/-- With its required fields and, where it has one, an identity field of user `u`
the request of an action that is not replaced passes the check for `u`. -/
theorem accepted_of_typed (ha : a.needsToken = true) (hr : a.replacesIdentity = false)
    (ht : ∀ n ∈ requiredFields a, Typed n j) (hlo : INT_MIN ≤ u) (hhi : u ≤ INT_MAX)
    (hid : ∀ f, identityField a = some f → j.getObjectItemCaseSensitive f = some (createNumber u)) :
    parameterCheck a j = true ∧ (identityField a ≠ none → actingUser a j = some u) := by
  have hu := valueint_createNumber hlo hhi
  cases a with
  | createChat | addToGroupChat | sendMessage | getChats => cases hr
  | validateUser | createUser | ping => cases ha
  | getUserInfo =>
    obtain ⟨s, hs⟩ := (ht "key" (by decide)).text (by decide)
    refine ⟨?_, fun h => absurd rfl h⟩
    simp [parameterCheck, queryKey, hs, valuestring]
  | getChatMessages =>
    obtain ⟨i, hi, hn⟩ := (ht "chat_id" (by decide)).id (by decide)
    obtain ⟨t, ht, hts⟩ := (ht "last_update_timestamp" (by decide)).timestamp (by decide)
    refine ⟨?_, fun h => absurd rfl h⟩
    simp [parameterCheck, getChatMessagesParams, numberParam, timestampParam, hi, hn, ht, hts]
  | getChatInfo =>
    obtain ⟨i, hi, hn⟩ := (ht "chat_id" (by decide)).id (by decide)
    refine ⟨?_, fun h => absurd rfl h⟩
    simp [parameterCheck, getChatInfoParams, numberParam, hi, hn]
  | removeFromChat =>
    obtain ⟨i, hi, hn⟩ := (ht "chat_id" (by decide)).id (by decide)
    obtain ⟨p, hp, hpa⟩ := (ht "participant_ids" (by decide)).ids (by decide)
    have hr := hid _ rfl
    simp [parameterCheck, actingUser, removeFromChatParams, hi, hp, hpa, hr, hu]
  | exitChat =>
    obtain ⟨i, hi, hn⟩ := (ht "chat_id" (by decide)).id (by decide)
    have hr := hid _ rfl
    simp [parameterCheck, actingUser, exitChatParams, numberParam, hi, hn, hr, hu, isNumber_createNumber]

/-- **Which well-formed requests the data server accepts.** The check of a
forwarded request of `a` succeeds, with the token's user as the acting user,
exactly for the actions whose identity the logic server does not replace. -/
theorem forwarded_accepted_iff {env : Env} {now : Int} {raw : CString} (cur : CurrentRequest)
    (h : IsRequest env raw json a) (ha : a.needsToken = true) (hu : Authorised env now json u)
    (hw : WellFormed a json) :
    (parameterCheck a (processClientRequest env now cur raw).message = true ∧
      (identityField a ≠ none →
        actingUser a (processClientRequest env now cur raw).message = some u)) ↔
      a.replacesIdentity = false := by
  rw [processClientRequest_token cur h ha hu]
  obtain ⟨t, -, ht⟩ := hu
  obtain ⟨hlo, hhi⟩ := validateToken_range ht
  rw [show injectIdentity a u (json.deleteItemFromObject "token") = forwarded a u json from rfl]
  constructor
  · rintro ⟨-, hact⟩
    by_contra hr
    have hr : a.replacesIdentity = true := by simpa using hr
    obtain ⟨f, hf⟩ : ∃ f, identityField a = some f := by cases a <;> cases hr <;> exact ⟨_, rfl⟩
    obtain ⟨i, hi, -⟩ := actingUser_value (hact (by simp [hf]))
    rw [forwarded_identity_missing hf hr (hw.noIdentity f hf)] at hi
    cases hi
  · intro hr
    exact accepted_of_typed ha hr (fun n hn => forwarded_typed (hw.typed n hn) hn) hlo hhi
      fun f hf => forwarded_identity_added h.isObject hf hr (hw.noIdentity f hf)

/-! ## A message without its sender -/

/-- A `SEND_MESSAGE` that leaves `sender_id` to the logic server, as text and as
what it parses to. -/
def messageText : CString :=
  "\x7b\"action\":6,\"token\":\"t5\",\"chat_id\":3,\"content\":\"Hi\",\"message_type\":\"text\"\x7d"

@[inherit_doc messageText]
def messageJson : Json :=
  .object [("action", .createNumber 6), ("token", .string "t5"), ("chat_id", .createNumber 3),
    ("content", .string "Hi"), ("message_type", .string "text")]

def messageEnv : Env := Env.ofTables [(messageText, messageJson)] [("t5", { exp := 0, userId := 5 })]

theorem messageJson_isRequest : IsRequest messageEnv messageText messageJson .sendMessage where
  parse := rfl
  action := ⟨6, rfl, rfl⟩
  fields := by decide

theorem messageJson_authorised : Authorised messageEnv 0 messageJson 5 := ⟨"t5", rfl, rfl⟩

theorem messageJson_wellFormed : WellFormed .sendMessage messageJson where
  typed n hn := by
    rcases List.mem_cons.mp hn with rfl | hn
    · exact ⟨.createNumber 3, rfl, rfl⟩
    obtain rfl | rfl := List.mem_pair.mp hn
    · exact ⟨.string "Hi", rfl, rfl⟩
    · exact ⟨.string "text", rfl, rfl⟩
  size ids h := by cases h
  noIdentity f hf := by cases hf; rfl

theorem forwarded_accepted_iff_message :
    (parameterCheck .sendMessage (processClientRequest messageEnv 0 (.fresh 4) messageText).message = true ∧
      (identityField .sendMessage ≠ none → actingUser .sendMessage
        (processClientRequest messageEnv 0 (.fresh 4) messageText).message = some 5)) ↔
      Action.replacesIdentity .sendMessage = false :=
  forwarded_accepted_iff (.fresh 4) messageJson_isRequest rfl messageJson_authorised messageJson_wellFormed

/-- A message of the documented form is refused: nobody puts a `sender_id` in. -/
theorem documented_message_refused :
    ¬ ∀ (env : Env) (now : Int) (cur : CurrentRequest) (raw : CString) (json : Json) (a : Action) (u : Int),
      IsRequest env raw json a → a.needsToken = true → Authorised env now json u → WellFormed a json →
      parameterCheck a (processClientRequest env now cur raw).message = true ∧
        (identityField a ≠ none →
          actingUser a (processClientRequest env now cur raw).message = some u) := by
  intro h
  exact absurd (h messageEnv 0 (.fresh 4) messageText messageJson .sendMessage 5 messageJson_isRequest rfl
    messageJson_authorised messageJson_wellFormed).1 (by decide)

end FinalServer
