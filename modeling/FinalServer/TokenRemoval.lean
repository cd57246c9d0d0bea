/-
What is forwarded of a request that carries a token.

The token is looked up under its exact name and removed up to case: of
several fields named `token` the first goes, which need not be the one whose
token was accepted. The other fields stay as they are (`forwarded_clean_iff`).
-/
import FinalServer.LogicGate

namespace FinalServer

open Json

/-- The field the user of the token is put into. -/
def injectedField : Action → Option CString
  | .createChat => some "created_by"
  | .addToGroupChat => some "added_by"
  | .sendMessage => some "sender_id"
  | .getChats | .getChatMessages | .exitChat => some "user_id"
  | .removeFromChat => some "removed_by"
  | _ => none

/-- The name is `token`, up to case. -/
def isTokenName (name : CString) : Bool := CString.eqNoCase "token" name

/-- The name is none that the logic server edits, up to case. -/
def isOtherName (a : Action) (name : CString) : Bool :=
  !isTokenName name && !CString.eqNoCase "last_update_timestamp" name && (injectedField a).all (!·.eqNoCase name)

/-- No token is handed on, and every other field is: its name, its value and its place. -/
structure ForwardedClean (a : Action) (request message : Json) : Prop where
  noToken : ∀ f ∈ message.fields, isTokenName f.1 = false
  others : message.fields.filter (isOtherName a ·.1) = request.fields.filter (isOtherName a ·.1)

variable {j : Json} {a : Action} {n : CString} {p : CString → Bool}

/-! ## The edits, beside the fields they are about -/

theorem filter_delete_other (h : ∀ k, n.eqNoCase k = true → p k = false) :
    (j.deleteItemFromObject n).fields.filter (p ·.1) = j.fields.filter (p ·.1) := by
  cases j with
  | object fs => exact FieldList.filter_erase_other h
  | _ => rfl

theorem filter_replaceItem_other {v : Json} (h : ∀ k, n.eqNoCase k = true → p k = false) :
    (j.replaceItemInObject n v).fields.filter (p ·.1) = j.fields.filter (p ·.1) := by
  cases j with
  | object fs => exact FieldList.filter_replace_other h (h n (CString.eqNoCase_refl n))
  | _ => rfl

theorem filter_addItem_other {v : Json} (h : p n = false) :
    (j.addItemToObject n v).fields.filter (p ·.1) = j.fields.filter (p ·.1) := by
  cases j with
  | object fs => exact FieldList.filter_add_other h
  | _ => rfl

theorem filter_nullTimestamp (h : ∀ k, CString.eqNoCase "last_update_timestamp" k = true → p k = false) :
    (nullTimestamp j).fields.filter (p ·.1) = j.fields.filter (p ·.1) := by
  simp only [nullTimestamp]
  split
  · split
    · exact filter_replaceItem_other h
    · rfl
  · rfl

/-- The injection leaves every field but those of its name and the timestamp. -/
theorem filter_injectIdentity (u : Int) (ha : a.needsToken = true)
    (hfield : ∀ f ∈ injectedField a, ∀ k, f.eqNoCase k = true → p k = false)
    (htime : ∀ k, CString.eqNoCase "last_update_timestamp" k = true → p k = false) :
    (injectIdentity a u j).fields.filter (p ·.1) = j.fields.filter (p ·.1) := by
  cases a with
  | validateUser | createUser | ping => cases ha
  | getUserInfo | getChatInfo => rfl
  | createChat | addToGroupChat | sendMessage => exact filter_replaceItem_other (hfield _ rfl)
  | getChats => exact (filter_nullTimestamp htime).trans (filter_replaceItem_other (hfield _ rfl))
  | getChatMessages =>
    exact (filter_nullTimestamp htime).trans (filter_addItem_other (hfield _ rfl _ (CString.eqNoCase_refl _)))
  | removeFromChat | exitChat => exact filter_addItem_other (hfield _ rfl _ (CString.eqNoCase_refl _))

/-! ## The forwarded request -/

/-- No edited name is another name of `token`. -/
theorem injectedField_isTokenName {f : CString} (hf : f ∈ injectedField a) :
    ∀ k, f.eqNoCase k = true → isTokenName k = false := by
  refine noCase_disjoint ?_
  cases a <;> cases hf <;> decide

/-- The fields named `token` that are handed on are all but the first. -/
theorem forwarded_tokens (u : Int) (ha : a.needsToken = true) :
    (injectIdentity a u (j.deleteItemFromObject "token")).fields.filter (isTokenName ·.1) =
      (j.fields.filter (isTokenName ·.1)).tail := by
  rw [filter_injectIdentity u ha (fun f => injectedField_isTokenName) (noCase_disjoint (by decide))]
  cases j with
  | object fs => exact FieldList.filter_erase_self
  | _ => rfl

theorem forwarded_others (u : Int) (ha : a.needsToken = true) :
    (injectIdentity a u (j.deleteItemFromObject "token")).fields.filter (isOtherName a ·.1) =
      j.fields.filter (isOtherName a ·.1) := by
  refine (filter_injectIdentity u ha (fun f hf k hk => ?_) fun k hk => ?_).trans (filter_delete_other fun k hk => ?_)
  · simp [isOtherName, Option.mem_def.mp hf, hk]
  · simp [isOtherName, hk]
  · simp [isOtherName, isTokenName, hk]

/-- An accepted token stands in a field of that name. -/
theorem Authorised.token_field {env : Env} {now u : Int} (h : Authorised env now j u) :
    j.fields.filter (isTokenName ·.1) ≠ [] := by
  obtain ⟨token, ht, -⟩ := h
  obtain ⟨k, hk, hname⟩ := FieldList.exists_mem_of_get ht
  exact List.ne_nil_of_mem (List.mem_filter.mpr ⟨hk, noCase_of_exact k hname⟩)

/-- **What is forwarded of a request with a token** is the request without its
token exactly when it has one field named `token`, in whatever case. -/
theorem forwarded_clean_iff {env : Env} {now u : Int} {raw : CString} {json : Json} (cur : CurrentRequest)
    (h : IsRequest env raw json a) (ha : a.needsToken = true) (hu : Authorised env now json u) :
    ForwardedClean a json (processClientRequest env now cur raw).message ↔
      (json.fields.filter (isTokenName ·.1)).length = 1 := by
  rw [processClientRequest_token cur h ha hu]
  have hpos := List.length_pos_of_ne_nil hu.token_field
  have hclean : ForwardedClean a json (injectIdentity a u (json.deleteItemFromObject "token")) ↔
      (json.fields.filter (isTokenName ·.1)).tail = [] := by
    rw [← forwarded_tokens u ha, List.filter_eq_nil_iff]
    exact ⟨fun hc f hf => by simp [hc.noToken f hf], fun hno => ⟨fun f hf => by simpa using hno f hf,
      forwarded_others u ha⟩⟩
  rw [hclean, ← List.length_eq_zero_iff, List.length_tail]
  omega

/-- `GET_USER_INFO` with two tokens; the second one is accepted. -/
def twoTokensText : CString := "\x7b\"action\":3,\"key\":\"alice\",\"Token\":\"\",\"token\":\"t5\"\x7d"

@[inherit_doc twoTokensText]
def twoTokensJson : Json :=
  .object [("action", .createNumber 3), ("key", .string "alice"), ("Token", .string ""), ("token", .string "t5")]

def twoTokensEnv : Env := Env.ofTables [(twoTokensText, twoTokensJson)] [("t5", { exp := 0, userId := 5 })]

theorem twoTokensJson_isRequest : IsRequest twoTokensEnv twoTokensText twoTokensJson .getUserInfo where
  parse := rfl
  action := ⟨3, rfl, rfl⟩
  fields := by decide

theorem twoTokensJson_authorised : Authorised twoTokensEnv 0 twoTokensJson 5 := ⟨"t5", rfl, rfl⟩

theorem forwarded_clean_iff_twoTokens :
    ForwardedClean .getUserInfo twoTokensJson (processClientRequest twoTokensEnv 0 (.fresh 4) twoTokensText).message ↔
      (twoTokensJson.fields.filter (isTokenName ·.1)).length = 1 :=
  forwarded_clean_iff (.fresh 4) twoTokensJson_isRequest rfl twoTokensJson_authorised

/-- The accepted token itself is handed on. -/
theorem accepted_token_forwarded :
    ¬ ∀ (env : Env) (now : Int) (cur : CurrentRequest) (raw : CString) (json : Json) (a : Action) (u : Int),
      IsRequest env raw json a → a.needsToken = true → Authorised env now json u →
      ForwardedClean a json (processClientRequest env now cur raw).message := by
  intro h
  have hclean := h twoTokensEnv 0 (.fresh 4) twoTokensText twoTokensJson .getUserInfo 5
    twoTokensJson_isRequest rfl twoTokensJson_authorised
  exact absurd (hclean.noToken ("token", .string "t5") (by decide)) (by decide)

end FinalServer
