/-
Whom a forwarded request is carried out for.

The logic server puts the user of the token into a request in two ways:
four actions replace a field the client may have sent, and the others add
one at the end, behind any field of that name the client has sent. The data
server takes the first match. It also looks the action up without regard to
case where the logic server looks it up exactly, so the two can read
different actions, with different identity fields.
`forwarded_actingUser_iff` says when the acting user is the token's all the
same.
-/
import FinalServer.DataRequest
import FinalServer.LogicGate

namespace FinalServer

open Json

/-- The actions whose identity field is replaced, not added. -/
def Action.replacesIdentity : Action → Bool
  | .createChat | .addToGroupChat | .sendMessage | .getChats => true
  | _ => false

variable {j : Json} {a a' : Action} {f n : CString} {u : Int}

/-! ## What the edits leave alone -/

theorem looksSame_delete (h : n.eqNoCase f = false) : LooksSame f (j.deleteItemFromObject n) j :=
  ⟨getObjectItem_delete_other h, getCaseSensitive_delete_other h⟩

theorem looksSame_replace {v : Json} (h : n.eqNoCase f = false) : LooksSame f (j.replaceItemInObject n v) j :=
  ⟨getObjectItem_replace_other h, getCaseSensitive_replace_other h⟩

theorem looksSame_add {v : Json} (h : n.eqNoCase f = false) : LooksSame f (j.addItemToObject n v) j :=
  ⟨getObjectItem_add_other h, getCaseSensitive_add_other h⟩

theorem LooksSame.trans {j₁ j₂ j₃ : Json} (h : LooksSame f j₁ j₂) (h' : LooksSame f j₂ j₃) :
    LooksSame f j₁ j₃ := ⟨h.1.trans h'.1, h.2.trans h'.2⟩

theorem looksSame_nullTimestamp (h : CString.eqNoCase "last_update_timestamp" f = false) :
    LooksSame f (nullTimestamp j) j := by
  simp only [nullTimestamp]
  split
  · split
    · exact looksSame_replace h
    · exact ⟨rfl, rfl⟩
  · exact ⟨rfl, rfl⟩

/-- The injection touches the identity field, and the timestamp of `GET_CHATS`. -/
theorem looksSame_injectIdentity (hf : identityField a = some f) (h : f.eqNoCase n = false)
    (ht : a = .getChats → CString.eqNoCase "last_update_timestamp" n = false) :
    LooksSame n (injectIdentity a u j) j := by
  cases a with
  | createChat | addToGroupChat | sendMessage => cases hf; exact looksSame_replace h
  | getChats => cases hf; exact (looksSame_nullTimestamp (ht rfl)).trans (looksSame_replace h)
  | removeFromChat | exitChat => cases hf; exact looksSame_add h
  | _ => cases hf

/-- The forwarded request reads as the client's, under every name that is none
of those the logic server edits. -/
theorem looksSame_forwarded (hf : identityField a = some f) (h : f.eqNoCase n = false)
    (ht : a = .getChats → CString.eqNoCase "last_update_timestamp" n = false)
    (htok : CString.eqNoCase "token" n = false) :
    LooksSame n (injectIdentity a u (j.deleteItemFromObject "token")) j :=
  (looksSame_injectIdentity hf h ht).trans (looksSame_delete htok)

/-! ## What the injection writes -/

/-- A replaced identity reads as the token's user, where there was something to replace. -/
theorem replaced_lookup (hf : identityField a = some f) (hr : a.replacesIdentity = true) :
    (injectIdentity a u j).getObjectItem f = (j.getObjectItem f).map (fun _ => createNumber u) ∧
      (injectIdentity a u j).getObjectItemCaseSensitive f =
        (j.getObjectItem f).map fun _ => createNumber u := by
  cases a with
  | createChat | addToGroupChat | sendMessage =>
    cases hf
    exact ⟨getObjectItem_replace_self, getCaseSensitive_replace_self⟩
  | getChats =>
    cases hf
    have ht := looksSame_nullTimestamp (f := "user_id")
      (j := j.replaceItemInObject "user_id" (createNumber u)) (by decide)
    exact ⟨ht.1.trans getObjectItem_replace_self, ht.2.trans getCaseSensitive_replace_self⟩
  | _ => cases hr

theorem replaced_identityItem (hf : identityField a = some f) (hr : a.replacesIdentity = true)
    (hsame : identityField a' = some f) :
    identityItem a' (injectIdentity a u j) = (j.getObjectItem f).map fun _ => createNumber u := by
  obtain ⟨hci, hcs⟩ := replaced_lookup (j := j) (u := u) hf hr
  simp only [identityItem, hsame, Option.bind_eq_bind, Option.bind_some, hci, hcs, ite_self]

/-- An added identity stands behind the fields of its name that were there. -/
theorem added_identity (fs : List (CString × Json)) (hf : identityField a = some f)
    (hr : a.replacesIdentity = false) :
    (injectIdentity a u (object fs)).getObjectItem f =
        ((object fs).getObjectItem f).or (some (createNumber u)) ∧
      (injectIdentity a u (object fs)).getObjectItemCaseSensitive f =
        ((object fs).getObjectItemCaseSensitive f).or (some (createNumber u)) := by
  cases a with
  | removeFromChat | exitChat => cases hf; exact ⟨getObjectItem_add_self, getCaseSensitive_add_self⟩
  | createChat | addToGroupChat | sendMessage | getChats => cases hr
  | _ => cases hf

/-- The actions of an added identity are looked up exactly. -/
theorem identityItem_added (hf : identityField a = some f) (hr : a.replacesIdentity = false)
    (hsame : identityField a' = some f) : identityItem a' j = j.getObjectItemCaseSensitive f := by
  cases a <;> cases hr <;> cases hf <;> cases a' <;> first
    | rfl
    | exact absurd hsame (by decide)

/-! ## The names the two servers use -/

/-- A field an action reads that carries an identity name, up to case, is its own identity field. -/
theorem paramNames_identity (hf : identityField a = some f) (hn : n ∈ paramNames a')
    (h : f.eqNoCase n = true) : n = f ∧ identityField a' = some f := by
  have : ∀ a ∈ Action.all, ∀ a' ∈ Action.all, ∀ n ∈ paramNames a',
      (identityField a).all fun f => !f.eqNoCase n || (n == f && identityField a' == some f) := by
    decide
  have mem : ∀ a, a ∈ Action.all := by intro a; cases a <;> decide
  have h' := this a (mem a) a' (mem a') n hn
  simpa [hf, h] using h'

theorem paramNames_token (hn : n ∈ paramNames a) : CString.eqNoCase "token" n = false := by
  revert n
  cases a <;> decide

/-- Of the actions with an acting user only `GET_CHATS` reads a timestamp. -/
theorem paramNames_timestamp (hf : identityField a = some f) (ha : a ≠ .getChats) (hn : n ∈ paramNames a) :
    CString.eqNoCase "last_update_timestamp" n = false := by
  revert n
  cases a with
  | getChats => exact absurd rfl ha
  | createChat | addToGroupChat | sendMessage | removeFromChat | exitChat => decide
  | _ => cases hf

/-! ## The acting user of a forwarded request -/

/-- What the data server is sent for a request of `a` with a token of `u`. -/
def forwarded (a : Action) (u : Int) (json : Json) : Json :=
  injectIdentity a u (json.deleteItemFromObject "token")

theorem queryAction_forwarded (hf : identityField a = some f) :
    queryAction (forwarded a u j) = queryAction j := by
  have hact : f.eqNoCase "action" = false := by cases a <;> cases hf <;> decide
  have h := (looksSame_forwarded (u := u) (j := j) hf hact (fun _ => by decide) (by decide)).1
  simp only [queryAction, forwarded, h]

/-- Where the identity fields differ the acting user is the client's. -/
theorem actingUser_forwarded_other (hf : identityField a = some f) (hf' : identityField a' ≠ none)
    (hne : identityField a' ≠ some f) : actingUser a' (forwarded a u j) = actingUser a' j := by
  refine actingUser_congr fun n hn => looksSame_forwarded hf ?_ ?_ (paramNames_token hn)
  · by_contra h
    exact hne (paramNames_identity hf hn (by simpa using h)).2
  · rintro rfl
    obtain ⟨f', hf'⟩ := Option.ne_none_iff_exists'.mp hf'
    refine paramNames_timestamp hf' ?_ hn
    rintro rfl
    exact hne hf

/-- An added identity is shadowed by one the client has put in. -/
theorem actingUser_forwarded_shadowed {i : Json} (hf : identityField a = some f)
    (hr : a.replacesIdentity = false) (hsame : identityField a' = some f)
    (h : j.getObjectItemCaseSensitive f = some i) :
    actingUser a' (forwarded a u j) = actingUser a' j := by
  have htok : CString.eqNoCase "token" f = false := by cases a <;> cases hf <;> decide
  have hdel := looksSame_delete (j := j) htok
  have ha : a ≠ .getChats := by rintro rfl; cases hr
  refine actingUser_congr fun n hn => ?_
  by_cases hc : f.eqNoCase n = true
  · -- The name is the identity field itself: the added one is behind the client's.
    obtain ⟨rfl, -⟩ := paramNames_identity hf hn hc
    obtain ⟨fs, hfs⟩ := exists_object_of_get (hdel.2.trans h)
    have hadd := added_identity (u := u) fs hf hr
    rw [← hfs, hdel.1, hdel.2, h] at hadd
    obtain ⟨i', hi'⟩ := Option.isSome_iff_exists.mp (getObjectItem_isSome h)
    rw [hi'] at hadd
    exact ⟨hadd.1.trans hi'.symm, hadd.2.trans h.symm⟩
  · exact looksSame_forwarded hf (by simpa using hc) (fun h => absurd h ha) (paramNames_token hn)

/-- Otherwise an identity the injection wrote is the token's user. -/
theorem actingUser_forwarded_injected {v : Int} (hf : identityField a = some f)
    (hsame : identityField a' = some f) (hobj : ∃ fs, j = object fs)
    (hr : a.replacesIdentity = true ∨ j.getObjectItemCaseSensitive f = none)
    (hlo : INT_MIN ≤ u) (hhi : u ≤ INT_MAX) (h : actingUser a' (forwarded a u j) = some v) : v = u := by
  obtain ⟨i, hi, rfl⟩ := actingUser_value h
  by_cases hra : a.replacesIdentity = true
  · simp only [forwarded, replaced_identityItem hf hra hsame, Option.map_eq_some_iff] at hi
    obtain ⟨_, -, rfl⟩ := hi
    exact valueint_createNumber hlo hhi
  · have hra : a.replacesIdentity = false := by simpa using hra
    have hnone := hr.resolve_left (by simp [hra])
    have htok : CString.eqNoCase "token" f = false := by cases a <;> cases hf <;> decide
    obtain ⟨fs, rfl⟩ := hobj
    have hadd := (added_identity (u := u) (FieldList.erase (CString.eqNoCase "token") fs) hf hra).2
    rw [identityItem_added hf hra hsame] at hi
    rw [show forwarded a u (object fs) = injectIdentity a u (object (FieldList.erase _ fs)) from rfl, hadd,
      show object (FieldList.erase _ fs) = (object fs).deleteItemFromObject "token" from rfl,
      (looksSame_delete htok).2, hnone] at hi
    obtain rfl := Option.some.inj hi
    exact valueint_createNumber hlo hhi

variable {env : Env} {now : Int} {raw : CString} {json : Json}

theorem IsRequest.isObject (h : IsRequest env raw json a) : ∃ fs, json = object fs := by
  obtain ⟨d, hd, -⟩ := h.action
  exact exists_object_of_get hd

theorem identityField_needsToken (h : identityField a ≠ none) : a.needsToken = true := by
  cases a <;> first | rfl | exact absurd rfl h

theorem actingUser_identityField {v : Int} (h : actingUser a j = some v) : identityField a ≠ none := by
  obtain ⟨i, hi, -⟩ := actingUser_value h
  intro hn
  simp [identityItem, hn] at hi

/-- **Whom a forwarded request acts for.** The data server reads the token's
user, or none, as the acting user of the forwarded request exactly when the
logic server replaces the very field the data server reads, or the client's
own request names nobody else where the data server looks. -/
theorem forwarded_actingUser_iff (cur : CurrentRequest) (h : IsRequest env raw json a)
    (ha : identityField a ≠ none) (hu : Authorised env now json u) :
    (∀ v, readActingUser (processClientRequest env now cur raw).message = some v → v = u) ↔
      (a.replacesIdentity = true ∧ ∃ a', queryAction json = some a' ∧ identityField a' = identityField a) ∨
        ∀ v, readActingUser json = some v → v = u := by
  rw [processClientRequest_token cur h (identityField_needsToken ha) hu]
  obtain ⟨f, hf⟩ := Option.ne_none_iff_exists'.mp ha
  obtain ⟨t, -, ht⟩ := hu
  obtain ⟨hlo, hhi⟩ := validateToken_range ht
  simp only [readActingUser, Option.bind_eq_some_iff]
  rw [show injectIdentity a u (json.deleteItemFromObject "token") = forwarded a u json from rfl,
    queryAction_forwarded hf, hf]
  constructor
  · intro hall
    by_cases hrep : a.replacesIdentity = true ∧ ∃ a', queryAction json = some a' ∧ identityField a' = some f
    · exact .inl hrep
    refine .inr ?_
    rintro v ⟨a', ha', hv⟩
    refine hall v ⟨a', ha', ?_⟩
    by_cases hsame : identityField a' = some f
    · have hadd : a.replacesIdentity = false := by
        by_contra hr
        exact hrep ⟨by simpa using hr, a', ha', hsame⟩
      obtain ⟨i, hi, -⟩ := actingUser_value hv
      rw [identityItem_added hf hadd hsame] at hi
      rw [actingUser_forwarded_shadowed hf hadd hsame hi, hv]
    · rw [actingUser_forwarded_other hf (actingUser_identityField hv) hsame, hv]
  · rintro hcond v ⟨a', ha', hv⟩
    by_cases hsame : identityField a' = some f
    · by_cases hnone : a.replacesIdentity = true ∨ json.getObjectItemCaseSensitive f = none
      · exact actingUser_forwarded_injected hf hsame h.isObject hnone hlo hhi hv
      · obtain ⟨hadd, hsome⟩ := not_or.mp hnone
        obtain ⟨i, hi⟩ := Option.ne_none_iff_exists'.mp hsome
        rw [actingUser_forwarded_shadowed hf (by simpa using hadd) hsame hi] at hv
        exact (hcond.resolve_left fun hr => hadd hr.1) v ⟨a', ha', hv⟩
    · rw [actingUser_forwarded_other hf (actingUser_identityField hv) hsame] at hv
      refine (hcond.resolve_left ?_) v ⟨a', ha', hv⟩
      rintro ⟨-, b, hb, hbf⟩
      rw [ha'] at hb
      cases hb
      exact hsame hbf

/-! ## Leaving a chat for somebody else -/

/-- User 5 asks to leave chat 3 and puts user 7's id into the request. -/
def exitText : CString := "\x7b\"action\":11,\"chat_id\":3,\"user_id\":7,\"token\":\"t5\"\x7d"

@[inherit_doc exitText]
def exitJson : Json :=
  .object [("action", .createNumber 11), ("chat_id", .createNumber 3), ("user_id", .createNumber 7),
    ("token", .string "t5")]

def exitEnv : Env := Env.ofTables [(exitText, exitJson)] [("t5", { exp := 0, userId := 5 })]

theorem exitJson_isRequest : IsRequest exitEnv exitText exitJson .exitChat where
  parse := rfl
  action := ⟨11, rfl, rfl⟩
  fields := by decide

theorem exitJson_authorised : Authorised exitEnv 0 exitJson 5 := ⟨"t5", rfl, rfl⟩

theorem forwarded_actingUser_iff_exit :
    (∀ v, readActingUser (processClientRequest exitEnv 0 (.fresh 4) exitText).message = some v → v = 5) ↔
      (Action.replacesIdentity .exitChat = true ∧
        ∃ a', queryAction exitJson = some a' ∧ identityField a' = identityField .exitChat) ∨
        ∀ v, readActingUser exitJson = some v → v = 5 :=
  forwarded_actingUser_iff (.fresh 4) exitJson_isRequest (by decide) exitJson_authorised

/-- The forwarded request takes user 7 out of the chat, on user 5's token. -/
theorem exit_for_another_user :
    ¬ ∀ (env : Env) (now : Int) (cur : CurrentRequest) (raw : CString) (json : Json) (a : Action) (u : Int),
      IsRequest env raw json a → identityField a ≠ none → Authorised env now json u →
      ∀ v, readActingUser (processClientRequest env now cur raw).message = some v → v = u := by
  intro h
  have h7 : readActingUser (processClientRequest exitEnv 0 (.fresh 4) exitText).message = some 7 := by decide
  exact absurd (h exitEnv 0 (.fresh 4) exitText exitJson .exitChat 5 exitJson_isRequest (by decide)
    exitJson_authorised 7 h7) (by decide)

end FinalServer
