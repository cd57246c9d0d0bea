/-
What the functions of `user_manager.c` do with plain text.

A statement is cut at 511 bytes, so a user is stored if names and password
fit together, and a key is looked up if it fits twice. The two lookups of a
login are of different lengths, and a cut one may still be a statement; but
at no length are both cut and both still statements.
-/
import FinalServer.Membership

namespace FinalServer

open UserSql (Plain QUERY_SIZE passwordFirst infoFirst selectText insertText readCondition query cutTails)

/-- The longest key that both lookups of a login take whole. -/
def MAX_KEY_LENGTH : Nat := 217

variable {m : Mysql} {d : Db} {key : CString}

namespace Tables

variable {t : Tables}

/-- The user a key leads to: the first one whose name or e-mail it is. -/
def findKey (t : Tables) (key : CString) : Option UserRow :=
  t.users.find? fun r => r.username = key ∨ r.email = key

theorem head?_selectUsers (key : CString) :
    (t.selectUsers m (.usernameOrEmail key key)).head? = t.findKey key := List.head?_filter

/-- Users are only ever added, behind those there are. -/
theorem exec_users_grow (q : Query) : t.users <+: (exec m q t).2.users := by
  by_cases hq : q.keepsUsers
  · exact exec_users hq ▸ List.prefix_rfl
  cases q with
  | insertUser sql =>
    simp only [exec]
    split
    · simp only [insertUser]
      split
      · exact List.prefix_rfl
      · exact List.prefix_append _ _
    · exact List.prefix_rfl
  | _ => exact absurd trivial hq

end Tables

theorem Db.run_users_grow {α : Type} (p : DbProg α) : d.users <+: (d.run m p).2.users :=
  Db.run_invariant (I := fun t => d.users <+: t.users) p.only_true
    (fun q _ _ _ h => h.trans (Tables.exec_users_grow q)) List.prefix_rfl

/-- Whoever is a user stays one. -/
theorem exec_serve_users (calls : List Call) : d.users <+: (Run.exec (Db.serve m) d calls).users := by
  induction calls generalizing d with
  | nil => exact List.prefix_rfl
  | cons call calls ih => exact (Db.run_users_grow (d := d.tick call.elapsed) _).trans ih

/-! ## Storing a user -/

section Store

variable {u : NewUser}

/-- The three texts need no escape in a statement. -/
structure NewUser.Plain (u : NewUser) : Prop where
  username : UserSql.Plain u.username
  email : UserSql.Plain u.email
  hashPassword : UserSql.Plain u.hashPassword

/-- Plain texts are stored as they come, if they fit the statement together. -/
theorem run_createUser (h : u.Plain) :
    (d.run m (createUser u)).1 =
        (decide ((insertText u.username u.email u.hashPassword).length < QUERY_SIZE) &&
          (d.insertUser u.username u.email u.hashPassword).1) ∧
      ((d.run m (createUser u)).1 = true →
        (d.run m (createUser u)).2.users = d.users ++ [⟨d.nextUserId, u.username, u.email, u.hashPassword⟩]) := by
  have hexec : d.run m (createUser u) =
      d.exec m (.insertUser (query (insertText u.username u.email u.hashPassword))) := by
    rw [createUser, Db.run_mysqlQuery]
  simp only [hexec, Db.exec, Tables.exec, UserSql.readInsert_query h.username h.email h.hashPassword]
  by_cases hfits : (insertText u.username u.email u.hashPassword).length < QUERY_SIZE
  · simp only [hfits, if_true, decide_true, Bool.true_and, true_and]
    simp only [Tables.insertUser]
    split
    · simp
    · exact fun _ => rfl
  · simp only [hfits, if_false]
    exact ⟨rfl, by simp⟩

end Store

/-! ## Looking a key up -/

theorem length_selectText (first key : CString) :
    (selectText first key).length = first.length + 2 * key.length + 15 := by
  simp only [selectText, CString.length_append]
  have h₁ : CString.length "' OR email = '" = 14 := by decide
  have h₂ : CString.length "'" = 1 := by decide
  omega

theorem length_passwordFirst : passwordFirst.length = 59 := by decide

theorem length_infoFirst : infoFirst.length = 61 := by decide

theorem run_validateUser (hk : Plain key) (hlen : key.length ≤ MAX_KEY_LENGTH) :
    d.run m (validateUser key) =
      ((d.findKey key).bind fun row => if row.userId ≠ 1 then some (row.passwordHash.take 64) else none, d) := by
  have hfits : (selectText passwordFirst key).length < QUERY_SIZE := by
    rw [length_selectText, length_passwordFirst, QUERY_SIZE]
    rw [MAX_KEY_LENGTH] at hlen
    omega
  have hans : (Tables.exec m (.selectPassword (query (selectText passwordFirst key))) d.toTables).1 =
      some (d.selectUsers m (.usernameOrEmail key key)) := by
    simp only [Tables.exec, UserSql.readCondition_fits hk hfits, Option.map_some]
  rw [validateUser, Db.run_query_bind _ hans, ← Tables.head?_selectUsers (m := m)]
  cases d.selectUsers m (.usernameOrEmail key key) <;> rfl

theorem run_getUserInfo (hk : Plain key) (hlen : key.length ≤ MAX_KEY_LENGTH) :
    d.run m (getUserInfo key) = (d.findKey key, d) := by
  have hfits : (selectText infoFirst key).length < QUERY_SIZE := by
    rw [length_selectText, length_infoFirst, QUERY_SIZE]
    rw [MAX_KEY_LENGTH] at hlen
    omega
  have hans : (Tables.exec m (.selectUserInfo (query (selectText infoFirst key))) d.toTables).1 =
      some (d.selectUsers m (.usernameOrEmail key key)) := by
    simp only [Tables.exec, UserSql.readCondition_fits hk hfits, Option.map_some]
  rw [getUserInfo, Db.run_query_bind _ hans, ← Tables.head?_selectUsers (m := m)]
  cases d.selectUsers m (.usernameOrEmail key key) <;> rfl

theorem length_cutTails : ∀ tail ∈ cutTails, tail.1.length = 0 ∨ tail.1.length = 1 ∨ tail.1.length = 9 ∨
    tail.1.length = 10 := by decide

/-- A longer key fails in one of the two lookups. -/
theorem lookup_fails (hk : Plain key) (hlen : MAX_KEY_LENGTH < key.length) :
    (d.run m (validateUser key)).1 = none ∨ (d.run m (getUserInfo key)).1 = none := by
  rw [MAX_KEY_LENGTH] at hlen
  cases hinfo : readCondition infoFirst (query (selectText infoFirst key)) with
  | none =>
    have hans : (Tables.exec m (.selectUserInfo (query (selectText infoFirst key))) d.toTables).1 = none := by
      simp only [Tables.exec, hinfo, Option.map_none]
    right
    rw [getUserInfo, Db.run_query_bind _ hans]
    rfl
  | some cond =>
    -- The second statement is cut behind its first comparison, so the first one is cut two bytes later.
    obtain ⟨tail, htail, hcut⟩ := UserSql.readCondition_cut hk
      (by rw [length_selectText, length_infoFirst, QUERY_SIZE]; omega) hinfo
    have htail := length_cutTails tail htail
    rw [length_infoFirst, QUERY_SIZE] at hcut
    have hnone : readCondition passwordFirst (query (selectText passwordFirst key)) = none := by
      by_contra hsome
      obtain ⟨cond', hcond'⟩ := Option.ne_none_iff_exists'.mp hsome
      obtain ⟨tail', htail', hcut'⟩ := UserSql.readCondition_cut hk
        (by rw [length_selectText, length_passwordFirst, QUERY_SIZE]; omega) hcond'
      have htail' := length_cutTails tail' htail'
      rw [length_passwordFirst, QUERY_SIZE] at hcut'
      omega
    have hans : (Tables.exec m (.selectPassword (query (selectText passwordFirst key))) d.toTables).1 = none := by
      simp only [Tables.exec, hnone, Option.map_none]
    left
    rw [validateUser, Db.run_query_bind _ hans]
    rfl

end FinalServer
