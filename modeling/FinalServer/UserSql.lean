/-
The statements of `user_manager.c` as text.

Each is written with `snprintf` into a `query` of 512 bytes and sent as it
is. MySQL gets the text, so what it executes is what the text says: a
statement that was cut is usually an error, but a `SELECT` cut behind its
first comparison is still one, with another condition.
-/
import FinalServer.CString
import FinalServer.SqlText

namespace FinalServer

namespace UserSql

/-- `char query[512]`. -/
def QUERY_SIZE : Nat := 512

def insertFirst : CString := "INSERT INTO users (username, email, password_hash) VALUES ('"

/-- The `INSERT` of `create_user`. -/
def insertText (username email hashPassword : CString) : CString :=
  insertFirst ++ username ++ "', '" ++ email ++ "', '" ++ hashPassword ++ "')"

def passwordFirst : CString := "SELECT password_hash, user_id FROM users WHERE username = '"

def infoFirst : CString := "SELECT username, email, user_id FROM users WHERE username = '"

/-- The `SELECT` of `validate_user` and of `get_user_info`, which differ in the columns. -/
def selectText (first key : CString) : CString := first ++ key ++ "' OR email = '" ++ key ++ "'"

/-- `snprintf(query, sizeof(query), ...)`. -/
def query (text : CString) : CString := text.take (QUERY_SIZE - 1)

/-! ## What MySQL reads -/

def insertWords : List (List UInt8) := [CString.bytes ", '", CString.bytes ", '", CString.bytes ")"]

/-- The values of an `INSERT` into `users`, if the text is one. -/
def readInsert (sql : CString) : Option (CString × CString × CString) :=
  match SqlText.read insertFirst.bytes insertWords sql.bytes with
  | some [username, email, hashPassword] =>
    some (.ofBytes username, .ofBytes email, .ofBytes hashPassword)
  | _ => none

/-- A condition on the rows of `users`. -/
inductive Condition
  /-- `username = '...'`. -/
  | username (key : CString)
  /-- `username = '...' OR email`: a cut statement asks whether the e-mail is true. -/
  | usernameOrTrueEmail (key : CString)
  /-- `username = '...' OR email = '...'`. -/
  | usernameOrEmail (key key' : CString)

def selectWords : List (List UInt8) := [CString.bytes " OR email = '", CString.bytes ""]

/-- What may stand behind the first literal of a cut `SELECT` that is still one. -/
def cutTails : List (CString × (CString → Condition)) :=
  [("", .username), (" ", .username), (" OR email", .usernameOrTrueEmail),
    (" OR email ", .usernameOrTrueEmail)]

/-- The condition of a `SELECT` from `users` starting with `first`, if the text is one. -/
def readCondition (first sql : CString) : Option Condition :=
  match SqlText.read first.bytes selectWords sql.bytes with
  | some [key, key'] => some (.usernameOrEmail (.ofBytes key) (.ofBytes key'))
  | _ => cutTails.findSome? fun tail =>
      match SqlText.read first.bytes [tail.1.bytes] sql.bytes with
      | some [key] => some (tail.2 (.ofBytes key))
      | _ => none

/-! ## Reading what was written -/

/-- Text without quotes and backslashes. -/
def Plain (s : CString) : Prop := SqlText.Plain s.bytes

instance (s : CString) : Decidable (Plain s) := inferInstanceAs (Decidable (SqlText.Plain s.bytes))

variable {first key username email hashPassword : CString}

theorem insertText_bytes : (insertText username email hashPassword).bytes =
    SqlText.render insertFirst.bytes insertWords [username.bytes, email.bytes, hashPassword.bytes] := by
  simp only [insertText, CString.append_bytes, List.append_assoc]
  rfl

theorem selectText_bytes :
    (selectText first key).bytes = SqlText.render first.bytes selectWords [key.bytes, key.bytes] := by
  simp only [selectText, CString.append_bytes, List.append_assoc]
  rfl

theorem insertWords_separated : SqlText.Separated insertWords := by decide

theorem selectWords_separated : SqlText.Separated selectWords := by decide

/-- An `INSERT` of plain values is read as it was meant if it fits, and not at all otherwise. -/
theorem readInsert_query (hu : Plain username) (he : Plain email) (hp : Plain hashPassword) :
    readInsert (query (insertText username email hashPassword)) =
      if (insertText username email hashPassword).length < QUERY_SIZE then some (username, email, hashPassword)
      else none := by
  have hplain : ∀ v ∈ [username.bytes, email.bytes, hashPassword.bytes], SqlText.Plain v := by
    simp only [List.forall_mem_cons]
    exact ⟨hu, he, hp, nofun⟩
  rw [readInsert, query, CString.take_bytes, CString.length, insertText_bytes]
  by_cases hfits : (SqlText.render insertFirst.bytes insertWords
      [username.bytes, email.bytes, hashPassword.bytes]).length < QUERY_SIZE
  · rw [if_pos hfits, List.take_of_length_le (by omega),
      SqlText.read_render (by rfl) insertWords_separated fun v hv => (hplain v hv).verbatim]
    simp only [CString.ofBytes_bytes]
  · rw [if_neg hfits, SqlText.read_take (by rfl) insertWords_separated hplain
      (by simp only [QUERY_SIZE] at hfits ⊢; omega)]

theorem readCondition_fits (hk : Plain key) (hfits : (selectText first key).length < QUERY_SIZE) :
    readCondition first (query (selectText first key)) = some (.usernameOrEmail key key) := by
  have hplain : ∀ v ∈ [key.bytes, key.bytes], SqlText.Plain v := by
    simp only [List.forall_mem_cons]
    exact ⟨hk, hk, nofun⟩
  rw [CString.length, selectText_bytes] at hfits
  rw [readCondition, query, CString.take_bytes, selectText_bytes, List.take_of_length_le (by omega),
    SqlText.read_render (by rfl) selectWords_separated fun v hv => (hplain v hv).verbatim]
  simp only [CString.ofBytes_bytes]

/-- A `SELECT` that was cut is still one only at a few lengths. -/
theorem readCondition_cut (hk : Plain key) (hcut : QUERY_SIZE ≤ (selectText first key).length)
    {cond : Condition} (h : readCondition first (query (selectText first key)) = some cond) :
    ∃ tail ∈ cutTails, first.length + key.length + 1 + tail.1.length = QUERY_SIZE - 1 := by
  have hplain : ∀ v ∈ [key.bytes, key.bytes], SqlText.Plain v := by
    simp only [List.forall_mem_cons]
    exact ⟨hk, hk, nofun⟩
  have hn : QUERY_SIZE - 1 < (SqlText.render first.bytes selectWords [key.bytes, key.bytes]).length := by
    rw [CString.length, selectText_bytes] at hcut
    simp only [QUERY_SIZE] at hcut ⊢
    omega
  rw [readCondition, query, CString.take_bytes, selectText_bytes,
    SqlText.read_take (by rfl) selectWords_separated hplain hn] at h
  obtain ⟨tail, htail, hread⟩ := List.exists_of_findSome?_eq_some h
  refine ⟨tail, htail, ?_⟩
  split at hread
  next key' hsingle => exact (SqlText.length_of_read_take hk (selectWords_separated.head (by rfl)) hn hsingle).symm
  next => cases hread

end UserSql

end FinalServer
