/-
The statements of `chat_manager.c` that carry a client's strings, as text.

`create_chat` and `send_message` write an `INSERT` with `snprintf` into a
`query` of their own size, the strings between quotes as they are, and
`get_chats` and `get_chat_messages` a `SELECT`. What MySQL executes is what
the text says: it may have been cut, a backslash is an escape, and behind a
quote in a string anything may follow, another row of values for one.
`readRows` are the rows of an `INSERT` of literals.
-/
import FinalServer.Decimal
import FinalServer.Json
import FinalServer.SqlRows
import FinalServer.UserSql

namespace FinalServer

/-- What `create_chat` reads of a `Chat`. -/
structure ChatValues where
  isGroup : Int
  chatName : CString
  deriving DecidableEq

/-- What `send_message` reads of a `Message`. -/
structure Message where
  chatId : Int
  senderId : Int
  content : CString
  messageType : CString
  deriving DecidableEq

/-! ## Values of rows -/

/-- A literal or a number as the value of an `INT` column. -/
def cellInt : SqlText.Cell → Option Int
  | .text v | .word v => do
    let n ← readDecimal v
    guard (Json.INT_MIN ≤ n ∧ n ≤ Json.INT_MAX)
    return n

/-- A literal as the value of a text column, if it is a C string. -/
def cellText : SqlText.Cell → Option CString
  | .text v => if h : 0 ∈ v then none else some ⟨v, h⟩
  | .word _ => none

def ChatValues.ofCells : List SqlText.Cell → Option ChatValues
  | [isGroup, chatName] => do return { isGroup := ← cellInt isGroup, chatName := ← cellText chatName }
  | _ => none

def Message.ofCells : List SqlText.Cell → Option Message
  | [chatId, senderId, content, messageType] => do
    return { chatId := ← cellInt chatId, senderId := ← cellInt senderId
             content := ← cellText content, messageType := ← cellText messageType }
  | _ => none

namespace ChatSql

/-- `char query[512]`. -/
def QUERY_SIZE : Nat := 512

def insertFirst : CString := "INSERT INTO chats (is_group, chat_name) VALUES "

/-- The text up to the literal of the name. -/
def rowFirst (isGroup : Int) : CString := insertFirst ++ "('" ++ CString.ofInt isGroup ++ "', '"

/-- The `INSERT` of `create_chat`. -/
def insertText (isGroup : Int) (chatName : CString) : CString := rowFirst isGroup ++ chatName ++ "')"

/-- `snprintf(query, sizeof(query), ...)`. -/
def query (text : CString) : CString := text.take (QUERY_SIZE - 1)

/-- The rows of an `INSERT` of literals into `chats`. -/
def readRows (sql : CString) : Option (List ChatValues) :=
  (SqlText.rows insertFirst.bytes sql.bytes).bind (List.mapM ChatValues.ofCells)

/-- `char query[4096]` of `get_chats`. -/
def SELECT_SIZE : Nat := 4096

/-- The `SELECT` of `get_chats` up to the literal of the time. -/
def selectFirst (userId : Int) : CString :=
  "SELECT c.chat_id, c.chat_name, c.is_group, m.content AS last_message_content, " ++
    "m.message_type AS last_message_type, m.created_at AS last_message_timestamp, " ++
    "u.username AS last_message_sender_username FROM chats c " ++
    "JOIN chat_participants cp ON cp.chat_id = c.chat_id " ++
    "LEFT JOIN messages m ON m.message_id = c.last_message_id LEFT JOIN users u ON u.user_id = m.sender_id " ++
    "WHERE cp.user_id = " ++ CString.ofInt userId ++ " AND (c.last_message_id IS NULL OR EXISTS (" ++
    "SELECT 1 FROM messages m2 WHERE m2.chat_id = c.chat_id AND m2.created_at > '"

def selectText (userId : Int) (lastUpdateTimestamp : CString) : CString :=
  selectFirst userId ++ lastUpdateTimestamp ++ "' AND m2.is_deleted = 0)) ORDER BY c.chat_id"

/-- The time is read as it stands, in a statement that was not cut. -/
def AsWritten (userId : Int) (lastUpdateTimestamp : CString) : Prop :=
  SqlText.Verbatim lastUpdateTimestamp.bytes ∧ (selectText userId lastUpdateTimestamp).length < SELECT_SIZE

instance (userId : Int) (lastUpdateTimestamp : CString) : Decidable (AsWritten userId lastUpdateTimestamp) :=
  inferInstanceAs (Decidable (_ ∧ _))

end ChatSql

namespace MessageSql

/-- `char query[2048]`. -/
def QUERY_SIZE : Nat := 2048

def insertFirst : CString := "INSERT INTO messages (chat_id, sender_id, content, message_type) VALUES "

/-- The text up to the literal of the content. -/
def rowFirst (chatId senderId : Int) : CString :=
  insertFirst ++ "(" ++ CString.ofInt chatId ++ ", " ++ CString.ofInt senderId ++ ", '"

/-- The `INSERT` of `send_message`. -/
def insertText (message : Message) : CString :=
  rowFirst message.chatId message.senderId ++ message.content ++ "', '" ++ message.messageType ++ "')"

/-- `snprintf(query, sizeof(query), ...)`. -/
def query (text : CString) : CString := text.take (QUERY_SIZE - 1)

/-- The rows of an `INSERT` of literals into `messages`. -/
def readRows (sql : CString) : Option (List Message) :=
  (SqlText.rows insertFirst.bytes sql.bytes).bind (List.mapM Message.ofCells)

/-- The `SELECT` of `get_chat_messages` up to the literal of the time. -/
def selectFirst (chatId : Int) : CString :=
  "SELECT m.message_id, m.sender_id, u.username AS sender_username, m.content, m.message_type, m.created_at " ++
    "FROM messages m JOIN users u ON u.user_id = m.sender_id WHERE m.chat_id = " ++ CString.ofInt chatId ++
    " AND m.is_deleted = 0 AND (m.created_at > '"

def selectText (chatId : Int) (lastUpdateTimestamp : CString) : CString :=
  selectFirst chatId ++ lastUpdateTimestamp ++ "')"

/-- The time is read as it stands, in a statement that was not cut. -/
def AsWritten (chatId : Int) (lastUpdateTimestamp : CString) : Prop :=
  SqlText.Verbatim lastUpdateTimestamp.bytes ∧ (selectText chatId lastUpdateTimestamp).length < QUERY_SIZE

instance (chatId : Int) (lastUpdateTimestamp : CString) : Decidable (AsWritten chatId lastUpdateTimestamp) :=
  inferInstanceAs (Decidable (_ ∧ _))

end MessageSql

/-- What `mysql_query` gets for a message. -/
def Message.sql (message : Message) : CString := MessageSql.query (MessageSql.insertText message)

/-! ## Reading what was written -/

theorem plain_ofInt (n : Int) : UserSql.Plain (CString.ofInt n) := by
  intro b hb
  rcases mem_ofInt_bytes hb with rfl | hd
  · decide
  · refine ⟨?_, ?_⟩ <;> rintro rfl <;> exact absurd hd (by decide)

theorem isWord_ofInt (n : Int) : ∀ b ∈ (CString.ofInt n).bytes, SqlText.isWord b = true := by
  intro b hb
  rcases mem_ofInt_bytes hb with rfl | hd
  · decide
  · simp only [isDigit, Bool.and_eq_true, decide_eq_true_eq, UInt8.le_iff_toNat_le] at hd
    simp only [SqlText.isWord, SqlText.isSpace, SqlText.quote, Bool.and_eq_true, Bool.not_eq_true',
      Bool.or_eq_false_iff,
      beq_eq_false_iff_ne, bne_iff_ne, ne_eq, Bool.and_eq_false_iff, decide_eq_false_iff_not, UInt8.le_iff_toNat_le,
      ← UInt8.toNat_inj]
    have h48 : (48 : UInt8).toNat = 48 := rfl
    have h57 : (57 : UInt8).toNat = 57 := rfl
    have hsmall : (32 : UInt8).toNat = 32 ∧ (9 : UInt8).toNat = 9 ∧ (13 : UInt8).toNat = 13 ∧
        (40 : UInt8).toNat = 40 ∧ (41 : UInt8).toNat = 41 ∧ (44 : UInt8).toNat = 44 ∧ (39 : UInt8).toNat = 39 :=
      ⟨rfl, rfl, rfl, rfl, rfl, rfl, rfl⟩
    omega

theorem ofInt_bytes_ne_nil (n : Int) : (CString.ofInt n).bytes ≠ [] := by
  rw [ofInt_bytes]
  exact List.append_ne_nil_of_right_ne_nil _ (decimal_ne_nil _)

theorem cellInt_ofInt {n : Int} (hlo : Json.INT_MIN ≤ n) (hhi : n ≤ Json.INT_MAX) :
    cellInt (.text (CString.ofInt n).bytes) = some n ∧ cellInt (.word (CString.ofInt n).bytes) = some n := by
  simp [cellInt, readDecimal_ofInt, hlo, hhi]

theorem cellInt_range {c : SqlText.Cell} {n : Int} (h : cellInt c = some n) :
    Json.INT_MIN ≤ n ∧ n ≤ Json.INT_MAX := by
  cases c <;>
  · simp only [cellInt, Option.bind_eq_bind, Option.bind_eq_some_iff, Option.pure_def, Option.some.injEq] at h
    obtain ⟨k, -, _, hk, rfl⟩ := h
    unfold guard at hk
    split at hk
    · assumption
    · cases hk

theorem cellText_bytes (s : CString) : cellText (.text s.bytes) = some s := dif_neg s.noNul

open SqlText (lex Token Cell quote)

/-- A `snprintf` keeps what fits. -/
theorem take_append_of_le {s t : CString} {n : Nat} (h : s.length ≤ n) :
    (s ++ t).take n = s ++ t.take (n - s.length) := by
  ext1
  rw [CString.take_bytes, CString.append_bytes, List.take_append, List.take_of_length_le h]
  rfl

namespace ChatSql

variable {g : Int} {n sql : CString} {r : ChatValues} {rs : List ChatValues}

theorem lex_rowFirst (g : Int) (bs : List UInt8) :
    lex (CString.bytes ("('" ++ CString.ofInt g ++ "', '") ++ bs) =
      (lex (quote :: bs)).map fun ts => .opening :: .cell (.text (CString.ofInt g).bytes) :: .comma :: ts := by
  have hbytes : CString.bytes ("('" ++ CString.ofInt g ++ "', '") ++ bs =
      40 :: quote :: ((CString.ofInt g).bytes ++ quote :: 44 :: 32 :: quote :: bs) := by
    simp only [CString.append_bytes, List.append_assoc]
    rfl
  rw [hbytes, SqlText.lex_opening, SqlText.lex_quote (SqlText.readQuoted_plain (plain_ofInt g) (by simp [quote])),
    SqlText.lex_comma, SqlText.lex_space (by rfl), Option.map_map, Option.map_map]
  rfl

/-- The flag of the first row is the one that was written. -/
theorem readRows_first {rest : CString} (h : readRows (rowFirst g ++ rest) = some (r :: rs)) : r.isGroup = g := by
  obtain ⟨cells, hcells, hr⟩ := Option.bind_eq_some_iff.mp h
  have hbytes : (rowFirst g ++ rest).bytes =
      insertFirst.bytes ++ (CString.bytes ("('" ++ CString.ofInt g ++ "', '") ++ rest.bytes) := by
    simp only [rowFirst, CString.append_bytes, List.append_assoc]
  rw [hbytes] at hcells
  obtain ⟨cs, rows, rfl, -⟩ := SqlText.rows_first (lex_rowFirst g rest.bytes) hcells
  simp only [List.mapM_cons, Option.bind_eq_bind, Option.bind_eq_some_iff, Option.pure_def, Option.some.injEq,
    List.cons.injEq] at hr
  obtain ⟨r', hr', _, -, rfl, -⟩ := hr
  cases cs with
  | nil => cases hr'
  | cons c cs =>
    cases cs with
    | cons => cases hr'
    | nil =>
      simp only [ChatValues.ofCells, Option.bind_eq_bind, Option.bind_eq_some_iff, Option.pure_def,
        Option.some.injEq] at hr'
      obtain ⟨k, hk, _, -, rfl⟩ := hr'
      simp only [cellInt, readDecimal_ofInt, Option.bind_eq_bind, Option.bind_some, Option.bind_eq_some_iff,
        Option.pure_def, Option.some.injEq] at hk
      obtain ⟨_, -, rfl⟩ := hk
      rfl

theorem readRows_range (h : readRows sql = some rs) :
    ∀ r ∈ rs, Json.INT_MIN ≤ r.isGroup ∧ r.isGroup ≤ Json.INT_MAX := by
  obtain ⟨cells, -, hr⟩ := Option.bind_eq_some_iff.mp h
  clear h
  induction cells generalizing rs with
  | nil =>
    cases hr
    simp
  | cons c cells ih =>
    simp only [List.mapM_cons, Option.bind_eq_bind, Option.bind_eq_some_iff, Option.pure_def, Option.some.injEq] at hr
    obtain ⟨r, hc, rs', hrs, rfl⟩ := hr
    refine List.forall_mem_cons.mpr ⟨?_, ih hrs⟩
    unfold ChatValues.ofCells at hc
    split at hc
    · simp only [Option.bind_eq_bind, Option.bind_eq_some_iff, Option.pure_def, Option.some.injEq] at hc
      obtain ⟨k, hk, _, -, rfl⟩ := hc
      exact cellInt_range hk
    · cases hc

theorem length_rowFirst (hlo : Json.INT_MIN ≤ g) (hhi : g ≤ Json.INT_MAX) : (rowFirst g).length ≤ 64 := by
  have hg := length_ofInt_le hlo hhi
  have h₁ : insertFirst.length = 47 := by decide
  have h₂ : CString.length "('" = 2 := by decide
  have h₃ : CString.length "', '" = 4 := by decide
  simp only [rowFirst, CString.length_append, h₁, h₂, h₃]
  omega

/-- The statement starts with its flag, wherever it was cut. -/
theorem query_insertText (hlo : Json.INT_MIN ≤ g) (hhi : g ≤ Json.INT_MAX) (n : CString) :
    ∃ rest, query (insertText g n) = rowFirst g ++ rest := by
  have hlen := length_rowFirst hlo hhi
  have happend : insertText g n = rowFirst g ++ (n ++ "')") := by
    ext1
    simp only [insertText, CString.append_bytes, List.append_assoc]
  exact ⟨_, by rw [query, happend, take_append_of_le (by simp only [QUERY_SIZE]; omega)]⟩

/-- A name that is read as it stands makes one row. -/
theorem readRows_query (hlo : Json.INT_MIN ≤ g) (hhi : g ≤ Json.INT_MAX) (hn : SqlText.Verbatim n.bytes)
    (hfits : (insertText g n).length < QUERY_SIZE) : readRows (query (insertText g n)) = some [⟨g, n⟩] := by
  have hbytes : (insertText g n).bytes = insertFirst.bytes ++
      (CString.bytes ("('" ++ CString.ofInt g ++ "', '") ++ (n.bytes ++ quote :: 41 :: [])) := by
    simp only [insertText, rowFirst, CString.append_bytes, List.append_assoc]
    rfl
  have hquery : query (insertText g n) = insertText g n :=
    CString.take_eq_self_iff.mpr (Nat.le_pred_of_lt hfits)
  rw [hquery, readRows, hbytes, SqlText.rows, SqlText.dropPrefix?_append, Option.bind_some, lex_rowFirst,
    SqlText.lex_quote (SqlText.readQuoted_verbatim hn (by simp [quote])), SqlText.lex_closing, SqlText.lex_nil]
  simp only [Option.map_some, Option.bind_some, SqlText.tuples, List.mapM_cons, List.mapM_nil, ChatValues.ofCells,
    (cellInt_ofInt hlo hhi).1, cellText_bytes, Option.bind_eq_bind, Option.pure_def]

end ChatSql

namespace MessageSql

variable {c u : Int} {sql : CString} {r : Message} {rs : List Message}

theorem lex_rowFirst (c u : Int) (bs : List UInt8) :
    lex (CString.bytes ("(" ++ CString.ofInt c ++ ", " ++ CString.ofInt u ++ ", '") ++ bs) =
      (lex ((CString.ofInt u).bytes ++ CString.bytes ", '" ++ bs)).map
        fun ts => .opening :: .cell (.word (CString.ofInt c).bytes) :: .comma :: ts := by
  have hbytes : CString.bytes ("(" ++ CString.ofInt c ++ ", " ++ CString.ofInt u ++ ", '") ++ bs =
      40 :: ((CString.ofInt c).bytes ++ 44 :: 32 :: ((CString.ofInt u).bytes ++ CString.bytes ", '" ++ bs)) := by
    simp only [CString.append_bytes, List.append_assoc]
    rfl
  rw [hbytes, SqlText.lex_opening, SqlText.lex_word (ofInt_bytes_ne_nil c) (isWord_ofInt c) (by simp; decide),
    SqlText.lex_comma, SqlText.lex_space (by rfl), Option.map_map, Option.map_map]
  rfl

theorem lex_sender (u : Int) (bs : List UInt8) :
    lex ((CString.ofInt u).bytes ++ CString.bytes ", '" ++ bs) =
      (lex (quote :: bs)).map fun ts => .cell (.word (CString.ofInt u).bytes) :: .comma :: ts := by
  have hbytes : (CString.ofInt u).bytes ++ CString.bytes ", '" ++ bs =
      (CString.ofInt u).bytes ++ 44 :: 32 :: quote :: bs := by
    rw [List.append_assoc]
    rfl
  rw [hbytes, SqlText.lex_word (ofInt_bytes_ne_nil u) (isWord_ofInt u) (by simp; decide), SqlText.lex_comma,
    SqlText.lex_space (by rfl), Option.map_map]
  rfl

theorem cellInt_word {k n : Int} (h : cellInt (.word (CString.ofInt n).bytes) = some k) : k = n := by
  simp only [cellInt, readDecimal_ofInt, Option.bind_eq_bind, Option.bind_some, Option.bind_eq_some_iff,
    Option.pure_def, Option.some.injEq] at h
  obtain ⟨_, -, rfl⟩ := h
  rfl

/-- Chat and sender of the first row are those that were written. -/
theorem readRows_first {rest : CString} (h : readRows (rowFirst c u ++ rest) = some (r :: rs)) :
    r.chatId = c ∧ r.senderId = u := by
  obtain ⟨cells, hcells, hr⟩ := Option.bind_eq_some_iff.mp h
  have hbytes : (rowFirst c u ++ rest).bytes = insertFirst.bytes ++
      (CString.bytes ("(" ++ CString.ofInt c ++ ", " ++ CString.ofInt u ++ ", '") ++ rest.bytes) := by
    simp only [rowFirst, CString.append_bytes, List.append_assoc]
  rw [hbytes] at hcells
  obtain ⟨cs, rows, rfl, ts, hts, hcs⟩ := SqlText.rows_first (lex_rowFirst c u rest.bytes) hcells
  rw [lex_sender, Option.map_eq_some_iff] at hts
  obtain ⟨ts, -, rfl⟩ := hts
  obtain ⟨cs', rows', heq, -⟩ := SqlText.tuples_cell hcs
  cases heq
  simp only [List.mapM_cons, Option.bind_eq_bind, Option.bind_eq_some_iff, Option.pure_def, Option.some.injEq,
    List.cons.injEq] at hr
  obtain ⟨r', hr', _, -, rfl, -⟩ := hr
  match cs', hr' with
  | [x, y], hr' =>
    simp only [Message.ofCells, Option.bind_eq_bind, Option.bind_eq_some_iff, Option.pure_def,
      Option.some.injEq] at hr'
    obtain ⟨c', hc, u', hu, _, -, _, -, rfl⟩ := hr'
    exact ⟨cellInt_word hc, cellInt_word hu⟩

theorem length_rowFirst (hc : Json.INT_MIN ≤ c ∧ c ≤ Json.INT_MAX) (hu : Json.INT_MIN ≤ u ∧ u ≤ Json.INT_MAX) :
    (rowFirst c u).length ≤ 100 := by
  have hc' := length_ofInt_le hc.1 hc.2
  have hu' := length_ofInt_le hu.1 hu.2
  have h₁ : insertFirst.length = 72 := by decide
  have h₂ : CString.length "(" = 1 := by decide
  have h₃ : CString.length ", " = 2 := by decide
  have h₄ : CString.length ", '" = 3 := by decide
  simp only [rowFirst, CString.length_append, h₁, h₂, h₃, h₄]
  omega

/-- The statement starts with its chat and sender, wherever it was cut. -/
theorem query_insertText {message : Message} (hc : Json.INT_MIN ≤ message.chatId ∧ message.chatId ≤ Json.INT_MAX)
    (hu : Json.INT_MIN ≤ message.senderId ∧ message.senderId ≤ Json.INT_MAX) :
    ∃ rest, query (insertText message) = rowFirst message.chatId message.senderId ++ rest := by
  have hlen := length_rowFirst hc hu
  have happend : insertText message = rowFirst message.chatId message.senderId ++
      (message.content ++ ("', '" ++ (message.messageType ++ "')"))) := by
    ext1
    simp only [insertText, CString.append_bytes, List.append_assoc]
  exact ⟨_, by rw [query, happend, take_append_of_le (by simp only [QUERY_SIZE]; omega)]⟩

/-- Strings that are read as they stand make one row. -/
theorem readRows_query {message : Message} (hc : Json.INT_MIN ≤ message.chatId ∧ message.chatId ≤ Json.INT_MAX)
    (hu : Json.INT_MIN ≤ message.senderId ∧ message.senderId ≤ Json.INT_MAX)
    (hx : SqlText.Verbatim message.content.bytes) (hy : SqlText.Verbatim message.messageType.bytes)
    (hfits : (insertText message).length < QUERY_SIZE) : readRows (query (insertText message)) = some [message] := by
  have hbytes : (insertText message).bytes = insertFirst.bytes ++
      (CString.bytes ("(" ++ CString.ofInt message.chatId ++ ", " ++ CString.ofInt message.senderId ++ ", '") ++
        (message.content.bytes ++ quote :: 44 :: 32 :: quote :: (message.messageType.bytes ++ quote :: 41 :: []))) := by
    simp only [insertText, rowFirst, CString.append_bytes, List.append_assoc]
    rfl
  have hquery : query (insertText message) = insertText message :=
    CString.take_eq_self_iff.mpr (Nat.le_pred_of_lt hfits)
  rw [hquery, readRows, hbytes, SqlText.rows, SqlText.dropPrefix?_append, Option.bind_some, lex_rowFirst, lex_sender,
    SqlText.lex_quote (SqlText.readQuoted_verbatim hx (by simp [quote])), SqlText.lex_comma,
    SqlText.lex_space (by rfl), SqlText.lex_quote (SqlText.readQuoted_verbatim hy (by simp [quote])),
    SqlText.lex_closing, SqlText.lex_nil]
  simp only [Option.map_some, Option.bind_some, SqlText.tuples, List.mapM_cons, List.mapM_nil, Message.ofCells,
    (cellInt_ofInt hc.1 hc.2).2, (cellInt_ofInt hu.1 hu.2).2, cellText_bytes, Option.bind_eq_bind, Option.pure_def]

end MessageSql

end FinalServer
