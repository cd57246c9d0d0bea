/-
The rows of an `INSERT`, read from its text.

Behind `VALUES` stands a list of rows in parentheses. `lex` reads the text
as parentheses, commas, quoted literals and bare words, and `rows` the rows
they make. Anything else a row may hold in SQL (operators, functions,
subqueries, comments) is beyond it and makes it read nothing. What it reads
of a text that starts with a literal, a word or a bracket is what that
stands for, and then what it reads of the rest.
-/
import FinalServer.SqlText

namespace SqlText

/-- A value of a row, quoted or bare. -/
inductive Cell
  | text (v : List UInt8)
  | word (w : List UInt8)
  deriving DecidableEq

inductive Token
  | opening
  | closing
  | comma
  | cell (c : Cell)
  deriving DecidableEq

/-- Blanks and line ends. -/
def isSpace (b : UInt8) : Bool := b == 32 || (9 ≤ b && b ≤ 13)

/-- The bytes of a bare word. -/
def isWord (b : UInt8) : Bool := !isSpace b && b != 40 && b != 41 && b != 44 && b != quote

/-- The tokens of a text, of which each takes a byte or more. -/
def tokens : Nat → List UInt8 → Option (List Token)
  | _, [] => some []
  | 0, _ :: _ => none
  | n + 1, b :: bs =>
    if isSpace b then tokens n bs
    else if b = 40 then (tokens n bs).map (.opening :: ·)
    else if b = 41 then (tokens n bs).map (.closing :: ·)
    else if b = 44 then (tokens n bs).map (.comma :: ·)
    else if b = quote then (readQuoted bs).bind fun r => (tokens n r.2).map (.cell (.text r.1) :: ·)
    else (tokens n (bs.dropWhile isWord)).map (.cell (.word (b :: bs.takeWhile isWord)) :: ·)

def lex (bs : List UInt8) : Option (List Token) := tokens bs.length bs

/-- What may come next in a list of rows. -/
inductive At
  | row
  | cell
  | afterCell
  | afterRow

/-- The rows of the tokens, the rest of the current one first. -/
def tuples : At → List Token → Option (List (List Cell))
  | .row, .opening :: ts => tuples .cell ts
  | .cell, .cell c :: ts =>
    match tuples .afterCell ts with
    | some (cells :: rows) => some ((c :: cells) :: rows)
    | _ => none
  | .afterCell, .comma :: ts => tuples .cell ts
  | .afterCell, .closing :: ts => (tuples .afterRow ts).map ([] :: ·)
  | .afterRow, .comma :: ts => tuples .row ts
  | .afterRow, [] => some []
  | _, _ => none

/-- The rows of a statement that starts like this. -/
def rows (first text : List UInt8) : Option (List (List Cell)) :=
  (text.dropPrefix? first).bind fun bs => (lex bs).bind (tuples .row)

/-! ## Lexing -/

variable {bs rest v w first : List UInt8}

/-- More steps than bytes make no difference. -/
theorem tokens_eq_lex {n : Nat} (h : bs.length ≤ n) : tokens n bs = lex bs := by
  induction hk : bs.length using Nat.strongRecOn generalizing bs n with
  | ind k ih =>
  subst hk
  rw [lex]
  cases bs with
  | nil => cases n <;> rfl
  | cons b bs =>
    obtain ⟨n, rfl⟩ : ∃ n', n = n' + 1 := ⟨n - 1, by simp only [List.length_cons] at h; omega⟩
    simp only [List.length_cons] at h ih ⊢
    have hstep : ∀ r : List UInt8, r.length ≤ bs.length → tokens n r = tokens bs.length r := by
      intro r hr
      rw [ih r.length (by omega) (by omega : r.length ≤ n) rfl, ih r.length (by omega) hr rfl]
    have hword : (bs.dropWhile isWord).length ≤ bs.length := (List.dropWhile_sublist _).length_le
    simp only [tokens, hstep bs (Nat.le_refl _), hstep _ hword]
    split_ifs
    all_goals try rfl
    refine Option.bind_congr fun r hr => ?_
    rw [hstep r.2 (by have := (readQuoted_length hr).1; omega)]

theorem lex_nil : lex [] = some [] := rfl

theorem lex_space {b : UInt8} (hb : isSpace b = true) : lex (b :: bs) = lex bs := by
  rw [lex, List.length_cons, tokens, if_pos hb, lex]

theorem lex_opening : lex (40 :: bs) = (lex bs).map (.opening :: ·) := rfl

theorem lex_closing : lex (41 :: bs) = (lex bs).map (.closing :: ·) := rfl

theorem lex_comma : lex (44 :: bs) = (lex bs).map (.comma :: ·) := rfl

theorem lex_quote (h : readQuoted bs = some (v, rest)) :
    lex (quote :: bs) = (lex rest).map (.cell (.text v) :: ·) := by
  have hstep : lex (quote :: bs) = (readQuoted bs).bind fun r =>
      (tokens bs.length r.2).map (.cell (.text r.1) :: ·) := rfl
  have hlen := (readQuoted_length h).1
  rw [hstep, h, Option.bind_some, tokens_eq_lex (show rest.length ≤ bs.length by omega)]

/-- A word ends where a byte that is none of a word's follows. -/
theorem lex_word (hne : w ≠ []) (hw : ∀ b ∈ w, isWord b = true) (hrest : ∀ b ∈ rest.head?, isWord b = false) :
    lex (w ++ rest) = (lex rest).map (.cell (.word w) :: ·) := by
  obtain ⟨b, bs, rfl⟩ := List.exists_cons_of_ne_nil hne
  have hb := hw b List.mem_cons_self
  have htake : (bs ++ rest).takeWhile isWord = bs ∧ (bs ++ rest).dropWhile isWord = rest := by
    have hbs : ∀ b ∈ bs, isWord b = true := fun b hb => hw b (List.mem_cons_of_mem _ hb)
    rw [List.takeWhile_append_of_pos hbs, List.dropWhile_append_of_pos hbs]
    cases rest with
    | nil => simp
    | cons c cs => simp [hrest c rfl]
  simp only [isWord, Bool.and_eq_true, Bool.not_eq_true', bne_iff_ne, ne_eq] at hb
  obtain ⟨⟨⟨⟨hspace, hopen⟩, hclose⟩, hcomma⟩, hquote⟩ := hb
  rw [lex, List.cons_append, List.length_cons, tokens, if_neg (by simp [hspace]), if_neg hopen, if_neg hclose,
    if_neg hcomma, if_neg hquote, htake.1, htake.2, tokens_eq_lex (by simp)]

/-! ## The first row -/

variable {ts : List Token} {c : Cell} {row : List Cell} {rs : List (List Cell)}

/-- The cell that is read next is the first of the current row. -/
theorem tuples_cell (h : tuples .cell (.cell c :: ts) = some rs) :
    ∃ cells rows, rs = (c :: cells) :: rows ∧ tuples .afterCell ts = some (cells :: rows) := by
  rw [tuples] at h
  split at h
  next cells rows hrest => exact ⟨cells, rows, (Option.some.inj h).symm, hrest⟩
  next => cases h

/-- **The first cell.** A text that starts with a row and a literal or word has it as the first cell. -/
theorem rows_first (hlex : lex bs = (lex rest).map fun ts => .opening :: .cell c :: .comma :: ts)
    (h : rows first (first ++ bs) = some rs) : ∃ cells rows, rs = (c :: cells) :: rows ∧
      ∃ ts, lex rest = some ts ∧ tuples .cell ts = some (cells :: rows) := by
  rw [rows, dropPrefix?_append, Option.bind_some, hlex] at h
  obtain ⟨ts', hts', h⟩ := Option.bind_eq_some_iff.mp h
  obtain ⟨ts, hts, rfl⟩ := Option.map_eq_some_iff.mp hts'
  obtain ⟨cells, rows, rfl, hcells⟩ := tuples_cell (h : tuples .cell (.cell c :: .comma :: ts) = some rs)
  exact ⟨cells, rows, rfl, ts, hts, hcells⟩

end SqlText
