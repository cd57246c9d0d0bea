/-
How much of a text `cJSON_Parse` looks at: the value, and no more.

Every parser of `cJSON.c` reads its value from the value's own bytes; only a
number has to be followed by something that could not be part of it. So what
follows a value that is no number is ignored, and such a value that is cut
off does not parse.
-/
import FinalServer.JsonParse

namespace FinalServer

namespace JsonParse

open TokenParser (Framed Delimits)

/-! ## Numbers -/

/-- The bytes begin with nothing of the kind. -/
def Stops (p : UInt8 → Bool) (bs : List UInt8) : Prop := ∀ c r, bs = c :: r → p c = false

theorem takeWhile_stops {p : UInt8 → Bool} {v t : List UInt8} (hv : ∀ c ∈ v, p c = true) (ht : Stops p t) :
    (v ++ t).takeWhile p = v ∧ (v ++ t).dropWhile p = t := by
  rw [List.takeWhile_append_of_pos hv, List.dropWhile_append_of_pos hv]
  cases t with
  | nil => simp
  | cons c t => simp [ht c t rfl]

theorem dropWhile_stops (p : UInt8 → Bool) (bs : List UInt8) : Stops p (bs.dropWhile p) := by
  intro c r h
  have hne : bs.dropWhile p ≠ [] := h ▸ List.cons_ne_nil c r
  have hhead := List.head_dropWhile_not p hne
  simpa only [h, List.head_cons] using hhead

/-- Of a shorter text the same digits are read. -/
theorem digits_prefix {bs zs r : List UInt8} (h : bs.dropWhile isDigit = zs ++ r) :
    bs = bs.takeWhile isDigit ++ zs ++ r ∧
      (bs.takeWhile isDigit ++ zs).takeWhile isDigit = bs.takeWhile isDigit ∧
      (bs.takeWhile isDigit ++ zs).dropWhile isDigit = zs := by
  have hstop : Stops isDigit zs := by
    intro c r' hz
    exact dropWhile_stops isDigit bs c (r' ++ r) (by rw [h, hz]; rfl)
  refine ⟨?_, takeWhile_stops (fun c hc => List.mem_takeWhile_imp hc) hstop⟩
  rw [List.append_assoc, ← h]
  exact List.takeWhile_append_dropWhile.symm

theorem readSign_prefix {bs zs r : List UInt8} (h : (readSign bs).2 = zs ++ r) :
    ∃ s, bs = s ++ zs ++ r ∧ readSign (s ++ zs) = ((readSign bs).1, zs) := by
  cases bs with
  | nil =>
    obtain ⟨rfl, rfl⟩ := List.append_eq_nil_iff.mp h.symm
    exact ⟨[], rfl, rfl⟩
  | cons c bs =>
    simp only [readSign] at h ⊢
    split at h
    next hc =>
      subst hc
      exact ⟨[45], congrArg (45 :: ·) h, by simp⟩
    next hc =>
    split at h
    next hc' =>
      subst hc'
      exact ⟨[43], congrArg (43 :: ·) h, by simp⟩
    next hc' =>
      refine ⟨[], by simpa using h, ?_⟩
      cases zs with
      | nil => simp [hc, hc']
      | cons z zs =>
        obtain rfl : c = z := (List.cons.inj h).1
        simp [hc, hc']

theorem readFraction_prefix {bs zs r : List UInt8} (h : (readFraction bs).2 = zs ++ r) :
    ∃ s, bs = s ++ zs ++ r ∧ readFraction (s ++ zs) = ((readFraction bs).1, zs) := by
  cases bs with
  | nil =>
    obtain ⟨rfl, rfl⟩ := List.append_eq_nil_iff.mp h.symm
    exact ⟨[], rfl, rfl⟩
  | cons c bs =>
    simp only [readFraction] at h ⊢
    split at h
    next hc =>
      obtain ⟨hbs, htake, hrest⟩ := digits_prefix h
      refine ⟨c :: bs.takeWhile isDigit, congrArg (c :: ·) hbs, ?_⟩
      simp only [List.cons_append, hc, if_true, htake, hrest]
    next hc =>
      refine ⟨[], by simpa using h, ?_⟩
      cases zs with
      | nil => simp [hc]
      | cons z zs =>
        obtain rfl : c = z := (List.cons.inj h).1
        simp [hc]

theorem readExponent_prefix {bs r : List UInt8} (h : (readExponent bs).2 = r) :
    ∃ s, bs = s ++ r ∧ readExponent s = ((readExponent bs).1, []) := by
  cases bs with
  | nil => exact ⟨[], h, rfl⟩
  | cons c bs =>
    simp only [readExponent] at h ⊢
    split at h
    next hc =>
      have hdrop : (readSign bs).2.dropWhile isDigit = [] ++ r := h
      obtain ⟨hds, htake, hrest⟩ := digits_prefix hdrop
      rw [List.append_nil] at htake hrest
      rw [List.append_nil] at hds
      obtain ⟨s, hbs, hsign⟩ := readSign_prefix hds
      refine ⟨c :: (s ++ (readSign bs).2.takeWhile isDigit), congrArg (c :: ·) hbs, ?_⟩
      simp only [hsign, htake, hrest]
      rw [if_pos hc, if_pos hc]
    next hc => exact ⟨[], h, by rw [if_neg hc]⟩

/-- A number is read from its own characters alone. -/
theorem strtod_prefix {bs r : List UInt8} {q : ℚ} (h : strtod bs = some (q, r)) :
    ∃ v, bs = v ++ r ∧ strtod v = some (q, []) := by
  simp only [strtod] at h
  split at h
  · cases h
  next hsome =>
  obtain ⟨rfl, hr⟩ := Prod.mk.inj (Option.some.inj h)
  -- Each reader leaves off where the next one begins.
  obtain ⟨s₃, h₃, hexp⟩ := readExponent_prefix hr
  obtain ⟨s₂, h₂, hfrac⟩ := readFraction_prefix h₃
  obtain ⟨h₁, htake, hdrop⟩ := digits_prefix h₂
  rw [List.append_assoc] at h₁
  rw [← List.append_assoc] at h₁
  obtain ⟨s, hbs, hsign⟩ := readSign_prefix h₁
  refine ⟨s ++ ((readSign bs).2.takeWhile isDigit ++ (s₂ ++ s₃)), hbs, ?_⟩
  simp only [strtod, hsign, htake, hdrop, hfrac, hexp]
  rw [if_neg hsome]

/-- What may come after a value: after a number nothing that could be part of it. -/
def CanFollow (j : Json) (t : List UInt8) : Prop := j.isNumber = true → Stops isNumberChar t

theorem parseNumber_framed : Framed CanFollow parseNumber := by
  intro bs j rest h
  simp only [parseNumber] at h
  split at h
  · cases h
  next q afterEnd hq =>
  cases h
  obtain ⟨v, hv, hread⟩ := strtod_prefix hq
  have hlen : ((bs.takeWhile isNumberChar).take NUMBER_LENGTH).length - afterEnd.length = v.length := by
    rw [hv, List.length_append, Nat.add_sub_cancel]
  have hle : v.length ≤ NUMBER_LENGTH := by
    have := List.length_take_le NUMBER_LENGTH (bs.takeWhile isNumberChar)
    rw [hv, List.length_append] at this
    omega
  have hpre : v <+: bs := by
    have h₁ : v <+: (bs.takeWhile isNumberChar).take NUMBER_LENGTH := hv ▸ List.prefix_append _ _
    exact (h₁.trans (List.take_prefix _ _)).trans (List.takeWhile_prefix _)
  have hall : ∀ c ∈ v, isNumberChar c = true := by
    intro c hc
    have hmem : c ∈ (bs.takeWhile isNumberChar).take NUMBER_LENGTH := hv ▸ List.mem_append_left _ hc
    exact List.mem_takeWhile_imp (List.mem_of_mem_take hmem)
  rw [hlen]
  obtain ⟨rest, rfl⟩ := hpre
  have hne : v ≠ [] := by
    rintro rfl
    exact absurd hread (by simp [strtod, readSign, readFraction])
  refine ⟨v, hne, by rw [List.drop_left], fun t ht => ?_⟩
  have htake : ((v ++ t).takeWhile isNumberChar).take NUMBER_LENGTH = v := by
    rw [(takeWhile_stops hall (ht rfl)).1, List.take_of_length_le hle]
  simp only [parseNumber, htake, hread, List.length_nil, Nat.sub_zero, List.drop_left]

/-! ## Strings -/

/-- A literal ends at its closing quote, whatever follows. -/
theorem closingQuote_framed {bs literal rest : List UInt8} (h : closingQuote bs = some (literal, rest)) :
    bs = literal ++ 34 :: rest ∧ ∀ t, closingQuote (literal ++ 34 :: t) = some (literal, t) := by
  induction bs using closingQuote.induct generalizing literal with
  | case1 => cases h
  | case2 =>
    simp only [closingQuote, if_true] at h
    cases h
    refine ⟨rfl, fun t => ?_⟩
    cases t <;> rfl
  | case3 b hb => simp [closingQuote, hb] at h
  | case4 c bs =>
    simp only [closingQuote, if_true] at h
    cases h
    refine ⟨rfl, fun t => ?_⟩
    cases t <;> rfl
  | case5 c bs hne ih =>
    simp only [closingQuote, hne, if_false, if_true] at h
    obtain ⟨⟨literal', rest'⟩, hr, he⟩ := Option.map_eq_some_iff.mp h
    cases he
    obtain ⟨rfl, hread⟩ := ih hr
    refine ⟨rfl, fun t => ?_⟩
    simp only [List.cons_append, closingQuote, hne, if_false, if_true, hread t, Option.map_some]
  | case6 b c bs hq hb ih =>
    simp only [closingQuote, hq, hb, if_false] at h
    obtain ⟨⟨literal', rest'⟩, hr, he⟩ := Option.map_eq_some_iff.mp h
    cases he
    obtain ⟨hbs, hread⟩ := ih hr
    refine ⟨congrArg (b :: ·) hbs, fun t => ?_⟩
    have hshape : ∃ c' r', literal' ++ 34 :: t = c' :: r' := by
      cases literal' with
      | nil => exact ⟨_, _, rfl⟩
      | cons c' l => exact ⟨_, _, rfl⟩
    obtain ⟨c', r', hc'⟩ := hshape
    have hread' := hread t
    rw [hc'] at hread'
    rw [List.cons_append, hc']
    simp only [closingQuote, hq, hb, if_false, hread', Option.map_some]

theorem parseString_framed : Framed (fun _ _ => True) parseString := by
  intro bs s rest h
  cases bs with
  | nil => cases h
  | cons b bs =>
    simp only [parseString] at h
    split at h
    next hb =>
      split at h
      · cases h
      next literal rest' hq =>
      obtain ⟨output, hout, he⟩ := Option.map_eq_some_iff.mp h
      cases he
      obtain ⟨rfl, hread⟩ := closingQuote_framed hq
      refine ⟨b :: (literal ++ [34]), by simp, by simp, fun t _ => ?_⟩
      have hassoc : b :: (literal ++ [34]) ++ t = b :: (literal ++ 34 :: t) := by simp
      rw [hassoc]
      simp only [parseString, hb, if_true, hread t, hout, Option.map_some]
    next => cases h

/-! ## Values -/

/-- Whitespace and delimiters are no part of a number. -/
theorem isNumberChar_eq_false {c : UInt8} (h : isBlank c = true ∨ c = 44 ∨ c = 93 ∨ c = 125) :
    isNumberChar c = false := by
  rcases h with h | rfl | rfl | rfl
  · simp only [isBlank, decide_eq_true_eq, UInt8.le_iff_toNat_le] at h
    simp only [isNumberChar, isDigit, Bool.or_eq_false_iff, Bool.and_eq_false_iff, decide_eq_false_iff_not,
      beq_eq_false_iff_ne, ne_eq, UInt8.le_iff_toNat_le, ← UInt8.toNat_inj, UInt8.reduceToNat] at h ⊢
    omega
  all_goals rfl

theorem canFollow_delimiter {b : TokenParser.Brackets UInt8} (hblank : b.blank = isBlank)
    (hcomma : b.comma = 44) (hclosing : b.closing = 93 ∨ b.closing = 125) : Delimits b CanFollow := by
  intro j t c r hskip hc _ c' r' ht
  apply isNumberChar_eq_false
  by_cases hb : isBlank c' = true
  · exact .inl hb
  · rw [ht, TokenParser.skip_cons (by simpa [hblank] using hb)] at hskip
    obtain rfl := (List.cons.inj hskip).1
    rcases hc with rfl | rfl
    · exact .inr (.inl hcomma)
    · exact .inr (.inr hclosing)

theorem arrayBrackets_delimits : Delimits arrayBrackets CanFollow := canFollow_delimiter rfl rfl (.inl rfl)

theorem objectBrackets_delimits : Delimits objectBrackets fun (m : CString × Json) => CanFollow m.2 :=
  fun m => canFollow_delimiter (b := objectBrackets) rfl rfl (.inr rfl) m.2

variable {value : TokenParser UInt8 Json}

theorem parseMember_framed (hv : Framed CanFollow value) : Framed (fun m => CanFollow m.2) (parseMember value) := by
  intro bs m rest h
  simp only [parseMember] at h
  split at h
  · cases h
  next name bs₁ hname =>
  split at h
  · cases h
  next c bs₂ hcolon =>
  split at h
  next hc =>
    subst hc
    obtain ⟨⟨j, rest'⟩, hj, he⟩ := Option.map_eq_some_iff.mp h
    cases he
    obtain ⟨v, hne, rfl, hread⟩ := parseString_framed hname
    obtain ⟨v', hne', hv', hvalue⟩ := hv hj
    -- Whitespace, the colon and more whitespace stand between the name and the value.
    obtain ⟨w₁, hbs₁, hw₁⟩ := TokenParser.skip_suffix objectBrackets bs₁
    obtain ⟨w₂, hbs₂, hw₂⟩ := TokenParser.skip_suffix objectBrackets bs₂
    rw [show TokenParser.skip objectBrackets bs₁ = 58 :: bs₂ from hcolon] at hbs₁
    have hshown : TokenParser.skip objectBrackets bs₂ = v' ++ rest' := hv'
    rw [hshown] at hbs₂
    refine ⟨v ++ (w₁ ++ 58 :: (w₂ ++ v')), by simp [hne], by simp [hbs₁, hbs₂], fun t ht => ?_⟩
    have hassoc : v ++ (w₁ ++ 58 :: (w₂ ++ v')) ++ t = v ++ (w₁ ++ 58 :: (w₂ ++ (v' ++ t))) := by simp
    have h₁ : bufferSkipWhitespace (w₁ ++ 58 :: (w₂ ++ (v' ++ t))) = 58 :: (w₂ ++ (v' ++ t)) := by
      rw [show bufferSkipWhitespace = TokenParser.skip objectBrackets from rfl, TokenParser.skip_append hw₁]
      exact TokenParser.skip_cons (by decide)
    have h₂ : bufferSkipWhitespace (w₂ ++ (v' ++ t)) = v' ++ t := by
      rw [show bufferSkipWhitespace = TokenParser.skip objectBrackets from rfl, TokenParser.skip_append hw₂]
      exact TokenParser.skip_shown hshown hne'
    simp only [hassoc, parseMember, hread _ trivial, h₁, if_true, h₂, hvalue t ht, Option.map_some]
  next => cases h

theorem parseArray_framed (hv : Framed CanFollow value) : Framed (fun _ _ => True) (parseArray value) := by
  intro bs j rest h
  obtain ⟨⟨js, rest'⟩, hjs, he⟩ := Option.map_eq_some_iff.mp h
  cases he
  obtain ⟨v, hne, hbs, hread⟩ := TokenParser.bracketed_framed hv arrayBrackets_delimits hjs
  refine ⟨v, hne, hbs, fun t ht => ?_⟩
  simp only [parseArray, hread t ht, Option.map_some]

theorem parseObject_framed (hv : Framed CanFollow value) : Framed (fun _ _ => True) (parseObject value) := by
  intro bs j rest h
  obtain ⟨⟨fs, rest'⟩, hfs, he⟩ := Option.map_eq_some_iff.mp h
  cases he
  obtain ⟨v, hne, hbs, hread⟩ :=
    TokenParser.bracketed_framed (parseMember_framed hv) objectBrackets_delimits hfs
  refine ⟨v, hne, hbs, fun t ht => ?_⟩
  simp only [parseObject, hread t ht, Option.map_some]

/-- What `parse_value` does once the text begins with none of the words. -/
def parseMarked (nested : Option (TokenParser UInt8 Json)) (c : UInt8) : TokenParser UInt8 Json := fun bs =>
  if c = 34 then (parseString bs).map fun r => (.string r.1, r.2)
  else if c = 45 ∨ isDigit c then parseNumber bs
  else if c = 91 then nested.bind (parseArray · bs)
  else if c = 123 then nested.bind (parseObject · bs)
  else none

theorem parseMarked_framed {nested : Option (TokenParser UInt8 Json)} (hn : ∀ p ∈ nested, Framed CanFollow p)
    (c : UInt8) : Framed CanFollow (parseMarked nested c) := by
  intro bs j rest h
  simp only [parseMarked] at h ⊢
  split at h
  next hc =>
    obtain ⟨⟨s, rest'⟩, hs, he⟩ := Option.map_eq_some_iff.mp h
    cases he
    obtain ⟨v, hne, hbs, hread⟩ := parseString_framed hs
    exact ⟨v, hne, hbs, fun t _ => by rw [if_pos hc, hread t trivial]; rfl⟩
  next hc =>
  split at h
  next hd =>
    obtain ⟨v, hne, hbs, hread⟩ := parseNumber_framed h
    exact ⟨v, hne, hbs, fun t ht => by rw [if_neg hc, if_pos hd, hread t ht]⟩
  next hd =>
  split at h
  next ha =>
    obtain ⟨p, hp, h⟩ := Option.bind_eq_some_iff.mp h
    obtain ⟨v, hne, hbs, hread⟩ := parseArray_framed (hn p hp) h
    exact ⟨v, hne, hbs, fun t _ => by rw [if_neg hc, if_neg hd, if_pos ha, hp, Option.bind_some, hread t trivial]⟩
  next ha =>
  split at h
  next ho =>
    obtain ⟨p, hp, h⟩ := Option.bind_eq_some_iff.mp h
    obtain ⟨v, hne, hbs, hread⟩ := parseObject_framed (hn p hp) h
    exact ⟨v, hne, hbs, fun t _ => by
      rw [if_neg hc, if_neg hd, if_neg ha, if_pos ho, hp, Option.bind_some, hread t trivial]⟩
  next => cases h

/-- The words of `parse_value`, in its order, and what they stand for. -/
def words : List (List UInt8 × Json) :=
  [(CString.bytes "null", .null), (CString.bytes "false", .bool false), (CString.bytes "true", .bool true)]

theorem parseAt_eq (nested : Option (TokenParser UInt8 Json)) (bs : List UInt8) :
    parseAt nested bs =
      match words.find? (·.1.isPrefixOf bs) with
      | some (word, j) => some (j, bs.drop word.length)
      | none => match bs with
        | [] => none
        | c :: _ => parseMarked nested c bs := by
  simp only [parseAt, words, List.find?_cons, List.find?_nil]
  cases hn : (CString.bytes "null").isPrefixOf bs with
  | true => rfl
  | false =>
    cases hf : (CString.bytes "false").isPrefixOf bs with
    | true => rfl
    | false =>
      cases ht : (CString.bytes "true").isPrefixOf bs with
      | true => rfl
      | false => rfl

/-- The first byte of a word marks no other value. -/
theorem parseMarked_letter (nested : Option (TokenParser UInt8 Json)) {c : UInt8} (hc : c = 110 ∨ c = 102 ∨ c = 116)
    (bs : List UInt8) : parseMarked nested c bs = none := by
  rcases hc with rfl | rfl | rfl <;> rfl

/-- Every word begins with one of three letters. -/
theorem find_words_eq_none {c : UInt8} (hc : ¬ (c = 110 ∨ c = 102 ∨ c = 116)) (bs : List UInt8) :
    words.find? (·.1.isPrefixOf (c :: bs)) = none := by
  rw [not_or, not_or] at hc
  obtain ⟨hn, hf, ht⟩ := hc
  rw [List.find?_eq_none]
  intro w hw
  simp only [words, List.mem_cons, List.not_mem_nil, or_false] at hw
  rcases hw with rfl | rfl | rfl
  · exact fun h => hn (List.cons_prefix_cons.mp (List.isPrefixOf_iff_prefix.mp h)).1.symm
  · exact fun h => hf (List.cons_prefix_cons.mp (List.isPrefixOf_iff_prefix.mp h)).1.symm
  · exact fun h => ht (List.cons_prefix_cons.mp (List.isPrefixOf_iff_prefix.mp h)).1.symm

theorem parseAt_word (nested : Option (TokenParser UInt8 Json)) {word : List UInt8} {j : Json} (hw : (word, j) ∈ words)
    (t : List UInt8) : parseAt nested (word ++ t) = some (j, t) := by
  simp only [words, List.mem_cons, Prod.mk.injEq, List.not_mem_nil, or_false] at hw
  rcases hw with ⟨rfl, rfl⟩ | ⟨rfl, rfl⟩ | ⟨rfl, rfl⟩ <;> rfl

theorem parseAt_marked (nested : Option (TokenParser UInt8 Json)) {c : UInt8} (hc : ¬ (c = 110 ∨ c = 102 ∨ c = 116))
    (bs : List UInt8) : parseAt nested (c :: bs) = parseMarked nested c (c :: bs) := by
  rw [parseAt_eq, find_words_eq_none hc]

theorem parseAt_framed {nested : Option (TokenParser UInt8 Json)} (hn : ∀ p ∈ nested, Framed CanFollow p) :
    Framed CanFollow (parseAt nested) := by
  intro bs j rest h
  rw [parseAt_eq] at h
  split at h
  next word j' hw =>
    cases h
    have hmem := List.mem_of_find?_eq_some hw
    have hpre : word.isPrefixOf bs = true :=
      List.find?_some (p := fun w : List UInt8 × Json => w.1.isPrefixOf bs) hw
    obtain ⟨rest, rfl⟩ := List.isPrefixOf_iff_prefix.mp hpre
    have hword : ∀ w ∈ words, w.1 ≠ [] := by decide
    exact ⟨word, hword _ hmem, by rw [List.drop_left], fun t _ => parseAt_word nested hmem t⟩
  next hw =>
  split at h
  · cases h
  next c bs =>
  have hc : ¬ (c = 110 ∨ c = 102 ∨ c = 116) := by
    intro hc
    rw [parseMarked_letter nested hc] at h
    cases h
  obtain ⟨v, hne, hbs, hread⟩ := parseMarked_framed hn c h
  obtain ⟨c', v, rfl⟩ := List.exists_cons_of_ne_nil hne
  obtain rfl : c = c' := (List.cons.inj hbs).1
  exact ⟨c :: v, hne, hbs, fun t ht => (parseAt_marked nested hc _).trans (hread t ht)⟩

theorem parseValue_framed (levels : Nat) : Framed CanFollow (parseValue levels) := by
  induction levels with
  | zero => exact parseAt_framed nofun
  | succ n ih => exact parseAt_framed fun p hp => by cases hp; exact ih

/-! ## Texts -/

/-- A byte order mark and whitespace are skipped before the value. -/
def lead (bs : List UInt8) : List UInt8 := bufferSkipWhitespace (skipUtf8Bom bs)

/-- The value of a text, and what comes after it. -/
def parseText : TokenParser UInt8 Json := fun bs => parseValue CJSON_NESTING_LIMIT (lead bs)

theorem parse_eq_parseText (s : CString) : Json.parse s = (parseText s.bytes).map (·.1) := rfl

/-- The first byte of a value tells whether it is a number. -/
theorem parseValue_head {levels : Nat} {c : UInt8} {bs r : List UInt8} {j : Json}
    (h : parseValue levels (c :: bs) = some (j, r)) :
    c ≠ 0xEF ∧ (j.isNumber = true ↔ c = 45 ∨ isDigit c = true) := by
  obtain ⟨nested, hnested⟩ : ∃ nested, parseValue levels = parseAt nested := by
    cases levels with
    | zero => exact ⟨none, rfl⟩
    | succ n => exact ⟨some (parseValue n), rfl⟩
  rw [hnested] at h
  by_cases hc : c = 110 ∨ c = 102 ∨ c = 116
  · rw [parseAt_eq] at h
    split at h
    next word j' hw =>
      cases h
      have hmem := List.mem_of_find?_eq_some hw
      simp only [words, List.mem_cons, Prod.mk.injEq, List.not_mem_nil, or_false] at hmem
      have hj : j.isNumber = false := by rcases hmem with ⟨-, rfl⟩ | ⟨-, rfl⟩ | ⟨-, rfl⟩ <;> rfl
      rw [hj]
      rcases hc with rfl | rfl | rfl <;> decide
    next =>
      simp only [parseMarked_letter nested hc] at h
      cases h
  · rw [parseAt_marked nested hc] at h
    simp only [parseMarked] at h
    split at h
    next hq =>
      subst hq
      obtain ⟨r', -, he⟩ := Option.map_eq_some_iff.mp h
      cases he
      exact ⟨by decide, by simp [Json.isNumber, isDigit]⟩
    next =>
    split at h
    next hd =>
      refine ⟨?_, ?_⟩
      · rintro rfl
        exact absurd hd (by decide)
      · simp only [parseNumber] at h
        split at h
        · cases h
        · cases h
          exact iff_of_true rfl hd
    next hd =>
    split at h
    next ha =>
      subst ha
      obtain ⟨p, -, h⟩ := Option.bind_eq_some_iff.mp h
      obtain ⟨r', -, he⟩ := Option.map_eq_some_iff.mp h
      cases he
      exact ⟨by decide, by simp [Json.isNumber, isDigit]⟩
    next =>
    split at h
    next ho =>
      subst ho
      obtain ⟨p, -, h⟩ := Option.bind_eq_some_iff.mp h
      obtain ⟨r', -, he⟩ := Option.map_eq_some_iff.mp h
      cases he
      exact ⟨by decide, by simp [Json.isNumber, isDigit]⟩
    next => cases h

/-- What is skipped before a value is skipped before it wherever it stands. -/
theorem lead_append {bs y : List UInt8} {c : UInt8} {x : List UInt8} (h : lead bs = c :: x ++ y) (hc : c ≠ 0xEF) :
    ∃ u, bs = u ++ (c :: x) ++ y ∧ ∀ t, lead (u ++ (c :: x) ++ t) = c :: x ++ t := by
  have hshown : ∀ {bs}, lead bs = TokenParser.skip arrayBrackets (skipUtf8Bom bs) := rfl
  rw [hshown] at h
  obtain ⟨w, hbs, hw⟩ := TokenParser.skip_suffix arrayBrackets (skipUtf8Bom bs)
  rw [h] at hbs
  by_cases hbom : 4 ≤ bs.length ∧ [0xEF, 0xBB, 0xBF].isPrefixOf bs = true
  · obtain ⟨bs', rfl⟩ := List.isPrefixOf_iff_prefix.mp hbom.2
    rw [skipUtf8Bom, if_pos hbom] at hbs
    obtain rfl : bs' = w ++ (c :: x ++ y) := hbs
    refine ⟨[0xEF, 0xBB, 0xBF] ++ w, by simp, fun t => ?_⟩
    have hskip : skipUtf8Bom ([0xEF, 0xBB, 0xBF] ++ w ++ (c :: x) ++ t) = w ++ (c :: x ++ t) := by
      rw [skipUtf8Bom, if_pos ⟨by simp; omega, by simp⟩]
      simp
    rw [hshown, hskip, TokenParser.skip_append hw]
    exact TokenParser.skip_shown h (List.cons_ne_nil _ _)
  · rw [skipUtf8Bom, if_neg hbom] at hbs
    refine ⟨w, by rw [hbs, List.append_assoc], fun t => ?_⟩
    -- Without a mark the first byte is whitespace or the value's own.
    have hskip : skipUtf8Bom (w ++ (c :: x) ++ t) = w ++ (c :: x ++ t) := by
      rw [skipUtf8Bom, List.append_assoc, if_neg]
      rintro ⟨-, hpre⟩
      have hpre := List.isPrefixOf_iff_prefix.mp hpre
      cases w with
      | nil => exact hc (List.cons_prefix_cons.mp hpre).1.symm
      | cons b w =>
        have hb := hw b List.mem_cons_self
        rw [← (List.cons_prefix_cons.mp hpre).1] at hb
        exact absurd hb (by decide)
    rw [hshown, hskip, TokenParser.skip_append hw]
    exact TokenParser.skip_shown h (List.cons_ne_nil _ _)

theorem parseText_framed : Framed CanFollow parseText := by
  intro bs j rest h
  obtain ⟨v, hne, hbs, hread⟩ := parseValue_framed _ h
  obtain ⟨c, x, rfl⟩ := List.exists_cons_of_ne_nil hne
  have hc : c ≠ 0xEF := (parseValue_head (by rw [parseText, hbs] at h; exact h)).1
  obtain ⟨u, hu, hlead⟩ := lead_append hbs hc
  refine ⟨u ++ c :: x, by simp, hu, fun t ht => ?_⟩
  rw [parseText, hlead]
  exact hread t ht

/-- A text that is a value alone, and a proper prefix of it that parses: the
value is a number. -/
theorem parseText_prefix_eq {v x r : List UInt8} {j j' : Json} (hv : parseText v = some (j, [])) (hx : x <+: v)
    (hread : parseText x = some (j', r)) (hj : j.isNumber = false) : x = v := by
  obtain ⟨w, rfl⟩ := hx
  obtain ⟨u, -, rfl, hframe⟩ := parseText_framed hread
  -- Both begin with the same byte.
  have hj' : j'.isNumber = false := by
    obtain ⟨y, hne, hlead, -⟩ := parseValue_framed _ hread
    obtain ⟨c, y, rfl⟩ := List.exists_cons_of_ne_nil hne
    have hhead : parseValue CJSON_NESTING_LIMIT (c :: (y ++ r)) = some (j', r) := by
      rw [parseText, hlead] at hread
      exact hread
    obtain ⟨hc, hnum'⟩ := parseValue_head hhead
    obtain ⟨u', hu', happ⟩ := lead_append hlead hc
    have hwhole : parseValue CJSON_NESTING_LIMIT (c :: (y ++ (r ++ w))) = some (j, []) := by
      have hsame : u ++ r ++ w = u' ++ c :: y ++ (r ++ w) := by rw [hu', List.append_assoc, List.append_assoc]
      rw [parseText, hsame, happ] at hv
      exact hv
    have hnum := (parseValue_head hwhole).2
    rw [← hnum'] at hnum
    exact Bool.eq_false_iff.mpr fun h => by rw [hnum.mpr h] at hj; cases hj
  have hsame := hframe (r ++ w) fun h => by rw [hj'] at h; cases h
  rw [← List.append_assoc, hv] at hsame
  obtain ⟨rfl, rfl⟩ := List.append_eq_nil_iff.mp (Prod.mk.inj (Option.some.inj hsame)).2.symm
  simp

/-- A text that parses begins with one that parses by itself and whatever follows it. -/
theorem parse_split {s : CString} {j : Json} (h : Json.parse s = some j) (hj : j.isNumber = false) :
    ∃ v rest : CString, s = v ++ rest ∧ ∀ t, parseText (v.bytes ++ t) = some (j, t) := by
  obtain ⟨⟨j', r⟩, hread, he⟩ := Option.map_eq_some_iff.mp h
  obtain rfl : j' = j := he
  obtain ⟨v, -, hs, hframe⟩ := parseText_framed hread
  have hv : (0 : UInt8) ∉ v ∧ (0 : UInt8) ∉ r := by
    have := s.noNul
    rw [hs, List.mem_append, not_or] at this
    exact this
  exact ⟨⟨v, hv.1⟩, ⟨r, hv.2⟩, CString.ext hs, fun t => hframe t fun hn => by rw [hj] at hn; cases hn⟩

/-- Cut short, such a text does not parse. -/
theorem parse_cut {v p : CString} {j : Json} (hv : parseText v.bytes = some (j, [])) (hj : j.isNumber = false)
    (hp : p.bytes <+: v.bytes) (hne : p ≠ v) : Json.parse p = none := by
  rw [parse_eq_parseText]
  cases hcut : parseText p.bytes with
  | none => rfl
  | some a => exact absurd (CString.ext (parseText_prefix_eq hv hp hcut hj)) hne

end JsonParse

/-- **What `cJSON_Parse` looks at.** A value that is no number is read from
bytes of its own: with whatever follows them it reads the same, and cut short
anywhere they do not parse. -/
theorem parse_frame {s : CString} {j : Json} (h : Json.parse s = some j) (hj : j.isNumber = false) :
    ∃ v rest : CString, s = v ++ rest ∧ (∀ t, Json.parse (v ++ t) = some j) ∧
      ∀ p : CString, p.bytes <+: v.bytes → p ≠ v → Json.parse p = none := by
  obtain ⟨v, rest, hs, hfollow⟩ := JsonParse.parse_split h hj
  refine ⟨v, rest, hs, fun t => ?_, fun p hp hne => ?_⟩
  · rw [JsonParse.parse_eq_parseText, CString.append_bytes, hfollow]
    rfl
  · have hv := hfollow []
    rw [List.append_nil] at hv
    exact JsonParse.parse_cut hv hj hp hne

theorem parse_frame_ping :
    ∃ v rest : CString, ("\x7b\"action\":100\x7d, too" : CString) = v ++ rest ∧
      (∀ t, Json.parse (v ++ t) = some (.object [("action", .createNumber 100)])) ∧
      ∀ p : CString, p.bytes <+: v.bytes → p ≠ v → Json.parse p = none :=
  parse_frame (by decide +kernel) rfl

end FinalServer
