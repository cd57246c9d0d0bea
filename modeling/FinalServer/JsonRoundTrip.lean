/-
`cJSON_Parse` of what `cJSON_PrintUnformatted` prints.

A tree whose numbers are `int`s is read back as it was, if it is nested no
deeper than the limit; if it is, its text does not parse. The escapes of a
string and the digits of a number come back one by one, lists by the rule
for written lists.
-/
import FinalServer.JsonFrame
import FinalServer.JsonPrint
import FinalServer.JsonTree

namespace FinalServer

namespace JsonParse

/-! ## Numbers -/

theorem isNumberChar_of_isDigit {b : UInt8} (h : isDigit b = true) : isNumberChar b = true := by
  simp [isNumberChar, h]

/-- A digit is no sign. -/
theorem readSign_digits {ds : List UInt8} (hds : ∀ b ∈ ds, isDigit b = true) : readSign ds = (false, ds) := by
  cases ds with
  | nil => rfl
  | cons b ds =>
    have hb := hds b List.mem_cons_self
    have hminus : b ≠ 45 := by rintro rfl; exact absurd hb (by decide)
    have hplus : b ≠ 43 := by rintro rfl; exact absurd hb (by decide)
    simp [readSign, hminus, hplus]

/-- The text of an integer of at most 53 bits is read as its value. -/
theorem strtod_ofInt {n : Int} (h : |n| < 2 ^ 53) : strtod (CString.ofInt n).bytes = some ((n : ℚ), []) := by
  have hdigits : ∀ b ∈ decimal n.natAbs, isDigit b = true := fun b hb => isDigit_decimal hb
  have hwhole := takeWhile_stops (p := isDigit) (t := []) hdigits fun _ _ h => by cases h
  rw [List.append_nil] at hwhole
  have hsign : readSign (CString.ofInt n).bytes = (decide (n < 0), decimal n.natAbs) := by
    rw [ofInt_bytes]
    split
    next hneg => simp [readSign, hneg]
    next hneg => simpa [hneg] using readSign_digits hdigits
  simp only [strtod, hsign, hwhole, readFraction, readExponent, List.append_nil, digitsValue_decimal, List.length_nil]
  rw [if_neg fun h => decimal_ne_nil _ h.1]
  have hvalue : (if decide (n < 0) = true then -((n.natAbs : ℚ) * 10 ^ ((0 : Int) - (0 : Nat)))
      else (n.natAbs : ℚ) * 10 ^ ((0 : Int) - (0 : Nat))) = (n : ℚ) := by
    have habs : (n.natAbs : ℚ) = ((|n| : Int) : ℚ) := Nat.cast_natAbs n
    simp only [Nat.cast_zero, sub_zero, zpow_zero, mul_one, decide_eq_true_eq, habs]
    split
    next hneg => rw [abs_of_neg hneg]; push_cast; ring
    next hneg => rw [abs_of_nonneg (by omega)]
  rw [hvalue, Double.nearest_intCast h]

/-- An `int` is read back. -/
theorem parseNumber_ofInt {n : Int} (hlo : Json.INT_MIN ≤ n) (hhi : n ≤ Json.INT_MAX) {t : List UInt8}
    (ht : Stops isNumberChar t) : parseNumber ((CString.ofInt n).bytes ++ t) = some (.number n, t) := by
  have hchars : ∀ b ∈ (CString.ofInt n).bytes, isNumberChar b = true := by
    rw [ofInt_bytes]
    intro b hb
    rcases List.mem_append.mp hb with h | h
    · split at h
      · rw [List.mem_singleton.mp h]
        decide
      · cases h
    · exact isNumberChar_of_isDigit (isDigit_decimal h)
  have hlen : (CString.ofInt n).bytes.length ≤ NUMBER_LENGTH := (length_ofInt_le hlo hhi).trans (by decide)
  have habs : |n| < 2 ^ 53 := by
    simp only [Json.INT_MIN, Json.INT_MAX] at hlo hhi
    rw [abs_lt]
    omega
  simp only [parseNumber, (takeWhile_stops hchars ht).1, List.take_of_length_le hlen, strtod_ofInt habs,
    List.length_nil, Nat.sub_zero, List.drop_left]

/-! ## Strings -/

/-- A byte that begins no escape sequence and closes no literal stands for itself. -/
theorem closingQuote_cons {b : UInt8} (hq : b ≠ 34) (hb : b ≠ 92) (bs : List UInt8) :
    closingQuote (b :: bs) = (closingQuote bs).map fun r => (b :: r.1, r.2) := by
  cases bs with
  | nil => simp [closingQuote, hq]
  | cons c bs => simp only [closingQuote, hq, hb, if_false]

theorem closingQuote_escape (c : UInt8) (bs : List UInt8) :
    closingQuote (92 :: c :: bs) = (closingQuote bs).map fun r => (92 :: c :: r.1, r.2) := by
  simp [closingQuote]

theorem unescape_cons {b : UInt8} (hb : b ≠ 92) (bs : List UInt8) :
    unescape 0 (b :: bs) = (unescape 0 bs).map (b :: ·) := by
  simp [unescape, hb]

/-- The digits that `%04x` prints of a control byte are read back, and are neither quote nor backslash. -/
theorem hexDigit_control : ∀ n < 32,
    parseHex4 [48, 48, Json.hexDigit (UInt8.ofNat n / 16), Json.hexDigit (UInt8.ofNat n % 16)] = n ∧
      (Json.hexDigit (UInt8.ofNat n / 16) ≠ 34 ∧ Json.hexDigit (UInt8.ofNat n / 16) ≠ 92) ∧
      Json.hexDigit (UInt8.ofNat n % 16) ≠ 34 ∧ Json.hexDigit (UInt8.ofNat n % 16) ≠ 92 := by decide

theorem escapeSequence_hex (bs : List UInt8) :
    escapeSequence (92 :: 117 :: bs) = utf16LiteralToUtf8 (92 :: 117 :: bs) := rfl

/-- Four digits of an ASCII code are the byte. -/
theorem utf16LiteralToUtf8_ascii (h₁ h₂ h₃ h₄ : UInt8) (bs : List UInt8) (h : parseHex4 [h₁, h₂, h₃, h₄] < 0x80) :
    utf16LiteralToUtf8 (92 :: 117 :: h₁ :: h₂ :: h₃ :: h₄ :: bs) =
      some ([.ofNat (parseHex4 [h₁, h₂, h₃, h₄] &&& 0x7F)], 6) := by
  have hfirst : parseHex4 ((92 :: 117 :: h₁ :: h₂ :: h₃ :: h₄ :: bs).drop 2) = parseHex4 [h₁, h₂, h₃, h₄] := rfl
  rw [utf16LiteralToUtf8, if_neg (by simp), hfirst]
  generalize parseHex4 [h₁, h₂, h₃, h₄] = code at h ⊢
  simp only [encodeUtf8, h, if_true]
  rw [if_neg (by omega), if_neg (by omega)]
  rfl

/-- What `print_string_ptr` writes of a byte is one piece of the literal, and stands for the byte. -/
structure Escapes (b : UInt8) (written : List UInt8) : Prop where
  closing : ∀ bs, closingQuote (written ++ bs) = (closingQuote bs).map fun r => (written ++ r.1, r.2)
  stands : ∀ bs, unescape 0 (written ++ bs) = (unescape 0 bs).map (b :: ·)

/-- The escape sequences of one character. -/
theorem escapes_character {b c : UInt8} (h : ∀ bs, escapeSequence (92 :: c :: bs) = some ([b], 2)) :
    Escapes b [92, c] where
  closing bs := closingQuote_escape c bs
  stands bs := by
    simp only [List.cons_append, List.nil_append, unescape, if_true, h]

theorem escapes_control {b : UInt8} (hb : b < 32) :
    Escapes b [92, 117, 48, 48, Json.hexDigit (b / 16), Json.hexDigit (b % 16)] := by
  have hlt : b.toNat < 32 := by simpa [UInt8.lt_iff_toNat_lt] using hb
  have hdigits := hexDigit_control b.toNat hlt
  rw [UInt8.ofNat_toNat] at hdigits
  obtain ⟨hhex, ⟨hq₁, hb₁⟩, hq₂, hb₂⟩ := hdigits
  refine ⟨fun bs => ?_, fun bs => ?_⟩
  · simp only [List.cons_append, List.nil_append, closingQuote_escape,
      closingQuote_cons (b := 48) (by decide) (by decide), closingQuote_cons hq₁ hb₁, closingQuote_cons hq₂ hb₂,
      Option.map_map, Function.comp_def]
  · have hseq : escapeSequence
        (92 :: 117 :: 48 :: 48 :: Json.hexDigit (b / 16) :: Json.hexDigit (b % 16) :: bs) = some ([b], 6) := by
      have hbyte : UInt8.ofNat (b.toNat &&& 0x7F) = b := by
        rw [Nat.and_two_pow_sub_one_eq_mod _ 7, Nat.mod_eq_of_lt (by omega), UInt8.ofNat_toNat]
      rw [escapeSequence_hex, utf16LiteralToUtf8_ascii _ _ _ _ _ (by omega), hhex, hbyte]
    simp only [List.cons_append, List.nil_append, unescape, if_true, hseq]

theorem escapes_escapeByte {b : UInt8} (h0 : b ≠ 0) : Escapes b (Json.escapeByte b) := by
  unfold Json.escapeByte
  split
  next h => rcases h with rfl | rfl <;> exact escapes_character fun _ => rfl
  next hq =>
  split
  next h => subst h; exact escapes_character fun _ => rfl
  next =>
  split
  next h => subst h; exact escapes_character fun _ => rfl
  next =>
  split
  next h => subst h; exact escapes_character fun _ => rfl
  next =>
  split
  next h => subst h; exact escapes_character fun _ => rfl
  next =>
  split
  next h => subst h; exact escapes_character fun _ => rfl
  next =>
  split
  next h => exact escapes_control h
  next =>
    rw [not_or] at hq
    exact ⟨closingQuote_cons hq.1 hq.2, unescape_cons hq.2⟩

theorem escapes_bytes {bytes : List UInt8} (h0 : 0 ∉ bytes) :
    unescape 0 (bytes.flatMap Json.escapeByte) = some bytes ∧
      ∀ t, closingQuote (bytes.flatMap Json.escapeByte ++ 34 :: t) = some (bytes.flatMap Json.escapeByte, t) := by
  induction bytes with
  | nil =>
    refine ⟨rfl, fun t => ?_⟩
    cases t <;> rfl
  | cons b bytes ih =>
    rw [List.mem_cons, not_or] at h0
    obtain ⟨hstands, hclosing⟩ := ih h0.2
    obtain ⟨hclose, hstand⟩ := escapes_escapeByte (Ne.symm h0.1)
    rw [List.flatMap_cons]
    refine ⟨by rw [hstand, hstands]; rfl, fun t => ?_⟩
    rw [List.append_assoc, hclose, hclosing]
    rfl

/-- A printed string is read back. -/
theorem parseString_print (s : CString) (t : List UInt8) : parseString (Json.printString s ++ t) = some (s, t) := by
  obtain ⟨hstands, hclosing⟩ := escapes_bytes s.noNul
  have hshape : Json.printString s ++ t = 34 :: (s.bytes.flatMap Json.escapeByte ++ 34 :: t) := by
    simp [Json.printString]
  simp only [hshape, parseString, if_true, hclosing, hstands, Option.map_some, CString.ofBytes_bytes]

/-! ## Trees -/

/-- How a child of an object is printed. -/
def printMember (m : CString × Json) : List UInt8 := Json.printString m.1 ++ 58 :: m.2.print

theorem printItems_eq (js : List Json) : Json.printItems js = TokenParser.separated 44 (js.map Json.print) := by
  induction js with
  | nil => rfl
  | cons j js ih =>
    cases js with
    | nil => rfl
    | cons j' js =>
      rw [Json.printItems, ih]
      · rfl
      · simp

theorem printFields_eq (fs : List (CString × Json)) :
    Json.printFields fs = TokenParser.separated 44 (fs.map printMember) := by
  induction fs with
  | nil => rfl
  | cons f fs ih =>
    cases fs with
    | nil => rfl
    | cons f' fs =>
      rw [Json.printFields, ih]
      · simp [TokenParser.separated, printMember]
      · simp

/-- A printed value begins with a byte that shows, and is no closing one. -/
theorem print_head (j : Json) : ∃ c r, j.print = c :: r ∧ isBlank c = false ∧ c ≠ 93 ∧ c < 128 := by
  cases j with
  | null => exact ⟨110, _, rfl, by decide, by decide, by decide⟩
  | bool b => cases b <;> exact ⟨_, _, rfl, by decide, by decide, by decide⟩
  | number d =>
    have hbytes := ofInt_bytes (Json.toInt d)
    obtain ⟨b, ds, hds⟩ := List.exists_cons_of_ne_nil (decimal_ne_nil (Json.toInt d).natAbs)
    split at hbytes
    · exact ⟨45, _, hbytes, by decide, by decide, by decide⟩
    · rw [hds] at hbytes
      have hb : isDigit b = true := isDigit_decimal (hds ▸ List.mem_cons_self)
      simp only [isDigit, isBlank, Bool.and_eq_true, decide_eq_true_eq, decide_eq_false_iff_not, ne_eq,
        UInt8.le_iff_toNat_le, UInt8.lt_iff_toNat_lt, ← UInt8.toNat_inj, UInt8.reduceToNat] at hb ⊢
      exact ⟨b, ds, hbytes, by omega, by omega, by omega⟩
  | string s => exact ⟨34, _, rfl, by decide, by decide, by decide⟩
  | array js => exact ⟨91, _, rfl, by decide, by decide, by decide⟩
  | object fs => exact ⟨123, _, rfl, by decide, by decide, by decide⟩

theorem skip_print (j : Json) (t : List UInt8) : bufferSkipWhitespace (j.print ++ t) = j.print ++ t := by
  obtain ⟨c, r, hj, hc, -⟩ := print_head j
  rw [hj]
  exact TokenParser.skip_cons (b := arrayBrackets) hc

theorem intNumbers_array {js : List Json} (h : (Json.array js).IntNumbers) : ∀ j ∈ js, j.IntNumbers :=
  fun j hj d hd => h d (Json.mem_numbersOfItems.mpr ⟨j, hj, hd⟩)

theorem intNumbers_object {fs : List (CString × Json)} (h : (Json.object fs).IntNumbers) : ∀ f ∈ fs, f.2.IntNumbers :=
  fun f hf d hd => h d (Json.mem_numbersOfFields.mpr ⟨f, hf, hd⟩)

/-- `parse_value` on a list in its brackets, when its elements read back. -/
theorem readsBack_items {js : List Json} {n : Nat} (h : ∀ j ∈ js, ∀ t, CanFollow j t →
    parseValue n (j.print ++ t) = if j.depth ≤ n then some (j, t) else none) :
    TokenParser.ReadsBack arrayBrackets (parseValue n) Json.print (fun j => decide (j.depth ≤ n)) js where
  reads j hj t c r ht hc := by
    have hskip : TokenParser.skip arrayBrackets t = c :: r := by
      rw [ht]
      rcases hc with rfl | rfl <;> exact TokenParser.skip_cons (by decide)
    rw [h j hj t (arrayBrackets_delimits j t c r hskip hc)]
    simp only [decide_eq_true_eq]
  shows j _ := by
    obtain ⟨c, r, hj, hc, h93, -⟩ := print_head j
    exact ⟨c, r, hj, hc, h93⟩

theorem readsBack_fields {fs : List (CString × Json)} {n : Nat} (h : ∀ f ∈ fs, ∀ t, CanFollow f.2 t →
    parseValue n (f.2.print ++ t) = if f.2.depth ≤ n then some (f.2, t) else none) :
    TokenParser.ReadsBack objectBrackets (parseMember (parseValue n)) printMember
      (fun f => decide (f.2.depth ≤ n)) fs where
  reads f hf t c r ht hc := by
    have hskip : TokenParser.skip objectBrackets t = c :: r := by
      rw [ht]
      rcases hc with rfl | rfl <;> exact TokenParser.skip_cons (by decide)
    have hvalue := h f hf t (objectBrackets_delimits f t c r hskip hc)
    have hcolon : ∀ bs, bufferSkipWhitespace (58 :: bs) = 58 :: bs :=
      fun bs => TokenParser.skip_cons (b := objectBrackets) (by decide)
    simp only [parseMember, printMember, List.append_assoc, List.cons_append, parseString_print, hcolon, if_true,
      skip_print, hvalue, decide_eq_true_eq]
    split <;> rfl
  shows f _ := ⟨34, _, rfl, by decide, by decide⟩

/-- A printed value is read back if it is nested no deeper than the levels left, and refused if it is. -/
theorem parseValue_print (j : Json) : ∀ (levels : Nat) (t : List UInt8), j.IntNumbers → CanFollow j t →
    parseValue levels (j.print ++ t) = if j.depth ≤ levels then some (j, t) else none := by
  have hnested : ∀ levels, ∃ nested, parseValue levels = parseAt nested := by
    intro levels
    cases levels with
    | zero => exact ⟨none, rfl⟩
    | succ n => exact ⟨some (parseValue n), rfl⟩
  induction j using Json.treeInduction with
  | null =>
    intro levels t _ _
    obtain ⟨nested, hn⟩ := hnested levels
    rw [hn, if_pos (by simp [Json.depth])]
    exact parseAt_word nested (by simp [words, Json.print]) t
  | bool b =>
    intro levels t _ _
    obtain ⟨nested, hn⟩ := hnested levels
    rw [hn, if_pos (by simp [Json.depth])]
    cases b with
    | false => exact parseAt_word nested (by simp [words, Json.print]) t
    | true => exact parseAt_word nested (by simp [words, Json.print]) t
  | number d =>
    intro levels t hints ht
    obtain ⟨n, rfl, hlo, hhi⟩ := hints d (by simp [Json.numbers])
    obtain ⟨nested, hnest⟩ := hnested levels
    have hprint : (Json.number (n : ℚ)).print = (CString.ofInt n).bytes := by
      have hv : Json.toInt n = n := Json.valueint_createNumber hlo hhi
      rw [Json.print, hv]
    obtain ⟨c, r, hbytes, hc⟩ : ∃ c r, (CString.ofInt n).bytes = c :: r ∧ (c = 45 ∨ isDigit c = true) := by
      rw [ofInt_bytes]
      obtain ⟨b, ds, hds⟩ := List.exists_cons_of_ne_nil (decimal_ne_nil n.natAbs)
      split
      · exact ⟨45, _, rfl, .inl rfl⟩
      · exact ⟨b, ds, hds, .inr (isDigit_decimal (hds ▸ List.mem_cons_self))⟩
    have hletter : ¬ (c = 110 ∨ c = 102 ∨ c = 116) := by
      intro h
      rcases h with rfl | rfl | rfl <;> exact absurd hc (by decide)
    have hquote : c ≠ 34 := by
      rintro rfl
      exact absurd hc (by decide)
    rw [hnest, if_pos (by simp [Json.depth]), hprint, hbytes, List.cons_append, parseAt_marked nested hletter,
      parseMarked, if_neg hquote, if_pos hc, ← List.cons_append, ← hbytes]
    exact parseNumber_ofInt hlo hhi (ht rfl)
  | string s =>
    intro levels t _ _
    obtain ⟨nested, hnest⟩ := hnested levels
    have hprint : (Json.string s).print ++ t = 34 :: (s.bytes.flatMap Json.escapeByte ++ [34] ++ t) := rfl
    rw [hnest, if_pos (by simp [Json.depth]), hprint, parseAt_marked nested (by decide), parseMarked, if_pos rfl,
      ← hprint, Json.print, parseString_print]
    rfl
  | array js ih =>
    intro levels t hints _
    have hprint : (Json.array js).print ++ t = 91 :: (TokenParser.separated 44 (js.map Json.print) ++ 93 :: t) := by
      rw [Json.print, printItems_eq]
      simp
    cases levels with
    | zero => rw [hprint, parseValue, parseAt_marked none (by decide), if_neg (by simp [Json.depth])]; rfl
    | succ n =>
      have hback := TokenParser.bracketed_separated
        (readsBack_items fun j hj t ht => ih j hj n t (intNumbers_array hints j hj) ht) t
      rw [hprint, parseValue, parseAt_marked _ (by decide)]
      change parseArray (parseValue n) _ = _
      rw [parseArray]
      change Option.map _ (TokenParser.bracketed arrayBrackets (parseValue n)
        (arrayBrackets.opening :: (TokenParser.separated arrayBrackets.comma (js.map Json.print) ++
          arrayBrackets.closing :: t))) = _
      rw [hback]
      simp only [List.all_eq_true, decide_eq_true_eq, ← Json.depthItems_le, Json.depth, Nat.add_le_add_iff_right]
      split <;> rfl
  | object fs ih =>
    intro levels t hints _
    have hprint : (Json.object fs).print ++ t = 123 :: (TokenParser.separated 44 (fs.map printMember) ++ 125 :: t) := by
      rw [Json.print, printFields_eq]
      simp
    cases levels with
    | zero => rw [hprint, parseValue, parseAt_marked none (by decide), if_neg (by simp [Json.depth])]; rfl
    | succ n =>
      have hback := TokenParser.bracketed_separated
        (readsBack_fields fun f hf t ht => ih f hf n t (intNumbers_object hints f hf) ht) t
      rw [hprint, parseValue, parseAt_marked _ (by decide)]
      change parseObject (parseValue n) _ = _
      rw [parseObject]
      change Option.map _ (TokenParser.bracketed objectBrackets (parseMember (parseValue n))
        (objectBrackets.opening :: (TokenParser.separated objectBrackets.comma (fs.map printMember) ++
          objectBrackets.closing :: t))) = _
      rw [hback]
      simp only [List.all_eq_true, decide_eq_true_eq, ← Json.depthFields_le, Json.depth, Nat.add_le_add_iff_right]
      split <;> rfl

/-! ## Texts -/

theorem zero_notMem_escapeByte {b : UInt8} (hb : b ≠ 0) : 0 ∉ Json.escapeByte b := by
  have hdigits : ∀ n < 32, Json.hexDigit (UInt8.ofNat n / 16) ≠ 0 ∧ Json.hexDigit (UInt8.ofNat n % 16) ≠ 0 := by decide
  unfold Json.escapeByte
  split
  · simp [Ne.symm hb]
  iterate 5
    split
    · decide
  split
  next hlt =>
    have hd := hdigits b.toNat (by simpa [UInt8.lt_iff_toNat_lt] using hlt)
    rw [UInt8.ofNat_toNat] at hd
    simp [Ne.symm hd.1, Ne.symm hd.2]
  next => simp [Ne.symm hb]

theorem zero_notMem_printString (s : CString) : 0 ∉ Json.printString s := by
  simp only [Json.printString, List.mem_cons, List.mem_append, List.mem_flatMap, List.not_mem_nil, or_false]
  rintro (h | ⟨b, hb, h⟩ | h)
  · exact absurd h (by decide)
  · exact zero_notMem_escapeByte (fun h0 => s.noNul (h0 ▸ hb)) h
  · exact absurd h (by decide)

theorem zero_notMem_separated {xs : List (List UInt8)} (h : ∀ x ∈ xs, (0 : UInt8) ∉ x) :
    0 ∉ TokenParser.separated 44 xs := by
  induction xs with
  | nil => simp [TokenParser.separated]
  | cons x xs ih =>
    have hxs := ih fun y hy => h y (List.mem_cons_of_mem _ hy)
    cases xs with
    | nil => exact h x List.mem_cons_self
    | cons y xs =>
      simp only [TokenParser.separated, List.mem_append, List.mem_cons, not_or] at hxs ⊢
      exact ⟨h x List.mem_cons_self, by decide, hxs⟩

/-- A printed tree is the bytes of a C string. -/
theorem zero_notMem_print (j : Json) : 0 ∉ j.print := by
  induction j using Json.treeInduction with
  | null => decide
  | bool b => cases b <;> decide
  | number d => exact CString.noNul _
  | string s => exact zero_notMem_printString s
  | array js ih =>
    rw [Json.print, printItems_eq, List.mem_cons, List.mem_append, List.mem_singleton]
    have hitems : 0 ∉ TokenParser.separated 44 (js.map Json.print) := zero_notMem_separated (by simpa using ih)
    simp [hitems]
  | object fs ih =>
    rw [Json.print, printFields_eq, List.mem_cons, List.mem_append, List.mem_singleton]
    have hfields : 0 ∉ TokenParser.separated 44 (fs.map printMember) := zero_notMem_separated (by
      simp only [List.forall_mem_map, printMember, List.mem_append, List.mem_cons, not_or]
      exact fun f hf => ⟨zero_notMem_printString _, by decide, ih f hf⟩)
    simp [hfields]

/-- A printed tree is a text of its own, with nothing to skip before it. -/
theorem parseText_print {j : Json} (h : j.IntNumbers) :
    parseText j.print = if j.depth ≤ CJSON_NESTING_LIMIT then some (j, []) else none := by
  obtain ⟨c, r, hj, -, -, hascii⟩ := print_head j
  have hbom : skipUtf8Bom j.print = j.print := by
    rw [skipUtf8Bom, if_neg]
    rintro ⟨-, hpre⟩
    have hpre := List.isPrefixOf_iff_prefix.mp hpre
    rw [hj] at hpre
    have hc := (List.cons_prefix_cons.mp hpre).1
    rw [← hc] at hascii
    exact absurd hascii (by decide)
  have hread := parseValue_print j CJSON_NESTING_LIMIT [] h fun _ _ _ hnil => by cases hnil
  have hskip := skip_print j []
  rw [List.append_nil] at hread hskip
  rw [parseText, lead, hbom, hskip, hread]

end JsonParse

/-- The text of a tree, as the servers hold it. -/
def Json.text (j : Json) : CString := ⟨j.print, JsonParse.zero_notMem_print j⟩

/-- **A tree survives its text** exactly if it is nested no deeper than the
limit of the parser; the text of a deeper one does not parse. -/
theorem parse_text {j : Json} (h : j.IntNumbers) :
    Json.parse j.text = if j.depth ≤ JsonParse.CJSON_NESTING_LIMIT then some j else none := by
  rw [JsonParse.parse_eq_parseText, Json.text, JsonParse.parseText_print h]
  split <;> rfl

/-- A request with a number, a name with a quote in it, and a list. -/
def quotedRequest : Json :=
  .object [("action", .createNumber 4), ("chat_name", .string "a \"b\""), ("participant_ids", .array [.createNumber 7])]

theorem parse_text_quotedRequest :
    Json.parse quotedRequest.text =
      if quotedRequest.depth ≤ JsonParse.CJSON_NESTING_LIMIT then some quotedRequest else none := by
  refine parse_text fun d hd => ?_
  have hcases : d = (4 : Int) ∨ d = (7 : Int) := by
    simpa [quotedRequest, Json.createNumber, Json.numbers, Json.numbersOfFields, Json.numbersOfItems] using hd
  rcases hcases with rfl | rfl
  · exact ⟨4, rfl, by decide, by decide⟩
  · exact ⟨7, rfl, by decide, by decide⟩

end FinalServer
