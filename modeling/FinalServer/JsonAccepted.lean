/-
What a text that `cJSON_Parse` accepts holds.

It is nested no deeper than the limit, and if it is UTF-8 its strings are.
The second holds for a reason that shows in the first string: four bytes
after `\u` that are no hex digits, which may cut a character in two, read as
the code 0, and there the C string ends.

The loop that unescapes a literal may get out of step with the one that has
measured it, but it never writes more than was allocated.
-/
import FinalServer.JsonFrame
import FinalServer.JsonTree
import FinalServer.Utf8

namespace FinalServer

namespace JsonParse

/-! ## Escape sequences -/

/-- The four hex digits of a `\u`. -/
structure HexDigits (ds : List UInt8) : Prop where
  length : ds.length = 4
  digits : ∀ c ∈ ds, (hexValue c).isSome

/-- A hex digit is ASCII, and no backslash. -/
theorem hexValue_ascii {c : UInt8} (h : (hexValue c).isSome) : c.toNat < 128 ∧ c ≠ 92 := by
  simp only [hexValue] at h
  have hrange : (48 ≤ c ∧ c ≤ 57) ∨ (65 ≤ c ∧ c ≤ 70) ∨ (97 ≤ c ∧ c ≤ 102) := by
    by_contra hno
    rw [not_or, not_or] at hno
    rw [if_neg hno.1, if_neg hno.2.1, if_neg hno.2.2] at h
    cases h
  simp only [UInt8.le_iff_toNat_le, UInt8.reduceToNat, ne_eq, ← UInt8.toNat_inj] at hrange ⊢
  omega

/-- A code other than 0 is read from four digits. -/
theorem hexDigits_of_parseHex4 {ds r : List UInt8} (hlen : ds.length = 4) (h : parseHex4 (ds ++ r) ≠ 0) :
    HexDigits ds := by
  refine ⟨hlen, ?_⟩
  simp only [parseHex4, ← hlen, List.take_left] at h
  split at h
  next vs hvs =>
    clear h hlen
    induction ds generalizing vs with
    | nil => simp
    | cons c ds ih =>
      rw [List.mapM_cons] at hvs
      obtain ⟨v, hv, hvs⟩ := Option.bind_eq_some_iff.mp hvs
      obtain ⟨vs', hvs', -⟩ := Option.bind_eq_some_iff.mp hvs
      exact List.forall_mem_cons.mpr ⟨Option.isSome_of_eq_some hv, ih _ hvs'⟩
  next => exact absurd rfl h

/-- How `utf16_literal_to_utf8` reads a sequence. -/
inductive Utf16Literal : List UInt8 → List UInt8 → Nat → Prop
  /-- A code 0, or what is no code. -/
  | nul (b u : UInt8) (ds r : List UInt8) (hlen : ds.length = 4) : Utf16Literal (b :: u :: (ds ++ r)) [0] 6
  | one (b u : UInt8) (ds r out : List UInt8) (code : Nat) (hds : HexDigits ds)
      (hcode : ¬ (0xD800 ≤ code ∧ code ≤ 0xDFFF)) (hpos : code ≠ 0) (hout : encodeUtf8 code = some out) :
      Utf16Literal (b :: u :: (ds ++ r)) out 6
  | pair (b u : UInt8) (ds ds' r out : List UInt8) (code : Nat) (hds : HexDigits ds) (hds' : HexDigits ds')
      (hcode : 0x10000 ≤ code) (hout : encodeUtf8 code = some out) :
      Utf16Literal (b :: u :: (ds ++ 92 :: 117 :: (ds' ++ r))) out 12

/-- Two bytes, four more, and the rest. -/
theorem split_sequence {bs : List UInt8} (h : ¬ bs.length < 6) :
    ∃ b u ds r, bs = b :: u :: (ds ++ r) ∧ ds.length = 4 := by
  obtain ⟨b, bs, rfl⟩ := List.exists_cons_of_ne_nil (l := bs) (by rintro rfl; simp at h)
  obtain ⟨u, bs, rfl⟩ := List.exists_cons_of_ne_nil (l := bs) (by rintro rfl; simp at h)
  refine ⟨b, u, bs.take 4, bs.drop 4, by simp, ?_⟩
  rw [List.length_take]
  simp only [List.length_cons] at h
  omega

theorem utf16Literal_of_eq {bs out : List UInt8} {n : Nat} (h : utf16LiteralToUtf8 bs = some (out, n)) :
    Utf16Literal bs out n := by
  simp only [utf16LiteralToUtf8] at h
  split at h
  · cases h
  next hlen =>
  obtain ⟨b, u, ds, r, rfl, hds⟩ := split_sequence hlen
  have hsecond : (b :: u :: (ds ++ r)).drop 6 = r := by
    simp only [List.drop_succ_cons]
    rw [← hds, List.drop_left]
  rw [hsecond] at h
  simp only [List.drop_succ_cons, List.drop_zero] at h
  split at h
  · cases h
  next hlow =>
  split at h
  next hhigh =>
    split at h
    · cases h
    next hlen' =>
    split at h
    · cases h
    next hmark =>
    split at h
    · cases h
    next hcode =>
    obtain ⟨b', u', ds', r', rfl, hds'⟩ := split_sequence hlen'
    obtain ⟨_, hout, he⟩ := Option.map_eq_some_iff.mp h
    cases he
    obtain ⟨rfl, rfl⟩ : b' = 92 ∧ u' = 117 := by simpa using hmark
    simp only [List.drop_succ_cons, List.drop_zero] at hcode
    have hfirst : parseHex4 (ds ++ 92 :: 117 :: (ds' ++ r')) ≠ 0 := by omega
    have hnext : parseHex4 (ds' ++ r') ≠ 0 := by omega
    exact .pair b u ds ds' r' out _ (hexDigits_of_parseHex4 hds hfirst) (hexDigits_of_parseHex4 hds' hnext)
      (Nat.le_add_right _ _) hout
  next hhigh =>
    obtain ⟨_, hout, he⟩ := Option.map_eq_some_iff.mp h
    cases he
    by_cases hzero : parseHex4 (ds ++ r) = 0
    · rw [hzero] at hout
      cases hout
      exact .nul b u ds r hds
    · have hcode : ¬ (0xD800 ≤ parseHex4 (ds ++ r) ∧ parseHex4 (ds ++ r) ≤ 0xDFFF) := by omega
      exact .one b u ds r out _ (hexDigits_of_parseHex4 hds hzero) hcode hzero hout

/-! ## Code points -/

/-- A byte that continues a character. -/
theorem continuation_byte (n : Nat) : ((n ||| 0x80) &&& 0xBF) = n % 64 + 0x80 := by
  have hall : ∀ k < 256, ((k ||| 0x80) % 256 &&& 0xBF) = k % 64 + 0x80 := by decide +kernel
  have hlow := hall (n % 256) (Nat.mod_lt _ (by decide))
  have hsmall : ((n ||| 0x80) &&& 0xBF) < 2 ^ 8 := Nat.and_lt_two_pow _ (by decide)
  rw [Nat.mod_mod_of_dvd n (by decide)] at hlow
  rw [← hlow, ← Nat.mod_eq_of_lt hsmall, Nat.and_mod_two_pow, Nat.or_mod_two_pow, Nat.or_mod_two_pow (n := 8)]
  simp

/-- The first bytes of characters of two, three and four. -/
theorem first_bytes :
    (∀ k < 32, ((k ||| 0xC0) &&& 0xFF) = k % 32 + 0xC0) ∧ (∀ k < 16, ((k ||| 0xE0) &&& 0xFF) = k % 16 + 0xE0) ∧
      ∀ k < 8, ((k ||| 0xF0) &&& 0xFF) = k % 8 + 0xF0 := by decide

theorem encodeUtf8_char {code : Nat} (h : code.isValidChar) :
    encodeUtf8 code = some (String.utf8EncodeChar (Char.ofNat code)) := by
  have hval : (Char.ofNat code).val.toNat = code := Utf8.toNat_ofNat h
  have hmax : code < 0x110000 := by rcases h with h | h <;> omega
  obtain ⟨htwo, hthree, hfour⟩ := first_bytes
  simp only [encodeUtf8, String.utf8EncodeChar, hval]
  by_cases h₁ : code < 0x80
  · have hle : code ≤ 0x7f := by omega
    rw [if_pos h₁, if_pos hle, Nat.and_two_pow_sub_one_eq_mod _ 7, Nat.mod_eq_of_lt (by omega)]
  · have hle : ¬ code ≤ 0x7f := by omega
    rw [if_neg h₁, if_neg hle]
    by_cases h₂ : code < 0x800
    · have hle : code ≤ 0x7ff := by omega
      rw [if_pos h₂, if_pos hle]
      simp only [utf8Bytes, continuation_byte, Nat.shiftRight_eq_div_pow, htwo (code / 2 ^ 6) (by omega)]
      rfl
    · have hle : ¬ code ≤ 0x7ff := by omega
      rw [if_neg h₂, if_neg hle]
      by_cases h₃ : code < 0x10000
      · have hle : code ≤ 0xffff := by omega
        rw [if_pos h₃, if_pos hle]
        simp only [utf8Bytes, continuation_byte, Nat.shiftRight_eq_div_pow, Nat.div_div_eq_div_mul]
        rw [hthree _ (by omega)]
        rfl
      · have hle : ¬ code ≤ 0xffff := by omega
        rw [if_neg h₃, if_neg hle, if_pos (by omega)]
        simp only [utf8Bytes, continuation_byte, Nat.shiftRight_eq_div_pow, Nat.div_div_eq_div_mul]
        rw [hfour _ (by omega)]
        rfl

/-- What is encoded is a code point. -/
theorem encodeUtf8_le {code : Nat} {out : List UInt8} (h : encodeUtf8 code = some out) : code ≤ 0x10FFFF := by
  by_contra hlt
  rw [encodeUtf8, if_neg (by omega), if_neg (by omega), if_neg (by omega), if_neg hlt] at h
  cases h

/-- A code that is no surrogate comes out as its character. -/
theorem encodeUtf8_eq_char {code : Nat} {out : List UInt8} (hcode : ¬ (0xD800 ≤ code ∧ code ≤ 0xDFFF))
    (h : encodeUtf8 code = some out) :
    out = String.utf8EncodeChar (Char.ofNat code) ∧ (Char.ofNat code).toNat = code := by
  have hmax := encodeUtf8_le h
  have hvalid : code.isValidChar := by
    by_cases hlt : code < 0xD800
    · exact .inl hlt
    · exact .inr ⟨by omega, by omega⟩
  rw [encodeUtf8_char hvalid] at h
  exact ⟨(Option.some.inj h).symm, Utf8.toNat_ofNat hvalid⟩

/-! ## The strings are UTF-8 -/

/-- What a C string keeps of the bytes. -/
def cut (bs : List UInt8) : List UInt8 := bs.takeWhile (· != 0)

theorem cut_append {v bs : List UInt8} (hv : ∀ b ∈ v, b ≠ 0) : cut (v ++ bs) = v ++ cut bs :=
  List.takeWhile_append_of_pos fun b hb => by simpa using hv b hb

/-- No byte of a character other than the NUL is one. -/
theorem encodeChar_ne_zero {c : Char} (hc : c.toNat ≠ 0) : ∀ b ∈ String.utf8EncodeChar c, b ≠ 0 := by
  intro b hb
  by_cases h : c.toNat < 128
  · rw [Utf8.encodeChar_ascii h, List.mem_singleton] at hb
    rintro rfl
    have hzero : (0 : UInt8).toNat = c.toNat % 2 ^ 8 := by rw [hb, UInt8.toNat_ofNat']
    have h0 : (0 : UInt8).toNat = 0 := rfl
    omega
  · have hhigh := (Utf8.encodeChar_high (c := c) (by omega)).2 b hb
    rintro rfl
    exact absurd hhigh (by decide)

theorem unescape_plain {v : List UInt8} (hv : ∀ b ∈ v, b ≠ 92) (bs : List UInt8) :
    unescape 0 (v ++ bs) = (unescape 0 bs).map (v ++ ·) := by
  induction v with
  | nil => simp
  | cons b v ih =>
    rw [List.forall_mem_cons] at hv
    rw [List.cons_append, unescape, if_neg hv.1, ih hv.2, Option.map_map]
    rfl

theorem unescape_skip {skip : Nat} {v : List UInt8} (hv : v.length = skip) (bs : List UInt8) :
    unescape skip (v ++ bs) = unescape 0 bs := by
  induction v generalizing skip with
  | nil => obtain rfl : skip = 0 := hv.symm; rfl
  | cons b v ih =>
    obtain rfl : skip = v.length + 1 := hv.symm
    exact ih rfl

/-- The escapes of one character. -/
theorem escapeSequence_cases {bs out : List UInt8} {n : Nat} (h : escapeSequence bs = some (out, n)) :
    (bs.getD 1 34).toNat < 128 ∧
      ((∃ e, out = [e] ∧ n = 2 ∧ e.toNat < 128 ∧ e ≠ 0) ∨ Utf16Literal bs out n) := by
  simp only [escapeSequence] at h
  generalize hc : bs.getD 1 34 = c at h ⊢
  split at h
  next hb => cases h; exact ⟨by rw [hb]; decide, .inl ⟨8, rfl, rfl, by decide, by decide⟩⟩
  next =>
  split at h
  next hb => cases h; exact ⟨by rw [hb]; decide, .inl ⟨12, rfl, rfl, by decide, by decide⟩⟩
  next =>
  split at h
  next hb => cases h; exact ⟨by rw [hb]; decide, .inl ⟨10, rfl, rfl, by decide, by decide⟩⟩
  next =>
  split at h
  next hb => cases h; exact ⟨by rw [hb]; decide, .inl ⟨13, rfl, rfl, by decide, by decide⟩⟩
  next =>
  split at h
  next hb => cases h; exact ⟨by rw [hb]; decide, .inl ⟨9, rfl, rfl, by decide, by decide⟩⟩
  next =>
  split at h
  next hb =>
    cases h
    rcases hb with rfl | rfl | rfl <;> exact ⟨by decide, .inl ⟨_, rfl, rfl, by decide, by decide⟩⟩
  next =>
  split at h
  next hb => exact ⟨by rw [hb]; decide, .inr (utf16Literal_of_eq h)⟩
  next => cases h

theorem HexDigits.ascii {ds : List UInt8} (h : HexDigits ds) : ∀ b ∈ ds, b.toNat < 128 :=
  fun b hb => (hexValue_ascii (h.digits b hb)).1

/-- The bytes of a code come out whole, and before what follows. -/
theorem utf8_cut_append {out rest : List UInt8} {code : Nat} (hcode : ¬ (0xD800 ≤ code ∧ code ≤ 0xDFFF))
    (hpos : code ≠ 0) (hout : encodeUtf8 code = some out) (hrest : Utf8 (cut rest)) : Utf8 (cut (out ++ rest)) := by
  obtain ⟨rfl, hval⟩ := encodeUtf8_eq_char hcode hout
  rw [cut_append (encodeChar_ne_zero (by rwa [hval]))]
  exact (Utf8.char _).append hrest

/-- A character whose first byte is no backslash has none. -/
theorem encodeChar_plain {b : UInt8} {bs rest : List UInt8} {c : Char} (h : b :: bs = String.utf8EncodeChar c ++ rest)
    (hb : b ≠ 92) : (∀ x ∈ String.utf8EncodeChar c, x ≠ 92) ∧ String.utf8EncodeChar c ≠ [] := by
  by_cases hc : c.toNat < 128
  · rw [Utf8.encodeChar_ascii hc] at h ⊢
    obtain rfl : b = .ofNat c.toNat := (List.cons.inj h).1
    exact ⟨by simpa using hb, by simp⟩
  · obtain ⟨hne, hhigh⟩ := Utf8.encodeChar_high (c := c) (by omega)
    refine ⟨fun x hx => ?_, hne⟩
    rintro rfl
    exact absurd (hhigh 92 hx) (by decide)

/-- **Of a UTF-8 literal the C string that is unescaped is UTF-8.** -/
theorem unescape_utf8 {bs out : List UInt8} (hbs : Utf8 bs) (h : unescape 0 bs = some out) : Utf8 (cut out) := by
  induction hn : bs.length using Nat.strong_induction_on generalizing bs out with
  | _ n ih =>
    cases bs with
    | nil =>
      cases h
      exact .nil
    | cons b bs =>
      by_cases hb : b = 92
      · subst hb
        rw [unescape, if_pos rfl] at h
        split at h
        · cases h
        next o k hseq =>
        obtain ⟨tail, htail, rfl⟩ := Option.map_eq_some_iff.mp h
        obtain ⟨hascii, hkind⟩ := escapeSequence_cases hseq
        have hbs' := hbs.tail (by decide)
        rcases hkind with ⟨e, rfl, rfl, he, hne⟩ | hlit
        · rw [cut_append (by simpa using hne)]
          refine (Utf8.ascii he).append ?_
          cases bs with
          | nil =>
            cases htail
            exact .nil
          | cons c bs => exact ih _ (by rw [← hn]; grind) (hbs'.tail hascii) htail rfl
        · cases hlit with
          | nul _ u ds r hlen => exact .nil
          | one _ u ds r _ code hds hcode hpos hout =>
            have hr := (hbs'.tail hascii).drop_ascii hds.ascii
            rw [← List.cons_append, unescape_skip (by simp [hds.length])] at htail
            exact utf8_cut_append hcode hpos hout (ih _ (by rw [← hn]; grind) hr htail rfl)
          | pair _ u ds ds' r _ code hds hds' hcode hout =>
            have hfirst := (hbs'.tail hascii).drop_ascii hds.ascii
            have hr := ((hfirst.tail (by decide)).tail (by decide)).drop_ascii hds'.ascii
            have hassoc : u :: (ds ++ 92 :: 117 :: (ds' ++ r)) = (u :: (ds ++ 92 :: 117 :: ds')) ++ r := by simp
            rw [hassoc, unescape_skip (by simp [hds.length, hds'.length])] at htail
            exact utf8_cut_append (by omega) (by omega) hout (ih _ (by rw [← hn]; grind) hr htail rfl)
      · -- The character that begins here is copied whole.
        obtain ⟨cs, hcs⟩ := hbs
        cases cs with
        | nil => cases hcs
        | cons c cs =>
          rw [List.flatMap_cons] at hcs
          obtain ⟨hplain, hne⟩ := encodeChar_plain hcs hb
          rw [hcs, unescape_plain hplain] at h
          obtain ⟨tail, htail, rfl⟩ := Option.map_eq_some_iff.mp h
          have hlen := congrArg List.length hcs
          have hpos := List.length_pos_iff.mpr hne
          rw [List.length_append] at hlen
          have hcut := ih _ (by omega) ⟨cs, rfl⟩ htail rfl
          by_cases hzero : c.toNat = 0
          · rw [Utf8.encodeChar_ascii (by omega), hzero]
            exact .nil
          · rw [cut_append (encodeChar_ne_zero hzero)]
            exact (Utf8.char c).append hcut

/-! ## The buffer of a string -/

/-- What the loop through a literal has written when it ends, or fails. -/
def written : Nat → List UInt8 → List UInt8
  | _, [] => []
  | skip + 1, _ :: bs => written skip bs
  | 0, b :: bs =>
    if b = 92 then
      match escapeSequence (b :: bs) with
      | none => []
      | some (out, sequenceLength) => out ++ written (sequenceLength - 1) bs
    else b :: written 0 bs

theorem written_of_unescape {skip : Nat} {bs out : List UInt8} (h : unescape skip bs = some out) :
    written skip bs = out := by
  induction bs generalizing skip out with
  | nil =>
    cases h
    rfl
  | cons b bs ih =>
    cases skip with
    | succ skip => exact ih h
    | zero =>
      rw [unescape] at h
      rw [written]
      by_cases hb : b = 92
      · rw [if_pos hb] at h ⊢
        cases hseq : escapeSequence (b :: bs) with
        | none =>
          rw [hseq] at h
          cases h
        | some p =>
          rw [hseq] at h
          obtain ⟨tail, htail, rfl⟩ := Option.map_eq_some_iff.mp h
          exact congrArg (p.1 ++ ·) (ih htail)
      · rw [if_neg hb] at h ⊢
        obtain ⟨tail, htail, rfl⟩ := Option.map_eq_some_iff.mp h
        rw [ih htail]

theorem written_skip {skip : Nat} {v : List UInt8} (hv : v.length = skip) (bs : List UInt8) :
    written skip (v ++ bs) = written 0 bs := by
  induction v generalizing skip with
  | nil =>
    obtain rfl : skip = 0 := hv.symm
    rfl
  | cons b v ih =>
    obtain rfl : skip = v.length + 1 := hv.symm
    exact ih rfl

/-- The bytes of a literal without the backslashes that the first loop skips: what is allocated for it. -/
def kept (bs : List UInt8) : Nat := bs.length - skippedBytes bs

theorem skippedBytes_le (bs : List UInt8) : skippedBytes bs ≤ bs.length := by
  induction bs using skippedBytes.induct with
  | case1 => simp [skippedBytes]
  | case2 => simp [skippedBytes]
  | case3 c bs ih =>
    simp only [skippedBytes, if_true, List.length_cons]
    omega
  | case4 b c bs hb ih =>
    simp only [skippedBytes, hb, if_false, List.length_cons] at ih ⊢
    omega

theorem kept_escape (c : UInt8) (bs : List UInt8) : kept (92 :: c :: bs) = kept bs + 1 := by
  have := skippedBytes_le bs
  simp only [kept, skippedBytes, if_true, List.length_cons]
  omega

theorem kept_cons {b : UInt8} (hb : b ≠ 92) (bs : List UInt8) : kept (b :: bs) = kept bs + 1 := by
  cases bs with
  | nil => rfl
  | cons c bs =>
    have := skippedBytes_le (c :: bs)
    simp only [kept, skippedBytes, hb, if_false, List.length_cons] at this ⊢
    omega

/-- Wherever the literal is entered, no less is kept of the whole than of the rest. -/
theorem kept_le_cons (b : UInt8) (bs : List UInt8) : kept bs ≤ kept (b :: bs) ∧ kept (b :: bs) ≤ kept bs + 1 := by
  induction bs generalizing b with
  | nil => simp [kept, skippedBytes]
  | cons c bs ih =>
    by_cases hb : b = 92
    · subst hb
      have := ih c
      rw [kept_escape]
      omega
    · rw [kept_cons hb]
      omega

theorem kept_le_append (v bs : List UInt8) : kept bs ≤ kept (v ++ bs) := by
  induction v with
  | nil => exact le_rfl
  | cons b v ih => exact ih.trans (kept_le_cons b (v ++ bs)).1

theorem kept_plain {v : List UInt8} (hv : ∀ b ∈ v, b ≠ 92) (bs : List UInt8) : kept (v ++ bs) = kept bs + v.length := by
  induction v with
  | nil => rfl
  | cons b v ih =>
    rw [List.forall_mem_cons] at hv
    rw [List.cons_append, kept_cons hv.1, ih hv.2, List.length_cons, Nat.add_assoc]

theorem HexDigits.plain {ds : List UInt8} (h : HexDigits ds) : ∀ b ∈ ds, b ≠ 92 :=
  fun b hb => (hexValue_ascii (h.digits b hb)).2

theorem length_encodeUtf8_le {code : Nat} {out : List UInt8} (h : encodeUtf8 code = some out) : out.length ≤ 4 := by
  simp only [encodeUtf8] at h
  split_ifs at h
  all_goals
    cases h
    simp [utf8Bytes]

/-- The loop writes no more than is kept, in step with the first one or not. -/
theorem length_written_le (bs : List UInt8) : (written 0 bs).length ≤ kept bs := by
  induction hn : bs.length using Nat.strong_induction_on generalizing bs with
  | _ n ih =>
    cases bs with
    | nil => exact Nat.zero_le _
    | cons b bs =>
      by_cases hb : b = 92
      · subst hb
        rw [written, if_pos rfl]
        split
        · exact Nat.zero_le _
        next o k hseq =>
        rw [List.length_append]
        obtain ⟨-, hkind⟩ := escapeSequence_cases hseq
        rcases hkind with ⟨e, rfl, rfl, -, -⟩ | hlit
        · cases bs with
          | nil => simp [written, kept, skippedBytes]
          | cons c bs =>
            have hrest := ih _ (by rw [← hn]; grind) bs rfl
            rw [kept_escape]
            simp only [written, List.length_cons, List.length_nil]
            omega
        · cases hlit with
          | nul _ u ds r hlen =>
            have hrest := ih _ (by rw [← hn]; grind) r rfl
            have hds := kept_le_append ds r
            rw [kept_escape, ← List.cons_append, written_skip (by simp [hlen])]
            simp only [List.length_cons, List.length_nil]
            omega
          | one _ u ds r _ code hds _ _ hout =>
            have hrest := ih _ (by rw [← hn]; grind) r rfl
            have hlen := length_encodeUtf8_le hout
            rw [kept_escape, kept_plain hds.plain, hds.length, ← List.cons_append,
              written_skip (by simp [hds.length])]
            omega
          | pair _ u ds ds' r _ code hds hds' _ hout =>
            have hrest := ih _ (by rw [← hn]; grind) r rfl
            have hlen := length_encodeUtf8_le hout
            have hassoc : u :: (ds ++ 92 :: 117 :: (ds' ++ r)) = (u :: (ds ++ 92 :: 117 :: ds')) ++ r := by simp
            rw [kept_escape, kept_plain hds.plain, kept_escape, hassoc,
              written_skip (by simp [hds.length, hds'.length]), hds.length]
            have := kept_le_append ds' r
            omega
      · have hrest := ih _ (by simp [← hn]) bs rfl
        rw [written, if_neg hb, List.length_cons, kept_cons hb]
        omega

/-- **The buffer of a string holds what is written to it**, with the NUL, also
where the literal turns out to be none. -/
theorem written_fits (literal : List UInt8) : (written 0 literal).length + 1 ≤ allocated literal := by
  have := length_written_le literal
  have := skippedBytes_le literal
  simp only [allocated, kept] at *
  omega

/-! ## What passes through a text -/

open TokenParser (Keeps Passes Framed)

/-- A property of texts that stays when ASCII bytes are cut off, and that gives every string in them one. -/
structure Carries (I : List UInt8 → Prop) (S : CString → Prop) : Prop where
  drop : ∀ {v r}, (∀ b ∈ v, b.toNat < 128) → I (v ++ r) → I r
  string : Keeps I S parseString

/-- A property of values that the property of their strings, and one of what they hold, gives. -/
structure Composed (S : CString → Prop) (inner outer : Json → Prop) (deeper : Bool) : Prop where
  null : outer .null
  bool : ∀ b, outer (.bool b)
  number : ∀ d, outer (.number d)
  string : ∀ s, S s → outer (.string s)
  array : deeper = true → ∀ js, (∀ j ∈ js, inner j) → outer (.array js)
  object : deeper = true → ∀ fs, (∀ f ∈ fs, S f.1 ∧ inner f.2) → outer (.object fs)

variable {I : List UInt8 → Prop} {S : CString → Prop} {inner outer : Json → Prop}

theorem isBlank_ascii {b : UInt8} (h : isBlank b = true) : b.toNat < 128 := by
  simp only [isBlank, decide_eq_true_eq, UInt8.le_iff_toNat_le, UInt8.reduceToNat] at h
  omega

theorem isNumberChar_ascii {b : UInt8} (h : isNumberChar b = true) : b.toNat < 128 := by
  simp only [isNumberChar, isDigit, Bool.or_eq_true, Bool.and_eq_true, decide_eq_true_eq, beq_iff_eq,
    UInt8.le_iff_toNat_le, ← UInt8.toNat_inj, UInt8.reduceToNat] at h
  omega

theorem Carries.byte (h : Carries I S) {b : UInt8} {r : List UInt8} (hb : b.toNat < 128) (hr : I (b :: r)) : I r :=
  h.drop (v := [b]) (by simpa using hb) hr

theorem Carries.skip (h : Carries I S) {bs : List UInt8} (hbs : I bs) : I (bufferSkipWhitespace bs) := by
  obtain ⟨w, hw, hblank⟩ := TokenParser.skip_suffix arrayBrackets bs
  rw [hw] at hbs
  exact h.drop (fun b hb => isBlank_ascii (hblank b hb)) hbs

theorem Carries.passes (h : Carries I S) {b : TokenParser.Brackets UInt8} (hblank : b.blank = isBlank)
    (hopen : b.opening.toNat < 128) (hcomma : b.comma.toNat < 128) (hclose : b.closing.toNat < 128) : Passes b I where
  skip hts := by
    rw [TokenParser.skip, hblank]
    exact h.skip hts
  delimiter hc := by
    rcases hc with rfl | rfl | rfl
    · exact h.byte hopen
    · exact h.byte hcomma
    · exact h.byte hclose

theorem parseNumber_keeps (h : Carries I S) : Keeps I (fun j => ∃ d, j = .number d) parseNumber := by
  intro bs j rest hbs hread
  simp only [parseNumber] at hread
  split at hread
  · cases hread
  next q afterEnd hq =>
  cases hread
  refine ⟨?_, q, rfl⟩
  generalize hk : ((bs.takeWhile isNumberChar).take NUMBER_LENGTH).length - afterEnd.length = k
  have hle : k ≤ (bs.takeWhile isNumberChar).length := by
    have := List.length_take_le' NUMBER_LENGTH (bs.takeWhile isNumberChar)
    omega
  rw [← List.take_append_drop k bs] at hbs
  refine h.drop (fun b hb => isNumberChar_ascii ?_) hbs
  have hpre : bs.take k <+: bs.takeWhile isNumberChar :=
    List.prefix_of_prefix_length_le (List.take_prefix k bs) (List.takeWhile_prefix _) (by rw [List.length_take]; omega)
  exact List.mem_takeWhile_imp (hpre.subset hb)

theorem parseMember_keeps {value : TokenParser UInt8 Json} (h : Carries I S) (hv : Keeps I inner value) :
    Keeps I (fun f => S f.1 ∧ inner f.2) (parseMember value) := by
  intro bs f rest hbs hread
  simp only [parseMember] at hread
  split at hread
  · cases hread
  next name bs₁ hname =>
  obtain ⟨hbs₁, hs⟩ := h.string hbs hname
  have hskip := h.skip hbs₁
  split at hread
  · cases hread
  next c bs₂ hcolon =>
  rw [hcolon] at hskip
  split at hread
  next hc =>
    obtain ⟨⟨j, rest'⟩, hj, he⟩ := Option.map_eq_some_iff.mp hread
    cases he
    obtain ⟨hrest, hinner⟩ := hv (h.skip (h.byte (by rw [hc]; decide) hskip)) hj
    exact ⟨hrest, hs, hinner⟩
  next => cases hread

theorem parseAt_keeps {nested : Option (TokenParser UInt8 Json)} (h : Carries I S)
    (hcomp : Composed S inner outer nested.isSome) (hf : ∀ p ∈ nested, Framed CanFollow p)
    (hn : ∀ p ∈ nested, Keeps I inner p) : Keeps I outer (parseAt nested) := by
  intro bs j rest hbs hread
  rw [parseAt_eq] at hread
  split at hread
  next word j' hw =>
    cases hread
    have hmem := List.mem_of_find?_eq_some hw
    have hpre : word.isPrefixOf bs = true :=
      List.find?_some (p := fun w : List UInt8 × Json => w.1.isPrefixOf bs) hw
    obtain ⟨rest, rfl⟩ := List.isPrefixOf_iff_prefix.mp hpre
    have hascii : ∀ w ∈ words, ∀ b ∈ w.1, b.toNat < 128 := by decide +kernel
    rw [List.drop_left]
    refine ⟨h.drop (hascii _ hmem) hbs, ?_⟩
    simp only [words, List.mem_cons, Prod.mk.injEq, List.not_mem_nil, or_false] at hmem
    rcases hmem with ⟨-, rfl⟩ | ⟨-, rfl⟩ | ⟨-, rfl⟩
    · exact hcomp.null
    · exact hcomp.bool _
    · exact hcomp.bool _
  next =>
  split at hread
  · cases hread
  next c bs =>
  simp only [parseMarked] at hread
  split at hread
  next =>
    obtain ⟨⟨s, rest'⟩, hs, he⟩ := Option.map_eq_some_iff.mp hread
    cases he
    obtain ⟨hrest, hS⟩ := h.string hbs hs
    exact ⟨hrest, hcomp.string s hS⟩
  next =>
  split at hread
  next =>
    obtain ⟨hrest, d, rfl⟩ := parseNumber_keeps h hbs hread
    exact ⟨hrest, hcomp.number d⟩
  next =>
  split at hread
  next =>
    obtain ⟨p, hp, hread⟩ := Option.bind_eq_some_iff.mp hread
    obtain ⟨⟨js, rest'⟩, hjs, he⟩ := Option.map_eq_some_iff.mp hread
    cases he
    obtain ⟨hrest, hall⟩ := TokenParser.bracketed_keeps (hf p hp)
      (h.passes (b := arrayBrackets) rfl (by decide) (by decide) (by decide)) (hn p hp) hbs hjs
    exact ⟨hrest, hcomp.array (Option.isSome_of_eq_some hp) js hall⟩
  next =>
  split at hread
  next =>
    obtain ⟨p, hp, hread⟩ := Option.bind_eq_some_iff.mp hread
    obtain ⟨⟨fs, rest'⟩, hfs, he⟩ := Option.map_eq_some_iff.mp hread
    cases he
    obtain ⟨hrest, hall⟩ := TokenParser.bracketed_keeps (parseMember_framed (hf p hp))
      (h.passes (b := objectBrackets) rfl (by decide) (by decide) (by decide)) (parseMember_keeps h (hn p hp)) hbs hfs
    exact ⟨hrest, hcomp.object (Option.isSome_of_eq_some hp) fs hall⟩
  next => cases hread

theorem carries_true : Carries (fun _ => True) fun _ => True :=
  ⟨fun _ _ => trivial, fun _ _ _ _ _ => ⟨trivial, trivial⟩⟩

theorem carries_utf8 : Carries Utf8 fun s => Utf8 s.bytes where
  drop hv hr := hr.drop_ascii hv
  string := by
    intro bs s rest hbs h
    cases bs with
    | nil => cases h
    | cons b bs =>
      simp only [parseString] at h
      split at h
      next hb =>
        split at h
        · cases h
        next literal rest' hq =>
        obtain ⟨output, hout, he⟩ := Option.map_eq_some_iff.mp h
        cases he
        obtain ⟨rfl, -⟩ := closingQuote_framed hq
        obtain ⟨hliteral, hrest⟩ := (hbs.tail (by rw [hb]; decide)).split (by decide)
        exact ⟨hrest, unescape_utf8 hliteral hout⟩
      next => cases h

/-- A value is nested no deeper than the levels left. -/
theorem parseValue_depth (levels : Nat) : Keeps (fun _ => True) (fun j => j.depth ≤ levels) (parseValue levels) := by
  induction levels with
  | zero =>
    have hlevel : Composed (fun _ => True) (fun _ => True) (fun j => j.depth ≤ 0) false := by
      constructor <;> simp [Json.depth]
    exact parseAt_keeps carries_true hlevel (fun _ h => by cases h) (fun _ h => by cases h)
  | succ n ih =>
    have hlevel : Composed (fun _ => True) (fun j => j.depth ≤ n) (fun j => j.depth ≤ n + 1) true := by
      constructor <;> simp [Json.depth, Json.depthItems_le, Json.depthFields_le]
    refine parseAt_keeps carries_true hlevel ?_ ?_
    · exact fun p hp => Option.some.inj hp ▸ parseValue_framed n
    · exact fun p hp => Option.some.inj hp ▸ ih

theorem parseValue_utf8 (levels : Nat) : Keeps Utf8 (fun j => ∀ t ∈ j.texts, Utf8 t.bytes) (parseValue levels) := by
  have hcomp : ∀ deeper, Composed (fun s => Utf8 s.bytes) (fun j => ∀ t ∈ j.texts, Utf8 t.bytes)
      (fun j => ∀ t ∈ j.texts, Utf8 t.bytes) deeper := by
    intro deeper
    constructor
    case array =>
      intro _ js hjs t ht
      obtain ⟨j, hj, ht⟩ := Json.mem_textsOfItems.mp ht
      exact hjs j hj t ht
    case object =>
      intro _ fs hfs t ht
      obtain ⟨f, hf, ht⟩ := Json.mem_textsOfFields.mp ht
      rcases ht with rfl | ht
      · exact (hfs f hf).1
      · exact (hfs f hf).2 t ht
    all_goals simp [Json.texts]
  induction levels with
  | zero => exact parseAt_keeps carries_utf8 (hcomp _) (fun _ h => by cases h) (fun _ h => by cases h)
  | succ n ih =>
    refine parseAt_keeps carries_utf8 (hcomp _) ?_ ?_
    · exact fun p hp => Option.some.inj hp ▸ parseValue_framed n
    · exact fun p hp => Option.some.inj hp ▸ ih

end JsonParse

/-- **What is accepted is within the nesting limit.** -/
theorem parse_depth {s : CString} {j : Json} (h : Json.parse s = some j) : j.depth ≤ JsonParse.CJSON_NESTING_LIMIT := by
  obtain ⟨⟨j', r⟩, hread, he⟩ := Option.map_eq_some_iff.mp h
  obtain rfl : j' = j := he
  exact (JsonParse.parseValue_depth _ trivial hread).2

theorem parse_depth_nested :
    Json.depth (.array [.array [], .object [("a", .null)]]) ≤ JsonParse.CJSON_NESTING_LIMIT :=
  parse_depth (by decide +kernel : Json.parse "[ [], \x7b\"a\":null\x7d ]" = _)

/-- **Of a UTF-8 text every string and every name is UTF-8**, whatever its escapes. -/
theorem parse_utf8 {s : CString} {j : Json} (hs : Utf8 s.bytes) (h : Json.parse s = some j) :
    ∀ t ∈ j.texts, Utf8 t.bytes := by
  obtain ⟨⟨j', r⟩, hread, he⟩ := Option.map_eq_some_iff.mp h
  obtain rfl : j' = j := he
  refine (JsonParse.parseValue_utf8 _ (JsonParse.carries_utf8.skip ?_) hread).2
  rw [JsonParse.skipUtf8Bom]
  split
  next hbom =>
    obtain ⟨r', hr'⟩ := List.isPrefixOf_iff_prefix.mp hbom.2
    rw [← hr'] at hs ⊢
    exact hs.drop_bom
  next => exact hs

/-- An escape becomes two bytes. -/
theorem parse_utf8_escape : Json.parse "\"\\u00e9\"" = some (.string (.ofBytes [0xC3, 0xA9])) ∧
    ∀ t ∈ Json.texts (.string (.ofBytes [0xC3, 0xA9])), Utf8 t.bytes := by
  have hread : Json.parse "\"\\u00e9\"" = some (.string (.ofBytes [0xC3, 0xA9])) := by decide +kernel
  have hutf8 : Utf8 (CString.bytes "\"\\u00e9\"") := ⟨"\"\\u00e9\"".toList, by decide +kernel⟩
  exact ⟨hread, parse_utf8 hutf8 hread⟩

end FinalServer
