/-
Bytes that are the UTF-8 of some characters.

An ASCII byte is a character by itself and occurs in no other, so a text can
be cut before and after it.
-/
import Mathlib.Data.List.Basic
import Mathlib.Data.List.TakeWhile

/-- The bytes are the encoding of a list of characters. -/
def Utf8 (bs : List UInt8) : Prop := ∃ cs : List Char, bs = cs.flatMap String.utf8EncodeChar

namespace Utf8

variable {bs xs ys : List UInt8} {b : UInt8}

/-- A code point that is one is the code of its character. -/
theorem toNat_ofNat {n : Nat} (h : n.isValidChar) : (Char.ofNat n).toNat = n := by
  rw [Char.ofNat, dif_pos h]
  rfl

/-- An ASCII character is its own byte. -/
theorem encodeChar_ascii {c : Char} (h : c.toNat < 128) : String.utf8EncodeChar c = [.ofNat c.toNat] := by
  have hle : c.val.toNat ≤ 0x7f := Nat.lt_succ_iff.mp h
  simp only [String.utf8EncodeChar, hle, if_true]
  rfl

/-- Of another character every byte is above those. -/
theorem encodeChar_high {c : Char} (h : 128 ≤ c.toNat) :
    String.utf8EncodeChar c ≠ [] ∧ ∀ b ∈ String.utf8EncodeChar c, 128 ≤ b.toNat := by
  have hle : ¬ c.val.toNat ≤ 0x7f := Nat.not_le.mpr h
  have hmod : ∀ k m b, 0 < m → m + b ≤ 256 → 128 ≤ b → 128 ≤ (UInt8.ofNat (k % m + b)).toNat := by
    intro k m b hm hle hb
    have := Nat.mod_lt k hm
    rw [UInt8.toNat_ofNat']
    omega
  simp only [String.utf8EncodeChar, hle, if_false]
  split_ifs
  all_goals
    simp only [ne_eq, reduceCtorEq, not_false_eq_true, List.forall_mem_cons, List.not_mem_nil, false_imp_iff,
      implies_true, and_true, true_and]
    repeat' apply And.intro
    all_goals exact hmod _ _ _ (by decide) (by decide) (by decide)

theorem nil : Utf8 [] := ⟨[], rfl⟩

theorem append (hx : Utf8 xs) (hy : Utf8 ys) : Utf8 (xs ++ ys) := by
  obtain ⟨cs, rfl⟩ := hx
  obtain ⟨ds, rfl⟩ := hy
  exact ⟨cs ++ ds, by simp⟩

theorem char (c : Char) : Utf8 (String.utf8EncodeChar c) := ⟨[c], by simp⟩

/-- A text can be cut at an ASCII byte. -/
theorem split (hb : b.toNat < 128) (h : Utf8 (xs ++ b :: ys)) : Utf8 xs ∧ Utf8 ys := by
  obtain ⟨cs, h⟩ := h
  induction cs generalizing xs with
  | nil => simp at h
  | cons c cs ih =>
    rw [List.flatMap_cons, List.append_eq_append_iff] at h
    rcases h with ⟨as, hc, htail⟩ | ⟨as, hxs, hrest⟩
    · -- The byte is in this character, or begins the next one.
      cases as with
      | nil =>
        obtain ⟨-, hys⟩ : Utf8 [] ∧ Utf8 ys := ih htail
        exact ⟨by rw [← List.append_nil xs, ← hc]; exact char c, hys⟩
      | cons a as =>
        obtain ⟨rfl, htail⟩ := List.cons.inj htail
        by_cases hascii : c.toNat < 128
        · rw [encodeChar_ascii hascii] at hc
          have hlen := congrArg List.length hc
          simp only [List.length_append, List.length_cons, List.length_nil] at hlen
          obtain rfl : xs = [] := List.length_eq_zero_iff.mp (by omega)
          obtain rfl : as = [] := List.length_eq_zero_iff.mp (by omega)
          exact ⟨nil, cs, (List.cons.inj htail).2⟩
        · have := (encodeChar_high (c := c) (by omega)).2 b (by rw [hc]; simp)
          omega
    · obtain ⟨has, hys⟩ := ih hrest.symm
      exact ⟨by rw [hxs]; exact (char c).append has, hys⟩

theorem tail (hb : b.toNat < 128) (h : Utf8 (b :: bs)) : Utf8 bs := by
  have hnil : Utf8 ([] ++ b :: bs) := h
  exact (split hb hnil).2

/-- ASCII bytes can be cut off. -/
theorem drop_ascii (hx : ∀ b ∈ xs, b.toNat < 128) (h : Utf8 (xs ++ ys)) : Utf8 ys := by
  induction xs with
  | nil => exact h
  | cons b xs ih =>
    rw [List.forall_mem_cons] at hx
    exact ih hx.2 (h.tail hx.1)

theorem dropWhile {p : UInt8 → Bool} (hp : ∀ b, p b = true → b.toNat < 128) (h : Utf8 bs) : Utf8 (bs.dropWhile p) := by
  rw [← List.takeWhile_append_dropWhile (p := p) (l := bs)] at h
  exact h.drop_ascii fun b hb => hp b (List.mem_takeWhile_imp hb)

/-- A character that begins with the byte 0xEF has three. -/
theorem length_of_head {c : Char} {r : List UInt8} (h : String.utf8EncodeChar c = 0xEF :: r) : r.length = 2 := by
  have hne : ∀ k m b, 0 < m → m + b ≤ 256 → (m + b ≤ 0xEF ∨ 0xEF < b) → UInt8.ofNat (k % m + b) ≠ 0xEF := by
    intro k m b hm hle hb hk
    have hlt := Nat.mod_lt k hm
    have hval := congrArg UInt8.toNat hk
    rw [UInt8.toNat_ofNat'] at hval
    have hef : (0xEF : UInt8).toNat = 0xEF := rfl
    omega
  by_cases hascii : c.toNat < 128
  · rw [encodeChar_ascii hascii] at h
    have hval := congrArg UInt8.toNat (List.cons.inj h).1
    rw [UInt8.toNat_ofNat'] at hval
    have hef : (0xEF : UInt8).toNat = 0xEF := rfl
    omega
  · have hle : ¬ c.val.toNat ≤ 0x7f := by
      simp only [Char.toNat] at hascii
      omega
    simp only [String.utf8EncodeChar, hle, if_false] at h
    split_ifs at h
    · exact absurd (List.cons.inj h).1 (hne _ _ _ (by decide) (by decide) (by decide))
    · rw [← (List.cons.inj h).2]
      rfl
    · exact absurd (List.cons.inj h).1 (hne _ _ _ (by decide) (by decide) (by decide))

/-- A byte order mark can be cut off. -/
theorem drop_bom (h : Utf8 ([0xEF, 0xBB, 0xBF] ++ bs)) : Utf8 bs := by
  obtain ⟨cs, h⟩ := h
  cases cs with
  | nil => cases h
  | cons c cs =>
    rw [List.flatMap_cons] at h
    cases henc : String.utf8EncodeChar c with
    | nil =>
      have := String.length_utf8EncodeChar c
      have := c.utf8Size_pos
      simp_all
    | cons b r =>
      rw [henc] at h
      obtain ⟨rfl, htail⟩ := List.cons.inj h
      have hlen := length_of_head henc
      obtain ⟨x, y, rfl⟩ := List.length_eq_two.mp hlen
      exact ⟨cs, (List.cons.inj (List.cons.inj htail).2).2⟩

/-- One ASCII byte is a text. -/
theorem ascii (hb : b.toNat < 128) : Utf8 [b] := by
  have hval : (Char.ofNat b.toNat).toNat = b.toNat := toNat_ofNat (.inl (by omega))
  refine ⟨[Char.ofNat b.toNat], ?_⟩
  rw [List.flatMap_cons, List.flatMap_nil, List.append_nil, encodeChar_ascii (by omega), hval, UInt8.ofNat_toNat]

end Utf8
