/-
Decimal numbers: what `%d` prints, digit by digit, and what it is read as.
-/
import FinalServer.CString

namespace FinalServer

def isDigit (c : UInt8) : Bool := 48 ≤ c && c ≤ 57

def digitsValue (ds : List UInt8) : Nat := ds.foldl (fun n d => 10 * n + (d.toNat - 48)) 0

/-- The digits of a number, as bytes. -/
def decimal (k : Nat) : List UInt8 := (Nat.toDigits 10 k).map fun c => .ofNat c.toNat

/-- A decimal digit is one byte. -/
theorem digit_byte {k : Nat} {c : Char} (hc : c ∈ Nat.toDigits 10 k) :
    (48 ≤ c.toNat ∧ c.toNat ≤ 57) ∧ (UInt8.ofNat c.toNat).toNat = c.toNat := by
  have hd := Nat.isDigit_of_mem_toDigits (by decide) (by decide) hc
  have hrange : 48 ≤ c.toNat ∧ c.toNat ≤ 57 := by simpa [Char.isDigit, UInt32.le_iff_toNat_le] using hd
  refine ⟨hrange, ?_⟩
  rw [UInt8.toNat_ofNat']
  omega

theorem isDigit_decimal {k : Nat} {b : UInt8} (hb : b ∈ decimal k) : isDigit b = true := by
  obtain ⟨c, hc, rfl⟩ := List.mem_map.mp hb
  obtain ⟨hrange, hbyte⟩ := digit_byte hc
  simpa [isDigit, UInt8.le_iff_toNat_le, hbyte] using hrange

theorem decimal_ne_nil (k : Nat) : decimal k ≠ [] := by
  simp [decimal]

theorem digitsValue_decimal (k : Nat) : digitsValue (decimal k) = k := by
  have hfold : ∀ (cs : List Char) (n : Nat), (∀ c ∈ cs, c ∈ Nat.toDigits 10 k) →
      (cs.map fun c => UInt8.ofNat c.toNat).foldl (fun n d => 10 * n + (d.toNat - 48)) n =
        Nat.ofDigitChars 10 cs n := by
    intro cs
    induction cs with
    | nil => simp
    | cons c cs ih =>
      intro n hcs
      rw [List.map_cons, List.foldl_cons, Nat.ofDigitChars_cons, (digit_byte (hcs c List.mem_cons_self)).2]
      exact ih _ fun c' hc' => hcs c' (List.mem_cons_of_mem _ hc')
  rw [digitsValue, decimal, hfold _ _ fun _ h => h, Nat.ofDigitChars_ten_toDigits]

/-- What `%d` prints: a minus before the digits of a negative number. -/
theorem ofInt_bytes (n : Int) :
    (CString.ofInt n).bytes = (if n < 0 then [45] else []) ++ decimal n.natAbs := by
  have hnul : ∀ cs : List Char, (∀ c ∈ cs, c = '-' ∨ c ∈ Nat.toDigits 10 n.natAbs) →
      (CString.ofString (String.ofList cs)).bytes = cs.map fun c => UInt8.ofNat c.toNat := by
    intro cs hcs
    rw [CString.ofString, CString.ofBytes, String.toList_ofList, List.takeWhile_eq_self_iff]
    intro b hb
    obtain ⟨c, hc, rfl⟩ := List.mem_map.mp hb
    rcases hcs c hc with rfl | hd
    · decide
    · obtain ⟨hrange, hbyte⟩ := digit_byte hd
      simp only [bne_iff_ne, ne_eq, ← UInt8.toNat_inj, hbyte]
      intro h0
      have : (0 : UInt8).toNat = 0 := rfl
      omega
  rw [CString.ofInt, Int.toString_eq_repr, Int.repr_eq_if, decimal]
  split
  next h =>
    have habs : n.toNat = n.natAbs := by omega
    rw [Nat.repr_eq_ofList_toDigits, hnul _ fun c hc => .inr (habs ▸ hc), if_neg (by omega), habs]
    rfl
  next h =>
    have habs : (-n).toNat = n.natAbs := by omega
    have hminus : "-" ++ String.ofList (Nat.toDigits 10 n.natAbs) =
        String.ofList ('-' :: Nat.toDigits 10 n.natAbs) := by
      rw [← String.toList_inj]
      simp
    rw [Nat.repr_eq_ofList_toDigits, habs, hminus, hnul _ (by simp), if_pos (by omega)]
    rfl

/-- The bytes that `%d` prints are a minus and digits. -/
theorem mem_ofInt_bytes {n : Int} {b : UInt8} (hb : b ∈ (CString.ofInt n).bytes) : b = 45 ∨ isDigit b = true := by
  rw [ofInt_bytes] at hb
  rcases List.mem_append.mp hb with h | h
  · split at h
    · exact .inl (List.mem_singleton.mp h)
    · cases h
  · exact .inr (isDigit_decimal h)

/-- The number whose text this is. -/
def readDecimal (text : List UInt8) : Option Int :=
  let n : Int := if text.head? = some 45 then -digitsValue text.tail else digitsValue text
  if (CString.ofInt n).bytes = text then some n else none

theorem readDecimal_ofInt (n : Int) : readDecimal (CString.ofInt n).bytes = some n := by
  have hvalue : (if (CString.ofInt n).bytes.head? = some 45 then -(digitsValue (CString.ofInt n).bytes.tail : Int)
      else digitsValue (CString.ofInt n).bytes) = n := by
    rw [ofInt_bytes]
    split
    next hneg =>
      rw [List.singleton_append, List.head?_cons, if_pos rfl, List.tail_cons, digitsValue_decimal]
      omega
    next hpos =>
      have hhead : ([] ++ decimal n.natAbs).head? ≠ some 45 := by
        intro h
        exact absurd (isDigit_decimal (List.mem_of_mem_head? h)) (by decide)
      rw [if_neg hhead, List.nil_append, digitsValue_decimal]
      omega
  rw [readDecimal, hvalue, if_pos rfl]

/-- Numbers that print alike are the same. -/
theorem CString.ofInt_inj {k n : Int} : CString.ofInt k = CString.ofInt n ↔ k = n := by
  refine ⟨fun h => ?_, fun h => h ▸ rfl⟩
  have hread := readDecimal_ofInt k
  rw [h, readDecimal_ofInt] at hread
  exact (Option.some.inj hread).symm

end FinalServer
