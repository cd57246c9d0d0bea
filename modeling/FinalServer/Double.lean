/-
The double next to a rational.

53 binary digits, ties to the even one, and no exponent below that of the
least subnormal; what is too large for a double is rounded all the same.
Every integer of at most 53 bits is a double.
-/
import Mathlib.Data.Int.Log
import Mathlib.Data.Rat.Floor
import Mathlib.Algebra.Order.Field.Rat

namespace Double

/-- The integer next to a rational, the even one if two are. -/
def roundHalfEven (q : ℚ) : Int :=
  let d := q - ⌊q⌋
  if d < 1 / 2 then ⌊q⌋ else if 1 / 2 < d then ⌊q⌋ + 1 else if ⌊q⌋ % 2 = 0 then ⌊q⌋ else ⌊q⌋ + 1

/-- The exponent of the last of the 53 binary digits. -/
def lastExponent (q : ℚ) : Int := max (Int.log 2 |q| - 52) (-1074)

/-- The double next to a rational. -/
def nearest (q : ℚ) : ℚ := roundHalfEven (q / 2 ^ lastExponent q) * 2 ^ lastExponent q

theorem roundHalfEven_intCast (n : Int) : roundHalfEven n = n := by
  simp [roundHalfEven]

/-- **An integer of at most 53 bits is its own double.** -/
theorem nearest_intCast {n : Int} (h : |n| < 2 ^ 53) : nearest n = n := by
  have hlog : Int.log 2 |(n : ℚ)| ≤ 52 := by
    rcases eq_or_ne n 0 with rfl | hne
    · simp
    · have hpos : (0 : ℚ) < |(n : ℚ)| := by simpa using hne
      have hlt : |(n : ℚ)| < (2 : ℕ) ^ (53 : Int) := by exact_mod_cast h
      exact Int.lt_add_one_iff.mp ((Int.lt_zpow_iff_log_lt (by decide) hpos).mp hlt)
  obtain ⟨k, hk⟩ : ∃ k : Nat, lastExponent n = -(k : Int) :=
    ⟨(-lastExponent n).toNat, by simp only [lastExponent]; omega⟩
  have hscaled : (n : ℚ) / 2 ^ lastExponent n = ((n * 2 ^ k : Int) : ℚ) := by
    rw [hk, zpow_neg, div_inv_eq_mul]
    push_cast
    rw [zpow_natCast]
  rw [nearest, hscaled, roundHalfEven_intCast, ← hscaled, div_mul_cancel₀]
  exact (zpow_pos (by norm_num) _).ne'

end Double
