/-
C strings: what a `char *` of the servers denotes.

A value is the bytes before the terminating NUL, none of which is NUL; the
type carries that, so `strlen` is the length of the bytes and a copy that
stops early is a prefix. Case is folded as `tolower` folds it in the C
locale: the 26 letters and nothing else.
-/
import Mathlib.Data.List.TakeWhile

namespace FinalServer

/-- The bytes of a C string, without the NUL that ends it. -/
structure CString where
  bytes : List UInt8
  noNul : 0 ∉ bytes
  deriving DecidableEq

namespace CString

@[ext] theorem ext {s t : CString} (h : s.bytes = t.bytes) : s = t := by
  cases s; cases t; simp_all

/-- The string a C function sees in a buffer: everything before the first NUL. -/
def ofBytes (bs : List UInt8) : CString :=
  ⟨bs.takeWhile (· != 0), fun h => by simpa using List.mem_takeWhile_imp h⟩

/-- A string literal of the source. -/
def ofString (s : String) : CString := ofBytes (s.toList.map fun c => UInt8.ofNat c.toNat)

instance : Coe String CString := ⟨ofString⟩

instance : Inhabited CString := ⟨⟨[], by simp⟩⟩

theorem ofBytes_bytes (s : CString) : ofBytes s.bytes = s := by
  ext1
  rw [ofBytes, List.takeWhile_eq_self_iff]
  intro b hb
  simp only [bne_iff_ne, ne_eq]
  exact fun h0 => s.noNul (h0 ▸ hb)

/-- `strlen`. -/
def length (s : CString) : Nat := s.bytes.length

/-- `strcat`, and what `%s` does inside a format. -/
def append (s t : CString) : CString :=
  ⟨s.bytes ++ t.bytes, by simp [s.noNul, t.noNul]⟩

instance : Append CString := ⟨append⟩

@[simp] theorem append_bytes (s t : CString) : (s ++ t).bytes = s.bytes ++ t.bytes := rfl

@[simp] theorem length_append (s t : CString) : (s ++ t).length = s.length + t.length := by
  simp [length]

/-- A copy bounded to `n` bytes and then terminated: `strncpy(d, s, n); d[n] = '\0'`,
and `snprintf` into a buffer of `n + 1`. -/
def take (n : Nat) (s : CString) : CString :=
  ⟨s.bytes.take n, fun h => s.noNul (List.mem_of_mem_take h)⟩

@[simp] theorem take_bytes (n : Nat) (s : CString) : (s.take n).bytes = s.bytes.take n := rfl

theorem length_take_le (n : Nat) (s : CString) : (s.take n).length ≤ n := by
  simp only [length, take_bytes, List.length_take]
  omega

theorem take_eq_self_iff {n : Nat} {s : CString} : s.take n = s ↔ s.length ≤ n := by
  constructor
  · intro h
    rw [← h]
    exact length_take_le n s
  · intro h
    ext1
    exact List.take_of_length_le h

/-- The string `n` bytes further on: `s + n`. -/
def drop (n : Nat) (s : CString) : CString :=
  ⟨s.bytes.drop n, fun h => s.noNul (List.mem_of_mem_drop h)⟩

theorem take_length_append (s t : CString) : (s ++ t).take s.length = s :=
  ext List.take_left

theorem drop_length_append (s t : CString) : (s ++ t).drop s.length = t :=
  ext List.drop_left

/-- What `%d` prints. -/
def ofInt (n : Int) : CString := ofString (toString n)

/-! ## Case -/

/-- `tolower` in the C locale. -/
def toLowerByte (b : UInt8) : UInt8 := if 65 ≤ b ∧ b ≤ 90 then b + 32 else b

/-- The string with every byte through `tolower`. -/
def lower (s : CString) : List UInt8 := s.bytes.map toLowerByte

/-- `strcasecmp(s, t) == 0`, and cJSON's `case_insensitive_strcmp`. -/
def eqNoCase (s t : CString) : Bool := s.lower == t.lower

@[simp] theorem eqNoCase_refl (s : CString) : s.eqNoCase s = true := by simp [eqNoCase]

theorem eqNoCase_symm {s t : CString} : s.eqNoCase t = t.eqNoCase s := by
  simp only [eqNoCase]
  exact Bool.beq_comm

/-- Strings that agree up to case are told apart from a third together. -/
theorem eqNoCase_congr {s t u : CString} (h : s.eqNoCase t = true) : s.eqNoCase u = t.eqNoCase u := by
  simp only [eqNoCase, beq_iff_eq] at h
  simp only [eqNoCase, h]

theorem ne_of_eqNoCase {s t : CString} (h : s.eqNoCase t = false) : s ≠ t := by
  rintro rfl
  simp at h

end CString

theorem length_ofString_le (s : String) : (CString.ofString s).length ≤ s.length := by
  have h := (List.takeWhile_sublist (· != (0 : UInt8)) (l := s.toList.map fun c => UInt8.ofNat c.toNat)).length_le
  rwa [List.length_map, String.length_toList] at h

end FinalServer
