/-
The messages that survive their text, and how they are made.

A message is printed, what fits a buffer of it is read with one call, and
that is parsed. If its numbers are `int`s and it is nested within the
parser's limit it arrives as it was or does not parse, as `overWire` says.
-/
import FinalServer.JsonAccepted
import FinalServer.JsonRoundTrip

namespace FinalServer

/-- The text in a buffer that a `read` or a `recv` has filled. -/
def receiveBuffer (j : Json) : CString := .ofBytes (j.print.take (BUFFER_SIZE - 1))

namespace Json

/-- The number is an `int`. -/
def InRange (n : Int) : Prop := INT_MIN ≤ n ∧ n ≤ INT_MAX

instance : DecidablePred InRange := fun n => inferInstanceAs (Decidable (INT_MIN ≤ n ∧ n ≤ INT_MAX))

/-- The message survives its text: its numbers are `int`s, and it is nested within the limit. -/
structure Plain (j : Json) : Prop where
  ints : j.IntNumbers
  depth : j.depth ≤ JsonParse.CJSON_NESTING_LIMIT
  message : j.isNumber = false

/-- Cut to a length it parses if it is all there. -/
theorem Plain.parse_take {j : Json} (h : j.Plain) (n : Nat) :
    parse (.ofBytes (j.print.take n)) = if j.print.length ≤ n then some j else none := by
  have hwhole : JsonParse.parseText j.print = some (j, []) := by rw [JsonParse.parseText_print h.ints, if_pos h.depth]
  have hbytes : (CString.ofBytes (j.print.take n)).bytes = j.print.take n := by
    rw [CString.ofBytes, List.takeWhile_eq_self_iff]
    intro b hb
    have hne : b ≠ 0 := fun h0 => JsonParse.zero_notMem_print j (h0 ▸ List.mem_of_mem_take hb)
    simpa using hne
  split
  next hfits =>
    rw [JsonParse.parse_eq_parseText, hbytes, List.take_of_length_le hfits, hwhole]
    rfl
  next hlong =>
    have hpre : (CString.ofBytes (j.print.take n)).bytes <+: j.text.bytes := by
      rw [hbytes]
      exact List.take_prefix n j.print
    refine JsonParse.parse_cut hwhole h.message hpre fun heq => hlong ?_
    have hlen := congrArg (fun s : CString => s.bytes.length) heq
    simp only [hbytes, List.length_take, Json.text] at hlen
    omega

/-- A message arrives as it was, or does not parse. -/
theorem Plain.received {j : Json} (h : j.Plain) : parse (receiveBuffer j) = j.overWire := by
  rw [receiveBuffer, h.parse_take, overWire]
  refine if_congr ?_ rfl rfl
  simp only [BUFFER_SIZE]
  omega

/-! ## Making them -/

/-- The numbers are `int`s, and arrays and objects are nested at most `n` deep. -/
def Fits (n : Nat) (j : Json) : Prop := j.IntNumbers ∧ j.depth ≤ n

variable {j v : Json} {n : Nat}

theorem fits_number {k : Int} (h : InRange k) : Fits n (createNumber k) := by
  refine ⟨fun d hd => ?_, Nat.zero_le _⟩
  rw [createNumber, numbers, List.mem_singleton] at hd
  exact ⟨k, hd, h⟩

theorem fits_string (s : CString) : Fits n (.string s) := ⟨nofun, Nat.zero_le _⟩

theorem fits_null : Fits n .null := ⟨nofun, Nat.zero_le _⟩

theorem fits_array {js : List Json} : Fits (n + 1) (.array js) ↔ ∀ j ∈ js, Fits n j := by
  simp only [Fits, IntNumbers, numbers, mem_numbersOfItems, depth, Nat.add_le_add_iff_right, depthItems_le]
  constructor
  · exact fun h j hj => ⟨fun d hd => h.1 d ⟨j, hj, hd⟩, h.2 j hj⟩
  · intro h
    refine ⟨?_, fun j hj => (h j hj).2⟩
    rintro d ⟨j, hj, hd⟩
    exact (h j hj).1 d hd

theorem fits_object {fs : List (CString × Json)} : Fits (n + 1) (.object fs) ↔ ∀ f ∈ fs, Fits n f.2 := by
  simp only [Fits, IntNumbers, numbers, mem_numbersOfFields, depth, Nat.add_le_add_iff_right, depthFields_le]
  constructor
  · exact fun h f hf => ⟨fun d hd => h.1 d ⟨f, hf, hd⟩, h.2 f hf⟩
  · intro h
    refine ⟨?_, fun f hf => (h f hf).2⟩
    rintro d ⟨f, hf, hd⟩
    exact (h f hf).1 d hd

theorem Fits.mono {k : Nat} (h : Fits n j) (hk : n ≤ k) : Fits k j := ⟨h.1, h.2.trans hk⟩

theorem Plain.of_object {fs : List (CString × Json)} (hn : n + 1 ≤ JsonParse.CJSON_NESTING_LIMIT)
    (h : ∀ f ∈ fs, Fits n f.2) : (object fs).Plain := by
  obtain ⟨hints, hdepth⟩ := fits_object.mpr h
  exact ⟨hints, hdepth.trans hn, rfl⟩

end Json

end FinalServer
