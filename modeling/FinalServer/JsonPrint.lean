/-
`cJSON_PrintUnformatted`, and what a buffer of 4096 bytes leaves of it.

Both servers read a message with one `recv` or `read` into such a buffer.
A longer text is cut, and since the brace that closes it is gone it does not
parse. So what arrives is the message or nothing, by the length of its text.
-/
import FinalServer.Json

namespace FinalServer

/-- `BUFFER_SIZE`, of both servers. -/
def BUFFER_SIZE : Nat := 4096

namespace Json

/-- A digit of `%04x`. -/
def hexDigit (n : UInt8) : UInt8 := if n < 10 then 48 + n else 87 + n

/-- A byte of a string, escaped. -/
def escapeByte (b : UInt8) : List UInt8 :=
  if b = 34 ∨ b = 92 then [92, b]
  else if b = 8 then [92, 98]
  else if b = 12 then [92, 102]
  else if b = 10 then [92, 110]
  else if b = 13 then [92, 114]
  else if b = 9 then [92, 116]
  else if b < 32 then [92, 117, 48, 48, hexDigit (b / 16), hexDigit (b % 16)]
  else [b]

/-- `print_string_ptr`. -/
def printString (s : CString) : List UInt8 := 34 :: (s.bytes.flatMap escapeByte ++ [34])

mutual

/-- `cJSON_PrintUnformatted`, where all numbers are `int`s: `print_number` writes
others with a fraction or an exponent. -/
def print : Json → List UInt8
  | .null => CString.bytes "null"
  | .bool true => CString.bytes "true"
  | .bool false => CString.bytes "false"
  | .number d => (CString.ofInt (toInt d)).bytes
  | .string s => printString s
  | .array js => 91 :: (printItems js ++ [93])
  | .object fs => 123 :: (printFields fs ++ [125])

def printItems : List Json → List UInt8
  | [] => []
  | [j] => j.print
  | j :: js => j.print ++ 44 :: printItems js

def printFields : List (CString × Json) → List UInt8
  | [] => []
  | [(name, j)] => printString name ++ 58 :: j.print
  | (name, j) :: fs => printString name ++ 58 :: (j.print ++ 44 :: printFields fs)

end

/-- The message as it arrives, if its text fits a buffer with its NUL. -/
def overWire (j : Json) : Option Json := if j.print.length < BUFFER_SIZE then some j else none

/-- What arrives is what was sent. -/
theorem overWire_eq {j j' : Json} (h : j.overWire = some j') : j = j' := by
  rw [overWire] at h
  split at h
  · exact Option.some.inj h
  · cases h

theorem overWire_of_lt {j : Json} (h : j.print.length < BUFFER_SIZE) : j.overWire = some j := if_pos h

/-! ## How long a printed string can get -/

theorem length_escapeByte (b : UInt8) : (escapeByte b).length ≤ 6 := by
  unfold escapeByte
  split_ifs <;> simp

/-- The bytes of a string printed, without the quotes. -/
def escapedLength (s : CString) : Nat := (s.bytes.flatMap escapeByte).length

theorem length_printString (s : CString) : (printString s).length = escapedLength s + 2 := by
  simp [printString, escapedLength]

theorem escapedLength_append (s t : CString) : escapedLength (s ++ t) = escapedLength s + escapedLength t := by
  simp [escapedLength]

theorem escapedLength_le (s : CString) : escapedLength s ≤ 6 * s.length := by
  rw [escapedLength, CString.length]
  induction s.bytes with
  | nil => simp
  | cons b bs ih =>
    have := length_escapeByte b
    simp only [List.flatMap_cons, List.length_append, List.length_cons]
    omega

end Json

end FinalServer
