/-
`cJSON_Parse`, as `cJSON.c` does it.

The text is the bytes before its NUL, and where the C code stands at the NUL
nothing is left; it never gets past it. What is not in the JSON grammar is
here as it is there: every byte up to the blank is whitespace, four bytes
that are no hex digits read as the code 0, which ends a C string, and of a
number no more than 63 bytes are looked at.

Numbers are rationals, so a number too large for a double stays finite: its
`valueint` is the one that the infinity of `strtod` has.
-/
import FinalServer.Decimal
import FinalServer.Double
import FinalServer.Json
import FinalServer.TokenParser

namespace FinalServer

namespace JsonParse

def CJSON_NESTING_LIMIT : Nat := 1000

/-! ## Whitespace -/

def isBlank (c : UInt8) : Bool := c ≤ 32

/-- `buffer_skip_whitespace`. -/
def bufferSkipWhitespace (bs : List UInt8) : List UInt8 := bs.dropWhile isBlank

/-- `[`, `,` and `]`. -/
def arrayBrackets : TokenParser.Brackets UInt8 where
  blank := isBlank
  opening := 91
  comma := 44
  closing := 93
  comma_ne := by decide
  comma_shows := by decide
  closing_shows := by decide

/-- The braces, with `,`. -/
def objectBrackets : TokenParser.Brackets UInt8 where
  blank := isBlank
  opening := 123
  comma := 44
  closing := 125
  comma_ne := by decide
  comma_shows := by decide
  closing_shows := by decide

/-! ## Numbers -/

/-- The characters that `parse_number` copies. -/
def isNumberChar (c : UInt8) : Bool := isDigit c || c == 43 || c == 45 || c == 101 || c == 69 || c == 46

/-- An optional sign: whether it is a minus, and what follows it. -/
def readSign : List UInt8 → Bool × List UInt8
  | [] => (false, [])
  | c :: bs => if c = 45 then (true, bs) else if c = 43 then (false, bs) else (false, c :: bs)

/-- The digits after the point, if one follows. -/
def readFraction : List UInt8 → List UInt8 × List UInt8
  | [] => ([], [])
  | c :: bs => if c = 46 then (bs.takeWhile isDigit, bs.dropWhile isDigit) else ([], c :: bs)

/-- The exponent, if there is one with a digit. -/
def readExponent : List UInt8 → Int × List UInt8
  | [] => (0, [])
  | c :: bs =>
    let (minus, ds) := readSign bs
    if (c = 101 ∨ c = 69) ∧ ds.takeWhile isDigit ≠ [] then
      (if minus then -digitsValue (ds.takeWhile isDigit) else digitsValue (ds.takeWhile isDigit), ds.dropWhile isDigit)
    else (0, c :: bs)

/-- `strtod` of a decimal number: its value, and what follows it; `none` if no number begins the text. -/
def strtod : TokenParser UInt8 ℚ := fun bs =>
  let (minus, bs) := readSign bs
  let whole := bs.takeWhile isDigit
  let (fraction, bs) := readFraction (bs.dropWhile isDigit)
  if whole = [] ∧ fraction = [] then none
  else
    let (exponent, bs) := readExponent bs
    let value : ℚ := digitsValue (whole ++ fraction) * 10 ^ (exponent - fraction.length)
    some (Double.nearest (if minus then -value else value), bs)

/-- `sizeof(number_c_string) - 1`. -/
def NUMBER_LENGTH : Nat := 63

/-- `parse_number`. -/
def parseNumber : TokenParser UInt8 Json := fun bs =>
  let numberCString := (bs.takeWhile isNumberChar).take NUMBER_LENGTH
  match strtod numberCString with
  | none => none
  | some (number, afterEnd) => some (.number number, bs.drop (numberCString.length - afterEnd.length))

/-! ## Strings -/

/-- A digit of `parse_hex4`. -/
def hexValue (c : UInt8) : Option Nat :=
  if 48 ≤ c ∧ c ≤ 57 then some (c.toNat - 48)
  else if 65 ≤ c ∧ c ≤ 70 then some (10 + c.toNat - 65)
  else if 97 ≤ c ∧ c ≤ 102 then some (10 + c.toNat - 97)
  else none

/-- `parse_hex4`: 0 unless all four are digits. -/
def parseHex4 (input : List UInt8) : Nat :=
  match (input.take 4).mapM hexValue with
  | some ds => ds.foldl (fun h d => h * 16 + d) 0
  | none => 0

/-- The loop that encodes a code point, and its first byte: `tail` bytes follow that one. -/
def utf8Bytes (firstByteMark : Nat) : Nat → Nat → List UInt8
  | 0, codepoint => [.ofNat ((codepoint ||| firstByteMark) &&& 0xFF)]
  | tail + 1, codepoint =>
    utf8Bytes firstByteMark tail (codepoint >>> 6) ++ [.ofNat ((codepoint ||| 0x80) &&& 0xBF)]

/-- A code point as UTF-8, unless there is none so large. -/
def encodeUtf8 (codepoint : Nat) : Option (List UInt8) :=
  if codepoint < 0x80 then some [.ofNat (codepoint &&& 0x7F)]
  else if codepoint < 0x800 then some (utf8Bytes 0xC0 1 codepoint)
  else if codepoint < 0x10000 then some (utf8Bytes 0xE0 2 codepoint)
  else if codepoint ≤ 0x10FFFF then some (utf8Bytes 0xF0 3 codepoint)
  else none

/-- `utf16_literal_to_utf8`: the bytes, and the length of the sequence. -/
def utf16LiteralToUtf8 (bs : List UInt8) : Option (List UInt8 × Nat) :=
  if bs.length < 6 then none
  else
    let firstCode := parseHex4 (bs.drop 2)
    if 0xDC00 ≤ firstCode ∧ firstCode ≤ 0xDFFF then none
    else if 0xD800 ≤ firstCode ∧ firstCode ≤ 0xDBFF then
      let second := bs.drop 6
      if second.length < 6 then none
      else if second.take 2 ≠ [92, 117] then none
      else
        let secondCode := parseHex4 (second.drop 2)
        if secondCode < 0xDC00 ∨ 0xDFFF < secondCode then none
        else
          (encodeUtf8 (0x10000 + (((firstCode &&& 0x3FF) <<< 10) ||| (secondCode &&& 0x3FF)))).map fun out => (out, 12)
    else (encodeUtf8 firstCode).map fun out => (out, 6)

/-- The `switch` on the byte after a backslash. After the last byte of the
literal this is the quote that closes it. -/
def escapeSequence (bs : List UInt8) : Option (List UInt8 × Nat) :=
  let c := bs.getD 1 34
  if c = 98 then some ([8], 2)
  else if c = 102 then some ([12], 2)
  else if c = 110 then some ([10], 2)
  else if c = 114 then some ([13], 2)
  else if c = 116 then some ([9], 2)
  else if c = 34 ∨ c = 92 ∨ c = 47 then some ([c], 2)
  else if c = 117 then utf16LiteralToUtf8 bs
  else none

/-- The loop through a string literal; of an escape sequence that was just
read `skip` bytes are still to be passed. -/
def unescape : Nat → List UInt8 → Option (List UInt8)
  | _, [] => some []
  | skip + 1, _ :: bs => unescape skip bs
  | 0, b :: bs =>
    if b = 92 then
      match escapeSequence (b :: bs) with
      | none => none
      | some (out, sequenceLength) => (unescape (sequenceLength - 1) bs).map (out ++ ·)
    else (unescape 0 bs).map (b :: ·)

/-- The end of a string literal: what stands before the closing quote, and
what after it. A backslash takes the next byte along. -/
def closingQuote : List UInt8 → Option (List UInt8 × List UInt8)
  | [] => none
  | [b] => if b = 34 then some ([], []) else none
  | b :: c :: bs =>
    if b = 34 then some ([], c :: bs)
    else if b = 92 then (closingQuote bs).map fun r => (b :: c :: r.1, r.2)
    else (closingQuote (c :: bs)).map fun r => (b :: r.1, r.2)

/-- `skipped_bytes`: the backslashes of the escape sequences, as the loop to the closing quote counts them. -/
def skippedBytes : List UInt8 → Nat
  | [] => 0
  | [_] => 0
  | b :: c :: bs => if b = 92 then skippedBytes bs + 1 else skippedBytes (c :: bs)

/-- `allocation_length`, counted from the opening quote, and the byte for the NUL. -/
def allocated (literal : List UInt8) : Nat := literal.length + 1 - skippedBytes literal + 1

/-- `parse_string`: what is unescaped ends at its first NUL. -/
def parseString : TokenParser UInt8 CString
  | [] => none
  | b :: bs =>
    if b = 34 then
      match closingQuote bs with
      | none => none
      | some (literal, rest) => (unescape 0 literal).map fun output => (.ofBytes output, rest)
    else none

/-! ## Values -/

/-- The name, the colon and the value of a child of an object. -/
def parseMember (value : TokenParser UInt8 Json) : TokenParser UInt8 (CString × Json) := fun bs =>
  match parseString bs with
  | none => none
  | some (name, bs) =>
    match bufferSkipWhitespace bs with
    | [] => none
    | c :: bs => if c = 58 then (value (bufferSkipWhitespace bs)).map fun r => ((name, r.1), r.2) else none

/-- `parse_array`. -/
def parseArray (value : TokenParser UInt8 Json) : TokenParser UInt8 Json := fun bs =>
  (TokenParser.bracketed arrayBrackets value bs).map fun r => (.array r.1, r.2)

/-- `parse_object`. -/
def parseObject (value : TokenParser UInt8 Json) : TokenParser UInt8 Json := fun bs =>
  (TokenParser.bracketed objectBrackets (parseMember value) bs).map fun r => (.object r.1, r.2)

/-- The cases of `parse_value`; `nested` parses the values one level deeper, if the limit allows for one. -/
def parseAt (nested : Option (TokenParser UInt8 Json)) : TokenParser UInt8 Json := fun bs =>
  if (CString.bytes "null").isPrefixOf bs then some (.null, bs.drop 4)
  else if (CString.bytes "false").isPrefixOf bs then some (.bool false, bs.drop 5)
  else if (CString.bytes "true").isPrefixOf bs then some (.bool true, bs.drop 4)
  else
    match bs with
    | [] => none
    | c :: _ =>
      if c = 34 then (parseString bs).map fun r => (.string r.1, r.2)
      else if c = 45 ∨ isDigit c then parseNumber bs
      else if c = 91 then nested.bind (parseArray · bs)
      else if c = 123 then nested.bind (parseObject · bs)
      else none

/-- `parse_value`, `levels` below the nesting limit. -/
def parseValue (levels : Nat) : TokenParser UInt8 Json :=
  match levels with
  | 0 => parseAt none
  | levels + 1 => parseAt (some (parseValue levels))

/-- `skip_utf8_bom`. -/
def skipUtf8Bom (bs : List UInt8) : List UInt8 :=
  if 4 ≤ bs.length ∧ [0xEF, 0xBB, 0xBF].isPrefixOf bs then bs.drop 3 else bs

end JsonParse

/-- `cJSON_Parse`: what follows the value is ignored. -/
def Json.parse (value : CString) : Option Json :=
  (JsonParse.parseValue JsonParse.CJSON_NESTING_LIMIT
    (JsonParse.bufferSkipWhitespace (JsonParse.skipUtf8Bom value.bytes))).map (·.1)

end FinalServer
