import Mathlib.Algebra.Group.Int.Defs
import MyTestserver.DbConnection
import MyTestserver.Json
import MyTestserver.Library.Utf8

namespace MyTestserver.Json

-- lexer::token_type. A float is what static_cast<int> makes of the number that strtod reads
-- in its text, or none when that is infinite.
inductive Token
  | literal_true
  | literal_false
  | literal_null
  | value_string (value : Bytes)
  | value_unsigned (value : ℕ)
  | value_integer (value : ℤ)
  | value_float (value : Option Int32)
  | begin_array
  | begin_object
  | end_array
  | end_object
  | name_separator
  | value_separator
  | parse_error
  | end_of_input
  deriving DecidableEq

namespace Lexer

section Strings

def hexValue (current : UInt8) : Option ℕ :=
  if 48 ≤ current ∧ current ≤ 57 then some (current.toNat - 0x30)
  else if 65 ≤ current ∧ current ≤ 70 then some (current.toNat - 0x37)
  else if 97 ≤ current ∧ current ≤ 102 then some (current.toNat - 0x57)
  else none

-- get_codepoint goes through the factors 12, 8, 4 and 0.
def getCodepoint : List ℕ → ℕ → Bytes → Option (ℕ × Bytes)
  | [], codepoint, rest => some (codepoint, rest)
  | _ :: _, _, [] => none
  | factor :: factors, codepoint, current :: rest =>
      match hexValue current with
      | some digit => getCodepoint factors (codepoint + digit <<< factor) rest
      | none => none

def nextByteInRange : List (UInt8 × UInt8) → Bytes → Option (Bytes × Bytes)
  | [], rest => some ([], rest)
  | _ :: _, [] => none
  | range :: ranges, current :: rest =>
      if Utf8.InRange range current then
        match nextByteInRange ranges rest with
        | some (added, rest) => some (current :: added, rest)
        | none => none
      else none

def codepointBytes (codepoint : ℕ) : Bytes :=
  if codepoint < 0x80 then [UInt8.ofNat codepoint]
  else if codepoint ≤ 0x7FF then
    [UInt8.ofNat (0xC0 ||| codepoint >>> 6), UInt8.ofNat (0x80 ||| codepoint &&& 0x3F)]
  else if codepoint ≤ 0xFFFF then
    [UInt8.ofNat (0xE0 ||| codepoint >>> 12), UInt8.ofNat (0x80 ||| codepoint >>> 6 &&& 0x3F),
      UInt8.ofNat (0x80 ||| codepoint &&& 0x3F)]
  else
    [UInt8.ofNat (0xF0 ||| codepoint >>> 18), UInt8.ofNat (0x80 ||| codepoint >>> 12 &&& 0x3F),
      UInt8.ofNat (0x80 ||| codepoint >>> 6 &&& 0x3F), UInt8.ofNat (0x80 ||| codepoint &&& 0x3F)]

-- The escapes of one letter.
def escaped (current : UInt8) : Option UInt8 :=
  if current = 34 then some 34
  else if current = 92 then some 92
  else if current = 47 then some 47
  else if current = 98 then some 8
  else if current = 102 then some 12
  else if current = 110 then some 10
  else if current = 114 then some 13
  else if current = 116 then some 9
  else none

-- The escape \u, from its digits on. A high surrogate needs a low one behind it.
def scanCodepoint (rest : Bytes) : Option (Bytes × Bytes) :=
  match getCodepoint [12, 8, 4, 0] 0 rest with
  | none => none
  | some (codepoint1, rest) =>
      if 0xD800 ≤ codepoint1 ∧ codepoint1 ≤ 0xDBFF then
        match rest with
        | 92 :: 117 :: rest =>
            match getCodepoint [12, 8, 4, 0] 0 rest with
            | none => none
            | some (codepoint2, rest) =>
                if 0xDC00 ≤ codepoint2 ∧ codepoint2 ≤ 0xDFFF then
                  some (codepointBytes (codepoint1 <<< 10 + codepoint2 - 0x35FDC00), rest)
                else none
        | _ => none
      else if 0xDC00 ≤ codepoint1 ∧ codepoint1 ≤ 0xDFFF then none
      else some (codepointBytes codepoint1, rest)

-- The switch of scan_string on a character other than the closing quote: what is added to
-- token_buffer, and what is left to read.
def scanChar (current : UInt8) (rest : Bytes) : Option (Bytes × Bytes) :=
  if current = 92 then
    match rest with
    | [] => none
    | escape :: rest =>
        match escaped escape with
        | some byte => some ([byte], rest)
        | none => if escape = 117 then scanCodepoint rest else none
  else if current < 0x20 then none
  else if current ≤ 0x7F then some ([current], rest)
  else
    match Utf8.tails current with
    | none => none
    | some ranges =>
        match nextByteInRange ranges rest with
        | some (added, rest) => some (current :: added, rest)
        | none => none

-- scan_string behind the opening quote. A character takes at least one byte, so as many
-- rounds as there are bytes are enough.
def scanString : ℕ → Bytes → Bytes → Option (Bytes × Bytes)
  | 0, _, _ | _, _, [] => none
  | rounds + 1, tokenBuffer, current :: rest =>
      if current = 34 then some (tokenBuffer, rest)
      else
        match scanChar current rest with
        | some (added, rest) => scanString rounds (tokenBuffer ++ added) rest
        | none => none

end Strings

section Numbers

-- The labels of scan_number.
inductive NumberState
  | minus
  | zero
  | any1
  | decimal1
  | decimal2
  | exponent
  | sign
  | any2
  deriving DecidableEq

inductive NumberType
  | value_unsigned
  | value_integer
  | value_float
  deriving DecidableEq

def isExponent (current : UInt8) : Bool := current == 101 || current == 69

-- Where a character leads that belongs to the number.
def NumberState.next (current : UInt8) : NumberState → Option NumberState
  | .minus => if current = 48 then some .zero else if isDigit current then some .any1 else none
  | .zero =>
      if current = 46 then some .decimal1
      else if isExponent current then some .exponent
      else none
  | .any1 =>
      if isDigit current then some .any1
      else if current = 46 then some .decimal1
      else if isExponent current then some .exponent
      else none
  | .decimal1 => if isDigit current then some .decimal2 else none
  | .decimal2 =>
      if isDigit current then some .decimal2
      else if isExponent current then some .exponent
      else none
  | .exponent =>
      if current = 43 ∨ current = 45 then some .sign
      else if isDigit current then some .any2
      else none
  | .sign | .any2 => if isDigit current then some .any2 else none

-- Any other character ends the number here; in the remaining states it is an error.
def NumberState.done : NumberState → Bool
  | .zero | .any1 | .decimal2 | .any2 => true
  | .minus | .decimal1 | .exponent | .sign => false

-- What number_type is behind a label.
def NumberState.type (numberType : NumberType) : NumberState → NumberType
  | .minus => .value_integer
  | .decimal1 | .exponent => .value_float
  | .zero | .any1 | .decimal2 | .sign | .any2 => numberType

def scanNumberFrom (state : NumberState) (numberType : NumberType) (tokenBuffer : Bytes) :
    Bytes → Option (NumberType × Bytes × Bytes)
  | [] => if state.done then some (numberType, tokenBuffer, []) else none
  | current :: rest =>
      match state.next current with
      | some next => scanNumberFrom next (next.type numberType) (tokenBuffer ++ [current]) rest
      | none => if state.done then some (numberType, tokenBuffer, current :: rest) else none

-- strtoull and strtoll set errno when the number does not fit.

def strtoull (text : Bytes) : Option ℕ :=
  if digitsValue text < 2 ^ 64 then some (digitsValue text) else none

def strtoll (text : Bytes) : Option ℤ :=
  if -2 ^ 63 ≤ atoi text ∧ atoi text < 2 ^ 63 then some (atoi text) else none

variable (strtod : Bytes → Option Int32)

-- scan_number_done: integers that do not fit are read as floats.
def toNumber (numberType : NumberType) (tokenBuffer : Bytes) : Token :=
  match numberType with
  | .value_unsigned =>
      match strtoull tokenBuffer with
      | some value => .value_unsigned value
      | none => .value_float (strtod tokenBuffer)
  | .value_integer =>
      match strtoll tokenBuffer with
      | some value => .value_integer value
      | none => .value_float (strtod tokenBuffer)
  | .value_float => .value_float (strtod tokenBuffer)

def scanNumber (current : UInt8) (rest : Bytes) : Token × Bytes :=
  let scanned :=
    if current = 45 then scanNumberFrom .minus .value_integer [current] rest
    else if current = 48 then scanNumberFrom .zero .value_unsigned [current] rest
    else scanNumberFrom .any1 .value_unsigned [current] rest
  match scanned with
  | some (numberType, tokenBuffer, rest) => (toNumber strtod numberType tokenBuffer, rest)
  | none => (.parse_error, [])

end Numbers

section Scan

-- The rest of a literal behind its first letter.
def scanLiteral (literal : Bytes) (type : Token) (rest : Bytes) : Token × Bytes :=
  if literal <+: rest then (type, rest.drop literal.length) else (.parse_error, [])

def skipBom : Bytes → Option Bytes
  | 0xEF :: rest =>
      match rest with
      | 0xBB :: 0xBF :: rest => some rest
      | _ => none
  | rest => some rest

def isWhitespace (current : UInt8) : Bool :=
  current == 32 || current == 9 || current == 10 || current == 13

variable (strtod : Bytes → Option Int32)

-- lexer::scan behind the byte order mark. Nothing reads on behind an error or the end of the
-- input, which a NUL is as well.
def scan (text : Bytes) : Token × Bytes :=
  match text.dropWhile isWhitespace with
  | [] => (.end_of_input, [])
  | current :: rest =>
      if current = 91 then (.begin_array, rest)
      else if current = 93 then (.end_array, rest)
      else if current = 123 then (.begin_object, rest)
      else if current = 125 then (.end_object, rest)
      else if current = 58 then (.name_separator, rest)
      else if current = 44 then (.value_separator, rest)
      else if current = 116 then scanLiteral (ascii "rue") .literal_true rest
      else if current = 102 then scanLiteral (ascii "alse") .literal_false rest
      else if current = 110 then scanLiteral (ascii "ull") .literal_null rest
      else if current = 34 then
        match scanString rest.length [] rest with
        | some (tokenBuffer, rest) => (.value_string tokenBuffer, rest)
        | none => (.parse_error, [])
      else if current = 45 ∨ isDigit current then scanNumber strtod current rest
      else if current = 0 then (.end_of_input, [])
      else (.parse_error, [])

-- The tokens that get_token comes to, one after the other. Each takes at least one byte.
def scanTokens : ℕ → Bytes → List Token
  | 0, _ => []
  | rounds + 1, text =>
      match scan strtod text with
      | (.parse_error, _) => [.parse_error]
      | (.end_of_input, _) => [.end_of_input]
      | (token, rest) => token :: scanTokens rounds rest

def tokens (text : Bytes) : List Token :=
  match skipBom text with
  | some rest => scanTokens strtod (rest.length + 1) rest
  | none => [.parse_error]

end Scan

end Lexer

end MyTestserver.Json
