import MyTestserver.Basic
import MyTestserver.Library.Transducer

namespace MyTestserver.Sql

open Transducer

-- What MySQL makes of the text of a statement: words and numbers, marks, and string
-- literals with the value that they stand for.
inductive Token
  | word (letters : Bytes)
  | mark (byte : UInt8)
  | string (value : Bytes)
  deriving DecidableEq

-- Where the lexer is: between tokens, in a word, in a literal that began with the quote,
-- behind a backslash there, or behind a quote that ends the literal unless it is doubled.
inductive Mode
  | blank
  | word (letters : Bytes)
  | quoted (quote : UInt8) (value : Bytes)
  | escaped (quote : UInt8) (value : Bytes)
  | closing (quote : UInt8) (value : Bytes)
  deriving DecidableEq

def quote : UInt8 := 39
def doubleQuote : UInt8 := 34
def backslash : UInt8 := 92

def isWordByte (byte : UInt8) : Bool :=
  isDigit byte || (65 ≤ byte && byte ≤ 90) || (97 ≤ byte && byte ≤ 122) || byte == 95 ||
    byte == 36 || 128 ≤ byte

-- The value of an escape sequence; `\%` and `\_` keep the backslash.
def unescape (byte : UInt8) : Bytes :=
  if byte = 48 then [0]
  else if byte = 98 then [8]
  else if byte = 116 then [9]
  else if byte = 110 then [10]
  else if byte = 114 then [13]
  else if byte = 90 then [26]
  else if byte = 37 ∨ byte = 95 then [backslash, byte]
  else [byte]

-- The first byte of a token. A NUL, a quoted identifier, and the `#` and `/` of comments are
-- refused; the `--` of a comment is read as two marks.
def begin (byte : UInt8) : Option (Mode × List Token) :=
  if isSpace byte then some (.blank, [])
  else if isWordByte byte then some (.word [byte], [])
  else if byte = quote ∨ byte = doubleQuote then some (.quoted byte [], [])
  else if byte ∈ ascii "()+,-.;<=>*%!" then some (.blank, [.mark byte])
  else none

def beginAfter (token : Token) (byte : UInt8) : Option (Mode × List Token) :=
  (begin byte).map fun (mode, out) => (mode, token :: out)

def step : Machine Mode UInt8 Token
  | .blank, byte => begin byte
  | .word letters, byte =>
      if isWordByte byte then some (.word (letters ++ [byte]), [])
      else beginAfter (.word letters) byte
  | .quoted quote value, byte =>
      if byte = quote then some (.closing quote value, [])
      else if byte = backslash then some (.escaped quote value, [])
      else some (.quoted quote (value ++ [byte]), [])
  | .escaped quote value, byte => some (.quoted quote (value ++ unescape byte), [])
  | .closing quote value, byte =>
      if byte = quote then some (.quoted quote (value ++ [quote]), [])
      else beginAfter (.string value) byte

-- At the end of the text a literal has to be closed.
def finish : Mode → Option (List Token)
  | .blank => some []
  | .word letters => some [.word letters]
  | .closing _ value => some [.string value]
  | .quoted _ _ | .escaped _ _ => none

def lex (text : Bytes) : Option (List Token) :=
  match run step .blank text with
  | none => none
  | some (mode, out) => (finish mode).map (out ++ ·)

theorem lex_of_reads {text : Bytes} {out last : List Token} {mode : Mode}
    (h : Reads step .blank text out mode) (hfinish : finish mode = some last) :
    lex text = some (out ++ last) := by
  have hrun : run step .blank text = some (mode, out) := h
  simp only [lex, hrun, hfinish, Option.map_some]

-- Letters and digits are taken into the word.
theorem reads_word {more : Bytes} (h : ∀ byte ∈ more, isWordByte byte = true) (letters : Bytes) :
    Reads step (.word letters) more [] (.word (letters ++ more)) := by
  have hletter : ∀ done, ∀ byte ∈ more,
      Reads step (.word done) [byte] [] (.word (done ++ [byte])) := by
    intro done byte hbyte
    have hstep : step (.word done) byte = some (.word (done ++ [byte]), []) := by
      simp [step, h byte hbyte]
    exact .cons hstep .nil
  have hread := Reads.flatMap (fun byte : UInt8 => [byte]) Mode.word hletter letters
  rwa [List.flatMap_singleton'] at hread

end MyTestserver.Sql
