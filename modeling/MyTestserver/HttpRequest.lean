import Mathlib.Data.List.DropRight
import MyTestserver.WebSocketHandler

namespace MyTestserver

-- GET requests as the grammar of HTTP has them, which the code does not look at.

def isTokenByte (byte : UInt8) : Bool :=
  isDigit byte || (65 ≤ byte && byte ≤ 90) || (97 ≤ byte && byte ≤ 122) ||
    (ascii "!#$%&'*+-.^_|~").contains byte || byte == 96

-- Optional whitespace: blanks and tabs.
def isBlank (byte : UInt8) : Bool := byte == 32 || byte == 9

def trim (bytes : Bytes) : Bytes := (bytes.dropWhile isBlank).rdropWhile isBlank

def lower (byte : UInt8) : UInt8 := if 65 ≤ byte ∧ byte ≤ 90 then byte + 32 else byte

-- The same up to the case of letters.
def SameText (a b : Bytes) : Prop := a.map lower = b.map lower

instance (a b : Bytes) : Decidable (SameText a b) := inferInstanceAs (Decidable (_ = _))

-- A header line without its end. The value is what is left without the whitespace around it.
structure HeaderLine where
  name : Bytes
  before : Bytes
  value : Bytes
  after : Bytes
  name_token : name ≠ [] ∧ ∀ byte ∈ name, isTokenByte byte = true
  blank : ∀ byte ∈ before ++ after, isBlank byte = true
  value_line : ∀ byte ∈ value, byte ≠ 13 ∧ byte ≠ 10
  value_trim : trim value = value

namespace HeaderLine

def line (h : HeaderLine) : Bytes := h.name ++ 58 :: (h.before ++ (h.value ++ h.after))

-- The members of a list that is separated by commas.
def tokens (h : HeaderLine) : List Bytes := (h.value.splitOn 44).map trim

end HeaderLine

structure HttpRequest where
  target : Bytes
  version : Bytes
  headers : List HeaderLine
  behind : Bytes
  target_line : ∀ byte ∈ target, byte ≠ 13 ∧ byte ≠ 10 ∧ byte ≠ 32
  version_line : ∀ byte ∈ version, byte ≠ 13 ∧ byte ≠ 10 ∧ byte ≠ 32

namespace HttpRequest

def requestLine (r : HttpRequest) : Bytes := ascii "GET " ++ (r.target ++ 32 :: r.version)

-- The request line, the header lines and the blank line.
def lines (r : HttpRequest) : List Bytes := r.requestLine :: (r.headers.map HeaderLine.line ++ [[]])

def render (r : HttpRequest) : Bytes :=
  r.lines.flatMap (· ++ WebSocketHandler.crlf) ++ r.behind

def IsKey (h : HeaderLine) : Prop := SameText h.name (ascii "Sec-WebSocket-Key")

-- What makes a request an upgrade to WebSocket.
def IsUpgrade (r : HttpRequest) : Prop :=
  (∃ h ∈ r.headers, SameText h.name (ascii "Upgrade") ∧ SameText h.value (ascii "websocket")) ∧
    (∃ h ∈ r.headers, SameText h.name (ascii "Connection") ∧
      ∃ token ∈ h.tokens, SameText token (ascii "Upgrade")) ∧
    ∃ h ∈ r.headers, IsKey h

instance (h : HeaderLine) : Decidable (IsKey h) := inferInstanceAs (Decidable (SameText _ _))

instance (r : HttpRequest) : Decidable r.IsUpgrade := by
  unfold IsUpgrade
  infer_instance

end HttpRequest

end MyTestserver
