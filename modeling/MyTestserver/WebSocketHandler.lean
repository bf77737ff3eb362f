import MyTestserver.Basic
import MyTestserver.Library.BigEndian
import MyTestserver.Library.Search

namespace MyTestserver.WebSocketHandler

open Search

-- OpenSSL, as generateHandshakeResponse uses it: SHA1 and the base64 filter.
structure Crypto where
  SHA1 : Bytes → Bytes
  base64Encode : Bytes → Bytes

section Handshake

def websocketMagic : Bytes := ascii "258EAFA5-E914-47DA-95CA-C5AB0DC85B11"
def upgradeHeader : Bytes := ascii "Upgrade: websocket"
def connectionHeader : Bytes := ascii "Connection: Upgrade"
def keyHeader : Bytes := ascii "Sec-WebSocket-Key: "
def crlf : Bytes := [13, 10]

def isWebSocketUpgrade (request : Bytes) : Bool :=
  if find request upgradeHeader 0 = none then false
  else if find request connectionHeader 0 = none then false
  else if find request keyHeader 0 = none then false
  else true

-- Where neither line end is found, `end` stays npos and substr takes the rest.
def extractSecWebSocketKey (request : Bytes) : Bytes :=
  match find request keyHeader 0 with
  | none => []
  | some pos =>
      match (find request crlf (pos + 19)).or (find request [10] (pos + 19)) with
      | none => request.drop (pos + 19)
      | some stop => (request.drop (pos + 19)).take (stop - (pos + 19))

def computeAcceptKey (crypto : Crypto) (key : Bytes) : Bytes :=
  crypto.base64Encode (crypto.SHA1 (key ++ websocketMagic))

def generateHandshakeResponse (crypto : Crypto) (request : Bytes) : Bytes :=
  ascii "HTTP/1.1 101 Switching Protocols\r\n" ++ ascii "Upgrade: websocket\r\n" ++
    ascii "Connection: Upgrade\r\n" ++ ascii "Sec-WebSocket-Accept: " ++
    computeAcceptKey crypto (extractSecWebSocketKey request) ++ crlf ++ crlf

end Handshake

section Frames

abbrev MaskingKey := Fin 4 → UInt8

-- What parseFrame hands back through its reference parameters.
structure Frame where
  outMessage : Bytes
  frameLen : ℕ
  opcode : UInt8
  deriving DecidableEq

-- std::string::max_size
def maxSize : ℕ := 2 ^ 63 - 1

def byteAt (data : Bytes) (i : ℕ) : Except Exception UInt8 :=
  match data[i]? with
  | some byte => .ok byte
  | none => .error .out_of_bounds

-- A number of `width` bytes at `pos`, in 64-bit arithmetic.
def readNumber (data : Bytes) (pos : ℕ) : ℕ → ℕ → Except Exception ℕ
  | 0, acc => .ok acc
  | width + 1, acc => do
      let byte ← byteAt data pos
      readNumber data (pos + 1) width ((acc <<< 8 ||| byte.toNat) % 2 ^ 64)

-- The payload length and the position behind it; nothing when bytes of it are missing.
def payloadLength (data : Bytes) (secondByte : UInt8) : Except Exception (Option (ℕ × ℕ)) := do
  let payloadLen := (secondByte &&& 0x7F).toNat
  if payloadLen = 126 then
    if data.length < 2 + 2 then return none
    return some (← readNumber data 2 2 0, 4)
  else if payloadLen = 127 then
    if data.length < 2 + 8 then return none
    return some (← readNumber data 2 8 0, 10)
  else
    return some (payloadLen, 2)

-- The masking key and the position behind it. Without the mask bit the local array
-- keeps whatever it held.
def readMaskingKey (uninit : MaskingKey) (data : Bytes) (masked : Bool) (pos : ℕ) :
    Except Exception (Option (MaskingKey × ℕ)) := do
  if masked then
    if data.length < pos + 4 then return none
    let key0 ← byteAt data pos
    let key1 ← byteAt data (pos + 1)
    let key2 ← byteAt data (pos + 2)
    let key3 ← byteAt data (pos + 3)
    return some (fun | 0 => key0 | 1 => key1 | 2 => key2 | 3 => key3, pos + 4)
  else
    return some (uninit, pos)

-- maskingKey[i % 4]
def keyByte (maskingKey : MaskingKey) (i : ℕ) : UInt8 := maskingKey (Fin.ofNat 4 i)

-- The loop `outMessage += bytes[pos + i] ^ maskingKey[i % 4]`, from index `i` on.
def unmask (data : Bytes) (maskingKey : MaskingKey) (pos : ℕ) : ℕ → ℕ → Except Exception Bytes
  | _, 0 => .ok []
  | i, count + 1 => do
      let byte ← byteAt data (pos + i)
      let rest ← unmask data maskingKey pos (i + 1) count
      return (byte ^^^ keyByte maskingKey i) :: rest

-- `return false` is `none`; the reference parameters are then not read by any caller.
-- Sums of positions and lengths are taken modulo 2 ^ 64.
def parseFrame (uninit : MaskingKey) (data : Bytes) : Except Exception (Option Frame) := do
  if data.length < 2 then return none
  let firstByte ← byteAt data 0
  let fin := firstByte &&& 0x80 != 0
  let opcode := firstByte &&& 0x0F
  if opcode != 0x1 && opcode != 0x8 then return none
  let secondByte ← byteAt data 1
  let masked := secondByte &&& 0x80 != 0
  match ← payloadLength data secondByte with
  | none => return none
  | some (payloadLen, pos) =>
      match ← readMaskingKey uninit data masked pos with
      | none => return none
      | some (maskingKey, pos) =>
          if data.length < (pos + payloadLen) % 2 ^ 64 then return none
          let frameLen := (pos + payloadLen) % 2 ^ 64
          -- outMessage.reserve(payloadLen)
          if maxSize < payloadLen then throw .length_error
          let outMessage ← unmask data maskingKey pos 0 payloadLen
          if fin then return some ⟨outMessage, frameLen, opcode⟩
          return none

def encodeFrame (message : Bytes) : Bytes :=
  let firstByte : UInt8 := 0x80 ||| 0x01
  let len := message.length
  if len ≤ 125 then
    [firstByte, UInt8.ofNat len] ++ message
  else if len ≤ 65535 then
    [firstByte, 126] ++ BigEndian.encode 2 len ++ message
  else
    [firstByte, 127] ++ BigEndian.encode 8 len ++ message

end Frames

end MyTestserver.WebSocketHandler
