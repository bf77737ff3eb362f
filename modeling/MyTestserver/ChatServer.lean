import MyTestserver.Buffer
import MyTestserver.ChatService

namespace MyTestserver

open WebSocketHandler

-- The loop of onMessage over the frames in the buffer, for any handler of payloads and
-- any effect of shutdown. A round that goes on takes at least two bytes, so as many
-- rounds as there are bytes are enough. `uninit` is what parseFrame finds in its local
-- array, which may differ from round to round.
def frameLoop {σ : Type} (handle : Bytes → σ → Outcome σ) (shutdown : σ → σ)
    (uninit : ℕ → MaskingKey) : ℕ → Buffer × σ → Outcome (Buffer × σ)
  | 0, state => (.ok (), state)
  | rounds + 1, (buffer, s) =>
      if buffer.readableBytes = 0 then (.ok (), buffer, s)
      else
        match parseFrame (uninit rounds) buffer.readable with
        | .error e => (.error e, buffer, s)
        | .ok none => (.ok (), buffer, s)
        | .ok (some frame) =>
            if frame.opcode = 0x1 ∧ frame.outMessage ≠ [] then
              match handle frame.outMessage s with
              | (.error e, s) => (.error e, buffer, s)
              | (.ok (), s) =>
                  frameLoop handle shutdown uninit rounds (buffer.retrieve frame.frameLen, s)
            else if frame.opcode = 0x8 then (.ok (), buffer, shutdown s)
            else frameLoop handle shutdown uninit rounds (buffer.retrieve frame.frameLen, s)

namespace ChatServer

variable {υ μ : Type} (env : Env υ μ) (conn : ConnId) (now : ℕ) (s : Server υ μ)

-- As a connection callback it looks at the state of the connection to tell UP from DOWN.
def onConnection : Server υ μ :=
  if s.connected conn then s.setConnectionState conn {}
  else
    let name := s.username conn
    let s := if name ≠ [] then ChatService.onDisconnect s name else s
    (s.setConnectionState conn default).shutdown conn

section Http

open Search

def notFound : Bytes :=
  ascii "HTTP/1.1 404 Not Found\r\nContent-Type: text/plain\r\n\r\n404 Not Found"
def fileNotFound : Bytes :=
  ascii "HTTP/1.1 404 Not Found\r\nContent-Type: text/plain\r\n\r\nFile not found"
def badRequest : Bytes := ascii "HTTP/1.1 400 Bad Request\r\n\r\nBad Request"

def filePath (path : Bytes) : Option Bytes :=
  if path = ascii "/" ∨ path = ascii "/chat.html" then
    some (ascii "/home/admin/wcztmdd/MyTestserver/web/chat.html")
  else if path = ascii "/bg.png" then some (ascii "/home/admin/wcztmdd/MyTestserver/web/bg.png")
  else if path = ascii "/index.html" then
    some (ascii "/home/admin/wcztmdd/MyTestserver/web/index.html")
  else none

def contentType (filePath : Bytes) : Bytes :=
  if find filePath (ascii ".html") 0 ≠ none then ascii "text/html; charset=utf-8"
  else if find filePath (ascii ".png") 0 ≠ none then ascii "image/png"
  else ascii "text/plain"

def responseHeader (filePath content : Bytes) : Bytes :=
  ascii "HTTP/1.1 200 OK\r\n" ++ ascii "Content-Type: " ++ contentType filePath ++ crlf ++
    ascii "Content-Length: " ++ ascii (toString content.length) ++ crlf ++
    ascii "Connection: close\r\n" ++ crlf

def serveFile (path : Bytes) : Server υ μ :=
  match filePath path with
  | none => (s.send conn notFound).shutdown conn
  | some filePath =>
      match env.readFile filePath with
      | none => (s.send conn fileNotFound).shutdown conn
      | some content =>
          ((s.send conn (responseHeader filePath content)).send conn content).shutdown conn

-- Whether the request is dealt with, and the server afterwards.
def handleHttpRequest (request : Bytes) : Bool × Server υ μ :=
  if isWebSocketUpgrade request then (false, s)
  else if request.take 3 = ascii "GET" then
    match find request (ascii " ") 4 with
    | none => (false, s)
    | some pathEnd => (true, serveFile env conn s ((request.drop 4).take (pathEnd - 4)))
  else (false, s)

-- The handshake branch of onMessage, on the bytes it takes out of the buffer.
def handleHandshake (data : Bytes) : Server υ μ :=
  match handleHttpRequest env conn s data with
  | (true, s) => s
  | (false, s) =>
      if isWebSocketUpgrade data then
        let state := { s.connectionStates conn with isWebSocket := true }
        let s := s.setConnectionState conn state
        let s := s.send conn (generateHandshakeResponse env.crypto data)
        s.setConnectionState conn { state with handshakeComplete := true }
      else (s.send conn badRequest).shutdown conn

-- Nothing that a connection asks for before its handshake reaches beyond it.

theorem quiet_serveFile (path : Bytes) : s.Quiet (serveFile env conn s path) := by
  unfold serveFile
  split
  · exact (s.quiet_send conn _).trans (Server.quiet_shutdown _ conn)
  split
  · exact (s.quiet_send conn _).trans (Server.quiet_shutdown _ conn)
  · exact ((s.quiet_send conn _).trans (Server.quiet_send _ conn _)).trans
      (Server.quiet_shutdown _ conn)

theorem quiet_handleHttpRequest (request : Bytes) :
    s.Quiet (handleHttpRequest env conn s request).2 := by
  unfold handleHttpRequest
  split
  · exact .refl s
  split
  · split
    · exact .refl s
    · exact quiet_serveFile env conn s _
  · exact .refl s

theorem quiet_handleHandshake (data : Bytes) : s.Quiet (handleHandshake env conn s data) := by
  have hhttp := quiet_handleHttpRequest env conn s data
  unfold handleHandshake
  split
  · rename_i t h
    rw [h] at hhttp
    exact hhttp
  · rename_i t h
    rw [h] at hhttp
    refine hhttp.trans ?_
    split
    · have hsocket : t.Quiet (t.setConnectionState conn
          { t.connectionStates conn with isWebSocket := true }) :=
        t.quiet_setConnectionState conn rfl
      have hsent := hsocket.trans
        (Server.quiet_send _ conn (generateHandshakeResponse env.crypto data))
      exact hsent.trans (Server.quiet_setConnectionState _ conn (hsent.username conn).symm)
    · exact (t.quiet_send conn _).trans (Server.quiet_shutdown _ conn)

end Http

section WebSocket

def errorMessage : Json :=
  let error := Json.null.assign fieldMsgType (.string msgTypeError)
  error.assign fieldError (.string (ascii "Invalid JSON"))

def decode (payload : Bytes) : Except Exception Request := env.parse payload >>= Request.read

-- The branches of handleWebSocketMessage, once their fields are read.
def dispatch (request : Request) : Outcome (Server υ μ) :=
  match request with
  | .register username password => ChatService.handleRegister env conn s username password
  | .login username password =>
      (ChatService.handleLogin env conn now (s.setUsername conn username) username password).andThen
        fun s => ChatService.handleGetHistory env conn s 50
  | .logout =>
      (ChatService.handleLogout conn s (s.username conn)).andThen
        fun s => (.ok (), s.setUsername conn [])
  | .chat content => ChatService.handleChat env now s (s.username conn) content
  | .heartbeat => ChatService.handleHeartbeat now s (s.username conn)
  | .get_history limit => ChatService.handleGetHistory env conn s limit
  | .unknown _ => (.ok (), s)

-- The try block.
def receive (payload : Bytes) : Outcome (Server υ μ) :=
  match decode env payload with
  | .ok request => dispatch env conn now s request
  | .error e => (.error e, s)

def handleWebSocketMessage (payload : Bytes) : Outcome (Server υ μ) :=
  match receive env conn now s payload with
  | (.error .parse_error, s) => s.respond conn errorMessage.dump
  | result => result

-- All messages of one call carry the time of the call.
def onMessage (uninit : ℕ → MaskingKey) (buffer : Buffer) : Outcome (Buffer × Server υ μ) :=
  if (s.connectionStates conn).handshakeComplete = false then
    (.ok (), buffer.retrieveAllAsString.2,
      handleHandshake env conn s buffer.retrieveAllAsString.1)
  else if (s.connectionStates conn).isWebSocket then
    frameLoop (fun payload s => handleWebSocketMessage env conn now s payload)
      (fun s => s.shutdown conn) uninit buffer.readableBytes (buffer, s)
  else (.ok (), buffer, s)

theorem dispatch_error {request : Request} {e : Exception}
    (h : (dispatch env conn now s request).1 = .error e) : e = .type_error := by
  cases request with
  | register username password =>
      obtain ⟨users, text, hresult⟩ :=
        ChatService.handleRegister_result env conn s username password
      rw [dispatch, hresult] at h
      cases h
  | login username password =>
      simp only [dispatch] at h
      cases hlogin : ChatService.handleLogin env conn now (s.setUsername conn username) username
          password with
      | mk result t =>
          rw [hlogin] at h
          cases result with
          | ok _ => exact ChatService.handleGetHistory_error env conn t h
          | error e' =>
              obtain rfl : e' = e := Except.error.inj h
              exact ChatService.handleLogin_error env conn now _ (congrArg Prod.fst hlogin)
  | logout =>
      obtain ⟨text, hresult⟩ := ChatService.handleLogout_result conn s (s.username conn)
      simp only [dispatch, hresult, Outcome.andThen_ok] at h
      cases h
  | chat content => exact ChatService.handleChat_error env now s h
  | heartbeat =>
      obtain ⟨t, hresult, _⟩ := ChatService.handleHeartbeat_result now s (s.username conn)
      rw [dispatch, hresult] at h
      cases h
  | get_history limit => exact ChatService.handleGetHistory_error env conn s h
  | unknown msgType => cases h

theorem errorMessage_utf8 : errorMessage.Utf8 :=
  Json.utf8_assign_ascii "error" (ChatService.utf8_msgType "error") (Json.utf8_ascii _)

-- The three ways a payload can go. The catch block sees the first kind of error only, and
-- no handler raises it.

theorem handleWebSocketMessage_decoded {payload : Bytes} {request : Request}
    (h : decode env payload = .ok request) :
    handleWebSocketMessage env conn now s payload = dispatch env conn now s request := by
  unfold handleWebSocketMessage receive
  rw [h]
  dsimp only
  split
  · rename_i t hresult
    cases dispatch_error env conn now s (congrArg Prod.fst hresult)
  · rfl

theorem handleWebSocketMessage_parse_error {payload : Bytes}
    (h : decode env payload = .error .parse_error) :
    handleWebSocketMessage env conn now s payload =
      (.ok (), s.sendResponse conn errorMessage.render) := by
  simp only [handleWebSocketMessage, receive, h, Json.dump_ok errorMessage_utf8, Server.respond]

theorem handleWebSocketMessage_uncaught {payload : Bytes} {e : Exception}
    (h : decode env payload = .error e) (he : e ≠ .parse_error) :
    handleWebSocketMessage env conn now s payload = (.error e, s) := by
  unfold handleWebSocketMessage receive
  rw [h]
  dsimp only
  split
  · rename_i t hresult
    exact absurd (Except.error.inj (congrArg Prod.fst hresult)) he
  · rfl

end WebSocket

end ChatServer

end MyTestserver
