import MyTestserver.Database
import MyTestserver.Json
import MyTestserver.SessionManager
import MyTestserver.WebSocketHandler

namespace MyTestserver

open WebSocketHandler

-- An entry of connectionStates_. The code cannot tell an absent entry from a
-- value-initialised one, so absent ones are `default` here.
structure ConnectionState where
  isWebSocket : Bool := false
  handshakeComplete : Bool := false
  username : Bytes := []
  deriving DecidableEq, Inhabited

-- What the handlers see of a TcpConnection: its state, and the strings it took for sending.
structure Conn where
  state : StateE := .kConnecting
  sent : List Bytes := []
  deriving DecidableEq, Inhabited

-- What the handlers did, as they did it. The code keeps no such record; the properties
-- are about it.
inductive Effect
  | loginAnswered (conn : ConnId) (username : Bytes)
  | saved (sender : Bytes) (userId : ℤ) (content : Bytes)
  | broadcast (sender content : Bytes)
  | refreshed (username : Bytes)
  | historySent (conn : ConnId)
  deriving DecidableEq

-- ChatServer with its ChatService, the database behind it and the connections in front.
-- `running` is false once an exception has left a handler: nothing catches it there.
structure Server (υ μ : Type) where
  connectionStates : ConnId → ConnectionState
  sessions : Sessions
  users : υ
  messages : μ
  conns : ConnId → Conn
  trace : List Effect
  running : Bool

-- The code and the data outside: the JSON parser, OpenSSL, the files and the database.
structure Env (υ μ : Type) where
  parse : Bytes → Except Exception Json
  crypto : Crypto
  readFile : Bytes → Option Bytes
  userDao : UserDao υ
  messageDao : MessageDao μ

namespace Server

variable {υ μ : Type}

def start (users : υ) (messages : μ) : Server υ μ where
  connectionStates := fun _ => {}
  sessions := ∅
  users := users
  messages := messages
  conns := fun _ => {}
  trace := []
  running := true

section Operations

variable (s : Server υ μ) (conn : ConnId)

-- TcpConnection::connected
def connected : Bool := (s.conns conn).state = .kConnected

-- The DOWN callback of the connection has not run yet, the UP callback has.
def Open : Prop := (s.conns conn).state = .kConnected ∨ (s.conns conn).state = .kDisconnecting

instance : Decidable (s.Open conn) := by
  unfold Open
  infer_instance

def username : Bytes := (s.connectionStates conn).username

def setState (state : StateE) : Server υ μ :=
  { s with conns := Function.update s.conns conn { s.conns conn with state := state } }

-- TcpConnection::send: only a connected connection takes the string.
def send (buf : Bytes) : Server υ μ :=
  if s.connected conn then
    { s with
      conns :=
        Function.update s.conns conn { s.conns conn with sent := (s.conns conn).sent ++ [buf] } }
  else s

-- TcpConnection::shutdown
def shutdown : Server υ μ := if s.connected conn then s.setState conn .kDisconnecting else s

def setConnectionState (state : ConnectionState) : Server υ μ :=
  { s with connectionStates := Function.update s.connectionStates conn state }

def setUsername (username : Bytes) : Server υ μ :=
  s.setConnectionState conn { s.connectionStates conn with username := username }

def record (effect : Effect) : Server υ μ := { s with trace := s.trace ++ [effect] }

-- SessionManager::broadcastToAll
def broadcastToAll (message excludeUsername : Bytes) : Server υ μ :=
  (SessionManager.receivers s.sessions s.connected excludeUsername).foldl
    (fun s conn => s.send conn message) s

-- ChatService::sendResponse
def sendResponse (json : Bytes) : Server υ μ := s.send conn (encodeFrame json)

-- sendResponse of a text that is still to be dumped, which may throw.
def respond (json : Except Exception Bytes) : Outcome (Server υ μ) :=
  match json with
  | .ok text => (.ok (), s.sendResponse conn text)
  | .error e => (.error e, s)

end Operations

section Sends

-- All that sending changes is what the connections took.
structure Sends (s t : Server υ μ) : Prop where
  connectionStates : t.connectionStates = s.connectionStates
  sessions : t.sessions = s.sessions
  users : t.users = s.users
  messages : t.messages = s.messages
  state : ∀ conn, (t.conns conn).state = (s.conns conn).state
  trace : t.trace = s.trace
  running : t.running = s.running

theorem Sends.refl (s : Server υ μ) : Sends s s := ⟨rfl, rfl, rfl, rfl, fun _ => rfl, rfl, rfl⟩

theorem Sends.trans {s t u : Server υ μ} (h : Sends s t) (h' : Sends t u) : Sends s u where
  connectionStates := h'.connectionStates.trans h.connectionStates
  sessions := h'.sessions.trans h.sessions
  users := h'.users.trans h.users
  messages := h'.messages.trans h.messages
  state conn := (h'.state conn).trans (h.state conn)
  trace := h'.trace.trans h.trace
  running := h'.running.trans h.running

variable (s : Server υ μ) (conn : ConnId)

theorem sends_send (buf : Bytes) : Sends s (s.send conn buf) := by
  unfold send
  split
  · refine ⟨rfl, rfl, rfl, rfl, fun other => ?_, rfl, rfl⟩
    by_cases h : other = conn
    · subst h
      simp
    · simp [h]
  · exact .refl s

theorem sent_send (h : s.connected conn = true) (buf : Bytes) :
    ((s.send conn buf).conns conn).sent = (s.conns conn).sent ++ [buf] := by
  simp [send, h]

theorem sent_send_ne {other : ConnId} (buf : Bytes) (h : other ≠ conn) :
    ((s.send conn buf).conns other).sent = (s.conns other).sent := by
  unfold send
  split
  · simp [h]
  · rfl

theorem sends_broadcastToAll (message excludeUsername : Bytes) :
    Sends s (s.broadcastToAll message excludeUsername) := by
  unfold broadcastToAll
  generalize SessionManager.receivers s.sessions s.connected excludeUsername = receivers
  induction receivers generalizing s with
  | nil => exact .refl s
  | cons conn receivers ih => exact (s.sends_send conn message).trans (ih _)

theorem sends_respond (json : Except Exception Bytes) : Sends s (s.respond conn json).2 := by
  cases json with
  | ok text => exact s.sends_send conn _
  | error e => exact .refl s

theorem Sends.open_iff {s t : Server υ μ} (h : Sends s t) (conn : ConnId) :
    t.Open conn ↔ s.Open conn := by
  simp [Open, h.state conn]

theorem Sends.connected_eq {s t : Server υ μ} (h : Sends s t) (conn : ConnId) :
    t.connected conn = s.connected conn := by
  simp [connected, h.state conn]

theorem Sends.username_eq {s t : Server υ μ} (h : Sends s t) (conn : ConnId) :
    t.username conn = s.username conn := by
  simp [username, h.connectionStates]

end Sends

section Shutdown

variable (s : Server υ μ) (conn other : ConnId)

@[simp] theorem setState_state (state : StateE) :
    ((s.setState conn state).conns other).state =
      if other = conn then state else (s.conns other).state := by
  by_cases h : other = conn
  · simp [setState, h]
  · simp [setState, h]

@[simp] theorem sent_shutdown : ((s.shutdown conn).conns other).sent = (s.conns other).sent := by
  unfold shutdown setState
  split
  · by_cases hother : other = conn
    · simp [hother]
    · simp [hother]
  · rfl

@[simp] theorem connected_shutdown : (s.shutdown conn).connected conn = false := by
  unfold shutdown
  split
  · simp [connected]
  · rename_i h
    simpa using h

-- A connection that is shut down is open until it goes down.
@[simp] theorem open_shutdown : (s.shutdown conn).Open other ↔ s.Open other := by
  unfold shutdown
  split
  · rename_i h
    by_cases hother : other = conn
    · simp_all [Open, connected]
    · simp [Open, hother]
  · rfl

@[simp] theorem username_setConnectionState (state : ConnectionState) :
    (s.setConnectionState conn state).username other =
      if other = conn then state.username else s.username other := by
  by_cases h : other = conn
  · simp [username, setConnectionState, h]
  · simp [username, setConnectionState, h]

@[simp] theorem username_setUsername (name : Bytes) :
    (s.setUsername conn name).username other = if other = conn then name else s.username other :=
  s.username_setConnectionState conn other _

end Shutdown

section Quiet

-- What serving a connection does as long as no JSON message is handled: it may send, shut
-- down and note the handshake.
structure Quiet (s t : Server υ μ) : Prop where
  sessions : t.sessions = s.sessions
  users : t.users = s.users
  messages : t.messages = s.messages
  trace : t.trace = s.trace
  running : t.running = s.running
  username : ∀ conn, t.username conn = s.username conn
  open_iff : ∀ conn, t.Open conn ↔ s.Open conn

theorem Quiet.refl (s : Server υ μ) : Quiet s s :=
  ⟨rfl, rfl, rfl, rfl, rfl, fun _ => rfl, fun _ => Iff.rfl⟩

theorem Quiet.trans {s t u : Server υ μ} (h : Quiet s t) (h' : Quiet t u) : Quiet s u where
  sessions := h'.sessions.trans h.sessions
  users := h'.users.trans h.users
  messages := h'.messages.trans h.messages
  trace := h'.trace.trans h.trace
  running := h'.running.trans h.running
  username conn := (h'.username conn).trans (h.username conn)
  open_iff conn := (h'.open_iff conn).trans (h.open_iff conn)

theorem Sends.quiet {s t : Server υ μ} (h : Sends s t) : Quiet s t :=
  ⟨h.sessions, h.users, h.messages, h.trace, h.running, h.username_eq, h.open_iff⟩

variable (s : Server υ μ) (conn : ConnId)

theorem quiet_shutdown : Quiet s (s.shutdown conn) := by
  refine ⟨?_, ?_, ?_, ?_, ?_, fun other => ?_, fun other => s.open_shutdown conn other⟩
  all_goals
    unfold shutdown
    split <;> rfl

theorem quiet_send (buf : Bytes) : Quiet s (s.send conn buf) := (s.sends_send conn buf).quiet

theorem quiet_setConnectionState {state : ConnectionState} (h : state.username = s.username conn) :
    Quiet s (s.setConnectionState conn state) := by
  refine ⟨rfl, rfl, rfl, rfl, rfl, fun other => ?_, fun _ => Iff.rfl⟩
  rw [username_setConnectionState]
  split
  · rename_i hother
    rw [h, hother]
  · rfl

end Quiet

end Server

end MyTestserver
