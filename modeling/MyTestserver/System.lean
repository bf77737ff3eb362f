import MyTestserver.ChatServer
import MyTestserver.Library.Transition

namespace MyTestserver

open Transition

-- What the server reacts to, one callback or one JSON message at a time on whatever loop;
-- what handlers do that overlap is in Logins and in Network. `message` is the payload of a
-- text frame, `now` the time of its arrival.
inductive Event
  | up (conn : ConnId)
  | request (conn : ConnId) (data : Bytes)
  | message (conn : ConnId) (payload : Bytes) (now : ℕ)
  | closeFrame (conn : ConnId)
  | down (conn : ConnId)
  deriving DecidableEq

namespace Event

variable {υ μ : Type} (env : Env υ μ)

-- The event is a message on the connection that decodes to the request.
def Asks (conn : ConnId) (request : Request) (e : Event) : Prop :=
  ∃ payload now, e = .message conn payload now ∧ ChatServer.decode env payload = .ok request

def Login (conn : ConnId) (username password : Bytes) (e : Event) : Prop :=
  e.Asks env conn (.login username password)

-- A condition on the logins among the events.
def OnLogin (p : ConnId → Bytes → Bytes → Prop) : Event → Prop
  | .message conn payload _ =>
      match ChatServer.decode env payload with
      | .ok (.login username password) => p conn username password
      | _ => True
  | _ => True

instance (p : ConnId → Bytes → Bytes → Prop) [∀ conn u password, Decidable (p conn u password)]
    (e : Event) : Decidable (e.OnLogin env p) := by
  cases e with
  | message conn payload now =>
      simp only [OnLogin]
      split <;> infer_instance
  | _ => exact .isTrue trivial

theorem onLogin_iff {p : ConnId → Bytes → Bytes → Prop} {e : Event} :
    e.OnLogin env p ↔ ∀ conn u password, e.Login env conn u password → p conn u password := by
  constructor
  · rintro h conn u password ⟨payload, now, rfl, hdecode⟩
    simpa [OnLogin, hdecode] using h
  · intro h
    cases e with
    | message conn payload now =>
        simp only [OnLogin]
        split
        · rename_i u password hdecode
          exact h conn u password ⟨payload, now, rfl, hdecode⟩
        · trivial
    | _ => trivial

end Event

namespace Server

variable {υ μ : Type} (env : Env υ μ)

-- Each connection comes up once, is served while it is open, and goes down once. Messages
-- come in after the handshake.
def Guard (s : Server υ μ) : Event → Prop
  | .up conn => (s.conns conn).state = .kConnecting
  | .request conn _ => s.Open conn ∧ (s.connectionStates conn).handshakeComplete = false
  | .message conn _ _ | .closeFrame conn =>
      s.Open conn ∧ (s.connectionStates conn).handshakeComplete = true ∧
        (s.connectionStates conn).isWebSocket = true
  | .down conn => s.Open conn

instance (s : Server υ μ) (e : Event) : Decidable (s.Guard e) := by
  unfold Guard
  cases e <;> infer_instance

-- TcpConnection sets its state before it calls the connection callback.
def exec (s : Server υ μ) : Event → Outcome (Server υ μ)
  | .up conn => (.ok (), ChatServer.onConnection conn (s.setState conn .kConnected))
  | .request conn data => (.ok (), ChatServer.handleHandshake env conn s data)
  | .message conn payload now => ChatServer.handleWebSocketMessage env conn now s payload
  | .closeFrame conn => (.ok (), s.shutdown conn)
  | .down conn => (.ok (), ChatServer.onConnection conn (s.setState conn .kDisconnected))

-- An exception ends the program; the state it is raised in is the last one. A signal or a
-- stack that is used up may end it at any other time, and is no event.
def next (s : Server υ μ) (e : Event) : Server υ μ :=
  match s.exec env e with
  | (.ok (), t) => t
  | (.error _, t) => { t with running := false }

def Step (s : Server υ μ) (e : Event) (t : Server υ μ) : Prop :=
  s.running = true ∧ s.Guard e ∧ t = s.next env e

-- The runs of a server that starts with no connection and some content of the database.
def Reachable (s : Server υ μ) : Prop :=
  ∃ users messages es, Path (Step env) (start users messages) es s

def play (s : Server υ μ) (es : List Event) : Server υ μ := Transition.play (next env) s es

-- The events are possible, and each meets a condition when its turn comes.
def Plays (good : Server υ μ → Event → Prop) (s : Server υ μ) (es : List Event) : Prop :=
  Transition.Plays (fun s e => good s e ∧ s.running = true ∧ s.Guard e) (next env) s es

instance (good : Server υ μ → Event → Prop) [∀ s e, Decidable (good s e)] (s : Server υ μ)
    (es : List Event) : Decidable (Plays env good s es) := by
  unfold Plays
  infer_instance

theorem path_of_plays {good : Server υ μ → Event → Prop} {s : Server υ μ} {es : List Event}
    (h : Plays env good s es) : Path (restrict good (Step env)) s es (s.play env es) :=
  Transition.path_of_plays (fun _ _ hok => ⟨hok.1, hok.2.1, hok.2.2, rfl⟩) h

end Server

end MyTestserver
