import MyTestserver.Library.Bypass
import MyTestserver.Library.Transition
import MyTestserver.SessionManager
import MyTestserver.TcpConnection

namespace MyTestserver

open Transition

-- What the callers' strings occupy; there is nothing at an address that is not in use.
abbrev Address := ℕ
abbrev Store := Address → Option UInt8

-- A call of TcpConnection::send: the thread it is made on, what the string holds at that
-- moment, and how many broadcasts held the mutex before, if it is part of one. The code
-- keeps no such record; the properties are about it.
structure Call where
  thread : ThreadId
  buf : Bytes
  number : Option ℕ
  deriving DecidableEq

-- The functors for a loop. std::bind copies the pointer and the length.
inductive Functor
  | sendInLoop (conn : ConnId) (data : Address) (len : ℕ) (call : Call)
  | shutdownInLoop (conn : ConnId)
  deriving DecidableEq

-- `functors` is the local list of doPendingFunctors, `wakeupFd` the counter behind it.
structure EventLoop where
  pendingFunctors : List Functor := []
  functors : List Functor := []
  callingPendingFunctors : Bool := false
  wakeupFd : ℕ := 0
  deriving DecidableEq

def EventLoop.queued (loop : EventLoop) : List Functor := loop.functors ++ loop.pendingFunctors

-- The call that a functor was made for, if it is for the connection.
def Functor.callFor (conn : ConnId) : Functor → Option Call
  | .sendInLoop other _ _ call => if other = conn then some call else none
  | .shutdownInLoop _ => none

theorem Functor.callFor_eq_some {conn : ConnId} {cb : Functor} {call : Call}
    (h : cb.callFor conn = some call) : ∃ data len, cb = .sendInLoop conn data len call := by
  cases cb with
  | sendInLoop other data len c =>
      simp only [Functor.callFor] at h
      split at h
      · rename_i heq
        obtain rfl := Option.some.inj h
        exact ⟨data, len, heq ▸ rfl⟩
      · cases h
  | shutdownInLoop other => cases h

@[simp] theorem Functor.callFor_sendInLoop (conn : ConnId) (data : Address) (len : ℕ)
    (call : Call) : (Functor.sendInLoop conn data len call).callFor conn = some call := if_pos rfl

-- broadcastToAll under way: its argument and the sessions it has not come to yet.
structure Broadcast where
  number : ℕ
  data : Address
  message : Bytes
  excludeUsername : Bytes
  rest : List (Bytes × ConnId)
  deriving DecidableEq

-- A call that sendInLoop took over, the bytes it read for it, and the calls for the same
-- connection that were in the queue then.
structure Taken where
  call : Call
  bytes : Bytes
  waiting : List Call
  deriving DecidableEq

-- What the outside decides when sendInLoop runs: the result of write(2), and what is read
-- at an address that is not in use.
structure Io where
  result : WriteResult
  stale : Address → UInt8

structure Network where
  conns : ConnId → TcpConnection
  loops : ThreadId → EventLoop
  store : Store
  sessions : Sessions
  -- SessionManager::mutex_
  mutex : Option ThreadId
  broadcasts : ThreadId → Option Broadcast
  -- How often broadcastToAll has locked the mutex.
  held : ℕ
  taken : ConnId → List Taken

def Store.Holds (store : Store) (data : Address) (buf : Bytes) : Prop :=
  ∀ i (h : i < buf.length), store (data + i) = some buf[i]

def Store.load (store : Store) (stale : Address → UInt8) (data : Address) (len : ℕ) : Bytes :=
  (List.range len).map fun i => (store (data + i)).getD (stale (data + i))

theorem Store.load_eq {store : Store} {data : Address} {buf : Bytes} (h : store.Holds data buf)
    (stale : Address → UInt8) : store.load stale data buf.length = buf := by
  unfold load
  apply List.ext_getElem
  · simp
  · intro i hi hi'
    simp [h i hi']

namespace Network

section Operations

variable (s : Network)

def start (loopOf : ConnId → ThreadId) : Network where
  conns conn := .new (loopOf conn)
  loops _ := {}
  store _ := none
  sessions := ∅
  mutex := none
  broadcasts _ := none
  held := 0
  taken _ := []

def updateLoop (thread : ThreadId) (loop : EventLoop) : Network :=
  { s with loops := Function.update s.loops thread loop }

def updateConn (conn : ConnId) (state : TcpConnection) : Network :=
  { s with conns := Function.update s.conns conn state }

def setState (conn : ConnId) (state : StateE) : Network :=
  s.updateConn conn { s.conns conn with state := state }

-- The calls in the queue of the connection's loop that are for this connection.
def waiting (conn : ConnId) : List Call :=
  (s.loops (s.conns conn).loop).queued.filterMap (Functor.callFor conn)

-- TcpConnection::sendInLoop
def sendInLoop (io : Io) (conn : ConnId) (data : Address) (len : ℕ) (call : Call) : Network :=
  let bytes := s.store.load io.stale data len
  match (s.conns conn).sendInLoop io.result bytes with
  | none => s
  | some state =>
      let entry := ⟨call, bytes, s.waiting conn⟩
      { s.updateConn conn state with
        taken := Function.update s.taken conn (s.taken conn ++ [entry]) }

-- TcpConnection::shutdownInLoop
def shutdownInLoop (conn : ConnId) : Network := s.updateConn conn (s.conns conn).shutdownInLoop

def exec (io : Io) : Functor → Network
  | .sendInLoop conn data len call => s.sendInLoop io conn data len call
  | .shutdownInLoop conn => s.shutdownInLoop conn

-- EventLoop::queueInLoop, called on `thread` for the loop of another thread or its own.
def queueInLoop (thread loop : ThreadId) (cb : Functor) : Network :=
  let state := s.loops loop
  let wakeup := thread ≠ loop ∨ state.callingPendingFunctors = true
  s.updateLoop loop
    { state with
      pendingFunctors := state.pendingFunctors ++ [cb]
      wakeupFd := if wakeup then state.wakeupFd + 1 else state.wakeupFd }

-- EventLoop::runInLoop
def runInLoop (io : Io) (thread loop : ThreadId) (cb : Functor) : Network :=
  if thread = loop then s.exec io cb else s.queueInLoop thread loop cb

-- TcpConnection::send
def send (io : Io) (conn : ConnId) (data : Address) (len : ℕ) (call : Call) : Network :=
  if (s.conns conn).state = .kConnected then
    if call.thread = (s.conns conn).loop then s.sendInLoop io conn data len call
    else s.runInLoop io call.thread (s.conns conn).loop (.sendInLoop conn data len call)
  else s

-- TcpConnection::shutdown
def shutdown (io : Io) (thread : ThreadId) (conn : ConnId) : Network :=
  if (s.conns conn).state = .kConnected then
    (s.setState conn .kDisconnecting).runInLoop io thread (s.conns conn).loop (.shutdownInLoop conn)
  else s

-- The loop of broadcastToAll over one session.
def broadcastNext (io : Io) (thread : ThreadId) (b : Broadcast) (username : Bytes) (conn : ConnId)
    (rest : List (Bytes × ConnId)) : Network :=
  let s :=
    { s with broadcasts := Function.update s.broadcasts thread (some { b with rest := rest }) }
  if username ≠ b.excludeUsername ∧ (s.conns conn).state = .kConnected then
    s.send io conn b.data b.message.length ⟨thread, b.message, some b.number⟩
  else s

end Operations

-- The steps of the threads. `memory` is all that callers can do with their storage: use
-- it again, change it, give it back. `swap`, `run` and `finish` are doPendingFunctors.
inductive Event
  | setState (conn : ConnId) (state : StateE)
  | memory (store : Store)
  | setSessions (sessions : Sessions)
  | send (thread : ThreadId) (io : Io) (conn : ConnId) (data : Address) (buf : Bytes)
  | shutdown (thread : ThreadId) (io : Io) (conn : ConnId)
  | lock (thread : ThreadId) (data : Address) (message excludeUsername : Bytes)
  | broadcast (thread : ThreadId) (io : Io)
  | unlock (thread : ThreadId)
  | swap (thread : ThreadId)
  | run (thread : ThreadId) (io : Io)
  | finish (thread : ThreadId)
  | writable (conn : ConnId) (n : ℕ)
  | wakeup (thread : ThreadId)

-- A thread makes one call at a time, and the string it passes is there and stays as it is
-- until the call returns. SessionManager changes its sessions under its mutex.
def Guard (s : Network) : Event → Prop
  | .setState _ _ | .writable _ _ | .wakeup _ => True
  | .memory store =>
      match s.mutex.bind s.broadcasts with
      | some b => store.Holds b.data b.message
      | none => True
  | .setSessions _ => s.mutex = none
  | .send thread _ _ data buf => s.broadcasts thread = none ∧ s.store.Holds data buf
  | .shutdown thread _ _ => s.broadcasts thread = none
  | .lock thread data message _ =>
      s.mutex = none ∧ s.broadcasts thread = none ∧ s.store.Holds data message
  | .broadcast thread _ =>
      match s.broadcasts thread with
      | some b => b.rest ≠ []
      | none => False
  | .unlock thread =>
      match s.broadcasts thread with
      | some b => b.rest = []
      | none => False
  | .swap thread =>
      s.broadcasts thread = none ∧ (s.loops thread).callingPendingFunctors = false
  | .run thread _ =>
      s.broadcasts thread = none ∧ (s.loops thread).callingPendingFunctors = true ∧
        (s.loops thread).functors ≠ []
  | .finish thread =>
      s.broadcasts thread = none ∧ (s.loops thread).callingPendingFunctors = true ∧
        (s.loops thread).functors = []

instance (store : Store) (data : Address) (buf : Bytes) : Decidable (store.Holds data buf) := by
  unfold Store.Holds
  infer_instance

instance (s : Network) (e : Event) : Decidable (s.Guard e) := by
  unfold Guard
  split <;> try infer_instance
  all_goals
    split <;> infer_instance

def next (s : Network) : Event → Network
  | .setState conn state => s.setState conn state
  | .memory store => { s with store := store }
  | .setSessions sessions => { s with sessions := sessions }
  | .send thread io conn data buf => s.send io conn data buf.length ⟨thread, buf, none⟩
  | .shutdown thread io conn => s.shutdown io thread conn
  | .lock thread data message excludeUsername =>
      let rest := s.sessions.entries.map fun pair => (pair.1, pair.2.conn)
      { s with
        mutex := some thread
        broadcasts :=
          Function.update s.broadcasts thread
            (some ⟨s.held, data, message, excludeUsername, rest⟩)
        held := s.held + 1 }
  | .broadcast thread io =>
      match s.broadcasts thread with
      | some b =>
          match b.rest with
          | (username, conn) :: rest => s.broadcastNext io thread b username conn rest
          | [] => s
      | none => s
  | .unlock thread =>
      { s with mutex := none, broadcasts := Function.update s.broadcasts thread none }
  | .swap thread =>
      s.updateLoop thread
        { s.loops thread with
          functors := (s.loops thread).pendingFunctors
          pendingFunctors := []
          callingPendingFunctors := true }
  | .run thread io =>
      match (s.loops thread).functors with
      | cb :: functors =>
          (s.updateLoop thread { s.loops thread with functors := functors }).exec io cb
      | [] => s
  | .finish thread => s.updateLoop thread { s.loops thread with callingPendingFunctors := false }
  | .writable conn n => s.updateConn conn ((s.conns conn).handleWrite n)
  | .wakeup thread => s.updateLoop thread { s.loops thread with wakeupFd := 0 }

def Step (s : Network) (e : Event) (t : Network) : Prop := s.Guard e ∧ t = s.next e

end Network

end MyTestserver
