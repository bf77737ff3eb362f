import Mathlib.Data.List.AList
import MyTestserver.Callbacks
import MyTestserver.Library.Transition
import MyTestserver.Poller

namespace MyTestserver.Lifetime

open Callbacks (Revents ReadResult)
open EPollPoller (enableReading enableWriting disableWriting disableAll removeChannel)
open Transition

-- The functors that TcpServer makes. Each has a TcpConnectionPtr, which std::bind copied.
inductive Functor
  | connectEstablished (conn : ConnId)
  | removeConnectionInLoop (conn : ConnId)
  | connectDestroyed (conn : ConnId)
  deriving DecidableEq

inductive Handler
  | handleClose
  | handleError
  | handleRead
  | handleWrite
  deriving DecidableEq

-- Channel::handleEventWithGuard
def handlers (revents : Revents) : List Handler :=
  (if revents.EPOLLHUP && !revents.EPOLLIN then [.handleClose] else []) ++
    (if revents.EPOLLERR then [.handleError] else []) ++
    (if revents.EPOLLIN || revents.EPOLLPRI then [.handleRead] else []) ++
    if revents.EPOLLOUT then [.handleWrite] else []

-- What a thread is in the middle of with a TcpConnectionPtr in its hands: `newConnection` is
-- past the entry in connections_, `functor` before the first line, `handleEvent` with the
-- callbacks still to come, `handleClose` before closeCallback_ and `removeConnectionInLoop`
-- past the erase.
inductive Frame
  | newConnection (conn : ConnId)
  | functor (cb : Functor)
  | handleEvent (conn : ConnId) (rest : List Handler)
  | handleClose (conn : ConnId)
  | removeConnectionInLoop (conn : ConnId)
  deriving DecidableEq

-- An entry of activeChannel_, with its revents_.
inductive Active
  | acceptChannel
  | channel (conn : ConnId) (revents : Revents)
  deriving DecidableEq

-- Where loop() is: in poller_->poll, in the loop over activeChannel_ or in
-- doPendingFunctors, with what is still to be done there.
inductive Place
  | poll
  | handleEvents (activeChannel : List Active)
  | doPendingFunctors (functors : List Functor)
  deriving DecidableEq

-- The innermost frame is the first.
structure EventLoop where
  place : Place := .poll
  frames : List Frame := []
  pendingFunctors : List Functor := []
  deriving DecidableEq

-- The last three are there for the properties: connectEstablished and connectDestroyed have
-- run, and the destructor has closed the socket.
structure Connection where
  name : Bytes
  loop : ThreadId
  state : StateE
  channel : Channel
  established : Bool
  destroyed : Bool
  closed : Bool
  deriving DecidableEq

structure EventLoopThreadPool where
  baseLoop : ThreadId
  loops : List ThreadId
  next : ℕ
  next_lt : loops ≠ [] → next < loops.length

-- TcpServer with its thread pool, the loops and their pollers. Connections are told apart by
-- the order in which they are made; `made` is how many there were. The counter of the source
-- is an int, and this one is it while fewer than 2 ^ 31 - 1 connections have been made.
structure Server where
  name : Bytes
  ipPort : Bytes
  loop : ThreadId
  threadPool : EventLoopThreadPool
  nextConnId : ℕ
  made : ℕ
  connections : AList fun _ : Bytes => ConnId
  conns : ConnId → Connection
  eventLoops : ThreadId → EventLoop
  pollers : ThreadId → EPollPoller ConnId

-- `proceed` is the next part of the innermost frame, `sendInLoop` and `shutdown` are calls
-- on the loop of the connection, and `destruct` is the destructor.
inductive Event
  | poll (thread : ThreadId) (activeChannel : List Active)
  | handleEvent (thread : ThreadId) (connfd : Option ℕ)
  | proceed (thread : ThreadId) (n : ReadResult) (drained : Bool)
  | doPendingFunctors (thread : ThreadId)
  | call (thread : ThreadId)
  | finish (thread : ThreadId)
  | sendInLoop (conn : ConnId) (remaining : Bool)
  | shutdown (conn : ConnId)
  | destruct (conn : ConnId)

def Connection.new (name : Bytes) (loop : ThreadId) (sockfd : ℕ) : Connection where
  name := name
  loop := loop
  state := .kConnecting
  channel := .new sockfd
  established := false
  destroyed := false
  closed := false

def Functor.conn : Functor → ConnId
  | .connectEstablished conn | .removeConnectionInLoop conn | .connectDestroyed conn => conn

def Frame.conn : Frame → ConnId
  | .newConnection conn | .handleEvent conn _ | .handleClose conn
  | .removeConnectionInLoop conn => conn
  | .functor cb => cb.conn

namespace EventLoop

variable (loop : EventLoop)

def activeChannel : List Active :=
  match loop.place with
  | .handleEvents activeChannel => activeChannel
  | .poll | .doPendingFunctors _ => []

def functors : List Functor :=
  match loop.place with
  | .doPendingFunctors functors => functors
  | .poll | .handleEvents _ => []

-- All that the thread is at and has in its queues.
def work : List Frame :=
  loop.frames ++ (loop.functors ++ loop.pendingFunctors).map Frame.functor

end EventLoop

namespace EventLoopThreadPool

def new (baseLoop : ThreadId) (loops : List ThreadId) : EventLoopThreadPool where
  baseLoop := baseLoop
  loops := loops
  next := 0
  next_lt := List.length_pos_of_ne_nil

def getNextLoop (pool : EventLoopThreadPool) : ThreadId × EventLoopThreadPool :=
  if h : pool.loops = [] then (pool.baseLoop, pool)
  else
    (pool.loops.get ⟨pool.next, pool.next_lt h⟩,
      { pool with
        next := if pool.loops.length ≤ pool.next + 1 then 0 else pool.next + 1
        next_lt := by
          intro hne
          have := List.length_pos_of_ne_nil hne
          split <;> omega })

end EventLoopThreadPool

namespace Server

def start (name ipPort : Bytes) (loop : ThreadId) (loops : List ThreadId) : Server where
  name := name
  ipPort := ipPort
  loop := loop
  threadPool := .new loop loops
  nextConnId := 1
  made := 0
  connections := ∅
  conns _ := .new [] loop 0
  eventLoops _ := {}
  pollers _ := .new

section Operations

variable (s : Server) (thread : ThreadId) (conn : ConnId)

def threads : List ThreadId := s.loop :: s.threadPool.loops

-- The buffer of 64 bytes has room for the address and port of IPv4, and for an int.
def connName (connId : ℕ) : Bytes :=
  s.name ++ ascii "-" ++ s.ipPort ++ ascii "#" ++ ascii (toString connId)

def setLoop (loop : EventLoop) : Server :=
  { s with eventLoops := Function.update s.eventLoops thread loop }

def push (frame : Frame) : Server :=
  s.setLoop thread
    { s.eventLoops thread with frames := frame :: (s.eventLoops thread).frames }

def pop : Server :=
  s.setLoop thread { s.eventLoops thread with frames := (s.eventLoops thread).frames.tail }

def queueInLoop (loop : ThreadId) (cb : Functor) : Server :=
  s.setLoop loop
    { s.eventLoops loop with pendingFunctors := (s.eventLoops loop).pendingFunctors ++ [cb] }

def runInLoop (loop : ThreadId) (cb : Functor) : Server :=
  if thread = loop then s.push thread (.functor cb) else s.queueInLoop loop cb

def modify (change : Connection → Connection) : Server :=
  { s with conns := Function.update s.conns conn (change (s.conns conn)) }

def setPoller (poller : EPollPoller ConnId) : Server :=
  { s with pollers := Function.update s.pollers thread poller }

def setState (state : StateE) : Server := s.modify conn ({ · with state := state })

-- Channel::tie
def tie : Server := s.modify conn fun c => { c with channel := { c.channel with tied := true } }

-- A call of the channel, which its loop passes on to the poller.
def changeChannel
    (change : EPollPoller ConnId → ConnId → Channel → EPollPoller ConnId × Channel) : Server :=
  let c := s.conns conn
  let result := change (s.pollers c.loop) conn c.channel
  (s.modify conn ({ · with channel := result.2 })).setPoller c.loop result.1

def create (sockfd : ℕ) : Server :=
  let nextLoop := s.threadPool.getNextLoop
  let connName := s.connName s.nextConnId
  { s with
    threadPool := nextLoop.2
    nextConnId := s.nextConnId + 1
    made := s.made + 1
    conns := Function.update s.conns s.made (.new connName nextLoop.1 sockfd)
    connections := s.connections.insert connName s.made }

-- TcpServer::newConnection up to runInLoop
def newConnection (sockfd : ℕ) : Server :=
  (s.create sockfd).push thread (.newConnection s.made)

def connectEstablished : Server :=
  let s := s.modify conn ({ · with state := .kConnected, established := true })
  (s.tie conn).changeChannel conn enableReading

-- connectionCallback_ comes in between; what it does to connections are calls of its own.
def connectDestroyed : Server :=
  let s :=
    if (s.conns conn).state = .kConnected then
      (s.setState conn .kDisconnected).changeChannel conn disableAll
    else s
  (s.changeChannel conn removeChannel).modify conn ({ · with destroyed := true })

def erase : Server := { s with connections := s.connections.erase (s.conns conn).name }

def handleClose : Server :=
  ((s.setState conn .kDisconnected).changeChannel conn disableAll).push thread
    (.handleClose conn)

-- `drained` is that the socket took all that was left in the output buffer.
def handleWrite (drained : Bool) : Server :=
  if (s.conns conn).channel.isWriting && drained then s.changeChannel conn disableWriting
  else s

-- `remaining` is that something goes into the output buffer.
def sendInLoop (remaining : Bool) : Server :=
  if (s.conns conn).state = .kDisconnected then s
  else if remaining && !(s.conns conn).channel.isWriting then
    s.changeChannel conn enableWriting
  else s

def shutdown : Server :=
  if (s.conns conn).state = .kConnected then s.setState conn .kDisconnecting else s

-- The callbacks of the channel. messageCallback_ may send and shut down.
def handle (handler : Handler) (n : ReadResult) (drained : Bool) : Server :=
  match handler with
  | .handleClose => s.handleClose thread conn
  | .handleError => s
  | .handleRead => if n = .read 0 then s.handleClose thread conn else s
  | .handleWrite => s.handleWrite conn drained

def proceed (n : ReadResult) (drained : Bool) : Frame → Server
  | .newConnection conn =>
      (s.pop thread).runInLoop thread (s.conns conn).loop (.connectEstablished conn)
  | .functor (.connectEstablished conn) => (s.pop thread).connectEstablished conn
  | .functor (.removeConnectionInLoop conn) =>
      ((s.pop thread).erase conn).push thread (.removeConnectionInLoop conn)
  | .functor (.connectDestroyed conn) => (s.pop thread).connectDestroyed conn
  | .handleEvent _ [] => s.pop thread
  | .handleEvent conn (handler :: rest) =>
      ((s.pop thread).push thread (.handleEvent conn rest)).handle thread conn handler n drained
  -- TcpServer::removeConnection
  | .handleClose conn =>
      (s.pop thread).runInLoop thread s.loop (.removeConnectionInLoop conn)
  | .removeConnectionInLoop conn =>
      (s.pop thread).queueInLoop (s.conns conn).loop (.connectDestroyed conn)

-- Channel::handleEvent. The lock fails when the connection is gone.
def handleEvent (connfd : Option ℕ) : Active → Server
  | .acceptChannel =>
      match connfd with
      | some sockfd => s.newConnection thread sockfd
      | none => s
  | .channel conn revents =>
      if (s.conns conn).channel.tied && (s.conns conn).closed then s
      else s.push thread (.handleEvent conn (handlers revents))

end Operations

section References

variable (s : Server) (conn : ConnId)

def Listed : Prop := ∃ entry ∈ s.connections.entries, entry.2 = conn

-- There is a TcpConnectionPtr to the connection.
def Held : Prop :=
  s.Listed conn ∨ ∃ thread ∈ s.threads, ∃ frame ∈ (s.eventLoops thread).work, frame.conn = conn

-- There is a plain pointer to its channel where the loop will follow it.
def Watched : Prop :=
  ∃ thread, (∃ fd, (s.pollers thread).channels fd = some conn) ∨
    ∃ revents, .channel conn revents ∈ (s.eventLoops thread).activeChannel

instance : Decidable (s.Listed conn) :=
  inferInstanceAs (Decidable (∃ entry ∈ s.connections.entries, entry.2 = conn))

instance : Decidable (s.Held conn) :=
  inferInstanceAs
    (Decidable (s.Listed conn ∨
      ∃ thread ∈ s.threads, ∃ frame ∈ (s.eventLoops thread).work, frame.conn = conn))

end References

section Steps

variable (s : Server)

-- epoll_wait reports what is registered, and the listening socket in the main loop.
def Reported (thread : ThreadId) : Active → Prop
  | .acceptChannel => thread = s.loop
  | .channel conn _ =>
      ((s.pollers thread).epoll (s.conns conn).channel.fd).map Prod.fst = some conn

-- The kernel gives out only an fd that is not in use.
def Unused (fd : ℕ) : Prop :=
  ∀ conn ∈ List.range s.made, (s.conns conn).closed = false →
    (s.conns conn).channel.fd ≠ fd

def Alive (conn : ConnId) : Prop := conn < s.made ∧ (s.conns conn).closed = false

-- The places of loop() are passed only between calls. send saw kConnected before it made
-- the functor for sendInLoop, whose plain pointer is taken to be good. The destructor runs
-- when the last TcpConnectionPtr is gone; those that handlers keep only put it off.
def Guard : Event → Prop
  | .poll thread activeChannel =>
      (s.eventLoops thread).place = .poll ∧ (s.eventLoops thread).frames = [] ∧
        ∀ active ∈ activeChannel, s.Reported thread active
  | .handleEvent thread connfd =>
      (s.eventLoops thread).activeChannel ≠ [] ∧ (s.eventLoops thread).frames = [] ∧
        ∀ fd ∈ connfd, s.Unused fd
  | .proceed thread _ _ => (s.eventLoops thread).frames ≠ []
  | .doPendingFunctors thread =>
      (s.eventLoops thread).place = .handleEvents [] ∧ (s.eventLoops thread).frames = []
  | .call thread => (s.eventLoops thread).functors ≠ [] ∧ (s.eventLoops thread).frames = []
  | .finish thread =>
      (s.eventLoops thread).place = .doPendingFunctors [] ∧ (s.eventLoops thread).frames = []
  | .sendInLoop conn _ => s.Alive conn ∧ (s.conns conn).state ≠ .kConnecting
  | .shutdown conn => s.Alive conn
  | .destruct conn => s.Alive conn ∧ ¬ s.Held conn

instance (thread : ThreadId) (active : Active) : Decidable (s.Reported thread active) :=
  match active with
  | .acceptChannel => inferInstanceAs (Decidable (thread = s.loop))
  | .channel conn _ =>
      inferInstanceAs (Decidable
        (((s.pollers thread).epoll (s.conns conn).channel.fd).map Prod.fst = some conn))

instance (fd : ℕ) : Decidable (s.Unused fd) :=
  inferInstanceAs (Decidable (∀ conn ∈ List.range s.made, (s.conns conn).closed = false →
    (s.conns conn).channel.fd ≠ fd))

instance (conn : ConnId) : Decidable (s.Alive conn) :=
  inferInstanceAs (Decidable (conn < s.made ∧ (s.conns conn).closed = false))

instance (e : Event) : Decidable (s.Guard e) :=
  match e with
  | .poll thread activeChannel =>
      inferInstanceAs (Decidable
        ((s.eventLoops thread).place = .poll ∧ (s.eventLoops thread).frames = [] ∧
          ∀ active ∈ activeChannel, s.Reported thread active))
  | .handleEvent thread connfd =>
      inferInstanceAs (Decidable
        ((s.eventLoops thread).activeChannel ≠ [] ∧ (s.eventLoops thread).frames = [] ∧
          ∀ fd ∈ connfd, s.Unused fd))
  | .proceed thread _ _ => inferInstanceAs (Decidable ((s.eventLoops thread).frames ≠ []))
  | .doPendingFunctors thread =>
      inferInstanceAs (Decidable
        ((s.eventLoops thread).place = .handleEvents [] ∧ (s.eventLoops thread).frames = []))
  | .call thread =>
      inferInstanceAs (Decidable
        ((s.eventLoops thread).functors ≠ [] ∧ (s.eventLoops thread).frames = []))
  | .finish thread =>
      inferInstanceAs (Decidable
        ((s.eventLoops thread).place = .doPendingFunctors [] ∧
          (s.eventLoops thread).frames = []))
  | .sendInLoop conn _ =>
      inferInstanceAs (Decidable (s.Alive conn ∧ (s.conns conn).state ≠ .kConnecting))
  | .shutdown conn => inferInstanceAs (Decidable (s.Alive conn))
  | .destruct conn => inferInstanceAs (Decidable (s.Alive conn ∧ ¬ s.Held conn))

def next : Event → Server
  | .poll thread activeChannel =>
      s.setLoop thread { s.eventLoops thread with place := .handleEvents activeChannel }
  | .handleEvent thread connfd =>
      match (s.eventLoops thread).activeChannel with
      | [] => s
      | active :: rest =>
          (s.setLoop thread
            { s.eventLoops thread with place := .handleEvents rest }).handleEvent thread connfd
              active
  | .proceed thread n drained =>
      match (s.eventLoops thread).frames with
      | [] => s
      | frame :: _ => s.proceed thread n drained frame
  | .doPendingFunctors thread =>
      s.setLoop thread
        { s.eventLoops thread with
          place := .doPendingFunctors (s.eventLoops thread).pendingFunctors
          pendingFunctors := [] }
  | .call thread =>
      match (s.eventLoops thread).functors with
      | [] => s
      | cb :: rest =>
          (s.setLoop thread
            { s.eventLoops thread with place := .doPendingFunctors rest }).push thread
              (.functor cb)
  | .finish thread => s.setLoop thread { s.eventLoops thread with place := .poll }
  | .sendInLoop conn remaining => s.sendInLoop conn remaining
  | .shutdown conn => s.shutdown conn
  | .destruct conn => s.modify conn ({ · with closed := true })

def Step (s : Server) (e : Event) (t : Server) : Prop := s.Guard e ∧ t = s.next e

end Steps

end Server

end MyTestserver.Lifetime
