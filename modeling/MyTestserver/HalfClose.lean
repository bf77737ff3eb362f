import MyTestserver.OutputTheorems

namespace MyTestserver.HalfClose

-- How far a call of send or shutdown is: past the test of state_ (with the string to be
-- sent), or past setState as well.
inductive Request
  | send (data : Bytes)
  | shutdown
  | shutdownInLoop
  deriving DecidableEq

structure Call where
  thread : ThreadId
  request : Request
  deriving DecidableEq

inductive Functor
  | sendInLoop (data : Bytes)
  | shutdownInLoop
  deriving DecidableEq

-- One connection with the functors for it, first in first out, and the calls that threads
-- are in. The rest is there for the properties: the strings of sends that saw kConnected,
-- those that sendInLoop took over, and how many writes came after shutdownWrite.
structure Connection where
  conn : TcpConnection
  functors : List Functor
  calls : List Call
  accepted : List Bytes
  taken : List Bytes
  lateWrites : ℕ

inductive Event
  | send (thread : ThreadId) (data : Bytes)
  | shutdown (thread : ThreadId)
  | proceed (thread : ThreadId) (result : WriteResult)
  | run (result : WriteResult)
  | writable (n : ℕ)

def Functor.data : Functor → Option Bytes
  | .sendInLoop data => some data
  | .shutdownInLoop => none

def Call.data (call : Call) : Option Bytes :=
  match call.request with
  | .send data => some data
  | .shutdown | .shutdownInLoop => none

namespace Connection

section Operations

variable (c : Connection)

def established (loop : ThreadId) : Connection where
  conn := { TcpConnection.new loop with state := .kConnected }
  functors := []
  calls := []
  accepted := []
  taken := []
  lateWrites := 0

def attempt (write : Bool) : Connection :=
  if write && c.conn.finSent then { c with lateWrites := c.lateWrites + 1 } else c

-- sendInLoop writes at once where nothing is waiting.
def sendInLoop (data : Bytes) (result : WriteResult) : Connection :=
  let direct :=
    c.conn.state ≠ .kDisconnected ∧ c.conn.isWriting = false ∧
      c.conn.outputBuffer.readableBytes = 0
  let c := c.attempt direct
  match c.conn.sendInLoop result data with
  | some conn => { c with conn := conn, taken := c.taken ++ [data] }
  | none => c

def shutdownInLoop : Connection := { c with conn := c.conn.shutdownInLoop }

def handleWrite (n : ℕ) : Connection :=
  let c := c.attempt c.conn.isWriting
  { c with conn := c.conn.handleWrite n }

def queueInLoop (cb : Functor) : Connection := { c with functors := c.functors ++ [cb] }

def callOf (thread : ThreadId) : Option Call := c.calls.find? fun call => call.thread = thread

-- EventLoop::runInLoop is what the last statement of both calls comes to.
def proceed (thread : ThreadId) (result : WriteResult) (call : Call) : Connection :=
  let c := { c with calls := c.calls.erase call }
  match call.request with
  | .send data =>
      if thread = c.conn.loop then c.sendInLoop data result else c.queueInLoop (.sendInLoop data)
  | .shutdown =>
      { c with
        conn := { c.conn with state := .kDisconnecting }
        calls := ⟨thread, .shutdownInLoop⟩ :: c.calls }
  | .shutdownInLoop =>
      if thread = c.conn.loop then c.shutdownInLoop else c.queueInLoop .shutdownInLoop

def Idle (thread : ThreadId) : Prop := ∀ call ∈ c.calls, call.thread ≠ thread

-- No write fails for good before the socket is shut down.
def Allowed (result : WriteResult) (data : Option Bytes) : Prop :=
  c.conn.finSent = false → ∀ bytes ∈ data, result.Usable bytes.length

def Guard (c : Connection) : Event → Prop
  | .send thread _ | .shutdown thread => c.Idle thread
  | .proceed thread result =>
      match c.callOf thread with
      | some call => c.Allowed result call.data
      | none => False
  | .run result =>
      c.Idle c.conn.loop ∧
        match c.functors with
        | cb :: _ => c.Allowed result cb.data
        | [] => False
  | .writable n => c.Idle c.conn.loop ∧ n ≤ c.conn.outputBuffer.readableBytes

instance (thread : ThreadId) : Decidable (c.Idle thread) :=
  inferInstanceAs (Decidable (∀ call ∈ c.calls, call.thread ≠ thread))

instance (result : WriteResult) (data : Option Bytes) : Decidable (c.Allowed result data) :=
  inferInstanceAs
    (Decidable (c.conn.finSent = false → ∀ bytes ∈ data, result.Usable bytes.length))

instance (c : Connection) (e : Event) : Decidable (c.Guard e) :=
  match e with
  | .send thread _ | .shutdown thread => inferInstanceAs (Decidable (c.Idle thread))
  | .proceed thread result =>
      match h : c.callOf thread with
      | some call =>
          decidable_of_iff (c.Allowed result call.data) (by simp only [Guard, h])
      | none => .isFalse (by simp only [Guard, h]; exact id)
  | .run result =>
      match h : c.functors with
      | cb :: _ =>
          decidable_of_iff (c.Idle c.conn.loop ∧ c.Allowed result cb.data)
            (by simp only [Guard, h])
      | [] => .isFalse (by simp only [Guard, h]; exact And.right)
  | .writable n =>
      inferInstanceAs
        (Decidable (c.Idle c.conn.loop ∧ n ≤ c.conn.outputBuffer.readableBytes))

def next (c : Connection) : Event → Connection
  | .send thread data =>
      if c.conn.state = .kConnected then
        { c with calls := c.calls ++ [⟨thread, .send data⟩], accepted := c.accepted ++ [data] }
      else c
  | .shutdown thread =>
      if c.conn.state = .kConnected then
        { c with calls := c.calls ++ [⟨thread, .shutdown⟩] }
      else c
  | .proceed thread result =>
      match c.callOf thread with
      | some call => c.proceed thread result call
      | none => c
  | .run result =>
      match c.functors with
      | .sendInLoop data :: functors => { c with functors := functors }.sendInLoop data result
      | .shutdownInLoop :: functors => { c with functors := functors }.shutdownInLoop
      | [] => c
  | .writable n => c.handleWrite n

def Step (c : Connection) (e : Event) (c' : Connection) : Prop := c.Guard e ∧ c' = c.next e

end Operations

end Connection

end MyTestserver.HalfClose
