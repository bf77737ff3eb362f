import Mathlib.Logic.Function.Basic
import MyTestserver.Library.Transition
import MyTestserver.TcpConnection

namespace MyTestserver.Startup

open Transition

-- Where the thread of an EventLoopThread is: in the lambda of Thread::start, which sets
-- tid_ (`tid`) and posts (`sem_post`), then in threadFunc, where it makes its loop
-- (`construct`), takes the lock, sets loop_ (`publish`), notifies, unlocks and runs the loop.
inductive Place
  | unborn
  | tid
  | sem_post
  | construct
  | lock
  | publish
  | notify
  | unlock
  | loop
  deriving DecidableEq

-- Who has mutex_ of an EventLoopThread.
inductive Holder
  | startLoop
  | threadFunc
  deriving DecidableEq

-- EventLoopThread with its Thread. A loop is known by the number of its thread; the
-- semaphore is the local one of Thread::start.
structure EventLoopThread where
  place : Place
  started : Bool
  tid : Option ThreadId
  sem : ℕ
  mutex : Option Holder
  loop : Option ThreadId
  deriving DecidableEq

-- Where the thread is that called TcpServer::start first: `round` is the test of the loop
-- in EventLoopThreadPool::start, `sem_wait` in Thread::start, and the others up to `unlock`
-- in startLoop, where `wait` is asleep in cond_.wait and `relock` awake in it. `push` is
-- back from startLoop.
inductive Caller
  | idle
  | round
  | sem_wait
  | lock
  | test
  | wait
  | relock
  | unlock (loop : ThreadId)
  | push (loop : ThreadId)
  | listen
  | listening
  deriving DecidableEq

-- TcpServer and its EventLoopThreadPool: `threads` are those of threads_, of which there
-- are `made`, and the last of them is the one that is being started.
structure TcpServer where
  numThreads : ℤ
  started : ℕ
  caller : Caller
  threads : ThreadId → EventLoopThread
  made : ℕ
  loops : List ThreadId
  listens : ℕ

-- `start` is a call of TcpServer::start, `caller` and `thread` the next step of a thread,
-- and `spurious` that cond_.wait wakes up by itself.
inductive Event
  | start
  | caller
  | thread (t : ThreadId)
  | spurious
  deriving DecidableEq

namespace EventLoopThread

def new : EventLoopThread where
  place := .unborn
  started := false
  tid := none
  sem := 0
  mutex := none
  loop := none

-- Thread::start up to sem_wait: the thread is there.
def start (thread : EventLoopThread) : EventLoopThread :=
  { thread with started := true, place := .tid }

-- Whether the thread can go on.
def Ready (thread : EventLoopThread) : Prop :=
  match thread.place with
  | .unborn | .loop => False
  | .lock => thread.mutex = none
  | _ => True

instance (thread : EventLoopThread) : Decidable thread.Ready := by
  unfold Ready
  split <;> infer_instance

def next (t : ThreadId) (thread : EventLoopThread) : EventLoopThread :=
  match thread.place with
  | .unborn | .loop => thread
  | .tid => { thread with tid := some t, place := .sem_post }
  | .sem_post => { thread with sem := thread.sem + 1, place := .construct }
  | .construct => { thread with place := .lock }
  | .lock => { thread with mutex := some .threadFunc, place := .publish }
  | .publish => { thread with loop := some t, place := .notify }
  | .notify => { thread with place := .unlock }
  | .unlock => { thread with mutex := none, place := .loop }

end EventLoopThread

-- Whether the caller can go on, with the thread that it is at.
def Caller.Ready (thread : EventLoopThread) : Caller → Prop
  | .idle | .wait | .listening => False
  | .sem_wait => 0 < thread.sem
  | .lock | .relock => thread.mutex = none
  | _ => True

instance (thread : EventLoopThread) (caller : Caller) : Decidable (caller.Ready thread) := by
  unfold Caller.Ready
  split <;> infer_instance

namespace TcpServer

def new (numThreads : ℤ) : TcpServer where
  numThreads := numThreads
  started := 0
  caller := .idle
  threads _ := .new
  made := 0
  loops := []
  listens := 0

section Operations

variable (s : TcpServer)

def current : ThreadId := s.made - 1

def setThread (t : ThreadId) (thread : EventLoopThread) : TcpServer :=
  { s with threads := Function.update s.threads t thread }

def setMutex (mutex : Option Holder) : TcpServer :=
  s.setThread s.current { s.threads s.current with mutex := mutex }

-- A round of EventLoopThreadPool::start up to the sem_wait of Thread::start.
def create : TcpServer :=
  { s.setThread s.made (s.threads s.made).start with made := s.made + 1, caller := .sem_wait }

def callerNext : TcpServer :=
  match s.caller with
  | .idle | .wait | .listening => s
  | .round => if s.made < s.numThreads then s.create else { s with caller := .listen }
  | .sem_wait =>
      let thread := s.threads s.current
      { s.setThread s.current { thread with sem := thread.sem - 1 } with caller := .lock }
  | .lock | .relock => { s.setMutex (some .startLoop) with caller := .test }
  | .test =>
      match (s.threads s.current).loop with
      | none => { s.setMutex none with caller := .wait }
      | some loop => { s with caller := .unlock loop }
  | .unlock loop => { s.setMutex none with caller := .push loop }
  | .push loop => { s with loops := s.loops ++ [loop], caller := .round }
  | .listen => { s with listens := s.listens + 1, caller := .listening }

-- notify_one wakes up the caller of startLoop, if it sleeps.
def threadNext (t : ThreadId) : TcpServer :=
  let woken := (s.threads t).place = .notify ∧ s.caller = .wait ∧ t = s.current
  { s.setThread t ((s.threads t).next t) with caller := if woken then .relock else s.caller }

def Guard : Event → Prop
  | .start => True
  | .caller => s.caller.Ready (s.threads s.current)
  | .thread t => (s.threads t).Ready
  | .spurious => s.caller = .wait

instance (e : Event) : Decidable (s.Guard e) := by
  unfold Guard
  split <;> infer_instance

-- Only the first call of start goes on: started_ counts them.
def next : Event → TcpServer
  | .start =>
      { s with
        started := s.started + 1
        caller := if s.started = 0 then .round else s.caller }
  | .caller => s.callerNext
  | .thread t => s.threadNext t
  | .spurious => { s with caller := .relock }

end Operations

def Step (s : TcpServer) (e : Event) (t : TcpServer) : Prop := s.Guard e ∧ t = s.next e

end TcpServer

end MyTestserver.Startup
