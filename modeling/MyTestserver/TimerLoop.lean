import MyTestserver.Library.History
import MyTestserver.Library.Transition
import MyTestserver.TimerQueue

namespace MyTestserver

open Timers Transition History

namespace TimerLoop

-- What other threads have queued for the loop.
inductive Functor
  | addTimerInLoop (timerPtr : TimerPtr)
  | cancelInLoop (timerId : TimerId)
  deriving DecidableEq

-- handleRead on its way through the timers that have expired.
structure Batch where
  now : ℤ
  expired : List Entry
  todo : List Entry

-- What has been done to timers, and that their callbacks were started.
inductive Happening
  | added (timerPtr : TimerPtr)
  | cancelled (timerPtr : TimerPtr)
  | started (timerPtr : TimerPtr)
  deriving DecidableEq

-- What can happen next. A time that goes with an event is what the clock reads in it; `others`
-- are the timers that other loops have created meanwhile.
inductive Event
  | addTimer (isInLoopThread : Bool) (timerPtr : TimerPtr) (when : ℤ) (interval : Interval)
      (others : ℕ) (clock : ℤ)
  | cancel (isInLoopThread : Bool) (timerId : TimerId)
  | functor (clock : ℤ)
  | handleRead (clock now : ℤ)
  | run
  | reset (clock : ℤ)

end TimerLoop

-- A TimerQueue with its loop. The log has what happened last in front.
structure TimerLoop where
  queue : TimerQueue
  created : Finset TimerPtr
  numCreated : ℕ
  pendingFunctors : List TimerLoop.Functor
  batch : Option TimerLoop.Batch
  log : List TimerLoop.Happening

namespace TimerLoop

def start (numCreated : ℕ) : TimerLoop where
  queue :=
    { timerfd := none
      callingExpiredTimers := false
      timers := OrderedSet.empty
      activeTimers := ∅
      cancelingTimers := ∅
      timer := fun _ => ⟨0, .once, 0⟩ }
  created := ∅
  numCreated := numCreated
  pendingFunctors := []
  batch := none
  log := []

section Operations

variable (s : TimerLoop)

def addTimerInLoop (timerPtr : TimerPtr) (clock : ℤ) : TimerLoop :=
  { s with
    queue := s.queue.addTimerInLoop timerPtr clock
    log := .added timerPtr :: s.log }

def cancelInLoop (timerId : TimerId) : TimerLoop :=
  { s with
    queue := s.queue.cancelInLoop timerId
    log := .cancelled timerId.timerPtr :: s.log }

-- new Timer
def create (timerPtr : TimerPtr) (when : ℤ) (interval : Interval) (others : ℕ) : TimerLoop :=
  { s with
    queue :=
      { s.queue with
        timer := Function.update s.queue.timer timerPtr
          ⟨when, interval, s.numCreated + others⟩ }
    created := insert timerPtr s.created
    numCreated := s.numCreated + others + 1 }

-- EventLoop::runInLoop
def runInLoop (isInLoopThread : Bool) (cb : Functor) (clock : ℤ) : TimerLoop :=
  if isInLoopThread then
    match cb with
    | .addTimerInLoop timerPtr => s.addTimerInLoop timerPtr clock
    | .cancelInLoop timerId => s.cancelInLoop timerId
  else { s with pendingFunctors := s.pendingFunctors ++ [cb] }

def next : Event → TimerLoop
  | .addTimer isInLoopThread timerPtr when interval others clock =>
      (s.create timerPtr when interval others).runInLoop isInLoopThread (.addTimerInLoop timerPtr)
        clock
  | .cancel isInLoopThread timerId => s.runInLoop isInLoopThread (.cancelInLoop timerId) 0
  | .functor clock =>
      match s.pendingFunctors with
      | [] => s
      | cb :: rest => ({ s with pendingFunctors := rest } : TimerLoop).runInLoop true cb clock
  | .handleRead clock now =>
      let (expired, queue) := s.queue.handleReadBegin clock now
      { s with queue, batch := some ⟨now, expired, expired⟩ }
  | .run =>
      match s.batch with
      | some ⟨now, expired, e :: todo⟩ =>
          { s with batch := some ⟨now, expired, todo⟩, log := .started e.ptr :: s.log }
      | _ => s
  | .reset clock =>
      match s.batch with
      | some batch =>
          { s with queue := s.queue.handleReadEnd batch.expired batch.now clock, batch := none }
      | none => s

end Operations

-- No handler of the timerfd is running.
def Idle (s : TimerLoop) : Prop := s.batch = none

-- Other code has the loop thread: between the handlers, or in the callback of a timer.
def UserCode (s : TimerLoop) : Prop :=
  ∀ batch ∈ s.batch, batch.todo.length < batch.expired.length

-- A TimerId comes from addTimer, or is the empty one.
def Issued (s : TimerLoop) (timerId : TimerId) : Prop :=
  timerId = ⟨nullptr, 0⟩ ∨
    timerId.timerPtr ∈ s.created ∧ timerId.sequence = (s.queue.timer timerId.timerPtr).sequence

def Allowed (s : TimerLoop) : Event → Prop
  | .addTimer isInLoopThread timerPtr _ _ _ _ =>
      timerPtr ≠ nullptr ∧ timerPtr ∉ s.created ∧ (isInLoopThread = true → s.UserCode)
  | .cancel isInLoopThread timerId => s.Issued timerId ∧ (isInLoopThread = true → s.UserCode)
  | .functor _ => s.Idle ∧ s.pendingFunctors ≠ []
  | .handleRead _ _ => s.Idle
  | .run => ∃ batch ∈ s.batch, batch.todo ≠ []
  | .reset _ => ∃ batch ∈ s.batch, batch.todo = []

instance (s : TimerLoop) : (e : Event) → Decidable (s.Allowed e)
  | .addTimer _ _ _ _ _ _ => by
      unfold Allowed UserCode
      infer_instance
  | .cancel _ _ => by
      unfold Allowed Issued UserCode
      infer_instance
  | .functor _ => by
      unfold Allowed Idle
      infer_instance
  | .handleRead _ _ => by
      unfold Allowed Idle
      infer_instance
  | .run => by
      unfold Allowed
      infer_instance
  | .reset _ => by
      unfold Allowed
      infer_instance

def Step (s : TimerLoop) (e : Event) (t : TimerLoop) : Prop := s.Allowed e ∧ t = s.next e

section Next

-- What the events that go by the state of the loop find there, and what they make of it.

variable {s : TimerLoop} {clock : ℤ}

theorem next_functor (h : s.Allowed (.functor clock)) :
    ∃ cb rest, s.pendingFunctors = cb :: rest ∧ s.next (.functor clock) =
      ({ s with pendingFunctors := rest } : TimerLoop).runInLoop true cb clock := by
  cases hpending : s.pendingFunctors with
  | nil => exact absurd hpending h.2
  | cons cb rest =>
      refine ⟨cb, rest, rfl, ?_⟩
      simp only [next, hpending]

theorem next_run (h : s.Allowed .run) :
    ∃ now expired e todo, s.batch = some ⟨now, expired, e :: todo⟩ ∧ s.next .run =
      { s with batch := some ⟨now, expired, todo⟩, log := .started e.ptr :: s.log } := by
  obtain ⟨⟨now, expired, todo⟩, hmem, htodo⟩ := h
  have hbatch := Option.mem_def.mp hmem
  cases todo with
  | nil => exact absurd rfl htodo
  | cons e todo =>
      refine ⟨now, expired, e, todo, hbatch, ?_⟩
      simp only [next, hbatch]

theorem next_reset (h : s.Allowed (.reset clock)) :
    ∃ batch, s.batch = some batch ∧ batch.todo = [] ∧ s.next (.reset clock) =
      { s with queue := s.queue.handleReadEnd batch.expired batch.now clock, batch := none } := by
  obtain ⟨batch, hmem, htodo⟩ := h
  have hbatch := Option.mem_def.mp hmem
  refine ⟨batch, hbatch, htodo, ?_⟩
  simp only [next, hbatch]

end Next

end TimerLoop

end MyTestserver
