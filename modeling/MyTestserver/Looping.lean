import Mathlib.Logic.Function.Basic
import MyTestserver.Library.Transition
import MyTestserver.TcpConnection

namespace MyTestserver.Looping

open Transition

-- Where the thread of a loop is: in EventLoopThread::threadFunc, at the places of loop(),
-- or in doPendingFunctors, which has `swap`, `batch` and `functor`. `poll` is in
-- epoll_wait; `handle` is with the active channels, and says whether that of wakeupFd_ is
-- among those to come.
inductive Place
  | publish
  | start
  | test
  | poll
  | handle (readable : Bool)
  | swap
  | batch
  | functor
  | stopped
  deriving DecidableEq

-- Callbacks run in the handlers and in the functors.
def Place.InCallback : Place → Prop
  | .handle _ | .functor => True
  | _ => False

-- From here the loop comes to its queue before it sleeps.
def Place.Attends : Place → Prop
  | .handle _ | .swap => True
  | _ => False

def Place.InPendingFunctors : Place → Prop
  | .swap | .batch | .functor => True
  | _ => False

-- What a thread is in the middle of: past the lock of queueInLoop, or past the first line
-- of quit().
inductive Caller
  | idle
  | queued
  | quitting
  deriving DecidableEq

-- `functors` is the local list of doPendingFunctors. `ran` has all functors whose turn
-- has come; it is there for the properties.
structure EventLoop (Functor : Type*) where
  threadId : ThreadId
  place : Place
  quit : Bool
  callingPendingFunctors : Bool
  pendingFunctors : List Functor
  functors : List Functor
  wakeupFd : ℕ
  callers : ThreadId → Caller
  ran : List Functor

inductive Event (Functor : Type*)
  | publish
  | start
  | test
  | polled (readable : Bool)
  | handleRead
  | call
  | swap
  | run
  | return
  | finish
  | queueInLoop (thread : ThreadId) (cb : Functor)
  | quit (thread : ThreadId)
  | wakeup (thread : ThreadId)

variable {Functor : Type*}

namespace EventLoop

section Operations

variable (loop : EventLoop Functor)

def new (threadId : ThreadId) : EventLoop Functor where
  threadId := threadId
  place := .publish
  quit := false
  callingPendingFunctors := false
  pendingFunctors := []
  functors := []
  wakeupFd := 0
  callers _ := .idle
  ran := []

-- The largest value of an eventfd. Writing one more fails with EAGAIN.
def maxCounter : ℕ := 0xfffffffffffffffe

def wakeup : EventLoop Functor :=
  if loop.wakeupFd < maxCounter then { loop with wakeupFd := loop.wakeupFd + 1 } else loop

def setCaller (thread : ThreadId) (caller : Caller) : EventLoop Functor :=
  { loop with callers := Function.update loop.callers thread caller }

-- What queueInLoop and quit() do after their first part. The flag is read only by the
-- thread that writes it.
def wakeupIfNeeded (thread : ThreadId) : EventLoop Functor :=
  match loop.callers thread with
  | .idle => loop
  | .queued =>
      if thread ≠ loop.threadId ∨ loop.callingPendingFunctors = true then loop.wakeup else loop
  | .quitting => if thread ≠ loop.threadId then loop.wakeup else loop

end Operations

-- The loop thread goes on when it is not in the middle of a call. It makes calls only in
-- callbacks. Others can call quit() when startLoop has returned to them.
def Guard (loop : EventLoop Functor) : Event Functor → Prop
  | .publish => loop.place = .publish
  | .start => loop.place = .start
  | .test => loop.place = .test
  | .polled readable => loop.place = .poll ∧ (readable = true → 0 < loop.wakeupFd)
  | .handleRead => loop.place = .handle true ∧ loop.callers loop.threadId = .idle
  | .call => loop.place = .handle false ∧ loop.callers loop.threadId = .idle
  | .swap => loop.place = .swap
  | .run => loop.place = .batch ∧ loop.functors ≠ []
  | .return => loop.place = .functor ∧ loop.callers loop.threadId = .idle
  | .finish => loop.place = .batch ∧ loop.functors = []
  | .queueInLoop thread _ =>
      loop.callers thread = .idle ∧ (thread = loop.threadId → loop.place.InCallback)
  | .quit thread =>
      loop.callers thread = .idle ∧ loop.place ≠ .publish ∧
        (thread = loop.threadId → loop.place.InCallback)
  | .wakeup thread => loop.callers thread ≠ .idle

instance (place : Place) : Decidable place.InCallback :=
  match place with
  | .handle _ | .functor => .isTrue trivial
  | .publish | .start | .test | .poll | .swap | .batch | .stopped => .isFalse id

instance (loop : EventLoop Functor) (e : Event Functor) : Decidable (loop.Guard e) :=
  match e with
  | .publish => inferInstanceAs (Decidable (loop.place = .publish))
  | .start => inferInstanceAs (Decidable (loop.place = .start))
  | .test => inferInstanceAs (Decidable (loop.place = .test))
  | .polled readable =>
      inferInstanceAs (Decidable (loop.place = .poll ∧ (readable = true → 0 < loop.wakeupFd)))
  | .handleRead =>
      inferInstanceAs
        (Decidable (loop.place = .handle true ∧ loop.callers loop.threadId = .idle))
  | .call =>
      inferInstanceAs
        (Decidable (loop.place = .handle false ∧ loop.callers loop.threadId = .idle))
  | .swap => inferInstanceAs (Decidable (loop.place = .swap))
  | .run => decidable_of_iff (loop.place = .batch ∧ ¬ loop.functors.isEmpty = true)
      (and_congr_right fun _ => not_congr List.isEmpty_iff)
  | .return =>
      inferInstanceAs (Decidable (loop.place = .functor ∧ loop.callers loop.threadId = .idle))
  | .finish => decidable_of_iff (loop.place = .batch ∧ loop.functors.isEmpty = true)
      (and_congr_right fun _ => List.isEmpty_iff)
  | .queueInLoop thread _ =>
      inferInstanceAs
        (Decidable (loop.callers thread = .idle ∧
          (thread = loop.threadId → loop.place.InCallback)))
  | .quit thread =>
      inferInstanceAs
        (Decidable (loop.callers thread = .idle ∧ loop.place ≠ .publish ∧
          (thread = loop.threadId → loop.place.InCallback)))
  | .wakeup thread => inferInstanceAs (Decidable (loop.callers thread ≠ .idle))

def next (loop : EventLoop Functor) : Event Functor → EventLoop Functor
  | .publish => { loop with place := .start }
  | .start => { loop with quit := false, place := .test }
  | .test => { loop with place := if loop.quit = true then .stopped else .poll }
  | .polled readable => { loop with place := .handle readable }
  | .handleRead => { loop with wakeupFd := 0, place := .handle false }
  | .call => { loop with callingPendingFunctors := true, place := .swap }
  | .swap =>
      { loop with functors := loop.pendingFunctors, pendingFunctors := [], place := .batch }
  | .run =>
      { loop with
        functors := loop.functors.drop 1
        ran := loop.ran ++ loop.functors.take 1
        place := .functor }
  | .return => { loop with place := .batch }
  | .finish => { loop with callingPendingFunctors := false, place := .test }
  | .queueInLoop thread cb =>
      { loop with pendingFunctors := loop.pendingFunctors ++ [cb] }.setCaller thread .queued
  | .quit thread => { loop with quit := true }.setCaller thread .quitting
  | .wakeup thread => (loop.wakeupIfNeeded thread).setCaller thread .idle

def Step (loop : EventLoop Functor) (e : Event Functor) (loop' : EventLoop Functor) : Prop :=
  loop.Guard e ∧ loop' = loop.next e

end EventLoop

end MyTestserver.Looping
