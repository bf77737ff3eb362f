import MyTestserver.Looping

namespace MyTestserver.Looping

open Transition

variable {Functor : Type*}

namespace EventLoop

variable {loop loop' : EventLoop Functor} {e : Event Functor}

section Wakeup

theorem wakeup_eq (loop : EventLoop Functor) :
    ∃ n, loop.wakeup = { loop with wakeupFd := n } ∧ 0 < n := by
  unfold wakeup
  split
  · exact ⟨_, rfl, Nat.succ_pos _⟩
  · rename_i hmax
    refine ⟨loop.wakeupFd, rfl, ?_⟩
    unfold maxCounter at hmax
    omega

-- The counter only goes up, and it is positive after the call of another thread or one
-- made by a functor.
theorem wakeupIfNeeded_eq (loop : EventLoop Functor) (thread : ThreadId) :
    ∃ n, loop.wakeupIfNeeded thread = { loop with wakeupFd := n } ∧
      (0 < loop.wakeupFd → 0 < n) ∧
      (loop.callers thread ≠ .idle → thread ≠ loop.threadId → 0 < n) ∧
      (loop.callers thread = .queued → loop.callingPendingFunctors = true → 0 < n) := by
  obtain ⟨n, hwakeup, hn⟩ := loop.wakeup_eq
  unfold wakeupIfNeeded
  split
  · rename_i hidle
    exact ⟨loop.wakeupFd, rfl, id, fun h => absurd hidle h, fun h => by simp [hidle] at h⟩
  · split
    · exact ⟨n, hwakeup, fun _ => hn, fun _ _ => hn, fun _ _ => hn⟩
    · rename_i hneeded
      rw [not_or] at hneeded
      exact ⟨loop.wakeupFd, rfl, id, fun _ h => absurd h hneeded.1, fun _ h => absurd h hneeded.2⟩
  · rename_i hquitting
    split
    · exact ⟨n, hwakeup, fun _ => hn, fun _ _ => hn, fun _ _ => hn⟩
    · rename_i hself
      exact ⟨loop.wakeupFd, rfl, id, fun _ h => absurd h hself, fun h => by simp [hquitting] at h⟩

-- The counter is positive, or another thread has yet to write to it.
def Woken (loop : EventLoop Functor) (caller : Caller) : Prop :=
  0 < loop.wakeupFd ∨ ∃ thread, thread ≠ loop.threadId ∧ loop.callers thread = caller

theorem Woken.wakeup {caller : Caller} (h : loop.Woken caller) (hcaller : caller ≠ .idle)
    (thread : ThreadId) : (loop.next (.wakeup thread)).Woken caller := by
  obtain ⟨n, hneeded, hkeep, hother, -⟩ := loop.wakeupIfNeeded_eq thread
  simp only [Woken, next, hneeded, setCaller]
  rcases h with hpos | ⟨other, hself, hother'⟩
  · exact .inl (hkeep hpos)
  · by_cases heq : other = thread
    · subst heq
      exact .inl (hother (by rw [hother']; exact hcaller) hself)
    · exact .inr ⟨other, hself, by rw [Function.update_of_ne heq, hother']⟩

-- A thread that begins a call was in no other.
theorem Woken.call {caller new : Caller} {thread : ThreadId} (h : loop.Woken caller)
    (hcaller : caller ≠ .idle) (hidle : loop.callers thread = .idle)
    (hfd : loop'.wakeupFd = loop.wakeupFd) (hthread : loop'.threadId = loop.threadId)
    (hcallers : loop'.callers = Function.update loop.callers thread new) :
    loop'.Woken caller := by
  unfold Woken
  rw [hfd, hthread, hcallers]
  rcases h with hpos | ⟨other, hself, hother⟩
  · exact .inl hpos
  · have hne : other ≠ thread := by
      rintro rfl
      exact hcaller (hother.symm.trans hidle)
    exact .inr ⟨other, hself, (Function.update_of_ne hne _ _).trans hother⟩

end Wakeup

section Queue

-- The functors that were put into the queue, in the order of the lock.
def enqueued (es : List (Event Functor)) : List Functor :=
  es.filterMap fun
    | .queueInLoop _ cb => some cb
    | _ => none

def accepted (loop : EventLoop Functor) : List Functor :=
  loop.ran ++ loop.functors ++ loop.pendingFunctors

-- The batch is done when the next is taken.
def Emptied (loop : EventLoop Functor) : Prop :=
  loop.place ≠ .batch → loop.place ≠ .functor → loop.functors = []

theorem Emptied.step (h : loop.Emptied) (hstep : Step loop e loop') : loop'.Emptied := by
  obtain ⟨hguard, rfl⟩ := hstep
  cases e with
  | publish | start | polled | handleRead | call =>
      intro _ _
      apply h <;> simp_all [Guard]
  | test =>
      intro _ _
      have hplace : loop.place = .test := hguard
      apply h <;> simp [hplace]
  | finish => exact fun _ _ => hguard.2
  | swap | «return» => exact fun hbatch => absurd rfl hbatch
  | run => exact fun _ hfunctor => absurd rfl hfunctor
  | queueInLoop thread cb => exact h
  | quit thread => exact h
  | wakeup thread =>
      obtain ⟨n, hneeded, -⟩ := loop.wakeupIfNeeded_eq thread
      simp only [Emptied, next, hneeded, setCaller]
      exact h

theorem accepted_step (h : loop.Emptied) (hstep : Step loop e loop') :
    loop'.accepted = loop.accepted ++ enqueued [e] := by
  obtain ⟨hguard, rfl⟩ := hstep
  cases e with
  | swap =>
      have hplace : loop.place = .swap := hguard
      have hempty : loop.functors = [] := h (by simp [hplace]) (by simp [hplace])
      simp [accepted, next, enqueued, hempty]
  | run =>
      have hsplit := List.take_append_drop 1 loop.functors
      simp only [accepted, next, enqueued]
      rw [List.append_assoc loop.ran, hsplit]
      simp
  | queueInLoop thread cb => simp [accepted, next, enqueued, setCaller]
  | wakeup thread =>
      obtain ⟨n, hneeded, -⟩ := loop.wakeupIfNeeded_eq thread
      simp [accepted, next, enqueued, hneeded, setCaller]
  | publish | start | test | polled | handleRead | call | «return» | finish | quit =>
      simp [accepted, next, enqueued, setCaller]

theorem accepted_path {es : List (Event Functor)} (hrun : Path Step loop es loop')
    (h : loop.Emptied) : loop'.accepted = loop.accepted ++ enqueued es := by
  induction hrun with
  | nil => simp [enqueued]
  | cons hstep _ ih =>
      rw [ih (h.step hstep), accepted_step h hstep, List.append_assoc]
      simp only [enqueued, ← List.filterMap_append, List.singleton_append]

end Queue

section Sleep

-- While the loop may sleep before it comes to the queue, a functor in it has a wakeup: one
-- that was written, or that another thread or the running functor is about to write.
structure Attended (loop : EventLoop Functor) : Prop where
  alone : ¬ loop.place.InCallback → loop.callers loop.threadId = .idle
  calling : loop.place.InPendingFunctors → loop.callingPendingFunctors = true
  woken : ¬ loop.place.Attends → loop.pendingFunctors ≠ [] →
    loop.Woken .queued ∨ loop.callers loop.threadId = .queued

theorem Attended.queueInLoop (h : loop.Attended) {thread : ThreadId} {cb : Functor}
    (hguard : loop.Guard (.queueInLoop thread cb)) :
    (loop.next (.queueInLoop thread cb)).Attended := by
  obtain ⟨hidle, hself⟩ := hguard
  constructor
  · intro hplace
    have hne : loop.threadId ≠ thread := fun heq => hplace (hself heq.symm)
    have halone := h.alone hplace
    simpa only [next, setCaller, Function.update_of_ne hne] using halone
  · exact h.calling
  · intro _ _
    simp only [next, Woken, setCaller]
    by_cases hthread : thread = loop.threadId
    · subst hthread
      exact .inr (Function.update_self ..)
    · exact .inl (.inr ⟨thread, hthread, Function.update_self ..⟩)

theorem Attended.quit (h : loop.Attended) {thread : ThreadId}
    (hguard : loop.Guard (.quit thread)) : (loop.next (.quit thread)).Attended := by
  obtain ⟨hidle, _, hself⟩ := hguard
  have hcallers : loop.threadId ≠ thread →
      (loop.next (.quit thread)).callers loop.threadId = loop.callers loop.threadId :=
    fun hne => Function.update_of_ne hne _ _
  constructor
  · intro hplace
    rw [← h.alone hplace]
    exact hcallers fun heq => hplace (hself heq.symm)
  · exact h.calling
  · intro hattends hpending
    rcases h.woken hattends hpending with hwoken | hqueued
    · exact .inl (hwoken.call (by simp) hidle rfl rfl rfl)
    · have hne : loop.threadId ≠ thread := by
        rintro heq
        rw [heq, hidle] at hqueued
        cases hqueued
      exact .inr ((hcallers hne).trans hqueued)

theorem Attended.wakeup (h : loop.Attended) (thread : ThreadId) :
    (loop.next (.wakeup thread)).Attended := by
  obtain ⟨n, hneeded, -, -, hqueue⟩ := loop.wakeupIfNeeded_eq thread
  have hnext : loop.next (.wakeup thread) =
      { loop with wakeupFd := n, callers := Function.update loop.callers thread .idle } := by
    simp only [next, hneeded, setCaller]
  constructor
  · intro hplace
    rw [hnext] at hplace ⊢
    by_cases hthread : loop.threadId = thread
    · simp [hthread]
    · exact (Function.update_of_ne hthread _ _).trans (h.alone hplace)
  · rw [hnext]
    exact h.calling
  · intro hattends hpending
    rw [hnext] at hattends hpending
    rcases h.woken hattends hpending with hwoken | hqueued
    · exact .inl (hwoken.wakeup (by simp) thread)
    by_cases hthread : loop.threadId = thread
    · -- Only a functor is running, so the flag is set.
      have hcallback : loop.place.InCallback := by
        by_contra hplace
        rw [h.alone hplace] at hqueued
        cases hqueued
      have hfunctor : loop.place = .functor := by
        cases hplace : loop.place <;> simp_all [Place.InCallback, Place.Attends]
      refine .inl (.inl ?_)
      rw [hnext]
      exact hqueue (hthread ▸ hqueued) (h.calling (by simp [hfunctor, Place.InPendingFunctors]))
    · rw [hnext]
      exact .inr ((Function.update_of_ne hthread _ _).trans hqueued)

-- A step of the loop thread leaves the calls of all threads as they are.
theorem Attended.move (h : loop.Attended) (hthread : loop'.threadId = loop.threadId)
    (hcallers : loop'.callers = loop.callers)
    (halone : ¬ loop'.place.InCallback → loop.callers loop.threadId = .idle)
    (hcalling : loop'.place.InPendingFunctors → loop'.callingPendingFunctors = true)
    (hwoken : ¬ loop'.place.Attends → loop'.pendingFunctors ≠ [] →
      ¬ loop.place.Attends ∧ loop'.wakeupFd = loop.wakeupFd ∧
        loop'.pendingFunctors = loop.pendingFunctors) : loop'.Attended := by
  constructor
  · rw [hcallers, hthread]
    exact halone
  · exact hcalling
  · intro hattends hpending
    obtain ⟨hbefore, hfd, hsame⟩ := hwoken hattends hpending
    have hold := h.woken hbefore (hsame ▸ hpending)
    unfold Woken at hold ⊢
    rwa [hcallers, hthread, hfd]

theorem Attended.step (h : loop.Attended) (hstep : Step loop e loop') : loop'.Attended := by
  obtain ⟨hguard, rfl⟩ := hstep
  cases e with
  | publish | start =>
      have hplace : loop.place = _ := hguard
      refine h.move rfl rfl (fun _ => h.alone ?_) False.elim fun _ _ => ⟨?_, rfl, rfl⟩
      · simp [hplace, Place.InCallback]
      · simp [hplace, Place.Attends]
  | test =>
      have hplace : loop.place = .test := hguard
      refine h.move rfl rfl (fun _ => h.alone ?_) ?_ fun _ _ => ⟨?_, rfl, rfl⟩
      · simp [hplace, Place.InCallback]
      · simp only [next]
        split <;> exact False.elim
      · simp [hplace, Place.Attends]
  | polled readable =>
      exact h.move rfl rfl (fun hplace => absurd trivial hplace) False.elim
        fun hplace _ => absurd trivial hplace
  | handleRead =>
      exact h.move rfl rfl (fun hplace => absurd trivial hplace) False.elim
        fun hplace _ => absurd trivial hplace
  | call =>
      exact h.move rfl rfl (fun _ => hguard.2) (fun _ => rfl) fun hplace _ => absurd trivial hplace
  | swap =>
      have hplace : loop.place = .swap := hguard
      refine h.move rfl rfl (fun _ => h.alone ?_) (fun _ => h.calling ?_)
        fun _ hpending => absurd rfl hpending
      · simp [hplace, Place.InCallback]
      · simp [hplace, Place.InPendingFunctors]
  | run =>
      have hplace : loop.place = .batch := hguard.1
      refine h.move rfl rfl (fun hcallback => absurd trivial hcallback) (fun _ => h.calling ?_)
        fun _ _ => ⟨?_, rfl, rfl⟩
      · simp [hplace, Place.InPendingFunctors]
      · simp [hplace, Place.Attends]
  | «return» =>
      have hplace : loop.place = .functor := hguard.1
      refine h.move rfl rfl (fun _ => hguard.2) (fun _ => h.calling ?_) fun _ _ => ⟨?_, rfl, rfl⟩
      · simp [hplace, Place.InPendingFunctors]
      · simp [hplace, Place.Attends]
  | finish =>
      have hplace : loop.place = .batch := hguard.1
      refine h.move rfl rfl (fun _ => h.alone ?_) False.elim fun _ _ => ⟨?_, rfl, rfl⟩
      · simp [hplace, Place.InCallback]
      · simp [hplace, Place.Attends]
  | queueInLoop thread cb => exact h.queueInLoop hguard
  | quit thread => exact h.quit hguard
  | wakeup thread => exact h.wakeup thread

theorem attended_new (threadId : ThreadId) : (new threadId : EventLoop Functor).Attended where
  alone _ := rfl
  calling := False.elim
  woken _ hpending := absurd rfl hpending

end Sleep

-- No functor is lost, run twice or overtaken, and where the loop sleeps over a functor it
-- has a wakeup, or one that another thread has yet to write.
theorem queue_of_path {threadId : ThreadId} {es : List (Event Functor)}
    (hrun : Path Step (new threadId) es loop) :
    loop.ran ++ loop.functors ++ loop.pendingFunctors = enqueued es ∧
      (loop.place = .poll → loop.pendingFunctors ≠ [] →
        0 < loop.wakeupFd ∨
          ∃ thread, thread ≠ loop.threadId ∧ loop.callers thread = .queued) := by
  constructor
  · exact accepted_path hrun fun _ _ => rfl
  · intro hplace hpending
    have hattended := hrun.invariant Attended (fun _ _ _ h hstep => h.step hstep)
      (attended_new threadId)
    rcases hattended.woken (by simp [hplace, Place.Attends]) hpending with hwoken | hqueued
    · exact hwoken
    · rw [hattended.alone (by simp [hplace, Place.InCallback])] at hqueued
      cases hqueued

-- A functor from another thread comes during the handlers, and it puts another into the
-- queue itself; a third comes when the loop sleeps again.
def nestedQueue : List (Event ℕ) :=
  [.publish, .start, .test, .polled false, .queueInLoop 1 7, .call, .swap, .run,
    .queueInLoop 0 8, .wakeup 0, .wakeup 1, .return, .finish, .test, .queueInLoop 1 9]

theorem queue_of_nestedQueue :
    (play next (new 0) nestedQueue).ran ++ (play next (new 0) nestedQueue).functors ++
        (play next (new 0) nestedQueue).pendingFunctors = [7, 8, 9] ∧
      ((play next (new 0) nestedQueue).place = .poll →
        (play next (new 0) nestedQueue).pendingFunctors ≠ [] →
        0 < (play next (new 0) nestedQueue).wakeupFd ∨
          ∃ thread, thread ≠ (play next (new 0) nestedQueue).threadId ∧
            (play next (new 0) nestedQueue).callers thread = .queued) :=
  queue_of_path (path_of_guards (by decide : Plays Guard next (new 0) nestedQueue))

section Quit

-- The request is made when loop() has set its flag.
def QuitsInLoop (loop : EventLoop Functor) : Event Functor → Prop
  | .quit _ => loop.place ≠ .start
  | _ => True

-- Once there is a request the loop does not sleep on without a wakeup.
structure Leaves (loop : EventLoop Functor) : Prop where
  started : loop.quit = true → loop.place ≠ .publish ∧ loop.place ≠ .start
  woken : loop.quit = true → loop.place = .poll → loop.Woken .quitting

theorem quit_step (hstep : Step loop e loop') (h : loop.quit = true)
    (hstarted : loop.place ≠ .start) : loop'.quit = true := by
  obtain ⟨hguard, rfl⟩ := hstep
  cases e with
  | start => exact absurd hguard hstarted
  | quit => rfl
  | wakeup thread =>
      obtain ⟨n, hneeded, -⟩ := loop.wakeupIfNeeded_eq thread
      simpa only [next, hneeded, setCaller] using h
  | publish | test | polled | handleRead | call | swap | run | «return» | finish | queueInLoop =>
      exact h

theorem Leaves.step (h : loop.Leaves) (hgood : loop.QuitsInLoop e) (hstep : Step loop e loop') :
    loop'.Leaves := by
  obtain ⟨hguard, rfl⟩ := hstep
  cases e with
  | publish =>
      have hplace : loop.place = .publish := hguard
      exact ⟨fun hquit => absurd hplace (h.started hquit).1, by simp [next]⟩
  | start => exact ⟨by simp [next], by simp [next]⟩
  | test =>
      constructor
      · intro _
        simp only [next]
        split <;> simp
      · intro hquit hplace
        have hquit : loop.quit = true := hquit
        simp [next, hquit] at hplace
  | polled | handleRead | call | swap | run | «return» | finish =>
      exact ⟨by simp [next], by simp [next]⟩
  | queueInLoop thread cb =>
      exact ⟨h.started, fun hquit hplace =>
        (h.woken hquit hplace).call (by simp) hguard.1 rfl rfl rfl⟩
  | quit thread =>
      refine ⟨fun _ => ⟨hguard.2.1, hgood⟩, fun _ hplace => ?_⟩
      have hplace : loop.place = .poll := hplace
      have hself : thread ≠ loop.threadId := fun heq => by
        simpa [hplace, Place.InCallback] using hguard.2.2 heq
      exact .inr ⟨thread, hself, Function.update_self ..⟩
  | wakeup thread =>
      have hsame : (loop.next (.wakeup thread)).quit = loop.quit ∧
          (loop.next (.wakeup thread)).place = loop.place := by
        obtain ⟨n, hneeded, -⟩ := loop.wakeupIfNeeded_eq thread
        simp [next, hneeded, setCaller]
      constructor
      · rw [hsame.1, hsame.2]
        exact h.started
      · rw [hsame.1, hsame.2]
        exact fun hquit hplace => (h.woken hquit hplace).wakeup (by simp) thread

theorem quit_path {es : List (Event Functor)}
    (hrun : Path (restrict QuitsInLoop Step) loop es loop') (h : loop.Leaves)
    (hquit : loop.quit = true ∨ ∃ thread, .quit thread ∈ es) : loop'.quit = true := by
  induction hrun with
  | nil => exact hquit.resolve_right fun ⟨_, hmem⟩ => by cases hmem
  | @cons loop mid loop' e es hstep _ ih =>
      apply ih (h.step hstep.1 hstep.2)
      rcases hquit with hset | ⟨thread, hmem⟩
      · exact .inl (quit_step hstep.2 hset (h.started hset).2)
      rcases List.mem_cons.mp hmem with rfl | hmem
      · obtain ⟨-, -, rfl⟩ := hstep
        exact .inl rfl
      · exact .inr ⟨thread, hmem⟩

theorem leaves_new (threadId : ThreadId) : (new threadId : EventLoop Functor).Leaves where
  started := by simp [new]
  woken := by simp [new]

-- A request that comes after loop() has set its flag is never lost, and the loop does not
-- sleep without a wakeup after it.
theorem quit_of_path {threadId : ThreadId} {es : List (Event Functor)}
    (hrun : Path (restrict QuitsInLoop Step) (new threadId) es loop) :
    ((∃ thread, .quit thread ∈ es) → loop.quit = true) ∧
      (∀ e loop', Step loop e loop' → loop.quit = true → loop'.quit = true) ∧
      (loop.quit = true → loop.place = .poll →
        0 < loop.wakeupFd ∨
          ∃ thread, thread ≠ loop.threadId ∧ loop.callers thread = .quitting) := by
  have hleaves := hrun.invariant Leaves (fun _ _ _ h hstep => h.step hstep.1 hstep.2)
    (leaves_new threadId)
  refine ⟨fun hmem => quit_path hrun (leaves_new threadId) (.inr hmem), ?_, hleaves.woken⟩
  intro e loop' hstep hquit
  exact quit_step hstep hquit (hleaves.started hquit).2

-- The other thread sees the pointer and calls quit() before the loop begins.
def earlyQuit : List (Event ℕ) := [.publish, .quit 1]

-- The loop clears the flag and sleeps again when the one wakeup is used up.
def afterEarlyQuit : List (Event ℕ) :=
  [.wakeup 1, .start, .test, .polled true, .handleRead, .call, .swap, .finish, .test]

theorem quit_lost_of_earlyQuit :
    (∃ loop : EventLoop ℕ, Path Step (new 0) earlyQuit loop ∧ loop.quit = true ∧
      ∃ loop', Step loop .start loop' ∧ loop'.quit = false) ∧
      ∃ loop : EventLoop ℕ, Path Step (new 0) (earlyQuit ++ afterEarlyQuit) loop ∧
        loop.place = .poll ∧ loop.wakeupFd = 0 ∧ ∀ thread, loop.callers thread = .idle := by
  have hpath : ∀ es : List (Event ℕ), Plays Guard next (new 0) es →
      Path Step (new 0) es (play next (new 0) es) :=
    fun es hplays => path_of_guards hplays
  constructor
  · exact ⟨_, hpath earlyQuit (by decide), rfl, _, ⟨rfl, rfl⟩, rfl⟩
  · refine ⟨_, hpath (earlyQuit ++ afterEarlyQuit) (by decide), rfl, rfl, fun thread => ?_⟩
    by_cases hthread : thread = 1
    · subst hthread
      rfl
    · exact (Function.update_of_ne hthread _ _).trans (Function.update_of_ne hthread _ _)

-- Here the request comes while the loop sleeps, and before the wakeup is written.
def lateQuit : List (Event ℕ) := [.publish, .start, .test, .quit 1]

theorem quit_of_lateQuit :
    ((∃ thread, .quit thread ∈ lateQuit) → (play next (new 0) lateQuit).quit = true) ∧
      (∀ e loop', Step (play next (new 0) lateQuit) e loop' →
        (play next (new 0) lateQuit).quit = true → loop'.quit = true) ∧
      ((play next (new 0) lateQuit).quit = true → (play next (new 0) lateQuit).place = .poll →
        0 < (play next (new 0) lateQuit).wakeupFd ∨
          ∃ thread, thread ≠ (play next (new 0) lateQuit).threadId ∧
            (play next (new 0) lateQuit).callers thread = .quitting) := by
  apply quit_of_path
  refine .cons ⟨trivial, rfl, rfl⟩ (.cons ⟨trivial, rfl, rfl⟩ (.cons ⟨trivial, rfl, rfl⟩ ?_))
  exact .cons ⟨(by decide : Place.poll ≠ .start), by decide, rfl⟩ (.nil _)

end Quit

end EventLoop

end MyTestserver.Looping
