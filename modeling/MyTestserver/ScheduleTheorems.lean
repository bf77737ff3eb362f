import Mathlib.Data.List.Chain
import MyTestserver.ExpiryTheorems
import MyTestserver.TimerSetTheorems

namespace MyTestserver

open Timers Transition History

namespace Timers

variable {when now : ℤ} {interval : Interval} {times : List ℤ}

-- What the clock read at the beginning of the rounds in which a timer is called back: after
-- the time it was made for, then each more than an interval after the one before, and once
-- only where it does not repeat.
structure OnSchedule (when : ℤ) (interval : Interval) (times : List ℤ) : Prop where
  first : ∀ now ∈ times.head?, when < now
  spaced : times.IsChain fun now now' => addTime now interval < now'
  once : interval.positive = false → times.length ≤ 1

-- The time that comes next.
def due (when : ℤ) (interval : Interval) (times : List ℤ) : ℤ :=
  match times.getLast? with
  | none => when
  | some now => addTime now interval

theorem onSchedule_nil : OnSchedule when interval [] where
  first := by simp
  spaced := .nil
  once _ := Nat.zero_le 1

theorem OnSchedule.concat (h : OnSchedule when interval times)
    (hdue : due when interval times < now) (honce : interval.positive = false → times = []) :
    OnSchedule when interval (times ++ [now]) := by
  cases hlast : times.getLast? with
  | none =>
      obtain rfl := List.getLast?_eq_none_iff.mp hlast
      refine ⟨fun now' hnow' => ?_, .singleton now, fun _ => le_rfl⟩
      obtain rfl : now = now' := by simpa using hnow'
      exact hdue
  | some last =>
      have hne : times ≠ [] := by
        rintro rfl
        cases hlast
      rw [due, hlast] at hdue
      refine ⟨?_, ?_, fun hrepeats => absurd (honce hrepeats) hne⟩
      · rw [List.head?_append_of_ne_nil _ hne]
        exact h.first
      · refine List.isChain_append.mpr ⟨h.spaced, .singleton now, ?_⟩
        rintro last' hlast' now' hnow'
        obtain rfl : last = last' := Option.some.inj (hlast.symm.trans hlast')
        obtain rfl : now = now' := by simpa using hnow'
        exact hdue

end Timers

namespace TimerQueue

variable {q : TimerQueue} {now clock : ℤ} {expired : List Entry} {p : TimerPtr}

-- Of the objects, just those that come back into the sets are changed.
theorem restartExpired_timer (hnodup : (expired.map Entry.ptr).Nodup) :
    (Restarts q expired p →
        (q.restartExpired now expired).timer p = (q.timer p).restart now) ∧
      (¬Restarts q expired p → (q.restartExpired now expired).timer p = q.timer p) := by
  induction expired generalizing q with
  | nil => exact ⟨fun h => absurd h.1 List.not_mem_nil, fun _ => rfl⟩
  | cons e expired ih =>
      rw [List.map_cons, List.nodup_cons] at hnodup
      obtain ⟨hfresh, hnodup⟩ := hnodup
      rw [restartExpired_cons]
      split
      · rename_i hrestarts
        have hkept := kept_restartOne q now e.ptr
        obtain ⟨hin, hout⟩ := ih (q := q.restartOne now e.ptr) hnodup
        rw [hkept.restarts_iff] at hin hout
        rcases eq_or_ne p e.ptr with rfl | hne
        · have hself : (q.restartOne now e.ptr).timer e.ptr = (q.timer e.ptr).restart now :=
            Function.update_self _ _ _
          refine ⟨fun _ => ?_,
            fun hnot => absurd (restarts_cons_iff.mpr (.inl ⟨rfl, hrestarts⟩)) hnot⟩
          rw [hout fun h => hfresh h.1, hself]
        · have hother : (q.restartOne now e.ptr).timer p = q.timer p :=
            Function.update_of_ne hne _ _
          rw [hother] at hin hout
          rw [restarts_cons_iff, or_iff_right fun h => hne h.1]
          exact ⟨hin, hout⟩
      · rename_i hrestarts
        rw [restarts_cons_iff, or_iff_right fun h => hrestarts h.2]
        exact ih hnodup

theorem handleReadEnd_timer (hnodup : (expired.map Entry.ptr).Nodup) :
    (Restarts q expired p →
        (q.handleReadEnd expired now clock).timer p = (q.timer p).restart now) ∧
      (¬Restarts q expired p →
        (q.handleReadEnd expired now clock).timer p = q.timer p) := by
  obtain ⟨timerfd, hreset⟩ := reset_eq (q := { q with callingExpiredTimers := false }) expired now
    clock
  rw [TimerQueue.handleReadEnd, hreset]
  exact restartExpired_timer (q := { q with callingExpiredTimers := false }) hnodup

end TimerQueue

namespace TimerLoop

variable {s t : TimerLoop} {e : Event} {es : List Event} {p : TimerPtr} {n : ℕ}

-- The callback that an event starts, with the time that handleRead goes by.
def starts (s : TimerLoop) : Event → List (TimerPtr × ℤ)
  | .run =>
      match s.batch with
      | some ⟨now, _, e :: _⟩ => [(e.ptr, now)]
      | _ => []
  | _ => []

theorem starts_of_ne (he : e ≠ .run) : s.starts e = [] := by
  unfold starts
  split
  · exact absurd rfl he
  · rfl

-- The times among them at which it was the one of a certain timer.
def timesOf (p : TimerPtr) (calls : List (TimerPtr × ℤ)) : List ℤ :=
  (calls.filter fun call => call.1 = p).map Prod.snd

section Schedule

variable {when : ℤ} {interval : Interval} {times : List ℤ}

-- Between two rounds the timer is set for the time that comes next, unless it is not to be
-- called again. In a round it waits for its call or has had it.
structure Punctual (p : TimerPtr) (when : ℤ) (interval : Interval) (s : TimerLoop)
    (times : List ℤ) : Prop where
  created : p ∈ s.created
  sameInterval : (s.queue.timer p).interval = interval
  onSchedule : OnSchedule when interval times
  started : times ≠ [] → .started p ∈ s.log
  waiting : p ∉ s.batchPtrs →
    s.queue.expiration p = due when interval times ∨ .added p ∈ s.log ∧ ¬s.Live p
  todo : ∀ batch ∈ s.batch, p ∈ s.todoPtrs → due when interval times < batch.now
  called : ∀ batch ∈ s.batch, p ∈ s.batchPtrs → p ∉ s.todoPtrs → times.getLast? = some batch.now

theorem Punctual.create (h : s.Punctual p when interval times) (hs : s.Known)
    {p' : TimerPtr} (hp' : p' ∉ s.created) (when' : ℤ) (interval' : Interval) (others : ℕ) :
    (s.create p' when' interval' others).Punctual p when interval times := by
  have htimer : (s.create p' when' interval' others).queue.timer p = s.queue.timer p :=
    create_timer_of_mem hp' h.created
  refine ⟨Finset.mem_insert_of_mem h.created, ?_, h.onSchedule, h.started, fun hbatch => ?_,
    h.todo, h.called⟩
  · rw [htimer]
    exact h.sameInterval
  · rw [TimerQueue.expiration, htimer, hs.live_create_iff hp']
    exact h.waiting hbatch

theorem Punctual.withPending (h : s.Punctual p when interval times)
    (rest : List Functor) :
    ({ s with pendingFunctors := rest } : TimerLoop).Punctual p when interval times :=
  ⟨h.created, h.sameInterval, h.onSchedule, h.started, h.waiting, h.todo, h.called⟩

theorem Punctual.add (h : s.Punctual p when interval times) (hs : s.Known) {p' : TimerPtr}
    (hp' : .added p' ∉ s.log) (clock : ℤ) :
    (s.addTimerInLoop p' clock).Punctual p when interval times := by
  have htimer : (s.addTimerInLoop p' clock).queue.timer p = s.queue.timer p := by
    rw [addTimerInLoop, TimerQueue.addTimerInLoop_timer]
  refine ⟨h.created, ?_, h.onSchedule, fun htimes => List.mem_cons_of_mem _ (h.started htimes),
    fun hbatch => ?_, h.todo, h.called⟩
  · rw [htimer]
    exact h.sameInterval
  · rw [TimerQueue.expiration, htimer, hs.live_add_iff hp']
    refine (h.waiting hbatch).imp_right ?_
    rintro ⟨hadded, hdead⟩
    refine ⟨List.mem_cons_of_mem _ hadded, not_or.mpr ⟨?_, hdead⟩⟩
    rintro rfl
    exact hp' hadded

theorem Punctual.cancel (h : s.Punctual p when interval times) (timerId : TimerId) :
    (s.cancelInLoop timerId).Punctual p when interval times := by
  have htimer : (s.cancelInLoop timerId).queue.timer p = s.queue.timer p := by
    rw [cancelInLoop, TimerQueue.cancelInLoop_timer]
  refine ⟨h.created, ?_, h.onSchedule, fun htimes => List.mem_cons_of_mem _ (h.started htimes),
    fun hbatch => ?_, h.todo, h.called⟩
  · rw [htimer]
    exact h.sameInterval
  · rw [TimerQueue.expiration, htimer, live_cancel_iff]
    refine (h.waiting hbatch).imp_right ?_
    rintro ⟨hadded, hdead⟩
    exact ⟨List.mem_cons_of_mem _ hadded, fun hlive => hdead hlive.1⟩

theorem Punctual.runInLoop (h : s.Punctual p when interval times) (hs : s.Known) {cb : Functor}
    (hcb : s.MayQueue cb) (isInLoopThread : Bool) (clock : ℤ) :
    (s.runInLoop isInLoopThread cb clock).Punctual p when interval times := by
  cases isInLoopThread with
  | false => exact h.withPending _
  | true =>
      cases cb with
      | addTimerInLoop p' => exact h.add hs hcb.2.1 clock
      | cancelInLoop timerId => exact h.cancel timerId

-- What is taken out is live, so it was set for the time that comes next, and that is over.
theorem Punctual.handleRead (h : s.Punctual p when interval times) (hs : s.Consistent)
    (hidle : s.Idle) (clock now : ℤ) :
    (s.next (.handleRead clock now)).Punctual p when interval times := by
  have hwaiting := h.waiting (by simp [batchPtrs_of_idle hidle])
  refine ⟨h.created, h.sameInterval, h.onSchedule, h.started, fun _ => hwaiting, ?_,
    fun _ _ hp htodo => absurd hp htodo⟩
  rintro batch hbatch hp
  obtain ⟨⟨hlive, _⟩, hlt⟩ := (hs.mem_batchPtrs_handleRead clock now p).mp hp
  have hexpiration := hwaiting.resolve_right fun hdead => hdead.2 hlive
  obtain rfl := Option.some.inj hbatch
  exact hexpiration ▸ hlt

theorem timesOf_concat (calls : List (TimerPtr × ℤ)) (p' : TimerPtr) (now : ℤ) :
    timesOf p (calls ++ [(p', now)]) =
      if p' = p then timesOf p calls ++ [now] else timesOf p calls := by
  unfold timesOf
  rw [List.filter_append, List.map_append, List.filter_singleton]
  by_cases heq : p' = p
  · simp [heq]
  · simp [heq]

-- The call of a timer is its next one, and of one that does not repeat its first.
theorem Punctual.run {calls : List (TimerPtr × ℤ)} {now : ℤ} {expired todo : List Entry}
    {e : Entry} (h : s.Punctual p when interval (timesOf p calls)) (hs : s.Consistent)
    (hbatch : s.batch = some ⟨now, expired, e :: todo⟩) :
    ({ s with batch := some ⟨now, expired, todo⟩, log := .started e.ptr :: s.log } :
      TimerLoop).Punctual p when interval (timesOf p (calls ++ [(e.ptr, now)])) := by
  have hptrs : s.batchPtrs = expired.map Entry.ptr := by rw [batchPtrs, hbatch]
  have htodos : s.todoPtrs = e.ptr :: todo.map Entry.ptr := by
    rw [todoPtrs, hbatch]
    rfl
  have hhead : e.ptr ∈ s.todoPtrs := by simp [htodos]
  rw [timesOf_concat]
  rcases eq_or_ne e.ptr p with rfl | hne
  · rw [if_pos rfl]
    have hdue : due when interval (timesOf e.ptr calls) < now := h.todo _ hbatch hhead
    have honce : interval.positive = false → timesOf e.ptr calls = [] := by
      rw [← h.sameInterval]
      intro hrepeats
      by_contra htimes
      exact hs.batched.fresh _ hhead hrepeats (h.started htimes)
    have hnodup : (e.ptr :: todo.map Entry.ptr).Nodup :=
      htodos ▸ hs.batched.nodup.sublist hs.batched.todo.sublist
    refine ⟨h.created, h.sameInterval, h.onSchedule.concat hdue honce,
      fun _ => List.mem_cons_self, fun hnot => ?_, ?_, ?_⟩
    · have hmem : e.ptr ∈ expired.map Entry.ptr := hptrs ▸ hs.batched.todo.subset hhead
      exact absurd hmem hnot
    · intro _ _ hp
      exact absurd hp (List.nodup_cons.mp hnodup).1
    · rintro batch hbatch' _ _
      obtain rfl := Option.some.inj hbatch'
      exact List.getLast?_concat
  · rw [if_neg hne]
    refine ⟨h.created, h.sameInterval, h.onSchedule,
      fun htimes => List.mem_cons_of_mem _ (h.started htimes), fun hnot => ?_, ?_, ?_⟩
    · refine (h.waiting (hptrs ▸ hnot)).imp_right ?_
      rintro ⟨hadded, hdead⟩
      refine ⟨List.mem_cons_of_mem _ hadded, fun hlive => hdead ?_⟩
      simpa [Live, hne.symm] using hlive
    · rintro batch hbatch' hp
      obtain rfl := Option.some.inj hbatch'
      exact h.todo ⟨now, expired, e :: todo⟩ hbatch (htodos ▸ List.mem_cons_of_mem _ hp)
    · rintro batch hbatch' hp htodo
      obtain rfl := Option.some.inj hbatch'
      refine h.called ⟨now, expired, e :: todo⟩ hbatch (hptrs ▸ hp) ?_
      rw [htodos, List.mem_cons, not_or]
      exact ⟨hne.symm, htodo⟩

-- At the end of a round the timer was called in it, or its object is left alone.
theorem Punctual.reset {batch : Batch} (h : s.Punctual p when interval times)
    (hs : s.Consistent) (hbatch : s.batch = some batch) (htodo : batch.todo = []) (clock : ℤ) :
    ({ s with
      queue := s.queue.handleReadEnd batch.expired batch.now clock
      batch := none } : TimerLoop).Punctual p when interval times := by
  have hptrs : s.batchPtrs = batch.expired.map Entry.ptr := by rw [batchPtrs, hbatch]
  have htodos : p ∉ s.todoPtrs := by
    rw [todoPtrs, hbatch]
    simp [htodo]
  have hobject : (s.queue.Restarts batch.expired p →
        (s.queue.handleReadEnd batch.expired batch.now clock).timer p =
          (s.queue.timer p).restart batch.now) ∧
      (¬s.queue.Restarts batch.expired p →
        (s.queue.handleReadEnd batch.expired batch.now clock).timer p = s.queue.timer p) :=
    TimerQueue.handleReadEnd_timer (hptrs ▸ hs.batched.nodup)
  obtain ⟨hin, hout⟩ := hobject
  by_cases hrestarts : s.queue.Restarts batch.expired p
  · have htimer := hin hrestarts
    have hlast := h.called batch hbatch (hptrs ▸ hrestarts.1) htodos
    refine ⟨h.created, ?_, h.onSchedule, h.started, fun _ => .inl ?_, ?_, ?_⟩
    · change ((s.queue.handleReadEnd _ _ _).timer p).interval = interval
      rw [htimer, Timer.restart, if_pos hrestarts.2.1]
      exact h.sameInterval
    · change ((s.queue.handleReadEnd _ _ _).timer p).expiration = _
      rw [htimer, Timer.restart_expiration _ hrestarts.2.1, h.sameInterval, due, hlast]
    · rintro _ ⟨⟩
    · rintro _ ⟨⟩
  · have htimer := hout hrestarts
    refine ⟨h.created, ?_, h.onSchedule, h.started, fun _ => ?_, ?_, ?_⟩
    · change ((s.queue.handleReadEnd _ _ _).timer p).interval = interval
      rw [htimer]
      exact h.sameInterval
    · change ((s.queue.handleReadEnd _ _ _).timer p).expiration = _ ∨ _ ∧
        ¬(_ ∧ _ ∧ (((s.queue.handleReadEnd _ _ _).timer p).repeats = false → _))
      rw [htimer]
      by_cases hp : p ∈ s.batchPtrs
      · refine .inr ⟨hs.batched.added p hp, ?_⟩
        rintro ⟨_, hafter, hstarted⟩
        apply hrestarts
        have hcalled := hs.batched.started p hp htodos
        refine ⟨hptrs ▸ hp, ?_, fun hcancelled => hafter ?_⟩
        · by_contra hrepeats
          exact hstarted (Bool.eq_false_iff.mpr hrepeats) hcalled
        · exact (hs.batched.cancelled p hp).mpr hcancelled
      · exact h.waiting hp
    · rintro _ ⟨⟩
    · rintro _ ⟨⟩

theorem Punctual.step {calls : List (TimerPtr × ℤ)}
    (h : s.Punctual p when interval (timesOf p calls)) (hs : s.Consistent)
    (hstep : Step s e t) : t.Punctual p when interval (timesOf p (calls ++ s.starts e)) := by
  obtain ⟨hallowed, rfl⟩ := hstep
  cases e with
  | addTimer isInLoopThread p' when' interval' others clock =>
      obtain ⟨hnull, hnew, _⟩ := hallowed
      have hmay : (s.create p' when' interval' others).MayQueue (.addTimerInLoop p') :=
        ⟨Finset.mem_insert_self _ _, fun hadded => hnew (hs.known.added_created p' hadded),
          fun hpending => hnew (hs.known.pending_add p' hpending).1⟩
      rw [starts_of_ne Event.noConfusion, List.append_nil]
      exact (h.create hs.known hnew when' interval' others).runInLoop
        (hs.known.create hnew hnull) hmay isInLoopThread clock
  | cancel isInLoopThread timerId =>
      have hmay : s.MayQueue (.cancelInLoop timerId) := hallowed.1
      rw [starts_of_ne Event.noConfusion, List.append_nil]
      exact h.runInLoop hs.known hmay isInLoopThread 0
  | functor clock =>
      obtain ⟨cb, rest, hpending, hnext⟩ := next_functor hallowed
      obtain ⟨hknown, hcb⟩ := hs.known.pop hpending
      rw [hnext, starts_of_ne Event.noConfusion, List.append_nil]
      exact (h.withPending rest).runInLoop hknown hcb true clock
  | handleRead clock now =>
      rw [starts_of_ne Event.noConfusion, List.append_nil]
      exact h.handleRead hs hallowed clock now
  | run =>
      obtain ⟨now, expired, e, todo, hbatch, hnext⟩ := next_run hallowed
      have hstarts : s.starts .run = [(e.ptr, now)] := by simp only [starts, hbatch]
      rw [hnext, hstarts]
      exact h.run hs hbatch
  | reset clock =>
      obtain ⟨batch, hbatch, htodo, hnext⟩ := next_reset hallowed
      rw [hnext, starts_of_ne Event.noConfusion, List.append_nil]
      exact h.reset hs hbatch htodo clock

end Schedule

section Results

variable {isInLoopThread : Bool} {when : ℤ} {interval : Interval} {others : ℕ} {clock : ℤ}

theorem punctual_addTimer (hs : s.Consistent)
    (hadd : Step s (.addTimer isInLoopThread p when interval others clock) t) :
    t.Punctual p when interval (timesOf p []) := by
  obtain ⟨⟨hnull, hnew, _⟩, rfl⟩ := hadd
  have hadded : .added p ∉ s.log := fun hadded => hnew (hs.known.added_created p hadded)
  have hcreated : (s.create p when interval others).Consistent := hs.create hnew hnull
  have hbatch : p ∉ (s.create p when interval others).batchPtrs :=
    fun hp => hadded (hs.batched.added p hp)
  have hpunctual : (s.create p when interval others).Punctual p when interval (timesOf p []) := by
    refine ⟨Finset.mem_insert_self _ _, ?_, onSchedule_nil, fun h => absurd rfl h, fun _ => ?_,
      fun _ _ hp => ?_, fun _ _ hp => absurd hp hbatch⟩
    · change (Function.update s.queue.timer p _ p).interval = interval
      rw [Function.update_self]
    · left
      change (Function.update s.queue.timer p _ p).expiration = when
      rw [Function.update_self]
    · exact absurd (hcreated.batched.todo.subset hp) hbatch
  refine hpunctual.runInLoop hcreated.known ?_ isInLoopThread clock
  exact ⟨Finset.mem_insert_self _ _, hadded,
    fun hpending => hnew (hs.known.pending_add p hpending).1⟩

-- A timer is called back on schedule by the times that handleRead reads, whatever these are
-- and whatever else is added and cancelled; and while it is live, it is set for the time that
-- comes next.
theorem timer_on_schedule {before after : List Event} {u : TimerLoop}
    (hbefore : Path Step (start n) before s)
    (hadd : Step s (.addTimer isInLoopThread p when interval others clock) t)
    (hafter : Path Step t after u) :
    OnSchedule when interval (timesOf p (gather next starts t after)) ∧
      (u.Idle → u.Live p →
        u.queue.expiration p = due when interval (timesOf p (gather next starts t after))) := by
  have hs := consistent_of_path hbefore
  have hboth := hafter.gather_invariant (fun _ _ _ h => h.2)
    (fun s calls => s.Consistent ∧ s.Punctual p when interval (timesOf p calls))
    (fun _ _ _ _ h hstep => ⟨h.1.step hstep, h.2.step h.1 hstep⟩)
    ⟨hs.step hadd, punctual_addTimer hs hadd⟩
  rw [List.nil_append] at hboth
  refine ⟨hboth.2.onSchedule, fun hidle hlive => ?_⟩
  have hwaiting := hboth.2.waiting (by simp [batchPtrs_of_idle hidle])
  exact hwaiting.resolve_right fun hdead => hdead.2 hlive

-- A timer for every 10 is called at 7, and at 30 for the time 17.
theorem timer_on_schedule_every :
    OnSchedule 5 (.every 10) [7, 30] ∧ due 5 (.every 10) [7, 30] = 40 := by
  have hadd : Step (start 0) (.addTimer true 1 5 (.every 10) 0 1)
      ((start 0).next (.addTimer true 1 5 (.every 10) 0 1)) := ⟨by decide, rfl⟩
  have hplays : Plays Allowed next ((start 0).next (.addTimer true 1 5 (.every 10) 0 1))
      [.handleRead 6 7, .run, .reset 8, .handleRead 30 30, .run, .reset 31] := by decide +kernel
  have hafter : Path Step _ _ _ := path_of_guards hplays
  exact ⟨(timer_on_schedule (.nil _) hadd hafter).1, by decide⟩

-- The events up to the end of a round.
def BeforeReset (_ : TimerLoop) : Event → Prop
  | .reset _ => False
  | _ => True

instance (s : TimerLoop) (e : Event) : Decidable (s.BeforeReset e) := by
  unfold BeforeReset
  split <;> infer_instance

-- The entries of a batch that come before those still to do have been called.
def Calling (now : ℤ) (expired : List Entry) (s : TimerLoop) (calls : List (TimerPtr × ℤ)) : Prop :=
  ∃ todo, s.batch = some ⟨now, expired, todo⟩ ∧
    calls ++ todo.map (fun e => (e.ptr, now)) = expired.map fun e => (e.ptr, now)

theorem runInLoop_batch (cb : Functor) :
    (s.runInLoop isInLoopThread cb clock).batch = s.batch := by
  unfold runInLoop
  split
  · split <;> rfl
  · rfl

theorem Calling.step {now : ℤ} {expired : List Entry} {calls : List (TimerPtr × ℤ)}
    (h : s.Calling now expired calls) (hstep : restrict BeforeReset Step s e t) :
    t.Calling now expired (calls ++ s.starts e) := by
  obtain ⟨hround, hallowed, rfl⟩ := hstep
  obtain ⟨todo, hbatch, hcalls⟩ := h
  cases e with
  | addTimer =>
      rw [starts_of_ne Event.noConfusion, List.append_nil]
      exact ⟨todo, (runInLoop_batch _).trans hbatch, hcalls⟩
  | cancel =>
      rw [starts_of_ne Event.noConfusion, List.append_nil]
      refine ⟨todo, ?_, hcalls⟩
      rw [next, runInLoop_batch]
      exact hbatch
  | functor =>
      have hidle : s.batch = none := hallowed.1
      cases hidle.symm.trans hbatch
  | handleRead =>
      have hidle : s.batch = none := hallowed
      cases hidle.symm.trans hbatch
  | run =>
      obtain ⟨now', expired', e, todo', hbatch', hnext⟩ := next_run hallowed
      cases hbatch'.symm.trans hbatch
      have hstarts : s.starts .run = [(e.ptr, now)] := by simp only [starts, hbatch']
      rw [hnext, hstarts]
      refine ⟨todo', rfl, ?_⟩
      rw [List.append_assoc]
      exact hcalls
  | reset => exact absurd hround id

-- A round of handleRead calls back exactly the timers that are live at its beginning and set
-- for a time before the one it reads, each once, in the order of these times, whatever the
-- callbacks add and cancel.
theorem round_calls_due {before : List Event} {s₁ s₂ : TimerLoop} {now clock' : ℤ}
    (hbefore : Path Step (start n) before s) (hread : Step s (.handleRead clock now) s₁)
    (hround : Path (restrict BeforeReset Step) s₁ es s₂) (hreset : Step s₂ (.reset clock') t) :
    ∃ called : List TimerPtr, gather next starts s₁ es = called.map (fun p => (p, now)) ∧
      called.Nodup ∧ (∀ p, p ∈ called ↔ s.Live p ∧ s.queue.expiration p < now) ∧
      called.Pairwise fun p p' => s.queue.expiration p ≤ s.queue.expiration p' := by
  have hs := consistent_of_path hbefore
  obtain ⟨hidle, rfl⟩ := hread
  have hholds := hs.holds_readTimerfd clock
  generalize hq : ({ s.queue with timerfd := readTimerfd s.queue.timerfd clock } : TimerQueue) = q
    at hholds
  have hcalling : (s.next (.handleRead clock now)).Calling now (q.getExpired now).1 [] := by
    rw [← hq]
    exact ⟨_, rfl, rfl⟩
  obtain ⟨todo, hbatch, hcalls⟩ := hround.gather_invariant (fun _ _ _ h => h.2.2)
    (Calling now (q.getExpired now).1) (fun _ _ _ _ h hstep => h.step hstep) hcalling
  obtain ⟨batch, hbatch', htodo, _⟩ := next_reset hreset.1
  cases hbatch'.symm.trans hbatch
  obtain rfl : todo = [] := htodo
  rw [List.map_nil, List.append_nil, List.nil_append] at hcalls
  have hexpiration : q.expiration = s.queue.expiration := by
    rw [← hq]
    rfl
  refine ⟨(q.getExpired now).1.map Entry.ptr, ?_, hholds.expired_nodup hs.null_not_live,
    fun p => ?_, ?_⟩
  · rw [hcalls, List.map_map]
    rfl
  · rw [hholds.mem_expired_ptrs hs.null_not_live, hexpiration, batchPtrs_of_idle hidle]
    simp
  · rw [List.pairwise_map]
    refine (q.getExpired_ordered now).imp_of_mem fun {e e'} he he' hle => ?_
    have htime := ((hholds.mem_expired hs.null_not_live).mp he).2.1
    have htime' := ((hholds.mem_expired hs.null_not_live).mp he').2.1
    rwa [htime, htime', hexpiration] at hle

-- Two timers are due, the second is cancelled in the callback of the first.

def sampleDue : TimerLoop :=
  play next (start 0) [.addTimer true 1 5 .once 0 1, .addTimer true 2 5 (.every 10) 0 1]

def sampleRound : List Event := [.run, .cancel true ⟨2, 1⟩, .run]

theorem round_calls_due_sampleRound :
    ∃ called : List TimerPtr, called.Nodup ∧ (∀ p, p ∈ called ↔
      sampleDue.Live p ∧ sampleDue.queue.expiration p < 7) ∧
        called.map (fun p => (p, (7 : ℤ))) = [(1, 7), (2, 7)] := by
  have hadds : Plays Allowed next (start 0)
      [.addTimer true 1 5 .once 0 1, .addTimer true 2 5 (.every 10) 0 1] := by decide +kernel
  have hbefore : Path Step (start 0)
      [.addTimer true 1 5 .once 0 1, .addTimer true 2 5 (.every 10) 0 1] sampleDue :=
    path_of_guards hadds
  have hread : Step sampleDue (.handleRead 6 7) (sampleDue.next (.handleRead 6 7)) := ⟨rfl, rfl⟩
  have hplays : Plays (fun s e => s.BeforeReset e ∧ s.Allowed e) next
      (sampleDue.next (.handleRead 6 7)) sampleRound := by decide +kernel
  have hround : Path (restrict BeforeReset Step) _ _ _ :=
    path_of_plays (fun _ _ h => ⟨h.1, h.2, rfl⟩) hplays
  have hreset : Step (play next (sampleDue.next (.handleRead 6 7)) sampleRound) (.reset 8)
      (next (play next (sampleDue.next (.handleRead 6 7)) sampleRound) (.reset 8)) :=
    ⟨by decide +kernel, rfl⟩
  obtain ⟨called, hcalls, hnodup, hmem, _⟩ := round_calls_due hbefore hread hround hreset
  have hgather : gather next starts (sampleDue.next (.handleRead 6 7)) sampleRound =
      [(1, 7), (2, 7)] := by decide +kernel
  exact ⟨called, hnodup, hmem, hcalls.symm.trans hgather⟩

end Results

end TimerLoop

end MyTestserver
