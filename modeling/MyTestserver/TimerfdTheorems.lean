import MyTestserver.TimerSetTheorems

namespace MyTestserver

open Timers Transition

namespace TimerQueue

section Ahead

variable {q q' : TimerQueue} {late : ℤ → Prop} {e : Entry} {live : Set TimerPtr}

-- The timerfd was set and not read since, for no later than the earliest timer, or 100
-- microseconds after it was set. When that moment has passed, it has expired.
def Covers (q : TimerQueue) (time : ℤ) : Prop :=
  ∃ armed ∈ q.timerfd, armed.expires ≤ max time (armed.since + 100)

theorem Covers.mono {time time' : ℤ} (h : q.Covers time) (hfd : q'.timerfd = q.timerfd)
    (hle : time ≤ time') : q'.Covers time' := by
  obtain ⟨armed, harmed, hexpires⟩ := h
  exact ⟨armed, hfd ▸ harmed, hexpires.trans (max_le_max_right _ hle)⟩

theorem covers_resetTimerfd {time clock : ℤ} (hfd : q.timerfd = resetTimerfd time clock) :
    q.Covers time := by
  rw [resetTimerfd_eq] at hfd
  exact ⟨_, hfd, le_rfl⟩

-- That the timerfd covers the earliest timer, when this is one of those that count.
def Ahead (q : TimerQueue) (late : ℤ → Prop) : Prop :=
  ∀ e, q.timers.first = some e → late e.time → q.Covers e.time

theorem time_le_of_le {e' : Entry} (h : e ≤ e') : e.time ≤ e'.time := by
  have hle : e.time < e'.time ∨ e.time = e'.time ∧ e.ptr ≤ e'.ptr := Prod.Lex.toLex_le_toLex.mp h
  rcases hle with hlt | ⟨heq, _⟩
  · exact hlt.le
  · exact heq.le

theorem first_time_le (hfirst : q.timers.first = some e) {e' : Entry} (he' : e' ∈ q.timers) :
    e.time ≤ e'.time := time_le_of_le ((q.timers.first_eq_some_iff.mp hfirst).2 e' he')

-- Where all timers are as late as some that were there before, the timerfd still covers them.
theorem Ahead.of_le (h : q.Ahead late) (hlate : ∀ time time', time ≤ time' → late time' → late time)
    (hfd : q'.timerfd = q.timerfd) (hle : ∀ e ∈ q'.timers, ∃ e' ∈ q.timers, e'.time ≤ e.time) :
    q'.Ahead late := by
  intro e hfirst htime
  obtain ⟨e', he', hle'⟩ := hle e (q'.timers.first_eq_some_iff.mp hfirst).1
  cases hbefore : q.timers.first with
  | none => exact absurd he' (q.timers.first_eq_none_iff.mp hbefore e')
  | some earliest =>
      have hearliest := (first_time_le hbefore he').trans hle'
      exact (h earliest hbefore (hlate _ _ hearliest htime)).mono hfd hearliest

theorem earliestChanged_iff (p : TimerPtr) :
    (q.insert p).1 = true ↔ ∀ e ∈ q.timers, q.expiration p < e.time := by
  unfold TimerQueue.insert
  cases hfirst : q.timers.first with
  | none =>
      have hnone := q.timers.first_eq_none_iff.mp hfirst
      exact iff_of_true rfl fun e he => absurd he (hnone e)
  | some earliest =>
      have hmem := (q.timers.first_eq_some_iff.mp hfirst).1
      simp only [decide_eq_true_eq]
      exact ⟨fun hlt e he => hlt.trans_le (first_time_le hfirst he), fun h => h earliest hmem⟩

theorem mem_addTimerInLoop_timers {p : TimerPtr} {clock : ℤ} :
    e ∈ (q.addTimerInLoop p clock).timers ↔ e = entry (q.expiration p) p ∨ e ∈ q.timers := by
  rw [addTimerInLoop_eq]
  exact q.timers.mem_insert

theorem Ahead.addTimerInLoop (h : q.Ahead late)
    (hlate : ∀ time time', time ≤ time' → late time' → late time) (p : TimerPtr) (clock : ℤ) :
    (q.addTimerInLoop p clock).Ahead late := by
  by_cases hchanged : (q.insert p).1 = true
  · have hbefore := (earliestChanged_iff p).mp hchanged
    have hfd : (q.addTimerInLoop p clock).timerfd = resetTimerfd (q.expiration p) clock := by
      rw [addTimerInLoop_eq]
      exact if_pos hchanged
    intro e hfirst _
    refine (covers_resetTimerfd hfd).mono rfl ?_
    have hmem := ((q.addTimerInLoop p clock).timers.first_eq_some_iff.mp hfirst).1
    rcases mem_addTimerInLoop_timers.mp hmem with rfl | hmem
    · exact le_rfl
    · exact (hbefore e hmem).le
  · have hfd : (q.addTimerInLoop p clock).timerfd = q.timerfd := by
      rw [addTimerInLoop_eq]
      exact if_neg hchanged
    rw [earliestChanged_iff] at hchanged
    obtain ⟨earlier, hearlier⟩ := not_forall.mp hchanged
    obtain ⟨hmem, hle⟩ := Classical.not_imp.mp hearlier
    refine h.of_le hlate hfd fun e he => ?_
    rcases mem_addTimerInLoop_timers.mp he with rfl | he
    · exact ⟨earlier, hmem, not_lt.mp hle⟩
    · exact ⟨e, he, le_rfl⟩

theorem cancelInLoop_timerfd (timerId : TimerId) :
    (q.cancelInLoop timerId).timerfd = q.timerfd := by
  unfold TimerQueue.cancelInLoop
  dsimp only
  split_ifs <;> rfl

theorem mem_of_mem_cancelInLoop {timerId : TimerId} (he : e ∈ (q.cancelInLoop timerId).timers) :
    e ∈ q.timers := by
  unfold TimerQueue.cancelInLoop at he
  dsimp only at he
  split_ifs at he
  · exact (q.timers.mem_erase.mp he).2
  · exact he
  · exact he

theorem Ahead.cancelInLoop (h : q.Ahead late)
    (hlate : ∀ time time', time ≤ time' → late time' → late time) (timerId : TimerId) :
    (q.cancelInLoop timerId).Ahead late :=
  h.of_le hlate (cancelInLoop_timerfd timerId) fun e he => ⟨e, mem_of_mem_cancelInLoop he, le_rfl⟩

-- What is left after getExpired is not earlier than now.
theorem ahead_handleReadBegin (h : q.Holds live) (hnull : nullptr ∉ live) {clock now : ℤ}
    (hnow : ∀ time, now ≤ time → ¬late time) : (q.handleReadBegin clock now).2.Ahead late := by
  have hread : ({ q with timerfd := readTimerfd q.timerfd clock } : TimerQueue).Holds live :=
    h.of_eq rfl rfl fun _ _ => rfl
  intro e hfirst htime
  have hmem := ((q.handleReadBegin clock now).2.timers.first_eq_some_iff.mp hfirst).1
  obtain ⟨⟨_, hle⟩, heq⟩ := ((hread.getExpired hnull now).1 e).mp hmem
  exact absurd htime (hnow _ (heq ▸ hle))

theorem mem_restartExpired {now : ℤ} {expired : List Entry}
    (he : e ∈ (q.restartExpired now expired).timers) : e ∈ q.timers ∨ now ≤ e.time := by
  induction expired generalizing q with
  | nil => exact .inl he
  | cons head expired ih =>
      rw [restartExpired_cons] at he
      split at he
      · rename_i hrestarts
        rcases ih he with hmem | hle
        · have hinsert : e ∈ q.timers.insert
              (entry ((q.restartOne now head.ptr).expiration head.ptr) head.ptr) := hmem
          rcases q.timers.mem_insert.mp hinsert with rfl | hmem
          · right
            have hself : (q.restartOne now head.ptr).expiration head.ptr =
                addTime now (q.timer head.ptr).interval := by
              change (Function.update q.timer head.ptr _ head.ptr).expiration = _
              rw [Function.update_self, Timer.restart_expiration _ hrestarts.1]
            have hnonneg := (q.timer head.ptr).interval.microseconds_nonneg hrestarts.1
            change now ≤ (q.restartOne now head.ptr).expiration head.ptr
            rw [hself, addTime]
            omega
          · exact .inl hmem
        · exact .inr hle
      · exact ih he

theorem restartExpired_timerfd {now : ℤ} {expired : List Entry} :
    (q.restartExpired now expired).timerfd = q.timerfd := by
  induction expired generalizing q with
  | nil => rfl
  | cons head expired ih =>
      rw [restartExpired_cons]
      split
      · exact ih
      · exact ih

-- A timer that expires at 0 or before, which the code does not set the timerfd for, can only
-- have been added in the batch.
theorem ahead_reset {expired : List Entry} {now : ℤ} (h : q.Ahead (· ≤ 0)) (hnow : 0 < now)
    (clock : ℤ) (hholds : (q.reset expired now clock).Holds live) :
    (q.reset expired now clock).Ahead fun _ => True := by
  obtain ⟨timerfd, hreset⟩ := reset_eq (q := q) expired now clock
  intro e hfirst _
  have hmem := ((q.reset expired now clock).timers.first_eq_some_iff.mp hfirst).1
  have htime : e.time = (q.restartExpired now expired).expiration e.ptr := by
    rw [((hholds.1 e).mp hmem).2, hreset]
    rfl
  have hfirst' : (q.restartExpired now expired).timers.first = some e := by
    rw [hreset] at hfirst
    exact hfirst
  by_cases hvalid : 0 < e.time
  · have hfd : (q.reset expired now clock).timerfd = resetTimerfd e.time clock := by
      have hnext : valid ((q.restartExpired now expired).expiration e.ptr) = true :=
        decide_eq_true (htime ▸ hvalid)
      rw [TimerQueue.reset, hfirst']
      dsimp only
      rw [if_pos hnext, htime]
    exact covers_resetTimerfd hfd
  · have hfd : (q.reset expired now clock).timerfd = q.timerfd := by
      have hnext : ¬valid ((q.restartExpired now expired).expiration e.ptr) = true :=
        fun hdec => hvalid (htime ▸ of_decide_eq_true hdec)
      rw [TimerQueue.reset, hfirst']
      dsimp only
      rw [if_neg hnext]
      exact restartExpired_timerfd
    have hmem' : e ∈ q.timers := by
      have hrestart : e ∈ (q.restartExpired now expired).timers := by
        rw [hreset] at hmem
        exact hmem
      exact (mem_restartExpired hrestart).resolve_right fun hle => hvalid (hnow.trans_le hle)
    cases hbefore : q.timers.first with
    | none => exact absurd hmem' (q.timers.first_eq_none_iff.mp hbefore e)
    | some earliest =>
        have hle := first_time_le hbefore hmem'
        exact (h earliest hbefore (hle.trans (not_lt.mp hvalid))).mono hfd hle

theorem ahead_handleReadEnd {expired : List Entry} {now : ℤ} (h : q.Ahead (· ≤ 0))
    (hnow : 0 < now) (clock : ℤ) (hholds : (q.handleReadEnd expired now clock).Holds live) :
    (q.handleReadEnd expired now clock).Ahead fun _ => True := by
  have hquiet : ({ q with callingExpiredTimers := false } : TimerQueue).Ahead (· ≤ 0) := h
  exact ahead_reset hquiet hnow clock hholds

end Ahead

end TimerQueue

namespace TimerLoop

section Runs

variable {s t : TimerLoop} {e : Event} {es : List Event} {n : ℕ}

-- The clock is after 1970.
def PositiveClock (_ : TimerLoop) : Event → Prop
  | .addTimer _ _ _ _ _ clock => 0 < clock
  | .functor clock => 0 < clock
  | .handleRead clock now => 0 < clock ∧ 0 < now
  | .reset clock => 0 < clock
  | _ => True

-- Within a batch, just timers that the code takes for not valid need the timerfd.
def Scheduled (s : TimerLoop) : Prop :=
  match s.batch with
  | none => s.queue.Ahead fun _ => True
  | some batch => 0 < batch.now ∧ s.queue.Ahead (· ≤ 0)

-- What can be done in a batch and outside alike.
theorem Scheduled.of_ahead (h : s.Scheduled) (hbatch : t.batch = s.batch)
    (hahead : ∀ late : ℤ → Prop, (∀ time time', time ≤ time' → late time' → late time) →
      s.queue.Ahead late → t.queue.Ahead late) : t.Scheduled := by
  unfold Scheduled at h ⊢
  rw [hbatch]
  cases hs : s.batch with
  | none =>
      simp only [hs] at h ⊢
      exact hahead _ (fun _ _ _ _ => trivial) h
  | some batch =>
      simp only [hs] at h ⊢
      exact ⟨h.1, hahead _ (fun _ _ hle hlate => hle.trans hlate) h.2⟩

theorem Scheduled.runInLoop (h : s.Scheduled) (isInLoopThread : Bool) (cb : Functor) (clock : ℤ) :
    (s.runInLoop isInLoopThread cb clock).Scheduled := by
  cases isInLoopThread with
  | false => exact h.of_ahead rfl fun _ _ hahead => hahead
  | true =>
      cases cb with
      | addTimerInLoop p =>
          exact h.of_ahead rfl fun _ hlate hahead => hahead.addTimerInLoop hlate p clock
      | cancelInLoop timerId =>
          exact h.of_ahead rfl fun _ hlate hahead => hahead.cancelInLoop hlate timerId

theorem Scheduled.step (hs : s.Consistent) (h : s.Scheduled) (hpositive : s.PositiveClock e)
    (hstep : Step s e t) : t.Scheduled := by
  have ht := hs.step hstep
  obtain ⟨hallowed, rfl⟩ := hstep
  cases e with
  | addTimer isInLoopThread p when interval others clock =>
      have hcreate : (s.create p when interval others).Scheduled :=
        h.of_ahead rfl fun _ _ hahead => hahead
      exact hcreate.runInLoop isInLoopThread _ clock
  | cancel isInLoopThread timerId => exact h.runInLoop isInLoopThread _ 0
  | functor clock =>
      obtain ⟨cb, rest, _, hnext⟩ := next_functor hallowed
      have hpop : ({ s with pendingFunctors := rest } : TimerLoop).Scheduled :=
        h.of_ahead rfl fun _ _ hahead => hahead
      rw [hnext]
      exact hpop.runInLoop true cb clock
  | handleRead clock now =>
      refine ⟨hpositive.2, TimerQueue.ahead_handleReadBegin hs.holds hs.null_not_live ?_⟩
      exact fun time hle hlate => absurd (hpositive.2.trans_le hle) (not_lt.mpr hlate)
  | run =>
      obtain ⟨now, expired, e, todo, hbatch, hnext⟩ := next_run hallowed
      simp only [Scheduled, hbatch] at h
      rw [hnext]
      exact h
  | reset clock =>
      obtain ⟨batch, hbatch, htodo, hnext⟩ := next_reset hallowed
      simp only [Scheduled, hbatch] at h
      rw [hnext] at ht ⊢
      exact TimerQueue.ahead_handleReadEnd h.2 h.1 clock ht.holds

theorem scheduled_start (n : ℕ) : (start n).Scheduled := by
  intro e hfirst
  cases hfirst

-- No timer waits without the timerfd being set for it.
theorem timerfd_ahead (hrun : Path (restrict PositiveClock Step) (start n) es s)
    (hidle : s.Idle) {earliest : Entry} (hfirst : s.queue.timers.first = some earliest) :
    s.queue.Covers earliest.time := by
  have hboth : s.Consistent ∧ s.Scheduled := by
    refine hrun.invariant (fun s => s.Consistent ∧ s.Scheduled) ?_
      ⟨consistent_start n, scheduled_start n⟩
    rintro s e t ⟨hs, h⟩ ⟨hpositive, hstep⟩
    exact ⟨hs.step hstep, h.step hs hpositive hstep⟩
  have hahead := hboth.2
  have hbatch : s.batch = none := hidle
  simp only [Scheduled, hbatch] at hahead
  exact hahead earliest hfirst trivial

instance (s : TimerLoop) : (e : Event) → Decidable (s.PositiveClock e)
  | .addTimer _ _ _ _ _ _ => inferInstanceAs (Decidable (_ < _))
  | .functor _ => inferInstanceAs (Decidable (_ < _))
  | .handleRead _ _ => inferInstanceAs (Decidable (_ ∧ _))
  | .reset _ => inferInstanceAs (Decidable (_ < _))
  | .cancel _ _ => .isTrue trivial
  | .run => .isTrue trivial

theorem timerfd_ahead_sampleEvents : (play next (start 0) sampleEvents).queue.Covers 9 := by
  have hplays : Plays (fun s e => s.PositiveClock e ∧ s.Allowed e) next (start 0) sampleEvents := by
    decide +kernel
  have hrun : Path (restrict PositiveClock Step) (start 0) sampleEvents
      (play next (start 0) sampleEvents) := path_of_plays (fun _ _ h => ⟨h.1, h.2, rfl⟩) hplays
  have hfirst : (play next (start 0) sampleEvents).queue.timers.first = some (entry 9 3) := by
    decide +kernel
  exact timerfd_ahead hrun rfl hfirst

end Runs

end TimerLoop

end MyTestserver
