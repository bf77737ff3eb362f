import MyTestserver.TimerQueue

namespace MyTestserver

open Timers

namespace TimerQueue

section Split

variable {q : TimerQueue} {now : ℤ}

-- Both sets hold the same timers. Where there is no object, there is no timer.
def Agree (q : TimerQueue) : Prop := ∃ live, nullptr ∉ live ∧ q.Holds live

-- What is due at `now` comes out in order and leaves both sets, all else stays in both.
structure SplitsAt (q : TimerQueue) (now : ℤ) : Prop where
  expired : ∀ e, e ∈ (q.getExpired now).1 ↔ e ∈ q.timers ∧ e.time ≤ now
  once : (q.getExpired now).1.Nodup
  ordered : (q.getExpired now).1.Pairwise fun e e' => e.time ≤ e'.time
  timers : ∀ e, e ∈ (q.getExpired now).2.timers ↔ e ∈ q.timers ∧ now < e.time
  activeTimers : ∀ a, a ∈ (q.getExpired now).2.activeTimers ↔
    a ∈ q.activeTimers ∧ now < q.expiration a.1

theorem getExpired_once (q : TimerQueue) (now : ℤ) : (q.getExpired now).1.Nodup :=
  q.timers.upTo_sorted.imp fun hlt => hlt.ne

theorem getExpired_ordered (q : TimerQueue) (now : ℤ) :
    (q.getExpired now).1.Pairwise fun e e' => e.time ≤ e'.time := by
  have hsorted : (q.getExpired now).1.Pairwise (· < ·) := q.timers.upTo_sorted
  refine hsorted.imp fun {e e'} hlt => ?_
  rcases Prod.Lex.toLex_lt_toLex.mp hlt with htime | ⟨htime, _⟩
  · exact htime.le
  · exact htime.le

-- The cut as it is made: what is due at `now` itself stays.

theorem Agree.mem_expired (h : q.Agree) {e : Entry} :
    e ∈ (q.getExpired now).1 ↔ e ∈ q.timers ∧ e.time < now := by
  obtain ⟨live, hnull, hholds⟩ := h
  rw [hholds.mem_expired hnull, hholds.1 e, and_assoc]

theorem Agree.mem_timers (h : q.Agree) {e : Entry} :
    e ∈ (q.getExpired now).2.timers ↔ e ∈ q.timers ∧ now ≤ e.time := by
  obtain ⟨live, hnull, hholds⟩ := h
  have hafter : e ∈ (q.getExpired now).2.timers ↔
      (e.ptr ∈ live ∧ now ≤ q.expiration e.ptr) ∧ e.time = q.expiration e.ptr :=
    (hholds.getExpired hnull now).1 e
  rw [hafter, hholds.1 e]
  constructor
  · rintro ⟨⟨hlive, hle⟩, htime⟩
    exact ⟨⟨hlive, htime⟩, htime ▸ hle⟩
  · rintro ⟨⟨hlive, htime⟩, hle⟩
    exact ⟨⟨hlive, htime ▸ hle⟩, htime⟩

theorem Agree.mem_activeTimers (h : q.Agree) {a : TimerPtr × ℕ} :
    a ∈ (q.getExpired now).2.activeTimers ↔ a ∈ q.activeTimers ∧ now ≤ q.expiration a.1 := by
  obtain ⟨live, hnull, hholds⟩ := h
  have hafter : a ∈ (q.getExpired now).2.activeTimers ↔
      (a.1 ∈ live ∧ now ≤ q.expiration a.1) ∧ a.2 = (q.timer a.1).sequence :=
    (hholds.getExpired hnull now).2 a
  rw [hafter, hholds.2 a]
  exact and_right_comm

-- A timer in activeTimers_ has an entry in timers_ with its time.
theorem Agree.exists_entry (h : q.Agree) {a : TimerPtr × ℕ} (ha : a ∈ q.activeTimers) :
    entry (q.expiration a.1) a.1 ∈ q.timers := by
  obtain ⟨live, _, hholds⟩ := h
  exact (hholds.1 _).mpr ⟨((hholds.2 a).mp ha).1, rfl⟩

-- The two sets are split at `now` exactly when no timer is due at `now` to the microsecond:
-- the null pointer of the sentry comes before all others.
theorem getExpired_splits_iff (h : q.Agree) (now : ℤ) :
    q.SplitsAt now ↔ ∀ e ∈ q.timers, e.time ≠ now := by
  constructor
  · intro hsplits e he htime
    have hexpired : e ∈ (q.getExpired now).1 := (hsplits.expired e).mpr ⟨he, htime.le⟩
    exact (h.mem_expired.mp hexpired).2.ne htime
  · intro hne
    refine ⟨fun e => ?_, q.getExpired_once now, q.getExpired_ordered now, fun e => ?_, fun a => ?_⟩
    · rw [h.mem_expired]
      refine and_congr_right fun he => ?_
      exact ⟨le_of_lt, fun hle => lt_of_le_of_ne hle (hne e he)⟩
    · rw [h.mem_timers]
      refine and_congr_right fun he => ?_
      exact ⟨fun hle => lt_of_le_of_ne hle (hne e he).symm, le_of_lt⟩
    · rw [h.mem_activeTimers]
      refine and_congr_right fun ha => ?_
      have htime := hne _ (h.exists_entry ha)
      exact ⟨fun hle => lt_of_le_of_ne hle (Ne.symm htime), le_of_lt⟩

end Split

section Sample

-- A timer for 5, in the queue at 1.
def sampleQueue : TimerQueue :=
  ({ timerfd := none
     callingExpiredTimers := false
     timers := OrderedSet.empty
     activeTimers := ∅
     cancelingTimers := ∅
     timer := fun _ => ⟨5, .once, 0⟩ } : TimerQueue).addTimerInLoop 1 1

theorem agree_sampleQueue : sampleQueue.Agree := by
  refine ⟨{1}, by decide, ?_⟩
  rw [← insert_empty_eq]
  refine Holds.addTimerInLoop ⟨fun e => ?_, fun a => ?_⟩ 1 1
  · exact iff_of_false (OrderedSet.not_mem_empty) fun hlive => hlive.1
  · exact iff_of_false (Finset.notMem_empty a) fun hlive => hlive.1

theorem getExpired_splits_sampleQueue :
    sampleQueue.SplitsAt 6 ∧ (sampleQueue.getExpired 6).1 = [entry 5 1] :=
  ⟨(getExpired_splits_iff agree_sampleQueue 6).mpr (by decide), by decide⟩

-- Read at 5, the timer for 5 is not among the expired.
theorem getExpired_misses_due : ¬∀ (q : TimerQueue) (now : ℤ), q.Agree → q.SplitsAt now := by
  intro h
  have hsplits := h sampleQueue 5 agree_sampleQueue
  have hexpired : entry 5 1 ∈ (sampleQueue.getExpired 5).1 :=
    (hsplits.expired _).mpr ⟨by decide, by decide⟩
  exact absurd hexpired (by decide)

end Sample

end TimerQueue

end MyTestserver
