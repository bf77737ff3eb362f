import Mathlib.Data.Finset.Basic
import Mathlib.Data.Prod.Lex
import MyTestserver.Library.OrderedSet

namespace MyTestserver

namespace Timers

-- A Timestamp is its msSince1900_, in microseconds.

def valid (t : ℤ) : Bool := 0 < t

-- What the code takes from a double: whether it is above 0.0, and its microseconds.
structure Interval where
  positive : Bool
  microseconds : ℤ
  microseconds_nonneg : positive = true → 0 ≤ microseconds

def Interval.once : Interval := ⟨false, 0, Bool.noConfusion⟩

def Interval.every (microseconds : ℕ) : Interval :=
  ⟨true, microseconds, fun _ => Int.natCast_nonneg microseconds⟩

def addTime (t : ℤ) (seconds : Interval) : ℤ := t + seconds.microseconds

structure Timer where
  expiration : ℤ
  interval : Interval
  sequence : ℕ

namespace Timer

variable (t : Timer)

def repeats : Bool := t.interval.positive

def restart (now : ℤ) : Timer :=
  if t.repeats then { t with expiration := addTime now t.interval } else { t with expiration := 0 }

@[simp] theorem restart_repeats (now : ℤ) : (t.restart now).repeats = t.repeats := by
  unfold restart
  split <;> rfl

@[simp] theorem restart_sequence (now : ℤ) : (t.restart now).sequence = t.sequence := by
  unfold restart
  split <;> rfl

theorem restart_expiration {now : ℤ} (h : t.repeats = true) :
    (t.restart now).expiration = addTime now t.interval := by
  rw [restart, if_pos h]

end Timer

-- A shared_ptr to a Timer. As long as one points there, no other object is put there.
abbrev TimerPtr := ℕ

def nullptr : TimerPtr := 0

structure TimerId where
  timerPtr : TimerPtr
  sequence : ℕ
  deriving DecidableEq

-- std::pair, compared by its first part first.
abbrev Entry := ℤ ×ₗ TimerPtr

def entry (expiration : ℤ) (timerPtr : TimerPtr) : Entry := toLex (expiration, timerPtr)

def Entry.time (e : Entry) : ℤ := (ofLex e).1

def Entry.ptr (e : Entry) : TimerPtr := (ofLex e).2

section Timerfd

structure Timespec where
  tv_sec : ℤ
  tv_nsec : ℤ

def Timespec.microseconds (ts : Timespec) : ℤ := ts.tv_sec * (1000 * 1000) + ts.tv_nsec / 1000

-- `clock` is what Timestamp::now() reads there.
def howMuchTimeFromNow (when clock : ℤ) : Timespec :=
  let microseconds := if when - clock < 100 then 100 else when - clock
  ⟨microseconds / (1000 * 1000), microseconds % (1000 * 1000) * 1000⟩

-- A timerfd that was set at one moment and expires at another. Once read it is disarmed.
structure Armed where
  since : ℤ
  expires : ℤ
  deriving DecidableEq

def resetTimerfd (expiration clock : ℤ) : Option Armed :=
  some ⟨clock, clock + (howMuchTimeFromNow expiration clock).microseconds⟩

-- Before it has expired, reading fails and leaves it armed.
def readTimerfd (timerfd : Option Armed) (clock : ℤ) : Option Armed :=
  timerfd.filter fun armed => decide (clock < armed.expires)

-- The time goes in as it was meant: in full, with a nanosecond part that is one.
theorem howMuchTimeFromNow_spec (when clock : ℤ) :
    (howMuchTimeFromNow when clock).microseconds = max (when - clock) 100 ∧
      0 ≤ (howMuchTimeFromNow when clock).tv_nsec ∧
      (howMuchTimeFromNow when clock).tv_nsec < 1000 * 1000 * 1000 := by
  have hsplit : ∀ microseconds : ℤ,
      microseconds / (1000 * 1000) * (1000 * 1000) + microseconds % (1000 * 1000) * 1000 / 1000 =
        microseconds := by
    intro microseconds
    rw [Int.mul_ediv_cancel _ (by decide), Int.mul_comm, Int.mul_ediv_add_emod]
  unfold howMuchTimeFromNow Timespec.microseconds
  dsimp only
  rw [hsplit]
  split <;> omega

theorem resetTimerfd_eq (expiration clock : ℤ) :
    resetTimerfd expiration clock = some ⟨clock, max expiration (clock + 100)⟩ := by
  unfold resetTimerfd
  rw [(howMuchTimeFromNow_spec expiration clock).1]
  congr 2
  omega

end Timerfd

end Timers

open Timers

-- The class, with the Timer objects behind the pointers and the state of the timerfd.
structure TimerQueue where
  timerfd : Option Armed
  callingExpiredTimers : Bool
  timers : OrderedSet Entry
  activeTimers : Finset (TimerPtr × ℕ)
  cancelingTimers : Finset (TimerPtr × ℕ)
  timer : TimerPtr → Timer

namespace TimerQueue

section Operations

variable (q : TimerQueue)

def expiration (timerPtr : TimerPtr) : ℤ := (q.timer timerPtr).expiration

def activeTimer (timerPtr : TimerPtr) : TimerPtr × ℕ := (timerPtr, (q.timer timerPtr).sequence)

def insert (timerPtr : TimerPtr) : Bool × TimerQueue :=
  let earliestChanged :=
    match q.timers.first with
    | none => true
    | some e => decide (q.expiration timerPtr < e.time)
  (earliestChanged,
    { q with
      timers := q.timers.insert (entry (q.expiration timerPtr) timerPtr)
      activeTimers := Insert.insert (q.activeTimer timerPtr) q.activeTimers })

def addTimerInLoop (timerPtr : TimerPtr) (clock : ℤ) : TimerQueue :=
  let (earliestChanged, q') := q.insert timerPtr
  if earliestChanged then
    { q' with timerfd := resetTimerfd (q'.expiration timerPtr) clock }
  else q'

def cancelInLoop (timerId : TimerId) : TimerQueue :=
  let timer := (timerId.timerPtr, timerId.sequence)
  if timer ∈ q.activeTimers then
    { q with
      timers := q.timers.erase (entry (q.expiration timerId.timerPtr) timerId.timerPtr)
      activeTimers := q.activeTimers.erase timer }
  else if q.callingExpiredTimers then
    { q with cancelingTimers := Insert.insert timer q.cancelingTimers }
  else q

def getExpired (now : ℤ) : List Entry × TimerQueue :=
  let sentry := entry now nullptr
  let expired := q.timers.upTo sentry
  (expired,
    { q with
      timers := q.timers.above sentry
      activeTimers := expired.foldl (fun active e => active.erase (q.activeTimer e.ptr))
        q.activeTimers })

-- The timers of the batch that repeat and were not cancelled meanwhile.
def restartExpired (now : ℤ) : TimerQueue → List Entry → TimerQueue
  | q, [] => q
  | q, e :: expired =>
      if (q.timer e.ptr).repeats && decide (q.activeTimer e.ptr ∉ q.cancelingTimers) then
        let restarted := Function.update q.timer e.ptr ((q.timer e.ptr).restart now)
        restartExpired now (({ q with timer := restarted }).insert e.ptr).2 expired
      else restartExpired now q expired

def reset (expired : List Entry) (now clock : ℤ) : TimerQueue :=
  let q' := q.restartExpired now expired
  let nextExpire :=
    match q'.timers.first with
    | none => 0
    | some e => q'.expiration e.ptr
  if valid nextExpire then { q' with timerfd := resetTimerfd nextExpire clock } else q'

-- handleRead up to the callbacks, and from there on.
def handleReadBegin (clock now : ℤ) : List Entry × TimerQueue :=
  let (expired, q') := ({ q with timerfd := readTimerfd q.timerfd clock }).getExpired now
  (expired, { q' with callingExpiredTimers := true, cancelingTimers := ∅ })

def handleReadEnd (expired : List Entry) (now clock : ℤ) : TimerQueue :=
  ({ q with callingExpiredTimers := false }).reset expired now clock

end Operations

section Keyed

variable {q : TimerQueue} {live : Set TimerPtr} {p : TimerPtr} {e : Entry}

theorem eq_entry_iff {t : ℤ} : e = entry t p ↔ e.ptr = p ∧ e.time = t := by
  constructor
  · rintro rfl
    exact ⟨rfl, rfl⟩
  · rintro ⟨rfl, rfl⟩
    rfl

-- Both sets hold these timers, in the one each by its expiration() of now.
def Holds (q : TimerQueue) (live : Set TimerPtr) : Prop :=
  (∀ e : Entry, e ∈ q.timers ↔ e.ptr ∈ live ∧ e.time = q.expiration e.ptr) ∧
    ∀ a, a ∈ q.activeTimers ↔ a.1 ∈ live ∧ a.2 = (q.timer a.1).sequence

theorem Holds.activeTimer_mem_iff (h : q.Holds live) :
    q.activeTimer p ∈ q.activeTimers ↔ p ∈ live :=
  (h.2 _).trans (and_iff_left rfl)

theorem Holds.congr {live' : Set TimerPtr} (h : q.Holds live) (hlive : ∀ p, p ∈ live' ↔ p ∈ live) :
    q.Holds live' := by
  rwa [Set.ext hlive]

-- Only the objects of timers that are held matter.
theorem Holds.of_eq {q' : TimerQueue} (h : q.Holds live) (htimers : q'.timers = q.timers)
    (hactive : q'.activeTimers = q.activeTimers) (htimer : ∀ p ∈ live, q'.timer p = q.timer p) :
    q'.Holds live := by
  constructor
  · intro e
    rw [htimers, h.1 e]
    refine and_congr_right fun hlive => ?_
    rw [expiration, expiration, htimer _ hlive]
  · intro a
    rw [hactive, h.2 a]
    refine and_congr_right fun hlive => ?_
    rw [htimer _ hlive]

theorem Holds.insert (h : q.Holds live) (p : TimerPtr) :
    (q.insert p).2.Holds (Insert.insert p live) := by
  constructor
  · intro e
    have hmem : e ∈ (q.insert p).2.timers ↔ e = entry (q.expiration p) p ∨ e ∈ q.timers :=
      q.timers.mem_insert
    rw [hmem, eq_entry_iff, h.1 e, Set.mem_insert_iff, or_and_right]
    refine or_congr_left (and_congr_right fun hp => ?_)
    rw [← hp]
    rfl
  · intro a
    have hmem : a ∈ (q.insert p).2.activeTimers ↔ a = q.activeTimer p ∨ a ∈ q.activeTimers :=
      Finset.mem_insert
    rw [hmem, h.2 a, Set.mem_insert_iff, or_and_right]
    refine or_congr_left ?_
    rw [activeTimer, Prod.ext_iff]
    refine and_congr_right fun (hp : a.1 = p) => ?_
    subst hp
    rfl

theorem addTimerInLoop_eq (p : TimerPtr) (clock : ℤ) :
    q.addTimerInLoop p clock = { (q.insert p).2 with
      timerfd := if (q.insert p).1 then resetTimerfd (q.expiration p) clock else q.timerfd } := by
  unfold addTimerInLoop
  cases hchanged : (q.insert p).1 with
  | true => simp only [hchanged, if_true]; rfl
  | false => simp only [hchanged]; rfl

@[simp] theorem addTimerInLoop_timer (p : TimerPtr) (clock : ℤ) :
    (q.addTimerInLoop p clock).timer = q.timer := by
  rw [addTimerInLoop_eq]
  rfl

@[simp] theorem addTimerInLoop_cancelingTimers (p : TimerPtr) (clock : ℤ) :
    (q.addTimerInLoop p clock).cancelingTimers = q.cancelingTimers := by
  rw [addTimerInLoop_eq]
  rfl

@[simp] theorem addTimerInLoop_callingExpiredTimers (p : TimerPtr) (clock : ℤ) :
    (q.addTimerInLoop p clock).callingExpiredTimers = q.callingExpiredTimers := by
  rw [addTimerInLoop_eq]
  rfl

@[simp] theorem cancelInLoop_timer (timerId : TimerId) :
    (q.cancelInLoop timerId).timer = q.timer := by
  unfold cancelInLoop
  dsimp only
  split_ifs <;> rfl

@[simp] theorem cancelInLoop_callingExpiredTimers (timerId : TimerId) :
    (q.cancelInLoop timerId).callingExpiredTimers = q.callingExpiredTimers := by
  unfold cancelInLoop
  dsimp only
  split_ifs <;> rfl

-- During a batch, a timer that is in neither set is put down as cancelled.
theorem mem_cancelInLoop_cancelingTimers_iff {timerId : TimerId} {a : TimerPtr × ℕ} :
    a ∈ (q.cancelInLoop timerId).cancelingTimers ↔
      a ∈ q.cancelingTimers ∨ a = (timerId.timerPtr, timerId.sequence) ∧
        a ∉ q.activeTimers ∧ q.callingExpiredTimers = true := by
  unfold cancelInLoop
  dsimp only
  split_ifs with hactive hcalling
  · refine (or_iff_left ?_).symm
    rintro ⟨rfl, hnot, _⟩
    exact hnot hactive
  · rw [Finset.mem_insert, or_comm]
    refine or_congr_right ⟨?_, fun h => h.1⟩
    rintro rfl
    exact ⟨rfl, hactive, hcalling⟩
  · exact (or_iff_left fun h => hcalling h.2.2).symm

theorem Holds.addTimerInLoop (h : q.Holds live) (p : TimerPtr) (clock : ℤ) :
    (q.addTimerInLoop p clock).Holds (Insert.insert p live) := by
  rw [addTimerInLoop_eq]
  exact (h.insert p).of_eq rfl rfl fun _ _ => rfl

theorem Holds.cancelInLoop (h : q.Holds live) (timerId : TimerId)
    (hid : timerId.timerPtr ∈ live → timerId.sequence = (q.timer timerId.timerPtr).sequence) :
    (q.cancelInLoop timerId).Holds (live \ {timerId.timerPtr}) := by
  by_cases hlive : timerId.timerPtr ∈ live
  · have hactive : (timerId.timerPtr, timerId.sequence) ∈ q.activeTimers :=
      (h.2 _).mpr ⟨hlive, hid hlive⟩
    rw [TimerQueue.cancelInLoop, if_pos hactive]
    constructor
    · intro e
      have hmem : e ∈ q.timers.erase (entry (q.expiration timerId.timerPtr) timerId.timerPtr) ↔
          e ≠ entry (q.expiration timerId.timerPtr) timerId.timerPtr ∧ e ∈ q.timers :=
        q.timers.mem_erase
      refine hmem.trans ?_
      rw [h.1 e, Set.mem_sdiff, Set.mem_singleton_iff, Ne, eq_entry_iff]
      constructor
      · rintro ⟨hne, hlive, htime⟩
        exact ⟨⟨hlive, fun hptr => hne ⟨hptr, by rw [htime, hptr]⟩⟩, htime⟩
      · rintro ⟨⟨hlive, hne⟩, htime⟩
        exact ⟨fun hboth => hne hboth.1, hlive, htime⟩
    · intro a
      refine Finset.mem_erase.trans ?_
      rw [h.2 a, Set.mem_sdiff, Set.mem_singleton_iff, Ne, Prod.ext_iff]
      constructor
      · rintro ⟨hne, hmem, hseq⟩
        refine ⟨⟨hmem, fun hptr => hne ⟨hptr, ?_⟩⟩, hseq⟩
        rw [hseq, hptr, hid hlive]
      · rintro ⟨⟨hmem, hne⟩, hseq⟩
        exact ⟨fun hboth => hne hboth.1, hmem, hseq⟩
  · have hactive : (timerId.timerPtr, timerId.sequence) ∉ q.activeTimers :=
      fun hmem => hlive ((h.2 _).mp hmem).1
    rw [TimerQueue.cancelInLoop, if_neg hactive]
    have hsame : q.Holds (live \ {timerId.timerPtr}) :=
      h.congr fun p => ⟨fun hp => hp.1, fun hp => ⟨hp, fun heq => hlive (heq ▸ hp)⟩⟩
    split
    · exact hsame.of_eq rfl rfl fun _ _ => rfl
    · exact hsame

end Keyed

section Expired

variable {q : TimerQueue} {live : Set TimerPtr} {now : ℤ} {expired : List Entry} {p : TimerPtr}

-- No timer lies at the null pointer, so upper_bound keeps what expires at `now` itself.
theorem le_sentry_iff {e : Entry} (he : e.ptr ≠ nullptr) :
    e ≤ entry now nullptr ↔ e.time < now := by
  have hle : e ≤ entry now nullptr ↔ e.time < now ∨ e.time = now ∧ e.ptr ≤ nullptr :=
    Prod.Lex.toLex_le_toLex
  rw [hle]
  refine or_iff_left fun h => he ?_
  exact Nat.le_zero.mp h.2

theorem mem_foldl_erase (expired : List Entry) (active : Finset (TimerPtr × ℕ)) (a : TimerPtr × ℕ) :
    a ∈ expired.foldl (fun active e => active.erase (q.activeTimer e.ptr)) active ↔
      a ∈ active ∧ ∀ e ∈ expired, a ≠ q.activeTimer e.ptr := by
  induction expired generalizing active with
  | nil => simp
  | cons e expired ih =>
      rw [List.foldl_cons, ih, Finset.mem_erase, List.forall_mem_cons]
      tauto

theorem Holds.mem_expired (h : q.Holds live) (hnull : nullptr ∉ live) {e : Entry} :
    e ∈ (q.getExpired now).1 ↔ e.ptr ∈ live ∧ e.time = q.expiration e.ptr ∧ e.time < now := by
  refine q.timers.mem_upTo.trans ?_
  rw [h.1 e, and_assoc]
  refine and_congr_right fun hlive => and_congr_right fun _ => ?_
  exact le_sentry_iff fun heq => hnull (heq ▸ hlive)

theorem Holds.mem_expired_ptrs (h : q.Holds live) (hnull : nullptr ∉ live) :
    p ∈ (q.getExpired now).1.map Entry.ptr ↔ p ∈ live ∧ q.expiration p < now := by
  rw [List.mem_map]
  constructor
  · rintro ⟨e, he, rfl⟩
    obtain ⟨hlive, htime, hlt⟩ := (h.mem_expired hnull).mp he
    exact ⟨hlive, htime ▸ hlt⟩
  · rintro ⟨hlive, hlt⟩
    exact ⟨entry (q.expiration p) p, (h.mem_expired hnull).mpr ⟨hlive, rfl, hlt⟩, rfl⟩

theorem Holds.getExpired (h : q.Holds live) (hnull : nullptr ∉ live) (now : ℤ) :
    (q.getExpired now).2.Holds {p ∈ live | now ≤ q.expiration p} := by
  have hsplit : ∀ e : Entry, e.ptr ∈ live → (entry now nullptr < e ↔ now ≤ e.time) := by
    intro e hlive
    rw [← not_le, le_sentry_iff fun heq => hnull (heq ▸ hlive), not_lt]
  constructor
  · intro e
    have hmem : e ∈ (q.getExpired now).2.timers ↔ e ∈ q.timers ∧ entry now nullptr < e :=
      q.timers.mem_above
    rw [hmem, h.1 e, Set.mem_ofPred_eq]
    constructor
    · rintro ⟨⟨hlive, htime⟩, hlt⟩
      exact ⟨⟨hlive, htime ▸ (hsplit e hlive).mp hlt⟩, htime⟩
    · rintro ⟨⟨hlive, hle⟩, htime⟩
      exact ⟨⟨hlive, htime⟩, (hsplit e hlive).mpr (htime ▸ hle)⟩
  · intro a
    have hmem := mem_foldl_erase (q := q) (q.getExpired now).1 q.activeTimers a
    refine hmem.trans ?_
    rw [h.2 a, Set.mem_ofPred_eq]
    constructor
    · rintro ⟨⟨hlive, hseq⟩, hnot⟩
      refine ⟨⟨hlive, not_lt.mp fun hlt => ?_⟩, hseq⟩
      exact hnot (entry (q.expiration a.1) a.1) ((h.mem_expired hnull).mpr ⟨hlive, rfl, hlt⟩)
        (Prod.ext rfl hseq)
    · rintro ⟨⟨hlive, hle⟩, hseq⟩
      refine ⟨⟨hlive, hseq⟩, ?_⟩
      rintro e he rfl
      obtain ⟨_, htime, hlt⟩ := (h.mem_expired hnull).mp he
      exact absurd hlt (not_lt.mpr (htime ▸ hle))

-- Each timer of the batch is in it once.
theorem Holds.expired_nodup (h : q.Holds live) (hnull : nullptr ∉ live) :
    ((q.getExpired now).1.map Entry.ptr).Nodup := by
  have hnodup : (q.getExpired now).1.Nodup :=
    (q.timers.upTo_sorted).imp fun hlt => hlt.ne
  refine List.Nodup.map_on ?_ hnodup
  intro e he e' he' hptr
  have htime := ((h.mem_expired hnull).mp he).2.1
  have htime' := ((h.mem_expired hnull).mp he').2.1
  have hboth : e.ptr = e'.ptr ∧ e.time = e'.time := ⟨hptr, by rw [htime, htime', hptr]⟩
  exact eq_entry_iff.mpr hboth

-- What comes back into the sets.
def Restarts (q : TimerQueue) (expired : List Entry) (p : TimerPtr) : Prop :=
  p ∈ expired.map Entry.ptr ∧ (q.timer p).repeats = true ∧ q.activeTimer p ∉ q.cancelingTimers

theorem restarts_cons_iff {e : Entry} : Restarts q (e :: expired) p ↔
    p = e.ptr ∧ (q.timer e.ptr).repeats = true ∧ q.activeTimer e.ptr ∉ q.cancelingTimers ∨
      Restarts q expired p := by
  unfold Restarts
  rw [List.map_cons, List.mem_cons, or_and_right]
  refine or_congr_left (and_congr_right ?_)
  rintro rfl
  rfl

-- Everything else about a batch that is restarted, which keeps what the code goes by.
structure Kept (q q' : TimerQueue) : Prop where
  timerfd : q'.timerfd = q.timerfd
  callingExpiredTimers : q'.callingExpiredTimers = q.callingExpiredTimers
  cancelingTimers : q'.cancelingTimers = q.cancelingTimers
  repeats (p : TimerPtr) : (q'.timer p).repeats = (q.timer p).repeats
  sequence (p : TimerPtr) : (q'.timer p).sequence = (q.timer p).sequence

theorem Kept.refl (q : TimerQueue) : Kept q q := ⟨rfl, rfl, rfl, fun _ => rfl, fun _ => rfl⟩

theorem Kept.trans {q q' q'' : TimerQueue} (h : Kept q q') (h' : Kept q' q'') : Kept q q'' where
  timerfd := h'.timerfd.trans h.timerfd
  callingExpiredTimers := h'.callingExpiredTimers.trans h.callingExpiredTimers
  cancelingTimers := h'.cancelingTimers.trans h.cancelingTimers
  repeats p := (h'.repeats p).trans (h.repeats p)
  sequence p := (h'.sequence p).trans (h.sequence p)

-- One timer that is restarted and inserted.
def restartOne (q : TimerQueue) (now : ℤ) (p : TimerPtr) : TimerQueue :=
  (({ q with timer := Function.update q.timer p ((q.timer p).restart now) }).insert p).2

theorem kept_restartOne (q : TimerQueue) (now : ℤ) (p : TimerPtr) :
    Kept q (q.restartOne now p) where
  timerfd := rfl
  callingExpiredTimers := rfl
  cancelingTimers := rfl
  repeats p' := by
    change (Function.update q.timer p ((q.timer p).restart now) p').repeats = _
    rcases eq_or_ne p' p with rfl | hne
    · rw [Function.update_self, Timer.restart_repeats]
    · rw [Function.update_of_ne hne]
  sequence p' := by
    change (Function.update q.timer p ((q.timer p).restart now) p').sequence = _
    rcases eq_or_ne p' p with rfl | hne
    · rw [Function.update_self, Timer.restart_sequence]
    · rw [Function.update_of_ne hne]

theorem Holds.restartOne (h : q.Holds live) (hp : p ∉ live) :
    (q.restartOne now p).Holds (Insert.insert p live) := by
  have htimer : ({ q with
      timer := Function.update q.timer p ((q.timer p).restart now) } : TimerQueue).Holds live := by
    refine h.of_eq rfl rfl fun p' hp' => ?_
    have hne : p' ≠ p := by
      rintro rfl
      exact hp hp'
    exact Function.update_of_ne hne _ _
  exact htimer.insert p

theorem Kept.restarts_iff {q' : TimerQueue} (h : Kept q q') :
    Restarts q' expired p ↔ Restarts q expired p := by
  unfold Restarts activeTimer
  rw [h.repeats, h.sequence, h.cancelingTimers]

theorem restartExpired_cons (q : TimerQueue) (e : Entry) (expired : List Entry) :
    q.restartExpired now (e :: expired) =
      if (q.timer e.ptr).repeats = true ∧ q.activeTimer e.ptr ∉ q.cancelingTimers then
        (q.restartOne now e.ptr).restartExpired now expired
      else q.restartExpired now expired := by
  rw [restartExpired]
  simp only [Bool.and_eq_true, decide_eq_true_eq]
  rfl

theorem Holds.restartExpired (h : q.Holds live) (now : ℤ) (hnodup : (expired.map Entry.ptr).Nodup)
    (hnot : ∀ e ∈ expired, e.ptr ∉ live) :
    (q.restartExpired now expired).Holds (live ∪ {p | Restarts q expired p}) ∧
      Kept q (q.restartExpired now expired) := by
  induction expired generalizing q live with
  | nil =>
      refine ⟨h.congr fun p => ?_, Kept.refl q⟩
      simp [Restarts]
  | cons e expired ih =>
      rw [List.map_cons, List.nodup_cons] at hnodup
      obtain ⟨hfresh, hnodup⟩ := hnodup
      obtain ⟨hehead, hrest⟩ := List.forall_mem_cons.mp hnot
      rw [restartExpired_cons]
      split
      · rename_i hrestarts
        have hkept := kept_restartOne q now e.ptr
        have hnot' : ∀ e' ∈ expired, e'.ptr ∉ Insert.insert e.ptr live := by
          rintro e' he' (heq | hlive)
          · exact hfresh (heq ▸ List.mem_map_of_mem he')
          · exact hrest e' he' hlive
        obtain ⟨hholds, hkept'⟩ := ih (h.restartOne hehead) hnodup hnot'
        refine ⟨hholds.congr fun p => ?_, hkept.trans hkept'⟩
        simp only [Set.mem_union, Set.mem_insert_iff, Set.mem_ofPred_eq, hkept.restarts_iff,
          restarts_cons_iff, and_iff_left hrestarts]
        tauto
      · rename_i hrestarts
        obtain ⟨hholds, hkept⟩ := ih h hnodup hrest
        refine ⟨hholds.congr fun p => ?_, hkept⟩
        simp only [Set.mem_union, Set.mem_ofPred_eq, restarts_cons_iff, hrestarts, and_false,
          false_or]

theorem reset_eq (expired : List Entry) (now clock : ℤ) :
    ∃ timerfd, q.reset expired now clock = { q.restartExpired now expired with timerfd } := by
  unfold reset
  dsimp only
  split_ifs
  · exact ⟨_, rfl⟩
  · exact ⟨(q.restartExpired now expired).timerfd, rfl⟩

theorem Holds.handleReadEnd (h : q.Holds live) (hnodup : (expired.map Entry.ptr).Nodup)
    (hnot : ∀ e ∈ expired, e.ptr ∉ live) (now clock : ℤ) :
    (q.handleReadEnd expired now clock).Holds (live ∪ {p | Restarts q expired p}) ∧
      (q.handleReadEnd expired now clock).callingExpiredTimers = false ∧
      ∀ p, ((q.handleReadEnd expired now clock).timer p).repeats = (q.timer p).repeats ∧
        ((q.handleReadEnd expired now clock).timer p).sequence = (q.timer p).sequence := by
  have hquiet : ({ q with callingExpiredTimers := false } : TimerQueue).Holds live :=
    h.of_eq rfl rfl fun _ _ => rfl
  obtain ⟨hholds, hkept⟩ := hquiet.restartExpired now hnodup hnot
  obtain ⟨timerfd, hreset⟩ := reset_eq (q := { q with callingExpiredTimers := false }) expired now
    clock
  rw [TimerQueue.handleReadEnd, hreset]
  exact ⟨hholds.of_eq rfl rfl fun _ _ => rfl, hkept.callingExpiredTimers,
    fun p => ⟨hkept.repeats p, hkept.sequence p⟩⟩

end Expired

end TimerQueue

end MyTestserver
