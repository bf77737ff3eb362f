import MyTestserver.TimerLoop

namespace MyTestserver

open Timers Transition History

namespace TimerLoop

variable {s t : TimerLoop} {p : TimerPtr}

-- The timer was added, not cancelled since, and has not run its one time.
def Live (s : TimerLoop) (p : TimerPtr) : Prop :=
  .added p ∈ s.log ∧ ¬After s.log (.added p) (.cancelled p) ∧
    ((s.queue.timer p).repeats = false → .started p ∉ s.log)

def batchPtrs (s : TimerLoop) : List TimerPtr :=
  match s.batch with
  | none => []
  | some batch => batch.expired.map Entry.ptr

def todoPtrs (s : TimerLoop) : List TimerPtr :=
  match s.batch with
  | none => []
  | some batch => batch.todo.map Entry.ptr

theorem isSome_of_mem_batchPtrs (hp : p ∈ s.batchPtrs) : s.batch.isSome = true := by
  unfold batchPtrs at hp
  cases hbatch : s.batch with
  | none => simp [hbatch] at hp
  | some batch => rfl

-- What is known of the timers there are. Each is added once.
structure Known (s : TimerLoop) : Prop where
  added_created (p : TimerPtr) : .added p ∈ s.log → p ∈ s.created
  started_added (p : TimerPtr) : .started p ∈ s.log → .added p ∈ s.log
  pending_add (p : TimerPtr) :
    .addTimerInLoop p ∈ s.pendingFunctors → p ∈ s.created ∧ .added p ∉ s.log
  pending_once (p : TimerPtr) : s.pendingFunctors.count (.addTimerInLoop p) ≤ 1
  pending_cancel (timerId : TimerId) : .cancelInLoop timerId ∈ s.pendingFunctors → s.Issued timerId
  null : nullptr ∉ s.created

-- A batch in the middle: what has been cancelled is kept apart, what is to do has not run.
structure Batched (s : TimerLoop) : Prop where
  calling : s.queue.callingExpiredTimers = s.batch.isSome
  nodup : s.batchPtrs.Nodup
  todo : s.todoPtrs <:+ s.batchPtrs
  added : ∀ p ∈ s.batchPtrs, .added p ∈ s.log
  cancelled : ∀ p ∈ s.batchPtrs,
    After s.log (.added p) (.cancelled p) ↔ s.queue.activeTimer p ∈ s.queue.cancelingTimers
  started : ∀ p ∈ s.batchPtrs, p ∉ s.todoPtrs → .started p ∈ s.log
  fresh : ∀ p ∈ s.todoPtrs, (s.queue.timer p).repeats = false → .started p ∉ s.log

-- The timers in the sets are those that are live and not taken out for the batch.
structure Consistent (s : TimerLoop) : Prop where
  known : s.Known
  batched : s.Batched
  holds : s.queue.Holds {p | s.Live p ∧ p ∉ s.batchPtrs}

theorem Live.created (hs : s.Known) (h : s.Live p) : p ∈ s.created := hs.added_created p h.1

theorem consistent_start (numCreated : ℕ) : (start numCreated).Consistent where
  known :=
    { added_created := by simp [start]
      started_added := by simp [start]
      pending_add := by simp [start]
      pending_once := by simp [start]
      pending_cancel := by simp [start]
      null := by simp [start] }
  batched :=
    { calling := rfl
      nodup := List.nodup_nil
      todo := List.suffix_refl _
      added := by simp [batchPtrs, start]
      cancelled := by simp [batchPtrs, start]
      started := by simp [batchPtrs, start]
      fresh := by simp [todoPtrs, start] }
  holds := by
    constructor
    · intro e
      simp [start, Live]
    · intro a
      simp [start, Live]

section Create

variable {when : ℤ} {interval : Interval} {others : ℕ}

-- A new Timer changes nothing about those that are there.

theorem create_timer_of_mem (hp : p ∉ s.created) {p' : TimerPtr} (hp' : p' ∈ s.created) :
    (s.create p when interval others).queue.timer p' = s.queue.timer p' := by
  have hne : p' ≠ p := by
    rintro rfl
    exact hp hp'
  exact Function.update_of_ne hne _ _

theorem Known.create (hs : s.Known) (hp : p ∉ s.created) (hnull : p ≠ nullptr) :
    (s.create p when interval others).Known where
  added_created p' h := Finset.mem_insert_of_mem (hs.added_created p' h)
  started_added := hs.started_added
  pending_add p' h := ⟨Finset.mem_insert_of_mem (hs.pending_add p' h).1, (hs.pending_add p' h).2⟩
  pending_once := hs.pending_once
  pending_cancel timerId h := by
    rcases hs.pending_cancel timerId h with hnull | ⟨hmem, hseq⟩
    · exact .inl hnull
    · refine .inr ⟨Finset.mem_insert_of_mem hmem, ?_⟩
      rw [create_timer_of_mem hp hmem]
      exact hseq
  null h := (Finset.mem_insert.mp h).elim (fun heq => hnull heq.symm) hs.null

theorem Known.live_create_iff (hs : s.Known) (hp : p ∉ s.created) (p' : TimerPtr) :
    (s.create p when interval others).Live p' ↔ s.Live p' := by
  by_cases hmem : p' ∈ s.created
  · unfold Live
    rw [create_timer_of_mem hp hmem]
    rfl
  · exact iff_of_false (fun h => hmem (hs.added_created p' h.1)) fun h => hmem (h.created hs)

theorem Consistent.create (hs : s.Consistent) (hp : p ∉ s.created) (hnull : p ≠ nullptr) :
    (s.create p when interval others).Consistent where
  known := hs.known.create hp hnull
  batched :=
    { calling := hs.batched.calling
      nodup := hs.batched.nodup
      todo := hs.batched.todo
      added := hs.batched.added
      cancelled p' hp' := by
        have hmem := hs.known.added_created p' (hs.batched.added p' hp')
        rw [TimerQueue.activeTimer, create_timer_of_mem hp hmem]
        exact hs.batched.cancelled p' hp'
      started := hs.batched.started
      fresh p' hp' := by
        have hmem := hs.known.added_created p' (hs.batched.added p' (hs.batched.todo.subset hp'))
        rw [create_timer_of_mem hp hmem]
        exact hs.batched.fresh p' hp' }
  holds := by
    have hholds : (s.create p when interval others).queue.Holds
        {p' | s.Live p' ∧ p' ∉ s.batchPtrs} :=
      hs.holds.of_eq rfl rfl fun p' hp' => create_timer_of_mem hp (hp'.1.created hs.known)
    exact hholds.congr fun p' => and_congr_left fun _ => hs.known.live_create_iff hp p'

end Create

section Add

variable {clock : ℤ}

theorem Known.add (hs : s.Known) (hp : p ∈ s.created)
    (hpending : .addTimerInLoop p ∉ s.pendingFunctors) : (s.addTimerInLoop p clock).Known where
  added_created p' h := by
    rcases List.mem_cons.mp h with heq | h
    · obtain rfl := Happening.added.inj heq
      exact hp
    · exact hs.added_created p' h
  started_added p' h := by
    rcases List.mem_cons.mp h with heq | h
    · cases heq
    · exact List.mem_cons_of_mem _ (hs.started_added p' h)
  pending_add p' h := by
    refine ⟨(hs.pending_add p' h).1, fun hadded => ?_⟩
    rcases List.mem_cons.mp hadded with heq | hadded
    · obtain rfl := Happening.added.inj heq
      exact hpending h
    · exact (hs.pending_add p' h).2 hadded
  pending_once := hs.pending_once
  pending_cancel timerId h := by
    have hissued := hs.pending_cancel timerId h
    unfold Issued at hissued ⊢
    rwa [addTimerInLoop, TimerQueue.addTimerInLoop_timer]
  null := hs.null

theorem after_added_cons_iff {a b : TimerPtr} :
    After (.added p :: s.log) (.added a) (.cancelled b) ↔
      After s.log (.added a) (.cancelled b) := by
  simp

theorem Known.live_add_iff (hs : s.Known) (hp : .added p ∉ s.log) (p' : TimerPtr) :
    (s.addTimerInLoop p clock).Live p' ↔ p' = p ∨ s.Live p' := by
  unfold Live
  rw [addTimerInLoop, TimerQueue.addTimerInLoop_timer]
  dsimp only
  rw [after_added_cons_iff]
  rcases eq_or_ne p' p with rfl | hne
  · refine iff_of_true ⟨by simp, fun hafter => hp hafter.mem_left, fun _ hstarted => ?_⟩ (.inl rfl)
    rcases List.mem_cons.mp hstarted with heq | hstarted
    · cases heq
    · exact hp (hs.started_added p' hstarted)
  · simp [hne]

theorem Consistent.add (hs : s.Consistent) (hp : p ∈ s.created) (hadded : .added p ∉ s.log)
    (hpending : .addTimerInLoop p ∉ s.pendingFunctors) :
    (s.addTimerInLoop p clock).Consistent where
  known := hs.known.add hp hpending
  batched :=
    { calling := by
        rw [addTimerInLoop, TimerQueue.addTimerInLoop_callingExpiredTimers]
        exact hs.batched.calling
      nodup := hs.batched.nodup
      todo := hs.batched.todo
      added p' hp' := List.mem_cons_of_mem _ (hs.batched.added p' hp')
      cancelled p' hp' := by
        rw [addTimerInLoop, TimerQueue.activeTimer, TimerQueue.addTimerInLoop_timer,
          TimerQueue.addTimerInLoop_cancelingTimers]
        exact after_added_cons_iff.trans (hs.batched.cancelled p' hp')
      started p' hp' htodo := List.mem_cons_of_mem _ (hs.batched.started p' hp' htodo)
      fresh p' hp' := by
        rw [addTimerInLoop, TimerQueue.addTimerInLoop_timer]
        intro hrepeats hstarted
        rcases List.mem_cons.mp hstarted with heq | hstarted
        · cases heq
        · exact hs.batched.fresh p' hp' hrepeats hstarted }
  holds := by
    refine (hs.holds.addTimerInLoop p clock).congr fun p' => ?_
    change _ ∧ p' ∉ s.batchPtrs ↔ p' = p ∨ s.Live p' ∧ p' ∉ s.batchPtrs
    rw [hs.known.live_add_iff hadded, or_and_right]
    refine or_congr_left (and_iff_left_of_imp ?_)
    rintro rfl hbatch
    exact hadded (hs.batched.added p' hbatch)

end Add

section Cancel

variable {timerId : TimerId}

theorem Issued.sequence_eq (hs : s.Known) (hissued : s.Issued timerId)
    (hp : timerId.timerPtr ∈ s.created) :
    timerId.sequence = (s.queue.timer timerId.timerPtr).sequence := by
  rcases hissued with rfl | ⟨_, hseq⟩
  · exact absurd hp hs.null
  · exact hseq

theorem Known.cancel (hs : s.Known) : (s.cancelInLoop timerId).Known where
  added_created p h := hs.added_created p (by simpa [cancelInLoop] using h)
  started_added p h :=
    List.mem_cons_of_mem _ (hs.started_added p (by simpa [cancelInLoop] using h))
  pending_add p h := ⟨(hs.pending_add p h).1, by simpa [cancelInLoop] using (hs.pending_add p h).2⟩
  pending_once := hs.pending_once
  pending_cancel timerId' h := by
    have hissued := hs.pending_cancel timerId' h
    unfold Issued at hissued ⊢
    rwa [cancelInLoop, TimerQueue.cancelInLoop_timer]
  null := hs.null

theorem after_cancelled_cons_iff {a b : TimerPtr} :
    After (.cancelled p :: s.log) (.added a) (.cancelled b) ↔
      b = p ∧ .added a ∈ s.log ∨ After s.log (.added a) (.cancelled b) := by
  simp

theorem live_cancel_iff (p : TimerPtr) :
    (s.cancelInLoop timerId).Live p ↔ s.Live p ∧ p ≠ timerId.timerPtr := by
  unfold Live
  rw [cancelInLoop, TimerQueue.cancelInLoop_timer]
  dsimp only
  rw [after_cancelled_cons_iff]
  simp only [List.mem_cons, reduceCtorEq, false_or]
  tauto

theorem Consistent.cancel (hs : s.Consistent) (hissued : s.Issued timerId) :
    (s.cancelInLoop timerId).Consistent where
  known := hs.known.cancel
  batched :=
    { calling := by
        rw [cancelInLoop, TimerQueue.cancelInLoop_callingExpiredTimers]
        exact hs.batched.calling
      nodup := hs.batched.nodup
      todo := hs.batched.todo
      added p hp := List.mem_cons_of_mem _ (hs.batched.added p hp)
      cancelled p hp := by
        have hadded := hs.batched.added p hp
        have hcalling : s.queue.callingExpiredTimers = true :=
          hs.batched.calling.trans (isSome_of_mem_batchPtrs hp)
        have hactive : s.queue.activeTimer p ∉ s.queue.activeTimers := fun hmem =>
          (hs.holds.activeTimer_mem_iff.mp hmem).2 hp
        rw [cancelInLoop, TimerQueue.activeTimer, TimerQueue.cancelInLoop_timer]
        dsimp only
        rw [after_cancelled_cons_iff, TimerQueue.mem_cancelInLoop_cancelingTimers_iff,
          ← TimerQueue.activeTimer, ← hs.batched.cancelled p hp, or_comm]
        refine or_congr_right ?_
        constructor
        · rintro ⟨rfl, _⟩
          refine ⟨?_, hactive, hcalling⟩
          rw [hissued.sequence_eq hs.known (hs.known.added_created _ hadded)]
          rfl
        · rintro ⟨heq, _⟩
          exact ⟨congrArg Prod.fst heq, hadded⟩
      started p hp htodo := List.mem_cons_of_mem _ (hs.batched.started p hp htodo)
      fresh p hp := by
        rw [cancelInLoop, TimerQueue.cancelInLoop_timer]
        intro hrepeats hstarted
        rcases List.mem_cons.mp hstarted with heq | hstarted
        · cases heq
        · exact hs.batched.fresh p hp hrepeats hstarted }
  holds := by
    have hholds := hs.holds.cancelInLoop timerId fun hlive =>
      hissued.sequence_eq hs.known (hlive.1.created hs.known)
    refine hholds.congr fun p => ?_
    change _ ∧ p ∉ s.batchPtrs ↔ (s.Live p ∧ p ∉ s.batchPtrs) ∧ p ≠ timerId.timerPtr
    rw [live_cancel_iff]
    tauto

end Cancel

section Handle

theorem Consistent.null_not_live (hs : s.Consistent) :
    nullptr ∉ {p | s.Live p ∧ p ∉ s.batchPtrs} := fun h => hs.known.null (h.1.created hs.known)

theorem batchPtrs_of_idle (hidle : s.Idle) : s.batchPtrs = [] := by
  have hbatch : s.batch = none := hidle
  rw [batchPtrs, hbatch]

theorem Consistent.holds_readTimerfd (hs : s.Consistent) (clock : ℤ) :
    ({ s.queue with timerfd := readTimerfd s.queue.timerfd clock } : TimerQueue).Holds
      {p | s.Live p ∧ p ∉ s.batchPtrs} := hs.holds.of_eq rfl rfl fun _ _ => rfl

-- What goes into a batch was live.
theorem Consistent.mem_batchPtrs_handleRead (hs : s.Consistent) (clock now : ℤ) (p : TimerPtr) :
    p ∈ (s.next (.handleRead clock now)).batchPtrs ↔
      (s.Live p ∧ p ∉ s.batchPtrs) ∧ s.queue.expiration p < now :=
  (hs.holds_readTimerfd clock).mem_expired_ptrs hs.null_not_live

theorem Consistent.handleRead (hs : s.Consistent) (hidle : s.Idle) (clock now : ℤ) :
    (s.next (.handleRead clock now)).Consistent := by
  have hread := hs.holds_readTimerfd clock
  have hmem := hs.mem_batchPtrs_handleRead clock now
  refine ⟨?_, ?_, ?_⟩
  · exact ⟨hs.known.added_created, hs.known.started_added, hs.known.pending_add,
      hs.known.pending_once, hs.known.pending_cancel, hs.known.null⟩
  · exact
      { calling := rfl
        nodup := hread.expired_nodup hs.null_not_live
        todo := List.suffix_refl _
        added p hp := ((hmem p).mp hp).1.1.1
        cancelled p hp := iff_of_false ((hmem p).mp hp).1.1.2.1 (Finset.notMem_empty _)
        started p hp htodo := absurd hp htodo
        fresh p hp := ((hmem p).mp hp).1.1.2.2 }
  · have hrest := hread.getExpired hs.null_not_live now
    have hholds : (s.next (.handleRead clock now)).queue.Holds _ :=
      hrest.of_eq rfl rfl fun _ _ => rfl
    refine hholds.congr fun p => ?_
    change s.Live p ∧ p ∉ (s.next (.handleRead clock now)).batchPtrs ↔
      (s.Live p ∧ p ∉ s.batchPtrs) ∧ now ≤ s.queue.expiration p
    rw [hmem, ← not_lt, batchPtrs_of_idle hidle]
    simp only [List.not_mem_nil, not_false_eq_true, and_true, not_and]
    tauto

theorem Consistent.run {batch : Batch} {e : Entry} {todo : List Entry} (hs : s.Consistent)
    (hbatch : s.batch = some batch) (htodo : batch.todo = e :: todo) :
    ({ s with batch := some { batch with todo := todo }, log := .started e.ptr :: s.log } :
      TimerLoop).Consistent := by
  have hptrs : s.batchPtrs = batch.expired.map Entry.ptr := by rw [batchPtrs, hbatch]
  have htodos : s.todoPtrs = e.ptr :: todo.map Entry.ptr := by
    rw [todoPtrs, hbatch]
    dsimp only
    rw [htodo, List.map_cons]
  have hhead : e.ptr ∈ s.batchPtrs := hs.batched.todo.subset (by simp [htodos])
  have hnodup : (e.ptr :: todo.map Entry.ptr).Nodup :=
    htodos ▸ hs.batched.nodup.sublist hs.batched.todo.sublist
  have hsuffix : todo.map Entry.ptr <:+ batch.expired.map Entry.ptr :=
    hptrs ▸ (List.suffix_cons _ _).trans (htodos ▸ hs.batched.todo)
  have hnodups : (batch.expired.map Entry.ptr).Nodup := hptrs ▸ hs.batched.nodup
  refine ⟨?_, ?_, ?_⟩
  · exact
      { added_created p h := hs.known.added_created p (by simpa using h)
        started_added p h := by
          rcases List.mem_cons.mp h with heq | h
          · obtain rfl := Happening.started.inj heq
            exact List.mem_cons_of_mem _ (hs.batched.added _ hhead)
          · exact List.mem_cons_of_mem _ (hs.known.started_added p h)
        pending_add p h := by
          obtain ⟨hcreated, hadded⟩ := hs.known.pending_add p h
          exact ⟨hcreated, by simpa using hadded⟩
        pending_once := hs.known.pending_once
        pending_cancel := hs.known.pending_cancel
        null := hs.known.null }
  · exact
      { calling := by
          rw [hs.batched.calling, hbatch]
          rfl
        nodup := hnodups
        todo := hsuffix
        added p hp := List.mem_cons_of_mem _ (hs.batched.added p (hptrs ▸ hp))
        cancelled p hp := by
          rw [← hs.batched.cancelled p (hptrs ▸ hp)]
          simp
        started p hp hnot := by
          rcases eq_or_ne p e.ptr with rfl | hne
          · exact List.mem_cons_self
          · refine List.mem_cons_of_mem _ (hs.batched.started p (hptrs ▸ hp) ?_)
            rw [htodos, List.mem_cons, not_or]
            exact ⟨hne, hnot⟩
        fresh p hp hrepeats hstarted := by
          rcases List.mem_cons.mp hstarted with heq | hstarted
          · obtain rfl := Happening.started.inj heq
            exact (List.nodup_cons.mp hnodup).1 hp
          · refine hs.batched.fresh p ?_ hrepeats hstarted
            rw [htodos]
            exact List.mem_cons_of_mem _ hp }
  · refine hs.holds.congr fun p => ?_
    change _ ∧ p ∉ batch.expired.map Entry.ptr ↔ s.Live p ∧ p ∉ s.batchPtrs
    rw [← hptrs]
    refine and_congr_left fun hnot => ?_
    have hne : p ≠ e.ptr := by
      rintro rfl
      exact hnot hhead
    simp [Live, hne]

theorem Consistent.reset {batch : Batch} (hs : s.Consistent) (hbatch : s.batch = some batch)
    (htodo : batch.todo = []) (clock : ℤ) :
    ({ s with
      queue := s.queue.handleReadEnd batch.expired batch.now clock
      batch := none } : TimerLoop).Consistent := by
  have hptrs : s.batchPtrs = batch.expired.map Entry.ptr := by rw [batchPtrs, hbatch]
  have htodos : s.todoPtrs = [] := by
    rw [todoPtrs, hbatch]
    dsimp only
    rw [htodo, List.map_nil]
  have hnot : ∀ e ∈ batch.expired, e.ptr ∉ {p | s.Live p ∧ p ∉ s.batchPtrs} :=
    fun e he hlive => hlive.2 (hptrs ▸ List.mem_map_of_mem he)
  obtain ⟨hholds, hcalling, htimer⟩ :=
    hs.holds.handleReadEnd (hptrs ▸ hs.batched.nodup) hnot batch.now clock
  refine ⟨?_, ?_, ?_⟩
  · exact
      { added_created := hs.known.added_created
        started_added := hs.known.started_added
        pending_add := hs.known.pending_add
        pending_once := hs.known.pending_once
        pending_cancel timerId h := by
          have hissued := hs.known.pending_cancel timerId h
          unfold Issued at hissued ⊢
          rwa [(htimer _).2]
        null := hs.known.null }
  · exact
      { calling := hcalling
        nodup := List.nodup_nil
        todo := List.suffix_refl _
        added p hp := absurd hp List.not_mem_nil
        cancelled p hp := absurd hp List.not_mem_nil
        started p hp := absurd hp List.not_mem_nil
        fresh p hp := absurd hp List.not_mem_nil }
  · refine hholds.congr fun p => ?_
    have hlive : ({ s with
        queue := s.queue.handleReadEnd batch.expired batch.now clock
        batch := none } : TimerLoop).Live p ↔ s.Live p := by
      unfold Live
      rw [(htimer p).1]
    change _ ∧ p ∉ [] ↔ (s.Live p ∧ p ∉ s.batchPtrs) ∨ s.queue.Restarts batch.expired p
    rw [hlive, and_iff_left List.not_mem_nil, TimerQueue.Restarts, ← hptrs]
    by_cases hp : p ∈ s.batchPtrs
    · -- All of the batch has run, so of it just the timers that repeat are live.
      have hadded := hs.batched.added p hp
      have hstarted := hs.batched.started p hp (htodos ▸ List.not_mem_nil)
      rw [← hs.batched.cancelled p hp, Live]
      simp only [hp, hadded, hstarted, not_true_eq_false, imp_false, and_false, true_and, false_or,
        Bool.not_eq_false]
      exact and_comm
    · simp only [hp, not_false_eq_true, and_true, false_and, or_false]

end Handle

section Pending

variable {cb : Functor} {rest : List Functor}

-- Only what is known of the timers depends on the queue of the loop.
theorem Consistent.withPending (hs : s.Consistent)
    (hknown : ({ s with pendingFunctors := rest } : TimerLoop).Known) :
    ({ s with pendingFunctors := rest } : TimerLoop).Consistent where
  known := hknown
  batched := ⟨hs.batched.calling, hs.batched.nodup, hs.batched.todo, hs.batched.added,
    hs.batched.cancelled, hs.batched.started, hs.batched.fresh⟩
  holds := hs.holds

-- What may be queued: a timer that was not added and is not queued yet, or an issued id.
def MayQueue (s : TimerLoop) : Functor → Prop
  | .addTimerInLoop p => p ∈ s.created ∧ .added p ∉ s.log ∧ .addTimerInLoop p ∉ s.pendingFunctors
  | .cancelInLoop timerId => s.Issued timerId

theorem Known.queueInLoop (hs : s.Known) (hcb : s.MayQueue cb) :
    ({ s with pendingFunctors := s.pendingFunctors ++ [cb] } : TimerLoop).Known where
  added_created := hs.added_created
  started_added := hs.started_added
  pending_add p h := by
    rcases List.mem_append.mp h with h | h
    · exact hs.pending_add p h
    · rw [← List.mem_singleton.mp h] at hcb
      exact ⟨hcb.1, hcb.2.1⟩
  pending_once p := by
    change (s.pendingFunctors ++ [cb]).count (.addTimerInLoop p) ≤ 1
    rw [List.count_append, List.count_singleton]
    split
    · rename_i heq
      obtain rfl := beq_iff_eq.mp heq
      rw [List.count_eq_zero_of_not_mem hcb.2.2]
    · exact hs.pending_once p
  pending_cancel timerId h := by
    rcases List.mem_append.mp h with h | h
    · exact hs.pending_cancel timerId h
    · rw [← List.mem_singleton.mp h] at hcb
      exact hcb
  null := hs.null

theorem Known.pop (hs : s.Known) (hpending : s.pendingFunctors = cb :: rest) :
    ({ s with pendingFunctors := rest } : TimerLoop).Known ∧
      ({ s with pendingFunctors := rest } : TimerLoop).MayQueue cb := by
  have hmem : cb ∈ s.pendingFunctors := hpending ▸ List.mem_cons_self
  have hsub : ∀ cb' ∈ rest, cb' ∈ s.pendingFunctors := fun cb' h =>
    hpending ▸ List.mem_cons_of_mem _ h
  have hcount (p : TimerPtr) := hs.pending_once p
  simp only [hpending, List.count_cons] at hcount
  constructor
  · exact
      { added_created := hs.added_created
        started_added := hs.started_added
        pending_add p h := hs.pending_add p (hsub _ h)
        pending_once p := Nat.le_trans (Nat.le_add_right _ _) (hcount p)
        pending_cancel timerId h := hs.pending_cancel timerId (hsub _ h)
        null := hs.null }
  · cases cb with
    | addTimerInLoop p =>
        refine ⟨(hs.pending_add p hmem).1, (hs.pending_add p hmem).2, fun h => ?_⟩
        have hone := hcount p
        have hpos : 0 < rest.count (.addTimerInLoop p) := List.count_pos_iff.mpr h
        simp only [beq_self_eq_true, if_true] at hone
        omega
    | cancelInLoop timerId => exact hs.pending_cancel timerId hmem

theorem Consistent.runInLoop (hs : s.Consistent) (hcb : s.MayQueue cb) (isInLoopThread : Bool)
    (clock : ℤ) : (s.runInLoop isInLoopThread cb clock).Consistent := by
  cases isInLoopThread with
  | false => exact hs.withPending (hs.known.queueInLoop hcb)
  | true =>
      cases cb with
      | addTimerInLoop p => exact hs.add hcb.1 hcb.2.1 hcb.2.2
      | cancelInLoop timerId => exact hs.cancel hcb

end Pending

section Runs

variable {e : Event} {es : List Event} {n : ℕ}

theorem Consistent.step (hs : s.Consistent) (hstep : Step s e t) : t.Consistent := by
  obtain ⟨hallowed, rfl⟩ := hstep
  cases e with
  | addTimer isInLoopThread p when interval others clock =>
      obtain ⟨hnull, hnew, _⟩ := hallowed
      have hmay : (s.create p when interval others).MayQueue (.addTimerInLoop p) :=
        ⟨Finset.mem_insert_self _ _, fun hadded => hnew (hs.known.added_created p hadded),
          fun hpending => hnew (hs.known.pending_add p hpending).1⟩
      exact (hs.create hnew hnull).runInLoop hmay isInLoopThread clock
  | cancel isInLoopThread timerId =>
      have hmay : s.MayQueue (.cancelInLoop timerId) := hallowed.1
      exact hs.runInLoop hmay isInLoopThread 0
  | functor clock =>
      obtain ⟨cb, rest, hpending, hnext⟩ := next_functor hallowed
      obtain ⟨hknown, hcb⟩ := hs.known.pop hpending
      rw [hnext]
      exact (hs.withPending hknown).runInLoop hcb true clock
  | handleRead clock now => exact hs.handleRead hallowed clock now
  | run =>
      obtain ⟨now, expired, e, todo, hbatch, hnext⟩ := next_run hallowed
      rw [hnext]
      exact hs.run hbatch rfl
  | reset clock =>
      obtain ⟨batch, hbatch, htodo, hnext⟩ := next_reset hallowed
      rw [hnext]
      exact hs.reset hbatch htodo clock

theorem consistent_of_path (hrun : Path Step (start n) es s) : s.Consistent :=
  hrun.invariant Consistent (fun _ _ _ hs hstep => hs.step hstep) (consistent_start n)

-- Between two rounds of handleRead both sets hold the live timers, and no others.
theorem timers_consistent (hrun : Path Step (start n) es s) (hidle : s.Idle) :
    s.queue.Holds {p | s.Live p} := by
  have hs := consistent_of_path hrun
  refine hs.holds.congr fun p => ?_
  rw [batchPtrs_of_idle hidle]
  exact (and_iff_left List.not_mem_nil).symm

-- A timer that repeats is cancelled in the callback of one that does not; both were due.
def sampleEvents : List Event :=
  [.addTimer true 1 5 .once 0 1, .addTimer false 2 5 (.every 10) 0 1, .functor 2, .handleRead 6 7,
    .run, .cancel true ⟨2, 1⟩, .addTimer true 3 9 .once 0 8, .run, .reset 8]

theorem timers_consistent_sampleEvents :
    (play next (start 0) sampleEvents).queue.Holds
        {p | (play next (start 0) sampleEvents).Live p} ∧
      (play next (start 0) sampleEvents).queue.timers.elems = [entry 9 3] := by
  have hplays : Plays Allowed next (start 0) sampleEvents := by decide +kernel
  have hrun : Path Step (start 0) sampleEvents (play next (start 0) sampleEvents) :=
    path_of_guards hplays
  exact ⟨timers_consistent hrun rfl, by decide +kernel⟩

end Runs

end TimerLoop

end MyTestserver
