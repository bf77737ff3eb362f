import MyTestserver.TimerSetTheorems

namespace MyTestserver

open Timers Transition History

namespace TimerLoop

variable {s t : TimerLoop} {p : TimerPtr} {timerId : TimerId}

-- The cancel that the loop thread executes in an event, if any.
def executedCancel (s : TimerLoop) : Event → Option TimerId
  | .cancel true timerId => some timerId
  | .functor _ =>
      match s.pendingFunctors with
      | .cancelInLoop timerId :: _ => some timerId
      | _ => none
  | _ => none

-- The timer of a cancel has been added, and does not wait for its callback in a batch.
def MayCancel (s : TimerLoop) (timerId : TimerId) : Prop :=
  timerId.timerPtr ∈ s.created →
    .added timerId.timerPtr ∈ s.log ∧ timerId.timerPtr ∉ s.todoPtrs

def CancelsInTime (s : TimerLoop) (e : Event) : Prop :=
  ∀ timerId ∈ s.executedCancel e, s.MayCancel timerId

-- No callback was started after a cancel of its timer.
def CancelsFinal (s : TimerLoop) : Prop := ∀ p, ¬After s.log (.cancelled p) (.started p)

-- A cancelled timer had been added before, and is not among those that still have to run.
structure Cancelled (s : TimerLoop) : Prop where
  added (p : TimerPtr) :
    p ∈ s.created → .cancelled p ∈ s.log → After s.log (.added p) (.cancelled p)
  todo : ∀ p ∈ s.todoPtrs, .cancelled p ∉ s.log
  created (p : TimerPtr) : .cancelled p ∈ s.log → p ∈ s.created ∨ p = nullptr
  final : s.CancelsFinal

theorem cancelled_start (n : ℕ) : (start n).Cancelled where
  added _ _ h := absurd h List.not_mem_nil
  todo _ h := absurd h List.not_mem_nil
  created _ h := absurd h List.not_mem_nil
  final _ := not_after_nil

theorem Cancelled.create (h : s.Cancelled) (hp : p ∉ s.created) (hnull : p ≠ nullptr) (when : ℤ)
    (interval : Interval) (others : ℕ) : (s.create p when interval others).Cancelled where
  added p' hp' hcancelled := by
    rcases Finset.mem_insert.mp hp' with rfl | hp'
    · exact ((h.created p' hcancelled).elim hp hnull).elim
    · exact h.added p' hp' hcancelled
  todo := h.todo
  created p' hcancelled := (h.created p' hcancelled).imp_left (Finset.mem_insert_of_mem ·)
  final := h.final

theorem Cancelled.withPending (h : s.Cancelled) (rest : List Functor) :
    ({ s with pendingFunctors := rest } : TimerLoop).Cancelled :=
  ⟨h.added, h.todo, h.created, h.final⟩

theorem Cancelled.add (h : s.Cancelled) (p : TimerPtr) (clock : ℤ) :
    (s.addTimerInLoop p clock).Cancelled where
  added p' hp' hcancelled := by
    have hlog : .cancelled p' ∈ s.log := by simpa [addTimerInLoop] using hcancelled
    exact after_cons_iff.mpr (.inr (h.added p' hp' hlog))
  todo p' hp' hcancelled := h.todo p' hp' (by simpa [addTimerInLoop] using hcancelled)
  created p' hcancelled := h.created p' (by simpa [addTimerInLoop] using hcancelled)
  final p' := by
    rw [addTimerInLoop, after_cons_iff]
    rintro (⟨heq, _⟩ | hafter)
    · cases heq
    · exact h.final p' hafter

theorem Cancelled.cancel (h : s.Cancelled) (hs : s.Consistent) (hissued : s.Issued timerId)
    (hmay : s.MayCancel timerId) : (s.cancelInLoop timerId).Cancelled where
  added p hp hcancelled := by
    rw [cancelInLoop, after_cons_iff]
    rcases List.mem_cons.mp hcancelled with heq | hcancelled
    · obtain rfl := Happening.cancelled.inj heq
      exact .inl ⟨rfl, (hmay hp).1⟩
    · exact .inr (h.added p hp hcancelled)
  todo p hp hcancelled := by
    have hcreated := hs.known.added_created p (hs.batched.added p (hs.batched.todo.subset hp))
    rcases List.mem_cons.mp hcancelled with heq | hcancelled
    · obtain rfl := Happening.cancelled.inj heq
      exact (hmay hcreated).2 hp
    · exact h.todo p hp hcancelled
  created p hcancelled := by
    rcases List.mem_cons.mp hcancelled with heq | hcancelled
    · obtain rfl := Happening.cancelled.inj heq
      rcases hissued with rfl | ⟨hmem, _⟩
      · exact .inr rfl
      · exact .inl hmem
    · exact h.created p hcancelled
  final p := by
    rw [cancelInLoop, after_cons_iff]
    rintro (⟨heq, _⟩ | hafter)
    · cases heq
    · exact h.final p hafter

-- What is taken out for a batch was live, so nothing of it has been cancelled.
theorem Cancelled.handleRead (h : s.Cancelled) (hs : s.Consistent) (clock now : ℤ) :
    (s.next (.handleRead clock now)).Cancelled where
  added := h.added
  todo p hp hcancelled := by
    have hmem : p ∈ (s.next (.handleRead clock now)).batchPtrs := hp
    have hlive := ((hs.mem_batchPtrs_handleRead clock now p).mp hmem).1.1
    exact hlive.2.1 (h.added p (hlive.created hs.known) hcancelled)
  created := h.created
  final := h.final

theorem Cancelled.run {batch : Batch} {e : Entry} {todo : List Entry} (h : s.Cancelled)
    (hbatch : s.batch = some batch) (htodo : batch.todo = e :: todo) :
    ({ s with batch := some { batch with todo := todo }, log := .started e.ptr :: s.log } :
      TimerLoop).Cancelled := by
  have htodos : s.todoPtrs = e.ptr :: todo.map Entry.ptr := by
    rw [todoPtrs, hbatch]
    dsimp only
    rw [htodo, List.map_cons]
  exact
    { added p hp hcancelled := by
        have hlog : .cancelled p ∈ s.log := by simpa using hcancelled
        exact after_cons_iff.mpr (.inr (h.added p hp hlog))
      todo p hp hcancelled := by
        refine h.todo p ?_ (by simpa using hcancelled)
        rw [htodos]
        exact List.mem_cons_of_mem _ hp
      created p hcancelled := h.created p (by simpa using hcancelled)
      final p := by
        rw [after_cons_iff]
        rintro (⟨heq, hcancelled⟩ | hafter)
        · obtain rfl := Happening.started.inj heq
          exact h.todo _ (by simp [htodos]) hcancelled
        · exact h.final p hafter }

theorem Cancelled.step {e : Event} (h : s.Cancelled) (hs : s.Consistent)
    (htime : s.CancelsInTime e) (hstep : Step s e t) : t.Cancelled := by
  obtain ⟨hallowed, rfl⟩ := hstep
  cases e with
  | addTimer isInLoopThread p when interval others clock =>
      obtain ⟨hnull, hnew, _⟩ := hallowed
      have hcreate := h.create hnew hnull when interval others
      cases isInLoopThread with
      | false => exact hcreate.withPending _
      | true => exact hcreate.add p clock
  | cancel isInLoopThread timerId =>
      cases isInLoopThread with
      | false => exact h.withPending _
      | true => exact h.cancel hs hallowed.1 (htime timerId rfl)
  | functor clock =>
      obtain ⟨cb, rest, hpending, hnext⟩ := next_functor hallowed
      obtain ⟨hknown, hcb⟩ := hs.known.pop hpending
      have hpop := h.withPending rest
      rw [hnext]
      cases cb with
      | addTimerInLoop p => exact hpop.add p clock
      | cancelInLoop timerId =>
          have hmay : s.MayCancel timerId := by
            refine htime timerId ?_
            simp only [executedCancel, hpending]
            rfl
          exact hpop.cancel (hs.withPending hknown) hcb hmay
  | handleRead clock now => exact h.handleRead hs clock now
  | run =>
      obtain ⟨now, expired, e, todo, hbatch, hnext⟩ := next_run hallowed
      rw [hnext]
      exact h.run hbatch rfl
  | reset clock =>
      obtain ⟨batch, _, _, hnext⟩ := next_reset hallowed
      rw [hnext]
      exact ⟨h.added, fun _ hp => absurd hp List.not_mem_nil, h.created, h.final⟩

-- A cancel is final where it comes neither before its timer is added nor in between, when the
-- timer is out of the sets and its callback still to be run.
theorem cancel_final {n : ℕ} {es : List Event}
    (hrun : Path (restrict CancelsInTime Step) (start n) es s) : s.CancelsFinal := by
  have hboth : s.Consistent ∧ s.Cancelled := by
    refine hrun.invariant (fun s => s.Consistent ∧ s.Cancelled) ?_
      ⟨consistent_start n, cancelled_start n⟩
    rintro s e t ⟨hs, h⟩ ⟨htime, hstep⟩
    exact ⟨hs.step hstep, h.step hs htime hstep⟩
  exact hboth.2.final

instance (s : TimerLoop) (timerId : TimerId) : Decidable (s.MayCancel timerId) := by
  unfold MayCancel
  infer_instance

instance (s : TimerLoop) (e : Event) : Decidable (s.CancelsInTime e) := by
  unfold CancelsInTime
  infer_instance

theorem cancel_final_selfCancel :
    (play next (start 0) [.addTimer true 1 5 (.every 10) 0 1, .handleRead 6 7, .run,
      .cancel true ⟨1, 0⟩, .reset 8]).CancelsFinal := by
  have hplays : Plays (fun s e => s.CancelsInTime e ∧ s.Allowed e) next (start 0)
      [.addTimer true 1 5 (.every 10) 0 1, .handleRead 6 7, .run, .cancel true ⟨1, 0⟩,
        .reset 8] := by decide +kernel
  exact cancel_final (path_of_plays (fun _ _ h => ⟨h.1, h.2, rfl⟩) hplays)

-- The second timer is cancelled in the callback of the first and called all the same.
def lateCancel : List Event :=
  [.addTimer true 1 5 .once 0 1, .addTimer true 2 5 .once 0 1,
    .handleRead 6 7, .run, .cancel true ⟨2, 1⟩, .run]

theorem cancel_not_final : ¬∀ n es s, Path Step (start n) es s → s.CancelsFinal := by
  intro h
  have hplays : Plays Allowed next (start 0) lateCancel := by decide +kernel
  have hfinal := h 0 lateCancel _ (path_of_guards hplays)
  have hafter : After (play next (start 0) lateCancel).log (.cancelled 2) (.started 2) := by
    decide +kernel
  exact hfinal 2 hafter

end TimerLoop

end MyTestserver
