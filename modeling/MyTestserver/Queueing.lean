import MyTestserver.Network

namespace MyTestserver

open Transition

namespace Network

-- What the operations change.
section Spec

variable (s : Network) (io : Io) (conn : ConnId) (data : Address) (len : ℕ) (call : Call)

theorem sendInLoop_cases :
    s.sendInLoop io conn data len call = s ∨
      ∃ state, state.loop = (s.conns conn).loop ∧
        state.stream = (s.conns conn).stream ++ s.store.load io.stale data len ∧
        s.sendInLoop io conn data len call =
          { s.updateConn conn state with
            taken := Function.update s.taken conn
              (s.taken conn ++ [⟨call, s.store.load io.stale data len, s.waiting conn⟩]) } := by
  unfold sendInLoop
  dsimp only
  split
  · exact .inl rfl
  · rename_i state h
    obtain ⟨hstream, hloop⟩ := TcpConnection.stream_sendInLoop h
    exact .inr ⟨state, hloop, hstream, rfl⟩

-- The test of send is the one that runInLoop makes.
theorem send_eq_runInLoop (h : (s.conns conn).state = .kConnected) :
    s.send io conn data len call =
      s.runInLoop io call.thread (s.conns conn).loop (.sendInLoop conn data len call) := by
  unfold send runInLoop
  rw [if_pos h]
  split <;> rfl

theorem send_cases :
    s.send io conn data len call = s ∨
      (call.thread = (s.conns conn).loop ∧
        s.send io conn data len call = s.sendInLoop io conn data len call) ∨
      (call.thread ≠ (s.conns conn).loop ∧
        s.send io conn data len call =
          s.queueInLoop call.thread (s.conns conn).loop (.sendInLoop conn data len call)) := by
  by_cases h : (s.conns conn).state = .kConnected
  · rw [s.send_eq_runInLoop io conn data len call h]
    unfold runInLoop
    by_cases hthread : call.thread = (s.conns conn).loop
    · exact .inr (.inl ⟨hthread, if_pos hthread⟩)
    · exact .inr (.inr ⟨hthread, if_neg hthread⟩)
  · exact .inl (if_neg h)

theorem loop_updateConn {state : TcpConnection} (h : state.loop = (s.conns conn).loop)
    (other : ConnId) : ((s.updateConn conn state).conns other).loop = (s.conns other).loop := by
  by_cases hother : other = conn
  · simp [updateConn, hother, h]
  · simp [updateConn, hother]

theorem queued_queueInLoop (thread loop : ThreadId) (cb : Functor) (other : ThreadId) :
    ((s.queueInLoop thread loop cb).loops other).queued =
      if other = loop then (s.loops loop).queued ++ [cb] else (s.loops other).queued := by
  by_cases hother : other = loop
  · simp [queueInLoop, updateLoop, EventLoop.queued, hother]
  · simp [queueInLoop, updateLoop, hother]

end Spec

section Frame

-- What goes out on a connection is what sendInLoop took over, call by call.
def Delivered (s : Network) : Prop :=
  ∀ conn, (s.conns conn).stream = (s.taken conn).flatMap Taken.bytes

-- What connections do: the shared state stays, each connection stays on its loop, and no
-- loop begins or ends its turn with the functors.
structure Local (s t : Network) : Prop where
  store : t.store = s.store
  mutex : t.mutex = s.mutex
  broadcasts : t.broadcasts = s.broadcasts
  held : t.held = s.held
  loop : ∀ conn, (t.conns conn).loop = (s.conns conn).loop
  functors : ∀ thread, (t.loops thread).functors = (s.loops thread).functors
  calling : ∀ thread,
    (t.loops thread).callingPendingFunctors = (s.loops thread).callingPendingFunctors
  delivered : s.Delivered → t.Delivered

theorem Local.refl (s : Network) : Local s s :=
  ⟨rfl, rfl, rfl, rfl, fun _ => rfl, fun _ => rfl, fun _ => rfl, id⟩

theorem Local.trans {s t u : Network} (h : Local s t) (h' : Local t u) : Local s u where
  store := h'.store.trans h.store
  mutex := h'.mutex.trans h.mutex
  broadcasts := h'.broadcasts.trans h.broadcasts
  held := h'.held.trans h.held
  loop conn := (h'.loop conn).trans (h.loop conn)
  functors thread := (h'.functors thread).trans (h.functors thread)
  calling thread := (h'.calling thread).trans (h.calling thread)
  delivered hs := h'.delivered (h.delivered hs)

variable (s : Network) (io : Io) (conn : ConnId)

theorem local_updateConn {state : TcpConnection}
    (h : state.stream = (s.conns conn).stream ∧ state.loop = (s.conns conn).loop) :
    Local s (s.updateConn conn state) := by
  refine ⟨rfl, rfl, rfl, rfl, s.loop_updateConn conn h.2, fun _ => rfl, fun _ => rfl,
    fun hs other => ?_⟩
  by_cases hother : other = conn
  · subst hother
    simpa [updateConn, h.1] using hs other
  · simpa [updateConn, hother] using hs other

theorem local_queueInLoop (thread loop : ThreadId) (cb : Functor) :
    Local s (s.queueInLoop thread loop cb) := by
  refine ⟨rfl, rfl, rfl, rfl, fun _ => rfl, fun other => ?_, fun other => ?_, id⟩
  all_goals
    by_cases hother : other = loop
    · simp [queueInLoop, updateLoop, hother]
    · simp [queueInLoop, updateLoop, hother]

theorem local_sendInLoop (data : Address) (len : ℕ) (call : Call) :
    Local s (s.sendInLoop io conn data len call) := by
  rcases s.sendInLoop_cases io conn data len call with h | ⟨state, hloop, hstream, h⟩
  · rw [h]
    exact .refl s
  · rw [h]
    refine ⟨rfl, rfl, rfl, rfl, s.loop_updateConn conn hloop, fun _ => rfl, fun _ => rfl,
      fun hs other => ?_⟩
    by_cases hother : other = conn
    · subst hother
      simp [updateConn, hstream, hs other]
    · simpa [updateConn, hother] using hs other

theorem local_exec (cb : Functor) : Local s (s.exec io cb) := by
  cases cb with
  | sendInLoop conn data len call => exact s.local_sendInLoop io conn data len call
  | shutdownInLoop conn =>
      exact s.local_updateConn conn ⟨TcpConnection.stream_shutdownInLoop (s.conns conn),
        TcpConnection.loop_shutdownInLoop (s.conns conn)⟩

theorem local_runInLoop (thread loop : ThreadId) (cb : Functor) :
    Local s (s.runInLoop io thread loop cb) := by
  unfold runInLoop
  split
  · exact s.local_exec io cb
  · exact s.local_queueInLoop thread loop cb

theorem local_send (data : Address) (len : ℕ) (call : Call) :
    Local s (s.send io conn data len call) := by
  by_cases h : (s.conns conn).state = .kConnected
  · rw [s.send_eq_runInLoop io conn data len call h]
    exact s.local_runInLoop io _ _ _
  · rw [send, if_neg h]
    exact .refl s

theorem local_setState (state : StateE) : Local s (s.setState conn state) :=
  s.local_updateConn conn ⟨rfl, rfl⟩

theorem local_shutdown (thread : ThreadId) : Local s (s.shutdown io thread conn) := by
  unfold shutdown
  split
  · exact (s.local_setState conn _).trans (local_runInLoop _ io _ _ _)
  · exact .refl s

end Frame

section Invariants

-- The broadcasts under way: there is one at most, and it has the mutex.
structure Argument (s : Network) (thread : ThreadId) (b : Broadcast) : Prop where
  mutex : s.mutex = some thread
  number : b.number + 1 = s.held
  holds : s.store.Holds b.data b.message

def Arguments (s : Network) : Prop := ∀ thread b, s.broadcasts thread = some b → s.Argument thread b

-- Outside of doPendingFunctors its local list is empty.
def Idle (s : Network) : Prop :=
  ∀ thread, (s.loops thread).callingPendingFunctors = false → (s.loops thread).functors = []

variable {s t : Network}

theorem Arguments.congr (h : s.Arguments) (hstore : t.store = s.store) (hmutex : t.mutex = s.mutex)
    (hbroadcasts : t.broadcasts = s.broadcasts) (hheld : t.held = s.held) : t.Arguments := by
  intro thread b hb
  rw [hbroadcasts] at hb
  obtain ⟨hm, hn, hh⟩ := h thread b hb
  exact ⟨hmutex.trans hm, hn.trans hheld.symm, hstore ▸ hh⟩

theorem Local.arguments (h : Local s t) (hs : s.Arguments) : t.Arguments :=
  hs.congr h.store h.mutex h.broadcasts h.held

theorem Local.idle (h : Local s t) (hs : s.Idle) : t.Idle := by
  intro thread hcalling
  rw [h.calling] at hcalling
  rw [h.functors]
  exact hs thread hcalling

theorem Idle.updateLoop (h : s.Idle) {thread : ThreadId} {loop : EventLoop}
    (hloop : loop.callingPendingFunctors = false → loop.functors = []) :
    (s.updateLoop thread loop).Idle := by
  intro other
  by_cases hother : other = thread
  · simpa [Network.updateLoop, hother] using hloop
  · simpa [Network.updateLoop, hother] using h other

-- A broadcast goes on with what it was called with.
theorem arguments_broadcastNext (h : s.Arguments) {thread : ThreadId} {b : Broadcast}
    (hb : s.broadcasts thread = some b) (io : Io) (username : Bytes) (conn : ConnId)
    (rest : List (Bytes × ConnId)) :
    (s.broadcastNext io thread b username conn rest).Arguments := by
  have harg := h thread b hb
  let u : Network :=
    { s with broadcasts := Function.update s.broadcasts thread (some { b with rest := rest }) }
  have hu : u.Arguments := by
    intro other c hc
    by_cases hother : other = thread
    · subst hother
      obtain rfl : { b with rest := rest } = c := by simpa [u] using hc
      exact ⟨harg.mutex, harg.number, harg.holds⟩
    · obtain ⟨hm, hn, hh⟩ := h other c (by simpa [u, hother] using hc)
      exact ⟨hm, hn, hh⟩
  unfold broadcastNext
  dsimp only
  split
  · exact (u.local_send io conn b.data _ _).arguments hu
  · exact hu

theorem idle_broadcastNext (h : s.Idle) (io : Io) (thread : ThreadId) (b : Broadcast)
    (username : Bytes) (conn : ConnId) (rest : List (Bytes × ConnId)) :
    (s.broadcastNext io thread b username conn rest).Idle := by
  unfold broadcastNext
  dsimp only
  split
  · exact (local_send _ io conn b.data _ _).idle h
  · exact h

theorem Arguments.step {e : Event} (h : s.Arguments) (hstep : Step s e t) : t.Arguments := by
  obtain ⟨hguard, rfl⟩ := hstep
  cases e with
  | setState conn state => exact (s.local_setState conn state).arguments h
  | memory store =>
      intro thread b hb
      obtain ⟨hm, hn, -⟩ := h thread b hb
      have hmutex : s.mutex.bind s.broadcasts = some b := by
        rw [hm]
        exact hb
      simp only [Guard, hmutex] at hguard
      exact ⟨hm, hn, hguard⟩
  | setSessions sessions => exact h.congr rfl rfl rfl rfl
  | send thread io conn data buf => exact (s.local_send io conn data _ _).arguments h
  | shutdown thread io conn => exact (s.local_shutdown io conn thread).arguments h
  | lock thread data message excludeUsername =>
      obtain ⟨hfree, -, hholds⟩ := hguard
      intro other b hb
      by_cases hother : other = thread
      · subst hother
        obtain rfl : Broadcast.mk s.held data message excludeUsername _ = b := by
          simpa [next] using hb
        exact ⟨rfl, rfl, hholds⟩
      · have hm := (h other b (by simpa [next, hother] using hb)).mutex
        rw [hfree] at hm
        cases hm
  | broadcast thread io =>
      simp only [next]
      split
      · rename_i b hb
        split
        · exact arguments_broadcastNext h hb io _ _ _
        · exact h
      · exact h
  | unlock thread =>
      obtain ⟨b, hb⟩ : ∃ b, s.broadcasts thread = some b := by
        simp only [Guard] at hguard
        split at hguard
        · rename_i b hb
          exact ⟨b, hb⟩
        · exact hguard.elim
      have hm := (h thread b hb).mutex
      intro other c hc
      by_cases hother : other = thread
      · simp [next, hother] at hc
      · have hm' := (h other c (by simpa [next, hother] using hc)).mutex
        rw [hm] at hm'
        exact absurd (Option.some.inj hm').symm hother
  | swap thread => exact h.congr rfl rfl rfl rfl
  | run thread io =>
      simp only [next]
      split
      · exact (local_exec _ io _).arguments (h.congr rfl rfl rfl rfl)
      · exact h
  | finish thread => exact h.congr rfl rfl rfl rfl
  | writable conn n => exact h.congr rfl rfl rfl rfl
  | wakeup thread => exact h.congr rfl rfl rfl rfl

theorem Idle.step {e : Event} (h : s.Idle) (hstep : Step s e t) : t.Idle := by
  obtain ⟨hguard, rfl⟩ := hstep
  cases e with
  | setState conn state => exact (s.local_setState conn state).idle h
  | memory store => exact h
  | setSessions sessions => exact h
  | send thread io conn data buf => exact (s.local_send io conn data _ _).idle h
  | shutdown thread io conn => exact (s.local_shutdown io conn thread).idle h
  | lock thread data message excludeUsername => exact h
  | broadcast thread io =>
      simp only [next]
      split
      · split
        · exact idle_broadcastNext h io thread _ _ _ _
        · exact h
      · exact h
  | unlock thread => exact h
  | swap thread => exact h.updateLoop (by simp)
  | run thread io =>
      simp only [next]
      split
      · refine (local_exec _ io _).idle (h.updateLoop fun hcalling => ?_)
        rw [hguard.2.1] at hcalling
        cases hcalling
      · exact h
  | finish thread => exact h.updateLoop fun _ => hguard.2.2
  | writable conn n =>
      exact (s.local_updateConn conn (TcpConnection.stream_handleWrite (s.conns conn) n)).idle h
  | wakeup thread => exact h.updateLoop (h thread)

-- In every step: a connection is on one loop all its life, broadcasts are numbered upwards,
-- and no byte goes out that sendInLoop did not take over.
structure Frame (s t : Network) : Prop where
  loop : ∀ conn, (t.conns conn).loop = (s.conns conn).loop
  held : s.held ≤ t.held
  delivered : s.Delivered → t.Delivered

theorem Local.frame (h : Local s t) : Frame s t :=
  ⟨h.loop, Nat.le_of_eq h.held.symm, h.delivered⟩

theorem frame_step {e : Event} (hstep : Step s e t) : Frame s t := by
  obtain ⟨-, rfl⟩ := hstep
  have hsame : Frame s s := (Local.refl s).frame
  cases e with
  | setState conn state => exact (s.local_setState conn state).frame
  | send thread io conn data buf => exact (s.local_send io conn data _ _).frame
  | shutdown thread io conn => exact (s.local_shutdown io conn thread).frame
  | lock thread data message excludeUsername => exact ⟨fun _ => rfl, Nat.le_succ _, id⟩
  | broadcast thread io =>
      simp only [next]
      split
      · split
        · unfold broadcastNext
          dsimp only
          split
          · obtain ⟨hloop, hheld, hdelivered⟩ := (local_send _ io _ _ _ _).frame
            exact ⟨hloop, hheld, hdelivered⟩
          · exact ⟨fun _ => rfl, le_rfl, id⟩
        · exact hsame
      · exact hsame
  | run thread io =>
      simp only [next]
      split
      · obtain ⟨hloop, hheld, hdelivered⟩ := (local_exec _ io _).frame
        exact ⟨hloop, hheld, hdelivered⟩
      · exact hsame
  | writable conn n =>
      exact (s.local_updateConn conn (TcpConnection.stream_handleWrite (s.conns conn) n)).frame
  | memory _ | setSessions _ | unlock _ | swap _ | finish _ | wakeup _ =>
      exact ⟨fun _ => rfl, le_rfl, id⟩

end Invariants

section Moves

-- A call is made: its string is there, and a broadcast is the last that took the mutex.
structure Issued (s : Network) (data : Address) (call : Call) : Prop where
  holds : s.store.Holds data call.buf
  number : ∀ n, call.number = some n → n + 1 = s.held

-- What a step does to the queues and to what the connections took over: nothing, or a
-- call goes past the queue, or a functor goes in, or one comes out and is run.
inductive Moves (s t : Network) : Prop
  | quiet : (∀ loop, (t.loops loop).queued = (s.loops loop).queued) → t.taken = s.taken → Moves s t
  | direct (conn : ConnId) (data : Address) (call : Call) (stale : Address → UInt8) :
      s.Issued data call → call.thread = (s.conns conn).loop →
      (∀ loop, (t.loops loop).queued = (s.loops loop).queued) →
      t.taken = Function.update s.taken conn
        (s.taken conn ++
          [⟨call, s.store.load stale data call.buf.length, s.waiting conn⟩]) → Moves s t
  | enqueue (loop : ThreadId) (cb : Functor) :
      (∀ conn data len call, cb = .sendInLoop conn data len call →
        s.Issued data call ∧ len = call.buf.length ∧ (s.conns conn).loop = loop ∧
          call.thread ≠ loop) →
      (∀ other, (t.loops other).queued =
        if other = loop then (s.loops loop).queued ++ [cb] else (s.loops other).queued) →
      t.taken = s.taken → Moves s t
  | run (loop : ThreadId) (cb : Functor) (rest : List Functor) :
      (s.loops loop).queued = cb :: rest →
      (∀ other, (t.loops other).queued = if other = loop then rest else (s.loops other).queued) →
      (t.taken = s.taken ∨ ∃ conn data len call stale, cb = .sendInLoop conn data len call ∧
        t.taken = Function.update s.taken conn
          (s.taken conn ++ [⟨call, s.store.load stale data len,
            (t.loops (s.conns conn).loop).queued.filterMap (Functor.callFor conn)⟩])) → Moves s t

variable {s : Network} (io : Io) {conn : ConnId} {data : Address} {call : Call}

theorem moves_send (h : s.Issued data call) :
    Moves s (s.send io conn data call.buf.length call) := by
  rcases s.send_cases io conn data call.buf.length call with
    hsend | ⟨hthread, hsend⟩ | ⟨hthread, hsend⟩
  · rw [hsend]
    exact .quiet (fun _ => rfl) rfl
  · rw [hsend]
    rcases s.sendInLoop_cases io conn data call.buf.length call with hnone | ⟨state, -, -, htaken⟩
    · rw [hnone]
      exact .quiet (fun _ => rfl) rfl
    · rw [htaken]
      exact .direct conn data call io.stale h hthread (fun _ => rfl) rfl
  · rw [hsend]
    refine .enqueue _ _ ?_ (s.queued_queueInLoop _ _ _) rfl
    rintro _ _ _ _ hcb
    cases hcb
    exact ⟨h, rfl, rfl, hthread⟩

theorem moves_shutdown (thread : ThreadId) : Moves s (s.shutdown io thread conn) := by
  unfold shutdown runInLoop
  split
  · split
    · exact .quiet (fun _ => rfl) rfl
    · refine .enqueue _ (.shutdownInLoop conn) (by rintro _ _ _ _ hcb; cases hcb)
        (queued_queueInLoop _ _ _ _) rfl
  · exact .quiet (fun _ => rfl) rfl

-- The functor that is run is taken out of the queue.
theorem queued_pop {thread : ThreadId} {cb : Functor} {functors : List Functor}
    (h : (s.loops thread).functors = cb :: functors) :
    ∃ rest, (s.loops thread).queued = cb :: rest ∧ ∀ other,
      ((s.updateLoop thread { s.loops thread with functors := functors }).loops other).queued =
        if other = thread then rest else (s.loops other).queued := by
  refine ⟨functors ++ (s.loops thread).pendingFunctors, by simp [EventLoop.queued, h],
    fun other => ?_⟩
  by_cases hother : other = thread
  · simp [updateLoop, EventLoop.queued, hother]
  · simp [updateLoop, hother]

theorem moves_run {thread : ThreadId} {cb : Functor} {functors : List Functor}
    (h : (s.loops thread).functors = cb :: functors) :
    Moves s ((s.updateLoop thread { s.loops thread with functors := functors }).exec io cb) := by
  let u := s.updateLoop thread { s.loops thread with functors := functors }
  obtain ⟨rest, hqueued, hrest⟩ := queued_pop h
  cases cb with
  | shutdownInLoop conn => exact .run thread _ rest hqueued hrest (.inl rfl)
  | sendInLoop conn data len call =>
      change Moves s (u.sendInLoop io conn data len call)
      rcases u.sendInLoop_cases io conn data len call with hnone | ⟨state, -, -, htaken⟩
      · rw [hnone]
        exact .run thread _ rest hqueued hrest (.inl rfl)
      · rw [htaken]
        exact .run thread _ rest hqueued hrest (.inr ⟨conn, data, len, call, io.stale, rfl, rfl⟩)

theorem moves_broadcastNext {thread : ThreadId} {b : Broadcast} (h : s.Argument thread b)
    (username : Bytes) (conn : ConnId) (rest : List (Bytes × ConnId)) :
    Moves s (s.broadcastNext io thread b username conn rest) := by
  let u : Network :=
    { s with broadcasts := Function.update s.broadcasts thread (some { b with rest := rest }) }
  have hsend :
      Moves u (u.send io conn b.data b.message.length ⟨thread, b.message, some b.number⟩) :=
    moves_send io ⟨h.holds, fun n hn => by rw [← Option.some.inj hn]; exact h.number⟩
  unfold broadcastNext
  dsimp only
  split
  · cases hsend with
    | quiet hqueued htaken => exact .quiet hqueued htaken
    | direct conn data call stale hissued hthread hqueued htaken =>
        exact .direct conn data call stale ⟨hissued.holds, hissued.number⟩ hthread hqueued htaken
    | enqueue loop cb hcb hqueued htaken =>
        refine .enqueue loop cb (fun conn data len call hcall => ?_) hqueued htaken
        obtain ⟨hissued, hrest⟩ := hcb conn data len call hcall
        exact ⟨⟨hissued.holds, hissued.number⟩, hrest⟩
    | run loop cb rest hhead hqueued htaken => exact .run loop cb rest hhead hqueued htaken
  · exact .quiet (fun _ => rfl) rfl

theorem queued_updateLoop {thread : ThreadId} {loop : EventLoop}
    (h : loop.queued = (s.loops thread).queued) (other : ThreadId) :
    ((s.updateLoop thread loop).loops other).queued = (s.loops other).queued := by
  by_cases hother : other = thread
  · simp [updateLoop, hother, h]
  · simp [updateLoop, hother]

theorem moves_step {t : Network} {e : Event} (hargs : s.Arguments) (hidle : s.Idle)
    (h : Step s e t) : Moves s t := by
  obtain ⟨hguard, rfl⟩ := h
  cases e with
  | setState conn state => exact .quiet (fun _ => rfl) rfl
  | memory store => exact .quiet (fun _ => rfl) rfl
  | setSessions sessions => exact .quiet (fun _ => rfl) rfl
  | send thread io conn data buf => exact moves_send io ⟨hguard.2, by simp⟩
  | shutdown thread io conn => exact moves_shutdown io thread
  | lock thread data message excludeUsername => exact .quiet (fun _ => rfl) rfl
  | broadcast thread io =>
      simp only [next]
      split
      · rename_i b hb
        split
        · exact moves_broadcastNext io (hargs thread b hb) _ _ _
        · exact .quiet (fun _ => rfl) rfl
      · exact .quiet (fun _ => rfl) rfl
  | unlock thread => exact .quiet (fun _ => rfl) rfl
  | swap thread =>
      refine .quiet (queued_updateLoop ?_) rfl
      simp [EventLoop.queued, hidle thread hguard.2]
  | run thread io =>
      simp only [next]
      split
      · rename_i cb functors hfunctors
        exact moves_run io hfunctors
      · exact .quiet (fun _ => rfl) rfl
  | finish thread => exact .quiet (queued_updateLoop rfl) rfl
  | writable conn n => exact .quiet (fun _ => rfl) rfl
  | wakeup thread => exact .quiet (queued_updateLoop rfl) rfl

end Moves

section Lanes

-- Each connection as a queue with a way around it: the functors for it, and the calls on
-- its own loop.
def lane (s : Network) (conn : ConnId) : Bypass.Lane Call where
  waiting := s.waiting conn
  taken := (s.taken conn).map fun entry =>
    ⟨entry.call, entry.waiting, decide (entry.call.thread = (s.conns conn).loop)⟩

-- Calls that are not broadcasts may stand anywhere.
def NotAfter (first second : Call) : Prop :=
  ∀ m n, first.number = some m → second.number = some n → m ≤ n

def Numbered (held : ℕ) (call : Call) : Prop := ∀ n, call.number = some n → n < held

-- Functors wait on the loop of their connection, and not for calls of that loop.
def Routed (s : Network) : Prop :=
  ∀ loop conn data len call, .sendInLoop conn data len call ∈ (s.loops loop).queued →
    (s.conns conn).loop = loop ∧ call.thread ≠ loop

-- What an entry notes as waiting came from other threads.
def Noted (s : Network) : Prop :=
  ∀ conn, ∀ entry ∈ s.taken conn, ∀ call ∈ entry.waiting, call.thread ≠ (s.conns conn).loop

structure Orderly (s : Network) : Prop where
  delivered : s.Delivered
  noted : s.Noted
  arguments : s.Arguments
  idle : s.Idle
  routed : s.Routed
  numbered : ∀ conn, (s.lane conn).All (Numbered s.held)
  ordered : ∀ conn, Bypass.Ordered NotAfter (s.lane conn)

variable {s t : Network}

theorem Issued.notAfter {data : Address} {call : Call} (h : s.Issued data call) {other : Call}
    (hother : Numbered s.held other) : NotAfter other call := by
  intro m n hm hn
  have hlt := hother m hm
  have hlast := h.number n hn
  omega

theorem lane_eq {conn : ConnId} (hloop : (t.conns conn).loop = (s.conns conn).loop)
    (hwaiting : t.waiting conn = s.waiting conn) (htaken : t.taken conn = s.taken conn) :
    t.lane conn = s.lane conn := by
  simp only [lane, hloop, hwaiting, htaken]

section Lane

variable (hloop : ∀ conn, (t.conns conn).loop = (s.conns conn).loop) (conn : ConnId)

include hloop

theorem waiting_eq : t.waiting conn =
    (t.loops (s.conns conn).loop).queued.filterMap (Functor.callFor conn) := by
  rw [waiting, hloop]

-- A call on the loop of the connection goes past the queue.
theorem lane_direct {call : Call} {bytes : Bytes} (hthread : call.thread = (s.conns conn).loop)
    (hqueued : ∀ loop, (t.loops loop).queued = (s.loops loop).queued)
    (htaken : t.taken conn = s.taken conn ++ [⟨call, bytes, s.waiting conn⟩]) :
    t.lane conn =
      ⟨(s.lane conn).waiting, (s.lane conn).taken ++ [⟨call, (s.lane conn).waiting, true⟩]⟩ := by
  have hwaiting := waiting_eq hloop conn
  rw [hqueued] at hwaiting
  simp only [lane, hloop, hwaiting, htaken, List.map_append, List.map_cons, List.map_nil, hthread,
    decide_true]
  rfl

-- A functor that goes into a queue goes into the lane of its connection only.
theorem lane_enqueue {loop : ThreadId} {cb : Functor}
    (hqueued : ∀ other, (t.loops other).queued =
      if other = loop then (s.loops loop).queued ++ [cb] else (s.loops other).queued)
    (htaken : t.taken = s.taken) :
    (cb.callFor conn = none → t.lane conn = s.lane conn) ∧
      ∀ call, cb.callFor conn = some call → (s.conns conn).loop = loop →
        t.lane conn = ⟨(s.lane conn).waiting ++ [call], (s.lane conn).taken⟩ := by
  have hwaiting := waiting_eq hloop conn
  rw [hqueued] at hwaiting
  refine ⟨fun hcall => lane_eq (hloop conn) ?_ (congrFun htaken conn), fun call hcall hconn => ?_⟩
  · rw [hwaiting]
    split
    · rename_i heq
      rw [List.filterMap_append, waiting, heq]
      simp [hcall]
    · rfl
  · rw [if_pos hconn, List.filterMap_append, ← hconn] at hwaiting
    simp only [lane, hloop, hwaiting, htaken]
    simp [hcall, waiting]

-- A functor that comes out of a queue leaves the other lanes as they are.
theorem lane_run_other {loop : ThreadId} {cb : Functor} {rest : List Functor}
    (hhead : (s.loops loop).queued = cb :: rest)
    (hqueued : ∀ other, (t.loops other).queued =
      if other = loop then rest else (s.loops other).queued)
    (hcall : cb.callFor conn = none) (htaken : t.taken conn = s.taken conn) :
    t.lane conn = s.lane conn := by
  refine lane_eq (hloop conn) ?_ htaken
  rw [waiting_eq hloop, hqueued]
  split
  · rename_i heq
    rw [waiting, heq, hhead, List.filterMap_cons_none hcall]
  · rfl

-- In its own lane it was the first.
theorem lane_run_head {cb : Functor} {rest : List Functor} {call : Call}
    (hhead : (s.loops (s.conns conn).loop).queued = cb :: rest)
    (hqueued : (t.loops (s.conns conn).loop).queued = rest)
    (hcall : cb.callFor conn = some call) : s.waiting conn = call :: t.waiting conn := by
  rw [waiting_eq hloop, waiting, hhead, hqueued, List.filterMap_cons_some hcall]

end Lane

-- What a step does to the queues it does to the lanes.
theorem Moves.lane_step (h : Moves s t)
    (hloop : ∀ conn, (t.conns conn).loop = (s.conns conn).loop) (hrouted : s.Routed)
    (hnumbered : ∀ conn, (s.lane conn).All (Numbered s.held)) (conn : ConnId) :
    t.lane conn = s.lane conn ∨
      Bypass.Step NotAfter (Numbered s.held) (s.lane conn) (t.lane conn) := by
  have hnew : ∀ {data call}, s.Issued data call →
      Numbered s.held call ∧ (s.lane conn).All (NotAfter · call) := by
    intro data call hissued
    refine ⟨fun n hn => ?_, (hnumbered conn).imp fun other hother => hissued.notAfter hother⟩
    have hlast := hissued.number n hn
    omega
  cases h with
  | quiet hqueued htaken =>
      have hwaiting := waiting_eq hloop conn
      rw [hqueued] at hwaiting
      exact .inl (lane_eq (hloop conn) hwaiting (congrFun htaken conn))
  | direct other data call stale hissued hthread hqueued htaken =>
      by_cases hother : conn = other
      · subst hother
        rw [lane_direct hloop conn hthread hqueued (by rw [htaken, Function.update_self])]
        exact .inr (.direct (hnew hissued).1 (hnew hissued).2)
      · have hwaiting := waiting_eq hloop conn
        rw [hqueued] at hwaiting
        exact .inl (lane_eq (hloop conn) hwaiting (by rw [htaken, Function.update_of_ne hother]))
  | enqueue loop cb hcb hqueued htaken =>
      obtain ⟨hnone, hsome⟩ := lane_enqueue hloop conn hqueued htaken
      cases hcall : cb.callFor conn with
      | none => exact .inl (hnone hcall)
      | some call =>
          obtain ⟨data, len, rfl⟩ := Functor.callFor_eq_some hcall
          obtain ⟨hissued, -, hconn, -⟩ := hcb conn data len call rfl
          rw [hsome call hcall hconn]
          exact .inr (.enqueue (hnew hissued).1 (hnew hissued).2)
  | run loop cb rest hhead hqueued htaken =>
      cases hcall : cb.callFor conn with
      | none =>
          refine .inl (lane_run_other hloop conn hhead hqueued hcall ?_)
          rcases htaken with htaken | ⟨other, data, len, call, stale, rfl, htaken⟩
          · exact congrFun htaken conn
          · have hother : conn ≠ other := by
              rintro rfl
              rw [Functor.callFor_sendInLoop] at hcall
              cases hcall
            rw [htaken, Function.update_of_ne hother]
      | some call =>
          obtain ⟨data, len, rfl⟩ := Functor.callFor_eq_some hcall
          obtain ⟨rfl, hthread⟩ := hrouted loop conn data len call (by simp [hhead])
          have hbefore := lane_run_head hloop conn hhead (by rw [hqueued, if_pos rfl]) hcall
          have hs : s.lane conn = ⟨call :: t.waiting conn, (s.lane conn).taken⟩ := by
            rw [← hbefore]
            rfl
          rw [hs]
          rcases htaken with htaken | ⟨other, data', len', call', stale, hcb, htaken⟩
          · have hlane : t.lane conn = ⟨t.waiting conn, (s.lane conn).taken⟩ := by
              simp only [lane, hloop, htaken]
            rw [hlane]
            exact .inr .drop
          · cases hcb
            have hlane : t.lane conn = ⟨t.waiting conn,
                (s.lane conn).taken ++ [⟨call, t.waiting conn, false⟩]⟩ := by
              rw [← waiting_eq hloop] at htaken
              simp only [lane, hloop, htaken, Function.update_self, List.map_append, List.map_cons,
                List.map_nil, hthread, decide_false]
            rw [hlane]
            exact .inr .run

theorem Moves.queued_cases (h : Moves s t) {loop : ThreadId} {conn : ConnId} {data : Address}
    {len : ℕ} {call : Call} (hmem : .sendInLoop conn data len call ∈ (t.loops loop).queued) :
    .sendInLoop conn data len call ∈ (s.loops loop).queued ∨
      s.Issued data call ∧ len = call.buf.length ∧ (s.conns conn).loop = loop ∧
        call.thread ≠ loop := by
  cases h with
  | quiet hqueued _ => exact .inl (hqueued loop ▸ hmem)
  | direct _ _ _ _ _ _ hqueued _ => exact .inl (hqueued loop ▸ hmem)
  | enqueue other cb hcb hqueued _ =>
      rw [hqueued] at hmem
      split at hmem
      · rename_i heq
        subst heq
        rcases List.mem_append.mp hmem with hmem | hmem
        · exact .inl hmem
        · exact .inr (hcb conn data len call (List.mem_singleton.mp hmem).symm)
      · exact .inl hmem
  | run other cb rest hhead hqueued _ =>
      rw [hqueued] at hmem
      split at hmem
      · rename_i heq
        subst heq
        exact .inl (hhead ▸ List.mem_cons_of_mem _ hmem)
      · exact .inl hmem

theorem Moves.routed (h : Moves s t) (hloop : ∀ conn, (t.conns conn).loop = (s.conns conn).loop)
    (hrouted : s.Routed) : t.Routed := by
  intro loop conn data len call hmem
  rw [hloop]
  rcases h.queued_cases hmem with hold | ⟨-, -, hroute⟩
  · exact hrouted loop conn data len call hold
  · exact hroute

theorem Routed.waiting (h : s.Routed) {loop : ThreadId} {conn : ConnId} {functors : List Functor}
    (hsub : functors ⊆ (s.loops loop).queued) {call : Call}
    (hcall : call ∈ functors.filterMap (Functor.callFor conn)) :
    call.thread ≠ (s.conns conn).loop := by
  obtain ⟨cb, hmem, hcb⟩ := List.mem_filterMap.mp hcall
  obtain ⟨data, len, rfl⟩ := Functor.callFor_eq_some hcb
  obtain ⟨hloop, hthread⟩ := h loop conn data len call (hsub hmem)
  rw [hloop]
  exact hthread

theorem Moves.noted (h : Moves s t) (hloop : ∀ conn, (t.conns conn).loop = (s.conns conn).loop)
    (hrouted : s.Routed) (hnoted : s.Noted) : t.Noted := by
  have happend : ∀ {other : ConnId} {new : Taken},
      (∀ call ∈ new.waiting, call.thread ≠ (s.conns other).loop) →
      t.taken = Function.update s.taken other (s.taken other ++ [new]) → t.Noted := by
    intro other new hnew htaken conn entry hentry call hcall
    rw [hloop]
    rw [htaken] at hentry
    by_cases hother : conn = other
    · subst hother
      rw [Function.update_self] at hentry
      rcases List.mem_append.mp hentry with hentry | hentry
      · exact hnoted conn entry hentry call hcall
      · obtain rfl := List.mem_singleton.mp hentry
        exact hnew call hcall
    · rw [Function.update_of_ne hother] at hentry
      exact hnoted conn entry hentry call hcall
  have hsame : t.taken = s.taken → t.Noted := by
    intro htaken conn entry hentry call hcall
    rw [hloop]
    exact hnoted conn entry (htaken ▸ hentry) call hcall
  cases h with
  | quiet _ htaken => exact hsame htaken
  | direct conn data call stale _ _ _ htaken =>
      exact happend (fun other hother => hrouted.waiting (List.Subset.refl _) hother) htaken
  | enqueue _ _ _ _ htaken => exact hsame htaken
  | run loop cb rest hhead hqueued htaken =>
      rcases htaken with htaken | ⟨conn, data, len, call, stale, rfl, htaken⟩
      · exact hsame htaken
      · refine happend (fun other hother => ?_) htaken
        obtain ⟨hconn, -⟩ := hrouted loop conn data len call (by simp [hhead])
        rw [hqueued, if_pos hconn] at hother
        exact hrouted.waiting (hhead ▸ List.subset_cons_self _ _) hother

theorem Orderly.step {e : Event} (h : s.Orderly) (hstep : Step s e t) : t.Orderly := by
  obtain ⟨hloop, hheld, hdelivered⟩ := frame_step hstep
  have hmoves := moves_step h.arguments h.idle hstep
  have hlane := hmoves.lane_step hloop h.routed h.numbered
  refine ⟨hdelivered h.delivered, hmoves.noted hloop h.routed h.noted, h.arguments.step hstep,
    h.idle.step hstep, hmoves.routed hloop h.routed, fun conn => ?_, fun conn => ?_⟩
  · have hnumbered : (t.lane conn).All (Numbered s.held) := by
      rcases hlane conn with hsame | hmove
      · rw [hsame]
        exact h.numbered conn
      · exact (h.numbered conn).step (fun _ hnew => hnew) hmove
    exact hnumbered.imp fun call hcall n hn => Nat.lt_of_lt_of_le (hcall n hn) hheld
  · rcases hlane conn with hsame | hmove
    · rw [hsame]
      exact h.ordered conn
    · exact (h.ordered conn).step hmove

theorem orderly_start (loopOf : ConnId → ThreadId) : (start loopOf).Orderly where
  delivered conn := by simp [start, TcpConnection.new, TcpConnection.stream]
  noted := by intro conn entry hentry; cases hentry
  arguments := by intro thread b hb; cases hb
  idle _ _ := rfl
  routed := by intro loop conn data len call hmem; cases hmem
  numbered _ := ⟨by simp [lane, waiting, start, EventLoop.queued], by simp [lane, start]⟩
  ordered _ := by
    simp only [lane, waiting, start, EventLoop.queued]
    exact Bypass.ordered_nil

theorem orderly_run {loopOf : ConnId → ThreadId} {es : List Event}
    (h : Path Step (start loopOf) es s) : s.Orderly :=
  h.invariant Orderly (fun _ _ _ hs hstep => hs.step hstep) (orderly_start loopOf)

end Lanes

end Network

end MyTestserver
