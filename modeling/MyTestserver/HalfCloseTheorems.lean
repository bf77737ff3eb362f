import MyTestserver.HalfClose

namespace MyTestserver.HalfClose

open Transition

namespace Connection

variable {c c' : Connection} {e : Event} {thread : ThreadId} {call : Call} {data : Bytes}
  {result : WriteResult} {cb : Functor}

def queued (c : Connection) : List Bytes := c.functors.filterMap Functor.data

def sending (c : Connection) : List Bytes := c.calls.filterMap Call.data

-- No accepted string is on its way to sendInLoop.
def Settled (c : Connection) : Prop := c.queued = [] ∧ c.sending = []

-- A shutdown has set the state.
def Closing (c : Connection) : Prop :=
  (∃ call ∈ c.calls, call.request = .shutdownInLoop) ∨ .shutdownInLoop ∈ c.functors ∨
    c.conn.finSent = true

-- Every accepted string is taken over, in the queue, with the thread that sends it, or
-- among those that the step is handling; after shutdownWrite all have been written.
structure Kept (c : Connection) (handled : List Bytes) : Prop where
  account : (c.taken ++ c.queued ++ c.sending ++ handled).Perm c.accepted
  stream : c.conn.stream = c.taken.flatten
  interested : c.conn.Interested
  state : c.conn.state = .kConnected ∨ c.conn.state = .kDisconnecting
  closing : c.Closing → c.conn.state = .kDisconnecting
  fin : c.conn.finSent = true → c.conn.isWriting = false ∧ c.Settled ∧ handled = []
  lateWrites : c.lateWrites = 0

section Operations

theorem Kept.connected (h : c.Kept []) (hstate : c.conn.state = .kConnected) :
    c.conn.finSent = false := by
  by_contra hfin
  have hclosing := h.closing (.inr (.inr (by simpa using hfin)))
  rw [hstate] at hclosing
  cases hclosing

-- The string that is handled is taken over, whatever the socket takes of it.
theorem Kept.sendInLoop (h : c.Kept [data]) (hallowed : c.Allowed result (some data)) :
    (c.sendInLoop data result).Kept [] := by
  have hfin : c.conn.finSent = false := by
    by_contra hfin
    have hnone := (h.fin (by simpa using hfin)).2.2
    cases hnone
  have hstate : c.conn.state ≠ .kDisconnected := by
    rcases h.state with hs | hs <;> simp [hs]
  obtain ⟨conn, hconn⟩ := TcpConnection.exists_sendInLoop hstate (hallowed hfin data rfl).ne
  have hsame : conn.state = c.conn.state ∧ conn.finSent = c.conn.finSent := by
    have hs := c.conn.state_sendInLoop result data
    have hf := c.conn.finSent_sendInLoop result data
    rw [hconn] at hs hf
    exact ⟨hs, hf⟩
  have hresult : c.sendInLoop data result = { c with conn := conn, taken := c.taken ++ [data] } := by
    simp [Connection.sendInLoop, attempt, hfin, hconn]
  rw [hresult]
  constructor
  · refine List.Perm.trans ?_ h.account
    simp only [queued, sending, List.append_nil, List.append_assoc]
    refine List.Perm.append_left _ ?_
    rw [← List.append_assoc (c.functors.filterMap _)]
    exact List.perm_append_comm
  · simp [(TcpConnection.stream_sendInLoop hconn).1, h.stream]
  · exact h.interested.sendInLoop hconn
  · exact hsame.1 ▸ h.state
  · intro hclosing
    refine hsame.1.trans (h.closing ?_)
    simpa only [Closing, hsame.2] using hclosing
  · intro hf
    rw [hsame.2, hfin] at hf
    cases hf
  · exact h.lateWrites

theorem Kept.shutdownInLoop (h : c.Kept []) (hstate : c.conn.state = .kDisconnecting)
    (hsettled : c.conn.isWriting = false → c.Settled) : c.shutdownInLoop.Kept [] where
  account := h.account
  stream := by simpa [Connection.shutdownInLoop] using h.stream
  interested := h.interested.shutdownInLoop
  state := by simp [Connection.shutdownInLoop, hstate]
  closing _ := by simp [Connection.shutdownInLoop, hstate]
  fin hfin := by
    by_cases hwriting : c.conn.isWriting = false
    · refine ⟨?_, hsettled hwriting, rfl⟩
      simp [Connection.shutdownInLoop, TcpConnection.shutdownInLoop, hwriting]
    · have hsame : c.shutdownInLoop = c := by
        simp [Connection.shutdownInLoop, TcpConnection.shutdownInLoop, hwriting]
      rw [hsame] at hfin ⊢
      exact h.fin hfin
  lateWrites := h.lateWrites

-- The write that takes the last of the output buffer is followed by shutdownInLoop.
theorem finSent_handleWrite {conn : TcpConnection} {n : ℕ}
    (h : (conn.handleWrite n).finSent = true) (hfin : conn.finSent = false) :
    conn.state = .kDisconnecting ∧ conn.outputBuffer.readableBytes ≤ n ∧
      (conn.handleWrite n).isWriting = false := by
  unfold TcpConnection.handleWrite at h ⊢
  split at h
  · rename_i hwriting
    rw [if_pos hwriting]
    dsimp only at h ⊢
    split at h
    · rename_i hempty
      have hdrained := hempty
      rw [Buffer.readableBytes_eq_zero_iff, Buffer.readable_retrieve,
        List.drop_eq_nil_iff, Buffer.readable_length] at hdrained
      split at h
      · rename_i hstate
        refine ⟨hstate, hdrained, ?_⟩
        rw [if_pos hempty, if_pos hstate]
        rfl
      · simp [hfin] at h
    · simp [hfin] at h
  · simp [hfin] at h

theorem Kept.handleWrite (h : c.Kept []) {n : ℕ}
    (hsettled : c.conn.state = .kDisconnecting → c.conn.isWriting = true →
      c.conn.outputBuffer.readableBytes ≤ n → c.Settled) : (c.handleWrite n).Kept [] := by
  by_cases hwriting : c.conn.isWriting = true
  · have hfin : c.conn.finSent = false := by
      by_contra hfin
      rw [(h.fin (by simpa using hfin)).1] at hwriting
      cases hwriting
    have hresult : c.handleWrite n = { c with conn := c.conn.handleWrite n } := by
      simp [Connection.handleWrite, attempt, hfin]
    rw [hresult]
    constructor
    · exact h.account
    · exact (TcpConnection.stream_handleWrite c.conn n).1.trans h.stream
    · exact h.interested.handleWrite n
    · simpa using h.state
    · rintro (hcall | hqueued | hsent)
      · simpa using h.closing (.inl hcall)
      · simpa using h.closing (.inr (.inl hqueued))
      · simpa using (finSent_handleWrite hsent hfin).1
    · intro hsent
      obtain ⟨hstate, hdrained, hoff⟩ := finSent_handleWrite hsent hfin
      exact ⟨hoff, hsettled hstate hwriting hdrained, rfl⟩
    · exact h.lateWrites
  · have hresult : c.handleWrite n = c := by
      simp [Connection.handleWrite, attempt, TcpConnection.handleWrite, hwriting]
    rwa [hresult]

end Operations

section Steps

theorem callOf_spec (h : c.callOf thread = some call) : call ∈ c.calls ∧ call.thread = thread :=
  ⟨List.mem_of_find?_eq_some h, by simpa using List.find?_some h⟩

-- The string of a call that goes on is handled in the step.
theorem sending_erase (hmem : call ∈ c.calls) :
    ((c.calls.erase call).filterMap Call.data ++ call.data.toList).Perm c.sending := by
  have hperm := (List.perm_cons_erase hmem).filterMap Call.data
  refine List.Perm.trans ?_ hperm.symm
  cases hdata : call.data with
  | none => simp [hdata]
  | some data =>
      rw [List.filterMap_cons_some hdata]
      exact List.perm_append_singleton data _

theorem Kept.erase (h : c.Kept []) (hmem : call ∈ c.calls) :
    ({ c with calls := c.calls.erase call } : Connection).Kept call.data.toList where
  account := by
    refine List.Perm.trans ?_ h.account
    simp only [List.append_nil, List.append_assoc]
    exact ((sending_erase hmem).append_left _).append_left _
  stream := h.stream
  interested := h.interested
  state := h.state
  closing := by
    rintro (⟨other, hother, hrequest⟩ | hrest)
    · exact h.closing (.inl ⟨other, List.mem_of_mem_erase hother, hrequest⟩)
    · exact h.closing (.inr hrest)
  fin hfin := by
    obtain ⟨hwriting, hsettled, -⟩ := h.fin hfin
    have hperm := sending_erase hmem
    rw [hsettled.2, List.perm_nil, List.append_eq_nil_iff] at hperm
    exact ⟨hwriting, ⟨hsettled.1, hperm.1⟩, hperm.2⟩
  lateWrites := h.lateWrites

theorem Kept.tail (h : c.Kept []) {functors : List Functor}
    (hfunctors : c.functors = cb :: functors) :
    ({ c with functors := functors } : Connection).Kept cb.data.toList where
  account := by
    refine List.Perm.trans ?_ h.account
    simp only [queued, hfunctors, List.append_nil, List.append_assoc]
    refine List.Perm.append_left _ ?_
    cases hdata : cb.data with
    | none => simp [hdata, sending]
    | some data =>
        rw [List.filterMap_cons_some hdata, ← List.append_assoc]
        exact List.perm_append_singleton data _
  stream := h.stream
  interested := h.interested
  state := h.state
  closing := by
    rintro (hcall | hmem | hfin)
    · exact h.closing (.inl hcall)
    · exact h.closing (.inr (.inl (hfunctors ▸ List.mem_cons_of_mem _ hmem)))
    · exact h.closing (.inr (.inr hfin))
  fin hfin := by
    obtain ⟨hwriting, hsettled, -⟩ := h.fin hfin
    have hqueued := hsettled.1
    rw [queued, hfunctors] at hqueued
    cases hdata : cb.data with
    | none => exact ⟨hwriting, ⟨by simpa [hdata, queued] using hqueued, hsettled.2⟩, rfl⟩
    | some data => simp [hdata] at hqueued
  lateWrites := h.lateWrites

theorem Kept.queueInLoop (h : c.Kept cb.data.toList)
    (hcb : cb = .shutdownInLoop → c.conn.state = .kDisconnecting) :
    (c.queueInLoop cb).Kept [] where
  account := by
    refine List.Perm.trans ?_ h.account
    have hqueued : (c.queueInLoop cb).queued = c.queued ++ cb.data.toList := by
      cases cb <;> simp [queued, Connection.queueInLoop, Functor.data]
    rw [hqueued]
    simp only [Connection.queueInLoop, sending, List.append_nil, List.append_assoc]
    exact (List.perm_append_comm.append_left _).append_left _
  stream := h.stream
  interested := h.interested
  state := h.state
  closing := by
    rintro (hcall | hmem | hfin)
    · exact h.closing (.inl hcall)
    · rcases List.mem_append.mp hmem with hmem | hmem
      · exact h.closing (.inr (.inl hmem))
      · exact hcb (List.mem_singleton.mp hmem).symm
    · exact h.closing (.inr (.inr hfin))
  fin hfin := by
    obtain ⟨hwriting, hsettled, hhandled⟩ := h.fin hfin
    have hdata : cb.data = none := by simpa using hhandled
    refine ⟨hwriting, ⟨?_, hsettled.2⟩, rfl⟩
    have hqueued := hsettled.1
    simp only [queued] at hqueued
    simp [queued, Connection.queueInLoop, hdata, hqueued]
  lateWrites := h.lateWrites

-- Where shutdownInLoop runs with nothing to write, whether called at once, from the queue
-- or by handleWrite, no accepted string is on its way.
def InOrder (c : Connection) : Event → Prop
  | .proceed thread _ =>
      thread = c.conn.loop → c.callOf thread = some ⟨thread, .shutdownInLoop⟩ →
        c.conn.isWriting = false → c.Settled
  | .run _ => c.functors.head? = some .shutdownInLoop → c.conn.isWriting = false → c.Settled
  | .writable n =>
      c.conn.state = .kDisconnecting → c.conn.isWriting = true →
        c.conn.outputBuffer.readableBytes ≤ n → c.Settled
  | _ => True

instance (c : Connection) : Decidable c.Settled :=
  inferInstanceAs (Decidable (c.queued = [] ∧ c.sending = []))

instance (c : Connection) (e : Event) : Decidable (c.InOrder e) :=
  match e with
  | .proceed thread _ =>
      inferInstanceAs
        (Decidable (thread = c.conn.loop → c.callOf thread = some ⟨thread, .shutdownInLoop⟩ →
          c.conn.isWriting = false → c.Settled))
  | .run _ =>
      inferInstanceAs
        (Decidable (c.functors.head? = some .shutdownInLoop → c.conn.isWriting = false →
          c.Settled))
  | .writable n =>
      inferInstanceAs
        (Decidable (c.conn.state = .kDisconnecting → c.conn.isWriting = true →
          c.conn.outputBuffer.readableBytes ≤ n → c.Settled))
  | .send _ _ | .shutdown _ => .isTrue trivial

theorem Kept.proceed (h : c.Kept []) (hgood : c.InOrder (.proceed thread result))
    (hcall : c.callOf thread = some call) (hallowed : c.Allowed result call.data) :
    (c.proceed thread result call).Kept [] := by
  obtain ⟨hmem, hthread⟩ := callOf_spec hcall
  have herase := h.erase hmem
  obtain ⟨_, request⟩ := call
  obtain rfl : _ = thread := hthread
  cases request with
  | send data =>
      simp only [Connection.proceed]
      split
      · exact Kept.sendInLoop herase hallowed
      · have hdata : Kept _ (Functor.sendInLoop data).data.toList := herase
        exact hdata.queueInLoop (by simp)
  | shutdown =>
      exact {
        account := herase.account
        stream := herase.stream
        interested := herase.interested
        state := .inr rfl
        closing := fun _ => rfl
        fin := herase.fin
        lateWrites := herase.lateWrites }
  | shutdownInLoop =>
      have hstate := h.closing (.inl ⟨_, hmem, rfl⟩)
      simp only [Connection.proceed]
      split
      · rename_i hloop
        refine Kept.shutdownInLoop herase hstate fun hwriting => ?_
        obtain ⟨hqueued, hsending⟩ := hgood hloop hcall hwriting
        have hperm := sending_erase hmem
        rw [hsending, List.perm_nil, List.append_eq_nil_iff] at hperm
        exact ⟨hqueued, hperm.1⟩
      · have hdata : Kept _ Functor.shutdownInLoop.data.toList := herase
        exact hdata.queueInLoop fun _ => hstate

theorem Kept.begin (h : c.Kept []) {request : Request} {more : List Bytes}
    (hmore : (Call.mk thread request).data.toList = more)
    (hrequest : request ≠ .shutdownInLoop) (hstate : c.conn.state = .kConnected) :
    ({ c with
      calls := c.calls ++ [⟨thread, request⟩]
      accepted := c.accepted ++ more } : Connection).Kept [] where
  account := by
    have hsending : (c.calls ++ [Call.mk thread request]).filterMap Call.data =
        c.sending ++ more := by
      rw [List.filterMap_append, ← hmore]
      cases hdata : (Call.mk thread request).data with
      | none => simp [hdata, sending]
      | some data => simp [hdata, sending]
    change (c.taken ++ c.queued ++ (c.calls ++ [Call.mk thread request]).filterMap Call.data ++
      []).Perm (c.accepted ++ more)
    rw [hsending, List.append_nil, ← List.append_assoc]
    have haccount := h.account
    rw [List.append_nil] at haccount
    exact haccount.append_right more
  stream := h.stream
  interested := h.interested
  state := h.state
  closing := by
    rintro (⟨call, hmem, heq⟩ | hrest)
    · rcases List.mem_append.mp hmem with hmem | hmem
      · exact h.closing (.inl ⟨call, hmem, heq⟩)
      · obtain rfl := List.mem_singleton.mp hmem
        exact absurd heq hrequest
    · exact h.closing (.inr hrest)
  fin hfin := by
    have hfin : c.conn.finSent = true := hfin
    rw [h.connected hstate] at hfin
    cases hfin
  lateWrites := h.lateWrites

theorem Kept.step (h : c.Kept []) (hgood : c.InOrder e) (hstep : Step c e c') : c'.Kept [] := by
  obtain ⟨hguard, rfl⟩ := hstep
  cases e with
  | send thread data =>
      simp only [next]
      split
      · rename_i hstate
        exact h.begin rfl (by simp) hstate
      · exact h
  | shutdown thread =>
      simp only [next]
      split
      · rename_i hstate
        have hbegin : Kept { c with
            calls := c.calls ++ [⟨thread, .shutdown⟩]
            accepted := c.accepted ++ [] } [] :=
          h.begin rfl (by simp) hstate
        simpa using hbegin
      · exact h
  | proceed thread result =>
      simp only [Guard] at hguard
      simp only [next]
      split
      · rename_i call hcall
        rw [hcall] at hguard
        exact h.proceed hgood hcall hguard
      · exact h
  | run result =>
      obtain ⟨-, hallowed⟩ := hguard
      simp only [next]
      split
      · rename_i data functors hfunctors
        rw [hfunctors] at hallowed
        exact Kept.sendInLoop (h.tail hfunctors) hallowed
      · rename_i functors hfunctors
        have htail := h.tail hfunctors
        refine Kept.shutdownInLoop htail ?_ fun hwriting => ?_
        · exact h.closing (.inr (.inl (by simp [hfunctors])))
        · obtain ⟨hqueued, hsending⟩ := hgood (by simp [hfunctors]) hwriting
          refine ⟨?_, hsending⟩
          simpa [queued, hfunctors, Functor.data] using hqueued
      · exact h
  | writable n => exact h.handleWrite hgood

theorem kept_established (loop : ThreadId) : (established loop).Kept [] where
  account := .nil
  stream := by simp [established, TcpConnection.stream, TcpConnection.new]
  interested := by simp [established, TcpConnection.Interested, TcpConnection.new]
  state := .inl rfl
  closing := by
    rintro (⟨call, hmem, -⟩ | hmem | hfin)
    · cases hmem
    · cases hmem
    · cases hfin
  fin hfin := by cases hfin
  lateWrites := rfl

-- Where shutdownInLoop waits for the strings that are on their way, every accepted string
-- is written before shutdownWrite, and nothing is written after it.
theorem written_before_shutdown {loop : ThreadId} {es : List Event}
    (hrun : Path (restrict InOrder Step) (established loop) es c) :
    (c.conn.finSent = true → c.taken.Perm c.accepted ∧ c.conn.written = c.taken.flatten) ∧
      c.lateWrites = 0 := by
  have hkept := hrun.invariant (fun c => c.Kept []) (fun _ _ _ h hstep => h.step hstep.1 hstep.2)
    (kept_established loop)
  refine ⟨fun hfin => ?_, hkept.lateWrites⟩
  obtain ⟨hwriting, ⟨hqueued, hsending⟩, -⟩ := hkept.fin hfin
  constructor
  · simpa [hqueued, hsending] using hkept.account
  · have hstream := hkept.stream
    rwa [TcpConnection.stream, hkept.interested.empty_iff.mp hwriting, List.append_nil] at hstream

end Steps

section Sample

-- A send on another thread puts its functor into the queue; then the loop thread shuts the
-- connection down at once.
def overtaken : List Event :=
  [.send 1 [7], .proceed 1 (.wrote 0), .shutdown 0, .proceed 0 (.wrote 0), .proceed 0 (.wrote 0)]

theorem shutdown_overtakes :
    (∃ c, Path Step (established 0) overtaken c ∧ c.accepted = [[7]] ∧ c.conn.finSent = true ∧
      c.conn.written = []) ∧
      ∃ c, Path Step (established 0) (overtaken ++ [.run (.failed .EPIPE)]) c ∧
        c.lateWrites = 1 := by
  constructor
  · exact ⟨_, path_of_guards (by decide), by decide⟩
  · exact ⟨_, path_of_guards (by decide), by decide⟩

-- Here the shutdown comes from the thread that has sent, and waits in the queue as well.
def queuedShutdown : List Event :=
  [.send 1 [7, 8], .proceed 1 (.wrote 0), .shutdown 1, .proceed 1 (.wrote 0),
    .proceed 1 (.wrote 0), .run (.wrote 1), .run (.wrote 0), .writable 1]

theorem written_queuedShutdown :
    ((play next (established 0) queuedShutdown).conn.finSent = true →
      (play next (established 0) queuedShutdown).taken.Perm
          (play next (established 0) queuedShutdown).accepted ∧
        (play next (established 0) queuedShutdown).conn.written =
          (play next (established 0) queuedShutdown).taken.flatten) ∧
      (play next (established 0) queuedShutdown).lateWrites = 0 := by
  have hplays : Plays (fun c e => c.InOrder e ∧ c.Guard e) next (established 0)
      queuedShutdown := by
    decide +kernel
  exact written_before_shutdown (path_of_plays (fun _ _ h => ⟨h.1, h.2, rfl⟩) hplays)

end Sample

end Connection

end MyTestserver.HalfClose
