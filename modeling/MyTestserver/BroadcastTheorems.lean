import MyTestserver.SendTheorems

namespace MyTestserver

open Transition

namespace Network

section Order

variable {s : Network}

-- Broadcasts are numbered in the order in which they held the mutex.
def Receives (s : Network) (conn : ConnId) (n : ℕ) : Prop :=
  ∃ entry ∈ s.taken conn, entry.call.number = some n

-- The connection does not get broadcast `n` before broadcast `m`.
def InOrder (s : Network) (conn : ConnId) (m n : ℕ) : Prop :=
  (s.taken conn).Pairwise fun first second =>
    ¬(first.call.number = some n ∧ second.call.number = some m)

-- Broadcast `n` was made on the loop thread of the connection, while a functor for
-- broadcast `m` from another thread was still in the queue there.
def Overtaken (s : Network) (conn : ConnId) (m n : ℕ) : Prop :=
  ∃ entry ∈ s.taken conn, entry.call.number = some n ∧
    entry.call.thread = (s.conns conn).loop ∧
    ∃ call ∈ entry.waiting, call.number = some m ∧ call.thread ≠ (s.conns conn).loop

instance (conn : ConnId) (n : ℕ) : Decidable (s.Receives conn n) := by
  unfold Receives
  infer_instance

instance (conn : ConnId) (m n : ℕ) : Decidable (s.InOrder conn m n) := by
  unfold InOrder
  infer_instance

theorem Orderly.inOrder_or_overtaken (h : s.Orderly) (conn : ConnId) {m n : ℕ} (hmn : m < n) :
    s.InOrder conn m n ∨ s.Overtaken conn m n := by
  by_cases hovertaken : s.Overtaken conn m n
  · exact .inr hovertaken
  left
  have hordered := (h.ordered conn).taken
  simp only [lane, List.pairwise_map] at hordered
  refine hordered.imp_of_mem ?_
  rintro first second hfirst - hfair ⟨hn, hm⟩
  rcases hfair with hnot | ⟨hdirect, hwaiting⟩
  · exact absurd (hnot n m hn hm) (Nat.not_le.mpr hmn)
  · exact hovertaken ⟨first, hfirst, hn, of_decide_eq_true hdirect, second.call, hwaiting, hm,
      h.noted conn first hfirst second.call hwaiting⟩

-- Two receivers agree with the order of the mutex, and so with each other, unless one of
-- them is on the loop that made the later broadcast and had the earlier one in its queue.
-- What goes out on a connection goes out in this order.
theorem receivers_agree {loopOf : ConnId → ThreadId} {es : List Event}
    (hrun : Path Step (start loopOf) es s) (x y : ConnId) {m n : ℕ} (hmn : m < n) :
    (∀ conn, (s.conns conn).stream = (s.taken conn).flatMap Taken.bytes) ∧
      (s.InOrder x m n ∧ s.InOrder y m n ∨ s.Overtaken x m n ∨ s.Overtaken y m n) := by
  have horderly := orderly_run hrun
  refine ⟨horderly.delivered, ?_⟩
  rcases horderly.inOrder_or_overtaken x hmn with hx | hx
  · rcases horderly.inOrder_or_overtaken y hmn with hy | hy
    · exact .inl ⟨hx, hy⟩
    · exact .inr (.inr hy)
  · exact .inr (.inl hx)

end Order

section Sample

def sampleSessions : Sessions :=
  SessionManager.addSession (SessionManager.addSession ∅ (ascii "alice") 1 0) (ascii "bob") 2 0

def broadcastOf (thread : ThreadId) (data : Address) (message : String) : List Event :=
  [.lock thread data (ascii message) [], .broadcast thread sampleIo, .broadcast thread sampleIo,
    .unlock thread]

def turnOf (thread : ThreadId) : List Event :=
  [.swap thread, .run thread sampleIo, .finish thread]

-- Two threads broadcast, each to its own connection and to that of the other, and the
-- loops serve their queues between the two broadcasts, or after them.
def meetingEvents (between after : List Event) : List Event :=
  [.memory (stored "ab"), .setState 1 .kConnected, .setState 2 .kConnected,
    .setSessions sampleSessions] ++
  broadcastOf 1 0 "a" ++ between ++ broadcastOf 2 1 "b" ++ after

theorem receivers_agree_served :
    let s := play next sampleNet (meetingEvents (turnOf 2) (turnOf 1))
    s.Receives 1 0 ∧ s.Receives 1 1 ∧ s.Receives 2 0 ∧ s.Receives 2 1 ∧
      (s.InOrder 1 0 1 ∧ s.InOrder 2 0 1 ∨ s.Overtaken 1 0 1 ∨ s.Overtaken 2 0 1) := by
  have hrun : Path Step sampleNet (meetingEvents (turnOf 2) (turnOf 1)) _ :=
    path_of_guards (by decide)
  exact ⟨by decide, by decide, by decide, by decide,
    (receivers_agree hrun 1 2 Nat.zero_lt_one).2⟩

-- Without the turn between them each connection gets the broadcast of its own thread
-- first.
theorem receivers_disagree :
    ¬∀ (es : List Event) (s : Network) (x y : ConnId) (m n : ℕ), Path Step sampleNet es s →
      m < n → s.Receives x m → s.Receives x n → s.Receives y m → s.Receives y n →
      s.InOrder x m n ∧ s.InOrder y m n := by
  intro h
  have hrun : Path Step sampleNet (meetingEvents [] (turnOf 1 ++ turnOf 2)) _ :=
    path_of_guards (by decide)
  have hagree := h _ _ 1 2 0 1 hrun Nat.zero_lt_one (by decide) (by decide)
    (by decide) (by decide)
  exact absurd hagree.2 (by decide)

end Sample

end Network

end MyTestserver
