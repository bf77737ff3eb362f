import MyTestserver.Queueing

namespace MyTestserver

open Transition

namespace Network

variable {s t : Network} {e : Event}

section Taken

-- Where the bytes of a call that was taken over come from: the string of a call on the
-- loop thread, or what the pointer and length of a functor from the queue refer to.
theorem Moves.taken_cases (h : Moves s t) {conn : ConnId} {entry : Taken}
    (hentry : entry ∈ t.taken conn) :
    entry ∈ s.taken conn ∨ ∃ data len stale, entry.bytes = s.store.load stale data len ∧
      (s.Issued data entry.call ∧ len = entry.call.buf.length ∧
          entry.call.thread = (s.conns conn).loop ∨
        ∃ loop, .sendInLoop conn data len entry.call ∈ (s.loops loop).queued) := by
  have happend : ∀ {other new}, t.taken = Function.update s.taken other (s.taken other ++ [new]) →
      entry ∈ s.taken conn ∨ conn = other ∧ entry = new := by
    intro other new htaken
    rw [htaken] at hentry
    by_cases hother : conn = other
    · subst hother
      simpa using hentry
    · rw [Function.update_of_ne hother] at hentry
      exact .inl hentry
  cases h with
  | quiet _ htaken => exact .inl (htaken ▸ hentry)
  | direct other data call stale hissued hthread _ htaken =>
      rcases happend htaken with hold | ⟨rfl, rfl⟩
      · exact .inl hold
      · exact .inr ⟨data, _, stale, rfl, .inl ⟨hissued, rfl, hthread⟩⟩
  | enqueue _ _ _ _ htaken => exact .inl (htaken ▸ hentry)
  | run loop cb rest hhead _ htaken =>
      rcases htaken with htaken | ⟨other, data, len, call, stale, rfl, htaken⟩
      · exact .inl (htaken ▸ hentry)
      rcases happend htaken with hold | ⟨rfl, rfl⟩
      · exact .inl hold
      · exact .inr ⟨data, len, stale, rfl, .inr ⟨loop, by simp [hhead]⟩⟩

-- A call on the loop thread is served before it returns, so its string is there.
def InLoop (s : Network) : Prop :=
  ∀ conn, ∀ entry ∈ s.taken conn,
    entry.call.thread = (s.conns conn).loop → entry.bytes = entry.call.buf

theorem InLoop.step (hin : s.InLoop) (h : s.Orderly) (hstep : Step s e t) : t.InLoop := by
  intro conn entry hentry hthread
  rw [(frame_step hstep).loop] at hthread
  rcases (moves_step h.arguments h.idle hstep).taken_cases hentry with
    hold | ⟨data, len, stale, hbytes, ⟨hissued, rfl, -⟩ | ⟨loop, hqueued⟩⟩
  · exact hin conn entry hold hthread
  · rw [hbytes, Store.load_eq hissued.holds]
  · obtain ⟨hloop, hother⟩ := h.routed loop conn data len entry.call hqueued
    exact absurd (hthread.trans hloop) hother

end Taken

section Queued

-- The strings that functors in the queue refer to are there as they were passed.
def Kept (s : Network) : Prop :=
  ∀ loop conn data len call, .sendInLoop conn data len call ∈ (s.loops loop).queued →
    len = call.buf.length ∧ s.store.Holds data call.buf

-- The callers leave such strings alone.
def KeepsQueued (s : Network) : Event → Prop
  | .memory store =>
      ∀ loop conn data len call, .sendInLoop conn data len call ∈ (s.loops loop).queued →
        store.Holds data call.buf
  | _ => True

theorem store_step (hstep : Step s e t) (hmemory : ∀ store, e ≠ .memory store) :
    t.store = s.store := by
  obtain ⟨-, rfl⟩ := hstep
  cases e with
  | memory store => exact absurd rfl (hmemory store)
  | send thread io conn data buf => exact (s.local_send io conn data _ _).store
  | shutdown thread io conn => exact (s.local_shutdown io conn thread).store
  | broadcast thread io =>
      simp only [next]
      split
      · split
        · unfold broadcastNext
          dsimp only
          split
          · exact (local_send _ io _ _ _ _).store
          · rfl
        · rfl
      · rfl
  | run thread io =>
      simp only [next]
      split
      · exact (local_exec _ io _).store
      · rfl
  | setState _ _ | setSessions _ | lock _ _ _ _ | unlock _ | swap _ | finish _ | writable _ _
  | wakeup _ => rfl

theorem Kept.step (hkept : s.Kept) (h : s.Orderly) (hgood : s.KeepsQueued e) (hstep : Step s e t) :
    t.Kept := by
  intro loop conn data len call hmem
  have hbefore : len = call.buf.length ∧ s.store.Holds data call.buf := by
    rcases (moves_step h.arguments h.idle hstep).queued_cases hmem with hold | ⟨hissued, hlen, -⟩
    · exact hkept loop conn data len call hold
    · exact ⟨hlen, hissued.holds⟩
  by_cases hmemory : ∃ store, e = .memory store
  · obtain ⟨store, rfl⟩ := hmemory
    obtain ⟨-, rfl⟩ := hstep
    exact ⟨hbefore.1, hgood loop conn data len call hmem⟩
  · rw [store_step hstep fun store he => hmemory ⟨store, he⟩]
    exact hbefore

def Faithful (s : Network) : Prop :=
  ∀ conn, ∀ entry ∈ s.taken conn, entry.bytes = entry.call.buf

theorem Faithful.step (hfaithful : s.Faithful) (hkept : s.Kept) (h : s.Orderly)
    (hstep : Step s e t) : t.Faithful := by
  intro conn entry hentry
  rcases (moves_step h.arguments h.idle hstep).taken_cases hentry with
    hold | ⟨data, len, stale, hbytes, ⟨hissued, rfl, -⟩ | ⟨loop, hqueued⟩⟩
  · exact hfaithful conn entry hold
  · rw [hbytes, Store.load_eq hissued.holds]
  · obtain ⟨rfl, hholds⟩ := hkept loop conn data len entry.call hqueued
    rw [hbytes, Store.load_eq hholds]

theorem faithful_run {loopOf : ConnId → ThreadId} {es : List Event}
    (hgood : Path (restrict KeepsQueued Step) (start loopOf) es s) : s.Faithful := by
  have hinv : s.Faithful ∧ s.Kept ∧ s.Orderly :=
    hgood.invariant (fun s => s.Faithful ∧ s.Kept ∧ s.Orderly)
      (fun _ _ _ hs hstep => ⟨hs.1.step hs.2.1 hs.2.2 hstep.2,
        hs.2.1.step hs.2.2 hstep.1 hstep.2, hs.2.2.step hstep.2⟩)
      ⟨fun _ _ hentry => absurd hentry (by simp [start]),
        fun _ _ _ _ _ hmem => absurd hmem (by simp [start, EventLoop.queued]),
        orderly_start loopOf⟩
  exact hinv.1

-- On the loop thread sendInLoop always gets the bytes of the call. On other threads it
-- does as long as the callers keep their strings until the functors have run.
theorem sent_as_passed {loopOf : ConnId → ThreadId} {es : List Event}
    (hrun : Path Step (start loopOf) es s) :
    s.InLoop ∧ (Path (restrict KeepsQueued Step) (start loopOf) es s → s.Faithful) := by
  constructor
  · have hinv : s.InLoop ∧ s.Orderly := hrun.invariant (fun s => s.InLoop ∧ s.Orderly)
      (fun _ _ _ hs hstep => ⟨hs.1.step hs.2 hstep, hs.2.step hstep⟩)
      ⟨fun _ _ hentry => absurd hentry (by simp [start]), orderly_start loopOf⟩
    exact hinv.1
  · exact faithful_run

end Queued

section Sample

-- A thread for each connection, and a socket that takes all it is given.

def sampleNet : Network := start id

def sampleIo : Io := ⟨.wrote 65536, fun _ => 0⟩

def stored (text : String) : Store := fun address => (ascii text)[address]?

-- Thread 2 sends to the connection of thread 1, and uses its string for something else
-- before the functor runs, or does not.
def crossSend (after : String) : List Event :=
  [.setState 1 .kConnected, .memory (stored "hi"), .send 2 sampleIo 1 0 (ascii "hi"),
    .memory (stored after), .swap 1, .run 1 sampleIo]

theorem sent_as_passed_kept : (play next sampleNet (crossSend "hi")).Faithful := by
  have hguards : Plays Guard next sampleNet (crossSend "hi") := by decide
  have hrun : Path Step sampleNet (crossSend "hi") (play next sampleNet (crossSend "hi")) :=
    path_of_guards hguards
  let sent : Network := play next sampleNet ((crossSend "hi").take 3)
  have hqueued : ∀ loop, (sent.loops loop).queued =
      if loop = 1 then [.sendInLoop 1 0 2 ⟨2, ascii "hi", none⟩] else [] := by
    intro loop
    by_cases hloop : loop = 1
    · subst hloop
      decide
    · simp [sent, crossSend, play, next, send, setState, updateConn, runInLoop, queueInLoop,
        updateLoop, sampleNet, start, EventLoop.queued, TcpConnection.new, hloop]
  have hkeeps : sent.KeepsQueued (.memory (stored "hi")) := by
    intro loop conn data len call hmem
    rw [hqueued] at hmem
    split at hmem
    · cases List.mem_singleton.mp hmem
      decide
    · cases hmem
  have hempty : (play next sampleNet ((crossSend "hi").take 1)).KeepsQueued
      (.memory (stored "hi")) := by
    intro loop conn data len call hmem
    cases hmem
  obtain ⟨hg1, hg2, hg3, hg4, hg5, hg6, -⟩ := hguards
  have hgood : Path (restrict KeepsQueued Step) sampleNet (crossSend "hi")
      (play next sampleNet (crossSend "hi")) :=
    .cons ⟨trivial, hg1, rfl⟩ <| .cons ⟨hempty, hg2, rfl⟩ <|
      .cons ⟨trivial, hg3, rfl⟩ <| .cons ⟨hkeeps, hg4, rfl⟩ <| .cons ⟨trivial, hg5, rfl⟩ <|
      .cons ⟨trivial, hg6, rfl⟩ <| .nil _
  exact (sent_as_passed hrun).2 hgood

-- A functor reads the string when it runs, whatever it is by then.
theorem sent_overwritten :
    ¬∀ (es : List Event) (s : Network), Path Step sampleNet es s → s.Faithful := by
  intro h
  have hplays : Plays Guard next sampleNet (crossSend "no") := by decide
  have hrun : Path Step sampleNet (crossSend "no") (play next sampleNet (crossSend "no")) :=
    path_of_guards hplays
  have htaken : (play next sampleNet (crossSend "no")).taken 1 =
      [⟨⟨2, ascii "hi", none⟩, ascii "no", []⟩] := by decide
  have hbytes := h _ _ hrun 1 _ (by rw [htaken]; exact List.mem_singleton.mpr rfl)
  exact absurd hbytes (by decide)

end Sample

end Network

end MyTestserver
