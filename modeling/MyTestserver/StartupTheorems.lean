import MyTestserver.Startup

namespace MyTestserver.Startup

open Transition

section Ranks

-- How far a thread is.
def Place.rank : Place → ℕ
  | .unborn => 0
  | .tid => 1
  | .sem_post => 2
  | .construct => 3
  | .lock => 4
  | .publish => 5
  | .notify => 6
  | .unlock => 7
  | .loop => 8

-- What a thread has yet to do, and 3 more as long as it may wake up startLoop.
def Place.left : Place → ℕ
  | .unborn => 0
  | .tid => 10
  | .sem_post => 9
  | .construct => 8
  | .lock => 7
  | .publish => 6
  | .notify => 5
  | .unlock => 1
  | .loop => 0

-- The same for the caller, if nothing wakes it up before the loop is there.
def Caller.left : Caller → ℕ
  | .idle => 3
  | .round => 2
  | .sem_wait => 8
  | .lock => 7
  | .test => 6
  | .wait => 5
  | .relock => 7
  | .unlock _ => 4
  | .push _ => 3
  | .listen => 1
  | .listening => 0

def Place.Locked (place : Place) : Prop := 5 ≤ place.rank ∧ place.rank ≤ 7

instance (place : Place) : Decidable place.Locked := inferInstanceAs (Decidable (_ ∧ _))

-- In the middle of a round, with a thread that is being started.
def Caller.Busy : Caller → Prop
  | .idle | .round | .listen | .listening => False
  | _ => True

instance (caller : Caller) : Decidable caller.Busy := by
  unfold Caller.Busy
  split <;> infer_instance

def Caller.Locked : Caller → Prop
  | .test | .unlock _ => True
  | _ => False

instance (caller : Caller) : Decidable caller.Locked := by
  unfold Caller.Locked
  split <;> infer_instance

-- startLoop has read this from loop_.
def Caller.Got (loop : ThreadId) : Caller → Prop
  | .unlock loop' | .push loop' => loop' = loop
  | _ => False

end Ranks

-- The thread that starts and the one that waits for it.
structure Handshake (t : ThreadId) (caller : Caller) (thread : EventLoopThread) : Prop where
  started : thread.started = true
  born : 1 ≤ thread.place.rank
  tid : thread.tid = if 2 ≤ thread.place.rank then some t else none
  sem : thread.sem = if caller = .sem_wait ∧ 3 ≤ thread.place.rank then 1 else 0
  posted : caller ≠ .sem_wait → 3 ≤ thread.place.rank
  loop : thread.loop = if 6 ≤ thread.place.rank then some t else none
  mutex : thread.mutex =
    if caller.Locked then some .startLoop
    else if thread.place.Locked then some .threadFunc else none
  apart : caller.Locked → ¬thread.place.Locked
  asleep : caller = .wait → thread.place.rank ≤ 6
  got : ∀ loop, caller.Got loop → loop = t ∧ thread.place = .loop

-- A thread that runs its loop, and of which startLoop has returned the loop.
structure Started (t : ThreadId) (thread : EventLoopThread) : Prop where
  place : thread.place = .loop
  started : thread.started = true
  tid : thread.tid = some t
  loop : thread.loop = some t
  mutex : thread.mutex = none

namespace Handshake

variable {t loop : ThreadId} {caller : Caller} {thread : EventLoopThread}

theorem start (t : ThreadId) : Handshake t .sem_wait EventLoopThread.new.start where
  started := rfl
  born := Nat.le_refl 1
  tid := rfl
  sem := rfl
  posted h := absurd rfl h
  loop := rfl
  mutex := rfl
  apart h := h.elim
  asleep h := by cases h
  got _ h := h.elim

-- Woken up, for whatever reason, startLoop has to take the lock again.
theorem wake (h : Handshake t .wait thread) : Handshake t .relock thread where
  started := h.started
  born := h.born
  tid := h.tid
  sem := h.sem
  posted _ := h.posted (by simp)
  loop := h.loop
  mutex := h.mutex
  apart hlocked := hlocked.elim
  asleep hwait := by cases hwait
  got _ hgot := hgot.elim

-- The thread goes on. When it notifies, startLoop does not sleep or has just been woken up.
theorem advance (h : Handshake t caller thread) (hready : thread.Ready)
    (hawake : thread.place = .notify → caller ≠ .wait) : Handshake t caller (thread.next t) := by
  obtain ⟨place, started, tid, sem, mutex, loop⟩ := thread
  obtain ⟨hstarted, hborn, htid, hsem, hposted, hloop, hmutex, hapart, hasleep, hgot⟩ := h
  cases place with
  | unborn => exact hready.elim
  | loop => exact hready.elim
  | _ =>
      constructor <;>
        simp_all [EventLoopThread.next, EventLoopThread.Ready, Place.rank, Place.Locked]

-- Past the semaphore.
theorem semWait (h : Handshake t .sem_wait thread) (hsem : 0 < thread.sem) :
    Handshake t .lock { thread with sem := thread.sem - 1 } := by
  have hone := h.sem
  have hposted : 3 ≤ thread.place.rank := by
    by_contra hnot
    rw [if_neg fun hboth => hnot hboth.2] at hone
    omega
  rw [if_pos ⟨rfl, hposted⟩] at hone
  refine ⟨h.started, h.born, h.tid, ?_, fun _ => hposted, h.loop, h.mutex,
    fun hlocked => hlocked.elim, fun hwait => absurd hwait (by simp), fun _ hgot => hgot.elim⟩
  simp [hone]

theorem lock (h : Handshake t caller thread) (hcaller : caller = .lock ∨ caller = .relock)
    (hfree : thread.mutex = none) :
    Handshake t .test { thread with mutex := some .startLoop } := by
  have hposted : 3 ≤ thread.place.rank := h.posted (by rcases hcaller with rfl | rfl <;> simp)
  have hunlocked : ¬thread.place.Locked := by
    intro hlocked
    have hmutex := h.mutex
    rw [hfree, if_pos hlocked] at hmutex
    split at hmutex
    · cases hmutex
    · cases hmutex
  have hsem : thread.sem = 0 := by
    rw [h.sem, if_neg]
    rcases hcaller with rfl | rfl <;> simp
  exact ⟨h.started, h.born, h.tid, hsem, fun _ => hposted, h.loop, rfl, fun _ => hunlocked,
    fun hwait => absurd hwait (by simp), fun _ hgot => hgot.elim⟩

-- loop_ is not there: startLoop gives up the lock and sleeps, before it can be notified.
theorem sleep (h : Handshake t .test thread) (hloop : thread.loop = none) :
    Handshake t .wait { thread with mutex := none } := by
  have hunlocked := h.apart trivial
  have hrank : thread.place.rank < 6 := by
    by_contra hnot
    have hset := h.loop
    rw [hloop, if_pos (Nat.le_of_not_lt hnot)] at hset
    cases hset
  have hmutex : (none : Option Holder) =
      if thread.place.Locked then some .threadFunc else none := by
    rw [if_neg hunlocked]
  exact ⟨h.started, h.born, h.tid, h.sem, fun _ => h.posted (by simp), h.loop, hmutex,
    fun hlocked => hlocked.elim, fun _ => Nat.le_of_lt hrank, fun _ hgot => hgot.elim⟩

-- loop_ is there: the thread has unlocked and is on its way into the loop.
theorem find (h : Handshake t .test thread) (hloop : thread.loop = some loop) :
    Handshake t (.unlock loop) thread := by
  have hset := h.loop
  rw [hloop] at hset
  have hrank : 6 ≤ thread.place.rank := by
    by_contra hnot
    rw [if_neg hnot] at hset
    cases hset
  rw [if_pos hrank] at hset
  have hplace : thread.place = .loop := by
    have hunlocked := h.apart trivial
    unfold Place.Locked at hunlocked
    cases hplace : thread.place with
    | loop => rfl
    | _ =>
        rw [hplace] at hrank hunlocked
        simp only [Place.rank] at hrank hunlocked
        omega
  refine ⟨h.started, h.born, h.tid, h.sem, fun _ => h.posted (by simp), h.loop, h.mutex,
    fun _ => h.apart trivial, fun hwait => absurd hwait (by simp), fun loop' hgot => ?_⟩
  obtain rfl : loop = loop' := hgot
  exact ⟨Option.some.inj hset, hplace⟩

theorem release (h : Handshake t (.unlock loop) thread) :
    Handshake t (.push loop) { thread with mutex := none } := by
  have hmutex : (none : Option Holder) =
      if thread.place.Locked then some .threadFunc else none := by
    rw [if_neg (h.apart trivial)]
  exact ⟨h.started, h.born, h.tid, h.sem, fun _ => h.posted (by simp), h.loop, hmutex,
    fun hlocked => hlocked.elim, fun hwait => absurd hwait (by simp), h.got⟩

theorem finish (h : Handshake t (.push loop) thread) : loop = t ∧ Started t thread := by
  obtain ⟨hloop, hplace⟩ := h.got loop rfl
  have hmutex := h.mutex
  have htid := h.tid
  have hset := h.loop
  rw [hplace] at hmutex htid hset
  exact ⟨hloop, hplace, h.started, htid, hset, hmutex⟩

theorem thread_ready (hborn : 1 ≤ thread.place.rank) (hrank : thread.place.rank ≤ 7)
    (hlock : thread.place = .lock → thread.mutex = none) : thread.Ready := by
  unfold EventLoopThread.Ready
  cases hplace : thread.place with
  | unborn =>
      rw [hplace] at hborn
      simp [Place.rank] at hborn
  | loop =>
      rw [hplace] at hrank
      simp [Place.rank] at hrank
  | lock => exact hlock hplace
  | _ => trivial

theorem mutex_of_lock (h : Handshake t caller thread) (hcaller : ¬caller.Locked)
    (hlock : thread.place = .lock) : thread.mutex = none := by
  rw [h.mutex, if_neg hcaller, hlock]
  rfl

-- One of the two can always go on.
theorem ready (h : Handshake t caller thread) (hbusy : caller.Busy) :
    caller.Ready thread ∨ thread.Ready := by
  have hfree : ¬caller.Locked → thread.mutex = none ∨ thread.Ready := by
    intro hcaller
    by_cases hlocked : thread.place.Locked
    · exact .inr (thread_ready h.born hlocked.2 (h.mutex_of_lock hcaller))
    · left
      rw [h.mutex, if_neg hcaller, if_neg hlocked]
  cases caller with
  | idle | round | listen | listening => exact hbusy.elim
  | test | unlock loop | push loop => exact .inl trivial
  | sem_wait =>
      by_cases hposted : 3 ≤ thread.place.rank
      · left
        have hsem := h.sem
        rw [if_pos ⟨rfl, hposted⟩] at hsem
        exact Nat.lt_of_lt_of_eq Nat.zero_lt_one hsem.symm
      · refine .inr (thread_ready h.born (by omega) fun hlock => ?_)
        rw [hlock] at hposted
        exact absurd (by decide) hposted
  | lock => exact hfree id
  | relock => exact hfree id
  | wait =>
      have hrank := h.asleep rfl
      exact .inr (thread_ready h.born (by omega) (h.mutex_of_lock id))

end Handshake

namespace TcpServer

variable {s s' : TcpServer} {e : Event} {es : List Event} {t : ThreadId} {caller : Caller}
  {thread : EventLoopThread}

-- All threads but the last are through, and the last one is if no round is under way.
structure Inv (s : TcpServer) : Prop where
  fresh : ∀ t, s.made ≤ t → s.threads t = .new
  done : ∀ t < s.loops.length, Started t (s.threads t)
  loops : s.loops = List.range s.loops.length
  made : s.made = s.loops.length + if s.caller.Busy then 1 else 0
  handshake : s.caller.Busy → Handshake s.current s.caller (s.threads s.current)
  bound : s.made ≤ s.numThreads.toNat
  complete : s.caller = .listen ∨ s.caller = .listening → s.made = s.numThreads.toNat
  listens : s.listens = if s.caller = .listening then 1 else 0
  idle : s.caller = .idle ↔ s.started = 0

theorem Inv.made_of_busy (h : s.Inv) (hbusy : s.caller.Busy) : s.made = s.loops.length + 1 := by
  rw [h.made, if_pos hbusy]

theorem Inv.current_eq (h : s.Inv) (hbusy : s.caller.Busy) : s.current = s.loops.length := by
  rw [current, h.made_of_busy hbusy, Nat.add_sub_cancel]

theorem Inv.started_ne (h : s.Inv) (hcaller : s.caller ≠ .idle) : s.started ≠ 0 :=
  fun hzero => hcaller (h.idle.mpr hzero)

-- A step of the two that are at the handshake.
theorem Inv.update (h : s.Inv) (hbusy : s.caller.Busy) (hbusy' : caller.Busy)
    (hshake : Handshake s.current caller thread) :
    ({ s.setThread s.current thread with caller := caller } : TcpServer).Inv := by
  have hcurrent := h.current_eq hbusy
  have hmade := h.made_of_busy hbusy
  have hbusy_ne : ∀ {c : Caller}, ¬c.Busy → caller ≠ c := fun hc heq => hc (heq ▸ hbusy')
  refine ⟨fun t ht => ?_, fun t ht => ?_, h.loops, ?_, fun _ => ?_, h.bound, ?_, ?_, ?_⟩
  · have hne : t ≠ s.current := by
      rw [hcurrent]
      rintro rfl
      have hle : s.made ≤ s.loops.length := ht
      omega
    exact (Function.update_of_ne hne _ _).trans (h.fresh t ht)
  · have hne : t ≠ s.current := by
      rw [hcurrent]
      exact Nat.ne_of_lt ht
    have hsame : ({ s.setThread s.current thread with caller := caller } : TcpServer).threads t =
        s.threads t := Function.update_of_ne hne _ _
    rw [hsame]
    exact h.done t ht
  · change s.made = s.loops.length + if caller.Busy then 1 else 0
    rw [if_pos hbusy', hmade]
  · change Handshake s.current caller (Function.update s.threads s.current thread s.current)
    rw [Function.update_self]
    exact hshake
  · rintro (hlisten | hlisten)
    · exact absurd hlisten (hbusy_ne (by simp [Caller.Busy]))
    · exact absurd hlisten (hbusy_ne (by simp [Caller.Busy]))
  · have hlistens := h.listens
    rw [if_neg (by rintro heq; rw [heq] at hbusy; exact hbusy)] at hlistens
    exact hlistens.trans (if_neg (hbusy_ne (by simp [Caller.Busy]))).symm
  · have hidle : s.caller ≠ .idle := by
      intro heq
      rw [heq] at hbusy
      exact hbusy
    exact iff_of_false (hbusy_ne (by simp [Caller.Busy])) (h.started_ne hidle)

theorem setThread_self (s : TcpServer) (t : ThreadId) : s.setThread t (s.threads t) = s := by
  rw [setThread, Function.update_eq_self]

theorem Inv.create (h : s.Inv) (hcaller : s.caller = .round) (hmore : s.made < s.numThreads) :
    s.create.Inv := by
  have hbusy : ¬s.caller.Busy := by simp [hcaller, Caller.Busy]
  have hmade : s.made = s.loops.length := by rw [h.made, if_neg hbusy, Nat.add_zero]
  have hnew : s.threads s.made = .new := h.fresh s.made (Nat.le_refl _)
  refine ⟨fun t ht => ?_, fun t ht => ?_, h.loops, ?_, fun _ => ?_, ?_, ?_, ?_, ?_⟩
  · have hlt : s.made < t := ht
    exact (Function.update_of_ne (Nat.ne_of_gt hlt) _ _).trans (h.fresh t (Nat.le_of_lt hlt))
  · have hlt : t < s.loops.length := ht
    have hne : t ≠ s.made := Nat.ne_of_lt (hmade ▸ hlt)
    have hsame : s.create.threads t = s.threads t := Function.update_of_ne hne _ _
    rw [hsame]
    exact h.done t hlt
  · exact congrArg (· + 1) hmade
  · change Handshake (s.made + 1 - 1) .sem_wait
      (Function.update s.threads s.made (s.threads s.made).start (s.made + 1 - 1))
    rw [Nat.add_sub_cancel, Function.update_self, hnew]
    exact .start _
  · change s.made + 1 ≤ s.numThreads.toNat
    omega
  · rintro (hlisten | hlisten)
    · cases hlisten
    · cases hlisten
  · have hlistens := h.listens
    rw [hcaller] at hlistens
    exact hlistens
  · exact iff_of_false (by rintro ⟨⟩) (h.started_ne (by simp [hcaller]))

-- Between two rounds only the caller moves.
theorem Inv.move (h : s.Inv) (hbusy : ¬s.caller.Busy) {started listens : ℕ} (hcaller : ¬caller.Busy)
    (hover : caller = .listen ∨ caller = .listening → s.made = s.numThreads.toNat)
    (hlistens : listens = if caller = .listening then 1 else 0)
    (hidle : caller = .idle ↔ started = 0) :
    ({ s with started := started, caller := caller, listens := listens } : TcpServer).Inv where
  fresh := h.fresh
  done := h.done
  loops := h.loops
  made := by
    change s.made = s.loops.length + if caller.Busy then 1 else 0
    rw [h.made, if_neg hbusy, if_neg hcaller]
  handshake hb := absurd hb hcaller
  bound := h.bound
  complete := hover
  listens := hlistens
  idle := hidle

theorem Inv.push {loop : ThreadId} (h : s.Inv) (hcaller : s.caller = .push loop) :
    ({ s with loops := s.loops ++ [loop], caller := .round } : TcpServer).Inv := by
  have hbusy : s.caller.Busy := by simp [hcaller, Caller.Busy]
  have hshake := h.handshake hbusy
  rw [hcaller] at hshake
  obtain ⟨rfl, hstarted⟩ := hshake.finish
  have hcurrent := h.current_eq hbusy
  refine ⟨h.fresh, fun t ht => ?_, ?_, ?_, fun hb => hb.elim, h.bound, ?_, ?_, ?_⟩
  · have hle : t < s.loops.length + 1 := by simpa using ht
    rcases Nat.lt_succ_iff_lt_or_eq.mp hle with hlt | rfl
    · exact h.done t hlt
    · rw [hcurrent] at hstarted
      exact hstarted
  · change s.loops ++ [s.current] = List.range (s.loops ++ [s.current]).length
    rw [List.length_append, List.length_singleton, List.range_succ, ← h.loops, hcurrent]
  · change s.made = (s.loops ++ [s.current]).length + 0
    rw [List.length_append, List.length_singleton]
    exact h.made_of_busy hbusy
  · rintro (hlisten | hlisten)
    · cases hlisten
    · cases hlisten
  · have hlistens := h.listens
    rw [hcaller] at hlistens
    exact hlistens
  · exact iff_of_false (by rintro ⟨⟩) (h.started_ne (by simp [hcaller]))

theorem Inv.callerNext (h : s.Inv) (hready : s.caller.Ready (s.threads s.current)) :
    s.callerNext.Inv := by
  have hshake := h.handshake
  have hover := h.complete
  have hlistens := h.listens
  unfold TcpServer.callerNext
  cases hcaller : s.caller with
  | idle | wait | listening =>
      rw [hcaller] at hready
      exact hready.elim
  | round =>
      dsimp only
      split
      · rename_i hmore
        exact h.create hcaller hmore
      · rename_i hless
        refine h.move (by simp [hcaller, Caller.Busy]) (by simp [Caller.Busy]) (fun _ => ?_) ?_ ?_
        · have hbound := h.bound
          omega
        · simpa [hcaller] using hlistens
        · exact iff_of_false (by rintro ⟨⟩) (h.started_ne (by simp [hcaller]))
  | sem_wait =>
      have hbusy : s.caller.Busy := by simp [hcaller, Caller.Busy]
      have hshake := hshake hbusy
      rw [hcaller] at hready hshake
      exact h.update hbusy trivial (hshake.semWait hready)
  | lock =>
      have hbusy : s.caller.Busy := by simp [hcaller, Caller.Busy]
      rw [hcaller] at hready
      exact h.update hbusy trivial ((hshake hbusy).lock (.inl hcaller) hready)
  | relock =>
      have hbusy : s.caller.Busy := by simp [hcaller, Caller.Busy]
      rw [hcaller] at hready
      exact h.update hbusy trivial ((hshake hbusy).lock (.inr hcaller) hready)
  | test =>
      have hbusy : s.caller.Busy := by simp [hcaller, Caller.Busy]
      have hshake := hshake hbusy
      rw [hcaller] at hshake
      dsimp only
      cases hloop : (s.threads s.current).loop with
      | none => exact h.update hbusy trivial (hshake.sleep hloop)
      | some loop =>
          have hgot : (Caller.unlock loop).Busy := trivial
          have hfound := h.update hbusy hgot (hshake.find hloop)
          rwa [setThread_self] at hfound
  | unlock loop =>
      have hbusy : s.caller.Busy := by simp [hcaller, Caller.Busy]
      have hshake := hshake hbusy
      rw [hcaller] at hshake
      exact h.update hbusy trivial hshake.release
  | push loop => exact h.push hcaller
  | listen =>
      refine h.move (by simp [hcaller, Caller.Busy]) (by simp [Caller.Busy])
        (fun _ => hover (.inl hcaller)) ?_ ?_
      · rw [hlistens, hcaller]
        rfl
      · exact iff_of_false (by rintro ⟨⟩) (h.started_ne (by simp [hcaller]))

theorem Inv.of_ready (h : s.Inv) (hready : (s.threads t).Ready) :
    s.caller.Busy ∧ t = s.current := by
  have hmade : t < s.made := by
    by_contra hnot
    rw [h.fresh t (Nat.le_of_not_lt hnot)] at hready
    exact hready
  have hlast : ¬t < s.loops.length := by
    intro hlt
    unfold EventLoopThread.Ready at hready
    rw [(h.done t hlt).place] at hready
    exact hready
  by_cases hbusy : s.caller.Busy
  · have hle : t < s.loops.length + 1 := h.made_of_busy hbusy ▸ hmade
    refine ⟨hbusy, ?_⟩
    rw [h.current_eq hbusy]
    exact Nat.le_antisymm (Nat.le_of_lt_succ hle) (Nat.le_of_not_lt hlast)
  · have hcount := h.made
    rw [if_neg hbusy, Nat.add_zero] at hcount
    exact absurd (hcount ▸ hmade) hlast

theorem Inv.threadNext (h : s.Inv) (hready : (s.threads t).Ready) : (s.threadNext t).Inv := by
  obtain ⟨hbusy, rfl⟩ := h.of_ready hready
  have hshake := h.handshake hbusy
  unfold TcpServer.threadNext
  dsimp only
  by_cases hwoken : (s.threads s.current).place = .notify ∧ s.caller = .wait
  · rw [if_pos ⟨hwoken.1, hwoken.2, rfl⟩]
    rw [hwoken.2] at hshake
    exact h.update hbusy trivial (hshake.wake.advance hready (by simp))
  · rw [if_neg fun hall => hwoken ⟨hall.1, hall.2.1⟩]
    exact h.update hbusy hbusy (hshake.advance hready fun hplace hwait => hwoken ⟨hplace, hwait⟩)

theorem Inv.step (h : s.Inv) (hs : Step s e s') : s'.Inv := by
  obtain ⟨hguard, rfl⟩ := hs
  cases e with
  | start =>
      by_cases hzero : s.started = 0
      · have hidle := h.idle.mpr hzero
        have hlistens := h.listens
        rw [hidle] at hlistens
        simp only [TcpServer.next, hzero, if_true]
        exact h.move (by simp [hidle, Caller.Busy]) (by simp [Caller.Busy]) (by simp) hlistens
          (by simp)
      · have hbusy : s.caller ≠ .idle := fun hidle => hzero (h.idle.mp hidle)
        simp only [TcpServer.next, if_neg hzero]
        exact ⟨h.fresh, h.done, h.loops, h.made, h.handshake, h.bound, h.complete, h.listens,
          iff_of_false hbusy (Nat.succ_ne_zero _)⟩
  | caller => exact h.callerNext hguard
  | thread t => exact h.threadNext hguard
  | spurious =>
      have hwait : s.caller = .wait := hguard
      have hbusy : s.caller.Busy := by simp [hwait, Caller.Busy]
      have hshake := h.handshake hbusy
      rw [hwait] at hshake
      have hawake : Caller.relock.Busy := trivial
      have hwoken := h.update hbusy hawake hshake.wake
      rwa [setThread_self] at hwoken

-- What is yet to be done until the server listens.
def left (s : TcpServer) : ℕ :=
  17 * (s.numThreads.toNat - s.made) + s.caller.left + (s.threads s.current).place.left

theorem numThreads_step (hs : Step s e s') : s'.numThreads = s.numThreads := by
  obtain ⟨-, rfl⟩ := hs
  cases e with
  | start | spurious | thread t => rfl
  | caller =>
      simp only [TcpServer.next, TcpServer.callerNext]
      repeat' split
      all_goals rfl

theorem run (h : Path Step s es s') (hs : s.Inv) :
    s'.Inv ∧ s'.numThreads = s.numThreads :=
  h.invariant (fun u => u.Inv ∧ u.numThreads = s.numThreads)
    (fun _ _ _ hu hstep => ⟨hu.1.step hstep, (numThreads_step hstep).trans hu.2⟩) ⟨hs, rfl⟩

end TcpServer

end MyTestserver.Startup
