import MyTestserver.BroadcastTheorems

namespace MyTestserver

open Transition

-- No write fails for good.
def Io.Alive (io : Io) : Prop := io.result ≠ .failed .EPIPE ∧ io.result ≠ .failed .ECONNRESET

namespace Network

variable {s t : Network} {conn : ConnId} {p : Call → Bool}

section Items

-- The calls for the connection, those taken over first.
def items (s : Network) (conn : ConnId) : List Call := (s.lane conn).items

theorem items_eq (s : Network) (conn : ConnId) :
    s.items conn = (s.taken conn).map Taken.call ++ s.waiting conn := by
  simp [items, lane, Bypass.Lane.items]

theorem items_of_queued (hloop : ∀ conn, (t.conns conn).loop = (s.conns conn).loop)
    (hqueued : ∀ loop, (t.loops loop).queued = (s.loops loop).queued)
    (htaken : t.taken conn = s.taken conn) : t.items conn = s.items conn := by
  have hwaiting := waiting_eq hloop conn
  rw [hqueued] at hwaiting
  rw [items, lane_eq (hloop conn) hwaiting htaken, items]

theorem sendInLoop_taken (s : Network) {io : Io} (hio : io.Alive)
    (hconn : (s.conns conn).state = .kConnected) (data : Address) (len : ℕ) (call : Call) :
    (s.sendInLoop io conn data len call).taken =
      Function.update s.taken conn
        (s.taken conn ++ [⟨call, s.store.load io.stale data len, s.waiting conn⟩]) := by
  have hstate : (s.conns conn).state ≠ .kDisconnected := by simp [hconn]
  obtain ⟨state, hstate⟩ := TcpConnection.exists_sendInLoop hstate hio
  unfold sendInLoop
  dsimp only
  rw [hstate]

theorem loops_sendInLoop (s : Network) (io : Io) (other : ConnId) (data : Address) (len : ℕ)
    (call : Call) : (s.sendInLoop io other data len call).loops = s.loops := by
  rcases s.sendInLoop_cases io other data len call with h | ⟨state, -, -, h⟩
  · rw [h]
  · rw [h]
    rfl

theorem taken_sendInLoop_ne (s : Network) (io : Io) {other : ConnId} (hother : conn ≠ other)
    (data : Address) (len : ℕ) (call : Call) :
    (s.sendInLoop io other data len call).taken conn = s.taken conn := by
  rcases s.sendInLoop_cases io other data len call with h | ⟨state, -, -, h⟩
  · rw [h]
  · rw [h]
    exact Function.update_of_ne hother _ _

-- A call that is made is the last of its thread, whether it goes past the queue or into it.
theorem items_send (hrouted : s.Routed) {io : Io} (hio : io.Alive)
    (hconn : (s.conns conn).state = .kConnected) {thread : ThreadId}
    (hp : ∀ call, p call = true → call.thread = thread) (other : ConnId) (data : Address) (len : ℕ)
    (call : Call) :
    ((s.send io other data len call).items conn).filter p =
      (s.items conn).filter p ++ (if other = conn then [call] else []).filter p := by
  have hlocal := s.local_send io other data len call
  by_cases hother : other = conn
  swap
  · rw [if_neg hother, List.filter_nil, List.append_nil]
    congr 1
    rcases s.send_cases io other data len call with h | ⟨-, h⟩ | ⟨-, h⟩
    · rw [h]
    · refine items_of_queued hlocal.loop (fun loop => ?_) ?_
      · rw [h, loops_sendInLoop]
      · rw [h, taken_sendInLoop_ne s io (Ne.symm hother)]
    · rw [h] at hlocal ⊢
      have hcall : Functor.callFor conn (.sendInLoop other data len call) = none := if_neg hother
      rw [items, (lane_enqueue hlocal.loop conn (s.queued_queueInLoop _ _ _) rfl).1 hcall, items]
  subst hother
  rw [if_pos rfl]
  rw [s.send_eq_runInLoop io other data len call hconn] at hlocal ⊢
  by_cases hthread : call.thread = (s.conns other).loop
  · rw [runInLoop, if_pos hthread] at hlocal ⊢
    rw [items, lane_direct hlocal.loop other hthread
      (fun loop => by rw [exec, loops_sendInLoop])
      (by rw [exec, s.sendInLoop_taken hio hconn, Function.update_self])]
    refine Bypass.filter_items_direct (fun hcall other' hwaiting => ?_) _
    have hroute := hrouted.waiting (List.Subset.refl _) hwaiting
    by_contra hother
    rw [hp _ (by simpa using hother), ← hp _ hcall] at hroute
    exact hroute hthread
  · rw [runInLoop, if_neg hthread] at hlocal ⊢
    rw [items, (lane_enqueue hlocal.loop other (s.queued_queueInLoop _ _ _) rfl).2 call
      (Functor.callFor_sendInLoop _ _ _ _) rfl, Bypass.items_enqueue, List.filter_append]
    rfl

end Items

section Passes

-- A round of the loop of broadcastToAll that sends: the session it has come to, and the
-- call that it makes.
structure Pass where
  number : ℕ
  username : Bytes
  call : Call
  deriving DecidableEq

def passes (conn : ConnId) (s : Network) : Event → List Pass
  | .broadcast thread _ =>
      match s.broadcasts thread with
      | some b =>
          match b.rest with
          | (username, other) :: _ =>
              if other = conn ∧ username ≠ b.excludeUsername ∧
                  (s.conns other).state = .kConnected then
                [⟨b.number, username, thread, b.message, some b.number⟩]
              else []
          | [] => []
      | none => []
  | _ => []

-- No socket fails for good.
def Alive : Event → Prop
  | .send _ io _ _ _ | .shutdown _ io _ | .broadcast _ io | .run _ io => io.Alive
  | _ => True

instance : (e : Event) → Decidable (Alive e)
  | .send _ io _ _ _ | .shutdown _ io _ | .broadcast _ io | .run _ io =>
      inferInstanceAs (Decidable (io.result ≠ .failed .EPIPE ∧ io.result ≠ .failed .ECONNRESET))
  | .setState _ _ | .memory _ | .setSessions _ | .lock _ _ _ _ | .unlock _ | .swap _ | .finish _
  | .writable _ _ | .wakeup _ => .isTrue trivial

variable {e : Event}

theorem items_updateLoop {thread : ThreadId} {loop : EventLoop}
    (h : loop.queued = (s.loops thread).queued) :
    (s.updateLoop thread loop).items conn = s.items conn :=
  items_of_queued (fun _ => rfl) (queued_updateLoop h) rfl

theorem items_shutdown (s : Network) (io : Io) (thread : ThreadId) (other : ConnId) :
    (s.shutdown io thread other).items conn = s.items conn := by
  have hlocal := s.local_shutdown io other thread
  unfold shutdown runInLoop at hlocal ⊢
  split
  · rename_i hstate
    rw [if_pos hstate] at hlocal
    split
    · rename_i hthread
      rw [if_pos hthread] at hlocal
      exact items_of_queued hlocal.loop (fun _ => rfl) rfl
    · rename_i hthread
      rw [if_neg hthread] at hlocal
      have hqueued := (s.setState other .kDisconnecting).queued_queueInLoop thread
        (s.conns other).loop (.shutdownInLoop other)
      rw [items, (lane_enqueue hlocal.loop conn hqueued rfl).1 rfl, items]
  · rfl

-- Running a functor moves its call, and loses nothing.
theorem items_run (hrouted : s.Routed) {io : Io} (hio : io.Alive)
    (hconn : (s.conns conn).state = .kConnected) {thread : ThreadId} {cb : Functor}
    {functors : List Functor} (h : (s.loops thread).functors = cb :: functors) :
    ((s.updateLoop thread { s.loops thread with functors := functors }).exec io cb).items conn =
      s.items conn := by
  let u := s.updateLoop thread { s.loops thread with functors := functors }
  have hloop : ∀ other, ((u.exec io cb).conns other).loop = (s.conns other).loop :=
    (u.local_exec io cb).loop
  obtain ⟨rest, hqueued, hrest⟩ := queued_pop h
  cases cb with
  | shutdownInLoop other =>
      exact congrArg Bypass.Lane.items (lane_run_other hloop conn hqueued hrest rfl rfl)
  | sendInLoop other data len call =>
      have hloops : (u.sendInLoop io other data len call).loops = u.loops :=
        u.loops_sendInLoop io other data len call
      have hrest' : ∀ loop, ((u.sendInLoop io other data len call).loops loop).queued =
          if loop = thread then rest else (s.loops loop).queued := by
        rw [hloops]
        exact hrest
      by_cases hother : other = conn
      · subst hother
        obtain ⟨rfl, -⟩ := hrouted thread other data len call (by simp [hqueued])
        have hhead := lane_run_head hloop other hqueued (by rw [exec, hrest', if_pos rfl])
          (Functor.callFor_sendInLoop other data len call)
        have htaken := u.sendInLoop_taken hio hconn data len call
        have hs : s.items other = (s.taken other).map Taken.call ++
            call :: (u.sendInLoop io other data len call).waiting other := by
          rw [items_eq, hhead]
          rfl
        have ht := items_eq (u.sendInLoop io other data len call) other
        rw [htaken, Function.update_self] at ht
        refine ht.trans (Eq.trans ?_ hs.symm)
        simp [u, updateLoop]
      · have htaken := u.taken_sendInLoop_ne io (Ne.symm hother) data len call
        exact congrArg Bypass.Lane.items
          (lane_run_other hloop conn hqueued hrest' (if_neg hother) htaken)

-- Every call of the thread goes in at the end, and none gets lost.
theorem items_step (h : s.Orderly) (hconn : (s.conns conn).state = .kConnected)
    (halive : Alive e) (hstep : Step s e t) {thread : ThreadId}
    (hp : ∀ call, p call = true → call.thread = thread ∧ call.number ≠ none) :
    (t.items conn).filter p =
      (s.items conn).filter p ++ ((s.passes conn e).map Pass.call).filter p := by
  have hthread : ∀ call, p call = true → call.thread = thread := fun call hcall => (hp call hcall).1
  have hsame : t.items conn = s.items conn → s.passes conn e = [] →
      (t.items conn).filter p =
        (s.items conn).filter p ++ ((s.passes conn e).map Pass.call).filter p := by
    intro hitems hpasses
    rw [hitems, hpasses, List.map_nil, List.filter_nil, List.append_nil]
  obtain ⟨hguard, rfl⟩ := hstep
  cases e with
  | setState other state =>
      exact hsame (items_of_queued (s.local_setState other state).loop (fun _ => rfl) rfl) rfl
  | memory store => exact hsame rfl rfl
  | setSessions sessions => exact hsame rfl rfl
  | send caller io other data buf =>
      have hnone : p ⟨caller, buf, none⟩ = false := by
        by_contra hcall
        exact (hp _ (by simpa using hcall)).2 rfl
      rw [next, items_send h.routed halive hconn hthread]
      congr 1
      split
      · simp [hnone, passes]
      · rfl
  | shutdown caller io other => exact hsame (s.items_shutdown io caller other) rfl
  | lock caller data message excludeUsername => exact hsame rfl rfl
  | broadcast caller io =>
      simp only [next, passes]
      cases hb : s.broadcasts caller with
      | none => simp
      | some b =>
          dsimp only
          cases hrest : b.rest with
          | nil => simp
          | cons entry rest =>
              obtain ⟨username, other⟩ := entry
              let u : Network :=
                { s with broadcasts :=
                    Function.update s.broadcasts caller (some { b with rest := rest }) }
              have hrouted : u.Routed := h.routed
              have hsend := items_send hrouted halive hconn hthread other b.data b.message.length
                ⟨caller, b.message, some b.number⟩
              dsimp only [broadcastNext]
              by_cases hpass : username ≠ b.excludeUsername ∧
                  (s.conns other).state = .kConnected
              · rw [if_pos hpass]
                refine hsend.trans ?_
                by_cases hother : other = conn
                · rw [if_pos hother, if_pos ⟨hother, hpass⟩]
                  rfl
                · rw [if_neg hother, if_neg fun h => hother h.1]
                  rfl
              · rw [if_neg hpass, if_neg fun h => hpass h.2, List.map_nil, List.filter_nil,
                  List.append_nil]
                rfl
  | unlock caller => exact hsame rfl rfl
  | swap loop =>
      refine hsame (items_updateLoop ?_) rfl
      simp [EventLoop.queued, h.idle loop hguard.2]
  | run loop io =>
      refine hsame ?_ rfl
      simp only [next]
      split
      · rename_i cb functors hfunctors
        exact items_run h.routed halive hconn hfunctors
      · rfl
  | finish loop => exact hsame (items_updateLoop rfl) rfl
  | writable other n =>
      exact hsame (items_of_queued (s.local_updateConn other
        (TcpConnection.stream_handleWrite (s.conns other) n)).loop (fun _ => rfl) rfl) rfl
  | wakeup loop => exact hsame (items_updateLoop rfl) rfl

theorem mem_passes {pass : Pass} (h : pass ∈ s.passes conn e) :
    ∃ thread io b rest, e = .broadcast thread io ∧ s.broadcasts thread = some b ∧
      b.rest = (pass.username, conn) :: rest ∧ pass.username ≠ b.excludeUsername ∧
      pass = ⟨b.number, pass.username, thread, b.message, some b.number⟩ := by
  cases e with
  | broadcast thread io =>
      simp only [passes] at h
      split at h
      · rename_i b hb
        split at h
        · rename_i username other rest hrest
          split at h
          · rename_i hpass
            obtain rfl := List.mem_singleton.mp h
            obtain ⟨rfl, hexclude, -⟩ := hpass
            exact ⟨thread, io, b, rest, rfl, hb, hrest, hexclude, rfl⟩
          · cases h
        · cases h
      · cases h
  | _ => cases h

theorem mem_items_step (h : s.Orderly) (hconn : (s.conns conn).state = .kConnected)
    (halive : Alive e) (hstep : Step s e t) {call : Call} (hnumber : call.number ≠ none)
    (hcall : call ∈ t.items conn) :
    call ∈ s.items conn ∨ ∃ pass ∈ s.passes conn e, pass.call = call := by
  have hp : ∀ other : Call, (other == call) = true →
      other.thread = call.thread ∧ other.number ≠ none := by
    intro other heq
    obtain rfl := eq_of_beq heq
    exact ⟨rfl, hnumber⟩
  have hmem : call ∈ (t.items conn).filter (· == call) := by simpa using hcall
  rw [items_step h hconn halive hstep hp] at hmem
  rcases List.mem_append.mp hmem with hold | hnew
  · exact .inl (List.mem_filter.mp hold).1
  · exact .inr (List.mem_map.mp (List.mem_filter.mp hnew).1)

end Passes

section Sessions

variable {u : Bytes} {e : Event}

theorem sessions_exec (s : Network) (io : Io) (cb : Functor) :
    (s.exec io cb).sessions = s.sessions := by
  cases cb with
  | sendInLoop other data len call =>
      rcases s.sendInLoop_cases io other data len call with h | ⟨state, -, -, h⟩
      · rw [exec, h]
      · rw [exec, h]
        rfl
  | shutdownInLoop other => rfl

theorem sessions_runInLoop (s : Network) (io : Io) (thread loop : ThreadId) (cb : Functor) :
    (s.runInLoop io thread loop cb).sessions = s.sessions := by
  unfold runInLoop
  split
  · exact s.sessions_exec io cb
  · rfl

theorem sessions_send (s : Network) (io : Io) (other : ConnId) (data : Address) (len : ℕ)
    (call : Call) : (s.send io other data len call).sessions = s.sessions := by
  by_cases h : (s.conns other).state = .kConnected
  · rw [s.send_eq_runInLoop io other data len call h]
    exact s.sessions_runInLoop io _ _ _
  · rw [send, if_neg h]

def sessionList (s : Network) : List (Bytes × ConnId) :=
  s.sessions.entries.map fun pair => (pair.1, pair.2.conn)

-- What a broadcast has not come to yet is part of the sessions, which stay as they are.
def Snapshot (s : Network) : Prop :=
  ∀ thread b, s.broadcasts thread = some b →
    b.rest <:+ s.sessionList

-- The broadcasts that do not leave the user out.
def addressed (u : Bytes) (s : Network) : Event → List (ℕ × Bytes)
  | .lock _ _ message excludeUsername => if u ≠ excludeUsername then [(s.held, message)] else []
  | _ => []

-- What steps do to the broadcasts under way.
inductive Iterates (s : Network) (e : Event) (t : Network) : Prop
  | lock (thread : ThreadId) (data : Address) (message excludeUsername : Bytes) :
      e = .lock thread data message excludeUsername → s.mutex = none → t.mutex = some thread →
      t.broadcasts = Function.update s.broadcasts thread
        (some ⟨s.held, data, message, excludeUsername, s.sessionList⟩) → Iterates s e t
  | round (thread : ThreadId) (io : Io) (b : Broadcast) (username : Bytes) (conn : ConnId)
      (rest : List (Bytes × ConnId)) :
      e = .broadcast thread io → s.broadcasts thread = some b →
      b.rest = (username, conn) :: rest → t.mutex = s.mutex →
      t.broadcasts = Function.update s.broadcasts thread (some { b with rest := rest }) →
      Iterates s e t
  | unlock (thread : ThreadId) (b : Broadcast) :
      e = .unlock thread → s.broadcasts thread = some b → b.rest = [] → t.mutex = none →
      t.broadcasts = Function.update s.broadcasts thread none → Iterates s e t
  | other : (∀ conn, s.passes conn e = []) → (∀ u, s.addressed u e = []) → t.mutex = s.mutex →
      t.broadcasts = s.broadcasts → Iterates s e t

theorem Local.iterates (h : Local s t) (hpasses : ∀ conn, s.passes conn e = [])
    (haddressed : ∀ u, s.addressed u e = []) : Iterates s e t :=
  .other hpasses haddressed h.mutex h.broadcasts

theorem broadcasts_broadcastNext (s : Network) (io : Io) (thread : ThreadId) (b : Broadcast)
    (username : Bytes) (other : ConnId) (rest : List (Bytes × ConnId)) :
    (s.broadcastNext io thread b username other rest).mutex = s.mutex ∧
      (s.broadcastNext io thread b username other rest).broadcasts =
        Function.update s.broadcasts thread (some { b with rest := rest }) := by
  dsimp only [broadcastNext]
  split
  · exact ⟨(local_send _ io other b.data _ _).mutex, (local_send _ io other b.data _ _).broadcasts⟩
  · exact ⟨rfl, rfl⟩

theorem iterates_step (hstep : Step s e t) : Iterates s e t := by
  obtain ⟨hguard, rfl⟩ := hstep
  cases e with
  | setState other state => exact (s.local_setState other state).iterates (fun _ => rfl) fun _ => rfl
  | send thread io other data buf =>
      exact (s.local_send io other data _ _).iterates (fun _ => rfl) fun _ => rfl
  | shutdown thread io other =>
      exact (s.local_shutdown io other thread).iterates (fun _ => rfl) fun _ => rfl
  | lock thread data message excludeUsername =>
      exact .lock thread data message excludeUsername rfl hguard.1 rfl rfl
  | broadcast thread io =>
      simp only [Guard] at hguard
      split at hguard
      · rename_i b hb
        obtain ⟨⟨username, other⟩, rest, hrest⟩ := List.exists_cons_of_ne_nil hguard
        have hnext : s.next (.broadcast thread io) =
            s.broadcastNext io thread b username other rest := by
          simp only [next, hb, hrest]
        obtain ⟨hmutex, hbroadcasts⟩ :=
          s.broadcasts_broadcastNext io thread b username other rest
        rw [hnext]
        exact .round thread io b username other rest rfl hb hrest hmutex hbroadcasts
      · exact hguard.elim
  | unlock thread =>
      simp only [Guard] at hguard
      split at hguard
      · rename_i b hb
        exact .unlock thread b rfl hb hguard rfl rfl
      · exact hguard.elim
  | run thread io =>
      refine .other (fun _ => rfl) (fun _ => rfl) ?_ ?_
      all_goals
        simp only [next]
        split
      · exact (local_exec _ io _).mutex
      · rfl
      · exact (local_exec _ io _).broadcasts
      · rfl
  | memory _ | setSessions _ | swap _ | finish _ | writable _ _ | wakeup _ =>
      exact .other (fun _ => rfl) (fun _ => rfl) rfl rfl

-- The sessions change only in steps of their own, and never during a broadcast.
theorem sessions_step (hstep : Step s e t) (h : ∀ sessions, e ≠ .setSessions sessions) :
    t.sessions = s.sessions := by
  obtain ⟨-, rfl⟩ := hstep
  cases e with
  | setSessions sessions => exact absurd rfl (h sessions)
  | send thread io other data buf => exact s.sessions_send io other data _ _
  | shutdown thread io other =>
      simp only [next, shutdown]
      split
      · exact sessions_runInLoop _ io _ _ _
      · rfl
  | broadcast thread io =>
      simp only [next]
      split
      · split
        · dsimp only [broadcastNext]
          split
          · exact sessions_send _ io _ _ _ _
          · rfl
        · rfl
      · rfl
  | run thread io =>
      simp only [next]
      split
      · exact sessions_exec _ io _
      · rfl
  | setState _ _ | memory _ | lock _ _ _ _ | unlock _ | swap _ | finish _ | writable _ _
  | wakeup _ => rfl

-- A broadcast that is under way has just begun, or was under way before.
theorem broadcast_cases {thread : ThreadId} {b : Broadcast} (hstep : Step s e t)
    (hb : t.broadcasts thread = some b) :
    (∃ data message excludeUsername, e = .lock thread data message excludeUsername ∧
      b = ⟨s.held, data, message, excludeUsername, s.sessionList⟩) ∨
    ∃ b', s.broadcasts thread = some b' ∧ b.number = b'.number ∧ b.rest <:+ b'.rest := by
  rcases iterates_step hstep with ⟨other, data, message, excludeUsername, rfl, -, -, hbroadcasts⟩ |
    ⟨other, io, b', username, conn, rest, rfl, hb', hrest, -, hbroadcasts⟩ |
    ⟨other, b', rfl, -, -, -, hbroadcasts⟩ | ⟨-, -, -, hbroadcasts⟩
  all_goals rw [hbroadcasts] at hb
  · by_cases hthread : thread = other
    · subst hthread
      rw [Function.update_self] at hb
      exact .inl ⟨data, message, excludeUsername, rfl, (Option.some.inj hb).symm⟩
    · rw [Function.update_of_ne hthread] at hb
      exact .inr ⟨b, hb, rfl, List.suffix_refl _⟩
  · by_cases hthread : thread = other
    · subst hthread
      rw [Function.update_self] at hb
      obtain rfl := Option.some.inj hb
      exact .inr ⟨b', hb', rfl, hrest ▸ List.suffix_cons _ rest⟩
    · rw [Function.update_of_ne hthread] at hb
      exact .inr ⟨b, hb, rfl, List.suffix_refl _⟩
  · by_cases hthread : thread = other
    · rw [hthread, Function.update_self] at hb
      cases hb
    · rw [Function.update_of_ne hthread] at hb
      exact .inr ⟨b, hb, rfl, List.suffix_refl _⟩
  · exact .inr ⟨b, hb, rfl, List.suffix_refl _⟩

theorem Snapshot.step (h : s.Snapshot) (hargs : s.Arguments) (hstep : Step s e t) :
    t.Snapshot := by
  intro thread b hb
  rcases broadcast_cases hstep hb with ⟨data, message, excludeUsername, rfl, rfl⟩ |
    ⟨b', hb', -, hrest⟩
  · have hsame : t.sessionList = s.sessionList := by
      rw [sessionList, sessions_step hstep (by rintro _ ⟨⟩), sessionList]
    exact hsame.symm ▸ List.suffix_refl _
  · have hsame : t.sessionList = s.sessionList := by
      rw [sessionList, sessions_step hstep, sessionList]
      rintro sessions rfl
      have hfree : s.mutex = none := hstep.1
      rw [(hargs thread b' hb').mutex] at hfree
      cases hfree
    rw [hsame]
    exact hrest.trans (h thread b' hb')

theorem sessionList_nodup (s : Network) : (s.sessionList.map Prod.fst).Nodup := by
  have hkeys : s.sessionList.map Prod.fst = s.sessions.keys := by
    rw [sessionList, List.map_map]
    rfl
  rw [hkeys]
  exact s.sessions.nodupKeys

theorem mem_sessionList_iff :
    (u, conn) ∈ s.sessionList ↔ SessionManager.getConnection s.sessions u = some conn := by
  rw [SessionManager.getConnection, Option.map_eq_some_iff, sessionList, List.mem_map]
  constructor
  · rintro ⟨⟨v, session⟩, hmem, hpair⟩
    cases hpair
    exact ⟨session, AList.mem_lookup_iff.mpr hmem, rfl⟩
  · rintro ⟨session, hlookup, rfl⟩
    exact ⟨⟨u, session⟩, AList.mem_lookup_iff.mp hlookup, rfl⟩

-- A broadcast that has the session still before it.
def pending (u : Bytes) (s : Network) : List (ℕ × Bytes) :=
  match s.mutex.bind s.broadcasts with
  | some b =>
      if u ∈ b.rest.map Prod.fst ∧ u ≠ b.excludeUsername then [(b.number, b.message)] else []
  | none => []

theorem pending_eq {thread : ThreadId} {b : Broadcast} (hmutex : s.mutex = some thread)
    (hb : s.broadcasts thread = some b) : s.pending u =
      if u ∈ b.rest.map Prod.fst ∧ u ≠ b.excludeUsername then [(b.number, b.message)] else [] := by
  have hbind : s.mutex.bind s.broadcasts = some b := by
    rw [hmutex]
    exact hb
  rw [pending, hbind]

theorem pending_free (hmutex : s.mutex = none) : s.pending u = [] := by
  rw [pending, hmutex]
  rfl

-- Every broadcast comes to the session once: it is sent then and not before it or again.
theorem account_step (hargs : s.Arguments) (hsnapshot : s.Snapshot)
    (hregistered : SessionManager.getConnection s.sessions u = some conn)
    (hconn : (s.conns conn).state = .kConnected) (hstep : Step s e t) :
    s.pending u ++ s.addressed u e =
      ((s.passes conn e).filter (·.username = u)).map (fun pass => (pass.number, pass.call.buf)) ++
        t.pending u := by
  rcases iterates_step hstep with ⟨thread, data, message, excludeUsername, rfl, hfree, hmutex,
    hbroadcasts⟩ | ⟨thread, io, b, username, other, rest, rfl, hb, hrest, hmutex, hbroadcasts⟩ |
    ⟨thread, b, rfl, hb, hrest, hmutex, -⟩ | ⟨hpasses, haddressed, hmutex, hbroadcasts⟩
  · have hmem : u ∈ s.sessionList.map Prod.fst :=
      List.mem_map_of_mem (f := Prod.fst) (mem_sessionList_iff.mpr hregistered)
    rw [pending_free hfree, pending_eq hmutex (by rw [hbroadcasts, Function.update_self])]
    simp [addressed, passes, hmem]
  · have harg := hargs thread b hb
    have hsuffix := hsnapshot thread b hb
    have hround : s.passes conn (.broadcast thread io) =
        if other = conn ∧ username ≠ b.excludeUsername ∧ (s.conns other).state = .kConnected then
          [⟨b.number, username, thread, b.message, some b.number⟩]
        else [] := by
      simp only [passes, hb, hrest]
    rw [pending_eq harg.mutex hb, pending_eq (hmutex.trans harg.mutex)
      (by rw [hbroadcasts, Function.update_self]), hround, hrest]
    by_cases hu : username = u
    · subst hu
      -- The session is the one the user has, and does not come again.
      have hother : other = conn := by
        have hmem : (username, other) ∈ s.sessionList := hsuffix.subset (by simp [hrest])
        rw [mem_sessionList_iff, hregistered] at hmem
        exact (Option.some.inj hmem).symm
      have hnodup : ((username :: rest.map Prod.fst)).Nodup := by
        have hsublist := (hsuffix.sublist.map Prod.fst).nodup s.sessionList_nodup
        rwa [hrest, List.map_cons] at hsublist
      have hrest' : username ∉ rest.map Prod.fst := (List.nodup_cons.mp hnodup).1
      by_cases hexclude : username = b.excludeUsername
      · simp [addressed, hexclude]
      · simp [addressed, hother, hconn, hexclude, hrest']
    · have hmem : u ∈ ((username, other) :: rest).map Prod.fst ↔ u ∈ rest.map Prod.fst := by
        simp [Ne.symm hu]
      simp only [hmem]
      split_ifs
      all_goals simp [addressed, hu]
  · rw [pending_free hmutex, pending_eq (hargs thread b hb).mutex hb, hrest]
    simp [addressed, passes]
  · rw [hpasses, haddressed]
    simp [pending, hmutex, hbroadcasts]

end Sessions

section Senders

variable {sender : ℕ → ConnId} {first : ℕ} {u : Bytes} {e : Event} {es : List Event}

-- handleChat runs on the loop of the connection whose message it is. `sender` says for
-- each broadcast which connection that was.
def OnLoop (sender : ℕ → ConnId) (s : Network) : Event → Prop
  | .lock thread _ _ _ => thread = (s.conns (sender s.held)).loop
  | _ => True

-- The session stays where it is, and its connection connected. Strings are as good as
-- passed by value.
structure Stays (sender : ℕ → ConnId) (u : Bytes) (conn : ConnId) (s : Network) (e : Event) :
    Prop where
  registered : SessionManager.getConnection s.sessions u = some conn
  connected : (s.conns conn).state = .kConnected
  alive : Alive e
  keeps : s.KeepsQueued e
  onLoop : s.OnLoop sender e

-- The broadcasts of one sender, from a first one on.
def bySender (sender : ℕ → ConnId) (x : ConnId) (first n : ℕ) : Bool :=
  decide (first ≤ n ∧ sender n = x)

structure Attributed (sender : ℕ → ConnId) (first : ℕ) (conn : ConnId) (s : Network) : Prop where
  orderly : s.Orderly
  snapshot : s.Snapshot
  broadcasts : ∀ thread b, s.broadcasts thread = some b → first ≤ b.number →
    thread = (s.conns (sender b.number)).loop
  items : ∀ call ∈ s.items conn, ∀ n, call.number = some n → first ≤ n →
    call.thread = (s.conns (sender n)).loop

theorem Attributed.pass (h : Attributed sender first conn s) {pass : Pass}
    (hpass : pass ∈ s.passes conn e) : pass.call.number = some pass.number ∧
      (first ≤ pass.number → pass.call.thread = (s.conns (sender pass.number)).loop) := by
  obtain ⟨thread, io, b, rest, -, hb, -, -, heq⟩ := mem_passes hpass
  rw [heq]
  exact ⟨rfl, h.broadcasts thread b hb⟩

theorem Attributed.step (h : Attributed sender first conn s) (hstays : s.Stays sender u conn e)
    (hstep : Step s e t) : Attributed sender first conn t := by
  have hloop := (frame_step hstep).loop
  refine ⟨h.orderly.step hstep, h.snapshot.step h.orderly.arguments hstep, fun thread b hb hn => ?_,
    fun call hcall n hnumber hn => ?_⟩
  · rw [hloop]
    rcases broadcast_cases hstep hb with ⟨data, message, excludeUsername, rfl, rfl⟩ |
      ⟨b', hb', hsame, -⟩
    · exact hstays.onLoop
    · rw [hsame] at hn ⊢
      exact h.broadcasts thread b' hb' hn
  · rw [hloop]
    rcases mem_items_step h.orderly hstays.connected hstays.alive hstep (by simp [hnumber]) hcall
      with hold | ⟨pass, hpass, rfl⟩
    · exact h.items call hold n hnumber hn
    · obtain ⟨hsame, hthread⟩ := h.pass hpass
      obtain rfl : pass.number = n := Option.some.inj (hsame.symm.trans hnumber)
      exact hthread hn

-- The calls of one sender: each goes in at the end, and stays in its place.
theorem Attributed.items_step (h : Attributed sender first conn s)
    (hstays : s.Stays sender u conn e) (hstep : Step s e t) (x : ConnId) :
    (t.items conn).filter (fun call => call.number.any (bySender sender x first)) =
      (s.items conn).filter (fun call => call.number.any (bySender sender x first)) ++
        ((s.passes conn e).filter fun pass => bySender sender x first pass.number).map Pass.call := by
  let q (call : Call) : Bool := call.number.any (bySender sender x first)
  let p (call : Call) : Bool := q call && decide (call.thread = (s.conns x).loop)
  have hp : ∀ call, p call = true → call.thread = (s.conns x).loop ∧ call.number ≠ none := by
    intro call hcall
    simp only [p, q, Bool.and_eq_true, decide_eq_true_eq] at hcall
    refine ⟨hcall.2, fun hnone => ?_⟩
    simp [hnone] at hcall
  -- All calls of the sender are made on its loop, so they keep their order.
  have hfilter : ∀ calls : List Call, (∀ call ∈ calls, ∀ n, call.number = some n → first ≤ n →
      call.thread = (s.conns (sender n)).loop) → calls.filter q = calls.filter p := by
    refine fun calls hcalls => List.filter_congr fun call hcall => ?_
    cases hnumber : call.number with
    | none => simp [p, q, hnumber]
    | some n =>
        cases hn : bySender sender x first n with
        | false => simp [p, q, hnumber, hn]
        | true =>
            obtain ⟨hfirst, rfl⟩ := of_decide_eq_true hn
            simp [p, q, hnumber, hcalls call hcall n hnumber hfirst]
  have hpasses : ((s.passes conn e).filter fun pass => bySender sender x first pass.number).map
      Pass.call = ((s.passes conn e).map Pass.call).filter q := by
    rw [List.filter_map]
    congr 1
    refine List.filter_congr fun pass hpass => ?_
    simp [q, (h.pass hpass).1]
  have hcalls : ∀ call ∈ (s.passes conn e).map Pass.call, ∀ n, call.number = some n → first ≤ n →
      call.thread = (s.conns (sender n)).loop := by
    intro call hcall n hnumber hn
    obtain ⟨pass, hpass, rfl⟩ := List.mem_map.mp hcall
    obtain ⟨hsame, hthread⟩ := h.pass hpass
    obtain rfl : pass.number = n := Option.some.inj (hsame.symm.trans hnumber)
    exact hthread hn
  have htcalls : ∀ call ∈ t.items conn, ∀ n, call.number = some n → first ≤ n →
      call.thread = (s.conns (sender n)).loop := by
    intro call hcall n hnumber hn
    rw [(h.step hstays hstep).items call hcall n hnumber hn, (frame_step hstep).loop]
  rw [hpasses, hfilter _ h.items, hfilter _ hcalls, hfilter _ htcalls]
  exact Network.items_step h.orderly hstays.connected hstays.alive hstep hp

theorem items_run_of_path (h : Attributed sender first conn s)
    (hrun : Path (restrict (Stays sender u conn) Step) s es t) (x : ConnId) :
    (t.items conn).filter (fun call => call.number.any (bySender sender x first)) =
      (s.items conn).filter (fun call => call.number.any (bySender sender x first)) ++
        ((gather next (passes conn) s es).filter
          fun pass => bySender sender x first pass.number).map Pass.call := by
  induction hrun with
  | nil => simp [gather]
  | cons hstep _ ih =>
      obtain ⟨hstays, hstep⟩ := hstep
      rw [ih (h.step hstays hstep), h.items_step hstays hstep x, hstep.2]
      simp only [gather, List.filter_append, List.map_append, List.append_assoc]

theorem account_of_path (h : Attributed sender first conn s)
    (hrun : Path (restrict (Stays sender u conn) Step) s es t) :
    s.pending u ++ gather next (addressed u) s es =
      ((gather next (passes conn) s es).filter (·.username = u)).map
        (fun pass => (pass.number, pass.call.buf)) ++ t.pending u := by
  induction hrun with
  | nil => simp [gather]
  | cons hstep _ ih =>
      obtain ⟨hstays, hstep⟩ := hstep
      have haccount := account_step h.orderly.arguments h.snapshot hstays.registered
        hstays.connected hstep
      have hrest := ih (h.step hstays hstep)
      simp only [gather, ← hstep.2, List.filter_append, List.map_append]
      rw [← List.append_assoc, haccount, List.append_assoc, hrest, List.append_assoc]

theorem Orderly.number_lt (h : s.Orderly) {call : Call} (hcall : call ∈ s.items conn) {n : ℕ}
    (hnumber : call.number = some n) : n < s.held := by
  rcases List.mem_append.mp hcall with htaken | hwaiting
  · obtain ⟨entry, hentry, rfl⟩ := List.mem_map.mp htaken
    exact (h.numbered conn).2 entry hentry n hnumber
  · exact (h.numbered conn).1 call hwaiting n hnumber

theorem attributed_start {loopOf : ConnId → ThreadId}
    (hreach : Path Step (start loopOf) es s) (sender : ℕ → ConnId) (conn : ConnId) :
    Attributed sender s.held conn s := by
  have horderly := orderly_run hreach
  have hsnapshot : s.Orderly ∧ s.Snapshot := hreach.invariant (fun s => s.Orderly ∧ s.Snapshot)
    (fun _ _ _ hs hstep => ⟨hs.1.step hstep, hs.2.step hs.1.arguments hstep⟩)
    ⟨orderly_start loopOf, fun _ _ hb => absurd hb (by simp [start])⟩
  refine ⟨horderly, hsnapshot.2, fun thread b hb hn => ?_, fun call hcall n hnumber hn => ?_⟩
  · have hnumber := (horderly.arguments thread b hb).number
    omega
  · have hlt := horderly.number_lt hcall hnumber
    omega

theorem pending_old (hargs : s.Arguments) (x : ConnId) :
    (s.pending u).filter (fun chat => bySender sender x s.held chat.1) = [] := by
  unfold pending
  split
  · rename_i b hb
    obtain ⟨thread, -, hthread⟩ := Option.bind_eq_some_iff.mp hb
    have hnumber := (hargs thread b hthread).number
    split
    · simp [bySender, show ¬s.held ≤ b.number by omega]
    · rfl
  · rfl

theorem held_step (hstep : Step s e t) (u : Bytes) :
    s.held ≤ t.held ∧ ∀ chat ∈ s.addressed u e, chat.1 = s.held ∧ s.held < t.held := by
  refine ⟨(frame_step hstep).held, fun chat hchat => ?_⟩
  obtain ⟨-, rfl⟩ := hstep
  cases e with
  | lock thread data message excludeUsername =>
      simp only [addressed] at hchat
      split at hchat
      · rw [List.mem_singleton.mp hchat]
        exact ⟨rfl, Nat.lt_succ_self _⟩
      · cases hchat
  | _ => cases hchat

-- No two broadcasts have the same number.
theorem addressed_increasing (hrun : Path Step s es t) (u : Bytes) :
    ((gather next (addressed u) s es).map Prod.fst).Pairwise (· < ·) ∧
      ∀ chat ∈ gather next (addressed u) s es, s.held ≤ chat.1 := by
  induction hrun with
  | nil => exact ⟨.nil, by simp [gather]⟩
  | @cons s s' t e es hstep _ ih =>
      obtain ⟨hincreasing, hbound⟩ := ih
      obtain ⟨hheld, hnew⟩ := held_step hstep u
      rw [hstep.2] at hincreasing hbound hheld hnew
      simp only [gather, List.map_append, List.pairwise_append, List.mem_append]
      refine ⟨⟨?_, hincreasing, ?_⟩, ?_⟩
      · cases e with
        | lock thread data message excludeUsername =>
            simp only [addressed]
            split <;> simp
        | _ => exact .nil
      · intro m hm n hn
        obtain ⟨chat, hchat, rfl⟩ := List.mem_map.mp hm
        obtain ⟨later, hlater, rfl⟩ := List.mem_map.mp hn
        have hlt := hnew chat hchat
        have hle := hbound later hlater
        omega
      · rintro chat (hchat | hchat)
        · exact Nat.le_of_eq (hnew chat hchat).1.symm
        · exact Nat.le_trans hheld (hbound chat hchat)

-- The chat messages of the sender that are meant for the user, with their numbers, and the
-- sends that broadcastToAll made of them on the connection.

def chatsOf (sender : ℕ → ConnId) (x : ConnId) (u : Bytes) (s : Network) (es : List Event) :
    List (ℕ × Bytes) :=
  (gather next (addressed u) s es).filter fun chat => bySender sender x s.held chat.1

def passesOf (sender : ℕ → ConnId) (x conn : ConnId) (s : Network) (es : List Event) :
    List Pass :=
  (gather next (passes conn) s es).filter fun pass => bySender sender x s.held pass.number

-- The messages of a sender at one session, after the events: `calls` are the sends of them
-- that went out and then those in the queue, `session` what of it is for the session.
structure InSenderOrder (sender : ℕ → ConnId) (x : ConnId) (u : Bytes) (conn : ConnId)
    (s : Network) (es : List Event) (t : Network) : Prop where
  calls : ((t.taken conn).map Taken.call ++ t.waiting conn).filter
      (fun call => call.number.any (bySender sender x s.held)) =
    (passesOf sender x conn s es).map Pass.call
  session : ((passesOf sender x conn s es).filter (·.username = u)).map
      (fun pass => (pass.number, pass.call.buf)) ++
      (t.pending u).filter (fun chat => bySender sender x s.held chat.1) =
    chatsOf sender x u s es
  once : ((chatsOf sender x u s es).map Prod.fst).Pairwise (· < ·)
  stream : (t.conns conn).stream = (t.taken conn).flatMap Taken.bytes
  frames : ∀ entry ∈ t.taken conn, entry.bytes = entry.call.buf

-- While the session stays, the messages of any sender go out on its connection in the
-- order in which they were sent, each as it is and once for the session. Those that have
-- not gone out are in the queue, or the broadcast has not come to the session yet.
theorem delivered_in_order {loopOf : ConnId → ThreadId} {es₀ : List Event} {s₀ : Network}
    (hreach : Path (restrict KeepsQueued Step) (start loopOf) es₀ s₀)
    (hrun : Path (restrict (Stays sender u conn) Step) s₀ es s) (x : ConnId) :
    InSenderOrder sender x u conn s₀ es s := by
  have hattributed := attributed_start hreach.unrestrict sender conn
  have horderly := hattributed.orderly
  have hgood := hreach.append (hrun.mono fun _ _ _ hstep => ⟨hstep.1.keeps, hstep.2⟩)
  refine ⟨?_, ?_, ?_, (orderly_run hgood.unrestrict).delivered conn, faithful_run hgood conn⟩
  · rw [← items_eq, items_run_of_path hattributed hrun x, passesOf]
    have hold : (s₀.items conn).filter
        (fun call => call.number.any (bySender sender x s₀.held)) = [] := by
      refine List.filter_eq_nil_iff.mpr fun call hcall => ?_
      cases hnumber : call.number with
      | none => simp
      | some n => simp [bySender, Nat.not_le.mpr (horderly.number_lt hcall hnumber)]
    rw [hold, List.nil_append]
  · have haccount := congrArg
      (List.filter fun chat => bySender sender x s₀.held chat.1) (account_of_path hattributed hrun)
    rw [List.filter_append, pending_old horderly.arguments, List.nil_append,
      List.filter_append] at haccount
    rw [chatsOf, haccount, passesOf, List.filter_map, List.filter_comm]
    rfl
  · have hincreasing := (addressed_increasing hrun.unrestrict u).1
    exact hincreasing.sublist (List.filter_sublist.map _)

end Senders

section Sample

instance (sender : ℕ → ConnId) (e : Event) : Decidable (s.OnLoop sender e) :=
  match e with
  | .lock thread _ _ _ => inferInstanceAs (Decidable (thread = (s.conns (sender s.held)).loop))
  | .setState _ _ | .memory _ | .setSessions _ | .send _ _ _ _ _ | .shutdown _ _ _
  | .broadcast _ _ | .unlock _ | .swap _ | .run _ _ | .finish _ | .writable _ _ | .wakeup _ =>
      .isTrue trivial

-- Alice sends two messages to Bob, who is on another loop, and his socket takes one byte at
-- a time. The second is still in his queue.

def aliceAndBob : List Event :=
  [.memory (stored "abcd"), .setState 1 .kConnected, .setState 2 .kConnected,
    .setSessions sampleSessions]

def twoChats : List Event :=
  broadcastOf 1 0 "ab" ++ broadcastOf 1 2 "cd" ++ [.swap 2, .run 2 ⟨.wrote 1, fun _ => 0⟩]

-- All that Stays asks, for events that leave the strings alone.
def leavesMemory : Event → Bool
  | .memory _ => false
  | _ => true

theorem stays_of_leavesMemory {sender : ℕ → ConnId} {u : Bytes} {e : Event}
    (hmemory : leavesMemory e = true)
    (h : SessionManager.getConnection s.sessions u = some conn ∧
      (s.conns conn).state = .kConnected ∧ Alive e ∧ s.OnLoop sender e) :
    s.Stays sender u conn e where
  registered := h.1
  connected := h.2.1
  alive := h.2.2.1
  keeps := by
    cases e with
    | memory store => cases hmemory
    | _ => trivial
  onLoop := h.2.2.2

theorem delivered_in_order_twoChats :
    InSenderOrder (fun _ => 1) 1 (ascii "bob") 2 (play next sampleNet aliceAndBob) twoChats
      (play next (play next sampleNet aliceAndBob) twoChats) := by
  have hempty : (play next sampleNet []).KeepsQueued (.memory (stored "abcd")) := by
    intro loop conn data len call hmem
    cases hmem
  have hreach : Path (restrict KeepsQueued Step) sampleNet aliceAndBob
      (play next sampleNet aliceAndBob) :=
    .cons ⟨hempty, trivial, rfl⟩ <| .cons ⟨trivial, trivial, rfl⟩ <|
      .cons ⟨trivial, trivial, rfl⟩ <| .cons ⟨trivial, rfl, rfl⟩ <| .nil _
  have hplays : Plays (fun s e => s.Guard e ∧ leavesMemory e = true ∧
      SessionManager.getConnection s.sessions (ascii "bob") = some 2 ∧
      (s.conns 2).state = .kConnected ∧ Alive e ∧ s.OnLoop (fun _ => 1) e) next
      (play next sampleNet aliceAndBob) twoChats := by
    decide +kernel
  have hrun : Path (restrict (Stays (fun _ => 1) (ascii "bob") 2) Step)
      (play next sampleNet aliceAndBob) twoChats
      (play next (play next sampleNet aliceAndBob) twoChats) :=
    path_of_plays (fun _ _ hok => ⟨stays_of_leavesMemory hok.2.1 hok.2.2, hok.1, rfl⟩) hplays
  exact delivered_in_order hreach hrun 1

end Sample

end Network

end MyTestserver
