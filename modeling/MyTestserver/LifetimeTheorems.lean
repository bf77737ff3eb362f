import MyTestserver.Ownership

namespace MyTestserver.Lifetime

open EPollPoller (enableReading enableWriting disableWriting disableAll removeChannel)
open Transition

namespace Server

-- Every connection stays as it is or goes on in its life.
structure Advances (s t : Server) : Prop where
  coherent : t.Coherent
  life : ∀ conn, t.life conn = s.life conn ∨ (s.life conn).Step (t.life conn)

structure Safe (s : Server) : Prop where
  coherent : s.Coherent
  sound : ∀ conn, (s.life conn).Sound

section Proceed

variable {s t : Server} {thread : ThreadId} {conn : ConnId} {frame : Frame} {rest : List Frame}

theorem Advances.of_conn (conn : ConnId) (hcoherent : t.Coherent)
    (hother : ∀ other, conn ≠ other → t.life other = s.life other)
    (hstep : (s.life conn).Step (t.life conn)) : Advances s t where
  coherent := hcoherent
  life other := by
    by_cases heq : conn = other
    · exact .inr (heq ▸ hstep)
    · exact .inl (hother other heq)

theorem Safe.advance (h : s.Safe) (ht : Advances s t) : t.Safe where
  coherent := ht.coherent
  sound conn := by
    obtain heq | hstep := ht.life conn
    · exact heq ▸ h.sound conn
    · exact (h.sound conn).step hstep

theorem Coherent.work_pos (h : s.Coherent) (hmem : frame ∈ (s.eventLoops thread).work) :
    0 < (s.life frame.conn).work frame.stage := by
  change 0 < s.tokens frame.conn frame.stage
  rw [tokens, ← (h.routed thread frame hmem).2]
  exact List.countP_pos_iff.mpr ⟨frame, hmem, decide_eq_true ⟨rfl, rfl⟩⟩

theorem mem_work_of_frames (hframes : (s.eventLoops thread).frames = frame :: rest) :
    frame ∈ (s.eventLoops thread).work := by
  rw [EventLoop.work_pop hframes]
  exact List.mem_cons_self

-- The innermost frame is done, and only its connection is changed by what follows.
theorem Advances.of_pop (h : s.Coherent) (hframes : (s.eventLoops thread).frames = frame :: rest)
    (change : Life → Life) (hcoherent : t.Coherent)
    (hlife : ∀ other, t.life other =
      if frame.conn = other then change ((s.pop thread).life other)
      else (s.pop thread).life other)
    (hstep : (s.life frame.conn).Step (change ((s.life frame.conn).take frame.stage))) :
    Advances s t := by
  have hplace := (h.routed thread frame (mem_work_of_frames hframes)).2
  refine .of_conn frame.conn hcoherent (fun other hne => ?_) ?_
  · rw [hlife, if_neg hne, life_pop hframes hplace, if_neg hne]
  · rw [hlife, if_pos rfl, life_pop hframes hplace, if_pos rfl]
    exact hstep

theorem advances_newConnection (h : s.Coherent)
    (hframes : (s.eventLoops thread).frames = .newConnection conn :: rest) :
    Advances s
      ((s.pop thread).runInLoop thread (s.conns conn).loop (.connectEstablished conn)) := by
  have hmem := mem_work_of_frames hframes
  have hlt := (h.routed thread _ hmem).1
  refine .of_pop h hframes (·.give .connectEstablished) ?_ (fun other => life_runInLoop rfl)
    (.runInLoop (h.work_pos hmem))
  exact (h.pop hframes).runInLoop hlt rfl (h.spared_pop hframes) Stage.noConfusion

theorem advances_handleClose (h : s.Coherent)
    (hframes : (s.eventLoops thread).frames = .handleClose conn :: rest) :
    Advances s ((s.pop thread).runInLoop thread s.loop (.removeConnectionInLoop conn)) := by
  have hmem := mem_work_of_frames hframes
  have hlt := (h.routed thread _ hmem).1
  refine .of_pop h hframes (·.give .removeConnection) ?_ (fun other => life_runInLoop rfl)
    (.removeConnection (h.work_pos hmem))
  exact (h.pop hframes).runInLoop hlt rfl (h.spared_pop hframes) Stage.noConfusion

theorem advances_removeConnectionInLoop (h : s.Coherent)
    (hframes : (s.eventLoops thread).frames = .removeConnectionInLoop conn :: rest) :
    Advances s ((s.pop thread).queueInLoop (s.conns conn).loop (.connectDestroyed conn)) := by
  have hmem := mem_work_of_frames hframes
  have hlt := (h.routed thread _ hmem).1
  exact .of_pop h hframes (·.give .connectDestroyed) ((h.pop hframes).queueInLoop hlt rfl)
    (fun other => life_queueInLoop rfl) (.queueInLoop (h.work_pos hmem))

theorem advances_erase (h : s.Coherent)
    (hframes : (s.eventLoops thread).frames = .functor (.removeConnectionInLoop conn) :: rest) :
    Advances s (((s.pop thread).erase conn).push thread (.removeConnectionInLoop conn)) := by
  have hmem := mem_work_of_frames hframes
  obtain ⟨hlt, hplace⟩ : conn < s.made ∧ thread = s.loop := h.routed thread _ hmem
  refine .of_pop h hframes (fun life => { life with listed := false }.give .removeConnectionInLoop)
    ?_ (fun other => ?_) (.erase (h.work_pos hmem))
  · exact (h.pop hframes).erase.push hlt hplace (h.spared_pop hframes) Stage.noConfusion
  · rw [life_push (by exact hplace), life_erase (h.pop hframes) hlt]
    by_cases heq : conn = other <;> simp [Frame.conn, Functor.conn, Frame.stage, heq]

theorem advances_return (h : s.Coherent)
    (hframes : (s.eventLoops thread).frames = .handleEvent conn [] :: rest) :
    Advances s (s.pop thread) := by
  refine .of_pop h hframes id (h.pop hframes) (fun other => ?_)
    (.return (h.work_pos (mem_work_of_frames hframes)))
  split <;> rfl

theorem advances_connectEstablished (h : s.Safe)
    (hframes : (s.eventLoops thread).frames = .functor (.connectEstablished conn) :: rest) :
    Advances s ((s.pop thread).connectEstablished conn) := by
  have hmem := mem_work_of_frames hframes
  have hpos := h.coherent.work_pos hmem
  have hpending := (h.sound conn).pending (decide_eq_true (h.coherent.routed thread _ hmem).1)
  have hdestroyed : (s.conns conn).destroyed = false := by
    by_contra hne
    have hest := ((h.sound conn).destroyed (eq_true_of_ne_false hne)).1
    rw [if_pos hest] at hpending
    have : (s.life conn).work .connectEstablished = 0 := by omega
    exact Nat.ne_of_gt hpos this
  refine .of_pop h.coherent hframes
    (fun life => { life with state := .kConnected, established := true }) ?_ (fun other => ?_)
    (.establish hpos)
  · unfold connectEstablished
    have hup : ((s.pop thread).modify conn
        ({ · with state := .kConnected, established := true })).Coherent :=
      (h.coherent.pop hframes).modify rfl rfl (fun _ hagrees => hagrees)
        fun _ _ => ⟨rfl, hdestroyed⟩
    refine hup.tie.updateChannel (fun _ _ => ⟨_, rfl⟩) ?_ ?_
    · simp [tie, modify_conns]
    · have hpop : ((s.pop thread).conns conn).destroyed = false := hdestroyed
      simpa [tie, modify_conns] using hpop
  · unfold connectEstablished
    rw [life_changeChannel, life_tie]
    exact life_modify rfl rfl

-- connectDestroyed runs among the functors, with no event of the loop under way.
theorem advances_connectDestroyed (h : s.Safe)
    (hframes : (s.eventLoops thread).frames = .functor (.connectDestroyed conn) :: rest) :
    Advances s ((s.pop thread).connectDestroyed conn) := by
  have hmem := mem_work_of_frames hframes
  have hpos := h.coherent.work_pos hmem
  obtain ⟨hlt, hplace⟩ : conn < s.made ∧ thread = (s.conns conn).loop :=
    h.coherent.routed thread _ hmem
  obtain ⟨halone, hactive⟩ := h.coherent.alone thread conn (hframes ▸ List.mem_cons_self)
  have hstate : (s.conns conn).state = .kDisconnected :=
    ((h.sound conn).closing (Nat.lt_of_lt_of_le hpos (Nat.le_add_left _ _))).2
  have hready : (s.life conn).ready = 0 := by
    change (s.eventLoops (s.conns conn).loop).activeChannel.countP _ = 0
    rw [← hplace, hactive]
    rfl
  have hevent : (s.life conn).work .handleEvent = 0 := by
    change (s.eventLoops (s.conns conn).loop).work.countP _ = 0
    rw [← hplace]
    refine List.countP_eq_zero.mpr fun frame hframe hat => ?_
    have hstage := (of_decide_eq_true hat).2
    obtain hcall | hqueued := List.mem_append.mp hframe
    · rw [halone] at hcall
      obtain rfl := List.mem_singleton.mp hcall
      cases hstage
    · obtain ⟨cb, -, rfl⟩ := List.mem_map.mp hqueued
      cases cb <;> cases hstage
  have heq : (s.pop thread).connectDestroyed conn =
      ((s.pop thread).changeChannel conn removeChannel).modify conn
        ({ · with destroyed := true }) := by
    unfold connectDestroyed
    rw [if_neg (by rw [show ((s.pop thread).conns conn).state = _ from hstate]; decide)]
  rw [heq]
  refine .of_pop h.coherent hframes
    (fun life => { life with state := .kDisconnected, destroyed := true }) ?_ (fun other => ?_)
    (.destroy hpos hready hevent)
  · obtain ⟨hremoved, hforgotten⟩ := (h.coherent.pop hframes).removeChannel conn
    exact hremoved.modify rfl rfl (fun _ hagrees => hagrees)
      fun thread hnot => absurd (hforgotten thread) hnot
  · rw [life_modify rfl rfl, life_changeChannel]
    by_cases hother : conn = other
    · subst hother
      rw [if_pos rfl, changeChannel_conns, if_pos rfl]
      refine Eq.trans ?_ (if_pos rfl).symm
      exact Life.ext hstate rfl rfl rfl rfl rfl rfl rfl
    · rw [if_neg hother]
      exact (if_neg hother).symm

end Proceed

section HandleEvent

variable {s t : Server} {thread : ThreadId} {conn : ConnId} {handler : Handler}
  {rest : List Handler} {frames : List Frame}

theorem Advances.of_life (hcoherent : t.Coherent) (hlife : ∀ conn, t.life conn = s.life conn) :
    Advances s t := ⟨hcoherent, fun conn => .inl (hlife conn)⟩

theorem Advances.trans_eq {u : Server} (hlife : ∀ conn, t.life conn = s.life conn)
    (h : Advances t u) : Advances s u where
  coherent := h.coherent
  life conn := by
    rw [← hlife conn]
    exact h.life conn

-- The next callback is taken from the frame.
theorem next_handler (h : s.Coherent)
    (hframes : (s.eventLoops thread).frames = .handleEvent conn (handler :: rest) :: frames) :
    ((s.pop thread).push thread (.handleEvent conn rest)).Coherent ∧
      (∀ other, ((s.pop thread).push thread (.handleEvent conn rest)).life other =
        s.life other) ∧
      ((s.pop thread).push thread (.handleEvent conn rest)).Spared thread := by
  have hmem := mem_work_of_frames hframes
  obtain ⟨hlt, hplace⟩ : conn < s.made ∧ thread = (s.conns conn).loop :=
    h.routed thread _ hmem
  have hspared := h.spared_pop hframes
  refine ⟨(h.pop hframes).push hlt hplace hspared Stage.noConfusion, fun other => ?_,
    hspared.push Stage.noConfusion⟩
  · rw [life_push (by exact hplace), life_pop hframes hplace]
    by_cases heq : conn = other
    · subst heq
      simp only [Frame.conn, Frame.stage, if_true]
      exact Life.give_take (h.work_pos hmem)
    · simp [Frame.conn, heq]

theorem advances_close (h : s.Safe) (hlt : conn < s.made)
    (hplace : thread = (s.conns conn).loop) (hspared : s.Spared thread)
    (hpos : 0 < (s.life conn).work .handleEvent) :
    Advances s (s.handleClose thread conn) := by
  obtain ⟨hest, hdestroyed⟩ :
      (s.conns conn).established = true ∧ (s.conns conn).destroyed = false :=
    (h.sound conn).handling (Nat.lt_of_lt_of_le hpos (by omega))
  have hdown : (s.setState conn .kDisconnected).Coherent := h.coherent.setState _
  have hdisabled : ((s.setState conn .kDisconnected).changeChannel conn disableAll).Coherent := by
    refine hdown.updateChannel (fun _ _ => ⟨_, rfl⟩) ?_ ?_
    · simpa [setState, modify_conns] using hest
    · simpa [setState, modify_conns] using hdestroyed
  have hloop : thread =
      (((s.setState conn .kDisconnected).changeChannel conn disableAll).conns conn).loop := by
    rw [changeChannel_conns, if_pos rfl, setState, modify_conns, if_pos rfl]
    exact hplace
  have hlife other : (s.handleClose thread conn).life other =
      if conn = other then { s.life other with state := .kDisconnected }.give .handleClose
      else s.life other := by
    rw [handleClose, life_push (by exact hloop), life_changeChannel, setState,
      life_modify rfl rfl]
    by_cases heq : conn = other
    · simp only [Frame.conn, Frame.stage, if_pos heq]
      rfl
    · simp only [Frame.conn, if_neg heq]
  refine .of_conn conn (hdisabled.push hlt hloop hspared Stage.noConfusion)
    (fun other hne => by rw [hlife, if_neg hne]) ?_
  rw [hlife, if_pos rfl]
  exact .close hpos

theorem advances_handleWrite (h : s.Safe) (hpos : 0 < (s.life conn).work .handleEvent)
    (drained : Bool) : Advances s (s.handleWrite conn drained) := by
  obtain ⟨hest, hdestroyed⟩ := (h.sound conn).handling (Nat.lt_of_lt_of_le hpos (by omega))
  unfold handleWrite
  split
  · exact .of_life (h.coherent.updateChannel (fun _ _ => ⟨_, rfl⟩) hest hdestroyed)
      fun _ => life_changeChannel
  · exact .of_life h.coherent fun _ => rfl

theorem advances_handle (h : s.Safe) (n : Callbacks.ReadResult) (drained : Bool)
    (hframes : (s.eventLoops thread).frames = .handleEvent conn (handler :: rest) :: frames) :
    Advances s
      (((s.pop thread).push thread (.handleEvent conn rest)).handle thread conn handler n
        drained) := by
  have hmem := mem_work_of_frames hframes
  obtain ⟨hlt, hplace⟩ : conn < s.made ∧ thread = (s.conns conn).loop :=
    h.coherent.routed thread _ hmem
  obtain ⟨hcoherent, hlife, hspared⟩ := next_handler h.coherent hframes
  have hsafe := h.advance (.of_life hcoherent hlife)
  have hpos : 0 < (((s.pop thread).push thread (.handleEvent conn rest)).life conn).work
      .handleEvent := by
    rw [hlife]
    exact h.coherent.work_pos hmem
  have hclose := advances_close hsafe hlt hplace hspared hpos
  have hnone : Advances s ((s.pop thread).push thread (.handleEvent conn rest)) :=
    .of_life hcoherent hlife
  cases handler with
  | handleClose => exact .trans_eq hlife hclose
  | handleError => exact hnone
  | handleRead =>
      simp only [handle]
      split
      · exact .trans_eq hlife hclose
      · exact hnone
  | handleWrite => exact .trans_eq hlife (advances_handleWrite hsafe hpos drained)

end HandleEvent

theorem advances_proceed {s : Server} {thread : ThreadId} {frame : Frame} {rest : List Frame}
    (h : s.Safe) (hframes : (s.eventLoops thread).frames = frame :: rest)
    (n : Callbacks.ReadResult) (drained : Bool) :
    Advances s (s.proceed thread n drained frame) := by
  cases frame with
  | newConnection conn => exact advances_newConnection h.coherent hframes
  | functor cb =>
      cases cb with
      | connectEstablished conn => exact advances_connectEstablished h hframes
      | removeConnectionInLoop conn => exact advances_erase h.coherent hframes
      | connectDestroyed conn => exact advances_connectDestroyed h hframes
  | handleEvent conn handlers =>
      cases handlers with
      | nil => exact advances_return h.coherent hframes
      | cons handler handlers => exact advances_handle h n drained hframes
  | handleClose conn => exact advances_handleClose h.coherent hframes
  | removeConnectionInLoop conn => exact advances_removeConnectionInLoop h.coherent hframes

section Loop

variable {s t : Server} {thread : ThreadId} {conn : ConnId} {loop : EventLoop}

theorem life_setLoop_of_eq (hwork : loop.work = (s.eventLoops thread).work)
    (hactive : loop.activeChannel = (s.eventLoops thread).activeChannel) :
    (s.setLoop thread loop).life conn = s.life conn := by
  rw [life_setLoop hwork, ready_setLoop_of_eq hactive]

theorem reported_known (h : s.Coherent) {revents : Callbacks.Revents}
    (hreported : s.Reported thread (.channel conn revents)) :
    thread = (s.conns conn).loop ∧ (s.conns conn).established = true ∧
      (s.conns conn).destroyed = false := by
  refine h.known thread conn fun hforgotten => ?_
  obtain ⟨⟨ptr, events⟩, hentry, rfl⟩ := Option.map_eq_some_iff.mp hreported
  exact (hforgotten _).2 events hentry

theorem advances_poll (h : s.Safe) {activeChannel : List Active}
    (hplace : (s.eventLoops thread).place = .poll) (hframes : (s.eventLoops thread).frames = [])
    (hreported : ∀ active ∈ activeChannel, s.Reported thread active) :
    Advances s
      (s.setLoop thread { s.eventLoops thread with place := .handleEvents activeChannel }) := by
  have hwork : { s.eventLoops thread with place := .handleEvents activeChannel }.work =
      (s.eventLoops thread).work := by
    simp [EventLoop.work, EventLoop.functors, hplace]
  refine ⟨h.coherent.setLoop (fun frame hmem => .inl (hwork ▸ hmem)) (fun active hmem => ?_)
    (fun conn hmem => ?_), fun conn => .inr ?_⟩
  · cases active with
    | acceptChannel => exact hreported _ hmem
    | channel conn revents => exact (reported_known h.coherent (hreported _ hmem)).1
  · rw [hframes] at hmem
    cases hmem
  · rw [life_setLoop hwork]
    refine .report _ fun hpos => ?_
    rw [ready_setLoop] at hpos
    split at hpos
    · obtain ⟨active, hmem, hof⟩ := List.countP_pos_iff.mp hpos
      cases active with
      | acceptChannel => exact absurd (of_decide_eq_true hof) id
      | channel other revents =>
          obtain rfl : other = conn := of_decide_eq_true hof
          exact (reported_known h.coherent (hreported _ hmem)).2
    · exact (h.sound conn).handling (Nat.lt_of_lt_of_le hpos (Nat.le_add_right _ _))

-- doPendingFunctors and its end: the same is under way, and nothing is reported.
theorem advances_place (h : s.Coherent)
    (hactive : (s.eventLoops thread).activeChannel = []) (hloop : loop.activeChannel = [])
    (halone : loop.frames = [] ∨ ∃ cb, loop.frames = [.functor cb])
    (hwork : loop.work = (s.eventLoops thread).work) : Advances s (s.setLoop thread loop) := by
  refine .of_life (h.setLoop (fun frame hmem => .inl (hwork ▸ hmem)) (fun active hmem => ?_)
    fun conn hmem => ⟨?_, hloop⟩) fun conn => life_setLoop_of_eq hwork (hloop.trans hactive.symm)
  · rw [hloop] at hmem
    cases hmem
  · obtain hnone | ⟨cb, hcall⟩ := halone
    · rw [hnone] at hmem
      cases hmem
    · rw [hcall] at hmem ⊢
      rw [List.mem_singleton.mp hmem]

theorem advances_call (h : s.Coherent) {cb : Functor} {rest : List Functor}
    (hfunctors : (s.eventLoops thread).functors = cb :: rest)
    (hframes : (s.eventLoops thread).frames = []) :
    Advances s
      ((s.setLoop thread
        { s.eventLoops thread with place := .doPendingFunctors rest }).push thread
          (.functor cb)) := by
  have hactive : (s.eventLoops thread).activeChannel = [] := by
    unfold EventLoop.functors at hfunctors
    unfold EventLoop.activeChannel
    split at hfunctors
    · rename_i hplace
      rw [hplace]
    · cases hfunctors
    · cases hfunctors
  have heq : (s.setLoop thread
      { s.eventLoops thread with place := .doPendingFunctors rest }).push thread (.functor cb) =
      s.setLoop thread
        { s.eventLoops thread with place := .doPendingFunctors rest, frames := [.functor cb] } := by
    simp [push, setLoop, hframes]
  rw [heq]
  refine advances_place h hactive rfl (.inr ⟨cb, rfl⟩) ?_
  simp only [EventLoop.work, hframes, hfunctors]
  rfl

-- The next entry of activeChannel_.
theorem next_active (h : s.Coherent) {active : Active} {rest : List Active}
    (hactive : (s.eventLoops thread).activeChannel = active :: rest)
    (hframes : (s.eventLoops thread).frames = []) :
    (s.setLoop thread { s.eventLoops thread with place := .handleEvents rest }).Coherent ∧
      (∀ conn, (s.setLoop thread
          { s.eventLoops thread with place := .handleEvents rest }).life conn =
        { s.life conn with ready := (s.life conn).ready - if active.Of conn then 1 else 0 }) := by
  have hplace : (s.eventLoops thread).place = .handleEvents (active :: rest) := by
    unfold EventLoop.activeChannel at hactive
    split at hactive
    · rename_i hplace
      rw [hplace, hactive]
    · cases hactive
    · cases hactive
  have hwork : { s.eventLoops thread with place := .handleEvents rest }.work =
      (s.eventLoops thread).work := by
    simp [EventLoop.work, EventLoop.functors, hplace]
  constructor
  · refine h.setLoop (fun frame hmem => .inl (hwork ▸ hmem)) (fun active hmem => ?_)
      fun conn hmem => ?_
    · exact h.reported thread active (hactive ▸ List.mem_cons_of_mem _ hmem)
    · rw [hframes] at hmem
      cases hmem
  · intro conn
    rw [life_setLoop hwork]
    refine Life.ext rfl rfl rfl rfl rfl rfl ?_ rfl
    change ((s.setLoop thread _).life conn).ready = _
    rw [ready_setLoop]
    by_cases hof : active.Of conn
    · have hloop : thread = (s.conns conn).loop := by
        cases active with
        | acceptChannel => exact hof.elim
        | channel other revents =>
            obtain rfl : other = conn := hof
            exact h.reported thread _ (hactive ▸ List.mem_cons_self)
      rw [if_pos hloop, if_pos hof]
      change _ = (s.eventLoops (s.conns conn).loop).activeChannel.countP _ - 1
      rw [← hloop, hactive, List.countP_cons_of_pos (by simpa using hof)]
      rfl
    · rw [if_neg hof, Nat.sub_zero]
      split
      · rename_i hloop
        change _ = (s.eventLoops (s.conns conn).loop).activeChannel.countP _
        rw [← hloop, hactive, List.countP_cons_of_neg (by simpa using hof)]
        rfl
      · rfl

theorem advances_accept (h : s.Safe) (hspared : s.Spared thread) (hmain : thread = s.loop)
    (sockfd : ℕ) : Advances s (s.newConnection thread sockfd) := by
  have hcreate := h.coherent.create (h.sound _) sockfd
  have hlife other : (s.newConnection thread sockfd).life other =
      if s.made = other then ((s.create sockfd).life other).give .newConnection
      else (s.create sockfd).life other :=
    life_push (by exact hmain)
  refine .of_conn s.made (hcreate.push (Nat.lt_succ_self _) hmain hspared Stage.noConfusion)
    (fun other hne => ?_) ?_
  · rw [hlife, if_neg hne, life_create_of_ne h.coherent (Ne.symm hne)]
  · rw [hlife, if_pos rfl, life_create h.coherent (h.sound _)]
    exact .create (decide_eq_false (Nat.lt_irrefl _))

theorem advances_handleEvent (h : s.Safe) {active : Active} {rest : List Active}
    (hactive : (s.eventLoops thread).activeChannel = active :: rest)
    (hframes : (s.eventLoops thread).frames = []) (connfd : Option ℕ) :
    Advances s
      ((s.setLoop thread { s.eventLoops thread with place := .handleEvents rest }).handleEvent
        thread connfd active) := by
  obtain ⟨hcoherent, hlife⟩ := next_active h.coherent hactive hframes
  have hspared : (s.setLoop thread
      { s.eventLoops thread with place := .handleEvents rest }).Spared thread := by
    intro conn hmem
    rw [eventLoops_setLoop, if_pos rfl] at hmem
    rw [hframes] at hmem
    cases hmem
  cases active with
  | acceptChannel =>
      have hsame conn : (s.setLoop thread
          { s.eventLoops thread with place := .handleEvents rest }).life conn = s.life conn :=
        hlife conn
      cases connfd with
      | none => exact .of_life hcoherent hsame
      | some sockfd =>
          have hmain := h.coherent.reported thread _ (hactive ▸ List.mem_cons_self)
          exact .trans_eq hsame
            (advances_accept (h.advance (.of_life hcoherent hsame)) hspared hmain sockfd)
  | channel conn revents =>
      have hplace : thread = (s.conns conn).loop :=
        h.coherent.reported thread (.channel conn revents) (hactive ▸ List.mem_cons_self)
      have hready : 0 < (s.life conn).ready := by
        change 0 < (s.eventLoops (s.conns conn).loop).activeChannel.countP _
        rw [← hplace, hactive]
        exact List.countP_pos_iff.mpr ⟨_, List.mem_cons_self, decide_eq_true rfl⟩
      have hlt : conn < s.made := by
        have hest := ((h.sound conn).handling (Nat.lt_of_lt_of_le hready (by omega))).1
        by_contra hnot
        rw [((h.sound conn).fresh (decide_eq_false hnot)).1] at hest
        cases hest
      have hother other (hne : conn ≠ other) :
          (s.setLoop thread { s.eventLoops thread with place := .handleEvents rest }).life other =
            s.life other := by
        rw [hlife, if_neg (by exact hne)]
        rfl
      have hself :
          (s.setLoop thread { s.eventLoops thread with place := .handleEvents rest }).life conn =
            { s.life conn with ready := (s.life conn).ready - 1 } := by
        rw [hlife, if_pos (by exact rfl)]
      simp only [handleEvent]
      split
      · refine .of_conn conn hcoherent hother ?_
        rw [hself]
        exact .skip
      · refine .of_conn conn (hcoherent.push hlt hplace hspared Stage.noConfusion)
          (fun other hne => ?_) ?_
        · rw [life_push (by exact hplace), if_neg (by exact hne), hother other hne]
        · rw [life_push (by exact hplace), if_pos (by exact rfl), hself]
          exact .handle hready

end Loop

section Calls

variable {s : Server} {conn : ConnId}

theorem advances_sendInLoop (h : s.Safe) (hstate : (s.conns conn).state ≠ .kConnecting)
    (remaining : Bool) : Advances s (s.sendInLoop conn remaining) := by
  unfold sendInLoop
  split
  · exact .of_life h.coherent fun _ => rfl
  · rename_i hdown
    split
    · refine .of_life (h.coherent.updateChannel (fun _ _ => ⟨_, rfl⟩) ?_ ?_)
        fun _ => life_changeChannel
      · by_contra hest
        exact hstate ((h.sound conn).connecting (eq_false_of_ne_true hest))
      · by_contra hdestroyed
        exact hdown ((h.sound conn).destroyed (eq_true_of_ne_false hdestroyed)).2.2
    · exact .of_life h.coherent fun _ => rfl

theorem advances_shutdown (h : s.Safe) : Advances s (s.shutdown conn) := by
  unfold shutdown
  split
  · rename_i hstate
    refine .of_conn conn (h.coherent.setState _) (fun other hne => ?_) ?_
    · rw [setState, life_modify rfl rfl, if_neg hne]
    · rw [setState, life_modify rfl rfl, if_pos rfl]
      exact .shutdown hstate
  · exact .of_life h.coherent fun _ => rfl

theorem place_mem (h : s.Coherent) (hlt : conn < s.made) (stage : Stage) :
    s.place conn stage ∈ s.threads := by
  unfold place
  split
  · exact List.mem_cons_self
  · exact (h.recorded conn hlt).1

theorem held_of_work (h : s.Coherent) (hlt : conn < s.made) {stage : Stage}
    (hpos : 0 < (s.life conn).work stage) : s.Held conn := by
  obtain ⟨frame, hmem, hat⟩ := List.countP_pos_iff.mp hpos
  exact .inr ⟨s.place conn stage, place_mem h hlt stage, frame, hmem, (of_decide_eq_true hat).1⟩

theorem advances_destruct (h : s.Safe) (hlt : conn < s.made) (hheld : ¬ s.Held conn) :
    Advances s (s.modify conn ({ · with closed := true })) := by
  refine .of_conn conn (h.coherent.modify rfl rfl (fun _ hagrees => hagrees)
    fun thread hnot => (h.coherent.known thread conn hnot).2)
    (fun other hne => ?_) ?_
  · rw [life_modify rfl rfl, if_neg hne]
  · rw [life_modify rfl rfl, if_pos rfl]
    refine .destruct (decide_eq_true hlt) ?_ fun stage => ?_
    · exact decide_eq_false fun hlisted => hheld (.inl ((listed_iff h.coherent).mpr hlisted))
    · by_contra hne
      exact hheld (held_of_work h.coherent hlt (Nat.pos_of_ne_zero hne))

end Calls

section Runs

variable {s t : Server} {e : Event}

theorem advances_step (h : s.Safe) (hs : Step s e t) : Advances s t := by
  obtain ⟨hguard, rfl⟩ := hs
  cases e with
  | poll thread activeChannel => exact advances_poll h hguard.1 hguard.2.1 hguard.2.2
  | handleEvent thread connfd =>
      obtain ⟨hactive, hframes, -⟩ := hguard
      obtain ⟨active, rest, hcons⟩ := List.exists_cons_of_ne_nil hactive
      simp only [next, hcons]
      exact advances_handleEvent h hcons hframes connfd
  | proceed thread n drained =>
      obtain ⟨frame, rest, hcons⟩ := List.exists_cons_of_ne_nil hguard
      simp only [next, hcons]
      exact advances_proceed h hcons n drained
  | doPendingFunctors thread =>
      obtain ⟨hplace, hframes⟩ := hguard
      refine advances_place h.coherent ?_ rfl (.inl hframes) ?_
      · simp [EventLoop.activeChannel, hplace]
      · simp [EventLoop.work, EventLoop.functors, hplace]
  | call thread =>
      obtain ⟨hfunctors, hframes⟩ := hguard
      obtain ⟨cb, rest, hcons⟩ := List.exists_cons_of_ne_nil hfunctors
      simp only [next, hcons]
      exact advances_call h.coherent hcons hframes
  | finish thread =>
      obtain ⟨hplace, hframes⟩ := hguard
      refine advances_place h.coherent ?_ rfl (.inl hframes) ?_
      · simp [EventLoop.activeChannel, hplace]
      · simp [EventLoop.work, EventLoop.functors, hplace]
  | sendInLoop conn remaining => exact advances_sendInLoop h hguard.2 remaining
  | shutdown conn => exact advances_shutdown h
  | destruct conn => exact advances_destruct h hguard.1.1 hguard.2

theorem safe_start (name ipPort : Bytes) (loop : ThreadId) (loops : List ThreadId) :
    (start name ipPort loop loops).Safe where
  coherent := {
    routed _ frame hmem := absurd hmem List.not_mem_nil
    reported _ active hmem := absurd hmem List.not_mem_nil
    alone _ conn hmem := absurd hmem List.not_mem_nil
    base := rfl
    count := rfl
    recorded conn hlt := absurd hlt (Nat.not_lt_zero _)
    entries _ hmem := absurd hmem List.not_mem_nil
    agrees _ := ⟨fun _ hfd => (nomatch hfd), fun _ _ hfd => (nomatch hfd)⟩
    known _ _ hnot :=
      absurd (fun _ => ⟨fun hfd => (nomatch hfd), fun _ hfd => (nomatch hfd)⟩) hnot }
  sound conn := by
    have hlife : (start name ipPort loop loops).life conn =
        ⟨.kConnecting, false, false, false, false, false, 0, fun _ => 0⟩ := rfl
    rw [hlife]
    constructor <;> simp

theorem safe_of_path {name ipPort : Bytes} {loop : ThreadId} {loops : List ThreadId}
    {es : List Event} (h : Path Step (start name ipPort loop loops) es s) : s.Safe :=
  h.invariant Safe (fun _ _ _ hsafe hs => hsafe.advance (advances_step hsafe hs))
    (safe_start name ipPort loop loops)

end Runs

section Lifetime

variable {s : Server} {conn : ConnId}

theorem Safe.made_of_established (h : s.Safe) (hest : (s.conns conn).established = true) :
    conn < s.made := by
  by_contra hnot
  have hnone : (s.conns conn).established = false :=
    ((h.sound conn).fresh (decide_eq_false hnot)).1
  exact Bool.noConfusion (hest.symm.trans hnone)

-- A plain pointer to the channel is followed between connectEstablished and
-- connectDestroyed only.
theorem Safe.watched (h : s.Safe) (hwatched : s.Watched conn) :
    (s.conns conn).established = true ∧ (s.conns conn).destroyed = false := by
  obtain ⟨thread, ⟨fd, hfd⟩ | ⟨revents, hmem⟩⟩ := hwatched
  · exact (h.coherent.known thread conn fun hforgotten => (hforgotten fd).1 hfd).2
  · have hplace : thread = (s.conns conn).loop := h.coherent.reported thread _ hmem
    have hready : 0 < (s.life conn).ready := by
      change 0 < (s.eventLoops (s.conns conn).loop).activeChannel.countP _
      rw [← hplace]
      exact List.countP_pos_iff.mpr ⟨_, hmem, decide_eq_true rfl⟩
    exact (h.sound conn).handling (Nat.lt_of_lt_of_le hready (Nat.le_add_right _ _))

-- Until connectDestroyed has run, the connection is in connections_ or on its way there.
theorem Safe.held (h : s.Safe) (hmade : conn < s.made)
    (hdestroyed : (s.conns conn).destroyed = false) : s.Held conn := by
  by_cases hlisted : (s.life conn).listed = true
  · exact .inl ((listed_iff h.coherent).mpr (of_decide_eq_true hlisted))
  · have hkept := (h.sound conn).kept (decide_eq_true hmade) (eq_false_of_ne_true hlisted)
      hdestroyed
    obtain herased | hqueued := Nat.add_pos_iff_pos_or_pos.mp hkept
    · exact held_of_work h.coherent hmade herased
    · exact held_of_work h.coherent hmade hqueued

theorem Safe.gone (h : s.Safe) (hdestroyed : (s.conns conn).destroyed = true) :
    ¬ s.Listed conn ∧ ∀ thread, (s.pollers thread).Forgotten conn := by
  constructor
  · intro hlisted
    have hentry := (listed_iff h.coherent).mp hlisted
    exact of_decide_eq_false ((h.sound conn).destroyed hdestroyed).2.1 hentry
  · intro thread
    by_contra hnot
    exact Bool.noConfusion ((h.coherent.known thread conn hnot).2.2.symm.trans hdestroyed)

-- From any start and in any order of the steps of all loops: connectEstablished comes
-- before connectDestroyed, whatever the loop may follow a pointer to is held, and after
-- connectDestroyed nothing refers to the connection. Its socket is not closed earlier. As
-- nextConnId_ is an int, this is about the source up to its connection 2 ^ 31 - 2.
theorem connection_lifetime {name ipPort : Bytes} {loop : ThreadId} {loops : List ThreadId}
    {es : List Event} (h : Path Step (start name ipPort loop loops) es s) (conn : ConnId) :
    ((s.conns conn).destroyed = true → (s.conns conn).established = true) ∧
      (s.Watched conn → s.Held conn) ∧
      ((s.conns conn).destroyed = true →
        ¬ s.Listed conn ∧ ¬ s.Watched conn ∧ ∀ thread, (s.pollers thread).Forgotten conn) ∧
      ((s.conns conn).closed = true → (s.conns conn).destroyed = true) := by
  have hsafe := safe_of_path h
  refine ⟨fun hdestroyed => ((hsafe.sound conn).destroyed hdestroyed).1, fun hwatched => ?_,
    fun hdestroyed => ?_, (hsafe.sound conn).closed⟩
  · obtain ⟨hest, hdestroyed⟩ := hsafe.watched hwatched
    exact hsafe.held (hsafe.made_of_established hest) hdestroyed
  · obtain ⟨hlisted, hforgotten⟩ := hsafe.gone hdestroyed
    refine ⟨hlisted, fun hwatched => ?_, hforgotten⟩
    exact Bool.noConfusion (hdestroyed.symm.trans (hsafe.watched hwatched).2)

-- One IO thread. The peer hangs up at once, and the connection goes from the main loop to
-- its own, back and again.
def hangUp : List Event :=
  [.poll 0 [.acceptChannel], .handleEvent 0 (some 5), .proceed 0 .failed false,
    .poll 1 [], .doPendingFunctors 1, .call 1, .proceed 1 .failed false, .finish 1,
    .poll 1 [.channel 0 { EPOLLIN := true }], .handleEvent 1 none, .proceed 1 (.read 0) false,
    .proceed 1 .failed false, .proceed 1 .failed false,
    .doPendingFunctors 0, .call 0, .proceed 0 .failed false, .proceed 0 .failed false, .finish 0,
    .doPendingFunctors 1, .call 1, .proceed 1 .failed false, .finish 1,
    .destruct 0]

def afterHangUp (n : ℕ) : Server := play next (start [] [] 0 [1]) (hangUp.take n)

theorem connection_lifetime_hangUp :
    ((afterHangUp 15).Watched 0 ∧ (afterHangUp 15).Held 0) ∧
      ((afterHangUp 23).conns 0).closed = true ∧ ((afterHangUp 23).conns 0).established = true ∧
        ¬ (afterHangUp 23).Listed 0 ∧ ¬ (afterHangUp 23).Watched 0 := by
  have hpath n (hplays : Plays Guard next (start [] [] 0 [1]) (hangUp.take n)) :
      Path Step (start [] [] 0 [1]) (hangUp.take n) (afterHangUp n) :=
    path_of_guards hplays
  have hwatched : (afterHangUp 15).Watched 0 := ⟨1, .inl ⟨5, by decide⟩⟩
  have hclosed : ((afterHangUp 23).conns 0).closed = true := by decide
  obtain ⟨-, hheld, -, -⟩ := connection_lifetime (hpath 15 (by decide)) 0
  obtain ⟨hest, -, hgone, hdestroyed⟩ := connection_lifetime (hpath 23 (by decide)) 0
  obtain ⟨hlisted, hunwatched, -⟩ := hgone (hdestroyed hclosed)
  exact ⟨⟨hwatched, hheld hwatched⟩, hclosed, hest (hdestroyed hclosed), hlisted, hunwatched⟩

end Lifetime

end Server

end MyTestserver.Lifetime
