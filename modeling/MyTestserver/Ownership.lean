import MyTestserver.LifeCycle
import MyTestserver.Lifetime

namespace MyTestserver.Lifetime

open EPollPoller (removeChannel)
open Transition

section Stages

def Functor.stage : Functor → Stage
  | .connectEstablished _ => .connectEstablished
  | .removeConnectionInLoop _ => .removeConnection
  | .connectDestroyed _ => .connectDestroyed

def Frame.stage : Frame → Stage
  | .newConnection _ => .newConnection
  | .functor cb => cb.stage
  | .handleEvent _ _ => .handleEvent
  | .handleClose _ => .handleClose
  | .removeConnectionInLoop _ => .removeConnectionInLoop

-- TcpServer does its part in the main loop, the rest is for the loop of the connection.
def Stage.OnMain : Stage → Prop
  | .newConnection | .removeConnection | .removeConnectionInLoop => True
  | .connectEstablished | .handleEvent | .handleClose | .connectDestroyed => False

instance (stage : Stage) : Decidable stage.OnMain :=
  match stage with
  | .newConnection | .removeConnection | .removeConnectionInLoop => .isTrue trivial
  | .connectEstablished | .handleEvent | .handleClose | .connectDestroyed => .isFalse id

def Frame.At (conn : ConnId) (stage : Stage) (frame : Frame) : Prop :=
  frame.conn = conn ∧ frame.stage = stage

instance (conn : ConnId) (stage : Stage) (frame : Frame) : Decidable (frame.At conn stage) :=
  inferInstanceAs (Decidable (frame.conn = conn ∧ frame.stage = stage))

def Active.Of (conn : ConnId) : Active → Prop
  | .acceptChannel => False
  | .channel other _ => other = conn

instance (conn : ConnId) (active : Active) : Decidable (active.Of conn) :=
  match active with
  | .acceptChannel => .isFalse id
  | .channel other _ => inferInstanceAs (Decidable (other = conn))

end Stages

namespace EventLoop

variable {loop : EventLoop}

theorem work_pop {frame : Frame} {rest : List Frame} (h : loop.frames = frame :: rest) :
    loop.work = frame :: { loop with frames := loop.frames.tail }.work := by
  simp [work, functors, h]

theorem work_queue (cb : Functor) :
    { loop with pendingFunctors := loop.pendingFunctors ++ [cb] }.work =
      loop.work ++ [.functor cb] := by
  simp [work, functors]

end EventLoop

namespace Server

section View

variable (s : Server) (conn : ConnId)

def place (stage : Stage) : ThreadId := if stage.OnMain then s.loop else (s.conns conn).loop

def tokens (stage : Stage) : ℕ :=
  (s.eventLoops (s.place conn stage)).work.countP (Frame.At conn stage ·)

-- The loop that an entry of activeChannel_ is for.
def home : Active → ThreadId
  | .acceptChannel => s.loop
  | .channel conn _ => (s.conns conn).loop

def entry (name : Bytes) : Option ConnId := s.connections.lookup name

-- What there is of the connection in the server.
def life : Life where
  state := (s.conns conn).state
  created := conn < s.made
  established := (s.conns conn).established
  destroyed := (s.conns conn).destroyed
  closed := (s.conns conn).closed
  listed := s.entry (s.conns conn).name = some conn
  ready := (s.eventLoops (s.conns conn).loop).activeChannel.countP (Active.Of conn ·)
  work := s.tokens conn

end View

-- Everything under way is where it belongs, names and loops are those given by
-- newConnection, and the poller of its loop is the only one to know a channel.
structure Coherent (s : Server) : Prop where
  routed : ∀ thread, ∀ frame ∈ (s.eventLoops thread).work,
    frame.conn < s.made ∧ thread = s.place frame.conn frame.stage
  reported : ∀ thread, ∀ active ∈ (s.eventLoops thread).activeChannel, thread = s.home active
  alone : ∀ thread conn, .functor (.connectDestroyed conn) ∈ (s.eventLoops thread).frames →
    (s.eventLoops thread).frames = [.functor (.connectDestroyed conn)] ∧
      (s.eventLoops thread).activeChannel = []
  base : s.threadPool.baseLoop = s.loop
  count : s.nextConnId = s.made + 1
  recorded : ∀ conn < s.made,
    (s.conns conn).loop ∈ s.threads ∧ (s.conns conn).name = s.connName (conn + 1)
  entries : ∀ entry ∈ s.connections.entries,
    entry.2 < s.made ∧ entry.1 = s.connName (entry.2 + 1)
  agrees : ∀ conn, (s.pollers (s.conns conn).loop).Agrees conn (s.conns conn).channel
  known : ∀ thread conn, ¬ (s.pollers thread).Forgotten conn →
    thread = (s.conns conn).loop ∧ (s.conns conn).established = true ∧
      (s.conns conn).destroyed = false

section Primitives

variable {s : Server} {thread : ThreadId} {conn : ConnId} {loop : EventLoop} {frame : Frame}

theorem tokens_setLoop (stage : Stage) :
    (s.setLoop thread loop).tokens conn stage =
      if thread = s.place conn stage then loop.work.countP (Frame.At conn stage ·)
      else s.tokens conn stage := by
  have hplace : (s.setLoop thread loop).place conn stage = s.place conn stage := rfl
  rw [tokens, hplace]
  split
  · rename_i h
    simp [setLoop, h]
  · rename_i h
    simp [setLoop, tokens, Function.update_of_ne (Ne.symm h)]

theorem ready_setLoop :
    ((s.setLoop thread loop).life conn).ready =
      if thread = (s.conns conn).loop then loop.activeChannel.countP (Active.Of conn ·)
      else (s.life conn).ready := by
  change ((Function.update s.eventLoops thread loop) (s.conns conn).loop).activeChannel.countP _ = _
  split
  · rename_i h
    simp [h]
  · rename_i h
    simp [life, Function.update_of_ne (Ne.symm h)]

theorem ready_setLoop_of_eq
    (hactive : loop.activeChannel = (s.eventLoops thread).activeChannel) :
    ((s.setLoop thread loop).life conn).ready = (s.life conn).ready := by
  rw [ready_setLoop, hactive]
  split
  · rename_i h
    rw [h]
    rfl
  · rfl

-- One more frame is counted once, at its stage, and for its connection only.
theorem tokens_grow (hwork : loop.work.Perm (frame :: (s.eventLoops thread).work))
    (hplace : thread = s.place frame.conn frame.stage) (stage : Stage) :
    (s.setLoop thread loop).tokens conn stage =
      s.tokens conn stage + if frame.At conn stage then 1 else 0 := by
  rw [tokens_setLoop]
  by_cases hat : frame.At conn stage
  · obtain ⟨rfl, rfl⟩ := hat
    rw [if_pos hplace, hwork.countP_eq, tokens, ← hplace]
    simp [Frame.At]
  · rw [if_neg hat, Nat.add_zero]
    split
    · rename_i h
      rw [hwork.countP_eq, tokens, ← h, List.countP_cons_of_neg (by simpa using hat)]
    · rfl

theorem life_grow (hwork : loop.work.Perm (frame :: (s.eventLoops thread).work))
    (hactive : loop.activeChannel = (s.eventLoops thread).activeChannel)
    (hplace : thread = s.place frame.conn frame.stage) :
    (s.setLoop thread loop).life conn =
      if frame.conn = conn then (s.life conn).give frame.stage else s.life conn := by
  have hready : ((s.setLoop thread loop).life conn).ready = (s.life conn).ready :=
    ready_setLoop_of_eq hactive
  have htokens stage : (s.setLoop thread loop).tokens conn stage =
      s.tokens conn stage + if frame.At conn stage then 1 else 0 :=
    tokens_grow hwork hplace stage
  have hlife : (s.setLoop thread loop).life conn =
      { s.life conn with work := (s.setLoop thread loop).tokens conn } := by
    unfold life at hready ⊢
    rw [Life.mk.injEq]
    exact ⟨rfl, rfl, rfl, rfl, rfl, rfl, hready, rfl⟩
  rw [hlife]
  split
  · rename_i h
    refine Life.ext rfl rfl rfl rfl rfl rfl rfl (funext fun stage => ?_)
    change (s.setLoop thread loop).tokens conn stage = ((s.life conn).give frame.stage).work stage
    rw [htokens, Life.give]
    simp only [Function.update_apply]
    by_cases hs : frame.stage = stage
    · subst hs
      simp [Frame.At, h, life]
    · simp [Frame.At, hs, Ne.symm hs, life]
  · rename_i h
    have htokens : (s.setLoop thread loop).tokens conn = s.tokens conn :=
      funext fun stage => by simp [htokens, Frame.At, h]
    rw [htokens]
    rfl

theorem life_push (hplace : thread = s.place frame.conn frame.stage) :
    (s.push thread frame).life conn =
      if frame.conn = conn then (s.life conn).give frame.stage else s.life conn :=
  life_grow (List.Perm.refl _) rfl hplace

theorem life_queueInLoop {cb : Functor} (hplace : thread = s.place cb.conn cb.stage) :
    (s.queueInLoop thread cb).life conn =
      if cb.conn = conn then (s.life conn).give cb.stage else s.life conn := by
  have hwork := List.perm_append_singleton (Frame.functor cb) (s.eventLoops thread).work
  rw [← EventLoop.work_queue] at hwork
  exact life_grow hwork rfl hplace

-- At once or later, the functor comes to its loop.
theorem life_runInLoop {cb : Functor} {other : ThreadId}
    (hplace : other = s.place cb.conn cb.stage) :
    (s.runInLoop thread other cb).life conn =
      if cb.conn = conn then (s.life conn).give cb.stage else s.life conn := by
  unfold runInLoop
  split
  · rename_i h
    exact life_push (h.trans hplace)
  · exact life_queueInLoop hplace

theorem life_pop {rest : List Frame} (h : (s.eventLoops thread).frames = frame :: rest)
    (hplace : thread = s.place frame.conn frame.stage) :
    (s.pop thread).life conn =
      if frame.conn = conn then (s.life conn).take frame.stage else s.life conn := by
  have hback : (s.pop thread).setLoop thread (s.eventLoops thread) = s := by
    simp [pop, setLoop]
  have hself : (s.pop thread).eventLoops thread =
      { s.eventLoops thread with frames := (s.eventLoops thread).frames.tail } := by
    simp [pop, setLoop]
  have hwork : (s.eventLoops thread).work.Perm (frame :: ((s.pop thread).eventLoops thread).work) :=
    by rw [hself, EventLoop.work_pop h]
  have hactive : (s.eventLoops thread).activeChannel =
      ((s.pop thread).eventLoops thread).activeChannel := by
    rw [hself]
    rfl
  have hgrow : ((s.pop thread).setLoop thread (s.eventLoops thread)).life conn = _ :=
    life_grow hwork hactive hplace
  rw [hback] at hgrow
  rw [hgrow]
  split <;> simp

-- The places of loop() only change what is reported.
theorem life_setLoop (hwork : loop.work = (s.eventLoops thread).work) :
    (s.setLoop thread loop).life conn =
      { s.life conn with ready := ((s.setLoop thread loop).life conn).ready } := by
  refine Life.ext rfl rfl rfl rfl rfl rfl rfl (funext fun stage => ?_)
  change (s.setLoop thread loop).tokens conn stage = s.tokens conn stage
  rw [tokens_setLoop, hwork]
  split
  · rename_i h
    rw [h, tokens]
  · rfl

-- Where nothing is under way that was not before, the connection's own record decides.
theorem life_of_record {t : Server} (hloops : t.eventLoops = s.eventLoops)
    (hmain : t.loop = s.loop) (hnext : t.made = s.made)
    (hconnections : t.connections = s.connections)
    (hname : (t.conns conn).name = (s.conns conn).name)
    (hloop : (t.conns conn).loop = (s.conns conn).loop) :
    t.life conn =
      { s.life conn with
        state := (t.conns conn).state
        established := (t.conns conn).established
        destroyed := (t.conns conn).destroyed
        closed := (t.conns conn).closed } := by
  have htokens : t.tokens conn = s.tokens conn :=
    funext fun stage => by simp [tokens, place, hloops, hmain, hloop]
  have hentry : t.entry = s.entry := funext fun name => by rw [entry, entry, hconnections]
  simp [life, hentry, htokens, hloops, hnext, hname, hloop]

theorem life_modify {other : ConnId} {change : Connection → Connection}
    (hname : (change (s.conns conn)).name = (s.conns conn).name)
    (hloop : (change (s.conns conn)).loop = (s.conns conn).loop) :
    (s.modify conn change).life other =
      if conn = other then
        { s.life other with
          state := (change (s.conns other)).state
          established := (change (s.conns other)).established
          destroyed := (change (s.conns other)).destroyed
          closed := (change (s.conns other)).closed }
      else s.life other := by
  split
  · rename_i heq
    subst heq
    have hconns : (s.modify conn change).conns conn = change (s.conns conn) :=
      Function.update_self _ _ _
    rw [life_of_record (s := s) (t := s.modify conn change) rfl rfl rfl rfl
      ((congrArg Connection.name hconns).trans hname)
      ((congrArg Connection.loop hconns).trans hloop), hconns]
  · rename_i hne
    have hconns : (s.modify conn change).conns other = s.conns other :=
      Function.update_of_ne (Ne.symm hne) _ _
    rw [life_of_record (s := s) (t := s.modify conn change) rfl rfl rfl rfl
      (congrArg Connection.name hconns) (congrArg Connection.loop hconns), hconns]
    rfl

theorem life_tie {other : ConnId} : (s.tie conn).life other = s.life other := by
  unfold tie
  rw [life_modify rfl rfl]
  split <;> rfl

theorem life_setPoller {poller : EPollPoller ConnId} :
    (s.setPoller thread poller).life conn = s.life conn := rfl

theorem life_changeChannel {other : ConnId}
    {change : EPollPoller ConnId → ConnId → Channel → EPollPoller ConnId × Channel} :
    (s.changeChannel conn change).life other = s.life other := by
  unfold changeChannel
  rw [life_setPoller, life_modify rfl rfl]
  split <;> rfl

end Primitives

section Names

variable {s : Server} {conn other : ConnId}

theorem ascii_injective {text text' : String} (h : ascii text = ascii text') : text = text' :=
  String.toByteArray_inj.mp (ByteArray.ext (Array.toList_inj.mp h))

theorem toString_injective {m n : ℕ} (h : toString m = toString n) : m = n := by
  have hdigits : Nat.toDigits 10 m = Nat.toDigits 10 n := String.ofList_injective h
  rw [← Nat.ofDigitChars_ten_toDigits (n := m), hdigits, Nat.ofDigitChars_ten_toDigits]

theorem connName_injective {m n : ℕ} (h : s.connName m = s.connName n) : m = n :=
  toString_injective (ascii_injective (List.append_cancel_left h))

theorem Coherent.entry (h : s.Coherent) {name : Bytes} (hname : s.entry name = some conn) :
    conn < s.made ∧ name = s.connName (conn + 1) :=
  h.entries ⟨name, conn⟩ (AList.mem_lookup_iff.mp hname)

-- An entry under the name of another connection is none for this one.
theorem Coherent.entry_of_ne (h : s.Coherent) (hne : other ≠ conn) {name : Bytes}
    (hname : name = s.connName (conn + 1)) : s.entry name ≠ some other := fun hentry =>
  hne (Nat.succ.inj (connName_injective ((h.entry hentry).2.symm.trans hname)))

theorem listed_iff (h : s.Coherent) : s.Listed conn ↔ s.entry (s.conns conn).name = some conn := by
  constructor
  · rintro ⟨⟨name, other⟩, hmem, rfl⟩
    obtain ⟨hlt, hname⟩ := h.entries _ hmem
    rw [(h.recorded _ hlt).2, ← hname]
    exact AList.mem_lookup_iff.mpr hmem
  · intro hentry
    exact ⟨⟨_, conn⟩, AList.mem_lookup_iff.mp hentry, rfl⟩

theorem life_erase (h : s.Coherent) (hconn : conn < s.made) :
    (s.erase conn).life other =
      if conn = other then { s.life other with listed := false } else s.life other := by
  have hname := (h.recorded conn hconn).2
  have hentry name : (s.erase conn).entry name =
      if name = (s.conns conn).name then none else s.entry name := by
    unfold entry erase
    split
    · rename_i hn
      rw [hn]
      exact AList.lookup_erase _ _
    · rename_i hn
      exact AList.lookup_erase_ne hn
  have hlife : (s.erase conn).life other =
      { s.life other with listed := (s.erase conn).entry (s.conns other).name = some other } :=
    rfl
  rw [hlife, hentry]
  by_cases heq : conn = other
  · subst heq
    simp
  · rw [if_neg heq]
    split
    · rename_i hn
      have hnone := h.entry_of_ne (Ne.symm heq) (hn.trans hname)
      simp [life, hnone]
    · rfl

end Names

section Create

variable {s : Server} {conn : ConnId} {sockfd : ℕ}

theorem create_conns_of_ne (sockfd : ℕ) (h : conn ≠ s.made) :
    (s.create sockfd).conns conn = s.conns conn := Function.update_of_ne h _ _

theorem create_conns_self :
    (s.create sockfd).conns s.made =
      .new (s.connName s.nextConnId) s.threadPool.getNextLoop.1 sockfd :=
  Function.update_self _ _ _

theorem create_entry (name : Bytes) :
    (s.create sockfd).entry name =
      if name = s.connName s.nextConnId then some s.made else s.entry name := by
  change (s.connections.insert _ _).lookup name = _
  split
  · rename_i h
    rw [h]
    exact AList.lookup_insert _
  · rename_i h
    exact AList.lookup_insert_ne h

theorem life_create_of_ne (h : s.Coherent) (hne : conn ≠ s.made) :
    (s.create sockfd).life conn = s.life conn := by
  have hconns := create_conns_of_ne sockfd hne
  have htokens : (s.create sockfd).tokens conn = s.tokens conn := funext fun stage => by
    rw [tokens, tokens, place, place, hconns]
    rfl
  have hcreated : conn < (s.create sockfd).made ↔ conn < s.made :=
    Nat.lt_succ_iff.trans (Nat.le_iff_lt_or_eq.trans (or_iff_left hne))
  have hlisted : (s.create sockfd).entry (s.conns conn).name = some conn ↔
      s.entry (s.conns conn).name = some conn := by
    rw [create_entry]
    split
    · rename_i hname
      exact ⟨fun hself => absurd (Option.some.inj hself).symm hne,
        fun hentry => absurd hentry (h.entry_of_ne hne (hname.trans (h.count ▸ rfl)))⟩
    · rfl
  unfold life
  rw [hconns, htokens]
  congr 1
  · exact decide_eq_decide.mpr hcreated
  · exact decide_eq_decide.mpr hlisted

-- Nothing is known of a connection before it is made.
theorem tokens_fresh (h : s.Coherent) (thread : ThreadId) (stage : Stage) :
    (s.eventLoops thread).work.countP (Frame.At s.made stage ·) = 0 := by
  refine List.countP_eq_zero.mpr fun frame hmem hat => ?_
  have hlt := (h.routed thread frame hmem).1
  exact Nat.ne_of_lt hlt (of_decide_eq_true hat).1

theorem ready_fresh (h : s.Coherent) (hsound : (s.life s.made).Sound)
    (thread : ThreadId) :
    (s.eventLoops thread).activeChannel.countP (Active.Of s.made ·) = 0 := by
  have hfresh := hsound.fresh (decide_eq_false (Nat.lt_irrefl _))
  by_contra hne
  obtain ⟨active, hmem, hof⟩ := List.countP_pos_iff.mp (Nat.pos_of_ne_zero hne)
  cases active with
  | acceptChannel => exact absurd (of_decide_eq_true hof) id
  | channel other revents =>
      obtain rfl : other = s.made := of_decide_eq_true hof
      obtain rfl : thread = (s.conns s.made).loop := h.reported thread _ hmem
      exact hne hfresh.2.2.2.2.1

theorem life_create (h : s.Coherent) (hsound : (s.life s.made).Sound) :
    (s.create sockfd).life s.made = (s.life s.made).create := by
  have hready thread := ready_fresh h hsound thread
  have htokens thread stage := tokens_fresh h thread stage
  refine Life.ext ?_ ?_ ?_ ?_ ?_ ?_ ?_ (funext fun stage => ?_)
  · simp [life, Life.create, create_conns_self, Connection.new]
  · simp [life, Life.create, create]
  · simp [life, Life.create, create_conns_self, Connection.new]
  · simp [life, Life.create, create_conns_self, Connection.new]
  · simp [life, Life.create, create_conns_self, Connection.new]
  · simp [life, Life.create, create_conns_self, create_entry, Connection.new]
  · exact (hready _).trans (hready _).symm
  · exact (htokens _ stage).trans (htokens _ stage).symm

end Create

section Coherence

variable {s : Server} {thread other : ThreadId} {conn : ConnId} {loop : EventLoop}
  {frame : Frame}

theorem eventLoops_setLoop :
    (s.setLoop thread loop).eventLoops other =
      if other = thread then loop else s.eventLoops other := by
  simp [setLoop, Function.update_apply]

theorem Coherent.setLoop (h : s.Coherent)
    (hrouted : ∀ frame ∈ loop.work, frame ∈ (s.eventLoops thread).work ∨
      frame.conn < s.made ∧ thread = s.place frame.conn frame.stage)
    (hreported : ∀ active ∈ loop.activeChannel, thread = s.home active)
    (halone : ∀ conn, .functor (.connectDestroyed conn) ∈ loop.frames →
      loop.frames = [.functor (.connectDestroyed conn)] ∧ loop.activeChannel = []) :
    (s.setLoop thread loop).Coherent where
  routed other frame hmem := by
    rw [eventLoops_setLoop] at hmem
    split at hmem
    · rename_i heq
      subst heq
      obtain hold | hnew := hrouted frame hmem
      · exact h.routed other frame hold
      · exact hnew
    · exact h.routed other frame hmem
  reported other active hmem := by
    rw [eventLoops_setLoop] at hmem
    split at hmem
    · rename_i heq
      exact heq.trans (hreported active hmem)
    · exact h.reported other active hmem
  alone other conn hmem := by
    rw [eventLoops_setLoop] at hmem ⊢
    split at hmem
    · rename_i heq
      rw [if_pos heq]
      exact halone conn hmem
    · rename_i hne
      rw [if_neg hne]
      exact h.alone other conn hmem
  base := h.base
  count := h.count
  recorded := h.recorded
  entries := h.entries
  agrees := h.agrees
  known := h.known

-- No connection is being destroyed on the thread.
def Spared (s : Server) (thread : ThreadId) : Prop :=
  ∀ conn, .functor (.connectDestroyed conn) ∉ (s.eventLoops thread).frames

theorem Spared.push (h : s.Spared thread) (hframe : frame.stage ≠ .connectDestroyed) :
    (s.push thread frame).Spared thread := by
  intro conn hmem
  rw [Server.push, eventLoops_setLoop, if_pos rfl] at hmem
  obtain rfl | hold := List.mem_cons.mp hmem
  · exact hframe rfl
  · exact h conn hold

theorem Coherent.push (h : s.Coherent) (hconn : frame.conn < s.made)
    (hplace : thread = s.place frame.conn frame.stage) (hspared : s.Spared thread)
    (hframe : frame.stage ≠ .connectDestroyed) : (s.push thread frame).Coherent := by
  refine h.setLoop (fun other hmem => ?_) (h.reported thread)
    fun conn hmem => ?_
  · obtain rfl | hold := List.mem_cons.mp hmem
    · exact .inr ⟨hconn, hplace⟩
    · exact .inl hold
  · obtain rfl | hold := List.mem_cons.mp hmem
    · exact absurd rfl hframe
    · exact absurd hold (hspared conn)

theorem Coherent.queueInLoop (h : s.Coherent) {cb : Functor} (hconn : cb.conn < s.made)
    (hplace : thread = s.place cb.conn cb.stage) : (s.queueInLoop thread cb).Coherent := by
  refine h.setLoop (fun frame hmem => ?_) (h.reported thread)
    fun conn => h.alone thread conn
  rw [EventLoop.work_queue] at hmem
  obtain hold | hnew := List.mem_append.mp hmem
  · exact .inl hold
  · obtain rfl := List.mem_singleton.mp hnew
    exact .inr ⟨hconn, hplace⟩

theorem Coherent.runInLoop (h : s.Coherent) {cb : Functor} (hconn : cb.conn < s.made)
    (hplace : other = s.place cb.conn cb.stage) (hspared : s.Spared thread)
    (hcb : cb.stage ≠ .connectDestroyed) : (s.runInLoop thread other cb).Coherent := by
  unfold Server.runInLoop
  split
  · rename_i heq
    exact h.push hconn (heq.trans hplace) hspared hcb
  · exact h.queueInLoop hconn hplace

theorem frames_pop {rest : List Frame} (hframes : (s.eventLoops thread).frames = frame :: rest) :
    ((s.pop thread).eventLoops thread).frames = rest := by
  simp [Server.pop, eventLoops_setLoop, hframes]

-- connectDestroyed is called with nothing else under way on the thread.
theorem Coherent.spared_pop (h : s.Coherent) {rest : List Frame}
    (hframes : (s.eventLoops thread).frames = frame :: rest) : (s.pop thread).Spared thread := by
  intro conn hmem
  rw [frames_pop hframes] at hmem
  have halone := (h.alone thread conn (hframes ▸ List.mem_cons_of_mem _ hmem)).1
  rw [hframes] at halone
  rw [(List.cons.inj halone).2] at hmem
  cases hmem

theorem Coherent.pop (h : s.Coherent) {rest : List Frame}
    (hframes : (s.eventLoops thread).frames = frame :: rest) : (s.pop thread).Coherent := by
  refine h.setLoop (fun other hmem => .inl ?_) (h.reported thread)
    fun conn hmem => ?_
  · rw [EventLoop.work_pop hframes]
    exact List.mem_cons_of_mem _ hmem
  · have hspared := h.spared_pop hframes conn
    rw [frames_pop hframes] at hspared
    rw [hframes] at hmem
    exact absurd hmem hspared

-- A change of records and pollers alone, which leaves names and loops as they are.
theorem Coherent.of_records (h : s.Coherent) {t : Server}
    (ht : t = { s with conns := t.conns, pollers := t.pollers })
    (hname : ∀ conn, (t.conns conn).name = (s.conns conn).name)
    (hloop : ∀ conn, (t.conns conn).loop = (s.conns conn).loop)
    (hagrees : ∀ conn, (t.pollers (s.conns conn).loop).Agrees conn (t.conns conn).channel)
    (hknown : ∀ thread conn, ¬ (t.pollers thread).Forgotten conn →
      thread = (s.conns conn).loop ∧ (t.conns conn).established = true ∧
        (t.conns conn).destroyed = false) :
    t.Coherent := by
  rw [ht]
  exact {
    routed thread frame hmem := by
      obtain ⟨hlt, hplace⟩ := h.routed thread frame hmem
      refine ⟨hlt, hplace.trans ?_⟩
      rw [place, place, hloop]
    reported thread active hmem := by
      refine (h.reported thread active hmem).trans ?_
      cases active with
      | acceptChannel => rfl
      | channel conn revents => exact (hloop conn).symm
    alone := h.alone
    base := h.base
    count := h.count
    recorded conn hlt := by
      obtain ⟨hmem, hconn⟩ := h.recorded conn hlt
      exact ⟨(hloop conn).symm ▸ hmem, (hname conn).trans hconn⟩
    entries := h.entries
    agrees conn := (hloop conn).symm ▸ hagrees conn
    known thread conn hnot := (hloop conn).symm ▸ hknown thread conn hnot }

theorem modify_conns {change : Connection → Connection} (other : ConnId) :
    (s.modify conn change).conns other =
      if other = conn then change (s.conns conn) else s.conns other :=
  Function.update_apply _ _ _ _

theorem Coherent.modify (h : s.Coherent) {change : Connection → Connection}
    (hname : (change (s.conns conn)).name = (s.conns conn).name)
    (hloop : (change (s.conns conn)).loop = (s.conns conn).loop)
    (hagrees : ∀ poller : EPollPoller ConnId, poller.Agrees conn (s.conns conn).channel →
      poller.Agrees conn (change (s.conns conn)).channel)
    (hknown : ∀ thread, ¬ (s.pollers thread).Forgotten conn →
      (change (s.conns conn)).established = true ∧ (change (s.conns conn)).destroyed = false) :
    (s.modify conn change).Coherent := by
  refine h.of_records (t := s.modify conn change) rfl (fun other => ?_) (fun other => ?_)
    (fun other => ?_) fun thread other hnot => ?_
  · rw [modify_conns]
    split
    · rename_i heq
      rw [hname, heq]
    · rfl
  · rw [modify_conns]
    split
    · rename_i heq
      rw [hloop, heq]
    · rfl
  · rw [modify_conns]
    split
    · rename_i heq
      subst heq
      exact hagrees _ (h.agrees other)
    · exact h.agrees other
  · refine ⟨(h.known thread other hnot).1, ?_⟩
    rw [modify_conns]
    split
    · rename_i heq
      exact hknown thread (heq ▸ hnot)
    · exact (h.known thread other hnot).2

theorem Coherent.tie (h : s.Coherent) : (s.tie conn).Coherent :=
  h.modify rfl rfl (fun _ hagrees => ⟨hagrees.channels, hagrees.epoll⟩)
    fun thread hnot => (h.known thread conn hnot).2

theorem Coherent.setState (h : s.Coherent) (state : StateE) :
    (s.setState conn state).Coherent :=
  h.modify rfl rfl (fun _ hagrees => hagrees) fun thread hnot => (h.known thread conn hnot).2

theorem Coherent.erase (h : s.Coherent) : (s.erase conn).Coherent where
  routed := h.routed
  reported := h.reported
  alone := h.alone
  base := h.base
  count := h.count
  recorded := h.recorded
  entries entry hmem := h.entries entry ((List.kerase_sublist _ _).subset hmem)
  agrees := h.agrees
  known := h.known

theorem getNextLoop_mem (pool : EventLoopThreadPool) :
    pool.getNextLoop.1 ∈ pool.baseLoop :: pool.loops := by
  unfold EventLoopThreadPool.getNextLoop
  split
  · exact List.mem_cons_self
  · exact List.mem_cons_of_mem _ (List.get_mem _ _)

theorem getNextLoop_snd (pool : EventLoopThreadPool) :
    pool.getNextLoop.2.baseLoop = pool.baseLoop ∧ pool.getNextLoop.2.loops = pool.loops := by
  unfold EventLoopThreadPool.getNextLoop
  split <;> exact ⟨rfl, rfl⟩

theorem Coherent.create (h : s.Coherent) (hsound : (s.life s.made).Sound) (sockfd : ℕ) :
    (s.create sockfd).Coherent := by
  have hthreads : (s.create sockfd).threads = s.threads :=
    congrArg (s.loop :: ·) (getNextLoop_snd s.threadPool).2
  have hforgotten thread : (s.pollers thread).Forgotten s.made := by
    by_contra hnot
    have hnone : (s.conns s.made).established = false :=
      (hsound.fresh (decide_eq_false (Nat.lt_irrefl _))).1
    exact Bool.noConfusion ((h.known thread _ hnot).2.1.symm.trans hnone)
  exact {
    routed thread frame hmem := by
      obtain ⟨hlt, hplace⟩ := h.routed thread frame hmem
      refine ⟨Nat.lt_succ_of_lt hlt, hplace.trans ?_⟩
      rw [place, place, create_conns_of_ne sockfd (Nat.ne_of_lt hlt)]
      rfl
    reported thread active hmem := by
      refine (h.reported thread active hmem).trans ?_
      cases active with
      | acceptChannel => rfl
      | channel conn revents =>
          have hne : conn ≠ s.made := by
            rintro rfl
            have hnone := List.countP_eq_zero.mp (ready_fresh h hsound thread) _ hmem
            exact hnone (decide_eq_true rfl)
          rw [home, home, create_conns_of_ne sockfd hne]
    alone := h.alone
    base := (getNextLoop_snd s.threadPool).1.trans h.base
    count := congrArg (· + 1) h.count
    recorded conn hlt := by
      rw [hthreads]
      by_cases heq : conn = s.made
      · rw [heq, create_conns_self]
        have hmem := getNextLoop_mem s.threadPool
        rw [h.base] at hmem
        exact ⟨hmem, congrArg s.connName h.count⟩
      · rw [create_conns_of_ne sockfd heq]
        exact h.recorded conn (Nat.lt_of_le_of_ne (Nat.le_of_lt_succ hlt) heq)
    entries entry hmem := by
      have hentry : (s.create sockfd).entry entry.1 = some entry.2 := AList.mem_lookup_iff.mpr hmem
      rw [create_entry] at hentry
      split at hentry
      · rename_i hname
        obtain heq := Option.some.inj hentry
        exact ⟨heq ▸ Nat.lt_succ_self _, heq ▸ hname.trans (congrArg s.connName h.count)⟩
      · obtain ⟨hlt, hname⟩ := h.entry hentry
        exact ⟨Nat.lt_succ_of_lt hlt, hname⟩
    agrees conn := by
      by_cases heq : conn = s.made
      · rw [heq]
        exact (hforgotten _).agrees _
      · rw [create_conns_of_ne sockfd heq]
        exact h.agrees conn
    known thread conn hnot := by
      by_cases heq : conn = s.made
      · exact absurd (heq ▸ hforgotten thread) hnot
      · rw [create_conns_of_ne sockfd heq]
        exact h.known thread conn hnot }

section ChangeChannel

variable {change : EPollPoller ConnId → ConnId → Channel → EPollPoller ConnId × Channel}

theorem changeChannel_conns (other : ConnId) :
    (s.changeChannel conn change).conns other =
      if other = conn then
        { s.conns conn with
          channel := (change (s.pollers (s.conns conn).loop) conn (s.conns conn).channel).2 }
      else s.conns other :=
  Function.update_apply _ _ _ _

theorem changeChannel_pollers (thread : ThreadId) :
    (s.changeChannel conn change).pollers thread =
      if thread = (s.conns conn).loop then
        (change (s.pollers (s.conns conn).loop) conn (s.conns conn).channel).1
      else s.pollers thread :=
  Function.update_apply _ _ _ _

-- What a call of a channel does to the poller of its loop.
theorem Coherent.changeChannel (h : s.Coherent)
    (hagrees : ∀ poller channel, poller.Agrees conn channel →
      (change poller conn channel).1.Agrees conn (change poller conn channel).2)
    (hwithin : ∀ poller channel, EPollPoller.Within conn poller (change poller conn channel).1)
    (hknown : ¬ ((s.changeChannel conn change).pollers (s.conns conn).loop).Forgotten conn →
      (s.conns conn).established = true ∧ (s.conns conn).destroyed = false) :
    (s.changeChannel conn change).Coherent := by
  have hother := hwithin (s.pollers (s.conns conn).loop) (s.conns conn).channel
  refine h.of_records (t := s.changeChannel conn change) rfl (fun other => ?_)
    (fun other => ?_) (fun other => ?_) fun thread other hnot => ?_
  · rw [changeChannel_conns]
    split
    · rename_i heq
      rw [heq]
    · rfl
  · rw [changeChannel_conns]
    split
    · rename_i heq
      rw [heq]
    · rfl
  · rw [changeChannel_conns, changeChannel_pollers]
    by_cases heq : other = conn
    · subst heq
      simpa using hagrees _ _ (h.agrees other)
    · rw [if_neg heq]
      split
      · rename_i hloop
        exact hother.agrees heq (hloop ▸ h.agrees other)
      · exact h.agrees other
  · rw [changeChannel_conns]
    by_cases heq : other = conn
    · subst heq
      rw [if_pos rfl]
      by_cases hthread : thread = (s.conns other).loop
      · exact ⟨hthread, hknown (hthread ▸ hnot)⟩
      · rw [changeChannel_pollers, if_neg hthread] at hnot
        exact h.known thread other hnot
    · rw [if_neg heq]
      refine h.known thread other fun hold => hnot ?_
      rw [changeChannel_pollers]
      split
      · rename_i hthread
        exact hother.forgotten heq (hthread ▸ hold)
      · exact hold

theorem Coherent.updateChannel (h : s.Coherent)
    (hchange : ∀ poller channel, ∃ events,
      change poller conn channel = poller.updateChannel conn { channel with events := events })
    (hest : (s.conns conn).established = true) (hdestroyed : (s.conns conn).destroyed = false) :
    (s.changeChannel conn change).Coherent := by
  refine h.changeChannel (fun poller channel hagrees => ?_) (fun poller channel => ?_)
    fun _ => ⟨hest, hdestroyed⟩
  · obtain ⟨events, heq⟩ := hchange poller channel
    rw [heq]
    exact (hagrees.withEvents events).updateChannel
  · obtain ⟨events, heq⟩ := hchange poller channel
    rw [heq]
    exact EPollPoller.within_updateChannel _ _ _

end ChangeChannel

theorem Coherent.removeChannel (h : s.Coherent) (conn : ConnId) :
    (s.changeChannel conn removeChannel).Coherent ∧
      ∀ thread, ((s.changeChannel conn removeChannel).pollers thread).Forgotten conn := by
  have hself := (h.agrees conn).removeChannel
  constructor
  · refine h.changeChannel (fun poller channel hagrees => (hagrees.removeChannel).agrees _)
      (fun poller channel => EPollPoller.within_removeChannel _ _ _) fun hnot => absurd ?_ hnot
    rw [changeChannel_pollers, if_pos rfl]
    exact hself
  · intro thread
    rw [changeChannel_pollers]
    split
    · exact hself
    · rename_i hne
      by_contra hnot
      exact hne (h.known thread conn hnot).1

end Coherence

end Server

end MyTestserver.Lifetime
