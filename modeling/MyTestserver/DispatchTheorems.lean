import Mathlib.Data.Int.CardIntervalMod
import MyTestserver.LifetimeTheorems

namespace MyTestserver.Lifetime

open EPollPoller (disableAll removeChannel)
open Transition

namespace Server

section Settled

-- No connection is made, and none moves to another loop.
structure Settled (s t : Server) : Prop where
  name : t.name = s.name
  ipPort : t.ipPort = s.ipPort
  threadPool : t.threadPool = s.threadPool
  made : t.made = s.made
  loop : ∀ conn, (t.conns conn).loop = (s.conns conn).loop

variable {s t u : Server} {thread : ThreadId} {conn : ConnId}

theorem Settled.refl (s : Server) : Settled s s := ⟨rfl, rfl, rfl, rfl, fun _ => rfl⟩

theorem Settled.trans (h : Settled s t) (h' : Settled t u) : Settled s u where
  name := h'.name.trans h.name
  ipPort := h'.ipPort.trans h.ipPort
  threadPool := h'.threadPool.trans h.threadPool
  made := h'.made.trans h.made
  loop conn := (h'.loop conn).trans (h.loop conn)

theorem settled_setLoop (s : Server) (thread : ThreadId) (loop : EventLoop) :
    Settled s (s.setLoop thread loop) := ⟨rfl, rfl, rfl, rfl, fun _ => rfl⟩

theorem settled_runInLoop (s : Server) (thread loop : ThreadId) (cb : Functor) :
    Settled s (s.runInLoop thread loop cb) := by
  unfold runInLoop
  split
  · exact settled_setLoop s _ _
  · exact settled_setLoop s _ _

theorem settled_modify (s : Server) (conn : ConnId) {change : Connection → Connection}
    (h : ∀ c, (change c).loop = c.loop) : Settled s (s.modify conn change) := by
  refine ⟨rfl, rfl, rfl, rfl, fun other => ?_⟩
  rw [modify_conns]
  split
  · rename_i heq
    rw [heq]
    exact h _
  · rfl

theorem settled_changeChannel (s : Server) (conn : ConnId)
    (change : EPollPoller ConnId → ConnId → Channel → EPollPoller ConnId × Channel) :
    Settled s (s.changeChannel conn change) := by
  have hmodify : Settled s (s.modify conn ({ · with channel :=
      (change (s.pollers (s.conns conn).loop) conn (s.conns conn).channel).2 })) :=
    settled_modify s conn fun _ => rfl
  exact hmodify.trans ⟨rfl, rfl, rfl, rfl, fun _ => rfl⟩

theorem settled_setState (s : Server) (conn : ConnId) (state : StateE) :
    Settled s (s.setState conn state) := settled_modify s conn fun _ => rfl

theorem settled_connectEstablished (s : Server) (conn : ConnId) :
    Settled s (s.connectEstablished conn) := by
  have hmodify : Settled s (s.modify conn ({ · with state := .kConnected, established := true })) :=
    settled_modify s conn fun _ => rfl
  refine hmodify.trans (Settled.trans ?_ (settled_changeChannel _ conn _))
  exact settled_modify _ conn fun _ => rfl

theorem settled_connectDestroyed (s : Server) (conn : ConnId) :
    Settled s (s.connectDestroyed conn) := by
  have hremove : ∀ t : Server, Settled t
      ((t.changeChannel conn removeChannel).modify conn ({ · with destroyed := true })) :=
    fun t => (settled_changeChannel t conn _).trans (settled_modify _ conn fun _ => rfl)
  unfold connectDestroyed
  dsimp only
  split
  · exact ((settled_setState s conn _).trans (settled_changeChannel _ conn _)).trans (hremove _)
  · exact hremove s

theorem settled_handleClose (s : Server) (thread : ThreadId) (conn : ConnId) :
    Settled s (s.handleClose thread conn) :=
  ((settled_setState s conn _).trans (settled_changeChannel _ conn _)).trans (settled_setLoop _ _ _)

theorem settled_handle (s : Server) (thread : ThreadId) (conn : ConnId) (handler : Handler)
    (n : Callbacks.ReadResult) (drained : Bool) :
    Settled s (s.handle thread conn handler n drained) := by
  cases handler with
  | handleClose => exact settled_handleClose s thread conn
  | handleError => exact .refl s
  | handleRead =>
      simp only [handle]
      split
      · exact settled_handleClose s thread conn
      · exact .refl s
  | handleWrite =>
      simp only [handle, handleWrite]
      split
      · exact settled_changeChannel s conn _
      · exact .refl s

theorem settled_proceed (s : Server) (thread : ThreadId) (n : Callbacks.ReadResult)
    (drained : Bool) (frame : Frame) : Settled s (s.proceed thread n drained frame) := by
  have hpop : Settled s (s.pop thread) := settled_setLoop s _ _
  cases frame with
  | newConnection conn => exact hpop.trans (settled_runInLoop _ _ _ _)
  | functor cb =>
      cases cb with
      | connectEstablished conn => exact hpop.trans (settled_connectEstablished _ conn)
      | connectDestroyed conn => exact hpop.trans (settled_connectDestroyed _ conn)
      | removeConnectionInLoop conn =>
          have herase : Settled (s.pop thread) ((s.pop thread).erase conn) :=
            ⟨rfl, rfl, rfl, rfl, fun _ => rfl⟩
          exact (hpop.trans herase).trans (settled_setLoop _ _ _)
  | handleEvent conn rest =>
      cases rest with
      | nil => exact hpop
      | cons handler rest =>
          exact (hpop.trans (settled_setLoop _ _ _)).trans (settled_handle _ _ _ _ _ _)
  | handleClose conn => exact hpop.trans (settled_runInLoop _ _ _ _)
  | removeConnectionInLoop conn => exact hpop.trans (settled_setLoop _ _ _)

theorem settled_sendInLoop (s : Server) (conn : ConnId) (remaining : Bool) :
    Settled s (s.sendInLoop conn remaining) := by
  unfold sendInLoop
  split
  · exact .refl s
  split
  · exact settled_changeChannel s conn _
  · exact .refl s

theorem settled_shutdown (s : Server) (conn : ConnId) : Settled s (s.shutdown conn) := by
  unfold shutdown
  split
  · exact settled_setState s conn _
  · exact .refl s

end Settled

section Dealt

variable {name ipPort : Bytes} {loop thread : ThreadId} {loops : List ThreadId} {s t : Server}
  {e : Event} {es : List Event}

-- The connections have gone to the loops of the pool in turn, or to the base loop if there
-- are none.
structure Dealt (name ipPort : Bytes) (loop : ThreadId) (loops : List ThreadId) (s : Server) :
    Prop where
  named : s.name = name
  bound : s.ipPort = ipPort
  base : s.threadPool.baseLoop = loop
  pool : s.threadPool.loops = loops
  turn : loops ≠ [] → s.threadPool.next = s.made % loops.length
  home : ∀ conn < s.made, (s.conns conn).loop = loops.getD (conn % loops.length) loop

theorem dealt_start : Dealt name ipPort loop loops (start name ipPort loop loops) where
  named := rfl
  bound := rfl
  base := rfl
  pool := rfl
  turn _ := (Nat.zero_mod _).symm
  home conn hlt := absurd hlt (Nat.not_lt_zero conn)

theorem Dealt.settled (h : Dealt name ipPort loop loops s) (ht : Settled s t) :
    Dealt name ipPort loop loops t where
  named := ht.name.trans h.named
  bound := ht.ipPort.trans h.bound
  base := by rw [ht.threadPool, h.base]
  pool := by rw [ht.threadPool, h.pool]
  turn hne := by rw [ht.threadPool, ht.made, h.turn hne]
  home conn hlt := by
    rw [ht.loop]
    exact h.home conn (ht.made ▸ hlt)

theorem Dealt.getNextLoop (h : Dealt name ipPort loop loops s) :
    s.threadPool.getNextLoop.1 = loops.getD (s.made % loops.length) loop := by
  have hloops := h.pool
  unfold EventLoopThreadPool.getNextLoop
  split
  · rename_i hempty
    rw [hempty] at hloops
    rw [← hloops]
    exact h.base
  · rename_i hne
    have hnext := h.turn (hloops ▸ hne)
    have hlt := s.threadPool.next_lt hne
    simp only [List.get_eq_getElem]
    rw [← hnext, ← hloops, List.getD_eq_getElem?_getD, List.getElem?_eq_getElem hlt]
    rfl

theorem next_mod {n : ℕ} (hn : 0 < n) (m : ℕ) :
    (if n ≤ m % n + 1 then 0 else m % n + 1) = (m + 1) % n := by
  have hlt := Nat.mod_lt m hn
  by_cases hone : n = 1
  · subst hone
    rw [if_pos (Nat.le_add_left 1 _), Nat.mod_one]
  · have hstep : (m + 1) % n = (m % n + 1) % n := by
      rw [Nat.add_mod, Nat.mod_eq_of_lt (by omega : 1 < n)]
    rw [hstep]
    split
    · rename_i hle
      have hlast : m % n + 1 = n := by omega
      rw [hlast, Nat.mod_self]
    · exact (Nat.mod_eq_of_lt (by omega)).symm

theorem Dealt.advance (h : Dealt name ipPort loop loops s) (hne : loops ≠ []) :
    s.threadPool.getNextLoop.2.next = (s.made + 1) % loops.length := by
  have hloops := h.pool
  have hnext := h.turn hne
  have hpos := List.length_pos_of_ne_nil hne
  unfold EventLoopThreadPool.getNextLoop
  rw [dif_neg (hloops ▸ hne)]
  dsimp only
  rw [hloops, hnext]
  exact next_mod hpos s.made

theorem Dealt.create (h : Dealt name ipPort loop loops s) (sockfd : ℕ) :
    Dealt name ipPort loop loops (s.create sockfd) where
  named := h.named
  bound := h.bound
  base := by
    change s.threadPool.getNextLoop.2.baseLoop = loop
    rw [← h.base]
    unfold EventLoopThreadPool.getNextLoop
    split
    · rfl
    · rfl
  pool := by
    change s.threadPool.getNextLoop.2.loops = loops
    rw [← h.pool]
    unfold EventLoopThreadPool.getNextLoop
    split
    · rfl
    · rfl
  turn hne := h.advance hne
  home conn hlt := by
    by_cases heq : conn = s.made
    · rw [heq, create_conns_self]
      exact h.getNextLoop
    · rw [create_conns_of_ne sockfd heq]
      have hle : conn < s.made + 1 := hlt
      exact h.home conn (by omega)

theorem Dealt.handleEvent (h : Dealt name ipPort loop loops s) (connfd : Option ℕ)
    (active : Active) : Dealt name ipPort loop loops (s.handleEvent thread connfd active) := by
  cases active with
  | acceptChannel =>
      cases connfd with
      | none => exact h
      | some sockfd => exact (h.create sockfd).settled (settled_setLoop _ _ _)
  | channel conn revents =>
      simp only [Server.handleEvent]
      split
      · exact h
      · exact h.settled (settled_setLoop _ _ _)

theorem Dealt.step (h : Dealt name ipPort loop loops s) (hs : Step s e t) :
    Dealt name ipPort loop loops t := by
  obtain ⟨-, rfl⟩ := hs
  cases e with
  | poll thread activeChannel => exact h.settled (settled_setLoop s _ _)
  | handleEvent thread connfd =>
      simp only [next]
      split
      · exact h
      · exact (h.settled (settled_setLoop s _ _)).handleEvent connfd _
  | proceed thread n drained =>
      simp only [next]
      split
      · exact h
      · exact h.settled (settled_proceed s thread n drained _)
  | doPendingFunctors thread => exact h.settled (settled_setLoop s _ _)
  | call thread =>
      simp only [next]
      split
      · exact h
      · exact h.settled ((settled_setLoop s _ _).trans (settled_setLoop _ _ _))
  | finish thread => exact h.settled (settled_setLoop s _ _)
  | sendInLoop conn remaining => exact h.settled (settled_sendInLoop s conn remaining)
  | shutdown conn => exact h.settled (settled_shutdown s conn)
  | destruct conn =>
      have hclosed : Settled s (s.modify conn ({ · with closed := true })) :=
        settled_modify s conn fun _ => rfl
      exact h.settled hclosed

theorem dealt_run (h : Path Step (start name ipPort loop loops) es s) :
    Dealt name ipPort loop loops s :=
  h.invariant (Dealt name ipPort loop loops) (fun _ _ _ hs hstep => hs.step hstep) dealt_start

-- While nextConnId_ does not overflow, connections are told apart by their names, and each
-- loop has its share of them: the loops take turns, so that none has been given more than one
-- more than another.
theorem connections_dealt (h : Path Step (start name ipPort loop loops) es s)
    (hfew : s.made < 2 ^ 31 - 1) :
    s.nextConnId < 2 ^ 31 ∧
    (∀ conn < s.made,
      (s.conns conn).name =
          name ++ ascii "-" ++ ipPort ++ ascii "#" ++ ascii (toString (conn + 1)) ∧
        (s.conns conn).loop = loops.getD (conn % loops.length) loop) ∧
      (∀ conn < s.made, ∀ other < s.made, (s.conns conn).name = (s.conns other).name →
        conn = other) ∧
      (loops.Nodup → ∀ (i : ℕ) (hi : i < loops.length),
        s.made.count (fun conn => (s.conns conn).loop = loops[i]) =
          s.made / loops.length + if i < s.made % loops.length then 1 else 0) := by
  have hdealt := dealt_run h
  have hcoherent := (safe_of_path h).coherent
  refine ⟨?_, fun conn hlt => ⟨?_, hdealt.home conn hlt⟩, fun conn hlt other hlt' hname => ?_,
    fun hnodup i hi => ?_⟩
  · have hcount := hcoherent.count
    omega
  · rw [(hcoherent.recorded conn hlt).2, connName, hdealt.named, hdealt.bound]
  · rw [(hcoherent.recorded conn hlt).2, (hcoherent.recorded other hlt').2] at hname
    exact Nat.succ.inj (connName_injective hname)
  · have hpos : 0 < loops.length := Nat.lt_of_le_of_lt (Nat.zero_le i) hi
    have hturn : ∀ conn < s.made, (s.conns conn).loop = loops[i] ↔ conn ≡ i [MOD loops.length] := by
      intro conn hlt
      have hmod := Nat.mod_lt conn hpos
      rw [hdealt.home conn hlt, List.getD_eq_getElem?_getD, List.getElem?_eq_getElem hmod,
        Option.getD_some, hnodup.getElem_inj_iff, Nat.ModEq, Nat.mod_eq_of_lt hi]
    have hcount := Nat.count_modEq_card s.made hpos i
    rw [Nat.mod_eq_of_lt hi] at hcount
    rw [← hcount, Nat.count_eq_card_filter_range, Nat.count_eq_card_filter_range]
    refine congrArg Finset.card (Finset.filter_congr fun conn hconn => ?_)
    exact hturn conn (Finset.mem_range.mp hconn)

def acceptOne (sockfd : ℕ) : List Event :=
  [.poll 0 [.acceptChannel], .handleEvent 0 (some sockfd), .proceed 0 .failed false,
    .doPendingFunctors 0, .finish 0]

-- Three clients and two loops: the third is back at the first.
def threeClients : List Event := acceptOne 5 ++ acceptOne 6 ++ acceptOne 7

def afterThreeClients : Server := play next (start [] [] 0 [1, 2]) threeClients

theorem connections_dealt_threeClients :
    (afterThreeClients.conns 2).loop = 1 ∧
      afterThreeClients.made.count (fun conn => (afterThreeClients.conns conn).loop = 1) = 2 := by
  have hplays : Plays Guard next (start [] [] 0 [1, 2]) threeClients := by decide
  have hpath : Path Step (start [] [] 0 [1, 2]) threeClients afterThreeClients :=
    path_of_guards hplays
  have hmade : afterThreeClients.made = 3 := by decide
  have hfew : afterThreeClients.made < 2 ^ 31 - 1 := by rw [hmade]; decide
  obtain ⟨-, hplace, -, hshare⟩ := connections_dealt hpath hfew
  have hfirst := hshare (by decide) 0 (by decide)
  rw [hmade] at hfirst hplace ⊢
  exact ⟨(hplace 2 (by decide)).2, hfirst⟩

end Dealt

end Server

end MyTestserver.Lifetime
