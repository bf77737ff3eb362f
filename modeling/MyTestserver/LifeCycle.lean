import Mathlib.Logic.Function.Basic
import MyTestserver.Basic

namespace MyTestserver.Lifetime

-- What can be under way for a connection. `removeConnection` is the call of
-- removeConnectionInLoop to come, `removeConnectionInLoop` is past the erase.
inductive Stage
  | newConnection
  | connectEstablished
  | handleEvent
  | handleClose
  | removeConnection
  | removeConnectionInLoop
  | connectDestroyed
  deriving DecidableEq

-- One connection, whatever the threads are. `ready` counts the reports of its channel that
-- are still to be handled, and `work` what is under way.
@[ext]
structure Life where
  state : StateE
  created : Bool
  established : Bool
  destroyed : Bool
  closed : Bool
  listed : Bool
  ready : ℕ
  work : Stage → ℕ

namespace Life

section Operations

variable (life : Life)

def give (stage : Stage) : Life :=
  { life with work := Function.update life.work stage (life.work stage + 1) }

def take (stage : Stage) : Life :=
  { life with work := Function.update life.work stage (life.work stage - 1) }

def create : Life :=
  { life with
    state := .kConnecting
    created := true
    established := false
    destroyed := false
    closed := false
    listed := true }

end Operations

@[simp] theorem take_give (life : Life) (stage : Stage) :
    (life.give stage).take stage = life := by
  simp [give, take]

theorem give_take {life : Life} {stage : Stage} (h : 0 < life.work stage) :
    (life.take stage).give stage = life := by
  refine Life.ext rfl rfl rfl rfl rfl rfl rfl ?_
  simp [give, take, Nat.sub_add_cancel h]

-- The connection is passed on from one holder to the next.
inductive Step (life : Life) : Life → Prop
  | create : life.created = false → Step life (life.create.give .newConnection)
  | runInLoop : 0 < life.work .newConnection →
      Step life ((life.take .newConnection).give .connectEstablished)
  | establish : 0 < life.work .connectEstablished →
      Step life { life.take .connectEstablished with state := .kConnected, established := true }
  | report (n : ℕ) : (0 < n → life.established = true ∧ life.destroyed = false) →
      Step life { life with ready := n }
  | handle : 0 < life.ready →
      Step life ({ life with ready := life.ready - 1 }.give .handleEvent)
  | skip : Step life { life with ready := life.ready - 1 }
  | return : 0 < life.work .handleEvent → Step life (life.take .handleEvent)
  | close : 0 < life.work .handleEvent →
      Step life ({ life with state := .kDisconnected }.give .handleClose)
  | removeConnection : 0 < life.work .handleClose →
      Step life ((life.take .handleClose).give .removeConnection)
  | erase : 0 < life.work .removeConnection →
      Step life
        ({ life.take .removeConnection with listed := false }.give .removeConnectionInLoop)
  | queueInLoop : 0 < life.work .removeConnectionInLoop →
      Step life ((life.take .removeConnectionInLoop).give .connectDestroyed)
  | destroy : 0 < life.work .connectDestroyed → life.ready = 0 → life.work .handleEvent = 0 →
      Step life { life.take .connectDestroyed with state := .kDisconnected, destroyed := true }
  | shutdown : life.state = .kConnected → Step life { life with state := .kDisconnecting }
  | destruct : life.created = true → life.listed = false → (∀ stage, life.work stage = 0) →
      Step life { life with closed := true }

-- Up to connectEstablished exactly one call of it is to come. From handleClose on the
-- connection is down, and until connectDestroyed has run it is in connections_ or on its
-- way there.
structure Sound (life : Life) : Prop where
  fresh : life.created = false →
    life.established = false ∧ life.destroyed = false ∧ life.closed = false ∧
      life.listed = false ∧ life.ready = 0 ∧ ∀ stage, life.work stage = 0
  pending : life.created = true →
    life.work .newConnection + life.work .connectEstablished =
      if life.established = true then 0 else 1
  connecting : life.established = false → life.state = .kConnecting
  closing : 0 < life.work .handleClose + life.work .removeConnection +
      life.work .removeConnectionInLoop + life.work .connectDestroyed →
    life.established = true ∧ life.state = .kDisconnected
  erased : 0 < life.work .removeConnectionInLoop + life.work .connectDestroyed →
    life.listed = false
  kept : life.created = true → life.listed = false → life.destroyed = false →
    0 < life.work .removeConnectionInLoop + life.work .connectDestroyed
  handling : 0 < life.ready + life.work .handleEvent →
    life.established = true ∧ life.destroyed = false
  destroyed : life.destroyed = true →
    life.established = true ∧ life.listed = false ∧ life.state = .kDisconnected
  closed : life.closed = true → life.destroyed = true

section Steps

variable {life : Life} {stage : Stage}

theorem Sound.created_of_work (h : life.Sound) (hw : 0 < life.work stage) :
    life.created = true := by
  by_contra hc
  have hnone := (h.fresh (eq_false_of_ne_true hc)).2.2.2.2.2 stage
  omega

theorem Sound.create (h : life.Sound) (hc : life.created = false) :
    (life.create.give .newConnection).Sound := by
  obtain ⟨-, -, -, -, hr, hw⟩ := h.fresh hc
  constructor <;> simp [Life.create, give, hw, hr, Function.update_apply]

theorem Sound.created_of_ready (h : life.Sound) (hr : 0 < life.ready) :
    life.created = true := by
  by_contra hc
  have hnone := (h.fresh (eq_false_of_ne_true hc)).2.2.2.2.1
  omega

theorem Sound.runInLoop (h : life.Sound) (hw : 0 < life.work .newConnection) :
    ((life.take .newConnection).give .connectEstablished).Sound where
  fresh hc := absurd (hc.symm.trans (h.created_of_work hw)) Bool.noConfusion
  pending hc :=
    calc
      life.work .newConnection - 1 + (life.work .connectEstablished + 1) =
          life.work .newConnection + life.work .connectEstablished := by omega
      _ = if life.established = true then 0 else 1 := h.pending hc
  connecting := h.connecting
  closing := h.closing
  erased := h.erased
  kept := h.kept
  handling := h.handling
  destroyed := h.destroyed
  closed := h.closed

-- One call is to come, so it is not established, and nothing that follows has begun.
theorem Sound.establish (h : life.Sound) (hw : 0 < life.work .connectEstablished) :
    { life.take .connectEstablished with state := .kConnected, established := true }.Sound := by
  have hcreated := h.created_of_work hw
  have hpending := h.pending hcreated
  have hest : life.established ≠ true := by
    intro hest
    rw [if_pos hest] at hpending
    omega
  rw [if_neg hest] at hpending
  exact {
    fresh hc := absurd (hc.symm.trans hcreated) Bool.noConfusion
    pending _ := by
      change life.work .newConnection + (life.work .connectEstablished - 1) = 0
      omega
    connecting hno := nomatch hno
    closing hpos := absurd (h.closing hpos).1 hest
    erased := h.erased
    kept := h.kept
    handling hpos := absurd (h.handling hpos).1 hest
    destroyed hd := absurd (h.destroyed hd).1 hest
    closed := h.closed }

theorem Sound.report (h : life.Sound) {n : ℕ}
    (hn : 0 < n → life.established = true ∧ life.destroyed = false) :
    { life with ready := n }.Sound where
  fresh hc := by
    obtain ⟨he, hd, hcl, hl, -, hw⟩ := h.fresh hc
    have hzero : n = 0 := by
      by_contra hne
      exact Bool.noConfusion (he.symm.trans (hn (Nat.pos_of_ne_zero hne)).1)
    exact ⟨he, hd, hcl, hl, hzero, hw⟩
  pending := h.pending
  connecting := h.connecting
  closing := h.closing
  erased := h.erased
  kept := h.kept
  handling hpos := by
    obtain hready | hwork := Nat.add_pos_iff_pos_or_pos.mp hpos
    · exact hn hready
    · exact h.handling (Nat.add_pos_right _ hwork)
  destroyed := h.destroyed
  closed := h.closed

theorem Sound.handle (h : life.Sound) (hr : 0 < life.ready) :
    ({ life with ready := life.ready - 1 }.give .handleEvent).Sound where
  fresh hc := absurd (hc.symm.trans (h.created_of_ready hr)) Bool.noConfusion
  pending := h.pending
  connecting := h.connecting
  closing := h.closing
  erased := h.erased
  kept := h.kept
  handling _ := h.handling (Nat.add_pos_left hr _)
  destroyed := h.destroyed
  closed := h.closed

theorem Sound.skip (h : life.Sound) : { life with ready := life.ready - 1 }.Sound :=
  h.report fun hpos => h.handling (by omega)

theorem Sound.return (h : life.Sound) (hw : 0 < life.work .handleEvent) :
    (life.take .handleEvent).Sound where
  fresh hc := absurd (hc.symm.trans (h.created_of_work hw)) Bool.noConfusion
  pending := h.pending
  connecting := h.connecting
  closing := h.closing
  erased := h.erased
  kept := h.kept
  handling _ := h.handling (Nat.add_pos_right _ hw)
  destroyed := h.destroyed
  closed := h.closed

theorem Sound.close (h : life.Sound) (hw : 0 < life.work .handleEvent) :
    ({ life with state := .kDisconnected }.give .handleClose).Sound := by
  obtain ⟨hest, hdestroyed⟩ := h.handling (Nat.add_pos_right _ hw)
  exact {
    fresh hc := absurd (hc.symm.trans (h.created_of_work hw)) Bool.noConfusion
    pending := h.pending
    connecting he := absurd (he.symm.trans hest) Bool.noConfusion
    closing _ := ⟨hest, rfl⟩
    erased := h.erased
    kept := h.kept
    handling := h.handling
    destroyed hd := absurd (hd.symm.trans hdestroyed) Bool.noConfusion
    closed := h.closed }

theorem Sound.removeConnection (h : life.Sound) (hw : 0 < life.work .handleClose) :
    ((life.take .handleClose).give .removeConnection).Sound where
  fresh hc := absurd (hc.symm.trans (h.created_of_work hw)) Bool.noConfusion
  pending := h.pending
  connecting := h.connecting
  closing _ := h.closing (by omega)
  erased := h.erased
  kept := h.kept
  handling := h.handling
  destroyed := h.destroyed
  closed := h.closed

theorem Sound.erase (h : life.Sound) (hw : 0 < life.work .removeConnection) :
    ({ life.take .removeConnection with listed := false }.give .removeConnectionInLoop).Sound where
  fresh hc := absurd (hc.symm.trans (h.created_of_work hw)) Bool.noConfusion
  pending := h.pending
  connecting := h.connecting
  closing _ := h.closing (by omega)
  erased _ := rfl
  kept _ _ _ := Nat.add_pos_left (Nat.succ_pos _) _
  handling := h.handling
  destroyed hd := ⟨(h.destroyed hd).1, rfl, (h.destroyed hd).2.2⟩
  closed := h.closed

theorem Sound.queueInLoop (h : life.Sound) (hw : 0 < life.work .removeConnectionInLoop) :
    ((life.take .removeConnectionInLoop).give .connectDestroyed).Sound where
  fresh hc := absurd (hc.symm.trans (h.created_of_work hw)) Bool.noConfusion
  pending := h.pending
  connecting := h.connecting
  closing _ := h.closing (by omega)
  erased _ := h.erased (Nat.add_pos_left hw _)
  kept _ _ _ := Nat.add_pos_right _ (Nat.succ_pos _)
  handling := h.handling
  destroyed := h.destroyed
  closed := h.closed

theorem Sound.destroy (h : life.Sound) (hw : 0 < life.work .connectDestroyed)
    (hr : life.ready = 0) (hevent : life.work .handleEvent = 0) :
    { life.take .connectDestroyed with state := .kDisconnected, destroyed := true }.Sound := by
  have hest := (h.closing (Nat.add_pos_right _ hw)).1
  have hlisted := h.erased (Nat.add_pos_right _ hw)
  exact {
    fresh hc := absurd (hc.symm.trans (h.created_of_work hw)) Bool.noConfusion
    pending := h.pending
    connecting := fun he => absurd (he.symm.trans hest) Bool.noConfusion
    closing _ := ⟨hest, rfl⟩
    erased _ := hlisted
    kept _ _ hd := nomatch hd
    handling hpos := absurd hpos (by simp [take, hr, hevent])
    destroyed _ := ⟨hest, hlisted, rfl⟩
    closed _ := rfl }

theorem Sound.shutdown (h : life.Sound) (hstate : life.state = .kConnected) :
    { life with state := .kDisconnecting }.Sound where
  fresh := h.fresh
  pending := h.pending
  connecting he := absurd (hstate.symm.trans (h.connecting he)) StateE.noConfusion
  closing hpos := absurd (hstate.symm.trans (h.closing hpos).2) StateE.noConfusion
  erased := h.erased
  kept := h.kept
  handling := h.handling
  destroyed hd := absurd (hstate.symm.trans (h.destroyed hd).2.2) StateE.noConfusion
  closed := h.closed

-- With nothing under way, all that is left is that connectDestroyed has run.
theorem Sound.destruct (h : life.Sound) (hc : life.created = true) (hl : life.listed = false)
    (hw : ∀ stage, life.work stage = 0) : { life with closed := true }.Sound where
  fresh hno := absurd (hno.symm.trans hc) Bool.noConfusion
  pending := h.pending
  connecting := h.connecting
  closing := h.closing
  erased := h.erased
  kept := h.kept
  handling := h.handling
  destroyed := h.destroyed
  closed _ := by
    by_contra hd
    have hpos := h.kept hc hl (eq_false_of_ne_true hd)
    rw [hw, hw] at hpos
    exact Nat.lt_irrefl _ hpos

theorem Sound.step {life' : Life} (h : life.Sound) (hs : life.Step life') : life'.Sound := by
  cases hs with
  | create hc => exact h.create hc
  | runInLoop hw => exact h.runInLoop hw
  | establish hw => exact h.establish hw
  | report n hn => exact h.report hn
  | handle hr => exact h.handle hr
  | skip => exact h.skip
  | «return» hw => exact h.return hw
  | close hw => exact h.close hw
  | removeConnection hw => exact h.removeConnection hw
  | erase hw => exact h.erase hw
  | queueInLoop hw => exact h.queueInLoop hw
  | destroy hw hr he => exact h.destroy hw hr he
  | shutdown hstate => exact h.shutdown hstate
  | destruct hc hl hw => exact h.destruct hc hl hw

end Steps

end Life

end MyTestserver.Lifetime
