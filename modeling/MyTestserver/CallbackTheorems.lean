import MyTestserver.Callbacks
import MyTestserver.Library.Transition

namespace MyTestserver.Callbacks

open Transition

def Revents.closes (revents : Revents) : Bool := revents.EPOLLHUP && !revents.EPOLLIN

def Revents.reads (revents : Revents) : Bool := revents.EPOLLIN || revents.EPOLLPRI

-- The callbacks that a read leads to.
def ReadResult.callbacks : ReadResult → List Callback
  | .read 0 => [.down, .close]
  | .read _ => [.message]
  | .failed => []

namespace Connection

variable {c : Connection}

def Down (c : Connection) : Prop := c.conn.state = .kDisconnected

instance (c : Connection) : Decidable c.Down :=
  inferInstanceAs (Decidable (c.conn.state = .kDisconnected))

section Handlers

-- A handler's own sends and shutdowns run no callback and leave it open.
structure Quiet (c c' : Connection) : Prop where
  callbacks : c'.callbacks = c.callbacks
  known : c'.known = c.known
  down : c'.Down ↔ c.Down

theorem Quiet.refl (c : Connection) : c.Quiet c := ⟨rfl, rfl, Iff.rfl⟩

theorem Quiet.trans {c' c'' : Connection} (h : c.Quiet c') (h' : c'.Quiet c'') : c.Quiet c'' :=
  ⟨h'.callbacks.trans h.callbacks, h'.known.trans h.known, h'.down.trans h.down⟩

theorem quiet_update {conn : TcpConnection} (h : conn.state = c.conn.state) :
    c.Quiet (c.update conn) :=
  ⟨rfl, rfl, by rw [Down, update, h, Down]⟩

theorem quiet_shutdown (c : Connection) : c.Quiet c.shutdown := by
  unfold shutdown
  split
  · rename_i hstate
    exact ⟨rfl, rfl, by simp [Down, update, hstate]⟩
  · exact .refl c

theorem quiet_reply (c : Connection) (reply : Reply) : c.Quiet (c.reply reply) := by
  cases reply with
  | send buf result =>
      simp only [Connection.reply, send]
      split
      · exact quiet_update (by simp)
      · exact .refl c
  | shutdown => exact c.quiet_shutdown

theorem quiet_replies (c : Connection) (replies : List Reply) :
    c.Quiet (replies.foldl reply c) := by
  induction replies generalizing c with
  | nil => exact .refl c
  | cons reply replies ih => exact (c.quiet_reply reply).trans (ih _)

theorem handleClose_eq (c : Connection) :
    c.handleClose =
      { conn := { c.conn with state := .kDisconnected, isWriting := false }
        callbacks := c.callbacks ++ [.down, .close], known := false } := by
  simp [handleClose, closeCallback, connectionCallback, setDisconnected, shutdown, update]

end Handlers

section Once

-- The part of the protocol that a later callback cannot mend.
structure Once (callbacks : List Callback) : Prop where
  down : callbacks.count .down ≤ 1
  message : ∀ as bs, callbacks = as ++ .down :: bs → .message ∉ bs

theorem Once.of_append {xs ys : List Callback} (h : Once (xs ++ ys)) : Once xs where
  down := by
    have := h.down
    rw [List.count_append] at this
    omega
  message as bs heq hmem := by
    refine h.message as (bs ++ ys) ?_ (List.mem_append_left _ hmem)
    rw [heq, List.append_assoc, List.cons_append]

theorem not_once_append {xs ys : List Callback} (hdown : .down ∈ xs)
    (hys : .down ∈ ys ∨ .message ∈ ys) : ¬Once (xs ++ ys) := by
  intro h
  rcases hys with hmem | hmem
  · have hfirst := List.count_pos_iff.mpr hdown
    have hsecond := List.count_pos_iff.mpr hmem
    have hcount := h.down
    rw [List.count_append] at hcount
    omega
  · obtain ⟨as, bs, rfl⟩ := List.append_of_mem hdown
    refine h.message as (bs ++ ys) (by simp) (List.mem_append_right _ hmem)

end Once

section Events

theorem handleEvent_eq (c : Connection) (revents : Revents) (n : ReadResult)
    (replies : List Reply) (written : ℕ) :
    c.handleEvent revents n replies written =
      let c := if revents.closes then c.handleClose else c
      let c := if revents.reads then c.handleRead n replies else c
      if revents.EPOLLOUT then c.update (c.conn.handleWrite written) else c := rfl

-- What an event leads to, the writing left aside.
theorem callbacks_handleEvent (c : Connection) (revents : Revents) (n : ReadResult)
    (replies : List Reply) (written : ℕ) :
    (c.handleEvent revents n replies written).callbacks =
      c.callbacks ++ (if revents.closes then [.down, .close] else []) ++
        (if revents.reads then n.callbacks else []) := by
  have hread : ∀ c : Connection,
      (c.handleRead n replies).callbacks = c.callbacks ++ n.callbacks := by
    intro c
    match n with
    | .read 0 => simp [handleRead, handleClose_eq, ReadResult.callbacks]
    | .read (k + 1) =>
        simp only [handleRead, messageCallback]
        rw [(quiet_replies _ replies).callbacks]
        rfl
    | .failed => simp [handleRead, ReadResult.callbacks]
  have hwrite : ∀ c : Connection,
      (if revents.EPOLLOUT then c.update (c.conn.handleWrite written) else c).callbacks =
        c.callbacks := by
    intro c
    split <;> rfl
  simp only [handleEvent_eq, hwrite]
  split
  · rw [hread]
    split
    · simp [handleClose_eq]
    · simp
  · split
    · simp [handleClose_eq]
    · simp

-- The events that ask no more of the connection than it can give: one that closes reads
-- nothing, and there is nothing to read or close once it is down.
def Orderly (c : Connection) : Event → Prop
  | .handleEvent revents n _ _ =>
      (revents.closes = true ∨ c.Down → revents.reads = true → n = .failed) ∧
        (c.Down → revents.closes = false)
  | _ => True

-- Up comes first, then messages; down and close come last.
inductive Regular (c : Connection) : Prop
  | opened (n : ℕ) (callbacks : c.callbacks = .up :: List.replicate n .message)
      (down : ¬c.Down)
  | closed (n : ℕ) (rest : List Callback) (hrest : rest = [.down] ∨ rest = [.down, .close])
      (callbacks : c.callbacks = .up :: (List.replicate n .message ++ rest)) (down : c.Down)
      (known : c.known = false)

theorem Regular.quiet {c' : Connection} (h : c.Regular) (hquiet : c.Quiet c') : c'.Regular := by
  cases h with
  | opened n callbacks down =>
      exact .opened n (hquiet.callbacks.trans callbacks) fun hdown => down (hquiet.down.mp hdown)
  | closed n rest hrest callbacks down known =>
      exact .closed n rest hrest (hquiet.callbacks.trans callbacks) (hquiet.down.mpr down)
        (hquiet.known.trans known)

theorem Regular.down_mem (h : c.Regular) (hdown : c.Down) : .down ∈ c.callbacks := by
  cases h with
  | opened n callbacks down => exact absurd hdown down
  | closed n rest hrest callbacks down known =>
      rw [callbacks]
      rcases hrest with rfl | rfl <;> simp

theorem Regular.handleClose (h : c.Regular) (hdown : ¬c.Down) : c.handleClose.Regular := by
  cases h with
  | opened n callbacks down =>
      rw [handleClose_eq]
      exact .closed n [.down, .close] (.inr rfl) (by simp [callbacks]) rfl rfl
  | closed n rest hrest callbacks down known => exact absurd down hdown

theorem Regular.handleRead (h : c.Regular) {n : ReadResult} (replies : List Reply)
    (hdown : c.Down → n = .failed) : (c.handleRead n replies).Regular := by
  match n with
  | .read 0 => exact h.handleClose fun hd => by cases hdown hd
  | .read (k + 1) =>
      cases h with
      | opened m callbacks down =>
          refine Regular.quiet (.opened (m + 1) ?_ ?_) (quiet_replies _ replies)
          · simp [callbacks, List.replicate_succ']
          · exact down
      | closed _ _ _ _ down _ => cases hdown down
  | .failed => exact h

theorem Regular.handleEvent (h : c.Regular) {revents : Revents} {n : ReadResult}
    {replies : List Reply} {written : ℕ}
    (hgood : c.Orderly (.handleEvent revents n replies written)) :
    (c.handleEvent revents n replies written).Regular := by
  obtain ⟨hread, hclose⟩ := hgood
  have hwrite : ∀ c : Connection, c.Regular →
      (if revents.EPOLLOUT then c.update (c.conn.handleWrite written) else c).Regular := by
    intro c hc
    split
    · exact hc.quiet (quiet_update (by simp))
    · exact hc
  rw [handleEvent_eq]
  apply hwrite
  by_cases hcloses : revents.closes = true
  · have hdown : ¬c.Down := fun hd => by simp [hclose hd] at hcloses
    rw [if_pos hcloses]
    split
    · rename_i hreads
      exact (h.handleClose hdown).handleRead replies fun _ => hread (.inl hcloses) hreads
    · exact h.handleClose hdown
  · rw [if_neg hcloses]
    split
    · rename_i hreads
      exact h.handleRead replies fun hd => hread (.inr hd) hreads
    · exact h

theorem Regular.next (h : c.Regular) {e : Event} (hgood : c.Orderly e) : (c.next e).Regular := by
  cases e with
  | handleEvent revents n replies written => exact h.handleEvent hgood
  | reply reply => exact h.quiet (c.quiet_reply reply)
  | setDisconnecting =>
      simp only [Connection.next]
      split
      · rename_i hstate
        refine h.quiet ⟨rfl, rfl, ?_⟩
        simp [Down, update, hstate]
      · exact h
  | sendInLoop buf result => exact h.quiet (quiet_update (by simp))
  | shutdownInLoop => exact h.quiet (quiet_update (by simp))
  | connectDestroyed =>
      simp only [Connection.next, connectDestroyed]
      split
      · rename_i hstate
        cases h with
        | opened n callbacks down =>
            refine .closed n [.down] (.inl rfl) ?_ ?_ ?_
            all_goals simp [connectionCallback, setDisconnected, shutdown, update, Down, callbacks]
        | closed n rest hrest callbacks down known =>
            rw [Down, hstate] at down
            cases down
      · exact h

-- Anything else breaks the protocol for good.
theorem Regular.not_once (h : c.Regular) {e : Event} (hbad : ¬c.Orderly e) :
    ¬Once (c.next e).callbacks := by
  cases e with
  | handleEvent revents n replies written =>
      simp only [Connection.next, callbacks_handleEvent]
      have hread : n ≠ .failed → .down ∈ n.callbacks ∨ .message ∈ n.callbacks := by
        intro hn
        match n with
        | .read 0 => simp [ReadResult.callbacks]
        | .read (k + 1) => simp [ReadResult.callbacks]
        | .failed => exact absurd rfl hn
      rcases not_and_or.mp hbad with hreads | hcloses
      · push Not at hreads
        obtain ⟨hdown, hreads, hn⟩ := hreads
        rw [if_pos hreads]
        refine not_once_append ?_ (hread hn)
        rcases hdown with hcloses | hdown
        · simp [hcloses]
        · exact List.mem_append_left _ (h.down_mem hdown)
      · push Not at hcloses
        obtain ⟨hdown, hcloses⟩ := hcloses
        rw [List.append_assoc]
        refine not_once_append (h.down_mem hdown) (.inl ?_)
        simp [hcloses]
  | reply | setDisconnecting | sendInLoop | shutdownInLoop | connectDestroyed =>
      exact absurd trivial hbad

theorem callbacks_next (c : Connection) (e : Event) :
    ∃ more, (c.next e).callbacks = c.callbacks ++ more := by
  cases e with
  | handleEvent revents n replies written =>
      exact ⟨_, (callbacks_handleEvent ..).trans (List.append_assoc ..)⟩
  | reply reply => exact ⟨[], by rw [next, (c.quiet_reply reply).callbacks, List.append_nil]⟩
  | setDisconnecting =>
      refine ⟨[], ?_⟩
      simp only [next]
      split <;> simp [update]
  | sendInLoop | shutdownInLoop => exact ⟨[], by simp [next, update]⟩
  | connectDestroyed =>
      simp only [next, connectDestroyed]
      split
      · exact ⟨[.down], by simp [connectionCallback, setDisconnected, shutdown, update]⟩
      · exact ⟨[], by simp⟩

theorem callbacks_play (c : Connection) (es : List Event) :
    ∃ more, (play next c es).callbacks = c.callbacks ++ more := by
  induction es generalizing c with
  | nil => exact ⟨[], by simp [play]⟩
  | cons e es ih =>
      obtain ⟨first, hfirst⟩ := c.callbacks_next e
      obtain ⟨rest, hrest⟩ := ih (c.next e)
      exact ⟨first ++ rest, by rw [play, hrest, hfirst, List.append_assoc]⟩

end Events

section Protocol

-- Up once and first, down and close at most once, no message after down; and no entry for
-- a connection that is closed.
structure Protocol (c : Connection) : Prop where
  first : c.callbacks.head? = some .up
  up : c.callbacks.count .up = 1
  down : c.callbacks.count .down ≤ 1
  close : c.callbacks.count .close ≤ 1
  message : ∀ as bs, c.callbacks = as ++ .down :: bs → .message ∉ bs
  known : .down ∈ c.callbacks → c.known = false

theorem Regular.protocol (h : c.Regular) : c.Protocol := by
  cases h with
  | opened n callbacks down =>
      have hmem : .down ∉ c.callbacks := by simp [callbacks, List.mem_replicate]
      refine ⟨?_, ?_, ?_, ?_, fun as bs heq => ?_, fun hdown => absurd hdown hmem⟩
      · simp [callbacks]
      · simp [callbacks, List.count_replicate]
      · simp [callbacks, List.count_replicate]
      · simp [callbacks, List.count_replicate]
      · exact absurd (heq ▸ by simp) hmem
  | closed n rest hrest callbacks down known =>
      refine ⟨?_, ?_, ?_, ?_, ?_, fun _ => known⟩
      · simp [callbacks]
      · rcases hrest with rfl | rfl <;> simp [callbacks, List.count_replicate]
      · rcases hrest with rfl | rfl <;> simp [callbacks, List.count_replicate]
      · rcases hrest with rfl | rfl <;> simp [callbacks, List.count_replicate]
      · intro as bs heq
        rw [callbacks, ← List.cons_append] at heq
        have hbefore : .down ∉ .up :: List.replicate n Callback.message := by
          simp [List.mem_replicate]
        rcases hrest with rfl | rfl
        · obtain ⟨-, -, rfl⟩ := (List.append_cons_inj_of_notMem hbefore (by simp)).mp heq
          simp
        · obtain ⟨-, -, rfl⟩ := (List.append_cons_inj_of_notMem hbefore (by simp)).mp heq
          simp

-- The protocol is kept by a run exactly when every event of it is orderly.
theorem protocol_iff (loop : ThreadId) (es : List Event) :
    (play next (established loop) es).Protocol ↔ Plays Orderly next (established loop) es := by
  have hrun : ∀ c : Connection, c.Regular →
      ((play next c es).Protocol ↔ Plays Orderly next c es) := by
    induction es with
    | nil => exact fun c h => iff_of_true h.protocol trivial
    | cons e es ih =>
        intro c h
        by_cases hgood : c.Orderly e
        · rw [play, Plays, ih _ (h.next hgood), and_iff_right hgood]
        · refine iff_of_false (fun hprotocol => ?_) fun hplays => hgood hplays.1
          obtain ⟨more, hmore⟩ := callbacks_play (c.next e) es
          have honce : Once (play next c (e :: es)).callbacks :=
            ⟨hprotocol.down, hprotocol.message⟩
          rw [play, hmore] at honce
          exact h.not_once hgood honce.of_append
  exact hrun _ (.opened 0 rfl (by simp [Down, established, connectEstablished,
    connectionCallback, update]))

-- A hangup with urgent data: the close callback runs, and then the read callback.
def urgentHangup : List Event :=
  [.handleEvent { EPOLLHUP := true, EPOLLPRI := true } (.read 1) [] 0]

theorem not_protocol_urgentHangup :
    (play next (established 0) urgentHangup).callbacks = [.up, .down, .close, .message] ∧
      (play next (established 0) urgentHangup).known = true ∧
      ¬(play next (established 0) urgentHangup).Protocol := by
  have hcallbacks : (play next (established 0) urgentHangup).callbacks =
      [.up, .down, .close, .message] := rfl
  refine ⟨hcallbacks, rfl, fun h => ?_⟩
  exact h.message [.up] [.close, .message] hcallbacks (by simp)

end Protocol

end Connection

end MyTestserver.Callbacks
