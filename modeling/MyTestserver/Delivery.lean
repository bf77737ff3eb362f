import MyTestserver.FrameStream
import MyTestserver.Handlers
import MyTestserver.System

namespace MyTestserver

open WebSocketHandler ChatServer Transition

-- What a relation has to be closed under to hold across the whole frame loop.
theorem frameLoop_rel {σ : Type} {rel : σ → σ → Prop} (hrefl : ∀ s, rel s s)
    (htrans : ∀ {s t u}, rel s t → rel t u → rel s u) {handle : Bytes → σ → Outcome σ}
    {shutdown : σ → σ} (hhandle : ∀ payload s, rel s (handle payload s).2)
    (hshutdown : ∀ s, rel s (shutdown s)) (uninit : ℕ → MaskingKey) (rounds : ℕ) (b : Buffer)
    (s : σ) : rel s (frameLoop handle shutdown uninit rounds (b, s)).2.2 := by
  induction rounds generalizing b s with
  | zero => exact hrefl s
  | succ rounds ih =>
      unfold frameLoop
      split
      · exact hrefl s
      split
      · exact hrefl s
      · exact hrefl s
      rename_i frame _
      split
      · have hfirst := hhandle frame.outMessage s
        split
        · rename_i h
          rw [h] at hfirst
          exact hfirst
        · rename_i h
          rw [h] at hfirst
          exact htrans hfirst (ih _ _)
      split
      · exact hshutdown s
      · exact ih _ _

-- One arrival of data: the chunk that was read, the time, and what parseFrame will find in
-- its local array.
structure Delivery where
  chunk : Bytes
  now : ℕ
  uninit : ℕ → MaskingKey

namespace Server

variable {υ μ : Type} (env : Env υ μ) (conn : ConnId)

-- TcpConnection::handleRead, one delivery after the other, until an exception.
def deliver : List Delivery → Buffer × Server υ μ → Outcome (Buffer × Server υ μ)
  | [], state => (.ok (), state)
  | d :: ds, (b, s) =>
      (onMessage env conn d.now s d.uninit (b.append d.chunk)).andThen (deliver ds)

section Relation

variable {rel : Server υ μ → Server υ μ → Prop} (h : Closed rel)
  (hshutdown : ∀ s, rel s (s.shutdown conn))
  (hhandshake : ∀ s data, (s.connectionStates conn).handshakeComplete = false →
    rel s (handleHandshake env conn s data))

include h hshutdown hhandshake

theorem onMessage_rel (now : ℕ) (s : Server υ μ) (uninit : ℕ → MaskingKey) (b : Buffer) :
    rel s (onMessage env conn now s uninit b).2.2 := by
  unfold onMessage
  split
  · rename_i hcomplete
    exact hhandshake s _ hcomplete
  split
  · refine frameLoop_rel h.refl h.trans (fun payload s => ?_) hshutdown uninit _ b s
    exact h.handleWebSocketMessage env conn now s payload fun _ => hshutdown
  · exact h.refl s

theorem deliver_rel (ds : List Delivery) (b : Buffer) (s : Server υ μ) :
    rel s (deliver env conn ds (b, s)).2.2 := by
  induction ds generalizing b s with
  | nil => exact h.refl s
  | cons d ds ih =>
      have hfirst := onMessage_rel env conn h hshutdown hhandshake d.now s d.uninit
        (b.append d.chunk)
      unfold deliver
      cases hresult : onMessage env conn d.now s d.uninit (b.append d.chunk) with
      | mk result state =>
          rw [hresult] at hfirst
          cases result with
          | ok => exact h.trans hfirst (ih _ _)
          | error e => exact hfirst

end Relation

section Sent

-- Between the two states the connection took strings of a kind, and gave none back.
def Sent (kind : Bytes → Prop) (s t : Server υ μ) : Prop :=
  ∃ bufs, (t.conns conn).sent = (s.conns conn).sent ++ bufs ∧ ∀ buf ∈ bufs, kind buf

variable {kind : Bytes → Prop}

theorem Sent.refl (s : Server υ μ) : Sent conn kind s s := ⟨[], by simp, by simp⟩

theorem Sent.trans {s t u : Server υ μ} (h : Sent conn kind s t) (h' : Sent conn kind t u) :
    Sent conn kind s u := by
  obtain ⟨bufs, hsent, hkind⟩ := h
  obtain ⟨bufs', hsent', hkind'⟩ := h'
  refine ⟨bufs ++ bufs', by rw [hsent', hsent, List.append_assoc], fun buf hbuf => ?_⟩
  rcases List.mem_append.mp hbuf with hbuf | hbuf
  · exact hkind buf hbuf
  · exact hkind' buf hbuf

theorem Sent.of_eq {s t : Server υ μ} (h : (t.conns conn).sent = (s.conns conn).sent) :
    Sent conn kind s t := ⟨[], by rw [h, List.append_nil], by simp⟩

theorem Sent.send (s : Server υ μ) (other : ConnId) {buf : Bytes} (hbuf : kind buf) :
    Sent conn kind s (s.send other buf) := by
  by_cases hother : conn = other
  · subst hother
    unfold Server.send
    split
    · exact ⟨[buf], by simp, by simpa using hbuf⟩
    · exact .refl conn s
  · exact .of_eq conn (sent_send_ne s other buf hother)

theorem Sent.broadcastToAll (s : Server υ μ) {message : Bytes} (hmessage : kind message)
    (excludeUsername : Bytes) : Sent conn kind s (s.broadcastToAll message excludeUsername) := by
  unfold Server.broadcastToAll
  generalize SessionManager.receivers s.sessions s.connected excludeUsername = receivers
  induction receivers generalizing s with
  | nil => exact .refl conn s
  | cons other receivers ih => exact (Sent.send conn s other hmessage).trans conn (ih _)

theorem Sent.shutdown (s : Server υ μ) (other : ConnId) : Sent conn kind s (s.shutdown other) :=
  .of_eq conn (s.sent_shutdown other conn)

theorem closed_sent (kind : Bytes → Prop) (hkind : ∀ text, kind (encodeFrame text)) :
    Closed (Sent conn kind : Server υ μ → Server υ μ → Prop) where
  refl := .refl conn
  trans h h' := h.trans conn h'
  users s _ := .refl conn s
  messages s _ := .refl conn s
  sessions s _ := .refl conn s
  record s _ := .refl conn s
  setUsername s _ _ := .refl conn s
  sendResponse s other json := .send conn s other (hkind json)
  broadcast s text := .broadcastToAll conn s (hkind text) []

def IsFrame (buf : Bytes) : Prop := ∃ json, buf = encodeFrame json

-- After the handshake only frames are sent.
theorem sent_deliver_upgraded (ds : List Delivery) (b : Buffer) {s : Server υ μ}
    (h : s.Upgraded conn) : Sent conn IsFrame s (deliver env conn ds (b, s)).2.2 := by
  have hclosed : Closed fun s t : Server υ μ =>
      s.Upgraded conn → t.Upgraded conn ∧ Sent conn IsFrame s t :=
    (closed_upgraded conn).guarded (closed_sent conn IsFrame fun text => ⟨text, rfl⟩)
  refine (deliver_rel env conn hclosed (fun s hs => ?_) (fun s data hnew hs => ?_) ds b s h).2
  · exact ⟨(s.upgraded_shutdown conn conn).mpr hs, Sent.shutdown conn s conn⟩
  · rw [hs.1] at hnew
    cases hnew

end Sent

section Events

theorem closed_open (other : ConnId) :
    Closed fun s t : Server υ μ => t.Open other ↔ s.Open other where
  refl _ := Iff.rfl
  trans h h' := h'.trans h
  users _ _ := Iff.rfl
  messages _ _ := Iff.rfl
  sessions _ _ := Iff.rfl
  record _ _ := Iff.rfl
  setUsername _ _ _ := Iff.rfl
  sendResponse s conn _ := (s.sends_send conn _).open_iff other
  broadcast s _ := (s.sends_broadcastToAll _ _).open_iff other

theorem closed_running : Closed fun s t : Server υ μ => t.running = s.running where
  refl _ := rfl
  trans h h' := h'.trans h
  users _ _ := rfl
  messages _ _ := rfl
  sessions _ _ := rfl
  record _ _ := rfl
  setUsername _ _ _ := rfl
  sendResponse s conn _ := (s.sends_send conn _).running
  broadcast s _ := (s.sends_broadcastToAll _ _).running

-- The frame loop is a run of messages, with a close frame at the end perhaps.
theorem frameLoop_path (now : ℕ) (uninit : ℕ → MaskingKey) (rounds : ℕ) {b b' : Buffer}
    {s t : Server υ μ} (hopen : s.Open conn) (hup : s.Upgraded conn) (hrunning : s.running = true)
    (h : frameLoop (fun payload s => handleWebSocketMessage env conn now s payload)
      (fun s => s.shutdown conn) uninit rounds (b, s) = (.ok (), b', t)) :
    ∃ es, Path (Step env) s es t := by
  induction rounds generalizing b s with
  | zero =>
      cases h
      exact ⟨[], .nil _⟩
  | succ rounds ih =>
      unfold frameLoop at h
      split at h
      · cases h
        exact ⟨[], .nil _⟩
      split at h
      · cases h
      · cases h
        exact ⟨[], .nil _⟩
      rename_i frame _
      split at h
      · have hopen' := (closed_open conn).handleWebSocketMessage env conn now s frame.outMessage
          fun _ t => t.open_shutdown conn conn
        have hup' := s.upgraded_handleWebSocketMessage env conn now conn frame.outMessage
        have hrunning' := closed_running.handleWebSocketMessage env conn now s frame.outMessage
          fun _ t => (t.quiet_shutdown conn).running
        split at h
        · cases h
        · rename_i u hresult
          rw [hresult] at hopen' hup' hrunning'
          obtain ⟨es, hes⟩ := ih (hopen'.mpr hopen) (hup'.mpr hup) (hrunning'.trans hrunning) h
          refine ⟨.message conn frame.outMessage now :: es, .cons ⟨hrunning, ⟨hopen, hup⟩, ?_⟩ hes⟩
          simp only [next, exec, hresult]
      split at h
      · cases h
        exact ⟨[.closeFrame conn], .cons ⟨hrunning, ⟨hopen, hup⟩, rfl⟩ (.nil _)⟩
      · exact ih hopen hup hrunning h

-- A delivery is a run of events, so what holds in all runs holds of the bytes that come in.
theorem onMessage_path (now : ℕ) (uninit : ℕ → MaskingKey) {b b' : Buffer} {s t : Server υ μ}
    (hopen : s.Open conn) (hrunning : s.running = true)
    (h : onMessage env conn now s uninit b = (.ok (), b', t)) : ∃ es, Path (Step env) s es t := by
  unfold onMessage at h
  split at h
  · rename_i hnew
    cases h
    exact ⟨[.request conn _], .cons ⟨hrunning, ⟨hopen, hnew⟩, rfl⟩ (.nil _)⟩
  · rename_i hcomplete
    split at h
    · rename_i hsocket
      have hup : s.Upgraded conn := ⟨by simpa using hcomplete, hsocket⟩
      exact frameLoop_path env conn now uninit _ hopen hup hrunning h
    · cases h
      exact ⟨[], .nil _⟩

theorem Reachable.onMessage {s t : Server υ μ} (hs : Reachable env s) (now : ℕ)
    (uninit : ℕ → MaskingKey) {b b' : Buffer} (hopen : s.Open conn) (hrunning : s.running = true)
    (h : ChatServer.onMessage env conn now s uninit b = (.ok (), b', t)) : Reachable env t := by
  obtain ⟨users, messages, es, hrun⟩ := hs
  obtain ⟨es', hmore⟩ := onMessage_path env conn now uninit hopen hrunning h
  exact ⟨users, messages, es ++ es', hrun.append hmore⟩

end Events

end Server

end MyTestserver
