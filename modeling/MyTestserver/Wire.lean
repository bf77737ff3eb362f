import MyTestserver.Delivery

namespace MyTestserver

open WebSocketHandler ChatServer Transition

-- The server with the input buffers of its connections, and the bytes that come in.
structure Wire (υ μ : Type) where
  server : Server υ μ
  inputBuffers : ConnId → Buffer

namespace Wire

variable {υ μ : Type} (env : Env υ μ) (w : Wire υ μ)

-- `serve` is one round of onMessage, so the rounds of different connections may come in
-- any order, as they do on different loops.
inductive Event
  | up (conn : ConnId)
  | receive (conn : ConnId) (chunk : Bytes)
  | serve (conn : ConnId) (now : ℕ) (uninit : MaskingKey)
  | down (conn : ConnId)

def start (users : υ) (messages : μ) : Wire υ μ where
  server := .start users messages
  inputBuffers _ := .new kInitialSize

section Operations

variable (conn : ConnId) (now : ℕ)

def updateServer (server : Server υ μ) : Wire υ μ := { w with server := server }

def updateInput (b : Buffer) : Wire υ μ :=
  { w with inputBuffers := Function.update w.inputBuffers conn b }

-- onMessage, with one round of its loop.
def serve (uninit : MaskingKey) : Outcome (Buffer × Server υ μ) :=
  let s := w.server
  let b := w.inputBuffers conn
  if (s.connectionStates conn).handshakeComplete = false then
    (.ok (), b.retrieveAllAsString.2, handleHandshake env conn s b.retrieveAllAsString.1)
  else if (s.connectionStates conn).isWebSocket then
    frameLoop (fun payload s => handleWebSocketMessage env conn now s payload)
      (fun s => s.shutdown conn) (fun _ => uninit) 1 (b, s)
  else (.ok (), b, s)

-- What is left when the outcome is an exception is the last state.
def finish (result : Outcome (Buffer × Server υ μ)) : Wire υ μ :=
  match result with
  | (.ok (), b, t) => (w.updateServer t).updateInput conn b
  | (.error _, b, t) => (w.updateServer { t with running := false }).updateInput conn b

def Guard : Event → Prop
  | .up conn => w.server.Guard (.up conn)
  | .receive conn _ | .serve conn _ _ | .down conn => w.server.Open conn

def next : Event → Wire υ μ
  | .up conn => w.updateServer (w.server.next env (.up conn))
  | .receive conn chunk => w.updateInput conn ((w.inputBuffers conn).append chunk)
  | .serve conn now uninit => w.finish conn (w.serve env conn now uninit)
  | .down conn => w.updateServer (w.server.next env (.down conn))

def Step (w : Wire υ μ) (e : Event) (w' : Wire υ μ) : Prop :=
  w.server.running = true ∧ w.Guard e ∧ w' = w.next env e

end Operations

instance (e : Event) : Decidable (w.Guard e) :=
  match e with
  | .up conn => inferInstanceAs (Decidable (w.server.Guard (.up conn)))
  | .receive conn _ | .serve conn _ _ | .down conn =>
      inferInstanceAs (Decidable (w.server.Open conn))

theorem path_of_plays {w : Wire υ μ} {es : List Event}
    (h : Plays (fun w e => w.server.running = true ∧ w.Guard e) (next env) w es) :
    Path (Step env) w es (play (next env) w es) :=
  Transition.path_of_plays (fun _ _ hok => ⟨hok.1, hok.2, rfl⟩) h

section Rounds

variable {env w} {conn : ConnId} {now : ℕ}

theorem finish_self : w.finish conn (.ok (), w.inputBuffers conn, w.server) = w := by
  simp [finish, updateServer, updateInput]

theorem finish_finish (b : Buffer) (t : Server υ μ) (result : Outcome (Buffer × Server υ μ)) :
    (w.finish conn (.ok (), b, t)).finish conn result = w.finish conn result := by
  obtain ⟨_ | _, b', t'⟩ := result
  · simp [finish, updateServer, updateInput]
  · simp [finish, updateServer, updateInput]

theorem path_serve {uninit : MaskingKey} {result : Outcome (Buffer × Server υ μ)}
    (hopen : w.server.Open conn) (hrunning : w.server.running = true)
    (h : w.serve env conn now uninit = result) : Path (Step env) w [.serve conn now uninit]
      (w.finish conn result) :=
  .cons ⟨hrunning, hopen, by rw [next, h]⟩ (.nil _)

theorem serve_upgraded (env : Env υ μ) (now : ℕ) (hup : w.server.Upgraded conn)
    (uninit : MaskingKey) :
    w.serve env conn now uninit =
      frameLoop (fun payload s => handleWebSocketMessage env conn now s payload)
        (fun s => s.shutdown conn) (fun _ => uninit) 1 (w.inputBuffers conn, w.server) := by
  simp [serve, hup.1, hup.2]

-- A round that goes on, and the rounds after it.
theorem path_serve_append {uninit : MaskingKey} {b : Buffer} {t : Server υ μ}
    {rest : Buffer × Server υ μ → Outcome (Buffer × Server υ μ)} (hopen : w.server.Open conn)
    (hrunning : w.server.running = true)
    (h : w.serve env conn now uninit = (.ok (), b, t))
    (hrest : ∀ w' : Wire υ μ, w'.server = t → w'.inputBuffers conn = b →
      ∃ es, Path (Step env) w' es (w'.finish conn (rest (w'.inputBuffers conn, w'.server)))) :
    ∃ es, Path (Step env) w es (w.finish conn (rest (b, t))) := by
  have hfirst := path_serve hopen hrunning h
  have hinput : (w.finish conn (.ok (), b, t)).inputBuffers conn = b := by
    simp [finish, updateServer, updateInput]
  obtain ⟨es, hes⟩ := hrest (w.finish conn (.ok (), b, t)) rfl hinput
  rw [finish_finish, hinput] at hes
  exact ⟨_, hfirst.append hes⟩

-- The loop of onMessage is its rounds, one after the other.
theorem frameLoop_rounds (uninit : ℕ → MaskingKey) (rounds : ℕ) (hopen : w.server.Open conn)
    (hup : w.server.Upgraded conn) (hrunning : w.server.running = true) :
    ∃ es, Path (Step env) w es (w.finish conn
      (frameLoop (fun payload s => handleWebSocketMessage env conn now s payload)
        (fun s => s.shutdown conn) uninit rounds (w.inputBuffers conn, w.server))) := by
  induction rounds generalizing w with
  | zero => exact ⟨[], by rw [frameLoop, finish_self]; exact .nil w⟩
  | succ rounds ih =>
      have hround := serve_upgraded env now hup (uninit rounds)
      unfold frameLoop at hround ⊢
      split
      · exact ⟨[], by rw [finish_self]; exact .nil w⟩
      rename_i hreadable
      rw [if_neg hreadable] at hround
      split
      · rename_i e hparse
        rw [hparse] at hround
        exact ⟨_, path_serve hopen hrunning hround⟩
      · exact ⟨[], by rw [finish_self]; exact .nil w⟩
      rename_i frame hparse
      rw [hparse] at hround
      dsimp only at hround
      split
      · rename_i htext
        rw [if_pos htext] at hround
        split
        · rename_i hresult
          rw [hresult] at hround
          exact ⟨_, path_serve hopen hrunning hround⟩
        · rename_i t hresult
          rw [hresult] at hround
          have hopen' := (Server.closed_open conn).handleWebSocketMessage env conn now w.server
            frame.outMessage fun _ t => t.open_shutdown conn conn
          have hup' := w.server.upgraded_handleWebSocketMessage env conn now conn frame.outMessage
          have hrunning' := Server.closed_running.handleWebSocketMessage env conn now w.server
            frame.outMessage fun _ t => (t.quiet_shutdown conn).running
          rw [hresult] at hopen' hup' hrunning'
          refine path_serve_append hopen hrunning hround fun w' hserver hinput => ?_
          exact ih (hserver ▸ hopen'.mpr hopen) (hserver ▸ hup'.mpr hup)
            (by rw [hserver]; exact hrunning'.trans hrunning)
      rename_i htext
      rw [if_neg htext] at hround
      split
      · rename_i hclose
        rw [if_pos hclose] at hround
        exact ⟨_, path_serve hopen hrunning hround⟩
      · rename_i hclose
        rw [if_neg hclose] at hround
        refine path_serve_append hopen hrunning hround fun w' hserver hinput => ?_
        exact ih (hserver ▸ hopen) (hserver ▸ hup) (by rw [hserver]; exact hrunning)

-- A delivery of data is the arrival of a chunk and rounds of onMessage.
theorem onMessage_rounds (uninit : ℕ → MaskingKey) (hopen : w.server.Open conn)
    (hrunning : w.server.running = true) :
    ∃ es, Path (Step env) w es (w.finish conn
      (onMessage env conn now w.server uninit (w.inputBuffers conn))) := by
  unfold onMessage
  split
  · rename_i hnew
    have hserve : w.serve env conn now (uninit 0) =
        (.ok (), (w.inputBuffers conn).retrieveAllAsString.2,
          handleHandshake env conn w.server (w.inputBuffers conn).retrieveAllAsString.1) := by
      simp [serve, hnew]
    exact ⟨_, path_serve hopen hrunning hserve⟩
  · rename_i hcomplete
    split
    · rename_i hsocket
      exact frameLoop_rounds uninit _ hopen ⟨by simpa using hcomplete, hsocket⟩ hrunning
    · exact ⟨[], by rw [finish_self]; exact .nil w⟩

end Rounds

section Refinement

-- The events of the server that a step amounts to.
def events (w : Wire υ μ) : Event → List MyTestserver.Event
  | .up conn => [.up conn]
  | .receive _ _ => []
  | .serve conn now uninit =>
      let b := w.inputBuffers conn
      if (w.server.connectionStates conn).handshakeComplete = false then
        [.request conn b.retrieveAllAsString.1]
      else if (w.server.connectionStates conn).isWebSocket then
        match parseFrame uninit b.readable with
        | .ok (some frame) =>
            if frame.opcode = 0x1 ∧ frame.outMessage ≠ [] then [.message conn frame.outMessage now]
            else if frame.opcode = 0x8 then [.closeFrame conn]
            else []
        | _ => []
      else []
  | .down conn => [.down conn]

-- A read past the end of the data ends the run here, and is no event of the server.
def Shows (w : Wire υ μ) (s : Server υ μ) : Prop :=
  w.server = s ∨ w.server = { s with running := false }

theorem serve_path {w : Wire υ μ} {conn : ConnId} (now : ℕ) (uninit : MaskingKey)
    (hopen : w.server.Open conn) (hrunning : w.server.running = true) :
    ∃ t, Path (Server.Step env) w.server (w.events (.serve conn now uninit)) t ∧
      (w.next env (.serve conn now uninit)).Shows t := by
  have hone : ∀ {e : MyTestserver.Event} {t : Server υ μ}, w.server.Guard e →
      w.server.next env e = t → Path (Server.Step env) w.server [e] t :=
    fun hguard hnext => .cons ⟨hrunning, hguard, hnext.symm⟩ (.nil _)
  simp only [events, next, serve]
  by_cases hnew : (w.server.connectionStates conn).handshakeComplete = false
  · rw [if_pos hnew, if_pos hnew]
    generalize (w.inputBuffers conn).retrieveAllAsString = taken
    exact ⟨handleHandshake env conn w.server taken.1, hone ⟨hopen, hnew⟩ rfl, .inl rfl⟩
  rw [if_neg hnew, if_neg hnew]
  by_cases hsocket : (w.server.connectionStates conn).isWebSocket = true
  swap
  · rw [if_neg hsocket, if_neg hsocket]
    exact ⟨w.server, .nil _, .inl rfl⟩
  rw [if_pos hsocket, if_pos hsocket]
  have hup : w.server.Upgraded conn := ⟨by simpa using hnew, hsocket⟩
  cases hparse : parseFrame uninit (w.inputBuffers conn).readable with
  | error e =>
      refine ⟨w.server, .nil _, ?_⟩
      simp only [frameLoop, hparse]
      split
      · exact .inl rfl
      · exact .inr rfl
  | ok frame =>
      cases frame with
      | none =>
          refine ⟨w.server, .nil _, .inl ?_⟩
          simp only [frameLoop, hparse, ite_self]
          rfl
      | some frame =>
          have hreadable : (w.inputBuffers conn).readableBytes ≠ 0 := by
            have hlen := parseFrame_frameLen hparse
            rw [Buffer.readable_length] at hlen
            omega
          simp only [frameLoop, hparse, hreadable, if_false]
          split
          · refine ⟨_, hone ⟨hopen, hup⟩ rfl, .inl ?_⟩
            simp only [Server.next, Server.exec]
            cases handleWebSocketMessage env conn now w.server frame.outMessage with
            | mk result t =>
                cases result with
                | ok => rfl
                | error e => rfl
          split
          · exact ⟨w.server.shutdown conn, hone ⟨hopen, hup⟩ rfl, .inl rfl⟩
          · exact ⟨w.server, .nil _, .inl rfl⟩

theorem step_path {w w' : Wire υ μ} {e : Event} {s : Server υ μ} (hs : w.Shows s)
    (hstep : Step env w e w') :
    ∃ t, Path (Server.Step env) s (w.events e) t ∧ w'.Shows t := by
  obtain ⟨hrunning, hguard, rfl⟩ := hstep
  obtain rfl : w.server = s := by
    rcases hs with rfl | hs
    · rfl
    · rw [hs] at hrunning
      cases hrunning
  cases e with
  | up conn => exact ⟨_, .cons ⟨hrunning, hguard, rfl⟩ (.nil _), .inl rfl⟩
  | receive conn chunk => exact ⟨_, .nil _, .inl rfl⟩
  | serve conn now uninit => exact serve_path env now uninit hguard hrunning
  | down conn => exact ⟨_, .cons ⟨hrunning, hguard, rfl⟩ (.nil _), .inl rfl⟩

-- The events of the server that a run amounts to.
def history (w : Wire υ μ) (es : List Event) : List MyTestserver.Event :=
  gather (next env) events w es

-- Whatever bytes come in, the server goes through a run of its own.
theorem path_history {w w' : Wire υ μ} {es : List Event} {s : Server υ μ}
    (h : Path (Step env) w es w') (hs : w.Shows s) :
    ∃ t, Path (Server.Step env) s (w.history env es) t ∧ w'.Shows t := by
  induction h generalizing s with
  | nil => exact ⟨s, .nil s, hs⟩
  | cons hstep _ ih =>
      obtain ⟨t, hfirst, ht⟩ := step_path env hs hstep
      obtain ⟨u, hrest, hu⟩ := ih ht
      rw [history, gather, ← hstep.2.2]
      exact ⟨u, hfirst.append hrest, hu⟩

theorem Shows.conns {w : Wire υ μ} {s : Server υ μ} (h : w.Shows s) : w.server.conns = s.conns := by
  rcases h with h | h
  · rw [h]
  · rw [h]

theorem Shows.sessions {w : Wire υ μ} {s : Server υ μ} (h : w.Shows s) :
    w.server.sessions = s.sessions := by
  rcases h with h | h
  · rw [h]
  · rw [h]

end Refinement

end Wire

end MyTestserver
