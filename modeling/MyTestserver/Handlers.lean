import MyTestserver.ChatServer

namespace MyTestserver

open SessionManager ChatService ChatServer

namespace Server

variable {υ μ : Type}

section Closure

-- A relation between the server before and after that no single operation of a handler of
-- the connection breaks, the shutdown at a logout apart. The handlers write to their own
-- connection and to owners of sessions.
structure ClosedBy (conn : ConnId) (rel : Server υ μ → Server υ μ → Prop) : Prop where
  refl : ∀ s, rel s s
  trans : ∀ {s t u}, rel s t → rel t u → rel s u
  users : ∀ s users, rel s { s with users := users }
  messages : ∀ s messages, rel s { s with messages := messages }
  addSession : ∀ s u now, rel s { s with sessions := addSession s.sessions u conn now }
  removeSession : ∀ s u, rel s { s with sessions := removeSession s.sessions u }
  updateHeartbeat : ∀ s u now, rel s { s with sessions := updateHeartbeat s.sessions u now }
  record : ∀ s effect, rel s (s.record effect)
  setUsername : ∀ s name, rel s (s.setUsername conn name)
  reply : ∀ s json, rel s (s.sendResponse conn json)
  notify : ∀ s owner u json, getConnection s.sessions u = some owner →
    rel s (s.sendResponse owner json)
  broadcast : ∀ s text, rel s (s.broadcastToAll (WebSocketHandler.encodeFrame text) [])

variable {rel : Server υ μ → Server υ μ → Prop} {conn : ConnId} (h : ClosedBy conn rel)
  (env : Env υ μ) (now : ℕ) (s : Server υ μ)

namespace ClosedBy

include h

theorem handleRegister (username password : Bytes) :
    rel s (handleRegister env conn s username password).2 := by
  obtain ⟨users, text, hresult⟩ := handleRegister_result env conn s username password
  rw [hresult]
  exact h.trans (h.users s users) (h.reply _ text)

theorem acceptLogin (username : Bytes) : rel s (acceptLogin env conn now s username).2 := by
  have hadded := h.trans (h.users s (env.userDao.getUserByUsername s.users username).2)
    (h.addSession _ username now)
  unfold ChatService.acceptLogin
  dsimp only
  split
  · exact h.trans hadded (h.trans (h.reply _ _) (h.record _ _))
  · exact hadded

theorem handleLogin (username password : Bytes) :
    rel s (handleLogin env conn now s username password).2 := by
  by_cases haccepted : Accepted env s username password
  · rw [handleLogin_accepted conn now haccepted]
    exact h.trans (h.users s _) (h.acceptLogin env now _ username)
  · obtain ⟨users, text, hresult⟩ := handleLogin_rejected conn now haccepted
    rw [hresult]
    exact h.trans (h.users s users) (h.reply _ text)

theorem handleLogout (hshutdown : ∀ t, rel t (t.shutdown conn)) (username : Bytes) :
    rel s (handleLogout conn s username).2 := by
  obtain ⟨text, hresult⟩ := handleLogout_result conn s username
  rw [hresult]
  exact h.trans (h.removeSession s username) (h.trans (h.reply _ text) (hshutdown _))

theorem handleChat (sender content : Bytes) :
    rel s (handleChat env now s sender content).2 := by
  rcases handleChat_cases env now s sender content with ⟨users, hresult⟩ | ⟨_, users, user, hresult⟩
  · rw [hresult]
    exact h.users s users
  · rw [hresult]
    refine h.trans (h.users s users) ?_
    unfold publish
    dsimp only
    split
    · exact h.trans (h.trans (h.messages _ _) (h.record _ _))
        (h.trans (h.broadcast _ _) (h.record _ _))
    · exact h.trans (h.messages _ _) (h.record _ _)

theorem handleHeartbeat (username : Bytes) : rel s (handleHeartbeat now s username).2 := by
  have hrefresh : rel s (refresh now s username) := by
    unfold refresh
    split
    · exact h.trans (h.updateHeartbeat s username now) (h.record _ _)
    · exact h.updateHeartbeat s username now
  unfold ChatService.handleHeartbeat
  rw [Json.dump_ok (heartbeatResponse_utf8 now)]
  dsimp only
  split
  · rename_i owner howner
    split
    · exact h.trans hrefresh (h.notify _ owner username _ howner)
    · exact hrefresh
  · exact hrefresh

theorem handleGetHistory (limit : ℤ) : rel s (handleGetHistory env conn s limit).2 := by
  unfold ChatService.handleGetHistory sendHistory
  dsimp only
  split
  · dsimp only
    split
    · exact h.trans (h.messages s _) (h.trans (h.reply _ _) (h.record _ _))
    · exact h.messages s _
  · exact h.messages s _

theorem dispatch (request : Request) (hlogout : request = .logout → ∀ t, rel t (t.shutdown conn)) :
    rel s (dispatch env conn now s request).2 := by
  have hthen : ∀ {result : Outcome (Server υ μ)} {next : Server υ μ → Outcome (Server υ μ)},
      rel s result.2 → (∀ t, rel t (next t).2) → rel s (result.andThen next).2 := by
    rintro ⟨_ | _, t⟩ next hresult hnext
    · exact hresult
    · exact h.trans hresult (hnext t)
  cases request with
  | register username password => exact h.handleRegister env s username password
  | login username password =>
      refine hthen ?_ fun t => h.handleGetHistory env t 50
      exact h.trans (h.setUsername s username) (h.handleLogin env now _ username password)
  | logout => exact hthen (h.handleLogout s (hlogout rfl) _) fun t => h.setUsername t []
  | chat content => exact h.handleChat env now s _ content
  | heartbeat => exact h.handleHeartbeat now s _
  | get_history limit => exact h.handleGetHistory env s limit
  | unknown msgType => exact h.refl s

-- So no message breaks it either.
theorem handleWebSocketMessage (payload : Bytes)
    (hlogout : decode env payload = .ok .logout → ∀ t, rel t (t.shutdown conn)) :
    rel s (handleWebSocketMessage env conn now s payload).2 := by
  cases hdecode : decode env payload with
  | ok request =>
      rw [handleWebSocketMessage_decoded env conn now s hdecode]
      exact h.dispatch env now s request fun hrequest => hlogout (hrequest ▸ hdecode)
  | error e =>
      by_cases he : e = .parse_error
      · rw [handleWebSocketMessage_parse_error env conn now s (he ▸ hdecode)]
        exact h.reply s _
      · rw [handleWebSocketMessage_uncaught env conn now s hdecode he]
        exact h.refl s

end ClosedBy

-- The same where it makes no difference which connection is written to, and how the
-- sessions change.
structure Closed (rel : Server υ μ → Server υ μ → Prop) : Prop where
  refl : ∀ s, rel s s
  trans : ∀ {s t u}, rel s t → rel t u → rel s u
  users : ∀ s users, rel s { s with users := users }
  messages : ∀ s messages, rel s { s with messages := messages }
  sessions : ∀ s sessions, rel s { s with sessions := sessions }
  record : ∀ s effect, rel s (s.record effect)
  setUsername : ∀ s conn name, rel s (s.setUsername conn name)
  sendResponse : ∀ s conn json, rel s (s.sendResponse conn json)
  broadcast : ∀ s text, rel s (s.broadcastToAll (WebSocketHandler.encodeFrame text) [])

theorem Closed.by (h : Closed rel) (conn : ConnId) : ClosedBy conn rel where
  refl := h.refl
  trans := h.trans
  users := h.users
  messages := h.messages
  addSession s _ _ := h.sessions s _
  removeSession s _ := h.sessions s _
  updateHeartbeat s _ _ := h.sessions s _
  record := h.record
  setUsername s name := h.setUsername s conn name
  reply s json := h.sendResponse s conn json
  notify s owner _ json _ := h.sendResponse s owner json
  broadcast := h.broadcast

end Closure

variable (env : Env υ μ) (conn : ConnId) (now : ℕ) (s : Server υ μ)

theorem Closed.handleWebSocketMessage {rel : Server υ μ → Server υ μ → Prop} (h : Closed rel)
    (payload : Bytes) (hlogout : decode env payload = .ok .logout → ∀ t, rel t (t.shutdown conn)) :
    rel s (ChatServer.handleWebSocketMessage env conn now s payload).2 :=
  (h.by conn).handleWebSocketMessage env now s payload hlogout

-- Two such relations together, the second where a property holds that the first keeps.
theorem Closed.guarded {p : Server υ μ → Prop} (hp : Closed fun s t => p t ↔ p s)
    {rel : Server υ μ → Server υ μ → Prop} (h : Closed rel) :
    Closed fun s t => p s → p t ∧ rel s t where
  refl s hs := ⟨hs, h.refl s⟩
  trans hst htu hs := ⟨(htu (hst hs).1).1, h.trans (hst hs).2 (htu (hst hs).1).2⟩
  users s users hs := ⟨(hp.users s users).mpr hs, h.users s users⟩
  messages s messages hs := ⟨(hp.messages s messages).mpr hs, h.messages s messages⟩
  sessions s sessions hs := ⟨(hp.sessions s sessions).mpr hs, h.sessions s sessions⟩
  record s effect hs := ⟨(hp.record s effect).mpr hs, h.record s effect⟩
  setUsername s conn name hs := ⟨(hp.setUsername s conn name).mpr hs, h.setUsername s conn name⟩
  sendResponse s conn json hs := ⟨(hp.sendResponse s conn json).mpr hs, h.sendResponse s conn json⟩
  broadcast s text hs := ⟨(hp.broadcast s text).mpr hs, h.broadcast s text⟩

section Upgraded

-- The connection is past its handshake.
def Upgraded : Prop :=
  (s.connectionStates conn).handshakeComplete = true ∧ (s.connectionStates conn).isWebSocket = true

instance : Decidable (s.Upgraded conn) := by
  unfold Upgraded
  infer_instance

theorem Sends.upgraded_iff {s t : Server υ μ} (h : Sends s t) :
    t.Upgraded conn ↔ s.Upgraded conn := by
  unfold Upgraded
  rw [h.connectionStates]

theorem upgraded_setUsername (other : ConnId) (name : Bytes) :
    (s.setUsername other name).Upgraded conn ↔ s.Upgraded conn := by
  by_cases hother : conn = other
  · simp [Upgraded, setUsername, setConnectionState, hother]
  · simp [Upgraded, setUsername, setConnectionState, hother]

theorem upgraded_shutdown (other : ConnId) :
    (s.shutdown other).Upgraded conn ↔ s.Upgraded conn := by
  unfold shutdown
  split <;> rfl

theorem closed_upgraded :
    Closed fun s t : Server υ μ => t.Upgraded conn ↔ s.Upgraded conn where
  refl _ := Iff.rfl
  trans h h' := h'.trans h
  users _ _ := Iff.rfl
  messages _ _ := Iff.rfl
  sessions _ _ := Iff.rfl
  record _ _ := Iff.rfl
  setUsername s other name := s.upgraded_setUsername conn other name
  sendResponse s other _ := (s.sends_send other _).upgraded_iff conn
  broadcast s _ := (s.sends_broadcastToAll _ _).upgraded_iff conn

-- The handshake is done once.
theorem upgraded_handleWebSocketMessage (other : ConnId) (payload : Bytes) :
    (handleWebSocketMessage env other now s payload).2.Upgraded conn ↔ s.Upgraded conn :=
  (closed_upgraded conn).handleWebSocketMessage env other now s payload fun _ t =>
    t.upgraded_shutdown conn other

end Upgraded

section State

theorem closed_state (other : ConnId) :
    Closed fun s t : Server υ μ => (t.conns other).state = (s.conns other).state where
  refl _ := rfl
  trans h h' := h'.trans h
  users _ _ := rfl
  messages _ _ := rfl
  sessions _ _ := rfl
  record _ _ := rfl
  setUsername _ _ _ := rfl
  sendResponse s conn _ := (s.sends_send conn _).state other
  broadcast s _ := (s.sends_broadcastToAll _ _).state other

-- Logging out is what shuts a connection down, and it does not throw.
theorem state_of_error {payload : Bytes} {e : Exception}
    (h : (handleWebSocketMessage env conn now s payload).1 = .error e) (other : ConnId) :
    ((handleWebSocketMessage env conn now s payload).2.conns other).state =
      (s.conns other).state := by
  refine (closed_state other).handleWebSocketMessage env conn now s payload fun hlogout => ?_
  obtain ⟨text, hresult⟩ := handleLogout_result conn s (s.username conn)
  rw [handleWebSocketMessage_decoded env conn now s hlogout, ChatServer.dispatch, hresult] at h
  cases h

end State

end Server

end MyTestserver
