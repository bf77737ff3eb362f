import MyTestserver.SessionRegistry

namespace MyTestserver

open SessionManager ChatService ChatServer Transition

namespace Server

variable {υ μ : Type}

-- The trace goes on from s to t by effects with a property.
def Logs (p : Effect → Prop) (s t : Server υ μ) : Prop :=
  ∃ new, t.trace = s.trace ++ new ∧ ∀ x ∈ new, p x

variable {p q : Effect → Prop} {s t u : Server υ μ}

theorem Logs.of_eq (h : t.trace = s.trace) : Logs p s t := ⟨[], by simp [h], by simp⟩

theorem Logs.trans (h : Logs p s t) (h' : Logs p t u) : Logs p s u := by
  obtain ⟨new, htrace, hnew⟩ := h
  obtain ⟨new', htrace', hnew'⟩ := h'
  refine ⟨new ++ new', by rw [htrace', htrace, List.append_assoc], fun x hx => ?_⟩
  exact (List.mem_append.mp hx).elim (hnew x) (hnew' x)

theorem Logs.mono (h : Logs p s t) (hpq : ∀ x, p x → q x) : Logs q s t := by
  obtain ⟨new, htrace, hnew⟩ := h
  exact ⟨new, htrace, fun x hx => hpq x (hnew x hx)⟩

theorem Logs.record {x : Effect} (h : Logs p s t) (hx : p x) : Logs p s (t.record x) :=
  h.trans ⟨[x], rfl, by simpa using hx⟩

theorem Quiet.logs (h : Quiet s t) : Logs p s t := .of_eq h.trace

theorem Sends.logs (h : Sends s t) : Logs p s t := .of_eq h.trace

theorem Logs.subset (h : Logs p s t) {x : Effect} (hx : x ∈ s.trace) : x ∈ t.trace := by
  obtain ⟨new, htrace, _⟩ := h
  rw [htrace]
  exact List.mem_append_left _ hx

-- What is new in the trace.
theorem Logs.of_mem_drop (h : Logs p s t) {x : Effect} (hx : x ∈ t.trace.drop s.trace.length) :
    p x := by
  obtain ⟨new, htrace, hnew⟩ := h
  rw [htrace, List.drop_left] at hx
  exact hnew x hx

end Server

namespace ChatService

open Server

variable {υ μ : Type} (env : Env υ μ) (conn : ConnId) (now : ℕ) (s : Server υ μ)
  {p : Effect → Prop}

-- The answer to an accepted login is logged, unless it cannot be written.
theorem logs_acceptLogin (username : Bytes) :
    Logs (· = .loginAnswered conn username) s (acceptLogin env conn now s username).2 := by
  unfold acceptLogin
  dsimp only
  split
  · exact .record (.of_eq (Server.sends_send _ conn _).trace) rfl
  · exact .of_eq rfl

theorem answered_acceptLogin {username : Bytes}
    (h : (acceptLogin env conn now s username).1 = .ok ()) :
    .loginAnswered conn username ∈ (acceptLogin env conn now s username).2.trace := by
  unfold acceptLogin at h ⊢
  dsimp only at h ⊢
  split at h
  · simp [Server.record, *]
  · cases h

theorem logs_handleLogin (username password : Bytes) :
    Logs (fun x => x = .loginAnswered conn username ∧ Accepted env s username password) s
      (handleLogin env conn now s username password).2 := by
  by_cases haccepted : Accepted env s username password
  · rw [handleLogin_accepted conn now haccepted]
    obtain ⟨new, htrace, hnew⟩ := logs_acceptLogin env conn now
      { s with users := (env.userDao.verifyUser s.users username password).2 } username
    exact ⟨new, htrace, fun x hx => ⟨hnew x hx, haccepted⟩⟩
  · obtain ⟨users, text, h⟩ := handleLogin_rejected conn now haccepted
    rw [h]
    exact .of_eq (Server.sends_send _ conn _).trace

theorem logs_handleGetHistory (limit : ℤ) :
    Logs (fun x => x = .historySent conn ∧ s.connected conn = true ∧
      (handleGetHistory env conn s limit).1 = .ok ()) s (handleGetHistory env conn s limit).2 := by
  unfold handleGetHistory sendHistory
  dsimp only
  split
  · dsimp only
    split
    · rename_i hconnected
      exact .record (.of_eq (Server.sends_send _ conn _).trace) ⟨rfl, hconnected, rfl⟩
    · exact .of_eq rfl
  · exact .of_eq rfl

theorem logs_publish (user : User) (sender content : Bytes) :
    Logs (fun x => x = .saved sender user.id content ∨ x = .broadcast sender content) s
      (publish env now s user sender content).2 := by
  have hsaved : Logs (fun x => x = .saved sender user.id content ∨ x = .broadcast sender content) s
      ({ s with messages := (env.messageDao.saveMessage s.messages user.id content).2 }.record
        (.saved sender user.id content)) :=
    .record (.of_eq rfl) (.inl rfl)
  unfold publish
  dsimp only
  split
  · exact (hsaved.trans (Server.sends_broadcastToAll _ _ _).logs).record (.inr rfl)
  · exact hsaved

-- A chat message goes out under a name that is online.
theorem logs_handleChat (sender content : Bytes) :
    Logs (fun x => ((∃ id, x = .saved sender id content) ∨ x = .broadcast sender content) ∧
      isOnline s.sessions sender = true) s (handleChat env now s sender content).2 := by
  rcases handleChat_cases env now s sender content with ⟨users, h⟩ | ⟨honline, users, user, h⟩
  · rw [h]
    exact .of_eq rfl
  · rw [h]
    obtain ⟨new, htrace, hnew⟩ := logs_publish env now { s with users := users } user sender content
    exact ⟨new, htrace, fun x hx => ⟨(hnew x hx).imp_left fun h => ⟨_, h⟩, honline⟩⟩

theorem logs_handleHeartbeat (username : Bytes) :
    Logs (fun x => x = .refreshed username ∧ isOnline s.sessions username = true) s
      (handleHeartbeat now s username).2 := by
  obtain ⟨t, h, hsends⟩ := handleHeartbeat_result now s username
  rw [h]
  refine Logs.trans ?_ hsends.logs
  unfold refresh
  dsimp only
  split
  · rename_i honline
    exact .record (.of_eq rfl) ⟨rfl, honline⟩
  · exact .of_eq rfl

end ChatService

namespace Server

variable {υ μ : Type} (env : Env υ μ)

-- What in the state and the event accounts for an effect of the step.
def Explains (s : Server υ μ) (e : Event) : Effect → Prop
  | .loginAnswered conn u => ∃ password, e.Login env conn u password ∧ Accepted env s u password
  | .saved sender _ content | .broadcast sender content =>
      ∃ conn, e.Asks env conn (.chat content) ∧ sender = s.username conn ∧
        isOnline s.sessions sender = true
  | .refreshed u =>
      ∃ conn, e.Asks env conn .heartbeat ∧ u = s.username conn ∧ isOnline s.sessions u = true
  | .historySent conn =>
      (s.exec env e).1 = .ok () ∧ s.connected conn = true ∧
        ((∃ u password, e.Login env conn u password) ∨
          ∃ limit, e.Asks env conn (.get_history limit))

theorem connected_handleLogin (conn other : ConnId) (now : ℕ) (s : Server υ μ)
    (username password : Bytes) :
    (handleLogin env conn now s username password).2.connected other = s.connected other := by
  by_cases haccepted : Accepted env s username password
  · rw [handleLogin_accepted conn now haccepted]
    unfold acceptLogin
    dsimp only
    split
    · exact (Server.sends_send _ conn _).connected_eq other
    · rfl
  · obtain ⟨users, text, h⟩ := handleLogin_rejected conn now haccepted
    rw [h]
    exact (Server.sends_send _ conn _).connected_eq other

theorem logs_dispatch {s : Server υ μ} {conn : ConnId} {payload : Bytes} {now : ℕ}
    {request : Request} (hdecode : decode env payload = .ok request) :
    Logs (s.Explains env (.message conn payload now)) s (dispatch env conn now s request).2 := by
  have hasks : (Event.message conn payload now).Asks env conn request :=
    ⟨payload, now, rfl, hdecode⟩
  have hexec : s.exec env (.message conn payload now) = dispatch env conn now s request :=
    handleWebSocketMessage_decoded env conn now s hdecode
  cases request with
  | register username password =>
      obtain ⟨users, text, h⟩ := handleRegister_result env conn s username password
      rw [dispatch, h]
      exact .of_eq (Server.sends_send _ conn _).trace
  | login username password =>
      have hlogin : Logs (s.Explains env (.message conn payload now)) s
          (handleLogin env conn now (s.setUsername conn username) username password).2 := by
        refine Logs.mono (logs_handleLogin env conn now (s.setUsername conn username) username
          password) ?_
        rintro x ⟨rfl, haccepted⟩
        exact ⟨password, hasks, haccepted⟩
      have hconnected := connected_handleLogin env conn conn now (s.setUsername conn username)
        username password
      simp only [dispatch] at hexec ⊢
      generalize handleLogin env conn now (s.setUsername conn username) username password = outcome
        at hlogin hconnected hexec ⊢
      obtain ⟨_ | ⟨⟩, t⟩ := outcome
      · exact hlogin
      · refine hlogin.trans ((logs_handleGetHistory env conn t 50).mono ?_)
        rintro x ⟨rfl, h, hok⟩
        exact ⟨by rw [hexec]; exact hok, hconnected.symm.trans h, .inl ⟨username, password, hasks⟩⟩
  | logout =>
      obtain ⟨text, h⟩ := handleLogout_result conn s (s.username conn)
      simp only [dispatch, h, Outcome.andThen_ok]
      exact .of_eq ((Server.quiet_shutdown _ conn).trace.trans (Server.sends_send _ conn _).trace)
  | chat content =>
      refine (logs_handleChat env now s (s.username conn) content).mono ?_
      rintro x ⟨⟨id, rfl⟩ | rfl, honline⟩
      · exact ⟨conn, hasks, rfl, honline⟩
      · exact ⟨conn, hasks, rfl, honline⟩
  | heartbeat =>
      refine (logs_handleHeartbeat now s (s.username conn)).mono ?_
      rintro x ⟨rfl, honline⟩
      exact ⟨conn, hasks, rfl, honline⟩
  | get_history limit =>
      refine (logs_handleGetHistory env conn s limit).mono ?_
      rintro x ⟨rfl, hconnected, hok⟩
      exact ⟨by rw [hexec]; exact hok, hconnected, .inr ⟨limit, hasks⟩⟩
  | unknown msgType => exact .of_eq rfl

theorem logs_message (s : Server υ μ) (conn : ConnId) (payload : Bytes) (now : ℕ) :
    Logs (s.Explains env (.message conn payload now)) s
      (handleWebSocketMessage env conn now s payload).2 := by
  cases h : decode env payload with
  | ok request =>
      rw [handleWebSocketMessage_decoded env conn now s h]
      exact logs_dispatch env h
  | error e =>
      by_cases he : e = .parse_error
      · rw [handleWebSocketMessage_parse_error env conn now s (he ▸ h)]
        exact (s.sends_send conn _).logs
      · rw [handleWebSocketMessage_uncaught env conn now s h he]
        exact .of_eq rfl

theorem trace_onConnection (s : Server υ μ) (conn : ConnId) :
    (onConnection conn s).trace = s.trace := by
  unfold onConnection
  split
  · rfl
  dsimp only
  rw [(Server.quiet_shutdown _ conn).trace]
  unfold onDisconnect
  split
  · split <;> rfl
  · rfl

-- Every effect of a step is accounted for.
theorem logs_exec (s : Server υ μ) (e : Event) : Logs (s.Explains env e) s (s.exec env e).2 := by
  cases e with
  | up conn => exact .of_eq (trace_onConnection _ conn)
  | request conn data => exact (quiet_handleHandshake env conn s data).logs
  | message conn payload now => exact logs_message env s conn payload now
  | closeFrame conn => exact (s.quiet_shutdown conn).logs
  | down conn => exact .of_eq (trace_onConnection _ conn)

-- The effects of one step, also of one that ends in an exception.
def effects (s : Server υ μ) (e : Event) : List Effect :=
  (s.exec env e).2.trace.drop s.trace.length

theorem explains_of_mem_effects {s : Server υ μ} {e : Event} {x : Effect}
    (hx : x ∈ s.effects env e) : s.Explains env e x :=
  (logs_exec env s e).of_mem_drop hx

-- Where the session of an accepted login is entered, the login is answered, or the
-- program ends.
theorem answered_of_accepted {s : Server υ μ} {conn : ConnId} {payload : Bytes} {now : ℕ}
    {u password : Bytes} (hdecode : decode env payload = .ok (.login u password))
    (haccepted : Accepted env s u password)
    (hok : (s.exec env (.message conn payload now)).1 = .ok ()) :
    .loginAnswered conn u ∈ (s.exec env (.message conn payload now)).2.trace := by
  have haccepted' : Accepted env (s.setUsername conn u) u password := haccepted
  simp only [exec, handleWebSocketMessage_decoded env conn now s hdecode, dispatch,
    handleLogin_accepted conn now haccepted'] at hok ⊢
  generalize hlogin : acceptLogin env conn now _ u = outcome at hok ⊢
  obtain ⟨_ | ⟨⟩, t⟩ := outcome
  · cases hok
  · have hlogs := logs_handleGetHistory env conn t 50
    refine hlogs.subset ?_
    have hanswered := answered_acceptLogin env conn now _ (congrArg Prod.fst hlogin)
    rwa [hlogin] at hanswered

end Server

end MyTestserver
