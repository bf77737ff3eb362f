import MyTestserver.AnswerTheorems
import MyTestserver.FrameTheorems

namespace MyTestserver

open WebSocketHandler ChatServer ChatService SessionManager Transition

namespace Server

variable {υ μ : Type} (env : Env υ μ)

section Shutdown

-- The event shuts the connection down: a request that is refused or answered by a file, a
-- logout, a close frame.
def Shuts (conn : ConnId) : MyTestserver.Event → Prop
  | .request other data => other = conn ∧ isWebSocketUpgrade data = false
  | .message other payload _ => other = conn ∧ decode env payload = .ok .logout
  | .closeFrame other => other = conn
  | .up _ | .down _ => False

instance (conn : ConnId) : (e : MyTestserver.Event) → Decidable (Shuts env conn e)
  | .request other data =>
      inferInstanceAs (Decidable (other = conn ∧ isWebSocketUpgrade data = false))
  | .message other payload _ =>
      inferInstanceAs (Decidable (other = conn ∧ decode env payload = .ok .logout))
  | .closeFrame other => inferInstanceAs (Decidable (other = conn))
  | .up _ | .down _ => .isFalse id

-- A session that is there before the event and that the event does not end: a logout ends
-- that of the name the connection acts under, and no shutdown ends another.
def Keeps (s : Server υ μ) (e : MyTestserver.Event) (conn : ConnId) (u : Bytes) : Prop :=
  getConnection s.sessions u = some conn ∧ (e.Asks env conn .logout → s.username conn ≠ u)

variable {env} {conn : ConnId}

theorem state_next (s : Server υ μ) (e : MyTestserver.Event) (conn : ConnId) :
    ((s.next env e).conns conn).state = ((s.exec env e).2.conns conn).state := by
  unfold next
  split
  · rename_i h
    rw [h]
  · rename_i h
    rw [h]

theorem state_shutdown (s : Server υ μ) (conn : ConnId) :
    ((s.shutdown conn).conns conn).state =
      if s.connected conn then .kDisconnecting else (s.conns conn).state := by
  unfold shutdown
  split
  · simp
  · rfl

theorem state_of_shuts {s : Server υ μ} {e : MyTestserver.Event} (h : Shuts env conn e) :
    ((s.next env e).conns conn).state =
      if s.connected conn then .kDisconnecting else (s.conns conn).state := by
  rw [state_next]
  cases e with
  | request other data =>
      obtain ⟨rfl, hdata⟩ := h
      rcases handleHandshake_result env other s data with ⟨_, bufs, _, hresult⟩ | ⟨hup, _⟩
      · have hsends := s.sends_sendAll other bufs
        rw [exec, hresult, state_shutdown, hsends.connected_eq, hsends.state]
      · rw [hdata] at hup
        cases hup
  | message other payload now =>
      obtain ⟨rfl, hdecode⟩ := h
      obtain ⟨text, hresult⟩ := handleLogout_result other s (s.username other)
      simp only [exec, handleWebSocketMessage_decoded env other now s hdecode, dispatch, hresult,
        Outcome.andThen_ok]
      have hsends := Server.sends_send
        { s with sessions := removeSession s.sessions (s.username other) } other (encodeFrame text)
      refine (state_shutdown _ other).trans ?_
      rw [sendResponse, hsends.connected_eq, hsends.state]
      rfl
  | closeFrame other =>
      obtain rfl : other = conn := h
      exact state_shutdown s other
  | up other => cases h
  | down other => cases h

theorem state_of_not_shuts {s : Server υ μ} {e : MyTestserver.Event} (h : ¬Shuts env conn e)
    (hup : e ≠ .up conn) (hdown : e ≠ .down conn) :
    ((s.next env e).conns conn).state = (s.conns conn).state := by
  rw [state_next]
  cases e with
  | request other data =>
      by_cases hother : conn = other
      · subst hother
        rcases handleHandshake_result env conn s data with ⟨hdata, _⟩ | ⟨_, hresult⟩
        · exact absurd ⟨rfl, hdata⟩ h
        · rw [exec, hresult]
          exact (Server.sends_send _ conn _).state conn
      · rw [exec, (handleHandshake_ne env s hother data).1]
  | message other payload now =>
      refine (closed_state conn).handleWebSocketMessage env other now s payload fun hlogout t => ?_
      have hother : conn ≠ other := fun heq => h ⟨heq.symm, hlogout⟩
      rw [conns_shutdown_ne t hother]
  | closeFrame other =>
      have hother : conn ≠ other := fun heq => h heq.symm
      rw [exec, conns_shutdown_ne s hother]
  | up other =>
      have hother : conn ≠ other := fun heq => hup (heq ▸ rfl)
      rw [exec, conns_onConnection, conns_setState_ne s hother]
  | down other =>
      have hother : conn ≠ other := fun heq => hdown (heq ▸ rfl)
      rw [exec, conns_onConnection, conns_setState_ne s hother]

theorem open_of_shuts {s : Server υ μ} {e : MyTestserver.Event} (hguard : s.Guard e)
    (h : Shuts env conn e) : s.Open conn := by
  cases e with
  | request other data => exact h.1 ▸ hguard.1
  | message other payload now => exact h.1 ▸ hguard.1
  | closeFrame other =>
      obtain rfl : other = conn := h
      exact hguard.1
  | up other => cases h
  | down other => cases h

-- What the steps of the server do to the state of one connection.
theorem state_step (conn : ConnId) {s t : Server υ μ} {e : MyTestserver.Event}
    (hstep : Step env s e t) :
    (e = .up conn ∧ (s.conns conn).state = .kConnecting ∧ (t.conns conn).state = .kConnected) ∨
    (e = .down conn ∧ s.Open conn ∧ (t.conns conn).state = .kDisconnected) ∨
    (Shuts env conn e ∧ s.Open conn ∧ (t.conns conn).state = .kDisconnecting) ∨
    (¬Shuts env conn e ∧ (t.conns conn).state = (s.conns conn).state) := by
  obtain ⟨_, hguard, rfl⟩ := hstep
  by_cases hup : e = .up conn
  · subst hup
    refine .inl ⟨rfl, hguard, ?_⟩
    rw [state_next, exec, conns_onConnection]
    simp
  by_cases hdown : e = .down conn
  · subst hdown
    refine .inr (.inl ⟨rfl, hguard, ?_⟩)
    rw [state_next, exec, conns_onConnection]
    simp
  by_cases hshuts : Shuts env conn e
  · have hopen := open_of_shuts hguard hshuts
    refine .inr (.inr (.inl ⟨hshuts, hopen, ?_⟩))
    rw [state_of_shuts hshuts]
    rcases hopen with hconn | hconn
    · simp [connected, hconn]
    · simp [connected, hconn]
  · exact .inr (.inr (.inr ⟨hshuts, state_of_not_shuts hshuts hup hdown⟩))

theorem disconnected_run {s t : Server υ μ} {es : List MyTestserver.Event}
    (h : Path (Step env) s es t) (hs : (s.conns conn).state = .kDisconnected) :
    (t.conns conn).state = .kDisconnected := by
  refine h.invariant (fun s => (s.conns conn).state = .kDisconnected) (fun s e t hs hstep => ?_) hs
  rcases state_step conn hstep with ⟨_, hold, _⟩ | ⟨_, hopen, _⟩ | ⟨_, hopen, _⟩ |
    ⟨_, hsame⟩
  · rw [hs] at hold
    cases hold
  · simp [Open, hs] at hopen
  · simp [Open, hs] at hopen
  · rw [hsame, hs]

-- An open connection is connected exactly as long as nothing has shut it down.
theorem connected_iff_of_path {s t : Server υ μ} {es : List MyTestserver.Event}
    (h : Path (Step env) s es t) (hopen : t.Open conn) :
    t.connected conn = true ↔
      ((s.conns conn).state = .kConnecting ∨ (s.conns conn).state = .kConnected) ∧
        ∀ e ∈ es, ¬Shuts env conn e := by
  induction h with
  | nil s =>
      rcases hopen with hconn | hconn
      · simp [connected, hconn]
      · simp [connected, hconn]
  | @cons s s' t e es hstep hrest ih =>
      rw [ih hopen, List.forall_mem_cons]
      rcases state_step conn hstep with ⟨rfl, hold, hnew⟩ | ⟨rfl, _, hnew⟩ |
        ⟨hshuts, _, hnew⟩ | ⟨hshuts, hsame⟩
      · simp [hold, hnew, Shuts]
      · have hgone := disconnected_run hrest hnew
        simp [Open, hgone] at hopen
      · simp [hnew, hshuts]
      · simp [hsame, hshuts]

end Shutdown

section Logins

variable {env} {conn : ConnId}

-- A session is entered by an accepted login, and only so.
theorem login_of_owner {s t : Server υ μ} {e : MyTestserver.Event} {u : Bytes}
    (hempty : s.registry.holder [] = none) (hstep : Step env s e t)
    (hnew : getConnection t.sessions u = some conn)
    (hold : getConnection s.sessions u ≠ some conn) :
    ∃ password, e.Login env conn u password ∧ Accepted env s u password := by
  obtain ⟨_, hguard, rfl⟩ := hstep
  have hnew : (s.next env e).registry.holder u = some conn := hnew
  rw [registry_next env hempty hguard] at hnew
  rcases holder_actions env hnew with hsame | haccepted
  · exact absurd hsame hold
  · exact haccepted

-- Shutting a connection down takes away no more than a logout does.
theorem owner_of_shuts {s t : Server υ μ} {e : MyTestserver.Event} {u : Bytes}
    (hempty : s.registry.holder [] = none) (hstep : Step env s e t) (hshuts : Shuts env conn e) :
    getConnection t.sessions u = some conn ↔ s.Keeps env e conn u := by
  obtain ⟨_, hguard, rfl⟩ := hstep
  change (s.next env e).registry.holder u = some conn ↔
    s.registry.holder u = some conn ∧ (e.Asks env conn .logout → s.username conn ≠ u)
  rw [registry_next env hempty hguard]
  cases e with
  | request other data => exact (and_iff_left (by rintro ⟨_, _, h, _⟩; cases h)).symm
  | closeFrame other => exact (and_iff_left (by rintro ⟨_, _, h, _⟩; cases h)).symm
  | message other payload now =>
      obtain ⟨rfl, hdecode⟩ := hshuts
      have hasks : (MyTestserver.Event.message other payload now).Asks env other .logout :=
        ⟨payload, now, rfl, hdecode⟩
      simp only [actions, hdecode, requestActions, List.foldl_cons, List.foldl_nil, Registry.apply,
        Registry.holder_drop_iff]
      rw [Ne, claim_eq_some_iff, and_comm]
      refine and_congr_right fun hheld => ?_
      have hname : u ≠ [] := by
        rintro rfl
        rw [hempty] at hheld
        cases hheld
      exact ⟨fun h _ heq => h ⟨heq, hname⟩, fun h heq => h hasks heq.1⟩
  | up other => cases hshuts
  | down other => cases hshuts

-- On a connection that is connected the response to an accepted login is taken, before
-- anything else.
theorem login_answer {s : Server υ μ} {payload : Bytes} {now : ℕ} {u password : Bytes}
    (hdecode : decode env payload = .ok (.login u password))
    (haccepted : Accepted env s u password) (hconn : s.connected conn = true) {text : Bytes}
    (hdump : (loginResponse (getOnlineUsers (addSession s.sessions u conn now))).dump = .ok text) :
    (s.conns conn).sent ++ [encodeFrame text] <+:
      ((s.next env (.message conn payload now)).conns conn).sent := by
  have haccepted' : Accepted env (s.setUsername conn u) u password := haccepted
  let added := { s.setUsername conn u with
    users := (env.userDao.getUserByUsername
      (env.userDao.verifyUser s.users u password).2 u).2
    sessions := addSession s.sessions u conn now }
  have hlogin : handleLogin env conn now (s.setUsername conn u) u password =
      (.ok (), (added.sendResponse conn text).record (.loginAnswered conn u)) := by
    rw [handleLogin_accepted conn now haccepted']
    exact acceptLogin_of_dump env conn now _ hdump
  have hsent : (((added.sendResponse conn text).record (.loginAnswered conn u)).conns conn).sent =
      (s.conns conn).sent ++ [encodeFrame text] := added.sent_send conn hconn _
  obtain ⟨more, hmore, _⟩ := ((closed_sent conn (fun _ => True) fun _ => trivial).by
    conn).handleGetHistory env ((added.sendResponse conn text).record (.loginAnswered conn u)) 50
  have hexec : ((s.exec env (.message conn payload now)).2.conns conn).sent =
      (s.conns conn).sent ++ [encodeFrame text] ++ more := by
    rw [exec, handleWebSocketMessage_decoded env conn now s hdecode, dispatch, hlogin,
      Outcome.andThen_ok, hmore, hsent]
  refine ⟨more, hexec.symm.trans ?_⟩
  unfold next
  split
  · rename_i h
    rw [h]
  · rename_i h
    rw [h]

end Logins

end Server

namespace Wire

variable {υ μ : Type} (env : Env υ μ)

section Sessions

-- In the step handleLogin comes to its addSession. What it has done by then leaves the
-- connections as they are.
def AddsSession (w : Wire υ μ) (e : Event) (conn : ConnId) (u : Bytes) (now : ℕ) : Prop :=
  ∃ payload password, .message conn payload now ∈ w.events e ∧
    decode env payload = .ok (.login u password) ∧ Accepted env w.server u password

-- The server has shut the connection down in the run.
def ShutDown (start : Wire υ μ) (es : List Event) (conn : ConnId) : Prop :=
  ∃ x ∈ start.history env es, Server.Shuts env conn x

-- Nobody is online on a connection that the server has shut down.
def Online (start : Wire υ μ) (es : List Event) : Prop :=
  ∀ conn u, getConnection (play (next env) start es).server.sessions u = some conn →
    ((play (next env) start es).server.conns conn).state ≠ .kDisconnecting ∧
      ¬ShutDown env start es conn

-- After the events of the run one more: who gets a session by it can be answered, and is, and
-- whoever has one then is on a connection that is not shut down.
structure Answerable (start : Wire υ μ) (es : List Event) (e : Event) : Prop where
  connected : ∀ conn u now, (play (next env) start es).AddsSession env e conn u now →
    (play (next env) start es).server.connected conn = true
  answered : ∀ conn u now text, (play (next env) start es).AddsSession env e conn u now →
    (loginResponse (getOnlineUsers
      (addSession (play (next env) start es).server.sessions u conn now))).dump = .ok text →
    ((play (next env) start es).server.conns conn).sent ++ [encodeFrame text] <+:
      ((play (next env) start (es ++ [e])).server.conns conn).sent
  online : Online env start (es ++ [e])

-- No login is accepted on a connection that was shut down before, and nothing shuts down a
-- connection while it has a session that stays.
structure Orderly (start : Wire υ μ) (es : List Event) (e : Event) : Prop where
  login : ∀ conn u now, (play (next env) start es).AddsSession env e conn u now →
    ¬ShutDown env start es conn
  shutdown : ∀ conn u, ∀ x ∈ (play (next env) start es).events e, Server.Shuts env conn x →
    ¬(play (next env) start es).server.Keeps env x conn u

variable {env} {users : υ} {messages : μ} {es : List Event} {e : Event} {w w' : Wire υ μ}
  {x : MyTestserver.Event} {conn : ConnId} {u : Bytes} {now : ℕ}

theorem events_eq_of_mem (hx : x ∈ w.events e) : w.events e = [x] := by
  have hlength : (w.events e).length ≤ 1 := by
    cases e with
    | serve conn now uninit =>
        unfold events
        dsimp only
        repeat' split
        all_goals simp
    | _ => simp [events]
  have hpos := List.length_pos_of_mem hx
  obtain ⟨y, hy⟩ := List.length_eq_one_iff.mp (Nat.le_antisymm hlength hpos)
  rw [hy, List.mem_singleton] at hx
  rw [hy, hx]

theorem server_step (hstep : Step env w e w') (hx : x ∈ w.events e) :
    Server.Step env w.server x (w.server.next env x) ∧ w'.Shows (w.server.next env x) := by
  obtain ⟨t, hpath, hshows⟩ := step_path env (.inl rfl) hstep
  rw [events_eq_of_mem hx] at hpath
  obtain _ | ⟨hfirst, hrest⟩ := hpath
  cases hrest
  obtain ⟨hrunning, hguard, rfl⟩ := hfirst
  exact ⟨⟨hrunning, hguard, rfl⟩, hshows⟩

-- Who is new among the owners is so by a login of the step.
theorem addsSession_of_owner (hempty : w.server.registry.holder [] = none)
    (hstep : Step env w e w') (hnew : getConnection w'.server.sessions u = some conn)
    (hold : getConnection w.server.sessions u ≠ some conn) :
    ∃ now, w.AddsSession env e conn u now := by
  cases hevents : w.events e with
  | nil =>
      obtain ⟨t, hpath, hshows⟩ := step_path env (.inl rfl) hstep
      rw [hevents] at hpath
      cases hpath
      rw [hshows.sessions] at hnew
      exact absurd hnew hold
  | cons x xs =>
      have hmem : x ∈ w.events e := by simp [hevents]
      obtain ⟨hserver, hshows⟩ := server_step hstep hmem
      rw [hshows.sessions] at hnew
      obtain ⟨password, ⟨payload, now, rfl, hdecode⟩, haccepted⟩ :=
        Server.login_of_owner hempty hserver hnew hold
      exact ⟨now, payload, password, hmem, hdecode, haccepted⟩

theorem shutDown_append {start : Wire υ μ} :
    ShutDown env start (es ++ [e]) conn ↔ ShutDown env start es conn ∨
      ∃ x ∈ (play (next env) start es).events e, Server.Shuts env conn x := by
  unfold ShutDown history
  rw [gather_append]
  simp [gather, or_and_right, exists_or]

-- A connection that is still open is connected as long as the server has not shut it down.
theorem connected_iff (hrun : Path (Step env) (start users messages) es w)
    (hopen : w.server.Open conn) :
    w.server.connected conn = true ↔ ¬ShutDown env (start users messages) es conn := by
  obtain ⟨s, hserver, hshows⟩ := path_history env hrun (.inl rfl)
  have hopen' : s.Open conn := by rwa [Server.Open, ← hshows.conns]
  have hconn : w.server.connected conn = s.connected conn := by
    rw [Server.connected, hshows.conns, Server.connected]
  rw [hconn, Server.connected_iff_of_path hserver hopen', and_iff_right (.inl rfl)]
  simp [ShutDown]

theorem holder_empty_run (hrun : Path (Step env) (start users messages) es w) :
    w.server.registry.holder [] = none := by
  obtain ⟨s, hserver, hshows⟩ := path_history env hrun (.inl rfl)
  have hempty := Server.holder_empty (Server.named_run env hserver)
  change getConnection w.server.sessions [] = none
  rw [hshows.sessions]
  exact hempty

-- One step: with the login's half of the condition, nobody is left online on a connection
-- that is shut down exactly when the other half holds too.
theorem online_step (hrun : Path (Step env) (start users messages) (es ++ [e]) w)
    (honline : Online env (start users messages) es)
    (hlogin : ∀ conn u now,
      (play (next env) (start users messages) es).AddsSession env e conn u now →
        ¬ShutDown env (start users messages) es conn) :
    Online env (start users messages) (es ++ [e]) ↔
      ∀ conn u, ∀ x ∈ (play (next env) (start users messages) es).events e,
        Server.Shuts env conn x →
          ¬(play (next env) (start users messages) es).server.Keeps env x conn u := by
  obtain ⟨hfirst, hstep⟩ := hrun.of_snoc fun _ _ _ hstep => hstep.2.2
  have hempty := holder_empty_run hfirst
  constructor
  · intro h conn u x hx hshuts hkeeps
    obtain ⟨hserver, hshows⟩ := server_step hstep hx
    refine (h conn u ?_).2 (shutDown_append.mpr (.inr ⟨x, hx, hshuts⟩))
    rw [hshows.sessions]
    exact (Server.owner_of_shuts hempty hserver hshuts).mpr hkeeps
  · intro h conn u howner
    have hnot : ¬ShutDown env (start users messages) (es ++ [e]) conn := by
      rw [shutDown_append]
      rintro (hbefore | ⟨x, hx, hshuts⟩)
      · by_cases hold : getConnection
            (play (next env) (start users messages) es).server.sessions u = some conn
        · exact (honline conn u hold).2 hbefore
        · obtain ⟨now, hadds⟩ := addsSession_of_owner hempty hstep howner hold
          exact hlogin conn u now hadds hbefore
      · obtain ⟨hserver, hshows⟩ := server_step hstep hx
        rw [hshows.sessions] at howner
        exact h conn u x hx hshuts ((Server.owner_of_shuts hempty hserver hshuts).mp howner)
    refine ⟨fun hstate => ?_, hnot⟩
    have hconn := (connected_iff (hfirst.snoc hstep) (.inr hstate)).mpr hnot
    simp [Server.connected, hstate] at hconn

theorem online_start (users : υ) (messages : μ) : Online env (start users messages) [] := by
  intro conn u h
  cases h

theorem connected_of_addsSession (hrun : Path (Step env) (start users messages) (es ++ [e]) w)
    (hadds : (play (next env) (start users messages) es).AddsSession env e conn u now) :
    (play (next env) (start users messages) es).server.connected conn = true ↔
      ¬ShutDown env (start users messages) es conn := by
  obtain ⟨hfirst, hstep⟩ := hrun.of_snoc fun _ _ _ hstep => hstep.2.2
  obtain ⟨payload, password, hmem, _⟩ := hadds
  exact connected_iff hfirst (server_step hstep hmem).1.2.1.1

theorem answerable_of_orderly (hrun : Path (Step env) (start users messages) (es ++ [e]) w)
    (honline : Online env (start users messages) es)
    (horderly : Orderly env (start users messages) es e) :
    Answerable env (start users messages) es e := by
  refine ⟨fun conn u now hadds => ?_, fun conn u now text hadds hdump => ?_, ?_⟩
  · exact (connected_of_addsSession hrun hadds).mpr (horderly.login conn u now hadds)
  · have hready := (connected_of_addsSession hrun hadds).mpr (horderly.login conn u now hadds)
    obtain ⟨_, hstep⟩ := hrun.of_snoc fun _ _ _ hstep => hstep.2.2
    obtain ⟨payload, password, hmem, hdecode, haccepted⟩ := hadds
    rw [(server_step hstep hmem).2.conns]
    exact Server.login_answer hdecode haccepted hready hdump
  · exact (online_step hrun honline horderly.login).mpr horderly.shutdown

theorem orderly_of_answerable (hrun : Path (Step env) (start users messages) (es ++ [e]) w)
    (honline : Online env (start users messages) es)
    (hanswerable : Answerable env (start users messages) es e) :
    Orderly env (start users messages) es e := by
  have hlogin : ∀ conn u now,
      (play (next env) (start users messages) es).AddsSession env e conn u now →
        ¬ShutDown env (start users messages) es conn := fun conn u now hadds =>
    (connected_of_addsSession hrun hadds).mp (hanswerable.connected conn u now hadds)
  exact ⟨hlogin, (online_step hrun honline hlogin).mp hanswerable.online⟩

-- Before any event of a run nobody is online on a connection that is shut down.
theorem online_of_answerable {start : Wire υ μ} {es₁ es₂ : List Event}
    (honline : Online env start [])
    (h : ∀ es₁ e es₂, es = es₁ ++ e :: es₂ → Answerable env start es₁ e)
    (hes : es = es₁ ++ es₂) : Online env start es₁ := by
  rcases List.eq_nil_or_concat es₁ with rfl | ⟨es₀, e, rfl⟩
  · exact honline
  · rw [List.concat_eq_append] at hes ⊢
    exact (h es₀ e es₂ (by rw [hes, List.append_assoc, List.singleton_append])).online

-- In a run every session can be answered, and nobody is online on a connection that is shut
-- down, exactly when the logins and the shutdowns come in order.
theorem sessions_answerable_iff {users : υ} {messages : μ} {es : List Event} {w : Wire υ μ}
    (hrun : Path (Step env) (start users messages) es w) :
    (∀ es₁ e es₂, es = es₁ ++ e :: es₂ → Answerable env (start users messages) es₁ e) ↔
    ∀ es₁ e es₂, es = es₁ ++ e :: es₂ → Orderly env (start users messages) es₁ e := by
  have hupTo : ∀ {es₁ e es₂}, es = es₁ ++ e :: es₂ →
      ∃ w₁, Path (Step env) (start users messages) (es₁ ++ [e]) w₁ := by
    rintro es₁ e es₂ rfl
    rw [← List.singleton_append, ← List.append_assoc] at hrun
    obtain ⟨w₁, hfirst, _⟩ := hrun.of_append
    exact ⟨w₁, hfirst⟩
  constructor
  · intro h es₁ e es₂ hes
    obtain ⟨w₁, hfirst⟩ := hupTo hes
    have honline := online_of_answerable (online_start users messages) h hes
    exact orderly_of_answerable hfirst honline (h es₁ e es₂ hes)
  · intro h
    -- By induction on the events before the step: each is answered, so nobody is online on a
    -- connection that is shut down when the next one comes.
    have hall : ∀ es₁ es₂, es = es₁ ++ es₂ → Online env (start users messages) es₁ := by
      intro es₁
      induction es₁ using List.reverseRecOn with
      | nil => exact fun _ _ => online_start users messages
      | append_singleton es₁ e ih =>
          intro es₂ hes
          rw [List.append_assoc, List.singleton_append] at hes
          obtain ⟨w₁, hfirst⟩ := hupTo hes
          exact (answerable_of_orderly hfirst (ih _ hes) (h es₁ e es₂ hes)).online
    intro es₁ e es₂ hes
    obtain ⟨w₁, hfirst⟩ := hupTo hes
    exact answerable_of_orderly hfirst (hall es₁ _ hes) (h es₁ e es₂ hes)

end Sessions

section Sample

def sampleBytes (j : Json) (h : j.render.length < 126) : Bytes :=
  ClientFrame.encode ⟨true, .text, .short, fun _ => 7, j.render, h⟩

def sampleServe : Event := .serve 0 1700000000 fun _ => 0

def upgrades : List Event := [.up 0, .receive 0 sampleRequest, sampleServe]

def sampleLogin : Bytes := sampleBytes (loginJson "alice" "wonder") (by decide)

def logsIn : List Event := upgrades ++ [.receive 0 sampleLogin, sampleServe]

theorem history_logsIn : (start sampleUsers []).history sampleEnv logsIn =
    [.up 0, .request 0 sampleRequest, tells 0 (loginJson "alice" "wonder")] := by
  decide +kernel

theorem sessions_answerable_logsIn :
    (∀ es₁ e es₂, logsIn = es₁ ++ e :: es₂ →
      Answerable sampleEnv (start sampleUsers []) es₁ e) ∧
    getConnection (play (next sampleEnv) (start sampleUsers []) logsIn).server.sessions
      (ascii "alice") = some 0 := by
  refine ⟨?_, by decide +kernel⟩
  have hrun : Path (Step sampleEnv) (start sampleUsers []) logsIn
      (play (next sampleEnv) (start sampleUsers []) logsIn) :=
    path_of_plays sampleEnv (by decide +kernel)
  have hshuts : ∀ conn, ∀ x ∈ (start sampleUsers []).history sampleEnv logsIn,
      ¬Server.Shuts sampleEnv conn x := by
    intro conn x hx
    rw [history_logsIn] at hx
    simp only [List.mem_cons, List.not_mem_nil, or_false] at hx
    rcases hx with rfl | rfl | rfl
    · exact id
    · rintro ⟨_, hrefused⟩
      exact absurd hrefused (by decide +kernel)
    · rintro ⟨_, hlogout⟩
      exact absurd hlogout (by decide +kernel)
  refine (sessions_answerable_iff hrun).mpr fun es₁ e es₂ hes => ?_
  rw [hes, history, gather_append, gather] at hshuts
  constructor
  · rintro conn u now _ ⟨x, hx, hshut⟩
    exact hshuts conn x (List.mem_append_left _ hx) hshut
  · intro conn u x hx hshut
    exact absurd hshut (hshuts conn x (List.mem_append_right _ (List.mem_append_left _ hx)))

-- A logout, and in the same segment a login: handleLogin enters a session of a connection
-- that the logout has shut down, and nothing answers it.
def logsInAfterLogout : List Event :=
  upgrades ++ [.receive 0 (sampleBytes logoutJson (by decide) ++ sampleLogin), sampleServe]

theorem session_unanswerable : ¬∀ es w,
    Path (Step sampleEnv) (start sampleUsers []) es w → ∀ es₁ e es₂, es = es₁ ++ e :: es₂ →
      Answerable sampleEnv (start sampleUsers []) es₁ e := by
  intro h
  have hanswer := h (logsInAfterLogout ++ [sampleServe]) _
    (path_of_plays sampleEnv (by decide +kernel)) logsInAfterLogout sampleServe [] rfl
  have hconn := hanswer.connected 0 (ascii "alice") 1700000000
    ⟨(loginJson "alice" "wonder").render, ascii "wonder", by decide +kernel, by decide +kernel,
      by decide +kernel⟩
  exact absurd hconn (by decide +kernel)

-- A login, and then a close frame: the session stays on the connection that is shut down.
def closesAfterLogin : List Event :=
  logsIn ++ [.receive 0 sampleClose.encode, sampleServe]

example :
    let s := (play (next sampleEnv) (start sampleUsers []) closesAfterLogin).server
    getConnection s.sessions (ascii "alice") = some 0 ∧
      (s.conns 0).state = .kDisconnecting := by
  decide +kernel

end Sample

end Wire

end MyTestserver
