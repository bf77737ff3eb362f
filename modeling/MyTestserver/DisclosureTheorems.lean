import MyTestserver.PayloadTheorems

namespace MyTestserver

open SessionManager ChatService ChatServer Transition

namespace Server

variable {υ μ : Type}

section Agree

-- Two servers that may differ in the messages table, and in what they sent to connections
-- that have logged in, and in nothing else that a connection can find out.
structure Agree (s a : Server υ μ) : Prop where
  connectionStates : s.connectionStates = a.connectionStates
  sessions : s.sessions = a.sessions
  users : s.users = a.users
  state : ∀ conn, (s.conns conn).state = (a.conns conn).state
  answered : ∀ conn u, .loginAnswered conn u ∈ s.trace ↔ .loginAnswered conn u ∈ a.trace
  sent : ∀ conn, (∀ u, .loginAnswered conn u ∉ s.trace) → (s.conns conn).sent = (a.conns conn).sent

variable {s a : Server υ μ} (conn : ConnId)

theorem Agree.connected_eq (h : Agree s a) : s.connected = a.connected := by
  funext conn
  simp [connected, h.state conn]

theorem Agree.username_eq (h : Agree s a) : s.username conn = a.username conn := by
  simp [username, h.connectionStates]

theorem Agree.isOnline_eq (h : Agree s a) (u : Bytes) :
    isOnline s.sessions u = isOnline a.sessions u := by
  rw [h.sessions]

theorem Agree.setUsers (h : Agree s a) {users users' : υ} (husers : users = users') :
    Agree { s with users := users } { a with users := users' } :=
  ⟨h.connectionStates, h.sessions, husers, h.state, h.answered, h.sent⟩

theorem Agree.setMessages (h : Agree s a) (messages messages' : μ) :
    Agree { s with messages := messages } { a with messages := messages' } :=
  ⟨h.connectionStates, h.sessions, h.users, h.state, h.answered, h.sent⟩

theorem Agree.setSessions (h : Agree s a) {sessions sessions' : Sessions}
    (hsessions : sessions = sessions') :
    Agree { s with sessions := sessions } { a with sessions := sessions' } :=
  ⟨h.connectionStates, hsessions, h.users, h.state, h.answered, h.sent⟩

theorem Agree.setConnectionState (h : Agree s a) {state state' : ConnectionState}
    (hstate : state = state') :
    Agree (s.setConnectionState conn state) (a.setConnectionState conn state') := by
  refine ⟨?_, h.sessions, h.users, h.state, h.answered, h.sent⟩
  simp [Server.setConnectionState, h.connectionStates, hstate]

theorem Agree.setUsername (h : Agree s a) (name : Bytes) :
    Agree (s.setUsername conn name) (a.setUsername conn name) :=
  h.setConnectionState conn (by rw [h.connectionStates])

theorem Agree.record (h : Agree s a) (x : Effect) : Agree (s.record x) (a.record x) := by
  refine ⟨h.connectionStates, h.sessions, h.users, h.state, fun c u => ?_, fun c hc => h.sent c ?_⟩
  · simp [Server.record, h.answered c u]
  · exact fun u hu => hc u (List.mem_append_left _ hu)

theorem Agree.setState (h : Agree s a) (state : StateE) :
    Agree (s.setState conn state) (a.setState conn state) := by
  refine ⟨h.connectionStates, h.sessions, h.users, fun c => ?_, h.answered, fun c hc => ?_⟩
  · simp [h.state c]
  · have hsent := h.sent c hc
    by_cases hconn : c = conn
    · subst hconn
      simpa [Server.setState] using hsent
    · simpa [Server.setState, hconn] using hsent

-- Sending the same to both.
theorem Agree.send (h : Agree s a) (buf : Bytes) : Agree (s.send conn buf) (a.send conn buf) := by
  have hs := s.sends_send conn buf
  have ha := a.sends_send conn buf
  refine ⟨?_, ?_, ?_, fun c => ?_, fun c u => ?_, fun c hc => ?_⟩
  · rw [hs.connectionStates, ha.connectionStates, h.connectionStates]
  · rw [hs.sessions, ha.sessions, h.sessions]
  · rw [hs.users, ha.users, h.users]
  · rw [hs.state, ha.state, h.state]
  · rw [hs.trace, ha.trace, h.answered]
  · rw [hs.trace] at hc
    have hsent := h.sent c hc
    unfold Server.send
    rw [h.connected_eq]
    split
    · by_cases hconn : c = conn
      · subst hconn
        simpa using hsent
      · simpa [hconn] using hsent
    · exact hsent

theorem Agree.symm (h : Agree s a) : Agree a s := by
  refine ⟨h.connectionStates.symm, h.sessions.symm, h.users.symm, fun c => (h.state c).symm,
    fun c u => (h.answered c u).symm, fun c hc => (h.sent c fun u hu => ?_).symm⟩
  exact hc u ((h.answered c u).mp hu)

-- Sending anything to a connection that has logged in.
theorem Agree.send_left (h : Agree s a) {u : Bytes} (hanswered : .loginAnswered conn u ∈ s.trace)
    (buf : Bytes) : Agree (s.send conn buf) a := by
  have hs := s.sends_send conn buf
  refine ⟨?_, ?_, ?_, fun c => ?_, fun c u => ?_, fun c hc => ?_⟩
  · rw [hs.connectionStates, h.connectionStates]
  · rw [hs.sessions, h.sessions]
  · rw [hs.users, h.users]
  · rw [hs.state, h.state]
  · rw [hs.trace, h.answered]
  · rw [hs.trace] at hc
    have hne : c ≠ conn := by
      rintro rfl
      exact hc u hanswered
    rw [sent_send_ne s conn buf hne]
    exact h.sent c hc

theorem Agree.record_left (h : Agree s a) {x : Effect} (hx : ∀ c u, x ≠ .loginAnswered c u) :
    Agree (s.record x) a := by
  refine ⟨h.connectionStates, h.sessions, h.users, h.state, fun c u => ?_, fun c hc => h.sent c ?_⟩
  · have hne := (hx c u).symm
    simp [Server.record, h.answered c u, hne]
  · exact fun u hu => hc u (List.mem_append_left _ hu)

theorem Agree.shutdown (h : Agree s a) : Agree (s.shutdown conn) (a.shutdown conn) := by
  unfold Server.shutdown
  rw [h.connected_eq]
  split
  · exact h.setState conn .kDisconnecting
  · exact h

-- Two results that are the same to a connection that has not logged in.
def SameResult (r r' : Outcome (Server υ μ)) : Prop := r.1 = r'.1 ∧ Agree r.2 r'.2

theorem SameResult.andThen {r r' : Outcome (Server υ μ)} {f : Server υ μ → Outcome (Server υ μ)}
    (h : SameResult r r')
    (hf : ∀ t b, r = (.ok (), t) → Agree t b → Agree (f t).2 (f b).2) :
    Agree (r.andThen f).2 (r'.andThen f).2 := by
  obtain ⟨result, t⟩ := r
  obtain ⟨result', b⟩ := r'
  obtain ⟨hresult, hagree⟩ := h
  obtain rfl : result = result' := hresult
  cases result with
  | ok _ => exact hf t b rfl hagree
  | error e => exact hagree

theorem Agree.respond (h : Agree s a) (json : Except Exception Bytes) :
    SameResult (s.respond conn json) (a.respond conn json) := by
  cases json with
  | ok text => exact ⟨rfl, h.send conn _⟩
  | error e => exact ⟨rfl, h⟩

theorem Agree.broadcastToAll (h : Agree s a) (message excludeUsername : Bytes) :
    Agree (s.broadcastToAll message excludeUsername)
      (a.broadcastToAll message excludeUsername) := by
  unfold Server.broadcastToAll
  rw [h.sessions, h.connected_eq]
  generalize receivers a.sessions a.connected excludeUsername = conns
  induction conns generalizing s a with
  | nil => exact h
  | cons conn conns ih => exact ih (h.send conn message)

end Agree

end Server

namespace ChatService

open Server

variable {υ μ : Type} (env : Env υ μ) (conn : ConnId) (now : ℕ) {s a : Server υ μ}

theorem same_handleRegister (h : Agree s a) (username password : Bytes) :
    SameResult (handleRegister env conn s username password)
      (handleRegister env conn a username password) := by
  unfold handleRegister
  rw [h.users]
  split
  · exact h.respond conn _
  rcases env.userDao.userExists a.users username with ⟨_ | _, users⟩
  · rcases hinsert : env.userDao.insertUser users username password with ⟨_ | _, users'⟩
    · simp only [hinsert]
      exact (h.setUsers rfl).respond conn _
    · simp only [hinsert]
      exact (h.setUsers rfl).respond conn _
  · exact (h.setUsers rfl).respond conn _

theorem same_acceptLogin (h : Agree s a) (username : Bytes) :
    SameResult (acceptLogin env conn now s username) (acceptLogin env conn now a username) := by
  have hadded := (h.setUsers (congrArg (fun users =>
    (env.userDao.getUserByUsername users username).2) h.users)).setSessions
    (congrArg (fun sessions => addSession sessions username conn now) h.sessions)
  unfold acceptLogin
  dsimp only
  rw [h.sessions]
  rw [h.sessions] at hadded
  split
  · exact ⟨rfl, (hadded.send conn _).record _⟩
  · exact ⟨rfl, hadded⟩

theorem same_handleLogin (h : Agree s a) (username password : Bytes) :
    SameResult (handleLogin env conn now s username password)
      (handleLogin env conn now a username password) := by
  unfold handleLogin
  rw [h.users, h.isOnline_eq]
  split
  · exact h.respond conn _
  rcases env.userDao.verifyUser a.users username password with ⟨_ | _, users⟩
  · exact (h.setUsers rfl).respond conn _
  · dsimp only
    split
    · exact (h.setUsers rfl).respond conn _
    · exact same_acceptLogin env conn now (h.setUsers rfl) username

theorem same_handleLogout (h : Agree s a) (username : Bytes) :
    SameResult (handleLogout conn s username) (handleLogout conn a username) := by
  have hremoved := h.setSessions (congrArg (fun sessions => removeSession sessions username)
    h.sessions)
  unfold handleLogout
  rw [Json.dump_ok logoutResponse_utf8]
  exact ⟨rfl, (hremoved.send conn _).shutdown conn⟩

theorem same_handleChat (h : Agree s a) (sender content : Bytes) :
    SameResult (handleChat env now s sender content) (handleChat env now a sender content) := by
  unfold handleChat
  rw [h.isOnline_eq, h.users]
  split
  · exact ⟨rfl, h⟩
  rcases env.userDao.getUserByUsername a.users sender with ⟨_ | user, users⟩
  · exact ⟨rfl, h.setUsers rfl⟩
  · have hsaved := ((h.setUsers (rfl : users = users)).setMessages
      (env.messageDao.saveMessage s.messages user.id content).2
      (env.messageDao.saveMessage a.messages user.id content).2).record
        (.saved sender user.id content)
    unfold publish
    dsimp only
    split
    · exact ⟨rfl, (hsaved.broadcastToAll _ _).record _⟩
    · exact ⟨rfl, hsaved⟩

theorem same_handleHeartbeat (h : Agree s a) (username : Bytes) :
    SameResult (handleHeartbeat now s username) (handleHeartbeat now a username) := by
  have hrefresh : Agree (refresh now s username) (refresh now a username) := by
    have hupdated := h.setSessions (congrArg (fun sessions => updateHeartbeat sessions username now)
      h.sessions)
    unfold refresh
    rw [h.isOnline_eq]
    split
    · exact hupdated.record _
    · exact hupdated
  unfold handleHeartbeat
  dsimp only
  rw [hrefresh.sessions, hrefresh.connected_eq]
  split
  · split
    · exact hrefresh.respond _ _
    · exact ⟨rfl, hrefresh⟩
  · exact ⟨rfl, hrefresh⟩

-- The history goes to a connection that has logged in, if it goes out at all.
theorem agree_sendHistory (h : Agree s a) (text : Bytes)
    (hanswered : s.connected conn = true → ∃ u, .loginAnswered conn u ∈ s.trace) :
    Agree (sendHistory conn s text) a := by
  unfold sendHistory
  split
  · rename_i hconnected
    obtain ⟨u, hu⟩ := hanswered hconnected
    exact (h.send_left conn hu _).record_left (by simp)
  · exact h

theorem agree_history_left (h : Agree s a) (limit : ℤ)
    (hanswered : s.connected conn = true → ∃ u, .loginAnswered conn u ∈ s.trace) :
    Agree (handleGetHistory env conn s limit).2 a := by
  have hread :
      Agree { s with messages := (env.messageDao.getRecentMessages s.messages limit).2 } a :=
    h.setMessages _ a.messages
  unfold handleGetHistory
  dsimp only
  split
  · exact agree_sendHistory conn hread _ hanswered
  · exact hread

theorem agree_handleGetHistory (h : Agree s a) (limit : ℤ)
    (hanswered : s.connected conn = true → ∃ u, .loginAnswered conn u ∈ s.trace) :
    Agree (handleGetHistory env conn s limit).2 (handleGetHistory env conn a limit).2 := by
  refine (agree_history_left env conn (agree_history_left env conn h limit hanswered).symm limit
    fun hconnected => ?_).symm
  rw [← h.connected_eq] at hconnected
  obtain ⟨u, hu⟩ := hanswered hconnected
  exact ⟨u, (h.answered conn u).mp hu⟩

theorem agree_onDisconnect (h : Agree s a) (username : Bytes) :
    Agree (onDisconnect s username) (onDisconnect a username) := by
  unfold onDisconnect
  rw [h.isOnline_eq]
  split
  · exact h.setSessions (by rw [h.sessions])
  · exact h

end ChatService

namespace ChatServer

open Server

variable {υ μ : Type} (env : Env υ μ) (conn : ConnId) (now : ℕ) {s a : Server υ μ}

theorem agree_serveFile (h : Agree s a) (path : Bytes) :
    Agree (serveFile env conn s path) (serveFile env conn a path) := by
  unfold serveFile
  split
  · exact (h.send conn _).shutdown conn
  split
  · exact (h.send conn _).shutdown conn
  · exact ((h.send conn _).send conn _).shutdown conn

theorem agree_handleHttpRequest (h : Agree s a) (request : Bytes) :
    (handleHttpRequest env conn s request).1 = (handleHttpRequest env conn a request).1 ∧
      Agree (handleHttpRequest env conn s request).2 (handleHttpRequest env conn a request).2 := by
  unfold handleHttpRequest
  split
  · exact ⟨rfl, h⟩
  split
  · split
    · exact ⟨rfl, h⟩
    · exact ⟨rfl, agree_serveFile env conn h _⟩
  · exact ⟨rfl, h⟩

theorem agree_handleHandshake (h : Agree s a) (data : Bytes) :
    Agree (handleHandshake env conn s data) (handleHandshake env conn a data) := by
  obtain ⟨hhandled, hhttp⟩ := agree_handleHttpRequest env conn h data
  unfold handleHandshake
  generalize handleHttpRequest env conn s data = outcome at hhandled hhttp ⊢
  generalize handleHttpRequest env conn a data = outcome' at hhandled hhttp ⊢
  obtain ⟨handled, t⟩ := outcome
  obtain ⟨handled', b⟩ := outcome'
  obtain rfl : handled = handled' := hhandled
  cases handled with
  | true => exact hhttp
  | false =>
      have hstate : t.connectionStates conn = b.connectionStates conn :=
        congrFun hhttp.connectionStates conn
      dsimp only
      split
      · rw [hstate]
        exact ((hhttp.setConnectionState conn rfl).send conn _).setConnectionState conn rfl
      · exact (hhttp.send conn _).shutdown conn

theorem agree_onConnection (h : Agree s a) : Agree (onConnection conn s) (onConnection conn a) := by
  unfold onConnection
  rw [h.connected_eq, h.username_eq]
  split
  · exact h.setConnectionState conn rfl
  dsimp only
  split
  · exact ((agree_onDisconnect h _).setConnectionState conn rfl).shutdown conn
  · exact (h.setConnectionState conn rfl).shutdown conn

end ChatServer

namespace Server

variable {υ μ : Type} (env : Env υ μ)

section Disclosure

-- The connection owns a session.
def Owns (s : Server υ μ) (conn : ConnId) : Prop :=
  ∃ u ∈ getOnlineUsers s.sessions, getConnection s.sessions u = some conn

-- Histories are asked for by connections that own a session, and logins are accepted or
-- come from such connections. What no longer can be answered does not matter.
def AsksAsOwner (s : Server υ μ) : Event → Prop
  | .message conn payload _ =>
      match decode env payload with
      | .ok (.login u password) =>
          s.connected conn = true → Accepted env s u password ∨ s.Owns conn
      | .ok (.get_history _) => s.connected conn = true → s.Owns conn
      | _ => True
  | _ => True

instance (s : Server υ μ) (conn : ConnId) : Decidable (s.Owns conn) := by
  unfold Owns
  infer_instance

instance (s : Server υ μ) : (e : Event) → Decidable (s.AsksAsOwner env e)
  | .message conn payload _ =>
      match hdecode : decode env payload with
      | .ok (.login u password) =>
          decidable_of_iff (s.connected conn = true → Accepted env s u password ∨ s.Owns conn)
            (by simp only [AsksAsOwner, hdecode])
      | .ok (.get_history _) =>
          decidable_of_iff (s.connected conn = true → s.Owns conn)
            (by simp only [AsksAsOwner, hdecode])
      | .ok (.register _ _) | .ok .logout | .ok (.chat _) | .ok .heartbeat | .ok (.unknown _)
      | .error _ =>
          .isTrue (by simp only [AsksAsOwner, hdecode])
  | .up _ | .request _ _ | .closeFrame _ | .down _ => .isTrue trivial

variable {env} {s a t b : Server υ μ} {e : Event} {conn : ConnId}

theorem Owns.holder (h : s.Owns conn) : ∃ u, getConnection s.sessions u = some conn := by
  obtain ⟨u, _, hu⟩ := h
  exact ⟨u, hu⟩

theorem agree_dispatch (h : Agree s a) (hanswered : s.Answered) {payload : Bytes} {now : ℕ}
    {request : Request} (hdecode : decode env payload = .ok request)
    (hasks : s.AsksAsOwner env (.message conn payload now)) :
    Agree (dispatch env conn now s request).2 (dispatch env conn now a request).2 := by
  simp only [AsksAsOwner, hdecode] at hasks
  cases request with
  | register username password => exact (same_handleRegister env conn h username password).2
  | login username password =>
      have hlogin := same_handleLogin env conn now (h.setUsername conn username) username password
      refine hlogin.andThen fun t b ht htb => ?_
      refine agree_handleGetHistory env conn htb 50 fun hconnected => ?_
      have hsame := connected_handleLogin env conn conn now (s.setUsername conn username) username
        password
      have hlogs := logs_handleLogin env conn now (s.setUsername conn username) username password
      rw [ht] at hsame hlogs
      rcases hasks (hsame.symm.trans hconnected) with haccepted | howns
      · have haccepted' : Accepted env (s.setUsername conn username) username password := haccepted
        rw [handleLogin_accepted conn now haccepted'] at ht
        have hmem := answered_acceptLogin env conn now _ (congrArg Prod.fst ht)
        rw [ht] at hmem
        exact ⟨username, hmem⟩
      · obtain ⟨u, hu⟩ := howns.holder
        exact ⟨u, hlogs.subset (hanswered conn u hu)⟩
  | logout =>
      simp only [dispatch, h.username_eq]
      exact (same_handleLogout conn h _).andThen fun t b _ htb => htb.setUsername conn []
  | chat content =>
      simp only [dispatch, h.username_eq]
      exact (same_handleChat env now h _ content).2
  | heartbeat =>
      simp only [dispatch, h.username_eq]
      exact (same_handleHeartbeat now h _).2
  | get_history limit =>
      refine agree_handleGetHistory env conn h limit fun hconnected => ?_
      obtain ⟨u, hu⟩ := (hasks hconnected).holder
      exact ⟨u, hanswered conn u hu⟩
  | unknown msgType => exact h

theorem agree_message (h : Agree s a) (hanswered : s.Answered) {payload : Bytes} {now : ℕ}
    (hasks : s.AsksAsOwner env (.message conn payload now)) :
    Agree (handleWebSocketMessage env conn now s payload).2
      (handleWebSocketMessage env conn now a payload).2 := by
  cases hdecode : decode env payload with
  | ok request =>
      rw [handleWebSocketMessage_decoded env conn now s hdecode,
        handleWebSocketMessage_decoded env conn now a hdecode]
      exact agree_dispatch h hanswered hdecode hasks
  | error e =>
      by_cases he : e = .parse_error
      · rw [handleWebSocketMessage_parse_error env conn now s (he ▸ hdecode),
          handleWebSocketMessage_parse_error env conn now a (he ▸ hdecode)]
        exact h.send conn _
      · rw [handleWebSocketMessage_uncaught env conn now s hdecode he,
          handleWebSocketMessage_uncaught env conn now a hdecode he]
        exact h

theorem agree_exec (h : Agree s a) (hanswered : s.Answered) (hasks : s.AsksAsOwner env e) :
    Agree (s.exec env e).2 (a.exec env e).2 := by
  cases e with
  | up conn => exact agree_onConnection conn (h.setState conn .kConnected)
  | request conn data => exact agree_handleHandshake env conn h data
  | message conn payload now => exact agree_message h hanswered hasks
  | closeFrame conn => exact h.shutdown conn
  | down conn => exact agree_onConnection conn (h.setState conn .kDisconnected)

theorem agree_step (h : Agree s a) (hanswered : s.Answered) (hasks : s.AsksAsOwner env e)
    (hs : Step env s e t) (ha : Step env a e b) : Agree t b := by
  have hexec := agree_exec h hanswered hasks
  have hnext : ∀ s : Server υ μ, ∃ running,
      s.next env e = { (s.exec env e).2 with running := running } := by
    intro s
    unfold next
    rcases s.exec env e with ⟨_ | ⟨⟩, t⟩
    · exact ⟨false, rfl⟩
    · exact ⟨t.running, rfl⟩
  obtain ⟨_, _, rfl⟩ := hs
  obtain ⟨_, _, rfl⟩ := ha
  obtain ⟨_, hs⟩ := hnext s
  obtain ⟨_, ha⟩ := hnext a
  rw [hs, ha]
  exact ⟨hexec.connectionStates, hexec.sessions, hexec.users, hexec.state, hexec.answered,
    hexec.sent⟩

-- A history goes to the owner of a session whose login was answered.
theorem history_to_owner (hempty : s.registry.holder [] = none) (hanswered : s.Answered)
    (hguard : s.Guard e) (hasks : s.AsksAsOwner env e)
    (hsent : .historySent conn ∈ s.effects env e) :
    ∃ u, getConnection (s.exec env e).2.sessions u = some conn ∧
      .loginAnswered conn u ∈ (s.exec env e).2.trace := by
  obtain ⟨hok, hconnected, hrequest⟩ := explains_of_mem_effects env hsent
  have hregistry := registry_exec env hempty hguard
  have hlogs := logs_exec env s e
  have howner : s.Owns conn → (∀ v, (s.exec env e).2.registry.holder v = s.registry.holder v) →
      ∃ u, getConnection (s.exec env e).2.sessions u = some conn ∧
        .loginAnswered conn u ∈ (s.exec env e).2.trace := by
    intro howns hsame
    obtain ⟨u, hu⟩ := howns.holder
    exact ⟨u, (hsame u).trans hu, hlogs.subset (hanswered conn u hu)⟩
  rcases hrequest with ⟨u, password, payload, now, rfl, hdecode⟩ |
    ⟨limit, payload, now, rfl, hdecode⟩
  · simp only [AsksAsOwner, hdecode] at hasks
    by_cases haccepted : Accepted env s u password
    · simp only [actions, hdecode, requestActions, if_pos haccepted, List.foldl_cons,
        List.foldl_nil] at hregistry
      refine ⟨u, ?_, answered_of_accepted env hdecode haccepted hok⟩
      have hholder := congrFun (congrArg Registry.holder hregistry) u
      exact hholder.trans (by simp [Registry.apply])
    · simp only [actions, hdecode, requestActions, if_neg haccepted, List.foldl_cons,
        List.foldl_nil] at hregistry
      refine howner ((hasks hconnected).resolve_left haccepted) fun v => ?_
      rw [hregistry]
      rfl
  · simp only [AsksAsOwner, hdecode] at hasks
    simp only [actions, hdecode, requestActions, List.foldl_nil] at hregistry
    exact howner (hasks hconnected) fun v => by rw [hregistry]

theorem agree_start (users : υ) (messages messages' : μ) :
    Agree (start users messages) (start users messages') :=
  ⟨rfl, rfl, rfl, fun _ => rfl, fun _ _ => Iff.rfl, fun _ _ => rfl⟩

end Disclosure

section Runs

-- The history is disclosed to owners of sessions only.
def ToOwners (s : Server υ μ) (e : Event) : Prop :=
  ∀ conn, .historySent conn ∈ s.effects env e →
    ∃ u, getConnection (s.exec env e).2.sessions u = some conn ∧
      .loginAnswered conn u ∈ (s.exec env e).2.trace

-- The states of two runs that differ in the messages table at their start.
theorem agree_run {users : υ} {messages messages' : μ} {es : List Event} {s a : Server υ μ}
    (hrun : Path (restrict (AsksAsOwner env) (Step env)) (start users messages) es s)
    (hrun' : Path (Step env) (start users messages') es a) : Agree s a := by
  have hstep : ∀ (s : Server υ μ) e t a b,
      (Agree s a ∧ s.registry.Named (· ≠ []) ∧ (s.running = true → s.Answered)) →
      restrict (AsksAsOwner env) (Step env) s e t → Step env a e b →
      (Agree t b ∧ t.registry.Named (· ≠ []) ∧ (t.running = true → t.Answered)) := by
    rintro s e t a b ⟨hagree, hnamed, hanswered⟩ ⟨hasks, hs⟩ ha
    have hempty := holder_empty hnamed
    have hanswered := hanswered hs.1
    exact ⟨agree_step hagree hanswered hasks hs ha,
      named_step env hempty hnamed (fun _ _ _ _ hname => hname) hs,
      answered_step env hempty hanswered hs⟩
  refine (hrun.unwinding hstep hrun' ⟨agree_start users messages messages',
    named_start _ users messages, fun _ conn u hu => ?_⟩).1
  cases hu

-- In runs in which histories are asked for by owners of sessions, they go to owners of
-- sessions only, and who never logged in can tell nothing about the messages table.
theorem history_disclosed (users : υ) :
    (∀ messages es s e, Path (restrict (AsksAsOwner env) (Step env)) (start users messages) es s →
      s.running = true → s.Guard e → s.AsksAsOwner env e → s.ToOwners env e) ∧
    ∀ messages messages' es s a conn,
      Path (restrict (AsksAsOwner env) (Step env)) (start users messages) es s →
      Path (Step env) (start users messages') es a →
      (∀ u, .loginAnswered conn u ∉ s.trace) → (s.conns conn).sent = (a.conns conn).sent := by
  refine ⟨?_, ?_⟩
  · intro messages es s e hrun hrunning hguard hasks conn hsent
    exact history_to_owner (holder_empty (named_run env hrun.unrestrict))
      (answered_run env hrun.unrestrict hrunning) hguard hasks hsent
  · intro messages messages' es s a conn hrun hrun' hnever
    exact (agree_run env hrun hrun').sent conn hnever

-- Alice logs in and is sent the history; Bob has not logged in, and does not ask.
theorem history_disclosed_sample :
    bothConnected.ToOwners sampleEnv (tells 0 (loginJson "alice" "wonder")) ∧
      ((bothConnected.next sampleEnv (tells 0 (loginJson "alice" "wonder"))).conns 1).sent =
        (((Server.start sampleUsers [⟨1, 2, ascii "bob", ascii "secret", ascii "today"⟩]).play
          sampleEnv (connects 0 ++ connects 1 ++ [tells 0 (loginJson "alice" "wonder")])).conns
            1).sent := by
  have hrun : Path (restrict (AsksAsOwner sampleEnv) (Step sampleEnv)) sampleStart
      (connects 0 ++ connects 1) bothConnected := path_of_plays sampleEnv (by decide)
  have hstep : restrict (AsksAsOwner sampleEnv) (Step sampleEnv) bothConnected
      (tells 0 (loginJson "alice" "wonder")) (bothConnected.next sampleEnv _) :=
    ⟨by decide, by decide, by decide, rfl⟩
  have hplays : Plays sampleEnv (fun _ _ => True)
      (Server.start sampleUsers [⟨1, 2, ascii "bob", ascii "secret", ascii "today"⟩])
      (connects 0 ++ connects 1 ++ [tells 0 (loginJson "alice" "wonder")]) := by
    decide
  have htrace : (bothConnected.next sampleEnv (tells 0 (loginJson "alice" "wonder"))).trace =
      [.loginAnswered 0 (ascii "alice"), .historySent 0] := by
    decide
  refine ⟨(history_disclosed sampleEnv sampleUsers).1 [] _ _ _ hrun (by decide)
    (by decide) (by decide), ?_⟩
  exact (history_disclosed sampleEnv sampleUsers).2 [] _ _ _ _ 1 (hrun.snoc hstep)
    (path_of_plays sampleEnv hplays).unrestrict (by simp [htrace])

-- A connection that has not logged in asks for the history and gets it.
theorem history_leaked :
    ¬∀ es s e, Path (Step sampleEnv) sampleStart es s → s.running = true → s.Guard e →
      s.ToOwners sampleEnv e := by
  intro h
  obtain ⟨u, hu, _⟩ := h _ bothConnected (tells 1 historyJson) path_bothConnected.unrestrict
    (by decide) (by decide) 1 (by decide)
  have hnone :
      getOnlineUsers (bothConnected.exec sampleEnv (tells 1 historyJson)).2.sessions = [] := by
    decide
  have honline := mem_getOnlineUsers_iff.mpr ⟨1, hu⟩
  rw [hnone] at honline
  cases honline

end Runs

end Server

end MyTestserver
