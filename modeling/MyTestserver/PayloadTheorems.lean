import MyTestserver.SessionTheorems

namespace MyTestserver

open SessionManager ChatService ChatServer Transition

namespace ChatService

variable {υ μ : Type} (env : Env υ μ) (conn : ConnId) (now : ℕ) (s : Server υ μ)

theorem handleGetHistory_ok_iff (limit : ℤ) :
    (handleGetHistory env conn s limit).1 = .ok () ↔
      ∀ msg ∈ (env.messageDao.getRecentMessages s.messages limit).1, MessageUtf8 msg := by
  rw [← historyResponse_utf8_iff]
  unfold handleGetHistory
  dsimp only
  split
  · rename_i text h
    refine iff_of_true rfl ?_
    unfold Json.dump at h
    split at h
    · assumption
    · cases h
  · rename_i h
    exact iff_of_false (by simp) (Json.dump_error h).2

-- The names of the users online go into the answer to a login.
theorem acceptLogin_ok {username : Bytes} (hname : ValidUtf8 username)
    (hnames : s.registry.Named ValidUtf8) : (acceptLogin env conn now s username).1 = .ok () := by
  have hutf8 : (loginResponse (getOnlineUsers (addSession s.sessions username conn now))).Utf8 := by
    refine loginResponse_utf8 fun u hu => ?_
    obtain ⟨owner, howner⟩ := mem_getOnlineUsers_iff.mp hu
    rw [getConnection_addSession] at howner
    split at howner
    · rename_i heq
      exact heq ▸ hname
    · exact hnames.1 u owner howner
  simp only [acceptLogin, Json.dump_ok hutf8]

theorem handleLogin_ok {username : Bytes} (password : Bytes) (hname : ValidUtf8 username)
    (hnames : s.registry.Named ValidUtf8) :
    (handleLogin env conn now s username password).1 = .ok () := by
  by_cases haccepted : Accepted env s username password
  · rw [handleLogin_accepted conn now haccepted]
    exact acceptLogin_ok env conn now _ hname hnames
  · obtain ⟨users, text, h⟩ := handleLogin_rejected conn now haccepted
    rw [h]

theorem messages_handleLogin (username password : Bytes) :
    (handleLogin env conn now s username password).2.messages = s.messages := by
  by_cases haccepted : Accepted env s username password
  · rw [handleLogin_accepted conn now haccepted]
    unfold acceptLogin
    dsimp only
    split
    · exact (Server.sends_send _ conn _).messages
    · rfl
  · obtain ⟨users, text, h⟩ := handleLogin_rejected conn now haccepted
    rw [h]
    exact (Server.sends_send _ conn _).messages

theorem handleChat_ok {sender content : Bytes} (hsender : ValidUtf8 sender)
    (hcontent : ValidUtf8 content) : (handleChat env now s sender content).1 = .ok () := by
  rcases handleChat_cases env now s sender content with ⟨users, h⟩ | ⟨_, users, user, h⟩
  · rw [h]
  · rw [h]
    simp only [publish, Json.dump_ok (broadcastMessage_utf8 hsender hcontent now)]

end ChatService

namespace Server

variable {υ μ : Type} (env : Env υ μ)

-- What comes out of the database for the client has to be UTF-8 to be sent.
def HistoryUtf8 (s : Server υ μ) : Request → Prop
  | .login _ _ => ∀ msg ∈ (env.messageDao.getRecentMessages s.messages 50).1, MessageUtf8 msg
  | .get_history limit =>
      ∀ msg ∈ (env.messageDao.getRecentMessages s.messages limit).1, MessageUtf8 msg
  | _ => True

theorem username_utf8 {s : Server υ μ} (hnames : s.registry.Named ValidUtf8) (conn : ConnId) :
    ValidUtf8 (s.username conn) := by
  by_cases hname : s.username conn = []
  · rw [hname]
    exact validUtf8_ascii ""
  · exact hnames.2 conn _ (claim_eq_some_iff.mpr ⟨rfl, hname⟩)

theorem dispatch_ok_iff (conn : ConnId) (now : ℕ) {s : Server υ μ} {request : Request}
    (hnames : s.registry.Named ValidUtf8) (hutf8 : request.Utf8) :
    (dispatch env conn now s request).1 = .ok () ↔ s.HistoryUtf8 env request := by
  cases request with
  | register username password =>
      obtain ⟨users, text, h⟩ := handleRegister_result env conn s username password
      rw [dispatch, h]
      exact iff_of_true rfl trivial
  | login username password =>
      have hassumed : (s.setUsername conn username).registry.Named ValidUtf8 := by
        rw [registry_setUsername]
        refine hnames.apply fun v hv => ?_
        exact (named_eq_some_iff.mp hv).1 ▸ hutf8
      have hok := handleLogin_ok env conn now (s.setUsername conn username) password hutf8 hassumed
      have hmessages := messages_handleLogin env conn now (s.setUsername conn username) username
        password
      simp only [dispatch]
      generalize handleLogin env conn now (s.setUsername conn username) username password = outcome
        at hok hmessages ⊢
      obtain ⟨result, t⟩ := outcome
      cases show result = .ok () from hok
      rw [Outcome.andThen_ok, handleGetHistory_ok_iff, show t.messages = s.messages from hmessages]
      rfl
  | logout =>
      obtain ⟨text, h⟩ := handleLogout_result conn s (s.username conn)
      rw [dispatch, h, Outcome.andThen_ok]
      exact iff_of_true rfl trivial
  | chat content =>
      have hsender := username_utf8 hnames conn
      exact iff_of_true (handleChat_ok env now s hsender hutf8) trivial
  | heartbeat =>
      obtain ⟨t, h, _⟩ := handleHeartbeat_result now s (s.username conn)
      rw [dispatch, h]
      exact iff_of_true rfl trivial
  | get_history limit => exact handleGetHistory_ok_iff env conn s limit
  | unknown msgType => exact iff_of_true rfl trivial

-- The names in use came out of a parser, so they are UTF-8 in every run.
theorem named_utf8 (hparse : ParseDocumented env.parse) {s : Server υ μ} (h : Reachable env s) :
    s.registry.Named ValidUtf8 := by
  obtain ⟨users, messages, es, hrun⟩ := h
  have hlogin : ∀ {e : Event} conn u password, e.Login env conn u password → u ≠ [] →
      ValidUtf8 u := by
    rintro e conn u password ⟨payload, now, rfl, hdecode⟩ _
    obtain ⟨j, hj, hread⟩ := bind_eq_ok_iff.mp hdecode
    exact Request.read_utf8 (hparse.utf8 hj) hread
  refine (hrun.invariant (fun s => s.registry.Named (· ≠ []) ∧ s.registry.Named ValidUtf8)
    (fun s e t hs hstep => ?_) ⟨named_start _ users messages, named_start _ users messages⟩).2
  have hempty := holder_empty hs.1
  exact ⟨named_step env hempty hs.1 (fun _ _ _ _ hname => hname) hstep,
    named_step env hempty hs.2 hlogin hstep⟩

-- The handler comes back, and a payload of another form than the branches expect leaves
-- the sessions, the database and the name of the connection alone.
def Contained (conn : ConnId) (now : ℕ) (payload : Bytes) (s : Server υ μ) : Prop :=
  (handleWebSocketMessage env conn now s payload).1 = .ok () ∧
    ((¬∃ j, env.parse payload = .ok j ∧ Request.WellTyped j) →
      let t := (handleWebSocketMessage env conn now s payload).2
      t.sessions = s.sessions ∧ t.users = s.users ∧ t.messages = s.messages ∧
        t.username conn = s.username conn)

-- Ill-formed text, or a well-formed message whose answer from the database can be sent.
def Expected (payload : Bytes) (s : Server υ μ) : Prop :=
  env.parse payload = .error .parse_error ∨
    ∃ j, env.parse payload = .ok j ∧ Request.WellTyped j ∧
      ∀ request, Request.read j = .ok request → s.HistoryUtf8 env request

-- The handler comes back from the payloads that the code expects: the catch block is for
-- ill-formed text only.
theorem handleWebSocketMessage_ok_iff (hparse : ParseDocumented env.parse) {s : Server υ μ}
    (h : Reachable env s) (conn : ConnId) (now : ℕ) (payload : Bytes) :
    (handleWebSocketMessage env conn now s payload).1 = .ok () ↔ s.Expected env payload := by
  cases hj : env.parse payload with
  | error e =>
      have hdecode : decode env payload = .error e := by simp [decode, hj, bind, Except.bind]
      by_cases he : e = .parse_error
      · rw [handleWebSocketMessage_parse_error env conn now s (he ▸ hdecode)]
        exact iff_of_true rfl (.inl (by rw [hj, he]))
      · rw [handleWebSocketMessage_uncaught env conn now s hdecode he]
        exact iff_of_false (by simp) (by simp [Expected, hj, he])
  | ok j =>
      have hdecode : decode env payload = Request.read j := by simp [decode, hj, bind, Except.bind]
      cases hread : Request.read j with
      | ok request =>
          have hutf8 : request.Utf8 := Request.read_utf8 (hparse.utf8 hj) hread
          have htyped : Request.WellTyped j := Request.read_ok_iff.mp ⟨request, hread⟩
          rw [handleWebSocketMessage_decoded env conn now s (hdecode.trans hread),
            dispatch_ok_iff env conn now (named_utf8 env hparse h) hutf8]
          simp [Expected, hj, htyped, hread]
      | error e =>
          have htyped : ¬Request.WellTyped j := by
            rw [← Request.read_ok_iff, hread]
            simp
          rw [Request.read_error hread] at hread
          rw [handleWebSocketMessage_uncaught env conn now s (hdecode.trans hread) (by simp)]
          exact iff_of_false (by simp) (by simp [Expected, hj, htyped])

-- Payloads are contained exactly when they are of the kinds that the code expects.
theorem contained_iff (hparse : ParseDocumented env.parse) {s : Server υ μ} (h : Reachable env s)
    (conn : ConnId) (now : ℕ) (payload : Bytes) :
    s.Contained env conn now payload ↔ s.Expected env payload := by
  rw [Contained, handleWebSocketMessage_ok_iff env hparse h]
  refine and_iff_left_of_imp fun hexpected hform => ?_
  rcases hexpected with herror | ⟨j, hj, htyped, _⟩
  · have hdecode : decode env payload = .error .parse_error := by
      simp [decode, herror, bind, Except.bind]
    have hsends := s.sends_send conn (WebSocketHandler.encodeFrame errorMessage.render)
    rw [handleWebSocketMessage_parse_error env conn now s hdecode]
    exact ⟨hsends.sessions, hsends.users, hsends.messages, hsends.username_eq conn⟩
  · exact absurd ⟨j, hj, htyped⟩ hform

theorem reachable_bothConnected : Reachable sampleEnv bothConnected :=
  ⟨sampleUsers, [], _, path_bothConnected.unrestrict⟩

theorem chat_contained :
    bothConnected.Contained sampleEnv 0 1700000000 (chatJson "hi").render := by
  have hread : Request.read (chatJson "hi") = .ok (.chat (ascii "hi")) := by decide
  refine (contained_iff sampleEnv sampleEnv_documented reachable_bothConnected 0 1700000000 _).mpr
    (.inr ⟨chatJson "hi", by rfl, Request.read_ok_iff.mp ⟨_, hread⟩, ?_⟩)
  intro request h
  rw [hread] at h
  exact Except.ok.inj h ▸ trivial

-- An empty JSON object has no message type, and the exception of the missing string leaves.
theorem empty_object_uncaught :
    ¬∀ s conn now payload, Reachable sampleEnv s → s.Contained sampleEnv conn now payload := by
  intro h
  have hcontained := h bothConnected 0 1700000000 (ascii "{}") reachable_bothConnected
  exact absurd hcontained.1 (by decide)

end Server

end MyTestserver
