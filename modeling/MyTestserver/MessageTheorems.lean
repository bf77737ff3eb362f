import MyTestserver.AnswerTheorems
import MyTestserver.ServerFrame
import MyTestserver.ServerMessages

namespace MyTestserver

open WebSocketHandler ChatService ChatServer Transition

theorem Json.eq_render_of_dump {j : Json} {text : Bytes} (h : j.dump = .ok text) :
    j.Utf8 ∧ text = j.render := by
  unfold Json.dump at h
  split at h
  · rename_i hutf8
    exact ⟨hutf8, (Except.ok.inj h).symm⟩
  · cases h

namespace ServerMessage

def frame (m : ServerMessage) : Bytes := encodeFrame m.json.render

-- What a connection is told about itself, and not about what was said.
def Answer : ServerMessage → Prop
  | .broadcast _ _ _ | .history _ => False
  | _ => True

-- What can be dumped is a message that a page can read.

theorem valid_login_resp {onlineUsers : List Bytes} (h : (login_resp onlineUsers).json.Utf8) :
    (login_resp onlineUsers).Valid := by
  rw [json_eq] at h
  have hmembers := Json.utf8_object_iff.mp h
  have husers := (hmembers (fieldOnlineUsers, .array (onlineUsers.map .string))
    (List.mem_cons_of_mem _ List.mem_cons_self)).2
  intro u hu
  exact Json.utf8_string_iff.mp (Json.utf8_array_iff.mp husers _ (List.mem_map_of_mem hu))

theorem valid_broadcast {sender content : Bytes} {timestamp : ℕ} (hnow : timestamp < 2 ^ 63)
    (h : (broadcast sender content timestamp).json.Utf8) :
    (broadcast sender content timestamp).Valid := by
  rw [json_eq] at h
  have hmembers := Json.utf8_object_iff.mp h
  have hcontent := (hmembers (fieldContent, .string content) List.mem_cons_self).2
  have hsender := (hmembers (fieldSender, .string sender)
    (List.mem_cons_of_mem _ (List.mem_cons_of_mem _ List.mem_cons_self))).2
  exact ⟨Json.utf8_string_iff.mp hsender, Json.utf8_string_iff.mp hcontent, hnow⟩

end ServerMessage

namespace Server

variable {υ μ : Type} (env : Env υ μ) (conn other : ConnId) (now : ℕ) (s : Server υ μ)

def IsMessage (buf : Bytes) : Prop := ∃ m : ServerMessage, m.Valid ∧ buf = m.frame

def IsAnswer (buf : Bytes) : Prop := ∃ m : ServerMessage, m.Valid ∧ m.Answer ∧ buf = m.frame

theorem IsAnswer.isMessage {buf : Bytes} (h : IsAnswer buf) : IsMessage buf := by
  obtain ⟨m, hm, -, hbuf⟩ := h
  exact ⟨m, hm, hbuf⟩

section Handlers

variable {conn}

theorem Sent.mono {kind kind' : Bytes → Prop} {s t : Server υ μ} (h : Sent conn kind s t)
    (hsub : ∀ buf, kind buf → kind' buf) : Sent conn kind' s t := by
  obtain ⟨bufs, hsent, hbufs⟩ := h
  exact ⟨bufs, hsent, fun buf hbuf => hsub buf (hbufs buf hbuf)⟩

theorem Sent.isMessage {s t : Server υ μ} (h : Sent conn IsAnswer s t) :
    Sent conn IsMessage s t :=
  h.mono fun _ => IsAnswer.isMessage

theorem sent_respond (m : ServerMessage) (h : m.Valid) (hanswer : m.Answer) :
    Sent conn IsAnswer s (s.respond other m.json.dump).2 := by
  rw [Json.dump_ok (ServerMessage.utf8_json h)]
  exact .send conn s other ⟨m, h, hanswer, rfl⟩

theorem sent_handleRegister (username password : Bytes) :
    Sent conn IsAnswer s (handleRegister env other s username password).2 := by
  have hfailed : ∀ (t : Server υ μ) (text : String), ascii text ≠ [] →
      Sent conn IsAnswer t
        (t.respond other (createResponse msgTypeRegisterResp false (ascii text))).2 :=
    fun t text htext => t.sent_respond other (.register_resp false (ascii text))
      ⟨validUtf8_ascii text, fun _ => htext⟩ trivial
  unfold handleRegister
  split
  · exact hfailed s _ (by decide)
  split
  · exact hfailed { s with users := _ } _ (by decide)
  split
  · exact sent_respond other { s with users := _ } (.register_resp true [])
      ⟨validUtf8_ascii "", fun hfalse => by cases hfalse⟩ trivial
  · exact hfailed { s with users := _ } _ (by decide)

theorem sent_acceptLogin (username : Bytes) :
    Sent conn IsAnswer s (acceptLogin env other now s username).2 := by
  unfold acceptLogin
  dsimp only
  split
  · rename_i text hdump
    obtain ⟨hutf8, rfl⟩ := Json.eq_render_of_dump hdump
    exact Sent.send conn { s with users := _, sessions := _ } other
      ⟨.login_resp _, ServerMessage.valid_login_resp hutf8, trivial, rfl⟩
  · exact .of_eq conn rfl

theorem sent_handleLogin (username password : Bytes) :
    Sent conn IsAnswer s (handleLogin env other now s username password).2 := by
  have hfailed : ∀ (t : Server υ μ) (text : String), ascii text ≠ [] →
      Sent conn IsAnswer t
        (t.respond other (createResponse msgTypeLoginResp false (ascii text))).2 :=
    fun t text htext => t.sent_respond other (.login_failed (ascii text))
      ⟨validUtf8_ascii text, htext⟩ trivial
  unfold handleLogin
  split
  · exact hfailed s _ (by decide)
  split
  · exact hfailed { s with users := _ } _ (by decide)
  split
  · exact hfailed { s with users := _ } _ (by decide)
  · exact sent_acceptLogin env other now { s with users := _ } username

theorem sent_handleLogout (username : Bytes) :
    Sent conn IsAnswer s (handleLogout other s username).2 := by
  simp only [handleLogout, Json.dump_ok logoutResponse_utf8, Server.respond, Outcome.andThen_ok]
  have hsent : Sent conn IsAnswer s ({ s with
      sessions := SessionManager.removeSession s.sessions username }.sendResponse other
        logoutResponse.render) :=
    Sent.send conn { s with sessions := SessionManager.removeSession s.sessions username } other
      ⟨.logout_resp, trivial, trivial, rfl⟩
  exact hsent.trans conn (.shutdown conn _ other)

theorem sent_handleChat (hnow : now < 2 ^ 63) (sender content : Bytes) :
    Sent conn IsMessage s (handleChat env now s sender content).2 := by
  rcases handleChat_cases env now s sender content with ⟨users, hresult⟩ | ⟨_, users, user, hresult⟩
  · rw [hresult]
    exact .of_eq conn rfl
  · rw [hresult]
    unfold publish
    dsimp only
    split
    · rename_i text hdump
      obtain ⟨hutf8, rfl⟩ := Json.eq_render_of_dump hdump
      exact Sent.broadcastToAll conn { s with users := _, messages := _, trace := _ }
        ⟨.broadcast sender content now, ServerMessage.valid_broadcast hnow hutf8, rfl⟩ []
    · exact .of_eq conn rfl

theorem sent_handleHeartbeat (hnow : now < 2 ^ 63) (username : Bytes) :
    Sent conn IsAnswer s (handleHeartbeat now s username).2 := by
  have hrefresh : Sent conn IsAnswer s (refresh now s username) := by
    unfold refresh
    split
    · exact .of_eq conn rfl
    · exact .of_eq conn rfl
  unfold handleHeartbeat
  dsimp only
  split
  · split
    · exact hrefresh.trans conn (sent_respond _ _ (.heartbeat_resp now) hnow trivial)
    · exact hrefresh
  · exact hrefresh

theorem sent_handleGetHistory (limit : ℤ) :
    Sent conn IsMessage s (handleGetHistory env other s limit).2 := by
  unfold handleGetHistory sendHistory
  dsimp only
  split
  · rename_i text hdump
    obtain ⟨hutf8, rfl⟩ := Json.eq_render_of_dump hdump
    split
    · exact Sent.send conn { s with messages := _ } other
        ⟨.history _, (historyResponse_utf8_iff _).mp hutf8, rfl⟩
    · exact .of_eq conn rfl
  · exact .of_eq conn rfl

theorem sent_andThen {kind : Bytes → Prop} {result : Outcome (Server υ μ)}
    {next : Server υ μ → Outcome (Server υ μ)} (h : Sent conn kind s result.2)
    (hnext : ∀ t, Sent conn kind t (next t).2) : Sent conn kind s (result.andThen next).2 := by
  obtain ⟨_ | _, t⟩ := result
  · exact h
  · exact h.trans conn (hnext t)

theorem sent_dispatch (hnow : now < 2 ^ 63) (request : Request) :
    Sent conn IsMessage s (dispatch env other now s request).2 := by
  cases request with
  | register username password =>
      exact (sent_handleRegister env other s username password).isMessage
  | login username password =>
      have hlogin : Sent conn IsMessage (s.setUsername other username)
          (handleLogin env other now (s.setUsername other username) username password).2 :=
        (sent_handleLogin env other now _ username password).isMessage
      exact sent_andThen s hlogin fun t => sent_handleGetHistory env other t 50
  | logout =>
      exact sent_andThen s (sent_handleLogout other s _).isMessage fun _ => .of_eq conn rfl
  | chat content => exact sent_handleChat env now s hnow _ content
  | heartbeat => exact (sent_handleHeartbeat now s hnow _).isMessage
  | get_history limit => exact sent_handleGetHistory env other s limit
  | unknown msgType => exact .refl conn s

-- Whatever a message asks for, what is sent to any connection are messages.
theorem sent_handleWebSocketMessage (hnow : now < 2 ^ 63) (payload : Bytes) :
    Sent conn IsMessage s (handleWebSocketMessage env other now s payload).2 := by
  cases hdecode : decode env payload with
  | ok request =>
      rw [handleWebSocketMessage_decoded env other now s hdecode]
      exact sent_dispatch env other now s hnow request
  | error e =>
      by_cases he : e = .parse_error
      · rw [handleWebSocketMessage_parse_error env other now s (he ▸ hdecode)]
        exact .send conn s other ⟨.error, trivial, rfl⟩
      · rw [handleWebSocketMessage_uncaught env other now s hdecode he]
        exact .refl conn s

end Handlers

section Runs

variable {conn}

def switching : Bytes := ascii "HTTP/1.1 101"

-- Behind a 101 response there are messages only.
def Spoken (s : Server υ μ) (conn : ConnId) : Prop :=
  ∀ first frames, (s.conns conn).sent = first :: frames → switching <+: first →
    ∀ buf ∈ frames, IsMessage buf

variable {env s}

theorem not_switching_of_isMessage {buf : Bytes} (h : IsMessage buf) : ¬switching <+: buf := by
  obtain ⟨m, -, rfl⟩ := h
  intro hprefix
  have hframe : m.frame.head? = some 0x81 := by
    rw [ServerMessage.frame, encodeFrame_eq]
    rfl
  have hswitching : switching.head? = some 72 := by decide
  obtain ⟨rest, hrest⟩ := hprefix
  rw [← hrest, List.head?_append, hswitching] at hframe
  cases hframe

theorem Spoken.sent {t : Server υ μ} (h : s.Spoken conn) (hsent : Sent conn IsMessage s t) :
    t.Spoken conn := by
  obtain ⟨bufs, hbufs, hall⟩ := hsent
  intro first frames hfirst hswitching
  cases hs : (s.conns conn).sent with
  | nil =>
      rw [hbufs, hs, List.nil_append] at hfirst
      rw [hfirst] at hall
      exact absurd hswitching (not_switching_of_isMessage (hall first List.mem_cons_self))
  | cons first' frames' =>
      rw [hbufs, hs, List.cons_append] at hfirst
      obtain ⟨rfl, rfl⟩ := List.cons.inj hfirst
      exact List.forall_mem_append.mpr ⟨h first' frames' hs hswitching, hall⟩

theorem switching_generateHandshakeResponse (crypto : Crypto) (data : Bytes) :
    switching <+: generateHandshakeResponse crypto data := by
  have hstatus : switching <+: ascii "HTTP/1.1 101 Switching Protocols\r\n" := by decide
  simp only [generateHandshakeResponse, List.append_assoc]
  exact hstatus.trans (List.prefix_append _ _)

theorem not_switching_responseHeader (filePath content : Bytes) :
    ¬switching <+: responseHeader filePath content := by
  intro h
  have hstatus : ascii "HTTP/1.1 200 OK\r\n" <+: responseHeader filePath content := by
    simp only [responseHeader, List.append_assoc]
    exact List.prefix_append _ _
  have hshort : switching <+: ascii "HTTP/1.1 200 OK\r\n" :=
    List.prefix_of_prefix_length_le h hstatus (by decide)
  exact absurd hshort (by decide)

-- Of the responses of the handshake only the one to an upgrade is a 101 response, and it is
-- the whole of what is sent.
theorem Spoken.handshake {s : Server υ μ} (h : Served env s conn) (hs : s.Spoken conn)
    (hnew : (s.connectionStates conn).handshakeComplete = false) (data : Bytes) :
    (handleHandshake env conn s data).Spoken conn := by
  by_cases hconn : s.connected conn = true
  · rcases h.connected hconn with ⟨_, hsent, _⟩ | ⟨hup, _⟩
    swap
    · rw [hup.1] at hnew
      cases hnew
    rcases handleHandshake_result env conn s data with
      ⟨_, bufs, hresponse, hresult⟩ | ⟨hup, hresult⟩
    · intro first frames hfirst hswitching
      rw [hresult, sent_shutdown, sent_sendAll conn hconn, hsent, List.nil_append] at hfirst
      cases hresponse with
      | file =>
          obtain ⟨rfl, -⟩ := List.cons.inj hfirst
          exact absurd hswitching (not_switching_responseHeader _ _)
      | _ =>
          obtain ⟨-, rfl⟩ := List.cons.inj hfirst
          exact List.forall_mem_nil _
    · obtain ⟨hsent', _⟩ := handleHandshake_upgrade env conn hconn hup
      intro first frames hfirst _
      rw [hsent', hsent] at hfirst
      obtain ⟨-, rfl⟩ := List.cons.inj hfirst
      exact List.forall_mem_nil _
  · have hconns : (handleHandshake env conn s data).conns = s.conns :=
      conns_handleHandshake_idle env (by simpa using hconn) data
    intro first frames
    rw [hconns]
    exact hs first frames

-- The time fits into the integers of the library.
def Timely : MyTestserver.Event → Prop
  | .message _ _ now => now < 2 ^ 63
  | _ => True

theorem Spoken.step {s t : Server υ μ} {e : MyTestserver.Event} (he : Timely e)
    (hserved : ∀ conn, Served env s conn) (hs : ∀ conn, s.Spoken conn) (hstep : Step env s e t)
    (conn : ConnId) : t.Spoken conn := by
  obtain ⟨_, hguard, rfl⟩ := hstep
  have hsame : ∀ {t : Server υ μ}, t.conns conn = s.conns conn → t.Spoken conn := fun ht =>
    (hs conn).sent (.of_eq conn (congrArg Conn.sent ht))
  suffices hexec : (s.exec env e).2.Spoken conn by
    unfold next
    split
    · rename_i t hresult
      rwa [hresult] at hexec
    · rename_i t hresult
      rw [hresult] at hexec
      exact hexec
  have hstate : ∀ other state, (onConnection other (s.setState other state)).Spoken conn := by
    intro other state
    refine (hs conn).sent (.of_eq conn ?_)
    rw [conns_onConnection, setState]
    by_cases hother : conn = other
    · simp [hother]
    · simp [hother]
  cases e with
  | up other => exact hstate other .kConnected
  | request other data =>
      by_cases hother : conn = other
      · subst hother
        exact Spoken.handshake (hserved conn) (hs conn) hguard.2 data
      · exact hsame (handleHandshake_ne env s hother data).1
  | message other payload now =>
      exact (hs conn).sent (sent_handleWebSocketMessage env other now s he payload)
  | closeFrame other => exact (hs conn).sent (.shutdown conn s other)
  | down other => exact hstate other .kDisconnected

theorem spoken_run {users : υ} {messages : μ} {es : List MyTestserver.Event} {s : Server υ μ}
    (hrun : Path (Step env) (start users messages) es s) (htimely : ∀ e ∈ es, Timely e)
    (conn : ConnId) : s.Spoken conn := by
  have hstep : ∀ (s : Server υ μ) e t, Timely e →
      ((∀ conn, Served env s conn) ∧ ∀ conn, s.Spoken conn) → Step env s e t →
        (∀ conn, Served env t conn) ∧ ∀ conn, t.Spoken conn :=
    fun _ _ _ he hs hstep => ⟨Served.step hs.1 hstep, Spoken.step he hs.1 hs.2 hstep⟩
  have hstart : ∀ conn, (start users messages).Spoken conn :=
    fun _ _ _ hfirst => by cases hfirst
  exact (hrun.invariant_of_mem _ hstep htimely ⟨served_start users messages, hstart⟩).2 conn

end Runs

end Server

namespace Wire

variable {υ μ : Type} (env : Env υ μ)

def Event.Timely : Event → Prop
  | .serve _ now _ => now < 2 ^ 63
  | _ => True

theorem timely_events {w : Wire υ μ} {e : Event} (h : e.Timely) :
    ∀ e' ∈ w.events e, Server.Timely e' := by
  cases e with
  | up conn => exact List.forall_mem_singleton.mpr trivial
  | receive conn chunk => exact List.forall_mem_nil _
  | serve conn now uninit =>
      simp only [events]
      split
      · exact List.forall_mem_singleton.mpr trivial
      split
      · split
        · split
          · exact List.forall_mem_singleton.mpr h
          split
          · exact List.forall_mem_singleton.mpr trivial
          · exact List.forall_mem_nil _
        · exact List.forall_mem_nil _
      · exact List.forall_mem_nil _
  | down conn => exact List.forall_mem_singleton.mpr trivial

theorem timely_history {es : List Event} (w : Wire υ μ) (h : ∀ e ∈ es, e.Timely) :
    ∀ e' ∈ w.history env es, Server.Timely e' := by
  induction es generalizing w with
  | nil => exact List.forall_mem_nil _
  | cons e es ih =>
      obtain ⟨he, hes⟩ := List.forall_mem_cons.mp h
      exact List.forall_mem_append.mpr ⟨timely_events he, ih _ hes⟩

-- A page that gets the bytes of the frames.
structure Follows (strtod : Bytes → Option Int32) (bufs : List Bytes) (ms : List ServerMessage) :
    Prop where
  frames : bufs = ms.map ServerMessage.frame
  payloads : (∀ m ∈ ms, m.json.render.length < 2 ^ 63) →
    Stream.Decodes clientFront bufs.flatten (ms.map fun m => m.json.render) []
  pages : ∀ page : Page, (ms.map fun m => m.json.render).foldlM (Page.onmessage strtod) page =
    some (ms.foldl Page.display page)

theorem follows_frames (strtod : Bytes → Option Int32) {ms : List ServerMessage}
    (h : ∀ m ∈ ms, m.Valid) : Follows strtod (ms.map ServerMessage.frame) ms where
  frames := rfl
  payloads hlength := by
    have hpayloads : ∀ payload ∈ ms.map fun m => m.json.render, payload.length < 2 ^ 63 :=
      List.forall_mem_map.mpr hlength
    have hread : Stream.Decodes clientFront
        ((ms.map fun m => m.json.render).flatMap encodeFrame ++ []) (ms.map fun m => m.json.render)
          [] :=
      Stream.decodes_flatMap
        (fun payload hpayload tail => clientFront_encodeFrame (hpayloads payload hpayload) tail)
        (Stream.blocked_of_wait clientFront_nil)
    rw [List.append_nil, List.flatMap_map] at hread
    exact hread
  pages page := by
    induction ms generalizing page with
    | nil => rfl
    | cons m ms ih =>
        obtain ⟨hm, hms⟩ := List.forall_mem_cons.mp h
        rw [List.map_cons, List.foldlM_cons, page.onmessage_render strtod hm]
        exact ih hms _

theorem exists_messages {bufs : List Bytes} (h : ∀ buf ∈ bufs, Server.IsMessage buf) :
    ∃ ms : List ServerMessage, (∀ m ∈ ms, m.Valid) ∧ bufs = ms.map ServerMessage.frame := by
  induction bufs with
  | nil => exact ⟨[], List.forall_mem_nil _, rfl⟩
  | cons buf bufs ih =>
      obtain ⟨⟨m, hm, rfl⟩, hbufs⟩ := List.forall_mem_cons.mp h
      obtain ⟨ms, hms, rfl⟩ := ih hbufs
      exact ⟨m :: ms, List.forall_mem_cons.mpr ⟨hm, hms⟩, rfl⟩

-- Whatever bytes come in, what a connection is sent behind its upgrade are messages that the
-- page understands, and it shows what the server said.
theorem pages_follow (strtod : Bytes → Option Int32) {users : υ} {messages : μ} {es : List Event}
    {w : Wire υ μ} (hrun : Path (Step env) (start users messages) es w)
    (htimely : ∀ e ∈ es, e.Timely) (conn : ConnId) :
    (w.server.conns conn).sent = [] ∨ Server.HttpResponse env (w.server.conns conn).sent ∨
      ∃ data bufs ms, isWebSocketUpgrade data = true ∧
        (w.server.conns conn).sent = generateHandshakeResponse env.crypto data :: bufs ∧
        (∀ m ∈ ms, m.Valid) ∧ Follows strtod bufs ms := by
  obtain ⟨s, hserver, hshows⟩ := path_history env hrun (.inl rfl)
  rw [hshows.conns]
  rcases (Server.served_run hserver conn).answer with hnone | hresponse | hupgrade
  · exact .inl hnone
  · exact .inr (.inl hresponse)
  · obtain ⟨data, bufs, hup, hsent, -⟩ := hupgrade
    have hspoken := Server.spoken_run hserver (timely_history env _ htimely) conn
    have hswitching : Server.switching <+: generateHandshakeResponse env.crypto data :=
      Server.switching_generateHandshakeResponse env.crypto data
    obtain ⟨ms, hms, rfl⟩ := exists_messages (hspoken _ _ hsent hswitching)
    exact .inr (.inr ⟨data, _, ms, hup, hsent, hms, follows_frames strtod hms⟩)

-- The sample server with the parser of the library; a page upgrades and logs in.
def parsingEnv : Env (List User) (List Message) :=
  { sampleEnv with parse := Json.parse fun _ => none }

def loginFrame : ClientFrame :=
  ⟨true, .text, .short, fun _ => 7,
    (Page.Action.login (ascii "alice") (ascii "wonder")).json.render, by decide⟩

def pageLogin : List Event :=
  [.up 0, .receive 0 sampleRequest, .serve 0 1700000000 fun _ => 0, .receive 0 loginFrame.encode,
    .serve 0 1700000000 fun _ => 0]

theorem timely_pageLogin : ∀ e ∈ pageLogin, e.Timely := by
  simp [pageLogin, Event.Timely]

theorem pages_follow_pageLogin :
    let w := play (next parsingEnv) (start sampleUsers []) pageLogin
    (w.server.conns 0).sent = [] ∨ Server.HttpResponse parsingEnv (w.server.conns 0).sent ∨
      ∃ data bufs ms, isWebSocketUpgrade data = true ∧
        (w.server.conns 0).sent = generateHandshakeResponse parsingEnv.crypto data :: bufs ∧
        (∀ m ∈ ms, m.Valid) ∧ Follows (fun _ => none) bufs ms :=
  pages_follow parsingEnv (fun _ => none)
    (path_of_plays parsingEnv (by decide +kernel)) timely_pageLogin 0

end Wire

end MyTestserver
