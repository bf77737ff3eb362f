import MyTestserver.HandshakeTheorems
import MyTestserver.Wire

namespace MyTestserver

open WebSocketHandler ChatServer SessionManager Transition

namespace Server

variable {υ μ : Type} (env : Env υ μ) (conn : ConnId)

section Responses

-- The responses to a request that is no upgrade.
inductive HttpResponse : List Bytes → Prop
  | badRequest : HttpResponse [ChatServer.badRequest]
  | notFound : HttpResponse [ChatServer.notFound]
  | fileNotFound : HttpResponse [ChatServer.fileNotFound]
  | file {path content : Bytes} (h : env.readFile path = some content) :
      HttpResponse [responseHeader path content, content]

-- The 101 response, and frames after it.
def UpgradeResponse (bufs : List Bytes) : Prop :=
  ∃ data frames, isWebSocketUpgrade data = true ∧
    bufs = generateHandshakeResponse env.crypto data :: frames ∧ ∀ buf ∈ frames, IsFrame buf

def Answer (bufs : List Bytes) : Prop :=
  bufs = [] ∨ HttpResponse env bufs ∨ UpgradeResponse env bufs

def sendAll (s : Server υ μ) (bufs : List Bytes) : Server υ μ :=
  bufs.foldl (fun s buf => s.send conn buf) s

theorem sends_sendAll (s : Server υ μ) (bufs : List Bytes) : Sends s (s.sendAll conn bufs) := by
  induction bufs generalizing s with
  | nil => exact .refl s
  | cons buf bufs ih => exact (s.sends_send conn buf).trans (ih _)

theorem sent_sendAll {s : Server υ μ} (hconn : s.connected conn = true) (bufs : List Bytes) :
    ((s.sendAll conn bufs).conns conn).sent = (s.conns conn).sent ++ bufs := by
  induction bufs generalizing s with
  | nil => exact (List.append_nil _).symm
  | cons buf bufs ih =>
      have hconn' : (s.send conn buf).connected conn = true := by
        rw [(s.sends_send conn buf).connected_eq, hconn]
      change (((s.send conn buf).sendAll conn bufs).conns conn).sent = _
      rw [ih hconn', s.sent_send conn hconn, List.append_assoc]
      rfl

theorem sendAll_idle {s : Server υ μ} (hconn : s.connected conn = false) (bufs : List Bytes) :
    s.sendAll conn bufs = s := by
  induction bufs with
  | nil => rfl
  | cons buf bufs ih =>
      change (s.send conn buf).sendAll conn bufs = s
      rw [send, if_neg (by simp [hconn]), ih]

theorem serveFile_result (s : Server υ μ) (path : Bytes) :
    ∃ bufs, HttpResponse env bufs ∧
      serveFile env conn s path = (s.sendAll conn bufs).shutdown conn := by
  unfold serveFile
  split
  · exact ⟨_, .notFound, rfl⟩
  split
  · exact ⟨_, .fileNotFound, rfl⟩
  · rename_i h
    exact ⟨_, .file h, rfl⟩

-- What the handshake does with data: it refuses, or it upgrades the connection.
def upgrade (s : Server υ μ) (data : Bytes) : Server υ μ :=
  let state := { s.connectionStates conn with isWebSocket := true }
  ((s.setConnectionState conn state).send conn
    (generateHandshakeResponse env.crypto data)).setConnectionState conn
      { state with handshakeComplete := true }

theorem handleHandshake_result (s : Server υ μ) (data : Bytes) :
    (isWebSocketUpgrade data = false ∧ ∃ bufs, HttpResponse env bufs ∧
      handleHandshake env conn s data = (s.sendAll conn bufs).shutdown conn) ∨
    isWebSocketUpgrade data = true ∧ handleHandshake env conn s data = s.upgrade env conn data := by
  unfold handleHandshake handleHttpRequest
  by_cases hup : isWebSocketUpgrade data = true
  · simp only [hup, if_true]
    exact .inr ⟨trivial, rfl⟩
  simp only [hup, if_false, Bool.false_eq_true]
  refine .inl ⟨trivial, ?_⟩
  by_cases hget : data.take 3 = ascii "GET"
  · rw [if_pos hget]
    cases Search.find data (ascii " ") 4 with
    | none => exact ⟨_, .badRequest, rfl⟩
    | some pathEnd => exact serveFile_result env conn s _
  · rw [if_neg hget]
    exact ⟨_, .badRequest, rfl⟩

end Responses

section Proceeds

def Sessionless (s : Server υ μ) : Prop := ∀ u, getConnection s.sessions u ≠ some conn

-- What serving any connections does to this one after its handshake: it may be shut down,
-- and takes frames for as long as it is not.
structure Proceeds (s t : Server υ μ) : Prop where
  connecting : (t.conns conn).state = .kConnecting → (s.conns conn).state = .kConnecting
  connected : t.connected conn = true → s.connected conn = true
  handshake : (t.connectionStates conn).handshakeComplete =
    (s.connectionStates conn).handshakeComplete
  upgraded : s.Upgraded conn → t.Upgraded conn
  idle : s.connected conn = false → (t.conns conn).sent = (s.conns conn).sent
  frames : Sent conn IsFrame s t

variable {conn}

theorem Proceeds.trans {s t u : Server υ μ} (h : Proceeds conn s t) (h' : Proceeds conn t u) :
    Proceeds conn s u where
  connecting hu := h.connecting (h'.connecting hu)
  connected hu := h.connected (h'.connected hu)
  handshake := h'.handshake.trans h.handshake
  upgraded hs := h'.upgraded (h.upgraded hs)
  idle hs := by
    have ht : t.connected conn = false := by
      by_contra ht
      rw [h.connected (by simpa using ht)] at hs
      cases hs
    rw [h'.idle ht, h.idle hs]
  frames := h.frames.trans conn h'.frames

-- A connection that is left alone.
theorem Proceeds.of_eq {s t : Server υ μ} (hconn : t.conns conn = s.conns conn)
    (hstate : t.connectionStates conn = s.connectionStates conn) : Proceeds conn s t where
  connecting := by rw [hconn]; exact id
  connected := by simp only [Server.connected, hconn]; exact id
  handshake := by rw [hstate]
  upgraded := by simp only [Upgraded, hstate]; exact id
  idle _ := by rw [hconn]
  frames := .of_eq conn (by rw [hconn])

theorem Proceeds.refl (s : Server υ μ) : Proceeds conn s s := .of_eq rfl rfl

theorem idle_send {s : Server υ μ} (hconn : s.connected conn = false) (other : ConnId)
    (buf : Bytes) : ((s.send other buf).conns conn).sent = (s.conns conn).sent := by
  by_cases hother : conn = other
  · subst hother
    rw [send, if_neg (by simp [hconn])]
  · exact sent_send_ne s other buf hother

theorem Proceeds.of_sends {s t : Server υ μ} (h : Sends s t)
    (hidle : s.connected conn = false → (t.conns conn).sent = (s.conns conn).sent)
    (hframes : Sent conn IsFrame s t) : Proceeds conn s t where
  connecting := by rw [h.state]; exact id
  connected := by rw [h.connected_eq]; exact id
  handshake := by rw [h.connectionStates]
  upgraded := (h.upgraded_iff conn).mpr
  idle := hidle
  frames := hframes

theorem proceeds_send (s : Server υ μ) (other : ConnId) {buf : Bytes} (hbuf : IsFrame buf) :
    Proceeds conn s (s.send other buf) :=
  .of_sends (s.sends_send other buf) (fun hconn => idle_send hconn other buf)
    (.send conn s other hbuf)

theorem proceeds_broadcastToAll (s : Server υ μ) {message : Bytes} (hmessage : IsFrame message)
    (excludeUsername : Bytes) : Proceeds conn s (s.broadcastToAll message excludeUsername) := by
  unfold broadcastToAll
  generalize receivers s.sessions s.connected excludeUsername = receivers
  induction receivers generalizing s with
  | nil => exact .refl s
  | cons other receivers ih => exact (proceeds_send s other hmessage).trans (ih _)

theorem proceeds_setUsername (s : Server υ μ) (other : ConnId) (name : Bytes) :
    Proceeds conn s (s.setUsername other name) where
  connecting := id
  connected := id
  handshake := by
    by_cases hother : conn = other
    · simp [setUsername, setConnectionState, hother]
    · simp [setUsername, setConnectionState, hother]
  upgraded := (s.upgraded_setUsername conn other name).mpr
  idle _ := rfl
  frames := .of_eq conn rfl

theorem closed_proceeds : Closed (Proceeds conn : Server υ μ → Server υ μ → Prop) where
  refl := .refl
  trans := .trans
  users _ _ := .of_eq rfl rfl
  messages _ _ := .of_eq rfl rfl
  sessions _ _ := .of_eq rfl rfl
  record _ _ := .of_eq rfl rfl
  setUsername := proceeds_setUsername
  sendResponse s other json := proceeds_send s other ⟨json, rfl⟩
  broadcast s text := proceeds_broadcastToAll s ⟨text, rfl⟩ []

theorem connectionStates_shutdown (s : Server υ μ) (other : ConnId) :
    (s.shutdown other).connectionStates = s.connectionStates := by
  unfold shutdown
  split <;> rfl

theorem proceeds_shutdown (s : Server υ μ) (other : ConnId) :
    Proceeds conn s (s.shutdown other) := by
  have hstate : ((s.shutdown other).conns conn).state = (s.conns conn).state ∨
      ((s.shutdown other).conns conn).state = .kDisconnecting := by
    unfold shutdown
    split
    · by_cases hother : conn = other
      · simp [hother]
      · simp [hother]
    · exact .inl rfl
  refine ⟨fun h => ?_, fun h => ?_, ?_, (s.upgraded_shutdown conn other).mpr, fun _ => ?_, ?_⟩
  · rcases hstate with hsame | hdown
    · rw [← hsame, h]
    · rw [hdown] at h
      cases h
  · rcases hstate with hsame | hdown
    · simpa [Server.connected, hsame] using h
    · simp [Server.connected, hdown] at h
  · rw [connectionStates_shutdown]
  · exact s.sent_shutdown other conn
  · exact .shutdown conn s other

end Proceeds

section Spares

-- A connection without a session gets none by the messages of others, and no output.
def Spares (s t : Server υ μ) : Prop :=
  s.Sessionless conn → t.Sessionless conn ∧ (t.conns conn).sent = (s.conns conn).sent

variable {conn}

theorem Spares.trans {s t u : Server υ μ} (h : Spares conn s t) (h' : Spares conn t u) :
    Spares conn s u := by
  intro hs
  obtain ⟨ht, hsent⟩ := h hs
  obtain ⟨hu, hsent'⟩ := h' ht
  exact ⟨hu, hsent'.trans hsent⟩

theorem Spares.of_sent {s t : Server υ μ} (hsessions : t.sessions = s.sessions)
    (h : s.Sessionless conn → (t.conns conn).sent = (s.conns conn).sent) : Spares conn s t :=
  fun hs => ⟨by rw [Sessionless, hsessions]; exact hs, h hs⟩

theorem spares_send (s : Server υ μ) {other : ConnId} (h : s.Sessionless conn → conn ≠ other)
    (buf : Bytes) : Spares conn s (s.send other buf) :=
  .of_sent (s.sends_send other buf).sessions fun hs => sent_send_ne s other buf (h hs)

theorem spares_broadcastToAll (s : Server υ μ) (message excludeUsername : Bytes) :
    Spares conn s (s.broadcastToAll message excludeUsername) := by
  refine .of_sent (s.sends_broadcastToAll message excludeUsername).sessions fun hs => ?_
  have hreceivers : conn ∉ receivers s.sessions s.connected excludeUsername := by
    intro hmem
    obtain ⟨_, u, hu⟩ := mem_receivers hmem
    exact hs u hu
  unfold broadcastToAll
  generalize receivers s.sessions s.connected excludeUsername = receivers at hreceivers ⊢
  clear hs
  induction receivers generalizing s with
  | nil => rfl
  | cons other receivers ih =>
      rw [List.mem_cons, not_or] at hreceivers
      rw [List.foldl_cons, ih _ hreceivers.2, sent_send_ne s other message hreceivers.1]

theorem closedBy_spares {other : ConnId} (hother : conn ≠ other) :
    ClosedBy other (Spares conn : Server υ μ → Server υ μ → Prop) where
  refl _ := .of_sent rfl fun _ => rfl
  trans := .trans
  users _ _ := .of_sent rfl fun _ => rfl
  messages _ _ := .of_sent rfl fun _ => rfl
  addSession s u now hs := by
    refine ⟨fun v hv => ?_, rfl⟩
    rw [getConnection_addSession] at hv
    split at hv
    · exact hother (Option.some.inj hv).symm
    · exact hs v hv
  removeSession s u hs := by
    refine ⟨fun v hv => ?_, rfl⟩
    rw [getConnection_removeSession] at hv
    split at hv
    · cases hv
    · exact hs v hv
  updateHeartbeat s u now hs := by
    refine ⟨fun v hv => ?_, rfl⟩
    rw [getConnection_updateHeartbeat] at hv
    exact hs v hv
  record _ _ := .of_sent rfl fun _ => rfl
  setUsername _ _ := .of_sent rfl fun _ => rfl
  reply s json := spares_send s (fun _ => hother) _
  notify s owner u json howner := by
    refine spares_send s (fun hs heq => ?_) _
    exact hs u (heq ▸ howner)
  broadcast s text := spares_broadcastToAll s _ []

theorem spares_shutdown (s : Server υ μ) (other : ConnId) : Spares conn s (s.shutdown other) :=
  .of_sent (s.quiet_shutdown other).sessions fun _ => s.sent_shutdown other conn

end Spares

section Events

variable {conn}

-- What the callbacks of another connection leave alone.

theorem conns_send_ne (s : Server υ μ) {other : ConnId} (hother : conn ≠ other) (buf : Bytes) :
    (s.send other buf).conns conn = s.conns conn := by
  unfold send
  split
  · simp [hother]
  · rfl

theorem conns_sendAll_ne (s : Server υ μ) {other : ConnId} (hother : conn ≠ other)
    (bufs : List Bytes) : (s.sendAll other bufs).conns conn = s.conns conn := by
  induction bufs generalizing s with
  | nil => rfl
  | cons buf bufs ih => exact (ih _).trans (conns_send_ne s hother buf)

theorem conns_setState_ne (s : Server υ μ) {other : ConnId} (hother : conn ≠ other)
    (state : StateE) : (s.setState other state).conns conn = s.conns conn := by
  simp [setState, hother]

theorem conns_shutdown_ne (s : Server υ μ) {other : ConnId} (hother : conn ≠ other) :
    (s.shutdown other).conns conn = s.conns conn := by
  unfold shutdown
  split
  · exact conns_setState_ne s hother _
  · rfl

theorem connectionStates_setConnectionState_ne (s : Server υ μ) {other : ConnId}
    (hother : conn ≠ other) (state : ConnectionState) :
    (s.setConnectionState other state).connectionStates conn = s.connectionStates conn := by
  simp [setConnectionState, hother]

theorem handleHandshake_ne (s : Server υ μ) {other : ConnId} (hother : conn ≠ other)
    (data : Bytes) :
    (handleHandshake env other s data).conns conn = s.conns conn ∧
      (handleHandshake env other s data).connectionStates conn = s.connectionStates conn := by
  rcases handleHandshake_result env other s data with ⟨_, bufs, _, hresult⟩ | ⟨_, hresult⟩
  · rw [hresult, conns_shutdown_ne _ hother, conns_sendAll_ne s hother, connectionStates_shutdown,
      (s.sends_sendAll other bufs).connectionStates]
    exact ⟨rfl, rfl⟩
  · rw [hresult]
    refine ⟨conns_send_ne (s.setConnectionState other _) hother _, ?_⟩
    rw [upgrade, connectionStates_setConnectionState_ne _ hother,
      (Server.sends_send _ other _).connectionStates,
      connectionStates_setConnectionState_ne _ hother]

-- Coming up and going down enter no session, and send nothing.
theorem onConnection_result (s : Server υ μ) (other : ConnId) :
    ∃ sessions : Sessions,
      (∀ u owner, getConnection sessions u = some owner →
        getConnection s.sessions u = some owner) ∧
      onConnection other s = { s with sessions := sessions }.setConnectionState other {} := by
  unfold onConnection
  split
  · exact ⟨s.sessions, fun _ _ h => h, rfl⟩
  rename_i hdown
  have hshutdown : ∀ t : Server υ μ, t.conns = s.conns → t.shutdown other = t := by
    intro t ht
    rw [shutdown, if_neg (by simpa [Server.connected, ht] using hdown)]
  dsimp only
  unfold ChatService.onDisconnect
  split
  · split
    · refine ⟨removeSession s.sessions (s.username other), fun u owner hu => ?_,
        hshutdown _ rfl⟩
      rw [getConnection_removeSession] at hu
      split at hu
      · cases hu
      · exact hu
    · exact ⟨s.sessions, fun _ _ h => h, hshutdown _ rfl⟩
  · exact ⟨s.sessions, fun _ _ h => h, hshutdown _ rfl⟩

-- How the callbacks of one connection look to another.

theorem apart_onConnection (s : Server υ μ) {other : ConnId} (hother : conn ≠ other)
    (state : StateE) : Proceeds conn s (onConnection other (s.setState other state)) ∧
      Spares conn s (onConnection other (s.setState other state)) := by
  obtain ⟨sessions, howned, hresult⟩ := onConnection_result (s.setState other state) other
  have hconn := conns_setState_ne s hother state
  rw [hresult]
  refine ⟨.of_eq hconn ?_, fun hs => ⟨fun u hu => hs u (howned u conn hu), congrArg Conn.sent hconn⟩⟩
  exact connectionStates_setConnectionState_ne _ hother _

theorem apart_handleHandshake (s : Server υ μ) {other : ConnId} (hother : conn ≠ other)
    (data : Bytes) : Proceeds conn s (handleHandshake env other s data) ∧
      Spares conn s (handleHandshake env other s data) := by
  obtain ⟨hconn, hstate⟩ := handleHandshake_ne env s hother data
  have hsessions := (quiet_handleHandshake env other s data).sessions
  exact ⟨.of_eq hconn hstate, .of_sent hsessions fun _ => congrArg Conn.sent hconn⟩

theorem conns_handleHandshake_idle {s : Server υ μ} (hconn : s.connected conn = false)
    (data : Bytes) : (handleHandshake env conn s data).conns = s.conns := by
  rcases handleHandshake_result env conn s data with ⟨_, bufs, _, hresult⟩ | ⟨_, hresult⟩
  · rw [hresult, sendAll_idle conn hconn, shutdown, if_neg (by simp [hconn])]
  · have hconn' : ∀ state, (s.setConnectionState conn state).connected conn = false :=
      fun _ => hconn
    rw [hresult, upgrade, send, if_neg (by simp [hconn'])]
    rfl

theorem conns_onConnection (s : Server υ μ) (other : ConnId) :
    (onConnection other s).conns = s.conns := by
  obtain ⟨sessions, _, hresult⟩ := onConnection_result s other
  rw [hresult]
  rfl

end Events

section Served

def Fresh (s : Server υ μ) (conn : ConnId) : Prop :=
  (s.connectionStates conn).handshakeComplete = false ∧ (s.conns conn).sent = [] ∧
    s.Sessionless conn

-- A connection before its UP callback, then before its handshake and after it, and what it
-- was sent by then.
structure Served (s : Server υ μ) (conn : ConnId) : Prop where
  answer : Answer env (s.conns conn).sent
  connecting : (s.conns conn).state = .kConnecting → s.Fresh conn
  connected : s.connected conn = true →
    s.Fresh conn ∨ s.Upgraded conn ∧ UpgradeResponse env (s.conns conn).sent

variable {env} {conn}

theorem UpgradeResponse.sent {s t : Server υ μ} (h : UpgradeResponse env (s.conns conn).sent)
    (hframes : Sent conn IsFrame s t) : UpgradeResponse env (t.conns conn).sent := by
  obtain ⟨data, frames, hup, hsent, hall⟩ := h
  obtain ⟨more, hmore, hall'⟩ := hframes
  refine ⟨data, frames ++ more, hup, by rw [hmore, hsent, List.cons_append], fun buf hbuf => ?_⟩
  rcases List.mem_append.mp hbuf with hbuf | hbuf
  · exact hall buf hbuf
  · exact hall' buf hbuf

theorem Fresh.not_upgraded {s : Server υ μ} (h : s.Fresh conn) : ¬s.Upgraded conn := by
  rintro ⟨hcomplete, _⟩
  rw [h.1] at hcomplete
  cases hcomplete

theorem Fresh.spare {s t : Server υ μ} (h : s.Fresh conn) (hproceeds : Proceeds conn s t)
    (hspares : Spares conn s t) : t.Fresh conn := by
  obtain ⟨hnew, hsent, hfree⟩ := h
  obtain ⟨hfree', hsame⟩ := hspares hfree
  exact ⟨hproceeds.handshake.trans hnew, hsame.trans hsent, hfree'⟩

-- A connection that is served after its handshake, or left alone before it.
theorem Served.proceed {s t : Server υ μ} (h : Served env s conn) (hproceeds : Proceeds conn s t)
    (hspares : ¬s.Upgraded conn → Spares conn s t) : Served env t conn := by
  have hfresh : s.Fresh conn → t.Fresh conn := fun hs =>
    hs.spare hproceeds (hspares hs.not_upgraded)
  refine ⟨?_, fun ht => hfresh (h.connecting (hproceeds.connecting ht)), fun ht => ?_⟩
  · by_cases hconn : s.connected conn = true
    · rcases h.connected hconn with hs | ⟨_, hresponse⟩
      · exact .inl (hfresh hs).2.1
      · exact .inr (.inr (hresponse.sent hproceeds.frames))
    · rw [hproceeds.idle (by simpa using hconn)]
      exact h.answer
  · rcases h.connected (hproceeds.connected ht) with hs | ⟨hup, hresponse⟩
    · exact .inl (hfresh hs)
    · exact .inr ⟨hproceeds.upgraded hup, hresponse.sent hproceeds.frames⟩

-- What is left is a connection in its own callbacks.

theorem Served.up {s : Server υ μ} (h : Served env s conn)
    (hconnecting : (s.conns conn).state = .kConnecting) :
    Served env (onConnection conn (s.setState conn .kConnected)) conn := by
  obtain ⟨sessions, howned, hresult⟩ := onConnection_result (s.setState conn .kConnected) conn
  obtain ⟨_, hsent, hfree⟩ := h.connecting hconnecting
  have hfresh : (onConnection conn (s.setState conn .kConnected)).Fresh conn := by
    rw [hresult]
    refine ⟨by simp [setConnectionState], ?_, fun u hu => hfree u (howned u conn hu)⟩
    simpa [setConnectionState, setState] using hsent
  refine ⟨.inl hfresh.2.1, fun _ => hfresh, fun _ => .inl hfresh⟩

theorem Served.down {s : Server υ μ} (h : Served env s conn) :
    Served env (onConnection conn (s.setState conn .kDisconnected)) conn := by
  obtain ⟨sessions, _, hresult⟩ := onConnection_result (s.setState conn .kDisconnected) conn
  rw [hresult]
  refine ⟨?_, fun ht => ?_, fun ht => ?_⟩
  · simpa [setConnectionState, setState] using h.answer
  · simp [setConnectionState] at ht
  · simp [setConnectionState, Server.connected] at ht

theorem Served.handshake {s : Server υ μ} (h : Served env s conn) (hopen : s.Open conn)
    (hnew : (s.connectionStates conn).handshakeComplete = false) (data : Bytes) :
    Served env (handleHandshake env conn s data) conn := by
  have hopen' := ((quiet_handleHandshake env conn s data).open_iff conn).mpr hopen
  have hconnecting : ((handleHandshake env conn s data).conns conn).state ≠ .kConnecting := by
    intro ht
    rcases hopen' with ht' | ht'
    · rw [ht'] at ht
      cases ht
    · rw [ht'] at ht
      cases ht
  by_cases hconn : s.connected conn = true
  · rcases h.connected hconn with ⟨_, hsent, _⟩ | ⟨hup, _⟩
    swap
    · rw [hup.1] at hnew
      cases hnew
    rcases handleHandshake_result env conn s data with
      ⟨_, bufs, hresponse, hresult⟩ | ⟨hup, hresult⟩
    · refine ⟨?_, fun ht => absurd ht hconnecting, fun ht => ?_⟩
      · rw [hresult, sent_shutdown, sent_sendAll conn hconn, hsent]
        exact .inr (.inl hresponse)
      · rw [hresult, connected_shutdown] at ht
        cases ht
    · obtain ⟨hsent', hup'⟩ := handleHandshake_upgrade env conn hconn hup
      have hresponse : UpgradeResponse env ((handleHandshake env conn s data).conns conn).sent :=
        ⟨data, [], hup, by rw [hsent', hsent]; rfl, by simp⟩
      exact ⟨.inr (.inr hresponse), fun ht => absurd ht hconnecting, fun _ => .inr ⟨hup', hresponse⟩⟩
  · have hconns : (handleHandshake env conn s data).conns = s.conns :=
      conns_handleHandshake_idle env (by simpa using hconn) data
    refine ⟨by rw [hconns]; exact h.answer, fun ht => absurd ht hconnecting, fun ht => ?_⟩
    exact absurd (by simpa [Server.connected, hconns] using ht) hconn

-- One step of the server, seen from any connection.
theorem Served.step {s t : Server υ μ} {e : MyTestserver.Event} (h : ∀ conn, Served env s conn)
    (hstep : Step env s e t) (conn : ConnId) : Served env t conn := by
  obtain ⟨_, hguard, rfl⟩ := hstep
  suffices hexec : Served env (s.exec env e).2 conn by
    unfold next
    split
    · rename_i t hresult
      rwa [hresult] at hexec
    · rename_i t hresult
      rw [hresult] at hexec
      exact ⟨hexec.answer, hexec.connecting, hexec.connected⟩
  cases e with
  | up other =>
      by_cases hother : conn = other
      · subst hother
        exact (h conn).up hguard
      · obtain ⟨hproceeds, hspares⟩ := apart_onConnection s hother .kConnected
        exact (h conn).proceed hproceeds fun _ => hspares
  | request other data =>
      by_cases hother : conn = other
      · subst hother
        exact (h conn).handshake hguard.1 hguard.2 data
      · obtain ⟨hproceeds, hspares⟩ := apart_handleHandshake env s hother data
        exact (h conn).proceed hproceeds fun _ => hspares
  | message other payload now =>
      refine (h conn).proceed ?_ fun hup => ?_
      · exact closed_proceeds.handleWebSocketMessage env other now s payload fun _ t =>
          proceeds_shutdown t other
      · have hother : conn ≠ other := fun heq => hup (heq ▸ hguard.2)
        exact (closedBy_spares hother).handleWebSocketMessage env now s payload fun _ t =>
          spares_shutdown t other
  | closeFrame other =>
      exact (h conn).proceed (proceeds_shutdown s other) fun _ => spares_shutdown s other
  | down other =>
      by_cases hother : conn = other
      · subst hother
        exact (h conn).down
      · obtain ⟨hproceeds, hspares⟩ := apart_onConnection s hother .kDisconnected
        exact (h conn).proceed hproceeds fun _ => hspares

theorem served_start (users : υ) (messages : μ) (conn : ConnId) :
    Served env (start users messages) conn := by
  have hfresh : (start users messages).Fresh conn := ⟨rfl, rfl, by simp [start, Sessionless,
    getConnection]⟩
  refine ⟨.inl rfl, fun _ => hfresh, fun ht => ?_⟩
  cases ht

theorem served_run {users : υ} {messages : μ} {es : List MyTestserver.Event} {s : Server υ μ}
    (hrun : Path (Step env) (start users messages) es s) (conn : ConnId) : Served env s conn :=
  hrun.invariant (fun s => ∀ conn, Served env s conn)
    (fun _ _ _ hs hstep => Served.step hs hstep) (served_start users messages) conn

end Served

end Server

namespace Wire

variable {υ μ : Type} (env : Env υ μ)

-- Whatever bytes come in on whatever connections, each of them is sent nothing, one HTTP
-- response, or the 101 response and frames.
theorem output_answer {users : υ} {messages : μ} {es : List Event} {w : Wire υ μ}
    (hrun : Path (Step env) (start users messages) es w) (conn : ConnId) :
    Server.Answer env (w.server.conns conn).sent := by
  obtain ⟨s, hserver, hshows⟩ := path_history env hrun (.inl rfl)
  rw [hshows.conns]
  exact (Server.served_run hserver conn).answer

-- A page that is not there, then an upgrade on the same connection, then a frame.
def lateUpgrade : List Event :=
  [.up 0, .receive 0 (ascii "GET /x HTTP/1.1\r\n\r\n"), .serve 0 1700000000 fun _ => 0,
    .receive 0 sampleRequest, .serve 0 1700000000 fun _ => 0,
    .receive 0 Server.sampleBehind, .serve 0 1700000000 fun _ => 0]

theorem output_answer_lateUpgrade :
    Server.Answer sampleEnv
      ((play (next sampleEnv) (start sampleUsers []) lateUpgrade).server.conns 0).sent :=
  output_answer sampleEnv (path_of_plays sampleEnv (by decide +kernel)) 0

end Wire

end MyTestserver
