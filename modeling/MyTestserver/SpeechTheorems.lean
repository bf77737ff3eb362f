import MyTestserver.HistoryTheorems
import MyTestserver.MessageTheorems

namespace MyTestserver

open SessionManager ChatService ChatServer Transition

namespace SessionManager

variable {sessions : Sessions} {connected : ConnId → Bool} {conn : ConnId} {u : Bytes}

-- The owner of one session gets a broadcast once.
theorem count_receivers (howner : getConnection sessions u = some conn)
    (hone : ∀ v, getConnection sessions v = some conn → v = u) (hname : u ≠ [])
    (hconnected : connected conn = true) : (receivers sessions connected []).count conn = 1 := by
  have hentry : ∀ entry ∈ sessions.entries,
      ((entry.2.conn == conn && (entry.1 ≠ [] && connected entry.2.conn)) = true ↔
        (entry.1 == u) = true) := by
    rintro ⟨v, session⟩ hmem
    have howned : getConnection sessions v = some session.conn := by
      rw [getConnection, AList.mem_lookup_iff.mpr hmem]
      rfl
    simp only [Bool.and_eq_true, beq_iff_eq, decide_eq_true_eq]
    constructor
    · rintro ⟨hconn, _⟩
      exact hone v (hconn ▸ howned)
    · rintro rfl
      have hconn : session.conn = conn := Option.some.inj (howned.symm.trans howner)
      exact ⟨hconn, hname, hconn ▸ hconnected⟩
  have hkey : u ∈ sessions.keys := mem_getOnlineUsers_iff.mpr ⟨conn, howner⟩
  have hkeys : sessions.keys.count u = 1 := List.count_eq_one_of_mem sessions.keys_nodup hkey
  rw [receivers, List.count, List.countP_map, List.countP_filter, ← hkeys, AList.keys, List.keys,
    List.count, List.countP_map]
  exact List.countP_congr hentry

end SessionManager

namespace ServerMessage

def said : ServerMessage → Option (Bytes × Bytes)
  | .broadcast sender content _ => some (sender, content)
  | _ => none

theorem Answer.said {m : ServerMessage} (h : m.Answer) : m.said = none := by
  cases m with
  | broadcast sender content timestamp => exact h.elim
  | _ => rfl

theorem said_answers {ms : List ServerMessage} (h : ∀ m ∈ ms, m.Answer) :
    ms.filterMap ServerMessage.said = [] :=
  List.filterMap_eq_nil_iff.mpr fun m hm => (h m hm).said

end ServerMessage

namespace Event

variable {υ μ : Type} (env : Env υ μ)

-- What makes the server read the history, and how much of it.
def AsksHistory (conn : ConnId) (limit : ℤ) (e : Event) : Prop :=
  (∃ u password, e.Login env conn u password) ∧ limit = 50 ∨ e.Asks env conn (.get_history limit)

end Event

namespace Server

variable {υ μ : Type} {env : Env υ μ}

section Hears

-- Between the two states the connection was told these messages.
structure Hears (conn : ConnId) (s t : Server υ μ) (ms : List ServerMessage) : Prop where
  sent : (t.conns conn).sent = (s.conns conn).sent ++ ms.map ServerMessage.frame
  valid : ∀ m ∈ ms, m.Valid

variable {conn : ConnId} {s t u : Server υ μ} {ms ms' : List ServerMessage}

theorem Hears.of_eq (h : (t.conns conn).sent = (s.conns conn).sent) : Hears conn s t [] :=
  ⟨by rw [h, List.map_nil, List.append_nil], List.forall_mem_nil _⟩

theorem Hears.trans (h : Hears conn s t ms) (h' : Hears conn t u ms') :
    Hears conn s u (ms ++ ms') where
  sent := by rw [h'.sent, h.sent, List.map_append, List.append_assoc]
  valid := List.forall_mem_append.mpr ⟨h.valid, h'.valid⟩

theorem exists_answers {bufs : List Bytes} (h : ∀ buf ∈ bufs, IsAnswer buf) :
    ∃ ms : List ServerMessage, (∀ m ∈ ms, m.Answer) ∧ (∀ m ∈ ms, m.Valid) ∧
      bufs = ms.map ServerMessage.frame := by
  induction bufs with
  | nil => exact ⟨[], List.forall_mem_nil _, List.forall_mem_nil _, rfl⟩
  | cons buf bufs ih =>
      obtain ⟨⟨m, hm, hanswer, rfl⟩, hbufs⟩ := List.forall_mem_cons.mp h
      obtain ⟨ms, hanswers, hms, rfl⟩ := ih hbufs
      exact ⟨m :: ms, List.forall_mem_cons.mpr ⟨hanswer, hanswers⟩,
        List.forall_mem_cons.mpr ⟨hm, hms⟩, rfl⟩

theorem Hears.of_answers (h : Sent conn IsAnswer s t) :
    ∃ ms, Hears conn s t ms ∧ ∀ m ∈ ms, m.Answer := by
  obtain ⟨bufs, hsent, hbufs⟩ := h
  obtain ⟨ms, hanswers, hms, rfl⟩ := exists_answers hbufs
  exact ⟨ms, ⟨hsent, hms⟩, hanswers⟩

end Hears

section Handlers

variable (conn : ConnId) (s : Server υ μ)

theorem sent_broadcastToAll (message excludeUsername : Bytes) :
    ((s.broadcastToAll message excludeUsername).conns conn).sent =
      (s.conns conn).sent ++
        List.replicate ((receivers s.sessions s.connected excludeUsername).count conn) message := by
  have hconnected : ∀ other ∈ receivers s.sessions s.connected excludeUsername,
      s.connected other = true := fun other hother => (mem_receivers hother).1
  unfold broadcastToAll
  generalize receivers s.sessions s.connected excludeUsername = receivers at hconnected ⊢
  induction receivers generalizing s with
  | nil => simp
  | cons other receivers ih =>
      obtain ⟨hother, hrest⟩ := List.forall_mem_cons.mp hconnected
      have hsame := (s.sends_send other message).connected_eq
      have htail := ih (s.send other message) fun c hc => (hsame c).trans (hrest c hc)
      rw [List.foldl_cons, htail]
      by_cases heq : conn = other
      · subst heq
        rw [s.sent_send conn hother, List.count_cons_self, List.replicate_succ, List.append_assoc]
        rfl
      · rw [s.sent_send_ne other message heq, List.count_cons_of_ne (Ne.symm heq)]

variable {conn s}

-- A message that goes out, as it stands in the record and as a connection gets it.

theorem publish_trace {now : ℕ} {user : User} {sender content : Bytes}
    (hok : (publish env now s user sender content).1 = .ok ()) :
    (publish env now s user sender content).2.trace =
      s.trace ++ [.saved sender user.id content, .broadcast sender content] := by
  unfold publish at hok ⊢
  dsimp only at hok ⊢
  split at hok
  · have hsaved : s.trace ++ [.saved sender user.id content, .broadcast sender content] =
        s.trace ++ [.saved sender user.id content] ++ [.broadcast sender content] := by simp
    rw [Server.record, (Server.sends_broadcastToAll _ _ _).trace, hsaved]
    rfl
  · cases hok

theorem hears_publish {now : ℕ} (hnow : now < 2 ^ 63) {user : User} {sender content : Bytes}
    (hok : (publish env now s user sender content).1 = .ok ()) :
    Hears conn s (publish env now s user sender content).2
      (.replicate ((receivers s.sessions s.connected []).count conn)
        (.broadcast sender content now)) := by
  unfold publish at hok ⊢
  dsimp only at hok ⊢
  split at hok
  · rename_i text hdump
    obtain ⟨hutf8, rfl⟩ := Json.eq_render_of_dump hdump
    refine ⟨?_, fun m hm => ?_⟩
    · rw [List.map_replicate]
      exact sent_broadcastToAll conn _ _ []
    · rw [List.eq_of_mem_replicate hm]
      exact ServerMessage.valid_broadcast hnow hutf8
  · cases hok

theorem hears_handleGetHistory {limit : ℤ}
    (hok : (handleGetHistory env conn s limit).1 = .ok ()) (hconnected : s.connected conn = true) :
    Hears conn s (handleGetHistory env conn s limit).2
      [.history (env.messageDao.getRecentMessages s.messages limit).1] := by
  unfold handleGetHistory at hok ⊢
  dsimp only at hok ⊢
  split at hok
  · rename_i text hdump
    obtain ⟨hutf8, rfl⟩ := Json.eq_render_of_dump hdump
    refine ⟨?_, List.forall_mem_singleton.mpr ((historyResponse_utf8_iff _).mp hutf8)⟩
    have hconnected' : ({ s with
        messages := (env.messageDao.getRecentMessages s.messages limit).2 } :
          Server υ μ).connected conn = true := hconnected
    rw [sendHistory, if_pos hconnected']
    exact sent_send _ conn hconnected' _
  · cases hok

-- Another connection hears nothing of a history, nor does one that is not connected.
theorem sent_handleGetHistory_idle (env : Env υ μ) (other : ConnId) (limit : ℤ)
    (h : conn ≠ other ∨ s.connected conn = false) :
    ((handleGetHistory env other s limit).2.conns conn).sent = (s.conns conn).sent := by
  unfold handleGetHistory sendHistory
  dsimp only
  split
  · dsimp only
    split
    · rename_i hconnected
      rcases h with hother | hidle
      · exact sent_send_ne { s with messages := _ } other _ hother
      · have hidle' : ({ s with
            messages := (env.messageDao.getRecentMessages s.messages limit).2 } :
              Server υ μ).connected conn = false := hidle
        exact idle_send hidle' other _
    · rfl
  · rfl

end Handlers

section Speech

-- What a step tells a connection: what was said goes to it once for each of its sessions,
-- and a history to the connection that asks.
inductive Speech (env : Env υ μ) (s : Server υ μ) (e : Event) (conn : ConnId) :
    List ServerMessage → Prop
  | answers {ms : List ServerMessage} (hsilent : s.publication env e = none)
      (hasks : s.connected conn = true → ∀ limit, ¬e.AsksHistory env conn limit)
      (hanswers : ∀ m ∈ ms, m.Answer) : Speech env s e conn ms
  | broadcast {user : User} {sender content : Bytes} (now : ℕ)
      (hsaid : s.publication env e = some (user, sender, content)) :
      Speech env s e conn
        (.replicate ((receivers s.sessions s.connected []).count conn)
          (.broadcast sender content now))
  | history {ms : List ServerMessage} {limit : ℤ} (hsilent : s.publication env e = none)
      (hasks : e.AsksHistory env conn limit) (hanswers : ∀ m ∈ ms, m.Answer) :
      Speech env s e conn
        (ms ++ [.history (env.messageDao.getRecentMessages s.messages limit).1])

variable {conn other : ConnId} {s t : Server υ μ} {payload : Bytes} {now : ℕ} {request : Request}

theorem publication_message (s : Server υ μ) (other : ConnId) (now : ℕ)
    (hdecode : decode env payload = .ok request) :
    s.publication env (.message other payload now) =
      match request with
      | .chat content =>
          (s.author env (s.username other) content).map fun user =>
            (user, s.username other, content)
      | _ => none := by
  cases request with
  | chat content => simp only [publication, hdecode]
  | _ => simp only [publication, hdecode]

theorem asksHistory_message (hdecode : decode env payload = .ok request) {limit : ℤ} :
    (Event.message other payload now).AsksHistory env conn limit ↔
      conn = other ∧ ((∃ u password, request = .login u password) ∧ limit = 50 ∨
        request = .get_history limit) := by
  have hasks : ∀ request', (Event.message other payload now).Asks env conn request' ↔
      conn = other ∧ request = request' := by
    intro request'
    constructor
    · rintro ⟨payload', now', heq, hdecode'⟩
      cases heq
      exact ⟨rfl, Except.ok.inj (hdecode.symm.trans hdecode')⟩
    · rintro ⟨rfl, rfl⟩
      exact ⟨payload, now, rfl, hdecode⟩
  simp only [Event.AsksHistory, Event.Login, hasks, exists_and_left]
  rw [and_assoc, ← and_or_left]

-- Where no history is asked for and nothing is said, there are answers only.
theorem exists_speech_of_answers (hdecode : decode env payload = .ok request)
    (hlogin : ∀ u password, request ≠ .login u password)
    (hhistory : ∀ limit, request ≠ .get_history limit)
    (hsilent : s.publication env (.message other payload now) = none)
    (hsent : Sent conn IsAnswer s t) :
    ∃ ms, Hears conn s t ms ∧ Speech env s (.message other payload now) conn ms := by
  obtain ⟨ms, hears, hanswers⟩ := Hears.of_answers hsent
  refine ⟨ms, hears, .answers hsilent (fun _ limit hasks => ?_) hanswers⟩
  rcases ((asksHistory_message hdecode).mp hasks).2 with ⟨⟨u, password, hrequest⟩, -⟩ | hrequest
  · exact hlogin u password hrequest
  · exact hhistory limit hrequest

-- A handler that ends with a history.
theorem exists_speech_of_history {limit : ℤ} (hsent : Sent conn IsAnswer s t)
    (hconnected : t.connected conn = s.connected conn) (hmessages : t.messages = s.messages)
    (hok : (handleGetHistory env other t limit).1 = .ok ())
    (hasks : ∀ c limit', (Event.message other payload now).AsksHistory env c limit' ↔
      c = other ∧ limit' = limit)
    (hsilent : s.publication env (.message other payload now) = none) :
    ∃ ms, Hears conn s (handleGetHistory env other t limit).2 ms ∧
      Speech env s (.message other payload now) conn ms := by
  obtain ⟨ms, hears, hanswers⟩ := Hears.of_answers hsent
  by_cases hidle : conn ≠ other ∨ t.connected conn = false
  · have hquiet := sent_handleGetHistory_idle env other limit hidle
    refine ⟨ms ++ [], hears.trans (.of_eq hquiet), ?_⟩
    rw [List.append_nil]
    refine .answers hsilent (fun hup limit' hlimit => ?_) hanswers
    obtain ⟨rfl, -⟩ := (hasks conn limit').mp hlimit
    rw [← hconnected] at hup
    rcases hidle with hne | hdown
    · exact hne rfl
    · rw [hdown] at hup
      cases hup
  · obtain ⟨heq, hup⟩ := not_or.mp hidle
    obtain rfl := not_not.mp heq
    refine ⟨_, hears.trans (hears_handleGetHistory hok (by simpa using hup)), ?_⟩
    rw [hmessages]
    exact .history hsilent ((hasks conn limit).mpr ⟨rfl, rfl⟩) hanswers

theorem exists_speech_chat (hdecode : decode env payload = .ok request) {content : Bytes}
    (hchat : request = .chat content) (hnow : now < 2 ^ 63)
    (hok : (handleChat env now s (s.username other) content).1 = .ok ()) :
    ∃ ms, Hears conn s (handleChat env now s (s.username other) content).2 ms ∧
      Speech env s (.message other payload now) conn ms := by
  subst hchat
  have hpublication := publication_message s other now hdecode
  dsimp only at hpublication
  cases hauthor : s.author env (s.username other) content with
  | none =>
      rw [hauthor] at hpublication
      obtain ⟨users, hresult⟩ := handleChat_no_author hauthor now
      rw [hresult]
      exact exists_speech_of_answers hdecode (by simp) (by simp) hpublication (.of_eq conn rfl)
  | some user =>
      rw [hauthor] at hpublication
      obtain ⟨users, hresult⟩ := handleChat_author hauthor now
      rw [hresult] at hok ⊢
      have hears : Hears conn _ _ _ := hears_publish hnow hok
      exact ⟨_, ⟨hears.sent, hears.valid⟩, .broadcast now hpublication⟩

theorem exists_speech_dispatch (hdecode : decode env payload = .ok request) (hnow : now < 2 ^ 63)
    (hok : (dispatch env other now s request).1 = .ok ()) :
    ∃ ms, Hears conn s (dispatch env other now s request).2 ms ∧
      Speech env s (.message other payload now) conn ms := by
  have hpublication := publication_message s other now hdecode
  cases request with
  | register username password =>
      exact exists_speech_of_answers hdecode (by simp) (by simp) hpublication
        (sent_handleRegister env other s username password)
  | login username password =>
      have hsent : Sent conn IsAnswer (s.setUsername other username)
          (handleLogin env other now (s.setUsername other username) username password).2 :=
        sent_handleLogin env other now _ username password
      have hconnected := connected_handleLogin env other conn now (s.setUsername other username)
        username password
      have hmessages := messages_handleLogin env other now (s.setUsername other username) username
        password
      simp only [dispatch] at hok ⊢
      generalize handleLogin env other now (s.setUsername other username) username password =
        outcome at hsent hconnected hmessages hok ⊢
      obtain ⟨_ | _, t⟩ := outcome
      · cases hok
      · refine exists_speech_of_history hsent hconnected hmessages hok (fun c limit => ?_)
          hpublication
        rw [asksHistory_message hdecode]
        simp
  | logout =>
      refine exists_speech_of_answers hdecode (by simp) (by simp) hpublication ?_
      exact sent_andThen s (sent_handleLogout other s _) fun _ => .of_eq conn rfl
  | chat content => exact exists_speech_chat hdecode rfl hnow hok
  | heartbeat =>
      exact exists_speech_of_answers hdecode (by simp) (by simp) hpublication
        (sent_handleHeartbeat now s hnow _)
  | get_history limit =>
      refine exists_speech_of_history (.refl conn s) rfl rfl hok (fun c limit' => ?_) hpublication
      rw [asksHistory_message hdecode]
      simp [eq_comm]
  | unknown msgType =>
      exact exists_speech_of_answers hdecode (by simp) (by simp) hpublication (.refl conn s)

-- Whatever a step does, a connection behind its handshake is told nothing else.
theorem exists_speech {e : Event} (htimely : Timely e) (hup : s.Upgraded conn) (hguard : s.Guard e)
    (hok : (s.exec env e).1 = .ok ()) :
    ∃ ms, Hears conn s (s.exec env e).2 ms ∧ Speech env s e conn ms := by
  have hquiet : ∀ {t : Server υ μ}, (t.conns conn).sent = (s.conns conn).sent →
      s.publication env e = none → (∀ limit, ¬e.AsksHistory env conn limit) →
      ∃ ms, Hears conn s t ms ∧ Speech env s e conn ms := fun hsent hsilent hasks =>
    ⟨[], .of_eq hsent, .answers hsilent (fun _ => hasks) (List.forall_mem_nil _)⟩
  have hstate : ∀ other state,
      ((onConnection other (s.setState other state)).conns conn).sent = (s.conns conn).sent := by
    intro other state
    rw [conns_onConnection, setState]
    by_cases hother : conn = other
    · simp [hother]
    · simp [hother]
  cases e with
  | up other =>
      exact hquiet (hstate other .kConnected) rfl (by simp [Event.AsksHistory, Event.Login,
        Event.Asks])
  | request other data =>
      have hother : conn ≠ other := by
        rintro rfl
        have hnew := hguard.2
        rw [hup.1] at hnew
        cases hnew
      exact hquiet (congrArg Conn.sent (handleHandshake_ne env s hother data).1) rfl
        (by simp [Event.AsksHistory, Event.Login, Event.Asks])
  | message other payload now =>
      simp only [exec] at hok ⊢
      cases hdecode : decode env payload with
      | ok request =>
          rw [handleWebSocketMessage_decoded env other now s hdecode] at hok ⊢
          exact exists_speech_dispatch hdecode htimely hok
      | error error =>
          by_cases hparse : error = .parse_error
          · subst hparse
            rw [handleWebSocketMessage_parse_error env other now s hdecode]
            have hsent : Sent conn IsAnswer s
                (s.sendResponse other errorMessage.render) :=
              .send conn s other ⟨.error, trivial, trivial, rfl⟩
            obtain ⟨ms, hears, hanswers⟩ := Hears.of_answers hsent
            refine ⟨ms, hears, .answers (by simp [publication, hdecode]) ?_ hanswers⟩
            simp [Event.AsksHistory, Event.Login, Event.Asks, hdecode]
          · rw [handleWebSocketMessage_uncaught env other now s hdecode hparse] at hok
            cases hok
  | closeFrame other =>
      exact hquiet (s.sent_shutdown other conn) rfl (by simp [Event.AsksHistory, Event.Login,
        Event.Asks])
  | down other =>
      exact hquiet (hstate other .kDisconnected) rfl (by simp [Event.AsksHistory, Event.Login,
        Event.Asks])

end Speech

section Conversation

variable {users : υ} {messages : μ} {conn : ConnId} {s t : Server υ μ} {e : Event}
  {es es' : List Event} {u : Bytes}

-- Everything that was broadcast, in order.
def conversation (s : Server υ μ) : List (Bytes × Bytes) := s.trace.filterMap Effect.said

theorem Logs.conversation_eq {p : Effect → Prop} (h : Logs p s t)
    (hp : ∀ sender content, ¬p (.broadcast sender content)) : t.conversation = s.conversation := by
  obtain ⟨new, htrace, hnew⟩ := h
  have hnone : new.filterMap Effect.said = [] := by
    refine List.filterMap_eq_nil_iff.mpr fun x hx => ?_
    cases x with
    | broadcast sender content => exact absurd (hnew _ hx) (hp sender content)
    | _ => rfl
  rw [conversation, htrace, List.filterMap_append, hnone, List.append_nil, conversation]

theorem publish_conversation {now : ℕ} {user : User} {sender content : Bytes}
    (hok : (publish env now s user sender content).1 = .ok ()) :
    (publish env now s user sender content).2.conversation =
      s.conversation ++ [(sender, content)] := by
  have hsaid : [Effect.saved sender user.id content, .broadcast sender content].filterMap
      Effect.said = [(sender, content)] := rfl
  rw [conversation, publish_trace hok, List.filterMap_append, hsaid, conversation]

-- A step adds what is said in it.
theorem conversation_exec (hok : (s.exec env e).1 = .ok ()) :
    (s.exec env e).2.conversation =
      s.conversation ++ (s.publication env e).toList.map Prod.snd := by
  cases hpublished : s.publication env e with
  | some published =>
      obtain ⟨user, sender, content⟩ := published
      obtain ⟨conn, ⟨payload, now, rfl, hdecode⟩, rfl, hauthor⟩ :=
        publication_eq_some_iff.mp hpublished
      obtain ⟨users, hresult⟩ := handleChat_author hauthor now
      rw [exec, handleWebSocketMessage_decoded env conn now s hdecode, dispatch, hresult] at hok ⊢
      exact publish_conversation hok
  | none =>
      rw [Option.toList_none, List.map_nil, List.append_nil]
      by_cases hchat : ∃ conn content, e.Asks env conn (.chat content)
      · obtain ⟨conn, content, payload, now, rfl, hdecode⟩ := hchat
        have hauthor : s.author env (s.username conn) content = none := by
          simpa [publication, hdecode] using hpublished
        obtain ⟨users, hresult⟩ := handleChat_no_author hauthor now
        rw [exec, handleWebSocketMessage_decoded env conn now s hdecode, dispatch, hresult]
        rfl
      · simp only [not_exists] at hchat
        refine (logs_exec env s e).conversation_eq fun sender content hexplained => ?_
        obtain ⟨conn, hasks, _⟩ := hexplained
        exact hchat conn content hasks

theorem Speech.said {ms : List ServerMessage} (h : Speech env s e conn ms)
    (honce : (receivers s.sessions s.connected []).count conn = 1) :
    ms.filterMap ServerMessage.said = (s.publication env e).toList.map Prod.snd := by
  cases h with
  | answers hsilent _ hanswers =>
      rw [hsilent, ServerMessage.said_answers hanswers]
      rfl
  | broadcast now hsaid =>
      rw [hsaid, honce]
      rfl
  | history hsilent _ hanswers =>
      rw [hsilent, List.filterMap_append, ServerMessage.said_answers hanswers]
      rfl

theorem exclusive_run
    (hrun : Path (restrict (OneUser env) (Step env)) (start users messages) es s) :
    s.registry.Named (· ≠ []) ∧ s.registry.Exclusive := by
  refine hrun.invariant (fun s => s.registry.Named (· ≠ []) ∧ s.registry.Exclusive)
    (fun s e t hs hst => ?_) ⟨named_start _ users messages, fun conn u hu => ?_⟩
  · have hempty := holder_empty hs.1
    have hpath := step_refines env hempty hst.2 (faithful_of_oneUser env hempty hst.1)
    exact ⟨named_step env hempty hs.1 (fun _ _ _ _ hname => hname) hst.2,
      hpath.invariant Registry.Exclusive (fun r a r' hr hs => hr.step hs.1 hs.2) hs.2⟩
  · cases hu

-- A connection that is open and connected after a step was so before it.
theorem connected_exec (hopen : s.Open conn) (hguard : s.Guard e)
    (h : (s.exec env e).2.connected conn = true) : s.connected conn = true := by
  cases e with
  | up other =>
      by_cases hother : conn = other
      · subst hother
        have hconnecting : (s.conns conn).state = .kConnecting := hguard
        rcases hopen with hup | hup
        · rw [hup] at hconnecting
          cases hconnecting
        · rw [hup] at hconnecting
          cases hconnecting
      · exact (apart_onConnection s hother .kConnected).1.connected h
  | request other data =>
      by_cases hother : conn = other
      · subst hother
        by_contra hidle
        have hconns := conns_handleHandshake_idle env (by simpa using hidle) data
        have hsame : (s.exec env (.request conn data)).2.connected conn = s.connected conn := by
          rw [exec, connected, connected, hconns]
        exact hidle (hsame ▸ h)
      · exact (apart_handleHandshake env s hother data).1.connected h
  | message other payload now =>
      refine Proceeds.connected ?_ h
      exact closed_proceeds.handleWebSocketMessage env other now s payload fun _ t =>
        proceeds_shutdown t other
  | closeFrame other => exact (proceeds_shutdown s other).connected h
  | down other =>
      by_cases hother : conn = other
      · subst hother
        rw [exec, connected, conns_onConnection] at h
        simp at h
      · exact (apart_onConnection s hother .kDisconnected).1.connected h

-- What the owner of a session is told in a step, as long as it stays connected.
theorem hears_step (hrun : Path (restrict (OneUser env) (Step env)) (start users messages) es s)
    (htimely : Timely e) (hstep : Step env s e t) (hrunning : t.running = true)
    (howner : getConnection s.sessions u = some conn) (hconnected : t.connected conn = true) :
    s.connected conn = true ∧ ∃ ms, Hears conn s t ms ∧ Speech env s e conn ms ∧
      ms.filterMap ServerMessage.said = (s.publication env e).toList.map Prod.snd ∧
      t.conversation = s.conversation ++ ms.filterMap ServerMessage.said := by
  obtain ⟨hnamed, hexclusive⟩ := exclusive_run hrun
  obtain ⟨_, hguard, rfl⟩ := hstep
  obtain ⟨hok, hnext⟩ := next_eq_exec env hrunning
  rw [hnext] at hconnected ⊢
  obtain ⟨hclaim, hopen⟩ := hexclusive conn u howner
  have hup := connected_exec hopen hguard hconnected
  have hupgraded : s.Upgraded conn := by
    rcases (served_run hrun.unrestrict conn).connected hup with hfresh | hupgraded
    · exact absurd howner (hfresh.2.2 u)
    · exact hupgraded.1
  have hone : ∀ v, getConnection s.sessions v = some conn → v = u := by
    intro v hv
    have hclaim' := (hexclusive conn v hv).1
    rw [hclaim] at hclaim'
    exact (Option.some.inj hclaim').symm
  have hcount := count_receivers howner hone (hnamed.1 u conn howner) hup
  obtain ⟨ms, hears, hspeech⟩ := exists_speech htimely hupgraded hguard hok
  have hsaid := hspeech.said hcount
  refine ⟨hup, ms, hears, hspeech, hsaid, ?_⟩
  rw [conversation_exec hok, hsaid]

-- As long as a connection owns a session and stays connected it is told everything that is
-- said, each message once and in order, and nothing that was not said.
theorem hears_everything
    (hrun : Path (restrict (OneUser env) (Step env)) (start users messages) es s)
    (hrest : Path (restrict (fun s e => s.OneUser env e ∧ getConnection s.sessions u = some conn)
      (Step env)) s es' t)
    (htimely : ∀ e ∈ es', Timely e) (hrunning : t.running = true)
    (hconnected : t.connected conn = true) :
    ∃ ms : List ServerMessage, (∀ m ∈ ms, m.Valid) ∧
      (t.conns conn).sent = (s.conns conn).sent ++ ms.map ServerMessage.frame ∧
      t.conversation = s.conversation ++ ms.filterMap ServerMessage.said := by
  suffices hheard : s.connected conn = true ∧ ∃ ms, Hears conn s t ms ∧
      t.conversation = s.conversation ++ ms.filterMap ServerMessage.said by
    obtain ⟨_, ms, hears, hsaid⟩ := hheard
    exact ⟨ms, hears.valid, hears.sent, hsaid⟩
  induction hrest generalizing es with
  | nil s => exact ⟨hconnected, [], .of_eq rfl, by simp⟩
  | @cons s t v e es' hstep hrest ih =>
      obtain ⟨⟨hone, howner⟩, hstep⟩ := hstep
      obtain ⟨he, hes'⟩ := List.forall_mem_cons.mp htimely
      have hrunning' : t.running = true := by
        cases hrest with
        | nil => exact hrunning
        | cons hnext _ => exact hnext.2.1
      obtain ⟨hup, ms', hears', hsaid'⟩ := ih (hrun.snoc ⟨hone, hstep⟩) hes' hrunning hconnected
      obtain ⟨hup, ms, hears, -, -, hsaid⟩ := hears_step hrun he hstep hrunning' howner hup
      refine ⟨hup, ms ++ ms', hears.trans hears', ?_⟩
      rw [hsaid', hsaid, List.filterMap_append, List.append_assoc]

-- Alice and Bob are logged in, and Bob is told what Alice says.

def sampleMeeting : List Event :=
  connects 0 ++ connects 1 ++
    [tells 0 (loginJson "alice" "wonder"), tells 1 (loginJson "bob" "builder")]

theorem hears_everything_sampleMeeting :
    let s := sampleStart.play sampleEnv sampleMeeting
    let t := s.play sampleEnv [tells 0 (chatJson "hi")]
    ∃ ms : List ServerMessage, (∀ m ∈ ms, m.Valid) ∧
      (t.conns 1).sent = (s.conns 1).sent ++ ms.map ServerMessage.frame ∧
      t.conversation = s.conversation ++ ms.filterMap ServerMessage.said := by
  have hrun : Path (restrict (OneUser sampleEnv) (Step sampleEnv)) sampleStart sampleMeeting
      (sampleStart.play sampleEnv sampleMeeting) := path_of_plays sampleEnv (by decide +kernel)
  have hrest : Path (restrict (fun s e => s.OneUser sampleEnv e ∧
      getConnection s.sessions (ascii "bob") = some 1) (Step sampleEnv))
      (sampleStart.play sampleEnv sampleMeeting) [tells 0 (chatJson "hi")]
      ((sampleStart.play sampleEnv sampleMeeting).play sampleEnv [tells 0 (chatJson "hi")]) :=
    path_of_plays sampleEnv (by decide +kernel)
  have htimely : ∀ e ∈ [tells 0 (chatJson "hi")], Timely e := by simp [tells, Timely]
  exact hears_everything hrun hrest htimely (by decide +kernel) (by decide +kernel)

end Conversation

end Server

end MyTestserver
