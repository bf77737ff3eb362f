import MyTestserver.Effects

namespace MyTestserver

open SessionManager ChatService ChatServer Transition

section Sample

-- A small database and a client to run the server on: two users, tables in memory.

def sampleUserDao : UserDao (List User) where
  getUserByUsername users username := (users.find? fun user => user.username = username, users)
  insertUser users username password := (true, users ++ [⟨users.length + 1, username, password⟩])

def sampleUsers : List User :=
  [⟨1, ascii "alice", ascii "wonder"⟩, ⟨2, ascii "bob", ascii "builder"⟩]

def sampleMessageDao : MessageDao (List Message) where
  saveMessage messages userId content :=
    (true, messages ++ [⟨messages.length + 1, userId,
      if userId = 1 then ascii "alice" else ascii "bob", content, ascii "2024-01-01 00:00:00"⟩])
  getRecentMessages messages limit := (messages.drop (messages.length - limit.toNat), messages)

def loginJson (username password : String) : Json :=
  ((Json.null.assign fieldMsgType (.string msgTypeLogin)).assign fieldUsername
    (.string (ascii username))).assign fieldPassword (.string (ascii password))

def logoutJson : Json := Json.null.assign fieldMsgType (.string msgTypeLogout)

def chatJson (content : String) : Json :=
  (Json.null.assign fieldMsgType (.string msgTypeChat)).assign fieldContent
    (.string (ascii content))

def historyJson : Json := Json.null.assign fieldMsgType (.string msgTypeGetHistory)

-- A parser that knows the texts of some values.
def parseOnly (known : List Json) (text : Bytes) : Except Exception Json :=
  match known.find? fun j => j.render = text with
  | some j => .ok j
  | none => .error .parse_error

theorem parseOnly_documented {known : List Json} (h : ∀ j ∈ known, j.Utf8) :
    ParseDocumented (parseOnly known) where
  throws {text e} he := by
    unfold parseOnly at he
    split at he
    · cases he
    · exact .inl (Except.error.inj he).symm
  utf8 {text j} hj := by
    unfold parseOnly at hj
    split at hj
    · rename_i j' hfind
      obtain rfl : j' = j := Except.ok.inj hj
      exact h j' (List.mem_of_find?_eq_some hfind)
    · cases hj

def sampleKey : Bytes := ascii "dGhlIHNhbXBsZSBub25jZQ=="

def sampleRequest : Bytes :=
  ascii "GET / HTTP/1.1\r\nUpgrade: websocket\r\nConnection: Upgrade\r\nSec-WebSocket-Key: " ++
    sampleKey ++ ascii "\r\n\r\n"

-- The digest of the sample key and its text, the only ones asked for.
def sampleCrypto : WebSocketHandler.Crypto where
  SHA1 _ := [0xb3, 0x7a, 0x4f, 0x2c, 0xc0, 0x62, 0x4f, 0x16, 0x90, 0xf6, 0x46, 0x06, 0xcf, 0x38,
    0x59, 0x45, 0xb2, 0xbe, 0xc4, 0xea]
  base64Encode _ := ascii "s3pPLMBiTxaQ9kYGzzhZRbK+xOo="

def sampleJson : List Json :=
  [loginJson "alice" "wonder", loginJson "alice" "guess", loginJson "bob" "builder", logoutJson,
    chatJson "hi", historyJson, .object []]

def sampleEnv : Env (List User) (List Message) where
  parse := parseOnly sampleJson
  crypto := sampleCrypto
  readFile _ := none
  userDao := sampleUserDao
  messageDao := sampleMessageDao

theorem sampleEnv_documented : ParseDocumented sampleEnv.parse :=
  parseOnly_documented (by decide)

def sampleStart : Server (List User) (List Message) := .start sampleUsers []

-- A connection comes up and turns into a WebSocket.
def connects (conn : ConnId) : List Event := [.up conn, .request conn sampleRequest]

def tells (conn : ConnId) (j : Json) : Event := .message conn j.render 1700000000

end Sample

namespace Server

variable {υ μ : Type} (env : Env υ μ)

section Answered

-- Every session belongs to a connection whose login was answered.
def Answered (s : Server υ μ) : Prop :=
  ∀ conn u, getConnection s.sessions u = some conn → .loginAnswered conn u ∈ s.trace

theorem next_eq_exec {s : Server υ μ} {e : Event} (h : (s.next env e).running = true) :
    (s.exec env e).1 = .ok () ∧ s.next env e = (s.exec env e).2 := by
  unfold next at h ⊢
  split
  · rename_i t hexec
    rw [hexec]
    exact ⟨rfl, rfl⟩
  · rename_i hexec
    rw [hexec] at h
    cases h

theorem answered_step {s t : Server υ μ} {e : Event} (hempty : s.registry.holder [] = none)
    (hanswered : s.Answered) (hstep : Step env s e t) (hrunning : t.running = true) :
    t.Answered := by
  obtain ⟨_, hguard, rfl⟩ := hstep
  obtain ⟨hok, hnext⟩ := next_eq_exec env hrunning
  have hlogs := logs_exec env s e
  rw [hnext]
  intro conn u hu
  have hu : (s.exec env e).2.registry.holder u = some conn := hu
  rw [registry_exec env hempty hguard] at hu
  rcases holder_actions env hu with hsame | ⟨p, hlogin, haccepted⟩
  · exact hlogs.subset (hanswered conn u hsame)
  · obtain ⟨payload, now, rfl, hdecode⟩ := hlogin
    exact answered_of_accepted env hdecode haccepted hok

theorem answered_run {users : υ} {messages : μ} {es : List Event} {s : Server υ μ}
    (hrun : Path (Step env) (start users messages) es s) (hrunning : s.running = true) :
    s.Answered := by
  refine (hrun.invariant (fun s => s.registry.Named (· ≠ []) ∧ (s.running = true → s.Answered))
    (fun s e t hs hstep => ?_) ⟨named_start _ users messages, fun _ conn u hu => ?_⟩).2 hrunning
  · have hempty := holder_empty hs.1
    exact ⟨named_step env hempty hs.1 (fun _ _ _ _ hname => hname) hstep,
      answered_step env hempty (hs.2 hstep.1) hstep⟩
  · cases hu

end Answered

section Impersonation

-- The event is a message on the connection that owns the session of the user, by a login
-- that was answered.
def Owned (s : Server υ μ) (e : Event) (u : Bytes) : Prop :=
  ∃ conn payload now, e = .message conn payload now ∧
    .loginAnswered conn u ∈ s.trace ∧ getConnection s.sessions u = some conn

-- Whatever the step does in the name of a user is the doing of the owner of its session.
def NoImpersonation (s : Server υ μ) (e : Event) : Prop :=
  ∀ x ∈ s.effects env e, match x with
    | .saved sender _ _ | .broadcast sender _ => s.Owned e sender
    | .refreshed u => s.Owned e u
    | _ => True

-- A login that is refused names no user, or one whose session the connection owns anyway.
def RefusedSafely (s : Server υ μ) (e : Event) : Prop :=
  e.OnLogin env fun conn u password =>
    Accepted env s u password ∨ u = [] ∨ getConnection s.sessions u = some conn

instance (s : Server υ μ) (e : Event) : Decidable (s.RefusedSafely env e) := by
  unfold RefusedSafely
  infer_instance

theorem honest_of_refusedSafely {s : Server υ μ} {e : Event} (h : s.RefusedSafely env e) :
    Meets env Registry.Honest s e := by
  intro a ha
  obtain ⟨conn, _, rfl⟩ | ⟨conn, _, rfl⟩ | ⟨conn, _, rfl⟩ | ⟨conn, u, p, _, _, rfl⟩ |
    ⟨conn, u, p, hlogin, hrejected, rfl⟩ := actions_cases env ha
  all_goals try trivial
  rcases (Event.onLogin_iff env).mp h conn u p hlogin with haccepted | rfl | howner
  · exact absurd haccepted hrejected
  · trivial
  · unfold named
    split
    · trivial
    · exact howner

theorem authentic_run {users : υ} {messages : μ} {es : List Event} {s : Server υ μ}
    (hrun : Path (restrict (RefusedSafely env) (Step env)) (start users messages) es s) :
    s.registry.Authentic := by
  have hmeets :
      Path (restrict (Meets env Registry.Honest) (Step env)) (start users messages) es s :=
    hrun.mono fun _ _ _ hs => ⟨honest_of_refusedSafely env hs.1, hs.2⟩
  refine registry_invariant env (fun r a r' hr hs => hr.step hs.1 hs.2) ?_ hmeets
  intro conn u h
  cases h

-- In a run whose refused logins are harmless, nobody acts under the name of another.
theorem no_impersonation {users : υ} {messages : μ} {es : List Event} {s : Server υ μ} {e : Event}
    (hrun : Path (restrict (RefusedSafely env) (Step env)) (start users messages) es s)
    (hrunning : s.running = true) : s.NoImpersonation env e := by
  have hauth := authentic_run env hrun
  have hnamed := named_run env hrun.unrestrict
  have hanswered := answered_run env hrun.unrestrict hrunning
  have howned : ∀ {conn u request}, e.Asks env conn request → u = s.username conn →
      isOnline s.sessions u = true → s.Owned e u := by
    rintro conn _ request ⟨payload, now, rfl, _⟩ rfl honline
    obtain ⟨holder, hholder⟩ := isOnline_iff.mp honline
    have hname : s.username conn ≠ [] := by
      intro hname
      rw [hname] at hholder
      have hempty := holder_empty hnamed
      rw [show s.registry.holder [] = some holder from hholder] at hempty
      cases hempty
    have howner := hauth conn _ (claim_eq_some_iff.mpr ⟨rfl, hname⟩)
    exact ⟨conn, payload, now, rfl, hanswered conn _ howner, howner⟩
  intro x hx
  have hexplains := explains_of_mem_effects env hx
  cases x with
  | saved sender id content =>
      obtain ⟨conn, hasks, hname, honline⟩ := hexplains
      exact howned hasks hname honline
  | broadcast sender content =>
      obtain ⟨conn, hasks, hname, honline⟩ := hexplains
      exact howned hasks hname honline
  | refreshed u =>
      obtain ⟨conn, hasks, hname, honline⟩ := hexplains
      exact howned hasks hname honline
  | _ => trivial

-- Alice chats on the connection she has logged in on, while a second connection fails to
-- log in without a name.
def ownChat : List Event :=
  connects 0 ++ connects 1 ++ [tells 0 (loginJson "alice" "wonder"), tells 1 (loginJson "" "guess")]

theorem no_impersonation_ownChat :
    .broadcast (ascii "alice") (ascii "hi") ∈
        (sampleStart.play sampleEnv ownChat).effects sampleEnv (tells 0 (chatJson "hi")) ∧
      (sampleStart.play sampleEnv ownChat).NoImpersonation sampleEnv (tells 0 (chatJson "hi")) :=
  ⟨by decide +kernel,
    no_impersonation sampleEnv (path_of_plays sampleEnv (by decide)) (by decide)⟩

-- Alice is online on the first connection; the second one is refused her name, and still
-- chats under it.
def impersonation : List Event :=
  connects 0 ++ connects 1 ++
    [tells 0 (loginJson "alice" "wonder"), tells 1 (loginJson "alice" "guess")]

theorem impersonated :
    ¬∀ es s e, Path (Step sampleEnv) sampleStart es s → s.running = true → s.Guard e →
      s.NoImpersonation sampleEnv e := by
  intro h
  have hplays : Plays sampleEnv (fun _ _ => True) sampleStart impersonation := by decide
  have hforged : .broadcast (ascii "alice") (ascii "hi") ∈
      (sampleStart.play sampleEnv impersonation).effects sampleEnv (tells 1 (chatJson "hi")) := by
    decide
  have howner : getConnection (sampleStart.play sampleEnv impersonation).sessions (ascii "alice") =
      some 0 := by
    decide
  obtain ⟨conn, payload, now, heq, _, hconn⟩ := h impersonation _ (tells 1 (chatJson "hi"))
    (path_of_plays sampleEnv hplays).unrestrict (by decide) (by decide) _ hforged
  rw [howner] at hconn
  cases hconn
  cases heq

end Impersonation

section Ownership

-- The connection gives up its session by itself: it logs out or goes down.
def Leaves (conn : ConnId) : Event → Prop
  | .down other => other = conn
  | .message other payload _ => other = conn ∧ decode env payload = .ok .logout
  | _ => False

instance (conn : ConnId) : (e : Event) → Decidable (Leaves env conn e)
  | .down other => inferInstanceAs (Decidable (other = conn))
  | .message other payload _ =>
      inferInstanceAs (Decidable (other = conn ∧ decode env payload = .ok .logout))
  | .up _ | .request _ _ | .closeFrame _ => .isFalse id

theorem not_ends_of_not_leaves {s : Server υ μ} {e : Event} {conn : ConnId}
    (h : ¬Leaves env conn e) : ∀ a ∈ s.actions env e, ¬a.Ends conn := by
  intro a ha hends
  obtain ⟨_, _, rfl⟩ | ⟨other, rfl, rfl⟩ | ⟨other, hasks, rfl⟩ | ⟨_, _, _, _, _, rfl⟩ |
    ⟨_, _, _, _, _, rfl⟩ := actions_cases env ha
  · cases hends
  · obtain rfl : other = conn := hends
    exact h rfl
  · obtain rfl : other = conn := hends
    obtain ⟨payload, now, rfl, hdecode⟩ := hasks
    exact h ⟨rfl, hdecode⟩
  · cases hends
  · cases hends

theorem owner_step {s t : Server υ μ} {e : Event} {conn : ConnId} {u : Bytes}
    (hempty : s.registry.holder [] = none) (hauth : s.registry.Authentic)
    (hsafe : s.RefusedSafely env e) (hstep : Step env s e t) (hstay : ¬Leaves env conn e)
    (howner : getConnection s.sessions u = some conn) :
    t.registry.Authentic ∧ getConnection t.sessions u = some conn := by
  have hpath := step_refines env hempty hstep (honest_of_refusedSafely env hsafe)
  refine hpath.invariant_of_mem (fun r => r.Authentic ∧ r.holder u = some conn)
    (fun r a r' hends hr hs => ?_) (not_ends_of_not_leaves env hstay) ⟨hauth, howner⟩
  exact ⟨hr.1.step hs.1 hs.2, hr.1.holder_step hs.2 hends hr.2⟩

-- An answered login has entered the session.
theorem owner_of_answered {s t : Server υ μ} {e : Event} {conn : ConnId} {u : Bytes}
    (hempty : s.registry.holder [] = none) (hstep : Step env s e t)
    (hanswer : .loginAnswered conn u ∈ s.effects env e) :
    s.RefusedSafely env e ∧ getConnection t.sessions u = some conn := by
  obtain ⟨password, ⟨payload, now, rfl, hdecode⟩, haccepted⟩ := explains_of_mem_effects env hanswer
  refine ⟨?_, ?_⟩
  · refine (Event.onLogin_iff env).mpr ?_
    rintro c v p ⟨payload', now', heq, hdecode'⟩
    cases heq
    rw [hdecode] at hdecode'
    cases hdecode'
    exact .inl haccepted
  · obtain ⟨_, hguard, rfl⟩ := hstep
    have hregistry := registry_next env hempty hguard
    simp only [actions, hdecode, requestActions, if_pos haccepted, List.foldl_cons,
      List.foldl_nil] at hregistry
    change (s.next env (.message conn payload now)).registry.holder u = some conn
    rw [hregistry]
    simp [Registry.apply]

-- In a run whose refused logins are harmless, an answered login keeps its session for as
-- long as the connection stays: nobody else can end or take it.
theorem session_kept {users : υ} {messages : μ} {es es' : List Event} {s t t' : Server υ μ}
    {e : Event} {conn : ConnId} {u : Bytes}
    (hrun : Path (restrict (RefusedSafely env) (Step env)) (start users messages) es s)
    (hstep : Step env s e t) (hanswer : .loginAnswered conn u ∈ s.effects env e)
    (hrest : Path (restrict (RefusedSafely env) (Step env)) t es' t')
    (hstay : ∀ e ∈ es', ¬Leaves env conn e) :
    getConnection t'.sessions u = some conn := by
  have hempty := holder_empty (named_run env hrun.unrestrict)
  obtain ⟨hsafe, howner⟩ := owner_of_answered env hempty hstep hanswer
  have hauth : t.registry.Authentic := authentic_run env (hrun.snoc ⟨hsafe, hstep⟩)
  have hnamed := named_run env (hrun.snoc ⟨hsafe, hstep⟩).unrestrict
  refine (hrest.invariant_of_mem
    (fun s => s.registry.Named (· ≠ []) ∧ s.registry.Authentic ∧
      getConnection s.sessions u = some conn)
    (fun s e t hkeep hs hst => ?_) hstay ⟨hnamed, hauth, howner⟩).2.2
  have hempty := holder_empty hs.1
  exact ⟨named_step env hempty hs.1 (fun _ _ _ _ hname => hname) hst.2,
    owner_step env hempty hs.2.1 hst.1 hst.2 hkeep hs.2.2⟩

def bothConnected : Server (List User) (List Message) :=
  sampleStart.play sampleEnv (connects 0 ++ connects 1)

theorem path_bothConnected : Path (restrict (RefusedSafely sampleEnv) (Step sampleEnv)) sampleStart
    (connects 0 ++ connects 1) bothConnected :=
  path_of_plays sampleEnv (by decide)

-- Bob logs in and out on another connection; Alice keeps her session.
theorem session_kept_sample :
    getConnection ((bothConnected.next sampleEnv (tells 0 (loginJson "alice" "wonder"))).play
      sampleEnv [tells 1 (loginJson "bob" "builder"), tells 1 logoutJson, .down 1]).sessions
      (ascii "alice") = some 0 :=
  session_kept sampleEnv path_bothConnected ⟨by decide, by decide, rfl⟩
    (by decide) (path_of_plays sampleEnv (by decide)) (by decide)

-- A refused login as Alice, and the logout that follows it, end her session elsewhere.
theorem session_lost :
    ¬∀ es es' s t t' e conn u, Path (Step sampleEnv) sampleStart es s → Step sampleEnv s e t →
      .loginAnswered conn u ∈ s.effects sampleEnv e → Path (Step sampleEnv) t es' t' →
      (∀ e ∈ es', ¬Leaves sampleEnv conn e) → getConnection t'.sessions u = some conn := by
  intro h
  have hplays : Plays sampleEnv (fun _ _ => True)
      (bothConnected.next sampleEnv (tells 0 (loginJson "alice" "wonder")))
      [tells 1 (loginJson "alice" "guess"), tells 1 logoutJson] := by
    decide +kernel
  have hkept := h _ _ _ _ _ (tells 0 (loginJson "alice" "wonder")) 0 (ascii "alice")
    path_bothConnected.unrestrict ⟨by decide, by decide, rfl⟩ (by decide)
    (path_of_plays sampleEnv hplays).unrestrict (by decide)
  exact absurd hkept (by decide)

end Ownership

section Leaks

-- Every session belongs to an open connection, and to no other session's.
def NoLeaks (s : Server υ μ) : Prop :=
  (∀ conn u, getConnection s.sessions u = some conn → s.Open conn) ∧
    ∀ conn u v, getConnection s.sessions u = some conn → getConnection s.sessions v = some conn →
      u = v

-- A login message names the user whose session the connection owns, if it owns one.
def OneUser (s : Server υ μ) (e : Event) : Prop :=
  e.OnLogin env fun conn u _ => ∀ v ∈ getOnlineUsers s.sessions,
    getConnection s.sessions v = some conn → v = u

instance (s : Server υ μ) (e : Event) : Decidable (s.OneUser env e) := by
  unfold OneUser
  infer_instance

theorem faithful_of_oneUser {s : Server υ μ} {e : Event} (hempty : s.registry.holder [] = none)
    (h : s.OneUser env e) : Meets env Registry.Faithful s e := by
  intro a ha
  have hlogin : ∀ {conn u p}, e.Login env conn u p →
      ∀ v, getConnection s.sessions v = some conn → v = u := fun hlogin v hv =>
    (Event.onLogin_iff env).mp h _ _ _ hlogin v (mem_getOnlineUsers_iff.mpr ⟨_, hv⟩) hv
  obtain ⟨conn, _, rfl⟩ | ⟨conn, _, rfl⟩ | ⟨conn, _, rfl⟩ | ⟨conn, u, p, hl, _, rfl⟩ |
    ⟨conn, u, p, hl, _, rfl⟩ := actions_cases env ha
  · trivial
  · trivial
  · trivial
  · exact fun v hv => hlogin hl v hv
  · intro v hv
    have hvu := hlogin hl v hv
    subst hvu
    refine (named_eq_some_iff.mpr ⟨rfl, ?_⟩).symm
    rintro rfl
    rw [hempty] at hv
    cases hv

-- In a run in which connections log in as one user at a time, no session is leaked or
-- doubled.
theorem no_leaks {users : υ} {messages : μ} {es : List Event} {s : Server υ μ}
    (hrun : Path (restrict (OneUser env) (Step env)) (start users messages) es s) : s.NoLeaks := by
  have hinv : s.registry.Named (· ≠ []) ∧ s.registry.Exclusive := by
    refine hrun.invariant (fun s => s.registry.Named (· ≠ []) ∧ s.registry.Exclusive)
      (fun s e t hs hst => ?_) ⟨named_start _ users messages, fun conn u hu => ?_⟩
    · have hempty := holder_empty hs.1
      have hpath := step_refines env hempty hst.2 (faithful_of_oneUser env hempty hst.1)
      exact ⟨named_step env hempty hs.1 (fun _ _ _ _ hname => hname) hst.2,
        hpath.invariant Registry.Exclusive (fun r a r' hr hs => hr.step hs.1 hs.2) hs.2⟩
    · cases hu
  have hexcl := hinv.2
  refine ⟨fun conn u hu => (hexcl conn u hu).2, fun conn u v hu hv => ?_⟩
  have hclaim := (hexcl conn u hu).1
  rw [(hexcl conn v hv).1] at hclaim
  exact (Option.some.inj hclaim).symm

theorem no_leaks_sample :
    (sampleStart.play sampleEnv (connects 0 ++ connects 1 ++ [tells 0 (loginJson "alice" "wonder"),
      tells 1 (loginJson "bob" "builder"), .down 0])).NoLeaks :=
  no_leaks sampleEnv (path_of_plays sampleEnv (by decide))

-- A second login on one connection, and a disconnect: the first session stays behind.
theorem session_leaked :
    ¬∀ es s, Path (Step sampleEnv) sampleStart es s → s.NoLeaks := by
  intro h
  have hplays : Plays sampleEnv (fun _ _ => True) sampleStart
      (connects 0 ++ [tells 0 (loginJson "alice" "wonder"), tells 0 (loginJson "bob" "builder"),
        .down 0]) := by
    decide
  have hleaked := (h _ _ (path_of_plays sampleEnv hplays).unrestrict).1 0 (ascii "alice")
  exact absurd (hleaked (by decide)) (by decide)

end Leaks

end Server

end MyTestserver
