import MyTestserver.Protocol
import MyTestserver.Server

namespace MyTestserver.ChatService

open SessionManager WebSocketHandler

variable {υ μ : Type}

section Responses

def createResponse (msgType : Bytes) (success : Bool) (error : Bytes) : Except Exception Bytes :=
  let j := Json.null.assign fieldMsgType (.string msgType)
  let j := j.assign fieldSuccess (.boolean success)
  let j := if error ≠ [] then j.assign fieldError (.string error) else j
  j.dump

def loginResponse (onlineUsers : List Bytes) : Json :=
  let response := Json.null.assign fieldMsgType (.string msgTypeLoginResp)
  let response := response.assign fieldSuccess (.boolean true)
  response.assign fieldOnlineUsers (.array (onlineUsers.map .string))

def logoutResponse : Json :=
  let response := Json.null.assign fieldMsgType (.string msgTypeLogoutResp)
  response.assign fieldSuccess (.boolean true)

def broadcastMessage (sender content : Bytes) (timestamp : ℕ) : Json :=
  let broadcast := Json.null.assign fieldMsgType (.string msgTypeBroadcast)
  let broadcast := broadcast.assign fieldSender (.string sender)
  let broadcast := broadcast.assign fieldContent (.string content)
  broadcast.assign fieldTimestamp (.number_integer timestamp)

def heartbeatResponse (serverTime : ℕ) : Json :=
  let response := Json.null.assign fieldMsgType (.string msgTypeHeartbeatResp)
  response.assign fieldServerTime (.number_integer serverTime)

def historyEntry (msg : Message) : Json :=
  let jmsg := Json.null.assign fieldSender (.string msg.username)
  let jmsg := jmsg.assign fieldContent (.string msg.content)
  jmsg.assign fieldTimestamp (.string msg.timestamp)

def historyResponse (messages : List Message) : Json :=
  let response := Json.null.assign fieldMsgType (.string msgTypeHistory)
  response.assign fieldMessages (.array (messages.map historyEntry))

end Responses

section Utf8

open Json

-- The texts of the program are ASCII, so a response can be dumped when the strings that
-- the program puts into it are UTF-8.
theorem utf8_msgType (msgType : String) :
    (Json.null.assign fieldMsgType (.string (ascii msgType))).Utf8 :=
  utf8_assign_ascii "msgType" utf8_null (utf8_ascii msgType)

theorem createResponse_ok (msgType error : String) (success : Bool) :
    ∃ text, createResponse (ascii msgType) success (ascii error) = .ok text := by
  have hbase := utf8_assign_ascii "success" (utf8_msgType msgType) (utf8_boolean success)
  unfold createResponse
  dsimp only
  split
  · exact ⟨_, dump_ok (utf8_assign_ascii "error" hbase (utf8_ascii error))⟩
  · exact ⟨_, dump_ok hbase⟩

theorem loginResponse_utf8 {onlineUsers : List Bytes} (h : ∀ u ∈ onlineUsers, ValidUtf8 u) :
    (loginResponse onlineUsers).Utf8 := by
  have hbase := utf8_assign_ascii "success" (utf8_msgType "login_resp") (utf8_boolean true)
  refine utf8_assign_ascii "onlineUsers" hbase (utf8_array_iff.mpr fun item hitem => ?_)
  obtain ⟨u, hu, rfl⟩ := List.mem_map.mp hitem
  exact utf8_string_iff.mpr (h u hu)

theorem logoutResponse_utf8 : logoutResponse.Utf8 :=
  utf8_assign_ascii "success" (utf8_msgType "logout_resp") (utf8_boolean true)

theorem broadcastMessage_utf8 {sender content : Bytes} (hsender : ValidUtf8 sender)
    (hcontent : ValidUtf8 content) (timestamp : ℕ) :
    (broadcastMessage sender content timestamp).Utf8 := by
  have hs := utf8_assign_ascii "sender" (utf8_msgType "broadcast") (utf8_string_iff.mpr hsender)
  have hc := utf8_assign_ascii "content" hs (utf8_string_iff.mpr hcontent)
  exact utf8_assign_ascii "timestamp" hc (utf8_number timestamp)

theorem heartbeatResponse_utf8 (serverTime : ℕ) : (heartbeatResponse serverTime).Utf8 :=
  utf8_assign_ascii "serverTime" (utf8_msgType "heartbeat_resp") (utf8_number serverTime)

def MessageUtf8 (msg : Message) : Prop :=
  ValidUtf8 msg.username ∧ ValidUtf8 msg.content ∧ ValidUtf8 msg.timestamp

theorem historyEntry_utf8_iff (msg : Message) : (historyEntry msg).Utf8 ↔ MessageUtf8 msg := by
  have hcontent : fieldContent ≠ fieldSender := by decide
  have htimestamp : fieldTimestamp ≠ fieldSender ∧ fieldTimestamp ≠ fieldContent := by decide
  have hkeys : ValidUtf8 fieldSender ∧ ValidUtf8 fieldContent ∧ ValidUtf8 fieldTimestamp :=
    ⟨validUtf8_ascii _, validUtf8_ascii _, validUtf8_ascii _⟩
  change utf8Members (insertMember _ _ (insertMember _ _ [(_, _)])) ↔ _
  rw [utf8_insertMember_iff, utf8_insertMember_iff, utf8Members_cons]
  · simp only [utf8_string_iff, MessageUtf8, hkeys, show utf8Members [] = true from rfl]
    grind
  · exact lookup_single_ne _ hcontent
  · rw [lookup_insertMember, if_neg htimestamp.2]
    exact lookup_single_ne _ htimestamp.1

-- A history can be sent exactly when all rows of it are UTF-8.
theorem historyResponse_utf8_iff (messages : List Message) :
    (historyResponse messages).Utf8 ↔ ∀ msg ∈ messages, MessageUtf8 msg := by
  have hmessages : fieldMessages ≠ fieldMsgType := by decide
  have hkey : ValidUtf8 fieldMessages := validUtf8_ascii _
  change utf8Members (insertMember _ _ [(_, _)]) ↔ _
  rw [utf8_insertMember_iff (lookup_single_ne _ hmessages), utf8_array_iff]
  simp only [List.forall_mem_map, historyEntry_utf8_iff, hkey, true_and, and_iff_left_iff_imp]
  exact fun _ => utf8_msgType "history"

end Utf8

section Handlers

variable (env : Env υ μ) (conn : ConnId) (now : ℕ) (s : Server υ μ)

-- The source passes the user name of the connection too, and does not use it.
def handleRegister (username password : Bytes) : Outcome (Server υ μ) :=
  if username = [] ∨ password = [] then
    s.respond conn (createResponse msgTypeRegisterResp false
      (ascii "Username and password cannot be empty"))
  else
    match env.userDao.userExists s.users username with
    | (true, users) =>
        { s with users := users }.respond conn (createResponse msgTypeRegisterResp false
          (ascii "Username already exists"))
    | (false, users) =>
        match env.userDao.insertUser users username password with
        | (true, users) =>
            { s with users := users }.respond conn (createResponse msgTypeRegisterResp true [])
        | (false, users) =>
            { s with users := users }.respond conn (createResponse msgTypeRegisterResp false
              (ascii "Registration failed"))

-- The tail of handleLogin, for a name and a password that are right.
def acceptLogin (username : Bytes) : Outcome (Server υ μ) :=
  let users := (env.userDao.getUserByUsername s.users username).2
  let s := { s with users := users, sessions := addSession s.sessions username conn now }
  match (loginResponse (getOnlineUsers s.sessions)).dump with
  | .ok text => (.ok (), (s.sendResponse conn text).record (.loginAnswered conn username))
  | .error e => (.error e, s)

def handleLogin (username password : Bytes) : Outcome (Server υ μ) :=
  if username = [] ∨ password = [] then
    s.respond conn (createResponse msgTypeLoginResp false
      (ascii "Username and password cannot be empty"))
  else
    match env.userDao.verifyUser s.users username password with
    | (false, users) =>
        { s with users := users }.respond conn (createResponse msgTypeLoginResp false
          (ascii "Invalid username or password"))
    | (true, users) =>
        if isOnline s.sessions username then
          { s with users := users }.respond conn (createResponse msgTypeLoginResp false
            (ascii "User already logged in"))
        else acceptLogin env conn now { s with users := users } username

def handleLogout (username : Bytes) : Outcome (Server υ μ) :=
  let s := { s with sessions := removeSession s.sessions username }
  (s.respond conn logoutResponse.dump).andThen fun s => (.ok (), s.shutdown conn)

-- The tail of handleChat, for a sender that is online and known to the database.
def publish (user : User) (sender content : Bytes) : Outcome (Server υ μ) :=
  let messages := (env.messageDao.saveMessage s.messages user.id content).2
  let s := { s with messages := messages }.record (.saved sender user.id content)
  match (broadcastMessage sender content now).dump with
  | .ok text =>
      (.ok (), (s.broadcastToAll (encodeFrame text) []).record (.broadcast sender content))
  | .error e => (.error e, s)

def handleChat (sender content : Bytes) : Outcome (Server υ μ) :=
  if content = [] ∨ isOnline s.sessions sender = false then (.ok (), s)
  else
    match env.userDao.getUserByUsername s.users sender with
    | (none, users) => (.ok (), { s with users := users })
    | (some user, users) => publish env now { s with users := users } user sender content

def refresh (username : Bytes) : Server υ μ :=
  let refreshed := { s with sessions := updateHeartbeat s.sessions username now }
  if isOnline s.sessions username then refreshed.record (.refreshed username) else refreshed

def handleHeartbeat (username : Bytes) : Outcome (Server υ μ) :=
  let s := refresh now s username
  match getConnection s.sessions username with
  | some owner =>
      if s.connected owner then s.respond owner (heartbeatResponse now).dump else (.ok (), s)
  | none => (.ok (), s)

-- The frame counts as sent when the connection takes it.
def sendHistory (text : Bytes) : Server υ μ :=
  if s.connected conn then (s.sendResponse conn text).record (.historySent conn) else s

def handleGetHistory (limit : ℤ) : Outcome (Server υ μ) :=
  match env.messageDao.getRecentMessages s.messages limit with
  | (messages, table) =>
      match (historyResponse messages).dump with
      | .ok text => (.ok (), sendHistory conn { s with messages := table } text)
      | .error e => (.error e, { s with messages := table })

def onDisconnect (username : Bytes) : Server υ μ :=
  if username ≠ [] ∧ isOnline s.sessions username = true then
    { s with sessions := removeSession s.sessions username }
  else s

end Handlers

section Results

-- What the handlers come to, once and for all; the proofs below and in other modules
-- start from here.

variable (env : Env υ μ) (conn : ConnId) (now : ℕ) (s : Server υ μ)

theorem respond_createResponse (msgType error : String) (success : Bool) :
    ∃ text, s.respond conn (createResponse (ascii msgType) success (ascii error)) =
      (.ok (), s.sendResponse conn text) := by
  obtain ⟨text, htext⟩ := createResponse_ok msgType error success
  exact ⟨text, by rw [htext, Server.respond]⟩

-- A registration is always answered, and touches the users table only.
theorem handleRegister_result (username password : Bytes) :
    ∃ users text, handleRegister env conn s username password =
      (.ok (), { s with users := users }.sendResponse conn text) := by
  unfold handleRegister
  split
  · obtain ⟨text, htext⟩ := respond_createResponse conn s "register_resp"
      "Username and password cannot be empty" false
    exact ⟨s.users, text, htext⟩
  split
  · rename_i users _
    obtain ⟨text, htext⟩ := respond_createResponse conn { s with users := users } "register_resp"
      "Username already exists" false
    exact ⟨users, text, htext⟩
  split
  · rename_i users _
    obtain ⟨text, htext⟩ := respond_createResponse conn { s with users := users } "register_resp"
      "" true
    exact ⟨users, text, htext⟩
  · rename_i users _
    obtain ⟨text, htext⟩ := respond_createResponse conn { s with users := users } "register_resp"
      "Registration failed" false
    exact ⟨users, text, htext⟩

-- What handleLogin asks of a name and a password, in the order of its checks.
def Accepted (username password : Bytes) : Prop :=
  (username ≠ [] ∧ password ≠ []) ∧
    (env.userDao.verifyUser s.users username password).1 = true ∧
    isOnline s.sessions username = false

instance (username password : Bytes) : Decidable (Accepted env s username password) := by
  unfold Accepted
  infer_instance

variable {env s} in
theorem handleLogin_accepted {username password : Bytes} (h : Accepted env s username password) :
    handleLogin env conn now s username password =
      acceptLogin env conn now
        { s with users := (env.userDao.verifyUser s.users username password).2 } username := by
  obtain ⟨⟨hname, hpassword⟩, hverify, honline⟩ := h
  unfold handleLogin
  rw [if_neg (not_or.mpr ⟨hname, hpassword⟩)]
  split
  · simp_all
  · rename_i users hresult
    rw [if_neg (by simp [honline]), hresult]

variable {env s} in
theorem handleLogin_rejected {username password : Bytes} (h : ¬Accepted env s username password) :
    ∃ users text, handleLogin env conn now s username password =
      (.ok (), { s with users := users }.sendResponse conn text) := by
  unfold handleLogin
  split
  · obtain ⟨text, htext⟩ := respond_createResponse conn s "login_resp"
      "Username and password cannot be empty" false
    exact ⟨s.users, text, htext⟩
  rename_i hempty
  split
  · rename_i users _
    obtain ⟨text, htext⟩ := respond_createResponse conn { s with users := users } "login_resp"
      "Invalid username or password" false
    exact ⟨users, text, htext⟩
  rename_i users hverify
  split
  · obtain ⟨text, htext⟩ := respond_createResponse conn { s with users := users } "login_resp"
      "User already logged in" false
    exact ⟨users, text, htext⟩
  rename_i honline
  exact absurd ⟨not_or.mp hempty, by rw [hverify], by simpa using honline⟩ h

-- The answer to a logout can always be written, so the connection is shut down.
theorem handleLogout_result (username : Bytes) :
    ∃ text, handleLogout conn s username =
      (.ok (), ({ s with sessions := removeSession s.sessions username }.sendResponse conn
        text).shutdown conn) := by
  refine ⟨logoutResponse.render, ?_⟩
  simp only [handleLogout, Json.dump_ok logoutResponse_utf8, Server.respond, Outcome.andThen_ok]

-- A heartbeat is answered on the connection that owns the session, if it is connected.
theorem handleHeartbeat_result (username : Bytes) :
    ∃ t, handleHeartbeat now s username = (.ok (), t) ∧ (refresh now s username).Sends t := by
  unfold handleHeartbeat
  rw [Json.dump_ok (heartbeatResponse_utf8 now)]
  dsimp only
  split
  · split
    · exact ⟨_, rfl, Server.sends_send _ _ _⟩
    · exact ⟨_, rfl, .refl _⟩
  · exact ⟨_, rfl, .refl _⟩

-- Who may chat: a sender with a session whom the database knows.
theorem handleChat_cases (sender content : Bytes) :
    (∃ users, handleChat env now s sender content = (.ok (), { s with users := users })) ∨
    (isOnline s.sessions sender = true ∧ ∃ users user,
      handleChat env now s sender content =
        publish env now { s with users := users } user sender content) := by
  unfold handleChat
  split
  · exact .inl ⟨s.users, rfl⟩
  rename_i h
  split
  · exact .inl ⟨_, rfl⟩
  · exact .inr ⟨by simpa using (not_or.mp h).2, _, _, rfl⟩

-- The only thing that can go wrong in a handler is a dump of text that is not UTF-8.

theorem acceptLogin_of_dump {username text : Bytes}
    (h : (loginResponse (getOnlineUsers (addSession s.sessions username conn now))).dump =
      .ok text) :
    acceptLogin env conn now s username =
      (.ok (),
        ({ s with
            users := (env.userDao.getUserByUsername s.users username).2
            sessions := addSession s.sessions username conn now
          }.sendResponse conn text).record (.loginAnswered conn username)) := by
  unfold acceptLogin
  simp only [h]

theorem acceptLogin_error {username : Bytes} {e : Exception}
    (h : (acceptLogin env conn now s username).1 = .error e) : e = .type_error := by
  unfold acceptLogin at h
  dsimp only at h
  split at h
  · cases h
  · rename_i hdump
    cases h
    exact (Json.dump_error hdump).1

theorem handleLogin_error {username password : Bytes} {e : Exception}
    (h : (handleLogin env conn now s username password).1 = .error e) : e = .type_error := by
  by_cases haccepted : Accepted env s username password
  · rw [handleLogin_accepted conn now haccepted] at h
    exact acceptLogin_error env conn now _ h
  · obtain ⟨users, text, hresult⟩ := handleLogin_rejected conn now haccepted
    rw [hresult] at h
    cases h

theorem handleChat_error {sender content : Bytes} {e : Exception}
    (h : (handleChat env now s sender content).1 = .error e) : e = .type_error := by
  rcases handleChat_cases env now s sender content with ⟨users, hresult⟩ | ⟨_, users, user, hresult⟩
  · rw [hresult] at h
    cases h
  · rw [hresult] at h
    unfold publish at h
    dsimp only at h
    split at h
    · cases h
    · rename_i hdump
      cases h
      exact (Json.dump_error hdump).1

theorem handleGetHistory_error {limit : ℤ} {e : Exception}
    (h : (handleGetHistory env conn s limit).1 = .error e) : e = .type_error := by
  unfold handleGetHistory at h
  dsimp only at h
  split at h
  · cases h
  · rename_i hdump
    cases h
    exact (Json.dump_error hdump).1

end Results

end MyTestserver.ChatService
