import MyTestserver.StorageTheorems

namespace MyTestserver

open SessionManager ChatService ChatServer Transition

namespace DbConnection

section Answers

variable {δ : Type} {api : Mysql δ} {table : δ → List User} {db : DbConnection δ}

-- An answer to the SELECT of getUserByUsername has the rows of the name, in any order. There
-- may be none.
structure AnswersUsers (api : Mysql δ) (table : δ → List User) : Prop
    extends UsersTable api table where
  found : ∀ d text username rows, Sql.lex text = some (Sql.getUserByUsernameTokens username) →
    (api.mysql_query d text).1 = true →
    (api.mysql_store_result (api.mysql_query d text).2).1 = some rows →
    ∃ found : List User, found.Perm ((table d).filter fun user => user.username = username) ∧
      rows = found.map User.row

-- There always is one.
structure AlwaysAnswers (api : Mysql δ) (table : δ → List User) : Prop
    extends AnswersUsers api table where
  answers : ∀ d text username, Sql.lex text = some (Sql.getUserByUsernameTokens username) →
    (api.mysql_query d text).1 = true ∧
      (api.mysql_store_result (api.mysql_query d text).2).1.isSome = true

theorem AnswersUsers.exists_row (h : AnswersUsers api table) {username : Bytes} {user : User}
    (hfound : (db.getUserByUsername api username).1 = some user) :
    ∃ row ∈ table db.mysql, row.username = username ∧ user = userOf row.row := by
  unfold getUserByUsername at hfound
  split at hfound
  · cases hfound
  split at hfound
  · cases hfound
  rename_i rows db' hquery
  cases rows with
  | nil => cases hfound
  | cons row rows =>
      obtain ⟨hok, hresult⟩ := db.query_row (Sql.cString_getUserByUsernameSql username)
        (congrArg Prod.fst hquery)
      obtain ⟨found, hperm, hrows⟩ := h.found _ _ _ _ (Sql.lex_getUserByUsername username) hok
        hresult
      cases found with
      | nil => cases hrows
      | cons first found =>
          obtain ⟨rfl, _⟩ := List.cons.inj hrows
          have hmem := List.mem_filter.mp (hperm.mem_iff.mp List.mem_cons_self)
          exact ⟨first, hmem.1, by simpa using hmem.2, (Option.some.inj hfound).symm⟩

end Answers

end DbConnection

namespace Server

section Registration

variable {υ μ : Type} (env : Env υ μ) (s : Server υ μ)

-- The name and the password that an event brings as far as insertUser.
def registration : Event → Option (Bytes × Bytes)
  | .message _ payload _ =>
      match decode env payload with
      | .ok (.register username password) =>
          if username = [] ∨ password = [] ∨ (env.userDao.userExists s.users username).1 = true then
            none
          else some (username, password)
      | _ => none
  | _ => none

variable {env s}

theorem verifyUser_snd (users : υ) (username password : Bytes) :
    (env.userDao.verifyUser users username password).2 =
      (env.userDao.getUserByUsername users username).2 := by
  unfold UserDao.verifyUser
  split
  · rename_i h
    rw [h]
  · rename_i h
    rw [h]

theorem users_respond (conn : ConnId) (json : Except Exception Bytes) :
    (s.respond conn json).2.users = s.users := (s.sends_respond conn json).users

theorem users_handleRegister (conn : ConnId) (username password : Bytes) :
    (handleRegister env conn s username password).2.users =
      if username = [] ∨ password = [] then s.users
      else if (env.userDao.userExists s.users username).1 = true then
        (env.userDao.userExists s.users username).2
      else (env.userDao.insertUser (env.userDao.userExists s.users username).2 username
        password).2 := by
  unfold handleRegister
  split
  · rw [users_respond]
  · cases hexists : env.userDao.userExists s.users username with
    | mk found users =>
        cases found with
        | true => simp only [if_true, users_respond]
        | false =>
            cases hinsert : env.userDao.insertUser users username password with
            | mk ok users' => cases ok <;> simp [hinsert, users_respond]

theorem users_handleGetHistory (conn : ConnId) (limit : ℤ) :
    (handleGetHistory env conn s limit).2.users = s.users := by
  unfold handleGetHistory sendHistory
  dsimp only
  split
  · dsimp only
    split
    · exact (Server.sends_send _ conn _).users
    · rfl
  · rfl

theorem users_onConnection (conn : ConnId) : (onConnection conn s).users = s.users := by
  unfold onConnection onDisconnect
  split
  · rfl
  · dsimp only
    rw [(Server.quiet_shutdown _ conn).users]
    split
    · split <;> rfl
    · rfl

-- Handlers other than handleRegister only read the users.

variable {α : Type} {view : υ → α}
  (hread : ∀ users username, view (env.userDao.getUserByUsername users username).2 = view users)

include hread

theorem users_handleLogin (conn : ConnId) (now : ℕ)
    (username password : Bytes) :
    view (handleLogin env conn now s username password).2.users = view s.users := by
  have hverify : view (env.userDao.verifyUser s.users username password).2 = view s.users := by
    rw [verifyUser_snd, hread]
  unfold handleLogin
  split
  · rw [users_respond]
  split
  · rename_i users hresult
    rw [hresult] at hverify
    rw [users_respond]
    exact hverify
  · rename_i users hresult
    rw [hresult] at hverify
    split
    · rw [users_respond]
      exact hverify
    · unfold acceptLogin
      dsimp only
      split
      · exact (congrArg view (Server.sends_send _ conn _).users).trans
          ((hread users username).trans hverify)
      · exact (hread users username).trans hverify

theorem users_handleChat (now : ℕ) (sender content : Bytes) :
    view (handleChat env now s sender content).2.users = view s.users := by
  have hfound := hread s.users sender
  unfold handleChat
  split
  · rfl
  split
  · rename_i users hresult
    rw [hresult] at hfound
    exact hfound
  · rename_i user users hresult
    rw [hresult] at hfound
    unfold publish
    dsimp only
    split
    · exact (congrArg view (Server.sends_broadcastToAll _ _ _).users).trans hfound
    · exact hfound

theorem users_dispatch (conn : ConnId) (now : ℕ) (s : Server υ μ)
    {request : Request} (h : ∀ username password, request ≠ .register username password) :
    view (dispatch env conn now s request).2.users = view s.users := by
  cases request with
  | register username password => exact absurd rfl (h username password)
  | login username password =>
      have hlogin := users_handleLogin (s := s.setUsername conn username) hread conn now username
        password
      simp only [dispatch]
      generalize handleLogin env conn now (s.setUsername conn username) username password = outcome
        at hlogin ⊢
      obtain ⟨_ | _, t⟩ := outcome
      · exact hlogin
      · exact (congrArg view (users_handleGetHistory conn 50)).trans hlogin
  | logout =>
      obtain ⟨text, hresult⟩ := handleLogout_result conn s (s.username conn)
      rw [dispatch, hresult, Outcome.andThen_ok]
      refine congrArg view ((Server.quiet_shutdown _ conn).users.trans ?_)
      exact (Server.sends_send _ conn _).users
  | chat content => exact users_handleChat hread now _ content
  | heartbeat =>
      obtain ⟨t, hresult, hsends⟩ := handleHeartbeat_result now s (s.username conn)
      rw [dispatch, hresult]
      refine congrArg view (hsends.users.trans ?_)
      unfold refresh
      split <;> rfl
  | get_history limit => exact congrArg view (users_handleGetHistory conn limit)
  | unknown msgType => rfl

variable (view) in
-- What an event does to the users.
theorem users_exec (s : Server υ μ) (e : Event) :
    match s.registration env e with
    | none => view (s.exec env e).2.users = view s.users
    | some (username, password) =>
        (s.exec env e).2.users = (env.userDao.insertUser
          (env.userDao.getUserByUsername s.users username).2 username password).2 := by
  cases e with
  | up conn => exact congrArg view (users_onConnection conn)
  | request conn data => exact congrArg view (quiet_handleHandshake env conn s data).users
  | closeFrame conn => exact congrArg view (s.quiet_shutdown conn).users
  | down conn => exact congrArg view (users_onConnection conn)
  | message conn payload now =>
      rw [exec, registration]
      cases hdecode : decode env payload with
      | ok request =>
          rw [handleWebSocketMessage_decoded env conn now s hdecode]
          cases request with
          | register username password =>
              dsimp only
              have husers : (handleRegister env conn s username password).2.users = _ :=
                users_handleRegister conn username password
              by_cases hempty : username = [] ∨ password = []
              · rw [if_pos hempty] at husers
                rw [if_pos (or_assoc.mp (.inl hempty))]
                exact congrArg view husers
              · rw [if_neg hempty] at husers
                by_cases hexists : (env.userDao.userExists s.users username).1 = true
                · rw [if_pos hexists] at husers
                  rw [if_pos (or_assoc.mp (.inr hexists))]
                  exact (congrArg view husers).trans (hread s.users username)
                · rw [if_neg hexists] at husers
                  rw [if_neg fun h => not_or.mpr ⟨hempty, hexists⟩ (or_assoc.mpr h)]
                  exact husers
          | _ => exact users_dispatch hread conn now s (by simp)
      | error error =>
          by_cases hparse : error = .parse_error
          · rw [handleWebSocketMessage_parse_error env conn now s (hparse ▸ hdecode)]
            exact congrArg view (s.sends_send conn _).users
          · rw [handleWebSocketMessage_uncaught env conn now s hdecode hparse]

end Registration

section Step

variable {υ μ : Type} {env : Env υ μ} {s : Server υ μ}

theorem next_users (env : Env υ μ) (s : Server υ μ) (e : Event) :
    (s.next env e).users = (s.exec env e).2.users := by
  unfold next
  split
  · rename_i h
    rw [h]
  · rename_i h
    rw [h]

theorem registration_asks {e : Event} {username password : Bytes}
    (h : s.registration env e = some (username, password)) :
    (env.userDao.userExists s.users username).1 = false ∧
      ∃ conn, e.Asks env conn (.register username password) := by
  unfold registration at h
  split at h
  · rename_i conn payload now
    split at h
    · rename_i username' password' hdecode
      split at h
      · cases h
      · rename_i hnone
        simp only [not_or, Bool.not_eq_true] at hnone
        obtain ⟨rfl, rfl⟩ := Prod.mk.inj (Option.some.inj h)
        exact ⟨hnone.2.2, conn, payload, now, rfl, hdecode⟩
    · cases h
  · cases h

end Step

section Accounts

variable {υ μ : Type} (parse : Bytes → Except Exception Json) (crypto : WebSocketHandler.Crypto)
  (readFile : Bytes → Option Bytes) (usersApi : Mysql υ) (messagesApi : Mysql μ)
  (table : υ → List User)

-- The names in the users table with their passwords, in the order of the INSERTs.
def accounts (s : Server (DbConnection υ) (DbConnection μ)) : List (Bytes × Bytes) :=
  (table s.users.mysql).map fun user => (user.username, user.password)

-- The account that an event opens, if the INSERT of handleRegister goes through.
def registeredBy (s : Server (DbConnection υ) (DbConnection μ)) (e : Event) :
    List (Bytes × Bytes) :=
  match s.registration (mysqlEnv parse crypto readFile usersApi messagesApi) e with
  | some (username, password) =>
      if ((s.users.getUserByUsername usersApi username).2.insertUser usersApi username
        password).1 then [(username, password)] else []
  | none => []

variable {parse crypto readFile usersApi messagesApi table}
  {s t : Server (DbConnection υ) (DbConnection μ)} {e : Event} {es : List Event}

theorem registeredBy_asks {account : Bytes × Bytes}
    (h : account ∈ s.registeredBy parse crypto readFile usersApi messagesApi e) :
    ∃ conn, e.Asks (mysqlEnv parse crypto readFile usersApi messagesApi) conn
      (.register account.1 account.2) := by
  unfold registeredBy at h
  split at h
  · rename_i username password hregistration
    split at h
    · obtain rfl := List.mem_singleton.mp h
      exact (registration_asks hregistration).2
    · cases h
  · cases h

-- The users table grows by what is registered, and by nothing else.
theorem accounts_step (husers : UsersTable usersApi table)
    (hstep : Step (mysqlEnv parse crypto readFile usersApi messagesApi) s e t) :
    t.accounts table =
        s.accounts table ++ s.registeredBy parse crypto readFile usersApi messagesApi e ∧
      t.users.connected = s.users.connected := by
  obtain ⟨_, _, rfl⟩ := hstep
  have hread : ∀ (db : DbConnection υ) username,
      (fun db : DbConnection υ => (db.connected, table db.mysql))
          ((mysqlEnv parse crypto readFile usersApi messagesApi).userDao.getUserByUsername db
            username).2 =
        (db.connected, table db.mysql) := by
    intro db username
    exact Prod.ext (db.getUserByUsername_connected username)
      (db.getUserByUsername_view husers.toReadsOnly username)
  have hexec := users_exec (fun db : DbConnection υ => (db.connected, table db.mysql)) hread s e
  rw [← next_users] at hexec
  unfold registeredBy
  cases hregistration : s.registration (mysqlEnv parse crypto readFile usersApi messagesApi) e with
  | none =>
      rw [hregistration] at hexec
      obtain ⟨hconnected, htable⟩ := Prod.mk.inj hexec
      refine ⟨?_, hconnected⟩
      rw [accounts, accounts, htable, List.append_nil]
  | some account =>
      obtain ⟨username, password⟩ := account
      rw [hregistration] at hexec
      have hconnected : (s.users.getUserByUsername usersApi username).2.connected =
          s.users.connected := s.users.getUserByUsername_connected username
      have htable := s.users.getUserByUsername_view husers.toReadsOnly username
      have hinserted : (s.next (mysqlEnv parse crypto readFile usersApi messagesApi) e).users =
          ((s.users.getUserByUsername usersApi username).2.insertUser usersApi username
            password).2 := hexec
      have hinsert := (s.users.getUserByUsername usersApi username).2.insertUser_table husers
        username password
      rw [htable] at hinsert
      dsimp only
      rw [accounts, hinserted, DbConnection.insertUser_connected, hconnected]
      refine ⟨?_, rfl⟩
      split at hinsert
      · rename_i hok
        obtain ⟨id, hrow⟩ := hinsert
        rw [if_pos hok, hrow, List.map_append, accounts]
        rfl
      · rename_i hok
        rw [if_neg hok, hinsert, List.append_nil, accounts]

theorem accounts_run (husers : UsersTable usersApi table)
    (hrun : Path (Step (mysqlEnv parse crypto readFile usersApi messagesApi)) s es t) :
    t.accounts table = s.accounts table ++
        gather (next (mysqlEnv parse crypto readFile usersApi messagesApi))
          (registeredBy parse crypto readFile usersApi messagesApi) s es ∧
      t.users.connected = s.users.connected := by
  have hinvariant : ∀ (u : Server (DbConnection υ) (DbConnection μ)) e u' done,
      (u.accounts table = s.accounts table ++ done ∧ u.users.connected = s.users.connected) →
        Step (mysqlEnv parse crypto readFile usersApi messagesApi) u e u' →
          u'.accounts table = s.accounts table ++
              (done ++ u.registeredBy parse crypto readFile usersApi messagesApi e) ∧
            u'.users.connected = s.users.connected := by
    rintro u e u' done ⟨haccounts, hconnected⟩ hstep
    obtain ⟨hrows, hup⟩ := accounts_step husers hstep
    exact ⟨by rw [hrows, haccounts, List.append_assoc], hup.trans hconnected⟩
  exact hrun.gather_invariant (fun _ _ _ h => h.2.2)
    (fun t done => t.accounts table = s.accounts table ++ done ∧
      t.users.connected = s.users.connected) hinvariant ⟨(List.append_nil _).symm, rfl⟩

-- Nobody is let in under a name and a password that were not registered together: whatever
-- fails on the way to the database, a login that is answered with success is for an account
-- that was there at the start or was asked for since, and its password is the C string of
-- that of the account.
theorem logins_registered (husers : DbConnection.AnswersUsers usersApi table)
    {users : DbConnection υ} {messages : DbConnection μ} {conn : ConnId} {u : Bytes}
    (hrun : Path (Step (mysqlEnv parse crypto readFile usersApi messagesApi))
      (start users messages) es s)
    (hanswer : .loginAnswered conn u ∈
      s.effects (mysqlEnv parse crypto readFile usersApi messagesApi) e) :
    ∃ password stored,
      e.Login (mysqlEnv parse crypto readFile usersApi messagesApi) conn u password ∧
        password = cString stored ∧
        ((u, stored) ∈ (start users messages).accounts table ∨
          ∃ conn', ∃ e' ∈ es, e'.Asks (mysqlEnv parse crypto readFile usersApi messagesApi) conn'
            (.register u stored)) := by
  obtain ⟨password, hlogin, haccepted⟩ := explains_of_mem_effects _ hanswer
  have hverify : ((DbConnection.userDao usersApi).verifyUser s.users u password).1 = true :=
    haccepted.2.1
  unfold UserDao.verifyUser at hverify
  split at hverify
  · rename_i user users' hresult
    have hfound : (s.users.getUserByUsername usersApi u).1 = some user := congrArg Prod.fst hresult
    obtain ⟨row, hrow, hname, rfl⟩ := husers.exists_row hfound
    have hpassword : cString row.password = password := beq_iff_eq.mp hverify
    have hmem : (u, row.password) ∈ s.accounts table :=
      List.mem_map.mpr ⟨row, hrow, by rw [hname]⟩
    refine ⟨password, row.password, hlogin, hpassword.symm, ?_⟩
    rw [(accounts_run husers.toUsersTable hrun).1] at hmem
    refine (List.mem_append.mp hmem).imp_right fun hregistered => ?_
    obtain ⟨e', he', u', hasks⟩ := exists_of_mem_gather hregistered
    obtain ⟨conn', hconn'⟩ := registeredBy_asks hasks
    exact ⟨conn', e', he', hconn'⟩
  · cases hverify

end Accounts

section Sample

open DbConnection (sampleUsersDb sampleUsersDb_table sampleUsersStart sampleMessagesStart
  readInsertUser readSelectUser)

theorem sampleUsersDb_answers : DbConnection.AlwaysAnswers sampleUsersDb Prod.fst where
  toUsersTable := sampleUsersDb_table
  found d text username rows hlex _ hrows := by
    have hinsert : readInsertUser (Sql.getUserByUsernameTokens username) = none := rfl
    have hselect : readSelectUser (Sql.getUserByUsernameTokens username) = some username := rfl
    simp only [sampleUsersDb, hlex, hinsert, hselect, Option.some.injEq] at hrows
    exact ⟨_, .refl _, hrows.symm⟩
  answers d text username hlex := by
    have hinsert : readInsertUser (Sql.getUserByUsernameTokens username) = none := rfl
    have hselect : readSelectUser (Sql.getUserByUsernameTokens username) = some username := rfl
    simp [sampleUsersDb, hlex, hinsert, hselect]

def registerJson (username password : String) : Json :=
  ((Json.null.assign fieldMsgType (.string msgTypeRegister)).assign fieldUsername
    (.string (ascii username))).assign fieldPassword (.string (ascii password))

def registerEnv : Env (DbConnection (List User × List Row)) (DbConnection (List (ℤ × Bytes))) :=
  mysqlEnv (parseOnly [registerJson "bob" "builder", loginJson "bob" "builder"]) sampleCrypto
    (fun _ => none) sampleUsersDb (sampleMessages true)

-- Bob registers.
def sampleRegister : List Event := connects 0 ++ [tells 0 (registerJson "bob" "builder")]

def afterRegister :
    Server (DbConnection (List User × List Row)) (DbConnection (List (ℤ × Bytes))) :=
  (start sampleUsersStart sampleMessagesStart).play registerEnv sampleRegister

theorem path_afterRegister :
    Path (Step registerEnv) (start sampleUsersStart sampleMessagesStart) sampleRegister
      afterRegister := by
  have hplays : Plays registerEnv (fun _ _ => True) (start sampleUsersStart sampleMessagesStart)
      sampleRegister := by decide +kernel
  exact (path_of_plays _ hplays).unrestrict

theorem logins_registered_afterRegister :
    ∃ password stored, (tells 0 (loginJson "bob" "builder")).Login registerEnv 0 (ascii "bob")
        password ∧ password = cString stored ∧
      ∃ conn, ∃ e ∈ sampleRegister, e.Asks registerEnv conn (.register (ascii "bob") stored) := by
  have hanswer : .loginAnswered 0 (ascii "bob") ∈
      afterRegister.effects registerEnv (tells 0 (loginJson "bob" "builder")) := by decide +kernel
  obtain ⟨password, stored, hlogin, hstored, haccount⟩ :=
    logins_registered sampleUsersDb_answers.toAnswersUsers path_afterRegister hanswer
  refine ⟨password, stored, hlogin, hstored, haccount.resolve_left ?_⟩
  simp [accounts, start, sampleUsersStart]

end Sample

end Server

end MyTestserver
