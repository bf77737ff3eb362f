import MyTestserver.ChatTheorems

namespace MyTestserver

open Ranking Transition

namespace DbConnection

-- What the server asks of the connection of a UserDao; verifyUser and userExists come to
-- getUserByUsername.
inductive UserCall
  | insertUser (username password : Bytes)
  | getUserByUsername (username : Bytes)
  | heartBeat

-- And of the connection of a MessageDao.
inductive MessageCall
  | saveMessage (userId : ℤ) (content : Bytes)
  | getRecentMessages (limit : ℤ)
  | heartBeat

variable {δ τ : Type} (api : Mysql δ) (db : DbConnection δ)

def userCall : UserCall → DbConnection δ
  | .insertUser username password => (db.insertUser api username password).2
  | .getUserByUsername username => (db.getUserByUsername api username).2
  | .heartBeat => (db.heartBeat api).2

def messageCall : MessageCall → DbConnection δ
  | .saveMessage userId content => (db.saveMessage api userId content).2
  | .getRecentMessages limit => (db.getRecentMessages api limit).2
  | .heartBeat => (db.heartBeat api).2

def UserStep (call : UserCall) (db' : DbConnection δ) : Prop := db' = db.userCall api call

def MessageStep (call : MessageCall) (db' : DbConnection δ) : Prop := db' = db.messageCall api call

section Keeps

variable {β : Type} {table : δ → List β} {api db} {db' db'' : DbConnection δ}

-- The connection stays up or down, and a row that is in the table stays there.
structure Keeps (table : δ → List β) (db db' : DbConnection δ) : Prop where
  connected : db'.connected = db.connected
  rows : table db.mysql ⊆ table db'.mysql

theorem Keeps.refl (db : DbConnection δ) : Keeps table db db := ⟨rfl, List.Subset.refl _⟩

theorem Keeps.trans (h : Keeps table db db') (h' : Keeps table db' db'') : Keeps table db db'' :=
  ⟨h'.connected.trans h.connected, List.Subset.trans h.rows h'.rows⟩

theorem Keeps.of_eq (hconnected : db'.connected = db.connected)
    (hrows : table db'.mysql = table db.mysql) : Keeps table db db' :=
  ⟨hconnected, hrows ▸ List.Subset.refl _⟩

theorem keeps_userStep {table : δ → List User} (h : UsersTable api table) {call : UserCall}
    (hstep : UserStep api db call db') : Keeps table db db' := by
  obtain rfl := hstep
  cases call with
  | insertUser username password =>
      have hconnected : (db.insertUser api username password).2.connected = db.connected :=
        db.insertUser_connected username password
      have hinsert := db.insertUser_table h username password
      split at hinsert
      · obtain ⟨id, htable⟩ := hinsert
        exact ⟨hconnected, htable ▸ List.subset_append_left _ _⟩
      · exact .of_eq hconnected hinsert
  | getUserByUsername username =>
      exact .of_eq (db.getUserByUsername_connected username)
        (db.getUserByUsername_view h.toReadsOnly username)
  | heartBeat => exact .of_eq db.heartBeat_connected (db.heartBeat_view h.toReadsOnly)

theorem keeps_messageStep {table : δ → List (StoredMessage τ)} (h : MessagesTable api table)
    {call : MessageCall} (hstep : MessageStep api db call db') : Keeps table db db' := by
  obtain rfl := hstep
  cases call with
  | saveMessage userId content =>
      have hconnected : (db.saveMessage api userId content).2.connected = db.connected :=
        db.saveMessage_connected userId content
      have hinsert := db.saveMessage_table h userId content
      split at hinsert
      · obtain ⟨id, timestamp, htable⟩ := hinsert
        exact ⟨hconnected, htable ▸ List.subset_append_left _ _⟩
      · exact .of_eq hconnected hinsert
  | getRecentMessages limit =>
      exact .of_eq (db.getRecentMessages_connected limit)
        (db.getRecentMessages_view h.toReadsOnly limit)
  | heartBeat => exact .of_eq db.heartBeat_connected (db.heartBeat_view h.toReadsOnly)

theorem Keeps.run {call : Type} {step : DbConnection δ → call → DbConnection δ → Prop}
    (hstep : ∀ {db c db'}, step db c db' → Keeps table db db') {calls : List call}
    (hrun : Path step db calls db') : Keeps table db db' :=
  hrun.invariant (Keeps table db) (fun _ _ _ hkept h => hkept.trans (hstep h)) (.refl db)

end Keeps

section ReadBack

variable {api db} {db' : DbConnection δ}

-- verifyUser compares with what the first row reads as.
theorem verifyUser_of_query {username : Bytes} {user : User} {rows : List Row} (password : Bytes)
    (h : (db.query api (getUserByUsernameSql username)).1 = some (user.row :: rows)) :
    ((userDao api).verifyUser db username password).1 = true ↔
      password = cString user.password := by
  have hfound := db.getUserByUsername_of_query h
  cases hresult : db.getUserByUsername api username with
  | mk found db' =>
      rw [hresult] at hfound
      obtain rfl : found = some (userOf user.row) := hfound
      simp only [UserDao.verifyUser, userDao, hresult, beq_iff_eq]
      exact eq_comm

theorem insertUser_row {table : δ → List User} (h : UsersTable api table)
    {username password : Bytes} (hinsert : (db.insertUser api username password).1 = true) :
    db.connected = true ∧
      ∃ id, ⟨id, username, password⟩ ∈ table (db.insertUser api username password).2.mysql := by
  have htable := db.insertUser_table h username password
  rw [if_pos hinsert] at htable
  obtain ⟨id, htable⟩ := htable
  exact ⟨((db.insertUser_fst username password).mp hinsert).1, id, by simp [htable]⟩

theorem saveMessage_row {table : δ → List (StoredMessage τ)} (h : MessagesTable api table)
    {userId : ℤ} {content : Bytes} (hsave : (db.saveMessage api userId content).1 = true) :
    db.connected = true ∧ ∃ m ∈ table (db.saveMessage api userId content).2.mysql,
      m.userId = userId ∧ m.content = content := by
  have htable := db.saveMessage_table h userId content
  rw [if_pos hsave] at htable
  obtain ⟨id, timestamp, htable⟩ := htable
  exact ⟨((db.saveMessage_fst userId content).mp hsave).1, ⟨id, userId, content, timestamp⟩,
    by simp [htable], rfl, rfl⟩

-- However MySQL answers, the password is the only one that is accepted for the name.
def AcceptsOnly (db : DbConnection δ) (table : List User) (username password : Bytes) : Prop :=
  ∀ (api : Mysql δ) password', db.FindsUser api table username →
    (((userDao api).verifyUser db username password').1 = true ↔ password' = password)

theorem acceptsOnly_iff (hconnected : db.connected = true) {table : List User} {id : ℤ}
    {username password : Bytes} (hmem : ⟨id, username, password⟩ ∈ table) :
    db.AcceptsOnly table username password ↔
      0 ∉ password ∧
        ∀ user ∈ table, user.username = username → cString user.password = password := by
  have hfilter : ∀ user ∈ table, user.username = username →
      user ∈ table.filter fun user => user.username = username := by
    intro user huser hname
    exact List.mem_filter.mpr ⟨huser, by simpa using hname⟩
  constructor
  · intro haccepts
    have hreads : ∀ user ∈ table, user.username = username → cString user.password = password := by
      intro user huser hname
      -- MySQL may come up with this row first.
      have hperm := List.perm_cons_erase (hfilter user huser hname)
      have hquery := db.query_answering hconnected (getUserByUsernameSql username)
        ((user :: (table.filter fun user => user.username = username).erase user).map User.row)
      have hverify := verifyUser_of_query (cString user.password) hquery
      exact (haccepts _ (cString user.password) ⟨_, hperm.symm, hquery⟩).mp (hverify.mpr rfl)
    exact ⟨cString_eq_self_iff.mp (hreads _ hmem rfl), hreads⟩
  · rintro ⟨_, hreads⟩ api password' ⟨found, hperm, hquery⟩
    have hfound := hperm.mem_iff.mpr (hfilter _ hmem rfl)
    cases found with
    | nil => cases hfound
    | cons user found =>
        have huser := List.mem_filter.mp (hperm.mem_iff.mp (List.mem_cons_self))
        rw [verifyUser_of_query password' hquery, hreads user huser.1 (by simpa using huser.2)]

variable [LinearOrder τ] (author : ℤ → Bytes) (format : τ → String)

-- However MySQL answers, the messages made of this row have the content that was saved.
def ReadsBack (db : DbConnection δ) (table : List (StoredMessage τ)) (m : StoredMessage τ) : Prop :=
  ∀ (api : Mysql δ) limit order, db.FindsRecent api author format table limit order →
    List.Forall₂ (fun row (msg : Message) => row = m → msg.content = m.content) (order.take limit)
      (db.getRecentMessages api limit).1.reverse

theorem readsBack_iff (hconnected : db.connected = true) {table : List (StoredMessage τ)}
    {m : StoredMessage τ} (hmem : m ∈ table) :
    db.ReadsBack author format table m ↔ 0 ∉ m.content := by
  have hforall : ∀ (api : Mysql δ) limit order, db.FindsRecent api author format table limit order →
      (List.Forall₂ (fun row (msg : Message) => row = m → msg.content = m.content)
        (order.take limit) (db.getRecentMessages api limit).1.reverse ↔
          ∀ row ∈ order.take limit, row = m → cString row.content = m.content) := by
    intro api limit order hfinds
    rw [db.getRecentMessages_of_finds hfinds, List.reverse_reverse, List.forall₂_map_right_iff,
      List.forall₂_same]
    rfl
  rw [← cString_eq_self_iff]
  constructor
  · intro hreads
    obtain ⟨order, horder⟩ := exists_descending StoredMessage.timestamp table
    have hfinds := db.findsRecent_answering hconnected author format horder order.length
    have hall := (hforall _ _ _ hfinds).mp (hreads _ _ _ hfinds)
    rw [List.take_length] at hall
    exact hall m (horder.perm.mem_iff.mpr hmem) rfl
  · intro hcontent api limit order hfinds
    refine (hforall api limit order hfinds).mpr ?_
    rintro row _ rfl
    exact hcontent

-- Passwords and messages come back as they were stored exactly when they have no NUL: they
-- are escaped by their length and read as C strings. For a password, no other row of the
-- name may read as another one.
theorem stored_readBack_iff {υ : Type} {usersApi : Mysql υ} {users users' : DbConnection υ}
    {userTable : υ → List User} (husers : UsersTable usersApi userTable)
    {messagesApi : Mysql δ} {messages messages' : DbConnection δ}
    {messageTable : δ → List (StoredMessage τ)} (hmessages : MessagesTable messagesApi messageTable)
    {username password content : Bytes} {userId : ℤ} {userCalls : List UserCall}
    {messageCalls : List MessageCall}
    (hinsert : (users.insertUser usersApi username password).1 = true)
    (hsave : (messages.saveMessage messagesApi userId content).1 = true)
    (huserRun : Path (UserStep usersApi) (users.insertUser usersApi username password).2 userCalls
      users')
    (hmessageRun : Path (MessageStep messagesApi)
      (messages.saveMessage messagesApi userId content).2 messageCalls messages') :
    (users'.AcceptsOnly (userTable users'.mysql) username password ↔
        0 ∉ password ∧ ∀ user ∈ userTable users'.mysql, user.username = username →
          cString user.password = password) ∧
      ∃ m ∈ messageTable messages'.mysql, m.userId = userId ∧ m.content = content ∧
        (messages'.ReadsBack author format (messageTable messages'.mysql) m ↔ 0 ∉ content) := by
  have hkept := Keeps.run (keeps_userStep husers) huserRun
  have hkept' := Keeps.run (keeps_messageStep hmessages) hmessageRun
  obtain ⟨hconnected, id, hrow⟩ := insertUser_row husers hinsert
  obtain ⟨hconnected', m, hm, huserId, hcontent⟩ := saveMessage_row hmessages hsave
  have hup : users'.connected = true := by
    rw [hkept.connected, insertUser_connected, hconnected]
  have hup' : messages'.connected = true := by
    rw [hkept'.connected, saveMessage_connected, hconnected']
  refine ⟨acceptsOnly_iff hup (hkept.rows hrow), m, hkept'.rows hm, huserId, hcontent, ?_⟩
  rw [readsBack_iff author format hup' (hkept'.rows hm), hcontent]

end ReadBack

section Sample

open Server (sampleMessages readInsert_tokens readInsert_select)

-- A users table in memory, with the rows of the last SELECT.

def readInsertUser (tokens : List Sql.Token) : Option (Bytes × Bytes) :=
  if tokens.take 10 = (Sql.insertUserTokens [] []).take 10 then
    match tokens.drop 10 with
    | [.string username, _, .string password, _] => some (username, password)
    | _ => none
  else none

def readSelectUser (tokens : List Sql.Token) : Option Bytes :=
  if tokens.take 11 = (Sql.getUserByUsernameTokens []).take 11 then
    match tokens.drop 11 with
    | [.string username] => some username
    | _ => none
  else none

def sampleUsersDb : Mysql (List User × List Row) where
  mysql_query d text :=
    match Sql.lex text with
    | none => (false, d)
    | some tokens =>
        match readInsertUser tokens, readSelectUser tokens with
        | some (username, password), _ =>
            (true, (d.1 ++ [⟨d.1.length + 1, username, password⟩], []))
        | none, some username =>
            (true, (d.1, (d.1.filter fun user => user.username = username).map User.row))
        | none, none => (true, (d.1, []))
  mysql_store_result d := (some d.2, d)

theorem sampleUsersDb_table : UsersTable sampleUsersDb Prod.fst where
  select d text tokens h := by
    have hverb : Sql.keyword "SELECT" ≠ Sql.keyword "INSERT" := by decide
    have hread : readInsertUser (Sql.keyword "SELECT" :: tokens) = none :=
      if_neg fun hsame => hverb (List.cons.inj hsame).1
    simp only [sampleUsersDb, h, hread]
    split <;> simp_all
  fetch d := rfl
  insert d text username password h := by
    have hread : readInsertUser (Sql.insertUserTokens username password) =
        some (username, password) := rfl
    simp only [sampleUsersDb, h, hread, if_true]
    exact ⟨_, rfl⟩

-- The messages of the other sample, with a clock for their timestamps.
def sampleTable (clock : ℕ → ℕ) (rows : List (ℤ × Bytes)) : List (StoredMessage ℕ) :=
  rows.mapIdx fun i row => ⟨i + 1, row.1, row.2, clock i⟩

theorem sampleMessages_table (accepts : Bool) (clock : ℕ → ℕ) :
    MessagesTable (sampleMessages accepts) (sampleTable clock) where
  select d text tokens h := by
    simp only [sampleMessages, h, Option.bind_some, readInsert_select]
  fetch d := rfl
  insert d text userId content h := by
    simp only [sampleMessages, h, Option.bind_some, readInsert_tokens]
    cases accepts with
    | true => exact ⟨_, _, List.mapIdx_concat⟩
    | false => simp

def sampleUsersStart : DbConnection (List User × List Row) := ⟨true, ([], [])⟩

def sampleMessagesStart : DbConnection (List (ℤ × Bytes)) := ⟨true, []⟩

-- Bob registers, then Alice does; Bob says something and reads the history.

def sampleUsersInserted : DbConnection (List User × List Row) :=
  (sampleUsersStart.insertUser sampleUsersDb (ascii "bob") (ascii "builder")).2

def sampleUsersLater : DbConnection (List User × List Row) :=
  sampleUsersInserted.userCall sampleUsersDb (.insertUser (ascii "alice") (ascii "wonder"))

def sampleMessagesSaved : DbConnection (List (ℤ × Bytes)) :=
  (sampleMessagesStart.saveMessage (sampleMessages true) 1 (ascii "hi")).2

def sampleMessagesLater : DbConnection (List (ℤ × Bytes)) :=
  sampleMessagesSaved.messageCall (sampleMessages true) (.getRecentMessages 10)

theorem stored_readBack_sample :
    sampleUsersLater.AcceptsOnly sampleUsersLater.mysql.1 (ascii "bob") (ascii "builder") ∧
      ∃ m ∈ sampleTable id sampleMessagesLater.mysql, m.content = ascii "hi" ∧
        sampleMessagesLater.ReadsBack (fun _ => ascii "bob") (fun _ => "2025-01-01 00:00:00")
          (sampleTable id sampleMessagesLater.mysql) m := by
  have hinsert : (sampleUsersStart.insertUser sampleUsersDb (ascii "bob") (ascii "builder")).1 =
      true := by decide +kernel
  have hsave : (sampleMessagesStart.saveMessage (sampleMessages true) 1 (ascii "hi")).1 = true := by
    decide +kernel
  have huserRun : Path (UserStep sampleUsersDb) sampleUsersInserted
      [.insertUser (ascii "alice") (ascii "wonder")] sampleUsersLater := .cons rfl (.nil _)
  have hmessageRun : Path (MessageStep (sampleMessages true)) sampleMessagesSaved
      [.getRecentMessages 10] sampleMessagesLater := .cons rfl (.nil _)
  obtain ⟨haccepts, m, hm, _, hcontent, hreads⟩ := stored_readBack_iff (fun _ => ascii "bob")
    (fun _ => "2025-01-01 00:00:00") sampleUsersDb_table (sampleMessages_table true id) hinsert
    hsave huserRun hmessageRun
  exact ⟨haccepts.mpr (by decide +kernel), m, hm, hcontent, hreads.mpr (by decide)⟩

-- A password with a NUL is not accepted, and what stands before the NUL is.
theorem nul_not_readBack :
    ¬∀ username password password' : Bytes,
      (sampleUsersStart.insertUser sampleUsersDb username password).1 = true →
        (((userDao sampleUsersDb).verifyUser
          (sampleUsersStart.insertUser sampleUsersDb username password).2 username password').1 =
            true ↔ password' = password) := by
  intro h
  have hverify := h (ascii "bob") [97, 0, 98] [97] (by decide +kernel)
  exact absurd (hverify.mp (by decide +kernel)) (by decide)

end Sample

end DbConnection

end MyTestserver
