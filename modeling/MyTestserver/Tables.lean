import MyTestserver.Library.Ranking
import MyTestserver.StatementTheorems

namespace MyTestserver

open Ranking

section Tables

variable {δ τ α : Type}

-- A row of the messages table. The id of its author is one of the users table.
structure StoredMessage (τ : Type) where
  id : ℤ
  userId : ℤ
  content : Bytes
  timestamp : τ
  deriving DecidableEq

-- A row of the answer to the SELECT of getUserByUsername.
def User.row (user : User) : Row :=
  [some (toDecimal user.id), some user.username, some user.password]

-- A row of the answer to the SELECT of getRecentMessages: joined with the name of the
-- author, and the time as DATE_FORMAT writes it.
def StoredMessage.row (author : ℤ → Bytes) (format : τ → String) (m : StoredMessage τ) : Row :=
  [some (toDecimal m.id), some (toDecimal m.userId), some (author m.userId), some m.content,
    some (ascii (format m.timestamp))]

-- Reading leaves this part of the database as it is.
structure ReadsOnly (api : Mysql δ) (view : δ → α) : Prop where
  select : ∀ d text tokens, Sql.lex text = some (Sql.keyword "SELECT" :: tokens) →
    view (api.mysql_query d text).2 = view d
  fetch : ∀ d, view (api.mysql_store_result d).2 = view d

-- The users table behind a connection: an INSERT that MySQL takes adds a row with the values
-- of its literals, one that it does not take adds none.
structure UsersTable (api : Mysql δ) (table : δ → List User) : Prop
    extends ReadsOnly api table where
  insert : ∀ d text username password,
    Sql.lex text = some (Sql.insertUserTokens username password) →
    if (api.mysql_query d text).1 then
      ∃ id, table (api.mysql_query d text).2 = table d ++ [⟨id, username, password⟩]
    else table (api.mysql_query d text).2 = table d

-- The messages table in the same way. A row gets its id and its timestamp from MySQL.
structure MessagesTable (api : Mysql δ) (table : δ → List (StoredMessage τ)) : Prop
    extends ReadsOnly api table where
  insert : ∀ d text userId content,
    Sql.lex text = some (Sql.saveMessageTokens userId content) →
    if (api.mysql_query d text).1 then
      ∃ id timestamp,
        table (api.mysql_query d text).2 = table d ++ [⟨id, userId, content, timestamp⟩]
    else table (api.mysql_query d text).2 = table d

-- A client library that has these rows for any query.
def Mysql.answering (rows : List Row) : Mysql δ where
  mysql_query d _ := (true, d)
  mysql_store_result d := (some rows, d)

end Tables

namespace DbConnection

variable {δ τ α : Type} {api : Mysql δ} (db : DbConnection δ)

section Statements

theorem execute_eq {text : Bytes} (htext : cString text = text) (h : db.connected = true) :
    db.execute api text =
      ((api.mysql_query db.mysql text).1,
        { db with mysql := (api.mysql_query db.mysql text).2 }) := by
  unfold execute
  rw [htext]
  simp [h]

theorem insertUser_fst (username password : Bytes) :
    (db.insertUser api username password).1 = true ↔ db.connected = true ∧
      (api.mysql_query db.mysql (insertUserSql username password)).1 = true := by
  unfold insertUser
  by_cases hconnected : db.connected = true
  · simp [hconnected, db.execute_eq (Sql.cString_insertUserSql username password) hconnected]
  · simp [hconnected]

theorem saveMessage_fst (userId : ℤ) (content : Bytes) :
    (db.saveMessage api userId content).1 = true ↔ db.connected = true ∧
      (api.mysql_query db.mysql (saveMessageSql userId content)).1 = true := by
  unfold saveMessage
  by_cases hconnected : db.connected = true
  · simp [hconnected, db.execute_eq (Sql.cString_saveMessageSql userId content) hconnected]
  · simp [hconnected]

-- What came back for a query stands in the result.
theorem query_row {text : Bytes} {row : Row} {rows : List Row} (htext : cString text = text)
    (hquery : (db.query api text).1 = some (row :: rows)) :
    (api.mysql_query db.mysql text).1 = true ∧
      (api.mysql_store_result (api.mysql_query db.mysql text).2).1 = some (row :: rows) := by
  unfold query at hquery
  rw [htext] at hquery
  by_cases hconnected : db.connected = false
  · simp [hconnected] at hquery
  · rw [if_neg hconnected] at hquery
    cases hresult : api.mysql_query db.mysql text with
    | mk ok mysql =>
        cases ok with
        | true =>
            rw [hresult] at hquery
            exact ⟨rfl, hquery⟩
        | false => simp [hresult] at hquery

theorem connected_of_query {text : Bytes} {rows : List Row}
    (h : (db.query api text).1 = some rows) : db.connected = true := by
  by_contra hconnected
  simp [query, Bool.eq_false_iff.mpr hconnected] at h

theorem query_answering (h : db.connected = true) (text : Bytes) (rows : List Row) :
    (db.query (.answering rows) text).1 = some rows := by
  simp [query, Mysql.answering, h]

theorem query_connected (text : Bytes) : (db.query api text).2.connected = db.connected := by
  unfold query
  split
  · rfl
  · split <;> rfl

theorem execute_connected (text : Bytes) : (db.execute api text).2.connected = db.connected := by
  unfold execute
  split <;> rfl

-- The calls of the DAOs leave the connection to their one statement.

theorem insertUser_snd (username password : Bytes) :
    (db.insertUser api username password).2 =
      (db.execute api (insertUserSql username password)).2 := by
  unfold insertUser execute
  split <;> rfl

theorem saveMessage_snd (userId : ℤ) (content : Bytes) :
    (db.saveMessage api userId content).2 = (db.execute api (saveMessageSql userId content)).2 := by
  unfold saveMessage execute
  split <;> rfl

theorem getUserByUsername_snd (username : Bytes) :
    (db.getUserByUsername api username).2 =
      (db.query api (getUserByUsernameSql username)).2 := by
  unfold getUserByUsername
  split
  · rename_i hconnected
    rw [query, if_pos hconnected]
  · split <;> simp_all

theorem getRecentMessages_snd (limit : ℤ) :
    (db.getRecentMessages api limit).2 = (db.query api (getRecentMessagesSql limit)).2 := by
  unfold getRecentMessages
  split
  · rename_i hconnected
    rw [query, if_pos hconnected]
  · split <;> simp_all

theorem heartBeat_snd : (db.heartBeat api).2 = (db.query api (ascii "SELECT 1")).2 := by
  unfold heartBeat
  split
  · rename_i hconnected
    rw [query, if_pos hconnected]
  · rfl

-- No call brings the connection up or down.

theorem insertUser_connected (username password : Bytes) :
    (db.insertUser api username password).2.connected = db.connected := by
  rw [insertUser_snd, execute_connected]

theorem saveMessage_connected (userId : ℤ) (content : Bytes) :
    (db.saveMessage api userId content).2.connected = db.connected := by
  rw [saveMessage_snd, execute_connected]

theorem getUserByUsername_connected (username : Bytes) :
    (db.getUserByUsername api username).2.connected = db.connected := by
  rw [getUserByUsername_snd, query_connected]

theorem getRecentMessages_connected (limit : ℤ) :
    (db.getRecentMessages api limit).2.connected = db.connected := by
  rw [getRecentMessages_snd, query_connected]

theorem heartBeat_connected : (db.heartBeat api).2.connected = db.connected := by
  rw [heartBeat_snd, query_connected]

theorem getUserByUsername_of_query {username : Bytes} {rows : List Row}
    (h : (db.query api (getUserByUsernameSql username)).1 = some rows) :
    (db.getUserByUsername api username).1 = rows.head?.map userOf := by
  unfold getUserByUsername
  rw [if_neg (by simp [db.connected_of_query h])]
  cases hresult : db.query api (getUserByUsernameSql username) with
  | mk result db' =>
      rw [hresult] at h
      obtain rfl : result = some rows := h
      rfl

theorem getRecentMessages_of_query {limit : ℤ} {rows : List Row}
    (h : (db.query api (getRecentMessagesSql limit)).1 = some rows) :
    (db.getRecentMessages api limit).1 = (rows.map messageOf).reverse := by
  unfold getRecentMessages
  rw [if_neg (by simp [db.connected_of_query h])]
  cases hresult : db.query api (getRecentMessagesSql limit) with
  | mk result db' =>
      rw [hresult] at h
      obtain rfl : result = some rows := h
      rfl

end Statements

section Answers

-- The rows of the name come back for it, in any order.
def FindsUser (api : Mysql δ) (table : List User) (username : Bytes) : Prop :=
  ∃ found : List User, found.Perm (table.filter fun user => user.username = username) ∧
    (db.query api (getUserByUsernameSql username)).1 = some (found.map User.row)

-- The first rows come back of an order of the table by its timestamps, the latest first.
structure FindsRecent [LinearOrder τ] (api : Mysql δ) (author : ℤ → Bytes) (format : τ → String)
    (table : List (StoredMessage τ)) (limit : ℕ) (order : List (StoredMessage τ)) : Prop where
  descending : Descending StoredMessage.timestamp table order
  query : (db.query api (getRecentMessagesSql limit)).1 =
    some ((order.take limit).map (StoredMessage.row author format))

theorem getRecentMessages_of_finds [LinearOrder τ] {author : ℤ → Bytes} {format : τ → String}
    {table order : List (StoredMessage τ)} {limit : ℕ}
    (h : db.FindsRecent api author format table limit order) :
    (db.getRecentMessages api limit).1 =
      ((order.take limit).map fun m => messageOf (m.row author format)).reverse := by
  rw [db.getRecentMessages_of_query h.query, List.map_map]
  rfl

-- MySQL may answer with any such order.
theorem findsRecent_answering [LinearOrder τ] (hconnected : db.connected = true)
    (author : ℤ → Bytes) (format : τ → String) {table order : List (StoredMessage τ)}
    (horder : Descending StoredMessage.timestamp table order) (limit : ℕ) :
    db.FindsRecent (.answering ((order.take limit).map (StoredMessage.row author format))) author
      format table limit order :=
  ⟨horder, db.query_answering hconnected _ _⟩

end Answers

section Views

variable {view : δ → α}

theorem query_view (h : ReadsOnly api view) {text : Bytes} (htext : cString text = text)
    {tokens : List Sql.Token} (hlex : Sql.lex text = some (Sql.keyword "SELECT" :: tokens)) :
    view (db.query api text).2.mysql = view db.mysql := by
  have hselect := h.select db.mysql text tokens hlex
  have hfetch := h.fetch (api.mysql_query db.mysql text).2
  unfold query
  rw [htext]
  cases hresult : api.mysql_query db.mysql text with
  | mk ok mysql =>
      rw [hresult] at hselect hfetch
      cases ok with
      | true =>
          split
          · rfl
          · exact hfetch.trans hselect
      | false =>
          split
          · rfl
          · exact hselect

theorem getUserByUsername_view (h : ReadsOnly api view) (username : Bytes) :
    view (db.getUserByUsername api username).2.mysql = view db.mysql := by
  rw [getUserByUsername_snd]
  exact db.query_view h (Sql.cString_getUserByUsernameSql username)
    (Sql.lex_getUserByUsername username)

theorem getRecentMessages_view (h : ReadsOnly api view) (limit : ℤ) :
    view (db.getRecentMessages api limit).2.mysql = view db.mysql := by
  obtain ⟨tokens, hlex⟩ := Sql.lex_getRecentMessages limit
  rw [getRecentMessages_snd]
  exact db.query_view h (Sql.cString_getRecentMessagesSql limit) hlex

theorem heartBeat_view (h : ReadsOnly api view) :
    view (db.heartBeat api).2.mysql = view db.mysql := by
  rw [heartBeat_snd]
  exact db.query_view h Sql.cString_heartBeat Sql.lex_heartBeat

theorem insertUser_table {table : δ → List User} (h : UsersTable api table)
    (username password : Bytes) :
    if (db.insertUser api username password).1 then
      ∃ id, table (db.insertUser api username password).2.mysql =
        table db.mysql ++ [⟨id, username, password⟩]
    else table (db.insertUser api username password).2.mysql = table db.mysql := by
  have hinsert := h.insert db.mysql _ username password (Sql.lex_insertUser username password)
  unfold insertUser
  by_cases hconnected : db.connected = true
  · simpa [hconnected, db.execute_eq (Sql.cString_insertUserSql username password) hconnected]
      using hinsert
  · simp [hconnected]

theorem saveMessage_table {table : δ → List (StoredMessage τ)} (h : MessagesTable api table)
    (userId : ℤ) (content : Bytes) :
    if (db.saveMessage api userId content).1 then
      ∃ id timestamp, table (db.saveMessage api userId content).2.mysql =
        table db.mysql ++ [⟨id, userId, content, timestamp⟩]
    else table (db.saveMessage api userId content).2.mysql = table db.mysql := by
  have hinsert := h.insert db.mysql _ userId content (Sql.lex_saveMessage userId content)
  unfold saveMessage
  by_cases hconnected : db.connected = true
  · simpa [hconnected, db.execute_eq (Sql.cString_saveMessageSql userId content) hconnected]
      using hinsert
  · simp [hconnected]

end Views

end DbConnection

end MyTestserver
