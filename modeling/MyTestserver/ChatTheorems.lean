import Mathlib.Data.Multiset.Filter
import MyTestserver.PayloadTheorems
import MyTestserver.Tables

namespace MyTestserver

open SessionManager ChatService ChatServer Transition

section Tables

variable {δ : Type}

-- The messages table behind a connection, a row for it being the id of the author and the
-- content: an INSERT that MySQL takes adds its row, one that it does not take adds none,
-- and reading changes nothing.
structure StoresMessages (api : Mysql δ) (rows : δ → Multiset (ℤ × Bytes)) : Prop where
  insert : ∀ m text userId content, Sql.lex text = some (Sql.saveMessageTokens userId content) →
    rows (api.mysql_query m text).2 =
      if (api.mysql_query m text).1 then (userId, content) ::ₘ rows m else rows m
  select : ∀ m text tokens, Sql.lex text = some (Sql.keyword "SELECT" :: tokens) →
    rows (api.mysql_query m text).2 = rows m
  fetch : ∀ m, rows (api.mysql_store_result m).2 = rows m

-- The users table: what comes back for a name is about the user of that name, who is the
-- author of the messages with the id.
structure KnowsUsers (api : Mysql δ) (author : ℤ → Bytes) : Prop where
  select : ∀ m text username row rows,
    Sql.lex text = some (Sql.getUserByUsernameTokens username) →
    (api.mysql_query m text).1 = true →
    (api.mysql_store_result (api.mysql_query m text).2).1 = some (row :: rows) →
    author (atoi (column row 0)) = username

namespace DbConnection

variable {api : Mysql δ} (db : DbConnection δ)

theorem saveMessage_rows {rows : δ → Multiset (ℤ × Bytes)} (h : StoresMessages api rows)
    (userId : ℤ) (content : Bytes) :
    rows (db.saveMessage api userId content).2.mysql =
      if (db.saveMessage api userId content).1 then (userId, content) ::ₘ rows db.mysql
      else rows db.mysql := by
  have hinsert := h.insert db.mysql (saveMessageSql userId content) userId content
    (Sql.lex_saveMessage userId content)
  unfold saveMessage execute
  rw [Sql.cString_saveMessageSql]
  by_cases hconnected : db.connected = false
  · simp [hconnected]
  · simpa [hconnected] using hinsert

theorem getRecentMessages_rows {rows : δ → Multiset (ℤ × Bytes)} (h : StoresMessages api rows)
    (limit : ℤ) : rows (db.getRecentMessages api limit).2.mysql = rows db.mysql :=
  db.getRecentMessages_view ⟨h.select, h.fetch⟩ limit

theorem author_getUserByUsername {author : ℤ → Bytes} (h : KnowsUsers api author)
    {username : Bytes} {user : User}
    (huser : (db.getUserByUsername api username).1 = some user) : author user.id = username := by
  have hlex := Sql.lex_getUserByUsername username
  have htext := Sql.cString_getUserByUsernameSql username
  unfold getUserByUsername at huser
  split at huser
  · cases huser
  cases hresult : db.query api (getUserByUsernameSql username) with
  | mk result db' =>
      rw [hresult] at huser
      cases result with
      | none => cases huser
      | some rows =>
          obtain ⟨row, hrow, rfl⟩ := Option.map_eq_some_iff.mp huser
          obtain ⟨rest, rfl⟩ := List.head?_eq_some_iff.mp hrow
          obtain ⟨hok, hstored⟩ := db.query_row htext (congrArg Prod.fst hresult)
          exact h.select db.mysql _ username row rest hlex hok hstored

end DbConnection

end Tables

namespace Effect

def said : Effect → Option (Bytes × Bytes)
  | .broadcast sender content => some (sender, content)
  | _ => none

end Effect

namespace Server

section Publication

variable {υ μ : Type} (env : Env υ μ) (s : Server υ μ)

-- The author of a message that goes to the database and out to the users: a sender that
-- is online and known.
def author (sender content : Bytes) : Option User :=
  if content = [] ∨ isOnline s.sessions sender = false then none
  else (env.userDao.getUserByUsername s.users sender).1

-- What an event asks to be stored and broadcast: author, sender and content.
def publication : Event → Option (User × Bytes × Bytes)
  | .message conn payload _ =>
      match decode env payload with
      | .ok (.chat content) =>
          (s.author env (s.username conn) content).map fun user => (user, s.username conn, content)
      | _ => none
  | _ => none

-- The pairs of sender and content that were broadcast.
def broadcasts : Multiset (Bytes × Bytes) := s.trace.filterMap Effect.said

variable {env s}

theorem handleChat_author {sender content : Bytes} {user : User}
    (h : s.author env sender content = some user) (now : ℕ) :
    ∃ users, handleChat env now s sender content =
      publish env now { s with users := users } user sender content := by
  unfold author at h
  split at h
  · cases h
  rename_i hasks
  unfold handleChat
  rw [if_neg hasks]
  cases hresult : env.userDao.getUserByUsername s.users sender with
  | mk found users =>
      rw [hresult] at h
      obtain rfl : found = some user := h
      exact ⟨users, rfl⟩

theorem handleChat_no_author {sender content : Bytes} (h : s.author env sender content = none)
    (now : ℕ) : ∃ users, handleChat env now s sender content = (.ok (), { s with users := users }) := by
  unfold author at h
  unfold handleChat
  split
  · exact ⟨s.users, rfl⟩
  rename_i hasks
  rw [if_neg hasks] at h
  cases hresult : env.userDao.getUserByUsername s.users sender with
  | mk found users =>
      rw [hresult] at h
      obtain rfl : found = none := h
      exact ⟨users, rfl⟩

theorem broadcasts_of_trace {t : Server υ μ} (h : t.trace = s.trace) :
    t.broadcasts = s.broadcasts := by
  rw [broadcasts, broadcasts, h]

theorem Logs.broadcasts_eq {p : Effect → Prop} {t : Server υ μ} (h : Logs p s t)
    (hp : ∀ sender content, ¬p (.broadcast sender content)) : t.broadcasts = s.broadcasts := by
  obtain ⟨new, htrace, hnew⟩ := h
  have hnone : new.filterMap Effect.said = [] := by
    refine List.filterMap_eq_nil_iff.mpr fun x hx => ?_
    cases x with
    | broadcast sender content => exact absurd (hnew _ hx) (hp sender content)
    | _ => rfl
  rw [broadcasts, htrace, List.filterMap_append, hnone, List.append_nil, broadcasts]

theorem broadcasts_record (s : Server υ μ) {x : Effect} {pair : Bytes × Bytes}
    (h : x.said = some pair) : (s.record x).broadcasts = pair ::ₘ s.broadcasts := by
  have hnew : [x].filterMap Effect.said = [pair] := by simp [h]
  rw [broadcasts, record, List.filterMap_append, hnew]
  exact Multiset.coe_eq_coe.mpr (List.perm_append_singleton _ _)

-- A message that can be sent as JSON is broadcast.
theorem publish_broadcasts {sender content : Bytes} (hsender : ValidUtf8 sender)
    (hcontent : ValidUtf8 content) (now : ℕ) (user : User) :
    (publish env now s user sender content).2.broadcasts = (sender, content) ::ₘ s.broadcasts ∧
      (publish env now s user sender content).2.messages =
        (env.messageDao.saveMessage s.messages user.id content).2 := by
  unfold publish
  simp only [Json.dump_ok (broadcastMessage_utf8 hsender hcontent now)]
  have hsent := Server.sends_broadcastToAll
    ({ s with messages := (env.messageDao.saveMessage s.messages user.id content).2 }.record
      (.saved sender user.id content))
    (WebSocketHandler.encodeFrame (broadcastMessage sender content now).render) []
  refine ⟨?_, hsent.messages⟩
  rw [broadcasts_record _ (by rfl), broadcasts_of_trace hsent.trace]
  have hsaved : Logs (· = .saved sender user.id content) s
      ({ s with messages := (env.messageDao.saveMessage s.messages user.id content).2 }.record
        (.saved sender user.id content)) := .record (.of_eq rfl) rfl
  rw [hsaved.broadcasts_eq (by simp)]

-- Handlers other than handleChat broadcast nothing, and only read the messages.

variable {α : Type} {view : μ → α}
  (hread : ∀ m limit, view (env.messageDao.getRecentMessages m limit).2 = view m)

include hread

theorem view_handleGetHistory (conn : ConnId) (s : Server υ μ) (limit : ℤ) :
    view (handleGetHistory env conn s limit).2.messages = view s.messages := by
  have hrecent := hread s.messages limit
  unfold handleGetHistory sendHistory
  dsimp only
  split
  · dsimp only
    split
    · exact (congrArg view (Server.sends_send _ conn _).messages).trans hrecent
    · exact hrecent
  · exact hrecent

theorem view_dispatch (conn : ConnId) (now : ℕ) (s : Server υ μ) {request : Request}
    (h : ∀ content, request ≠ .chat content) :
    view (dispatch env conn now s request).2.messages = view s.messages := by
  cases request with
  | register username password =>
      obtain ⟨users, text, hresult⟩ := handleRegister_result env conn s username password
      rw [dispatch, hresult]
      exact congrArg view (Server.sends_send _ conn _).messages
  | login username password =>
      have hlogin := messages_handleLogin env conn now (s.setUsername conn username) username
        password
      simp only [dispatch]
      generalize handleLogin env conn now (s.setUsername conn username) username password = outcome
        at hlogin ⊢
      obtain ⟨_ | _, t⟩ := outcome
      · exact congrArg view hlogin
      · exact (view_handleGetHistory hread conn t 50).trans (congrArg view hlogin)
  | logout =>
      obtain ⟨text, hresult⟩ := handleLogout_result conn s (s.username conn)
      rw [dispatch, hresult, Outcome.andThen_ok]
      refine congrArg view ((Server.quiet_shutdown _ conn).messages.trans ?_)
      exact (Server.sends_send _ conn _).messages
  | chat content => exact absurd rfl (h content)
  | heartbeat =>
      obtain ⟨t, hresult, hsends⟩ := handleHeartbeat_result now s (s.username conn)
      rw [dispatch, hresult]
      refine congrArg view (hsends.messages.trans ?_)
      unfold refresh
      split <;> rfl
  | get_history limit => exact view_handleGetHistory hread conn s limit
  | unknown msgType => rfl

theorem view_exec (s : Server υ μ) {e : Event}
    (h : ∀ conn content, ¬e.Asks env conn (.chat content)) :
    view (s.exec env e).2.messages = view s.messages := by
  have hconnection : ∀ (t : Server υ μ) conn, (onConnection conn t).messages = t.messages := by
    intro t conn
    unfold onConnection onDisconnect
    split
    · rfl
    · dsimp only
      rw [(Server.quiet_shutdown _ conn).messages]
      split
      · split <;> rfl
      · rfl
  cases e with
  | up conn => exact congrArg view (hconnection _ conn)
  | request conn data => exact congrArg view (quiet_handleHandshake env conn s data).messages
  | closeFrame conn => exact congrArg view (s.quiet_shutdown conn).messages
  | down conn => exact congrArg view (hconnection _ conn)
  | message conn payload now =>
      rw [exec]
      cases hdecode : decode env payload with
      | ok request =>
          rw [handleWebSocketMessage_decoded env conn now s hdecode]
          refine view_dispatch hread conn now s fun content hchat => ?_
          exact h conn content ⟨payload, now, rfl, hchat ▸ hdecode⟩
      | error error =>
          by_cases hparse : error = .parse_error
          · rw [handleWebSocketMessage_parse_error env conn now s (hparse ▸ hdecode)]
            exact congrArg view (s.sends_send conn _).messages
          · rw [handleWebSocketMessage_uncaught env conn now s hdecode hparse]

end Publication

section Step

variable {υ μ : Type} {env : Env υ μ} {s : Server υ μ}

theorem publication_eq_some_iff {e : Event} {user : User} {sender content : Bytes} :
    s.publication env e = some (user, sender, content) ↔
      ∃ conn, e.Asks env conn (.chat content) ∧ s.username conn = sender ∧
        s.author env sender content = some user := by
  constructor
  · intro h
    unfold publication at h
    split at h
    · split at h
      · rename_i conn payload now _ content' hdecode
        obtain ⟨user', hauthor, hsame⟩ := Option.map_eq_some_iff.mp h
        obtain ⟨rfl, hpair⟩ := Prod.mk.inj hsame
        obtain ⟨rfl, rfl⟩ := Prod.mk.inj hpair
        exact ⟨conn, ⟨payload, now, rfl, hdecode⟩, rfl, hauthor⟩
      · cases h
    · cases h
  · rintro ⟨conn, ⟨payload, now, rfl, hdecode⟩, rfl, hauthor⟩
    simp [publication, hdecode, hauthor]

-- What is said in a step is saved, as far as the database takes it, and broadcast.
theorem exec_published {e : Event} {user : User} {sender content : Bytes}
    (hsender : ValidUtf8 sender) (hcontent : ValidUtf8 content)
    (h : s.publication env e = some (user, sender, content)) :
    (s.exec env e).2.broadcasts = (sender, content) ::ₘ s.broadcasts ∧
      (s.exec env e).2.messages = (env.messageDao.saveMessage s.messages user.id content).2 := by
  obtain ⟨conn, ⟨payload, now, rfl, hdecode⟩, rfl, hauthor⟩ := publication_eq_some_iff.mp h
  obtain ⟨users, hchat⟩ := handleChat_author hauthor now
  rw [exec, handleWebSocketMessage_decoded env conn now s hdecode, dispatch, hchat]
  exact publish_broadcasts hsender hcontent now user

theorem exec_unpublished {α : Type} (view : μ → α)
    (hread : ∀ m limit, view (env.messageDao.getRecentMessages m limit).2 = view m) {e : Event}
    (h : s.publication env e = none) :
    (s.exec env e).2.broadcasts = s.broadcasts ∧
      view (s.exec env e).2.messages = view s.messages := by
  by_cases hchat : ∃ conn content, e.Asks env conn (.chat content)
  · obtain ⟨conn, content, payload, now, rfl, hdecode⟩ := hchat
    have hauthor : s.author env (s.username conn) content = none := by
      simpa [publication, hdecode] using h
    obtain ⟨users, hresult⟩ := handleChat_no_author hauthor now
    rw [exec, handleWebSocketMessage_decoded env conn now s hdecode, dispatch, hresult]
    exact ⟨rfl, rfl⟩
  · simp only [not_exists] at hchat
    refine ⟨(logs_exec env s e).broadcasts_eq fun sender content hexplained => ?_,
      view_exec hread s hchat⟩
    obtain ⟨conn, hasks, _⟩ := hexplained
    exact hchat conn content hasks

theorem next_eq (env : Env υ μ) (s : Server υ μ) (e : Event) :
    (s.next env e).broadcasts = (s.exec env e).2.broadcasts ∧
      (s.next env e).messages = (s.exec env e).2.messages := by
  unfold next
  split
  · rename_i h
    rw [h]
    exact ⟨rfl, rfl⟩
  · rename_i h
    rw [h]
    exact ⟨rfl, rfl⟩

end Step

section History

variable {υ μ : Type} (parse : Bytes → Except Exception Json) (crypto : WebSocketHandler.Crypto)
  (readFile : Bytes → Option Bytes) (usersApi : Mysql υ) (messagesApi : Mysql μ)

-- The server on MySQL, with a connection for the users and one for the messages.
def mysqlEnv : Env (DbConnection υ) (DbConnection μ) where
  parse := parse
  crypto := crypto
  readFile := readFile
  userDao := DbConnection.userDao usersApi
  messageDao := DbConnection.messageDao messagesApi

variable (rows : μ → Multiset (ℤ × Bytes)) (author : ℤ → Bytes)

-- The pairs of sender and content in the messages table.
def stored (s : Server (DbConnection υ) (DbConnection μ)) : Multiset (Bytes × Bytes) :=
  (rows s.messages.mysql).map fun row => (author row.1, row.2)

-- What the table has beyond what it began with is what was broadcast.
def Recorded (s first : Server (DbConnection υ) (DbConnection μ)) : Prop :=
  s.stored rows author = first.stored rows author + s.broadcasts

instance (s first : Server (DbConnection υ) (DbConnection μ)) :
    Decidable (s.Recorded rows author first) := by
  unfold Recorded
  infer_instance

-- The database takes the message that is about to go out.
def SavesSafely (s : Server (DbConnection υ) (DbConnection μ)) (e : Event) : Prop :=
  ∀ said ∈ s.publication (mysqlEnv parse crypto readFile usersApi messagesApi) e,
    s.messages.connected = true ∧
      (messagesApi.mysql_query s.messages.mysql
        (DbConnection.saveMessageSql said.1.id said.2.2)).1 = true

instance (s : Server (DbConnection υ) (DbConnection μ)) (e : Event) :
    Decidable (s.SavesSafely parse crypto readFile usersApi messagesApi e) := by
  unfold SavesSafely
  infer_instance

variable {parse crypto readFile usersApi messagesApi rows author}

theorem savesSafely_iff {s : Server (DbConnection υ) (DbConnection μ)} {e : Event} {user : User}
    {sender content : Bytes}
    (h : s.publication (mysqlEnv parse crypto readFile usersApi messagesApi) e =
      some (user, sender, content)) :
    s.SavesSafely parse crypto readFile usersApi messagesApi e ↔
      (s.messages.saveMessage messagesApi user.id content).1 = true := by
  rw [DbConnection.saveMessage_fst, SavesSafely, h]
  simp

-- The names and the texts in use came out of the parser.
theorem published_utf8 (hparse : ParseDocumented parse)
    {s : Server (DbConnection υ) (DbConnection μ)}
    (hreach : Reachable (mysqlEnv parse crypto readFile usersApi messagesApi) s) {e : Event}
    {user : User} {sender content : Bytes}
    (h : s.publication (mysqlEnv parse crypto readFile usersApi messagesApi) e =
      some (user, sender, content)) : ValidUtf8 sender ∧ ValidUtf8 content := by
  obtain ⟨conn, ⟨payload, now, rfl, hdecode⟩, rfl, hauthor⟩ := publication_eq_some_iff.mp h
  refine ⟨username_utf8 (named_utf8 _ hparse hreach) conn, ?_⟩
  obtain ⟨j, hj, hread⟩ := bind_eq_ok_iff.mp hdecode
  exact Request.read_utf8 (hparse.utf8 hj) hread

-- The sender is who the database has under the id of the author.
theorem published_author (husers : KnowsUsers usersApi author)
    {s : Server (DbConnection υ) (DbConnection μ)} {e : Event} {user : User}
    {sender content : Bytes}
    (h : s.publication (mysqlEnv parse crypto readFile usersApi messagesApi) e =
      some (user, sender, content)) : author user.id = sender := by
  obtain ⟨conn, _, _, hfound⟩ := publication_eq_some_iff.mp h
  unfold Server.author at hfound
  split at hfound
  · cases hfound
  · exact s.users.author_getUserByUsername husers hfound

theorem recorded_step (hparse : ParseDocumented parse) (hmessages : StoresMessages messagesApi rows)
    (husers : KnowsUsers usersApi author) {first s t : Server (DbConnection υ) (DbConnection μ)}
    {e : Event} (hreach : Reachable (mysqlEnv parse crypto readFile usersApi messagesApi) s)
    (hs : s.Recorded rows author first)
    (hstep : Step (mysqlEnv parse crypto readFile usersApi messagesApi) s e t) :
    t.Recorded rows author first ↔ s.SavesSafely parse crypto readFile usersApi messagesApi e := by
  obtain ⟨_, _, rfl⟩ := hstep
  obtain ⟨hbroadcasts, htable⟩ := next_eq (mysqlEnv parse crypto readFile usersApi messagesApi) s e
  unfold Recorded stored at hs ⊢
  rw [hbroadcasts, htable]
  cases hpublished : s.publication (mysqlEnv parse crypto readFile usersApi messagesApi) e with
  | none =>
      obtain ⟨hsaid, hkept⟩ := exec_unpublished (fun m : DbConnection μ => rows m.mysql)
        (fun m limit => m.getRecentMessages_rows hmessages limit) hpublished
      rw [hsaid, hkept]
      refine iff_of_true hs fun said hsaid => ?_
      rw [hpublished] at hsaid
      cases hsaid
  | some published =>
      obtain ⟨user, sender, content⟩ := published
      obtain ⟨hsender, hcontent⟩ := published_utf8 hparse hreach hpublished
      have hsaid := (exec_published hsender hcontent hpublished).1
      have hkept : (s.exec (mysqlEnv parse crypto readFile usersApi messagesApi) e).2.messages =
          (s.messages.saveMessage messagesApi user.id content).2 :=
        (exec_published hsender hcontent hpublished).2
      have hauthor := published_author husers hpublished
      have hrows := s.messages.saveMessage_rows hmessages user.id content
      rw [savesSafely_iff hpublished, hsaid, hkept, Multiset.add_cons, ← hs, hrows]
      split
      · rename_i hsaved
        rw [Multiset.map_cons, hauthor]
        exact iff_of_true rfl hsaved
      · rename_i hsaved
        refine iff_of_false (fun heq => ?_) hsaved
        have hcard := congrArg Multiset.card heq
        rw [Multiset.card_cons] at hcard
        omega

-- The live view and the stored view of what was said are the same all along exactly when
-- the database takes every message before it goes out: the result of saving is not looked at.
theorem recorded_iff (hparse : ParseDocumented parse) (hmessages : StoresMessages messagesApi rows)
    (husers : KnowsUsers usersApi author) {users : DbConnection υ} {messages : DbConnection μ}
    {es : List Event} {s : Server (DbConnection υ) (DbConnection μ)}
    (hrun : Path (Step (mysqlEnv parse crypto readFile usersApi messagesApi))
      (start users messages) es s) :
    (∀ es₁ es₂ t, es = es₁ ++ es₂ →
        Path (Step (mysqlEnv parse crypto readFile usersApi messagesApi)) (start users messages)
          es₁ t →
        t.Recorded rows author (start users messages)) ↔
      Path (restrict (SavesSafely parse crypto readFile usersApi messagesApi)
        (Step (mysqlEnv parse crypto readFile usersApi messagesApi))) (start users messages) es s := by
  have hstart : (start users messages).Recorded rows author (start users messages) := by
    simp [Recorded, broadcasts, start]
  refine hrun.always_iff (fun _ _ _ hstep => hstep.2.2)
    (Reachable (mysqlEnv parse crypto readFile usersApi messagesApi)) ?_ ?_
    ⟨users, messages, [], .nil _⟩ hstart
  · rintro s e t ⟨users, messages, es, hes⟩ hstep
    exact ⟨users, messages, es ++ [e], hes.snoc hstep⟩
  · intro s e t hreach hs hstep
    exact recorded_step hparse hmessages husers hreach hs hstep

-- MySQL with one user, on a messages table that takes rows or does not.

def readInsert (tokens : List Sql.Token) : Option (ℤ × Bytes) :=
  if tokens.take 10 = (Sql.saveMessageTokens 0 []).take 10 then
    match tokens.drop 10 with
    | [.word digits, _, .string content, _] => some (digitsValue digits, content)
    | [_, .word digits, _, .string content, _] => some (-digitsValue digits, content)
    | _ => none
  else none

def sampleMessages (accepts : Bool) : Mysql (List (ℤ × Bytes)) where
  mysql_query m text :=
    match (Sql.lex text).bind readInsert with
    | some row => if accepts then (true, m ++ [row]) else (false, m)
    | none => (true, m)
  mysql_store_result m := (some [], m)

def sampleRow : Row := [some (ascii "1"), some (ascii "alice"), some (ascii "wonder")]

def sampleUsersTable : Mysql (List Row) where
  mysql_query _ text :=
    (true, if Sql.lex text = some (Sql.getUserByUsernameTokens (ascii "alice")) then [sampleRow]
      else [])
  mysql_store_result m := (some m, m)

theorem readInsert_tokens (userId : ℤ) (content : Bytes) :
    readInsert (Sql.saveMessageTokens userId content) = some (userId, content) := by
  cases userId with
  | ofNat n =>
      have hread : readInsert (Sql.saveMessageTokens (.ofNat n) content) =
          some ((digitsValue (toDigits n) : ℤ), content) := rfl
      rw [hread, digitsValue_toDigits]
      rfl
  | negSucc n =>
      have hread : readInsert (Sql.saveMessageTokens (.negSucc n) content) =
          some (-(digitsValue (toDigits (n + 1)) : ℤ), content) := rfl
      rw [hread, digitsValue_toDigits]
      rfl

theorem readInsert_select (tokens : List Sql.Token) :
    readInsert (Sql.keyword "SELECT" :: tokens) = none := by
  have hverb : Sql.keyword "SELECT" ≠ Sql.keyword "INSERT" := by decide
  exact if_neg fun hsame => hverb (List.cons.inj hsame).1

theorem sampleMessages_stores (accepts : Bool) :
    StoresMessages (sampleMessages accepts) Multiset.ofList where
  insert m text userId content h := by
    simp only [sampleMessages, h, Option.bind_some, readInsert_tokens]
    cases accepts with
    | true => exact Multiset.coe_eq_coe.mpr (List.perm_append_singleton _ m)
    | false => rfl
  select m text tokens h := by
    simp only [sampleMessages, h, Option.bind_some, readInsert_select]
  fetch m := rfl

theorem sampleUsersTable_knows : KnowsUsers sampleUsersTable fun _ => ascii "alice" where
  select m text username row rows h _ hrow := by
    by_cases hname : Sql.getUserByUsernameTokens username =
        Sql.getUserByUsernameTokens (ascii "alice")
    · have hlast := congrArg List.getLast? hname
      exact (Sql.Token.string.inj (Option.some.inj hlast)).symm
    · simp [sampleUsersTable, h, hname] at hrow

def sampleMysqlEnv (accepts : Bool) :
    Env (DbConnection (List Row)) (DbConnection (List (ℤ × Bytes))) :=
  mysqlEnv sampleEnv.parse sampleEnv.crypto sampleEnv.readFile sampleUsersTable
    (sampleMessages accepts)

def mysqlStart : Server (DbConnection (List Row)) (DbConnection (List (ℤ × Bytes))) :=
  .start ⟨true, []⟩ ⟨true, []⟩

-- Alice logs in and says something.
def sampleTalk : List Event :=
  connects 0 ++ [tells 0 (loginJson "alice" "wonder"), tells 0 (chatJson "hi")]

theorem recorded_sampleTalk :
    (mysqlStart.play (sampleMysqlEnv true) sampleTalk).broadcasts = {(ascii "alice", ascii "hi")} ∧
      (mysqlStart.play (sampleMysqlEnv true) sampleTalk).Recorded Multiset.ofList
        (fun _ => ascii "alice") mysqlStart := by
  have hsafe : Path (restrict (SavesSafely sampleEnv.parse sampleEnv.crypto sampleEnv.readFile
      sampleUsersTable (sampleMessages true)) (Step (sampleMysqlEnv true))) mysqlStart sampleTalk
      (mysqlStart.play (sampleMysqlEnv true) sampleTalk) := path_of_plays _ (by decide +kernel)
  exact ⟨by decide +kernel, (recorded_iff sampleEnv_documented (sampleMessages_stores true)
    sampleUsersTable_knows hsafe.unrestrict).mpr hsafe sampleTalk [] _ (List.append_nil _).symm
    hsafe.unrestrict⟩

-- Where the INSERT fails, all the same the message goes out.
theorem broadcast_not_recorded :
    ¬∀ es s, Path (Step (sampleMysqlEnv false)) mysqlStart es s →
      s.Recorded Multiset.ofList (fun _ => ascii "alice") mysqlStart := by
  intro h
  have hplays : Plays (sampleMysqlEnv false) (fun _ _ => True) mysqlStart sampleTalk := by
    decide +kernel
  have hrecorded := h sampleTalk _ (path_of_plays _ hplays).unrestrict
  exact absurd hrecorded (by decide +kernel)

end History

end Server

end MyTestserver
