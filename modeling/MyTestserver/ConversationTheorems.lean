import MyTestserver.Library.Feed
import MyTestserver.SpeechTheorems

namespace MyTestserver

open SessionManager ChatService ChatServer Transition Feed WebSocketHandler

namespace ServerMessage

-- The lines of the conversation that a page has after a message.
def lines (before : List (Bytes × Bytes)) : ServerMessage → List (Bytes × Bytes)
  | .broadcast sender content _ => before ++ [(sender, content)]
  | .history messages => messages.map fun msg => (msg.username, msg.content)
  | _ => before

theorem Answer.lines {m : ServerMessage} (h : m.Answer) (before : List (Bytes × Bytes)) :
    m.lines before = before := by
  cases m with
  | broadcast sender content timestamp => exact h.elim
  | history messages => exact h.elim
  | _ => rfl

end ServerMessage

namespace Page

def lines (page : Page) : List (Bytes × Bytes) := page.messages.map fun line => (line.1, line.2.1)

end Page

namespace Server

variable {υ μ τ : Type} (parse : Bytes → Except Exception Json) (crypto : WebSocketHandler.Crypto)
  (readFile : Bytes → Option Bytes) (usersApi : Mysql υ) (messagesApi : Mysql μ)
  (table : μ → List (StoredMessage τ)) (author : ℤ → Bytes) (format : τ → String)

section Steps

-- A step in which connections log in as one user at a time and the database takes what is
-- said. Where a history is asked for, of at least `k` messages, MySQL finds the rows that it
-- is to find, and these can be told apart.
structure Sound [LinearOrder τ] (k : ℕ) (s : Server (DbConnection υ) (DbConnection μ))
    (e : Event) : Prop where
  oneUser : s.OneUser (mysqlEnv parse crypto readFile usersApi messagesApi) e
  saves : s.SavesSafely parse crypto readFile usersApi messagesApi e
  finds : ∀ conn limit,
    e.AsksHistory (mysqlEnv parse crypto readFile usersApi messagesApi) conn limit →
      ∃ n : ℕ, limit = n ∧ k ≤ n ∧ s.Unambiguous table author n ∧
        ∃ order, s.messages.FindsRecent messagesApi author format (table s.messages.mysql) n order

variable {parse crypto readFile usersApi messagesApi table author format}
  {users : DbConnection υ} {messages : DbConnection μ}
  {s t : Server (DbConnection υ) (DbConnection μ)} {e : Event} {es : List Event} {conn : ConnId}
  {k : ℕ}

-- What a connection was told shows the end of the table, whatever the page had before.
structure UpToDate (table : μ → List (StoredMessage τ)) (author : ℤ → Bytes) (k : ℕ)
    (s : Server (DbConnection υ) (DbConnection μ)) (conn : ConnId) (response : Bytes)
    (ms : List ServerMessage) : Prop where
  sent : (s.conns conn).sent = response :: ms.map ServerMessage.frame
  valid : ∀ m ∈ ms, m.Valid
  recent : ∀ before, Recent k (ms.foldl ServerMessage.lines before) (s.tableOf table author)

theorem UpToDate.hears {response : Bytes} {ms ms' : List ServerMessage}
    {said : List (Bytes × Bytes)} (h : UpToDate table author k s conn response ms)
    (hears : Hears conn s t ms') (htable : t.tableOf table author = s.tableOf table author ++ said)
    (hsaid : ∀ before, ms'.foldl ServerMessage.lines before = before ++ said) :
    UpToDate table author k t conn response (ms ++ ms') where
  sent := by rw [hears.sent, h.sent, List.map_append, List.cons_append]
  valid := List.forall_mem_append.mpr ⟨h.valid, hears.valid⟩
  recent before := by
    rw [List.foldl_append, hsaid, htable]
    exact (h.recent before).append said

variable {u : Bytes}

variable [LinearOrder τ]

end Steps

section Sample

open DbConnection (sampleTable)

-- A messages table in memory, with the rows of the last SELECT: the latest fifty.
def sampleHistoryDb : Mysql (List (ℤ × Bytes) × List Row) where
  mysql_query d text :=
    match (Sql.lex text).bind readInsert with
    | some row => (true, (d.1 ++ [row], []))
    | none =>
        (true, (d.1, ((sampleTable id d.1).reverse.take 50).map
          (StoredMessage.row (fun _ => ascii "alice") sampleClock)))
  mysql_store_result d := (some d.2, d)

def sampleHistoryEnv : Env (DbConnection (List Row)) (DbConnection (List (ℤ × Bytes) × List Row)) :=
  mysqlEnv sampleParse sampleCrypto (fun _ => none) sampleUsersTable sampleHistoryDb

-- The histories that an event asks for.
def historyLimits : Event → List ℤ
  | .message _ payload _ =>
      match decode sampleHistoryEnv payload with
      | .ok (.login _ _) => [50]
      | .ok (.get_history limit) => [limit]
      | _ => []
  | _ => []

theorem mem_historyLimits {e : Event} {conn : ConnId} {limit : ℤ}
    (h : e.AsksHistory sampleHistoryEnv conn limit) : limit ∈ historyLimits e := by
  rcases h with ⟨⟨u, password, payload, now, rfl, hdecode⟩, rfl⟩ | ⟨payload, now, rfl, hdecode⟩
  · simp [historyLimits, hdecode]
  · simp [historyLimits, hdecode]

-- What is checked of a step of the sample server.
def Checked (s : Server (DbConnection (List Row)) (DbConnection (List (ℤ × Bytes) × List Row)))
    (e : Event) : Prop :=
  (s.OneUser sampleHistoryEnv e ∧
    s.SavesSafely sampleParse sampleCrypto (fun _ => none) sampleUsersTable sampleHistoryDb e) ∧
  ∀ limit ∈ historyLimits e, limit = 50 ∧
    s.Unambiguous (fun d => sampleTable id d.1) (fun _ => ascii "alice") 50 ∧
    (s.messages.query sampleHistoryDb (DbConnection.getRecentMessagesSql 50)).1 =
      some (((sampleTable id s.messages.mysql.1).reverse.take 50).map
        (StoredMessage.row (fun _ => ascii "alice") sampleClock))

instance (s : Server (DbConnection (List Row)) (DbConnection (List (ℤ × Bytes) × List Row)))
    (e : Event) : Decidable (s.Checked e) := by
  unfold Checked sampleHistoryEnv
  infer_instance

theorem Checked.sound
    {s : Server (DbConnection (List Row)) (DbConnection (List (ℤ × Bytes) × List Row))} {e : Event}
    (h : s.Checked e) :
    s.Sound sampleParse sampleCrypto (fun _ => none) sampleUsersTable sampleHistoryDb
      (fun d => sampleTable id d.1) (fun _ => ascii "alice") sampleClock 50 e where
  oneUser := h.1.1
  saves := h.1.2
  finds conn limit hasks := by
    obtain ⟨rfl, hunambiguous, hquery⟩ := h.2 limit (mem_historyLimits hasks)
    have hsorted := sampleTable_sorted monotone_id s.messages.mysql.1
    exact ⟨50, rfl, Nat.le_refl 50, hunambiguous, _, Ranking.descending_reverse hsorted, hquery⟩

end Sample

end Server

end MyTestserver
