import MyTestserver.StorageTheorems

namespace MyTestserver

open SessionManager ChatService ChatServer Transition Ranking

namespace ChatService

section Response

-- What the history has of a message.
def shown (msg : Message) : Bytes × Bytes × Bytes := (msg.username, msg.content, msg.timestamp)

theorem historyEntry_eq (msg : Message) :
    historyEntry msg = .object [(fieldContent, .string msg.content),
      (fieldSender, .string msg.username), (fieldTimestamp, .string msg.timestamp)] := by
  have hsender : fieldContent ≠ fieldSender ∧ fieldContent < fieldSender := by decide
  have hcontent : fieldTimestamp ≠ fieldContent ∧ ¬fieldTimestamp < fieldContent := by decide
  have hlast : fieldTimestamp ≠ fieldSender ∧ ¬fieldTimestamp < fieldSender := by decide
  simp only [historyEntry, Json.assign, Json.insertMember, if_neg hsender.1, if_pos hsender.2,
    if_neg hcontent.1, if_neg hcontent.2, if_neg hlast.1, if_neg hlast.2]

theorem historyResponse_eq (messages : List Message) :
    historyResponse messages = .object [(fieldMessages, .array (messages.map historyEntry)),
      (fieldMsgType, .string msgTypeHistory)] := by
  have hne : fieldMessages ≠ fieldMsgType := by decide
  have hlt : fieldMessages < fieldMsgType := by decide
  simp only [historyResponse, Json.assign, Json.insertMember, if_neg hne, if_pos hlt]

theorem historyEntry_eq_iff {msg msg' : Message} :
    historyEntry msg = historyEntry msg' ↔ shown msg = shown msg' := by
  simp only [historyEntry_eq, shown, Json.object.injEq, Prod.mk.injEq, List.cons.injEq,
    Json.string.injEq]
  tauto

-- Two histories are the same when the messages in them look the same.
theorem historyResponse_eq_iff {messages messages' : List Message} :
    historyResponse messages = historyResponse messages' ↔
      messages.map shown = messages'.map shown := by
  have hentries : ∀ messages messages' : List Message,
      messages.map historyEntry = messages'.map historyEntry ↔
        messages.map shown = messages'.map shown := by
    intro messages messages'
    induction messages generalizing messages' with
    | nil => cases messages' <;> simp
    | cons msg messages ih => cases messages' <;> simp [historyEntry_eq_iff, ih]
  rw [← hentries, historyResponse_eq, historyResponse_eq]
  simp

variable {υ μ : Type} (env : Env υ μ) (conn : ConnId) (s : Server υ μ)

theorem handleGetHistory_of_utf8 (limit : ℤ)
    (h : (historyResponse (env.messageDao.getRecentMessages s.messages limit).1).Utf8) :
    handleGetHistory env conn s limit =
      (.ok (), sendHistory conn
        { s with messages := (env.messageDao.getRecentMessages s.messages limit).2 }
        (historyResponse (env.messageDao.getRecentMessages s.messages limit).1).render) := by
  unfold handleGetHistory
  simp only [Json.dump_ok h]

end Response

end ChatService

namespace Server

variable {υ μ τ : Type} (parse : Bytes → Except Exception Json) (crypto : WebSocketHandler.Crypto)
  (readFile : Bytes → Option Bytes) (usersApi : Mysql υ) (messagesApi : Mysql μ)

-- The sender and the content of a message that an event brings to the database, if
-- handleChat saves it successfully.
def savedBy (s : Server (DbConnection υ) (DbConnection μ)) (e : Event) : List (Bytes × Bytes) :=
  match s.publication (mysqlEnv parse crypto readFile usersApi messagesApi) e with
  | some (user, sender, content) =>
      if (s.messages.saveMessage messagesApi user.id content).1 then [(sender, content)] else []
  | none => []

def saved (s : Server (DbConnection υ) (DbConnection μ)) (es : List Event) : List (Bytes × Bytes) :=
  gather (next (mysqlEnv parse crypto readFile usersApi messagesApi))
    (savedBy parse crypto readFile usersApi messagesApi) s es

variable (table : μ → List (StoredMessage τ)) (author : ℤ → Bytes) (format : τ → String)

-- The sender and the content of every row of the messages table, in the order of the INSERTs.
def tableOf (s : Server (DbConnection υ) (DbConnection μ)) : List (Bytes × Bytes) :=
  (table s.messages.mysql).map fun m => (author m.userId, m.content)

section Stores

-- From one state to another, these pairs were saved.
structure Stores (s t : Server (DbConnection υ) (DbConnection μ)) (pairs : List (Bytes × Bytes)) :
    Prop where
  rows : t.tableOf table author = s.tableOf table author ++ pairs
  utf8 : ∀ pair ∈ pairs, ValidUtf8 pair.1 ∧ ValidUtf8 pair.2
  connected : t.messages.connected = s.messages.connected
  up : pairs ≠ [] → s.messages.connected = true

variable {parse crypto readFile usersApi messagesApi table author}
  {s t u : Server (DbConnection υ) (DbConnection μ)} {pairs pairs' : List (Bytes × Bytes)}

theorem Stores.of_eq (hrows : t.tableOf table author = s.tableOf table author)
    (hconnected : t.messages.connected = s.messages.connected) : Stores table author s t [] where
  rows := by rw [hrows, List.append_nil]
  utf8 pair hpair := absurd hpair List.not_mem_nil
  connected := hconnected
  up h := absurd rfl h

theorem Stores.trans (h : Stores table author s t pairs) (h' : Stores table author t u pairs') :
    Stores table author s u (pairs ++ pairs') where
  rows := by rw [h'.rows, h.rows, List.append_assoc]
  utf8 pair hpair := (List.mem_append.mp hpair).elim (h.utf8 pair) (h'.utf8 pair)
  connected := h'.connected.trans h.connected
  up hne := by
    by_cases hpairs : pairs = []
    · rw [← h.connected]
      exact h'.up fun hpairs' => hne (by rw [hpairs, hpairs', List.append_nil])
    · exact h.up hpairs

theorem stores_step (hparse : ParseDocumented parse) (hmessages : MessagesTable messagesApi table)
    (husers : KnowsUsers usersApi author) {e : Event}
    (hreach : Reachable (mysqlEnv parse crypto readFile usersApi messagesApi) s)
    (hstep : Step (mysqlEnv parse crypto readFile usersApi messagesApi) s e t) :
    Stores table author s t (s.savedBy parse crypto readFile usersApi messagesApi e) := by
  obtain ⟨_, _, rfl⟩ := hstep
  have hnext := (next_eq (mysqlEnv parse crypto readFile usersApi messagesApi) s e).2
  unfold savedBy
  cases hpublished : s.publication (mysqlEnv parse crypto readFile usersApi messagesApi) e with
  | none =>
      have hread : ∀ (m : DbConnection μ) limit,
          ((m.getRecentMessages messagesApi limit).2.connected,
            table (m.getRecentMessages messagesApi limit).2.mysql) =
              (m.connected, table m.mysql) := by
        intro m limit
        rw [m.getRecentMessages_view hmessages.toReadsOnly, m.getRecentMessages_connected]
      have hview := (exec_unpublished (fun m : DbConnection μ => (m.connected, table m.mysql))
        hread hpublished).2
      rw [← hnext] at hview
      obtain ⟨hconnected, htable⟩ := Prod.mk.inj hview
      exact .of_eq (by rw [tableOf, tableOf, htable]) hconnected
  | some published =>
      obtain ⟨user, sender, content⟩ := published
      have hutf8 := published_utf8 hparse hreach hpublished
      have hsaved : (s.next (mysqlEnv parse crypto readFile usersApi messagesApi) e).messages =
          (s.messages.saveMessage messagesApi user.id content).2 :=
        hnext.trans (exec_published hutf8.1 hutf8.2 hpublished).2
      have hconnected : (s.messages.saveMessage messagesApi user.id content).2.connected =
          s.messages.connected := s.messages.saveMessage_connected user.id content
      have hinsert := s.messages.saveMessage_table hmessages user.id content
      rw [← hsaved] at hconnected hinsert
      dsimp only
      split at hinsert
      · rename_i hok
        obtain ⟨id, timestamp, htable⟩ := hinsert
        rw [if_pos hok]
        have hup := ((s.messages.saveMessage_fst user.id content).mp hok).1
        refine ⟨?_, ?_, hconnected, fun _ => hup⟩
        · rw [tableOf, htable, List.map_append, List.map_singleton,
            published_author husers hpublished]
          rfl
        · intro pair hpair
          rwa [List.mem_singleton.mp hpair]
      · rename_i hok
        rw [if_neg hok]
        exact .of_eq (by rw [tableOf, tableOf, hinsert]) hconnected

theorem stores_run (hparse : ParseDocumented parse) (hmessages : MessagesTable messagesApi table)
    (husers : KnowsUsers usersApi author) {es : List Event}
    (hreach : Reachable (mysqlEnv parse crypto readFile usersApi messagesApi) s)
    (hrun : Path (Step (mysqlEnv parse crypto readFile usersApi messagesApi)) s es t) :
    Stores table author s t (s.saved parse crypto readFile usersApi messagesApi es) := by
  induction hrun with
  | nil s => exact .of_eq rfl rfl
  | @cons s t u e es hstep _ ih =>
      obtain ⟨users, messages, fs, hfs⟩ := hreach
      have hrest := ih ⟨users, messages, fs ++ [e], hfs.snoc hstep⟩
      have hfirst := stores_step hparse hmessages husers ⟨users, messages, fs, hfs⟩ hstep
      rw [hstep.2.2] at hfirst hrest
      exact hfirst.trans hrest

end Stores

section Shown

-- A message as it was saved.
def asSaved (m : StoredMessage τ) : Message where
  id := m.id
  userId := m.userId
  username := author m.userId
  content := m.content
  timestamp := ascii (format m.timestamp)

variable (s : Server (DbConnection υ) (DbConnection μ))

-- The last messages, as many as the limit allows, the oldest of them first.
def latest (limit : ℕ) : List Message :=
  ((table s.messages.mysql).rtake limit).map (asSaved author format)

-- None of the latest messages has a NUL in the name of its sender or in its content, and
-- whatever was saved at the time of one of these reads the same.
def Unambiguous (limit : ℕ) : Prop :=
  (∀ m ∈ (table s.messages.mysql).rtake limit, 0 ∉ author m.userId ∧ 0 ∉ m.content) ∧
    ∀ m ∈ table s.messages.mysql, ∀ m' ∈ (table s.messages.mysql).rtake limit,
      m.timestamp = m'.timestamp →
        cString (author m.userId) = cString (author m'.userId) ∧
          cString m.content = cString m'.content

instance [DecidableEq τ] (limit : ℕ) : Decidable (s.Unambiguous table author limit) := by
  unfold Unambiguous
  infer_instance

variable {table author format s}

-- What a row reads as in the history, and what it would show as it was saved.

theorem shown_messageOf (hformat : ∀ t, 0 ∉ ascii (format t)) (m : StoredMessage τ) :
    shown (DbConnection.messageOf (m.row author format)) =
      (cString (author m.userId), cString m.content, ascii (format m.timestamp)) := by
  have hread : shown (DbConnection.messageOf (m.row author format)) =
      (cString (author m.userId), cString m.content, cString (ascii (format m.timestamp))) := rfl
  rw [hread, cString_of_not_mem (hformat _)]

theorem shown_asSaved (m : StoredMessage τ) :
    shown (asSaved author format m) =
      (author m.userId, m.content, ascii (format m.timestamp)) := rfl

theorem unambiguous_iff (hformat : ∀ t, 0 ∉ ascii (format t)) {limit : ℕ} :
    s.Unambiguous table author limit ↔
      ∀ m ∈ table s.messages.mysql, ∀ m' ∈ (table s.messages.mysql).rtake limit,
        m.timestamp = m'.timestamp →
          shown (DbConnection.messageOf (m.row author format)) =
            shown (asSaved author format m') := by
  have hlast : ∀ m ∈ (table s.messages.mysql).rtake limit, m ∈ table s.messages.mysql :=
    fun m hm => (List.drop_suffix _ _).mem hm
  simp only [shown_messageOf hformat, shown_asSaved, Prod.mk.injEq]
  constructor
  · rintro ⟨hclean, hties⟩ m hm m' hm' htime
    obtain ⟨hname, hcontent⟩ := hclean m' hm'
    obtain ⟨hsender, htext⟩ := hties m hm m' hm' htime
    rw [hsender, htext, cString_of_not_mem hname, cString_of_not_mem hcontent, htime]
    exact ⟨rfl, rfl, rfl⟩
  · intro hall
    have hself : ∀ m ∈ (table s.messages.mysql).rtake limit,
        cString (author m.userId) = author m.userId ∧ cString m.content = m.content := by
      intro m hm
      obtain ⟨hname, hcontent, _⟩ := hall m (hlast m hm) m hm rfl
      exact ⟨hname, hcontent⟩
    refine ⟨fun m hm => ?_, fun m hm m' hm' htime => ?_⟩
    · exact ⟨cString_eq_self_iff.mp (hself m hm).1, cString_eq_self_iff.mp (hself m hm).2⟩
    · obtain ⟨hname, hcontent, _⟩ := hall m hm m' hm' htime
      exact ⟨hname.trans (hself m' hm').1.symm, hcontent.trans (hself m' hm').2.symm⟩

end Shown

section Latest

variable [LinearOrder τ] (s : Server (DbConnection υ) (DbConnection μ))

-- However MySQL answers, the history that is sent is that of the latest messages.
def ShowsLatest (conn : ConnId) (limit : ℕ) : Prop :=
  ∀ (api : Mysql μ) order,
    s.messages.FindsRecent api author format (table s.messages.mysql) limit order →
    historyResponse (s.messages.getRecentMessages api limit).1 =
        historyResponse (s.latest table author format limit) ∧
      handleGetHistory (mysqlEnv parse crypto readFile usersApi api) conn s limit =
        (.ok (), sendHistory conn
          { s with messages := (s.messages.getRecentMessages api limit).2 }
          (historyResponse (s.latest table author format limit)).render)

variable {parse crypto readFile usersApi messagesApi table author format s}

-- The two histories side by side, as lists of what they show.
theorem shown_recent {api : Mysql μ} {limit : ℕ} {order : List (StoredMessage τ)}
    (hfinds : s.messages.FindsRecent api author format (table s.messages.mysql) limit order) :
    historyResponse (s.messages.getRecentMessages api limit).1 =
        historyResponse (s.latest table author format limit) ↔
      ((order.take limit).map fun m =>
          shown (DbConnection.messageOf (m.row author format))).reverse =
        ((table s.messages.mysql).rtake limit).map fun m => shown (asSaved author format m) := by
  rw [historyResponse_eq_iff, s.messages.getRecentMessages_of_finds hfinds, latest,
    List.map_reverse, List.map_map, List.map_map]
  rfl

theorem showsLatest_iff (hformat : ∀ t, 0 ∉ ascii (format t))
    (hclock : ((table s.messages.mysql).map StoredMessage.timestamp).Pairwise (· ≤ ·))
    (hutf8 : ∀ pair ∈ s.tableOf table author, ValidUtf8 pair.1 ∧ ValidUtf8 pair.2)
    (hup : table s.messages.mysql ≠ [] → s.messages.connected = true) (conn : ConnId)
    (limit : ℕ) :
    s.ShowsLatest parse crypto readFile usersApi table author format conn limit ↔
      s.Unambiguous table author limit := by
  rw [unambiguous_iff hformat, ← take_descending_iff hclock]
  constructor
  · intro hshows order horder
    by_cases hempty : table s.messages.mysql = []
    · have hnone : order = [] := List.perm_nil.mp (hempty ▸ horder.perm)
      simp [hempty, hnone, List.rtake]
    · have hfinds := s.messages.findsRecent_answering (hup hempty) author format horder limit
      exact (shown_recent hfinds).mp (hshows _ order hfinds).1
  · intro hall api order hfinds
    have hsame := (shown_recent hfinds).mpr (hall order hfinds.descending)
    have hlatest : (historyResponse (s.latest table author format limit)).Utf8 := by
      refine (historyResponse_utf8_iff _).mpr fun msg hmsg => ?_
      obtain ⟨m, hm, rfl⟩ := List.mem_map.mp hmsg
      have hpair := hutf8 _ (List.mem_map_of_mem ((List.drop_suffix _ _).mem hm))
      exact ⟨hpair.1, hpair.2, validUtf8_ascii _⟩
    have hsent := handleGetHistory_of_utf8 (mysqlEnv parse crypto readFile usersApi api) conn s
      limit (hsame ▸ hlatest)
    refine ⟨hsame, hsent.trans ?_⟩
    rw [← hsame]
    rfl

-- The table has what handleChat saved, in this order. A history is that of the latest
-- messages, whatever order MySQL gives to messages of one time, exactly when these orders
-- read the same and no column is cut off at a NUL.
theorem history_latest_iff (hparse : ParseDocumented parse)
    (hmessages : MessagesTable messagesApi table)
    (hclock : ∀ d, ((table d).map StoredMessage.timestamp).Pairwise (· ≤ ·))
    (husers : KnowsUsers usersApi author) (hformat : ∀ t, 0 ∉ ascii (format t))
    {users : DbConnection υ} {messages : DbConnection μ} (hempty : table messages.mysql = [])
    {es : List Event}
    (hrun : Path (Step (mysqlEnv parse crypto readFile usersApi messagesApi))
      (start users messages) es s) :
    s.tableOf table author =
        (start users messages).saved parse crypto readFile usersApi messagesApi es ∧
      ∀ conn limit, s.ShowsLatest parse crypto readFile usersApi table author format conn limit ↔
        s.Unambiguous table author limit := by
  have hstores := stores_run hparse hmessages husers ⟨users, messages, [], .nil _⟩ hrun
  have hrows : s.tableOf table author =
      (start users messages).saved parse crypto readFile usersApi messagesApi es := by
    have hnone : (start users messages).tableOf table author = [] := by
      simp [tableOf, start, hempty]
    rw [hstores.rows, hnone, List.nil_append]
  refine ⟨hrows, fun conn limit => showsLatest_iff hformat (hclock _) ?_ ?_ conn limit⟩
  · rw [hrows]
    exact hstores.utf8
  · intro hne
    rw [hstores.connected]
    refine hstores.up ?_
    rw [← hrows, tableOf]
    exact fun hnil => hne (List.map_eq_nil_iff.mp hnil)

end Latest

section Sample

open DbConnection (sampleTable sampleMessages_table)

theorem sampleTable_sorted {clock : ℕ → ℕ} (h : Monotone clock) (rows : List (ℤ × Bytes)) :
    ((sampleTable clock rows).map StoredMessage.timestamp).Pairwise (· ≤ ·) := by
  refine List.pairwise_map.mpr (List.pairwise_iff_getElem.mpr fun i j hi hj hij => ?_)
  simp only [sampleTable, List.getElem_mapIdx]
  exact h hij.le

def sampleClock (time : ℕ) : String :=
  if time = 0 then "2025-01-01 00:00:00" else "2025-01-01 00:00:01"

def sampleParse : Bytes → Except Exception Json :=
  parseOnly [loginJson "alice" "wonder", chatJson "hi", chatJson "bye"]

-- Alice says two things.
def sampleChats : List Event :=
  connects 0 ++
    [tells 0 (loginJson "alice" "wonder"), tells 0 (chatJson "hi"), tells 0 (chatJson "bye")]

def afterChats : Server (DbConnection (List Row)) (DbConnection (List (ℤ × Bytes))) :=
  mysqlStart.play (mysqlEnv sampleParse sampleCrypto (fun _ => none) sampleUsersTable
    (sampleMessages true)) sampleChats

theorem path_afterChats :
    Path (Step (mysqlEnv sampleParse sampleCrypto (fun _ => none) sampleUsersTable
      (sampleMessages true))) mysqlStart sampleChats afterChats := by
  have hplays : Plays (mysqlEnv sampleParse sampleCrypto (fun _ => none) sampleUsersTable
      (sampleMessages true)) (fun _ _ => True) mysqlStart sampleChats := by decide +kernel
  exact (path_of_plays _ hplays).unrestrict

theorem messages_afterChats :
    afterChats.messages = ⟨true, [(1, ascii "hi"), (1, ascii "bye")]⟩ := by
  decide +kernel

-- A second apart, the last of them is the latest.
theorem history_latest_afterChats :
    afterChats.tableOf (sampleTable id) (fun _ => ascii "alice") =
        [(ascii "alice", ascii "hi"), (ascii "alice", ascii "bye")] ∧
      afterChats.ShowsLatest sampleParse sampleCrypto (fun _ => none) sampleUsersTable
        (sampleTable id) (fun _ => ascii "alice") sampleClock 0 1 := by
  have hparse : ParseDocumented sampleParse := parseOnly_documented (by decide)
  have hformat : ∀ time, 0 ∉ ascii (sampleClock time) := by
    intro time
    unfold sampleClock
    split <;> decide
  have hlatest := history_latest_iff hparse (sampleMessages_table true id)
    (sampleTable_sorted monotone_id) sampleUsersTable_knows hformat rfl path_afterChats
  have hunambiguous : afterChats.Unambiguous (sampleTable id) (fun _ => ascii "alice") 1 := by
    unfold Unambiguous
    rw [messages_afterChats]
    decide
  exact ⟨hlatest.1.trans (by decide +kernel), (hlatest.2 0 1).mpr hunambiguous⟩

-- In the same second, MySQL may take the first of them for the latest.
theorem history_not_latest :
    ¬∀ es s, Path (Step (mysqlEnv sampleParse sampleCrypto (fun _ => none) sampleUsersTable
          (sampleMessages true))) mysqlStart es s →
        s.ShowsLatest sampleParse sampleCrypto (fun _ => none) sampleUsersTable
          (sampleTable fun _ => 0) (fun _ => ascii "alice") sampleClock 0 1 := by
  intro h
  have hshows := h sampleChats afterChats path_afterChats
  have horder : Descending StoredMessage.timestamp
      (sampleTable (fun _ => 0) afterChats.messages.mysql)
      (sampleTable (fun _ => 0) afterChats.messages.mysql) := by
    rw [messages_afterChats]
    exact ⟨.refl _, by decide⟩
  have hup : afterChats.messages.connected = true := by rw [messages_afterChats]
  have hfinds := afterChats.messages.findsRecent_answering hup (fun _ => ascii "alice") sampleClock
    horder 1
  have hshown := (shown_recent hfinds).mp (hshows _ _ hfinds).1
  rw [messages_afterChats] at hshown
  exact absurd hshown (by decide)

end Sample

end Server

end MyTestserver
