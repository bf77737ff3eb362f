import MyTestserver.Basic

namespace MyTestserver

structure Session where
  conn : ConnId
  lastHeartbeat : ℕ
  deriving DecidableEq

-- sessions_: an unordered_map. Its iteration order is unspecified; here it is the order
-- of the entries, the latest first.
abbrev Sessions := AList fun _ : Bytes => Session

namespace SessionManager

variable (sessions : Sessions) (username : Bytes) (conn : ConnId) (now : ℕ)

def addSession : Sessions := sessions.insert username ⟨conn, now⟩

def removeSession : Sessions := sessions.erase username

def getConnection : Option ConnId := (sessions.lookup username).map Session.conn

def getOnlineUsers : List Bytes := sessions.keys

def isOnline : Bool := (sessions.lookup username).isSome

def updateHeartbeat : Sessions :=
  match sessions.lookup username with
  | some session => sessions.replace username { session with lastHeartbeat := now }
  | none => sessions

-- The connections that broadcastToAll sends to, in its order; `connected` is their state.
def receivers (connected : ConnId → Bool) (excludeUsername : Bytes) : List ConnId :=
  (sessions.entries.filter fun pair =>
    pair.1 ≠ excludeUsername && connected pair.2.conn).map fun pair => pair.2.conn

section Connection

variable {sessions username conn now} {other : Bytes}

theorem isOnline_iff :
    isOnline sessions username = true ↔ ∃ conn, getConnection sessions username = some conn := by
  simp [isOnline, getConnection, Option.isSome_iff_exists]

theorem not_isOnline_iff :
    isOnline sessions username = false ↔ getConnection sessions username = none := by
  simp [isOnline, getConnection]

@[simp] theorem getConnection_addSession :
    getConnection (addSession sessions username conn now) other =
      if other = username then some conn else getConnection sessions other := by
  unfold getConnection addSession
  split
  · rename_i h
    rw [h, AList.lookup_insert]
    rfl
  · rename_i h
    rw [AList.lookup_insert_ne h]

@[simp] theorem getConnection_removeSession :
    getConnection (removeSession sessions username) other =
      if other = username then none else getConnection sessions other := by
  unfold getConnection removeSession
  split
  · rename_i h
    rw [h, AList.lookup_erase]
    rfl
  · rename_i h
    rw [AList.lookup_erase_ne h]

theorem isOnline_eq_of_getConnection {sessions' : Sessions}
    (h : getConnection sessions' username = getConnection sessions username) :
    isOnline sessions' username = isOnline sessions username := by
  simpa [isOnline, getConnection] using congrArg Option.isSome h

@[simp] theorem isOnline_addSession :
    isOnline (addSession sessions username conn now) other =
      (decide (other = username) || isOnline sessions other) := by
  by_cases h : other = username
  · subst h
    simp [isOnline, addSession]
  · simp [isOnline, addSession, h, AList.lookup_insert_ne h]

@[simp] theorem isOnline_removeSession :
    isOnline (removeSession sessions username) other =
      (!decide (other = username) && isOnline sessions other) := by
  by_cases h : other = username
  · subst h
    simp [isOnline, removeSession]
  · simp [isOnline, removeSession, h, AList.lookup_erase_ne h]

theorem dlookup_kreplace_conn {session new : Session} (entries : List ((_ : Bytes) × Session))
    (h : entries.dlookup username = some session) (hconn : new.conn = session.conn) :
    ((entries.kreplace username new).dlookup other).map Session.conn =
      (entries.dlookup other).map Session.conn := by
  induction entries with
  | nil => cases h
  | cons entry entries ih =>
      obtain ⟨u, s⟩ := entry
      by_cases hu : username = u
      · subst hu
        have hs : s = session := by simpa using h
        subst hs
        rw [List.kreplace, List.lookmap_cons_some _ entries (if_pos rfl)]
        by_cases hother : other = username
        · rw [hother, List.dlookup_cons_eq, List.dlookup_cons_eq, Option.map_some, hconn]
          rfl
        · rw [List.dlookup_cons_ne entries ⟨username, new⟩ hother,
            List.dlookup_cons_ne entries ⟨username, s⟩ hother]
      · rw [List.dlookup_cons_ne _ _ hu] at h
        rw [List.kreplace, List.lookmap_cons_none _ entries (if_neg hu), ← List.kreplace]
        by_cases hother : other = u
        · rw [hother, List.dlookup_cons_eq, List.dlookup_cons_eq]
        · rw [List.dlookup_cons_ne entries ⟨u, s⟩ hother,
            List.dlookup_cons_ne (entries.kreplace username new) ⟨u, s⟩ hother, ih h]

-- A heartbeat changes no owner.
@[simp] theorem getConnection_updateHeartbeat :
    getConnection (updateHeartbeat sessions username now) other = getConnection sessions other := by
  unfold updateHeartbeat
  cases h : sessions.lookup username with
  | none => rfl
  | some session => exact dlookup_kreplace_conn sessions.entries h rfl

theorem mem_getOnlineUsers_iff :
    other ∈ getOnlineUsers sessions ↔ ∃ conn, getConnection sessions other = some conn := by
  rw [getOnlineUsers, ← AList.mem_keys, ← AList.lookup_isSome, Option.isSome_iff_exists]
  simp [getConnection]

-- Broadcasts go only to connections that own a session.
theorem mem_receivers {connected : ConnId → Bool} {excludeUsername : Bytes}
    (h : conn ∈ receivers sessions connected excludeUsername) :
    connected conn ∧ ∃ u, getConnection sessions u = some conn := by
  obtain ⟨⟨u, session⟩, hmem, rfl⟩ := List.mem_map.mp h
  obtain ⟨hmem, hkeep⟩ := List.mem_filter.mp hmem
  refine ⟨by simpa using (Bool.and_eq_true_iff.mp hkeep).2, u, ?_⟩
  rw [getConnection, AList.mem_lookup_iff.mpr hmem]
  rfl

end Connection

end SessionManager

end MyTestserver
