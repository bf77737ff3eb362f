import MyTestserver.ChatService
import MyTestserver.Library.Transition
import MyTestserver.TcpConnection

namespace MyTestserver

open SessionManager ChatService Transition

namespace Logins

-- The statement that a call of handleLogin comes to next. `respond` has the list that
-- getOnlineUsers returned.
inductive Place
  | verifyUser
  | isOnline
  | getUserByUsername
  | addSession
  | getOnlineUsers
  | respond (onlineUsers : List Bytes)
  deriving DecidableEq

-- Past the check that nobody is online under the name, and not yet in the map.
def Place.Checked : Place → Prop
  | .getUserByUsername | .addSession => True
  | _ => False

-- In the map, and not yet answered.
def Place.Added : Place → Prop
  | .getOnlineUsers | .respond _ => True
  | _ => False

structure Call where
  username : Bytes
  password : Bytes
  conn : ConnId
  place : Place
  deriving DecidableEq

-- What the property is about: answers with success=true, and removals.
inductive Note
  | answered (username : Bytes)
  | removed (username : Bytes)
  deriving DecidableEq

end Logins

-- The server, and the call that each loop's thread is in.
structure Logins (υ μ : Type) where
  server : Server υ μ
  calls : ThreadId → Option Logins.Call
  notes : List Logins.Note

namespace Logins

-- A call begins on a thread, or gets on by one statement; another handler removes a
-- session, or does anything else that leaves the owners of the sessions as they are.
inductive Event (υ μ : Type)
  | begin (thread : ThreadId) (username password : Bytes) (conn : ConnId)
  | advance (thread : ThreadId) (now : ℕ)
  | removeSession (username : Bytes)
  | other (server : Server υ μ)

variable {υ μ : Type}

section Operations

variable (env : Env υ μ) (s : Logins υ μ)

def start (server : Server υ μ) : Logins υ μ where
  server := server
  calls _ := none
  notes := []

def setCall (thread : ThreadId) (call : Option Call) : Logins υ μ :=
  { s with calls := Function.update s.calls thread call }

-- The call goes on at another statement, the database being as `users`.
def goto (thread : ThreadId) (call : Call) (users : υ) (place : Place) : Logins υ μ :=
  { s with server := { s.server with users := users } }.setCall thread
    (some { call with place := place })

-- The call returns after the answer success=false.
def refuse (thread : ThreadId) (conn : ConnId) (users : υ) (error : String) : Logins υ μ :=
  { s with
    server :=
      ({ s.server with users := users }.respond conn
        (createResponse msgTypeLoginResp false (ascii error))).2 }.setCall thread none

def begin (thread : ThreadId) (username password : Bytes) (conn : ConnId) : Logins υ μ :=
  if username = [] ∨ password = [] then
    s.refuse thread conn s.server.users "Username and password cannot be empty"
  else s.setCall thread (some ⟨username, password, conn, .verifyUser⟩)

def advance (thread : ThreadId) (now : ℕ) (call : Call) : Logins υ μ :=
  match call.place with
  | .verifyUser =>
      match env.userDao.verifyUser s.server.users call.username call.password with
      | (true, users) => s.goto thread call users .isOnline
      | (false, users) => s.refuse thread call.conn users "Invalid username or password"
  | .isOnline =>
      if isOnline s.server.sessions call.username then
        s.refuse thread call.conn s.server.users "User already logged in"
      else s.goto thread call s.server.users .getUserByUsername
  | .getUserByUsername =>
      let users := (env.userDao.getUserByUsername s.server.users call.username).2
      s.goto thread call users .addSession
  | .addSession =>
      let sessions := addSession s.server.sessions call.username call.conn now
      { s with server := { s.server with sessions := sessions } }.goto thread call
        s.server.users .getOnlineUsers
  | .getOnlineUsers =>
      s.goto thread call s.server.users (.respond (getOnlineUsers s.server.sessions))
  | .respond onlineUsers =>
      match (loginResponse onlineUsers).dump with
      | .ok text =>
          { s with
            server :=
              (s.server.sendResponse call.conn text).record (.loginAnswered call.conn call.username)
            notes := s.notes ++ [Note.answered call.username] }.setCall thread none
      | .error _ => s.setCall thread none

-- A thread is in one call at a time.
def Guard (s : Logins υ μ) : Event υ μ → Prop
  | .begin thread _ _ _ => s.calls thread = none
  | .advance thread _ => s.calls thread ≠ none
  | .removeSession _ => True
  | .other server =>
      ∀ u, getConnection server.sessions u = getConnection s.server.sessions u

instance (sessions sessions' : Sessions) :
    Decidable (∀ u, getConnection sessions' u = getConnection sessions u) :=
  decidable_of_iff
    (∀ u ∈ getOnlineUsers sessions ++ getOnlineUsers sessions',
      getConnection sessions' u = getConnection sessions u)
    ⟨fun h u => by
      by_cases hu : u ∈ getOnlineUsers sessions ++ getOnlineUsers sessions'
      · exact h u hu
      · simp only [List.mem_append, not_or, mem_getOnlineUsers_iff, not_exists] at hu
        rw [Option.eq_none_iff_forall_ne_some.mpr hu.1, Option.eq_none_iff_forall_ne_some.mpr hu.2],
      fun h u _ => h u⟩

instance (s : Logins υ μ) (e : Event υ μ) : Decidable (s.Guard e) :=
  match e with
  | .begin thread _ _ _ => inferInstanceAs (Decidable (s.calls thread = none))
  | .advance thread _ => inferInstanceAs (Decidable (s.calls thread ≠ none))
  | .removeSession _ => .isTrue trivial
  | .other server =>
      inferInstanceAs
        (Decidable (∀ u, getConnection server.sessions u = getConnection s.server.sessions u))

def next : Event υ μ → Logins υ μ
  | .begin thread username password conn => s.begin thread username password conn
  | .advance thread now =>
      match s.calls thread with
      | some call => s.advance env thread now call
      | none => s
  | .removeSession username =>
      { s with
        server := { s.server with sessions := removeSession s.server.sessions username }
        notes := s.notes ++ [.removed username] }
  | .other server => { s with server := server }

def Step (s : Logins υ μ) (e : Event υ μ) (t : Logins υ μ) : Prop := s.Guard e ∧ t = s.next env e

end Operations

section Alone

variable (env : Env υ μ)

theorem play_advance_of_idle {s : Logins υ μ} {thread : ThreadId} (h : s.calls thread = none)
    (now n : ℕ) :
    play (fun s e => s.next env e) s (List.replicate n (.advance thread now)) = s := by
  induction n with
  | zero => rfl
  | succ n ih =>
      rw [List.replicate_succ, play]
      simpa only [next, h] using ih

section Fields

variable (s : Logins υ μ) (thread : ThreadId) (call : Call) (users : υ)

@[simp] theorem calls_setCall (call : Option Call) : (s.setCall thread call).calls thread = call := by
  simp [setCall]

@[simp] theorem server_setCall (call : Option Call) :
    (s.setCall thread call).server = s.server := rfl

@[simp] theorem calls_goto (place : Place) :
    (s.goto thread call users place).calls thread = some { call with place := place } := by
  simp [goto]

@[simp] theorem server_goto (place : Place) :
    (s.goto thread call users place).server = { s.server with users := users } := rfl

@[simp] theorem calls_refuse (conn : ConnId) (error : String) :
    (s.refuse thread conn users error).calls thread = none := by
  simp [refuse]

@[simp] theorem server_refuse (conn : ConnId) (error : String) :
    (s.refuse thread conn users error).server =
      ({ s.server with users := users }.respond conn
        (createResponse msgTypeLoginResp false (ascii error))).2 := rfl

end Fields

-- One statement of a call that is alone.
theorem play_advance {s : Logins υ μ} {thread : ThreadId} {call : Call}
    (h : s.calls thread = some call) (now n : ℕ) :
    play (fun s e => s.next env e) s (List.replicate (n + 1) (.advance thread now)) =
      play (fun s e => s.next env e) (s.advance env thread now call)
        (List.replicate n (.advance thread now)) := by
  rw [List.replicate_succ, play]
  simp only [next, h]

-- From the check on, with nobody online under the name.
theorem acceptLogin_eq_play {s : Logins υ μ} {thread : ThreadId} {call : Call}
    (h : s.calls thread = some { call with place := .getUserByUsername }) (now : ℕ) :
    (play (fun s e => s.next env e) s (List.replicate 4 (.advance thread now))).server =
      (acceptLogin env call.conn now s.server call.username).2 := by
  rw [play_advance env h]
  simp only [advance]
  rw [play_advance env (calls_goto ..)]
  simp only [advance, server_goto]
  rw [play_advance env (calls_goto ..)]
  simp only [advance, server_goto]
  rw [play_advance env (calls_goto ..), List.replicate_zero, play]
  simp only [advance, server_goto, acceptLogin]
  cases (loginResponse
    (getOnlineUsers (addSession s.server.sessions call.username call.conn now))).dump with
  | ok text => rfl
  | error e => rfl

-- A call that is alone does what handleLogin does.
theorem handleLogin_eq_play (s : Logins υ μ) (thread : ThreadId) (username password : Bytes)
    (conn : ConnId) (now : ℕ) :
    (play (fun s e => s.next env e) s
      (.begin thread username password conn :: List.replicate 6 (.advance thread now))).server =
      (handleLogin env conn now s.server username password).2 := by
  rw [play, next, begin]
  unfold handleLogin
  split
  · rw [play_advance_of_idle env (calls_refuse ..)]
    rfl
  rw [play_advance env (calls_setCall ..)]
  simp only [advance, server_setCall]
  split
  · rename_i users hverify
    rw [play_advance env (calls_goto ..)]
    simp only [advance, server_goto, server_setCall, hverify]
    by_cases honline : isOnline s.server.sessions username = true
    · simp only [honline, ↓reduceIte]
      rw [play_advance_of_idle env (calls_refuse ..)]
      rfl
    · simp only [honline]
      exact acceptLogin_eq_play env (calls_goto ..) now
  · rename_i users hverify
    rw [play_advance_of_idle env (calls_refuse ..), hverify]
    rfl

end Alone

end Logins

end MyTestserver
