import MyTestserver.Library.Registry
import MyTestserver.System

namespace MyTestserver

open SessionManager Transition

namespace Server

variable {υ μ : Type}

-- The name that a connection acts under, if it has one: the empty name stands for none.
def named (name : Bytes) : Option Bytes := if name = [] then none else some name

theorem named_eq_some_iff {name u : Bytes} : named name = some u ↔ name = u ∧ u ≠ [] := by
  unfold named
  split <;> grind

-- The two maps of the server as a registry of names: sessions_ says who holds a name, and
-- connectionStates_ under which one a connection acts.
def registry (s : Server υ μ) : Registry Bytes ConnId where
  holder := getConnection s.sessions
  claim := fun conn => named (s.username conn)
  live := s.Open

theorem claim_eq_some_iff {s : Server υ μ} {conn : ConnId} {u : Bytes} :
    s.registry.claim conn = some u ↔ s.username conn = u ∧ u ≠ [] :=
  named_eq_some_iff

section Unchanged

variable {s t : Server υ μ}

theorem Quiet.registry_eq (h : Quiet s t) : t.registry = s.registry := by
  ext1
  · simp only [registry, h.sessions]
  · funext conn
    simp only [registry, h.username]
  · funext conn
    exact propext (h.open_iff conn)

theorem Sends.registry_eq (h : Sends s t) : t.registry = s.registry := h.quiet.registry_eq

@[simp] theorem registry_shutdown (s : Server υ μ) (conn : ConnId) :
    (s.shutdown conn).registry = s.registry :=
  (s.quiet_shutdown conn).registry_eq

end Unchanged

section Changed

variable (s : Server υ μ) (conn : ConnId)

theorem registry_setUsername (name : Bytes) :
    (s.setUsername conn name).registry =
      s.registry.apply (.assume conn (named name)) := by
  ext1
  · rfl
  · funext other
    simp only [registry, Registry.apply, username_setUsername, Function.update_apply]
    split <;> rfl
  · rfl

end Changed

end Server

namespace ChatService

open Server

variable {υ μ : Type} (env : Env υ μ) (conn : ConnId) (now : ℕ) (s : Server υ μ)

theorem registry_sendResponse (users : υ) (text : Bytes) :
    ({ s with users := users }.sendResponse conn text).registry = s.registry :=
  (Server.sends_send _ conn _).registry_eq

theorem registry_handleRegister (username password : Bytes) :
    (handleRegister env conn s username password).2.registry = s.registry := by
  obtain ⟨users, text, h⟩ := handleRegister_result env conn s username password
  rw [h]
  exact registry_sendResponse conn s users text

theorem registry_handleGetHistory (limit : ℤ) :
    (handleGetHistory env conn s limit).2.registry = s.registry := by
  unfold handleGetHistory sendHistory
  split
  split
  · dsimp only
    split
    · exact (Server.sends_send _ conn _).registry_eq
    · rfl
  · rfl

theorem registry_publish (user : User) (sender content : Bytes) :
    (publish env now s user sender content).2.registry = s.registry := by
  unfold publish
  dsimp only
  split
  · exact (Server.sends_broadcastToAll _ _ _).registry_eq
  · rfl

theorem registry_handleChat (sender content : Bytes) :
    (handleChat env now s sender content).2.registry = s.registry := by
  rcases handleChat_cases env now s sender content with ⟨users, h⟩ | ⟨_, users, user, h⟩
  · rw [h]
    rfl
  · rw [h]
    exact registry_publish env now { s with users := users } user sender content

theorem registry_refresh (username : Bytes) :
    (refresh now s username).registry = s.registry := by
  have hsame : Server.registry { s with sessions := updateHeartbeat s.sessions username now } =
      s.registry := by
    ext1
    · funext other
      exact getConnection_updateHeartbeat
    · rfl
    · rfl
  unfold refresh
  split
  · exact hsame
  · exact hsame

theorem registry_handleHeartbeat (username : Bytes) :
    (handleHeartbeat now s username).2.registry = s.registry := by
  obtain ⟨t, h, hsends⟩ := handleHeartbeat_result now s username
  rw [h]
  exact hsends.registry_eq.trans (registry_refresh now s username)

theorem registry_handleLogin_rejected {username password : Bytes}
    (h : ¬Accepted env s username password) :
    (handleLogin env conn now s username password).2.registry = s.registry := by
  obtain ⟨users, text, h⟩ := handleLogin_rejected conn now h
  rw [h]
  exact registry_sendResponse conn s users text

theorem registry_acceptLogin (username : Bytes) :
    (acceptLogin env conn now s username).2.registry =
      { s.registry with holder := Function.update s.registry.holder username (some conn) } := by
  have hadded : Server.registry
      { s with
        users := (env.userDao.getUserByUsername s.users username).2
        sessions := addSession s.sessions username conn now } =
      { s.registry with holder := Function.update s.registry.holder username (some conn) } := by
    ext1
    · funext other
      simp only [Server.registry, getConnection_addSession, Function.update_apply]
    · rfl
    · rfl
  unfold acceptLogin
  dsimp only
  split
  · exact (Server.sends_send _ conn _).registry_eq.trans hadded
  · exact hadded

theorem registry_handleLogout (username : Bytes) :
    (handleLogout conn s username).2.registry =
      { s.registry with
        holder := fun n => if n = username then none else s.registry.holder n } := by
  obtain ⟨text, h⟩ := handleLogout_result conn s username
  rw [h, registry_shutdown]
  refine (Server.sends_send _ conn _).registry_eq.trans ?_
  ext1
  · funext other
    simp only [Server.registry, getConnection_removeSession]
  · rfl
  · rfl

theorem username_onDisconnect (username : Bytes) (other : ConnId) :
    (onDisconnect s username).username other = s.username other := by
  unfold onDisconnect
  split <;> rfl

-- Whether or not the user was online, it is not afterwards.
theorem registry_onDisconnect {username : Bytes} (hname : username ≠ []) :
    (onDisconnect s username).registry =
      { s.registry with
        holder := fun n => if n = username then none else s.registry.holder n } := by
  unfold onDisconnect
  split
  · ext1
    · funext other
      simp only [Server.registry, getConnection_removeSession]
    · rfl
    · rfl
  · rename_i h
    have hoffline : isOnline s.sessions username = false := by simpa [hname] using h
    ext1
    · funext other
      by_cases hother : other = username
      · simp [Server.registry, hother, not_isOnline_iff.mp hoffline]
      · simp [hother]
    · rfl
    · rfl

end ChatService

namespace ChatServer

open ChatService Server

variable {υ μ : Type} (env : Env υ μ) (conn : ConnId) (now : ℕ) (s : Server υ μ)

theorem registry_andThen {result : Outcome (Server υ μ)} {next : Server υ μ → Outcome (Server υ μ)}
    (h : ∀ s, (next s).2.registry = s.registry) :
    (result.andThen next).2.registry = result.2.registry := by
  obtain ⟨_ | ⟨⟩, s⟩ := result
  · rfl
  · exact h s

-- What a request does to the registry of names.
def requestActions : Request → List (Registry.Action Bytes ConnId)
  | .login username password =>
      if Accepted env s username password then [.grant conn username]
      else [.assume conn (named username)]
  | .logout => [.release conn]
  | _ => []

-- Dropping what a connection claims, in terms of the two maps.
theorem registry_drop (hempty : s.registry.holder [] = none) :
    s.registry.drop conn =
      { holder := fun n => if n = s.username conn then none else s.registry.holder n
        claim := fun other => named (if other = conn then [] else s.username other)
        live := s.Open } := by
  ext1
  · funext n
    by_cases hn : n = s.username conn
    · by_cases hname : s.username conn = []
      · simp [Registry.drop, hn, hname, hempty]
      · simp [Registry.drop, hn, claim_eq_some_iff, hname]
    · have hclaim : s.registry.claim conn ≠ some n :=
        fun h => hn (claim_eq_some_iff.mp h).1.symm
      simp [Registry.drop, hn, hclaim]
  · funext other
    by_cases hother : other = conn
    · simp [Registry.drop, hother, named]
    · simp [Registry.drop, hother, registry]
  · rfl

-- A logout ends the session of the name that the connection acts under.
theorem registry_logout (hempty : s.registry.holder [] = none) :
    (dispatch env conn now s .logout).2.registry = s.registry.apply (.release conn) := by
  have hlogout := registry_handleLogout conn s (s.username conn)
  obtain ⟨text, h⟩ := handleLogout_result conn s (s.username conn)
  rw [h] at hlogout
  simp only [dispatch, h, Outcome.andThen_ok]
  rw [registry_setUsername, hlogout]
  simp only [Registry.apply]
  rw [registry_drop conn s hempty]
  ext1
  · rfl
  · funext other
    by_cases hother : other = conn
    · simp [hother]
    · simp [hother, registry]
  · rfl

theorem registry_login (username password : Bytes) :
    (dispatch env conn now s (.login username password)).2.registry =
      if Accepted env s username password then s.registry.apply (.grant conn username)
      else s.registry.apply (.assume conn (named username)) := by
  have hassume := registry_setUsername s conn username
  rw [dispatch, registry_andThen (fun s => registry_handleGetHistory env conn s 50)]
  split
  · rename_i h
    have h' : Accepted env (s.setUsername conn username) username password := h
    have hname : username ≠ [] := h.1.1
    rw [handleLogin_accepted conn now h', registry_acceptLogin]
    have hclaim := congrArg Registry.claim hassume
    rw [named, if_neg hname] at hclaim
    ext1
    · rfl
    · exact hclaim
    · rfl
  · rename_i h
    have h' : ¬Accepted env (s.setUsername conn username) username password := h
    rw [registry_handleLogin_rejected env conn now _ h', hassume]

theorem registry_dispatch (hempty : s.registry.holder [] = none) (request : Request) :
    (dispatch env conn now s request).2.registry =
      (requestActions env conn s request).foldl Registry.apply s.registry := by
  cases request with
  | register username password => exact registry_handleRegister env conn s username password
  | login username password =>
      rw [registry_login, requestActions]
      split <;> rfl
  | logout => exact registry_logout env conn now s hempty
  | chat content => exact registry_handleChat env now s _ content
  | heartbeat => exact registry_handleHeartbeat now s _
  | get_history limit => exact registry_handleGetHistory env conn s limit
  | unknown msgType => rfl

-- DOWN ends the session of the name that the connection acts under.
theorem registry_onConnection_down (hempty : s.registry.holder [] = none)
    (h : s.connected conn = false) : (onConnection conn s).registry = s.registry.drop conn := by
  have hclear : ∀ t : Server υ μ, (t.setConnectionState conn default).registry =
      { t.registry with
        claim := fun other => named (if other = conn then [] else t.username other) } := by
    intro t
    ext1
    · rfl
    · funext other
      simp only [registry, username_setConnectionState]
      rfl
    · rfl
  rw [registry_drop conn s hempty]
  unfold onConnection
  rw [if_neg (by simp [h])]
  dsimp only
  rw [registry_shutdown, hclear]
  by_cases hname : s.username conn = []
  · rw [if_neg (by simp [hname])]
    ext1
    · funext n
      by_cases hn : n = []
      · simp [hn, hname, hempty]
      · simp [hn, hname]
    · rfl
    · rfl
  · rw [if_pos hname, registry_onDisconnect s hname]
    ext1
    · rfl
    · funext other
      change named (if other = conn then [] else (onDisconnect s _).username other) = _
      rw [username_onDisconnect]
    · rfl

theorem registry_onConnection_up (h : s.connected conn = true) :
    (onConnection conn s).registry =
      { s.registry with claim := Function.update s.registry.claim conn none } := by
  unfold onConnection
  rw [if_pos h]
  ext1
  · rfl
  · funext other
    simp only [registry, username_setConnectionState, Function.update_apply]
    split <;> rfl
  · rfl

end ChatServer

namespace Server

open ChatServer ChatService

variable {υ μ : Type} (env : Env υ μ)

-- What an event does to the registry of names.
def actions (s : Server υ μ) : Event → List (Registry.Action Bytes ConnId)
  | .up conn => [.connect conn]
  | .down conn => [.disconnect conn]
  | .message conn payload _ =>
      match decode env payload with
      | .ok request => requestActions env conn s request
      | .error _ => []
  | .request _ _ | .closeFrame _ => []

theorem registry_message (conn : ConnId) (now : ℕ) (s : Server υ μ)
    (hempty : s.registry.holder [] = none) (payload : Bytes) :
    (handleWebSocketMessage env conn now s payload).2.registry =
      (s.actions env (.message conn payload now)).foldl Registry.apply s.registry := by
  cases h : decode env payload with
  | ok request =>
      rw [handleWebSocketMessage_decoded env conn now s h]
      simp only [actions, h]
      exact registry_dispatch env conn now s hempty request
  | error e =>
      simp only [actions, h, List.foldl_nil]
      by_cases he : e = .parse_error
      · rw [handleWebSocketMessage_parse_error env conn now s (he ▸ h)]
        exact (Server.sends_send _ conn _).registry_eq
      · rw [handleWebSocketMessage_uncaught env conn now s h he]

theorem live_setState (s : Server υ μ) (conn other : ConnId) (state : StateE) :
    (s.setState conn state).registry.live other =
      if other = conn then state = .kConnected ∨ state = .kDisconnecting else s.Open other := by
  simp only [registry, Open, setState_state]
  split <;> rfl

theorem registry_exec {s : Server υ μ} {e : Event} (hempty : s.registry.holder [] = none)
    (hguard : s.Guard e) :
    (s.exec env e).2.registry = (s.actions env e).foldl Registry.apply s.registry := by
  cases e with
  | up conn =>
      have hup : (s.setState conn .kConnected).connected conn = true := by simp [connected]
      simp only [exec, actions, List.foldl_cons, List.foldl_nil]
      rw [registry_onConnection_up conn _ hup]
      ext1
      · rfl
      · rfl
      · funext other
        rw [live_setState]
        simp [registry, Registry.apply, Function.update_apply]
  | request conn data => exact (quiet_handleHandshake env conn s data).registry_eq
  | message conn payload now =>
      exact registry_message env conn now s hempty payload
  | closeFrame conn => exact registry_shutdown s conn
  | down conn =>
      have hdown : (s.setState conn .kDisconnected).connected conn = false := by simp [connected]
      simp only [exec, actions, List.foldl_cons, List.foldl_nil]
      rw [registry_onConnection_down conn (s.setState conn .kDisconnected) hempty hdown]
      ext1
      · rfl
      · rfl
      · change (s.setState conn .kDisconnected).registry.live = _
        funext other
        rw [live_setState]
        simp [registry, Registry.apply, Registry.drop, Function.update_apply]

theorem registry_next {s : Server υ μ} {e : Event} (hempty : s.registry.holder [] = none)
    (hguard : s.Guard e) :
    (s.next env e).registry = (s.actions env e).foldl Registry.apply s.registry := by
  rw [← registry_exec env hempty hguard]
  unfold next
  split
  · rename_i t h
    rw [h]
  · rename_i t h
    rw [h]
    rfl

-- All that can happen to the registry, and when.
theorem actions_cases {s : Server υ μ} {e : Event} {a : Registry.Action Bytes ConnId}
    (ha : a ∈ s.actions env e) :
    (∃ conn, e = .up conn ∧ a = .connect conn) ∨
    (∃ conn, e = .down conn ∧ a = .disconnect conn) ∨
    (∃ conn, e.Asks env conn .logout ∧ a = .release conn) ∨
    (∃ conn u p, e.Login env conn u p ∧ Accepted env s u p ∧ a = .grant conn u) ∨
    (∃ conn u p, e.Login env conn u p ∧ ¬Accepted env s u p ∧ a = .assume conn (named u)) := by
  cases e with
  | up conn => exact .inl ⟨conn, rfl, List.mem_singleton.mp ha⟩
  | down conn => exact .inr (.inl ⟨conn, rfl, List.mem_singleton.mp ha⟩)
  | message conn payload now =>
      simp only [actions] at ha
      split at ha
      · rename_i request hdecode
        have hasks : (Event.message conn payload now).Asks env conn request :=
          ⟨payload, now, rfl, hdecode⟩
        cases request with
        | login u p =>
            by_cases haccepted : Accepted env s u p
            · rw [requestActions, if_pos haccepted] at ha
              exact .inr (.inr (.inr (.inl
                ⟨conn, u, p, hasks, haccepted, List.mem_singleton.mp ha⟩)))
            · rw [requestActions, if_neg haccepted] at ha
              exact .inr (.inr (.inr (.inr
                ⟨conn, u, p, hasks, haccepted, List.mem_singleton.mp ha⟩)))
        | logout => exact .inr (.inr (.inl ⟨conn, hasks, List.mem_singleton.mp ha⟩))
        | _ => cases ha
      · cases ha
  | _ => cases ha

theorem guard_of_asks {s : Server υ μ} {e : Event} {conn : ConnId} {request : Request}
    (hguard : s.Guard e) (h : e.Asks env conn request) : s.Open conn := by
  obtain ⟨payload, now, rfl, _⟩ := h
  exact hguard.1

-- The registry accepts what the server does.
theorem enabled_actions {s : Server υ μ} {e : Event} (hguard : s.Guard e) :
    ∀ a ∈ s.actions env e, s.registry.Enabled a := by
  intro a ha
  rcases actions_cases env ha with ⟨conn, rfl, rfl⟩ | ⟨conn, rfl, rfl⟩ | ⟨conn, hasks, rfl⟩ |
    ⟨conn, u, p, hlogin, haccepted, rfl⟩ | ⟨conn, u, p, hlogin, _, rfl⟩
  · have hstate : (s.conns conn).state = .kConnecting := hguard
    simp [Registry.Enabled, registry, Open, hstate]
  · exact hguard
  · exact guard_of_asks env hguard hasks
  · exact ⟨guard_of_asks env hguard hlogin, not_isOnline_iff.mp haccepted.2.2⟩
  · exact guard_of_asks env hguard hlogin

-- At most one thing happens to the registry in a step.
theorem actions_length (s : Server υ μ) (e : Event) : (s.actions env e).length ≤ 1 := by
  unfold actions
  repeat' split
  all_goals try exact Nat.le_refl _
  · unfold requestActions
    repeat' split
    all_goals simp
  all_goals simp

-- A name changes hands by an accepted login, and only so.
theorem holder_actions {s : Server υ μ} {e : Event} {conn : ConnId} {u : Bytes}
    (h : ((s.actions env e).foldl Registry.apply s.registry).holder u = some conn) :
    s.registry.holder u = some conn ∨ ∃ p, e.Login env conn u p ∧ Accepted env s u p := by
  match hactions : s.actions env e, actions_length env s e with
  | [], _ =>
      rw [hactions] at h
      exact .inl h
  | [a], _ =>
      rw [hactions] at h
      rcases Registry.holder_apply h with hsame | rfl
      · exact .inl hsame
      have hgrant : Registry.Action.grant conn u ∈ s.actions env e := by simp [hactions]
      obtain ⟨_, _, ha⟩ | ⟨_, _, ha⟩ | ⟨_, _, ha⟩ | ⟨c, v, p, hlogin, haccepted, ha⟩ |
        ⟨_, _, _, _, _, ha⟩ := actions_cases env hgrant
      all_goals cases ha
      exact .inr ⟨p, hlogin, haccepted⟩

-- A step of the server is a step of the registry, or none, under any condition that the
-- actions meet.
theorem step_refines {good : Registry Bytes ConnId → Registry.Action Bytes ConnId → Prop}
    {s t : Server υ μ} {e : Event} (hempty : s.registry.holder [] = none) (hstep : Step env s e t)
    (hgood : ∀ a ∈ s.actions env e, good s.registry a) :
    Path (restrict good Registry.Step) s.registry (s.actions env e) t.registry := by
  obtain ⟨_, hguard, rfl⟩ := hstep
  have henabled := enabled_actions env hguard
  rw [registry_next env hempty hguard]
  match h : s.actions env e, actions_length env s e with
  | [], _ => exact .nil _
  | [a], _ =>
      have ha : a ∈ s.actions env e := by simp [h]
      exact .cons ⟨hgood a ha, henabled a ha, rfl⟩ (.nil _)

-- New names come from logins, and the empty one stands for no name.
theorem within_actions {p : Bytes → Prop} {s : Server υ μ} {e : Event}
    (hp : ∀ conn u password, e.Login env conn u password → u ≠ [] → p u) :
    ∀ a ∈ s.actions env e, a.Within p := by
  intro a ha
  rcases actions_cases env ha with ⟨conn, rfl, rfl⟩ | ⟨conn, rfl, rfl⟩ | ⟨conn, hasks, rfl⟩ |
    ⟨conn, u, password, hlogin, haccepted, rfl⟩ | ⟨conn, u, password, hlogin, _, rfl⟩
  · trivial
  · trivial
  · trivial
  · exact hp conn u password hlogin haccepted.1.1
  · intro v hv
    obtain ⟨rfl, hname⟩ := named_eq_some_iff.mp hv
    exact hp conn u password hlogin hname

theorem holder_empty {s : Server υ μ} (hnamed : s.registry.Named (· ≠ [])) :
    s.registry.holder [] = none := by
  cases h : s.registry.holder [] with
  | none => rfl
  | some conn => exact absurd rfl (hnamed.1 [] conn h)

theorem named_step {p : Bytes → Prop} {s t : Server υ μ} {e : Event}
    (hempty : s.registry.holder [] = none) (hnamed : s.registry.Named p)
    (hp : ∀ conn u password, e.Login env conn u password → u ≠ [] → p u)
    (hstep : Step env s e t) : t.registry.Named p := by
  have hpath : Path (restrict (fun _ a => a.Within p) Registry.Step) _ _ _ :=
    step_refines env hempty hstep (within_actions env hp)
  exact hpath.invariant (·.Named p) (fun r a r' hr hs => hs.2.2 ▸ hr.apply hs.1) hnamed

theorem named_start (p : Bytes → Prop) (users : υ) (messages : μ) :
    (start users messages).registry.Named p := by
  constructor
  · intro n c h
    cases h
  · intro c n h
    cases h

theorem named_run {users : υ} {messages : μ} {es : List Event} {s : Server υ μ}
    (hrun : Path (Step env) (start users messages) es s) : s.registry.Named (· ≠ []) := by
  refine hrun.invariant (fun s => s.registry.Named (· ≠ [])) (fun s e t hs hstep => ?_)
    (named_start _ users messages)
  exact named_step env (holder_empty hs) hs (fun _ _ _ _ hname => hname) hstep

-- The condition on the steps of the server that its actions on the registry meet one.
def Meets (good : Registry Bytes ConnId → Registry.Action Bytes ConnId → Prop) (s : Server υ μ)
    (e : Event) : Prop :=
  ∀ a ∈ s.actions env e, good s.registry a

-- Every run of the server is a run of the registry.
theorem run_refines {good : Registry Bytes ConnId → Registry.Action Bytes ConnId → Prop}
    {s t : Server υ μ} {es : List Event} (h : Path (restrict (Meets env good) (Step env)) s es t)
    (hnamed : s.registry.Named (· ≠ [])) :
    ∃ as, Path (restrict good Registry.Step) s.registry as t.registry := by
  have hsim : ∀ s e t r, (r = s.registry ∧ s.registry.Named (· ≠ [])) →
      restrict (Meets env good) (Step env) s e t →
      ∃ r', Path (restrict good Registry.Step) r (s.actions env e) r' ∧
        (r' = t.registry ∧ t.registry.Named (· ≠ [])) := by
    rintro s e t r ⟨rfl, hnamed⟩ ⟨hmeets, hstep⟩
    have hempty := holder_empty hnamed
    exact ⟨t.registry, step_refines env hempty hstep hmeets, rfl,
      named_step env hempty hnamed (fun _ _ _ _ hname => hname) hstep⟩
  obtain ⟨as, _, hpath, rfl, _⟩ := h.simulate hsim ⟨rfl, hnamed⟩
  exact ⟨as, hpath⟩

-- A property of the registry that its steps keep holds in every run of the server.
theorem registry_invariant {good : Registry Bytes ConnId → Registry.Action Bytes ConnId → Prop}
    {inv : Registry Bytes ConnId → Prop}
    (hinv : ∀ r a r', inv r → restrict good Registry.Step r a r' → inv r') {users : υ}
    {messages : μ} {es : List Event} {s : Server υ μ} (hstart : inv (start users messages).registry)
    (hrun : Path (restrict (Meets env good) (Step env)) (start users messages) es s) :
    inv s.registry := by
  obtain ⟨as, hpath⟩ := run_refines env hrun (named_start _ users messages)
  exact hpath.invariant inv hinv hstart

end Server

end MyTestserver
