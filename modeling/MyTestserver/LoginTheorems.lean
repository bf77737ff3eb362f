import MyTestserver.Library.Separation
import MyTestserver.Logins
import MyTestserver.SessionTheorems

namespace MyTestserver

open SessionManager ChatService Transition Separation

namespace Logins

variable {υ μ : Type} {env : Env υ μ} {s t : Logins υ μ} {e : Event υ μ}

section Change

-- What a step of one thread's call does to the call, where it neither adds nor answers.
def Advances (s : Logins υ μ) (before after : Option Call) : Prop :=
  ∀ call, after = some call →
    (call.place.Checked → isOnline s.server.sessions call.username = false ∨
      ∃ old, before = some old ∧ old.username = call.username ∧ old.place.Checked) ∧
    (call.place.Added →
      ∃ old, before = some old ∧ old.username = call.username ∧ old.place.Added)

-- All that a step can do to the calls, the names online and the notes.
inductive Change (s t : Logins υ μ) (e : Event υ μ) : Prop
  | outside (calls : t.calls = s.calls) (notes : t.notes = s.notes)
      (online : ∀ u, isOnline t.server.sessions u = isOnline s.server.sessions u)
  | removed (u : Bytes) (event : e = .removeSession u) (calls : t.calls = s.calls)
      (notes : t.notes = s.notes ++ [.removed u])
      (sessions : t.server.sessions = removeSession s.server.sessions u)
  | moved (thread : ThreadId) (new : Option Call) (advances : s.Advances (s.calls thread) new)
      (calls : t.calls = Function.update s.calls thread new) (notes : t.notes = s.notes)
      (sessions : t.server.sessions = s.server.sessions)
  | added (thread : ThreadId) (call : Call) (now : ℕ) (event : e = .advance thread now)
      (before : s.calls thread = some call) (place : call.place = .addSession)
      (calls : t.calls =
        Function.update s.calls thread (some { call with place := .getOnlineUsers }))
      (notes : t.notes = s.notes)
      (sessions : t.server.sessions =
        addSession s.server.sessions call.username call.conn now)
  | answered (thread : ThreadId) (call : Call) (before : s.calls thread = some call)
      (place : call.place.Added) (calls : t.calls = Function.update s.calls thread none)
      (notes : t.notes = s.notes ++ [.answered call.username])
      (sessions : t.server.sessions = s.server.sessions)

theorem advances_none (before : Option Call) : s.Advances before none := by
  intro call h
  cases h

theorem advances_some {before : Option Call} {new : Call}
    (hchecked : new.place.Checked → isOnline s.server.sessions new.username = false ∨
      ∃ old, before = some old ∧ old.username = new.username ∧ old.place.Checked)
    (hadded : new.place.Added →
      ∃ old, before = some old ∧ old.username = new.username ∧ old.place.Added) :
    s.Advances before (some new) := by
  intro call h
  obtain rfl := Option.some.inj h
  exact ⟨hchecked, hadded⟩

theorem change_refuse (thread : ThreadId) (conn : ConnId) (users : υ) (error : String) :
    Change s (s.refuse thread conn users error) e :=
  .moved thread none (advances_none _) rfl rfl
    (Server.sends_respond { s.server with users := users } conn _).sessions

theorem change_step (hstep : Step env s e t) : Change s t e := by
  obtain ⟨hguard, rfl⟩ := hstep
  cases e with
  | begin thread username password conn =>
      simp only [next, begin]
      split
      · exact change_refuse ..
      · exact .moved thread _ (advances_some False.elim False.elim) rfl rfl rfl
  | removeSession u => exact .removed u rfl rfl rfl rfl
  | other server =>
      exact .outside rfl rfl fun u => isOnline_eq_of_getConnection (hguard u)
  | advance thread now =>
      obtain ⟨call, hcall⟩ := Option.ne_none_iff_exists'.mp hguard
      simp only [next, hcall, advance]
      split
      · split
        · exact .moved thread _ (advances_some False.elim False.elim) rfl rfl rfl
        · exact change_refuse ..
      · split
        · exact change_refuse ..
        · rename_i hoffline
          refine .moved thread _ (advances_some (fun _ => .inl ?_) False.elim) rfl rfl rfl
          simpa using hoffline
      · rename_i hplace
        refine .moved thread _ (advances_some (fun _ => .inr ?_) False.elim) rfl rfl rfl
        exact ⟨call, hcall, rfl, by simp [hplace, Place.Checked]⟩
      · rename_i hplace
        exact .added thread call now rfl hcall hplace rfl rfl rfl
      · rename_i hplace
        refine .moved thread _ (advances_some False.elim fun _ => ?_) rfl rfl rfl
        exact ⟨call, hcall, rfl, by simp [hplace, Place.Added]⟩
      · rename_i onlineUsers hplace
        split
        · rename_i text _
          exact .answered thread call hcall (by simp [hplace, Place.Added]) rfl rfl
            (Server.sends_send s.server call.conn _).sessions
        · exact .moved thread none (advances_none _) rfl rfl rfl

end Change

section Exclusion

abbrev ClearedOf (u : Bytes) : List Note → Prop := Cleared (· = .answered u) (· = .removed u)

abbrev SeparatedOf (u : Bytes) : List Note → Prop := Separated (· = .answered u) (· = .removed u)

-- While a call is on its way from the check to the map nobody is online under its name,
-- and between the map and its answer it is the only one there, and the first since the
-- name was last removed.
structure Exclusive (s : Logins υ μ) : Prop where
  checked : ∀ thread call, s.calls thread = some call → call.place.Checked →
    isOnline s.server.sessions call.username = false
  added : ∀ thread call, s.calls thread = some call → call.place.Added →
    isOnline s.server.sessions call.username = true ∧ ClearedOf call.username s.notes
  alone : ∀ thread thread' call call', s.calls thread = some call → s.calls thread' = some call' →
    call.place.Added → call'.place.Added → call.username = call'.username → thread = thread'
  offline : ∀ u, isOnline s.server.sessions u = false → ClearedOf u s.notes
  separated : ∀ u, SeparatedOf u s.notes

-- No call goes into the map while another for the name is between the check and the map,
-- and no session is removed while a call for the name is between the map and its answer.
def Unhindered (s : Logins υ μ) : Event υ μ → Prop
  | .advance thread _ =>
      ∀ call, s.calls thread = some call → call.place = .addSession →
        ∀ other call', other ≠ thread → s.calls other = some call' →
          call'.username = call.username → ¬call'.place.Checked
  | .removeSession u =>
      ∀ thread call, s.calls thread = some call → call.username = u → ¬call.place.Added
  | _ => True

-- What one thread's call has become, and those of the others.
theorem calls_update {thread other : ThreadId} {new : Option Call} {call : Call}
    (h : Function.update s.calls thread new other = some call) :
    (other = thread ∧ new = some call) ∨ (other ≠ thread ∧ s.calls other = some call) := by
  by_cases hother : other = thread
  · subst hother
    rw [Function.update_self] at h
    exact .inl ⟨rfl, h⟩
  · rw [Function.update_of_ne hother] at h
    exact .inr ⟨hother, h⟩

theorem Exclusive.outside (h : s.Exclusive) (calls : t.calls = s.calls) (notes : t.notes = s.notes)
    (online : ∀ u, isOnline t.server.sessions u = isOnline s.server.sessions u) :
    t.Exclusive := by
  constructor
  · rw [calls]
    exact fun thread call hcall hplace => (online _).trans (h.checked thread call hcall hplace)
  · rw [calls, notes]
    exact fun thread call hcall hplace =>
      ⟨(online _).trans (h.added thread call hcall hplace).1, (h.added thread call hcall hplace).2⟩
  · rw [calls]
    exact h.alone
  · rw [notes]
    exact fun u hu => h.offline u ((online u).symm.trans hu)
  · rw [notes]
    exact h.separated

theorem Exclusive.removed (h : s.Exclusive) {u : Bytes} (hgood : s.Unhindered (.removeSession u))
    (calls : t.calls = s.calls) (notes : t.notes = s.notes ++ [.removed u])
    (sessions : t.server.sessions = removeSession s.server.sessions u) : t.Exclusive := by
  have hkeep : ∀ v, ClearedOf v s.notes → ClearedOf v t.notes := by
    intro v hv
    rw [notes]
    exact hv.snoc (by simp)
  constructor
  · rw [calls, sessions]
    intro thread call hcall hplace
    simp [h.checked thread call hcall hplace]
  · rw [calls, sessions]
    intro thread call hcall hplace
    obtain ⟨honline, hcleared⟩ := h.added thread call hcall hplace
    have hne : call.username ≠ u := fun heq => hgood thread call hcall heq hplace
    exact ⟨by simp [hne, honline], hkeep _ hcleared⟩
  · rw [calls]
    exact h.alone
  · intro v hv
    by_cases hvu : v = u
    · subst hvu
      rw [notes]
      exact cleared_snoc_of_stop (by simp) rfl
    · rw [sessions] at hv
      exact hkeep v (h.offline v (by simpa [hvu] using hv))
  · intro v
    rw [notes]
    exact (h.separated v).snoc (by simp)

theorem Exclusive.moved (h : s.Exclusive) {thread : ThreadId} {new : Option Call}
    (advances : s.Advances (s.calls thread) new)
    (calls : t.calls = Function.update s.calls thread new) (notes : t.notes = s.notes)
    (sessions : t.server.sessions = s.server.sessions) : t.Exclusive := by
  -- Every call between map and answer was there before, on its thread.
  have hadded : ∀ {other call}, t.calls other = some call → call.place.Added →
      ∃ old, s.calls other = some old ∧ old.username = call.username ∧ old.place.Added := by
    intro other call hcall hplace
    rw [calls] at hcall
    rcases calls_update hcall with ⟨rfl, hnew⟩ | ⟨_, hold⟩
    · exact (advances call hnew).2 hplace
    · exact ⟨call, hold, rfl, hplace⟩
  constructor
  · intro other call hcall hplace
    rw [sessions]
    rw [calls] at hcall
    rcases calls_update hcall with ⟨rfl, hnew⟩ | ⟨_, hold⟩
    · rcases (advances call hnew).1 hplace with hoffline | ⟨old, hold, hname, hchecked⟩
      · exact hoffline
      · exact hname ▸ h.checked other old hold hchecked
    · exact h.checked other call hold hplace
  · intro other call hcall hplace
    rw [sessions, notes]
    obtain ⟨old, hold, hname, hold'⟩ := hadded hcall hplace
    exact hname ▸ h.added other old hold hold'
  · intro other other' call call' hcall hcall' hplace hplace' hname
    obtain ⟨old, hold, hu, ha⟩ := hadded hcall hplace
    obtain ⟨old', hold', hu', ha'⟩ := hadded hcall' hplace'
    exact h.alone other other' old old' hold hold' ha ha' (by rw [hu, hu', hname])
  · rw [sessions, notes]
    exact h.offline
  · rw [notes]
    exact h.separated

theorem Exclusive.add (h : s.Exclusive) {thread : ThreadId} {call : Call} {now : ℕ}
    (hgood : s.Unhindered (.advance thread now)) (before : s.calls thread = some call)
    (place : call.place = .addSession)
    (calls : t.calls =
      Function.update s.calls thread (some { call with place := .getOnlineUsers }))
    (notes : t.notes = s.notes)
    (sessions : t.server.sessions = addSession s.server.sessions call.username call.conn now) :
    t.Exclusive := by
  have hoffline := h.checked thread call before (by simp [place, Place.Checked])
  have hothers : ∀ {other new}, other ≠ thread → s.calls other = some new → new.place.Added →
      new.username ≠ call.username := by
    intro other new _ hnew hplace heq
    have honline := (h.added other new hnew hplace).1
    rw [heq, hoffline] at honline
    cases honline
  constructor
  · intro other new hnew hplace
    rw [calls] at hnew
    rcases calls_update hnew with ⟨rfl, hsome⟩ | ⟨hother, hold⟩
    · obtain rfl := Option.some.inj hsome
      exact False.elim hplace
    · have hne : new.username ≠ call.username :=
        fun heq => hgood call before place other new hother hold heq hplace
      rw [sessions]
      simp [hne, h.checked other new hold hplace]
  · intro other new hnew hplace
    rw [calls] at hnew
    rw [sessions, notes]
    rcases calls_update hnew with ⟨rfl, hsome⟩ | ⟨hother, hold⟩
    · obtain rfl := Option.some.inj hsome
      exact ⟨by simp, h.offline _ hoffline⟩
    · obtain ⟨honline, hcleared⟩ := h.added other new hold hplace
      exact ⟨by simp [honline], hcleared⟩
  · intro other other' new new' hnew hnew' hplace hplace' hname
    rw [calls] at hnew hnew'
    rcases calls_update hnew with ⟨rfl, hsome⟩ | ⟨hother, hold⟩ <;>
      rcases calls_update hnew' with ⟨rfl, hsome'⟩ | ⟨hother', hold'⟩
    · rfl
    · obtain rfl := Option.some.inj hsome
      exact absurd hname.symm (hothers hother' hold' hplace')
    · obtain rfl := Option.some.inj hsome'
      exact absurd hname (hothers hother hold hplace)
    · exact h.alone other other' new new' hold hold' hplace hplace' hname
  · intro u hu
    rw [notes]
    rw [sessions, isOnline_addSession, Bool.or_eq_false_iff] at hu
    exact h.offline u hu.2
  · rw [notes]
    exact h.separated

theorem Exclusive.answer (h : s.Exclusive) {thread : ThreadId} {call : Call}
    (before : s.calls thread = some call) (place : call.place.Added)
    (calls : t.calls = Function.update s.calls thread none)
    (notes : t.notes = s.notes ++ [.answered call.username])
    (sessions : t.server.sessions = s.server.sessions) : t.Exclusive := by
  obtain ⟨honline, hcleared⟩ := h.added thread call before place
  have hcalls : ∀ {other new}, t.calls other = some new →
      other ≠ thread ∧ s.calls other = some new := by
    intro other new hnew
    rw [calls] at hnew
    rcases calls_update hnew with ⟨_, hnone⟩ | hold
    · cases hnone
    · exact hold
  have hkeep : ∀ u, u ≠ call.username → ClearedOf u s.notes → ClearedOf u t.notes := by
    intro u hu hc
    rw [notes]
    exact hc.snoc (by simpa using Ne.symm hu)
  constructor
  · intro other new hnew hplace
    rw [sessions]
    exact h.checked other new (hcalls hnew).2 hplace
  · intro other new hnew hplace
    obtain ⟨hother, hold⟩ := hcalls hnew
    obtain ⟨hon, hc⟩ := h.added other new hold hplace
    rw [sessions]
    refine ⟨hon, hkeep _ (fun heq => ?_) hc⟩
    exact hother (h.alone other thread new call hold before hplace place heq)
  · intro other other' new new' hnew hnew'
    exact h.alone other other' new new' (hcalls hnew).2 (hcalls hnew').2
  · intro u hu
    rw [sessions] at hu
    refine hkeep u ?_ (h.offline u hu)
    rintro rfl
    rw [honline] at hu
    cases hu
  · intro u
    rw [notes]
    refine (h.separated u).snoc fun heq => ?_
    obtain rfl := Note.answered.inj heq
    exact hcleared

theorem Exclusive.step (h : s.Exclusive) (hgood : s.Unhindered e) (hstep : Step env s e t) :
    t.Exclusive := by
  cases change_step hstep with
  | outside calls notes online => exact h.outside calls notes online
  | removed u event calls notes sessions =>
      subst event
      exact h.removed hgood calls notes sessions
  | moved thread new advances calls notes sessions => exact h.moved advances calls notes sessions
  | added thread call now event before place calls notes sessions =>
      subst event
      exact h.add hgood before place calls notes sessions
  | answered thread call before place calls notes sessions =>
      exact h.answer before place calls notes sessions

theorem exclusive_start (server : Server υ μ) : (start server).Exclusive where
  checked _ _ h := by cases h
  added _ _ h := by cases h
  alone _ _ _ _ h := by cases h
  offline _ _ := cleared_nil
  separated _ := separated_nil

-- The entry that addSession makes is new, and no name is granted twice without a removal
-- in between, as long as the calls for a name keep out of each other's way.
theorem login_exclusive {server : Server υ μ} {es : List (Event υ μ)}
    (hrun : Path (restrict Unhindered (Step env)) (start server) es s) :
    (∀ u, SeparatedOf u s.notes) ∧
      ∀ thread call, s.calls thread = some call → call.place = .addSession →
        getConnection s.server.sessions call.username = none := by
  have hexclusive := hrun.invariant Exclusive (fun _ _ _ h hstep => h.step hstep.1 hstep.2)
    (exclusive_start server)
  refine ⟨hexclusive.separated, fun thread call hcall hplace => ?_⟩
  exact not_isOnline_iff.mp (hexclusive.checked thread call hcall (by simp [hplace, Place.Checked]))

end Exclusion

section Sample

def getsOn (thread : ThreadId) (n : ℕ) : List (Event (List User) (List Message)) :=
  List.replicate n (.advance thread 1700000000)

-- Two connections of different loops log in as Alice at the same time.
def bothBegin : List (Event (List User) (List Message)) :=
  [.begin 1 (ascii "alice") (ascii "wonder") 0, .begin 2 (ascii "alice") (ascii "wonder") 1]

-- Both find that she is not online before one of them enters her.
def bothChecked : List (Event (List User) (List Message)) :=
  bothBegin ++ getsOn 1 3 ++ getsOn 2 3 ++ getsOn 1 1

def playSample (es : List (Event (List User) (List Message))) : Logins (List User) (List Message) :=
  play (fun s e => s.next sampleEnv e) (start Server.bothConnected) es

theorem path_playSample {es : List (Event (List User) (List Message))}
    (h : Plays Guard (fun s e => s.next sampleEnv e) (start Server.bothConnected) es) :
    Path (Step sampleEnv) (start Server.bothConnected) es (playSample es) := path_of_guards h

-- The second one overwrites the entry of the first, and both are answered with success.
theorem login_race :
    (∃ s : Logins (List User) (List Message),
      Path (Step sampleEnv) (start Server.bothConnected) bothChecked s ∧
        (s.calls 2).map Call.place = some .addSession ∧
          getConnection s.server.sessions (ascii "alice") = some 0) ∧
      ∃ s : Logins (List User) (List Message),
        Path (Step sampleEnv) (start Server.bothConnected)
          (bothChecked ++ getsOn 2 3 ++ getsOn 1 2) s ∧
        s.notes = [.answered (ascii "alice"), .answered (ascii "alice")] ∧
          getConnection s.server.sessions (ascii "alice") = some 1 := by
  constructor
  · exact ⟨playSample bothChecked, path_playSample (by decide +kernel), by decide +kernel⟩
  · exact ⟨_, path_playSample (by decide +kernel), by decide +kernel⟩

-- The threads outside the list are in no call.
def IdleBut (threads : List ThreadId) (s : Logins υ μ) : Prop :=
  ∀ thread ∉ threads, s.calls thread = none

-- The condition on the steps, looked up on the threads of the list.
def Clear (threads : List ThreadId) (s : Logins υ μ) : Event υ μ → Prop
  | .begin thread _ _ _ => thread ∈ threads
  | .advance thread _ =>
      ∀ call ∈ s.calls thread, call.place = .addSession →
        ∀ other ∈ threads, other ≠ thread → ∀ call' ∈ s.calls other,
          call'.username = call.username → ¬call'.place.Checked
  | .removeSession u =>
      ∀ thread ∈ threads, ∀ call ∈ s.calls thread, call.username = u → ¬call.place.Added
  | .other _ => True

instance : (place : Place) → Decidable place.Checked
  | .getUserByUsername | .addSession => .isTrue trivial
  | .verifyUser | .isOnline | .getOnlineUsers | .respond _ => .isFalse id

instance : (place : Place) → Decidable place.Added
  | .getOnlineUsers | .respond _ => .isTrue trivial
  | .verifyUser | .isOnline | .getUserByUsername | .addSession => .isFalse id

instance (threads : List ThreadId) (s : Logins υ μ) : (e : Event υ μ) → Decidable (s.Clear threads e)
  | .begin thread _ _ _ => inferInstanceAs (Decidable (thread ∈ threads))
  | .advance thread _ =>
      inferInstanceAs (Decidable (∀ call ∈ s.calls thread, call.place = .addSession →
        ∀ other ∈ threads, other ≠ thread → ∀ call' ∈ s.calls other,
          call'.username = call.username → ¬call'.place.Checked))
  | .removeSession u =>
      inferInstanceAs (Decidable (∀ thread ∈ threads, ∀ call ∈ s.calls thread,
        call.username = u → ¬call.place.Added))
  | .other _ => .isTrue trivial

variable {threads : List ThreadId}

theorem IdleBut.mem (h : s.IdleBut threads) {thread : ThreadId} {call : Call}
    (hcall : s.calls thread = some call) : thread ∈ threads := by
  by_contra hnot
  rw [h thread hnot] at hcall
  cases hcall

theorem Clear.unhindered (h : s.Clear threads e) (hidle : s.IdleBut threads) :
    s.Unhindered e := by
  cases e with
  | begin => trivial
  | advance thread now =>
      intro call hcall hplace other call' hne hcall'
      exact h call hcall hplace other (hidle.mem hcall') hne call' hcall'
  | removeSession u =>
      intro thread call hcall
      exact h thread (hidle.mem hcall) call hcall
  | other => trivial

theorem IdleBut.step (hidle : s.IdleBut threads) (hclear : s.Clear threads e)
    (hstep : Step env s e t) : t.IdleBut threads := by
  obtain ⟨hguard, rfl⟩ := hstep
  intro thread hthread
  have hnone := hidle thread hthread
  cases e with
  | begin other username password conn =>
      have hne : thread ≠ other := fun heq => hthread (heq ▸ hclear)
      simp only [next, begin]
      split
      all_goals simp [refuse, setCall, hne, hnone]
  | advance other now =>
      obtain ⟨call, hcall⟩ := Option.ne_none_iff_exists'.mp hguard
      have hne : thread ≠ other := fun heq => hthread (heq ▸ hidle.mem hcall)
      simp only [next, hcall, advance]
      repeat' split
      all_goals simp [refuse, goto, setCall, hne, hnone]
  | removeSession u => exact hnone
  | other server => exact hnone

theorem path_of_clear {es : List (Event υ μ)} (h : Path (restrict (Clear threads) (Step env)) s es t)
    (hidle : s.IdleBut threads) : Path (restrict Unhindered (Step env)) s es t := by
  induction h with
  | nil => exact .nil _
  | cons hstep _ ih =>
      exact .cons ⟨hstep.1.unhindered hidle, hstep.2⟩ (ih (hidle.step hstep.1 hstep.2))

-- One call is answered before the other looks whether she is online, and then her session is
-- removed: so the other finds her gone, and is answered as well.
def bothAnswered : List (Event (List User) (List Message)) :=
  bothBegin ++ getsOn 2 1 ++ getsOn 1 6 ++ [.removeSession (ascii "alice")] ++ getsOn 2 5

theorem login_exclusive_bothAnswered :
    ((∀ u, SeparatedOf u (playSample bothAnswered).notes) ∧
      ∀ thread call, (playSample bothAnswered).calls thread = some call →
        call.place = .addSession →
        getConnection (playSample bothAnswered).server.sessions call.username = none) ∧
      (playSample bothAnswered).notes =
        [.answered (ascii "alice"), .removed (ascii "alice"), .answered (ascii "alice")] := by
  have hplays : Plays (fun s e => s.Clear [1, 2] e ∧ s.Guard e) (fun s e => s.next sampleEnv e)
      (start Server.bothConnected) bothAnswered := by
    decide +kernel
  have hrun : Path (restrict (Clear [1, 2]) (Step sampleEnv)) (start Server.bothConnected)
      bothAnswered (playSample bothAnswered) :=
    path_of_plays (fun _ _ h => ⟨h.1, h.2, rfl⟩) hplays
  exact ⟨login_exclusive (path_of_clear hrun fun _ _ => rfl), by decide +kernel⟩

end Sample

end Logins

end MyTestserver
