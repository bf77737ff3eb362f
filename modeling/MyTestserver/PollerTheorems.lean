import MyTestserver.Library.Transition
import MyTestserver.Poller

namespace MyTestserver

open Transition

-- The calls of a channel that its loop passes on to the poller.
inductive ChannelCall
  | enableReading
  | disableReading
  | enableWriting
  | disableWriting
  | disableAll
  | remove
  deriving DecidableEq

-- A poller with the channels of its loop.
structure Polling (ι : Type*) where
  poller : EPollPoller ι
  channel : ι → Channel

namespace ChannelCall

-- events_ after the call
def events (call : ChannelCall) (events : Events) : Events :=
  match call with
  | .enableReading => { events with reading := true }
  | .disableReading => { events with reading := false }
  | .enableWriting => { events with writing := true }
  | .disableWriting => { events with writing := false }
  | .disableAll => kNoneEvent
  | .remove => events

def changed (call : ChannelCall) (channel : Channel) : Channel :=
  { channel with events := call.events channel.events }

-- The epoll_ctl that the call comes to, if it comes to one.
def operation (call : ChannelCall) (channel : Channel) : Option Operation :=
  match call, channel.index with
  | .remove, .kAdded => some .EPOLL_CTL_DEL
  | .remove, .kNew | .remove, .kDeleted => none
  | _, .kNew | _, .kDeleted => some .EPOLL_CTL_ADD
  | _, .kAdded =>
      some (if (call.changed channel).isNoneEvent then .EPOLL_CTL_DEL else .EPOLL_CTL_MOD)

end ChannelCall

namespace EPollPoller

variable {ι : Type*}

def invoke (poller : EPollPoller ι) (ptr : ι) (channel : Channel) :
    ChannelCall → EPollPoller ι × Channel
  | .enableReading => poller.enableReading ptr channel
  | .disableReading => poller.disableReading ptr channel
  | .enableWriting => poller.enableWriting ptr channel
  | .disableWriting => poller.disableWriting ptr channel
  | .disableAll => poller.disableAll ptr channel
  | .remove => poller.removeChannel ptr channel

section Calls

variable {poller poller' : EPollPoller ι} {ptr : ι} {channel channel' : Channel}

theorem invoke_eq_updateChannel {call : ChannelCall} (h : call ≠ .remove) :
    poller.invoke ptr channel call = poller.updateChannel ptr (call.changed channel) := by
  cases call with
  | remove => exact absurd rfl h
  | _ => rfl

theorem operation_eq_of_updates {call : ChannelCall} (h : call ≠ .remove) :
    call.operation channel =
      some (if channel.index ≠ .kAdded then .EPOLL_CTL_ADD
        else if (call.changed channel).isNoneEvent then .EPOLL_CTL_DEL else .EPOLL_CTL_MOD) := by
  cases call with
  | remove => exact absurd rfl h
  | _ => cases hindex : channel.index <;> simp [ChannelCall.operation, hindex]

-- epoll_ctl does not look at channels_.
theorem update_withChannels (channels : ℕ → Option ι) (operation : Operation) :
    { poller with channels := channels }.update ptr channel operation =
      { poller.update ptr channel operation with channels := channels } := by
  unfold update
  dsimp only
  split
  · rfl
  · split <;> rfl

-- Of whatever poller the call is made, the kernel is changed by the one epoll_ctl, or not at
-- all.
def Issues (ptr : ι) (channel : Channel) (call : ChannelCall) (operation : Option Operation) :
    Prop :=
  ∀ poller : EPollPoller ι,
    ((poller.invoke ptr channel call).1.epoll, (poller.invoke ptr channel call).1.exited) =
      match operation with
      | some operation =>
          ((poller.update ptr (call.changed channel) operation).epoll,
            (poller.update ptr (call.changed channel) operation).exited)
      | none => (poller.epoll, poller.exited)

theorem issues_operation (ptr : ι) (channel : Channel) (call : ChannelCall) :
    Issues ptr channel call (call.operation channel) := by
  intro poller
  by_cases hcall : call = .remove
  · subst hcall
    simp only [invoke, removeChannel, eraseChannel, ChannelCall.operation]
    cases hindex : channel.index with
    | kAdded => simp only [if_true, update_withChannels]; rfl
    | kNew | kDeleted => simp
  · rw [invoke_eq_updateChannel hcall, operation_eq_of_updates hcall]
    have hsame : (call.changed channel).index = channel.index := rfl
    cases hindex : channel.index with
    | kNew => simp [updateChannel, hsame, hindex, setChannel, update_withChannels]
    | kDeleted => simp [updateChannel, hsame, hindex]
    | kAdded =>
        cases hnone : (call.changed channel).isNoneEvent with
        | true => simp [updateChannel, hsame, hindex, hnone]
        | false => simp [updateChannel, hsame, hindex, hnone]

-- What the kernel and channels_ have for a channel that goes by its index_.

def registration (ptr : ι) (channel : Channel) : Option (ι × Events) :=
  if channel.index = .kAdded then some (ptr, channel.events) else none

def mapping (ptr : ι) (channel : Channel) : Option ι :=
  if channel.index = .kNew then none else some ptr

theorem registration_isSome : (registration ptr channel).isSome ↔ channel.index = .kAdded := by
  unfold registration
  split <;> simp [*]

-- A call changes the entries of its own fd, and to what the index_ says after it.
structure Enters (ptr : ι) (channel channel' : Channel) (poller poller' : EPollPoller ι) :
    Prop where
  fd : channel'.fd = channel.fd
  epoll : poller'.epoll =
    Function.update poller.epoll channel.fd (registration ptr channel')
  channels : poller'.channels =
    Function.update poller.channels channel.fd (mapping ptr channel')
  exited : poller'.exited = poller.exited

-- Where epoll_ctl fits what the kernel has, it does what it is for.
theorem update_eq {operation : Operation}
    (h : (poller.epoll channel.fd).isSome ↔ operation ≠ .EPOLL_CTL_ADD) :
    poller.update ptr channel operation =
      { poller with
        epoll := Function.update poller.epoll channel.fd
          (if operation = .EPOLL_CTL_DEL then none else some (ptr, channel.events)) } := by
  cases operation with
  | EPOLL_CTL_ADD =>
      have hnone : (poller.epoll channel.fd).isNone := by simpa using h
      simp [update, epollCtl, hnone]
  | EPOLL_CTL_MOD | EPOLL_CTL_DEL =>
      have hsome : (poller.epoll channel.fd).isSome := h.mpr (by simp)
      simp [update, epollCtl, hsome]

theorem enters_updateChannel
    (hepoll : (poller.epoll channel.fd).isSome ↔ channel.index = .kAdded)
    (hchannels : poller.channels channel.fd = mapping ptr channel) :
    Enters ptr channel (poller.updateChannel ptr channel).2 poller
      (poller.updateChannel ptr channel).1 := by
  unfold updateChannel
  split
  · rename_i hindex
    rw [update_eq (by simp [setChannel, hepoll, hindex])]
    exact ⟨rfl, rfl, rfl, rfl⟩
  · rename_i hindex
    have hmapped : poller.channels channel.fd = some ptr := by simp [hchannels, mapping, hindex]
    rw [update_eq (by simp [hepoll, hindex])]
    exact ⟨rfl, rfl, (Function.update_eq_self_iff.mpr hmapped.symm).symm, rfl⟩
  · rename_i hindex
    have hmapped : poller.channels channel.fd = some ptr := by simp [hchannels, mapping, hindex]
    split
    · rw [update_eq (by simp [hepoll, hindex])]
      exact ⟨rfl, rfl, (Function.update_eq_self_iff.mpr hmapped.symm).symm, rfl⟩
    · rw [update_eq (by simp [hepoll, hindex])]
      refine ⟨rfl, ?_, ?_, rfl⟩
      · simp [registration, hindex]
      · simp [mapping, hindex, ← hmapped]

theorem enters_removeChannel
    (hepoll : (poller.epoll channel.fd).isSome ↔ channel.index = .kAdded) :
    Enters ptr channel (poller.removeChannel ptr channel).2 poller
      (poller.removeChannel ptr channel).1 := by
  simp only [removeChannel]
  split
  · rename_i hindex
    rw [update_eq (by simp [eraseChannel, hepoll, hindex])]
    exact ⟨rfl, rfl, rfl, rfl⟩
  · rename_i hindex
    have hnone : poller.epoll channel.fd = none := by simpa [hindex] using hepoll
    exact ⟨rfl, (Function.update_eq_self_iff.mpr hnone.symm).symm, rfl, rfl⟩

theorem enters_invoke (hepoll : poller.epoll channel.fd = registration ptr channel)
    (hchannels : poller.channels channel.fd = mapping ptr channel) (call : ChannelCall) :
    Enters ptr channel (poller.invoke ptr channel call).2 poller
      (poller.invoke ptr channel call).1 := by
  have hsome : (poller.epoll channel.fd).isSome ↔ channel.index = .kAdded := by
    rw [hepoll, registration_isSome]
  by_cases hcall : call = .remove
  · subst hcall
    exact enters_removeChannel hsome
  · rw [invoke_eq_updateChannel hcall]
    -- The call changes the mask, which neither the fd nor the index_ depends on.
    have henters : Enters ptr (call.changed channel)
        (poller.updateChannel ptr (call.changed channel)).2 poller
        (poller.updateChannel ptr (call.changed channel)).1 := enters_updateChannel hsome hchannels
    exact ⟨henters.fd, henters.epoll, henters.channels, henters.exited⟩

end Calls

end EPollPoller

namespace Polling

open EPollPoller

variable {ι : Type*}

def start (fd : ι → ℕ) : Polling ι := ⟨.new, fun i => .new (fd i)⟩

def next [DecidableEq ι] (s : Polling ι) : ι × ChannelCall → Polling ι
  | (i, call) =>
      let result := s.poller.invoke i (s.channel i) call
      ⟨result.1, Function.update s.channel i result.2⟩

def Step [DecidableEq ι] (s : Polling ι) (e : ι × ChannelCall) (t : Polling ι) : Prop :=
  t = s.next e

section Agreement

variable {s t : Polling ι} {e : ι × ChannelCall}

-- The three views of a channel: the kernel has it when its index_ is kAdded, with the mask
-- events_, and channels_ when it is not kNew. No LOG_FATAL has ended the process.
structure InStep (s : Polling ι) : Prop where
  registered : ∀ fd i events, s.poller.epoll fd = some (i, events) ↔
    fd = (s.channel i).fd ∧ (s.channel i).index = .kAdded ∧ events = (s.channel i).events
  mapped : ∀ fd i, s.poller.channels fd = some i ↔
    fd = (s.channel i).fd ∧ (s.channel i).index ≠ .kNew
  running : s.poller.exited = false

-- The epoll_ctl of a call, if there is one, adds an fd that the kernel does not have, or
-- changes or deletes one that it has.
def Fits (s : Polling ι) (i : ι) (call : ChannelCall) : Prop :=
  ∀ operation ∈ call.operation (s.channel i),
    (s.poller.epoll (s.channel i).fd).isSome ↔ operation ≠ .EPOLL_CTL_ADD

-- The same from the side of the channels, fd by fd.
structure Tracked (s : Polling ι) : Prop where
  distinct : Function.Injective fun i => (s.channel i).fd
  epoll : ∀ i, s.poller.epoll (s.channel i).fd = registration i (s.channel i)
  channels : ∀ i, s.poller.channels (s.channel i).fd = mapping i (s.channel i)
  others : ∀ fd, (∀ i, fd ≠ (s.channel i).fd) →
    s.poller.epoll fd = none ∧ s.poller.channels fd = none
  running : s.poller.exited = false

-- An fd is that of a channel, or nothing is there for it.
theorem Tracked.owned_or_free (h : s.Tracked) (fd : ℕ) : (∃ i, fd = (s.channel i).fd) ∨
    s.poller.epoll fd = none ∧ s.poller.channels fd = none := by
  by_cases hown : ∃ i, fd = (s.channel i).fd
  · exact .inl hown
  · exact .inr (h.others fd (not_exists.mp hown))

theorem Tracked.inStep (h : s.Tracked) : s.InStep := by
  refine ⟨fun fd i events => ?_, fun fd i => ?_, h.running⟩
  · constructor
    · intro hfd
      rcases h.owned_or_free fd with ⟨j, rfl⟩ | ⟨hfree, _⟩
      · rw [h.epoll, registration] at hfd
        split at hfd
        · rename_i hindex
          obtain ⟨rfl, rfl⟩ := Prod.mk.inj (Option.some.inj hfd)
          exact ⟨rfl, hindex, rfl⟩
        · cases hfd
      · rw [hfree] at hfd
        cases hfd
    · rintro ⟨rfl, hindex, rfl⟩
      rw [h.epoll, registration, if_pos hindex]
  · constructor
    · intro hfd
      rcases h.owned_or_free fd with ⟨j, rfl⟩ | ⟨_, hfree⟩
      · rw [h.channels, mapping] at hfd
        split at hfd
        · cases hfd
        · rename_i hindex
          obtain rfl := Option.some.inj hfd
          exact ⟨rfl, hindex⟩
      · rw [hfree] at hfd
        cases hfd
    · rintro ⟨rfl, hindex⟩
      rw [h.channels, mapping, if_neg hindex]

theorem InStep.hasChannel_iff [DecidableEq ι] (h : s.InStep) (i : ι) :
    s.poller.hasChannel i (s.channel i) = true ↔ (s.channel i).index ≠ .kNew := by
  rw [hasChannel, decide_eq_true_eq, h.mapped]
  exact and_iff_right rfl

-- What is there for an fd shows in its channel.
theorem Tracked.fits (h : s.Tracked) (i : ι) (call : ChannelCall) : s.Fits i call := by
  intro operation hmem
  have hoperation := Option.mem_def.mp hmem
  have hregistered : (s.poller.epoll (s.channel i).fd).isSome ↔
      (s.channel i).index = .kAdded := by
    rw [h.epoll, registration_isSome]
  rw [hregistered]
  by_cases hcall : call = .remove
  · subst hcall
    cases hindex : (s.channel i).index with
    | kAdded =>
        simp only [ChannelCall.operation, hindex, Option.some.injEq] at hoperation
        simp [← hoperation]
    | kNew | kDeleted => simp [ChannelCall.operation, hindex] at hoperation
  · rw [operation_eq_of_updates hcall] at hoperation
    obtain rfl := Option.some.inj hoperation
    by_cases hindex : (s.channel i).index = .kAdded
    · refine iff_of_true hindex ?_
      simp only [hindex, ne_eq, not_true_eq_false, if_false]
      split <;> simp
    · simp [hindex]

theorem tracked_start {fd : ι → ℕ} (hfd : Function.Injective fd) : (start fd).Tracked :=
  ⟨hfd, fun _ => rfl, fun _ => rfl, fun _ _ => ⟨rfl, rfl⟩, rfl⟩

theorem Tracked.step [DecidableEq ι] (h : s.Tracked) (hstep : Step s e t) : t.Tracked := by
  obtain ⟨i, call⟩ := e
  obtain rfl : t = s.next (i, call) := hstep
  have henters := enters_invoke (h.epoll i) (h.channels i) call
  -- A channel other than the one of the call stays as it was, and so does its fd.
  have hother : ∀ j, j ≠ i → (s.next (i, call)).channel j = s.channel j ∧
      (s.channel j).fd ≠ (s.channel i).fd := fun j hj =>
    ⟨Function.update_of_ne hj _ _, fun hsame => hj (h.distinct hsame)⟩
  have hself : (s.next (i, call)).channel i = (s.poller.invoke i (s.channel i) call).2 :=
    Function.update_self _ _ _
  have hfd : ∀ j, ((s.next (i, call)).channel j).fd = (s.channel j).fd := by
    intro j
    by_cases hj : j = i
    · subst hj
      rw [hself, henters.fd]
    · rw [(hother j hj).1]
  have hepoll : (s.next (i, call)).poller.epoll = _ := henters.epoll
  have hchannels : (s.next (i, call)).poller.channels = _ := henters.channels
  constructor
  · simp only [hfd]
    exact h.distinct
  · intro j
    by_cases hj : j = i
    · subst hj
      rw [hfd, hepoll, Function.update_self, hself]
    · rw [hfd, hepoll, Function.update_of_ne (hother j hj).2, (hother j hj).1, h.epoll]
  · intro j
    by_cases hj : j = i
    · subst hj
      rw [hfd, hchannels, Function.update_self, hself]
    · rw [hfd, hchannels, Function.update_of_ne (hother j hj).2, (hother j hj).1, h.channels]
  · intro fd hne
    simp only [hfd] at hne
    rw [hepoll, hchannels, Function.update_of_ne (hne i), Function.update_of_ne (hne i)]
    exact h.others fd hne
  · exact henters.exited.trans h.running

-- Whatever calls were made of channels with different fds, the poller, the kernel and the
-- channels agree, and the epoll_ctl that any next call issues fits.
theorem poller_in_step [DecidableEq ι] {fd : ι → ℕ} (hfd : Function.Injective fd)
    {calls : List (ι × ChannelCall)} (hrun : Path Step (start fd) calls s) :
    s.InStep ∧ ∀ i call,
      Issues i (s.channel i) call (call.operation (s.channel i)) ∧ s.Fits i call := by
  have htracked : s.Tracked :=
    hrun.invariant Tracked (fun _ _ _ h hstep => h.step hstep) (tracked_start hfd)
  exact ⟨htracked.inStep, fun i call =>
    ⟨issues_operation i (s.channel i) call, htracked.fits i call⟩⟩

-- Disabled twice, removed when it is in the kernel and when it is not, and enabled again.
def sampleCalls : List (Bool × ChannelCall) :=
  [(true, .enableReading), (false, .remove), (true, .disableAll), (true, .disableAll),
    (false, .enableWriting), (true, .disableReading), (false, .remove), (true, .enableWriting)]

def sampleFd (i : Bool) : ℕ := if i then 7 else 8

theorem poller_in_step_sampleCalls :
    (play next (start sampleFd) sampleCalls).InStep ∧
      (play next (start sampleFd) sampleCalls).poller.epoll 7 =
        some (true, { writing := true }) := by
  have hfd : Function.Injective sampleFd := by
    unfold Function.Injective
    decide
  have hstep : ∀ (s : Polling Bool) e, True → Step s e (s.next e) := fun _ _ _ => rfl
  have hplays : Plays (fun _ _ => True) next (start sampleFd) sampleCalls := by decide
  exact ⟨(poller_in_step hfd (path_of_plays hstep hplays)).1, by decide⟩

end Agreement

end Polling

end MyTestserver
