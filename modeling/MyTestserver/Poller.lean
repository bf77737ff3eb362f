import Mathlib.Data.Nat.Notation
import Mathlib.Logic.Function.Basic

namespace MyTestserver

-- The values of index_ of a channel.
inductive Index
  | kNew
  | kAdded
  | kDeleted
  deriving DecidableEq

-- The bits kReadEvent and kWriteEvent of events_.
structure Events where
  reading : Bool := false
  writing : Bool := false
  deriving DecidableEq

def kNoneEvent : Events := {}

structure Channel where
  fd : ℕ
  events : Events
  index : Index
  tied : Bool
  deriving DecidableEq

inductive Operation
  | EPOLL_CTL_ADD
  | EPOLL_CTL_MOD
  | EPOLL_CTL_DEL
  deriving DecidableEq

-- `epoll` is what the kernel has for each fd: data.ptr and the mask. `exited` is that
-- LOG_FATAL has ended the process.
structure EPollPoller (ι : Type*) where
  channels : ℕ → Option ι
  epoll : ℕ → Option (ι × Events)
  exited : Bool

namespace Channel

def new (fd : ℕ) : Channel where
  fd := fd
  events := kNoneEvent
  index := .kNew
  tied := false

variable (channel : Channel)

def isNoneEvent : Bool := channel.events = kNoneEvent

def isWriting : Bool := channel.events.writing

end Channel

namespace EPollPoller

variable {ι : Type*}

def new : EPollPoller ι where
  channels _ := none
  epoll _ := none
  exited := false

-- epoll_ctl: an fd is added when it is not there (EEXIST), changed and deleted when it is
-- (ENOENT).
def epollCtl (epoll : ℕ → Option (ι × Events)) (operation : Operation) (fd : ℕ)
    (event : ι × Events) : Option (ℕ → Option (ι × Events)) :=
  match operation with
  | .EPOLL_CTL_ADD =>
      if (epoll fd).isNone then some (Function.update epoll fd (some event)) else none
  | .EPOLL_CTL_MOD =>
      if (epoll fd).isSome then some (Function.update epoll fd (some event)) else none
  | .EPOLL_CTL_DEL => if (epoll fd).isSome then some (Function.update epoll fd none) else none

section Operations

variable (poller : EPollPoller ι) (ptr : ι) (channel : Channel)

-- A DEL that fails is only logged.
def update (operation : Operation) : EPollPoller ι :=
  match epollCtl poller.epoll operation channel.fd (ptr, channel.events) with
  | some epoll => { poller with epoll := epoll }
  | none => if operation = .EPOLL_CTL_DEL then poller else { poller with exited := true }

def setChannel : EPollPoller ι :=
  { poller with channels := Function.update poller.channels channel.fd (some ptr) }

def eraseChannel : EPollPoller ι :=
  { poller with channels := Function.update poller.channels channel.fd none }

def updateChannel : EPollPoller ι × Channel :=
  match channel.index with
  | .kNew =>
      ((poller.setChannel ptr channel).update ptr channel .EPOLL_CTL_ADD,
        { channel with index := .kAdded })
  | .kDeleted => (poller.update ptr channel .EPOLL_CTL_ADD, { channel with index := .kAdded })
  | .kAdded =>
      if channel.isNoneEvent then
        (poller.update ptr channel .EPOLL_CTL_DEL, { channel with index := .kDeleted })
      else (poller.update ptr channel .EPOLL_CTL_MOD, channel)

-- Poller::hasChannel
def hasChannel [DecidableEq ι] : Bool := poller.channels channel.fd = some ptr

def removeChannel : EPollPoller ι × Channel :=
  let erased := poller.eraseChannel channel
  (if channel.index = .kAdded then erased.update ptr channel .EPOLL_CTL_DEL else erased,
    { channel with index := .kNew })

-- The calls of Channel, which end in updateChannel of its loop.
def enableReading : EPollPoller ι × Channel :=
  poller.updateChannel ptr { channel with events := { channel.events with reading := true } }

def disableReading : EPollPoller ι × Channel :=
  poller.updateChannel ptr { channel with events := { channel.events with reading := false } }

def enableWriting : EPollPoller ι × Channel :=
  poller.updateChannel ptr { channel with events := { channel.events with writing := true } }

def disableWriting : EPollPoller ι × Channel :=
  poller.updateChannel ptr { channel with events := { channel.events with writing := false } }

def disableAll : EPollPoller ι × Channel :=
  poller.updateChannel ptr { channel with events := kNoneEvent }

end Operations

section Agreement

variable {poller poller' : EPollPoller ι} {ptr other : ι} {channel : Channel} {fd : ℕ}
  {event : ι × Events}

theorem epollCtl_eq_some {epoll epoll' : ℕ → Option (ι × Events)} {operation : Operation}
    (h : epollCtl epoll operation fd event = some epoll') :
    epoll' =
      Function.update epoll fd (if operation = .EPOLL_CTL_DEL then none else some event) := by
  cases operation with
  | EPOLL_CTL_ADD | EPOLL_CTL_MOD | EPOLL_CTL_DEL =>
      simp only [epollCtl] at h
      split at h
      · exact (Option.some.inj h).symm
      · cases h

theorem update_channels (operation : Operation) :
    (poller.update ptr channel operation).channels = poller.channels := by
  unfold update
  split
  · rfl
  · split <;> rfl

-- Whatever the kernel answers, an entry is an old one or the one that was asked for.
theorem update_epoll {operation : Operation}
    (h : (poller.update ptr channel operation).epoll fd = some event) :
    poller.epoll fd = some event ∨
      operation ≠ .EPOLL_CTL_DEL ∧ fd = channel.fd ∧ event = (ptr, channel.events) := by
  unfold update at h
  split at h
  · rename_i epoll heq
    simp only [epollCtl_eq_some heq, Function.update_apply] at h
    grind
  · left
    split at h <;> exact h

-- After DEL the kernel has nothing for the fd, whether it had before or not.
theorem update_del : (poller.update ptr channel .EPOLL_CTL_DEL).epoll channel.fd = none := by
  unfold update
  split
  · rename_i epoll heq
    simp [epollCtl_eq_some heq]
  · rename_i heq
    simpa [epollCtl] using heq

-- The poller knows a channel under no other fd than its own, and the kernel has it only
-- while index_ says so.
structure Agrees (poller : EPollPoller ι) (ptr : ι) (channel : Channel) : Prop where
  channels : ∀ fd, poller.channels fd = some ptr → fd = channel.fd
  epoll : ∀ fd events, poller.epoll fd = some (ptr, events) →
    fd = channel.fd ∧ channel.index = .kAdded

def Forgotten (poller : EPollPoller ι) (ptr : ι) : Prop :=
  ∀ fd, poller.channels fd ≠ some ptr ∧ ∀ events, poller.epoll fd ≠ some (ptr, events)

-- Of all channels but one, the second poller has no more than the first.
structure Within (ptr : ι) (poller poller' : EPollPoller ι) : Prop where
  channels : ∀ fd other, other ≠ ptr → poller'.channels fd = some other →
    poller.channels fd = some other
  epoll : ∀ fd other events, other ≠ ptr → poller'.epoll fd = some (other, events) →
    poller.epoll fd = some (other, events)

theorem Forgotten.agrees (h : poller.Forgotten ptr) (channel : Channel) :
    poller.Agrees ptr channel where
  channels fd hfd := absurd hfd (h fd).1
  epoll fd events hfd := absurd hfd ((h fd).2 events)

theorem Within.trans {poller'' : EPollPoller ι} (h : Within ptr poller poller')
    (h' : Within ptr poller' poller'') : Within ptr poller poller'' where
  channels fd other hne hfd := h.channels fd other hne (h'.channels fd other hne hfd)
  epoll fd other events hne hfd := h.epoll fd other events hne (h'.epoll fd other events hne hfd)

theorem Within.forgotten (h : Within ptr poller poller') (hne : other ≠ ptr)
    (hother : poller.Forgotten other) : poller'.Forgotten other := fun fd =>
  ⟨fun hfd => (hother fd).1 (h.channels fd other hne hfd),
    fun events hfd => (hother fd).2 events (h.epoll fd other events hne hfd)⟩

theorem Within.agrees (h : Within ptr poller poller') (hne : other ≠ ptr)
    (hother : poller.Agrees other channel) : poller'.Agrees other channel where
  channels fd hfd := hother.channels fd (h.channels fd other hne hfd)
  epoll fd events hfd := hother.epoll fd events (h.epoll fd other events hne hfd)

theorem within_update (operation : Operation) :
    Within ptr poller (poller.update ptr channel operation) where
  channels fd other _ hfd := by rwa [update_channels] at hfd
  epoll fd other events hne hfd := by
    obtain hold | ⟨-, -, hnew⟩ := update_epoll hfd
    · exact hold
    · exact absurd (Prod.mk.inj hnew).1 hne

theorem within_setChannel : Within ptr poller (poller.setChannel ptr channel) where
  channels fd other hne hfd := by
    simp only [setChannel, Function.update_apply] at hfd
    split at hfd
    · exact absurd (Option.some.inj hfd).symm hne
    · exact hfd
  epoll _ _ _ _ hfd := hfd

theorem within_eraseChannel : Within ptr poller (poller.eraseChannel channel) where
  channels fd other _ hfd := by
    simp only [eraseChannel, Function.update_apply] at hfd
    split at hfd
    · cases hfd
    · exact hfd
  epoll _ _ _ _ hfd := hfd

theorem within_updateChannel (poller : EPollPoller ι) (ptr : ι) (channel : Channel) :
    Within ptr poller (poller.updateChannel ptr channel).1 := by
  unfold updateChannel
  split
  · exact within_setChannel.trans (within_update _)
  · exact within_update _
  · split <;> exact within_update _

theorem within_removeChannel (poller : EPollPoller ι) (ptr : ι) (channel : Channel) :
    Within ptr poller (poller.removeChannel ptr channel).1 := by
  simp only [removeChannel]
  split
  · exact within_eraseChannel.trans (within_update _)
  · exact within_eraseChannel

theorem Agrees.setChannel (h : poller.Agrees ptr channel) :
    (poller.setChannel ptr channel).Agrees ptr channel where
  channels fd hfd := by
    simp only [EPollPoller.setChannel, Function.update_apply] at hfd
    split at hfd
    · assumption
    · exact h.channels fd hfd
  epoll := h.epoll

-- ADD and MOD come with kAdded.
theorem Agrees.update (h : poller.Agrees ptr channel) (operation : Operation) :
    (poller.update ptr channel operation).Agrees ptr { channel with index := .kAdded } where
  channels fd hfd := h.channels fd (by rwa [update_channels] at hfd)
  epoll fd events hfd := by
    obtain hold | ⟨-, hnew, -⟩ := update_epoll hfd
    · exact ⟨(h.epoll fd events hold).1, rfl⟩
    · exact ⟨hnew, rfl⟩

theorem Agrees.delete (h : poller.Agrees ptr channel) (index : Index) :
    (poller.update ptr channel .EPOLL_CTL_DEL).Agrees ptr { channel with index := index } where
  channels fd hfd := h.channels fd (by rwa [update_channels] at hfd)
  epoll fd events hfd := by
    obtain hold | ⟨hne, -, -⟩ := update_epoll hfd
    · rw [(h.epoll fd events hold).1, update_del] at hfd
      cases hfd
    · exact absurd rfl hne

theorem Agrees.withEvents (h : poller.Agrees ptr channel) (events : Events) :
    poller.Agrees ptr { channel with events := events } where
  channels := h.channels
  epoll := h.epoll

theorem Agrees.updateChannel (h : poller.Agrees ptr channel) :
    (poller.updateChannel ptr channel).1.Agrees ptr (poller.updateChannel ptr channel).2 := by
  unfold EPollPoller.updateChannel
  split
  · exact h.setChannel.update _
  · exact h.update _
  · rename_i hindex
    split
    · exact h.delete _
    · have hadded := h.update (.EPOLL_CTL_MOD)
      rwa [← hindex] at hadded

theorem Agrees.removeChannel (h : poller.Agrees ptr channel) :
    (poller.removeChannel ptr channel).1.Forgotten ptr := by
  have hchannels fd : (poller.eraseChannel channel).channels fd ≠ some ptr := by
    intro hfd
    simp only [eraseChannel, Function.update_apply] at hfd
    split at hfd
    · cases hfd
    · rename_i hne
      exact hne (h.channels fd hfd)
  intro fd
  simp only [EPollPoller.removeChannel]
  split
  · refine ⟨fun hfd => hchannels fd (by rwa [update_channels] at hfd), fun events hfd => ?_⟩
    obtain hold | ⟨hne, -, -⟩ := update_epoll hfd
    · rw [(h.epoll fd events hold).1, update_del] at hfd
      cases hfd
    · exact hne rfl
  · rename_i hindex
    exact ⟨hchannels fd, fun events hfd => hindex (h.epoll fd events hfd).2⟩

end Agreement

end EPollPoller

end MyTestserver
