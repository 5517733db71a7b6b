import Mathlib.Data.Finmap
import Mathlib.Data.Finset.Basic

namespace MuduoPlus

def epollIn : BitVec 32 := 0x001#32

def epollPri : BitVec 32 := 0x002#32

def epollOut : BitVec 32 := 0x004#32

def kNoneEvent : BitVec 32 := 0#32

def kReadEvent : BitVec 32 := epollIn ||| epollPri

def kWriteEvent : BitVec 32 := epollOut

/-- The values of `index_`: -1, 1 and 2 in `EPollPoller.cpp`. -/
inductive PollIndex where
  | kNew
  | kAdded
  | kDeleted
  deriving DecidableEq, Repr

/-- A `Channel` object; `addr` is its address, which is what the poller and the kernel
keep of it. -/
structure Channel where
  addr : Nat
  fd : Int
  events : BitVec 32
  index : PollIndex
  deriving DecidableEq

namespace Channel

def new (addr : Nat) (fd : Int) : Channel := ⟨addr, fd, kNoneEvent, .kNew⟩

def isNoneEvent (ch : Channel) : Bool := ch.events == kNoneEvent

def isWriting (ch : Channel) : Bool := ch.events &&& kWriteEvent != 0#32

theorem isWriting_eq (ch : Channel) : ch.isWriting = ch.events.getLsbD 2 := by
  have h := BitVec.and_twoPow ch.events 2
  have h4 : BitVec.twoPow 32 2 = kWriteEvent := rfl
  rw [h4] at h
  rw [isWriting, h]
  split <;> simp_all [kWriteEvent, epollOut]

end Channel

/-- What the kernel keeps for a registered descriptor: the mask and `event.data.ptr`. -/
structure Interest where
  events : BitVec 32
  ptr : Nat
  deriving DecidableEq

/-- The kernel's side of the poller: the open descriptors and the epoll set. -/
structure EpollSet where
  openFds : Finset Int
  interest : Finmap (fun _ : Int => Interest)

inductive EpollOp where
  | add
  | mod
  | del
  deriving DecidableEq, Repr

inductive EpollError where
  | eBadF
  | eExist
  | eNoEnt
  deriving DecidableEq, Repr

namespace EpollSet

/-- `epoll_ctl`: ADD wants an absent descriptor, MOD and DEL a present one. -/
def ctl (k : EpollSet) (op : EpollOp) (fd : Int) (event : Interest) : Except EpollError EpollSet :=
  if fd ∉ k.openFds then .error .eBadF
  else
    match op with
    | .add =>
      if fd ∈ k.interest then .error .eExist
      else .ok { k with interest := k.interest.insert fd event }
    | .mod =>
      if fd ∈ k.interest then .ok { k with interest := k.interest.insert fd event }
      else .error .eNoEnt
    | .del =>
      if fd ∈ k.interest then .ok { k with interest := k.interest.erase fd }
      else .error .eNoEnt

end EpollSet

/-- `channels_` maps a descriptor to the address of its `Channel`. -/
structure EPollPoller where
  channels : Finmap (fun _ : Int => Nat)
  kernel : EpollSet

/-- A channel together with the poller of its loop. -/
structure Registration where
  channel : Channel
  poller : EPollPoller

namespace EPollPoller

def hasChannel (p : EPollPoller) (ch : Channel) : Bool :=
  p.channels.lookup ch.fd == some ch.addr

/-- A closed descriptor skips MOD and DEL; an error of `epoll_ctl` is only logged. -/
def update (p : EPollPoller) (op : EpollOp) (ch : Channel) : EPollPoller :=
  if ch.fd ∉ p.kernel.openFds ∧ (op = .del ∨ op = .mod) then p
  else
    match p.kernel.ctl op ch.fd ⟨ch.events, ch.addr⟩ with
    | .ok kernel => { p with kernel }
    | .error _ => p

def updateChannel (p : EPollPoller) (ch : Channel) : Registration :=
  match ch.index with
  | .kNew =>
    let ch := { ch with index := .kAdded }
    ⟨ch, { p with channels := p.channels.insert ch.fd ch.addr }.update .add ch⟩
  | .kDeleted =>
    let ch := { ch with index := .kAdded }
    ⟨ch, p.update .add ch⟩
  | .kAdded =>
    if ch.isNoneEvent then ⟨{ ch with index := .kDeleted }, p.update .del ch⟩
    else ⟨ch, p.update .mod ch⟩

@[simp] theorem update_channels (p : EPollPoller) (op : EpollOp) (ch : Channel) :
    (p.update op ch).channels = p.channels := by
  unfold update
  split
  · rfl
  · split <;> rfl

@[simp] theorem update_openFds (p : EPollPoller) (op : EpollOp) (ch : Channel) :
    (p.update op ch).kernel.openFds = p.kernel.openFds := by
  unfold update
  split
  · rfl
  · split
    next h =>
      unfold EpollSet.ctl at h
      split at h
      · cases h
      · cases op <;> simp only at h <;> split at h <;> cases h <;> rfl
    next => rfl

@[simp] theorem updateChannel_events (p : EPollPoller) (ch : Channel) :
    (p.updateChannel ch).channel.events = ch.events := by
  unfold updateChannel
  split
  · rfl
  · rfl
  · split <;> rfl

@[simp] theorem updateChannel_fd (p : EPollPoller) (ch : Channel) :
    (p.updateChannel ch).channel.fd = ch.fd := by
  unfold updateChannel
  split
  · rfl
  · rfl
  · split <;> rfl

@[simp] theorem updateChannel_addr (p : EPollPoller) (ch : Channel) :
    (p.updateChannel ch).channel.addr = ch.addr := by
  unfold updateChannel
  split
  · rfl
  · rfl
  · split <;> rfl

@[simp] theorem updateChannel_openFds (p : EPollPoller) (ch : Channel) :
    (p.updateChannel ch).poller.kernel.openFds = p.kernel.openFds := by
  unfold updateChannel
  split
  · exact update_openFds ..
  · exact update_openFds ..
  · split <;> exact update_openFds ..

end EPollPoller

namespace Registration

def update (r : Registration) : Registration := r.poller.updateChannel r.channel

/-- As `Channel.cpp` has it: the same call as `update`. -/
def remove (r : Registration) : Registration := r.poller.updateChannel r.channel

/-- The common body of the `enable` and `disable` functions. -/
def setEvents (r : Registration) (events : BitVec 32) : Registration :=
  if r.channel.fd < 0 then r
  else update { r with channel := { r.channel with events } }

def enableReading (r : Registration) : Registration :=
  r.setEvents (r.channel.events ||| kReadEvent)

def disableReading (r : Registration) : Registration :=
  r.setEvents (r.channel.events &&& ~~~kReadEvent)

def enableWriting (r : Registration) : Registration :=
  r.setEvents (r.channel.events ||| kWriteEvent)

def disableWriting (r : Registration) : Registration :=
  r.setEvents (r.channel.events &&& ~~~kWriteEvent)

def disableAll (r : Registration) : Registration := r.setEvents kNoneEvent

@[simp] theorem remove_events (r : Registration) : r.remove.channel.events = r.channel.events :=
  r.poller.updateChannel_events r.channel

@[simp] theorem remove_fd (r : Registration) : r.remove.channel.fd = r.channel.fd :=
  r.poller.updateChannel_fd r.channel

@[simp] theorem setEvents_fd (r : Registration) (e : BitVec 32) :
    (r.setEvents e).channel.fd = r.channel.fd := by
  unfold setEvents
  split
  · rfl
  · exact EPollPoller.updateChannel_fd ..

@[simp] theorem setEvents_addr (r : Registration) (e : BitVec 32) :
    (r.setEvents e).channel.addr = r.channel.addr := by
  unfold setEvents
  split
  · rfl
  · exact EPollPoller.updateChannel_addr ..

theorem setEvents_events {r : Registration} (h : 0 ≤ r.channel.fd) (e : BitVec 32) :
    (r.setEvents e).channel.events = e := by
  have hn : ¬ r.channel.fd < 0 := by omega
  simp [setEvents, hn, update]

@[simp] theorem remove_isWriting (r : Registration) :
    r.remove.channel.isWriting = r.channel.isWriting := by
  simp [Channel.isWriting]

@[simp] theorem enableReading_isWriting (r : Registration) :
    r.enableReading.channel.isWriting = r.channel.isWriting := by
  unfold enableReading
  by_cases h : r.channel.fd < 0
  · simp [setEvents, h]
  · simp [Channel.isWriting_eq, setEvents_events (by omega : 0 ≤ r.channel.fd), kReadEvent,
      epollIn, epollPri]

theorem enableWriting_isWriting {r : Registration} (h : 0 ≤ r.channel.fd) :
    r.enableWriting.channel.isWriting = true := by
  simp [enableWriting, Channel.isWriting_eq, setEvents_events h, kWriteEvent, epollOut]

theorem disableWriting_isWriting {r : Registration} (h : 0 ≤ r.channel.fd) :
    r.disableWriting.channel.isWriting = false := by
  simp [disableWriting, Channel.isWriting_eq, setEvents_events h, kWriteEvent, epollOut]

theorem disableAll_isWriting {r : Registration} (h : 0 ≤ r.channel.fd) :
    r.disableAll.channel.isWriting = false := by
  simp [disableAll, Channel.isWriting_eq, setEvents_events h, kNoneEvent]

end Registration

end MuduoPlus
