import Mathlib.Logic.Function.Basic
import MuduoPlus.ActionSystem
import MuduoPlus.ChannelBooks

namespace MuduoPlus

namespace EPollPoller

variable {p : EPollPoller} {ch : Channel}

/-- How the `epoll_ctl` of `update` fails. -/
def updateError (p : EPollPoller) (op : EpollOp) (ch : Channel) : Option EpollError :=
  if ch.fd ∉ p.kernel.openFds ∧ (op = .del ∨ op = .mod) then none
  else
    match p.kernel.ctl op ch.fd ⟨ch.events, ch.addr⟩ with
    | .ok _ => none
    | .error e => some e

/-- How the `epoll_ctl` of `updateChannel` fails. -/
def updateChannelError (p : EPollPoller) (ch : Channel) : Option EpollError :=
  match ch.index with
  | .kNew => updateError p .add ch
  | .kDeleted => updateError p .add ch
  | .kAdded => if ch.isNoneEvent then updateError p .del ch else updateError p .mod ch

/-- `index_`, the epoll set and `channels_` tell the same of a channel. -/
structure Mirrors (p : EPollPoller) (ch : Channel) : Prop where
  added : ch.index = .kAdded ↔ ch.fd ∈ p.kernel.interest
  entry : ch.index = .kAdded → p.kernel.interest.lookup ch.fd = some ⟨ch.events, ch.addr⟩
  tracked : p.channels.lookup ch.fd = some ch.addr ↔ ch.index ≠ .kNew

theorem update_lookup_ne (ch : Channel) (op : EpollOp) {fd : Int} (h : fd ≠ ch.fd) :
    (p.update op ch).kernel.interest.lookup fd = p.kernel.interest.lookup fd := by
  rcases p.update_interest_cases op ch with he | he | he
  · rw [he]
  · rw [he, Finmap.lookup_insert_of_ne _ h]
  · rw [he, Finmap.lookup_erase_ne h]

/-- `updateChannel` touches the entry of its own descriptor only. -/
theorem updateChannel_lookup_ne {fd : Int} (h : fd ≠ ch.fd) :
    (p.updateChannel ch).poller.kernel.interest.lookup fd = p.kernel.interest.lookup fd ∧
      (p.updateChannel ch).poller.channels.lookup fd = p.channels.lookup fd := by
  unfold updateChannel
  split
  · refine ⟨update_lookup_ne _ .add h, ?_⟩
    rw [update_channels]
    exact Finmap.lookup_insert_of_ne _ h
  · refine ⟨update_lookup_ne _ .add h, ?_⟩
    rw [update_channels]
  · split
    · refine ⟨update_lookup_ne _ .del h, ?_⟩
      rw [update_channels]
    · refine ⟨update_lookup_ne _ .mod h, ?_⟩
      rw [update_channels]

/-- What another channel's call leaves of a mirrored one. -/
theorem Mirrors.other {other : Channel} (h : Mirrors p other) (hne : other.fd ≠ ch.fd) :
    Mirrors (p.updateChannel ch).poller other := by
  obtain ⟨hint, hch⟩ := updateChannel_lookup_ne (p := p) hne
  refine ⟨?_, ?_, ?_⟩
  · rw [h.added, ← Finmap.lookup_isSome, ← Finmap.lookup_isSome, hint]
  · intro ha
    rw [hint]
    exact h.entry ha
  · rw [hch]
    exact h.tracked

/-- The call itself brings the three in step, whatever mask it was made for. -/
theorem mirrors_updateChannel (ch : Channel) (ho : ch.fd ∈ p.kernel.openFds)
    (ha : ch.index = .kAdded ↔ ch.fd ∈ p.kernel.interest)
    (ht : ch.index ≠ .kNew → p.channels.lookup ch.fd = some ch.addr) :
    Mirrors (p.updateChannel ch).poller (p.updateChannel ch).channel := by
  unfold updateChannel
  split
  next hi =>
    have hn : ch.fd ∉ p.kernel.interest := by simpa [hi] using ha
    refine ⟨?_, ?_, ?_⟩
    · simp [update, EpollSet.ctl, ho, hn, Finmap.mem_insert]
    · simp [update, EpollSet.ctl, ho, hn]
    · simp
  next hi =>
    have hn : ch.fd ∉ p.kernel.interest := by simpa [hi] using ha
    have hl := ht (by simp [hi])
    refine ⟨?_, ?_, ?_⟩
    · simp [update, EpollSet.ctl, ho, hn, Finmap.mem_insert]
    · simp [update, EpollSet.ctl, ho, hn]
    · simp [hl]
  next hi =>
    have hm := ha.mp hi
    have hl := ht (by simp [hi])
    split
    next =>
      refine ⟨?_, ?_, ?_⟩
      · simp [update, EpollSet.ctl, ho, hm, Finmap.mem_erase]
      · simp
      · simp [hl]
    next =>
      refine ⟨?_, ?_, ?_⟩
      · simp [update, EpollSet.ctl, ho, hm, hi, Finmap.mem_insert]
      · simp [update, EpollSet.ctl, ho, hm]
      · simp [hl, hi]

/-- ADD meets an absent descriptor, MOD and DEL a present one. -/
theorem updateChannelError_eq_none (ch : Channel) (ho : ch.fd ∈ p.kernel.openFds)
    (ha : ch.index = .kAdded ↔ ch.fd ∈ p.kernel.interest) : p.updateChannelError ch = none := by
  unfold updateChannelError
  split
  next hi =>
    have hn : ch.fd ∉ p.kernel.interest := by simpa [hi] using ha
    simp [updateError, EpollSet.ctl, ho, hn]
  next hi =>
    have hn : ch.fd ∉ p.kernel.interest := by simpa [hi] using ha
    simp [updateError, EpollSet.ctl, ho, hn]
  next hi =>
    have hm := ha.mp hi
    split
    next => simp [updateError, EpollSet.ctl, ho, hm]
    next => simp [updateError, EpollSet.ctl, ho, hm]

end EPollPoller

/-- The functions of `Channel` that reach the poller. -/
inductive ChannelCall where
  | op (op : ChannelOp)
  | remove
  deriving DecidableEq, Repr

/-- The mask that a call leaves in `events_`. -/
def ChannelOp.mask (events : BitVec 32) : ChannelOp → BitVec 32
  | .enableReading => events ||| kReadEvent
  | .disableReading => events &&& ~~~kReadEvent
  | .enableWriting => events ||| kWriteEvent
  | .disableWriting => events &&& ~~~kWriteEvent
  | .disableAll => kNoneEvent

namespace Registration

variable {r : Registration}

def applyChannelCall (r : Registration) : ChannelCall → Registration
  | .op op => r.applyOp op
  | .remove => r.remove

/-- How the `epoll_ctl` of a call fails. -/
def callError (r : Registration) : ChannelCall → Option EpollError
  | .op op => if r.channel.fd < 0 then none
    else r.poller.updateChannelError { r.channel with events := op.mask r.channel.events }
  | .remove => r.poller.updateChannelError r.channel

theorem applyOp_eq_setEvents (op : ChannelOp) :
    r.applyOp op = r.setEvents (op.mask r.channel.events) := by
  cases op <;> rfl

end Registration

/-- The channels of one loop beside their poller, and the failures of `epoll_ctl` so far. -/
structure LoopChannels (ι : Type) where
  channels : ι → Channel
  poller : EPollPoller
  failures : List EpollError

namespace LoopChannels

variable {ι : Type} {s : LoopChannels ι}

def reg (s : LoopChannels ι) (i : ι) : Registration := ⟨s.channels i, s.poller⟩

def call [DecidableEq ι] (i : ι) (c : ChannelCall) (s : LoopChannels ι) : LoopChannels ι where
  channels := Function.update s.channels i ((s.reg i).applyChannelCall c).channel
  poller := ((s.reg i).applyChannelCall c).poller
  failures := s.failures ++ ((s.reg i).callError c).toList

/-- Any calls on any number of live channels with open descriptors of their own, none of which
the poller knows at the start. -/
def system (ι : Type) [DecidableEq ι] : ActionSystem (LoopChannels ι) (ι × ChannelCall) where
  init s := s.failures = [] ∧ (∀ i j, (s.channels i).fd = (s.channels j).fd → i = j) ∧
    ∀ i, s.channels i = Channel.new (s.channels i).addr (s.channels i).fd ∧
      0 ≤ (s.channels i).fd ∧ (s.channels i).fd ∈ s.poller.kernel.openFds ∧
      (s.channels i).fd ∉ s.poller.kernel.interest ∧
      s.poller.channels.lookup (s.channels i).fd ≠ some (s.channels i).addr
  permitted _ _ := True
  apply a s := s.call a.1 a.2

structure Inv (s : LoopChannels ι) : Prop where
  fd_injective : ∀ i j, (s.channels i).fd = (s.channels j).fd → i = j
  fd_nonneg : ∀ i, 0 ≤ (s.channels i).fd
  open_fds : ∀ i, (s.channels i).fd ∈ s.poller.kernel.openFds
  mirrors : ∀ i, s.poller.Mirrors (s.channels i)
  no_failure : s.failures = []

theorem Inv.init (h0 : s.failures = []) (hinj : ∀ i j, (s.channels i).fd = (s.channels j).fd → i = j)
    (hnew : ∀ i, s.channels i = Channel.new (s.channels i).addr (s.channels i).fd ∧
      0 ≤ (s.channels i).fd ∧ (s.channels i).fd ∈ s.poller.kernel.openFds ∧
      (s.channels i).fd ∉ s.poller.kernel.interest ∧
      s.poller.channels.lookup (s.channels i).fd ≠ some (s.channels i).addr) : Inv s := by
  refine ⟨hinj, fun i => (hnew i).2.1, fun i => (hnew i).2.2.1, ?_, h0⟩
  intro i
  obtain ⟨hch, -, -, hint, htracked⟩ := hnew i
  have hindex : (s.channels i).index = .kNew := by
    rw [hch]
    rfl
  refine ⟨?_, ?_, ?_⟩
  · simp [hindex, hint]
  · simp [hindex]
  · simp [hindex, htracked]

/-- Every call is one `updateChannel`, of the channel with the mask the call asks for. -/
theorem exists_updateChannel {i : ι} (hfd : 0 ≤ (s.channels i).fd) (c : ChannelCall) : ∃ events,
    (s.reg i).applyChannelCall c = s.poller.updateChannel { s.channels i with events } ∧
      (s.reg i).callError c = s.poller.updateChannelError { s.channels i with events } := by
  have hn : ¬ (s.channels i).fd < 0 := by omega
  cases c with
  | op op =>
    refine ⟨op.mask (s.channels i).events, ?_, ?_⟩
    · rw [Registration.applyChannelCall, Registration.applyOp_eq_setEvents]
      exact if_neg hn
    · exact if_neg hn
  | remove => exact ⟨(s.channels i).events, rfl, rfl⟩

variable [DecidableEq ι]

theorem Inv.call (h : Inv s) (i : ι) (c : ChannelCall) : Inv (s.call i c) := by
  obtain ⟨events, hreg, herror⟩ := exists_updateChannel (h.fd_nonneg i) c
  have hmir := h.mirrors i
  have hself := EPollPoller.mirrors_updateChannel { s.channels i with events }
    (h.open_fds i) hmir.added hmir.tracked.mpr
  have hnone := EPollPoller.updateChannelError_eq_none { s.channels i with events }
    (h.open_fds i) hmir.added
  have hfd : ∀ j, ((s.call i c).channels j).fd = (s.channels j).fd := by
    intro j
    by_cases hj : j = i
    · subst hj
      simp [LoopChannels.call, hreg]
    · simp [LoopChannels.call, hj]
  have hpoller : (s.call i c).poller =
      (s.poller.updateChannel { s.channels i with events }).poller := by
    rw [LoopChannels.call, hreg]
  refine ⟨?_, ?_, ?_, ?_, ?_⟩
  · intro j k hjk
    rw [hfd, hfd] at hjk
    exact h.fd_injective j k hjk
  · intro j
    rw [hfd]
    exact h.fd_nonneg j
  · intro j
    rw [hfd, hpoller, EPollPoller.updateChannel_openFds]
    exact h.open_fds j
  · intro j
    rw [hpoller]
    by_cases hj : j = i
    · subst hj
      have hch : (s.call j c).channels j =
          (s.poller.updateChannel { s.channels j with events }).channel := by
        simp [LoopChannels.call, hreg]
      rw [hch]
      exact hself
    · have hch : (s.call i c).channels j = s.channels j := by simp [LoopChannels.call, hj]
      rw [hch]
      exact (h.mirrors j).other fun he => hj (h.fd_injective j i he)
  · rw [LoopChannels.call, herror, hnone, h.no_failure]
    rfl

/-- In every state of every run the poller's three copies of each registration agree, and
`epoll_ctl` was never asked for what cannot be. -/
theorem poller_mirrors_kernel (h : (system ι).Reachable s) :
    (∀ i, ((s.channels i).index = .kAdded ↔ (s.channels i).fd ∈ s.poller.kernel.interest) ∧
      ((s.channels i).index = .kAdded → s.poller.kernel.interest.lookup (s.channels i).fd =
        some ⟨(s.channels i).events, (s.channels i).addr⟩) ∧
      (s.poller.channels.lookup (s.channels i).fd = some (s.channels i).addr ↔
        (s.channels i).index ≠ .kNew)) ∧
      .eExist ∉ s.failures ∧ .eNoEnt ∉ s.failures := by
  have hi : Inv s := h.invariant (fun _ h0 => Inv.init h0.1 h0.2.1 h0.2.2)
    (fun a _ _ hi => hi.call a.1 a.2)
  refine ⟨fun i => ⟨(hi.mirrors i).added, (hi.mirrors i).entry, (hi.mirrors i).tracked⟩, ?_, ?_⟩
  · rw [hi.no_failure]
    exact List.not_mem_nil
  · rw [hi.no_failure]
    exact List.not_mem_nil

/-- A connection and a listener on one loop. -/
def twoChannels : LoopChannels Bool where
  channels
    | true => Channel.new 1 5
    | false => Channel.new 2 6
  poller := ⟨∅, ⟨{5, 6}, ∅⟩⟩
  failures := []

theorem twoChannels_init : (system Bool).init twoChannels := by
  refine ⟨rfl, ?_, ?_⟩
  · decide
  · decide

/-- Interests toggled through the empty mask, and a removal. -/
def toggles : List (Bool × ChannelCall) := [
  (true, .op .enableReading), (false, .op .enableReading), (true, .op .disableReading),
  (true, .op .enableWriting), (false, .op .disableAll), (false, .remove)]

theorem poller_mirrors_kernel_toggles :
    let s := (system Bool).run toggles twoChannels
    s.poller.kernel.interest.lookup 5 = some ⟨kWriteEvent, 1⟩ ∧
      s.poller.kernel.interest.lookup 6 = some ⟨kNoneEvent, 2⟩ ∧ .eNoEnt ∉ s.failures := by
  intro s
  have h0 : (system Bool).Reachable twoChannels := .init twoChannels_init
  have hr : (system Bool).Reachable s :=
    h0.run ⟨trivial, trivial, trivial, trivial, trivial, trivial, trivial⟩
  have hend : s.poller.kernel.interest.lookup 5 = some ⟨kWriteEvent, 1⟩ ∧
      s.poller.kernel.interest.lookup 6 = some ⟨kNoneEvent, 2⟩ := by decide
  exact ⟨hend.1, hend.2, (poller_mirrors_kernel hr).2.2⟩

end LoopChannels

end MuduoPlus
