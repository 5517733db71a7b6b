import MuduoPlus.Channel

namespace MuduoPlus

namespace EPollPoller

theorem update_interest_cases (p : EPollPoller) (op : EpollOp) (ch : Channel) :
    (p.update op ch).kernel.interest = p.kernel.interest ∨
      (p.update op ch).kernel.interest = p.kernel.interest.insert ch.fd ⟨ch.events, ch.addr⟩ ∨
      (p.update op ch).kernel.interest = p.kernel.interest.erase ch.fd := by
  by_cases ho : ch.fd ∈ p.kernel.openFds
  · by_cases hm : ch.fd ∈ p.kernel.interest <;> cases op <;> simp [update, EpollSet.ctl, ho, hm]
  · cases op <;> simp [update, EpollSet.ctl, ho]

end EPollPoller

namespace Registration

/-- Every channel the poller has seen is in `channels_`. -/
def Tracked (r : Registration) : Prop :=
  r.channel.index ≠ .kNew → r.poller.channels.lookup r.channel.fd = some r.channel.addr

variable {r : Registration}

/-- `updateChannel` leaves the channel in `channels_`, whatever it does to the epoll set. -/
theorem Tracked.lookup_update (h : r.Tracked) :
    r.update.poller.channels.lookup r.channel.fd = some r.channel.addr := by
  unfold update EPollPoller.updateChannel
  split
  next hi => simp
  next hi => simpa using h (by simp [hi])
  next hi => split <;> simpa using h (by simp [hi])

theorem Tracked.update (h : r.Tracked) : r.update.Tracked := by
  intro _
  have hfd : r.update.channel.fd = r.channel.fd := EPollPoller.updateChannel_fd ..
  have haddr : r.update.channel.addr = r.channel.addr := EPollPoller.updateChannel_addr ..
  rw [hfd, haddr]
  exact h.lookup_update

/-- A property of registrations that all functions of `Channel` keep. -/
structure Closed (P : Registration → Prop) : Prop where
  setEvents : ∀ r events, P r → P (r.setEvents events)
  remove : ∀ r, P r → P r.remove

theorem closed_tracked : Closed Tracked where
  setEvents := by
    intro r events h
    unfold Registration.setEvents
    split
    · exact h
    · have ht : Tracked { r with channel := { r.channel with events } } := h
      exact ht.update
  remove := fun _ h => h.update

end Registration

/-- The functions of `Channel` that change what it waits for. -/
inductive ChannelOp where
  | enableReading
  | disableReading
  | enableWriting
  | disableWriting
  | disableAll
  deriving DecidableEq, Repr

namespace Registration

variable {r : Registration}

def applyOp (r : Registration) : ChannelOp → Registration
  | .enableReading => r.enableReading
  | .disableReading => r.disableReading
  | .enableWriting => r.enableWriting
  | .disableWriting => r.disableWriting
  | .disableAll => r.disableAll

def runOps (r : Registration) (ops : List ChannelOp) : Registration := ops.foldl applyOp r

theorem runOps_of_closed {P : Registration → Prop} (hP : Closed P) (ops : List ChannelOp)
    (h : P r) : P (r.runOps ops) := by
  induction ops generalizing r with
  | nil => exact h
  | cons op ops ih =>
    apply ih
    cases op with
    | enableReading => exact hP.setEvents _ _ h
    | disableReading => exact hP.setEvents _ _ h
    | enableWriting => exact hP.setEvents _ _ h
    | disableWriting => exact hP.setEvents _ _ h
    | disableAll => exact hP.setEvents _ _ h

/-- What removing a channel is for: nothing refers to it any more. -/
def Deregistered (r : Registration) : Prop :=
  (∀ fd i, r.poller.kernel.interest.lookup fd = some i → i.ptr ≠ r.channel.addr) ∧
    r.poller.hasChannel r.channel = false

theorem Tracked.remove_lookup (h : r.Tracked) :
    r.remove.poller.channels.lookup r.channel.fd = some r.channel.addr := h.lookup_update

theorem Tracked.not_deregistered (h : r.Tracked) : ¬ r.remove.Deregistered := by
  intro hd
  have haddr : r.remove.channel.addr = r.channel.addr := EPollPoller.updateChannel_addr ..
  have hno := hd.2
  rw [EPollPoller.hasChannel, remove_fd, haddr, h.remove_lookup] at hno
  simp at hno

end Registration

end MuduoPlus
