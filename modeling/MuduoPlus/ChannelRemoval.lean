import MuduoPlus.ChannelBooks
import MuduoPlus.TcpConnection

namespace MuduoPlus

namespace TcpConnection

variable {α : Type} {s : TcpConnection α} {P : Registration → Prop}

theorem queueWriteComplete_reg : s.queueWriteComplete.reg = s.reg := by
  unfold queueWriteComplete
  split <;> rfl

theorem queueHighWaterMark_reg (oldLen remaining : Nat) :
    (s.queueHighWaterMark oldLen remaining).reg = s.reg := by
  unfold queueHighWaterMark
  split <;> rfl

theorem setDisconnected_reg (hP : Registration.Closed P) (h : P s.reg) : P s.setDisconnected.reg :=
  hP.setEvents _ _ h

theorem handleClose_reg (hP : Registration.Closed P) (h : P s.reg) : P s.handleClose.reg := by
  have hd := setDisconnected_reg hP h
  unfold handleClose
  dsimp only
  split
  · exact hd
  · exact hd

theorem bufferRemaining_reg (hP : Registration.Closed P) (h : P s.reg) (remaining : Bytes) :
    P (s.bufferRemaining remaining).reg := by
  unfold bufferRemaining
  split
  · rw [← queueHighWaterMark_reg s.outputBuffer.readableBytes remaining.length] at h
    dsimp only
    split
    · exact h
    · exact hP.setEvents _ _ h
  · exact h

theorem sendInLoop_reg (hP : Registration.Closed P) (h : P s.reg) (data : Bytes)
    (result : WriteResult) : P (s.sendInLoop data result).reg := by
  unfold sendInLoop
  dsimp only
  split
  · exact h
  · split
    · unfold sendDirect
      cases result with
      | wrote n =>
        dsimp only
        split
        · apply bufferRemaining_reg hP
          rw [queueWriteComplete_reg]
          exact h
        · apply bufferRemaining_reg hP
          exact h
      | error errno =>
        dsimp only
        split
        · exact handleClose_reg hP h
        · apply bufferRemaining_reg hP
          exact h
    · apply bufferRemaining_reg hP
      exact h

theorem shutdownInLoop_reg : s.shutdownInLoop.reg = s.reg := by
  unfold shutdownInLoop
  split <;> rfl

theorem sendFileInLoop_reg (hP : Registration.Closed P) (h : P s.reg) (fd offset : Int) (count : Nat)
    (result : WriteResult) : P (s.sendFileInLoop fd offset count result).reg := by
  unfold sendFileInLoop
  split
  · exact h
  · split
    · exact hP.setEvents _ _ h
    · dsimp only
      split
      · split
        · rw [queueWriteComplete_reg]
          exact h
        · exact hP.setEvents _ _ h
      · exact hP.setEvents _ _ h
      · exact handleClose_reg hP h
      · exact handleClose_reg hP h
      · exact h

theorem continueFile_reg (hP : Registration.Closed P) (h : P s.reg) (result : WriteResult) :
    P (s.continueFile result).1.reg := by
  unfold continueFile
  dsimp only
  split
  · exact h
  · split
    · split
      · dsimp only
        split
        · rw [queueWriteComplete_reg]
          exact h
        · exact h
      · exact hP.setEvents _ _ h
    · exact hP.setEvents _ _ h
    · exact handleClose_reg hP h
    · exact handleClose_reg hP h
    · exact h

theorem flushOutput_reg (hP : Registration.Closed P) (h : P s.reg) (result : WriteResult) :
    P (s.flushOutput result).reg := by
  unfold flushOutput
  split
  · exact h
  · dsimp only
    split
    · split
      · split
        · rw [shutdownInLoop_reg, queueWriteComplete_reg]
          exact hP.setEvents _ _ h
        · rw [queueWriteComplete_reg]
          exact hP.setEvents _ _ h
      · exact h
    · exact h

theorem callFunctor_reg (hP : Registration.Closed P) (h : P s.reg) (f : ConnFunctor)
    (result : WriteResult) : P (s.callFunctor f result).reg := by
  unfold callFunctor
  cases f with
  | sendInLoop data =>
    dsimp only
    split
    · exact sendInLoop_reg hP h data result
    · exact h
  | sendFileInLoop fd offset count =>
    dsimp only
    split
    · exact sendFileInLoop_reg hP h fd offset count result
    · exact h
  | shutdownInLoop =>
    dsimp only
    rw [shutdownInLoop_reg]
    exact h
  | writeCompleteCallback =>
    dsimp only
    split
    · exact h
    · exact h
  | highWaterMarkCallback total => exact h

theorem connectDestroyed_reg (hP : Registration.Closed P) (h : P s.reg) :
    P s.connectDestroyed.reg := by
  unfold connectDestroyed
  dsimp only
  split
  · exact hP.remove _ (setDisconnected_reg hP h)
  · exact hP.remove _ h

theorem send_reg (hP : Registration.Closed P) (h : P s.reg) (caller : Caller) (data : Bytes)
    (result : WriteResult) : P (s.send caller data result).reg := by
  unfold send
  split
  · exact h
  · cases caller with
    | loopThread => exact sendInLoop_reg hP h data result
    | otherThread => exact h

theorem sendBuffer_reg (hP : Registration.Closed P) (h : P s.reg) (caller : Caller) (buf : Buffer)
    (result : WriteResult) : P (s.sendBuffer caller buf result).1.reg := by
  unfold sendBuffer
  split
  · exact h
  · split
    · exact h
    · cases caller with
      | loopThread => exact sendInLoop_reg hP h buf.readable result
      | otherThread => exact h

theorem sendFile_reg (hP : Registration.Closed P) (h : P s.reg) (caller : Caller) (fd offset : Int)
    (count : Nat) (result : WriteResult) : P (s.sendFile caller fd offset count result).reg := by
  unfold sendFile
  split
  · exact h
  · cases caller with
    | loopThread => exact sendFileInLoop_reg hP h fd offset count result
    | otherThread => exact h

theorem shutdown_reg (caller : Caller) : (s.shutdown caller).reg = s.reg := by
  unfold shutdown
  split
  · cases caller with
    | loopThread => exact shutdownInLoop_reg
    | otherThread => rfl
  · rfl

theorem handleWrite_reg (hP : Registration.Closed P) (h : P s.reg) (file output : WriteResult) :
    P (s.handleWrite file output).reg := by
  have hc := continueFile_reg hP h file
  unfold handleWrite
  split
  next heq =>
    rw [heq] at hc
    exact flushOutput_reg hP hc output
  next heq =>
    rw [heq] at hc
    exact hc

theorem applyCall_reg (hP : Registration.Closed P) (h : P s.reg) (call : ConnCall α) :
    P (applyCall call s).reg := by
  cases call with
  | connectEstablished user => exact hP.setEvents _ _ h
  | send caller data result => exact send_reg hP h caller data result
  | sendBuffer caller buf result => exact sendBuffer_reg hP h caller buf result
  | sendFile caller fd offset count result => exact sendFile_reg hP h caller fd offset count result
  | shutdown caller =>
    have he : (applyCall (.shutdown caller) s).reg = s.reg := shutdown_reg caller
    rw [he]
    exact h
  | runFunctor result user =>
    unfold applyCall
    dsimp only
    split
    · exact h
    next f rest _ =>
      have hpop : P { s with pendingFunctors := rest }.reg := h
      exact callFunctor_reg hP hpop f result
  | handleRead result inputBuffer user =>
    unfold applyCall handleRead
    dsimp only
    split
    · exact handleClose_reg hP h
    · exact h
    · exact h
  | handleWrite file output => exact handleWrite_reg hP h file output
  | handleClose => exact handleClose_reg hP h
  | handleError => exact h
  | connectDestroyed => exact connectDestroyed_reg hP h

theorem reachable_tracked (h : (connSystem α).Reachable s) : s.reg.Tracked := by
  apply h.invariant
  · rintro _ ⟨poller, addr, sockfd, high, write, close, user, mark, _, rfl⟩ hn
    exact absurd rfl hn
  · intro call t _ ht
    exact applyCall_reg Registration.closed_tracked ht call

end TcpConnection

namespace Registration

/-- `Acceptor::~Acceptor`. -/
def acceptorDestructor (r : Registration) : Registration := r.disableAll.remove

/-- `EventLoop::~EventLoop`, with `close(wakeupFd_)` taking the descriptor out of the kernel. -/
def eventLoopDestructor (r : Registration) : Registration :=
  let r := r.disableAll.remove
  let kernel := r.poller.kernel
  { r with poller := { r.poller with kernel :=
      ⟨kernel.openFds.erase r.channel.fd, kernel.interest.erase r.channel.fd⟩ } }

/-- The functor of `MQHandler::unregister`, before `delete ch`. -/
def unregisterFunctor (r : Registration) : Registration := r.remove

/-- `channels_` still refers to the channel at `addr`. -/
def Dangling (addr : Nat) (r : Registration) : Prop :=
  ∃ fd, r.poller.channels.lookup fd = some addr

variable {r : Registration}

theorem Tracked.remove_dangling (h : r.Tracked) : Dangling r.channel.addr r.remove :=
  ⟨r.channel.fd, h.remove_lookup⟩

theorem Tracked.disableAll_remove_dangling (h : r.Tracked) :
    Dangling r.channel.addr r.disableAll.remove := by
  have ht : r.disableAll.Tracked := closed_tracked.setEvents _ _ h
  have haddr : r.disableAll.channel.addr = r.channel.addr := setEvents_addr ..
  rw [← haddr]
  exact ht.remove_dangling

theorem closed_addr (addr : Nat) : Closed (fun r => r.channel.addr = addr) where
  setEvents := fun r e h => (setEvents_addr r e).trans h
  remove := fun r h => (EPollPoller.updateChannel_addr r.poller r.channel).trans h

end Registration

namespace TcpConnection

variable {α : Type} {s : TcpConnection α}

theorem connectDestroyed_dangling (h : s.reg.Tracked) :
    Registration.Dangling s.reg.channel.addr s.connectDestroyed.reg := by
  unfold connectDestroyed
  dsimp only
  split
  · exact h.disableAll_remove_dangling
  · exact h.remove_dangling

theorem handleClose_connectDestroyed_dangling (h : s.reg.Tracked) :
    Registration.Dangling s.reg.channel.addr s.handleClose.connectDestroyed.reg := by
  have ht := handleClose_reg Registration.closed_tracked h
  have haddr : s.handleClose.reg.channel.addr = s.reg.channel.addr :=
    handleClose_reg (Registration.closed_addr s.reg.channel.addr) rfl
  rw [← haddr]
  exact connectDestroyed_dangling ht

end TcpConnection

/-- `Channel::remove` never deregisters: after any calls on a channel it is still in
`channels_`, and so is the channel of every connection, acceptor, loop and MQ handler that
is torn down. -/
theorem remove_never_deregisters {α : Type} {s : TcpConnection α}
    (h : (TcpConnection.connSystem α).Reachable s) (poller : EPollPoller) (addr : Nat) (fd : Int)
    (ops : List ChannelOp) :
    let r := Registration.runOps ⟨Channel.new addr fd, poller⟩ ops
    ¬ r.remove.Deregistered ∧
      r.acceptorDestructor.Dangling addr ∧
      r.eventLoopDestructor.Dangling addr ∧
      r.unregisterFunctor.Dangling addr ∧
      s.connectDestroyed.reg.Dangling s.reg.channel.addr ∧
      s.handleClose.connectDestroyed.reg.Dangling s.reg.channel.addr := by
  intro r
  have ht : r.Tracked := Registration.runOps_of_closed Registration.closed_tracked ops (by
    intro hn
    exact absurd rfl hn)
  have haddr : r.channel.addr = addr :=
    Registration.runOps_of_closed (Registration.closed_addr addr) ops rfl
  have hs := TcpConnection.reachable_tracked h
  have hd := ht.disableAll_remove_dangling
  have hr := ht.remove_dangling
  rw [haddr] at hd hr
  exact ⟨ht.not_deregistered, hd, hd, hr, TcpConnection.connectDestroyed_dangling hs,
    TcpConnection.handleClose_connectDestroyed_dangling hs⟩

theorem remove_never_deregisters_reading :
    ¬ (Registration.runOps ⟨Channel.new 1 5, ⟨∅, ⟨{5}, ∅⟩⟩⟩ [.enableReading]).remove.Deregistered := by
  have h0 : (TcpConnection.connSystem Unit).Reachable
      (TcpConnection.new ⟨∅, ⟨{5}, ∅⟩⟩ 1 5 false true true ()) :=
    .init ⟨_, _, _, _, _, _, _, _, by decide, rfl⟩
  exact (remove_never_deregisters h0 ⟨∅, ⟨{5}, ∅⟩⟩ 1 5 [.enableReading]).1

/-- The calls of a closing connection, descriptor open: the removed channel is in
`channels_` and back in the epoll set with an empty mask, so a hang-up still reports it. -/
theorem remove_keeps_disabled_channel :
    let r := Registration.runOps ⟨Channel.new 1 5, ⟨∅, ⟨{5}, ∅⟩⟩⟩ [.enableReading, .disableAll]
    r.remove.poller.hasChannel r.remove.channel = true ∧
      r.remove.poller.kernel.interest.lookup 5 = some ⟨kNoneEvent, 1⟩ := by
  decide

end MuduoPlus
