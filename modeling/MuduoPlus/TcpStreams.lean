import MuduoPlus.HttpTls
import MuduoPlus.TcpNotifications

namespace MuduoPlus

namespace TcpConnection

variable {α : Type} {s : TcpConnection α}

theorem bufferRemaining_state (remaining : Bytes) : (s.bufferRemaining remaining).state = s.state := by
  unfold bufferRemaining
  split
  · dsimp only
    split
    · exact queueHighWaterMark_state _ _
    · exact queueHighWaterMark_state _ _
  · rfl

/-- A send that finds the peer gone has given the kernel nothing. -/
theorem sendInLoop_acceptedBytes_of_closed (hc : s.state = .kConnected) {data : Bytes}
    {result : WriteResult} (hd : (s.sendInLoop data result).state = .kDisconnected) :
    (s.sendInLoop data result).acceptedBytes = s.acceptedBytes := by
  have hup : ∀ {t : TcpConnection α}, t.state = s.state → t.state ≠ .kDisconnected := by
    intro t ht
    rw [ht, hc]
    simp
  unfold sendInLoop at hd ⊢
  dsimp only at hd ⊢
  split at hd
  next hh => exact absurd hh (hup rfl)
  next hopen =>
    split at hd
    next hdirect =>
      rw [if_neg hopen, if_pos hdirect]
      cases result with
      | wrote n =>
        refine absurd hd (hup ?_)
        unfold sendDirect
        dsimp only
        rw [bufferRemaining_state]
        split
        · exact queueWriteComplete_state
        · rfl
      | error errno =>
        rw [sendDirect_error] at hd ⊢
        split at hd
        next hgone =>
          rw [if_pos hgone, (adds_handleClose _).accepted]
          simp [acceptedBytes, log, ConnEvent.taken]
        next => exact absurd hd (hup (bufferRemaining_state _))
    next => exact absurd hd (hup (bufferRemaining_state _))

/-- What a connection was given to send, and that the kernel has none of it out of turn. -/
structure Streams (given : Bytes) (s : TcpConnection α) : Prop where
  output : OutputInv [] s
  passed : s.passedBytes = given
  accepted : s.acceptedBytes <+: given

variable {given : Bytes}

theorem Streams.of_open (h : OutputInv [] s) (ho : s.state ≠ .kDisconnected) :
    Streams s.passedBytes s := by
  have hstream := h.stream ho
  rw [List.append_nil] at hstream
  exact ⟨h, rfl, ⟨s.outputBuffer.readable, hstream⟩⟩

/-- A step that passes nothing, and gives the kernel something only on an open connection. -/
theorem Streams.keep {t : TcpConnection α} (h : Streams given s) (ht : OutputInv [] t)
    (hp : t.passedBytes = s.passedBytes)
    (ha : t.state = .kDisconnected → t.acceptedBytes = s.acceptedBytes) : Streams given t := by
  by_cases hd : t.state = .kDisconnected
  · exact ⟨ht, hp.trans h.passed, by rw [ha hd]; exact h.accepted⟩
  · have ho := Streams.of_open ht hd
    rw [hp, h.passed] at ho
    exact ho

theorem Streams.sendInLoop (h : Streams given s) (hc : s.state = .kConnected) (data : Bytes)
    (result : WriteResult) : Streams (given ++ data) (s.sendInLoop data result) := by
  have ht := h.output.sendInLoop hc data result
  have hp := s.sendInLoop_passedBytes data result
  rw [h.passed] at hp
  by_cases hd : (s.sendInLoop data result).state = .kDisconnected
  · refine ⟨ht, hp, ?_⟩
    rw [sendInLoop_acceptedBytes_of_closed hc hd]
    exact h.accepted.trans (List.prefix_append given data)
  · have ho := Streams.of_open ht hd
    rw [hp] at ho
    exact ho

theorem Streams.handleClose (h : Streams given s) : Streams given s.handleClose := by
  refine h.keep (h.output.handleClose []) handleClose_passedBytes fun _ => ?_
  rw [(adds_handleClose s).accepted, List.append_nil]

theorem Streams.shutdown (h : Streams given s) : Streams given (s.shutdown .loopThread) := by
  refine h.keep (h.output.shutdown .loopThread) shutdown_passedBytes fun _ => ?_
  unfold TcpConnection.shutdown
  split
  · dsimp only
    rw [(adds_shutdownInLoop _).accepted, List.append_nil]
    rfl
  · rfl

/-- The reading side and the user's part do not matter to the stream. -/
theorem Streams.aside (h : Streams given s) (inputBuffer : Buffer) (user : α) :
    Streams given { s with inputBuffer, user } :=
  ⟨{ h.output with }, h.passed, h.accepted⟩

theorem flushOutput_state (s : TcpConnection α) (result : WriteResult) :
    (s.flushOutput result).state = s.state := by
  unfold TcpConnection.flushOutput
  split
  · rfl
  · dsimp only
    split
    · split
      · split
        · exact (shutdownInLoop_state _).trans queueWriteComplete_state
        · exact queueWriteComplete_state
      · rfl
    · rfl

theorem shutdownInLoop_passedBytes (s : TcpConnection α) :
    s.shutdownInLoop.passedBytes = s.passedBytes := by
  unfold TcpConnection.shutdownInLoop
  split
  · rfl
  · rw [passedBytes_log]
    exact List.append_nil _

theorem flushOutput_passedBytes (s : TcpConnection α) (result : WriteResult) :
    (s.flushOutput result).passedBytes = s.passedBytes := by
  have hwrite : ∀ t : TcpConnection α, t.trace = s.trace ++ [.write s.outputBuffer.readable
      result.accepted] → t.passedBytes = s.passedBytes := by
    intro t ht
    simp [passedBytes, ht, ConnEvent.given]
  unfold TcpConnection.flushOutput
  split
  · rfl
  · dsimp only
    split
    · split
      · split
        · rw [shutdownInLoop_passedBytes, passedBytes_congr queueWriteComplete_trace]
          exact hwrite _ rfl
        · rw [passedBytes_congr queueWriteComplete_trace]
          exact hwrite _ rfl
      · exact hwrite _ rfl
    · exact hwrite _ rfl

theorem Streams.handleWrite (h : Streams given s) (file output : WriteResult) :
    Streams given (s.handleWrite file output) := by
  have hf : s.handleWrite file output = s.flushOutput output := by
    simp [TcpConnection.handleWrite, continueFile, h.output.no_file]
  have ht := h.output.handleWrite file output
  rw [hf] at ht ⊢
  refine h.keep ht (flushOutput_passedBytes s output) fun hd => ?_
  rw [flushOutput_state] at hd
  rw [TcpConnection.flushOutput, if_pos (h.output.closed_quiet hd)]

theorem Streams.connectDestroyed (h : Streams given s) : Streams given s.connectDestroyed := by
  have hoff : s.setDisconnected.passedBytes = s.passedBytes := by
    rw [setDisconnected, passedBytes_log]
    exact List.append_nil _
  have hquiet := (adds_setDisconnected s).accepted
  rw [List.append_nil] at hquiet
  refine h.keep h.output.connectDestroyed ?_ fun _ => ?_
  · unfold TcpConnection.connectDestroyed
    dsimp only
    split
    · exact hoff
    · rfl
  · unfold TcpConnection.connectDestroyed
    dsimp only
    split
    · exact hquiet
    · rfl

/-- Neither notification callback is set and nothing is queued. -/
structure Unnotified (s : TcpConnection α) : Prop where
  queue : s.pendingFunctors = []
  writeComplete : s.writeCompleteCallback = false
  highWater : s.highWaterMarkCallback = false

theorem Unnotified.congr {t : TcpConnection α} (h : Unnotified s)
    (ht : (t.pendingFunctors, t.writeCompleteCallback, t.highWaterMarkCallback) =
      (s.pendingFunctors, s.writeCompleteCallback, s.highWaterMarkCallback)) : Unnotified t := by
  obtain ⟨hq, hw, hh⟩ : _ ∧ _ ∧ _ := by simpa only [Prod.mk.injEq] using ht
  exact ⟨hq.trans h.queue, hw.trans h.writeComplete, hh.trans h.highWater⟩

theorem Unnotified.handleClose (h : Unnotified s) : Unnotified s.handleClose := by
  apply h.congr
  unfold TcpConnection.handleClose
  dsimp only
  split <;> rfl

theorem Unnotified.queueWriteComplete (h : Unnotified s) : Unnotified s.queueWriteComplete := by
  rw [TcpConnection.queueWriteComplete, h.writeComplete]
  exact h

theorem Unnotified.bufferRemaining (h : Unnotified s) (remaining : Bytes) :
    Unnotified (s.bufferRemaining remaining) := by
  have hmark : s.queueHighWaterMark s.outputBuffer.readableBytes remaining.length = s := by
    simp [TcpConnection.queueHighWaterMark, h.highWater]
  apply h.congr
  unfold TcpConnection.bufferRemaining
  split
  · rw [hmark]
    dsimp only
    split <;> rfl
  · rfl

theorem Unnotified.log (h : Unnotified s) (e : ConnEvent) : Unnotified (s.log e) := h.congr rfl

theorem Unnotified.shutdownInLoop (h : Unnotified s) : Unnotified s.shutdownInLoop := by
  unfold TcpConnection.shutdownInLoop
  split
  · exact h
  · exact h.log _

theorem Unnotified.sendInLoop (h : Unnotified s) (data : Bytes) (result : WriteResult) :
    Unnotified (s.sendInLoop data result) := by
  have hpassed := h.log (.passed data)
  have hwrite := hpassed.log (.write data result.accepted)
  unfold TcpConnection.sendInLoop
  dsimp only
  split
  · exact hpassed
  · split
    · unfold TcpConnection.sendDirect
      cases result with
      | wrote n =>
        dsimp only
        split
        · exact hwrite.queueWriteComplete.bufferRemaining _
        · exact hwrite.bufferRemaining _
      | error errno =>
        dsimp only
        split
        · exact hwrite.handleClose
        · exact hwrite.bufferRemaining _
    · exact hpassed.bufferRemaining _

theorem Unnotified.shutdown (h : Unnotified s) : Unnotified (s.shutdown .loopThread) := by
  unfold TcpConnection.shutdown
  split
  · exact (h.congr rfl : Unnotified { s with state := .kDisconnecting }).shutdownInLoop
  · exact h

theorem Unnotified.flushOutput (h : Unnotified s) (result : WriteResult) :
    Unnotified (s.flushOutput result) := by
  unfold TcpConnection.flushOutput
  split
  · exact h
  · dsimp only
    split
    · split
      · split
        · refine Unnotified.shutdownInLoop (Unnotified.queueWriteComplete ?_)
          exact h.congr rfl
        · refine Unnotified.queueWriteComplete ?_
          exact h.congr rfl
      · exact h.congr rfl
    · exact h.congr rfl

end TcpConnection

end MuduoPlus
