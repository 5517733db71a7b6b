import MuduoPlus.TcpConnection

namespace MuduoPlus

namespace ConnEvent

/-- The bytes a call of `sendInLoop` was given. -/
def given : ConnEvent → Bytes
  | .passed data => data
  | _ => []

/-- The bytes the kernel took from a write call. -/
def taken : ConnEvent → Bytes
  | .write offered accepted => offered.take accepted
  | _ => []

/-- The calls that hand bytes to the kernel, whatever it answers. -/
def IsWrite : ConnEvent → Prop
  | .write _ _ => True
  | .sendfile _ _ _ _ => True
  | _ => False

/-- After `shutdownWrite` and after `state_` became `kDisconnected` nothing may be written. -/
def Final : ConnEvent → Prop
  | .shutdownWrite _ _ => True
  | .disconnected => True
  | _ => False

end ConnEvent

namespace TcpConnection

variable {α : Type} {s : TcpConnection α} {owed : Bytes}

/-- All data passed to `sendInLoop` so far, in order. -/
def passedBytes (s : TcpConnection α) : Bytes := s.trace.flatMap ConnEvent.given

/-- All bytes accepted by the kernel so far, in order. -/
def acceptedBytes (s : TcpConnection α) : Bytes := s.trace.flatMap ConnEvent.taken

def Closing (s : TcpConnection α) : Prop := s.state = .kDisconnecting ∨ s.state = .kDisconnected

/-- What every step keeps; `owed` are bytes a running `sendInLoop` has neither sent nor
buffered yet. -/
structure OutputInv (owed : Bytes) (s : TcpConnection α) : Prop where
  fd_nonneg : 0 ≤ s.reg.channel.fd
  buffer_valid : s.outputBuffer.Valid
  no_file : s.pendingFile.active = false
  no_queued_file : ∀ fd offset count, .sendFileInLoop fd offset count ∉ s.pendingFunctors
  stream : s.state ≠ .kDisconnected →
    s.acceptedBytes ++ s.outputBuffer.readable ++ owed = s.passedBytes
  writing : s.state ≠ .kDisconnected → (s.isWriting = true ↔ s.outputBuffer.readable ≠ [])
  closed_quiet : s.state = .kDisconnected → s.isWriting = false
  shutdown_queued : .shutdownInLoop ∈ s.pendingFunctors → s.Closing
  final_closing : ∀ e ∈ s.trace, e.Final → s.Closing ∧ s.isWriting = false
  graceful : ∀ st unsent, .shutdownWrite st unsent ∈ s.trace → st ≠ .kDisconnected → unsent = []
  order : s.trace.Pairwise (fun a b => a.Final → ¬ b.IsWrite)

theorem closing_ne_connected (h : s.Closing) : s.state ≠ .kConnected := by
  intro hc
  rcases h with h | h <;> rw [h] at hc <;> cases hc

theorem OutputInv.not_final_of_connected (h : OutputInv owed s) (hc : s.state = .kConnected)
    {e : ConnEvent} (he : e ∈ s.trace) : ¬ e.Final := by
  intro hf
  exact closing_ne_connected (h.final_closing e he hf).1 hc

theorem OutputInv.not_final_of_writing (h : OutputInv owed s) (hw : s.isWriting = true)
    {e : ConnEvent} (he : e ∈ s.trace) : ¬ e.Final := by
  intro hf
  have hq := (h.final_closing e he hf).2
  rw [hw] at hq
  cases hq

theorem OutputInv.open_of_writing (h : OutputInv owed s) (hw : s.isWriting = true) :
    s.state ≠ .kDisconnected := by
  intro hd
  have hq := h.closed_quiet hd
  rw [hw] at hq
  cases hq

theorem pairwise_snoc {trace : List ConnEvent} {e : ConnEvent}
    (h : trace.Pairwise (fun a b => a.Final → ¬ b.IsWrite))
    (he : e.IsWrite → ∀ a ∈ trace, ¬ a.Final) :
    (trace ++ [e]).Pairwise (fun a b => a.Final → ¬ b.IsWrite) := by
  rw [List.pairwise_append]
  refine ⟨h, List.pairwise_singleton _ _, ?_⟩
  intro a ha b hb hf hw
  rw [List.mem_singleton] at hb
  subst hb
  exact he hw a ha hf

/-- One more event: it may end the connection only when closing, and may be a write only
while nothing has ended it. -/
theorem OutputInv.log (h : OutputInv owed s) {e : ConnEvent} {owed' : Bytes}
    (hstream : s.state ≠ .kDisconnected →
      s.acceptedBytes ++ e.taken ++ s.outputBuffer.readable ++ owed' = s.passedBytes ++ e.given)
    (hfinal : e.Final → s.Closing ∧ s.isWriting = false)
    (hwrite : e.IsWrite → ∀ a ∈ s.trace, ¬ a.Final)
    (hgrace : ∀ st unsent, e = .shutdownWrite st unsent → st ≠ .kDisconnected → unsent = []) :
    OutputInv owed' (s.log e) where
  fd_nonneg := h.fd_nonneg
  buffer_valid := h.buffer_valid
  no_file := h.no_file
  no_queued_file := h.no_queued_file
  stream := by
    intro hs
    have hh := hstream hs
    simpa [acceptedBytes, passedBytes, TcpConnection.log] using hh
  writing := h.writing
  closed_quiet := h.closed_quiet
  shutdown_queued := h.shutdown_queued
  final_closing := by
    intro a ha hf
    rcases List.mem_append.mp ha with ha | ha
    · exact h.final_closing a ha hf
    · rw [List.mem_singleton] at ha
      subst ha
      exact hfinal hf
  graceful := by
    intro st unsent hm hst
    rcases List.mem_append.mp hm with hm | hm
    · exact h.graceful st unsent hm hst
    · exact hgrace st unsent (List.mem_singleton.mp hm).symm hst
  order := pairwise_snoc h.order hwrite

/-- Callbacks leave no mark on the stream. -/
theorem OutputInv.log_callback (h : OutputInv owed s) {e : ConnEvent}
    (he : e = .writeComplete ∨ e = .closed ∨ ∃ total, e = .highWaterMark total) :
    OutputInv owed (s.log e) := by
  have hno : e.taken = [] ∧ e.given = [] ∧ ¬ e.Final ∧ ¬ e.IsWrite := by
    rcases he with rfl | rfl | ⟨total, rfl⟩ <;> exact ⟨rfl, rfl, id, id⟩
  obtain ⟨ht, hg, hf, hw⟩ := hno
  apply h.log
  · intro hs
    simpa [ht, hg] using h.stream hs
  · intro hh; exact absurd hh hf
  · intro hh; exact absurd hh hw
  · intro st unsent hh
    subst hh
    exact absurd trivial hf

theorem OutputInv.queueInLoop (h : OutputInv owed s) {f : ConnFunctor}
    (hf : f = .shutdownInLoop → s.Closing) (hn : ∀ fd offset count, f ≠ .sendFileInLoop fd offset count) :
    OutputInv owed (s.queueInLoop f) where
  fd_nonneg := h.fd_nonneg
  buffer_valid := h.buffer_valid
  no_file := h.no_file
  no_queued_file := by
    intro fd offset count hm
    rcases List.mem_append.mp hm with hm | hm
    · exact h.no_queued_file fd offset count hm
    · exact hn fd offset count (List.mem_singleton.mp hm).symm
  stream := h.stream
  writing := h.writing
  closed_quiet := h.closed_quiet
  shutdown_queued := by
    intro hm
    rcases List.mem_append.mp hm with hm | hm
    · exact h.shutdown_queued hm
    · exact hf (List.mem_singleton.mp hm).symm
  final_closing := h.final_closing
  graceful := h.graceful
  order := h.order

theorem OutputInv.queueWriteComplete (h : OutputInv owed s) :
    OutputInv owed s.queueWriteComplete := by
  unfold TcpConnection.queueWriteComplete
  split
  · exact h.queueInLoop (by simp) (by simp)
  · exact h

theorem OutputInv.setDisconnected (h : OutputInv owed s) (owed' : Bytes) :
    OutputInv owed' s.setDisconnected := by
  have hq := Registration.disableAll_isWriting h.fd_nonneg
  have hi : OutputInv owed' { s with state := .kDisconnected, reg := s.reg.disableAll } := {
    fd_nonneg := by simpa [Registration.disableAll] using h.fd_nonneg
    buffer_valid := h.buffer_valid
    no_file := h.no_file
    no_queued_file := h.no_queued_file
    stream := fun hs => absurd rfl hs
    writing := fun hs => absurd rfl hs
    closed_quiet := fun _ => hq
    shutdown_queued := fun _ => Or.inr rfl
    final_closing := fun _ _ _ => ⟨Or.inr rfl, hq⟩
    graceful := h.graceful
    order := h.order }
  apply hi.log
  · intro hs; exact absurd rfl hs
  · intro _; exact ⟨Or.inr rfl, hq⟩
  · intro hw; exact absurd hw id
  · intro st unsent hh; cases hh

theorem OutputInv.handleClose (h : OutputInv owed s) (owed' : Bytes) :
    OutputInv owed' s.handleClose := by
  have hd := h.setDisconnected owed'
  unfold TcpConnection.handleClose
  dsimp only
  split
  · exact hd.log_callback (by simp)
  · exact hd

theorem OutputInv.queueHighWaterMark (h : OutputInv owed s) (oldLen remaining : Nat) :
    OutputInv owed (s.queueHighWaterMark oldLen remaining) := by
  unfold TcpConnection.queueHighWaterMark
  split
  · exact h.queueInLoop (by simp) (by simp)
  · exact h

@[simp] theorem queueHighWaterMark_state (oldLen remaining : Nat) :
    (s.queueHighWaterMark oldLen remaining).state = s.state := by
  unfold TcpConnection.queueHighWaterMark
  split <;> rfl

@[simp] theorem queueWriteComplete_state : s.queueWriteComplete.state = s.state := by
  unfold TcpConnection.queueWriteComplete
  split <;> rfl

/-- The owed bytes go to the end of the output buffer, with write interest on. -/
theorem OutputInv.append_owed (h : OutputInv owed s) (hc : s.state = .kConnected)
    (hne : owed ≠ []) {reg : Registration} (hfd : reg.channel.fd = s.reg.channel.fd)
    (hw : reg.channel.isWriting = true) :
    OutputInv [] { s with outputBuffer := s.outputBuffer.append owed, reg } where
  fd_nonneg := by
    have hh := h.fd_nonneg
    rw [← hfd] at hh
    exact hh
  buffer_valid := Buffer.append_valid h.buffer_valid owed
  no_file := h.no_file
  no_queued_file := h.no_queued_file
  stream := by
    intro hs
    have hh := h.stream hs
    simpa [Buffer.append_readable h.buffer_valid, acceptedBytes, passedBytes] using hh
  writing := by
    intro _
    have hr : (s.outputBuffer.append owed).readable ≠ [] := by
      rw [Buffer.append_readable h.buffer_valid]
      exact List.append_ne_nil_of_right_ne_nil _ hne
    exact ⟨fun _ => hr, fun _ => hw⟩
  closed_quiet := by
    intro hd
    have hd' : s.state = .kDisconnected := hd
    rw [hc] at hd'
    cases hd'
  shutdown_queued := h.shutdown_queued
  final_closing := by
    intro e he hf
    exact absurd hf (h.not_final_of_connected hc he)
  graceful := h.graceful
  order := h.order

theorem OutputInv.bufferRemaining (h : OutputInv owed s) (hc : s.state = .kConnected) :
    OutputInv [] (s.bufferRemaining owed) := by
  unfold TcpConnection.bufferRemaining
  split
  next hlen =>
    have hne : owed ≠ [] := List.ne_nil_of_length_pos hlen
    have hq := h.queueHighWaterMark s.outputBuffer.readableBytes owed.length
    have hqc : (s.queueHighWaterMark s.outputBuffer.readableBytes owed.length).state = .kConnected := by
      simpa using hc
    dsimp only
    split
    next hw => exact hq.append_owed hqc hne rfl hw
    next hw =>
      apply hq.append_owed hqc hne
      · simp [Registration.enableWriting]
      · exact Registration.enableWriting_isWriting hq.fd_nonneg
  next hlen =>
    have he : owed = [] := List.eq_nil_of_length_eq_zero (by omega)
    rw [he] at h
    exact h

theorem OutputInv.sendDirect {data : Bytes} {result : WriteResult} (h : OutputInv data s)
    (hc : s.state = .kConnected) (he : s.outputBuffer.readable = []) :
    OutputInv [] (s.sendDirect data result) := by
  have hlog : OutputInv (data.drop result.accepted) (s.log (.write data result.accepted)) := by
    apply h.log
    · intro hs
      have hh := h.stream hs
      rw [he] at hh ⊢
      simpa [ConnEvent.taken, ConnEvent.given] using hh
    · intro hf; exact absurd hf id
    · intro _ a ha; exact h.not_final_of_connected hc ha
    · intro st unsent hh; cases hh
  unfold TcpConnection.sendDirect
  cases result with
  | wrote n =>
    dsimp only
    split
    · exact hlog.queueWriteComplete.bufferRemaining (queueWriteComplete_state.trans hc)
    · exact hlog.bufferRemaining hc
  | error errno =>
    have hd : OutputInv data (s.log (.write data 0)) := hlog
    dsimp only
    split
    · exact hd.handleClose []
    · exact hd.bufferRemaining hc

theorem OutputInv.sendInLoop (h : OutputInv [] s) (hc : s.state = .kConnected) (data : Bytes)
    (result : WriteResult) : OutputInv [] (s.sendInLoop data result) := by
  have hlog : OutputInv data (s.log (.passed data)) := by
    apply h.log
    · intro hs
      have hh := h.stream hs
      simp only [List.append_nil] at hh
      simp [ConnEvent.taken, ConnEvent.given, hh]
    · intro hf; exact absurd hf id
    · intro hw; exact absurd hw id
    · intro st unsent hh; cases hh
  unfold TcpConnection.sendInLoop
  dsimp only
  split
  next hd => exact absurd (hd.symm.trans hc) (by simp)
  next hd =>
    split
    next hw =>
      apply hlog.sendDirect hc
      apply List.eq_nil_of_length_eq_zero
      rw [Buffer.length_readable hlog.buffer_valid]
      exact hw.2
    next => exact hlog.bufferRemaining hc

theorem OutputInv.shutdownInLoop (h : OutputInv [] s) (hc : s.Closing) :
    OutputInv [] s.shutdownInLoop := by
  unfold TcpConnection.shutdownInLoop
  split
  · exact h
  next hw =>
    have hq : s.isWriting = false := by simpa using hw
    apply h.log
    · intro hs
      simpa [ConnEvent.taken, ConnEvent.given] using h.stream hs
    · intro _; exact ⟨hc, hq⟩
    · intro hh; exact absurd hh id
    · intro st unsent hh hst
      obtain ⟨rfl, rfl⟩ := ConnEvent.shutdownWrite.inj hh
      have hiff := h.writing hst
      rw [hq] at hiff
      simpa using hiff

/-- `n` bytes leave the front of the output buffer for the kernel; write interest stays
on exactly if something is left. -/
theorem OutputInv.flushed (h : OutputInv [] s) (hw : s.isWriting = true) (n : Nat)
    (reg : Registration) (hfd : reg.channel.fd = s.reg.channel.fd)
    (hiff : reg.channel.isWriting = true ↔ (s.outputBuffer.retrieve n).readable ≠ []) :
    OutputInv [] { s with
      trace := s.trace ++ [.write s.outputBuffer.readable n],
      outputBuffer := s.outputBuffer.retrieve n,
      reg } where
  fd_nonneg := by
    have hh := h.fd_nonneg
    rw [← hfd] at hh
    exact hh
  buffer_valid := Buffer.retrieve_valid h.buffer_valid n
  no_file := h.no_file
  no_queued_file := h.no_queued_file
  stream := by
    intro hs
    have hh := h.stream hs
    simpa [Buffer.retrieve_readable h.buffer_valid, acceptedBytes, passedBytes, ConnEvent.taken,
      ConnEvent.given] using hh
  writing := fun _ => hiff
  closed_quiet := fun hd => absurd hd (h.open_of_writing hw)
  shutdown_queued := h.shutdown_queued
  final_closing := by
    intro e he hf
    rcases List.mem_append.mp he with he | he
    · exact absurd hf (h.not_final_of_writing hw he)
    · rw [List.mem_singleton] at he
      subst he
      exact absurd hf id
  graceful := by
    intro st unsent hm hst
    rcases List.mem_append.mp hm with hm | hm
    · exact h.graceful st unsent hm hst
    · cases List.mem_singleton.mp hm
  order := pairwise_snoc h.order (fun _ a ha => h.not_final_of_writing hw ha)

theorem OutputInv.flushOutput (h : OutputInv [] s) (result : WriteResult) :
    OutputInv [] (s.flushOutput result) := by
  unfold TcpConnection.flushOutput
  split
  · exact h
  next hw =>
    have hw : s.isWriting = true := by simpa using hw
    dsimp only
    split
    next hpos =>
      have hv := Buffer.retrieve_valid h.buffer_valid result.accepted
      split
      next hz =>
        have hnil : (s.outputBuffer.retrieve result.accepted).readable = [] := by
          apply List.eq_nil_of_length_eq_zero
          rw [Buffer.length_readable hv]
          exact hz
        have hoff := Registration.disableWriting_isWriting h.fd_nonneg
        have hi := (h.flushed hw result.accepted s.reg.disableWriting
          (by simp [Registration.disableWriting]) (by simp [hoff, hnil])).queueWriteComplete
        split
        next hst => exact hi.shutdownInLoop (Or.inl hst)
        next => exact hi
      next hz =>
        have hne : (s.outputBuffer.retrieve result.accepted).readable ≠ [] := by
          intro hnil
          have hl := Buffer.length_readable hv
          rw [hnil] at hl
          exact hz hl.symm
        exact h.flushed hw result.accepted s.reg rfl ⟨fun _ => hne, fun _ => hw⟩
    next hpos =>
      have hz : result.accepted = 0 := by omega
      apply h.log
      · intro hs
        simpa [hz, ConnEvent.taken, ConnEvent.given] using h.stream hs
      · intro hf; exact absurd hf id
      · intro _ a ha; exact h.not_final_of_writing hw ha
      · intro st unsent hh; cases hh

theorem OutputInv.handleWrite (h : OutputInv [] s) (file output : WriteResult) :
    OutputInv [] (s.handleWrite file output) := by
  have hf : s.continueFile file = (s, true) := by
    simp [continueFile, h.no_file]
  unfold TcpConnection.handleWrite
  rw [hf]
  exact h.flushOutput output

theorem OutputInv.connectDestroyed (h : OutputInv [] s) : OutputInv [] s.connectDestroyed := by
  have hr : ∀ {t : TcpConnection α}, OutputInv [] t → OutputInv [] { t with reg := t.reg.remove } := by
    intro t ht
    exact { ht with
      fd_nonneg := by simpa using ht.fd_nonneg
      writing := by simpa [isWriting] using ht.writing
      closed_quiet := by simpa [isWriting] using ht.closed_quiet
      final_closing := by simpa [isWriting, Closing] using ht.final_closing }
  unfold TcpConnection.connectDestroyed
  dsimp only
  split
  · exact hr (h.setDisconnected [])
  · exact hr h

/-- The runs of a connection in a process that never calls `sendFile`. -/
def outputSystem (α : Type) : ActionSystem (TcpConnection α) (ConnCall α) :=
  (connSystem α).restrict fun call _ => ¬ call.IsSendFile

theorem OutputInv.init (h : (outputSystem α).init s) : OutputInv [] s := by
  obtain ⟨poller, addr, sockfd, high, write, close, user, mark, hfd, rfl⟩ := h
  have hr : (Buffer.new kInitialSize).readable = [] := Buffer.new_readable _
  exact {
    fd_nonneg := hfd
    buffer_valid := Buffer.new_valid _
    no_file := rfl
    no_queued_file := by simp [new]
    stream := by simp [new, acceptedBytes, passedBytes, hr]
    writing := by simp [new, isWriting, Channel.new, Channel.isWriting, kNoneEvent, hr]
    closed_quiet := by simp [new]
    shutdown_queued := by simp [new]
    final_closing := by simp [new]
    graceful := by simp [new]
    order := by simp [new] }

theorem OutputInv.connectEstablished (h : OutputInv [] s) (hk : s.state = .kConnecting) (user : α) :
    OutputInv [] (s.connectEstablished fun s => { s with user }) where
  fd_nonneg := by simpa [TcpConnection.connectEstablished, Registration.enableReading] using h.fd_nonneg
  buffer_valid := h.buffer_valid
  no_file := h.no_file
  no_queued_file := h.no_queued_file
  stream := fun _ => h.stream (by simp [hk])
  writing := by
    intro _
    simpa [TcpConnection.connectEstablished, isWriting] using h.writing (by simp [hk])
  closed_quiet := by simp [TcpConnection.connectEstablished]
  shutdown_queued := by
    intro hm
    rcases h.shutdown_queued hm with hh | hh <;> simp [hk] at hh
  final_closing := by
    intro e he hf
    rcases (h.final_closing e he hf).1 with hh | hh <;> simp [hk] at hh
  graceful := h.graceful
  order := h.order

theorem OutputInv.send (h : OutputInv [] s) (caller : Caller) (data : Bytes) (result : WriteResult) :
    OutputInv [] (s.send caller data result) := by
  unfold TcpConnection.send
  split
  · exact h
  next hc =>
    cases caller with
    | loopThread => exact h.sendInLoop (not_not.mp hc) data result
    | otherThread => exact h.queueInLoop (by simp) (by simp)

theorem OutputInv.sendBuffer (h : OutputInv [] s) (caller : Caller) (buf : Buffer)
    (result : WriteResult) : OutputInv [] (s.sendBuffer caller buf result).1 := by
  unfold TcpConnection.sendBuffer
  split
  · exact h
  · split
    · exact h
    next hc =>
      cases caller with
      | loopThread => exact h.sendInLoop (not_not.mp hc) buf.readable result
      | otherThread => exact h.queueInLoop (by simp) (by simp)

theorem OutputInv.disconnecting (h : OutputInv [] s) (hc : s.state = .kConnected) :
    OutputInv [] { s with state := .kDisconnecting } := { h with
  stream := fun _ => h.stream (by simp [hc])
  writing := fun _ => h.writing (by simp [hc])
  closed_quiet := by simp
  shutdown_queued := fun _ => Or.inl rfl
  final_closing := fun e he hf => absurd hf (h.not_final_of_connected hc he) }

theorem OutputInv.shutdown (h : OutputInv [] s) (caller : Caller) :
    OutputInv [] (s.shutdown caller) := by
  unfold TcpConnection.shutdown
  split
  next hc =>
    have hi := h.disconnecting hc
    cases caller with
    | loopThread => exact hi.shutdownInLoop (Or.inl rfl)
    | otherThread => exact hi.queueInLoop (fun _ => Or.inl rfl) (by simp)
  next => exact h

theorem OutputInv.callFunctor (h : OutputInv [] s) {f : ConnFunctor}
    (hs : f = .shutdownInLoop → s.Closing) (hf : ∀ fd offset count, f ≠ .sendFileInLoop fd offset count)
    (result : WriteResult) : OutputInv [] (s.callFunctor f result) := by
  unfold TcpConnection.callFunctor
  cases f with
  | sendInLoop data =>
    dsimp only
    split
    next hc => exact h.sendInLoop hc data result
    next => exact h
  | sendFileInLoop fd offset count => exact absurd rfl (hf fd offset count)
  | shutdownInLoop => exact h.shutdownInLoop (hs rfl)
  | writeCompleteCallback =>
    dsimp only
    split
    · exact h.log_callback (by simp)
    · exact h
  | highWaterMarkCallback total => exact h.log_callback (by simp)

theorem OutputInv.runFunctor (h : OutputInv [] s) (result : WriteResult) (user : α) :
    OutputInv [] (applyCall (.runFunctor result user) s) := by
  unfold applyCall
  dsimp only
  split
  · exact h
  next f rest hq =>
    have hpop : OutputInv [] { s with pendingFunctors := rest } := { h with
      no_queued_file := fun fd offset count hm =>
        h.no_queued_file fd offset count (by rw [hq]; exact List.mem_cons_of_mem f hm)
      shutdown_queued := fun hm => h.shutdown_queued (by rw [hq]; exact List.mem_cons_of_mem f hm) }
    have hcall := hpop.callFunctor (f := f)
      (fun he => h.shutdown_queued (by rw [hq, he]; exact List.mem_cons_self))
      (fun fd offset count he => h.no_queued_file fd offset count (by
        rw [hq, he]; exact List.mem_cons_self)) result
    exact { hcall with }

theorem OutputInv.handleRead (h : OutputInv [] s) (result : ReadResult) (inputBuffer : Buffer)
    (user : α) :
    OutputInv [] (s.handleRead result fun s => { s with inputBuffer, user }) := by
  have hi : OutputInv [] { s with inputBuffer := s.inputBuffer.readFd result } := { h with }
  unfold TcpConnection.handleRead
  dsimp only
  split
  · exact hi.handleClose []
  · exact { hi with }
  · exact hi

theorem OutputInv.applyCall {call : ConnCall α} (hp : (outputSystem α).permitted call s)
    (h : OutputInv [] s) : OutputInv [] (applyCall call s) := by
  cases call with
  | connectEstablished user => exact h.connectEstablished hp.1 user
  | send caller data result => exact h.send caller data result
  | sendBuffer caller buf result => exact h.sendBuffer caller buf result
  | sendFile caller fd offset count result => exact absurd trivial hp.2
  | shutdown caller => exact h.shutdown caller
  | runFunctor result user => exact h.runFunctor result user
  | handleRead result inputBuffer user => exact h.handleRead result inputBuffer user
  | handleWrite file output => exact h.handleWrite file output
  | handleClose => exact h.handleClose []
  | handleError => exact h
  | connectDestroyed => exact h.connectDestroyed

/-- In every state of every run: no byte is lost, repeated or reordered while the
connection is up, write interest mirrors the output buffer, the write side is shut down
only with an empty buffer, and nothing is written after that or after the disconnect. -/
theorem output_stream_integrity (h : (outputSystem α).Reachable s) :
    (s.state = .kConnected ∨ s.state = .kDisconnecting →
      s.acceptedBytes ++ s.outputBuffer.readable = s.passedBytes ∧
      (s.isWriting = true ↔ s.outputBuffer.readable ≠ [])) ∧
    (∀ st unsent, .shutdownWrite st unsent ∈ s.trace →
      st = .kConnected ∨ st = .kDisconnecting → unsent = []) ∧
    s.trace.Pairwise (fun a b => a.Final → ¬ b.IsWrite) := by
  have hi : OutputInv [] s := h.invariant (fun _ => OutputInv.init) (fun _ _ => OutputInv.applyCall)
  have hup : ∀ {st : StateE}, st = .kConnected ∨ st = .kDisconnecting → st ≠ .kDisconnected := by
    intro st hst hd
    rcases hst with hst | hst <;> rw [hst] at hd <;> cases hd
  refine ⟨?_, ?_, hi.order⟩
  · intro hst
    have hs := hi.stream (hup hst)
    rw [List.append_nil] at hs
    exact ⟨hs, hi.writing (hup hst)⟩
  · intro st unsent hm hst
    exact hi.graceful st unsent hm (hup hst)

/-- A partial direct send, a shutdown from another thread, then the socket drains. -/
def drainingCalls : List (ConnCall Unit) := [
  .connectEstablished (), .send .loopThread (ascii "abc") (.wrote 1), .shutdown .otherThread,
  .runFunctor (.wrote 0) (), .handleWrite (.wrote 0) (.wrote 2)]

theorem output_stream_integrity_draining :
    let start := new ⟨∅, ⟨{5}, ∅⟩⟩ 1 5 false true true ()
    let s := (outputSystem Unit).run drainingCalls start
    s.state = .kDisconnecting ∧
      s.acceptedBytes ++ s.outputBuffer.readable = s.passedBytes ∧
      (s.isWriting = true ↔ s.outputBuffer.readable ≠ []) := by
  intro start s
  have hst : s.state = .kDisconnecting := by decide +kernel
  have h0 : (outputSystem Unit).Reachable start := .init ⟨_, _, _, _, _, _, _, _, by decide, rfl⟩
  have hr : (outputSystem Unit).Reachable s :=
    h0.run ⟨⟨rfl, id⟩, ⟨trivial, id⟩, ⟨trivial, id⟩, ⟨trivial, id⟩, ⟨trivial, id⟩, trivial⟩
  exact ⟨hst, (output_stream_integrity hr).1 (Or.inr hst)⟩

end TcpConnection

end MuduoPlus
