import MuduoPlus.TcpFileOrder

namespace MuduoPlus

namespace TcpConnection

variable {α : Type} {s : TcpConnection α}

def HalfClosed (s : TcpConnection α) : Prop :=
  ∃ st unsent, ConnEvent.shutdownWrite st unsent ∈ s.trace

/-- With nothing left to send, the socket is not watched for writing any more, and a half-close
that was asked for has been made. -/
def InterestDropped (s : TcpConnection α) : Prop :=
  s.outputBuffer.readable = [] → s.pendingFile.active = false →
    s.isWriting = false ∧ (s.state = .kDisconnecting → s.HalfClosed)

/-- `send`, `sendFile`, `shutdown` and `handleWrite` in the loop's thread, on an established
connection that alone uses `pendingFile_`; the kernel takes a part or would block. -/
def writeSystem (α : Type) : ActionSystem (TcpConnection α) (ConnCall α) where
  init s := ∃ t user, (connSystem α).init t ∧ s = t.connectEstablished fun t => { t with user }
  permitted
    | .send .loopThread data result, _ => result.PartialOf data.length
    | .sendBuffer .loopThread buf result, _ => result.PartialOf buf.readable.length
    | .sendFile .loopThread _ _ count result, _ => result.PartialOf count
    | .shutdown .loopThread, _ => True
    | .handleWrite file output, s => file.PartialOf s.pendingFile.remaining ∧
      output.PartialOf s.outputBuffer.readableBytes
    | .runFunctor _ _, _ => True
    | _, _ => False
  apply := applyCall

/-- `handleWrite` comes to the end of a pending file only with data behind it in the output
buffer. -/
def FileEndsInData : ConnCall α → TcpConnection α → Prop
  | .handleWrite file _, s => s.pendingFile.active = true → s.outputBuffer.readable = [] →
    ∀ n, file = .wrote n → n < s.pendingFile.remaining
  | _, _ => True

/-- The socket is watched for writing only with something to write, and a closing connection
still writes or has been half-closed. -/
structure InterestInv (s : TcpConnection α) : Prop where
  up : s.state = .kConnected ∨ s.state = .kDisconnecting
  fd_nonneg : 0 ≤ s.reg.channel.fd
  callbacks : ∀ f ∈ s.pendingFunctors, f.IsCallback
  buffer_valid : s.outputBuffer.Valid
  busy : s.isWriting = true → s.outputBuffer.readable ≠ [] ∨ s.pendingFile.active = true
  half_closed : s.state = .kDisconnecting → s.isWriting = true ∨ s.HalfClosed

theorem InterestInv.dropped (h : InterestInv s) : s.InterestDropped := by
  intro hempty hidle
  have hoff : s.isWriting = false := by
    by_contra hw
    rcases h.busy (by simpa using hw) with hne | hact
    · exact hne hempty
    · rw [hidle] at hact
      cases hact
  refine ⟨hoff, ?_⟩
  intro hd
  rcases h.half_closed hd with hw | hh
  · rw [hoff] at hw
    cases hw
  · exact hh

theorem InterestInv.log (h : InterestInv s) (e : ConnEvent) : InterestInv (s.log e) := by
  refine ⟨h.up, h.fd_nonneg, h.callbacks, h.buffer_valid, h.busy, ?_⟩
  intro hd
  rcases h.half_closed hd with hw | ⟨st, unsent, hm⟩
  · exact Or.inl hw
  · exact Or.inr ⟨st, unsent, List.mem_append_left _ hm⟩

theorem InterestInv.queueInLoop (h : InterestInv s) {f : ConnFunctor} (hf : f.IsCallback) :
    InterestInv (s.queueInLoop f) := by
  refine ⟨h.up, h.fd_nonneg, ?_, h.buffer_valid, h.busy, h.half_closed⟩
  intro g hg
  rcases List.mem_append.mp hg with hg | hg
  · exact h.callbacks g hg
  · rw [List.mem_singleton.mp hg]
    exact hf

theorem InterestInv.queueWriteComplete (h : InterestInv s) : InterestInv s.queueWriteComplete := by
  unfold TcpConnection.queueWriteComplete
  split
  · exact h.queueInLoop trivial
  · exact h

theorem InterestInv.queueWriteComplete_ite (h : InterestInv s) (c : Prop) [Decidable c] :
    InterestInv (if c then s.queueWriteComplete else s) := by
  by_cases hc : c
  · rw [if_pos hc]
    exact h.queueWriteComplete
  · rw [if_neg hc]
    exact h

theorem InterestInv.queueHighWaterMark (h : InterestInv s) (oldLen remaining : Nat) :
    InterestInv (s.queueHighWaterMark oldLen remaining) := by
  unfold TcpConnection.queueHighWaterMark
  split
  · exact h.queueInLoop trivial
  · exact h

theorem InterestInv.enableWriting (h : InterestInv s)
    (hb : s.outputBuffer.readable ≠ [] ∨ s.pendingFile.active = true) :
    InterestInv s.enableWriting := by
  have hfd : s.enableWriting.reg.channel.fd = s.reg.channel.fd := by
    simp [TcpConnection.enableWriting, Registration.enableWriting]
  have hw : s.enableWriting.isWriting = true := Registration.enableWriting_isWriting h.fd_nonneg
  refine ⟨h.up, ?_, h.callbacks, h.buffer_valid, fun _ => hb, fun _ => Or.inl hw⟩
  rw [hfd]
  exact h.fd_nonneg

theorem InterestInv.append (h : InterestInv s) (data : Bytes) :
    InterestInv { s with outputBuffer := s.outputBuffer.append data } := by
  refine ⟨h.up, h.fd_nonneg, h.callbacks, Buffer.append_valid h.buffer_valid data, ?_, h.half_closed⟩
  intro hw
  rcases h.busy hw with hne | hact
  · refine Or.inl ?_
    rw [Buffer.append_readable h.buffer_valid]
    exact List.append_ne_nil_of_left_ne_nil hne data
  · exact Or.inr hact

theorem InterestInv.bufferRemaining (h : InterestInv s) (remaining : Bytes) :
    InterestInv (s.bufferRemaining remaining) := by
  unfold TcpConnection.bufferRemaining
  split
  next hlen =>
    have hq := h.queueHighWaterMark s.outputBuffer.readableBytes remaining.length
    have hne : remaining ≠ [] := List.ne_nil_of_length_pos hlen
    dsimp only
    split
    next => exact hq.append remaining
    next =>
      refine (hq.append remaining).enableWriting (Or.inl ?_)
      rw [Buffer.append_readable hq.buffer_valid]
      exact List.append_ne_nil_of_right_ne_nil _ hne
  next => exact h

theorem InterestInv.sendInLoop (h : InterestInv s) {data : Bytes} {result : WriteResult}
    (hresult : result.PartialOf data.length) : InterestInv (s.sendInLoop data result) := by
  have hp := h.log (.passed data)
  unfold TcpConnection.sendInLoop
  dsimp only
  split
  next => exact hp
  next =>
    split
    next =>
      have hl := hp.log (.write data result.accepted)
      unfold TcpConnection.sendDirect
      cases result with
      | wrote n =>
        dsimp only
        split
        · exact hl.queueWriteComplete.bufferRemaining _
        · exact hl.bufferRemaining _
      | error errno =>
        cases errno with
        | eWouldBlock => exact hl.bufferRemaining data
        | ePipe => exact hresult.elim
        | eConnReset => exact hresult.elim
        | other code => exact hresult.elim
    next => exact hp.bufferRemaining data

theorem InterestInv.postponeFile (h : InterestInv s) (fd offset : Int) (remaining : Nat) :
    InterestInv (s.postponeFile fd offset remaining) := by
  have hset : InterestInv { s with pendingFile := ⟨fd, offset, remaining, true⟩ } :=
    ⟨h.up, h.fd_nonneg, h.callbacks, h.buffer_valid, fun _ => Or.inr rfl, h.half_closed⟩
  exact hset.enableWriting (Or.inr rfl)

theorem InterestInv.sendFileInLoop (h : InterestInv s) (fd offset : Int) {count : Nat}
    {result : WriteResult} (hresult : result.PartialOf count) :
    InterestInv (s.sendFileInLoop fd offset count result) := by
  unfold TcpConnection.sendFileInLoop
  split
  next => exact h
  next =>
    split
    next => exact h.postponeFile fd offset count
    next =>
      have hl := h.log (.sendfile fd offset count result.accepted)
      cases result with
      | wrote n =>
        dsimp only
        split
        · exact hl.queueWriteComplete
        · exact hl.postponeFile fd (offset + n) (count - n)
      | error errno =>
        cases errno with
        | eWouldBlock => exact hl.postponeFile fd offset count
        | ePipe => exact hresult.elim
        | eConnReset => exact hresult.elim
        | other code => exact hresult.elim

/-- Closing while something is still written leaves the half-close to `handleWrite`. -/
theorem InterestInv.shutdown (h : InterestInv s) : InterestInv (s.shutdown .loopThread) := by
  unfold TcpConnection.shutdown
  split
  next =>
    dsimp only
    unfold TcpConnection.shutdownInLoop
    split
    next hw =>
      exact ⟨Or.inr rfl, h.fd_nonneg, h.callbacks, h.buffer_valid, h.busy, fun _ => Or.inl hw⟩
    next =>
      exact ⟨Or.inr rfl, h.fd_nonneg, h.callbacks, h.buffer_valid, h.busy,
        fun _ => Or.inr ⟨_, _, List.mem_append_right _ List.mem_cons_self⟩⟩
  next => exact h

theorem InterestInv.continueFile (h : InterestInv s) {result : WriteResult}
    (hresult : result.PartialOf s.pendingFile.remaining)
    (hend : s.pendingFile.active = true → s.outputBuffer.readable = [] →
      ∀ n, result = .wrote n → n < s.pendingFile.remaining) :
    InterestInv (s.continueFile result).1 := by
  unfold TcpConnection.continueFile
  dsimp only
  split
  next => exact h
  next hact =>
    have hact : s.pendingFile.active = true := by simpa using hact
    have hl := h.log (.sendfile s.pendingFile.fd s.pendingFile.offset s.pendingFile.remaining
      result.accepted)
    cases result with
    | wrote n =>
      have hlt := fun hempty => hend hact hempty n rfl
      have hgo : InterestInv { s.log (.sendfile s.pendingFile.fd s.pendingFile.offset
          s.pendingFile.remaining n) with pendingFile := ⟨s.pendingFile.fd, s.pendingFile.offset + n,
            s.pendingFile.remaining - n, decide (s.pendingFile.remaining - n ≠ 0)⟩ } := by
        refine ⟨hl.up, hl.fd_nonneg, hl.callbacks, hl.buffer_valid, ?_, hl.half_closed⟩
        intro _
        by_cases hempty : s.outputBuffer.readable = []
        · have := hlt hempty
          exact Or.inr (decide_eq_true (by omega))
        · exact Or.inl hempty
      dsimp only [WriteResult.accepted]
      split
      next => exact hgo.queueWriteComplete_ite _
      next hne => exact hgo.enableWriting (Or.inr (decide_eq_true hne))
    | error errno =>
      cases errno with
      | eWouldBlock => exact hl.enableWriting (Or.inr hact)
      | ePipe => exact hresult.elim
      | eConnReset => exact hresult.elim
      | other code => exact hresult.elim

/-- The interest has just been dropped; the half-close is still to be looked after. -/
structure Quiet (s : TcpConnection α) : Prop where
  up : s.state = .kConnected ∨ s.state = .kDisconnecting
  fd_nonneg : 0 ≤ s.reg.channel.fd
  callbacks : ∀ f ∈ s.pendingFunctors, f.IsCallback
  buffer_valid : s.outputBuffer.Valid
  off : s.isWriting = false

theorem InterestInv.quiet_disableWriting (h : InterestInv s) : Quiet s.disableWriting := by
  have hoff : s.disableWriting.isWriting = false := Registration.disableWriting_isWriting h.fd_nonneg
  have hfd : s.disableWriting.reg.channel.fd = s.reg.channel.fd := by
    simp [TcpConnection.disableWriting, Registration.disableWriting]
  refine ⟨h.up, ?_, h.callbacks, h.buffer_valid, hoff⟩
  rw [hfd]
  exact h.fd_nonneg

theorem Quiet.queueWriteComplete (h : Quiet s) : Quiet s.queueWriteComplete := by
  unfold TcpConnection.queueWriteComplete
  split
  · refine ⟨h.up, h.fd_nonneg, ?_, h.buffer_valid, h.off⟩
    intro g hg
    rcases List.mem_append.mp hg with hg | hg
    · exact h.callbacks g hg
    · rw [List.mem_singleton.mp hg]
      exact trivial
  · exact h

theorem Quiet.interestInv (h : Quiet s) (hd : s.state = .kDisconnecting → s.HalfClosed) :
    InterestInv s := by
  refine ⟨h.up, h.fd_nonneg, h.callbacks, h.buffer_valid, ?_, fun hs => Or.inr (hd hs)⟩
  intro hw
  rw [h.off] at hw
  cases hw

theorem Quiet.shutdownInLoop (h : Quiet s) : InterestInv s.shutdownInLoop := by
  unfold TcpConnection.shutdownInLoop
  rw [if_neg (by simp [h.off])]
  have hq : Quiet (s.log (.shutdownWrite s.state s.outputBuffer.readable)) :=
    ⟨h.up, h.fd_nonneg, h.callbacks, h.buffer_valid, h.off⟩
  exact hq.interestInv fun _ => ⟨_, _, List.mem_append_right _ List.mem_cons_self⟩

/-- The drained buffer is where the interest goes and the half-close is made up for. -/
theorem InterestInv.flushOutput (h : InterestInv s) (result : WriteResult) :
    InterestInv (s.flushOutput result) := by
  unfold TcpConnection.flushOutput
  split
  next => exact h
  next =>
    have hl := h.log (.write s.outputBuffer.readable result.accepted)
    have hv := Buffer.retrieve_valid h.buffer_valid result.accepted
    dsimp only
    split
    next =>
      split
      next =>
        have hq : Quiet (TcpConnection.disableWriting { s with
            trace := s.trace ++ [.write s.outputBuffer.readable result.accepted]
            outputBuffer := s.outputBuffer.retrieve result.accepted }) :=
          ⟨h.up, hl.quiet_disableWriting.fd_nonneg, h.callbacks, hv, hl.quiet_disableWriting.off⟩
        split
        next => exact hq.queueWriteComplete.shutdownInLoop
        next hd => exact hq.queueWriteComplete.interestInv fun hs => absurd hs hd
      next hz =>
        have hne : (s.outputBuffer.retrieve result.accepted).readable ≠ [] := by
          intro hnil
          have hlen := Buffer.length_readable hv
          rw [hnil] at hlen
          exact hz hlen.symm
        exact ⟨hl.up, hl.fd_nonneg, hl.callbacks, hv, fun _ => Or.inl hne, hl.half_closed⟩
    next => exact hl

theorem InterestInv.handleWrite (h : InterestInv s) {file output : WriteResult}
    (hfile : file.PartialOf s.pendingFile.remaining)
    (hend : FileEndsInData (.handleWrite file output) s) :
    InterestInv (s.handleWrite file output) := by
  have hc := h.continueFile hfile hend
  unfold TcpConnection.handleWrite
  split
  next t he =>
    rw [he] at hc
    exact hc.flushOutput output
  next t he =>
    rw [he] at hc
    exact hc

theorem InterestInv.runFunctor (h : InterestInv s) (result : WriteResult) (user : α) :
    InterestInv (applyCall (.runFunctor result user) s) := by
  unfold applyCall
  dsimp only
  split
  next => exact h
  next f rest hp =>
    have hcalls := h.callbacks
    rw [hp] at hcalls
    have hpop : InterestInv { s with pendingFunctors := rest } :=
      ⟨h.up, h.fd_nonneg, fun g hg => hcalls g (List.mem_cons_of_mem f hg), h.buffer_valid, h.busy,
        h.half_closed⟩
    have hcall : InterestInv (callFunctor f result { s with pendingFunctors := rest }) := by
      have hf := hcalls f List.mem_cons_self
      cases f with
      | writeCompleteCallback =>
        unfold callFunctor
        dsimp only
        split
        · exact hpop.log _
        · exact hpop
      | highWaterMarkCallback total => exact hpop.log _
      | sendInLoop data => exact hf.elim
      | sendFileInLoop fd offset count => exact hf.elim
      | shutdownInLoop => exact hf.elim
    exact ⟨hcall.up, hcall.fd_nonneg, hcall.callbacks, hcall.buffer_valid, hcall.busy,
      hcall.half_closed⟩

theorem InterestInv.send (h : InterestInv s) {data : Bytes} {result : WriteResult}
    (hresult : result.PartialOf data.length) : InterestInv (s.send .loopThread data result) := by
  unfold TcpConnection.send
  split
  · exact h
  · exact h.sendInLoop hresult

theorem InterestInv.sendBuffer (h : InterestInv s) {buf : Buffer} {result : WriteResult}
    (hresult : result.PartialOf buf.readable.length) :
    InterestInv (s.sendBuffer .loopThread buf result).1 := by
  unfold TcpConnection.sendBuffer
  split
  · exact h
  · split
    · exact h
    · exact h.sendInLoop hresult

theorem InterestInv.sendFile (h : InterestInv s) (fd offset : Int) {count : Nat}
    {result : WriteResult} (hresult : result.PartialOf count) :
    InterestInv (s.sendFile .loopThread fd offset count result) := by
  unfold TcpConnection.sendFile
  split
  · exact h
  · exact h.sendFileInLoop fd offset hresult

theorem InterestInv.init (h : (writeSystem α).init s) : InterestInv s := by
  obtain ⟨t, user, ⟨poller, addr, sockfd, high, write, close, u, mark, hfd, rfl⟩, rfl⟩ := h
  have hoff : (⟨Channel.new addr sockfd, poller⟩ : Registration).enableReading.channel.isWriting =
      false := by
    rw [Registration.enableReading_isWriting]
    simp [Channel.new, Channel.isWriting, kNoneEvent]
  refine ⟨Or.inl rfl, ?_, ?_, Buffer.new_valid _, ?_, ?_⟩
  · simpa [TcpConnection.connectEstablished, Registration.enableReading, new, Channel.new] using hfd
  · intro f hf
    cases hf
  · intro hw
    exact absurd (hoff.symm.trans hw) (by simp)
  · intro hd
    cases hd

theorem InterestInv.applyCall {call : ConnCall α}
    (hp : ((writeSystem α).restrict FileEndsInData).permitted call s) (h : InterestInv s) :
    InterestInv (applyCall call s) := by
  obtain ⟨hp, hend⟩ := hp
  cases call with
  | send caller data result =>
    cases caller with
    | loopThread => exact h.send hp
    | otherThread => exact hp.elim
  | sendBuffer caller buf result =>
    cases caller with
    | loopThread => exact h.sendBuffer hp
    | otherThread => exact hp.elim
  | sendFile caller fd offset count result =>
    cases caller with
    | loopThread => exact h.sendFile fd offset hp
    | otherThread => exact hp.elim
  | shutdown caller =>
    cases caller with
    | loopThread => exact h.shutdown
    | otherThread => exact hp.elim
  | handleWrite file output => exact h.handleWrite hp.1 hend
  | runFunctor result user => exact h.runFunctor result user
  | connectEstablished user => exact hp.elim
  | handleRead result inputBuffer user => exact hp.elim
  | handleClose => exact hp.elim
  | handleError => exact hp.elim
  | connectDestroyed => exact hp.elim

/-- As long as no file ends over an empty output buffer, `handleWrite` leaves the interest on
only with something to write, and makes the half-close once all is written. -/
theorem interest_dropped_of_fileEndsInData
    (h : ((writeSystem α).restrict FileEndsInData).Reachable s) {file output : WriteResult}
    (hp : ((writeSystem α).restrict FileEndsInData).permitted (.handleWrite file output) s) :
    (s.handleWrite file output).InterestDropped := by
  have hi : InterestInv s :=
    h.invariant (fun _ => InterestInv.init) (fun _ _ hp hi => hi.applyCall hp)
  exact (hi.handleWrite hp.1.1 hp.2).dropped

theorem establishedRun_conn_init : (writeSystem Unit).init establishedRun.conn :=
  ⟨_, (), ⟨_, _, _, _, _, _, _, _, by decide, rfl⟩, rfl⟩

/-- A file in two parts with data sent meanwhile, and a shutdown before all is written. -/
def fileThenData : List (ConnCall Unit) := [
  .sendFile .loopThread 7 0 2 (.wrote 1), .send .loopThread (ascii "d") (.wrote 0),
  .shutdown .loopThread]

theorem interest_dropped_of_fileEndsInData_closing :
    let s := ((writeSystem Unit).run fileThenData establishedRun.conn).handleWrite (.wrote 1) (.wrote 1)
    s.state = .kDisconnecting ∧ s.outputBuffer.readable = [] ∧ s.pendingFile.active = false ∧
      s.InterestDropped := by
  intro s
  have h0 : ((writeSystem Unit).restrict FileEndsInData).Reachable establishedRun.conn :=
    .init establishedRun_conn_init
  have hp : ((writeSystem Unit).restrict FileEndsInData).Permits fileThenData establishedRun.conn := by
    refine ⟨⟨?_, trivial⟩, ⟨?_, trivial⟩, ⟨trivial, trivial⟩, trivial⟩
    all_goals (show (_ : Nat) ≤ _; decide)
  have hbuf : ((writeSystem Unit).run fileThenData establishedRun.conn).outputBuffer.readable =
      ascii "d" := by decide +kernel
  have hlast : ((writeSystem Unit).restrict FileEndsInData).permitted
      (.handleWrite (.wrote 1) (.wrote 1)) ((writeSystem Unit).run fileThenData establishedRun.conn) := by
    refine ⟨⟨?_, ?_⟩, ?_⟩
    · show (_ : Nat) ≤ _
      decide +kernel
    · show (_ : Nat) ≤ _
      decide +kernel
    · intro _ hempty
      rw [hbuf] at hempty
      cases hempty
  have hend : s.state = .kDisconnecting ∧ s.outputBuffer.readable = [] ∧
      s.pendingFile.active = false := by decide +kernel
  exact ⟨hend.1, hend.2.1, hend.2.2, interest_dropped_of_fileEndsInData (h0.run hp) hlast⟩

/-- A file in two parts and a shutdown before the second. -/
def fileThenShutdown : List (ConnCall Unit) := [
  .sendFile .loopThread 7 0 2 (.wrote 1), .shutdown .loopThread]

def fileCutShort : TcpConnection Unit := (writeSystem Unit).run fileThenShutdown establishedRun.conn

/-- The file ends over an empty buffer: the write of nothing returns 0, so the interest stays
on and the half-close is never made. -/
theorem interest_kept_after_file : ∃ s : TcpConnection Unit,
    (writeSystem Unit).Reachable s ∧
      (writeSystem Unit).permitted (.handleWrite (.wrote 1) (.wrote 0)) s ∧
      (s.handleWrite (.wrote 1) (.wrote 0)).isWriting = true ∧
      ¬ (s.handleWrite (.wrote 1) (.wrote 0)).InterestDropped := by
  have h0 : (writeSystem Unit).Reachable establishedRun.conn := .init establishedRun_conn_init
  have hp : (writeSystem Unit).Permits fileThenShutdown establishedRun.conn := by
    refine ⟨?_, trivial, trivial⟩
    show (_ : Nat) ≤ _
    decide
  have hend : let s := fileCutShort.handleWrite (.wrote 1) (.wrote 0)
      s.outputBuffer.readable = [] ∧ s.pendingFile.active = false ∧ s.isWriting = true := by
    decide +kernel
  refine ⟨fileCutShort, h0.run hp, ⟨?_, ?_⟩, hend.2.2, ?_⟩
  · show (_ : Nat) ≤ _
    decide +kernel
  · show (_ : Nat) ≤ _
    decide +kernel
  · intro hd
    have hoff := (hd hend.1 hend.2.1).1
    exact absurd (hoff.symm.trans hend.2.2) (by decide)

end TcpConnection

end MuduoPlus
