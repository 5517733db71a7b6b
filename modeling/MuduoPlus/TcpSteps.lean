import MuduoPlus.TcpConnection

namespace MuduoPlus

/-- The events that end a connection or one direction of it. -/
def ConnEvent.Ends : ConnEvent → Prop
  | .shutdownWrite _ _ => True
  | .disconnected => True
  | .closed => True
  | _ => False

/-- The data of a deferred `send`. -/
def ConnFunctor.deferred : ConnFunctor → Option Bytes
  | .sendInLoop data => some data
  | _ => none

/-- The peer is gone: the errors on which a connection closes itself. -/
def WriteResult.Broken (result : WriteResult) : Prop :=
  result = .error .ePipe ∨ result = .error .eConnReset

namespace TcpConnection

variable {α : Type} {s t u : TcpConnection α}

/-- The data of the deferred calls of `send` that the loop has not run yet. -/
def deferredSends (s : TcpConnection α) : List Bytes :=
  s.pendingFunctors.filterMap ConnFunctor.deferred

/-- What happens while data is only accepted, buffered and written. -/
structure Writes (s t : TcpConnection α) : Prop where
  events : ∃ evs, t.trace = s.trace ++ evs ∧ ∀ e ∈ evs, ¬ e.Ends
  deferred : t.deferredSends = s.deferredSends
  state : t.state = s.state

/-- Writes, and then the connection closes itself. -/
def WritesThenCloses (s t : TcpConnection α) : Prop := ∃ m, Writes s m ∧ t = m.handleClose

/-- Writes, and then a closing connection may shut down its write side. -/
def WritesThenHalfCloses (s t : TcpConnection α) : Prop :=
  ∃ m, Writes s m ∧ (t = m ∨ s.state = .kDisconnecting ∧
    t = m.log (.shutdownWrite m.state m.outputBuffer.readable))

theorem Writes.of_eq (h : t.trace = s.trace) (hf : t.pendingFunctors = s.pendingFunctors)
    (hs : t.state = s.state) : Writes s t := by
  refine ⟨⟨[], by rw [h, List.append_nil], by simp⟩, ?_, hs⟩
  rw [deferredSends, hf, deferredSends]

theorem Writes.refl (s : TcpConnection α) : Writes s s := Writes.of_eq rfl rfl rfl

theorem Writes.trans (h : Writes s t) (h' : Writes t u) : Writes s u := by
  obtain ⟨evs, htrace, hno⟩ := h.events
  obtain ⟨evs', htrace', hno'⟩ := h'.events
  refine ⟨⟨evs ++ evs', ?_, ?_⟩, h'.deferred.trans h.deferred, h'.state.trans h.state⟩
  · rw [htrace', htrace, List.append_assoc]
  · intro e he
    rcases List.mem_append.mp he with he | he
    · exact hno e he
    · exact hno' e he

theorem writes_log (s : TcpConnection α) {e : ConnEvent} (he : ¬ e.Ends) : Writes s (s.log e) := by
  refine ⟨⟨[e], rfl, ?_⟩, rfl, rfl⟩
  intro e' he'
  rw [List.mem_singleton.mp he']
  exact he

theorem writes_queueInLoop (s : TcpConnection α) {f : ConnFunctor} (hf : f.deferred = none) :
    Writes s (s.queueInLoop f) := by
  refine ⟨⟨[], by simp [TcpConnection.queueInLoop], by simp⟩, ?_, rfl⟩
  simp [deferredSends, TcpConnection.queueInLoop, hf]

theorem writes_queueWriteComplete (s : TcpConnection α) : Writes s s.queueWriteComplete := by
  unfold queueWriteComplete
  split
  · exact writes_queueInLoop s rfl
  · exact Writes.refl s

theorem writes_queueWriteComplete_ite (s : TcpConnection α) (c : Prop) [Decidable c] :
    Writes s (if c then s.queueWriteComplete else s) := by
  by_cases hc : c
  · rw [if_pos hc]
    exact writes_queueWriteComplete s
  · rw [if_neg hc]
    exact Writes.refl s

theorem writes_bufferRemaining (s : TcpConnection α) (remaining : Bytes) :
    Writes s (s.bufferRemaining remaining) := by
  have hq : Writes s (s.queueHighWaterMark s.outputBuffer.readableBytes remaining.length) := by
    unfold queueHighWaterMark
    split
    · exact writes_queueInLoop s rfl
    · exact Writes.refl s
  unfold bufferRemaining
  split
  · dsimp only
    split
    · exact hq.trans (Writes.of_eq rfl rfl rfl)
    · exact hq.trans (Writes.of_eq rfl rfl rfl)
  · exact Writes.refl s

theorem writes_postponeFile (s : TcpConnection α) (fd offset : Int) (remaining : Nat) :
    Writes s (s.postponeFile fd offset remaining) := Writes.of_eq rfl rfl rfl

theorem Writes.halfCloses (h : Writes s t) : WritesThenHalfCloses s t := ⟨t, h, Or.inl rfl⟩

theorem WritesThenHalfCloses.of_writes (h : Writes s t) (h' : WritesThenHalfCloses t u) :
    WritesThenHalfCloses s u := by
  obtain ⟨m, hm, hu⟩ := h'
  refine ⟨m, h.trans hm, ?_⟩
  rw [← h.state]
  exact hu

theorem sendDirect_cases (s : TcpConnection α) (data : Bytes) (result : WriteResult) :
    Writes s (s.sendDirect data result) ∨
      result.Broken ∧ WritesThenCloses s (s.sendDirect data result) := by
  have hl : Writes s (s.log (.write data result.accepted)) := writes_log s id
  unfold sendDirect
  cases result with
  | wrote n =>
    refine Or.inl ?_
    exact (hl.trans (writes_queueWriteComplete_ite _ _)).trans (writes_bufferRemaining _ _)
  | error errno =>
    dsimp only
    split
    next he =>
      refine Or.inr ⟨?_, _, hl, rfl⟩
      rcases he with rfl | rfl
      · exact Or.inl rfl
      · exact Or.inr rfl
    next => exact Or.inl (hl.trans (writes_bufferRemaining _ _))

theorem sendInLoop_cases (s : TcpConnection α) (data : Bytes) (result : WriteResult) :
    Writes (s.log (.passed data)) (s.sendInLoop data result) ∨
      result.Broken ∧ WritesThenCloses (s.log (.passed data)) (s.sendInLoop data result) := by
  unfold sendInLoop
  dsimp only
  split
  · exact Or.inl (Writes.refl _)
  · split
    · exact sendDirect_cases _ data result
    · exact Or.inl (writes_bufferRemaining _ _)

theorem sendFileInLoop_cases (s : TcpConnection α) (fd offset : Int) (count : Nat)
    (result : WriteResult) :
    Writes s (s.sendFileInLoop fd offset count result) ∨
      result.Broken ∧ WritesThenCloses s (s.sendFileInLoop fd offset count result) := by
  have hl : Writes s (s.log (.sendfile fd offset count result.accepted)) := writes_log s id
  unfold sendFileInLoop
  split
  · exact Or.inl (Writes.refl s)
  · split
    · exact Or.inl (writes_postponeFile s fd offset count)
    · cases result with
      | wrote n =>
        dsimp only
        split
        · exact Or.inl (hl.trans (writes_queueWriteComplete _))
        · exact Or.inl (hl.trans (writes_postponeFile _ _ _ _))
      | error errno =>
        cases errno with
        | eWouldBlock => exact Or.inl (hl.trans (writes_postponeFile _ _ _ _))
        | ePipe => exact Or.inr ⟨Or.inl rfl, _, hl, rfl⟩
        | eConnReset => exact Or.inr ⟨Or.inr rfl, _, hl, rfl⟩
        | other code => exact Or.inl hl

/-- The pending file is continued, or its receiver is gone and `handleWrite` ends there. -/
theorem continueFile_cases (s : TcpConnection α) (result : WriteResult) :
    Writes s (s.continueFile result).1 ∨
      (s.pendingFile.active = true ∧ result.Broken ∧ (s.continueFile result).2 = false ∧
        WritesThenCloses s (s.continueFile result).1) := by
  have hl : Writes s (s.log (.sendfile s.pendingFile.fd s.pendingFile.offset s.pendingFile.remaining
    result.accepted)) := writes_log s id
  unfold continueFile
  dsimp only
  split
  next => exact Or.inl (Writes.refl s)
  next hact =>
    have hact : s.pendingFile.active = true := by simpa using hact
    cases result with
    | wrote n =>
      refine Or.inl (hl.trans ?_)
      dsimp only
      split
      · refine Writes.trans ?_ (writes_queueWriteComplete_ite _ _)
        exact Writes.of_eq rfl rfl rfl
      · exact Writes.of_eq rfl rfl rfl
    | error errno =>
      cases errno with
      | eWouldBlock =>
        refine Or.inl (hl.trans ?_)
        exact Writes.of_eq rfl rfl rfl
      | ePipe => exact Or.inr ⟨hact, Or.inl rfl, rfl, _, hl, rfl⟩
      | eConnReset => exact Or.inr ⟨hact, Or.inr rfl, rfl, _, hl, rfl⟩
      | other code =>
        refine Or.inl (hl.trans ?_)
        exact Writes.of_eq rfl rfl rfl

theorem shutdownInLoop_cases (h : s.state = .kDisconnecting) :
    WritesThenHalfCloses s s.shutdownInLoop := by
  unfold shutdownInLoop
  split
  · exact (Writes.refl s).halfCloses
  · exact ⟨s, Writes.refl s, Or.inr ⟨h, rfl⟩⟩

theorem flushOutput_cases (s : TcpConnection α) (result : WriteResult) :
    WritesThenHalfCloses s (s.flushOutput result) := by
  have hl : Writes s (s.log (.write s.outputBuffer.readable result.accepted)) := writes_log s id
  unfold flushOutput
  split
  next => exact (Writes.refl s).halfCloses
  next =>
    dsimp only
    split
    next =>
      split
      next =>
        have hoff : Writes s (TcpConnection.disableWriting { s with
            trace := s.trace ++ [.write s.outputBuffer.readable result.accepted]
            outputBuffer := s.outputBuffer.retrieve result.accepted }) := by
          refine hl.trans ?_
          exact Writes.of_eq rfl rfl rfl
        have hq := hoff.trans (writes_queueWriteComplete _)
        split
        next hd => exact WritesThenHalfCloses.of_writes hq (shutdownInLoop_cases hd)
        next => exact hq.halfCloses
      next =>
        refine (hl.trans ?_).halfCloses
        exact Writes.of_eq rfl rfl rfl
    next => exact hl.halfCloses

theorem handleWrite_cases (s : TcpConnection α) (file output : WriteResult) :
    WritesThenHalfCloses s (s.handleWrite file output) ∨
      s.pendingFile.active = true ∧ file.Broken ∧
        WritesThenCloses s (s.handleWrite file output) := by
  have hfile := continueFile_cases s file
  unfold handleWrite
  split
  next t he =>
    rw [he] at hfile
    rcases hfile with hw | ⟨-, -, hfalse, -⟩
    · exact Or.inl (WritesThenHalfCloses.of_writes hw (flushOutput_cases t output))
    · cases hfalse
  next t he =>
    rw [he] at hfile
    rcases hfile with hw | ⟨hact, hbroken, -, hcloses⟩
    · exact Or.inl hw.halfCloses
    · exact Or.inr ⟨hact, hbroken, hcloses⟩

section Growth

theorem Writes.trace_grows (h : Writes s t) : s.trace <+: t.trace := by
  obtain ⟨evs, htrace, -⟩ := h.events
  exact ⟨evs, htrace.symm⟩

theorem handleClose_trace_grows (s : TcpConnection α) : s.trace <+: s.handleClose.trace := by
  unfold handleClose setDisconnected
  dsimp only
  split
  · exact ⟨[.disconnected, .closed], by simp [log]⟩
  · exact ⟨[.disconnected], rfl⟩

theorem WritesThenCloses.trace_grows (h : WritesThenCloses s t) : s.trace <+: t.trace := by
  obtain ⟨m, hm, rfl⟩ := h
  exact hm.trace_grows.trans (handleClose_trace_grows m)

theorem WritesThenHalfCloses.trace_grows (h : WritesThenHalfCloses s t) : s.trace <+: t.trace := by
  obtain ⟨m, hm, rfl | ⟨-, rfl⟩⟩ := h
  · exact hm.trace_grows
  · exact hm.trace_grows.trans (List.prefix_append _ _)

theorem sendInLoop_trace_grows (s : TcpConnection α) (data : Bytes) (result : WriteResult) :
    s.trace <+: (s.sendInLoop data result).trace := by
  have hp : s.trace <+: (s.log (.passed data)).trace := List.prefix_append _ _
  rcases sendInLoop_cases s data result with hw | ⟨-, hw⟩
  · exact hp.trans hw.trace_grows
  · exact hp.trans hw.trace_grows

theorem sendFileInLoop_trace_grows (s : TcpConnection α) (fd offset : Int) (count : Nat)
    (result : WriteResult) : s.trace <+: (s.sendFileInLoop fd offset count result).trace := by
  rcases sendFileInLoop_cases s fd offset count result with hw | ⟨-, hw⟩
  · exact hw.trace_grows
  · exact hw.trace_grows

theorem shutdownInLoop_trace_grows (s : TcpConnection α) : s.trace <+: s.shutdownInLoop.trace := by
  unfold shutdownInLoop
  split
  · exact List.prefix_rfl
  · exact List.prefix_append _ _

theorem callFunctor_trace_grows (s : TcpConnection α) (f : ConnFunctor) (result : WriteResult) :
    s.trace <+: (s.callFunctor f result).trace := by
  unfold callFunctor
  cases f with
  | sendInLoop data =>
    dsimp only
    split
    · exact sendInLoop_trace_grows s data result
    · exact List.prefix_rfl
  | sendFileInLoop fd offset count =>
    dsimp only
    split
    · exact sendFileInLoop_trace_grows s fd offset count result
    · exact List.prefix_rfl
  | shutdownInLoop => exact shutdownInLoop_trace_grows s
  | writeCompleteCallback =>
    dsimp only
    split
    · exact List.prefix_append _ _
    · exact List.prefix_rfl
  | highWaterMarkCallback total => exact List.prefix_append _ _

/-- No call takes an event back. -/
theorem applyCall_trace_grows (call : ConnCall α) (s : TcpConnection α) :
    s.trace <+: (applyCall call s).trace := by
  cases call with
  | connectEstablished user => exact List.prefix_rfl
  | send caller data result =>
    show s.trace <+: (s.send caller data result).trace
    unfold send
    split
    · exact List.prefix_rfl
    · cases caller with
      | loopThread => exact sendInLoop_trace_grows s data result
      | otherThread => exact List.prefix_rfl
  | sendBuffer caller buf result =>
    show s.trace <+: (s.sendBuffer caller buf result).1.trace
    unfold sendBuffer
    split
    · exact List.prefix_rfl
    · split
      · exact List.prefix_rfl
      · cases caller with
        | loopThread => exact sendInLoop_trace_grows s buf.readable result
        | otherThread => exact List.prefix_rfl
  | sendFile caller fd offset count result =>
    show s.trace <+: (s.sendFile caller fd offset count result).trace
    unfold sendFile
    split
    · exact List.prefix_rfl
    · cases caller with
      | loopThread => exact sendFileInLoop_trace_grows s fd offset count result
      | otherThread => exact List.prefix_rfl
  | shutdown caller =>
    show s.trace <+: (s.shutdown caller).trace
    unfold shutdown
    split
    · cases caller with
      | loopThread => exact shutdownInLoop_trace_grows { s with state := .kDisconnecting }
      | otherThread => exact List.prefix_rfl
    · exact List.prefix_rfl
  | runFunctor result user =>
    unfold applyCall
    dsimp only
    split
    · exact List.prefix_rfl
    next f rest _ => exact callFunctor_trace_grows { s with pendingFunctors := rest } f result
  | handleRead result inputBuffer user =>
    unfold applyCall handleRead
    dsimp only
    split
    · exact handleClose_trace_grows { s with inputBuffer := s.inputBuffer.readFd (.data []) }
    · exact List.prefix_rfl
    · exact List.prefix_rfl
  | handleWrite file output =>
    rcases handleWrite_cases s file output with hw | ⟨-, -, hw⟩
    · exact hw.trace_grows
    · exact hw.trace_grows
  | handleClose => exact handleClose_trace_grows s
  | handleError => exact List.prefix_rfl
  | connectDestroyed =>
    show s.trace <+: s.connectDestroyed.trace
    unfold connectDestroyed
    dsimp only
    split
    · exact List.prefix_append _ _
    · exact List.prefix_rfl

end Growth

end TcpConnection

end MuduoPlus
