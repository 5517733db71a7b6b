import MuduoPlus.BufferGrowth
import MuduoPlus.TcpOutput

namespace MuduoPlus

/-- The length that a high-water notification carries. -/
def ConnFunctor.highWater : ConnFunctor → Option Nat
  | .highWaterMarkCallback total => some total
  | _ => none

namespace TcpConnection

variable {α : Type} {s t u : TcpConnection α} {queued queued' : List ConnFunctor}
  {taken taken' : Bytes}

def outputLength (s : TcpConnection α) : Nat := s.outputBuffer.readableBytes

/-- The step from `s` to `t` gives bytes to the kernel, and then none that `sendInLoop` was given
is outstanding. -/
def HandsLast (s t : TcpConnection α) : Prop :=
  t.acceptedBytes ≠ s.acceptedBytes ∧ t.acceptedBytes = t.passedBytes

instance (s t : TcpConnection α) : Decidable (HandsLast s t) :=
  inferInstanceAs (Decidable (_ ∧ _))

/-- The step from `s` to `t` takes the length of the output buffer across the mark. -/
def Crosses (s t : TcpConnection α) : Prop :=
  s.outputLength < s.highWaterMark ∧ s.highWaterMark ≤ t.outputLength

instance (s t : TcpConnection α) : Decidable (Crosses s t) :=
  inferInstanceAs (Decidable (_ ∧ _))

/-- What a step adds: functors to the queue of the loop and bytes to those the kernel has. The
callbacks and the mark stay as they are. -/
structure Adds (queued : List ConnFunctor) (taken : Bytes) (s t : TcpConnection α) : Prop where
  queue : t.pendingFunctors = s.pendingFunctors ++ queued
  accepted : t.acceptedBytes = s.acceptedBytes ++ taken
  writeComplete : t.writeCompleteCallback = s.writeCompleteCallback
  highWater : t.highWaterMarkCallback = s.highWaterMarkCallback
  mark : t.highWaterMark = s.highWaterMark

theorem Adds.trans (h : Adds queued taken s t) (h' : Adds queued' taken' t u) :
    Adds (queued ++ queued') (taken ++ taken') s u where
  queue := by rw [h'.queue, h.queue, List.append_assoc]
  accepted := by rw [h'.accepted, h.accepted, List.append_assoc]
  writeComplete := h'.writeComplete.trans h.writeComplete
  highWater := h'.highWater.trans h.highWater
  mark := h'.mark.trans h.mark

/-- A change of the state, the buffers or the registration adds nothing. -/
theorem Adds.of_eq (hq : t.pendingFunctors = s.pendingFunctors) (ht : t.trace = s.trace)
    (hw : t.writeCompleteCallback = s.writeCompleteCallback)
    (hh : t.highWaterMarkCallback = s.highWaterMarkCallback)
    (hm : t.highWaterMark = s.highWaterMark) : Adds [] [] s t where
  queue := by rw [hq, List.append_nil]
  accepted := by rw [acceptedBytes, ht, List.append_nil, acceptedBytes]
  writeComplete := hw
  highWater := hh
  mark := hm

theorem Adds.refl (s : TcpConnection α) : Adds [] [] s s := Adds.of_eq rfl rfl rfl rfl rfl

theorem Adds.trans_quiet (h : Adds queued taken s t) (h' : Adds [] [] t u) :
    Adds queued taken s u := by
  simpa using h.trans h'

theorem adds_log (s : TcpConnection α) (e : ConnEvent) : Adds [] e.taken s (s.log e) where
  queue := (List.append_nil _).symm
  accepted := by simp [acceptedBytes, log]
  writeComplete := rfl
  highWater := rfl
  mark := rfl

theorem adds_log_quiet (s : TcpConnection α) {e : ConnEvent} (he : e.taken = []) :
    Adds [] [] s (s.log e) := by
  have h := adds_log s e
  rw [he] at h
  exact h

theorem adds_queueInLoop (s : TcpConnection α) (f : ConnFunctor) :
    Adds [f] [] s (s.queueInLoop f) where
  queue := rfl
  accepted := (List.append_nil _).symm
  writeComplete := rfl
  highWater := rfl
  mark := rfl

theorem adds_queueWriteComplete (h : s.writeCompleteCallback = true) :
    Adds [.writeCompleteCallback] [] s s.queueWriteComplete := by
  rw [queueWriteComplete, if_pos h]
  exact adds_queueInLoop s _

theorem queueWriteComplete_outputLength (s : TcpConnection α) :
    s.queueWriteComplete.outputLength = s.outputLength := by
  unfold queueWriteComplete
  split <;> rfl

theorem adds_setDisconnected (s : TcpConnection α) : Adds [] [] s s.setDisconnected := by
  have hoff : Adds [] [] s { s with state := .kDisconnected, reg := s.reg.disableAll } :=
    Adds.of_eq rfl rfl rfl rfl rfl
  exact hoff.trans_quiet (adds_log_quiet _ rfl)

theorem adds_handleClose (s : TcpConnection α) : Adds [] [] s s.handleClose := by
  unfold handleClose
  dsimp only
  split
  · exact (adds_setDisconnected s).trans_quiet (adds_log_quiet _ rfl)
  · exact adds_setDisconnected s

theorem handleClose_outputLength (s : TcpConnection α) :
    s.handleClose.outputLength = s.outputLength := by
  unfold handleClose
  dsimp only
  split <;> rfl

theorem adds_shutdownInLoop (s : TcpConnection α) : Adds [] [] s s.shutdownInLoop := by
  unfold shutdownInLoop
  split
  · exact Adds.refl s
  · exact adds_log_quiet s rfl

theorem shutdownInLoop_outputLength (s : TcpConnection α) :
    s.shutdownInLoop.outputLength = s.outputLength := by
  unfold shutdownInLoop
  split <;> rfl

/-- The notification for `remaining` bytes that come behind `oldLen` others. -/
def markNotice (mark oldLen remaining : Nat) : List ConnFunctor :=
  if oldLen < mark ∧ mark ≤ oldLen + remaining then [.highWaterMarkCallback (oldLen + remaining)]
  else []

theorem adds_queueHighWaterMark (h : s.highWaterMarkCallback = true) (oldLen remaining : Nat) :
    Adds (markNotice s.highWaterMark oldLen remaining) [] s
      (s.queueHighWaterMark oldLen remaining) := by
  unfold markNotice queueHighWaterMark
  by_cases hc : oldLen < s.highWaterMark ∧ s.highWaterMark ≤ oldLen + remaining
  · rw [if_pos hc, if_pos ⟨hc.2, hc.1, h⟩]
    exact adds_queueInLoop s _
  · rw [if_neg hc, if_neg fun hh => hc ⟨hh.2.1, hh.1⟩]
    exact Adds.refl s

theorem queueHighWaterMark_outputBuffer (s : TcpConnection α) (oldLen remaining : Nat) :
    (s.queueHighWaterMark oldLen remaining).outputBuffer = s.outputBuffer := by
  unfold queueHighWaterMark
  split <;> rfl

/-- What `sendInLoop` could not send at once waits behind the rest of the buffer. -/
structure Buffers (remaining : Bytes) (s t : TcpConnection α) : Prop where
  adds : Adds (markNotice s.highWaterMark s.outputLength remaining.length) [] s t
  length : t.outputLength = s.outputLength + remaining.length
  state : t.state = s.state

theorem bufferRemaining_buffers (hv : s.outputBuffer.Valid) (hh : s.highWaterMarkCallback = true)
    {remaining : Bytes} (hne : remaining ≠ []) :
    Buffers remaining s (s.bufferRemaining remaining) := by
  have hmark := adds_queueHighWaterMark hh s.outputLength remaining.length
  have hbuffer := queueHighWaterMark_outputBuffer s s.outputLength remaining.length
  have hlength := Buffer.readableBytes_append hv remaining
  rw [← hbuffer] at hlength
  have hstate : (s.queueHighWaterMark s.outputLength remaining.length).state = s.state :=
    queueHighWaterMark_state _ _
  unfold bufferRemaining
  rw [if_pos (List.length_pos_iff.mpr hne)]
  dsimp only
  split
  · exact ⟨hmark.trans_quiet (Adds.of_eq rfl rfl rfl rfl rfl), hlength.trans (by rw [hbuffer]; rfl),
      hstate⟩
  · exact ⟨hmark.trans_quiet (Adds.of_eq rfl rfl rfl rfl rfl), hlength.trans (by rw [hbuffer]; rfl),
      hstate⟩

/-- The notifications among the functors queued by the step from `s` to `t` are those it owes.
An empty text is not among them, so no later `sendInLoop` gets one. -/
structure Notifies (queued : List ConnFunctor) (s t : TcpConnection α) : Prop where
  highWater : queued.filterMap ConnFunctor.highWater = if Crosses s t then [t.outputLength] else []
  writeComplete : queued.count .writeCompleteCallback = if HandsLast s t then 1 else 0
  sends : .sendInLoop [] ∉ queued

theorem Adds.not_handsLast (h : Adds queued [] s t) : ¬ HandsLast s t := by
  intro hl
  exact hl.1 (by rw [h.accepted, List.append_nil])

/-- On an open connection nothing is outstanding exactly when the output buffer is empty. -/
theorem Adds.handsLast_iff (h : Adds queued taken s t) (hi : OutputInv [] t)
    (ho : t.state ≠ .kDisconnected) : HandsLast s t ↔ taken ≠ [] ∧ t.outputLength = 0 := by
  have hstream := hi.stream ho
  have hlength : t.outputBuffer.readable.length = t.outputLength :=
    Buffer.length_readable hi.buffer_valid
  rw [List.append_nil] at hstream
  unfold HandsLast
  rw [← hstream, h.accepted, ← hlength, List.length_eq_zero_iff]
  simp

theorem not_crosses (h : t.outputLength ≤ s.outputLength) : ¬ Crosses s t := by
  intro hc
  obtain ⟨hlt, hle⟩ := hc
  omega

/-- A step that gives the kernel nothing and leaves the buffer as long as it was owes nothing. -/
theorem Notifies.quiet (h : Adds queued [] s t) (hl : t.outputLength = s.outputLength)
    (hq : queued = [] ∨ queued = [.shutdownInLoop] ∨
      ∃ data, data ≠ [] ∧ queued = [.sendInLoop data]) :
    Notifies queued s t := by
  have hc : ¬ Crosses s t := not_crosses (Nat.le_of_eq hl)
  have hw := h.not_handsLast
  rcases hq with rfl | rfl | ⟨data, hne, rfl⟩
  · exact ⟨by simp [hc], by simp [hw], by simp⟩
  · exact ⟨by simp [hc, ConnFunctor.highWater], by simp [hw], by simp⟩
  · exact ⟨by simp [hc, ConnFunctor.highWater], by simp [hw], by simpa using hne.symm⟩

/-- The kernel has everything: this is the one step that is told as complete. -/
theorem Notifies.complete (h : Adds [.writeCompleteCallback] taken s t) (hi : OutputInv [] t)
    (ho : t.state ≠ .kDisconnected) (ht : taken ≠ []) (hl : t.outputLength = 0) :
    Notifies [.writeCompleteCallback] s t := by
  have hc : ¬ Crosses s t := not_crosses (by omega)
  have hw : HandsLast s t := (h.handsLast_iff hi ho).mpr ⟨ht, hl⟩
  exact ⟨by simp [hc, ConnFunctor.highWater], by simp [hw], by simp⟩

/-- Something stays in the buffer, and nothing was put into it. -/
theorem Notifies.drained (h : Adds [] taken s t) (hi : OutputInv [] t)
    (ho : t.state ≠ .kDisconnected) (hl : t.outputLength ≤ s.outputLength)
    (hne : t.outputLength ≠ 0) : Notifies [] s t := by
  have hc := not_crosses hl
  have hw : ¬ HandsLast s t := fun hh => hne ((h.handsLast_iff hi ho).mp hh).2
  exact ⟨by simp [hc], by simp [hw], by simp⟩

/-- Something was put into the buffer, behind what the kernel took of the same text. -/
theorem Notifies.buffered {remaining : Bytes} (hne : remaining ≠ [])
    (h : Adds (markNotice s.highWaterMark s.outputLength remaining.length) taken s t)
    (hl : t.outputLength = s.outputLength + remaining.length) (hi : OutputInv [] t)
    (ho : t.state ≠ .kDisconnected) :
    Notifies (markNotice s.highWaterMark s.outputLength remaining.length) s t := by
  have hpos : 0 < remaining.length := List.length_pos_iff.mpr hne
  have hw : ¬ HandsLast s t := by
    intro hh
    have hz := ((h.handsLast_iff hi ho).mp hh).2
    omega
  unfold markNotice
  rw [← hl]
  split
  next hc =>
    have hc : Crosses s t := hc
    exact ⟨by simp [hc, ConnFunctor.highWater], by simp [hw], by simp⟩
  next hc =>
    have hc : ¬ Crosses s t := hc
    exact ⟨by simp [hc], by simp [hw], by simp⟩

/-- Both callbacks are set, and a text that waits to be sent is not empty. -/
structure NotifyInv (s : TcpConnection α) : Prop where
  output : OutputInv [] s
  writeComplete : s.writeCompleteCallback = true
  highWater : s.highWaterMarkCallback = true
  sends : .sendInLoop [] ∉ s.pendingFunctors

/-- The outcome of a step: what it queues behind the queue of `s`. -/
def Steps (s t : TcpConnection α) : Prop :=
  ∃ queued taken, Adds queued taken s t ∧ Notifies queued s t

theorem Steps.quiet (h : Adds [] [] s t) (hl : t.outputLength = s.outputLength) : Steps s t :=
  ⟨[], [], h, Notifies.quiet h hl (Or.inl rfl)⟩

/-- What the first half of `sendInLoop` could not give to the kernel goes into the buffer. -/
theorem Steps.of_buffers {remaining : Bytes} (hne : remaining ≠ []) (h : Adds [] taken s t)
    (hl : t.outputLength = s.outputLength) (hb : Buffers remaining t u) (hi : OutputInv [] u)
    (ho : u.state ≠ .kDisconnected) : Steps s u := by
  have hadds : Adds (markNotice s.highWaterMark s.outputLength remaining.length) taken s u := by
    have hh := h.trans hb.adds
    rw [h.mark, hl] at hh
    simpa using hh
  have hlength := hb.length
  rw [hl] at hlength
  exact ⟨_, _, hadds, Notifies.buffered hne hadds hlength hi ho⟩

theorem sendDirect_all {data : Bytes} {n : Nat} (h : data.length ≤ n) :
    t.sendDirect data (.wrote n) = (t.log (.write data n)).queueWriteComplete := by
  simp [sendDirect, bufferRemaining, WriteResult.accepted, Nat.sub_eq_zero_of_le h]

theorem sendDirect_rest {data : Bytes} {n : Nat} (h : n < data.length) :
    t.sendDirect data (.wrote n) = (t.log (.write data n)).bufferRemaining (data.drop n) := by
  have hne : data.length - n ≠ 0 := by omega
  simp [sendDirect, hne, WriteResult.accepted]

theorem sendDirect_error (data : Bytes) (errno : Errno) :
    t.sendDirect data (.error errno) =
      if errno = .ePipe ∨ errno = .eConnReset then (t.log (.write data 0)).handleClose
      else (t.log (.write data 0)).bufferRemaining data := rfl

/-- The direct send: the kernel takes all of `data`, or what is left waits, or the peer is gone. -/
theorem sendDirect_steps {data : Bytes} {result : WriteResult} (hne : data ≠ [])
    (h : Adds [] [] s t) (hl : t.outputLength = s.outputLength) (hv : t.outputBuffer.Valid)
    (hc : t.state = .kConnected) (hempty : t.outputLength = 0)
    (hwc : t.writeCompleteCallback = true) (hhw : t.highWaterMarkCallback = true)
    (hi : OutputInv [] (t.sendDirect data result)) : Steps s (t.sendDirect data result) := by
  have hwrite : Adds [] (data.take result.accepted) s (t.log (.write data result.accepted)) := by
    have hh := h.trans (adds_log t (.write data result.accepted))
    exact hh
  have hup : ∀ {v : TcpConnection α}, v.state = t.state → v.state ≠ .kDisconnected := by
    intro v hv
    rw [hv, hc]
    simp
  cases result with
  | wrote n =>
    by_cases hall : data.length ≤ n
    · rw [sendDirect_all hall] at hi ⊢
      have hadds : Adds [.writeCompleteCallback] data s
          (t.log (.write data n)).queueWriteComplete := by
        have hh := hwrite.trans (adds_queueWriteComplete hwc)
        simpa [WriteResult.accepted, List.take_of_length_le hall] using hh
      have hlength := (queueWriteComplete_outputLength (t.log (.write data n))).trans hempty
      exact ⟨_, _, hadds, Notifies.complete hadds hi (hup queueWriteComplete_state) hne hlength⟩
    · have hlt : n < data.length := Nat.lt_of_not_le hall
      have hrest : data.drop n ≠ [] := by
        intro hd
        exact hall (List.drop_eq_nil_iff.mp hd)
      rw [sendDirect_rest hlt] at hi ⊢
      have hb := bufferRemaining_buffers (s := t.log (.write data n)) hv hhw hrest
      exact Steps.of_buffers hrest hwrite hl hb hi (hup hb.state)
  | error errno =>
    have hquiet : Adds [] [] s (t.log (.write data 0)) := hwrite
    rw [sendDirect_error] at hi ⊢
    split at hi
    next hgone =>
      rw [if_pos hgone]
      exact Steps.quiet (hquiet.trans_quiet (adds_handleClose _))
        ((handleClose_outputLength _).trans hl)
    next hgone =>
      rw [if_neg hgone]
      have hb := bufferRemaining_buffers (s := t.log (.write data 0)) hv hhw hne
      exact Steps.of_buffers hne hquiet hl hb hi (hup hb.state)

/-- `sendInLoop` on a connection that is up. -/
theorem sendInLoop_steps (h : OutputInv [] s) (hc : s.state = .kConnected)
    (hwc : s.writeCompleteCallback = true) (hhw : s.highWaterMarkCallback = true)
    {data : Bytes} (hne : data ≠ []) (result : WriteResult) :
    Steps s (s.sendInLoop data result) := by
  have hi := h.sendInLoop hc data result
  have hopen : (s.log (.passed data)).state ≠ .kDisconnected := by
    rw [show (s.log (.passed data)).state = s.state from rfl, hc]
    simp
  have hpassed : Adds [] [] s (s.log (.passed data)) := adds_log_quiet s rfl
  unfold TcpConnection.sendInLoop at hi ⊢
  dsimp only at hi ⊢
  rw [if_neg hopen] at hi ⊢
  split at hi
  next hidle =>
    rw [if_pos hidle]
    exact sendDirect_steps hne hpassed rfl h.buffer_valid hc hidle.2 hwc hhw hi
  next hbusy =>
    rw [if_neg hbusy]
    have hb := bufferRemaining_buffers (s := s.log (.passed data)) h.buffer_valid hhw hne
    exact Steps.of_buffers hne hpassed rfl hb hi (by rw [hb.state]; exact hopen)

theorem shutdownInLoop_state (s : TcpConnection α) : s.shutdownInLoop.state = s.state := by
  unfold shutdownInLoop
  split <;> rfl

/-- `s` after the kernel took `n` bytes off the front of the output buffer. -/
def written (n : Nat) (s : TcpConnection α) : TcpConnection α :=
  { s.log (.write s.outputBuffer.readable n) with outputBuffer := s.outputBuffer.retrieve n }

theorem adds_written (n : Nat) (s : TcpConnection α) :
    Adds [] (s.outputBuffer.readable.take n) s (s.written n) :=
  (adds_log s (.write s.outputBuffer.readable n)).trans_quiet (Adds.of_eq rfl rfl rfl rfl rfl)

theorem written_outputLength (hv : s.outputBuffer.Valid) (n : Nat) :
    (s.written n).outputLength = s.outputLength - n := by
  have hl := Buffer.length_readable (Buffer.retrieve_valid hv n)
  rw [Buffer.retrieve_readable hv, List.length_drop, Buffer.length_readable hv] at hl
  exact hl.symm

/-- The end of `handleWrite` when the buffer has run empty. -/
def finishOutput (s : TcpConnection α) : TcpConnection α :=
  let s := s.disableWriting.queueWriteComplete
  if s.state = .kDisconnecting then s.shutdownInLoop else s

theorem flushOutput_eq (hw : s.isWriting = true) (result : WriteResult) :
    s.flushOutput result =
      if 0 < result.accepted then
        if (s.written result.accepted).outputLength = 0 then (s.written result.accepted).finishOutput
        else s.written result.accepted
      else s.log (.write s.outputBuffer.readable result.accepted) := by
  unfold flushOutput
  rw [if_neg (by simp [hw])]
  rfl

/-- The last bytes of the buffer are told as complete, whether the write side is shut down then or
not. -/
theorem finishOutput_adds (hwc : s.writeCompleteCallback = true) :
    Adds [.writeCompleteCallback] [] s s.finishOutput ∧
      s.finishOutput.outputLength = s.outputLength ∧ s.finishOutput.state = s.state := by
  have hoff : Adds [] [] s s.disableWriting := Adds.of_eq rfl rfl rfl rfl rfl
  have hadds := hoff.trans (adds_queueWriteComplete (hoff.writeComplete.trans hwc))
  have hlength := queueWriteComplete_outputLength s.disableWriting
  have hstate := queueWriteComplete_state (s := s.disableWriting)
  unfold finishOutput
  dsimp only
  split
  · exact ⟨hadds.trans_quiet (adds_shutdownInLoop _), (shutdownInLoop_outputLength _).trans hlength,
      (shutdownInLoop_state _).trans hstate⟩
  · exact ⟨hadds, hlength, hstate⟩

theorem flushOutput_steps (h : OutputInv [] s) (hwc : s.writeCompleteCallback = true)
    (result : WriteResult) : Steps s (s.flushOutput result) := by
  cases hw : s.isWriting with
  | false =>
    rw [flushOutput, if_pos hw]
    exact Steps.quiet (Adds.refl s) rfl
  | true =>
    have hi := h.flushOutput result
    have hopen := h.open_of_writing hw
    have hne := (h.writing hopen).mp hw
    have hwritten := adds_written result.accepted s
    rw [flushOutput_eq hw] at hi ⊢
    by_cases hpos : 0 < result.accepted
    · rw [if_pos hpos] at hi ⊢
      by_cases hz : (s.written result.accepted).outputLength = 0
      · rw [if_pos hz] at hi ⊢
        obtain ⟨hfinish, hlength, hstate⟩ := finishOutput_adds (hwritten.writeComplete.trans hwc)
        have hadds := hwritten.trans hfinish
        rw [List.append_nil] at hadds
        have htaken : s.outputBuffer.readable.take result.accepted ≠ [] := by
          intro hnil
          rcases List.take_eq_nil_iff.mp hnil with hzero | hnil
          · omega
          · exact hne hnil
        exact ⟨_, _, hadds, Notifies.complete hadds hi (by rw [hstate]; exact hopen) htaken
          (hlength.trans hz)⟩
      · rw [if_neg hz] at hi ⊢
        have hle : (s.written result.accepted).outputLength ≤ s.outputLength := by
          rw [written_outputLength h.buffer_valid]
          exact Nat.sub_le _ _
        exact ⟨_, _, hwritten, Notifies.drained hwritten hi hopen hle hz⟩
    · rw [if_neg hpos]
      have hzero : result.accepted = 0 := by omega
      rw [hzero]
      exact Steps.quiet (adds_log_quiet s rfl) rfl

theorem handleWrite_steps (h : OutputInv [] s) (hwc : s.writeCompleteCallback = true)
    (file output : WriteResult) : Steps s (s.handleWrite file output) := by
  have hf : s.continueFile file = (s, true) := by
    simp [continueFile, h.no_file]
  unfold TcpConnection.handleWrite
  rw [hf]
  exact flushOutput_steps h hwc output

/-- A text from another thread waits in the queue. -/
theorem Steps.queueInLoop {f : ConnFunctor}
    (hf : f = .shutdownInLoop ∨ ∃ data, data ≠ [] ∧ f = .sendInLoop data) (h : Adds [] [] s t)
    (hl : t.outputLength = s.outputLength) : Steps s (t.queueInLoop f) := by
  have hadds : Adds [f] [] s (t.queueInLoop f) := by
    have hh := h.trans (adds_queueInLoop t f)
    exact hh
  refine ⟨[f], [], hadds, Notifies.quiet hadds hl ?_⟩
  rcases hf with rfl | ⟨data, hne, rfl⟩
  · exact Or.inr (Or.inl rfl)
  · exact Or.inr (Or.inr ⟨data, hne, rfl⟩)

theorem send_steps (h : NotifyInv s) (caller : Caller) {data : Bytes} (hne : data ≠ [])
    (result : WriteResult) : Steps s (s.send caller data result) := by
  unfold TcpConnection.send
  split
  · exact Steps.quiet (Adds.refl s) rfl
  next hc =>
    cases caller with
    | loopThread =>
      exact sendInLoop_steps h.output (not_not.mp hc) h.writeComplete h.highWater hne result
    | otherThread => exact Steps.queueInLoop (Or.inr ⟨data, hne, rfl⟩) (Adds.refl s) rfl

theorem sendBuffer_steps (h : NotifyInv s) (caller : Caller) {buf : Buffer}
    (hne : buf.readable ≠ []) (result : WriteResult) :
    Steps s (s.sendBuffer caller buf result).1 := by
  have hsend := send_steps h caller hne result
  unfold TcpConnection.sendBuffer
  unfold TcpConnection.send at hsend
  split
  · exact Steps.quiet (Adds.refl s) rfl
  · split
    · exact Steps.quiet (Adds.refl s) rfl
    next hc =>
      rw [if_neg hc] at hsend
      cases caller with
      | loopThread => exact hsend
      | otherThread => exact hsend

theorem shutdown_steps (s : TcpConnection α) (caller : Caller) : Steps s (s.shutdown caller) := by
  have hk : Adds [] [] s { s with state := .kDisconnecting } := Adds.of_eq rfl rfl rfl rfl rfl
  unfold TcpConnection.shutdown
  split
  · cases caller with
    | loopThread =>
      exact Steps.quiet (hk.trans_quiet (adds_shutdownInLoop _)) (shutdownInLoop_outputLength _)
    | otherThread => exact Steps.queueInLoop (Or.inl rfl) hk rfl
  · exact Steps.quiet (Adds.refl s) rfl

theorem handleRead_steps (s : TcpConnection α) (result : ReadResult) (inputBuffer : Buffer)
    (user : α) : Steps s (s.handleRead result fun s => { s with inputBuffer, user }) := by
  have hread : Adds [] [] s { s with inputBuffer := s.inputBuffer.readFd result } :=
    Adds.of_eq rfl rfl rfl rfl rfl
  unfold TcpConnection.handleRead
  dsimp only
  split
  · exact Steps.quiet (hread.trans_quiet (adds_handleClose _)) (handleClose_outputLength _)
  · exact Steps.quiet (Adds.of_eq rfl rfl rfl rfl rfl) rfl
  · exact Steps.quiet hread rfl

theorem connectDestroyed_steps (s : TcpConnection α) : Steps s s.connectDestroyed := by
  unfold TcpConnection.connectDestroyed
  dsimp only
  split
  · exact Steps.quiet ((adds_setDisconnected s).trans_quiet (Adds.of_eq rfl rfl rfl rfl rfl)) rfl
  · exact Steps.quiet (Adds.of_eq rfl rfl rfl rfl rfl) rfl

theorem callFunctor_steps (h : NotifyInv s) {f : ConnFunctor} (hf : f ≠ .sendInLoop [])
    (hn : ∀ fd offset count, f ≠ .sendFileInLoop fd offset count) (result : WriteResult) :
    Steps s (s.callFunctor f result) := by
  unfold TcpConnection.callFunctor
  cases f with
  | sendInLoop data =>
    have hne : data ≠ [] := fun hd => hf (by rw [hd])
    dsimp only
    split
    next hc => exact sendInLoop_steps h.output hc h.writeComplete h.highWater hne result
    next => exact Steps.quiet (Adds.refl s) rfl
  | sendFileInLoop fd offset count => exact absurd rfl (hn fd offset count)
  | shutdownInLoop => exact Steps.quiet (adds_shutdownInLoop s) (shutdownInLoop_outputLength s)
  | writeCompleteCallback =>
    dsimp only
    split
    · exact Steps.quiet (adds_log_quiet s rfl) rfl
    · exact Steps.quiet (Adds.refl s) rfl
  | highWaterMarkCallback total => exact Steps.quiet (adds_log_quiet s rfl) rfl

def ConnCall.SendsText : ConnCall α → Prop
  | .send _ data _ => data ≠ []
  | .sendBuffer _ buf _ => buf.readable ≠ []
  | _ => True

/-- The runs without `sendFile` and without empty texts, of a connection with both callbacks. -/
def notifySystem (α : Type) : ActionSystem (TcpConnection α) (ConnCall α) :=
  { (outputSystem α).restrict (fun call _ => call.SendsText) with
    init := fun s => (outputSystem α).init s ∧ s.writeCompleteCallback = true ∧
      s.highWaterMarkCallback = true }

/-- What waits in the queue while a call runs: a functor is taken out of it to be run. -/
def waiting : ConnCall α → TcpConnection α → List ConnFunctor
  | .runFunctor _ _, s => s.pendingFunctors.tail
  | _, s => s.pendingFunctors

theorem NotifyInv.popped (h : NotifyInv s) {f : ConnFunctor} {rest : List ConnFunctor}
    (hq : s.pendingFunctors = f :: rest) : NotifyInv { s with pendingFunctors := rest } where
  output := { h.output with
    no_queued_file := fun fd offset count hm =>
      h.output.no_queued_file fd offset count (by rw [hq]; exact List.mem_cons_of_mem f hm)
    shutdown_queued := fun hm =>
      h.output.shutdown_queued (by rw [hq]; exact List.mem_cons_of_mem f hm) }
  writeComplete := h.writeComplete
  highWater := h.highWater
  sends := fun hm => h.sends (by rw [hq]; exact List.mem_cons_of_mem f hm)

theorem runFunctor_steps (h : NotifyInv s) (result : WriteResult) (user : α) :
    Steps { s with pendingFunctors := s.pendingFunctors.tail }
      (applyCall (.runFunctor result user) s) := by
  unfold applyCall
  dsimp only
  split
  next hq =>
    refine Steps.quiet (Adds.of_eq ?_ rfl rfl rfl rfl) rfl
    rw [hq, List.tail_nil]
  next f rest hq =>
    have hf : f ∈ s.pendingFunctors := by
      rw [hq]
      exact List.mem_cons_self
    obtain ⟨queued, taken, hadds, hnotify⟩ := callFunctor_steps (h.popped hq)
      (fun he => h.sends (he ▸ hf))
      (fun fd offset count he => h.output.no_queued_file fd offset count (he ▸ hf)) result
    rw [hq, List.tail_cons]
    exact ⟨queued, taken, hadds.trans_quiet (Adds.of_eq rfl rfl rfl rfl rfl), hnotify.highWater,
      hnotify.writeComplete, hnotify.sends⟩

/-- Every call, from the state with the functor that it runs taken out of the queue. -/
theorem applyCall_steps {call : ConnCall α} (hp : (notifySystem α).permitted call s)
    (h : NotifyInv s) :
    Steps { s with pendingFunctors := waiting call s } (applyCall call s) := by
  obtain ⟨⟨_, hfile⟩, htext⟩ := hp
  cases call with
  | connectEstablished user => exact Steps.quiet (Adds.of_eq rfl rfl rfl rfl rfl) rfl
  | send caller data result => exact send_steps h caller htext result
  | sendBuffer caller buf result => exact sendBuffer_steps h caller htext result
  | sendFile caller fd offset count result => exact absurd trivial hfile
  | shutdown caller => exact shutdown_steps s caller
  | runFunctor result user => exact runFunctor_steps h result user
  | handleRead result inputBuffer user => exact handleRead_steps s result inputBuffer user
  | handleWrite file output => exact handleWrite_steps h.output h.writeComplete file output
  | handleClose => exact Steps.quiet (adds_handleClose s) (handleClose_outputLength s)
  | handleError => exact Steps.quiet (Adds.refl s) rfl
  | connectDestroyed => exact connectDestroyed_steps s

theorem mem_of_mem_waiting {call : ConnCall α} {f : ConnFunctor} (h : f ∈ waiting call s) :
    f ∈ s.pendingFunctors := by
  cases call with
  | runFunctor result user => exact List.mem_of_mem_tail h
  | _ => exact h

theorem NotifyInv.applyCall {call : ConnCall α} (hp : (notifySystem α).permitted call s)
    (h : NotifyInv s) : NotifyInv (applyCall call s) := by
  obtain ⟨queued, taken, hadds, hnotify⟩ := applyCall_steps hp h
  refine ⟨h.output.applyCall hp.1, hadds.writeComplete.trans h.writeComplete,
    hadds.highWater.trans h.highWater, ?_⟩
  intro hm
  rw [hadds.queue] at hm
  rcases List.mem_append.mp hm with hm | hm
  · exact h.sends (mem_of_mem_waiting hm)
  · exact hnotify.sends hm

theorem NotifyInv.init (h : (notifySystem α).init s) : NotifyInv s := by
  obtain ⟨h0, hwc, hhw⟩ := h
  refine ⟨OutputInv.init h0, hwc, hhw, ?_⟩
  obtain ⟨poller, addr, sockfd, high, write, close, user, mark, hfd, rfl⟩ := h0
  simp [new]

/-- At every call of every run: the high-water notification is queued once, with the new length,
if the call takes the output buffer across the mark, and write-complete once, if it gives the kernel
the last byte that was outstanding; otherwise they are not. -/
theorem notifications_exact {call : ConnCall α} (hr : (notifySystem α).Reachable s)
    (hp : (notifySystem α).permitted call s) :
    let t := applyCall call s
    ∃ queued, t.pendingFunctors = waiting call s ++ queued ∧
      queued.filterMap ConnFunctor.highWater =
        (if s.outputLength < s.highWaterMark ∧ s.highWaterMark ≤ t.outputLength
          then [t.outputLength] else []) ∧
      queued.count .writeCompleteCallback =
        if t.acceptedBytes ≠ s.acceptedBytes ∧ t.acceptedBytes = t.passedBytes then 1 else 0 := by
  have h : NotifyInv s :=
    hr.invariant (fun _ => NotifyInv.init) (fun _ _ => NotifyInv.applyCall)
  obtain ⟨queued, taken, hadds, hnotify⟩ := applyCall_steps hp h
  exact ⟨queued, hadds.queue, hnotify.highWater, hnotify.writeComplete⟩

/-- Three bytes are sent with a mark of two, and the kernel takes the first at once. -/
def partialSend : ConnCall Unit := .send .loopThread (ascii "abc") (.wrote 1)

theorem notifications_exact_partialSend :
    let start := { new ⟨∅, ⟨{5}, ∅⟩⟩ 1 5 true true true () with highWaterMark := 2 }
    let s := (notifySystem Unit).run [.connectEstablished ()] start
    let t := (notifySystem Unit).run [.connectEstablished (), partialSend] start
    (∃ queued, (applyCall partialSend s).pendingFunctors = waiting partialSend s ++ queued ∧
      queued.filterMap ConnFunctor.highWater = [2] ∧ queued.count .writeCompleteCallback = 0) ∧
    (∃ queued, (applyCall (.handleWrite (.wrote 0) (.wrote 2)) t).pendingFunctors =
        t.pendingFunctors ++ queued ∧
      queued.filterMap ConnFunctor.highWater = [] ∧ queued.count .writeCompleteCallback = 1) := by
  intro start s t
  have hstart : (notifySystem Unit).Reachable start :=
    .init ⟨⟨_, _, _, _, _, _, _, _, by decide, rfl⟩, rfl, rfl⟩
  have htext : ascii "abc" ≠ [] := by decide +kernel
  have hsend : (notifySystem Unit).permitted partialSend s := ⟨⟨trivial, id⟩, htext⟩
  have hwrite : (notifySystem Unit).permitted (.handleWrite (.wrote 0) (.wrote 2)) t :=
    ⟨⟨trivial, id⟩, trivial⟩
  have hs : (notifySystem Unit).Reachable s := hstart.run ⟨⟨⟨rfl, id⟩, trivial⟩, trivial⟩
  have ht : (notifySystem Unit).Reachable t := hs.step hsend
  refine ⟨?_, ?_⟩
  · obtain ⟨queued, hq, hhigh, hcomplete⟩ := notifications_exact hs hsend
    refine ⟨queued, hq, hhigh.trans ?_, hcomplete.trans ?_⟩
    · decide +kernel
    · decide +kernel
  · obtain ⟨queued, hq, hhigh, hcomplete⟩ := notifications_exact ht hwrite
    refine ⟨queued, hq, hhigh.trans ?_, hcomplete.trans ?_⟩
    · decide +kernel
    · decide +kernel

end TcpConnection

end MuduoPlus
