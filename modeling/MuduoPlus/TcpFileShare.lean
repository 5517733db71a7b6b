import Mathlib.Logic.Function.Basic
import MuduoPlus.TcpFileOrder

namespace MuduoPlus

/-- `count` bytes of the file behind `fd`, from `offset` on. -/
structure FileRange where
  fd : Int
  offset : Int
  count : Nat
  deriving DecidableEq, Repr

namespace FileRange

def Within (r a : FileRange) : Prop :=
  r.fd = a.fd ∧ a.offset ≤ r.offset ∧ r.offset + r.count ≤ a.offset + a.count

/-- The range lies inside one of `asked`. -/
def Covered (asked : List FileRange) (r : FileRange) : Prop := ∃ a ∈ asked, r.Within a

variable {r r' : FileRange} {asked : List FileRange}

theorem Covered.of_mem (h : r ∈ asked) : r.Covered asked :=
  ⟨r, h, rfl, Int.le_refl _, Int.le_refl _⟩

theorem Covered.within (h : r.Covered asked) (hr : r'.Within r) : r'.Covered asked := by
  obtain ⟨a, ha, hfd, hlo, hhi⟩ := h
  obtain ⟨hfd', hlo', hhi'⟩ := hr
  exact ⟨a, ha, hfd'.trans hfd, by omega, by omega⟩

theorem Covered.mono {asked' : List FileRange} (h : r.Covered asked) (hs : asked ⊆ asked') :
    r.Covered asked' := by
  obtain ⟨a, ha, hw⟩ := h
  exact ⟨a, hs ha, hw⟩

theorem within_front {fd offset : Int} {count n : Nat} (hn : n ≤ count) :
    Within ⟨fd, offset, n⟩ ⟨fd, offset, count⟩ :=
  ⟨rfl, Int.le_refl _, by dsimp only; omega⟩

theorem within_rest {fd offset : Int} {count n : Nat} (hn : n ≤ count) :
    Within ⟨fd, offset + n, count - n⟩ ⟨fd, offset, count⟩ :=
  ⟨rfl, by dsimp only; omega, by dsimp only; omega⟩

end FileRange

def PendingFile.range (file : PendingFile) : FileRange := ⟨file.fd, file.offset, file.remaining⟩

/-- The file bytes a system call put on the socket. -/
def ConnEvent.fileRead : ConnEvent → Option FileRange
  | .sendfile fd offset _ accepted => some ⟨fd, offset, accepted⟩
  | _ => none

def ConnFunctor.fileRange : ConnFunctor → Option FileRange
  | .sendFileInLoop fd offset count => some ⟨fd, offset, count⟩
  | _ => none

namespace TcpConnection

variable {α : Type} {s t u : TcpConnection α} {asked : List FileRange}

/-- The file bytes on the connection's socket so far. -/
def fileReads (s : TcpConnection α) : List FileRange := s.trace.filterMap ConnEvent.fileRead

/-- The ranges that wait in the loop's queue. -/
def queuedFiles (s : TcpConnection α) : List FileRange :=
  s.pendingFunctors.filterMap ConnFunctor.fileRange

/-- Nothing about files differs. -/
structure FileFrame (s t : TcpConnection α) : Prop where
  pending : t.pendingFile = s.pendingFile
  reads : t.fileReads = s.fileReads
  queued : t.queuedFiles = s.queuedFiles

theorem FileFrame.refl (s : TcpConnection α) : FileFrame s s := ⟨rfl, rfl, rfl⟩

theorem FileFrame.trans (h : FileFrame s t) (h' : FileFrame t u) : FileFrame s u :=
  ⟨h'.pending.trans h.pending, h'.reads.trans h.reads, h'.queued.trans h.queued⟩

theorem FileFrame.log (h : FileFrame s t) {e : ConnEvent} (he : e.fileRead = none) :
    FileFrame s (t.log e) := by
  refine h.trans ⟨rfl, ?_, rfl⟩
  simp [fileReads, TcpConnection.log, he]

theorem FileFrame.queueInLoop (h : FileFrame s t) {f : ConnFunctor} (hf : f.fileRange = none) :
    FileFrame s (t.queueInLoop f) := by
  refine h.trans ⟨rfl, rfl, ?_⟩
  simp [queuedFiles, TcpConnection.queueInLoop, hf]

theorem FileFrame.queueWriteComplete (h : FileFrame s t) : FileFrame s t.queueWriteComplete := by
  unfold TcpConnection.queueWriteComplete
  split
  · exact h.queueInLoop rfl
  · exact h

theorem FileFrame.queueWriteComplete_ite (s : TcpConnection α) (c : Prop) [Decidable c] :
    FileFrame s (if c then s.queueWriteComplete else s) := by
  by_cases hc : c
  · rw [if_pos hc]
    exact (FileFrame.refl s).queueWriteComplete
  · rw [if_neg hc]
    exact .refl s

theorem FileFrame.enableWriting (h : FileFrame s t) : FileFrame s t.enableWriting :=
  h.trans ⟨rfl, rfl, rfl⟩

theorem FileFrame.setDisconnected (h : FileFrame s t) : FileFrame s t.setDisconnected := by
  have hset : FileFrame s { t with state := .kDisconnected, reg := t.reg.disableAll } :=
    h.trans ⟨rfl, rfl, rfl⟩
  exact hset.log rfl

theorem FileFrame.handleClose (h : FileFrame s t) : FileFrame s t.handleClose := by
  unfold TcpConnection.handleClose
  dsimp only
  split
  · exact h.setDisconnected.log rfl
  · exact h.setDisconnected

theorem FileFrame.bufferRemaining (h : FileFrame s t) (remaining : Bytes) :
    FileFrame s (t.bufferRemaining remaining) := by
  unfold TcpConnection.bufferRemaining
  split
  next =>
    have hmark : FileFrame s
        (t.queueHighWaterMark t.outputBuffer.readableBytes remaining.length) := by
      unfold TcpConnection.queueHighWaterMark
      split
      · exact h.queueInLoop rfl
      · exact h
    have happend : FileFrame s { t.queueHighWaterMark t.outputBuffer.readableBytes remaining.length
        with outputBuffer := (t.queueHighWaterMark t.outputBuffer.readableBytes
          remaining.length).outputBuffer.append remaining } := hmark.trans ⟨rfl, rfl, rfl⟩
    dsimp only
    split
    · exact happend
    · exact happend.enableWriting
  next => exact h

theorem FileFrame.sendInLoop (h : FileFrame s t) (data : Bytes) (result : WriteResult) :
    FileFrame s (t.sendInLoop data result) := by
  have hpassed : FileFrame s (t.log (.passed data)) := h.log rfl
  unfold TcpConnection.sendInLoop
  dsimp only
  split
  · exact hpassed
  split
  next =>
    have hwrite : FileFrame s ((t.log (.passed data)).log (.write data result.accepted)) :=
      hpassed.log rfl
    unfold TcpConnection.sendDirect
    cases result with
    | wrote n =>
      dsimp only
      split
      · exact hwrite.queueWriteComplete.bufferRemaining _
      · exact hwrite.bufferRemaining _
    | error errno =>
      dsimp only
      split
      · exact hwrite.handleClose
      · exact hwrite.bufferRemaining _
  next => exact hpassed.bufferRemaining _

theorem FileFrame.shutdownInLoop (h : FileFrame s t) : FileFrame s t.shutdownInLoop := by
  unfold TcpConnection.shutdownInLoop
  split
  · exact h
  · exact h.log rfl

theorem FileFrame.flushOutput (h : FileFrame s t) (result : WriteResult) :
    FileFrame s (t.flushOutput result) := by
  have hwrite : FileFrame s (t.log (.write t.outputBuffer.readable result.accepted)) := h.log rfl
  have hset : ∀ b reg, FileFrame s
      { t.log (.write t.outputBuffer.readable result.accepted) with outputBuffer := b, reg } :=
    fun _ _ => hwrite.trans ⟨rfl, rfl, rfl⟩
  unfold TcpConnection.flushOutput
  split
  · exact h
  dsimp only
  split
  next =>
    split
    next =>
      have hoff := (hset (t.outputBuffer.retrieve result.accepted)
        t.reg.disableWriting).queueWriteComplete
      split
      · exact hoff.shutdownInLoop
      · exact hoff
    next => exact hset _ _
  next => exact hset _ _

/-- The books of one connection: its socket and its queue hold only ranges of `asked`. -/
structure FileBooks (asked : List FileRange) (s : TcpConnection α) : Prop where
  reads : ∀ r ∈ s.fileReads, r.Covered asked
  queued : ∀ r ∈ s.queuedFiles, r.Covered asked

/-- The pending transfer, if any, is one of `asked`. -/
def PendingCovered (asked : List FileRange) (file : PendingFile) : Prop :=
  file.active = true → file.range.Covered asked

theorem FileBooks.frame (h : FileBooks asked s) (hf : FileFrame s t) : FileBooks asked t :=
  ⟨by rw [hf.reads]; exact h.reads, by rw [hf.queued]; exact h.queued⟩

theorem FileBooks.mono {asked' : List FileRange} (h : FileBooks asked s) (hs : asked ⊆ asked') :
    FileBooks asked' s :=
  ⟨fun r hr => (h.reads r hr).mono hs, fun r hr => (h.queued r hr).mono hs⟩

theorem FileBooks.sendfile (h : FileBooks asked s) {fd offset : Int} {count accepted : Nat}
    (hr : FileRange.Covered asked ⟨fd, offset, accepted⟩) :
    FileBooks asked (s.log (.sendfile fd offset count accepted)) := by
  refine ⟨?_, h.queued⟩
  intro r hm
  simp only [fileReads, TcpConnection.log, List.filterMap_append, List.mem_append] at hm
  rcases hm with hm | hm
  · exact h.reads r hm
  · obtain rfl : r = ⟨fd, offset, accepted⟩ := by simpa [ConnEvent.fileRead] using hm
    exact hr

/-- The range goes on later, as `sendFileInLoop` sees it after the system call. -/
def leavesRest (count : Nat) : WriteResult → Bool
  | .wrote n => decide (count - n ≠ 0)
  | .error .eWouldBlock => true
  | .error _ => false

/-- When `sendFileInLoop` leaves a range in `pendingFile_`. -/
def postponesFile (count : Nat) (result : WriteResult) (s : TcpConnection α) : Bool :=
  decide (s.state = .kConnected) &&
    (decide (0 < s.outputBuffer.readableBytes ∨ s.isWriting = true) || leavesRest count result)

theorem FileBooks.postponeFile (h : FileBooks asked s) (fd offset : Int) (count : Nat) :
    FileBooks asked (s.postponeFile fd offset count) :=
  ⟨h.reads, h.queued⟩

theorem FileBooks.sendFileInLoop {fd offset : Int} {count : Nat} {result : WriteResult}
    (h : FileBooks asked s) (hr : FileRange.Covered asked ⟨fd, offset, count⟩)
    (hn : result.accepted ≤ count) : FileBooks asked (s.sendFileInLoop fd offset count result) := by
  have hsent : FileBooks asked (s.log (.sendfile fd offset count result.accepted)) :=
    h.sendfile (hr.within (FileRange.within_front hn))
  unfold TcpConnection.sendFileInLoop
  split
  · exact h
  split
  · exact h.postponeFile _ _ _
  cases result with
  | wrote n =>
    dsimp only
    split
    · exact hsent.frame (FileFrame.refl _).queueWriteComplete
    · exact hsent.postponeFile _ _ _
  | error errno =>
    cases errno with
    | eWouldBlock => exact hsent.postponeFile _ _ _
    | ePipe => exact hsent.frame (FileFrame.refl _).handleClose
    | eConnReset => exact hsent.frame (FileFrame.refl _).handleClose
    | other code => exact hsent

/-- `sendFileInLoop` writes `pendingFile_` exactly when it postpones, and then with a part of
its own range. -/
theorem sendFileInLoop_pendingFile (s : TcpConnection α) (fd offset : Int) {count : Nat}
    {result : WriteResult} (hn : result.accepted ≤ count) :
    (s.postponesFile count result = false →
      (s.sendFileInLoop fd offset count result).pendingFile = s.pendingFile) ∧
    (s.postponesFile count result = true →
      (s.sendFileInLoop fd offset count result).pendingFile.range.Within ⟨fd, offset, count⟩) := by
  unfold TcpConnection.sendFileInLoop postponesFile
  split
  next hc => simp [hc]
  next hc =>
    have hc : s.state = .kConnected := by simpa using hc
    split
    next hw =>
      have hall : FileRange.Within ⟨fd, offset, count⟩ ⟨fd, offset, count⟩ :=
        FileRange.within_front (Nat.le_refl _)
      simp only [hc, hw, decide_true, Bool.true_or, Bool.true_and]
      exact ⟨fun hf => (Bool.noConfusion hf), fun _ => hall⟩
    next hw =>
      simp only [hc, hw, decide_true, decide_false, Bool.false_or, Bool.true_and]
      cases result with
      | wrote n =>
        have hn : n ≤ count := hn
        dsimp only [leavesRest]
        split
        next hz =>
          have hkeep : ((s.log (.sendfile fd offset count n)).queueWriteComplete).pendingFile =
              s.pendingFile := queueWriteComplete_pendingFile
          exact ⟨fun _ => hkeep, fun hl => absurd hz (of_decide_eq_true hl)⟩
        next hz =>
          exact ⟨fun hl => absurd hz (of_decide_eq_false hl), fun _ => FileRange.within_rest hn⟩
      | error errno =>
        cases errno with
        | eWouldBlock =>
          exact ⟨fun hf => (Bool.noConfusion hf),
            fun _ => FileRange.within_front (Nat.le_refl _)⟩
        | ePipe =>
          exact ⟨fun _ => (FileFrame.handleClose (FileFrame.refl _)).pending,
            fun hf => (Bool.noConfusion hf)⟩
        | eConnReset =>
          exact ⟨fun _ => (FileFrame.handleClose (FileFrame.refl _)).pending,
            fun hf => (Bool.noConfusion hf)⟩
        | other code => exact ⟨fun _ => rfl, fun hf => (Bool.noConfusion hf)⟩

/-- What a step that uses `pendingFile_` leaves: a transfer of `asked`, which is new only if
the step postponed it. -/
structure FileUse (asked : List FileRange) (postponed : Bool) (s t : TcpConnection α) : Prop where
  books : FileBooks asked t
  covered : PendingCovered asked t.pendingFile
  active : t.pendingFile.active = true → postponed = true ∨ s.pendingFile.active = true

theorem FileUse.frame {postponed : Bool} (h : FileUse asked postponed s t) (hf : FileFrame t u) :
    FileUse asked postponed s u := by
  refine ⟨h.books.frame hf, ?_, ?_⟩
  · rw [hf.pending]
    exact h.covered
  · rw [hf.pending]
    exact h.active

theorem FileUse.continueFile {file : WriteResult} (h : FileBooks asked s)
    (hp : PendingCovered asked s.pendingFile) (hn : file.accepted ≤ s.pendingFile.remaining) :
    FileUse asked false s (s.continueFile file).1 := by
  unfold TcpConnection.continueFile
  dsimp only
  split
  next => exact ⟨h, hp, Or.inr⟩
  next hact =>
    have hact : s.pendingFile.active = true := by simpa using hact
    have hr := hp hact
    have hsent : FileBooks asked (s.log (.sendfile s.pendingFile.fd s.pendingFile.offset
        s.pendingFile.remaining file.accepted)) := h.sendfile (hr.within (FileRange.within_front hn))
    cases file with
    | wrote n =>
      have hn : n ≤ s.pendingFile.remaining := hn
      have hgo : FileUse asked false s { s.log (.sendfile s.pendingFile.fd s.pendingFile.offset
          s.pendingFile.remaining n) with pendingFile := ⟨s.pendingFile.fd, s.pendingFile.offset + n,
            s.pendingFile.remaining - n, decide (s.pendingFile.remaining - n ≠ 0)⟩ } :=
        ⟨⟨hsent.reads, hsent.queued⟩, fun _ => hr.within (FileRange.within_rest hn),
          fun _ => Or.inr hact⟩
      dsimp only [WriteResult.accepted]
      split
      next => exact hgo.frame (FileFrame.queueWriteComplete_ite _ _)
      next => exact hgo.frame (FileFrame.refl _).enableWriting
    | error errno =>
      have hgo : FileUse asked false s (s.log (.sendfile s.pendingFile.fd s.pendingFile.offset
          s.pendingFile.remaining 0)) := ⟨hsent, hp, Or.inr⟩
      cases errno with
      | eWouldBlock => exact hgo.frame (FileFrame.refl _).enableWriting
      | ePipe => exact hgo.frame (FileFrame.refl _).handleClose
      | eConnReset => exact hgo.frame (FileFrame.refl _).handleClose
      | other code =>
        refine ⟨⟨hsent.reads, hsent.queued⟩, ?_, ?_⟩
        · intro hf
          cases hf
        · intro hf
          cases hf

theorem FileUse.handleWrite {file : WriteResult} (output : WriteResult) (h : FileBooks asked s)
    (hp : PendingCovered asked s.pendingFile) (hn : file.accepted ≤ s.pendingFile.remaining) :
    FileUse asked false s (s.handleWrite file output) := by
  have hfile := FileUse.continueFile h hp hn
  unfold TcpConnection.handleWrite
  split
  next t he =>
    rw [he] at hfile
    exact hfile.frame ((FileFrame.refl t).flushOutput output)
  next t he =>
    rw [he] at hfile
    exact hfile

/-- The `sendFileInLoop` a call runs, if it runs one. -/
def ConnCall.fileInLoop : ConnCall α → TcpConnection α → Option (FileRange × WriteResult)
  | .sendFile .loopThread fd offset count result, _ => some (⟨fd, offset, count⟩, result)
  | .runFunctor result _, s =>
    match s.pendingFunctors with
    | .sendFileInLoop fd offset count :: _ => some (⟨fd, offset, count⟩, result)
    | _ => none
  | _, _ => none

/-- The range a call asks for. -/
def ConnCall.fileAsked : ConnCall α → List FileRange
  | .sendFile _ fd offset count _ => [⟨fd, offset, count⟩]
  | _ => []

/-- The calls that read or write `pendingFile_`. -/
def ConnCall.UsesFile (call : ConnCall α) (s : TcpConnection α) : Prop :=
  match call with
  | .handleWrite _ _ => True
  | _ => (call.fileInLoop s).isSome = true

theorem FileFrame.callFunctor (h : FileFrame s t) {f : ConnFunctor} (hf : f.fileRange = none)
    (result : WriteResult) : FileFrame s (callFunctor f result t) := by
  unfold TcpConnection.callFunctor
  cases f with
  | sendInLoop data =>
    dsimp only
    split
    · exact h.sendInLoop data result
    · exact h
  | sendFileInLoop fd offset count => cases hf
  | shutdownInLoop => exact h.shutdownInLoop
  | writeCompleteCallback =>
    dsimp only
    split
    · exact h.log rfl
    · exact h
  | highWaterMarkCallback total => exact h.log rfl

theorem FileFrame.send (h : FileFrame s t) (caller : Caller) (data : Bytes) (result : WriteResult) :
    FileFrame s (t.send caller data result) := by
  unfold TcpConnection.send
  split
  · exact h
  cases caller with
  | loopThread => exact h.sendInLoop data result
  | otherThread => exact h.queueInLoop rfl

theorem FileFrame.sendBuffer (h : FileFrame s t) (caller : Caller) (buf : Buffer)
    (result : WriteResult) : FileFrame s (t.sendBuffer caller buf result).1 := by
  unfold TcpConnection.sendBuffer
  split
  · exact h
  split
  · exact h
  cases caller with
  | loopThread => exact h.sendInLoop _ result
  | otherThread => exact h.queueInLoop rfl

theorem FileFrame.shutdown (h : FileFrame s t) (caller : Caller) :
    FileFrame s (t.shutdown caller) := by
  have hset : FileFrame s { t with state := .kDisconnecting } := h.trans ⟨rfl, rfl, rfl⟩
  unfold TcpConnection.shutdown
  split
  · cases caller with
    | loopThread => exact hset.shutdownInLoop
    | otherThread => exact hset.queueInLoop rfl
  · exact h

theorem FileFrame.connectDestroyed (h : FileFrame s t) : FileFrame s t.connectDestroyed := by
  unfold TcpConnection.connectDestroyed
  dsimp only
  split
  · exact h.setDisconnected.trans ⟨rfl, rfl, rfl⟩
  · exact h.trans ⟨rfl, rfl, rfl⟩

theorem fileFrame_handleRead (result : ReadResult) (inputBuffer : Buffer) (user : α) :
    FileFrame s (applyCall (.handleRead result inputBuffer user) s) := by
  have hread : FileFrame s { s with inputBuffer := s.inputBuffer.readFd result } := ⟨rfl, rfl, rfl⟩
  unfold applyCall TcpConnection.handleRead
  dsimp only
  split
  · exact hread.handleClose
  · exact ⟨rfl, rfl, rfl⟩
  · exact hread

/-- The oldest functor, when it sends no file. -/
theorem fileFrame_runFunctor (result : WriteResult) (user : α)
    (hu : ¬ (ConnCall.runFunctor result user).UsesFile s) :
    FileFrame s (applyCall (.runFunctor result user) s) := by
  unfold applyCall
  dsimp only
  split
  next => exact .refl s
  next f rest hp =>
    have hf : f.fileRange = none := by
      cases f with
      | sendFileInLoop fd offset count =>
        exact absurd (by simp [ConnCall.UsesFile, ConnCall.fileInLoop, hp]) hu
      | _ => rfl
    have hpop : FileFrame s { s with pendingFunctors := rest } :=
      ⟨rfl, rfl, by simp [queuedFiles, hp, hf]⟩
    exact (hpop.callFunctor hf result).trans ⟨rfl, rfl, rfl⟩

/-- `sendFile` of another thread puts its range into the queue. -/
theorem FileBooks.sendFile_otherThread (hb : FileBooks asked s) {fd offset : Int} {count : Nat}
    (ha : ⟨fd, offset, count⟩ ∈ asked) (result : WriteResult) :
    (s.sendFile .otherThread fd offset count result).pendingFile = s.pendingFile ∧
      FileBooks asked (s.sendFile .otherThread fd offset count result) := by
  unfold TcpConnection.sendFile
  dsimp only
  split
  · exact ⟨rfl, hb⟩
  refine ⟨rfl, hb.reads, ?_⟩
  intro r hr
  have hr' : r ∈ s.queuedFiles ∨ r = ⟨fd, offset, count⟩ := by
    simpa [queuedFiles, TcpConnection.queueInLoop, ConnFunctor.fileRange] using hr
  rcases hr' with hr' | rfl
  · exact hb.queued r hr'
  · exact .of_mem ha

/-- A call that does not use `pendingFile_` leaves everything about files alone, but for a
range it puts into the queue. -/
theorem applyCall_frame {call : ConnCall α} (hu : ¬ call.UsesFile s) (hb : FileBooks asked s)
    (ha : call.fileAsked ⊆ asked) :
    (applyCall call s).pendingFile = s.pendingFile ∧ FileBooks asked (applyCall call s) := by
  have done : FileFrame s (applyCall call s) →
      (applyCall call s).pendingFile = s.pendingFile ∧ FileBooks asked (applyCall call s) :=
    fun hf => ⟨hf.pending, hb.frame hf⟩
  have hrefl := FileFrame.refl s
  cases call with
  | connectEstablished user => exact done ⟨rfl, rfl, rfl⟩
  | send caller data result => exact done (hrefl.send caller data result)
  | sendBuffer caller buf result => exact done (hrefl.sendBuffer caller buf result)
  | sendFile caller fd offset count result =>
    cases caller with
    | loopThread => exact absurd rfl hu
    | otherThread => exact hb.sendFile_otherThread (ha List.mem_cons_self) result
  | shutdown caller => exact done (hrefl.shutdown caller)
  | runFunctor result user => exact done (fileFrame_runFunctor result user hu)
  | handleRead result inputBuffer user => exact done (fileFrame_handleRead result inputBuffer user)
  | handleWrite file output => exact absurd trivial hu
  | handleClose => exact done hrefl.handleClose
  | handleError => exact done hrefl
  | connectDestroyed => exact done hrefl.connectDestroyed

/-- The kernel takes at most what `sendfile` offers it. -/
def ConnCall.WithinOffer (call : ConnCall α) (s : TcpConnection α) : Prop :=
  match call with
  | .handleWrite file _ => file.accepted ≤ s.pendingFile.remaining
  | _ =>
    match call.fileInLoop s with
    | some (r, result) => result.accepted ≤ r.count
    | none => True

/-- Whether a call leaves a range of its own in `pendingFile_`. -/
def ConnCall.postpones (call : ConnCall α) (s : TcpConnection α) : Bool :=
  match call.fileInLoop s with
  | some (r, result) => s.postponesFile r.count result
  | none => false

theorem FileUse.sendFileInLoop {fd offset : Int} {count : Nat} {result : WriteResult}
    (hb : FileBooks asked s) (hp : PendingCovered asked s.pendingFile)
    (hr : FileRange.Covered asked ⟨fd, offset, count⟩) (hn : result.accepted ≤ count) :
    FileUse asked (s.postponesFile count result) s (s.sendFileInLoop fd offset count result) := by
  obtain ⟨hkeep, hset⟩ := sendFileInLoop_pendingFile s fd offset hn
  have hbooks := hb.sendFileInLoop hr hn
  cases hpost : s.postponesFile count result with
  | false =>
    refine ⟨hbooks, ?_, ?_⟩
    · rw [hkeep hpost]
      exact hp
    · rw [hkeep hpost]
      exact Or.inr
  | true => exact ⟨hbooks, fun _ => hr.within (hset hpost), fun _ => Or.inl rfl⟩

/-- A call of a connection to which the pending transfer belongs, if there is one. -/
theorem FileUse.applyCall {call : ConnCall α} (hu : call.UsesFile s) (hb : FileBooks asked s)
    (hp : PendingCovered asked s.pendingFile) (ha : call.fileAsked ⊆ asked)
    (hn : call.WithinOffer s) :
    FileUse asked (call.postpones s) s (applyCall call s) := by
  cases call with
  | handleWrite file output => exact FileUse.handleWrite output hb hp hn
  | sendFile caller fd offset count result =>
    cases caller with
    | loopThread =>
      have huse := FileUse.sendFileInLoop hb hp (.of_mem (ha List.mem_cons_self)) hn
      unfold TcpConnection.applyCall TcpConnection.sendFile
      dsimp only
      split
      · exact ⟨hb, hp, Or.inr⟩
      · exact huse
    | otherThread => cases hu
  | runFunctor result user =>
    unfold TcpConnection.applyCall
    dsimp only
    split
    next => exact ⟨hb, hp, Or.inr⟩
    next f rest hq =>
      cases f with
      | sendFileInLoop fd offset count =>
        have hr : FileRange.Covered asked ⟨fd, offset, count⟩ :=
          hb.queued _ (by simp [queuedFiles, hq, ConnFunctor.fileRange])
        have hl : (ConnCall.runFunctor result user).fileInLoop s =
            some (⟨fd, offset, count⟩, result) := by simp [ConnCall.fileInLoop, hq]
        have hpop : FileBooks asked { s with pendingFunctors := rest } :=
          ⟨hb.reads, fun r hr => hb.queued r (by
            have hr' : r ∈ rest.filterMap ConnFunctor.fileRange := hr
            simp [queuedFiles, hq, ConnFunctor.fileRange, hr'])⟩
        have hn : result.accepted ≤ count := by
          simpa only [ConnCall.WithinOffer, hl] using hn
        have huse := FileUse.sendFileInLoop hpop hp hr hn
        rw [ConnCall.postpones, hl]
        unfold TcpConnection.callFunctor
        dsimp only
        split
        next => exact ⟨⟨huse.books.reads, huse.books.queued⟩, huse.covered, huse.active⟩
        next => exact ⟨⟨hpop.reads, hpop.queued⟩, hp, Or.inr⟩
      | sendInLoop data => simp [ConnCall.UsesFile, ConnCall.fileInLoop, hq] at hu
      | shutdownInLoop => simp [ConnCall.UsesFile, ConnCall.fileInLoop, hq] at hu
      | writeCompleteCallback => simp [ConnCall.UsesFile, ConnCall.fileInLoop, hq] at hu
      | highWaterMarkCallback total => simp [ConnCall.UsesFile, ConnCall.fileInLoop, hq] at hu
  | connectEstablished user => cases hu
  | send caller data result => cases hu
  | sendBuffer caller buf result => cases hu
  | shutdown caller => cases hu
  | handleRead result inputBuffer user => cases hu
  | handleClose => cases hu
  | handleError => cases hu
  | connectDestroyed => cases hu

theorem postpones_of_not_uses {call : ConnCall α} (hu : ¬ call.UsesFile s) :
    call.postpones s = false := by
  have hl : call.fileInLoop s = none := by
    cases call with
    | handleWrite file output => exact absurd trivial hu
    | _ => simpa [ConnCall.UsesFile] using hu
  rw [ConnCall.postpones, hl]

end TcpConnection

/-- Any number of connections in one process. `pendingFile_` is one for all of them; `owner`
is the connection whose `sendFile` wrote it last, `asked` what each was asked to send. -/
structure FileWorld (ι α : Type) where
  conns : ι → TcpConnection α
  pendingFile : PendingFile
  owner : Option ι
  asked : ι → List FileRange

namespace FileWorld

open TcpConnection

variable {ι α : Type} {w : FileWorld ι α} {i j : ι} {call : ConnCall α}

/-- A connection as its own code sees it. -/
def view (w : FileWorld ι α) (i : ι) : TcpConnection α :=
  { w.conns i with pendingFile := w.pendingFile }

structure ShareInv (w : FileWorld ι α) : Prop where
  books : ∀ i, FileBooks (w.asked i) (w.conns i)
  pending : w.pendingFile.active = true →
    ∃ i, w.owner = some i ∧ w.pendingFile.range.Covered (w.asked i)

theorem view_books (h : ShareInv w) (i : ι) (call : ConnCall α) :
    FileBooks (w.asked i ++ call.fileAsked) (w.view i) := by
  have hb : FileBooks (w.asked i) (w.view i) := ⟨(h.books i).reads, (h.books i).queued⟩
  exact hb.mono (List.subset_append_left _ _)

variable [DecidableEq ι]

def applyOn (w : FileWorld ι α) (i : ι) (call : ConnCall α) : FileWorld ι α where
  conns := Function.update w.conns i (applyCall call (w.view i))
  pendingFile := (applyCall call (w.view i)).pendingFile
  owner := if call.postpones (w.view i) then some i else w.owner
  asked := Function.update w.asked i (w.asked i ++ call.fileAsked)

/-- Calls on any connections in any order; the kernel takes at most what it is offered. -/
def shareSystem (ι α : Type) [DecidableEq ι] : ActionSystem (FileWorld ι α) (ι × ConnCall α) where
  init w := (∀ i, (connSystem α).init (w.conns i)) ∧ w.pendingFile = {} ∧ w.owner = none ∧
    ∀ i, w.asked i = []
  permitted a w := (connSystem α).permitted a.2 (w.view a.1) ∧ a.2.WithinOffer (w.view a.1)
  apply a w := w.applyOn a.1 a.2

/-- While a transfer is pending, only its own connection runs `sendFileInLoop` or
`handleWrite`. -/
def OwnerOnly (a : ι × ConnCall α) (w : FileWorld ι α) : Prop :=
  a.2.UsesFile (w.view a.1) → w.pendingFile.active = true → w.owner = some a.1

/-- Every file byte on a socket is of a range its own connection was asked to send. -/
def OwnRanges (w : FileWorld ι α) : Prop :=
  ∀ i, ∀ r ∈ (w.conns i).fileReads, r.Covered (w.asked i)

/-- What remains to be sent on a connection. -/
def remains (w : FileWorld ι α) (i : ι) : Bytes × Option FileRange :=
  ((w.conns i).outputBuffer.readable,
    if w.pendingFile.active = true ∧ w.owner = some i then some w.pendingFile.range else none)

theorem ShareInv.init (h : (shareSystem ι α).init w) : ShareInv w := by
  obtain ⟨hconns, hpending, _, _⟩ := h
  constructor
  · intro i
    obtain ⟨poller, addr, sockfd, high, write, close, user, mark, hfd, hs⟩ := hconns i
    rw [hs]
    exact ⟨fun r hr => absurd hr (List.not_mem_nil), fun r hr => absurd hr (List.not_mem_nil)⟩
  · intro hact
    rw [hpending] at hact
    cases hact

/-- A step of a connection that the pending transfer, if any, belongs to. -/
theorem ShareInv.use (h : ShareInv w) (hp : (shareSystem ι α).permitted (i, call) w)
    (ho : OwnerOnly (i, call) w) (hu : call.UsesFile (w.view i)) :
    FileUse (w.asked i ++ call.fileAsked) (call.postpones (w.view i)) (w.view i)
      (applyCall call (w.view i)) := by
  have hcov : PendingCovered (w.asked i ++ call.fileAsked) (w.view i).pendingFile := by
    intro hact
    obtain ⟨k, hk, hcov⟩ := h.pending hact
    have hi := ho hu hact
    rw [hk] at hi
    obtain rfl := Option.some.inj hi
    exact hcov.mono (List.subset_append_left _ _)
  exact .applyCall hu (view_books h i call) hcov (List.subset_append_right _ _) hp.2

/-- What is pending after such a step belongs to its connection again. -/
theorem ShareInv.owner_of_use (h : ShareInv w) (hp : (shareSystem ι α).permitted (i, call) w)
    (ho : OwnerOnly (i, call) w) (hu : call.UsesFile (w.view i))
    (hact : (w.applyOn i call).pendingFile.active = true) : (w.applyOn i call).owner = some i := by
  change (if call.postpones (w.view i) then some i else w.owner) = some i
  rcases (h.use hp ho hu).active hact with hpost | hbefore
  · rw [if_pos hpost]
  · rw [ho hu hbefore, ite_self]

theorem applyOn_frame (h : ShareInv w) (hu : ¬ call.UsesFile (w.view i)) :
    (w.applyOn i call).pendingFile = w.pendingFile ∧ (w.applyOn i call).owner = w.owner ∧
      FileBooks (w.asked i ++ call.fileAsked) (applyCall call (w.view i)) := by
  obtain ⟨hpend, hbooks⟩ := applyCall_frame hu (view_books h i call) (List.subset_append_right _ _)
  refine ⟨hpend, ?_, hbooks⟩
  change (if call.postpones (w.view i) then some i else w.owner) = w.owner
  rw [postpones_of_not_uses hu]
  rfl

theorem asked_applyOn_self : (w.applyOn i call).asked i = w.asked i ++ call.fileAsked :=
  Function.update_self ..

theorem asked_subset_applyOn (k : ι) : w.asked k ⊆ (w.applyOn i call).asked k := by
  by_cases hk : k = i
  · rw [hk, asked_applyOn_self]
    exact List.subset_append_left _ _
  · have hkeep : (w.applyOn i call).asked k = w.asked k := Function.update_of_ne hk ..
    rw [hkeep]
    exact List.Subset.refl _

theorem ShareInv.applyOn (h : ShareInv w) (hp : (shareSystem ι α).permitted (i, call) w)
    (ho : OwnerOnly (i, call) w) : ShareInv (w.applyOn i call) := by
  constructor
  · intro k
    by_cases hk : k = i
    · have hself : (w.applyOn i call).conns i = applyCall call (w.view i) := Function.update_self ..
      rw [hk, asked_applyOn_self, hself]
      by_cases hu : call.UsesFile (w.view i)
      · exact (h.use hp ho hu).books
      · exact (applyOn_frame h hu).2.2
    · have hkeep : (w.applyOn i call).conns k = w.conns k := Function.update_of_ne hk ..
      rw [hkeep]
      exact (h.books k).mono (asked_subset_applyOn k)
  · intro hact
    by_cases hu : call.UsesFile (w.view i)
    · refine ⟨i, h.owner_of_use hp ho hu hact, ?_⟩
      rw [asked_applyOn_self]
      exact (h.use hp ho hu).covered hact
    · obtain ⟨hpend, howner, _⟩ := applyOn_frame h hu
      rw [hpend] at hact
      obtain ⟨k, hk, hcov⟩ := h.pending hact
      refine ⟨k, howner.trans hk, ?_⟩
      rw [hpend]
      exact hcov.mono (asked_subset_applyOn k)

theorem ShareInv.remains_applyOn (h : ShareInv w) (hp : (shareSystem ι α).permitted (i, call) w)
    (ho : OwnerOnly (i, call) w) (hj : j ≠ i) : (w.applyOn i call).remains j = w.remains j := by
  have hconn : (w.applyOn i call).conns j = w.conns j := Function.update_of_ne hj ..
  have other : ∀ {o : Option ι}, o = some i → o ≠ some j := by
    intro o hi hoj
    rw [hi] at hoj
    exact hj (Option.some.inj hoj).symm
  unfold remains
  rw [hconn]
  by_cases hu : call.UsesFile (w.view i)
  · have hbefore : ¬(w.pendingFile.active = true ∧ w.owner = some j) :=
      fun hb => other (ho hu hb.1) hb.2
    have hafter : ¬((w.applyOn i call).pendingFile.active = true ∧
        (w.applyOn i call).owner = some j) :=
      fun ha => other (h.owner_of_use hp ho hu ha.1) ha.2
    rw [if_neg hbefore, if_neg hafter]
  · obtain ⟨hpend, howner, _⟩ := applyOn_frame h hu
    rw [hpend, howner]

/-- Transfers stay apart as long as a pending one is left to its own connection. -/
theorem files_apart_of_ownerOnly (h : ((shareSystem ι α).restrict OwnerOnly).Reachable w) :
    w.OwnRanges ∧ ∀ i call, ((shareSystem ι α).restrict OwnerOnly).permitted (i, call) w →
      ∀ j, j ≠ i → (w.applyOn i call).remains j = w.remains j := by
  have hi : ShareInv w := by
    apply h.invariant
    · intro w h0
      exact ShareInv.init h0
    · intro a w ha hw
      obtain ⟨i, call⟩ := a
      exact hw.applyOn ha.1 ha.2
  exact ⟨fun i => (hi.books i).reads, fun i call hp j hj => hi.remains_applyOn hp.1 hp.2 hj⟩

/-- Two accepted connections, on descriptors 5 and 6. -/
def twoConns : FileWorld Bool Unit where
  conns i := new ⟨∅, ⟨{5, 6}, ∅⟩⟩ (if i then 2 else 1) (if i then 6 else 5) false true true ()
  pendingFile := {}
  owner := none
  asked _ := []

theorem twoConns_init : (shareSystem Bool Unit).init twoConns := by
  refine ⟨?_, rfl, rfl, fun _ => rfl⟩
  intro i
  cases i with
  | false => exact ⟨_, _, _, _, _, _, _, _, by decide, rfl⟩
  | true => exact ⟨_, _, _, _, _, _, _, _, by decide, rfl⟩

/-- One transfer in two parts, then one of the other connection. -/
def transfersInTurn : List (Bool × ConnCall Unit) := [
  (false, .connectEstablished ()), (true, .connectEstablished ()),
  (false, .sendFile .loopThread 7 0 9 (.wrote 4)), (false, .handleWrite (.wrote 5) (.wrote 0)),
  (true, .sendFile .loopThread 8 2 3 (.wrote 3))]

theorem files_apart_of_ownerOnly_inTurn :
    let w := (shareSystem Bool Unit).run transfersInTurn twoConns
    (w.conns true).fileReads = [⟨8, 2, 3⟩] ∧ w.OwnRanges := by
  intro w
  have h0 : ((shareSystem Bool Unit).restrict OwnerOnly).Reachable twoConns := .init twoConns_init
  have hp : ((shareSystem Bool Unit).restrict OwnerOnly).Permits transfersInTurn twoConns := by
    refine ⟨⟨⟨?_, trivial⟩, fun hu => nomatch hu⟩, ⟨⟨?_, trivial⟩, fun hu => nomatch hu⟩,
      ⟨⟨trivial, ?_⟩, fun _ hact => absurd hact ?_⟩, ⟨⟨trivial, ?_⟩, fun _ _ => ?_⟩,
      ⟨⟨trivial, ?_⟩, fun _ hact => absurd hact ?_⟩, trivial⟩
    · show (_ : StateE) = _
      decide
    · show (_ : StateE) = _
      decide
    · show (4 : Nat) ≤ 9
      decide
    · decide
    · show (_ : Nat) ≤ _
      decide
    · decide
    · show (3 : Nat) ≤ 3
      decide
    · decide
  have hreads : (w.conns true).fileReads = [⟨8, 2, 3⟩] := by decide
  exact ⟨hreads, (files_apart_of_ownerOnly (h0.run hp)).1⟩

/-- A second connection with data to write finds a transfer pending. -/
def transferTaken : List (Bool × ConnCall Unit) := [
  (false, .connectEstablished ()), (true, .connectEstablished ()),
  (false, .sendFile .loopThread 7 0 9 (.wrote 4)), (true, .send .loopThread (ascii "ok") (.wrote 1)),
  (true, .handleWrite (.wrote 5) (.wrote 1))]

/-- The rest of the file goes to the second connection, which was asked for no file. -/
theorem pending_file_sent_elsewhere : ∃ w : FileWorld Bool Unit,
    (shareSystem Bool Unit).Reachable w ∧ (w.conns true).fileReads = [⟨7, 4, 5⟩] ∧
      w.asked true = [] ∧ ¬ w.OwnRanges := by
  have h0 : (shareSystem Bool Unit).Reachable twoConns := .init twoConns_init
  have hp : (shareSystem Bool Unit).Permits transferTaken twoConns := by
    refine ⟨⟨?_, trivial⟩, ⟨?_, trivial⟩, ⟨trivial, ?_⟩, ⟨trivial, trivial⟩, ⟨trivial, ?_⟩, trivial⟩
    · show (_ : StateE) = _
      decide
    · show (_ : StateE) = _
      decide
    · show (4 : Nat) ≤ 9
      decide
    · show (_ : Nat) ≤ _
      decide
  have hreads : (((shareSystem Bool Unit).run transferTaken twoConns).conns true).fileReads =
      [⟨7, 4, 5⟩] := by decide +kernel
  have hasked : ((shareSystem Bool Unit).run transferTaken twoConns).asked true = [] := by
    decide
  refine ⟨_, h0.run hp, hreads, hasked, ?_⟩
  intro hown
  have hmem : (⟨7, 4, 5⟩ : FileRange) ∈
      (((shareSystem Bool Unit).run transferTaken twoConns).conns true).fileReads := by
    rw [hreads]
    exact List.mem_cons_self
  obtain ⟨a, ha, _⟩ := hown true _ hmem
  rw [hasked] at ha
  cases ha

end FileWorld

end MuduoPlus
