import MuduoPlus.TcpOutput

namespace MuduoPlus

/-- The bytes `sendfile` would read: `count` of them from `offset` on, of the file behind
`fd`. -/
def fileRange (files : Int → Bytes) (fd offset : Int) (count : Nat) : Bytes :=
  ((files fd).drop offset.toNat).take count

/-- The range lies inside its file. -/
def InFile (files : Int → Bytes) (fd offset : Int) (count : Nat) : Prop :=
  0 ≤ offset ∧ offset.toNat + count ≤ (files fd).length

/-- The bytes a system call put on the socket. -/
def ConnEvent.sent (files : Int → Bytes) : ConnEvent → Bytes
  | .write offered accepted => offered.take accepted
  | .sendfile fd offset count accepted => (fileRange files fd offset count).take accepted
  | _ => []

/-- The file bytes that still wait in `pendingFile_`. -/
def PendingFile.bytes (files : Int → Bytes) (file : PendingFile) : Bytes :=
  if file.active then fileRange files file.fd file.offset file.remaining else []

/-- The functors of this connection that call its owner back and write nothing. -/
def ConnFunctor.IsCallback : ConnFunctor → Prop
  | .writeCompleteCallback => True
  | .highWaterMarkCallback _ => True
  | _ => False

/-- Success with at most `len` bytes, or the socket is full. -/
def WriteResult.PartialOf (len : Nat) : WriteResult → Prop
  | .wrote n => n ≤ len
  | .error .eWouldBlock => True
  | .error _ => False

section FileRange

variable {files : Int → Bytes} {fd offset : Int} {count n : Nat}

/-- What is left of a range is the range behind the part that was sent. -/
theorem drop_fileRange (h : 0 ≤ offset) :
    (fileRange files fd offset count).drop n = fileRange files fd (offset + n) (count - n) := by
  have htoNat : (offset + n).toNat = offset.toNat + n := by omega
  rw [fileRange, fileRange, List.drop_take, List.drop_drop, htoNat]

theorem fileRange_split (files : Int → Bytes) (fd : Int) (count n : Nat) (h : 0 ≤ offset) :
    (fileRange files fd offset count).take n ++ fileRange files fd (offset + n) (count - n) =
      fileRange files fd offset count := by
  rw [← drop_fileRange h, List.take_append_drop]

theorem InFile.rest (h : InFile files fd offset count) (hn : n ≤ count) :
    InFile files fd (offset + n) (count - n) := by
  obtain ⟨hoff, hlen⟩ := h
  exact ⟨by omega, by omega⟩

end FileRange

namespace TcpConnection

variable {α : Type} {files : Int → Bytes} {s : TcpConnection α} {asked owed : Bytes}

def sentBytes (files : Int → Bytes) (s : TcpConnection α) : Bytes :=
  s.trace.flatMap (ConnEvent.sent files)

/-- The socket has what was asked for, less the pending file range, the output buffer and
`owed`, in this order; `owed` are bytes a running `sendInLoop` still has in hand. -/
structure FileInv (files : Int → Bytes) (asked owed : Bytes) (s : TcpConnection α) : Prop where
  connected : s.state = .kConnected
  fd_nonneg : 0 ≤ s.reg.channel.fd
  callbacks : ∀ f ∈ s.pendingFunctors, f.IsCallback
  buffer_valid : s.outputBuffer.Valid
  in_file : s.pendingFile.active = true →
    InFile files s.pendingFile.fd s.pendingFile.offset s.pendingFile.remaining
  file_writing : s.pendingFile.active = true → s.isWriting = true
  stream : sentBytes files s ++ s.pendingFile.bytes files ++ s.outputBuffer.readable ++ owed = asked

theorem sentBytes_log (files : Int → Bytes) (s : TcpConnection α) (e : ConnEvent) :
    sentBytes files (s.log e) = sentBytes files s ++ e.sent files := by
  simp [sentBytes, TcpConnection.log]

theorem FileInv.queueInLoop (h : FileInv files asked owed s) {f : ConnFunctor} (hf : f.IsCallback) :
    FileInv files asked owed (s.queueInLoop f) := by
  refine ⟨h.connected, h.fd_nonneg, ?_, h.buffer_valid, h.in_file, h.file_writing, h.stream⟩
  intro g hg
  rcases List.mem_append.mp hg with hg | hg
  · exact h.callbacks g hg
  · rw [List.mem_singleton.mp hg]
    exact hf

theorem FileInv.queueWriteComplete (h : FileInv files asked owed s) :
    FileInv files asked owed s.queueWriteComplete := by
  unfold TcpConnection.queueWriteComplete
  split
  · exact h.queueInLoop trivial
  · exact h

@[simp] theorem queueWriteComplete_pendingFile : s.queueWriteComplete.pendingFile = s.pendingFile := by
  unfold TcpConnection.queueWriteComplete
  split <;> rfl

theorem FileInv.queueWriteComplete_ite (h : FileInv files asked owed s) (c : Prop) [Decidable c] :
    FileInv files asked owed (if c then s.queueWriteComplete else s) := by
  by_cases hc : c
  · rw [if_pos hc]
    exact h.queueWriteComplete
  · rw [if_neg hc]
    exact h

theorem pendingFile_queueWriteComplete_ite (s : TcpConnection α) (c : Prop) [Decidable c] :
    (if c then s.queueWriteComplete else s).pendingFile = s.pendingFile := by
  by_cases hc : c
  · rw [if_pos hc, queueWriteComplete_pendingFile]
  · rw [if_neg hc]

theorem FileInv.queueHighWaterMark (h : FileInv files asked owed s) (oldLen remaining : Nat) :
    FileInv files asked owed (s.queueHighWaterMark oldLen remaining) := by
  unfold TcpConnection.queueHighWaterMark
  split
  · exact h.queueInLoop trivial
  · exact h

/-- An event that puts no byte on the socket. -/
theorem FileInv.log_quiet (h : FileInv files asked owed s) {e : ConnEvent} (he : e.sent files = []) :
    FileInv files asked owed (s.log e) := by
  refine ⟨h.connected, h.fd_nonneg, h.callbacks, h.buffer_valid, h.in_file, h.file_writing, ?_⟩
  rw [sentBytes_log, he, List.append_nil]
  exact h.stream

theorem FileInv.enableWriting (h : FileInv files asked owed s) :
    FileInv files asked owed s.enableWriting := by
  have hfd : s.enableWriting.reg.channel.fd = s.reg.channel.fd := by
    simp [TcpConnection.enableWriting, Registration.enableWriting]
  refine ⟨h.connected, ?_, h.callbacks, h.buffer_valid, h.in_file, ?_, h.stream⟩
  · rw [hfd]
    exact h.fd_nonneg
  · intro _
    exact Registration.enableWriting_isWriting h.fd_nonneg

theorem FileInv.append (h : FileInv files asked owed s) :
    FileInv files asked [] { s with outputBuffer := s.outputBuffer.append owed } := by
  refine ⟨h.connected, h.fd_nonneg, h.callbacks, Buffer.append_valid h.buffer_valid owed, h.in_file,
    h.file_writing, ?_⟩
  have hs := h.stream
  simp only [Buffer.append_readable h.buffer_valid, List.append_nil]
  rw [← List.append_assoc]
  exact hs

theorem FileInv.bufferRemaining (h : FileInv files asked owed s) :
    FileInv files asked [] (s.bufferRemaining owed) := by
  unfold TcpConnection.bufferRemaining
  split
  next =>
    have hq := (h.queueHighWaterMark s.outputBuffer.readableBytes owed.length).append
    dsimp only
    split
    next => exact hq
    next => exact hq.enableWriting
  next hlen =>
    have hnil : owed = [] := List.eq_nil_of_length_eq_zero (by omega)
    rw [hnil] at h
    exact h

theorem readable_eq_nil_of_readableBytes {b : Buffer} (hv : b.Valid) (h : b.readableBytes = 0) :
    b.readable = [] := by
  apply List.eq_nil_of_length_eq_zero
  rw [Buffer.length_readable hv]
  exact h

/-- Nothing waits, so the kernel takes the front of the data and the rest is owed. -/
theorem FileInv.sendDirect {data : Bytes} {result : WriteResult} (h : FileInv files asked data s)
    (hidle : s.pendingFile.active = false) (hempty : s.outputBuffer.readable = [])
    (hresult : result.PartialOf data.length) :
    FileInv files asked [] (s.sendDirect data result) := by
  have hlog : FileInv files asked (data.drop result.accepted)
      (s.log (.write data result.accepted)) := by
    refine ⟨h.connected, h.fd_nonneg, h.callbacks, h.buffer_valid, h.in_file, h.file_writing, ?_⟩
    have hs := h.stream
    have hbytes : (s.log (.write data result.accepted)).pendingFile.bytes files = [] := by
      simp [TcpConnection.log, PendingFile.bytes, hidle]
    have hbuf : (s.log (.write data result.accepted)).outputBuffer.readable = [] := hempty
    have hbytes' : s.pendingFile.bytes files = [] := hbytes
    rw [hbytes', hempty, List.append_nil, List.append_nil] at hs
    rw [sentBytes_log, hbytes, hbuf, List.append_nil, List.append_nil, List.append_assoc]
    simpa [ConnEvent.sent] using hs
  unfold TcpConnection.sendDirect
  cases result with
  | wrote n =>
    dsimp only
    split
    · exact hlog.queueWriteComplete.bufferRemaining
    · exact hlog.bufferRemaining
  | error errno =>
    cases errno with
    | eWouldBlock => exact hlog.bufferRemaining
    | ePipe => exact hresult.elim
    | eConnReset => exact hresult.elim
    | other code => exact hresult.elim

theorem FileInv.send {data : Bytes} {result : WriteResult} (h : FileInv files asked [] s)
    (hresult : result.PartialOf data.length) :
    FileInv files (asked ++ data) [] (s.send .loopThread data result) := by
  have hpassed : FileInv files (asked ++ data) data (s.log (.passed data)) := by
    have hq : FileInv files asked [] (s.log (.passed data)) := h.log_quiet rfl
    refine ⟨hq.connected, hq.fd_nonneg, hq.callbacks, hq.buffer_valid, hq.in_file, hq.file_writing, ?_⟩
    have hs := hq.stream
    rw [List.append_nil] at hs
    rw [hs]
  unfold TcpConnection.send TcpConnection.sendInLoop
  rw [if_neg (by simp [h.connected])]
  dsimp only
  split
  next hd =>
    rw [hpassed.connected] at hd
    cases hd
  next =>
    split
    next hfree =>
      have hidle : (s.log (.passed data)).pendingFile.active = false := by
        by_contra hact
        have hw := hpassed.file_writing (by simpa using hact)
        rw [hfree.1] at hw
        cases hw
      have hempty := readable_eq_nil_of_readableBytes hpassed.buffer_valid hfree.2
      exact hpassed.sendDirect hidle hempty hresult
    next => exact hpassed.bufferRemaining

/-- The range goes to `pendingFile_`: right when nothing else waits. -/
theorem FileInv.postponeFile {fd offset : Int} {count : Nat}
    (h : FileInv files asked (fileRange files fd offset count) s)
    (hidle : s.pendingFile.active = false) (hempty : s.outputBuffer.readable = [])
    (hin : InFile files fd offset count) :
    FileInv files asked [] (s.postponeFile fd offset count) := by
  have hset : (s.postponeFile fd offset count).isWriting = true :=
    Registration.enableWriting_isWriting h.fd_nonneg
  have hfd : (s.postponeFile fd offset count).reg.channel.fd = s.reg.channel.fd := by
    simp [TcpConnection.postponeFile, TcpConnection.enableWriting, Registration.enableWriting]
  refine ⟨h.connected, by rw [hfd]; exact h.fd_nonneg, h.callbacks, h.buffer_valid, fun _ => hin,
    fun _ => hset, ?_⟩
  have hs := h.stream
  have hbytes : s.pendingFile.bytes files = [] := by simp [PendingFile.bytes, hidle]
  rw [hbytes, hempty, List.append_nil, List.append_nil] at hs
  have hpend : (s.postponeFile fd offset count).pendingFile.bytes files =
      fileRange files fd offset count := rfl
  have hbuf : (s.postponeFile fd offset count).outputBuffer.readable = [] := hempty
  rw [hpend, hbuf, List.append_nil, List.append_nil]
  exact hs

theorem FileInv.sendFile {fd offset : Int} {count : Nat} {result : WriteResult}
    (h : FileInv files asked [] s) (hin : InFile files fd offset count)
    (hresult : result.PartialOf count) (hidle : s.pendingFile.active = false)
    (hempty : s.outputBuffer.readable = []) :
    FileInv files (asked ++ fileRange files fd offset count) []
      (s.sendFile .loopThread fd offset count result) := by
  have hs := h.stream
  have hbytes : s.pendingFile.bytes files = [] := by simp [PendingFile.bytes, hidle]
  rw [hbytes, hempty, List.append_nil, List.append_nil, List.append_nil] at hs
  have howed : FileInv files (asked ++ fileRange files fd offset count)
      (fileRange files fd offset count) s := by
    refine ⟨h.connected, h.fd_nonneg, h.callbacks, h.buffer_valid, h.in_file, h.file_writing, ?_⟩
    rw [hbytes, hempty, List.append_nil, List.append_nil, hs]
  have hsent : FileInv files (asked ++ fileRange files fd offset count)
      (fileRange files fd (offset + result.accepted) (count - result.accepted))
      (s.log (.sendfile fd offset count result.accepted)) := by
    refine ⟨h.connected, h.fd_nonneg, h.callbacks, h.buffer_valid, h.in_file, h.file_writing, ?_⟩
    have hpend : (s.log (.sendfile fd offset count result.accepted)).pendingFile.bytes files = [] :=
      hbytes
    have hbuf : (s.log (.sendfile fd offset count result.accepted)).outputBuffer.readable = [] :=
      hempty
    rw [sentBytes_log, hpend, hbuf, List.append_nil, List.append_nil, hs, List.append_assoc]
    exact congrArg (asked ++ ·) (fileRange_split files fd count _ hin.1)
  unfold TcpConnection.sendFile TcpConnection.sendFileInLoop
  rw [if_neg (by simp [h.connected])]
  dsimp only
  rw [if_neg (by simp [h.connected])]
  split
  next => exact howed.postponeFile hidle hempty hin
  next =>
    cases result with
    | wrote n =>
      have hn : n ≤ count := hresult
      dsimp only
      split
      next hdone =>
        have hnil : fileRange files fd (offset + n) (count - n) = [] := by
          rw [hdone, fileRange, List.take_zero]
        have hall := hsent
        rw [show (WriteResult.wrote n).accepted = n from rfl, hnil] at hall
        exact hall.queueWriteComplete
      next => exact hsent.postponeFile hidle hempty (hin.rest hn)
    | error errno =>
      cases errno with
      | eWouldBlock =>
        have hzero : FileInv files (asked ++ fileRange files fd offset count)
            (fileRange files fd offset count) (s.log (.sendfile fd offset count 0)) := by
          exact howed.log_quiet (by simp [ConnEvent.sent])
        exact hzero.postponeFile hidle hempty hin
      | ePipe => exact hresult.elim
      | eConnReset => exact hresult.elim
      | other code => exact hresult.elim

/-- The pending range goes on; the buffer is next only when the range is done. -/
theorem FileInv.continueFile {result : WriteResult} (h : FileInv files asked [] s)
    (hresult : result.PartialOf s.pendingFile.remaining) :
    FileInv files asked [] (s.continueFile result).1 ∧
      ((s.continueFile result).2 = true → (s.continueFile result).1.pendingFile.active = false) := by
  unfold TcpConnection.continueFile
  dsimp only
  split
  next hidle => exact ⟨h, fun _ => hidle⟩
  next hact =>
    have hact : s.pendingFile.active = true := by simpa using hact
    have hin := h.in_file hact
    have hw := h.file_writing hact
    have hs := h.stream
    rw [PendingFile.bytes, hact, if_pos rfl, List.append_nil] at hs
    cases result with
    | wrote n =>
      have hn : n ≤ s.pendingFile.remaining := hresult
      have hrest := hin.rest hn
      have hgo : FileInv files asked [] { s.log (.sendfile s.pendingFile.fd s.pendingFile.offset
          s.pendingFile.remaining n) with pendingFile := ⟨s.pendingFile.fd, s.pendingFile.offset + n,
            s.pendingFile.remaining - n, decide (s.pendingFile.remaining - n ≠ 0)⟩ } := by
        refine ⟨h.connected, h.fd_nonneg, h.callbacks, h.buffer_valid, fun _ => hrest, fun _ => hw, ?_⟩
        have hbytes : PendingFile.bytes files ⟨s.pendingFile.fd, s.pendingFile.offset + n,
            s.pendingFile.remaining - n, decide (s.pendingFile.remaining - n ≠ 0)⟩ =
            fileRange files s.pendingFile.fd (s.pendingFile.offset + n)
              (s.pendingFile.remaining - n) := by
          by_cases hz : s.pendingFile.remaining - n = 0
          · simp [PendingFile.bytes, hz, fileRange]
          · simp [PendingFile.bytes, hz]
        have hsplit := fileRange_split files s.pendingFile.fd s.pendingFile.remaining n hin.1
        have hsent : sentBytes files { s.log (.sendfile s.pendingFile.fd s.pendingFile.offset
            s.pendingFile.remaining n) with pendingFile := ⟨s.pendingFile.fd,
              s.pendingFile.offset + n, s.pendingFile.remaining - n,
              decide (s.pendingFile.remaining - n ≠ 0)⟩ } =
            sentBytes files s ++ (fileRange files s.pendingFile.fd s.pendingFile.offset
              s.pendingFile.remaining).take n := sentBytes_log files s _
        rw [hsent, hbytes, List.append_nil, List.append_assoc (sentBytes files s), hsplit]
        exact hs
      dsimp only [WriteResult.accepted]
      split
      next hz =>
        refine ⟨hgo.queueWriteComplete_ite _, fun _ => ?_⟩
        have hp := congrArg PendingFile.active (pendingFile_queueWriteComplete_ite
          { s.log (.sendfile s.pendingFile.fd s.pendingFile.offset s.pendingFile.remaining n) with
            pendingFile := ⟨s.pendingFile.fd, s.pendingFile.offset + n, s.pendingFile.remaining - n,
              decide (s.pendingFile.remaining - n ≠ 0)⟩ } (s.outputBuffer.readableBytes = 0))
        exact hp.trans (by simp [hz])
      next hz => exact ⟨hgo.enableWriting, fun hf => nomatch hf⟩
    | error errno =>
      cases errno with
      | eWouldBlock =>
        have hq := h.log_quiet (e := .sendfile s.pendingFile.fd s.pendingFile.offset
          s.pendingFile.remaining 0) (by simp [ConnEvent.sent])
        exact ⟨hq.enableWriting, fun hf => nomatch hf⟩
      | ePipe => exact hresult.elim
      | eConnReset => exact hresult.elim
      | other code => exact hresult.elim

/-- The buffer goes on; no file range is pending at this point. -/
theorem FileInv.flushOutput (h : FileInv files asked [] s) (hidle : s.pendingFile.active = false)
    (result : WriteResult) : FileInv files asked [] (s.flushOutput result) := by
  have hbytes : s.pendingFile.bytes files = [] := by simp [PendingFile.bytes, hidle]
  have hs := h.stream
  rw [hbytes, List.append_nil, List.append_nil] at hs
  have hsplit := List.take_append_drop result.accepted s.outputBuffer.readable
  have hflushed : ∀ reg : Registration, reg.channel.fd = s.reg.channel.fd →
      FileInv files asked [] { s with
        trace := s.trace ++ [.write s.outputBuffer.readable result.accepted]
        outputBuffer := s.outputBuffer.retrieve result.accepted
        reg } := by
    intro reg hfd
    have hfd' := h.fd_nonneg
    rw [← hfd] at hfd'
    refine ⟨h.connected, hfd', h.callbacks, Buffer.retrieve_valid h.buffer_valid _, ?_, ?_, ?_⟩
    · intro hact
      rw [hidle] at hact
      cases hact
    · intro hact
      rw [hidle] at hact
      cases hact
    · have hsent := sentBytes_log files s (.write s.outputBuffer.readable result.accepted)
      have hret := Buffer.retrieve_readable h.buffer_valid result.accepted
      change sentBytes files (s.log (.write s.outputBuffer.readable result.accepted)) ++
        s.pendingFile.bytes files ++ (s.outputBuffer.retrieve result.accepted).readable ++ [] = asked
      rw [hsent, hbytes, hret, List.append_nil, List.append_nil, List.append_assoc]
      simpa [ConnEvent.sent] using hs
  unfold TcpConnection.flushOutput
  split
  next => exact h
  next =>
    dsimp only
    split
    next =>
      split
      next =>
        have hoff := (hflushed s.reg.disableWriting
          (by simp [Registration.disableWriting])).queueWriteComplete
        split
        next hd =>
          have hd' : s.state = .kDisconnecting := by
            simpa [TcpConnection.disableWriting, TcpConnection.log] using hd
          rw [h.connected] at hd'
          cases hd'
        next => exact hoff
      next => exact hflushed s.reg rfl
    next hz =>
      have hzero : result.accepted = 0 := by omega
      exact h.log_quiet (by simp [ConnEvent.sent, hzero])

theorem FileInv.handleWrite {file output : WriteResult} (h : FileInv files asked [] s)
    (hfile : file.PartialOf s.pendingFile.remaining) :
    FileInv files asked [] (s.handleWrite file output) := by
  obtain ⟨hc, hnext⟩ := h.continueFile hfile
  unfold TcpConnection.handleWrite
  split
  next t he =>
    rw [he] at hc hnext
    exact hc.flushOutput (hnext rfl) output
  next t he =>
    rw [he] at hc
    exact hc

theorem FileInv.runFunctor (h : FileInv files asked [] s) (result : WriteResult) (user : α) :
    FileInv files asked [] (applyCall (.runFunctor result user) s) := by
  unfold applyCall
  dsimp only
  split
  next => exact h
  next f rest hp =>
    have hcalls := h.callbacks
    rw [hp] at hcalls
    have hpop : FileInv files asked [] { s with pendingFunctors := rest } :=
      ⟨h.connected, h.fd_nonneg, fun g hg => hcalls g (List.mem_cons_of_mem f hg), h.buffer_valid,
        h.in_file, h.file_writing, h.stream⟩
    have hcall : FileInv files asked [] (callFunctor f result { s with pendingFunctors := rest }) := by
      have hf := hcalls f List.mem_cons_self
      cases f with
      | writeCompleteCallback =>
        unfold callFunctor
        dsimp only
        split
        · exact hpop.log_quiet rfl
        · exact hpop
      | highWaterMarkCallback total => exact hpop.log_quiet rfl
      | sendInLoop data => exact hf.elim
      | sendFileInLoop fd offset count => exact hf.elim
      | shutdownInLoop => exact hf.elim
    exact ⟨hcall.connected, hcall.fd_nonneg, hcall.callbacks, hcall.buffer_valid, hcall.in_file,
      hcall.file_writing, hcall.stream⟩

/-- A connection that alone uses `pendingFile_`, and the bytes its owner asked it to send. -/
structure FileRun (α : Type) where
  conn : TcpConnection α
  asked : Bytes

/-- The bytes a call asks for. -/
def ConnCall.asks (files : Int → Bytes) : ConnCall α → Bytes
  | .send _ data _ => data
  | .sendFile _ fd offset count _ => fileRange files fd offset count
  | _ => []

/-- `send` and `sendFile` from the loop's thread, `handleWrite` and the loop's callbacks on an
established connection; the kernel takes a part or would block. -/
def fileSystem (files : Int → Bytes) (α : Type) : ActionSystem (FileRun α) (ConnCall α) where
  init r := r.asked = [] ∧ ∃ s user, (connSystem α).init s ∧
    r.conn = s.connectEstablished fun s => { s with user }
  permitted
    | .send .loopThread data result, _ => result.PartialOf data.length
    | .sendFile .loopThread fd offset count result, _ =>
      InFile files fd offset count ∧ result.PartialOf count
    | .handleWrite file output, r => file.PartialOf r.conn.pendingFile.remaining ∧
      output.PartialOf r.conn.outputBuffer.readableBytes
    | .runFunctor _ _, _ => True
    | _, _ => False
  apply call r := ⟨applyCall call r.conn, r.asked ++ call.asks files⟩

/-- `sendFile` comes only when neither buffered data nor another range waits. -/
def FileAlone : ConnCall α → FileRun α → Prop
  | .sendFile _ _ _ _ _, r =>
    r.conn.pendingFile.active = false ∧ r.conn.outputBuffer.readable = []
  | _, _ => True

theorem FileInv.init {r : FileRun α} (h : (fileSystem files α).init r) :
    FileInv files r.asked [] r.conn := by
  obtain ⟨hasked, s, user, ⟨poller, addr, sockfd, high, write, close, u, mark, hfd, hs⟩, hconn⟩ := h
  have hreg : (⟨Channel.new addr sockfd, poller⟩ : Registration).enableReading.channel.fd = sockfd := by
    simp [Registration.enableReading, Channel.new]
  have hempty : (Buffer.new kInitialSize).readable = [] := Buffer.new_readable _
  rw [hconn, hs, hasked]
  refine ⟨rfl, ?_, ?_, Buffer.new_valid _, ?_, ?_, ?_⟩
  · exact hreg.symm ▸ hfd
  · intro f hf
    cases hf
  · intro hact
    cases hact
  · intro hact
    cases hact
  · exact hempty

theorem FileInv.applyCall {r : FileRun α} {call : ConnCall α}
    (hp : ((fileSystem files α).restrict FileAlone).permitted call r)
    (h : FileInv files r.asked [] r.conn) :
    FileInv files (r.asked ++ call.asks files) [] (applyCall call r.conn) := by
  obtain ⟨hp, halone⟩ := hp
  cases call with
  | send caller data result =>
    cases caller with
    | loopThread => exact h.send hp
    | otherThread => exact hp.elim
  | sendFile caller fd offset count result =>
    cases caller with
    | loopThread => exact h.sendFile hp.1 hp.2 halone.1 halone.2
    | otherThread => exact hp.elim
  | handleWrite file output =>
    have hnone : r.asked ++ (ConnCall.handleWrite file output : ConnCall α).asks files = r.asked :=
      List.append_nil _
    rw [hnone]
    exact h.handleWrite hp.1
  | runFunctor result user =>
    have hnone : r.asked ++ (ConnCall.runFunctor result user).asks files = r.asked :=
      List.append_nil _
    rw [hnone]
    exact h.runFunctor result user
  | connectEstablished user => exact hp.elim
  | sendBuffer caller buf result => exact hp.elim
  | shutdown caller => exact hp.elim
  | handleRead result inputBuffer user => exact hp.elim
  | handleClose => exact hp.elim
  | handleError => exact hp.elim
  | connectDestroyed => exact hp.elim

/-- The socket has received a front part of what was asked for, and all of it once neither
buffered data nor a file range waits. -/
def FileRun.InOrder (files : Int → Bytes) (r : FileRun α) : Prop :=
  sentBytes files r.conn <+: r.asked ∧
    (r.conn.pendingFile.active = false → r.conn.outputBuffer.readable = [] →
      sentBytes files r.conn = r.asked)

/-- Files and data arrive in call order as long as `sendFile` never has to wait behind
something else. -/
theorem file_order_of_alone {r : FileRun α}
    (h : ((fileSystem files α).restrict FileAlone).Reachable r) : r.InOrder files := by
  have hi : FileInv files r.asked [] r.conn :=
    h.invariant (P := fun r => FileInv files r.asked [] r.conn)
      (fun r (h0 : (fileSystem files α).init r) => FileInv.init h0) (fun _ _ hp hi => hi.applyCall hp)
  have hs := hi.stream
  rw [List.append_nil] at hs
  constructor
  · rw [← hs, List.append_assoc]
    exact List.prefix_append _ _
  · intro hidle hempty
    have hbytes : r.conn.pendingFile.bytes files = [] := by simp [PendingFile.bytes, hidle]
    rw [hbytes, hempty, List.append_nil, List.append_nil] at hs
    exact hs

/-- An established connection on descriptor 5. -/
def establishedRun : FileRun Unit where
  conn := (new ⟨∅, ⟨{5}, ∅⟩⟩ 1 5 false true true ()).connectEstablished fun s => { s with user := () }
  asked := []

theorem establishedRun_init (files : Int → Bytes) : (fileSystem files Unit).init establishedRun :=
  ⟨rfl, _, (), ⟨_, _, _, _, _, _, _, _, by decide, rfl⟩, rfl⟩

/-- A file of two bytes behind every descriptor. -/
def twoBytes : Int → Bytes := fun _ => ascii "XY"

/-- A header that leaves in two parts, then a file that leaves in two parts, with data
behind it. -/
def alternatingCalls : List (ConnCall Unit) := [
  .send .loopThread (ascii "abc") (.wrote 1), .handleWrite (.wrote 0) (.wrote 2),
  .sendFile .loopThread 7 0 2 (.wrote 1), .send .loopThread (ascii "d") (.wrote 0),
  .handleWrite (.wrote 1) (.wrote 1)]

theorem file_order_of_alone_alternating :
    let r := (fileSystem twoBytes Unit).run alternatingCalls establishedRun
    r.asked = ascii "abcXYd" ∧ r.InOrder twoBytes := by
  intro r
  have h0 : ((fileSystem twoBytes Unit).restrict FileAlone).Reachable establishedRun :=
    .init (establishedRun_init twoBytes)
  have hp : ((fileSystem twoBytes Unit).restrict FileAlone).Permits alternatingCalls
      establishedRun := by
    refine ⟨⟨?_, trivial⟩, ⟨⟨?_, ?_⟩, trivial⟩, ⟨⟨⟨?_, ?_⟩, ?_⟩, ?_, ?_⟩, ⟨?_, trivial⟩,
      ⟨⟨?_, ?_⟩, trivial⟩, trivial⟩
    all_goals first | (show (_ : Nat) ≤ _; decide +kernel) | decide +kernel
  have hasked : r.asked = ascii "abcXYd" := by decide
  exact ⟨hasked, file_order_of_alone (h0.run hp)⟩

/-- A header still waits when its file is queued. -/
def headerThenFile : List (ConnCall Unit) := [
  .send .loopThread (ascii "abc") (.wrote 1), .sendFile .loopThread 7 0 2 (.wrote 0),
  .handleWrite (.wrote 2) (.wrote 2)]

/-- The file overtakes the rest of the header. -/
theorem file_overtakes_buffered_data : ∃ r : FileRun Unit,
    (fileSystem twoBytes Unit).Reachable r ∧ r.asked = ascii "abcXY" ∧
      sentBytes twoBytes r.conn = ascii "aXYbc" ∧ ¬ r.InOrder twoBytes := by
  have h0 : (fileSystem twoBytes Unit).Reachable establishedRun :=
    .init (establishedRun_init twoBytes)
  have hp : (fileSystem twoBytes Unit).Permits headerThenFile establishedRun := by
    refine ⟨?_, ⟨⟨?_, ?_⟩, ?_⟩, ⟨?_, ?_⟩, trivial⟩
    all_goals first | (show (_ : Nat) ≤ _; decide +kernel) | decide +kernel
  have hasked : ((fileSystem twoBytes Unit).run headerThenFile establishedRun).asked =
      ascii "abcXY" := by decide
  have hsent : sentBytes twoBytes ((fileSystem twoBytes Unit).run headerThenFile
      establishedRun).conn = ascii "aXYbc" := by decide +kernel
  refine ⟨_, h0.run hp, hasked, hsent, ?_⟩
  intro hin
  have hpre := hin.1
  rw [hsent, hasked] at hpre
  revert hpre
  decide

end TcpConnection

end MuduoPlus
