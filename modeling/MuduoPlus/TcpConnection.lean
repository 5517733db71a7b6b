import MuduoPlus.ActionSystem
import MuduoPlus.Buffer
import MuduoPlus.Channel

namespace MuduoPlus

inductive StateE where
  | kDisconnected
  | kConnecting
  | kConnected
  | kDisconnecting
  deriving DecidableEq, Repr

/-- The global `pendingFile_` of `TcpConnection.cpp`. -/
structure PendingFile where
  fd : Int := -1
  offset : Int := 0
  remaining : Nat := 0
  active : Bool := false
  deriving DecidableEq, Repr

/-- The functors a connection puts into its loop. -/
inductive ConnFunctor where
  | sendInLoop (data : Bytes)
  | sendFileInLoop (fileDescriptor : Int) (offset : Int) (count : Nat)
  | shutdownInLoop
  | writeCompleteCallback
  | highWaterMarkCallback (total : Nat)
  deriving DecidableEq, Repr

/-- What a connection does towards the kernel and its owner, in order: data given to
`sendInLoop`, system calls with what the kernel accepted, and callbacks. -/
inductive ConnEvent where
  | passed (data : Bytes)
  | write (offered : Bytes) (accepted : Nat)
  | sendfile (fd : Int) (offset : Int) (count accepted : Nat)
  | shutdownWrite (state : StateE) (unsent : Bytes)
  | disconnected
  | writeComplete
  | highWaterMark (total : Nat)
  | closed
  deriving DecidableEq, Repr

def WriteResult.accepted : WriteResult → Nat
  | .wrote n => n
  | .error _ => 0

inductive Caller where
  | loopThread
  | otherThread
  deriving DecidableEq, Repr

/-- A connection with what it shares: its loop's poller (beside the channel in `reg`) and
queue, the global `pendingFile_`, and in `user` what its callbacks keep, `context_`
included. Whether a callback is set is a flag. -/
structure TcpConnection (α : Type) where
  state : StateE
  reg : Registration
  inputBuffer : Buffer
  outputBuffer : Buffer
  highWaterMark : Nat
  highWaterMarkCallback : Bool
  writeCompleteCallback : Bool
  closeCallback : Bool
  pendingFunctors : List ConnFunctor
  pendingFile : PendingFile
  trace : List ConnEvent
  user : α

namespace TcpConnection

variable {α : Type}

/-- The constructor, on the loop of `poller`, with the callbacks that were set after it. -/
def new (poller : EPollPoller) (addr : Nat) (sockfd : Int) (highWaterMarkCallback
    writeCompleteCallback closeCallback : Bool) (user : α) : TcpConnection α where
  state := .kConnecting
  reg := ⟨Channel.new addr sockfd, poller⟩
  inputBuffer := Buffer.new kInitialSize
  outputBuffer := Buffer.new kInitialSize
  highWaterMark := 64 * 1024 * 1024
  highWaterMarkCallback
  writeCompleteCallback
  closeCallback
  pendingFunctors := []
  pendingFile := {}
  trace := []
  user

def isWriting (s : TcpConnection α) : Bool := s.reg.channel.isWriting

def log (e : ConnEvent) (s : TcpConnection α) : TcpConnection α :=
  { s with trace := s.trace ++ [e] }

def queueInLoop (f : ConnFunctor) (s : TcpConnection α) : TcpConnection α :=
  { s with pendingFunctors := s.pendingFunctors ++ [f] }

def enableWriting (s : TcpConnection α) : TcpConnection α :=
  { s with reg := s.reg.enableWriting }

def disableWriting (s : TcpConnection α) : TcpConnection α :=
  { s with reg := s.reg.disableWriting }

def queueWriteComplete (s : TcpConnection α) : TcpConnection α :=
  if s.writeCompleteCallback then s.queueInLoop .writeCompleteCallback else s

def setDisconnected (s : TcpConnection α) : TcpConnection α :=
  log .disconnected { s with state := .kDisconnected, reg := s.reg.disableAll }

def handleClose (s : TcpConnection α) : TcpConnection α :=
  let s := s.setDisconnected
  if s.closeCallback then s.log .closed else s

def handleError (s : TcpConnection α) : TcpConnection α := s

def queueHighWaterMark (oldLen remaining : Nat) (s : TcpConnection α) : TcpConnection α :=
  if s.highWaterMark ≤ oldLen + remaining ∧ oldLen < s.highWaterMark ∧
      s.highWaterMarkCallback = true then
    s.queueInLoop (.highWaterMarkCallback (oldLen + remaining))
  else s

/-- The second half of `sendInLoop`: what was not sent waits in the output buffer. -/
def bufferRemaining (remaining : Bytes) (s : TcpConnection α) : TcpConnection α :=
  if 0 < remaining.length then
    let s := s.queueHighWaterMark s.outputBuffer.readableBytes remaining.length
    let s := { s with outputBuffer := s.outputBuffer.append remaining }
    if s.isWriting then s else s.enableWriting
  else s

/-- The first half of `sendInLoop`, taken when nothing waits: one `::send` of all of it. -/
def sendDirect (data : Bytes) (result : WriteResult) (s : TcpConnection α) : TcpConnection α :=
  let s := s.log (.write data result.accepted)
  match result with
  | .wrote n =>
    let s := if data.length - n = 0 then s.queueWriteComplete else s
    s.bufferRemaining (data.drop n)
  | .error errno =>
    if errno = .ePipe ∨ errno = .eConnReset then s.handleClose else s.bufferRemaining data

def sendInLoop (data : Bytes) (result : WriteResult) (s : TcpConnection α) : TcpConnection α :=
  let s := s.log (.passed data)
  if s.state = .kDisconnected then s
  else if s.isWriting = false ∧ s.outputBuffer.readableBytes = 0 then s.sendDirect data result
  else s.bufferRemaining data

def shutdownInLoop (s : TcpConnection α) : TcpConnection α :=
  if s.isWriting then s else s.log (.shutdownWrite s.state s.outputBuffer.readable)

/-- `pendingFile_ = {...}` and wait for the socket to become writable. -/
def postponeFile (fd offset : Int) (remaining : Nat) (s : TcpConnection α) : TcpConnection α :=
  enableWriting { s with pendingFile := ⟨fd, offset, remaining, true⟩ }

def sendFileInLoop (fileDescriptor offset : Int) (count : Nat) (result : WriteResult)
    (s : TcpConnection α) : TcpConnection α :=
  if s.state ≠ .kConnected then s
  else if 0 < s.outputBuffer.readableBytes ∨ s.isWriting = true then
    s.postponeFile fileDescriptor offset count
  else
    let s := s.log (.sendfile fileDescriptor offset count result.accepted)
    match result with
    | .wrote n =>
      if count - n = 0 then s.queueWriteComplete
      else s.postponeFile fileDescriptor (offset + n) (count - n)
    | .error .eWouldBlock => s.postponeFile fileDescriptor offset count
    | .error .ePipe => s.handleClose
    | .error .eConnReset => s.handleClose
    | .error (.other _) => s

def send (caller : Caller) (data : Bytes) (result : WriteResult) (s : TcpConnection α) :
    TcpConnection α :=
  if s.state ≠ .kConnected then s
  else
    match caller with
    | .loopThread => s.sendInLoop data result
    | .otherThread => s.queueInLoop (.sendInLoop data)

/-- `send(Buffer*)`; the second component is what the caller's buffer holds afterwards. -/
def sendBuffer (caller : Caller) (buf : Buffer) (result : WriteResult) (s : TcpConnection α) :
    TcpConnection α × Buffer :=
  if buf.readableBytes = 0 then (s, buf)
  else if s.state ≠ .kConnected then (s, buf)
  else
    match caller with
    | .loopThread => (s.sendInLoop buf.readable result, buf.retrieveAll)
    | .otherThread => (s.queueInLoop (.sendInLoop buf.readable), buf.retrieveAll)

def sendFile (caller : Caller) (fileDescriptor offset : Int) (count : Nat) (result : WriteResult)
    (s : TcpConnection α) : TcpConnection α :=
  if s.state ≠ .kConnected then s
  else
    match caller with
    | .loopThread => s.sendFileInLoop fileDescriptor offset count result
    | .otherThread => s.queueInLoop (.sendFileInLoop fileDescriptor offset count)

def shutdown (caller : Caller) (s : TcpConnection α) : TcpConnection α :=
  if s.state = .kConnected then
    let s := { s with state := .kDisconnecting }
    match caller with
    | .loopThread => s.shutdownInLoop
    | .otherThread => s.queueInLoop .shutdownInLoop
  else s

def connectEstablished (connectionCallback : TcpConnection α → TcpConnection α)
    (s : TcpConnection α) : TcpConnection α :=
  connectionCallback { s with state := .kConnected, reg := s.reg.enableReading }

def connectDestroyed (s : TcpConnection α) : TcpConnection α :=
  let s := if s.state = .kConnected then s.setDisconnected else s
  { s with reg := s.reg.remove }

def handleRead (result : ReadResult) (messageCallback : TcpConnection α → TcpConnection α)
    (s : TcpConnection α) : TcpConnection α :=
  let s := { s with inputBuffer := s.inputBuffer.readFd result }
  match result with
  | .data [] => s.handleClose
  | .data (_ :: _) => messageCallback s
  | .error _ => s.handleError

/-- The file part of `handleWrite`; the flag says whether the output buffer is next. -/
def continueFile (result : WriteResult) (s : TcpConnection α) : TcpConnection α × Bool :=
  let file := s.pendingFile
  if file.active = false then (s, true)
  else
    let s := s.log (.sendfile file.fd file.offset file.remaining result.accepted)
    match result with
    | .wrote n =>
      let remaining := file.remaining - n
      let s := { s with pendingFile := ⟨file.fd, file.offset + n, remaining, decide (remaining ≠ 0)⟩ }
      if remaining = 0 then
        (if s.outputBuffer.readableBytes = 0 then s.queueWriteComplete else s, true)
      else (s.enableWriting, false)
    | .error .eWouldBlock => (s.enableWriting, false)
    | .error .ePipe => (s.handleClose, false)
    | .error .eConnReset => (s.handleClose, false)
    | .error (.other _) => ({ s with pendingFile := { file with active := false } }, true)

/-- The buffer part of `handleWrite`. -/
def flushOutput (result : WriteResult) (s : TcpConnection α) : TcpConnection α :=
  if s.isWriting = false then s
  else
    let s := s.log (.write s.outputBuffer.readable result.accepted)
    let s := { s with outputBuffer := s.outputBuffer.writeFd result }
    if 0 < result.accepted then
      let s := { s with outputBuffer := s.outputBuffer.retrieve result.accepted }
      if s.outputBuffer.readableBytes = 0 then
        let s := s.disableWriting.queueWriteComplete
        if s.state = .kDisconnecting then s.shutdownInLoop else s
      else s
    else s

def handleWrite (file output : WriteResult) (s : TcpConnection α) : TcpConnection α :=
  match s.continueFile file with
  | (s, true) => s.flushOutput output
  | (s, false) => s

def callFunctor (f : ConnFunctor) (result : WriteResult) (s : TcpConnection α) : TcpConnection α :=
  match f with
  | .sendInLoop data => if s.state = .kConnected then s.sendInLoop data result else s
  | .sendFileInLoop fd offset count =>
    if s.state = .kConnected then s.sendFileInLoop fd offset count result else s
  | .shutdownInLoop => s.shutdownInLoop
  | .writeCompleteCallback => if s.writeCompleteCallback then s.log .writeComplete else s
  | .highWaterMarkCallback total => s.log (.highWaterMark total)

/-- The calls on one connection. A callback's own calls are calls of the run that follow;
what else it does, to the input buffer and to `user`, is arbitrary. -/
inductive ConnCall (α : Type) where
  | connectEstablished (user : α)
  | send (caller : Caller) (data : Bytes) (result : WriteResult)
  | sendBuffer (caller : Caller) (buf : Buffer) (result : WriteResult)
  | sendFile (caller : Caller) (fileDescriptor offset : Int) (count : Nat) (result : WriteResult)
  | shutdown (caller : Caller)
  | runFunctor (result : WriteResult) (user : α)
  | handleRead (result : ReadResult) (inputBuffer : Buffer) (user : α)
  | handleWrite (file output : WriteResult)
  | handleClose
  | handleError
  | connectDestroyed

def applyCall : ConnCall α → TcpConnection α → TcpConnection α
  | .connectEstablished user, s => s.connectEstablished fun s => { s with user }
  | .send caller data result, s => s.send caller data result
  | .sendBuffer caller buf result, s => (s.sendBuffer caller buf result).1
  | .sendFile caller fd offset count result, s => s.sendFile caller fd offset count result
  | .shutdown caller, s => s.shutdown caller
  | .runFunctor result user, s =>
    match s.pendingFunctors with
    | [] => s
    | f :: rest => { callFunctor f result { s with pendingFunctors := rest } with user }
  | .handleRead result inputBuffer user, s =>
    s.handleRead result fun s => { s with inputBuffer, user }
  | .handleWrite file output, s => s.handleWrite file output
  | .handleClose, s => s.handleClose
  | .handleError, s => s.handleError
  | .connectDestroyed, s => s.connectDestroyed

def ConnCall.IsSendFile : ConnCall α → Prop
  | .sendFile _ _ _ _ _ => True
  | _ => False

/-- One accepted connection, with any order of calls; `connectEstablished` comes once,
from `newConnection`. -/
def connSystem (α : Type) : ActionSystem (TcpConnection α) (ConnCall α) where
  init s := ∃ poller addr sockfd high write close user highWaterMark, 0 ≤ sockfd ∧
    s = { new poller addr sockfd high write close user with highWaterMark }
  permitted
    | .connectEstablished _, s => s.state = .kConnecting
    | _, _ => True
  apply := applyCall

end TcpConnection

end MuduoPlus
