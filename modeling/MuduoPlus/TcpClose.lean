import MuduoPlus.TcpSteps

namespace MuduoPlus

def epollErr : BitVec 32 := 0x008#32

def epollHup : BitVec 32 := 0x010#32

/-- The four callbacks of a channel. -/
inductive ChannelHandler where
  | close
  | error
  | read
  | write
  deriving DecidableEq, Repr

/-- `handleEventWithGuard`: the callbacks that a mask calls, in its order. -/
def handlersOf (revents : BitVec 32) : List ChannelHandler :=
  (if revents &&& epollHup ≠ 0#32 ∧ revents &&& epollIn = 0#32 then [.close] else []) ++
  (if revents &&& epollErr ≠ 0#32 then [.error] else []) ++
  (if revents &&& (epollIn ||| epollPri) ≠ 0#32 then [.read] else []) ++
  (if revents &&& epollOut ≠ 0#32 then [.write] else [])

namespace TcpConnection

variable {α : Type} {s t : TcpConnection α}

/-- How often `closeCallback_` was called. -/
def closeCalls (s : TcpConnection α) : Nat := s.trace.count .closed

theorem closeCalls_handleClose (s : TcpConnection α) :
    s.handleClose.closeCalls = s.closeCalls + s.closeCallback.toNat := by
  unfold handleClose setDisconnected
  dsimp only
  split
  next hc =>
    have hc : s.closeCallback = true := hc
    simp [closeCalls, log, List.count_append, hc]
  next hc =>
    have hc : s.closeCallback = false := by simpa [log] using hc
    simp [closeCalls, log, List.count_append, hc]

theorem handleClose_state (s : TcpConnection α) : s.handleClose.state = .kDisconnected := by
  unfold handleClose
  dsimp only
  split <;> rfl

/-- The kernel may report `revents` for the channel: it has it registered, and a hang-up and an
error need not be asked for. -/
def Reports (revents : BitVec 32) (s : TcpConnection α) : Prop :=
  ∃ i, s.reg.poller.kernel.interest.lookup s.reg.channel.fd = some i ∧
    i.ptr = s.reg.channel.addr ∧ revents &&& ~~~(i.events ||| epollHup ||| epollErr) = 0#32

/-- A handler of the channel calls this function of the connection. -/
def Handles : ChannelHandler → ConnCall α → Prop
  | .close, .handleClose => True
  | .error, .handleError => True
  | .read, .handleRead _ _ _ => True
  | .write, .handleWrite _ _ => True
  | _, _ => False

/-- What the application calls; its `shutdown` from another thread is taken in two steps. -/
def ByApplication : ConnCall α → Prop
  | .send _ _ _ => True
  | .sendBuffer _ _ _ => True
  | .sendFile _ _ _ _ _ => True
  | .shutdown .loopThread => True
  | _ => False

end TcpConnection

/-- A connection of a server: the handlers still to be called for the event at hand, the foreign
threads inside `shutdown` behind its test of `state_`, and how many of the functors
`removeConnectionInLoop` and `connectDestroyed` have run. -/
structure ServedConnection (α : Type) where
  conn : TcpConnection α
  handlers : List ChannelHandler
  shuttingDown : Nat
  removed : Nat
  destroyed : Nat

inductive ServedStep (α : Type) where
  | connectEstablished (user : α)
  | deliver (revents : BitVec 32)
  | handle (call : TcpConnection.ConnCall α)
  | application (call : TcpConnection.ConnCall α)
  | runFunctor (result : WriteResult) (user : α)
  | testShutdown
  | setDisconnecting
  | otherFile (file : PendingFile)
  | removeConnectionInLoop
  | connectDestroyed

namespace ServedConnection

open TcpConnection

variable {α : Type} {r : ServedConnection α}

def apply : ServedStep α → ServedConnection α → ServedConnection α
  | .connectEstablished user, r =>
    { r with conn := r.conn.connectEstablished fun s => { s with user } }
  | .deliver revents, r => { r with handlers := handlersOf revents }
  | .handle call, r => { r with conn := applyCall call r.conn, handlers := r.handlers.tail }
  | .application call, r => { r with conn := applyCall call r.conn }
  | .runFunctor result user, r => { r with conn := applyCall (.runFunctor result user) r.conn }
  | .testShutdown, r => { r with shuttingDown := r.shuttingDown + 1 }
  | .setDisconnecting, r =>
    let conn := { r.conn with state := .kDisconnecting }
    { r with conn := conn.queueInLoop .shutdownInLoop, shuttingDown := r.shuttingDown - 1 }
  | .otherFile file, r => { r with conn := { r.conn with pendingFile := file } }
  | .removeConnectionInLoop, r => { r with removed := r.removed + 1 }
  | .connectDestroyed, r =>
    { r with conn := r.conn.connectDestroyed, destroyed := r.destroyed + 1 }

/-- One connection of a server, kept alive by its application. Each call of `closeCallback_`
leads to one `removeConnectionInLoop`, at any later time, and that to one `connectDestroyed`, a
functor of the connection's loop like those that run between two events. -/
def system (α : Type) : ActionSystem (ServedConnection α) (ServedStep α) where
  init r := (connSystem α).init r.conn ∧ r.handlers = [] ∧ r.shuttingDown = 0 ∧ r.removed = 0 ∧
    r.destroyed = 0
  permitted
    | .connectEstablished _, r => r.conn.state = .kConnecting
    | .deliver revents, r => r.handlers = [] ∧ r.conn.Reports revents
    | .handle call, r => ∃ handler rest, r.handlers = handler :: rest ∧ Handles handler call
    | .application call, _ => ByApplication call
    | .runFunctor _ _, r => r.handlers = []
    | .testShutdown, r => r.conn.state = .kConnected
    | .setDisconnecting, r => 0 < r.shuttingDown
    | .otherFile _, _ => True
    | .removeConnectionInLoop, r => r.removed < r.conn.closeCalls
    | .connectDestroyed, r => r.handlers = [] ∧ r.destroyed < r.removed
  apply := apply

/-- A hang-up, the end of the stream and a broken file transfer reach the connection before it
is closed, and so does the second half of a `shutdown`. -/
def BeforeClose : ServedStep α → ServedConnection α → Prop
  | .handle .handleClose, r => r.conn.state ≠ .kDisconnected
  | .handle (.handleRead result _ _), r => result = .data [] → r.conn.state ≠ .kDisconnected
  | .handle (.handleWrite file _), r =>
    r.conn.pendingFile.active = true → file.Broken → r.conn.state ≠ .kDisconnected
  | .setDisconnecting, r => r.conn.state ≠ .kDisconnected
  | _, _ => True

/-- Closed at most once and for good, with `removed` calls of `closeCallback_` at least. -/
structure ClosedOnce (removed : Nat) (s : TcpConnection α) : Prop where
  once : s.closeCalls ≤ 1
  final : .disconnected ∈ s.trace ∨ .closed ∈ s.trace → s.state = .kDisconnected
  removed_le : removed ≤ s.closeCalls

section ClosedOnce

variable {removed : Nat} {s t : TcpConnection α}

/-- The trace grows by events that close nothing. -/
theorem ClosedOnce.extend (h : ClosedOnce removed s) (evs : List ConnEvent)
    (htrace : t.trace = s.trace ++ evs) (hd : .disconnected ∉ evs) (hc : .closed ∉ evs)
    (hstate : s.state = .kDisconnected → t.state = .kDisconnected) : ClosedOnce removed t := by
  have hcount : t.closeCalls = s.closeCalls := by
    rw [closeCalls, htrace, List.count_append, List.count_eq_zero_of_not_mem hc, Nat.add_zero]
    rfl
  refine ⟨?_, ?_, ?_⟩
  · rw [hcount]
    exact h.once
  · intro hm
    apply hstate
    apply h.final
    rw [htrace] at hm
    rcases hm with hm | hm
    · exact Or.inl ((List.mem_append.mp hm).resolve_right hd)
    · exact Or.inr ((List.mem_append.mp hm).resolve_right hc)
  · rw [hcount]
    exact h.removed_le

theorem ClosedOnce.writes (h : ClosedOnce removed s) (hw : Writes s t) : ClosedOnce removed t := by
  obtain ⟨evs, htrace, hno⟩ := hw.events
  refine h.extend evs htrace ?_ ?_ hw.state.trans
  · exact fun hm => hno _ hm trivial
  · exact fun hm => hno _ hm trivial

theorem ClosedOnce.of_eq (h : ClosedOnce removed s) (htrace : t.trace = s.trace)
    (hstate : s.state = .kDisconnected → t.state = .kDisconnected) : ClosedOnce removed t := by
  refine h.extend [] ?_ List.not_mem_nil List.not_mem_nil hstate
  rw [htrace, List.append_nil]

theorem ClosedOnce.halfCloses (h : ClosedOnce removed s) (hw : WritesThenHalfCloses s t) :
    ClosedOnce removed t := by
  obtain ⟨m, hm, rfl | ⟨-, rfl⟩⟩ := hw
  · exact h.writes hm
  · exact (h.writes hm).extend _ rfl (by simp) (by simp) id

theorem ClosedOnce.shutdownInLoop (h : ClosedOnce removed s) :
    ClosedOnce removed s.shutdownInLoop := by
  unfold TcpConnection.shutdownInLoop
  split
  · exact h
  · exact h.extend _ rfl (by simp) (by simp) id

/-- A connection that is not closed yet has not called `closeCallback_`. -/
theorem ClosedOnce.handleClose (h : ClosedOnce removed s) (hup : s.state ≠ .kDisconnected) :
    ClosedOnce removed s.handleClose := by
  have hnone : .closed ∉ s.trace := fun hm => hup (h.final (Or.inr hm))
  have hzero : s.closeCalls = 0 := List.count_eq_zero_of_not_mem hnone
  have hremoved := h.removed_le
  have hcalls := closeCalls_handleClose s
  have hle := s.closeCallback.toNat_le
  exact ⟨by omega, fun _ => handleClose_state s, by omega⟩

theorem ClosedOnce.closes (h : ClosedOnce removed s) (hw : WritesThenCloses s t)
    (hup : s.state ≠ .kDisconnected) : ClosedOnce removed t := by
  obtain ⟨m, hm, rfl⟩ := hw
  refine (h.writes hm).handleClose ?_
  rw [hm.state]
  exact hup

theorem ClosedOnce.sendInLoop (h : ClosedOnce removed s) (hup : s.state ≠ .kDisconnected)
    (data : Bytes) (result : WriteResult) : ClosedOnce removed (s.sendInLoop data result) := by
  have hp := h.writes (writes_log s (e := .passed data) id)
  rcases sendInLoop_cases s data result with hw | ⟨-, hw⟩
  · exact hp.writes hw
  · exact hp.closes hw hup

theorem ClosedOnce.sendFileInLoop (h : ClosedOnce removed s) (hup : s.state ≠ .kDisconnected)
    (fd offset : Int) (count : Nat) (result : WriteResult) :
    ClosedOnce removed (s.sendFileInLoop fd offset count result) := by
  rcases sendFileInLoop_cases s fd offset count result with hw | ⟨-, hw⟩
  · exact h.writes hw
  · exact h.closes hw hup

theorem up_of_connected (h : s.state = .kConnected) : s.state ≠ .kDisconnected := by
  intro hd
  rw [h] at hd
  cases hd

theorem ClosedOnce.callFunctor (h : ClosedOnce removed s) (f : ConnFunctor) (result : WriteResult) :
    ClosedOnce removed (s.callFunctor f result) := by
  unfold TcpConnection.callFunctor
  cases f with
  | sendInLoop data =>
    dsimp only
    split
    next hc => exact h.sendInLoop (up_of_connected hc) data result
    next => exact h
  | sendFileInLoop fd offset count =>
    dsimp only
    split
    next hc => exact h.sendFileInLoop (up_of_connected hc) fd offset count result
    next => exact h
  | shutdownInLoop => exact h.shutdownInLoop
  | writeCompleteCallback =>
    dsimp only
    split
    · exact h.writes (writes_log s id)
    · exact h
  | highWaterMarkCallback total => exact h.writes (writes_log s id)

theorem ClosedOnce.runFunctor (h : ClosedOnce removed s) (result : WriteResult) (user : α) :
    ClosedOnce removed (applyCall (.runFunctor result user) s) := by
  unfold applyCall
  dsimp only
  split
  next => exact h
  next f rest _ =>
    have hpop : ClosedOnce removed { s with pendingFunctors := rest } := h.of_eq rfl id
    exact (hpop.callFunctor f result).of_eq rfl id

/-- Whatever the application calls tests `state_` first. -/
theorem ClosedOnce.application (h : ClosedOnce removed s) {call : ConnCall α}
    (hp : ByApplication call) : ClosedOnce removed (applyCall call s) := by
  cases call with
  | send caller data result =>
    show ClosedOnce removed (s.send caller data result)
    unfold TcpConnection.send
    split
    next => exact h
    next hc =>
      cases caller with
      | loopThread => exact h.sendInLoop (up_of_connected (not_not.mp hc)) data result
      | otherThread => exact h.of_eq rfl id
  | sendBuffer caller buf result =>
    show ClosedOnce removed (s.sendBuffer caller buf result).1
    unfold TcpConnection.sendBuffer
    split
    next => exact h
    next =>
      split
      next => exact h
      next hc =>
        cases caller with
        | loopThread => exact h.sendInLoop (up_of_connected (not_not.mp hc)) _ result
        | otherThread => exact h.of_eq rfl id
  | sendFile caller fd offset count result =>
    show ClosedOnce removed (s.sendFile caller fd offset count result)
    unfold TcpConnection.sendFile
    split
    next => exact h
    next hc =>
      cases caller with
      | loopThread =>
        exact h.sendFileInLoop (up_of_connected (not_not.mp hc)) fd offset count result
      | otherThread => exact h.of_eq rfl id
  | shutdown caller =>
    cases caller with
    | loopThread =>
      show ClosedOnce removed (s.shutdown .loopThread)
      unfold TcpConnection.shutdown
      split
      next hc =>
        have hset : ClosedOnce removed { s with state := .kDisconnecting } :=
          h.of_eq rfl fun hd => absurd hd (up_of_connected hc)
        exact hset.shutdownInLoop
      next => exact h
    | otherThread => exact hp.elim
  | connectEstablished user => exact hp.elim
  | runFunctor result user => exact hp.elim
  | handleRead result inputBuffer user => exact hp.elim
  | handleWrite file output => exact hp.elim
  | handleClose => exact hp.elim
  | handleError => exact hp.elim
  | connectDestroyed => exact hp.elim

theorem ClosedOnce.handleRead (h : ClosedOnce removed s) {result : ReadResult}
    (hup : result = .data [] → s.state ≠ .kDisconnected) (inputBuffer : Buffer) (user : α) :
    ClosedOnce removed (applyCall (.handleRead result inputBuffer user) s) := by
  have hread : ClosedOnce removed { s with inputBuffer := s.inputBuffer.readFd result } :=
    h.of_eq rfl id
  unfold applyCall TcpConnection.handleRead
  dsimp only
  split
  · exact hread.handleClose (hup rfl)
  · exact hread.of_eq rfl id
  · exact hread

theorem ClosedOnce.handleWrite (h : ClosedOnce removed s) {file output : WriteResult}
    (hup : s.pendingFile.active = true → file.Broken → s.state ≠ .kDisconnected) :
    ClosedOnce removed (s.handleWrite file output) := by
  rcases handleWrite_cases s file output with hw | ⟨hact, hbroken, hw⟩
  · exact h.halfCloses hw
  · exact h.closes hw (hup hact hbroken)

end ClosedOnce

/-- The next handler of the event at hand, under the condition. -/
theorem ClosedOnce.handle {handler : ChannelHandler} {call : ConnCall α}
    (h : ClosedOnce r.removed r.conn) (hp : Handles handler call)
    (hup : BeforeClose (.handle call) r) : ClosedOnce r.removed (applyCall call r.conn) := by
  cases handler with
  | close =>
    cases call with
    | handleClose => exact h.handleClose hup
    | _ => exact hp.elim
  | error =>
    cases call with
    | handleError => exact h
    | _ => exact hp.elim
  | read =>
    cases call with
    | handleRead result inputBuffer user => exact h.handleRead hup inputBuffer user
    | _ => exact hp.elim
  | write =>
    cases call with
    | handleWrite file output => exact h.handleWrite hup
    | _ => exact hp.elim

/-- The functors of the server come after the close, so the connection is down by then. -/
structure Inv (r : ServedConnection α) : Prop where
  closed : ClosedOnce r.removed r.conn
  destroyed_le : r.destroyed ≤ r.removed

theorem Inv.init (h : (system α).init r) : Inv r := by
  obtain ⟨⟨poller, addr, sockfd, high, write, close, user, mark, -, hconn⟩, -, -, hremoved,
    hdestroyed⟩ := h
  have htrace : r.conn.trace = [] := by
    rw [hconn]
    rfl
  refine ⟨⟨?_, ?_, ?_⟩, ?_⟩
  · rw [closeCalls, htrace]
    exact Nat.zero_le 1
  · rw [htrace]
    intro hm
    rcases hm with hm | hm <;> cases hm
  · omega
  · omega

theorem Inv.connectDestroyed (h : Inv r) (hp : r.destroyed < r.removed) :
    Inv (apply .connectDestroyed r) := by
  have hremoved := h.closed.removed_le
  have hdown : r.conn.state = .kDisconnected := by
    apply h.closed.final
    refine Or.inr (List.count_pos_iff.mp ?_)
    show 0 < r.conn.closeCalls
    omega
  have hclosed : ClosedOnce r.removed r.conn.connectDestroyed := by
    unfold TcpConnection.connectDestroyed
    rw [if_neg (by simp [hdown])]
    exact h.closed.of_eq rfl id
  exact ⟨hclosed, hp⟩

theorem Inv.apply {step : ServedStep α} (hp : ((system α).restrict BeforeClose).permitted step r)
    (h : Inv r) : Inv (apply step r) := by
  obtain ⟨hp, hup⟩ := hp
  cases step with
  | connectEstablished user =>
    refine ⟨h.closed.of_eq rfl fun hd => ?_, h.destroyed_le⟩
    have hk : r.conn.state = .kConnecting := hp
    rw [hk] at hd
    cases hd
  | deliver revents => exact ⟨h.closed, h.destroyed_le⟩
  | handle call =>
    obtain ⟨handler, rest, -, hcall⟩ := hp
    exact ⟨h.closed.handle hcall hup, h.destroyed_le⟩
  | application call => exact ⟨h.closed.application hp, h.destroyed_le⟩
  | runFunctor result user => exact ⟨h.closed.runFunctor result user, h.destroyed_le⟩
  | testShutdown => exact ⟨h.closed, h.destroyed_le⟩
  | setDisconnecting => exact ⟨h.closed.of_eq rfl fun hd => absurd hd hup, h.destroyed_le⟩
  | otherFile file => exact ⟨h.closed.of_eq rfl id, h.destroyed_le⟩
  | removeConnectionInLoop =>
    exact ⟨⟨h.closed.once, h.closed.final, hp⟩, Nat.le_succ_of_le h.destroyed_le⟩
  | connectDestroyed => exact h.connectDestroyed hp.2

/-- When nothing that closes reaches a closed connection, it is closed once and for good. -/
theorem closed_once_of_beforeClose (h : ((system α).restrict BeforeClose).Reachable r) :
    r.conn.closeCalls ≤ 1 ∧ (.disconnected ∈ r.conn.trace → r.conn.state = .kDisconnected) := by
  have hi : Inv r := h.invariant (fun _ => Inv.init) (fun _ _ hp hi => hi.apply hp)
  exact ⟨hi.closed.once, fun hm => hi.closed.final (Or.inl hm)⟩

def accepted : ServedConnection Unit := ⟨new ⟨∅, ⟨{5}, ∅⟩⟩ 1 5 false true true (), [], 0, 0, 0⟩

theorem accepted_init : (system Unit).init accepted :=
  ⟨⟨_, _, _, _, _, _, _, _, by decide, rfl⟩, rfl, rfl, rfl, rfl⟩

/-- A request, then the end of the stream, and the server's functors. -/
def politeSteps : List (ServedStep Unit) := [
  .connectEstablished (), .deliver epollIn, .handle (.handleRead (.data [1]) (Buffer.new 8) ()),
  .application (.send .loopThread [2] (.wrote 1)), .deliver epollIn,
  .handle (.handleRead (.data []) (Buffer.new 8) ()), .removeConnectionInLoop, .connectDestroyed]

theorem closed_once_of_beforeClose_polite :
    let r := (system Unit).run politeSteps accepted
    r.conn.state = .kDisconnected ∧ r.conn.closeCalls ≤ 1 := by
  intro r
  have h0 : ((system Unit).restrict BeforeClose).Reachable accepted := .init accepted_init
  have hp : ((system Unit).restrict BeforeClose).Permits politeSteps accepted := by
    refine ⟨⟨rfl, trivial⟩, ⟨⟨rfl, ⟨kReadEvent, 1⟩, ?_, ?_, ?_⟩, trivial⟩,
      ⟨⟨.read, [], ?_, trivial⟩, fun he => nomatch he⟩, ⟨trivial, trivial⟩,
      ⟨⟨?_, ⟨kReadEvent, 1⟩, ?_, ?_, ?_⟩, trivial⟩,
      ⟨⟨.read, [], ?_, trivial⟩, fun _ => up_of_connected ?_⟩, ⟨?_, trivial⟩, ⟨⟨?_, ?_⟩, trivial⟩, trivial⟩
    all_goals first | decide +kernel | (show (_ : Nat) < _; decide +kernel)
  exact ⟨by decide +kernel, (closed_once_of_beforeClose (h0.run hp)).1⟩

/-- A hang-up, the server's functors, and another hang-up. -/
def hangUpTwice : List (ServedStep Unit) := [
  .connectEstablished (), .deliver epollHup, .handle .handleClose, .removeConnectionInLoop,
  .connectDestroyed, .deliver epollHup, .handle .handleClose]

/-- A hang-up with urgent data pending, on which the read returns 0. -/
def hangUpUrgent : List (ServedStep Unit) := [
  .connectEstablished (), .deliver (epollHup ||| epollPri), .handle .handleClose,
  .handle (.handleRead (.data []) (Buffer.new 8) ())]

/-- The removed channel is in the epoll set again, so the hang-up is reported once more; and one
mask can call both the close and the read handler. -/
theorem closed_twice : ∃ r r' : ServedConnection Unit,
    (system Unit).Reachable r ∧ r.conn.closeCalls = 2 ∧
      (system Unit).Reachable r' ∧ r'.conn.closeCalls = 2 ∧ r'.removed = 0 := by
  have h0 : (system Unit).Reachable accepted := .init accepted_init
  have hp : (system Unit).Permits hangUpTwice accepted := by
    refine ⟨rfl, ⟨rfl, ⟨kReadEvent, 1⟩, ?_, ?_, ?_⟩, ⟨.close, [], ?_, trivial⟩, ?_, ⟨?_, ?_⟩,
      ⟨?_, ⟨kNoneEvent, 1⟩, ?_, ?_, ?_⟩, ⟨.close, [], ?_, trivial⟩, trivial⟩
    all_goals first | decide +kernel | (show (_ : Nat) < _; decide +kernel)
  have hp' : (system Unit).Permits hangUpUrgent accepted := by
    refine ⟨rfl, ⟨rfl, ⟨kReadEvent, 1⟩, ?_, ?_, ?_⟩, ⟨.close, [.read], ?_, trivial⟩,
      ⟨.read, [], ?_, trivial⟩, trivial⟩
    all_goals decide +kernel
  refine ⟨_, _, h0.run hp, ?_, h0.run hp', ?_⟩
  · decide +kernel
  · decide +kernel

end ServedConnection

end MuduoPlus
