import MuduoPlus.NumberText
import MuduoPlus.TcpClose

namespace MuduoPlus

structure InetAddress where
  octets : UInt8 × UInt8 × UInt8 × UInt8
  port : UInt16

namespace InetAddress

/-- `inet_ntop` for IPv4. -/
def toIp (a : InetAddress) : Bytes :=
  decimal a.octets.1.toNat ++ ascii "." ++ decimal a.octets.2.1.toNat ++ ascii "." ++
    decimal a.octets.2.2.1.toNat ++ ascii "." ++ decimal a.octets.2.2.2.toNat

def toIpPort (a : InetAddress) : Bytes := a.toIp ++ ascii ":" ++ decimal a.port.toNat

end InetAddress

/-- The loops of a server: its own and those of its threads. -/
inductive LoopId where
  | main
  | sub (i : Nat)
  deriving DecidableEq, Repr

/-- `loops_` by its size, and `next_`. -/
structure EventLoopThreadPool where
  loops : Nat
  next : Nat

namespace EventLoopThreadPool

def getNextLoop (p : EventLoopThreadPool) : LoopId × EventLoopThreadPool :=
  if p.loops = 0 then (.main, p)
  else (.sub p.next, { p with next := if p.loops ≤ p.next + 1 then 0 else p.next + 1 })

end EventLoopThreadPool

/-- What a server puts into its loops, for the connection accepted as number `conn`. -/
inductive ServerFunctor where
  | connectEstablished (conn : Nat)
  | removeConnectionInLoop (conn : Nat)
  | connectDestroyed (conn : Nat)
  deriving DecidableEq, Repr

/-- What happens to the connections of a server, in order; `destroyed` names the loop that ran
the functor. -/
inductive ServerEvent where
  | established (conn : Nat)
  | callback (conn : Nat)
  | erased (conn : Nat)
  | destroyed (conn : Nat) (loop : LoopId)
  deriving DecidableEq, Repr

/-- A connection object, with the loop it was given. -/
structure ServerConnection where
  name : Bytes
  loop : LoopId
  served : ServedConnection Unit

/-- A server with all connections it ever accepted; `connections` is `connections_`, with the
numbers of the connections for the pointers. -/
structure TcpServer where
  name : Bytes
  ipPort : Bytes
  threadPool : EventLoopThreadPool
  nextConnId : BitVec 32
  accepted : List ServerConnection
  connections : Finmap (fun _ : Bytes => Nat)
  pending : LoopId → List ServerFunctor
  log : List ServerEvent

/-- The event is a callback of the connection's channel. -/
def ServedStep.isHandler : ServedStep Unit → Bool
  | .handle _ => true
  | _ => false

namespace TcpServer

def new (listenAddr : InetAddress) (nameArg : Bytes) (loops : Nat) : TcpServer where
  name := nameArg
  ipPort := listenAddr.toIpPort
  threadPool := ⟨loops, 0⟩
  nextConnId := 1#32
  accepted := []
  connections := ∅
  pending _ := []
  log := []

/-- `name_ + buf`, with `snprintf` writing at most 63 characters of `"-%s#%d"`. -/
def connName (s : TcpServer) (connId : BitVec 32) : Bytes :=
  s.name ++ (ascii "-" ++ s.ipPort ++ ascii "#" ++ decimalInt connId.toInt).take 63

def record (e : ServerEvent) (s : TcpServer) : TcpServer := { s with log := s.log ++ [e] }

def queueInLoop (loop : LoopId) (f : ServerFunctor) (s : TcpServer) : TcpServer :=
  { s with pending := Function.update s.pending loop (s.pending loop ++ [f]) }

def setServed (c : Nat) (served : ServedConnection Unit) (s : TcpServer) : TcpServer :=
  { s with accepted := s.accepted.modify c fun k => { k with served } }

/-- One of the functions of a connection that its server's functors call. -/
def serve (c : Nat) (step : ServedStep Unit) (s : TcpServer) : TcpServer :=
  match s.accepted[c]? with
  | none => s
  | some k => s.setServed c (ServedConnection.apply step k.served)

def connectEstablished (c : Nat) (s : TcpServer) : TcpServer :=
  (s.record (.established c)).serve c (.connectEstablished ())

def connectDestroyed (loop : LoopId) (c : Nat) (s : TcpServer) : TcpServer :=
  (s.record (.destroyed c loop)).serve c .connectDestroyed

def removeConnectionInLoop (c : Nat) (s : TcpServer) : TcpServer :=
  match s.accepted[c]? with
  | none => s
  | some k =>
    let s := { s with connections := s.connections.erase k.name }
    ((s.record (.erased c)).serve c .removeConnectionInLoop).queueInLoop k.loop (.connectDestroyed c)

/-- `closeCallback_`, in the thread of `loop`: `runInLoop` of the server's loop. -/
def removeConnection (loop : LoopId) (c : Nat) (s : TcpServer) : TcpServer :=
  match loop with
  | .main => s.removeConnectionInLoop c
  | .sub _ => s.queueInLoop .main (.removeConnectionInLoop c)

/-- `newConnection`, called by the acceptor in the server's loop; `poller` is that of the loop
that the connection is given. -/
def newConnection (poller : EPollPoller) (addr : Nat) (sockfd : Int) (writeComplete : Bool)
    (s : TcpServer) : TcpServer :=
  let ioLoop := s.threadPool.getNextLoop.1
  let c := s.accepted.length
  let connName := s.connName s.nextConnId
  let conn := TcpConnection.new poller addr sockfd false writeComplete true ()
  let k : ServerConnection := ⟨connName, ioLoop, conn, [], 0, 0, 0⟩
  let s := { s with
    threadPool := s.threadPool.getNextLoop.2
    nextConnId := s.nextConnId + 1#32
    accepted := s.accepted ++ [k]
    connections := s.connections.insert connName c }
  match ioLoop with
  | .main => s.connectEstablished c
  | .sub i => s.queueInLoop (.sub i) (.connectEstablished c)

/-- A step of a connection outside the server's functors. Each time it calls `closeCallback_`,
the server is told in the same thread. -/
def connStep (c : Nat) (step : ServedStep Unit) (s : TcpServer) : TcpServer :=
  match s.accepted[c]? with
  | none => s
  | some k =>
    let served := ServedConnection.apply step k.served
    let s := if step.isHandler then s.record (.callback c) else s
    (removeConnection k.loop c)^[served.conn.closeCalls - k.served.conn.closeCalls]
      (s.setServed c served)

def callFunctor (loop : LoopId) (f : ServerFunctor) (s : TcpServer) : TcpServer :=
  match f with
  | .connectEstablished c => s.connectEstablished c
  | .removeConnectionInLoop c => s.removeConnectionInLoop c
  | .connectDestroyed c => s.connectDestroyed loop c

/-- The oldest functor of a loop. -/
def runFunctor (loop : LoopId) (s : TcpServer) : TcpServer :=
  match s.pending loop with
  | [] => s
  | f :: rest => callFunctor loop f { s with pending := Function.update s.pending loop rest }

/-- No event of a connection of this loop is being handled. -/
def Idle (loop : LoopId) (s : TcpServer) : Prop :=
  ∀ k ∈ s.accepted, k.loop = loop → k.served.handlers = []

end TcpServer

inductive ServerAction where
  | accept (poller : EPollPoller) (addr : Nat) (sockfd : Int) (writeComplete : Bool)
  | run (loop : LoopId)
  | conn (c : Nat) (step : ServedStep Unit)

/-- The steps of a connection that are not functors of its server. -/
def ServedStep.Own : ServedStep Unit → Prop
  | .connectEstablished _ => False
  | .removeConnectionInLoop => False
  | .connectDestroyed => False
  | _ => True

namespace TcpServer

/-- A server that is not destroyed, with its loops in any interleaving. The kernel hands out
descriptors that no poller has, fewer than `2^31` connections are accepted, and no
`closeCallback_` is called twice. -/
def system : ActionSystem TcpServer ServerAction where
  init s := ∃ listenAddr nameArg loops, s = new listenAddr nameArg loops
  permitted
    | .accept poller _ sockfd _, s => s.accepted.length + 1 < 2 ^ 31 ∧ 0 ≤ sockfd ∧
      sockfd ∈ poller.kernel.openFds ∧ sockfd ∉ poller.kernel.interest
    | .run loop, s => s.pending loop ≠ [] ∧ s.Idle loop
    | .conn c step, s => ∃ k, s.accepted[c]? = some k ∧ step.Own ∧
      (ServedConnection.system Unit).permitted step k.served ∧
      (ServedConnection.apply step k.served).conn.closeCalls ≤ 1
  apply
    | .accept poller addr sockfd writeComplete, s => s.newConnection poller addr sockfd writeComplete
    | .run loop, s => s.runFunctor loop
    | .conn c step, s => s.connStep c step

end TcpServer

end MuduoPlus
