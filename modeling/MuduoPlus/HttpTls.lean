import MuduoPlus.HttpServerSpec
import MuduoPlus.TcpOutput
import MuduoPlus.TlsPump

namespace MuduoPlus

namespace TcpConnection

variable {α : Type} {s : TcpConnection α}

/-- A user's part does not count among the bytes passed to a connection. -/
theorem passedBytes_congr {t : TcpConnection α} (h : t.trace = s.trace) :
    t.passedBytes = s.passedBytes := by
  rw [passedBytes, h, passedBytes]

theorem passedBytes_log (e : ConnEvent) : (s.log e).passedBytes = s.passedBytes ++ e.given := by
  simp [passedBytes, log]

theorem handleClose_passedBytes : s.handleClose.passedBytes = s.passedBytes := by
  unfold handleClose setDisconnected
  dsimp only
  split
  · rw [passedBytes_log, passedBytes_log]
    simp [ConnEvent.given, passedBytes]
  · rw [passedBytes_log]
    simp [ConnEvent.given, passedBytes]

theorem queueWriteComplete_trace : s.queueWriteComplete.trace = s.trace :=
  congrArg Prod.snd queueWriteComplete_keeps

theorem bufferRemaining_trace (remaining : Bytes) : (s.bufferRemaining remaining).trace = s.trace :=
  congrArg Prod.snd (bufferRemaining_keeps remaining)

theorem sendDirect_passedBytes (data : Bytes) (result : WriteResult) :
    (s.sendDirect data result).passedBytes = s.passedBytes := by
  have hwrite : (s.log (.write data result.accepted)).passedBytes = s.passedBytes := by
    rw [passedBytes_log]
    exact List.append_nil _
  unfold sendDirect
  cases result with
  | wrote n =>
    dsimp only
    rw [passedBytes_congr (bufferRemaining_trace _)]
    split
    · rw [passedBytes_congr queueWriteComplete_trace]
      exact hwrite
    · exact hwrite
  | error errno =>
    dsimp only
    split
    · rw [handleClose_passedBytes]
      exact hwrite
    · rw [passedBytes_congr (bufferRemaining_trace _)]
      exact hwrite

theorem sendInLoop_passedBytes (data : Bytes) (result : WriteResult) :
    (s.sendInLoop data result).passedBytes = s.passedBytes ++ data := by
  have hpassed : (s.log (.passed data)).passedBytes = s.passedBytes ++ data := passedBytes_log _
  unfold sendInLoop
  dsimp only
  split
  · exact hpassed
  · split
    · rw [sendDirect_passedBytes]
      exact hpassed
    · rw [passedBytes_congr (bufferRemaining_trace _)]
      exact hpassed

theorem shutdown_passedBytes : (s.shutdown .loopThread).passedBytes = s.passedBytes := by
  unfold shutdown
  split
  · dsimp only
    unfold shutdownInLoop
    split
    · rfl
    · rw [passedBytes_log]
      exact List.append_nil _
  · rfl

end TcpConnection

namespace HttpServer

variable {σ : Type}

def badRequest : HttpResponse :=
  ((HttpResponse.new false).setStatusCode .k400BadRequest).setStatusMessage (ascii "Bad Request")

def serialized (resp : HttpResponse) : Bytes :=
  (resp.appendToBuffer (Buffer.new kInitialSize)).readable

/-- The response that `handleHttpRequest` sends. -/
def answerTo (app : HttpApp σ) (req : HttpRequest) (s : HttpConn σ) : HttpResponse :=
  let close := decide (req.getHeader (ascii "Connection") = ascii "close")
  (app.respond ⟨req, HttpResponse.new close, s.user.app, s.user.log ++ [.dispatched req]⟩).response

/-- What `onPlainMessage` passes to `TcpConnection::send`. -/
def plainSends (app : HttpApp σ) (buf : Buffer) (ts : Timestamp) (s : HttpConn σ) : List Bytes :=
  let p := (contextOf s).parseRequest buf ts
  match p.ret with
  | .error _ => []
  | .ok false => [serialized badRequest]
  | .ok true =>
    if p.ctx.gotAll then [serialized (answerTo app p.ctx.request (setContext p.ctx s))] else []

end HttpServer

/-- A connection of a server with TLS. `tls` is the `TLSConnection` that its context holds, while
it holds one; `sends` are the arguments of the calls of `TcpConnection::send`, `drained` what was
read out of `writeBio_`, both in order. -/
structure HttpsConn (σ τ : Type) where
  conn : HttpConn σ
  tls : Option (TlsConnection τ)
  sends : List Bytes
  drained : List Bytes

/-- The server's callbacks on one connection; `chunk` is what `handleRead` put into the input
buffer before. `tlsSend` is `TLSConnection::send`. `kernel` answers the calls of `::send` by their
number. Between them, everything of the connection but its context may change. -/
inductive HttpsCall (σ τ : Type) where
  | onConnection (ssl : τ) (kernel : Nat → WriteResult)
  | onMessage (chunk : Bytes) (ts : Timestamp) (kernel : Nat → WriteResult)
  | onPlainMessage (buf : Buffer) (ts : Timestamp) (kernel : Nat → WriteResult)
  | tlsSend (data : Bytes) (kernel : Nat → WriteResult)
  | elsewhere (conn : HttpConn σ)

namespace HttpsConn

open HttpServer

variable {σ τ : Type}

def withContext (context : ConnContext) (conn : HttpConn σ) : HttpConn σ :=
  { conn with user := { conn.user with context } }

/-- `onPlainMessage`; where the context was a `TLSConnection` it is an `HttpContext` afterwards. -/
def plainMessage (app : HttpApp σ) (buf : Buffer) (ts : Timestamp) (kernel : Nat → WriteResult)
    (s : HttpsConn σ τ) : HttpsConn σ τ × Buffer :=
  let (conn, buf') := HttpServer.onPlainMessage app buf ts (kernel s.sends.length) s.conn
  ({ s with conn, tls := none, sends := s.sends ++ plainSends app buf ts s.conn }, buf')

/-- The buffer that `onRead` makes for the plaintext. -/
def decryptedBuffer (data : Bytes) : Buffer := (Buffer.new kInitialSize).append data

/-- What a `TLSConnection` does to the rest; its message callback is `onPlainMessage`. -/
def perform (app : HttpApp σ) (ts : Timestamp) (kernel : Nat → WriteResult) (s : HttpsConn σ τ) :
    TlsEvent → HttpsConn σ τ
  | .send data =>
    { s with conn := s.conn.send .loopThread data (kernel s.sends.length),
             sends := s.sends ++ [data] }
  | .shutdown => { s with conn := s.conn.shutdown .loopThread }
  | .message data => (s.plainMessage app (decryptedBuffer data) ts kernel).1
  | .drained data => { s with drained := s.drained ++ [data] }
  | .fed _ => s
  | .produced _ => s
  | .plaintext _ => s

variable (lib : OpenSsl τ) (app : HttpApp σ)

/-- `onConnection` with `useTLS_`. -/
def onConnection (ssl : τ) (kernel : Nat → WriteResult) (s : HttpsConn σ τ) : HttpsConn σ τ :=
  if s.conn.state = .kConnected then
    let (t, events) := (TlsConnection.new lib ssl true).startHandshake lib
    events.foldl (perform app 0 kernel) { s with conn := withContext .other s.conn, tls := some t }
  else { s with conn := withContext .empty s.conn, tls := none }

/-- `onMessage` with `useTLS_`: a context that is no `TLSConnection` takes the plain path. -/
def onMessage (ts : Timestamp) (kernel : Nat → WriteResult) (s : HttpsConn σ τ) : HttpsConn σ τ :=
  match s.tls with
  | some t =>
    let (t, events, inputBuffer) := t.onRead lib s.conn.inputBuffer
    events.foldl (perform app ts kernel) { s with conn := { s.conn with inputBuffer }, tls := some t }
  | none =>
    let (s, inputBuffer) := s.plainMessage app s.conn.inputBuffer ts kernel
    { s with conn := { s.conn with inputBuffer } }

def tlsSend (data : Bytes) (kernel : Nat → WriteResult) (s : HttpsConn σ τ) : HttpsConn σ τ :=
  match s.tls with
  | some t =>
    let (t, events) := t.send lib data
    events.foldl (perform app 0 kernel) { s with tls := some t }
  | none => s

/-- The connection when `handleRead` calls the message callback. -/
def arrived (chunk : Bytes) (s : HttpsConn σ τ) : HttpsConn σ τ :=
  { s with conn := { s.conn with inputBuffer := s.conn.inputBuffer.readFd (.data chunk) } }

def apply : HttpsCall σ τ → HttpsConn σ τ → HttpsConn σ τ
  | .onConnection ssl kernel, s => s.onConnection lib app ssl kernel
  | .onMessage chunk ts kernel, s => (s.arrived chunk).onMessage lib app ts kernel
  | .onPlainMessage buf ts kernel, s => (s.plainMessage app buf ts kernel).1
  | .tlsSend data kernel, s => s.tlsSend lib app data kernel
  | .elsewhere conn, s => { s with conn := withContext s.conn.user.context conn }

/-- Any calls on a new connection. -/
def system : ActionSystem (HttpsConn σ τ) (HttpsCall σ τ) where
  init s := s.conn.user.context = .empty ∧ s.tls = none ∧ s.sends = [] ∧ s.drained = []
  permitted _ _ := True
  apply := apply lib app

/-- The parser neither completes a request nor refuses one. -/
def Unanswered (context : HttpContext) (buf : Buffer) (ts : Timestamp) : Prop :=
  (context.parseRequest buf ts).stop ≠ some .gotAll ∧
    (context.parseRequest buf ts).stop ≠ some .refused

/-- What `onRead` would hand to the message callback. -/
def plaintextOf (t : TlsConnection τ) : Option Bytes :=
  if t.state = .ESTABLISHED then (lib.read t.ssl t.readBio kTlsChunk).ret else none

/-- The call gives the parser nothing that the server answers. -/
def NoAnswer : HttpsCall σ τ → HttpsConn σ τ → Prop
  | .onMessage chunk ts _, s =>
    (∀ t ∈ s.tls, ∀ data ∈ plaintextOf lib t,
      Unanswered (contextOf s.conn) (decryptedBuffer data) ts) ∧
    (s.tls = none → Unanswered (contextOf s.conn) (s.conn.inputBuffer.readFd (.data chunk)) ts)
  | .onPlainMessage buf ts _, s => Unanswered (contextOf s.conn) buf ts
  | _, _ => True

section Step

variable {lib app} {s : HttpsConn σ τ}

theorem plainSends_unanswered {buf : Buffer} {ts : Timestamp} {conn : HttpConn σ}
    (h : Unanswered (contextOf conn) buf ts) : plainSends app buf ts conn = [] := by
  unfold Unanswered HttpContext.ParseResult.stop at h
  unfold plainSends
  generalize (contextOf conn).parseRequest buf ts = p at h
  obtain ⟨ret, ctx, buf'⟩ := p
  cases ret with
  | error e => rfl
  | ok flag =>
    cases flag with
    | false => exact absurd rfl h.2
    | true =>
      cases hgot : ctx.gotAll with
      | false => simp [hgot]
      | true =>
        have hstop := h.1
        simp [hgot] at hstop

/-- Nothing was sent but what came out of `writeBio_`. -/
def FromBio (s : HttpsConn σ τ) : Prop := s.sends = s.drained

theorem FromBio.plainMessage (h : FromBio s) {buf : Buffer} {ts : Timestamp}
    (hno : Unanswered (contextOf s.conn) buf ts) (kernel : Nat → WriteResult) :
    FromBio (s.plainMessage app buf ts kernel).1 := by
  change s.sends ++ plainSends app buf ts s.conn = s.drained
  rw [plainSends_unanswered hno, List.append_nil]
  exact h

/-- The events of a `TLSConnection` that concern neither. -/
def Silent : TlsEvent → Prop
  | .fed _ => True
  | .produced _ => True
  | .shutdown => True
  | .plaintext _ => True
  | _ => False

theorem perform_silent (app : HttpApp σ) {e : TlsEvent} (he : Silent e) (ts : Timestamp)
    (kernel : Nat → WriteResult) (s : HttpsConn σ τ) :
    perform app ts kernel s e = s ∨
      perform app ts kernel s e = { s with conn := s.conn.shutdown .loopThread } := by
  cases e with
  | fed data => exact Or.inl rfl
  | produced data => exact Or.inl rfl
  | shutdown => exact Or.inr rfl
  | plaintext data => exact Or.inl rfl
  | drained data => exact he.elim
  | send data => exact he.elim
  | message data => exact he.elim

theorem FromBio.perform_silent (h : FromBio s) {e : TlsEvent} (he : Silent e) (ts : Timestamp)
    (kernel : Nat → WriteResult) : FromBio (perform app ts kernel s e) := by
  rcases HttpsConn.perform_silent app he ts kernel s with hs | hs
  · rw [hs]
    exact h
  · rw [hs]
    exact h

theorem FromBio.foldl_silent (h : FromBio s) {events : List TlsEvent}
    (hevents : ∀ e ∈ events, Silent e) (ts : Timestamp) (kernel : Nat → WriteResult) :
    FromBio (events.foldl (perform app ts kernel) s) := by
  induction events generalizing s with
  | nil => exact h
  | cons e events ih =>
    exact ih (h.perform_silent (hevents e List.mem_cons_self) ts kernel)
      fun e' he' => hevents e' (List.mem_cons_of_mem e he')

theorem perform_silent_context {e : TlsEvent} (he : Silent e) (ts : Timestamp)
    (kernel : Nat → WriteResult) (s : HttpsConn σ τ) :
    contextOf (perform app ts kernel s e).conn = contextOf s.conn := by
  rcases perform_silent app he ts kernel s with hs | hs
  · rw [hs]
  · have huser : (s.conn.shutdown .loopThread).user = s.conn.user :=
      congrArg Prod.snd TcpConnection.shutdown_received
    rw [hs]
    simp only [contextOf, huser]

theorem foldl_silent_context {events : List TlsEvent} (hevents : ∀ e ∈ events, Silent e)
    (ts : Timestamp) (kernel : Nat → WriteResult) (s : HttpsConn σ τ) :
    contextOf (events.foldl (perform app ts kernel) s).conn = contextOf s.conn := by
  induction events generalizing s with
  | nil => rfl
  | cons e events ih =>
    rw [List.foldl_cons, ih fun e' he' => hevents e' (List.mem_cons_of_mem e he')]
    exact perform_silent_context (hevents e List.mem_cons_self) ts kernel s

theorem handleHandshake_silent (t : TlsConnection τ) :
    ∀ e ∈ (t.handleHandshake lib).2, Silent e := by
  intro e he
  unfold TlsConnection.handleHandshake at he
  dsimp only at he
  split at he
  · rw [List.mem_singleton.mp he]
    trivial
  · rw [List.mem_singleton.mp he]
    trivial
  · rcases List.mem_cons.mp he with rfl | he
    · trivial
    · rw [List.mem_singleton.mp he]
      trivial

theorem FromBio.onConnection (h : FromBio s) (ssl : τ) (kernel : Nat → WriteResult) :
    FromBio (s.onConnection lib app ssl kernel) := by
  unfold HttpsConn.onConnection
  split
  · dsimp only
    refine FromBio.foldl_silent ?_ (handleHandshake_silent _) 0 kernel
    exact h
  · exact h

/-- A chunk that is taken out of `writeBio_` and sent. -/
theorem FromBio.flush (h : FromBio s) (chunks : List Bytes) (ts : Timestamp)
    (kernel : Nat → WriteResult) :
    FromBio ((chunks.flatMap fun chunk => [.drained chunk, .send chunk]).foldl
      (perform app ts kernel) s) := by
  induction chunks generalizing s with
  | nil => exact h
  | cons chunk chunks ih =>
    have hboth : FromBio (perform app ts kernel (perform app ts kernel s (.drained chunk))
        (.send chunk)) := by
      change s.sends ++ [chunk] = s.drained ++ [chunk]
      rw [h]
    exact ih hboth

theorem FromBio.tlsSend (h : FromBio s) (data : Bytes) (kernel : Nat → WriteResult) :
    FromBio (s.tlsSend lib app data kernel) := by
  unfold HttpsConn.tlsSend
  cases s.tls with
  | none => exact h
  | some t =>
    dsimp only
    unfold TlsConnection.send
    split
    · exact h
    · dsimp only
      split
      · refine FromBio.flush ?_ _ 0 kernel
        exact h
      · exact h

/-- What `onRead` hands out is silent but for the plaintext it delivers. -/
theorem onRead_events (lib : OpenSsl τ) (t : TlsConnection τ) (buf : Buffer) :
    ∃ quiet last, (t.onRead lib buf).2.1 = quiet ++ last ∧ (∀ e ∈ quiet, Silent e) ∧
      (last = [] ∨ ∃ data ∈ plaintextOf lib t, last = [.message data]) := by
  unfold TlsConnection.onRead plaintextOf
  cases hstate : t.state with
  | HANDSHAKE =>
    refine ⟨_, [], (List.append_nil _).symm, ?_, Or.inl rfl⟩
    intro e he
    rcases List.mem_cons.mp he with rfl | he
    · trivial
    · exact handleHandshake_silent _ e he
  | ESTABLISHED =>
    cases hret : (lib.read t.ssl t.readBio kTlsChunk).ret with
    | none =>
      refine ⟨_, [], (List.append_nil _).symm, ?_, Or.inl rfl⟩
      simp [hret, Silent]
    | some data =>
      refine ⟨[.produced (lib.read t.ssl t.readBio kTlsChunk).written, .plaintext data],
        if t.messageCallback then [.message data] else [], ?_, ?_, ?_⟩
      · simp only [hret]
        rfl
      · simp [Silent]
      · split
        · exact Or.inr ⟨data, by simp, rfl⟩
        · exact Or.inl rfl
  | SHUTDOWN => exact ⟨[], [], rfl, by simp, Or.inl rfl⟩
  | ERROR => exact ⟨[], [], rfl, by simp, Or.inl rfl⟩

theorem FromBio.onMessage (h : FromBio s) {ts : Timestamp} (kernel : Nat → WriteResult)
    (htls : ∀ t ∈ s.tls, ∀ data ∈ plaintextOf lib t,
      Unanswered (contextOf s.conn) (decryptedBuffer data) ts)
    (hplain : s.tls = none → Unanswered (contextOf s.conn) s.conn.inputBuffer ts) :
    FromBio (s.onMessage lib app ts kernel) := by
  unfold HttpsConn.onMessage
  cases ht : s.tls with
  | none =>
    have hmessage : FromBio (s.plainMessage app s.conn.inputBuffer ts kernel).1 :=
      h.plainMessage (hplain ht) kernel
    exact hmessage
  | some t =>
    dsimp only
    obtain ⟨quiet, last, hevents, hquiet, hlast⟩ := onRead_events lib t s.conn.inputBuffer
    rw [hevents, List.foldl_append]
    rcases hlast with rfl | ⟨data, hdata, rfl⟩
    · refine FromBio.foldl_silent ?_ hquiet ts kernel
      exact h
    · refine FromBio.plainMessage (FromBio.foldl_silent ?_ hquiet ts kernel) ?_ kernel
      · exact h
      · rw [foldl_silent_context hquiet]
        exact htls t ht data hdata

theorem FromBio.apply (h : FromBio s) {call : HttpsCall σ τ} (hcall : NoAnswer lib call s) :
    FromBio (apply lib app call s) := by
  cases call with
  | onConnection ssl kernel => exact h.onConnection ssl kernel
  | onMessage chunk ts kernel =>
    have harrived : FromBio (s.arrived chunk) := h
    exact harrived.onMessage kernel hcall.1 hcall.2
  | onPlainMessage buf ts kernel => exact h.plainMessage hcall kernel
  | tlsSend data kernel => exact h.tlsSend data kernel
  | elsewhere conn => exact h

end Step

variable {lib app} {s : HttpsConn σ τ}

/-- As long as the server answers nothing, only what came out of `writeBio_` is sent. -/
theorem sends_fromBio (h : ((system lib app).restrict (NoAnswer lib)).Reachable s) :
    s.sends = s.drained := by
  have hfrom : FromBio s := by
    refine h.invariant ?_ ?_
    · rintro s ⟨-, -, hsends, hdrained⟩
      exact hsends.trans hdrained.symm
    · intro call s hcall hs
      exact hs.apply hcall.2
  exact hfrom

/-- A connection just established, before `onConnection`. -/
def openHttps : HttpsConn Nat Unit := ⟨openConn, none, [], []⟩

/-- The kernel takes nothing yet. -/
def waiting : Nat → WriteResult := fun _ => .wrote 0

/-- The handshake, and an answer through `TLSConnection::send`. -/
def answeredThroughTls : List (HttpsCall Nat Unit) := [
  .onConnection () waiting, .onMessage [1] 0 waiting, .tlsSend (ascii "ok") waiting]

theorem sends_fromBio_answeredThroughTls :
    let s := (system (TlsRun.plainSsl [22]) countingApp).run answeredThroughTls openHttps
    ((system (TlsRun.plainSsl [22]) countingApp).restrict (NoAnswer (TlsRun.plainSsl [22]))).Reachable
      s ∧ s.sends = [22 :: ascii "ok"] ∧ s.sends = s.drained := by
  intro s
  have hnew : ((system (TlsRun.plainSsl [22]) countingApp).restrict
      (NoAnswer (TlsRun.plainSsl [22]))).Reachable openHttps := .init ⟨rfl, rfl, rfl, rfl⟩
  have hpermits : ((system (TlsRun.plainSsl [22]) countingApp).restrict
      (NoAnswer (TlsRun.plainSsl [22]))).Permits answeredThroughTls openHttps := by
    refine ⟨⟨trivial, trivial⟩, ⟨trivial, ?_, ?_⟩, ⟨trivial, trivial⟩, trivial⟩
    · rintro t ht data hdata
      cases ht
      cases hdata
    · intro h
      cases h
  have hreach := hnew.run hpermits
  exact ⟨hreach, by decide +kernel, sends_fromBio hreach⟩

/-- A handshake with a request behind it, which is decrypted on the next arrival. -/
def requestThroughTls : List (HttpsCall Nat Unit) := [
  .onConnection () waiting, .onMessage (1 :: ascii "GET / HTTP/1.1\r\n\r\n") 0 waiting,
  .onMessage [2] 1 waiting]

/-- The answer goes out as it is, and the `TLSConnection` is gone. -/
theorem answer_in_plaintext :
    ∃ s, (system (TlsRun.plainSsl [22]) countingApp).Reachable s ∧
      s.sends = [serialized ((HttpResponse.new false).setStatusCode .k200Ok)] ∧
      s.drained = [] ∧ s.tls = none := by
  have hnew : (system (TlsRun.plainSsl [22]) countingApp).Reachable openHttps :=
    .init ⟨rfl, rfl, rfl, rfl⟩
  have hpermits : (system (TlsRun.plainSsl [22]) countingApp).Permits requestThroughTls openHttps :=
    ⟨trivial, trivial, trivial, trivial⟩
  exact ⟨_, hnew.run hpermits, by decide +kernel, by decide +kernel, by decide +kernel⟩

end HttpsConn

end MuduoPlus
