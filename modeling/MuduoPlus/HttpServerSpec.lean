import MuduoPlus.HttpServer

namespace MuduoPlus

namespace TcpConnection

variable {α : Type} {s : TcpConnection α}

/-- What belongs to the reading side; sending and closing leave it alone. -/
def received (s : TcpConnection α) : Buffer × α := (s.inputBuffer, s.user)

theorem handleClose_received : s.handleClose.received = s.received := by
  unfold handleClose
  dsimp only
  split <;> rfl

/-- What is queued for the loop touches neither that nor the trace. -/
theorem queueWriteComplete_keeps :
    (s.queueWriteComplete.received, s.queueWriteComplete.trace) = (s.received, s.trace) := by
  unfold queueWriteComplete
  split <;> rfl

theorem queueHighWaterMark_keeps (oldLen remaining : Nat) :
    ((s.queueHighWaterMark oldLen remaining).received,
      (s.queueHighWaterMark oldLen remaining).trace) = (s.received, s.trace) := by
  unfold queueHighWaterMark
  split <;> rfl

/-- Nor do the bytes that wait for the socket. -/
theorem bufferRemaining_keeps (remaining : Bytes) :
    ((s.bufferRemaining remaining).received, (s.bufferRemaining remaining).trace) =
      (s.received, s.trace) := by
  have hq := s.queueHighWaterMark_keeps s.outputBuffer.readableBytes remaining.length
  unfold bufferRemaining
  split
  · dsimp only
    split
    · exact hq
    · exact hq
  · rfl

theorem queueWriteComplete_received : s.queueWriteComplete.received = s.received :=
  congrArg Prod.fst queueWriteComplete_keeps

theorem bufferRemaining_received (remaining : Bytes) :
    (s.bufferRemaining remaining).received = s.received :=
  congrArg Prod.fst (bufferRemaining_keeps remaining)

theorem sendInLoop_received (data : Bytes) (result : WriteResult) :
    (s.sendInLoop data result).received = s.received := by
  unfold sendInLoop
  dsimp only
  split
  · rfl
  · split
    · unfold sendDirect
      cases result with
      | wrote n =>
        dsimp only
        rw [bufferRemaining_received]
        split
        · exact queueWriteComplete_received
        · rfl
      | error errno =>
        dsimp only
        split
        · exact handleClose_received
        · exact bufferRemaining_received data
    · exact bufferRemaining_received data

theorem sendBuffer_received (buf : Buffer) (result : WriteResult) :
    (s.sendBuffer .loopThread buf result).1.received = s.received := by
  unfold sendBuffer
  split
  · rfl
  · split
    · rfl
    · exact sendInLoop_received buf.readable result

theorem shutdown_received : (s.shutdown .loopThread).received = s.received := by
  unfold shutdown
  split
  · dsimp only
    unfold shutdownInLoop
    split <;> rfl
  · rfl

end TcpConnection

/-- A middleware, a router handler or the fallback callback runs. -/
def HttpEvent.Invokes : HttpEvent → Prop
  | .middleware _ => True
  | .handler => True
  | .fallback => True
  | _ => False

/-- The server is done with the connection. -/
def HttpEvent.GivesUp : HttpEvent → Prop
  | .answered400 => True
  | .closing => True
  | _ => False

instance : DecidablePred HttpEvent.Invokes := by
  intro e
  cases e <;> unfold HttpEvent.Invokes <;> infer_instance

instance : DecidablePred HttpEvent.GivesUp := by
  intro e
  cases e <;> unfold HttpEvent.GivesUp <;> infer_instance

namespace HttpApp

variable {σ : Type}

theorem runMiddlewares_log (ms : List (HttpMiddleware σ)) (index : Nat) (x : HttpExchange σ) :
    ∃ calls, (runMiddlewares ms index x).2.log = x.log ++ calls ∧ ∀ e ∈ calls, e.Invokes := by
  induction ms generalizing index x with
  | nil => exact ⟨[], by simp [runMiddlewares], by simp⟩
  | cons m ms ih =>
    unfold runMiddlewares
    dsimp only
    split
    · obtain ⟨calls, hlog, hinv⟩ := ih (index + 1) ⟨(m x.request x.response x.app).2.1,
        (m x.request x.response x.app).2.2.1, (m x.request x.response x.app).2.2.2,
        x.log ++ [.middleware index]⟩
      refine ⟨.middleware index :: calls, by rw [hlog]; simp, ?_⟩
      intro e he
      rcases List.mem_cons.mp he with rfl | he
      · exact trivial
      · exact hinv e he
    · exact ⟨[.middleware index], rfl, by simp [HttpEvent.Invokes]⟩

theorem routeRequest_log (app : HttpApp σ) (x : HttpExchange σ) :
    ∃ calls, (app.routeRequest x).log = x.log ++ calls ∧ ∀ e ∈ calls, e.Invokes := by
  unfold routeRequest
  split
  · exact ⟨[.handler], rfl, by simp [HttpEvent.Invokes]⟩
  · split
    · exact ⟨[.fallback], rfl, by simp [HttpEvent.Invokes]⟩
    · exact ⟨[], by simp, by simp⟩

/-- Answering a request only adds invocations to the log. -/
theorem respond_log (app : HttpApp σ) (x : HttpExchange σ) :
    ∃ calls, (app.respond x).log = x.log ++ calls ∧ ∀ e ∈ calls, e.Invokes := by
  have hmiddle : ∀ y, y.log = x.log → ∀ ok z, runMiddlewares app.middlewares 0 y = (ok, z) →
      ∃ calls, z.log = x.log ++ calls ∧ ∀ e ∈ calls, e.Invokes := by
    intro y hy ok z hz
    obtain ⟨calls, hlog, hinv⟩ := runMiddlewares_log app.middlewares 0 y
    rw [hz, hy] at hlog
    exact ⟨calls, hlog, hinv⟩
  have hroute : ∀ z, (∃ calls, z.log = x.log ++ calls ∧ ∀ e ∈ calls, e.Invokes) →
      ∃ calls, (app.routeRequest z).log = x.log ++ calls ∧ ∀ e ∈ calls, e.Invokes := by
    rintro z ⟨calls, hlog, hinv⟩
    obtain ⟨more, hmore, hinv'⟩ := app.routeRequest_log z
    refine ⟨calls ++ more, by rw [hmore, hlog, List.append_assoc], ?_⟩
    intro e he
    rcases List.mem_append.mp he with he | he
    · exact hinv e he
    · exact hinv' e he
  unfold respond
  cases app.sessionMgr with
  | none =>
    dsimp only
    split
    next z hz => exact hmiddle x rfl false z hz
    next z hz => exact hroute z (hmiddle x rfl true z hz)
  | some h =>
    dsimp only
    split
    next z hz => exact hmiddle (callHandler h x) rfl false z hz
    next z hz => exact hroute z (hmiddle (callHandler h x) rfl true z hz)

end HttpApp

namespace HttpServer

variable {σ : Type} {s : HttpConn σ}

theorem sendResponse_received (resp : HttpResponse) (result : WriteResult) (s : HttpConn σ) :
    (sendResponse resp result s).received = s.received :=
  TcpConnection.sendBuffer_received _ result

/-- One request: it is recorded, then come the invocations, and last perhaps the decision
to close. -/
theorem handleHttpRequest_log (app : HttpApp σ) (req : HttpRequest) (result : WriteResult)
    (s : HttpConn σ) :
    ∃ calls tail, (handleHttpRequest app req result s).user.log =
      s.user.log ++ .dispatched req :: (calls ++ tail) ∧
      (∀ e ∈ calls, e.Invokes) ∧ (tail = [] ∨ tail = [.closing]) := by
  unfold handleHttpRequest
  dsimp only
  generalize HttpResponse.new _ = resp
  obtain ⟨calls, hlog, hinv⟩ := app.respond_log ⟨req, resp, s.user.app, s.user.log ++ [.dispatched req]⟩
  generalize app.respond _ = x at hlog ⊢
  have hlog' : x.log = s.user.log ++ .dispatched req :: calls := by simpa using hlog
  have hsend := (Prod.mk.inj (sendResponse_received x.response result
    { s with user := { s.user with app := x.app, log := x.log } })).2
  generalize sendResponse x.response result _ = t at hsend ⊢
  split
  · have hshut := (Prod.mk.inj (TcpConnection.shutdown_received (s := t))).2
    refine ⟨calls, [.closing], ?_, hinv, Or.inr rfl⟩
    simp [note, hshut, hsend, hlog']
  · exact ⟨calls, [], by simp [hsend, hlog'], hinv, Or.inl rfl⟩

/-- What one delivery does, by the outcome of the one parser call it makes. -/
structure Delivered (p : HttpContext.ParseResult) (s s' : HttpConn σ) : Prop where
  buffer : s'.inputBuffer = p.buf
  waits : p.stop = none → contextOf s' = p.ctx ∧ s'.user.log = s.user.log
  complete : p.stop = some .gotAll → contextOf s' = p.ctx.reset ∧
    ∃ calls tail, s'.user.log = s.user.log ++ .dispatched p.ctx.request :: (calls ++ tail) ∧
      (∀ e ∈ calls, e.Invokes) ∧ (tail = [] ∨ tail = [.closing])
  refused : p.stop = some .refused → contextOf s' = p.ctx ∧ s'.user.log = s.user.log ++ [.answered400]
  raised : ∀ e, p.stop = some (.raised e) → s'.user.log = s.user.log ++ [.raised e]

theorem answered400_user (resp : HttpResponse) (result : WriteResult) (s : HttpConn σ) :
    ((note .answered400 (sendResponse resp result s)).shutdown .loopThread).user =
      { s.user with log := s.user.log ++ [.answered400] } := by
  have hsend := (Prod.mk.inj (sendResponse_received resp result s)).2
  generalize sendResponse resp result s = t at hsend ⊢
  rw [(Prod.mk.inj (TcpConnection.shutdown_received (s := note .answered400 t))).2]
  simp only [note, hsend]

theorem onMessage_spec (app : HttpApp σ) (ts : Timestamp) (result : WriteResult) (s : HttpConn σ) :
    Delivered ((contextOf s).parseRequest s.inputBuffer ts) s (onMessage app ts result s) := by
  unfold onMessage onPlainMessage
  dsimp only
  generalize (contextOf s).parseRequest s.inputBuffer ts = p
  obtain ⟨ret, ctx, buf⟩ := p
  cases ret with
  | error e =>
    refine ⟨rfl, fun h => (nomatch h), fun h => (nomatch h), fun h => (nomatch h), ?_⟩
    intro e' h
    cases h
    rfl
  | ok flag =>
    cases flag with
    | false =>
      dsimp only
      generalize HttpResponse.setStatusMessage _ _ = resp
      have huser := answered400_user resp result (setContext ctx s)
      refine ⟨rfl, fun h => (nomatch h), fun h => (nomatch h), fun _ => ?_, fun e h => (nomatch h)⟩
      simp only [contextOf, huser]
      exact ⟨rfl, rfl⟩
    | true =>
      dsimp only
      cases hg : ctx.gotAll with
      | false =>
        have hstop : (⟨.ok true, ctx, buf⟩ : HttpContext.ParseResult).stop = none := by
          simp [HttpContext.ParseResult.stop, hg]
        refine ⟨rfl, fun _ => ⟨rfl, rfl⟩, ?_, ?_, ?_⟩ <;> simp [hstop]
      | true =>
        have hstop : (⟨.ok true, ctx, buf⟩ : HttpContext.ParseResult).stop = some .gotAll := by
          simp [HttpContext.ParseResult.stop, hg]
        have hlog := handleHttpRequest_log app ctx.request result (setContext ctx s)
        refine ⟨rfl, ?_, fun _ => ⟨rfl, hlog⟩, ?_, ?_⟩ <;> simp [hstop]

theorem deliver_spec (app : HttpApp σ) {d : Delivery} (hne : d.chunk ≠ []) (s : HttpConn σ) :
    Delivered ((contextOf s).parseRequest (s.inputBuffer.readFd (.data d.chunk)) d.time) s
      (deliver app d s) := by
  obtain ⟨b, bs, hb⟩ := List.exists_cons_of_ne_nil hne
  have hdeliver : deliver app d s =
      onMessage app d.time d.result { s with inputBuffer := s.inputBuffer.readFd (.data d.chunk) } := by
    unfold deliver TcpConnection.handleRead
    rw [hb]
  rw [hdeliver]
  obtain ⟨hbuffer, hwaits, hcomplete, hrefused, hraised⟩ := onMessage_spec app d.time d.result
    { s with inputBuffer := s.inputBuffer.readFd (.data d.chunk) }
  exact ⟨hbuffer, hwaits, hcomplete, hrefused, hraised⟩

/-- An application whose one handler takes every path and counts its calls. -/
def countingApp : HttpApp Nat where
  sessionMgr := none
  middlewares := []
  route _ := some fun _ resp calls => (resp.setStatusCode .k200Ok, calls + 1)
  httpCallback := none

/-- A connection that was just established; nothing has called the application yet. -/
def openConn : HttpConn Nat :=
  (TcpConnection.new ⟨∅, ⟨{7}, ∅⟩⟩ 1 7 false false true ⟨.empty, 0, []⟩).connectEstablished id

end HttpServer

end MuduoPlus
