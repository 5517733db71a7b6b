import MuduoPlus.HttpDelivery
import MuduoPlus.HttpResponseReader
import MuduoPlus.SerialService
import MuduoPlus.TcpClose
import MuduoPlus.TcpStreams

namespace MuduoPlus

/-- What a connection asks of the application: to answer a request, or to refuse bytes that are
none. -/
inductive HttpCall where
  | request (req : HttpRequest)
  | unparsable
  deriving DecidableEq

def HttpEvent.call? : HttpEvent → Option HttpCall
  | .dispatched req => some (.request req)
  | .answered400 => some .unparsable
  | _ => none

namespace HttpApp

variable {σ : Type}

/-- What the application answers, whatever connection the call came on. -/
def answer (app : HttpApp σ) : HttpCall → σ → HttpResponse × σ
  | .request req, state =>
    let close := decide (req.getHeader (ascii "Connection") = ascii "close")
    let x := app.respond ⟨req, HttpResponse.new close, state, []⟩
    (x.response, x.app)
  | .unparsable, state => (HttpServer.badRequest, state)

theorem runMiddlewares_any_log (ms : List (HttpMiddleware σ)) (index : Nat) (x : HttpExchange σ)
    (log : List HttpEvent) :
    ∃ log', runMiddlewares ms index { x with log } =
      ((runMiddlewares ms index x).1, { (runMiddlewares ms index x).2 with log := log' }) := by
  induction ms generalizing index x log with
  | nil => exact ⟨log, rfl⟩
  | cons m ms ih =>
    unfold runMiddlewares
    dsimp only
    split
    · exact ih (index + 1) ⟨(m x.request x.response x.app).2.1, (m x.request x.response x.app).2.2.1,
        (m x.request x.response x.app).2.2.2, x.log ++ [.middleware index]⟩ _
    · exact ⟨_, rfl⟩

theorem routeRequest_any_log (app : HttpApp σ) (x : HttpExchange σ) (log : List HttpEvent) :
    ∃ log', app.routeRequest { x with log } = { app.routeRequest x with log := log' } := by
  unfold routeRequest
  cases app.route x.request with
  | some h => exact ⟨_, rfl⟩
  | none =>
    cases app.httpCallback with
    | some h => exact ⟨_, rfl⟩
    | none => exact ⟨_, rfl⟩

/-- The log is written only. -/
theorem respond_any_log (app : HttpApp σ) (x : HttpExchange σ) (log : List HttpEvent) :
    (app.respond { x with log }).response = (app.respond x).response ∧
      (app.respond { x with log }).app = (app.respond x).app := by
  -- behind the session handler the exchange goes on as without one
  have hrest : ∀ y : HttpExchange σ, ∀ log,
      (respond { app with sessionMgr := none } { y with log }).response =
          (respond { app with sessionMgr := none } y).response ∧
        (respond { app with sessionMgr := none } { y with log }).app =
          (respond { app with sessionMgr := none } y).app := by
    intro y log
    obtain ⟨log', hlog'⟩ := runMiddlewares_any_log app.middlewares 0 y log
    unfold respond
    dsimp only
    rw [hlog']
    generalize runMiddlewares app.middlewares 0 y = r
    obtain ⟨ok, z⟩ := r
    cases ok with
    | false => exact ⟨rfl, rfl⟩
    | true =>
      obtain ⟨log'', hlog''⟩ := app.routeRequest_any_log z log'
      have hroute : (routeRequest { app with sessionMgr := none } { z with log := log' }) =
          { routeRequest { app with sessionMgr := none } z with log := log'' } := hlog''
      dsimp only
      rw [hroute]
      exact ⟨rfl, rfl⟩
  cases hmgr : app.sessionMgr with
  | none =>
    have happ : { app with sessionMgr := none } = app := by rw [← hmgr]
    rw [← happ]
    exact hrest x log
  | some h =>
    have hsome : ∀ y, app.respond y = respond { app with sessionMgr := none } (callHandler h y) := by
      intro y
      unfold respond
      rw [hmgr]
      rfl
    rw [hsome, hsome]
    exact hrest (callHandler h x) log

end HttpApp

namespace HttpServer

variable {σ : Type} {app : HttpApp σ} {s t : HttpConn σ}

/-- The calls made on the connection so far. -/
def calls (s : HttpConn σ) : List HttpCall := s.user.log.filterMap HttpEvent.call?

theorem filterMap_call_of_invokes {events : List HttpEvent} (h : ∀ e ∈ events, e.Invokes) :
    events.filterMap HttpEvent.call? = [] := by
  apply List.filterMap_eq_nil_iff.mpr
  intro e he
  have hi := h e he
  cases e with
  | dispatched request => exact hi.elim
  | answered400 => exact hi.elim
  | _ => rfl

theorem serialized_eq_text (resp : HttpResponse) : serialized resp = resp.text := by
  have h := (HttpResponse.foldl_append_valid resp.pieces (Buffer.new_valid kInitialSize)).2
  rw [Buffer.new_readable, List.nil_append] at h
  exact h

theorem sendResponse_of_closed (h : s.state ≠ .kConnected) (resp : HttpResponse)
    (result : WriteResult) : sendResponse resp result s = s := by
  unfold sendResponse TcpConnection.sendBuffer
  rw [if_pos h]
  split <;> rfl

theorem sendResponse_of_open (h : s.state = .kConnected) (resp : HttpResponse)
    (result : WriteResult) : sendResponse resp result s = s.sendInLoop resp.text result := by
  have htext := serialized_eq_text resp
  have hvalid := (HttpResponse.foldl_append_valid resp.pieces (Buffer.new_valid kInitialSize)).1
  unfold serialized at htext
  unfold sendResponse TcpConnection.sendBuffer
  split
  next hz =>
    have hlen := Buffer.length_readable hvalid
    rw [← HttpResponse.appendToBuffer, htext, hz] at hlen
    exact absurd (List.length_eq_zero_iff.mp hlen) resp.text_ne_nil
  next =>
    rw [if_neg (not_not_intro h), ← htext]

/-- Nothing has ended the connection yet. -/
def Live (s : HttpConn σ) : Prop := s.state = .kConnecting ∨ s.state = .kConnected

theorem live_with_user {user : HttpSide σ} (h : Live { s with user }) : Live s := h

theorem live_note {e : HttpEvent} (h : Live (note e s)) : Live s := h

/-- `sent` went to the connection, which was closed before `unsent` could follow. A response that
closes it is the last one. -/
structure Answered (sent unsent : List HttpResponse) (s : HttpConn σ) : Prop where
  streams : s.Streams (sent.flatMap HttpResponse.text)
  quiet : s.Unnotified
  framed : ∀ resp ∈ sent.dropLast, resp.closeConnection = false
  live : Live s → unsent = [] ∧ ∀ resp ∈ sent, resp.closeConnection = false

variable {sent unsent : List HttpResponse}

/-- Above a connection that stays as it is. -/
theorem Answered.aside (h : Answered sent unsent s) (inputBuffer : Buffer) (user : HttpSide σ) :
    Answered sent unsent { s with inputBuffer, user } :=
  ⟨h.streams.aside inputBuffer user, h.quiet.congr rfl, h.framed, h.live⟩

/-- A step that passes nothing and does not open the connection. -/
theorem Answered.keep (h : Answered sent unsent s)
    (hs : t.Streams (sent.flatMap HttpResponse.text)) (hq : t.Unnotified)
    (hstate : t.state = s.state ∨ t.state = .kDisconnected) : Answered sent unsent t := by
  refine ⟨hs, hq, h.framed, fun hlive => ?_⟩
  unfold Live at hlive
  rcases hstate with hstate | hstate
  · rw [hstate] at hlive
    exact h.live hlive
  · rw [hstate] at hlive
    rcases hlive with hlive | hlive <;> cases hlive

theorem shutdown_not_live (h : s.state ≠ .kConnecting) : ¬Live (s.shutdown .loopThread) := by
  unfold Live TcpConnection.shutdown
  split
  next =>
    dsimp only
    rw [TcpConnection.shutdownInLoop_state]
    simp
  next hc =>
    intro hlive
    exact hlive.elim h hc

theorem shutdown_of_closed (h : s.state ≠ .kConnected) : s.shutdown .loopThread = s := by
  rw [TcpConnection.shutdown, if_neg h]

theorem sendInLoop_state_of_live (hc : s.state = .kConnected) (data : Bytes)
    (result : WriteResult) :
    (s.sendInLoop data result).state = .kConnected ∨
      (s.sendInLoop data result).state = .kDisconnected := by
  have hbuffer : ∀ (u : HttpConn σ) remaining, u.state = .kConnected →
      (u.bufferRemaining remaining).state = .kConnected := by
    intro u remaining hu
    rw [TcpConnection.bufferRemaining_state, hu]
  unfold TcpConnection.sendInLoop
  dsimp only
  split
  · exact Or.inl hc
  · split
    · cases result with
      | wrote n =>
        left
        unfold TcpConnection.sendDirect
        dsimp only
        split
        · exact hbuffer _ _ (TcpConnection.queueWriteComplete_state.trans hc)
        · exact hbuffer _ _ hc
      | error errno =>
        rw [TcpConnection.sendDirect_error]
        split
        · exact Or.inr (TcpConnection.handleClose_state _)
        · exact Or.inl (hbuffer _ _ hc)
    · exact Or.inl (hbuffer _ _ hc)

/-- The response is sent, and behind the last one the connection is shut down. -/
def reply (resp : HttpResponse) (result : WriteResult) (last : Bool) (s : HttpConn σ) : HttpConn σ :=
  if last then (sendResponse resp result s).shutdown .loopThread else sendResponse resp result s

theorem reply_of_closed (hc : s.state ≠ .kConnected) (resp : HttpResponse) (result : WriteResult)
    (last : Bool) : reply resp result last s = s := by
  rw [reply, sendResponse_of_closed hc, shutdown_of_closed hc, ite_self]

theorem reply_last_not_live (hup : s.state ≠ .kConnecting) (resp : HttpResponse)
    (result : WriteResult) : ¬Live (reply resp result true s) := by
  by_cases hc : s.state = .kConnected
  · rw [reply, if_pos rfl, sendResponse_of_open hc]
    apply shutdown_not_live
    have hstate := sendInLoop_state_of_live hc resp.text result
    rcases hstate with hstate | hstate <;> rw [hstate] <;> simp
  · rw [reply_of_closed hc]
    exact fun hlive => hlive.elim hup hc

theorem live_of_reply {resp : HttpResponse} {result : WriteResult} {last : Bool}
    (hlive : Live (reply resp result last s)) : Live s := by
  by_cases hc : s.state = .kConnected
  · exact Or.inr hc
  · rwa [reply_of_closed hc] at hlive

theorem Answered.reply (h : Answered sent unsent s) (hup : s.state ≠ .kConnecting)
    (resp : HttpResponse) (result : WriteResult) (last : Bool)
    (hlast : resp.closeConnection = true → last = true) :
    ∃ sent' unsent', sent' ++ unsent' = sent ++ unsent ++ [resp] ∧
      Answered sent' unsent' (HttpServer.reply resp result last s) := by
  by_cases hc : s.state = .kConnected
  · obtain ⟨rfl, hopen⟩ := h.live (Or.inr hc)
    have hs := h.streams.sendInLoop hc resp.text result
    have hq := h.quiet.sendInLoop resp.text result
    rw [← sendResponse_of_open hc] at hs hq
    refine ⟨sent ++ [resp], [], by simp, ?_⟩
    have htext : sent.flatMap HttpResponse.text ++ resp.text =
        (sent ++ [resp]).flatMap HttpResponse.text := by simp
    rw [htext] at hs
    have hframed : ∀ r ∈ (sent ++ [resp]).dropLast, r.closeConnection = false := by
      rw [List.dropLast_concat]
      exact hopen
    cases last with
    | true =>
      refine ⟨hs.shutdown, hq.shutdown, hframed, fun hlive => ?_⟩
      exact absurd hlive (reply_last_not_live hup resp result)
    | false =>
      have hkeep : resp.closeConnection = false := by
        cases hclose : resp.closeConnection with
        | false => rfl
        | true => exact absurd (hlast hclose) (by simp)
      refine ⟨hs, hq, hframed, fun _ => ⟨rfl, ?_⟩⟩
      intro r hr
      rcases List.mem_append.mp hr with hr | hr
      · exact hopen r hr
      · rw [List.mem_singleton.mp hr]
        exact hkeep
  · refine ⟨sent, unsent ++ [resp], by simp, ?_⟩
    rw [reply_of_closed hc]
    exact ⟨h.streams, h.quiet, h.framed, fun hlive => (hlive.elim hup hc).elim⟩

end HttpServer

/-- What may happen to a connection of the server, in the thread of its loop. -/
inductive HttpStep where
  | established
  | arrives (d : HttpServer.Delivery)
  | readFailed (errno : Errno)
  | writable (file output : WriteResult)
  | functor (result : WriteResult)
  | hangUp
  | failed
  | destroyed

namespace HttpServer

variable {σ : Type} {app : HttpApp σ} {s t : HttpConn σ}

/-- `onConnection` of a server without TLS does nothing on a connection that is up. -/
def applyStep (app : HttpApp σ) : HttpStep → HttpConn σ → HttpConn σ
  | .established, s => s.connectEstablished id
  | .arrives d, s => deliver app d s
  | .readFailed errno, s => s.handleRead (.error errno) id
  | .writable file output, s => s.handleWrite file output
  | .functor result, s => TcpConnection.applyCall (.runFunctor result s.user) s
  | .hangUp, s => s.handleClose
  | .failed, s => s.handleError
  | .destroyed, s => s.connectDestroyed

/-- The channel of a connection is registered when it is established, and that happens once. -/
def mayStep (step : HttpStep) (s : HttpConn σ) : Prop :=
  match step with
  | .established => s.state = .kConnecting
  | _ => s.state ≠ .kConnecting

instance (step : HttpStep) (s : HttpConn σ) : Decidable (mayStep step s) := by
  unfold mayStep
  split <;> infer_instance

/-- A step takes up `call` if there is one; the application answers it. -/
structure TakesUp (app : HttpApp σ) (call : Option HttpCall) (s t : HttpConn σ) : Prop where
  live : Live t → Live s
  refused : call = some .unparsable → ¬Live t
  calls : calls t = HttpServer.calls s ++ call.toList
  state : t.user.app = call.elim s.user.app fun call => (app.answer call s.user.app).2
  answered : ∀ sent unsent, Answered sent unsent s → ∃ sent' unsent',
    sent' ++ unsent' =
      sent ++ unsent ++ (call.map fun call => (app.answer call s.user.app).1).toList ∧
    Answered sent' unsent' t

/-- Steps that do not get to the application. -/
theorem TakesUp.none (hlive : Live t → Live s) (huser : t.user = s.user)
    (h : ∀ sent unsent, Answered sent unsent s → Answered sent unsent t) :
    TakesUp app none s t where
  live := hlive
  refused := nofun
  calls := by rw [HttpServer.calls, huser, Option.toList_none, List.append_nil, HttpServer.calls]
  state := by rw [huser]; rfl
  answered := by
    intro sent unsent hs
    exact ⟨sent, unsent, by simp, h sent unsent hs⟩

/-- The input buffer and the context are the parser's. -/
theorem TakesUp.around {call : Option HttpCall} {buf buf' : Buffer} {context context' : ConnContext}
    (h : TakesUp app call { s with inputBuffer := buf, user := { s.user with context } } t) :
    TakesUp app call s { t with inputBuffer := buf', user := { t.user with context := context' } } where
  live := h.live
  refused := h.refused
  calls := h.calls
  state := h.state
  answered := by
    intro sent unsent hs
    obtain ⟨sent', unsent', heq, ht⟩ := h.answered sent unsent (hs.aside buf _)
    exact ⟨sent', unsent', heq, ht.aside buf' _⟩

/-- Apart from the server's notes, the connection is left as by `reply`. -/
theorem handleHttpRequest_reply (app : HttpApp σ) (req : HttpRequest) (result : WriteResult)
    (s : HttpConn σ) :
    ∃ before user : HttpSide σ, user.app = (app.answer (.request req) s.user.app).2 ∧
      handleHttpRequest app req result s =
        { reply (app.answer (.request req) s.user.app).1 result
            (app.answer (.request req) s.user.app).1.closeConnection { s with user := before } with
          user } := by
  have hlog := app.respond_any_log ⟨req, HttpResponse.new (decide (req.getHeader
    (ascii "Connection") = ascii "close")), s.user.app, []⟩ (s.user.log ++ [.dispatched req])
  have hanswer : app.answer (.request req) s.user.app = ((app.respond ⟨req, HttpResponse.new
      (decide (req.getHeader (ascii "Connection") = ascii "close")), s.user.app, []⟩).response,
      (app.respond ⟨req, HttpResponse.new (decide (req.getHeader (ascii "Connection") =
        ascii "close")), s.user.app, []⟩).app) := rfl
  rw [hanswer, ← hlog.1, ← hlog.2]
  unfold handleHttpRequest reply
  dsimp only
  generalize app.respond _ = x
  have hsend := (Prod.mk.inj (sendResponse_received x.response result
    { s with user := { s.user with app := x.app, log := x.log } })).2
  refine ⟨{ s.user with app := x.app, log := x.log }, ?_⟩
  generalize sendResponse x.response result _ = t at hsend ⊢
  have happ : t.user.app = x.app := by rw [hsend]
  split
  · have hshut := (Prod.mk.inj (TcpConnection.shutdown_received (s := t))).2
    refine ⟨(note .closing (t.shutdown .loopThread)).user, ?_, rfl⟩
    rw [note, hshut]
    exact happ
  · exact ⟨t.user, happ, rfl⟩

theorem handleHttpRequest_calls (app : HttpApp σ) (req : HttpRequest) (result : WriteResult)
    (s : HttpConn σ) : calls (handleHttpRequest app req result s) = calls s ++ [.request req] := by
  obtain ⟨events, tail, hlog, hinv, htail⟩ := handleHttpRequest_log app req result s
  have htail' : tail.filterMap HttpEvent.call? = [] := by
    rcases htail with rfl | rfl
    · rfl
    · rfl
  rw [calls, hlog, List.filterMap_append, List.filterMap_cons]
  simp only [HttpEvent.call?, List.filterMap_append, filterMap_call_of_invokes hinv, htail',
    List.append_nil, calls]

theorem handleHttpRequest_takesUp (app : HttpApp σ) (req : HttpRequest) (result : WriteResult)
    (hup : s.state ≠ .kConnecting) :
    TakesUp app (some (.request req)) s (handleHttpRequest app req result s) := by
  obtain ⟨before, user, happ, heq⟩ := handleHttpRequest_reply app req result s
  refine ⟨fun hlive => ?_, nofun, handleHttpRequest_calls app req result s, ?_, ?_⟩
  · rw [heq] at hlive
    exact live_with_user (live_of_reply (live_with_user hlive))
  · rw [heq]
    exact happ
  · intro sent unsent hs
    obtain ⟨sent', unsent', hsent, ht⟩ := (hs.aside s.inputBuffer before).reply hup
      (app.answer (.request req) s.user.app).1 result
      (app.answer (.request req) s.user.app).1.closeConnection id
    refine ⟨sent', unsent', hsent, ?_⟩
    rw [heq]
    exact ht.aside _ user

theorem shutdownInLoop_note (e : HttpEvent) (s : HttpConn σ) :
    (note e s).shutdownInLoop = note e s.shutdownInLoop := by
  unfold TcpConnection.shutdownInLoop
  by_cases hw : s.isWriting = true
  · rw [if_pos (show (note e s).isWriting = true from hw), if_pos hw]
  · rw [if_neg (show ¬(note e s).isWriting = true from hw), if_neg hw]
    rfl

theorem shutdown_note (e : HttpEvent) (s : HttpConn σ) :
    (note e s).shutdown .loopThread = note e (s.shutdown .loopThread) := by
  unfold TcpConnection.shutdown
  by_cases hc : s.state = .kConnected
  · rw [if_pos (show (note e s).state = .kConnected from hc), if_pos hc]
    exact shutdownInLoop_note e { s with state := .kDisconnecting }
  · rw [if_neg (show ¬(note e s).state = .kConnected from hc), if_neg hc]

theorem badRequest_takesUp (app : HttpApp σ) (result : WriteResult) (hup : s.state ≠ .kConnecting) :
    TakesUp app (some .unparsable) s
      ((note .answered400 (sendResponse badRequest result s)).shutdown .loopThread) := by
  have huser := answered400_user badRequest result s
  have hreply : (note .answered400 (sendResponse badRequest result s)).shutdown .loopThread =
      note .answered400 (reply badRequest result true s) := by
    rw [shutdown_note, reply, if_pos rfl]
  refine ⟨fun hlive => ?_, fun _ hlive => ?_, ?_, ?_, ?_⟩
  · rw [hreply] at hlive
    exact live_of_reply (live_note hlive)
  · rw [hreply] at hlive
    exact reply_last_not_live hup badRequest result (live_note hlive)
  · rw [calls, huser, List.filterMap_append]
    rfl
  · rw [huser]
    rfl
  · intro sent unsent hs
    obtain ⟨sent', unsent', heq, ht⟩ := hs.reply hup badRequest result true (fun _ => rfl)
    refine ⟨sent', unsent', heq, ?_⟩
    rw [hreply]
    exact ht.aside _ _

/-- One call of the parser, and what it finds. -/
theorem onMessage_takesUp (app : HttpApp σ) (ts : Timestamp) (result : WriteResult)
    (hup : s.state ≠ .kConnecting) :
    ∃ call, TakesUp app call s (onMessage app ts result s) := by
  unfold onMessage onPlainMessage
  dsimp only
  generalize (contextOf s).parseRequest s.inputBuffer ts = p
  obtain ⟨ret, ctx, buf⟩ := p
  cases ret with
  | error e =>
    have hraised : TakesUp app none (setContext ctx s) (note (.raised e) (setContext ctx s)) := by
      refine ⟨id, nofun, ?_, rfl, ?_⟩
      · rw [calls, note, List.filterMap_append]
        rfl
      · intro sent unsent hs
        exact ⟨sent, unsent, by simp, hs.aside _ _⟩
    exact ⟨none, hraised.around⟩
  | ok flag =>
    cases flag with
    | false =>
      have hrefused := badRequest_takesUp app result (s := setContext ctx s) hup
      unfold badRequest at hrefused
      dsimp only
      generalize HttpResponse.setStatusMessage _ _ = resp at hrefused ⊢
      exact ⟨some .unparsable, hrefused.around⟩
    | true =>
      dsimp only
      cases ctx.gotAll with
      | false =>
        exact ⟨none, (TakesUp.none id rfl fun _ _ h => h : TakesUp app none (setContext ctx s) _).around⟩
      | true =>
        exact ⟨some (.request ctx.request),
          (handleHttpRequest_takesUp app ctx.request result (s := setContext ctx s) hup).around⟩

/-- Writing leaves alone what was received. -/
theorem handleWrite_received (file output : WriteResult) (hf : s.pendingFile.active = false) :
    (s.handleWrite file output).received = s.received := by
  have hq : ∀ u : HttpConn σ, u.queueWriteComplete.received = u.received :=
    fun _ => TcpConnection.queueWriteComplete_received
  have hdown : ∀ u : HttpConn σ, u.shutdownInLoop.received = u.received := by
    intro u
    unfold TcpConnection.shutdownInLoop
    split <;> rfl
  unfold TcpConnection.handleWrite
  rw [show s.continueFile file = (s, true) by simp [TcpConnection.continueFile, hf]]
  dsimp only
  unfold TcpConnection.flushOutput
  split
  · rfl
  · dsimp only
    split
    · split
      · split
        · rw [hdown, hq]
          rfl
        · rw [hq]
          rfl
      · rfl
    · rfl

theorem runFunctor_of_unnotified (h : s.Unnotified) (result : WriteResult) (user : HttpSide σ) :
    TcpConnection.applyCall (.runFunctor result user) s = s := by
  rw [TcpConnection.applyCall, h.queue]

/-- Only an arrival changes what was received. -/
theorem applyStep_received (app : HttpApp σ) {step : HttpStep} (hno : ∀ d, step ≠ .arrives d)
    (h : s.Unnotified) (hf : s.pendingFile.active = false) :
    (applyStep app step s).received = s.received := by
  cases step with
  | established => rfl
  | arrives d => exact absurd rfl (hno d)
  | readFailed errno => rfl
  | writable file output => exact handleWrite_received file output hf
  | functor result =>
    rw [applyStep, runFunctor_of_unnotified h]
  | hangUp => exact TcpConnection.handleClose_received
  | failed => rfl
  | destroyed =>
    unfold applyStep TcpConnection.connectDestroyed
    dsimp only
    split <;> rfl

theorem Answered.established (h : Answered sent unsent s) (hk : s.state = .kConnecting) :
    Answered sent unsent (s.connectEstablished id) := by
  have hi := h.streams.output.connectEstablished hk s.user
  refine ⟨h.streams.keep hi rfl fun hd => ?_, h.quiet.congr rfl, h.framed,
    fun _ => h.live (Or.inl hk)⟩
  exact absurd (show StateE.kConnected = .kDisconnected from hd) (by simp)

/-- The steps that do not reach the application leave the answers as they were. -/
theorem Answered.step (app : HttpApp σ) {step : HttpStep} (h : Answered sent unsent s)
    (hno : ∀ d, step ≠ .arrives d) (hmay : mayStep step s) :
    Answered sent unsent (applyStep app step s) := by
  cases step with
  | established => exact h.established hmay
  | arrives d => exact absurd rfl (hno d)
  | readFailed errno => exact h.aside _ s.user
  | writable file output =>
    have hf : s.handleWrite file output = s.flushOutput output := by
      simp [TcpConnection.handleWrite, TcpConnection.continueFile, h.streams.output.no_file]
    refine h.keep (h.streams.handleWrite file output) ?_ (Or.inl ?_)
    · rw [applyStep, hf]
      exact h.quiet.flushOutput output
    · rw [applyStep, hf]
      exact TcpConnection.flushOutput_state s output
  | functor result =>
    rw [applyStep, runFunctor_of_unnotified h.quiet]
    exact h
  | hangUp =>
    exact h.keep h.streams.handleClose h.quiet.handleClose
      (Or.inr (TcpConnection.handleClose_state s))
  | failed => exact h
  | destroyed =>
    refine h.keep h.streams.connectDestroyed ?_ ?_
    · apply h.quiet.congr
      unfold applyStep TcpConnection.connectDestroyed
      dsimp only
      split <;> rfl
    · unfold applyStep TcpConnection.connectDestroyed
      dsimp only
      split
      · exact Or.inr rfl
      · exact Or.inl rfl

theorem live_of_applyStep (app : HttpApp σ) {step : HttpStep} (hno : ∀ d, step ≠ .arrives d)
    (hmay : mayStep step s) (h : Answered sent unsent s) (hlive : Live (applyStep app step s)) :
    Live s := by
  cases step with
  | established => exact Or.inl hmay
  | arrives d => exact absurd rfl (hno d)
  | readFailed errno => exact hlive
  | writable file output =>
    have hf : s.handleWrite file output = s.flushOutput output := by
      simp [TcpConnection.handleWrite, TcpConnection.continueFile, h.streams.output.no_file]
    rw [applyStep, hf, Live, TcpConnection.flushOutput_state] at hlive
    exact hlive
  | functor result =>
    rw [applyStep, runFunctor_of_unnotified h.quiet] at hlive
    exact hlive
  | hangUp =>
    rw [applyStep, Live, TcpConnection.handleClose_state] at hlive
    rcases hlive with hlive | hlive <;> cases hlive
  | failed => exact hlive
  | destroyed =>
    by_cases hc : s.state = .kConnected
    · exact Or.inr hc
    · rw [applyStep, TcpConnection.connectDestroyed, if_neg hc] at hlive
      exact hlive

theorem deliver_nil {d : Delivery} (h : d.chunk = []) :
    deliver app d s = { s with inputBuffer := s.inputBuffer.readFd (.data []) }.handleClose := by
  unfold deliver TcpConnection.handleRead
  rw [h]

theorem deliver_ne {d : Delivery} (h : d.chunk ≠ []) :
    deliver app d s = onMessage app d.time d.result
      { s with inputBuffer := s.inputBuffer.readFd (.data d.chunk) } := by
  obtain ⟨b, bs, hb⟩ := List.exists_cons_of_ne_nil h
  unfold deliver TcpConnection.handleRead
  rw [hb]

/-- Every step of the loop thread takes up one call at most. -/
theorem applyStep_takesUp (app : HttpApp σ) (step : HttpStep) (h : Answered sent unsent s)
    (hmay : mayStep step s) : ∃ call, TakesUp app call s (applyStep app step s) := by
  by_cases harrives : ∃ d, step = .arrives d
  · obtain ⟨d, rfl⟩ := harrives
    have hmay : s.state ≠ .kConnecting := hmay
    rw [applyStep]
    by_cases hd : d.chunk = []
    · rw [deliver_nil hd]
      refine ⟨none, TakesUp.none (fun hlive => ?_) ?_ fun _ _ hs => ?_⟩
      · rw [Live, TcpConnection.handleClose_state] at hlive
        rcases hlive with hlive | hlive <;> cases hlive
      · exact (Prod.mk.inj TcpConnection.handleClose_received).2
      · have hs' := hs.aside (s.inputBuffer.readFd (.data [])) s.user
        exact hs'.keep hs'.streams.handleClose hs'.quiet.handleClose
          (Or.inr (TcpConnection.handleClose_state _))
    · rw [deliver_ne hd]
      obtain ⟨call, hcall⟩ := onMessage_takesUp app d.time d.result
        (s := { s with inputBuffer := s.inputBuffer.readFd (.data d.chunk) }) hmay
      exact ⟨call, hcall.around⟩
  · have hno : ∀ d, step ≠ .arrives d := fun d hd => harrives ⟨d, hd⟩
    refine ⟨none, TakesUp.none (live_of_applyStep app hno hmay h) ?_
      fun _ _ hs => hs.step app hno hmay⟩
    exact (Prod.mk.inj (applyStep_received app hno h.quiet h.streams.output.no_file)).2

end HttpServer

end MuduoPlus
