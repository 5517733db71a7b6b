import MuduoPlus.HttpAnswers

namespace MuduoPlus

namespace HttpServer

variable {σ : Type} {s : HttpConn σ}

/-- A connection as `TcpServer` makes it for an `HttpServer`, which sets neither notification
callback. -/
def NewConn (s : HttpConn σ) : Prop :=
  ∃ poller addr sockfd close user mark, 0 ≤ sockfd ∧ user.context = .empty ∧ user.log = [] ∧
    s = { TcpConnection.new poller addr sockfd false false close user with highWaterMark := mark }

theorem NewConn.answered (h : NewConn s) : Answered [] [] s := by
  obtain ⟨poller, addr, sockfd, close, user, mark, hfd, -, -, rfl⟩ := h
  have hi := TcpConnection.OutputInv.init
    (s := { TcpConnection.new poller addr sockfd false false close user with highWaterMark := mark })
    ⟨poller, addr, sockfd, false, false, close, user, mark, hfd, rfl⟩
  have hstreams := TcpConnection.Streams.of_open hi (by simp [TcpConnection.new])
  exact ⟨hstreams, ⟨rfl, rfl, rfl⟩, by simp, by simp⟩

theorem NewConn.calls_eq (h : NewConn s) : calls s = [] := by
  obtain ⟨poller, addr, sockfd, close, user, mark, -, -, hlog, rfl⟩ := h
  rw [calls]
  change user.log.filterMap HttpEvent.call? = []
  rw [hlog]
  rfl

end HttpServer

/-- The connections of one loop and the application's state, which they share. `history` records
the calls in the order in which they are answered, each with its connection. -/
structure HttpService (σ : Type) where
  app : σ
  conn : Nat → HttpConn σ
  history : List (Nat × HttpCall)

namespace HttpService

open HttpServer

variable {σ : Type} {app : HttpApp σ} {state₀ : σ} {s : HttpService σ}

/-- A connection with the application's state as it is now. -/
def loaded (s : HttpService σ) (i : Nat) : HttpConn σ :=
  { s.conn i with user := { (s.conn i).user with app := s.app } }

/-- A callback runs to its end before the loop takes up the next. -/
def act (app : HttpApp σ) (i : Nat) (step : HttpStep) (s : HttpService σ) : HttpService σ :=
  let after := applyStep app step (s.loaded i)
  { app := after.user.app
    conn := Function.update s.conn i after
    history := s.history ++
      ((calls after).drop (calls (s.loaded i)).length).map fun call => (i, call) }

def serviceSystem (app : HttpApp σ) (state₀ : σ) :
    ActionSystem (HttpService σ) (Nat × HttpStep) where
  init s := s.app = state₀ ∧ s.history = [] ∧ ∀ i, NewConn (s.conn i)
  permitted a s := mayStep a.2 (s.conn a.1)
  apply a s := act app a.1 a.2 s

instance (a : Nat × HttpStep) (s : HttpService σ) :
    Decidable ((serviceSystem app state₀).permitted a s) :=
  inferInstanceAs (Decidable (mayStep a.2 (s.conn a.1)))

/-- What the application answers to the calls of `history`, one after the other. -/
def replies (app : HttpApp σ) (state₀ : σ) (s : HttpService σ) : List (Nat × HttpResponse) :=
  (serveInTurn app.answer s.history state₀).1

/-- The application has answered the calls of `history` in turn, and each connection its own. -/
structure Serves (app : HttpApp σ) (state₀ : σ) (s : HttpService σ) : Prop where
  state : s.app = (serveInTurn app.answer s.history state₀).2
  logs : ∀ i, calls (s.conn i) = entriesOf i s.history
  conns : ∀ i, ∃ sent unsent, sent ++ unsent = entriesOf i (s.replies app state₀) ∧
    Answered sent unsent (s.conn i)
  parsed : ∀ i, Live (s.conn i) → .unparsable ∉ entriesOf i s.history

theorem Serves.init (h : (serviceSystem app state₀).init s) : Serves app state₀ s := by
  obtain ⟨hstate, hhistory, hconn⟩ := h
  refine ⟨?_, fun i => ?_, fun i => ⟨[], [], ?_, (hconn i).answered⟩, fun i _ => ?_⟩
  · rw [hhistory, hstate]
    rfl
  · rw [hhistory, (hconn i).calls_eq]
    rfl
  · rw [replies, hhistory]
    rfl
  · rw [hhistory]
    exact List.not_mem_nil

theorem serveInTurn_toList (i : Nat) (call : Option HttpCall) (state : σ) :
    serveInTurn app.answer (call.toList.map fun call => (i, call)) state =
      ((call.map fun call => (app.answer call state).1).toList.map fun resp => (i, resp),
        call.elim state fun call => (app.answer call state).2) := by
  cases call with
  | none => rfl
  | some call => rfl

theorem Serves.act (h : Serves app state₀ s) {i : Nat} {step : HttpStep}
    (hmay : mayStep step (s.conn i)) : Serves app state₀ (act app i step s) := by
  obtain ⟨sent, unsent, hreplies, hanswered⟩ := h.conns i
  have hloaded : Answered sent unsent (s.loaded i) := hanswered.aside _ _
  have hlogs : calls (s.loaded i) = entriesOf i s.history := h.logs i
  obtain ⟨call, hlive, hrefused, hcalls, hstate, htakes⟩ :=
    applyStep_takesUp app step hloaded hmay
  unfold HttpService.act
  dsimp only
  generalize applyStep app step (s.loaded i) = after at hlive hrefused hcalls hstate htakes ⊢
  have hnew : (calls after).drop (calls (s.loaded i)).length = call.toList := by
    rw [hcalls, List.drop_left]
  rw [hnew]
  have happ : (s.loaded i).user.app = (serveInTurn app.answer s.history state₀).2 := h.state
  have hturn := serveInTurn_append app.answer state₀ s.history
    (call.toList.map fun call => (i, call))
  rw [serveInTurn_toList, ← happ] at hturn
  refine ⟨?_, fun k => ?_, fun k => ?_, fun k => ?_⟩
  · rw [hturn]
    exact hstate
  · dsimp only
    by_cases hk : k = i
    · subst hk
      rw [Function.update_self, hcalls, hlogs, entriesOf_append, entriesOf_map_self]
    · rw [Function.update_of_ne hk, entriesOf_append, entriesOf_map_ne (Ne.symm hk),
        List.append_nil]
      exact h.logs k
  · unfold replies
    dsimp only
    rw [hturn]
    by_cases hk : k = i
    · subst hk
      obtain ⟨sent', unsent', heq, hafter⟩ := htakes sent unsent hloaded
      refine ⟨sent', unsent', ?_, ?_⟩
      · rw [heq, hreplies, entriesOf_append, entriesOf_map_self]
        rfl
      · rw [Function.update_self]
        exact hafter
    · obtain ⟨sent', unsent', heq, hother⟩ := h.conns k
      refine ⟨sent', unsent', ?_, ?_⟩
      · rw [heq, entriesOf_append, entriesOf_map_ne (Ne.symm hk), List.append_nil]
        rfl
      · rw [Function.update_of_ne hk]
        exact hother
  · dsimp only
    rw [entriesOf_append]
    by_cases hk : k = i
    · subst hk
      rw [Function.update_self, entriesOf_map_self]
      intro hafter hm
      rcases List.mem_append.mp hm with hm | hm
      · exact h.parsed k (hlive hafter) hm
      · exact hrefused (Option.mem_toList.mp hm) hafter
    · rw [Function.update_of_ne hk, entriesOf_map_ne (Ne.symm hk), List.append_nil]
      exact h.parsed k

theorem serves_of_reachable (h : (serviceSystem app state₀).Reachable s) : Serves app state₀ s :=
  h.invariant (fun _ => Serves.init) fun _ _ hmay hs => hs.act hmay

/-- In every run of the loop, whatever arrives on its connections in whatever pieces and however
little the kernel takes at a time, the application's state and the responses are those of answering
the calls one after the other, and each connection carries the responses to its own calls in their
order. Responses are withheld only from a connection that was shut down or lost. -/
theorem serves_serially (app : HttpApp σ) (h : (serviceSystem app state₀).Reachable s) :
    s.app = (serveInTurn app.answer s.history state₀).2 ∧
      ∀ i, calls (s.conn i) = entriesOf i s.history ∧
        ∃ sent unsent, sent ++ unsent = entriesOf i (s.replies app state₀) ∧
          (s.conn i).acceptedBytes <+: sent.flatMap HttpResponse.text ∧
          ((s.conn i).state ≠ .kDisconnected →
            (s.conn i).acceptedBytes ++ (s.conn i).outputBuffer.readable =
              sent.flatMap HttpResponse.text) ∧
          ((s.conn i).state = .kConnected → unsent = []) := by
  have hserves := serves_of_reachable h
  refine ⟨hserves.state, fun i => ⟨hserves.logs i, ?_⟩⟩
  obtain ⟨sent, unsent, hreplies, hanswered⟩ := hserves.conns i
  refine ⟨sent, unsent, hreplies, hanswered.streams.accepted, fun hup => ?_,
    fun hc => (hanswered.live (Or.inr hc)).1⟩
  have hstream := hanswered.streams.output.stream hup
  rw [List.append_nil, hanswered.streams.passed] at hstream
  exact hstream

/-- Two clients of an application that counts its calls; the kernel takes the second answer in two
parts, and the second client hangs up. -/
def twoClients : HttpService Nat where
  app := 0
  conn i := TcpConnection.new ⟨∅, ⟨{7}, ∅⟩⟩ i 7 false false true ⟨.empty, 0, []⟩
  history := []

def twoClientsRun : List (Nat × HttpStep) :=
  [(0, .established), (1, .established),
    (1, .arrives ⟨WireRequest.healthRequest.render, 0, .wrote 60⟩),
    (0, .arrives ⟨WireRequest.healthRequest.render.take 9, 1, .wrote 0⟩),
    (0, .arrives ⟨WireRequest.healthRequest.render.drop 9, 2, .wrote 20⟩),
    (1, .hangUp), (0, .writable (.wrote 0) (.wrote 40))]

theorem twoClients_init : (serviceSystem countingApp 0).init twoClients :=
  ⟨rfl, rfl, fun i => ⟨_, i, 7, true, ⟨.empty, 0, []⟩, _, by decide, rfl, rfl, rfl⟩⟩

theorem twoClients_permits : (serviceSystem countingApp 0).Permits twoClientsRun twoClients := by
  decide +kernel

theorem twoClients_serves_serially :
    let s := (serviceSystem countingApp 0).run twoClientsRun twoClients
    s.history.map Prod.fst = [1, 0] ∧ s.app = (serveInTurn countingApp.answer s.history 0).2 := by
  intro s
  refine ⟨by decide +kernel, ?_⟩
  exact (serves_serially countingApp
    ((ActionSystem.Reachable.init twoClients_init).run twoClients_permits)).1

/-- The deliveries to a connection among the actions of a run. -/
def deliveriesTo (i : Nat) (acts : List (Nat × HttpStep)) : List Delivery :=
  (entriesOf i acts).filterMap fun
    | .arrives d => some d
    | _ => none

theorem deliveriesTo_arrives (i : Nat) (d : Delivery) (acts : List (Nat × HttpStep)) :
    deliveriesTo i ((i, .arrives d) :: acts) = d :: deliveriesTo i acts := by
  rw [deliveriesTo, entriesOf_cons_self]
  rfl

theorem deliveriesTo_other {i k : Nat} {step : HttpStep}
    (h : k = i → ∀ d, step ≠ .arrives d) (acts : List (Nat × HttpStep)) :
    deliveriesTo i ((k, step) :: acts) = deliveriesTo i acts := by
  unfold deliveriesTo
  by_cases hk : k = i
  · subst hk
    rw [entriesOf_cons_self, List.filterMap_cons]
    cases step with
    | arrives d => exact absurd rfl (h rfl d)
    | _ => rfl
  · rw [entriesOf_cons_ne hk]

end HttpService

namespace HttpServer

variable {σ τ : Type} {s t : HttpConn σ} {u : HttpConn τ}

/-- Two connections that stand at the same place in the same requests, whatever became of the
answers. -/
structure SameParser (s : HttpConn σ) (u : HttpConn τ) : Prop where
  context : contextOf s = contextOf u
  buffer : s.inputBuffer = u.inputBuffer
  requests : requests s = HttpServer.requests u

theorem SameParser.of_received (h : t.received = s.received) (hs : SameParser s u) :
    SameParser t u := by
  obtain ⟨hbuffer, huser⟩ := Prod.mk.inj h
  refine ⟨?_, hbuffer.trans hs.buffer, ?_⟩
  · rw [contextOf, huser]
    exact hs.context
  · rw [HttpServer.requests, huser]
    exact hs.requests

theorem deliver_raised_context (app : HttpApp σ) {d : Delivery} (hne : d.chunk ≠ [])
    {e : StdException}
    (h : ((contextOf s).parseRequest (s.inputBuffer.readFd (.data d.chunk)) d.time).stop =
      some (.raised e)) :
    contextOf (deliver app d s) =
      ((contextOf s).parseRequest (s.inputBuffer.readFd (.data d.chunk)) d.time).ctx := by
  rw [deliver_ne hne]
  unfold onMessage onPlainMessage
  dsimp only
  change ((contextOf s).parseRequest _ _).stop = _ at h
  have hcontext : contextOf { s with inputBuffer := s.inputBuffer.readFd (.data d.chunk) } =
      contextOf s := rfl
  rw [hcontext]
  generalize (contextOf s).parseRequest (s.inputBuffer.readFd (.data d.chunk)) d.time = p at h ⊢
  obtain ⟨ret, ctx, buf⟩ := p
  cases ret with
  | error e => rfl
  | ok flag =>
    exfalso
    unfold HttpContext.ParseResult.stop at h
    cases flag with
    | false => cases h
    | true =>
      dsimp only at h
      split at h
      · cases h
      · cases h

/-- What the parser makes of a delivery does not depend on the application. -/
theorem SameParser.deliver (app : HttpApp σ) (app' : HttpApp τ) {d : Delivery} (hne : d.chunk ≠ [])
    (h : SameParser s u) : SameParser (deliver app d s) (HttpServer.deliver app' d u) := by
  have hs := deliver_spec app hne s
  have hu := deliver_spec app' hne u
  have hraised := fun e => deliver_raised_context app hne (s := s) (e := e)
  have hraised' := fun e => deliver_raised_context app' hne (s := u) (e := e)
  rw [← h.context, ← h.buffer] at hu hraised'
  generalize (contextOf s).parseRequest (s.inputBuffer.readFd (.data d.chunk)) d.time = p
    at hs hu hraised hraised'
  have hbuffer := hs.buffer.trans hu.buffer.symm
  cases hp : p.stop with
  | none =>
    refine ⟨(hs.waits hp).1.trans (hu.waits hp).1.symm, hbuffer, ?_⟩
    rw [hs.requests_of_waits hp, hu.requests_of_waits hp, h.requests]
  | some stop =>
    cases stop with
    | gotAll =>
      refine ⟨(hs.complete hp).1.trans (hu.complete hp).1.symm, hbuffer, ?_⟩
      rw [hs.requests_of_complete hp, hu.requests_of_complete hp, h.requests]
    | refused =>
      refine ⟨(hs.refused hp).1.trans (hu.refused hp).1.symm, hbuffer, ?_⟩
      have hreq := h.requests
      unfold HttpServer.requests at hreq ⊢
      rw [(hs.refused hp).2, (hu.refused hp).2, List.filterMap_append, List.filterMap_append, hreq]
    | raised e =>
      refine ⟨(hraised e hp).trans (hraised' e hp).symm, hbuffer, ?_⟩
      have hreq := h.requests
      unfold HttpServer.requests at hreq ⊢
      rw [hs.raised e hp, hu.raised e hp, List.filterMap_append, List.filterMap_append, hreq]

end HttpServer

namespace HttpService

variable {σ : Type} {app : HttpApp σ} {state₀ : σ} {s : HttpService σ}

open HttpServer

/-- Nothing but the deliveries to a connection matters to its parser. -/
theorem sameParser_run (hs : Serves app state₀ s) {acts : List (Nat × HttpStep)}
    (hperm : (serviceSystem app state₀).Permits acts s) {i : Nat}
    (hne : ∀ d ∈ deliveriesTo i acts, d.chunk ≠ []) {u : HttpConn σ} (h : SameParser (s.conn i) u) :
    SameParser (((serviceSystem app state₀).run acts s).conn i) (serve app (deliveriesTo i acts) u) := by
  induction acts generalizing s u with
  | nil => exact h
  | cons a acts ih =>
    obtain ⟨k, step⟩ := a
    obtain ⟨hmay, hrest⟩ := hperm
    have hmay : mayStep step (s.conn k) := hmay
    have hnext := hs.act hmay
    by_cases hd : k = i ∧ ∃ d, step = .arrives d
    · obtain ⟨rfl, d, rfl⟩ := hd
      rw [deliveriesTo_arrives] at hne ⊢
      have hloaded : SameParser (s.loaded k) u := ⟨h.context, h.buffer, h.requests⟩
      refine ih hnext hrest (fun d' hd' => hne d' (List.mem_cons_of_mem d hd')) ?_
      unfold HttpService.act
      dsimp only
      rw [Function.update_self]
      exact hloaded.deliver app app (hne d List.mem_cons_self)
    · have hno : k = i → ∀ d, step ≠ .arrives d := fun hk d hd' => hd ⟨hk, d, hd'⟩
      rw [deliveriesTo_other hno] at hne ⊢
      refine ih hnext hrest hne ?_
      unfold HttpService.act
      dsimp only
      by_cases hk : k = i
      · subst hk
        rw [Function.update_self]
        obtain ⟨sent, unsent, -, hanswered⟩ := hs.conns k
        have hloaded : SameParser (s.loaded k) u := ⟨h.context, h.buffer, h.requests⟩
        exact hloaded.of_received (applyStep_received app (hno rfl) (hanswered.quiet.congr rfl)
          hanswered.streams.output.no_file)
      · rw [Function.update_of_ne (Ne.symm hk)]
        exact h

theorem exists_requests {calls : List HttpCall} (h : .unparsable ∉ calls) :
    ∃ reqs : List HttpRequest, calls = reqs.map HttpCall.request := by
  induction calls with
  | nil => exact ⟨[], rfl⟩
  | cons call calls ih =>
    rw [List.mem_cons, not_or] at h
    obtain ⟨reqs, rfl⟩ := ih h.2
    cases call with
    | request req => exact ⟨req :: reqs, rfl⟩
    | unparsable => exact absurd rfl h.1

theorem requests_of_calls {c : HttpConn σ} {reqs : List HttpRequest}
    (h : calls c = reqs.map HttpCall.request) : requests c = reqs.map HttpRequest.untimed := by
  have hfilter : requests c = (calls c).filterMap fun
      | .request req => some req.untimed
      | .unparsable => none := by
    rw [requests, calls, List.filterMap_filterMap]
    apply List.filterMap_congr
    intro e _
    cases e <;> rfl
  rw [hfilter, h, List.filterMap_map]
  exact congrFun List.filterMap_eq_map reqs

/-- A client of the service that never lets one delivery complete two of its requests: once what
the server has for it is out, it reads one answer to each of its requests, in their order, and they
are the answers of the application in its turn. -/
theorem client_reads_every_answer (app : HttpApp σ) (h : (serviceSystem app state₀).init s)
    {acts : List (Nat × HttpStep)} (hperm : (serviceSystem app state₀).Permits acts s) {i : Nat}
    {rs : List WireRequest} (hw : ∀ r ∈ rs, r.WellFormed)
    (hne : ∀ d ∈ deliveriesTo i acts, d.chunk ≠ [])
    (hbytes : bytesOf (deliveriesTo i acts) = WireRequest.renderAll rs)
    (hone : OneEach rs 0 (deliveriesTo i acts))
    (hopen : (((serviceSystem app state₀).run acts s).conn i).state = .kConnected)
    (hout : (((serviceSystem app state₀).run acts s).conn i).outputBuffer.readable = [])
    (hread : ∀ resp ∈ entriesOf i (((serviceSystem app state₀).run acts s).replies app state₀),
      resp.Readable) :
    ∃ reqs : List HttpRequest, entriesOf i ((serviceSystem app state₀).run acts s).history =
        reqs.map HttpCall.request ∧
      reqs.map HttpRequest.untimed = rs.map WireRequest.parsed ∧
      HttpReader.decode (((serviceSystem app state₀).run acts s).conn i).acceptedBytes =
        some ((entriesOf i (((serviceSystem app state₀).run acts s).replies app state₀)).map
          HttpResponse.view) := by
  have hfresh : Fresh (s.conn i) := by
    obtain ⟨poller, addr, sockfd, close, user, mark, -, hcontext, hlog, heq⟩ := h.2.2 i
    rw [heq]
    refine ⟨?_, hlog, Buffer.new_valid _, Buffer.new_readable _⟩
    simp only [contextOf, TcpConnection.new, hcontext]
  have hparser := sameParser_run (Serves.init h) hperm hne ⟨rfl, rfl, rfl⟩
  have hserved := ((hfresh.prompt_iff app hw hne hbytes).mpr hone).requests_serve hbytes
  have hfinal := serves_of_reachable ((ActionSystem.Reachable.init h).run hperm)
  generalize (serviceSystem app state₀).run acts s = s' at hopen hout hread hparser hfinal ⊢
  obtain ⟨sent, unsent, hreplies, hanswered⟩ := hfinal.conns i
  obtain ⟨rfl, hframed⟩ := hanswered.live (Or.inr hopen)
  rw [List.append_nil] at hreplies
  obtain ⟨reqs, hreqs⟩ := exists_requests (hfinal.parsed i (Or.inr hopen))
  refine ⟨reqs, hreqs, ?_, ?_⟩
  · rw [← requests_of_calls ((hfinal.logs i).trans hreqs), hparser.requests, hserved]
  · have hstream := hanswered.streams.output.stream (by rw [hopen]; simp)
    rw [hout, List.append_nil, List.append_nil, hanswered.streams.passed] at hstream
    rw [hstream, ← hreplies]
    rw [← hreplies] at hread
    have hall := @HttpResponse.readResponses_texts _ none hframed (by simp) (by simpa using hread) _
      (HttpResponse.length_le_texts _)
    simpa [HttpReader.decode] using hall

theorem twoClients_reads_answer :
    let s := (serviceSystem countingApp 0).run twoClientsRun twoClients
    HttpReader.decode (s.conn 0).acceptedBytes =
      some ((entriesOf 0 (s.replies countingApp 0)).map HttpResponse.view) := by
  have hw : ∀ r ∈ [WireRequest.healthRequest], r.WellFormed := by
    simpa using WireRequest.healthRequest_wellFormed
  have hread : ∀ resp ∈ entriesOf 0
      (((serviceSystem countingApp 0).run twoClientsRun twoClients).replies countingApp 0),
      resp.Readable := by
    have hone : entriesOf 0
        (((serviceSystem countingApp 0).run twoClientsRun twoClients).replies countingApp 0) =
          [⟨.k200Ok, [], [], [], false⟩] := by decide +kernel
    intro resp hresp
    rw [hone, List.mem_singleton] at hresp
    rw [hresp]
    exact ⟨by decide, by decide, by decide, by decide⟩
  obtain ⟨reqs, -, -, hdecode⟩ := client_reads_every_answer countingApp twoClients_init
    twoClients_permits (i := 0) hw (by decide +kernel) (by decide +kernel) (by decide +kernel)
    (by decide +kernel) (by decide +kernel) hread
  exact hdecode

end HttpService

end MuduoPlus
