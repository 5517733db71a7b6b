import MuduoPlus.ActionSystem
import MuduoPlus.HttpHead
import MuduoPlus.HttpServerSpec

namespace MuduoPlus

namespace HttpContext

/-- With `rest` behind the blank line the request is complete. -/
def EndsWithin (req : HttpRequest) (rest : Bytes) : Prop :=
  match endHeaders req with
  | .complete _ => True
  | .body r => r.contentLength ≤ rest.length
  | .missingLength => False
  | .raised _ => False

/-- The bytes complete the request the parser is working on. -/
def Completes (ctx : HttpContext) (bytes : Bytes) : Prop :=
  match ctx.state with
  | .kExpectBody => ctx.request.contentLength ≤ bytes.length
  | .kGotAll => True
  | _ => ∃ req rest, ReachesBlankLine ctx bytes req rest ∧ EndsWithin req rest

theorem run_complete_of_reaches {ctx : HttpContext} {bytes rest : Bytes} {req : HttpRequest}
    (h : ReachesBlankLine ctx bytes req rest) :
    (machine.run ctx bytes).result = some .gotAll ↔ EndsWithin req rest := by
  rw [run_of_reachesBlankLine h]
  unfold EndsWithin
  cases endHeaders req with
  | body r =>
    simp only [run_body]
    split
    next hlt => simp [hlt]
    next hlt => simpa using hlt
  | complete r => simp
  | missingLength => simp
  | raised e => simp

theorem run_complete_head {ctx : HttpContext} {bytes : Bytes}
    (hs : ctx.state = .kExpectRequestLine ∨ ctx.state = .kExpectHeaders) :
    (machine.run ctx bytes).result = some .gotAll ↔
      ∃ req rest, ReachesBlankLine ctx bytes req rest ∧ EndsWithin req rest := by
  constructor
  · intro hgot
    rcases run_head_cases hs with hreaches | hnone | hrefused
    · obtain ⟨req, rest, hreach⟩ := hreaches
      exact ⟨req, rest, hreach, (run_complete_of_reaches hreach).mp hgot⟩
    · rw [hnone] at hgot
      cases hgot
    · rw [hrefused] at hgot
      cases hgot
  · rintro ⟨req, rest, hreach, hend⟩
    exact (run_complete_of_reaches hreach).mpr hend

theorem run_complete_iff (ctx : HttpContext) (bytes : Bytes) :
    (machine.run ctx bytes).result = some .gotAll ↔ Completes ctx bytes := by
  obtain ⟨state, request⟩ := ctx
  cases state with
  | kExpectRequestLine => exact run_complete_head (Or.inl rfl)
  | kExpectHeaders => exact run_complete_head (Or.inr rfl)
  | kExpectBody =>
    simp only [Completes, run_body]
    split
    next hlt => simp [hlt]
    next hlt => simpa using hlt
  | kGotAll => simp [Completes, run_gotAll]

theorem endsWithin_untimed (req : HttpRequest) (rest : Bytes) :
    EndsWithin req.untimed rest ↔ EndsWithin req rest := by
  unfold EndsWithin
  rw [endHeaders_untimed]
  cases endHeaders req with
  | body r => rfl
  | complete r => rfl
  | missingLength => rfl
  | raised e => rfl

theorem reaches_endsWithin_untimed (ctx : HttpContext) (bytes : Bytes) :
    (∃ req rest, ReachesBlankLine ctx.untimed bytes req rest ∧ EndsWithin req rest) ↔
      ∃ req rest, ReachesBlankLine ctx bytes req rest ∧ EndsWithin req rest := by
  constructor
  · rintro ⟨req, rest, hreach, hend⟩
    obtain ⟨timed, ht, rfl⟩ := reachesBlankLine_untimed.mp hreach
    exact ⟨timed, rest, ht, (endsWithin_untimed timed rest).mp hend⟩
  · rintro ⟨req, rest, hreach, hend⟩
    exact ⟨req.untimed, rest, reachesBlankLine_untimed.mpr ⟨req, hreach, rfl⟩,
      (endsWithin_untimed req rest).mpr hend⟩

theorem completes_untimed {ctx : HttpContext} {bytes : Bytes} :
    Completes ctx.untimed bytes ↔ Completes ctx bytes := by
  have hreach := reaches_endsWithin_untimed ctx bytes
  obtain ⟨state, request⟩ := ctx
  cases state with
  | kExpectRequestLine => exact hreach
  | kExpectHeaders => exact hreach
  | kExpectBody => rfl
  | kGotAll => rfl

/-- A call of the parser finds a request exactly if its bytes complete one. -/
theorem parseRequest_complete_iff (ctx : HttpContext) {buf : Buffer} (hv : buf.Valid)
    (t : Timestamp) :
    (parseRequest ctx buf t).stop = some .gotAll ↔ Completes ctx buf.readable := by
  obtain ⟨-, hrun⟩ := parseRequest_refines_run ctx t hv
  rw [← completes_untimed, ← run_complete_iff, hrun]

end HttpContext

theorem HttpEvent.not_givesUp_of_invokes {e : HttpEvent} (h : e.Invokes) : ¬e.GivesUp := by
  cases e with
  | middleware index => exact id
  | handler => exact id
  | fallback => exact id
  | dispatched request => exact h.elim
  | answered400 => exact h.elim
  | closing => exact h.elim
  | raised e => exact h.elim

namespace HttpServer

variable {σ : Type} {app : HttpApp σ} {s : HttpConn σ}

/-- What happens around one connection: bytes arrive, or something else leaves its reading
side alone: writes, functors of the loop, calls for other connections. -/
inductive HttpAction (σ : Type) where
  | deliver (d : Delivery)
  | elsewhere (after : HttpConn σ)

/-- All there is to a connection of the server. An exception of the parser ends the process. -/
def httpSystem (app : HttpApp σ) : ActionSystem (HttpConn σ) (HttpAction σ) where
  init s := s.user.log = [] ∧ s.inputBuffer.Valid
  permitted
    | .deliver d, s => d.chunk ≠ [] ∧ ∀ e, .raised e ∉ s.user.log
    | .elsewhere after, s => after.inputBuffer = s.inputBuffer ∧
        after.user.context = s.user.context ∧ after.user.log = s.user.log
  apply
    | .deliver d, s => deliver app d s
    | .elsewhere after, _ => after

/-- The peer completes no request any more once the server has given up. -/
def Quiet : HttpAction σ → HttpConn σ → Prop
  | .deliver d, s => (∃ e ∈ s.user.log, e.GivesUp) →
      ¬(contextOf s).Completes (s.inputBuffer.readable ++ d.chunk)
  | .elsewhere _, _ => True

/-- Nothing is called for the connection after the server has given up on it. -/
def CallsEnd (log : List HttpEvent) : Prop :=
  log.Pairwise fun a b => a.GivesUp → ¬b.Invokes

instance (log : List HttpEvent) : Decidable (CallsEnd log) :=
  inferInstanceAs (Decidable (log.Pairwise fun a b => a.GivesUp → ¬b.Invokes))

theorem CallsEnd.snoc {log : List HttpEvent} (h : CallsEnd log) {e : HttpEvent} (he : ¬e.Invokes) :
    CallsEnd (log ++ [e]) := by
  refine List.pairwise_append.mpr ⟨h, List.pairwise_singleton _ _, ?_⟩
  intro a _ b hb _
  rw [List.mem_singleton.mp hb]
  exact he

/-- A request on a connection that is still wanted. -/
theorem callsEnd_request {log calls tail : List HttpEvent} (hwanted : ∀ a ∈ log, ¬a.GivesUp)
    (request : HttpRequest) (hcalls : ∀ e ∈ calls, e.Invokes)
    (htail : tail = [] ∨ tail = [.closing]) :
    CallsEnd (log ++ .dispatched request :: (calls ++ tail)) := by
  have hserving : ∀ a ∈ log ++ .dispatched request :: calls, ¬a.GivesUp := by
    intro a ha
    rcases List.mem_append.mp ha with hl | hc
    · exact hwanted a hl
    · rcases List.mem_cons.mp hc with rfl | hc
      · exact id
      · exact HttpEvent.not_givesUp_of_invokes (hcalls a hc)
  have hopen : CallsEnd (log ++ .dispatched request :: calls) :=
    List.pairwise_iff_forall_sublist.mpr fun {a b} hab hup =>
      absurd hup (hserving a (hab.subset (by simp)))
  rcases htail with rfl | rfl
  · rw [List.append_nil]
    exact hopen
  · have hlast := hopen.snoc (e := .closing) id
    simpa using hlast

structure GiveUpInv (s : HttpConn σ) : Prop where
  valid : s.inputBuffer.Valid
  order : CallsEnd s.user.log

theorem GiveUpInv.deliver {d : Delivery} (h : GiveUpInv s) (hne : d.chunk ≠ [])
    (hq : Quiet (.deliver d) s) : GiveUpInv (deliver app d s) := by
  obtain ⟨hv, hr⟩ := Buffer.readFd_spec h.valid d.chunk
  have hspec := deliver_spec app hne s
  have hcomplete := HttpContext.parseRequest_complete_iff (contextOf s) hv d.time
  have hpv := (HttpContext.parseRequest_refines_run (contextOf s) d.time hv).1
  rw [hr] at hcomplete
  generalize (contextOf s).parseRequest (s.inputBuffer.readFd (.data d.chunk)) d.time = p
    at hspec hcomplete hpv
  refine ⟨by rw [hspec.buffer]; exact hpv, ?_⟩
  cases hp : p.stop with
  | none =>
    rw [(hspec.waits hp).2]
    exact h.order
  | some stop =>
    cases stop with
    | gotAll =>
      obtain ⟨-, calls, tail, hlog, hcalls, htail⟩ := hspec.complete hp
      have hwanted : ∀ a ∈ s.user.log, ¬a.GivesUp := by
        intro a ha hup
        exact hq ⟨a, ha, hup⟩ (hcomplete.mp hp)
      rw [hlog]
      exact callsEnd_request hwanted _ hcalls htail
    | refused =>
      rw [(hspec.refused hp).2]
      exact h.order.snoc id
    | raised e =>
      rw [hspec.raised e hp]
      exact h.order.snoc id

/-- In every run in which the peer completes no request after the server has given up, no
middleware, handler or fallback is called after that. -/
theorem no_call_after_giving_up (h : ((httpSystem app).restrict Quiet).Reachable s) :
    CallsEnd s.user.log := by
  have hinv : GiveUpInv s := by
    refine h.invariant ?_ ?_
    · rintro s ⟨hlog, hv⟩
      refine ⟨hv, ?_⟩
      rw [hlog]
      exact List.Pairwise.nil
    · intro a s hp hi
      obtain ⟨hperm, hq⟩ := hp
      cases a with
      | deliver d => exact hi.deliver hperm.1 hq
      | elsewhere after =>
        obtain ⟨hbuf, -, hlog⟩ := hperm
        exact ⟨hbuf ▸ hi.valid, hlog ▸ hi.order⟩
  exact hinv.order

/-- A header line without a colon. -/
def badHeader : Delivery := ⟨ascii "GET /pay HTTP/1.1\r\nbad\r\n", 0, .wrote 0⟩

theorem badHeader_log : (deliver countingApp badHeader openConn).user.log = [.answered400] := by
  decide +kernel

theorem not_raised_after_badHeader (e : StdException) :
    .raised e ∉ (deliver countingApp badHeader openConn).user.log := by
  rw [badHeader_log]
  simp

/-- After the refused header line the peer sends one more header line, and nothing runs. -/
theorem no_call_after_giving_up_header :
    let more : Delivery := ⟨ascii "Host: a\r\n", 1, .wrote 0⟩
    let s := deliver countingApp more (deliver countingApp badHeader openConn)
    s.user.log = [.answered400] ∧ CallsEnd s.user.log := by
  intro more s
  have hquiet : ¬(contextOf (deliver countingApp badHeader openConn)).Completes
      ((deliver countingApp badHeader openConn).inputBuffer.readable ++ more.chunk) := by
    rw [← HttpContext.run_complete_iff]
    decide +kernel
  have h0 : ((httpSystem countingApp).restrict Quiet).Reachable openConn :=
    .init ⟨rfl, Buffer.new_valid kInitialSize⟩
  have hp : ((httpSystem countingApp).restrict Quiet).Permits [.deliver badHeader, .deliver more]
      openConn :=
    ⟨⟨⟨by decide, fun _ he => nomatch he⟩, fun ⟨_, he, _⟩ => nomatch he⟩,
      ⟨⟨by decide, not_raised_after_badHeader⟩, fun _ => hquiet⟩, trivial⟩
  exact ⟨by decide +kernel, no_call_after_giving_up (h0.run hp)⟩

/-- After the 400 an empty line ends the head, and the handler runs for that request. -/
theorem handler_called_after_400 :
    let blank : Delivery := ⟨kCRLF, 1, .wrote 0⟩
    let refused := deliver countingApp badHeader openConn
    let s := deliver countingApp blank refused
    (httpSystem countingApp).Reachable s ∧
      refused.user.log = [.answered400] ∧ refused.state = .kDisconnecting ∧ refused.user.app = 0 ∧
      s.user.app = 1 ∧ ¬CallsEnd s.user.log := by
  intro blank refused s
  have h0 : (httpSystem countingApp).Reachable openConn := .init ⟨rfl, Buffer.new_valid kInitialSize⟩
  have hp : (httpSystem countingApp).Permits [.deliver badHeader, .deliver blank] openConn :=
    ⟨⟨by decide, fun _ he => nomatch he⟩,
      ⟨by decide, not_raised_after_badHeader⟩, trivial⟩
  have hafter : refused.state = .kDisconnecting ∧ refused.user.app = 0 ∧ s.user.app = 1 ∧
      ¬CallsEnd s.user.log := by decide +kernel
  exact ⟨h0.run hp, badHeader_log, hafter⟩

end HttpServer

end MuduoPlus
