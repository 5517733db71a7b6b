import MuduoPlus.HttpContext
import MuduoPlus.StreamMachine

namespace MuduoPlus

/-- How a call of `parseRequest` that does not ask for more bytes ends. -/
inductive ParseStop where
  | gotAll
  | refused
  | raised (e : StdException)
  deriving DecidableEq, Repr

namespace HttpContext

/-- One turn of the parser on plain bytes, without the receive time. -/
def move (ctx : HttpContext) (bytes : Bytes) : Move HttpContext ParseStop UInt8 :=
  match ctx.state with
  | .kExpectRequestLine =>
    match cutLine bytes with
    | none => .wait
    | some (line, rest) =>
      let parsed := processRequestLine ctx.request line
      if parsed.1 then .go ⟨.kExpectHeaders, parsed.2⟩ rest
      else .stop .refused ⟨.kExpectRequestLine, parsed.2⟩ bytes
  | .kExpectHeaders =>
    match cutLine bytes with
    | none => .wait
    | some (line, rest) =>
      match cutAt chColon line with
      | some (field, text) => .go ⟨.kExpectHeaders, ctx.request.addHeader field text⟩ rest
      | none =>
        if line = [] then
          match endHeaders ctx.request with
          | .body req => .go ⟨.kExpectBody, req⟩ rest
          | .complete req => .stop .gotAll ⟨.kGotAll, req⟩ rest
          | .missingLength => .stop .refused ctx rest
          | .raised e => .stop (.raised e) ctx bytes
        else .stop .refused ctx rest
  | .kExpectBody =>
    if bytes.length < ctx.request.contentLength then .wait
    else
      .stop .gotAll ⟨.kGotAll, ctx.request.setBody (bytes.take ctx.request.contentLength)⟩
        (bytes.drop ctx.request.contentLength)
  | .kGotAll => .stop .gotAll ctx bytes

theorem move_go_shorter {ctx ctx' : HttpContext} {bytes rest : Bytes}
    (h : move ctx bytes = .go ctx' rest) : rest.length < bytes.length := by
  have shrink : ∀ line rest, cutLine bytes = some (line, rest) → rest.length < bytes.length := by
    intro line rest hl
    have := cutPair_length hl
    omega
  unfold move at h
  split at h
  next =>
    split at h
    next => cases h
    next line after hl =>
      simp only at h
      split at h
      next => cases h; exact shrink line _ hl
      next => cases h
  next =>
    split at h
    next => cases h
    next line after hl =>
      split at h
      next => cases h; exact shrink line _ hl
      next =>
        split at h
        next =>
          split at h
          next => cases h; exact shrink line _ hl
          next => cases h
          next => cases h
          next => cases h
        next => cases h
  next => split at h <;> cases h
  next => cases h

theorem move_ne_wait_append {ctx : HttpContext} {bytes : Bytes} (h : move ctx bytes ≠ .wait)
    (more : Bytes) :
    move ctx (bytes ++ more) =
      match move ctx bytes with
      | .wait => .wait
      | .go ctx' rest => .go ctx' (rest ++ more)
      | .stop r ctx' rest => .stop r ctx' (rest ++ more) := by
  unfold move at h ⊢
  cases hs : ctx.state with
  | kExpectRequestLine =>
    cases hc : cutLine bytes with
    | none => simp [hs, hc] at h
    | some p =>
      have hm : cutLine (bytes ++ more) = some (p.1, p.2 ++ more) := cutPair_append hc more
      simp only [hm]
      split <;> rfl
  | kExpectHeaders =>
    cases hc : cutLine bytes with
    | none => simp [hs, hc] at h
    | some p =>
      have hm : cutLine (bytes ++ more) = some (p.1, p.2 ++ more) := cutPair_append hc more
      simp only [hm]
      cases cutAt chColon p.1 with
      | some q => rfl
      | none =>
        by_cases hl : p.1 = []
        · simp only [hl, if_true]
          cases endHeaders ctx.request <;> rfl
        · simp only [hl, if_false]
  | kExpectBody =>
    by_cases hlt : bytes.length < ctx.request.contentLength
    · simp [hs, hlt] at h
    · have hlt' : ¬(bytes ++ more).length < ctx.request.contentLength := by
        rw [List.length_append]
        omega
      have htake : (bytes ++ more).take ctx.request.contentLength =
          bytes.take ctx.request.contentLength := List.take_append_of_le_length (by omega)
      have hdrop : (bytes ++ more).drop ctx.request.contentLength =
          bytes.drop ctx.request.contentLength ++ more := List.drop_append_of_le_length (by omega)
      simp only [hlt, hlt', if_false, htake, hdrop]
  | kGotAll => rfl

/-- The parser as a machine on a growing input. -/
def machine : StreamMachine HttpContext ParseStop UInt8 where
  move := move
  go_shorter := move_go_shorter
  go_append := by
    intro ctx bytes ctx' rest h more
    have hh := move_ne_wait_append (by rw [h]; intro hh; cases hh) more
    rw [h] at hh
    exact hh
  stop_append := by
    intro ctx bytes r ctx' rest h more
    have hh := move_ne_wait_append (by rw [h]; intro hh; cases hh) more
    rw [h] at hh
    exact hh

theorem machine_move (ctx : HttpContext) (bytes : Bytes) : machine.move ctx bytes = move ctx bytes :=
  rfl

/-- The context without the receive time of its request. -/
def untimed (ctx : HttpContext) : HttpContext := { ctx with request := ctx.request.untimed }

theorem setTarget_untimed (req : HttpRequest) (target : Bytes) :
    req.untimed.setTarget target = (req.setTarget target).untimed := by
  unfold HttpRequest.setTarget
  cases cutAt chQuestion target with
  | none => rfl
  | some p => rfl

theorem processRequestLine_untimed (req : HttpRequest) (line : Bytes) :
    processRequestLine req.untimed line =
      ((processRequestLine req line).1, (processRequestLine req line).2.untimed) := by
  unfold processRequestLine
  cases cutAt chSpace line with
  | none => rfl
  | some p =>
    have hset : req.untimed.setMethod p.1 = ((req.setMethod p.1).1, (req.setMethod p.1).2.untimed) :=
      rfl
    simp only [hset]
    cases (req.setMethod p.1).1 with
    | false => rfl
    | true =>
      simp only [if_true]
      cases cutAt chSpace p.2 with
      | none => rfl
      | some q =>
        simp only [setTarget_untimed]
        split_ifs <;> rfl

theorem endHeaders_untimed (req : HttpRequest) :
    endHeaders req.untimed =
      match endHeaders req with
      | .body r => .body r.untimed
      | .complete r => .complete r.untimed
      | .missingLength => .missingLength
      | .raised e => .raised e := by
  have hm : req.untimed.method = req.method := rfl
  have hh : req.untimed.getHeader (ascii "Content-Length") =
    req.getHeader (ascii "Content-Length") := rfl
  unfold endHeaders
  rw [hm, hh]
  by_cases hp : req.method = .kPost ∨ req.method = .kPut
  · simp only [hp, if_true]
    by_cases hne : req.getHeader (ascii "Content-Length") ≠ []
    · simp only [hne, ne_eq, not_false_eq_true, if_true]
      cases stoul (req.getHeader (ascii "Content-Length")) with
      | error e => rfl
      | ok n =>
        simp only
        split_ifs <;> rfl
    · simp only [hne, if_false]
  · simp only [hp, if_false]

/-- What a finished call looks like to its caller: `none` asks for more bytes. -/
def ParseResult.stop (r : ParseResult) : Option ParseStop :=
  match r.ret with
  | .error e => some (.raised e)
  | .ok false => some .refused
  | .ok true => if r.ctx.gotAll then some .gotAll else none

/-- Taking a line and its end leaves what follows them. -/
theorem retrieve_line {buf : Buffer} (hv : buf.Valid) {line rest : Bytes}
    (hc : cutLine buf.readable = some (line, rest)) :
    (buf.retrieve (line.length + 2)).Valid ∧ (buf.retrieve (line.length + 2)).readable = rest := by
  refine ⟨Buffer.retrieve_valid hv _, ?_⟩
  have hline : line ++ chCR :: chLF :: rest = (line ++ [chCR, chLF]) ++ rest := by simp
  rw [Buffer.retrieve_readable hv, cutPair_eq_some hc, hline, List.drop_left' (by simp)]

/-- A turn on the buffer is the machine's move on its readable bytes. -/
theorem turn_refines_move (t : Timestamp) (ctx : HttpContext) {buf : Buffer} (hv : buf.Valid) :
    match turn t ctx buf with
    | .more ctx' buf' => buf'.Valid ∧ move ctx.untimed buf.readable = .go ctx'.untimed buf'.readable
    | .done ret ctx' buf' => buf'.Valid ∧
      match ParseResult.stop ⟨ret, ctx', buf'⟩ with
      | some r => move ctx.untimed buf.readable = .stop r ctx'.untimed buf'.readable
      | none => move ctx.untimed buf.readable = .wait ∧ ctx' = ctx ∧ buf' = buf := by
  have hlen := Buffer.length_readable hv
  unfold turn move findLine
  have hstate : ctx.untimed.state = ctx.state := rfl
  have hreq : ctx.untimed.request = ctx.request.untimed := rfl
  rw [hstate, hreq]
  cases hs : ctx.state with
  | kExpectRequestLine =>
    simp only
    cases hc : cutLine buf.readable with
    | none => simp [hv, ParseResult.stop, gotAll, hs]
    | some p =>
      obtain ⟨hval, hrest⟩ := retrieve_line hv hc
      simp only [Option.map_some, processRequestLine_untimed]
      cases hok : (processRequestLine ctx.request p.1).1 with
      | true =>
        simp only [if_true]
        exact ⟨hval, by rw [hrest]; rfl⟩
      | false => exact ⟨hv, rfl⟩
  | kExpectHeaders =>
    simp only
    cases hc : cutLine buf.readable with
    | none => simp [hv, ParseResult.stop, gotAll, hs]
    | some p =>
      obtain ⟨hval, hrest⟩ := retrieve_line hv hc
      simp only [Option.map_some]
      cases cutAt chColon p.1 with
      | some q => exact ⟨hval, by rw [hrest]; rfl⟩
      | none =>
        by_cases hl : p.1 = []
        · simp only [hl, if_true, endHeaders_untimed]
          rw [hl] at hval hrest
          cases endHeaders ctx.request with
          | body req => exact ⟨hval, by rw [hrest]; rfl⟩
          | complete req =>
            simp only [ParseResult.stop, gotAll, beq_self_eq_true, if_true]
            exact ⟨hval, by rw [hrest]; rfl⟩
          | missingLength => exact ⟨hval, by rw [hrest]; rfl⟩
          | raised e => exact ⟨hv, rfl⟩
        · simp only [hl, if_false]
          exact ⟨hval, by rw [hrest]; rfl⟩
  | kExpectBody =>
    have hcl : ctx.request.untimed.contentLength = ctx.request.contentLength := rfl
    simp only [hcl, hlen]
    by_cases hlt : buf.readableBytes < ctx.request.contentLength
    · simp [hlt, hv, ParseResult.stop, gotAll, hs]
    · simp only [hlt, if_false]
      refine ⟨Buffer.retrieve_valid hv _, ?_⟩
      simp only [ParseResult.stop, gotAll, beq_self_eq_true, if_true,
        Buffer.retrieve_readable hv]
      rfl
  | kGotAll => simp [hv, ParseResult.stop, gotAll, hs, untimed]

/-- A call of `parseRequest` is a run of the machine on the readable bytes. -/
theorem parseRequest_refines_run (ctx : HttpContext) {buf : Buffer} (t : Timestamp)
    (hv : buf.Valid) :
    (parseRequest ctx buf t).buf.Valid ∧
      machine.run ctx.untimed buf.readable =
        ⟨(parseRequest ctx buf t).stop, (parseRequest ctx buf t).ctx.untimed,
          (parseRequest ctx buf t).buf.readable⟩ := by
  induction ctx, buf using parseRequest.induct t with
  | case1 ctx buf ctx' buf' h ih =>
    have hturn := turn_refines_move t ctx hv
    rw [h] at hturn
    obtain ⟨hval, hmove⟩ := hturn
    obtain ⟨hv', hrun⟩ := ih hval
    rw [parseRequest_more h]
    exact ⟨hv', (machine.run_go hmove).trans hrun⟩
  | case2 ctx buf ret ctx' buf' h =>
    have hturn := turn_refines_move t ctx hv
    rw [h] at hturn
    obtain ⟨hval, hmove⟩ := hturn
    rw [parseRequest_done h]
    refine ⟨hval, ?_⟩
    cases hstop : ParseResult.stop ⟨ret, ctx', buf'⟩ with
    | some r =>
      rw [hstop] at hmove
      exact machine.run_stop hmove
    | none =>
      rw [hstop] at hmove
      obtain ⟨hwait, rfl, rfl⟩ := hmove
      exact machine.run_wait hwait

end HttpContext

end MuduoPlus
