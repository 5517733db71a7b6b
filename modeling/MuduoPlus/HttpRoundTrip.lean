import MuduoPlus.HttpRender

namespace MuduoPlus

namespace HttpContext

theorem retrieve_readableBytes_le (buf : Buffer) (len : Nat) :
    (buf.retrieve len).readableBytes ≤ buf.readableBytes := by
  unfold Buffer.retrieve
  split
  next =>
    simp only [Buffer.readableBytes]
    omega
  next =>
    simp only [Buffer.retrieveAll, Buffer.readableBytes]
    omega

theorem turn_done_le {t : Timestamp} {ctx ctx' : HttpContext} {buf buf' : Buffer}
    {ret : Except StdException Bool} (h : turn t ctx buf = .done ret ctx' buf') :
    buf'.readableBytes ≤ buf.readableBytes := by
  have shrink := retrieve_readableBytes_le buf
  unfold turn at h
  split at h
  next =>
    split at h
    next => cases h; exact le_rfl
    next =>
      simp only at h
      split at h
      next => cases h
      next => cases h; exact le_rfl
  next =>
    split at h
    next => cases h; exact le_rfl
    next =>
      simp only at h
      split at h
      next => cases h
      next =>
        split at h
        next =>
          split at h
          next => cases h
          next => cases h; exact shrink _
          next => cases h; exact shrink _
          next => cases h; exact le_rfl
        next => cases h; exact shrink _
  next =>
    split at h
    next => cases h; exact le_rfl
    next => cases h; exact shrink _
  next => cases h; exact le_rfl

theorem parseRequest_readableBytes_le (ctx : HttpContext) (buf : Buffer) (t : Timestamp) :
    (parseRequest ctx buf t).buf.readableBytes ≤ buf.readableBytes := by
  induction ctx, buf using parseRequest.induct t with
  | case1 ctx buf ctx' buf' h ih =>
    have hlt := turn_more_lt h
    rw [parseRequest_more h]
    omega
  | case2 ctx buf ret ctx' buf' h =>
    rw [parseRequest_done h]
    exact turn_done_le h

/-- From the start of a request nothing is complete before a line has been taken. -/
theorem parseRequest_gotAll_lt {ctx : HttpContext} {buf : Buffer} {t : Timestamp}
    (hs : ctx.state = .kExpectRequestLine) (hg : (parseRequest ctx buf t).stop = some .gotAll) :
    (parseRequest ctx buf t).buf.readableBytes < buf.readableBytes := by
  cases hturn : turn t ctx buf with
  | more ctx' buf' =>
    have hlt := turn_more_lt hturn
    have hle := parseRequest_readableBytes_le ctx' buf' t
    rw [parseRequest_more hturn]
    omega
  | done ret ctx' buf' =>
    rw [parseRequest_done hturn] at hg
    unfold turn at hturn
    simp only [hs] at hturn
    split at hturn
    next =>
      cases hturn
      simp [ParseResult.stop, gotAll, hs] at hg
    next =>
      split at hturn
      next => cases hturn
      next =>
        cases hturn
        simp [ParseResult.stop] at hg

/-- Call `parseRequest` and `reset()` in turn for as long as `gotAll()` becomes true;
the requests found, and the last call. -/
def drain (ctx : HttpContext) (buf : Buffer) (t : Timestamp) : List HttpRequest × ParseResult :=
  if _h : (parseRequest ctx buf t).stop = some .gotAll then
    let later := drain (parseRequest ctx buf t).ctx.reset (parseRequest ctx buf t).buf t
    ((parseRequest ctx buf t).ctx.request :: later.1, later.2)
  else ([], parseRequest ctx buf t)
termination_by (buf.readableBytes, if ctx.state = .kExpectRequestLine then 0 else 1)
decreasing_by
  by_cases hs : ctx.state = .kExpectRequestLine
  · exact Prod.Lex.left _ _ (parseRequest_gotAll_lt hs _h)
  · have hle := parseRequest_readableBytes_le ctx buf t
    rcases Nat.lt_or_eq_of_le hle with hlt | heq
    · exact Prod.Lex.left _ _ hlt
    · rw [heq]
      exact Prod.Lex.right _ (by simp [hs, reset])

/-- What a reader of the connection sees: the requests so far, the parser, the buffer, and
how a call failed if one did. -/
structure Conversation where
  requests : List HttpRequest
  ctx : HttpContext
  buf : Buffer
  failure : Option ParseStop

/-- Append each chunk and drain; stop at the first call that fails. -/
def converse (ctx : HttpContext) (buf : Buffer) : List (Bytes × Timestamp) → Conversation
  | [] => ⟨[], ctx, buf, none⟩
  | (chunk, t) :: chunks =>
    let d := drain ctx (buf.append chunk) t
    match d.2.stop with
    | none =>
      let later := converse d.2.ctx d.2.buf chunks
      { later with requests := d.1 ++ later.requests }
    | some r => ⟨d.1, d.2.ctx, d.2.buf, some r⟩

/-- The parser has taken in the bytes `seen` of the current request, part of which may
still lie in the buffer. -/
structure Resumes (ctx : HttpContext) (buf : Buffer) (seen : Bytes) : Prop where
  valid : buf.Valid
  run_eq : ∀ more, machine.run ctx.untimed (buf.readable ++ more) = machine.run .new (seen ++ more)

theorem resumes_fresh {buf : Buffer} (hv : buf.Valid) : Resumes .new buf buf.readable :=
  ⟨hv, fun _ => rfl⟩

theorem Resumes.grow {ctx : HttpContext} {buf buf' : Buffer} {seen chunk : Bytes}
    (h : Resumes ctx buf seen) (hv : buf'.Valid) (hr : buf'.readable = buf.readable ++ chunk) :
    Resumes ctx buf' (seen ++ chunk) := by
  refine ⟨hv, ?_⟩
  intro more
  rw [hr, List.append_assoc, List.append_assoc]
  exact h.run_eq (chunk ++ more)

theorem Resumes.append {ctx : HttpContext} {buf : Buffer} {seen : Bytes} (h : Resumes ctx buf seen)
    (chunk : Bytes) : Resumes ctx (buf.append chunk) (seen ++ chunk) :=
  h.grow (Buffer.append_valid h.valid chunk) (Buffer.append_readable h.valid chunk)

theorem Resumes.parse {ctx : HttpContext} {buf : Buffer} {seen : Bytes} (h : Resumes ctx buf seen)
    (t : Timestamp) :
    (parseRequest ctx buf t).buf.Valid ∧
      machine.run .new seen = ⟨(parseRequest ctx buf t).stop, (parseRequest ctx buf t).ctx.untimed,
        (parseRequest ctx buf t).buf.readable⟩ := by
  obtain ⟨hv, hrun⟩ := parseRequest_refines_run ctx t h.valid
  have heq := h.run_eq []
  rw [List.append_nil, List.append_nil] at heq
  exact ⟨hv, heq ▸ hrun⟩

/-- The parser has done all it can with the bytes `seen` of the current request. -/
structure Paused (ctx : HttpContext) (buf : Buffer) (seen : Bytes) : Prop where
  valid : buf.Valid
  run_eq : machine.run .new seen = ⟨none, ctx.untimed, buf.readable⟩

theorem Paused.resumes {ctx : HttpContext} {buf : Buffer} {seen : Bytes} (h : Paused ctx buf seen) :
    Resumes ctx buf seen := by
  refine ⟨h.valid, ?_⟩
  intro more
  have hnone : (machine.run .new seen).result = none := by rw [h.run_eq]
  rw [machine.run_append_of_none hnone, h.run_eq]

theorem Resumes.pause {ctx : HttpContext} {buf : Buffer} {seen : Bytes} (h : Resumes ctx buf seen)
    {t : Timestamp} (hw : (parseRequest ctx buf t).stop = none) :
    Paused (parseRequest ctx buf t).ctx (parseRequest ctx buf t).buf seen := by
  obtain ⟨hv, hrun⟩ := h.parse t
  exact ⟨hv, by rw [hrun, hw]⟩

end HttpContext

namespace WireRequest

def renderAll (rs : List WireRequest) : Bytes := (rs.map render).flatten

/-- A part of a rendered sequence either lies inside the first request or covers it. -/
theorem renderAll_split {rs : List WireRequest} {seen future : Bytes}
    (h : seen ++ future = renderAll rs) :
    (rs = [] ∧ seen = []) ∨
    (∃ r rest missing, rs = r :: rest ∧ missing ≠ [] ∧ r.render = seen ++ missing) ∨
    (∃ r rest tail, rs = r :: rest ∧ seen = r.render ++ tail ∧ tail ++ future = renderAll rest) := by
  cases rs with
  | nil =>
    have hnil : seen ++ future = [] := h
    exact Or.inl ⟨rfl, (List.append_eq_nil_iff.mp hnil).1⟩
  | cons r rest =>
    have hcons : seen ++ future = r.render ++ renderAll rest := h
    rcases List.append_eq_append_iff.mp hcons with ⟨tail, hr, hf⟩ | ⟨tail, hs, hf⟩
    · by_cases hnil : tail = []
      · subst hnil
        rw [List.append_nil] at hr
        exact Or.inr (Or.inr ⟨r, rest, [], rfl, by rw [hr, List.append_nil], by simpa using hf⟩)
      · exact Or.inr (Or.inl ⟨r, rest, tail, rfl, hnil, hr⟩)
    · exact Or.inr (Or.inr ⟨r, rest, tail, rfl, hs, hf.symm⟩)

/-- The parser waits inside a well-formed request. -/
theorem run_prefix_waits {r : WireRequest} (hw : r.WellFormed) {seen missing : Bytes}
    (hm : missing ≠ []) (h : r.render = seen ++ missing) :
    (HttpContext.machine.run .new seen).result = none := by
  cases hres : (HttpContext.machine.run .new seen).result with
  | none => rfl
  | some s =>
    have hrun := run_render hw []
    rw [List.append_nil, h, HttpContext.machine.run_append, StreamMachine.resume, hres] at hrun
    have hrest := congrArg Halt.rest hrun
    exact absurd (List.append_eq_nil_iff.mp hrest).2 hm

theorem run_nil : HttpContext.machine.run .new [] = ⟨none, .new, []⟩ := by
  have hmove : HttpContext.machine.move .new [] = .wait := rfl
  exact HttpContext.machine.run_wait hmove

theorem paused_fresh (n : Nat) : HttpContext.Paused .new (Buffer.new n) [] := by
  refine ⟨Buffer.new_valid n, ?_⟩
  rw [Buffer.new_readable]
  exact run_nil

theorem render_ne_nil (r : WireRequest) : r.render ≠ [] := by
  simp [render, kCRLF]

theorem renderAll_eq_nil {rs : List WireRequest} (h : renderAll rs = []) : rs = [] := by
  cases rs with
  | nil => rfl
  | cons r rest =>
    have hh : r.render ++ renderAll rest = [] := h
    exact absurd (List.append_eq_nil_iff.mp hh).1 (render_ne_nil r)

/-- One call of the parser on part of a rendered sequence: it waits, with nothing there or
inside the first request, or it takes the first request. -/
theorem parse_renderAll {ctx : HttpContext} {buf : Buffer} {seen future : Bytes}
    {rs : List WireRequest} (hw : ∀ r ∈ rs, r.WellFormed) (t : Timestamp)
    (hr : HttpContext.Resumes ctx buf seen) (h : seen ++ future = renderAll rs) :
    let p := HttpContext.parseRequest ctx buf t
    (p.stop = none ∧ HttpContext.Paused p.ctx p.buf seen ∧ ((rs = [] ∧ seen = []) ∨
      ∃ r rest missing, rs = r :: rest ∧ missing ≠ [] ∧ r.render = seen ++ missing)) ∨
    ∃ r rest tail, rs = r :: rest ∧ seen = r.render ++ tail ∧ tail ++ future = renderAll rest ∧
      p.stop = some .gotAll ∧ p.ctx.request.untimed = r.parsed ∧
      HttpContext.Resumes p.ctx.reset p.buf tail := by
  intro p
  obtain ⟨hv, hrun⟩ := hr.parse t
  rcases renderAll_split h with ⟨hnil, hseen⟩ | ⟨r, rest, missing, he, hm, hr'⟩ | ⟨r, rest, tail, he, hs, ht⟩
  · have hstop : p.stop = none := by
      rw [hseen, run_nil] at hrun
      exact (congrArg Halt.result hrun).symm
    exact Or.inl ⟨hstop, hr.pause hstop, Or.inl ⟨hnil, hseen⟩⟩
  · have hstop : p.stop = none := by
      rw [← run_prefix_waits (hw r (by simp [he])) hm hr', hrun]
    exact Or.inl ⟨hstop, hr.pause hstop, Or.inr ⟨r, rest, missing, he, hm, hr'⟩⟩
  · rw [hs, run_render (hw r (by simp [he]))] at hrun
    obtain ⟨hstop, hctx, hbuf⟩ := Halt.mk.inj hrun
    have hreq : p.ctx.request.untimed = r.parsed := congrArg HttpContext.request hctx.symm
    have hfresh : HttpContext.Resumes p.ctx.reset p.buf tail := by
      rw [hbuf]
      exact HttpContext.resumes_fresh hv
    exact Or.inr ⟨r, rest, tail, he, hs, ht, hstop.symm, hreq, hfresh⟩

/-- Where a drain of part of a rendered sequence ends: `front` has been found, the bytes
`seen` belong to the first request of `back`. -/
structure Drained (rs : List WireRequest) (future : Bytes)
    (d : List HttpRequest × HttpContext.ParseResult) (front back : List WireRequest)
    (seen : Bytes) : Prop where
  split : rs = front ++ back
  found : d.1.map HttpRequest.untimed = front.map parsed
  stop : d.2.stop = none
  paused : HttpContext.Paused d.2.ctx d.2.buf seen
  left : seen ++ future = renderAll back
  last : future = [] → back = []

/-- Drain takes exactly the requests that are complete in what has been seen. -/
theorem drain_renderAll {ctx : HttpContext} {buf : Buffer} {seen future : Bytes}
    {rs : List WireRequest} (hw : ∀ r ∈ rs, r.WellFormed) (t : Timestamp)
    (hr : HttpContext.Resumes ctx buf seen) (h : seen ++ future = renderAll rs) :
    ∃ front back seen', Drained rs future (HttpContext.drain ctx buf t) front back seen' := by
  induction rs generalizing ctx buf seen with
  | nil =>
    rcases parse_renderAll hw t hr h with ⟨hstop, hpaused, -⟩ | ⟨_, _, _, he, _⟩
    · rw [HttpContext.drain, dif_neg (by rw [hstop]; intro hh; cases hh)]
      exact ⟨[], [], seen, rfl, rfl, hstop, hpaused, h, fun _ => rfl⟩
    · cases he
  | cons r rest ih =>
    rcases parse_renderAll hw t hr h with ⟨hstop, hpaused, hin⟩ | ⟨_, _, tail, he, -, ht, hstop, hreq, hfresh⟩
    · have hfuture : future ≠ [] := by
        rintro rfl
        rcases hin with ⟨hnil, -⟩ | ⟨_, _, missing, he, hm, hr'⟩
        · cases hnil
        · cases he
          have hlen := congrArg List.length (h.trans (show _ = r.render ++ renderAll rest from rfl))
          have hpos := List.length_pos_iff.mpr hm
          simp only [hr', List.length_append, List.length_nil] at hlen
          omega
      rw [HttpContext.drain, dif_neg (by rw [hstop]; intro hh; cases hh)]
      exact ⟨[], r :: rest, seen, rfl, rfl, hstop, hpaused, h, fun hf => absurd hf hfuture⟩
    · cases he
      obtain ⟨front, back, seen', hd⟩ := ih (fun x hx => hw x (List.mem_cons_of_mem r hx)) hfresh ht
      rw [HttpContext.drain, dif_pos hstop]
      refine ⟨r :: front, back, seen', by rw [hd.split]; rfl, ?_, hd.stop, hd.paused, hd.left, hd.last⟩
      simp only [List.map_cons, hreq, hd.found]

theorem converse_renderAll {ctx : HttpContext} {buf : Buffer} {seen : Bytes} {rs : List WireRequest}
    {chunks : List (Bytes × Timestamp)} (hw : ∀ r ∈ rs, r.WellFormed)
    (hp : HttpContext.Paused ctx buf seen)
    (h : seen ++ (chunks.map Prod.fst).flatten = renderAll rs)
    (hlast : (chunks.map Prod.fst).flatten = [] → rs = []) :
    (HttpContext.converse ctx buf chunks).failure = none ∧
      (HttpContext.converse ctx buf chunks).requests.map HttpRequest.untimed = rs.map parsed ∧
      (HttpContext.converse ctx buf chunks).buf.readable = [] := by
  induction chunks generalizing ctx buf seen rs with
  | nil =>
    have hrs := hlast rfl
    subst hrs
    obtain ⟨rfl, -⟩ := List.append_eq_nil_iff.mp (show seen ++ [] = [] from h)
    have hrun := hp.run_eq
    rw [run_nil] at hrun
    exact ⟨rfl, rfl, (congrArg Halt.rest hrun).symm⟩
  | cons c chunks ih =>
    obtain ⟨chunk, t⟩ := c
    have hstream : seen ++ chunk ++ (chunks.map Prod.fst).flatten = renderAll rs := by
      rw [List.append_assoc]
      exact h
    obtain ⟨front, back, seen', hd⟩ := drain_renderAll hw t (hp.resumes.append chunk) hstream
    have hback : ∀ r ∈ back, r.WellFormed := by
      intro r hr
      exact hw r (by rw [hd.split]; exact List.mem_append_right front hr)
    obtain ⟨hf, hreqs, hempty⟩ := ih hback hd.paused hd.left hd.last
    simp only [HttpContext.converse, hd.stop]
    refine ⟨hf, ?_, hempty⟩
    rw [List.map_append, hd.found, hreqs, hd.split, List.map_append]

/-- Whatever way the bytes of a rendered sequence of requests are cut, parsing and resetting
in turn finds these requests in order, never fails and leaves the buffer empty. -/
theorem parse_undoes_render (n : Nat) {rs : List WireRequest} (hw : ∀ r ∈ rs, r.WellFormed)
    (chunks : List (Bytes × Timestamp)) (h : (chunks.map Prod.fst).flatten = renderAll rs) :
    (HttpContext.converse .new (Buffer.new n) chunks).requests.map HttpRequest.untimed =
        rs.map parsed ∧
      (HttpContext.converse .new (Buffer.new n) chunks).failure = none ∧
      (HttpContext.converse .new (Buffer.new n) chunks).buf.readable = [] := by
  obtain ⟨hf, hreqs, hempty⟩ := converse_renderAll hw (paused_fresh n) h
    (fun hnil => renderAll_eq_nil (h ▸ hnil))
  exact ⟨hreqs, hf, hempty⟩

/-- A POST whose body looks like the start of another request. -/
def orderRequest : WireRequest where
  method := .kPost
  path := ascii "/orders"
  query := some [(ascii "user", ascii "7")]
  version := ascii "HTTP/1.1"
  headers := [(ascii "Content-Length", ascii "7")]
  body := ascii "GET /\r\n"

theorem orderRequest_wellFormed : orderRequest.WellFormed where
  method_ok := by decide
  path_ok := by decide +kernel
  query_ne := by decide
  key_ok := by rintro _ ⟨⟩; decide +kernel
  value_ok := by rintro _ ⟨⟩; decide +kernel
  version_ok := by decide
  names_nodup := by decide
  name_ok := by decide +kernel
  field_ok := by decide +kernel
  field_trimmed := by decide +kernel
  length_ok := fun _ => ⟨by decide +kernel, ascii "7", by decide +kernel⟩
  no_length := fun h => absurd (Or.inl rfl) h

theorem parse_undoes_render_two :
    let text := renderAll [orderRequest, orderRequest]
    (HttpContext.converse .new (Buffer.new 16) [(text.take 20, 1), (text.drop 20, 2)]).requests.map
        HttpRequest.untimed = [orderRequest.parsed, orderRequest.parsed] := by
  intro text
  have hw : ∀ r ∈ [orderRequest, orderRequest], r.WellFormed := by
    simpa using orderRequest_wellFormed
  exact (parse_undoes_render 16 hw [(text.take 20, 1), (text.drop 20, 2)] (by simp [text])).1

end WireRequest

end MuduoPlus
