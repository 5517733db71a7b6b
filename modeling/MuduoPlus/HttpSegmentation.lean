import MuduoPlus.HttpMachine

namespace MuduoPlus

namespace HttpContext

/-- Where feeding a cut stream ends: how, with what parser and buffer, and which bytes
were not fed any more. -/
structure Fed where
  outcome : Option ParseStop
  ctx : HttpContext
  buf : Buffer
  unfed : Bytes

/-- Append the chunks one by one and parse after each, until a call raises, returns
false or leaves `gotAll()` true. -/
def feedChunks (ctx : HttpContext) (buf : Buffer) : List (Bytes × Timestamp) → Fed
  | [] => ⟨none, ctx, buf, []⟩
  | (chunk, t) :: chunks =>
    match (parseRequest ctx (buf.append chunk) t).stop with
    | some r => ⟨some r, (parseRequest ctx (buf.append chunk) t).ctx,
        (parseRequest ctx (buf.append chunk) t).buf, (chunks.map Prod.fst).flatten⟩
    | none => feedChunks (parseRequest ctx (buf.append chunk) t).ctx
        (parseRequest ctx (buf.append chunk) t).buf chunks

/-- The bytes of the stream that no turn of the parser has taken. -/
def Fed.unconsumed (f : Fed) : Bytes := f.buf.readable ++ f.unfed

theorem feedChunks_refines_feed {ctx : HttpContext} {buf : Buffer} (hv : buf.Valid)
    (chunks : List (Bytes × Timestamp)) :
    machine.feed ctx.untimed buf.readable (chunks.map Prod.fst) =
      ⟨(feedChunks ctx buf chunks).outcome, (feedChunks ctx buf chunks).ctx.untimed,
        (feedChunks ctx buf chunks).unconsumed⟩ := by
  induction chunks generalizing ctx buf with
  | nil => simp [StreamMachine.feed, feedChunks, Fed.unconsumed]
  | cons c chunks ih =>
    obtain ⟨chunk, t⟩ := c
    have hva := Buffer.append_valid hv chunk
    obtain ⟨hvr, hrun⟩ := parseRequest_refines_run ctx t hva
    rw [Buffer.append_readable hv] at hrun
    simp only [List.map_cons, StreamMachine.feed, hrun, feedChunks]
    cases hstop : (parseRequest ctx (buf.append chunk) t).stop with
    | some r => rfl
    | none => exact ih hvr

theorem feedChunks_eq_run (ctx : HttpContext) {buf : Buffer} (hv : buf.Valid)
    {chunks : List (Bytes × Timestamp)} (hc : chunks ≠ []) :
    (⟨(feedChunks ctx buf chunks).outcome, (feedChunks ctx buf chunks).ctx.untimed,
      (feedChunks ctx buf chunks).unconsumed⟩ : Halt HttpContext ParseStop UInt8) =
      machine.run ctx.untimed (buf.readable ++ (chunks.map Prod.fst).flatten) := by
  have hm : chunks.map Prod.fst ≠ [] := by simpa using hc
  rw [← feedChunks_refines_feed hv, machine.feed_eq_run _ _ _ hm]

theorem chunks_eq_nil_of_flatten {chunks : List (Bytes × Timestamp)}
    (hne : ∀ c ∈ chunks, c.1 ≠ []) (hf : (chunks.map Prod.fst).flatten = []) : chunks = [] := by
  cases chunks with
  | nil => rfl
  | cons c chunks =>
    have hn := hne c (by simp)
    simp only [List.map_cons, List.flatten_cons, List.append_eq_nil_iff] at hf
    exact absurd hf.1 hn

/-- When the parser only waits, the bytes it needs are not there. -/
theorem move_wait_needs {ctx : HttpContext} {bytes : Bytes} (h : move ctx bytes = .wait) :
    match ctx.state with
    | .kExpectRequestLine => ¬kCRLF <:+: bytes
    | .kExpectHeaders => ¬kCRLF <:+: bytes
    | .kExpectBody => bytes.length < ctx.request.contentLength
    | .kGotAll => False := by
  unfold move at h
  cases hs : ctx.state with
  | kExpectRequestLine =>
    simp only [hs] at h ⊢
    split at h
    next hc => exact cutPair_eq_none_iff.mp hc
    next => split_ifs at h
  | kExpectHeaders =>
    simp only [hs] at h ⊢
    split at h
    next hc => exact cutPair_eq_none_iff.mp hc
    next =>
      split at h
      next => cases h
      next =>
        split_ifs at h
        split at h <;> cases h
  | kExpectBody =>
    simp only [hs] at h ⊢
    split_ifs at h with hlt
    exact hlt
  | kGotAll => simp [hs] at h

theorem parseRequest_wait_needs {ctx : HttpContext} {buf : Buffer} {t : Timestamp}
    (hv : buf.Valid) (hret : (parseRequest ctx buf t).ret = .ok true)
    (hgot : (parseRequest ctx buf t).ctx.gotAll = false) :
    match (parseRequest ctx buf t).ctx.state with
    | .kExpectRequestLine => ¬kCRLF <:+: (parseRequest ctx buf t).buf.readable
    | .kExpectHeaders => ¬kCRLF <:+: (parseRequest ctx buf t).buf.readable
    | .kExpectBody => (parseRequest ctx buf t).buf.readableBytes <
        (parseRequest ctx buf t).ctx.request.contentLength
    | .kGotAll => False := by
  obtain ⟨hvr, hrun⟩ := parseRequest_refines_run ctx t hv
  have hstop : (parseRequest ctx buf t).stop = none := by
    simp [ParseResult.stop, hret, hgot]
  have hnone : (machine.run ctx.untimed buf.readable).result = none := by rw [hrun, hstop]
  have hwait := machine.move_of_run_none hnone
  rw [hrun] at hwait
  have hneeds := move_wait_needs hwait
  rw [Buffer.length_readable hvr] at hneeds
  exact hneeds

/-- How the stream is cut into chunks makes no difference to the parser: outcome, state,
request (its receive time apart) and unconsumed bytes are those of any other cut. And a
call that returns true short of `gotAll()` really lacks bytes. -/
theorem parseRequest_segmentation_independent (ctx : HttpContext) {b₁ b₂ : Buffer}
    (h₁ : b₁.Valid) (h₂ : b₂.Valid) (same : b₁.readable = b₂.readable)
    (cut₁ cut₂ : List (Bytes × Timestamp))
    (ne₁ : ∀ c ∈ cut₁, c.1 ≠ []) (ne₂ : ∀ c ∈ cut₂, c.1 ≠ [])
    (stream : (cut₁.map Prod.fst).flatten = (cut₂.map Prod.fst).flatten) :
    ((feedChunks ctx b₁ cut₁).outcome = (feedChunks ctx b₂ cut₂).outcome ∧
      (feedChunks ctx b₁ cut₁).ctx.state = (feedChunks ctx b₂ cut₂).ctx.state ∧
      (feedChunks ctx b₁ cut₁).ctx.request.untimed = (feedChunks ctx b₂ cut₂).ctx.request.untimed ∧
      (feedChunks ctx b₁ cut₁).unconsumed = (feedChunks ctx b₂ cut₂).unconsumed) ∧
    ∀ (c : HttpContext) (b : Buffer) (t : Timestamp), b.Valid → (parseRequest c b t).ret = .ok true →
      (parseRequest c b t).ctx.gotAll = false →
      match (parseRequest c b t).ctx.state with
      | .kExpectRequestLine => ¬kCRLF <:+: (parseRequest c b t).buf.readable
      | .kExpectHeaders => ¬kCRLF <:+: (parseRequest c b t).buf.readable
      | .kExpectBody => (parseRequest c b t).buf.readableBytes <
          (parseRequest c b t).ctx.request.contentLength
      | .kGotAll => False := by
  refine ⟨?_, fun c b t hv hret hgot => parseRequest_wait_needs hv hret hgot⟩
  by_cases hnil : cut₁ = []
  · have hnil₂ : cut₂ = [] := chunks_eq_nil_of_flatten ne₂ (by rw [← stream, hnil]; rfl)
    simp [hnil, hnil₂, feedChunks, Fed.unconsumed, same]
  · have hnil₂ : cut₂ ≠ [] := by
      intro he
      exact hnil (chunks_eq_nil_of_flatten ne₁ (by rw [stream, he]; rfl))
    have e₁ := feedChunks_eq_run ctx h₁ hnil
    have e₂ := feedChunks_eq_run ctx h₂ hnil₂
    rw [same, stream, ← e₂] at e₁
    obtain ⟨ho, hc, hu⟩ := Halt.mk.inj e₁
    have hs : (feedChunks ctx b₁ cut₁).ctx.untimed.state =
      (feedChunks ctx b₂ cut₂).ctx.untimed.state := by rw [hc]
    have hr : (feedChunks ctx b₁ cut₁).ctx.untimed.request =
      (feedChunks ctx b₂ cut₂).ctx.untimed.request := by rw [hc]
    exact ⟨ho, hs, hr, hu⟩

/-- A request cut inside its line end, with a byte of the next one behind it. -/
theorem parseRequest_segmentation_independent_get :
    let cut : List (Bytes × Timestamp) :=
      [(ascii "GET / HT", 5), (ascii "TP/1.1\r", 6), (ascii "\n\r\nG", 7)]
    let whole : List (Bytes × Timestamp) := [(ascii "GET / HTTP/1.1\r\n\r\nG", 9)]
    (feedChunks .new (.new 0) cut).outcome = some .gotAll ∧
      (feedChunks .new (.new 0) cut).unconsumed = ascii "G" ∧
      (feedChunks .new (.new 0) cut).ctx.request.untimed =
        (feedChunks .new (.new 1024) whole).ctx.request.untimed := by
  intro cut whole
  have h := parseRequest_segmentation_independent .new (Buffer.new_valid 0) (Buffer.new_valid 1024)
    (by rw [Buffer.new_readable, Buffer.new_readable]) cut whole (by decide) (by decide) (by decide)
  exact ⟨by decide +kernel, by decide +kernel, h.1.2.2.1⟩

end HttpContext

end MuduoPlus
