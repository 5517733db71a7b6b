import MuduoPlus.HttpHead

namespace MuduoPlus

/-- A POST or PUT whose `Content-Length` is there but is no number `std::stoul` can read:
no leading digits, or a value above `2^64 - 1`. -/
def HttpRequest.UnreadableLength (req : HttpRequest) : Prop :=
  (req.method = .kPost ∨ req.method = .kPut) ∧ req.getHeader (ascii "Content-Length") ≠ [] ∧
    ∃ e, stoul (req.getHeader (ascii "Content-Length")) = .error e

namespace HttpContext

/-- The bytes end the header block of a request with an unreadable `Content-Length`. -/
def RaisingInput (ctx : HttpContext) (bytes : Bytes) : Prop :=
  ∃ req rest, ReachesBlankLine ctx bytes req rest ∧ req.UnreadableLength

theorem endHeaders_raised_iff {req : HttpRequest} :
    (∃ e, endHeaders req = .raised e) ↔ req.UnreadableLength := by
  unfold endHeaders HttpRequest.UnreadableLength
  by_cases hm : req.method = .kPost ∨ req.method = .kPut
  · by_cases hne : req.getHeader (ascii "Content-Length") ≠ []
    · simp only [hm, hne, if_true, ne_eq, not_false_eq_true, true_and]
      cases stoul (req.getHeader (ascii "Content-Length")) with
      | error e => simp
      | ok n =>
        simp only [reduceCtorEq, exists_false, iff_false, not_exists]
        intro e he
        split_ifs at he
    · simp [hm, hne]
  · simp [hm]

theorem run_raised_iff (ctx : HttpContext) (bytes : Bytes) :
    (∃ e, (machine.run ctx bytes).result = some (.raised e)) ↔ RaisingInput ctx bytes := by
  constructor
  · rintro ⟨e, he⟩
    have hhead : ctx.state = .kExpectRequestLine ∨ ctx.state = .kExpectHeaders := by
      obtain ⟨state, request⟩ := ctx
      cases state with
      | kExpectRequestLine => exact Or.inl rfl
      | kExpectHeaders => exact Or.inr rfl
      | kExpectBody =>
        rw [run_body] at he
        split at he
        next => cases he
        next => cases he
      | kGotAll =>
        rw [run_gotAll] at he
        cases he
    rcases run_head_cases hhead with hb | hnone | hrefused
    · obtain ⟨req, rest, hreach⟩ := hb
      refine ⟨req, rest, hreach, endHeaders_raised_iff.mp ?_⟩
      rw [run_of_reachesBlankLine hreach] at he
      cases hend : endHeaders req with
      | raised e' => exact ⟨e', rfl⟩
      | body r =>
        rw [hend] at he
        simp only [run_body] at he
        split at he
        next => cases he
        next => cases he
      | complete r => rw [hend] at he; cases he
      | missingLength => rw [hend] at he; cases he
    · rw [hnone] at he
      cases he
    · rw [hrefused] at he
      cases he
  · rintro ⟨req, rest, hreach, hbad⟩
    obtain ⟨e, he⟩ := endHeaders_raised_iff.mpr hbad
    exact ⟨e, by rw [run_of_reachesBlankLine hreach, he]⟩

theorem raisingInput_untimed {ctx : HttpContext} {bytes : Bytes} :
    RaisingInput ctx.untimed bytes ↔ RaisingInput ctx bytes := by
  constructor
  · rintro ⟨req, rest, hreach, hbad⟩
    obtain ⟨timed, ht, rfl⟩ := reachesBlankLine_untimed.mp hreach
    exact ⟨timed, rest, ht, hbad⟩
  · rintro ⟨req, rest, hreach, hbad⟩
    exact ⟨req.untimed, rest, reachesBlankLine_untimed.mpr ⟨req, hreach, rfl⟩, hbad⟩

/-- In whatever state the parser is, a call lets an exception escape exactly when the
bytes end the header block of a POST or PUT with an unreadable `Content-Length`. -/
theorem parseRequest_returns_iff (ctx : HttpContext) {buf : Buffer} (hv : buf.Valid)
    (t : Timestamp) :
    (∃ ok, (parseRequest ctx buf t).ret = .ok ok) ↔ ¬RaisingInput ctx buf.readable := by
  obtain ⟨-, hrun⟩ := parseRequest_refines_run ctx t hv
  have hstop : (machine.run ctx.untimed buf.readable).result = (parseRequest ctx buf t).stop := by
    rw [hrun]
  rw [← raisingInput_untimed, ← run_raised_iff, hstop]
  unfold ParseResult.stop
  cases (parseRequest ctx buf t).ret with
  | error e => simp
  | ok b =>
    cases b with
    | false => simp
    | true =>
      simp only [Except.ok.injEq, exists_eq', true_iff, not_exists]
      intro e
      split_ifs <;> simp

/-- A fresh parser on a GET without a body. -/
theorem parseRequest_returns_get :
    ∃ ok, (parseRequest .new ((Buffer.new kInitialSize).append
      (ascii "GET /health HTTP/1.1\r\n\r\n")) 0).ret = .ok ok := by
  have hv := Buffer.append_valid (Buffer.new_valid kInitialSize) (ascii "GET /health HTTP/1.1\r\n\r\n")
  apply (parseRequest_returns_iff .new hv 0).mpr
  rw [← run_raised_iff, Buffer.append_readable (Buffer.new_valid kInitialSize), Buffer.new_readable]
  have hrun : (machine.run .new ([] ++ ascii "GET /health HTTP/1.1\r\n\r\n")).result =
    some .gotAll := by decide +kernel
  rintro ⟨e, he⟩
  rw [hrun] at he
  cases he

/-- `Content-Length: abc` makes `std::stoul` raise, and nothing catches it. -/
theorem parseRequest_raises_abc :
    (parseRequest .new ((Buffer.new kInitialSize).append
      (ascii "POST /orders HTTP/1.1\r\nContent-Length: abc\r\n\r\n")) 0).ret =
      .error .invalidArgument := by
  decide +kernel

end HttpContext

end MuduoPlus
