import MuduoPlus.HttpMachine

namespace MuduoPlus

/-- Lines the parser stores as headers: each has a colon and none contains a line end. -/
def HeaderLines (lines : List Bytes) : Prop :=
  ∀ line ∈ lines, chColon ∈ line ∧ ¬kCRLF <:+: line

def headerText (lines : List Bytes) : Bytes :=
  (lines.map (· ++ kCRLF)).flatten

namespace HttpRequest

def addHeaderLine (req : HttpRequest) (line : Bytes) : HttpRequest :=
  match cutAt chColon line with
  | some (field, text) => req.addHeader field text
  | none => req

def addHeaderLines (req : HttpRequest) (lines : List Bytes) : HttpRequest :=
  lines.foldl addHeaderLine req

theorem addHeaderLine_untimed (req : HttpRequest) (line : Bytes) :
    req.untimed.addHeaderLine line = (req.addHeaderLine line).untimed := by
  unfold addHeaderLine
  cases cutAt chColon line with
  | none => rfl
  | some p => rfl

theorem addHeaderLines_untimed (req : HttpRequest) (lines : List Bytes) :
    req.untimed.addHeaderLines lines = (req.addHeaderLines lines).untimed := by
  induction lines generalizing req with
  | nil => rfl
  | cons line lines ih =>
    have hh := ih (req.addHeaderLine line)
    rw [← addHeaderLine_untimed] at hh
    exact hh

end HttpRequest

/-- The request line keeps what it does not fill in. -/
theorem processRequestLine_keeps (req : HttpRequest) (line : Bytes) :
    (processRequestLine req line).2.headers = req.headers ∧
      (processRequestLine req line).2.content = req.content := by
  have hset : ∀ method target,
      ((req.setMethod method).2.setTarget target).headers = req.headers ∧
        ((req.setMethod method).2.setTarget target).content = req.content := by
    intro method target
    unfold HttpRequest.setTarget
    cases cutAt chQuestion target with
    | none => exact ⟨rfl, rfl⟩
    | some p => exact ⟨rfl, rfl⟩
  unfold processRequestLine
  cases cutAt chSpace line with
  | none => exact ⟨rfl, rfl⟩
  | some p =>
    dsimp only
    split
    next =>
      cases cutAt chSpace p.2 with
      | none => exact ⟨rfl, rfl⟩
      | some q =>
        dsimp only
        split
        next =>
          split
          next => exact hset p.1 q.1
          next =>
            split
            next => exact hset p.1 q.1
            next => exact hset p.1 q.1
        next => exact hset p.1 q.1
    next => exact ⟨rfl, rfl⟩

/-- At the empty line only the length of the body is filled in. -/
theorem exists_of_endHeaders {req r : HttpRequest}
    (h : endHeaders req = .body r ∨ endHeaders req = .complete r) :
    ∃ n, r = req.setContentLength n := by
  unfold endHeaders at h
  by_cases hm : req.method = .kPost ∨ req.method = .kPut
  · by_cases hne : req.getHeader (ascii "Content-Length") ≠ []
    · simp only [hm, hne, if_true, ne_eq, not_false_eq_true] at h
      cases hs : stoul (req.getHeader (ascii "Content-Length")) with
      | error e => simp [hs] at h
      | ok n =>
        rw [hs] at h
        dsimp only at h
        rcases h with h | h
        · split_ifs at h
          cases h
          exact ⟨n, rfl⟩
        · split_ifs at h
          cases h
          exact ⟨n, rfl⟩
    · simp [hm, hne] at h
  · simp only [hm, if_false, reduceCtorEq, false_or] at h
    cases h
    exact ⟨req.contentLength, rfl⟩

theorem cutLine_append {line : Bytes} (hn : ¬kCRLF <:+: line) (rest : Bytes) :
    cutLine (line ++ kCRLF ++ rest) = some (line, rest) := by
  have hh : cutPair chCR chLF (line ++ chCR :: chLF :: rest) = some (line, rest) :=
    cutPair_of_not_infix (by decide) hn
  simpa [kCRLF, cutLine] using hh

theorem cutLine_blank (rest : Bytes) : cutLine (kCRLF ++ rest) = some ([], rest) := by
  have hn : ¬kCRLF <:+: ([] : Bytes) := pair_not_infix_of_not_mem (by simp)
  exact cutLine_append hn rest

theorem cutLine_eq_some {bytes line rest : Bytes} (h : cutLine bytes = some (line, rest)) :
    bytes = line ++ kCRLF ++ rest := by
  simpa [kCRLF] using cutPair_eq_some h

namespace HttpContext

theorem move_headerLine (req : HttpRequest) {line : Bytes} (rest : Bytes) (hc : chColon ∈ line)
    (hn : ¬kCRLF <:+: line) :
    machine.move ⟨.kExpectHeaders, req⟩ (line ++ kCRLF ++ rest) =
      .go ⟨.kExpectHeaders, req.addHeaderLine line⟩ rest := by
  simp only [machine_move, move, cutLine_append hn, HttpRequest.addHeaderLine]
  cases hcut : cutAt chColon line with
  | none => exact absurd hc (cutAt_eq_none_iff.mp hcut)
  | some p => rfl

/-- The parser works through any number of header lines. -/
theorem run_headerText {req : HttpRequest} {lines : List Bytes} {rest : Bytes}
    (hl : HeaderLines lines) :
    machine.run ⟨.kExpectHeaders, req⟩ (headerText lines ++ rest) =
      machine.run ⟨.kExpectHeaders, req.addHeaderLines lines⟩ rest := by
  induction lines generalizing req with
  | nil => rfl
  | cons line lines ih =>
    obtain ⟨hc, hn⟩ := hl line (by simp)
    have hmove := move_headerLine req (headerText lines ++ rest) hc hn
    have hsplit : headerText (line :: lines) ++ rest =
        line ++ kCRLF ++ (headerText lines ++ rest) := by simp [headerText]
    rw [hsplit, machine.run_go hmove]
    exact ih fun l hm => hl l (by simp [hm])

/-- The bytes split into the header lines in front and a rest that does not start with one. -/
theorem exists_headerText (bytes : Bytes) :
    ∃ lines rest, HeaderLines lines ∧ bytes = headerText lines ++ rest ∧
      ∀ line after, cutLine rest = some (line, after) → chColon ∉ line := by
  induction hlen : bytes.length using Nat.strong_induction_on generalizing bytes with
  | _ n ih =>
    cases hc : cutLine bytes with
    | none =>
      refine ⟨[], bytes, by simp [HeaderLines], rfl, ?_⟩
      intro line after h
      rw [hc] at h
      cases h
    | some p =>
      obtain ⟨line, after⟩ := p
      by_cases hm : chColon ∈ line
      · have hshort : after.length < n := by
          have := cutPair_length hc
          omega
        obtain ⟨lines, rest, hl, he, hrest⟩ := ih after.length hshort after rfl
        refine ⟨line :: lines, rest, ?_, ?_, hrest⟩
        · intro l hmem
          rcases List.mem_cons.mp hmem with rfl | hmem
          · exact ⟨hm, cutPair_before hc⟩
          · exact hl l hmem
        · rw [cutLine_eq_some hc, he]
          simp [headerText]
      · refine ⟨[], bytes, by simp [HeaderLines], rfl, ?_⟩
        intro l a h
        rw [hc] at h
        cases h
        exact hm

/-- From `ctx` the bytes lead to the blank line behind the headers; the request collected
there is `req` and `rest` follows it. -/
def ReachesBlankLine (ctx : HttpContext) (bytes : Bytes) (req : HttpRequest) (rest : Bytes) : Prop :=
  match ctx.state with
  | .kExpectRequestLine => ∃ line lines, ¬kCRLF <:+: line ∧ HeaderLines lines ∧
      (processRequestLine ctx.request line).1 = true ∧
      bytes = line ++ kCRLF ++ (headerText lines ++ (kCRLF ++ rest)) ∧
      req = (processRequestLine ctx.request line).2.addHeaderLines lines
  | .kExpectHeaders => ∃ lines, HeaderLines lines ∧
      bytes = headerText lines ++ (kCRLF ++ rest) ∧ req = ctx.request.addHeaderLines lines
  | .kExpectBody => False
  | .kGotAll => False

theorem run_of_requestLine {req : HttpRequest} {line rest : Bytes} (hn : ¬kCRLF <:+: line)
    (hok : (processRequestLine req line).1 = true) :
    machine.run ⟨.kExpectRequestLine, req⟩ (line ++ kCRLF ++ rest) =
      machine.run ⟨.kExpectHeaders, (processRequestLine req line).2⟩ rest := by
  apply machine.run_go
  simp only [machine_move, move, cutLine_append hn, hok, if_true]

theorem run_blankLine (req : HttpRequest) (rest : Bytes) :
    machine.run ⟨.kExpectHeaders, req⟩ (kCRLF ++ rest) =
      match endHeaders req with
      | .body r => machine.run ⟨.kExpectBody, r⟩ rest
      | .complete r => ⟨some .gotAll, ⟨.kGotAll, r⟩, rest⟩
      | .missingLength => ⟨some .refused, ⟨.kExpectHeaders, req⟩, rest⟩
      | .raised e => ⟨some (.raised e), ⟨.kExpectHeaders, req⟩, kCRLF ++ rest⟩ := by
  cases hend : endHeaders req with
  | body r =>
    apply machine.run_go
    simp only [machine_move, move, cutLine_blank, cutAt, hend, if_true]
  | complete r =>
    apply machine.run_stop
    simp only [machine_move, move, cutLine_blank, cutAt, hend, if_true]
  | missingLength =>
    apply machine.run_stop
    simp only [machine_move, move, cutLine_blank, cutAt, hend, if_true]
  | raised e =>
    apply machine.run_stop
    simp only [machine_move, move, cutLine_blank, cutAt, hend, if_true]

theorem run_to_blankLine {ctx : HttpContext} {bytes rest : Bytes} {req : HttpRequest}
    (h : ReachesBlankLine ctx bytes req rest) :
    machine.run ctx bytes = machine.run ⟨.kExpectHeaders, req⟩ (kCRLF ++ rest) := by
  obtain ⟨state, request⟩ := ctx
  cases state with
  | kExpectRequestLine =>
    obtain ⟨line, lines, hn, hl, hok, rfl, rfl⟩ := h
    rw [run_of_requestLine hn hok, run_headerText hl]
  | kExpectHeaders =>
    obtain ⟨lines, hl, rfl, rfl⟩ := h
    rw [run_headerText hl]
  | kExpectBody => exact h.elim
  | kGotAll => exact h.elim

/-- What becomes of the run at the blank line. -/
theorem run_of_reachesBlankLine {ctx : HttpContext} {bytes rest : Bytes} {req : HttpRequest}
    (h : ReachesBlankLine ctx bytes req rest) :
    machine.run ctx bytes =
      match endHeaders req with
      | .body r => machine.run ⟨.kExpectBody, r⟩ rest
      | .complete r => ⟨some .gotAll, ⟨.kGotAll, r⟩, rest⟩
      | .missingLength => ⟨some .refused, ⟨.kExpectHeaders, req⟩, rest⟩
      | .raised e => ⟨some (.raised e), ⟨.kExpectHeaders, req⟩, kCRLF ++ rest⟩ :=
  (run_to_blankLine h).trans (run_blankLine req rest)

theorem run_headers_cases (req : HttpRequest) (bytes : Bytes) :
    (∃ r rest, ReachesBlankLine ⟨.kExpectHeaders, req⟩ bytes r rest) ∨
      (machine.run ⟨.kExpectHeaders, req⟩ bytes).result = none ∨
      (machine.run ⟨.kExpectHeaders, req⟩ bytes).result = some .refused := by
  obtain ⟨lines, rest, hl, rfl, hrest⟩ := exists_headerText bytes
  rw [run_headerText hl]
  cases hc : cutLine rest with
  | none =>
    have hmove : machine.move ⟨.kExpectHeaders, req.addHeaderLines lines⟩ rest = .wait := by
      simp only [machine_move, move, hc]
    exact Or.inr (Or.inl (by rw [machine.run_wait hmove]))
  | some p =>
    obtain ⟨line, after⟩ := p
    have hcolon := cutAt_eq_none_iff.mpr (hrest line after hc)
    by_cases hblank : line = []
    · have hrest' := cutLine_eq_some hc
      rw [hblank] at hrest'
      exact Or.inl ⟨_, after, lines, hl, by rw [hrest']; rfl, rfl⟩
    · have hmove : machine.move ⟨.kExpectHeaders, req.addHeaderLines lines⟩ rest =
          .stop .refused ⟨.kExpectHeaders, req.addHeaderLines lines⟩ after := by
        simp only [machine_move, move, hc, hcolon, hblank, if_false]
      exact Or.inr (Or.inr (by rw [machine.run_stop hmove]))

/-- A run that starts in front of the headers reaches the blank line, waits or is refused. -/
theorem run_head_cases {ctx : HttpContext} {bytes : Bytes}
    (hs : ctx.state = .kExpectRequestLine ∨ ctx.state = .kExpectHeaders) :
    (∃ r rest, ReachesBlankLine ctx bytes r rest) ∨ (machine.run ctx bytes).result = none ∨
      (machine.run ctx bytes).result = some .refused := by
  obtain ⟨state, request⟩ := ctx
  rcases hs with hs | hs
  · subst hs
    cases hc : cutLine bytes with
    | none =>
      have hmove : machine.move ⟨.kExpectRequestLine, request⟩ bytes = .wait := by
        simp only [machine_move, move, hc]
      exact Or.inr (Or.inl (by rw [machine.run_wait hmove]))
    | some p =>
      obtain ⟨line, after⟩ := p
      have hbytes := cutLine_eq_some hc
      have hn : ¬kCRLF <:+: line := cutPair_before hc
      cases hok : (processRequestLine request line).1 with
      | false =>
        have hmove : machine.move ⟨.kExpectRequestLine, request⟩ bytes =
            .stop .refused ⟨.kExpectRequestLine, (processRequestLine request line).2⟩ bytes := by
          simp only [machine_move, move, hc, hok, Bool.false_eq_true, if_false]
        exact Or.inr (Or.inr (by rw [machine.run_stop hmove]))
      | true =>
        rw [hbytes, run_of_requestLine hn hok]
        rcases run_headers_cases (processRequestLine request line).2 after with hb | hr
        · obtain ⟨r, rest, lines, hl, he, hreq⟩ := hb
          exact Or.inl ⟨r, rest, line, lines, hn, hl, hok, by rw [he], hreq⟩
        · exact Or.inr hr
  · subst hs
    exact run_headers_cases request bytes

theorem run_body {req : HttpRequest} {bytes : Bytes} :
    machine.run ⟨.kExpectBody, req⟩ bytes =
      if bytes.length < req.contentLength then ⟨none, ⟨.kExpectBody, req⟩, bytes⟩
      else ⟨some .gotAll, ⟨.kGotAll, req.setBody (bytes.take req.contentLength)⟩,
        bytes.drop req.contentLength⟩ := by
  split
  next hlt =>
    apply machine.run_wait
    simp only [machine_move, move, hlt, if_true]
  next hlt =>
    apply machine.run_stop
    simp only [machine_move, move, hlt, if_false]

theorem run_gotAll {req : HttpRequest} {bytes : Bytes} :
    machine.run ⟨.kGotAll, req⟩ bytes = ⟨some .gotAll, ⟨.kGotAll, req⟩, bytes⟩ :=
  machine.run_stop rfl

theorem reachesBlankLine_untimed {ctx : HttpContext} {bytes rest : Bytes} {req : HttpRequest} :
    ReachesBlankLine ctx.untimed bytes req rest ↔
      ∃ timed, ReachesBlankLine ctx bytes timed rest ∧ req = timed.untimed := by
  obtain ⟨state, request⟩ := ctx
  cases state with
  | kExpectRequestLine =>
    have hun := processRequestLine_untimed request
    have hadd : ∀ line lines, (processRequestLine request.untimed line).2.addHeaderLines lines =
        ((processRequestLine request line).2.addHeaderLines lines).untimed := by
      intro line lines
      rw [hun, HttpRequest.addHeaderLines_untimed]
    constructor
    · rintro ⟨line, lines, hn, hl, hok, he, hreq⟩
      rw [show (untimed ⟨.kExpectRequestLine, request⟩).request = request.untimed from rfl,
        hun] at hok
      exact ⟨_, ⟨line, lines, hn, hl, hok, he, rfl⟩, hreq.trans (hadd line lines)⟩
    · rintro ⟨timed, ⟨line, lines, hn, hl, hok, he, rfl⟩, rfl⟩
      refine ⟨line, lines, hn, hl, ?_, he, (hadd line lines).symm⟩
      rw [show (untimed ⟨.kExpectRequestLine, request⟩).request = request.untimed from rfl, hun]
      exact hok
  | kExpectHeaders =>
    have hadd := HttpRequest.addHeaderLines_untimed request
    constructor
    · rintro ⟨lines, hl, he, hreq⟩
      exact ⟨_, ⟨lines, hl, he, rfl⟩, hreq.trans (hadd lines)⟩
    · rintro ⟨timed, ⟨lines, hl, he, rfl⟩, rfl⟩
      exact ⟨lines, hl, he, (hadd lines).symm⟩
  | kExpectBody => exact ⟨fun h => h.elim, fun ⟨_, h, _⟩ => h.elim⟩
  | kGotAll => exact ⟨fun h => h.elim, fun ⟨_, h, _⟩ => h.elim⟩

end HttpContext

end MuduoPlus
