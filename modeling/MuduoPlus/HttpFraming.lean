import MuduoPlus.HttpHead
import MuduoPlus.HttpSegmentation

namespace MuduoPlus

/-- The names and values of header lines, as `addHeader` takes them. -/
def headerFields (lines : List Bytes) : List (Bytes × Bytes) :=
  lines.filterMap fun line => (cutAt chColon line).map fun p => (p.1, HttpRequest.trimValue p.2)

/-- The values under a name, in the order of the lines. -/
def valuesOf (name : Bytes) (fields : List (Bytes × Bytes)) : List Bytes :=
  (fields.filter fun field => field.1 = name).map Prod.snd

/-- A decimal number: digits and nothing else. -/
def IsDecimal (text : Bytes) : Prop := text ≠ [] ∧ ∀ d ∈ text, isDigit d = true

instance (text : Bytes) : Decidable (IsDecimal text) :=
  decidable_of_iff (text.isEmpty = false ∧ text.all isDigit = true) <| by
    rw [List.isEmpty_eq_false_iff, List.all_eq_true]
    exact Iff.rfl

theorem stoul_large {ds : Bytes} (hd : IsDecimal ds) (hb : 2 ^ 64 ≤ digitsValue ds) :
    stoul ds = .error .outOfRange := by
  obtain ⟨hne, hdigits⟩ := hd
  cases ds with
  | nil => exact absurd rfl hne
  | cons d ds =>
    have hdig := hdigits d List.mem_cons_self
    have hsp := not_isSpace_of_isDigit hdig
    have hdrop : (d :: ds).dropWhile isSpace = d :: ds := by simp [hsp]
    have htake : (d :: ds).takeWhile isDigit = d :: ds := List.takeWhile_eq_self_iff.mpr hdigits
    have hminus : d ≠ 45 := by
      rintro rfl
      exact absurd hdig (by decide)
    have hplus : d ≠ 43 := by
      rintro rfl
      exact absurd hdig (by decide)
    have hsign : ((d :: ds).head? == some 45 || (d :: ds).head? == some 43) = false := by
      simp [hminus, hplus]
    simp only [stoul, hdrop, hsign, Bool.false_eq_true, if_false, htake]
    rw [if_neg (List.cons_ne_nil d ds), if_pos hb]

namespace HttpRequest

theorem getHeader_eq (req : HttpRequest) (name : Bytes) :
    req.getHeader name = (req.headers.lookup name).getD [] := rfl

/-- Of several lines with one name the last one stays. -/
theorem lookup_addHeaderLines (req : HttpRequest) (lines : List Bytes) (name : Bytes) :
    (req.addHeaderLines lines).headers.lookup name =
      (valuesOf name (headerFields lines)).getLast?.or (req.headers.lookup name) := by
  induction lines generalizing req with
  | nil => rfl
  | cons line lines ih =>
    have hrest := ih (req.addHeaderLine line)
    rw [addHeaderLines, List.foldl_cons]
    refine hrest.trans ?_
    unfold addHeaderLine headerFields
    rw [List.filterMap_cons]
    cases cutAt chColon line with
    | none => rfl
    | some p =>
      obtain ⟨field, text⟩ := p
      simp only [Option.map_some, valuesOf, List.filter_cons]
      by_cases hf : field = name
      · subst hf
        rw [addHeader, Finmap.lookup_insert]
        simp only [decide_true, if_true, List.map_cons, List.getLast?_cons]
        cases (List.map Prod.snd (List.filter _ _)).getLast? with
        | none => rfl
        | some v => rfl
      · have hne : name ≠ field := fun he => hf he.symm
        rw [addHeader, Finmap.lookup_insert_of_ne _ hne]
        simp only [hf, decide_false, Bool.false_eq_true, if_false]

theorem addHeaderLines_method (req : HttpRequest) (lines : List Bytes) :
    (req.addHeaderLines lines).method = req.method ∧
      (req.addHeaderLines lines).content = req.content := by
  induction lines generalizing req with
  | nil => exact ⟨rfl, rfl⟩
  | cons line lines ih =>
    have hline : (req.addHeaderLine line).method = req.method ∧
        (req.addHeaderLine line).content = req.content := by
      unfold addHeaderLine
      cases cutAt chColon line with
      | none => exact ⟨rfl, rfl⟩
      | some p => exact ⟨rfl, rfl⟩
    obtain ⟨hmethod, hcontent⟩ := ih (req.addHeaderLine line)
    exact ⟨hmethod.trans hline.1, hcontent.trans hline.2⟩

end HttpRequest

/-- The head of a request: a request line that is taken, and lines with a colon. -/
structure RequestHead where
  line : Bytes
  lines : List Bytes
  line_whole : ¬kCRLF <:+: line
  line_taken : (processRequestLine .new line).1 = true
  lines_whole : HeaderLines lines

namespace RequestHead

open HttpContext

variable {head : RequestHead} {rest : Bytes} {buf : Buffer} {chunks : List (Bytes × Timestamp)}

/-- The bytes of the head, with the empty line that ends it. -/
def text (head : RequestHead) : Bytes :=
  head.line ++ kCRLF ++ (headerText head.lines ++ kCRLF)

def method (head : RequestHead) : Method := (processRequestLine .new head.line).2.method

def fields (head : RequestHead) : List (Bytes × Bytes) := headerFields head.lines

/-- The values of its lines `Content-Length: …`. -/
def contentLengths (head : RequestHead) : List Bytes :=
  valuesOf (ascii "Content-Length") head.fields

def hasBody (head : RequestHead) : Prop := head.method = .kPost ∨ head.method = .kPut

instance (head : RequestHead) : Decidable head.hasBody := by
  unfold hasBody
  infer_instance

/-- What the parser has collected at the empty line. -/
def request (head : RequestHead) : HttpRequest :=
  (processRequestLine .new head.line).2.addHeaderLines head.lines

/-- The bytes arrive at a fresh parser, in any pieces. -/
structure Arrives (bytes : Bytes) (buf : Buffer) (chunks : List (Bytes × Timestamp)) : Prop where
  valid : buf.Valid
  some_chunk : chunks ≠ []
  stream : buf.readable ++ (chunks.map Prod.fst).flatten = bytes

theorem arrives_whole (bytes : Bytes) : Arrives bytes (Buffer.new 0) [(bytes, 0)] :=
  ⟨Buffer.new_valid 0, List.cons_ne_nil _ _, by simp [Buffer.new_readable]⟩

theorem method_request (head : RequestHead) : head.request.method = head.method :=
  (HttpRequest.addHeaderLines_method _ _).1

theorem content_request (head : RequestHead) : head.request.content = [] :=
  (HttpRequest.addHeaderLines_method _ _).2.trans (processRequestLine_keeps _ _).2

theorem getHeader_request (head : RequestHead) (name : Bytes) :
    head.request.getHeader name = (valuesOf name head.fields).getLast?.getD [] := by
  have hnew : (processRequestLine .new head.line).2.headers.lookup name = none := by
    rw [(processRequestLine_keeps _ _).1]
    exact Finmap.lookup_empty name
  rw [HttpRequest.getHeader_eq, request, HttpRequest.lookup_addHeaderLines, hnew, Option.or_none]
  rfl

theorem reachesBlankLine (head : RequestHead) (rest : Bytes) :
    ReachesBlankLine .new (head.text ++ rest) head.request rest := by
  refine ⟨head.line, head.lines, head.line_whole, head.lines_whole, head.line_taken, ?_, rfl⟩
  simp [text]

/-- What becomes of the bytes once the head has arrived. -/
theorem fed_eq (h : Arrives (head.text ++ rest) buf chunks) :
    (⟨(feedChunks .new buf chunks).outcome, (feedChunks .new buf chunks).ctx.untimed,
      (feedChunks .new buf chunks).unconsumed⟩ : Halt HttpContext ParseStop UInt8) =
      match endHeaders head.request with
      | .body r => machine.run ⟨.kExpectBody, r⟩ rest
      | .complete r => ⟨some .gotAll, ⟨.kGotAll, r⟩, rest⟩
      | .missingLength => ⟨some .refused, ⟨.kExpectHeaders, head.request⟩, rest⟩
      | .raised e => ⟨some (.raised e), ⟨.kExpectHeaders, head.request⟩, kCRLF ++ rest⟩ := by
  rw [feedChunks_eq_run .new h.valid h.some_chunk, h.stream]
  exact run_of_reachesBlankLine (head.reachesBlankLine rest)

/-- What was collected of the head is still there when the call ends. -/
theorem fed_request (h : Arrives (head.text ++ rest) buf chunks) :
    (feedChunks .new buf chunks).ctx.request.headers = head.request.headers ∧
      (feedChunks .new buf chunks).ctx.request.method = head.request.method := by
  have hfed := fed_eq h
  have hkeeps : ∀ {state r}, (feedChunks .new buf chunks).ctx.untimed = ⟨state, r⟩ →
      r.headers = head.request.headers → r.method = head.request.method →
      (feedChunks .new buf chunks).ctx.request.headers = head.request.headers ∧
        (feedChunks .new buf chunks).ctx.request.method = head.request.method := by
    intro state r hctx hheaders hmethod
    have hr : (feedChunks .new buf chunks).ctx.untimed.request = r := by rw [hctx]
    subst hr
    exact ⟨hheaders, hmethod⟩
  cases hend : endHeaders head.request with
  | body r =>
    obtain ⟨n, rfl⟩ := exists_of_endHeaders (Or.inl hend)
    rw [hend] at hfed
    dsimp only at hfed
    rw [run_body] at hfed
    split at hfed
    next => exact hkeeps (Halt.mk.inj hfed).2.1 rfl rfl
    next => exact hkeeps (Halt.mk.inj hfed).2.1 rfl rfl
  | complete r =>
    obtain ⟨n, rfl⟩ := exists_of_endHeaders (Or.inr hend)
    rw [hend] at hfed
    exact hkeeps (Halt.mk.inj hfed).2.1 rfl rfl
  | missingLength =>
    rw [hend] at hfed
    exact hkeeps (Halt.mk.inj hfed).2.1 rfl rfl
  | raised e =>
    rw [hend] at hfed
    exact hkeeps (Halt.mk.inj hfed).2.1 rfl rfl

/-- The text that `Content-Length` is read from; without such a line it is empty. -/
def lengthText (head : RequestHead) : Bytes := head.contentLengths.getLast?.getD []

/-- How the parser ends on the bytes behind a head: with what outcome and body, and what it has
not consumed. -/
def framing (head : RequestHead) (rest : Bytes) : Option ParseStop × Bytes × Bytes :=
  if head.hasBody then
    if head.lengthText = [] then (some .refused, [], rest)
    else
      match stoul head.lengthText with
      | .error e => (some (.raised e), [], kCRLF ++ rest)
      | .ok n =>
        if rest.length < n then (none, [], rest) else (some .gotAll, rest.take n, rest.drop n)
  else (some .gotAll, [], rest)

theorem endHeaders_other (hb : ¬head.hasBody) : endHeaders head.request = .complete head.request := by
  unfold endHeaders
  rw [method_request]
  exact if_neg hb

theorem endHeaders_hasBody (hb : head.hasBody) :
    endHeaders head.request =
      if head.lengthText ≠ [] then
        match stoul head.lengthText with
        | .error e => .raised e
        | .ok n =>
          if 0 < n then .body (head.request.setContentLength n)
          else .complete (head.request.setContentLength n)
      else .missingLength := by
  unfold endHeaders
  rw [method_request, getHeader_request]
  exact if_pos hb

theorem fed_framing (h : Arrives (head.text ++ rest) buf chunks) :
    ((feedChunks .new buf chunks).outcome, (feedChunks .new buf chunks).ctx.request.content,
      (feedChunks .new buf chunks).unconsumed) = head.framing rest := by
  have hfed := fed_eq h
  have hends : ∀ {outcome state r content unconsumed},
      (⟨(feedChunks .new buf chunks).outcome, (feedChunks .new buf chunks).ctx.untimed,
        (feedChunks .new buf chunks).unconsumed⟩ : Halt HttpContext ParseStop UInt8) =
        ⟨outcome, ⟨state, r⟩, unconsumed⟩ → r.content = content →
      ((feedChunks .new buf chunks).outcome, (feedChunks .new buf chunks).ctx.request.content,
        (feedChunks .new buf chunks).unconsumed) = (outcome, content, unconsumed) := by
    intro outcome state r content unconsumed heq hr
    obtain ⟨ho, hc, hu⟩ := Halt.mk.inj heq
    have hcontent : (feedChunks .new buf chunks).ctx.request.content = r.content :=
      congrArg (fun ctx : HttpContext => ctx.request.content) hc
    rw [ho, hcontent, hr, hu]
  have hempty := head.content_request
  unfold framing
  by_cases hb : head.hasBody
  · rw [endHeaders_hasBody hb] at hfed
    rw [if_pos hb]
    by_cases ht : head.lengthText = []
    · rw [if_neg (not_not.mpr ht)] at hfed
      rw [if_pos ht]
      exact hends hfed hempty
    · rw [if_pos ht] at hfed
      rw [if_neg ht]
      cases hs : stoul head.lengthText with
      | error e =>
        rw [hs] at hfed
        exact hends hfed hempty
      | ok n =>
        rw [hs] at hfed
        dsimp only at hfed ⊢
        by_cases hn : 0 < n
        · rw [if_pos hn] at hfed
          dsimp only at hfed
          rw [run_body] at hfed
          change _ = if rest.length < n then _ else _ at hfed
          by_cases hlt : rest.length < n
          · rw [if_pos hlt] at hfed ⊢
            exact hends hfed hempty
          · rw [if_neg hlt] at hfed ⊢
            exact hends hfed rfl
        · obtain rfl : n = 0 := by omega
          rw [if_neg hn] at hfed
          rw [if_neg (Nat.not_lt_zero _), List.take_zero, List.drop_zero]
          exact hends hfed hempty
  · rw [endHeaders_other hb] at hfed
    rw [if_neg hb]
    exact hends hfed hempty

section Framing

/-- A request without a body is complete with its head. -/
theorem framing_other (hb : ¬head.hasBody) (rest : Bytes) :
    head.framing rest = (some .gotAll, [], rest) :=
  if_neg hb

variable (hb : head.hasBody)

include hb

theorem framing_missing (ht : head.lengthText = []) (rest : Bytes) :
    head.framing rest = (some .refused, [], rest) := by
  rw [framing, if_pos hb, if_pos ht]

theorem framing_unreadable {e : StdException} (ht : head.lengthText ≠ [])
    (hs : stoul head.lengthText = .error e) (rest : Bytes) :
    head.framing rest = (some (.raised e), [], kCRLF ++ rest) := by
  rw [framing, if_pos hb, if_neg ht, hs]

/-- With a length that is read as `n`, the body is the next `n` bytes. -/
theorem framing_length {n : Nat} (ht : head.lengthText ≠ []) (hs : stoul head.lengthText = .ok n)
    (rest : Bytes) :
    head.framing rest =
      if rest.length < n then (none, [], rest) else (some .gotAll, rest.take n, rest.drop n) := by
  rw [framing, if_pos hb, if_neg ht, hs]

/-- A length that is there is not refused, whatever it is. -/
theorem framing_ne_refused (ht : head.lengthText ≠ []) (rest : Bytes) :
    (head.framing rest).1 ≠ some .refused := by
  cases hs : stoul head.lengthText with
  | error e => simp [framing_unreadable hb ht hs]
  | ok n =>
    rw [framing_length hb ht hs]
    split <;> simp

end Framing

/-- `Content-Length` delimits the message: whenever a line says `n`, the parser gets to `gotAll`
only with `n` bytes behind the head, which are the body, and leaves what follows them; and a POST
or PUT with a value that is no decimal number is refused. -/
structure Framed (head : RequestHead) : Prop where
  delimited : ∀ value ∈ head.contentLengths, IsDecimal value → ∀ rest buf chunks,
    Arrives (head.text ++ rest) buf chunks → (feedChunks .new buf chunks).outcome = some .gotAll →
      digitsValue value ≤ rest.length ∧
      (feedChunks .new buf chunks).ctx.request.content = rest.take (digitsValue value) ∧
      (feedChunks .new buf chunks).unconsumed = rest.drop (digitsValue value)
  strict : head.hasBody → ∀ value ∈ head.contentLengths, ¬IsDecimal value → ∀ rest buf chunks,
    Arrives (head.text ++ rest) buf chunks → (feedChunks .new buf chunks).outcome = some .refused

/-- The lines that say how long the body is agree with each other and with the method. -/
def LengthAgreed (head : RequestHead) : Prop :=
  if head.hasBody then
    head.contentLengths.getLast? = some [] ∨
      (∀ value ∈ head.contentLengths, IsDecimal value) ∧
        ∀ last ∈ head.contentLengths.getLast?, digitsValue last < 2 ^ 64 →
          ∀ value ∈ head.contentLengths, digitsValue value = digitsValue last
  else ∀ value ∈ head.contentLengths, IsDecimal value → digitsValue value = 0

theorem lengthText_eq {last : Bytes} (hl : head.contentLengths.getLast? = some last) :
    head.lengthText = last := by
  rw [lengthText, hl]
  rfl

theorem exists_last {value : Bytes} (hm : value ∈ head.contentLengths) :
    ∃ last, head.contentLengths.getLast? = some last :=
  Option.ne_none_iff_exists'.mp (mt List.getLast?_eq_none_iff.mp (List.ne_nil_of_mem hm))

theorem framed_other (hb : ¬head.hasBody)
    (hz : ∀ value ∈ head.contentLengths, IsDecimal value → digitsValue value = 0) : head.Framed := by
  refine ⟨fun value hm hd rest buf chunks h _ => ?_, fun hb' => absurd hb' hb⟩
  have hfed := fed_framing h
  rw [framing_other hb] at hfed
  simp only [Prod.mk.injEq] at hfed
  rw [hz value hm hd]
  exact ⟨Nat.zero_le _, hfed.2⟩

theorem framed_hasBody (hb : head.hasBody) (hd : ∀ value ∈ head.contentLengths, IsDecimal value)
    (hsame : ∀ last ∈ head.contentLengths.getLast?, digitsValue last < 2 ^ 64 →
      ∀ value ∈ head.contentLengths, digitsValue value = digitsValue last) : head.Framed := by
  refine ⟨fun value hm _ rest buf chunks h hgot => ?_, fun _ value hm hno => absurd (hd value hm) hno⟩
  obtain ⟨last, hlast⟩ := exists_last hm
  have hdlast := hd last (List.mem_of_getLast? hlast)
  have htext := lengthText_eq hlast
  have hne : head.lengthText ≠ [] := htext ▸ hdlast.1
  have hfed := fed_framing h
  rw [hgot] at hfed
  by_cases hlt : digitsValue last < 2 ^ 64
  · have hs : stoul head.lengthText = .ok (digitsValue last) := by
      rw [htext]
      exact stoul_digits hdlast.1 hdlast.2 hlt
    rw [framing_length hb hne hs] at hfed
    rw [hsame last hlast hlt value hm]
    split at hfed
    next => simp at hfed
    next hle =>
      simp only [Prod.mk.injEq, true_and] at hfed
      exact ⟨by omega, hfed⟩
  · -- A number above `2^64 - 1` makes `std::stoul` raise.
    have hs : stoul head.lengthText = .error .outOfRange := by
      rw [htext]
      exact stoul_large hdlast (by omega)
    simp [framing_unreadable hb hne hs] at hfed

theorem framed_refused (hb : head.hasBody) (hempty : head.contentLengths.getLast? = some []) :
    head.Framed := by
  have hrefused : ∀ {rest buf chunks}, Arrives (head.text ++ rest) buf chunks →
      (feedChunks .new buf chunks).outcome = some .refused := by
    intro rest buf chunks h
    have hfed := fed_framing h
    rw [framing_missing hb (lengthText_eq hempty)] at hfed
    exact congrArg Prod.fst hfed
  refine ⟨fun value _ _ rest buf chunks h hgot => ?_,
    fun _ value _ _ rest buf chunks h => hrefused h⟩
  rw [hrefused h] at hgot
  cases hgot

theorem Framed.zero_of_other (hf : head.Framed) (hb : ¬head.hasBody) {value : Bytes}
    (hm : value ∈ head.contentLengths) (hd : IsDecimal value) : digitsValue value = 0 := by
  have h := arrives_whole (head.text ++ [])
  have hfed := fed_framing h
  rw [framing_other hb] at hfed
  have hle := (hf.delimited value hm hd [] _ _ h (congrArg Prod.fst hfed)).1
  simpa using hle

theorem Framed.decimal (hf : head.Framed) (hb : head.hasBody) (ht : head.lengthText ≠ [])
    {value : Bytes} (hm : value ∈ head.contentLengths) : IsDecimal value := by
  by_contra hno
  have h := arrives_whole (head.text ++ [])
  have hrefused := hf.strict hb value hm hno [] _ _ h
  exact framing_ne_refused hb ht [] ((congrArg Prod.fst (fed_framing h)).symm.trans hrefused)

/-- With as many bytes as the last line says the parser is done, so no other line may say something
else. -/
theorem Framed.same (hf : head.Framed) (hb : head.hasBody) {last value : Bytes}
    (hlast : head.contentLengths.getLast? = some last) (hdlast : IsDecimal last)
    (hlt : digitsValue last < 2 ^ 64) (hm : value ∈ head.contentLengths) (hd : IsDecimal value) :
    digitsValue value = digitsValue last := by
  have htext := lengthText_eq hlast
  have hne : head.lengthText ≠ [] := htext ▸ hdlast.1
  have hs : stoul head.lengthText = .ok (digitsValue last) := by
    rw [htext]
    exact stoul_digits hdlast.1 hdlast.2 hlt
  have h := arrives_whole (head.text ++ List.replicate (digitsValue last) 0)
  have hfed := fed_framing h
  rw [framing_length hb hne hs, List.length_replicate, if_neg (Nat.lt_irrefl _)] at hfed
  simp only [Prod.mk.injEq] at hfed
  obtain ⟨hle, hcontent, -⟩ := hf.delimited value hm hd _ _ _ h hfed.1
  have hlength := congrArg List.length (hfed.2.1.symm.trans hcontent)
  simp only [List.length_take, List.length_replicate] at hle hlength
  omega

theorem Framed.lengthAgreed (hf : head.Framed) (hb : head.hasBody)
    (hempty : head.contentLengths.getLast? ≠ some []) :
    (∀ value ∈ head.contentLengths, IsDecimal value) ∧
      ∀ last ∈ head.contentLengths.getLast?, digitsValue last < 2 ^ 64 →
        ∀ value ∈ head.contentLengths, digitsValue value = digitsValue last := by
  have hdecimal : ∀ value ∈ head.contentLengths, IsDecimal value := by
    intro value hm
    obtain ⟨last, hlast⟩ := exists_last hm
    have ht : head.lengthText ≠ [] := by
      rw [lengthText_eq hlast]
      rintro rfl
      exact hempty hlast
    exact hf.decimal hb ht hm
  refine ⟨hdecimal, fun last hlast hlt value hm => ?_⟩
  exact hf.same hb hlast (hdecimal last (List.mem_of_getLast? hlast)) hlt hm (hdecimal value hm)

/-- `Content-Length` delimits exactly the messages whose lines agree: on a POST or PUT all of them
are decimal numbers and say the same (or the last one is empty, which is refused, or is above
`2^64 - 1`, which raises), on another method none of them announces a body. A length that fits and
whose bytes are there does lead to `gotAll`. -/
theorem framed_iff (head : RequestHead) :
    (head.Framed ↔ head.LengthAgreed) ∧
      ∀ value, head.hasBody → head.contentLengths = [value] → IsDecimal value →
        digitsValue value < 2 ^ 64 → ∀ rest buf chunks, Arrives (head.text ++ rest) buf chunks →
          digitsValue value ≤ rest.length → (feedChunks .new buf chunks).outcome = some .gotAll := by
  constructor
  · unfold LengthAgreed
    by_cases hb : head.hasBody
    · rw [if_pos hb]
      constructor
      · intro hf
        by_cases hempty : head.contentLengths.getLast? = some []
        · exact Or.inl hempty
        · exact Or.inr (hf.lengthAgreed hb hempty)
      · rintro (hempty | ⟨hd, hsame⟩)
        · exact framed_refused hb hempty
        · exact framed_hasBody hb hd hsame
    · rw [if_neg hb]
      exact ⟨fun hf value hm hd => hf.zero_of_other hb hm hd, framed_other hb⟩
  · intro value hb hvalues hd hlt rest buf chunks h hle
    have htext : head.lengthText = value := lengthText_eq (by rw [hvalues]; rfl)
    have hne : head.lengthText ≠ [] := htext ▸ hd.1
    have hs : stoul head.lengthText = .ok (digitsValue value) := by
      rw [htext]
      exact stoul_digits hd.1 hd.2 hlt
    have hfed := fed_framing h
    rw [framing_length hb hne hs, if_neg (by omega)] at hfed
    exact congrArg Prod.fst hfed

/-- A GET with a `Content-Length` of 19 is complete without its body, and the body is left behind
as the next request; a POST with the length `+2x` is accepted. -/
theorem body_left_behind :
    (let fed := feedChunks .new (Buffer.new 0)
      [(ascii "GET /a HTTP/1.1\r\nContent-Length: 19\r\n\r\n", 1), (ascii "GET /b HTTP/1.1\r\n\r\n", 2)]
     fed.outcome = some .gotAll ∧ fed.ctx.request.content = [] ∧
      fed.unconsumed = ascii "GET /b HTTP/1.1\r\n\r\n") ∧
    (let fed := feedChunks .new (Buffer.new 0)
      [(ascii "POST /a HTTP/1.1\r\nContent-Length: +2x\r\n\r\nok", 1)]
     fed.outcome = some .gotAll ∧ fed.ctx.request.content = ascii "ok") := by
  decide +kernel

end RequestHead

end MuduoPlus
