import MuduoPlus.HttpRequest
import MuduoPlus.Buffer

namespace MuduoPlus

inductive HttpRequestParseState where
  | kExpectRequestLine
  | kExpectHeaders
  | kExpectBody
  | kGotAll
  deriving DecidableEq, Repr

def chCR : UInt8 := 13

def chLF : UInt8 := 10

def kCRLF : Bytes := [chCR, chLF]

/-- What stands before and after the first line end. -/
def cutLine (bytes : Bytes) : Option (Bytes × Bytes) :=
  cutPair chCR chLF bytes

structure HttpContext where
  state : HttpRequestParseState
  request : HttpRequest
  deriving DecidableEq

/-- The request target: a path, and the query behind the first `?`. -/
def HttpRequest.setTarget (req : HttpRequest) (target : Bytes) : HttpRequest :=
  match cutAt chQuestion target with
  | some (path, query) => (req.setPath path).setQueryParameters query
  | none => req.setPath target

/-- `processRequestLine` on the text of a line; it fills the request as far as it gets. -/
def processRequestLine (req : HttpRequest) (line : Bytes) : Bool × HttpRequest :=
  match cutAt chSpace line with
  | none => (false, req)
  | some (method, afterMethod) =>
    if (req.setMethod method).1 then
      match cutAt chSpace afterMethod with
      | none => (false, (req.setMethod method).2)
      | some (target, version) =>
        let filled := (req.setMethod method).2.setTarget target
        if version.length = 8 ∧ version.take 7 = ascii "HTTP/1." then
          if version.getLast? = some 49 then (true, filled.setVersion (ascii "HTTP/1.1"))
          else if version.getLast? = some 48 then (true, filled.setVersion (ascii "HTTP/1.0"))
          else (false, filled)
        else (false, filled)
    else (false, (req.setMethod method).2)

/-- What the blank line behind the headers leads to. -/
inductive HeadersEnd where
  | body (req : HttpRequest)
  | complete (req : HttpRequest)
  | missingLength
  | raised (e : StdException)

/-- The branch of `parseRequest` for a blank line. -/
def endHeaders (req : HttpRequest) : HeadersEnd :=
  if req.method = .kPost ∨ req.method = .kPut then
    let contentLength := req.getHeader (ascii "Content-Length")
    if contentLength ≠ [] then
      match stoul contentLength with
      | .error e => .raised e
      | .ok n =>
        if 0 < n then .body (req.setContentLength n) else .complete (req.setContentLength n)
    else .missingLength
  else .complete req

/-- One turn of the `while (hasMore)` loop: another turn, or the end of the call. -/
inductive Turn where
  | more (ctx : HttpContext) (buf : Buffer)
  | done (ret : Except StdException Bool) (ctx : HttpContext) (buf : Buffer)

namespace HttpContext

def new : HttpContext := ⟨.kExpectRequestLine, .new⟩

def gotAll (ctx : HttpContext) : Bool := ctx.state == .kGotAll

/-- `reset` swaps every field with those of a fresh request. -/
def reset (_ : HttpContext) : HttpContext := ⟨.kExpectRequestLine, .new⟩

/-- The `findLine` lambda: the text from `start` to `crlf`. -/
def findLine (buf : Buffer) : Option Bytes :=
  (cutLine buf.readable).map Prod.fst

def turn (receiveTime : Timestamp) (ctx : HttpContext) (buf : Buffer) : Turn :=
  match ctx.state with
  | .kExpectRequestLine =>
    match findLine buf with
    | none => .done (.ok true) ctx buf
    | some line =>
      let parsed := processRequestLine ctx.request line
      if parsed.1 then
        .more ⟨.kExpectHeaders, parsed.2.setReceiveTime receiveTime⟩ (buf.retrieve (line.length + 2))
      else .done (.ok false) ⟨.kExpectRequestLine, parsed.2⟩ buf
  | .kExpectHeaders =>
    match findLine buf with
    | none => .done (.ok true) ctx buf
    | some line =>
      let after := buf.retrieve (line.length + 2)
      match cutAt chColon line with
      | some (field, text) => .more ⟨.kExpectHeaders, ctx.request.addHeader field text⟩ after
      | none =>
        if line = [] then
          match endHeaders ctx.request with
          | .body req => .more ⟨.kExpectBody, req⟩ after
          | .complete req => .done (.ok true) ⟨.kGotAll, req⟩ after
          | .missingLength => .done (.ok false) ctx after
          | .raised e => .done (.error e) ctx buf
        else .done (.ok false) ctx after
  | .kExpectBody =>
    if buf.readableBytes < ctx.request.contentLength then .done (.ok true) ctx buf
    else
      .done (.ok true)
        ⟨.kGotAll, ctx.request.setBody (buf.readable.take ctx.request.contentLength)⟩
        (buf.retrieve ctx.request.contentLength)
  | .kGotAll => .done (.ok true) ctx buf

theorem findLine_readableBytes {buf : Buffer} {line : Bytes} (h : findLine buf = some line) :
    line.length + 2 ≤ buf.readableBytes := by
  obtain ⟨⟨before, after⟩, hc, rfl⟩ := Option.map_eq_some_iff.mp h
  have hlen := cutPair_length hc
  have hw : buf.readable.length ≤ buf.readableBytes := by
    simp only [Buffer.readable, window, List.length_take, Buffer.readableBytes]
    omega
  simp only
  omega

theorem retrieve_readableBytes_lt {buf : Buffer} {len : Nat} (hl : 0 < len)
    (hb : len ≤ buf.readableBytes) : (buf.retrieve len).readableBytes < buf.readableBytes := by
  unfold Buffer.retrieve
  split
  next hlt =>
    simp only [Buffer.readableBytes] at hlt ⊢
    omega
  next =>
    simp only [Buffer.retrieveAll, Buffer.readableBytes] at hb ⊢
    omega

/-- A turn that asks for another one has consumed a line. -/
theorem turn_more_lt {t : Timestamp} {ctx ctx' : HttpContext} {buf buf' : Buffer}
    (h : turn t ctx buf = .more ctx' buf') : buf'.readableBytes < buf.readableBytes := by
  have shrink : ∀ line, findLine buf = some line →
      (buf.retrieve (line.length + 2)).readableBytes < buf.readableBytes :=
    fun line hl => retrieve_readableBytes_lt (by omega) (findLine_readableBytes hl)
  unfold turn at h
  split at h
  next =>
    split at h
    next => cases h
    next line hl =>
      simp only at h
      split at h
      next => cases h; exact shrink line hl
      next => cases h
  next =>
    split at h
    next => cases h
    next line hl =>
      simp only at h
      split at h
      next => cases h; exact shrink line hl
      next =>
        split at h
        next =>
          split at h
          next => cases h; exact shrink line hl
          next => cases h
          next => cases h
          next => cases h
        next => cases h
  next =>
    split at h
    next => cases h
    next => cases h
  next => cases h

/-- The return value or exception of a call, and what it leaves behind. -/
structure ParseResult where
  ret : Except StdException Bool
  ctx : HttpContext
  buf : Buffer

def parseRequest (ctx : HttpContext) (buf : Buffer) (receiveTime : Timestamp) : ParseResult :=
  match _h : turn receiveTime ctx buf with
  | .more ctx' buf' => parseRequest ctx' buf' receiveTime
  | .done ret ctx' buf' => ⟨ret, ctx', buf'⟩
termination_by buf.readableBytes
decreasing_by exact turn_more_lt _h

theorem parseRequest_more {ctx ctx' : HttpContext} {buf buf' : Buffer} {t : Timestamp}
    (h : turn t ctx buf = .more ctx' buf') : parseRequest ctx buf t = parseRequest ctx' buf' t := by
  conv_lhs => rw [parseRequest]
  split
  next hh => rw [h] at hh; cases hh; rfl
  next hh => rw [h] at hh; cases hh

theorem parseRequest_done {ctx ctx' : HttpContext} {buf buf' : Buffer} {t : Timestamp}
    {ret : Except StdException Bool} (h : turn t ctx buf = .done ret ctx' buf') :
    parseRequest ctx buf t = ⟨ret, ctx', buf'⟩ := by
  rw [parseRequest]
  split
  next hh => rw [h] at hh; cases hh
  next hh => rw [h] at hh; cases hh; rfl

end HttpContext

end MuduoPlus
