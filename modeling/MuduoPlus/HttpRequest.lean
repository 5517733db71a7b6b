import MuduoPlus.ByteText

namespace MuduoPlus

/-- Microseconds since the epoch. -/
abbrev Timestamp := Int

inductive Method where
  | kInvalid
  | kGet
  | kPost
  | kHead
  | kPut
  | kDelete
  | kOptions
  deriving DecidableEq, Repr

structure HttpRequest where
  method : Method
  version : Bytes
  path : Bytes
  pathParameters : Dict
  query : Bytes
  queryParameters : Dict
  receiveTime : Timestamp
  headers : Dict
  content : Bytes
  contentLength : Nat
  deriving DecidableEq

def chSpace : UInt8 := 32

def chAmp : UInt8 := 38

def chColon : UInt8 := 58

def chEquals : UInt8 := 61

def chQuestion : UInt8 := 63

namespace HttpRequest

/-- The default constructor. -/
def new : HttpRequest :=
  { method := .kInvalid, version := ascii "Unknown", path := [], pathParameters := ∅, query := []
    queryParameters := ∅, receiveTime := 0, headers := ∅, content := [], contentLength := 0 }

def setReceiveTime (req : HttpRequest) (t : Timestamp) : HttpRequest :=
  { req with receiveTime := t }

def methodOf (m : Bytes) : Method :=
  if m = ascii "GET" then .kGet
  else if m = ascii "POST" then .kPost
  else if m = ascii "HEAD" then .kHead
  else if m = ascii "PUT" then .kPut
  else if m = ascii "DELETE" then .kDelete
  else if m = ascii "OPTIONS" then .kOptions
  else .kInvalid

def methodString : Method → Bytes
  | .kGet => ascii "GET"
  | .kPost => ascii "POST"
  | .kHead => ascii "HEAD"
  | .kPut => ascii "PUT"
  | .kDelete => ascii "DELETE"
  | .kOptions => ascii "OPTIONS"
  | .kInvalid => ascii "UNKNOWN"

/-- `setMethod` stores what it found, also when it is not a method. -/
def setMethod (req : HttpRequest) (m : Bytes) : Bool × HttpRequest :=
  (methodOf m != .kInvalid, { req with method := methodOf m })

def setVersion (req : HttpRequest) (v : Bytes) : HttpRequest :=
  { req with version := v }

def setPath (req : HttpRequest) (p : Bytes) : HttpRequest :=
  { req with path := p }

def setPathParameter (req : HttpRequest) (key value : Bytes) : HttpRequest :=
  { req with pathParameters := req.pathParameters.insert key value }

def getPathParameter (req : HttpRequest) (key : Bytes) : Bytes :=
  (req.pathParameters.lookup key).getD []

/-- One `key=value` piece of a query string; a piece without `=` is skipped. -/
def addQueryPair (pair : Bytes) (d : Dict) : Dict :=
  match cutAt chEquals pair with
  | some (key, value) => d.insert key value
  | none => d

/-- The loop of `setQueryParameters` over the `&`-separated pieces. -/
def addQueryPairs (argumentStr : Bytes) (d : Dict) : Dict :=
  match _h : cutAt chAmp argumentStr with
  | some (pair, rest) => addQueryPairs rest (addQueryPair pair d)
  | none => addQueryPair argumentStr d
termination_by argumentStr.length
decreasing_by exact cutAt_length_lt _h

def setQueryParameters (req : HttpRequest) (argumentStr : Bytes) : HttpRequest :=
  { req with queryParameters := addQueryPairs argumentStr req.queryParameters }

def getQueryParameter (req : HttpRequest) (key : Bytes) : Bytes :=
  (req.queryParameters.lookup key).getD []

/-- The value of a header line, given what stands behind its colon. -/
def trimValue (text : Bytes) : Bytes :=
  (text.dropWhile isSpace).rdropWhile isSpace

def addHeader (req : HttpRequest) (field text : Bytes) : HttpRequest :=
  { req with headers := req.headers.insert field (trimValue text) }

def getHeader (req : HttpRequest) (field : Bytes) : Bytes :=
  (req.headers.lookup field).getD []

def setBody (req : HttpRequest) (body : Bytes) : HttpRequest :=
  { req with content := body }

def setContentLength (req : HttpRequest) (length : Nat) : HttpRequest :=
  { req with contentLength := length }

/-- The request without its receive time, which is the only field that depends on
when its bytes arrived. -/
def untimed (req : HttpRequest) : HttpRequest := req.setReceiveTime 0

end HttpRequest

end MuduoPlus
