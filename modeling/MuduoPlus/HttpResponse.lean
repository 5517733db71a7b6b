import MuduoPlus.Buffer

namespace MuduoPlus

inductive HttpStatusCode where
  | kUnknown
  | k200Ok
  | k204NoContent
  | k206ParitialContent
  | k301MovedPermanently
  | k302Found
  | k304NotModified
  | k400BadRequest
  | k403Forbidden
  | k404NotFound
  | k500InternalServerError
  | k501NotImplemented
  | k502BadGateway
  | k503ServiceUnavailable
  deriving DecidableEq, Repr

def HttpStatusCode.code : HttpStatusCode → Nat
  | .kUnknown => 0
  | .k200Ok => 200
  | .k204NoContent => 204
  | .k206ParitialContent => 206
  | .k301MovedPermanently => 301
  | .k302Found => 302
  | .k304NotModified => 304
  | .k400BadRequest => 400
  | .k403Forbidden => 403
  | .k404NotFound => 404
  | .k500InternalServerError => 500
  | .k501NotImplemented => 501
  | .k502BadGateway => 502
  | .k503ServiceUnavailable => 503

/-- `headers_` is a `std::map`: pairs in the order of their keys, which is the order in
which they are written. -/
structure HttpResponse where
  statusCode : HttpStatusCode
  statusMessage : Bytes
  headers : List (Bytes × Bytes)
  body : Bytes
  closeConnection : Bool
  deriving DecidableEq

namespace HttpResponse

def new (close : Bool) : HttpResponse := ⟨.kUnknown, [], [], [], close⟩

/-- `map[key] = value`, keys compared bytewise. -/
def mapSet (key value : Bytes) : List (Bytes × Bytes) → List (Bytes × Bytes)
  | [] => [(key, value)]
  | (k, v) :: entries =>
    if key < k then (key, value) :: (k, v) :: entries
    else if key = k then (key, value) :: entries
    else (k, v) :: mapSet key value entries

def setStatusCode (resp : HttpResponse) (code : HttpStatusCode) : HttpResponse :=
  { resp with statusCode := code }

def setStatusMessage (resp : HttpResponse) (message : Bytes) : HttpResponse :=
  { resp with statusMessage := message }

def addHeader (resp : HttpResponse) (key value : Bytes) : HttpResponse :=
  { resp with headers := mapSet key value resp.headers }

def setContentType (resp : HttpResponse) (contentType : Bytes) : HttpResponse :=
  resp.addHeader (ascii "Content-Type") contentType

def setBody (resp : HttpResponse) (body : Bytes) : HttpResponse := { resp with body }

/-- What `appendToBuffer` appends, one call after the other. -/
def pieces (resp : HttpResponse) : List Bytes :=
  [ascii "HTTP/1.1 " ++ decimal resp.statusCode.code ++ ascii " ", resp.statusMessage, ascii "\r\n"] ++
  (if resp.closeConnection then [ascii "Connection: close\r\n"]
   else [ascii "Content-Length: " ++ decimal resp.body.length ++ ascii "\r\n",
     ascii "Connection: Keep-Alive\r\n"]) ++
  resp.headers.flatMap (fun header => [header.1, ascii ": ", header.2, ascii "\r\n"]) ++
  [ascii "\r\n", resp.body]

def appendToBuffer (resp : HttpResponse) (output : Buffer) : Buffer :=
  resp.pieces.foldl Buffer.append output

end HttpResponse

end MuduoPlus
