import MuduoPlus.HttpMachine
import MuduoPlus.HttpResponse
import MuduoPlus.TcpConnection

namespace MuduoPlus

/-- A handler, fallback callback or session manager: it writes the response and may change
the application's own state `σ`. -/
abbrev HttpHandler (σ : Type) := HttpRequest → HttpResponse → σ → HttpResponse × σ

/-- `Middleware::handle`, which may also change the request; `false` stops the chain. -/
abbrev HttpMiddleware (σ : Type) :=
  HttpRequest → HttpResponse → σ → Bool × HttpRequest × HttpResponse × σ

/-- What is plugged into a server. `route` finds the handler that matches a request. -/
structure HttpApp (σ : Type) where
  sessionMgr : Option (HttpHandler σ)
  middlewares : List (HttpMiddleware σ)
  route : HttpRequest → Option (HttpHandler σ)
  httpCallback : Option (HttpHandler σ)

/-- What happens on a connection above the parser, in order. -/
inductive HttpEvent where
  | dispatched (request : HttpRequest)
  | middleware (index : Nat)
  | handler
  | fallback
  | answered400
  | closing
  | raised (e : StdException)
  deriving DecidableEq

/-- The `std::any` context of a connection. -/
inductive ConnContext where
  | empty
  | http (context : HttpContext)
  | other

/-- What the server keeps beside a connection: its context and, shared by all of them, the
application's state; `log` records the events. -/
structure HttpSide (σ : Type) where
  context : ConnContext
  app : σ
  log : List HttpEvent

abbrev HttpConn (σ : Type) := TcpConnection (HttpSide σ)

/-- The locals of `handleHttpRequest` with what its callees change. -/
structure HttpExchange (σ : Type) where
  request : HttpRequest
  response : HttpResponse
  app : σ
  log : List HttpEvent

namespace HttpApp

variable {σ : Type}

def callHandler (h : HttpHandler σ) (x : HttpExchange σ) : HttpExchange σ :=
  let (response, app) := h x.request x.response x.app
  { x with response, app }

/-- `MiddlewareChain::handle`; `index` is the position of the first of `ms`. -/
def runMiddlewares : List (HttpMiddleware σ) → Nat → HttpExchange σ → Bool × HttpExchange σ
  | [], _, x => (true, x)
  | m :: ms, index, x =>
    let (ok, request, response, app) := m x.request x.response x.app
    let x : HttpExchange σ := ⟨request, response, app, x.log ++ [.middleware index]⟩
    if ok then runMiddlewares ms (index + 1) x else (false, x)

/-- Router, fallback callback or 404. -/
def routeRequest (app : HttpApp σ) (x : HttpExchange σ) : HttpExchange σ :=
  match app.route x.request with
  | some h => callHandler h { x with log := x.log ++ [.handler] }
  | none =>
    match app.httpCallback with
    | some h => callHandler h { x with log := x.log ++ [.fallback] }
    | none =>
      { x with response :=
          (((x.response.setStatusCode .k404NotFound).setStatusMessage (ascii "Not Found")).setContentType
            (ascii "text/plain; charset=utf-8")).setBody (ascii "404 Not Found") }

/-- `handleHttpRequest` up to the point where the response is sent. -/
def respond (app : HttpApp σ) (x : HttpExchange σ) : HttpExchange σ :=
  let x := match app.sessionMgr with
    | some h => callHandler h x
    | none => x
  match runMiddlewares app.middlewares 0 x with
  | (false, x) => x
  | (true, x) => app.routeRequest x

end HttpApp

namespace HttpServer

variable {σ : Type}

def note (e : HttpEvent) (s : HttpConn σ) : HttpConn σ :=
  { s with user := { s.user with log := s.user.log ++ [e] } }

/-- Serialize and send; both exits of `handleHttpRequest` and the 400 answer do this. -/
def sendResponse (resp : HttpResponse) (result : WriteResult) (s : HttpConn σ) : HttpConn σ :=
  (s.sendBuffer .loopThread (resp.appendToBuffer (Buffer.new kInitialSize)) result).1

def handleHttpRequest (app : HttpApp σ) (req : HttpRequest) (result : WriteResult) (s : HttpConn σ) :
    HttpConn σ :=
  let close := decide (req.getHeader (ascii "Connection") = ascii "close")
  let x := app.respond ⟨req, HttpResponse.new close, s.user.app, s.user.log ++ [.dispatched req]⟩
  let s := sendResponse x.response result
    { s with user := { s.user with app := x.app, log := x.log } }
  if x.response.closeConnection then note .closing (s.shutdown .loopThread) else s

/-- The context of the connection, made fresh if it is not an `HttpContext`. -/
def contextOf (s : HttpConn σ) : HttpContext :=
  match s.user.context with
  | .http context => context
  | _ => .new

def setContext (context : HttpContext) (s : HttpConn σ) : HttpConn σ :=
  { s with user := { s.user with context := .http context } }

/-- `onPlainMessage` on the bytes in `buf`; the second component is `buf` afterwards. An
exception of the parser is not caught by anybody. -/
def onPlainMessage (app : HttpApp σ) (buf : Buffer) (ts : Timestamp) (result : WriteResult)
    (s : HttpConn σ) : HttpConn σ × Buffer :=
  let p := (contextOf s).parseRequest buf ts
  let s := setContext p.ctx s
  match p.ret with
  | .error e => (note (.raised e) s, p.buf)
  | .ok false =>
    let resp := ((HttpResponse.new false).setStatusCode .k400BadRequest).setStatusMessage
      (ascii "Bad Request")
    (((note .answered400 (sendResponse resp result s)).shutdown .loopThread), p.buf)
  | .ok true =>
    if p.ctx.gotAll then
      (setContext p.ctx.reset (handleHttpRequest app p.ctx.request result s), p.buf)
    else (s, p.buf)

/-- `onMessage` of a server without TLS. -/
def onMessage (app : HttpApp σ) (ts : Timestamp) (result : WriteResult) (s : HttpConn σ) :
    HttpConn σ :=
  let (s, inputBuffer) := onPlainMessage app s.inputBuffer ts result s
  { s with inputBuffer }

/-- Bytes that arrive in one `handleRead`, with what the kernel takes of the answer. -/
structure Delivery where
  chunk : Bytes
  time : Timestamp
  result : WriteResult

def deliver (app : HttpApp σ) (d : Delivery) (s : HttpConn σ) : HttpConn σ :=
  s.handleRead (.data d.chunk) (onMessage app d.time d.result)

end HttpServer

end MuduoPlus
