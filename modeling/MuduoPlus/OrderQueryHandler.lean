import MuduoPlus.HttpRequest
import MuduoPlus.HttpResponse
import MuduoPlus.Json
import MuduoPlus.OrderCache

namespace MuduoPlus

/-- `database` only says whether the pointer is set. -/
structure QueryHandlerDependencies where
  database : Bool
  cache : Option OrderCache

structure QueryHandlerOptions where
  preferCache : Bool := true
  maxPageSize : UInt64 := 100

structure OrderQueryHandler where
  deps : QueryHandlerDependencies
  options : QueryHandlerOptions
  json : JsonLibrary

namespace OrderQueryHandler

open Program OrderProgram OrderRepository

def extractOrderId (req : HttpRequest) : Option Bytes :=
  let id := req.getQueryParameter (ascii "id")
  if id = [] then none else some id

def extractUserId (req : HttpRequest) : Option Bytes :=
  let uid := req.getQueryParameter (ascii "userId")
  if uid = [] then none else some uid

/-- A number among the query parameters, or `default` where there is none that can be read. -/
def extractNumber (req : HttpRequest) (key : Bytes) (default : UInt64) : UInt64 :=
  let text := req.getQueryParameter key
  if text = [] then default
  else
    match stoul text with
    | .ok n => UInt64.ofNat n
    | .error _ => default

def extractLimit (q : OrderQueryHandler) (req : HttpRequest) : UInt64 :=
  min (extractNumber req (ascii "limit") 20) q.options.maxPageSize

def extractOffset (req : HttpRequest) : UInt64 := extractNumber req (ascii "offset") 0

def respond (q : OrderQueryHandler) (resp : HttpResponse) (code : HttpStatusCode) (j : Json) :
    HttpResponse :=
  ((resp.setStatusCode code).setContentType (ascii "application/json")).setBody (q.json.dump j)

def respondRecord (q : OrderQueryHandler) (r : Record) (resp : HttpResponse) : HttpResponse :=
  q.respond resp .k200Ok (.object [
    (ascii "createdAt", .integer r.createdAt.seconds),
    (ascii "currency", .string r.currency),
    (ascii "orderId", .string r.orderId),
    (ascii "productId", .string r.productId),
    (ascii "quantity", .unsigned r.quantity.toUInt64),
    (ascii "status", .string r.status.toString),
    (ascii "statusReason", .string r.statusReason),
    (ascii "totalAmount", .float r.totalAmount),
    (ascii "updatedAt", .integer r.updatedAt.seconds),
    (ascii "userId", .string r.userId)])

def recordJson (r : Record) : Json :=
  .object [
    (ascii "orderId", .string r.orderId),
    (ascii "productId", .string r.productId),
    (ascii "quantity", .unsigned r.quantity.toUInt64),
    (ascii "status", .string r.status.toString),
    (ascii "totalAmount", .float r.totalAmount)]

def respondRecords (q : OrderQueryHandler) (records : List Record) (resp : HttpResponse) :
    HttpResponse :=
  q.respond resp .k200Ok (.object [
    (ascii "orders", .array (records.map recordJson)),
    (ascii "total", .unsigned (UInt64.ofNat records.length))])

def respondNotFound (q : OrderQueryHandler) (resp : HttpResponse) : HttpResponse :=
  q.respond resp .k404NotFound (.object [(ascii "error", .string (ascii "Record not found"))])

def respondBadRequest (q : OrderQueryHandler) (resp : HttpResponse) (message : Bytes) :
    HttpResponse :=
  q.respond resp .k400BadRequest (.object [(ascii "error", .string message)])

def respondServerError (q : OrderQueryHandler) (resp : HttpResponse) (message : Bytes) :
    HttpResponse :=
  q.respond resp .k500InternalServerError (.object [(ascii "error", .string message)])

def fetchFromCache (q : OrderQueryHandler) (orderId : Bytes) : OrderProgram (Option Record) :=
  match q.deps.cache with
  | some cache => (cache.getOrder orderId).tryCatch fun _ => pure none
  | none => pure none

def fetchFromDatabase (orderId : Bytes) : OrderProgram (Option Record) :=
  (getById orderId).tryCatch fun _ => pure none

def fetchListFromCache (q : OrderQueryHandler) (userId : Bytes) : OrderProgram (List Record) :=
  match q.deps.cache with
  | some cache =>
    Program.tryCatch (do
      let found ← cache.getUserOrders userId
      pure (found.getD [])) fun _ => pure []
  | none => pure []

def fetchListFromDatabase (userId : Bytes) (limit offset : UInt64) : OrderProgram (List Record) :=
  (listByUser userId limit offset).tryCatch fun _ => pure []

/-- A failed `PutOrder` is only logged. -/
def warmupOrderCache (q : OrderQueryHandler) (r : Record) : OrderProgram Unit :=
  match q.deps.cache with
  | some cache => do
    let _ ← cache.putOrder r
    pure ()
  | none => pure ()

/-- A failed `PutUserOrders` is only logged. -/
def warmupUserCache (q : OrderQueryHandler) (userId : Bytes) (records : List Record) :
    OrderProgram Unit :=
  match q.deps.cache with
  | some cache => do
    let _ ← cache.putUserOrders userId records
    pure ()
  | none => pure ()

/-- `handleGetById` when the cache did not have the order. -/
def getFromDatabase (q : OrderQueryHandler) (orderId : Bytes) (resp : HttpResponse) :
    OrderProgram HttpResponse := do
  match ← fetchFromDatabase orderId with
  | none => pure (q.respondNotFound resp)
  | some r => do
    q.warmupOrderCache r
    pure (q.respondRecord r resp)

/-- The answer of `handleGetById` and `handleListByUser` whether they succeeded is only logged. -/
def handleGetById (q : OrderQueryHandler) (req : HttpRequest) (resp : HttpResponse) :
    OrderProgram HttpResponse :=
  match extractOrderId req with
  | none => pure (q.respondBadRequest resp (ascii "Missing order id"))
  | some orderId =>
    if q.options.preferCache && q.deps.cache.isSome then do
      match ← q.fetchFromCache orderId with
      | some r => pure (q.respondRecord r resp)
      | none => q.getFromDatabase orderId resp
    else q.getFromDatabase orderId resp

/-- `handleListByUser` when the cache did not have a list; the list that is answered. -/
def listFromDatabase (q : OrderQueryHandler) (userId : Bytes) (limit offset : UInt64) :
    OrderProgram (List Record) := do
  let records ← fetchListFromDatabase userId limit offset
  if records = [] then pure []
  else do
    q.warmupUserCache userId records
    pure records

/-- The list that `handleListByUser` answers with. -/
def listByUser (q : OrderQueryHandler) (userId : Bytes) (limit offset : UInt64) :
    OrderProgram (List Record) :=
  if q.options.preferCache && q.deps.cache.isSome then do
    let records ← q.fetchListFromCache userId
    if records = [] then q.listFromDatabase userId limit offset else pure records
  else q.listFromDatabase userId limit offset

/-- A list that is empty is answered as not found. -/
def respondList (q : OrderQueryHandler) (records : List Record) (resp : HttpResponse) :
    HttpResponse :=
  if records = [] then q.respondNotFound resp else q.respondRecords records resp

def handleListByUser (q : OrderQueryHandler) (req : HttpRequest) (resp : HttpResponse) :
    OrderProgram HttpResponse :=
  match extractUserId req with
  | none => pure (q.respondBadRequest resp (ascii "Missing userId"))
  | some userId => do
    let records ← q.listByUser userId (q.extractLimit req) (extractOffset req)
    pure (q.respondList records resp)

def handle (q : OrderQueryHandler) (req : HttpRequest) (resp : HttpResponse) :
    OrderProgram HttpResponse :=
  if !q.deps.database then
    pure (q.respondServerError resp (ascii "Database dependency missing"))
  else if (extractOrderId req).isSome then q.handleGetById req resp
  else if (extractUserId req).isSome then q.handleListByUser req resp
  else pure (q.respondBadRequest resp (ascii "Missing query parameter: " ++ ascii "id or userId"))

end OrderQueryHandler

end MuduoPlus
