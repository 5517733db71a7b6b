import MuduoPlus.HttpServer
import MuduoPlus.OrderCacheMiss
import MuduoPlus.OrderCreateRecords
import MuduoPlus.Router

namespace MuduoPlus

structure MySQLConnInfo where
  url : Bytes := []
  user : Bytes := []
  database : Bytes := []
  timeoutSec : Int := 5

def MySQLConnInfo.validate (i : MySQLConnInfo) : Bool :=
  !i.url.isEmpty && !i.user.isEmpty && !i.database.isEmpty && decide (0 < i.timeoutSec)

structure DatabaseOptions where
  connInfo : MySQLConnInfo := {}
  maxConnections : Int := 16
  minConnections : Int := 4

def DatabaseOptions.validate (d : DatabaseOptions) : Bool :=
  d.connInfo.validate && decide (d.minConnections ≤ d.maxConnections)

structure RedisOptions where
  host : Bytes := ascii "127.0.0.1"
  port : Int := 6379
  keyPrefix : Bytes := ascii "order:"

def RedisOptions.validate (r : RedisOptions) : Bool :=
  !r.host.isEmpty && decide (0 < r.port) && decide (r.port < 65536)

structure MQOptions where
  url : Bytes := []
  orderQueue : Bytes := ascii "order.events"
  exchange : Bytes := ascii "order.exchange"

def MQOptions.validate (m : MQOptions) : Bool :=
  !m.url.isEmpty && !m.orderQueue.isEmpty && !m.exchange.isEmpty

structure OrderServerOptions where
  mq : MQOptions := {}
  redis : RedisOptions := {}
  database : DatabaseOptions := {}

/-- `GenerateOrderId` at a time of the clock, in microseconds. -/
def generateOrderId (now : TimePoint) : Bytes := ascii "ORD-" ++ decimalInt (now / 1000).toInt

/-- What `initHandlers` makes. -/
structure OrderHandlers where
  create : OrderCreateHandler
  query : OrderQueryHandler

namespace OrderApplication

open Program OrderRepository

variable {δ : Type}

def orderCache (o : OrderServerOptions) : OrderCache where
  pool := true
  options := {
    keyPrefix := o.redis.keyPrefix ++ ascii "detail:"
    userIndexPrefix := o.redis.keyPrefix ++ ascii "user:" }

def initStorage (o : OrderServerOptions) : Except String OrderCache :=
  if !o.database.validate then .error "Invalid database configuration"
  else if !o.redis.validate then .error "Invalid redis configuration"
  else .ok (orderCache o)

/-- Whether `initMessageQueue` makes a producer. -/
def initMessageQueue (o : OrderServerOptions) : Bool := o.mq.validate

def inventoryService (o : OrderServerOptions) : InventoryService where
  deps := ⟨true, initMessageQueue o, true⟩
  options := {}

def initHandlers (o : OrderServerOptions) (json : JsonLibrary) (cache : OrderCache) :
    OrderHandlers where
  create := {
    deps := ⟨true, some cache, some (inventoryService o), initMessageQueue o⟩
    options := {
      mqExchange := []
      mqRoutingKey := o.mq.orderQueue
      enableCache := true
      enableMqPublish := initMessageQueue o
      requireInventoryReservation := true }
    idGenerator := true
    json }
  query := {
    deps := ⟨true, some cache⟩
    options := { preferCache := true, maxPageSize := ({} : OrderServiceOptions).maxPageSize }
    json }

/-- A handler as the router calls it. The handlers of this server raise nothing. -/
def handlerOf (database : Database δ) (handle : HttpRequest → HttpResponse → OrderProgram HttpResponse) :
    HttpHandler (Backend δ) := fun req resp b =>
  match (handle req resp).exec database.serve b with
  | (.ok answer, b') => (answer, b')
  | (.error _, b') => (resp, b')

def respondJson (code : HttpStatusCode) (body : Bytes) : HttpHandler (Backend δ) := fun _ resp b =>
  (((resp.setStatusCode code).setContentType (ascii "application/json")).setBody body, b)

def healthy : HttpHandler (Backend δ) := respondJson .k200Ok (ascii "\x7b\"status\":\"ok\"\x7d")

def notFound : HttpHandler (Backend δ) :=
  respondJson .k404NotFound (ascii "\x7b\"error\":\"Not Found\"\x7d")

def initRoutes (database : Database δ) (h : OrderHandlers) :
    Router .ecmaScript (HttpHandler (Backend δ)) :=
  ((Router.new.registerCallback .kGet (ascii "/health") healthy).registerHandler .kPost
    (ascii "/orders") (handlerOf database h.create.handle)).registerHandler .kGet (ascii "/orders")
    (handlerOf database h.query.handle)

/-- What `configureHttpServer` and `initRoutes` plug into the server. -/
def plugged (database : Database δ) (h : OrderHandlers) : HttpApp (Backend δ) where
  sessionMgr := none
  middlewares := []
  route req := ((initRoutes database h).route req).map fun call _ resp b =>
    call.target call.request resp b
  httpCallback := some notFound

/-- `start` with a loop, up to the cache's warm-up. -/
def start (o : OrderServerOptions) (json : JsonLibrary) (database : Database δ) :
    Except String (HttpApp (Backend δ)) :=
  (initStorage o).map fun cache => plugged database (initHandlers o json cache)

theorem start_ok {o : OrderServerOptions} {json : JsonLibrary} {database : Database δ}
    {app : HttpApp (Backend δ)} (h : start o json database = .ok app) :
    app = plugged database (initHandlers o json (orderCache o)) := by
  unfold start initStorage at h
  split at h
  next => cases h
  next =>
    split at h
    next => cases h
    next => exact (Except.ok.inj h).symm

end OrderApplication

end MuduoPlus
