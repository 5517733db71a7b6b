import MuduoPlus.HttpRequest
import MuduoPlus.HttpResponse
import MuduoPlus.Json
import MuduoPlus.OrderCache

namespace MuduoPlus

/-- `database` and `producer` only say whether the pointer is set. -/
structure CreateHandlerDependencies where
  database : Bool
  cache : Option OrderCache
  inventory : Option InventoryService
  producer : Bool

structure CreateHandlerOptions where
  mqExchange : Bytes := []
  mqRoutingKey : Bytes := ascii "order.events"
  enableCache : Bool := true
  enableMqPublish : Bool := true
  requireInventoryReservation : Bool := true

/-- `idGenerator`: whether one was set. -/
structure OrderCreateHandler where
  deps : CreateHandlerDependencies
  options : CreateHandlerOptions
  idGenerator : Bool
  json : JsonLibrary

namespace OrderCreateHandler

open Program OrderProgram OrderRepository

def respondError (h : OrderCreateHandler) (resp : HttpResponse) (code : HttpStatusCode)
    (message : Bytes) : HttpResponse :=
  ((resp.setStatusCode code).setContentType (ascii "application/json")).setBody
    (h.json.dump (.object [(ascii "error", .string message)]))

def respondSuccess (h : OrderCreateHandler) (record : Record) (resp : HttpResponse) :
    HttpResponse :=
  ((resp.setStatusCode .k200Ok).setContentType (ascii "application/json")).setBody
    (h.json.dump (.object [
      (ascii "message", .string (ascii "order created successfully")),
      (ascii "orderId", .string record.orderId),
      (ascii "status", .string record.status.toString)]))

def ensureDependencies (h : OrderCreateHandler) (resp : HttpResponse) : Except HttpResponse Unit :=
  if !h.deps.database || h.deps.inventory.isNone then
    .error (h.respondError resp .k500InternalServerError
      (ascii "Internal dependency missing " ++ ascii "(database/inventory)"))
  else .ok ()

/-- The record that `parseRequest` fills in; `none` where an accessor raises. -/
def recordOf (j : Json) (body : Bytes) : Option Record := do
  let userId ← j.value Json.getString (ascii "userId") []
  let productId ← j.value Json.getString (ascii "productId") []
  let quantity ← j.value Json.getUnsigned (ascii "quantity") 1
  let totalAmount ← j.value Json.getDouble (ascii "amount") 0.0
  let currency ← j.value Json.getString (ascii "currency") (ascii "CNY")
  return { userId, productId, quantity, totalAmount, currency, payloadJson := body }

def parseRequest (h : OrderCreateHandler) (req : HttpRequest) (resp : HttpResponse) :
    Except HttpResponse Record :=
  match h.json.parse req.content with
  | none => .error (h.respondError resp .k400BadRequest (ascii "Invalid JSON payload"))
  | some j =>
    match recordOf j req.content with
    | none => .error (h.respondError resp .k400BadRequest (ascii "Malformed request body"))
    | some record => .ok record

def validateRecord (h : OrderCreateHandler) (record : Record) (resp : HttpResponse) :
    Except HttpResponse Unit :=
  if record.userId = [] ∨ record.productId = [] then
    .error (h.respondError resp .k400BadRequest (ascii "Missing userId or productId"))
  else if record.quantity = 0 ∨ record.totalAmount ≤ 0.0 then
    .error (h.respondError resp .k400BadRequest (ascii "Invalid quantity or amount"))
  else .ok ()

def reserveInventory (h : OrderCreateHandler) (record : Record) (resp : HttpResponse) :
    OrderProgram (Except HttpResponse Unit) :=
  match h.deps.inventory with
  | none =>
    pure (.error (h.respondError resp .k500InternalServerError (ascii "Inventory unavailable")))
  | some inventory => do
    match ← withClient fun client => inventory.reserveForOrder client record.toOrderRecord with
    | .ok _ => pure (.ok ())
    | .error _ =>
      pure (.error (h.respondError resp .k503ServiceUnavailable
        (ascii "Inventory not enough or " ++ ascii "temporarily unavailable")))

def newOrderId (h : OrderCreateHandler) : OrderProgram Bytes :=
  if h.idGenerator then ask OrderCommand.generateId
  else do
    let time ← ask OrderCommand.now
    pure (ascii "ORD-" ++ decimalInt (time : TimePoint).toInt)

/-- What `persistOrder` adds to the parsed record. -/
def stamp (record : Record) (rawPayload orderId : Bytes) (time : TimePoint) : Record :=
  { record with
    orderId, createdAt := time, updatedAt := time, status := .kPending, payloadJson := rawPayload }

/-- The reservation that `persistOrder` builds to release; its id stays empty. -/
def reservationToRelease (record : Record) : Reservation :=
  ⟨[], record.orderId, record.productId, record.quantity⟩

def releaseInventory (h : OrderCreateHandler) (record : Record) : OrderProgram Unit :=
  match h.deps.inventory with
  | some inventory =>
    if h.options.requireInventoryReservation then do
      let _ ← withClient fun client =>
        inventory.releaseReservation client (reservationToRelease record) (ascii "DB insert failed")
      pure ()
    else pure ()
  | none => pure ()

/-- The body of the `try` in `persistOrder`. -/
def storeOrder (h : OrderCreateHandler) (record : Record) (rawPayload : Bytes)
    (resp : HttpResponse) : OrderProgram (Except HttpResponse Record) := do
  let orderId ← h.newOrderId
  let time ← ask OrderCommand.now
  let record := stamp record rawPayload orderId time
  let stored ← OrderRepository.insert record
  if stored then pure (.ok record)
  else do
    h.releaseInventory record
    pure (.error (h.respondError resp .k500InternalServerError (ascii "Failed to persist order")))

def persistOrder (h : OrderCreateHandler) (record : Record) (rawPayload : Bytes)
    (resp : HttpResponse) : OrderProgram (Except HttpResponse Record) :=
  (h.storeOrder record rawPayload resp).tryCatch fun _ =>
    pure (.error (h.respondError resp .k500InternalServerError (ascii "Unexpected server error")))

/-- A failed `PutOrder` is only logged. -/
def updateCache (h : OrderCreateHandler) (record : Record) : OrderProgram Unit :=
  match h.deps.cache with
  | some cache =>
    if h.options.enableCache then do
      let _ ← cache.putOrder record
      pure ()
    else pure ()
  | none => pure ()

def publishOrderEvent (h : OrderCreateHandler) (rawPayload : Bytes) : OrderProgram Unit :=
  if h.options.enableMqPublish && h.deps.producer then
    ask (OrderCommand.publish ⟨h.options.mqExchange, h.options.mqRoutingKey, rawPayload⟩)
  else pure ()

/-- `handle` up to the checked record. -/
def acceptRequest (h : OrderCreateHandler) (req : HttpRequest) (resp : HttpResponse) :
    Except HttpResponse Record := do
  h.ensureDependencies resp
  let record ← h.parseRequest req resp
  h.validateRecord record resp
  return record

/-- `handle` from the checked record to the stored order. -/
def placeOrder (h : OrderCreateHandler) (record : Record) (rawPayload : Bytes)
    (resp : HttpResponse) : OrderProgram (Except HttpResponse Record) :=
  if h.options.requireInventoryReservation then do
    match ← h.reserveInventory record resp with
    | .error resp => pure (.error resp)
    | .ok () => h.persistOrder record rawPayload resp
  else h.persistOrder record rawPayload resp

/-- `handle` with the stored order. -/
def finishOrder (h : OrderCreateHandler) (record : Record) (rawPayload : Bytes)
    (resp : HttpResponse) : OrderProgram HttpResponse := do
  h.updateCache record
  h.publishOrderEvent rawPayload
  pure (h.respondSuccess record resp)

def handle (h : OrderCreateHandler) (req : HttpRequest) (resp : HttpResponse) :
    OrderProgram HttpResponse :=
  match h.acceptRequest req resp with
  | .error resp => pure resp
  | .ok record => do
    match ← h.placeOrder record req.content resp with
    | .error resp => pure resp
    | .ok record => h.finishOrder record req.content resp

end OrderCreateHandler

end MuduoPlus
