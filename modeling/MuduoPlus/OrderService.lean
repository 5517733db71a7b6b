import MuduoPlus.OrderCache

namespace MuduoPlus

/-- `OrderEntity`. Its fields are those of the record (`FromRecord` and `ToRecord` copy them);
`paidAmount_` and `paidAt_` are never read. -/
abbrev OrderEntity := OrderRepository.Record

namespace OrderEntity

open Program

def touch (e : OrderEntity) (ts : TimePoint) : OrderEntity := { e with updatedAt := ts }

def setCreatedAt (e : OrderEntity) (ts : TimePoint) : OrderEntity :=
  { e with createdAt := ts, updatedAt := ts }

def setPayload (e : OrderEntity) (payload : Bytes) : OrderProgram OrderEntity := do
  let now ← ask OrderCommand.now
  pure (touch { e with payloadJson := payload } now)

def setStatus (e : OrderEntity) (status : OrderStatus) (reason : Bytes) :
    OrderProgram OrderEntity := do
  let now ← ask OrderCommand.now
  pure { e with status, statusReason := reason, updatedAt := now }

def markPending (e : OrderEntity) (reason : Bytes) : OrderProgram OrderEntity :=
  setStatus e .kPending reason

def markFailed (e : OrderEntity) (reason : Bytes) : OrderProgram OrderEntity :=
  setStatus e .kFailed reason

end OrderEntity

/-- `database` and `producer` only say whether the pointer is set. -/
structure OrderServiceDependencies where
  database : Bool
  cache : Option OrderCache
  inventory : Option InventoryService
  producer : Bool

structure OrderServiceOptions where
  useCache : Bool := true
  useMessageQueue : Bool := true
  requireInventoryReservation : Bool := true
  maxPageSize : UInt64 := 100

structure OrderService where
  deps : OrderServiceDependencies
  options : OrderServiceOptions

/-- `OrderService::CreateContext`. -/
structure CreateContext where
  entity : OrderEntity
  rawPayload : Bytes
  skipReservation : Bool := false

/-- `OrderService::CreateResult`. -/
structure CreateResult where
  entity : OrderEntity
  reservation : Option Reservation

namespace OrderService

open Program OrderProgram OrderRepository

/-- The cache, where `useCache` is on. -/
def cacheInUse (svc : OrderService) : Option OrderCache :=
  if svc.options.useCache then svc.deps.cache else none

/-- `PutOrder` where there is a cache in use; its answer is not looked at. -/
def putInCache (svc : OrderService) (r : Record) : OrderProgram Unit :=
  match svc.cacheInUse with
  | some cache => do
    let _ ← cache.putOrder r
    pure ()
  | none => pure ()

def eventText (event : Bytes) (e : OrderEntity) (payload : Bytes) : Bytes :=
  ascii "\x7b\"event\":\"" ++ event ++ ascii "\"," ++
  ascii "\"orderId\":\"" ++ e.orderId ++ ascii "\"," ++
  ascii "\"userId\":\"" ++ e.userId ++ ascii "\"," ++
  ascii "\"productId\":\"" ++ e.productId ++ ascii "\"," ++
  ascii "\"status\":\"" ++ decimal e.status.code.toNat ++ ascii "\"" ++
  (if payload = [] then [] else ascii ",\"payload\":\"" ++ payload ++ ascii "\"") ++ ascii "\x7d"

/-- `publishEvent` with the test its callers make. -/
def publishEvent (svc : OrderService) (event : Bytes) (e : OrderEntity) (payload : Bytes) :
    OrderProgram Unit :=
  if svc.options.useMessageQueue && svc.deps.producer then
    ask (OrderCommand.publish ⟨[], ascii "order.events", eventText event e payload⟩)
  else pure ()

def fetchFromCache (svc : OrderService) (orderId : Bytes) : OrderProgram (Option OrderEntity) :=
  match svc.cacheInUse with
  | some cache => cache.getOrder orderId
  | none => pure none

def fetchFromDatabase (svc : OrderService) (orderId : Bytes) : OrderProgram (Option OrderEntity) :=
  if svc.deps.database then getById orderId else pure none

/-- `GetOrderById` when the cache did not have the order. -/
def loadOrder (svc : OrderService) (orderId : Bytes) : OrderProgram (Option OrderEntity) := do
  match ← svc.fetchFromDatabase orderId with
  | some e => do
    svc.putInCache e
    pure (some e)
  | none => pure none

def getOrderById (svc : OrderService) (orderId : Bytes) (preferCache : Bool) :
    OrderProgram (Option OrderEntity) :=
  if preferCache then do
    match ← svc.fetchFromCache orderId with
    | some e => pure (some e)
    | none => svc.loadOrder orderId
  else svc.loadOrder orderId

/-- `ListOrdersByUser` when the cache did not have the list; `limit` is cut to the page size. -/
def loadUserOrders (svc : OrderService) (userId : Bytes) (limit offset : UInt64) :
    OrderProgram (List OrderEntity) :=
  if svc.deps.database then do
    let records ← listByUser userId limit offset
    match svc.cacheInUse with
    | some cache => do
      let _ ← cache.putUserOrders userId records
      pure records
    | none => pure records
  else pure []

def fetchUserOrders (svc : OrderService) (userId : Bytes) :
    OrderProgram (Option (List OrderEntity)) :=
  match svc.cacheInUse with
  | some cache => cache.getUserOrders userId
  | none => pure none

def listOrdersByUser (svc : OrderService) (userId : Bytes) (limit offset : UInt64)
    (preferCache : Bool) : OrderProgram (List OrderEntity) :=
  if limit = 0 then pure []
  else if preferCache then do
    match ← svc.fetchUserOrders userId with
    | some records => pure records
    | none => svc.loadUserOrders userId (min limit svc.options.maxPageSize) offset
  else svc.loadUserOrders userId (min limit svc.options.maxPageSize) offset

/-- `CreateOrder` up to the reservation: the entity as it is going to be stored. -/
def openOrder (ctx : CreateContext) : OrderProgram OrderEntity := do
  let e ← OrderEntity.setPayload ctx.entity ctx.rawPayload
  let now ← ask OrderCommand.now
  OrderEntity.markPending (OrderEntity.setCreatedAt e now) (ascii "order created")

/-- `CreateOrder` with a refused reservation: the order is kept as a failed one. -/
def storeRefused (svc : OrderService) (e : OrderEntity) (error : String) :
    OrderProgram (Except String CreateResult) := do
  let e ← OrderEntity.markFailed e (ascii "inventory reservation failed")
  let _ ← OrderRepository.insert e
  svc.putInCache e
  pure (.error error)

def rollback (svc : OrderService) : Option Reservation → OrderProgram Unit
  | some r =>
    match svc.deps.inventory with
    | some inventory => do
      let _ ← withClient fun client => inventory.releaseReservation client r (ascii "rollback")
      pure ()
    | none => pure ()
  | none => pure ()

/-- `CreateOrder` behind the reservation. -/
def storeOrder (svc : OrderService) (e : OrderEntity) (rawPayload : Bytes)
    (reservation : Option Reservation) : OrderProgram (Except String CreateResult) := do
  let stored ← OrderRepository.insert e
  if stored then do
    svc.putInCache e
    svc.publishEvent (ascii "order.created") e rawPayload
    pure (.ok ⟨e, reservation⟩)
  else do
    svc.rollback reservation
    pure (.error "Failed to insert order record")

/-- The inventory that `CreateOrder` reserves from, if it does. -/
def reservingInventory (svc : OrderService) (ctx : CreateContext) : Option InventoryService :=
  if svc.options.requireInventoryReservation && !ctx.skipReservation then svc.deps.inventory
  else none

/-- `CreateOrder` from the reservation on. -/
def placeOrder (svc : OrderService) (ctx : CreateContext) (e : OrderEntity) :
    OrderProgram (Except String CreateResult) :=
  match svc.reservingInventory ctx with
  | some inventory => do
    match ← withClient fun client => inventory.reserveForOrder client e.toOrderRecord with
    | .error error => svc.storeRefused e error
    | .ok r => svc.storeOrder e ctx.rawPayload (some r)
  | none => svc.storeOrder e ctx.rawPayload none

/-- `error` is what `*errorMessage` is set to. -/
def createOrder (svc : OrderService) (ctx : CreateContext) :
    OrderProgram (Except String CreateResult) :=
  if !svc.deps.database then pure (.error "Missing database dependency")
  else do
    let e ← openOrder ctx
    svc.placeOrder ctx e

def refreshCache (svc : OrderService) (orderId : Bytes) : OrderProgram Unit :=
  match svc.cacheInUse with
  | some cache => do
    match ← getById orderId with
    | some r => do
      let _ ← cache.putOrder r
      pure ()
    | none => pure ()
  | none => pure ()

/-- The event of `UpdateStatus`, of an empty entity when the order is not found. -/
def publishUpdated (svc : OrderService) (orderId reason : Bytes) : OrderProgram Unit :=
  if svc.options.useMessageQueue && svc.deps.producer then do
    let e ← svc.getOrderById orderId true
    svc.publishEvent (ascii "order.status_updated") (e.getD {}) reason
  else pure ()

/-- `UpdateStatus` with the answer of its statement. -/
def statusUpdated (svc : OrderService) (orderId reason : Bytes) : Bool → OrderProgram Bool
  | false => pure false
  | true => do
    svc.refreshCache orderId
    svc.publishUpdated orderId reason
    pure true

def updateStatus (svc : OrderService) (orderId : Bytes) (status : OrderStatus) (reason : Bytes) :
    OrderProgram Bool :=
  if !svc.deps.database then pure false
  else do
    let updated ← OrderRepository.updateStatus orderId status reason
    svc.statusUpdated orderId reason updated

/-- The event of `MarkPaid`. -/
def publishPaid (svc : OrderService) (orderId : Bytes) : OrderProgram Unit :=
  if svc.options.useMessageQueue && svc.deps.producer then do
    match ← svc.getOrderById orderId true with
    | some e => svc.publishEvent (ascii "order.paid") e []
    | none => pure ()
  else pure ()

/-- `MarkPaid` with the answer of its statement. -/
def paymentUpdated (svc : OrderService) (orderId : Bytes) : Bool → OrderProgram Bool
  | false => pure false
  | true => do
    svc.refreshCache orderId
    svc.publishPaid orderId
    pure true

def markPaid (svc : OrderService) (orderId : Bytes) (paidAmount : Float) (paidAt : TimePoint) :
    OrderProgram Bool :=
  if !svc.deps.database then pure false
  else do
    let updated ← OrderRepository.updatePayment orderId paidAmount paidAt
    svc.paymentUpdated orderId updated

/-- The release in `CancelOrder`, of a reservation made from the row; its id stays empty. -/
def releaseCancelled (svc : OrderService) (r : Record) (releaseReservation : Bool) :
    OrderProgram Unit :=
  match svc.deps.inventory with
  | some inventory =>
    if releaseReservation then do
      let _ ← withClient fun client =>
        inventory.releaseReservation client ⟨[], r.orderId, r.productId, r.quantity⟩
          (ascii "order cancelled")
      pure ()
    else pure ()
  | none => pure ()

/-- `CancelOrder` of the order `r` with the answer of its statement. -/
def orderCancelled (svc : OrderService) (orderId reason : Bytes) (releaseReservation : Bool)
    (r : Record) : Bool → OrderProgram Bool
  | false => pure false
  | true => do
    svc.releaseCancelled r releaseReservation
    svc.refreshCache orderId
    svc.publishEvent (ascii "order.cancelled") r reason
    pure true

def cancelOrder (svc : OrderService) (orderId reason : Bytes) (releaseReservation : Bool) :
    OrderProgram Bool :=
  if !svc.deps.database then pure false
  else do
    match ← getById orderId with
    | none => pure false
    | some r => do
      let updated ← OrderRepository.updateStatus orderId .kCancelled reason
      svc.orderCancelled orderId reason releaseReservation r updated

/-- `P` has the commands that read, publish, or put an order into the cache in use. -/
structure Admits (svc : OrderService) (P : OrderCommand → Prop) : Prop where
  client : P .getClient
  get : ∀ key, P (.redisGet key)
  query : ∀ statement, P (.submitQuery statement)
  publish : ∀ message, P (.publish message)
  put : ∀ cache, svc.cacheInUse = some cache → ∀ r : Record,
    P (.redisSet (cache.orderKey r.orderId) (cString (OrderCache.serializeOrder r)))

theorem admits_spares {svc : OrderService} {keys : Bytes → Prop}
    (h : ∀ cache, svc.cacheInUse = some cache → ∀ orderId, ¬keys (cache.orderKey orderId)) :
    svc.Admits (OrderCommand.Spares keys) where
  client := trivial
  get _ := trivial
  query _ := trivial
  publish _ := trivial
  put cache hcache r := h cache hcache r.orderId

section Always

variable {svc : OrderService} {P : OrderCommand → Prop} (h : svc.Admits P)

include h

theorem always_getById (orderId : Bytes) : (getById orderId).Always P := by
  refine Always.bind (Always.bind (always_ask (h.query _)) fun answer => ?_) fun _ => trivial
  cases answer with
  | error e => trivial
  | ok rows => trivial

theorem always_putInCache (r : Record) : (svc.putInCache r).Always P := by
  unfold putInCache
  split
  next cache hcache =>
    exact (OrderCache.always_setKey h.client (h.put cache hcache r)).bind fun _ => trivial
  next => trivial

theorem always_publishEvent (event : Bytes) (e : OrderEntity) (payload : Bytes) :
    (svc.publishEvent event e payload).Always P := by
  unfold publishEvent
  split
  next => exact always_ask (h.publish _)
  next => trivial

theorem always_fetchFromCache (orderId : Bytes) : (svc.fetchFromCache orderId).Always P := by
  unfold fetchFromCache
  split
  next => exact OrderCache.always_getOrder h.client (h.get _)
  next => trivial

theorem always_loadOrder (orderId : Bytes) : (svc.loadOrder orderId).Always P := by
  have hfetch : (svc.fetchFromDatabase orderId).Always P := by
    unfold fetchFromDatabase
    split
    next => exact always_getById h orderId
    next => trivial
  refine hfetch.bind fun found => ?_
  cases found with
  | none => trivial
  | some e => exact (always_putInCache h e).bind fun _ => trivial

theorem always_getOrderById (orderId : Bytes) (preferCache : Bool) :
    (svc.getOrderById orderId preferCache).Always P := by
  unfold getOrderById
  split
  next =>
    refine (always_fetchFromCache h orderId).bind fun cached => ?_
    cases cached with
    | none => exact always_loadOrder h orderId
    | some e => trivial
  next => exact always_loadOrder h orderId

theorem always_refreshCache (orderId : Bytes) : (svc.refreshCache orderId).Always P := by
  unfold refreshCache
  split
  next cache hcache =>
    refine (always_getById h orderId).bind fun found => ?_
    cases found with
    | none => trivial
    | some r =>
      exact (OrderCache.always_setKey h.client (h.put cache hcache r)).bind fun _ => trivial
  next => trivial

theorem always_publishUpdated (orderId reason : Bytes) :
    (svc.publishUpdated orderId reason).Always P := by
  unfold publishUpdated
  split
  next =>
    exact (always_getOrderById h orderId true).bind fun e => always_publishEvent h _ _ _
  next => trivial

theorem always_publishPaid (orderId : Bytes) : (svc.publishPaid orderId).Always P := by
  unfold publishPaid
  split
  next =>
    refine (always_getOrderById h orderId true).bind fun found => ?_
    cases found with
    | none => trivial
    | some e => exact always_publishEvent h _ _ _
  next => trivial

theorem always_statusUpdated (orderId reason : Bytes) (updated : Bool) :
    (svc.statusUpdated orderId reason updated).Always P := by
  cases updated with
  | false => trivial
  | true =>
    exact (always_refreshCache h orderId).bind fun _ =>
      (always_publishUpdated h orderId reason).bind fun _ => trivial

theorem always_paymentUpdated (orderId : Bytes) (updated : Bool) :
    (svc.paymentUpdated orderId updated).Always P := by
  cases updated with
  | false => trivial
  | true =>
    exact (always_refreshCache h orderId).bind fun _ =>
      (always_publishPaid h orderId).bind fun _ => trivial

end Always

end OrderService

end MuduoPlus
