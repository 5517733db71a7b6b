import MuduoPlus.ByteText
import MuduoPlus.StoreProgram

namespace MuduoPlus

/-- What is read of an `OrderRecord` here. -/
structure OrderRecord where
  orderId : Bytes
  productId : Bytes
  quantity : UInt32
  deriving DecidableEq, Repr

/-- `InventoryService::Reservation`; `expiresAt` is only written and is left out. -/
structure Reservation where
  reservationId : Bytes
  orderId : Bytes
  productId : Bytes
  quantity : UInt32
  deriving DecidableEq, Repr

/-- A message given to `MQProducer::publish`. -/
structure MqMessage where
  exchange : Bytes
  routingKey : Bytes
  message : Bytes
  deriving DecidableEq, Repr

/-- Which of the pointers in `Dependencies` are set. -/
structure InventoryDependencies where
  redis : Bool
  producer : Bool
  orders : Bool
  deriving DecidableEq, Repr

structure InventoryOptions where
  stockKeyPrefix : Bytes := ascii "inventory:stock:"
  reservationKeyPrefix : Bytes := ascii "inventory:reservation:"
  publishEvents : Bool := true
  eventExchange : Bytes := []
  reservationRoutingKey : Bytes := ascii "inventory.reservation"

structure InventoryService where
  deps : InventoryDependencies
  options : InventoryOptions

abbrev RedisProgram (α : Type) := StoreProgram Bytes Bytes MqMessage α

/-- What `%s` of `redisCommand` takes of a string: up to its first NUL. -/
def cString (s : Bytes) : Bytes := s.takeWhile (· ≠ 0)

namespace RedisClient

variable {α : Type}

def get (key : Bytes) (next : Option Bytes → RedisProgram α) : RedisProgram α :=
  .get (cString key) next

def set (key value : Bytes) (next : Bool → RedisProgram α) : RedisProgram α :=
  .set (cString key) (cString value) next

def del (key : Bytes) (next : Bool → RedisProgram α) : RedisProgram α := .del (cString key) next

end RedisClient

namespace InventoryService

variable {α : Type}

def makeStockKey (svc : InventoryService) (productId : Bytes) : Bytes :=
  svc.options.stockKeyPrefix ++ productId

def makeReservationKey (svc : InventoryService) (reservationId : Bytes) : Bytes :=
  svc.options.reservationKeyPrefix ++ reservationId

def makeReservationId (order : OrderRecord) : Bytes :=
  order.orderId ++ ascii ":" ++ order.productId

def reservationOf (order : OrderRecord) : Reservation :=
  ⟨makeReservationId order, order.orderId, order.productId, order.quantity⟩

/-- `PublishReservationEvent` with the test its callers make. -/
def publishReservationEvent (svc : InventoryService) (reservation : Reservation)
    (eventType : Bytes) (next : RedisProgram α) : RedisProgram α :=
  if svc.options.publishEvents && svc.deps.producer then
    .emit ⟨svc.options.eventExchange, svc.options.reservationRoutingKey,
      ascii "\x7b\"reservationId\":\"" ++ reservation.reservationId ++ ascii "\"," ++
      ascii "\"orderId\":\"" ++ reservation.orderId ++ ascii "\"," ++
      ascii "\"productId\":\"" ++ reservation.productId ++ ascii "\"," ++
      ascii "\"quantity\":" ++ decimal reservation.quantity.toNat ++ ascii "," ++
      ascii "\"eventType\":\"" ++ eventType ++ ascii "\"\x7d"⟩ next
  else next

/-- The text `cacheReservation` stores. -/
def reservationText (reservation : Reservation) : Bytes :=
  reservation.orderId ++ ascii "," ++ reservation.productId ++ ascii "," ++
    decimal reservation.quantity.toNat ++ ascii ","

def cacheReservation (svc : InventoryService) (reservation : Reservation)
    (next : Bool → RedisProgram α) : RedisProgram α :=
  RedisClient.set (svc.makeReservationKey reservation.reservationId) (reservationText reservation) next

def deleteReservation (svc : InventoryService) (reservationId : Bytes)
    (next : Bool → RedisProgram α) : RedisProgram α :=
  RedisClient.del (svc.makeReservationKey reservationId) next

/-- `ReserveForOrder` after the reservation record was stored (or not). -/
def reserveCached (svc : InventoryService) (order : OrderRecord) :
    Bool → RedisProgram (Except String Reservation)
  | false => .done (.error "Failed to cache reservation")
  | true =>
    svc.publishReservationEvent (reservationOf order) (ascii "created")
      (.done (.ok (reservationOf order)))

/-- `ReserveForOrder` after the new stock was stored (or not). -/
def reserveUpdated (svc : InventoryService) (order : OrderRecord) :
    Bool → RedisProgram (Except String Reservation)
  | false => .done (.error "Failed to update stock")
  | true => svc.cacheReservation (reservationOf order) (svc.reserveCached order)

/-- `ReserveForOrder` with the answer to its `GET`. -/
def reserveWithStock (svc : InventoryService) (order : OrderRecord) :
    Option Bytes → RedisProgram (Except String Reservation)
  | none => .done (.error "Failed to read stock from Redis")
  | some stockStr =>
    match stoul stockStr with
    | .error _ => .done (.error "Invalid stock value format")
    | .ok stockValue =>
      if stockValue < order.quantity.toNat then .done (.error "Insufficient stock")
      else
        RedisClient.set (svc.makeStockKey order.productId)
          (decimal (stockValue - order.quantity.toNat)) (svc.reserveUpdated order)

/-- `client`: whether the pool gave a connected client. -/
def reserveForOrder (svc : InventoryService) (client : Bool) (order : OrderRecord) :
    RedisProgram (Except String Reservation) :=
  if !svc.deps.redis || !svc.deps.orders then .done (.error "Missing dependencies")
  else if !client then .done (.error "Failed to acquire Redis client")
  else RedisClient.get (svc.makeStockKey order.productId) (svc.reserveWithStock order)

/-- `incrementStock` with the answer to its `GET`; the sum is a `uint64_t`. -/
def incrementWithStock (svc : InventoryService) (productId : Bytes) (quantity : UInt32)
    (next : Bool → RedisProgram α) : Option Bytes → RedisProgram α
  | none => next false
  | some val =>
    match stoul val with
    | .error _ => next false
    | .ok stock =>
      RedisClient.set (svc.makeStockKey productId) (decimal ((stock + quantity.toNat) % 2 ^ 64)) next

def incrementStock (svc : InventoryService) (productId : Bytes) (quantity : UInt32)
    (next : Bool → RedisProgram α) : RedisProgram α :=
  RedisClient.get (svc.makeStockKey productId) (svc.incrementWithStock productId quantity next)

/-- `ReleaseReservation` after `incrementStock`; the answer to the `DEL` is not looked at. -/
def releaseRestored (svc : InventoryService) (reservation : Reservation) (reason : Bytes) :
    Bool → RedisProgram (Except String Unit)
  | false => .done (.error "Failed to restore stock")
  | true =>
    svc.deleteReservation reservation.reservationId fun _ =>
      svc.publishReservationEvent reservation (ascii "released:" ++ reason) (.done (.ok ()))

def releaseReservation (svc : InventoryService) (client : Bool) (reservation : Reservation)
    (reason : Bytes) : RedisProgram (Except String Unit) :=
  if !svc.deps.redis then .done (.error "Missing Redis dependency")
  else if !client then .done (.error "Failed to acquire Redis client")
  else
    svc.incrementStock reservation.productId reservation.quantity
      (svc.releaseRestored reservation reason)

/-- `CommitReservation` after its `DEL`, which counts the deleted keys. -/
def commitDeleted (svc : InventoryService) (reservation : Reservation) :
    Bool → RedisProgram (Except String Unit)
  | false => .done (.error "Failed to delete reservation cache")
  | true => svc.publishReservationEvent reservation (ascii "committed") (.done (.ok ()))

def commitReservation (svc : InventoryService) (client : Bool) (reservation : Reservation) :
    RedisProgram (Except String Unit) :=
  if !svc.deps.redis then .done (.error "Missing Redis dependency")
  else if !client then .done (.error "Failed to acquire Redis client")
  else svc.deleteReservation reservation.reservationId (svc.commitDeleted reservation)

def setStock (svc : InventoryService) (client : Bool) (productId : Bytes) (amount : UInt64) :
    RedisProgram Bool :=
  if !svc.deps.redis then .done false
  else if !client then .done false
  else RedisClient.set (svc.makeStockKey productId) (decimal amount.toNat) .done

/-- `QueryStock` with the answer to its `GET`. -/
def queryWithStock : Option Bytes → RedisProgram (Option Nat)
  | none => .done none
  | some value => .done (stoul value).toOption

def queryStock (svc : InventoryService) (client : Bool) (productId : Bytes) :
    RedisProgram (Option Nat) :=
  if !svc.deps.redis then .done none
  else if !client then .done none
  else RedisClient.get (svc.makeStockKey productId) queryWithStock

end InventoryService

end MuduoPlus
