import MuduoPlus.InputText
import MuduoPlus.OrderBackend

namespace MuduoPlus

structure OrderCacheOptions where
  keyPrefix : Bytes := ascii "order:"
  userIndexPrefix : Bytes := ascii "user_orders:"
  enableUserIndex : Bool := true

/-- `pool`: whether there is a Redis pool. -/
structure OrderCache where
  pool : Bool := true
  options : OrderCacheOptions := {}

namespace OrderCache

open Program InputText OrderRepository OrderProgram

def buildOrderKey (cache : OrderCache) (orderId : Bytes) : Bytes :=
  cache.options.keyPrefix ++ orderId

def buildUserKey (cache : OrderCache) (userId : Bytes) : Bytes :=
  cache.options.userIndexPrefix ++ userId

def serializeOrder (r : Record) : Bytes :=
  joinWith 124 [r.orderId, r.userId, r.productId, decimal r.quantity.toNat, fixedTwo r.totalAmount,
    r.currency, decimal r.status.code.toNat, r.statusReason, r.payloadJson,
    decimalInt r.createdAt.seconds.toInt, decimalInt r.updatedAt.seconds.toInt]

def deserializeOrder (payload : Bytes) : Except StdException Record := do
  let initial : Record := {}
  let (orderId, iss) := getline 124 initial.orderId (ofBytes payload)
  let (userId, iss) := getline 124 initial.userId iss
  let (productId, iss) := getline 124 initial.productId iss
  let (token, iss) := getline 124 [] iss
  let quantity ← stoul token
  let (token, iss) := getline 124 token iss
  let totalAmount ← stod token
  let (currency, iss) := getline 124 initial.currency iss
  let (token, iss) := getline 124 token iss
  let status ← stoi token
  let (statusReason, iss) := getline 124 initial.statusReason iss
  let (payloadJson, iss) := getline 124 initial.payloadJson iss
  let (token, iss) := getline 124 token iss
  let createdAt ← stoll token
  let (token, _) := getline 124 token iss
  let updatedAt ← stoll token
  return {
    orderId, userId, productId, totalAmount, currency, statusReason, payloadJson
    quantity := UInt32.ofNat quantity
    status := OrderStatus.ofCode (UInt8.ofInt status)
    createdAt := TimePoint.ofSeconds (Int64.ofInt createdAt)
    updatedAt := TimePoint.ofSeconds (Int64.ofInt updatedAt) }

def serializeOrderList (records : List Record) : Bytes := joinWith 10 (records.map serializeOrder)

def deserializeOrderList (payload : Bytes) : Except StdException (List Record) :=
  ((getlines 10 payload.length (ofBytes payload)).filter (· ≠ [])).mapM deserializeOrder

/-- `setKey`, with the client that the callers ask the pool for. -/
def setKey (cache : OrderCache) (key value : Bytes) : OrderProgram Bool :=
  if !cache.pool then pure false
  else withClient fun client => if !client then .done false else RedisClient.set key value .done

/-- `getKey`, with the client that the callers ask the pool for. -/
def getKey (cache : OrderCache) (key : Bytes) : OrderProgram (Option Bytes) :=
  if !cache.pool then pure none
  else withClient fun client => if !client then .done none else RedisClient.get key .done

def decodeWith {α : Type} (decode : Bytes → Except StdException α) :
    Option Bytes → OrderProgram (Option α)
  | none => pure none
  | some payload => ofExcept (((decode payload).mapError OrderException.std).map some)

def putOrder (cache : OrderCache) (r : Record) : OrderProgram Bool :=
  cache.setKey (cache.buildOrderKey r.orderId) (serializeOrder r)

def getOrder (cache : OrderCache) (orderId : Bytes) : OrderProgram (Option Record) := do
  decodeWith deserializeOrder (← cache.getKey (cache.buildOrderKey orderId))

def putUserOrders (cache : OrderCache) (userId : Bytes) (records : List Record) :
    OrderProgram Bool :=
  if !cache.options.enableUserIndex then pure false
  else cache.setKey (cache.buildUserKey userId) (serializeOrderList records)

def getUserOrders (cache : OrderCache) (userId : Bytes) : OrderProgram (Option (List Record)) := do
  if !cache.options.enableUserIndex then pure none
  else decodeWith deserializeOrderList (← cache.getKey (cache.buildUserKey userId))

/-- The Redis key of an order. -/
def orderKey (cache : OrderCache) (orderId : Bytes) : Bytes := cString (cache.buildOrderKey orderId)

/-- The Redis key of a user's list. -/
def userKey (cache : OrderCache) (userId : Bytes) : Bytes := cString (cache.buildUserKey userId)

/-- Redis once an order was put into the cache. -/
def cached (cache : OrderCache) (r : Record) (redis : Dict) : Dict :=
  if cache.pool then redis.insert (cache.orderKey r.orderId) (cString (serializeOrder r)) else redis

section Exec

variable {δ : Type} {database : Database δ} {b : Backend δ} {cache : OrderCache}

theorem exec_setKey (hpool : cache.pool = true) (key value : Bytes) :
    (cache.setKey key value).exec database.serve b =
      (.ok true, { b with redis := b.redis.insert (cString key) (cString value) }) := by
  simp only [setKey, hpool, Bool.not_true, Bool.false_eq_true, if_false, exec_withClient]
  rfl

theorem exec_getKey (hpool : cache.pool = true) (key : Bytes) :
    (cache.getKey key).exec database.serve b = (.ok (b.redis.lookup (cString key)), b) := by
  simp only [getKey, hpool, Bool.not_true, Bool.false_eq_true, if_false, exec_withClient]
  rfl

theorem exec_putOrder (cache : OrderCache) (r : Record) :
    (cache.putOrder r).exec database.serve b =
      (.ok cache.pool, { b with redis := cache.cached r b.redis }) := by
  by_cases hpool : cache.pool = true
  · rw [putOrder, exec_setKey hpool, cached, if_pos hpool, hpool]
    rfl
  · simp only [putOrder, setKey, cached, hpool, Bool.not_false, if_true, Bool.false_eq_true,
      if_false, exec_pure]

theorem exec_putUserOrders (hpool : cache.pool = true) (hindex : cache.options.enableUserIndex = true)
    (userId : Bytes) (records : List Record) :
    (cache.putUserOrders userId records).exec database.serve b =
      (.ok true, { b with
        redis := b.redis.insert (cache.userKey userId) (cString (serializeOrderList records)) }) := by
  unfold putUserOrders
  rw [hindex, Bool.not_true, if_neg Bool.false_ne_true, exec_setKey hpool]
  rfl

section UserOrders

variable (hpool : cache.pool = true) (hindex : cache.options.enableUserIndex = true)
  {userId text : Bytes}

include hpool hindex

theorem exec_getUserOrders (userId : Bytes) :
    (cache.getUserOrders userId).exec database.serve b =
      (decodeWith deserializeOrderList (b.redis.lookup (cache.userKey userId))).exec
        database.serve b := by
  unfold getUserOrders
  rw [hindex, Bool.not_true, if_neg Bool.false_ne_true, exec_bind_ok (exec_getKey hpool _)]
  rfl

theorem exec_getUserOrders_miss (hl : b.redis.lookup (cache.userKey userId) = none) :
    (cache.getUserOrders userId).exec database.serve b = (.ok none, b) := by
  rw [exec_getUserOrders hpool hindex, hl]
  rfl

theorem exec_getUserOrders_unreadable {e : StdException}
    (hl : b.redis.lookup (cache.userKey userId) = some text)
    (hd : deserializeOrderList text = .error e) :
    (cache.getUserOrders userId).exec database.serve b = (.error (.std e), b) := by
  rw [exec_getUserOrders hpool hindex, hl, decodeWith, hd]
  rfl

theorem exec_getUserOrders_hit {records : List Record}
    (hl : b.redis.lookup (cache.userKey userId) = some text)
    (hd : deserializeOrderList text = .ok records) :
    (cache.getUserOrders userId).exec database.serve b = (.ok (some records), b) := by
  rw [exec_getUserOrders hpool hindex, hl, decodeWith, hd]
  rfl

end UserOrders

end Exec

section Always

variable {P : OrderCommand → Prop} {cache : OrderCache} {key value : Bytes}

theorem always_setKey (hclient : P .getClient) (hset : P (.redisSet (cString key) (cString value))) :
    (cache.setKey key value).Always P := by
  unfold setKey
  split
  next => trivial
  next =>
    refine ⟨hclient, fun client => ?_⟩
    cases client with
    | false => trivial
    | true => exact ⟨hset, fun _ => trivial⟩

theorem always_getKey (hclient : P .getClient) (hget : P (.redisGet (cString key))) :
    (cache.getKey key).Always P := by
  unfold getKey
  split
  next => trivial
  next =>
    refine ⟨hclient, fun client => ?_⟩
    cases client with
    | false => trivial
    | true => exact ⟨hget, fun _ => trivial⟩

theorem always_decodeWith {α : Type} (decode : Bytes → Except StdException α)
    (payload : Option Bytes) : (decodeWith decode payload).Always P := by
  cases payload with
  | none => trivial
  | some text =>
    unfold decodeWith
    dsimp only
    cases decode text with
    | error e => trivial
    | ok a => trivial

theorem always_getOrder {orderId : Bytes} (hclient : P .getClient)
    (hget : P (.redisGet (cache.orderKey orderId))) : (cache.getOrder orderId).Always P :=
  (always_getKey hclient hget).bind fun payload => always_decodeWith deserializeOrder payload

end Always

end OrderCache

end MuduoPlus
