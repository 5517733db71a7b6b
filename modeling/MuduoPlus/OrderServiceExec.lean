import MuduoPlus.InventoryRace
import MuduoPlus.OrderColumns
import MuduoPlus.OrderService

namespace MuduoPlus

/-- The strings of the order that `CreateOrder` stores are plain; the reason is its own. -/
def CreateContext.Plain (charset : Charset) (ctx : CreateContext) : Prop :=
  (OrderRepository.Statement.insert
    { ctx.entity with payloadJson := ctx.rawPayload, statusReason := [] }).Plain charset

instance (charset : Charset) (ctx : CreateContext) : Decidable (ctx.Plain charset) := by
  unfold CreateContext.Plain
  infer_instance

namespace OrderService

open Program OrderProgram OrderRepository

variable {svc : OrderService} {δ : Type} {database : Database δ} {b : Backend δ}
  {ctx : CreateContext}

/-- The service with its database and a cache in use, each with the default keys. -/
structure CachesOrders (svc : OrderService) (cache : OrderCache) : Prop where
  database : svc.deps.database = true
  inUse : svc.cacheInUse = some cache
  pool : cache.pool = true
  orderPrefix : cache.options.keyPrefix = ascii "order:"
  inventory : ∀ inv, svc.deps.inventory = some inv → inv.DefaultPrefixes

/-- Redis once the service has put an order into the cache in use. -/
def cachedBy (svc : OrderService) (r : Record) (redis : Dict) : Dict :=
  match svc.cacheInUse with
  | some cache => cache.cached r redis
  | none => redis

/-- Redis after `RefreshCache`. -/
def refreshed (svc : OrderService) (orderId : Bytes) (t : OrderTable) (redis : Dict) : Dict :=
  match t.find? fun row => row.orderId = orderId with
  | some row => svc.cachedBy (parseSingle row) redis
  | none => redis

/-- The entity that `CreateOrder` goes on with. -/
def opened (ctx : CreateContext) (b : Backend δ) : OrderEntity :=
  { ctx.entity with
    payloadJson := ctx.rawPayload
    status := .kPending
    statusReason := ascii "order created"
    createdAt := b.clock (b.ticks + 1)
    updatedAt := b.clock (b.ticks + 2) }

/-- The failed order that is kept of a refused one. -/
def failed (e : OrderEntity) (b : Backend δ) : OrderEntity :=
  { e with
    status := .kFailed
    statusReason := ascii "inventory reservation failed"
    updatedAt := b.clock b.ticks }

/-- The order as `CreateOrder` stores it, pending or failed. -/
theorem plain_insert {charset : Charset} (h : ctx.Plain charset) {reason : Bytes}
    (hreason : reason ∈ [ascii "order created", ascii "inventory reservation failed"])
    (status : OrderStatus) (createdAt updatedAt : TimePoint) :
    (Statement.insert { ctx.entity with
      payloadJson := ctx.rawPayload, status, statusReason := reason, createdAt,
      updatedAt }).Plain charset := by
  have hown : ∀ reason ∈ [ascii "order created", ascii "inventory reservation failed"],
      (∀ b ∈ reason, b < 128 ∧ b ≠ 39 ∧ b ≠ 92) ∧ reason.length ≤ 255 := by
    decide +kernel
  obtain ⟨hbytes, hlength⟩ := hown reason hreason
  exact Statement.Plain.insert h hbytes hlength status createdAt updatedAt

theorem lookup_cachedBy {key : Bytes}
    (hk : ∀ cache, svc.cacheInUse = some cache → ∀ orderId, key ≠ cache.orderKey orderId)
    (r : Record) (redis : Dict) : (svc.cachedBy r redis).lookup key = redis.lookup key := by
  unfold cachedBy
  split
  next cache hcache =>
    unfold OrderCache.cached
    split
    next => exact Finmap.lookup_insert_of_ne redis (hk cache hcache r.orderId)
    next => rfl
  next => rfl

theorem lookup_refreshed {key : Bytes}
    (hk : ∀ cache, svc.cacheInUse = some cache → ∀ orderId, key ≠ cache.orderKey orderId)
    (orderId : Bytes) (t : OrderTable) (redis : Dict) :
    (svc.refreshed orderId t redis).lookup key = redis.lookup key := by
  unfold refreshed
  split
  next => exact lookup_cachedBy hk _ _
  next => rfl

theorem exec_putInCache (r : Record) :
    (svc.putInCache r).exec database.serve b =
      (.ok (), { b with redis := svc.cachedBy r b.redis }) := by
  unfold putInCache cachedBy
  cases svc.cacheInUse with
  | none => rfl
  | some cache =>
    dsimp only
    rw [exec_bind_ok (OrderCache.exec_putOrder cache r), exec_pure]

theorem exec_publishEvent (event : Bytes) (e : OrderEntity) (payload : Bytes) :
    (svc.publishEvent event e payload).exec database.serve b = (.ok (), b) := by
  unfold publishEvent
  split
  next => rfl
  next => rfl

theorem exec_placeOrder_unreserved (hres : svc.reservingInventory ctx = none) (e : OrderEntity) :
    (svc.placeOrder ctx e).exec database.serve b =
      (svc.storeOrder e ctx.rawPayload none).exec database.serve b := by
  unfold placeOrder
  rw [hres]

theorem exec_placeOrder_granted {inv : InventoryService} {e : OrderEntity} {r : Reservation}
    {redis : Dict} (hres : svc.reservingInventory ctx = some inv)
    (hg : (inv.reserveForOrder true e.toOrderRecord).exec b.redis = (.ok r, redis)) :
    (svc.placeOrder ctx e).exec database.serve b =
      (svc.storeOrder e ctx.rawPayload (some r)).exec database.serve { b with redis } := by
  unfold placeOrder
  rw [hres]
  dsimp only
  rw [exec_bind_ok (exec_withClient _ b), hg]

theorem exec_placeOrder_refused {inv : InventoryService} {e : OrderEntity} {error : String}
    (hres : svc.reservingInventory ctx = some inv)
    (hg : (inv.reserveForOrder true e.toOrderRecord).exec b.redis = (.error error, b.redis)) :
    (svc.placeOrder ctx e).exec database.serve b =
      (svc.storeRefused e error).exec database.serve b := by
  unfold placeOrder
  rw [hres]
  dsimp only
  rw [exec_bind_ok (exec_withClient _ b), hg]

/-- An order that is stored and put into the cache. -/
def stored (svc : OrderService) (database : Database δ) (e : OrderEntity) (b : Backend δ) :
    Backend δ :=
  { b with
    db := (database.update (.insert e) b.db).2
    redis := svc.cachedBy e b.redis }

/-- The end of `CreateOrder` when `Insert` reports a row. -/
theorem exec_storeOrder_stored {e : OrderEntity} {n : Nat} (hn : 0 < n)
    (hi : (database.update (.insert e) b.db).1 = .ok n) (rawPayload : Bytes)
    (reservation : Option Reservation) :
    (svc.storeOrder e rawPayload reservation).exec database.serve b =
      (.ok (.ok ⟨e, reservation⟩), svc.stored database e b) := by
  have hinsert : (OrderRepository.insert e).exec database.serve b =
      (.ok true, { b with db := (database.update (.insert e) b.db).2 }) := by
    rw [exec_insert, hi, Except.map, decide_eq_true hn]
  unfold storeOrder
  rw [exec_bind_ok hinsert, if_pos rfl, exec_bind_ok (exec_putInCache e),
    exec_bind_ok (exec_publishEvent _ e rawPayload), exec_pure]
  rfl

/-- Redis once a reservation was rolled back. -/
def rolledBack (svc : OrderService) (reservation : Option Reservation) (redis : Dict) : Dict :=
  match reservation, svc.deps.inventory with
  | some r, some inventory => ((inventory.releaseReservation true r (ascii "rollback")).exec redis).2
  | _, _ => redis

theorem exec_rollback (reservation : Option Reservation) :
    (svc.rollback reservation).exec database.serve b =
      (.ok (), { b with redis := svc.rolledBack reservation b.redis }) := by
  unfold rollback rolledBack
  cases reservation with
  | none => rfl
  | some r =>
    cases svc.deps.inventory with
    | none => rfl
    | some inventory =>
      dsimp only
      rw [exec_bind_ok (exec_withClient _ b), exec_pure]

/-- The end of `CreateOrder` when `Insert` reports none. -/
theorem exec_storeOrder_failed {e : OrderEntity}
    (hi : (database.update (.insert e) b.db).1 = .ok 0) (rawPayload : Bytes)
    (reservation : Option Reservation) :
    (svc.storeOrder e rawPayload reservation).exec database.serve b =
      (.ok (.error "Failed to insert order record"),
        { b with
          db := (database.update (.insert e) b.db).2
          redis := svc.rolledBack reservation b.redis }) := by
  have hinsert : (OrderRepository.insert e).exec database.serve b =
      (.ok false, { b with db := (database.update (.insert e) b.db).2 }) := by
    rw [exec_insert, hi]
    rfl
  unfold storeOrder
  rw [exec_bind_ok hinsert, if_neg Bool.false_ne_true, exec_bind_ok (exec_rollback reservation),
    exec_pure]

theorem exec_openOrder :
    (openOrder ctx).exec database.serve b = (.ok (opened ctx b), { b with ticks := b.ticks + 3 }) :=
  rfl

/-- `CreateOrder` with a refused reservation, whatever the database reports. -/
theorem exec_storeRefused {e : OrderEntity} {n : Nat}
    (hi : (database.update (.insert (failed e b)) b.db).1 = .ok n) (error : String) :
    (svc.storeRefused e error).exec database.serve b =
      (.ok (.error error), svc.stored database (failed e b) { b with ticks := b.ticks + 1 }) := by
  have hmark : (OrderEntity.markFailed e (ascii "inventory reservation failed")).exec
      database.serve b = (.ok (failed e b), { b with ticks := b.ticks + 1 }) := rfl
  have hinsert : (OrderRepository.insert (failed e b)).exec database.serve
      { b with ticks := b.ticks + 1 } =
        (.ok (decide (0 < n)), { b with
          ticks := b.ticks + 1
          db := (database.update (.insert (failed e b)) b.db).2 }) := by
    rw [exec_insert, hi]
    rfl
  unfold storeRefused
  rw [exec_bind_ok hmark, exec_bind_ok hinsert, exec_bind_ok (exec_putInCache _), exec_pure]
  rfl

theorem inventory_of_reserving {inv : InventoryService}
    (hres : svc.reservingInventory ctx = some inv) : svc.deps.inventory = some inv := by
  unfold reservingInventory at hres
  split at hres
  next => exact hres
  next => cases hres

theorem exec_createOrder (hdb : svc.deps.database = true) :
    (svc.createOrder ctx).exec database.serve b =
      (svc.placeOrder ctx (opened ctx b)).exec database.serve { b with ticks := b.ticks + 3 } := by
  unfold createOrder
  rw [hdb, Bool.not_true, if_neg Bool.false_ne_true, exec_bind_ok exec_openOrder]

/-- The failed order that `CreateOrder` keeps when the reservation is refused. -/
def refusedOrder (ctx : CreateContext) (b : Backend δ) : OrderEntity :=
  failed (opened ctx b) { b with ticks := b.ticks + 3 }

section Create

variable {n : Nat} (hdb : svc.deps.database = true)

include hdb

theorem createOrder_unreserved (hres : svc.reservingInventory ctx = none) (hn : 0 < n)
    (hi : (database.update (.insert (opened ctx b)) b.db).1 = .ok n) :
    (svc.createOrder ctx).exec database.serve b =
      (.ok (.ok ⟨opened ctx b, none⟩),
        svc.stored database (opened ctx b) { b with ticks := b.ticks + 3 }) := by
  rw [exec_createOrder hdb, exec_placeOrder_unreserved hres]
  exact exec_storeOrder_stored (b := { b with ticks := b.ticks + 3 }) hn hi _ _

theorem createOrder_granted {inv : InventoryService} {r : Reservation} {redis : Dict}
    (hres : svc.reservingInventory ctx = some inv)
    (hg : (inv.reserveForOrder true ctx.entity.toOrderRecord).exec b.redis = (.ok r, redis))
    (hn : 0 < n) (hi : (database.update (.insert (opened ctx b)) b.db).1 = .ok n) :
    (svc.createOrder ctx).exec database.serve b =
      (.ok (.ok ⟨opened ctx b, some r⟩),
        svc.stored database (opened ctx b) { b with ticks := b.ticks + 3, redis }) := by
  have hplace : (svc.placeOrder ctx (opened ctx b)).exec database.serve
      { b with ticks := b.ticks + 3 } = _ := exec_placeOrder_granted hres hg
  rw [exec_createOrder hdb, hplace]
  exact exec_storeOrder_stored (b := { b with ticks := b.ticks + 3, redis }) hn hi _ _

theorem createOrder_refused {inv : InventoryService} {error : String}
    (hres : svc.reservingInventory ctx = some inv)
    (hg : (inv.reserveForOrder true ctx.entity.toOrderRecord).exec b.redis = (.error error, b.redis))
    (hi : (database.update (.insert (refusedOrder ctx b)) b.db).1 = .ok n) :
    (svc.createOrder ctx).exec database.serve b =
      (.ok (.error error),
        svc.stored database (refusedOrder ctx b) { b with ticks := b.ticks + 4 }) := by
  have hplace : (svc.placeOrder ctx (opened ctx b)).exec database.serve
      { b with ticks := b.ticks + 3 } = _ := exec_placeOrder_refused hres hg
  rw [exec_createOrder hdb, hplace]
  exact exec_storeRefused (b := { b with ticks := b.ticks + 3 }) hi error

end Create

/-- Redis once `CancelOrder` has given the stock of an order back, or not. -/
def givenBack (svc : OrderService) (r : Record) (releaseReservation : Bool) (redis : Dict) : Dict :=
  match svc.deps.inventory with
  | some inventory =>
    if releaseReservation then
      ((inventory.releaseReservation true ⟨[], r.orderId, r.productId, r.quantity⟩
        (ascii "order cancelled")).exec redis).2
    else redis
  | none => redis

theorem exec_releaseCancelled (r : Record) (releaseReservation : Bool) :
    (svc.releaseCancelled r releaseReservation).exec database.serve b =
      (.ok (), { b with redis := svc.givenBack r releaseReservation b.redis }) := by
  unfold releaseCancelled givenBack
  cases svc.deps.inventory with
  | none => rfl
  | some inventory =>
    cases releaseReservation with
    | false => rfl
    | true =>
      simp only [if_true]
      rw [exec_bind_ok (exec_withClient _ b), exec_pure]

section Kept

variable {fits : Statement → Prop} {rows : δ → OrderTable} (hk : database.KeepsOrders fits rows)

include hk

/-- `UpdateStatus` executes its statement, and then only reads and puts the order into the
cache. -/
theorem spared_updateStatus {keys : Bytes → Prop} (hdb : svc.deps.database = true)
    (hadmits : svc.Admits (OrderCommand.Spares keys)) {orderId : Bytes} {status : OrderStatus}
    {reason : Bytes} (hfits : fits (.updateStatus orderId status reason)) :
    Spared keys { b with db := (database.update (.updateStatus orderId status reason) b.db).2 }
      ((svc.updateStatus orderId status reason).exec database.serve b).2 := by
  obtain ⟨found, hexec, -, -⟩ := hk.exec_changed hfits trivial b
  unfold OrderService.updateStatus OrderRepository.updateStatus
  rw [hdb, Bool.not_true, if_neg Bool.false_ne_true, exec_bind_ok hexec]
  exact spared_exec (always_statusUpdated hadmits orderId reason found) _

theorem spared_markPaid {keys : Bytes → Prop} (hdb : svc.deps.database = true)
    (hadmits : svc.Admits (OrderCommand.Spares keys)) {orderId : Bytes} {paid : Float}
    {paidAt : TimePoint} (hfits : fits (.updatePayment orderId paid paidAt)) :
    Spared keys { b with db := (database.update (.updatePayment orderId paid paidAt) b.db).2 }
      ((svc.markPaid orderId paid paidAt).exec database.serve b).2 := by
  obtain ⟨found, hexec, -, -⟩ := hk.exec_changed hfits trivial b
  unfold markPaid updatePayment
  rw [hdb, Bool.not_true, if_neg Bool.false_ne_true, exec_bind_ok hexec]
  exact spared_exec (always_paymentUpdated hadmits orderId found) _

variable {orderId : Bytes} (hid : fits (.selectById orderId))

include hid

theorem exec_refreshCache :
    (svc.refreshCache orderId).exec database.serve b =
      (.ok (), { b with redis := svc.refreshed orderId (rows b.db) b.redis }) := by
  unfold refreshCache refreshed cachedBy
  cases svc.cacheInUse with
  | none =>
    dsimp only
    split
    next => rfl
    next => rfl
  | some cache =>
    dsimp only
    rw [exec_bind_ok (hk.exec_getById hid)]
    cases (rows b.db).find? fun row => row.orderId = orderId with
    | none => rfl
    | some row =>
      simp only [Option.map_some]
      rw [exec_bind_ok (OrderCache.exec_putOrder cache (parseSingle row)), exec_pure]

theorem exec_orderCancelled (reason : Bytes) (releaseReservation : Bool) (r : Record) :
    (svc.orderCancelled orderId reason releaseReservation r true).exec database.serve b =
      (.ok true, { b with
        redis := svc.refreshed orderId (rows b.db) (svc.givenBack r releaseReservation b.redis) }) := by
  unfold orderCancelled
  rw [exec_bind_ok (exec_releaseCancelled r releaseReservation),
    exec_bind_ok (exec_refreshCache hk hid), exec_bind_ok (exec_publishEvent _ r reason), exec_pure]

/-- `CancelOrder` of an order that has a row. It reports no success where the database counts only
changed rows and the row has this status and reason. -/
theorem exec_cancelOrder (hdb : svc.deps.database = true) {row : OrderRow} {reason : Bytes}
    (hfits : fits (.updateStatus orderId .kCancelled reason))
    (hrow : (rows b.db).find? (fun row => row.orderId = orderId) = some row)
    (releaseReservation : Bool) :
    ∃ found redis, (svc.cancelOrder orderId reason releaseReservation).exec database.serve b =
        (.ok found, { b with
          db := (database.update (.updateStatus orderId .kCancelled reason) b.db).2
          redis }) ∧
      ∀ key, (∀ cache, svc.cacheInUse = some cache → ∀ orderId, key ≠ cache.orderKey orderId) →
        redis.lookup key =
          (if found then svc.givenBack (parseSingle row) releaseReservation b.redis
            else b.redis).lookup key := by
  obtain ⟨found, hupdate, -, -⟩ := hk.exec_changed hfits trivial b
  have hexec : (svc.cancelOrder orderId reason releaseReservation).exec database.serve b =
      (svc.orderCancelled orderId reason releaseReservation (parseSingle row) found).exec
        database.serve
        { b with db := (database.update (.updateStatus orderId .kCancelled reason) b.db).2 } := by
    unfold cancelOrder
    rw [hdb, Bool.not_true, if_neg Bool.false_ne_true, exec_bind_ok (hk.exec_getById hid), hrow]
    simp only [Option.map_some]
    exact exec_bind_ok hupdate
  cases found with
  | false => exact ⟨false, b.redis, hexec, fun key _ => rfl⟩
  | true =>
    rw [exec_orderCancelled hk hid] at hexec
    exact ⟨true, _, hexec, fun key hkey => lookup_refreshed hkey orderId _ _⟩

theorem exec_cancelOrder_missing (hdb : svc.deps.database = true)
    (hrow : ∀ row ∈ rows b.db, row.orderId ≠ orderId) (reason : Bytes) (releaseReservation : Bool) :
    (svc.cancelOrder orderId reason releaseReservation).exec database.serve b = (.ok false, b) := by
  have hnone : (rows b.db).find? (fun row => row.orderId = orderId) = none := by
    apply List.find?_eq_none.mpr
    intro row hm
    simpa using hrow row hm
  unfold cancelOrder
  rw [hdb, Bool.not_true, if_neg Bool.false_ne_true, exec_bind_ok (hk.exec_getById hid), hnone]
  rfl

end Kept

end OrderService

end MuduoPlus
