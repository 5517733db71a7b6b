import MuduoPlus.OrderServiceExec
import MuduoPlus.RedisKeys

namespace MuduoPlus

namespace InventoryService

variable {inv : InventoryService} {order : OrderRecord} {redis : Dict} {stock : Nat}

/-- Only the record of the reservation is written under a reservation key. -/
theorem lookup_reserved_other (hk : inv.KeysApart order.productId) {id : Bytes}
    (hne : inv.reservationKey id ≠ inv.reservationKey (makeReservationId order)) :
    (inv.reserved order stock redis).lookup (inv.reservationKey id) =
      redis.lookup (inv.reservationKey id) := by
  rw [reserved, Finmap.lookup_insert_of_ne _ hne,
    Finmap.lookup_insert_of_ne _ (Ne.symm (stockKey_ne_reservationKey hk id))]

/-- A release right behind the reservation undoes it, whatever the stock and the quantity. -/
theorem sameStock_released (hk : inv.KeysApart order.productId) (hredis : inv.deps.redis = true)
    (hs : inv.storedStock order.productId redis = some stock)
    (hq : order.quantity.toNat ≤ stock)
    (hnew : inv.reservationKey (makeReservationId order) ∉ redis) (reason : Bytes) :
    inv.SameStock order.productId redis
      ((inv.releaseReservation true (reservationOf order) reason).exec
        (inv.reserved order stock redis)).2 := by
  have hlt := storedStock_lt hs
  have hreserved : inv.storedStock (reservationOf order).productId
      (inv.reserved order stock redis) = some (stock - order.quantity.toNat) :=
    storedStock_reserved hk hs
  have hsum : (stock - order.quantity.toNat + (reservationOf order).quantity.toNat) % 2 ^ 64 =
      stock := by
    change (stock - order.quantity.toNat + order.quantity.toNat) % 2 ^ 64 = stock
    omega
  rw [releaseReservation_exec hredis hreserved, released, hsum]
  constructor
  · rw [hs, storedStock_congr (Finmap.lookup_erase_ne (stockKey_ne_reservationKey hk _))]
    exact storedStock_insert_self hlt
  · intro id
    by_cases hid : inv.reservationKey id = inv.reservationKey (makeReservationId order)
    · rw [hid, Finmap.lookup_eq_none.mpr hnew]
      exact Finmap.lookup_erase _ _
    · refine (Finmap.lookup_erase_ne hid).trans ?_
      refine (Finmap.lookup_insert_of_ne _ (Ne.symm (stockKey_ne_reservationKey hk id))).trans ?_
      exact lookup_reserved_other hk hid

end InventoryService

namespace OrderService

open Program OrderProgram OrderRepository InventoryService

variable {δ : Type} {database : Database δ} {svc : OrderService} {inv : InventoryService}
  {ctx : CreateContext} {b : Backend δ} {e : OrderEntity}

/-- The keys of the inventory are apart from each other and from those of the cache. -/
structure KeepsApart (svc : OrderService) (inv : InventoryService) (productId : Bytes) : Prop where
  inventory : inv.KeysApart productId
  stock : ∀ cache, svc.cacheInUse = some cache → ∀ orderId,
    inv.stockKey productId ≠ cache.orderKey orderId
  records : ∀ cache, svc.cacheInUse = some cache → ∀ orderId id,
    inv.reservationKey id ≠ cache.orderKey orderId

theorem keepsApart_of_defaults (hp : inv.DefaultPrefixes)
    (hc : ∀ cache, svc.cacheInUse = some cache → cache.options.keyPrefix = ascii "order:")
    (productId : Bytes) : svc.KeepsApart inv productId where
  inventory := keysApart_of_defaultPrefixes hp productId
  stock cache hcache orderId := OrderCache.stockKey_ne_orderKey hp (hc cache hcache) _ orderId
  records cache hcache orderId id :=
    OrderCache.reservationKey_ne_orderKey hp (hc cache hcache) id orderId

/-- `Insert` answers true or false. -/
def Answers (database : Database δ) : Prop :=
  ∀ r db, ∃ n, (database.update (.insert r) db).1 = .ok n

theorem answers_orderTable : Answers OrderTable.database := by
  intro r t
  obtain ⟨n, hn, -⟩ := OrderTable.update_count (.insert r) t
  exact ⟨n, hn⟩

/-- What the inventory looks like after `CreateOrder`: as before if there is no order, and for an
order with a reservation less its quantity and with its record. -/
def Reserves (inv : InventoryService) (order : OrderRecord) (redis redis' : Dict) :
    Except String CreateResult → Prop
  | .error _ => inv.SameStock order.productId redis redis'
  | .ok result => ∀ r, result.reservation = some r →
    (∃ stock, inv.storedStock order.productId redis = some stock ∧ order.quantity.toNat ≤ stock ∧
      inv.storedStock order.productId redis' = some (stock - order.quantity.toNat)) ∧
    inv.reservationKey r.reservationId ∉ redis ∧ inv.reservationKey r.reservationId ∈ redis' ∧
    ∀ id, inv.reservationKey id ≠ inv.reservationKey r.reservationId →
      redis'.lookup (inv.reservationKey id) = redis.lookup (inv.reservationKey id)

theorem KeepsApart.cachedBy {productId : Bytes} (ha : svc.KeepsApart inv productId) (r : Record)
    (redis : Dict) : inv.SameStock productId redis (svc.cachedBy r redis) :=
  sameStock_of_lookup
    (lookup_cachedBy (fun cache hcache orderId => ha.stock cache hcache orderId) r redis)
    fun id => lookup_cachedBy (fun cache hcache orderId => ha.records cache hcache orderId id) r redis

section Placed

variable (hans : Answers database)

include hans

theorem storeOrder_unreserved (rawPayload : Bytes) (b : Backend δ) :
    ∃ result b', (svc.storeOrder e rawPayload none).exec database.serve b = (.ok result, b') ∧
      Reserves inv e.toOrderRecord b.redis b'.redis result := by
  obtain ⟨n, hn⟩ := hans e b.db
  rcases Nat.eq_zero_or_pos n with rfl | hpos
  · exact ⟨_, _, exec_storeOrder_failed hn rawPayload none, rfl, fun _ => rfl⟩
  · refine ⟨_, _, exec_storeOrder_stored hpos hn rawPayload none, ?_⟩
    intro r hr
    cases hr

variable (ha : svc.KeepsApart inv e.productId) (hinv : svc.deps.inventory = some inv)

include ha hinv

theorem storeOrder_reserved (rawPayload : Bytes) {b : Backend δ} {redis : Dict} {stock : Nat}
    (hb : b.redis = inv.reserved e.toOrderRecord stock redis) (hredis : inv.deps.redis = true)
    (hs : inv.storedStock e.productId redis = some stock)
    (hq : e.quantity.toNat ≤ stock)
    (hnew : inv.reservationKey (makeReservationId e.toOrderRecord) ∉ redis) :
    ∃ result b', (svc.storeOrder e rawPayload (some (reservationOf e.toOrderRecord))).exec
        database.serve b = (.ok result, b') ∧
      Reserves inv e.toOrderRecord redis b'.redis result := by
  obtain ⟨n, hn⟩ := hans e b.db
  rcases Nat.eq_zero_or_pos n with rfl | hpos
  · refine ⟨_, _, exec_storeOrder_failed hn rawPayload _, ?_⟩
    simp only [rolledBack, hinv, hb]
    exact sameStock_released ha.inventory hredis hs hq hnew (ascii "rollback")
  · refine ⟨_, _, exec_storeOrder_stored hpos hn rawPayload _, ?_⟩
    rintro r hr
    obtain rfl := Option.some.inj hr
    have hcached := ha.cachedBy e b.redis
    unfold stored
    dsimp only
    rw [hb] at hcached ⊢
    refine ⟨⟨stock, hs, hq, hcached.stock.trans (storedStock_reserved ha.inventory hs)⟩, hnew, ?_, ?_⟩
    · have hstored : (inv.reserved e.toOrderRecord stock redis).lookup
          (inv.reservationKey (makeReservationId e.toOrderRecord)) = some _ :=
        Finmap.lookup_insert _
      exact Finmap.mem_iff.mpr ⟨_, (hcached.records _).trans hstored⟩
    · intro id hne
      exact (hcached.records id).trans (lookup_reserved_other ha.inventory hne)

theorem placeOrder_reserves (ctx : CreateContext) (b : Backend δ)
    (hnew : inv.reservationKey (makeReservationId e.toOrderRecord) ∉ b.redis) :
    ∃ result b', (svc.placeOrder ctx e).exec database.serve b = (.ok result, b') ∧
      Reserves inv e.toOrderRecord b.redis b'.redis result := by
  cases hres : svc.reservingInventory ctx with
  | none =>
    rw [exec_placeOrder_unreserved hres]
    exact storeOrder_unreserved hans ctx.rawPayload b
  | some inventory =>
    obtain rfl : inv = inventory :=
      Option.some.inj (hinv.symm.trans (inventory_of_reserving hres))
    by_cases hg : inv.Grants e.toOrderRecord b.redis
    · obtain ⟨hredis, horders, stock, hs, hq⟩ := hg
      have hgranted := reserveForOrder_granted hredis horders hs hq
      rw [exec_placeOrder_granted hres hgranted]
      exact storeOrder_reserved hans ha hinv ctx.rawPayload rfl hredis hs hq hnew
    · obtain ⟨error, hrefused⟩ := reserveForOrder_of_not_grants hg
      obtain ⟨n, hn⟩ := hans (failed e b) b.db
      rw [exec_placeOrder_refused hres hrefused]
      exact ⟨_, _, exec_storeRefused hn error, ha.cachedBy (failed e b) b.redis⟩

end Placed

/-- `CreateOrder` rolls back what it reserved: without a failing Redis, and whatever `Insert`
answers, there is a result, and the inventory is as before if it is no order. -/
theorem createOrder_reserves (hinv : svc.deps.inventory = some inv) (hans : Answers database)
    (ha : svc.KeepsApart inv ctx.entity.productId)
    (hnew : ∀ productId, inv.reservationKey (ctx.entity.orderId ++ ascii ":" ++ productId) ∉ b.redis) :
    ∃ result b', (svc.createOrder ctx).exec database.serve b = (.ok result, b') ∧
      Reserves inv ctx.entity.toOrderRecord b.redis b'.redis result := by
  by_cases hdb : svc.deps.database = true
  swap
  · refine ⟨.error "Missing database dependency", b, ?_, rfl, fun _ => rfl⟩
    simp [createOrder, hdb]
  rw [exec_createOrder hdb]
  exact placeOrder_reserves (e := opened ctx b) hans ha hinv ctx { b with ticks := b.ticks + 3 }
    (hnew ctx.entity.productId)

/-- A service with an inventory and a cache, and two of five pieces asked for. -/
def rollbackService : OrderService where
  deps := ⟨true, some {}, some ⟨⟨true, true, true⟩, {}⟩, true⟩
  options := {}

def rollbackContext : CreateContext where
  entity := { orderId := ascii "o1", productId := ascii "p", quantity := 2 }
  rawPayload := []

def rollbackStart : Backend Unit where
  redis := Finmap.singleton (ascii "inventory:stock:p") (ascii "5")
  db := ()
  clock _ := 0
  ticks := 0
  ids _ := []
  issued := 0

theorem createOrder_reserves_failed :
    ∃ result b', (rollbackService.createOrder rollbackContext).exec (Database.answering 0).serve
        rollbackStart = (.ok result, b') ∧
      Reserves ⟨⟨true, true, true⟩, {}⟩ rollbackContext.entity.toOrderRecord rollbackStart.redis
        b'.redis result := by
  have hapart : rollbackService.KeepsApart ⟨⟨true, true, true⟩, {}⟩
      rollbackContext.entity.productId := by
    refine keepsApart_of_defaults ⟨rfl, rfl⟩ (fun cache hcache => ?_) _
    obtain rfl := Option.some.inj hcache
    rfl
  refine createOrder_reserves rfl (fun _ _ => ⟨0, rfl⟩) hapart fun productId hm => ?_
  have hkey := (Finmap.mem_singleton _ _ _).mp hm
  have hstock : ascii "inventory:stock:p" =
      InventoryService.stockKey ⟨⟨true, true, true⟩, {}⟩ (ascii "p") := by decide
  rw [hstock] at hkey
  exact keysApart_default _ _ _ hkey

end OrderService

end MuduoPlus
