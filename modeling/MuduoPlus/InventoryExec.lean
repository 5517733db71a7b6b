import MuduoPlus.InventoryStock

namespace MuduoPlus

namespace InventoryService

variable {svc : InventoryService} {redis : Dict} {order : OrderRecord} {r : Reservation}
  {productId reason : Bytes} {n : Nat}

/-- The Redis key of a product's stock. -/
def stockKey (svc : InventoryService) (productId : Bytes) : Bytes :=
  cString (svc.makeStockKey productId)

/-- The Redis key of a reservation record. -/
def reservationKey (svc : InventoryService) (reservationId : Bytes) : Bytes :=
  cString (svc.makeReservationKey reservationId)

/-- The stock of the product and every reservation record are the same. -/
structure SameStock (svc : InventoryService) (productId : Bytes) (redis redis' : Dict) : Prop where
  stock : svc.storedStock productId redis' = svc.storedStock productId redis
  records : ∀ id, redis'.lookup (svc.reservationKey id) = redis.lookup (svc.reservationKey id)

theorem cString_of_nulFree {s : Bytes} (h : 0 ∉ s) : cString s = s := by
  apply List.takeWhile_eq_self_iff.mpr
  intro b hb
  have hne : b ≠ 0 := fun he => h (he ▸ hb)
  simpa using hne

theorem stockKey_ne_reservationKey (hk : svc.KeysApart productId) (reservationId : Bytes) :
    svc.stockKey productId ≠ svc.reservationKey reservationId :=
  Ne.symm (hk reservationId)

theorem stockKey_eq (hp : svc.DefaultPrefixes) (h : 0 ∉ productId) :
    svc.stockKey productId = ascii "inventory:stock:" ++ productId := by
  rw [stockKey, cString_makeStockKey hp, cString_of_nulFree h]

theorem stockKey_injective (hp : svc.DefaultPrefixes) {p p' : Bytes} (h : 0 ∉ p) (h' : 0 ∉ p')
    (he : svc.stockKey p = svc.stockKey p') : p = p' := by
  rw [stockKey_eq hp h, stockKey_eq hp h'] at he
  exact List.append_cancel_left he

/-- Redis after a granted reservation. -/
def reserved (svc : InventoryService) (order : OrderRecord) (stock : Nat) (redis : Dict) : Dict :=
  (redis.insert (svc.stockKey order.productId) (decimal (stock - order.quantity.toNat))).insert
    (svc.reservationKey (makeReservationId order)) (cString (reservationText (reservationOf order)))

/-- Redis after a release that found the stock. -/
def released (svc : InventoryService) (r : Reservation) (stock : Nat) (redis : Dict) : Dict :=
  (redis.insert (svc.stockKey r.productId) (decimal ((stock + r.quantity.toNat) % 2 ^ 64))).erase
    (svc.reservationKey r.reservationId)

theorem publishReservationEvent_exec {α : Type} (svc : InventoryService) (r : Reservation)
    (eventType : Bytes) (next : RedisProgram α) (redis : Dict) :
    (svc.publishReservationEvent r eventType next).exec redis = next.exec redis := by
  rcases svc.publishReservationEvent_cases r eventType next with he | ⟨message, he⟩
  · rw [he]
  · rw [he]
    rfl

theorem storedStock_lt (h : svc.storedStock productId redis = some n) : n < 2 ^ 64 := by
  obtain ⟨text, _, hs⟩ := stockIs_iff.mpr h
  exact stoul_lt hs

theorem queryStock_exec (hredis : svc.deps.redis = true) :
    (svc.queryStock true productId).exec redis = (svc.storedStock productId redis, redis) := by
  simp only [queryStock, hredis, storedStock, RedisClient.get, StoreProgram.exec, Bool.not_true,
    Bool.false_eq_true, if_false]
  cases redis.lookup (cString (svc.makeStockKey productId)) with
  | none => rfl
  | some text => rfl

theorem setStock_exec (hredis : svc.deps.redis = true) (amount : UInt64) :
    (svc.setStock true productId amount).exec redis =
      (true, redis.insert (svc.stockKey productId) (decimal amount.toNat)) := by
  simp only [setStock, hredis, RedisClient.set, StoreProgram.exec, stockKey,
    cString_of_isDigit isDigit_decimal, Bool.not_true, Bool.false_eq_true, if_false]

/-- Enough stock: the stock goes down and the record appears. -/
theorem reserveForOrder_granted (hredis : svc.deps.redis = true) (horders : svc.deps.orders = true)
    (hs : svc.storedStock order.productId redis = some n) (hq : order.quantity.toNat ≤ n) :
    (svc.reserveForOrder true order).exec redis =
      (.ok (reservationOf order), svc.reserved order n redis) := by
  obtain ⟨text, hl, ht⟩ := stockIs_iff.mpr hs
  have henough : ¬n < order.quantity.toNat := by omega
  simp only [reserveForOrder, hredis, horders, RedisClient.get, StoreProgram.exec, hl,
    reserveWithStock, ht, henough, RedisClient.set, reserveUpdated, cacheReservation, reserveCached,
    Bool.not_true, Bool.or_self, Bool.false_eq_true, if_false, publishReservationEvent_exec,
    cString_of_isDigit isDigit_decimal]
  rfl

/-- No readable stock, or too little of it: nothing is written. -/
theorem reserveForOrder_refused
    (hs : ∀ n, svc.storedStock order.productId redis = some n → n < order.quantity.toNat) :
    ∃ error, (svc.reserveForOrder true order).exec redis = (.error error, redis) := by
  unfold reserveForOrder
  split
  next => exact ⟨_, rfl⟩
  next =>
    simp only [Bool.not_true, Bool.false_eq_true, if_false, RedisClient.get, StoreProgram.exec]
    cases hl : redis.lookup (cString (svc.makeStockKey order.productId)) with
    | none => exact ⟨_, rfl⟩
    | some text =>
      cases ht : stoul text with
      | error e =>
        simp only [reserveWithStock, ht]
        exact ⟨_, rfl⟩
      | ok n =>
        have hlt := hs n (stockIs_iff.mp ⟨text, hl, ht⟩)
        simp only [reserveWithStock, ht, hlt, if_true]
        exact ⟨_, rfl⟩

/-- `ReserveForOrder` is granted: the service has what it needs, and there is enough stock. -/
def Grants (svc : InventoryService) (order : OrderRecord) (redis : Dict) : Prop :=
  svc.deps.redis = true ∧ svc.deps.orders = true ∧
    ∃ n, svc.storedStock order.productId redis = some n ∧ order.quantity.toNat ≤ n

theorem reserveForOrder_of_not_grants (h : ¬svc.Grants order redis) :
    ∃ error, (svc.reserveForOrder true order).exec redis = (.error error, redis) := by
  by_cases hdeps : svc.deps.redis = true ∧ svc.deps.orders = true
  · apply reserveForOrder_refused
    intro n hn
    by_contra hlt
    exact h ⟨hdeps.1, hdeps.2, n, hn, by omega⟩
  · unfold reserveForOrder
    have hmissing : (!svc.deps.redis || !svc.deps.orders) = true := by
      simp only [Bool.or_eq_true, Bool.not_eq_true']
      by_contra hno
      simp only [not_or, Bool.not_eq_false] at hno
      exact hdeps hno
    rw [if_pos hmissing]
    exact ⟨_, rfl⟩

theorem releaseReservation_exec (hredis : svc.deps.redis = true)
    (hs : svc.storedStock r.productId redis = some n) :
    (svc.releaseReservation true r reason).exec redis = (.ok (), svc.released r n redis) := by
  obtain ⟨text, hl, ht⟩ := stockIs_iff.mpr hs
  simp only [releaseReservation, hredis, incrementStock, RedisClient.get, StoreProgram.exec, hl,
    incrementWithStock, ht, RedisClient.set, releaseRestored, deleteReservation, RedisClient.del,
    Bool.not_true, Bool.false_eq_true, if_false, publishReservationEvent_exec,
    cString_of_isDigit isDigit_decimal]
  rfl

/-- Without a readable stock a release changes nothing. -/
theorem releaseReservation_unreadable (hs : svc.storedStock r.productId redis = none) :
    ((svc.releaseReservation true r reason).exec redis).2 = redis := by
  unfold releaseReservation
  split
  next => rfl
  next =>
    simp only [Bool.not_true, Bool.false_eq_true, if_false, incrementStock, RedisClient.get,
      StoreProgram.exec]
    cases hl : redis.lookup (cString (svc.makeStockKey r.productId)) with
    | none => rfl
    | some text =>
      cases ht : stoul text with
      | error e =>
        simp only [incrementWithStock, ht]
        rfl
      | ok n =>
        rw [stockIs_iff.mp ⟨text, hl, ht⟩] at hs
        cases hs

theorem commitReservation_exec (hredis : svc.deps.redis = true) :
    ((svc.commitReservation true r).exec redis).2 =
      redis.erase (svc.reservationKey r.reservationId) := by
  simp only [commitReservation, hredis, deleteReservation, RedisClient.del, StoreProgram.exec,
    Bool.not_true, Bool.false_eq_true, if_false]
  by_cases hk : cString (svc.makeReservationKey r.reservationId) ∈ redis
  · simp only [hk, decide_true, commitDeleted, publishReservationEvent_exec]
    rfl
  · simp only [hk, decide_false, commitDeleted]
    rfl

section Lookup

variable {key : Bytes} (hstock : ∀ productId, key ≠ svc.stockKey productId)
  (hrecord : ∀ reservationId, key ≠ svc.reservationKey reservationId)

include hstock hrecord

/-- A reservation touches no other key. -/
theorem lookup_reserved (n : Nat) :
    (svc.reserved order n redis).lookup key = redis.lookup key := by
  rw [reserved, Finmap.lookup_insert_of_ne _ (hrecord _), Finmap.lookup_insert_of_ne _ (hstock _)]

/-- Nor does a release. -/
theorem lookup_releaseReservation :
    ((svc.releaseReservation true r reason).exec redis).2.lookup key = redis.lookup key := by
  cases hs : svc.storedStock r.productId redis with
  | none => rw [releaseReservation_unreadable hs]
  | some n =>
    by_cases hredis : svc.deps.redis = true
    · rw [releaseReservation_exec hredis hs, released, Finmap.lookup_erase_ne (hrecord _),
        Finmap.lookup_insert_of_ne _ (hstock _)]
    · have hmissing : (!svc.deps.redis) = true := by simpa using hredis
      rw [releaseReservation, if_pos hmissing]
      rfl

end Lookup

/-- The stock of a product after its key was written. -/
theorem storedStock_insert_self (hn : n < 2 ^ 64) :
    svc.storedStock productId (redis.insert (svc.stockKey productId) (decimal n)) = some n := by
  apply stockIs_iff.mp
  exact ⟨decimal n, Finmap.lookup_insert redis, stoul_decimal hn⟩

theorem storedStock_congr {redis' : Dict}
    (h : redis'.lookup (svc.stockKey productId) = redis.lookup (svc.stockKey productId)) :
    svc.storedStock productId redis' = svc.storedStock productId redis := by
  unfold storedStock
  unfold stockKey at h
  rw [h]

theorem sameStock_of_lookup {redis' : Dict}
    (hs : redis'.lookup (svc.stockKey productId) = redis.lookup (svc.stockKey productId))
    (hr : ∀ id, redis'.lookup (svc.reservationKey id) = redis.lookup (svc.reservationKey id)) :
    svc.SameStock productId redis redis' :=
  ⟨storedStock_congr hs, hr⟩

/-- With its keys apart a granted reservation takes the quantity from the stock. -/
theorem storedStock_reserved (hk : svc.KeysApart order.productId)
    (hs : svc.storedStock order.productId redis = some n) :
    svc.storedStock order.productId (svc.reserved order n redis) =
      some (n - order.quantity.toNat) := by
  have hlt := storedStock_lt hs
  have hapart := stockKey_ne_reservationKey hk (makeReservationId order)
  rw [reserved, storedStock_congr (Finmap.lookup_insert_of_ne _ hapart)]
  exact storedStock_insert_self (by omega)

theorem avoids_publishReservationEvent {α : Type} {next : RedisProgram α} {key : Bytes}
    (h : next.Avoids key) (r : Reservation) (eventType : Bytes) :
    (svc.publishReservationEvent r eventType next).Avoids key := by
  rcases svc.publishReservationEvent_cases r eventType next with he | ⟨message, he⟩
  · rw [he]
    exact h
  · rw [he]
    exact h

/-- A release writes the stock of its product and the record of its reservation, nothing else. -/
theorem avoids_releaseReservation {key : Bytes} (hs : svc.stockKey r.productId ≠ key)
    (hr : svc.reservationKey r.reservationId ≠ key) (client : Bool) :
    (svc.releaseReservation client r reason).Avoids key := by
  have hrestored : ∀ ok, (svc.releaseRestored r reason ok).Avoids key := by
    intro ok
    cases ok with
    | false => trivial
    | true =>
      refine ⟨hr, fun _ => avoids_publishReservationEvent ?_ _ _⟩
      trivial
  unfold releaseReservation
  split
  next => trivial
  next =>
    split
    next => trivial
    next =>
      intro value
      cases value with
      | none => exact hrestored false
      | some text =>
        unfold incrementWithStock
        dsimp only
        split
        next => exact hrestored false
        next => exact ⟨hs, hrestored⟩

end InventoryService

end MuduoPlus
