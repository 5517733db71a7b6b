import MuduoPlus.InventoryExec

namespace MuduoPlus

namespace InventoryService

variable {svc : InventoryService} {order : OrderRecord} {client : Bool} {luck : Nat → Bool}
  {redis : Dict} {stock : Nat}

theorem publishReservationEvent_execFaulty {α : Type} (r : Reservation) (eventType : Bytes)
    (next : RedisProgram α) (n : Nat) :
    (svc.publishReservationEvent r eventType next).execFaulty luck n redis =
      next.execFaulty luck n redis := by
  rcases svc.publishReservationEvent_cases r eventType next with he | ⟨message, he⟩
  · rw [he]
  · rw [he]
    rfl

/-- The stored stock is enough for the order. -/
def enoughStock (svc : InventoryService) (order : OrderRecord) (redis : Dict) : Bool :=
  (svc.storedStock order.productId redis).any fun stock => decide (order.quantity.toNat ≤ stock)

/-- After which outcome of a command, counted from `n`, the reservation is refused, if it is. -/
def refusedAt (svc : InventoryService) (client : Bool) (order : OrderRecord) (luck : Nat → Bool)
    (n : Nat) (redis : Dict) : Option Nat :=
  if (svc.deps.redis && svc.deps.orders && client) = false then some n
  else if (luck n && svc.enoughStock order redis) = false then some (n + 1)
  else if luck (n + 1) = false then some (n + 2)
  else if luck (n + 2) = false then some (n + 3)
  else none

theorem enoughStock_iff :
    svc.enoughStock order redis = true ↔
      ∃ stock, svc.storedStock order.productId redis = some stock ∧
        order.quantity.toNat ≤ stock := by
  unfold enoughStock
  cases svc.storedStock order.productId redis with
  | none => simp
  | some stock => simp

/-- `ReserveForOrder` behind its `GET`: too little stock, or none that can be read. -/
theorem reserveWithStock_short {value : Option Bytes}
    (h : ∀ text stock, value = some text → stoul text = .ok stock → stock < order.quantity.toNat)
    (n : Nat) :
    ∃ error, (svc.reserveWithStock order value).execFaulty luck n redis =
      (.error error, n, redis) := by
  cases value with
  | none => exact ⟨_, rfl⟩
  | some text =>
    cases ht : stoul text with
    | error e =>
      simp only [reserveWithStock, ht]
      exact ⟨_, rfl⟩
    | ok stock =>
      simp only [reserveWithStock, ht, if_pos (h text stock rfl ht)]
      exact ⟨_, rfl⟩

/-- Without a client, without stock, or with a `GET` or `SET` of the stock that fails, nothing
happens. -/
theorem reserveForOrder_faulty_refused {n : Nat}
    (h : ¬(client = true ∧ luck n = true ∧ luck (n + 1) = true ∧ svc.Grants order redis)) :
    ∃ error k, svc.refusedAt client order luck n redis = some k ∧
      (svc.reserveForOrder client order).execFaulty luck n redis = (.error error, k, redis) := by
  unfold reserveForOrder refusedAt
  cases hredis : svc.deps.redis with
  | false => exact ⟨_, _, rfl, rfl⟩
  | true =>
  cases horders : svc.deps.orders with
  | false => exact ⟨_, _, rfl, rfl⟩
  | true =>
  cases client with
  | false => exact ⟨_, _, rfl, rfl⟩
  | true =>
    simp only [Bool.not_true, Bool.or_self, Bool.and_self, Bool.false_eq_true, Bool.true_eq_false,
      if_false, RedisClient.get, StoreProgram.execFaulty]
    cases hget : luck n with
    | false => exact ⟨_, _, rfl, rfl⟩
    | true =>
      simp only [Bool.true_and, if_true]
      by_cases henough : svc.enoughStock order redis = true
      · obtain ⟨stock, hs, hq⟩ := enoughStock_iff.mp henough
        obtain ⟨text, hl, ht⟩ := stockIs_iff.mpr hs
        have hfails : luck (n + 1) = false := by
          by_contra hluck
          exact h ⟨rfl, hget, by simpa using hluck, hredis, horders, stock, hs, hq⟩
        have hnot : ¬stock < order.quantity.toNat := by omega
        simp only [henough, hl, reserveWithStock, ht, hnot, RedisClient.set,
          StoreProgram.execFaulty, hfails, reserveUpdated, Bool.true_eq_false, Bool.false_eq_true,
          if_false, if_true]
        exact ⟨_, _, rfl, rfl⟩
      · have hshort := Bool.eq_false_iff.mpr henough
        obtain ⟨error, he⟩ : ∃ error, (svc.reserveWithStock order
            (redis.lookup (cString (svc.makeStockKey order.productId)))).execFaulty luck (n + 1)
              redis = (.error error, n + 1, redis) := by
          refine reserveWithStock_short (fun text stock hl ht => ?_) (n + 1)
          by_contra hlt
          exact henough (enoughStock_iff.mpr ⟨stock, stockIs_iff.mp ⟨text, hl, ht⟩, by omega⟩)
        rw [he, hshort]
        exact ⟨_, _, rfl, rfl⟩

/-- Otherwise the stock goes down, and the rest depends on the `SET` of the record. -/
theorem reserveForOrder_faulty_granted {n : Nat} (hredis : svc.deps.redis = true)
    (horders : svc.deps.orders = true) (hget : luck n = true) (hset : luck (n + 1) = true)
    (hs : svc.storedStock order.productId redis = some stock)
    (hq : order.quantity.toNat ≤ stock) :
    svc.refusedAt true order luck n redis = (if luck (n + 2) then none else some (n + 3)) ∧
    (svc.reserveForOrder true order).execFaulty luck n redis =
      if luck (n + 2) then (.ok (reservationOf order), n + 3, svc.reserved order stock redis)
      else (.error "Failed to cache reservation", n + 3,
        redis.insert (svc.stockKey order.productId) (decimal (stock - order.quantity.toNat))) := by
  obtain ⟨text, hl, ht⟩ := stockIs_iff.mpr hs
  have henough : ¬stock < order.quantity.toNat := by omega
  have hstart : (svc.reserveForOrder true order).execFaulty luck n redis =
      (svc.cacheReservation (reservationOf order) (svc.reserveCached order)).execFaulty luck (n + 2)
        (redis.insert (svc.stockKey order.productId)
          (decimal (stock - order.quantity.toNat))) := by
    simp only [reserveForOrder, hredis, horders, RedisClient.get, StoreProgram.execFaulty, hget, hl,
      reserveWithStock, ht, henough, RedisClient.set, hset, reserveUpdated, Bool.not_true,
      Bool.or_self, Bool.false_eq_true, if_false, if_true, cString_of_isDigit isDigit_decimal]
    rfl
  constructor
  · simp only [refusedAt, hredis, horders, hget, hset, enoughStock_iff.mpr ⟨stock, hs, hq⟩,
      Bool.and_self, Bool.true_eq_false, if_false]
    cases luck (n + 2) with
    | false => rfl
    | true => rfl
  · rw [hstart]
    simp only [cacheReservation, RedisClient.set, StoreProgram.execFaulty]
    cases luck (n + 2) with
    | false => rfl
    | true =>
      simp only [reserveCached, publishReservationEvent_execFaulty, if_true]
      rfl

/-- The reservation is refused where `refusedAt` says so, and granted otherwise. -/
theorem reserveForOrder_refusedAt (svc : InventoryService) (client : Bool) (order : OrderRecord)
    (luck : Nat → Bool) (n : Nat) (redis : Dict) :
    (∃ error k redis', svc.refusedAt client order luck n redis = some k ∧
      (svc.reserveForOrder client order).execFaulty luck n redis = (.error error, k, redis')) ∨
    svc.refusedAt client order luck n redis = none ∧ ∃ redis',
      (svc.reserveForOrder client order).execFaulty luck n redis =
        (.ok (reservationOf order), n + 3, redis') := by
  by_cases hgranted : client = true ∧ luck n = true ∧ luck (n + 1) = true ∧ svc.Grants order redis
  · obtain ⟨rfl, hget, hset, hredis, horders, stock, hs, hq⟩ := hgranted
    obtain ⟨hat, hexec⟩ := reserveForOrder_faulty_granted hredis horders hget hset hs hq
    rw [hat, hexec]
    cases luck (n + 2) with
    | false => exact Or.inl ⟨_, _, _, rfl, rfl⟩
    | true => exact Or.inr ⟨rfl, _, rfl⟩
  · obtain ⟨error, k, hat, hexec⟩ := reserveForOrder_faulty_refused hgranted
    exact Or.inl ⟨error, k, redis, hat, hexec⟩

/-- A reservation writes the stock of its product and its record, nothing else. -/
theorem avoids_reserveForOrder {key : Bytes} (hs : svc.stockKey order.productId ≠ key)
    (hr : svc.reservationKey (makeReservationId order) ≠ key) (client : Bool) :
    (svc.reserveForOrder client order).Avoids key := by
  have hcached : ∀ ok, (svc.reserveCached order ok).Avoids key := by
    intro ok
    cases ok with
    | false => trivial
    | true =>
      refine avoids_publishReservationEvent ?_ _ _
      trivial
  have hupdated : ∀ ok, (svc.reserveUpdated order ok).Avoids key := by
    intro ok
    cases ok with
    | false => trivial
    | true => exact ⟨hr, hcached⟩
  unfold reserveForOrder
  split
  next => trivial
  next =>
    split
    next => trivial
    next =>
      intro value
      unfold reserveWithStock
      split
      next => trivial
      next =>
        split
        next => trivial
        next =>
          split
          next => trivial
          next => exact ⟨hs, hupdated⟩

/-- A refused reservation leaves the stock and every reservation record as they were, and a granted
one takes the quantity from the stock and stores the record. -/
def AllOrNothing (svc : InventoryService) (order : OrderRecord) (redis redis' : Dict) :
    Except String Reservation → Prop
  | .error _ => svc.SameStock order.productId redis redis'
  | .ok reservation =>
    (∃ stock, svc.storedStock order.productId redis = some stock ∧ order.quantity.toNat ≤ stock ∧
      svc.storedStock order.productId redis' = some (stock - order.quantity.toNat)) ∧
      redis'.lookup (svc.reservationKey reservation.reservationId) =
        some (cString (reservationText (reservationOf order)))

/-- The `SET` of the record fails after that of a smaller stock was carried out. -/
def RecordLost (svc : InventoryService) (client : Bool) (order : OrderRecord) (luck : Nat → Bool)
    (redis : Dict) : Prop :=
  client = true ∧ luck 0 = true ∧ luck 1 = true ∧ luck 2 = false ∧ svc.Grants order redis ∧
    order.quantity ≠ 0

/-- A reservation is all or nothing unless its last command is the one that fails. -/
theorem reserveForOrder_allOrNothing_iff (hk : svc.KeysApart order.productId) (client : Bool)
    (luck : Nat → Bool) (redis : Dict) :
    AllOrNothing svc order redis
        ((svc.reserveForOrder client order).execFaulty luck 0 redis).2.2
        ((svc.reserveForOrder client order).execFaulty luck 0 redis).1 ↔
      ¬svc.RecordLost client order luck redis := by
  by_cases hgranted : client = true ∧ luck 0 = true ∧ luck 1 = true ∧ svc.Grants order redis
  · obtain ⟨rfl, hget, hset, hg⟩ := hgranted
    obtain ⟨hredis, horders, stock, hs, hq⟩ := id hg
    have hlt := storedStock_lt hs
    rw [(reserveForOrder_faulty_granted hredis horders hget hset hs hq).2]
    cases hlast : luck 2 with
    | true =>
      refine iff_of_true ⟨⟨stock, hs, hq, storedStock_reserved hk hs⟩, ?_⟩ ?_
      · exact Finmap.lookup_insert _
      · rintro ⟨-, -, -, hfails, -⟩
        rw [hlast] at hfails
        cases hfails
    | false =>
      have hstock : svc.storedStock order.productId (redis.insert (svc.stockKey order.productId)
          (decimal (stock - order.quantity.toNat))) = some (stock - order.quantity.toNat) :=
        storedStock_insert_self (by omega)
      have hzero : order.quantity = 0 ↔ order.quantity.toNat = 0 := by
        rw [← UInt32.toNat_inj]
        rfl
      constructor
      · rintro ⟨hsame, -⟩ ⟨-, -, -, -, -, hne⟩
        change svc.storedStock order.productId _ = _ at hsame
        rw [hs] at hsame
        have heq := Option.some.inj (hstock.symm.trans hsame)
        exact hne (hzero.mpr (by omega))
      · intro hno
        have hq0 : order.quantity.toNat = 0 := by
          by_contra hne
          exact hno ⟨rfl, hget, hset, hlast, hg, mt hzero.mp hne⟩
        refine ⟨?_, fun id => ?_⟩
        · rw [hs]
          refine hstock.trans (congrArg some ?_)
          omega
        · exact Finmap.lookup_insert_of_ne _ (Ne.symm (stockKey_ne_reservationKey hk id))
  · obtain ⟨error, k, -, hexec⟩ := reserveForOrder_faulty_refused hgranted
    rw [hexec]
    refine iff_of_true ⟨rfl, fun _ => rfl⟩ ?_
    rintro ⟨hclient, hget, hset, -, hg, -⟩
    exact hgranted ⟨hclient, hget, hset, hg⟩

/-- Five pieces of `p`, and an order for two. -/
def faultyShelf : Dict := Finmap.singleton (ascii "inventory:stock:p") (ascii "5")

def faultyService : InventoryService := ⟨⟨true, true, true⟩, {}⟩

theorem reserveForOrder_allOrNothing_stockFails :
    AllOrNothing faultyService ⟨ascii "o", ascii "p", 2⟩ faultyShelf
      ((faultyService.reserveForOrder true ⟨ascii "o", ascii "p", 2⟩).execFaulty (· ≠ 1) 0
        faultyShelf).2.2
      ((faultyService.reserveForOrder true ⟨ascii "o", ascii "p", 2⟩).execFaulty (· ≠ 1) 0
        faultyShelf).1 := by
  refine (reserveForOrder_allOrNothing_iff (keysApart_default _ _) true (· ≠ 1) faultyShelf).mpr ?_
  rintro ⟨-, -, hset, -⟩
  exact absurd hset (by decide)

/-- The `SET` of the record fails: the reservation is refused, and two pieces are gone. -/
theorem reserveForOrder_recordLost :
    let after := (faultyService.reserveForOrder true ⟨ascii "o", ascii "p", 2⟩).execFaulty (· ≠ 2) 0
      faultyShelf
    after.1.toOption = none ∧ faultyService.storedStock (ascii "p") faultyShelf = some 5 ∧
      faultyService.storedStock (ascii "p") after.2.2 = some 3 := by
  decide +kernel

end InventoryService

end MuduoPlus
