import MuduoPlus.InventoryFaults
import MuduoPlus.OrderRollback

namespace MuduoPlus

/-- The record of an `INSERT`. -/
def OrderCommand.inserted : OrderCommand → Option OrderRepository.Record
  | .submitUpdate (.insert r) => some r
  | _ => none

namespace OrderProgram

open Program

variable {α β δ : Type} {database : Database δ} {luck : Nat → Bool}

/-- The records that the program hands to `Insert`. -/
def insertedBy (p : OrderProgram α) (database : Database δ) (luck : Nat → Bool)
    (s : Backend δ × Nat) : List OrderRepository.Record :=
  (p.trace (database.serveFaulty luck) s).filterMap OrderCommand.inserted

theorem insertedBy_bind {p : OrderProgram α} {f : α → OrderProgram β} {a : α}
    {s t : Backend δ × Nat} (h : p.exec (database.serveFaulty luck) s = (.ok a, t)) :
    insertedBy (p >>= f) database luck s =
      insertedBy p database luck s ++ insertedBy (f a) database luck t := by
  unfold insertedBy
  rw [trace_bind_ok h, List.filterMap_append]

theorem insertedBy_eq_nil {p : OrderProgram α} (hp : p.Always fun c => c.inserted = none)
    (s : Backend δ × Nat) : insertedBy p database luck s = [] :=
  List.filterMap_eq_nil_iff.mpr hp.trace

theorem insertedBy_insert (r : OrderRepository.Record) (s : Backend δ × Nat) :
    insertedBy (OrderRepository.insert r) database luck s = [r] := by
  unfold insertedBy OrderRepository.insert OrderRepository.submitUpdate
  change List.filterMap OrderCommand.inserted (.submitUpdate (.insert r) :: Program.trace _
    (ofExcept (database.serveFaulty luck (.submitUpdate (.insert r)) s).1 >>= _) _) = [r]
  rcases (database.serveFaulty luck (.submitUpdate (.insert r)) s).1 with e | count
  · rfl
  · rfl

theorem insertedBy_withClient (p : Bool → RedisProgram α) (s : Backend δ × Nat) :
    insertedBy (withClient p) database luck s = [] := by
  have hredis : AdmitsRedis fun c => c.inserted = none :=
    ⟨rfl, fun _ => rfl, fun _ _ => rfl, fun _ => rfl, fun _ => rfl⟩
  exact insertedBy_eq_nil (hredis.always_withClient p) s

end OrderProgram

/-- An order that the cache has already changes nothing. -/
theorem OrderCache.lookup_cached_same {cache : OrderCache} {r : OrderRepository.Record} {redis : Dict}
    (h : cache.pool = true →
      redis.lookup (cache.orderKey r.orderId) = some (cString (OrderCache.serializeOrder r)))
    (key : Bytes) : (cache.cached r redis).lookup key = redis.lookup key := by
  unfold OrderCache.cached
  split
  next hpool =>
    by_cases hkey : key = cache.orderKey r.orderId
    · rw [hkey, h hpool]
      exact Finmap.lookup_insert redis
    · exact Finmap.lookup_insert_of_ne redis hkey
  next => rfl

namespace Database

variable {δ : Type}

/-- `Insert` reports that it stored the record. -/
def Stores (database : Database δ) (r : OrderRepository.Record) (db : δ) : Prop :=
  ∃ n, 0 < n ∧ (database.update (.insert r) db).1 = .ok n

/-- `Insert` tells whether the record is in the database behind it: it is if a row is counted, and
otherwise where it was there before. -/
structure Records (database : Database δ) (has : δ → OrderRepository.Record → Prop)
    (r : OrderRepository.Record) : Prop where
  stored : ∀ {db}, database.Stores r db → has (database.update (.insert r) db).2 r
  refused : ∀ {db}, (database.update (.insert r) db).1 = .ok 0 →
    (has (database.update (.insert r) db).2 r ↔ has db r)

end Database

namespace OrderTable

/-- The table has a row of the record. -/
def Has (t : OrderTable) (r : OrderRepository.Record) : Prop := ∃ row ∈ t, rowOf r = some row

theorem records_database (r : OrderRepository.Record) : database.Records Has r where
  stored {t} h := by
    obtain ⟨n, hn, hcount⟩ := h
    change (insertRow r t).1 = .ok n at hcount
    change Has (insertRow r t).2 r
    unfold insertRow at hcount ⊢
    split at hcount
    next => exact absurd (Except.ok.inj hcount) (Nat.ne_of_lt hn)
    next row hrow =>
      split at hcount
      next => exact absurd (Except.ok.inj hcount) (Nat.ne_of_lt hn)
      next hno =>
        rw [if_neg hno]
        exact ⟨row, List.mem_append_right t List.mem_cons_self, hrow⟩
  refused {t} hzero := by
    obtain ⟨n, hn, hsame⟩ := update_count (.insert r) t
    obtain rfl : n = 0 := Except.ok.inj (hn.symm.trans hzero)
    have hleft : (database.update (.insert r) t).2 = t := hsame rfl
    rw [hleft]

end OrderTable

namespace OrderService

open Program OrderProgram OrderRepository InventoryService

variable {svc : OrderService} {inv : InventoryService} {cache : OrderCache} {ctx : CreateContext}
  {δ : Type} {database : Database δ} {has : δ → Record → Prop} {luck : Nat → Bool}
  {b b' : Backend δ} {n k : Nat} {e : OrderEntity} {key : Bytes}

theorem exec_openOrder_faulty :
    (openOrder ctx).exec (database.serveFaulty luck) (b, n) =
      (.ok (opened ctx b), { b with ticks := b.ticks + 3 }, n) := rfl

theorem exec_insert_faulty_done {r : Record} {count : Nat} (hl : luck n = true)
    (hcount : (database.update (.insert r) b.db).1 = .ok count) :
    (OrderRepository.insert r).exec (database.serveFaulty luck) (b, n) =
      (.ok (decide (0 < count)), { b with db := (database.update (.insert r) b.db).2 }, n + 1) := by
  have hupdate : (submitUpdate (.insert r)).exec (database.serveFaulty luck) (b, n) =
      (.ok count, { b with db := (database.update (.insert r) b.db).2 }, n + 1) := by
    unfold submitUpdate
    rw [exec_bind_ok (exec_ask _), Database.serveFaulty, faulty_done rfl hl]
    change Program.exec _ (ofExcept (database.update (.insert r) b.db).1) _ = _
    rw [hcount]
    rfl
  unfold OrderRepository.insert
  rw [exec_bind_pure, hupdate]
  rfl

theorem exec_insert_faulty_stored {r : Record} (hl : luck n = true)
    (hstores : database.Stores r b.db) :
    (OrderRepository.insert r).exec (database.serveFaulty luck) (b, n) =
      (.ok true, { b with db := (database.update (.insert r) b.db).2 }, n + 1) := by
  obtain ⟨count, hpos, hcount⟩ := hstores
  rw [exec_insert_faulty_done hl hcount, decide_eq_true hpos]

/-- An `Insert` that fails, or whose record the database does not take. -/
theorem exec_insert_faulty_refused (hans : Answers database) {r : Record}
    (h : ¬(luck n = true ∧ database.Stores r b.db)) :
    ∃ db, (OrderRepository.insert r).exec (database.serveFaulty luck) (b, n) =
        (.ok false, { b with db }, n + 1) ∧
      ∀ has, database.Records has r → (has db r ↔ has b.db r) := by
  cases hl : luck n with
  | false =>
    refine ⟨b.db, ?_, fun _ _ => Iff.rfl⟩
    unfold OrderRepository.insert submitUpdate
    rw [exec_bind_pure, exec_bind_ok (exec_ask _), Database.serveFaulty, faulty_failed rfl hl]
    rfl
  | true =>
    obtain ⟨count, hcount⟩ := hans r b.db
    have hzero : count = 0 := by
      by_contra hne
      exact h ⟨hl, count, Nat.pos_of_ne_zero hne, hcount⟩
    subst hzero
    exact ⟨_, exec_insert_faulty_done hl hcount, fun has hrec => hrec.refused hcount⟩

/-- `Insert` either stores its record or leaves the database without it. -/
theorem exec_insert_faulty (hans : Answers database) (luck : Nat → Bool) (r : Record)
    (b : Backend δ) (n : Nat) :
    ∃ db stored, (OrderRepository.insert r).exec (database.serveFaulty luck) (b, n) =
        (.ok stored, { b with db }, n + 1) ∧
      ∀ has, database.Records has r →
        (luck n = true ∧ database.Stores r b.db → has db r) ∧
        (¬(luck n = true ∧ database.Stores r b.db) → (has db r ↔ has b.db r)) := by
  by_cases hstored : luck n = true ∧ database.Stores r b.db
  · exact ⟨_, true, exec_insert_faulty_stored hstored.1 hstored.2, fun has hrec =>
      ⟨fun _ => hrec.stored hstored.2, fun hno => absurd hstored hno⟩⟩
  · obtain ⟨db, hexec, hleft⟩ := exec_insert_faulty_refused hans hstored
    exact ⟨db, false, hexec, fun has hrec =>
      ⟨fun hyes => absurd hyes hstored, fun _ => hleft has hrec⟩⟩

/-- `PutOrder` gets through with a client and a `SET` that does not fail. -/
theorem exec_putInCache_faulty (hcache : svc.cacheInUse = some cache) (luck : Nat → Bool)
    (r : Record) (b : Backend δ) (n : Nat) :
    ∃ n', (svc.putInCache r).exec (database.serveFaulty luck) (b, n) =
      (.ok (), { b with
        redis := if luck n && luck (n + 1) then cache.cached r b.redis else b.redis }, n') := by
  unfold putInCache
  rw [hcache]
  dsimp only
  unfold OrderCache.putOrder OrderCache.setKey OrderCache.cached
  cases cache.pool with
  | false =>
    simp only [Bool.not_false, Bool.false_eq_true, if_true, if_false, ite_self]
    exact ⟨n, rfl⟩
  | true =>
    simp only [Bool.not_true, Bool.false_eq_true, if_false, if_true]
    rw [exec_bind_ok (exec_withClient_faulty _ b n), exec_pure]
    cases hclient : luck n with
    | false => exact ⟨n + 1, rfl⟩
    | true => exact ⟨n + 2, rfl⟩

/-- `CreateOrder` keeps the cache to itself: if it returns nothing and the database has none of the
records that it tried to insert, no order in the cache is changed. -/
def CachesStoredOnly (svc : OrderService) (cache : OrderCache) (database : Database δ)
    (has : δ → Record → Prop) (ctx : CreateContext) (luck : Nat → Bool) (b : Backend δ) : Prop :=
  ∀ error b' n', (svc.createOrder ctx).exec (database.serveFaulty luck) (b, 0) =
      (.ok (.error error), b', n') →
    (∀ r ∈ insertedBy (svc.createOrder ctx) database luck (b, 0), ¬has b'.db r) →
    ∀ orderId, b'.redis.lookup (cache.orderKey orderId) = b.redis.lookup (cache.orderKey orderId)

/-- The reservation is refused after `k` outcomes, the `Insert` of the failed order does not store
it either, and `PutOrder` gets it into the cache, where it was not. -/
structure CachedUnstored (svc : OrderService) (cache : OrderCache) (database : Database δ)
    (has : δ → Record → Prop) (inv : InventoryService) (ctx : CreateContext) (luck : Nat → Bool)
    (b : Backend δ) (k : Nat) : Prop where
  dependency : svc.deps.database = true
  reserving : svc.reservingInventory ctx = some inv
  refused : inv.refusedAt (luck 0) ctx.entity.toOrderRecord luck 1 b.redis = some k
  unstored : ¬(luck k = true ∧ database.Stores (refusedOrder ctx b) b.db)
  absent : ¬has b.db (refusedOrder ctx b)
  pool : cache.pool = true
  client : luck (k + 1) = true
  set : luck (k + 2) = true
  differs : b.redis.lookup (cache.orderKey ctx.entity.orderId) ≠
    some (cString (OrderCache.serializeOrder (refusedOrder ctx b)))

theorem rollback_spares {r : Reservation} (hs : inv.stockKey r.productId ≠ key)
    (hr : inv.reservationKey r.reservationId ≠ key) (hinv : svc.deps.inventory = some inv) :
    (svc.rollback (some r)).Always (OrderCommand.Spares (· = key)) := by
  unfold rollback
  rw [hinv]
  dsimp only
  refine Always.bind (always_withClient_spares fun client => ?_) fun _ => trivial
  exact avoids_releaseReservation hs hr client

/-- `CreateOrder` behind the reservation changes no other key when it returns nothing. -/
theorem storeOrder_keeps (hans : Answers database) {rawPayload : Bytes}
    {reservation : Option Reservation} {error : String} {n' : Nat}
    (hrollback : (svc.rollback reservation).Always (OrderCommand.Spares (· = key)))
    (h : (svc.storeOrder e rawPayload reservation).exec (database.serveFaulty luck)
      (b, n) = (.ok (.error error), b', n')) :
    b'.redis.lookup key = b.redis.lookup key := by
  unfold storeOrder at h
  by_cases hstored : luck n = true ∧ database.Stores e b.db
  · rw [exec_bind_ok (exec_insert_faulty_stored hstored.1 hstored.2), if_pos rfl] at h
    -- This end of the call returns an order.
    have hreturns : (do
        svc.putInCache e
        svc.publishEvent (ascii "order.created") e rawPayload
        pure (.ok ⟨e, reservation⟩) : OrderProgram (Except String CreateResult)).Returns
          fun result => ∃ order, result = .ok order :=
      returns_bind _ fun _ => returns_bind _ fun _ => ⟨_, rfl⟩
    obtain ⟨order, hok⟩ := hreturns.exec (congrArg Prod.fst h)
    cases hok
  · obtain ⟨db, hinsert, -⟩ := exec_insert_faulty_refused hans hstored
    rw [exec_bind_ok hinsert, if_neg Bool.false_ne_true] at h
    have hkeeps : (do
        svc.rollback reservation
        pure (.error "Failed to insert order record") :
          OrderProgram (Except String CreateResult)).Always (OrderCommand.Spares (· = key)) :=
      hrollback.bind fun _ => trivial
    exact (spared_exec_faulty hkeeps h).redis key rfl

/-- The end of `CreateOrder` with a refused reservation. -/
theorem storeRefused_faulty (hans : Answers database) (hcache : svc.cacheInUse = some cache)
    (luck : Nat → Bool) (e : OrderEntity) (error : String) (b : Backend δ) (k : Nat) :
    ∃ db n', (svc.storeRefused e error).exec (database.serveFaulty luck) (b, k) =
        (.ok (.error error), { b with
          ticks := b.ticks + 1
          db
          redis := if luck (k + 1) && luck (k + 2) then cache.cached (failed e b) b.redis
            else b.redis }, n') ∧
      insertedBy (svc.storeRefused e error) database luck (b, k) = [failed e b] ∧
      ∀ has, database.Records has (failed e b) →
        (luck k = true ∧ database.Stores (failed e b) b.db → has db (failed e b)) ∧
        (¬(luck k = true ∧ database.Stores (failed e b) b.db) →
          (has db (failed e b) ↔ has b.db (failed e b))) := by
  have hmark : (OrderEntity.markFailed e (ascii "inventory reservation failed")).exec
      (database.serveFaulty luck) (b, k) =
        (.ok (failed e b), { b with ticks := b.ticks + 1 }, k) := rfl
  have hcaches : (svc.putInCache (failed e b)).Always fun c => c.inserted = none := by
    unfold putInCache
    rw [hcache]
    dsimp only
    refine Always.bind (OrderCache.always_setKey rfl rfl) fun _ => ?_
    trivial
  obtain ⟨db, stored, hinsert, hrecords⟩ :=
    exec_insert_faulty hans luck (failed e b) { b with ticks := b.ticks + 1 } k
  obtain ⟨n', hput⟩ := exec_putInCache_faulty hcache luck (failed e b)
    { b with ticks := b.ticks + 1, db } (k + 1)
  refine ⟨db, n', ?_, ?_, hrecords⟩
  · unfold storeRefused
    rw [exec_bind_ok hmark, exec_bind_ok hinsert, exec_bind_ok hput, exec_pure]
  · unfold storeRefused
    rw [insertedBy_bind hmark, insertedBy_bind hinsert, insertedBy_bind hput, insertedBy_insert,
      insertedBy_eq_nil hcaches]
    rfl

theorem exec_createOrder_faulty (hdb : svc.deps.database = true) :
    (svc.createOrder ctx).exec (database.serveFaulty luck) (b, 0) =
      (svc.placeOrder ctx (opened ctx b)).exec (database.serveFaulty luck)
        ({ b with ticks := b.ticks + 3 }, 0) := by
  unfold createOrder
  rw [hdb, Bool.not_true, if_neg Bool.false_ne_true, exec_bind_ok exec_openOrder_faulty]

theorem insertedBy_createOrder (hdb : svc.deps.database = true) :
    insertedBy (svc.createOrder ctx) database luck (b, 0) =
      insertedBy (svc.placeOrder ctx (opened ctx b)) database luck
        ({ b with ticks := b.ticks + 3 }, 0) := by
  unfold createOrder
  rw [hdb, Bool.not_true, if_neg Bool.false_ne_true, insertedBy_bind exec_openOrder_faulty]
  rfl

section Reserving

variable (hres : svc.reservingInventory ctx = some inv)

include hres

theorem placeOrder_faulty_refused (e : OrderEntity) (b : Backend δ) {redis : Dict}
    {error : String}
    (h : (inv.reserveForOrder (luck 0) e.toOrderRecord).execFaulty luck 1 b.redis =
      (.error error, k, redis)) :
    (svc.placeOrder ctx e).exec (database.serveFaulty luck) (b, 0) =
        (svc.storeRefused e error).exec (database.serveFaulty luck)
          ({ b with redis }, k) ∧
      insertedBy (svc.placeOrder ctx e) database luck (b, 0) =
        insertedBy (svc.storeRefused e error) database luck ({ b with redis }, k) := by
  have hreserve : (withClient fun client => inv.reserveForOrder client e.toOrderRecord).exec
      (database.serveFaulty luck) (b, 0) = (.ok (.error error), { b with redis }, k) := by
    rw [exec_withClient_faulty, h]
  unfold placeOrder
  rw [hres]
  dsimp only
  rw [exec_bind_ok hreserve, insertedBy_bind hreserve, insertedBy_withClient]
  exact ⟨rfl, rfl⟩

theorem placeOrder_faulty_granted (e : OrderEntity) (b : Backend δ) {redis : Dict}
    {r : Reservation}
    (h : (inv.reserveForOrder (luck 0) e.toOrderRecord).execFaulty luck 1 b.redis =
      (.ok r, n, redis)) :
    (svc.placeOrder ctx e).exec (database.serveFaulty luck) (b, 0) =
      (svc.storeOrder e ctx.rawPayload (some r)).exec (database.serveFaulty luck)
        ({ b with redis }, n) := by
  have hreserve : (withClient fun client => inv.reserveForOrder client e.toOrderRecord).exec
      (database.serveFaulty luck) (b, 0) = (.ok (.ok r), { b with redis }, n) := by
    rw [exec_withClient_faulty, h]
  unfold placeOrder
  rw [hres]
  dsimp only
  rw [exec_bind_ok hreserve]

end Reserving

theorem lookup_orderKey_reserve {order : OrderRecord} (hcache : svc.cacheInUse = some cache)
    (ha : svc.KeepsApart inv order.productId) (client : Bool) (luck : Nat → Bool) (n : Nat)
    (redis : Dict) (orderId : Bytes) :
    ((inv.reserveForOrder client order).execFaulty luck n redis).2.2.lookup
      (cache.orderKey orderId) = redis.lookup (cache.orderKey orderId) := by
  refine StoreProgram.Avoids.lookup_execFaulty (avoids_reserveForOrder ?_ ?_ client) luck n
  · exact ha.stock cache hcache orderId
  · exact ha.records cache hcache orderId _

/-- Redis behind `CreateOrder` with a refused reservation, and what it does to the database. -/
theorem createOrder_faulty_refused (hans : Answers database) (hcache : svc.cacheInUse = some cache)
    (hdb : svc.deps.database = true) (hres : svc.reservingInventory ctx = some inv)
    (ha : svc.KeepsApart inv ctx.entity.productId)
    (hrec : database.Records has (refusedOrder ctx b))
    (hrefused : inv.refusedAt (luck 0) ctx.entity.toOrderRecord luck 1 b.redis = some k) :
    ∃ error b' n' redis, (svc.createOrder ctx).exec (database.serveFaulty luck) (b, 0) =
        (.ok (.error error), b', n') ∧
      insertedBy (svc.createOrder ctx) database luck (b, 0) = [refusedOrder ctx b] ∧
      (∀ orderId, redis.lookup (cache.orderKey orderId) =
        b.redis.lookup (cache.orderKey orderId)) ∧
      b'.redis = (if luck (k + 1) && luck (k + 2) then cache.cached (refusedOrder ctx b) redis
        else redis) ∧
      (luck k = true ∧ database.Stores (refusedOrder ctx b) b.db →
        has b'.db (refusedOrder ctx b)) ∧
      (¬(luck k = true ∧ database.Stores (refusedOrder ctx b) b.db) →
        (has b'.db (refusedOrder ctx b) ↔ has b.db (refusedOrder ctx b))) := by
  have hplain := lookup_orderKey_reserve hcache ha (luck 0) luck 1 b.redis
  rcases inv.reserveForOrder_refusedAt (luck 0) ctx.entity.toOrderRecord luck 1 b.redis with
    ⟨error, k', redis, hat, hexec⟩ | ⟨hat, -⟩
  · obtain rfl : k = k' := Option.some.inj (hrefused.symm.trans hat)
    rw [hexec] at hplain
    obtain ⟨hplace, hinserted⟩ :=
      placeOrder_faulty_refused hres (opened ctx b) { b with ticks := b.ticks + 3 } hexec
    obtain ⟨db, n', hstore, hrecord, hrecords⟩ := storeRefused_faulty hans hcache luck
      (opened ctx b) error { b with ticks := b.ticks + 3, redis } k
    refine ⟨error, { b with
      ticks := b.ticks + 3 + 1
      db
      redis := if luck (k + 1) && luck (k + 2) then cache.cached (refusedOrder ctx b) redis
        else redis }, n', redis, ?_, ?_, hplain, rfl, hrecords has hrec⟩
    · rw [exec_createOrder_faulty hdb, hplace, hstore]
      rfl
    · rw [insertedBy_createOrder hdb, hinserted, hrecord]
      rfl
  · rw [hrefused] at hat
    cases hat

/-- Without a refused reservation, `CreateOrder` that returns nothing leaves the cache alone. -/
theorem createOrder_faulty_keeps (hans : Answers database) (hcache : svc.cacheInUse = some cache)
    (hdb : svc.deps.database = true)
    (ha : ∀ inv, svc.deps.inventory = some inv → svc.KeepsApart inv ctx.entity.productId)
    (hgranted : ∀ inv, svc.reservingInventory ctx = some inv →
      inv.refusedAt (luck 0) ctx.entity.toOrderRecord luck 1 b.redis = none)
    {error : String} {n' : Nat}
    (h : (svc.createOrder ctx).exec (database.serveFaulty luck) (b, 0) =
      (.ok (.error error), b', n')) (orderId : Bytes) :
    b'.redis.lookup (cache.orderKey orderId) = b.redis.lookup (cache.orderKey orderId) := by
  rw [exec_createOrder_faulty hdb] at h
  cases hres : svc.reservingInventory ctx with
  | none =>
    unfold placeOrder at h
    rw [hres] at h
    dsimp only at h
    have hrollback : (svc.rollback none).Always
        (OrderCommand.Spares (· = cache.orderKey orderId)) := trivial
    have hkept := storeOrder_keeps hans hrollback h
    exact hkept
  | some inv =>
    have hinv := inventory_of_reserving hres
    have hplain := lookup_orderKey_reserve hcache (ha inv hinv) (luck 0) luck 1 b.redis orderId
    rcases inv.reserveForOrder_refusedAt (luck 0) ctx.entity.toOrderRecord luck 1 b.redis with
      ⟨-, k, -, hat, -⟩ | ⟨-, redis, hexec⟩
    · rw [hgranted inv hres] at hat
      cases hat
    · rw [hexec] at hplain
      rw [placeOrder_faulty_granted hres (opened ctx b) { b with ticks := b.ticks + 3 } hexec] at h
      have hrollback : (svc.rollback (some (reservationOf ctx.entity.toOrderRecord))).Always
          (OrderCommand.Spares (· = cache.orderKey orderId)) :=
        rollback_spares ((ha inv hinv).stock cache hcache orderId)
          ((ha inv hinv).records cache hcache orderId _) hinv
      exact (storeOrder_keeps hans hrollback h).trans hplain

/-- The record of a refused order that gets into the cache changes it. -/
theorem CachedUnstored.not_cachesStoredOnly
    (hbad : CachedUnstored svc cache database has inv ctx luck b k) (hans : Answers database)
    (hrec : database.Records has (refusedOrder ctx b)) (hcache : svc.cacheInUse = some cache)
    (ha : svc.KeepsApart inv ctx.entity.productId) :
    ¬CachesStoredOnly svc cache database has ctx luck b := by
  intro hstored
  obtain ⟨error, b', n', redis, hexec, hinserted, hplain, hredis, -, hleft⟩ :=
    createOrder_faulty_refused hans hcache hbad.dependency hbad.reserving ha hrec hbad.refused
  have hnone : ∀ r ∈ insertedBy (svc.createOrder ctx) database luck (b, 0), ¬has b'.db r := by
    rw [hinserted]
    intro r hr
    rw [List.mem_singleton.mp hr]
    exact fun hhas => hbad.absent ((hleft hbad.unstored).mp hhas)
  have hkept := hstored error b' n' hexec hnone ctx.entity.orderId
  refine hbad.differs (hkept.symm.trans ?_)
  rw [hredis, hbad.client, hbad.set, Bool.and_self, if_pos rfl, OrderCache.cached, hbad.pool,
    if_pos rfl]
  exact Finmap.lookup_insert redis

/-- A refused order whose record is not in the database leaves the cache alone otherwise. -/
theorem refused_keeps_cache (hans : Answers database)
    (hrec : database.Records has (refusedOrder ctx b)) (hcache : svc.cacheInUse = some cache)
    (hdb : svc.deps.database = true) (hres : svc.reservingInventory ctx = some inv)
    (ha : svc.KeepsApart inv ctx.entity.productId)
    (hk : inv.refusedAt (luck 0) ctx.entity.toOrderRecord luck 1 b.redis = some k)
    (hno : ¬CachedUnstored svc cache database has inv ctx luck b k) :
    CachesStoredOnly svc cache database has ctx luck b := by
  intro error b' n' hexec hnone orderId
  obtain ⟨error', b₁, n₁, redis, hexec', hinserted, hplain, hredis, htaken, hleft⟩ :=
    createOrder_faulty_refused hans hcache hdb hres ha hrec hk
  obtain rfl : b₁ = b' := congrArg (fun s => s.2.1) (hexec'.symm.trans hexec)
  have habsent : ¬has b₁.db (refusedOrder ctx b) := by
    refine hnone _ ?_
    rw [hinserted]
    exact List.mem_singleton_self _
  have hunstored : ¬(luck k = true ∧ database.Stores (refusedOrder ctx b) b.db) :=
    fun hyes => habsent (htaken hyes)
  rw [hleft hunstored] at habsent
  rw [hredis]
  cases hput : luck (k + 1) && luck (k + 2) with
  | false => exact hplain orderId
  | true =>
    obtain ⟨hclient, hset⟩ := Bool.and_eq_true_iff.mp hput
    refine (OrderCache.lookup_cached_same (fun hpool => ?_) _).trans (hplain orderId)
    refine (hplain ctx.entity.orderId).trans ?_
    by_contra hdiffers
    exact hno ⟨hdb, hres, hk, hunstored, habsent, hpool, hclient, hset, hdiffers⟩

/-- A paid order `o1`, in the table and in the cache, and five pieces of `p`. -/
def paidOrder : Record :=
  { orderId := ascii "o1", userId := ascii "u", productId := ascii "p", quantity := 1,
    totalAmount := 5.0, status := .kPaid }

def paidStart : Backend OrderTable where
  redis := Finmap.insert (({} : OrderCache).orderKey (ascii "o1")) (OrderCache.serializeOrder paidOrder)
    rollbackStart.redis
  db := (OrderTable.rowOf paidOrder).toList
  clock _ := 0
  ticks := 0
  ids _ := []
  issued := 0

/-- Nine pieces under the id of the paid order. -/
def usedIdContext : CreateContext where
  entity := { rollbackContext.entity with quantity := 9 }
  rawPayload := []

end OrderService

end MuduoPlus
