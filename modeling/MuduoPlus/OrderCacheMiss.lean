import MuduoPlus.OrderQueryHandler
import MuduoPlus.OrderServiceExec

namespace MuduoPlus

open Program OrderProgram OrderRepository

/-- The order of the first row that a lookup finds. -/
def firstOrder (rows : List OrderRow) : Option Record := rows.head?.map parseSingle

namespace OrderCache

variable {cache : OrderCache} {orderId text : Bytes} {redis : Dict}

theorem count_serializeOrder (r : Record) : 10 ≤ (serializeOrder r).count 124 := by
  have hcount := length_le_count_joinWith 124 [r.orderId, r.userId, r.productId,
    decimal r.quantity.toNat, fixedTwo r.totalAmount, r.currency, decimal r.status.code.toNat,
    r.statusReason, r.payloadJson, decimalInt r.createdAt.seconds.toInt,
    decimalInt r.updatedAt.seconds.toInt]
  exact Nat.le_of_succ_le_succ hcount

/-- The text is what the cache has of no order. -/
def Unusable (text : Bytes) : Prop := ∀ r, text ≠ serializeOrder r

theorem unusable_of_count (h : text.count 124 < 10) : Unusable text := by
  rintro r rfl
  have hcount := count_serializeOrder r
  omega

/-- What `GetOrder` finds, or raises. -/
def found (cache : OrderCache) (orderId : Bytes) (redis : Dict) :
    Except StdException (Option Record) :=
  if cache.pool then
    match redis.lookup (cache.orderKey orderId) with
    | some text => (deserializeOrder text).map some
    | none => .ok none
  else .ok none

/-- Redis with the text under the key of the order. -/
def entered (cache : OrderCache) (orderId text : Bytes) (redis : Dict) : Dict :=
  redis.insert (cache.orderKey orderId) text

/-- Redis with nothing under the key of the order. -/
def emptied (cache : OrderCache) (orderId : Bytes) (redis : Dict) : Dict :=
  redis.erase (cache.orderKey orderId)

theorem found_entered (hpool : cache.pool = true) :
    cache.found orderId (cache.entered orderId text redis) = (deserializeOrder text).map some := by
  unfold found entered
  rw [if_pos hpool, Finmap.lookup_insert]

theorem found_emptied : cache.found orderId (cache.emptied orderId redis) = .ok none := by
  unfold found emptied
  rw [Finmap.lookup_erase]
  exact ite_self _

theorem found_of_no_pool (hpool : cache.pool = false) : cache.found orderId redis = .ok none := by
  unfold found
  rw [hpool]
  rfl

theorem exec_getOrder {δ : Type} {database : Database δ} {b : Backend δ} :
    (cache.getOrder orderId).exec database.serve b =
      ((cache.found orderId b.redis).mapError .std, b) := by
  unfold getOrder found
  cases hpool : cache.pool with
  | false =>
    have hmiss : (cache.getKey (cache.buildOrderKey orderId)).exec database.serve b =
        (.ok none, b) := by
      unfold getKey
      rw [hpool]
      rfl
    rw [exec_bind_ok hmiss]
    rfl
  | true =>
    rw [exec_bind_ok (exec_getKey hpool _), if_pos rfl]
    change Program.exec _ (decodeWith deserializeOrder (b.redis.lookup (cache.orderKey orderId))) b = _
    cases b.redis.lookup (cache.orderKey orderId) with
    | none => rfl
    | some text =>
      unfold decodeWith
      dsimp only
      cases deserializeOrder text with
      | error e => rfl
      | ok r => rfl

end OrderCache

/-- The program with a text under the key of an order does what it does with nothing there: it
raises nothing, and its results are the same. -/
def CountsAsMiss {α δ : Type} (p : OrderProgram α) (database : Database δ) (cache : OrderCache)
    (orderId text : Bytes) (b : Backend δ) : Prop :=
  ∃ result,
    (p.exec database.serve { b with redis := cache.entered orderId text b.redis }).1 = .ok result ∧
    (p.exec database.serve { b with redis := cache.emptied orderId b.redis }).1 = .ok result

namespace OrderService

/-- The order that the service finds in its database. -/
def inDatabase (svc : OrderService) (rows : List OrderRow) : Option Record :=
  if svc.deps.database then firstOrder rows else none

variable {svc : OrderService} {cache : OrderCache} {orderId text : Bytes} {δ : Type}
  {database : Database δ} {b : Backend δ} {rows : List OrderRow}
  (hrows : database.query (.selectById orderId) b.db = .ok rows)

include hrows

theorem exec_loadOrder :
    ((svc.loadOrder orderId).exec database.serve b).1 = .ok (svc.inDatabase rows) := by
  have hfetch : (svc.fetchFromDatabase orderId).exec database.serve b =
      (.ok (svc.inDatabase rows), b) := by
    unfold fetchFromDatabase inDatabase
    split
    next => exact exec_getById_of_query hrows
    next => rfl
  unfold loadOrder
  rw [exec_bind_ok hfetch]
  cases svc.inDatabase rows with
  | none => rfl
  | some e =>
    dsimp only
    rw [exec_bind_ok (exec_putInCache e), exec_pure]

/-- `GetOrderById` lets through what `GetOrder` raises. -/
theorem exec_getOrderById (hcache : svc.cacheInUse = some cache) :
    ((svc.getOrderById orderId true).exec database.serve b).1 =
      match cache.found orderId b.redis with
      | .error e => .error (.std e)
      | .ok (some r) => .ok (some r)
      | .ok none => .ok (svc.inDatabase rows) := by
  unfold getOrderById fetchFromCache
  rw [if_pos rfl, hcache]
  dsimp only
  cases hfound : cache.found orderId b.redis with
  | error e =>
    have hraise : (cache.getOrder orderId).exec database.serve b = (.error (.std e), b) := by
      rw [OrderCache.exec_getOrder, hfound]
      rfl
    rw [exec_bind_error hraise]
  | ok record =>
    have hget : (cache.getOrder orderId).exec database.serve b = (.ok record, b) := by
      rw [OrderCache.exec_getOrder, hfound]
      rfl
    rw [exec_bind_ok hget]
    cases record with
    | none => exact exec_loadOrder hrows
    | some r => rfl

/-- For the service an entry is a miss only where it reads as the order of the database. -/
theorem getOrderById_countsAsMiss_iff (hcache : svc.cacheInUse = some cache) :
    CountsAsMiss (svc.getOrderById orderId true) database cache orderId text b ↔
      (cache.pool = true →
        ∃ r, OrderCache.deserializeOrder text = .ok r ∧ svc.inDatabase rows = some r) := by
  unfold CountsAsMiss
  rw [exec_getOrderById (b := { b with redis := cache.entered orderId text b.redis }) hrows hcache,
    exec_getOrderById (b := { b with redis := cache.emptied orderId b.redis }) hrows hcache,
    OrderCache.found_emptied]
  cases hpool : cache.pool with
  | false =>
    rw [OrderCache.found_of_no_pool hpool]
    exact iff_of_true ⟨_, rfl, rfl⟩ fun h => absurd h Bool.false_ne_true
  | true =>
    rw [OrderCache.found_entered hpool]
    cases OrderCache.deserializeOrder text with
    | error e =>
      constructor
      · rintro ⟨result, hraised, -⟩
        cases hraised
      · intro h
        obtain ⟨r, hr, -⟩ := h rfl
        cases hr
    | ok r =>
      constructor
      · rintro ⟨result, hhit, hmiss⟩ -
        cases hhit
        exact ⟨r, rfl, Except.ok.inj hmiss⟩
      · intro h
        obtain ⟨r', hr, hdb⟩ := h rfl
        cases hr
        exact ⟨some r, rfl, congrArg Except.ok hdb⟩

end OrderService

namespace OrderQueryHandler

/-- The answer to a lookup. -/
def respondLookup (q : OrderQueryHandler) (resp : HttpResponse) : Option Record → HttpResponse
  | none => q.respondNotFound resp
  | some r => q.respondRecord r resp

section Lookup

variable {q : OrderQueryHandler} {cache : OrderCache} {orderId : Bytes} {req : HttpRequest}
  {resp : HttpResponse} {δ : Type} {database : Database δ} {b : Backend δ} {rows : List OrderRow}
  (hrows : database.query (.selectById orderId) b.db = .ok rows)

include hrows

theorem exec_getFromDatabase :
    ((q.getFromDatabase orderId resp).exec database.serve b).1 =
      .ok (q.respondLookup resp (firstOrder rows)) := by
  have hfetch : (fetchFromDatabase orderId).exec database.serve b =
      (.ok (firstOrder rows), b) := by
    unfold fetchFromDatabase
    rw [exec_tryCatch, exec_getById_of_query hrows]
    rfl
  unfold getFromDatabase
  rw [exec_bind_ok hfetch]
  cases firstOrder rows with
  | none => rfl
  | some r =>
    unfold warmupOrderCache
    cases q.deps.cache with
    | none => rfl
    | some cache =>
      dsimp only
      rw [exec_bind, exec_bind_ok (OrderCache.exec_putOrder cache r), exec_pure]
      rfl

/-- `handleGetById` takes what `GetOrder` raises for a miss. -/
theorem exec_handleGetById (hq : q.deps.cache = some cache) (hid : extractOrderId req = some orderId) :
    ((q.handleGetById req resp).exec database.serve b).1 =
      .ok (match cache.found orderId b.redis with
        | .ok (some r) =>
          if q.options.preferCache then q.respondRecord r resp
          else q.respondLookup resp (firstOrder rows)
        | _ => q.respondLookup resp (firstOrder rows)) := by
  have hfetch : (q.fetchFromCache orderId).exec database.serve b =
      (.ok (match cache.found orderId b.redis with
        | .ok record => record
        | .error _ => none), b) := by
    unfold fetchFromCache
    rw [hq]
    dsimp only
    rw [exec_tryCatch, OrderCache.exec_getOrder]
    cases cache.found orderId b.redis with
    | error e => rfl
    | ok record => rfl
  unfold handleGetById
  rw [hid, hq]
  dsimp only
  cases q.options.preferCache with
  | false =>
    refine (exec_getFromDatabase hrows).trans ?_
    cases cache.found orderId b.redis with
    | error e => rfl
    | ok record =>
      cases record with
      | none => rfl
      | some r => rfl
  | true =>
    rw [Option.isSome_some, Bool.and_self, if_pos rfl, exec_bind_ok hfetch]
    cases cache.found orderId b.redis with
    | error e => exact exec_getFromDatabase hrows
    | ok record =>
      cases record with
      | none => exact exec_getFromDatabase hrows
      | some r => rfl

end Lookup

variable {q : OrderQueryHandler} {cache : OrderCache} {orderId text : Bytes} {req : HttpRequest}
  {resp : HttpResponse} {δ : Type} {database : Database δ} {b : Backend δ} {rows : List OrderRow}

theorem respondRecord_eq_lookup_iff {r : Record} {found : Option Record} :
    q.respondRecord r resp = q.respondLookup resp found ↔
      ∃ r', found = some r' ∧ q.respondRecord r resp = q.respondRecord r' resp := by
  cases found with
  | none =>
    constructor
    · intro h
      have hcode : HttpStatusCode.k200Ok = .k404NotFound := congrArg HttpResponse.statusCode h
      cases hcode
    · rintro ⟨r', hr, -⟩
      cases hr
  | some r' => exact ⟨fun h => ⟨r', rfl, h⟩, fun ⟨_, hr, h⟩ => Option.some.inj hr ▸ h⟩

/-- For the handler an entry that cannot be read is a miss, and any other is taken for the order. -/
theorem handleGetById_countsAsMiss_iff
    (hrows : database.query (.selectById orderId) b.db = .ok rows) (hq : q.deps.cache = some cache)
    (hid : extractOrderId req = some orderId) :
    CountsAsMiss (q.handleGetById req resp) database cache orderId text b ↔
      (cache.pool = true → q.options.preferCache = true →
        ∀ r, OrderCache.deserializeOrder text = .ok r → ∃ r', firstOrder rows = some r' ∧
          q.respondRecord r resp = q.respondRecord r' resp) := by
  unfold CountsAsMiss
  rw [exec_handleGetById (b := { b with redis := cache.entered orderId text b.redis }) hrows hq hid,
    exec_handleGetById (b := { b with redis := cache.emptied orderId b.redis }) hrows hq hid,
    OrderCache.found_emptied]
  cases hpool : cache.pool with
  | false =>
    rw [OrderCache.found_of_no_pool hpool]
    exact iff_of_true ⟨_, rfl, rfl⟩ fun h => absurd h Bool.false_ne_true
  | true =>
    rw [OrderCache.found_entered hpool]
    cases OrderCache.deserializeOrder text with
    | error e =>
      refine iff_of_true ⟨_, rfl, rfl⟩ fun _ _ r hr => ?_
      cases hr
    | ok r =>
      cases q.options.preferCache with
      | false => exact iff_of_true ⟨_, rfl, rfl⟩ fun _ h => absurd h Bool.false_ne_true
      | true =>
        constructor
        · rintro ⟨result, hhit, hmiss⟩ - - r' hr
          cases hr
          exact respondRecord_eq_lookup_iff.mp (Except.ok.inj (hhit.trans hmiss.symm))
        · intro hsame
          have hanswer := respondRecord_eq_lookup_iff.mpr (hsame rfl rfl r rfl)
          exact ⟨_, rfl, congrArg Except.ok hanswer.symm⟩

/-- Both ways to read an order take the entry for a miss exactly where it makes no difference: it
reads as the order that the database finds. -/
theorem entry_countsAsMiss_iff {svc : OrderService}
    (hrows : database.query (.selectById orderId) b.db = .ok rows)
    (hcache : svc.cacheInUse = some cache) (hq : q.deps.cache = some cache)
    (hid : extractOrderId req = some orderId) :
    CountsAsMiss (svc.getOrderById orderId true) database cache orderId text b ∧
        CountsAsMiss (q.handleGetById req resp) database cache orderId text b ↔
      (cache.pool = true →
        ∃ r, OrderCache.deserializeOrder text = .ok r ∧ svc.inDatabase rows = some r) := by
  rw [svc.getOrderById_countsAsMiss_iff hrows hcache, handleGetById_countsAsMiss_iff hrows hq hid]
  refine ⟨And.left, fun h => ⟨h, ?_⟩⟩
  intro hpool _ r hr
  obtain ⟨r', hr', hdb⟩ := h hpool
  obtain rfl : r = r' := Except.ok.inj (hr.symm.trans hr')
  unfold OrderService.inDatabase at hdb
  split at hdb
  next => exact ⟨r, hdb, rfl⟩
  next => cases hdb

/-- An order without a quantity, and a service and a handler with one cache. -/
def lookupOrder : Record :=
  { orderId := ascii "o1", userId := ascii "u", productId := ascii "p", quantity := 0 }

def lookupService : OrderService where
  deps := ⟨true, some {}, none, false⟩
  options := {}

def lookupHandler : OrderQueryHandler where
  deps := ⟨true, some {}⟩
  options := {}
  json := .readerOf [] .null

def lookupRequest : HttpRequest := HttpRequest.new.setQueryParameters (ascii "id=o1")

def lookupStart : Backend OrderTable where
  redis := ∅
  db := (OrderTable.rowOf lookupOrder).toList
  clock _ := 0
  ticks := 0
  ids _ := []
  issued := 0

/-- A text that is cut off behind its quantity, which happens to read as the order. -/
theorem entry_countsAsMiss_cutOff :
    OrderCache.Unusable (ascii "o1|u|p|0") ∧
      CountsAsMiss (lookupService.getOrderById (ascii "o1") true) OrderTable.database {}
        (ascii "o1") (ascii "o1|u|p|0") lookupStart ∧
      CountsAsMiss (lookupHandler.handleGetById lookupRequest (.new false)) OrderTable.database {}
        (ascii "o1") (ascii "o1|u|p|0") lookupStart := by
  refine ⟨OrderCache.unusable_of_count (by decide), ?_⟩
  refine (entry_countsAsMiss_iff rfl rfl rfl (by decide +kernel)).mpr fun _ => ⟨lookupOrder, ?_, ?_⟩
  · decide +kernel
  · decide +kernel

/-- Under the id of no order: the service raises on a text that it cannot read, and one that is cut
off is answered as an order by both. -/
theorem unusable_entry_not_missed :
    let start : Backend OrderTable := { lookupStart with db := [] }
    let entry (text : Bytes) : Backend OrderTable :=
      { start with redis := ({} : OrderCache).entered (ascii "o1") text start.redis }
    OrderCache.Unusable (ascii "?") ∧ OrderCache.Unusable (ascii "o1|u|p|5") ∧
      ((lookupService.getOrderById (ascii "o1") true).exec OrderTable.database.serve start).1 =
        .ok none ∧
      ((lookupService.getOrderById (ascii "o1") true).exec OrderTable.database.serve
        (entry (ascii "?"))).1 = .error (.std .invalidArgument) ∧
      ((lookupService.getOrderById (ascii "o1") true).exec OrderTable.database.serve
        (entry (ascii "o1|u|p|5"))).1.toOption.map Option.isSome = some true ∧
      ((lookupHandler.handleGetById lookupRequest (.new false)).exec OrderTable.database.serve
        start).1.toOption.map (·.statusCode) = some .k404NotFound ∧
      ((lookupHandler.handleGetById lookupRequest (.new false)).exec OrderTable.database.serve
        (entry (ascii "o1|u|p|5"))).1.toOption.map (·.statusCode) = some .k200Ok := by
  refine ⟨OrderCache.unusable_of_count (by decide), OrderCache.unusable_of_count (by decide), ?_⟩
  decide +kernel

end OrderQueryHandler

end MuduoPlus
