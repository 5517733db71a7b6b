import MuduoPlus.InventoryLedger
import MuduoPlus.OrderServiceExec
import MuduoPlus.RedisKeys

namespace MuduoPlus

inductive LifecycleCall where
  | create (ctx : CreateContext)
  | update (orderId : Bytes) (status : OrderStatus) (reason : Bytes)
  | cancel (orderId reason : Bytes)

/-- The backend, and the granted reservations of the orders that were not cancelled since. -/
structure Lifecycle (δ : Type) where
  backend : Backend δ
  live : List Reservation

namespace OrderService

open Program OrderProgram OrderRepository InventoryService

variable {svc : OrderService} {inv : InventoryService} {δ : Type} {database : Database δ}
  {charset : Charset} {rows : δ → OrderTable} {s : Lifecycle δ} {initial : Dict}

/-- The reservation that `CreateOrder` returns. -/
def grantedBy : Except OrderException (Except String CreateResult) → List Reservation
  | .ok (.ok result) => result.reservation.toList
  | _ => []

def applyLifecycle (svc : OrderService) (database : Database δ) :
    LifecycleCall → Lifecycle δ → Lifecycle δ
  | .create ctx, s =>
    let out := (svc.createOrder ctx).exec database.serve s.backend
    ⟨out.2, s.live ++ grantedBy out.1⟩
  | .update orderId status reason, s =>
    { s with backend := ((svc.updateStatus orderId status reason).exec database.serve s.backend).2 }
  | .cancel orderId reason, s =>
    let out := (svc.cancelOrder orderId reason true).exec database.serve s.backend
    ⟨out.2, match out.1 with
      | .ok true => s.live.filter (·.orderId ≠ orderId)
      | _ => s.live⟩

/-- One call after the other, from an empty table. The orders have different ids and fit the
table, so that it takes them. -/
def lifecycleSystem (svc : OrderService) (database : Database δ) (rows : δ → OrderTable)
    (initial : Dict) : ActionSystem (Lifecycle δ) LifecycleCall where
  init s := s.backend.redis = initial ∧ rows s.backend.db = [] ∧ s.live = []
  permitted
    | .create ctx, s =>
      OrderTable.Fits ctx.entity ∧ ∀ row ∈ rows s.backend.db, row.orderId ≠ ctx.entity.orderId
    | _, _ => True
  apply := svc.applyLifecycle database

/-- The strings of the calls are plain and product ids have no NUL; only an order that holds a
granted reservation is cancelled, or none at all. -/
def HoldsReservation (charset : Charset) (rows : δ → OrderTable) :
    LifecycleCall → Lifecycle δ → Prop
  | .create ctx, _ => ctx.Plain charset ∧ 0 ∉ ctx.entity.productId
  | .update orderId status reason, _ =>
    (Statement.updateStatus orderId status reason).Plain charset
  | .cancel orderId reason, s =>
    (Statement.updateStatus orderId .kCancelled reason).Plain charset ∧
      ((∃ r ∈ s.live, r.orderId = orderId) ∨ ∀ row ∈ rows s.backend.db, row.orderId ≠ orderId)

/-- The stock of every product is what it was at first, less what the live orders hold. -/
def StockConserved (inv : InventoryService) (initial : Dict) (s : Lifecycle δ) : Prop :=
  ∀ productId n, 0 ∉ productId → inv.storedStock productId initial = some n →
    ∃ m, inv.storedStock productId s.backend.redis = some m ∧ m + heldOf productId s.live = n

theorem storedStock_cachedBy (hp : inv.DefaultPrefixes)
    (hc : ∀ cache, svc.cacheInUse = some cache → cache.options.keyPrefix = ascii "order:")
    (r : Record) (redis : Dict) (productId : Bytes) :
    inv.storedStock productId (svc.cachedBy r redis) = inv.storedStock productId redis := by
  apply storedStock_congr
  apply lookup_cachedBy
  intro cache hcache orderId
  exact OrderCache.stockKey_ne_orderKey hp (hc cache hcache) productId orderId

/-- The row carries what the reservation is about. -/
def RowOf (row : OrderRow) (r : Reservation) : Prop :=
  row.orderId = r.orderId ∧ row.productId = r.productId ∧ row.quantity.toUInt32 = r.quantity

structure LifecycleInv (inv : InventoryService) (rows : δ → OrderTable) (initial : Dict)
    (s : Lifecycle δ) : Prop where
  stock : StockConserved inv initial s
  held : ∀ r ∈ s.live, ∃ row ∈ rows s.backend.db, RowOf row r
  whole : ∀ row ∈ rows s.backend.db, 0 ∉ row.productId
  keys : ((rows s.backend.db).map (·.orderId)).Nodup
  single : (s.live.map (·.orderId)).Nodup

/-- A new order, with the reservation it was granted. -/
theorem LifecycleInv.added (h : LifecycleInv inv rows initial s) {b' : Backend δ}
    {row : OrderRow} (granted : Option Reservation) (hdb : rows b'.db = rows s.backend.db ++ [row])
    (hnul : 0 ∉ row.productId) (hnew : ∀ old ∈ rows s.backend.db, old.orderId ≠ row.orderId)
    (hgranted : ∀ r ∈ granted, RowOf row r)
    (hstock : StockConserved inv initial ⟨b', s.live ++ granted.toList⟩) :
    LifecycleInv inv rows initial ⟨b', s.live ++ granted.toList⟩ := by
  refine ⟨hstock, ?_, ?_, ?_, ?_⟩
  · intro r hr
    rw [hdb]
    rcases List.mem_append.mp hr with hr | hr
    · obtain ⟨old, hold, hrow⟩ := h.held r hr
      exact ⟨old, List.mem_append_left _ hold, hrow⟩
    · exact ⟨row, List.mem_append_right _ List.mem_cons_self, hgranted r (by simpa using hr)⟩
  · rw [hdb]
    intro old hold
    rcases List.mem_append.mp hold with hold | hold
    · exact h.whole old hold
    · rw [List.mem_singleton.mp hold]
      exact hnul
  · rw [hdb, List.map_append]
    refine List.Nodup.append h.keys (List.nodup_singleton _) ?_
    intro id hid hid'
    obtain ⟨old, hold, rfl⟩ := List.mem_map.mp hid
    exact hnew old hold (List.mem_singleton.mp hid')
  · cases granted with
    | none =>
      simp only [Option.toList_none, List.append_nil]
      exact h.single
    | some r =>
      rw [Option.toList_some, List.map_append]
      refine List.Nodup.append h.single (List.nodup_singleton _) ?_
      intro id hid hid'
      obtain ⟨held, hheld, rfl⟩ := List.mem_map.mp hid
      obtain ⟨old, hold, hrow⟩ := h.held held hheld
      have hid : held.orderId = r.orderId := List.mem_singleton.mp hid'
      have hr := hgranted r rfl
      exact hnew old hold (hrow.1.trans (hid.trans hr.1.symm))

/-- Rewritten rows that keep id, product and quantity, with the same stocks. -/
theorem LifecycleInv.rewritten (h : LifecycleInv inv rows initial s) {b' : Backend δ}
    {id : Bytes} {f : OrderRow → OrderRow}
    (hdb : rows b'.db = OrderTable.rewriteRows id f (rows s.backend.db))
    (hf : ∀ row, (f row).orderId = row.orderId ∧ (f row).productId = row.productId ∧
      (f row).quantity = row.quantity) {live : List Reservation} (hlive : live.Sublist s.live)
    (hstock : StockConserved inv initial ⟨b', live⟩) : LifecycleInv inv rows initial ⟨b', live⟩ := by
  refine ⟨hstock, ?_, ?_, ?_, ?_⟩
  · intro r hr
    obtain ⟨row, hrow, hof⟩ := h.held r (hlive.subset hr)
    rw [hdb]
    refine ⟨_, List.mem_map_of_mem hrow, ?_⟩
    split
    next =>
      obtain ⟨hid, hpid, hq⟩ := hf row
      exact ⟨hid.trans hof.1, hpid.trans hof.2.1, (congrArg _ hq).trans hof.2.2⟩
    next => exact hof
  · intro row hrow
    rw [hdb] at hrow
    obtain ⟨old, hold, rfl⟩ := OrderTable.mem_rewriteRows hrow
    split
    next =>
      rw [(hf old).2.1]
      exact h.whole old hold
    next => exact h.whole old hold
  · rw [hdb, OrderTable.map_orderId_rewriteRows fun row => (hf row).1]
    exact h.keys
  · exact h.single.sublist (hlive.map _)

theorem LifecycleInv.update (hk : database.KeepsOrders (Statement.Plain charset) rows)
    (hdb : svc.deps.database = true) (hp : inv.DefaultPrefixes)
    (hc : ∀ cache, svc.cacheInUse = some cache → cache.options.keyPrefix = ascii "order:")
    (h : LifecycleInv inv rows initial s) {orderId : Bytes} {status : OrderStatus} {reason : Bytes}
    (hplain : (Statement.updateStatus orderId status reason).Plain charset) :
    LifecycleInv inv rows initial (svc.applyLifecycle database (.update orderId status reason) s) := by
  have hadmits : svc.Admits (OrderCommand.Spares fun key => ∃ p, key = inv.stockKey p) := by
    apply admits_spares
    rintro cache hcache id ⟨p, hkey⟩
    exact OrderCache.stockKey_ne_orderKey hp (hc cache hcache) p id hkey.symm
  have hspared := spared_updateStatus (b := s.backend) hk hdb hadmits hplain
  refine h.rewritten ((congrArg rows hspared.db).trans (hk.update hplain trivial _))
    (fun row => ⟨rfl, rfl, rfl⟩) (List.Sublist.refl _) ?_
  intro productId n hnul hn
  obtain ⟨m, hm, hsum⟩ := h.stock productId n hnul hn
  refine ⟨m, ?_, hsum⟩
  rw [← hm]
  exact storedStock_congr (hspared.redis _ ⟨productId, rfl⟩)

/-- Without the one reservation of an order. -/
theorem filter_eq_erase {live : List Reservation} (hsingle : (live.map (·.orderId)).Nodup)
    {r : Reservation} (hr : r ∈ live) : live.filter (·.orderId ≠ r.orderId) = live.erase r := by
  rw [(List.Nodup.of_map _ hsingle).erase_eq_filter]
  apply List.filter_congr
  intro r' hr'
  by_cases he : r' = r
  · simp [he]
  · have hne : r'.orderId ≠ r.orderId := fun hid => he (List.inj_on_of_nodup_map hsingle hr' hr hid)
    simp [he, hne]

theorem storedStock_givenBack_self (hinv : svc.deps.inventory = some inv)
    (hredis : inv.deps.redis = true) (hp : inv.DefaultPrefixes) {r : Record} {redis : Dict} {n : Nat}
    (hs : inv.storedStock r.productId redis = some n) (hfits : n + r.quantity.toNat < 2 ^ 64) :
    inv.storedStock r.productId (svc.givenBack r true redis) = some (n + r.quantity.toNat) := by
  simp only [givenBack, hinv, if_true]
  rw [releaseReservation_exec (r := ⟨[], r.orderId, r.productId, r.quantity⟩) hredis hs]
  exact storedStock_released_self (r := ⟨[], r.orderId, r.productId, r.quantity⟩) hp hfits

theorem storedStock_givenBack_other (hinv : svc.deps.inventory = some inv)
    (hredis : inv.deps.redis = true) (hp : inv.DefaultPrefixes) {r : Record} {redis : Dict} {p : Bytes}
    (hr : 0 ∉ r.productId) (h : 0 ∉ p) (hne : p ≠ r.productId) :
    inv.storedStock p (svc.givenBack r true redis) = inv.storedStock p redis := by
  simp only [givenBack, hinv, if_true]
  cases hs : inv.storedStock r.productId redis with
  | none => rw [releaseReservation_unreadable (r := ⟨[], r.orderId, r.productId, r.quantity⟩) hs]
  | some n =>
    rw [releaseReservation_exec (r := ⟨[], r.orderId, r.productId, r.quantity⟩) hredis hs]
    exact storedStock_released_other hp hr h hne

/-- A cancelled order gives back what it holds. -/
theorem StockConserved.givenBack (hinv : svc.deps.inventory = some inv)
    (hredis : inv.deps.redis = true) (hp : inv.DefaultPrefixes) (h : StockConserved inv initial s)
    {r : Reservation} (hr : r ∈ s.live) {row : OrderRow} (hof : RowOf row r)
    (hnul : 0 ∉ row.productId) {b' : Backend δ}
    (hstock : ∀ p, inv.storedStock p b'.redis =
      inv.storedStock p (svc.givenBack (parseSingle row) true s.backend.redis)) :
    StockConserved inv initial ⟨b', s.live.erase r⟩ := by
  obtain ⟨-, hpid, hq⟩ := hof
  have hparsed : (parseSingle row).productId = r.productId := hpid
  have hquantity : (parseSingle row).quantity = r.quantity := hq
  intro p n hp' hn
  obtain ⟨m, hm, hsum⟩ := h p n hp' hn
  have herase := heldOf_erase p hr
  have hlt := storedStock_lt hn
  dsimp only
  rw [hstock p]
  by_cases he : p = r.productId
  · subst he
    have hself := heldOf_self (r := r)
    refine ⟨m + r.quantity.toNat, ?_, by omega⟩
    rw [← hparsed, ← hquantity]
    apply storedStock_givenBack_self hinv hredis hp
    · rw [hparsed]
      exact hm
    · rw [hquantity]
      omega
  · have hother : heldOf p [r] = 0 := heldOf_other (Ne.symm he)
    refine ⟨m, ?_, by omega⟩
    rw [storedStock_givenBack_other hinv hredis hp hnul hp' (hparsed ▸ he)]
    exact hm

theorem LifecycleInv.cancel (hk : database.KeepsOrders (Statement.Plain charset) rows)
    (hdb : svc.deps.database = true) (hinv : svc.deps.inventory = some inv)
    (hredis : inv.deps.redis = true) (hp : inv.DefaultPrefixes)
    (hc : ∀ cache, svc.cacheInUse = some cache → cache.options.keyPrefix = ascii "order:")
    (h : LifecycleInv inv rows initial s) {r : Reservation} (hr : r ∈ s.live) {reason : Bytes}
    (hplain : (Statement.updateStatus r.orderId .kCancelled reason).Plain charset) :
    LifecycleInv inv rows initial (svc.applyLifecycle database (.cancel r.orderId reason) s) := by
  obtain ⟨row, hrow, hof⟩ := h.held r hr
  have hfind := OrderTable.find?_of_nodup h.keys hrow
  rw [hof.1] at hfind
  obtain ⟨found, redis, hexec, hlookup⟩ :=
    exec_cancelOrder hk hplain.selectById hdb hplain hfind true
  have hstock : ∀ p, inv.storedStock p redis = inv.storedStock p
      (if found then svc.givenBack (parseSingle row) true s.backend.redis else s.backend.redis) := by
    intro p
    apply storedStock_congr
    apply hlookup
    intro cache hcache orderId
    exact OrderCache.stockKey_ne_orderKey hp (hc cache hcache) p orderId
  have hrows : rows (database.update (.updateStatus r.orderId .kCancelled reason) s.backend.db).2 =
      OrderTable.rewriteRows r.orderId (OrderTable.withStatus .kCancelled reason)
        (rows s.backend.db) := hk.update hplain trivial _
  unfold applyLifecycle
  dsimp only
  rw [hexec]
  cases found with
  | false =>
    refine h.rewritten (f := OrderTable.withStatus .kCancelled reason) hrows
      (fun row => ⟨rfl, rfl, rfl⟩) (List.Sublist.refl _) ?_
    intro p n hp' hn
    obtain ⟨m, hm, hsum⟩ := h.stock p n hp' hn
    exact ⟨m, (hstock p).trans hm, hsum⟩
  | true =>
    dsimp only
    rw [filter_eq_erase h.single hr]
    refine h.rewritten (f := OrderTable.withStatus .kCancelled reason) hrows
      (fun row => ⟨rfl, rfl, rfl⟩) List.erase_sublist ?_
    exact h.stock.givenBack hinv hredis hp hr hof (h.whole row hrow) hstock

/-- An order that is stored without a reservation, or with a refused one. -/
theorem LifecycleInv.unreserved (h : LifecycleInv inv rows initial s) {b' : Backend δ}
    {row : OrderRow} (hdb : rows b'.db = rows s.backend.db ++ [row]) (hnul : 0 ∉ row.productId)
    (hnew : ∀ old ∈ rows s.backend.db, old.orderId ≠ row.orderId)
    (hstock : ∀ p, inv.storedStock p b'.redis = inv.storedStock p s.backend.redis) :
    LifecycleInv inv rows initial ⟨b', s.live ++ []⟩ := by
  refine h.added none hdb hnul hnew (fun r hr => by cases hr) ?_
  intro p n hp' hn
  obtain ⟨m, hm, hsum⟩ := h.stock p n hp' hn
  refine ⟨m, (hstock p).trans hm, ?_⟩
  rw [Option.toList_none, List.append_nil]
  exact hsum

/-- An order that is stored with a granted reservation: its quantity leaves the stock. -/
theorem LifecycleInv.reserved (hp : inv.DefaultPrefixes) (h : LifecycleInv inv rows initial s)
    {b' : Backend δ} {row : OrderRow} {order : OrderRecord} {n : Nat}
    (hdb : rows b'.db = rows s.backend.db ++ [row]) (hnul : 0 ∉ order.productId)
    (hnew : ∀ old ∈ rows s.backend.db, old.orderId ≠ row.orderId)
    (hof : RowOf row (reservationOf order))
    (hs : inv.storedStock order.productId s.backend.redis = some n) (hq : order.quantity.toNat ≤ n)
    (hstock : ∀ p, inv.storedStock p b'.redis =
      inv.storedStock p (inv.reserved order n s.backend.redis)) :
    LifecycleInv inv rows initial ⟨b', s.live ++ [reservationOf order]⟩ := by
  have hpid : row.productId = order.productId := hof.2.1
  refine h.added (some (reservationOf order)) hdb (hpid ▸ hnul) hnew ?_ ?_
  · intro r hr
    obtain rfl := Option.mem_some.mp hr
    exact hof
  · intro p k hp' hk
    obtain ⟨m, hm, hsum⟩ := h.stock p k hp' hk
    dsimp only
    rw [hstock p, Option.toList_some, heldOf_append]
    by_cases he : p = order.productId
    · subst he
      have hself : heldOf order.productId [reservationOf order] = order.quantity.toNat :=
        heldOf_self (r := reservationOf order)
      have hmn : m = n := Option.some.inj (hm.symm.trans hs)
      exact ⟨_, storedStock_reserved_self hp hs, by omega⟩
    · have hother : heldOf p [reservationOf order] = 0 := heldOf_other (Ne.symm he)
      refine ⟨m, ?_, by omega⟩
      rw [storedStock_reserved_other hp hnul hp' he]
      exact hm

theorem LifecycleInv.create (hk : database.KeepsOrders (Statement.Plain charset) rows)
    (hdb : svc.deps.database = true) (hinv : svc.deps.inventory = some inv)
    (hp : inv.DefaultPrefixes)
    (hc : ∀ cache, svc.cacheInUse = some cache → cache.options.keyPrefix = ascii "order:")
    (h : LifecycleInv inv rows initial s) {ctx : CreateContext} (hfits : OrderTable.Fits ctx.entity)
    (hnew : ∀ row ∈ rows s.backend.db, row.orderId ≠ ctx.entity.orderId)
    (hplain : ctx.Plain charset) (hnul : 0 ∉ ctx.entity.productId) :
    LifecycleInv inv rows initial (svc.applyLifecycle database (.create ctx) s) := by
  -- The pending order and the failed one differ from the entity in status, texts and times only.
  have hopened : OrderTable.Fits (opened ctx s.backend) := hfits
  have hrefused : OrderTable.Fits (refusedOrder ctx s.backend) := hfits
  obtain ⟨amount, hrow⟩ := OrderTable.exists_rowOf hopened
  obtain ⟨amount', hrow'⟩ := OrderTable.exists_rowOf hrefused
  have hinsert : (Statement.insert (opened ctx s.backend)).Plain charset :=
    plain_insert hplain (by simp) _ _ _
  have hinsert' : (Statement.insert (refusedOrder ctx s.backend)).Plain charset :=
    plain_insert hplain (by simp) _ _ _
  obtain ⟨n, hn, hi⟩ := hk.insert_counted hinsert hrow hnew
  obtain ⟨n', -, hi'⟩ := hk.insert_counted hinsert' hrow' hnew
  have hof : RowOf (OrderTable.rowWith (opened ctx s.backend) amount)
      (reservationOf ctx.entity.toOrderRecord) := ⟨rfl, rfl, OrderTable.rowWith_quantity amount⟩
  unfold applyLifecycle
  dsimp only
  cases hres : svc.reservingInventory ctx with
  | none =>
    rw [createOrder_unreserved hdb hres hn hi]
    exact h.unreserved (hk.rows_insert hinsert hrow hnew) hnul hnew (storedStock_cachedBy hp hc _ _)
  | some inv' =>
    obtain rfl := Option.some.inj ((inventory_of_reserving hres).symm.trans hinv)
    by_cases hg : inv'.Grants ctx.entity.toOrderRecord s.backend.redis
    · obtain ⟨hredis, horders, k, hs, hq⟩ := hg
      rw [createOrder_granted hdb hres (reserveForOrder_granted hredis horders hs hq) hn hi]
      exact h.reserved hp (hk.rows_insert hinsert hrow hnew) hnul hnew hof hs hq
        (storedStock_cachedBy hp hc _ _)
    · obtain ⟨error, he⟩ := reserveForOrder_of_not_grants hg
      rw [createOrder_refused hdb hres he hi']
      exact h.unreserved (hk.rows_insert hinsert' hrow' hnew) hnul hnew
        (storedStock_cachedBy hp hc _ _)

theorem LifecycleInv.missing (hk : database.KeepsOrders (Statement.Plain charset) rows)
    (hdb : svc.deps.database = true) (h : LifecycleInv inv rows initial s) {orderId : Bytes}
    (hplain : (Statement.selectById orderId).Plain charset)
    (hmissing : ∀ row ∈ rows s.backend.db, row.orderId ≠ orderId) (reason : Bytes) :
    LifecycleInv inv rows initial (svc.applyLifecycle database (.cancel orderId reason) s) := by
  simp only [applyLifecycle, exec_cancelOrder_missing hk hplain hdb hmissing reason true]
  exact h

theorem LifecycleInv.init (hredis : s.backend.redis = initial) (hdb : rows s.backend.db = [])
    (hlive : s.live = []) : LifecycleInv inv rows initial s := by
  refine ⟨?_, ?_, ?_, ?_, ?_⟩
  · intro p n _ hn
    rw [hredis, hlive]
    exact ⟨n, hn, rfl⟩
  · simp [hlive]
  · simp [hdb]
  · simp [hdb]
  · simp [hlive]

/-- The stock is conserved over whole lifecycles, as long as only orders that hold a granted
reservation are cancelled. -/
theorem stock_conserved_of_holdsReservation
    (hk : database.KeepsOrders (Statement.Plain charset) rows) (hdb : svc.deps.database = true)
    (hinv : svc.deps.inventory = some inv) (hredis : inv.deps.redis = true)
    (hp : inv.DefaultPrefixes)
    (hc : ∀ cache, svc.cacheInUse = some cache → cache.options.keyPrefix = ascii "order:")
    (hs : ((svc.lifecycleSystem database rows initial).restrict
      (HoldsReservation charset rows)).Reachable s) :
    StockConserved inv initial s := by
  have hi : LifecycleInv inv rows initial s := by
    apply hs.invariant
    · intro s h0
      exact LifecycleInv.init h0.1 h0.2.1 h0.2.2
    · intro call s hperm h
      obtain ⟨hperm, hholds⟩ := hperm
      cases call with
      | create ctx => exact h.create hk hdb hinv hp hc hperm.1 hperm.2 hholds.1 hholds.2
      | update orderId status reason => exact h.update hk hdb hp hc hholds
      | cancel orderId reason =>
        obtain ⟨hplain, ⟨r, hr, rfl⟩ | hmissing⟩ := hholds
        · exact h.cancel hk hdb hinv hredis hp hc hr hplain
        · exact h.missing hk hdb hplain.selectById hmissing reason
  exact hi.stock

def shopOrders : OrderService := ⟨⟨true, some {}, some shopService, true⟩, {}⟩

theorem cachesOrders_shopOrders : shopOrders.CachesOrders {} where
  database := rfl
  inUse := rfl
  pool := rfl
  orderPrefix := rfl
  inventory inv hinv := by
    rw [← Option.some.inj hinv]
    exact ⟨rfl, rfl⟩

def shopShelf : Dict := Finmap.singleton (ascii "inventory:stock:p") (ascii "5")

/-- The calls, with the table for the database. -/
def shopLifecycles : ActionSystem (Lifecycle OrderTable) LifecycleCall :=
  shopOrders.lifecycleSystem OrderTable.database (fun t => t) shopShelf

def shopOpening : Lifecycle OrderTable := ⟨⟨shopShelf, [], fun _ => 0, 0, fun _ => [], 0⟩, []⟩

def orderOf (orderId : String) (quantity : UInt32) : CreateContext where
  entity :=
    { orderId := ascii orderId, userId := ascii "u", productId := ascii "p", quantity,
      totalAmount := 5.0 }
  rawPayload := ascii "raw"

/-- One order is granted, paid and cancelled, another one is refused. -/
def shopWeek : List LifecycleCall := [
  .create (orderOf "o1" 2), .create (orderOf "o2" 9), .update (ascii "o1") .kPaid (ascii "card"),
  .cancel (ascii "o1") (ascii "returned"), .cancel (ascii "o3") (ascii "unknown")]

theorem stock_conserved_shopWeek :
    let s := shopLifecycles.run shopWeek shopOpening
    s.backend.db.length = 2 ∧ StockConserved shopService shopShelf s := by
  intro s
  have h0 : (shopLifecycles.restrict (HoldsReservation singleByte fun t => t)).Reachable
      shopOpening := .init ⟨rfl, rfl, rfl⟩
  have hp : (shopLifecycles.restrict (HoldsReservation singleByte fun t => t)).Permits shopWeek
      shopOpening := by
    refine ⟨⟨⟨?_, ?_⟩, ?_, ?_⟩, ⟨⟨?_, ?_⟩, ?_, ?_⟩, ⟨trivial, ?_⟩, ⟨trivial, ?_, Or.inl ?_⟩,
      ⟨trivial, ?_, Or.inr ?_⟩, trivial⟩
    on_goal 9 => show (Statement.updateStatus (ascii "o1") .kPaid (ascii "card")).Plain singleByte
    all_goals decide +kernel
  have hrows : s.backend.db.length = 2 := by decide +kernel
  refine ⟨hrows, stock_conserved_of_holdsReservation (OrderTable.keepsOrders_database _) rfl rfl rfl
    ⟨rfl, rfl⟩ ?_ (h0.run hp)⟩
  intro cache hcache
  rw [← Option.some.inj hcache]

/-- A refused order is kept as a failed one, and cancelling it adds to the stock what it never
took. -/
theorem refused_order_cancelled :
    shopLifecycles.Permits
        [.create (orderOf "o2" 9), .cancel (ascii "o2") (ascii "no")] shopOpening ∧
      ¬StockConserved shopService shopShelf (shopLifecycles.run
        [.create (orderOf "o2" 9), .cancel (ascii "o2") (ascii "no")] shopOpening) := by
  refine ⟨⟨⟨?_, ?_⟩, trivial, trivial⟩, ?_⟩
  · decide
  · decide
  · intro hs
    obtain ⟨m, hm, hsum⟩ := hs (ascii "p") 5 (by decide) (by decide)
    have hstock : shopService.storedStock (ascii "p") (shopLifecycles.run
        [.create (orderOf "o2" 9), .cancel (ascii "o2") (ascii "no")] shopOpening).backend.redis =
          some 14 := by decide
    have hm' : m = 14 := Option.some.inj (hm.symm.trans hstock)
    omega

end OrderService

end MuduoPlus
