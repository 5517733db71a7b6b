import MuduoPlus.HttpService
import MuduoPlus.OrderCalls

namespace MuduoPlus

open OrderRepository

namespace InventoryService

variable {svc : InventoryService} {key productId p : Bytes} {redis : Dict} {order : OrderRecord}

/-- A key that the inventory writes. -/
def OwnsKey (svc : InventoryService) (key : Bytes) : Prop :=
  (∃ productId, key = svc.stockKey productId) ∨ ∃ id, key = svc.reservationKey id

theorem OwnsKey.head? (hp : svc.DefaultPrefixes) (h : svc.OwnsKey key) : key.head? = some 105 := by
  rcases h with ⟨productId, rfl⟩ | ⟨id, rfl⟩
  · exact head?_stockKey hp productId
  · exact head?_reservationKey hp id

theorem ownsKey_stockKey (svc : InventoryService) (productId : Bytes) :
    svc.OwnsKey (svc.stockKey productId) :=
  Or.inl ⟨productId, rfl⟩

/-- Products whose keys Redis does not tell apart have one stock. -/
theorem storedStock_of_stockKey (h : svc.stockKey p = svc.stockKey productId) (redis : Dict) :
    svc.storedStock p redis = svc.storedStock productId redis := by
  unfold stockKey at h
  unfold storedStock
  rw [h]

theorem storedStock_reserved_apart (hp : svc.DefaultPrefixes) {stock : Nat}
    (hne : svc.stockKey p ≠ svc.stockKey order.productId) :
    svc.storedStock p (svc.reserved order stock redis) = svc.storedStock p redis := by
  apply storedStock_congr
  have hapart := stockKey_ne_reservationKey (keysApart_of_defaultPrefixes hp p)
    (makeReservationId order)
  rw [reserved, Finmap.lookup_insert_of_ne _ hapart, Finmap.lookup_insert_of_ne _ hne]

/-- What was reserved and given back is in stock again, under whatever id it is given back. -/
theorem storedStock_givenBack (hp : svc.DefaultPrefixes) (hredis : svc.deps.redis = true)
    {stock : Nat} (hs : svc.storedStock order.productId redis = some stock)
    (hq : order.quantity.toNat ≤ stock) {r : Reservation} (hproduct : r.productId = order.productId)
    (hquantity : r.quantity = order.quantity) (reason p : Bytes) :
    svc.storedStock p ((svc.releaseReservation true r reason).exec
      (svc.reserved order stock redis)).2 = svc.storedStock p redis := by
  have hlt := storedStock_lt hs
  have hreserved : svc.storedStock r.productId (svc.reserved order stock redis) =
      some (stock - order.quantity.toNat) := by
    rw [hproduct]
    exact storedStock_reserved_self hp hs
  have hsum : (stock - order.quantity.toNat + r.quantity.toNat) % 2 ^ 64 = stock := by
    rw [hquantity]
    omega
  have hapart := stockKey_ne_reservationKey (keysApart_of_defaultPrefixes hp p) r.reservationId
  rw [releaseReservation_exec hredis hreserved, released, hsum,
    storedStock_congr (Finmap.lookup_erase_ne hapart), hproduct]
  by_cases hkey : svc.stockKey p = svc.stockKey order.productId
  · rw [storedStock_of_stockKey hkey, storedStock_of_stockKey hkey, hs]
    exact storedStock_insert_self hlt
  · rw [storedStock_congr (Finmap.lookup_insert_of_ne _ hkey)]
    exact storedStock_reserved_apart hp hkey

/-- The pieces of a product that orders take. -/
def soldOf (svc : InventoryService) (productId : Bytes) (orders : List Record) : Nat :=
  ((orders.filter fun r => svc.stockKey r.productId = svc.stockKey productId).map fun r =>
    r.quantity.toNat).sum

theorem soldOf_append (orders more : List Record) :
    svc.soldOf productId (orders ++ more) = svc.soldOf productId orders + svc.soldOf productId more := by
  simp [soldOf, List.filter_append]

theorem soldOf_singleton (r : Record) :
    svc.soldOf productId [r] =
      if svc.stockKey r.productId = svc.stockKey productId then r.quantity.toNat else 0 := by
  unfold soldOf
  split
  next h => simp [h]
  next h => simp [h]

end InventoryService

/-- No key of the cache is one of the inventory. -/
structure OrderCache.ApartFrom (cache : OrderCache) (svc : InventoryService) : Prop where
  orders : ∀ orderId, ¬svc.OwnsKey (cache.orderKey orderId)
  users : ∀ userId, ¬svc.OwnsKey (cache.userKey userId)

section Stock

variable {δ : Type} {database : Database δ} {b b' : Backend δ} {cache : OrderCache}
  {svc : InventoryService} {h : OrderCreateHandler} {order : Option Record}
  {asked : Bytes → Prop} {accepted : Record → Bytes → Prop}

open InventoryService

theorem Warms.spared (ha : cache.ApartFrom svc) (hw : Warms cache database asked b b') :
    Spared svc.OwnsKey b b' := by
  have hne : ∀ {key owned : Bytes}, ¬svc.OwnsKey key → svc.OwnsKey owned → owned ≠ key := by
    rintro key owned hno hyes rfl
    exact hno hyes
  cases hw with
  | unchanged => exact spared_refl _ b
  | order hasked hmiss hrow =>
    refine ⟨rfl, fun key hk => ?_⟩
    dsimp only
    unfold OrderCache.cached
    split
    next => exact Finmap.lookup_insert_of_ne _ (hne (ha.orders _) hk)
    next => rfl
  | list userId records =>
    exact ⟨rfl, fun key hk => Finmap.lookup_insert_of_ne _ (hne (ha.users userId) hk)⟩

theorem Spared.storedStock (hs : Spared svc.OwnsKey b b') (productId : Bytes) :
    svc.storedStock productId b'.redis = svc.storedStock productId b.redis :=
  storedStock_congr (hs.redis _ (ownsKey_stockKey svc productId))

theorem lookup_cachedIn_of_ne (hcache : h.deps.cache = some cache) {r : Record} {key : Bytes}
    (hne : key ≠ cache.orderKey r.orderId) (redis : Dict) :
    (h.cachedIn r redis).lookup key = redis.lookup key := by
  unfold OrderCreateHandler.cachedIn
  rw [hcache]
  dsimp only
  unfold OrderCache.cached
  split
  next =>
    split
    next => exact Finmap.lookup_insert_of_ne redis hne
    next => rfl
  next => rfl

theorem storedStock_cachedIn (hcache : h.deps.cache = some cache) (ha : cache.ApartFrom svc)
    (r : Record) (redis : Dict) (productId : Bytes) :
    svc.storedStock productId (h.cachedIn r redis) = svc.storedStock productId redis := by
  apply storedStock_congr
  apply lookup_cachedIn_of_ne hcache
  intro he
  exact ha.orders r.orderId (he ▸ ownsKey_stockKey svc productId)

/-- Nothing is taken from a stock but the quantity of an order that is stored. -/
theorem Creates.storedStock (hc : Creates h svc database accepted b order b') (hp : svc.DefaultPrefixes)
    (hredis : svc.deps.redis = true) (hcache : h.deps.cache = some cache) (ha : cache.ApartFrom svc)
    {productId : Bytes} {n : Nat} (hn : svc.storedStock productId b.redis = some n) :
    ∃ m, svc.storedStock productId b'.redis = some m ∧ m + svc.soldOf productId order.toList = n := by
  cases hc with
  | unchanged => exact ⟨n, hn, rfl⟩
  | @stored record raw stock k haccepted hid hs hq hk hi =>
    rw [Option.toList_some, soldOf_singleton]
    dsimp only
    rw [storedStock_cachedIn hcache ha]
    change ∃ m, _ ∧ m + (if svc.stockKey record.productId = svc.stockKey productId then
      record.quantity.toNat else 0) = n
    by_cases hkey : svc.stockKey record.productId = svc.stockKey productId
    · have hself : svc.storedStock record.productId
          (svc.reserved record.toOrderRecord stock b.redis) = _ := storedStock_reserved_self hp hs
      have hsame : n = stock := by
        rw [← storedStock_of_stockKey hkey, hs] at hn
        exact (Option.some.inj hn).symm
      refine ⟨stock - record.quantity.toNat, ?_, ?_⟩
      · rw [← storedStock_of_stockKey hkey]
        exact hself
      · rw [if_pos hkey]
        omega
    · refine ⟨n, ?_, by rw [if_neg hkey, Nat.add_zero]⟩
      rw [storedStock_reserved_apart hp (Ne.symm hkey)]
      exact hn
  | givenBack haccepted hs hq hi =>
    refine ⟨n, ?_, rfl⟩
    dsimp only
    rw [storedStock_givenBack hp hredis hs hq rfl rfl]
    exact hn

end Stock

/-- A call with its response, and the order that it stored. -/
structure ServedCall where
  call : HttpCall
  response : HttpResponse
  order : Option Record

namespace OrderApplication

variable {δ : Type} {database : Database δ} {o : OrderServerOptions} {json : JsonLibrary}
  {b b₀ : Backend δ} {app : HttpApp (Backend δ)} {s : HttpService (Backend δ)}

open InventoryService

/-- The server's answer, with the order beside it. -/
def serve (database : Database δ) (h : OrderHandlers) (call : HttpCall) (b : Backend δ) :
    ServedCall × Backend δ :=
  (⟨call, ((plugged database h).answer call b).1, orderOf database h b call⟩,
    ((plugged database h).answer call b).2)

/-- The calls of a history in the order in which they are answered. -/
def servedBy (database : Database δ) (h : OrderHandlers) (history : List (Nat × HttpCall))
    (b₀ : Backend δ) : List (Nat × ServedCall) :=
  (serveInTurn (serve database h) history b₀).1

def ordersIn (served : List (Nat × ServedCall)) : List Record :=
  served.filterMap fun entry => entry.2.order

theorem ordersIn_append_singleton (served : List (Nat × ServedCall)) (client : Nat)
    (entry : ServedCall) :
    ordersIn (served ++ [(client, entry)]) = ordersIn served ++ entry.order.toList := by
  unfold ordersIn
  rw [List.filterMap_append]
  cases hentry : entry.order with
  | none => simp [hentry]
  | some r => simp [hentry]

/-- The handlers of a server that was started. -/
def handlers (o : OrderServerOptions) (json : JsonLibrary) : OrderHandlers :=
  initHandlers o json (orderCache o)

theorem answer_serve (hstart : start o json database = .ok app) (call : HttpCall) (b : Backend δ) :
    app.answer call b = ((serve database (handlers o json) call b).1.response,
      (serve database (handlers o json) call b).2) := by
  rw [start_ok hstart]
  rfl

theorem replies_eq (hstart : start o json database = .ok app) (s : HttpService (Backend δ))
    (b₀ : Backend δ) :
    s.replies app b₀ =
      (servedBy database (handlers o json) s.history b₀).map (Prod.map id ServedCall.response) := by
  unfold HttpService.replies
  rw [serveInTurn_map ServedCall.response (answer_serve hstart)]
  rfl

/-- What holds at first and is kept by every call holds in every run of the server. -/
theorem run_invariant (hstart : start o json database = .ok app)
    (hs : (HttpService.serviceSystem app b₀).Reachable s)
    {Q : List (Nat × ServedCall) → Backend δ → Prop} (hinit : Q [] b₀)
    (hcall : ∀ client call, (client, call) ∈ s.history → ∀ served b, Q served b →
      Q (served ++ [(client, (serve database (handlers o json) call b).1)])
        (serve database (handlers o json) call b).2) :
    Q (servedBy database (handlers o json) s.history b₀) s.app := by
  have hserves := HttpService.serves_of_reachable hs
  have hstate : s.app = (serveInTurn (serve database (handlers o json)) s.history b₀).2 := by
    rw [hserves.state, serveInTurn_map ServedCall.response (answer_serve hstart)]
  rw [hstate]
  exact serveInTurn_invariant hinit s.history hcall

theorem head?_of_cString {text : Bytes} {c : UInt8} (h : (cString text).head? = some c) :
    text.head? = some c := by
  cases text with
  | nil => cases h
  | cons d rest =>
    unfold cString at h
    rw [List.takeWhile_cons] at h
    split at h
    next => exact h
    next => cases h

theorem orderCache_apartFrom (hkey : o.redis.keyPrefix.head? ≠ some 105) (svc : InventoryService)
    (hp : svc.DefaultPrefixes) : (orderCache o).ApartFrom svc := by
  have hother : ∀ {key tag rest : Bytes}, tag.head? ≠ some 105 → tag ≠ [] →
      key = cString (o.redis.keyPrefix ++ tag ++ rest) → ¬svc.OwnsKey key := by
    intro key tag rest htag hne he hown
    have hhead := head?_of_cString (he ▸ hown.head? hp)
    cases hfront : o.redis.keyPrefix with
    | nil =>
      cases tag with
      | nil => exact hne rfl
      | cons c tag =>
        rw [hfront] at hhead
        exact htag hhead
    | cons c front =>
      rw [hfront] at hhead hkey
      exact hkey hhead
  exact ⟨fun orderId => hother (by decide) (by decide) rfl,
    fun userId => hother (by decide) (by decide) rfl⟩

/-- What one call does. -/
structure CallSpec (database : Database δ) (o : OrderServerOptions) (h : OrderHandlers)
    (b : Backend δ) (entry : ServedCall) (b' : Backend δ) : Prop where
  other : ¬CreatesOrder entry.call →
    entry.order = none ∧ Warms (orderCache o) database (AsksFor entry.call) b b'
  create : CreatesOrder entry.call →
    Creates h.create (inventoryService o) database (Accepts h entry.call) b entry.order b' ∧
      (entry.order.isSome ↔ entry.response.statusCode = .k200Ok)

theorem serve_spec (o : OrderServerOptions) (json : JsonLibrary)
    (hans : OrderService.Answers database) (call : HttpCall) (b : Backend δ) :
    CallSpec database o (handlers o json) b (serve database (handlers o json) call b).1
      (serve database (handlers o json) call b).2 := by
  constructor
  · intro hother
    change ¬CreatesOrder call at hother
    refine ⟨?_, answer_warms hother b⟩
    cases call with
    | unparsable => rfl
    | request req => exact if_neg hother
  · intro hcreate
    change CreatesOrder call at hcreate
    cases call with
    | unparsable => exact hcreate.elim
    | request req =>
      have haccepted : ∀ record,
          (handlers o json).create.acceptRequest req (openResponse req) = .ok record →
          Accepts (handlers o json) (.request req) record req.content := fun record ha => ⟨ha, rfl⟩
      obtain ⟨answer, b', hexec, hcreates, hsome, hnone⟩ :=
        (handlers o json).create.handle_creates rfl rfl hans req (openResponse req) haccepted b
      have horder : orderOf database (handlers o json) b (.request req) =
          (handlers o json).create.created database b (req, openResponse req) := if_pos hcreate
      have hanswer : (plugged database (handlers o json)).answer (.request req) b = (answer, b') := by
        rw [answer_create hcreate, handlerOf_ok hexec]
      unfold serve
      rw [horder, hanswer]
      refine ⟨hcreates, ?_⟩
      dsimp only
      cases hmade : (handlers o json).create.created database b (req, openResponse req) with
      | none => simpa using hnone hmade
      | some r =>
        rw [hsome r hmade, OrderCreateHandler.respondSuccess_statusCode]
        simp

/-- A call counts as an order exactly when it posts one and is answered with 200. -/
theorem CallSpec.answered {h : OrderHandlers} {entry : ServedCall} {b' : Backend δ}
    (hspec : CallSpec database o h b entry b') :
    entry.order.isSome ↔ CreatesOrder entry.call ∧ entry.response.statusCode = .k200Ok := by
  by_cases hcreate : CreatesOrder entry.call
  · exact (hspec.create hcreate).2.trans (and_iff_right hcreate).symm
  · simp [(hspec.other hcreate).1, hcreate]

theorem answered_append {served : List (Nat × ServedCall)} {client : Nat} {entry : ServedCall}
    (hserved : ∀ e ∈ served, e.2.order.isSome ↔
      CreatesOrder e.2.call ∧ e.2.response.statusCode = .k200Ok)
    (hentry : entry.order.isSome ↔ CreatesOrder entry.call ∧ entry.response.statusCode = .k200Ok) :
    ∀ e ∈ served ++ [(client, entry)], e.2.order.isSome ↔
      CreatesOrder e.2.call ∧ e.2.response.statusCode = .k200Ok := by
  intro e he
  rcases List.mem_append.mp he with he | he
  · exact hserved e he
  · rw [List.mem_singleton.mp he]
    exact hentry

/-- In every run of a started server on one loop, and for every product whose stock is set: the
stock that is left and the quantities of the orders answered with 200 make up the stock there was.
It takes keys of the cache that do not look like those of the inventory, and a database that
answers. -/
theorem stock_accounts_for_orders (hstart : start o json database = .ok app)
    (hkey : o.redis.keyPrefix.head? ≠ some 105) (hans : OrderService.Answers database)
    (hs : (HttpService.serviceSystem app b₀).Reachable s) :
    let served := servedBy database (handlers o json) s.history b₀
    s.replies app b₀ = served.map (Prod.map id ServedCall.response) ∧
      (∀ entry ∈ served, entry.2.order.isSome ↔
        CreatesOrder entry.2.call ∧ entry.2.response.statusCode = .k200Ok) ∧
      ∀ productId n, (inventoryService o).storedStock productId b₀.redis = some n →
        ∃ m, (inventoryService o).storedStock productId s.app.redis = some m ∧
          m + (inventoryService o).soldOf productId (ordersIn served) = n := by
  intro served
  have hapart := orderCache_apartFrom hkey (inventoryService o) ⟨rfl, rfl⟩
  refine ⟨replies_eq hstart s b₀, ?_⟩
  apply run_invariant hstart hs (Q := fun served b =>
    (∀ entry ∈ served, entry.2.order.isSome ↔
        CreatesOrder entry.2.call ∧ entry.2.response.statusCode = .k200Ok) ∧
      ∀ productId n, (inventoryService o).storedStock productId b₀.redis = some n →
        ∃ m, (inventoryService o).storedStock productId b.redis = some m ∧
          m + (inventoryService o).soldOf productId (ordersIn served) = n)
  · refine ⟨by simp, fun productId n hn => ⟨n, hn, ?_⟩⟩
    rfl
  · rintro client call - served b ⟨hentries, hstock⟩
    have hspec := serve_spec o json hans call b
    generalize serve database (handlers o json) call b = served' at hspec ⊢
    obtain ⟨entry, b'⟩ := served'
    refine ⟨answered_append hentries hspec.answered, fun productId n hn => ?_⟩
    by_cases hcreate : CreatesOrder entry.call
    · obtain ⟨k, hk, hsum⟩ := hstock productId n hn
      obtain ⟨m, hm, hsold⟩ :=
        (hspec.create hcreate).1.storedStock ⟨rfl, rfl⟩ rfl rfl hapart hk
      refine ⟨m, hm, ?_⟩
      rw [ordersIn_append_singleton, soldOf_append]
      omega
    · obtain ⟨hnone, hwarms⟩ := hspec.other hcreate
      rw [ordersIn_append_singleton, hnone, Option.toList_none, List.append_nil,
        (hwarms.spared hapart).storedStock]
      exact hstock productId n hn

/-- A server without a message queue. -/
def lampOptions : OrderServerOptions where
  database := { connInfo := { url := ascii "h", user := ascii "u", database := ascii "d" } }

/-- Five lamps in stock and no order. -/
def lampShelf : Backend OrderTable where
  redis := Finmap.singleton (ascii "inventory:stock:p") (ascii "5")
  db := []
  clock _ := 0
  ticks := 0
  ids n := generateOrderId (Int64.ofNat (1000 * n))
  issued := 0

def lampApp : HttpApp (Backend OrderTable) :=
  plugged OrderTable.database (handlers lampOptions OrderCreateHandler.lampHandler.json)

def lampServer : HttpService (Backend OrderTable) where
  app := lampShelf
  conn i := TcpConnection.new ⟨∅, ⟨{7}, ∅⟩⟩ i 7 false false true ⟨.empty, lampShelf, []⟩
  history := []

/-- Two lamps are ordered; the request arrives in two pieces. -/
def lampPost : Bytes :=
  ascii "POST /orders HTTP/1.1\r\nContent-Length: " ++ decimal OrderCreateHandler.lampText.length ++
    ascii "\r\n\r\n" ++ OrderCreateHandler.lampText

def lampRun : List (Nat × HttpStep) :=
  [(0, .established), (0, .arrives ⟨lampPost.take 30, 0, .wrote 0⟩),
    (0, .arrives ⟨lampPost.drop 30, 1, .wrote 500⟩)]

theorem lampServer_init : (HttpService.serviceSystem lampApp lampShelf).init lampServer :=
  ⟨rfl, rfl, fun i => ⟨_, i, 7, true, ⟨.empty, lampShelf, []⟩, _, by decide, rfl, rfl, rfl⟩⟩

theorem lampRun_permits :
    (HttpService.serviceSystem lampApp lampShelf).Permits lampRun lampServer := by
  decide +kernel

theorem lampRun_accounts :
    let s := (HttpService.serviceSystem lampApp lampShelf).run lampRun lampServer
    let served := servedBy OrderTable.database
      (handlers lampOptions OrderCreateHandler.lampHandler.json) s.history lampShelf
    (ordersIn served).map (fun r => r.quantity) = [2] ∧
      ∃ m, (inventoryService lampOptions).storedStock (ascii "p") s.app.redis = some m ∧
        m + (inventoryService lampOptions).soldOf (ascii "p") (ordersIn served) = 5 := by
  intro s served
  refine ⟨by decide +kernel, ?_⟩
  have hreach := (ActionSystem.Reachable.init lampServer_init).run lampRun_permits
  have hstart : start lampOptions OrderCreateHandler.lampHandler.json OrderTable.database =
      .ok lampApp := by rfl
  exact (stock_accounts_for_orders hstart (by decide) OrderService.answers_orderTable hreach).2.2
    (ascii "p") 5 (by decide +kernel)

/-- As long as nobody posts an order, no run changes the orders or the inventory, whatever is looked
up. -/
theorem lookups_change_nothing (hstart : start o json database = .ok app)
    (hkey : o.redis.keyPrefix.head? ≠ some 105)
    (hs : (HttpService.serviceSystem app b₀).Reachable s)
    (hnone : ∀ entry ∈ s.history, ¬CreatesOrder entry.2) :
    Spared (inventoryService o).OwnsKey b₀ s.app := by
  have hapart := orderCache_apartFrom hkey (inventoryService o) ⟨rfl, rfl⟩
  apply run_invariant hstart hs (Q := fun _ b => Spared (inventoryService o).OwnsKey b₀ b)
  · exact spared_refl _ b₀
  · intro client call hmem served b hb
    exact hb.trans ((answer_warms (hnone (client, call) hmem) b).spared hapart)

/-- A user's orders are asked for, and a page that is not there. -/
def lookupRun : List (Nat × HttpStep) :=
  [(0, .established), (1, .established),
    (0, .arrives ⟨ascii "GET /orders?userId=u HTTP/1.1\r\n\r\n", 0, .wrote 20⟩),
    (1, .arrives ⟨ascii "POST /order HTTP/1.1\r\n\r\n", 1, .wrote 0⟩)]

theorem lookupRun_changes_nothing :
    let s := (HttpService.serviceSystem lampApp lampShelf).run lookupRun lampServer
    s.history.length = 2 ∧ Spared (inventoryService lampOptions).OwnsKey lampShelf s.app := by
  intro s
  have hhistory : s.history.map (fun entry => decide (CreatesOrder entry.2)) = [false, false] := by
    decide +kernel
  have hnone : ∀ entry ∈ s.history, ¬CreatesOrder entry.2 := by
    intro entry hm hcreates
    have hmem := List.mem_map_of_mem (f := fun entry => decide (CreatesOrder entry.2)) hm
    rw [hhistory, decide_eq_true hcreates] at hmem
    exact absurd hmem (by decide)
  have hpermits : (HttpService.serviceSystem lampApp lampShelf).Permits lookupRun lampServer := by
    decide +kernel
  have hstart : start lampOptions OrderCreateHandler.lampHandler.json OrderTable.database =
      .ok lampApp := by rfl
  refine ⟨by decide +kernel, lookups_change_nothing hstart (by decide)
    ((ActionSystem.Reachable.init lampServer_init).run hpermits) hnone⟩

end OrderApplication

end MuduoPlus
