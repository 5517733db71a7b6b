import MuduoPlus.HttpAnswers
import MuduoPlus.OrderApplication
import MuduoPlus.OrderRollback

namespace MuduoPlus

open Program OrderProgram OrderRepository

/-- What a lookup may do: nothing, put the order of a row into the cache that the cache did not
have under the id that was asked for, or put a user's list there. -/
inductive Warms {δ : Type} (cache : OrderCache) (database : Database δ) (asked : Bytes → Prop)
    (b : Backend δ) : Backend δ → Prop
  | unchanged : Warms cache database asked b b
  | order {orderId : Bytes} {row : OrderRow} {rows : List OrderRow} (hasked : asked orderId)
      (hmiss : ∀ r, cache.found orderId b.redis ≠ .ok (some r))
      (hrow : database.query (.selectById orderId) b.db = .ok (row :: rows)) :
      Warms cache database asked b { b with redis := cache.cached (parseSingle row) b.redis }
  | list (userId : Bytes) (records : List Record) :
      Warms cache database asked b { b with
        redis := b.redis.insert (cache.userKey userId)
          (cString (OrderCache.serializeOrderList records)) }

namespace OrderQueryHandler

variable {δ : Type} {database : Database δ} {b : Backend δ} {q : OrderQueryHandler}
  {cache : OrderCache} {orderId userId : Bytes} {req : HttpRequest} {resp : HttpResponse}
  {asked : Bytes → Prop}

theorem exec_fetchFromCache (hq : q.deps.cache = some cache) (orderId : Bytes)
    (database : Database δ) (b : Backend δ) :
    (q.fetchFromCache orderId).exec database.serve b =
      (.ok (match cache.found orderId b.redis with
        | .ok record => record
        | .error _ => none), b) := by
  unfold fetchFromCache
  rw [hq]
  dsimp only
  rw [exec_tryCatch, OrderCache.exec_getOrder]
  cases cache.found orderId b.redis with
  | error e => rfl
  | ok record => rfl

/-- An exception of the database counts as no row. -/
theorem exec_fetchFromDatabase (orderId : Bytes) (database : Database δ) (b : Backend δ) :
    (fetchFromDatabase orderId).exec database.serve b =
      (.ok (match database.query (.selectById orderId) b.db with
        | .ok rows => rows.head?.map parseSingle
        | .error _ => none), b) := by
  unfold fetchFromDatabase getById
  rw [exec_tryCatch, exec_bind_pure, exec_submitQuery]
  cases database.query (.selectById orderId) b.db with
  | error e => rfl
  | ok rows => rfl

theorem getFromDatabase_warms (hq : q.deps.cache = some cache) (hasked : asked orderId)
    (hmiss : ∀ r, cache.found orderId b.redis ≠ .ok (some r)) :
    ∃ answer b', (q.getFromDatabase orderId resp).exec database.serve b = (.ok answer, b') ∧
      Warms cache database asked b b' := by
  have hfetch := exec_fetchFromDatabase orderId database b
  unfold getFromDatabase
  cases hrows : database.query (.selectById orderId) b.db with
  | error e =>
    rw [hrows] at hfetch
    rw [exec_bind_ok hfetch]
    exact ⟨_, b, rfl, .unchanged⟩
  | ok rows =>
    rw [hrows] at hfetch
    rw [exec_bind_ok hfetch]
    cases rows with
    | nil => exact ⟨_, b, rfl, .unchanged⟩
    | cons row rows =>
      refine ⟨q.respondRecord (parseSingle row) resp, _, ?_, .order hasked hmiss hrows⟩
      dsimp only [List.head?_cons, Option.map_some]
      unfold warmupOrderCache
      rw [hq]
      dsimp only
      rw [exec_bind, exec_bind_ok (OrderCache.exec_putOrder cache (parseSingle row)), exec_pure]
      rfl

/-- An order that the cache has is answered from there. -/
theorem handleGetById_found (hq : q.deps.cache = some cache) (hprefer : q.options.preferCache = true)
    (hid : extractOrderId req = some orderId) {r : Record}
    (hr : cache.found orderId b.redis = .ok (some r)) :
    (q.handleGetById req resp).exec database.serve b = (.ok (q.respondRecord r resp), b) := by
  have hfetch := exec_fetchFromCache hq orderId database b
  rw [hr] at hfetch
  unfold handleGetById
  rw [hid]
  dsimp only
  rw [hprefer, hq, Option.isSome_some, Bool.and_self, if_pos rfl, exec_bind_ok hfetch]
  rfl

theorem handleGetById_warms (hq : q.deps.cache = some cache)
    (hprefer : q.options.preferCache = true)
    (hasked : ∀ id, extractOrderId req = some id → asked id) :
    ∃ answer b', (q.handleGetById req resp).exec database.serve b = (.ok answer, b') ∧
      Warms cache database asked b b' := by
  cases hid : extractOrderId req with
  | none =>
    unfold handleGetById
    rw [hid]
    exact ⟨_, b, rfl, .unchanged⟩
  | some orderId =>
    by_cases hfound : ∃ r, cache.found orderId b.redis = .ok (some r)
    · obtain ⟨r, hr⟩ := hfound
      exact ⟨_, b, handleGetById_found hq hprefer hid hr, .unchanged⟩
    · have hmiss : ∀ r, cache.found orderId b.redis ≠ .ok (some r) := fun r hr => hfound ⟨r, hr⟩
      have hfetch := exec_fetchFromCache hq orderId database b
      unfold handleGetById
      rw [hid]
      dsimp only
      rw [hprefer, hq, Option.isSome_some, Bool.and_self, if_pos rfl, exec_bind_ok hfetch]
      cases hcached : cache.found orderId b.redis with
      | error e => exact getFromDatabase_warms hq (hasked _ hid) hmiss
      | ok record =>
        cases record with
        | none => exact getFromDatabase_warms hq (hasked _ hid) hmiss
        | some r => exact absurd hcached (hmiss r)

theorem fetchListFromCache_returns (hq : q.deps.cache = some cache) (hpool : cache.pool = true)
    (hindex : cache.options.enableUserIndex = true) (userId : Bytes) (database : Database δ)
    (b : Backend δ) :
    ∃ records, (q.fetchListFromCache userId).exec database.serve b = (.ok records, b) := by
  unfold fetchListFromCache
  rw [hq]
  dsimp only
  rw [exec_tryCatch, exec_bind_pure]
  cases hl : b.redis.lookup (cache.userKey userId) with
  | none =>
    rw [OrderCache.exec_getUserOrders_miss hpool hindex hl]
    exact ⟨_, rfl⟩
  | some text =>
    cases hd : OrderCache.deserializeOrderList text with
    | error e =>
      rw [OrderCache.exec_getUserOrders_unreadable hpool hindex hl hd]
      exact ⟨_, rfl⟩
    | ok records =>
      rw [OrderCache.exec_getUserOrders_hit hpool hindex hl hd]
      exact ⟨_, rfl⟩

theorem fetchListFromDatabase_returns (userId : Bytes) (limit offset : UInt64)
    (database : Database δ) (b : Backend δ) :
    ∃ records, (fetchListFromDatabase userId limit offset).exec database.serve b =
      (.ok records, b) := by
  unfold fetchListFromDatabase OrderRepository.listByUser
  rw [exec_tryCatch, exec_bind_pure, exec_submitQuery]
  cases database.query (.selectByUser userId limit offset) b.db with
  | error e => exact ⟨_, rfl⟩
  | ok rows => exact ⟨_, rfl⟩

theorem listFromDatabase_warms (hq : q.deps.cache = some cache) (hpool : cache.pool = true)
    (hindex : cache.options.enableUserIndex = true) (userId : Bytes) (limit offset : UInt64)
    (database : Database δ) (b : Backend δ) :
    ∃ records b', (q.listFromDatabase userId limit offset).exec database.serve b =
        (.ok records, b') ∧ Warms cache database asked b b' := by
  obtain ⟨records, hfetch⟩ := fetchListFromDatabase_returns userId limit offset database b
  unfold listFromDatabase
  rw [exec_bind_ok hfetch]
  split
  next => exact ⟨[], b, rfl, .unchanged⟩
  next =>
    refine ⟨records, _, ?_, .list userId records⟩
    unfold warmupUserCache
    rw [hq]
    dsimp only
    rw [exec_bind, exec_bind_ok (OrderCache.exec_putUserOrders hpool hindex userId records),
      exec_pure]
    rfl

theorem handleListByUser_warms (hq : q.deps.cache = some cache) (hpool : cache.pool = true)
    (hindex : cache.options.enableUserIndex = true) :
    ∃ answer b', (q.handleListByUser req resp).exec database.serve b = (.ok answer, b') ∧
      Warms cache database asked b b' := by
  unfold handleListByUser
  cases extractUserId req with
  | none => exact ⟨_, b, rfl, .unchanged⟩
  | some userId =>
    have hlist : ∃ records b', (q.listByUser userId (q.extractLimit req) (extractOffset req)).exec
        database.serve b = (.ok records, b') ∧ Warms cache database asked b b' := by
      have hplain : ∃ records b', _ ∧ Warms cache database asked b b' :=
        listFromDatabase_warms hq hpool hindex userId (q.extractLimit req) (extractOffset req)
          database b
      unfold OrderQueryHandler.listByUser
      split
      next =>
        obtain ⟨records, hfetch⟩ :=
          fetchListFromCache_returns hq hpool hindex userId database b
        rw [exec_bind_ok hfetch]
        split
        next => exact hplain
        next => exact ⟨records, b, rfl, .unchanged⟩
      next => exact hplain
    obtain ⟨records, b', hexec, hwarms⟩ := hlist
    refine ⟨q.respondList records resp, b', ?_, hwarms⟩
    dsimp only
    rw [exec_bind_ok hexec, exec_pure]

/-- A lookup returns whatever it finds, and does no more than warm the cache. -/
theorem handle_warms (q : OrderQueryHandler) (hq : q.deps.cache = some cache)
    (hprefer : q.options.preferCache = true) (hpool : cache.pool = true)
    (hindex : cache.options.enableUserIndex = true) (req : HttpRequest) (resp : HttpResponse)
    (hasked : ∀ id, extractOrderId req = some id → asked id) (database : Database δ)
    (b : Backend δ) :
    ∃ answer b', (q.handle req resp).exec database.serve b = (.ok answer, b') ∧
      Warms cache database asked b b' := by
  unfold handle
  split
  next => exact ⟨_, b, rfl, .unchanged⟩
  next =>
    split
    next => exact handleGetById_warms hq hprefer hasked
    next =>
      split
      next => exact handleListByUser_warms hq hpool hindex
      next => exact ⟨_, b, rfl, .unchanged⟩

end OrderQueryHandler

/-- What a create request may do: nothing; store the order that was accepted, with its quantity
taken from the stock and the order put into the cache; or reserve the quantity and give it back when
`Insert` counts no row. -/
inductive Creates {δ : Type} (h : OrderCreateHandler) (svc : InventoryService)
    (database : Database δ) (accepted : Record → Bytes → Prop) (b : Backend δ) :
    Option Record → Backend δ → Prop
  | unchanged : Creates h svc database accepted b none b
  | stored {record : Record} {raw : Bytes} {stock n : Nat} (ha : accepted record raw)
      (hid : record.orderId = [])
      (hs : svc.storedStock record.productId b.redis = some stock)
      (hq : record.quantity.toNat ≤ stock) (hn : 0 < n)
      (hi : (h.inserted database b record raw).1 = .ok n) :
      Creates h svc database accepted b (some (h.stamped b record raw)) { h.afterStamp b with
        db := (h.inserted database b record raw).2
        redis := h.cachedIn (h.stamped b record raw)
          (svc.reserved record.toOrderRecord stock b.redis) }
  | givenBack {record : Record} {raw : Bytes} {stock : Nat} (ha : accepted record raw)
      (hs : svc.storedStock record.productId b.redis = some stock)
      (hq : record.quantity.toNat ≤ stock)
      (hi : (h.inserted database b record raw).1 = .ok 0) :
      Creates h svc database accepted b none { h.afterStamp b with
        db := (h.inserted database b record raw).2
        redis := ((svc.releaseReservation true
            (OrderCreateHandler.reservationToRelease (h.stamped b record raw))
            (ascii "DB insert failed")).exec
          (svc.reserved record.toOrderRecord stock b.redis)).2 }

namespace OrderCreateHandler

variable {δ : Type} {database : Database δ} {b : Backend δ} {h : OrderCreateHandler}
  {svc : InventoryService} {req : HttpRequest} {resp : HttpResponse}

theorem afterStamp_with_redis (redis : Dict) :
    h.afterStamp { b with redis } = { h.afterStamp b with redis } := by
  unfold afterStamp
  split
  next => rfl
  next => rfl

/-- A create request is answered whatever happens, with 200 exactly when it stores an order. -/
theorem handle_creates (h : OrderCreateHandler) (hinv : h.deps.inventory = some svc)
    (hreq : h.options.requireInventoryReservation = true)
    (hans : OrderService.Answers database) {accepted : Record → Bytes → Prop} (req : HttpRequest)
    (resp : HttpResponse)
    (haccepted : ∀ record, h.acceptRequest req resp = .ok record → accepted record req.content)
    (b : Backend δ) :
    ∃ answer b', (h.handle req resp).exec database.serve b = (.ok answer, b') ∧
      Creates h svc database accepted b (h.created database b (req, resp)) b' ∧
      (∀ r, h.created database b (req, resp) = some r → answer = h.respondSuccess r resp) ∧
      (h.created database b (req, resp) = none → answer.statusCode ≠ .k200Ok) := by
  cases ha : h.acceptRequest req resp with
  | error answer =>
    have hnone : h.created database b (req, resp) = none := by
      unfold created
      rw [ha]
    rw [hnone]
    refine ⟨answer, b, handle_rejected ha, .unchanged, fun r hr => ?_,
      fun _ => acceptRequest_error ha⟩
    cases hr
  | ok record =>
    by_cases hg : svc.Grants record.toOrderRecord b.redis
    swap
    · have hplace : (h.placeOrder record req.content resp).exec database.serve b = _ :=
        placeOrder_refused hinv hreq hg
      have hnone : h.created database b (req, resp) = none := created_of_failed ha hplace
      rw [hnone]
      refine ⟨_, b, handle_failed ha hplace, .unchanged, fun r hr => ?_, fun _ => ?_⟩
      · cases hr
      · rw [respondError_statusCode]
        decide
    · obtain ⟨hredis, horders, stock, hs, hq⟩ := hg
      obtain ⟨n, hi⟩ := hans (h.stamped b record req.content) b.db
      have hplace : (h.placeOrder record req.content resp).exec database.serve b = _ :=
        placeOrder_granted hinv hreq hredis horders hs hq
      rcases Nat.eq_zero_or_pos n with rfl | hn
      · have hfailed := hplace.trans (persistOrder_failed hinv hreq hi)
        have hnone : h.created database b (req, resp) = none := created_of_failed ha hfailed
        rw [hnone]
        refine ⟨_, _, handle_failed ha hfailed, ?_, fun r hr => ?_, fun _ => ?_⟩
        · simp only [afterStamp_with_redis]
          exact .givenBack (haccepted _ ha) hs hq hi
        · cases hr
        · rw [respondError_statusCode]
          decide
      · have hstored := hplace.trans (persistOrder_stored hn hi)
        have hsome : h.created database b (req, resp) = some (h.stamped b record req.content) :=
          created_of_placed ha hstored
        rw [hsome]
        refine ⟨_, _, handle_placed ha hstored, ?_, fun r hr => ?_, fun hr => ?_⟩
        · simp only [afterStamp_with_redis]
          exact .stored (haccepted _ ha) (acceptRequest_orderId ha) hs hq hn hi
        · rw [← Option.some.inj hr]
          rfl
        · cases hr

end OrderCreateHandler

/-- `POST /orders`. -/
def IsCreate (req : HttpRequest) : Prop := req.method = .kPost ∧ req.path = ascii "/orders"

/-- `GET /orders`. -/
def IsLookup (req : HttpRequest) : Prop := req.method = .kGet ∧ req.path = ascii "/orders"

instance (req : HttpRequest) : Decidable (IsCreate req) := by
  unfold IsCreate
  infer_instance

instance (req : HttpRequest) : Decidable (IsLookup req) := by
  unfold IsLookup
  infer_instance

/-- The response that `handleHttpRequest` starts from. -/
def openResponse (req : HttpRequest) : HttpResponse :=
  .new (decide (req.getHeader (ascii "Connection") = ascii "close"))

namespace OrderApplication

variable {δ : Type} {database : Database δ} {h : OrderHandlers} {req : HttpRequest} {b : Backend δ}

theorem route_create (hc : IsCreate req) :
    (initRoutes database h).route req =
      some ⟨.handler, handlerOf database h.create.handle, req⟩ := by
  obtain ⟨hmethod, hpath⟩ := hc
  simp [initRoutes, Router.route, Router.registerHandler, Router.registerCallback, hmethod, hpath]

theorem route_lookup (hl : IsLookup req) :
    (initRoutes database h).route req =
      some ⟨.handler, handlerOf database h.query.handle, req⟩ := by
  obtain ⟨hmethod, hpath⟩ := hl
  simp [initRoutes, Router.route, Router.registerHandler, Router.registerCallback, hmethod, hpath]

/-- Any other request is a health check, or not routed. -/
theorem route_other (hc : ¬IsCreate req) (hl : ¬IsLookup req) :
    (initRoutes database h).route req =
      if req.method = .kGet ∧ req.path = ascii "/health" then some ⟨.callback, healthy, req⟩
      else none := by
  unfold IsCreate at hc
  unfold IsLookup at hl
  simp only [initRoutes, Router.route, Router.registerHandler, Router.registerCallback, Router.new,
    Function.update_apply, Prod.mk.injEq, if_neg hc, if_neg hl]
  by_cases hhealth : req.method = .kGet ∧ req.path = ascii "/health"
  · rw [if_pos hhealth, if_pos hhealth]
  · rw [if_neg hhealth, if_neg hhealth]
    rfl

theorem answer_eq (req : HttpRequest) (b : Backend δ) :
    (plugged database h).answer (.request req) b =
      match (initRoutes database h).route req with
      | some routed => routed.target routed.request (openResponse req) b
      | none => notFound req (openResponse req) b := by
  simp only [HttpApp.answer, HttpApp.respond, plugged, HttpApp.runMiddlewares, HttpApp.routeRequest]
  cases (initRoutes database h).route req with
  | none => rfl
  | some call => rfl

theorem answer_create (hc : IsCreate req) (b : Backend δ) :
    (plugged database h).answer (.request req) b =
      handlerOf database h.create.handle req (openResponse req) b := by
  rw [answer_eq, route_create hc]

theorem answer_lookup (hl : IsLookup req) (b : Backend δ) :
    (plugged database h).answer (.request req) b =
      handlerOf database h.query.handle req (openResponse req) b := by
  rw [answer_eq, route_lookup hl]

/-- What is neither leaves the backend alone. -/
theorem answer_other (hc : ¬IsCreate req) (hl : ¬IsLookup req) (b : Backend δ) :
    ((plugged database h).answer (.request req) b).2 = b := by
  rw [answer_eq, route_other hc hl]
  split
  next heq =>
    split at heq
    next => rw [← Option.some.inj heq]; rfl
    next => cases heq
  next => rfl

theorem handlerOf_ok {handle : HttpRequest → HttpResponse → OrderProgram HttpResponse}
    {resp answer : HttpResponse} {b' : Backend δ}
    (hexec : (handle req resp).exec database.serve b = (.ok answer, b')) :
    handlerOf database handle req resp b = (answer, b') := by
  unfold handlerOf
  rw [hexec]

/-- The order that a call stores. -/
def orderOf (database : Database δ) (h : OrderHandlers) (b : Backend δ) : HttpCall → Option Record
  | .request req => if IsCreate req then h.create.created database b (req, openResponse req) else none
  | .unparsable => none

/-- A call is `POST /orders`. -/
def CreatesOrder : HttpCall → Prop
  | .request req => IsCreate req
  | .unparsable => False

instance (call : HttpCall) : Decidable (CreatesOrder call) := by
  unfold CreatesOrder
  cases call <;> infer_instance

/-- The id that a call looks up. -/
def AsksFor : HttpCall → Bytes → Prop
  | .request req, id => IsLookup req ∧ OrderQueryHandler.extractOrderId req = some id
  | .unparsable, _ => False

/-- The order that a call asks to store, with its text. -/
def Accepts (h : OrderHandlers) : HttpCall → Record → Bytes → Prop
  | .request req, record, raw =>
    h.create.acceptRequest req (openResponse req) = .ok record ∧ raw = req.content
  | .unparsable, _, _ => False

variable {o : OrderServerOptions} {json : JsonLibrary}

/-- Only `POST /orders` does more than warm the cache. -/
theorem answer_warms {call : HttpCall} (hcall : ¬CreatesOrder call) (b : Backend δ) :
    Warms (orderCache o) database (AsksFor call) b
      ((plugged database (initHandlers o json (orderCache o))).answer call b).2 := by
  cases call with
  | unparsable => exact .unchanged
  | request req =>
    by_cases hl : IsLookup req
    · have hasked : ∀ id, OrderQueryHandler.extractOrderId req = some id →
          AsksFor (.request req) id := fun id hid => ⟨hl, hid⟩
      obtain ⟨answer, b', hexec, hwarms⟩ :=
        (initHandlers o json (orderCache o)).query.handle_warms rfl rfl rfl rfl req
          (openResponse req) hasked database b
      rw [answer_lookup hl, handlerOf_ok hexec]
      exact hwarms
    · rw [answer_other hcall hl]
      exact .unchanged

end OrderApplication

end MuduoPlus
