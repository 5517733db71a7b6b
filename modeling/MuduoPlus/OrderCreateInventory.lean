import MuduoPlus.InventoryLedger
import MuduoPlus.OrderCreateHandler

namespace MuduoPlus

namespace OrderCreateHandler

open Program OrderProgram OrderRepository InventoryService

variable {δ : Type} {database : Database δ} {b : Backend δ} {h : OrderCreateHandler}
  {svc : InventoryService} {record : Record} {raw : Bytes} {resp : HttpResponse}

/-- The id that `persistOrder` gives the next order. -/
def nextOrderId (h : OrderCreateHandler) (b : Backend δ) : Bytes :=
  if h.idGenerator then b.ids b.issued else ascii "ORD-" ++ decimalInt (b.clock b.ticks).toInt

/-- The backend once the id was made and the clock read. -/
def afterStamp (h : OrderCreateHandler) (b : Backend δ) : Backend δ :=
  if h.idGenerator then { b with issued := b.issued + 1, ticks := b.ticks + 1 }
  else { b with ticks := b.ticks + 2 }

/-- The record that `persistOrder` stores. -/
def stamped (h : OrderCreateHandler) (b : Backend δ) (record : Record) (raw : Bytes) : Record :=
  stamp record raw (h.nextOrderId b)
    (if h.idGenerator then b.clock b.ticks else b.clock (b.ticks + 1))

@[simp] theorem afterStamp_redis : (h.afterStamp b).redis = b.redis := by
  unfold afterStamp
  split <;> rfl

@[simp] theorem afterStamp_db : (h.afterStamp b).db = b.db := by
  unfold afterStamp
  split <;> rfl

/-- The end of `storeOrder`, with the answer of `Insert`. -/
def storeAnswered (h : OrderCreateHandler) (record : Record) (resp : HttpResponse)
    (stored : Bool) : OrderProgram (Except HttpResponse Record) :=
  if stored then pure (.ok record)
  else do
    h.releaseInventory record
    pure (.error (h.respondError resp .k500InternalServerError (ascii "Failed to persist order")))

theorem exec_storeOrder :
    (h.storeOrder record raw resp).exec database.serve b =
      (OrderRepository.insert (h.stamped b record raw) >>=
        h.storeAnswered (h.stamped b record raw) resp).exec database.serve (h.afterStamp b) := by
  unfold storeOrder newOrderId stamped nextOrderId afterStamp
  split
  next => rfl
  next => rfl

/-- What `Insert` answers for the order of this call, and what it leaves of the database. -/
def inserted (h : OrderCreateHandler) (database : Database δ) (b : Backend δ) (record : Record)
    (raw : Bytes) : Except OrderException Nat × δ :=
  database.update (.insert (h.stamped b record raw)) b.db

theorem exec_insert_stamped (h : OrderCreateHandler) (database : Database δ) (b : Backend δ)
    (record : Record) (raw : Bytes) :
    (OrderRepository.insert (h.stamped b record raw)).exec database.serve (h.afterStamp b) =
      ((h.inserted database b record raw).1.map fun n => decide (0 < n),
        { h.afterStamp b with db := (h.inserted database b record raw).2 }) := by
  rw [exec_insert, afterStamp_db]
  rfl

theorem persistOrder_stored {n : Nat} (hn : 0 < n)
    (hi : (h.inserted database b record raw).1 = .ok n) :
    (h.persistOrder record raw resp).exec database.serve b =
      (.ok (.ok (h.stamped b record raw)),
        { h.afterStamp b with db := (h.inserted database b record raw).2 }) := by
  have hins := exec_insert_stamped h database b record raw
  rw [hi, Except.map, decide_eq_true hn] at hins
  unfold persistOrder
  rw [exec_tryCatch, exec_storeOrder, exec_bind_ok hins]
  rfl

/-- `Insert` answers false: the stock is given back, under a reservation without an id. -/
theorem persistOrder_failed (hinv : h.deps.inventory = some svc)
    (hreq : h.options.requireInventoryReservation = true)
    (hi : (h.inserted database b record raw).1 = .ok 0) :
    (h.persistOrder record raw resp).exec database.serve b =
      (.ok (.error
          (h.respondError resp .k500InternalServerError (ascii "Failed to persist order"))),
        { h.afterStamp b with
          db := (h.inserted database b record raw).2
          redis := ((svc.releaseReservation true (reservationToRelease (h.stamped b record raw))
            (ascii "DB insert failed")).exec b.redis).2 }) := by
  have hins := exec_insert_stamped h database b record raw
  rw [hi, Except.map, decide_eq_false (Nat.lt_irrefl 0)] at hins
  unfold persistOrder
  rw [exec_tryCatch, exec_storeOrder, exec_bind_ok hins]
  simp only [storeAnswered, releaseInventory, hinv, hreq, Bool.false_eq_true, if_false, if_true,
    exec_bind, exec_withClient, exec_pure, afterStamp_redis]

theorem persistOrder_raised {e : OrderException}
    (hi : (h.inserted database b record raw).1 = .error e) :
    (h.persistOrder record raw resp).exec database.serve b =
      (.ok (.error
          (h.respondError resp .k500InternalServerError (ascii "Unexpected server error"))),
        { h.afterStamp b with db := (h.inserted database b record raw).2 }) := by
  have hins := exec_insert_stamped h database b record raw
  rw [hi] at hins
  unfold persistOrder
  rw [exec_tryCatch, exec_storeOrder, exec_bind_error hins]
  rfl

theorem placeOrder_refused (hinv : h.deps.inventory = some svc)
    (hreq : h.options.requireInventoryReservation = true)
    (hg : ¬svc.Grants record.toOrderRecord b.redis) :
    (h.placeOrder record raw resp).exec database.serve b =
      (.ok (.error (h.respondError resp .k503ServiceUnavailable
        (ascii "Inventory not enough or " ++ ascii "temporarily unavailable"))), b) := by
  obtain ⟨error, he⟩ := reserveForOrder_of_not_grants hg
  simp only [placeOrder, hreq, if_true, reserveInventory, hinv, exec_bind, exec_withClient, he,
    exec_pure]

theorem placeOrder_granted (hinv : h.deps.inventory = some svc)
    (hreq : h.options.requireInventoryReservation = true) (hredis : svc.deps.redis = true)
    (horders : svc.deps.orders = true) {n : Nat}
    (hs : svc.storedStock record.productId b.redis = some n) (hq : record.quantity.toNat ≤ n) :
    (h.placeOrder record raw resp).exec database.serve b =
      (h.persistOrder record raw resp).exec database.serve
        { b with redis := svc.reserved record.toOrderRecord n b.redis } := by
  have he : (svc.reserveForOrder true record.toOrderRecord).exec b.redis = _ :=
    reserveForOrder_granted hredis horders hs hq
  simp only [placeOrder, hreq, if_true, reserveInventory, hinv, exec_bind, exec_withClient, he,
    exec_pure]

theorem respondError_statusCode (code : HttpStatusCode) (message : Bytes) :
    (h.respondError resp code message).statusCode = code := rfl

theorem respondSuccess_statusCode : (h.respondSuccess record resp).statusCode = .k200Ok := rfl

theorem exists_of_bind_ok {ε α β : Type} {x : Except ε α} {f : α → Except ε β} {y : β}
    (hb : (x >>= f) = .ok y) : ∃ a, x = .ok a ∧ f a = .ok y := by
  cases x with
  | error e => cases hb
  | ok a => exact ⟨a, rfl, hb⟩

theorem cases_of_bind_error {ε α β : Type} {x : Except ε α} {f : α → Except ε β} {e : ε}
    (hb : (x >>= f) = .error e) : x = .error e ∨ ∃ a, x = .ok a ∧ f a = .error e := by
  cases x with
  | error e' =>
    cases hb
    exact Or.inl rfl
  | ok a => exact Or.inr ⟨a, rfl, hb⟩

section Accept

variable {req : HttpRequest} {answer : HttpResponse}

theorem ensureDependencies_error (he : h.ensureDependencies resp = .error answer) :
    answer.statusCode = .k500InternalServerError := by
  unfold ensureDependencies at he
  split at he
  next => rw [← Except.error.inj he, respondError_statusCode]
  next => cases he

theorem parseRequest_error (he : h.parseRequest req resp = .error answer) :
    answer.statusCode = .k400BadRequest := by
  unfold parseRequest at he
  split at he
  next => rw [← Except.error.inj he, respondError_statusCode]
  next =>
    split at he
    next => rw [← Except.error.inj he, respondError_statusCode]
    next => cases he

theorem validateRecord_error (he : h.validateRecord record resp = .error answer) :
    answer.statusCode = .k400BadRequest := by
  unfold validateRecord at he
  split at he
  next => rw [← Except.error.inj he, respondError_statusCode]
  next =>
    split at he
    next => rw [← Except.error.inj he, respondError_statusCode]
    next => cases he

/-- A request that is not accepted is not answered with 200. -/
theorem acceptRequest_error (ha : h.acceptRequest req resp = .error answer) :
    answer.statusCode ≠ .k200Ok := by
  rcases cases_of_bind_error ha with hd | ⟨_, _, ha⟩
  · rw [ensureDependencies_error hd]
    decide
  · rcases cases_of_bind_error ha with hp | ⟨record, _, ha⟩
    · rw [parseRequest_error hp]
      decide
    · rcases cases_of_bind_error ha with hv | ⟨_, _, ha⟩
      · rw [validateRecord_error hv]
        decide
      · cases ha

theorem recordOf_orderId {j : Json} (hr : recordOf j raw = some record) : record.orderId = [] := by
  simp only [recordOf, bind, Option.bind_eq_some_iff, pure, Option.some.injEq] at hr
  obtain ⟨_, _, _, _, _, _, _, _, _, _, rfl⟩ := hr
  rfl

/-- An accepted record has no id yet. -/
theorem acceptRequest_orderId (ha : h.acceptRequest req resp = .ok record) :
    record.orderId = [] := by
  obtain ⟨_, _, ha⟩ := exists_of_bind_ok ha
  obtain ⟨parsed, hp, ha⟩ := exists_of_bind_ok ha
  obtain ⟨_, _, ha⟩ := exists_of_bind_ok ha
  obtain rfl := Except.ok.inj ha
  unfold parseRequest at hp
  split at hp
  next => cases hp
  next =>
    split at hp
    next => cases hp
    next hr => exact recordOf_orderId (Except.ok.inj hp ▸ hr)

end Accept

/-- Redis once the handler has put the order into its cache. -/
def cachedIn (h : OrderCreateHandler) (record : Record) (redis : Dict) : Dict :=
  match h.deps.cache with
  | some cache => if h.options.enableCache then cache.cached record redis else redis
  | none => redis

theorem exec_updateCache :
    (h.updateCache record).exec database.serve b =
      (.ok (), { b with redis := h.cachedIn record b.redis }) := by
  unfold updateCache cachedIn
  cases h.deps.cache with
  | none => rfl
  | some cache =>
    dsimp only
    split
    next => rw [exec_bind_ok (OrderCache.exec_putOrder cache record), exec_pure]
    next => rfl

theorem exec_publishOrderEvent : (h.publishOrderEvent raw).exec database.serve b = (.ok (), b) := by
  unfold publishOrderEvent
  split
  next => rfl
  next => rfl

theorem exec_finishOrder :
    (h.finishOrder record raw resp).exec database.serve b =
      (.ok (h.respondSuccess record resp), { b with redis := h.cachedIn record b.redis }) := by
  unfold finishOrder
  rw [exec_bind_ok exec_updateCache, exec_bind_ok exec_publishOrderEvent, exec_pure]

section Handle

variable {req : HttpRequest} {b' : Backend δ}

theorem handle_rejected {answer : HttpResponse} (ha : h.acceptRequest req resp = .error answer) :
    (h.handle req resp).exec database.serve b = (.ok answer, b) := by
  unfold handle
  rw [ha]
  rfl

theorem handle_failed {answer : HttpResponse} (ha : h.acceptRequest req resp = .ok record)
    (hp : (h.placeOrder record req.content resp).exec database.serve b = (.ok (.error answer), b')) :
    (h.handle req resp).exec database.serve b = (.ok answer, b') := by
  unfold handle
  rw [ha]
  dsimp only
  rw [exec_bind_ok hp, exec_pure]

theorem handle_placed {order : Record} (ha : h.acceptRequest req resp = .ok record)
    (hp : (h.placeOrder record req.content resp).exec database.serve b = (.ok (.ok order), b')) :
    (h.handle req resp).exec database.serve b =
      (.ok (h.respondSuccess order resp), { b' with redis := h.cachedIn order b'.redis }) := by
  unfold handle
  rw [ha]
  dsimp only
  rw [exec_bind_ok hp, exec_finishOrder]

end Handle

/-- The call is answered with 200. -/
def Succeeds (h : OrderCreateHandler) (database : Database δ) (b : Backend δ) (req : HttpRequest)
    (resp : HttpResponse) : Prop :=
  ∃ answer, ((h.handle req resp).exec database.serve b).1 = .ok answer ∧
    answer.statusCode = .k200Ok

/-- Every stock and the set of reservation keys are the same. -/
def SameInventory (svc : InventoryService) (redis redis' : Dict) : Prop :=
  (∀ productId, svc.storedStock productId redis' = svc.storedStock productId redis) ∧
    ∀ key, svc.options.reservationKeyPrefix <+: key → (key ∈ redis' ↔ key ∈ redis)

theorem sameInventory_refl (svc : InventoryService) (redis : Dict) : SameInventory svc redis redis :=
  ⟨fun _ => rfl, fun _ _ => Iff.rfl⟩

/-- The reservation record of an order without an id is not the one that is released. -/
theorem reservationKey_ne_released (hp : svc.DefaultPrefixes) {order : OrderRecord}
    (ho : order.orderId = []) :
    svc.reservationKey (makeReservationId order) ≠ svc.reservationKey [] := by
  have hcolon : makeReservationId order = 58 :: order.productId := by
    rw [makeReservationId, ho]
    rfl
  intro he
  rw [reservationKey, reservationKey, cString_makeReservationKey hp, cString_makeReservationKey hp,
    hcolon] at he
  exact absurd (List.append_cancel_left he) (by simp [cString])

/-- Once a reservation was granted its record stays, whatever `persistOrder` does about the
stock. -/
theorem mem_released_reserved (hp : svc.DefaultPrefixes) (hredis : svc.deps.redis = true)
    {order : OrderRecord} {r : Reservation} {reason : Bytes} {n : Nat} {redis : Dict}
    (ho : order.orderId = []) (hr : r.reservationId = []) (hrp : r.productId = order.productId)
    (hs : svc.storedStock order.productId redis = some n) :
    svc.reservationKey (makeReservationId order) ∈
      ((svc.releaseReservation true r reason).exec (svc.reserved order n redis)).2 := by
  have hstock : svc.storedStock r.productId (svc.reserved order n redis) =
      some (n - order.quantity.toNat) := by
    rw [hrp]
    exact storedStock_reserved_self hp hs
  rw [releaseReservation_exec hredis hstock, released, hr]
  refine Finmap.mem_erase.mpr ⟨reservationKey_ne_released hp ho, ?_⟩
  rw [mem_insert_stockKey hp (reservationKey_starts hp _), reserved]
  exact Finmap.mem_insert.mpr (Or.inl rfl)

section Granted

variable {req : HttpRequest}

/-- `Insert` reports a row for the order of this call. -/
def Stores (h : OrderCreateHandler) (database : Database δ) (b : Backend δ) (record : Record)
    (raw : Bytes) : Prop :=
  ∃ n, 0 < n ∧ (h.inserted database b record raw).1 = .ok n

theorem handle_stored (hinv : h.deps.inventory = some svc)
    (hreq : h.options.requireInventoryReservation = true)
    (ha : h.acceptRequest req resp = .ok record) (hg : svc.Grants record.toOrderRecord b.redis)
    (hi : h.Stores database b record req.content) : h.Succeeds database b req resp := by
  obtain ⟨hredis, horders, n, hs, hq⟩ := hg
  obtain ⟨m, hm, hi⟩ := hi
  have hplace : (h.placeOrder record req.content resp).exec database.serve b = _ :=
    (placeOrder_granted hinv hreq hredis horders hs hq).trans (persistOrder_stored hm hi)
  have hexec := handle_placed ha hplace
  exact ⟨_, congrArg Prod.fst hexec, respondSuccess_statusCode⟩

/-- A granted order that is not stored is answered with an error, and leaves its record. -/
theorem placeOrder_unstored (hinv : h.deps.inventory = some svc)
    (hreq : h.options.requireInventoryReservation = true) (hp : svc.DefaultPrefixes)
    (ho : record.orderId = []) (hg : svc.Grants record.toOrderRecord b.redis)
    (hi : ¬h.Stores database b record raw) :
    ∃ answer b', (h.placeOrder record raw resp).exec database.serve b = (.ok (.error answer), b') ∧
      answer.statusCode = .k500InternalServerError ∧
      svc.reservationKey (makeReservationId record.toOrderRecord) ∈ b'.redis := by
  obtain ⟨hredis, horders, n, hs, hq⟩ := hg
  have hplace : (h.placeOrder record raw resp).exec database.serve b = _ :=
    placeOrder_granted hinv hreq hredis horders hs hq
  cases hins : (h.inserted database b record raw).1 with
  | error e =>
    refine ⟨_, _, hplace.trans (persistOrder_raised hins), respondError_statusCode _ _, ?_⟩
    simp only [afterStamp_redis, reserved]
    exact Finmap.mem_insert.mpr (Or.inl rfl)
  | ok m =>
    have hzero : m = 0 := by
      by_contra hm
      exact hi ⟨m, by omega, hins⟩
    subst hzero
    exact ⟨_, _, hplace.trans (persistOrder_failed hinv hreq hins), respondError_statusCode _ _,
      mem_released_reserved hp hredis ho rfl rfl hs⟩

theorem not_succeeds_of_error {answer : HttpResponse} {b' : Backend δ}
    (hexec : (h.handle req resp).exec database.serve b = (.ok answer, b'))
    (hcode : answer.statusCode ≠ .k200Ok) : ¬h.Succeeds database b req resp := by
  rintro ⟨answer', hanswer, hcode'⟩
  rw [hexec] at hanswer
  obtain rfl := Except.ok.inj hanswer
  exact hcode hcode'

/-- A call that is refused before `Insert` changes nothing. -/
theorem handle_refused (hinv : h.deps.inventory = some svc)
    (hreq : h.options.requireInventoryReservation = true)
    (ha : ∀ record, h.acceptRequest req resp = .ok record →
      ¬svc.Grants record.toOrderRecord b.redis) :
    ∃ answer, (h.handle req resp).exec database.serve b = (.ok answer, b) := by
  cases haccept : h.acceptRequest req resp with
  | error answer => exact ⟨answer, handle_rejected haccept⟩
  | ok record =>
    exact ⟨_, handle_failed haccept (placeOrder_refused hinv hreq (ha record haccept))⟩

/-- A failed create request leaves the inventory as it was exactly when no accepted and granted
order fails in `Insert`. -/
theorem failed_create_keeps_inventory_iff (hinv : h.deps.inventory = some svc)
    (hreq : h.options.requireInventoryReservation = true) (hp : svc.DefaultPrefixes)
    (hfresh : ∀ key, svc.options.reservationKeyPrefix <+: key → key ∉ b.redis) :
    (¬h.Succeeds database b req resp →
        SameInventory svc b.redis ((h.handle req resp).exec database.serve b).2.redis) ↔
      ∀ record, h.acceptRequest req resp = .ok record → svc.Grants record.toOrderRecord b.redis →
        h.Stores database b record req.content := by
  constructor
  · intro hsame record ha hg
    by_contra hi
    obtain ⟨answer, b', hplace, hcode, hleft⟩ :=
      placeOrder_unstored hinv hreq hp (acceptRequest_orderId ha) hg hi
    have hexec := handle_failed ha hplace
    have hkept := hsame (not_succeeds_of_error hexec (by rw [hcode]; decide))
    rw [hexec] at hkept
    have hprefix := reservationKey_starts hp (makeReservationId record.toOrderRecord)
    exact hfresh _ hprefix ((hkept.2 _ hprefix).mp hleft)
  · intro hstores hfails
    have hrefused : ∀ record, h.acceptRequest req resp = .ok record →
        ¬svc.Grants record.toOrderRecord b.redis := by
      intro record ha hg
      exact hfails (handle_stored hinv hreq ha hg (hstores record ha hg))
    obtain ⟨answer, hexec⟩ :
        ∃ answer, (h.handle req resp).exec database.serve b = (.ok answer, b) :=
      handle_refused hinv hreq hrefused
    rw [hexec]
    exact sameInventory_refl svc b.redis

def lampText : Bytes :=
  ascii "\x7b\"userId\":\"u\",\"productId\":\"p\"," ++ ascii "\"quantity\":2,\"amount\":5\x7d"

def lampRequest : HttpRequest := HttpRequest.new.setBody lampText

def lampHandler : OrderCreateHandler where
  deps := ⟨true, some {}, some shopService, true⟩
  options := {}
  idGenerator := true
  json := .readerOf lampText (.object [(ascii "userId", .string (ascii "u")),
    (ascii "productId", .string (ascii "p")), (ascii "quantity", .unsigned 2),
    (ascii "amount", .unsigned 5)])

/-- Five lamps, and orders `o0`, `o1` and so on. -/
def lampStart : Backend Unit where
  redis := Finmap.singleton (ascii "inventory:stock:p") (ascii "5")
  db := ()
  clock _ := 0
  ticks := 0
  ids n := ascii "o" ++ decimal n
  issued := 0

theorem shelf_fresh (text : Bytes) {key : Bytes}
    (hk : shopService.options.reservationKeyPrefix <+: key) :
    key ∉ (Finmap.singleton (ascii "inventory:stock:p") text : Dict) := by
  intro hm
  have he : key = ascii "inventory:stock:p" := (Finmap.mem_singleton _ _ _).mp hm
  subst he
  exact absurd hk (by decide)

/-- One lamp only, so that two cannot be reserved. -/
def oneLamp : Backend Unit :=
  { lampStart with redis := Finmap.singleton (ascii "inventory:stock:p") (ascii "1") }

theorem oneLamp_not_grants {record : Record}
    (ha : lampHandler.acceptRequest lampRequest (.new false) = .ok record) :
    ¬shopService.Grants record.toOrderRecord oneLamp.redis := by
  rintro ⟨-, -, n, hs, hq⟩
  have hrecord : (lampHandler.acceptRequest lampRequest (.new false)).toOption.map
      (fun r => (r.productId, r.quantity)) = some (ascii "p", 2) := by decide
  rw [ha] at hrecord
  obtain ⟨hproduct, hquantity⟩ := Prod.mk.inj (Option.some.inj hrecord)
  have hone : shopService.storedStock (ascii "p") oneLamp.redis = some 1 := by decide
  change shopService.storedStock record.productId oneLamp.redis = some n at hs
  rw [hproduct, hone] at hs
  change record.quantity.toNat ≤ n at hq
  rw [hquantity, ← Option.some.inj hs] at hq
  exact absurd hq (by decide)

theorem failed_create_keeps_inventory_lamp :
    let after := (lampHandler.handle lampRequest (.new false)).exec (Database.answering 0).serve oneLamp
    after.1.toOption.map (·.statusCode) = some .k503ServiceUnavailable ∧
      SameInventory shopService oneLamp.redis after.2.redis := by
  intro after
  have hcode : after.1.toOption.map (·.statusCode) = some .k503ServiceUnavailable := by decide
  refine ⟨hcode, ?_⟩
  have hfails : ¬lampHandler.Succeeds (Database.answering 0) oneLamp lampRequest (.new false) := by
    rintro ⟨answer, hanswer, hok⟩
    change after.1 = _ at hanswer
    rw [hanswer] at hcode
    exact absurd (hok.symm.trans (Option.some.inj hcode)) (by decide)
  refine (failed_create_keeps_inventory_iff rfl rfl ⟨rfl, rfl⟩ ?_).mpr ?_ hfails
  · intro key hk
    exact shelf_fresh (ascii "1") hk
  · intro record ha hg
    exact absurd hg (oneLamp_not_grants ha)

/-- `Insert` answers false: the client gets an error, and the reservation record stays. -/
theorem failed_create_leaves_record :
    let after :=
      (lampHandler.handle lampRequest (.new false)).exec (Database.answering 0).serve lampStart
    after.1.toOption.map (·.statusCode) = some .k500InternalServerError ∧
      ascii "inventory:reservation::p" ∉ lampStart.redis ∧
      ascii "inventory:reservation::p" ∈ after.2.redis := by
  decide

end Granted

end OrderCreateHandler

end MuduoPlus
