import MuduoPlus.ActionSystem
import MuduoPlus.OrderCreateInventory
import MuduoPlus.RedisKeys

namespace MuduoPlus

/-- The backend, and the orders of the calls answered with 200. -/
structure CreateRun (δ : Type) where
  backend : Backend δ
  orders : List OrderRepository.Record

namespace OrderCreateHandler

open Program OrderProgram OrderRepository InventoryService

variable {δ : Type} {database : Database δ} {b : Backend δ} {h : OrderCreateHandler}
  {svc : InventoryService} {s : CreateRun δ} {call : HttpRequest × HttpResponse}

/-- The order that a call stores. -/
def created (h : OrderCreateHandler) (database : Database δ) (b : Backend δ)
    (call : HttpRequest × HttpResponse) : Option Record :=
  match h.acceptRequest call.1 call.2 with
  | .error _ => none
  | .ok record =>
    match ((h.placeOrder record call.1.content call.2).exec database.serve b).1 with
    | .ok (.ok order) => some order
    | _ => none

/-- One call after the other, from a Redis without reservation records. The database stores
every order it is given, and no two orders get the same id. -/
def createSystem (h : OrderCreateHandler) (database : Database δ) (svc : InventoryService) :
    ActionSystem (CreateRun δ) (HttpRequest × HttpResponse) where
  init s := (∀ key, svc.options.reservationKeyPrefix <+: key → key ∉ s.backend.redis) ∧ s.orders = []
  permitted call s := ∀ record, h.acceptRequest call.1 call.2 = .ok record →
    h.Stores database s.backend record call.1.content ∧
      h.nextOrderId s.backend ∉ s.orders.map (·.orderId)
  apply call s :=
    { backend := ((h.handle call.1 call.2).exec database.serve s.backend).2
      orders := s.orders ++ (h.created database s.backend call).toList }

/-- Redis has the order's reservation under its key, naming order, product and quantity. -/
def HasRecord (svc : InventoryService) (redis : Dict) (order : OrderRecord) : Prop :=
  redis.lookup (svc.reservationKey (makeReservationId order)) =
    some (reservationText (reservationOf order))

instance (svc : InventoryService) (redis : Dict) (order : OrderRecord) :
    Decidable (HasRecord svc redis order) := by
  unfold HasRecord
  infer_instance

structure RecordsHeld (svc : InventoryService) (s : CreateRun δ) : Prop where
  held : ∀ order ∈ s.orders, HasRecord svc s.backend.redis order.toOrderRecord
  apart : s.orders.Pairwise fun o o' =>
    svc.reservationKey (makeReservationId o.toOrderRecord) ≠
      svc.reservationKey (makeReservationId o'.toOrderRecord)

/-- The call makes no order, or one with the empty id that the reservation was made under. -/
def Unnamed (h : OrderCreateHandler) (svc : InventoryService) (call : HttpRequest × HttpResponse)
    (s : CreateRun δ) : Prop :=
  ∀ record, h.acceptRequest call.1 call.2 = .ok record →
    svc.Grants record.toOrderRecord s.backend.redis →
    h.nextOrderId s.backend = [] ∧ 0 ∉ record.productId

theorem created_of_failed {record : Record} {answer : HttpResponse} {b' : Backend δ}
    (ha : h.acceptRequest call.1 call.2 = .ok record)
    (hp : (h.placeOrder record call.1.content call.2).exec database.serve b =
      (.ok (.error answer), b')) : h.created database b call = none := by
  unfold created
  rw [ha]
  dsimp only
  rw [hp]

theorem created_of_placed {record order : Record} {b' : Backend δ}
    (ha : h.acceptRequest call.1 call.2 = .ok record)
    (hp : (h.placeOrder record call.1.content call.2).exec database.serve b =
      (.ok (.ok order), b')) : h.created database b call = some order := by
  unfold created
  rw [ha]
  dsimp only
  rw [hp]

theorem created_of_refused (hinv : h.deps.inventory = some svc)
    (hreq : h.options.requireInventoryReservation = true)
    (hg : ∀ record, h.acceptRequest call.1 call.2 = .ok record →
      ¬svc.Grants record.toOrderRecord b.redis) : h.created database b call = none := by
  cases ha : h.acceptRequest call.1 call.2 with
  | error answer =>
    unfold created
    rw [ha]
  | ok record => exact created_of_failed ha (placeOrder_refused hinv hreq (hg record ha))

/-- A granted order that is stored: its record stands under the id it had before. -/
theorem created_of_stored (hinv : h.deps.inventory = some svc)
    (hreq : h.options.requireInventoryReservation = true) {record : Record}
    (ha : h.acceptRequest call.1 call.2 = .ok record)
    (hg : svc.Grants record.toOrderRecord b.redis)
    (hi : h.Stores database b record call.1.content) :
    h.created database b call = some (h.stamped b record call.1.content) ∧
      ∃ n, ((h.handle call.1 call.2).exec database.serve b).2.redis =
        h.cachedIn (h.stamped b record call.1.content)
          (svc.reserved record.toOrderRecord n b.redis) := by
  obtain ⟨hredis, horders, n, hs, hq⟩ := hg
  obtain ⟨m, hm, hi⟩ := hi
  have hplace : (h.placeOrder record call.1.content call.2).exec database.serve b = _ :=
    (placeOrder_granted hinv hreq hredis horders hs hq).trans (persistOrder_stored hm hi)
  refine ⟨created_of_placed ha hplace, n, ?_⟩
  rw [handle_placed ha hplace]
  simp only [afterStamp_redis]
  rfl

/-- The cache writes no reservation record. -/
theorem lookup_cachedIn (hp : svc.DefaultPrefixes)
    (hc : ∀ cache, h.deps.cache = some cache → cache.options.keyPrefix = ascii "order:")
    (order : Record) (redis : Dict) (reservationId : Bytes) :
    (h.cachedIn order redis).lookup (svc.reservationKey reservationId) =
      redis.lookup (svc.reservationKey reservationId) := by
  unfold cachedIn
  split
  next cache hcache =>
    split
    next =>
      unfold OrderCache.cached
      split
      next =>
        exact Finmap.lookup_insert_of_ne redis
          (OrderCache.reservationKey_ne_orderKey hp (hc cache hcache) reservationId order.orderId)
      next => rfl
    next => rfl
  next => rfl

theorem nul_not_mem_reservationText {r : Reservation} (ho : 0 ∉ r.orderId) (hpid : 0 ∉ r.productId) :
    0 ∉ reservationText r := by
  have hq : 0 ∉ decimal r.quantity.toNat := not_mem_decimal (by decide) _
  have hcomma : (0 : UInt8) ∉ ascii "," := by decide
  simp only [reservationText, List.mem_append, ho, hpid, hq, hcomma, or_self, not_false_eq_true]

/-- The record of an order whose id is empty is the one its reservation wrote. -/
theorem hasRecord_reserved {order : OrderRecord} (ho : order.orderId = []) (hpid : 0 ∉ order.productId)
    (n : Nat) (redis : Dict) : HasRecord svc (svc.reserved order n redis) order := by
  have hnul : 0 ∉ reservationText (reservationOf order) := by
    apply nul_not_mem_reservationText _ hpid
    rw [reservationOf, ho]
    exact List.not_mem_nil
  rw [HasRecord, reserved, cString_of_nulFree hnul]
  exact Finmap.lookup_insert _

/-- At most one order, and that one without an id. -/
structure RecordsInv (svc : InventoryService) (s : CreateRun δ) : Prop where
  held : ∀ order ∈ s.orders, HasRecord svc s.backend.redis order.toOrderRecord
  unnamed : ∀ order ∈ s.orders, order.orderId = []
  single : s.orders.length ≤ 1

theorem RecordsInv.refused (hinv : h.deps.inventory = some svc)
    (hreq : h.options.requireInventoryReservation = true) (hs : RecordsInv svc s)
    (hg : ∀ record, h.acceptRequest call.1 call.2 = .ok record →
      ¬svc.Grants record.toOrderRecord s.backend.redis) :
    RecordsInv svc ((h.createSystem database svc).apply call s) := by
  obtain ⟨answer, hexec⟩ :
      ∃ answer, (h.handle call.1 call.2).exec database.serve s.backend = (.ok answer, s.backend) :=
    handle_refused hinv hreq hg
  have hsame : (h.createSystem database svc).apply call s = s := by
    simp only [createSystem, hexec, created_of_refused hinv hreq hg, Option.toList_none,
      List.append_nil]
  rw [hsame]
  exact hs

theorem RecordsInv.stored (hinv : h.deps.inventory = some svc)
    (hreq : h.options.requireInventoryReservation = true) (hp : svc.DefaultPrefixes)
    (hc : ∀ cache, h.deps.cache = some cache → cache.options.keyPrefix = ascii "order:")
    (hs : RecordsInv svc s) {record : Record} (ha : h.acceptRequest call.1 call.2 = .ok record)
    (hg : svc.Grants record.toOrderRecord s.backend.redis)
    (hperm : (h.createSystem database svc).permitted call s) (hun : h.Unnamed svc call s) :
    RecordsInv svc ((h.createSystem database svc).apply call s) := by
  obtain ⟨hi, hnew⟩ := hperm record ha
  obtain ⟨hempty, hpid⟩ := hun record ha hg
  obtain ⟨hcreated, n, hredis⟩ := created_of_stored hinv hreq ha hg hi
  have hparsed := acceptRequest_orderId ha
  -- An order is there already only with the empty id, which this call would give again.
  have hnone : s.orders = [] := by
    rw [List.eq_nil_iff_forall_not_mem]
    intro order hm
    rw [hempty, ← hs.unnamed order hm] at hnew
    exact hnew (List.mem_map_of_mem hm)
  have horders : ((h.createSystem database svc).apply call s).orders =
      [h.stamped s.backend record call.1.content] := by
    simp only [createSystem, hnone, hcreated, Option.toList_some, List.nil_append]
  have hid : (h.stamped s.backend record call.1.content).orderId = [] := hempty
  have hsame : (h.stamped s.backend record call.1.content).toOrderRecord = record.toOrderRecord := by
    have hrecord : record.toOrderRecord = ⟨[], record.productId, record.quantity⟩ := by
      rw [← hparsed]
    rw [hrecord, ← hid]
    rfl
  refine ⟨?_, ?_, ?_⟩
  · rw [horders]
    intro order hm
    rw [List.mem_singleton.mp hm, hsame, HasRecord]
    change Finmap.lookup _ ((h.handle call.1 call.2).exec database.serve s.backend).2.redis = _
    rw [hredis, lookup_cachedIn hp hc]
    exact hasRecord_reserved hparsed hpid n s.backend.redis
  · rw [horders]
    intro order hm
    rw [List.mem_singleton.mp hm]
    exact hid
  · rw [horders]
    exact Nat.le_refl 1

theorem RecordsInv.apply (hinv : h.deps.inventory = some svc)
    (hreq : h.options.requireInventoryReservation = true) (hp : svc.DefaultPrefixes)
    (hc : ∀ cache, h.deps.cache = some cache → cache.options.keyPrefix = ascii "order:")
    (hs : RecordsInv svc s) (hperm : (h.createSystem database svc).permitted call s)
    (hun : h.Unnamed svc call s) : RecordsInv svc ((h.createSystem database svc).apply call s) := by
  by_cases hg : ∃ record, h.acceptRequest call.1 call.2 = .ok record ∧
      svc.Grants record.toOrderRecord s.backend.redis
  · obtain ⟨record, ha, hg⟩ := hg
    exact hs.stored hinv hreq hp hc ha hg hperm hun
  · apply hs.refused hinv hreq
    intro record ha hgrants
    exact hg ⟨record, ha, hgrants⟩

theorem RecordsInv.recordsHeld (hs : RecordsInv svc s) : RecordsHeld svc s := by
  refine ⟨hs.held, ?_⟩
  have hlen := hs.single
  cases horders : s.orders with
  | nil => exact List.Pairwise.nil
  | cons order rest =>
    rw [horders, List.length_cons] at hlen
    have hrest : rest = [] := List.length_eq_zero_iff.mp (by omega)
    rw [hrest]
    exact List.pairwise_singleton _ _

/-- Every order has its own reservation record in the runs in which no call gives an id to an
order that was granted a reservation. -/
theorem records_held_of_unnamed (hinv : h.deps.inventory = some svc)
    (hreq : h.options.requireInventoryReservation = true) (hp : svc.DefaultPrefixes)
    (hc : ∀ cache, h.deps.cache = some cache → cache.options.keyPrefix = ascii "order:")
    (hs : ((h.createSystem database svc).restrict (h.Unnamed svc)).Reachable s) :
    RecordsHeld svc s := by
  apply RecordsInv.recordsHeld
  apply hs.invariant
  · intro s hinit
    have hnone := hinit.2
    refine ⟨?_, ?_, ?_⟩
    · simp [hnone]
    · simp [hnone]
    · simp [hnone]
  · intro call s hperm hinv'
    exact hinv'.apply hinv hreq hp hc hperm.1 hperm.2

def lampSystem : ActionSystem (CreateRun Unit) (HttpRequest × HttpResponse) :=
  lampHandler.createSystem (Database.answering 1) shopService

theorem lamp_accepted {record : Record}
    (ha : lampHandler.acceptRequest lampRequest (.new false) = .ok record) :
    0 ∉ record.productId := by
  have hp : (lampHandler.acceptRequest lampRequest (.new false)).toOption.map (·.productId) =
      some (ascii "p") := by decide
  rw [ha] at hp
  have hpid : record.productId = ascii "p" := Option.some.inj hp
  rw [hpid]
  decide

theorem records_held_unnamed_lamp :
    RecordsHeld shopService (lampSystem.apply (lampRequest, .new false)
      ⟨{ lampStart with ids := fun _ => [] }, []⟩) := by
  refine records_held_of_unnamed (h := lampHandler) rfl rfl ⟨rfl, rfl⟩ ?_
    (.step (.init ⟨fun _ hk => shelf_fresh (ascii "5") hk, rfl⟩) ⟨?_, ?_⟩)
  · intro cache hcache
    rw [← Option.some.inj hcache]
  · intro record _
    exact ⟨⟨1, Nat.one_pos, rfl⟩, List.not_mem_nil⟩
  · intro record ha _
    exact ⟨rfl, lamp_accepted ha⟩

/-- Two orders of the same product: neither has a record of its own. -/
theorem orders_without_records :
    lampSystem.Permits [(lampRequest, .new false), (lampRequest, .new false)] ⟨lampStart, []⟩ ∧
      ¬RecordsHeld shopService
        (lampSystem.run [(lampRequest, .new false), (lampRequest, .new false)] ⟨lampStart, []⟩) := by
  refine ⟨⟨?_, ?_, trivial⟩, ?_⟩
  · intro record _
    exact ⟨⟨1, Nat.one_pos, rfl⟩, List.not_mem_nil⟩
  · intro record _
    exact ⟨⟨1, Nat.one_pos, rfl⟩, by decide⟩
  · intro hr
    exact absurd hr.held (by decide)

end OrderCreateHandler

end MuduoPlus
