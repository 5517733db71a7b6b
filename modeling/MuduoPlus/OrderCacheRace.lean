import MuduoPlus.OrderCodec
import MuduoPlus.OrderLifecycle
import MuduoPlus.ProgramPool
import MuduoPlus.RedisKeys

namespace MuduoPlus

/-- A call about the one order. -/
inductive RaceCall where
  | update (status : OrderStatus) (reason : Bytes)
  | pay (paidAmount : Float) (paidAt : TimePoint)
  | cancel (reason : Bytes) (releaseReservation : Bool)
  | get (preferCache : Bool)

namespace RaceCall

/-- The table can hold the amount. -/
def Fits : RaceCall → Prop
  | .pay paidAmount _ => (OrderTable.sqlDouble paidAmount).isSome = true
  | _ => True

/-- The statement for the order `id` is plain and the cache can keep the reason: it has neither the
delimiter nor NUL. -/
def Readable (charset : Charset) (id : Bytes) : RaceCall → Prop
  | .update status reason =>
    (OrderRepository.Statement.updateStatus id status reason).Plain charset ∧
      124 ∉ reason ∧ 0 ∉ reason
  | .cancel reason _ =>
    (OrderRepository.Statement.updateStatus id .kCancelled reason).Plain charset ∧
      124 ∉ reason ∧ 0 ∉ reason
  | _ => True

instance : DecidablePred Fits
  | .pay paidAmount _ => inferInstanceAs (Decidable ((OrderTable.sqlDouble paidAmount).isSome = true))
  | .update _ _ => .isTrue trivial
  | .cancel _ _ => .isTrue trivial
  | .get _ => .isTrue trivial

instance (charset : Charset) (id : Bytes) : DecidablePred (Readable charset id)
  | .update status reason => inferInstanceAs (Decidable
      ((OrderRepository.Statement.updateStatus id status reason).Plain charset ∧
        124 ∉ reason ∧ 0 ∉ reason))
  | .cancel reason _ => inferInstanceAs (Decidable
      ((OrderRepository.Statement.updateStatus id .kCancelled reason).Plain charset ∧
        124 ∉ reason ∧ 0 ∉ reason))
  | .pay _ _ => .isTrue trivial
  | .get _ => .isTrue trivial

end RaceCall

/-- What a call in flight still has to do for the cache: nothing, to read the row and put it there,
or to put there the row that it has read. -/
inductive CacheDuty where
  | none
  | refresh
  | put (row : OrderRow)

namespace CacheDuty

/-- No row is held. -/
def Free (d : CacheDuty) : Prop := ∀ row, d ≠ .put row

/-- A row that is held is the one in the table. -/
def Current (id : Bytes) (t : OrderTable) (d : CacheDuty) : Prop :=
  ∀ row, d = .put row → t.find? (fun row => row.orderId = id) = some row

theorem Free.current {d : CacheDuty} (h : d.Free) (id : Bytes) (t : OrderTable) : d.Current id t :=
  fun row hd => absurd hd (h row)

theorem free_none : Free .none := fun _ h => nomatch h

theorem free_refresh : Free .refresh := fun _ h => nomatch h

end CacheDuty

/-- The next commands of the program put something under the key: it has a client or asks for
one. -/
def AboutToPut {α : Type} (key : Bytes) : OrderProgram α → Prop
  | .call .getClient next => AboutToPut key (next true)
  | .call (.redisSet k _) _ => k = key
  | _ => False

instance decidableAboutToPut {α : Type} (key : Bytes) :
    (p : OrderProgram α) → Decidable (AboutToPut key p)
  | .call .getClient next => decidableAboutToPut key (next true)
  | .call (.redisSet k _) _ => inferInstanceAs (Decidable (k = key))
  | .call (.redisGet _) _ => .isFalse id
  | .call (.redisDel _) _ => .isFalse id
  | .call (.submitUpdate _) _ => .isFalse id
  | .call (.submitQuery _) _ => .isFalse id
  | .call (.publish _) _ => .isFalse id
  | .call .now _ => .isFalse id
  | .call .generateId _ => .isFalse id
  | .done _ => .isFalse id
  | .raise _ => .isFalse id

namespace OrderService

open Program OrderProgram OrderRepository InventoryService

variable {svc : OrderService} {cache : OrderCache} {id : Bytes} {α β δ : Type}
  {database : Database δ} {charset : Charset} {rows : δ → OrderTable}

def raceProgram (svc : OrderService) (id : Bytes) : RaceCall → OrderProgram Unit
  | .update status reason => do
    let _ ← svc.updateStatus id status reason
    pure ()
  | .pay paidAmount paidAt => do
    let _ ← svc.markPaid id paidAmount paidAt
    pure ()
  | .cancel reason releaseReservation => do
    let _ ← svc.cancelOrder id reason releaseReservation
    pure ()
  | .get preferCache => do
    let _ ← svc.getOrderById id preferCache
    pure ()

abbrev Race (δ : Type) :=
  ProgramPool (Backend δ) OrderCommand OrderCommand.Answer OrderException Unit

/-- Any number of calls about one order, with every statement and every Redis command one step. -/
def raceSystem (svc : OrderService) (id : Bytes) (database : Database δ) (opening : Backend δ) :
    ActionSystem (Race δ) (PoolAction RaceCall) :=
  ProgramPool.system database.serve (svc.raceProgram id) (· = opening) RaceCall.Fits

/-- The cache can keep the texts of the row. -/
def ReadableRow (row : OrderRow) : Prop :=
  (parseSingle row).Without 124 ∧ (parseSingle row).Without 0

/-- What is cached of the order has the status and the reason of its row. -/
def CacheAgrees (cache : OrderCache) (id : Bytes) (rows : δ → OrderTable) (b : Backend δ) : Prop :=
  ∀ text, b.redis.lookup (cache.orderKey id) = some text →
    ∃ r row, OrderCache.deserializeOrder text = .ok r ∧
      (rows b.db).find? (fun row => row.orderId = id) = some row ∧
      r.status = (parseSingle row).status ∧ r.statusReason = row.statusReason

/-- A call that is about to put the order into the cache does not tolerate a write of it. -/
def Tolerates (cache : OrderCache) (id : Bytes) (p : OrderProgram α) : OrderCommand → Prop
  | .submitUpdate _ => ¬AboutToPut (cache.orderKey id) p
  | _ => True

instance (cache : OrderCache) (id : Bytes) (p : OrderProgram α) :
    (c : OrderCommand) → Decidable (Tolerates cache id p c)
  | .submitUpdate _ => inferInstanceAs (Decidable (¬AboutToPut (cache.orderKey id) p))
  | .getClient => .isTrue trivial
  | .redisGet _ => .isTrue trivial
  | .redisSet _ _ => .isTrue trivial
  | .redisDel _ => .isTrue trivial
  | .submitQuery _ => .isTrue trivial
  | .publish _ => .isTrue trivial
  | .now => .isTrue trivial
  | .generateId => .isTrue trivial

/-- The order is not written while another call has read its row and is about to put it into the
cache, and the reasons are such that the statements and the cache can keep them. -/
def WritesApart (cache : OrderCache) (charset : Charset) (id : Bytes) :
    PoolAction RaceCall → Race δ → Prop
  | .start task, _ => task.Readable charset id
  | .step i, s => s.Undisturbed (Tolerates cache id) i

instance (svc : OrderService) (id : Bytes) (database : Database δ) (opening : Backend δ) :
    (a : PoolAction RaceCall) → (s : Race δ) →
      Decidable ((svc.raceSystem id database opening).permitted a s)
  | .start task, _ => inferInstanceAs (Decidable task.Fits)
  | .step _, _ => .isTrue trivial

instance (cache : OrderCache) (charset : Charset) (id : Bytes) :
    (a : PoolAction RaceCall) → (s : Race δ) → Decidable (WritesApart cache charset id a s)
  | .start task, _ => inferInstanceAs (Decidable (task.Readable charset id))
  | .step i, s => inferInstanceAs (Decidable (s.Undisturbed (Tolerates cache id) i))

/-- The statement writes the order's row and leaves it readable. -/
inductive Rewrites (charset : Charset) (id : Bytes) : Statement → Prop
  | status {status reason} (hplain : (Statement.updateStatus id status reason).Plain charset)
    (h : 124 ∉ reason ∧ 0 ∉ reason) : Rewrites charset id (.updateStatus id status reason)
  | payment {paid paidAt} (hplain : (Statement.selectById id).Plain charset)
    (h : (OrderTable.sqlDouble paid).isSome = true) :
    Rewrites charset id (.updatePayment id paid paidAt)

/-- The program does what `d` says before it ends: the only thing that it puts under the order's
key is a row it has just read, and after changing the row it does that. Commands are answered
without failure, and the row is always found. -/
def Fulfils (cache : OrderCache) (charset : Charset) (id : Bytes) :
    CacheDuty → OrderProgram α → Prop
  | d, .done _ => d = .none
  | d, .raise _ => d = .none
  | d, .call .getClient next => Fulfils cache charset id d (next true)
  | d, .call (.redisGet _) next => d.Free ∧ ∀ value, Fulfils cache charset id d (next value)
  | d, .call (.redisSet key value) next =>
    (∃ row, d = .put row ∧ key = cache.orderKey id ∧
      value = cString (OrderCache.serializeOrder (parseSingle row)) ∧
      Fulfils cache charset id .none (next true)) ∨
    d.Free ∧ key ≠ cache.orderKey id ∧ Fulfils cache charset id d (next true)
  | d, .call (.redisDel key) next =>
    d.Free ∧ key ≠ cache.orderKey id ∧ ∀ deleted, Fulfils cache charset id d (next deleted)
  | d, .call (.submitUpdate statement) next =>
    d.Free ∧ Rewrites charset id statement ∧
      (∀ n, Fulfils cache charset id .refresh (next (.ok (n + 1)))) ∧
      -- no row was changed, where only those are counted
      Fulfils cache charset id d (next (.ok 0))
  | d, .call (.submitQuery statement) next =>
    d.Free ∧ statement = .selectById id ∧ ∀ row rows, row.orderId = id →
      Fulfils cache charset id d (next (.ok (row :: rows))) ∨
      Fulfils cache charset id (.put row) (next (.ok (row :: rows)))
  | d, .call (.publish _) next => d.Free ∧ Fulfils cache charset id d (next ())
  | d, .call .now next => d.Free ∧ ∀ time, Fulfils cache charset id d (next time)
  | d, .call .generateId next => d.Free ∧ ∀ text, Fulfils cache charset id d (next text)

theorem Fulfils.aboutToPut {p : OrderProgram α} {row : OrderRow}
    (h : Fulfils cache charset id (.put row) p) : AboutToPut (cache.orderKey id) p := by
  induction p with
  | done a => cases h
  | raise e => cases h
  | call c next ih =>
    cases c with
    | getClient => exact ih true h
    | redisSet key value =>
      rcases h with ⟨_, _, hkey, _⟩ | ⟨hfree, _⟩
      · exact hkey
      · exact absurd rfl (hfree row)
    | redisGet key => exact absurd rfl (h.1 row)
    | redisDel key => exact absurd rfl (h.1 row)
    | submitUpdate statement => exact absurd rfl (h.1 row)
    | submitQuery statement => exact absurd rfl (h.1 row)
    | publish message => exact absurd rfl (h.1 row)
    | now => exact absurd rfl (h.1 row)
    | generateId => exact absurd rfl (h.1 row)

section Rules

variable {d : CacheDuty} {row : OrderRow}

theorem fulfils_getById (hd : d.Free) {k : Option Record → OrderProgram α}
    (hk : ∀ row, row.orderId = id → Fulfils cache charset id d (k (some (parseSingle row))) ∨
      Fulfils cache charset id (.put row) (k (some (parseSingle row)))) :
    Fulfils cache charset id d (getById id >>= k) :=
  ⟨hd, rfl, fun row _ hrow => hk row hrow⟩

theorem fulfils_putOrder (hpool : cache.pool = true) (hrow : row.orderId = id)
    {k : Bool → OrderProgram α} (hk : Fulfils cache charset id .none (k true)) :
    Fulfils cache charset id (.put row) (cache.putOrder (parseSingle row) >>= k) := by
  have hkey : cString (cache.buildOrderKey (parseSingle row).orderId) = cache.orderKey id := by
    rw [← hrow]
    rfl
  unfold OrderCache.putOrder OrderCache.setKey
  rw [hpool, Bool.not_true, if_neg Bool.false_ne_true]
  exact Or.inl ⟨row, rfl, hkey, rfl, hk⟩

theorem fulfils_updateStatus (hd : d.Free) {status : OrderStatus} {reason : Bytes}
    (hwrites : Rewrites charset id (.updateStatus id status reason)) {k : Bool → OrderProgram α}
    (hk : Fulfils cache charset id .refresh (k true)) (hk' : Fulfils cache charset id d (k false)) :
    Fulfils cache charset id d (OrderRepository.updateStatus id status reason >>= k) :=
  ⟨hd, hwrites, fun _ => hk, hk'⟩

theorem fulfils_updatePayment (hd : d.Free) {paid : Float} {paidAt : TimePoint}
    (hwrites : Rewrites charset id (.updatePayment id paid paidAt)) {k : Bool → OrderProgram α}
    (hk : Fulfils cache charset id .refresh (k true)) (hk' : Fulfils cache charset id d (k false)) :
    Fulfils cache charset id d (OrderRepository.updatePayment id paid paidAt >>= k) :=
  ⟨hd, hwrites, fun _ => hk, hk'⟩

theorem fulfils_publishEvent (hd : d.Free) {event : Bytes} {e : OrderEntity} {payload : Bytes}
    {k : Unit → OrderProgram α} (hk : Fulfils cache charset id d (k ())) :
    Fulfils cache charset id d (svc.publishEvent event e payload >>= k) := by
  unfold publishEvent
  split
  next => exact ⟨hd, hk⟩
  next => exact hk

theorem fulfils_redis (hd : d.Free) {p : RedisProgram β} (hp : p.Avoids (cache.orderKey id))
    {k : β → OrderProgram α} (hk : ∀ a, Fulfils cache charset id d (k a)) :
    Fulfils cache charset id d (redis p >>= k) := by
  induction p with
  | done a => exact hk a
  | get key next ih => exact ⟨hd, fun value => ih value (hp value)⟩
  | set key value next ih => exact Or.inr ⟨hd, hp.1, ih true (hp.2 true)⟩
  | del key next ih => exact ⟨hd, hp.1, fun deleted => ih deleted (hp.2 deleted)⟩
  | emit message next ih => exact ⟨hd, ih hp⟩

variable (h : svc.CachesOrders cache)

include h

theorem fulfils_releaseCancelled (hd : d.Free) (r : Record) (releaseReservation : Bool)
    {k : Unit → OrderProgram α} (hk : Fulfils cache charset id d (k ())) :
    Fulfils cache charset id d (svc.releaseCancelled r releaseReservation >>= k) := by
  unfold releaseCancelled
  split
  next inv hinv =>
    split
    next =>
      rw [bind_bind]
      have hp := h.inventory inv hinv
      refine fulfils_redis hd (avoids_releaseReservation ?_ ?_ true) fun _ => hk
      · exact OrderCache.stockKey_ne_orderKey hp h.orderPrefix _ _
      · exact OrderCache.reservationKey_ne_orderKey hp h.orderPrefix _ _
    next => exact hk
  next => exact hk

theorem fulfils_refreshCache {k : Unit → OrderProgram α} (hk : Fulfils cache charset id .none (k ())) :
    Fulfils cache charset id .refresh (svc.refreshCache id >>= k) := by
  unfold refreshCache
  rw [h.inUse]
  dsimp only
  rw [bind_bind]
  refine fulfils_getById CacheDuty.free_refresh fun row hrow => Or.inr ?_
  dsimp only
  rw [bind_bind]
  exact fulfils_putOrder h.pool hrow hk

theorem fulfils_loadOrder {k : Option OrderEntity → OrderProgram α}
    (hk : ∀ found, Fulfils cache charset id .none (k found)) :
    Fulfils cache charset id .none (svc.loadOrder id >>= k) := by
  unfold loadOrder fetchFromDatabase
  rw [if_pos h.database, bind_bind]
  refine fulfils_getById CacheDuty.free_none fun row hrow => Or.inr ?_
  dsimp only
  unfold putInCache
  rw [h.inUse]
  dsimp only
  rw [bind_bind, bind_bind]
  exact fulfils_putOrder h.pool hrow (hk _)

theorem fulfils_fetchFromCache {k : Option OrderEntity → OrderProgram α}
    (hk : ∀ found, Fulfils cache charset id .none (k found)) :
    Fulfils cache charset id .none (svc.fetchFromCache id >>= k) := by
  unfold fetchFromCache
  rw [h.inUse]
  dsimp only
  unfold OrderCache.getOrder OrderCache.getKey
  rw [h.pool, Bool.not_true, if_neg Bool.false_ne_true, bind_bind]
  refine ⟨CacheDuty.free_none, fun value => ?_⟩
  cases value with
  | none => exact hk none
  | some payload =>
    change Fulfils cache charset id .none
      (OrderCache.decodeWith OrderCache.deserializeOrder (some payload) >>= k)
    unfold OrderCache.decodeWith
    dsimp only
    cases OrderCache.deserializeOrder payload with
    | error e => exact rfl
    | ok r => exact hk (some r)

theorem fulfils_getOrderById (preferCache : Bool) {k : Option OrderEntity → OrderProgram α}
    (hk : ∀ found, Fulfils cache charset id .none (k found)) :
    Fulfils cache charset id .none (svc.getOrderById id preferCache >>= k) := by
  unfold getOrderById
  split
  next =>
    rw [bind_bind]
    refine fulfils_fetchFromCache h fun found => ?_
    cases found with
    | none => exact fulfils_loadOrder h hk
    | some e => exact hk (some e)
  next => exact fulfils_loadOrder h hk

theorem fulfils_publishUpdated (reason : Bytes) {k : Unit → OrderProgram α}
    (hk : Fulfils cache charset id .none (k ())) :
    Fulfils cache charset id .none (svc.publishUpdated id reason >>= k) := by
  unfold publishUpdated
  split
  next =>
    rw [bind_bind]
    exact fulfils_getOrderById h true fun _ => fulfils_publishEvent CacheDuty.free_none hk
  next => exact hk

theorem fulfils_publishPaid {k : Unit → OrderProgram α} (hk : Fulfils cache charset id .none (k ())) :
    Fulfils cache charset id .none (svc.publishPaid id >>= k) := by
  unfold publishPaid
  split
  next =>
    rw [bind_bind]
    refine fulfils_getOrderById h true fun found => ?_
    cases found with
    | none => exact hk
    | some e => exact fulfils_publishEvent CacheDuty.free_none hk
  next => exact hk

theorem fulfils_update {status : OrderStatus} {reason : Bytes}
    (hwrites : Rewrites charset id (.updateStatus id status reason)) {k : Bool → OrderProgram α}
    (hk : ∀ updated, Fulfils cache charset id .none (k updated)) :
    Fulfils cache charset id .none (svc.updateStatus id status reason >>= k) := by
  unfold updateStatus
  rw [h.database, Bool.not_true, if_neg Bool.false_ne_true, bind_bind]
  refine fulfils_updateStatus CacheDuty.free_none hwrites ?_ (hk false)
  unfold statusUpdated
  rw [bind_bind]
  refine fulfils_refreshCache h ?_
  rw [bind_bind]
  exact fulfils_publishUpdated h reason (hk true)

theorem fulfils_pay {paidAmount : Float} {paidAt : TimePoint}
    (hwrites : Rewrites charset id (.updatePayment id paidAmount paidAt))
    {k : Bool → OrderProgram α} (hk : ∀ updated, Fulfils cache charset id .none (k updated)) :
    Fulfils cache charset id .none (svc.markPaid id paidAmount paidAt >>= k) := by
  unfold markPaid
  rw [h.database, Bool.not_true, if_neg Bool.false_ne_true, bind_bind]
  refine fulfils_updatePayment CacheDuty.free_none hwrites ?_ (hk false)
  unfold paymentUpdated
  rw [bind_bind]
  refine fulfils_refreshCache h ?_
  rw [bind_bind]
  exact fulfils_publishPaid h (hk true)

theorem fulfils_cancel {reason : Bytes}
    (hwrites : Rewrites charset id (.updateStatus id .kCancelled reason))
    (releaseReservation : Bool) {k : Bool → OrderProgram α}
    (hk : ∀ cancelled, Fulfils cache charset id .none (k cancelled)) :
    Fulfils cache charset id .none (svc.cancelOrder id reason releaseReservation >>= k) := by
  unfold cancelOrder
  rw [h.database, Bool.not_true, if_neg Bool.false_ne_true, bind_bind]
  -- the row that is read first only says what to release, so it may be an old one
  refine fulfils_getById CacheDuty.free_none fun row _ => Or.inl ?_
  dsimp only
  rw [bind_bind]
  refine fulfils_updateStatus CacheDuty.free_none hwrites ?_ (hk false)
  unfold orderCancelled
  rw [bind_bind]
  refine fulfils_releaseCancelled h CacheDuty.free_refresh _ _ ?_
  rw [bind_bind]
  refine fulfils_refreshCache h ?_
  rw [bind_bind]
  exact fulfils_publishEvent CacheDuty.free_none (hk true)

/-- Every call starts without a duty and fulfils the ones that it takes on. -/
theorem fulfils_raceProgram (hid : (Statement.selectById id).Plain charset) {task : RaceCall}
    (hfits : task.Fits) (hread : task.Readable charset id) :
    Fulfils cache charset id .none (svc.raceProgram id task) := by
  cases task with
  | update status reason => exact fulfils_update h (.status hread.1 hread.2) fun _ => rfl
  | pay paidAmount paidAt => exact fulfils_pay h (.payment hid hfits) fun _ => rfl
  | cancel reason releaseReservation =>
    exact fulfils_cancel h (.status hread.1 hread.2) releaseReservation fun _ => rfl
  | get preferCache => exact fulfils_getOrderById h preferCache fun _ => rfl

end Rules

section Outline

variable {b : Backend δ} {d : CacheDuty} {statement : Statement} {row : OrderRow}

/-- The order is in the table, with texts that the cache can keep. -/
def Stored (id : Bytes) (t : OrderTable) : Prop :=
  ∃ row, t.find? (fun row => row.orderId = id) = some row ∧ ReadableRow row

/-- A call owes the cache a row that is up to date from its write to the row until it has put one
there. -/
def cacheOutline (cache : OrderCache) (charset : Charset) (id : Bytes) (rows : δ → OrderTable) :
    PoolOutline (Backend δ) OrderCommand OrderCommand.Answer OrderException Unit where
  shared b := Stored id (rows b.db)
  place b p := ∃ d, Fulfils cache charset id d p ∧ d.Current id (rows b.db)
  owes b p := ∃ d, d ≠ .none ∧ Fulfils cache charset id d p ∧ d.Current id (rows b.db)
  settled := CacheAgrees cache id rows

theorem without_withStatus {byte : UInt8} {reason : Bytes} (hreason : byte ∉ reason)
    (h : (parseSingle row).Without byte) (status : OrderStatus) :
    (parseSingle (OrderTable.withStatus status reason row)).Without byte := by
  simp only [Record.Without, Record.texts, List.forall_mem_cons] at h ⊢
  obtain ⟨horder, huser, hproduct, hcurrency, _, hpayload, hnil⟩ := h
  exact ⟨horder, huser, hproduct, hcurrency, hreason, hpayload, hnil⟩

theorem Rewrites.plain (h : Rewrites charset id statement) : statement.Plain charset := by
  cases h with
  | status hplain hreason => exact hplain
  | payment hplain hpaid => exact ⟨hplain.quoted, hplain.encoded, trivial⟩

theorem Rewrites.isChange (h : Rewrites charset id statement) : statement.IsChange := by
  cases h with
  | status => trivial
  | payment => trivial

theorem Rewrites.update (h : Rewrites charset id statement) (t : OrderTable) :
    ∃ f, OrderTable.update statement t = OrderTable.rewrite id f t ∧
      (∀ row, (f row).orderId = row.orderId) ∧ ∀ row, ReadableRow row → ReadableRow (f row) := by
  cases h with
  | @status status reason _ hreason =>
    exact ⟨OrderTable.withStatus status reason, rfl, fun _ => rfl,
      fun row hrow => ⟨without_withStatus hreason.1 hrow.1 status,
        without_withStatus hreason.2 hrow.2 status⟩⟩
  | @payment paid paidAt _ hpaid =>
    obtain ⟨amount, hamount⟩ := Option.isSome_iff_exists.mp hpaid
    exact ⟨OrderTable.withPayment amount, OrderTable.update_updatePayment hamount paidAt,
      fun _ => rfl, fun row hrow => hrow⟩

/-- A write leaves the order there. -/
theorem Rewrites.stored (hk : database.KeepsOrders (Statement.Plain charset) rows)
    (h : Rewrites charset id statement) (hb : Stored id (rows b.db)) :
    Stored id (rows (database.update statement b.db).2) := by
  obtain ⟨f, hf, hid, hread⟩ := h.update (rows b.db)
  obtain ⟨row, hrow, hrow'⟩ := hb
  refine ⟨f row, ?_, hread row hrow'⟩
  rw [hk.update h.plain h.isChange, hf, OrderTable.rewrite, OrderTable.find?_rewriteRows hid, hrow]
  rfl

theorem cacheAgrees_of_put (hb : Stored id (rows b.db)) {text : Bytes}
    (hrow : (rows b.db).find? (fun row => row.orderId = id) = some row)
    (htext : text = cString (OrderCache.serializeOrder (parseSingle row))) :
    CacheAgrees cache id rows { b with redis := b.redis.insert (cache.orderKey id) text } := by
  obtain ⟨row', hrow', hbar, hnul⟩ := hb
  obtain rfl := Option.some.inj (hrow.symm.trans hrow')
  rw [cString_of_nulFree (OrderCache.not_mem_serializeOrder
    (fun hb => absurd hb.1 (by decide)) (by decide) hnul)] at htext
  intro found hfound
  rw [Finmap.lookup_insert, htext] at hfound
  obtain rfl := Option.some.inj hfound
  exact ⟨_, row, OrderCache.deserialize_of_without hbar, hrow, rfl, rfl⟩

/-- The order is found by its id. -/
theorem query_selectById (hk : database.KeepsOrders (Statement.Plain charset) rows)
    (hid : (Statement.selectById id).Plain charset)
    (hrow : (rows b.db).find? (fun row => row.orderId = id) = some row) :
    ∃ found, database.query (.selectById id) b.db = .ok (row :: found) := by
  rw [← List.head?_filter] at hrow
  obtain ⟨found, hfound⟩ := List.head?_eq_some_iff.mp hrow
  exact ⟨found, (hk.byId hid b.db).trans (congrArg Except.ok hfound)⟩

/-- What the command `c` of a program with the duty `d` does, where `b'` and `p` are left: it writes
the row, which is to be refreshed then, it puts the row of the table into the cache, or it changes
neither, and a duty remains one. -/
inductive Outcome (cache : OrderCache) (charset : Charset) (id : Bytes) (rows : δ → OrderTable)
    (b : Backend δ) (d : CacheDuty) (c : OrderCommand) (b' : Backend δ) (p : OrderProgram α) : Prop
  | wrote (statement : Statement) (hc : c = .submitUpdate statement) (hb : Stored id (rows b'.db))
    (hp : Fulfils cache charset id .refresh p)
  | put (hrows : rows b'.db = rows b.db) (hagree : CacheAgrees cache id rows b')
    (hp : Fulfils cache charset id .none p)
  | quiet (hrows : rows b'.db = rows b.db)
    (hredis : b'.redis.lookup (cache.orderKey id) = b.redis.lookup (cache.orderKey id))
    (d' : CacheDuty) (hd : d ≠ .none → d' ≠ .none) (hp : Fulfils cache charset id d' p)
    (hcur : d'.Current id (rows b.db))

theorem Fulfils.step (hk : database.KeepsOrders (Statement.Plain charset) rows)
    (hid : (Statement.selectById id).Plain charset) {c : OrderCommand}
    {next : c.Answer → OrderProgram α} (hb : Stored id (rows b.db))
    (h : Fulfils cache charset id d (.call c next)) (hd : d.Current id (rows b.db)) :
    Outcome cache charset id rows b d c (database.serve c b).2 (next (database.serve c b).1) := by
  -- most commands leave the duty as it is
  have hsame (hc : c.Spares (· = cache.orderKey id))
      (hnext : Fulfils cache charset id d (next (database.serve c b).1)) :
      Outcome cache charset id rows b d c (database.serve c b).2 (next (database.serve c b).1) :=
    .quiet (congrArg rows (spared_serve hc b).db) ((spared_serve hc b).redis _ rfl) d
      (fun hne => hne) hnext hd
  cases c with
  | getClient => exact hsame trivial h
  | redisGet key => exact hsame trivial (h.2 _)
  | redisSet key value =>
    rcases h with ⟨row, rfl, rfl, hvalue, hnext⟩ | ⟨_, hkey, hnext⟩
    · exact .put rfl (cacheAgrees_of_put hb (hd row rfl) hvalue) hnext
    · exact hsame hkey hnext
  | redisDel key => exact hsame h.2.1 (h.2.2 _)
  | submitUpdate statement =>
    obtain ⟨_, hwrites, hnext, hnext'⟩ := h
    obtain ⟨n, hn, -, hunchanged⟩ := hk.count hwrites.plain hwrites.isChange b.db
    have hanswer : (database.serve (.submitUpdate statement) b).1 = .ok n := hn
    rw [hanswer]
    cases n with
    | zero =>
      have hrows := (hk.update hwrites.plain hwrites.isChange b.db).trans (hunchanged rfl)
      exact .quiet hrows rfl d (fun hne => hne) hnext' hd
    | succ n => exact .wrote statement rfl (hwrites.stored hk hb) (hnext n)
  | submitQuery statement =>
    obtain ⟨_, rfl, hnext⟩ := h
    obtain ⟨row, hrow, -⟩ := hb
    obtain ⟨found, hfound⟩ := query_selectById hk hid hrow
    have hanswer : (database.serve (.submitQuery (.selectById id)) b).1 = .ok (row :: found) := hfound
    have hrowId : row.orderId = id := by
      simpa using List.find?_some (p := fun row : OrderRow => decide (row.orderId = id)) hrow
    rw [hanswer] at hsame ⊢
    rcases hnext row found hrowId with hnext | hnext
    · exact hsame trivial hnext
    · refine .quiet rfl rfl (.put row) (fun _ => nofun) hnext ?_
      rintro _ ⟨⟩
      exact hrow
  | publish message => exact hsame trivial h.2
  | now => exact hsame trivial (h.2 _)
  | generateId => exact hsame trivial (h.2 _)

section Outcome

variable {c : OrderCommand} {b' : Backend δ}

theorem Outcome.stored {p : OrderProgram α} (h : Outcome cache charset id rows b d c b' p)
    (hb : Stored id (rows b.db)) : Stored id (rows b'.db) := by
  cases h with
  | wrote statement hc hb' hp => exact hb'
  | put hrows hagree hp =>
    rw [hrows]
    exact hb
  | quiet hrows hredis d' hd hp hcur =>
    rw [hrows]
    exact hb

theorem CacheAgrees.congr (h : CacheAgrees cache id rows b) (hrows : rows b'.db = rows b.db)
    (hredis : b'.redis.lookup (cache.orderKey id) = b.redis.lookup (cache.orderKey id)) :
    CacheAgrees cache id rows b' := by
  intro text htext
  rw [hredis] at htext
  rw [hrows]
  exact h text htext

/-- Only a write takes the row from under a call that holds it. -/
theorem Outcome.current {p q : OrderProgram α} {d' : CacheDuty}
    (h : Outcome cache charset id rows b d c b' p) (hq : Fulfils cache charset id d' q)
    (htol : Tolerates cache id q c) (hcur : d'.Current id (rows b.db)) :
    d'.Current id (rows b'.db) := by
  cases h with
  | wrote statement hc hb' hp =>
    rintro row rfl
    rw [hc] at htol
    exact absurd hq.aboutToPut htol
  | put hrows hagree hp =>
    rw [hrows]
    exact hcur
  | quiet hrows hredis d' hd hp hcur' =>
    rw [hrows]
    exact hcur

/-- The cache is right after the command, or the program owes that, unless neither it owed
anything nor the cache was right. -/
theorem Outcome.settles {p : OrderProgram Unit} (h : Outcome cache charset id rows b d c b' p)
    (hd : d ≠ .none ∨ CacheAgrees cache id rows b) :
    CacheAgrees cache id rows b' ∨ (cacheOutline cache charset id rows).owes b' p := by
  cases h with
  | wrote statement hc hb' hp =>
    exact Or.inr ⟨.refresh, nofun, hp, CacheDuty.free_refresh.current id _⟩
  | put hrows hagree hp => exact Or.inl hagree
  | quiet hrows hredis d' hne hp hcur =>
    rcases hd with hd | hagree
    · exact Or.inr ⟨d', hne hd, hp, hrows ▸ hcur⟩
    · exact Or.inl (hagree.congr hrows hredis)

end Outcome

theorem cacheOutline_sound (hk : database.KeepsOrders (Statement.Plain charset) rows)
    (hid : (Statement.selectById id).Plain charset) (cache : OrderCache) :
    (cacheOutline cache charset id rows).Sound database.serve (Tolerates cache id) where
  shared := by
    rintro b c next hb ⟨d, hp, hd⟩
    exact (hp.step hk hid hb hd).stored hb
  own := by
    rintro b c next hb ⟨d, hp, hd⟩
    cases hp.step hk hid hb hd with
    | wrote statement hc hb' hp => exact ⟨.refresh, hp, CacheDuty.free_refresh.current id _⟩
    | put hrows hagree hp => exact ⟨.none, hp, CacheDuty.free_none.current id _⟩
    | quiet hrows hredis d' hne hp hcur => exact ⟨d', hp, hrows ▸ hcur⟩
  other := by
    rintro b c next q hb ⟨d, hp, hd⟩ htol ⟨d', hq, hd'⟩
    exact ⟨d', hq, (hp.step hk hid hb hd).current hq htol hd'⟩
  settled := by
    rintro b c next hb ⟨d, hp, hd⟩ hset
    exact (hp.step hk hid hb hd).settles (Or.inr hset)
  owes_own := by
    rintro b c next hb ⟨d, hne, hp, hd⟩
    exact (hp.step hk hid hb hd).settles (Or.inl hne)
  owes_other := by
    rintro b c next q hb ⟨d, hp, hd⟩ ⟨d', hne, hq, hd'⟩
    cases hp.step hk hid hb hd with
    | wrote statement hc hb' hp =>
      exact Or.inr (Or.inl ⟨.refresh, nofun, hp, CacheDuty.free_refresh.current id _⟩)
    | put hrows hagree hp => exact Or.inl hagree
    | quiet hrows hredis d'' hne' hp hcur => exact Or.inr (Or.inr ⟨d', hne, hq, hrows ▸ hd'⟩)
  not_done := by
    rintro b a ⟨d, hne, hp, _⟩
    exact hne hp
  not_raise := by
    rintro b e ⟨d, hne, hp, _⟩
    exact hne hp

end Outline

/-- In every interleaving in which the order is not written while another call is about to put its
row into the cache, the cache agrees with the table whenever no call is in flight. -/
theorem cache_agrees_of_writesApart (hk : database.KeepsOrders (Statement.Plain charset) rows)
    (hid : (Statement.selectById id).Plain charset) (h : svc.CachesOrders cache)
    {opening : Backend δ}
    (hopening : Stored id (rows opening.db) ∧ CacheAgrees cache id rows opening) {s : Race δ}
    (hs : ((svc.raceSystem id database opening).restrict (WritesApart cache charset id)).Reachable s)
    (hidle : s.running = []) : CacheAgrees cache id rows s.shared := by
  have hkept : (cacheOutline cache charset id rows).Kept s := by
    refine (cacheOutline_sound hk hid cache).kept ?_ ?_ ?_ hs
    · rintro b rfl
      exact hopening
    · intro task s hfits hread _
      exact ⟨.none, fulfils_raceProgram h hid hfits hread, CacheDuty.free_none.current id _⟩
    · intro i s hcond
      exact hcond
  exact hkept.settled_of_idle hidle

def shopRow : OrderRow :=
  ⟨ascii "o1", ascii "u", ascii "p", 2, 5.0, ascii "CNY", ascii "Pending", ascii "order created",
    ascii "raw", 0⟩

def raceOpening : Backend OrderTable := ⟨∅, [shopRow], fun _ => 0, 0, fun _ => [], 0⟩

/-- The calls, with the table for the database. -/
def shopRace : ActionSystem (Race OrderTable) (PoolAction RaceCall) :=
  shopOrders.raceSystem (ascii "o1") OrderTable.database raceOpening

instance (a : PoolAction RaceCall) (s : Race OrderTable) : Decidable (shopRace.permitted a s) := by
  unfold shopRace
  infer_instance

theorem raceOpening_agrees :
    Stored (ascii "o1") raceOpening.db ∧
      CacheAgrees {} (ascii "o1") (fun t => t) raceOpening := by
  refine ⟨⟨shopRow, by decide, ?_, ?_⟩, ?_⟩
  · decide
  · decide
  · intro text htext
    exact absurd htext (by simp [raceOpening])

/-- A payment, with a reader between its read of the row and its put, and a cancellation that
writes before the payment is through. -/
def takingTurns : List (PoolAction RaceCall) :=
  [.start (.update .kPaid (ascii "card")), .start (.get false), .step 0, .step 0, .step 1,
    .step 1, .step 0, .step 0, .step 1, .step 1, .start (.cancel (ascii "late") true), .step 1,
    .step 1, .step 0, .step 0, .step 0, .step 0] ++ List.replicate 7 (.step 0)

theorem cache_agrees_takingTurns :
    let s := shopRace.run takingTurns ⟨raceOpening, []⟩
    s.running = [] ∧ s.shared.redis.lookup (ascii "order:o1") ≠ none ∧
      CacheAgrees {} (ascii "o1") (fun t => t) s.shared := by
  intro s
  have h0 : (shopRace.restrict (WritesApart {} singleByte (ascii "o1"))).Reachable
      ⟨raceOpening, []⟩ := .init ⟨rfl, rfl⟩
  have hp : (shopRace.restrict (WritesApart {} singleByte (ascii "o1"))).Permits takingTurns
      ⟨raceOpening, []⟩ := by decide +kernel
  have hlength : s.running.length = 0 := by decide +kernel
  have hidle : s.running = [] := List.length_eq_zero_iff.mp hlength
  refine ⟨hidle, by decide +kernel, ?_⟩
  exact cache_agrees_of_writesApart (OrderTable.keepsOrders_database _) (by decide)
    cachesOrders_shopOrders raceOpening_agrees (h0.run hp) hidle

/-- Two updates: the second one writes, reads and puts between the first one's read and put. -/
def overtaking : List (PoolAction RaceCall) :=
  [.start (.update .kPaid (ascii "card")), .start (.update .kCancelled (ascii "late")),
    .step 0, .step 0, .step 1, .step 1, .step 1, .step 1, .step 0, .step 0,
    .step 1, .step 1, .step 1, .step 1, .step 0, .step 0, .step 0, .step 0]

/-- No call is in flight, the table has the second update, and the cache the first one. -/
theorem overtaken_update_cached :
    let s := shopRace.run overtaking ⟨raceOpening, []⟩
    shopRace.Reachable s ∧ s.running = [] ∧ ¬CacheAgrees {} (ascii "o1") (fun t => t) s.shared := by
  intro s
  have h0 : shopRace.Reachable ⟨raceOpening, []⟩ := .init ⟨rfl, rfl⟩
  have hp : shopRace.Permits overtaking ⟨raceOpening, []⟩ := by decide +kernel
  have hidle : s.running.length = 0 := by decide +kernel
  refine ⟨h0.run hp, List.length_eq_zero_iff.mp hidle, ?_⟩
  intro hagree
  have hcached : ((s.shared.redis.lookup (ascii "order:o1")).bind fun text =>
      (OrderCache.deserializeOrder text).toOption.map (·.statusReason)) = some (ascii "card") := by
    decide +kernel
  have hstored : (s.shared.db.find? fun row => row.orderId = ascii "o1").map (·.statusReason) =
      some (ascii "late") := by decide +kernel
  obtain ⟨text, htext, htext'⟩ := Option.bind_eq_some_iff.mp hcached
  obtain ⟨r, row, hr, hrow, -, hreason⟩ := hagree text htext
  rw [hr] at htext'
  rw [hrow] at hstored
  have hcard : r.statusReason = ascii "card" := Option.some.inj htext'
  have hlate : row.statusReason = ascii "late" := Option.some.inj hstored
  rw [hcard, hlate] at hreason
  exact absurd hreason (by decide)

end OrderService

end MuduoPlus
