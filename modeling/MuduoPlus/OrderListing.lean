import Mathlib.Logic.Function.Basic
import MuduoPlus.OrderCodec
import MuduoPlus.OrderLifecycle
import MuduoPlus.OrderQueryHandler

namespace MuduoPlus

/-- Free of the delimiters of the cache, and of NUL, where Redis keys and values end. -/
def CleanText (text : Bytes) : Prop := 124 ∉ text ∧ 10 ∉ text ∧ 0 ∉ text

instance (text : Bytes) : Decidable (CleanText text) := by
  unfold CleanText
  infer_instance

namespace OrderRepository.Record

def Clean (r : Record) : Prop := ∀ text ∈ r.texts, CleanText text

instance (r : Record) : Decidable r.Clean := by
  unfold Clean
  infer_instance

theorem Clean.without_bar {r : Record} (h : r.Clean) : r.Without 124 := fun text ht => (h text ht).1

theorem Clean.without_line {r : Record} (h : r.Clean) : r.Without 10 := fun text ht => (h text ht).2.1

theorem Clean.without_nul {r : Record} (h : r.Clean) : r.Without 0 := fun text ht => (h text ht).2.2

end OrderRepository.Record

inductive ListingCall where
  | create (ctx : CreateContext)
  | update (orderId : Bytes) (status : OrderStatus) (reason : Bytes)
  | pay (orderId : Bytes) (paidAmount : Float) (paidAt : TimePoint)
  | cancel (orderId reason : Bytes) (releaseReservation : Bool)
  | list (userId : Bytes) (limit offset : UInt64) (preferCache : Bool)

/-- The strings of the call are plain. -/
def ListingCall.Plain (charset : Charset) : ListingCall → Prop
  | .create ctx => ctx.Plain charset
  | .update orderId status reason =>
    (OrderRepository.Statement.updateStatus orderId status reason).Plain charset
  | .pay orderId paidAmount paidAt =>
    (OrderRepository.Statement.updatePayment orderId paidAmount paidAt).Plain charset
  | .cancel orderId reason _ =>
    (OrderRepository.Statement.updateStatus orderId .kCancelled reason).Plain charset
  | .list userId limit offset _ =>
    (OrderRepository.Statement.selectByUser userId limit offset).Plain charset

/-- The backend, and for each user the page that was put into the cache, as long as none of the
user's orders was written since. -/
structure Listing (δ : Type) where
  backend : Backend δ
  pages : Bytes → Option (UInt64 × UInt64)

namespace OrderService

open Program OrderProgram OrderRepository InventoryService

/-- The same with the user index on. -/
structure UsesCache (svc : OrderService) (cache : OrderCache) : Prop
    extends svc.CachesOrders cache where
  index : cache.options.enableUserIndex = true
  userPrefix : cache.options.userIndexPrefix = ascii "user_orders:"

variable {svc : OrderService} {cache : OrderCache} {δ : Type} {database : Database δ}
  {charset : Charset} {rows : δ → OrderTable} {s : Listing δ} {b : Backend δ}

/-- What is left of the pages when the rows of an order are written. -/
def pagesWithout (rows : δ → OrderTable) (orderId : Bytes) (s : Listing δ) (userId : Bytes) :
    Option (UInt64 × UInt64) :=
  if ∃ row ∈ rows s.backend.db, row.orderId = orderId ∧ row.userId = userId then none
  else s.pages userId

/-- `ListOrdersByUser` answers from the cache, or not at all. -/
def FromCache (cache : OrderCache) (s : Listing δ) (userId : Bytes) (limit : UInt64)
    (preferCache : Bool) : Prop :=
  limit = 0 ∨ preferCache = true ∧ s.backend.redis.lookup (cache.userKey userId) ≠ none

instance (cache : OrderCache) (s : Listing δ) (userId : Bytes) (limit : UInt64)
    (preferCache : Bool) : Decidable (FromCache cache s userId limit preferCache) := by
  unfold FromCache
  infer_instance

def applyListing (svc : OrderService) (cache : OrderCache) (database : Database δ)
    (rows : δ → OrderTable) : ListingCall → Listing δ → Listing δ
  | .create ctx, s =>
    ⟨((svc.createOrder ctx).exec database.serve s.backend).2,
      Function.update s.pages ctx.entity.userId none⟩
  | .update orderId status reason, s =>
    ⟨((svc.updateStatus orderId status reason).exec database.serve s.backend).2,
      pagesWithout rows orderId s⟩
  | .pay orderId paidAmount paidAt, s =>
    ⟨((svc.markPaid orderId paidAmount paidAt).exec database.serve s.backend).2,
      pagesWithout rows orderId s⟩
  | .cancel orderId reason releaseReservation, s =>
    ⟨((svc.cancelOrder orderId reason releaseReservation).exec database.serve s.backend).2,
      pagesWithout rows orderId s⟩
  | .list userId limit offset preferCache, s =>
    ⟨((svc.listOrdersByUser userId limit offset preferCache).exec database.serve s.backend).2,
      if FromCache cache s userId limit preferCache then s.pages
      else Function.update s.pages userId (some (min limit svc.options.maxPageSize, offset))⟩

/-- One call after the other, with texts free of delimiters and numbers that fit the table, from
a cache without lists. -/
def listingSystem (svc : OrderService) (cache : OrderCache) (database : Database δ)
    (rows : δ → OrderTable) : ActionSystem (Listing δ) ListingCall where
  init s := (∀ row ∈ rows s.backend.db, (parseSingle row).Clean) ∧
    (∀ userId, s.backend.redis.lookup (cache.userKey userId) = none) ∧ ∀ userId, s.pages userId = none
  permitted
    | .create ctx, s => OrderTable.Fits ctx.entity ∧ ctx.entity.Clean ∧ CleanText ctx.rawPayload ∧
        ∀ row ∈ rows s.backend.db, row.orderId ≠ ctx.entity.orderId
    | .update _ _ reason, _ => CleanText reason
    | .pay _ paidAmount _, _ => (OrderTable.sqlDouble paidAmount).isSome = true
    | .cancel _ reason _, _ => CleanText reason
    | .list userId _ _ _, _ => CleanText userId
  apply := svc.applyListing cache database rows

/-- The user's list is not in the cache, or it is there with this page and still current. The user
id is plain, and the user's orders have an order. -/
structure Current (cache : OrderCache) (charset : Charset) (rows : δ → OrderTable) (s : Listing δ)
    (userId : Bytes) (limit offset : UInt64) : Prop where
  plain : (Statement.selectByUser userId limit offset).Plain charset
  apart : OrderTable.SecondsApart userId (rows s.backend.db)
  kept : s.backend.redis.lookup (cache.userKey userId) = none ∨ s.pages userId = some (limit, offset)

/-- The same orders with the same statuses, in the same order. -/
def SameOrders (l l' : List Record) : Prop :=
  l.map (fun r => (r.orderId, r.status)) = l'.map fun r => (r.orderId, r.status)

/-- `ListOrdersByUser` gives the same with and without the cache, and no more than a page. -/
def ListAgrees (svc : OrderService) (database : Database δ) (b : Backend δ) (userId : Bytes)
    (limit offset : UInt64) : Prop :=
  ∃ l l',
    ((svc.listOrdersByUser userId limit offset true).exec database.serve b).1 = .ok l ∧
    ((svc.listOrdersByUser userId limit offset false).exec database.serve b).1 = .ok l' ∧
    SameOrders l l' ∧ l.length ≤ (min limit svc.options.maxPageSize).toNat

/-- The query handler that does not look into the cache. -/
def plainHandler (q : OrderQueryHandler) : OrderQueryHandler :=
  { q with options := { q.options with preferCache := false } }

/-- `handleListByUser` answers the same orders with and without the cache. -/
def QueryAgrees (q : OrderQueryHandler) (database : Database δ) (b : Backend δ) (req : HttpRequest)
    (resp : HttpResponse) : Prop :=
  ∃ l l',
    ((q.handleListByUser req resp).exec database.serve b).1 = .ok (q.respondList l resp) ∧
    (((plainHandler q).handleListByUser req resp).exec database.serve b).1 =
      .ok (q.respondList l' resp) ∧
    SameOrders l l' ∧ l.length ≤ (q.extractLimit req).toNat

structure ListingInv (cache : OrderCache) (rows : δ → OrderTable) (s : Listing δ) : Prop where
  clean : ∀ row ∈ rows s.backend.db, (parseSingle row).Clean
  nulFree : ∀ userId page, s.pages userId = some page → 0 ∉ userId
  entry : ∀ userId limit offset, s.pages userId = some (limit, offset) →
    OrderTable.SecondsApart userId (rows s.backend.db) →
    s.backend.redis.lookup (cache.userKey userId) = some (OrderCache.serializeOrderList
      (parseMany (OrderTable.page userId limit offset (rows s.backend.db))))

theorem userKey_ne_orderKey (h : svc.UsesCache cache) (userId : Bytes) (cache' : OrderCache)
    (hin : svc.cacheInUse = some cache') (orderId : Bytes) :
    cache.userKey userId ≠ cache'.orderKey orderId := by
  obtain rfl := Option.some.inj (h.inUse.symm.trans hin)
  exact OrderCache.userKey_ne_orderKey h.userPrefix h.orderPrefix userId orderId

/-- A write to the table: rows stay clean, the lists in the cache stay as they are, and the rows of
the users whose pages are still counted as current do not change. -/
theorem ListingInv.written (hi : ListingInv cache rows s) {b' : Backend δ}
    {pages : Bytes → Option (UInt64 × UInt64)}
    (hclean : ∀ row ∈ rows b'.db, (parseSingle row).Clean)
    (hredis : ∀ userId, b'.redis.lookup (cache.userKey userId) =
      s.backend.redis.lookup (cache.userKey userId))
    (hpages : ∀ userId page, pages userId = some page → s.pages userId = some page ∧
      (rows b'.db).filter (fun row => row.userId = userId) =
        (rows s.backend.db).filter fun row => row.userId = userId) :
    ListingInv cache rows ⟨b', pages⟩ := by
  refine ⟨hclean, ?_, ?_⟩
  · intro userId page hp
    exact hi.nulFree userId page (hpages userId page hp).1
  · intro userId limit offset hp hapart
    obtain ⟨hold, hsame⟩ := hpages userId _ hp
    unfold OrderTable.SecondsApart at hapart
    dsimp only at hapart ⊢
    rw [hsame] at hapart
    rw [hredis userId, OrderTable.page, hsame]
    exact hi.entry userId limit offset hold hapart

theorem ListingInv.rewritten (hi : ListingInv cache rows s) {b' : Backend δ} {id : Bytes}
    {f : OrderRow → OrderRow} (hdb : rows b'.db = OrderTable.rewriteRows id f (rows s.backend.db))
    (hf : ∀ row, (f row).userId = row.userId)
    (hclean : ∀ row, (parseSingle row).Clean → (parseSingle (f row)).Clean)
    (hredis : ∀ userId, b'.redis.lookup (cache.userKey userId) =
      s.backend.redis.lookup (cache.userKey userId)) :
    ListingInv cache rows ⟨b', pagesWithout rows id s⟩ := by
  refine hi.written ?_ hredis ?_
  · intro row hrow
    rw [hdb] at hrow
    obtain ⟨old, hold, rfl⟩ := OrderTable.mem_rewriteRows hrow
    split
    next => exact hclean old (hi.clean old hold)
    next => exact hi.clean old hold
  · intro userId page hp
    unfold pagesWithout at hp
    split at hp
    next => cases hp
    next hno =>
      refine ⟨hp, ?_⟩
      rw [hdb]
      apply OrderTable.filter_rewriteRows_other hf
      intro row hrow hid hu
      exact hno ⟨row, hrow, hid, hu⟩

theorem clean_withStatus {row : OrderRow} {reason : Bytes} (status : OrderStatus)
    (hreason : CleanText reason) (h : (parseSingle row).Clean) :
    (parseSingle (OrderTable.withStatus status reason row)).Clean := by
  simp only [Record.Clean, Record.texts, List.forall_mem_cons] at h ⊢
  obtain ⟨horder, huser, hproduct, hcurrency, _, hpayload, hnil⟩ := h
  exact ⟨horder, huser, hproduct, hcurrency, hreason, hpayload, hnil⟩

theorem clean_opened {ctx : CreateContext} (h : ctx.entity.Clean) (hraw : CleanText ctx.rawPayload)
    (b : Backend δ) : (opened ctx b).Clean := by
  have hreason : CleanText (ascii "order created") := by decide
  simp only [Record.Clean, Record.texts, List.forall_mem_cons] at h ⊢
  obtain ⟨horder, huser, hproduct, hcurrency, _, _, hnil⟩ := h
  exact ⟨horder, huser, hproduct, hcurrency, hreason, hraw, hnil⟩

theorem clean_refusedOrder {ctx : CreateContext} (h : ctx.entity.Clean)
    (hraw : CleanText ctx.rawPayload) (b : Backend δ) : (refusedOrder ctx b).Clean := by
  have hreason : CleanText (ascii "inventory reservation failed") := by decide
  simp only [Record.Clean, Record.texts, List.forall_mem_cons] at h ⊢
  obtain ⟨horder, huser, hproduct, hcurrency, _, _, hnil⟩ := h
  exact ⟨horder, huser, hproduct, hcurrency, hreason, hraw, hnil⟩

theorem ListingInv.added (hi : ListingInv cache rows s) {b' : Backend δ} {e : OrderEntity}
    {amount : Float} (hdb : rows b'.db = rows s.backend.db ++ [OrderTable.rowWith e amount])
    (he : e.Clean)
    (hredis : ∀ userId, b'.redis.lookup (cache.userKey userId) =
      s.backend.redis.lookup (cache.userKey userId)) :
    ListingInv cache rows ⟨b', Function.update s.pages e.userId none⟩ := by
  refine hi.written ?_ hredis ?_
  · intro row hrow
    rw [hdb] at hrow
    rcases List.mem_append.mp hrow with hrow | hrow
    · exact hi.clean row hrow
    · rw [List.mem_singleton.mp hrow]
      exact he
  · intro userId page hp
    by_cases hu : userId = e.userId
    · rw [hu, Function.update_self] at hp
      cases hp
    · rw [Function.update_of_ne hu] at hp
      refine ⟨hp, ?_⟩
      rw [hdb]
      exact OrderTable.filter_append_other (Ne.symm hu)

theorem ListingInv.create (hk : database.KeepsOrders (Statement.Plain charset) rows)
    (h : svc.UsesCache cache) (hi : ListingInv cache rows s) {ctx : CreateContext}
    (hplain : ctx.Plain charset) (hfits : OrderTable.Fits ctx.entity) (hclean : ctx.entity.Clean)
    (hraw : CleanText ctx.rawPayload)
    (hnew : ∀ row ∈ rows s.backend.db, row.orderId ≠ ctx.entity.orderId) :
    ListingInv cache rows (svc.applyListing cache database rows (.create ctx) s) := by
  have hopened : OrderTable.Fits (opened ctx s.backend) := hfits
  have hrefused : OrderTable.Fits (refusedOrder ctx s.backend) := hfits
  obtain ⟨amount, hrow⟩ := OrderTable.exists_rowOf hopened
  obtain ⟨amount', hrow'⟩ := OrderTable.exists_rowOf hrefused
  have hinsert : (Statement.insert (opened ctx s.backend)).Plain charset :=
    plain_insert hplain (by simp) _ _ _
  have hinsert' : (Statement.insert (refusedOrder ctx s.backend)).Plain charset :=
    plain_insert hplain (by simp) _ _ _
  obtain ⟨n, hn, hcount⟩ := hk.insert_counted hinsert hrow hnew
  obtain ⟨n', -, hcount'⟩ := hk.insert_counted hinsert' hrow' hnew
  have hcached : ∀ e redis userId, (svc.cachedBy e redis).lookup (cache.userKey userId) =
      redis.lookup (cache.userKey userId) :=
    fun e redis userId => lookup_cachedBy (userKey_ne_orderKey h userId) e redis
  unfold applyListing
  dsimp only
  cases hres : svc.reservingInventory ctx with
  | none =>
    rw [createOrder_unreserved h.database hres hn hcount]
    exact hi.added (e := opened ctx s.backend) (hk.rows_insert hinsert hrow hnew)
      (clean_opened hclean hraw _) fun userId => hcached _ _ userId
  | some inv =>
    have hinv : svc.deps.inventory = some inv := inventory_of_reserving hres
    by_cases hg : inv.Grants ctx.entity.toOrderRecord s.backend.redis
    · obtain ⟨hredis, horders, k, hs, hq⟩ := hg
      rw [createOrder_granted h.database hres (reserveForOrder_granted hredis horders hs hq) hn
        hcount]
      refine hi.added (e := opened ctx s.backend) (hk.rows_insert hinsert hrow hnew)
        (clean_opened hclean hraw _) fun userId => ?_
      have hp := h.inventory inv hinv
      refine (hcached _ _ userId).trans ?_
      exact lookup_reserved (OrderCache.userKey_ne_stockKey h.userPrefix hp userId)
        (OrderCache.userKey_ne_reservationKey h.userPrefix hp userId) k
    · obtain ⟨error, herror⟩ := reserveForOrder_of_not_grants hg
      rw [createOrder_refused h.database hres herror hcount']
      exact hi.added (e := refusedOrder ctx s.backend) (hk.rows_insert hinsert' hrow' hnew)
        (clean_refusedOrder hclean hraw _) fun userId => hcached _ _ userId

theorem admits_userKeys (h : svc.UsesCache cache) :
    svc.Admits (OrderCommand.Spares fun key => ∃ userId, key = cache.userKey userId) := by
  apply admits_spares
  rintro cache' hcache orderId ⟨userId, hkey⟩
  exact userKey_ne_orderKey h userId cache' hcache orderId hkey.symm

theorem ListingInv.update (hk : database.KeepsOrders (Statement.Plain charset) rows)
    (h : svc.UsesCache cache) (hi : ListingInv cache rows s) {orderId : Bytes} {status : OrderStatus}
    {reason : Bytes} (hplain : (Statement.updateStatus orderId status reason).Plain charset)
    (hreason : CleanText reason) :
    ListingInv cache rows
      (svc.applyListing cache database rows (.update orderId status reason) s) := by
  have hspared := spared_updateStatus (b := s.backend) hk h.database (admits_userKeys h) hplain
  exact hi.rewritten (f := OrderTable.withStatus status reason)
    ((congrArg rows hspared.db).trans (hk.update hplain trivial _)) (fun _ => rfl)
    (fun _ => clean_withStatus status hreason) fun userId => hspared.redis _ ⟨userId, rfl⟩

theorem ListingInv.pay (hk : database.KeepsOrders (Statement.Plain charset) rows)
    (h : svc.UsesCache cache) (hi : ListingInv cache rows s) {orderId : Bytes}
    {paidAmount amount : Float} {paidAt : TimePoint}
    (hplain : (Statement.updatePayment orderId paidAmount paidAt).Plain charset)
    (hpaid : OrderTable.sqlDouble paidAmount = some amount) :
    ListingInv cache rows
      (svc.applyListing cache database rows (.pay orderId paidAmount paidAt) s) := by
  have hspared := spared_markPaid (b := s.backend) hk h.database (admits_userKeys h) hplain
  have hrows := hk.update hplain trivial s.backend.db
  rw [OrderTable.update_updatePayment hpaid] at hrows
  exact hi.rewritten (f := OrderTable.withPayment amount)
    ((congrArg rows hspared.db).trans hrows) (fun _ => rfl) (fun _ hclean => hclean)
    fun userId => hspared.redis _ ⟨userId, rfl⟩

theorem lookup_givenBack (h : svc.UsesCache cache) (r : Record) (releaseReservation : Bool)
    (redis : Dict) (userId : Bytes) :
    (svc.givenBack r releaseReservation redis).lookup (cache.userKey userId) =
      redis.lookup (cache.userKey userId) := by
  unfold givenBack
  split
  next inv hinv =>
    split
    next =>
      have hp := h.inventory inv hinv
      exact lookup_releaseReservation (OrderCache.userKey_ne_stockKey h.userPrefix hp userId)
        (OrderCache.userKey_ne_reservationKey h.userPrefix hp userId)
    next => rfl
  next => rfl

theorem ListingInv.cancel (hk : database.KeepsOrders (Statement.Plain charset) rows)
    (h : svc.UsesCache cache) (hi : ListingInv cache rows s) {orderId reason : Bytes}
    (hplain : (Statement.updateStatus orderId .kCancelled reason).Plain charset)
    (hreason : CleanText reason) (releaseReservation : Bool) :
    ListingInv cache rows
      (svc.applyListing cache database rows (.cancel orderId reason releaseReservation) s) := by
  unfold applyListing
  dsimp only
  cases hfind : (rows s.backend.db).find? (fun row => row.orderId = orderId) with
  | none =>
    have hmissing : ∀ row ∈ rows s.backend.db, row.orderId ≠ orderId := by
      intro row hrow
      simpa using List.find?_eq_none.mp hfind row hrow
    rw [exec_cancelOrder_missing hk hplain.selectById h.database hmissing]
    refine hi.written hi.clean (fun _ => rfl) fun userId page hp => ⟨?_, rfl⟩
    unfold pagesWithout at hp
    split at hp
    next => cases hp
    next => exact hp
  | some row =>
    obtain ⟨found, redis, hexec, hlookup⟩ :=
      exec_cancelOrder hk hplain.selectById h.database hplain hfind releaseReservation
    rw [hexec]
    refine hi.rewritten (f := OrderTable.withStatus .kCancelled reason) (hk.update hplain trivial _)
      (fun _ => rfl) (fun _ => clean_withStatus .kCancelled hreason) fun userId => ?_
    refine (hlookup _ (userKey_ne_orderKey h userId)).trans ?_
    cases found with
    | false => rfl
    | true => exact lookup_givenBack h _ _ _ userId

/-- The list that the plain path reads. -/
def listed (database : Database δ) (b : Backend δ) (userId : Bytes) (limit offset : UInt64) :
    List Record :=
  match database.query (.selectByUser userId limit offset) b.db with
  | .ok rows => parseMany rows
  | .error _ => []

/-- The backend once that list was put into the cache. -/
def withList (cache : OrderCache) (database : Database δ) (b : Backend δ) (userId : Bytes)
    (limit offset : UInt64) : Backend δ :=
  let text := cString (OrderCache.serializeOrderList (listed database b userId limit offset))
  { b with redis := b.redis.insert (cache.userKey userId) text }

section Listed

variable {userId : Bytes} {limit offset : UInt64}
  (hk : database.KeepsOrders (Statement.Plain charset) rows)
  (hplain : (Statement.selectByUser userId limit offset).Plain charset)

include hk hplain

theorem exec_listByUser :
    (listByUser userId limit offset).exec database.serve b =
      (.ok (listed database b userId limit offset), b) := by
  obtain ⟨found, -, -, hquery⟩ := hk.byUser hplain b.db
  unfold listByUser listed
  rw [exec_bind_pure, exec_submitQuery, hquery]
  rfl

theorem exists_of_mem_listed {r : Record} (hr : r ∈ listed database b userId limit offset) :
    ∃ row ∈ rows b.db, r = parseSingle row := by
  obtain ⟨found, hperm, -, hquery⟩ := hk.byUser hplain b.db
  unfold listed at hr
  rw [hquery] at hr
  obtain ⟨row, hrow, rfl⟩ := List.mem_map.mp hr
  have hmem := hperm.mem_iff.mp (List.mem_of_mem_drop (List.mem_of_mem_take hrow))
  exact ⟨row, List.mem_of_mem_filter hmem, rfl⟩

theorem length_listed_le : (listed database b userId limit offset).length ≤ limit.toNat := by
  obtain ⟨found, -, -, hquery⟩ := hk.byUser hplain b.db
  unfold listed
  rw [hquery]
  dsimp only [parseMany]
  rw [List.length_map]
  exact List.length_take_le _ _

/-- Orders of different seconds come in the one order there is. -/
theorem listed_of_secondsApart (hapart : OrderTable.SecondsApart userId (rows b.db)) :
    listed database b userId limit offset =
      parseMany (OrderTable.page userId limit offset (rows b.db)) := by
  obtain ⟨found, hperm, hsorted, hquery⟩ := hk.byUser hplain b.db
  unfold listed
  rw [hquery, OrderTable.eq_newestFirst_of_secondsApart hapart hperm hsorted]
  rfl

theorem exec_loadUserOrders (h : svc.UsesCache cache) :
    (svc.loadUserOrders userId limit offset).exec database.serve b =
      (.ok (listed database b userId limit offset),
        withList cache database b userId limit offset) := by
  unfold loadUserOrders
  rw [if_pos h.database, exec_bind_ok (exec_listByUser hk hplain), h.inUse]
  dsimp only
  rw [exec_bind_ok (OrderCache.exec_putUserOrders h.pool h.index userId _), exec_pure]
  rfl

end Listed

theorem exec_list_plain (hk : database.KeepsOrders (Statement.Plain charset) rows)
    (h : svc.UsesCache cache) {userId : Bytes} {limit offset : UInt64}
    (hplain : (Statement.selectByUser userId limit offset).Plain charset) (hlimit : limit ≠ 0) :
    (svc.listOrdersByUser userId limit offset false).exec database.serve b =
      (.ok (listed database b userId (min limit svc.options.maxPageSize) offset),
        withList cache database b userId (min limit svc.options.maxPageSize) offset) := by
  unfold listOrdersByUser
  rw [if_neg hlimit, if_neg Bool.false_ne_true,
    exec_loadUserOrders hk (hplain.selectByUser _ offset) h]

theorem exec_list_miss (hk : database.KeepsOrders (Statement.Plain charset) rows)
    (h : svc.UsesCache cache) {userId : Bytes} {limit offset : UInt64}
    (hplain : (Statement.selectByUser userId limit offset).Plain charset) (hlimit : limit ≠ 0)
    (hl : b.redis.lookup (cache.userKey userId) = none) :
    (svc.listOrdersByUser userId limit offset true).exec database.serve b =
      (.ok (listed database b userId (min limit svc.options.maxPageSize) offset),
        withList cache database b userId (min limit svc.options.maxPageSize) offset) := by
  have hfetch : (svc.fetchUserOrders userId).exec database.serve b = (.ok none, b) := by
    unfold fetchUserOrders
    rw [h.inUse]
    exact OrderCache.exec_getUserOrders_miss h.pool h.index hl
  unfold listOrdersByUser
  rw [if_neg hlimit, if_pos rfl, exec_bind_ok hfetch]
  exact exec_loadUserOrders hk (hplain.selectByUser _ offset) h

theorem exec_list_hit (h : svc.UsesCache cache) {limit : UInt64} (hlimit : limit ≠ 0)
    {userId text : Bytes} {records : List Record}
    (hl : b.redis.lookup (cache.userKey userId) = some text)
    (hd : OrderCache.deserializeOrderList text = .ok records) (offset : UInt64) :
    (svc.listOrdersByUser userId limit offset true).exec database.serve b =
      (.ok records, b) := by
  have hfetch : (svc.fetchUserOrders userId).exec database.serve b =
      (.ok (some records), b) := by
    unfold fetchUserOrders
    rw [h.inUse]
    exact OrderCache.exec_getUserOrders_hit h.pool h.index hl hd
  unfold listOrdersByUser
  rw [if_neg hlimit, if_pos rfl, exec_bind_ok hfetch]
  rfl

theorem exec_list_unreadable (h : svc.UsesCache cache) {limit : UInt64} (hlimit : limit ≠ 0)
    {userId text : Bytes} {e : StdException}
    (hl : b.redis.lookup (cache.userKey userId) = some text)
    (hd : OrderCache.deserializeOrderList text = .error e) (offset : UInt64) :
    (svc.listOrdersByUser userId limit offset true).exec database.serve b =
      (.error (.std e), b) := by
  have hfetch : (svc.fetchUserOrders userId).exec database.serve b =
      (.error (.std e), b) := by
    unfold fetchUserOrders
    rw [h.inUse]
    exact OrderCache.exec_getUserOrders_unreadable h.pool h.index hl hd
  unfold listOrdersByUser
  rw [if_neg hlimit, if_pos rfl, exec_bind_error hfetch]

/-- A list from the cache, or none at all, leaves everything as it is. -/
theorem exec_list_fromCache (h : svc.UsesCache cache) {userId : Bytes} {limit : UInt64}
    {preferCache : Bool} (hf : FromCache cache s userId limit preferCache) (offset : UInt64) :
    ((svc.listOrdersByUser userId limit offset preferCache).exec database.serve
      s.backend).2 = s.backend := by
  by_cases hlimit : limit = 0
  · unfold listOrdersByUser
    rw [if_pos hlimit, exec_pure]
  · rcases hf with hzero | ⟨rfl, hl⟩
    · exact absurd hzero hlimit
    · obtain ⟨text, hl⟩ := Option.ne_none_iff_exists'.mp hl
      cases hd : OrderCache.deserializeOrderList text with
      | error e => rw [exec_list_unreadable h hlimit hl hd]
      | ok records => rw [exec_list_hit h hlimit hl hd]

theorem exec_list_fromDatabase (hk : database.KeepsOrders (Statement.Plain charset) rows)
    (h : svc.UsesCache cache) {userId : Bytes} {limit offset : UInt64} {preferCache : Bool}
    (hplain : (Statement.selectByUser userId limit offset).Plain charset)
    (hf : ¬FromCache cache s userId limit preferCache) :
    (svc.listOrdersByUser userId limit offset preferCache).exec database.serve s.backend =
      (.ok (listed database s.backend userId (min limit svc.options.maxPageSize) offset),
        withList cache database s.backend userId (min limit svc.options.maxPageSize) offset) := by
  have hlimit : limit ≠ 0 := fun hzero => hf (Or.inl hzero)
  cases preferCache with
  | false => exact exec_list_plain hk h hplain hlimit
  | true =>
    have hl : s.backend.redis.lookup (cache.userKey userId) = none := by
      by_contra hne
      exact hf (Or.inr ⟨rfl, hne⟩)
    exact exec_list_miss hk h hplain hlimit hl

/-- The records of a clean table are clean. -/
theorem ListingInv.clean_listed (hk : database.KeepsOrders (Statement.Plain charset) rows)
    (hi : ListingInv cache rows s) {userId : Bytes} {limit offset : UInt64}
    (hplain : (Statement.selectByUser userId limit offset).Plain charset) :
    ∀ r ∈ listed database s.backend userId limit offset, r.Clean := by
  intro r hr
  obtain ⟨row, hrow, rfl⟩ := exists_of_mem_listed hk hplain hr
  exact hi.clean row hrow

theorem nul_not_mem_serializeOrderList {records : List Record} (h : ∀ r ∈ records, r.Clean) :
    0 ∉ OrderCache.serializeOrderList records := by
  apply not_mem_joinWith (by decide)
  intro x hx
  obtain ⟨r, hr, rfl⟩ := List.mem_map.mp hx
  exact OrderCache.not_mem_serializeOrder (fun hb => absurd hb.1 (by decide)) (by decide)
    (h r hr).without_nul

theorem ListingInv.list (hk : database.KeepsOrders (Statement.Plain charset) rows)
    (h : svc.UsesCache cache) (hi : ListingInv cache rows s) {userId : Bytes} {limit offset : UInt64}
    (hplain : (Statement.selectByUser userId limit offset).Plain charset) (hu : CleanText userId)
    (preferCache : Bool) :
    ListingInv cache rows
      (svc.applyListing cache database rows (.list userId limit offset preferCache) s) := by
  unfold applyListing
  dsimp only
  by_cases hf : FromCache cache s userId limit preferCache
  · rw [if_pos hf, exec_list_fromCache h hf]
    exact hi
  · rw [if_neg hf, exec_list_fromDatabase hk h hplain hf]
    have hplain' := hplain.selectByUser (min limit svc.options.maxPageSize) offset
    refine ⟨hi.clean, ?_, ?_⟩
    · intro u page hp
      by_cases he : u = userId
      · rw [he]
        exact hu.2.2
      · dsimp only at hp
        rw [Function.update_of_ne he] at hp
        exact hi.nulFree u page hp
    · intro u limit' offset' hp hapart
      dsimp only at hp hapart ⊢
      by_cases he : u = userId
      · subst he
        rw [Function.update_self] at hp
        obtain ⟨rfl, rfl⟩ := Prod.mk.inj (Option.some.inj hp)
        have hlist := listed_of_secondsApart (b := s.backend) hk hplain' hapart
        rw [withList, cString_of_nulFree (nul_not_mem_serializeOrderList
          (hi.clean_listed hk hplain')), hlist]
        exact Finmap.lookup_insert _
      · rw [Function.update_of_ne he] at hp
        have hnul := hi.nulFree u _ hp
        rw [withList, Finmap.lookup_insert_of_ne _ fun hkey =>
          he (OrderCache.userKey_injective h.userPrefix hnul hu.2.2 hkey)]
        exact hi.entry u limit' offset' hp hapart

theorem listingInv_of_reachable (hk : database.KeepsOrders (Statement.Plain charset) rows)
    (h : svc.UsesCache cache)
    (hs : ((svc.listingSystem cache database rows).restrict fun call _ =>
      call.Plain charset).Reachable s) : ListingInv cache rows s := by
  apply hs.invariant
  · intro s h0
    refine ⟨h0.1, ?_, ?_⟩
    · intro userId page hp
      rw [h0.2.2 userId] at hp
      cases hp
    · intro userId limit offset hp
      rw [h0.2.2 userId] at hp
      cases hp
  · intro call s hperm hi
    obtain ⟨hperm, hplain⟩ := hperm
    cases call with
    | create ctx => exact hi.create hk h hplain hperm.1 hperm.2.1 hperm.2.2.1 hperm.2.2.2
    | update orderId status reason => exact hi.update hk h hplain hperm
    | pay orderId paidAmount paidAt =>
      obtain ⟨amount, hpaid⟩ := Option.isSome_iff_exists.mp hperm
      exact hi.pay hk h hplain hpaid
    | cancel orderId reason releaseReservation =>
      exact hi.cancel hk h hplain hperm releaseReservation
    | list userId limit offset preferCache => exact hi.list hk h hplain hperm preferCache

theorem sameOrders_asCached (l : List Record) : SameOrders (l.map Record.asCached) l := by
  unfold SameOrders
  rw [List.map_map]
  rfl

/-- What the cache has for a user with a current page reads as that page. -/
theorem ListingInv.deserialize_entry (hk : database.KeepsOrders (Statement.Plain charset) rows)
    (hi : ListingInv cache rows s) {userId : Bytes} {limit offset : UInt64}
    (hplain : (Statement.selectByUser userId limit offset).Plain charset)
    (hapart : OrderTable.SecondsApart userId (rows s.backend.db))
    (hp : s.pages userId = some (limit, offset)) :
    ∃ text, s.backend.redis.lookup (cache.userKey userId) = some text ∧
      OrderCache.deserializeOrderList text =
        .ok ((listed database s.backend userId limit offset).map Record.asCached) := by
  have hclean := hi.clean_listed hk hplain
  refine ⟨_, hi.entry userId limit offset hp hapart, ?_⟩
  rw [← listed_of_secondsApart hk hplain hapart]
  exact OrderCache.deserializeList_of_without (fun r hr => (hclean r hr).without_bar)
    fun r hr => (hclean r hr).without_line

theorem ListingInv.listAgrees (hk : database.KeepsOrders (Statement.Plain charset) rows)
    (h : svc.UsesCache cache) (hi : ListingInv cache rows s) {userId : Bytes} {limit offset : UInt64}
    (hc : Current cache charset rows s userId (min limit svc.options.maxPageSize) offset) :
    ListAgrees svc database s.backend userId limit offset := by
  by_cases hlimit : limit = 0
  · refine ⟨[], [], ?_, ?_, rfl, Nat.zero_le _⟩ <;>
      (unfold listOrdersByUser; rw [if_pos hlimit, exec_pure])
  · have hplain := exec_list_plain (b := s.backend) hk h (hc.plain.selectByUser limit offset) hlimit
    have hlength := length_listed_le (b := s.backend) hk hc.plain
    rcases hc.kept with hmiss | hp
    · refine ⟨_, _, ?_, congrArg Prod.fst hplain, rfl, hlength⟩
      exact congrArg Prod.fst (exec_list_miss hk h (hc.plain.selectByUser limit offset) hlimit hmiss)
    · obtain ⟨text, hl, hd⟩ := hi.deserialize_entry hk hc.plain hc.apart hp
      refine ⟨_, _, ?_, congrArg Prod.fst hplain, sameOrders_asCached _, ?_⟩
      · exact congrArg Prod.fst (exec_list_hit h hlimit hl hd offset)
      · rw [List.length_map]
        exact hlength

section Query

variable {q : OrderQueryHandler} {req : HttpRequest} {resp : HttpResponse} {userId : Bytes}

theorem exec_listFromDatabase (hk : database.KeepsOrders (Statement.Plain charset) rows)
    (hq : q.deps.cache = some cache) (h : svc.UsesCache cache) {limit offset : UInt64}
    (hplain : (Statement.selectByUser userId limit offset).Plain charset) :
    ((q.listFromDatabase userId limit offset).exec database.serve b).1 =
      .ok (listed database b userId limit offset) := by
  have hfetch : (OrderQueryHandler.fetchListFromDatabase userId limit offset).exec
      database.serve b = (.ok (listed database b userId limit offset), b) := by
    unfold OrderQueryHandler.fetchListFromDatabase
    rw [exec_tryCatch, exec_listByUser hk hplain]
  unfold OrderQueryHandler.listFromDatabase
  rw [exec_bind_ok hfetch]
  split
  next hnil => rw [hnil, exec_pure]
  next =>
    unfold OrderQueryHandler.warmupUserCache
    rw [hq]
    dsimp only
    rw [exec_bind, exec_bind_ok (OrderCache.exec_putUserOrders h.pool h.index userId _), exec_pure]
    rfl

theorem exec_handleListByUser {records : List Record}
    (hu : OrderQueryHandler.extractUserId req = some userId)
    (hlist : ((q.listByUser userId (q.extractLimit req) (OrderQueryHandler.extractOffset req)).exec
      database.serve b).1 = .ok records) :
    ((q.handleListByUser req resp).exec database.serve b).1 =
      .ok (q.respondList records resp) := by
  unfold OrderQueryHandler.handleListByUser
  rw [hu]
  dsimp only
  rw [exec_bind_ok (Prod.ext hlist rfl), exec_pure]

theorem exec_fetchListFromCache_miss (hq : q.deps.cache = some cache) (h : svc.UsesCache cache)
    (hl : b.redis.lookup (cache.userKey userId) = none) :
    (q.fetchListFromCache userId).exec database.serve b = (.ok [], b) := by
  unfold OrderQueryHandler.fetchListFromCache
  rw [hq]
  dsimp only
  rw [exec_tryCatch, exec_bind_ok (OrderCache.exec_getUserOrders_miss h.pool h.index hl), exec_pure]
  rfl

theorem exec_fetchListFromCache_hit (hq : q.deps.cache = some cache) (h : svc.UsesCache cache)
    {text : Bytes} {records : List Record}
    (hl : b.redis.lookup (cache.userKey userId) = some text)
    (hd : OrderCache.deserializeOrderList text = .ok records) :
    (q.fetchListFromCache userId).exec database.serve b = (.ok records, b) := by
  unfold OrderQueryHandler.fetchListFromCache
  rw [hq]
  dsimp only
  rw [exec_tryCatch, exec_bind_ok (OrderCache.exec_getUserOrders_hit h.pool h.index hl hd),
    exec_pure]
  rfl

/-- The list of the handler: from the cache unless nothing or an empty list is there. -/
theorem listByUser_fromCache {records : List Record}
    (hk : database.KeepsOrders (Statement.Plain charset) rows) (hq : q.deps.cache = some cache)
    (h : svc.UsesCache cache) {limit offset : UInt64}
    (hplain : (Statement.selectByUser userId limit offset).Plain charset)
    (hfetch : (q.fetchListFromCache userId).exec database.serve b = (.ok records, b)) :
    ((q.listByUser userId limit offset).exec database.serve b).1 =
      .ok (if q.options.preferCache = true ∧ records ≠ [] then records
        else listed database b userId limit offset) := by
  unfold OrderQueryHandler.listByUser
  rw [hq, Option.isSome_some, Bool.and_true]
  split
  next hprefer =>
    rw [exec_bind_ok hfetch]
    split
    next hnil =>
      rw [exec_listFromDatabase hk hq h hplain, if_neg fun hr => hr.2 hnil]
    next hne =>
      rw [exec_pure, if_pos ⟨hprefer, hne⟩]
  next hprefer =>
    rw [exec_listFromDatabase hk hq h hplain, if_neg fun hr => hprefer hr.1]

theorem ListingInv.queryAgrees (hk : database.KeepsOrders (Statement.Plain charset) rows)
    (h : svc.UsesCache cache) (hi : ListingInv cache rows s) (hq : q.deps.cache = some cache)
    (hu : OrderQueryHandler.extractUserId req = some userId)
    (hc : Current cache charset rows s userId (q.extractLimit req)
      (OrderQueryHandler.extractOffset req)) :
    QueryAgrees q database s.backend req resp := by
  obtain ⟨records, hfetch, hsame⟩ : ∃ records,
      (q.fetchListFromCache userId).exec database.serve s.backend = (.ok records, s.backend) ∧
      (records ≠ [] → records = (listed database s.backend userId (q.extractLimit req)
        (OrderQueryHandler.extractOffset req)).map Record.asCached) := by
    rcases hc.kept with hmiss | hp
    · exact ⟨[], exec_fetchListFromCache_miss hq h hmiss, fun hne => absurd rfl hne⟩
    · obtain ⟨text, hl, hd⟩ := hi.deserialize_entry hk hc.plain hc.apart hp
      exact ⟨_, exec_fetchListFromCache_hit hq h hl hd, fun _ => rfl⟩
  have hplain : (((plainHandler q).handleListByUser req resp).exec database.serve
      s.backend).1 = .ok (q.respondList (listed database s.backend userId (q.extractLimit req)
        (OrderQueryHandler.extractOffset req)) resp) := by
    refine exec_handleListByUser (q := plainHandler q) hu ?_
    exact exec_listFromDatabase (q := plainHandler q) hk hq h hc.plain
  have hlist := listByUser_fromCache hk hq h hc.plain hfetch
  have hlength := length_listed_le (b := s.backend) hk hc.plain
  refine ⟨_, _, exec_handleListByUser hu hlist, hplain, ?_, ?_⟩
  · split
    next hr =>
      rw [hsame hr.2]
      exact sameOrders_asCached _
    next => rfl
  · split
    next hr =>
      rw [hsame hr.2, List.length_map]
      exact hlength
    next => exact hlength

end Query

/-- In every run, a list that is not in the cache, or is there with the same page and with no write
to the user's orders since, reads the same with and without the cache, in the service and in the
query handler. -/
theorem listing_agrees_of_current (hk : database.KeepsOrders (Statement.Plain charset) rows)
    (h : svc.UsesCache cache)
    (hs : ((svc.listingSystem cache database rows).restrict fun call _ =>
      call.Plain charset).Reachable s) :
    (∀ userId limit offset,
      Current cache charset rows s userId (min limit svc.options.maxPageSize) offset →
      ListAgrees svc database s.backend userId limit offset) ∧
    ∀ (q : OrderQueryHandler) req resp userId, q.deps.cache = some cache →
      OrderQueryHandler.extractUserId req = some userId →
      Current cache charset rows s userId (q.extractLimit req)
        (OrderQueryHandler.extractOffset req) →
      QueryAgrees q database s.backend req resp := by
  have hi := listingInv_of_reachable hk h hs
  constructor
  · intro userId limit offset hc
    exact hi.listAgrees hk h hc
  · intro q req resp userId hq hu hc
    exact hi.queryAgrees hk h hq hu hc

/-- The calls, with the table for the database. -/
def shopListings : ActionSystem (Listing OrderTable) ListingCall :=
  shopOrders.listingSystem {} OrderTable.database fun t => t

/-- The clock goes on by a second at each reading. -/
def shopCounter : Listing OrderTable where
  backend := ⟨shopShelf, [], fun n => Int64.ofNat n * 1000000000, 0, fun _ => [], 0⟩
  pages _ := none

/-- Two orders of one user, one of them paid, and the list of both. -/
def shopListed : List ListingCall := [
  .create (orderOf "o1" 2), .create (orderOf "o2" 1), .update (ascii "o1") .kPaid (ascii "card"),
  .list (ascii "u") 20 0 true]

def shopQuery : OrderQueryHandler where
  deps := ⟨true, some {}⟩
  options := {}
  json := .readerOf [] (.object [])

def shopQueryRequest : HttpRequest := HttpRequest.new.setQueryParameters (ascii "userId=u")

theorem usesCache_shopOrders : shopOrders.UsesCache {} := ⟨cachesOrders_shopOrders, rfl, rfl⟩

theorem init_shopCounter : shopListings.init shopCounter := by
  refine ⟨List.forall_mem_nil _, fun userId => ?_, fun _ => rfl⟩
  rw [Finmap.lookup_eq_none]
  intro hm
  have hkey := (Finmap.mem_singleton _ _ _).mp hm
  have hhead := OrderCache.head?_userKey usesCache_shopOrders.userPrefix userId
  rw [hkey] at hhead
  exact absurd hhead (by decide)

theorem listing_agrees_shopListed :
    let s := shopListings.run shopListed shopCounter
    s.backend.redis.lookup (ascii "user_orders:u") ≠ none ∧
      ListAgrees shopOrders OrderTable.database s.backend (ascii "u") 20 0 ∧
      QueryAgrees shopQuery OrderTable.database s.backend shopQueryRequest (.new false) := by
  intro s
  have h0 : (shopListings.restrict fun call _ => call.Plain singleByte).Reachable shopCounter :=
    .init init_shopCounter
  have hp : (shopListings.restrict fun call _ => call.Plain singleByte).Permits shopListed
      shopCounter := by
    refine ⟨⟨⟨?_, ?_, ?_, ?_⟩, ?_⟩, ⟨⟨?_, ?_, ?_, ?_⟩, ?_⟩, ⟨?_, ?_⟩, ⟨?_, ?_⟩, trivial⟩
    on_goal 5 => show (orderOf "o1" 2).Plain singleByte
    on_goal 10 => show (orderOf "o2" 1).Plain singleByte
    on_goal 11 => show CleanText _
    on_goal 12 => show (Statement.updateStatus (ascii "o1") .kPaid (ascii "card")).Plain singleByte
    on_goal 13 => show CleanText _
    on_goal 14 => show (Statement.selectByUser (ascii "u") 20 0).Plain singleByte
    all_goals decide +kernel
  have hplain : (Statement.selectByUser (ascii "u") 20 0).Plain singleByte := by decide
  have hapart : OrderTable.SecondsApart (ascii "u") s.backend.db := by
    unfold OrderTable.SecondsApart
    decide +kernel
  have hc : s.pages (ascii "u") = some (20, 0) := by decide +kernel
  have hs : (shopListings.restrict fun call _ => call.Plain singleByte).Reachable s := h0.run hp
  obtain ⟨hlist, hquery⟩ :=
    listing_agrees_of_current (OrderTable.keepsOrders_database _) usesCache_shopOrders hs
  refine ⟨by decide +kernel, hlist (ascii "u") 20 0 ⟨hplain.selectByUser _ 0, hapart, Or.inr hc⟩, ?_⟩
  have hlimit : shopQuery.extractLimit shopQueryRequest = 20 := by decide +kernel
  have hoffset : OrderQueryHandler.extractOffset shopQueryRequest = 0 := by decide +kernel
  refine hquery shopQuery shopQueryRequest (.new false) (ascii "u") rfl (by decide +kernel) ?_
  rw [hlimit, hoffset]
  exact ⟨hplain, hapart, Or.inr hc⟩

def shopShort : List ListingCall :=
  [.create (orderOf "o1" 2), .create (orderOf "o2" 1), .list (ascii "u") 1 0 false]

/-- A list of one order is kept for the user, and answered to a caller who asks for twenty. -/
theorem short_list_answered :
    shopListings.Permits shopShort shopCounter ∧
      ¬ListAgrees shopOrders OrderTable.database (shopListings.run shopShort shopCounter).backend
        (ascii "u") 20 0 := by
  constructor
  · refine ⟨⟨?_, ?_, ?_, ?_⟩, ⟨?_, ?_, ?_, ?_⟩, ?_, trivial⟩
    on_goal 9 => show CleanText _
    all_goals decide +kernel
  · rintro ⟨l, l', hl, hl', hsame, -⟩
    have hshort : (((shopOrders.listOrdersByUser (ascii "u") 20 0 true).exec
        OrderTable.database.serve (shopListings.run shopShort
          shopCounter).backend).1.toOption.map List.length) = some 1 := by decide +kernel
    have hboth : (((shopOrders.listOrdersByUser (ascii "u") 20 0 false).exec
        OrderTable.database.serve (shopListings.run shopShort
          shopCounter).backend).1.toOption.map List.length) = some 2 := by decide +kernel
    rw [hl] at hshort
    rw [hl'] at hboth
    have hlen := congrArg List.length hsame
    rw [List.length_map, List.length_map, Option.some.inj hshort, Option.some.inj hboth] at hlen
    exact absurd hlen (by decide)

end OrderService

end MuduoPlus
