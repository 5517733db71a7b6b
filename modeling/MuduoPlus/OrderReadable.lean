import MuduoPlus.OrderCodec
import MuduoPlus.OrderStored

namespace MuduoPlus

open OrderRepository

/-- The cache has the order as it was created, and the database has its id. -/
structure Kept {δ : Type} (cache : OrderCache) (rows : δ → OrderTable) (r : Record)
    (b : Backend δ) : Prop where
  entry : b.redis.lookup (cache.orderKey r.orderId) = some (cString (OrderCache.serializeOrder r))
  known : ∃ row ∈ rows b.db, row.orderId = r.orderId

/-- No text of the record has the delimiter of the cache or a NUL. -/
def OrderRepository.Record.Plain (r : Record) : Prop := r.Without 124 ∧ r.Without 0

theorem OrderTable.rowOf_orderId {r : Record} {row : OrderRow} (h : OrderTable.rowOf r = some row) :
    row.orderId = r.orderId := by
  unfold OrderTable.rowOf at h
  split at h
  next => cases h
  next =>
    obtain ⟨amount, -, rfl⟩ := Option.map_eq_some_iff.mp h
    rfl

section Kept

variable {δ : Type} {database : Database δ} {b b' : Backend δ} {cache : OrderCache}
  {rows : δ → OrderTable} {r : Record} {svc : InventoryService} {h : OrderCreateHandler}
  {order : Option Record} {asked : Bytes → Prop} {accepted : Record → Bytes → Prop}
  {charset : Charset}

open OrderCache InventoryService

theorem Kept.found (hk : Kept cache rows r b) (hpool : cache.pool = true) (hr : r.Plain)
    {orderId : Bytes} (he : cache.orderKey orderId = cache.orderKey r.orderId) :
    cache.found orderId b.redis = .ok (some r.asCached) := by
  have hnul : 0 ∉ serializeOrder r :=
    not_mem_serializeOrder (fun hb => absurd hb.1 (by decide)) (by decide) hr.2
  unfold OrderCache.found
  rw [if_pos hpool, he, hk.entry, cString_of_nulFree hnul]
  dsimp only
  rw [deserialize_of_without hr.1]
  rfl

theorem Warms.kept (hw : Warms cache database asked b b')
    (hdb : database.KeepsOrders (Statement.Plain charset) rows)
    (hplain : ∀ id, asked id → (Statement.selectById id).Plain charset) (hpool : cache.pool = true)
    (hapart : ∀ userId orderId, cache.userKey userId ≠ cache.orderKey orderId) (hr : r.Plain)
    (hk : Kept cache rows r b) : Kept cache rows r b' := by
  cases hw with
  | unchanged => exact hk
  | @order orderId row found hasked hmiss hrow =>
    refine ⟨?_, hk.known⟩
    have hid : (parseSingle row).orderId = orderId := by
      have hrows := (hdb.byId (hplain orderId hasked) b.db).symm.trans hrow
      have hmem : row ∈ (rows b.db).filter fun row => row.orderId = orderId := by
        rw [Except.ok.inj hrows]
        exact List.mem_cons_self
      exact of_decide_eq_true (List.mem_filter.mp hmem).2
    -- had the row's order this key, the cache would have found it
    have hne : cache.orderKey r.orderId ≠ cache.orderKey (parseSingle row).orderId := by
      rw [hid]
      intro he
      exact hmiss _ (hk.found hpool hr he.symm)
    dsimp only
    rw [OrderCache.cached, if_pos hpool, Finmap.lookup_insert_of_ne _ hne]
    exact hk.entry
  | list userId records =>
    refine ⟨?_, hk.known⟩
    dsimp only
    rw [Finmap.lookup_insert_of_ne _ (hapart userId r.orderId).symm]
    exact hk.entry

section Creates

variable (hdb : database.KeepsOrders (Statement.Plain charset) rows)
  (hplain : ∀ record raw, accepted record raw →
    (Statement.insert (h.stamped b record raw)).Plain charset)
  (hcache : h.deps.cache = some cache)

include hdb hplain hcache

/-- An order of another id does not get in the way. -/
theorem Creates.kept (hc : Creates h svc database accepted b order b') (ha : cache.ApartFrom svc)
    (hdistinct : cache.orderKey r.orderId = cache.orderKey (h.nextOrderId b) →
      r.orderId = h.nextOrderId b)
    (hk : Kept cache rows r b) : Kept cache rows r b' := by
  have hstock : ∀ productId, cache.orderKey r.orderId ≠ svc.stockKey productId :=
    fun productId he => ha.orders r.orderId (Or.inl ⟨productId, he⟩)
  have hrecord : ∀ id, cache.orderKey r.orderId ≠ svc.reservationKey id :=
    fun id he => ha.orders r.orderId (Or.inr ⟨id, he⟩)
  have hstores := hc.stores hdb hplain
  have hknown : ∃ row ∈ rows b'.db, row.orderId = r.orderId := by
    obtain ⟨row, hrow, hid⟩ := hk.known
    rcases hstores with ⟨-, hrows⟩ | ⟨_, row', -, -, -, hrows⟩
    · exact ⟨row, hrows ▸ hrow, hid⟩
    · exact ⟨row, hrows ▸ List.mem_append_left _ hrow, hid⟩
  refine ⟨?_, hknown⟩
  cases hc with
  | unchanged => exact hk.entry
  | @stored record raw stock n haccepted hid hs hq hn hi =>
    have hne : cache.orderKey r.orderId ≠ cache.orderKey (h.stamped b record raw).orderId := by
      intro he
      have hid : r.orderId = (h.stamped b record raw).orderId := hdistinct he
      rcases hstores with ⟨hnone, -⟩ | ⟨r', row', hr', -, hnew, -⟩
      · cases hnone
      · obtain ⟨row, hrow, hrowid⟩ := hk.known
        rw [← Option.some.inj hr'] at hnew
        exact hnew row hrow (hrowid.trans hid)
    dsimp only
    rw [lookup_cachedIn_of_ne hcache hne, lookup_reserved hstock hrecord]
    exact hk.entry
  | givenBack haccepted hs hq hi =>
    dsimp only
    rw [lookup_releaseReservation hstock hrecord, lookup_reserved hstock hrecord]
    exact hk.entry

theorem Creates.kept_stored (hc : Creates h svc database accepted b (some r) b')
    (henable : h.options.enableCache = true) (hpool : cache.pool = true) :
    Kept cache rows r b' ∧ r.orderId = h.nextOrderId b := by
  have hknown : ∃ row ∈ rows b'.db, row.orderId = r.orderId := by
    rcases hc.stores hdb hplain with ⟨hnone, -⟩ | ⟨r', row, hr, hrow, -, hrows⟩
    · cases hnone
    · obtain rfl := Option.some.inj hr
      rw [hrows]
      exact ⟨row, List.mem_append_right _ List.mem_cons_self, OrderTable.rowOf_orderId hrow⟩
  cases hc with
  | @stored record raw stock n ha hid hs hq hn hi =>
    refine ⟨⟨?_, hknown⟩, rfl⟩
    dsimp only
    unfold OrderCreateHandler.cachedIn
    rw [hcache]
    dsimp only
    rw [if_pos henable, OrderCache.cached, if_pos hpool]
    exact Finmap.lookup_insert _

end Creates

end Kept

namespace OrderApplication

open InventoryService

variable {δ : Type} {database : Database δ} {o : OrderServerOptions} {json : JsonLibrary}
  {b₀ : Backend δ} {app : HttpApp (Backend δ)} {s : HttpService (Backend δ)}
  {rows : δ → OrderTable} {charset : Charset}

section Keys

variable (hnul : 0 ∉ o.redis.keyPrefix)

include hnul

theorem orderKey_eq (orderId : Bytes) :
    (orderCache o).orderKey orderId = o.redis.keyPrefix ++ (ascii "detail:" ++ cString orderId) := by
  have hfront : ∀ c ∈ o.redis.keyPrefix, c ≠ 0 := by
    rintro c hc rfl
    exact hnul hc
  rw [OrderCache.orderKey, OrderCache.buildOrderKey, orderCache, List.append_assoc,
    cString_append hfront, cString_append (by decide +kernel)]

theorem userKey_eq (userId : Bytes) :
    (orderCache o).userKey userId = o.redis.keyPrefix ++ (ascii "user:" ++ cString userId) := by
  have hfront : ∀ c ∈ o.redis.keyPrefix, c ≠ 0 := by
    rintro c hc rfl
    exact hnul hc
  rw [OrderCache.userKey, OrderCache.buildUserKey, orderCache, List.append_assoc,
    cString_append hfront, cString_append (by decide +kernel)]

theorem orderKey_injective {id id' : Bytes} (h : 0 ∉ id) (h' : 0 ∉ id')
    (he : (orderCache o).orderKey id = (orderCache o).orderKey id') : id = id' := by
  rw [orderKey_eq hnul, orderKey_eq hnul, cString_of_nulFree h, cString_of_nulFree h'] at he
  exact List.append_cancel_left (List.append_cancel_left he)

theorem userKey_ne_orderKey (userId orderId : Bytes) :
    (orderCache o).userKey userId ≠ (orderCache o).orderKey orderId := by
  rw [orderKey_eq hnul, userKey_eq hnul]
  intro he
  have hhead := congrArg List.head? (List.append_cancel_left he)
  simp [ascii] at hhead

end Keys

/-- An id that the call looks up is plain. -/
def PlainLookup (charset : Charset) : HttpCall → Prop
  | .request req => IsLookup req → ∀ id ∈ OrderQueryHandler.extractOrderId req,
    (Statement.selectById id).Plain charset
  | .unparsable => True

instance (charset : Charset) : (call : HttpCall) → Decidable (PlainLookup charset call)
  | .request req => inferInstanceAs (Decidable (IsLookup req →
      ∀ id ∈ OrderQueryHandler.extractOrderId req, (Statement.selectById id).Plain charset))
  | .unparsable => .isTrue trivial

theorem PlainLookup.asked {call : HttpCall} (h : PlainLookup charset call) {id : Bytes}
    (hid : AsksFor call id) : (Statement.selectById id).Plain charset := by
  cases call with
  | unparsable => exact hid.elim
  | request req => exact h hid.1 id hid.2

/-- The orders of a run stay in the cache as they were created. -/
theorem orders_kept (hstart : start o json database = .ok app)
    (hkey : o.redis.keyPrefix.head? ≠ some 105) (hnul : 0 ∉ o.redis.keyPrefix)
    (hans : OrderService.Answers database)
    (hdb : database.KeepsOrders (Statement.Plain charset) rows)
    (hids : ∀ n, IsGenerated (b₀.ids n))
    (hs : (HttpService.serviceSystem app b₀).Reachable s)
    (hcalls : ∀ entry ∈ s.history,
      PlainOrder charset (handlers o json) entry.2 ∧ PlainLookup charset entry.2) :
    s.app.ids = b₀.ids ∧
      ∀ r ∈ ordersIn (servedBy database (handlers o json) s.history b₀),
        IsGenerated r.orderId ∧ (r.Plain → Kept (orderCache o) rows r s.app) := by
  have hapart := orderCache_apartFrom hkey (inventoryService o) ⟨rfl, rfl⟩
  apply run_invariant hstart hs (Q := fun served b => b.ids = b₀.ids ∧
    ∀ r ∈ ordersIn served, IsGenerated r.orderId ∧
      (r.Plain → Kept (orderCache o) rows r b))
  · exact ⟨rfl, by simp [ordersIn]⟩
  · rintro client call hmem served b ⟨hsame, hkept⟩
    obtain ⟨horder, hlookup⟩ := hcalls (client, call) hmem
    have hspec := serve_spec o json hans call b
    have hcall : (serve database (handlers o json) call b).1.call = call := rfl
    generalize serve database (handlers o json) call b = served' at hspec hcall ⊢
    obtain ⟨entry, b'⟩ := served'
    dsimp only at hspec hcall horder hlookup ⊢
    rw [← hcall] at horder hlookup
    rw [ordersIn_append_singleton]
    by_cases hcreate : CreatesOrder entry.call
    · obtain ⟨hcreates, -⟩ := hspec.create hcreate
      rw [← hsame] at hids
      have hplain : ∀ record raw, Accepts (handlers o json) entry.call record raw →
          (Statement.insert ((handlers o json).create.stamped b record raw)).Plain charset :=
        fun record raw ha => horder.stamped hcreate hids ha
      have hnext : IsGenerated ((handlers o json).create.nextOrderId b) := hids b.issued
      refine ⟨hcreates.ids.trans hsame, fun r hr => ?_⟩
      rcases List.mem_append.mp hr with hr | hr
      · obtain ⟨hid, hold⟩ := hkept r hr
        refine ⟨hid, fun hr => ?_⟩
        exact hcreates.kept hdb hplain rfl hapart (orderKey_injective hnul hid.nul hnext.nul)
          (hold hr)
      · rw [Option.mem_toList] at hr
        rw [hr] at hcreates
        obtain ⟨hstored, hid⟩ := hcreates.kept_stored hdb hplain rfl rfl rfl
        exact ⟨hid ▸ hnext, fun _ => hstored⟩
    · obtain ⟨hnone, hwarms⟩ := hspec.other hcreate
      rw [hnone, Option.toList_none, List.append_nil]
      refine ⟨hwarms.db_ids.2.trans hsame, fun r hr => ?_⟩
      obtain ⟨hid, hold⟩ := hkept r hr
      exact ⟨hid, fun hr => hwarms.kept hdb (fun id hasked => hlookup.asked hasked) rfl
        (userKey_ne_orderKey hnul) hr (hold hr)⟩

/-- An order that was answered with 200 can be looked up by its id from then on, whatever else is
requested in between with plain strings: the answer has the order as it was created, with two
decimals of its amount and whole seconds. Its texts must be free of the cache's delimiter. -/
theorem created_order_stays_readable (hstart : start o json database = .ok app)
    (hkey : o.redis.keyPrefix.head? ≠ some 105) (hnul : 0 ∉ o.redis.keyPrefix)
    (hans : OrderService.Answers database)
    (hdb : database.KeepsOrders (Statement.Plain charset) rows)
    (hids : ∀ n, IsGenerated (b₀.ids n))
    (hs : (HttpService.serviceSystem app b₀).Reachable s)
    (hcalls : ∀ entry ∈ s.history,
      PlainOrder charset (handlers o json) entry.2 ∧ PlainLookup charset entry.2) {r : Record}
    (hr : r ∈ ordersIn (servedBy database (handlers o json) s.history b₀)) (hplain : r.Plain)
    {req : HttpRequest} (hl : IsLookup req) (hid : req.getQueryParameter (ascii "id") = r.orderId) :
    (app.answer (.request req) s.app).1 =
      (handlers o json).query.respondRecord r.asCached (openResponse req) := by
  obtain ⟨hgenerated, hkept⟩ :=
    (orders_kept hstart hkey hnul hans hdb hids hs hcalls).2 r hr
  have hextract : OrderQueryHandler.extractOrderId req = some r.orderId := by
    unfold OrderQueryHandler.extractOrderId
    rw [hid]
    exact if_neg hgenerated.ne_nil
  have hfound := (hkept hplain).found rfl hplain rfl
  have hexec : ((handlers o json).query.handle req (openResponse req)).exec database.serve s.app =
      (.ok ((handlers o json).query.respondRecord r.asCached (openResponse req)), s.app) := by
    unfold OrderQueryHandler.handle
    rw [hextract]
    exact OrderQueryHandler.handleGetById_found rfl rfl hextract hfound
  rw [start_ok hstart]
  change (HttpApp.answer (plugged database (handlers o json)) _ _).1 = _
  rw [answer_lookup hl, handlerOf_ok hexec]

/-- The order of the two lamps. -/
def lampOrder : Record where
  orderId := ascii "ORD-0"
  userId := ascii "u"
  productId := ascii "p"
  quantity := 2
  totalAmount := 5
  payloadJson := OrderCreateHandler.lampText

def lampLookup : HttpRequest :=
  { HttpRequest.new with
    method := .kGet, path := ascii "/orders"
    queryParameters := Finmap.singleton (ascii "id") (ascii "ORD-0") }

theorem lampOrder_stays_readable :
    let s := (HttpService.serviceSystem lampApp lampShelf).run lampRun lampServer
    (lampApp.answer (.request lampLookup) s.app).1 =
      (handlers lampOptions OrderCreateHandler.lampHandler.json).query.respondRecord
        lampOrder.asCached (openResponse lampLookup) := by
  intro s
  have hreach := (ActionSystem.Reachable.init lampServer_init).run lampRun_permits
  have horders : ordersIn (servedBy OrderTable.database
      (handlers lampOptions OrderCreateHandler.lampHandler.json) s.history lampShelf) =
      [lampOrder] := by decide +kernel
  have hcalls : ∀ entry ∈ s.history, PlainOrder singleByte
      (handlers lampOptions OrderCreateHandler.lampHandler.json) entry.2 ∧
      PlainLookup singleByte entry.2 := by
    decide +kernel
  refine created_order_stays_readable (r := lampOrder) (by rfl) (by decide) (by decide)
    OrderService.answers_orderTable (OrderTable.keepsOrders_database _) (fun n => ⟨_, rfl⟩) hreach
    hcalls ?_ ⟨by decide, by decide⟩ ⟨rfl, rfl⟩ (by decide +kernel)
  rw [horders]
  exact List.mem_cons_self

end OrderApplication

end MuduoPlus
