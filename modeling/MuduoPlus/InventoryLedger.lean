import Mathlib.Logic.Function.Basic
import MuduoPlus.InventoryExec

namespace MuduoPlus

inductive LedgerCall where
  | setStock (productId : Bytes) (amount : UInt64)
  | reserve (order : OrderRecord)
  | commit (reservation : Reservation)
  | release (reservation : Reservation) (reason : Bytes)

/-- Redis, and what a bookkeeper notes beside it: the amounts set, the reservations granted
and still open, those committed, and the orders that were granted one. -/
structure Ledger where
  redis : Dict
  amounts : Bytes → Option UInt64
  opened : List Reservation
  committed : List Reservation
  granted : List Bytes

/-- The quantities that reservations hold of one product. -/
def heldOf (productId : Bytes) (rs : List Reservation) : Nat :=
  heldTotal (rs.filter (·.productId = productId))

/-- The quantities of a product's granted and unreleased reservations. -/
def Ledger.held (s : Ledger) (productId : Bytes) : Nat := heldOf productId (s.opened ++ s.committed)

section Held

variable {productId : Bytes} {rs : List Reservation} {r : Reservation}

theorem heldOf_append (productId : Bytes) (rs rs' : List Reservation) :
    heldOf productId (rs ++ rs') = heldOf productId rs + heldOf productId rs' := by
  rw [heldOf, List.filter_append, InventoryService.heldTotal_append]
  rfl

theorem heldOf_self : heldOf r.productId [r] = r.quantity.toNat := by
  simp [heldOf, heldTotal]

theorem heldOf_other (h : r.productId ≠ productId) : heldOf productId [r] = 0 := by
  simp [heldOf, heldTotal, h]

theorem heldOf_erase (productId : Bytes) (h : r ∈ rs) :
    heldOf productId (rs.erase r) + heldOf productId [r] = heldOf productId rs := by
  have hp := (((List.perm_cons_erase h).filter fun r => r.productId = productId).map
    fun r => r.quantity.toNat).sum_eq
  have happ := heldOf_append productId [r] (rs.erase r)
  have hcons : heldOf productId ([r] ++ rs.erase r) = heldOf productId rs := hp.symm
  omega

theorem heldOf_eq_zero (h : ∀ r ∈ rs, r.productId ≠ productId) : heldOf productId rs = 0 := by
  have hnil : rs.filter (fun r => decide (r.productId = productId)) = [] := by
    apply List.filter_eq_nil_iff.mpr
    intro r hr
    simpa using h r hr
  rw [heldOf, hnil]
  rfl

end Held

namespace InventoryService

variable {svc : InventoryService} {s : Ledger} {order : OrderRecord} {r : Reservation}
  {productId reason : Bytes}

def applyLedger (svc : InventoryService) : LedgerCall → Ledger → Ledger
  | .setStock productId amount, s =>
    { s with
      redis := ((svc.setStock true productId amount).exec s.redis).2
      amounts := Function.update s.amounts productId (some amount) }
  | .reserve order, s =>
    match (svc.reserveForOrder true order).exec s.redis with
    | (.ok reservation, redis) =>
      { s with
        redis
        opened := s.opened ++ [reservation]
        granted := s.granted ++ [order.orderId] }
    | (.error _, redis) => { s with redis }
  | .commit reservation, s =>
    { s with
      redis := ((svc.commitReservation true reservation).exec s.redis).2
      opened := s.opened.erase reservation
      committed := s.committed ++ [reservation] }
  | .release reservation reason, s =>
    { s with
      redis := ((svc.releaseReservation true reservation reason).exec s.redis).2
      opened := s.opened.erase reservation }

/-- One call after the other, from a Redis without reservation records. The stock of a product
is set before its first reservation, an order is granted at most one, and each is committed
or released at most once. -/
def ledgerSystem (svc : InventoryService) : ActionSystem Ledger LedgerCall where
  init s := (∀ key, svc.options.reservationKeyPrefix <+: key → key ∉ s.redis) ∧
    (∀ productId, s.amounts productId = none) ∧ s.opened = [] ∧ s.committed = [] ∧ s.granted = []
  permitted
    | .setStock productId _, s => ∀ r ∈ s.opened ++ s.committed, r.productId ≠ productId
    | .reserve order, s =>
      s.amounts order.productId ≠ none ∧ 58 ∉ order.orderId ∧ order.orderId ∉ s.granted
    | .commit reservation, s => reservation ∈ s.opened
    | .release reservation _, s => reservation ∈ s.opened
  apply := svc.applyLedger

/-- The ids in a call have no NUL, so Redis sees them whole. -/
def WholeIds : LedgerCall → Ledger → Prop
  | .setStock productId _, _ => 0 ∉ productId
  | .reserve order, _ => 0 ∉ order.orderId ∧ 0 ∉ order.productId
  | _, _ => True

/-- What the ledger says about Redis. The first field adds without wrapping. -/
structure LedgerHolds (svc : InventoryService) (s : Ledger) : Prop where
  stock : ∀ productId amount, s.amounts productId = some amount →
    ∃ n, ((svc.queryStock true productId).exec s.redis).1 = some n ∧
      n + s.held productId = amount.toNat
  grants : ∀ order, svc.ledgerSystem.permitted (.reserve order) s → ∀ n,
    ((svc.queryStock true order.productId).exec s.redis).1 = some n →
    (((svc.reserveForOrder true order).exec s.redis).1 = .ok (reservationOf order) ↔
      order.quantity.toNat ≤ n)
  keys : ∀ key, svc.options.reservationKeyPrefix <+: key →
    (key ∈ s.redis ↔ ∃ r ∈ s.opened, key = svc.reservationKey r.reservationId)

/-- A reservation as `ReserveForOrder` returns it for a permitted order. -/
structure Issued (r : Reservation) : Prop where
  id : r.reservationId = r.orderId ++ ascii ":" ++ r.productId
  order_nul : 0 ∉ r.orderId
  order_colon : 58 ∉ r.orderId
  product_nul : 0 ∉ r.productId

structure LedgerInv (svc : InventoryService) (s : Ledger) : Prop where
  stock : ∀ productId amount, s.amounts productId = some amount →
    ∃ n, svc.storedStock productId s.redis = some n ∧ n + s.held productId = amount.toNat
  whole : ∀ productId, s.amounts productId ≠ none → 0 ∉ productId
  known : ∀ r ∈ s.opened ++ s.committed, s.amounts r.productId ≠ none
  issued : ∀ r ∈ s.opened, Issued r
  granted : ∀ r ∈ s.opened, r.orderId ∈ s.granted
  distinct : (s.opened.map Reservation.orderId).Nodup
  keys : ∀ key, svc.options.reservationKeyPrefix <+: key →
    (key ∈ s.redis ↔ ∃ r ∈ s.opened, key = svc.reservationKey r.reservationId)

theorem reservationKey_eq (hp : svc.DefaultPrefixes) (hi : Issued r) :
    svc.reservationKey r.reservationId =
      ascii "inventory:reservation:" ++ (r.orderId ++ 58 :: r.productId) := by
  have hnul : 0 ∉ r.orderId ++ (58 : UInt8) :: r.productId := by
    simp [hi.order_nul, hi.product_nul]
  have hid : r.reservationId = r.orderId ++ 58 :: r.productId := by
    rw [hi.id]
    simp [ascii]
  rw [reservationKey, cString_makeReservationKey hp, hid, cString_of_nulFree hnul]

theorem reservationKey_starts (hp : svc.DefaultPrefixes) (reservationId : Bytes) :
    svc.options.reservationKeyPrefix <+: svc.reservationKey reservationId := by
  rw [reservationKey, cString_makeReservationKey hp, hp.2]
  exact List.prefix_append _ _

/-- Records of different orders have different keys: the order id ends at the first colon. -/
theorem orderId_of_reservationKey (hp : svc.DefaultPrefixes) {r r' : Reservation} (hi : Issued r)
    (hi' : Issued r')
    (he : svc.reservationKey r.reservationId = svc.reservationKey r'.reservationId) :
    r.orderId = r'.orderId := by
  rw [reservationKey_eq hp hi, reservationKey_eq hp hi'] at he
  have hcut := congrArg (cutAt 58) (List.append_cancel_left he)
  rw [cutAt_append hi.order_colon, cutAt_append hi'.order_colon] at hcut
  exact congrArg Prod.fst (Option.some.inj hcut)

theorem stockKey_not_starts (hp : svc.DefaultPrefixes) (productId : Bytes) {key : Bytes}
    (hk : svc.options.reservationKeyPrefix <+: key) : key ≠ svc.stockKey productId := by
  intro he
  rw [hp.2, he, stockKey, cString_makeStockKey hp] at hk
  obtain ⟨rest, hr⟩ := hk
  have htake := congrArg (List.take 11) hr
  rw [List.take_append_of_le_length (by decide),
    List.take_append_of_le_length (by decide)] at htake
  exact absurd htake (by decide)

/-- Writing the stock of one product changes no other stock and no record. -/
theorem storedStock_insert_other (hp : svc.DefaultPrefixes) {redis : Dict} {p p' text : Bytes}
    (h : 0 ∉ p) (h' : 0 ∉ p') (hne : p' ≠ p) :
    svc.storedStock p' (redis.insert (svc.stockKey p) text) = svc.storedStock p' redis := by
  apply storedStock_congr
  exact Finmap.lookup_insert_of_ne redis fun he => hne (stockKey_injective hp h' h he)

theorem storedStock_insert_reservation (hp : svc.DefaultPrefixes) {redis : Dict} {p id text : Bytes} :
    svc.storedStock p (redis.insert (svc.reservationKey id) text) = svc.storedStock p redis := by
  apply storedStock_congr
  exact Finmap.lookup_insert_of_ne redis
    (stockKey_ne_reservationKey (keysApart_of_defaultPrefixes hp p) id)

theorem storedStock_erase_reservation (hp : svc.DefaultPrefixes) {redis : Dict} {p id : Bytes} :
    svc.storedStock p (redis.erase (svc.reservationKey id)) = svc.storedStock p redis := by
  apply storedStock_congr
  exact Finmap.lookup_erase_ne (stockKey_ne_reservationKey (keysApart_of_defaultPrefixes hp p) id)

theorem storedStock_reserved_self (hp : svc.DefaultPrefixes) {redis : Dict} {n : Nat}
    (hs : svc.storedStock order.productId redis = some n) :
    svc.storedStock order.productId (svc.reserved order n redis) =
      some (n - order.quantity.toNat) :=
  storedStock_reserved (keysApart_of_defaultPrefixes hp order.productId) hs

theorem storedStock_reserved_other (hp : svc.DefaultPrefixes) {redis : Dict} {n : Nat} {p : Bytes}
    (h : 0 ∉ order.productId) (h' : 0 ∉ p) (hne : p ≠ order.productId) :
    svc.storedStock p (svc.reserved order n redis) = svc.storedStock p redis := by
  rw [reserved, storedStock_insert_reservation hp, storedStock_insert_other hp h h' hne]

theorem storedStock_released_self (hp : svc.DefaultPrefixes) {redis : Dict} {n : Nat}
    (hlt : n + r.quantity.toNat < 2 ^ 64) :
    svc.storedStock r.productId (svc.released r n redis) = some (n + r.quantity.toNat) := by
  rw [released, storedStock_erase_reservation hp, Nat.mod_eq_of_lt hlt]
  exact storedStock_insert_self hlt

theorem storedStock_released_other (hp : svc.DefaultPrefixes) {redis : Dict} {n : Nat} {p : Bytes}
    (h : 0 ∉ r.productId) (h' : 0 ∉ p) (hne : p ≠ r.productId) :
    svc.storedStock p (svc.released r n redis) = svc.storedStock p redis := by
  rw [released, storedStock_erase_reservation hp, storedStock_insert_other hp h h' hne]

theorem mem_insert_stockKey (hp : svc.DefaultPrefixes) {redis : Dict} {key p text : Bytes}
    (hk : svc.options.reservationKeyPrefix <+: key) :
    key ∈ redis.insert (svc.stockKey p) text ↔ key ∈ redis := by
  rw [Finmap.mem_insert]
  exact or_iff_right (stockKey_not_starts hp p hk)

theorem LedgerInv.init (h : svc.ledgerSystem.init s) : LedgerInv svc s := by
  obtain ⟨hkeys, hamounts, hopened, hcommitted, hgranted⟩ := h
  refine ⟨?_, ?_, ?_, ?_, ?_, ?_, ?_⟩
  · intro p amount hp
    rw [hamounts p] at hp
    cases hp
  · intro p hp
    exact absurd (hamounts p) hp
  · simp [hopened, hcommitted]
  · simp [hopened]
  · simp [hopened]
  · simp [hopened]
  · intro key hk
    simp [hopened, hkeys key hk]

theorem LedgerInv.setStock (hredis : svc.deps.redis = true) (hp : svc.DefaultPrefixes)
    (h : LedgerInv svc s) {amount : UInt64}
    (hfree : ∀ r ∈ s.opened ++ s.committed, r.productId ≠ productId) (hnul : 0 ∉ productId) :
    LedgerInv svc (svc.applyLedger (.setStock productId amount) s) := by
  unfold applyLedger
  dsimp only
  rw [setStock_exec hredis]
  refine ⟨?_, ?_, ?_, h.issued, h.granted, h.distinct, ?_⟩
  · intro p a ha
    dsimp only at ha ⊢
    by_cases he : p = productId
    · subst he
      rw [Function.update_self] at ha
      obtain rfl := Option.some.inj ha
      refine ⟨amount.toNat, storedStock_insert_self amount.toNat_lt, ?_⟩
      have hzero : s.held p = 0 := heldOf_eq_zero hfree
      exact (congrArg (amount.toNat + ·) hzero).trans (Nat.add_zero _)
    · rw [Function.update_of_ne he] at ha
      have hp' : 0 ∉ p := h.whole p (by rw [ha]; exact Option.some_ne_none a)
      rw [storedStock_insert_other hp hnul hp' he]
      exact h.stock p a ha
  · intro p hset
    dsimp only at hset
    by_cases he : p = productId
    · rw [he]
      exact hnul
    · rw [Function.update_of_ne he] at hset
      exact h.whole p hset
  · intro r hr
    dsimp only
    rw [Function.update_of_ne (hfree r hr)]
    exact h.known r hr
  · intro key hk
    dsimp only
    rw [mem_insert_stockKey hp hk]
    exact h.keys key hk

/-- A granted reservation: its quantity leaves the stock, its record appears. -/
theorem LedgerInv.grant (hp : svc.DefaultPrefixes) (h : LedgerInv svc s)
    (hset : s.amounts order.productId ≠ none) (hcolon : 58 ∉ order.orderId)
    (hnew : order.orderId ∉ s.granted) (hnul : 0 ∉ order.orderId) {n : Nat}
    (hs : svc.storedStock order.productId s.redis = some n) (hq : order.quantity.toNat ≤ n) :
    LedgerInv svc { s with
      redis := svc.reserved order n s.redis
      opened := s.opened ++ [reservationOf order]
      granted := s.granted ++ [order.orderId] } := by
  have hpnul := h.whole _ hset
  have hissued : Issued (reservationOf order) := ⟨rfl, hnul, hcolon, hpnul⟩
  have hheld : ∀ p, heldOf p ((s.opened ++ [reservationOf order]) ++ s.committed) =
      s.held p + heldOf p [reservationOf order] := by
    intro p
    rw [heldOf_append, heldOf_append, Ledger.held, heldOf_append]
    omega
  refine ⟨?_, h.whole, ?_, ?_, ?_, ?_, ?_⟩
  · intro p a ha
    obtain ⟨m, hm, hsum⟩ := h.stock p a ha
    dsimp only [Ledger.held] at ha ⊢
    rw [hheld p]
    by_cases he : p = order.productId
    · subst he
      have hmn : m = n := Option.some.inj (hm.symm.trans hs)
      have hself : heldOf order.productId [reservationOf order] = order.quantity.toNat :=
        heldOf_self (r := reservationOf order)
      refine ⟨n - order.quantity.toNat, storedStock_reserved_self hp hs, ?_⟩
      omega
    · have hp' : 0 ∉ p := h.whole p (by rw [ha]; exact Option.some_ne_none a)
      have hother : heldOf p [reservationOf order] = 0 := heldOf_other (Ne.symm he)
      refine ⟨m, ?_, by omega⟩
      rw [storedStock_reserved_other hp hpnul hp' he]
      exact hm
  · intro r hr
    have hr' : r ∈ s.opened ++ s.committed ∨ r = reservationOf order := by
      simp only [List.mem_append, List.mem_singleton] at hr ⊢
      tauto
    rcases hr' with hr' | rfl
    · exact h.known r hr'
    · exact hset
  · intro r hr
    rcases List.mem_append.mp hr with hr | hr
    · exact h.issued r hr
    · rw [List.mem_singleton.mp hr]
      exact hissued
  · intro r hr
    rcases List.mem_append.mp hr with hr | hr
    · exact List.mem_append_left _ (h.granted r hr)
    · rw [List.mem_singleton.mp hr]
      exact List.mem_append_right _ List.mem_cons_self
  · rw [List.map_append]
    refine List.Nodup.append h.distinct (List.nodup_singleton _) ?_
    intro id hid hid'
    obtain ⟨r, hr, rfl⟩ := List.mem_map.mp hid
    have hro : r.orderId = order.orderId := by simpa [reservationOf] using hid'
    exact hnew (hro ▸ h.granted r hr)
  · intro key hk
    dsimp only [reserved]
    rw [Finmap.mem_insert, mem_insert_stockKey hp hk, h.keys key hk]
    constructor
    · rintro (rfl | ⟨r, hr, rfl⟩)
      · exact ⟨_, List.mem_append_right _ List.mem_cons_self, rfl⟩
      · exact ⟨r, List.mem_append_left _ hr, rfl⟩
    · rintro ⟨r, hr, rfl⟩
      rcases List.mem_append.mp hr with hr | hr
      · exact Or.inr ⟨r, hr, rfl⟩
      · rw [List.mem_singleton.mp hr]
        exact Or.inl rfl

theorem LedgerInv.reserve (hredis : svc.deps.redis = true) (horders : svc.deps.orders = true)
    (hp : svc.DefaultPrefixes) (h : LedgerInv svc s) (hset : s.amounts order.productId ≠ none)
    (hcolon : 58 ∉ order.orderId) (hnew : order.orderId ∉ s.granted) (hnul : 0 ∉ order.orderId) :
    LedgerInv svc (svc.applyLedger (.reserve order) s) := by
  obtain ⟨amount, ha⟩ := Option.ne_none_iff_exists'.mp hset
  obtain ⟨n, hs, _⟩ := h.stock _ _ ha
  unfold applyLedger
  dsimp only
  by_cases hq : order.quantity.toNat ≤ n
  · rw [reserveForOrder_granted hredis horders hs hq]
    exact h.grant hp hset hcolon hnew hnul hs hq
  · have hrefused : ∀ m, svc.storedStock order.productId s.redis = some m →
        m < order.quantity.toNat := by
      intro m hm
      have hmn : m = n := Option.some.inj (hm.symm.trans hs)
      omega
    obtain ⟨error, he⟩ := reserveForOrder_refused hrefused
    rw [he]
    exact h

/-- Taking a record away, with its reservation no longer open. -/
theorem LedgerInv.keys_erase (hp : svc.DefaultPrefixes) (h : LedgerInv svc s) (hr : r ∈ s.opened)
    {key : Bytes} (hk : svc.options.reservationKeyPrefix <+: key) :
    key ∈ s.redis.erase (svc.reservationKey r.reservationId) ↔
      ∃ r' ∈ s.opened.erase r, key = svc.reservationKey r'.reservationId := by
  have hnodup : s.opened.Nodup := List.Nodup.of_map _ h.distinct
  rw [Finmap.mem_erase, h.keys key hk]
  constructor
  · rintro ⟨hne, r', hr', rfl⟩
    have hrr : r' ≠ r := by
      rintro rfl
      exact hne rfl
    exact ⟨r', (List.Nodup.mem_erase_iff hnodup).mpr ⟨hrr, hr'⟩, rfl⟩
  · rintro ⟨r', hr', rfl⟩
    obtain ⟨hrr, hmem⟩ := (List.Nodup.mem_erase_iff hnodup).mp hr'
    refine ⟨?_, r', hmem, rfl⟩
    intro he
    have hid := orderId_of_reservationKey hp (h.issued r' hmem) (h.issued r hr) he
    exact hrr (List.inj_on_of_nodup_map h.distinct hmem hr hid)

/-- The fields about open reservations, when one of them is closed. -/
theorem LedgerInv.close (h : LedgerInv svc s) (r : Reservation) :
    (∀ r' ∈ s.opened.erase r, Issued r') ∧ (∀ r' ∈ s.opened.erase r, r'.orderId ∈ s.granted) ∧
      ((s.opened.erase r).map Reservation.orderId).Nodup :=
  ⟨fun r' hr' => h.issued r' (List.mem_of_mem_erase hr'),
    fun r' hr' => h.granted r' (List.mem_of_mem_erase hr'),
    h.distinct.sublist (List.Sublist.map _ List.erase_sublist)⟩

theorem LedgerInv.commit (hredis : svc.deps.redis = true) (hp : svc.DefaultPrefixes)
    (h : LedgerInv svc s) (hr : r ∈ s.opened) :
    LedgerInv svc (svc.applyLedger (.commit r) s) := by
  obtain ⟨hissued, hgranted, hdistinct⟩ := h.close r
  unfold applyLedger
  dsimp only
  rw [commitReservation_exec hredis]
  refine ⟨?_, h.whole, ?_, hissued, hgranted, hdistinct, fun key hk => h.keys_erase hp hr hk⟩
  · intro p a ha
    obtain ⟨n, hn, hsum⟩ := h.stock p a ha
    dsimp only [Ledger.held]
    rw [storedStock_erase_reservation hp]
    refine ⟨n, hn, ?_⟩
    have herase := heldOf_erase p hr
    rw [Ledger.held, heldOf_append] at hsum
    rw [heldOf_append, heldOf_append]
    omega
  · intro r' hr'
    apply h.known
    simp only [List.mem_append, List.mem_singleton] at hr' ⊢
    rcases hr' with hr' | hr' | rfl
    · exact Or.inl (List.mem_of_mem_erase hr')
    · exact Or.inr hr'
    · exact Or.inl hr

theorem LedgerInv.release (hredis : svc.deps.redis = true) (hp : svc.DefaultPrefixes)
    (h : LedgerInv svc s) (hr : r ∈ s.opened) :
    LedgerInv svc (svc.applyLedger (.release r reason) s) := by
  obtain ⟨hissued, hgranted, hdistinct⟩ := h.close r
  have hset := h.known r (List.mem_append_left _ hr)
  obtain ⟨amount, hamount⟩ := Option.ne_none_iff_exists'.mp hset
  obtain ⟨n, hs, hsum⟩ := h.stock _ _ hamount
  have hlt := amount.toNat_lt
  have hself := heldOf_self (r := r)
  have heraseSelf := heldOf_erase r.productId hr
  have hheld : ∀ p, heldOf p (s.opened.erase r ++ s.committed) + heldOf p [r] = s.held p := by
    intro p
    have herase := heldOf_erase p hr
    rw [Ledger.held, heldOf_append, heldOf_append]
    omega
  -- The quantity was taken from this stock, so the sum is below the amount once set.
  have hfits : n + r.quantity.toNat < 2 ^ 64 := by
    have hr' := hheld r.productId
    omega
  unfold applyLedger
  dsimp only
  rw [releaseReservation_exec hredis hs]
  refine ⟨?_, h.whole, ?_, hissued, hgranted, hdistinct, ?_⟩
  · intro p a ha
    obtain ⟨m, hm, hm'⟩ := h.stock p a ha
    have hp' : 0 ∉ p := h.whole p (by rw [ha]; exact Option.some_ne_none a)
    have hsplit := hheld p
    dsimp only [Ledger.held]
    by_cases he : p = r.productId
    · subst he
      have hmn : m = n := Option.some.inj (hm.symm.trans hs)
      refine ⟨n + r.quantity.toNat, storedStock_released_self hp hfits, ?_⟩
      omega
    · have hother : heldOf p [r] = 0 := heldOf_other (Ne.symm he)
      refine ⟨m, ?_, ?_⟩
      · rw [storedStock_released_other hp (h.whole _ hset) hp' he]
        exact hm
      · omega
  · intro r' hr'
    apply h.known
    rcases List.mem_append.mp hr' with hr' | hr'
    · exact List.mem_append_left _ (List.mem_of_mem_erase hr')
    · exact List.mem_append_right _ hr'
  · intro key hk
    dsimp only [released]
    rw [Finmap.mem_erase, mem_insert_stockKey hp hk, ← Finmap.mem_erase]
    exact h.keys_erase hp hr hk

theorem LedgerInv.holds (hredis : svc.deps.redis = true) (horders : svc.deps.orders = true)
    (h : LedgerInv svc s) : LedgerHolds svc s := by
  refine ⟨?_, ?_, h.keys⟩
  · intro p amount hp
    rw [queryStock_exec hredis]
    exact h.stock p amount hp
  · intro order _ n hn
    rw [queryStock_exec hredis] at hn
    constructor
    · intro hok
      by_contra hlt
      have hrefused : ∀ m, svc.storedStock order.productId s.redis = some m →
          m < order.quantity.toNat := by
        intro m hm
        have hmn : m = n := Option.some.inj (hm.symm.trans hn)
        omega
      obtain ⟨error, he⟩ := reserveForOrder_refused hrefused
      rw [he] at hok
      cases hok
    · intro hq
      rw [reserveForOrder_granted hredis horders hn hq]

/-- The books balance in every state, as long as no id carries a NUL. -/
theorem ledger_holds_of_wholeIds (hredis : svc.deps.redis = true) (horders : svc.deps.orders = true)
    (hp : svc.DefaultPrefixes) (h : (svc.ledgerSystem.restrict WholeIds).Reachable s) :
    LedgerHolds svc s := by
  have hi : LedgerInv svc s := by
    apply h.invariant
    · intro s h0
      exact LedgerInv.init h0
    · intro call s hc hs
      obtain ⟨hc, hwhole⟩ := hc
      cases call with
      | setStock productId amount => exact hs.setStock hredis hp hc hwhole
      | reserve order => exact hs.reserve hredis horders hp hc.1 hc.2.1 hc.2.2 hwhole.1
      | commit r => exact hs.commit hredis hp hc
      | release r reason => exact hs.release hredis hp hc
  exact hi.holds hredis horders

/-- An empty Redis and an empty book. -/
def emptyLedger : Ledger := ⟨∅, fun _ => none, [], [], []⟩

theorem emptyLedger_init : shopService.ledgerSystem.init emptyLedger :=
  ⟨fun _ _ => Finmap.notMem_empty, fun _ => rfl, rfl, rfl, rfl⟩

/-- Two orders of one product: one committed, one released, a third refused. -/
def shopDay : List LedgerCall := [
  .setStock (ascii "p") 5, .reserve (shopOrder "o1" 2), .reserve (shopOrder "o2" 3),
  .reserve (shopOrder "o3" 1), .commit (reservationOf (shopOrder "o1" 2)),
  .release (reservationOf (shopOrder "o2" 3)) (ascii "rollback")]

theorem ledger_holds_shopDay :
    let s := shopService.ledgerSystem.run shopDay emptyLedger
    shopService.storedStock (ascii "p") s.redis = some 3 ∧ LedgerHolds shopService s := by
  intro s
  have h0 : (shopService.ledgerSystem.restrict WholeIds).Reachable emptyLedger :=
    .init emptyLedger_init
  have hp : (shopService.ledgerSystem.restrict WholeIds).Permits shopDay emptyLedger := by
    refine ⟨⟨?_, ?_⟩, ⟨⟨?_, ?_, ?_⟩, ?_, ?_⟩, ⟨⟨?_, ?_, ?_⟩, ?_, ?_⟩, ⟨⟨?_, ?_, ?_⟩, ?_, ?_⟩,
      ⟨?_, trivial⟩, ⟨?_, trivial⟩, trivial⟩
    · exact fun r hr => absurd hr List.not_mem_nil
    · show (0 : UInt8) ∉ ascii "p"
      decide
    on_goal 16 => show (_ : Reservation) ∈ _
    on_goal 17 => show (_ : Reservation) ∈ _
    all_goals decide
  have hstock : shopService.storedStock (ascii "p") s.redis = some 3 := by decide
  exact ⟨hstock, ledger_holds_of_wholeIds rfl rfl ⟨rfl, rfl⟩ (h0.run hp)⟩

/-- Two products whose ids differ behind a NUL. -/
def nulDay : List LedgerCall := [
  .setStock (ascii "a") 5, .setStock (ascii "a" ++ 0 :: ascii "b") 7]

/-- Both products share one stock key: the second `SetStock` overwrites the first. -/
theorem ledger_broken_by_nul : ∃ s : Ledger, shopService.ledgerSystem.Reachable s ∧
    s.amounts (ascii "a") = some 5 ∧ s.held (ascii "a") = 0 ∧
      ((shopService.queryStock true (ascii "a")).exec s.redis).1 = some 7 ∧
      ¬ LedgerHolds shopService s := by
  have h0 : shopService.ledgerSystem.Reachable emptyLedger := .init emptyLedger_init
  have hp : shopService.ledgerSystem.Permits nulDay emptyLedger := by
    refine ⟨?_, ?_, trivial⟩
    · exact fun r hr => absurd hr List.not_mem_nil
    · exact fun r hr => absurd hr List.not_mem_nil
  have hamount : (shopService.ledgerSystem.run nulDay emptyLedger).amounts (ascii "a") = some 5 := by
    decide
  have hheld : (shopService.ledgerSystem.run nulDay emptyLedger).held (ascii "a") = 0 := by
    decide
  have hstock : ((shopService.queryStock true (ascii "a")).exec
      (shopService.ledgerSystem.run nulDay emptyLedger).redis).1 = some 7 := by decide
  refine ⟨_, h0.run hp, hamount, hheld, hstock, ?_⟩
  intro hl
  obtain ⟨n, hn, hsum⟩ := hl.stock _ _ hamount
  have hseven : n = 7 := Option.some.inj (hn.symm.trans hstock)
  rw [hheld, hseven] at hsum
  exact absurd hsum (by decide)

end InventoryService

end MuduoPlus
