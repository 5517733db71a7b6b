import MuduoPlus.InventoryRace

namespace MuduoPlus

theorem cString_of_isDigit {s : Bytes} (h : ∀ d ∈ s, isDigit d = true) : cString s = s := by
  apply List.takeWhile_eq_self_iff.mpr
  intro d hd
  have hdig := h d hd
  have hne : d ≠ 0 := by
    rintro rfl
    exact absurd hdig (by decide)
  simpa using hne

theorem stoul_lt {s : Bytes} {n : Nat} (h : stoul s = .ok n) : n < 2 ^ 64 := by
  simp only [stoul] at h
  generalize List.takeWhile isDigit _ = ds at h
  split at h
  · cases h
  · split at h
    · cases h
    next hlt =>
      split at h
      · cases h
        exact Nat.mod_lt _ (by decide)
      · cases h
        omega

namespace InventoryService

variable {svc : InventoryService} {productId : Bytes} {redis : Dict} {v : Nat}

/-- Where a call is, with the stock at `v`: what is still due to the stock or from it, and
whether the call is between its `GET` and its `SET`. -/
inductive CallAt (svc : InventoryService) (productId : Bytes) (v : Nat) :
    InventoryCall → Nat → Bool → Prop
  | reserveFresh {order prog} (hp : order.productId = productId)
      (hprog : prog = RedisClient.get (svc.makeStockKey productId) (svc.reserveWithStock order)) :
      CallAt svc productId v (.reserve order prog) 0 false
  | reserveRead {order prog} (hp : order.productId = productId) (hq : order.quantity.toNat ≤ v)
      (hprog : prog = RedisClient.set (svc.makeStockKey productId)
        (decimal (v - order.quantity.toNat)) (svc.reserveUpdated order)) :
      CallAt svc productId v (.reserve order prog) 0 true
  | reserveUpdated {order prog} (hp : order.productId = productId)
      (hprog : prog = svc.reserveUpdated order true) :
      CallAt svc productId v (.reserve order prog) order.quantity.toNat false
  | reserveCached {order prog} (hp : order.productId = productId)
      (hprog : prog = svc.reserveCached order true) :
      CallAt svc productId v (.reserve order prog) order.quantity.toNat false
  | reserveGranted {order prog} (hp : order.productId = productId)
      (hprog : prog = .done (.ok (reservationOf order))) :
      CallAt svc productId v (.reserve order prog) order.quantity.toNat false
  | reserveRefused {order prog error} (hprog : prog = .done (.error error)) :
      CallAt svc productId v (.reserve order prog) 0 false
  | releaseFresh {r prog reason} (hp : r.productId = productId)
      (hprog : prog = svc.incrementStock productId r.quantity (svc.releaseRestored r reason)) :
      CallAt svc productId v (.release r prog) r.quantity.toNat false
  | releaseRead {r prog reason} (hp : r.productId = productId)
      (hprog : prog = RedisClient.set (svc.makeStockKey productId)
        (decimal ((v + r.quantity.toNat) % 2 ^ 64)) (svc.releaseRestored r reason)) :
      CallAt svc productId v (.release r prog) r.quantity.toNat true
  | releaseRestored {r prog reason} (hprog : prog = svc.releaseRestored r reason true) :
      CallAt svc productId v (.release r prog) 0 false
  | releaseDeleted {r prog reason}
      (hprog : prog = svc.publishReservationEvent r (ascii "released:" ++ reason) (.done (.ok ()))) :
      CallAt svc productId v (.release r prog) 0 false
  | releaseDone {r prog} (hprog : prog = .done (.ok ())) :
      CallAt svc productId v (.release r prog) 0 false
  | releaseRefused {r prog error} (hp : r.productId = productId) (hprog : prog = .done (.error error)) :
      CallAt svc productId v (.release r prog) r.quantity.toNat false

/-- The stock of the product is the number `v`. -/
def StockIs (svc : InventoryService) (productId : Bytes) (redis : Dict) (v : Nat) : Prop :=
  ∃ text, redis.lookup (cString (svc.makeStockKey productId)) = some text ∧ stoul text = .ok v

theorem stockIs_insert {n : Nat} (hn : n < 2 ^ 64) :
    StockIs svc productId
      (redis.insert (cString (svc.makeStockKey productId)) (cString (decimal n))) n := by
  refine ⟨decimal n, ?_, stoul_decimal hn⟩
  rw [Finmap.lookup_insert, cString_of_isDigit isDigit_decimal]

theorem stockIs_iff : StockIs svc productId redis v ↔ svc.storedStock productId redis = some v := by
  unfold StockIs storedStock
  constructor
  · rintro ⟨text, hl, hs⟩
    rw [hl]
    simp [hs, Except.toOption]
  · intro h
    split at h
    · cases h
    next text hl =>
      refine ⟨text, hl, ?_⟩
      cases hs : stoul text with
      | error e => rw [hs] at h; cases h
      | ok n =>
        rw [hs] at h
        have hn : n = v := by simpa [Except.toOption] using h
        rw [hn]

theorem CallAt.isSet {call : InventoryCall} {due : Nat} (h : CallAt svc productId v call due true) :
    call.IsSet (cString (svc.makeStockKey productId)) := by
  cases h with
  | reserveRead hp hq hprog => rw [hprog]; exact rfl
  | releaseRead hp hprog => rw [hprog]; exact rfl

/-- What a call that is not about to write has to do does not depend on the stock. -/
theorem CallAt.transport {call : InventoryCall} {due : Nat}
    (h : CallAt svc productId v call due false) (w : Nat) : CallAt svc productId w call due false := by
  cases h with
  | reserveFresh hp hprog => exact .reserveFresh hp hprog
  | reserveUpdated hp hprog => exact .reserveUpdated hp hprog
  | reserveCached hp hprog => exact .reserveCached hp hprog
  | reserveGranted hp hprog => exact .reserveGranted hp hprog
  | reserveRefused hprog => exact .reserveRefused hprog
  | releaseFresh hp hprog => exact .releaseFresh hp hprog
  | releaseRestored hprog => exact .releaseRestored hprog
  | releaseDeleted hprog => exact .releaseDeleted hprog
  | releaseDone hprog => exact .releaseDone hprog
  | releaseRefused hp hprog => exact .releaseRefused hp hprog

theorem publishReservationEvent_cases {α : Type} (svc : InventoryService) (r : Reservation)
    (eventType : Bytes) (next : RedisProgram α) :
    svc.publishReservationEvent r eventType next = next ∨
      ∃ message, svc.publishReservationEvent r eventType next = .emit message next := by
  unfold publishReservationEvent
  split
  · exact Or.inr ⟨_, rfl⟩
  · exact Or.inl rfl

theorem publishReservationEvent_step {α : Type} (svc : InventoryService) (r : Reservation)
    (eventType : Bytes) (result : α) (redis : Dict) :
    (svc.publishReservationEvent r eventType (.done result)).step redis = (.done result, redis) := by
  rcases svc.publishReservationEvent_cases r eventType (.done result) with he | ⟨m, he⟩ <;> rw [he] <;> rfl

/-- A command that leaves the stock key alone. -/
theorem CallAt.still {call : InventoryCall} {due : Nat} {writing writing' : Bool}
    (hs : StockIs svc productId redis v)
    (hnext : CallAt svc productId v (call.step redis).1 due writing')
    (hkey : (call.step redis).2.lookup (cString (svc.makeStockKey productId)) =
      redis.lookup (cString (svc.makeStockKey productId)))
    (hget : writing' = true → call.IsGet (cString (svc.makeStockKey productId))) :
    ∃ v' due' writing', CallAt svc productId v' (call.step redis).1 due' writing' ∧
      StockIs svc productId (call.step redis).2 v' ∧ v' + due' = v + due ∧
      (writing = false → v' = v) ∧
      (writing' = true → call.IsGet (cString (svc.makeStockKey productId))) := by
  obtain ⟨text, hl, ht⟩ := hs
  exact ⟨v, due, writing', hnext, ⟨text, hkey.trans hl, ht⟩, rfl, fun _ => rfl, hget⟩

/-- One command of a call at stock `v`: the stock moves only if the call was about to write
it, and stock and dues together stay the same. -/
theorem CallAt.step {call : InventoryCall} {due : Nat} {writing : Bool}
    (h : CallAt svc productId v call due writing) (hk : svc.KeysApart productId)
    (hs : StockIs svc productId redis v) (hsum : v + due < 2 ^ 64) :
    ∃ v' due' writing', CallAt svc productId v' (call.step redis).1 due' writing' ∧
      StockIs svc productId (call.step redis).2 v' ∧ v' + due' = v + due ∧
      (writing = false → v' = v) ∧
      (writing' = true → call.IsGet (cString (svc.makeStockKey productId))) := by
  obtain ⟨text, hl, ht⟩ := id hs
  cases h with
  | @reserveFresh order prog hp hprog =>
    subst hprog
    have hstep : (RedisClient.get (svc.makeStockKey productId) (svc.reserveWithStock order)).step redis =
        (svc.reserveWithStock order (some text), redis) := by
      rw [← hl]; rfl
    have hprog' := congrArg Prod.fst hstep
    have hredis := congrArg (fun p => p.2.lookup (cString (svc.makeStockKey productId))) hstep
    by_cases hq : v < order.quantity.toNat
    · have hrefused : svc.reserveWithStock order (some text) = .done (.error "Insufficient stock") := by
        simp [reserveWithStock, ht, hq]
      exact CallAt.still hs (.reserveRefused (hprog'.trans hrefused)) hredis (by simp)
    · have hread : svc.reserveWithStock order (some text) = RedisClient.set (svc.makeStockKey productId)
          (decimal (v - order.quantity.toNat)) (svc.reserveUpdated order) := by
        simp [reserveWithStock, ht, hq, hp]
      exact CallAt.still hs (.reserveRead hp (by omega) (hprog'.trans hread)) hredis (fun _ => rfl)
  | @reserveRead order prog hp hq hprog =>
    subst hprog
    exact ⟨v - order.quantity.toNat, order.quantity.toNat, false, .reserveUpdated hp rfl,
      stockIs_insert (by omega), by omega, by simp, by simp⟩
  | @reserveUpdated order prog hp hprog =>
    subst hprog
    exact CallAt.still hs (.reserveCached hp rfl) (StoreProgram.step_lookup (hk _) id) (by simp)
  | @reserveCached order prog hp hprog =>
    subst hprog
    have hstep : (svc.reserveCached order true).step redis = (.done (.ok (reservationOf order)), redis) :=
      publishReservationEvent_step ..
    have hredis := congrArg (fun p => p.2.lookup (cString (svc.makeStockKey productId))) hstep
    exact CallAt.still hs (.reserveGranted hp (congrArg Prod.fst hstep)) hredis (by simp)
  | @reserveGranted order prog hp hprog =>
    subst hprog
    exact CallAt.still hs (.reserveGranted hp rfl) rfl (by simp)
  | @reserveRefused order prog error hprog =>
    subst hprog
    exact CallAt.still hs (.reserveRefused rfl) rfl (by simp)
  | @releaseFresh r prog reason hp hprog =>
    subst hprog
    have hstep : (svc.incrementStock productId r.quantity (svc.releaseRestored r reason)).step redis =
        (svc.incrementWithStock productId r.quantity (svc.releaseRestored r reason) (some text), redis) := by
      rw [← hl]; rfl
    have hread : svc.incrementWithStock productId r.quantity (svc.releaseRestored r reason) (some text) =
        RedisClient.set (svc.makeStockKey productId) (decimal ((v + r.quantity.toNat) % 2 ^ 64))
          (svc.releaseRestored r reason) := by
      simp [incrementWithStock, ht]
    have hredis := congrArg (fun p => p.2.lookup (cString (svc.makeStockKey productId))) hstep
    exact CallAt.still hs (.releaseRead hp ((congrArg Prod.fst hstep).trans hread)) hredis (fun _ => rfl)
  | @releaseRead r prog reason hp hprog =>
    subst hprog
    have hmod : (v + r.quantity.toNat) % 2 ^ 64 = v + r.quantity.toNat := Nat.mod_eq_of_lt hsum
    refine ⟨v + r.quantity.toNat, 0, false, .releaseRestored rfl, ?_, by omega, by simp, by simp⟩
    rw [hmod]
    exact stockIs_insert hsum
  | @releaseRestored r prog reason hprog =>
    subst hprog
    exact CallAt.still hs (.releaseDeleted rfl) (StoreProgram.step_lookup id (hk _)) (by simp)
  | @releaseDeleted r prog reason hprog =>
    subst hprog
    have hstep := svc.publishReservationEvent_step r (ascii "released:" ++ reason)
      (Except.ok () : Except String Unit) redis
    have hredis := congrArg (fun p => p.2.lookup (cString (svc.makeStockKey productId))) hstep
    exact CallAt.still hs (.releaseDone (congrArg Prod.fst hstep)) hredis (by simp)
  | @releaseDone r prog hprog =>
    subst hprog
    exact CallAt.still hs (.releaseDone rfl) rfl (by simp)
  | @releaseRefused r prog error hp hprog =>
    subst hprog
    exact CallAt.still hs (.releaseRefused hp rfl) rfl (by simp)

theorem callAt_reserve {order : OrderRecord} (hp : order.productId = productId) (client : Bool) :
    CallAt svc productId v (.reserve order (svc.reserveForOrder client order)) 0 false := by
  unfold reserveForOrder
  split
  · exact .reserveRefused rfl
  · split
    · exact .reserveRefused rfl
    · rw [hp]
      exact .reserveFresh hp rfl

theorem callAt_release {r : Reservation} (hp : r.productId = productId) (client : Bool) (reason : Bytes) :
    CallAt svc productId v (.release r (svc.releaseReservation client r reason)) r.quantity.toNat
      false := by
  unfold releaseReservation
  split
  · exact .releaseRefused hp rfl
  · split
    · exact .releaseRefused hp rfl
    · rw [hp]
      exact .releaseFresh hp rfl

/-- A call that returned has nothing left to do at the stock: what was due is what it
leaves granted and unreleased. -/
theorem CallAt.settle {call : InventoryCall} {due : Nat} {writing : Bool}
    (h : CallAt svc productId v call due writing) {rs : List Reservation}
    (hs : call.settle = some rs) :
    heldTotal rs = due ∧ writing = false ∧ ∀ r ∈ rs, r.productId = productId := by
  cases h with
  | reserveFresh hp hprog => subst hprog; cases hs
  | reserveRead hp hq hprog => subst hprog; cases hs
  | reserveUpdated hp hprog => subst hprog; cases hs
  | @reserveCached order prog hp hprog =>
    rcases svc.publishReservationEvent_cases (reservationOf order) (ascii "created")
      (.done (Except.ok (reservationOf order) : Except String Reservation)) with he | ⟨m, he⟩
    · rw [hprog, InventoryService.reserveCached, he] at hs
      cases hs
      simpa [heldTotal, reservationOf] using hp
    · rw [hprog, InventoryService.reserveCached, he] at hs
      cases hs
  | reserveGranted hp hprog =>
    subst hprog
    cases hs
    simpa [heldTotal, reservationOf] using hp
  | reserveRefused hprog =>
    subst hprog
    cases hs
    simp [heldTotal]
  | releaseFresh hp hprog => subst hprog; cases hs
  | releaseRead hp hprog => subst hprog; cases hs
  | releaseRestored hprog => subst hprog; cases hs
  | @releaseDeleted r prog reason hprog =>
    rcases svc.publishReservationEvent_cases r (ascii "released:" ++ reason)
      (.done (Except.ok () : Except String Unit)) with he | ⟨m, he⟩
    · rw [hprog, he] at hs
      cases hs
      simp [heldTotal]
    · rw [hprog, he] at hs
      cases hs
  | releaseDone hprog =>
    subst hprog
    cases hs
    simp [heldTotal]
  | releaseRefused hp hprog =>
    subst hprog
    cases hs
    simpa [heldTotal] using hp

/-- A call in flight with what it still owes. -/
structure TaggedCall where
  call : InventoryCall
  due : Nat
  writing : Bool

/-- Stock, reservations and dues add up to the initial stock, and at most one call is about
to write the stock. -/
structure StockInv (svc : InventoryService) (productId : Bytes) (initial v : Nat)
    (tags : List TaggedCall) (s : StockRun) : Prop where
  bound : initial < 2 ^ 64
  calls : s.calls = tags.map TaggedCall.call
  stock : StockIs svc productId s.redis v
  position : ∀ t ∈ tags, CallAt svc productId v t.call t.due t.writing
  product : ∀ r ∈ s.held, r.productId = productId
  total : v + heldTotal s.held + (tags.map TaggedCall.due).sum = initial
  single : tags.countP TaggedCall.writing ≤ 1

variable {initial : Nat} {tags : List TaggedCall} {s : StockRun}

theorem heldTotal_append (xs ys : List Reservation) :
    heldTotal (xs ++ ys) = heldTotal xs + heldTotal ys := by
  simp [heldTotal]

theorem heldTotal_erase {held : List Reservation} {r : Reservation} (h : r ∈ held) :
    heldTotal (held.erase r) + r.quantity.toNat = heldTotal held := by
  have hp := ((List.perm_cons_erase h).map fun r => r.quantity.toNat).sum_eq
  simp only [List.map_cons, List.sum_cons] at hp
  unfold heldTotal
  omega

theorem exists_split {α : Type} {xs : List α} {i : Nat} {x : α} (h : xs[i]? = some x) :
    ∃ before after, xs = before ++ x :: after ∧ before.length = i := by
  obtain ⟨hi, hx⟩ := List.getElem?_eq_some_iff.mp h
  refine ⟨xs.take i, xs.drop (i + 1), ?_, by simp; omega⟩
  rw [← hx, List.getElem_cons_drop, List.take_append_drop]

theorem StockInv.start (h : StockInv svc productId initial v tags s) {t : TaggedCall}
    {held : List Reservation} (ht : CallAt svc productId v t.call t.due t.writing)
    (hw : t.writing = false) (hheld : ∀ r ∈ held, r.productId = productId)
    (hsum : heldTotal held + t.due = heldTotal s.held) :
    StockInv svc productId initial v (tags ++ [t]) { s with calls := s.calls ++ [t.call], held } where
  bound := h.bound
  calls := by simp [h.calls]
  stock := h.stock
  position := by
    intro u hu
    rcases List.mem_append.mp hu with hu | hu
    · exact h.position u hu
    · rw [List.mem_singleton.mp hu]
      exact ht
  product := hheld
  total := by
    have hh := h.total
    simp only [List.map_append, List.map_cons, List.map_nil, List.sum_append, List.sum_cons,
      List.sum_nil]
    omega
  single := by
    have hh := h.single
    simpa [hw] using hh

theorem StockInv.finish {before after : List TaggedCall} {t : TaggedCall}
    (h : StockInv svc productId initial v (before ++ t :: after) s) {rs : List Reservation}
    (hs : t.call.settle = some rs) :
    StockInv svc productId initial v (before ++ after)
      { s with calls := s.calls.eraseIdx before.length, held := s.held ++ rs } := by
  obtain ⟨hsum, hw, hprod⟩ := (h.position t (by simp)).settle hs
  exact {
    bound := h.bound
    calls := by
      have hl : before.length = (before.map TaggedCall.call).length := by simp
      rw [h.calls, List.map_append, List.map_cons, hl,
        List.eraseIdx_append_of_length_le (Nat.le_refl _)]
      simp
    stock := h.stock
    position := by
      intro u hu
      apply h.position
      rcases List.mem_append.mp hu with hu | hu
      · exact List.mem_append_left _ hu
      · exact List.mem_append_right _ (List.mem_cons_of_mem t hu)
    product := by
      intro r hr
      rcases List.mem_append.mp hr with hr | hr
      · exact h.product r hr
      · exact hprod r hr
    total := by
      have hh := h.total
      simp only [List.map_append, List.map_cons, List.sum_append, List.sum_cons] at hh ⊢
      rw [heldTotal_append]
      omega
    single := by
      have hh := h.single
      simp only [List.countP_append, List.countP_cons] at hh ⊢
      omega }

/-- The other calls of the pool keep their place: either the stock did not move, or the
call that moved it was the only one about to write. -/
theorem StockInv.others {before after : List TaggedCall} {t u : TaggedCall} {v' : Nat}
    (h : StockInv svc productId initial v (before ++ t :: after) s)
    (hsame : t.writing = false → v' = v) (hu : u ∈ before ++ after) :
    CallAt svc productId v' u.call u.due u.writing := by
  have hpos : CallAt svc productId v u.call u.due u.writing := by
    apply h.position
    rcases List.mem_append.mp hu with hu | hu
    · exact List.mem_append_left _ hu
    · exact List.mem_append_right _ (List.mem_cons_of_mem t hu)
  cases hw : t.writing with
  | false =>
    rw [hsame hw]
    exact hpos
  | true =>
    have hone := h.single
    simp only [List.countP_append, List.countP_cons, hw, if_true] at hone
    have hzero : (before ++ after).countP TaggedCall.writing = 0 := by
      rw [List.countP_append]
      omega
    have huw : u.writing = false := by
      simpa using List.countP_eq_zero.mp hzero u hu
    rw [huw] at hpos ⊢
    exact hpos.transport v'

theorem StockInv.step {before after : List TaggedCall} {t : TaggedCall}
    (h : StockInv svc productId initial v (before ++ t :: after) s) (hk : svc.KeysApart productId)
    (hex : t.call.IsGet (cString (svc.makeStockKey productId)) →
      ∀ u ∈ before ++ after, u.writing = false) :
    ∃ v' t', StockInv svc productId initial v' (before ++ t' :: after)
      { s with
        calls := s.calls.set before.length (t.call.step s.redis).1
        redis := (t.call.step s.redis).2 } := by
  have htotal := h.total
  simp only [List.map_append, List.map_cons, List.sum_append, List.sum_cons] at htotal
  have hbound := h.bound
  obtain ⟨v', due', writing', hat, hst, hsum, hsame, hget⟩ :=
    (h.position t (by simp)).step hk h.stock (by omega)
  refine ⟨v', ⟨(t.call.step s.redis).1, due', writing'⟩, ?_⟩
  exact {
    bound := h.bound
    calls := by
      have hl : before.length = (before.map TaggedCall.call).length := by simp
      rw [h.calls, List.map_append, List.map_cons, hl, List.set_append_right _ _ (Nat.le_refl _)]
      simp
    stock := hst
    position := by
      intro u hu
      rcases List.mem_append.mp hu with hu | hu
      · exact h.others hsame (List.mem_append_left _ hu)
      · rcases List.mem_cons.mp hu with hu | hu
        · rw [hu]
          exact hat
        · exact h.others hsame (List.mem_append_right _ hu)
    product := h.product
    total := by
      simp only [List.map_append, List.map_cons, List.sum_append, List.sum_cons]
      omega
    single := by
      have hone := h.single
      simp only [List.countP_append, List.countP_cons] at hone ⊢
      cases hw : writing' with
      | false =>
        simp only [Bool.false_eq_true, if_false]
        omega
      | true =>
        have hzero : (before ++ after).countP TaggedCall.writing = 0 := by
          apply List.countP_eq_zero.mpr
          intro u hu
          simpa using hex (hget hw) u hu
        rw [List.countP_append] at hzero
        simp only [if_true]
        omega }

theorem StockInv.applyStock {a : StockAction} (hk : svc.KeysApart productId)
    (hp : ((svc.stockSystem productId initial).restrict (svc.Exclusive productId)).permitted a s)
    (h : ∃ v tags, StockInv svc productId initial v tags s) :
    ∃ v tags, StockInv svc productId initial v tags (svc.applyStock a s) := by
  obtain ⟨v, tags, h⟩ := h
  cases a with
  | startReserve client order =>
    exact ⟨v, _, h.start (t := ⟨_, 0, false⟩) (callAt_reserve hp.1 client) rfl h.product rfl⟩
  | startRelease client r reason =>
    have hmem : r ∈ s.held := hp.1
    have hat : CallAt svc productId v (.release r (svc.releaseReservation client r reason))
        r.quantity.toNat false := callAt_release (h.product r hmem) client reason
    exact ⟨v, _, h.start (t := ⟨_, r.quantity.toNat, false⟩) hat rfl
      (fun q hq => h.product q (List.mem_of_mem_erase hq)) (heldTotal_erase hmem)⟩
  | step i =>
    unfold InventoryService.applyStock
    dsimp only
    split
    · exact ⟨v, tags, h⟩
    next call hcall =>
      have htag := hcall
      rw [h.calls, List.getElem?_map] at htag
      obtain ⟨t, ht, rfl⟩ := Option.map_eq_some_iff.mp htag
      obtain ⟨before, after, rfl, rfl⟩ := exists_split ht
      obtain ⟨v', t', hi⟩ := h.step hk (by
        intro hg u hu
        by_contra hw
        have hut : u ∈ before ++ t :: after := by
          rcases List.mem_append.mp hu with hu | hu
          · exact List.mem_append_left _ hu
          · exact List.mem_append_right _ (List.mem_cons_of_mem t hu)
        have hpos := h.position u hut
        have hwt : u.writing = true := by simpa using hw
        rw [hwt] at hpos
        have hmem : u.call ∈ s.calls := by
          rw [h.calls]
          exact List.mem_map_of_mem hut
        exact hp.2 t.call hcall hg u.call hmem hpos.isSet)
      exact ⟨v', _, hi⟩
  | finish i =>
    unfold InventoryService.applyStock
    dsimp only
    split
    · exact ⟨v, tags, h⟩
    next call hcall =>
      rw [h.calls, List.getElem?_map] at hcall
      obtain ⟨t, ht, rfl⟩ := Option.map_eq_some_iff.mp hcall
      obtain ⟨before, after, rfl, rfl⟩ := exists_split ht
      split
      · exact ⟨v, _, h⟩
      next rs hrs => exact ⟨v, _, h.finish hrs⟩

/-- As long as no call reads the stock while another is about to write it, whenever no call
is in flight the stock is the initial stock minus what is granted and unreleased. -/
theorem stock_conserved_of_exclusive (hk : svc.KeysApart productId)
    (h : ((svc.stockSystem productId initial).restrict (svc.Exclusive productId)).Reachable s)
    (hidle : s.calls = []) :
    heldTotal s.held ≤ initial ∧
      svc.storedStock productId s.redis = some (initial - heldTotal s.held) := by
  have hi : ∃ v tags, StockInv svc productId initial v tags s := by
    apply h.invariant
    · rintro t ⟨hs, hc, hh⟩
      have hst := stockIs_iff.mpr hs
      obtain ⟨text, _, htext⟩ := hst
      exact ⟨initial, [], {
        bound := stoul_lt htext
        calls := hc
        stock := stockIs_iff.mpr hs
        position := by simp
        product := by simp [hh]
        total := by simp [hh, heldTotal]
        single := by simp }⟩
    · intro a t ha ht
      exact StockInv.applyStock hk ha ht
  obtain ⟨v, tags, hinv⟩ := hi
  have htags : tags = [] := by
    have hc := hinv.calls
    rw [hidle] at hc
    exact List.map_eq_nil_iff.mp hc.symm
  have htotal := hinv.total
  rw [htags] at htotal
  simp only [List.map_nil, List.sum_nil] at htotal
  have hv : v = initial - heldTotal s.held := by omega
  refine ⟨by omega, ?_⟩
  rw [← hv]
  exact stockIs_iff.mp hinv.stock

theorem cString_append {xs : Bytes} (h : ∀ b ∈ xs, b ≠ 0) (ys : Bytes) :
    cString (xs ++ ys) = xs ++ cString ys := by
  have hx : xs.takeWhile (· ≠ 0) = xs := List.takeWhile_eq_self_iff.mpr (by simpa using h)
  unfold cString
  rw [List.takeWhile_append, hx]
  simp

theorem cString_makeStockKey (hp : svc.DefaultPrefixes) (productId : Bytes) :
    cString (svc.makeStockKey productId) = ascii "inventory:stock:" ++ cString productId := by
  rw [makeStockKey, hp.1, cString_append (by decide +kernel)]

theorem cString_makeReservationKey (hp : svc.DefaultPrefixes) (reservationId : Bytes) :
    cString (svc.makeReservationKey reservationId) =
      ascii "inventory:reservation:" ++ cString reservationId := by
  rw [makeReservationKey, hp.2, cString_append (by decide +kernel)]

theorem keysApart_of_defaultPrefixes (hp : svc.DefaultPrefixes) (productId : Bytes) :
    svc.KeysApart productId := by
  intro reservationId he
  rw [cString_makeReservationKey hp, cString_makeStockKey hp] at he
  have htake := congrArg (List.take 11) he
  rw [List.take_append_of_le_length (by decide),
    List.take_append_of_le_length (by decide)] at htake
  exact absurd htake (by decide)

/-- With the key prefixes of `Options{}`. -/
theorem keysApart_default (deps : InventoryDependencies) (productId : Bytes) :
    KeysApart ⟨deps, {}⟩ productId :=
  keysApart_of_defaultPrefixes ⟨rfl, rfl⟩ productId

/-- A call that does not read the stock next may go on whatever the others do. -/
theorem exclusive_of_not_isGet {call : InventoryCall} {i : Nat} (hc : s.calls[i]? = some call)
    (hn : ¬ call.IsGet (cString (svc.makeStockKey productId))) :
    svc.Exclusive productId (.step i) s := by
  intro c hc' hget
  rw [hc] at hc'
  cases hc'
  exact absurd hget hn

/-- Two calls of which none is about to write. -/
theorem exclusive_of_not_isSet {first second : InventoryCall} (hc : s.calls = [first, second])
    (h₁ : ¬ first.IsSet (cString (svc.makeStockKey productId)))
    (h₂ : ¬ second.IsSet (cString (svc.makeStockKey productId))) (i : Nat) :
    svc.Exclusive productId (.step i) s := by
  rintro call - - other hother
  rw [hc] at hother
  rcases List.mem_pair.mp hother with rfl | rfl
  · exact h₁
  · exact h₂

/-- The service of the application and a product with five items. -/
def shopService : InventoryService := ⟨⟨true, true, true⟩, {}⟩

def shopStart : StockRun :=
  ⟨Finmap.singleton (ascii "inventory:stock:p") (ascii "5"), [], []⟩

def shopOrder (orderId : String) (quantity : UInt32) : OrderRecord :=
  ⟨ascii orderId, ascii "p", quantity⟩

/-- Two clients; the second reads the stock between the first one's writes of the stock and of its
reservation. -/
theorem stock_conserved_two_orders :
    let actions : List StockAction :=
      [.startReserve true (shopOrder "o1" 2), .startReserve true (shopOrder "o2" 1), .step 0, .step 0,
        .step 1, .step 0, .step 1, .step 0, .step 1, .step 1, .finish 1, .finish 0]
    let s := (shopService.stockSystem (ascii "p") 5).run actions shopStart
    heldTotal s.held = 3 ∧ heldTotal s.held ≤ 5 ∧
      shopService.storedStock (ascii "p") s.redis = some (5 - heldTotal s.held) := by
  intro actions s
  have h0 : ((shopService.stockSystem (ascii "p") 5).restrict
      (shopService.Exclusive (ascii "p"))).Reachable shopStart :=
    .init ⟨by decide, rfl, rfl⟩
  have hp : ((shopService.stockSystem (ascii "p") 5).restrict
      (shopService.Exclusive (ascii "p"))).Permits actions shopStart := by
    refine ⟨⟨rfl, trivial⟩, ⟨rfl, trivial⟩, ⟨trivial, exclusive_of_not_isSet rfl id id 0⟩,
      ⟨trivial, exclusive_of_not_isGet rfl id⟩, ⟨trivial, exclusive_of_not_isSet rfl ?_ id 1⟩,
      ⟨trivial, exclusive_of_not_isGet rfl id⟩, ⟨trivial, exclusive_of_not_isGet rfl id⟩,
      ⟨trivial, exclusive_of_not_isGet rfl id⟩, ⟨trivial, exclusive_of_not_isGet rfl id⟩,
      ⟨trivial, exclusive_of_not_isGet rfl id⟩, ⟨trivial, trivial⟩, ⟨trivial, trivial⟩, trivial⟩
    exact keysApart_default _ _ _
  have hidle : s.calls = [] := List.eq_nil_of_length_eq_zero (by decide)
  exact ⟨by decide, stock_conserved_of_exclusive (keysApart_default _ _) (h0.run hp) hidle⟩

/-- Two clients read five items before either writes: both orders for five are granted. -/
theorem stock_oversold :
    let actions : List StockAction :=
      [.startReserve true (shopOrder "o1" 5), .startReserve true (shopOrder "o2" 5), .step 0, .step 1,
        .step 0, .step 1, .step 0, .step 1, .step 0, .step 1, .finish 1, .finish 0]
    let s := (shopService.stockSystem (ascii "p") 5).run actions shopStart
    (shopService.stockSystem (ascii "p") 5).init shopStart ∧
      (shopService.stockSystem (ascii "p") 5).Permits actions shopStart ∧
      s.calls.length = 0 ∧ heldTotal s.held = 10 ∧
      shopService.storedStock (ascii "p") s.redis = some 0 := by
  intro actions s
  refine ⟨⟨by decide, rfl, rfl⟩, ?_, by decide, by decide, by decide⟩
  exact ⟨rfl, rfl, trivial, trivial, trivial, trivial, trivial, trivial, trivial, trivial, trivial,
    trivial, trivial⟩

end InventoryService

end MuduoPlus
