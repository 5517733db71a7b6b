import MuduoPlus.InventoryExec
import MuduoPlus.NumberText

namespace MuduoPlus

namespace InventoryService

variable {svc : InventoryService} {redis : Dict} {productId : Bytes}

/-- `AdjustStock` with the answer to its `GET`. Nothing is returned where the sum does not fit the
`int64_t` it is stored in, which is undefined. -/
def adjustWithStock (svc : InventoryService) (productId : Bytes) (delta : Int64) :
    Option Bytes → RedisProgram (Option Bool)
  | none => .done (some false)
  | some value =>
    match stoll value with
    | .error _ => .done (some false)
    | .ok stock =>
      let stock := stock + delta.toInt
      if stock < -2 ^ 63 ∨ 2 ^ 63 ≤ stock then .done none
      else
        RedisClient.set (svc.makeStockKey productId) (decimalInt (if stock < 0 then 0 else stock))
          fun ok => .done (some ok)

def adjustStock (svc : InventoryService) (client : Bool) (productId : Bytes) (delta : Int64) :
    RedisProgram (Option Bool) :=
  if !svc.deps.redis then .done (some false)
  else if !client then .done (some false)
  else RedisClient.get (svc.makeStockKey productId) (svc.adjustWithStock productId delta)

/-- The stock that `QueryStock` reads is the new one if the call said that it succeeded, and the old
one if it did not. -/
def ReadsExactly (svc : InventoryService) (productId : Bytes) (old new : Nat) (succeeded : Bool)
    (redis : Dict) : Prop :=
  ((svc.queryStock true productId).exec redis).1 = some (if succeeded then new else old)

section Stocked

variable (hredis : svc.deps.redis = true) {s : Nat}
  (hlookup : redis.lookup (svc.stockKey productId) = some (decimal s))

include hredis hlookup

/-- A stock that `stoll` does not read stays as it is. -/
theorem adjustStock_refused (delta : Int64) (h : 2 ^ 63 ≤ s) :
    (svc.adjustStock true productId delta).exec redis = (some false, redis) := by
  have hread : stoll (decimal s) = .error .outOfRange := by
    rw [stoll, stoSigned_decimal, if_neg (by omega)]
  unfold stockKey at hlookup
  simp only [adjustStock, hredis, RedisClient.get, StoreProgram.exec, hlookup, adjustWithStock,
    hread, Bool.not_true, Bool.false_eq_true, if_false]

theorem adjustStock_overflow {delta : Int64} (h : s < 2 ^ 63) (ho : 2 ^ 63 ≤ s + delta.toInt) :
    (svc.adjustStock true productId delta).exec redis = (none, redis) := by
  have hread : stoll (decimal s) = .ok (s : Int) := by
    rw [stoll, stoSigned_decimal, if_pos h]
  unfold stockKey at hlookup
  simp only [adjustStock, hredis, RedisClient.get, StoreProgram.exec, hlookup, adjustWithStock,
    hread, ho, or_true, Bool.not_true, Bool.false_eq_true, if_false, if_true]

theorem adjustStock_exec {delta : Int64} (h : s < 2 ^ 63) (ho : s + delta.toInt < 2 ^ 63) :
    (svc.adjustStock true productId delta).exec redis =
      (some true, redis.insert (svc.stockKey productId) (decimal (s + delta.toInt).toNat)) := by
  have hread : stoll (decimal s) = .ok (s : Int) := by
    rw [stoll, stoSigned_decimal, if_pos h]
  have hlo := Int64.le_toInt delta
  have hfits : ¬((s : Int) + delta.toInt < -2 ^ 63 ∨ 2 ^ 63 ≤ (s : Int) + delta.toInt) := by omega
  have htext : decimalInt (if (s : Int) + delta.toInt < 0 then 0 else s + delta.toInt) =
      decimal (s + delta.toInt).toNat := by
    rw [← decimalInt_natCast]
    congr 1
    split
    · omega
    · omega
  unfold stockKey at hlookup ⊢
  simp only [adjustStock, hredis, RedisClient.get, StoreProgram.exec, hlookup, adjustWithStock,
    hread, hfits, htext, RedisClient.set, cString_of_isDigit isDigit_decimal, Bool.not_true,
    Bool.false_eq_true, if_false]

end Stocked

/-- A release stores the exact sum unless it wraps around `2^64`, or unless the record it deletes is
the stock itself. -/
theorem releaseReservation_exact_iff (hredis : svc.deps.redis = true) (redis : Dict)
    (r : Reservation) (reason : Bytes) {s : Nat} (hs : s < 2 ^ 64) :
    let released := (svc.releaseReservation true r reason).exec
      (redis.insert (svc.stockKey r.productId) (decimal s))
    svc.ReadsExactly r.productId s (s + r.quantity.toNat) released.1.isOk released.2 ↔
      svc.stockKey r.productId ≠ svc.reservationKey r.reservationId ∧
        s + r.quantity.toNat < 2 ^ 64 := by
  intro released
  have hexec : released = (.ok (), svc.released r s
      (redis.insert (svc.stockKey r.productId) (decimal s))) :=
    releaseReservation_exec hredis (storedStock_insert_self hs)
  have hok : (Except.ok () : Except String Unit).isOk = true := rfl
  rw [hexec, ReadsExactly, queryStock_exec hredis, hok, if_pos rfl, InventoryService.released]
  by_cases hk : svc.stockKey r.productId = svc.reservationKey r.reservationId
  · have hgone : svc.storedStock r.productId (((redis.insert (svc.stockKey r.productId)
        (decimal s)).insert (svc.stockKey r.productId)
        (decimal ((s + r.quantity.toNat) % 2 ^ 64))).erase (svc.stockKey r.productId)) = none := by
      unfold storedStock stockKey
      rw [Finmap.lookup_erase]
    rw [← hk, hgone]
    simp
  · have hsum := Nat.mod_lt (s + r.quantity.toNat) (by decide : 0 < 2 ^ 64)
    rw [storedStock_congr (Finmap.lookup_erase_ne hk), storedStock_insert_self hsum,
      Option.some.injEq]
    constructor
    · intro he
      exact ⟨hk, by omega⟩
    · intro h
      exact Nat.mod_eq_of_lt h.2

/-- An adjustment stores the exact sum, or is refused, unless the sum overflows an `int64_t`. -/
theorem adjustStock_exact_iff (hredis : svc.deps.redis = true) (redis : Dict) (productId : Bytes)
    {s : Nat} (hs : s < 2 ^ 64) (delta : Int64) :
    let adjusted := (svc.adjustStock true productId delta).exec
      (redis.insert (svc.stockKey productId) (decimal s))
    (∃ ok, adjusted.1 = some ok ∧
        svc.ReadsExactly productId s (s + delta.toInt).toNat ok adjusted.2) ↔
      2 ^ 63 ≤ s ∨ s + delta.toInt < 2 ^ 63 := by
  intro adjusted
  have hlookup : (redis.insert (svc.stockKey productId) (decimal s)).lookup
      (svc.stockKey productId) = some (decimal s) := Finmap.lookup_insert redis
  by_cases hlarge : 2 ^ 63 ≤ s
  · have hexec : adjusted = (some false, _) := adjustStock_refused hredis hlookup delta hlarge
    refine iff_of_true ⟨false, by rw [hexec], ?_⟩ (Or.inl hlarge)
    rw [hexec, ReadsExactly, queryStock_exec hredis]
    exact storedStock_insert_self hs
  · by_cases ho : s + delta.toInt < 2 ^ 63
    · have hexec : adjusted = (some true, _) := adjustStock_exec hredis hlookup (by omega) ho
      refine iff_of_true ⟨true, by rw [hexec], ?_⟩ (Or.inr ho)
      rw [hexec, ReadsExactly, queryStock_exec hredis]
      exact storedStock_insert_self (by omega)
    · have hexec : adjusted = (none, _) :=
        adjustStock_overflow hredis hlookup (by omega) (by omega)
      refine iff_of_false ?_ (by omega)
      rintro ⟨ok, hok, -⟩
      rw [hexec] at hok
      cases hok

/-- After `SetStock` a release and an adjustment give the exact stock or leave the old one, readable
in either case, exactly within the limits of their integers. -/
theorem stock_exact_iff (hredis : svc.deps.redis = true) (redis : Dict) (r : Reservation)
    (reason : Bytes) (s : UInt64) (delta : Int64) :
    let stocked := ((svc.setStock true r.productId s).exec redis).2
    let released := (svc.releaseReservation true r reason).exec stocked
    let adjusted := (svc.adjustStock true r.productId delta).exec stocked
    (svc.ReadsExactly r.productId s.toNat (s.toNat + r.quantity.toNat) released.1.isOk released.2 ∧
      ∃ ok, adjusted.1 = some ok ∧
        svc.ReadsExactly r.productId s.toNat (s.toNat + delta.toInt).toNat ok adjusted.2) ↔
    svc.stockKey r.productId ≠ svc.reservationKey r.reservationId ∧
      s.toNat + r.quantity.toNat < 2 ^ 64 ∧ (2 ^ 63 ≤ s.toNat ∨ s.toNat + delta.toInt < 2 ^ 63) := by
  intro stocked released adjusted
  have hs : s.toNat < 2 ^ 64 := s.toNat_lt
  have hstocked : stocked = redis.insert (svc.stockKey r.productId) (decimal s.toNat) := by
    show ((svc.setStock true r.productId s).exec redis).2 = _
    rw [setStock_exec hredis]
  have hrelease := releaseReservation_exact_iff hredis redis r reason hs
  have hadjust := adjustStock_exact_iff hredis redis r.productId hs delta
  rw [← hstocked] at hrelease hadjust
  rw [← and_assoc]
  exact and_congr hrelease hadjust

theorem stock_exact_iff_shop :
    let r := reservationOf (shopOrder "o1" 2)
    let stocked := ((shopService.setStock true r.productId 5).exec ∅).2
    let released := (shopService.releaseReservation true r []).exec stocked
    let adjusted := (shopService.adjustStock true r.productId (-9)).exec stocked
    shopService.ReadsExactly r.productId 5 7 released.1.isOk released.2 ∧
      ∃ ok, adjusted.1 = some ok ∧ shopService.ReadsExactly r.productId 5 0 ok adjusted.2 := by
  have hkeys : shopService.KeysApart (ascii "p") := keysApart_of_defaultPrefixes ⟨rfl, rfl⟩ _
  have hapart := stockKey_ne_reservationKey hkeys (makeReservationId (shopOrder "o1" 2))
  exact (stock_exact_iff rfl ∅ (reservationOf (shopOrder "o1" 2)) [] 5 (-9)).mpr
    ⟨hapart, by decide, Or.inr (by decide)⟩

/-- One more than `2^64 - 1` is stored as 0, and one more than `2^63 - 1` is undefined. -/
theorem stock_inexact_at_limits :
    let r := reservationOf (shopOrder "o1" 1)
    let full := ((shopService.setStock true r.productId 18446744073709551615).exec ∅).2
    let half := ((shopService.setStock true r.productId 9223372036854775807).exec ∅).2
    let released := (shopService.releaseReservation true r []).exec full
    released.1.isOk = true ∧
    ((shopService.queryStock true r.productId).exec released.2).1 = some 0 ∧
    ((shopService.adjustStock true r.productId 1).exec half).1 = none := by
  decide +kernel

end InventoryService

end MuduoPlus
