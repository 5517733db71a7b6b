import Mathlib.Algebra.Order.Floor.Semifield
import Mathlib.Data.Rat.Floor
import MuduoPlus.OrderCreateInventory

namespace MuduoPlus

/-- The number that a `double` stands for; infinities and NaN stand for none. -/
def floatValue (x : Float) : Option ℚ :=
  match x.toModel.unpack with
  | .finite sign m e _ =>
    let q : ℚ := (ratio m e).1 / (ratio m e).2
    some (if isNegative sign then -q else q)
  | .zero _ => some 0
  | _ => none

namespace Json

def IsNumber : Json → Prop
  | .unsigned _ => True
  | .integer _ => True
  | .float _ => True
  | _ => False

/-- The number that stands in the text. -/
def numberValue : Json → Option ℚ
  | .unsigned n => some n.toNat
  | .integer i => some i.toInt
  | .float x => floatValue x
  | _ => none

/-- An integer that an order can have as its quantity. -/
def IsQuantity (number : Json) : Prop :=
  ∃ n : Nat, 1 ≤ n ∧ n < 2 ^ 32 ∧ number.numberValue = some (n : ℚ)

/-- What the cast to 32 bits makes 0: an integer part that `2^32` divides, and in a `double` one
that does not fit 64 bits. -/
def CastsToZero : Json → Prop
  | .unsigned n => 2 ^ 32 ∣ n.toNat
  | .integer i => (2 : Int) ^ 32 ∣ i.toInt
  | .float x => ∀ q, floatValue x = some q → 2 ^ 32 ∣ ⌊|q|⌋₊ ∨ 2 ^ 63 ≤ ⌊|q|⌋₊
  | _ => False

end Json

theorem toNat_uint32OfInt (i : Int) : (UInt32.ofInt i).toNat = (i % 2 ^ 32).toNat := by
  have hlt : (i % 2 ^ 32).toNat < 2 ^ 32 := by omega
  rw [UInt32.ofInt, UInt32.toNat_ofNat']
  exact Nat.mod_eq_of_lt hlt

theorem uint32OfInt_eq_zero_iff (i : Int) : UInt32.ofInt i = 0 ↔ (2 : Int) ^ 32 ∣ i := by
  rw [← UInt32.toNat_inj, toNat_uint32OfInt, UInt32.toNat_zero]
  omega

theorem uint32OfInt_natCast {n : Nat} (h : n < 2 ^ 32) : UInt32.ofInt (n : Int) = UInt32.ofNat n := by
  rw [← UInt32.toNat_inj, toNat_uint32OfInt, UInt32.toNat_ofNat_of_lt' h]
  omega

theorem floor_abs_signed (sign : Bool) (a b : Nat) :
    ⌊|if sign then -((a : ℚ) / b) else (a : ℚ) / b|⌋₊ = a / b := by
  have habs : |if sign then -((a : ℚ) / b) else (a : ℚ) / b| = (a : ℚ) / b := by
    have hpos : 0 ≤ (a : ℚ) / b := by positivity
    split
    · rw [abs_neg, abs_of_nonneg hpos]
    · rw [abs_of_nonneg hpos]
  rw [habs, Nat.floor_div_eq_div]

section Finite

variable {x : Float} {sign : Float.Model.UnpackedFloat.Sign} {m : Nat} {e : Int} {hm : 0 < m}
  (hx : x.toModel.unpack = .finite sign m e hm)

include hx

theorem floatValue_finite :
    floatValue x = some (if isNegative sign then -(((ratio m e).1 : ℚ) / (ratio m e).2)
      else ((ratio m e).1 : ℚ) / (ratio m e).2) := by
  unfold floatValue
  rw [hx]

theorem uint32OfFloat_finite :
    uint32OfFloat x =
      if (ratio m e).1 / (ratio m e).2 < 2 ^ 63 then
        UInt32.ofInt (if isNegative sign then -((ratio m e).1 / (ratio m e).2 : Nat)
          else ((ratio m e).1 / (ratio m e).2 : Nat))
      else 0 := by
  unfold uint32OfFloat
  rw [hx]

end Finite

namespace Json

theorem uint32OfFloat_eq_zero_iff (x : Float) :
    uint32OfFloat x = 0 ↔ (Json.float x).CastsToZero := by
  cases hx : x.toModel.unpack with
  | notANumber => simp [uint32OfFloat, CastsToZero, floatValue, hx]
  | infinity sign => simp [uint32OfFloat, CastsToZero, floatValue, hx]
  | zero sign => simp [uint32OfFloat, CastsToZero, floatValue, hx]
  | finite sign m e hm =>
    simp only [uint32OfFloat_finite hx, CastsToZero, floatValue_finite hx, Option.some.injEq,
      forall_eq', floor_abs_signed]
    generalize (ratio m e).1 / (ratio m e).2 = n
    split
    next hlt =>
      rw [uint32OfInt_eq_zero_iff]
      split
      · omega
      · omega
    next hge => exact iff_of_true rfl (Or.inr (by omega))

/-- A `double` that is an integer of 32 bits is cast to it. -/
theorem uint32OfFloat_of_value {x : Float} {n : Nat} (h1 : 1 ≤ n) (hn : n < 2 ^ 32)
    (hv : floatValue x = some (n : ℚ)) : uint32OfFloat x = UInt32.ofNat n := by
  have hpos : (0 : ℚ) < n := by exact_mod_cast h1
  cases hx : x.toModel.unpack with
  | notANumber => simp [floatValue, hx] at hv
  | infinity sign => simp [floatValue, hx] at hv
  | zero sign =>
    simp only [floatValue, hx, Option.some.injEq] at hv
    rw [← hv] at hpos
    exact absurd hpos (lt_irrefl 0)
  | finite sign m e hm =>
    rw [floatValue_finite hx, Option.some.injEq] at hv
    have hfloor := floor_abs_signed (isNegative sign) (ratio m e).1 (ratio m e).2
    rw [hv, abs_of_pos hpos, Nat.floor_natCast] at hfloor
    have hsign : isNegative sign = false := by
      by_contra hneg
      rw [if_pos (by simpa using hneg)] at hv
      have hq : (0 : ℚ) ≤ ((ratio m e).1 : ℚ) / (ratio m e).2 := by positivity
      linarith
    have hsmall : n < 2 ^ 63 := by omega
    simp only [uint32OfFloat_finite hx, ← hfloor, hsign, hsmall, Bool.false_eq_true, if_true,
      if_false]
    exact uint32OfInt_natCast hn

theorem getUnsigned_of_isNumber {number : Json} (h : number.IsNumber) :
    ∃ n, number.getUnsigned = some n ∧ (n = 0 ↔ number.CastsToZero) := by
  cases number with
  | unsigned n =>
    refine ⟨n.toUInt32, rfl, ?_⟩
    rw [← UInt32.toNat_inj, UInt64.toNat_toUInt32, UInt32.toNat_zero]
    exact Nat.dvd_iff_mod_eq_zero.symm
  | integer i => exact ⟨_, rfl, uint32OfInt_eq_zero_iff i.toInt⟩
  | float x => exact ⟨_, rfl, uint32OfFloat_eq_zero_iff x⟩
  | _ => exact absurd h id

theorem getUnsigned_of_value {number : Json} {n : Nat} (h1 : 1 ≤ n) (hn : n < 2 ^ 32)
    (hv : number.numberValue = some (n : ℚ)) : number.getUnsigned = some (UInt32.ofNat n) := by
  cases number with
  | unsigned k =>
    have hk : k.toNat = n := by exact_mod_cast Option.some.inj hv
    rw [← hk]
    rfl
  | integer i =>
    have hi : i.toInt = n := by exact_mod_cast Option.some.inj hv
    rw [getUnsigned, hi, uint32OfInt_natCast hn]
  | float x => exact congrArg some (uint32OfFloat_of_value h1 hn hv)
  | _ => cases hv

end Json

namespace OrderCreateHandler

open OrderRepository

variable {h : OrderCreateHandler} {req : HttpRequest} {resp : HttpResponse} {j number : Json}
  {record : Record} {members : List (Bytes × Json)} {quantity : UInt32}

/-- `parseRequest` and `validateRecord`. -/
def checkRequest (h : OrderCreateHandler) (req : HttpRequest) (resp : HttpResponse) :
    Except HttpResponse Record := do
  let record ← h.parseRequest req resp
  h.validateRecord record resp
  return record

/-- Nothing but the quantity can make the body refused. -/
def RestAccepted (j : Json) : Prop :=
  ∃ userId productId totalAmount currency,
    j.value Json.getString (ascii "userId") [] = some userId ∧
    j.value Json.getString (ascii "productId") [] = some productId ∧
    j.value Json.getDouble (ascii "amount") 0.0 = some totalAmount ∧
    j.value Json.getString (ascii "currency") (ascii "CNY") = some currency ∧
    userId ≠ [] ∧ productId ≠ [] ∧ ¬totalAmount ≤ 0.0

theorem checkRequest_error {answer : HttpResponse} (he : h.checkRequest req resp = .error answer) :
    answer.statusCode = .k400BadRequest := by
  rcases cases_of_bind_error he with hp | ⟨record, _, he⟩
  · exact parseRequest_error hp
  · rcases cases_of_bind_error he with hv | ⟨_, _, he⟩
    · exact validateRecord_error hv
    · cases he

section Parsed

variable (hparse : h.json.parse req.content = some j)
  (hq : j.value Json.getUnsigned (ascii "quantity") 1 = some quantity)

include hparse hq

/-- An accepted record has the cast quantity, which is not 0, and the rest of the body is right. -/
theorem of_checkRequest_ok (hok : h.checkRequest req resp = .ok record) :
    record.quantity = quantity ∧ quantity ≠ 0 ∧ RestAccepted j := by
  obtain ⟨parsed, hp, hok⟩ := exists_of_bind_ok hok
  obtain ⟨_, hv, hok⟩ := exists_of_bind_ok hok
  obtain rfl := Except.ok.inj hok
  unfold parseRequest at hp
  rw [hparse] at hp
  dsimp only at hp
  split at hp
  next => cases hp
  next read hr =>
    obtain rfl := Except.ok.inj hp
    simp only [recordOf, bind, Option.bind_eq_some_iff, pure, Option.some.injEq] at hr
    obtain ⟨userId, huser, productId, hproduct, cast, hcast, amount, hamount, currency, hcurrency,
      rfl⟩ := hr
    obtain rfl : cast = quantity := Option.some.inj (hcast.symm.trans hq)
    unfold validateRecord at hv
    split at hv
    next => cases hv
    next hids =>
      split at hv
      next => cases hv
      next hnumbers =>
        rw [not_or] at hids hnumbers
        exact ⟨rfl, hnumbers.1, userId, productId, amount, currency, huser, hproduct, hamount,
          hcurrency, hids.1, hids.2, hnumbers.2⟩

theorem checkRequest_of_restAccepted (hne : quantity ≠ 0) (hrest : RestAccepted j) :
    ∃ record, h.checkRequest req resp = .ok record := by
  obtain ⟨userId, productId, amount, currency, huser, hproduct, hamount, hcurrency, huserId,
    hproductId, hpaid⟩ := hrest
  let record : Record :=
    { userId, productId, quantity, currency, totalAmount := amount, payloadJson := req.content }
  have hread : recordOf j req.content = some record := by
    simp only [recordOf, huser, hproduct, hq, hamount, hcurrency, bind, Option.bind_some, pure]
    rfl
  have hparsed : h.parseRequest req resp = .ok record := by
    unfold parseRequest
    rw [hparse]
    dsimp only
    rw [hread]
  have hvalid : h.validateRecord record resp = .ok () := by
    unfold validateRecord
    rw [if_neg (not_or.mpr ⟨huserId, hproductId⟩), if_neg (not_or.mpr ⟨hne, hpaid⟩)]
  refine ⟨record, ?_⟩
  unfold checkRequest
  simp only [hparsed, hvalid, bind, Except.bind, pure, Except.pure]

end Parsed

/-- What is stored as the quantity is the number of the body, which is an integer from 1 to
`2^32 - 1`, and a body with any other number is answered with 400. -/
def QuantityKept (h : OrderCreateHandler) (req : HttpRequest) (resp : HttpResponse)
    (number : Json) : Prop :=
  (∀ record, h.checkRequest req resp = .ok record →
    number.IsQuantity ∧ number.numberValue = some (record.quantity.toNat : ℚ)) ∧
  (¬number.IsQuantity →
    ∃ answer, h.checkRequest req resp = .error answer ∧ answer.statusCode = .k400BadRequest)

/-- The quantity is kept exactly if the number is one, or the cast makes it 0, or the body is refused
anyway. -/
theorem quantityKept_iff (hparse : h.json.parse req.content = some (.object members))
    (hmember : members.lookup (ascii "quantity") = some number) (hnumber : number.IsNumber)
    (resp : HttpResponse) :
    h.QuantityKept req resp number ↔
      (RestAccepted (.object members) → number.IsQuantity ∨ number.CastsToZero) := by
  obtain ⟨quantity, hcast, hzero⟩ := Json.getUnsigned_of_isNumber hnumber
  have hq : (Json.object members).value Json.getUnsigned (ascii "quantity") 1 = some quantity := by
    simp only [Json.value, hmember, hcast]
  constructor
  · intro hkept hrest
    by_cases hne : quantity = 0
    · exact Or.inr (hzero.mp hne)
    · obtain ⟨record, hok⟩ := checkRequest_of_restAccepted hparse hq hne hrest
      exact Or.inl (hkept.1 record hok).1
  · intro hcond
    have haccepted : ∀ record, h.checkRequest req resp = .ok record →
        number.IsQuantity ∧ number.numberValue = some (record.quantity.toNat : ℚ) := by
      intro record hok
      obtain ⟨hrecord, hne, hrest⟩ := of_checkRequest_ok hparse hq hok
      rcases hcond hrest with hquantity | hc
      · obtain ⟨n, h1, hn, hv⟩ := id hquantity
        have hread := Json.getUnsigned_of_value h1 hn hv
        rw [hcast] at hread
        have hn' : record.quantity.toNat = n := by
          rw [hrecord, Option.some.inj hread]
          exact UInt32.toNat_ofNat_of_lt' hn
        exact ⟨hquantity, by rw [hn', hv]⟩
      · exact absurd (hzero.mpr hc) hne
    refine ⟨haccepted, ?_⟩
    intro hno
    cases hc : h.checkRequest req resp with
    | ok record => exact absurd (haccepted record hc).1 hno
    | error answer => exact ⟨answer, rfl, checkRequest_error hc⟩

/-- An order with this quantity, and all else right. -/
def quantityMembers (number : Json) : List (Bytes × Json) :=
  [(ascii "amount", .unsigned 5), (ascii "productId", .string (ascii "p")),
    (ascii "quantity", number), (ascii "userId", .string (ascii "u"))]

def quantityText (digits : Bytes) : Bytes :=
  ascii "\x7b\"userId\":\"u\"," ++ ascii "\"productId\":\"p\",\"amount\":5," ++
    ascii "\"quantity\":" ++ digits ++ ascii "\x7d"

def quantityHandler (digits : Bytes) (number : Json) : OrderCreateHandler where
  deps := ⟨true, some {}, some ⟨⟨true, true, true⟩, {}⟩, true⟩
  options := {}
  idGenerator := true
  json := .readerOf (quantityText digits) (.object (quantityMembers number))

theorem quantityKept_two :
    (quantityHandler (ascii "2") (.unsigned 2)).QuantityKept
      (HttpRequest.new.setBody (quantityText (ascii "2"))) (.new false) (.unsigned 2) := by
  have hparse : (quantityHandler (ascii "2") (.unsigned 2)).json.parse (quantityText (ascii "2")) =
      some (.object (quantityMembers (.unsigned 2))) := by
    simp only [quantityHandler, JsonLibrary.readerOf, if_true]
  have hmember : (quantityMembers (.unsigned 2)).lookup (ascii "quantity") =
      some (.unsigned 2) := rfl
  have hnumber : (Json.unsigned 2).IsNumber := trivial
  refine (quantityKept_iff hparse hmember hnumber _).mpr ?_
  intro _
  exact Or.inl ⟨2, by decide, by decide, rfl⟩

/-- The body with this number is accepted, as an order of another quantity. -/
def AcceptedAs (digits : Bytes) (number : Json) (quantity : UInt32) : Prop :=
  ((quantityHandler digits number).checkRequest
    (HttpRequest.new.setBody (quantityText digits)) (.new false)).toOption.map (·.quantity) =
      some quantity ∧
  number.numberValue ≠ some (quantity.toNat : ℚ)

instance (digits : Bytes) (number : Json) (quantity : UInt32) :
    Decidable (AcceptedAs digits number quantity) :=
  inferInstanceAs (Decidable (_ ∧ _))

/-- `2^32 + 1`, 1.5 and -1 are accepted, as 1, 1 and `2^32 - 1`. -/
theorem quantity_not_kept :
    AcceptedAs (ascii "4294967297") (.unsigned 4294967297) 1 ∧
    AcceptedAs (ascii "1.5") (.float 1.5) 1 ∧
    AcceptedAs (ascii "-1") (.integer (-1)) 4294967295 := by
  decide +kernel

end OrderCreateHandler

end MuduoPlus
