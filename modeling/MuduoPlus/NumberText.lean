import Mathlib.Data.Nat.Log
import MuduoPlus.ByteText

namespace MuduoPlus

/-- A leading `-` or `+` and what follows. -/
def splitSign (s : Bytes) : Bool × Bytes :=
  if s.head? = some 45 then (true, s.tail)
  else if s.head? = some 43 then (false, s.tail)
  else (false, s)

/-- The conversion behind `std::stoi` and `std::stoll`, for results of `bits` bits and a sign. -/
def stoSigned (bits : Nat) (s : Bytes) : Except StdException Int :=
  let (negative, digits) := splitSign (s.dropWhile isSpace)
  let ds := digits.takeWhile isDigit
  let value : Int := if negative then -(digitsValue ds : Int) else digitsValue ds
  if ds = [] then .error .invalidArgument
  else if value < -2 ^ bits ∨ 2 ^ bits ≤ value then .error .outOfRange
  else .ok value

def stoi (s : Bytes) : Except StdException Int := stoSigned 31 s

def stoll (s : Bytes) : Except StdException Int := stoSigned 63 s

/-- `std::to_string` of a signed integer. -/
def decimalInt (i : Int) : Bytes :=
  if i < 0 then 45 :: decimal i.natAbs else decimal i.natAbs

section Integers

variable {bits n : Nat} {i : Int}

theorem dropWhile_isSpace_decimal (n : Nat) (rest : Bytes) :
    (decimal n ++ rest).dropWhile isSpace = decimal n ++ rest := by
  cases hd : decimal n with
  | nil => exact absurd hd (decimal_ne_nil n)
  | cons d ds =>
    have hdig : isDigit d = true := isDigit_decimal d (by rw [hd]; exact List.mem_cons_self)
    simp [not_isSpace_of_isDigit hdig]

theorem splitSign_decimal (n : Nat) (rest : Bytes) :
    splitSign (decimal n ++ rest) = (false, decimal n ++ rest) := by
  cases hd : decimal n with
  | nil => exact absurd hd (decimal_ne_nil n)
  | cons d ds =>
    have hdig : isDigit d = true := isDigit_decimal d (by rw [hd]; exact List.mem_cons_self)
    have hminus : d ≠ 45 := by
      rintro rfl
      exact absurd hdig (by decide)
    have hplus : d ≠ 43 := by
      rintro rfl
      exact absurd hdig (by decide)
    simp [splitSign, hminus, hplus]

theorem splitSign_minus (s : Bytes) : splitSign (45 :: s) = (true, s) := rfl

theorem takeWhile_isDigit_decimal (n : Nat) : (decimal n).takeWhile isDigit = decimal n :=
  List.takeWhile_eq_self_iff.mpr isDigit_decimal

/-- Every integer in range is read back from its text. -/
theorem stoSigned_decimalInt (hlo : -2 ^ bits ≤ i) (hhi : i < 2 ^ bits) :
    stoSigned bits (decimalInt i) = .ok i := by
  have hdrop := dropWhile_isSpace_decimal i.natAbs []
  have hsplit := splitSign_decimal i.natAbs []
  rw [List.append_nil] at hdrop hsplit
  have hrange : ¬(i < -2 ^ bits ∨ 2 ^ bits ≤ i) := by omega
  unfold decimalInt
  split
  next hneg =>
    have hspace : (45 :: decimal i.natAbs).dropWhile isSpace = 45 :: decimal i.natAbs := by
      simp [isSpace]
    have hvalue : -(i.natAbs : Int) = i := by omega
    simp only [stoSigned, hspace, splitSign_minus, takeWhile_isDigit_decimal, digitsValue_decimal,
      if_true, decimal_ne_nil, if_false, hvalue, hrange]
  next hpos =>
    have hvalue : (i.natAbs : Int) = i := by omega
    simp only [stoSigned, hdrop, hsplit, takeWhile_isDigit_decimal, digitsValue_decimal,
      Bool.false_eq_true, decimal_ne_nil, if_false, hvalue, hrange]

theorem decimalInt_natCast (n : Nat) : decimalInt (n : Int) = decimal n := by
  rw [decimalInt, if_neg (by omega), Int.natAbs_natCast]

/-- An unsigned number is read back if it is in range, and refused if it is not. -/
theorem stoSigned_decimal (bits n : Nat) :
    stoSigned bits (decimal n) = if n < 2 ^ bits then .ok (n : Int) else .error .outOfRange := by
  have hcast : ((2 ^ bits : Nat) : Int) = 2 ^ bits := by norm_cast
  split
  next h =>
    rw [← decimalInt_natCast]
    exact stoSigned_decimalInt (by omega) (by omega)
  next h =>
    have hdrop := dropWhile_isSpace_decimal n []
    have hsign := splitSign_decimal n []
    rw [List.append_nil] at hdrop hsign
    have hlarge : (n : Int) < -2 ^ bits ∨ (2 : Int) ^ bits ≤ n := by omega
    simp only [stoSigned, hdrop, hsign, takeWhile_isDigit_decimal, digitsValue_decimal,
      Bool.false_eq_true, decimal_ne_nil, if_false, hlarge, if_true]

end Integers

/-- `a / b` rounded to the nearest integer, ties to even. -/
def roundHalfEven (a b : Nat) : Nat :=
  if 2 * (a % b) < b then a / b
  else if b < 2 * (a % b) then a / b + 1
  else a / b + a / b % 2

/-- `m * 2 ^ e` as a fraction. -/
def ratio (m : Nat) (e : Int) : Nat × Nat := (m * 2 ^ e.toNat, 2 ^ (-e).toNat)

/-- The number of hundredths in `m * 2 ^ e`, rounded. -/
def hundredths (m : Nat) (e : Int) : Nat := roundHalfEven (100 * (ratio m e).1) (ratio m e).2

def isNegative : Float.Model.UnpackedFloat.Sign → Bool
  | .negative => true
  | .positive => false

def minusText (sign : Float.Model.UnpackedFloat.Sign) : Bytes := if isNegative sign then [45] else []

def digitByte (d : Nat) : UInt8 := UInt8.ofNat (48 + d % 10)

/-- `n` hundredths with two decimals. -/
def hundredthsText (n : Nat) : Bytes :=
  decimal (n / 100) ++ [46, digitByte (n / 10), digitByte n]

/-- `std::fixed << std::setprecision(2)`. -/
def fixedTwo (x : Float) : Bytes :=
  match x.toModel.unpack with
  | .notANumber => ascii "nan"
  | .infinity sign => minusText sign ++ ascii "inf"
  | .zero sign => minusText sign ++ hundredthsText 0
  | .finite sign m e _ => minusText sign ++ hundredthsText (hundredths m e)

/-- The greatest `k` with `10 ^ k ≤ num / den`. -/
def decimalExponent (num den : Nat) : Int :=
  if den ≤ num then Nat.log 10 (num / den) else -(Nat.clog 10 ((den + num - 1) / num) : Int)

/-- Six significant digits as an integer, and the decimal exponent of the first one. -/
def sixDigits (num den : Nat) : Nat × Int :=
  let e := decimalExponent num den
  let d := roundHalfEven (num * 10 ^ (5 - e).toNat) (den * 10 ^ (e - 5).toNat)
  if d = 10 ^ 6 then (10 ^ 5, e + 1) else (d, e)

/-- The last `k` decimal digits of `n`, without zeros at the end. -/
def fractionDigits (k n : Nat) : Bytes :=
  (((List.range k).map fun i => digitByte (n / 10 ^ i)).dropWhile (· = 48)).reverse

def fractionText (k n : Nat) : Bytes :=
  if fractionDigits k n = [] then [] else 46 :: fractionDigits k n

/-- `%g` of a positive number with the six digits `d` and the exponent `e`. -/
def generalText (d : Nat) (e : Int) : Bytes :=
  if -4 ≤ e ∧ e < 6 then
    decimal (d / 10 ^ (5 - e).toNat) ++ fractionText (5 - e).toNat d
  else
    decimal (d / 10 ^ 5) ++ fractionText 5 d ++ (if e < 0 then [101, 45] else [101, 43]) ++
      (if e.natAbs < 10 then [48] else []) ++ decimal e.natAbs

/-- What `<<` writes of a `double` by default: six significant digits. -/
def generalSix (x : Float) : Bytes :=
  match x.toModel.unpack with
  | .notANumber => ascii "nan"
  | .infinity sign => minusText sign ++ ascii "inf"
  | .zero sign => minusText sign ++ [48]
  | .finite sign m e _ =>
    let (d, k) := sixDigits (ratio m e).1 (ratio m e).2
    minusText sign ++ generalText d k

/-- Digits, a decimal point, digits, an exponent: the integer `n` and the power `k` with
value `n * 10 ^ k`. -/
def readDecimal (s : Bytes) : Option (Nat × Int) :=
  let whole := s.takeWhile isDigit
  let rest := s.dropWhile isDigit
  let fraction := if rest.head? = some 46 then rest.tail.takeWhile isDigit else []
  let tail := if rest.head? = some 46 then rest.tail.dropWhile isDigit else rest
  let (negative, digits) := splitSign tail.tail
  let ds := digits.takeWhile isDigit
  let exponent : Int :=
    if (tail.head? = some 101 ∨ tail.head? = some 69) ∧ ds ≠ [] then
      if negative then -(digitsValue ds : Int) else digitsValue ds
    else 0
  if whole = [] ∧ fraction = [] then none
  else some (digitsValue (whole ++ fraction), exponent - fraction.length)

def hexDigit (b : UInt8) : Option Nat :=
  if isDigit b then some (b.toNat - 48)
  else if 97 ≤ b ∧ b ≤ 102 then some (b.toNat - 87)
  else if 65 ≤ b ∧ b ≤ 70 then some (b.toNat - 55)
  else none

def hexValue (ds : Bytes) : Nat :=
  ds.foldl (fun n d => 16 * n + (hexDigit d).getD 0) 0

/-- Hexadecimal digits, a point, digits, a binary exponent: value `n * 2 ^ k`. -/
def readHex (s : Bytes) : Option (Nat × Int) :=
  let isHex := fun b => (hexDigit b).isSome
  let whole := s.takeWhile isHex
  let rest := s.dropWhile isHex
  let fraction := if rest.head? = some 46 then rest.tail.takeWhile isHex else []
  let tail := if rest.head? = some 46 then rest.tail.dropWhile isHex else rest
  let (negative, digits) := splitSign tail.tail
  let ds := digits.takeWhile isDigit
  let exponent : Int :=
    if (tail.head? = some 112 ∨ tail.head? = some 80) ∧ ds ≠ [] then
      if negative then -(digitsValue ds : Int) else digitsValue ds
    else 0
  if whole = [] ∧ fraction = [] then none
  else some (hexValue (whole ++ fraction), exponent - 4 * fraction.length)

/-- `ERANGE`: the fraction rounds beyond the largest `double`, or loses bits and, rounded to 53 of
them, is below the smallest normal one. -/
def outOfDoubleRange (num den : Nat) : Prop :=
  (2 ^ 54 - 1) * 2 ^ 970 * den ≤ num ∨
    num ≠ 0 ∧ num * 2 ^ 1076 < (2 ^ 54 - 1) * den ∧ num * 2 ^ 1074 % den ≠ 0

instance (num den : Nat) : Decidable (outOfDoubleRange num den) := by
  unfold outOfDoubleRange
  infer_instance

def signed (negative : Bool) (x : Float) : Float := if negative then -x else x

def lowerCase (b : UInt8) : UInt8 := if 65 ≤ b ∧ b ≤ 90 then b + 32 else b

/-- `std::stod`, in the C locale. -/
def stod (s : Bytes) : Except StdException Float :=
  let (negative, u) := splitSign (s.dropWhile isSpace)
  let word := (u.take 3).map lowerCase
  if word = ascii "inf" then .ok (signed negative ⟨.pack (.infinity .positive)⟩)
  else if word = ascii "nan" then .ok ⟨.pack .notANumber⟩
  else
    match if word.take 2 = ascii "0x" then readHex (u.drop 2) else none with
    | some (n, k) =>
      if outOfDoubleRange (n * 2 ^ k.toNat) (2 ^ (-k).toNat) then .error .outOfRange
      else .ok (signed negative ⟨.pack (.round .binary64 .positive n k)⟩)
    | none =>
      match readDecimal u with
      | none => .error .invalidArgument
      | some (n, k) =>
        if outOfDoubleRange (n * 10 ^ k.toNat) (10 ^ (-k).toNat) then .error .outOfRange
        else .ok (signed negative (Float.ofScientific n (decide (k < 0)) k.natAbs))

/-- The `double` nearest to `x` rounded to two decimals. -/
def roundTwo (x : Float) : Float :=
  match x.toModel.unpack with
  | .notANumber => ⟨.pack .notANumber⟩
  | .infinity sign => signed (isNegative sign) ⟨.pack (.infinity .positive)⟩
  | .zero sign => signed (isNegative sign) (Float.ofScientific 0 true 2)
  | .finite sign m e _ => signed (isNegative sign) (Float.ofScientific (hundredths m e) true 2)

section Fixed

open Float.Model Float.Model.UnpackedFloat in
/-- A finite `double` has 53 bits of mantissa, and its exponent is at most 971. -/
theorem unpack_bounds {x : Float} {sign : Sign} {m : Nat} {e : Int} {hm : 0 < m}
    (h : x.toModel.unpack = .finite sign m e hm) : m < 2 ^ 53 ∧ e ≤ 971 := by
  unfold Float.Model.unpack Float.Model.UnpackedFloat.unpack at h
  dsimp only at h
  have hmlt : (@unpackMantissa .binary64 x.toModel.toBits.toBitVec).toNat < 2 ^ 52 := BitVec.isLt _
  have hfull : (1#1 ++ @unpackMantissa .binary64 x.toModel.toBits.toBitVec).toNat < 2 ^ 53 :=
    BitVec.isLt _
  have hev : (@unpackExponent .binary64 x.toModel.toBits.toBitVec).toNat < 2048 := BitVec.isLt _
  have hbias : (Format.binary64.exponentBias : Int) = 1023 := rfl
  have hbits : (Format.binary64.mantissaBitsWithoutImplicit : Int) = 52 := rfl
  by_cases hexp : @unpackExponent .binary64 x.toModel.toBits.toBitVec = -1#11
  · rw [if_pos hexp] at h
    by_cases hmant : @unpackMantissa .binary64 x.toModel.toBits.toBitVec = 0#52
    · rw [if_pos hmant] at h
      cases h
    · rw [if_neg hmant] at h
      cases h
  · rw [if_neg hexp] at h
    have hne : (@unpackExponent .binary64 x.toModel.toBits.toBitVec).toNat ≠ 2047 :=
      fun he => hexp (BitVec.eq_of_toNat_eq he)
    by_cases hz : @unpackExponent .binary64 x.toModel.toBits.toBitVec = 0#11
    · have h0 : (@unpackExponent .binary64 x.toModel.toBits.toBitVec).toNat = 0 := by
        rw [hz]
        rfl
      rw [if_pos hz] at h
      by_cases hmant : @unpackMantissa .binary64 x.toModel.toBits.toBitVec = 0#52
      · rw [dif_pos hmant] at h
        cases h
      · rw [dif_neg hmant] at h
        cases h
        constructor
        · omega
        · omega
    · rw [if_neg hz] at h
      cases h
      constructor
      · exact hfull
      · omega

theorem roundHalfEven_le (a b : Nat) : roundHalfEven a b ≤ a / b + 1 := by
  unfold roundHalfEven
  have hmod : a / b % 2 < 2 := Nat.mod_lt _ (by decide)
  split
  · omega
  split
  · omega
  · omega

theorem hundredths_lt {m k : Nat} {e : Int} (hm : m < 2 ^ 53) (he : e ≤ k + 1) :
    hundredths m e < (2 ^ 54 - 1) * 2 ^ k * 100 := by
  have hround : hundredths m e ≤ 100 * (ratio m e).1 / (ratio m e).2 + 1 := roundHalfEven_le _ _
  have hdiv : 100 * (ratio m e).1 / (ratio m e).2 ≤ 100 * (ratio m e).1 := Nat.div_le_self _ _
  have hone : 0 < 2 ^ k := Nat.two_pow_pos k
  have hnum : (ratio m e).1 ≤ (2 ^ 53 - 1) * 2 ^ (k + 1) := by
    have hpow : 2 ^ e.toNat ≤ 2 ^ (k + 1) := Nat.pow_le_pow_right (by decide) (by omega)
    exact Nat.mul_le_mul (by omega) hpow
  rw [Nat.pow_succ] at hnum
  omega

theorem hundred_le_mul_two_pow {n k : Nat} (hn : n ≠ 0) (hk : 7 ≤ k) : 100 ≤ n * 2 ^ k := by
  have hpow : 2 ^ 7 ≤ 2 ^ k := Nat.pow_le_pow_right (by decide) hk
  have hmul : 1 * 2 ^ k ≤ n * 2 ^ k := Nat.mul_le_mul_right _ (by omega)
  omega

theorem not_outOfDoubleRange_hundredths {m : Nat} {e : Int} (hm : m < 2 ^ 53) (he : e ≤ 971) :
    ¬ outOfDoubleRange (hundredths m e) 100 := by
  rintro (hbig | ⟨hne, hsmall, _⟩)
  · exact absurd (hundredths_lt hm he) (Nat.not_lt.mpr hbig)
  · have hmin : 100 ≤ hundredths m e * 2 ^ 1022 := hundred_le_mul_two_pow hne (by decide)
    have hpow : hundredths m e * 2 ^ 1076 = hundredths m e * 2 ^ 1022 * 2 ^ 54 := by
      rw [Nat.mul_assoc, ← Nat.pow_add]
    rw [hpow] at hsmall
    generalize hundredths m e * 2 ^ 1022 = n at hmin hsmall
    omega

theorem isDigit_digitByte (d : Nat) : isDigit (digitByte d) = true := by
  have hlt : d % 10 < 10 := Nat.mod_lt _ (by decide)
  have ht := toNat_digitByte hlt
  simp only [isDigit, digitByte, Bool.and_eq_true, decide_eq_true_eq, UInt8.le_iff_toNat_le, ht]
  constructor
  · exact Nat.le_add_right 48 _
  · change 48 + d % 10 ≤ 57
    omega

theorem digitsValue_hundredths (n : Nat) :
    digitsValue (decimal (n / 100) ++ [digitByte (n / 10), digitByte n]) = n := by
  have hten : n / 10 % 10 < 10 := Nat.mod_lt _ (by decide)
  have hone : n % 10 < 10 := Nat.mod_lt _ (by decide)
  have happ : decimal (n / 100) ++ [digitByte (n / 10), digitByte n] =
      (decimal (n / 100) ++ [digitByte (n / 10)]) ++ [digitByte n] := by simp
  rw [happ, digitsValue_append, digitsValue_append, digitsValue_decimal, digitByte, digitByte,
    toNat_digitByte hten, toNat_digitByte hone]
  omega

theorem readDecimal_hundredthsText (n : Nat) : readDecimal (hundredthsText n) = some (n, -2) := by
  have hdot : isDigit 46 = false := by decide
  have hfirst := isDigit_digitByte (n / 10)
  have hsecond := isDigit_digitByte n
  have hwhole : (hundredthsText n).takeWhile isDigit = decimal (n / 100) := by
    rw [hundredthsText, List.takeWhile_append_of_pos isDigit_decimal]
    simp [hdot]
  have hrest : (hundredthsText n).dropWhile isDigit =
      [46, digitByte (n / 10), digitByte n] := by
    rw [hundredthsText, List.dropWhile_append_of_pos isDigit_decimal]
    simp [hdot]
  have hfrac : [digitByte (n / 10), digitByte n].takeWhile isDigit =
      [digitByte (n / 10), digitByte n] := by simp [hfirst, hsecond]
  have htail : [digitByte (n / 10), digitByte n].dropWhile isDigit = [] := by
    simp [hfirst, hsecond]
  simp only [readDecimal, hwhole, hrest, List.head?_cons, List.tail_cons, if_true, hfrac, htail,
    digitsValue_hundredths, decimal_ne_nil, false_and, if_false, List.head?_nil, reduceCtorEq,
    or_self]
  rfl

/-- The text is made of digits and a point. -/
theorem hundredthsText_le {n : Nat} : ∀ b ∈ hundredthsText n, b ≤ 57 := by
  have hdigit : ∀ {b : UInt8}, isDigit b = true → b ≤ 57 := by
    intro b hb
    simp only [isDigit, Bool.and_eq_true, decide_eq_true_eq] at hb
    exact hb.2
  intro b hb
  rcases List.mem_append.mp hb with hb | hb
  · exact hdigit (isDigit_decimal b hb)
  · simp only [List.mem_cons, List.not_mem_nil, or_false] at hb
    rcases hb with rfl | rfl | rfl
    · decide
    · exact hdigit (isDigit_digitByte _)
    · exact hdigit (isDigit_digitByte _)

theorem lowerCase_of_le {b : UInt8} (h : b ≤ 57) : lowerCase b = b := by
  have hlt : ¬65 ≤ b := by
    intro hb
    exact absurd (UInt8.le_trans hb h) (by decide)
  simp [lowerCase, hlt]

theorem word_hundredthsText (n : Nat) :
    ((hundredthsText n).take 3).map lowerCase = (hundredthsText n).take 3 := by
  calc ((hundredthsText n).take 3).map lowerCase = ((hundredthsText n).take 3).map id := by
        apply List.map_congr_left
        intro b hb
        exact lowerCase_of_le (hundredthsText_le b (List.mem_of_mem_take hb))
    _ = (hundredthsText n).take 3 := List.map_id _

/-- A word with a letter in it is no front part of such a text. -/
theorem take_hundredthsText_ne {n k : Nat} {word : Bytes} {b : UInt8} (hb : b ∈ word)
    (hlt : ¬b ≤ 57) : (hundredthsText n).take k ≠ word := by
  intro he
  rw [← he] at hb
  exact hlt (hundredthsText_le b (List.mem_of_mem_take hb))

theorem splitSign_minusText (sign : Float.Model.UnpackedFloat.Sign) (n : Nat) :
    splitSign ((minusText sign ++ hundredthsText n).dropWhile isSpace) =
      (isNegative sign, hundredthsText n) := by
  cases sign with
  | negative => simp [minusText, isNegative, isSpace, splitSign]
  | positive =>
    have hnil : minusText .positive = [] := rfl
    rw [hnil, List.nil_append, hundredthsText, dropWhile_isSpace_decimal, splitSign_decimal]
    rfl

theorem stod_hundredthsText {sign : Float.Model.UnpackedFloat.Sign} {n : Nat}
    (h : ¬ outOfDoubleRange n 100) :
    stod (minusText sign ++ hundredthsText n) =
      .ok (signed (isNegative sign) (Float.ofScientific n true 2)) := by
  have hinf : (hundredthsText n).take 3 ≠ ascii "inf" :=
    take_hundredthsText_ne (b := 105) (by decide) (by decide)
  have hnan : (hundredthsText n).take 3 ≠ ascii "nan" :=
    take_hundredthsText_ne (b := 110) (by decide) (by decide)
  have hhex : ((hundredthsText n).take 3).take 2 ≠ ascii "0x" := by
    rw [List.take_take]
    exact take_hundredthsText_ne (b := 120) (by decide) (by decide)
  have hpow : n * 10 ^ (-2 : Int).toNat = n := by simp
  have hden : 10 ^ (-(-2 : Int)).toNat = 100 := by decide
  simp only [stod, splitSign_minusText, word_hundredthsText, hinf, hnan, hhex, if_false,
    readDecimal_hundredthsText, hpow, hden, h]
  rfl

theorem stod_infText (sign : Float.Model.UnpackedFloat.Sign) :
    stod (minusText sign ++ ascii "inf") =
      .ok (signed (isNegative sign) ⟨.pack (.infinity .positive)⟩) := by
  cases sign with
  | negative => decide
  | positive => decide

/-- What `std::fixed << std::setprecision(2)` writes, `std::stod` reads as the number rounded
to two decimals. -/
theorem stod_fixedTwo (x : Float) : stod (fixedTwo x) = .ok (roundTwo x) := by
  unfold fixedTwo roundTwo
  cases hx : x.toModel.unpack with
  | notANumber => decide
  | infinity sign => exact stod_infText sign
  | zero sign => exact stod_hundredthsText (by decide +kernel)
  | finite sign m e hm =>
    obtain ⟨hlt, he⟩ := unpack_bounds hx
    exact stod_hundredthsText (not_outOfDoubleRange_hundredths hlt he)

end Fixed

section Bytes

/-- The bytes of the numbers written here lie between the minus sign and the `n` of `nan`. -/
def IsNumberByte (b : UInt8) : Prop := 45 ≤ b ∧ b ≤ 110

theorem isNumberByte_of_isDigit {b : UInt8} (h : isDigit b = true) : IsNumberByte b := by
  simp only [isDigit, Bool.and_eq_true, decide_eq_true_eq] at h
  exact ⟨UInt8.le_trans (by decide) h.1, UInt8.le_trans h.2 (by decide)⟩

theorem isNumberByte_decimal {n : Nat} : ∀ b ∈ decimal n, IsNumberByte b := by
  intro b hb
  exact isNumberByte_of_isDigit (isDigit_decimal b hb)

theorem isNumberByte_decimalInt {i : Int} : ∀ b ∈ decimalInt i, IsNumberByte b := by
  intro b hb
  unfold decimalInt at hb
  split at hb
  next =>
    rcases List.mem_cons.mp hb with rfl | hb
    · exact ⟨by decide, by decide⟩
    · exact isNumberByte_decimal b hb
  next => exact isNumberByte_decimal b hb

theorem isNumberByte_minusText {sign : Float.Model.UnpackedFloat.Sign} :
    ∀ b ∈ minusText sign, IsNumberByte b := by
  intro b hb
  unfold minusText at hb
  split at hb
  next =>
    rw [List.mem_singleton.mp hb]
    exact ⟨by decide, by decide⟩
  next => exact absurd hb List.not_mem_nil

theorem isNumberByte_hundredthsText {n : Nat} : ∀ b ∈ hundredthsText n, IsNumberByte b := by
  intro b hb
  rcases List.mem_append.mp hb with hb | hb
  · exact isNumberByte_decimal b hb
  · simp only [List.mem_cons, List.not_mem_nil, or_false] at hb
    rcases hb with rfl | rfl | rfl
    · exact ⟨by decide, by decide⟩
    · exact isNumberByte_of_isDigit (isDigit_digitByte _)
    · exact isNumberByte_of_isDigit (isDigit_digitByte _)

theorem isNumberByte_fixedTwo {x : Float} : ∀ b ∈ fixedTwo x, IsNumberByte b := by
  have hsigned : ∀ {sign text}, (∀ b ∈ text, IsNumberByte b) →
      ∀ b ∈ minusText sign ++ text, IsNumberByte b := by
    intro sign text htext b hb
    rcases List.mem_append.mp hb with hb | hb
    · exact isNumberByte_minusText b hb
    · exact htext b hb
  unfold fixedTwo
  split
  next => unfold IsNumberByte; decide +kernel
  next => exact hsigned (by unfold IsNumberByte; decide +kernel)
  next => exact hsigned isNumberByte_hundredthsText
  next => exact hsigned isNumberByte_hundredthsText

end Bytes

section General

/-- The bytes of the numbers that `<<` writes: digits, signs, a point, an exponent, and the
letters of `inf` and `nan`. -/
def IsGeneralByte (b : UInt8) : Prop := isDigit b = true ∨ b ∈ [43, 45, 46, 97, 101, 102, 105, 110]

instance (b : UInt8) : Decidable (IsGeneralByte b) := by
  unfold IsGeneralByte
  infer_instance

theorem isGeneralByte_of_all {s : Bytes} (h : s.all (fun b => decide (IsGeneralByte b)) = true) :
    ∀ b ∈ s, IsGeneralByte b := by
  intro b hb
  exact of_decide_eq_true (List.all_eq_true.mp h b hb)

theorem isGeneralByte_decimal {n : Nat} : ∀ b ∈ decimal n, IsGeneralByte b :=
  fun b hb => .inl (isDigit_decimal b hb)

theorem isGeneralByte_fractionText {k n : Nat} : ∀ b ∈ fractionText k n, IsGeneralByte b := by
  have hdigits : ∀ b ∈ fractionDigits k n, IsGeneralByte b := by
    intro b hb
    have hmem := (List.dropWhile_suffix _).subset (List.mem_reverse.mp hb)
    obtain ⟨i, _, rfl⟩ := List.mem_map.mp hmem
    exact .inl (isDigit_digitByte (n / 10 ^ i))
  unfold fractionText
  split
  · simp
  · rw [List.forall_mem_cons]
    exact ⟨by decide, hdigits⟩

theorem isGeneralByte_minusText {sign : Float.Model.UnpackedFloat.Sign} :
    ∀ b ∈ minusText sign, IsGeneralByte b := by
  cases sign with
  | negative => exact isGeneralByte_of_all (by decide)
  | positive => exact isGeneralByte_of_all (by decide)

theorem isGeneralByte_generalText {d : Nat} {e : Int} : ∀ b ∈ generalText d e, IsGeneralByte b := by
  have hdec := @isGeneralByte_decimal
  have hfrac := @isGeneralByte_fractionText
  have hsign : ∀ b ∈ if e < 0 then [101, 45] else [101, 43], IsGeneralByte b := by
    split
    · exact isGeneralByte_of_all (by decide)
    · exact isGeneralByte_of_all (by decide)
  have hzero : ∀ b ∈ if e.natAbs < 10 then [48] else [], IsGeneralByte b := by
    split
    · exact isGeneralByte_of_all (by decide)
    · exact isGeneralByte_of_all rfl
  unfold generalText
  split
  · rw [List.forall_mem_append]
    exact ⟨hdec, hfrac⟩
  · simp only [List.forall_mem_append]
    exact ⟨⟨⟨⟨hdec, hfrac⟩, hsign⟩, hzero⟩, hdec⟩

theorem isGeneralByte_generalSix {x : Float} : ∀ b ∈ generalSix x, IsGeneralByte b := by
  have hsign := @isGeneralByte_minusText
  unfold generalSix
  split
  · exact isGeneralByte_of_all (by decide)
  · rw [List.forall_mem_append]
    exact ⟨hsign, isGeneralByte_of_all (by decide)⟩
  · rw [List.forall_mem_append]
    exact ⟨hsign, isGeneralByte_of_all (by decide)⟩
  · rw [List.forall_mem_append]
    exact ⟨hsign, isGeneralByte_generalText⟩

/-- The text of a number never has a quote in it. -/
theorem quote_not_mem_generalSix (x : Float) : 39 ∉ generalSix x := by
  intro h
  exact absurd (isGeneralByte_generalSix 39 h) (by decide)

end General

end MuduoPlus
