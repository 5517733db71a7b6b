import Mathlib.Data.Finmap
import Mathlib.Data.Nat.Digits.Lemmas
import MuduoPlus.ListCut

namespace MuduoPlus

/-- A `std::string` or a range of `char`: bytes without an encoding. -/
abbrev Bytes := List UInt8

/-- A string literal of the source (all of them are ASCII). -/
def ascii (s : String) : Bytes :=
  s.toList.map fun c => UInt8.ofNat c.toNat

/-- `std::map<std::string, std::string>` and its unordered sibling, read by key. -/
abbrev Dict := Finmap fun _ : Bytes => Bytes

/-- `isspace` in the C locale. -/
def isSpace (b : UInt8) : Bool :=
  b == 32 || (9 ≤ b && b ≤ 13)

def isDigit (b : UInt8) : Bool :=
  48 ≤ b && b ≤ 57

/-- The exceptions of the `std::sto*` family. -/
inductive StdException where
  | invalidArgument
  | outOfRange
  deriving DecidableEq, Repr

def digitsValue (ds : Bytes) : Nat :=
  ds.foldl (fun n d => 10 * n + (d.toNat - 48)) 0

/-- `std::stoul`: blanks, an optional sign, then the longest run of digits. A
minus sign negates the result modulo `2^64`. -/
def stoul (s : Bytes) : Except StdException Nat :=
  let t := s.dropWhile isSpace
  let negative := t.head? == some 45
  let u := if t.head? == some 45 || t.head? == some 43 then t.tail else t
  let ds := u.takeWhile isDigit
  if ds = [] then .error .invalidArgument
  else if 2 ^ 64 ≤ digitsValue ds then .error .outOfRange
  else if negative then .ok ((2 ^ 64 - digitsValue ds) % 2 ^ 64)
  else .ok (digitsValue ds)

/-- `std::to_string` of an unsigned integer. -/
def decimal (n : Nat) : Bytes :=
  if n = 0 then [48] else (Nat.digits 10 n).reverse.map fun d => UInt8.ofNat (48 + d)

theorem not_isSpace_of_isDigit {b : UInt8} (h : isDigit b = true) : isSpace b = false := by
  simp only [isDigit, Bool.and_eq_true, decide_eq_true_eq] at h
  have h1 : 48 ≤ b.toNat := UInt8.le_iff_toNat_le.mp h.1
  have h2 : b ≠ 32 := by rintro rfl; simp at h1
  have h3 : ¬b ≤ 13 := by
    intro hb
    have := UInt8.le_iff_toNat_le.mp hb
    simp at this
    omega
  simp [isSpace, h2, h3]

/-- On an all-digit text `stoul` is the decimal value, as long as it fits. -/
theorem stoul_digits {ds : Bytes} (hne : ds ≠ []) (hd : ∀ d ∈ ds, isDigit d = true)
    (hb : digitsValue ds < 2 ^ 64) : stoul ds = .ok (digitsValue ds) := by
  cases ds with
  | nil => exact absurd rfl hne
  | cons d ds =>
    have hdig := hd d (by simp)
    have hsp := not_isSpace_of_isDigit hdig
    have hdrop : (d :: ds).dropWhile isSpace = d :: ds := by simp [hsp]
    have htake : (d :: ds).takeWhile isDigit = d :: ds :=
      List.takeWhile_eq_self_iff.mpr hd
    have hminus : (d == 45) = false := by
      cases h : d == 45 with
      | false => rfl
      | true => rw [beq_iff_eq.mp h] at hdig; exact absurd hdig (by decide)
    have hplus : (d == 43) = false := by
      cases h : d == 43 with
      | false => rfl
      | true => rw [beq_iff_eq.mp h] at hdig; exact absurd hdig (by decide)
    simp only [stoul, hdrop, List.head?_cons, Option.some_beq_some, hminus, hplus, Bool.or_false,
      Bool.false_eq_true, if_false, htake]
    rw [if_neg (List.cons_ne_nil d ds), if_neg (by omega)]

theorem decimal_ne_nil (n : Nat) : decimal n ≠ [] := by
  unfold decimal
  split
  next => simp
  next hn => simp [Nat.digits_ne_nil_iff_ne_zero.mpr hn]

theorem toNat_digitByte {d : Nat} (h : d < 10) : (UInt8.ofNat (48 + d)).toNat = 48 + d := by
  rw [UInt8.toNat_ofNat']
  omega

theorem isDigit_decimal {n : Nat} : ∀ d ∈ decimal n, isDigit d = true := by
  intro d hd
  unfold decimal at hd
  split at hd
  next => simp only [List.mem_singleton] at hd; subst hd; decide
  next =>
    obtain ⟨k, hk, rfl⟩ := List.mem_map.mp hd
    have hlt := Nat.digits_lt_base (by omega) (List.mem_reverse.mp hk)
    have ht := toNat_digitByte hlt
    simp only [isDigit, Bool.and_eq_true, decide_eq_true_eq, UInt8.le_iff_toNat_le, ht]
    constructor
    · exact Nat.le_add_right 48 k
    · change 48 + k ≤ 57
      omega

theorem not_mem_decimal {b : UInt8} (hb : isDigit b = false) (n : Nat) : b ∉ decimal n := by
  intro hm
  have hd := isDigit_decimal b hm
  rw [hb] at hd
  cases hd

theorem length_decimal_le {n k : Nat} (hk : 0 < k) (h : n < 10 ^ k) : (decimal n).length ≤ k := by
  unfold decimal
  split
  next => exact hk
  next =>
    rw [List.length_map, List.length_reverse]
    exact (Nat.digits_length_le_iff (by omega) n).mpr h

theorem digitsValue_append (xs : Bytes) (d : UInt8) :
    digitsValue (xs ++ [d]) = 10 * digitsValue xs + (d.toNat - 48) := by
  simp [digitsValue]

theorem digitsValue_digits {ks : List Nat} (h : ∀ k ∈ ks, k < 10) :
    digitsValue (ks.reverse.map fun d => UInt8.ofNat (48 + d)) = Nat.ofDigits 10 ks := by
  induction ks with
  | nil => rfl
  | cons k ks ih =>
    have hk := toNat_digitByte (h k (by simp))
    rw [List.reverse_cons, List.map_append, List.map_singleton, digitsValue_append,
      ih (fun j hj => h j (by simp [hj])), hk, Nat.ofDigits_cons]
    omega

theorem digitsValue_decimal (n : Nat) : digitsValue (decimal n) = n := by
  unfold decimal
  split
  next hn => rw [hn]; rfl
  next =>
    rw [digitsValue_digits fun k hk => Nat.digits_lt_base (by omega) hk, Nat.ofDigits_digits]

theorem stoul_decimal {n : Nat} (h : n < 2 ^ 64) : stoul (decimal n) = .ok n := by
  have hv := digitsValue_decimal n
  rw [stoul_digits (decimal_ne_nil n) isDigit_decimal (by rw [hv]; exact h), hv]

end MuduoPlus
