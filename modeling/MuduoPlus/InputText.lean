import MuduoPlus.NumberText

namespace MuduoPlus

/-- What an `istringstream` has left, and whether its state is still good. -/
structure InputText where
  rest : Bytes
  good : Bool

namespace InputText

variable {d : UInt8} {str x rest : Bytes}

def ofBytes (s : Bytes) : InputText := ⟨s, true⟩

/-- `std::getline`: up to the next `d`, or to the end, which leaves the state no longer good.
From a state that is not good nothing is read and the string keeps its value. -/
def getline (d : UInt8) (str : Bytes) (s : InputText) : Bytes × InputText :=
  if s.good then
    match cutAt d s.rest with
    | some (before, after) => (before, ⟨after, true⟩)
    | none => (s.rest, ⟨[], false⟩)
  else (str, s)

/-- `while (std::getline(iss, line, d))`. Every round takes a byte, so `fuel` is the length. -/
def getlines (d : UInt8) : Nat → InputText → List Bytes
  | 0, _ => []
  | fuel + 1, s =>
    if s.good ∧ s.rest ≠ [] then (getline d [] s).1 :: getlines d fuel (getline d [] s).2 else []

/-- `iss >> value` into a `uint32_t`. From a state that is not good, and behind white space with
nothing after it, the value is kept; a text without digits makes it 0, a number too large the
largest value, and a minus is taken modulo `2^32`. -/
def readUInt32 (value : UInt32) (s : InputText) : UInt32 :=
  let (negative, digits) := splitSign (s.rest.dropWhile isSpace)
  let ds := digits.takeWhile isDigit
  if !s.good || s.rest.all isSpace then value
  else if 2 ^ 32 ≤ digitsValue ds then UInt32.ofNat (2 ^ 32 - 1)
  else if negative then UInt32.ofNat (2 ^ 32 - digitsValue ds)
  else UInt32.ofNat (digitsValue ds)

theorem getline_append (h : d ∉ x) :
    getline d str ⟨x ++ d :: rest, true⟩ = (x, ⟨rest, true⟩) := by
  simp only [getline, if_true, cutAt_append h]

theorem getline_last (h : d ∉ x) : getline d str ⟨x, true⟩ = (x, ⟨[], false⟩) := by
  simp only [getline, if_true, cutAt_eq_none_iff.mpr h]

/-- What `getline` reads has no delimiter in it. -/
theorem getline_not_mem (h : d ∉ str) (s : InputText) : d ∉ (getline d str s).1 := by
  unfold getline
  split
  next =>
    split
    next before after hcut => exact (cutAt_eq_some_iff.mp hcut).2
    next hcut => exact cutAt_eq_none_iff.mp hcut
  next => exact h

end InputText

/-- Texts in a row, with `d` between them. -/
def joinWith (d : UInt8) : List Bytes → Bytes
  | [] => []
  | [x] => x
  | x :: y :: xs => x ++ d :: joinWith d (y :: xs)

section Lines

open InputText

variable {d : UInt8} {xs : List Bytes}

theorem joinWith_ne_nil {x : Bytes} (hx : x ≠ []) : joinWith d (x :: xs) ≠ [] := by
  cases xs with
  | nil => exact hx
  | cons y ys =>
    intro h
    exact hx (List.append_eq_nil_iff.mp h).1

theorem length_le_joinWith (h : ∀ x ∈ xs, x ≠ []) : xs.length ≤ (joinWith d xs).length := by
  induction xs with
  | nil => exact Nat.zero_le _
  | cons x xs ih =>
    have hx : 0 < x.length := List.length_pos_iff.mpr (h x List.mem_cons_self)
    have hxs := ih fun y hy => h y (List.mem_cons_of_mem x hy)
    cases xs with
    | nil => exact hx
    | cons y ys =>
      simp only [joinWith, List.length_append, List.length_cons] at hxs ⊢
      omega

/-- The loop reads back the texts that were put in a row. -/
theorem getlines_joinWith {fuel : Nat} (hne : ∀ x ∈ xs, x ≠ []) (hd : ∀ x ∈ xs, d ∉ x)
    (hfuel : xs.length ≤ fuel) : getlines d fuel (ofBytes (joinWith d xs)) = xs := by
  induction xs generalizing fuel with
  | nil =>
    cases fuel with
    | zero => rfl
    | succ fuel => simp [getlines, ofBytes, joinWith]
  | cons x xs ih =>
    obtain ⟨fuel, rfl⟩ : ∃ n, fuel = n + 1 := ⟨fuel - 1, by rw [List.length_cons] at hfuel; omega⟩
    have hx := hd x List.mem_cons_self
    have hgood : (ofBytes (joinWith d (x :: xs))).good = true ∧
        (ofBytes (joinWith d (x :: xs))).rest ≠ [] :=
      ⟨rfl, joinWith_ne_nil (hne x List.mem_cons_self)⟩
    rw [getlines, if_pos hgood]
    cases xs with
    | nil =>
      rw [ofBytes, joinWith, getline_last hx]
      cases fuel with
      | zero => rfl
      | succ fuel => simp [getlines]
    | cons y ys =>
      rw [ofBytes, joinWith, getline_append hx]
      have hle : (y :: ys).length ≤ fuel := by
        rw [List.length_cons] at hfuel
        omega
      have hrest := ih (fun z hz => hne z (List.mem_cons_of_mem x hz))
        (fun z hz => hd z (List.mem_cons_of_mem x hz)) hle
      exact congrArg (x :: ·) hrest

/-- Every separator is in the joined text. -/
theorem length_le_count_joinWith (d : UInt8) (xs : List Bytes) :
    xs.length ≤ (joinWith d xs).count d + 1 := by
  induction xs with
  | nil => exact Nat.zero_le _
  | cons x xs ih =>
    cases xs with
    | nil =>
      rw [List.length_singleton]
      omega
    | cons y ys =>
      rw [joinWith, List.count_append, List.count_cons_self, List.length_cons]
      omega

theorem not_mem_joinWith {b : UInt8} (hb : b ≠ d) (h : ∀ x ∈ xs, b ∉ x) : b ∉ joinWith d xs := by
  induction xs with
  | nil => exact List.not_mem_nil
  | cons x xs ih =>
    have hxs := ih fun y hy => h y (List.mem_cons_of_mem x hy)
    have hx := h x List.mem_cons_self
    cases xs with
    | nil => exact hx
    | cons y ys =>
      rw [joinWith, List.mem_append, List.mem_cons]
      rintro (hm | rfl | hm)
      · exact hx hm
      · exact hb rfl
      · exact hxs hm

end Lines

end MuduoPlus
