import Mathlib.Data.List.Basic

namespace MuduoPlus

variable {α : Type}

/-- The cells `i ≤ k < j` of a block. -/
def window (mem : List α) (i j : Nat) : List α :=
  (mem.drop i).take (j - i)

/-- Store `data` into the cells from `i` on. -/
def overwrite (mem : List α) (i : Nat) (data : List α) : List α :=
  mem.take i ++ data ++ mem.drop (i + data.length)

/-- Copy `n` cells one at a time, lowest first, inside one block. -/
def copyWithin (mem : List α) (src dst : Nat) : Nat → List α
  | 0 => mem
  | n + 1 =>
    match mem[src]? with
    | some x => copyWithin (mem.set dst x) (src + 1) (dst + 1) n
    | none => mem

/-- Change the length of a block, filling new cells with `x`. -/
def resize (mem : List α) (n : Nat) (x : α) : List α :=
  mem.take n ++ List.replicate (n - mem.length) x

theorem window_self (mem : List α) (i : Nat) : window mem i i = [] := by
  simp [window]

theorem length_window {mem : List α} {i j : Nat} (hj : j ≤ mem.length) :
    (window mem i j).length = j - i := by
  simp only [window, List.length_take, List.length_drop]
  omega

theorem window_drop {mem : List α} {i j n : Nat} :
    window mem (i + n) j = (window mem i j).drop n := by
  simp only [window, List.drop_take, List.drop_drop]
  congr 1
  omega

theorem getElem?_window {mem : List α} {i j k : Nat} :
    (window mem i j)[k]? = if k < j - i then mem[i + k]? else none := by
  simp only [window, List.getElem?_take, List.getElem?_drop]

theorem length_overwrite {mem data : List α} {i : Nat} (h : i + data.length ≤ mem.length) :
    (overwrite mem i data).length = mem.length := by
  simp only [overwrite, List.length_append, List.length_take, List.length_drop]
  omega

theorem window_overwrite {mem data : List α} {i j : Nat} (hij : i ≤ j)
    (h : j + data.length ≤ mem.length) :
    window (overwrite mem j data) i (j + data.length) = window mem i j ++ data := by
  have hpre : (mem.take j).length = j := by rw [List.length_take]; omega
  have hdrop : (overwrite mem j data).drop i =
      (mem.take j).drop i ++ (data ++ mem.drop (j + data.length)) := by
    rw [overwrite, List.append_assoc, List.drop_append_of_le_length (by omega)]
  have hlen : ((mem.take j).drop i).length = j - i := by rw [List.length_drop, hpre]
  rw [window, hdrop, List.take_append, hlen, List.take_of_length_le (by omega), List.take_append,
    show j + data.length - i - (j - i) = data.length by omega, List.take_length, Nat.sub_self,
    List.take_zero, List.append_nil, window, List.drop_take]

theorem length_resize {mem : List α} {n : Nat} {x : α} (h : mem.length ≤ n) :
    (resize mem n x).length = n := by
  simp only [resize, List.length_append, List.length_take, List.length_replicate]
  omega

theorem window_resize {mem : List α} {n i j : Nat} {x : α} (hn : mem.length ≤ n)
    (hj : j ≤ mem.length) : window (resize mem n x) i j = window mem i j := by
  apply List.ext_getElem?
  intro k
  rw [getElem?_window, getElem?_window, resize, List.take_of_length_le hn]
  split
  next hk => rw [List.getElem?_append_left (by omega)]
  next => rfl

theorem length_copyWithin (n : Nat) {mem : List α} {src dst : Nat} :
    (copyWithin mem src dst n).length = mem.length := by
  induction n generalizing mem src dst with
  | zero => rfl
  | succ n ih =>
    unfold copyWithin
    split
    next x hx => rw [ih, List.length_set]
    next => rfl

/-- Copying towards lower cells never overwrites a cell that is still to be read. -/
theorem getElem?_copyWithin (n : Nat) {mem : List α} {src dst k : Nat} (hd : dst ≤ src)
    (hs : src + n ≤ mem.length) :
    (copyWithin mem src dst n)[k]? =
      if dst ≤ k ∧ k < dst + n then mem[src + (k - dst)]? else mem[k]? := by
  induction n generalizing mem src dst with
  | zero =>
    rw [if_neg (by omega)]
    rfl
  | succ n ih =>
    have hx : mem[src]? = some mem[src] := List.getElem?_eq_getElem (by omega)
    unfold copyWithin
    rw [hx]
    simp only
    rw [ih (by omega) (by rw [List.length_set]; omega)]
    by_cases hk : k = dst
    · subst hk
      rw [if_neg (by omega), if_pos (by omega), List.getElem?_set_self (by omega), Nat.sub_self,
        Nat.add_zero, hx]
    · by_cases hin : dst + 1 ≤ k ∧ k < dst + 1 + n
      · rw [if_pos hin, if_pos (by omega), List.getElem?_set_ne (by omega)]
        congr 1
        omega
      · rw [if_neg hin, if_neg (by omega), List.getElem?_set_ne (by omega)]

theorem window_copyWithin {mem : List α} {src dst n : Nat} (hd : dst ≤ src)
    (hs : src + n ≤ mem.length) :
    window (copyWithin mem src dst n) dst (dst + n) = window mem src (src + n) := by
  apply List.ext_getElem?
  intro k
  rw [getElem?_window, getElem?_window, getElem?_copyWithin n hd hs]
  by_cases hk : k < n
  · rw [if_pos (by omega), if_pos (by omega), if_pos (by omega)]
    congr 1
    omega
  · rw [if_neg (by omega), if_neg (by omega)]

end MuduoPlus
