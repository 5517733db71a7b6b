import Mathlib.Data.List.Infix
import Mathlib.Data.List.DropRight

namespace MuduoPlus

/-- What stands before and after the first `c`, if there is one. -/
def cutAt {α : Type} [DecidableEq α] (c : α) : List α → Option (List α × List α)
  | [] => none
  | x :: xs => if x = c then some ([], xs) else (cutAt c xs).map fun p => (x :: p.1, p.2)

/-- What stands before and after the first adjacent pair `a`, `b`, if there is one. -/
def cutPair {α : Type} [DecidableEq α] (a b : α) : List α → Option (List α × List α)
  | [] => none
  | [_] => none
  | x :: y :: rest =>
    if x = a ∧ y = b then some ([], rest)
    else (cutPair a b (y :: rest)).map fun p => (x :: p.1, p.2)

/-- What stands before and after the first occurrence of `pattern`, if there is one. -/
def cutText {α : Type} [DecidableEq α] (pattern : List α) : List α → Option (List α × List α)
  | [] => if pattern = [] then some ([], []) else none
  | x :: xs =>
    if pattern.isPrefixOf (x :: xs) then some ([], (x :: xs).drop pattern.length)
    else (cutText pattern xs).map fun p => (x :: p.1, p.2)

/-- What stands before and after the last occurrence of `pattern`, if there is one. -/
def cutLastText {α : Type} [DecidableEq α] (pattern xs : List α) : Option (List α × List α) :=
  (cutText pattern.reverse xs.reverse).map fun p => (p.2.reverse, p.1.reverse)

/-- The position of the first `c` at or behind `pos`, if there is one. -/
def findFrom {α : Type} [DecidableEq α] (c : α) (xs : List α) (pos : Nat) : Option Nat :=
  (cutAt c (xs.drop pos)).map fun p => pos + p.1.length

/-- The position of the first occurrence of `pattern`, if there is one. -/
def findText {α : Type} [DecidableEq α] (pattern xs : List α) : Option Nat :=
  (cutText pattern xs).map fun p => p.1.length

theorem cutAt_eq_some_iff {α : Type} [DecidableEq α] {c : α} {xs before after : List α} :
    cutAt c xs = some (before, after) ↔ xs = before ++ c :: after ∧ c ∉ before := by
  induction xs generalizing before with
  | nil => simp [cutAt]
  | cons x xs ih =>
    by_cases hx : x = c
    · subst hx
      cases before with
      | nil => simp [cutAt, eq_comm]
      | cons y ys =>
        simp only [cutAt, if_true, Option.some.injEq, Prod.mk.injEq, reduceCtorEq, false_and,
          List.cons_append, List.cons.injEq, List.mem_cons, not_or, false_iff, not_and]
        rintro ⟨rfl, -⟩ hn
        exact absurd rfl hn
    · cases before with
      | nil => simp [cutAt, hx]
      | cons y ys =>
        simp only [cutAt, hx, if_false, Option.map_eq_some_iff, Prod.exists, Prod.mk.injEq,
          List.cons.injEq, List.cons_append, List.mem_cons, not_or]
        constructor
        · rintro ⟨p, q, hpq, ⟨rfl, rfl⟩, rfl⟩
          obtain ⟨he, hn⟩ := ih.mp hpq
          exact ⟨⟨rfl, he⟩, fun hc => hx hc.symm, hn⟩
        · rintro ⟨⟨rfl, he⟩, -, hn⟩
          exact ⟨ys, after, ih.mpr ⟨he, hn⟩, ⟨rfl, rfl⟩, rfl⟩

theorem cutAt_eq_none_iff {α : Type} [DecidableEq α] {c : α} {xs : List α} :
    cutAt c xs = none ↔ c ∉ xs := by
  induction xs with
  | nil => simp [cutAt]
  | cons x xs ih =>
    by_cases hx : x = c
    · simp [cutAt, hx]
    · simp [cutAt, hx, ih, Ne.symm hx]

theorem cutAt_append {α : Type} [DecidableEq α] {c : α} {before after : List α}
    (hn : c ∉ before) : cutAt c (before ++ c :: after) = some (before, after) :=
  cutAt_eq_some_iff.mpr ⟨rfl, hn⟩

theorem cutAt_append_of_not_mem {α : Type} [DecidableEq α] {c : α} {xs : List α} (hn : c ∉ xs)
    (ys : List α) : cutAt c (xs ++ ys) = (cutAt c ys).map fun p => (xs ++ p.1, p.2) := by
  cases h : cutAt c ys with
  | none =>
    rw [cutAt_eq_none_iff] at h
    rw [Option.map_none, cutAt_eq_none_iff, List.mem_append, not_or]
    exact ⟨hn, h⟩
  | some p =>
    obtain ⟨rfl, hp⟩ := cutAt_eq_some_iff.mp h
    rw [Option.map_some, ← List.append_assoc, cutAt_append (by simp [hn, hp])]

theorem cutAt_length_lt {α : Type} [DecidableEq α] {c : α} {xs before after : List α}
    (h : cutAt c xs = some (before, after)) : after.length < xs.length := by
  rw [(cutAt_eq_some_iff.mp h).1, List.length_append, List.length_cons]
  omega

theorem cutPair_cons_cons {α : Type} [DecidableEq α] {a b x y : α} {rest : List α}
    (hn : ¬(x = a ∧ y = b)) :
    cutPair a b (x :: y :: rest) = (cutPair a b (y :: rest)).map fun p => (x :: p.1, p.2) := by
  simp [cutPair, hn]

theorem cutPair_eq_some {α : Type} [DecidableEq α] {a b : α} {xs before after : List α}
    (h : cutPair a b xs = some (before, after)) : xs = before ++ a :: b :: after := by
  induction xs using cutPair.induct a b generalizing before with
  | case1 => simp [cutPair] at h
  | case2 => simp [cutPair] at h
  | case3 x y rest hxy =>
    obtain ⟨rfl, rfl⟩ := hxy
    simp only [cutPair, and_self, if_true, Option.some.injEq, Prod.mk.injEq] at h
    obtain ⟨rfl, rfl⟩ := h
    rfl
  | case4 x y rest hxy ih =>
    rw [cutPair_cons_cons hxy] at h
    obtain ⟨⟨p, q⟩, hpq, he⟩ := Option.map_eq_some_iff.mp h
    obtain ⟨rfl, rfl⟩ := Prod.mk.inj he
    rw [ih hpq]
    rfl

/-- The first pair stays the first one when more input arrives behind it. -/
theorem cutPair_append {α : Type} [DecidableEq α] {a b : α} {xs before after : List α}
    (h : cutPair a b xs = some (before, after)) (more : List α) :
    cutPair a b (xs ++ more) = some (before, after ++ more) := by
  induction xs using cutPair.induct a b generalizing before with
  | case1 => simp [cutPair] at h
  | case2 => simp [cutPair] at h
  | case3 x y rest hxy =>
    simp only [cutPair, hxy, and_self, if_true, Option.some.injEq, Prod.mk.injEq] at h
    obtain ⟨rfl, rfl⟩ := h
    simp [cutPair, hxy]
  | case4 x y rest hxy ih =>
    rw [cutPair_cons_cons hxy] at h
    obtain ⟨⟨p, q⟩, hpq, he⟩ := Option.map_eq_some_iff.mp h
    obtain ⟨rfl, rfl⟩ := Prod.mk.inj he
    have hh := ih hpq
    rw [List.cons_append] at hh
    rw [List.cons_append, List.cons_append, cutPair_cons_cons hxy, hh]
    rfl

theorem pair_infix_cons_cons {α : Type} {a b x y : α} {rest : List α} :
    [a, b] <:+: x :: y :: rest ↔ (x = a ∧ y = b) ∨ [a, b] <:+: y :: rest := by
  rw [List.infix_cons_iff]
  constructor
  · rintro (hp | hi)
    · obtain ⟨t, ht⟩ := hp
      simp only [List.cons_append, List.nil_append, List.cons.injEq] at ht
      exact Or.inl ⟨ht.1.symm, ht.2.1.symm⟩
    · exact Or.inr hi
  · rintro (⟨rfl, rfl⟩ | hi)
    · exact Or.inl ⟨rest, rfl⟩
    · exact Or.inr hi

theorem cutPair_eq_none_iff {α : Type} [DecidableEq α] {a b : α} {xs : List α} :
    cutPair a b xs = none ↔ ¬[a, b] <:+: xs := by
  induction xs using cutPair.induct a b with
  | case1 => simp [cutPair]
  | case2 x =>
    simp only [cutPair, true_iff]
    intro hi
    have := hi.length_le
    simp at this
  | case3 x y rest hxy =>
    simp [cutPair, hxy, pair_infix_cons_cons]
  | case4 x y rest hxy ih =>
    rw [cutPair_cons_cons hxy, Option.map_eq_none_iff, ih, pair_infix_cons_cons]
    simp [hxy]

theorem cutPair_before {α : Type} [DecidableEq α] {a b : α} {xs before after : List α}
    (h : cutPair a b xs = some (before, after)) : ¬[a, b] <:+: before := by
  intro hi
  cases hb : cutPair a b before with
  | none => exact cutPair_eq_none_iff.mp hb hi
  | some p =>
    obtain ⟨u, v⟩ := p
    have hx := cutPair_eq_some h
    have hu := cutPair_append hb (a :: b :: after)
    rw [← hx, h] at hu
    obtain ⟨rfl, -⟩ := Prod.mk.inj (Option.some.inj hu)
    have hl := congrArg List.length (cutPair_eq_some hb)
    simp at hl

/-- With `a ≠ b` no pair can start inside a pair-free list and end in the separator behind it. -/
theorem cutPair_of_not_infix {α : Type} [DecidableEq α] {a b : α} (hab : a ≠ b)
    {before after : List α} (hn : ¬[a, b] <:+: before) :
    cutPair a b (before ++ a :: b :: after) = some (before, after) := by
  induction before with
  | nil => simp [cutPair]
  | cons x xs ih =>
    cases xs with
    | nil =>
      have hx : ¬(x = a ∧ a = b) := fun hh => hab hh.2
      rw [List.cons_append, List.nil_append, cutPair_cons_cons hx]
      simp [cutPair]
    | cons y ys =>
      rw [pair_infix_cons_cons, not_or] at hn
      have hh := ih hn.2
      rw [List.cons_append] at hh
      rw [List.cons_append, List.cons_append, cutPair_cons_cons hn.1, hh]
      rfl

theorem pair_not_infix_of_not_mem {α : Type} {a b : α} {xs : List α} (hn : a ∉ xs) :
    ¬[a, b] <:+: xs :=
  fun hi => hn (hi.subset (by simp))

theorem cutPair_length {α : Type} [DecidableEq α] {a b : α} {xs before after : List α}
    (h : cutPair a b xs = some (before, after)) :
    xs.length = before.length + 2 + after.length := by
  rw [cutPair_eq_some h, List.length_append, List.length_cons, List.length_cons]
  omega

section CutText

variable {α : Type} {pattern xs before after : List α} {x : α}

theorem map_cons_eq_some_iff {cut : Option (List α × List α)} {y : α} {ys : List α} :
    (cut.map fun p => (x :: p.1, p.2)) = some (y :: ys, after) ↔
      x = y ∧ cut = some (ys, after) := by
  simp only [Option.map_eq_some_iff, Prod.exists, Prod.mk.injEq, List.cons.injEq]
  constructor
  · rintro ⟨b, a, hc, ⟨rfl, rfl⟩, rfl⟩
    exact ⟨rfl, hc⟩
  · rintro ⟨rfl, hc⟩
    exact ⟨ys, after, hc, ⟨rfl, rfl⟩, rfl⟩

/-- A pattern in front that occurs later too lies within what stands before the end of that other
occurrence. -/
theorem pattern_infix_of_later {rest : List α} (hp : pattern ≠ []) (hb : before ≠ [])
    (he : pattern ++ rest = before ++ (pattern ++ after)) :
    pattern <:+: before ++ pattern.dropLast := by
  have hlast : before ++ (pattern ++ after) =
      (before ++ pattern.dropLast) ++ ([pattern.getLast hp] ++ after) := by
    conv_lhs => rw [← List.dropLast_append_getLast hp]
    simp only [List.append_assoc]
  have hwhole : before ++ pattern.dropLast <+: pattern ++ rest := by
    rw [he, hlast]
    exact List.prefix_append _ _
  have hlength : pattern.length ≤ (before ++ pattern.dropLast).length := by
    have hpos := List.length_pos_iff.mpr hb
    rw [List.length_append, List.length_dropLast]
    omega
  exact (List.prefix_of_prefix_length_le (List.prefix_append pattern rest) hwhole hlength).isInfix

theorem prefix_of_prefix_append_cons {c : α} {ys : List α} (h : pattern <+: xs ++ c :: ys)
    (hc : c ∉ pattern) : pattern <+: xs := by
  by_cases hle : pattern.length ≤ xs.length
  · exact List.prefix_of_prefix_length_le h (List.prefix_append xs _) hle
  · have hstart : xs ++ [c] <+: xs ++ c :: ys := ⟨ys, by simp⟩
    have hlong : (xs ++ [c]).length ≤ pattern.length := by
      rw [List.length_append, List.length_singleton]
      omega
    have hsub := (List.prefix_of_prefix_length_le hstart h hlong).subset
    exact absurd (hsub (by simp)) hc

variable [DecidableEq α]

theorem cutText_prefix (hp : pattern ≠ []) (rest : List α) :
    cutText pattern (pattern ++ rest) = some ([], rest) := by
  obtain ⟨y, ys, rfl⟩ := List.exists_cons_of_ne_nil hp
  have hstart : (y :: ys).isPrefixOf (y :: (ys ++ rest)) = true :=
    List.isPrefixOf_iff_prefix.mpr (List.prefix_append (y :: ys) rest)
  rw [List.cons_append, cutText, if_pos hstart]
  simp

theorem cutText_cons (h : ¬pattern <+: x :: xs) :
    cutText pattern (x :: xs) = (cutText pattern xs).map fun p => (x :: p.1, p.2) := by
  rw [cutText, if_neg]
  rwa [List.isPrefixOf_iff_prefix]

/-- The first occurrence: the pattern does not occur any earlier. -/
theorem cutText_eq_some_iff (hp : pattern ≠ []) :
    cutText pattern xs = some (before, after) ↔
      xs = before ++ (pattern ++ after) ∧ ¬pattern <:+: before ++ pattern.dropLast := by
  induction xs generalizing before with
  | nil => simp [cutText, hp]
  | cons x xs ih =>
    by_cases hstart : pattern <+: x :: xs
    · obtain ⟨rest, hrest⟩ := hstart
      rw [← hrest, cutText_prefix hp]
      cases before with
      | nil =>
        have hshort : ¬pattern <:+: pattern.dropLast := by
          intro hi
          have hle := hi.length_le
          have hpos := List.length_pos_iff.mpr hp
          rw [List.length_dropLast] at hle
          omega
        simp [hshort]
      | cons y ys =>
        simp only [Option.some.injEq, Prod.mk.injEq, List.nil_eq, reduceCtorEq, false_and,
          false_iff, not_and, not_not]
        intro he
        exact pattern_infix_of_later hp (List.cons_ne_nil y ys) he
    · rw [cutText_cons hstart]
      cases before with
      | nil =>
        simp only [Option.map_eq_some_iff, Prod.mk.injEq, reduceCtorEq, false_and, and_false,
          exists_false, List.nil_append, false_iff, not_and]
        intro he
        exact absurd ⟨after, he.symm⟩ hstart
      | cons y ys =>
        rw [map_cons_eq_some_iff, ih, List.cons_append, List.cons_append, List.cons.injEq, List.infix_cons_iff]
        constructor
        · rintro ⟨rfl, rfl, hn⟩
          refine ⟨⟨rfl, rfl⟩, ?_⟩
          rintro (hpre | hi)
          · apply hstart
            refine hpre.trans ?_
            refine ⟨[pattern.getLast hp] ++ after, ?_⟩
            conv_rhs => rw [← List.dropLast_append_getLast hp]
            simp only [List.append_assoc, List.cons_append]
          · exact hn hi
        · rintro ⟨⟨rfl, rfl⟩, hn⟩
          exact ⟨rfl, rfl, fun hi => hn (Or.inr hi)⟩

theorem cutText_eq_none_iff (hp : pattern ≠ []) :
    cutText pattern xs = none ↔ ¬pattern <:+: xs := by
  induction xs with
  | nil => simp [cutText, hp]
  | cons x xs ih =>
    by_cases hstart : pattern <+: x :: xs
    · obtain ⟨rest, hrest⟩ := hstart
      rw [← hrest, cutText_prefix hp]
      simp [(List.prefix_append pattern rest).isInfix]
    · rw [cutText_cons hstart, Option.map_eq_none_iff, ih, List.infix_cons_iff]
      simp [hstart]

/-- The first occurrence stays the first one when more text follows. -/
theorem cutText_append (hp : pattern ≠ []) (h : cutText pattern xs = some (before, after))
    (more : List α) : cutText pattern (xs ++ more) = some (before, after ++ more) := by
  obtain ⟨rfl, hfirst⟩ := (cutText_eq_some_iff hp).mp h
  refine (cutText_eq_some_iff hp).mpr ⟨?_, hfirst⟩
  simp only [List.append_assoc]

/-- A text without the pattern is passed over, up to a byte that the pattern does not have. -/
theorem cutText_append_cons {c : α} (hp : pattern ≠ []) (hc : c ∉ pattern) (h : ¬pattern <:+: xs)
    (ys : List α) :
    cutText pattern (xs ++ c :: ys) = (cutText pattern ys).map fun p => (xs ++ c :: p.1, p.2) := by
  induction xs with
  | nil =>
    have hstart : ¬pattern <+: c :: ys := by
      intro hpre
      have hnil : pattern <+: [] := prefix_of_prefix_append_cons hpre hc
      exact hp (List.prefix_nil.mp hnil)
    rw [List.nil_append, cutText_cons hstart]
    rfl
  | cons x xs ih =>
    rw [List.infix_cons_iff, not_or] at h
    have hstart : ¬pattern <+: x :: (xs ++ c :: ys) := by
      intro hpre
      have hfront : pattern <+: x :: xs := prefix_of_prefix_append_cons hpre hc
      exact h.1 hfront
    rw [List.cons_append, cutText_cons hstart, ih h.2, Option.map_map]
    rfl

/-- Whatever stands behind another occurrence stands behind the first one too. -/
theorem cutText_first (hp : pattern ≠ []) (h : cutText pattern xs = some (before, after))
    {before' after' : List α} (he : xs = before' ++ (pattern ++ after')) : after' <:+ after := by
  obtain ⟨hxs, hfirst⟩ := (cutText_eq_some_iff hp).mp h
  have hsuffix : ∀ {u v : List α}, xs = u ++ (pattern ++ v) → v <:+ xs := by
    intro u v hu
    rw [hu]
    exact (List.suffix_append pattern v).trans (List.suffix_append u _)
  by_cases hle : after'.length ≤ after.length
  · exact List.suffix_of_suffix_length_le (hsuffix he) (hsuffix hxs) hle
  · exfalso
    -- the other occurrence would end before the first one does
    apply hfirst
    have hwhole : before ++ pattern.dropLast <+: xs := by
      refine ⟨pattern.getLast hp :: after, ?_⟩
      rw [hxs, List.append_assoc, List.append_cons pattern.dropLast, List.dropLast_append_getLast]
    have hother : before' ++ pattern <+: xs := ⟨after', by rw [he, List.append_assoc]⟩
    have hlength : (before' ++ pattern).length ≤ (before ++ pattern.dropLast).length := by
      have h1 := congrArg List.length hxs
      have h2 := congrArg List.length he
      have hpos := List.length_pos_iff.mpr hp
      simp only [List.length_append, List.length_dropLast] at h1 h2 ⊢
      omega
    exact (List.suffix_append before' pattern).isInfix.trans
      (List.prefix_of_prefix_length_le hother hwhole hlength).isInfix

/-- A pattern with a `c` in it does not begin in a text without one. -/
theorem cutText_of_mark {c : α} {front back : List α} (hp : pattern = front ++ c :: back)
    (hfront : c ∉ front) (hback : back ≠ []) (hbefore : c ∉ before) (after : List α) :
    cutText pattern (before ++ (pattern ++ after)) = some (before, after) := by
  subst hp
  refine (cutText_eq_some_iff (by simp)).mpr ⟨rfl, ?_⟩
  rintro ⟨u, v, h⟩
  have h : (u ++ front) ++ c :: (back ++ v) = (before ++ front) ++ c :: back.dropLast := by
    rw [List.dropLast_append_of_ne_nil (List.cons_ne_nil _ _),
      List.dropLast_cons_of_ne_nil hback] at h
    simpa using h
  -- the `c` on the right is the first one, so on the left there cannot be more behind it
  have hfirst : c ∉ before ++ front := by simp [hbefore, hfront]
  have hle : (before ++ front).length ≤ (u ++ front).length := by
    by_contra hlt
    have hget := congrArg (·[(u ++ front).length]?) h
    simp only [List.getElem?_append_right (Nat.le_refl _), Nat.sub_self, List.getElem?_cons_zero]
      at hget
    rw [List.getElem?_append_left (by omega)] at hget
    exact hfirst (List.mem_of_getElem? hget.symm)
  have hlength := congrArg List.length h
  have hpos := List.length_pos_iff.mpr hback
  simp only [List.length_append, List.length_cons, List.length_dropLast] at hlength hle
  omega

/-- The last occurrence: the pattern does not occur any later. -/
theorem cutLastText_eq_some_iff (hp : pattern ≠ []) :
    cutLastText pattern xs = some (before, after) ↔
      xs = before ++ (pattern ++ after) ∧ ¬pattern <:+: pattern.tail ++ after := by
  have hp' : pattern.reverse ≠ [] := by simpa using hp
  have hcut : cutLastText pattern xs = some (before, after) ↔
      cutText pattern.reverse xs.reverse = some (after.reverse, before.reverse) := by
    simp only [cutLastText, Option.map_eq_some_iff, Prod.exists, Prod.mk.injEq,
      List.reverse_eq_iff]
    constructor
    · rintro ⟨u, v, h, rfl, rfl⟩
      exact h
    · intro h
      exact ⟨_, _, h, rfl, rfl⟩
  have htail : after.reverse ++ pattern.reverse.dropLast = (pattern.tail ++ after).reverse := by
    rw [List.reverse_append, List.dropLast_reverse]
  have hwhole : after.reverse ++ (pattern.reverse ++ before.reverse) =
      (before ++ (pattern ++ after)).reverse := by
    simp only [List.reverse_append, List.append_assoc]
  rw [hcut, cutText_eq_some_iff hp', htail, hwhole, List.reverse_inj, List.reverse_infix]

theorem cutLastText_eq_none_iff (hp : pattern ≠ []) :
    cutLastText pattern xs = none ↔ ¬pattern <:+: xs := by
  have hp' : pattern.reverse ≠ [] := by simpa using hp
  rw [cutLastText, Option.map_eq_none_iff, cutText_eq_none_iff hp', List.reverse_infix]

end CutText

end MuduoPlus
