import Mathlib.Data.List.Forall2
import Mathlib.Data.List.Nodup

namespace MuduoPlus

section Option

variable {α β γ : Type}

theorem mapM_eq_some_iff {f : α → Option β} {as : List α} {bs : List β} :
    as.mapM f = some bs ↔ List.Forall₂ (fun a b => f a = some b) as bs := by
  induction as generalizing bs with
  | nil => simp [eq_comm]
  | cons a as ih =>
    rw [List.mapM_cons]
    constructor
    · intro h
      obtain ⟨b, hb, h⟩ := Option.bind_eq_some_iff.mp h
      obtain ⟨bs', hbs, h⟩ := Option.bind_eq_some_iff.mp h
      cases Option.some.inj h
      exact .cons hb (ih.mp hbs)
    · rintro (_ | ⟨hb, hbs⟩)
      rw [hb, ih.mpr hbs]
      rfl

theorem mapM_map_congr {f : β → Option γ} {g : α → β} {h : α → Option γ} {as : List α}
    (hfg : ∀ a ∈ as, f (g a) = h a) : (as.map g).mapM f = as.mapM h := by
  induction as with
  | nil => rfl
  | cons a as ih =>
    rw [List.map_cons, List.mapM_cons, List.mapM_cons, hfg a List.mem_cons_self,
      ih fun a' ha' => hfg a' (List.mem_cons_of_mem a ha')]

/-- What was written one by one is read back. -/
theorem mapM_map_some {f : β → Option α} {g : α → β} {as : List α}
    (h : ∀ a ∈ as, f (g a) = some a) : (as.map g).mapM f = some as := by
  rw [mapM_eq_some_iff, List.forall₂_map_left_iff, List.forall₂_same]
  exact h

theorem exists_of_forall₂ {R : α → β → Prop} {as : List α} {bs : List β} {a : α}
    (h : List.Forall₂ R as bs) (ha : a ∈ as) : ∃ b ∈ bs, R a b := by
  induction h with
  | nil => cases ha
  | cons hb _ ih =>
    rcases List.mem_cons.mp ha with rfl | ha
    · exact ⟨_, List.mem_cons_self, hb⟩
    · obtain ⟨b, hmem, hb⟩ := ih ha
      exact ⟨b, List.mem_cons_of_mem _ hmem, hb⟩

end Option

/-- A list of pairs, looked up by a key that it has once. -/
theorem lookup_of_nodup {κ β : Type} [BEq κ] [LawfulBEq κ] {l : List (κ × β)} {k : κ} {b : β}
    (hkeys : (l.map Prod.fst).Nodup) (hmem : (k, b) ∈ l) : l.lookup k = some b := by
  induction l with
  | nil => cases hmem
  | cons p l ih =>
    obtain ⟨k', b'⟩ := p
    rw [List.map_cons, List.nodup_cons] at hkeys
    rcases List.mem_cons.mp hmem with he | hrest
    · cases he
      rw [List.lookup_cons_self]
    · have hne : k ≠ k' := by
        rintro rfl
        exact hkeys.1 (List.mem_map.mpr ⟨_, hrest, rfl⟩)
      rw [List.lookup_cons, beq_false_of_ne hne]
      exact ih hkeys.2 hrest

section Search

variable {α β γ : Type}

theorem map_filter_of_iff {f : α → β} {p : α → Bool} {q : β → Bool} {as : List α}
    (h : ∀ a ∈ as, p a = q (f a)) : (as.filter p).map f = (as.map f).filter q := by
  rw [List.filter_map]
  exact congrArg (List.map f) (List.filter_congr h)

/-- The last element is asked first. -/
theorem findSome?_reverse_concat (f : α → Option β) (xs : List α) (x : α) :
    (xs ++ [x]).reverse.findSome? f = (f x).or (xs.reverse.findSome? f) := by
  rw [List.reverse_append, List.findSome?_append, List.reverse_singleton,
    List.findSome?_singleton]

theorem findSome?_filterMap_eq {f : α → Option β} {g : β → Option γ} {h : α → Option γ}
    {xs : List α} (hfg : ∀ x ∈ xs, (f x).bind g = h x) :
    (xs.filterMap f).findSome? g = xs.findSome? h := by
  rw [← List.head?_filterMap, List.filterMap_filterMap, List.filterMap_congr hfg,
    List.head?_filterMap]

/-- An entry is replaced: one count is taken off and another one put on. -/
theorem count_filterMap_set [DecidableEq β] (f : α → Option β) {xs : List α} {i : Nat} {a : α}
    (h : xs[i]? = some a) (b : α) (x : β) :
    ((xs.set i b).filterMap f).count x + (f a).toList.count x =
      (xs.filterMap f).count x + (f b).toList.count x := by
  have hcons : ∀ (y : α) (ys : List α), ((y :: ys).filterMap f).count x =
      (f y).toList.count x + (ys.filterMap f).count x := by
    intro y ys
    rw [List.filterMap_cons]
    cases f y with
    | none => simp
    | some z => simp [List.count_cons, Nat.add_comm]
  induction xs generalizing i with
  | nil => simp at h
  | cons y ys ih =>
    cases i with
    | zero =>
      obtain rfl : y = a := by simpa using h
      rw [List.set_cons_zero, hcons, hcons]
      omega
    | succ i =>
      have hrest := ih (i := i) (by simpa using h)
      rw [List.set_cons_succ, hcons, hcons]
      omega

end Search

section Intercalate

variable {α : Type} {c : α}

theorem not_mem_intercalate {sep : List α} {ls : List (List α)} (hsep : c ∉ sep)
    (h : ∀ l ∈ ls, c ∉ l) : c ∉ sep.intercalate ls := by
  induction ls with
  | nil => simp [List.intercalate]
  | cons l ls ih =>
    have hl := h l List.mem_cons_self
    have hrest := ih fun l' hl' => h l' (List.mem_cons_of_mem l hl')
    cases ls with
    | nil => simpa [List.intercalate] using hl
    | cons l' ls =>
      simp only [List.intercalate, List.intersperse_cons_cons, List.flatten_cons, List.mem_append,
        not_or] at hrest ⊢
      exact ⟨hl, hsep, hrest⟩

/-- The second separator goes to the front of what follows it. -/
theorem intercalate_pair (a b : α) (l : List α) (ls : List (List α)) :
    [a, b].intercalate (l :: ls) = [a].intercalate (l :: ls.map (b :: ·)) := by
  induction ls generalizing l with
  | nil => simp [List.intercalate]
  | cons l' ls ih =>
    have hrest := ih l'
    simp only [List.intercalate, List.intersperse_cons_cons, List.flatten_cons, List.map_cons]
      at hrest ⊢
    cases ls with
    | nil => simp
    | cons l'' ls =>
      simp only [List.intersperse_cons_cons, List.flatten_cons, List.map_cons] at hrest ⊢
      simpa using hrest

end Intercalate

end MuduoPlus
