import Mathlib.Init

namespace MuduoPlus

/-- A system driven by actions: where it starts, when an action may be taken, and what
the action does. -/
structure ActionSystem (σ α : Type*) where
  init : σ → Prop
  permitted : α → σ → Prop
  apply : α → σ → σ

namespace ActionSystem

variable {σ α : Type*} {M : ActionSystem σ α} {s : σ}

inductive Reachable (M : ActionSystem σ α) : σ → Prop
  | init {s : σ} (h : M.init s) : Reachable M s
  | step {s : σ} {a : α} (h : Reachable M s) (ha : M.permitted a s) : Reachable M (M.apply a s)

theorem Reachable.invariant {P : σ → Prop} (h : M.Reachable s) (h0 : ∀ s, M.init s → P s)
    (hs : ∀ a s, M.permitted a s → P s → P (M.apply a s)) : P s := by
  induction h with
  | init h => exact h0 _ h
  | step _ ha ih => exact hs _ _ ha ih

def run (M : ActionSystem σ α) (as : List α) (s : σ) : σ := as.foldl (fun s a => M.apply a s) s

/-- Every action of the list is permitted where it is taken. -/
def Permits (M : ActionSystem σ α) : List α → σ → Prop
  | [], _ => True
  | a :: as, s => M.permitted a s ∧ M.Permits as (M.apply a s)

instance decidablePermits [∀ a s, Decidable (M.permitted a s)] :
    (as : List α) → (s : σ) → Decidable (M.Permits as s)
  | [], _ => .isTrue trivial
  | a :: as, s =>
    have := decidablePermits as (M.apply a s)
    inferInstanceAs (Decidable (M.permitted a s ∧ M.Permits as (M.apply a s)))

theorem Reachable.run (h : M.Reachable s) {as : List α} (ha : M.Permits as s) :
    M.Reachable (M.run as s) := by
  induction as generalizing s with
  | nil => exact h
  | cons a as ih => exact ih (h.step ha.1) ha.2

/-- The runs that also keep to `c` at every action. -/
def restrict (M : ActionSystem σ α) (c : α → σ → Prop) : ActionSystem σ α :=
  { M with permitted := fun a s => M.permitted a s ∧ c a s }

instance (c : α → σ → Prop) (a : α) (s : σ) [Decidable (M.permitted a s)] [Decidable (c a s)] :
    Decidable ((M.restrict c).permitted a s) :=
  inferInstanceAs (Decidable (M.permitted a s ∧ c a s))

end ActionSystem

end MuduoPlus
