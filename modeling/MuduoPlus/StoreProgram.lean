import Mathlib.Data.Finmap

namespace MuduoPlus

/-- A program that talks to a key-value store: what it does next, with the rest waiting
for the answer. `emit` hands an event to somebody else. -/
inductive StoreProgram (κ ν ω α : Type) where
  | done (result : α)
  | get (key : κ) (next : Option ν → StoreProgram κ ν ω α)
  | set (key : κ) (value : ν) (next : Bool → StoreProgram κ ν ω α)
  | del (key : κ) (next : Bool → StoreProgram κ ν ω α)
  | emit (event : ω) (next : StoreProgram κ ν ω α)

namespace StoreProgram

variable {κ ν ω α : Type} [DecidableEq κ] {p : StoreProgram κ ν ω α}
  {store : Finmap fun _ : κ => ν} {key : κ}

/-- One command, carried out at the store without failure; `del` reports whether the key
was there. -/
def step : StoreProgram κ ν ω α → (Finmap fun _ : κ => ν) →
    StoreProgram κ ν ω α × Finmap fun _ : κ => ν
  | .done result, store => (.done result, store)
  | .get key next, store => (next (store.lookup key), store)
  | .set key value next, store => (next true, store.insert key value)
  | .del key next, store => (next (decide (key ∈ store)), store.erase key)
  | .emit _ next, store => (next, store)

/-- The whole program, alone at the store. -/
def exec : StoreProgram κ ν ω α → (Finmap fun _ : κ => ν) → α × Finmap fun _ : κ => ν
  | .done result, store => (result, store)
  | .get key next, store => (next (store.lookup key)).exec store
  | .set key value next, store => (next true).exec (store.insert key value)
  | .del key next, store => (next (decide (key ∈ store))).exec (store.erase key)
  | .emit _ next, store => next.exec store

/-- The whole program at a store that may fail: `luck n` says whether the `n`-th command is carried
out. A failed one has no effect, and is answered with nothing. -/
def execFaulty (luck : Nat → Bool) : StoreProgram κ ν ω α → Nat → (Finmap fun _ : κ => ν) →
    α × Nat × Finmap fun _ : κ => ν
  | .done result, n, store => (result, n, store)
  | .get key next, n, store =>
    (next (if luck n then store.lookup key else none)).execFaulty luck (n + 1) store
  | .set key value next, n, store =>
    (next (luck n)).execFaulty luck (n + 1) (if luck n then store.insert key value else store)
  | .del key next, n, store =>
    (next (luck n && decide (key ∈ store))).execFaulty luck (n + 1)
      (if luck n then store.erase key else store)
  | .emit _ next, n, store => next.execFaulty luck n store

def IsGet (key : κ) : StoreProgram κ ν ω α → Prop
  | .get k _ => k = key
  | _ => False

def IsSet (key : κ) : StoreProgram κ ν ω α → Prop
  | .set k _ _ => k = key
  | _ => False

def IsDel (key : κ) : StoreProgram κ ν ω α → Prop
  | .del k _ => k = key
  | _ => False

/-- The program neither sets nor deletes the key, whatever it is answered. -/
def Avoids (key : κ) : StoreProgram κ ν ω α → Prop
  | .done _ => True
  | .get _ next => ∀ value, (next value).Avoids key
  | .set k _ next => k ≠ key ∧ ∀ ok, (next ok).Avoids key
  | .del k next => k ≠ key ∧ ∀ deleted, (next deleted).Avoids key
  | .emit _ next => next.Avoids key

theorem Avoids.lookup_execFaulty (h : p.Avoids key) (luck : Nat → Bool) (n : Nat) :
    (p.execFaulty luck n store).2.2.lookup key = store.lookup key := by
  induction p generalizing n store with
  | done result => rfl
  | get k next ih => exact ih _ (h _) (n + 1)
  | set k value next ih =>
    refine (ih _ (h.2 _) (n + 1)).trans ?_
    split
    next => exact Finmap.lookup_insert_of_ne store (Ne.symm h.1)
    next => rfl
  | del k next ih =>
    refine (ih _ (h.2 _) (n + 1)).trans ?_
    split
    next => exact Finmap.lookup_erase_ne (Ne.symm h.1)
    next => rfl
  | emit event next ih => exact ih h n

/-- Only a `set` or a `del` of a key changes what is stored under it. -/
theorem step_lookup (hs : ¬ p.IsSet key) (hd : ¬ p.IsDel key) :
    (p.step store).2.lookup key = store.lookup key := by
  cases p with
  | done result => rfl
  | get k next => rfl
  | set k value next => exact Finmap.lookup_insert_of_ne store (Ne.symm hs)
  | del k next => exact Finmap.lookup_erase_ne (Ne.symm hd)
  | emit event next => rfl

end StoreProgram

end MuduoPlus
