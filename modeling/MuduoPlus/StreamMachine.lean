import Mathlib.Data.List.Infix

namespace MuduoPlus

/-- What a consumer of a growing input does next: wait for more of it, take a
piece and carry on, or take a piece and stop. -/
inductive Move (σ ρ α : Type) where
  | wait
  | go (state : σ) (rest : List α)
  | stop (result : ρ) (state : σ) (rest : List α)

/-- A consumer whose decisions are final: once it moves on some input, it makes
the same move when more input is already there. -/
structure StreamMachine (σ ρ α : Type) where
  move : σ → List α → Move σ ρ α
  go_shorter : ∀ {s xs s' ys}, move s xs = .go s' ys → ys.length < xs.length
  go_append : ∀ {s xs s' ys}, move s xs = .go s' ys → ∀ zs,
    move s (xs ++ zs) = .go s' (ys ++ zs)
  stop_append : ∀ {s xs r s' ys}, move s xs = .stop r s' ys → ∀ zs,
    move s (xs ++ zs) = .stop r s' (ys ++ zs)

/-- Where a run of a machine ends: with a result, or waiting (`none`). -/
structure Halt (σ ρ α : Type) where
  result : Option ρ
  state : σ
  rest : List α

namespace StreamMachine

variable {σ ρ α : Type} (M : StreamMachine σ ρ α)

def run (s : σ) (xs : List α) : Halt σ ρ α :=
  match _h : M.move s xs with
  | .wait => ⟨none, s, xs⟩
  | .go s' ys => run s' ys
  | .stop r s' ys => ⟨some r, s', ys⟩
termination_by xs.length
decreasing_by exact M.go_shorter _h

/-- Resume a halted machine with more input; a stopped one leaves it unread. -/
def resume (h : Halt σ ρ α) (zs : List α) : Halt σ ρ α :=
  match h.result with
  | none => M.run h.state (h.rest ++ zs)
  | some r => ⟨some r, h.state, h.rest ++ zs⟩

/-- Hand over the chunks one by one until the machine stops. -/
def feed (s : σ) (xs : List α) : List (List α) → Halt σ ρ α
  | [] => ⟨none, s, xs⟩
  | c :: cs =>
    match M.run s (xs ++ c) with
    | ⟨none, s', ys⟩ => feed s' ys cs
    | ⟨some r, s', ys⟩ => ⟨some r, s', ys ++ cs.flatten⟩

theorem run_wait {s : σ} {xs : List α} (h : M.move s xs = .wait) : M.run s xs = ⟨none, s, xs⟩ := by
  rw [run]
  split
  next => rfl
  next hg => rw [h] at hg; cases hg
  next hg => rw [h] at hg; cases hg

theorem run_go {s s' : σ} {xs ys : List α} (h : M.move s xs = .go s' ys) :
    M.run s xs = M.run s' ys := by
  conv_lhs => rw [run]
  split
  next hg => rw [h] at hg; cases hg
  next hg => rw [h] at hg; cases hg; rfl
  next hg => rw [h] at hg; cases hg

theorem run_stop {s s' : σ} {xs ys : List α} {r : ρ} (h : M.move s xs = .stop r s' ys) :
    M.run s xs = ⟨some r, s', ys⟩ := by
  rw [run]
  split
  next hg => rw [h] at hg; cases hg
  next hg => rw [h] at hg; cases hg
  next hg => rw [h] at hg; cases hg; rfl

/-- Induction along a run: one case for each kind of move. -/
theorem run_induction {motive : σ → List α → Prop}
    (wait : ∀ s xs, M.move s xs = .wait → motive s xs)
    (go : ∀ s xs s' ys, M.move s xs = .go s' ys → motive s' ys → motive s xs)
    (stop : ∀ s xs r s' ys, M.move s xs = .stop r s' ys → motive s xs)
    (s : σ) (xs : List α) : motive s xs := by
  induction hn : xs.length using Nat.strong_induction_on generalizing s xs with
  | _ n ih =>
    cases h : M.move s xs with
    | wait => exact wait s xs h
    | go s' ys => exact go s xs s' ys h (ih ys.length (hn ▸ M.go_shorter h) s' ys rfl)
    | stop r s' ys => exact stop s xs r s' ys h

theorem move_of_run_none {s : σ} {xs : List α} (h : (M.run s xs).result = none) :
    M.move (M.run s xs).state (M.run s xs).rest = .wait := by
  induction s, xs using M.run_induction with
  | wait s xs hm => rw [M.run_wait hm]; exact hm
  | go s xs s' ys hm ih => rw [M.run_go hm] at h ⊢; exact ih h
  | stop s xs r s' ys hm => rw [M.run_stop hm] at h; cases h

/-- Reading the input in two parts ends where reading it at once does. -/
theorem run_append (s : σ) (xs zs : List α) :
    M.run s (xs ++ zs) = M.resume (M.run s xs) zs := by
  induction s, xs using M.run_induction with
  | wait s xs hm => rw [M.run_wait hm]; rfl
  | go s xs s' ys hm ih => rw [M.run_go hm, M.run_go (M.go_append hm zs), ih]
  | stop s xs r s' ys hm => rw [M.run_stop hm, M.run_stop (M.stop_append hm zs)]; rfl

theorem run_append_of_none {s : σ} {xs : List α} (h : (M.run s xs).result = none) (zs : List α) :
    M.run s (xs ++ zs) = M.run (M.run s xs).state ((M.run s xs).rest ++ zs) := by
  rw [M.run_append, resume, h]

/-- One-shot reading of everything fed explains any way of feeding it in chunks. -/
theorem feed_eq_run (s : σ) (xs : List α) (cs : List (List α)) (hc : cs ≠ []) :
    M.feed s xs cs = M.run s (xs ++ cs.flatten) := by
  induction cs generalizing s xs with
  | nil => exact absurd rfl hc
  | cons c cs ih =>
    rw [feed, List.flatten_cons, ← List.append_assoc, M.run_append s (xs ++ c)]
    cases h : M.run s (xs ++ c) with
    | mk result s' ys =>
      cases result with
      | some r => rfl
      | none =>
        cases cs with
        | nil =>
          have hn : (M.run s (xs ++ c)).result = none := by rw [h]
          have hm := M.move_of_run_none hn
          rw [h] at hm
          simp only [feed, resume, List.flatten_nil, List.append_nil]
          exact (M.run_wait hm).symm
        | cons d ds => exact ih s' ys (List.cons_ne_nil d ds)

end StreamMachine

end MuduoPlus
