import Mathlib.Data.List.Basic

namespace MuduoPlus

variable {α : Type*} {Q : List α → α → Prop} {log : List α}

/-- `Q` holds of every entry of a log and what stands before it. -/
def Preceded (Q : List α → α → Prop) (log : List α) : Prop :=
  ∀ before e after, log = before ++ e :: after → Q before e

theorem preceded_nil (Q : List α → α → Prop) : Preceded Q [] := by
  intro before e after h
  exact absurd h.symm (by simp)

/-- A log grows at its end; what stood before the older entries does not change. -/
theorem Preceded.snoc (h : Preceded Q log) {e : α} (he : Q log e) : Preceded Q (log ++ [e]) := by
  intro before e' after heq
  rcases List.eq_nil_or_concat after with rfl | ⟨init, last, rfl⟩
  · have hlog : log = before := List.append_inj_left' heq rfl
    have hlast : [e] = [e'] := List.append_inj_right' heq rfl
    rw [← hlog, ← List.singleton_inj.mp hlast]
    exact he
  · refine h before e' init ?_
    have heq' : log ++ [e] = (before ++ e' :: init) ++ [last] := by
      rw [heq]
      simp
    exact List.append_inj_left' heq' rfl

theorem Preceded.append (h : Preceded Q log) {evs : List α}
    (hevs : ∀ before e after, evs = before ++ e :: after → Q (log ++ before) e) :
    Preceded Q (log ++ evs) := by
  induction evs generalizing log with
  | nil => rwa [List.append_nil]
  | cons e evs ih =>
    have he : Q log e := by simpa using hevs [] e evs rfl
    have hrest := ih (h.snoc he) fun before e' after heq => by
      have hq := hevs (e :: before) e' after (by rw [heq]; rfl)
      simpa using hq
    rwa [List.append_assoc] at hrest

end MuduoPlus
