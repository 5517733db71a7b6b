import Mathlib.Data.List.Induction

namespace MuduoPlus

/-- Calls of several clients, answered one after the other: the replies, each with its client, and
the state behind the last one. -/
def serveInTurn {ι κ ρ σ : Type*} (answer : κ → σ → ρ × σ) : List (ι × κ) → σ → List (ι × ρ) × σ
  | [], state => ([], state)
  | (client, call) :: calls, state =>
    let served := serveInTurn answer calls (answer call state).2
    ((client, (answer call state).1) :: served.1, served.2)

/-- The entries of one client, in order. -/
def entriesOf {ι α : Type*} [DecidableEq ι] (client : ι) (entries : List (ι × α)) : List α :=
  entries.filterMap fun entry => if entry.1 = client then some entry.2 else none

section SerialService

variable {ι κ ρ σ α : Type*} {answer : κ → σ → ρ × σ} {state : σ}

theorem serveInTurn_append (answer : κ → σ → ρ × σ) (state : σ) (calls more : List (ι × κ)) :
    serveInTurn answer (calls ++ more) state =
      ((serveInTurn answer calls state).1 ++
        (serveInTurn answer more (serveInTurn answer calls state).2).1,
        (serveInTurn answer more (serveInTurn answer calls state).2).2) := by
  induction calls generalizing state with
  | nil => rfl
  | cons entry calls ih =>
    obtain ⟨client, call⟩ := entry
    rw [List.cons_append, serveInTurn, ih]
    rfl

/-- What holds of the replies and the state at first, and is kept by every call, holds behind the
last one. -/
theorem serveInTurn_invariant {Q : List (ι × ρ) → σ → Prop} (hinit : Q [] state)
    (calls : List (ι × κ))
    (hcall : ∀ client call, (client, call) ∈ calls → ∀ replies state, Q replies state →
      Q (replies ++ [(client, (answer call state).1)]) (answer call state).2) :
    Q (serveInTurn answer calls state).1 (serveInTurn answer calls state).2 := by
  induction calls using List.reverseRecOn with
  | nil => exact hinit
  | append_singleton calls entry ih =>
    have hbefore := ih fun client call hm => hcall client call (List.mem_append_left _ hm)
    rw [serveInTurn_append]
    exact hcall entry.1 entry.2 (List.mem_append_right _ List.mem_cons_self) _ _ hbefore

/-- Replies that are read off fuller ones. -/
theorem serveInTurn_map {ρ' : Type*} {full : κ → σ → ρ' × σ} (f : ρ' → ρ)
    (h : ∀ call state, answer call state = (f (full call state).1, (full call state).2))
    (calls : List (ι × κ)) (state : σ) :
    serveInTurn answer calls state =
      ((serveInTurn full calls state).1.map (Prod.map id f), (serveInTurn full calls state).2) := by
  induction calls generalizing state with
  | nil => rfl
  | cons entry calls ih =>
    obtain ⟨client, call⟩ := entry
    simp only [serveInTurn, h, ih, List.map_cons, Prod.map_apply, id_eq]

variable [DecidableEq ι] {client client' : ι}

theorem entriesOf_append (entries more : List (ι × α)) :
    entriesOf client (entries ++ more) = entriesOf client entries ++ entriesOf client more :=
  List.filterMap_append

theorem entriesOf_cons_self (a : α) (entries : List (ι × α)) :
    entriesOf client ((client, a) :: entries) = a :: entriesOf client entries := by
  simp [entriesOf]

theorem entriesOf_cons_ne (h : client' ≠ client) (a : α) (entries : List (ι × α)) :
    entriesOf client ((client', a) :: entries) = entriesOf client entries := by
  simp [entriesOf, h]

theorem entriesOf_map_self (as : List α) :
    entriesOf client (as.map fun a => (client, a)) = as := by
  induction as with
  | nil => rfl
  | cons a as ih => rw [List.map_cons, entriesOf_cons_self, ih]

theorem entriesOf_map_ne (h : client' ≠ client) (as : List α) :
    entriesOf client (as.map fun a => (client', a)) = [] := by
  induction as with
  | nil => rfl
  | cons a as ih => rw [List.map_cons, entriesOf_cons_ne h, ih]

end SerialService

end MuduoPlus
