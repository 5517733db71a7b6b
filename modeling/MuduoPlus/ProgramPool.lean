import Mathlib.Data.List.Perm.Basic
import MuduoPlus.ActionSystem
import MuduoPlus.CommandProgram

namespace MuduoPlus

/-- Programs that run at the same time over one shared state. -/
structure ProgramPool (σ C : Type) (R : C → Type) (ε α : Type) where
  shared : σ
  running : List (Program C R ε α)

/-- A task is started, or the program at place `i` takes one step. -/
inductive PoolAction (τ : Type) where
  | start (task : τ)
  | step (i : Nat)

/-- What is asserted of a pool: of the shared state at any time, of a running program, of a program
that still owes something to the shared state, and of the shared state once nothing is owed. -/
structure PoolOutline (σ C : Type) (R : C → Type) (ε α : Type) where
  shared : σ → Prop
  place : σ → Program C R ε α → Prop
  owes : σ → Program C R ε α → Prop
  settled : σ → Prop

namespace ProgramPool

variable {σ C τ : Type} {R : C → Type} {ε α : Type} {handle : (c : C) → σ → R c × σ}
  {s : ProgramPool σ C R ε α}

/-- One command of the program at place `i`; a program that has ended leaves. -/
def step (handle : (c : C) → σ → R c × σ) (i : Nat) (s : ProgramPool σ C R ε α) :
    ProgramPool σ C R ε α :=
  match s.running[i]? with
  | none => s
  | some (.call c next) =>
    ⟨(handle c s.shared).2, s.running.set i (next (handle c s.shared).1)⟩
  | some (.done _) => { s with running := s.running.eraseIdx i }
  | some (.raise _) => { s with running := s.running.eraseIdx i }

/-- Any number of tasks, interleaved in any way, from a pool with nothing running. -/
def system (handle : (c : C) → σ → R c × σ) (program : τ → Program C R ε α) (init : σ → Prop)
    (admitted : τ → Prop) : ActionSystem (ProgramPool σ C R ε α) (PoolAction τ) where
  init s := init s.shared ∧ s.running = []
  permitted
    | .start task, _ => admitted task
    | .step _, _ => True
  apply
    | .start task, s => { s with running := s.running ++ [program task] }
    | .step i, s => s.step handle i

/-- The command at place `i` is one that every other running program tolerates. -/
def Undisturbed (tolerates : Program C R ε α → C → Prop) (i : Nat)
    (s : ProgramPool σ C R ε α) : Prop :=
  ∀ c next, s.running[i]? = some (.call c next) → ∀ p ∈ s.running.eraseIdx i, tolerates p c

theorem undisturbed_call {tolerates : Program C R ε α → C → Prop} {i : Nat} {c : C}
    {next : R c → Program C R ε α} (hp : s.running[i]? = some (.call c next)) :
    s.Undisturbed tolerates i ↔ ∀ p ∈ s.running.eraseIdx i, tolerates p c := by
  constructor
  · intro h
    exact h c next hp
  · intro h c' next' hp'
    obtain ⟨rfl, -⟩ := Program.call.inj (Option.some.inj (hp.symm.trans hp'))
    exact h

instance decidableUndisturbed {tolerates : Program C R ε α → C → Prop}
    [∀ p c, Decidable (tolerates p c)] (i : Nat) (s : ProgramPool σ C R ε α) :
    Decidable (s.Undisturbed tolerates i) :=
  match hp : s.running[i]? with
  | some (.call _ _) => decidable_of_iff' _ (undisturbed_call hp)
  | none => isTrue fun _ _ hc => nomatch hp.symm.trans hc
  | some (.done _) => isTrue fun _ _ hc => nomatch Option.some.inj (hp.symm.trans hc)
  | some (.raise _) => isTrue fun _ _ hc => nomatch Option.some.inj (hp.symm.trans hc)

end ProgramPool

namespace PoolOutline

open ProgramPool

variable {σ C τ : Type} {R : C → Type} {ε α : Type} {handle : (c : C) → σ → R c × σ}
  {O : PoolOutline σ C R ε α} {tolerates : Program C R ε α → C → Prop} {s : ProgramPool σ C R ε α}

/-- A command keeps what is asserted of its own program, and of the others that tolerate it; a
debt is made by its own program only, and ends with the debt of all being settled. -/
structure Sound (O : PoolOutline σ C R ε α) (handle : (c : C) → σ → R c × σ)
    (tolerates : Program C R ε α → C → Prop) : Prop where
  shared : ∀ {s c next}, O.shared s → O.place s (.call c next) → O.shared (handle c s).2
  own : ∀ {s c next}, O.shared s → O.place s (.call c next) →
    O.place (handle c s).2 (next (handle c s).1)
  other : ∀ {s c next p}, O.shared s → O.place s (.call c next) → tolerates p c → O.place s p →
    O.place (handle c s).2 p
  settled : ∀ {s c next}, O.shared s → O.place s (.call c next) → O.settled s →
    O.settled (handle c s).2 ∨ O.owes (handle c s).2 (next (handle c s).1)
  owes_own : ∀ {s c next}, O.shared s → O.owes s (.call c next) →
    O.settled (handle c s).2 ∨ O.owes (handle c s).2 (next (handle c s).1)
  owes_other : ∀ {s c next p}, O.shared s → O.place s (.call c next) → O.owes s p →
    O.settled (handle c s).2 ∨ O.owes (handle c s).2 (next (handle c s).1) ∨
      O.owes (handle c s).2 p
  not_done : ∀ {s a}, ¬O.owes s (.done a)
  not_raise : ∀ {s e}, ¬O.owes s (.raise e)

/-- The assertions hold of the pool, and what is not settled is owed by a running program. -/
structure Kept (O : PoolOutline σ C R ε α) (s : ProgramPool σ C R ε α) : Prop where
  shared : O.shared s.shared
  place : ∀ p ∈ s.running, O.place s.shared p
  settled : O.settled s.shared ∨ ∃ p ∈ s.running, O.owes s.shared p

theorem mem_set_iff_eraseIdx {l : List (Program C R ε α)} {i : Nat} {p q x : Program C R ε α}
    (hp : l[i]? = some p) : x ∈ l.set i q ↔ x = q ∨ x ∈ l.eraseIdx i := by
  obtain ⟨hi, -⟩ := List.getElem?_eq_some_iff.mp hp
  rw [(List.set_perm_cons_eraseIdx hi q).mem_iff, List.mem_cons]

theorem mem_iff_eraseIdx {l : List (Program C R ε α)} {i : Nat} {p x : Program C R ε α}
    (hp : l[i]? = some p) : x ∈ l ↔ x = p ∨ x ∈ l.eraseIdx i := by
  obtain ⟨hi, rfl⟩ := List.getElem?_eq_some_iff.mp hp
  rw [← (List.getElem_cons_eraseIdx_perm hi).mem_iff, List.mem_cons]

theorem Kept.start (h : O.Kept s) {p : Program C R ε α} (hp : O.place s.shared p) :
    O.Kept { s with running := s.running ++ [p] } := by
  refine ⟨h.shared, ?_, ?_⟩
  · intro q hq
    rcases List.mem_append.mp hq with hq | hq
    · exact h.place q hq
    · rw [List.mem_singleton.mp hq]
      exact hp
  · rcases h.settled with hset | ⟨q, hq, howes⟩
    · exact Or.inl hset
    · exact Or.inr ⟨q, List.mem_append_left _ hq, howes⟩

/-- A program that ends owes nothing. -/
theorem Kept.leave (h : O.Kept s) {i : Nat} {p : Program C R ε α} (hp : s.running[i]? = some p)
    (hno : ¬O.owes s.shared p) : O.Kept { s with running := s.running.eraseIdx i } := by
  refine ⟨h.shared, fun q hq => h.place q (List.mem_of_mem_eraseIdx hq), ?_⟩
  rcases h.settled with hset | ⟨q, hq, howes⟩
  · exact Or.inl hset
  · rcases (mem_iff_eraseIdx hp).mp hq with rfl | hrest
    · exact absurd howes hno
    · exact Or.inr ⟨q, hrest, howes⟩

theorem Kept.call (hO : O.Sound handle tolerates) (h : O.Kept s) {i : Nat} {c : C}
    {next : R c → Program C R ε α} (hp : s.running[i]? = some (.call c next))
    (hquiet : Undisturbed tolerates i s) :
    O.Kept ⟨(handle c s.shared).2, s.running.set i (next (handle c s.shared).1)⟩ := by
  have hplace := h.place _ (List.mem_of_getElem? hp)
  refine ⟨hO.shared h.shared hplace, ?_, ?_⟩
  · intro q hq
    rcases (mem_set_iff_eraseIdx hp).mp hq with rfl | hrest
    · exact hO.own h.shared hplace
    · have hq := h.place q (List.mem_of_mem_eraseIdx hrest)
      exact hO.other h.shared hplace (hquiet c next hp q hrest) hq
  · have hown : next (handle c s.shared).1 ∈ s.running.set i (next (handle c s.shared).1) :=
      (mem_set_iff_eraseIdx hp).mpr (Or.inl rfl)
    rcases h.settled with hset | ⟨q, hq, howes⟩
    · exact (hO.settled h.shared hplace hset).imp_right fun ho => ⟨_, hown, ho⟩
    · rcases (mem_iff_eraseIdx hp).mp hq with rfl | hrest
      · exact (hO.owes_own h.shared howes).imp_right fun ho => ⟨_, hown, ho⟩
      · rcases hO.owes_other h.shared hplace howes with hset | ho | ho
        · exact Or.inl hset
        · exact Or.inr ⟨_, hown, ho⟩
        · exact Or.inr ⟨q, (mem_set_iff_eraseIdx hp).mpr (Or.inr hrest), ho⟩

theorem Kept.step (hO : O.Sound handle tolerates) (h : O.Kept s) {i : Nat}
    (hquiet : Undisturbed tolerates i s) : O.Kept (s.step handle i) := by
  unfold ProgramPool.step
  split
  next => exact h
  next c next hp => exact h.call hO hp hquiet
  next a hp => exact h.leave hp hO.not_done
  next e hp => exact h.leave hp hO.not_raise

/-- The rule for runs: in every run that keeps to `cond`, the assertions hold throughout. -/
theorem Sound.kept (hO : O.Sound handle tolerates) {program : τ → Program C R ε α}
    {init : σ → Prop} {admitted : τ → Prop} {cond : PoolAction τ → ProgramPool σ C R ε α → Prop}
    (hinit : ∀ s, init s → O.shared s ∧ O.settled s)
    (hstart : ∀ task s, admitted task → cond (.start task) s → O.shared s.shared →
      O.place s.shared (program task))
    (hstep : ∀ i s, cond (.step i) s → Undisturbed tolerates i s)
    (hs : ((system handle program init admitted).restrict cond).Reachable s) : O.Kept s := by
  apply hs.invariant
  · intro s h0
    obtain ⟨hshared, hsettled⟩ := hinit s.shared h0.1
    refine ⟨hshared, ?_, Or.inl hsettled⟩
    intro p hp
    rw [h0.2] at hp
    cases hp
  · intro action s hperm h
    obtain ⟨hadmitted, hcond⟩ := hperm
    cases action with
    | start task => exact h.start (hstart task s hadmitted hcond h.shared)
    | step i => exact h.step hO (hstep i s hcond)

/-- With nothing running, nothing is owed. -/
theorem Kept.settled_of_idle (h : O.Kept s) (hidle : s.running = []) : O.settled s.shared := by
  rcases h.settled with hset | ⟨p, hp, -⟩
  · exact hset
  · rw [hidle] at hp
    cases hp

end PoolOutline

end MuduoPlus
