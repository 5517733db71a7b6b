import Mathlib.Init

namespace MuduoPlus

/-- A program that gives commands to the outside and goes on with their answers; it ends with a
result or raises. -/
inductive Program (C : Type) (R : C → Type) (ε α : Type) where
  | done (result : α)
  | raise (error : ε)
  | call (command : C) (next : R command → Program C R ε α)

namespace Program

variable {C : Type} {R : C → Type} {ε α β σ : Type}

protected def bind : Program C R ε α → (α → Program C R ε β) → Program C R ε β
  | .done a, f => f a
  | .raise e, _ => .raise e
  | .call c next, f => .call c fun r => (next r).bind f

instance : Monad (Program C R ε) where
  pure := .done
  bind := Program.bind

theorem bind_bind {γ : Type} (p : Program C R ε α) (f : α → Program C R ε β)
    (g : β → Program C R ε γ) : p >>= f >>= g = p >>= fun a => f a >>= g := by
  change (p.bind f).bind g = p.bind fun a => (f a).bind g
  induction p with
  | done a => rfl
  | raise e => rfl
  | call c next ih => exact congrArg (call c) (funext ih)

/-- `try p catch (e) handler(e)`. -/
def tryCatch : Program C R ε α → (ε → Program C R ε α) → Program C R ε α
  | .done a, _ => .done a
  | .raise e, handler => handler e
  | .call c next, handler => .call c fun r => (next r).tryCatch handler

/-- A command alone, for its answer. -/
def ask (c : C) : Program C R ε (R c) := .call c .done

/-- The whole program, with nobody else at the state; `handle` says what a command answers and
what it does. -/
def exec (handle : (c : C) → σ → R c × σ) : Program C R ε α → σ → Except ε α × σ
  | .done a, s => (.ok a, s)
  | .raise e, s => (.error e, s)
  | .call c next, s => (next (handle c s).1).exec handle (handle c s).2

/-- The same outside where commands may fail. A command with an answer in `failure` may; `luck n`
says whether the `n`-th of them is carried out, and if it is not it has no effect. -/
def faulty (failure : (c : C) → Option (R c)) (luck : Nat → Bool) (handle : (c : C) → σ → R c × σ)
    (c : C) (s : σ × Nat) : R c × σ × Nat :=
  match failure c with
  | none => ((handle c s.1).1, (handle c s.1).2, s.2)
  | some answer =>
    if luck s.2 then ((handle c s.1).1, (handle c s.1).2, s.2 + 1) else (answer, s.1, s.2 + 1)

section Faulty

variable {failure : (c : C) → Option (R c)} {luck : Nat → Bool} {handle : (c : C) → σ → R c × σ}
  {c : C} {answer : R c} {n : Nat}

theorem faulty_done (hf : failure c = some answer) (hl : luck n = true) (s : σ) :
    faulty failure luck handle c (s, n) = ((handle c s).1, (handle c s).2, n + 1) := by
  unfold faulty
  rw [hf]
  exact if_pos hl

theorem faulty_failed (hf : failure c = some answer) (hl : luck n = false) (s : σ) :
    faulty failure luck handle c (s, n) = (answer, s, n + 1) := by
  unfold faulty
  rw [hf]
  dsimp only
  rw [hl]
  rfl

theorem faulty_keep {Q : σ → Prop} (hkeep : ∀ s, Q s → Q (handle c s).2) (s : σ × Nat)
    (hs : Q s.1) : Q (faulty failure luck handle c s).2.1 := by
  unfold faulty
  split
  next => exact hkeep s.1 hs
  next =>
    split
    next => exact hkeep s.1 hs
    next => exact hs

end Faulty

section Exec

variable {handle : (c : C) → σ → R c × σ} {p : Program C R ε α} {s : σ}

@[simp] theorem exec_pure (a : α) : (pure a : Program C R ε α).exec handle s = (.ok a, s) := rfl

@[simp] theorem exec_ask (c : C) :
    (ask c : Program C R ε (R c)).exec handle s = (.ok (handle c s).1, (handle c s).2) := rfl

theorem exec_call {c : C} {next : R c → Program C R ε α} :
    (call c next).exec handle s = (next (handle c s).1).exec handle (handle c s).2 := rfl

theorem exec_bind (f : α → Program C R ε β) :
    (p >>= f).exec handle s =
      match p.exec handle s with
      | (.ok a, t) => (f a).exec handle t
      | (.error e, t) => (.error e, t) := by
  change (p.bind f).exec handle s = _
  induction p generalizing s with
  | done a => rfl
  | raise e => rfl
  | call c next ih => exact ih _

theorem exec_bind_ok {f : α → Program C R ε β} {a : α} {t : σ} (h : p.exec handle s = (.ok a, t)) :
    (p >>= f).exec handle s = (f a).exec handle t := by
  rw [exec_bind, h]

theorem exec_bind_error {f : α → Program C R ε β} {e : ε} {t : σ}
    (h : p.exec handle s = (.error e, t)) : (p >>= f).exec handle s = (.error e, t) := by
  rw [exec_bind, h]

theorem exec_bind_pure (f : α → β) :
    (p >>= fun a => pure (f a)).exec handle s =
      ((p.exec handle s).1.map f, (p.exec handle s).2) := by
  rw [exec_bind]
  rcases p.exec handle s with ⟨_ | a, t⟩
  · rfl
  · rfl

theorem exec_tryCatch (handler : ε → Program C R ε α) :
    (p.tryCatch handler).exec handle s =
      match p.exec handle s with
      | (.ok a, t) => (.ok a, t)
      | (.error e, t) => (handler e).exec handle t := by
  induction p generalizing s with
  | done a => rfl
  | raise e => rfl
  | call c next ih => exact ih _

end Exec

/-- Every command the program may give, whatever it is answered, is one of `P`. -/
def Always (P : C → Prop) : Program C R ε α → Prop
  | .done _ => True
  | .raise _ => True
  | .call c next => P c ∧ ∀ r, (next r).Always P

section Always

variable {P : C → Prop} {p : Program C R ε α}

theorem always_ask {c : C} (h : P c) : (ask c : Program C R ε (R c)).Always P :=
  ⟨h, fun _ => trivial⟩

theorem Always.bind {f : α → Program C R ε β} (hp : p.Always P) (hf : ∀ a, (f a).Always P) :
    (p >>= f).Always P := by
  change (p.bind f).Always P
  induction p with
  | done a => exact hf a
  | raise e => trivial
  | call c next ih => exact ⟨hp.1, fun r => ih r (hp.2 r)⟩

/-- What every command of `P` keeps, the program keeps. -/
theorem Always.exec {handle : (c : C) → σ → R c × σ} {Q : σ → Prop} {s : σ} (hp : p.Always P)
    (hkeep : ∀ c s, P c → Q s → Q (handle c s).2) (hs : Q s) : Q (p.exec handle s).2 := by
  induction p generalizing s with
  | done a => exact hs
  | raise e => exact hs
  | call c next ih => exact ih _ (hp.2 _) (hkeep c s hp.1 hs)

end Always

/-- The commands in the order in which the program gives them. -/
def trace (handle : (c : C) → σ → R c × σ) : Program C R ε α → σ → List C
  | .done _, _ => []
  | .raise _, _ => []
  | .call c next, s => c :: (next (handle c s).1).trace handle (handle c s).2

theorem trace_bind_ok {handle : (c : C) → σ → R c × σ} {p : Program C R ε α}
    {f : α → Program C R ε β} {a : α} {s t : σ} (h : p.exec handle s = (.ok a, t)) :
    (p >>= f).trace handle s = p.trace handle s ++ (f a).trace handle t := by
  change (p.bind f).trace handle s = _
  induction p generalizing s with
  | done a' =>
    obtain ⟨ha, rfl⟩ := Prod.mk.inj h
    obtain rfl := Except.ok.inj ha
    rfl
  | raise e => cases h
  | call c next ih => exact congrArg (c :: ·) (ih _ h)

theorem Always.trace {P : C → Prop} {handle : (c : C) → σ → R c × σ} {p : Program C R ε α} {s : σ}
    (hp : p.Always P) : ∀ c ∈ p.trace handle s, P c := by
  induction p generalizing s with
  | done a => exact fun c hc => absurd hc List.not_mem_nil
  | raise e => exact fun c hc => absurd hc List.not_mem_nil
  | call c next ih =>
    intro c' hc
    rcases List.mem_cons.mp hc with rfl | hc
    · exact hp.1
    · exact ih _ (hp.2 _) c' hc

/-- Whatever it is answered, the program returns only results of `Q`. -/
def Returns (Q : α → Prop) : Program C R ε α → Prop
  | .done a => Q a
  | .raise _ => True
  | .call _ next => ∀ r, (next r).Returns Q

section Returns

variable {Q : β → Prop} {p : Program C R ε α}

theorem Returns.bind {P : α → Prop} {f : α → Program C R ε β} (hp : p.Returns P)
    (hf : ∀ a, P a → (f a).Returns Q) : (p >>= f).Returns Q := by
  change (p.bind f).Returns Q
  induction p with
  | done a => exact hf a hp
  | raise e => trivial
  | call c next ih => exact fun r => ih r (hp r)

theorem returns_true (p : Program C R ε α) : p.Returns fun _ => True := by
  induction p with
  | done a => trivial
  | raise e => trivial
  | call c next ih => exact ih

theorem returns_bind {f : α → Program C R ε β} (p : Program C R ε α)
    (hf : ∀ a, (f a).Returns Q) : (p >>= f).Returns Q :=
  (returns_true p).bind fun a _ => hf a

theorem Returns.tryCatch {p : Program C R ε β} {handler : ε → Program C R ε β} (hp : p.Returns Q)
    (hh : ∀ e, (handler e).Returns Q) : (p.tryCatch handler).Returns Q := by
  induction p with
  | done a => exact hp
  | raise e => exact hh e
  | call c next ih => exact fun r => ih r (hp r)

theorem Returns.exec {p : Program C R ε β} {handle : (c : C) → σ → R c × σ} {s : σ} {a : β}
    (hp : p.Returns Q) (h : (p.exec handle s).1 = .ok a) : Q a := by
  induction p generalizing s with
  | done a' => exact Except.ok.inj h ▸ hp
  | raise e => cases h
  | call c next ih => exact ih _ (hp _) h

end Returns

end Program

end MuduoPlus
