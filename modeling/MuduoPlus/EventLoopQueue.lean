import MuduoPlus.EventLoop

namespace MuduoPlus

/-- The phases between setting and resetting `callingPendingFunctors_`. -/
def LoopPhase.Calling {φ : Type} : LoopPhase φ → Prop
  | .swapping => True
  | .running _ => True
  | _ => False

namespace EventLoop

variable {τ φ : Type} {s : EventLoop τ φ}

/-- Pending functors have been announced, or will be by a foreign thread. -/
def Announced (s : EventLoop τ φ) : Prop :=
  s.pendingFunctors ≠ [] → 0 < s.wakeupCounter ∨ ∃ thread, s.waking thread = true

structure QueueInv (s : EventLoop τ φ) : Prop where
  fifo : s.ran ++ s.phase.batch ++ s.pendingFunctors = s.pushed
  flag : s.callingPendingFunctors = true ↔ s.phase.Calling
  owed : s.loopWaking = true → ∃ functors, s.phase = .running functors
  polling : s.phase = .polling → s.Announced
  running : ∀ functors, s.phase = .running functors → s.loopWaking = true ∨ s.Announced

theorem queueInv_new : QueueInv (new : EventLoop τ φ) where
  fifo := rfl
  flag := by simp [new, LoopPhase.Calling]
  owed := by simp [new]
  polling := by simp [new]
  running := by simp [new]

theorem wakeup_pos : 0 < s.wakeup.wakeupCounter := by
  unfold wakeup
  dsimp only
  split <;> omega

theorem QueueInv.fifo_push (h : QueueInv s) (cb : φ) :
    s.ran ++ s.phase.batch ++ (s.pendingFunctors ++ [cb]) = s.pushed ++ [cb] := by
  rw [← List.append_assoc, h.fifo]

/-- A wakeup announces whatever is pending, whoever writes it. -/
theorem QueueInv.wakeup (h : QueueInv s) (waking : τ → Bool) {loopWaking : Bool}
    (hl : loopWaking = true → s.loopWaking = true) :
    QueueInv { s.wakeup with waking, loopWaking } where
  fifo := h.fifo
  flag := h.flag
  owed := fun ho => h.owed (hl ho)
  polling := fun _ _ => Or.inl wakeup_pos
  running := fun _ _ => Or.inr fun _ => Or.inl wakeup_pos

theorem QueueInv.startLoop (h : QueueInv s) (hp : s.phase = .outside) (hw : s.loopWaking = false) :
    QueueInv { s.wakeup with phase := .polling } where
  fifo := by
    have hf := h.fifo
    rw [hp] at hf
    exact hf
  flag := by
    have hf := h.flag
    rw [hp] at hf
    exact hf
  owed := by
    intro ho
    have ho' : s.loopWaking = true := ho
    rw [hw] at ho'
    cases ho'
  polling := fun _ _ => Or.inl wakeup_pos
  running := by
    intro functors hr
    cases hr

/-- A phase change of the loop thread outside its batch, with the eventfd left or drained. -/
theorem QueueInv.move (h : QueueInv s) (hw : s.loopWaking = false) (phase : LoopPhase φ)
    (flag : Bool) (counter : Nat) (hb : s.phase.batch = phase.batch)
    (hflag : flag = true ↔ phase.Calling) (hn : phase ≠ .polling)
    (hr : ∀ functors, phase ≠ .running functors) :
    QueueInv { s with phase, callingPendingFunctors := flag, wakeupCounter := counter } where
  fifo := by
    have hf := h.fifo
    rw [hb] at hf
    exact hf
  flag := hflag
  owed := by
    intro ho
    have ho' : s.loopWaking = true := ho
    rw [hw] at ho'
    cases ho'
  polling := fun hp => absurd hp hn
  running := fun functors hp => absurd hp (hr functors)

theorem QueueInv.not_owed (h : QueueInv s) (hr : ∀ functors, s.phase ≠ .running functors) :
    s.loopWaking = false := by
  by_contra hw
  have ht : s.loopWaking = true := by simpa using hw
  obtain ⟨functors, hf⟩ := h.owed ht
  exact hr functors hf

theorem QueueInv.loopPush (h : QueueInv s) (hu : s.phase.UserCode) (cb : φ) :
    QueueInv { s.push cb with loopWaking := s.callingPendingFunctors } where
  fifo := h.fifo_push cb
  flag := h.flag
  owed := by
    intro ho
    have hc := h.flag.mp ho
    cases hp : s.phase with
    | running functors => exact ⟨functors, hp⟩
    | swapping => rw [hp] at hu; exact absurd hu id
    | outside => rw [hp] at hc; exact absurd hc id
    | polling => rw [hp] at hc; exact absurd hc id
    | handling wakeupActive => rw [hp] at hc; exact absurd hc id
    | draining => rw [hp] at hc; exact absurd hc id
  polling := by
    intro hp
    have hp' : s.phase = .polling := hp
    rw [hp'] at hu
    exact absurd hu id
  running := by
    intro functors hp
    have hp' : s.phase = .running functors := hp
    refine Or.inl (h.flag.mpr ?_)
    rw [hp']
    exact trivial

theorem QueueInv.swap (h : QueueInv s) (hp : s.phase = .swapping) : QueueInv s.swap where
  fifo := by
    have hf := h.fifo
    rw [hp] at hf
    simpa [EventLoop.swap, LoopPhase.batch] using hf
  flag := by
    have hf := h.flag
    rw [hp] at hf
    exact hf
  owed := fun _ => ⟨s.pendingFunctors, rfl⟩
  polling := by
    intro hh
    cases hh
  running := fun _ _ => Or.inr fun hne => absurd rfl hne

theorem QueueInv.callFunctor (h : QueueInv s) {f : φ} {functors : List φ}
    (hp : s.phase = .running (f :: functors)) : QueueInv s.callFunctor := by
  have hc : s.callFunctor = { s with phase := .running functors, ran := s.ran ++ [f] } := by
    simp [EventLoop.callFunctor, hp]
  rw [hc]
  exact {
    fifo := by
      have hf := h.fifo
      rw [hp] at hf
      simpa [LoopPhase.batch] using hf
    flag := by
      have hf := h.flag
      rw [hp] at hf
      exact hf
    owed := fun _ => ⟨functors, rfl⟩
    polling := by
      intro hh
      cases hh
    running := fun _ _ => h.running (f :: functors) hp }

theorem QueueInv.endFunctors (h : QueueInv s) (hp : s.phase = .running [])
    (hw : s.loopWaking = false) :
    QueueInv { s with phase := .polling, callingPendingFunctors := false } where
  fifo := by
    have hf := h.fifo
    rw [hp] at hf
    exact hf
  flag := by simp [LoopPhase.Calling]
  owed := by
    intro ho
    have ho' : s.loopWaking = true := ho
    rw [hw] at ho'
    cases ho'
  polling := by
    intro _
    rcases h.running [] hp with ho | ha
    · rw [hw] at ho
      cases ho
    · exact ha
  running := by
    intro functors hh
    cases hh

theorem QueueInv.readWakeupFd (h : QueueInv s) (hp : s.phase = .draining) :
    QueueInv s.readWakeupFd := by
  have hw : s.loopWaking = false := h.not_owed (by simp [hp])
  have hflag : s.callingPendingFunctors = true ↔ (LoopPhase.draining : LoopPhase φ).Calling := by
    rw [← hp]
    exact h.flag
  unfold EventLoop.readWakeupFd
  split
  · exact h.move hw s.phase _ 0 rfl h.flag (by simp [hp]) (by simp [hp])
  · exact h.move hw (.handling false) _ _ (by rw [hp]; rfl) hflag (by simp) (by simp)

variable [DecidableEq τ]

theorem QueueInv.foreignPush (h : QueueInv s) (thread : τ) (cb : φ) :
    QueueInv { s.push cb with waking := Function.update s.waking thread true } where
  fifo := h.fifo_push cb
  flag := h.flag
  owed := h.owed
  polling := fun _ _ => Or.inr ⟨thread, by simp⟩
  running := fun _ _ => Or.inr fun _ => Or.inr ⟨thread, by simp⟩

theorem QueueInv.applyAction {a : LoopAction τ φ} (hp : Permitted a s) (h : QueueInv s) :
    QueueInv (applyAction a s) := by
  cases a with
  | foreignPush thread cb => exact h.foreignPush thread cb
  | foreignWakeup thread => exact h.wakeup _ id
  | loopPush cb => exact h.loopPush hp.1 cb
  | loopWakeup => exact h.wakeup s.waking (by simp)
  | startLoop => exact h.startLoop hp.1 hp.2
  | poll wakeupActive =>
    have hw : s.loopWaking = false := h.not_owed (by simp [hp.1])
    have hf := h.flag
    rw [hp.1] at hf
    exact h.move hw (.handling wakeupActive) _ _ (by rw [hp.1]; rfl) hf (by simp) (by simp)
  | handleWakeup =>
    have hf := h.flag
    rw [hp.1] at hf
    exact h.move hp.2 .draining _ _ (by rw [hp.1]; rfl) hf (by simp) (by simp)
  | readWakeupFd => exact h.readWakeupFd hp
  | beginFunctors =>
    have hf : true = true ↔ (LoopPhase.swapping : LoopPhase φ).Calling := by
      simp [LoopPhase.Calling]
    exact h.move hp.2 .swapping true _ (by rw [hp.1]; rfl) hf (by simp) (by simp)
  | swap => exact h.swap hp
  | callFunctor =>
    obtain ⟨⟨f, functors, hr⟩, _⟩ := hp
    exact h.callFunctor hr
  | endFunctors => exact h.endFunctors hp.1 hp.2

/-- Every functor is run once, in the order of the pushes, and the loop never goes to sleep
on a functor that nobody will announce. -/
theorem queue_fifo_no_lost_wakeup (h : (loopSystem τ φ).Reachable s) :
    s.ran ++ s.phase.batch ++ s.pendingFunctors = s.pushed ∧
      (s.phase = .polling → s.pendingFunctors ≠ [] →
        0 < s.wakeupCounter ∨ ∃ thread, s.waking thread = true) := by
  have hi : QueueInv s := by
    apply h.invariant
    · rintro _ rfl
      exact queueInv_new
    · intro a t hp ht
      exact QueueInv.applyAction hp ht
  exact ⟨hi.fifo, hi.polling⟩

/-- One functor wakes the loop and is run; another is pushed after the eventfd was drained and the
batch taken. -/
def latePush : List (LoopAction Nat Nat) :=
  [.startLoop, .foreignPush 1 5, .foreignWakeup 1, .poll true, .handleWakeup, .readWakeupFd,
    .readWakeupFd, .beginFunctors, .swap, .foreignPush 0 7, .callFunctor, .endFunctors]

theorem queue_fifo_no_lost_wakeup_late :
    let s := (loopSystem Nat Nat).run latePush new
    s.phase = .polling ∧ s.ran = [5] ∧ s.pendingFunctors = [7] ∧
      s.ran ++ s.phase.batch ++ s.pendingFunctors = s.pushed ∧
      (0 < s.wakeupCounter ∨ ∃ thread, s.waking thread = true) := by
  intro s
  have h0 : (loopSystem Nat Nat).Reachable new := .init rfl
  have hr : (loopSystem Nat Nat).Reachable s :=
    h0.run ⟨⟨rfl, rfl⟩, rfl, rfl, ⟨rfl, fun _ => by decide⟩, ⟨rfl, rfl⟩, rfl, rfl, ⟨rfl, rfl⟩, rfl,
      rfl, ⟨⟨5, [], rfl⟩, rfl⟩, ⟨rfl, rfl⟩, trivial⟩
  have hp : s.pendingFunctors = [7] := rfl
  have hq := queue_fifo_no_lost_wakeup hr
  exact ⟨rfl, rfl, hp, hq.1, hq.2 rfl (by simp [hp])⟩

end EventLoop

end MuduoPlus
