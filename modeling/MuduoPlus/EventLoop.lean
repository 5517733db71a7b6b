import Mathlib.Algebra.Group.Nat.Defs
import Mathlib.Logic.Function.Basic
import MuduoPlus.ActionSystem

namespace MuduoPlus

/-- Where the loop thread is: before `loop()`, about to enter `poll`, in the handlers of
the active channels (`wakeupActive`: the wakeup channel's is still to come), in
`EventLoop::handleRead`, before the locked swap of `doPendingFunctors`, or in its batch,
with the functors not called yet. -/
inductive LoopPhase (φ : Type) where
  | outside
  | polling
  | handling (wakeupActive : Bool)
  | draining
  | swapping
  | running (functors : List φ)

namespace LoopPhase

variable {φ : Type}

def batch : LoopPhase φ → List φ
  | .running functors => functors
  | _ => []

/-- The loop thread may run code of its users here. -/
def UserCode : LoopPhase φ → Prop
  | .outside => True
  | .handling _ => True
  | .running _ => True
  | _ => False

end LoopPhase

/-- An event loop with foreign threads `τ` and functors `φ`. `waking` and `loopWaking` mark
threads between the locked push of `queueInLoop` and its wakeup; `ran` and `pushed` record
the calls and the pushes. -/
structure EventLoop (τ φ : Type) where
  phase : LoopPhase φ
  pendingFunctors : List φ
  callingPendingFunctors : Bool
  wakeupCounter : Nat
  loopWaking : Bool
  waking : τ → Bool
  ran : List φ
  pushed : List φ

namespace EventLoop

variable {τ φ : Type}

def new : EventLoop τ φ := ⟨.outside, [], false, 0, false, fun _ => false, [], []⟩

/-- `write` of 1 to the eventfd: its counter stops at `2^64 - 2`, then the write fails. -/
def wakeup (s : EventLoop τ φ) : EventLoop τ φ :=
  { s with wakeupCounter :=
      if s.wakeupCounter < 2 ^ 64 - 2 then s.wakeupCounter + 1 else s.wakeupCounter }

def push (cb : φ) (s : EventLoop τ φ) : EventLoop τ φ :=
  { s with pendingFunctors := s.pendingFunctors ++ [cb], pushed := s.pushed ++ [cb] }

/-- One `read` of `handleRead`: it takes the whole counter, or fails and ends the loop. -/
def readWakeupFd (s : EventLoop τ φ) : EventLoop τ φ :=
  if 0 < s.wakeupCounter then { s with wakeupCounter := 0 }
  else { s with phase := .handling false }

def swap (s : EventLoop τ φ) : EventLoop τ φ :=
  { s with phase := .running s.pendingFunctors, pendingFunctors := [] }

def callFunctor (s : EventLoop τ φ) : EventLoop τ φ :=
  match s.phase with
  | .running (f :: functors) => { s with phase := .running functors, ran := s.ran ++ [f] }
  | _ => s

/-- The steps of the threads: `queueInLoop` (and `runInLoop` from a foreign thread) is a push
and then, if it decides so, a wakeup. -/
inductive LoopAction (τ φ : Type) where
  | foreignPush (thread : τ) (cb : φ)
  | foreignWakeup (thread : τ)
  | loopPush (cb : φ)
  | loopWakeup
  | startLoop
  | poll (wakeupActive : Bool)
  | handleWakeup
  | readWakeupFd
  | beginFunctors
  | swap
  | callFunctor
  | endFunctors

variable [DecidableEq τ]

def applyAction : LoopAction τ φ → EventLoop τ φ → EventLoop τ φ
  | .foreignPush thread cb, s =>
    { s.push cb with waking := Function.update s.waking thread true }
  | .foreignWakeup thread, s =>
    { s.wakeup with waking := Function.update s.waking thread false }
  | .loopPush cb, s => { s.push cb with loopWaking := s.callingPendingFunctors }
  | .loopWakeup, s => { s.wakeup with loopWaking := false }
  | .startLoop, s => { s.wakeup with phase := .polling }
  | .poll wakeupActive, s => { s with phase := .handling wakeupActive }
  | .handleWakeup, s => { s with phase := .draining }
  | .readWakeupFd, s => s.readWakeupFd
  | .beginFunctors, s => { s with phase := .swapping, callingPendingFunctors := true }
  | .swap, s => s.swap
  | .callFunctor, s => s.callFunctor
  | .endFunctors, s => { s with phase := .polling, callingPendingFunctors := false }

/-- Which step each thread may take next. `poll` reports the wakeup channel only with a
positive counter; the loop thread goes on only after the wakeup it owes. -/
def Permitted : LoopAction τ φ → EventLoop τ φ → Prop
  | .foreignPush thread _, s => s.waking thread = false
  | .foreignWakeup thread, s => s.waking thread = true
  | .loopPush _, s => s.phase.UserCode ∧ s.loopWaking = false
  | .loopWakeup, s => s.loopWaking = true
  | .startLoop, s => s.phase = .outside ∧ s.loopWaking = false
  | .poll wakeupActive, s => s.phase = .polling ∧ (wakeupActive = true → 0 < s.wakeupCounter)
  | .handleWakeup, s => s.phase = .handling true ∧ s.loopWaking = false
  | .readWakeupFd, s => s.phase = .draining
  | .beginFunctors, s => s.phase = .handling false ∧ s.loopWaking = false
  | .swap, s => s.phase = .swapping
  | .callFunctor, s => (∃ f functors, s.phase = .running (f :: functors)) ∧ s.loopWaking = false
  | .endFunctors, s => s.phase = .running [] ∧ s.loopWaking = false

/-- The loop with any number of foreign threads, in any interleaving, while `quit()` is not
called and no callback throws. -/
def loopSystem (τ φ : Type) [DecidableEq τ] : ActionSystem (EventLoop τ φ) (LoopAction τ φ) where
  init s := s = new
  permitted := Permitted
  apply := applyAction

end EventLoop

end MuduoPlus
