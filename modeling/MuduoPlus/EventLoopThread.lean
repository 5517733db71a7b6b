import Mathlib.Data.List.Count
import Mathlib.Logic.Function.Basic
import MuduoPlus.ActionSystem
import MuduoPlus.EventLog

namespace MuduoPlus

/-- Where `EventLoopThread::threadFunc` is: before it publishes `loop_`, before and behind the two
stores at the head of `loop()`, at its wakeup, at the test of `quit_`, before `poll`, in the
handlers and functors of an iteration, behind the loop, at its end. -/
inductive ThreadPhase where
  | starting
  | published
  | entered
  | waking
  | testing
  | polling
  | handling
  | leaving
  | left
  | finished
  deriving DecidableEq, Repr

/-- The store `quit_ = false` of `loop()` is still to come. -/
def ThreadPhase.BeforeLoop : ThreadPhase → Prop
  | .starting => True
  | .published => True
  | .entered => True
  | _ => False

/-- What is observed of a loop: an iteration that begins, a poll that starts, a `quit()` that
returns. -/
inductive LoopEvent where
  | iteration
  | poll
  | quitReturned
  deriving DecidableEq, Repr

/-- An `EventLoopThread` with its loop. `loop` tells whether `loop_` is set, `started` whether
`startLoop()` has returned, `quitting` which of the other threads `τ` are in `quit()` behind its
store. -/
structure EventLoopThread (τ : Type) where
  phase : ThreadPhase
  loop : Bool
  looping : Bool
  quit : Bool
  started : Bool
  quitting : τ → Bool
  trace : List LoopEvent

/-- The steps of `threadFunc` and `loop()` in their order, then those of the other threads. -/
inductive LoopThreadStep (τ : Type) where
  | publish
  | setLooping
  | clearQuit
  | wakeup
  | test
  | poll
  | quitInLoop
  | endIteration
  | clearLooping
  | clearLoop
  | startLoopReturns
  | setQuit (thread : τ)
  | quitReturns (thread : τ)

namespace EventLoopThread

variable {τ : Type} [DecidableEq τ] {r : EventLoopThread τ}

def new : EventLoopThread τ := ⟨.starting, false, false, false, false, fun _ => false, []⟩

def note (e : LoopEvent) (r : EventLoopThread τ) : EventLoopThread τ :=
  { r with trace := r.trace ++ [e] }

def apply : LoopThreadStep τ → EventLoopThread τ → EventLoopThread τ
  | .publish, r => { r with phase := .published, loop := true }
  | .setLooping, r => { r with phase := .entered, looping := true }
  | .clearQuit, r => { r with phase := .waking, quit := false }
  | .wakeup, r => { r with phase := .testing }
  | .test, r =>
    if r.quit then { r with phase := .leaving } else note .iteration { r with phase := .polling }
  | .poll, r => note .poll { r with phase := .handling }
  | .quitInLoop, r => note .quitReturned { r with quit := true }
  | .endIteration, r => { r with phase := .testing }
  | .clearLooping, r => { r with phase := .left, looping := false }
  | .clearLoop, r => { r with phase := .finished, loop := false }
  | .startLoopReturns, r => { r with started := true }
  | .setQuit thread, r => { r with quit := true, quitting := Function.update r.quitting thread true }
  | .quitReturns thread, r =>
    note .quitReturned { r with quitting := Function.update r.quitting thread false }

/-- The loop thread and any number of threads that call `quit()` once `startLoop()` has returned.
Handlers and functors of the loop may call it as well. -/
def system (τ : Type) [DecidableEq τ] : ActionSystem (EventLoopThread τ) (LoopThreadStep τ) where
  init r := r = new
  permitted
    | .publish, r => r.phase = .starting
    | .setLooping, r => r.phase = .published
    | .clearQuit, r => r.phase = .entered
    | .wakeup, r => r.phase = .waking
    | .test, r => r.phase = .testing
    | .poll, r => r.phase = .polling
    | .quitInLoop, r => r.phase = .handling
    | .endIteration, r => r.phase = .handling
    | .clearLooping, r => r.phase = .leaving
    | .clearLoop, r => r.phase = .left
    | .startLoopReturns, r => r.loop = true
    | .setQuit thread, r => r.started = true ∧ r.quitting thread = false
    | .quitReturns thread, r => r.quitting thread = true
  apply := apply

/-- `quit()` finds `loop()` behind its store to `quit_`. -/
def QuitsLoop : LoopThreadStep τ → EventLoopThread τ → Prop
  | .setQuit _, r => ¬r.phase.BeforeLoop
  | _, _ => True

/-- No iteration begins behind a `quit()` that has returned. -/
def NoneAfterQuit (before : List LoopEvent) (e : LoopEvent) : Prop :=
  e = .iteration → .quitReturned ∉ before

/-- Polls that the iterations begun so far have still to make. -/
def owed (phase : ThreadPhase) : Nat := if phase = .polling then 1 else 0

/-- A request to quit is either not made yet, or it stands. -/
structure Inv (r : EventLoopThread τ) : Prop where
  returned : .quitReturned ∈ r.trace → r.quit = true
  stored : ∀ thread, r.quitting thread = true → r.quit = true
  fresh : r.phase.BeforeLoop → r.quit = false
  last : Preceded NoneAfterQuit r.trace
  polls : r.trace.count .poll + owed r.phase = r.trace.count .iteration

section Steps

omit [DecidableEq τ]

theorem Inv.init : Inv (new : EventLoopThread τ) where
  returned h := nomatch h
  stored _ h := nomatch h
  fresh _ := rfl
  last := preceded_nil _
  polls := rfl

/-- A step of the loop thread between two phases that owe no poll, with nothing to be seen. -/
theorem Inv.moved (h : Inv r) {phase : ThreadPhase} {loop looping started : Bool}
    (hfresh : phase.BeforeLoop → r.phase.BeforeLoop) (howed : owed phase = owed r.phase) :
    Inv { r with phase, loop, looping, started } where
  returned := h.returned
  stored := h.stored
  fresh hb := h.fresh (hfresh hb)
  last := h.last
  polls := by
    have hpolls := h.polls
    rw [← howed] at hpolls
    exact hpolls

/-- A step that is seen as `e`. -/
theorem Inv.noted (h : Inv r) {e : LoopEvent} {phase : ThreadPhase}
    (hfresh : phase.BeforeLoop → r.phase.BeforeLoop) (hreturned : e = .quitReturned → r.quit = true)
    (hlast : NoneAfterQuit r.trace e)
    (howed : [e].count .poll + owed phase = owed r.phase + [e].count .iteration) :
    Inv (note e { r with phase }) where
  returned hm := by
    rcases List.mem_append.mp hm with hm | hm
    · exact h.returned hm
    · exact hreturned (List.mem_singleton.mp hm).symm
  stored := h.stored
  fresh hb := h.fresh (hfresh hb)
  last := h.last.snoc hlast
  polls := by
    have hpolls := h.polls
    simp only [note, List.count_append]
    omega

/-- Before the store there is no request that it could overwrite. -/
theorem Inv.clearQuit (h : Inv r) (hp : r.phase = .entered) :
    Inv { r with phase := .waking, quit := false } := by
  have hfresh : r.quit = false := h.fresh (by rw [hp]; trivial)
  have hmoved : Inv { r with phase := .waking } := h.moved (fun hb => hb.elim) (by rw [hp]; rfl)
  rw [← hfresh]
  exact hmoved

/-- The test lets an iteration begin only while no request stands. -/
theorem Inv.test (h : Inv r) (hp : r.phase = .testing) :
    Inv (if r.quit then { r with phase := .leaving }
      else note .iteration { r with phase := .polling }) := by
  split
  next => exact h.moved (fun hb => hb.elim) (by rw [hp]; rfl)
  next hquit =>
    refine h.noted (fun hb => hb.elim) (fun he => nomatch he) ?_ (by rw [hp]; rfl)
    exact fun _ hm => hquit (h.returned hm)

theorem Inv.setQuit (h : Inv r) (hp : ¬r.phase.BeforeLoop) (quitting : τ → Bool) :
    Inv { r with quit := true, quitting } where
  returned _ := rfl
  stored _ _ := rfl
  fresh hb := absurd hb hp
  last := h.last
  polls := h.polls

/-- A `quit()` returns, in a state where the request stands. -/
theorem Inv.returns (h : Inv r) (hquit : r.quit = true) : Inv (note .quitReturned r) :=
  h.noted id (fun _ => hquit) (fun he => nomatch he) (Nat.add_comm _ _)

end Steps

theorem Inv.quitReturns (h : Inv r) {thread : τ} (hp : r.quitting thread = true) :
    Inv (apply (.quitReturns thread) r) := by
  have hquit := h.stored thread hp
  have hless : Inv { r with quitting := Function.update r.quitting thread false } :=
    ⟨h.returned, fun _ _ => hquit, h.fresh, h.last, h.polls⟩
  exact hless.returns hquit

theorem Inv.apply {step : LoopThreadStep τ}
    (hp : ((system τ).restrict QuitsLoop).permitted step r) (h : Inv r) : Inv (apply step r) := by
  obtain ⟨hp, hbehind⟩ := hp
  cases step with
  | publish =>
    have hp : r.phase = .starting := hp
    exact h.moved (fun _ => by rw [hp]; trivial) (by rw [hp]; rfl)
  | setLooping =>
    have hp : r.phase = .published := hp
    exact h.moved (fun _ => by rw [hp]; trivial) (by rw [hp]; rfl)
  | clearQuit => exact h.clearQuit hp
  | wakeup =>
    have hp : r.phase = .waking := hp
    exact h.moved (fun hb => hb.elim) (by rw [hp]; rfl)
  | test => exact h.test hp
  | poll =>
    have hp : r.phase = .polling := hp
    exact h.noted (fun hb => hb.elim) (fun he => nomatch he) (fun he => nomatch he) (by rw [hp]; rfl)
  | quitInLoop =>
    have hp : r.phase = .handling := hp
    have hlooping : ¬r.phase.BeforeLoop := by
      rw [hp]
      exact id
    exact (h.setQuit hlooping r.quitting).returns rfl
  | endIteration =>
    have hp : r.phase = .handling := hp
    exact h.moved (fun hb => hb.elim) (by rw [hp]; rfl)
  | clearLooping =>
    have hp : r.phase = .leaving := hp
    exact h.moved (fun hb => hb.elim) (by rw [hp]; rfl)
  | clearLoop =>
    have hp : r.phase = .left := hp
    exact h.moved (fun hb => hb.elim) (by rw [hp]; rfl)
  | startLoopReturns => exact h.moved id rfl
  | setQuit thread => exact h.setQuit hbehind _
  | quitReturns thread => exact h.quitReturns hp

/-- Once a `quit()` has returned no iteration begins any more: all polls there are belong to
iterations that had begun before. -/
theorem no_poll_after_quit (h : ((system τ).restrict QuitsLoop).Reachable r)
    {before after : List LoopEvent} (htrace : r.trace = before ++ .quitReturned :: after) :
    .iteration ∉ after ∧ r.trace.count .poll ≤ before.count .iteration := by
  have hi : Inv r := h.invariant (fun s hs => by rw [show s = new from hs]; exact Inv.init)
    (fun _ _ hp hi => hi.apply hp)
  have hnone : .iteration ∉ after := by
    intro hm
    obtain ⟨mid, rest, rfl⟩ := List.append_of_mem hm
    have hlast := hi.last (before ++ .quitReturned :: mid) .iteration rest (by rw [htrace]; simp)
    exact hlast rfl (by simp)
  refine ⟨hnone, ?_⟩
  have hpolls := hi.polls
  have hcount : r.trace.count .iteration = before.count .iteration := by
    rw [htrace, List.count_append, List.count_cons_of_ne (by decide),
      List.count_eq_zero_of_not_mem hnone, Nat.add_zero]
  omega

/-- The loop polls once, another thread quits it during the second poll. -/
def quitWhilePolling : List (LoopThreadStep Unit) := [
  .publish, .startLoopReturns, .setLooping, .clearQuit, .wakeup, .test, .poll, .endIteration, .test,
  .setQuit (), .quitReturns (), .poll, .endIteration, .test, .clearLooping, .clearLoop]

theorem no_poll_after_quit_whilePolling :
    let r := (system Unit).run quitWhilePolling new
    r.trace = [.iteration, .poll, .iteration, .quitReturned, .poll] ∧ r.trace.count .poll ≤ 2 := by
  intro r
  have h0 : ((system Unit).restrict QuitsLoop).Reachable new := .init rfl
  have hp : ((system Unit).restrict QuitsLoop).Permits quitWhilePolling new := by
    refine ⟨⟨rfl, trivial⟩, ⟨rfl, trivial⟩, ⟨rfl, trivial⟩, ⟨rfl, trivial⟩, ⟨rfl, trivial⟩,
      ⟨rfl, trivial⟩, ⟨rfl, trivial⟩, ⟨rfl, trivial⟩, ⟨rfl, trivial⟩, ⟨⟨rfl, rfl⟩, id⟩,
      ⟨rfl, trivial⟩, ⟨rfl, trivial⟩, ⟨rfl, trivial⟩, ⟨rfl, trivial⟩, ⟨rfl, trivial⟩,
      ⟨rfl, trivial⟩, trivial⟩
  have htrace : r.trace = [.iteration, .poll, .iteration] ++ .quitReturned :: [.poll] := rfl
  exact ⟨htrace, (no_poll_after_quit (h0.run hp) htrace).2⟩

/-- `startLoop()` returns before `loop()` has begun, whose first stores then take a request back. -/
def quitAtStart : List (LoopThreadStep Unit) := [
  .publish, .startLoopReturns, .setQuit (), .quitReturns (), .setLooping, .clearQuit, .wakeup, .test,
  .poll]

theorem quit_forgotten : ∃ r : EventLoopThread Unit, (system Unit).Reachable r ∧
    r.trace = [.quitReturned, .iteration, .poll] ∧ r.quit = false := by
  have h0 : (system Unit).Reachable new := .init rfl
  have hp : (system Unit).Permits quitAtStart new :=
    ⟨rfl, rfl, ⟨rfl, rfl⟩, rfl, rfl, rfl, rfl, rfl, rfl, trivial⟩
  exact ⟨_, h0.run hp, rfl, rfl⟩

end EventLoopThread

end MuduoPlus
