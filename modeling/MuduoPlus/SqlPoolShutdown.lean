import MuduoPlus.SqlConnPool

namespace MuduoPlus

namespace MySQLConnPool

variable {ρ : Type} {p p' : MySQLConnPool ρ} {w : Nat}

/-- A pool with at least one worker that is cancelled by its `Shutdown` only. -/
def shutdownSystem (ρ : Type) : ActionSystem (MySQLConnPool ρ) (PoolStep ρ) where
  init p := ∃ size, 0 < size ∧ p = new size
  permitted step p := (system ρ).permitted step p ∧
    match step with
    | .cancel => False
    | _ => True
  apply := (system ρ).apply

theorem reachable_of_shutdownSystem {c : PoolStep ρ → MySQLConnPool ρ → Prop}
    (h : ((shutdownSystem ρ).restrict c).Reachable p) : (system ρ).Reachable p := by
  refine h.invariant (P := (system ρ).Reachable) ?_ ?_
  · rintro p ⟨size, -, rfl⟩
    exact .init ⟨size, rfl⟩
  · intro step p hp hr
    exact hr.step hp.1.1

/-- The queue holds no more than what the worker takes once its `running_` is cleared: one
operation when it is past the test of the loop, none otherwise. -/
def LastDrain (p : MySQLConnPool ρ) (w : Nat) : Prop :=
  p.queue.queue.length ≤ if (p.workers w).place = .popping then 1 else 0

/-- `Stop` of the last worker finds the queue drained but for what that worker is about to pop. -/
def StopsDrained : PoolStep ρ → MySQLConnPool ρ → Prop
  | .clearRunning, p => ∀ w, p.shutdown = .stopping w → w + 1 = p.size → p.LastDrain w
  | _, _ => True

structure ShutdownInv (p : MySQLConnPool ρ) : Prop where
  workers : 0 < p.size
  stopped : p.shutdown ≠ .notCalled → p.queue.stopped = true
  stopping : ∀ w, p.shutdown = .stopping w → w < p.size ∧ ∀ v < w, (p.workers v).place = .exited
  joining : ∀ w, p.shutdown = .joining w → w < p.size ∧
    (∀ v < w, (p.workers v).place = .exited) ∧ (p.workers w).running = false ∧
      (w + 1 = p.size → p.LastDrain w)
  returned : p.shutdown = .returned →
    (∀ v < p.size, (p.workers v).place = .exited) ∧ p.queue.queue = []

/-- A step of a worker inside its loop; the workers that were joined are not inside theirs. -/
theorem ShutdownInv.workerStep (h : ShutdownInv p) (hw : w < p.size)
    (hbusy : (p.workers w).place ≠ .exited) (hsize : p'.size = p.size)
    (hshut : p'.shutdown = p.shutdown) (hstop : p'.queue.stopped = p.queue.stopped)
    (hothers : ∀ v, v ≠ w → p'.workers v = p.workers v)
    (hrun : (p'.workers w).running = (p.workers w).running)
    (hlast : (p.workers w).running = false → p.LastDrain w → p'.LastDrain w) :
    ShutdownInv p' := by
  have hexited : ∀ v, (p.workers v).place = .exited → (p'.workers v).place = .exited := by
    intro v hv
    have hne : v ≠ w := by
      rintro rfl
      exact hbusy hv
    rw [hothers v hne]
    exact hv
  refine ⟨hsize ▸ h.workers, ?_, ?_, ?_, ?_⟩
  · rw [hshut, hstop]
    exact h.stopped
  · intro v hv
    obtain ⟨hlt, hall⟩ := h.stopping v (hshut ▸ hv)
    exact ⟨hsize ▸ hlt, fun u hu => hexited u (hall u hu)⟩
  · intro v hv
    obtain ⟨hlt, hall, hoff, hdrain⟩ := h.joining v (hshut ▸ hv)
    refine ⟨hsize ▸ hlt, fun u hu => hexited u (hall u hu), ?_, ?_⟩
    · by_cases hvw : v = w
      · subst hvw
        rw [hrun]
        exact hoff
      · rw [hothers v hvw]
        exact hoff
    · intro heq
      rw [hsize] at heq
      by_cases hvw : v = w
      · subst hvw
        exact hlast hoff (hdrain heq)
      · -- all other workers have been joined
        exact absurd (hall w (by omega)) hbusy
  · intro hv
    exact absurd ((h.returned (hshut ▸ hv)).1 w hw) hbusy

theorem ShutdownInv.submit (h : ShutdownInv p) (call : SubmitCall) (sql : Bytes) :
    ShutdownInv (p.submit call sql) := by
  have hqueue : p.shutdown ≠ .notCalled → (p.submit call sql).queue = p.queue :=
    fun hne => if_pos (h.stopped hne)
  have hcalled : ∀ {place}, p.shutdown = place → place ≠ .notCalled → p.shutdown ≠ .notCalled :=
    fun heq hne => heq ▸ hne
  refine ⟨h.workers, ?_, h.stopping, ?_, ?_⟩
  · intro hne
    rw [hqueue hne]
    exact h.stopped hne
  · intro v hv
    obtain ⟨hlt, hall, hoff, hdrain⟩ := h.joining v hv
    refine ⟨hlt, hall, hoff, ?_⟩
    unfold LastDrain
    rw [hqueue (hcalled hv (by simp))]
    exact hdrain
  · intro hv
    rw [hqueue (hcalled hv (by simp))]
    exact h.returned hv

theorem ShutdownInv.testRunning (h : ShutdownInv p) (hw : w < p.size)
    (hplace : (p.workers w).place = .testing) : ShutdownInv (p.testRunning w) := by
  refine h.workerStep hw (by simp [hplace]) rfl rfl rfl ?_ ?_ ?_
  · intro v hv
    exact Function.update_of_ne hv _ _
  · simp [MySQLConnPool.testRunning, setPlace]
  · intro hoff hdrain
    simp only [LastDrain, hplace] at hdrain
    simpa [LastDrain, MySQLConnPool.testRunning, setPlace, hoff] using hdrain

theorem ShutdownInv.pop (h : ShutdownInv p) (hw : w < p.size)
    (hplace : (p.workers w).place = .popping) : ShutdownInv (p.pop w) := by
  have hbusy : (p.workers w).place ≠ .exited := by simp [hplace]
  unfold MySQLConnPool.pop
  split
  next => exact h
  next queue hpop =>
    obtain ⟨-, hnil, rfl⟩ := BlockingQueue.pop_false hpop
    refine h.workerStep hw hbusy rfl rfl rfl ?_ ?_ ?_
    · intro v hv
      exact Function.update_of_ne hv _ _
    · simp [setPlace]
    · simp [LastDrain, setPlace, hnil]
  next c queue hpop =>
    obtain ⟨hqueue, hstop⟩ := BlockingQueue.pop_true hpop
    refine h.workerStep hw hbusy rfl rfl hstop ?_ ?_ ?_
    · intro v hv
      exact Function.update_of_ne hv _ _
    · simp [setPlace]
    · intro _ hdrain
      simp only [LastDrain, hplace, hqueue, List.length_cons] at hdrain
      simp only [LastDrain, setPlace, Function.update_self]
      simpa using hdrain

theorem ShutdownInv.execute (h : ShutdownInv p) (hw : w < p.size) {c : Nat}
    (hplace : (p.workers w).place = .executing c) (conn : MySQLConn ρ) :
    ShutdownInv (p.execute w conn) := by
  unfold MySQLConnPool.execute
  rw [hplace]
  dsimp only
  split
  next => exact h
  next op hop =>
    refine h.workerStep hw (by simp [hplace]) rfl rfl rfl ?_ ?_ ?_
    · intro v hv
      exact Function.update_of_ne hv _ _
    · simp [setPlace]
    · intro _ hdrain
      simp only [LastDrain, hplace] at hdrain
      simpa [LastDrain, setPlace] using hdrain

theorem ShutdownInv.beginShutdown (h : ShutdownInv p) : ShutdownInv p.beginShutdown := by
  unfold MySQLConnPool.beginShutdown
  rw [if_neg (Nat.pos_iff_ne_zero.mp h.workers)]
  refine ⟨h.workers, fun _ => rfl, ?_, ?_, ?_⟩
  · rintro v ⟨⟩
    exact ⟨h.workers, fun u hu => absurd hu (Nat.not_lt_zero u)⟩
  · rintro v ⟨⟩
  · rintro ⟨⟩

theorem ShutdownInv.clearRunning (h : ShutdownInv p) (hw : p.shutdown = .stopping w)
    (hdrain : w + 1 = p.size → p.LastDrain w) : ShutdownInv p.clearRunning := by
  obtain ⟨hlt, hall⟩ := h.stopping w hw
  unfold MySQLConnPool.clearRunning
  rw [hw]
  dsimp only
  refine ⟨h.workers, fun _ => h.stopped (by simp [hw]), ?_, ?_, ?_⟩
  · rintro v ⟨⟩
  · intro v hv
    cases hv
    refine ⟨hlt, ?_, by simp, ?_⟩
    · intro u hu
      dsimp only
      rw [Function.update_of_ne (Nat.ne_of_lt hu)]
      exact hall u hu
    · intro heq
      simpa [LastDrain] using hdrain heq
  · rintro ⟨⟩

theorem ShutdownInv.join (h : ShutdownInv p) (hw : p.shutdown = .joining w)
    (hexit : (p.workers w).place = .exited) : ShutdownInv p.join := by
  obtain ⟨hlt, hall, -, hdrain⟩ := h.joining w hw
  have hall' : ∀ v < w + 1, (p.workers v).place = .exited := by
    intro v hv
    rcases Nat.lt_succ_iff_lt_or_eq.mp hv with hv | rfl
    · exact hall v hv
    · exact hexit
  unfold MySQLConnPool.join
  rw [hw]
  dsimp only
  split
  next hmore =>
    refine ⟨h.workers, fun _ => h.stopped (by simp [hw]), ?_, ?_, ?_⟩
    · intro v hv
      cases hv
      exact ⟨hmore, hall'⟩
    · rintro v ⟨⟩
    · rintro ⟨⟩
  next hlast =>
    have hsize : w + 1 = p.size := by omega
    refine ⟨h.workers, fun _ => h.stopped (by simp [hw]), ?_, ?_, ?_⟩
    · rintro v ⟨⟩
    · rintro v ⟨⟩
    · intro _
      refine ⟨hsize ▸ hall', ?_⟩
      have hle := hdrain hsize
      simp only [LastDrain, hexit] at hle
      simpa using hle

theorem shutdownInv_of_reachable (h : ((shutdownSystem ρ).restrict StopsDrained).Reachable p) :
    ShutdownInv p := by
  refine h.invariant ?_ ?_
  · rintro p ⟨size, hsize, rfl⟩
    refine ⟨hsize, fun hne => absurd rfl hne, ?_, ?_, ?_⟩
    · rintro v ⟨⟩
    · rintro v ⟨⟩
    · rintro ⟨⟩
  · rintro step p ⟨⟨hp, honly⟩, hc⟩ hi
    cases step with
    | submit call sql => exact hi.submit call sql
    | testRunning w => exact hi.testRunning hp.1 hp.2
    | pop w => exact hi.pop hp.1 hp.2.1
    | execute w conn =>
      obtain ⟨hw, c, hplace⟩ := hp
      exact hi.execute hw hplace conn
    | cancel => exact honly.elim
    | shutdown => exact hi.beginShutdown
    | clearRunning =>
      obtain ⟨w, hw⟩ := hp
      exact hi.clearRunning hw (hc w hw)
    | join =>
      obtain ⟨w, hw, hexit⟩ := hp
      exact hi.join hw hexit

/-- After `Shutdown` every accepted operation has been executed, and the promise whose future the
caller waits for is fulfilled, once. -/
def NothingAbandoned (p : MySQLConnPool ρ) : Prop :=
  p.shutdown = .returned → p.executed.Nodup ∧
    ∀ c ∈ p.accepted, c ∈ p.executed ∧ ∃ op, p.operations[c]? = some op ∧ op.Handed ∧ op.Settled

theorem nothing_abandoned_of_stopsDrained
    (h : ((shutdownSystem ρ).restrict StopsDrained).Reachable p) : p.NothingAbandoned := by
  intro hret
  obtain ⟨hb, hpr⟩ := invariant_of_reachable (reachable_of_shutdownSystem h)
  obtain ⟨hexit, hnil⟩ := (shutdownInv_of_reachable h).returned hret
  refine ⟨hb.once, ?_⟩
  intro c hc
  have hlt := hb.accepted_lt hc
  have hop : p.operations[c]? = some p.operations[c] := List.getElem?_eq_getElem hlt
  have hpopped : c ∈ p.popped := by
    rw [← hb.order, hnil, List.append_nil] at hc
    exact hc
  have hdone : c ∈ p.executed := by
    rcases hb.popped_done c hpopped with hdone | ⟨w, hw⟩
    · exact hdone
    · have hwx := hexit w (hb.in_hand w c hw).1
      rw [hw] at hwx
      cases hwx
  exact ⟨hdone, _, hop, hpr.handed _ (List.mem_of_getElem? hop), hpr.settled c _ hop hdone⟩

/-- Two workers; the second is past its test when it is stopped and takes the last statement. -/
def drainedShutdown : List (PoolStep Nat) := [
  .submit .submitQuery (ascii "a"), .submit .submitExec (ascii "b"), .testRunning 0, .pop 0,
  .testRunning 1, .shutdown, .execute 0 ⟨true, .sqlException, .value (), .sqlException⟩,
  .clearRunning, .testRunning 0, .join, .clearRunning, .pop 1,
  .execute 1 ⟨true, .sqlException, .value (), .sqlException⟩, .testRunning 1, .join]

theorem nothing_abandoned_of_stopsDrained_two :
    let p := (shutdownSystem Nat).run drainedShutdown (new 2)
    p.shutdown = .returned ∧ p.accepted = [0, 1] ∧ p.executed = [0, 1] ∧ p.NothingAbandoned := by
  intro p
  have h0 : ((shutdownSystem Nat).restrict StopsDrained).Reachable (new 2) :=
    .init ⟨2, Nat.zero_lt_two, rfl⟩
  have hp : ((shutdownSystem Nat).restrict StopsDrained).Permits drainedShutdown (new 2) := by
    refine ⟨⟨⟨trivial, trivial⟩, trivial⟩, ⟨⟨trivial, trivial⟩, trivial⟩,
      ⟨⟨⟨Nat.zero_lt_two, rfl⟩, trivial⟩, trivial⟩,
      ⟨⟨⟨Nat.zero_lt_two, rfl, Or.inl (List.cons_ne_nil _ _)⟩, trivial⟩, trivial⟩,
      ⟨⟨⟨Nat.one_lt_two, rfl⟩, trivial⟩, trivial⟩, ⟨⟨rfl, trivial⟩, trivial⟩,
      ⟨⟨⟨Nat.zero_lt_two, 0, rfl⟩, trivial⟩, trivial⟩, ⟨⟨⟨0, rfl⟩, trivial⟩, ?_⟩,
      ⟨⟨⟨Nat.zero_lt_two, rfl⟩, trivial⟩, trivial⟩, ⟨⟨⟨0, rfl, rfl⟩, trivial⟩, trivial⟩,
      ⟨⟨⟨1, rfl⟩, trivial⟩, ?_⟩, ⟨⟨⟨Nat.one_lt_two, rfl, Or.inr rfl⟩, trivial⟩, trivial⟩,
      ⟨⟨⟨Nat.one_lt_two, 1, rfl⟩, trivial⟩, trivial⟩, ⟨⟨⟨Nat.one_lt_two, rfl⟩, trivial⟩, trivial⟩,
      ⟨⟨⟨1, rfl, rfl⟩, trivial⟩, trivial⟩, trivial⟩
    · intro w hw heq
      cases hw
      cases heq
    · intro w hw _
      cases hw
      exact Nat.le_refl 1
  exact ⟨by decide, by decide, by decide, nothing_abandoned_of_stopsDrained (h0.run hp)⟩

/-- `Shutdown` while the only worker is between two rounds of its loop. -/
def hastyShutdown : List (PoolStep Nat) := [
  .submit .submitQuery (ascii "a"), .shutdown, .clearRunning, .testRunning 0, .join]

/-- The worker tests `running_` before it pops, so the statement stays in the queue and its
promise is never fulfilled. -/
theorem statement_abandoned : ∃ p : MySQLConnPool Nat, (shutdownSystem Nat).Reachable p ∧
    p.shutdown = .returned ∧ p.accepted = [0] ∧ p.executed = [] ∧
      (p.operations.map fun op => op.promise.value) = [none] ∧ ¬ p.NothingAbandoned := by
  have h0 : (shutdownSystem Nat).Reachable (new 1) := .init ⟨1, Nat.one_pos, rfl⟩
  have hp : (shutdownSystem Nat).Permits hastyShutdown (new 1) :=
    ⟨⟨trivial, trivial⟩, ⟨rfl, trivial⟩, ⟨⟨0, rfl⟩, trivial⟩, ⟨⟨Nat.one_pos, rfl⟩, trivial⟩,
      ⟨⟨0, rfl, rfl⟩, trivial⟩, trivial⟩
  have hend : let p := (shutdownSystem Nat).run hastyShutdown (new 1)
      p.shutdown = .returned ∧ p.accepted = [0] ∧ p.executed = [] ∧
        (p.operations.map fun op => op.promise.value) = [none] := by
    decide
  refine ⟨_, h0.run hp, hend.1, hend.2.1, hend.2.2.1, hend.2.2.2, ?_⟩
  intro hn
  have hdone := ((hn hend.1).2 0 (hend.2.1 ▸ List.mem_cons_self)).1
  rw [hend.2.2.1] at hdone
  cases hdone

end MySQLConnPool

end MuduoPlus
