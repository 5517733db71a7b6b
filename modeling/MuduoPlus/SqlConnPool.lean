import MuduoPlus.ActionSystem
import MuduoPlus.SqlTask

namespace MuduoPlus

/-- Where a `MySQLWorker` stands in `WorkerLoop`: before the test of `running_`, in `Pop`, with a
task, after the loop. -/
inductive SqlWorkerPlace where
  | testing
  | popping
  | executing (op : Nat)
  | exited
  deriving DecidableEq, Repr

structure SqlWorker where
  running : Bool
  place : SqlWorkerPlace

/-- Where `Shutdown` stands: before it, before `Stop` of a worker clears `running_`, in the `join`
of that `Stop`, after it. -/
inductive ShutdownPlace where
  | notCalled
  | stopping (w : Nat)
  | joining (w : Nat)
  | returned
  deriving DecidableEq, Repr

/-- A pool with `size` workers. Operations are numbered in the order of their `Push`. The other
fields record how many had been pushed at the first `Cancel`, what `Pop` returned, what was executed
and which calls of `Execute` raised. -/
structure MySQLConnPool (ρ : Type) where
  size : Nat
  workers : Nat → SqlWorker
  queue : BlockingQueue Nat
  operations : List (SQLOperation ρ)
  shutdown : ShutdownPlace
  cancelledAt : Option Nat
  popped : List Nat
  executed : List Nat
  raised : List Nat

inductive PoolStep (ρ : Type) where
  | submit (call : SubmitCall) (sql : Bytes)
  | testRunning (w : Nat)
  | pop (w : Nat)
  | execute (w : Nat) (conn : MySQLConn ρ)
  | cancel
  | shutdown
  | clearRunning
  | join

namespace MySQLConnPool

variable {ρ : Type}

/-- `InitPool` with as many connections as could be opened. -/
def new (size : Nat) : MySQLConnPool ρ :=
  ⟨size, fun _ => ⟨true, .testing⟩, .new, [], .notCalled, none, [], [], []⟩

def setPlace (w : Nat) (place : SqlWorkerPlace) (p : MySQLConnPool ρ) : MySQLConnPool ρ :=
  { p with workers := Function.update p.workers w { p.workers w with place } }

def submit (call : SubmitCall) (sql : Bytes) (p : MySQLConnPool ρ) : MySQLConnPool ρ :=
  { p with
    operations := p.operations ++ [call.operation sql]
    queue := p.queue.push p.operations.length }

def testRunning (w : Nat) (p : MySQLConnPool ρ) : MySQLConnPool ρ :=
  p.setPlace w (if (p.workers w).running then .popping else .exited)

def pop (w : Nat) (p : MySQLConnPool ρ) : MySQLConnPool ρ :=
  match p.queue.pop with
  | none => p
  | some (none, queue) => { p with queue }.setPlace w .exited
  | some (some op, queue) =>
    { p with queue, popped := p.popped ++ [op] }.setPlace w (.executing op)

/-- `task->Execute(conn_.get())`, and back to the head of the loop. -/
def execute (w : Nat) (conn : MySQLConn ρ) (p : MySQLConnPool ρ) : MySQLConnPool ρ :=
  match (p.workers w).place with
  | .executing c =>
    match p.operations[c]? with
    | none => p
    | some op =>
      { p with
        operations := p.operations.set c (op.execute conn).1
        executed := p.executed ++ [c]
        raised := if (op.execute conn).2 then p.raised else p.raised ++ [c] }.setPlace w .testing
  | _ => p

/-- `queue_->Cancel()`. -/
def cancel (p : MySQLConnPool ρ) : MySQLConnPool ρ :=
  { p with
    queue := p.queue.cancel
    cancelledAt := some (p.cancelledAt.getD p.operations.length) }

/-- `Shutdown` up to the first `Stop`. -/
def beginShutdown (p : MySQLConnPool ρ) : MySQLConnPool ρ :=
  if p.size = 0 then { p with shutdown := .returned } else { p.cancel with shutdown := .stopping 0 }

def clearRunning (p : MySQLConnPool ρ) : MySQLConnPool ρ :=
  match p.shutdown with
  | .stopping w =>
    { p with
      workers := Function.update p.workers w { p.workers w with running := false }
      shutdown := .joining w }
  | _ => p

def join (p : MySQLConnPool ρ) : MySQLConnPool ρ :=
  match p.shutdown with
  | .joining w => { p with shutdown := if w + 1 < p.size then .stopping (w + 1) else .returned }
  | _ => p

/-- Any number of threads that submit, the workers, calls of `Cancel` at any time and one call of
`Shutdown`. -/
def system (ρ : Type) : ActionSystem (MySQLConnPool ρ) (PoolStep ρ) where
  init p := ∃ size, p = new size
  permitted
    | .submit _ _, _ => True
    | .testRunning w, p => w < p.size ∧ (p.workers w).place = .testing
    | .pop w, p => w < p.size ∧ (p.workers w).place = .popping ∧
      (p.queue.queue ≠ [] ∨ p.queue.stopped = true)
    | .execute w _, p => w < p.size ∧ ∃ c, (p.workers w).place = .executing c
    | .cancel, _ => True
    | .shutdown, p => p.shutdown = .notCalled
    | .clearRunning, p => ∃ w, p.shutdown = .stopping w
    | .join, p => ∃ w, p.shutdown = .joining w ∧ (p.workers w).place = .exited
  apply
    | .submit call sql, p => p.submit call sql
    | .testRunning w, p => p.testRunning w
    | .pop w, p => p.pop w
    | .execute w conn, p => p.execute w conn
    | .cancel, p => p.cancel
    | .shutdown, p => p.beginShutdown
    | .clearRunning, p => p.clearRunning
    | .join, p => p.join

/-- The operations whose `Push` came before `Cancel`, in order. -/
def accepted (p : MySQLConnPool ρ) : List Nat :=
  List.range (p.cancelledAt.getD p.operations.length)

/-- Each accepted operation is in the queue, in the hands of one worker, or executed. -/
structure Books (p : MySQLConnPool ρ) : Prop where
  order : p.popped ++ p.queue.queue = p.accepted
  stopped : p.queue.stopped = p.cancelledAt.isSome
  cancelled_le : p.cancelledAt.getD p.operations.length ≤ p.operations.length
  in_hand : ∀ w c, (p.workers w).place = .executing c → w < p.size ∧ c ∈ p.popped ∧ c ∉ p.executed
  one_hand : ∀ w w' c, (p.workers w).place = .executing c → (p.workers w').place = .executing c →
    w = w'
  popped_done : ∀ c ∈ p.popped, c ∈ p.executed ∨ ∃ w, (p.workers w).place = .executing c
  executed_popped : ∀ c ∈ p.executed, c ∈ p.popped
  once : p.executed.Nodup

/-- What the promises of the operations look like. -/
structure Promises (p : MySQLConnPool ρ) : Prop where
  handed : ∀ op ∈ p.operations, op.Handed
  waiting : ∀ c op, p.operations[c]? = some op → c ∉ p.executed → op.Unset
  settled : ∀ c op, p.operations[c]? = some op → c ∈ p.executed → op.Settled
  executed_lt : ∀ c ∈ p.executed, c < p.operations.length
  never_raised : p.raised = []

variable {p : MySQLConnPool ρ} {w : Nat}

theorem Books.accepted_lt (h : Books p) {c : Nat} (hc : c ∈ p.accepted) : c < p.operations.length :=
  Nat.lt_of_lt_of_le (List.mem_range.mp hc) h.cancelled_le

theorem Books.submit (h : Books p) (call : SubmitCall) (sql : Bytes) : Books (p.submit call sql) := by
  have hlen : (p.operations ++ [call.operation sql]).length = p.operations.length + 1 := by simp
  refine ⟨?_, ?_, ?_, h.in_hand, h.one_hand, h.popped_done, h.executed_popped, h.once⟩
  · have horder := h.order
    have hstop := h.stopped
    unfold accepted at horder ⊢
    unfold MySQLConnPool.submit BlockingQueue.push
    dsimp only
    rw [hlen]
    cases hc : p.cancelledAt with
    | none =>
      rw [hc] at hstop horder
      rw [if_neg (by simp [hstop])]
      simp only [Option.getD_none] at horder ⊢
      rw [← List.append_assoc, horder, List.range_succ]
    | some n =>
      rw [hc] at hstop horder
      rw [if_pos (by simp [hstop])]
      exact horder
  · unfold MySQLConnPool.submit BlockingQueue.push
    dsimp only
    split
    · exact h.stopped
    · exact h.stopped
  · have hle := h.cancelled_le
    unfold MySQLConnPool.submit
    dsimp only
    rw [hlen]
    cases hc : p.cancelledAt with
    | none => exact Nat.le_refl _
    | some n =>
      rw [hc] at hle
      exact Nat.le_succ_of_le hle

theorem Promises.submit (h : Promises p) (call : SubmitCall) (sql : Bytes) :
    Promises (p.submit call sql) := by
  have hcases : ∀ c op, (p.operations ++ [call.operation sql])[c]? = some op →
      p.operations[c]? = some op ∨ c = p.operations.length ∧ op = call.operation sql := by
    intro c op hop
    rcases Nat.lt_trichotomy c p.operations.length with hlt | rfl | hgt
    · rw [List.getElem?_append_left hlt] at hop
      exact Or.inl hop
    · rw [List.getElem?_concat_length] at hop
      exact Or.inr ⟨rfl, (Option.some.inj hop).symm⟩
    · rw [List.getElem?_eq_none (by simp; omega)] at hop
      cases hop
  refine ⟨?_, ?_, ?_, ?_, h.never_raised⟩
  · intro op hop
    rcases List.mem_append.mp hop with hop | hop
    · exact h.handed op hop
    · rw [List.mem_singleton.mp hop]
      exact call.operation_handed sql
  · intro c op hop hno
    rcases hcases c op hop with hop | ⟨-, rfl⟩
    · exact h.waiting c op hop hno
    · exact call.operation_unset sql
  · intro c op hop hdone
    rcases hcases c op hop with hop | ⟨rfl, -⟩
    · exact h.settled c op hop hdone
    · exact absurd (h.executed_lt _ hdone) (Nat.lt_irrefl _)
  · intro c hc
    have hlt := h.executed_lt c hc
    show c < (p.operations ++ [call.operation sql]).length
    rw [List.length_append]
    omega

/-- A worker that has no task goes to a place where it has none. -/
theorem Books.move (h : Books p) {place : SqlWorkerPlace}
    (hold : ∀ c, (p.workers w).place ≠ .executing c) (hnew : ∀ c, place ≠ .executing c) :
    Books (p.setPlace w place) := by
  have hplace : ∀ w' c, ((p.setPlace w place).workers w').place = .executing c ↔
      (p.workers w').place = .executing c := by
    intro w' c
    by_cases hw : w' = w
    · subst hw
      simp [setPlace, hold c, hnew c]
    · simp [setPlace, hw]
  refine ⟨h.order, h.stopped, h.cancelled_le, ?_, ?_, ?_, h.executed_popped, h.once⟩
  · intro w' c hc
    exact h.in_hand w' c ((hplace w' c).mp hc)
  · intro w₁ w₂ c h₁ h₂
    exact h.one_hand w₁ w₂ c ((hplace w₁ c).mp h₁) ((hplace w₂ c).mp h₂)
  · intro c hc
    refine (h.popped_done c hc).imp_right ?_
    rintro ⟨w', hw'⟩
    exact ⟨w', (hplace w' c).mpr hw'⟩

/-- `Pop` hands out the oldest operation, which nobody has. -/
theorem Books.take (h : Books p) (hw : w < p.size) (hfree : ∀ c, (p.workers w).place ≠ .executing c)
    {c : Nat} {queue : BlockingQueue Nat} (hpop : p.queue.pop = some (some c, queue)) :
    Books ({ p with queue, popped := p.popped ++ [c] }.setPlace w (.executing c)) := by
  obtain ⟨hqueue, hstop⟩ := BlockingQueue.pop_true hpop
  have hnew : c ∉ p.popped := by
    have hnd : (p.popped ++ p.queue.queue).Nodup := by
      rw [h.order]
      exact List.nodup_range
    intro hmem
    exact (List.nodup_append.mp hnd).2.2 c hmem c (hqueue ▸ List.mem_cons_self) rfl
  have hplace : ∀ w' c', ((MySQLConnPool.setPlace w (.executing c)
      { p with queue, popped := p.popped ++ [c] }).workers w').place = .executing c' →
      (w' = w ∧ c' = c) ∨ (w' ≠ w ∧ (p.workers w').place = .executing c') := by
    intro w' c' hc'
    by_cases hww : w' = w
    · subst hww
      simp only [setPlace, Function.update_self, SqlWorkerPlace.executing.injEq] at hc'
      exact Or.inl ⟨rfl, hc'.symm⟩
    · simp only [setPlace, Function.update_of_ne hww] at hc'
      exact Or.inr ⟨hww, hc'⟩
  refine ⟨?_, hstop.trans h.stopped, h.cancelled_le, ?_, ?_, ?_, ?_, h.once⟩
  · show (p.popped ++ [c]) ++ queue.queue = p.accepted
    rw [← h.order, hqueue]
    simp
  · intro w' c' hc'
    rcases hplace w' c' hc' with ⟨rfl, rfl⟩ | ⟨-, hc'⟩
    · refine ⟨hw, List.mem_append_right _ List.mem_cons_self, ?_⟩
      exact fun hdone => hnew (h.executed_popped _ hdone)
    · obtain ⟨hlt, hpopped, hno⟩ := h.in_hand w' c' hc'
      exact ⟨hlt, List.mem_append_left _ hpopped, hno⟩
  · intro w₁ w₂ c' h₁ h₂
    rcases hplace w₁ c' h₁ with ⟨rfl, rfl⟩ | ⟨-, h₁'⟩ <;>
      rcases hplace w₂ _ h₂ with ⟨rfl, hcc⟩ | ⟨-, h₂'⟩
    · rfl
    · exact absurd (h.in_hand w₂ _ h₂').2.1 hnew
    · exact absurd (hcc ▸ (h.in_hand w₁ _ h₁').2.1) hnew
    · exact h.one_hand w₁ w₂ c' h₁' h₂'
  · intro c' hc'
    rcases List.mem_append.mp hc' with hc' | hc'
    · refine (h.popped_done c' hc').imp_right ?_
      rintro ⟨w', hw'⟩
      have hne : w' ≠ w := by
        rintro rfl
        exact hfree c' hw'
      refine ⟨w', ?_⟩
      simp only [setPlace, Function.update_of_ne hne]
      exact hw'
    · refine Or.inr ⟨w, ?_⟩
      simp [setPlace, List.mem_singleton.mp hc']
  · intro c' hc'
    exact List.mem_append_left _ (h.executed_popped c' hc')

theorem Books.execute (h : Books p) {c : Nat} (hc : (p.workers w).place = .executing c)
    (op : SQLOperation ρ) (raised : List Nat) :
    Books ({ p with
      operations := p.operations.set c op
      executed := p.executed ++ [c]
      raised := raised }.setPlace w .testing) := by
  obtain ⟨-, hpopped, hno⟩ := h.in_hand w c hc
  have hplace : ∀ w' c', ((MySQLConnPool.setPlace w .testing { p with
      operations := p.operations.set c op
      executed := p.executed ++ [c]
      raised := raised }).workers w').place = .executing c' ↔
      w' ≠ w ∧ (p.workers w').place = .executing c' := by
    intro w' c'
    by_cases hww : w' = w
    · subst hww
      simp [setPlace]
    · simp [setPlace, hww]
  refine ⟨?_, h.stopped, ?_, ?_, ?_, ?_, ?_, ?_⟩
  · show p.popped ++ p.queue.queue = List.range (p.cancelledAt.getD (p.operations.set c op).length)
    rw [List.length_set]
    exact h.order
  · show p.cancelledAt.getD (p.operations.set c op).length ≤ (p.operations.set c op).length
    rw [List.length_set]
    exact h.cancelled_le
  · intro w' c' hc'
    obtain ⟨hne, hc'⟩ := (hplace w' c').mp hc'
    obtain ⟨hlt, hpopped', hno'⟩ := h.in_hand w' c' hc'
    refine ⟨hlt, hpopped', ?_⟩
    intro hmem
    rcases List.mem_append.mp hmem with hmem | hmem
    · exact hno' hmem
    · exact hne (h.one_hand w' w c' hc' (List.mem_singleton.mp hmem ▸ hc))
  · intro w₁ w₂ c' h₁ h₂
    exact h.one_hand w₁ w₂ c' ((hplace w₁ c').mp h₁).2 ((hplace w₂ c').mp h₂).2
  · intro c' hc'
    rcases h.popped_done c' hc' with hdone | ⟨w', hw'⟩
    · exact Or.inl (List.mem_append_left _ hdone)
    · by_cases hww : w' = w
      · subst hww
        rw [hc] at hw'
        cases hw'
        exact Or.inl (List.mem_append_right _ List.mem_cons_self)
      · exact Or.inr ⟨w', (hplace w' c').mpr ⟨hww, hw'⟩⟩
  · intro c' hc'
    rcases List.mem_append.mp hc' with hc' | hc'
    · exact h.executed_popped c' hc'
    · rw [List.mem_singleton.mp hc']
      exact hpopped
  · refine List.nodup_append.mpr ⟨h.once, List.nodup_singleton c, ?_⟩
    intro a ha b hb heq
    exact hno (List.mem_singleton.mp hb ▸ heq ▸ ha)

theorem Promises.execute (h : Promises p) {c : Nat} {op : SQLOperation ρ}
    (hop : p.operations[c]? = some op) (hno : c ∉ p.executed) (conn : MySQLConn ρ) :
    Promises ({ p with
      operations := p.operations.set c (op.execute conn).1
      executed := p.executed ++ [c]
      raised := if (op.execute conn).2 then p.raised else p.raised ++ [c] }.setPlace w .testing) := by
  have hlt : c < p.operations.length := (List.getElem?_eq_some_iff.mp hop).1
  obtain ⟨hok, hhanded, hsettled⟩ := SQLOperation.execute_settled
    (h.handed op (List.mem_of_getElem? hop)) (h.waiting c op hop hno) conn
  refine ⟨?_, ?_, ?_, ?_, ?_⟩
  · intro op' hop'
    rcases List.mem_or_eq_of_mem_set hop' with hop' | rfl
    · exact h.handed op' hop'
    · exact hhanded
  · intro c' op' hop' hno'
    have hne : c ≠ c' := by
      rintro rfl
      exact hno' (List.mem_append_right _ List.mem_cons_self)
    refine h.waiting c' op' ((List.getElem?_set_ne hne).symm.trans hop') ?_
    exact fun hmem => hno' (List.mem_append_left _ hmem)
  · intro c' op' hop' hdone
    by_cases hcc : c = c'
    · subst hcc
      have hnew : (p.operations.set c (op.execute conn).1)[c]? = some (op.execute conn).1 :=
        List.getElem?_set_self hlt
      cases hnew.symm.trans hop'
      exact hsettled
    · refine h.settled c' op' ((List.getElem?_set_ne hcc).symm.trans hop') ?_
      rcases List.mem_append.mp hdone with hdone | hdone
      · exact hdone
      · exact absurd (List.mem_singleton.mp hdone).symm hcc
  · intro c' hc'
    show c' < (p.operations.set c (op.execute conn).1).length
    rw [List.length_set]
    rcases List.mem_append.mp hc' with hc' | hc'
    · exact h.executed_lt c' hc'
    · rw [List.mem_singleton.mp hc']
      exact hlt
  · show (if (op.execute conn).2 then p.raised else p.raised ++ [c]) = []
    rw [if_pos hok]
    exact h.never_raised

theorem Books.cancel (h : Books p) : Books p.cancel := by
  refine ⟨?_, rfl, ?_, h.in_hand, h.one_hand, h.popped_done, h.executed_popped, h.once⟩
  · exact h.order
  · exact h.cancelled_le

theorem Promises.cancel (h : Promises p) : Promises p.cancel :=
  ⟨h.handed, h.waiting, h.settled, h.executed_lt, h.never_raised⟩

/-- A step of `Shutdown` behind its `Cancel` gives and takes no task. -/
theorem Books.shutdown (h : Books p) {workers : Nat → SqlWorker} {place : ShutdownPlace}
    (hplace : ∀ w, (workers w).place = (p.workers w).place) :
    Books { p with workers, shutdown := place } := by
  refine ⟨h.order, h.stopped, h.cancelled_le, ?_, ?_, ?_, h.executed_popped, h.once⟩
  · intro w c hc
    exact h.in_hand w c ((hplace w).symm.trans hc)
  · intro w₁ w₂ c h₁ h₂
    exact h.one_hand w₁ w₂ c ((hplace w₁).symm.trans h₁) ((hplace w₂).symm.trans h₂)
  · intro c hc
    refine (h.popped_done c hc).imp_right ?_
    rintro ⟨w, hw⟩
    exact ⟨w, (hplace w).trans hw⟩

theorem Promises.of_same (h : Promises p) {p' : MySQLConnPool ρ}
    (hops : p'.operations = p.operations) (hexec : p'.executed = p.executed)
    (hraised : p'.raised = p.raised) : Promises p' := by
  refine ⟨?_, ?_, ?_, ?_, hraised.trans h.never_raised⟩
  · rw [hops]
    exact h.handed
  · rw [hops, hexec]
    exact h.waiting
  · rw [hops, hexec]
    exact h.settled
  · rw [hops, hexec]
    exact h.executed_lt

theorem books_clearRunning (h : Books p) : Books p.clearRunning := by
  unfold clearRunning
  split
  next w hw =>
    refine h.shutdown ?_
    intro w'
    by_cases hww : w' = w
    · subst hww
      rw [Function.update_self]
    · rw [Function.update_of_ne hww]
  next => exact h

theorem books_join (h : Books p) : Books p.join := by
  unfold join
  split
  next => exact h.shutdown fun _ => rfl
  next => exact h

theorem books_beginShutdown (h : Books p) : Books p.beginShutdown := by
  unfold beginShutdown
  split
  · exact h.shutdown fun _ => rfl
  · exact h.cancel.shutdown fun _ => rfl

theorem books_pop (h : Books p) (hw : w < p.size) (hplace : (p.workers w).place = .popping) :
    Books (p.pop w) := by
  have hfree : ∀ c, (p.workers w).place ≠ .executing c := by simp [hplace]
  unfold pop
  split
  next => exact h
  next queue hpop =>
    obtain ⟨-, -, rfl⟩ := BlockingQueue.pop_false hpop
    exact h.move hfree fun c heq => nomatch heq
  next c queue hpop => exact h.take hw hfree hpop

theorem promises_keep_pop (h : Promises p) : Promises (p.pop w) := by
  unfold pop
  split <;> exact h.of_same rfl rfl rfl

theorem promises_keep_shutdown (h : Promises p) :
    Promises p.beginShutdown ∧ Promises p.clearRunning ∧ Promises p.join := by
  refine ⟨?_, ?_, ?_⟩
  · unfold beginShutdown
    split <;> exact h.of_same rfl rfl rfl
  · unfold clearRunning
    split <;> exact h.of_same rfl rfl rfl
  · unfold join
    split <;> exact h.of_same rfl rfl rfl

theorem invariant_execute (h : Books p ∧ Promises p) {c : Nat} {conn : MySQLConn ρ}
    (hc : (p.workers w).place = .executing c) :
    Books (p.execute w conn) ∧ Promises (p.execute w conn) := by
  obtain ⟨-, hpopped, hno⟩ := h.1.in_hand w c hc
  have hlt : c < p.operations.length := by
    refine h.1.accepted_lt ?_
    rw [← h.1.order]
    exact List.mem_append_left _ hpopped
  have hop : p.operations[c]? = some p.operations[c] := List.getElem?_eq_getElem hlt
  unfold MySQLConnPool.execute
  rw [hc]
  dsimp only
  rw [hop]
  exact ⟨h.1.execute hc _ _, h.2.execute hop hno conn⟩

theorem invariant_of_reachable (h : (system ρ).Reachable p) : Books p ∧ Promises p := by
  refine h.invariant (P := fun p => Books p ∧ Promises p) ?_ ?_
  · rintro p ⟨size, rfl⟩
    refine ⟨⟨rfl, rfl, Nat.le_refl _, ?_, ?_, ?_, ?_, List.nodup_nil⟩, ?_, ?_, ?_, ?_, rfl⟩
    · rintro w c ⟨⟩
    · rintro w w' c ⟨⟩
    · rintro c ⟨⟩
    · rintro c ⟨⟩
    · rintro op ⟨⟩
    · intro c op hop
      simp [new] at hop
    · rintro c op - ⟨⟩
    · rintro c ⟨⟩
  · rintro step p hp ⟨hb, hpr⟩
    cases step with
    | submit call sql => exact ⟨hb.submit call sql, hpr.submit call sql⟩
    | testRunning w =>
      refine ⟨hb.move (by simp [hp.2]) ?_, hpr.of_same rfl rfl rfl⟩
      intro c
      split <;> exact fun heq => nomatch heq
    | pop w => exact ⟨books_pop hb hp.1 hp.2.1, promises_keep_pop hpr⟩
    | execute w conn =>
      obtain ⟨-, c, hc⟩ := hp
      exact invariant_execute ⟨hb, hpr⟩ hc
    | cancel => exact ⟨hb.cancel, hpr.cancel⟩
    | shutdown => exact ⟨books_beginShutdown hb, (promises_keep_shutdown hpr).1⟩
    | clearRunning => exact ⟨books_clearRunning hb, (promises_keep_shutdown hpr).2.1⟩
    | join => exact ⟨books_join hb, (promises_keep_shutdown hpr).2.2⟩

/-- What the workers make of what was submitted. -/
structure Dispatched (p : MySQLConnPool ρ) : Prop where
  order : p.popped ++ p.queue.queue = p.accepted
  once : p.executed.Nodup ∧ ∀ c ∈ p.executed, c ∈ p.popped
  refused : ∀ queue, p.queue.pop = some (none, queue) →
    p.queue.stopped = true ∧ p.queue.queue = []
  handed : ∀ op ∈ p.operations, op.Handed
  settled : ∀ c ∈ p.executed, ∃ op, p.operations[c]? = some op ∧ op.Settled
  untouched : ∀ c op, p.operations[c]? = some op → c ∉ p.executed → op.Unset
  never_raised : p.raised = []

theorem dispatched_of_reachable (h : (system ρ).Reachable p) : p.Dispatched := by
  obtain ⟨hb, hpr⟩ := invariant_of_reachable h
  refine ⟨hb.order, ⟨hb.once, hb.executed_popped⟩, ?_, hpr.handed, ?_, hpr.waiting,
    hpr.never_raised⟩
  · intro queue hpop
    obtain ⟨hstop, hnil, -⟩ := BlockingQueue.pop_false hpop
    exact ⟨hstop, hnil⟩
  · intro c hc
    have hlt := hpr.executed_lt c hc
    have hop : p.operations[c]? = some p.operations[c] := List.getElem?_eq_getElem hlt
    exact ⟨_, hop, hpr.settled c _ hop hc⟩

/-- A connection on which every call raises something that is no `SQLException`. -/
def brokenConn : MySQLConn Nat := ⟨true, .otherException, .otherException, .otherException⟩

/-- Two statements, the second executed on a broken connection, and one after `Cancel`. -/
def twoStatements : List (PoolStep Nat) := [
  .submit .submitQuery (ascii "a"), .submit .submitUpdate (ascii "b"), .cancel,
  .submit .submitExec (ascii "c"), .testRunning 0, .pop 0,
  .execute 0 ⟨true, .value (some 7), .sqlException, .sqlException⟩, .testRunning 1, .pop 1,
  .execute 1 brokenConn]

theorem dispatched_of_reachable_twoStatements :
    let p := (system Nat).run twoStatements (new 2)
    p.popped = [0, 1] ∧ p.executed = [0, 1] ∧ p.accepted = [0, 1] ∧
      p.operations.map (fun op => (op.promise.value, op.promiseBool.value, op.promiseInt.value)) =
        [(some (some 7), none, none), (none, none, some (-1)), (none, none, none)] ∧
      p.Dispatched := by
  intro p
  have h0 : (system Nat).Reachable (new 2) := .init ⟨2, rfl⟩
  have hp : (system Nat).Permits twoStatements (new 2) :=
    ⟨trivial, trivial, trivial, trivial, ⟨Nat.zero_lt_two, rfl⟩, ⟨Nat.zero_lt_two, rfl, Or.inr rfl⟩,
      ⟨Nat.zero_lt_two, 0, rfl⟩, ⟨Nat.one_lt_two, rfl⟩, ⟨Nat.one_lt_two, rfl, Or.inr rfl⟩,
      ⟨Nat.one_lt_two, 1, rfl⟩, trivial⟩
  exact ⟨by decide, by decide, by decide, by decide, dispatched_of_reachable (h0.run hp)⟩

end MySQLConnPool

end MuduoPlus
