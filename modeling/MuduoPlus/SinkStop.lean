import MuduoPlus.ActionSystem
import MuduoPlus.AsyncFileSink

namespace MuduoPlus

/-- The call of `stop`, with the numbers of the lines whose `submit` had returned by then. -/
inductive StopPlace where
  | notCalled
  | joining (before : List Nat)
  | returned (before : List Nat)
  deriving DecidableEq, Repr

def StopPlace.before : StopPlace → List Nat
  | .notCalled => []
  | .joining before => before
  | .returned before => before

/-- A sink with the threads that call `submit` and the one that calls `stop`. Lines are numbered
in the order of their exchanges of `tail_`. -/
structure SinkRun (τ : Type) where
  sink : AsyncFileSink
  places : τ → EnqueuePlace
  notifying : τ → Bool
  number : τ → Nat
  exchanged : List Bytes
  returned : List Nat
  stop : StopPlace

inductive SinkStep (τ : Type) where
  | alloc (t : τ) (n : Nat) (line : Bytes)
  | exchange (t : τ)
  | storeNext (t : τ)
  | notify (t : τ)
  | worker (w : WorkerStep)
  | callStop
  | join

namespace SinkRun

open MPSCAtomicQueue

variable {τ : Type} [DecidableEq τ]

def apply : SinkStep τ → SinkRun τ → SinkRun τ
  | .alloc t n line, r =>
    { r with
      sink := r.sink.onQueue (MPSCAtomicQueue.alloc n line)
      places := Function.update r.places t (.allocated n) }
  | .exchange t, r =>
    match r.places t with
    | .allocated n =>
      { r with
        sink := r.sink.onQueue (MPSCAtomicQueue.exchange n)
        places := Function.update r.places t (.exchanged r.sink.queue.tail n)
        number := Function.update r.number t r.exchanged.length
        exchanged := r.exchanged ++ ((r.sink.queue.heap n).map Node.v).toList }
    | _ => r
  | .storeNext t, r =>
    match r.places t with
    | .exchanged p n =>
      { r with
        sink := r.sink.onQueue (MPSCAtomicQueue.storeNext p n)
        places := Function.update r.places t .idle
        notifying := Function.update r.notifying t true }
    | _ => r
  | .notify t, r =>
    { r with
      notifying := Function.update r.notifying t false
      returned := r.returned ++ [r.number t] }
  | .worker w, r => { r with sink := r.sink.workerStep w }
  | .callStop, r => { r with sink := { r.sink with running := false }, stop := .joining r.returned }
  | .join, r => { r with sink := { r.sink with fdOpen := false }, stop := .returned r.stop.before }

/-- Any number of threads that submit, the worker, and one call of `stop`, whose `join` waits for
the end of `run`. -/
def system (τ : Type) [DecidableEq τ] : ActionSystem (SinkRun τ) (SinkStep τ) where
  init r := ∃ syncBytes stub, r = ⟨.new syncBytes stub, fun _ => .idle, fun _ => false, fun _ => 0, [],
    [], .notCalled⟩
  permitted
    | .alloc t n _, r => r.places t = .idle ∧ r.notifying t = false ∧ r.sink.queue.heap n = none
    | .exchange t, r => ∃ n, r.places t = .allocated n
    | .storeNext t, r => ∃ p n, r.places t = .exchanged p n
    | .notify t, r => r.notifying t = true
    | .worker w, r => r.sink.WorkerAt w
    | .callStop, r => r.stop = .notCalled
    | .join, r => (∃ before, r.stop = .joining before) ∧ r.sink.worker = .exited
  apply := apply

/-- When the drain after the loop loads `head_->next`, no `enqueue` stands between its exchange
and its store into `head_`. -/
def DrainUnbroken : SinkStep τ → SinkRun τ → Prop
  | .worker .loadNext, r => r.sink.worker = .dequeuing true →
    ∀ t n, r.places t ≠ .exchanged r.sink.queue.head n
  | _, _ => True

/-- The worker is past the loop. -/
def PastLoop : WorkerPlace → Prop
  | .dequeuing last => last = true
  | .loaded last _ => last = true
  | .finishing => True
  | .exited => True
  | _ => False

structure Inv (r : SinkRun τ) (taken : List Bytes) (es : List (QueueEntry τ Bytes)) : Prop where
  books : r.sink.Books r.places r.exchanged [] taken es
  storing : ∀ t p n, r.places t = .exchanged p n → r.number t < r.exchanged.length
  notifying : ∀ t, r.notifying t = true → r.number t < r.exchanged.length
  returned : ∀ i ∈ r.returned ++ r.stop.before, i < r.exchanged.length
  running : r.sink.running = true ↔ r.stop = .notCalled
  past_loop : PastLoop r.sink.worker → r.stop ≠ .notCalled
  drained : r.sink.worker = .finishing ∨ r.sink.worker = .exited →
    ∀ i ∈ r.stop.before, i < taken.length
  joined : ∀ before, r.stop = .returned before → r.sink.worker = .exited

variable {r : SinkRun τ} {taken : List Bytes} {es : List (QueueEntry τ Bytes)} {t : τ} {p n : Nat}

theorem Inv.alloc (h : Inv r taken es) (ht : r.places t = .idle)
    (hn : r.sink.queue.heap n = none) (line : Bytes) : Inv (apply (.alloc t n line) r) taken es := by
  refine ⟨h.books.alloc ht hn line, ?_, h.notifying, h.returned, h.running, h.past_loop, h.drained,
    h.joined⟩
  intro t' p' n' hp
  by_cases htt : t' = t
  · subst htt
    have hself : Function.update r.places t' (.allocated n) t' = .exchanged p' n' := hp
    rw [Function.update_self] at hself
    cases hself
  · exact h.storing t' p' n' ((Function.update_of_ne htt _ _).symm.trans hp)

theorem Inv.exchange (h : Inv r taken es) (ht : r.places t = .allocated n) :
    ∃ es', Inv (apply (.exchange t) r) taken es' := by
  obtain ⟨-, line, hline⟩ := h.books.holds.fresh t n ht
  refine ⟨es ++ [⟨n, line, some t⟩], ?_⟩
  have hbooks := h.books.exchange ht hline
  have hlen : (r.exchanged ++ [line]).length = r.exchanged.length + 1 := by simp
  -- the numbers given before stay below the new length, and the new one is the old length
  have hnumber : ∀ t', r.number t' < r.exchanged.length ∨ t' = t →
      Function.update r.number t r.exchanged.length t' < (r.exchanged ++ [line]).length := by
    intro t' ht'
    rw [hlen]
    by_cases htt : t' = t
    · subst htt
      rw [Function.update_self]
      exact Nat.lt_succ_self _
    · rw [Function.update_of_ne htt]
      have hlt := ht'.resolve_right htt
      omega
  unfold apply
  dsimp only
  rw [ht]
  dsimp only
  rw [hline]
  refine ⟨hbooks, ?_, ?_, ?_, h.running, h.past_loop, h.drained, h.joined⟩
  · intro t' p' n' hp
    refine hnumber t' ?_
    by_cases htt : t' = t
    · exact Or.inr htt
    · exact Or.inl (h.storing t' p' n' ((Function.update_of_ne htt _ _).symm.trans hp))
  · intro t' hn'
    exact hnumber t' (Or.inl (h.notifying t' hn'))
  · intro i hi
    have hlt := h.returned i hi
    show i < (r.exchanged ++ [line]).length
    omega

theorem Inv.storeNext (h : Inv r taken es) (ht : r.places t = .exchanged p n) :
    ∃ es', Inv (apply (.storeNext t) r) taken es' := by
  refine ⟨es.map (clearWriter t), ?_⟩
  have hbooks := h.books.storeNext ht
  unfold apply
  dsimp only
  rw [ht]
  refine ⟨hbooks, ?_, ?_, h.returned, h.running, h.past_loop, h.drained, h.joined⟩
  · intro t' p' n' hp
    by_cases htt : t' = t
    · rw [htt]
      exact h.storing t p n ht
    · exact h.storing t' p' n' ((Function.update_of_ne htt _ _).symm.trans hp)
  · intro t' hn'
    by_cases htt : t' = t
    · rw [htt]
      exact h.storing t p n ht
    · exact h.notifying t' ((Function.update_of_ne htt _ _).symm.trans hn')

theorem Inv.notify (h : Inv r taken es) (ht : r.notifying t = true) :
    Inv (apply (.notify t) r) taken es := by
  refine ⟨h.books, h.storing, ?_, ?_, h.running, h.past_loop, h.drained, h.joined⟩
  · intro t' hn'
    by_cases htt : t' = t
    · rw [htt]
      exact h.notifying t ht
    · exact h.notifying t' ((Function.update_of_ne htt _ _).symm.trans hn')
  · intro i hi
    have hmem : i ∈ r.returned ++ r.stop.before ∨ i = r.number t := by
      simp only [apply, List.mem_append, List.mem_singleton] at hi ⊢
      tauto
    rcases hmem with hmem | rfl
    · exact h.returned i hmem
    · exact h.notifying t ht

/-- The worker leaves the loop only after `stop` has been called. -/
theorem pastLoop_of_move {s s' : AsyncFileSink} (h : AsyncFileSink.WorkerMove s s')
    (hpast : PastLoop s'.worker) : PastLoop s.worker ∨ s.running = false := by
  cases h with
  | tested hat hto hbuf =>
    rw [hto] at hpast
    exact Or.inr (by simpa [PastLoop] using hpast)
  | foundNone last hat hnone hto hbuf =>
    rw [hto] at hpast
    cases last with
    | true => exact Or.inl (by simp [hat, PastLoop])
    | false => exact hpast.elim
  | found last next hat hsome hto hbuf =>
    rw [hto] at hpast
    exact Or.inl (by simpa [hat, PastLoop] using hpast)
  | took last next hat hto =>
    rw [hto] at hpast
    cases last with
    | true => exact Or.inl (by simp [hat, PastLoop])
    | false => exact hpast.elim
  | synced hat hto hbuf =>
    rw [hto] at hpast
    exact hpast.elim
  | finished hat hto hbuf => exact Or.inl (by simp [hat, PastLoop])

/-- The drain ends where the queue looks empty. -/
theorem drained_of_move {s s' : AsyncFileSink} (h : AsyncFileSink.WorkerMove s s')
    (hend : s'.worker = .finishing ∨ s'.worker = .exited) :
    s.worker = .finishing ∨ (s.worker = .dequeuing true ∧ s.queue.loadNext = none) := by
  cases h with
  | tested hat hto hbuf => simp [hto] at hend
  | foundNone last hat hnone hto hbuf =>
    cases last with
    | true => exact Or.inr ⟨hat, hnone⟩
    | false => simp [hto] at hend
  | found last next hat hsome hto hbuf => simp [hto] at hend
  | took last next hat hto => cases last <;> simp [hto] at hend
  | synced hat hto hbuf => simp [hto] at hend
  | finished hat hto hbuf => exact Or.inl hat

theorem Inv.worker (h : Inv r taken es) {w : WorkerStep} (hw : r.sink.WorkerAt w)
    (hunbroken : DrainUnbroken (.worker w) r) :
    ∃ taken' es', Inv (apply (.worker w) r) taken' es' := by
  obtain ⟨taken', es', hbooks, hmoves, hkept⟩ := h.books.workerStep hw fun _ _ _ => rfl
  refine ⟨taken', es', hbooks, h.storing, h.notifying, h.returned, ?_, ?_, ?_, ?_⟩
  · show (r.sink.workerStep w).running = true ↔ _
    rw [hmoves.running]
    exact h.running
  · intro hpast hstop
    rcases pastLoop_of_move hmoves.move hpast with hloop | hrun
    · exact h.past_loop hloop hstop
    · rw [h.running.mpr hstop] at hrun
      cases hrun
  · intro hend
    rcases drained_of_move hmoves.move hend with hat | ⟨hat, hnone⟩
    · obtain ⟨rfl, rfl⟩ := hkept (by simp [hat])
      exact h.drained (Or.inl hat)
    · -- the queue is empty, or the line in front of it has not been stored
      obtain ⟨rfl, rfl⟩ := hkept (by simp [hat])
      intro i hi
      rcases h.books.holds.loadNext_none hnone with rfl | ⟨e, rest, t, -, -, hp⟩
      · have hlt := h.returned i (List.mem_append_right _ hi)
        rw [h.books.values] at hlt
        simpa using hlt
      · obtain rfl := AsyncFileSink.workerAt_dequeuing hw hat
        exact absurd hp (hunbroken hat t e.addr)
  · intro before hstop
    exact absurd (h.joined before hstop) hmoves.move.not_exited

theorem Inv.callStop (h : Inv r taken es) (hstop : r.stop = .notCalled) :
    Inv (apply .callStop r) taken es := by
  have hloop : ¬ PastLoop r.sink.worker := fun hp => h.past_loop hp hstop
  refine ⟨⟨h.books.holds, h.books.values, h.books.written, h.books.valid, h.books.open_fd,
    h.books.loaded⟩, h.storing, h.notifying, ?_, ?_, ?_, ?_, ?_⟩
  · intro i hi
    have hmem : i ∈ r.returned := by simpa [apply, StopPlace.before] using hi
    exact h.returned i (List.mem_append_left _ hmem)
  · constructor <;> rintro ⟨⟩
  · rintro - ⟨⟩
  · intro hplace
    refine absurd ?_ hloop
    show PastLoop r.sink.worker
    rcases hplace with heq | heq
    · rw [show r.sink.worker = .finishing from heq]
      trivial
    · rw [show r.sink.worker = .exited from heq]
      trivial
  · rintro before ⟨⟩

theorem Inv.join (h : Inv r taken es) {before : List Nat} (hstop : r.stop = .joining before)
    (hexit : r.sink.worker = .exited) : Inv (apply .join r) taken es := by
  refine ⟨⟨h.books.holds, h.books.values, h.books.written, h.books.valid,
    fun hne => absurd hexit hne, h.books.loaded⟩, h.storing, h.notifying, h.returned, ?_, ?_,
    h.drained, fun _ _ => hexit⟩
  · refine ⟨fun hrun => ?_, fun hnot => nomatch hnot⟩
    have hnot := h.running.mp hrun
    rw [hstop] at hnot
    cases hnot
  · rintro - ⟨⟩

theorem inv_of_reachable (h : ((system τ).restrict DrainUnbroken).Reachable r) :
    ∃ taken es, Inv r taken es := by
  refine h.invariant (P := fun r => ∃ taken es, Inv r taken es) ?_ ?_
  · rintro r ⟨syncBytes, stub, rfl⟩
    refine ⟨[], [], AsyncFileSink.books_new syncBytes stub, ?_, ?_, ?_,
      ⟨fun _ => rfl, fun _ => rfl⟩, fun hp => hp.elim, ?_, ?_⟩
    · rintro t p n ⟨⟩
    · rintro t ⟨⟩
    · rintro i ⟨⟩
    · rintro (heq | heq) <;> cases heq
    · rintro before ⟨⟩
  · rintro step r ⟨hp, hc⟩ ⟨taken, es, hi⟩
    cases step with
    | alloc t n line => exact ⟨taken, es, hi.alloc hp.1 hp.2.2 line⟩
    | exchange t =>
      obtain ⟨n, ht⟩ := hp
      exact ⟨taken, hi.exchange ht⟩
    | storeNext t =>
      obtain ⟨p, n, ht⟩ := hp
      exact ⟨taken, hi.storeNext ht⟩
    | notify t => exact ⟨taken, es, hi.notify hp⟩
    | worker w => exact hi.worker hp hc
    | callStop => exact ⟨taken, es, hi.callStop hp⟩
    | join =>
      obtain ⟨⟨before, hstop⟩, hexit⟩ := hp
      exact ⟨taken, es, hi.join hstop hexit⟩

/-- The file after `stop`: the first lines in the order of their exchanges, and among them all
whose `submit` had returned. -/
def Complete (r : SinkRun τ) : Prop :=
  ∀ before, r.stop = .returned before → ∃ k ≤ r.exchanged.length,
    r.sink.file = (r.exchanged.take k).flatten ∧ ∀ i ∈ before, i < k

/-- When no unfinished `enqueue` hides lines from the last drain, `stop` loses none. -/
theorem complete_of_drainUnbroken (h : ((system τ).restrict DrainUnbroken).Reachable r) :
    r.Complete := by
  intro before hstop
  obtain ⟨taken, es, hi⟩ := inv_of_reachable h
  have hexit := hi.joined before hstop
  have hwritten := hi.books.written
  rw [AsyncFileSink.unwritten, if_pos hexit] at hwritten
  refine ⟨taken.length, ?_, ?_, ?_⟩
  · rw [hi.books.values, List.length_append]
    exact Nat.le_add_right _ _
  · rw [hi.books.values, List.take_left]
    simpa using hwritten
  · intro i hmem
    refine hi.drained (Or.inr hexit) i ?_
    rw [hstop]
    exact hmem

def start : SinkRun Bool :=
  ⟨.new 1024 0, fun _ => .idle, fun _ => false, fun _ => 0, [], [], .notCalled⟩

/-- A line is submitted and `stop` is called before the worker sees it. -/
def submitThenStop : List (SinkStep Bool) := [
  .alloc true 1 (ascii "a"), .exchange true, .storeNext true, .notify true, .callStop,
  .worker .testRunning, .worker .loadNext, .worker .take, .worker .loadNext, .worker .finish, .join]

theorem complete_of_drainUnbroken_submitThenStop :
    let r := (system Bool).run submitThenStop start
    r.stop = .returned [0] ∧ r.exchanged = [ascii "a"] ∧ r.Complete := by
  intro r
  have h0 : ((system Bool).restrict DrainUnbroken).Reachable start := .init ⟨1024, 0, rfl⟩
  have hp : ((system Bool).restrict DrainUnbroken).Permits submitThenStop start := by
    refine ⟨⟨⟨rfl, rfl, rfl⟩, trivial⟩, ⟨⟨1, rfl⟩, trivial⟩, ⟨⟨0, 1, rfl⟩, trivial⟩, ⟨rfl, trivial⟩,
      ⟨rfl, trivial⟩, ⟨rfl, trivial⟩, ⟨⟨true, rfl⟩, ?_⟩, ⟨⟨true, 1, rfl⟩, trivial⟩, ⟨⟨true, rfl⟩, ?_⟩,
      ⟨rfl, trivial⟩, ⟨⟨⟨[0], rfl⟩, rfl⟩, trivial⟩, trivial⟩
    · intro _ t n
      cases t <;> exact fun heq => nomatch heq
    · intro _ t n
      cases t <;> exact fun heq => nomatch heq
  exact ⟨rfl, rfl, complete_of_drainUnbroken (h0.run hp)⟩

/-- A second thread submits behind the exchange of a first one that has not stored yet. -/
def overtakenStore : List (SinkStep Bool) := [
  .alloc true 1 (ascii "a"), .exchange true, .alloc false 2 (ascii "b"), .exchange false,
  .storeNext false, .notify false, .callStop, .worker .testRunning, .worker .loadNext,
  .worker .finish, .join]

/-- The drain sees no line and ends; the line that was submitted behind the gap is lost. -/
theorem submitted_line_lost : ∃ r : SinkRun Bool, (system Bool).Reachable r ∧
    r.exchanged = [ascii "a", ascii "b"] ∧ r.stop = .returned [1] ∧ r.sink.file = [] ∧
      ¬ r.Complete := by
  have h0 : (system Bool).Reachable start := .init ⟨1024, 0, rfl⟩
  have hp : (system Bool).Permits overtakenStore start :=
    ⟨⟨rfl, rfl, rfl⟩, ⟨1, rfl⟩, ⟨rfl, rfl, rfl⟩, ⟨2, rfl⟩, ⟨1, 2, rfl⟩, rfl, rfl, rfl, ⟨true, rfl⟩, rfl,
      ⟨⟨[1], rfl⟩, rfl⟩, trivial⟩
  have hend : let r := (system Bool).run overtakenStore start
      r.exchanged = [ascii "a", ascii "b"] ∧ r.stop = .returned [1] ∧ r.sink.file = [] := by
    decide +kernel
  refine ⟨_, h0.run hp, hend.1, hend.2.1, hend.2.2, ?_⟩
  intro hc
  obtain ⟨k, hk, hfile, hall⟩ := hc [1] hend.2.1
  have hlt := hall 1 List.mem_cons_self
  rw [hend.1] at hk hfile
  have htwo : k = 2 := Nat.le_antisymm hk hlt
  rw [hend.2.2, htwo] at hfile
  exact absurd hfile (by decide)

end SinkRun

end MuduoPlus
