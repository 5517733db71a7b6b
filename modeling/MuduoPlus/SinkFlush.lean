import MuduoPlus.ActionSystem
import MuduoPlus.AsyncFileSink

namespace MuduoPlus

inductive LogLevel where
  | trace
  | debug
  | info
  | warn
  | error
  | fatal
  deriving DecidableEq, Repr

/-- Where the logging thread stands: outside, in `submit` for `Logger::log`, in the drain of
`flush_all_now`, in its writes, after it; `fatal` when `Logger::log` called it, to abort. -/
inductive LoggingPlace where
  | outside
  | submitting (level : LogLevel)
  | draining (fatal : Bool)
  | drainLoaded (fatal : Bool) (next : Nat)
  | writing (fatal : Bool)
  | flushed (fatal : Bool)
  | aborted
  deriving DecidableEq, Repr

/-- A sink with one thread that logs; `submitted` are its lines in order, `tmp` the deque of
`flush_all_now`. -/
structure FlushRun where
  sink : AsyncFileSink
  places : Unit → EnqueuePlace
  thread : LoggingPlace
  tmp : List Bytes
  submitted : List Bytes

inductive FlushStep where
  | log (level : LogLevel) (n : Nat) (line : Bytes)
  | exchange
  | storeNext
  | notify
  | callFlush
  | loadNext
  | take
  | write
  | sync
  | abort
  | worker (w : WorkerStep)

namespace FlushRun

open MPSCAtomicQueue

def apply : FlushStep → FlushRun → FlushRun
  | .log level n line, r =>
    { r with
      sink := r.sink.onQueue (MPSCAtomicQueue.alloc n line)
      places := Function.update r.places () (.allocated n)
      thread := .submitting level }
  | .exchange, r =>
    match r.places () with
    | .allocated n =>
      { r with
        sink := r.sink.onQueue (MPSCAtomicQueue.exchange n)
        places := Function.update r.places () (.exchanged r.sink.queue.tail n)
        submitted := r.submitted ++ ((r.sink.queue.heap n).map Node.v).toList }
    | _ => r
  | .storeNext, r =>
    match r.places () with
    | .exchanged p n =>
      { r with
        sink := r.sink.onQueue (MPSCAtomicQueue.storeNext p n)
        places := Function.update r.places () .idle }
    | _ => r
  | .notify, r =>
    { r with thread := if r.thread = .submitting .fatal then .draining true else .outside }
  | .callFlush, r => { r with thread := .draining false }
  | .loadNext, r =>
    match r.thread with
    | .draining fatal =>
      match r.sink.queue.loadNext with
      | none => { r with thread := .writing fatal }
      | some next => { r with thread := .drainLoaded fatal next }
    | _ => r
  | .take, r =>
    match r.thread with
    | .drainLoaded fatal next =>
      match r.sink.queue.take next with
      | none => r
      | some (line, queue) =>
        { r with sink := { r.sink with queue }, thread := .draining fatal, tmp := r.tmp ++ [line] }
    | _ => r
  | .write, r =>
    match r.tmp with
    | [] => r
    | line :: tmp => { r with sink := r.sink.write line, tmp }
  | .sync, r =>
    match r.thread with
    | .writing fatal => { r with thread := .flushed fatal }
    | _ => r
  | .abort, r => { r with thread := .aborted }
  | .worker w, r => { r with sink := r.sink.workerStep w }

/-- The thread logs lines and then calls `flush_all_now`, or logs one at `FATAL`; the worker takes
its steps at any time. -/
def system : ActionSystem FlushRun FlushStep where
  init r := ∃ syncBytes stub, r = ⟨.new syncBytes stub, fun _ => .idle, .outside, [], []⟩
  permitted
    | .log _ n _, r => r.thread = .outside ∧ r.sink.queue.heap n = none
    | .exchange, r => ∃ n, r.places () = .allocated n
    | .storeNext, r => ∃ p n, r.places () = .exchanged p n
    | .notify, r => (∃ level, r.thread = .submitting level) ∧ r.places () = .idle
    | .callFlush, r => r.thread = .outside
    | .loadNext, r => ∃ fatal, r.thread = .draining fatal
    | .take, r => ∃ fatal next, r.thread = .drainLoaded fatal next
    | .write, r => (∃ fatal, r.thread = .writing fatal) ∧ r.tmp ≠ []
    | .sync, r => (∃ fatal, r.thread = .writing fatal) ∧ r.tmp = []
    | .abort, r => r.thread = .flushed true
    | .worker w, r => r.sink.WorkerAt w
  apply := apply

/-- The worker holds no line: its buffer is empty and it is not inside a `dequeue` that found
one. -/
def WorkerClear (s : AsyncFileSink) : Prop :=
  s.buf.readable = [] ∧ ∀ last next, s.worker ≠ .loaded last next

/-- `flush_all_now` is called while the worker holds no line, and until its drain has ended the
worker finds none. -/
def FlushAlone : FlushStep → FlushRun → Prop
  | .notify, r => r.thread = .submitting .fatal → WorkerClear r.sink
  | .callFlush, r => WorkerClear r.sink
  | .worker .loadNext, r => (∃ fatal, r.thread = .draining fatal) ∨
    (∃ fatal next, r.thread = .drainLoaded fatal next) → r.sink.queue.loadNext = none
  | _, _ => True

/-- `flush_all_now` has not been called. -/
def Logging : LoggingPlace → Prop
  | .outside => True
  | .submitting _ => True
  | _ => False

/-- The drain of `flush_all_now` has ended. -/
def Drained : LoggingPlace → Prop
  | .writing _ => True
  | .flushed _ => True
  | .aborted => True
  | _ => False

/-- `flush_all_now` has returned. -/
def Flushed : LoggingPlace → Prop
  | .flushed _ => True
  | .aborted => True
  | _ => False

theorem Drained.not_logging {place : LoggingPlace} (h : Drained place) : ¬ Logging place := by
  cases place <;> simp_all [Drained, Logging]

structure Inv (r : FlushRun) (taken : List Bytes) (es : List (QueueEntry Unit Bytes)) : Prop where
  books : r.sink.Books r.places r.submitted r.tmp taken es
  open_fd : r.sink.fdOpen = true
  idle : (∀ level, r.thread ≠ .submitting level) → r.places () = .idle
  no_tmp : Logging r.thread ∨ Flushed r.thread → r.tmp = []
  clear : ¬ Logging r.thread → WorkerClear r.sink
  drain_loaded : ∀ fatal next, r.thread = .drainLoaded fatal next →
    ∃ v rest, es = ⟨next, v, none⟩ :: rest
  drained : Drained r.thread → es = []

variable {r : FlushRun} {taken : List Bytes} {es : List (QueueEntry Unit Bytes)}

theorem unwritten_of_clear {s : AsyncFileSink} (h : WorkerClear s) : s.unwritten = [] := by
  unfold AsyncFileSink.unwritten
  split
  · rfl
  · exact h.1

theorem Inv.log (h : Inv r taken es) {level : LogLevel} {n : Nat} {line : Bytes}
    (hout : r.thread = .outside) (hn : r.sink.queue.heap n = none) :
    Inv (apply (.log level n line) r) taken es := by
  have hidle : r.places () = .idle := h.idle (by simp [hout])
  have htmp : r.tmp = [] := h.no_tmp (Or.inl (by simp [hout, Logging]))
  refine ⟨h.books.alloc hidle hn line, h.open_fd, fun hne => absurd rfl (hne level),
    fun _ => htmp, fun hlog => absurd trivial hlog, ?_, fun hd => hd.elim⟩
  rintro fatal next ⟨⟩

/-- A step inside `submit`, which is before the flush. -/
theorem Inv.submitting (h : Inv r taken es) {sink : AsyncFileSink} {places : Unit → EnqueuePlace}
    {submitted : List Bytes} {es' : List (QueueEntry Unit Bytes)} {level : LogLevel}
    (hsub : r.thread = .submitting level) (hopen : sink.fdOpen = r.sink.fdOpen)
    (hbooks : sink.Books places submitted r.tmp taken es') :
    Inv { r with sink, places, submitted } taken es' := by
  refine ⟨hbooks, hopen.trans h.open_fd, fun hne => absurd hsub (hne level), h.no_tmp, ?_, ?_, ?_⟩
  · intro hlog
    refine absurd ?_ hlog
    dsimp only
    rw [hsub]
    trivial
  · intro fatal next hl
    cases hsub.symm.trans hl
  · intro hd
    dsimp only at hd
    rw [hsub] at hd
    exact hd.elim

theorem Inv.in_submit (h : Inv r taken es) (hbusy : r.places () ≠ .idle) :
    ∃ level, r.thread = .submitting level := by
  by_contra hno
  exact hbusy (h.idle fun level heq => hno ⟨level, heq⟩)

theorem Inv.exchange (h : Inv r taken es) {n : Nat} (ht : r.places () = .allocated n) :
    ∃ es', Inv (apply .exchange r) taken es' := by
  obtain ⟨level, hsub⟩ := h.in_submit (by simp [ht])
  obtain ⟨-, line, hline⟩ := h.books.holds.fresh () n ht
  refine ⟨es ++ [⟨n, line, some ()⟩], ?_⟩
  unfold apply
  dsimp only
  rw [ht]
  dsimp only
  rw [hline]
  exact h.submitting hsub rfl (h.books.exchange ht hline)

theorem Inv.storeNext (h : Inv r taken es) {p n : Nat} (ht : r.places () = .exchanged p n) :
    ∃ es', Inv (apply .storeNext r) taken es' := by
  obtain ⟨level, hsub⟩ := h.in_submit (by simp [ht])
  refine ⟨es.map (clearWriter ()), ?_⟩
  unfold apply
  dsimp only
  rw [ht]
  exact h.submitting hsub rfl (h.books.storeNext ht)

/-- `flush_all_now` begins, with the worker holding no line. -/
theorem Inv.flush (h : Inv r taken es) {fatal : Bool} (hidle : r.places () = .idle)
    (htmp : r.tmp = []) (hclear : WorkerClear r.sink) :
    Inv { r with thread := .draining fatal } taken es := by
  refine ⟨h.books, h.open_fd, fun _ => hidle, fun _ => htmp, fun _ => hclear, ?_, fun hd => hd.elim⟩
  rintro fatal' next ⟨⟩

theorem Inv.notify (h : Inv r taken es) {level : LogLevel} (hsub : r.thread = .submitting level)
    (hidle : r.places () = .idle) (hclear : r.thread = .submitting .fatal → WorkerClear r.sink) :
    Inv (apply .notify r) taken es := by
  have htmp : r.tmp = [] := h.no_tmp (Or.inl (by simp [hsub, Logging]))
  unfold apply
  dsimp only
  split
  next hfatal => exact h.flush hidle htmp (hclear hfatal)
  next =>
    refine ⟨h.books, h.open_fd, fun _ => hidle, fun _ => htmp, fun hlog => absurd trivial hlog, ?_,
      fun hd => hd.elim⟩
    rintro fatal next ⟨⟩

theorem Inv.callFlush (h : Inv r taken es) (hout : r.thread = .outside)
    (hclear : WorkerClear r.sink) : Inv (apply .callFlush r) taken es := by
  have htmp : r.tmp = [] := h.no_tmp (Or.inl (by simp [hout, Logging]))
  exact h.flush (h.idle (by simp [hout])) htmp hclear

/-- The only thread that submits is in `flush_all_now`, so a null pointer means an empty queue. -/
theorem Inv.loadNext (h : Inv r taken es) {fatal : Bool} (hth : r.thread = .draining fatal) :
    Inv (apply .loadNext r) taken es := by
  have hidle : r.places () = .idle := h.idle (by simp [hth])
  have hclear : WorkerClear r.sink := h.clear (by simp [hth, Logging])
  unfold apply
  dsimp only
  rw [hth]
  dsimp only
  split
  next hnone =>
    refine ⟨h.books, h.open_fd, fun _ => hidle, ?_, fun _ => hclear, ?_, ?_⟩
    · rintro (hl | hl) <;> exact hl.elim
    · rintro fatal' next ⟨⟩
    · intro _
      rcases h.books.holds.loadNext_none hnone with hes | ⟨e, rest, t, -, -, hp⟩
      · exact hes
      · rw [hidle] at hp
        cases hp
  next next hsome =>
    refine ⟨h.books, h.open_fd, fun _ => hidle, ?_, fun _ => hclear, ?_, fun hd => hd.elim⟩
    · rintro (hl | hl) <;> exact hl.elim
    · rintro fatal' next' heq
      cases heq
      exact h.books.holds.loadNext_some hsome

theorem Inv.take (h : Inv r taken es) {fatal : Bool} {next : Nat}
    (hth : r.thread = .drainLoaded fatal next) : ∃ taken' es', Inv (apply .take r) taken' es' := by
  have hidle : r.places () = .idle := h.idle (by simp [hth])
  have hclear : WorkerClear r.sink := h.clear (by simp [hth, Logging])
  obtain ⟨line, rest, rfl⟩ := h.drain_loaded fatal next hth
  obtain ⟨queue, hq, hholds⟩ := h.books.holds.take
  refine ⟨taken ++ [line], rest, ?_⟩
  unfold apply
  dsimp only
  rw [hth]
  dsimp only
  rw [hq]
  refine ⟨⟨hholds, ?_, ?_, h.books.valid, h.books.open_fd, ?_⟩, h.open_fd, fun _ => hidle, ?_,
    fun _ => hclear, ?_, fun hd => hd.elim⟩
  · rw [h.books.values]
    simp
  · show r.sink.file ++ r.sink.unwritten ++ (r.tmp ++ [line]).flatten = _
    rw [List.flatten_append, List.flatten_append, ← h.books.written]
    simp
  · intro last next' hl
    exact absurd hl (hclear.2 last next')
  · rintro (hl | hl) <;> exact hl.elim
  · rintro fatal' next' ⟨⟩

theorem Inv.write (h : Inv r taken es) {fatal : Bool} (hth : r.thread = .writing fatal) :
    Inv (apply .write r) taken es := by
  have hclear : WorkerClear r.sink := h.clear (by simp [hth, Logging])
  unfold apply
  dsimp only
  split
  next => exact h
  next line tmp htmp =>
    have hwritten := h.books.written
    rw [unwritten_of_clear hclear, htmp] at hwritten
    rw [AsyncFileSink.write, if_pos h.open_fd]
    have hclear' : WorkerClear { r.sink with file := r.sink.file ++ line } := hclear
    refine ⟨⟨h.books.holds, h.books.values, ?_, h.books.valid, h.books.open_fd, h.books.loaded⟩,
      h.open_fd, h.idle, ?_, fun _ => hclear', h.drain_loaded, h.drained⟩
    · rw [unwritten_of_clear hclear']
      simpa using hwritten
    · dsimp only
      rw [hth]
      rintro (hl | hl) <;> exact hl.elim

theorem Inv.sync (h : Inv r taken es) {fatal : Bool} (hth : r.thread = .writing fatal)
    (htmp : r.tmp = []) : Inv (apply .sync r) taken es := by
  have hclear : WorkerClear r.sink := h.clear (by simp [hth, Logging])
  have hes : es = [] := h.drained (by simp [hth, Drained])
  unfold apply
  dsimp only
  rw [hth]
  refine ⟨h.books, h.open_fd, fun _ => h.idle (by simp [hth]), fun _ => htmp, fun _ => hclear, ?_,
    fun _ => hes⟩
  rintro fatal' next ⟨⟩

theorem Inv.abort (h : Inv r taken es) (hth : r.thread = .flushed true) :
    Inv (apply .abort r) taken es := by
  have hclear : WorkerClear r.sink := h.clear (by simp [hth, Logging])
  have hes : es = [] := h.drained (by simp [hth, Drained])
  have htmp : r.tmp = [] := h.no_tmp (Or.inr (by simp [hth, Flushed]))
  refine ⟨h.books, h.open_fd, fun _ => h.idle (by simp [hth]), fun _ => htmp, fun _ => hclear, ?_,
    fun _ => hes⟩
  rintro fatal' next ⟨⟩

theorem loadNext_nil {q : MPSCAtomicQueue Bytes} {places : Unit → EnqueuePlace}
    (h : Holds q places []) : q.loadNext = none := by
  obtain ⟨v, hv⟩ := h.linked
  simp [MPSCAtomicQueue.loadNext, hv]

/-- The worker goes on holding no line as long as it finds none. -/
theorem WorkerClear.move {s s' : AsyncFileSink} (hc : WorkerClear s)
    (h : AsyncFileSink.WorkerMove s s')
    (hnone : ∀ last, s.worker = .dequeuing last → s.queue.loadNext = none) : WorkerClear s' := by
  cases h with
  | tested hat hto hbuf => exact ⟨hbuf ▸ hc.1, by simp [hto]⟩
  | foundNone last hat hempty hto hbuf =>
    refine ⟨hbuf ▸ hc.1, ?_⟩
    cases last <;> simp [hto]
  | found last next hat hsome hto hbuf =>
    rw [hnone last hat] at hsome
    cases hsome
  | took last next hat hto => exact absurd hat (hc.2 last next)
  | synced hat hto hbuf =>
    refine ⟨?_, by simp [hto]⟩
    rcases hbuf with hbuf | hbuf
    · rw [hbuf]
      exact hc.1
    · rw [hbuf]
      exact Buffer.retrieveAll_readable _
  | finished hat hto hbuf => exact ⟨hbuf ▸ hc.1, by simp [hto]⟩

/-- In the drain of `flush_all_now` the worker finds nothing by assumption, and after it because
the queue is empty. -/
theorem Inv.finds_none (h : Inv r taken es) {w : WorkerStep} (hw : r.sink.WorkerAt w)
    (halone : FlushAlone (.worker w) r) (hlog : ¬ Logging r.thread) {last : Bool}
    (hat : r.sink.worker = .dequeuing last) : r.sink.queue.loadNext = none := by
  obtain rfl := AsyncFileSink.workerAt_dequeuing hw hat
  cases hth : r.thread with
  | outside => exact absurd (by simp [hth, Logging]) hlog
  | submitting level => exact absurd (by simp [hth, Logging]) hlog
  | draining fatal => exact halone (Or.inl ⟨fatal, hth⟩)
  | drainLoaded fatal next => exact halone (Or.inr ⟨fatal, next, hth⟩)
  | writing fatal => exact loadNext_nil (h.drained (by simp [hth, Drained]) ▸ h.books.holds)
  | flushed fatal => exact loadNext_nil (h.drained (by simp [hth, Drained]) ▸ h.books.holds)
  | aborted => exact loadNext_nil (h.drained (by simp [hth, Drained]) ▸ h.books.holds)

theorem Inv.worker (h : Inv r taken es) {w : WorkerStep} (hw : r.sink.WorkerAt w)
    (halone : FlushAlone (.worker w) r) : ∃ taken' es', Inv (apply (.worker w) r) taken' es' := by
  -- a worker with a line in hand is outside of `flush_all_now`
  have hlogging : ∀ last next, r.sink.worker = .loaded last next → Logging r.thread := by
    intro last next hat
    by_contra hlog
    exact (h.clear hlog).2 last next hat
  obtain ⟨taken', es', hbooks, hmoves, hkept⟩ :=
    h.books.workerStep hw fun last next hat => h.no_tmp (Or.inl (hlogging last next hat))
  have hsame : ¬ Logging r.thread → es' = es := fun hlog =>
    (hkept fun last next hat => hlog (hlogging last next hat)).2
  refine ⟨taken', es', hbooks, hmoves.fdOpen.trans h.open_fd, h.idle, h.no_tmp, ?_, ?_, ?_⟩
  · intro hlog
    exact (h.clear hlog).move hmoves.move fun last hat => h.finds_none hw halone hlog hat
  · intro fatal next hth
    have hth' : r.thread = .drainLoaded fatal next := hth
    rw [hsame (by simp [hth', Logging])]
    exact h.drain_loaded fatal next hth
  · intro hd
    have hd' : Drained r.thread := hd
    rw [hsame hd'.not_logging]
    exact h.drained hd

theorem inv_of_reachable (h : (system.restrict FlushAlone).Reachable r) :
    ∃ taken es, Inv r taken es := by
  refine h.invariant (P := fun r => ∃ taken es, Inv r taken es) ?_ ?_
  · rintro r ⟨syncBytes, stub, rfl⟩
    refine ⟨[], [], AsyncFileSink.books_new syncBytes stub, rfl, fun _ => rfl, fun _ => rfl,
      fun hlog => absurd trivial hlog, ?_, fun hd => hd.elim⟩
    rintro fatal next ⟨⟩
  · rintro step r ⟨hp, hc⟩ ⟨taken, es, hi⟩
    cases step with
    | log level n line => exact ⟨taken, es, hi.log hp.1 hp.2⟩
    | exchange =>
      obtain ⟨n, ht⟩ := hp
      exact ⟨taken, hi.exchange ht⟩
    | storeNext =>
      obtain ⟨p, n, ht⟩ := hp
      exact ⟨taken, hi.storeNext ht⟩
    | notify =>
      obtain ⟨⟨level, hsub⟩, hidle⟩ := hp
      exact ⟨taken, es, hi.notify hsub hidle hc⟩
    | callFlush => exact ⟨taken, es, hi.callFlush hp hc⟩
    | loadNext =>
      obtain ⟨fatal, hth⟩ := hp
      exact ⟨taken, es, hi.loadNext hth⟩
    | take =>
      obtain ⟨fatal, next, hth⟩ := hp
      exact hi.take hth
    | write =>
      obtain ⟨⟨fatal, hth⟩, -⟩ := hp
      exact ⟨taken, es, hi.write hth⟩
    | sync =>
      obtain ⟨⟨fatal, hth⟩, htmp⟩ := hp
      exact ⟨taken, es, hi.sync hth htmp⟩
    | abort => exact ⟨taken, es, hi.abort hp⟩
    | worker w => exact hi.worker hp hc

/-- After `flush_all_now` the file holds the thread's lines in order, and only then does
`Logger::log` abort. -/
def Delivered (r : FlushRun) : Prop := Flushed r.thread → r.sink.file = r.submitted.flatten

theorem delivered_of_flushAlone (h : (system.restrict FlushAlone).Reachable r) : r.Delivered := by
  intro hfl
  obtain ⟨taken, es, hi⟩ := inv_of_reachable h
  have hdrained : Drained r.thread := by
    cases hth : r.thread <;> simp [hth, Flushed, Drained] at hfl ⊢
  have hwritten := hi.books.written
  rw [unwritten_of_clear (hi.clear hdrained.not_logging), hi.no_tmp (Or.inr hfl)] at hwritten
  have hvalues := hi.books.values
  rw [hi.drained hdrained] at hvalues
  rw [hvalues]
  simpa using hwritten

def start : FlushRun := ⟨.new 1024 0, fun _ => .idle, .outside, [], []⟩

/-- A line and then one at `FATAL`, with both still in the queue. -/
def logFatal : List FlushStep := [
  .log .info 1 (ascii "a"), .exchange, .storeNext, .notify,
  .log .fatal 2 (ascii "b"), .exchange, .storeNext, .notify,
  .loadNext, .take, .loadNext, .take, .loadNext, .write, .write, .sync, .abort]

theorem delivered_of_flushAlone_logFatal :
    let r := system.run logFatal start
    r.thread = .aborted ∧ r.submitted = [ascii "a", ascii "b"] ∧
      r.sink.file = r.submitted.flatten := by
  intro r
  have h0 : (system.restrict FlushAlone).Reachable start := .init ⟨1024, 0, rfl⟩
  have hclear : WorkerClear (AsyncFileSink.new 1024 0) :=
    ⟨Buffer.new_readable _, fun _ _ heq => nomatch heq⟩
  have hp : (system.restrict FlushAlone).Permits logFatal start := by
    refine ⟨⟨⟨rfl, rfl⟩, trivial⟩, ⟨⟨1, rfl⟩, trivial⟩, ⟨⟨0, 1, rfl⟩, trivial⟩,
      ⟨⟨⟨.info, rfl⟩, rfl⟩, fun heq => nomatch heq⟩, ⟨⟨rfl, rfl⟩, trivial⟩, ⟨⟨2, rfl⟩, trivial⟩,
      ⟨⟨1, 2, rfl⟩, trivial⟩, ⟨⟨⟨.fatal, rfl⟩, rfl⟩, fun _ => hclear⟩, ⟨⟨true, rfl⟩, trivial⟩,
      ⟨⟨true, 1, rfl⟩, trivial⟩, ⟨⟨true, rfl⟩, trivial⟩, ⟨⟨true, 2, rfl⟩, trivial⟩,
      ⟨⟨true, rfl⟩, trivial⟩, ⟨⟨⟨true, rfl⟩, ?_⟩, trivial⟩, ⟨⟨⟨true, rfl⟩, ?_⟩, trivial⟩,
      ⟨⟨⟨true, rfl⟩, rfl⟩, trivial⟩, ⟨rfl, trivial⟩, trivial⟩
    · exact List.cons_ne_nil _ _
    · exact List.cons_ne_nil _ _
  exact ⟨rfl, rfl, delivered_of_flushAlone (h0.run hp) trivial⟩

/-- The same with the worker taking the first line into its buffer before the second is logged. -/
def logFatalLate : List FlushStep := [
  .log .info 1 (ascii "a"), .exchange, .storeNext, .notify,
  .worker .testRunning, .worker .loadNext, .worker .take,
  .log .fatal 2 (ascii "b"), .exchange, .storeNext, .notify,
  .loadNext, .take, .loadNext, .write, .sync, .abort]

/-- `flush_all_now` does not see the worker's buffer: the program aborts with the first line not
in the file. -/
theorem line_left_in_worker : ∃ r : FlushRun, system.Reachable r ∧ r.thread = .aborted ∧
    r.submitted = [ascii "a", ascii "b"] ∧ r.sink.file = ascii "b" ∧ ¬ r.Delivered := by
  have h0 : system.Reachable start := .init ⟨1024, 0, rfl⟩
  have hp : system.Permits logFatalLate start :=
    ⟨⟨rfl, rfl⟩, ⟨1, rfl⟩, ⟨0, 1, rfl⟩, ⟨⟨.info, rfl⟩, rfl⟩, rfl, ⟨false, rfl⟩, ⟨false, 1, rfl⟩,
      ⟨rfl, rfl⟩, ⟨2, rfl⟩, ⟨1, 2, rfl⟩, ⟨⟨.fatal, rfl⟩, rfl⟩, ⟨true, rfl⟩, ⟨true, 2, rfl⟩, ⟨true, rfl⟩,
      ⟨⟨true, rfl⟩, List.cons_ne_nil _ _⟩, ⟨⟨true, rfl⟩, rfl⟩, rfl, trivial⟩
  have hend : let r := system.run logFatalLate start
      r.thread = .aborted ∧ r.submitted = [ascii "a", ascii "b"] ∧ r.sink.file = ascii "b" := by
    decide +kernel
  refine ⟨_, h0.run hp, hend.1, hend.2.1, hend.2.2, ?_⟩
  intro hd
  have hflushed : Flushed (system.run logFatalLate start).thread := by
    rw [hend.1]
    trivial
  have hfile := hd hflushed
  rw [hend.2.1, hend.2.2] at hfile
  exact absurd hfile (by decide)

end FlushRun

end MuduoPlus
