import MuduoPlus.Buffer
import MuduoPlus.MpscQueue

namespace MuduoPlus

/-- The size of the worker's buffer and the amount at which it is written. -/
def kSinkBuffer : Nat := 64 * 1024

/-- Where the worker stands in `run`; `last` tells the drain after the loop from the loop. -/
inductive WorkerPlace where
  | testing
  | dequeuing (last : Bool)
  | loaded (last : Bool) (next : Nat)
  | syncing
  | finishing
  | exited
  deriving DecidableEq, Repr

/-- The sink with the variables of its worker; `file` is what was written since it was opened. -/
structure AsyncFileSink where
  syncBytes : Nat
  queue : MPSCAtomicQueue Bytes
  running : Bool
  fdOpen : Bool
  file : Bytes
  worker : WorkerPlace
  buf : Buffer
  bytesSinceSync : Nat

/-- The steps of the worker; the clock decides in `sync` whether `next_sync` is over. -/
inductive WorkerStep where
  | testRunning
  | loadNext
  | take
  | sync (expired : Bool)
  | finish

namespace AsyncFileSink

open MPSCAtomicQueue

def new (syncBytes stub : Nat) : AsyncFileSink where
  syncBytes := syncBytes
  queue := MPSCAtomicQueue.new stub []
  running := true
  fdOpen := true
  file := []
  worker := .testing
  buf := Buffer.new kSinkBuffer
  bytesSinceSync := 0

/-- `write(fd_, ...)`, taking all bytes. -/
def write (bytes : Bytes) (s : AsyncFileSink) : AsyncFileSink :=
  if s.fdOpen then { s with file := s.file ++ bytes } else s

def testRunning (s : AsyncFileSink) : AsyncFileSink :=
  { s with worker := .dequeuing (!s.running) }

/-- The load of `dequeue`. Without a line the loop waits, for any time, and the drain ends. -/
def loadNext (last : Bool) (s : AsyncFileSink) : AsyncFileSink :=
  match s.queue.loadNext with
  | none => { s with worker := if last then .finishing else .syncing }
  | some next => { s with worker := .loaded last next }

/-- The rest of `dequeue`, and `buf.append`. -/
def take (last : Bool) (next : Nat) (s : AsyncFileSink) : AsyncFileSink :=
  match s.queue.take next with
  | none => s
  | some (line, queue) =>
    { s with
      queue
      buf := s.buf.append line
      bytesSinceSync := if last then s.bytesSinceSync else s.bytesSinceSync + line.length
      worker := if last then .dequeuing true else .syncing }

def sync (expired : Bool) (s : AsyncFileSink) : AsyncFileSink :=
  if kSinkBuffer ≤ s.buf.readableBytes ∨ s.syncBytes ≤ s.bytesSinceSync ∨ expired = true then
    { s.write s.buf.readable with
      buf := s.buf.retrieveAll, bytesSinceSync := 0, worker := .testing }
  else { s with worker := .testing }

def finish (s : AsyncFileSink) : AsyncFileSink :=
  let s := if 0 < s.buf.readableBytes then s.write s.buf.readable else s
  { s with worker := .exited }

def workerStep (w : WorkerStep) (s : AsyncFileSink) : AsyncFileSink :=
  match w, s.worker with
  | .testRunning, .testing => s.testRunning
  | .loadNext, .dequeuing last => s.loadNext last
  | .take, .loaded last next => s.take last next
  | .sync expired, .syncing => s.sync expired
  | .finish, .finishing => s.finish
  | _, _ => s

/-- The step is the worker's next one. -/
def WorkerAt (w : WorkerStep) (s : AsyncFileSink) : Prop :=
  match w with
  | .testRunning => s.worker = .testing
  | .loadNext => ∃ last, s.worker = .dequeuing last
  | .take => ∃ last next, s.worker = .loaded last next
  | .sync _ => s.worker = .syncing
  | .finish => s.worker = .finishing

theorem workerAt_dequeuing {s : AsyncFileSink} {w : WorkerStep} {last : Bool} (h : s.WorkerAt w)
    (hat : s.worker = .dequeuing last) : w = .loadNext := by
  cases w <;> simp [WorkerAt, hat] at h ⊢

/-- Where a step leads the worker, with what it finds in the queue and what becomes of the
buffer. -/
inductive WorkerMove (s s' : AsyncFileSink) : Prop where
  | tested (hat : s.worker = .testing) (hto : s'.worker = .dequeuing (!s.running))
    (hbuf : s'.buf = s.buf)
  | foundNone (last : Bool) (hat : s.worker = .dequeuing last) (hnone : s.queue.loadNext = none)
    (hto : s'.worker = if last then .finishing else .syncing) (hbuf : s'.buf = s.buf)
  | found (last : Bool) (next : Nat) (hat : s.worker = .dequeuing last)
    (hsome : s.queue.loadNext = some next) (hto : s'.worker = .loaded last next)
    (hbuf : s'.buf = s.buf)
  | took (last : Bool) (next : Nat) (hat : s.worker = .loaded last next)
    (hto : s'.worker = if last then .dequeuing true else .syncing)
  | synced (hat : s.worker = .syncing) (hto : s'.worker = .testing)
    (hbuf : s'.buf = s.buf ∨ s'.buf = s.buf.retrieveAll)
  | finished (hat : s.worker = .finishing) (hto : s'.worker = .exited) (hbuf : s'.buf = s.buf)

/-- A step of the worker leaves `running_` and the descriptor alone. -/
structure WorkerMoves (s s' : AsyncFileSink) : Prop where
  running : s'.running = s.running
  fdOpen : s'.fdOpen = s.fdOpen
  move : WorkerMove s s'

section Moves

variable {s : AsyncFileSink}

theorem testRunning_moves (hw : s.worker = .testing) : WorkerMoves s s.testRunning :=
  ⟨rfl, rfl, .tested hw rfl rfl⟩

theorem loadNext_moves {last : Bool} (hw : s.worker = .dequeuing last) :
    WorkerMoves s (s.loadNext last) := by
  unfold loadNext
  split
  next hnone => exact ⟨rfl, rfl, .foundNone last hw hnone rfl rfl⟩
  next next hsome => exact ⟨rfl, rfl, .found last next hw hsome rfl rfl⟩

theorem take_moves {last : Bool} {next : Nat} (hw : s.worker = .loaded last next) {line : Bytes}
    {queue : MPSCAtomicQueue Bytes} (hq : s.queue.take next = some (line, queue)) :
    WorkerMoves s (s.take last next) := by
  unfold take
  rw [hq]
  exact ⟨rfl, rfl, .took last next hw rfl⟩

theorem write_kept (bytes : Bytes) (s : AsyncFileSink) :
    (s.write bytes).running = s.running ∧ (s.write bytes).fdOpen = s.fdOpen ∧
      (s.write bytes).buf = s.buf := by
  unfold write
  split <;> exact ⟨rfl, rfl, rfl⟩

theorem sync_moves (hw : s.worker = .syncing) (expired : Bool) :
    WorkerMoves s (s.sync expired) := by
  obtain ⟨hrun, hfd, -⟩ := write_kept s.buf.readable s
  unfold sync
  split
  · exact ⟨hrun, hfd, .synced hw rfl (Or.inr rfl)⟩
  · exact ⟨rfl, rfl, .synced hw rfl (Or.inl rfl)⟩

theorem finish_moves (hw : s.worker = .finishing) : WorkerMoves s s.finish := by
  obtain ⟨hrun, hfd, hbuf⟩ := write_kept s.buf.readable s
  unfold finish
  dsimp only
  split
  · exact ⟨hrun, hfd, .finished hw rfl hbuf⟩
  · exact ⟨rfl, rfl, .finished hw rfl rfl⟩

/-- No step starts behind the end of `run`. -/
theorem WorkerMove.not_exited {s s' : AsyncFileSink} (h : WorkerMove s s') :
    s.worker ≠ .exited := by
  cases h <;> simp [*]

end Moves

/-- What the worker has taken and not written. -/
def unwritten (s : AsyncFileSink) : Bytes := if s.worker = .exited then [] else s.buf.readable

variable {τ : Type} {s : AsyncFileSink} {places : τ → EnqueuePlace} {lines tmp taken : List Bytes}
  {es : List (QueueEntry τ Bytes)}

/-- Of the lines in the order of their exchanges, those taken out of the queue are in the file, in
the worker's buffer and in `tmp`, in this order, and the others are in the queue. -/
structure Books (s : AsyncFileSink) (places : τ → EnqueuePlace) (lines tmp taken : List Bytes)
    (es : List (QueueEntry τ Bytes)) : Prop where
  holds : Holds s.queue places es
  values : lines = taken ++ es.map QueueEntry.v
  written : s.file ++ s.unwritten ++ tmp.flatten = taken.flatten
  valid : s.buf.Valid
  open_fd : s.worker ≠ .exited → s.fdOpen = true
  loaded : ∀ last next, s.worker = .loaded last next → ∃ v rest, es = ⟨next, v, none⟩ :: rest

theorem books_new (syncBytes stub : Nat) :
    Books (new syncBytes stub) (fun _ : τ => .idle) [] [] [] [] where
  holds := holds_new stub []
  values := rfl
  written := by simp [new, unwritten, Buffer.new_readable]
  valid := Buffer.new_valid _
  open_fd _ := rfl
  loaded _ _ h := nomatch h

/-- Only the place of the worker changes. -/
theorem Books.move (h : Books s places lines tmp taken es) {place : WorkerPlace}
    (hexit : s.worker ≠ .exited) (hplace : place ≠ .exited)
    (hloaded : ∀ last next, place = .loaded last next → ∃ v rest, es = ⟨next, v, none⟩ :: rest) :
    Books { s with worker := place } places lines tmp taken es := by
  refine ⟨h.holds, h.values, ?_, h.valid, fun _ => h.open_fd hexit, hloaded⟩
  have hw := h.written
  rw [unwritten, if_neg hexit] at hw
  rw [unwritten, if_neg hplace]
  exact hw

theorem Books.testRunning (h : Books s places lines tmp taken es) (hw : s.worker = .testing) :
    Books s.testRunning places lines tmp taken es :=
  h.move (by simp [hw]) (by simp) fun _ _ heq => nomatch heq

theorem Books.loadNext (h : Books s places lines tmp taken es) {last : Bool}
    (hw : s.worker = .dequeuing last) : Books (s.loadNext last) places lines tmp taken es := by
  have hexit : s.worker ≠ .exited := by simp [hw]
  unfold AsyncFileSink.loadNext
  split
  next =>
    cases last with
    | true => exact h.move hexit (by simp) fun _ _ heq => nomatch heq
    | false => exact h.move hexit (by simp) fun _ _ heq => nomatch heq
  next next hl =>
    refine h.move hexit (by simp) ?_
    intro last' next' heq
    cases heq
    exact h.holds.loadNext_some hl

/-- A line goes from the queue to the end of the buffer. -/
theorem Books.take (h : Books s places lines [] taken es) {last : Bool} {next : Nat}
    (hw : s.worker = .loaded last next) :
    ∃ line rest, es = ⟨next, line, none⟩ :: rest ∧
      Books (s.take last next) places lines [] (taken ++ [line]) rest := by
  obtain ⟨line, rest, rfl⟩ := h.loaded last next hw
  obtain ⟨queue, hq, hholds⟩ := h.holds.take
  refine ⟨line, rest, rfl, ?_⟩
  have hexit : s.worker ≠ .exited := by simp [hw]
  have hwritten := h.written
  rw [unwritten, if_neg hexit] at hwritten
  unfold AsyncFileSink.take
  rw [hq]
  dsimp only
  refine ⟨hholds, ?_, ?_, Buffer.append_valid h.valid line, fun _ => h.open_fd hexit, ?_⟩
  · rw [h.values]
    simp
  · have hplace : (if last then WorkerPlace.dequeuing true else .syncing) ≠ .exited := by
      cases last <;> simp
    rw [unwritten, if_neg hplace]
    dsimp only
    rw [Buffer.append_readable h.valid, List.flatten_append, ← hwritten]
    simp
  · intro last' next' heq
    cases last <;> cases heq

theorem Books.sync (h : Books s places lines tmp taken es) (hw : s.worker = .syncing)
    (expired : Bool) : Books (s.sync expired) places lines tmp taken es := by
  have hexit : s.worker ≠ .exited := by simp [hw]
  unfold AsyncFileSink.sync
  split
  next =>
    have hwritten := h.written
    rw [unwritten, if_neg hexit] at hwritten
    rw [write, if_pos (h.open_fd hexit)]
    refine ⟨h.holds, h.values, ?_, Buffer.retrieveAll_valid h.valid, fun _ => h.open_fd hexit,
      fun _ _ heq => nomatch heq⟩
    rw [unwritten, if_neg (by simp)]
    dsimp only
    rw [Buffer.retrieveAll_readable, List.append_nil]
    exact hwritten
  next => exact h.move hexit (by simp) fun _ _ heq => nomatch heq

theorem Books.finish (h : Books s places lines tmp taken es) (hw : s.worker = .finishing) :
    Books s.finish places lines tmp taken es := by
  have hexit : s.worker ≠ .exited := by simp [hw]
  have hwritten := h.written
  rw [unwritten, if_neg hexit] at hwritten
  unfold AsyncFileSink.finish
  dsimp only
  split
  next =>
    rw [write, if_pos (h.open_fd hexit)]
    refine ⟨h.holds, h.values, ?_, h.valid, fun _ => h.open_fd hexit, fun _ _ heq => nomatch heq⟩
    rw [unwritten, if_pos rfl, List.append_nil]
    exact hwritten
  next hempty =>
    refine ⟨h.holds, h.values, ?_, h.valid, fun _ => h.open_fd hexit, fun _ _ heq => nomatch heq⟩
    have hlen := Buffer.length_readable h.valid
    have hnil : s.buf.readable = [] := List.eq_nil_of_length_eq_zero (by omega)
    rw [hnil] at hwritten
    rw [unwritten, if_pos rfl]
    exact hwritten

/-- One step of the worker: only `dequeue` takes a line out of the queue, and not while
`flush_all_now` holds some. -/
theorem Books.workerStep (h : Books s places lines tmp taken es) {w : WorkerStep}
    (hw : s.WorkerAt w) (htmp : ∀ last next, s.worker = .loaded last next → tmp = []) :
    ∃ taken' es', Books (s.workerStep w) places lines tmp taken' es' ∧
      WorkerMoves s (s.workerStep w) ∧
      ((∀ last next, s.worker ≠ .loaded last next) → taken' = taken ∧ es' = es) := by
  cases w with
  | testRunning =>
    have hat : s.worker = .testing := hw
    rw [show s.workerStep .testRunning = s.testRunning by simp only [AsyncFileSink.workerStep, hat]]
    exact ⟨taken, es, h.testRunning hat, testRunning_moves hat, fun _ => ⟨rfl, rfl⟩⟩
  | loadNext =>
    obtain ⟨last, hat⟩ := hw
    rw [show s.workerStep .loadNext = s.loadNext last by simp only [AsyncFileSink.workerStep, hat]]
    exact ⟨taken, es, h.loadNext hat, loadNext_moves hat, fun _ => ⟨rfl, rfl⟩⟩
  | take =>
    obtain ⟨last, next, hat⟩ := hw
    rw [show s.workerStep .take = s.take last next by simp only [AsyncFileSink.workerStep, hat]]
    obtain rfl := htmp last next hat
    obtain ⟨line, rest, rfl, hbooks⟩ := h.take hat
    obtain ⟨queue, hq, -⟩ := h.holds.take
    exact ⟨taken ++ [line], rest, hbooks, take_moves hat hq, fun hno => absurd hat (hno last next)⟩
  | sync expired =>
    have hat : s.worker = .syncing := hw
    rw [show s.workerStep (.sync expired) = s.sync expired by
      simp only [AsyncFileSink.workerStep, hat]]
    exact ⟨taken, es, h.sync hat expired, sync_moves hat expired, fun _ => ⟨rfl, rfl⟩⟩
  | finish =>
    have hat : s.worker = .finishing := hw
    rw [show s.workerStep .finish = s.finish by simp only [AsyncFileSink.workerStep, hat]]
    exact ⟨taken, es, h.finish hat, finish_moves hat, fun _ => ⟨rfl, rfl⟩⟩

section Producers

variable [DecidableEq τ] {t : τ} {n p : Nat} {line : Bytes}

/-- The sink with another state of its queue. -/
def onQueue (f : MPSCAtomicQueue Bytes → MPSCAtomicQueue Bytes) (s : AsyncFileSink) :
    AsyncFileSink := { s with queue := f s.queue }

theorem Books.alloc (h : Books s places lines tmp taken es) (ht : places t = .idle)
    (hn : s.queue.heap n = none) (line : Bytes) :
    Books (s.onQueue (MPSCAtomicQueue.alloc n line)) (Function.update places t (.allocated n))
      lines tmp taken es :=
  ⟨h.holds.alloc ht hn line, h.values, h.written, h.valid, h.open_fd, h.loaded⟩

theorem Books.exchange (h : Books s places lines tmp taken es) (ht : places t = .allocated n)
    (hn : s.queue.heap n = some ⟨line, none⟩) :
    Books (s.onQueue (MPSCAtomicQueue.exchange n))
      (Function.update places t (.exchanged s.queue.tail n)) (lines ++ [line]) tmp taken
      (es ++ [⟨n, line, some t⟩]) := by
  refine ⟨h.holds.exchange ht hn, ?_, h.written, h.valid, h.open_fd, ?_⟩
  · rw [h.values]
    simp
  · exact fun last next hw => front_append (h.loaded last next hw) _

theorem Books.storeNext (h : Books s places lines tmp taken es) (ht : places t = .exchanged p n) :
    Books (s.onQueue (MPSCAtomicQueue.storeNext p n)) (Function.update places t .idle) lines tmp
      taken (es.map (clearWriter t)) := by
  refine ⟨h.holds.storeNext ht, ?_, h.written, h.valid, h.open_fd, ?_⟩
  · rw [map_clearWriter_v]
    exact h.values
  · exact fun last next hw => front_clearWriter t (h.loaded last next hw)

end Producers

end AsyncFileSink

end MuduoPlus
