import MuduoPlus.MpscQueue

namespace MuduoPlus

/-- Where the consumer stands in `dequeue`: outside, or with the pointer it loaded. -/
inductive DequeuePlace where
  | idle
  | loaded (next : Nat)
  deriving DecidableEq, Repr

/-- A queue with its threads, the values in the order of their exchanges of `tail_` and those
that `dequeue` returned. -/
structure QueueRun (τ α : Type) where
  queue : MPSCAtomicQueue α
  producers : τ → EnqueuePlace
  consumer : DequeuePlace
  exchanged : List α
  dequeued : List α

inductive QueueStep (τ α : Type) where
  | alloc (t : τ) (n : Nat) (x : α)
  | exchange (t : τ)
  | storeNext (t : τ)
  | loadNext
  | take

namespace QueueRun

open MPSCAtomicQueue

variable {τ α : Type} [DecidableEq τ]

def apply : QueueStep τ α → QueueRun τ α → QueueRun τ α
  | .alloc t n x, r =>
    { r with queue := r.queue.alloc n x, producers := Function.update r.producers t (.allocated n) }
  | .exchange t, r =>
    match r.producers t with
    | .allocated n =>
      { r with
        queue := r.queue.exchange n
        producers := Function.update r.producers t (.exchanged r.queue.tail n)
        exchanged := r.exchanged ++ ((r.queue.heap n).map Node.v).toList }
    | _ => r
  | .storeNext t, r =>
    match r.producers t with
    | .exchanged p n =>
      { r with
        queue := r.queue.storeNext p n
        producers := Function.update r.producers t .idle }
    | _ => r
  | .loadNext, r =>
    match r.queue.loadNext with
    | none => r
    | some next => { r with consumer := .loaded next }
  | .take, r =>
    match r.consumer with
    | .idle => r
    | .loaded next =>
      match r.queue.take next with
      | none => r
      | some (x, queue) => { r with queue, consumer := .idle, dequeued := r.dequeued ++ [x] }

/-- Any number of producers and one consumer. A new node may stand at any free address, also at
that of a deleted one. -/
def system (τ α : Type) [DecidableEq τ] : ActionSystem (QueueRun τ α) (QueueStep τ α) where
  init r := ∃ stub v, r = ⟨new stub v, fun _ => .idle, .idle, [], []⟩
  permitted
    | .alloc t n _, r => r.producers t = .idle ∧ r.queue.heap n = none
    | .exchange t, r => ∃ n, r.producers t = .allocated n
    | .storeNext t, r => ∃ p n, r.producers t = .exchanged p n
    | .loadNext, r => r.consumer = .idle
    | .take, r => ∃ next, r.consumer = .loaded next
  apply := apply

/-- The entries of the queue are what is exchanged and not dequeued; a loaded pointer is the
oldest of them. -/
structure Books (r : QueueRun τ α) (es : List (QueueEntry τ α)) : Prop where
  holds : Holds r.queue r.producers es
  values : r.exchanged = r.dequeued ++ es.map QueueEntry.v
  loaded : ∀ next, r.consumer = .loaded next → ∃ v rest, es = ⟨next, v, none⟩ :: rest

variable {r : QueueRun τ α} {es : List (QueueEntry τ α)}

theorem Books.exchange (h : Books r es) {t : τ} {n : Nat} (ht : r.producers t = .allocated n) :
    ∃ es', Books (apply (.exchange t) r) es' := by
  obtain ⟨-, x, hx⟩ := h.holds.fresh t n ht
  refine ⟨es ++ [⟨n, x, some t⟩], ?_⟩
  unfold apply
  dsimp only
  rw [ht]
  dsimp only
  refine ⟨h.holds.exchange ht hx, ?_, ?_⟩
  · simp [hx, h.values]
  · exact fun next hc => front_append (h.loaded next hc) _

theorem Books.storeNext (h : Books r es) {t : τ} {p n : Nat}
    (ht : r.producers t = .exchanged p n) : ∃ es', Books (apply (.storeNext t) r) es' := by
  refine ⟨es.map (clearWriter t), ?_⟩
  unfold apply
  dsimp only
  rw [ht]
  dsimp only
  refine ⟨h.holds.storeNext ht, ?_, ?_⟩
  · rw [map_clearWriter_v]
    exact h.values
  · exact fun next hc => front_clearWriter t (h.loaded next hc)

theorem Books.loadNext (h : Books r es) : Books (apply .loadNext r) es := by
  unfold apply
  dsimp only
  split
  next => exact h
  next next hl =>
    refine ⟨h.holds, h.values, ?_⟩
    rintro next' ⟨⟩
    exact h.holds.loadNext_some hl

theorem Books.take (h : Books r es) {next : Nat} (hc : r.consumer = .loaded next) :
    ∃ es', Books (apply .take r) es' := by
  obtain ⟨v, rest, rfl⟩ := h.loaded next hc
  obtain ⟨q', hq, hholds⟩ := h.holds.take
  refine ⟨rest, ?_⟩
  unfold apply
  dsimp only
  rw [hc]
  dsimp only
  rw [hq]
  refine ⟨hholds, ?_, ?_⟩
  · rw [h.values]
    simp
  · rintro next' ⟨⟩

theorem books_of_reachable (h : (system τ α).Reachable r) : ∃ es, Books r es := by
  refine h.invariant (P := fun r => ∃ es, Books r es) ?_ ?_
  · rintro r ⟨stub, v, rfl⟩
    exact ⟨[], holds_new stub v, rfl, fun _ h => nomatch h⟩
  · rintro step r hp ⟨es, hb⟩
    cases step with
    | alloc t n x => exact ⟨es, hb.holds.alloc hp.1 hp.2 x, hb.values, hb.loaded⟩
    | exchange t =>
      obtain ⟨n, ht⟩ := hp
      exact hb.exchange ht
    | storeNext t =>
      obtain ⟨p, n, ht⟩ := hp
      exact hb.storeNext ht
    | loadNext => exact ⟨es, hb.loadNext⟩
    | take =>
      obtain ⟨next, hc⟩ := hp
      exact hb.take hc

end QueueRun

namespace MPSCAtomicQueue

variable {τ α : Type} {q : MPSCAtomicQueue α} {places : τ → EnqueuePlace}
  {es : List (QueueEntry τ α)}

theorem Holds.loadNext_eq {n : Nat} {v : α} (h : Holds q places (⟨n, v, none⟩ :: es)) :
    q.loadNext = some n := by
  obtain ⟨⟨-, w, hw⟩ | ⟨t, hw, -⟩, -, -⟩ := h.linked
  · simp [loadNext, hw]
  · cases hw

/-- With no store outstanding `drain` returns everything. -/
theorem Holds.drain (h : Holds q places es) (hdone : ∀ e ∈ es, e.writer = none) {maxItems : Nat}
    (hmax : es.length ≤ maxItems) : (q.drain maxItems).1 = es.map QueueEntry.v := by
  induction es generalizing q maxItems with
  | nil =>
    have hnone : q.dequeue = none := by
      obtain ⟨v, hv⟩ := h.linked
      simp [dequeue, loadNext, hv]
    cases maxItems with
    | zero => rfl
    | succ k =>
      unfold MPSCAtomicQueue.drain
      rw [hnone]
      rfl
  | cons e es ih =>
    obtain ⟨n, v, writer⟩ := e
    have hw : writer = none := hdone _ List.mem_cons_self
    subst hw
    obtain ⟨q', hq, hrest⟩ := h.take
    have hdeq : q.dequeue = some (v, q') := by
      rw [dequeue, h.loadNext_eq]
      exact hq
    cases maxItems with
    | zero => cases hmax
    | succ k =>
      have hk := ih hrest (fun e he => hdone e (List.mem_cons_of_mem _ he)) (Nat.le_of_succ_le_succ hmax)
      unfold MPSCAtomicQueue.drain
      rw [hdeq]
      exact congrArg (v :: ·) hk

end MPSCAtomicQueue

namespace QueueRun

open MPSCAtomicQueue

variable {τ α : Type} [DecidableEq τ] {r : QueueRun τ α}

/-- First in, first out, with nothing lost and no node used after it was deleted. -/
structure Fifo (r : QueueRun τ α) : Prop where
  ordered : r.dequeued <+: r.exchanged
  kept : (∀ t p n, r.producers t ≠ .exchanged p n) → ∀ maxItems,
    r.exchanged.length - r.dequeued.length ≤ maxItems →
      (r.queue.drain maxItems).1 = r.exchanged.drop r.dequeued.length
  refused : r.queue.loadNext = none → r.dequeued = r.exchanged ∨
    ∃ t n x next, r.producers t = .exchanged r.queue.head n ∧ r.queue.heap n = some ⟨x, next⟩ ∧
      r.exchanged[r.dequeued.length]? = some x
  targets_exist : ∀ t p n, r.producers t = .exchanged p n → r.queue.heap p ≠ none
  targets_spared : ∀ next, r.consumer = .loaded next →
    ∀ t n, r.producers t ≠ .exchanged r.queue.head n
  consumer_exist : r.queue.heap r.queue.head ≠ none ∧
    ∀ next, r.consumer = .loaded next → r.queue.heap next ≠ none

theorem fifo_of_reachable (h : (system τ α).Reachable r) : r.Fifo := by
  obtain ⟨es, hb⟩ := books_of_reachable h
  have hdrop : r.exchanged.drop r.dequeued.length = es.map QueueEntry.v := by
    rw [hb.values, List.drop_left]
  have hlen : r.exchanged.length - r.dequeued.length = es.length := by
    rw [hb.values, List.length_append, List.length_map, Nat.add_sub_cancel_left]
  have hexists : ∀ b ∈ addrs r.queue.head es, r.queue.heap b ≠ none := by
    intro b hb' hnone
    obtain ⟨node, hnode⟩ := hb.holds.linked.exists_node hb'
    rw [hnone] at hnode
    cases hnode
  refine ⟨⟨_, hb.values.symm⟩, ?_, ?_, ?_, ?_, hexists _ List.mem_cons_self, ?_⟩
  · intro hdone maxItems hmax
    rw [hdrop]
    refine hb.holds.drain ?_ (hlen ▸ hmax)
    intro e he
    by_contra hw
    obtain ⟨t, ht⟩ := Option.ne_none_iff_exists'.mp hw
    obtain ⟨b, -, hpl⟩ := hb.holds.linked.writer he ht
    exact hdone t b e.addr hpl
  · intro hl
    rcases hb.holds.loadNext_none hl with rfl | ⟨e, rest, t, rfl, hw, hp⟩
    · refine Or.inl ?_
      rw [hb.values]
      simp
    · obtain ⟨-, ⟨next, hnode⟩, -⟩ := hb.holds.linked
      refine Or.inr ⟨t, e.addr, e.v, next, hp, hnode, ?_⟩
      rw [hb.values]
      simp
  · intro t p n ht
    exact hexists p (hb.holds.store_target ht).1
  · intro next hc t n ht
    obtain ⟨v, rest, hes⟩ := hb.loaded next hc
    exact (hb.holds.store_target ht).2 _ rest hes rfl rfl
  · intro next hc
    obtain ⟨v, rest, rfl⟩ := hb.loaded next hc
    exact hexists next (by simp [addrs])

/-- Two producers, the second overtaking the store of the first; then both values come out. -/
def overtaking : List (QueueStep Bool Nat) := [
  .alloc true 1 10, .exchange true, .alloc false 2 20, .exchange false, .storeNext false, .loadNext,
  .storeNext true, .loadNext, .take, .loadNext, .take]

theorem fifo_of_reachable_overtaking :
    let r := (system Bool Nat).run overtaking ⟨new 0 0, fun _ => .idle, .idle, [], []⟩
    r.dequeued = [10, 20] ∧ r.Fifo := by
  intro r
  have h0 : (system Bool Nat).Reachable ⟨new 0 0, fun _ => .idle, .idle, [], []⟩ :=
    .init ⟨0, 0, rfl⟩
  have hp : (system Bool Nat).Permits overtaking ⟨new 0 0, fun _ => .idle, .idle, [], []⟩ :=
    ⟨⟨rfl, rfl⟩, ⟨1, rfl⟩, ⟨rfl, rfl⟩, ⟨2, rfl⟩, ⟨1, 2, rfl⟩, rfl, ⟨0, 1, rfl⟩, rfl, ⟨1, rfl⟩, rfl,
      ⟨2, rfl⟩, trivial⟩
  exact ⟨by decide, fifo_of_reachable (h0.run hp)⟩

end QueueRun

end MuduoPlus
