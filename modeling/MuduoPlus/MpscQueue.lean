import Mathlib.Data.List.Nodup
import MuduoPlus.ActionSystem

namespace MuduoPlus

/-- `Node`, with `none` for a null pointer. -/
structure Node (α : Type) where
  v : α
  next : Option Nat

/-- `head_`, `tail_` and the nodes that exist, by address. -/
structure MPSCAtomicQueue (α : Type) where
  heap : Nat → Option (Node α)
  head : Nat
  tail : Nat

/-- Where a thread stands in `enqueue`: outside, with its own node `n`, and between the exchange
of `tail_` that gave it `p` and the store into `p->next`. -/
inductive EnqueuePlace where
  | idle
  | allocated (n : Nat)
  | exchanged (p n : Nat)
  deriving DecidableEq, Repr

namespace MPSCAtomicQueue

variable {α : Type}

def new (stub : Nat) (v : α) : MPSCAtomicQueue α :=
  ⟨Function.update (fun _ => none) stub (some ⟨v, none⟩), stub, stub⟩

/-- `new Node(std::move(x))` at a free address. -/
def alloc (n : Nat) (x : α) (q : MPSCAtomicQueue α) : MPSCAtomicQueue α :=
  { q with heap := Function.update q.heap n (some ⟨x, none⟩) }

/-- `tail_.exchange(n)`; the thread keeps the old value of `tail_`. -/
def exchange (n : Nat) (q : MPSCAtomicQueue α) : MPSCAtomicQueue α := { q with tail := n }

/-- `p->next.store(n)`. -/
def storeNext (p n : Nat) (q : MPSCAtomicQueue α) : MPSCAtomicQueue α :=
  { q with heap := Function.update q.heap p ((q.heap p).map fun node => { node with next := some n }) }

/-- `head_->next.load()`. -/
def loadNext (q : MPSCAtomicQueue α) : Option Nat := (q.heap q.head).bind Node.next

/-- The rest of `dequeue`, with the pointer it loaded: move the value out, delete the old head. -/
def take (next : Nat) (q : MPSCAtomicQueue α) : Option (α × MPSCAtomicQueue α) :=
  match q.heap next with
  | none => none
  | some node => some (node.v, { q with heap := Function.update q.heap q.head none, head := next })

/-- `dequeue` when nothing comes between its steps. -/
def dequeue (q : MPSCAtomicQueue α) : Option (α × MPSCAtomicQueue α) := q.loadNext.bind q.take

/-- `drain`, collecting what it hands to `fn`. -/
def drain : Nat → MPSCAtomicQueue α → List α × MPSCAtomicQueue α
  | 0, q => ([], q)
  | maxItems + 1, q =>
    match q.dequeue with
    | none => ([], q)
    | some (x, q) => (x :: (drain maxItems q).1, (drain maxItems q).2)

end MPSCAtomicQueue

/-- A value behind the head: its node, and the thread whose store of the pointer to the node is
outstanding. -/
structure QueueEntry (τ α : Type) where
  addr : Nat
  v : α
  writer : Option τ

namespace MPSCAtomicQueue

variable {τ α : Type}

/-- From `a` on, each node points to the next one or a thread is about to make it do so. -/
def Linked (heap : Nat → Option (Node α)) (places : τ → EnqueuePlace) :
    Nat → List (QueueEntry τ α) → Prop
  | a, [] => ∃ v, heap a = some ⟨v, none⟩
  | a, e :: es =>
    ((e.writer = none ∧ ∃ v, heap a = some ⟨v, some e.addr⟩) ∨
      ∃ t, e.writer = some t ∧ places t = .exchanged a e.addr ∧ ∃ v, heap a = some ⟨v, none⟩) ∧
    (∃ next, heap e.addr = some ⟨e.v, next⟩) ∧ Linked heap places e.addr es

/-- The nodes of a chain that starts at `a`. -/
def addrs (a : Nat) (es : List (QueueEntry τ α)) : List Nat := a :: es.map QueueEntry.addr

variable {heap heap' : Nat → Option (Node α)} {places places' : τ → EnqueuePlace} {a p n : Nat}
  {e : QueueEntry τ α} {es : List (QueueEntry τ α)} {t : τ} {x : α}

/-- A chain does not see nodes outside it, nor threads that do not write into it. -/
theorem Linked.congr (h : Linked heap places a es) (hheap : ∀ b ∈ addrs a es, heap' b = heap b)
    (hplaces : ∀ e ∈ es, ∀ t, e.writer = some t → places' t = places t) :
    Linked heap' places' a es := by
  induction es generalizing a with
  | nil =>
    obtain ⟨v, hv⟩ := h
    exact ⟨v, (hheap a List.mem_cons_self).trans hv⟩
  | cons e es ih =>
    obtain ⟨hlink, ⟨next, hnext⟩, hrest⟩ := h
    have ha : heap' a = heap a := hheap a List.mem_cons_self
    have he : heap' e.addr = heap e.addr := hheap e.addr (by simp [addrs])
    refine ⟨?_, ⟨next, he.trans hnext⟩, ih hrest ?_ ?_⟩
    · rcases hlink with ⟨hw, v, hv⟩ | ⟨t, hw, hp, v, hv⟩
      · exact Or.inl ⟨hw, v, ha.trans hv⟩
      · exact Or.inr ⟨t, hw, (hplaces e List.mem_cons_self t hw).trans hp, v, ha.trans hv⟩
    · exact fun b hb => hheap b (List.mem_cons_of_mem _ hb)
    · exact fun e' he' => hplaces e' (List.mem_cons_of_mem _ he')

/-- The nodes of a chain exist. -/
theorem Linked.exists_node (h : Linked heap places a es) {b : Nat} (hb : b ∈ addrs a es) :
    ∃ node, heap b = some node := by
  induction es generalizing a with
  | nil =>
    obtain ⟨v, hv⟩ := h
    have hba : b = a := by simpa [addrs] using hb
    exact ⟨_, hba ▸ hv⟩
  | cons e es ih =>
    obtain ⟨hlink, -, hrest⟩ := h
    rcases List.mem_cons.mp hb with rfl | hb
    · rcases hlink with ⟨-, v, hv⟩ | ⟨-, -, -, v, hv⟩
      · exact ⟨_, hv⟩
      · exact ⟨_, hv⟩
    · exact ih hrest hb

/-- A writer is about to store into a node of the chain. -/
theorem Linked.writer (h : Linked heap places a es) (he : e ∈ es) (hw : e.writer = some t) :
    ∃ b ∈ addrs a es, places t = .exchanged b e.addr := by
  induction es generalizing a with
  | nil => cases he
  | cons e' es ih =>
    obtain ⟨hlink, -, hrest⟩ := h
    rcases List.mem_cons.mp he with rfl | he
    · rcases hlink with ⟨hw', -⟩ | ⟨t', hw', hp, -⟩
      · rw [hw] at hw'
        cases hw'
      · rw [hw] at hw'
        cases hw'
        exact ⟨a, List.mem_cons_self, hp⟩
    · obtain ⟨b, hb, hp⟩ := ih hrest he
      exact ⟨b, List.mem_cons_of_mem _ hb, hp⟩

/-- A writer has one place in a chain: behind its entry it does not write. -/
theorem Linked.writer_unique (h : Linked heap places a (e :: es)) (hnd : (addrs a (e :: es)).Nodup)
    (hw : e.writer = some t) : places t = .exchanged a e.addr ∧ ∀ e' ∈ es, e'.writer ≠ some t := by
  obtain ⟨⟨hw', -⟩ | ⟨t', hw', hp, -⟩, -, hrest⟩ := h
  · rw [hw] at hw'
    cases hw'
  · rw [hw] at hw'
    cases hw'
    refine ⟨hp, ?_⟩
    intro e' he' hw''
    obtain ⟨b, -, hb⟩ := hrest.writer he' hw''
    rw [hp] at hb
    have haddr : e.addr = e'.addr := (EnqueuePlace.exchanged.inj hb).2
    have hnd' : (addrs e.addr es).Nodup := (List.nodup_cons.mp hnd).2
    exact (List.nodup_cons.mp hnd').1 (haddr ▸ List.mem_map_of_mem he')

/-- A new last node, whose thread is about to link it. -/
theorem Linked.snoc (h : Linked heap places a es)
    (hlast : places t = .exchanged ((addrs a es).getLast (List.cons_ne_nil _ _)) n)
    (hn : heap n = some ⟨x, none⟩) : Linked heap places a (es ++ [⟨n, x, some t⟩]) := by
  induction es generalizing a with
  | nil => exact ⟨Or.inr ⟨t, rfl, hlast, h⟩, ⟨none, hn⟩, ⟨x, hn⟩⟩
  | cons e es ih =>
    obtain ⟨hlink, hnode, hrest⟩ := h
    refine ⟨hlink, hnode, ih hrest ?_⟩
    rw [hlast]
    simp [addrs]

/-- The queue holds the entries `es`, oldest first, with the threads at `places`. Nodes that are
not exchanged yet belong to one thread each. -/
structure Holds (q : MPSCAtomicQueue α) (places : τ → EnqueuePlace) (es : List (QueueEntry τ α)) :
    Prop where
  linked : Linked q.heap places q.head es
  distinct : (addrs q.head es).Nodup
  last : (addrs q.head es).getLast (List.cons_ne_nil _ _) = q.tail
  writers : ∀ t p n, places t = .exchanged p n → ∃ e ∈ es, e.writer = some t
  fresh : ∀ t n, places t = .allocated n → n ∉ addrs q.head es ∧ ∃ x, q.heap n = some ⟨x, none⟩
  apart : ∀ t t' n, places t = .allocated n → places t' = .allocated n → t = t'

variable {q : MPSCAtomicQueue α}

theorem holds_new (stub : Nat) (v : α) : Holds (new stub v) (fun _ : τ => .idle) [] where
  linked := ⟨v, by simp [new]⟩
  distinct := List.nodup_singleton stub
  last := rfl
  writers _ _ _ h := nomatch h
  fresh _ _ h := nomatch h
  apart _ _ _ h := nomatch h

/-- `head_->next` is null when nothing is left or the store into it is outstanding. -/
theorem Holds.loadNext_none (h : Holds q places es) (hl : q.loadNext = none) :
    es = [] ∨ ∃ e rest t, es = e :: rest ∧ e.writer = some t ∧
      places t = .exchanged q.head e.addr := by
  rcases es with _ | ⟨e, rest⟩
  · exact Or.inl rfl
  · obtain ⟨⟨-, v, hv⟩ | ⟨t, hw, hp, -⟩, -, -⟩ := h.linked
    · simp [loadNext, hv] at hl
    · exact Or.inr ⟨e, rest, t, rfl, hw, hp⟩

/-- What `head_->next` points to is the oldest entry, and nobody is about to store into `head_`. -/
theorem Holds.loadNext_some (h : Holds q places es) (hl : q.loadNext = some n) :
    ∃ v rest, es = ⟨n, v, none⟩ :: rest := by
  rcases es with _ | ⟨⟨addr, v, writer⟩, rest⟩
  · obtain ⟨v, hv⟩ := h.linked
    simp [loadNext, hv] at hl
  · obtain ⟨⟨hw, w, hv⟩ | ⟨-, -, -, w, hv⟩, -, -⟩ := h.linked
    · have haddr : addr = n := by simpa [loadNext, hv] using hl
      cases hw
      exact ⟨v, rest, by rw [haddr]⟩
    · simp [loadNext, hv] at hl

/-- Threads store into nodes of the chain, and into its first one only while it has no
successor. -/
theorem Holds.store_target (h : Holds q places es) (ht : places t = .exchanged p n) :
    p ∈ addrs q.head es ∧ (∀ e rest, es = e :: rest → e.writer = none → p ≠ q.head) := by
  obtain ⟨e, he, hw⟩ := h.writers t p n ht
  obtain ⟨b, hb, hpb⟩ := h.linked.writer he hw
  rw [ht] at hpb
  cases hpb
  refine ⟨hb, ?_⟩
  rintro e' rest rfl hnone rfl
  have he' : e ∈ rest := by
    rcases List.mem_cons.mp he with rfl | he'
    · rw [hnone] at hw
      cases hw
    · exact he'
  obtain ⟨b', hb', hpb'⟩ := h.linked.2.2.writer he' hw
  rw [ht] at hpb'
  have heq : q.head = b' := (EnqueuePlace.exchanged.inj hpb').1
  exact (List.nodup_cons.mp h.distinct).1 (heq ▸ hb')

theorem Holds.take {v : α} {rest : List (QueueEntry τ α)}
    (h : Holds q places (⟨n, v, none⟩ :: rest)) :
    ∃ q', q.take n = some (v, q') ∧ Holds q' places rest := by
  obtain ⟨-, ⟨next, hnode⟩, hrest⟩ := h.linked
  have hheadNot : q.head ∉ addrs n rest := (List.nodup_cons.mp h.distinct).1
  refine ⟨{ q with heap := Function.update q.heap q.head none, head := n }, ?_, ?_⟩
  · simp only [MPSCAtomicQueue.take]
    rw [hnode]
  refine ⟨?_, (List.nodup_cons.mp h.distinct).2, ?_, ?_, ?_, h.apart⟩
  · refine hrest.congr ?_ fun _ _ _ _ => rfl
    intro b hb
    refine Function.update_of_ne ?_ _ _
    rintro rfl
    exact hheadNot hb
  · have hlast := h.last
    simp only [addrs, List.map_cons] at hlast
    rwa [List.getLast_cons (List.cons_ne_nil _ _)] at hlast
  · intro t p m hp
    obtain ⟨e, he, hw⟩ := h.writers t p m hp
    rcases List.mem_cons.mp he with rfl | he
    · cases hw
    · exact ⟨e, he, hw⟩
  · intro t m hm
    obtain ⟨hout, y, hy⟩ := h.fresh t m hm
    refine ⟨fun hmem => hout (List.mem_cons_of_mem _ hmem), y, ?_⟩
    have hne : m ≠ q.head := fun heq => hout (heq ▸ List.mem_cons_self)
    exact (Function.update_of_ne hne _ _).trans hy

/-- The entry without its writer, if that is `t`. -/
def clearWriter [DecidableEq τ] (t : τ) (e : QueueEntry τ α) : QueueEntry τ α :=
  if e.writer = some t then { e with writer := none } else e

/-- An entry that can be taken stays the first one when others come behind it. -/
theorem front_append (h : ∃ v rest, es = (⟨n, v, none⟩ : QueueEntry τ α) :: rest)
    (e : QueueEntry τ α) : ∃ v rest, es ++ [e] = ⟨n, v, none⟩ :: rest := by
  obtain ⟨v, rest, rfl⟩ := h
  exact ⟨v, rest ++ [e], rfl⟩

variable [DecidableEq τ]

theorem front_clearWriter (t : τ) (h : ∃ v rest, es = (⟨n, v, none⟩ : QueueEntry τ α) :: rest) :
    ∃ v rest, es.map (clearWriter t) = ⟨n, v, none⟩ :: rest := by
  obtain ⟨v, rest, rfl⟩ := h
  exact ⟨v, rest.map (clearWriter t), rfl⟩

theorem clearWriter_addr (t : τ) (e : QueueEntry τ α) : (clearWriter t e).addr = e.addr := by
  unfold clearWriter
  split <;> rfl

theorem clearWriter_v (t : τ) (e : QueueEntry τ α) : (clearWriter t e).v = e.v := by
  unfold clearWriter
  split <;> rfl

theorem map_clearWriter_addr (t : τ) (es : List (QueueEntry τ α)) :
    (es.map (clearWriter t)).map QueueEntry.addr = es.map QueueEntry.addr := by
  rw [List.map_map]
  exact List.map_congr_left fun e _ => clearWriter_addr t e

theorem map_clearWriter_v (t : τ) (es : List (QueueEntry τ α)) :
    (es.map (clearWriter t)).map QueueEntry.v = es.map QueueEntry.v := by
  rw [List.map_map]
  exact List.map_congr_left fun e _ => clearWriter_v t e

/-- The store of the writer of the first entry. -/
theorem Linked.storeNext_first (h : Linked heap places a (e :: es))
    (hnd : (addrs a (e :: es)).Nodup) (hw : e.writer = some t)
    (hplaces : ∀ t', t' ≠ t → places' t' = places t') :
    Linked (Function.update heap a ((heap a).map fun node => { node with next := some e.addr }))
      places' a ((e :: es).map (clearWriter t)) := by
  obtain ⟨-, hother⟩ := h.writer_unique hnd hw
  obtain ⟨hlink, ⟨next, hnode⟩, hrest⟩ := h
  have ha : ∃ v next, heap a = some ⟨v, next⟩ := by
    rcases hlink with ⟨-, v, hv⟩ | ⟨-, -, -, v, hv⟩
    · exact ⟨v, _, hv⟩
    · exact ⟨v, _, hv⟩
  obtain ⟨v, old, hv⟩ := ha
  have hane : a ∉ addrs e.addr es := (List.nodup_cons.mp hnd).1
  have hne : e.addr ≠ a := fun heq => hane (heq ▸ List.mem_cons_self)
  have hclear : es.map (clearWriter t) = es := by
    refine (List.map_congr_left fun e' he' => ?_).trans (List.map_id es)
    exact if_neg (hother e' he')
  rw [List.map_cons, hclear]
  refine ⟨Or.inl ⟨?_, v, ?_⟩, ⟨next, ?_⟩, ?_⟩
  · simp [clearWriter, hw]
  · simp [hv, clearWriter_addr]
  · rw [clearWriter_addr, clearWriter_v, Function.update_of_ne hne]
    exact hnode
  · rw [clearWriter_addr]
    refine hrest.congr ?_ ?_
    · intro b hb
      refine Function.update_of_ne ?_ _ _
      rintro rfl
      exact hane hb
    · intro e' he' t' hw'
      exact hplaces t' fun heq => hother e' he' (heq ▸ hw')

/-- A store closes its own gap and no other. -/
theorem Linked.storeNext (h : Linked heap places a es) (hnd : (addrs a es).Nodup)
    (ht : places t = .exchanged p n) (hheap : heap' = Function.update heap p
      ((heap p).map fun node => { node with next := some n }))
    (hplaces : ∀ t', t' ≠ t → places' t' = places t') (hw : ∃ e ∈ es, e.writer = some t) :
    Linked heap' places' a (es.map (clearWriter t)) := by
  subst hheap
  induction es generalizing a with
  | nil =>
    obtain ⟨e, he, -⟩ := hw
    cases he
  | cons e es ih =>
    by_cases hew : e.writer = some t
    · obtain ⟨hp, -⟩ := h.writer_unique hnd hew
      rw [ht] at hp
      cases hp
      exact h.storeNext_first hnd hew hplaces
    · -- the gap is further on, so `p` is not this node
      obtain ⟨hlink, ⟨next, hnode⟩, hrest⟩ := h
      have hw' : ∃ e ∈ es, e.writer = some t := by
        obtain ⟨e', he', hw'⟩ := hw
        rcases List.mem_cons.mp he' with rfl | he'
        · exact absurd hw' hew
        · exact ⟨e', he', hw'⟩
      have hp : p ∈ addrs e.addr es := by
        obtain ⟨e', he', hw''⟩ := hw'
        obtain ⟨b, hb, hpb⟩ := hrest.writer he' hw''
        rw [ht] at hpb
        exact (EnqueuePlace.exchanged.inj hpb).1 ▸ hb
      have hap : a ≠ p := fun heq => (List.nodup_cons.mp hnd).1 (heq ▸ hp)
      have hclear : clearWriter t e = e := if_neg hew
      rw [List.map_cons, hclear]
      refine ⟨?_, ?_, ih hrest (List.nodup_cons.mp hnd).2 hw'⟩
      · rw [Function.update_of_ne hap]
        rcases hlink with hlink | ⟨t', hw'', hpl, hv⟩
        · exact Or.inl hlink
        · refine Or.inr ⟨t', hw'', ?_, hv⟩
          rw [hplaces t' fun heq => hew (heq ▸ hw'')]
          exact hpl
      · by_cases hep : e.addr = p
        · subst hep
          exact ⟨some n, by simp [hnode]⟩
        · exact ⟨next, (Function.update_of_ne hep _ _).trans hnode⟩

theorem Holds.alloc (h : Holds q places es) (ht : places t = .idle) (hn : q.heap n = none)
    (x : α) : Holds (q.alloc n x) (Function.update places t (.allocated n)) es := by
  have hfree : n ∉ addrs q.head es := by
    intro hmem
    obtain ⟨node, hnode⟩ := h.linked.exists_node hmem
    rw [hn] at hnode
    cases hnode
  have hplace : ∀ {t' place}, Function.update places t (.allocated n) t' = place →
      place ≠ .allocated n → t' ≠ t ∧ places t' = place := by
    rintro t' place rfl hne
    have htt : t' ≠ t := by
      rintro rfl
      exact hne (Function.update_self _ _ _)
    exact ⟨htt, (Function.update_of_ne htt _ _).symm⟩
  refine ⟨?_, h.distinct, h.last, ?_, ?_, ?_⟩
  · refine h.linked.congr ?_ ?_
    · intro b hb
      refine Function.update_of_ne ?_ _ _
      rintro rfl
      exact hfree hb
    · intro e he t' hw
      obtain ⟨b, -, hb⟩ := h.linked.writer he hw
      refine Function.update_of_ne ?_ _ _
      rintro rfl
      rw [ht] at hb
      cases hb
  · intro t' p m hp
    exact h.writers t' p m (hplace hp (by simp)).2
  · intro t' m hm
    by_cases hmn : m = n
    · subst hmn
      exact ⟨hfree, x, Function.update_self _ _ _⟩
    · obtain ⟨-, hm'⟩ := hplace hm (by simp [hmn])
      obtain ⟨hout, y, hy⟩ := h.fresh t' m hm'
      exact ⟨hout, y, (Function.update_of_ne hmn _ _).trans hy⟩
  · intro t₁ t₂ m h₁ h₂
    by_cases hmn : m = n
    · subst hmn
      -- an address that was free is the node of the allocating thread only
      have hown : ∀ t', Function.update places t (.allocated m) t' = .allocated m → t' = t := by
        intro t' ht'
        by_contra hne
        rw [Function.update_of_ne hne] at ht'
        obtain ⟨-, y, hy⟩ := h.fresh t' m ht'
        rw [hn] at hy
        cases hy
      rw [hown t₁ h₁, hown t₂ h₂]
    · exact h.apart t₁ t₂ m (hplace h₁ (by simp [hmn])).2 (hplace h₂ (by simp [hmn])).2

theorem Holds.exchange (h : Holds q places es) (ht : places t = .allocated n)
    (hx : q.heap n = some ⟨x, none⟩) :
    Holds (q.exchange n) (Function.update places t (.exchanged q.tail n))
      (es ++ [⟨n, x, some t⟩]) := by
  obtain ⟨hout, -⟩ := h.fresh t n ht
  have haddrs : addrs q.head (es ++ [⟨n, x, some t⟩]) = addrs q.head es ++ [n] := by
    simp [addrs]
  have hother : ∀ {t' place}, Function.update places t (.exchanged q.tail n) t' = place →
      t' ≠ t → places t' = place := by
    rintro t' place rfl hne
    exact (Function.update_of_ne hne _ _).symm
  refine ⟨?_, ?_, ?_, ?_, ?_, ?_⟩
  · have hlinked : Linked q.heap (Function.update places t (.exchanged q.tail n)) q.head es := by
      refine h.linked.congr (fun _ _ => rfl) ?_
      intro e he t' hw
      obtain ⟨b, -, hb⟩ := h.linked.writer he hw
      refine Function.update_of_ne ?_ _ _
      rintro rfl
      rw [ht] at hb
      cases hb
    refine hlinked.snoc ?_ hx
    rw [Function.update_self, h.last]
  · show (addrs q.head (es ++ [_])).Nodup
    rw [haddrs]
    exact List.nodup_append.mpr ⟨h.distinct, List.nodup_singleton n,
      fun b hb c hc heq => hout ((List.mem_singleton.mp hc) ▸ heq ▸ hb)⟩
  · show (addrs q.head (es ++ [_])).getLast _ = n
    simp [haddrs]
  · intro t' p m hp
    by_cases htt : t' = t
    · subst htt
      exact ⟨_, List.mem_append_right _ List.mem_cons_self, rfl⟩
    · obtain ⟨e, he, hw⟩ := h.writers t' p m (hother hp htt)
      exact ⟨e, List.mem_append_left _ he, hw⟩
  · intro t' m hm
    have htt : t' ≠ t := by
      rintro rfl
      rw [Function.update_self] at hm
      cases hm
    obtain ⟨hout', y, hy⟩ := h.fresh t' m (hother hm htt)
    refine ⟨?_, y, hy⟩
    show m ∉ addrs q.head (es ++ [_])
    rw [haddrs, List.mem_append, List.mem_singleton]
    rintro (hmem | rfl)
    · exact hout' hmem
    · exact htt (h.apart t' t m (hother hm htt) ht)
  · intro t₁ t₂ m h₁ h₂
    have hne : ∀ t', Function.update places t (.exchanged q.tail n) t' = .allocated m → t' ≠ t := by
      rintro t' ht' rfl
      rw [Function.update_self] at ht'
      cases ht'
    exact h.apart t₁ t₂ m (hother h₁ (hne t₁ h₁)) (hother h₂ (hne t₂ h₂))

theorem Holds.storeNext (h : Holds q places es) (ht : places t = .exchanged p n) :
    Holds (q.storeNext p n) (Function.update places t .idle) (es.map (clearWriter t)) := by
  have haddrs : addrs q.head (es.map (clearWriter t)) = addrs q.head es := by
    rw [addrs, map_clearWriter_addr, addrs]
  have hother : ∀ {t' place}, Function.update places t .idle t' = place → place ≠ .idle →
      t' ≠ t ∧ places t' = place := by
    rintro t' place rfl hne
    have htt : t' ≠ t := by
      rintro rfl
      exact hne (Function.update_self _ _ _)
    exact ⟨htt, (Function.update_of_ne htt _ _).symm⟩
  refine ⟨?_, ?_, ?_, ?_, ?_, ?_⟩
  · exact h.linked.storeNext h.distinct ht rfl (fun t' hne => Function.update_of_ne hne _ _)
      (h.writers t p n ht)
  · show (addrs q.head _).Nodup
    rw [haddrs]
    exact h.distinct
  · show (addrs q.head (es.map (clearWriter t))).getLast _ = q.tail
    simp only [haddrs]
    exact h.last
  · intro t' p' n' hp
    obtain ⟨htt, hp'⟩ := hother hp (by simp)
    obtain ⟨e, he, hw⟩ := h.writers t' p' n' hp'
    refine ⟨clearWriter t e, List.mem_map_of_mem he, ?_⟩
    have hne : e.writer ≠ some t := fun heq => htt (Option.some.inj (hw.symm.trans heq))
    rw [clearWriter, if_neg hne]
    exact hw
  · intro t' m hm
    obtain ⟨-, hm'⟩ := hother hm (by simp)
    obtain ⟨hout, y, hy⟩ := h.fresh t' m hm'
    refine ⟨?_, y, ?_⟩
    · show m ∉ addrs q.head _
      rw [haddrs]
      exact hout
    · obtain ⟨e, he, hw⟩ := h.writers t p n ht
      obtain ⟨b, hb, hpb⟩ := h.linked.writer he hw
      rw [ht] at hpb
      have hmp : m ≠ p := fun heq => hout (heq ▸ (EnqueuePlace.exchanged.inj hpb).1 ▸ hb)
      exact (Function.update_of_ne hmp _ _).trans hy
  · intro t₁ t₂ m h₁ h₂
    exact h.apart t₁ t₂ m (hother h₁ (by simp)).2 (hother h₂ (by simp)).2

end MPSCAtomicQueue

end MuduoPlus
