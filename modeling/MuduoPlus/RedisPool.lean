import Mathlib.Data.List.Count
import Mathlib.Data.List.Nodup
import Mathlib.Data.List.Range
import MuduoPlus.ActionSystem
import MuduoPlus.ListTools

namespace MuduoPlus

/-- Where a thread stands that uses the pool. -/
inductive RedisPoolPlace where
  | idle
  /-- In `GetClient`, waiting for the mutex and a client. -/
  | waiting
  /-- In `GetClient` with the mutex and the client it took. -/
  | taken (c : Nat)
  /-- In the deleter of a client, before `self_weak.lock()`. -/
  | dropping (c : Nat)
  /-- In the deleter with `self`, before `Release` has the mutex. -/
  | returning (c : Nat)
  /-- In `Release` with the mutex. -/
  | inside (c : Nat)
  /-- In `Release` after the `push`. -/
  | pushed
  /-- Out of `Release`, with `self` still held. -/
  | leaving
  /-- In the deleter without a pool. -/
  | deleting (c : Nat)
  /-- In `~RedisPool`, before the mutex. -/
  | destroying
  /-- In the loop of `~RedisPool`. -/
  | emptying
  deriving DecidableEq, Repr

/-- The client that the thread alone has a pointer to. -/
def RedisPoolPlace.client : RedisPoolPlace → Option Nat
  | .taken c => some c
  | .dropping c => some c
  | .returning c => some c
  | .inside c => some c
  | .deleting c => some c
  | _ => none

/-- The reference to the pool that the deleter got from `lock()`. -/
def RedisPoolPlace.self : RedisPoolPlace → Option Unit
  | .returning _ => some ()
  | .inside _ => some ()
  | .pushed => some ()
  | .leaving => some ()
  | _ => none

def RedisPoolPlace.inGetClient : RedisPoolPlace → Bool
  | .waiting => true
  | .taken _ => true
  | _ => false

/-- Places that are only entered without a pool. -/
def RedisPoolPlace.poolGone : RedisPoolPlace → Bool
  | .deleting _ => true
  | .destroying => true
  | .emptying => true
  | _ => false

/-- A pool and the threads that use it. Clients are numbered by the constructor, `made` are those
it put into the pool. `strong` is the count of the shared pointer, `owners` of it are outside the
pool; `borrowed` are the clients whose shared pointer is in use. -/
structure RedisPool where
  made : List Nat
  clients : List Nat
  connected : Nat → Bool
  mutex : Option Nat
  strong : Nat
  owners : Nat
  borrowed : List Nat
  deleted : List Nat
  threads : List RedisPoolPlace

inductive RedisPoolAction where
  | copyOwner
  | dropOwner (t : Nat)
  | callGetClient (t : Nat)
  | takeClient (t : Nat)
  | giveOut (t c : Nat)
  /-- A borrower uses the connection, which is up or down after it. -/
  | useClient (c : Nat) (up : Bool)
  | dropClient (t c : Nat)
  | lockWeak (t c : Nat)
  | enterRelease (t c : Nat)
  | push (t c : Nat) (reconnected : Bool)
  | leaveRelease (t : Nat)
  | dropSelf (t : Nat)
  | deleteClient (t c : Nat)
  | enterDestructor (t : Nat)
  | popClient (t : Nat)
  | leaveDestructor (t : Nat)
  deriving DecidableEq, Repr

namespace RedisPool

/-- The clients whose first `Connect` succeeds, in the order of the loop. -/
def madeOf (connects : List Bool) : List Nat :=
  (List.range connects.length).filter fun i => connects.getD i false

/-- The constructor, with the outcome of each `Connect`; the pool has one owner. -/
def new (connects : List Bool) (threads : Nat) : RedisPool where
  made := madeOf connects
  clients := madeOf connects
  connected _ := true
  mutex := none
  strong := 1
  owners := 1
  borrowed := []
  deleted := []
  threads := List.replicate threads .idle

def goTo (p : RedisPool) (t : Nat) (place : RedisPoolPlace) : RedisPool :=
  { p with threads := p.threads.set t place }

/-- One reference to the pool less; the thread that drops the last one runs the destructor. -/
def dropStrong (p : RedisPool) (t : Nat) : RedisPool :=
  { p with strong := p.strong - 1 }.goTo t (if p.strong ≤ 1 then .destroying else .idle)

def takeClient (p : RedisPool) (t : Nat) : RedisPool :=
  match p.clients with
  | [] => p
  | c :: rest => { p with clients := rest, mutex := some t }.goTo t (.taken c)

/-- `self_weak.lock()`. -/
def lockWeak (p : RedisPool) (t c : Nat) : RedisPool :=
  if 0 < p.strong then { p with strong := p.strong + 1 }.goTo t (.returning c)
  else p.goTo t (.deleting c)

/-- `Release` up to the `push`, which is made whatever `Connect` answered. -/
def push (p : RedisPool) (t c : Nat) (reconnected : Bool) : RedisPool :=
  { p with
    connected := if p.connected c then p.connected else Function.update p.connected c reconnected
    clients := p.clients ++ [c] }.goTo t .pushed

def popClient (p : RedisPool) : RedisPool :=
  match p.clients with
  | [] => p
  | c :: rest => { p with clients := rest, deleted := p.deleted ++ [c] }

/-- Nobody is in `GetClient` when the last reference goes. -/
def MayDrop (p : RedisPool) : Prop :=
  1 < p.strong ∨ ∀ place ∈ p.threads, place.inGetClient = false

instance (p : RedisPool) : Decidable p.MayDrop := by
  unfold MayDrop
  infer_instance

/-- The pool under any number of threads. `GetClient` is called on a living pool only, and the pool
lives until the call returns. -/
def system : ActionSystem RedisPool RedisPoolAction where
  init p := ∃ connects threads, p = new connects threads
  permitted
    | .copyOwner, p => 0 < p.owners
    | .dropOwner t, p => 0 < p.owners ∧ p.threads[t]? = some .idle ∧ p.MayDrop
    | .callGetClient t, p => 0 < p.strong ∧ p.threads[t]? = some .idle
    | .takeClient t, p => p.threads[t]? = some .waiting ∧ p.mutex = none ∧ p.clients ≠ []
    | .giveOut t c, p => p.threads[t]? = some (.taken c)
    | .useClient c _, p => c ∈ p.borrowed
    | .dropClient t c, p => p.threads[t]? = some .idle ∧ c ∈ p.borrowed
    | .lockWeak t c, p => p.threads[t]? = some (.dropping c)
    | .enterRelease t c, p => p.threads[t]? = some (.returning c) ∧ p.mutex = none
    | .push t c _, p => p.threads[t]? = some (.inside c)
    | .leaveRelease t, p => p.threads[t]? = some .pushed
    | .dropSelf t, p => p.threads[t]? = some .leaving ∧ p.MayDrop
    | .deleteClient t c, p => p.threads[t]? = some (.deleting c)
    | .enterDestructor t, p => p.threads[t]? = some .destroying ∧ p.mutex = none
    | .popClient t, p => p.threads[t]? = some .emptying ∧ p.clients ≠ []
    | .leaveDestructor t, p => p.threads[t]? = some .emptying ∧ p.clients = []
  apply
    | .copyOwner, p => { p with strong := p.strong + 1, owners := p.owners + 1 }
    | .dropOwner t, p => { p with owners := p.owners - 1 }.dropStrong t
    | .callGetClient t, p => p.goTo t .waiting
    | .takeClient t, p => p.takeClient t
    | .giveOut t c, p => { p with mutex := none, borrowed := c :: p.borrowed }.goTo t .idle
    | .useClient c up, p => { p with connected := Function.update p.connected c up }
    | .dropClient t c, p => { p with borrowed := p.borrowed.erase c }.goTo t (.dropping c)
    | .lockWeak t c, p => p.lockWeak t c
    | .enterRelease t c, p => { p with mutex := some t }.goTo t (.inside c)
    | .push t c reconnected, p => p.push t c reconnected
    | .leaveRelease t, p => { p with mutex := none }.goTo t .leaving
    | .dropSelf t, p => p.dropStrong t
    | .deleteClient t c, p => { p with deleted := p.deleted ++ [c] }.goTo t .idle
    | .enterDestructor t, p => { p with mutex := some t }.goTo t .emptying
    | .popClient _, p => p.popClient
    | .leaveDestructor t, p => { p with mutex := none }.goTo t .idle

section Books

variable {p : RedisPool} {t c : Nat} {place old : RedisPoolPlace}

/-- How many threads have a pointer to the client of their own. -/
def inHand (p : RedisPool) (c : Nat) : Nat := (p.threads.filterMap RedisPoolPlace.client).count c

/-- How many deleters hold the pool. -/
def selves (p : RedisPool) : Nat := (p.threads.filterMap RedisPoolPlace.self).count ()

/-- Every client is accounted for, and so is every reference to the pool; a client is deleted only
when there is none. -/
structure Books (p : RedisPool) : Prop where
  made_once : p.made.Nodup
  conserved : ∀ c, p.clients.count c + (p.borrowed.count c + p.inHand c) + p.deleted.count c =
    p.made.count c
  references : p.strong = p.owners + p.selves
  gone : ∀ place ∈ p.threads, place.poolGone = true → p.strong = 0
  deleted_gone : p.deleted ≠ [] → p.strong = 0

theorem inHand_goTo (h : p.threads[t]? = some old) (place : RedisPoolPlace) (c : Nat) :
    (p.goTo t place).inHand c + old.client.toList.count c =
      p.inHand c + place.client.toList.count c :=
  count_filterMap_set RedisPoolPlace.client h place c

theorem selves_goTo (h : p.threads[t]? = some old) (place : RedisPoolPlace) :
    (p.goTo t place).selves + old.self.toList.count () =
      p.selves + place.self.toList.count () :=
  count_filterMap_set RedisPoolPlace.self h place ()

/-- A thread goes on: what the step does to the lists and the counts has to match what the thread
gets or gives away. -/
theorem Books.goTo {p' : RedisPool} (h : Books p) (hold : p.threads[t]? = some old)
    (hmade : p'.made = p.made) (hthreads : p'.threads = p.threads)
    (hmoved : ∀ c, p'.clients.count c + p'.borrowed.count c + p'.deleted.count c +
        place.client.toList.count c =
      p.clients.count c + p.borrowed.count c + p.deleted.count c + old.client.toList.count c)
    (hcounted : p'.strong + (p.owners + old.self.toList.count ()) =
      p.strong + (p'.owners + place.self.toList.count ()))
    (hzero : p.strong = 0 → p'.strong = 0) (hgone : place.poolGone = true → p'.strong = 0)
    (hdeleted : p'.deleted ≠ [] → p'.strong = 0) : Books (p'.goTo t place) := by
  have hinHand : ∀ c, (p'.goTo t place).inHand c + old.client.toList.count c =
      p.inHand c + place.client.toList.count c := by
    intro c
    have hset := inHand_goTo (p := p') (hthreads ▸ hold) place c
    rwa [show p'.inHand c = p.inHand c by rw [inHand, hthreads]; rfl] at hset
  have hselves : (p'.goTo t place).selves + old.self.toList.count () =
      p.selves + place.self.toList.count () := by
    have hset := selves_goTo (p := p') (hthreads ▸ hold) place
    rwa [show p'.selves = p.selves by rw [selves, hthreads]; rfl] at hset
  refine ⟨?_, ?_, ?_, ?_, hdeleted⟩
  · change p'.made.Nodup
    rw [hmade]
    exact h.made_once
  · intro c
    have hbooks := h.conserved c
    have hm := hmoved c
    have hi := hinHand c
    change p'.clients.count c + (p'.borrowed.count c + (p'.goTo t place).inHand c) +
      p'.deleted.count c = p'.made.count c
    rw [hmade]
    omega
  · have href := h.references
    change p'.strong = p'.owners + (p'.goTo t place).selves
    omega
  · intro other hm hg
    change other ∈ p'.threads.set t place at hm
    rw [hthreads] at hm
    rcases List.mem_or_eq_of_mem_set hm with hm | rfl
    · exact hzero (h.gone other hm hg)
    · exact hgone hg

theorem Books.gone_at (h : Books p) (hold : p.threads[t]? = some place)
    (hg : place.poolGone = true) : p.strong = 0 :=
  h.gone place (List.mem_of_getElem? hold) hg

/-- A deleter that holds the pool keeps it. -/
theorem Books.self_lt (h : Books p) (hold : p.threads[t]? = some place)
    (hs : place.self = some ()) : p.owners < p.strong := by
  have hmem : () ∈ p.threads.filterMap RedisPoolPlace.self :=
    List.mem_filterMap.mpr ⟨place, List.mem_of_getElem? hold, hs⟩
  have hpos := List.count_pos_iff.mpr hmem
  have href := h.references
  unfold selves at href
  omega

theorem nodup_madeOf (connects : List Bool) : (madeOf connects).Nodup :=
  List.nodup_range.filter _

theorem books_new (connects : List Bool) (threads : Nat) : Books (new connects threads) := by
  have hidle : ∀ place ∈ List.replicate threads RedisPoolPlace.idle, place = .idle :=
    fun place hm => List.eq_of_mem_replicate hm
  have hclient : (List.replicate threads RedisPoolPlace.idle).filterMap RedisPoolPlace.client = [] := by
    rw [List.filterMap_eq_nil_iff]
    intro place hm
    rw [hidle place hm]
    rfl
  have hself : (List.replicate threads RedisPoolPlace.idle).filterMap RedisPoolPlace.self = [] := by
    rw [List.filterMap_eq_nil_iff]
    intro place hm
    rw [hidle place hm]
    rfl
  refine ⟨nodup_madeOf connects, ?_, ?_, ?_, fun hne => absurd rfl hne⟩
  · intro c
    simp [new, inHand, hclient]
  · simp [new, selves, hself]
  · intro place hm hg
    rw [hidle place hm] at hg
    cases hg

theorem Books.dropStrong {p' : RedisPool} (h : Books p) (hold : p.threads[t]? = some old)
    (hclient : old.client = none) (hmade : p'.made = p.made) (hthreads : p'.threads = p.threads)
    (hlists : p'.clients = p.clients ∧ p'.borrowed = p.borrowed ∧ p'.deleted = p.deleted)
    (hstrong : p'.strong = p.strong)
    (hdropped : 0 < p.strong ∧ p'.owners + 1 = p.owners + old.self.toList.count ()) :
    Books (p'.dropStrong t) := by
  obtain ⟨hclients, hborrowed, hdeleted⟩ := hlists
  have hnext : ∀ next : RedisPoolPlace, next = .destroying ∨ next = .idle →
      next.client = none ∧ next.self = none := by
    rintro next (rfl | rfl)
    · exact ⟨rfl, rfl⟩
    · exact ⟨rfl, rfl⟩
  unfold RedisPool.dropStrong
  generalize hplace : (if p'.strong ≤ 1 then RedisPoolPlace.destroying else .idle) = next
  have hcases : next = .destroying ∨ next = .idle := by
    rw [← hplace]
    split
    · exact Or.inl rfl
    · exact Or.inr rfl
  obtain ⟨hno, hnoself⟩ := hnext next hcases
  refine h.goTo hold hmade hthreads ?_ ?_ ?_ ?_ ?_
  · intro c
    dsimp only
    rw [hclients, hborrowed, hdeleted, hclient, hno]
  · dsimp only
    rw [hstrong, hnoself]
    change _ = p.strong + (p'.owners + 0)
    omega
  · intro hz
    omega
  · intro hg
    rw [← hplace] at hg
    dsimp only
    split at hg
    next hle => omega
    next => cases hg
  · intro hne
    dsimp only at hne ⊢
    rw [hdeleted] at hne
    have := h.deleted_gone hne
    omega

theorem Books.takeClient (h : Books p) (hold : p.threads[t]? = some .waiting) :
    Books (p.takeClient t) := by
  unfold RedisPool.takeClient
  cases hc : p.clients with
  | nil => exact h
  | cons c rest =>
    refine h.goTo hold rfl rfl (fun x => ?_) rfl id (fun hg => by cases hg) h.deleted_gone
    dsimp only
    rw [hc, List.count_cons]
    change _ + List.count x [c] = _ + 0
    rw [List.count_singleton]
    omega

theorem Books.lockWeak (h : Books p) (hold : p.threads[t]? = some (.dropping c)) :
    Books (p.lockWeak t c) := by
  unfold RedisPool.lockWeak
  split
  next hpos =>
    refine h.goTo hold rfl rfl (fun x => rfl) ?_ (by omega) (fun hg => by cases hg) ?_
    · change p.strong + 1 + (p.owners + 0) = p.strong + (p.owners + 1)
      omega
    · intro hne
      have hzero := h.deleted_gone hne
      omega
  next hzero =>
    exact h.goTo hold rfl rfl (fun x => rfl) rfl id (fun _ => by omega) h.deleted_gone

theorem Books.push (h : Books p) (hold : p.threads[t]? = some (.inside c)) (reconnected : Bool) :
    Books (p.push t c reconnected) := by
  refine h.goTo hold rfl rfl (fun x => ?_) rfl id (fun hg => by cases hg) h.deleted_gone
  dsimp only
  rw [List.count_append]
  change _ + 0 = _ + List.count x [c]
  omega

theorem Books.popClient (h : Books p) (hold : p.threads[t]? = some .emptying) :
    Books p.popClient := by
  have hzero := h.gone_at hold rfl
  unfold RedisPool.popClient
  cases hc : p.clients with
  | nil => exact h
  | cons c rest =>
    refine ⟨h.made_once, fun x => ?_, h.references, h.gone, fun _ => hzero⟩
    have hbooks := h.conserved x
    rw [hc, List.count_cons] at hbooks
    change rest.count x + (p.borrowed.count x + p.inHand x) + (p.deleted ++ [c]).count x =
      p.made.count x
    rw [List.count_append, List.count_singleton]
    omega

theorem Books.step (h : Books p) (a : RedisPoolAction) (ha : system.permitted a p) :
    Books (system.apply a p) := by
  cases a with
  | copyOwner =>
    have hpos : 0 < p.owners := ha
    have href := h.references
    refine ⟨h.made_once, h.conserved, ?_, fun place hm hg => ?_, fun hne => ?_⟩
    · change p.strong + 1 = p.owners + 1 + p.selves
      omega
    · have := h.gone place hm hg
      omega
    · have := h.deleted_gone hne
      omega
  | dropOwner t =>
    obtain ⟨hpos, hold, -⟩ := ha
    have href := h.references
    refine h.dropStrong hold rfl rfl rfl ⟨rfl, rfl, rfl⟩ rfl ⟨by omega, ?_⟩
    change p.owners - 1 + 1 = p.owners + 0
    omega
  | callGetClient t =>
    exact h.goTo ha.2 rfl rfl (fun x => rfl) rfl id (fun hg => by cases hg) h.deleted_gone
  | takeClient t => exact h.takeClient ha.1
  | giveOut t c =>
    have hold : p.threads[t]? = some (.taken c) := ha
    refine h.goTo hold rfl rfl (fun x => ?_) rfl id (fun hg => by cases hg) h.deleted_gone
    dsimp only
    rw [List.count_cons]
    change _ + 0 = _ + List.count x [c]
    rw [List.count_singleton]
    omega
  | useClient c up => exact ⟨h.made_once, h.conserved, h.references, h.gone, h.deleted_gone⟩
  | dropClient t c =>
    obtain ⟨hold, hm⟩ := ha
    refine h.goTo hold rfl rfl (fun x => ?_) rfl id (fun hg => by cases hg) h.deleted_gone
    dsimp only
    change _ + List.count x [c] = _ + 0
    rw [List.count_singleton, List.count_erase]
    by_cases hx : c = x
    · subst hx
      have hpos := List.count_pos_iff.mpr hm
      simp only [beq_self_eq_true, if_true]
      omega
    · have hne : (c == x) = false := beq_eq_false_iff_ne.mpr hx
      simp only [hne, Bool.false_eq_true, if_false]
      omega
  | lockWeak t c => exact h.lockWeak ha
  | enterRelease t c =>
    exact h.goTo ha.1 rfl rfl (fun x => rfl) rfl id (fun hg => by cases hg) h.deleted_gone
  | push t c reconnected => exact h.push ha reconnected
  | leaveRelease t =>
    exact h.goTo ha rfl rfl (fun x => rfl) rfl id (fun hg => by cases hg) h.deleted_gone
  | dropSelf t =>
    have hlt := h.self_lt ha.1 rfl
    exact h.dropStrong ha.1 rfl rfl rfl ⟨rfl, rfl, rfl⟩ rfl ⟨by omega, rfl⟩
  | deleteClient t c =>
    have hold : p.threads[t]? = some (.deleting c) := ha
    have hzero := h.gone_at hold rfl
    refine h.goTo hold rfl rfl (fun x => ?_) rfl id (fun hg => by cases hg) fun _ => hzero
    dsimp only
    rw [List.count_append]
    change _ + 0 = _ + List.count x [c]
    omega
  | enterDestructor t =>
    have hzero := h.gone_at ha.1 rfl
    exact h.goTo ha.1 rfl rfl (fun x => rfl) rfl id (fun _ => hzero) h.deleted_gone
  | popClient t => exact h.popClient ha.1
  | leaveDestructor t =>
    exact h.goTo ha.1 rfl rfl (fun x => rfl) rfl id (fun hg => by cases hg) h.deleted_gone

theorem books_of_reachable (h : system.Reachable p) : Books p := by
  refine h.invariant ?_ fun a p ha hp => hp.step a ha
  rintro p ⟨connects, threads, rfl⟩
  exact books_new connects threads

/-- Where a client may be: in the pool, with one borrower or in the hands of one thread, or
deleted. -/
def held (p : RedisPool) : List Nat := p.borrowed ++ p.threads.filterMap RedisPoolPlace.client

/-- A pool never loses a client and never has one twice, whatever the threads do; clients are
deleted only once the last reference to the pool is gone, and `Release` runs before that. -/
theorem clients_conserved (h : system.Reachable p) :
    (∀ c, p.clients.count c + p.held.count c + p.deleted.count c = if c ∈ p.made then 1 else 0) ∧
      (p.deleted ≠ [] → p.strong = 0) ∧
      ∀ place ∈ p.threads, place.self = some () → 0 < p.strong := by
  have hbooks := books_of_reachable h
  refine ⟨fun c => ?_, hbooks.deleted_gone, fun place hm hs => ?_⟩
  · have hc := hbooks.conserved c
    rw [hbooks.made_once.count] at hc
    rw [held, List.count_append]
    exact hc
  · obtain ⟨t, hold⟩ := List.mem_iff_getElem?.mp hm
    have hlt := hbooks.self_lt hold hs
    omega

end Books

/-- Two clients of three are made. One comes back, with a broken connection, as the last reference
to the pool goes; the other is dropped while the pool is destroyed. -/
def lastReference : List RedisPoolAction :=
  [.callGetClient 0, .takeClient 0, .giveOut 0 0, .callGetClient 1, .takeClient 1, .giveOut 1 2,
    .useClient 0 false, .dropClient 0 0, .lockWeak 0 0, .dropOwner 1, .enterRelease 0 0,
    .push 0 0 false, .leaveRelease 0, .dropSelf 0, .enterDestructor 0, .popClient 0, .dropClient 1 2,
    .lockWeak 1 2, .deleteClient 1 2, .leaveDestructor 0]

instance (a : RedisPoolAction) (p : RedisPool) : Decidable (system.permitted a p) := by
  cases a <;> (unfold system; dsimp only; infer_instance)

theorem clients_conserved_lastReference :
    let p := system.run lastReference (new [true, false, true] 2)
    p.deleted = [0, 2] ∧ p.made = [0, 2] ∧
      ∀ c, p.clients.count c + p.held.count c + p.deleted.count c = if c ∈ p.made then 1 else 0 := by
  intro p
  have hpermits : system.Permits lastReference (new [true, false, true] 2) := by decide +kernel
  have hnew : system.Reachable (new [true, false, true] 2) := .init ⟨_, _, rfl⟩
  exact ⟨by decide +kernel, by decide +kernel, (clients_conserved (hnew.run hpermits)).1⟩

end RedisPool

end MuduoPlus
