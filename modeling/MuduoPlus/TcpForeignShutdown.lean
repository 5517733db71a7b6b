import MuduoPlus.EventLog
import MuduoPlus.TcpFileOrder
import MuduoPlus.TcpSteps

namespace MuduoPlus

def ConnEvent.IsShutdownWrite : ConnEvent → Prop
  | .shutdownWrite _ _ => True
  | _ => False

theorem ConnEvent.not_isShutdownWrite {e : ConnEvent} (h : ¬ e.Ends) : ¬ e.IsShutdownWrite := by
  cases e with
  | shutdownWrite st unsent => exact h
  | _ => exact id

def ConnEvent.chunk : ConnEvent → Option Bytes
  | .passed data => some data
  | _ => none

theorem WriteResult.PartialOf.not_broken {len : Nat} {result : WriteResult}
    (h : result.PartialOf len) : ¬ result.Broken := by
  rintro (rfl | rfl)
  · exact h
  · exact h

/-- Where the foreign thread is: between two calls, in `send` behind its test of `state_`, in
`shutdown` behind its test, behind `setState(kDisconnecting)`, or through with `shutdown`. -/
inductive ForeignPlace where
  | between
  | sending (data : Bytes)
  | closing
  | disconnecting
  | finished
  deriving DecidableEq, Repr

def ForeignPlace.inHand : ForeignPlace → List Bytes
  | .sending data => [data]
  | _ => []

/-- A connection with one foreign thread, and the data of the thread's calls of `send`. -/
structure ForeignRun (α : Type) where
  conn : TcpConnection α
  place : ForeignPlace
  asked : List Bytes

/-- The foreign thread tests `state_`, changes it and pushes functors in steps of their own;
between them the loop's thread does what it likes. -/
inductive ForeignStep (α : Type) where
  | testSend (data : Bytes)
  | pushSend
  | testShutdown
  | setDisconnecting
  | pushShutdown
  | loop (call : TcpConnection.ConnCall α)

namespace TcpConnection

variable {α : Type} {s t : TcpConnection α} {asked : List Bytes}

/-- All of `asked` was passed to `sendInLoop`, in order, and the kernel has taken every byte
that was passed. -/
def Handed (asked : List Bytes) (trace : List ConnEvent) : Prop :=
  asked.Sublist (trace.filterMap ConnEvent.chunk) ∧
    trace.flatMap ConnEvent.taken = (trace.filterMap ConnEvent.chunk).flatten

/-- Each `shutdownWrite` comes after all of `asked`. -/
def HandedFirst (asked : List Bytes) (trace : List ConnEvent) : Prop :=
  Preceded (fun before e => e.IsShutdownWrite → Handed asked before) trace

theorem writes_sendInLoop (s : TcpConnection α) {data : Bytes} {result : WriteResult}
    (hresult : result.PartialOf data.length) :
    Writes (s.log (.passed data)) (s.sendInLoop data result) := by
  rcases sendInLoop_cases s data result with hw | ⟨hbroken, -⟩
  · exact hw
  · exact absurd hbroken hresult.not_broken

theorem writesThenHalfCloses_handleWrite (h : s.pendingFile.active = false)
    (file output : WriteResult) : WritesThenHalfCloses s (s.handleWrite file output) := by
  rcases handleWrite_cases s file output with hw | ⟨hact, -, -⟩
  · exact hw
  · rw [h] at hact
    cases hact

theorem flatten_chunks (trace : List ConnEvent) :
    (trace.filterMap ConnEvent.chunk).flatten = trace.flatMap ConnEvent.given := by
  induction trace with
  | nil => rfl
  | cons e trace ih =>
    rw [List.flatMap_cons, ← ih]
    cases e <;> rfl

/-- A half-closed connection has written all it was passed: its buffer is empty, or the socket
would still be watched for writing. -/
theorem OutputInv.handed {st : StateE} {unsent : Bytes} (h : OutputInv [] t)
    (hopen : t.state ≠ .kDisconnected) {trace : List ConnEvent}
    (ht : t.trace = trace ++ [.shutdownWrite st unsent])
    (hasked : asked.Sublist (trace.filterMap ConnEvent.chunk)) : Handed asked trace := by
  refine ⟨hasked, ?_⟩
  have hmem : ConnEvent.shutdownWrite st unsent ∈ t.trace := by
    rw [ht]
    exact List.mem_append_right _ List.mem_cons_self
  have hquiet := (h.final_closing _ hmem trivial).2
  have hempty : t.outputBuffer.readable = [] := by
    by_contra hne
    have hw := (h.writing hopen).mpr hne
    rw [hquiet] at hw
    cases hw
  have hstream := h.stream hopen
  rw [hempty, List.append_nil, List.append_nil, acceptedBytes, passedBytes, ht] at hstream
  rw [flatten_chunks]
  simpa [ConnEvent.taken, ConnEvent.given] using hstream

end TcpConnection

namespace ForeignRun

open TcpConnection

variable {α : Type} {r : ForeignRun α}

/-- The calls of the loop's thread: its own sends, its events and its functors, while the kernel
reports no error and the peer does not close. -/
def LoopCall : ConnCall α → TcpConnection α → Prop
  | .send .loopThread data result, _ => result.PartialOf data.length
  | .sendBuffer .loopThread buf result, _ => result.PartialOf buf.readable.length
  | .runFunctor result _, s =>
    ∀ data rest, s.pendingFunctors = .sendInLoop data :: rest → result.PartialOf data.length
  | .handleRead result _ _, _ => ∃ b bs, result = .data (b :: bs)
  | .handleWrite _ output, s => output.PartialOf s.outputBuffer.readableBytes
  | _, _ => False

def apply : ForeignStep α → ForeignRun α → ForeignRun α
  | .testSend data, r => { r with place := .sending data, asked := r.asked ++ [data] }
  | .pushSend, r =>
    match r.place with
    | .sending data => { r with conn := r.conn.queueInLoop (.sendInLoop data), place := .between }
    | _ => r
  | .testShutdown, r => { r with place := .closing }
  | .setDisconnecting, r =>
    { r with conn := { r.conn with state := .kDisconnecting }, place := .disconnecting }
  | .pushShutdown, r => { r with conn := r.conn.queueInLoop .shutdownInLoop, place := .finished }
  | .loop call, r => { r with conn := applyCall call r.conn }

/-- One foreign thread that calls `send` any number of times and then `shutdown`, on an
established connection that it always finds connected, in any interleaving with the loop's
thread. -/
def system (α : Type) : ActionSystem (ForeignRun α) (ForeignStep α) where
  init r := r.place = .between ∧ r.asked = [] ∧ ∃ s user, (connSystem α).init s ∧
    r.conn = s.connectEstablished fun s => { s with user }
  permitted
    | .testSend _, r => r.place = .between ∧ r.conn.state = .kConnected
    | .pushSend, r => ∃ data, r.place = .sending data
    | .testShutdown, r => r.place = .between ∧ r.conn.state = .kConnected
    | .setDisconnecting, r => r.place = .closing
    | .pushShutdown, r => r.place = .disconnecting
    | .loop call, r => LoopCall call r.conn
  apply := apply

/-- `shutdown` changes `state_` only when the loop has run every deferred `send`. -/
def SendsRun : ForeignStep α → ForeignRun α → Prop
  | .setDisconnecting, r => r.conn.deferredSends = []
  | _, _ => True

/-- What the foreign thread asked for was passed on, waits in the loop or is still in its hand;
nothing waits once `state_` has changed. -/
structure Books (asked : List Bytes) (place : ForeignPlace) (s : TcpConnection α) : Prop where
  state : s.state = if place = .disconnecting ∨ place = .finished then .kDisconnecting
    else .kConnected
  books : ∃ ran, asked = ran ++ s.deferredSends ++ place.inHand ∧
    ran.Sublist (s.trace.filterMap ConnEvent.chunk)
  quiet : s.state = .kDisconnecting → s.deferredSends = []
  handed : HandedFirst asked s.trace

section Books

variable {asked : List Bytes} {place : ForeignPlace} {s t : TcpConnection α}

theorem Books.inHand_eq_nil (h : Books asked place s) (hd : s.state = .kDisconnecting) :
    place.inHand = [] := by
  have hs := h.state
  cases place with
  | sending data =>
    rw [hd] at hs
    cases hs
  | between => rfl
  | closing => rfl
  | disconnecting => rfl
  | finished => rfl

theorem Books.asked_sublist (h : Books asked place s) (hd : s.state = .kDisconnecting) :
    asked.Sublist (s.trace.filterMap ConnEvent.chunk) := by
  obtain ⟨ran, hasked, hran⟩ := h.books
  rw [h.quiet hd, h.inHand_eq_nil hd, List.append_nil, List.append_nil] at hasked
  rw [hasked]
  exact hran

theorem Books.writes (h : Books asked place s) (hw : Writes s t) : Books asked place t := by
  obtain ⟨evs, htrace, hno⟩ := hw.events
  obtain ⟨ran, hasked, hran⟩ := h.books
  refine ⟨hw.state.trans h.state, ⟨ran, ?_, ?_⟩, ?_, ?_⟩
  · rw [hw.deferred]
    exact hasked
  · rw [htrace, List.filterMap_append]
    exact hran.trans (List.sublist_append_left _ _)
  · rw [hw.state, hw.deferred]
    exact h.quiet
  · rw [htrace]
    refine h.handed.append fun before e after heq he => ?_
    have hmem : e ∈ evs := by
      rw [heq]
      exact List.mem_append_right _ List.mem_cons_self
    exact absurd he (ConnEvent.not_isShutdownWrite (hno e hmem))

theorem Books.writesThenHalfCloses (h : Books asked place s) (hw : WritesThenHalfCloses s t)
    (hout : OutputInv [] t) : Books asked place t := by
  obtain ⟨m, hm, hor⟩ := hw
  have hb := h.writes hm
  rcases hor with rfl | ⟨hd, rfl⟩
  · exact hb
  · have hdm : m.state = .kDisconnecting := hm.state.trans hd
    have hopen : (m.log (.shutdownWrite m.state m.outputBuffer.readable)).state ≠
        .kDisconnected := by
      change m.state ≠ .kDisconnected
      simp [hdm]
    obtain ⟨ran, hasked, hran⟩ := hb.books
    refine ⟨hb.state, ⟨ran, hasked, ?_⟩, hb.quiet, ?_⟩
    · refine hran.trans ?_
      simp [TcpConnection.log]
    · exact hb.handed.snoc fun _ => hout.handed hopen rfl (hb.asked_sublist hdm)

/-- The oldest deferred `send` is run while the connection is still up. -/
theorem Books.passed (h : Books asked place s) {data : Bytes} {rest : List ConnFunctor}
    (hf : s.pendingFunctors = .sendInLoop data :: rest) (hc : s.state = .kConnected) :
    Books asked place (TcpConnection.log (.passed data) { s with pendingFunctors := rest }) := by
  obtain ⟨ran, hasked, hran⟩ := h.books
  have hdef : s.deferredSends = data :: rest.filterMap ConnFunctor.deferred := by
    rw [deferredSends, hf]
    rfl
  refine ⟨h.state, ⟨ran ++ [data], ?_, ?_⟩, ?_, ?_⟩
  · rw [hasked, hdef]
    simp [deferredSends, TcpConnection.log]
  · have hchunks : (TcpConnection.log (.passed data) { s with pendingFunctors := rest }).trace.filterMap
        ConnEvent.chunk = s.trace.filterMap ConnEvent.chunk ++ [data] := by
      simp [TcpConnection.log, ConnEvent.chunk]
    rw [hchunks]
    exact hran.append (List.Sublist.refl _)
  · intro hd
    have hd' : s.state = .kDisconnecting := hd
    rw [hc] at hd'
    cases hd'
  · exact h.handed.snoc fun he => absurd he id

/-- A functor of the loop: a deferred `send` finds the connection up, or none is left. -/
theorem Books.callFunctor (h : Books asked place s) (hout : OutputInv [] s) {f : ConnFunctor}
    {rest : List ConnFunctor} (hf : s.pendingFunctors = f :: rest) {result : WriteResult}
    (hp : ∀ data, f = .sendInLoop data → result.PartialOf data.length)
    (hout' : OutputInv [] (TcpConnection.callFunctor f result { s with pendingFunctors := rest })) :
    Books asked place (TcpConnection.callFunctor f result { s with pendingFunctors := rest }) := by
  have hpop : f.deferred = none → Books asked place { s with pendingFunctors := rest } := by
    intro hnone
    refine h.writes ⟨⟨[], by simp, by simp⟩, ?_, rfl⟩
    simp [deferredSends, hf, hnone]
  have hup := h.state
  unfold TcpConnection.callFunctor at hout' ⊢
  cases f with
  | sendInLoop data =>
    have hc : s.state = .kConnected := by
      split at hup
      · have hnil := h.quiet hup
        rw [deferredSends, hf] at hnil
        cases hnil
      · exact hup
    dsimp only at hout' ⊢
    rw [if_pos hc] at hout' ⊢
    exact (h.passed hf hc).writes (writes_sendInLoop { s with pendingFunctors := rest } (hp data rfl))
  | sendFileInLoop fd offset count =>
    refine absurd ?_ (hout.no_queued_file fd offset count)
    rw [hf]
    exact List.mem_cons_self
  | shutdownInLoop =>
    have hd : s.state = .kDisconnecting := by
      rcases hout.shutdown_queued (by rw [hf]; exact List.mem_cons_self) with hc | hc
      · exact hc
      · rw [hc] at hup
        split at hup <;> cases hup
    exact (hpop rfl).writesThenHalfCloses (shutdownInLoop_cases hd) hout'
  | writeCompleteCallback =>
    dsimp only
    split
    · exact (hpop rfl).writes (writes_log _ id)
    · exact hpop rfl
  | highWaterMarkCallback total => exact (hpop rfl).writes (writes_log _ id)

theorem Books.applyCall (h : Books asked place s) (hout : OutputInv [] s) {call : ConnCall α}
    (hp : LoopCall call s) (hout' : OutputInv [] (applyCall call s)) :
    Books asked place (applyCall call s) := by
  cases call with
  | send caller data result =>
    cases caller with
    | loopThread =>
      have hw := (writes_log s (e := .passed data) id).trans (writes_sendInLoop s hp)
      show Books asked place (s.send .loopThread data result)
      unfold TcpConnection.send
      split
      · exact h
      · exact h.writes hw
    | otherThread => exact hp.elim
  | sendBuffer caller buf result =>
    cases caller with
    | loopThread =>
      have hw := (writes_log s (e := .passed buf.readable) id).trans (writes_sendInLoop s hp)
      show Books asked place (s.sendBuffer .loopThread buf result).1
      unfold TcpConnection.sendBuffer
      split
      · exact h
      · split
        · exact h
        · exact h.writes hw
    | otherThread => exact hp.elim
  | runFunctor result user =>
    revert hout'
    unfold TcpConnection.applyCall
    dsimp only
    split
    next => exact fun _ => h
    next f rest hf =>
      intro hout'
      have hcall := h.callFunctor hout hf (fun data he => hp data rest (by rw [hf, he]))
        { hout' with }
      exact hcall.writes (Writes.of_eq rfl rfl rfl)
  | handleRead result inputBuffer user =>
    obtain ⟨b, bs, rfl⟩ := hp
    exact h.writes (Writes.of_eq rfl rfl rfl)
  | handleWrite file output =>
    exact h.writesThenHalfCloses (writesThenHalfCloses_handleWrite hout.no_file file output) hout'
  | sendFile caller fd offset count result => exact hp.elim
  | connectEstablished user => exact hp.elim
  | shutdown caller => exact hp.elim
  | handleClose => exact hp.elim
  | handleError => exact hp.elim
  | connectDestroyed => exact hp.elim

end Books

structure Inv (r : ForeignRun α) : Prop where
  out : OutputInv [] r.conn
  books : Books r.asked r.place r.conn

theorem handedFirst_of_connected {s : TcpConnection α} (hout : OutputInv [] s)
    (hc : s.state = .kConnected) (asked : List Bytes) : HandedFirst asked s.trace := by
  intro before e after heq he
  have hmem : e ∈ s.trace := by
    rw [heq]
    exact List.mem_append_right _ List.mem_cons_self
  cases e with
  | shutdownWrite st unsent => exact absurd trivial (hout.not_final_of_connected hc hmem)
  | _ => exact he.elim

theorem Inv.testSend (h : Inv r) (hp : r.place = .between) (data : Bytes) :
    Inv (apply (.testSend data) r) := by
  have hc : r.conn.state = .kConnected := by
    have hs := h.books.state
    rw [hp] at hs
    exact hs
  obtain ⟨ran, hasked, hran⟩ := h.books.books
  refine ⟨h.out, hc, ⟨ran, ?_, hran⟩, h.books.quiet, handedFirst_of_connected h.out hc _⟩
  rw [hp] at hasked
  simp [apply, hasked, ForeignPlace.inHand]

theorem Inv.pushSend (h : Inv r) {data : Bytes} (hp : r.place = .sending data) :
    Inv (apply .pushSend r) := by
  have ha : apply .pushSend r =
      { r with conn := r.conn.queueInLoop (.sendInLoop data), place := .between } := by
    simp [apply, hp]
  have hc : r.conn.state = .kConnected := by
    have hs := h.books.state
    rw [hp] at hs
    exact hs
  obtain ⟨ran, hasked, hran⟩ := h.books.books
  rw [ha]
  refine ⟨h.out.queueInLoop (by simp) (by simp), hc, ⟨ran, ?_, hran⟩, ?_, h.books.handed⟩
  · rw [hasked, hp]
    simp [deferredSends, TcpConnection.queueInLoop, ForeignPlace.inHand, ConnFunctor.deferred]
  · intro hd
    exact absurd (hc.symm.trans hd) (by simp)

theorem Inv.testShutdown (h : Inv r) (hp : r.place = .between) : Inv (apply .testShutdown r) := by
  have hs := h.books.state
  have hb := h.books.books
  rw [hp] at hs hb
  exact ⟨h.out, hs, hb, h.books.quiet, h.books.handed⟩

theorem Inv.setDisconnecting (h : Inv r) (hp : r.place = .closing)
    (hrun : r.conn.deferredSends = []) : Inv (apply .setDisconnecting r) := by
  have hc := h.books.state
  have hb := h.books.books
  rw [hp] at hc hb
  exact ⟨h.out.disconnecting hc, rfl, hb, fun _ => hrun, h.books.handed⟩

theorem Inv.pushShutdown (h : Inv r) (hp : r.place = .disconnecting) :
    Inv (apply .pushShutdown r) := by
  have hd := h.books.state
  have hb := h.books.books
  rw [hp] at hd hb
  have hd : r.conn.state = .kDisconnecting := hd
  have hw : Writes r.conn (r.conn.queueInLoop .shutdownInLoop) := writes_queueInLoop _ rfl
  have hbooks := h.books.writes hw
  refine ⟨h.out.queueInLoop (fun _ => Or.inl hd) (by simp), hd, ?_, hbooks.quiet, hbooks.handed⟩
  have hb' := hbooks.books
  rw [hp] at hb'
  exact hb'

theorem Inv.loop (h : Inv r) {call : ConnCall α} (hp : LoopCall call r.conn) :
    Inv (apply (.loop call) r) := by
  have hperm : (outputSystem α).permitted call r.conn := by
    cases call with
    | sendFile caller fd offset count result => exact hp.elim
    | connectEstablished user => exact hp.elim
    | _ => exact ⟨trivial, id⟩
  have hout := h.out.applyCall hperm
  exact ⟨hout, h.books.applyCall h.out hp hout⟩

theorem Inv.init (h : (system α).init r) : Inv r := by
  obtain ⟨hplace, hasked, s, user, hs, hconn⟩ := h
  have hout : OutputInv [] r.conn := by
    obtain ⟨poller, addr, sockfd, high, write, close, u, mark, hfd, rfl⟩ := hs
    rw [hconn]
    refine OutputInv.connectEstablished (OutputInv.init ?_) rfl user
    exact ⟨poller, addr, sockfd, high, write, close, u, mark, hfd, rfl⟩
  have hc : r.conn.state = .kConnected := by
    rw [hconn]
    rfl
  have hdef : r.conn.deferredSends = [] := by
    obtain ⟨poller, addr, sockfd, high, write, close, u, mark, hfd, rfl⟩ := hs
    rw [hconn]
    rfl
  refine ⟨hout, ?_, ⟨[], ?_, List.nil_sublist _⟩, fun _ => hdef, handedFirst_of_connected hout hc _⟩
  · rw [hplace]
    exact hc
  · rw [hasked, hdef, hplace]
    rfl

theorem Inv.apply {step : ForeignStep α} (hp : ((system α).restrict SendsRun).permitted step r)
    (h : Inv r) : Inv (apply step r) := by
  obtain ⟨hp, hrun⟩ := hp
  cases step with
  | testSend data => exact h.testSend hp.1 data
  | pushSend =>
    obtain ⟨data, hplace⟩ := hp
    exact h.pushSend hplace
  | testShutdown => exact h.testShutdown hp.1
  | setDisconnecting => exact h.setDisconnecting hp hrun
  | pushShutdown => exact h.pushShutdown hp
  | loop call => exact h.loop hp

/-- When `shutdown` comes behind the last deferred `send`, every byte is in the kernel before
the write side is shut down. -/
theorem handed_first_of_sendsRun (h : ((system α).restrict SendsRun).Reachable r) :
    HandedFirst r.asked r.conn.trace := by
  have hi : Inv r := h.invariant (fun _ => Inv.init) (fun _ _ hp hi => hi.apply hp)
  exact hi.books.handed

def start : ForeignRun Unit := ⟨establishedRun.conn, .between, []⟩

theorem start_init : (system Unit).init start :=
  ⟨rfl, rfl, _, (), ⟨_, _, _, _, _, _, _, _, by decide, rfl⟩, rfl⟩

/-- The loop runs the deferred `send` first; the kernel takes one byte, and the other after
`shutdown`. -/
def patientSteps : List (ForeignStep Unit) := [
  .testSend (ascii "ab"), .pushSend, .loop (.runFunctor (.wrote 1) ()), .testShutdown,
  .setDisconnecting, .pushShutdown, .loop (.runFunctor (.wrote 0) ()),
  .loop (.handleWrite (.wrote 0) (.wrote 1))]

theorem handed_first_of_sendsRun_patient :
    let r := (system Unit).run patientSteps start
    r.asked = [ascii "ab"] ∧ .shutdownWrite .kDisconnecting [] ∈ r.conn.trace ∧
      HandedFirst r.asked r.conn.trace := by
  intro r
  have h0 : ((system Unit).restrict SendsRun).Reachable start := .init start_init
  have hp : ((system Unit).restrict SendsRun).Permits patientSteps start := by
    refine ⟨⟨⟨rfl, rfl⟩, trivial⟩, ⟨⟨_, rfl⟩, trivial⟩, ⟨?_, trivial⟩, ⟨⟨rfl, ?_⟩, trivial⟩, ⟨rfl, ?_⟩,
      ⟨rfl, trivial⟩, ⟨?_, trivial⟩, ⟨?_, trivial⟩, trivial⟩
    · intro data rest hf
      cases hf
      show (_ : Nat) ≤ _
      decide
    · decide +kernel
    · show deferredSends _ = []
      decide +kernel
    · exact fun _ _ _ => Nat.zero_le _
    · show (_ : Nat) ≤ _
      decide +kernel
  have hend : r.asked = [ascii "ab"] ∧ .shutdownWrite .kDisconnecting [] ∈ r.conn.trace := by
    decide +kernel
  exact ⟨hend.1, hend.2, handed_first_of_sendsRun (h0.run hp)⟩

/-- `shutdown` before the loop has run the deferred `send`. -/
def hastySteps : List (ForeignStep Unit) := [
  .testSend (ascii "ab"), .pushSend, .testShutdown, .setDisconnecting, .pushShutdown,
  .loop (.runFunctor (.wrote 0) ()), .loop (.runFunctor (.wrote 0) ())]

/-- The deferred `send` finds the connection closing and drops its data; the half-close follows. -/
theorem deferred_send_dropped : ∃ r : ForeignRun Unit, (system Unit).Reachable r ∧
    r.asked = [ascii "ab"] ∧ r.conn.trace = [.shutdownWrite .kDisconnecting []] ∧
      ¬ HandedFirst r.asked r.conn.trace := by
  have h0 : (system Unit).Reachable start := .init start_init
  have hp : (system Unit).Permits hastySteps start := by
    exact ⟨⟨rfl, rfl⟩, ⟨_, rfl⟩, ⟨rfl, rfl⟩, rfl, rfl, fun _ _ _ => Nat.zero_le _,
      fun _ _ _ => Nat.zero_le _, trivial⟩
  have hend : ((system Unit).run hastySteps start).asked = [ascii "ab"] ∧
      ((system Unit).run hastySteps start).conn.trace = [.shutdownWrite .kDisconnecting []] := by
    decide +kernel
  refine ⟨_, h0.run hp, hend.1, hend.2, ?_⟩
  rw [hend.1, hend.2]
  intro hfirst
  have hsub := (hfirst [] _ [] rfl trivial).1
  exact absurd hsub.length_le (by decide)

end ForeignRun

end MuduoPlus
