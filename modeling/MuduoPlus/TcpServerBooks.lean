import MuduoPlus.EventLog
import MuduoPlus.TcpServer

namespace MuduoPlus

/-- An `int` is read back from its text. -/
theorem decimalInt_toInt_injective {x y : BitVec 32} (h : decimalInt x.toInt = decimalInt y.toInt) :
    x = y := by
  have hread : ∀ z : BitVec 32, stoi (decimalInt z.toInt) = .ok z.toInt := fun z =>
    stoSigned_decimalInt (BitVec.le_toInt z) BitVec.toInt_lt
  have hx := hread x
  rw [h, hread y] at hx
  exact BitVec.toInt_inj.mp (Except.ok.inj hx).symm

theorem decimalInt_length_le {x : BitVec 32} : (decimalInt x.toInt).length ≤ 11 := by
  have hlo := BitVec.le_toInt x
  have hhi := BitVec.toInt_lt (x := x)
  have hlen : ∀ n : Nat, n ≤ 2 ^ 31 → (decimal n).length ≤ 10 :=
    fun n hn => length_decimal_le (by omega) (by omega)
  unfold decimalInt
  split
  · have hn := hlen x.toInt.natAbs (by omega)
    rw [List.length_cons]
    omega
  · have hn := hlen x.toInt.natAbs (by omega)
    omega

theorem InetAddress.toIpPort_length_le (a : InetAddress) : a.toIpPort.length ≤ 21 := by
  have hoctet : ∀ b : UInt8, (decimal b.toNat).length ≤ 3 := fun b =>
    length_decimal_le (by omega) (by have := b.toNat_lt; omega)
  have hport : (decimal a.port.toNat).length ≤ 5 :=
    length_decimal_le (by omega) (by have := a.port.toNat_lt; omega)
  have h1 := hoctet a.octets.1
  have h2 := hoctet a.octets.2.1
  have h3 := hoctet a.octets.2.2.1
  have h4 := hoctet a.octets.2.2.2
  have hdot : (ascii ".").length = 1 := rfl
  have hcolon : (ascii ":").length = 1 := rfl
  simp only [toIpPort, toIp, List.length_append, hdot, hcolon]
  omega

def ServerFunctor.conn : ServerFunctor → Nat
  | .connectEstablished c => c
  | .removeConnectionInLoop c => c
  | .connectDestroyed c => c

def ServerEvent.conn : ServerEvent → Nat
  | .established c => c
  | .callback c => c
  | .erased c => c
  | .destroyed c _ => c

/-- What has to stand in the log before an event. -/
def ServerEvent.After (before : List ServerEvent) : ServerEvent → Prop
  | .established _ => True
  | .callback c => .established c ∈ before
  | .erased c => .established c ∈ before
  | .destroyed c _ => .established c ∈ before ∧ .erased c ∈ before

namespace ServedConnection

open TcpConnection

variable {v : ServedConnection Unit} {step : ServedStep Unit}

/-- Not established yet: the poller does not know the channel, and no call passes the test of
`state_`. -/
structure Fresh (v : ServedConnection Unit) : Prop where
  connecting : v.conn.state = .kConnecting
  no_handlers : v.handlers = []
  no_shutdown : v.shuttingDown = 0
  no_functors : v.conn.pendingFunctors = []
  unregistered : v.conn.reg.channel.fd ∉ v.conn.reg.poller.kernel.interest
  never_closed : v.conn.closeCalls = 0
  removed : v.removed = 0
  destroyed : v.destroyed = 0

theorem Fresh.application (h : Fresh v) {call : ConnCall Unit} (hp : ByApplication call) :
    applyCall call v.conn = v.conn := by
  have hne : v.conn.state ≠ .kConnected := by simp [h.connecting]
  cases call with
  | send caller data result => exact if_pos hne
  | sendBuffer caller buf result =>
    show (v.conn.sendBuffer caller buf result).1 = v.conn
    unfold TcpConnection.sendBuffer
    rw [if_pos hne]
    split <;> rfl
  | sendFile caller fd offset count result => exact if_pos hne
  | shutdown caller => exact if_neg hne
  | _ => exact hp.elim

/-- Nothing happens to a connection before it is established, and no event reaches it. -/
theorem Fresh.apply (h : Fresh v) (hown : step.Own) (hp : (system Unit).permitted step v) :
    step.isHandler = false ∧ Fresh (apply step v) := by
  cases step with
  | connectEstablished user => exact hown.elim
  | deliver revents =>
    obtain ⟨-, i, hl, -, -⟩ := hp
    rw [Finmap.lookup_eq_none.mpr h.unregistered] at hl
    cases hl
  | handle call =>
    obtain ⟨handler, rest, hh, -⟩ := hp
    rw [h.no_handlers] at hh
    cases hh
  | application call =>
    refine ⟨rfl, ?_⟩
    have hsame : ServedConnection.apply (.application call) v = v := by
      show { v with conn := applyCall call v.conn } = v
      rw [h.application hp]
    rw [hsame]
    exact h
  | runFunctor result user =>
    refine ⟨rfl, ?_⟩
    have hsame : ServedConnection.apply (.runFunctor result user) v = v := by
      show { v with conn := applyCall (.runFunctor result user) v.conn } = v
      have hnil := h.no_functors
      unfold applyCall
      dsimp only
      rw [hnil]
    rw [hsame]
    exact h
  | testShutdown =>
    have hc : v.conn.state = .kConnected := hp
    rw [h.connecting] at hc
    cases hc
  | setDisconnecting =>
    have hpos : 0 < v.shuttingDown := hp
    rw [h.no_shutdown] at hpos
    omega
  | otherFile file =>
    exact ⟨rfl, h.connecting, h.no_handlers, h.no_shutdown, h.no_functors, h.unregistered,
      h.never_closed, h.removed, h.destroyed⟩
  | removeConnectionInLoop => exact hown.elim
  | connectDestroyed => exact hown.elim

theorem closeCalls_le_apply (step : ServedStep Unit) (v : ServedConnection Unit) :
    v.conn.closeCalls ≤ (apply step v).conn.closeCalls := by
  have hcount : ∀ t : TcpConnection Unit, v.conn.trace <+: t.trace →
      v.conn.closeCalls ≤ t.closeCalls := fun t ht => ht.sublist.count_le _
  cases step with
  | handle call => exact hcount _ (applyCall_trace_grows call v.conn)
  | application call => exact hcount _ (applyCall_trace_grows call v.conn)
  | runFunctor result user => exact hcount _ (applyCall_trace_grows (.runFunctor result user) v.conn)
  | connectDestroyed => exact hcount _ (applyCall_trace_grows .connectDestroyed v.conn)
  | _ => exact Nat.le_refl _

theorem closeCalls_connectDestroyed (v : ServedConnection Unit) :
    (apply .connectDestroyed v).conn.closeCalls = v.conn.closeCalls := by
  show v.conn.connectDestroyed.closeCalls = v.conn.closeCalls
  unfold TcpConnection.connectDestroyed
  dsimp only
  split
  · simp [closeCalls, setDisconnected, TcpConnection.log, List.count_append]
  · rfl

theorem apply_own_counters (hown : step.Own) :
    (apply step v).removed = v.removed ∧ (apply step v).destroyed = v.destroyed := by
  cases step with
  | connectEstablished user => exact hown.elim
  | removeConnectionInLoop => exact hown.elim
  | connectDestroyed => exact hown.elim
  | _ => exact ⟨rfl, rfl⟩

end ServedConnection

namespace TcpServer

variable {s s' s'' : TcpServer} {c d : Nat} {k : ServerConnection}

theorem count_queueInLoop (s : TcpServer) (loop l : LoopId) (f g : ServerFunctor) :
    ((s.queueInLoop loop f).pending l).count g =
      (s.pending l).count g + if l = loop ∧ f = g then 1 else 0 := by
  by_cases hl : l = loop
  · subst hl
    by_cases hf : f = g <;> simp [queueInLoop, List.count_append, hf]
  · simp [queueInLoop, hl]

theorem count_record (s : TcpServer) (e e' : ServerEvent) :
    (s.record e).log.count e' = s.log.count e' + if e = e' then 1 else 0 := by
  by_cases he : e = e' <;> simp [record, List.count_append, he]

theorem setServed_getElem? (hk : s.accepted[c]? = some k) (v : ServedConnection Unit) :
    (s.setServed c v).accepted[c]? = some { k with served := v } := by
  simp [setServed, hk]

theorem serve_eq (hk : s.accepted[c]? = some k) (step : ServedStep Unit) :
    s.serve c step = s.setServed c (ServedConnection.apply step k.served) := by
  simp [serve, hk]

/-- How often `f` waits in the loop `l`, counting the functor `r` that a loop has in hand. -/
def due (r : Option (LoopId × ServerFunctor)) (s : TcpServer) (l : LoopId) (f : ServerFunctor) :
    Nat :=
  (s.pending l).count f + if r = some (l, f) then 1 else 0

variable {r r' r'' : Option (LoopId × ServerFunctor)} {l : LoopId} {f : ServerFunctor}

theorem due_queueInLoop (s : TcpServer) (loop : LoopId) (f : ServerFunctor) (l : LoopId)
    (g : ServerFunctor) : due none (s.queueInLoop loop f) l g = due (some (loop, f)) s l g := by
  have hiff : some (loop, f) = some (l, g) ↔ l = loop ∧ f = g := by
    simp [eq_comm]
  simp only [due, count_queueInLoop, hiff]
  simp

theorem due_pop {rest : List ServerFunctor} (hp : s.pending l = f :: rest) (l' : LoopId)
    (g : ServerFunctor) :
    due (some (l, f)) { s with pending := Function.update s.pending l rest } l' g =
      due none s l' g := by
  by_cases hl : l' = l
  · subst hl
    by_cases hf : f = g
    · simp [due, hp, hf]
    · simp [due, hp, hf]
  · have hne : ¬ l = l' := fun h => hl h.symm
    simp [due, hl, hne]

theorem due_done (s : TcpServer) (loop : LoopId) (f : ServerFunctor) (l : LoopId)
    (g : ServerFunctor) :
    due (some (loop, f)) s l g = due none s l g + if loop = l ∧ f = g then 1 else 0 := by
  simp [due]

/-- What happens between the two states concerns the connection `d` and nothing else of the
server. -/
structure Concerns (d : Nat) (r : Option (LoopId × ServerFunctor)) (s : TcpServer)
    (r' : Option (LoopId × ServerFunctor)) (s' : TcpServer) : Prop where
  due : ∀ l f, f.conn ≠ d → due r' s' l f = due r s l f
  log : ∀ e, e.conn ≠ d → s'.log.count e = s.log.count e
  accepted : ∀ c, c ≠ d → s'.accepted[c]? = s.accepted[c]?
  names : s'.accepted.map ServerConnection.name = s.accepted.map ServerConnection.name
  static : s'.name = s.name ∧ s'.ipPort = s.ipPort ∧ s'.nextConnId = s.nextConnId

theorem Concerns.trans (h : Concerns d r s r' s') (h' : Concerns d r' s' r'' s'') :
    Concerns d r s r'' s'' := by
  refine ⟨?_, ?_, ?_, h'.names.trans h.names, h'.static.1.trans h.static.1,
    h'.static.2.1.trans h.static.2.1, h'.static.2.2.trans h.static.2.2⟩
  · intro l f hf
    rw [h'.due l f hf, h.due l f hf]
  · intro e he
    rw [h'.log e he, h.log e he]
  · intro c hc
    rw [h'.accepted c hc, h.accepted c hc]

theorem concerns_record (r : Option (LoopId × ServerFunctor)) (s : TcpServer) (e : ServerEvent) :
    Concerns e.conn r s r (s.record e) := by
  refine ⟨fun _ _ _ => rfl, ?_, fun _ _ => rfl, rfl, rfl, rfl, rfl⟩
  intro e' he'
  rw [count_record, if_neg, Nat.add_zero]
  rintro rfl
  exact he' rfl

theorem concerns_done (s : TcpServer) (l : LoopId) (f : ServerFunctor) :
    Concerns f.conn (some (l, f)) s none s := by
  refine ⟨?_, fun _ _ => rfl, fun _ _ => rfl, rfl, rfl, rfl, rfl⟩
  intro l' g hg
  rw [due_done, if_neg, Nat.add_zero]
  rintro ⟨-, rfl⟩
  exact hg rfl

theorem concerns_setServed (r : Option (LoopId × ServerFunctor)) (s : TcpServer) (d : Nat)
    (v : ServedConnection Unit) : Concerns d r s r (s.setServed d v) := by
  refine ⟨fun _ _ _ => rfl, fun _ _ => rfl, ?_, ?_, rfl, rfl, rfl⟩
  · intro c hc
    exact List.getElem?_modify_ne _ _ (Ne.symm hc)
  · apply List.ext_getElem?
    intro i
    simp only [setServed, List.getElem?_map, List.getElem?_modify]
    cases s.accepted[i]? with
    | none => rfl
    | some k =>
      simp only [Option.map_eq_map, Option.map_some]
      split <;> rfl

/-- The books of one accepted connection. A functor in hand counts as waiting, so a call that
`runInLoop` makes at once and one that it defers are the same here. -/
structure Life (r : Option (LoopId × ServerFunctor)) (s : TcpServer) (c : Nat)
    (k : ServerConnection) : Prop where
  established : due r s k.loop (.connectEstablished c) + s.log.count (.established c) = 1
  fresh : s.log.count (.established c) = 0 → k.served.Fresh
  removing : due r s .main (.removeConnectionInLoop c) + k.served.removed = k.served.conn.closeCalls
  closed : k.served.conn.closeCalls ≤ 1
  erased : s.log.count (.erased c) = k.served.removed
  destroying : due r s k.loop (.connectDestroyed c) + k.served.destroyed = k.served.removed
  destroyed : s.log.count (.destroyed c k.loop) = k.served.destroyed
  foreign : ∀ l, l ≠ k.loop → due r s l (.connectEstablished c) = 0 ∧
    due r s l (.connectDestroyed c) = 0 ∧ s.log.count (.destroyed c l) = 0
  main : ∀ l, l ≠ .main → due r s l (.removeConnectionInLoop c) = 0

theorem Life.congr (h : Life r s c k) (hdue : ∀ l f, f.conn = c → due r' s' l f = due r s l f)
    (hlog : ∀ e, e.conn = c → e ≠ .callback c → s'.log.count e = s.log.count e) :
    Life r' s' c k where
  established := by rw [hdue _ _ rfl, hlog _ rfl (by simp)]; exact h.established
  fresh := by rw [hlog _ rfl (by simp)]; exact h.fresh
  removing := by rw [hdue _ _ rfl]; exact h.removing
  closed := h.closed
  erased := by rw [hlog _ rfl (by simp)]; exact h.erased
  destroying := by rw [hdue _ _ rfl]; exact h.destroying
  destroyed := by rw [hlog _ rfl (by simp)]; exact h.destroyed
  foreign l hl := by
    rw [hdue _ _ rfl, hdue _ _ rfl, hlog _ rfl (by simp)]
    exact h.foreign l hl
  main l hl := by rw [hdue _ _ rfl]; exact h.main l hl

/-- A connection that was closed had been established. -/
theorem Life.established_of_closed (h : Life r s c k) (hc : 0 < k.served.conn.closeCalls) :
    .established c ∈ s.log := by
  apply List.count_pos_iff.mp
  by_contra hzero
  have hf := h.fresh (by omega)
  have hnever := hf.never_closed
  omega

/-- Connections that do not exist yet are mentioned nowhere. -/
def Unborn (r : Option (LoopId × ServerFunctor)) (s : TcpServer) (c : Nat) : Prop :=
  (∀ l f, f.conn = c → due r s l f = 0) ∧ ∀ e, e.conn = c → s.log.count e = 0

structure ServerInv (r : Option (LoopId × ServerFunctor)) (s : TcpServer) : Prop where
  ipPort_length : s.ipPort.length ≤ 21
  few : s.accepted.length < 2 ^ 31
  next_id : s.nextConnId = BitVec.ofNat 32 (s.accepted.length + 1)
  names : s.accepted.map ServerConnection.name =
    (List.range s.accepted.length).map fun c => s.connName (BitVec.ofNat 32 (c + 1))
  table : ∀ n c, s.connections.lookup n = some c ↔
    ∃ k, s.accepted[c]? = some k ∧ k.name = n ∧ k.served.removed = 0
  unborn : ∀ c, s.accepted[c]? = none → Unborn r s c
  life : ∀ c k, s.accepted[c]? = some k → Life r s c k
  order : Preceded ServerEvent.After s.log

/-- The number of a connection can be read from its name: the text is short enough for the
buffer. -/
theorem connName_injective (hlen : s.ipPort.length ≤ 21) {x y : BitVec 32}
    (h : s.connName x = s.connName y) : x = y := by
  have htake : ∀ z : BitVec 32, (ascii "-" ++ s.ipPort ++ ascii "#" ++ decimalInt z.toInt).take 63 =
      ascii "-" ++ s.ipPort ++ ascii "#" ++ decimalInt z.toInt := by
    intro z
    apply List.take_of_length_le
    have hz := decimalInt_length_le (x := z)
    have hdash : (ascii "-").length = 1 := rfl
    have hhash : (ascii "#").length = 1 := rfl
    simp only [List.length_append, hdash, hhash]
    omega
  have heq := List.append_cancel_left h
  rw [htake x, htake y] at heq
  exact decimalInt_toInt_injective (List.append_cancel_left heq)

theorem ServerInv.name_eq (h : ServerInv r s) (hk : s.accepted[c]? = some k) :
    k.name = s.connName (BitVec.ofNat 32 (c + 1)) := by
  have hlt : c < s.accepted.length := (List.getElem?_eq_some_iff.mp hk).1
  have hn : (s.accepted.map ServerConnection.name)[c]? = some k.name := by
    rw [List.getElem?_map, hk]
    rfl
  rw [h.names, List.getElem?_map, List.getElem?_range hlt] at hn
  exact (Option.some.inj hn).symm

theorem ServerInv.names_nodup (h : ServerInv r s) :
    (s.accepted.map ServerConnection.name).Nodup := by
  rw [h.names]
  refine List.Nodup.map_on ?_ List.nodup_range
  intro c hc d hd heq
  have hc' := List.mem_range.mp hc
  have hd' := List.mem_range.mp hd
  have hfew := h.few
  have hid := connName_injective h.ipPort_length heq
  have hnat := congrArg BitVec.toNat hid
  simp only [BitVec.toNat_ofNat] at hnat
  omega

/-- The invariant after something that concerns one accepted connection, from the books of that
connection. -/
theorem ServerInv.concerning (h : ServerInv r s) (hc : Concerns d r s r' s') {k k' : ServerConnection}
    (hk : s.accepted[d]? = some k) (hk' : s'.accepted[d]? = some k')
    (htable : ∀ n c, s'.connections.lookup n = some c ↔
      s.connections.lookup n = some c ∧ (c = d → k'.served.removed = 0))
    (hmono : k'.served.removed = 0 → k.served.removed = 0)
    (hlife : Life r' s' d k') (horder : Preceded ServerEvent.After s'.log) : ServerInv r' s' := by
  have hlen : s'.accepted.length = s.accepted.length := by
    simpa using congrArg List.length hc.names
  have hname : k'.name = k.name := by
    have hn := congrArg (fun ns : List Bytes => ns[d]?) hc.names
    simp only [List.getElem?_map, hk, hk', Option.map_some] at hn
    exact Option.some.inj hn
  obtain ⟨hsname, hip, hnext⟩ := hc.static
  refine ⟨?_, ?_, ?_, ?_, ?_, ?_, ?_, horder⟩
  · rw [hip]
    exact h.ipPort_length
  · rw [hlen]
    exact h.few
  · rw [hnext, hlen]
    exact h.next_id
  · rw [hc.names, hlen, h.names]
    simp only [connName, hsname, hip]
  · intro n c
    rw [htable, h.table]
    by_cases hcd : c = d
    · subst hcd
      simp only [hk, hk', Option.some.injEq, exists_eq_left', hname, forall_const]
      tauto
    · simp [hcd, hc.accepted c hcd]
  · intro c hnone
    have hcd : c ≠ d := by
      rintro rfl
      rw [hk'] at hnone
      cases hnone
    rw [hc.accepted c hcd] at hnone
    obtain ⟨hdue, hlog⟩ := h.unborn c hnone
    refine ⟨?_, ?_⟩
    · intro l f hf
      rw [hc.due l f (hf ▸ hcd)]
      exact hdue l f hf
    · intro e he
      rw [hc.log e (he ▸ hcd)]
      exact hlog e he
  · intro c k'' hk''
    by_cases hcd : c = d
    · subst hcd
      rw [hk'] at hk''
      exact Option.some.inj hk'' ▸ hlife
    · rw [hc.accepted c hcd] at hk''
      exact (h.life c k'' hk'').congr (fun l f hf => hc.due l f (hf ▸ hcd))
        (fun e he _ => hc.log e (he ▸ hcd))

/-- Only the lists of functors differ, and the functor in hand makes up for it. -/
theorem ServerInv.of_due (h : ServerInv r s) {p : LoopId → List ServerFunctor}
    (hdue : ∀ l f, due r' { s with pending := p } l f = due r s l f) :
    ServerInv r' { s with pending := p } where
  ipPort_length := h.ipPort_length
  few := h.few
  next_id := h.next_id
  names := h.names
  table := h.table
  unborn c hnone := ⟨fun l f hf => (hdue l f).trans ((h.unborn c hnone).1 l f hf),
    (h.unborn c hnone).2⟩
  life c k hk := (h.life c k hk).congr (fun l f _ => hdue l f) fun _ _ _ => rfl
  order := h.order

theorem ServerInv.queueInLoop (h : ServerInv (some (l, f)) s) :
    ServerInv none (s.queueInLoop l f) :=
  h.of_due (due_queueInLoop s l f)

theorem ServerInv.pop (h : ServerInv none s) {rest : List ServerFunctor}
    (hp : s.pending l = f :: rest) :
    ServerInv (some (l, f)) { s with pending := Function.update s.pending l rest } :=
  h.of_due (due_pop hp)

theorem due_other (s : TcpServer) (l l' : LoopId) {f g : ServerFunctor} (hne : f ≠ g) :
    due (some (l, f)) s l' g = due none s l' g := by
  rw [due_done, if_neg fun h => hne h.2, Nat.add_zero]

theorem due_self (s : TcpServer) (l : LoopId) (f : ServerFunctor) :
    due (some (l, f)) s l f = due none s l f + 1 := by
  rw [due_done, if_pos ⟨rfl, rfl⟩]

theorem due_le (s : TcpServer) (l l' : LoopId) (f g : ServerFunctor) :
    due none s l' g ≤ due (some (l, f)) s l' g := by
  rw [due_done]
  exact Nat.le_add_right _ _

theorem Life.foreign_done {loop : LoopId} (h : Life (some (loop, f)) s c k) (hl : l ≠ k.loop) :
    due none s l (.connectEstablished c) = 0 ∧ due none s l (.connectDestroyed c) = 0 ∧
      s.log.count (.destroyed c l) = 0 := by
  obtain ⟨he, hd, hlog⟩ := h.foreign l hl
  exact ⟨Nat.eq_zero_of_le_zero (he ▸ due_le s _ _ _ _),
    Nat.eq_zero_of_le_zero (hd ▸ due_le s _ _ _ _), hlog⟩

theorem Life.main_done {loop : LoopId} (h : Life (some (loop, f)) s c k) (hl : l ≠ .main) :
    due none s l (.removeConnectionInLoop c) = 0 :=
  Nat.eq_zero_of_le_zero (h.main l hl ▸ due_le s _ _ _ _)

/-- A functor in hand is one of an accepted connection. -/
theorem ServerInv.known (h : ServerInv (some (l, f)) s) (hf : f.conn = c) :
    ∃ k, s.accepted[c]? = some k ∧ Life (some (l, f)) s c k := by
  rcases hk : s.accepted[c]? with _ | k
  · have hzero := (h.unborn c hk).1 l f hf
    rw [due_self] at hzero
    omega
  · exact ⟨k, rfl, h.life c k hk⟩

/-- The table when neither it nor what is removed changes. -/
theorem ServerInv.table_kept (h : ServerInv r s) (hk : s.accepted[d]? = some k) {m : Nat}
    (hm : m = k.served.removed) (n : Bytes) (c : Nat) :
    s.connections.lookup n = some c ↔ s.connections.lookup n = some c ∧ (c = d → m = 0) := by
  refine ⟨fun hl => ⟨hl, ?_⟩, fun hl => hl.1⟩
  rintro rfl
  obtain ⟨k', hk', -, hrem⟩ := (h.table n c).mp hl
  rw [hk] at hk'
  cases hk'
  rw [hm, hrem]

end TcpServer

end MuduoPlus
