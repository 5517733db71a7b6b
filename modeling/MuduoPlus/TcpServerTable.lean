import MuduoPlus.TcpServerFunctors

namespace MuduoPlus

namespace TcpServer

variable {s : TcpServer} {c : Nat} {k : ServerConnection}
  {r : Option (LoopId × ServerFunctor)}

/-- `newConnection` up to `runInLoop`. -/
def register (poller : EPollPoller) (addr : Nat) (sockfd : Int) (writeComplete : Bool)
    (s : TcpServer) : TcpServer :=
  let conn := TcpConnection.new poller addr sockfd false writeComplete true ()
  let k : ServerConnection :=
    ⟨s.connName s.nextConnId, s.threadPool.getNextLoop.1, conn, [], 0, 0, 0⟩
  { s with
    threadPool := s.threadPool.getNextLoop.2
    nextConnId := s.nextConnId + 1#32
    accepted := s.accepted ++ [k]
    connections := s.connections.insert (s.connName s.nextConnId) s.accepted.length }

section Register

variable {poller : EPollPoller} {addr : Nat} {sockfd : Int} {writeComplete : Bool}

/-- The name of the next connection is not that of an earlier one. -/
theorem ServerInv.name_ne (h : ServerInv r s) (hfew : s.accepted.length + 1 < 2 ^ 31)
    (hk : s.accepted[c]? = some k) : k.name ≠ s.connName s.nextConnId := by
  intro heq
  have hlt : c < s.accepted.length := (List.getElem?_eq_some_iff.mp hk).1
  rw [h.name_eq hk, h.next_id] at heq
  have hnat := congrArg BitVec.toNat (connName_injective h.ipPort_length heq)
  simp only [BitVec.toNat_ofNat] at hnat
  omega

/-- `connections_[connName] = conn` adds an entry and replaces none. -/
theorem ServerInv.lookup_insert (h : ServerInv r s) (hfew : s.accepted.length + 1 < 2 ^ 31)
    (n : Bytes) (c : Nat) :
    (s.connections.insert (s.connName s.nextConnId) s.accepted.length).lookup n = some c ↔
      (n = s.connName s.nextConnId ∧ c = s.accepted.length) ∨ s.connections.lookup n = some c := by
  by_cases hn : n = s.connName s.nextConnId
  · subst hn
    rw [Finmap.lookup_insert]
    constructor
    · intro hl
      exact Or.inl ⟨rfl, (Option.some.inj hl).symm⟩
    · rintro (⟨-, rfl⟩ | hl)
      · rfl
      · obtain ⟨k, hk, hname, -⟩ := (h.table _ _).mp hl
        exact absurd hname (h.name_ne hfew hk)
  · rw [Finmap.lookup_insert_of_ne _ hn]
    constructor
    · exact Or.inr
    · rintro (⟨heq, -⟩ | hl)
      · exact absurd heq hn
      · exact hl

theorem ServerInv.register_life (h : ServerInv none s) (addr : Nat) (writeComplete : Bool)
    (hfd : sockfd ∉ poller.kernel.interest) :
    ∃ k, (s.register poller addr sockfd writeComplete).accepted[s.accepted.length]? = some k ∧
      k.name = s.connName s.nextConnId ∧ k.served.removed = 0 ∧
      Life (some (s.threadPool.getNextLoop.1, .connectEstablished s.accepted.length))
        (s.register poller addr sockfd writeComplete) s.accepted.length k := by
  have hnone : s.accepted[s.accepted.length]? = none := by simp
  obtain ⟨hdue, hlog⟩ := h.unborn _ hnone
  have hfresh : ServedConnection.Fresh
      ⟨TcpConnection.new poller addr sockfd false writeComplete true (), [], 0, 0, 0⟩ :=
    ⟨rfl, rfl, rfl, rfl, hfd, rfl, rfl, rfl⟩
  refine ⟨_, List.getElem?_concat_length, rfl, rfl, ?_⟩
  refine ⟨?_, fun _ => hfresh, ?_, Nat.zero_le _, hlog _ rfl, ?_, hlog _ rfl, ?_, ?_⟩
  · rw [due_self]
    have hd := hdue s.threadPool.getNextLoop.1 (.connectEstablished s.accepted.length) rfl
    have he := hlog (.established s.accepted.length) rfl
    show due none s _ _ + 1 + s.log.count _ = 1
    omega
  · rw [due_other _ _ _ (by simp)]
    exact hdue .main (.removeConnectionInLoop s.accepted.length) rfl
  · rw [due_other _ _ _ (by simp)]
    exact hdue _ (.connectDestroyed s.accepted.length) rfl
  · intro l hl
    refine ⟨?_, ?_, hlog _ rfl⟩
    · rw [due_done, if_neg fun heq => hl heq.1.symm]
      exact hdue l (.connectEstablished s.accepted.length) rfl
    · rw [due_other _ _ _ (by simp)]
      exact hdue l (.connectDestroyed s.accepted.length) rfl
  · intro l hl
    rw [due_other _ _ _ (by simp)]
    exact hdue l (.removeConnectionInLoop s.accepted.length) rfl

/-- The other connections keep their places. -/
theorem register_getElem? (hc : c ≠ s.accepted.length) :
    (s.register poller addr sockfd writeComplete).accepted[c]? = s.accepted[c]? := by
  show (s.accepted ++ [_])[c]? = s.accepted[c]?
  rcases Nat.lt_or_ge c s.accepted.length with hlt | hge
  · exact List.getElem?_append_left hlt
  · rw [List.getElem?_eq_none hge, List.getElem?_eq_none]
    rw [List.length_append, List.length_singleton]
    omega

theorem due_register (hc : c ≠ s.accepted.length) (l : LoopId) (f : ServerFunctor)
    (hf : f.conn = c) :
    due (some (s.threadPool.getNextLoop.1, .connectEstablished s.accepted.length))
      (s.register poller addr sockfd writeComplete) l f = due none s l f := by
  refine due_other (s.register poller addr sockfd writeComplete) _ l ?_
  rintro rfl
  exact hc hf.symm

theorem ServerInv.register (h : ServerInv none s) (hfew : s.accepted.length + 1 < 2 ^ 31)
    (hfd : sockfd ∉ poller.kernel.interest) :
    ServerInv (some (s.threadPool.getNextLoop.1, .connectEstablished s.accepted.length))
      (s.register poller addr sockfd writeComplete) := by
  obtain ⟨k, hk, hkname, hkrem, hlife⟩ := h.register_life addr writeComplete hfd
  have hlen : (s.register poller addr sockfd writeComplete).accepted.length = s.accepted.length + 1 :=
    List.length_append
  refine ⟨h.ipPort_length, ?_, ?_, ?_, ?_, ?_, ?_, h.order⟩
  · rw [hlen]
    exact hfew
  · rw [hlen]
    show s.nextConnId + 1#32 = _
    rw [h.next_id]
    exact (BitVec.ofNat_add _ _).symm
  · rw [hlen, List.range_succ, List.map_append]
    show List.map _ (s.accepted ++ [_]) = _
    rw [List.map_append, h.names]
    show _ ++ [s.connName s.nextConnId] = _
    rw [h.next_id]
    rfl
  · intro n c
    refine (h.lookup_insert hfew n c).trans ?_
    by_cases hc : c = s.accepted.length
    · subst hc
      constructor
      · rintro (⟨rfl, -⟩ | hl)
        · exact ⟨k, hk, hkname, hkrem⟩
        · obtain ⟨k', hk', -⟩ := (h.table _ _).mp hl
          simp at hk'
      · rintro ⟨k', hk', rfl, -⟩
        rw [hk] at hk'
        cases hk'
        exact Or.inl ⟨hkname, rfl⟩
    · rw [register_getElem? hc, ← h.table]
      exact or_iff_right fun heq => hc heq.2
  · intro c hnone
    have hc : c ≠ s.accepted.length := by
      rintro rfl
      rw [hk] at hnone
      cases hnone
    rw [register_getElem? hc] at hnone
    obtain ⟨hd, hlog⟩ := h.unborn c hnone
    exact ⟨fun l f hf => (due_register hc l f hf).trans (hd l f hf), hlog⟩
  · intro c k' hk'
    by_cases hc : c = s.accepted.length
    · subst hc
      rw [hk] at hk'
      cases hk'
      exact hlife
    · rw [register_getElem? hc] at hk'
      exact (h.life c k' hk').congr (due_register hc) fun _ _ _ => rfl

theorem newConnection_eq (poller : EPollPoller) (addr : Nat) (sockfd : Int) (writeComplete : Bool)
    (s : TcpServer) :
    s.newConnection poller addr sockfd writeComplete =
      match s.threadPool.getNextLoop.1 with
      | .main => (s.register poller addr sockfd writeComplete).connectEstablished s.accepted.length
      | .sub i => (s.register poller addr sockfd writeComplete).queueInLoop (.sub i)
        (.connectEstablished s.accepted.length) := rfl

theorem ServerInv.newConnection (h : ServerInv none s) (hfew : s.accepted.length + 1 < 2 ^ 31)
    (hfd : sockfd ∉ poller.kernel.interest) :
    ServerInv none (s.newConnection poller addr sockfd writeComplete) := by
  have hreg : ServerInv _ (s.register poller addr sockfd writeComplete) := h.register hfew hfd
  rw [newConnection_eq]
  split
  next hl =>
    rw [hl] at hreg
    exact hreg.connectEstablished
  next i hl =>
    rw [hl] at hreg
    exact hreg.queueInLoop

end Register

/-- The books after a step of the connection itself; `r` is the `removeConnection` that the step
owes for a call of `closeCallback_`. -/
theorem Life.own (h : Life none s c k) {step : ServedStep Unit} (hown : step.Own)
    (hp : (ServedConnection.system Unit).permitted step k.served)
    (hclosed : (ServedConnection.apply step k.served).conn.closeCalls ≤ 1)
    (hother : ∀ l f, f ≠ .removeConnectionInLoop c → due r s l f = due none s l f)
    (hmain : ∀ l, l ≠ .main → due r s l (.removeConnectionInLoop c) = 0)
    (howes : due r s .main (.removeConnectionInLoop c) + k.served.conn.closeCalls =
      due none s .main (.removeConnectionInLoop c) +
        (ServedConnection.apply step k.served).conn.closeCalls) :
    Life r s c { k with served := ServedConnection.apply step k.served } := by
  obtain ⟨hremoved, hdestroyed⟩ := ServedConnection.apply_own_counters (v := k.served) hown
  refine ⟨?_, ?_, ?_, hclosed, ?_, ?_, ?_, ?_, hmain⟩
  · rw [hother _ _ (by simp)]
    exact h.established
  · intro hzero
    exact ((h.fresh hzero).apply hown hp).2
  · have hremoving := h.removing
    dsimp only
    omega
  · exact h.erased.trans hremoved.symm
  · rw [hother _ _ (by simp)]
    dsimp only
    rw [hremoved, hdestroyed]
    exact h.destroying
  · exact h.destroyed.trans hdestroyed.symm
  · intro l hl
    rw [hother _ _ (by simp), hother _ _ (by simp)]
    exact h.foreign l hl

/-- The server after a step of one of its connections, before it is told of a close. -/
theorem ServerInv.own (h : ServerInv none s) {step : ServedStep Unit} (hk : s.accepted[c]? = some k)
    (hown : step.Own) (hp : (ServedConnection.system Unit).permitted step k.served)
    (hlife : Life r s c { k with served := ServedConnection.apply step k.served })
    (hdue : ∀ l f, f.conn ≠ c → due r s l f = due none s l f) :
    ServerInv r ((if step.isHandler then s.record (.callback c) else s).setServed c
      (ServedConnection.apply step k.served)) := by
  obtain ⟨hremoved, -⟩ := ServedConnection.apply_own_counters (v := k.served) hown
  have hstart : Concerns c none s r s :=
    ⟨hdue, fun _ _ => rfl, fun _ _ => rfl, rfl, rfl, rfl, rfl⟩
  split
  next hh =>
    have hk' : (s.record (.callback c)).accepted[c]? = some k := hk
    have hest : .established c ∈ s.log := by
      apply List.count_pos_iff.mp
      by_contra hzero
      have hno := ((h.life c k hk).fresh (by omega)).apply hown hp
      rw [hno.1] at hh
      cases hh
    refine h.concerning ((hstart.trans (concerns_record r s (.callback c))).trans
      (concerns_setServed r _ c _)) hk (setServed_getElem? hk' _) (h.table_kept hk hremoved)
      (fun hz => hremoved ▸ hz) ?_ (h.order.snoc hest)
    refine hlife.congr (fun _ _ _ => rfl) ?_
    intro e _ hne
    exact (count_record s (.callback c) e).trans (by rw [if_neg hne.symm, Nat.add_zero])
  next hh =>
    exact h.concerning (hstart.trans (concerns_setServed r s c _)) hk (setServed_getElem? hk _)
      (h.table_kept hk hremoved) (fun hz => hremoved ▸ hz)
      (hlife.congr (fun _ _ _ => rfl) fun _ _ _ => rfl) h.order

theorem ServerInv.connStep (h : ServerInv none s) {step : ServedStep Unit}
    (hk : s.accepted[c]? = some k) (hown : step.Own)
    (hp : (ServedConnection.system Unit).permitted step k.served)
    (hclosed : (ServedConnection.apply step k.served).conn.closeCalls ≤ 1) :
    ServerInv none (s.connStep c step) := by
  have hlife := h.life c k hk
  have hmono := ServedConnection.closeCalls_le_apply step k.served
  unfold TcpServer.connStep
  rw [hk]
  dsimp only
  rcases Nat.eq_or_lt_of_le hmono with heq | hlt
  · rw [← heq, Nat.sub_self]
    refine h.own hk hown hp ?_ fun _ _ _ => rfl
    exact hlife.own hown hp hclosed (fun _ _ _ => rfl) hlife.main (by rw [heq])
  · have hone : (ServedConnection.apply step k.served).conn.closeCalls -
        k.served.conn.closeCalls = 1 := by omega
    rw [hone]
    refine ServerInv.removeConnection (h.own hk hown hp ?_ ?_)
    · refine hlife.own hown hp hclosed ?_ ?_ ?_
      · intro l f hf
        exact due_other s .main l hf.symm
      · intro l hl
        rw [due_done, if_neg fun heq => hl heq.1.symm]
        exact hlife.main l hl
      · rw [due_self]
        omega
    · intro l f hf
      refine due_other s .main l ?_
      rintro rfl
      exact hf rfl

theorem serverInv_new (listenAddr : InetAddress) (nameArg : Bytes) (loops : Nat) :
    ServerInv none (new listenAddr nameArg loops) where
  ipPort_length := listenAddr.toIpPort_length_le
  few := by simp [new]
  next_id := rfl
  names := rfl
  table n c := by
    constructor
    · intro h
      simp [new] at h
    · rintro ⟨k, hk, -⟩
      simp [new] at hk
  unborn c _ := ⟨fun _ _ _ => rfl, fun _ _ => rfl⟩
  life c k hk := by simp [new] at hk
  order := preceded_nil _

theorem serverInv_of_reachable (h : system.Reachable s) : ServerInv none s := by
  refine h.invariant ?_ ?_
  · rintro s ⟨listenAddr, nameArg, loops, rfl⟩
    exact serverInv_new listenAddr nameArg loops
  · intro a s hp hinv
    cases a with
    | accept poller addr sockfd writeComplete => exact hinv.newConnection hp.1 hp.2.2.2
    | run loop => exact hinv.runFunctor
    | conn c step =>
      obtain ⟨k, hk, hown, hstep, hclosed⟩ := hp
      exact hinv.connStep hk hown hstep hclosed

/-- What `connections_` holds and in which order a connection is established, erased and
destroyed. -/
structure ConnectionTable (s : TcpServer) : Prop where
  names : (s.accepted.map ServerConnection.name).Nodup
  next_name : s.accepted.length + 1 < 2 ^ 31 → s.connName s.nextConnId ∉ s.connections
  entries : ∀ n c, s.connections.lookup n = some c ↔
    ∃ k, s.accepted[c]? = some k ∧ k.name = n ∧ .erased c ∉ s.log
  established_once : ∀ c, s.log.count (.established c) ≤ 1
  destroyed_once : ∀ c l, s.log.count (.destroyed c l) ≤ 1
  destroyed_own_loop : ∀ c l, .destroyed c l ∈ s.log →
    ∃ k, s.accepted[c]? = some k ∧ k.loop = l
  order : Preceded ServerEvent.After s.log

/-- A counted event belongs to an accepted connection. -/
theorem ServerInv.logged (h : ServerInv none s) {e : ServerEvent} (he : e ∈ s.log) :
    ∃ k, s.accepted[e.conn]? = some k ∧ Life none s e.conn k := by
  rcases hk : s.accepted[e.conn]? with _ | k
  · have hzero := (h.unborn e.conn hk).2 e rfl
    exact absurd he (List.count_eq_zero.mp hzero)
  · exact ⟨k, rfl, h.life e.conn k hk⟩

/-- Over any interleaving of the loops, any number of them and any number of connections. -/
theorem connectionTable_of_reachable (h : system.Reachable s) : s.ConnectionTable := by
  have hinv := serverInv_of_reachable h
  have hdestroyed : ∀ c l, .destroyed c l ∈ s.log →
      ∃ k, s.accepted[c]? = some k ∧ Life none s c k ∧ k.loop = l := by
    intro c l hm
    obtain ⟨k, hk, hlife⟩ := hinv.logged hm
    refine ⟨k, hk, hlife, ?_⟩
    by_contra hne
    exact List.count_eq_zero.mp (hlife.foreign l (Ne.symm hne)).2.2 hm
  refine ⟨hinv.names_nodup, ?_, ?_, ?_, ?_, ?_, hinv.order⟩
  · intro hfew hmem
    obtain ⟨c, hc⟩ := Finmap.mem_iff.mp hmem
    obtain ⟨k, hk, hname, -⟩ := (hinv.table _ c).mp hc
    exact hinv.name_ne hfew hk hname
  · intro n c
    rw [hinv.table]
    refine exists_congr fun k => and_congr_right fun hk => and_congr_right fun _ => ?_
    rw [← (hinv.life c k hk).erased, List.count_eq_zero]
  · intro c
    by_cases hm : .established c ∈ s.log
    · obtain ⟨k, -, hlife⟩ := hinv.logged hm
      have hone := hlife.established
      change _ + s.log.count (.established c) = 1 at hone
      omega
    · rw [List.count_eq_zero.mpr hm]
      exact Nat.zero_le 1
  · intro c l
    by_cases hm : .destroyed c l ∈ s.log
    · obtain ⟨k, hk, hlife, rfl⟩ := hdestroyed c l hm
      have hd := hlife.destroyed
      have hr := hlife.destroying
      have hc := hlife.removing
      have hle := hlife.closed
      omega
    · rw [List.count_eq_zero.mpr hm]
      exact Nat.zero_le 1
  · intro c l hm
    obtain ⟨k, hk, -, hl⟩ := hdestroyed c l hm
    exact ⟨k, hk, hl⟩

/-- A connection that is accepted, read to its end and removed, with one thread. -/
def oneConnection : List ServerAction := [
  .accept ⟨∅, ⟨{5}, ∅⟩⟩ 1 5 true, .run (.sub 0), .conn 0 (.deliver epollIn),
  .conn 0 (.handle (.handleRead (.data []) (Buffer.new 8) ())), .run .main, .run (.sub 0)]

theorem connectionTable_of_reachable_one :
    let s := system.run oneConnection (new ⟨(127, 0, 0, 1), 80⟩ (ascii "s") 1)
    s.log = [.established 0, .callback 0, .erased 0, .destroyed 0 (.sub 0)] ∧
      s.ConnectionTable := by
  intro s
  have h0 : system.Reachable (new ⟨(127, 0, 0, 1), 80⟩ (ascii "s") 1) := .init ⟨_, _, _, rfl⟩
  have hp : system.Permits oneConnection (new ⟨(127, 0, 0, 1), 80⟩ (ascii "s") 1) := by
    refine ⟨⟨?_, ?_, ?_, ?_⟩, ⟨?_, ?_⟩, ⟨_, rfl, trivial, ⟨?_, ⟨kReadEvent, 1⟩, ?_, ?_, ?_⟩, ?_⟩,
      ⟨_, rfl, trivial, ⟨.read, [], ?_, trivial⟩, ?_⟩, ⟨?_, ?_⟩, ⟨?_, ?_⟩, trivial⟩
    all_goals first | decide +kernel | (unfold Idle; decide +kernel)
  exact ⟨by decide +kernel, connectionTable_of_reachable (h0.run hp)⟩

end TcpServer

end MuduoPlus
