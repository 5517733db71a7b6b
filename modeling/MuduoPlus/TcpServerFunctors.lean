import MuduoPlus.TcpServerBooks

namespace MuduoPlus

namespace TcpServer

variable {s : TcpServer} {c d : Nat} {k : ServerConnection}
  {r : Option (LoopId × ServerFunctor)} {l : LoopId} {f : ServerFunctor}

theorem Life.connectEstablished {v : ServedConnection Unit}
    (h : Life (some (k.loop, .connectEstablished c)) s c k)
    (hv : v = ServedConnection.apply (.connectEstablished ()) k.served) :
    Life none (s.record (.established c)) c { k with served := v } := by
  subst hv
  have hest := h.established
  rw [due_self] at hest
  have hremoving := h.removing
  rw [due_other _ _ _ (by simp)] at hremoving
  have hdestroying := h.destroying
  rw [due_other _ _ _ (by simp)] at hdestroying
  refine ⟨?_, ?_, hremoving, h.closed, ?_, hdestroying, ?_, ?_, ?_⟩
  · show due none s k.loop (.connectEstablished c) + _ = 1
    rw [count_record, if_pos rfl]
    omega
  · intro hzero
    rw [count_record, if_pos rfl] at hzero
    omega
  · rw [count_record, if_neg (by simp)]
    exact h.erased
  · rw [count_record, if_neg (by simp)]
    exact h.destroyed
  · intro l hl
    obtain ⟨he, hd, hlog⟩ := h.foreign_done hl
    refine ⟨he, hd, ?_⟩
    rw [count_record, if_neg (by simp)]
    exact hlog
  · exact fun l hl => h.main_done hl

theorem ServerInv.connectEstablished (h : ServerInv (some (l, .connectEstablished c)) s) :
    ServerInv none (s.connectEstablished c) := by
  obtain ⟨k, hk, hlife⟩ := h.known (c := c) rfl
  have hl : l = k.loop := by
    by_contra hne
    have hzero := (hlife.foreign l hne).1
    rw [due_self] at hzero
    omega
  subst hl
  have hk' : (s.record (.established c)).accepted[c]? = some k := hk
  have heq : s.connectEstablished c = (s.record (.established c)).setServed c
      (ServedConnection.apply (.connectEstablished ()) k.served) := serve_eq hk' _
  rw [heq]
  refine h.concerning ?_ hk (setServed_getElem? hk' _) (h.table_kept hk rfl) (fun hz => hz) ?_ ?_
  · exact ((concerns_done s k.loop (.connectEstablished c)).trans
      (concerns_record none s (.established c))).trans (concerns_setServed none _ c _)
  · exact (hlife.connectEstablished rfl).congr (fun _ _ _ => rfl) fun _ _ _ => rfl
  · exact h.order.snoc trivial

theorem Life.connectDestroyed {v : ServedConnection Unit}
    (h : Life (some (k.loop, .connectDestroyed c)) s c k)
    (hv : v = ServedConnection.apply .connectDestroyed k.served) :
    Life none (s.record (.destroyed c k.loop)) c { k with served := v } := by
  subst hv
  have hclose := ServedConnection.closeCalls_connectDestroyed k.served
  have hest := h.established
  rw [due_other _ _ _ (by simp)] at hest
  have hremoving := h.removing
  rw [due_other _ _ _ (by simp)] at hremoving
  have hdestroying := h.destroying
  rw [due_self] at hdestroying
  refine ⟨?_, ?_, hremoving.trans hclose.symm, ?_, ?_, ?_, ?_, ?_, ?_⟩
  · rw [count_record, if_neg (by simp)]
    exact hest
  · intro hzero
    rw [count_record, if_neg (by simp)] at hzero
    have hremoved := (h.fresh hzero).removed
    omega
  · dsimp only
    rw [hclose]
    exact h.closed
  · rw [count_record, if_neg (by simp)]
    exact h.erased
  · show due none s k.loop (.connectDestroyed c) + (k.served.destroyed + 1) = k.served.removed
    omega
  · rw [count_record, if_pos rfl]
    exact congrArg (· + 1) h.destroyed
  · intro l hl
    obtain ⟨he, hd, hlog⟩ := h.foreign_done hl
    refine ⟨he, hd, ?_⟩
    rw [count_record, if_neg (by simpa using Ne.symm hl)]
    exact hlog
  · exact fun l hl => h.main_done hl

theorem ServerInv.connectDestroyed (h : ServerInv (some (l, .connectDestroyed c)) s) :
    ServerInv none (s.connectDestroyed l c) := by
  obtain ⟨k, hk, hlife⟩ := h.known (c := c) rfl
  have hl : l = k.loop := by
    by_contra hne
    have hzero := (hlife.foreign l hne).2.1
    rw [due_self] at hzero
    omega
  subst hl
  have hk' : (s.record (.destroyed c k.loop)).accepted[c]? = some k := hk
  have heq : s.connectDestroyed k.loop c = (s.record (.destroyed c k.loop)).setServed c
      (ServedConnection.apply .connectDestroyed k.served) := serve_eq hk' _
  have hremoved : 0 < k.served.removed := by
    have hd := hlife.destroying
    rw [due_self] at hd
    omega
  have hclosed : 0 < k.served.conn.closeCalls := by
    have hr := hlife.removing
    omega
  rw [heq]
  refine h.concerning ?_ hk (setServed_getElem? hk' _) (h.table_kept hk rfl) (fun hz => hz) ?_ ?_
  · exact ((concerns_done s k.loop (.connectDestroyed c)).trans
      (concerns_record none s (.destroyed c k.loop))).trans (concerns_setServed none _ c _)
  · exact (hlife.connectDestroyed rfl).congr (fun _ _ _ => rfl) fun _ _ _ => rfl
  · refine h.order.snoc ⟨hlife.established_of_closed hclosed, ?_⟩
    apply List.count_pos_iff.mp
    rw [hlife.erased]
    exact hremoved

theorem Life.removeConnectionInLoop {v : ServedConnection Unit}
    (h : Life (some (.main, .removeConnectionInLoop c)) s c k)
    (hv : v = ServedConnection.apply .removeConnectionInLoop k.served) :
    Life (some (k.loop, .connectDestroyed c)) (s.record (.erased c)) c { k with served := v } := by
  subst hv
  have hest := h.established
  rw [due_other _ _ _ (by simp)] at hest
  have hremoving := h.removing
  rw [due_self] at hremoving
  have hdestroying := h.destroying
  rw [due_other _ _ _ (by simp)] at hdestroying
  refine ⟨?_, ?_, ?_, h.closed, ?_, ?_, ?_, ?_, ?_⟩
  · rw [due_other _ _ _ (by simp), count_record, if_neg (by simp)]
    exact hest
  · intro hzero
    rw [count_record, if_neg (by simp)] at hzero
    have hclosed := (h.fresh hzero).never_closed
    omega
  · rw [due_other _ _ _ (by simp)]
    show due none s .main (.removeConnectionInLoop c) + (k.served.removed + 1) = k.served.conn.closeCalls
    omega
  · rw [count_record, if_pos rfl]
    exact congrArg (· + 1) h.erased
  · rw [due_self]
    show due none s k.loop (.connectDestroyed c) + 1 + k.served.destroyed = k.served.removed + 1
    omega
  · rw [count_record, if_neg (by simp)]
    exact h.destroyed
  · intro l hl
    obtain ⟨he, hd, hlog⟩ := h.foreign_done hl
    refine ⟨?_, ?_, ?_⟩
    · rw [due_other _ _ _ (by simp)]
      exact he
    · rw [due_done, if_neg fun heq => hl heq.1.symm]
      exact hd
    · rw [count_record, if_neg (by simp)]
      exact hlog
  · intro l hl
    rw [due_other _ _ _ (by simp)]
    exact h.main_done hl

/-- The entry of a connection goes, and no other. -/
theorem ServerInv.table_erase (h : ServerInv r s) (hk : s.accepted[d]? = some k)
    (hrem : k.served.removed = 0) {m : Nat} (hm : m ≠ 0) (n : Bytes) (c : Nat) :
    (s.connections.erase k.name).lookup n = some c ↔
      s.connections.lookup n = some c ∧ (c = d → m = 0) := by
  have hown : s.connections.lookup k.name = some d := (h.table k.name d).mpr ⟨k, hk, rfl, hrem⟩
  by_cases hn : n = k.name
  · subst hn
    rw [Finmap.lookup_erase, hown]
    constructor
    · rintro ⟨⟩
    · rintro ⟨hc, hz⟩
      exact absurd (hz (Option.some.inj hc).symm) hm
  · rw [Finmap.lookup_erase_ne hn]
    refine ⟨fun hl => ⟨hl, ?_⟩, fun hl => hl.1⟩
    rintro rfl
    obtain ⟨k', hk', hn', -⟩ := (h.table n c).mp hl
    rw [hk] at hk'
    cases hk'
    exact absurd hn'.symm hn

theorem ServerInv.removeConnectionInLoop (h : ServerInv (some (l, .removeConnectionInLoop c)) s) :
    ServerInv none (s.removeConnectionInLoop c) := by
  obtain ⟨k, hk, hlife⟩ := h.known (c := c) rfl
  have hl : l = .main := by
    by_contra hne
    have hzero := hlife.main l hne
    rw [due_self] at hzero
    omega
  subst hl
  have hclosed : 0 < k.served.conn.closeCalls ∧ k.served.removed = 0 := by
    have hr := hlife.removing
    have hle := hlife.closed
    rw [due_self] at hr
    omega
  let erased : TcpServer := { s with connections := s.connections.erase k.name }
  have hk' : (erased.record (.erased c)).accepted[c]? = some k := hk
  have heq : s.removeConnectionInLoop c = ((erased.record (.erased c)).setServed c
      (ServedConnection.apply .removeConnectionInLoop k.served)).queueInLoop k.loop
        (.connectDestroyed c) := by
    rw [← serve_eq hk' .removeConnectionInLoop]
    simp only [TcpServer.removeConnectionInLoop, hk]
    rfl
  rw [heq]
  refine ServerInv.queueInLoop ?_
  refine h.concerning ?_ hk (setServed_getElem? hk' _)
    (h.table_erase hk hclosed.2 (Nat.succ_ne_zero _)) ?_ ?_ ?_
  · have hdone := concerns_done s .main (.removeConnectionInLoop c)
    have herase : Concerns c none s (some (k.loop, .connectDestroyed c)) erased := by
      refine ⟨?_, fun _ _ => rfl, fun _ _ => rfl, rfl, rfl, rfl, rfl⟩
      intro l f hf
      refine due_other s k.loop l ?_
      rintro rfl
      exact hf rfl
    exact ((hdone.trans herase).trans (concerns_record _ erased (.erased c))).trans
      (concerns_setServed _ _ c _)
  · intro hz
    exact absurd hz (Nat.succ_ne_zero _)
  · exact (hlife.removeConnectionInLoop rfl).congr (fun _ _ _ => rfl) fun _ _ _ => rfl
  · exact h.order.snoc (hlife.established_of_closed hclosed.1)

theorem ServerInv.callFunctor (h : ServerInv (some (l, f)) s) : ServerInv none (callFunctor l f s) := by
  cases f with
  | connectEstablished c => exact h.connectEstablished
  | removeConnectionInLoop c => exact h.removeConnectionInLoop
  | connectDestroyed c => exact h.connectDestroyed

theorem ServerInv.runFunctor (h : ServerInv none s) : ServerInv none (s.runFunctor l) := by
  unfold TcpServer.runFunctor
  split
  · exact h
  next f rest hp => exact (h.pop hp).callFunctor

/-- `runInLoop`: a call now or later. -/
theorem ServerInv.removeConnection (h : ServerInv (some (.main, .removeConnectionInLoop c)) s) :
    ServerInv none (s.removeConnection l c) := by
  cases l with
  | main => exact h.removeConnectionInLoop
  | sub i => exact h.queueInLoop

end TcpServer

end MuduoPlus
