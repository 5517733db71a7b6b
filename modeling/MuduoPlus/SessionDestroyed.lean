import MuduoPlus.SessionSafety

namespace MuduoPlus

namespace SessionRun

open SessionManager SessionStore

variable {shared : Bool} {r : SessionRun}

/-- No destroyed session is edited. -/
def EditsLive : SessionStep → SessionRun → Prop
  | .edit session _, r => ∀ s ∈ r.store.heap[session]?, s.sessionId ∉ r.destroyed
  | _, _ => True

/-- Destroyed sessions were there once, and are not stored any more. -/
structure Gone (r : SessionRun) : Prop where
  own : r.store.Own
  made : ∀ id ∈ r.destroyed, Made id r
  absent : ∀ id ∈ r.destroyed, r.store.sessions id = none

theorem Gone.init (h : (system shared).init r) : Gone r := by
  have hdestroyed : r.destroyed = [] := h.2.2
  refine ⟨(Books.init h).own, ?_, ?_⟩
  · rw [hdestroyed]
    intro id hid
    cases hid
  · rw [hdestroyed]
    intro id hid
    cases hid

/-- A session is saved whose id is not among the destroyed ones. -/
theorem Gone.save {st : SessionStore} {now : Int} {edits : List (Nat × SessionEdit)} {a : Nat}
    {s : Session} (h : Gone { r with store := st, now, edits }) (ha : st.heap[a]? = some s)
    (hs : s.sessionId ∉ r.destroyed) : Gone { r with store := st.save a, now, edits } := by
  refine ⟨h.own.save ha, ?_, ?_⟩
  · intro id hid
    obtain ⟨s', hs', he⟩ := h.made id hid
    refine ⟨s', ?_, he⟩
    show s' ∈ (st.save a).heap
    rw [save_heap]
    exact hs'
  · intro id hid
    have hne : id ≠ s.sessionId := by
      rintro rfl
      exact hs hid
    show (st.save a).sessions id = none
    rw [save_sessions ha, Function.update_of_ne hne]
    exact h.absent id hid

theorem Gone.modify (h : Gone r) {a : Nat} {f : Session → Session}
    (hf : ∀ s, (f s).sessionId = s.sessionId) (now : Int) (edits : List (Nat × SessionEdit)) :
    Gone { r with store := r.store.modify a f, now, edits } := by
  refine ⟨h.own.modify hf, ?_, h.absent⟩
  intro id hid
  obtain ⟨s, hs, he⟩ := h.made id hid
  obtain ⟨a', hs⟩ := List.mem_iff_getElem?.mp hs
  by_cases haa : a' = a
  · subst haa
    exact ⟨f s, List.mem_of_getElem? (getElem?_modify_self hs), (hf s).trans he⟩
  · exact ⟨s, List.mem_of_getElem? ((getElem?_modify_other haa).trans hs), he⟩

theorem Gone.grow (h : Gone r) (s : Session) (now : Int) :
    Gone { r with store := { r.store with heap := r.store.heap ++ [s] }, now } := by
  refine ⟨h.own.grow s, ?_, h.absent⟩
  intro id hid
  obtain ⟨s', hs', he⟩ := h.made id hid
  exact ⟨s', List.mem_append_left _ hs', he⟩

theorem Gone.getSession (h : Gone r) {req : HttpRequest} {resp : HttpResponse} {newId : Bytes}
    {tested refreshed : Int} (hnew : ¬Made newId r) :
    Gone (apply shared (.getSession req resp newId tested refreshed) r) := by
  unfold apply
  dsimp only
  rcases getSession_cases shared req resp newId tested refreshed r.store with he | ⟨a, hs, -, he⟩
  · rw [he]
    refine (h.grow _ refreshed).save (getElem?_append_length _ _) ?_
    exact fun hid => hnew (h.made newId hid)
  · obtain ⟨s, ha, hid⟩ := h.own _ a hs
    have hmodify := h.modify (a := a) (f := (·.refresh refreshed)) (fun _ => rfl) refreshed r.edits
    rw [he]
    refine hmodify.save (getElem?_modify_self ha) ?_
    intro hdestroyed
    have hnone := h.absent _ hdestroyed
    change r.store.sessions s.sessionId = none at hnone
    rw [hid, hs] at hnone
    cases hnone

theorem Gone.edit (h : Gone r) {a : Nat} (ha : a < r.store.heap.length) {e : SessionEdit}
    (hlive : EditsLive (.edit a e) r) : Gone (apply shared (.edit a e) r) := by
  have hs := List.getElem?_eq_getElem ha
  have hmodify := h.modify (a := a) (f := fun s => { s with data := e.apply s.data })
    (fun _ => rfl) r.now (r.edits ++ [(a, e)])
  unfold apply
  dsimp only
  rcases edit_eq r.store a e with he | he
  · rw [he]
    exact hmodify
  · rw [he]
    have hid : (r.store.heap[a]).sessionId ∉ r.destroyed := hlive _ hs
    exact hmodify.save (getElem?_modify_self hs) hid

theorem Gone.destroySession (h : Gone r) (id : Bytes) :
    Gone (apply shared (.destroySession id) r) := by
  have hsessions : ∀ id', r.store.sessions id' = none →
      (r.store.remove id).sessions id' = none := by
    intro id' hnone
    show Function.update r.store.sessions id none id' = none
    by_cases hid : id' = id
    · rw [hid, Function.update_self]
    · rw [Function.update_of_ne hid]
      exact hnone
  have hself : (r.store.remove id).sessions id = none := Function.update_self ..
  unfold apply
  dsimp only
  refine ⟨h.own.remove id, ?_, ?_⟩
  · intro id' hid'
    dsimp only at hid'
    split at hid'
    next hmade =>
      rcases List.mem_cons.mp hid' with rfl | hid'
      · exact hmade
      · exact h.made id' hid'
    next => exact h.made id' hid'
  · intro id' hid'
    dsimp only at hid'
    split at hid'
    next =>
      rcases List.mem_cons.mp hid' with rfl | hid'
      · exact hself
      · exact hsessions id' (h.absent id' hid')
    next => exact hsessions id' (h.absent id' hid')

theorem Gone.clean (h : Gone r) (clock : Bytes → Int) (later : Int) :
    Gone (apply shared (.cleanExpiredSessions clock later) r) := by
  refine ⟨h.own.clearExpired clock, h.made, ?_⟩
  intro id hid
  show (r.store.sessions id).filter _ = none
  rw [h.absent id hid]
  rfl

theorem Gone.apply {step : SessionStep} (hp : ((system shared).restrict EditsLive).permitted step r)
    (h : Gone r) : Gone (apply shared step r) := by
  obtain ⟨hp, hlive⟩ := hp
  cases step with
  | getSession req resp newId tested refreshed => exact h.getSession hp.2.1
  | edit session e => exact h.edit hp hlive
  | destroySession sessionId => exact h.destroySession sessionId
  | cleanExpiredSessions clock later => exact h.clean clock later

/-- A destroyed session is not returned any more, whatever cookie names it, as long as nobody
edits a destroyed session. -/
theorem destroyed_of_editsLive (h : ((system true).restrict EditsLive).Reachable r) {id : Bytes}
    (hid : id ∈ r.destroyed) {req : HttpRequest} {resp : HttpResponse} {newId : Bytes}
    {tested refreshed : Int}
    (hp : (system true).permitted (.getSession req resp newId tested refreshed) r) :
    let out := getSession true req resp newId tested refreshed r.store
    ∀ s, out.store.heap[out.session]? = some s → s.sessionId ≠ id := by
  have hgone : Gone r := by
    apply h.invariant
    · intro r₀ (h0 : (system true).init r₀)
      exact Gone.init h0
    · exact fun _ _ hp hg => hg.apply hp
  dsimp only
  intro s hs hsid
  rcases getSession_cases true req resp newId tested refreshed r.store with he | ⟨a, hstored, -, he⟩
  · rw [he, save_heap, getElem?_append_length] at hs
    have hnew : newId = id := by
      rw [← hsid, ← Option.some.inj hs]
      rfl
    rw [hnew] at hp
    exact hp.2.1 (hgone.made id hid)
  · obtain ⟨old, ha, hold⟩ := hgone.own _ a hstored
    rw [he, save_heap, getElem?_modify_self ha] at hs
    have hnamed : getSessionIdFromCookie req = id := by
      rw [← hsid, ← Option.some.inj hs, ← hold]
      rfl
    rw [hnamed, hgone.absent id hid] at hstored
    cases hstored

/-- A session is cleared, destroyed, and asked for again. -/
def clearThenDestroy : List SessionStep := [
  .getSession .new (.new false) (ascii "s1") 1 2, .edit 0 .clear, .destroySession (ascii "s1")]

theorem destroyed_of_editsLive_clearThenDestroy :
    let r := (system true).run clearThenDestroy opening
    let out := getSession true (askingFor "s1") (.new false) (ascii "s2") 3 4 r.store
    ascii "s1" ∈ r.destroyed ∧ ∀ s, out.store.heap[out.session]? = some s → s.sessionId ≠ ascii "s1" := by
  intro r out
  have h0 : ((system true).restrict EditsLive).Reachable opening := .init ⟨rfl, rfl, rfl⟩
  have hp : ((system true).restrict EditsLive).Permits clearThenDestroy opening := by
    refine ⟨⟨⟨?_, ?_, ?_, ?_⟩, trivial⟩, ⟨?_, ?_⟩, ⟨trivial, trivial⟩, trivial⟩
    on_goal 6 => exact fun _ _ => List.not_mem_nil
    all_goals first | decide +kernel | (show (_ : Nat) < _; decide +kernel)
  have hid : ascii "s1" ∈ r.destroyed := by decide +kernel
  have hnext : (system true).permitted
      (.getSession (askingFor "s1") (.new false) (ascii "s2") 3 4) r := by
    refine ⟨?_, ?_, ?_, ?_⟩
    all_goals decide +kernel
  exact ⟨hid, destroyed_of_editsLive (h0.run hp) hid hnext⟩

/-- A handler that logs out by destroying the session and then clears it. -/
def destroyThenClear : List SessionStep := [
  .getSession .new (.new false) (ascii "s1") 1 2, .destroySession (ascii "s1"), .edit 0 .clear]

/-- The clear writes the session back, and it is returned again. -/
theorem destroyed_session_returned :
    let r := (system true).run destroyThenClear opening
    let out := getSession true (askingFor "s1") (.new false) (ascii "s2") 3 4 r.store
    (system true).Reachable r ∧ ascii "s1" ∈ r.destroyed ∧
      getSessionIdFromCookie (askingFor "s1") = ascii "s1" ∧
      (out.store.heap[out.session]?).map (·.sessionId) = some (ascii "s1") := by
  intro r out
  have h0 : (system true).Reachable opening := .init ⟨rfl, rfl, rfl⟩
  have hp : (system true).Permits destroyThenClear opening := by
    refine ⟨⟨?_, ?_, ?_, ?_⟩, trivial, ?_, trivial⟩
    all_goals first | decide +kernel | (show (_ : Nat) < _; decide +kernel)
  refine ⟨h0.run hp, ?_, ?_, ?_⟩
  all_goals decide +kernel

end SessionRun

end MuduoPlus
