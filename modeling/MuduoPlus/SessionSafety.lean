import MuduoPlus.Session

namespace MuduoPlus

namespace SessionStore

variable {st : SessionStore} {a : Nat} {s : Session} {id : Bytes} {f : Session → Session}

/-- Every stored session is stored under its own id. -/
def Own (st : SessionStore) : Prop :=
  ∀ id a, st.sessions id = some a → ∃ s, st.heap[a]? = some s ∧ s.sessionId = id

theorem save_heap (st : SessionStore) (a : Nat) : (st.save a).heap = st.heap := by
  unfold save
  split
  next => rfl
  next => rfl

theorem save_sessions (h : st.heap[a]? = some s) :
    (st.save a).sessions = Function.update st.sessions s.sessionId (some a) := by
  unfold save
  rw [h]

theorem getElem?_modify_self (h : st.heap[a]? = some s) : (st.modify a f).heap[a]? = some (f s) := by
  simp [modify, h]

theorem getElem?_modify_other {a' : Nat} (h : a' ≠ a) :
    (st.modify a f).heap[a']? = st.heap[a']? := by
  have hne : a ≠ a' := Ne.symm h
  simp [modify, hne]

theorem Own.save (h : st.Own) (ha : st.heap[a]? = some s) : (st.save a).Own := by
  intro id a' hs
  rw [save_sessions ha] at hs
  rw [save_heap]
  by_cases hid : id = s.sessionId
  · subst hid
    rw [Function.update_self] at hs
    rw [← Option.some.inj hs]
    exact ⟨s, ha, rfl⟩
  · rw [Function.update_of_ne hid] at hs
    exact h id a' hs

theorem Own.modify (h : st.Own) (hf : ∀ s, (f s).sessionId = s.sessionId) : (st.modify a f).Own := by
  intro id a' hs
  obtain ⟨s, hs', hid⟩ := h id a' hs
  by_cases ha : a' = a
  · subst ha
    exact ⟨f s, getElem?_modify_self hs', (hf s).trans hid⟩
  · exact ⟨s, (getElem?_modify_other ha).trans hs', hid⟩

theorem Own.grow (h : st.Own) (s : Session) : Own { st with heap := st.heap ++ [s] } := by
  intro id a' hs
  obtain ⟨s', hs', hid⟩ := h id a' hs
  exact ⟨s', (List.getElem?_append_left (List.getElem?_eq_some_iff.mp hs').1).trans hs', hid⟩

theorem Own.remove (h : st.Own) (id : Bytes) : (st.remove id).Own := by
  intro id' a' hs
  change Function.update st.sessions id none id' = some a' at hs
  by_cases hid : id' = id
  · rw [hid, Function.update_self] at hs
    cases hs
  · rw [Function.update_of_ne hid] at hs
    exact h id' a' hs

theorem Own.clearExpired (h : st.Own) (clock : Bytes → Int) : (st.clearExpired clock).Own := by
  intro id a' hs
  exact h id a' (Option.filter_eq_some_iff.mp hs).1

theorem edit_eq (st : SessionStore) (a : Nat) (e : SessionEdit) :
    st.edit a e = st.modify a (fun s => { s with data := e.apply s.data }) ∨
      st.edit a e = (st.modify a fun s => { s with data := e.apply s.data }).save a := by
  unfold edit
  dsimp only
  split
  next => exact Or.inr rfl
  next => exact Or.inl rfl

theorem edit_heap (st : SessionStore) (a : Nat) (e : SessionEdit) :
    (st.edit a e).heap = st.heap.modify a fun s => { s with data := e.apply s.data } := by
  rcases edit_eq st a e with h | h
  · rw [h]
    rfl
  · rw [h, save_heap]
    rfl

theorem Own.edit (h : st.Own) (ha : a < st.heap.length) (e : SessionEdit) : (st.edit a e).Own := by
  have hs := List.getElem?_eq_getElem ha
  have hmodify : (st.modify a fun s => { s with data := e.apply s.data }).Own :=
    h.modify fun _ => rfl
  rcases edit_eq st a e with he | he
  · rw [he]
    exact hmodify
  · rw [he]
    exact hmodify.save (getElem?_modify_self hs)

end SessionStore

namespace SessionManager

variable {shared : Bool} {req : HttpRequest} {resp : HttpResponse} {newId : Bytes}
  {tested refreshed : Int} {st : SessionStore}

/-- The two ways through `getSession`: a new session, or the one that the cookie names. -/
theorem getSession_cases (shared : Bool) (req : HttpRequest) (resp : HttpResponse) (newId : Bytes)
    (tested refreshed : Int) (st : SessionStore) :
    (getSession shared req resp newId tested refreshed st = ⟨st.heap.length,
        setSessionCookie newId resp,
        SessionStore.save { st with heap := st.heap ++ [Session.new newId shared refreshed] }
          st.heap.length⟩) ∨
      ∃ a, st.sessions (getSessionIdFromCookie req) = some a ∧ st.expired a tested = false ∧
        getSession shared req resp newId tested refreshed st =
          ⟨a, resp, (st.modify a (·.refresh refreshed)).save a⟩ := by
  unfold getSession
  cases hload : (st.load (getSessionIdFromCookie req)).filter fun a => !st.expired a tested with
  | none => exact Or.inl rfl
  | some a =>
    obtain ⟨hstored, hexpired⟩ := Option.filter_eq_some_iff.mp hload
    exact Or.inr ⟨a, hstored, by simpa using hexpired, rfl⟩

end SessionManager

namespace SessionRun

open SessionManager SessionStore

variable {shared : Bool} {r : SessionRun}

/-- One more edit: it puts the value there itself, or it is about another session or key. -/
theorem lastSet_concat {session session' : Nat} {key value : Bytes} {e : SessionEdit}
    {edits : List (Nat × SessionEdit)} :
    LastSet session key value (edits ++ [(session', e)]) ↔
      session' = session ∧ e = .setValue key value ∨
        (session' = session → ¬e.Touches key) ∧ LastSet session key value edits := by
  constructor
  · rintro ⟨before, after, hedits, hafter⟩
    rcases List.eq_nil_or_concat after with rfl | ⟨rest, last, rfl⟩
    · obtain ⟨-, hlast⟩ := List.append_inj' hedits rfl
      obtain ⟨rfl, rfl⟩ := Prod.mk.inj (List.cons.inj hlast).1
      exact Or.inl ⟨rfl, rfl⟩
    · rw [List.concat_eq_append] at hedits hafter
      rw [← List.cons_append, ← List.append_assoc] at hedits
      obtain ⟨rfl, hlast⟩ := List.append_inj' hedits rfl
      obtain rfl := (List.cons.inj hlast).1
      refine Or.inr ⟨hafter (session', e) (by simp), before, rest, rfl, ?_⟩
      intro p hp
      exact hafter p (List.mem_append_left _ hp)
  · rintro (⟨rfl, rfl⟩ | ⟨he, before, after, rfl, hafter⟩)
    · exact ⟨edits, [], rfl, by simp⟩
    · refine ⟨before, after ++ [(session', e)], by simp, ?_⟩
      intro p hp
      rcases List.mem_append.mp hp with hp | hp
      · exact hafter p hp
      · rw [List.mem_singleton.mp hp]
        exact he

theorem not_lastSet_new {session : Nat} {edits : List (Nat × SessionEdit)}
    (h : ∀ p ∈ edits, p.1 < session) (key value : Bytes) : ¬LastSet session key value edits := by
  rintro ⟨before, after, rfl, -⟩
  have hlt := h (session, .setValue key value) (by simp)
  omega

/-- What an edit leaves under a key. -/
theorem lookup_apply_iff {e : SessionEdit} {data : Dict} {key value : Bytes} :
    (e.apply data).lookup key = some value ↔
      e = .setValue key value ∨ ¬e.Touches key ∧ data.lookup key = some value := by
  cases e with
  | setValue key' value' =>
    simp only [SessionEdit.apply, SessionEdit.Touches, SessionEdit.setValue.injEq]
    by_cases hkey : key' = key
    · subst hkey
      rw [Finmap.lookup_insert, Option.some.injEq]
      simp
    · rw [Finmap.lookup_insert_of_ne _ (Ne.symm hkey)]
      simp [hkey]
  | remove key' =>
    simp only [SessionEdit.apply, SessionEdit.Touches, reduceCtorEq, false_or]
    by_cases hkey : key' = key
    · subst hkey
      simp
    · rw [Finmap.lookup_erase_ne (Ne.symm hkey)]
      simp [hkey]
  | clear => simp [SessionEdit.apply, SessionEdit.Touches]

/-- Each session has what was put into it. -/
structure Filled (heap : List Session) (edits : List (Nat × SessionEdit)) : Prop where
  data : ∀ a s, heap[a]? = some s → ∀ key value,
    s.data.lookup key = some value ↔ LastSet a key value edits
  known : ∀ p ∈ edits, p.1 < heap.length
  lasting : ∀ s ∈ heap, s.maxAge = 3600

section Filled

variable {heap : List Session} {edits edits' : List (Nat × SessionEdit)} {a : Nat}
  {f : Session → Session}

/-- One of the sessions is changed, with what is known of its edits. -/
theorem Filled.modify (h : Filled heap edits) (hage : ∀ s, (f s).maxAge = s.maxAge)
    (hself : ∀ s, (∀ key value, s.data.lookup key = some value ↔ LastSet a key value edits) →
      ∀ key value, (f s).data.lookup key = some value ↔ LastSet a key value edits')
    (hother : ∀ a', a' ≠ a → ∀ key value, LastSet a' key value edits' ↔ LastSet a' key value edits)
    (hknown : ∀ p ∈ edits', p.1 < heap.length) : Filled (heap.modify a f) edits' := by
  refine ⟨?_, ?_, ?_⟩
  · intro a' s' hs'
    rw [List.getElem?_modify] at hs'
    obtain ⟨s, hs, hf⟩ := Option.map_eq_some_iff.mp hs'
    by_cases haa : a = a'
    · subst haa
      rw [if_pos rfl] at hf
      rw [← hf]
      exact hself s (h.data a s hs)
    · rw [if_neg haa] at hf
      intro key value
      rw [← hf, hother a' (Ne.symm haa) key value]
      exact h.data a' s hs key value
  · intro p hp
    rw [List.length_modify]
    exact hknown p hp
  · intro s' hs'
    obtain ⟨a', hs'⟩ := List.mem_iff_getElem?.mp hs'
    rw [List.getElem?_modify] at hs'
    obtain ⟨s, hs, rfl⟩ := Option.map_eq_some_iff.mp hs'
    have hlasting := h.lasting s (List.mem_of_getElem? hs)
    split
    next => exact (hage s).trans hlasting
    next => exact hlasting

theorem getElem?_append_length (heap : List Session) (s : Session) :
    (heap ++ [s])[heap.length]? = some s := by
  simp

theorem Filled.grow (h : Filled heap edits) (newId : Bytes) (shared : Bool) (now : Int) :
    Filled (heap ++ [Session.new newId shared now]) edits := by
  refine ⟨?_, ?_, ?_⟩
  · intro a s hs
    by_cases ha : a < heap.length
    · rw [List.getElem?_append_left ha] at hs
      exact h.data a s hs
    · obtain ⟨hlt, -⟩ := List.getElem?_eq_some_iff.mp hs
      rw [List.length_append, List.length_singleton] at hlt
      obtain rfl : a = heap.length := by omega
      rw [getElem?_append_length] at hs
      intro key value
      rw [← Option.some.inj hs]
      exact ⟨fun hnone => by simp [Session.new, Session.refresh] at hnone,
        fun hset => absurd hset (not_lastSet_new h.known key value)⟩
  · intro p hp
    have hlt := h.known p hp
    rw [List.length_append]
    omega
  · intro s hs
    rcases List.mem_append.mp hs with hs | hs
    · exact h.lasting s hs
    · rw [List.mem_singleton.mp hs]
      rfl

end Filled

structure Books (r : SessionRun) : Prop where
  own : r.store.Own
  filled : Filled r.store.heap r.edits

theorem Books.init (h : (system shared).init r) : Books r := by
  obtain ⟨hstore, hedits, -⟩ := h
  refine ⟨?_, ?_⟩
  · rw [hstore]
    intro id a hs
    cases hs
  · rw [hstore, hedits]
    refine ⟨?_, ?_, ?_⟩
    · intro a s hs
      cases hs
    · intro p hp
      cases hp
    · intro s hs
      cases hs

theorem Books.getSession (h : Books r) (req : HttpRequest) (resp : HttpResponse) (newId : Bytes)
    (tested refreshed : Int) :
    Books (apply shared (.getSession req resp newId tested refreshed) r) := by
  unfold apply
  dsimp only
  rcases getSession_cases shared req resp newId tested refreshed r.store with he | ⟨a, hs, -, he⟩
  · rw [he]
    refine ⟨(h.own.grow _).save (getElem?_append_length _ _), ?_⟩
    rw [save_heap]
    exact h.filled.grow newId shared refreshed
  · obtain ⟨s, ha, -⟩ := h.own _ a hs
    have hown : (r.store.modify a (·.refresh refreshed)).Own := h.own.modify fun _ => rfl
    rw [he]
    refine ⟨hown.save (getElem?_modify_self ha), ?_⟩
    rw [save_heap]
    exact h.filled.modify (fun _ => rfl) (fun _ hdata => hdata) (fun _ _ _ _ => Iff.rfl)
      h.filled.known

theorem Books.edit (h : Books r) {a : Nat} (ha : a < r.store.heap.length) (e : SessionEdit) :
    Books (apply shared (.edit a e) r) := by
  refine ⟨h.own.edit ha e, ?_⟩
  show Filled (r.store.edit a e).heap (r.edits ++ [(a, e)])
  rw [edit_heap]
  refine h.filled.modify (fun _ => rfl) ?_ ?_ ?_
  · intro s hdata key value
    rw [lookup_apply_iff, lastSet_concat, hdata key value]
    simp
  · intro a' hne key value
    rw [lastSet_concat]
    simp [Ne.symm hne]
  · intro p hp
    rcases List.mem_append.mp hp with hp | hp
    · exact h.filled.known p hp
    · rw [List.mem_singleton.mp hp]
      exact ha

theorem Books.apply {step : SessionStep} (hp : (system shared).permitted step r) (h : Books r) :
    Books (apply shared step r) := by
  cases step with
  | getSession req resp newId tested refreshed =>
    exact h.getSession req resp newId tested refreshed
  | edit session e => exact h.edit hp e
  | destroySession sessionId => exact ⟨h.own.remove sessionId, h.filled⟩
  | cleanExpiredSessions clock later => exact ⟨h.own.clearExpired clock, h.filled⟩

theorem Books.reachable (h : (system shared).Reachable r) : Books r :=
  h.invariant (fun _ => Books.init) (fun _ _ hp hb => hb.apply hp)

theorem not_isExpired_refresh {s : Session} (h : s.maxAge = 3600) (now : Int) :
    (s.refresh now).isExpired now = false := by
  simp only [Session.refresh, Session.isExpired, h, decide_eq_false_iff_not]
  omega

/-- What is promised of the session that `getSession` returns. -/
structure Served (r : SessionRun) (req : HttpRequest) (now : Int) (out : Found) (s : Session) :
    Prop where
  returned : out.store.heap[out.session]? = some s
  stored : out.store.sessions s.sessionId = some out.session
  alive : s.isExpired now = false
  named : out.session < r.store.heap.length → getSessionIdFromCookie req = s.sessionId
  data : ∀ key value, s.data.lookup key = some value ↔ LastSet out.session key value r.edits

/-- Sessions are stored under their own ids, and `getSession` returns one that is stored and
alive, an older one only if the cookie names it, with exactly what was put into it. -/
theorem session_store_safe (h : (system shared).Reachable r) :
    (∀ id a, r.store.sessions id = some a → ∃ s, r.store.heap[a]? = some s ∧ s.sessionId = id) ∧
      ∀ req resp newId tested refreshed,
        (system shared).permitted (.getSession req resp newId tested refreshed) r →
        ∃ s, Served r req refreshed
          (getSession shared req resp newId tested refreshed r.store) s := by
  have hbooks := Books.reachable h
  refine ⟨hbooks.own, ?_⟩
  intro req resp newId tested refreshed hp
  rcases getSession_cases shared req resp newId tested refreshed r.store with
    he | ⟨a, hs, -, he⟩
  · rw [he]
    have hnew := getElem?_append_length r.store.heap (Session.new newId shared refreshed)
    refine ⟨Session.new newId shared refreshed, ?_, ?_, ?_, ?_, ?_⟩
    · rw [save_heap]
      exact hnew
    · rw [save_sessions hnew, Function.update_self]
    · exact not_isExpired_refresh rfl refreshed
    · exact fun hlt => absurd hlt (Nat.lt_irrefl _)
    · intro key value
      exact ⟨fun hnone => by simp [Session.new, Session.refresh] at hnone,
        fun hset => absurd hset (not_lastSet_new hbooks.filled.known key value)⟩
  · obtain ⟨s, ha, hid⟩ := hbooks.own _ a hs
    have hrefreshed : (r.store.modify a (·.refresh refreshed)).heap[a]? = some (s.refresh refreshed) :=
      getElem?_modify_self ha
    rw [he]
    refine ⟨s.refresh refreshed, ?_, ?_, ?_, ?_, ?_⟩
    · rw [save_heap]
      exact hrefreshed
    · rw [save_sessions hrefreshed, Function.update_self]
    · exact not_isExpired_refresh (hbooks.filled.lasting s (List.mem_of_getElem? ha)) refreshed
    · exact fun _ => hid.symm
    · exact hbooks.filled.data a s ha

def opening : SessionRun := ⟨.new, 0, [], []⟩

/-- A request with the cookie of a session. -/
def askingFor (id : String) : HttpRequest :=
  HttpRequest.new.addHeader (ascii "Cookie") (ascii "a=b; SESSIONID=" ++ ascii id ++ ascii "; c")

/-- Two sessions, one of them edited and asked for again; the other one is cleared. -/
def twoVisitors : List SessionStep := [
  .getSession .new (.new false) (ascii "s1") 1 2, .edit 0 (.setValue (ascii "k") (ascii "v")),
  .edit 0 (.setValue (ascii "j") (ascii "x")), .edit 0 (.setValue (ascii "k") (ascii "w")),
  .getSession (askingFor "s1") (.new false) (ascii "s2") 3 4, .edit 0 (.remove (ascii "j")),
  .getSession (askingFor "other") (.new false) (ascii "s2") 5 6, .edit 1 .clear]

theorem session_store_safe_twoVisitors :
    let r := (system true).run twoVisitors opening
    let out := getSession true (askingFor "s1") (.new false) (ascii "s3") 7 8 r.store
    out.session = 0 ∧ ∃ s, Served r (askingFor "s1") 8 out s ∧
      s.data.lookup (ascii "k") = some (ascii "w") := by
  intro r out
  have h0 : (system true).Reachable opening := .init ⟨rfl, rfl, rfl⟩
  have hp : (system true).Permits twoVisitors opening := by
    refine ⟨⟨?_, ?_, ?_, ?_⟩, ?_, ?_, ?_, ⟨?_, ?_, ?_, ?_⟩, ?_, ⟨?_, ?_, ?_, ?_⟩, ?_, trivial⟩
    all_goals first | decide +kernel | (show (_ : Nat) < _; decide +kernel)
  have hnext : (system true).permitted
      (.getSession (askingFor "s1") (.new false) (ascii "s3") 7 8) r := by
    refine ⟨?_, ?_, ?_, ?_⟩
    all_goals decide +kernel
  have hout : out.session = 0 := by decide +kernel
  have hedits : r.edits = [(0, .setValue (ascii "k") (ascii "v")),
      (0, .setValue (ascii "j") (ascii "x"))] ++ (0, .setValue (ascii "k") (ascii "w")) ::
        [(0, .remove (ascii "j")), (1, .clear)] := rfl
  have hset : LastSet out.session (ascii "k") (ascii "w") r.edits := by
    rw [hout]
    refine ⟨_, _, hedits, ?_⟩
    simp [SessionEdit.Touches, ascii]
  obtain ⟨s, hs⟩ := (session_store_safe (h0.run hp)).2 _ _ _ _ _ hnext
  exact ⟨hout, s, hs, (hs.data _ _).mpr hset⟩

end SessionRun

end MuduoPlus
