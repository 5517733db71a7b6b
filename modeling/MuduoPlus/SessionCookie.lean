import MuduoPlus.HttpRender
import MuduoPlus.Session

namespace MuduoPlus

open WireRequest (pairText)

theorem afterFirst_eq (pattern text : Bytes) :
    afterFirst pattern text = (cutText pattern text).map Prod.snd := by
  induction text with
  | nil =>
    rw [afterFirst, cutText]
    split
    next => rfl
    next => rfl
  | cons b text ih =>
    rw [afterFirst, cutText]
    split
    next => rfl
    next => rw [ih, Option.map_map]; rfl

namespace SessionManager

def sessionName : Bytes := ascii "SESSIONID"

def sessionKey : Bytes := ascii "SESSIONID="

/-- Pairs `name=value`, joined by `; `. -/
def cookieText : List (Bytes × Bytes) → Bytes
  | [] => []
  | [p] => pairText p
  | p :: q :: rest => pairText p ++ chSemicolon :: chSpace :: cookieText (q :: rest)

/-- Names and values that a cookie header can hold. -/
structure CookiePair (p : Bytes × Bytes) : Prop where
  name_ok : ∀ c ∈ p.1, c ≠ chEquals ∧ c ≠ chSemicolon ∧ c ≠ chSpace
  value_ok : chSemicolon ∉ p.2

instance (p : Bytes × Bytes) : Decidable (CookiePair p) :=
  decidable_of_iff (((p.1.all fun c => c != chEquals && c != chSemicolon && c != chSpace) &&
    p.2.all fun c => c != chSemicolon) = true) (by
    simp only [Bool.and_eq_true, List.all_eq_true, bne_iff_ne, ne_eq, and_assoc]
    constructor
    · intro h
      exact ⟨h.1, fun hm => h.2 _ hm rfl⟩
    · intro h
      exact ⟨h.name_ok, fun c hc he => h.value_ok (he ▸ hc)⟩)

/-- The value of the first pair named `SESSIONID`, and the empty string without one. -/
def sessionValue (pairs : List (Bytes × Bytes)) : Bytes := (pairs.lookup sessionName).getD []

/-- The first pair in which `SESSIONID=` occurs is named `SESSIONID`; or else what follows the first
`SESSIONID=` in it is the value of the session anyway. -/
def KeyIsOwn (pairs : List (Bytes × Bytes)) : Prop :=
  ∀ p, pairs.find? (fun p => decide (sessionKey <:+: pairText p)) = some p →
    p.1 = sessionName ∨ ∃ before, pairText p = before ++ (sessionKey ++ sessionValue pairs) ∧
      ¬sessionKey <:+: before ++ sessionName

variable {pairs : List (Bytes × Bytes)} {p : Bytes × Bytes} {piece before text : Bytes}
  {req : HttpRequest}

theorem sessionIdIn_eq (cookieHeader : Bytes) :
    sessionIdIn cookieHeader =
      match cutText sessionKey cookieHeader with
      | some (_, text) => text.takeWhile (· ≠ chSemicolon)
      | none => [] := by
  unfold sessionIdIn sessionKey
  rw [afterFirst_eq]
  split
  next hnil =>
    rw [hnil]
    rfl
  next =>
    cases cutText (ascii "SESSIONID=") cookieHeader with
    | none => rfl
    | some p => rfl

theorem not_mem_pairText_of_cookie (h : CookiePair p) : chSemicolon ∉ pairText p :=
  WireRequest.not_mem_pairText (fun hm => (h.name_ok _ hm).2.1 rfl) h.value_ok (by decide)

/-- The session id comes from the first piece that has the key. -/
theorem sessionIdIn_found (hcut : cutText sessionKey (pairText p) = some (before, text))
    (hp : CookiePair p) (rest : List (Bytes × Bytes)) :
    sessionIdIn (cookieText (p :: rest)) = text := by
  have hkey : sessionKey ≠ [] := by decide
  obtain ⟨htext, -⟩ := (cutText_eq_some_iff hkey).mp hcut
  have hn : ∀ c ∈ text, decide (c ≠ chSemicolon) = true := by
    have hpiece := not_mem_pairText_of_cookie hp
    rw [htext] at hpiece
    intro c hm
    rw [decide_eq_true_iff]
    rintro rfl
    exact hpiece (List.mem_append_right _ (List.mem_append_right _ hm))
  simp only [sessionIdIn_eq]
  cases rest with
  | nil =>
    rw [cookieText, hcut]
    exact List.takeWhile_eq_self_iff.mpr hn
  | cons q rest =>
    rw [cookieText, cutText_append hkey hcut]
    dsimp only
    rw [List.takeWhile_append_of_pos hn, List.takeWhile_cons_of_neg (by simp), List.append_nil]

theorem sessionIdIn_skip (h : ¬sessionKey <:+: pairText p) (rest : List (Bytes × Bytes)) :
    sessionIdIn (cookieText (p :: rest)) = sessionIdIn (cookieText rest) := by
  have hkey : sessionKey ≠ [] := by decide
  simp only [sessionIdIn_eq]
  cases rest with
  | nil =>
    have hone : cutText sessionKey (cookieText [p]) = none := (cutText_eq_none_iff hkey).mpr h
    rw [hone]
    rfl
  | cons q rest =>
    have hspace : ¬sessionKey <:+: [] := fun hi => hkey (List.infix_nil.mp hi)
    have hblank := cutText_append_cons hkey (by decide) hspace (c := chSpace) (cookieText (q :: rest))
    rw [List.nil_append] at hblank
    rw [cookieText, cutText_append_cons hkey (by decide) h, hblank, Option.map_map]
    cases cutText sessionKey (cookieText (q :: rest)) with
    | none => rfl
    | some p => rfl

theorem sessionIdIn_skip_all {front : List (Bytes × Bytes)}
    (h : ∀ p ∈ front, ¬sessionKey <:+: pairText p) (rest : List (Bytes × Bytes)) :
    sessionIdIn (cookieText (front ++ rest)) = sessionIdIn (cookieText rest) := by
  induction front with
  | nil => rfl
  | cons p front ih =>
    rw [List.cons_append, sessionIdIn_skip (h p List.mem_cons_self),
      ih fun q hq => h q (List.mem_cons_of_mem p hq)]

/-- A pair named `SESSIONID` is the key and its value. -/
theorem pairText_of_sessionName (h : p.1 = sessionName) : pairText p = sessionKey ++ p.2 := by
  rw [pairText, h, List.append_cons]
  rfl

theorem ne_sessionName (h : ¬sessionKey <:+: pairText p) : p.1 ≠ sessionName := by
  intro he
  rw [pairText_of_sessionName he] at h
  exact h (List.prefix_append _ _).isInfix

theorem lookup_skip {front : List (Bytes × Bytes)}
    (h : ∀ p ∈ front, ¬sessionKey <:+: pairText p) (rest : List (Bytes × Bytes)) :
    (front ++ rest).lookup sessionName = rest.lookup sessionName := by
  induction front with
  | nil => rfl
  | cons p front ih =>
    have hne : (sessionName == p.1) = false := by
      simpa using (ne_sessionName (h p List.mem_cons_self)).symm
    obtain ⟨name, value⟩ := p
    rw [List.cons_append, List.lookup_cons, hne]
    exact ih fun q hq => h q (List.mem_cons_of_mem _ hq)

theorem sessionValue_of_own {front : List (Bytes × Bytes)}
    (h : ∀ p ∈ front, ¬sessionKey <:+: pairText p) (hname : p.1 = sessionName)
    (rest : List (Bytes × Bytes)) : sessionValue (front ++ p :: rest) = p.2 := by
  obtain ⟨name, value⟩ := p
  obtain rfl : name = sessionName := hname
  rw [sessionValue, lookup_skip h, List.lookup_cons_self]
  rfl

/-- Without the key there is no session, and none is read. -/
theorem sessionIdIn_of_no_key (h : ∀ p ∈ pairs, ¬sessionKey <:+: pairText p) :
    sessionIdIn (cookieText pairs) = sessionValue pairs := by
  have hid := sessionIdIn_skip_all h []
  have hvalue := lookup_skip h []
  rw [List.append_nil] at hid hvalue
  rw [hid, sessionValue, hvalue]
  rfl

theorem exists_cut (h : sessionKey <:+: pairText p) :
    ∃ before text, cutText sessionKey (pairText p) = some (before, text) := by
  cases hcut : cutText sessionKey (pairText p) with
  | none => exact absurd h ((cutText_eq_none_iff (by decide)).mp hcut)
  | some q => exact ⟨q.1, q.2, rfl⟩

/-- The session id is read from the first pair that has the key in it; it is the value of the
session exactly if that is the session's own pair. -/
theorem sessionId_of_cookie_iff (hp : ∀ p ∈ pairs, CookiePair p)
    (hreq : req.getHeader (ascii "Cookie") = cookieText pairs) :
    getSessionIdFromCookie req = sessionValue pairs ↔ KeyIsOwn pairs := by
  have hkey : sessionKey ≠ [] := by decide
  rw [getSessionIdFromCookie, hreq]
  unfold KeyIsOwn
  cases hfind : pairs.find? (fun p => decide (sessionKey <:+: pairText p)) with
  | none =>
    have hnone : ∀ p ∈ pairs, ¬sessionKey <:+: pairText p := by
      intro p hm
      simpa using List.find?_eq_none.mp hfind p hm
    exact iff_of_true (sessionIdIn_of_no_key hnone) (fun p h => by cases h)
  | some p =>
    obtain ⟨hhas, front, rest, rfl, hfront⟩ := List.find?_eq_some_iff_append.mp hfind
    have hskip : ∀ q ∈ front, ¬sessionKey <:+: pairText q := by
      intro q hq
      simpa using hfront q hq
    obtain ⟨before, text, hcut⟩ := exists_cut (p := p) (by simpa using hhas)
    have hid : sessionIdIn (cookieText (front ++ p :: rest)) = text := by
      rw [sessionIdIn_skip_all hskip, sessionIdIn_found hcut (hp p (by simp))]
    obtain ⟨htext, hfirst⟩ := (cutText_eq_some_iff hkey).mp hcut
    rw [hid]
    constructor
    · intro he q hq
      obtain rfl := Option.some.inj hq
      exact Or.inr ⟨before, by rw [← he]; exact htext, hfirst⟩
    · intro hown
      rcases hown p rfl with hname | ⟨before', htext', hfirst'⟩
      · have hown := cutText_prefix hkey p.2
        rw [← pairText_of_sessionName hname, hcut] at hown
        rw [sessionValue_of_own hskip hname]
        exact (Prod.mk.inj (Option.some.inj hown)).2
      · have hcut' := (cutText_eq_some_iff hkey).mpr ⟨htext', hfirst'⟩
        rw [hcut] at hcut'
        exact (Prod.mk.inj (Option.some.inj hcut')).2

def cookieRequest (pairs : List (Bytes × Bytes)) : HttpRequest :=
  HttpRequest.new.addHeader (ascii "Cookie") (cookieText pairs)

def themedCookies : List (Bytes × Bytes) :=
  [(ascii "theme", ascii "dark=1"), (ascii "SESSIONID", ascii "a1")]

theorem sessionId_of_cookie_themed :
    getSessionIdFromCookie (cookieRequest themedCookies) = ascii "a1" := by
  have hown : KeyIsOwn themedCookies := by
    have hfind : themedCookies.find? (fun p => decide (sessionKey <:+: pairText p)) =
        some (ascii "SESSIONID", ascii "a1") := by decide +kernel
    intro p hp
    rw [hfind] at hp
    obtain rfl := Option.some.inj hp
    exact Or.inl rfl
  have hid : getSessionIdFromCookie (cookieRequest themedCookies) = sessionValue themedCookies :=
    (sessionId_of_cookie_iff (by decide) (by decide +kernel)).mpr hown
  exact hid.trans (by decide)

/-- The value of `XSESSIONID` is taken for the session. -/
theorem sessionId_of_other_cookie :
    let pairs := [(ascii "XSESSIONID", ascii "b2"), (ascii "SESSIONID", ascii "a1")]
    (∀ p ∈ pairs, CookiePair p) ∧
    (cookieRequest pairs).getHeader (ascii "Cookie") = cookieText pairs ∧
    getSessionIdFromCookie (cookieRequest pairs) = ascii "b2" ∧ sessionValue pairs = ascii "a1" := by
  decide +kernel

end SessionManager

end MuduoPlus
