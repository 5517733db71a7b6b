import MuduoPlus.HttpHead

namespace MuduoPlus

/-- Store the pairs in order, so that the last one for a key stays. -/
def Dict.insertAll (d : Dict) (pairs : List (Bytes × Bytes)) : Dict :=
  pairs.foldl (fun d p => d.insert p.1 p.2) d

theorem Dict.lookup_insertAll (d : Dict) (pairs : List (Bytes × Bytes)) (k : Bytes) :
    (d.insertAll pairs).lookup k = (pairs.reverse.lookup k).or (d.lookup k) := by
  induction pairs generalizing d with
  | nil => rfl
  | cons p pairs ih =>
    obtain ⟨key, value⟩ := p
    have hh := ih (d.insert key value)
    rw [List.reverse_cons, List.lookup_append, Option.or_assoc]
    refine hh.trans ?_
    congr 1
    by_cases hk : k = key
    · subst hk
      simp [Finmap.lookup_insert]
    · have hb : (k == key) = false := by simpa using hk
      simp [Finmap.lookup_insert_of_ne _ hk, List.lookup_cons, hb]

theorem lookup_of_mem_nodup {pairs : List (Bytes × Bytes)} {k v : Bytes}
    (hn : (pairs.map Prod.fst).Nodup) (hm : (k, v) ∈ pairs) : pairs.lookup k = some v := by
  induction pairs with
  | nil => simp at hm
  | cons p pairs ih =>
    obtain ⟨key, value⟩ := p
    have hn' := List.nodup_cons.mp hn
    rcases List.mem_cons.mp hm with he | hm
    · obtain ⟨rfl, rfl⟩ := Prod.mk.inj he
      simp
    · have hk : k ∈ pairs.map Prod.fst := List.mem_map.mpr ⟨(k, v), hm, rfl⟩
      have hne : k ≠ key := fun he => hn'.1 (he ▸ hk)
      have hb : (k == key) = false := by simpa using hne
      rw [List.lookup_cons, hb]
      exact ih hn'.2 hm

/-- A request as a client means it. -/
structure WireRequest where
  method : Method
  path : Bytes
  query : Option (List (Bytes × Bytes))
  version : Bytes
  headers : List (Bytes × Bytes)
  body : Bytes

namespace WireRequest

def pairText (p : Bytes × Bytes) : Bytes := p.1 ++ chEquals :: p.2

def queryText : List (Bytes × Bytes) → Bytes
  | [] => []
  | [p] => pairText p
  | p :: q :: rest => pairText p ++ chAmp :: queryText (q :: rest)

def targetText (r : WireRequest) : Bytes :=
  match r.query with
  | none => r.path
  | some pairs => r.path ++ chQuestion :: queryText pairs

def requestLine (r : WireRequest) : Bytes :=
  HttpRequest.methodString r.method ++ chSpace :: (r.targetText ++ chSpace :: r.version)

def headerLine (p : Bytes × Bytes) : Bytes := p.1 ++ chColon :: chSpace :: p.2

/-- `METHOD path[?k=v&...] VERSION CRLF (name: value CRLF)* CRLF body`. -/
def render (r : WireRequest) : Bytes :=
  r.requestLine ++ kCRLF ++ (headerText (r.headers.map headerLine) ++ (kCRLF ++ r.body))

def hasBody (r : WireRequest) : Prop := r.method = .kPost ∨ r.method = .kPut

structure WellFormed (r : WireRequest) : Prop where
  method_ok : r.method ≠ .kInvalid
  path_ok : ∀ c ∈ r.path, c ≠ chSpace ∧ c ≠ chQuestion ∧ c ≠ chCR ∧ c ≠ chLF
  query_ne : r.query ≠ some []
  key_ok : ∀ pairs, r.query = some pairs → ∀ p ∈ pairs, ∀ c ∈ p.1,
    c ≠ chAmp ∧ c ≠ chEquals ∧ c ≠ chSpace ∧ c ≠ chCR ∧ c ≠ chLF
  value_ok : ∀ pairs, r.query = some pairs → ∀ p ∈ pairs, ∀ c ∈ p.2,
    c ≠ chAmp ∧ c ≠ chSpace ∧ c ≠ chCR ∧ c ≠ chLF
  version_ok : r.version = ascii "HTTP/1.0" ∨ r.version = ascii "HTTP/1.1"
  names_nodup : (r.headers.map Prod.fst).Nodup
  name_ok : ∀ p ∈ r.headers, p.1 ≠ [] ∧ ∀ c ∈ p.1, c ≠ chColon ∧ c ≠ chCR ∧ c ≠ chLF
  field_ok : ∀ p ∈ r.headers, ∀ c ∈ p.2, c ≠ chCR ∧ c ≠ chLF
  field_trimmed : ∀ p ∈ r.headers, (∀ c ∈ p.2.head?, isSpace c = false) ∧
    ∀ c ∈ p.2.getLast?, isSpace c = false
  length_ok : r.hasBody → r.body.length < 2 ^ 64 ∧ ∃ v, (ascii "Content-Length", v) ∈ r.headers ∧
    v ≠ [] ∧ (∀ d ∈ v, isDigit d = true) ∧ digitsValue v = r.body.length
  no_length : ¬r.hasBody → r.body = [] ∧ ascii "Content-Length" ∉ r.headers.map Prod.fst

/-- The request object the parser ends with, its receive time apart. -/
def parsed (r : WireRequest) : HttpRequest :=
  { method := r.method
    version := r.version
    path := r.path
    pathParameters := ∅
    query := []
    queryParameters := Dict.insertAll ∅ (r.query.getD [])
    receiveTime := 0
    headers := Dict.insertAll ∅ r.headers
    content := r.body
    contentLength := r.body.length }

theorem methodOf_methodString {m : Method} (h : m ≠ .kInvalid) :
    HttpRequest.methodOf (HttpRequest.methodString m) = m := by
  cases m with
  | kInvalid => exact absurd rfl h
  | kGet => decide
  | kPost => decide
  | kHead => decide
  | kPut => decide
  | kDelete => decide
  | kOptions => decide

theorem methodString_bytes (m : Method) :
    ∀ c ∈ HttpRequest.methodString m, c ≠ chSpace ∧ c ≠ chCR := by
  cases m <;> decide +kernel

theorem addQueryPairs_cut {s pair rest : Bytes} {d : Dict} (h : cutAt chAmp s = some (pair, rest)) :
    HttpRequest.addQueryPairs s d =
      HttpRequest.addQueryPairs rest (HttpRequest.addQueryPair pair d) := by
  conv_lhs => rw [HttpRequest.addQueryPairs]
  split
  next hh => rw [h] at hh; cases hh; rfl
  next hh => rw [h] at hh; cases hh

theorem addQueryPairs_last {s : Bytes} {d : Dict} (h : cutAt chAmp s = none) :
    HttpRequest.addQueryPairs s d = HttpRequest.addQueryPair s d := by
  rw [HttpRequest.addQueryPairs]
  split
  next hh => rw [h] at hh; cases hh
  next => rfl

/-- The keys and values of a query string: its `&`-separated pieces, each cut at its first `=`;
a piece without `=` has none. -/
def queryPairs (q : Bytes) : List (Bytes × Bytes) := (q.splitOn chAmp).filterMap (cutAt chEquals)

theorem addQueryPair_eq_insertAll (pair : Bytes) (pairs : List (Bytes × Bytes)) (d : Dict) :
    (HttpRequest.addQueryPair pair d).insertAll pairs =
      d.insertAll ((cutAt chEquals pair).toList ++ pairs) := by
  unfold HttpRequest.addQueryPair
  split
  next key value h => rw [h]; rfl
  next h => rw [h]; rfl

/-- The loop of `setQueryParameters` stores the pairs of the query string in order. -/
theorem addQueryPairs_eq_insertAll (q : Bytes) (d : Dict) :
    HttpRequest.addQueryPairs q d = d.insertAll (queryPairs q) := by
  induction q, d using HttpRequest.addQueryPairs.induct with
  | case1 q d pair rest hcut ih =>
    obtain ⟨rfl, hpair⟩ := cutAt_eq_some_iff.mp hcut
    have hpairs : queryPairs (pair ++ chAmp :: rest) =
        (cutAt chEquals pair).toList ++ queryPairs rest := by
      unfold queryPairs
      rw [List.splitOn_append_cons_self_of_not_mem hpair, List.filterMap_cons]
      cases cutAt chEquals pair with
      | none => rfl
      | some p => rfl
    rw [addQueryPairs_cut hcut, ih, addQueryPair_eq_insertAll, hpairs]
  | case2 q d hcut =>
    have hpairs : queryPairs q = (cutAt chEquals q).toList := by
      unfold queryPairs
      rw [List.splitOn_eq_singleton (cutAt_eq_none_iff.mp hcut), List.filterMap_cons]
      cases cutAt chEquals q with
      | none => rfl
      | some p => rfl
    have hlast := addQueryPair_eq_insertAll q [] d
    rw [List.append_nil] at hlast
    rw [addQueryPairs_last hcut, hpairs]
    exact hlast

theorem not_mem_pairText {p : Bytes × Bytes} {c : UInt8} (hk : c ∉ p.1) (hv : c ∉ p.2)
    (hc : c ≠ chEquals) : c ∉ pairText p := by
  simp [pairText, hk, hv, hc]

/-- Splitting undoes joining with `&` and `=`. -/
theorem queryPairs_queryText {pairs : List (Bytes × Bytes)}
    (hk : ∀ p ∈ pairs, chAmp ∉ p.1 ∧ chEquals ∉ p.1) (hv : ∀ p ∈ pairs, chAmp ∉ p.2) :
    queryPairs (queryText pairs) = pairs := by
  induction pairs using queryText.induct with
  | case1 => rfl
  | case2 p =>
    obtain ⟨ha, he⟩ := hk p (by simp)
    have hamp : chAmp ∉ pairText p := not_mem_pairText ha (hv p (by simp)) (by decide)
    have hcut : cutAt chEquals (pairText p) = some p := cutAt_append he
    rw [queryText, queryPairs, List.splitOn_eq_singleton hamp, List.filterMap_cons, hcut]
    rfl
  | case3 p q rest ih =>
    obtain ⟨ha, he⟩ := hk p (by simp)
    have hamp : chAmp ∉ pairText p := not_mem_pairText ha (hv p (by simp)) (by decide)
    have hcut : cutAt chEquals (pairText p) = some p := cutAt_append he
    have hrest := ih (fun x hx => hk x (List.mem_cons_of_mem p hx))
      (fun x hx => hv x (List.mem_cons_of_mem p hx))
    rw [queryPairs] at hrest
    rw [queryText, queryPairs, List.splitOn_append_cons_self_of_not_mem hamp, List.filterMap_cons,
      hcut, hrest]

/-- What is asked for a key is the value of the last pair with that key; the pairs of a rendered
list are the list. -/
theorem getQueryParameter_setQueryParameters (q : Bytes) :
    (∀ key, (HttpRequest.new.setQueryParameters q).getQueryParameter key =
      ((queryPairs q).reverse.lookup key).getD []) ∧
    ∀ pairs : List (Bytes × Bytes),
      (∀ p ∈ pairs, chAmp ∉ p.1 ∧ chEquals ∉ p.1) → (∀ p ∈ pairs, chAmp ∉ p.2) →
      ∀ key, (HttpRequest.new.setQueryParameters (queryText pairs)).queryParameters.lookup key =
        pairs.reverse.lookup key := by
  have hlookup : ∀ q key, (HttpRequest.new.setQueryParameters q).queryParameters.lookup key =
      (queryPairs q).reverse.lookup key := by
    intro q key
    show (HttpRequest.addQueryPairs q ∅).lookup key = _
    rw [addQueryPairs_eq_insertAll, Dict.lookup_insertAll, Finmap.lookup_empty, Option.or_none]
  constructor
  · intro key
    rw [HttpRequest.getQueryParameter, hlookup]
  · intro pairs hk hv key
    rw [hlookup, queryPairs_queryText hk hv]

theorem getQueryParameter_setQueryParameters_doubled :
    (HttpRequest.new.setQueryParameters (ascii "a=1&b&a=2=3")).getQueryParameter (ascii "a") =
      ascii "2=3" ∧
    (HttpRequest.new.setQueryParameters (queryText [(ascii "a", ascii "1"), ([], ascii "="),
      (ascii "a", [])])).queryParameters.lookup (ascii "a") = some [] := by
  obtain ⟨hquery, hpairs⟩ := getQueryParameter_setQueryParameters (ascii "a=1&b&a=2=3")
  refine ⟨(hquery (ascii "a")).trans (by decide), ?_⟩
  exact (hpairs _ (by decide) (by decide) (ascii "a")).trans (by decide)

theorem not_mem_queryText {pairs : List (Bytes × Bytes)} {c : UInt8} (hc : c ≠ chEquals)
    (hamp : c ≠ chAmp) (hp : ∀ p ∈ pairs, c ∉ p.1 ∧ c ∉ p.2) : c ∉ queryText pairs := by
  induction pairs using queryText.induct with
  | case1 => simp [queryText]
  | case2 p =>
    obtain ⟨h1, h2⟩ := hp p (by simp)
    exact not_mem_pairText h1 h2 hc
  | case3 p q rest ih =>
    obtain ⟨h1, h2⟩ := hp p (by simp)
    have hpair := not_mem_pairText h1 h2 hc
    have hrest := ih fun x hx => hp x (List.mem_cons_of_mem p hx)
    simp [queryText, hpair, hrest, hamp]

theorem not_mem_targetText {r : WireRequest} (hw : r.WellFormed) {c : UInt8}
    (hc : c = chSpace ∨ c = chCR) : c ∉ r.targetText := by
  have hpath : c ∉ r.path := by
    intro hm
    have hh := hw.path_ok c hm
    rcases hc with rfl | rfl
    · exact hh.1 rfl
    · exact hh.2.2.1 rfl
  have hsep : c ≠ chQuestion ∧ c ≠ chEquals ∧ c ≠ chAmp := by
    rcases hc with rfl | rfl <;> decide
  unfold targetText
  cases hq : r.query with
  | none => exact hpath
  | some pairs =>
    have hquery : c ∉ queryText pairs := by
      apply not_mem_queryText hsep.2.1 hsep.2.2
      intro p hp
      constructor
      · intro hm
        have hh := hw.key_ok pairs hq p hp c hm
        rcases hc with rfl | rfl
        · exact hh.2.2.1 rfl
        · exact hh.2.2.2.1 rfl
      · intro hm
        have hh := hw.value_ok pairs hq p hp c hm
        rcases hc with rfl | rfl
        · exact hh.2.1 rfl
        · exact hh.2.2.1 rfl
    simp [hpath, hquery, hsep.1]

theorem version_bytes {r : WireRequest} (hw : r.WellFormed) :
    r.version.length = 8 ∧ r.version.take 7 = ascii "HTTP/1." ∧ chCR ∉ r.version := by
  rcases hw.version_ok with h | h
  · rw [h]
    decide
  · rw [h]
    decide

theorem requestLine_not_infix {r : WireRequest} (hw : r.WellFormed) : ¬kCRLF <:+: r.requestLine := by
  apply pair_not_infix_of_not_mem
  have hm : chCR ∉ HttpRequest.methodString r.method := fun h => (methodString_bytes _ _ h).2 rfl
  have ht : chCR ∉ r.targetText := not_mem_targetText hw (Or.inr rfl)
  have hv := (version_bytes hw).2.2
  have hs : chCR ≠ chSpace := by decide
  simp [requestLine, hm, ht, hv, hs]

/-- The request line as far as the request object goes. -/
def lineParsed (r : WireRequest) : HttpRequest :=
  { HttpRequest.new with
    method := r.method
    version := r.version
    path := r.path
    queryParameters := Dict.insertAll ∅ (r.query.getD []) }

theorem setTarget_targetText {r : WireRequest} (hw : r.WellFormed) (req : HttpRequest) :
    req.setTarget r.targetText = { req with
      path := r.path
      queryParameters := req.queryParameters.insertAll (r.query.getD []) } := by
  have hpath : chQuestion ∉ r.path := fun h => (hw.path_ok _ h).2.1 rfl
  unfold targetText HttpRequest.setTarget
  cases hq : r.query with
  | none =>
    rw [cutAt_eq_none_iff.mpr hpath]
    rfl
  | some pairs =>
    have hkey : ∀ p ∈ pairs, chAmp ∉ p.1 ∧ chEquals ∉ p.1 := by
      intro p hp
      exact ⟨fun h => (hw.key_ok pairs hq p hp _ h).1 rfl,
        fun h => (hw.key_ok pairs hq p hp _ h).2.1 rfl⟩
    have hvalue : ∀ p ∈ pairs, chAmp ∉ p.2 := fun p hp h => (hw.value_ok pairs hq p hp _ h).1 rfl
    simp only [cutAt_append hpath, HttpRequest.setPath, HttpRequest.setQueryParameters,
      addQueryPairs_eq_insertAll, queryPairs_queryText hkey hvalue]
    rfl

theorem processRequestLine_requestLine {r : WireRequest} (hw : r.WellFormed) :
    processRequestLine .new r.requestLine = (true, r.lineParsed) := by
  have hmethod : cutAt chSpace r.requestLine =
      some (HttpRequest.methodString r.method, r.targetText ++ chSpace :: r.version) :=
    cutAt_append fun h => (methodString_bytes _ _ h).1 rfl
  have htarget : cutAt chSpace (r.targetText ++ chSpace :: r.version) =
      some (r.targetText, r.version) := cutAt_append (not_mem_targetText hw (Or.inl rfl))
  have hset : HttpRequest.new.setMethod (HttpRequest.methodString r.method) =
      (true, { HttpRequest.new with method := r.method }) := by
    have hne : (r.method != .kInvalid) = true := by simpa using hw.method_ok
    simp [HttpRequest.setMethod, methodOf_methodString hw.method_ok, hne]
  obtain ⟨hlen, htake, -⟩ := version_bytes hw
  simp only [processRequestLine, hmethod, hset, if_true, htarget, setTarget_targetText hw, hlen,
    htake, and_self]
  rcases hw.version_ok with hv | hv
  · simp only [lineParsed, hv]
    rfl
  · simp only [lineParsed, hv]
    rfl

theorem trimValue_space {v : Bytes} (hfirst : ∀ c ∈ v.head?, isSpace c = false)
    (hlast : ∀ c ∈ v.getLast?, isSpace c = false) :
    HttpRequest.trimValue (chSpace :: v) = v := by
  have hsp : isSpace chSpace = true := by decide
  have hdrop : (chSpace :: v).dropWhile isSpace = v := by
    rw [List.dropWhile_cons_of_pos hsp]
    cases v with
    | nil => rfl
    | cons c v => exact List.dropWhile_cons_of_neg (by simp [hfirst c (by simp)])
  rw [HttpRequest.trimValue, hdrop, List.rdropWhile_eq_self_iff]
  intro hne
  simp [hlast (v.getLast hne) (by simp [List.getLast?_eq_getLast_of_ne_nil hne])]

theorem headerLines_ok {r : WireRequest} (hw : r.WellFormed) :
    HeaderLines (r.headers.map headerLine) := by
  intro line hl
  obtain ⟨p, hp, rfl⟩ := List.mem_map.mp hl
  have hname : chCR ∉ p.1 := fun h => ((hw.name_ok p hp).2 _ h).2.1 rfl
  have hvalue : chCR ∉ p.2 := fun h => (hw.field_ok p hp _ h).1 rfl
  refine ⟨by simp [headerLine], pair_not_infix_of_not_mem ?_⟩
  have hsep : chCR ≠ chColon ∧ chCR ≠ chSpace := by decide
  simp [headerLine, hname, hvalue, hsep]

theorem addHeaderLines_headerLine {hs : List (Bytes × Bytes)}
    (hname : ∀ p ∈ hs, chColon ∉ p.1)
    (htrim : ∀ p ∈ hs, (∀ c ∈ p.2.head?, isSpace c = false) ∧
      ∀ c ∈ p.2.getLast?, isSpace c = false) (req : HttpRequest) :
    req.addHeaderLines (hs.map headerLine) = { req with headers := req.headers.insertAll hs } := by
  induction hs generalizing req with
  | nil => rfl
  | cons p hs ih =>
    obtain ⟨hfirst, hlast⟩ := htrim p (by simp)
    have hcut : cutAt chColon (headerLine p) = some (p.1, chSpace :: p.2) :=
      cutAt_append (hname p (by simp))
    have hadd : req.addHeaderLine (headerLine p) = { req with headers := req.headers.insert p.1 p.2 } := by
      simp only [HttpRequest.addHeaderLine, hcut, HttpRequest.addHeader,
        trimValue_space hfirst hlast]
    have hh := ih (fun q hq => hname q (List.mem_cons_of_mem p hq))
      (fun q hq => htrim q (List.mem_cons_of_mem p hq)) (req.addHeaderLine (headerLine p))
    rw [hadd] at hh
    simp only [HttpRequest.addHeaderLines, List.map_cons, List.foldl_cons, hadd]
    exact hh

/-- The request in front of the blank line. -/
def headParsed (r : WireRequest) : HttpRequest :=
  { r.lineParsed with headers := Dict.insertAll ∅ r.headers }

theorem render_reachesBlankLine {r : WireRequest} (hw : r.WellFormed) (rest : Bytes) :
    HttpContext.ReachesBlankLine .new (r.render ++ rest) r.headParsed (r.body ++ rest) := by
  have hline := processRequestLine_requestLine hw
  have hname : ∀ p ∈ r.headers, chColon ∉ p.1 := fun p hp h => ((hw.name_ok p hp).2 _ h).1 rfl
  refine ⟨r.requestLine, r.headers.map headerLine, requestLine_not_infix hw, headerLines_ok hw,
    ?_, by simp [render], ?_⟩
  · change (processRequestLine .new r.requestLine).1 = true
    rw [hline]
  · change _ = (processRequestLine .new r.requestLine).2.addHeaderLines _
    rw [hline, addHeaderLines_headerLine hname hw.field_trimmed]
    rfl

theorem headParsed_getHeader {r : WireRequest} (hw : r.WellFormed) {k v : Bytes}
    (hm : (k, v) ∈ r.headers) : r.headParsed.getHeader k = v := by
  have hn : (r.headers.reverse.map Prod.fst).Nodup := by
    rw [List.map_reverse, List.nodup_reverse]
    exact hw.names_nodup
  have hl := lookup_of_mem_nodup hn (List.mem_reverse.mpr hm)
  simp [HttpRequest.getHeader, headParsed, Dict.lookup_insertAll, hl]

/-- Parsing undoes rendering, whatever follows. -/
theorem run_render {r : WireRequest} (hw : r.WellFormed) (rest : Bytes) :
    HttpContext.machine.run .new (r.render ++ rest) = ⟨some .gotAll, ⟨.kGotAll, r.parsed⟩, rest⟩ := by
  rw [HttpContext.run_of_reachesBlankLine (render_reachesBlankLine hw rest)]
  have hmethod : r.headParsed.method = r.method := rfl
  by_cases hb : r.method = .kPost ∨ r.method = .kPut
  · obtain ⟨hlt, v, hm, hne, hdigits, hvalue⟩ := hw.length_ok hb
    have hget := headParsed_getHeader hw hm
    have hstoul := stoul_digits hne hdigits (by omega)
    rw [hvalue] at hstoul
    simp only [endHeaders, hmethod, hb, if_true, hget, ne_eq, hne, not_false_eq_true, hstoul]
    by_cases hpos : 0 < r.body.length
    · simp only [hpos, if_true, HttpContext.run_body]
      have hcl : (r.headParsed.setContentLength r.body.length).contentLength = r.body.length := rfl
      rw [hcl, if_neg (by rw [List.length_append]; omega), List.take_left, List.drop_left]
      rfl
    · have hnil : r.body = [] := List.length_eq_zero_iff.mp (by omega)
      simp only [hnil, List.nil_append, parsed]
      rfl
  · obtain ⟨hnil, -⟩ := hw.no_length hb
    simp only [endHeaders, hmethod, hb, if_false, hnil, List.nil_append, parsed]
    rfl

end WireRequest

end MuduoPlus
