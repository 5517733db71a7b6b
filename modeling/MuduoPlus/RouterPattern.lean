import MuduoPlus.Router

namespace MuduoPlus

def chSlash : UInt8 := 47

/-- The parts of a path between its slashes. -/
def segments : Bytes → List Bytes
  | [] => [[]]
  | b :: text => if b = chSlash then [] :: segments text else (segments text).modifyHead (b :: ·)

/-- `:name` with a name. -/
def isParameter : Bytes → Bool
  | b :: _ :: _ => b == chColon
  | _ => false

def PlainText (text : Bytes) : Prop := ∀ b ∈ text, isRegexMeta b = false

instance (text : Bytes) : Decidable (PlainText text) := List.decidableBAll _ _

/-- Segments against the segments of a pattern: the same number, equal where the pattern has a
literal and not empty where it has a `:name`; these are the result. -/
def matchSegments : List Bytes → List Bytes → Option (List Bytes)
  | [], [] => some []
  | p :: ps, s :: ss =>
    if isParameter p then (if s = [] then none else (matchSegments ps ss).map (s :: ·))
    else if p = s then matchSegments ps ss
    else none
  | _, _ => none

/-- The same with a first segment that is literal whatever it looks like. -/
def matchPattern : List Bytes → List Bytes → Option (List Bytes)
  | p :: ps, s :: ss => if p = s then matchSegments ps ss else none
  | _, _ => none

/-- The first segment of a pattern is plain text, each other one is plain text or a `:name`. -/
def PlainPattern (pattern : Bytes) : Prop :=
  (∀ p ∈ (segments pattern).head?, PlainText p) ∧
    ∀ p ∈ (segments pattern).tail, isParameter p = true ∨ PlainText p

instance (pattern : Bytes) : Decidable (PlainPattern pattern) :=
  inferInstanceAs (Decidable (_ ∧ _))

section Segments

/-- Segments behind a first one, each with the slash in front of it. -/
def slashed (ss : List Bytes) : Bytes := ss.flatMap (chSlash :: ·)

theorem slashed_cons (s : Bytes) (ss : List Bytes) :
    slashed (s :: ss) = chSlash :: (s ++ slashed ss) := rfl

theorem slashed_head (ss : List Bytes) : ∀ b ∈ (slashed ss).head?, b ∈ [chSlash] := by
  intro b hb
  cases ss with
  | nil => simp [slashed] at hb
  | cons s ss =>
    rw [slashed_cons, List.head?_cons, Option.mem_some_iff] at hb
    rw [← hb]
    exact List.mem_singleton.mpr rfl

theorem segments_cases (text : Bytes) :
    ∃ s ss, segments text = s :: ss ∧ text = s ++ slashed ss ∧ ∀ x ∈ s :: ss, chSlash ∉ x := by
  induction text with
  | nil => exact ⟨[], [], rfl, rfl, by simp⟩
  | cons b text ih =>
    obtain ⟨s, ss, hseg, htext, hno⟩ := ih
    rw [segments, hseg]
    by_cases hb : b = chSlash
    · refine ⟨[], s :: ss, if_pos hb, ?_, ?_⟩
      · rw [hb, htext, slashed_cons]
        rfl
      · intro x hx
        rcases List.mem_cons.mp hx with rfl | hx
        · exact List.not_mem_nil
        · exact hno x hx
    · refine ⟨b :: s, ss, if_neg hb, ?_, ?_⟩
      · rw [htext]
        rfl
      · intro x hx
        rcases List.mem_cons.mp hx with rfl | hx
        · rw [List.mem_cons, not_or]
          exact ⟨Ne.symm hb, hno s List.mem_cons_self⟩
        · exact hno x (List.mem_cons_of_mem s hx)

theorem isParameter_iff {p : Bytes} :
    isParameter p = true ↔ ∃ name, name ≠ [] ∧ p = chColon :: name := by
  constructor
  · intro h
    match p, h with
    | b :: x :: name, h =>
      have hb : b = chColon := beq_iff_eq.mp h
      exact ⟨x :: name, List.cons_ne_nil x name, by rw [hb]⟩
  · rintro ⟨name, hname, rfl⟩
    obtain ⟨x, name, rfl⟩ := List.exists_cons_of_ne_nil hname
    rfl

end Segments

section Replace

/-- `/:([^/]+)`. -/
def nameRegex : Regex UInt8 :=
  .all [.char chSlash, .char chColon, .group 0 (.all [.plus (.notIn [chSlash])])]

theorem parseRegex_name : parseRegex (ascii "/:([^/]+)") = some (nameRegex, 1) := by
  decide +kernel

theorem ne_slash_of_not_mem {s : Bytes} (hs : chSlash ∉ s) : ∀ b ∈ s, b ∉ [chSlash] := by
  intro b hb hmem
  rw [List.mem_singleton] at hmem
  subst hmem
  exact hs hb

/-- A `:name` segment is found as a whole. -/
theorem nameRegex_parameter {c : RegexCursor UInt8} {name rest : Bytes} (hname : name ≠ [])
    (hno : chSlash ∉ name) (hrest : ∀ b ∈ rest.head?, b ∈ [chSlash])
    (hc : c.rest = chSlash :: chColon :: (name ++ rest)) :
    ∃ c', nameRegex.run c some = some c' ∧ c'.rest = rest := by
  have hgroup := Regex.run_group_plus_notIn 0
    (c := (c.moved (chColon :: (name ++ rest))).moved (name ++ rest)) (k := some) (Or.inl (Option.some_ne_none _)) hname (ne_slash_of_not_mem hno) hrest rfl
  refine ⟨(((c.moved (chColon :: (name ++ rest))).moved (name ++ rest)).moved rest).capture 0 name,
    ?_, rfl⟩
  rw [nameRegex, Regex.run_all_cons, Regex.run_char_cons chSlash hc, Regex.run_all_cons,
    Regex.run_char_cons chColon rfl]
  exact hgroup

/-- No match begins outside a slash. -/
theorem nameRegex_ne {c : RegexCursor UInt8} {k : RegexContinuation UInt8}
    (hc : c.rest.head? ≠ some chSlash) : nameRegex.run c k = none := by
  rw [nameRegex, Regex.run_all_cons]
  exact Regex.run_char_ne hc

/-- No match begins at a segment that is not a `:name`. -/
theorem nameRegex_literal {c : RegexCursor UInt8} {k : RegexContinuation UInt8} {p rest : Bytes}
    (hp : isParameter p = false) (hrest : ∀ b ∈ rest.head?, b ∈ [chSlash])
    (hc : c.rest = chSlash :: (p ++ rest)) : nameRegex.run c k = none := by
  rw [nameRegex, Regex.run_all_cons, Regex.run_char_cons chSlash hc, Regex.run_all_cons]
  by_cases hhead : (p ++ rest).head? = some chColon
  · -- then the segment is a lone colon, and the name is missing
    have hlone : p = [chColon] := by
      match p, hp with
      | [], _ =>
        have hmem := hrest chColon hhead
        exact absurd hmem (by decide)
      | [b], _ =>
        cases Option.some.inj hhead
        rfl
      | b :: x :: name, hp =>
        cases Option.some.inj hhead
        exact absurd hp (by simp [isParameter])
    subst hlone
    have hcolon : (c.moved ([chColon] ++ rest)).rest = chColon :: rest := rfl
    rw [Regex.run_char_cons chColon hcolon]
    exact Regex.run_group_plus_notIn_stop hrest
  · exact Regex.run_char_ne hhead

/-- Text without a slash is kept. -/
theorem replaceFrom_word (word rest format : Bytes) (hword : chSlash ∉ word) (n : Nat)
    (atStart : Bool) : ∃ atStart', nameRegex.replaceFrom format (word.length + n) atStart (word ++ rest) =
      word ++ nameRegex.replaceFrom format n atStart' rest := by
  induction word generalizing atStart with
  | nil =>
    refine ⟨atStart, ?_⟩
    rw [List.length_nil, Nat.zero_add]
    rfl
  | cons b word ih =>
    rw [List.mem_cons, not_or] at hword
    obtain ⟨atStart', h⟩ := ih hword.2 false
    refine ⟨atStart', ?_⟩
    have hne : (b :: (word ++ rest)).head? ≠ some chSlash := by
      intro hb
      exact hword.1 (Option.some.inj hb).symm
    have hlen : (b :: word).length + n = word.length + n + 1 := by
      rw [List.length_cons]
      omega
    rw [hlen, List.cons_append, Regex.replaceFrom_keep (nameRegex_ne hne)]
    exact congrArg (b :: ·) h

/-- The text that stands for a segment in the converted pattern. -/
def segmentText (p : Bytes) : Bytes := if isParameter p then ascii "([^/]+)" else p

def segmentTexts (ps : List Bytes) : Bytes := slashed (ps.map segmentText)

theorem replaceFrom_slashed (ps : List Bytes) (hps : ∀ p ∈ ps, chSlash ∉ p) (n : Nat)
    (hn : (slashed ps).length ≤ n) (atStart : Bool) :
    nameRegex.replaceFrom (ascii "/([^/]+)") n atStart (slashed ps) = segmentTexts ps := by
  induction ps generalizing n atStart with
  | nil => exact Regex.replaceFrom_nil (nameRegex_ne (by simp))
  | cons p ps ih =>
    have hps' : ∀ q ∈ ps, chSlash ∉ q := fun q hq => hps q (List.mem_cons_of_mem p hq)
    have hp := hps p List.mem_cons_self
    rw [slashed_cons, List.length_cons, List.length_append] at hn
    obtain ⟨n, rfl⟩ : ∃ m, n = m + 1 := ⟨n - 1, by omega⟩
    rw [slashed_cons, segmentTexts, List.map_cons, slashed_cons]
    cases hparam : isParameter p with
    | true =>
      obtain ⟨name, hname, rfl⟩ := isParameter_iff.mp hparam
      rw [List.mem_cons, not_or] at hp
      obtain ⟨c, hrun, hc⟩ := nameRegex_parameter
        (c := ⟨atStart, chSlash :: (chColon :: name ++ slashed ps), fun _ => none⟩)
        hname hp.2 (slashed_head ps) rfl
      have hlt : c.rest.length < (chSlash :: (chColon :: name ++ slashed ps)).length := by
        rw [hc]
        simp
        omega
      rw [Regex.replaceFrom_match hrun hlt, hc, ih hps' n (by omega), segmentText, hparam]
      rfl
    | false =>
      rw [Regex.replaceFrom_keep (nameRegex_literal hparam (slashed_head ps) rfl)]
      obtain ⟨m, rfl⟩ : ∃ m, n = p.length + m := ⟨n - p.length, by omega⟩
      obtain ⟨atStart', hword⟩ :=
        replaceFrom_word p (slashed ps) (ascii "/([^/]+)") hp m false
      rw [hword, ih hps' m (by omega), segmentText, hparam]
      rfl

/-- What `regex_replace` makes of a pattern. -/
theorem replaceAll_segments (p : Bytes) (ps : List Bytes) (hps : ∀ q ∈ p :: ps, chSlash ∉ q) :
    nameRegex.replaceAll (ascii "/([^/]+)") (p ++ slashed ps) = p ++ segmentTexts ps := by
  have hfuel : (p ++ slashed ps).length + 1 = p.length + ((slashed ps).length + 1) := by
    rw [List.length_append]
    omega
  obtain ⟨atStart', hword⟩ := replaceFrom_word p (slashed ps) (ascii "/([^/]+)")
    (hps p List.mem_cons_self) ((slashed ps).length + 1) true
  rw [Regex.replaceAll, hfuel, hword,
    replaceFrom_slashed ps (fun q hq => hps q (List.mem_cons_of_mem p hq)) _ (by omega)]

end Replace

section Compile

/-- A `:name` as an expression, its group numbered `index`. -/
def parameterRegex (index : Nat) : Regex UInt8 :=
  .group index (.all [.plus (.notIn [chSlash])])

/-- The parts of the expression for the segments `ps`, whose groups are numbered from `index`. -/
def patternItems : Nat → List Bytes → List (Regex UInt8)
  | _, [] => []
  | index, p :: ps =>
    if isParameter p then .char chSlash :: parameterRegex index :: patternItems (index + 1) ps
    else .char chSlash :: (p.map .char ++ patternItems index ps)

/-- The parts for a segment and what follows it up to the end. -/
theorem patternItems_cons (index : Nat) (p : Bytes) (ps : List Bytes) :
    patternItems index (p :: ps) ++ [.eol] = .char chSlash ::
      (if isParameter p then parameterRegex index :: (patternItems (index + 1) ps ++ [.eol])
        else p.map .char ++ (patternItems index ps ++ [.eol])) := by
  rw [patternItems]
  split
  next => rfl
  next => rw [List.cons_append, List.append_assoc]

theorem read_parameter {r : RegexReader} (hr : r.place = .between) :
    r.read (ascii "([^/]+)") =
      some { r with opened := r.opened + 1, items := r.items ++ [parameterRegex r.opened] } := by
  obtain ⟨place, opened, frames, items⟩ := r
  subst hr
  rfl

theorem read_slash {r : RegexReader} (hr : r.place = .between) (text : Bytes) :
    r.read (chSlash :: text) = (r.add (.char chSlash)).read text := by
  rw [RegexReader.read_cons, RegexReader.step_plain hr (by decide), Option.bind_some]

theorem read_segmentTexts {r : RegexReader} (hr : r.place = .between) (ps : List Bytes)
    (hps : ∀ p ∈ ps, isParameter p = true ∨ PlainText p) :
    r.read (segmentTexts ps) =
      some { r with opened := r.opened + ps.countP isParameter,
                    items := r.items ++ patternItems r.opened ps } := by
  induction ps generalizing r with
  | nil =>
    rw [patternItems, List.append_nil]
    rfl
  | cons p ps ih =>
    have hps' : ∀ q ∈ ps, isParameter q = true ∨ PlainText q :=
      fun q hq => hps q (List.mem_cons_of_mem p hq)
    have hadd : (r.add (.char chSlash)).place = .between := hr
    rw [segmentTexts, List.map_cons, slashed_cons, read_slash hr, RegexReader.read_append,
      segmentText, patternItems]
    cases hparam : isParameter p with
    | true =>
      rw [if_pos rfl, read_parameter hadd, Option.bind_some]
      refine (ih ?_ hps').trans ?_
      · exact hr
      · simp [RegexReader.add, hparam]
        omega
    | false =>
      have hplain : PlainText p := by
        rcases hps p List.mem_cons_self with h | h
        · rw [hparam] at h
          exact absurd h Bool.false_ne_true
        · exact h
      rw [if_neg Bool.false_ne_true, RegexReader.read_plain hadd hplain, Option.bind_some]
      refine (ih ?_ hps').trans ?_
      · exact hr
      · simp [RegexReader.add, hparam]

/-- The expression for a pattern whose first segment is `p`. -/
def patternRegex (p : Bytes) (ps : List Bytes) : Regex UInt8 :=
  .all (.bol :: (p.map .char ++ (patternItems 0 ps ++ [.eol])))

theorem parseRegex_pattern {p : Bytes} {ps : List Bytes} (hp : PlainText p)
    (hps : ∀ q ∈ ps, isParameter q = true ∨ PlainText q) :
    parseRegex (ascii "^" ++ (p ++ segmentTexts ps) ++ ascii "$") =
      some (patternRegex p ps, ps.countP isParameter) := by
  have hbol : RegexReader.new.read (ascii "^") = some (RegexReader.new.add .bol) := rfl
  have heol : ∀ r : RegexReader, r.place = .between → r.read (ascii "$") = some (r.add .eol) := by
    intro r hr
    obtain ⟨place, opened, frames, items⟩ := r
    subst hr
    rfl
  have hread : RegexReader.new.read (ascii "^" ++ (p ++ segmentTexts ps) ++ ascii "$") =
      some ⟨.between, 0 + ps.countP isParameter, [],
        [.bol] ++ p.map .char ++ patternItems 0 ps ++ [.eol]⟩ := by
    rw [RegexReader.read_append, RegexReader.read_append, hbol, Option.bind_some,
      RegexReader.read_append, RegexReader.read_plain rfl hp, Option.bind_some,
      read_segmentTexts rfl ps hps, Option.bind_some, heol _ rfl]
    rfl
  rw [parseRegex, hread, Option.bind_some, RegexReader.finish, patternRegex]
  simp

end Compile

section Match

variable {c : RegexCursor UInt8} {k : RegexContinuation UInt8}

/-- What stands behind a segment begins with a slash or is the end. -/
theorem patternItems_outside (index : Nat) (ps : List Bytes) :
    Regex.Outside [chSlash] fun c => (Regex.all (patternItems index ps ++ [.eol])).run c k := by
  intro c b hb hnot
  have hne : c.rest.head? ≠ some chSlash := by
    rw [Option.mem_def.mp hb]
    intro he
    exact hnot (List.mem_singleton.mpr (Option.some.inj he))
  change (Regex.all (patternItems index ps ++ [.eol])).run c k = none
  cases ps with
  | nil =>
    have hrest : ¬c.rest = [] := by
      intro hnil
      rw [hnil] at hb
      simp at hb
    rw [patternItems, List.nil_append, Regex.run_all_cons, Regex.run, if_neg hrest]
  | cons p ps =>
    rw [patternItems_cons, Regex.run_all_cons]
    exact Regex.run_char_ne hne

/-- A literal matches the segment that is equal to it and no other one, since what follows it
cannot begin inside a segment. -/
theorem run_literal {p s rest : Bytes} (hp : chSlash ∉ p) (hs : chSlash ∉ s)
    (hrest : ∀ b ∈ rest.head?, b ∈ [chSlash]) (hc : c.rest = s ++ rest)
    (hk : Regex.Outside [chSlash] k) :
    ∃ c', c'.rest = rest ∧ c'.captures = c.captures ∧
      (Regex.all (p.map .char)).run c k = if p = s then k c' else none := by
  by_cases heq : p = s
  · subst heq
    by_cases hnil : p = []
    · subst hnil
      exact ⟨c, hc, rfl, rfl⟩
    · exact ⟨c.moved rest, rfl, rfl, (Regex.run_word p hc hnil).trans (if_pos rfl).symm⟩
  · refine ⟨c.moved rest, rfl, rfl, ?_⟩
    rw [if_neg heq]
    by_cases hpre : p <+: c.rest
    · obtain ⟨u, hu⟩ := hpre
      -- the literal ends before the segment does
      have hinside : ∃ b ∈ u.head?, b ∉ [chSlash] := by
        rw [hc] at hu
        rcases List.append_eq_append_iff.mp hu with ⟨a, hsa, hua⟩ | ⟨a, hpa, hra⟩
        · cases a with
          | nil => exact absurd (by simpa using hsa.symm) heq
          | cons b a =>
            refine ⟨b, by rw [hua]; rfl, ?_⟩
            exact ne_slash_of_not_mem hs b (by rw [hsa]; simp)
        · cases a with
          | nil => exact absurd (by simpa using hpa) heq
          | cons b a =>
            have hb := hrest b (by rw [hra]; rfl)
            rw [List.mem_singleton] at hb
            subst hb
            exact absurd (by rw [hpa]; simp) hp
      obtain ⟨b, hb, hnot⟩ := hinside
      by_cases hnil : p = []
      · subst hnil
        rw [← hu] at hc
        exact hk c b (by rw [← hu]; exact hb) hnot
      · rw [Regex.run_word p hu.symm hnil]
        exact hk (c.moved u) b hb hnot
    · exact Regex.run_word_ne p hpre

/-- The captures of the groups from `index` on. -/
def captured : (Nat → Option Bytes) → Nat → List Bytes → Nat → Option Bytes
  | f, _, [] => f
  | f, index, v :: vs => captured (Function.update f index (some v)) (index + 1) vs

/-- The end of the input, where `regex_match` asks for it. -/
def atEnd : RegexContinuation UInt8 := fun c => if c.rest = [] then some c else none

theorem run_patternItems (index : Nat) (ps ss : List Bytes) (hps : ∀ p ∈ ps, chSlash ∉ p)
    (hss : ∀ s ∈ ss, chSlash ∉ s) (hc : c.rest = slashed ss) :
    ((Regex.all (patternItems index ps ++ [.eol])).run c atEnd).map (·.captures) =
      (matchSegments ps ss).map (captured c.captures index) := by
  induction ps generalizing index ss c with
  | nil =>
    rw [patternItems, List.nil_append, Regex.run_all_cons, Regex.run]
    cases ss with
    | nil =>
      have hnil : c.rest = [] := hc
      rw [if_pos hnil, Regex.all, Regex.run, atEnd, if_pos hnil]
      rfl
    | cons s ss =>
      rw [if_neg (by rw [hc, slashed_cons]; exact List.cons_ne_nil _ _)]
      rfl
  | cons p ps ih =>
    have hps' : ∀ q ∈ ps, chSlash ∉ q := fun q hq => hps q (List.mem_cons_of_mem p hq)
    rw [patternItems_cons, Regex.run_all_cons]
    cases ss with
    | nil =>
      have hnil : c.rest.head? ≠ some chSlash := by
        rw [hc]
        simp [slashed]
      rw [Regex.run_char_ne hnil]
      rfl
    | cons s ss =>
      have hss' : ∀ x ∈ ss, chSlash ∉ x := fun x hx => hss x (List.mem_cons_of_mem s hx)
      have hs := hss s List.mem_cons_self
      rw [slashed_cons] at hc
      rw [Regex.run_char_cons chSlash hc, matchSegments]
      cases hparam : isParameter p with
      | true =>
        rw [if_pos rfl, if_pos rfl, Regex.run_all_cons]
        by_cases hnil : s = []
        · subst hnil
          rw [if_pos rfl, parameterRegex, Regex.run_group_plus_notIn_stop (slashed_head ss)]
          rfl
        · rw [if_neg hnil, parameterRegex,
            Regex.run_group_plus_notIn index (Or.inr (patternItems_outside (index + 1) ps)) hnil
              (ne_slash_of_not_mem hs) (slashed_head ss) rfl,
            ih (index + 1) ss hps' hss' rfl, Option.map_map]
          rfl
      | false =>
        rw [if_neg Bool.false_ne_true, if_neg Bool.false_ne_true, Regex.run_all_append]
        obtain ⟨c', hrest, hcap, hrun⟩ := run_literal (c := c.moved (s ++ slashed ss))
          (hps p List.mem_cons_self) hs (slashed_head ss) rfl
          (patternItems_outside (k := atEnd) index ps)
        rw [hrun]
        split
        next =>
          rw [ih index ss hps' hss' hrest, hcap]
          rfl
        next => rfl

theorem captured_apply (f : Nat → Option Bytes) (index : Nat) (vs : List Bytes) (i : Nat) :
    captured f index vs i = if i < index then f i else (vs[i - index]?).or (f i) := by
  induction vs generalizing f index with
  | nil => simp [captured]
  | cons v vs ih =>
    rw [captured, ih]
    by_cases hlt : i < index
    · rw [if_pos hlt, if_pos (by omega), Function.update_of_ne (by omega)]
    · rw [if_neg hlt]
      by_cases heq : i = index
      · subst heq
        rw [if_pos (by omega), Function.update_self, Nat.sub_self]
        rfl
      · have hsucc : i - index = (i - (index + 1)) + 1 := by omega
        rw [if_neg (by omega), Function.update_of_ne heq, hsucc, List.getElem?_cons_succ]

/-- The groups in order are what was captured. -/
theorem captured_range (vs : List Bytes) :
    (List.range vs.length).map (fun i => (captured (fun _ => none) 0 vs i).getD []) = vs := by
  apply List.ext_getElem?
  intro i
  rw [List.getElem?_map]
  by_cases hi : i < vs.length
  · rw [List.getElem?_range hi, Option.map_some, captured_apply, if_neg (Nat.not_lt_zero i)]
    simp [hi]
  · rw [List.getElem?_eq_none (by simpa using hi), List.getElem?_eq_none (by omega)]
    rfl

theorem matchSegments_length {ps ss vs : List Bytes} (h : matchSegments ps ss = some vs) :
    vs.length = ps.countP isParameter := by
  induction ps, ss using matchSegments.induct generalizing vs with
  | case1 =>
    cases h
    rfl
  | case2 p ps ss hparam =>
    simp [matchSegments, hparam] at h
  | case3 p ps s ss hparam hne ih =>
    rw [matchSegments, if_pos hparam, if_neg hne] at h
    obtain ⟨us, hus, rfl⟩ := Option.map_eq_some_iff.mp h
    rw [List.length_cons, ih hus, List.countP_cons_of_pos hparam]
  | case4 p ps ss hparam ih =>
    rw [matchSegments, if_neg hparam, if_pos rfl] at h
    rw [ih h, List.countP_cons_of_neg hparam]
  | case5 p ps s ss hparam hne =>
    rw [matchSegments, if_neg hparam, if_neg hne] at h
    cases h
  | case6 ps ss hnil hcons =>
    rw [matchSegments] at h
    · cases h
    · exact hnil
    · exact hcons

/-- The expression for a pattern matches the paths whose segments match, and captures theirs. -/
theorem regexMatch_pattern {p : Bytes} {ps : List Bytes} (hps : ∀ q ∈ p :: ps, chSlash ∉ q)
    (path : Bytes) :
    RegexEngine.ecmaScript.regexMatch (patternRegex p ps, ps.countP isParameter) path =
      matchPattern (p :: ps) (segments path) := by
  obtain ⟨s, ss, hseg, hpath, hss⟩ := segments_cases path
  have hps' : ∀ q ∈ ps, chSlash ∉ q := fun q hq => hps q (List.mem_cons_of_mem p hq)
  obtain ⟨c, hrest, hcap, hrun⟩ := run_literal (c := .start path) (hps p List.mem_cons_self)
    (hss s List.mem_cons_self) (slashed_head ss) hpath (patternItems_outside (k := atEnd) 0 ps)
  have hitems := run_patternItems 0 ps ss hps' (fun x hx => hss x (List.mem_cons_of_mem s hx)) hrest
  have hcaptures : ((patternRegex p ps).fullMatch path).map (·.captures) =
      (matchPattern (p :: ps) (s :: ss)).map (captured (fun _ => none) 0) := by
    have hfull : (patternRegex p ps).fullMatch path =
        (Regex.all (p.map .char)).run (.start path)
          fun c' => (Regex.all (patternItems 0 ps ++ [.eol])).run c' atEnd := by
      rw [Regex.fullMatch, patternRegex, Regex.run_all_cons, Regex.run, RegexCursor.start,
        if_pos rfl, Regex.run_all_append]
      rfl
    rw [hfull, hrun, matchPattern]
    split
    next =>
      rw [hitems, hcap]
      rfl
    next => rfl
  have hgroups : RegexEngine.ecmaScript.regexMatch (patternRegex p ps, ps.countP isParameter) path =
      (((patternRegex p ps).fullMatch path).map (·.captures)).map fun captures =>
        (List.range (ps.countP isParameter)).map fun i => (captures i).getD [] := by
    rw [Option.map_map]
    rfl
  rw [hgroups, hcaptures, hseg]
  cases hmatch : matchPattern (p :: ps) (s :: ss) with
  | none => rfl
  | some vs =>
    rw [matchPattern] at hmatch
    split at hmatch
    next =>
      rw [Option.map_some, Option.map_some, ← matchSegments_length hmatch, captured_range]
    next => cases hmatch

end Match

/-- What the conversion of a pattern comes to. -/
theorem convertToRegex_plain {pattern : Bytes} (h : PlainPattern pattern) :
    ∃ re, convertToRegex .ecmaScript pattern = some re ∧ ∀ path,
      RegexEngine.ecmaScript.regexMatch re path =
        matchPattern (segments pattern) (segments path) := by
  obtain ⟨p, ps, hseg, hpattern, hno⟩ := segments_cases pattern
  rw [PlainPattern, hseg] at h
  have hp : PlainText p := h.1 p rfl
  refine ⟨(patternRegex p ps, ps.countP isParameter), ?_, ?_⟩
  · have hname : RegexEngine.ecmaScript.compile (ascii "/:([^/]+)") = some (nameRegex, 1) :=
      parseRegex_name
    rw [convertToRegex, hname]
    change parseRegex (ascii "^" ++ nameRegex.replaceAll (ascii "/([^/]+)") pattern ++ ascii "$") = _
    rw [hpattern, replaceAll_segments p ps hno]
    exact parseRegex_pattern hp h.2
  · intro path
    rw [hseg]
    exact regexMatch_pattern hno path

end MuduoPlus
