import MuduoPlus.ByteText

namespace MuduoPlus

namespace Logger

def chParen : UInt8 := 40

def chAngle : UInt8 := 60

def scopeText : Bytes := ascii "::"

/-- `text` up to its first `c`, or all of it. -/
def upTo (c : UInt8) (text : Bytes) : Bytes :=
  match cutAt c text with
  | some (before, _) => before
  | none => text

/-- What follows the last slash of either kind. -/
def basenameView (path : Bytes) : Bytes := path.rtakeWhile fun c => c ≠ 47 ∧ c ≠ 92

/-- What follows the last `::`, or all of the text. -/
def behindScope (text : Bytes) : Bytes :=
  match cutLastText scopeText text with
  | some (_, after) => after
  | none => text

def unqualFunc (fn : Bytes) : Bytes :=
  let fn := behindScope fn
  let fn := upTo chParen fn
  upTo chAngle fn

def formatLocCompact (fileName functionName : Bytes) (line : UInt32) : Bytes :=
  ascii "[" ++ basenameView fileName ++ ascii ":" ++ unqualFunc functionName ++ ascii ":" ++
    decimal line.toNat ++ ascii "]"

/-- None of the bytes `unqual_func` looks for; an identifier has none of them. -/
def IsPlainName (name : Bytes) : Prop := ∀ c ∈ name, c ≠ 58 ∧ c ≠ chParen ∧ c ≠ chAngle

instance (name : Bytes) : Decidable (IsPlainName name) :=
  decidable_of_iff (name.all fun c => c != 58 && c != chParen && c != chAngle) (by
    simp only [IsPlainName, List.all_eq_true, Bool.and_eq_true, bne_iff_ne, ne_eq, and_assoc])

/-- The text is `name`, or goes on behind it with a parameter list or template arguments. -/
def Begins (name text : Bytes) : Prop :=
  text = name ∨ name ++ [chParen] <+: text ∨ name ++ [chAngle] <+: text

/-- What stands behind the last `::` of the parameter list and suffix, if there is one, begins
with the name too. -/
def ScopeHarmless (name rest : Bytes) : Prop :=
  ∀ before after, rest = before ++ (scopeText ++ after) → ¬scopeText <:+: 58 :: after →
    Begins name after

variable {name text rest q : Bytes} {c : UInt8}

theorem upTo_append (hn : c ∉ text) (rest : Bytes) : upTo c (text ++ c :: rest) = text := by
  rw [upTo, cutAt_append hn]

theorem upTo_of_not_mem (hn : c ∉ text) : upTo c text = text := by
  rw [upTo, cutAt_eq_none_iff.mpr hn]

/-- The cut text is all of it, or goes on with the byte. -/
theorem upTo_cases (c : UInt8) (text : Bytes) :
    upTo c text = text ∨ upTo c text ++ [c] <+: text := by
  cases h : cutAt c text with
  | none => exact Or.inl (upTo_of_not_mem (cutAt_eq_none_iff.mp h))
  | some p =>
    obtain ⟨rfl, hn⟩ := cutAt_eq_some_iff.mp h
    refine Or.inr ⟨p.2, ?_⟩
    rw [upTo_append hn, List.append_assoc]
    rfl

/-- The two cuts at the end leave a name exactly of a text that begins with it. -/
theorem upTo_upTo_eq_iff (h : IsPlainName name) :
    upTo chAngle (upTo chParen text) = name ↔ Begins name text := by
  have hparen : chParen ∉ name := fun hm => (h _ hm).2.1 rfl
  have hangle : chAngle ∉ name := fun hm => (h _ hm).2.2 rfl
  constructor
  · intro he
    rcases upTo_cases chAngle (upTo chParen text) with ha | ha
    · rw [he] at ha
      rcases upTo_cases chParen text with hp | hp
      · exact Or.inl (hp.symm.trans ha.symm)
      · rw [← ha] at hp
        exact Or.inr (Or.inl hp)
    · rw [he] at ha
      refine Or.inr (Or.inr (ha.trans ?_))
      rcases upTo_cases chParen text with hp | hp
      · rw [hp]
      · exact (List.prefix_append _ _).trans hp
  · rintro (rfl | ⟨tail, rfl⟩ | ⟨tail, rfl⟩)
    · rw [upTo_of_not_mem hparen, upTo_of_not_mem hangle]
    · rw [List.append_assoc, List.singleton_append, upTo_append hparen, upTo_of_not_mem hangle]
    · have hcut : ∃ tail', upTo chParen (name ++ [chAngle] ++ tail) = name ++ chAngle :: tail' := by
        have hn : chParen ∉ name ++ [chAngle] := by
          rw [List.mem_append, not_or]
          exact ⟨hparen, by decide⟩
        rw [upTo, cutAt_append_of_not_mem hn]
        cases cutAt chParen tail with
        | none => exact ⟨tail, by simp⟩
        | some p => exact ⟨p.1, by simp⟩
      obtain ⟨tail', hcut⟩ := hcut
      rw [hcut, upTo_append hangle]

theorem behindScope_append (h : ¬scopeText <:+: 58 :: text) (before : Bytes) :
    behindScope (before ++ (scopeText ++ text)) = text := by
  have hcut : cutLastText scopeText (before ++ (scopeText ++ text)) = some (before, text) :=
    (cutLastText_eq_some_iff (by decide)).mpr ⟨rfl, h⟩
  rw [behindScope, hcut]

theorem behindScope_of_not_infix (h : ¬scopeText <:+: text) : behindScope text = text := by
  rw [behindScope, (cutLastText_eq_none_iff (by decide)).mpr h]

theorem scope_not_infix_cons (hc : c ≠ 58) (h : ¬scopeText <:+: text) :
    ¬scopeText <:+: c :: text := by
  rw [List.infix_cons_iff, not_or]
  refine ⟨?_, h⟩
  rintro ⟨tail, ht⟩
  exact hc (List.cons.inj ht).1.symm

theorem scope_not_infix_of_plain (h : IsPlainName name) (hr : ¬scopeText <:+: rest) :
    ¬scopeText <:+: name ++ chParen :: rest := by
  induction name with
  | nil => exact scope_not_infix_cons (by decide) hr
  | cons c name ih =>
    have hrest := ih fun d hd => h d (List.mem_cons_of_mem c hd)
    exact scope_not_infix_cons (h c List.mem_cons_self).1 hrest

/-- A name and its parenthesis do not start with the second half of a `::`. -/
theorem scope_not_infix_colon (h : IsPlainName name) (hr : ¬scopeText <:+: rest) :
    ¬scopeText <:+: 58 :: (name ++ chParen :: rest) := by
  rw [List.infix_cons_iff, not_or]
  refine ⟨?_, scope_not_infix_of_plain h hr⟩
  rintro ⟨tail, ht⟩
  have hhead : 58 :: tail = name ++ chParen :: rest := (List.cons.inj ht).2
  cases name with
  | nil => exact absurd (List.cons.inj hhead).1 (by decide)
  | cons c name => exact (h c List.mem_cons_self).1 (List.cons.inj hhead).1.symm

theorem behindScope_signature (hq : q = [] ∨ scopeText <:+ q) (hname : IsPlainName name)
    (hr : ¬scopeText <:+: rest) :
    behindScope (q ++ name ++ chParen :: rest) = name ++ chParen :: rest := by
  rw [List.append_assoc]
  rcases hq with rfl | ⟨before, rfl⟩
  · exact behindScope_of_not_infix (scope_not_infix_of_plain hname hr)
  · rw [List.append_assoc]
    exact behindScope_append (scope_not_infix_colon hname hr) before

/-- `unqual_func` returns the name of a signature exactly if the last `::` behind the opening
parenthesis does no harm. -/
theorem unqualFunc_eq_name_iff (hq : q = [] ∨ scopeText <:+ q) (hname : IsPlainName name) :
    unqualFunc (q ++ name ++ chParen :: rest) = name ↔ ScopeHarmless name rest := by
  have hscope : scopeText ≠ [] := by decide
  cases hcut : cutLastText scopeText rest with
  | none =>
    have hr := (cutLastText_eq_none_iff hscope).mp hcut
    have hbegins : Begins name (name ++ chParen :: rest) :=
      Or.inr (Or.inl ⟨rest, by rw [List.append_assoc]; rfl⟩)
    have hfound : unqualFunc (q ++ name ++ chParen :: rest) = name := by
      rw [unqualFunc, behindScope_signature hq hname hr]
      exact (upTo_upTo_eq_iff hname).mpr hbegins
    refine iff_of_true hfound ?_
    rintro before after rfl -
    exact absurd ((List.prefix_append scopeText after).isInfix.trans
      (List.suffix_append before _).isInfix) hr
  | some p =>
    obtain ⟨before, after⟩ := p
    obtain ⟨hrest, hlast⟩ := (cutLastText_eq_some_iff hscope).mp hcut
    have hlast : ¬scopeText <:+: 58 :: after := hlast
    have hsplit : q ++ name ++ chParen :: rest =
        (q ++ name ++ chParen :: before) ++ (scopeText ++ after) := by
      rw [hrest, List.append_assoc (q ++ name), List.cons_append]
    rw [unqualFunc, hsplit, behindScope_append hlast]
    refine (upTo_upTo_eq_iff hname).trans ?_
    constructor
    · intro hb before' after' he hl
      have hcut' := (cutLastText_eq_some_iff hscope).mpr ⟨he, hl⟩
      rw [hcut] at hcut'
      obtain ⟨-, rfl⟩ := Prod.mk.inj (Option.some.inj hcut')
      exact hb
    · intro hh
      exact hh before after hrest hlast

theorem unqualFunc_eq_name_template :
    IsPlainName (ascii "run") ∧
    unqualFunc (ascii "void Pool::" ++ ascii "run" ++ chParen :: ascii "int, Job<int>)") =
      ascii "run" := by
  have hname : IsPlainName (ascii "run") := by decide
  refine ⟨hname, (unqualFunc_eq_name_iff (Or.inr ⟨ascii "void Pool", by decide⟩) hname).mpr ?_⟩
  intro before after he
  have hno : (58 : UInt8) ∉ ascii "int, Job<int>)" := by decide
  rw [he] at hno
  exact absurd (List.mem_append_right before (List.mem_append_left after (by decide))) hno

/-- Of `void Pool::run(std::string)` the type of the parameter is taken for the name. -/
theorem unqualFunc_parameter_type :
    let fn := ascii "void Pool::" ++ ascii "run" ++ chParen :: ascii "std::string)"
    scopeText <:+ ascii "void Pool::" ∧ IsPlainName (ascii "run") ∧
    unqualFunc fn = ascii "string)" ∧ unqualFunc fn ≠ ascii "run" ∧
    formatLocCompact (ascii "/src/Pool.cpp") fn 12 = ascii "[Pool.cpp:string):12]" := by
  refine ⟨⟨ascii "void Pool", by decide⟩, by decide, by decide, by decide, ?_⟩
  decide +kernel

end Logger

end MuduoPlus
