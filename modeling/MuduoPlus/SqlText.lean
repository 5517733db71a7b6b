import MuduoPlus.ByteText

namespace MuduoPlus

/-- A statement cut at its single-quoted literals; `literal` has the decoded value. -/
inductive SqlToken where
  | byte (b : UInt8)
  | literal (value : Bytes)
  deriving DecidableEq, Repr

/-- Where the lexer stands: outside, inside a literal, behind a quote that ends it or is
doubled, behind a backslash. -/
inductive SqlLexer where
  | outside
  | inside (value : Bytes)
  | closing (value : Bytes)
  | escaped (value : Bytes)

/-- What a backslash and the byte behind it stand for. -/
def sqlEscape (b : UInt8) : Bytes :=
  if b = 48 then [0]
  else if b = 98 then [8]
  else if b = 110 then [10]
  else if b = 114 then [13]
  else if b = 116 then [9]
  else if b = 90 then [26]
  else if b = 37 ∨ b = 95 then [92, b]
  else [b]

/-- MySQL's reading of single-quoted literals; `none` if one is not closed. -/
def sqlLex : SqlLexer → Bytes → Option (List SqlToken)
  | .outside, [] => some []
  | .outside, b :: s =>
    if b = 39 then sqlLex (.inside []) s else (sqlLex .outside s).map (.byte b :: ·)
  | .inside _, [] => none
  | .inside value, b :: s =>
    if b = 39 then sqlLex (.closing value) s
    else if b = 92 then sqlLex (.escaped value) s
    else sqlLex (.inside (value ++ [b])) s
  | .closing value, [] => some [.literal value]
  | .closing value, b :: s =>
    if b = 39 then sqlLex (.inside (value ++ [39])) s
    else (sqlLex .outside s).map fun ts => .literal value :: .byte b :: ts
  | .escaped _, [] => none
  | .escaped value, b :: s => sqlLex (.inside (value ++ sqlEscape b)) s

def sqlTokens (s : Bytes) : Option (List SqlToken) := sqlLex .outside s

/-- Strings that stand for themselves between quotes: no quote, and a backslash only before
`%` or `_`. -/
inductive SqlPlain : Bytes → Prop where
  | nil : SqlPlain []
  | byte {b : UInt8} {s : Bytes} (hquote : b ≠ 39) (hslash : b ≠ 92) (h : SqlPlain s) :
      SqlPlain (b :: s)
  | escape {b : UInt8} {s : Bytes} (hb : b = 37 ∨ b = 95) (h : SqlPlain s) : SqlPlain (92 :: b :: s)

namespace SqlPlain

variable {u v s : Bytes}

theorem append (hu : SqlPlain u) (hv : SqlPlain v) : SqlPlain (u ++ v) := by
  induction hu with
  | nil => exact hv
  | byte hquote hslash _ ih => exact .byte hquote hslash ih
  | escape hb _ ih => exact .escape hb ih

theorem of_clean (hquote : 39 ∉ s) (hslash : 92 ∉ s) : SqlPlain s := by
  induction s with
  | nil => exact .nil
  | cons b s ih =>
    simp only [List.mem_cons, not_or] at hquote hslash
    exact .byte (Ne.symm hquote.1) (Ne.symm hslash.1) (ih hquote.2 hslash.2)

end SqlPlain

theorem sqlEscape_kept {b : UInt8} (hb : b = 37 ∨ b = 95) : sqlEscape b = [92, b] := by
  rcases hb with rfl | rfl
  · rfl
  · rfl

theorem sqlEscape_length (b : UInt8) : (sqlEscape b).length ≤ 2 := by
  unfold sqlEscape
  repeat' split
  all_goals simp

/-- An escape that keeps both bytes. -/
theorem sqlEscape_length_two {b : UInt8} (h : (sqlEscape b).length = 2) : b = 37 ∨ b = 95 := by
  unfold sqlEscape at h
  repeat' split at h
  all_goals first | assumption | simp at h

section Lex

variable {value v s : Bytes} {ts : List SqlToken}

theorem sqlLex_inside (h : SqlPlain v) (value : Bytes) :
    sqlLex (.inside value) (v ++ s) = sqlLex (.inside (value ++ v)) s := by
  induction h generalizing value with
  | nil => simp
  | @byte b u hquote hslash _ ih =>
    rw [List.cons_append, sqlLex, if_neg hquote, if_neg hslash, ih, List.append_assoc]
    rfl
  | @escape b u hb _ ih =>
    rw [List.cons_append, List.cons_append, sqlLex, if_neg (by decide), if_pos rfl, sqlLex, ih,
      sqlEscape_kept hb, List.append_assoc]
    rfl

theorem sqlLex_closing (h : s.head? ≠ some 39) :
    sqlLex (.closing value) s = (sqlLex .outside s).map (.literal value :: ·) := by
  cases s with
  | nil => rfl
  | cons b s =>
    have hb : b ≠ 39 := fun he => h (by rw [he]; rfl)
    rw [sqlLex, if_neg hb, sqlLex, if_neg hb, Option.map_map]
    rfl

theorem sqlLex_outside {t : Bytes} (h : 39 ∉ t) (s : Bytes) :
    sqlLex .outside (t ++ s) = (sqlLex .outside s).map (t.map .byte ++ ·) := by
  induction t with
  | nil => simp
  | cons b t ih =>
    simp only [List.mem_cons, not_or] at h
    rw [List.cons_append, sqlLex, if_neg (Ne.symm h.1), ih h.2, Option.map_map]
    rfl

/-- How many bytes of text a token list needs at least. -/
def sqlWeight (ts : List SqlToken) : Nat :=
  (ts.map fun
    | .byte _ => 1
    | .literal value => value.length + 2).sum

/-- The bytes the lexer has read of an open literal. -/
def SqlLexer.read : SqlLexer → Nat
  | .outside => 0
  | .inside value => value.length + 1
  | .closing value => value.length + 2
  | .escaped value => value.length + 2

/-- The part of an open literal that was read stands for itself. -/
def SqlLexer.Plain : SqlLexer → Prop
  | .outside => True
  | .inside value => SqlPlain value
  | .closing value => SqlPlain value
  | .escaped value => SqlPlain value

/-- Decoding never makes a literal longer, and where it does not make one shorter the literals
stand for themselves. -/
theorem sqlWeight_le {st : SqlLexer} (h : sqlLex st s = some ts) :
    sqlWeight ts ≤ st.read + s.length ∧
      (sqlWeight ts = st.read + s.length → st.Plain → ∀ v, .literal v ∈ ts → SqlPlain v) := by
  induction s generalizing st ts with
  | nil =>
    cases st with
    | outside =>
      cases Option.some.inj h
      simp [sqlWeight, SqlLexer.read]
    | inside value => cases h
    | closing value =>
      cases Option.some.inj h
      refine ⟨by simp [sqlWeight, SqlLexer.read], fun _ hp v hv => ?_⟩
      obtain rfl : v = value := by simpa using hv
      exact hp
    | escaped value => cases h
  | cons b s ih =>
    cases st with
    | outside =>
      rw [sqlLex] at h
      split at h
      next hb =>
        obtain ⟨hle, hplain⟩ := ih h
        simp only [SqlLexer.read, List.length_nil, List.length_cons] at hle hplain ⊢
        refine ⟨by omega, fun he _ => hplain (by omega) .nil⟩
      next hb =>
        obtain ⟨us, hus, rfl⟩ := Option.map_eq_some_iff.mp h
        obtain ⟨hle, hplain⟩ := ih hus
        have hw : sqlWeight (.byte b :: us) = 1 + sqlWeight us := by simp [sqlWeight]
        simp only [SqlLexer.read, List.length_cons, hw] at hle hplain ⊢
        refine ⟨by omega, fun he _ v hv => hplain (by omega) trivial v (by simpa using hv)⟩
    | inside value =>
      rw [sqlLex] at h
      split at h
      next hb =>
        obtain ⟨hle, hplain⟩ := ih h
        simp only [SqlLexer.read, List.length_cons] at hle hplain ⊢
        exact ⟨by omega, fun he hp => hplain (by omega) hp⟩
      next hquote =>
        split at h
        next hb =>
          obtain ⟨hle, hplain⟩ := ih h
          simp only [SqlLexer.read, List.length_cons] at hle hplain ⊢
          exact ⟨by omega, fun he hp => hplain (by omega) hp⟩
        next hslash =>
          obtain ⟨hle, hplain⟩ := ih h
          simp only [SqlLexer.read, List.length_append, List.length_cons, List.length_nil]
            at hle hplain ⊢
          refine ⟨by omega, fun he hp => hplain (by omega) ?_⟩
          exact SqlPlain.append hp (.byte hquote hslash .nil)
    | closing value =>
      rw [sqlLex] at h
      split at h
      next hb =>
        obtain ⟨hle, _⟩ := ih h
        simp only [SqlLexer.read, List.length_append, List.length_cons, List.length_nil] at hle ⊢
        exact ⟨by omega, fun he => by omega⟩
      next hb =>
        obtain ⟨us, hus, rfl⟩ := Option.map_eq_some_iff.mp h
        obtain ⟨hle, hplain⟩ := ih hus
        have hw : sqlWeight (.literal value :: .byte b :: us) =
            value.length + 2 + (1 + sqlWeight us) := by simp [sqlWeight]
        simp only [SqlLexer.read, List.length_cons, hw] at hle hplain ⊢
        refine ⟨by omega, fun he hp v hv => ?_⟩
        have hv' : v = value ∨ .literal v ∈ us := by simpa using hv
        rcases hv' with rfl | hv'
        · exact hp
        · exact hplain (by omega) trivial v hv'
    | escaped value =>
      rw [sqlLex] at h
      obtain ⟨hle, hplain⟩ := ih h
      have hlen := sqlEscape_length b
      simp only [SqlLexer.read, List.length_append, List.length_cons] at hle hplain ⊢
      refine ⟨by omega, fun he hp => hplain (by omega) ?_⟩
      have hb := sqlEscape_length_two (b := b) (by omega)
      rw [SqlLexer.Plain, sqlEscape_kept hb]
      exact SqlPlain.append hp (.escape hb .nil)

end Lex

/-- A statement: its parts, each a text and the string that stands between quotes behind it,
and the text at the end. -/
structure SqlTemplate where
  parts : List (Bytes × Bytes)
  final : Bytes

namespace SqlTemplate

variable {t : SqlTemplate}

/-- The statement as it is put together, without any escaping. -/
def text (t : SqlTemplate) : Bytes :=
  t.parts.flatMap (fun p => p.1 ++ 39 :: (p.2 ++ [39])) ++ t.final

/-- The statement that is meant: every string is one literal. -/
def shape (t : SqlTemplate) : List SqlToken :=
  t.parts.flatMap (fun p => p.1.map .byte ++ [.literal p.2]) ++ t.final.map .byte

/-- The fixed texts have no quotes, and two literals are never adjacent. -/
structure WellFormed (t : SqlTemplate) : Prop where
  no_quote : ∀ p ∈ t.parts, 39 ∉ p.1
  final_no_quote : 39 ∉ t.final
  apart : ∀ p ∈ t.parts.tail, p.1 ≠ []

theorem sqlWeight_append (us vs : List SqlToken) :
    sqlWeight (us ++ vs) = sqlWeight us + sqlWeight vs := by
  simp [sqlWeight]

theorem sqlWeight_bytes (s : Bytes) : sqlWeight (s.map .byte) = s.length := by
  induction s with
  | nil => rfl
  | cons b s ih =>
    have hw : sqlWeight ((b :: s).map .byte) = 1 + sqlWeight (s.map .byte) := by simp [sqlWeight]
    rw [hw, ih, List.length_cons]
    omega

theorem sqlWeight_shape (t : SqlTemplate) : sqlWeight t.shape = t.text.length := by
  have hparts : ∀ parts : List (Bytes × Bytes),
      sqlWeight (parts.flatMap fun p => p.1.map .byte ++ [.literal p.2]) =
        (parts.flatMap fun p => p.1 ++ 39 :: (p.2 ++ [39])).length := by
    intro parts
    induction parts with
    | nil => rfl
    | cons p parts ih =>
      have hliteral : sqlWeight [.literal p.2] = p.2.length + 2 := by simp [sqlWeight]
      rw [List.flatMap_cons, List.flatMap_cons, sqlWeight_append, sqlWeight_append,
        sqlWeight_bytes, hliteral, ih]
      simp only [List.length_append, List.length_cons, List.length_nil]
  rw [shape, text, sqlWeight_append, hparts, sqlWeight_bytes, List.length_append]

theorem text_head (h : t.WellFormed) (hne : ∀ p ∈ t.parts, p.1 ≠ []) : t.text.head? ≠ some 39 := by
  obtain ⟨parts, final⟩ := t
  cases parts with
  | nil =>
    intro he
    exact h.final_no_quote (List.mem_of_mem_head? he)
  | cons p parts =>
    have hp := hne p List.mem_cons_self
    obtain ⟨b, s, hb⟩ := List.exists_cons_of_ne_nil hp
    intro he
    have hbq : b = 39 := by simpa [text, hb] using he
    exact h.no_quote p List.mem_cons_self (by rw [hb, hbq]; exact List.mem_cons_self)

theorem tokens_of_plain (h : t.WellFormed) (hplain : ∀ p ∈ t.parts, SqlPlain p.2) :
    sqlTokens t.text = some t.shape := by
  obtain ⟨parts, final⟩ := t
  induction parts with
  | nil =>
    have hl := sqlLex_outside h.final_no_quote []
    simpa [sqlTokens, text, shape, sqlLex] using hl
  | cons p parts ih =>
    have hrest : WellFormed ⟨parts, final⟩ :=
      ⟨fun q hq => h.no_quote q (List.mem_cons_of_mem p hq), h.final_no_quote,
        fun q hq => h.apart q (List.mem_of_mem_tail hq)⟩
    have htail := ih hrest fun q hq => hplain q (List.mem_cons_of_mem p hq)
    have hhead := text_head hrest h.apart
    have htext : text ⟨p :: parts, final⟩ = p.1 ++ 39 :: (p.2 ++ 39 :: text ⟨parts, final⟩) := by
      simp [text]
    have hopen : sqlLex .outside (39 :: (p.2 ++ 39 :: text ⟨parts, final⟩)) =
        sqlLex (.closing p.2) (text ⟨parts, final⟩) := by
      rw [sqlLex, if_pos rfl, sqlLex_inside (hplain p List.mem_cons_self), sqlLex, if_pos rfl,
        List.nil_append]
    rw [sqlTokens] at htail ⊢
    rw [htext, sqlLex_outside (h.no_quote p List.mem_cons_self), hopen, sqlLex_closing hhead, htail]
    simp [shape]

/-- A statement put together by concatenation is the one that is meant exactly when each of its
strings stands for itself. -/
theorem tokens_iff (h : t.WellFormed) :
    sqlTokens t.text = some t.shape ↔ ∀ p ∈ t.parts, SqlPlain p.2 := by
  constructor
  · intro he p hp
    have hw := sqlWeight_shape t
    have hall := (sqlWeight_le he).2 (by simpa [SqlLexer.read] using hw) trivial
    apply hall
    exact List.mem_append_left _ (List.mem_flatMap.mpr
      ⟨p, hp, List.mem_append_right _ List.mem_cons_self⟩)
  · exact tokens_of_plain h

end SqlTemplate

end MuduoPlus
