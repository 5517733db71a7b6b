import Mathlib.Data.List.Basic
import MuduoPlus.ByteText

namespace MuduoPlus

/-- Some characters, in UTF-8. -/
def IsUtf8 (text : Bytes) : Prop :=
  ∃ chars : List Char, text = chars.flatMap String.utf8EncodeChar

namespace IsUtf8

variable {b : UInt8} {s t : Bytes}

/-- A character is a single byte, or some bytes from 128 on. -/
theorem utf8EncodeChar_cases (c : Char) :
    (∃ b, String.utf8EncodeChar c = [b]) ∨ ∀ b ∈ String.utf8EncodeChar c, 128 ≤ b := by
  have hhigh : ∀ n, 128 ≤ n % 256 → 128 ≤ UInt8.ofNat n := by
    intro n hn
    rw [UInt8.le_iff_toNat_le, UInt8.toNat_ofNat']
    exact hn
  unfold String.utf8EncodeChar
  dsimp only
  split
  · exact Or.inl ⟨_, rfl⟩
  · right
    intro b hb
    split at hb
    · simp only [List.mem_cons, List.not_mem_nil, or_false] at hb
      rcases hb with rfl | rfl
      · exact hhigh _ (by omega)
      · exact hhigh _ (by omega)
    · split at hb
      · simp only [List.mem_cons, List.not_mem_nil, or_false] at hb
        rcases hb with rfl | rfl | rfl
        · exact hhigh _ (by omega)
        · exact hhigh _ (by omega)
        · exact hhigh _ (by omega)
      · simp only [List.mem_cons, List.not_mem_nil, or_false] at hb
        rcases hb with rfl | rfl | rfl | rfl
        · exact hhigh _ (by omega)
        · exact hhigh _ (by omega)
        · exact hhigh _ (by omega)
        · exact hhigh _ (by omega)

theorem nil : IsUtf8 [] := ⟨[], rfl⟩

theorem append (hs : IsUtf8 s) (ht : IsUtf8 t) : IsUtf8 (s ++ t) := by
  obtain ⟨cs, rfl⟩ := hs
  obtain ⟨ds, rfl⟩ := ht
  exact ⟨cs ++ ds, by rw [List.flatMap_append]⟩

theorem singleton (hb : b < 128) : IsUtf8 [b] := by
  have hlt : b.toNat < 128 := hb
  have hv : b.toUInt32.toNat = b.toNat := UInt8.toNat_toUInt32 b
  have hvalid : b.toUInt32.isValidChar := by
    left
    rw [hv]
    omega
  refine ⟨[⟨b.toUInt32, hvalid⟩], ?_⟩
  simp only [List.flatMap_cons, List.flatMap_nil, List.append_nil, String.utf8EncodeChar]
  rw [hv, if_pos (by omega), UInt8.ofNat_toNat]

/-- A byte below 128 is a character of its own, so the text may be split there. -/
theorem append_cons_iff (hb : b < 128) : IsUtf8 (s ++ b :: t) ↔ IsUtf8 s ∧ IsUtf8 t := by
  constructor
  · intro h
    obtain ⟨chars, hc⟩ := h
    induction chars generalizing s with
    | nil => simp at hc
    | cons c chars ih =>
      rw [List.flatMap_cons] at hc
      rcases List.append_eq_append_iff.mp hc with ⟨rest, he, hrest⟩ | ⟨rest, he, hrest⟩
      · cases rest with
        | nil =>
          rw [List.append_nil] at he
          rw [← he]
          exact ⟨⟨[c], by simp⟩, (ih (s := []) hrest).2⟩
        | cons a rest =>
          obtain ⟨rfl, rfl⟩ := List.cons.inj hrest
          have hone : s = [] ∧ rest = [] := by
            rcases utf8EncodeChar_cases c with ⟨a, ha⟩ | hall
            · rw [ha] at he
              cases s with
              | nil => exact ⟨rfl, (List.cons.inj he).2.symm⟩
              | cons _ s => simp at he
            · have hge := hall b (by rw [he]; simp)
              exact absurd hb (UInt8.not_lt.mpr hge)
          rw [hone.1, hone.2]
          exact ⟨nil, ⟨chars, rfl⟩⟩
      · obtain ⟨hr, ht⟩ := ih hrest.symm
        rw [he]
        exact ⟨(IsUtf8.append ⟨[c], by simp⟩ hr), ht⟩
  · intro h
    have hbt : IsUtf8 (b :: t) := (singleton hb).append h.2
    exact h.1.append hbt

theorem cons_iff (hb : b < 128) : IsUtf8 (b :: t) ↔ IsUtf8 t := by
  have h := append_cons_iff (s := []) (t := t) hb
  simpa [nil] using h

theorem of_lt (h : ∀ b ∈ s, b < 128) : IsUtf8 s := by
  induction s with
  | nil => exact nil
  | cons b s ih =>
    obtain ⟨hb, hs⟩ := List.forall_mem_cons.mp h
    exact (cons_iff hb).mpr (ih hs)

end IsUtf8

/-- A JSON value as it was written: a number by its text, the members of an object in their
order. -/
inductive JsonTree where
  | null
  | boolean (b : Bool)
  | number (text : Bytes)
  | string (s : Bytes)
  | array (elements : List JsonTree)
  | object (members : List (Bytes × JsonTree))

/-! The grammar of JSON. A relation holds of a text, what is read at its front, and the text behind
that. -/

namespace JsonText

def beginArray : UInt8 := 91
def beginObject : UInt8 := 123
def endArray : UInt8 := 93
def endObject : UInt8 := 125
def nameSeparator : UInt8 := 58
def valueSeparator : UInt8 := 44
def quotationMark : UInt8 := 34
def backslash : UInt8 := 92

def isBlank (c : UInt8) : Bool := c = 32 || c = 9 || c = 10 || c = 13

/-- `ws`. -/
def skip (text : Bytes) : Bytes := text.dropWhile isBlank

/-- `unescaped`. -/
def IsPlain (c : UInt8) : Prop := 32 ≤ c ∧ c ≠ quotationMark ∧ c ≠ backslash

instance (c : UInt8) : Decidable (IsPlain c) := inferInstanceAs (Decidable (_ ∧ _))

def IsPlainText (s : Bytes) : Prop := ∀ c ∈ s, IsPlain c

instance (s : Bytes) : Decidable (IsPlainText s) := inferInstanceAs (Decidable (∀ c ∈ s, IsPlain c))

/-- What the letter behind a backslash stands for. -/
def escaped (c : UInt8) : Option UInt8 :=
  (ascii "\"\\/bfnrt").zip [34, 92, 47, 8, 12, 10, 13, 9] |>.lookup c

def hexDigit (c : UInt8) : Option Nat :=
  if 48 ≤ c ∧ c ≤ 57 then some (c.toNat - 48)
  else if 65 ≤ c ∧ c ≤ 70 then some (c.toNat - 55)
  else if 97 ≤ c ∧ c ≤ 102 then some (c.toNat - 87)
  else none

/-- `4HEXDIG`, a unit of UTF-16. -/
def codeUnit : Bytes → Option Nat
  | [a, b, c, d] => do
    let a ← hexDigit a
    let b ← hexDigit b
    let c ← hexDigit c
    let d ← hexDigit d
    some (((a * 16 + b) * 16 + c) * 16 + d)
  | _ => none

def unicode (digits : Bytes) : Bytes := backslash :: 117 :: digits

/-- The escapes, with the bytes they stand for. A character outside the first plane is written as
two units, and neither of the two may stand alone. -/
inductive Escape : Bytes → Bytes → Prop
  | letter {c b : UInt8} (h : escaped c = some b) : Escape [backslash, c] [b]
  | unit {digits : Bytes} {n : Nat} (h : codeUnit digits = some n)
      (hn : n < 0xD800 ∨ 0xE000 ≤ n) :
      Escape (unicode digits) (String.utf8EncodeChar (Char.ofNat n))
  | pair {high low : Bytes} {m n : Nat} (hm : codeUnit high = some m) (hn : codeUnit low = some n)
      (hhigh : 0xD800 ≤ m ∧ m < 0xDC00) (hlow : 0xDC00 ≤ n ∧ n < 0xE000) :
      Escape (unicode high ++ unicode low)
        (String.utf8EncodeChar (Char.ofNat (0x10000 + (m - 0xD800) * 0x400 + (n - 0xDC00))))

/-- `string` behind its opening quotation mark. -/
inductive Chars : Bytes → Bytes → Bytes → Prop
  | close {rest : Bytes} : Chars (quotationMark :: rest) [] rest
  | plain {c : UInt8} {text s rest : Bytes} (hc : IsPlain c) (h : Chars text s rest) :
      Chars (c :: text) (c :: s) rest
  | escape {e b text s rest : Bytes} (he : Escape e b) (h : Chars text s rest) :
      Chars (e ++ text) (b ++ s) rest

/-- One digit or more, with what comes behind them. -/
def digits (text : Bytes) : Option Bytes :=
  match text with
  | c :: text => if isDigit c then some (text.dropWhile isDigit) else none
  | [] => none

/-- `int`: no zero in front of another digit. -/
def int (text : Bytes) : Option Bytes :=
  match text with
  | 48 :: text => some text
  | text => digits text

def frac (text : Bytes) : Option Bytes :=
  match text with
  | 46 :: text => digits text
  | text => some text

def exp (text : Bytes) : Option Bytes :=
  match text with
  | c :: text =>
    if c = 101 ∨ c = 69 then
      match text with
      | s :: text => if s = 43 ∨ s = 45 then digits text else digits (s :: text)
      | [] => none
    else some (c :: text)
  | [] => some []

/-- `number`. -/
def IsNumber (text : Bytes) : Prop :=
  (int (match text with
    | 45 :: text => text
    | text => text) >>= frac >>= exp) = some []

mutual

inductive Value : Bytes → JsonTree → Bytes → Prop
  | null {rest : Bytes} : Value (ascii "null" ++ rest) .null rest
  | yes {rest : Bytes} : Value (ascii "true" ++ rest) (.boolean true) rest
  | no {rest : Bytes} : Value (ascii "false" ++ rest) (.boolean false) rest
  | number {n rest : Bytes} (h : IsNumber n) : Value (n ++ rest) (.number n) rest
  | string {text s rest : Bytes} (h : Chars text s rest) :
      Value (quotationMark :: text) (.string s) rest
  | emptyArray {text rest : Bytes} (h : skip text = endArray :: rest) :
      Value (beginArray :: text) (.array []) rest
  | array {text rest : Bytes} {elements : List JsonTree} (h : Elements text elements rest) :
      Value (beginArray :: text) (.array elements) rest
  | emptyObject {text rest : Bytes} (h : skip text = endObject :: rest) :
      Value (beginObject :: text) (.object []) rest
  | object {text rest : Bytes} {members : List (Bytes × JsonTree)} (h : Members text members rest) :
      Value (beginObject :: text) (.object members) rest

/-- The elements of an array up to its end. -/
inductive Elements : Bytes → List JsonTree → Bytes → Prop
  | last {text more rest : Bytes} {v : JsonTree} (hv : Value (skip text) v more)
      (he : skip more = endArray :: rest) : Elements text [v] rest
  | cons {text more next rest : Bytes} {v : JsonTree} {elements : List JsonTree}
      (hv : Value (skip text) v more) (hs : skip more = valueSeparator :: next)
      (h : Elements next elements rest) : Elements text (v :: elements) rest

inductive Member : Bytes → Bytes × JsonTree → Bytes → Prop
  | mk {text quoted named next rest name : Bytes} {v : JsonTree}
      (hq : skip text = quotationMark :: quoted) (hname : Chars quoted name named)
      (hs : skip named = nameSeparator :: next) (hv : Value (skip next) v rest) :
      Member text (name, v) rest

/-- The members of an object up to its end. -/
inductive Members : Bytes → List (Bytes × JsonTree) → Bytes → Prop
  | last {text more rest : Bytes} {m : Bytes × JsonTree} (hm : Member text m more)
      (he : skip more = endObject :: rest) : Members text [m] rest
  | cons {text more next rest : Bytes} {m : Bytes × JsonTree} {members : List (Bytes × JsonTree)}
      (hm : Member text m more) (hs : skip more = valueSeparator :: next)
      (h : Members next members rest) : Members text (m :: members) rest

end

/-- A text of JSON: one value, in UTF-8. -/
def IsText (text : Bytes) (v : JsonTree) : Prop :=
  IsUtf8 text ∧ ∃ rest, Value (skip text) v rest ∧ skip rest = []

variable {s o text rest more : Bytes} {x : UInt8}

theorem skip_cons {c : UInt8} (hc : isBlank c = false) (text : Bytes) :
    skip (c :: text) = c :: text := by
  rw [skip, List.dropWhile_cons_of_neg (by simp [hc])]

theorem hexDigit_ne_quotationMark {c : UInt8} {n : Nat} (h : hexDigit c = some n) :
    c ≠ quotationMark := by
  intro hc
  rw [hc] at h
  simp [hexDigit, quotationMark] at h

theorem codeUnit_spec {digits : Bytes} {n : Nat} (h : codeUnit digits = some n) :
    digits.length = 4 ∧ quotationMark ∉ digits := by
  unfold codeUnit at h
  split at h
  next a b c d =>
    simp only [Option.bind_eq_bind, Option.bind_eq_some_iff] at h
    obtain ⟨_, ha, _, hb, _, hc, _, hd, _⟩ := h
    refine ⟨rfl, ?_⟩
    intro hm
    simp only [List.mem_cons, List.not_mem_nil, or_false] at hm
    rcases hm with hm | hm | hm | hm
    · exact hexDigit_ne_quotationMark ha hm.symm
    · exact hexDigit_ne_quotationMark hb hm.symm
    · exact hexDigit_ne_quotationMark hc hm.symm
    · exact hexDigit_ne_quotationMark hd hm.symm
  next => cases h

theorem unicode_spec {digits : Bytes} {n : Nat} (h : codeUnit digits = some n) :
    (unicode digits).length = 6 ∧ quotationMark ∉ unicode digits := by
  obtain ⟨hl, hq⟩ := codeUnit_spec h
  refine ⟨by simp [unicode, hl], ?_⟩
  simpa [unicode, quotationMark, backslash] using hq

theorem length_utf8EncodeChar_le (c : Char) : (String.utf8EncodeChar c).length ≤ 4 := by
  rw [String.length_utf8EncodeChar]
  exact Char.utf8Size_le_four c

/-- An escape is longer than what it stands for. It starts with a backslash, and a quotation mark
is in it only as the letter behind that. -/
theorem Escape.spec {e b : Bytes} (h : Escape e b) :
    b.length < e.length ∧ (∃ tail, e = backslash :: tail) ∧
      (e = [backslash, quotationMark] ∨ quotationMark ∉ e) := by
  cases h with
  | @letter c b h =>
    refine ⟨by simp, ⟨_, rfl⟩, ?_⟩
    by_cases hc : c = quotationMark
    · exact Or.inl (by rw [hc])
    · exact Or.inr (by simpa [quotationMark, backslash] using Ne.symm hc)
  | unit h hn =>
    obtain ⟨hl, hq⟩ := unicode_spec h
    refine ⟨?_, ⟨_, rfl⟩, Or.inr hq⟩
    have hle := length_utf8EncodeChar_le
    rw [hl]
    exact Nat.lt_of_le_of_lt (hle _) (by decide)
  | pair hm hn hhigh hlow =>
    obtain ⟨hl, hq⟩ := unicode_spec hm
    obtain ⟨hl', hq'⟩ := unicode_spec hn
    refine ⟨?_, ⟨_, rfl⟩, Or.inr ?_⟩
    · rw [List.length_append, hl, hl']
      exact Nat.lt_of_le_of_lt (length_utf8EncodeChar_le _) (by decide)
    · rw [List.mem_append]
      exact fun h => h.elim hq hq'

/-- Where an escape takes a quotation mark, only its backslash stands in front of it. -/
theorem Escape.of_quotationMark {b tail : Bytes} (h : Escape (o ++ quotationMark :: tail) b) :
    o = [backslash] ∧ tail = [] := by
  obtain ⟨_, _, hletter | hnone⟩ := h.spec
  · cases o with
    | nil => simp [backslash, quotationMark] at hletter
    | cons c o =>
      obtain ⟨rfl, ho⟩ := List.cons.inj hletter
      cases o with
      | nil => exact ⟨rfl, (List.cons.inj ho).2⟩
      | cons c o => simp at ho
  · exact absurd (by simp) hnone

/-- A plain text is read as it stands. -/
theorem Chars.of_plain (hs : IsPlainText s) (rest : Bytes) :
    Chars (s ++ quotationMark :: rest) s rest := by
  induction s with
  | nil => exact .close
  | cons c s ih =>
    have hh := List.forall_mem_cons.mp hs
    exact .plain hh.1 (ih hh.2)

theorem Chars.not_nil : ¬ Chars [] s rest := by
  intro h
  generalize ht : ([] : Bytes) = text at h
  cases h with
  | close => cases ht
  | plain => cases ht
  | escape he =>
    obtain ⟨_, ⟨tail, rfl⟩, _⟩ := he.spec
    cases ht

/-- A plain character stands for itself. -/
theorem Chars.of_cons {c : UInt8} (hc : IsPlain c) (h : Chars (c :: text) s rest) :
    ∃ tail, s = c :: tail ∧ Chars text tail rest := by
  generalize ht : c :: text = whole at h
  cases h with
  | close =>
    obtain ⟨rfl, _⟩ := List.cons.inj ht
    exact absurd rfl hc.2.1
  | plain hc' h =>
    obtain ⟨rfl, rfl⟩ := List.cons.inj ht
    exact ⟨_, rfl, h⟩
  | escape he h =>
    obtain ⟨_, ⟨tail, rfl⟩, _⟩ := he.spec
    obtain ⟨rfl, _⟩ := List.cons.inj ht
    exact absurd rfl hc.2.2

theorem Chars.of_quotationMark (h : Chars (quotationMark :: text) s rest) :
    s = [] ∧ rest = text := by
  generalize ht : quotationMark :: text = whole at h
  cases h with
  | close =>
    obtain ⟨_, rfl⟩ := List.cons.inj ht
    exact ⟨rfl, rfl⟩
  | plain hc h =>
    obtain ⟨rfl, _⟩ := List.cons.inj ht
    exact absurd rfl hc.2.1
  | escape he h =>
    obtain ⟨_, ⟨tail, rfl⟩, _⟩ := he.spec
    obtain ⟨hq, _⟩ := List.cons.inj ht
    exact absurd hq (by decide)

theorem Chars.eq_of_plain (ho : IsPlainText o) (h : Chars (o ++ quotationMark :: more) s rest) :
    s = o ∧ rest = more := by
  induction o generalizing s with
  | nil => exact h.of_quotationMark
  | cons c o ih =>
    have hh := List.forall_mem_cons.mp ho
    obtain ⟨tail, rfl, ht⟩ := h.of_cons hh.1
    obtain ⟨rfl, rfl⟩ := ih hh.2 ht
    exact ⟨rfl, rfl⟩

/-- What may be read from `o` and a quotation mark: `o` itself, something shorter, or something that
goes on behind the mark, because `o` ends with the backslash of an escape. -/
theorem Chars.of_quoted (hx : ∀ {s rest}, Chars (x :: more) s rest → s = [x])
    (h : Chars (o ++ quotationMark :: x :: more) s rest) :
    (IsPlainText o ∧ s = o ∧ rest = x :: more) ∨ s.length < o.length ∨
      ([x] <:+ s ∧ [backslash] <:+ o) := by
  generalize ht : o ++ quotationMark :: x :: more = text at h
  induction h generalizing o with
  | close =>
    cases o with
    | nil => exact Or.inl ⟨by simp [IsPlainText], rfl, (List.cons.inj ht).2.symm⟩
    | cons c o => exact Or.inr (Or.inl (by simp))
  | plain hc h ih =>
    cases o with
    | nil =>
      obtain ⟨rfl, _⟩ := List.cons.inj ht
      exact absurd rfl hc.2.1
    | cons c o =>
      obtain ⟨rfl, hrest⟩ := List.cons.inj ht
      rcases ih hrest with ⟨hp, rfl, rfl⟩ | hlt | ⟨hs, ho⟩
      · exact Or.inl ⟨List.forall_mem_cons.mpr ⟨hc, hp⟩, rfl, rfl⟩
      · exact Or.inr (Or.inl (by simpa using hlt))
      · exact Or.inr (Or.inr ⟨hs.trans (List.suffix_cons _ _), ho.trans (List.suffix_cons _ _)⟩)
  | @escape e b text s rest he h ih =>
    have hlen := he.spec.1
    rcases List.append_eq_append_iff.mp ht with ⟨tail, rfl, hrest⟩ | ⟨o', rfl, hrest⟩
    · cases tail with
      | nil =>
        obtain ⟨rfl, _⟩ := of_quotationMark (hrest ▸ h : Chars (quotationMark :: x :: more) s rest)
        exact Or.inr (Or.inl (by simpa using hlen))
      | cons c tail =>
        obtain ⟨rfl, hmore⟩ := List.cons.inj hrest
        obtain ⟨rfl, rfl⟩ := he.of_quotationMark
        have hs := hx (hmore ▸ h : Chars (x :: more) s rest)
        rw [hs]
        exact Or.inr (Or.inr ⟨List.suffix_append _ _, List.suffix_refl _⟩)
    · rcases ih hrest.symm with ⟨_, rfl, _⟩ | hlt | ⟨hs, ho⟩
      · exact Or.inr (Or.inl (by simpa using hlen))
      · refine Or.inr (Or.inl ?_)
        simp only [List.length_append]
        omega
      · exact Or.inr (Or.inr ⟨hs.trans (List.suffix_append _ _), ho.trans (List.suffix_append _ _)⟩)

/-- So `o` is read as itself only where it is plain. -/
theorem Chars.plain_of_quoted (hx : ∀ {s rest}, Chars (x :: more) s rest → s = [x])
    (hne : x ≠ backslash) (h : Chars (o ++ quotationMark :: x :: more) o rest) :
    IsPlainText o ∧ rest = x :: more := by
  rcases h.of_quoted hx with ⟨hp, _, hr⟩ | hlt | ⟨hs, ho⟩
  · exact ⟨hp, hr⟩
  · omega
  · have hlast := (List.singleton_suffix_iff_getLast?_eq_some.mp hs).symm.trans
      (List.singleton_suffix_iff_getLast?_eq_some.mp ho)
    exact absurd (Option.some.inj hlast) hne

theorem Value.of_quotationMark {v : JsonTree} (h : Value (quotationMark :: text) v rest) :
    ∃ s, v = .string s ∧ Chars text s rest := by
  generalize ht : quotationMark :: text = whole at h
  cases h with
  | null => exact absurd (List.cons.inj ht).1 (by decide)
  | yes => exact absurd (List.cons.inj ht).1 (by decide)
  | no => exact absurd (List.cons.inj ht).1 (by decide)
  | @number n rest hn =>
    cases n with
    | nil => simp [IsNumber, int, digits] at hn
    | cons c n =>
      obtain ⟨rfl, _⟩ := List.cons.inj ht
      simp [IsNumber, int, digits, quotationMark, isDigit] at hn
  | string h =>
    obtain ⟨_, rfl⟩ := List.cons.inj ht
    exact ⟨_, rfl, h⟩
  | emptyArray => exact absurd (List.cons.inj ht).1 (by decide)
  | array => exact absurd (List.cons.inj ht).1 (by decide)
  | emptyObject => exact absurd (List.cons.inj ht).1 (by decide)
  | object => exact absurd (List.cons.inj ht).1 (by decide)

theorem Value.of_beginObject {members : List (Bytes × JsonTree)}
    (h : Value (beginObject :: text) (.object members) rest) :
    skip text = endObject :: rest ∨ Members text members rest := by
  generalize ht : beginObject :: text = whole at h
  cases h with
  | emptyObject h =>
    obtain ⟨_, rfl⟩ := List.cons.inj ht
    exact Or.inl h
  | object h =>
    obtain ⟨_, rfl⟩ := List.cons.inj ht
    exact Or.inr h

/-! A writer that puts names and strings between quotation marks as they are. -/

def memberText (m : Bytes × Bytes) (rest : Bytes) : Bytes :=
  quotationMark :: (m.1 ++ quotationMark :: nameSeparator :: quotationMark ::
    (m.2 ++ quotationMark :: rest))

/-- The rest of the object, behind a member. -/
def tailText : List (Bytes × Bytes) → Bytes
  | [] => [endObject]
  | m :: ms => valueSeparator :: memberText m (tailText ms)

def objectText (m : Bytes × Bytes) (ms : List (Bytes × Bytes)) : Bytes :=
  beginObject :: memberText m (tailText ms)

def treeOf (m : Bytes × Bytes) : Bytes × JsonTree := (m.1, .string m.2)

variable {m : Bytes × Bytes} {ms : List (Bytes × Bytes)} {members : List (Bytes × JsonTree)}

theorem isUtf8_memberText_iff :
    IsUtf8 (memberText m rest) ↔ (IsUtf8 m.1 ∧ IsUtf8 m.2) ∧ IsUtf8 rest := by
  have hq : quotationMark < 128 := by decide
  have hs : nameSeparator < 128 := by decide
  rw [memberText, IsUtf8.cons_iff hq, IsUtf8.append_cons_iff hq, IsUtf8.cons_iff hs,
    IsUtf8.cons_iff hq, IsUtf8.append_cons_iff hq, and_assoc]

/-- A member whose name is plain has that name and a string. -/
theorem Member.of_memberText {m' : Bytes × JsonTree} (hn : IsPlainText m.1)
    (h : Member (memberText m more) m' rest) :
    ∃ s, m' = (m.1, .string s) ∧ Chars (m.2 ++ quotationMark :: more) s rest := by
  cases h with
  | mk hq hname hs hv =>
    rw [memberText, skip_cons rfl] at hq
    obtain ⟨_, rfl⟩ := List.cons.inj hq
    obtain ⟨rfl, rfl⟩ := hname.eq_of_plain hn
    rw [skip_cons rfl] at hs
    obtain ⟨_, rfl⟩ := List.cons.inj hs
    rw [skip_cons rfl] at hv
    obtain ⟨s, rfl, hchars⟩ := hv.of_quotationMark
    exact ⟨s, rfl, hchars⟩

theorem Member.of_plain (hn : IsPlainText m.1) (hs : IsPlainText m.2) (rest : Bytes) :
    Member (memberText m rest) (treeOf m) rest := by
  refine .mk (skip_cons rfl _) (Chars.of_plain hn _) (skip_cons rfl _) ?_
  rw [skip_cons rfl]
  exact .string (Chars.of_plain hs rest)

/-- Behind a mark that was read as part of a string, the string ends at the next one, or the text
ends first. -/
theorem Chars.plain_of_tailText (h : Chars (o ++ quotationMark :: tailText ms) o rest) :
    IsPlainText o ∧ rest = tailText ms := by
  cases ms with
  | nil =>
    refine h.plain_of_quoted ?_ (by decide)
    intro s rest hs
    obtain ⟨tail, _, ht⟩ := hs.of_cons (by decide)
    exact absurd ht not_nil
  | cons m ms =>
    refine h.plain_of_quoted ?_ (by decide)
    intro s rest hs
    obtain ⟨tail, rfl, ht⟩ := hs.of_cons (by decide)
    obtain ⟨rfl, _⟩ := ht.of_quotationMark
    rfl

/-- Each string is plain, or every member of its name is read as that string. -/
def Kept (written : List (Bytes × Bytes)) (members : List (Bytes × JsonTree)) : Prop :=
  ∀ m ∈ written, IsPlainText m.2 ∨ ∀ v, (m.1, v) ∈ members → v = .string m.2

theorem Member.plain_of_kept {m' : Bytes × JsonTree} (hn : IsPlainText m.1)
    (h : Member (memberText m (tailText ms)) m' rest)
    (hk : IsPlainText m.2 ∨ ∀ v, (m.1, v) = m' → v = .string m.2) :
    IsPlainText m.2 ∧ rest = tailText ms := by
  obtain ⟨s, rfl, hchars⟩ := h.of_memberText hn
  rcases hk with hp | hv
  · exact ⟨hp, (hchars.eq_of_plain hp).2⟩
  · have hs : s = m.2 := JsonTree.string.inj (hv _ rfl)
    rw [hs] at hchars
    exact hchars.plain_of_tailText

theorem Members.head (h : Members text members rest) :
    ∃ m more ms, members = m :: ms ∧ Member text m more ∧
      (skip more = endObject :: rest ∨ ∃ next, skip more = valueSeparator :: next ∧
        Members next ms rest) := by
  cases h with
  | last hm he => exact ⟨_, _, _, rfl, hm, Or.inl he⟩
  | cons hm hs h => exact ⟨_, _, _, rfl, hm, Or.inr ⟨_, hs, h⟩⟩

/-- From left to right: a string that is read back as it was given is plain, so the next member is
read where it was written. -/
theorem Members.plain_of_kept (hn : ∀ m' ∈ m :: ms, IsPlainText m'.1)
    (h : Members (memberText m (tailText ms)) members rest) (hk : Kept (m :: ms) members) :
    ∀ m' ∈ m :: ms, IsPlainText m'.2 := by
  induction ms generalizing m members with
  | nil =>
    obtain ⟨m', more, tail, rfl, hm, _⟩ := h.head
    obtain ⟨hn, _⟩ := List.forall_mem_cons.mp hn
    obtain ⟨hk, _⟩ := List.forall_mem_cons.mp hk
    have hfirst := hm.plain_of_kept hn (hk.imp id fun hv v he => hv v (by simp [he]))
    exact List.forall_mem_cons.mpr ⟨hfirst.1, by simp⟩
  | cons m₂ ms ih =>
    obtain ⟨m', more, tail, rfl, hm, hmore⟩ := h.head
    obtain ⟨hn, hns⟩ := List.forall_mem_cons.mp hn
    obtain ⟨hk, hks⟩ := List.forall_mem_cons.mp hk
    have hfirst := hm.plain_of_kept hn (hk.imp id fun hv v he => hv v (by simp [he]))
    rw [hfirst.2, tailText, skip_cons rfl] at hmore
    rcases hmore with hend | ⟨next, hnext, htail⟩
    · exact absurd (List.cons.inj hend).1 (by decide)
    · obtain ⟨_, rfl⟩ := List.cons.inj hnext
      refine List.forall_mem_cons.mpr ⟨hfirst.1, ih hns htail ?_⟩
      intro m' hm'
      exact (hks m' hm').imp id fun hv v hmem => hv v (List.mem_cons_of_mem _ hmem)

theorem Members.of_plain (hn : ∀ m' ∈ m :: ms, IsPlainText m'.1)
    (hs : ∀ m' ∈ m :: ms, IsPlainText m'.2) :
    Members (memberText m (tailText ms)) ((m :: ms).map treeOf) [] := by
  induction ms generalizing m with
  | nil =>
    obtain ⟨hn, _⟩ := List.forall_mem_cons.mp hn
    obtain ⟨hs, _⟩ := List.forall_mem_cons.mp hs
    exact .last (Member.of_plain hn hs _) (skip_cons rfl [])
  | cons m₂ ms ih =>
    obtain ⟨hn, hns⟩ := List.forall_mem_cons.mp hn
    obtain ⟨hs, hss⟩ := List.forall_mem_cons.mp hs
    exact .cons (Member.of_plain hn hs _) (skip_cons rfl _) (ih hns hss)

theorem isUtf8_objectText_iff :
    IsUtf8 (objectText m ms) ↔ ∀ m' ∈ m :: ms, IsUtf8 m'.1 ∧ IsUtf8 m'.2 := by
  have htail : ∀ ms, IsUtf8 (tailText ms) ↔ ∀ m' ∈ ms, IsUtf8 m'.1 ∧ IsUtf8 m'.2 := by
    intro ms
    induction ms with
    | nil => simpa [tailText] using IsUtf8.singleton (b := endObject) (by decide)
    | cons m ms ih =>
      rw [tailText, IsUtf8.cons_iff (by decide), isUtf8_memberText_iff, ih, List.forall_mem_cons]
  rw [objectText, IsUtf8.cons_iff (by decide), isUtf8_memberText_iff, htail, List.forall_mem_cons]

/-- Plain names and strings may be written without escapes. -/
theorem objectText_of_plain (hn : ∀ m' ∈ m :: ms, IsPlainText m'.1)
    (hs : ∀ m' ∈ m :: ms, IsPlainText m'.2) (hu : ∀ m' ∈ m :: ms, IsUtf8 m'.1 ∧ IsUtf8 m'.2) :
    IsText (objectText m ms) (.object ((m :: ms).map treeOf)) := by
  refine ⟨isUtf8_objectText_iff.mpr hu, [], ?_, rfl⟩
  rw [objectText, skip_cons rfl]
  exact .object (Members.of_plain hn hs)

/-- Other strings may not. -/
theorem plain_of_objectText (hn : ∀ m' ∈ m :: ms, IsPlainText m'.1)
    (h : IsText (objectText m ms) (.object members)) (hk : Kept (m :: ms) members) :
    ∀ m' ∈ m :: ms, IsPlainText m'.2 := by
  obtain ⟨_, rest, hv, _⟩ := h
  rw [objectText, skip_cons rfl] at hv
  rcases hv.of_beginObject with hend | hm
  · rw [memberText, skip_cons rfl] at hend
    exact absurd (List.cons.inj hend).1 (by decide)
  · exact hm.plain_of_kept hn hk

end JsonText

end MuduoPlus
