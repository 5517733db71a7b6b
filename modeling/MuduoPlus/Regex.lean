import Mathlib.Data.List.Basic
import Mathlib.Logic.Function.Basic

namespace MuduoPlus

/-- Regular expressions with greedy repetition and numbered groups. -/
inductive Regex (α : Type) where
  | char (c : α)
  | notIn (cs : List α)
  | plus (r : Regex α)
  | group (index : Nat) (r : Regex α)
  | bol
  | eol
  | empty
  | seq (r s : Regex α)
  deriving DecidableEq

/-- Where a matcher stands: whether that is the start of the input, what is left of it, and
what the groups have captured so far. -/
structure RegexCursor (α : Type) where
  atStart : Bool
  rest : List α
  captures : Nat → Option (List α)

namespace RegexCursor

variable {α : Type}

def start (input : List α) : RegexCursor α := ⟨true, input, fun _ => none⟩

def moved (c : RegexCursor α) (rest : List α) : RegexCursor α := ⟨false, rest, c.captures⟩

/-- Over a word in two moves; without a word the second one is not made. -/
theorem moved_end (c : RegexCursor α) (word rest : List α) [Decidable (word = [])] :
    (if word = [] then c.moved (word ++ rest) else (c.moved (word ++ rest)).moved rest) =
      c.moved rest := by
  split
  next hnil =>
    rw [hnil]
    rfl
  next => rfl

def capture (c : RegexCursor α) (index : Nat) (text : List α) : RegexCursor α :=
  { c with captures := Function.update c.captures index (some text) }

/-- The captures inside a repeated part are taken back before it is tried again. -/
def forget (c : RegexCursor α) (indices : List Nat) : RegexCursor α :=
  { c with captures := fun i => if i ∈ indices then none else c.captures i }

theorem forget_nil (c : RegexCursor α) : c.forget [] = c := by
  simp [forget]

end RegexCursor

/-- What is still to be matched, as a function of where the matcher stands. -/
abbrev RegexContinuation (α : Type) := RegexCursor α → Option (RegexCursor α)

namespace Regex

variable {α : Type}

def groups : Regex α → List Nat
  | .plus r => r.groups
  | .group index r => index :: r.groups
  | .seq r s => r.groups ++ s.groups
  | _ => []

theorem groups_notIn (cs : List α) : (Regex.notIn cs).groups = [] := rfl

/-- As often as possible, then less often. A repetition that takes nothing is not counted, so the
length of the input bounds their number. -/
def star (m : RegexCursor α → RegexContinuation α → Option (RegexCursor α)) (indices : List Nat) :
    Nat → RegexCursor α → RegexContinuation α → Option (RegexCursor α)
  | 0, c, k => k c
  | n + 1, c, k =>
    (m (c.forget indices) fun c' =>
      if c'.rest.length < c.rest.length then star m indices n c' k else none).or (k c)

/-- The continuation cannot begin inside the class. -/
def Outside (cs : List α) (k : RegexContinuation α) : Prop :=
  ∀ c : RegexCursor α, ∀ b ∈ c.rest.head?, b ∉ cs → k c = none

/-- A repeated class is taken as far as it goes when the continuation succeeds there, or when it
cannot begin inside the class, so that taking less is in vain. -/
def Settles (cs : List α) (k : RegexContinuation α) (e : RegexCursor α) : Prop :=
  k e ≠ none ∨ Outside cs k

theorem Settles.or_eq {cs : List α} {k : RegexContinuation α} {c e : RegexCursor α}
    (hk : Settles cs k e) {b : α} (hb : b ∉ cs) (hc : b ∈ c.rest.head?) : (k e).or (k c) = k e := by
  rcases hk with hsome | houtside
  · obtain ⟨d, hd⟩ := Option.ne_none_iff_exists'.mp hsome
    rw [hd, Option.some_or]
  · rw [houtside c b hc hb, Option.or_none]

variable [DecidableEq α]

/-- The backtracking matcher: the first way to match `r` from where it stands for which the
continuation succeeds. -/
def run : Regex α → RegexCursor α → RegexContinuation α → Option (RegexCursor α)
  | .char a, c, k =>
    match c.rest with
    | b :: rest => if a = b then k (c.moved rest) else none
    | [] => none
  | .notIn cs, c, k =>
    match c.rest with
    | b :: rest => if b ∈ cs then none else k (c.moved rest)
    | [] => none
  | .plus r, c, k => r.run (c.forget r.groups) fun c' => star r.run r.groups c'.rest.length c' k
  | .group index r, c, k =>
    r.run c fun c' => k (c'.capture index (c.rest.take (c.rest.length - c'.rest.length)))
  | .bol, c, k => if c.atStart then k c else none
  | .eol, c, k => if c.rest = [] then k c else none
  | .empty, c, k => k c
  | .seq r s, c, k => r.run c fun c' => s.run c' k

/-- A match of the whole input. -/
def fullMatch (r : Regex α) (input : List α) : Option (RegexCursor α) :=
  r.run (.start input) fun c => if c.rest = [] then some c else none

/-- The input with its leftmost matches, one behind the other, replaced by `text`. -/
def replaceFrom (r : Regex α) (text : List α) : Nat → Bool → List α → List α
  | 0, _, input => input
  | n + 1, atStart, input =>
    match r.run ⟨atStart, input, fun _ => none⟩ some, input with
    | some c, b :: rest =>
      if c.rest.length < input.length then text ++ replaceFrom r text n false c.rest
      else text ++ b :: replaceFrom r text n false rest
    | some _, [] => text
    | none, b :: rest => b :: replaceFrom r text n false rest
    | none, [] => []

def replaceAll (r : Regex α) (text input : List α) : List α :=
  replaceFrom r text (input.length + 1) true input

theorem replaceFrom_match {r : Regex α} {text input : List α} {n : Nat} {atStart : Bool}
    {c : RegexCursor α} (hrun : r.run ⟨atStart, input, fun _ => none⟩ some = some c)
    (hlt : c.rest.length < input.length) :
    r.replaceFrom text (n + 1) atStart input = text ++ r.replaceFrom text n false c.rest := by
  cases input with
  | nil => exact absurd hlt (Nat.not_lt_zero _)
  | cons b rest => simp only [replaceFrom, hrun, if_pos hlt]

theorem replaceFrom_keep {r : Regex α} {text rest : List α} {n : Nat} {atStart : Bool} {b : α}
    (hrun : r.run ⟨atStart, b :: rest, fun _ => none⟩ some = none) :
    r.replaceFrom text (n + 1) atStart (b :: rest) = b :: r.replaceFrom text n false rest := by
  simp only [replaceFrom, hrun]

theorem replaceFrom_nil {r : Regex α} {text : List α} {n : Nat} {atStart : Bool}
    (hrun : r.run ⟨atStart, [], fun _ => none⟩ some = none) :
    r.replaceFrom text n atStart [] = [] := by
  cases n with
  | zero => rfl
  | succ n => simp only [replaceFrom, hrun]

/-- Several expressions in a row. -/
def all : List (Regex α) → Regex α
  | [] => .empty
  | r :: rs => .seq r (all rs)

section Run

variable {c : RegexCursor α} {k : RegexContinuation α} {cs : List α} {word rest : List α}

theorem run_char_cons (a : α) (hrest : c.rest = a :: rest) :
    (Regex.char a).run c k = k (c.moved rest) := by
  rw [run, hrest]
  simp

theorem run_char_ne {a : α} (h : c.rest.head? ≠ some a) : (Regex.char a).run c k = none := by
  rw [run]
  cases hrest : c.rest with
  | nil => rfl
  | cons b rest =>
    rw [hrest] at h
    have hne : ¬a = b := by
      rintro rfl
      exact h rfl
    simp [hne]

theorem run_notIn_cons {b : α} (hb : b ∉ cs) (hrest : c.rest = b :: rest) :
    (Regex.notIn cs).run c k = k (c.moved rest) := by
  rw [run, hrest]
  simp [hb]

theorem run_notIn_stop (h : ∀ b ∈ c.rest.head?, b ∈ cs) : (Regex.notIn cs).run c k = none := by
  rw [run]
  cases hrest : c.rest with
  | nil => rfl
  | cons b rest =>
    rw [hrest] at h
    simp [h b rfl]

theorem star_notIn {n : Nat} (hk : Settles cs k (if word = [] then c else c.moved rest))
    (hword : ∀ b ∈ word, b ∉ cs) (hrest : ∀ b ∈ rest.head?, b ∈ cs) (hc : c.rest = word ++ rest)
    (hn : word.length ≤ n) :
    star (Regex.notIn cs).run [] n c k = k (if word = [] then c else c.moved rest) := by
  induction word generalizing n c with
  | nil =>
    cases n with
    | zero => rfl
    | succ n =>
      rw [star, RegexCursor.forget_nil, run_notIn_stop (by rw [hc]; exact hrest)]
      rfl
  | cons b word ih =>
    rw [List.length_cons] at hn
    obtain ⟨n, rfl⟩ : ∃ m, n = m + 1 := ⟨n - 1, by omega⟩
    have hb : b ∉ cs := hword b List.mem_cons_self
    have hc' : c.rest = b :: (word ++ rest) := hc
    have hend := RegexCursor.moved_end c word rest
    rw [if_neg (List.cons_ne_nil b word)] at hk ⊢
    have hmore := ih (c := c.moved (word ++ rest)) (n := n) (by rw [hend]; exact hk)
      (fun b' hb' => hword b' (List.mem_cons_of_mem b hb')) rfl (by omega)
    have hlt : (c.moved (word ++ rest)).rest.length < c.rest.length := by
      rw [hc, RegexCursor.moved]
      simp
    rw [star, RegexCursor.forget_nil, run_notIn_cons hb hc', if_pos hlt,
      hmore, hend]
    exact hk.or_eq hb (by rw [hc]; rfl)

theorem run_plus (r : Regex α) (c : RegexCursor α) (k : RegexContinuation α) :
    (Regex.plus r).run c k =
      r.run (c.forget r.groups) fun c' => star r.run r.groups c'.rest.length c' k := rfl

theorem run_plus_notIn (hk : Settles cs k (c.moved rest)) (hne : word ≠ [])
    (hword : ∀ b ∈ word, b ∉ cs) (hrest : ∀ b ∈ rest.head?, b ∈ cs) (hc : c.rest = word ++ rest) :
    (Regex.plus (.notIn cs)).run c k = k (c.moved rest) := by
  obtain ⟨b, word, rfl⟩ := List.exists_cons_of_ne_nil hne
  have hb : b ∉ cs := hword b List.mem_cons_self
  have hc' : c.rest = b :: (word ++ rest) := hc
  have hend := RegexCursor.moved_end c word rest
  have hmore := star_notIn (c := c.moved (word ++ rest)) (n := (word ++ rest).length)
    (by rw [hend]; exact hk) (fun b' hb' => hword b' (List.mem_cons_of_mem b hb')) hrest rfl
    (by simp)
  rw [run_plus, groups_notIn, RegexCursor.forget_nil, run_notIn_cons hb hc']
  rw [hend] at hmore
  exact hmore

theorem run_plus_notIn_stop (h : ∀ b ∈ c.rest.head?, b ∈ cs) :
    (Regex.plus (.notIn cs)).run c k = none := by
  rw [run_plus, groups_notIn, RegexCursor.forget_nil, run_notIn_stop h]

/-- The same in a group, which captures the whole of it. -/
theorem run_group_plus_notIn (index : Nat)
    (hk : Settles cs k ((c.moved rest).capture index word)) (hne : word ≠ [])
    (hword : ∀ b ∈ word, b ∉ cs) (hrest : ∀ b ∈ rest.head?, b ∈ cs) (hc : c.rest = word ++ rest) :
    (Regex.group index (all [.plus (.notIn cs)])).run c k =
      k ((c.moved rest).capture index word) := by
  have htake : c.rest.take (c.rest.length - (c.moved rest).rest.length) = word := by
    rw [hc]
    simp [RegexCursor.moved]
  have hk' : Settles cs
      (fun c' => k (c'.capture index (c.rest.take (c.rest.length - c'.rest.length))))
      (c.moved rest) := by
    rcases hk with hsome | houtside
    · left
      change k ((c.moved rest).capture index
        (c.rest.take (c.rest.length - (c.moved rest).rest.length))) ≠ none
      rw [htake]
      exact hsome
    · right
      intro c' b hb hnot
      exact houtside _ b hb hnot
  have hplus := run_plus_notIn hk' hne hword hrest hc
  rw [htake] at hplus
  exact hplus

theorem run_group_plus_notIn_stop {index : Nat} (h : ∀ b ∈ c.rest.head?, b ∈ cs) :
    (Regex.group index (all [.plus (.notIn cs)])).run c k = none :=
  run_plus_notIn_stop h

theorem run_all_cons (r : Regex α) (rs : List (Regex α)) (c : RegexCursor α)
    (k : RegexContinuation α) :
    (all (r :: rs)).run c k = r.run c fun c' => (all rs).run c' k := rfl

theorem run_all_append (rs ss : List (Regex α)) (c : RegexCursor α) (k : RegexContinuation α) :
    (all (rs ++ ss)).run c k = (all rs).run c fun c' => (all ss).run c' k := by
  induction rs generalizing c with
  | nil => rfl
  | cons r rs ih =>
    rw [List.cons_append, run_all_cons, run_all_cons]
    congr 1
    funext c'
    exact ih c'

/-- A word as a row of characters. -/
theorem run_word (word : List α) (hc : c.rest = word ++ rest) (hne : word ≠ []) :
    (all (word.map Regex.char)).run c k = k (c.moved rest) := by
  induction word generalizing c with
  | nil => exact absurd rfl hne
  | cons b word ih =>
    have hc' : c.rest = b :: (word ++ rest) := hc
    rw [List.map_cons, run_all_cons, run_char_cons b hc']
    by_cases hnil : word = []
    · subst hnil
      rfl
    · exact ih (c := c.moved (word ++ rest)) rfl hnil

theorem run_word_ne (word : List α) (h : ¬word <+: c.rest) :
    (all (word.map Regex.char)).run c k = none := by
  induction word generalizing c with
  | nil => exact absurd List.nil_prefix h
  | cons b word ih =>
    rw [List.map_cons, run_all_cons]
    by_cases hb : c.rest.head? = some b
    · obtain ⟨rest, hrest⟩ := List.head?_eq_some_iff.mp hb
      rw [run_char_cons b hrest]
      apply ih
      intro hp
      apply h
      rw [hrest]
      exact (List.prefix_cons_inj b).mpr hp
    · exact run_char_ne hb

end Run

end Regex

end MuduoPlus
