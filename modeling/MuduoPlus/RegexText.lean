import MuduoPlus.Regex

namespace MuduoPlus

/-- Where the reader of a pattern stands: between two parts of it, behind a `[`, or inside a
class that began with `[^`. -/
inductive RegexPlace where
  | between
  | bracket
  | excluded (cs : List UInt8)
  deriving DecidableEq

/-- The reader of a pattern: the number of groups opened so far, what stood before each group
that is still open, and the parts read since. -/
structure RegexReader where
  place : RegexPlace
  opened : Nat
  frames : List (Nat × List (Regex UInt8))
  items : List (Regex UInt8)
  deriving DecidableEq

/-- The characters that stand for something else than themselves. -/
def isRegexMeta (b : UInt8) : Bool :=
  -- ^ $ \ . * + ? ( ) [ ] { } |
  [94, 36, 92, 46, 42, 43, 63, 40, 41, 91, 93, 123, 125, 124].contains b

namespace RegexReader

def new : RegexReader := ⟨.between, 0, [], []⟩

def add (p : RegexReader) (r : Regex UInt8) : RegexReader := { p with items := p.items ++ [r] }

/-- The last part repeated. -/
def repeatLast (p : RegexReader) : Option RegexReader :=
  match p.items.getLast? with
  | some .bol => none
  | some .eol => none
  | some r => some { p with items := p.items.dropLast ++ [.plus r] }
  | none => none

/-- One character of a pattern. Of the grammar this is what needs no more than anchors,
characters, excluded classes, groups and `+`; `none` is everything else. -/
def step (p : RegexReader) (b : UInt8) : Option RegexReader :=
  match p.place with
  | .between =>
    if b = 94 then some (p.add .bol)
    else if b = 36 then some (p.add .eol)
    else if b = 40 then
      some { p with opened := p.opened + 1, frames := (p.opened, p.items) :: p.frames, items := [] }
    else if b = 41 then
      match p.frames with
      | (index, before) :: frames =>
        some { p with frames := frames, items := before ++ [.group index (.all p.items)] }
      | [] => none
    else if b = 91 then some { p with place := .bracket }
    else if b = 43 then p.repeatLast
    else if isRegexMeta b then none
    else some (p.add (.char b))
  | .bracket => if b = 94 then some { p with place := .excluded [] } else none
  | .excluded cs =>
    if b = 93 then some { p.add (.notIn cs) with place := .between }
    -- an escape, a range or a named class
    else if b = 92 ∨ b = 45 ∨ b = 91 then none
    else some { p with place := .excluded (cs ++ [b]) }

/-- At the end of the pattern every group and class is closed. -/
def finish (p : RegexReader) : Option (Regex UInt8 × Nat) :=
  match p.place, p.frames with
  | .between, [] => some (.all p.items, p.opened)
  | _, _ => none

def read (p : RegexReader) (text : List UInt8) : Option RegexReader :=
  text.foldlM step p

theorem read_append (p : RegexReader) (s t : List UInt8) :
    p.read (s ++ t) = (p.read s).bind fun q => q.read t :=
  List.foldlM_append

theorem read_cons (p : RegexReader) (b : UInt8) (s : List UInt8) :
    p.read (b :: s) = (p.step b).bind fun q => q.read s := rfl

/-- A character that stands for itself. -/
theorem step_plain {p : RegexReader} (hp : p.place = .between) {b : UInt8}
    (hb : isRegexMeta b = false) : p.step b = some (p.add (.char b)) := by
  have hne : ∀ m : UInt8, isRegexMeta m = true → b ≠ m := by
    rintro m hm rfl
    rw [hb] at hm
    exact absurd hm Bool.false_ne_true
  rw [step, hp]
  simp only
  rw [if_neg (hne 94 (by decide)), if_neg (hne 36 (by decide)), if_neg (hne 40 (by decide)),
    if_neg (hne 41 (by decide)), if_neg (hne 91 (by decide)), if_neg (hne 43 (by decide)), hb]
  rfl

/-- Text that stands for itself. -/
theorem read_plain {p : RegexReader} (hp : p.place = .between) {text : List UInt8}
    (htext : ∀ b ∈ text, isRegexMeta b = false) :
    p.read text = some { p with items := p.items ++ text.map .char } := by
  induction text generalizing p with
  | nil =>
    rw [List.map_nil, List.append_nil]
    rfl
  | cons b text ih =>
    have hq : (p.add (.char b)).place = .between := hp
    rw [read_cons, step_plain hp (htext b List.mem_cons_self), Option.bind_some,
      ih hq fun b' hb' => htext b' (List.mem_cons_of_mem b hb')]
    simp [add]

end RegexReader

/-- The expression a text stands for, with the number of its groups. -/
def parseRegex (text : List UInt8) : Option (Regex UInt8 × Nat) :=
  (RegexReader.new.read text).bind RegexReader.finish

end MuduoPlus
