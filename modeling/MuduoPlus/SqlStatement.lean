import MuduoPlus.ListTools
import MuduoPlus.SqlText

namespace MuduoPlus

/-- A value of an `INSERT`: a literal, or the text of a number. -/
inductive SqlValue where
  | string (value : Bytes)
  | number (text : Bytes)
  deriving DecidableEq, Repr

/-- `SELECT * … WHERE column='value'`; where it is sorted, the column to sort by in descending
order, the limit and the offset. -/
structure SqlSelect where
  column : Bytes
  value : Bytes
  page : Option (Bytes × Nat × Nat)

/-- What stands behind `as`. -/
def behind {α : Type} [DecidableEq α] : List α → List α → Option (List α)
  | [], xs => some xs
  | _ :: _, [] => none
  | a :: as, x :: xs => if x = a then behind as xs else none

def SqlToken.byte? : SqlToken → Option UInt8
  | .byte b => some b
  | .literal _ => none

/-- A text without literals. -/
def readBytes (ts : List SqlToken) : Option Bytes := ts.mapM SqlToken.byte?

def readNumber (s : Bytes) : Option Nat :=
  if s ≠ [] ∧ s.all isDigit then some (digitsValue s) else none

def readValue : List SqlToken → Option SqlValue
  | [.literal value] => some (.string value)
  | ts => (readBytes ts).map .number

/-- The columns of an `INSERT` into `table`, and the values for them. -/
def readInsert (table : Bytes) (ts : List SqlToken) : Option (List Bytes × List SqlValue) := do
  let ts ← behind ((ascii "INSERT INTO " ++ table ++ ascii " (").map .byte) ts
  let (columns, ts) ← cutAt (.byte 41) ts
  let columns ← readBytes columns
  let ts ← behind ((ascii " VALUES (").map .byte) ts
  let (values, ts) ← cutAt (.byte 41) ts
  let values ← (values.splitOn (.byte 44)).mapM readValue
  if ts = [] then some (columns.splitOn 44, values) else none

/-- `ORDER BY column DESC LIMIT limit OFFSET offset`. -/
def readPage (s : Bytes) : Option (Bytes × Nat × Nat) := do
  let s ← behind (ascii " ORDER BY ") s
  let (column, s) ← cutAt 32 s
  let s ← behind (ascii "DESC LIMIT ") s
  let (limit, s) ← cutAt 32 s
  let limit ← readNumber limit
  let s ← behind (ascii "OFFSET ") s
  let offset ← readNumber s
  some (column, limit, offset)

def readSelect (table : Bytes) (ts : List SqlToken) : Option SqlSelect := do
  let ts ← behind ((ascii "SELECT * FROM " ++ table ++ ascii " WHERE ").map .byte) ts
  let (column, ts) ← cutAt (.byte 61) ts
  let column ← readBytes column
  match ts with
  | [.literal value] => some ⟨column, value, none⟩
  | .literal value :: ts => do
    let s ← readBytes ts
    let page ← readPage s
    some ⟨column, value, some page⟩
  | _ => none

/-- A value as it is written. -/
def SqlValue.tokens : SqlValue → List SqlToken
  | .string value => [.literal value]
  | .number text => text.map .byte

/-- An `INSERT` as it is written. -/
def insertTokens (table : Bytes) (columns : List Bytes) (values : List SqlValue) : List SqlToken :=
  (ascii "INSERT INTO " ++ table ++ ascii " (").map .byte ++
    (([44].intercalate columns).map .byte ++ .byte 41 ::
      ((ascii " VALUES (").map .byte ++
        ([.byte 44].intercalate (values.map SqlValue.tokens) ++ [.byte 41])))

def pageText (page : Bytes × Nat × Nat) : Bytes :=
  ascii " ORDER BY " ++ (page.1 ++ 32 :: (ascii "DESC LIMIT " ++ (decimal page.2.1 ++
    32 :: (ascii "OFFSET " ++ decimal page.2.2))))

/-- A `SELECT` as it is written. -/
def SqlSelect.tokens (table : Bytes) (q : SqlSelect) : List SqlToken :=
  (ascii "SELECT * FROM " ++ table ++ ascii " WHERE ").map .byte ++
    (q.column.map .byte ++ .byte 61 :: .literal q.value ::
      (match q.page with
        | none => []
        | some page => (pageText page).map .byte))

theorem behind_append {α : Type} [DecidableEq α] (as xs : List α) :
    behind as (as ++ xs) = some xs := by
  induction as with
  | nil => rfl
  | cons a as ih =>
    rw [List.cons_append, behind, if_pos rfl]
    exact ih

section Read

theorem readBytes_map (s : Bytes) : readBytes (s.map .byte) = some s :=
  mapM_map_some (f := SqlToken.byte?) (g := SqlToken.byte) (fun _ _ => rfl)

theorem byte_mem_map {b : UInt8} {s : Bytes} : SqlToken.byte b ∈ s.map .byte ↔ b ∈ s := by
  simp

theorem readNumber_decimal (n : Nat) : readNumber (decimal n) = some n := by
  rw [readNumber, if_pos ⟨decimal_ne_nil n, List.all_eq_true.mpr isDigit_decimal⟩,
    digitsValue_decimal]

theorem readValue_tokens (v : SqlValue) : readValue v.tokens = some v := by
  cases v with
  | string value => rfl
  | number text =>
    have hbytes := congrArg (Option.map SqlValue.number) (readBytes_map text)
    match text with
    | [] => rfl
    | [b] => exact hbytes
    | b :: b' :: text => exact hbytes

/-- An `INSERT` is read as it was written, if no name and no number has a comma or a bracket. -/
theorem readInsert_tokens {table : Bytes} {columns : List Bytes} {values : List SqlValue}
    (hcolumns : columns ≠ []) (hnames : ∀ name ∈ columns, 44 ∉ name ∧ 41 ∉ name)
    (hvalues : values ≠ [])
    (hnumbers : ∀ v ∈ values, .byte 44 ∉ v.tokens ∧ .byte 41 ∉ v.tokens) :
    readInsert table (insertTokens table columns values) = some (columns, values) := by
  have hnobracket : SqlToken.byte 41 ∉ ([44].intercalate columns).map .byte := by
    rw [byte_mem_map]
    exact not_mem_intercalate (by decide) fun name hname => (hnames name hname).2
  have htokens : ∀ l ∈ values.map SqlValue.tokens, .byte 44 ∉ l ∧ .byte 41 ∉ l := by
    intro l hl
    obtain ⟨v, hv, rfl⟩ := List.mem_map.mp hl
    exact hnumbers v hv
  have hinside : SqlToken.byte 41 ∉ [SqlToken.byte 44].intercalate (values.map SqlValue.tokens) :=
    not_mem_intercalate (by decide) fun l hl => (htokens l hl).2
  have hsplit := List.splitOn_intercalate 44 (fun name hname => (hnames name hname).1) hcolumns
  have hsplit' := List.splitOn_intercalate (SqlToken.byte 44) (fun l hl => (htokens l hl).1)
    (by simpa using hvalues)
  have hread : (values.map SqlValue.tokens).mapM readValue = some values :=
    mapM_map_some fun v _ => readValue_tokens v
  simp only [readInsert, insertTokens, behind_append, cutAt_append hnobracket,
    cutAt_append hinside, readBytes_map, hsplit, hsplit', hread, Option.bind_eq_bind,
    Option.bind_some, if_true]

theorem readPage_pageText {page : Bytes × Nat × Nat} (h : 32 ∉ page.1) :
    readPage (pageText page) = some page := by
  have hlimit : (32 : UInt8) ∉ decimal page.2.1 := not_mem_decimal (by decide) _
  simp only [readPage, pageText, behind_append, cutAt_append h, cutAt_append hlimit,
    readNumber_decimal, Option.bind_eq_bind, Option.bind_some]

/-- So is a `SELECT`. -/
theorem readSelect_tokens {table : Bytes} {q : SqlSelect} (hcolumn : 61 ∉ q.column)
    (hpage : ∀ page ∈ q.page, 32 ∉ page.1) : readSelect table (q.tokens table) = some q := by
  have hcut : SqlToken.byte 61 ∉ q.column.map .byte := by
    rw [byte_mem_map]
    exact hcolumn
  obtain ⟨column, value, page⟩ := q
  simp only [readSelect, SqlSelect.tokens, behind_append, cutAt_append hcut, readBytes_map,
    Option.bind_eq_bind, Option.bind_some]
  cases page with
  | none => rfl
  | some page =>
    have hread := readPage_pageText (hpage page rfl)
    have hbytes := readBytes_map (pageText page)
    obtain ⟨b, s, hs⟩ : ∃ b s, pageText page = b :: s :=
      List.exists_cons_of_ne_nil (by simp [pageText, ascii])
    rw [hs] at hread hbytes
    simp only [hs, List.map_cons] at hbytes ⊢
    rw [hbytes, Option.bind_some, hread]
    rfl

end Read

end MuduoPlus
