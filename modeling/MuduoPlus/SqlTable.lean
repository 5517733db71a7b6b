import Mathlib.Data.List.Sort
import MuduoPlus.SqlStatement
import MuduoPlus.SqlTime

namespace MuduoPlus

/-- The character set of the text columns: how many characters a string has in it, unless it is
malformed. -/
structure Charset where
  chars : Bytes → Option Nat
  chars_ascii : ∀ s, (∀ b ∈ s, b < 128) → chars s = some s.length

/-- One byte for each character. -/
def singleByte : Charset := ⟨fun s => some s.length, fun _ _ => rfl⟩

/-- The string has at most `n` characters. -/
def Charset.AtMost (charset : Charset) (n : Nat) (s : Bytes) : Prop :=
  ∃ k ∈ charset.chars s, k ≤ n

instance (charset : Charset) (n : Nat) (s : Bytes) : Decidable (charset.AtMost n s) := by
  unfold Charset.AtMost
  infer_instance

inductive SqlType where
  | varchar (n : Nat)
  | text
  | int
  | double
  | datetime
  deriving DecidableEq, Repr

structure SqlColumn where
  name : Bytes
  type : SqlType
  notNull : Bool := true
  deriving DecidableEq, Repr

/-- What stands in a row under a column; a time is in seconds since the epoch. -/
inductive SqlCell where
  | null
  | string (value : Bytes)
  | int (value : Int32)
  | double (value : Float)
  | datetime (seconds : Int)
  deriving DecidableEq

/-- A `double` from its text; `nan` and `inf` are not numbers to the database. -/
def sqlNumber (s : Bytes) : Option Float :=
  let (negative, digits) := splitSign s
  (readDecimal digits).map fun (n, k) =>
    signed negative (Float.ofScientific n (decide (k < 0)) k.natAbs)

/-- What a column makes of a value, in strict mode: a value that does not fit is refused, and none
is converted from another kind. -/
def SqlType.store (charset : Charset) : SqlType → SqlValue → Option SqlCell
  | .varchar n, .string value => if charset.AtMost n value then some (.string value) else none
  | .text, .string value =>
    if (charset.chars value).isSome ∧ value.length < 2 ^ 16 then some (.string value) else none
  | .int, .number s =>
    (readNumber s).bind fun n => if n < 2 ^ 31 then some (.int (Int32.ofNat n)) else none
  | .double, .number s => (sqlNumber s).map .double
  | .datetime, .string value => (sqlDatetime value).map .datetime
  | _, _ => none

/-- The cells that a column of a type can have. -/
def SqlType.Holds (charset : Charset) : SqlType → SqlCell → Prop
  | .varchar n, .string value => charset.AtMost n value
  | .text, .string value => (charset.chars value).isSome = true ∧ value.length < 2 ^ 16
  | .int, .int _ => True
  | .double, .double _ => True
  | .datetime, .datetime seconds => -2 ^ 63 ≤ seconds ∧ seconds < 2 ^ 63
  | _, _ => False

namespace SqlColumn

variable (charset : Charset) (c : SqlColumn)

/-- The cell of a row for the value an `INSERT` gives, if it gives one. -/
def cell : Option SqlValue → Option SqlCell
  | some v => c.type.store charset v
  | none => if c.notNull then none else some .null

def Holds (cell : SqlCell) : Prop := c.type.Holds charset cell ∨ cell = .null ∧ c.notNull = false

end SqlColumn

/-- A row: the names of the columns, and what it has under them. -/
abbrev SqlRow := List (Bytes × SqlCell)

def SqlRow.get (row : SqlRow) (name : Bytes) : Option SqlCell := row.lookup name

/-- The time under a column, unless it is `NULL`. -/
def SqlRow.time (row : SqlRow) (name : Bytes) : Option Int :=
  match row.get name with
  | some (.datetime seconds) => some seconds
  | _ => none

/-- Whether a row may stand before another one by `ORDER BY name DESC`; `NULL` is the least. -/
def SqlRow.leads (name : Bytes) (row row' : SqlRow) : Bool :=
  match row.time name, row'.time name with
  | some seconds, some seconds' => decide (seconds' ≤ seconds)
  | none, some _ => false
  | _, none => true

/-- `CREATE TABLE`. -/
structure SqlSchema where
  columns : List SqlColumn
  primaryKey : Bytes

namespace SqlSchema

variable (charset : Charset) (schema : SqlSchema)

/-- The row has the columns of the table, and under each what it can hold. -/
def Conforms (row : SqlRow) : Prop :=
  List.Forall₂ (fun c p => p.1 = c.name ∧ c.Holds charset p.2) schema.columns row

/-- The row of an `INSERT`, if every value goes to a column and is accepted there. -/
def row (names : List Bytes) (values : List SqlValue) : Option SqlRow :=
  if names.length = values.length ∧ names.Nodup ∧
      ∀ name ∈ names, name ∈ schema.columns.map (·.name) then
    schema.columns.mapM fun c =>
      (c.cell charset ((names.zip values).lookup c.name)).map fun cell => (c.name, cell)
  else none

end SqlSchema

/-- A table of the database. -/
structure SqlTable (charset : Charset) (schema : SqlSchema) where
  rows : List SqlRow
  conforms : ∀ row ∈ rows, schema.Conforms charset row
  keys : (rows.map (SqlRow.get · schema.primaryKey)).Nodup

/-- The rows that a `SELECT` finds. -/
def SqlSelect.rows (q : SqlSelect) (rows : List SqlRow) : List SqlRow :=
  let found := rows.filter fun row => row.get q.column = some (.string q.value)
  match q.page with
  | none => found
  | some (order, limit, offset) =>
    ((found.insertionSort fun row row' => row.leads order row' = true).drop offset).take limit

section Store

variable {charset : Charset} {schema : SqlSchema} {row : SqlRow}

theorem SqlType.holds_of_store {type : SqlType} {v : SqlValue} {cell : SqlCell}
    (h : type.store charset v = some cell) : type.Holds charset cell := by
  cases type with
  | varchar n =>
    cases v with
    | string value =>
      rw [SqlType.store] at h
      split at h
      next hfits => cases Option.some.inj h; exact hfits
      next => cases h
    | number s => cases h
  | text =>
    cases v with
    | string value =>
      rw [SqlType.store] at h
      split at h
      next hfits => cases Option.some.inj h; exact hfits
      next => cases h
    | number s => cases h
  | int =>
    cases v with
    | string value => cases h
    | number s =>
      obtain ⟨n, _, hn⟩ := Option.bind_eq_some_iff.mp h
      split at hn
      next => cases Option.some.inj hn; trivial
      next => cases hn
  | double =>
    cases v with
    | string value => cases h
    | number s =>
      obtain ⟨x, _, rfl⟩ := Option.map_eq_some_iff.mp h
      trivial
  | datetime =>
    cases v with
    | string value =>
      obtain ⟨seconds, hseconds, rfl⟩ := Option.map_eq_some_iff.mp h
      exact sqlDatetime_bounds hseconds
    | number s => cases h

theorem SqlColumn.holds_of_cell {c : SqlColumn} {v : Option SqlValue} {cell : SqlCell}
    (h : c.cell charset v = some cell) : c.Holds charset cell := by
  cases v with
  | some v => exact .inl (SqlType.holds_of_store h)
  | none =>
    rw [SqlColumn.cell] at h
    split at h
    next => cases h
    next hnull =>
      cases Option.some.inj h
      exact .inr ⟨rfl, by simpa using hnull⟩

theorem SqlSchema.conforms_of_row {names : List Bytes} {values : List SqlValue}
    (h : schema.row charset names values = some row) : schema.Conforms charset row := by
  rw [SqlSchema.row] at h
  split at h
  next =>
    refine (mapM_eq_some_iff.mp h).imp ?_
    intro c p hp
    obtain ⟨cell, hcell, rfl⟩ := Option.map_eq_some_iff.mp hp
    exact ⟨rfl, SqlColumn.holds_of_cell hcell⟩
  next => cases h

end Store

namespace SqlTable

variable {charset : Charset} {schema : SqlSchema}

def insert (t : SqlTable charset schema) (row : SqlRow) (h : schema.Conforms charset row) :
    Option (SqlTable charset schema) :=
  if hkey : row.get schema.primaryKey ∈ t.rows.map (SqlRow.get · schema.primaryKey) then none
  else some {
    rows := t.rows ++ [row]
    conforms := by
      intro row' hrow'
      rcases List.mem_append.mp hrow' with hold | hnew
      · exact t.conforms row' hold
      · exact List.mem_singleton.mp hnew ▸ h
    keys := by
      rw [List.map_append]
      refine t.keys.append (List.nodup_singleton _) ?_
      intro key hold hnew
      rw [List.mem_singleton.mp hnew] at hold
      exact hkey hold }

/-- `INSERT`, with the number of rows it adds; `none` stands for an exception. -/
def store (t : SqlTable charset schema) (names : List Bytes) (values : List SqlValue) :
    Option (Nat × SqlTable charset schema) :=
  match h : schema.row charset names values with
  | none => none
  | some row => (t.insert row (SqlSchema.conforms_of_row h)).map fun t' => (1, t')

/-- The `INSERT` of a text. -/
def update (name sql : Bytes) (t : SqlTable charset schema) :
    Option (Nat × SqlTable charset schema) :=
  ((sqlTokens sql).bind (readInsert name)).bind fun (names, values) => t.store names values

/-- The `SELECT` of a text. -/
def query (name sql : Bytes) (t : SqlTable charset schema) : Option (List SqlRow) :=
  ((sqlTokens sql).bind (readSelect name)).bind fun q =>
    if q.column ∈ schema.columns.map (·.name) ∧
        ∀ page ∈ q.page, page.1 ∈ schema.columns.map (·.name) then
      some (q.rows t.rows)
    else none

section Exec

variable {t : SqlTable charset schema} {names : List Bytes} {values : List SqlValue} {row : SqlRow}

theorem update_of_read {name sql : Bytes}
    (hread : (sqlTokens sql).bind (readInsert name) = some (names, values)) :
    t.update name sql = t.store names values := by
  rw [update, hread]
  rfl

theorem store_refused (hrow : schema.row charset names values = none) :
    t.store names values = none := by
  unfold store
  split
  next => rfl
  next row hsome => rw [hrow] at hsome; cases hsome

theorem store_duplicate (hrow : schema.row charset names values = some row)
    (hold : row.get schema.primaryKey ∈ t.rows.map (SqlRow.get · schema.primaryKey)) :
    t.store names values = none := by
  unfold store
  split
  next => rfl
  next row' hsome =>
    obtain rfl : row' = row := Option.some.inj (hsome.symm.trans hrow)
    rw [insert, dif_pos hold]
    rfl

theorem store_new (hrow : schema.row charset names values = some row)
    (hnew : row.get schema.primaryKey ∉ t.rows.map (SqlRow.get · schema.primaryKey)) :
    ∃ t', t.store names values = some (1, t') ∧ t'.rows = t.rows ++ [row] := by
  unfold store
  split
  next hnone => rw [hrow] at hnone; cases hnone
  next row' hsome =>
    obtain rfl : row' = row := Option.some.inj (hsome.symm.trans hrow)
    rw [insert, dif_neg hnew]
    exact ⟨_, rfl, rfl⟩

end Exec

end SqlTable

section Rows

variable {charset : Charset} {schema : SqlSchema}

theorem SqlSchema.map_fst_of_conforms {row : SqlRow} (h : schema.Conforms charset row) :
    row.map Prod.fst = schema.columns.map (·.name) := by
  have hsame : List.Forall₂ Eq (schema.columns.map (·.name)) (row.map Prod.fst) := by
    rw [List.forall₂_map_left_iff, List.forall₂_map_right_iff]
    exact h.imp fun _ _ hp => hp.1.symm
  rw [List.forall₂_eq_eq_eq] at hsame
  exact hsame.symm

theorem SqlRow.get_eq {row : SqlRow} {name : Bytes} {cell : SqlCell}
    (hkeys : (row.map Prod.fst).Nodup) (hmem : (name, cell) ∈ row) : row.get name = some cell :=
  lookup_of_nodup hkeys hmem

/-- A row of the table has something under each column. -/
theorem SqlSchema.get_of_conforms {row : SqlRow} {c : SqlColumn}
    (hnames : (schema.columns.map (·.name)).Nodup) (h : schema.Conforms charset row)
    (hc : c ∈ schema.columns) : ∃ cell, row.get c.name = some cell ∧ c.Holds charset cell := by
  have hkeys : (row.map Prod.fst).Nodup := by
    rw [map_fst_of_conforms h]
    exact hnames
  obtain ⟨p, hp, hname, hholds⟩ := exists_of_forall₂ h hc
  refine ⟨p.2, SqlRow.get_eq hkeys ?_, hholds⟩
  rw [← hname]
  exact hp

/-- An `INSERT` that lists all columns in the order of the table. -/
theorem SqlSchema.row_aligned {values : List SqlValue}
    (hnames : (schema.columns.map (·.name)).Nodup)
    (hlength : schema.columns.length = values.length) :
    schema.row charset (schema.columns.map (·.name)) values =
      (schema.columns.zip values).mapM fun p =>
        (p.1.type.store charset p.2).map fun cell => (p.1.name, cell) := by
  have hfst : (schema.columns.zip values).map Prod.fst = schema.columns :=
    List.map_fst_zip (by omega)
  have hkeys : (((schema.columns.map (·.name)).zip values).map Prod.fst).Nodup := by
    rw [List.map_fst_zip (by simp [hlength])]
    exact hnames
  rw [SqlSchema.row, if_pos ⟨by simp [hlength], hnames, fun _ hname => hname⟩]
  nth_rewrite 2 [← hfst]
  apply mapM_map_congr
  rintro ⟨c, v⟩ hp
  have hmem : (c.name, v) ∈ (schema.columns.map (·.name)).zip values := by
    rw [List.zip_map_left]
    exact List.mem_map_of_mem hp
  rw [lookup_of_nodup hkeys hmem]
  rfl

theorem SqlSelect.mem_of_mem_rows {q : SqlSelect} {rows : List SqlRow} {row : SqlRow}
    (h : row ∈ q.rows rows) : row ∈ rows ∧ row.get q.column = some (.string q.value) := by
  have hfound : row ∈ rows.filter fun row => row.get q.column = some (.string q.value) := by
    unfold SqlSelect.rows at h
    split at h
    next => exact h
    next => exact (List.mem_insertionSort _).mp (List.mem_of_mem_drop (List.mem_of_mem_take h))
  simpa using hfound

end Rows

end MuduoPlus
