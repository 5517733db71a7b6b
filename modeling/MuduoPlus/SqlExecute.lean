import MuduoPlus.SqlChange

namespace MuduoPlus

/-- The row with another cell under a column. -/
def SqlRow.set (row : SqlRow) (name : Bytes) (cell : SqlCell) : SqlRow :=
  row.map fun p => if p.1 = name then (name, cell) else p

/-- The row with other cells, set one after the other. -/
def SqlRow.setAll (row : SqlRow) (cells : List (Bytes × SqlCell)) : SqlRow :=
  cells.foldl (fun row cell => row.set cell.1 cell.2) row

namespace SqlRow

variable {row : SqlRow} {name name' : Bytes} {cell : SqlCell} {cells : List (Bytes × SqlCell)}

theorem map_fst_set : (row.set name cell).map Prod.fst = row.map Prod.fst := by
  rw [SqlRow.set, List.map_map]
  apply List.map_congr_left
  intro p _
  dsimp only [Function.comp]
  split
  next hp => exact hp.symm
  next => rfl

theorem get_set_self (h : name ∈ row.map Prod.fst) : (row.set name cell).get name = some cell := by
  induction row with
  | nil => cases h
  | cons p row ih =>
    by_cases hp : p.1 = name
    · simp [SqlRow.set, SqlRow.get, hp]
    · have hrest : name ∈ row.map Prod.fst := by
        rw [List.map_cons, List.mem_cons] at h
        exact h.resolve_left (Ne.symm hp)
      have hlookup := ih hrest
      simp only [SqlRow.set, SqlRow.get, List.map_cons, hp, if_false] at hlookup ⊢
      rw [List.lookup_cons, beq_false_of_ne (Ne.symm hp)]
      exact hlookup

theorem get_set_ne (h : name' ≠ name) : (row.set name cell).get name' = row.get name' := by
  induction row with
  | nil => rfl
  | cons p row ih =>
    obtain ⟨key, value⟩ := p
    simp only [SqlRow.set, SqlRow.get, List.map_cons] at ih ⊢
    rw [List.lookup_cons]
    by_cases hp : key = name
    · subst hp
      rw [if_pos rfl, List.lookup_cons, beq_false_of_ne h]
      exact ih
    · rw [if_neg hp, List.lookup_cons, ih]

theorem get_set (h : name ∈ row.map Prod.fst) :
    (row.set name cell).get name' = if name' = name then some cell else row.get name' := by
  split
  next he => rw [he, get_set_self h]
  next hne => exact get_set_ne hne

theorem get_setAll_ne (h : name' ∉ cells.map Prod.fst) :
    (row.setAll cells).get name' = row.get name' := by
  induction cells generalizing row with
  | nil => rfl
  | cons cell cells ih =>
    rw [List.map_cons, List.mem_cons, not_or] at h
    exact (ih h.2).trans (get_set_ne h.1)

end SqlRow

namespace SqlSchema

variable {charset : Charset} {schema : SqlSchema} {row : SqlRow} {name : Bytes} {cell : SqlCell}

/-- Every column of the name can hold the cell. -/
def Accepts (charset : Charset) (schema : SqlSchema) (cell : Bytes × SqlCell) : Prop :=
  ∀ c ∈ schema.columns, c.name = cell.1 → c.Holds charset cell.2

theorem Conforms.set (h : schema.Conforms charset row) (ha : schema.Accepts charset (name, cell)) :
    schema.Conforms charset (row.set name cell) := by
  unfold Conforms Accepts at *
  generalize schema.columns = columns at h ha
  induction h with
  | nil => exact .nil
  | @cons c p columns row hp _ ih =>
    refine .cons ?_ (ih fun c' hc' => ha c' (List.mem_cons_of_mem _ hc'))
    dsimp only
    split
    next hname => exact ⟨hname.symm.trans hp.1, ha c List.mem_cons_self (hp.1.symm.trans hname)⟩
    next => exact hp

theorem Conforms.setAll {cells : List (Bytes × SqlCell)} (h : schema.Conforms charset row)
    (ha : ∀ cell ∈ cells, schema.Accepts charset cell) :
    schema.Conforms charset (row.setAll cells) := by
  induction cells generalizing row with
  | nil => exact h
  | cons cell cells ih =>
    exact ih (h.set (ha cell List.mem_cons_self)) fun c hc => ha c (List.mem_cons_of_mem _ hc)

/-- The names of the columns. -/
def names (schema : SqlSchema) : List Bytes := schema.columns.map (·.name)

/-- The cell that an assignment puts under its column at the time `now`. -/
def assign (charset : Charset) (schema : SqlSchema) (now : Int64) (set : Bytes × SqlExpr) :
    Option (Bytes × SqlCell) :=
  (schema.columns.find? (·.name = set.1)).bind fun c =>
    match set.2 with
    | .value v => (c.type.store charset v).map fun cell => (set.1, cell)
    | .now => if c.type = .datetime then some (set.1, .datetime now.toInt) else none

theorem assign_fst {now : Int64} {set : Bytes × SqlExpr} {assigned : Bytes × SqlCell}
    (h : schema.assign charset now set = some assigned) : assigned.1 = set.1 := by
  obtain ⟨c, -, h⟩ := Option.bind_eq_some_iff.mp h
  cases hexpr : set.2 with
  | value v =>
    rw [hexpr] at h
    obtain ⟨cell, -, rfl⟩ := Option.map_eq_some_iff.mp h
    rfl
  | now =>
    rw [hexpr] at h
    dsimp only at h
    split at h
    next => rw [← Option.some.inj h]
    next => cases h

/-- The column of a name. -/
theorem eq_of_find (hnames : schema.names.Nodup) {c c' : SqlColumn}
    (hfind : schema.columns.find? (·.name = name) = some c) (hc' : c' ∈ schema.columns)
    (hname : c'.name = name) : c' = c := by
  have hc := List.mem_of_find?_eq_some hfind
  have hsame : c.name = name := by simpa using List.find?_some hfind
  exact List.inj_on_of_nodup_map hnames hc' hc (hname.trans hsame.symm)

theorem find_of_mem (hnames : schema.names.Nodup) {c : SqlColumn} (hc : c ∈ schema.columns) :
    schema.columns.find? (·.name = c.name) = some c := by
  cases hfind : schema.columns.find? (·.name = c.name) with
  | none => exact absurd (List.find?_eq_none.mp hfind c hc) (by simp)
  | some c' => rw [eq_of_find hnames hfind hc rfl]

section Assign

variable (hnames : schema.names.Nodup) {c : SqlColumn} (hc : c ∈ schema.columns) (now : Int64)
include hnames hc

theorem assign_value {v : SqlValue} (hstore : c.type.store charset v = some cell) :
    schema.assign charset now (c.name, .value v) = some (c.name, cell) := by
  rw [assign, find_of_mem hnames hc, Option.bind_some]
  dsimp only
  rw [hstore]
  rfl

theorem assign_refused {v : SqlValue} (hstore : c.type.store charset v = none) :
    schema.assign charset now (c.name, .value v) = none := by
  rw [assign, find_of_mem hnames hc, Option.bind_some]
  dsimp only
  rw [hstore]
  rfl

theorem assign_now (htype : c.type = .datetime) :
    schema.assign charset now (c.name, .now) = some (c.name, .datetime now.toInt) := by
  rw [assign, find_of_mem hnames hc, Option.bind_some]
  exact if_pos htype

end Assign

theorem accepts_of_assign (hnames : schema.names.Nodup) {now : Int64} {set : Bytes × SqlExpr}
    {assigned : Bytes × SqlCell} (h : schema.assign charset now set = some assigned) :
    schema.Accepts charset assigned := by
  intro c' hc' hname
  rw [assign_fst h] at hname
  obtain ⟨c, hfind, h⟩ := Option.bind_eq_some_iff.mp h
  obtain rfl := eq_of_find hnames hfind hc' hname
  left
  cases hexpr : set.2 with
  | value v =>
    rw [hexpr] at h
    obtain ⟨cell, hstore, rfl⟩ := Option.map_eq_some_iff.mp h
    exact SqlType.holds_of_store hstore
  | now =>
    rw [hexpr] at h
    dsimp only at h
    split at h
    next htype =>
      rw [← Option.some.inj h, htype]
      exact ⟨now.le_toInt, now.toInt_lt⟩
    next => cases h

theorem accepts_of_get (hnames : schema.names.Nodup) (h : schema.Conforms charset row)
    (hget : row.get name = some cell) : schema.Accepts charset (name, cell) := by
  intro c hc hname
  obtain ⟨cell', hcell', hholds⟩ := schema.get_of_conforms hnames h hc
  rw [hname, hget] at hcell'
  rwa [Option.some.inj hcell']

end SqlSchema

namespace SqlTable

variable {charset : Charset} {schema : SqlSchema}

/-- The table with other cells in the rows of `p`; none of them is the key. -/
def rewrite (t : SqlTable charset schema) (p : SqlRow → Bool) (cells : List (Bytes × SqlCell))
    (ha : ∀ cell ∈ cells, schema.Accepts charset cell)
    (hkey : schema.primaryKey ∉ cells.map Prod.fst) : SqlTable charset schema where
  rows := t.rows.map fun row => if p row then row.setAll cells else row
  conforms := by
    intro row' hrow'
    obtain ⟨row, hrow, rfl⟩ := List.mem_map.mp hrow'
    split
    next => exact (t.conforms row hrow).setAll ha
    next => exact t.conforms row hrow
  keys := by
    rw [List.map_map]
    have hsame : ((fun row => SqlRow.get row schema.primaryKey) ∘
        fun row => if p row then row.setAll cells else row) =
        fun row => SqlRow.get row schema.primaryKey := by
      funext row
      dsimp only [Function.comp]
      split
      next => exact SqlRow.get_setAll_ne hkey
      next => rfl
    rw [hsame]
    exact t.keys

/-- The table without the rows of `p`. -/
def without (t : SqlTable charset schema) (p : SqlRow → Bool) : SqlTable charset schema where
  rows := t.rows.filter fun row => !p row
  conforms row hrow := t.conforms row (List.mem_of_mem_filter hrow)
  keys := t.keys.sublist (List.filter_sublist.map _)

/-- The rows with the string under the column. -/
def meets (column value : Bytes) (row : SqlRow) : Bool := row.get column = some (.string value)

/-- Columns that a statement may write: the primary key is left alone. -/
def overwrites (schema : SqlSchema) (names : List Bytes) : Bool :=
  decide schema.names.Nodup && !names.contains schema.primaryKey

theorem overwrites_iff {names : List Bytes} :
    overwrites schema names = true ↔ schema.names.Nodup ∧ schema.primaryKey ∉ names := by
  simp [overwrites]

/-- The columns an `UPDATE` names are those of the table. -/
def changes (schema : SqlSchema) (u : SqlUpdate) : Bool :=
  overwrites schema (u.sets.map Prod.fst) && schema.names.contains u.column &&
    u.sets.all fun set => schema.names.contains set.1

theorem changes_iff {u : SqlUpdate} : changes schema u = true ↔
    schema.names.Nodup ∧ schema.primaryKey ∉ u.sets.map Prod.fst ∧ u.column ∈ schema.names ∧
      ∀ set ∈ u.sets, set.1 ∈ schema.names := by
  rw [changes, Bool.and_eq_true, Bool.and_eq_true, overwrites_iff, List.contains_iff_mem,
    List.all_eq_true, and_assoc, and_assoc]
  simp only [List.contains_iff_mem]

/-- `UPDATE`, which counts the rows it finds. A value that does not fit its column is refused when
there is a row to put it into. -/
def change (t : SqlTable charset schema) (now : Int64) (u : SqlUpdate) :
    Option (Nat × SqlTable charset schema) :=
  if hok : changes schema u = true then
    if t.rows.countP (meets u.column u.value) = 0 then some (0, t)
    else
      match h : u.sets.mapM (schema.assign charset now) with
      | none => none
      | some cells =>
        some (t.rows.countP (meets u.column u.value),
          t.rewrite (meets u.column u.value) cells (by
            intro cell hcell
            obtain ⟨set, -, hset⟩ := exists_of_forall₂ (mapM_eq_some_iff.mp h).flip hcell
            exact SqlSchema.accepts_of_assign (changes_iff.mp hok).1 hset) (by
            have hfst : cells.map Prod.fst = u.sets.map Prod.fst := by
              rw [← List.forall₂_eq_eq_eq, List.forall₂_map_left_iff, List.forall₂_map_right_iff]
              exact (mapM_eq_some_iff.mp h).flip.imp fun _ _ hset => SqlSchema.assign_fst hset
            rw [hfst]
            exact (changes_iff.mp hok).2.1))
  else none

/-- `DELETE`. -/
def remove (t : SqlTable charset schema) (column value : Bytes) :
    Option (Nat × SqlTable charset schema) :=
  if schema.names.contains column then
    some (t.rows.countP (meets column value), t.without (meets column value))
  else none

/-- The cells of a row under some of its columns. -/
def cellsOf (row : SqlRow) (names : List Bytes) : List (Bytes × SqlCell) :=
  names.filterMap fun name => (row.get name).map fun cell => (name, cell)

theorem cellsOf_fst {row : SqlRow} {names : List Bytes} {cell : Bytes × SqlCell}
    (h : cell ∈ cellsOf row names) : cell.1 ∈ names ∧ row.get cell.1 = some cell.2 := by
  obtain ⟨name, hname, hcell⟩ := List.mem_filterMap.mp h
  obtain ⟨value, hvalue, rfl⟩ := Option.map_eq_some_iff.mp hcell
  exact ⟨hname, hvalue⟩

/-- `INSERT … ON DUPLICATE KEY UPDATE`, which counts two for a row that was there. -/
def upsert (t : SqlTable charset schema) (u : SqlUpsert) : Option (Nat × SqlTable charset schema) :=
  match h : schema.row charset u.columns u.values with
  | none => none
  | some row =>
    if (t.rows.map (SqlRow.get · schema.primaryKey)).contains (row.get schema.primaryKey) then
      if hok : overwrites schema u.overwritten = true then
        some (2, t.rewrite (fun row' => row'.get schema.primaryKey = row.get schema.primaryKey)
          (cellsOf row u.overwritten) (by
            intro cell hcell
            exact SqlSchema.accepts_of_get (overwrites_iff.mp hok).1 (SqlSchema.conforms_of_row h)
              (cellsOf_fst hcell).2)
          (by
            intro hkey
            obtain ⟨cell, hcell, hname⟩ := List.mem_map.mp hkey
            exact (overwrites_iff.mp hok).2 (hname ▸ (cellsOf_fst hcell).1)))
      else none
    else (t.insert row (SqlSchema.conforms_of_row h)).map fun t' => (1, t')

/-- The statement at the time `now`; `none` stands for an exception. -/
def execute (now : Int64) (t : SqlTable charset schema) :
    SqlChange → Option (Nat × SqlTable charset schema)
  | .insert columns values => t.store columns values
  | .upsert u => t.upsert u
  | .update u => t.change now u
  | .delete column value => t.remove column value

section Exec

variable {t : SqlTable charset schema} {now : Int64}

theorem rewrite_rows_of_none {p : SqlRow → Bool} {f : SqlRow → SqlRow} {rows : List SqlRow}
    (h : rows.countP p = 0) : rows.map (fun row => if p row then f row else row) = rows := by
  rw [List.countP_eq_zero] at h
  apply (List.map_congr_left fun row hrow => if_neg (h row hrow)).trans
  exact List.map_id'' (fun _ => rfl) rows

theorem change_stored {u : SqlUpdate} {cells : List (Bytes × SqlCell)}
    (hok : schema.names.Nodup ∧ schema.primaryKey ∉ u.sets.map Prod.fst ∧
      u.column ∈ schema.names ∧ ∀ set ∈ u.sets, set.1 ∈ schema.names)
    (hcells : u.sets.mapM (schema.assign charset now) = some cells) :
    ∃ t', t.change now u = some (t.rows.countP (meets u.column u.value), t') ∧
      t'.rows = t.rows.map fun row =>
        if meets u.column u.value row then row.setAll cells else row := by
  unfold change
  rw [dif_pos (changes_iff.mpr hok)]
  split
  next hzero => exact ⟨t, by rw [hzero], (rewrite_rows_of_none hzero).symm⟩
  next =>
    split
    next hnone => rw [hcells] at hnone; cases hnone
    next cells' hsome =>
      obtain rfl : cells' = cells := Option.some.inj (hsome.symm.trans hcells)
      exact ⟨_, rfl, rfl⟩

/-- A value that does not fit leaves the table as it is. -/
theorem change_refused {u : SqlUpdate} (hcells : u.sets.mapM (schema.assign charset now) = none) :
    t.change now u = none ∨ t.change now u = some (0, t) := by
  unfold change
  split
  next =>
    split
    next => exact .inr rfl
    next =>
      split
      next => exact .inl rfl
      next cells hsome => rw [hcells] at hsome; cases hsome
  next => exact .inl rfl

theorem upsert_refused {u : SqlUpsert} (hrow : schema.row charset u.columns u.values = none) :
    t.upsert u = none := by
  unfold upsert
  split
  next => rfl
  next row hsome => rw [hrow] at hsome; cases hsome

theorem upsert_overwrites {u : SqlUpsert} {row : SqlRow}
    (hrow : schema.row charset u.columns u.values = some row)
    (hold : row.get schema.primaryKey ∈ t.rows.map (SqlRow.get · schema.primaryKey))
    (hok : schema.names.Nodup ∧ schema.primaryKey ∉ u.overwritten) :
    ∃ t', t.upsert u = some (2, t') ∧ t'.rows = t.rows.map fun row' =>
      if row'.get schema.primaryKey = row.get schema.primaryKey then
        row'.setAll (cellsOf row u.overwritten) else row' := by
  unfold upsert
  split
  next hnone => rw [hrow] at hnone; cases hnone
  next row' hsome =>
    obtain rfl : row' = row := Option.some.inj (hsome.symm.trans hrow)
    rw [if_pos (List.contains_iff_mem.mpr hold), dif_pos (overwrites_iff.mpr hok)]
    refine ⟨_, rfl, ?_⟩
    simp [rewrite]

theorem upsert_inserts {u : SqlUpsert} {row : SqlRow}
    (hrow : schema.row charset u.columns u.values = some row)
    (hnew : row.get schema.primaryKey ∉ t.rows.map (SqlRow.get · schema.primaryKey)) :
    ∃ t', t.upsert u = some (1, t') ∧ t'.rows = t.rows ++ [row] := by
  unfold upsert
  split
  next hnone => rw [hrow] at hnone; cases hnone
  next row' hsome =>
    obtain rfl : row' = row := Option.some.inj (hsome.symm.trans hrow)
    rw [if_neg (hnew ∘ List.contains_iff_mem.mp), insert, dif_neg hnew]
    exact ⟨_, rfl, rfl⟩

end Exec

end SqlTable

end MuduoPlus
