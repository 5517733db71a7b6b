import MuduoPlus.SqlTable

namespace MuduoPlus

/-- What an assignment gives a column: a value, or the time of the statement. -/
inductive SqlExpr where
  | value (v : SqlValue)
  | now

/-- `UPDATE … SET sets WHERE column='value'`. -/
structure SqlUpdate where
  sets : List (Bytes × SqlExpr)
  column : Bytes
  value : Bytes

/-- `INSERT … ON DUPLICATE KEY UPDATE`, where each of the columns `overwritten` gets its value of the
`INSERT`. -/
structure SqlUpsert where
  columns : List Bytes
  values : List SqlValue
  overwritten : List Bytes

/-- A statement that is executed for the number of rows. -/
inductive SqlChange where
  | insert (columns : List Bytes) (values : List SqlValue)
  | upsert (u : SqlUpsert)
  | update (u : SqlUpdate)
  | delete (column value : Bytes)

/-- `column='value'`, up to the end. -/
def readCondition (ts : List SqlToken) : Option (Bytes × Bytes) := do
  let (column, ts) ← cutAt (.byte 61) ts
  let column ← readBytes column
  match ts with
  | [.literal value] => some (column, value)
  | _ => none

/-- `column=value` or `column=NOW()`; blanks in front are skipped. -/
def readSet (ts : List SqlToken) : Option (Bytes × SqlExpr) := do
  let (column, ts) ← cutAt (.byte 61) (ts.dropWhile (· = .byte 32))
  let column ← readBytes column
  if ts = (ascii "NOW()").map .byte then some (column, .now)
  else (readValue ts).map fun v => (column, .value v)

def readUpdate (table : Bytes) (ts : List SqlToken) : Option SqlUpdate := do
  let ts ← behind ((ascii "UPDATE " ++ table ++ ascii " SET ").map .byte) ts
  let (sets, ts) ← cutText ((ascii " WHERE ").map .byte) ts
  let sets ← (sets.splitOn (.byte 44)).mapM readSet
  let (column, value) ← readCondition ts
  some ⟨sets, column, value⟩

def readDelete (table : Bytes) (ts : List SqlToken) : Option (Bytes × Bytes) := do
  let ts ← behind ((ascii "DELETE FROM " ++ table ++ ascii " WHERE ").map .byte) ts
  readCondition ts

/-- `column=VALUES(column)`. -/
def readOverwritten (s : Bytes) : Option Bytes := do
  let (column, s) ← cutAt 61 s
  if s = ascii "VALUES(" ++ (column ++ ascii ")") then some column else none

/-- The clause is looked for behind the name of the table. -/
def readUpsert (table : Bytes) (ts : List SqlToken) : Option SqlUpsert := do
  let front := (ascii "INSERT INTO " ++ table).map SqlToken.byte
  let ts ← behind front ts
  let (ts, rest) ← cutText ((ascii " ON DUPLICATE KEY UPDATE ").map .byte) ts
  let (columns, values) ← readInsert table (front ++ ts)
  let rest ← readBytes rest
  let overwritten ← (rest.splitOn 44).mapM readOverwritten
  some ⟨columns, values, overwritten⟩

def readChange (table : Bytes) (ts : List SqlToken) : Option SqlChange :=
  match readUpdate table ts, readDelete table ts, readUpsert table ts, readInsert table ts with
  | some u, _, _, _ => some (.update u)
  | none, some (column, value), _, _ => some (.delete column value)
  | none, none, some u, _ => some (.upsert u)
  | none, none, none, some (columns, values) => some (.insert columns values)
  | none, none, none, none => none

/-- The condition as it is written. -/
def conditionTokens (column value : Bytes) : List SqlToken :=
  column.map .byte ++ [.byte 61, .literal value]

def SqlExpr.tokens : SqlExpr → List SqlToken
  | .value v => v.tokens
  | .now => (ascii "NOW()").map .byte

def setTokens (set : Bytes × SqlExpr) : List SqlToken := set.1.map .byte ++ .byte 61 :: set.2.tokens

/-- An `UPDATE` as it is written. -/
def SqlUpdate.tokens (table : Bytes) (u : SqlUpdate) : List SqlToken :=
  (ascii "UPDATE " ++ table ++ ascii " SET ").map .byte ++
    ([.byte 44, .byte 32].intercalate (u.sets.map setTokens) ++
      ((ascii " WHERE ").map .byte ++ conditionTokens u.column u.value))

/-- A `DELETE` as it is written. -/
def deleteTokens (table column value : Bytes) : List SqlToken :=
  (ascii "DELETE FROM " ++ table ++ ascii " WHERE ").map .byte ++ conditionTokens column value

def overwrittenText (column : Bytes) : Bytes :=
  column ++ 61 :: (ascii "VALUES(" ++ (column ++ ascii ")"))

/-- What stands behind the name of the table in an `INSERT`. -/
def insertBody (columns : List Bytes) (values : List SqlValue) : List SqlToken :=
  (ascii " (").map .byte ++ (([44].intercalate columns).map .byte ++ .byte 41 ::
    ((ascii " VALUES (").map .byte ++
      ([.byte 44].intercalate (values.map SqlValue.tokens) ++ [.byte 41])))

/-- An `INSERT … ON DUPLICATE KEY UPDATE` as it is written. -/
def SqlUpsert.tokens (table : Bytes) (u : SqlUpsert) : List SqlToken :=
  insertTokens table u.columns u.values ++ ((ascii " ON DUPLICATE KEY UPDATE ").map .byte ++
    ([44].intercalate (u.overwritten.map overwrittenText)).map .byte)

/-- The name of a column is none of the marks that the readers look for. -/
structure PlainName (name : Bytes) : Prop where
  ne_nil : name ≠ []
  equals : 61 ∉ name
  comma : 44 ∉ name
  blank : 32 ∉ name
  upper : 72 ∉ name

/-- Nor is a number. -/
def SqlExpr.Plain (e : SqlExpr) : Prop :=
  ∀ text, e = .value (.number text) → 44 ∉ text ∧ 40 ∉ text ∧ 72 ∉ text

section Read

variable {table column value name : Bytes} {e : SqlExpr}

theorem readCondition_tokens (h : 61 ∉ column) :
    readCondition (conditionTokens column value) = some (column, value) := by
  have hcut : SqlToken.byte 61 ∉ column.map .byte := by
    rw [byte_mem_map]
    exact h
  simp only [readCondition, conditionTokens, cutAt_append hcut, readBytes_map, Option.bind_eq_bind,
    Option.bind_some]

theorem readSet_tokens (hname : PlainName name) (he : e.Plain) :
    readSet (setTokens (name, e)) = some (name, e) := by
  obtain ⟨c, rest, rfl⟩ := List.exists_cons_of_ne_nil hname.ne_nil
  have hblank : c ≠ 32 := by
    rintro rfl
    exact hname.blank List.mem_cons_self
  have hcut : SqlToken.byte 61 ∉ (c :: rest).map .byte := by
    rw [byte_mem_map]
    exact hname.equals
  have hdrop : (setTokens (c :: rest, e)).dropWhile (· = .byte 32) = setTokens (c :: rest, e) := by
    simp [setTokens, hblank]
  have hread : (if e.tokens = (ascii "NOW()").map .byte then some (c :: rest, SqlExpr.now)
      else (readValue e.tokens).map fun v => (c :: rest, .value v)) = some (c :: rest, e) := by
    cases e with
    | now => exact if_pos rfl
    | value v =>
      have hne : v.tokens ≠ (ascii "NOW()").map .byte := by
        intro hsame
        cases v with
        | string text => simp [SqlValue.tokens, ascii] at hsame
        | number text =>
          have hbracket : SqlToken.byte 40 ∈ text.map .byte := by
            change text.map SqlToken.byte = _ at hsame
            rw [hsame]
            simp [ascii]
          exact (he text rfl).2.1 (byte_mem_map.mp hbracket)
      rw [SqlExpr.tokens, if_neg hne, readValue_tokens]
      rfl
  unfold readSet
  rw [hdrop]
  simp only [setTokens, cutAt_append hcut, readBytes_map, Option.bind_eq_bind, Option.bind_some]
  exact hread

theorem not_mem_setTokens {set : Bytes × SqlExpr} {b : UInt8} (hname : b ∉ set.1) (hequals : b ≠ 61)
    (hnow : b ∉ ascii "NOW()") (hnumber : ∀ text, set.2 = .value (.number text) → b ∉ text) :
    SqlToken.byte b ∉ setTokens set := by
  intro hmem
  simp only [setTokens, List.mem_append, List.mem_cons, byte_mem_map, SqlToken.byte.injEq] at hmem
  rcases hmem with hmem | hmem | hmem
  · exact hname hmem
  · exact hequals hmem
  · cases he : set.2 with
    | now =>
      rw [he] at hmem
      exact hnow (byte_mem_map.mp hmem)
    | value v =>
      rw [he] at hmem
      cases v with
      | string text => simp [SqlExpr.tokens, SqlValue.tokens] at hmem
      | number text => exact hnumber text he (byte_mem_map.mp hmem)

/-- The blank between two assignments is skipped. -/
theorem readSet_blank (ts : List SqlToken) : readSet (.byte 32 :: ts) = readSet ts := by
  simp [readSet]

theorem readSets_tokens {sets : List (Bytes × SqlExpr)} (hne : sets ≠ [])
    (hnames : ∀ set ∈ sets, PlainName set.1) (hexprs : ∀ set ∈ sets, set.2.Plain) :
    (([.byte 44, .byte 32].intercalate (sets.map setTokens)).splitOn (.byte 44)).mapM readSet =
      some sets := by
  have hcomma : ∀ set ∈ sets, SqlToken.byte 44 ∉ setTokens set := fun set hset =>
    not_mem_setTokens (hnames set hset).comma (by simp) (by simp [ascii])
      fun text he => (hexprs set hset text he).1
  obtain ⟨first, rest, rfl⟩ := List.exists_cons_of_ne_nil hne
  have hread : ∀ set ∈ first :: rest, readSet (setTokens set) = some set :=
    fun set hset => readSet_tokens (hnames set hset) (hexprs set hset)
  rw [List.map_cons, intercalate_pair, List.splitOn_intercalate _ _ (List.cons_ne_nil _ _)]
  · have hrest : (rest.map ((fun ts => .byte 32 :: ts) ∘ setTokens)).mapM readSet = some rest := by
      refine mapM_map_some fun set hset => ?_
      rw [Function.comp_apply, readSet_blank]
      exact hread set (List.mem_cons_of_mem _ hset)
    rw [List.mapM_cons, hread first List.mem_cons_self, List.map_map, hrest]
    rfl
  · intro l hl
    rw [List.mem_cons, List.mem_map] at hl
    rcases hl with rfl | ⟨l', hl', rfl⟩
    · exact hcomma first List.mem_cons_self
    · obtain ⟨set, hset, rfl⟩ := List.mem_map.mp hl'
      rw [List.mem_cons, not_or]
      exact ⟨by simp, hcomma set (List.mem_cons_of_mem _ hset)⟩

/-- An `UPDATE` is read as it was written. -/
theorem readUpdate_tokens {u : SqlUpdate} (hne : u.sets ≠ [])
    (hnames : ∀ set ∈ u.sets, PlainName set.1) (hexprs : ∀ set ∈ u.sets, set.2.Plain)
    (hcolumn : 61 ∉ u.column) : readUpdate table (u.tokens table) = some u := by
  have hupper : SqlToken.byte 72 ∉ [.byte 44, .byte 32].intercalate (u.sets.map setTokens) := by
    refine not_mem_intercalate (by simp) fun l hl => ?_
    obtain ⟨set, hset, rfl⟩ := List.mem_map.mp hl
    exact not_mem_setTokens (hnames set hset).upper (by simp) (by simp [ascii])
      fun text he => (hexprs set hset text he).2.2
  have hwhere : (ascii " WHERE ").map SqlToken.byte =
      [.byte 32, .byte 87] ++ .byte 72 :: [.byte 69, .byte 82, .byte 69, .byte 32] := by simp [ascii]
  have hcut := cutText_of_mark hwhere (by simp) (by simp) hupper (conditionTokens u.column u.value)
  simp only [readUpdate, SqlUpdate.tokens, behind_append, hcut, readSets_tokens hne hnames hexprs,
    readCondition_tokens hcolumn, Option.bind_eq_bind, Option.bind_some]

theorem readDelete_tokens (h : 61 ∉ column) :
    readDelete table (deleteTokens table column value) = some (column, value) := by
  simp only [readDelete, deleteTokens, behind_append, readCondition_tokens h, Option.bind_eq_bind,
    Option.bind_some]

theorem readOverwritten_text (h : 61 ∉ column) :
    readOverwritten (overwrittenText column) = some column := by
  simp only [readOverwritten, overwrittenText, cutAt_append h, Option.bind_eq_bind,
    Option.bind_some, if_true]

theorem insertTokens_eq (table : Bytes) (columns : List Bytes) (values : List SqlValue) :
    insertTokens table columns values =
      (ascii "INSERT INTO " ++ table).map .byte ++ insertBody columns values := by
  rw [insertTokens, insertBody, List.map_append, List.append_assoc]

/-- So is an `INSERT … ON DUPLICATE KEY UPDATE`. -/
theorem readUpsert_tokens {u : SqlUpsert}
    (hread : readInsert table (insertTokens table u.columns u.values) = some (u.columns, u.values))
    (hkey : .byte 75 ∉ insertBody u.columns u.values) (hne : u.overwritten ≠ [])
    (hnames : ∀ name ∈ u.overwritten, 61 ∉ name ∧ 44 ∉ name) :
    readUpsert table (u.tokens table) = some u := by
  have hpattern : (ascii " ON DUPLICATE KEY UPDATE ").map SqlToken.byte =
      (ascii " ON DUPLICATE ").map .byte ++ .byte 75 :: (ascii "EY UPDATE ").map .byte := by
    simp [ascii]
  have hcut := cutText_of_mark hpattern (by simp [ascii]) (by simp [ascii]) hkey
    (([44].intercalate (u.overwritten.map overwrittenText)).map .byte)
  have hcomma : ∀ l ∈ u.overwritten.map overwrittenText, 44 ∉ l := by
    intro l hl
    obtain ⟨name, hname, rfl⟩ := List.mem_map.mp hl
    have hvalues : (44 : UInt8) ∉ ascii "VALUES(" := by simp [ascii]
    have hclose : (44 : UInt8) ∉ ascii ")" := by simp [ascii]
    have hequals : (44 : UInt8) ≠ 61 := by simp
    simp only [overwrittenText, List.mem_append, List.mem_cons, (hnames name hname).2, hvalues,
      hclose, hequals, or_self, not_false_eq_true]
  have hsplit := List.splitOn_intercalate 44 hcomma (by simpa using hne)
  have hall : (u.overwritten.map overwrittenText).mapM readOverwritten = some u.overwritten :=
    mapM_map_some fun name hname => readOverwritten_text (hnames name hname).1
  rw [insertTokens_eq] at hread
  simp only [readUpsert, SqlUpsert.tokens, insertTokens_eq, List.append_assoc, behind_append, hcut,
    hread, readBytes_map, hsplit, hall, Option.bind_eq_bind, Option.bind_some]

/-- An `INSERT` without the clause is no upsert. -/
theorem readUpsert_insert {columns : List Bytes} {values : List SqlValue}
    (hkey : .byte 75 ∉ insertBody columns values) :
    readUpsert table (insertTokens table columns values) = none := by
  have hpattern : SqlToken.byte 75 ∈ (ascii " ON DUPLICATE KEY UPDATE ").map SqlToken.byte := by
    simp [ascii]
  have hcut : cutText ((ascii " ON DUPLICATE KEY UPDATE ").map .byte) (insertBody columns values) =
      none :=
    (cutText_eq_none_iff (by simp [ascii])).mpr fun hpart => hkey (hpart.subset hpattern)
  simp only [readUpsert, insertTokens_eq, behind_append, hcut, Option.bind_eq_bind,
    Option.bind_some, Option.bind_none]

end Read

section Kinds

variable {table : Bytes} {ts : List SqlToken}

theorem head_of_behind {word rest : Bytes} {ts' : List SqlToken} {b : UInt8}
    (hword : word.head? = some b) (h : behind ((word ++ rest).map .byte) ts = some ts') :
    ts.head? = some (.byte b) := by
  obtain ⟨word, rfl⟩ := List.head?_eq_some_iff.mp hword
  rw [List.cons_append, List.map_cons] at h
  cases ts with
  | nil => cases h
  | cons t ts =>
    rw [behind] at h
    split at h
    next ht => rw [ht]; rfl
    next => cases h

/-- The first byte tells the statements apart. -/
theorem readUpdate_head {u : SqlUpdate} (h : readUpdate table ts = some u) :
    ts.head? = some (.byte 85) := by
  obtain ⟨ts', hbehind, -⟩ := Option.bind_eq_some_iff.mp h
  rw [List.append_assoc] at hbehind
  exact head_of_behind (by simp [ascii]) hbehind

theorem readDelete_head {condition : Bytes × Bytes} (h : readDelete table ts = some condition) :
    ts.head? = some (.byte 68) := by
  obtain ⟨ts', hbehind, -⟩ := Option.bind_eq_some_iff.mp h
  rw [List.append_assoc] at hbehind
  exact head_of_behind (by simp [ascii]) hbehind

theorem readInsert_head {parts : List Bytes × List SqlValue} (h : readInsert table ts = some parts) :
    ts.head? = some (.byte 73) := by
  obtain ⟨ts', hbehind, -⟩ := Option.bind_eq_some_iff.mp h
  rw [List.append_assoc] at hbehind
  exact head_of_behind (by simp [ascii]) hbehind

theorem readUpsert_head {u : SqlUpsert} (h : readUpsert table ts = some u) :
    ts.head? = some (.byte 73) := by
  obtain ⟨ts', hbehind, -⟩ := Option.bind_eq_some_iff.mp h
  exact head_of_behind (by simp [ascii]) hbehind

theorem readUpdate_eq_none (h : ts.head? ≠ some (.byte 85)) : readUpdate table ts = none := by
  cases hread : readUpdate table ts with
  | none => rfl
  | some u => exact absurd (readUpdate_head hread) h

theorem readDelete_eq_none (h : ts.head? ≠ some (.byte 68)) : readDelete table ts = none := by
  cases hread : readDelete table ts with
  | none => rfl
  | some u => exact absurd (readDelete_head hread) h

theorem readChange_update {u : SqlUpdate} (h : readUpdate table ts = some u) :
    readChange table ts = some (.update u) := by
  rw [readChange, h]

theorem readChange_delete {column value : Bytes} (h : readDelete table ts = some (column, value)) :
    readChange table ts = some (.delete column value) := by
  have hupdate : readUpdate table ts = none :=
    readUpdate_eq_none (by rw [readDelete_head h]; simp)
  rw [readChange, hupdate, h]

theorem readChange_upsert {u : SqlUpsert} (h : readUpsert table ts = some u) :
    readChange table ts = some (.upsert u) := by
  have hupdate : readUpdate table ts = none :=
    readUpdate_eq_none (by rw [readUpsert_head h]; simp)
  have hdelete : readDelete table ts = none :=
    readDelete_eq_none (by rw [readUpsert_head h]; simp)
  rw [readChange, hupdate, hdelete, h]

theorem readChange_insert {columns : List Bytes} {values : List SqlValue}
    (h : readInsert table ts = some (columns, values)) (hupsert : readUpsert table ts = none) :
    readChange table ts = some (.insert columns values) := by
  have hupdate : readUpdate table ts = none :=
    readUpdate_eq_none (by rw [readInsert_head h]; simp)
  have hdelete : readDelete table ts = none :=
    readDelete_eq_none (by rw [readInsert_head h]; simp)
  rw [readChange, hupdate, hdelete, hupsert, h]

end Kinds

end MuduoPlus
