import MuduoPlus.SqlExecute

namespace MuduoPlus

/-- A database server that is sent texts, and answers with the number of rows or with the rows;
`none` stands for an exception. -/
structure SqlServer (σ : Type) where
  update : Bytes → σ → Option Nat × σ
  query : Bytes → σ → Option (List SqlRow)

/-- A number that a column cannot hold: a whole number that is no `INT`, or what `<<` writes for a
`double` that is none to the database. -/
def SqlType.Rejects : SqlType → SqlValue → Prop
  | .int, .number digits => ∃ n, digits = decimal n ∧ 2 ^ 31 ≤ n
  | .double, .number digits => ∃ x, digits = generalSix x ∧ sqlNumber digits = none
  | _, _ => False

namespace SqlChange

/-- The columns and the values of a row that is new. -/
def inserts : SqlChange → Option (List Bytes × List SqlValue)
  | .insert columns values => some (columns, values)
  | .upsert u => some (u.columns, u.values)
  | _ => none

def Rejected (schema : SqlSchema) : SqlChange → Prop
  | .insert columns values =>
    columns = schema.names ∧ ∃ p ∈ schema.columns.zip values, p.1.type.Rejects p.2
  | .upsert u =>
    u.columns = schema.names ∧ ∃ p ∈ schema.columns.zip u.values, p.1.type.Rejects p.2
  | .update u => ∃ c ∈ schema.columns, ∃ v, (c.name, .value v) ∈ u.sets ∧ c.type.Rejects v
  | .delete _ _ => False

end SqlChange

/-- The rows of a page, out of those that were found. -/
def SqlSelect.cut (q : SqlSelect) (found : List SqlRow) : List SqlRow :=
  match q.page with
  | none => found
  | some (_, limit, offset) => (found.drop offset).take limit

namespace SqlServer

variable {σ : Type} {charset : Charset} {schema : SqlSchema}

/-- The statement counts no row and leaves the table as it is. -/
def Refuses (server : SqlServer σ) (table : σ → SqlTable charset schema) (sql : Bytes) (s : σ) :
    Prop :=
  (∀ n ∈ (server.update sql s).1, n = 0) ∧ (table (server.update sql s).2).rows = (table s).rows

/-- The server executes the statements on the table `name` as the manual of MySQL says, in strict
mode and with strings that are compared byte by byte. An `UPDATE` counts the rows that it finds or
those that it changes, as the connection asks for; rows that `ORDER BY` leaves open come in any
order. -/
structure Documented (server : SqlServer σ) (name : Bytes) (table : σ → SqlTable charset schema) :
    Prop where
  rejected : ∀ {sql c}, (sqlTokens sql).bind (readChange name) = some c → c.Rejected schema →
    ∀ s, server.Refuses table sql s
  added : ∀ {sql c values row}, (sqlTokens sql).bind (readChange name) = some c →
    c.inserts = some (schema.names, values) →
    schema.row charset schema.names values = some row → ∀ s,
    row.get schema.primaryKey ∉ (table s).rows.map (SqlRow.get · schema.primaryKey) →
    (server.update sql s).1 = some 1 ∧
      (table (server.update sql s).2).rows = (table s).rows ++ [row]
  duplicate : ∀ {sql values row},
    (sqlTokens sql).bind (readChange name) = some (.insert schema.names values) →
    schema.row charset schema.names values = some row → ∀ s,
    row.get schema.primaryKey ∈ (table s).rows.map (SqlRow.get · schema.primaryKey) →
    server.Refuses table sql s
  overwritten : ∀ {sql values names row},
    (sqlTokens sql).bind (readChange name) = some (.upsert ⟨schema.names, values, names⟩) →
    SqlTable.overwrites schema names = true →
    schema.row charset schema.names values = some row → ∀ s,
    row.get schema.primaryKey ∈ (table s).rows.map (SqlRow.get · schema.primaryKey) →
    (table (server.update sql s).2).rows = ((table s).rows.map fun row' =>
      if row'.get schema.primaryKey = row.get schema.primaryKey then
        row'.setAll (SqlTable.cellsOf row names) else row') ∧
      ∃ n, (server.update sql s).1 = some n ∧
        (n = 2 ∨ n ≤ 1 ∧ (table (server.update sql s).2).rows = (table s).rows)
  updated : ∀ {sql u}, (sqlTokens sql).bind (readChange name) = some (.update u) →
    SqlTable.changes schema u = true → (charset.chars u.value).isSome = true →
    ∀ s, ∃ now, ∀ cells, u.sets.mapM (schema.assign charset now) = some cells →
      (table (server.update sql s).2).rows = ((table s).rows.map fun row =>
        if SqlTable.meets u.column u.value row then row.setAll cells else row) ∧
      ∃ n, (server.update sql s).1 = some n ∧
        (n = (table s).rows.countP (SqlTable.meets u.column u.value) ∨
          n = (table s).rows.countP fun row =>
            SqlTable.meets u.column u.value row && row.setAll cells ≠ row)
  deleted : ∀ {sql column value},
    (sqlTokens sql).bind (readChange name) = some (.delete column value) →
    column ∈ schema.names → (charset.chars value).isSome = true → ∀ s,
    (server.update sql s).1 = some ((table s).rows.countP (SqlTable.meets column value)) ∧
      (table (server.update sql s).2).rows =
        (table s).rows.filter fun row => !SqlTable.meets column value row
  selected : ∀ {sql q}, (sqlTokens sql).bind (readSelect name) = some q →
    q.column ∈ schema.names → (∀ page ∈ q.page, page.1 ∈ schema.names) →
    (charset.chars q.value).isSome = true → ∀ s, ∃ found : List SqlRow,
      found.Perm ((table s).rows.filter (SqlTable.meets q.column q.value)) ∧
      (∀ page ∈ q.page, found.Pairwise fun row row' => row.leads page.1 row' = true) ∧
      server.query sql s = some (q.cut found)

end SqlServer

section Reference

instance (name : Bytes) : Std.Total fun row row' : SqlRow => row.leads name row' = true := by
  refine ⟨fun row row' => ?_⟩
  unfold SqlRow.leads
  cases row.time name with
  | none =>
    cases row'.time name with
    | none => exact .inl rfl
    | some seconds' => exact .inr rfl
  | some seconds =>
    cases row'.time name with
    | none => exact .inl rfl
    | some seconds' =>
      simp only [decide_eq_true_eq]
      omega

instance (name : Bytes) : IsTrans SqlRow fun row row' => row.leads name row' = true := by
  refine ⟨fun row row' row'' h h' => ?_⟩
  unfold SqlRow.leads at *
  cases hrow : row.time name with
  | none =>
    cases hrow'' : row''.time name with
    | none => rfl
    | some seconds'' =>
      cases hrow' : row'.time name with
      | none => simp [hrow', hrow''] at h'
      | some seconds' => simp [hrow, hrow'] at h
  | some seconds =>
    cases hrow'' : row''.time name with
    | none => rfl
    | some seconds'' =>
      cases hrow' : row'.time name with
      | none => simp [hrow', hrow''] at h'
      | some seconds' =>
        simp only [hrow, hrow', hrow'', decide_eq_true_eq] at h h' ⊢
        omega

variable {charset : Charset} {schema : SqlSchema} {t : SqlTable charset schema}

theorem SqlType.store_of_rejects {type : SqlType} {v : SqlValue} (h : type.Rejects v) :
    type.store charset v = none := by
  cases type with
  | int =>
    cases v with
    | string value => exact h.elim
    | number digits =>
      obtain ⟨n, rfl, hn⟩ := h
      rw [store, readNumber_decimal, Option.bind_some, if_neg (by omega)]
  | double =>
    cases v with
    | string value => exact h.elim
    | number digits =>
      obtain ⟨x, rfl, hx⟩ := h
      rw [store, hx]
      rfl
  | _ => exact h.elim

theorem SqlSchema.row_of_rejects (hnames : schema.names.Nodup) {values : List SqlValue}
    (h : ∃ p ∈ schema.columns.zip values, p.1.type.Rejects p.2) :
    schema.row charset schema.names values = none := by
  obtain ⟨p, hp, hrejects⟩ := h
  by_contra hsome
  obtain ⟨row, hrow⟩ := Option.ne_none_iff_exists'.mp hsome
  have hlength : schema.columns.length = values.length := by
    unfold SqlSchema.row at hrow
    split at hrow
    next hok => simpa [SqlSchema.names] using hok.1
    next => cases hrow
  rw [SqlSchema.names, SqlSchema.row_aligned hnames hlength, mapM_eq_some_iff] at hrow
  obtain ⟨named, -, hnamed⟩ := exists_of_forall₂ hrow hp
  rw [SqlType.store_of_rejects hrejects] at hnamed
  cases hnamed

theorem SqlSchema.assign_of_rejects (hnames : schema.names.Nodup) {c : SqlColumn}
    (hc : c ∈ schema.columns) {v : SqlValue} (h : c.type.Rejects v)
    {sets : List (Bytes × SqlExpr)} (hv : (c.name, .value v) ∈ sets) (now : Int64) :
    sets.mapM (schema.assign charset now) = none := by
  by_contra hsome
  obtain ⟨cells, hcells⟩ := Option.ne_none_iff_exists'.mp hsome
  obtain ⟨cell, -, hcell⟩ := exists_of_forall₂ (mapM_eq_some_iff.mp hcells) hv
  rw [SqlSchema.assign_refused hnames hc now (SqlType.store_of_rejects h)] at hcell
  cases hcell

namespace SqlTable

/-- The table as a server that always counts the rows it finds. -/
def server (charset : Charset) (schema : SqlSchema) (name : Bytes) :
    SqlServer (SqlTable charset schema) where
  update sql t :=
    match ((sqlTokens sql).bind (readChange name)).bind (t.execute 0) with
    | none => (none, t)
    | some (n, t') => (some n, t')
  query sql t := t.query name sql

section Update

variable {name sql : Bytes} {c : SqlChange}
  (hread : (sqlTokens sql).bind (readChange name) = some c)

include hread

theorem server_update {n : Nat} {t' : SqlTable charset schema} (h : t.execute 0 c = some (n, t')) :
    (server charset schema name).update sql t = (some n, t') := by
  unfold server
  dsimp only
  rw [hread, Option.bind_some, h]

theorem server_refuses (h : t.execute 0 c = none ∨ t.execute 0 c = some (0, t)) :
    (server charset schema name).Refuses (fun t => t) sql t := by
  rcases h with h | h
  · have hupdate : (server charset schema name).update sql t = (none, t) := by
      unfold server
      dsimp only
      rw [hread, Option.bind_some, h]
    rw [SqlServer.Refuses, hupdate]
    exact ⟨fun n hn => (by cases hn), rfl⟩
  · rw [SqlServer.Refuses, server_update hread h]
    exact ⟨fun n hn => (Option.some.inj hn).symm, rfl⟩

end Update

theorem execute_rejected (hnames : schema.names.Nodup) {c : SqlChange} (h : c.Rejected schema) :
    t.execute 0 c = none ∨ t.execute 0 c = some (0, t) := by
  cases c with
  | insert columns values =>
    obtain ⟨rfl, hrejects⟩ := h
    exact .inl (store_refused (SqlSchema.row_of_rejects hnames hrejects))
  | upsert u =>
    obtain ⟨hcolumns, hrejects⟩ := h
    refine .inl (upsert_refused ?_)
    rw [hcolumns]
    exact SqlSchema.row_of_rejects hnames hrejects
  | update u =>
    obtain ⟨c, hc, v, hv, hrejects⟩ := h
    exact change_refused (SqlSchema.assign_of_rejects hnames hc hrejects hv 0)
  | delete column value => exact h.elim

/-- The table is a server as the manual has it. -/
theorem documented_server (hnames : schema.names.Nodup) (name : Bytes) :
    (server charset schema name).Documented name fun t => t where
  rejected hread hrejected t := server_refuses hread (execute_rejected hnames hrejected)
  added {sql c values row} hread hinserts hrow t hnew := by
    have hexecute : ∃ t', t.execute 0 c = some (1, t') ∧ t'.rows = t.rows ++ [row] := by
      cases c with
      | insert columns values' =>
        obtain ⟨rfl, rfl⟩ := Prod.mk.inj (Option.some.inj hinserts)
        exact store_new hrow hnew
      | upsert u =>
        obtain ⟨hcolumns, hvalues⟩ := Prod.mk.inj (Option.some.inj hinserts)
        exact upsert_inserts (by rw [hcolumns, hvalues]; exact hrow) hnew
      | _ => cases hinserts
    obtain ⟨t', ht', hrows⟩ := hexecute
    rw [server_update hread ht']
    exact ⟨rfl, hrows⟩
  duplicate hread hrow t hold := server_refuses hread (.inl (store_duplicate hrow hold))
  overwritten {sql values names row} hread hok hrow t hold := by
    obtain ⟨t', ht', hrows⟩ := upsert_overwrites (u := ⟨schema.names, values, names⟩) hrow hold
      (overwrites_iff.mp hok)
    rw [server_update hread ht']
    exact ⟨hrows, 2, rfl, .inl rfl⟩
  updated {sql u} hread hok _ t := by
    refine ⟨0, fun cells hcells => ?_⟩
    obtain ⟨t', ht', hrows⟩ := change_stored (t := t) (changes_iff.mp hok) hcells
    rw [server_update hread ht']
    exact ⟨hrows, _, rfl, .inl rfl⟩
  deleted {sql column value} hread hcolumn _ t := by
    have hremove : t.execute 0 (.delete column value) = some _ :=
      if_pos (List.contains_iff_mem.mpr hcolumn)
    rw [server_update hread hremove]
    exact ⟨rfl, rfl⟩
  selected {sql q} hread hcolumn hpage _ t := by
    have hquery : t.query name sql = some (q.rows t.rows) := by
      rw [query, hread, Option.bind_some, if_pos ⟨hcolumn, hpage⟩]
    obtain ⟨column, value, page⟩ := q
    cases page with
    | none => exact ⟨_, .refl _, fun page hmem => (by cases hmem), hquery⟩
    | some page =>
      obtain ⟨order, limit, offset⟩ := page
      refine ⟨_, List.perm_insertionSort _ _, ?_, hquery⟩
      rintro page hmem
      obtain rfl := Option.some.inj hmem
      exact List.pairwise_insertionSort _ _

end SqlTable

end Reference

end MuduoPlus
