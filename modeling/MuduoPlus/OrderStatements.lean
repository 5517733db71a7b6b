import MuduoPlus.OrderReadBack
import MuduoPlus.SqlServer

namespace MuduoPlus

namespace OrderColumns

open OrderRepository

variable {charset : Charset} {repo : OrderRepository} {t : SqlTable charset schema}

/-- What the `UPDATE`s of the repository set, and where. -/
def updateOf : Statement → Option SqlUpdate
  | .updateStatus id s reason => some ⟨[
      (ascii "status", .value (.string s.toString)), (ascii "status_reason", .value (.string reason)),
      (ascii "updated_at", .now)], ascii "order_id", id⟩
  | .updatePayment id paid paidAt => some ⟨[
      (ascii "status", .value (.string (ascii "Paid"))),
      (ascii "total_amount", .value (.number (generalSix paid))),
      (ascii "updated_at", .value (.string (gmtimeText paidAt.seconds)))], ascii "order_id", id⟩
  | .updatePayload id payload => some ⟨[
      (ascii "payload_json", .value (.string payload)), (ascii "updated_at", .now)],
      ascii "order_id", id⟩
  | .touch id ts => some ⟨[
      (ascii "updated_at", .value (.string (gmtimeText ts.seconds)))], ascii "order_id", id⟩
  | _ => none

/-- The columns that `BuildUpsertSQL` overwrites. -/
def overwrittenColumns : List Bytes :=
  [ascii "status", ascii "status_reason", ascii "payload_json", ascii "updated_at"]

/-- The columns that statements write in rows that are there. -/
def writtenColumns : List Bytes :=
  [ascii "status", ascii "status_reason", ascii "total_amount", ascii "payload_json",
   ascii "updated_at"]

def upsertOf (r : Record) : SqlUpsert := ⟨schema.names, insertValues r, overwrittenColumns⟩

/-- The statements that are executed for the number of rows, as SQL. -/
def changeOf : Statement → Option SqlChange
  | .insert r => some (.insert schema.names (insertValues r))
  | .upsert r => some (.upsert (upsertOf r))
  | .delete id => some (.delete (ascii "order_id") id)
  | st => (updateOf st).map .update

section Intended

theorem intended_update {st : Statement} {u : SqlUpdate} (h : updateOf st = some u) :
    repo.intended st = u.tokens repo.tableName := by
  have hwhere : ascii " WHERE order_id=" = ascii " WHERE " ++ (ascii "order_id" ++ [61]) := by
    simp [ascii]
  have hnow : ascii ", updated_at=NOW() WHERE order_id=" = [44, 32] ++ (ascii "updated_at" ++
      61 :: (ascii "NOW()" ++ (ascii " WHERE " ++ (ascii "order_id" ++ [61])))) := by simp [ascii]
  have hstatus : ascii " SET status=" = ascii " SET " ++ (ascii "status" ++ [61]) := by simp [ascii]
  cases st with
  | updateStatus id s reason =>
    obtain rfl := Option.some.inj h
    have hreason : ascii ", status_reason=" = [44, 32] ++ (ascii "status_reason" ++ [61]) := by
      simp [ascii]
    unfold intended template SqlTemplate.shape SqlUpdate.tokens
    simp only [List.map_cons, List.map_nil, setTokens, SqlExpr.tokens]
    rw [hnow, hstatus, hreason]
    generalize ascii = f
    simp [List.intercalate, SqlValue.tokens, conditionTokens]
  | updatePayment id paid paidAt =>
    obtain rfl := Option.some.inj h
    have hamount : ascii ", total_amount=" = [44, 32] ++ (ascii "total_amount" ++ [61]) := by
      simp [ascii]
    have hupdated : ascii ", updated_at=" = [44, 32] ++ (ascii "updated_at" ++ [61]) := by
      simp [ascii]
    unfold intended template SqlTemplate.shape SqlUpdate.tokens
    simp only [List.map_cons, List.map_nil, setTokens, SqlExpr.tokens]
    rw [hwhere, hstatus, hamount, hupdated]
    generalize ascii = f
    simp [List.intercalate, SqlValue.tokens, conditionTokens]
  | updatePayload id payload =>
    obtain rfl := Option.some.inj h
    have hpayload : ascii " SET payload_json=" = ascii " SET " ++ (ascii "payload_json" ++ [61]) := by
      simp [ascii]
    unfold intended template SqlTemplate.shape SqlUpdate.tokens
    simp only [List.map_cons, List.map_nil, setTokens, SqlExpr.tokens]
    rw [hnow, hpayload]
    generalize ascii = f
    simp [List.intercalate, SqlValue.tokens, conditionTokens]
  | touch id ts =>
    obtain rfl := Option.some.inj h
    have hupdated : ascii " SET updated_at=" = ascii " SET " ++ (ascii "updated_at" ++ [61]) := by
      simp [ascii]
    unfold intended template SqlTemplate.shape SqlUpdate.tokens
    simp only [List.map_cons, List.map_nil, setTokens, SqlExpr.tokens]
    rw [hwhere, hupdated]
    generalize ascii = f
    simp [List.intercalate, SqlValue.tokens, conditionTokens]
  | _ => cases h

theorem intended_delete (id : Bytes) :
    repo.intended (.delete id) = deleteTokens repo.tableName (ascii "order_id") id := by
  have hwhere : ascii " WHERE order_id=" = ascii " WHERE " ++ (ascii "order_id" ++ [61]) := by
    simp [ascii]
  unfold intended template SqlTemplate.shape deleteTokens conditionTokens
  rw [hwhere]
  generalize ascii = f
  simp

theorem intended_upsert (r : Record) :
    repo.intended (.upsert r) = (upsertOf r).tokens repo.tableName := by
  have hclause : onDuplicateKey = ascii " ON DUPLICATE KEY UPDATE " ++
      [44].intercalate (overwrittenColumns.map overwrittenText) := by decide +kernel
  have hinsert := intended_insert repo r
  unfold intended template SqlTemplate.shape at hinsert ⊢
  unfold SqlUpsert.tokens
  change _ = insertTokens repo.tableName (schema.columns.map (·.name)) (insertValues r) ++ _
  rw [← hinsert, hclause]
  dsimp only [upsertOf]
  generalize [44].intercalate (overwrittenColumns.map overwrittenText) = clause
  simp [insertTemplate]

end Intended

section Read

/-- Outside its strings an `INSERT` has no `K` behind the name of the table. -/
theorem key_not_mem_insertBody (r : Record) :
    SqlToken.byte 75 ∉ insertBody schema.names (insertValues r) := by
  have hbyte : ¬IsGeneralByte 75 := by decide
  have hdecimal : ∀ n, 75 ∉ decimal n := fun n hmem => hbyte (isGeneralByte_decimal 75 hmem)
  have hgeneral : ∀ x, 75 ∉ generalSix x := fun x hmem => hbyte (isGeneralByte_generalSix 75 hmem)
  have hnames : 75 ∉ [44].intercalate schema.names := by decide +kernel
  have hvalues : SqlToken.byte 75 ∉
      [SqlToken.byte 44].intercalate ((insertValues r).map SqlValue.tokens) := by
    refine not_mem_intercalate (by simp) fun l hl => ?_
    obtain ⟨v, hv, rfl⟩ := List.mem_map.mp hl
    cases v with
    | string value => simp [SqlValue.tokens]
    | number digits =>
      have hdigits : digits = decimal r.quantity.toNat ∨ digits = generalSix r.totalAmount := by
        simpa [insertValues] using hv
      rw [SqlValue.tokens, byte_mem_map]
      rcases hdigits with rfl | rfl
      · exact hdecimal _
      · exact hgeneral _
  have htexts : 75 ∉ ascii " (" ∧ 75 ∉ ascii " VALUES (" := by simp [ascii]
  simp only [insertBody, List.mem_append, List.mem_cons, byte_mem_map, hnames, hvalues, htexts,
    SqlToken.byte.injEq, List.not_mem_nil, or_false, false_or]
  decide

theorem updateOf_columns {st : Statement} {u : SqlUpdate} (h : updateOf st = some u) :
    u.sets ≠ [] ∧ u.column = ascii "order_id" ∧
      ∀ set ∈ u.sets, set.1 ∈ writtenColumns ∧ set.2.Plain := by
  have hstring : ∀ v, (SqlExpr.value (.string v)).Plain := by
    intro v text he
    cases he
  have hnow : SqlExpr.now.Plain := by
    intro text he
    cases he
  have hnumber : ∀ x, (SqlExpr.value (.number (generalSix x))).Plain := by
    intro x text he
    cases he
    have hcomma : ¬IsGeneralByte 44 := by decide
    have hbracket : ¬IsGeneralByte 40 := by decide
    have hupper : ¬IsGeneralByte 72 := by decide
    exact ⟨fun hmem => hcomma (isGeneralByte_generalSix _ hmem),
      fun hmem => hbracket (isGeneralByte_generalSix _ hmem),
      fun hmem => hupper (isGeneralByte_generalSix _ hmem)⟩
  cases st with
  | updateStatus id s reason =>
    obtain rfl := Option.some.inj h
    simp [writtenColumns, hstring, hnow]
  | updatePayment id paid paidAt =>
    obtain rfl := Option.some.inj h
    simp [writtenColumns, hstring, hnumber]
  | updatePayload id payload =>
    obtain rfl := Option.some.inj h
    simp [writtenColumns, hstring, hnow]
  | touch id ts =>
    obtain rfl := Option.some.inj h
    simp [writtenColumns, hstring]
  | _ => cases h

theorem mem_writtenColumns {name : Bytes} (h : name ∈ overwrittenColumns) :
    name ∈ writtenColumns := by
  have hsub : overwrittenColumns.Sublist writtenColumns :=
    .cons_cons _ (.cons_cons _ (.cons _ (.cons_cons _ (.cons_cons _ .slnil))))
  exact hsub.subset h

/-- The columns that are written are in the table, and none is the key. -/
theorem of_mem_writtenColumns : ∀ name ∈ writtenColumns,
    name ∈ schema.names ∧ name ≠ schema.primaryKey ∧ name ≠ [] ∧ 61 ∉ name ∧ 44 ∉ name ∧
      32 ∉ name ∧ 72 ∉ name := by
  decide +kernel

theorem updateOf_ok {st : Statement} {u : SqlUpdate} (h : updateOf st = some u) :
    SqlTable.changes schema u = true := by
  rw [SqlTable.changes_iff]
  obtain ⟨-, hcolumn, hsets⟩ := updateOf_columns h
  have hknown : ascii "order_id" ∈ schema.names := by simp [SqlSchema.names, schema]
  refine ⟨names_nodup, ?_, hcolumn ▸ hknown, ?_⟩
  · intro hkey
    obtain ⟨set, hset, hname⟩ := List.mem_map.mp hkey
    exact (of_mem_writtenColumns _ (hsets set hset).1).2.1 hname
  · intro set hset
    exact (of_mem_writtenColumns _ (hsets set hset).1).1

theorem readUpdate_of_updateOf {st : Statement} {u : SqlUpdate} (h : updateOf st = some u) :
    readUpdate repo.tableName (repo.intended st) = some u := by
  obtain ⟨hne, hcolumn, hsets⟩ := updateOf_columns h
  have hequals : 61 ∉ ascii "order_id" := by simp [ascii]
  rw [intended_update h]
  refine readUpdate_tokens hne ?_ (fun set hset => (hsets set hset).2) (hcolumn ▸ hequals)
  intro set hset
  obtain ⟨-, -, hnil, hequals, hcomma, hblank, hupper⟩ :=
    of_mem_writtenColumns _ (hsets set hset).1
  exact ⟨hnil, hequals, hcomma, hblank, hupper⟩

variable (hname : 39 ∉ repo.tableName)
include hname

/-- The text of a statement is read as the change that is meant. -/
theorem read_change {st : Statement} {c : SqlChange} (hquoted : ∀ v ∈ st.data, 39 ∉ v ∧ 92 ∉ v)
    (hc : changeOf st = some c) :
    (sqlTokens (repo.build st)).bind (readChange repo.tableName) = some c := by
  rw [tokens_build hname st hquoted, Option.bind_some]
  cases hupdate : updateOf st with
  | some u =>
    obtain rfl : .update u = c := by
      cases st with
      | updateStatus | updatePayment | updatePayload | touch =>
        simpa [changeOf, hupdate] using hc
      | _ => cases hupdate
    exact readChange_update (readUpdate_of_updateOf hupdate)
  | none =>
    cases st with
    | insert r =>
      obtain rfl := Option.some.inj hc
      have hread := read_insert hname hquoted
      change (sqlTokens (repo.build (.insert r))).bind _ = _ at hread
      rw [tokens_build hname (.insert r) hquoted, Option.bind_some] at hread
      refine readChange_insert hread ?_
      rw [intended_insert]
      exact readUpsert_insert (key_not_mem_insertBody r)
    | upsert r =>
      obtain rfl := Option.some.inj hc
      have hread := read_insert (r := r) hname hquoted
      change (sqlTokens (repo.build (.insert r))).bind _ = _ at hread
      rw [tokens_build hname (.insert r) hquoted, Option.bind_some, intended_insert] at hread
      have hnames : ∀ name ∈ overwrittenColumns, 61 ∉ name ∧ 44 ∉ name := fun name hname =>
        (of_mem_writtenColumns name (mem_writtenColumns hname)).2.2.2.imp_right And.left
      rw [intended_upsert]
      exact readChange_upsert (readUpsert_tokens hread (key_not_mem_insertBody r)
        (List.cons_ne_nil _ _) hnames)
    | delete id =>
      obtain rfl := Option.some.inj hc
      rw [intended_delete]
      exact readChange_delete (readDelete_tokens (by simp [ascii]))
    | updateStatus | updatePayment | updatePayload | touch => cases hupdate
    | selectById | selectByUser | selectRecent => cases hc

end Read

section Cells

def stringOf : SqlCell → Bytes
  | .string value => value
  | _ => []

def amountOf : SqlCell → Float
  | .double value => value
  | _ => 0

/-- What the rest of the server sees of a row after another cell was written. `ParseSingle` does not
read `updated_at`. -/
def put (row : OrderRow) (cell : Bytes × SqlCell) : OrderRow :=
  { row with
    totalAmount := if cell.1 = ascii "total_amount" then amountOf cell.2 else row.totalAmount
    status := if cell.1 = ascii "status" then stringOf cell.2 else row.status
    statusReason := if cell.1 = ascii "status_reason" then stringOf cell.2 else row.statusReason
    payloadJson := if cell.1 = ascii "payload_json" then stringOf cell.2 else row.payloadJson }

variable {row : SqlRow} {cell : Bytes × SqlCell}

theorem orderRow_set (h : row.map Prod.fst = schema.names) (hcell : cell.1 ∈ writtenColumns) :
    orderRow (row.set cell.1 cell.2) = put (orderRow row) cell := by
  have hget : ∀ column, (row.set cell.1 cell.2).get column =
      if column = cell.1 then some cell.2 else row.get column :=
    fun column => SqlRow.get_set (h ▸ (of_mem_writtenColumns _ hcell).1)
  have hstring : ∀ column, (safeString (row.set cell.1 cell.2) column).getD [] =
      if cell.1 = column then stringOf cell.2 else (safeString row column).getD [] := by
    intro column
    rw [safeString, hget]
    by_cases hcolumn : column = cell.1
    · rw [if_pos hcolumn, if_pos hcolumn.symm]
      cases cell.2 with
      | _ => rfl
    · rw [if_neg hcolumn, if_neg (Ne.symm hcolumn)]
      rfl
  have hamount : (getDouble (row.set cell.1 cell.2) (ascii "total_amount")).getD 0 =
      if cell.1 = ascii "total_amount" then amountOf cell.2
      else (getDouble row (ascii "total_amount")).getD 0 := by
    rw [getDouble, hget]
    by_cases hcolumn : ascii "total_amount" = cell.1
    · rw [if_pos hcolumn, if_pos hcolumn.symm]
      cases cell.2 with
      | _ => rfl
    · rw [if_neg hcolumn, if_neg (Ne.symm hcolumn)]
      rfl
  have hother : ∀ column, column ∉ writtenColumns → cell.1 ≠ column := by
    rintro column hcolumn rfl
    exact hcolumn hcell
  have hquantity : getInt (row.set cell.1 cell.2) (ascii "quantity") =
      getInt row (ascii "quantity") := by
    rw [getInt, hget, if_neg (hother _ (by decide +kernel)).symm]
    rfl
  have hcreated : (row.set cell.1 cell.2).time (ascii "created_at") =
      row.time (ascii "created_at") := by
    rw [SqlRow.time, hget, if_neg (hother _ (by decide +kernel)).symm]
    rfl
  simp only [orderRow, put, hstring, hamount, hquantity, hcreated,
    if_neg (hother (ascii "order_id") (by decide +kernel)),
    if_neg (hother (ascii "user_id") (by decide +kernel)),
    if_neg (hother (ascii "product_id") (by decide +kernel)),
    if_neg (hother (ascii "currency") (by decide +kernel))]

theorem orderRow_setAll {cells : List (Bytes × SqlCell)} (h : row.map Prod.fst = schema.names)
    (hcells : ∀ cell ∈ cells, cell.1 ∈ writtenColumns) :
    orderRow (row.setAll cells) = cells.foldl put (orderRow row) := by
  induction cells generalizing row with
  | nil => rfl
  | cons cell cells ih =>
    rw [List.foldl_cons, ← orderRow_set h (hcells cell List.mem_cons_self)]
    exact ih (SqlRow.map_fst_set.trans h) fun c hc => hcells c (List.mem_cons_of_mem _ hc)

end Cells

section Rows

theorem countP_orderId (t : SqlTable charset schema) (id : Bytes) :
    t.rows.countP (SqlTable.meets (ascii "order_id") id) =
      (orderRows t).countP fun row => row.orderId = id := by
  have hfilter := congrArg List.length (filter_orderId t id)
  rw [List.length_map, ← List.countP_eq_length_filter, ← List.countP_eq_length_filter] at hfilter
  exact hfilter

theorem rewriteRows_orderRows {p : SqlRow → Prop} [DecidablePred p] {g : SqlRow → SqlRow}
    {f : OrderRow → OrderRow} {id : Bytes} (hp : ∀ row ∈ t.rows, p row ↔ (orderRow row).orderId = id)
    (hg : ∀ row ∈ t.rows, orderRow (g row) = f (orderRow row)) :
    (t.rows.map fun row => if p row then g row else row).map orderRow =
      OrderTable.rewriteRows id f (orderRows t) := by
  rw [OrderTable.rewriteRows, orderRows, List.map_map, List.map_map]
  apply List.map_congr_left
  intro row hrow
  dsimp only [Function.comp]
  by_cases hid : (orderRow row).orderId = id
  · rw [if_pos ((hp row hrow).mpr hid), if_pos hid, hg row hrow]
  · rw [if_neg (mt (hp row hrow).mp hid), if_neg hid]

theorem meets_orderId {row : SqlRow} (hrow : row ∈ t.rows) (id : Bytes) :
    SqlTable.meets (ascii "order_id") id row = true ↔ (orderRow row).orderId = id := by
  rw [SqlTable.meets, get_orderId (t.conforms row hrow)]
  simp

end Rows

section Assign

variable (charset) (now : Int64)

theorem assign_status (s : OrderStatus) :
    schema.assign charset now (ascii "status", .value (.string s.toString)) =
      some (ascii "status", .string s.toString) :=
  SqlSchema.assign_value names_nodup (c := ⟨ascii "status", .varchar 32, true⟩) (by simp [schema])
    now (if_pos (atMost_status charset s))

theorem assign_statusReason {reason : Bytes} (h : charset.AtMost 255 reason) :
    schema.assign charset now (ascii "status_reason", .value (.string reason)) =
      some (ascii "status_reason", .string reason) :=
  SqlSchema.assign_value names_nodup (c := ⟨ascii "status_reason", .varchar 255, false⟩)
    (by simp [schema]) now (if_pos h)

theorem assign_payloadJson {payload : Bytes}
    (h : (charset.chars payload).isSome = true ∧ payload.length < 2 ^ 16) :
    schema.assign charset now (ascii "payload_json", .value (.string payload)) =
      some (ascii "payload_json", .string payload) :=
  SqlSchema.assign_value names_nodup (c := ⟨ascii "payload_json", .text, false⟩)
    (by simp [schema]) now (if_pos h)

theorem assign_updatedAt (ts : TimePoint) :
    schema.assign charset now (ascii "updated_at", .value (.string (gmtimeText ts.seconds))) =
      some (ascii "updated_at", .datetime ts.seconds.toInt) := by
  refine SqlSchema.assign_value names_nodup (c := ⟨ascii "updated_at", .datetime, true⟩)
    (by simp [schema]) now ?_
  rw [SqlType.store, sqlDatetime_seconds]
  rfl

theorem assign_updatedAt_now :
    schema.assign charset now (ascii "updated_at", .now) =
      some (ascii "updated_at", .datetime now.toInt) :=
  SqlSchema.assign_now names_nodup (c := ⟨ascii "updated_at", .datetime, true⟩) (by simp [schema])
    now rfl

/-- The database reads the amount from its text. -/
theorem assign_totalAmount (paid : Float) :
    schema.assign charset now (ascii "total_amount", .value (.number (generalSix paid))) =
      (OrderTable.sqlDouble paid).map fun amount => (ascii "total_amount", .double amount) := by
  have hmem : ⟨ascii "total_amount", .double, true⟩ ∈ schema.columns := by simp [schema]
  have hstore : SqlType.store charset .double (.number (generalSix paid)) =
      (OrderTable.sqlDouble paid).map .double := rfl
  cases hamount : OrderTable.sqlDouble paid with
  | none => exact SqlSchema.assign_refused names_nodup hmem now (by rw [hstore, hamount]; rfl)
  | some amount => exact SqlSchema.assign_value names_nodup hmem now (by rw [hstore, hamount]; rfl)

end Assign

end OrderColumns

end MuduoPlus
