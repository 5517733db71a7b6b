import MuduoPlus.OrderStatements

namespace MuduoPlus

/-- The database behind the connections: it is sent the texts of the statements. A connection
catches what a refused statement raises, and then there is no row. -/
def SqlServer.database {σ : Type} (server : SqlServer σ) (repo : OrderRepository) : Database σ where
  update st s :=
    (.ok ((server.update (repo.build st) s).1.getD 0), (server.update (repo.build st) s).2)
  query st s := .ok (((server.query (repo.build st) s).getD []).map OrderColumns.orderRow)

namespace OrderColumns

open OrderRepository

variable {charset : Charset} {repo : OrderRepository}

section Does

variable {σ : Type} {server : SqlServer σ} {table : σ → SqlTable charset schema} {sql : Bytes} {s : σ}
  {answer : Except OrderException Nat × OrderTable}

/-- The text does to the rows what the answer has, and tells whether it found some. -/
structure Does (server : SqlServer σ) (table : σ → SqlTable charset schema) (sql : Bytes) (s : σ)
    (answer : Except OrderException Nat × OrderTable) : Prop where
  rows : orderRows (table (server.update sql s).2) = answer.2
  found : 0 < (server.update sql s).1.getD 0 → ∃ m, 0 < m ∧ answer.1 = .ok m
  unchanged : (server.update sql s).1.getD 0 = 0 → answer.2 = orderRows (table s)

theorem does_refused (h : server.Refuses table sql s) (ha : answer.2 = orderRows (table s)) :
    Does server table sql s answer := by
  have hzero : (server.update sql s).1.getD 0 = 0 := by
    cases hn : (server.update sql s).1 with
    | none => rfl
    | some n => exact h.1 n hn
  refine ⟨?_, fun hpos => ?_, fun _ => ha⟩
  · rw [ha, orderRows, h.2, orderRows]
  · rw [hzero] at hpos
    exact absurd hpos (Nat.lt_irrefl 0)

variable (hdoc : server.Documented repo.tableName table)
include hdoc

section Update

variable {st : Statement} {u : SqlUpdate}
  (hread : (sqlTokens sql).bind (readChange repo.tableName) = some (.update u))

include hread

/-- An `UPDATE` whose values fit does to the rows what `f` says. -/
theorem does_update (h : updateOf st = some u) (hvalue : (charset.chars u.value).isSome = true)
    {f : OrderRow → OrderRow}
    (hcells : ∀ now, ∃ cells, u.sets.mapM (schema.assign charset now) = some cells ∧
      (∀ cell ∈ cells, cell.1 ∈ writtenColumns) ∧ ∀ row, cells.foldl put row = f row) :
    Does server table sql s (OrderTable.rewrite u.value f (orderRows (table s))) := by
  obtain ⟨now, hnow⟩ := hdoc.updated hread (updateOf_ok h) hvalue s
  obtain ⟨cells, hassign, hwritten, hput⟩ := hcells now
  obtain ⟨hrows, n, hn, hcount⟩ := hnow cells hassign
  rw [(updateOf_columns h).2.1] at hrows hcount
  have hseen : orderRows (table (server.update sql s).2) =
      OrderTable.rewriteRows u.value f (orderRows (table s)) := by
    rw [orderRows, hrows]
    refine rewriteRows_orderRows (fun row hmem => meets_orderId hmem u.value) fun row hmem => ?_
    rw [orderRow_setAll (SqlSchema.map_fst_of_conforms ((table s).conforms row hmem)) hwritten, hput]
  refine ⟨hseen, fun hpos => ⟨_, ?_, rfl⟩, fun hzero => ?_⟩
  · rw [hn, Option.getD_some] at hpos
    rw [← countP_orderId]
    rcases hcount with rfl | rfl
    · exact hpos
    · refine Nat.lt_of_lt_of_le hpos (List.countP_mono_left fun row _ hrow => ?_)
      exact (Bool.and_eq_true_iff.mp hrow).1
  · rw [hn, Option.getD_some] at hzero
    change OrderTable.rewriteRows u.value f (orderRows (table s)) = _
    rcases hcount with rfl | rfl
    · exact OrderTable.rewriteRows_of_countP_eq_zero (by rwa [← countP_orderId])
    · -- each row that was found has the cells already
      rw [← hseen, orderRows, hrows, orderRows]
      congr 1
      refine (List.map_congr_left fun row hrow => ?_).trans (List.map_id _)
      have hsame := List.countP_eq_zero.mp hzero row hrow
      by_cases hmeets : SqlTable.meets (ascii "order_id") u.value row = true
      · rw [if_pos hmeets]
        simpa [hmeets] using hsame
      · rw [if_neg hmeets]
        rfl

theorem does_updatePayment {id : Bytes} {paid : Float} {paidAt : TimePoint}
    (h : updateOf (.updatePayment id paid paidAt) = some u)
    (hid : (charset.chars id).isSome = true) :
    Does server table sql s
      (OrderTable.update (.updatePayment id paid paidAt) (orderRows (table s))) := by
  have hpaid : ascii "Paid" = OrderStatus.kPaid.toString := by decide
  obtain rfl := Option.some.inj h
  cases hamount : OrderTable.sqlDouble paid with
  | none =>
    have hmem : ⟨ascii "total_amount", .double, true⟩ ∈ schema.columns := by simp [schema]
    refine does_refused (hdoc.rejected hread ⟨_, hmem, _, List.mem_cons_of_mem _ List.mem_cons_self,
      paid, rfl, hamount⟩ s) ?_
    simp only [OrderTable.update, hamount]
  | some amount =>
    rw [OrderTable.update_updatePayment hamount]
    refine does_update hdoc hread h hid fun now => ⟨[(ascii "status", .string (ascii "Paid")),
      (ascii "total_amount", .double amount),
      (ascii "updated_at", .datetime paidAt.seconds.toInt)], ?_, by simp [writtenColumns], ?_⟩
    · simp only [List.mapM_cons, List.mapM_nil, hpaid, assign_status, assign_totalAmount, hamount,
        assign_updatedAt, Option.map_some, Option.bind_eq_bind, Option.bind_some, Option.pure_def]
    · intro row
      simp [put, ascii, stringOf, amountOf, OrderTable.withPayment]

/-- An `UPDATE` of the repository does what the server takes it to do. -/
theorem does_updateOf (h : updateOf st = some u) (hplain : st.Plain charset) :
    Does server table sql s (OrderTable.update st (orderRows (table s))) := by
  cases st with
  | updateStatus id s' reason =>
    obtain rfl := Option.some.inj h
    have hid := hplain.encoded id (by simp [Statement.data])
    refine does_update hdoc hread h hid fun now => ⟨[(ascii "status", .string s'.toString),
      (ascii "status_reason", .string reason), (ascii "updated_at", .datetime now.toInt)], ?_,
      by simp [writtenColumns], ?_⟩
    · simp only [List.mapM_cons, List.mapM_nil, assign_status,
        assign_statusReason charset now hplain.storable, assign_updatedAt_now, Option.bind_eq_bind,
        Option.bind_some, Option.pure_def]
    · intro row
      simp [put, ascii, stringOf]
  | updatePayment id paid paidAt =>
    exact does_updatePayment hdoc hread h (hplain.encoded id (by simp [Statement.data]))
  | updatePayload id payload =>
    obtain rfl := Option.some.inj h
    have hid := hplain.encoded id (by simp [Statement.data])
    refine does_update hdoc hread h hid fun now => ⟨[(ascii "payload_json", .string payload),
      (ascii "updated_at", .datetime now.toInt)], ?_, by simp [writtenColumns], ?_⟩
    · simp only [List.mapM_cons, List.mapM_nil, assign_payloadJson charset now hplain.storable,
        assign_updatedAt_now, Option.bind_eq_bind, Option.bind_some, Option.pure_def]
    · intro row
      simp [put, ascii, stringOf]
  | touch id ts =>
    obtain rfl := Option.some.inj h
    have hid := hplain.encoded id (by simp [Statement.data])
    refine does_update hdoc hread h hid fun now => ⟨[(ascii "updated_at",
      .datetime ts.seconds.toInt)], ?_, by simp [writtenColumns], ?_⟩
    · simp only [List.mapM_cons, List.mapM_nil, assign_updatedAt, Option.bind_eq_bind,
        Option.bind_some, Option.pure_def]
    · intro row
      simp [put, ascii]
  | _ => cases h

end Update

theorem does_delete {id : Bytes} (hid : (charset.chars id).isSome = true)
    (hread : (sqlTokens sql).bind (readChange repo.tableName) =
      some (.delete (ascii "order_id") id)) :
    Does server table sql s (OrderTable.update (.delete id) (orderRows (table s))) := by
  have hknown : ascii "order_id" ∈ schema.names := by simp [SqlSchema.names, schema]
  obtain ⟨hcount, hrows⟩ := hdoc.deleted hread hknown hid s
  have hrest : orderRows (table (server.update sql s).2) =
      (orderRows (table s)).filter fun row => row.orderId ≠ id := by
    rw [orderRows, hrows]
    apply map_filter_of_iff
    intro row hrow
    have hmeets := meets_orderId hrow id
    by_cases hid : (orderRow row).orderId = id
    · simp [hmeets.mpr hid, hid]
    · simp [mt hmeets.mp hid, hid]
  refine ⟨hrest, fun hpos => ⟨_, ?_, rfl⟩, fun hzero => ?_⟩
  · rwa [hcount, Option.getD_some, countP_orderId] at hpos
  · rw [hcount, Option.getD_some, countP_orderId] at hzero
    refine List.filter_eq_self.mpr fun row hrow => ?_
    simpa using List.countP_eq_zero.mp hzero row hrow

section Insert

variable {r : Record} (hstrings : StringsFit charset r)
include hstrings

omit hdoc in
/-- The database and the server agree on the rows that there are. -/
theorem row_cases :
    (∃ amount, schema.row charset schema.names (insertValues r) = some (rowWith r amount) ∧
        OrderTable.rowOf r = some (OrderTable.rowWith r amount)) ∨
      ((∃ p ∈ schema.columns.zip (insertValues r), p.1.type.Rejects p.2) ∧
        OrderTable.rowOf r = none) := by
  by_cases hquantity : 2 ^ 31 ≤ r.quantity.toNat
  · refine .inr ⟨⟨(⟨ascii "quantity", .int, true⟩, .number (decimal r.quantity.toNat)), ?_,
      _, rfl, hquantity⟩, if_pos hquantity⟩
    simp [schema, insertValues]
  · cases hamount : OrderTable.sqlDouble r.totalAmount with
    | none =>
      refine .inr ⟨⟨(⟨ascii "total_amount", .double, true⟩, .number (generalSix r.totalAmount)), ?_,
        _, rfl, hamount⟩, ?_⟩
      · simp [schema, insertValues]
      · rw [OrderTable.rowOf, if_neg hquantity, hamount]
        rfl
    | some amount =>
      refine .inl ⟨amount, row_of_fits (by omega) hamount hstrings, ?_⟩
      rw [OrderTable.rowOf, if_neg hquantity, hamount]
      rfl

omit hstrings in
theorem does_added {c : SqlChange}
    (hread : (sqlTokens sql).bind (readChange repo.tableName) = some c)
    (hinserts : c.inserts = some (schema.names, insertValues r)) {amount : Float}
    (hrow : schema.row charset schema.names (insertValues r) = some (rowWith r amount))
    (hrowOf : OrderTable.rowOf r = some (OrderTable.rowWith r amount))
    (hnew : ¬∃ row ∈ orderRows (table s), row.orderId = r.orderId) :
    Does server table sql s (OrderTable.insertRow r (orderRows (table s))) := by
  obtain ⟨hcount, hrows⟩ := hdoc.added hread hinserts hrow s
    (mt (key_mem_iff (table s) r amount).mp hnew)
  have hinsert := OrderTable.insertRow_of_new hrowOf fun row hmem hid => hnew ⟨row, hmem, hid⟩
  rw [hinsert]
  refine ⟨?_, fun _ => ⟨1, Nat.one_pos, rfl⟩, fun hzero => ?_⟩
  · rw [orderRows, hrows, List.map_append, List.map_singleton, orderRow_rowWith]
    rfl
  · rw [hcount] at hzero
    exact absurd hzero Nat.one_ne_zero

theorem does_insert (hread : (sqlTokens sql).bind (readChange repo.tableName) =
      some (.insert schema.names (insertValues r))) :
    Does server table sql s (OrderTable.insertRow r (orderRows (table s))) := by
  rcases row_cases hstrings with ⟨amount, hrow, hrowOf⟩ | ⟨hrejects, hrowOf⟩
  · by_cases hold : ∃ row ∈ orderRows (table s), row.orderId = r.orderId
    · refine does_refused (hdoc.duplicate hread hrow s
        ((key_mem_iff (table s) r amount).mpr hold)) ?_
      simp only [OrderTable.insertRow, hrowOf, if_pos hold]
    · exact does_added hdoc hread rfl hrow hrowOf hold
  · refine does_refused (hdoc.rejected hread ⟨rfl, hrejects⟩ s) ?_
    simp only [OrderTable.insertRow, hrowOf]

/-- What an upsert writes where the order is there. -/
def withUpsert (r : Record) (row : OrderRow) : OrderRow :=
  { row with
    status := r.status.toString, statusReason := r.statusReason, payloadJson := r.payloadJson }

omit hdoc hstrings in
theorem orderRow_overwritten {row : SqlRow} (hrow : row.map Prod.fst = schema.names)
    (amount : Float) :
    orderRow (row.setAll (SqlTable.cellsOf (rowWith r amount) overwrittenColumns)) =
      withUpsert r (orderRow row) := by
  have hcells : SqlTable.cellsOf (rowWith r amount) overwrittenColumns = [
      (ascii "status", .string r.status.toString), (ascii "status_reason", .string r.statusReason),
      (ascii "payload_json", .string r.payloadJson),
      (ascii "updated_at", .datetime r.updatedAt.seconds.toInt)] := by
    have hget : ∀ name cell, (name, cell) ∈ rowWith r amount →
        (rowWith r amount).get name = some cell := fun _ cell => rowWith_get cell
    simp only [SqlTable.cellsOf, overwrittenColumns, List.filterMap_cons, List.filterMap_nil,
      hget (ascii "status") (.string r.status.toString) (by simp [rowWith]),
      hget (ascii "status_reason") (.string r.statusReason) (by simp [rowWith]),
      hget (ascii "payload_json") (.string r.payloadJson) (by simp [rowWith]),
      hget (ascii "updated_at") (.datetime r.updatedAt.seconds.toInt) (by simp [rowWith]),
      Option.map_some]
  rw [hcells, orderRow_setAll hrow (by simp [writtenColumns])]
  simp [put, ascii, stringOf, withUpsert]

theorem does_upsert (hread : (sqlTokens sql).bind (readChange repo.tableName) =
      some (.upsert (upsertOf r))) :
    Does server table sql s (OrderTable.update (.upsert r) (orderRows (table s))) := by
  have hupdate : OrderTable.update (.upsert r) (orderRows (table s)) =
      if (OrderTable.rowOf r).isSome ∧ ∃ row ∈ orderRows (table s), row.orderId = r.orderId then
        (.ok 2, OrderTable.rewriteRows r.orderId (withUpsert r) (orderRows (table s)))
      else OrderTable.insertRow r (orderRows (table s)) := rfl
  rw [hupdate]
  rcases row_cases hstrings with ⟨amount, hrow, hrowOf⟩ | ⟨hrejects, hrowOf⟩
  · rw [hrowOf]
    by_cases hold : ∃ row ∈ orderRows (table s), row.orderId = r.orderId
    · have hapart : schema.primaryKey ∉ overwrittenColumns :=
        fun hkey => (of_mem_writtenColumns _ (mem_writtenColumns hkey)).2.1 rfl
      obtain ⟨hrows, n, hn, hcount⟩ := hdoc.overwritten hread
        (SqlTable.overwrites_iff.mpr ⟨names_nodup, hapart⟩) hrow s
        ((key_mem_iff (table s) r amount).mpr hold)
      have hseen : orderRows (table (server.update sql s).2) =
          OrderTable.rewriteRows r.orderId (withUpsert r) (orderRows (table s)) := by
        rw [orderRows, hrows]
        refine rewriteRows_orderRows (fun row hmem => ?_) fun row hmem =>
          orderRow_overwritten (SqlSchema.map_fst_of_conforms ((table s).conforms row hmem)) amount
        have hid : (rowWith r amount).get schema.primaryKey = some (.string r.orderId) :=
          rowWith_get (.string r.orderId) (by simp [rowWith, schema])
        have hrowid : row.get schema.primaryKey = _ := get_orderId ((table s).conforms row hmem)
        rw [hid, hrowid]
        simp
      rw [if_pos ⟨rfl, hold⟩]
      refine ⟨hseen, fun _ => ⟨2, Nat.two_pos, rfl⟩, fun hzero => ?_⟩
      rw [hn, Option.getD_some] at hzero
      rcases hcount with rfl | ⟨-, hsame⟩
      · cases hzero
      · rw [← hseen, orderRows, hsame, orderRows]
    · rw [if_neg fun h => hold h.2]
      exact does_added hdoc hread rfl hrow hrowOf hold
  · rw [hrowOf, if_neg (fun h => by cases h.1)]
    refine does_refused (hdoc.rejected hread ⟨rfl, hrejects⟩ s) ?_
    simp only [OrderTable.insertRow, hrowOf]

end Insert

/-- The text of a statement with plain strings does what the server takes the statement to do. -/
theorem does_build (hname : 39 ∉ repo.tableName) {st : Statement} (hst : st.IsChange)
    (hplain : st.Plain charset) :
    Does server table (repo.build st) s (OrderTable.update st (orderRows (table s))) := by
  have hread : ∀ {c}, changeOf st = some c → _ := fun hc => read_change hname hplain.quoted hc
  cases st with
  | insert r => exact does_insert hdoc hplain.storable (hread rfl)
  | upsert r => exact does_upsert hdoc hplain.storable (hread rfl)
  | delete id =>
    exact does_delete hdoc (hplain.encoded id (by simp [Statement.data])) (hread rfl)
  | updateStatus id s reason => exact does_updateOf hdoc (hread rfl) rfl hplain
  | updatePayment id paid paidAt => exact does_updateOf hdoc (hread rfl) rfl hplain
  | updatePayload id payload => exact does_updateOf hdoc (hread rfl) rfl hplain
  | touch id ts => exact does_updateOf hdoc (hread rfl) rfl hplain
  | selectById id => exact hst.elim
  | selectByUser uid limit offset => exact hst.elim
  | selectRecent limit => exact hst.elim

end Does

section Select

/-- At most one row has the key. -/
theorem length_byId_le (t : SqlTable charset schema) (id : Bytes) :
    (t.rows.filter (SqlTable.meets (ascii "order_id") id)).length ≤ 1 := by
  have hkeys : ((t.rows.filter (SqlTable.meets (ascii "order_id") id)).map
      (SqlRow.get · schema.primaryKey)).Nodup := t.keys.sublist (List.filter_sublist.map _)
  have hsame : ∀ key ∈ (t.rows.filter (SqlTable.meets (ascii "order_id") id)).map
      (SqlRow.get · schema.primaryKey), key = some (.string id) := by
    intro key hkey
    obtain ⟨row, hrow, rfl⟩ := List.mem_map.mp hkey
    exact of_decide_eq_true (List.mem_filter.mp hrow).2
  rw [List.eq_replicate_of_mem hsame, List.length_map] at hkeys
  exact List.nodup_replicate.mp hkeys

variable {σ : Type} {server : SqlServer σ} {table : σ → SqlTable charset schema}
  (hdoc : server.Documented repo.tableName table) (hname : 39 ∉ repo.tableName)
include hdoc hname

theorem query_byId {id : Bytes} (hplain : (Statement.selectById id).Plain charset) (s : σ) :
    (server.database repo).query (.selectById id) s =
      .ok ((orderRows (table s)).filter fun row => row.orderId = id) := by
  have hread : (sqlTokens (repo.build (.selectById id))).bind (readSelect repo.tableName) =
      some ⟨ascii "order_id", id, none⟩ := by
    rw [tokens_build hname _ hplain.quoted, intended_selectById, Option.bind_some]
    exact readSelect_tokens (by simp [ascii]) (by simp)
  obtain ⟨found, hperm, -, hquery⟩ := hdoc.selected hread (by simp [SqlSchema.names, schema])
    (by simp) (hplain.encoded id (by simp [Statement.data])) s
  have hfound : found = (table s).rows.filter (SqlTable.meets (ascii "order_id") id) := by
    have hle := length_byId_le (table s) id
    change found.Perm ((table s).rows.filter (SqlTable.meets (ascii "order_id") id)) at hperm
    generalize (table s).rows.filter (SqlTable.meets (ascii "order_id") id) = rows at hperm hle ⊢
    cases rows with
    | nil => exact hperm.eq_nil
    | cons row rest =>
      obtain rfl : rest = [] := List.eq_nil_of_length_eq_zero (by simpa using hle)
      exact List.perm_singleton.mp hperm
  unfold SqlServer.database
  dsimp only
  rw [hquery, hfound]
  exact congrArg Except.ok (filter_orderId (table s) id)

theorem query_byUser {uid : Bytes} {limit offset : UInt64}
    (hplain : (Statement.selectByUser uid limit offset).Plain charset) (s : σ) :
    ∃ found : List OrderRow,
      found.Perm ((orderRows (table s)).filter fun row => row.userId = uid) ∧
      found.Pairwise (fun row row' => row'.createdAt ≤ row.createdAt) ∧
      (server.database repo).query (.selectByUser uid limit offset) s =
        .ok ((found.drop offset.toNat).take limit.toNat) := by
  have hread : (sqlTokens (repo.build (.selectByUser uid limit offset))).bind
      (readSelect repo.tableName) =
      some ⟨ascii "user_id", uid, some (ascii "created_at", limit.toNat, offset.toNat)⟩ := by
    have hblank : 32 ∉ ascii "created_at" := by simp [ascii]
    rw [tokens_build hname _ hplain.quoted, intended_selectByUser, Option.bind_some]
    exact readSelect_tokens (by simp [ascii]) (by simpa using hblank)
  obtain ⟨found, hperm, hsorted, hquery⟩ := hdoc.selected hread
    (by simp [SqlSchema.names, schema]) (by simp [SqlSchema.names, schema])
    (hplain.encoded uid (by simp [Statement.data])) s
  have hfilter : (table s).rows.filter (SqlTable.meets (ascii "user_id") uid) =
      (table s).rows.filter fun row => row.get (ascii "user_id") = some (.string uid) := rfl
  refine ⟨found.map orderRow, ?_, ?_, ?_⟩
  · rw [← filter_userId, ← hfilter]
    exact hperm.map orderRow
  · have hconforms : ∀ row ∈ found, schema.Conforms charset row := fun row hrow =>
      (table s).conforms row (List.mem_of_mem_filter (hperm.mem_iff.mp hrow))
    rw [List.pairwise_map]
    refine (hsorted _ rfl).imp_of_mem fun {row row'} hrow hrow' hleads => ?_
    rw [SqlRow.leads, time_createdAt (hconforms row hrow), time_createdAt (hconforms row' hrow'),
      decide_eq_true_eq] at hleads
    exact Int64.le_iff_toInt_le.mpr hleads
  · unfold SqlServer.database
    dsimp only
    rw [hquery, Option.getD_some, SqlSelect.cut]
    simp only [List.map_take, List.map_drop]

end Select

end OrderColumns

end MuduoPlus
