import MuduoPlus.OrderColumns

namespace MuduoPlus

namespace OrderColumns

open OrderRepository

variable {charset : Charset} {repo : OrderRepository} {r : Record} {t : SqlTable charset schema}

/-- The table as the rest of the server sees it. -/
def orderRows (t : SqlTable charset schema) : OrderTable := t.rows.map orderRow

section Refinement

variable {rows : List SqlRow}

theorem parseMany_of_conforms (h : ∀ row ∈ rows, schema.Conforms charset row) :
    parseMany rows = some (OrderRepository.parseMany (rows.map orderRow)) := by
  rw [parseMany, mapM_eq_some_iff, OrderRepository.parseMany, List.map_map,
    List.forall₂_map_right_iff, List.forall₂_same]
  intro row hrow
  exact parseSingle_of_conforms (h row hrow)

theorem filter_orderId (t : SqlTable charset schema) (id : Bytes) :
    (t.rows.filter fun row => row.get (ascii "order_id") = some (.string id)).map orderRow =
      (orderRows t).filter fun row => row.orderId = id := by
  apply map_filter_of_iff
  intro row hrow
  rw [get_orderId (t.conforms row hrow)]
  simp

theorem filter_userId (t : SqlTable charset schema) (uid : Bytes) :
    (t.rows.filter fun row => row.get (ascii "user_id") = some (.string uid)).map orderRow =
      (orderRows t).filter fun row => row.userId = uid := by
  apply map_filter_of_iff
  intro row hrow
  rw [get_userId (t.conforms row hrow)]
  simp

/-- The page of the `SELECT` is the page of the rows that the server sees. -/
theorem page_orderRows (t : SqlTable charset schema) (uid : Bytes) (limit offset : UInt64) :
    (SqlSelect.rows ⟨ascii "user_id", uid, some (ascii "created_at", limit.toNat, offset.toNat)⟩
      t.rows).map orderRow = OrderTable.page uid limit offset (orderRows t) := by
  unfold SqlSelect.rows OrderTable.page OrderTable.newestFirst
  dsimp only
  rw [List.map_take, List.map_drop, ← filter_userId]
  congr 2
  -- both sort by the seconds of `created_at`, once as a cell and once as a 64-bit number
  apply List.map_insertionSort
  intro row hrow row' hrow'
  have hconforms := t.conforms row (List.mem_of_mem_filter hrow)
  have hconforms' := t.conforms row' (List.mem_of_mem_filter hrow')
  rw [SqlRow.leads, time_createdAt hconforms, time_createdAt hconforms', decide_eq_true_eq,
    Int64.le_iff_toInt_le]

/-- `GetById` through the text and the named columns. -/
theorem getById_eq (hname : 39 ∉ repo.tableName) {id : Bytes} (hid : 39 ∉ id ∧ 92 ∉ id)
    (t : SqlTable charset schema) :
    getById repo id t = .ok (((orderRows t).find? fun row => row.orderId = id).map
      OrderRepository.parseSingle) := by
  have hquery := query_selectById (t := t) hname hid
  have hrows := filter_orderId t id
  rw [← List.head?_filter, ← hrows]
  unfold getById
  rw [hquery]
  change parseFirst (t.rows.filter fun row => row.get (ascii "order_id") = some (.string id)) = _
  cases hfound : t.rows.filter fun row => row.get (ascii "order_id") = some (.string id) with
  | nil => rfl
  | cons row rest =>
    have hrow : row ∈ t.rows := List.mem_of_mem_filter (hfound ▸ List.mem_cons_self)
    rw [parseFirst, parseSingle_of_conforms (t.conforms row hrow)]
    rfl

theorem listByUser_eq (hname : 39 ∉ repo.tableName) {uid : Bytes} (huid : 39 ∉ uid ∧ 92 ∉ uid)
    (limit offset : UInt64) (t : SqlTable charset schema) :
    listByUser repo uid limit offset t =
      .ok (OrderRepository.parseMany (OrderTable.page uid limit offset (orderRows t))) := by
  have hquery := query_selectByUser (t := t) hname huid limit offset
  rw [← page_orderRows]
  unfold listByUser
  rw [hquery]
  change ofAnswer (parseMany _) = _
  rw [parseMany_of_conforms fun row hrow => t.conforms row (SqlSelect.mem_of_mem_rows hrow).1]
  rfl

theorem key_mem_iff (t : SqlTable charset schema) (r : Record) (amount : Float) :
    (rowWith r amount).get schema.primaryKey ∈ t.rows.map (SqlRow.get · schema.primaryKey) ↔
      ∃ row ∈ orderRows t, row.orderId = r.orderId := by
  have hkey : (rowWith r amount).get schema.primaryKey = some (.string r.orderId) :=
    rowWith_get (.string r.orderId) (by simp [rowWith, schema])
  rw [hkey, List.mem_map]
  constructor
  · rintro ⟨row, hrow, hget⟩
    have hid := (get_orderId (t.conforms row hrow)).symm.trans hget
    refine ⟨orderRow row, List.mem_map_of_mem hrow, ?_⟩
    simpa using hid
  · rintro ⟨seen, hseen, hid⟩
    obtain ⟨row, hrow, rfl⟩ := List.mem_map.mp hseen
    refine ⟨row, hrow, ?_⟩
    rw [← hid]
    exact get_orderId (t.conforms row hrow)

/-- Where the database makes no row of an `INSERT`, the text is refused. -/
theorem insert_refused (hname : 39 ∉ repo.tableName)
    (hclean : ∀ v ∈ (Statement.insert r).data, 39 ∉ v ∧ 92 ∉ v)
    (h : ¬(StringsFit charset r ∧ OrderTable.Fits r)) : insert repo r t = (.ok false, t) := by
  have hread := read_insert hname hclean
  have hrow : schema.row charset (schema.columns.map (·.name)) (insertValues r) = none := by
    cases hrow : schema.row charset (schema.columns.map (·.name)) (insertValues r) with
    | none => rfl
    | some row =>
      obtain ⟨hstrings, hquantity, hamount⟩ := fits_of_row hrow
      exact absurd ⟨hstrings, hquantity, hamount⟩ h
  unfold insert
  rw [SqlTable.update_of_read hread, SqlTable.store_refused hrow]

/-- A new order that fits becomes the last row. -/
theorem insert_stores (hname : 39 ∉ repo.tableName)
    (hclean : ∀ v ∈ (Statement.insert r).data, 39 ∉ v ∧ 92 ∉ v) {amount : Float}
    (hstrings : StringsFit charset r) (hquantity : r.quantity.toNat < 2 ^ 31)
    (hamount : OrderTable.sqlDouble r.totalAmount = some amount)
    (hnew : ¬∃ row ∈ orderRows t, row.orderId = r.orderId) :
    (insert repo r t).1 = .ok true ∧
      orderRows (insert repo r t).2 = orderRows t ++ [OrderTable.rowWith r amount] := by
  have hread := read_insert hname hclean
  have hrow := row_of_fits hquantity hamount hstrings
  obtain ⟨t', hstore, hrows⟩ := SqlTable.store_new hrow (mt (key_mem_iff t r amount).mp hnew)
  unfold insert
  rw [SqlTable.update_of_read hread, hstore]
  refine ⟨rfl, ?_⟩
  dsimp only
  rw [orderRows, hrows, List.map_append, List.map_singleton, orderRow_rowWith]
  rfl

end Refinement

section ReadBack

/-- What is read back of a record that is stored with its amount. -/
def readBack (r : Record) : Record := OrderRepository.parseSingle (OrderTable.rowWith r r.totalAmount)

theorem code_lt_of_read {s : OrderStatus}
    (h : OrderStatus.orderStatusFromString s.toString = s) : s.code < 7 := by
  cases s with
  | unnamed code hcode =>
    have hunknown : OrderStatus.orderStatusFromString (ascii "Unknown") = .kPending := by decide
    rw [OrderStatus.toString, hunknown] at h
    cases h
  | _ => decide

theorem status_read {s : OrderStatus} (h : s.code < 7) :
    OrderStatus.orderStatusFromString s.toString = s := by
  cases s with
  | unnamed code hcode => exact absurd h (by simpa [OrderStatus.code] using hcode)
  | _ => decide

/-- A record is what is read back for it if its status has a name and its times are the epoch. -/
theorem readBack_eq_iff :
    readBack r = r ↔ r.status.code < 7 ∧ r.createdAt = 0 ∧ r.updatedAt = 0 := by
  constructor
  · intro h
    have hstatus := congrArg Record.status h
    have hcreated := congrArg Record.createdAt h
    have hupdated := congrArg Record.updatedAt h
    exact ⟨code_lt_of_read hstatus, hcreated.symm, hupdated.symm⟩
  · rintro ⟨hstatus, hcreated, hupdated⟩
    have hread := status_read hstatus
    have hquantity := OrderTable.rowWith_quantity (r := r) r.totalAmount
    obtain ⟨⟨orderId, productId, quantity⟩, userId, totalAmount, currency, status, statusReason,
      payloadJson, createdAt, updatedAt⟩ := r
    subst hcreated hupdated
    unfold readBack OrderRepository.parseSingle
    dsimp only [OrderTable.rowWith] at hread hquantity ⊢
    rw [hread, hquantity]

/-- A stored order reads back in full: `Insert` succeeds, `GetById` then gives the record, and so
does each list of the user's orders that the order is on. -/
structure ReadsBack (repo : OrderRepository) (r : Record) (t : SqlTable charset schema) :
    Prop where
  insert_ok : (insert repo r t).1 = .ok true
  getById_eq : getById repo r.orderId (insert repo r t).2 = .ok (some r)
  list_ok : ∀ limit offset, ∃ records,
    listByUser repo r.userId limit offset (insert repo r t).2 = .ok records ∧
      (∀ r' ∈ records, r'.orderId = r.orderId → r' = r) ∧
      (offset = 0 → (insert repo r t).2.rows.length ≤ limit.toNat → r ∈ records)

section Stored

variable {t' : SqlTable charset schema}
  (hnew : ¬∃ row ∈ orderRows t, row.orderId = r.orderId)
  (hrows : orderRows t' = orderRows t ++ [OrderTable.rowWith r r.totalAmount])
include hnew hrows

theorem getById_stored (hname : 39 ∉ repo.tableName) (hid : 39 ∉ r.orderId ∧ 92 ∉ r.orderId) :
    getById repo r.orderId t' = .ok (some (readBack r)) := by
  have hold : (orderRows t).find? (fun row => row.orderId = r.orderId) = none := by
    rw [List.find?_eq_none]
    intro row hrow hrowid
    exact hnew ⟨row, hrow, by simpa using hrowid⟩
  have hfound : (OrderTable.rowWith r r.totalAmount).orderId = r.orderId := rfl
  rw [getById_eq hname hid, hrows, List.find?_append, hold, Option.none_or,
    List.find?_cons_of_pos (by simpa using hfound)]
  rfl

theorem listByUser_stored (hname : 39 ∉ repo.tableName)
    (huid : 39 ∉ r.userId ∧ 92 ∉ r.userId) (limit offset : UInt64) :
    ∃ records, listByUser repo r.userId limit offset t' = .ok records ∧
      (∀ r' ∈ records, r'.orderId = r.orderId → r' = readBack r) ∧
      (offset = 0 → t'.rows.length ≤ limit.toNat → readBack r ∈ records) := by
  refine ⟨_, listByUser_eq hname huid limit offset t', ?_, ?_⟩
  · intro r' hr' hid
    obtain ⟨row, hrow, rfl⟩ := List.mem_map.mp hr'
    have hmem := OrderTable.mem_of_mem_page hrow
    rw [hrows, List.mem_append, List.mem_singleton] at hmem
    rcases hmem with hold | rfl
    · exact absurd ⟨row, hold, hid⟩ hnew
    · rfl
  · intro hoffset hlength
    apply List.mem_map_of_mem
    have hall : (orderRows t').length ≤ limit.toNat := by
      rw [orderRows, List.length_map]
      exact hlength
    rw [hoffset]
    apply OrderTable.mem_page_of_length_le hall
    · rw [hrows]
      exact List.mem_append_right _ List.mem_cons_self
    · rfl

end Stored

/-- A record reads back in full exactly when it fits its columns, its status has a name, and both
of its times are the epoch: the times are stored, and `ParseSingle` does not read them. -/
theorem readsBack_iff (hname : 39 ∉ repo.tableName)
    (hclean : ∀ v ∈ (Statement.insert r).data, 39 ∉ v ∧ 92 ∉ v)
    (hamount : OrderTable.sqlDouble r.totalAmount = some r.totalAmount)
    (hnew : ∀ row ∈ t.rows, row.get (ascii "order_id") ≠ some (.string r.orderId)) :
    ReadsBack repo r t ↔
      (StringsFit charset r ∧ r.quantity.toNat < 2 ^ 31) ∧
        r.status.code < 7 ∧ r.createdAt = 0 ∧ r.updatedAt = 0 := by
  have hid := hclean r.orderId (by simp [Statement.data])
  have huser := hclean r.userId (by simp [Statement.data])
  have hfree : ¬∃ row ∈ orderRows t, row.orderId = r.orderId := by
    rintro ⟨seen, hseen, hseenid⟩
    obtain ⟨row, hrow, rfl⟩ := List.mem_map.mp hseen
    apply hnew row hrow
    rw [← hseenid]
    exact get_orderId (t.conforms row hrow)
  rw [← readBack_eq_iff]
  constructor
  · intro h
    -- a record that does not fit is refused, and then there is nothing to read back
    have hfits : StringsFit charset r ∧ OrderTable.Fits r := by
      by_contra hno
      have hok := h.insert_ok
      rw [insert_refused hname hclean hno] at hok
      cases hok
    have hrows := (insert_stores hname hclean hfits.1 hfits.2.1 hamount hfree).2
    have hget := getById_stored hfree hrows hname hid
    rw [h.getById_eq] at hget
    exact ⟨⟨hfits.1, hfits.2.1⟩, (Option.some.inj (Except.ok.inj hget)).symm⟩
  · rintro ⟨⟨hstrings, hquantity⟩, hback⟩
    obtain ⟨hok, hrows⟩ := insert_stores hname hclean hstrings hquantity hamount hfree
    have hget := getById_stored hfree hrows hname hid
    have hlist := listByUser_stored hfree hrows hname huser
    rw [hback] at hget hlist
    exact ⟨hok, hget, hlist⟩

def emptyTable : SqlTable singleByte schema := ⟨[], by simp, List.nodup_nil⟩

/-- An order without times. -/
def undatedOrder : Record :=
  { orderId := ascii "ORD-1", userId := ascii "u1", productId := ascii "p1", quantity := 2,
    totalAmount := 99.5, payloadJson := ascii "note" }

theorem undatedOrder_clean : ∀ v ∈ (Statement.insert undatedOrder).data, 39 ∉ v ∧ 92 ∉ v := by
  decide

theorem undatedOrder_fits : StringsFit singleByte undatedOrder where
  orderId := ⟨_, rfl, by decide⟩
  userId := ⟨_, rfl, by decide⟩
  productId := ⟨_, rfl, by decide⟩
  currency := ⟨_, rfl, by decide⟩
  statusReason := ⟨_, rfl, by decide⟩
  payloadJson := ⟨rfl, by decide⟩

theorem undatedOrder_readsBack : ReadsBack {} undatedOrder emptyTable := by
  have hamount : OrderTable.sqlDouble undatedOrder.totalAmount = some undatedOrder.totalAmount := by
    decide +kernel
  rw [readsBack_iff (by decide) undatedOrder_clean hamount fun row hrow => by cases hrow]
  exact ⟨⟨undatedOrder_fits, by decide⟩, by decide, rfl, rfl⟩

/-- The same order with times, which the create handler always sets. -/
def datedOrder : Record :=
  { undatedOrder with
    createdAt := TimePoint.ofSeconds 1700000000, updatedAt := TimePoint.ofSeconds 1700000000 }

/-- The row has both times, and the order comes back without them. -/
theorem datedOrder_loses_times :
    (insert {} datedOrder emptyTable).1 = .ok true ∧
      (orderRows (insert {} datedOrder emptyTable).2).map (·.createdAt) = [1700000000] ∧
      getById {} datedOrder.orderId (insert {} datedOrder emptyTable).2 =
        .ok (some undatedOrder) ∧
      ¬ReadsBack {} datedOrder emptyTable := by
  have hname : 39 ∉ ({} : OrderRepository).tableName := by decide
  have hamount : OrderTable.sqlDouble datedOrder.totalAmount = some datedOrder.totalAmount := by
    decide +kernel
  have hnew : ¬∃ row ∈ orderRows emptyTable, row.orderId = datedOrder.orderId := by
    rintro ⟨row, hrow, _⟩
    cases hrow
  have hfits : StringsFit singleByte datedOrder := ⟨undatedOrder_fits.orderId,
    undatedOrder_fits.userId, undatedOrder_fits.productId, undatedOrder_fits.currency,
    undatedOrder_fits.statusReason, undatedOrder_fits.payloadJson⟩
  have hclean : ∀ v ∈ (Statement.insert datedOrder).data, 39 ∉ v ∧ 92 ∉ v := undatedOrder_clean
  obtain ⟨hok, hrows⟩ := insert_stores hname hclean hfits (by decide) hamount hnew
  have hback : readBack datedOrder = undatedOrder := by decide +kernel
  have hget := getById_stored hnew hrows hname (by decide)
  rw [hback] at hget
  refine ⟨hok, ?_, hget, ?_⟩
  · rw [hrows]
    decide
  · intro h
    rw [h.getById_eq] at hget
    have hcreated := congrArg Record.createdAt (Option.some.inj (Except.ok.inj hget))
    exact absurd hcreated (by decide)

end ReadBack

end OrderColumns

end MuduoPlus
