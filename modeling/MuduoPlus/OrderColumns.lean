import MuduoPlus.OrderTable
import MuduoPlus.SqlTable

namespace MuduoPlus

namespace OrderColumns

open OrderRepository

/-- The table of `EnsureSchema`. -/
def schema : SqlSchema where
  columns := [
    { name := ascii "order_id", type := .varchar 64 },
    { name := ascii "user_id", type := .varchar 64 },
    { name := ascii "product_id", type := .varchar 64 },
    { name := ascii "quantity", type := .int },
    { name := ascii "total_amount", type := .double },
    { name := ascii "currency", type := .varchar 16 },
    { name := ascii "status", type := .varchar 32 },
    { name := ascii "status_reason", type := .varchar 255, notNull := false },
    { name := ascii "payload_json", type := .text, notNull := false },
    { name := ascii "created_at", type := .datetime },
    { name := ascii "updated_at", type := .datetime }]
  primaryKey := ascii "order_id"

/-- `isNull(column) ? "" : getString(column)`. -/
def safeString (row : SqlRow) (column : Bytes) : Option Bytes :=
  (row.get column).bind fun
    | .null => some []
    | .string value => some value
    | _ => none

def getInt (row : SqlRow) (column : Bytes) : Option Int32 :=
  (row.get column).bind fun
    | .null => some 0
    | .int value => some value
    | _ => none

def getDouble (row : SqlRow) (column : Bytes) : Option Float :=
  (row.get column).bind fun
    | .null => some 0
    | .double value => some value
    | _ => none

/-- `ParseSingle`, by the names of the columns it asks for. -/
def parseSingle (row : SqlRow) : Option Record := do
  let orderId ← safeString row (ascii "order_id")
  let userId ← safeString row (ascii "user_id")
  let productId ← safeString row (ascii "product_id")
  let quantity ← getInt row (ascii "quantity")
  let totalAmount ← getDouble row (ascii "total_amount")
  let currency ← safeString row (ascii "currency")
  let status ← safeString row (ascii "status")
  let statusReason ← safeString row (ascii "status_reason")
  let payloadJson ← safeString row (ascii "payload_json")
  some { orderId := orderId, userId := userId, productId := productId,
         quantity := quantity.toUInt32, totalAmount := totalAmount, currency := currency,
         status := OrderStatus.orderStatusFromString status, statusReason := statusReason,
         payloadJson := payloadJson }

def parseMany (rows : List SqlRow) : Option (List Record) := rows.mapM parseSingle

/-- An exception of the result set where a column cannot be read as asked for. -/
def ofAnswer {α : Type} : Option α → Except OrderException α
  | none => .error .sql
  | some a => .ok a

section Repository

variable {charset : Charset}

/-- `Insert`, with the table of `EnsureSchema` behind the connection, which answers -1 for a
statement that the database refuses. -/
def insert (repo : OrderRepository) (r : Record) (t : SqlTable charset schema) :
    Except OrderException Bool × SqlTable charset schema :=
  match t.update repo.tableName (repo.buildInsertSQL r) with
  | none => (.ok false, t)
  | some (count, t') => (.ok (decide (0 < count)), t')

/-- The record of the first row, if there is one. -/
def parseFirst : List SqlRow → Except OrderException (Option Record)
  | [] => .ok none
  | row :: _ => (ofAnswer (parseSingle row)).map some

def getById (repo : OrderRepository) (id : Bytes) (t : SqlTable charset schema) :
    Except OrderException (Option Record) :=
  match t.query repo.tableName (repo.buildSelectByIdSQL id) with
  -- The connection catches what a refused statement raises, and gives no result set.
  | none => .ok none
  | some rows => parseFirst rows

def listByUser (repo : OrderRepository) (uid : Bytes) (limit offset : UInt64)
    (t : SqlTable charset schema) : Except OrderException (List Record) :=
  match t.query repo.tableName (repo.buildSelectByUserSQL uid limit offset) with
  | none => .ok []
  | some rows => ofAnswer (parseMany rows)

end Repository

/-- The values of `BuildInsertSQL`. -/
def insertValues (r : Record) : List SqlValue := [
  .string r.orderId, .string r.userId, .string r.productId, .number (decimal r.quantity.toNat),
  .number (generalSix r.totalAmount), .string r.currency, .string r.status.toString,
  .string r.statusReason, .string r.payloadJson, .string (gmtimeText r.createdAt.seconds),
  .string (gmtimeText r.updatedAt.seconds)]

/-- The row of an order; the database reads the amount from its text. -/
def rowWith (r : Record) (amount : Float) : SqlRow := [
  (ascii "order_id", .string r.orderId), (ascii "user_id", .string r.userId),
  (ascii "product_id", .string r.productId),
  (ascii "quantity", .int (Int32.ofNat r.quantity.toNat)),
  (ascii "total_amount", .double amount), (ascii "currency", .string r.currency),
  (ascii "status", .string r.status.toString), (ascii "status_reason", .string r.statusReason),
  (ascii "payload_json", .string r.payloadJson),
  (ascii "created_at", .datetime r.createdAt.seconds.toInt),
  (ascii "updated_at", .datetime r.updatedAt.seconds.toInt)]

/-- The columns can hold the strings of the record. -/
structure StringsFit (charset : Charset) (r : Record) : Prop where
  orderId : charset.AtMost 64 r.orderId
  userId : charset.AtMost 64 r.userId
  productId : charset.AtMost 64 r.productId
  currency : charset.AtMost 16 r.currency
  statusReason : charset.AtMost 255 r.statusReason
  payloadJson : (charset.chars r.payloadJson).isSome = true ∧ r.payloadJson.length < 2 ^ 16

instance (charset : Charset) (r : Record) : Decidable (StringsFit charset r) :=
  decidable_of_iff
    (charset.AtMost 64 r.orderId ∧ charset.AtMost 64 r.userId ∧ charset.AtMost 64 r.productId ∧
      charset.AtMost 16 r.currency ∧ charset.AtMost 255 r.statusReason ∧
      (charset.chars r.payloadJson).isSome = true ∧ r.payloadJson.length < 2 ^ 16)
    ⟨fun ⟨hi, hu, hp, hc, hr, hj⟩ => ⟨hi, hu, hp, hc, hr, hj⟩,
      fun ⟨hi, hu, hp, hc, hr, hj⟩ => ⟨hi, hu, hp, hc, hr, hj⟩⟩

section Text

variable {repo : OrderRepository} {r : Record}

theorem names_nodup : (schema.columns.map (·.name)).Nodup := by decide +kernel

theorem insertColumns_eq : insertColumns =
    ascii " (" ++ ([44].intercalate (schema.columns.map (·.name)) ++ ascii ")") := by
  decide +kernel

/-- The columns of the statement are those of the table, and each has its value. -/
theorem intended_insert (repo : OrderRepository) (r : Record) :
    repo.intended (.insert r) =
      insertTokens repo.tableName (schema.columns.map (·.name)) (insertValues r) := by
  have hcomma : ascii "," = [44] := by simp [ascii]
  have hclose : ascii ")" = [41] := by simp [ascii]
  unfold intended template insertTemplate SqlTemplate.shape insertTokens insertValues
  rw [insertColumns_eq, hcomma, hclose]
  generalize [44].intercalate (schema.columns.map (·.name)) = names
  generalize ascii = f
  simp [List.intercalate, SqlValue.tokens]

theorem intended_selectById (repo : OrderRepository) (id : Bytes) :
    repo.intended (.selectById id) =
      SqlSelect.tokens repo.tableName ⟨ascii "order_id", id, none⟩ := by
  have hwhere : ascii " WHERE order_id=" = ascii " WHERE " ++ (ascii "order_id" ++ [61]) := by
    simp [ascii]
  unfold intended template SqlTemplate.shape SqlSelect.tokens
  rw [hwhere]
  generalize ascii = f
  simp

theorem intended_selectByUser (repo : OrderRepository) (uid : Bytes) (limit offset : UInt64) :
    repo.intended (.selectByUser uid limit offset) =
      SqlSelect.tokens repo.tableName
        ⟨ascii "user_id", uid, some (ascii "created_at", limit.toNat, offset.toNat)⟩ := by
  have hwhere : ascii " WHERE user_id=" = ascii " WHERE " ++ (ascii "user_id" ++ [61]) := by
    simp [ascii]
  have horder : ascii " ORDER BY created_at DESC LIMIT " =
      ascii " ORDER BY " ++ (ascii "created_at" ++ 32 :: ascii "DESC LIMIT ") := by simp [ascii]
  have hoffset : ascii " OFFSET " = 32 :: ascii "OFFSET " := by simp [ascii]
  unfold intended template SqlTemplate.shape SqlSelect.tokens pageText
  rw [hwhere, horder, hoffset]
  generalize ascii = f
  simp

/-- A statement is read as it is meant if its strings have no quotes and no backslashes. -/
theorem tokens_build (hname : 39 ∉ repo.tableName) (st : Statement)
    (hclean : ∀ v ∈ st.data, 39 ∉ v ∧ 92 ∉ v) :
    sqlTokens (repo.build st) = some (repo.intended st) := by
  rw [build_eq_text, intended]
  apply SqlTemplate.tokens_of_plain (template_wellFormed hname st)
  rw [template_plain_iff]
  intro v hv
  exact .of_clean (hclean v hv).1 (hclean v hv).2

theorem read_insert (hname : 39 ∉ repo.tableName)
    (hclean : ∀ v ∈ (Statement.insert r).data, 39 ∉ v ∧ 92 ∉ v) :
    (sqlTokens (repo.buildInsertSQL r)).bind (readInsert repo.tableName) =
      some (schema.columns.map (·.name), insertValues r) := by
  have htokens := tokens_build hname (.insert r) hclean
  rw [intended_insert] at htokens
  have hnames : ∀ name ∈ schema.columns.map (·.name), 44 ∉ name ∧ 41 ∉ name := by decide +kernel
  -- the numbers stand outside literals, but have no commas and no brackets
  have hbytes : ∀ v ∈ insertValues r, ∀ b, ¬IsGeneralByte b → .byte b ∉ v.tokens := by
    intro v hv b hb hmem
    cases v with
    | string value => simp [SqlValue.tokens] at hmem
    | number s =>
      have hs : s = decimal r.quantity.toNat ∨ s = generalSix r.totalAmount := by
        simpa [insertValues] using hv
      rcases hs with rfl | rfl
      · exact hb (isGeneralByte_decimal b (byte_mem_map.mp hmem))
      · exact hb (isGeneralByte_generalSix b (byte_mem_map.mp hmem))
  have hnumbers : ∀ v ∈ insertValues r, .byte 44 ∉ v.tokens ∧ .byte 41 ∉ v.tokens :=
    fun v hv => ⟨hbytes v hv 44 (by decide), hbytes v hv 41 (by decide)⟩
  change (sqlTokens (repo.build (.insert r))).bind _ = _
  rw [htokens]
  exact readInsert_tokens (List.cons_ne_nil _ _) hnames (List.cons_ne_nil _ _) hnumbers

variable {charset : Charset} {t : SqlTable charset schema}

theorem query_selectById (hname : 39 ∉ repo.tableName) {id : Bytes} (hid : 39 ∉ id ∧ 92 ∉ id) :
    t.query repo.tableName (repo.buildSelectByIdSQL id) =
      some (SqlSelect.rows ⟨ascii "order_id", id, none⟩ t.rows) := by
  have htokens : sqlTokens (repo.buildSelectByIdSQL id) = _ :=
    tokens_build hname (.selectById id) (by simpa [Statement.data] using hid)
  have hcolumn : 61 ∉ ascii "order_id" := by decide
  have hknown : ascii "order_id" ∈ schema.columns.map (·.name) := by decide +kernel
  rw [SqlTable.query, htokens, intended_selectById, Option.bind_some,
    readSelect_tokens hcolumn (by simp), Option.bind_some, if_pos ⟨hknown, by simp⟩]

theorem query_selectByUser (hname : 39 ∉ repo.tableName) {uid : Bytes}
    (huid : 39 ∉ uid ∧ 92 ∉ uid) (limit offset : UInt64) :
    t.query repo.tableName (repo.buildSelectByUserSQL uid limit offset) =
      some (SqlSelect.rows
        ⟨ascii "user_id", uid, some (ascii "created_at", limit.toNat, offset.toNat)⟩ t.rows) := by
  have htokens : sqlTokens (repo.buildSelectByUserSQL uid limit offset) = _ :=
    tokens_build hname (.selectByUser uid limit offset)
      (by simpa [Statement.data] using huid)
  have hcolumn : 61 ∉ ascii "user_id" := by decide
  have horder : 32 ∉ ascii "created_at" := by decide
  have hknown : ∀ name ∈ [ascii "user_id", ascii "created_at"],
      name ∈ schema.columns.map (·.name) := by decide +kernel
  rw [SqlTable.query, htokens, intended_selectByUser, Option.bind_some,
    readSelect_tokens hcolumn (by simpa using horder), Option.bind_some,
    if_pos ⟨hknown _ (by simp), by simpa using hknown _ (by simp)⟩]

end Text

section Row

variable {charset : Charset} {r : Record} {row : SqlRow}

theorem atMost_status (charset : Charset) (s : OrderStatus) : charset.AtMost 32 s.toString := by
  have hnames : ∀ name ∈ statusNames, name.all (· < 128) = true ∧ name.length ≤ 32 := by decide
  have hmem := toString_mem_statusNames s
  have hascii : ∀ b ∈ s.toString, b < 128 := by simpa using (hnames _ hmem).1
  exact ⟨_, charset.chars_ascii _ hascii, (hnames _ hmem).2⟩

/-- The row that the database makes of the values: it needs a quantity that is an `INT`, and an
amount that is a number. -/
theorem row_of_fits {amount : Float} (hquantity : r.quantity.toNat < 2 ^ 31)
    (hamount : OrderTable.sqlDouble r.totalAmount = some amount) (h : StringsFit charset r) :
    schema.row charset (schema.columns.map (·.name)) (insertValues r) =
      some (rowWith r amount) := by
  have hstatus := atMost_status charset r.status
  have hnumber : sqlNumber (generalSix r.totalAmount) = some amount := hamount
  rw [SqlSchema.row_aligned names_nodup rfl, mapM_eq_some_iff]
  simp only [schema, insertValues, rowWith, List.zip_cons_cons, List.zip_nil_left,
    List.forall₂_cons, List.forall₂_nil_left_iff, SqlType.store, h.orderId, h.userId, h.productId,
    h.currency, h.statusReason, h.payloadJson, hstatus, hnumber, readNumber_decimal, hquantity,
    sqlDatetime_seconds, if_true, and_self, Option.bind_some, Option.map_some]

theorem fits_of_row
    (h : schema.row charset (schema.columns.map (·.name)) (insertValues r) = some row) :
    StringsFit charset r ∧ r.quantity.toNat < 2 ^ 31 ∧
      (OrderTable.sqlDouble r.totalAmount).isSome = true := by
  rw [SqlSchema.row_aligned names_nodup rfl, mapM_eq_some_iff] at h
  have hstored : ∀ p ∈ schema.columns.zip (insertValues r),
      (p.1.type.store charset p.2).isSome = true := by
    intro p hp
    obtain ⟨named, _, hnamed⟩ := exists_of_forall₂ h hp
    obtain ⟨cell, hcell, _⟩ := Option.map_eq_some_iff.mp hnamed
    exact Option.isSome_of_eq_some hcell
  simp only [schema, insertValues, List.zip_cons_cons, List.forall_mem_cons, SqlType.store,
    readNumber_decimal, Option.bind_some, Option.isSome_ite, Option.isSome_map] at hstored
  obtain ⟨horder, huser, hproduct, hquantity, hamount, hcurrency, _, hreason, hpayload, _⟩ :=
    hstored
  exact ⟨⟨horder, huser, hproduct, hcurrency, hreason, hpayload⟩, hquantity, hamount⟩

theorem rowWith_get {amount : Float} {name : Bytes} (cell : SqlCell)
    (h : (name, cell) ∈ rowWith r amount) : (rowWith r amount).get name = some cell := by
  have hkeys : ((rowWith r amount).map Prod.fst).Nodup := names_nodup
  exact SqlRow.get_eq hkeys h

/-- A getter that takes `NULL` and the cells of a column gives something for each row. -/
theorem get_bind_of_conforms {α : Type} {read : SqlCell → Option α} {c : SqlColumn}
    (h : schema.Conforms charset row) (hc : c ∈ schema.columns) (hnull : ∃ a, read .null = some a)
    (hread : ∀ cell, c.type.Holds charset cell → ∃ a, read cell = some a) :
    ∃ a, (row.get c.name).bind read = some a := by
  obtain ⟨cell, hcell, hholds⟩ := schema.get_of_conforms names_nodup h hc
  rw [hcell]
  rcases hholds with hholds | ⟨rfl, _⟩
  · exact hread cell hholds
  · exact hnull

/-- What the rest of the server sees of a row. -/
def orderRow (row : SqlRow) : OrderRow where
  orderId := (safeString row (ascii "order_id")).getD []
  userId := (safeString row (ascii "user_id")).getD []
  productId := (safeString row (ascii "product_id")).getD []
  quantity := (getInt row (ascii "quantity")).getD 0
  totalAmount := (getDouble row (ascii "total_amount")).getD 0
  currency := (safeString row (ascii "currency")).getD []
  status := (safeString row (ascii "status")).getD []
  statusReason := (safeString row (ascii "status_reason")).getD []
  payloadJson := (safeString row (ascii "payload_json")).getD []
  createdAt := Int64.ofInt ((row.time (ascii "created_at")).getD 0)

theorem orderRow_rowWith (r : Record) (amount : Float) :
    orderRow (rowWith r amount) = OrderTable.rowWith r amount := by
  have hstring : ∀ {name} value, (name, SqlCell.string value) ∈ rowWith r amount →
      safeString (rowWith r amount) name = some value := by
    intro name value hmem
    rw [safeString, rowWith_get (.string value) hmem]
    rfl
  have hsame : Int32.ofNat r.quantity.toNat = r.quantity.toInt32 := by
    rw [← Int32.toInt32_toUInt32 (Int32.ofNat r.quantity.toNat), Int32.toUInt32_ofNat',
      UInt32.ofNat_toNat]
  have hquantity : getInt (rowWith r amount) (ascii "quantity") = some r.quantity.toInt32 := by
    rw [getInt, rowWith_get (.int (Int32.ofNat r.quantity.toNat)) (by simp [rowWith]), ← hsame]
    rfl
  have hamount : getDouble (rowWith r amount) (ascii "total_amount") = some amount := by
    rw [getDouble, rowWith_get (.double amount) (by simp [rowWith])]
    rfl
  have hcreated : (rowWith r amount).time (ascii "created_at") =
      some r.createdAt.seconds.toInt := by
    rw [SqlRow.time, rowWith_get (.datetime r.createdAt.seconds.toInt) (by simp [rowWith])]
  rw [orderRow, hstring r.orderId (by simp [rowWith]), hstring r.userId (by simp [rowWith]),
    hstring r.productId (by simp [rowWith]), hquantity, hamount,
    hstring r.currency (by simp [rowWith]), hstring r.status.toString (by simp [rowWith]),
    hstring r.statusReason (by simp [rowWith]), hstring r.payloadJson (by simp [rowWith]),
    hcreated]
  simp only [Option.getD_some, Int64.ofInt_toInt]
  rfl

section Conforms

variable (h : schema.Conforms charset row)
include h

theorem safeString_of_conforms {name : Bytes} {type : SqlType} {notNull : Bool}
    (hc : ⟨name, type, notNull⟩ ∈ schema.columns) (htype : (∃ n, type = .varchar n) ∨ type = .text) :
    safeString row name = some ((safeString row name).getD []) := by
  obtain ⟨value, hvalue⟩ : ∃ value, safeString row name = some value := by
    refine get_bind_of_conforms h hc ⟨[], rfl⟩ ?_
    intro cell hholds
    cases cell with
    | string value => exact ⟨value, rfl⟩
    | _ =>
      rcases htype with ⟨n, rfl⟩ | rfl
      · exact hholds.elim
      · exact hholds.elim
  rw [hvalue]
  rfl

theorem getInt_of_conforms :
    getInt row (ascii "quantity") = some ((getInt row (ascii "quantity")).getD 0) := by
  have hc : ⟨ascii "quantity", .int, true⟩ ∈ schema.columns := by simp [schema]
  obtain ⟨value, hvalue⟩ : ∃ value, getInt row (ascii "quantity") = some value := by
    refine get_bind_of_conforms h hc ⟨0, rfl⟩ ?_
    intro cell hholds
    cases cell with
    | int value => exact ⟨value, rfl⟩
    | _ => exact hholds.elim
  rw [hvalue]
  rfl

theorem getDouble_of_conforms :
    getDouble row (ascii "total_amount") = some ((getDouble row (ascii "total_amount")).getD 0) := by
  have hc : ⟨ascii "total_amount", .double, true⟩ ∈ schema.columns := by simp [schema]
  obtain ⟨value, hvalue⟩ : ∃ value, getDouble row (ascii "total_amount") = some value := by
    refine get_bind_of_conforms h hc ⟨0, rfl⟩ ?_
    intro cell hholds
    cases cell with
    | double value => exact ⟨value, rfl⟩
    | _ => exact hholds.elim
  rw [hvalue]
  rfl

theorem get_key_of_conforms (name : Bytes) (n : Nat)
    (hc : ⟨name, .varchar n, true⟩ ∈ schema.columns) :
    row.get name = some (.string ((safeString row name).getD [])) := by
  obtain ⟨cell, hcell, hholds | ⟨_, hnull⟩⟩ := schema.get_of_conforms names_nodup h hc
  · cases cell with
    | string value =>
      dsimp only at hcell
      rw [safeString, hcell]
      rfl
    | _ => exact hholds.elim
  · cases hnull

theorem get_orderId :
    row.get (ascii "order_id") = some (.string (orderRow row).orderId) :=
  get_key_of_conforms h (ascii "order_id") 64 (by simp [schema])

theorem get_userId : row.get (ascii "user_id") = some (.string (orderRow row).userId) :=
  get_key_of_conforms h (ascii "user_id") 64 (by simp [schema])

theorem time_createdAt :
    row.time (ascii "created_at") = some (orderRow row).createdAt.toInt := by
  have hc : ⟨ascii "created_at", .datetime, true⟩ ∈ schema.columns := by simp [schema]
  obtain ⟨cell, hcell, hholds | ⟨_, hnull⟩⟩ := schema.get_of_conforms names_nodup h hc
  · cases cell with
    | datetime seconds =>
      have htime : row.time (ascii "created_at") = some seconds := by
        dsimp only at hcell
        rw [SqlRow.time, hcell]
      have hseconds : (orderRow row).createdAt.toInt = seconds := by
        rw [orderRow, htime, Option.getD_some]
        exact Int64.toInt_ofInt_of_le hholds.1 hholds.2
      rw [htime, hseconds]
    | _ => exact hholds.elim
  · cases hnull

/-- Every row of the table is parsed. -/
theorem parseSingle_of_conforms :
    parseSingle row = some (OrderRepository.parseSingle (orderRow row)) := by
  have hvarchar : ∀ name n notNull, ⟨name, .varchar n, notNull⟩ ∈ schema.columns →
      safeString row name = some ((safeString row name).getD []) :=
    fun _ n _ hc => safeString_of_conforms h hc (.inl ⟨n, rfl⟩)
  have hpayload : ⟨ascii "payload_json", .text, false⟩ ∈ schema.columns := by simp [schema]
  rw [parseSingle, hvarchar (ascii "order_id") 64 true (by simp [schema]),
    hvarchar (ascii "user_id") 64 true (by simp [schema]),
    hvarchar (ascii "product_id") 64 true (by simp [schema]), getInt_of_conforms h,
    getDouble_of_conforms h, hvarchar (ascii "currency") 16 true (by simp [schema]),
    hvarchar (ascii "status") 32 true (by simp [schema]),
    hvarchar (ascii "status_reason") 255 false (by simp [schema]),
    safeString_of_conforms h hpayload (.inr rfl)]
  rfl

end Conforms

end Row

end OrderColumns

namespace OrderRepository.Statement

variable {charset : Charset} {id : Bytes} {r : Record}

/-- The columns can hold the strings of the statement. -/
def Storable (charset : Charset) : Statement → Prop
  | .insert r => OrderColumns.StringsFit charset r
  | .upsert r => OrderColumns.StringsFit charset r
  | .updateStatus _ _ reason => charset.AtMost 255 reason
  | .updatePayload _ payload => (charset.chars payload).isSome = true ∧ payload.length < 2 ^ 16
  | _ => True

instance (charset : Charset) (st : Statement) : Decidable (st.Storable charset) :=
  match st with
  | .insert r => inferInstanceAs (Decidable (OrderColumns.StringsFit charset r))
  | .upsert r => inferInstanceAs (Decidable (OrderColumns.StringsFit charset r))
  | .updateStatus _ _ reason => inferInstanceAs (Decidable (charset.AtMost 255 reason))
  | .updatePayload _ payload =>
    inferInstanceAs (Decidable ((charset.chars payload).isSome = true ∧ payload.length < 2 ^ 16))
  | .updatePayment _ _ _ => .isTrue trivial
  | .touch _ _ => .isTrue trivial
  | .delete _ => .isTrue trivial
  | .selectById _ => .isTrue trivial
  | .selectByUser _ _ _ => .isTrue trivial
  | .selectRecent _ => .isTrue trivial

/-- The statement has strings that the database takes as they are: nothing in them ends the literal
or is an escape, they are text, and the columns can hold what is stored. -/
structure Plain (charset : Charset) (st : Statement) : Prop where
  quoted : ∀ text ∈ st.data, 39 ∉ text ∧ 92 ∉ text
  encoded : ∀ text ∈ st.data, (charset.chars text).isSome = true
  storable : st.Storable charset

instance (charset : Charset) (st : Statement) : Decidable (st.Plain charset) :=
  decidable_of_iff
    ((∀ text ∈ st.data, 39 ∉ text ∧ 92 ∉ text) ∧
      (∀ text ∈ st.data, (charset.chars text).isSome = true) ∧ st.Storable charset)
    ⟨fun ⟨hq, he, hs⟩ => ⟨hq, he, hs⟩, fun ⟨hq, he, hs⟩ => ⟨hq, he, hs⟩⟩

theorem Plain.selectById {s : OrderStatus} {reason : Bytes}
    (h : (updateStatus id s reason).Plain charset) : (selectById id).Plain charset where
  quoted text ht := h.quoted text (List.mem_cons_of_mem reason ht)
  encoded text ht := h.encoded text (List.mem_cons_of_mem reason ht)
  storable := trivial

theorem Plain.selectByUser {uid : Bytes} {limit offset : UInt64}
    (h : (selectByUser uid limit offset).Plain charset) (limit' offset' : UInt64) :
    (Statement.selectByUser uid limit' offset').Plain charset :=
  ⟨h.quoted, h.encoded, trivial⟩

/-- The same record with another reason, status and times. -/
theorem Plain.insert (h : (Statement.insert r).Plain charset) {reason : Bytes}
    (hreason : ∀ b ∈ reason, b < 128 ∧ b ≠ 39 ∧ b ≠ 92) (hlength : reason.length ≤ 255)
    (status : OrderStatus) (createdAt updatedAt : TimePoint) :
    (Statement.insert { r with status, statusReason := reason, createdAt, updatedAt }).Plain
      charset := by
  have hchars : charset.chars reason = some reason.length :=
    charset.chars_ascii reason fun b hb => (hreason b hb).1
  have hdata : ∀ text ∈ (Statement.insert { r with
      status, statusReason := reason, createdAt, updatedAt }).data,
      text ∈ (Statement.insert r).data ∨ text = reason := by
    intro text ht
    simp only [data, List.mem_cons, List.not_mem_nil, or_false] at ht ⊢
    tauto
  refine ⟨?_, ?_, ?_⟩
  · intro text ht
    rcases hdata text ht with hold | rfl
    · exact h.quoted text hold
    · exact ⟨fun hq => (hreason 39 hq).2.1 rfl, fun hq => (hreason 92 hq).2.2 rfl⟩
  · intro text ht
    rcases hdata text ht with hold | rfl
    · exact h.encoded text hold
    · rw [hchars]
      rfl
  · obtain ⟨hid, huser, hproduct, hcurrency, -, hpayload⟩ := h.storable
    exact ⟨hid, huser, hproduct, hcurrency, ⟨_, hchars, hlength⟩, hpayload⟩

end OrderRepository.Statement

end MuduoPlus
