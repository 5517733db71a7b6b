import MuduoPlus.OrderRepository
import MuduoPlus.SqlText

namespace MuduoPlus

namespace OrderRepository

/-- The statements of the repository, with what they are built from. -/
inductive Statement where
  | insert (r : Record)
  | upsert (r : Record)
  | updateStatus (id : Bytes) (s : OrderStatus) (reason : Bytes)
  | updatePayment (id : Bytes) (paid : Float) (paidAt : TimePoint)
  | updatePayload (id payload : Bytes)
  | touch (id : Bytes) (ts : TimePoint)
  | delete (id : Bytes)
  | selectById (id : Bytes)
  | selectByUser (uid : Bytes) (limit offset : UInt64)
  | selectRecent (limit : UInt64)

def build (repo : OrderRepository) : Statement → Bytes
  | .insert r => repo.buildInsertSQL r
  | .upsert r => repo.buildUpsertSQL r
  | .updateStatus id s reason => repo.buildUpdateStatusSQL id s reason
  | .updatePayment id paid paidAt => repo.buildUpdatePaymentSQL id paid paidAt
  | .updatePayload id payload => repo.buildUpdatePayloadSQL id payload
  | .touch id ts => repo.buildTouchSQL id ts
  | .delete id => repo.buildDeleteSQL id
  | .selectById id => repo.buildSelectByIdSQL id
  | .selectByUser uid limit offset => repo.buildSelectByUserSQL uid limit offset
  | .selectRecent limit => repo.buildSelectRecentSQL limit

/-- The strings that come from outside. -/
def Statement.data : Statement → List Bytes
  | .insert r => [r.orderId, r.userId, r.productId, r.currency, r.statusReason, r.payloadJson]
  | .upsert r => [r.orderId, r.userId, r.productId, r.currency, r.statusReason, r.payloadJson]
  | .updateStatus id _ reason => [reason, id]
  | .updatePayment id _ _ => [id]
  | .updatePayload id payload => [payload, id]
  | .touch id _ => [id]
  | .delete id => [id]
  | .selectById id => [id]
  | .selectByUser uid _ _ => [uid]
  | .selectRecent _ => []

def insertTemplate (repo : OrderRepository) (r : Record) : SqlTemplate where
  parts := [
    (ascii "INSERT INTO " ++ repo.tableName ++ (insertColumns ++ ascii " VALUES ("), r.orderId),
    (ascii ",", r.userId), (ascii ",", r.productId),
    (ascii "," ++ decimal r.quantity.toNat ++ ascii "," ++ generalSix r.totalAmount ++ ascii ",",
      r.currency),
    (ascii ",", r.status.toString), (ascii ",", r.statusReason), (ascii ",", r.payloadJson),
    (ascii ",", gmtimeText r.createdAt.seconds), (ascii ",", gmtimeText r.updatedAt.seconds)]
  final := ascii ")"

/-- The statements as they are meant, with every string in its place. -/
def template (repo : OrderRepository) : Statement → SqlTemplate
  | .insert r => repo.insertTemplate r
  | .upsert r => { repo.insertTemplate r with final := ascii ")" ++ onDuplicateKey }
  | .updateStatus id s reason => ⟨[
      (ascii "UPDATE " ++ repo.tableName ++ ascii " SET status=", s.toString),
      (ascii ", status_reason=", reason), (ascii ", updated_at=NOW() WHERE order_id=", id)], []⟩
  | .updatePayment id paid paidAt => ⟨[
      (ascii "UPDATE " ++ repo.tableName ++ ascii " SET status=", ascii "Paid"),
      (ascii ", total_amount=" ++ generalSix paid ++ ascii ", updated_at=", gmtimeText paidAt.seconds),
      (ascii " WHERE order_id=", id)], []⟩
  | .updatePayload id payload => ⟨[
      (ascii "UPDATE " ++ repo.tableName ++ ascii " SET payload_json=", payload),
      (ascii ", updated_at=NOW() WHERE order_id=", id)], []⟩
  | .touch id ts => ⟨[
      (ascii "UPDATE " ++ repo.tableName ++ ascii " SET updated_at=", gmtimeText ts.seconds),
      (ascii " WHERE order_id=", id)], []⟩
  | .delete id => ⟨[(ascii "DELETE FROM " ++ repo.tableName ++ ascii " WHERE order_id=", id)], []⟩
  | .selectById id =>
    ⟨[(ascii "SELECT * FROM " ++ repo.tableName ++ ascii " WHERE order_id=", id)], []⟩
  | .selectByUser uid limit offset => ⟨[
      (ascii "SELECT * FROM " ++ repo.tableName ++ ascii " WHERE user_id=", uid)],
      ascii " ORDER BY created_at DESC LIMIT " ++ decimal limit.toNat ++ ascii " OFFSET " ++
        decimal offset.toNat⟩
  | .selectRecent limit => ⟨[],
      ascii "SELECT * FROM " ++ repo.tableName ++ ascii " ORDER BY created_at DESC LIMIT " ++
        decimal limit.toNat⟩

theorem ascii_quote : ascii "'" = [39] := by simp [ascii]

theorem ascii_where_id : ascii " WHERE order_id='" = ascii " WHERE order_id=" ++ [39] := by
  simp [ascii]

theorem ascii_updated_where_id : ascii "', updated_at=NOW() WHERE order_id='" =
    39 :: (ascii ", updated_at=NOW() WHERE order_id=" ++ [39]) := by
  simp [ascii]

theorem insert_eq_text (repo : OrderRepository) (r : Record) :
    repo.buildInsertSQL r = (repo.insertTemplate r).text := by
  have hvalues : ascii " VALUES ('" = ascii " VALUES (" ++ [39] := by simp [ascii]
  have hboth : ascii "','" = 39 :: (ascii "," ++ [39]) := by simp [ascii]
  have hafter : ascii "'," = 39 :: ascii "," := by simp [ascii]
  have hbefore : ascii ",'" = ascii "," ++ [39] := by simp [ascii]
  have hquote := ascii_quote
  unfold buildInsertSQL insertTemplate SqlTemplate.text timeToSQL
  generalize ascii = f at hvalues hboth hafter hbefore hquote ⊢
  simp only [hvalues, hboth, hafter, hbefore, hquote, List.flatMap_cons, List.flatMap_nil,
    List.append_assoc, List.cons_append, List.nil_append, List.append_nil]

/-- The builders put their strings between quotes as they are. -/
theorem build_eq_text (repo : OrderRepository) (st : Statement) :
    repo.build st = (repo.template st).text := by
  cases st with
  | insert r => exact repo.insert_eq_text r
  | upsert r =>
    change repo.buildUpsertSQL r = _
    rw [buildUpsertSQL, insert_eq_text, template, SqlTemplate.text, SqlTemplate.text]
    simp only [insertTemplate, List.append_assoc]
  | updateStatus id s reason =>
    have hstatus : ascii " SET status='" = ascii " SET status=" ++ [39] := by simp [ascii]
    have hreason : ascii "', status_reason='" = 39 :: (ascii ", status_reason=" ++ [39]) := by
      simp [ascii]
    simp [build, buildUpdateStatusSQL, template, SqlTemplate.text, hstatus, hreason,
      ascii_updated_where_id, ascii_quote]
  | updatePayment id paid paidAt =>
    have hpaid : ascii " SET status='Paid', total_amount=" =
        ascii " SET status=" ++ 39 :: (ascii "Paid" ++ 39 :: ascii ", total_amount=") := by
      simp [ascii]
    simp [build, buildUpdatePaymentSQL, template, SqlTemplate.text, timeToSQL, hpaid,
      ascii_where_id, ascii_quote]
  | updatePayload id payload =>
    have hpayload : ascii " SET payload_json='" = ascii " SET payload_json=" ++ [39] := by
      simp [ascii]
    simp [build, buildUpdatePayloadSQL, template, SqlTemplate.text, hpayload,
      ascii_updated_where_id, ascii_quote]
  | touch id ts =>
    simp [build, buildTouchSQL, template, SqlTemplate.text, timeToSQL, ascii_where_id, ascii_quote]
  | delete id =>
    simp [build, buildDeleteSQL, template, SqlTemplate.text, ascii_where_id, ascii_quote]
  | selectById id =>
    simp [build, buildSelectByIdSQL, template, SqlTemplate.text, ascii_where_id, ascii_quote]
  | selectByUser uid limit offset =>
    have huser : ascii " WHERE user_id='" = ascii " WHERE user_id=" ++ [39] := by simp [ascii]
    have horder : ascii "' ORDER BY created_at DESC " =
        39 :: ascii " ORDER BY created_at DESC " := by simp [ascii]
    have hlimit : ascii " ORDER BY created_at DESC LIMIT " =
        ascii " ORDER BY created_at DESC " ++ ascii "LIMIT " := by simp [ascii]
    simp [build, buildSelectByUserSQL, template, SqlTemplate.text, huser, horder, hlimit]
  | selectRecent limit => simp [build, buildSelectRecentSQL, template, SqlTemplate.text]

section WellFormed

variable {repo : OrderRepository} {a b : Bytes}

theorem wellFormed_of {first d final : Bytes} {rest : List (Bytes × Bytes)} (hfirst : 39 ∉ first)
    (hrest : ∀ p ∈ rest, 39 ∉ p.1 ∧ p.1 ≠ []) (hfinal : 39 ∉ final) :
    SqlTemplate.WellFormed ⟨(first, d) :: rest, final⟩ := by
  refine ⟨?_, hfinal, fun p hp => (hrest p hp).2⟩
  intro p hp
  rcases List.mem_cons.mp hp with rfl | hp
  · exact hfirst
  · exact (hrest p hp).1

theorem quote_not_mem_append (ha : 39 ∉ a) (hb : 39 ∉ b) : 39 ∉ a ++ b := by
  rw [List.mem_append, not_or]
  exact ⟨ha, hb⟩

theorem quote_not_mem_table (h : 39 ∉ repo.tableName) (ha : 39 ∉ a) (hb : 39 ∉ b) :
    39 ∉ a ++ repo.tableName ++ b :=
  quote_not_mem_append (quote_not_mem_append ha h) hb

theorem quote_not_mem_insertColumns : 39 ∉ insertColumns :=
  quote_not_mem_append (quote_not_mem_append (quote_not_mem_append (by simp [ascii])
    (by simp [ascii])) (by simp [ascii])) (by simp [ascii])

theorem quote_not_mem_onDuplicateKey : 39 ∉ onDuplicateKey :=
  quote_not_mem_append (quote_not_mem_append (quote_not_mem_append (quote_not_mem_append
    (by simp [ascii]) (by simp [ascii])) (by simp [ascii])) (by simp [ascii]))
    (by simp [ascii])

theorem insertTemplate_wellFormed (h : 39 ∉ repo.tableName) (r : Record) :
    (repo.insertTemplate r).WellFormed := by
  have hcomma : 39 ∉ ascii "," ∧ ascii "," ≠ [] := by simp [ascii]
  have hnumbers : 39 ∉ ascii "," ++ decimal r.quantity.toNat ++ ascii "," ++
      generalSix r.totalAmount ++ ascii "," :=
    quote_not_mem_append (quote_not_mem_append (quote_not_mem_append (quote_not_mem_append hcomma.1
      (not_mem_decimal (by decide) _)) hcomma.1) (quote_not_mem_generalSix _)) hcomma.1
  have hne : ascii "," ++ decimal r.quantity.toNat ++ ascii "," ++ generalSix r.totalAmount ++
      ascii "," ≠ [] := by simp [hcomma.2]
  refine wellFormed_of (quote_not_mem_table h (by simp [ascii])
    (quote_not_mem_append quote_not_mem_insertColumns (by simp [ascii]))) ?_ (by simp [ascii])
  simp only [List.forall_mem_cons, hcomma, hnumbers, hne, ne_eq, not_false_eq_true, and_self,
    List.not_mem_nil, false_imp_iff, implies_true]

/-- The texts between the strings have no quotes. -/
theorem template_wellFormed (h : 39 ∉ repo.tableName) (st : Statement) :
    (repo.template st).WellFormed := by
  have hwhere : 39 ∉ ascii " WHERE order_id=" ∧ ascii " WHERE order_id=" ≠ [] := by simp [ascii]
  have hupdated : 39 ∉ ascii ", updated_at=NOW() WHERE order_id=" ∧
      ascii ", updated_at=NOW() WHERE order_id=" ≠ [] := by simp [ascii]
  cases st with
  | insert r => exact insertTemplate_wellFormed h r
  | upsert r =>
    have hr := insertTemplate_wellFormed h r
    have hfinal : 39 ∉ ascii ")" ++ onDuplicateKey :=
      quote_not_mem_append (by simp [ascii]) quote_not_mem_onDuplicateKey
    exact ⟨hr.no_quote, hfinal, hr.apart⟩
  | updateStatus id s reason =>
    have hreason : 39 ∉ ascii ", status_reason=" ∧ ascii ", status_reason=" ≠ [] := by
      simp [ascii]
    refine wellFormed_of (quote_not_mem_table h (by simp [ascii]) (by simp [ascii])) ?_
      List.not_mem_nil
    simpa using ⟨hreason, hupdated⟩
  | updatePayment id paid paidAt =>
    have hamount : 39 ∉ ascii ", total_amount=" ++ generalSix paid ++ ascii ", updated_at=" :=
      quote_not_mem_append (quote_not_mem_append (by simp [ascii]) (quote_not_mem_generalSix _))
        (by simp [ascii])
    have hne : ascii ", total_amount=" ++ generalSix paid ++ ascii ", updated_at=" ≠ [] := by
      have hupd : ascii ", updated_at=" ≠ [] := by simp [ascii]
      simp [hupd]
    refine wellFormed_of (quote_not_mem_table h (by simp [ascii]) (by simp [ascii])) ?_
      List.not_mem_nil
    intro p hp
    simp only [List.mem_cons, List.not_mem_nil, or_false] at hp
    rcases hp with rfl | rfl
    · exact ⟨hamount, hne⟩
    · exact hwhere
  | updatePayload id payload =>
    refine wellFormed_of (quote_not_mem_table h (by simp [ascii]) (by simp [ascii])) ?_
      List.not_mem_nil
    simpa using hupdated
  | touch id ts =>
    refine wellFormed_of (quote_not_mem_table h (by simp [ascii]) (by simp [ascii])) ?_
      List.not_mem_nil
    simpa using hwhere
  | delete id =>
    exact wellFormed_of (quote_not_mem_table h (by simp [ascii]) (by simp [ascii])) (by simp)
      List.not_mem_nil
  | selectById id =>
    exact wellFormed_of (quote_not_mem_table h (by simp [ascii]) (by simp [ascii])) (by simp)
      List.not_mem_nil
  | selectByUser uid limit offset =>
    refine wellFormed_of (quote_not_mem_table h (by simp [ascii]) (by simp [ascii])) (by simp) ?_
    exact quote_not_mem_append (quote_not_mem_append (quote_not_mem_append (by simp [ascii])
      (not_mem_decimal (by decide) _)) (by simp [ascii])) (not_mem_decimal (by decide) _)
  | selectRecent limit =>
    refine ⟨by simp [template], ?_, by simp [template]⟩
    exact quote_not_mem_append (quote_not_mem_table h (by simp [ascii]) (by simp [ascii]))
      (not_mem_decimal (by decide) _)

end WellFormed

theorem plain_digits {s : Bytes} (h : ∀ b ∈ s, isDigit b = true) : SqlPlain s := by
  apply SqlPlain.of_clean
  · intro hb
    exact absurd (h 39 hb) (by decide)
  · intro hb
    exact absurd (h 92 hb) (by decide)

theorem plain_twoDigits (n : Nat) : SqlPlain (twoDigits n) := by
  apply plain_digits
  intro b hb
  simp only [twoDigits, List.mem_cons, List.not_mem_nil, or_false] at hb
  rcases hb with rfl | rfl
  · exact isDigit_digitByte _
  · exact isDigit_digitByte _

theorem plain_decimalInt (i : Int) : SqlPlain (decimalInt i) := by
  have hdec : SqlPlain (decimal i.natAbs) := plain_digits isDigit_decimal
  unfold decimalInt
  split
  · exact .byte (by decide) (by decide) hdec
  · exact hdec

/-- A time is written with digits, dashes, colons and a blank. -/
theorem plain_gmtimeText (tt : Int64) : SqlPlain (gmtimeText tt) := by
  have hdash : SqlPlain (ascii "-") := .of_clean (by simp [ascii]) (by simp [ascii])
  have hblank : SqlPlain (ascii " ") := .of_clean (by simp [ascii]) (by simp [ascii])
  have hcolon : SqlPlain (ascii ":") := .of_clean (by simp [ascii]) (by simp [ascii])
  have htwo := plain_twoDigits
  exact (plain_decimalInt _).append hdash |>.append (htwo _) |>.append hdash |>.append (htwo _)
    |>.append hblank |>.append (htwo _) |>.append hcolon |>.append (htwo _) |>.append hcolon
    |>.append (htwo _)

/-- The texts that `ToString` has for a status. -/
def statusNames : List Bytes := [ascii "Pending", ascii "Processing", ascii "Reserved",
  ascii "Paid", ascii "Completed", ascii "Cancelled", ascii "Failed", ascii "Unknown"]

theorem toString_mem_statusNames (s : OrderStatus) : s.toString ∈ statusNames := by
  cases s <;> simp [OrderStatus.toString, statusNames]

theorem plain_status (s : OrderStatus) : SqlPlain s.toString := by
  have hnames : ∀ name ∈ statusNames, 39 ∉ name ∧ 92 ∉ name := by decide
  have hmem := toString_mem_statusNames s
  exact .of_clean (hnames _ hmem).1 (hnames _ hmem).2

/-- Only the strings from outside can break a statement. -/
theorem template_plain_iff (repo : OrderRepository) (st : Statement) :
    (∀ p ∈ (repo.template st).parts, SqlPlain p.2) ↔ ∀ v ∈ st.data, SqlPlain v := by
  have htime := plain_gmtimeText
  have hstatus := plain_status
  have hpaid := plain_status .kPaid
  cases st with
  | updatePayment id paid paidAt =>
    rw [OrderStatus.toString] at hpaid
    simp [template, Statement.data, htime, hpaid]
  | _ => simp [template, insertTemplate, Statement.data, htime, hstatus]

/-- The statement that a call means. -/
def intended (repo : OrderRepository) (st : Statement) : List SqlToken := (repo.template st).shape

/-- A statement is read as it was meant exactly when no string in it has a quote, or a backslash
before anything but `%` and `_`. -/
theorem build_reads_as_intended_iff {repo : OrderRepository} (h : 39 ∉ repo.tableName)
    (st : Statement) :
    sqlTokens (repo.build st) = some (repo.intended st) ↔ ∀ v ∈ st.data, SqlPlain v := by
  rw [build_eq_text, intended, SqlTemplate.tokens_iff (template_wellFormed h st),
    template_plain_iff]

theorem build_reads_as_intended_cancel :
    sqlTokens (OrderRepository.build {} (.updateStatus (ascii "ORD-1") .kCancelled
        (ascii "out of stock"))) =
      some (OrderRepository.intended {} (.updateStatus (ascii "ORD-1") .kCancelled
        (ascii "out of stock"))) := by
  apply (build_reads_as_intended_iff (by decide) _).mpr
  intro v hv
  have hclean : ∀ v ∈ [ascii "out of stock", ascii "ORD-1"], 39 ∉ v ∧ 92 ∉ v := by decide
  exact .of_clean (hclean v hv).1 (hclean v hv).2

/-- An order id that ends its literal: the condition becomes one that every row meets. -/
theorem select_by_quoted_id :
    sqlTokens (OrderRepository.build {} (.selectById (ascii "x' OR '1'='1"))) =
      some ((ascii "SELECT * FROM orders WHERE order_id=").map .byte ++ [.literal (ascii "x")] ++
        (ascii " OR ").map .byte ++ [.literal (ascii "1")] ++ (ascii "=").map .byte ++
        [.literal (ascii "1")]) ∧
    sqlTokens (OrderRepository.build {} (.selectById (ascii "x' OR '1'='1"))) ≠
      some (OrderRepository.intended {} (.selectById (ascii "x' OR '1'='1"))) := by
  decide +kernel

end OrderRepository

end MuduoPlus
