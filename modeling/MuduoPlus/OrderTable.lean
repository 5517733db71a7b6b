import MuduoPlus.OrderBackend
import MuduoPlus.SqlTable

namespace MuduoPlus

/-- The rows of the orders table, in the order they were inserted. Ids are compared byte by
byte. -/
abbrev OrderTable := List OrderRow

namespace OrderTable

open OrderRepository

/-- The number that the database reads where `<<` wrote a `double`. -/
def sqlDouble (x : Float) : Option Float := sqlNumber (generalSix x)

def rowWith (r : Record) (amount : Float) : OrderRow where
  orderId := r.orderId
  userId := r.userId
  productId := r.productId
  quantity := r.quantity.toInt32
  totalAmount := amount
  currency := r.currency
  status := r.status.toString
  statusReason := r.statusReason
  payloadJson := r.payloadJson
  createdAt := r.createdAt.seconds

/-- The row of an `INSERT`, unless a number does not fit its column. -/
def rowOf (r : Record) : Option OrderRow :=
  if 2 ^ 31 ≤ r.quantity.toNat then none else (sqlDouble r.totalAmount).map (rowWith r)

/-- The rows with `f` applied where the id is `id`. -/
def rewriteRows (id : Bytes) (f : OrderRow → OrderRow) (t : OrderTable) : OrderTable :=
  t.map fun row => if row.orderId = id then f row else row

/-- `UPDATE … WHERE order_id = id`, which counts the rows it finds. -/
def rewrite (id : Bytes) (f : OrderRow → OrderRow) (t : OrderTable) :
    Except OrderException Nat × OrderTable :=
  (.ok (t.countP fun row => row.orderId = id), rewriteRows id f t)

/-- `INSERT`, with `order_id` as the primary key. `ExecuteUpdate` catches what a refused statement
raises and answers -1; as the answer is only compared with 0, that counts as no row. -/
def insertRow (r : Record) (t : OrderTable) : Except OrderException Nat × OrderTable :=
  match rowOf r with
  | none => (.ok 0, t)
  | some row => if ∃ row ∈ t, row.orderId = r.orderId then (.ok 0, t) else (.ok 1, t ++ [row])

def update : Statement → OrderTable → Except OrderException Nat × OrderTable
  | .insert r, t => insertRow r t
  | .upsert r, t =>
    if (rowOf r).isSome ∧ ∃ row ∈ t, row.orderId = r.orderId then
      (.ok 2, rewriteRows r.orderId (fun row => { row with
        status := r.status.toString, statusReason := r.statusReason,
        payloadJson := r.payloadJson }) t)
    else insertRow r t
  | .updateStatus id s reason, t =>
    rewrite id (fun row => { row with status := s.toString, statusReason := reason }) t
  | .updatePayment id paid _, t =>
    match sqlDouble paid with
    | none => (.ok 0, t)
    | some amount =>
      rewrite id (fun row => { row with status := ascii "Paid", totalAmount := amount }) t
  | .updatePayload id payload, t => rewrite id (fun row => { row with payloadJson := payload }) t
  | .touch id _, t => rewrite id (fun row => row) t
  | .delete id, t => (.ok (t.countP fun row => row.orderId = id), t.filter fun row => row.orderId ≠ id)
  | .selectById _, t => (.ok 0, t)
  | .selectByUser _ _ _, t => (.ok 0, t)
  | .selectRecent _, t => (.ok 0, t)

/-- `ORDER BY created_at DESC`. -/
def newestFirst (rows : List OrderRow) : List OrderRow :=
  rows.insertionSort fun row row' => row'.createdAt ≤ row.createdAt

/-- The rows of a user, newest first, from `offset` on and at most `limit` of them. -/
def page (uid : Bytes) (limit offset : UInt64) (t : OrderTable) : List OrderRow :=
  ((newestFirst (t.filter fun row => row.userId = uid)).drop offset.toNat).take limit.toNat

def query : Statement → OrderTable → Except OrderException (List OrderRow)
  | .selectById id, t => .ok (t.filter fun row => row.orderId = id)
  | .selectByUser uid limit offset, t => .ok (page uid limit offset t)
  | .selectRecent limit, t => .ok ((newestFirst t).take limit.toNat)
  | _, _ => .error .sql

def database : Database OrderTable := ⟨update, query⟩

/-- The columns hold the numbers of the record. -/
def Fits (r : Record) : Prop := r.quantity.toNat < 2 ^ 31 ∧ (sqlDouble r.totalAmount).isSome = true

instance (r : Record) : Decidable (Fits r) := by
  unfold Fits
  infer_instance

/-- What `UpdateStatus` writes. -/
def withStatus (s : OrderStatus) (reason : Bytes) (row : OrderRow) : OrderRow :=
  { row with status := s.toString, statusReason := reason }

/-- What `UpdatePayment` writes. -/
def withPayment (amount : Float) (row : OrderRow) : OrderRow :=
  { row with status := ascii "Paid", totalAmount := amount }

section Rows

variable {id : Bytes} {f : OrderRow → OrderRow} {t : OrderTable} {r : Record}

theorem update_insert : update (.insert r) t = insertRow r t := rfl

theorem update_updatePayment {paid amount : Float} (h : sqlDouble paid = some amount)
    (paidAt : TimePoint) :
    update (.updatePayment id paid paidAt) t = rewrite id (withPayment amount) t := by
  unfold update
  dsimp only
  rw [h]
  rfl

theorem exists_rowOf (h : Fits r) : ∃ amount, rowOf r = some (rowWith r amount) := by
  obtain ⟨hq, ha⟩ := h
  obtain ⟨amount, hamount⟩ := Option.isSome_iff_exists.mp ha
  refine ⟨amount, ?_⟩
  rw [rowOf, if_neg (by omega), hamount]
  rfl

theorem rowWith_quantity (amount : Float) : (rowWith r amount).quantity.toUInt32 = r.quantity :=
  UInt32.toUInt32_toInt32 r.quantity

theorem map_orderId_rewriteRows (hf : ∀ row, (f row).orderId = row.orderId) :
    (rewriteRows id f t).map (·.orderId) = t.map (·.orderId) := by
  rw [rewriteRows, List.map_map]
  apply List.map_congr_left
  intro row _
  simp only [Function.comp_apply]
  split
  next => exact hf row
  next => rfl

theorem rewriteRows_of_countP_eq_zero (h : t.countP (fun row => row.orderId = id) = 0) :
    rewriteRows id f t = t := by
  have hsame : ∀ row ∈ t, (if row.orderId = id then f row else row) = row := by
    intro row hrow
    have hne : row.orderId ≠ id := by simpa using List.countP_eq_zero.mp h row hrow
    rw [if_neg hne]
  rw [rewriteRows, List.map_congr_left hsame, List.map_id']

theorem insertRow_of_new {row : OrderRow} (hrow : rowOf r = some row)
    (hnew : ∀ row ∈ t, row.orderId ≠ r.orderId) : insertRow r t = (.ok 1, t ++ [row]) := by
  have hno : ¬∃ row ∈ t, row.orderId = r.orderId := fun ⟨row, hm, he⟩ => hnew row hm he
  rw [insertRow, hrow]
  exact if_neg hno

/-- An `INSERT` adds the row of a new id, or does nothing. -/
theorem insertRow_cases (r : Record) (t : OrderTable) :
    insertRow r t = (.ok 0, t) ∨ ∃ row, rowOf r = some row ∧
      (∀ row ∈ t, row.orderId ≠ r.orderId) ∧ insertRow r t = (.ok 1, t ++ [row]) := by
  cases hrow : rowOf r with
  | none => exact .inl (by rw [insertRow, hrow])
  | some row =>
    by_cases hold : ∃ row ∈ t, row.orderId = r.orderId
    · left
      rw [insertRow, hrow]
      exact if_pos hold
    · have hnew : ∀ row ∈ t, row.orderId ≠ r.orderId := fun row hm he => hold ⟨row, hm, he⟩
      exact .inr ⟨row, rfl, hnew, insertRow_of_new hrow hnew⟩

theorem find?_of_nodup (hkeys : (t.map (·.orderId)).Nodup) {row : OrderRow} (hrow : row ∈ t) :
    t.find? (fun row' => row'.orderId = row.orderId) = some row := by
  cases hfind : t.find? (fun row' => row'.orderId = row.orderId) with
  | none =>
    have hno := List.find?_eq_none.mp hfind row hrow
    simp at hno
  | some row' =>
    have hid : row'.orderId = row.orderId := by simpa using List.find?_some hfind
    have hmem := List.mem_of_find?_eq_some hfind
    rw [List.inj_on_of_nodup_map hkeys hmem hrow hid]

theorem find?_rewriteRows (hf : ∀ row, (f row).orderId = row.orderId) :
    (rewriteRows id f t).find? (fun row => row.orderId = id) =
      (t.find? fun row => row.orderId = id).map f := by
  induction t with
  | nil => rfl
  | cons row t ih =>
    rw [rewriteRows, List.map_cons]
    by_cases hid : row.orderId = id
    · have hrow : (f row).orderId = id := (hf row).trans hid
      rw [if_pos hid, List.find?_cons_of_pos (by simpa using hrow),
        List.find?_cons_of_pos (by simpa using hid)]
      rfl
    · rw [if_neg hid, List.find?_cons_of_neg (by simpa using hid),
        List.find?_cons_of_neg (by simpa using hid)]
      exact ih

theorem mem_rewriteRows {row : OrderRow} (h : row ∈ rewriteRows id f t) :
    ∃ old ∈ t, row = if old.orderId = id then f old else old := by
  obtain ⟨old, hold, he⟩ := List.mem_map.mp h
  exact ⟨old, hold, he.symm⟩

section Page

variable {uid : Bytes} {limit offset : UInt64}

theorem mem_of_mem_page {row : OrderRow} (h : row ∈ page uid limit offset t) : row ∈ t := by
  have hsort := List.mem_of_mem_drop (List.mem_of_mem_take h)
  exact List.mem_of_mem_filter ((List.mem_insertionSort _).mp hsort)

/-- The first page has every row of the user if it can hold the table. -/
theorem mem_page_of_length_le {row : OrderRow} (hlength : t.length ≤ limit.toNat) (hrow : row ∈ t)
    (huser : row.userId = uid) : row ∈ page uid limit 0 t := by
  have hfilter : row ∈ t.filter fun row => row.userId = uid := by
    simpa using ⟨hrow, huser⟩
  have hfits : (newestFirst (t.filter fun row => row.userId = uid)).length ≤ limit.toNat := by
    rw [newestFirst, List.length_insertionSort]
    exact (List.length_filter_le _ _).trans hlength
  unfold page
  rw [UInt64.toNat_zero, List.drop_zero, List.take_of_length_le hfits, newestFirst,
    List.mem_insertionSort]
  exact hfilter

/-- A row of another user does not show. -/
theorem filter_append_other {row : OrderRow} (h : row.userId ≠ uid) :
    (t ++ [row]).filter (fun row => row.userId = uid) = t.filter fun row => row.userId = uid := by
  rw [List.filter_append, List.filter_singleton]
  simp [h]

/-- Nor does a change to the rows of other users. -/
theorem filter_rewriteRows_other (hf : ∀ row, (f row).userId = row.userId)
    (h : ∀ row ∈ t, row.orderId = id → row.userId ≠ uid) :
    (rewriteRows id f t).filter (fun row => row.userId = uid) =
      t.filter fun row => row.userId = uid := by
  induction t with
  | nil => rfl
  | cons row t ih =>
    have hrest := ih fun row' hrow' => h row' (List.mem_cons_of_mem row hrow')
    have hrow := h row List.mem_cons_self
    rw [rewriteRows, List.map_cons]
    by_cases hid : row.orderId = id
    · have hother : ¬(f row).userId = uid := by
        rw [hf row]
        exact hrow hid
      rw [if_pos hid, List.filter_cons_of_neg (by simpa using hother),
        List.filter_cons_of_neg (by simpa using hrow hid)]
      exact hrest
    · rw [if_neg hid]
      by_cases hu : row.userId = uid
      · rw [List.filter_cons_of_pos (by simpa using hu), List.filter_cons_of_pos (by simpa using hu)]
        exact congrArg (row :: ·) hrest
      · rw [List.filter_cons_of_neg (by simpa using hu), List.filter_cons_of_neg (by simpa using hu)]
        exact hrest

/-- The orders of the user were created in different seconds. -/
def SecondsApart (uid : Bytes) (t : OrderTable) : Prop :=
  ((t.filter fun row => row.userId = uid).map (·.createdAt)).Nodup

/-- Then there is one order for them, the newest first. -/
theorem eq_newestFirst_of_secondsApart (hapart : SecondsApart uid t) {found : List OrderRow}
    (hperm : found.Perm (t.filter fun row => row.userId = uid))
    (hsorted : found.Pairwise fun row row' => row'.createdAt ≤ row.createdAt) :
    found = newestFirst (t.filter fun row => row.userId = uid) := by
  have hsame : found.Perm (newestFirst (t.filter fun row => row.userId = uid)) :=
    hperm.trans (List.perm_insertionSort _ _).symm
  refine hsame.eq_of_pairwise ?_ hsorted (List.pairwise_insertionSort _ _)
  intro row row' hrow hrow' hle hle'
  have htime : row.createdAt = row'.createdAt := Int64.le_antisymm hle' hle
  have hmem' := (List.perm_insertionSort _ _).mem_iff.mp hrow'
  exact List.inj_on_of_nodup_map hapart (hperm.mem_iff.mp hrow) hmem' htime

end Page

end Rows

end OrderTable

open OrderRepository OrderTable

/-- The statements that are executed for the number of rows. -/
def OrderRepository.Statement.IsChange : Statement → Prop
  | .selectById _ => False
  | .selectByUser _ _ _ => False
  | .selectRecent _ => False
  | _ => True

/-- The database keeps orders: the statements that `fits` has change and find the rows as SQL says.
An `UPDATE` counts the rows that it finds, or only those that it changes; ids and users are compared
byte by byte; orders of one second are listed in any order. -/
structure Database.KeepsOrders {δ : Type} (database : Database δ) (fits : Statement → Prop)
    (rows : δ → OrderTable) : Prop where
  update : ∀ {st : Statement}, fits st → st.IsChange → ∀ d,
    rows (database.update st d).2 = (OrderTable.update st (rows d)).2
  count : ∀ {st : Statement}, fits st → st.IsChange → ∀ d, ∃ n, (database.update st d).1 = .ok n ∧
    (0 < n → ∃ m, 0 < m ∧ (OrderTable.update st (rows d)).1 = .ok m) ∧
    (n = 0 → (OrderTable.update st (rows d)).2 = rows d)
  byId : ∀ {id}, fits (.selectById id) → ∀ d,
    database.query (.selectById id) d = .ok ((rows d).filter fun row => row.orderId = id)
  byUser : ∀ {uid limit offset}, fits (.selectByUser uid limit offset) → ∀ d,
    ∃ found : List OrderRow, found.Perm ((rows d).filter fun row => row.userId = uid) ∧
      found.Pairwise (fun row row' => row'.createdAt ≤ row.createdAt) ∧
      database.query (.selectByUser uid limit offset) d =
        .ok ((found.drop offset.toNat).take limit.toNat)

namespace OrderTable

/-- The statement counts the rows that it may change. -/
theorem update_count (st : Statement) (t : OrderTable) :
    ∃ n, (update st t).1 = .ok n ∧ (n = 0 → (update st t).2 = t) := by
  have hinsert : ∀ r, ∃ n, (insertRow r t).1 = .ok n ∧ (n = 0 → (insertRow r t).2 = t) := by
    intro r
    rcases insertRow_cases r t with h | ⟨row, -, -, h⟩
    · rw [h]
      exact ⟨0, rfl, fun _ => rfl⟩
    · rw [h]
      exact ⟨1, rfl, fun h => absurd h Nat.one_ne_zero⟩
  have hrewrite : ∀ id f, ∃ n, (rewrite id f t).1 = .ok n ∧ (n = 0 → (rewrite id f t).2 = t) :=
    fun id f => ⟨_, rfl, fun h => rewriteRows_of_countP_eq_zero h⟩
  cases st with
  | insert r => exact hinsert r
  | upsert r =>
    unfold update
    dsimp only
    split
    next => exact ⟨2, rfl, fun h => absurd h (by decide)⟩
    next => exact hinsert r
  | updateStatus id s reason => exact hrewrite id _
  | updatePayment id paid paidAt =>
    cases hpaid : sqlDouble paid with
    | none =>
      refine ⟨0, ?_, fun _ => ?_⟩
      all_goals simp only [update, hpaid]
    | some amount =>
      rw [update_updatePayment hpaid]
      exact hrewrite id _
  | updatePayload id payload => exact hrewrite id _
  | touch id ts => exact hrewrite id _
  | delete id =>
    refine ⟨_, rfl, fun h => List.filter_eq_self.mpr ?_⟩
    intro row hrow
    simpa using List.countP_eq_zero.mp h row hrow
  | selectById id => exact ⟨0, rfl, fun _ => rfl⟩
  | selectByUser uid limit offset => exact ⟨0, rfl, fun _ => rfl⟩
  | selectRecent limit => exact ⟨0, rfl, fun _ => rfl⟩

/-- The table itself does so with every statement. -/
theorem keepsOrders_database (fits : Statement → Prop) : database.KeepsOrders fits fun t => t where
  update _ _ _ := rfl
  count {st} _ _ t := by
    obtain ⟨n, hn, hsame⟩ := update_count st t
    exact ⟨n, hn, fun hpos => ⟨n, hpos, hn⟩, hsame⟩
  byId _ _ := rfl
  byUser _ _ := ⟨_, List.perm_insertionSort _ _, List.pairwise_insertionSort _ _, rfl⟩

end OrderTable

namespace Database.KeepsOrders

variable {δ : Type} {database : Database δ} {fits : Statement → Prop} {rows : δ → OrderTable}
  {b : Backend δ} {id : Bytes}

theorem exec_getById (hk : database.KeepsOrders fits rows) (hfits : fits (.selectById id)) :
    (getById id).exec database.serve b =
      (.ok (((rows b.db).find? fun row => row.orderId = id).map parseSingle), b) := by
  rw [exec_getById_of_query (hk.byId hfits b.db), List.head?_filter]

/-- `SubmitUpdate(sql).get() > 0`. -/
theorem exec_changed (hk : database.KeepsOrders fits rows) {st : Statement} (hfits : fits st)
    (hst : st.IsChange) (b : Backend δ) :
    ∃ found, (submitUpdate st >>= fun count => pure (decide (0 < count))).exec database.serve b =
        (.ok found, { b with db := (database.update st b.db).2 }) ∧
      (found = true → ∃ m, 0 < m ∧ (OrderTable.update st (rows b.db)).1 = .ok m) ∧
      (found = false → (OrderTable.update st (rows b.db)).2 = rows b.db) := by
  obtain ⟨n, hn, hpos, hsame⟩ := hk.count hfits hst b.db
  refine ⟨decide (0 < n), ?_, fun h => hpos (of_decide_eq_true h), fun h => hsame ?_⟩
  · rw [Program.exec_bind_pure, exec_submitUpdate, hn]
    rfl
  · have hzero := of_decide_eq_false h
    omega

section Insert

variable {r : Record} {row : OrderRow} {d : δ} (hk : database.KeepsOrders fits rows)
  (hfits : fits (.insert r)) (hrow : rowOf r = some row)
  (hnew : ∀ row ∈ rows d, row.orderId ≠ r.orderId)

include hk hfits hrow hnew

theorem rows_insert : rows (database.update (.insert r) d).2 = rows d ++ [row] := by
  rw [hk.update hfits trivial, update_insert, insertRow_of_new hrow hnew]

theorem insert_counted : ∃ n, 0 < n ∧ (database.update (.insert r) d).1 = .ok n := by
  obtain ⟨n, hn, -, hsame⟩ := hk.count hfits trivial d
  refine ⟨n, Nat.pos_of_ne_zero fun hzero => ?_, hn⟩
  have hlength := congrArg List.length (hsame hzero)
  rw [update_insert, insertRow_of_new hrow hnew, List.length_append] at hlength
  simp at hlength

end Insert

/-- What the answer to an `INSERT` says of the rows. -/
theorem inserted {r : Record} {d : δ} {n : Nat} (hk : database.KeepsOrders fits rows)
    (hfits : fits (.insert r)) (hn : (database.update (.insert r) d).1 = .ok n) :
    n = 0 ∧ rows (database.update (.insert r) d).2 = rows d ∨
      0 < n ∧ ∃ row, rowOf r = some row ∧ (∀ row ∈ rows d, row.orderId ≠ r.orderId) ∧
        rows (database.update (.insert r) d).2 = rows d ++ [row] := by
  obtain ⟨m, hm, hpos, hsame⟩ := hk.count hfits trivial d
  obtain rfl : m = n := Except.ok.inj (hm.symm.trans hn)
  rw [hk.update hfits trivial]
  rcases Nat.eq_zero_or_pos m with hzero | hm
  · exact .inl ⟨hzero, hsame hzero⟩
  · obtain ⟨k, hk, hcount⟩ := hpos hm
    rw [update_insert] at hcount ⊢
    rcases insertRow_cases r (rows d) with hno | ⟨row, hrow, hnew, hinsert⟩
    · rw [hno] at hcount
      have hzero : 0 = k := Except.ok.inj hcount
      omega
    · rw [hinsert]
      exact .inr ⟨hm, row, hrow, hnew, rfl⟩

end Database.KeepsOrders

end MuduoPlus
