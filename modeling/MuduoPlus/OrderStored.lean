import MuduoPlus.OrderRuns

namespace MuduoPlus

open OrderRepository

/-- An id of `GenerateOrderId`. -/
def IsGenerated (id : Bytes) : Prop := ∃ now, id = generateOrderId now

theorem IsGenerated.bytes {id : Bytes} (h : IsGenerated id) :
    ∀ b ∈ id, b ≠ 0 ∧ b ≠ 39 ∧ b ≠ 92 ∧ b < 128 := by
  have hdigit : ∀ b, isDigit b = true → b ≠ 0 ∧ b ≠ 39 ∧ b ≠ 92 ∧ b < 128 := by
    intro b hb
    simp only [isDigit, Bool.and_eq_true, decide_eq_true_eq] at hb
    refine ⟨?_, ?_, ?_, UInt8.lt_of_le_of_lt hb.2 (by decide)⟩
    · rintro rfl
      exact absurd hb.1 (by decide)
    · rintro rfl
      exact absurd hb.1 (by decide)
    · rintro rfl
      exact absurd hb.2 (by decide)
  have hfront : ∀ b ∈ ascii "ORD-", b ≠ 0 ∧ b ≠ 39 ∧ b ≠ 92 ∧ b < 128 := by simp [ascii]
  obtain ⟨now, rfl⟩ := h
  intro b hb
  rcases List.mem_append.mp hb with hb | hb
  · exact hfront b hb
  · unfold decimalInt at hb
    split at hb
    next =>
      rcases List.mem_cons.mp hb with rfl | hb
      · decide
      · exact hdigit b (isDigit_decimal b hb)
    next => exact hdigit b (isDigit_decimal b hb)

theorem IsGenerated.nul {id : Bytes} (h : IsGenerated id) : 0 ∉ id :=
  fun hb => (h.bytes 0 hb).1 rfl

theorem IsGenerated.ne_nil {id : Bytes} (h : IsGenerated id) : id ≠ [] := by
  obtain ⟨now, rfl⟩ := h
  simp [generateOrderId, ascii]

theorem IsGenerated.length_le {id : Bytes} (h : IsGenerated id) : id.length ≤ 64 := by
  obtain ⟨now, rfl⟩ := h
  have hlow := (now / 1000).le_toInt
  have hhigh := (now / 1000).toInt_lt
  have hnumber : (decimal (now / 1000).toInt.natAbs).length ≤ 20 :=
    length_decimal_le (by omega) (by omega)
  have hfront : (ascii "ORD-").length = 4 := by decide
  unfold generateOrderId decimalInt
  rw [List.length_append, hfront]
  split
  next => rw [List.length_cons]; omega
  next => omega

/-- With a generated id the record is as plain as without one. -/
theorem OrderRepository.Statement.Plain.stamp {charset : Charset} {record : Record} {raw id : Bytes}
    (h : (Statement.insert (OrderCreateHandler.stamp record raw [] 0)).Plain charset)
    (hid : IsGenerated id) (time : TimePoint) :
    (Statement.insert (OrderCreateHandler.stamp record raw id time)).Plain charset := by
  have hchars : charset.chars id = some id.length :=
    charset.chars_ascii id fun b hb => (hid.bytes b hb).2.2.2
  refine ⟨?_, ?_, ?_⟩
  · intro text ht
    rcases List.mem_cons.mp ht with rfl | ht
    · exact ⟨fun hb => (hid.bytes 39 hb).2.1 rfl, fun hb => (hid.bytes 92 hb).2.2.1 rfl⟩
    · exact h.quoted text (List.mem_cons_of_mem _ ht)
  · intro text ht
    rcases List.mem_cons.mp ht with rfl | ht
    · rw [hchars]
      rfl
    · exact h.encoded text (List.mem_cons_of_mem _ ht)
  · obtain ⟨-, huser, hproduct, hcurrency, hreason, hpayload⟩ := h.storable
    exact ⟨⟨_, hchars, hid.length_le⟩, huser, hproduct, hcurrency, hreason, hpayload⟩

section Rows

variable {δ : Type} {database : Database δ} {b b' : Backend δ} {cache : OrderCache}
  {svc : InventoryService} {h : OrderCreateHandler} {order : Option Record} {asked : Bytes → Prop}
  {accepted : Record → Bytes → Prop} {charset : Charset} {rows : δ → OrderTable}

theorem Warms.db_ids (hw : Warms cache database asked b b') :
    b'.db = b.db ∧ b'.ids = b.ids := by
  cases hw with
  | unchanged => exact ⟨rfl, rfl⟩
  | order => exact ⟨rfl, rfl⟩
  | list => exact ⟨rfl, rfl⟩

theorem Creates.ids (hc : Creates h svc database accepted b order b') : b'.ids = b.ids := by
  have hstamp : (h.afterStamp b).ids = b.ids := by
    unfold OrderCreateHandler.afterStamp
    split
    next => rfl
    next => rfl
  cases hc with
  | unchanged => rfl
  | stored => exact hstamp
  | givenBack => exact hstamp

/-- A create request adds the row of the order that it answers with, and no other. -/
theorem Creates.stores (hc : Creates h svc database accepted b order b')
    (hk : database.KeepsOrders (Statement.Plain charset) rows)
    (hplain : ∀ record raw, accepted record raw →
      (Statement.insert (h.stamped b record raw)).Plain charset) :
    order = none ∧ rows b'.db = rows b.db ∨
      ∃ r row, order = some r ∧ OrderTable.rowOf r = some row ∧
        (∀ row ∈ rows b.db, row.orderId ≠ r.orderId) ∧ rows b'.db = rows b.db ++ [row] := by
  cases hc with
  | unchanged => exact .inl ⟨rfl, rfl⟩
  | @stored record raw stock n ha hid hs hq hn hi =>
    rcases hk.inserted (hplain record raw ha) hi with ⟨hzero, -⟩ | ⟨-, row, hrow, hnew, hrows⟩
    · omega
    · exact .inr ⟨_, row, rfl, hrow, hnew, hrows⟩
  | @givenBack record raw stock ha hs hq hi =>
    rcases hk.inserted (hplain record raw ha) hi with ⟨-, hrows⟩ | ⟨hpos, -⟩
    · exact .inl ⟨rfl, hrows⟩
    · omega

end Rows

namespace OrderApplication

/-- An order that the call asks to store has plain strings, up to the id that it gets. -/
def PlainOrder (charset : Charset) (h : OrderHandlers) : HttpCall → Prop
  | .request req => IsCreate req →
    ∀ record ∈ (h.create.acceptRequest req (openResponse req)).toOption,
      (Statement.insert (OrderCreateHandler.stamp record req.content [] 0)).Plain charset
  | .unparsable => True

instance (charset : Charset) (h : OrderHandlers) : (call : HttpCall) →
    Decidable (PlainOrder charset h call)
  | .request req => inferInstanceAs (Decidable (IsCreate req →
      ∀ record ∈ (h.create.acceptRequest req (openResponse req)).toOption,
        (Statement.insert (OrderCreateHandler.stamp record req.content [] 0)).Plain charset))
  | .unparsable => .isTrue trivial

variable {δ : Type} {database : Database δ} {o : OrderServerOptions} {json : JsonLibrary}
  {b b₀ : Backend δ} {app : HttpApp (Backend δ)} {s : HttpService (Backend δ)} {charset : Charset}
  {rows : δ → OrderTable}

theorem PlainOrder.stamped {call : HttpCall} (h : PlainOrder charset (handlers o json) call)
    (hcreate : CreatesOrder call) (hids : ∀ n, IsGenerated (b.ids n)) {record : Record} {raw : Bytes}
    (ha : Accepts (handlers o json) call record raw) :
    (Statement.insert ((handlers o json).create.stamped b record raw)).Plain charset := by
  cases call with
  | unparsable => exact ha.elim
  | request req =>
    obtain ⟨haccept, rfl⟩ := ha
    have hplain := h hcreate record (by rw [haccept]; rfl)
    have hid : IsGenerated ((handlers o json).create.nextOrderId b) := hids b.issued
    exact hplain.stamp hid _

/-- The rows of the table and the orders that were answered, over the calls of a history. -/
structure RowsOfOrders (rows₀ rows : OrderTable) (served : List (Nat × ServedCall)) : Prop where
  rows_eq : rows = rows₀ ++ (ordersIn served).filterMap OrderTable.rowOf
  all_rows : ∀ r ∈ ordersIn served, (OrderTable.rowOf r).isSome = true
  answered : ∀ entry ∈ served, entry.2.order.isSome ↔
    CreatesOrder entry.2.call ∧ entry.2.response.statusCode = .k200Ok

section Step

variable {rows₀ rows₁ rows₂ : OrderTable} {served : List (Nat × ServedCall)} {entry : ServedCall}
  (h : RowsOfOrders rows₀ rows₁ served) (client : Nat)
  (hentry : entry.order.isSome ↔ CreatesOrder entry.call ∧ entry.response.statusCode = .k200Ok)
include h hentry

theorem RowsOfOrders.same (hnone : entry.order = none) (hrows : rows₂ = rows₁) :
    RowsOfOrders rows₀ rows₂ (served ++ [(client, entry)]) := by
  have hsame : ordersIn (served ++ [(client, entry)]) = ordersIn served := by
    rw [ordersIn_append_singleton, hnone, Option.toList_none, List.append_nil]
  refine ⟨?_, ?_, answered_append h.answered hentry⟩
  · rw [hrows, hsame]
    exact h.rows_eq
  · rw [hsame]
    exact h.all_rows

theorem RowsOfOrders.added {r : Record} {row : OrderRow} (hr : entry.order = some r)
    (hrow : OrderTable.rowOf r = some row) (hrows : rows₂ = rows₁ ++ [row]) :
    RowsOfOrders rows₀ rows₂ (served ++ [(client, entry)]) := by
  have hmore : ordersIn (served ++ [(client, entry)]) = ordersIn served ++ [r] := by
    rw [ordersIn_append_singleton, hr, Option.toList_some]
  refine ⟨?_, ?_, answered_append h.answered hentry⟩
  · rw [hrows, h.rows_eq, hmore, List.filterMap_append, List.filterMap_cons_some hrow,
      List.filterMap_nil, List.append_assoc]
  · intro r' hr'
    rw [hmore, List.mem_append, List.mem_singleton] at hr'
    rcases hr' with hr' | rfl
    · exact h.all_rows r' hr'
    · rw [hrow]
      rfl

end Step

/-- In every run of a server on one loop over a database that keeps orders, whose requests have
plain strings: the table has the rows it had and behind them one for each order that was answered
with 200, in that order. -/
theorem run_stores_answered_orders (hstart : start o json database = .ok app)
    (hans : OrderService.Answers database)
    (hk : database.KeepsOrders (Statement.Plain charset) rows)
    (hids : ∀ n, IsGenerated (b₀.ids n))
    (hs : (HttpService.serviceSystem app b₀).Reachable s)
    (hplain : ∀ entry ∈ s.history, PlainOrder charset (handlers o json) entry.2) :
    let served := servedBy database (handlers o json) s.history b₀
    s.replies app b₀ = served.map (Prod.map id ServedCall.response) ∧
      RowsOfOrders (rows b₀.db) (rows s.app.db) served := by
  intro served
  refine ⟨replies_eq hstart s b₀, ?_⟩
  have hrun : s.app.ids = b₀.ids ∧ RowsOfOrders (rows b₀.db) (rows s.app.db) served := by
    apply run_invariant hstart hs (Q := fun served b =>
      b.ids = b₀.ids ∧ RowsOfOrders (rows b₀.db) (rows b.db) served)
    · exact ⟨rfl, by simp [ordersIn], by simp [ordersIn], by simp⟩
    · rintro client call hmem served b ⟨hsame, hrows⟩
      have hspec := serve_spec o json hans call b
      have hcall : (serve database (handlers o json) call b).1.call = call := rfl
      generalize serve database (handlers o json) call b = served' at hspec hcall ⊢
      obtain ⟨entry, b'⟩ := served'
      dsimp only at hspec hcall ⊢
      by_cases hcreate : CreatesOrder entry.call
      · obtain ⟨hcreates, -⟩ := hspec.create hcreate
        refine ⟨hcreates.ids.trans hsame, ?_⟩
        rcases hcreates.stores hk (fun record raw ha =>
          (hcall ▸ hplain (client, call) hmem).stamped hcreate (hsame ▸ hids) ha) with
          ⟨hnone, hkept⟩ | ⟨r, row, hr, hrow, -, hadded⟩
        · exact hrows.same client hspec.answered hnone hkept
        · exact hrows.added client hspec.answered hr hrow hadded
      · obtain ⟨hnone, hwarms⟩ := hspec.other hcreate
        obtain ⟨hdb, hids'⟩ := hwarms.db_ids
        refine ⟨hids'.trans hsame, ?_⟩
        exact hrows.same client hspec.answered hnone (congrArg rows hdb)
  exact hrun.2

theorem lampRun_stores_order :
    let s := (HttpService.serviceSystem lampApp lampShelf).run lampRun lampServer
    s.app.db.map (fun row => (row.orderId, row.quantity)) = [(ascii "ORD-0", 2)] := by
  intro s
  have hreach := (ActionSystem.Reachable.init lampServer_init).run lampRun_permits
  have hplain : ∀ entry ∈ s.history, PlainOrder singleByte
      (handlers lampOptions OrderCreateHandler.lampHandler.json) entry.2 := by
    decide +kernel
  have hrun := run_stores_answered_orders (by rfl) OrderService.answers_orderTable
    (OrderTable.keepsOrders_database _) (fun n => ⟨_, rfl⟩) hreach hplain
  rw [hrun.2.rows_eq]
  decide +kernel

end OrderApplication

end MuduoPlus
