import MuduoPlus.OrderServiceExec

namespace MuduoPlus

/-- `OrderEntity::IsTerminal`. -/
def OrderStatus.isTerminal : OrderStatus → Bool
  | .kCompleted => true
  | .kCancelled => true
  | .kFailed => true
  | _ => false

namespace OrderTable

open OrderRepository

/-- The status column of an order. -/
def statusOf (id : Bytes) (t : OrderTable) : Option Bytes :=
  (t.find? fun row => row.orderId = id).map (·.status)

/-- The order is in a terminal state, with this text in its row. -/
def TerminalAs (id status : Bytes) (t : OrderTable) : Prop :=
  statusOf id t = some status ∧ (OrderStatus.orderStatusFromString status).isTerminal = true

/-- The statement gives no terminal order of `t` another status. -/
def Respects (t : OrderTable) : Statement → Prop
  | .insert _ => True
  | .updateStatus id s _ => ∀ status, TerminalAs id status t → status = s.toString
  | .updatePayment id _ _ => ∀ status, ¬TerminalAs id status t
  | _ => False

/-- The terminal orders of `t` are so in `t'`. -/
def FinalIn (t t' : OrderTable) : Prop := ∀ id status, TerminalAs id status t → TerminalAs id status t'

section Statements

variable {t t' : OrderTable} {id id' status : Bytes} {f : OrderRow → OrderRow}

theorem statusOf_append (h : statusOf id t = some status) (rows : List OrderRow) :
    statusOf id (t ++ rows) = some status := by
  obtain ⟨row, hrow, rfl⟩ := Option.map_eq_some_iff.mp h
  unfold statusOf
  rw [List.find?_append, hrow]
  rfl

theorem statusOf_rewriteRows_same (hf : ∀ row, (f row).orderId = row.orderId) {new : Bytes}
    (hnew : ∀ row, (f row).status = new) (h : statusOf id t = some status) :
    statusOf id (rewriteRows id f t) = some new := by
  obtain ⟨row, hrow, rfl⟩ := Option.map_eq_some_iff.mp h
  unfold statusOf
  rw [find?_rewriteRows hf, hrow]
  exact congrArg some (hnew row)

theorem find?_rewriteRows_other (hf : ∀ row, (f row).orderId = row.orderId) (hne : id' ≠ id) :
    (rewriteRows id f t).find? (fun row => row.orderId = id') =
      t.find? fun row => row.orderId = id' := by
  induction t with
  | nil => rfl
  | cons row t ih =>
    rw [rewriteRows, List.map_cons]
    by_cases hid : row.orderId = id'
    · have hrow : ¬row.orderId = id := by rwa [hid]
      rw [if_neg hrow, List.find?_cons_of_pos (by simpa using hid),
        List.find?_cons_of_pos (by simpa using hid)]
    · have hkept : ¬(if row.orderId = id then f row else row).orderId = id' := by
        split
        next => rwa [hf row]
        next => exact hid
      rw [List.find?_cons_of_neg (by simpa using hkept), List.find?_cons_of_neg (by simpa using hid)]
      exact ih

theorem FinalIn.insertRow (h : FinalIn t t') (r : Record) : FinalIn t (insertRow r t').2 := by
  intro id status hterm
  obtain ⟨hstatus, hterminal⟩ := h id status hterm
  unfold OrderTable.insertRow
  split
  next => exact ⟨hstatus, hterminal⟩
  next =>
    split
    next => exact ⟨hstatus, hterminal⟩
    next => exact ⟨statusOf_append hstatus _, hterminal⟩

/-- Rows rewritten to a status that no terminal order lacks. -/
theorem FinalIn.rewriteRows (h : FinalIn t t') {new : Bytes}
    (hf : ∀ row, (f row).orderId = row.orderId) (hnew : ∀ row, (f row).status = new)
    (hsame : ∀ status, TerminalAs id status t → status = new) :
    FinalIn t (rewriteRows id f t') := by
  intro id' status hterm
  obtain ⟨hstatus, hterminal⟩ := h id' status hterm
  refine ⟨?_, hterminal⟩
  by_cases hid : id' = id
  · subst hid
    rw [statusOf_rewriteRows_same hf hnew hstatus, hsame status hterm]
  · unfold statusOf
    rw [find?_rewriteRows_other hf hid]
    exact hstatus

theorem Respects.isChange {statement : Statement} (h : Respects t statement) :
    statement.IsChange := by
  cases statement with
  | insert r => trivial
  | updateStatus id s reason => trivial
  | updatePayment id paid paidAt => trivial
  | _ => exact h.elim

theorem FinalIn.update (h : FinalIn t t') {statement : Statement} (hs : Respects t statement) :
    FinalIn t (update statement t').2 := by
  cases statement with
  | insert r => exact h.insertRow r
  | updateStatus id s reason =>
    exact h.rewriteRows (f := withStatus s reason) (fun _ => rfl) (fun _ => rfl) hs
  | updatePayment id paid paidAt =>
    cases hpaid : sqlDouble paid with
    | none =>
      unfold OrderTable.update
      dsimp only
      rw [hpaid]
      exact h
    | some amount =>
      rw [update_updatePayment hpaid]
      exact h.rewriteRows (f := withPayment amount) (fun _ => rfl) (fun _ => rfl)
        fun status hterm => absurd hterm (hs status)
  | upsert r => exact hs.elim
  | updatePayload id payload => exact hs.elim
  | touch id ts => exact hs.elim
  | delete id => exact hs.elim
  | selectById id => exact hs.elim
  | selectByUser uid limit offset => exact hs.elim
  | selectRecent limit => exact hs.elim

end Statements

/-- The command is one that `fits` has, and respects the terminal orders of `t`. -/
def RespectsCommand (fits : Statement → Prop) (t : OrderTable) : OrderCommand → Prop
  | .submitUpdate statement => fits statement ∧ Respects t statement
  | _ => True

section Exec

variable {δ : Type} {database : Database δ} {fits : Statement → Prop} {rows : δ → OrderTable}
  {b : Backend δ}

theorem finalIn_serve (hk : database.KeepsOrders fits rows) {t : OrderTable} {c : OrderCommand}
    (hc : RespectsCommand fits t c) (h : FinalIn t (rows b.db)) :
    FinalIn t (rows (database.serve c b).2.db) := by
  cases c with
  | submitUpdate statement =>
    change FinalIn t (rows (database.update statement b.db).2)
    rw [hk.update hc.1 hc.2.isChange]
    exact h.update hc.2
  | getClient => exact h
  | redisGet key => exact h
  | redisSet key value => exact h
  | redisDel key => exact h
  | submitQuery statement => exact h
  | publish message => exact h
  | now => exact h
  | generateId => exact h

theorem finalIn_exec {α : Type} {p : OrderProgram α} (hk : database.KeepsOrders fits rows)
    (hp : p.Always (RespectsCommand fits (rows b.db))) :
    FinalIn (rows b.db) (rows (p.exec database.serve b).2.db) :=
  hp.exec (Q := fun b' : Backend δ => FinalIn (rows b.db) (rows b'.db))
    (fun _ _ hc h => finalIn_serve hk hc h) fun _ _ hterm => hterm

end Exec

end OrderTable

namespace OrderService

open Program OrderProgram OrderRepository OrderTable

/-- The calls that write orders. -/
inductive WritingCall where
  | createOrder (ctx : CreateContext)
  | updateStatus (orderId : Bytes) (status : OrderStatus) (reason : Bytes)
  | markPaid (orderId : Bytes) (paidAmount : Float) (paidAt : TimePoint)
  | cancelOrder (orderId reason : Bytes) (releaseReservation : Bool)

section System

variable {δ : Type}

def applyWriting (svc : OrderService) (database : Database δ) :
    WritingCall → Backend δ → Backend δ
  | .createOrder ctx, b => ((svc.createOrder ctx).exec database.serve b).2
  | .updateStatus orderId status reason, b =>
    ((svc.updateStatus orderId status reason).exec database.serve b).2
  | .markPaid orderId paidAmount paidAt, b =>
    ((svc.markPaid orderId paidAmount paidAt).exec database.serve b).2
  | .cancelOrder orderId reason releaseReservation, b =>
    ((svc.cancelOrder orderId reason releaseReservation).exec database.serve b).2

/-- One call after the other, from any tables and keys. -/
def writingSystem (svc : OrderService) (database : Database δ) :
    ActionSystem (Backend δ) WritingCall where
  init _ := True
  permitted _ _ := True
  apply := svc.applyWriting database

/-- The strings of the calls are plain, and none asks for another status of an order that is in a
terminal state. -/
def LeavesTerminal (charset : Charset) (rows : δ → OrderTable) : WritingCall → Backend δ → Prop
  | .createOrder ctx, _ => ctx.Plain charset
  | .updateStatus orderId s reason, b =>
    (Statement.updateStatus orderId s reason).Plain charset ∧
      ∀ status, TerminalAs orderId status (rows b.db) → status = s.toString
  | .markPaid orderId paidAmount paidAt, b =>
    (Statement.updatePayment orderId paidAmount paidAt).Plain charset ∧
      ∀ status, ¬TerminalAs orderId status (rows b.db)
  | .cancelOrder orderId reason _, b =>
    (Statement.updateStatus orderId .kCancelled reason).Plain charset ∧
      ∀ status, TerminalAs orderId status (rows b.db) → status = OrderStatus.kCancelled.toString

end System

section Always

variable {svc : OrderService} {fits : Statement → Prop} {t : OrderTable}

theorem admits_respects (svc : OrderService) (fits : Statement → Prop) (t : OrderTable) :
    svc.Admits (RespectsCommand fits t) where
  client := trivial
  get _ := trivial
  query _ := trivial
  publish _ := trivial
  put _ _ _ := trivial

theorem admitsRedis_respects (fits : Statement → Prop) (t : OrderTable) :
    AdmitsRedis (RespectsCommand fits t) :=
  ⟨trivial, fun _ => trivial, fun _ _ => trivial, fun _ => trivial, fun _ => trivial⟩

theorem always_submitUpdate {statement : Statement} (hfits : fits statement)
    (h : Respects t statement) :
    (submitUpdate statement).Always (RespectsCommand fits t) := by
  have hask : (ask (OrderCommand.submitUpdate statement) : OrderProgram _).Always
      (RespectsCommand fits t) := always_ask ⟨hfits, h⟩
  refine hask.bind fun answer => ?_
  cases answer with
  | error e => trivial
  | ok n => trivial

theorem always_insert {r : Record} (hfits : fits (.insert r)) :
    (OrderRepository.insert r).Always (RespectsCommand fits t) := by
  have hinsert : Respects t (.insert r) := trivial
  exact (always_submitUpdate hfits hinsert).bind fun _ => trivial

theorem always_setStatus {id : Bytes} {s : OrderStatus} {reason : Bytes}
    (hfits : fits (.updateStatus id s reason)) (h : Respects t (.updateStatus id s reason)) :
    (OrderRepository.updateStatus id s reason).Always (RespectsCommand fits t) :=
  (always_submitUpdate hfits h).bind fun _ => trivial

theorem always_setPayment {id : Bytes} {paid : Float} {paidAt : TimePoint}
    (hfits : fits (.updatePayment id paid paidAt)) (h : Respects t (.updatePayment id paid paidAt)) :
    (OrderRepository.updatePayment id paid paidAt).Always (RespectsCommand fits t) :=
  (always_submitUpdate hfits h).bind fun _ => trivial

theorem always_rollback (reservation : Option Reservation) :
    (svc.rollback reservation).Always (RespectsCommand fits t) := by
  unfold rollback
  split
  next =>
    split
    next => exact ((admitsRedis_respects fits t).always_withClient _).bind fun _ => trivial
    next => trivial
  next => trivial

theorem always_storeOrder {e : OrderEntity} (hfits : fits (.insert e)) (rawPayload : Bytes)
    (reservation : Option Reservation) :
    (svc.storeOrder e rawPayload reservation).Always (RespectsCommand fits t) := by
  have hadmits := admits_respects svc fits t
  refine (always_insert hfits).bind fun stored => ?_
  split
  next =>
    exact (always_putInCache hadmits e).bind fun _ =>
      (always_publishEvent hadmits _ e rawPayload).bind fun _ => trivial
  next => exact (always_rollback reservation).bind fun _ => trivial

theorem always_storeRefused {e : OrderEntity}
    (hfits : ∀ now, fits (.insert { e with
      status := .kFailed, statusReason := ascii "inventory reservation failed", updatedAt := now }))
    (error : String) : (svc.storeRefused e error).Always (RespectsCommand fits t) := by
  refine ⟨trivial, fun now => ?_⟩
  exact (always_insert (hfits now)).bind fun _ =>
    (always_putInCache (admits_respects svc fits t) _).bind fun _ => trivial

/-- `CreateOrder` writes nothing but a new row, pending or failed. -/
theorem always_createOrder {ctx : CreateContext}
    (hfits : ∀ reason ∈ [ascii "order created", ascii "inventory reservation failed"],
      ∀ status createdAt updatedAt, fits (.insert { ctx.entity with
        payloadJson := ctx.rawPayload, status, statusReason := reason, createdAt, updatedAt })) :
    (svc.createOrder ctx).Always (RespectsCommand fits t) := by
  have hcreated := hfits (ascii "order created") List.mem_cons_self
  have hrefused := hfits (ascii "inventory reservation failed")
    (List.mem_cons_of_mem _ List.mem_cons_self)
  unfold createOrder
  split
  next => trivial
  next =>
    -- The clock is read for the payload, the creation and the status.
    refine ⟨trivial, fun _ => ⟨trivial, fun createdAt => ⟨trivial, fun updatedAt => ?_⟩⟩⟩
    change (svc.placeOrder ctx _).Always (RespectsCommand fits t)
    unfold placeOrder
    split
    next =>
      refine ((admitsRedis_respects fits t).always_withClient _).bind fun granted => ?_
      cases granted with
      | error error => exact always_storeRefused (hrefused .kFailed createdAt) error
      | ok r => exact always_storeOrder (hcreated .kPending createdAt updatedAt) _ (some r)
    next => exact always_storeOrder (hcreated .kPending createdAt updatedAt) _ none

theorem always_updateStatus {orderId : Bytes} {status : OrderStatus} {reason : Bytes}
    (hfits : fits (.updateStatus orderId status reason))
    (h : Respects t (.updateStatus orderId status reason)) :
    (svc.updateStatus orderId status reason).Always (RespectsCommand fits t) := by
  unfold updateStatus
  split
  next => trivial
  next =>
    exact (always_setStatus hfits h).bind fun updated =>
      always_statusUpdated (admits_respects svc fits t) orderId reason updated

theorem always_markPaid {orderId : Bytes} {paid : Float} {paidAt : TimePoint}
    (hfits : fits (.updatePayment orderId paid paidAt))
    (h : Respects t (.updatePayment orderId paid paidAt)) :
    (svc.markPaid orderId paid paidAt).Always (RespectsCommand fits t) := by
  unfold markPaid
  split
  next => trivial
  next =>
    exact (always_setPayment hfits h).bind fun updated =>
      always_paymentUpdated (admits_respects svc fits t) orderId updated

theorem always_cancelOrder {orderId reason : Bytes}
    (hfits : fits (.updateStatus orderId .kCancelled reason))
    (h : Respects t (.updateStatus orderId .kCancelled reason)) (releaseReservation : Bool) :
    (svc.cancelOrder orderId reason releaseReservation).Always (RespectsCommand fits t) := by
  have hadmits := admits_respects svc fits t
  have hrelease : ∀ r, (svc.releaseCancelled r releaseReservation).Always (RespectsCommand fits t) := by
    intro r
    unfold releaseCancelled
    split
    next =>
      split
      next => exact ((admitsRedis_respects fits t).always_withClient _).bind fun _ => trivial
      next => trivial
    next => trivial
  unfold cancelOrder
  split
  next => trivial
  next =>
    refine (always_getById hadmits orderId).bind fun found => ?_
    cases found with
    | none => trivial
    | some r =>
      refine (always_setStatus hfits h).bind fun updated => ?_
      cases updated with
      | false => trivial
      | true =>
        exact (hrelease r).bind fun _ => (always_refreshCache hadmits orderId).bind fun _ =>
          (always_publishEvent hadmits _ r reason).bind fun _ => trivial

end Always

variable {svc : OrderService} {δ : Type} {database : Database δ} {charset : Charset}
  {rows : δ → OrderTable} {b : Backend δ}

/-- One call keeps the terminal orders. -/
theorem finalIn_applyWriting (hk : database.KeepsOrders (Statement.Plain charset) rows)
    {call : WritingCall} (h : LeavesTerminal charset rows call b) :
    FinalIn (rows b.db) (rows (svc.applyWriting database call b).db) := by
  cases call with
  | createOrder ctx =>
    exact finalIn_exec hk (always_createOrder fun _ hreason => plain_insert h hreason)
  | updateStatus orderId status reason => exact finalIn_exec hk (always_updateStatus h.1 h.2)
  | markPaid orderId paidAmount paidAt => exact finalIn_exec hk (always_markPaid h.1 h.2)
  | cancelOrder orderId reason releaseReservation =>
    exact finalIn_exec hk (always_cancelOrder h.1 h.2 releaseReservation)

/-- An order that has reached a terminal state keeps it over any further calls that ask for no
other. -/
theorem terminal_final_of_leavesTerminal
    (hk : database.KeepsOrders (Statement.Plain charset) rows) {id status : Bytes}
    {calls : List WritingCall} (hterm : TerminalAs id status (rows b.db))
    (hcalls : ((svc.writingSystem database).restrict (LeavesTerminal charset rows)).Permits calls b) :
    statusOf id (rows ((svc.writingSystem database).run calls b).db) = some status := by
  induction calls generalizing b with
  | nil => exact hterm.1
  | cons call calls ih =>
    have hstep : TerminalAs id status (rows (svc.applyWriting database call b).db) :=
      finalIn_applyWriting hk hcalls.1.2 id status hterm
    exact ih hstep hcalls.2

/-- A service with nothing but its database. -/
def plainOrders : OrderService := ⟨⟨true, none, none, false⟩, {}⟩

/-- The calls, with the table for the database. -/
def plainWriting : ActionSystem (Backend OrderTable) WritingCall :=
  plainOrders.writingSystem OrderTable.database

def plainOpening : Backend OrderTable := ⟨∅, [], fun _ => 0, 0, fun _ => [], 0⟩

def plainOrder (orderId : String) : CreateContext where
  entity := { orderId := ascii orderId, userId := ascii "u", totalAmount := 5.0 }
  rawPayload := []

/-- An order that is created and cancelled. -/
def plainCancelled : Backend OrderTable :=
  plainWriting.run
    [.createOrder (plainOrder "o1"), .cancelOrder (ascii "o1") (ascii "changed") true] plainOpening

theorem plainCancelled_terminal : TerminalAs (ascii "o1") (ascii "Cancelled") plainCancelled.db := by
  constructor
  · decide +kernel
  · decide +kernel

/-- It is cancelled once more, and another order is paid. -/
def laterCalls : List WritingCall := [
  .cancelOrder (ascii "o1") (ascii "again") true, .createOrder (plainOrder "o2"),
  .markPaid (ascii "o2") 5.0 0]

theorem terminal_final_laterCalls :
    TerminalAs (ascii "o1") (ascii "Cancelled") plainCancelled.db ∧
      statusOf (ascii "o1") (plainWriting.run laterCalls plainCancelled).db =
        some (ascii "Cancelled") := by
  have hcancel : LeavesTerminal singleByte (fun t => t)
      (.cancelOrder (ascii "o1") (ascii "again") true) plainCancelled :=
    ⟨by decide, fun status hs => Option.some.inj (hs.1.symm.trans plainCancelled_terminal.1)⟩
  have hcreate : LeavesTerminal singleByte (fun t => t) (.createOrder (plainOrder "o2"))
      (plainWriting.run (laterCalls.take 1) plainCancelled) := by
    change (plainOrder "o2").Plain singleByte
    decide
  have hpending : statusOf (ascii "o2") (plainWriting.run (laterCalls.take 2)
      plainCancelled).db = some (ascii "Pending") := by decide +kernel
  have hpaid : LeavesTerminal singleByte (fun t => t) (.markPaid (ascii "o2") 5.0 0)
      (plainWriting.run (laterCalls.take 2) plainCancelled) := by
    refine ⟨by decide, ?_⟩
    rintro status ⟨hs, hterminal⟩
    rw [← Option.some.inj (hpending.symm.trans hs)] at hterminal
    exact absurd hterminal (by decide)
  have hcalls : (plainWriting.restrict (LeavesTerminal singleByte fun t => t)).Permits laterCalls
      plainCancelled := ⟨⟨trivial, hcancel⟩, ⟨trivial, hcreate⟩, ⟨trivial, hpaid⟩, trivial⟩
  exact ⟨plainCancelled_terminal, terminal_final_of_leavesTerminal
    (OrderTable.keepsOrders_database _) plainCancelled_terminal hcalls⟩

/-- None of the calls looks at the status: a cancelled order is paid, and a failed or completed
one could be given any status by `UpdateStatus`. -/
theorem cancelled_order_paid :
    plainWriting.Reachable plainCancelled ∧
      TerminalAs (ascii "o1") (ascii "Cancelled") plainCancelled.db ∧
      statusOf (ascii "o1") (plainWriting.run [.markPaid (ascii "o1") 5.0 0]
        plainCancelled).db = some (ascii "Paid") ∧
      statusOf (ascii "o1") (plainWriting.run
        [.updateStatus (ascii "o1") .kPending []] plainCancelled).db = some (ascii "Pending") := by
  have h0 : plainWriting.Reachable plainOpening := .init trivial
  refine ⟨h0.run ⟨trivial, trivial, trivial⟩, plainCancelled_terminal, ?_, ?_⟩
  · decide +kernel
  · decide +kernel

end OrderService

end MuduoPlus
