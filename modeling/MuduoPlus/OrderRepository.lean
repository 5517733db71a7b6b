import MuduoPlus.InventoryService
import MuduoPlus.NumberText

namespace MuduoPlus

/-- `OrderStatus`, an enumeration over `uint8_t`: a cast can also make values without a name. -/
inductive OrderStatus where
  | kPending
  | kProcessing
  | kReserved
  | kPaid
  | kCompleted
  | kCancelled
  | kFailed
  | unnamed (code : UInt8) (h : 7 ≤ code)
  deriving DecidableEq, Repr

namespace OrderStatus

def toString : OrderStatus → Bytes
  | kPending => ascii "Pending"
  | kProcessing => ascii "Processing"
  | kReserved => ascii "Reserved"
  | kPaid => ascii "Paid"
  | kCompleted => ascii "Completed"
  | kCancelled => ascii "Cancelled"
  | kFailed => ascii "Failed"
  | unnamed _ _ => ascii "Unknown"

def orderStatusFromString (s : Bytes) : OrderStatus :=
  if s = ascii "Pending" then kPending
  else if s = ascii "Processing" then kProcessing
  else if s = ascii "Reserved" then kReserved
  else if s = ascii "Paid" then kPaid
  else if s = ascii "Completed" then kCompleted
  else if s = ascii "Cancelled" then kCancelled
  else if s = ascii "Failed" then kFailed
  else kPending

/-- `static_cast<int>`. -/
def code : OrderStatus → UInt8
  | kPending => 0
  | kProcessing => 1
  | kReserved => 2
  | kPaid => 3
  | kCompleted => 4
  | kCancelled => 5
  | kFailed => 6
  | unnamed code _ => code

/-- `static_cast<OrderStatus>`. -/
def ofCode (code : UInt8) : OrderStatus :=
  if code = 0 then kPending
  else if code = 1 then kProcessing
  else if code = 2 then kReserved
  else if code = 3 then kPaid
  else if code = 4 then kCompleted
  else if code = 5 then kCancelled
  else if code = 6 then kFailed
  else if h : 7 ≤ code then unnamed code h else kPending

theorem ofCode_code (s : OrderStatus) : ofCode s.code = s := by
  cases s with
  | unnamed code h =>
    have hne : ∀ k : UInt8, ¬7 ≤ k → code ≠ k := by
      rintro k hk rfl
      exact hk h
    simp [OrderStatus.code, ofCode, hne 0 (by decide), hne 1 (by decide), hne 2 (by decide),
      hne 3 (by decide), hne 4 (by decide), hne 5 (by decide), hne 6 (by decide), h]
  | _ => decide

end OrderStatus

/-- A `system_clock::time_point`: nanoseconds since the epoch. -/
abbrev TimePoint := Int64

/-- `duration_cast<seconds>`, which rounds towards zero. -/
def TimePoint.seconds (t : TimePoint) : Int64 := t / 1000000000

/-- `Clock::time_point{seconds(n)}`. -/
def TimePoint.ofSeconds (n : Int64) : TimePoint := n * 1000000000

/-- Year, month and day of a day counted from the epoch, in the Gregorian calendar. -/
def civilFromDays (days : Int) : Int × Nat × Nat :=
  let z := days + 719468
  let era := z / 146097
  let doe := (z % 146097).toNat
  let yoe := (doe - doe / 1460 + doe / 36524 - doe / 146096) / 365
  let doy := doe - (365 * yoe + yoe / 4 - yoe / 100)
  let mp := (5 * doy + 2) / 153
  let day := doy - (153 * mp + 2) / 5 + 1
  let month := if mp < 10 then mp + 3 else mp - 9
  let year := (yoe : Int) + era * 400 + (if month ≤ 2 then 1 else 0)
  (year, month, day)

def twoDigits (n : Nat) : Bytes := [digitByte (n / 10), digitByte n]

/-- `put_time(gmtime(&tt), "%Y-%m-%d %H:%M:%S")`. -/
def gmtimeText (tt : Int64) : Bytes :=
  let (year, month, day) := civilFromDays (tt.toInt / 86400)
  let secs := (tt.toInt % 86400).toNat
  decimalInt year ++ ascii "-" ++ twoDigits month ++ ascii "-" ++ twoDigits day ++ ascii " " ++
    twoDigits (secs / 3600) ++ ascii ":" ++ twoDigits (secs / 60 % 60) ++ ascii ":" ++
    twoDigits (secs % 60)

def timeToSQL (tp : TimePoint) : Bytes := ascii "'" ++ gmtimeText tp.seconds ++ ascii "'"

/-- `OrderRepository`, over an open connection pool. -/
structure OrderRepository where
  tableName : Bytes := ascii "orders"

namespace OrderRepository

/-- `OrderRepository::OrderRecord` with its defaults; what the inventory reads of it comes
first. -/
structure Record extends OrderRecord where
  orderId := []
  productId := []
  quantity := 1
  userId : Bytes := []
  totalAmount : Float := 0.0
  currency : Bytes := ascii "CNY"
  status : OrderStatus := .kPending
  statusReason : Bytes := []
  payloadJson : Bytes := []
  createdAt : TimePoint := 0
  updatedAt : TimePoint := 0
  deriving DecidableEq

/-- The column list of `BuildInsertSQL`. -/
def insertColumns : Bytes :=
  ascii " (order_id,user_id,product_id,quantity," ++ ascii "total_amount,currency,status," ++
    ascii "status_reason,payload_json," ++ ascii "created_at,updated_at)"

def buildInsertSQL (repo : OrderRepository) (r : Record) : Bytes :=
  ascii "INSERT INTO " ++ repo.tableName ++ insertColumns ++ ascii " VALUES ('" ++ r.orderId ++
    ascii "','" ++ r.userId ++ ascii "','" ++ r.productId ++ ascii "'," ++
    decimal r.quantity.toNat ++ ascii "," ++ generalSix r.totalAmount ++ ascii ",'" ++ r.currency ++
    ascii "','" ++ r.status.toString ++ ascii "','" ++ r.statusReason ++ ascii "','" ++
    r.payloadJson ++ ascii "'," ++ timeToSQL r.createdAt ++ ascii "," ++ timeToSQL r.updatedAt ++
    ascii ")"

/-- What `BuildUpsertSQL` appends. -/
def onDuplicateKey : Bytes :=
  ascii " ON DUPLICATE KEY UPDATE " ++ ascii "status=VALUES(status)," ++
    ascii "status_reason=VALUES(status_reason)," ++ ascii "payload_json=VALUES(payload_json)," ++
    ascii "updated_at=VALUES(updated_at)"

def buildUpsertSQL (repo : OrderRepository) (r : Record) : Bytes :=
  repo.buildInsertSQL r ++ onDuplicateKey

def buildUpdateStatusSQL (repo : OrderRepository) (id : Bytes) (s : OrderStatus) (reason : Bytes) :
    Bytes :=
  ascii "UPDATE " ++ repo.tableName ++ ascii " SET status='" ++ s.toString ++
    ascii "', status_reason='" ++ reason ++ ascii "', updated_at=NOW() WHERE order_id='" ++ id ++
    ascii "'"

def buildUpdatePaymentSQL (repo : OrderRepository) (id : Bytes) (paid : Float)
    (paidAt : TimePoint) : Bytes :=
  ascii "UPDATE " ++ repo.tableName ++ ascii " SET status='Paid', total_amount=" ++
    generalSix paid ++ ascii ", updated_at=" ++ timeToSQL paidAt ++ ascii " WHERE order_id='" ++ id ++
    ascii "'"

def buildUpdatePayloadSQL (repo : OrderRepository) (id payload : Bytes) : Bytes :=
  ascii "UPDATE " ++ repo.tableName ++ ascii " SET payload_json='" ++ payload ++
    ascii "', updated_at=NOW() WHERE order_id='" ++ id ++ ascii "'"

def buildTouchSQL (repo : OrderRepository) (id : Bytes) (ts : TimePoint) : Bytes :=
  ascii "UPDATE " ++ repo.tableName ++ ascii " SET updated_at=" ++ timeToSQL ts ++
    ascii " WHERE order_id='" ++ id ++ ascii "'"

def buildDeleteSQL (repo : OrderRepository) (id : Bytes) : Bytes :=
  ascii "DELETE FROM " ++ repo.tableName ++ ascii " WHERE order_id='" ++ id ++ ascii "'"

def buildSelectByIdSQL (repo : OrderRepository) (id : Bytes) : Bytes :=
  ascii "SELECT * FROM " ++ repo.tableName ++ ascii " WHERE order_id='" ++ id ++ ascii "'"

def buildSelectByUserSQL (repo : OrderRepository) (uid : Bytes) (limit offset : UInt64) : Bytes :=
  ascii "SELECT * FROM " ++ repo.tableName ++ ascii " WHERE user_id='" ++ uid ++
    ascii "' ORDER BY created_at DESC " ++ ascii "LIMIT " ++ decimal limit.toNat ++
    ascii " OFFSET " ++ decimal offset.toNat

def buildSelectRecentSQL (repo : OrderRepository) (limit : UInt64) : Bytes :=
  ascii "SELECT * FROM " ++ repo.tableName ++ ascii " ORDER BY created_at DESC LIMIT " ++
    decimal limit.toNat

end OrderRepository

end MuduoPlus
