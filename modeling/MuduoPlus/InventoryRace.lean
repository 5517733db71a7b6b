import MuduoPlus.ActionSystem
import MuduoPlus.InventoryService

namespace MuduoPlus

/-- A call of one of the clients that has not returned yet. -/
inductive InventoryCall where
  | reserve (order : OrderRecord) (prog : RedisProgram (Except String Reservation))
  | release (reservation : Reservation) (prog : RedisProgram (Except String Unit))

namespace InventoryCall

def step : InventoryCall → Dict → InventoryCall × Dict
  | .reserve order prog, redis => (.reserve order (prog.step redis).1, (prog.step redis).2)
  | .release reservation prog, redis => (.release reservation (prog.step redis).1, (prog.step redis).2)

/-- The next command reads `key`. -/
def IsGet (key : Bytes) : InventoryCall → Prop
  | .reserve _ prog => prog.IsGet key
  | .release _ prog => prog.IsGet key

/-- The next command writes `key`. -/
def IsSet (key : Bytes) : InventoryCall → Prop
  | .reserve _ prog => prog.IsSet key
  | .release _ prog => prog.IsSet key

/-- The reservations that are granted and unreleased because the call returned. -/
def settle : InventoryCall → Option (List Reservation)
  | .reserve _ (.done (.ok reservation)) => some [reservation]
  | .reserve _ (.done (.error _)) => some []
  | .release _ (.done (.ok _)) => some []
  | .release reservation (.done (.error _)) => some [reservation]
  | _ => none

end InventoryCall

/-- Redis, the calls in flight and the reservations granted and not given to
`ReleaseReservation` yet. -/
structure StockRun where
  redis : Dict
  calls : List InventoryCall
  held : List Reservation

inductive StockAction where
  | startReserve (client : Bool) (order : OrderRecord)
  | startRelease (client : Bool) (reservation : Reservation) (reason : Bytes)
  | step (i : Nat)
  | finish (i : Nat)

def heldTotal (held : List Reservation) : Nat := (held.map fun r => r.quantity.toNat).sum

namespace InventoryService

variable {svc : InventoryService} {productId : Bytes}

/-- The number `QueryStock` reads. -/
def storedStock (svc : InventoryService) (productId : Bytes) (redis : Dict) : Option Nat :=
  match redis.lookup (cString (svc.makeStockKey productId)) with
  | none => none
  | some text => (stoul text).toOption

def applyStock (svc : InventoryService) : StockAction → StockRun → StockRun
  | .startReserve client order, s =>
    { s with calls := s.calls ++ [.reserve order (svc.reserveForOrder client order)] }
  | .startRelease client reservation reason, s =>
    { s with
      calls := s.calls ++ [.release reservation (svc.releaseReservation client reservation reason)]
      held := s.held.erase reservation }
  | .step i, s =>
    match s.calls[i]? with
    | none => s
    | some call => { s with calls := s.calls.set i (call.step s.redis).1, redis := (call.step s.redis).2 }
  | .finish i, s =>
    match s.calls[i]? with
    | none => s
    | some call =>
      match call.settle with
      | none => s
      | some reservations =>
        { s with calls := s.calls.eraseIdx i, held := s.held ++ reservations }

/-- Any number of clients that reserve and release one product, each granted reservation
released at most once, with every Redis command one step. -/
def stockSystem (svc : InventoryService) (productId : Bytes) (initial : Nat) :
    ActionSystem StockRun StockAction where
  init s := svc.storedStock productId s.redis = some initial ∧ s.calls = [] ∧ s.held = []
  permitted
    | .startReserve _ order, _ => order.productId = productId
    | .startRelease _ reservation _, s => reservation ∈ s.held
    | _, _ => True
  apply := svc.applyStock

/-- No call reads the stock while another one is about to write it. -/
def Exclusive (svc : InventoryService) (productId : Bytes) : StockAction → StockRun → Prop
  | .step i, s =>
    ∀ call, s.calls[i]? = some call → call.IsGet (cString (svc.makeStockKey productId)) →
      ∀ other ∈ s.calls, ¬ other.IsSet (cString (svc.makeStockKey productId))
  | _, _ => True

/-- The key prefixes of `Options{}`. -/
def DefaultPrefixes (svc : InventoryService) : Prop :=
  svc.options.stockKeyPrefix = ascii "inventory:stock:" ∧
    svc.options.reservationKeyPrefix = ascii "inventory:reservation:"

/-- No reservation is stored under the product's stock key. -/
def KeysApart (svc : InventoryService) (productId : Bytes) : Prop :=
  ∀ reservationId, cString (svc.makeReservationKey reservationId) ≠ cString (svc.makeStockKey productId)

end InventoryService

end MuduoPlus
