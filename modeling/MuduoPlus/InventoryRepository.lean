import MuduoPlus.InputText
import MuduoPlus.InventoryExec
import MuduoPlus.OrderRepository

namespace MuduoPlus

/-- Of the options only `reservationKeyPrefix` is read here. -/
structure InventoryRepositoryOptions where
  reservationKeyPrefix : Bytes := ascii "inventory:reservation:"

structure ReservationRecord where
  reservationId : Bytes := []
  orderId : Bytes := []
  productId : Bytes := []
  quantity : UInt32 := 0
  expiresAt : TimePoint := 0
  deriving DecidableEq, Repr

/-- `pool`: whether the pointer is set. -/
structure InventoryRepository where
  pool : Bool := true
  options : InventoryRepositoryOptions := {}

namespace InventoryRepository

open InputText

variable {α : Type}

def makeReservationKey (repo : InventoryRepository) (reservationId : Bytes) : Bytes :=
  repo.options.reservationKeyPrefix ++ reservationId

/-- `borrowClient` and the test behind it; `client` says whether the pool has a connected client. -/
def withBorrowed (repo : InventoryRepository) (client : Bool) (failure : α)
    (next : RedisProgram α) : RedisProgram α :=
  if repo.pool && client then next else .done failure

/-- The text that `SaveReservation` stores. -/
def reservationText (r : ReservationRecord) : Bytes :=
  r.orderId ++ ascii "|" ++ r.productId ++ ascii "|" ++ decimal r.quantity.toNat ++ ascii "|" ++
    decimalInt r.expiresAt.seconds.toInt

def saveReservation (repo : InventoryRepository) (client : Bool) (r : ReservationRecord) :
    RedisProgram Bool :=
  repo.withBorrowed client false
    (RedisClient.set (repo.makeReservationKey r.reservationId) (reservationText r) .done)

/-- What `GetReservation` reads from a text; nobody catches what the conversions raise. -/
def parseReservation (reservationId val : Bytes) : Except StdException ReservationRecord := do
  let initial : ReservationRecord := {}
  let (orderId, iss) := getline 124 initial.orderId (ofBytes val)
  let (productId, iss) := getline 124 initial.productId iss
  let (token, iss) := getline 124 [] iss
  let quantity ← stoul token
  let (token, _) := getline 124 token iss
  let expiresAt ← stoll token
  return {
    reservationId, orderId, productId
    quantity := UInt32.ofNat quantity
    expiresAt := TimePoint.ofSeconds (Int64.ofInt expiresAt) }

def getReservation (repo : InventoryRepository) (client : Bool) (reservationId : Bytes) :
    RedisProgram (Except StdException (Option ReservationRecord)) :=
  repo.withBorrowed client (.ok none)
    (RedisClient.get (repo.makeReservationKey reservationId) fun val =>
      match val with
      | none => .done (.ok none)
      | some val => .done ((parseReservation reservationId val).map some))

end InventoryRepository

namespace InventoryService

open InputText

/-- What `fetchReservation` reads from a text. -/
def parseReservation (reservationId value : Bytes) : Reservation :=
  let (orderId, iss) := getline 44 [] (ofBytes value)
  let (productId, iss) := getline 44 [] iss
  ⟨reservationId, orderId, productId, readUInt32 0 iss⟩

def fetchReservation (svc : InventoryService) (reservationId : Bytes) :
    RedisProgram (Option Reservation) :=
  RedisClient.get (svc.makeReservationKey reservationId) fun value =>
    .done (value.map (parseReservation reservationId))

end InventoryService

/-- A text with none of `,`, `|` and `:` in it. -/
def Plain (text : Bytes) : Prop := (44 : UInt8) ∉ text ∧ (124 : UInt8) ∉ text ∧ (58 : UInt8) ∉ text

namespace InventoryRepository

open InputText InventoryService

variable {repo : InventoryRepository} {svc : InventoryService} {order : OrderRecord}
  {r : ReservationRecord} {redis : Dict}

theorem cString_subset (s : Bytes) : cString s ⊆ s :=
  (List.takeWhile_prefix _).subset

theorem reservationText_eq (r : ReservationRecord) :
    reservationText r = r.orderId ++ 124 :: (r.productId ++ 124 ::
      (decimal r.quantity.toNat ++ 124 :: decimalInt r.expiresAt.seconds.toInt)) := by
  have hascii : ascii "|" = [124] := by decide
  simp [reservationText, hascii]

/-- Without a bar in the text there is nothing to read the quantity from. -/
theorem parseReservation_of_not_mem {val : Bytes} (h : (124 : UInt8) ∉ val) (reservationId : Bytes) :
    parseReservation reservationId val = .error .invalidArgument := by
  unfold parseReservation
  simp only [ofBytes, getline_last h]
  rfl

theorem bar_not_mem_reservationText {r : Reservation} (ho : (124 : UInt8) ∉ r.orderId)
    (hp : (124 : UInt8) ∉ r.productId) : (124 : UInt8) ∉ InventoryService.reservationText r := by
  have hquantity : (124 : UInt8) ∉ decimal r.quantity.toNat := not_mem_decimal (by decide) _
  have hcomma : (124 : UInt8) ∉ ascii "," := by decide
  simp only [InventoryService.reservationText, List.mem_append, not_or]
  exact ⟨⟨⟨⟨⟨ho, hcomma⟩, hp⟩, hcomma⟩, hquantity⟩, hcomma⟩

/-- Without a comma in the text all of it is taken for the order id. -/
theorem service_parseReservation_of_not_mem {value : Bytes} (h : (44 : UInt8) ∉ value)
    (reservationId : Bytes) :
    (InventoryService.parseReservation reservationId value).orderId = value := by
  unfold InventoryService.parseReservation
  simp only [ofBytes, getline_last h]

theorem comma_not_mem_reservationText (ho : (44 : UInt8) ∉ r.orderId)
    (hp : (44 : UInt8) ∉ r.productId) : (44 : UInt8) ∉ reservationText r := by
  have hcomma : ¬IsNumberByte 44 := fun hb => absurd hb.1 (by decide)
  have hquantity : (44 : UInt8) ∉ decimal r.quantity.toNat := not_mem_decimal (by decide) _
  have hseconds : (44 : UInt8) ∉ decimalInt r.expiresAt.seconds.toInt :=
    fun hm => hcomma (isNumberByte_decimalInt _ hm)
  have hbar : (44 : UInt8) ∉ ascii "|" := by decide
  simp only [reservationText, List.mem_append, not_or]
  exact ⟨⟨⟨⟨⟨⟨ho, hbar⟩, hp⟩, hbar⟩, hquantity⟩, hbar⟩, hseconds⟩

/-- What is stored of a record is shorter than the order id, or longer. -/
theorem cString_reservationText_ne (r : ReservationRecord) :
    cString (reservationText r) ≠ r.orderId := by
  obtain ⟨rest, htext⟩ : ∃ rest, reservationText r = r.orderId ++ 124 :: rest :=
    ⟨_, reservationText_eq r⟩
  intro he
  by_cases hnul : (0 : UInt8) ∈ r.orderId
  · -- The text ends at the NUL, so none is stored.
    rw [← he] at hnul
    have hne := List.mem_takeWhile_imp hnul
    simp at hne
  · have hlong : cString (reservationText r) = r.orderId ++ 124 :: cString rest := by
      unfold cString
      rw [htext, List.takeWhile_append_of_pos, List.takeWhile_cons_of_pos (by decide)]
      intro b hb
      have hb0 : b ≠ 0 := fun h0 => hnul (h0 ▸ hb)
      simpa using hb0
    rw [hlong] at he
    have hlength := congrArg List.length he
    rw [List.length_append, List.length_cons] at hlength
    omega

theorem getReservation_exec (hpool : repo.pool = true) {reservationId val : Bytes}
    (hl : redis.lookup (cString (repo.makeReservationKey reservationId)) = some val) :
    (repo.getReservation true reservationId).exec redis =
      ((parseReservation reservationId val).map some, redis) := by
  simp only [getReservation, withBorrowed, hpool, RedisClient.get, StoreProgram.exec, hl,
    Bool.and_self, if_true]

theorem saveReservation_exec (hpool : repo.pool = true) :
    (repo.saveReservation true r).exec redis =
      (true, redis.insert (cString (repo.makeReservationKey r.reservationId))
        (cString (reservationText r))) := by
  simp only [saveReservation, withBorrowed, hpool, RedisClient.set, StoreProgram.exec,
    Bool.and_self, if_true]

/-- The two layers write reservations in two formats: what the service has reserved makes the
repository raise, and what the repository has saved the service takes for another order. -/
theorem layers_disagree (hpool : repo.pool = true)
    (hkeys : repo.options.reservationKeyPrefix = svc.options.reservationKeyPrefix) :
    (∀ order reservation redis redis', Plain order.orderId → Plain order.productId →
      (svc.reserveForOrder true order).exec redis = (.ok reservation, redis') →
      ((repo.getReservation true reservation.reservationId).exec redis').1 =
        .error .invalidArgument) ∧
    ∀ r redis, Plain r.orderId → Plain r.productId →
      ∃ reservation, ((svc.fetchReservation r.reservationId).exec
          ((repo.saveReservation true r).exec redis).2).1 = some reservation ∧
        reservation.orderId ≠ r.orderId := by
  constructor
  · intro order reservation redis redis' ho hp hexec
    obtain ⟨hredis, horders, n, hs, hq⟩ : svc.Grants order redis := by
      by_contra hno
      obtain ⟨error, he⟩ := reserveForOrder_of_not_grants hno
      rw [he] at hexec
      cases hexec
    rw [reserveForOrder_granted hredis horders hs hq] at hexec
    obtain ⟨hr, rfl⟩ := Prod.mk.inj hexec
    obtain rfl := Except.ok.inj hr
    have hkey : cString (repo.makeReservationKey (reservationOf order).reservationId) =
        svc.reservationKey (makeReservationId order) := by
      rw [makeReservationKey, hkeys]
      rfl
    have hbar : (124 : UInt8) ∉ cString (InventoryService.reservationText (reservationOf order)) :=
      fun hm => bar_not_mem_reservationText ho.2.1 hp.2.1 (cString_subset _ hm)
    have hl : (svc.reserved order n redis).lookup
        (cString (repo.makeReservationKey (reservationOf order).reservationId)) =
        some (cString (InventoryService.reservationText (reservationOf order))) := by
      rw [hkey, reserved, Finmap.lookup_insert]
    rw [getReservation_exec hpool hl, parseReservation_of_not_mem hbar]
    rfl
  · intro r redis ho hp
    have hkey : cString (repo.makeReservationKey r.reservationId) =
        svc.reservationKey r.reservationId := by
      rw [makeReservationKey, hkeys]
      rfl
    have hcomma : (44 : UInt8) ∉ cString (reservationText r) :=
      fun hm => comma_not_mem_reservationText ho.1 hp.1 (cString_subset _ hm)
    refine ⟨InventoryService.parseReservation r.reservationId (cString (reservationText r)), ?_, ?_⟩
    · rw [saveReservation_exec hpool, hkey]
      simp only [fetchReservation, RedisClient.get, StoreProgram.exec]
      rw [reservationKey, Finmap.lookup_insert]
      rfl
    · rw [service_parseReservation_of_not_mem hcomma]
      exact cString_reservationText_ne r

/-- Two of five lamps, for one order. -/
def lampOrder : OrderRecord := ⟨ascii "o1", ascii "p", 2⟩

def lampService : InventoryService := ⟨⟨true, true, true⟩, {}⟩

def lampShelf : Dict := Finmap.singleton (ascii "inventory:stock:p") (ascii "5")

theorem layers_disagree_lamps :
    ∃ redis', (lampService.reserveForOrder true lampOrder).exec lampShelf =
        (.ok (reservationOf lampOrder), redis') ∧
      ((({} : InventoryRepository).getReservation true (ascii "o1:p")).exec redis').1 =
        .error .invalidArgument := by
  have hplain : Plain lampOrder.orderId ∧ Plain lampOrder.productId := by
    unfold Plain
    decide
  have hexec : (lampService.reserveForOrder true lampOrder).exec lampShelf = _ :=
    reserveForOrder_granted rfl rfl (show _ = some 5 by decide) (by decide)
  exact ⟨_, hexec, (@layers_disagree {} lampService rfl rfl).1 lampOrder _ _ _ hplain.1 hplain.2
    hexec⟩

/-- The repository does not get at the reservation of an order, and of a record it has saved the
service says that the order is `o1|p|2|0`. -/
theorem layers_cross_read :
    (((({} : InventoryRepository).getReservation true (ascii "o1:p")).exec
        ((lampService.reserveForOrder true lampOrder).exec lampShelf).2).1.toOption = none) ∧
    ((lampService.fetchReservation (ascii "o1:p")).exec
        ((({} : InventoryRepository).saveReservation true
          { reservationId := ascii "o1:p", orderId := ascii "o1", productId := ascii "p",
            quantity := 2 }).exec lampShelf).2).1 =
      some ⟨ascii "o1:p", ascii "o1|p|2|0", [], 0⟩ := by
  decide +kernel

end InventoryRepository

end MuduoPlus
