import MuduoPlus.OrderCreateHandler

namespace MuduoPlus

namespace OrderRepository.Record

/-- The fields of a record that are text. -/
def texts (r : Record) : List Bytes :=
  [r.orderId, r.userId, r.productId, r.currency, r.statusReason, r.payloadJson]

/-- No text of the record has the byte `d`. -/
def Without (d : UInt8) (r : Record) : Prop := ∀ text ∈ r.texts, d ∉ text

instance (d : UInt8) (r : Record) : Decidable (r.Without d) := by
  unfold Without
  infer_instance

/-- What the cache keeps of a record: two decimals of the amount, and whole seconds. -/
def asCached (r : Record) : Record :=
  { r with
    totalAmount := roundTwo r.totalAmount
    createdAt := TimePoint.ofSeconds r.createdAt.seconds
    updatedAt := TimePoint.ofSeconds r.updatedAt.seconds }

/-- A point of time at a whole second. -/
def WholeSeconds (t : TimePoint) : Prop := t.toInt % 1000000000 = 0

instance (t : TimePoint) : Decidable (WholeSeconds t) := by
  unfold WholeSeconds
  infer_instance

/-- Two decimals are all the amount has: it is read back from its text as it was. -/
def AmountExact (r : Record) : Prop := stod (fixedTwo r.totalAmount) = .ok r.totalAmount

theorem ofSeconds_seconds {t : TimePoint} (h : WholeSeconds t) :
    TimePoint.ofSeconds t.seconds = t := by
  have hdiv : t.seconds.toInt = t.toInt.tdiv 1000000000 :=
    Int64.toInt_div_of_ne_right t 1000000000 (by decide)
  have hexact : t.toInt.tdiv 1000000000 * 1000000000 = t.toInt :=
    Int.tdiv_mul_cancel (Int.dvd_of_emod_eq_zero h)
  have hmul : (TimePoint.ofSeconds t.seconds).toInt =
      (t.seconds.toInt * (1000000000 : Int64).toInt).bmod (2 ^ 64) := Int64.toInt_mul _ _
  have hten : (1000000000 : Int64).toInt = 1000000000 := by decide
  apply Int64.toInt_inj.mp
  rw [hmul, hten, hdiv, hexact]
  exact Int64.toInt_bmod_size t

theorem asCached_eq_self {r : Record} (hamount : r.AmountExact) (hcreated : WholeSeconds r.createdAt)
    (hupdated : WholeSeconds r.updatedAt) : r.asCached = r := by
  have hround : roundTwo r.totalAmount = r.totalAmount := by
    rw [AmountExact, stod_fixedTwo] at hamount
    exact Except.ok.inj hamount
  rw [asCached, hround, ofSeconds_seconds hcreated, ofSeconds_seconds hupdated]

end OrderRepository.Record

namespace OrderCache

open InputText OrderRepository

variable {d : UInt8} {r : Record} {payload : Bytes} {records : List Record}

theorem not_mem_of_isNumberByte {s : Bytes} (h : ∀ b ∈ s, IsNumberByte b) (hd : ¬IsNumberByte d) :
    d ∉ s :=
  fun hm => hd (h d hm)

theorem stoi_code (s : OrderStatus) :
    stoi (decimal s.code.toNat) = .ok (s.code.toNat : Int) := by
  have hlt := s.code.toNat_lt
  rw [stoi, stoSigned_decimal, if_pos (by omega)]

theorem ofInt_code (s : OrderStatus) :
    OrderStatus.ofCode (UInt8.ofInt (s.code.toNat : Int)) = s := by
  have hcast : UInt8.ofInt (s.code.toNat : Int) = s.code := by
    have hmod : ((s.code.toNat : Int) % 2 ^ 8).toNat = s.code.toNat := by
      have hlt := s.code.toNat_lt
      omega
    rw [UInt8.ofInt, hmod, UInt8.ofNat_toNat]
  rw [hcast, OrderStatus.ofCode_code]

theorem stoll_seconds (n : Int64) : stoll (decimalInt n.toInt) = .ok n.toInt :=
  stoSigned_decimalInt n.le_toInt n.toInt_lt

/-- Without the delimiter in its texts a record is read back as it was cached. -/
theorem deserialize_of_without (h : r.Without 124) :
    deserializeOrder (serializeOrder r) = .ok r.asCached := by
  simp only [Record.Without, Record.texts, List.forall_mem_cons] at h
  obtain ⟨horder, huser, hproduct, hcurrency, hreason, hpayload, -⟩ := h
  have hbar : ¬IsNumberByte 124 := fun hb => absurd hb.2 (by decide)
  have hquantity := not_mem_of_isNumberByte (isNumberByte_decimal (n := r.quantity.toNat)) hbar
  have hamount := not_mem_of_isNumberByte (isNumberByte_fixedTwo (x := r.totalAmount)) hbar
  have hstatus := not_mem_of_isNumberByte (isNumberByte_decimal (n := r.status.code.toNat)) hbar
  have hcreated := not_mem_of_isNumberByte
    (isNumberByte_decimalInt (i := r.createdAt.seconds.toInt)) hbar
  have hupdated := not_mem_of_isNumberByte
    (isNumberByte_decimalInt (i := r.updatedAt.seconds.toInt)) hbar
  have hq : r.quantity.toNat < 2 ^ 64 := Nat.lt_trans r.quantity.toNat_lt (by decide)
  simp only [deserializeOrder, serializeOrder, joinWith, ofBytes, getline_append, getline_last,
    horder, huser, hproduct, hcurrency, hreason, hpayload, hquantity, hamount, hstatus, hcreated,
    hupdated, not_false_eq_true, stoul_decimal hq, stod_fixedTwo, stoi_code, stoll_seconds, bind,
    Except.bind, pure, Except.pure]
  rw [UInt32.ofNat_toNat, ofInt_code, Int64.ofInt_toInt, Int64.ofInt_toInt]
  rfl

/-- A byte that stands in no text and in no number does not stand in the cached record. -/
theorem not_mem_serializeOrder (hd : ¬IsNumberByte d) (hbar : d ≠ 124) (h : r.Without d) :
    d ∉ serializeOrder r := by
  simp only [Record.Without, Record.texts, List.forall_mem_cons] at h
  obtain ⟨horder, huser, hproduct, hcurrency, hreason, hpayload, -⟩ := h
  apply not_mem_joinWith hbar
  simp only [List.forall_mem_cons]
  exact ⟨horder, huser, hproduct, not_mem_of_isNumberByte isNumberByte_decimal hd,
    not_mem_of_isNumberByte isNumberByte_fixedTwo hd, hcurrency,
    not_mem_of_isNumberByte isNumberByte_decimal hd, hreason, hpayload,
    not_mem_of_isNumberByte isNumberByte_decimalInt hd,
    not_mem_of_isNumberByte isNumberByte_decimalInt hd, List.forall_mem_nil _⟩

theorem serializeOrder_ne_nil (r : Record) : serializeOrder r ≠ [] := by
  intro h
  exact absurd (List.append_eq_nil_iff.mp h).2 (List.cons_ne_nil _ _)

theorem mapM_deserializeOrder (h : ∀ r ∈ records, r.Without 124) :
    (records.map serializeOrder).mapM deserializeOrder = .ok (records.map Record.asCached) := by
  induction records with
  | nil => rfl
  | cons r rs ih =>
    have hr := deserialize_of_without (h r List.mem_cons_self)
    have hrs := ih fun r' hr' => h r' (List.mem_cons_of_mem r hr')
    simp only [List.map_cons, List.mapM_cons, hr, hrs, bind, Except.bind, pure, Except.pure]

/-- A list of records without either delimiter is read back as it was cached. -/
theorem deserializeList_of_without (hbar : ∀ r ∈ records, r.Without 124)
    (hline : ∀ r ∈ records, r.Without 10) :
    deserializeOrderList (serializeOrderList records) = .ok (records.map Record.asCached) := by
  have hnumber : ¬IsNumberByte 10 := fun hb => absurd hb.1 (by decide)
  have hne : ∀ x ∈ records.map serializeOrder, x ≠ [] := by
    intro x hx
    obtain ⟨r, _, rfl⟩ := List.mem_map.mp hx
    exact serializeOrder_ne_nil r
  have hten : ∀ x ∈ records.map serializeOrder, 10 ∉ x := by
    intro x hx
    obtain ⟨r, hr, rfl⟩ := List.mem_map.mp hx
    exact not_mem_serializeOrder hnumber (by decide) (hline r hr)
  have hkeep : (records.map serializeOrder).filter (· ≠ []) = records.map serializeOrder := by
    apply List.filter_eq_self.mpr
    intro x hx
    simpa using hne x hx
  rw [deserializeOrderList, serializeOrderList,
    getlines_joinWith hne hten (length_le_joinWith hne), hkeep, mapM_deserializeOrder hbar]

/-- A list of records without either delimiter, with whole seconds and whole cents, is read back
as it is. -/
theorem deserializeList_serializeList (hbar : ∀ r ∈ records, r.Without 124)
    (hline : ∀ r ∈ records, r.Without 10) (hamount : ∀ r ∈ records, r.AmountExact)
    (htimes : ∀ r ∈ records, Record.WholeSeconds r.createdAt ∧ Record.WholeSeconds r.updatedAt) :
    deserializeOrderList (serializeOrderList records) = .ok records := by
  have hself : records.map Record.asCached = records := by
    rw [List.map_congr_left (g := id) ?_, List.map_id]
    intro r hr
    exact Record.asCached_eq_self (hamount r hr) (htimes r hr).1 (htimes r hr).2
  rw [deserializeList_of_without hbar hline, hself]

def cachedPair : List Record := [
  { orderId := ascii "o1", userId := ascii "u1", productId := ascii "p1", quantity := 4294967295,
    totalAmount := 19.99, status := .kPaid, createdAt := TimePoint.ofSeconds 1700000000,
    updatedAt := TimePoint.ofSeconds 1700000009 },
  { totalAmount := -0.5 }]

/-- One order in full, and one whose texts are empty. -/
theorem deserializeList_serializeList_pair :
    cachedPair.length = 2 ∧
    deserializeOrderList (serializeOrderList cachedPair) = .ok cachedPair := by
  refine ⟨rfl, ?_⟩
  apply deserializeList_serializeList
  · decide
  · decide
  · simp only [cachedPair, List.forall_mem_cons, Record.AmountExact]
    exact ⟨by decide +kernel, by decide +kernel, List.forall_mem_nil _⟩
  · decide

/-- Every text that is read back is free of the delimiter. -/
theorem without_of_deserialize (h : deserializeOrder payload = .ok r) : r.Without 124 := by
  unfold deserializeOrder at h
  simp only [bind, Except.bind, pure, Except.pure] at h
  split at h
  next => cases h
  next =>
  split at h
  next => cases h
  next =>
  split at h
  next => cases h
  next =>
  split at h
  next => cases h
  next =>
  split at h
  next => cases h
  next =>
  obtain rfl := Except.ok.inj h
  have hnil : (124 : UInt8) ∉ ([] : Bytes) := List.not_mem_nil
  simp only [Record.Without, Record.texts, List.forall_mem_cons]
  refine ⟨?_, ?_, ?_, ?_, ?_, ?_, List.forall_mem_nil _⟩
  · exact getline_not_mem hnil _
  · exact getline_not_mem hnil _
  · exact getline_not_mem hnil _
  · exact getline_not_mem (by decide) _
  · exact getline_not_mem hnil _
  · exact getline_not_mem hnil _

/-- The cache gives back what was put into it exactly for texts without its delimiter. -/
theorem deserialize_serialize_iff (r : Record) :
    deserializeOrder (serializeOrder r) = .ok r.asCached ↔ r.Without 124 := by
  constructor
  · intro h
    have hcached : r.asCached.Without 124 := without_of_deserialize h
    exact hcached
  · intro h
    exact deserialize_of_without h

def barText : Bytes :=
  ascii "\x7b\"userId\":\"u|1\"," ++ ascii "\"productId\":\"p\",\"amount\":5\x7d"

def barHandler : OrderCreateHandler where
  deps := ⟨true, some {}, some ⟨⟨true, true, true⟩, {}⟩, true⟩
  options := {}
  idGenerator := true
  json := .readerOf barText (.object [(ascii "userId", .string (ascii "u|1")),
    (ascii "productId", .string (ascii "p")), (ascii "amount", .unsigned 5)])

/-- The order of the user `u|1` is accepted, and its cached text cannot be read: the product id
is taken for the quantity. -/
theorem cached_order_unreadable :
    ((barHandler.acceptRequest (HttpRequest.new.setBody barText) (.new false)).toOption.map
      fun record => (deserializeOrder (serializeOrder
        (OrderCreateHandler.stamp record barText (ascii "o1") 0))).toOption) = some none := by
  decide

end OrderCache

end MuduoPlus
