import MuduoPlus.JsonText
import MuduoPlus.OrderService

namespace MuduoPlus

namespace OrderService

open JsonText

variable {event payload : Bytes} {e : OrderEntity}

/-- The members of an event behind its name. -/
def eventMembers (e : OrderEntity) (payload : Bytes) : List (Bytes × Bytes) :=
  [(ascii "orderId", e.orderId), (ascii "userId", e.userId), (ascii "productId", e.productId),
    (ascii "status", decimal e.status.code.toNat)] ++
  if payload = [] then [] else [(ascii "payload", payload)]

theorem eventText_eq (event : Bytes) (e : OrderEntity) (payload : Bytes) :
    eventText event e payload = objectText (ascii "event", event) (eventMembers e payload) := by
  have hopen : ascii "\x7b\"event\":\"" = beginObject :: quotationMark ::
      (ascii "event" ++ [quotationMark, nameSeparator, quotationMark]) := by decide +kernel
  have hnext : ascii "\"," = [quotationMark, valueSeparator] := by decide +kernel
  have horder : ascii "\"orderId\":\"" = quotationMark ::
      (ascii "orderId" ++ [quotationMark, nameSeparator, quotationMark]) := by decide +kernel
  have huser : ascii "\"userId\":\"" = quotationMark ::
      (ascii "userId" ++ [quotationMark, nameSeparator, quotationMark]) := by decide +kernel
  have hproduct : ascii "\"productId\":\"" = quotationMark ::
      (ascii "productId" ++ [quotationMark, nameSeparator, quotationMark]) := by decide +kernel
  have hstatus : ascii "\"status\":\"" = quotationMark ::
      (ascii "status" ++ [quotationMark, nameSeparator, quotationMark]) := by decide +kernel
  have hpayload : ascii ",\"payload\":\"" = valueSeparator :: quotationMark ::
      (ascii "payload" ++ [quotationMark, nameSeparator, quotationMark]) := by decide +kernel
  have hquote : ascii "\"" = [quotationMark] := by decide +kernel
  have hclose : ascii "\x7d" = [endObject] := by decide +kernel
  rw [eventText, hopen, hnext, horder, huser, hproduct, hstatus, hpayload, hquote, hclose,
    eventMembers, objectText]
  by_cases hp : payload = []
  · simp only [hp, if_true, tailText, memberText, List.append_assoc, List.cons_append, List.nil_append,
      List.append_nil]
  · simp only [if_neg hp, tailText, memberText, List.append_assoc, List.cons_append, List.nil_append]

/-- The members of an event in their order. -/
def writtenMembers (event : Bytes) (e : OrderEntity) (payload : Bytes) : List (Bytes × Bytes) :=
  (ascii "event", event) :: eventMembers e payload

/-- The strings that an event is published with, by their names. -/
def given (event : Bytes) (e : OrderEntity) (payload : Bytes) : List (Bytes × Bytes) :=
  [(ascii "event", event), (ascii "orderId", e.orderId), (ascii "userId", e.userId),
    (ascii "productId", e.productId)] ++
  if payload = [] then [] else [(ascii "payload", payload)]

/-- The member is there, and whichever of that name a reader takes is the string. -/
def Decodes (members : List (Bytes × JsonTree)) (m : Bytes × Bytes) : Prop :=
  treeOf m ∈ members ∧ ∀ v, (m.1, v) ∈ members → v = .string m.2

/-- The event is a JSON object with the strings that it was published with. -/
def EventReadsBack (event : Bytes) (e : OrderEntity) (payload : Bytes) : Prop :=
  ∃ members, IsText (eventText event e payload) (.object members) ∧
    ∀ m ∈ given event e payload, Decodes members m

/-- A text that can stand in a JSON string as it is. -/
def IsQuotable (s : Bytes) : Prop := IsPlainText s ∧ IsUtf8 s

/-- What is written beside the given strings is the status. -/
theorem mem_writtenMembers_iff {m : Bytes × Bytes} :
    m ∈ writtenMembers event e payload ↔
      m ∈ given event e payload ∨ m = (ascii "status", decimal e.status.code.toNat) := by
  have hsplit : ∀ {a b : Bytes × Bytes} (front tail : List (Bytes × Bytes)),
      a ∈ front ++ b :: tail ↔ a ∈ front ++ tail ∨ a = b := by
    intro a b front tail
    rw [List.mem_append, List.mem_cons, List.mem_append, or_assoc, or_comm (a := a = b)]
  exact hsplit [(ascii "event", event), (ascii "orderId", e.orderId), (ascii "userId", e.userId),
    (ascii "productId", e.productId)] _

theorem forall_mem_given_iff {P : Bytes → Prop} (h0 : P []) :
    (∀ m ∈ given event e payload, P m.2) ↔
      ∀ s ∈ [event, e.orderId, e.userId, e.productId, payload], P s := by
  unfold given
  split
  next hp =>
    simp only [hp, h0, List.append_nil, List.forall_mem_cons, List.not_mem_nil, false_implies,
      implies_true, and_true]
  next =>
    simp only [List.cons_append, List.nil_append, List.forall_mem_cons, List.not_mem_nil,
      false_implies, implies_true, and_true]

theorem isQuotable_decimal (n : Nat) : IsQuotable (decimal n) := by
  have hdigit : ∀ c ∈ decimal n, 48 ≤ c ∧ c ≤ 57 := by
    intro c hc
    simpa [isDigit] using isDigit_decimal c hc
  refine ⟨?_, IsUtf8.of_lt ?_⟩
  · intro c hc
    obtain ⟨hlo, hhi⟩ := hdigit c hc
    refine ⟨UInt8.le_trans (by decide) hlo, ?_, ?_⟩
    · intro hq
      rw [hq] at hlo
      exact absurd hlo (by decide)
    · intro hq
      rw [hq] at hhi
      exact absurd hhi (by decide)
  · intro c hc
    exact UInt8.lt_of_le_of_lt (hdigit c hc).2 (by decide)

/-- The names are plain, and no two are the same. -/
theorem names_spec (event : Bytes) (e : OrderEntity) (payload : Bytes) :
    ((writtenMembers event e payload).map Prod.fst).Nodup ∧
      ∀ m ∈ writtenMembers event e payload, IsQuotable m.1 := by
  have hnames : ((writtenMembers event e payload).map Prod.fst).Sublist
      [ascii "event", ascii "orderId", ascii "userId", ascii "productId", ascii "status",
        ascii "payload"] := by
    unfold writtenMembers eventMembers
    split
    · exact List.sublist_append_left _ [ascii "payload"]
    · exact List.Sublist.refl _
  have hnodup : [ascii "event", ascii "orderId", ascii "userId", ascii "productId", ascii "status",
      ascii "payload"].Nodup := by
    apply List.Nodup.of_map (fun s => (s.length, s.head?))
    decide +kernel
  refine ⟨hnames.nodup hnodup, ?_⟩
  intro m hm
  have hall : ∀ s ∈ [ascii "event", ascii "orderId", ascii "userId", ascii "productId",
      ascii "status", ascii "payload"], IsPlainText s ∧ ∀ b ∈ s, b < 128 := by decide +kernel
  obtain ⟨hp, hlt⟩ := hall m.1 (hnames.subset (List.mem_map_of_mem hm))
  exact ⟨hp, IsUtf8.of_lt hlt⟩

theorem EventReadsBack.isQuotable (hback : EventReadsBack event e payload) :
    ∀ m ∈ given event e payload, IsQuotable m.2 := by
  obtain ⟨members, h, hd⟩ := hback
  rw [eventText_eq] at h
  have hnames := (names_spec event e payload).2
  have hkept : Kept (writtenMembers event e payload) members := by
    intro m hm
    rcases mem_writtenMembers_iff.mp hm with hg | rfl
    · exact Or.inr (hd m hg).2
    · exact Or.inl (isQuotable_decimal _).1
  have hplain := plain_of_objectText (fun m hm => (hnames m hm).1) h hkept
  have hutf8 := isUtf8_objectText_iff.mp h.1
  intro m hm
  have hw : m ∈ writtenMembers event e payload := mem_writtenMembers_iff.mpr (Or.inl hm)
  exact ⟨hplain m hw, (hutf8 m hw).2⟩

theorem EventReadsBack.of_isQuotable (h : ∀ m ∈ given event e payload, IsQuotable m.2) :
    EventReadsBack event e payload := by
  obtain ⟨hnodup, hnames⟩ := names_spec event e payload
  have hall : ∀ m ∈ writtenMembers event e payload, IsQuotable m.2 := by
    intro m hm
    rcases mem_writtenMembers_iff.mp hm with hg | rfl
    · exact h m hg
    · exact isQuotable_decimal _
  refine ⟨(writtenMembers event e payload).map treeOf, ?_, ?_⟩
  · rw [eventText_eq]
    exact objectText_of_plain (fun m hm => (hnames m hm).1) (fun m hm => (hall m hm).1)
      (fun m hm => ⟨(hnames m hm).2, (hall m hm).2⟩)
  · intro m hm
    have hw : m ∈ writtenMembers event e payload := mem_writtenMembers_iff.mpr (Or.inl hm)
    refine ⟨List.mem_map_of_mem hw, ?_⟩
    intro v hv
    obtain ⟨m', hm', he⟩ := List.mem_map.mp hv
    obtain ⟨hname, rfl⟩ := Prod.mk.inj he
    rw [List.inj_on_of_nodup_map hnodup hm' hw hname]

/-- An event can be read back exactly when each of its strings can stand in a JSON string as it is:
nothing is escaped. -/
theorem eventReadsBack_iff (event : Bytes) (e : OrderEntity) (payload : Bytes) :
    EventReadsBack event e payload ↔
      ∀ s ∈ [event, e.orderId, e.userId, e.productId, payload], IsQuotable s := by
  have hnil : IsQuotable [] := ⟨by simp [IsPlainText], IsUtf8.nil⟩
  rw [← forall_mem_given_iff hnil]
  exact ⟨EventReadsBack.isQuotable, EventReadsBack.of_isQuotable⟩

/-- `CreateOrder` with the body of a request, and `CancelOrder` with a reason that quotes a word. -/
theorem eventText_quoted_lost :
    let e : OrderEntity := { orderId := ascii "o1", userId := ascii "u1", productId := ascii "p1" }
    ¬ EventReadsBack (ascii "order.created") e (ascii "\x7b\"userId\":\"u1\"\x7d") ∧
    ¬ EventReadsBack (ascii "order.cancelled") e (ascii "no \"blue\" left") := by
  intro e
  have hbody : ¬ IsPlainText (ascii "\x7b\"userId\":\"u1\"\x7d") := by decide +kernel
  have hreason : ¬ IsPlainText (ascii "no \"blue\" left") := by decide +kernel
  refine ⟨?_, ?_⟩
  · intro h
    exact hbody (h.isQuotable (ascii "payload", _) (by decide +kernel)).1
  · intro h
    exact hreason (h.isQuotable (ascii "payload", _) (by decide +kernel)).1

end OrderService

end MuduoPlus
