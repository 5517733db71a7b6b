import MuduoPlus.MqEventRouter

namespace MuduoPlus

namespace MqEventRouter

/-- `pos + 1`; `npos + 1` is 0. -/
def next : Option Nat → Nat
  | some pos => pos + 1
  | none => 0

/-- `text.substr(pos, count)`, which raises if `pos` lies behind the end. -/
def substr (text : Bytes) (pos count : Nat) : Except StdException Bytes :=
  if text.length < pos then .error .outOfRange else .ok ((text.drop pos).take count)

/-- The two quotes looked for from `pos` on, and the text between them. -/
def readQuoted (payload : Bytes) (pos : Nat) : Except StdException Bytes :=
  let quote1 := findFrom chQuote payload pos
  let quote2 := findFrom chQuote payload (next quote1)
  match quote1, quote2 with
  | some quote1, some quote2 => substr payload (quote1 + 1) (quote2 - quote1 - 1)
  | _, _ => .ok []

/-- How `routeMessage` reads the event, position by position. -/
def readEvent (payload : Bytes) : Except StdException Bytes :=
  match findText (ascii "\"event\"") payload with
  | some pos => readQuoted payload (next (findFrom chColon payload pos))
  | none => .ok []

/-- The event that is dispatched, with its handler. -/
def dispatch (router : MqEventRouter) (payload : Bytes) :
    Except StdException (Option (Bytes × EventHandler)) := do
  let event ← readEvent payload
  if event = [] then return none
  else return (router.handlers.lookup event).map fun handler => (event, handler)

/-- `"event"`, a colon behind it, and behind that the event as the first thing in quotes. -/
def HoldsEvent (event payload : Bytes) : Prop :=
  ∃ before gap value, payload = before ++ (ascii "\"event\"" ++ (gap ++ chColon :: value)) ∧
    chQuote ∉ event ∧ Leads event value

/-- Somewhere behind an `"event"` there is a colon. -/
def ColonFollows (payload : Bytes) : Prop :=
  ∃ before behind, payload = before ++ (ascii "\"event\"" ++ behind) ∧ chColon ∈ behind

variable {payload event text : Bytes} {router : MqEventRouter} {handler : EventHandler}

theorem substr_of_drop {pos : Nat} {c : UInt8} {rest : Bytes}
    (h : payload.drop pos = text ++ c :: rest) : substr payload pos text.length = .ok text := by
  have hlength : ¬payload.length < pos := by
    intro hlt
    rw [List.drop_eq_nil_of_le (by omega)] at h
    simp at h
  rw [substr, if_neg hlength, h, List.take_left]

/-- The search for the two quotes never leaves the payload. -/
theorem readQuoted_eq (payload : Bytes) (pos : Nat) :
    readQuoted payload pos = .ok (quoted (payload.drop pos)) := by
  unfold readQuoted quoted findFrom
  cases hfirst : cutAt chQuote (payload.drop pos) with
  | none => rfl
  | some p =>
    obtain ⟨lead, inner⟩ := p
    obtain ⟨hdrop, -⟩ := cutAt_eq_some_iff.mp hfirst
    have hnext : next (some (pos + lead.length)) = pos + (lead.length + 1) := rfl
    have hinner : payload.drop (pos + (lead.length + 1)) = inner := by
      rw [← List.drop_drop, hdrop, List.append_cons]
      exact List.drop_left' (by simp)
    dsimp only [Option.map_some]
    rw [hnext, hinner]
    cases hsecond : cutAt chQuote inner with
    | none => rfl
    | some p =>
      obtain ⟨found, rest⟩ := p
      obtain ⟨hfound, -⟩ := cutAt_eq_some_iff.mp hsecond
      dsimp only [Option.map_some]
      have hcount : pos + (lead.length + 1) + found.length - (pos + lead.length) - 1 =
          found.length := by omega
      rw [hcount, Nat.add_assoc]
      exact substr_of_drop (hinner.trans hfound)

theorem readEvent_eq (payload : Bytes) : readEvent payload = .ok (eventOf payload) := by
  unfold readEvent eventOf findText
  cases hcut : cutText (ascii "\"event\"") payload with
  | none => rfl
  | some p =>
    obtain ⟨before, behind⟩ := p
    obtain ⟨hpayload, -⟩ := (cutText_eq_some_iff (by decide)).mp hcut
    have hkey : chColon ∉ ascii "\"event\"" := by decide
    have hdrop : payload.drop before.length = ascii "\"event\"" ++ behind := by
      rw [hpayload, List.drop_left]
    dsimp only [Option.map_some]
    rw [readQuoted_eq]
    unfold findFrom
    rw [hdrop, cutAt_append_of_not_mem hkey]
    cases hcolon : cutAt chColon behind with
    | none => rfl
    | some p =>
      obtain ⟨gap, value⟩ := p
      obtain ⟨hbehind, -⟩ := cutAt_eq_some_iff.mp hcolon
      have hvalue : payload.drop
          (next (some (before.length + (ascii "\"event\"" ++ gap).length))) = value := by
        have hsplit : payload = (before ++ (ascii "\"event\"" ++ gap) ++ [chColon]) ++ value := by
          rw [hpayload, hbehind]
          simp only [List.append_assoc, List.singleton_append]
        rw [hsplit]
        apply List.drop_left'
        simp only [next, List.length_append, List.length_singleton]
      dsimp only [Option.map_some]
      rw [hvalue]

theorem quoted_not_mem (text : Bytes) : chQuote ∉ quoted text := by
  unfold quoted
  split
  next => exact List.not_mem_nil
  next =>
    split
    next => exact List.not_mem_nil
    next h => exact (cutAt_eq_some_iff.mp h).2

theorem eventOf_not_mem (payload : Bytes) : chQuote ∉ eventOf payload := by
  unfold eventOf
  split
  next => exact List.not_mem_nil
  next =>
    split
    next => exact quoted_not_mem payload
    next value _ => exact quoted_not_mem value

theorem dispatch_eq_some_iff :
    router.dispatch payload = .ok (some (event, handler)) ↔
      eventOf payload = event ∧ event ≠ [] ∧ router.handlers.lookup event = some handler := by
  simp only [dispatch, readEvent_eq, bind, Except.bind, pure, Except.pure]
  split
  next hnil =>
    refine iff_of_false (by simp) ?_
    rintro ⟨rfl, hne, -⟩
    exact hne hnil
  next hne =>
    simp only [Except.ok.injEq, Option.map_eq_some_iff, Prod.mk.injEq]
    constructor
    · rintro ⟨found, hfound, rfl, rfl⟩
      exact ⟨rfl, hne, hfound⟩
    · rintro ⟨rfl, -, hfound⟩
      exact ⟨handler, hfound, rfl, rfl⟩

/-- A colon behind any `"event"` is one behind the first. -/
theorem NamesEvent.holdsEvent (h : NamesEvent event payload) (hq : chQuote ∉ event)
    (hc : ColonFollows payload) : HoldsEvent event payload := by
  obtain ⟨before, behind, hpayload, hfirst, ⟨gap, value, hbehind, -, hleads⟩ | ⟨hnone, -⟩⟩ := h
  · exact ⟨before, gap, value, by rw [hpayload, hbehind], hq, hleads⟩
  · obtain ⟨before', behind', hpayload', hcolon⟩ := hc
    have hcut := (cutText_eq_some_iff (by decide)).mpr ⟨hpayload, hfirst⟩
    have hsuffix := cutText_first (by decide) hcut hpayload'
    exact absurd (hsuffix.subset hcolon) hnone

theorem HoldsEvent.colonFollows (h : HoldsEvent event payload) : ColonFollows payload := by
  obtain ⟨before, gap, value, hpayload, -⟩ := h
  exact ⟨before, gap ++ chColon :: value, hpayload, by simp⟩

/-- Without a colon behind `"event"` the event is the first thing in quotes of the payload. -/
theorem eventOf_of_no_colon (hkey : ascii "\"event\"" <:+: payload) (hc : ¬ColonFollows payload)
    (hne : event ≠ []) (hq : chQuote ∉ event) (hl : Leads event payload) :
    eventOf payload = event := by
  rw [eventOf_eq_iff hne hq]
  cases hcut : cutText (ascii "\"event\"") payload with
  | none => exact absurd hkey ((cutText_eq_none_iff (by decide)).mp hcut)
  | some p =>
    obtain ⟨before, behind⟩ := p
    obtain ⟨hpayload, hfirst⟩ := (cutText_eq_some_iff (by decide)).mp hcut
    refine ⟨before, behind, hpayload, hfirst, Or.inr ⟨?_, hl⟩⟩
    intro hcolon
    exact hc ⟨before, behind, hpayload, hcolon⟩

/-- No payload makes the reading raise. What is dispatched stands in the payload as the value of
`"event"` exactly if a colon follows `"event"`, or else the first thing in quotes of the payload is
no event that is registered. -/
theorem dispatch_sound_iff (router : MqEventRouter) (payload : Bytes) :
    (∃ dispatched, router.dispatch payload = .ok dispatched) ∧
    ((∀ event handler, router.dispatch payload = .ok (some (event, handler)) →
        HoldsEvent event payload) ↔
      (ascii "\"event\"" <:+: payload → ColonFollows payload ∨
        ∀ event, Leads event payload → event ≠ [] → chQuote ∉ event →
          router.handlers.lookup event = none)) := by
  constructor
  · simp only [dispatch, readEvent_eq, bind, Except.bind, pure, Except.pure]
    split
    next => exact ⟨_, rfl⟩
    next => exact ⟨_, rfl⟩
  constructor
  · intro hsound hkey
    by_cases hc : ColonFollows payload
    · exact Or.inl hc
    · refine Or.inr ?_
      intro event hleads hne hq
      cases hlookup : router.handlers.lookup event with
      | none => rfl
      | some handler =>
        have hevent := eventOf_of_no_colon hkey hc hne hq hleads
        have hholds := hsound event handler (dispatch_eq_some_iff.mpr ⟨hevent, hne, hlookup⟩)
        exact absurd hholds.colonFollows hc
  · intro hcond event handler hd
    obtain ⟨hevent, hne, hlookup⟩ := dispatch_eq_some_iff.mp hd
    have hq : chQuote ∉ event := hevent ▸ eventOf_not_mem payload
    have hnames := (eventOf_eq_iff hne hq payload).mp hevent
    obtain ⟨before, behind, hpayload, -, hvalue⟩ := id hnames
    have hkey : ascii "\"event\"" <:+: payload := by
      rw [hpayload]
      exact (List.prefix_append _ behind).isInfix.trans (List.suffix_append before _).isInfix
    rcases hcond hkey with hc | hfree
    · exact hnames.holdsEvent hq hc
    · rcases hvalue with ⟨gap, value, hbehind, -, hleads⟩ | ⟨-, hleads⟩
      · exact ⟨before, gap, value, by rw [hpayload, hbehind], hq, hleads⟩
      · rw [hfree event hleads hne hq] at hlookup
        cases hlookup

/-- A payment is dispatched from a text in which nothing follows `"event"`. -/
theorem dispatch_without_colon :
    let payload := ascii "\"order.paid\" \"event\""
    initialized.dispatch payload = .ok (some (ascii "order.paid", .onOrderPaid)) ∧
    ¬HoldsEvent (ascii "order.paid") payload := by
  refine ⟨by decide +kernel, ?_⟩
  intro h
  obtain ⟨before, behind, hpayload, hcolon⟩ := h.colonFollows
  have hno : chColon ∉ ascii "\"order.paid\" \"event\"" := by decide
  rw [hpayload] at hno
  exact hno (List.mem_append_right before (List.mem_append_right _ hcolon))

end MqEventRouter

end MuduoPlus
