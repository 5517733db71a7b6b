import MuduoPlus.ListCut
import MuduoPlus.OrderCreateInventory

namespace MuduoPlus

def chQuote : UInt8 := 34

inductive EventHandler where
  | onOrderCreated
  | onOrderPaid
  | onOrderCancelled
  | onInventoryReleased
  deriving DecidableEq, Repr

/-- The event that `Initialize` registers the handler for. -/
def EventHandler.eventType : EventHandler → Bytes
  | .onOrderCreated => ascii "order.created"
  | .onOrderPaid => ascii "order.paid"
  | .onOrderCancelled => ascii "order.cancelled"
  | .onInventoryReleased => ascii "inventory.released"

structure MqEventRouter where
  handlers : Finmap fun _ : Bytes => EventHandler

namespace MqEventRouter

/-- `emplace` keeps a handler that is there. -/
def registerHandler (router : MqEventRouter) (eventType : Bytes) (handler : EventHandler) :
    MqEventRouter :=
  if eventType ∈ router.handlers then router else ⟨router.handlers.insert eventType handler⟩

def initializeHandlers (router : MqEventRouter) : MqEventRouter :=
  (((router.registerHandler (ascii "order.created") .onOrderCreated).registerHandler
    (ascii "order.paid") .onOrderPaid).registerHandler
    (ascii "order.cancelled") .onOrderCancelled).registerHandler
    (ascii "inventory.released") .onInventoryReleased

/-- A router after its construction and `Initialize`. -/
def initialized : MqEventRouter := initializeHandlers ⟨∅⟩

/-- The text between the first two quotes, empty if there are not two. -/
def quoted (text : Bytes) : Bytes :=
  match cutAt chQuote text with
  | none => []
  | some (_, text) =>
    match cutAt chQuote text with
    | none => []
    | some (event, _) => event

/-- The event that `routeMessage` reads from a payload. -/
def eventOf (payload : Bytes) : Bytes :=
  match cutText (ascii "\"event\"") payload with
  | none => []
  | some (_, behind) =>
    match cutAt chColon behind with
    -- `start` is `npos`, so that `start + 1` is 0 and the quotes are looked for from the front.
    | none => quoted payload
    | some (_, value) => quoted value

/-- The handler that is called, with the whole payload. -/
def routeMessage (router : MqEventRouter) (payload : Bytes) : Option EventHandler :=
  if eventOf payload = [] then none else router.handlers.lookup (eventOf payload)

/-- `event` is the first thing in quotes. -/
def Leads (event text : Bytes) : Prop :=
  ∃ lead rest, text = lead ++ chQuote :: (event ++ chQuote :: rest) ∧ chQuote ∉ lead

/-- The first `"event"` of the text is followed by a colon, and the first thing in quotes behind
that colon is `event`; or no colon follows and `event` is the first thing in quotes of all. -/
def NamesEvent (event text : Bytes) : Prop :=
  ∃ before behind, text = before ++ (ascii "\"event\"" ++ behind) ∧
    ¬ascii "\"event\"" <:+: before ++ ascii "\"event" ∧
    ((∃ gap value, behind = gap ++ chColon :: value ∧ chColon ∉ gap ∧ Leads event value) ∨
      chColon ∉ behind ∧ Leads event text)

theorem quoted_eq_iff {event : Bytes} (hne : event ≠ []) (hq : chQuote ∉ event) (text : Bytes) :
    quoted text = event ↔ Leads event text := by
  unfold quoted Leads
  cases hfirst : cutAt chQuote text with
  | none =>
    have hnone := cutAt_eq_none_iff.mp hfirst
    refine ⟨fun he => absurd he.symm hne, ?_⟩
    rintro ⟨lead, rest, rfl, -⟩
    exact absurd (by simp) hnone
  | some p =>
    obtain ⟨lead, inner⟩ := p
    obtain ⟨htext, hlead⟩ := cutAt_eq_some_iff.mp hfirst
    have hleads : ∀ lead' rest, text = lead' ++ chQuote :: (event ++ chQuote :: rest) →
        chQuote ∉ lead' → inner = event ++ chQuote :: rest := by
      intro lead' rest ht hn
      rw [ht, cutAt_append hn] at hfirst
      exact (Prod.mk.inj (Option.some.inj hfirst)).2.symm
    dsimp only
    cases hsecond : cutAt chQuote inner with
    | none =>
      refine ⟨fun he => absurd he.symm hne, ?_⟩
      rintro ⟨lead', rest, ht, hn⟩
      rw [hleads lead' rest ht hn, cutAt_append hq] at hsecond
      cases hsecond
    | some p =>
      obtain ⟨found, rest⟩ := p
      obtain ⟨hinner, -⟩ := cutAt_eq_some_iff.mp hsecond
      constructor
      · rintro rfl
        exact ⟨lead, rest, by rw [htext, hinner], hlead⟩
      · rintro ⟨lead', rest', ht, hn⟩
        rw [hleads lead' rest' ht hn, cutAt_append hq] at hsecond
        exact (Prod.mk.inj (Option.some.inj hsecond)).1.symm

theorem eventOf_eq_iff {event : Bytes} (hne : event ≠ []) (hq : chQuote ∉ event)
    (payload : Bytes) : eventOf payload = event ↔ NamesEvent event payload := by
  have hkey : ascii "\"event\"" ≠ [] := by decide
  have hlast : (ascii "\"event\"").dropLast = ascii "\"event" := by decide
  have hfound : ∀ before behind, cutText (ascii "\"event\"") payload = some (before, behind) ↔
      payload = before ++ (ascii "\"event\"" ++ behind) ∧
        ¬ascii "\"event\"" <:+: before ++ ascii "\"event" := by
    intro before behind
    rw [cutText_eq_some_iff hkey, hlast]
  unfold eventOf NamesEvent
  cases hcut : cutText (ascii "\"event\"") payload with
  | none =>
    refine ⟨fun he => absurd he.symm hne, ?_⟩
    rintro ⟨before, behind, ht, hfirst, -⟩
    rw [(hfound before behind).mpr ⟨ht, hfirst⟩] at hcut
    cases hcut
  | some p =>
    obtain ⟨before, behind⟩ := p
    have hunique : ∀ before' behind', payload = before' ++ (ascii "\"event\"" ++ behind') →
        ¬ascii "\"event\"" <:+: before' ++ ascii "\"event" → behind' = behind := by
      intro before' behind' ht hfirst
      rw [(hfound before' behind').mpr ⟨ht, hfirst⟩] at hcut
      exact (Prod.mk.inj (Option.some.inj hcut)).2
    obtain ⟨htext, hfirst⟩ := (hfound before behind).mp hcut
    dsimp only
    cases hcolon : cutAt chColon behind with
    | none =>
      have hnone := cutAt_eq_none_iff.mp hcolon
      dsimp only
      rw [quoted_eq_iff hne hq]
      constructor
      · intro hl
        exact ⟨before, behind, htext, hfirst, Or.inr ⟨hnone, hl⟩⟩
      · rintro ⟨before', behind', ht, hf, hvalue⟩
        obtain rfl := hunique before' behind' ht hf
        rcases hvalue with ⟨gap, value, rfl, -⟩ | ⟨-, hl⟩
        · exact absurd (by simp) hnone
        · exact hl
    | some p =>
      obtain ⟨gap, value⟩ := p
      obtain ⟨hbehind, hgap⟩ := cutAt_eq_some_iff.mp hcolon
      dsimp only
      rw [quoted_eq_iff hne hq]
      constructor
      · intro hl
        exact ⟨before, behind, htext, hfirst, Or.inl ⟨gap, value, hbehind, hgap, hl⟩⟩
      · rintro ⟨before', behind', ht, hf, hvalue⟩
        obtain rfl := hunique before' behind' ht hf
        rcases hvalue with ⟨gap', value', hb, hg, hl⟩ | ⟨hn, -⟩
        · rw [hb, cutAt_append hg] at hcolon
          obtain ⟨-, rfl⟩ := Prod.mk.inj (Option.some.inj hcolon)
          exact hl
        · rw [cutAt_eq_none_iff.mpr hn] at hcolon
          cases hcolon

theorem lookup_registerHandler (router : MqEventRouter) (eventType : Bytes)
    (handler : EventHandler) (event : Bytes) :
    (router.registerHandler eventType handler).handlers.lookup event =
      (router.handlers.lookup event).or (if event = eventType then some handler else none) := by
  unfold registerHandler
  by_cases he : event = eventType
  · subst he
    split
    next hm =>
      obtain ⟨old, hold⟩ := Finmap.mem_iff.mp hm
      simp [hold]
    next hm => simp [Finmap.lookup_eq_none.mpr hm]
  · rw [if_neg he, Option.or_none]
    split
    next => rfl
    next => exact Finmap.lookup_insert_of_ne _ he

theorem initialized_lookup (event : Bytes) (handler : EventHandler) :
    initialized.handlers.lookup event = some handler ↔ event = handler.eventType := by
  unfold initialized initializeHandlers
  simp only [lookup_registerHandler, Finmap.lookup_empty, Option.none_or]
  constructor
  · intro hl
    simp only [Option.or_eq_some_iff, Option.ite_none_right_eq_some, Option.some.injEq] at hl
    rcases hl with ((⟨he, rfl⟩ | ⟨-, he, rfl⟩) | ⟨-, he, rfl⟩) | ⟨-, he, rfl⟩
    · exact he
    · exact he
    · exact he
    · exact he
  · rintro rfl
    cases handler <;> decide

/-- The router calls the handler whose event the text names, and no other. -/
theorem routeMessage_initialized (payload : Bytes) (handler : EventHandler) :
    initialized.routeMessage payload = some handler ↔ NamesEvent handler.eventType payload := by
  have hne : handler.eventType ≠ [] := by cases handler <;> decide
  have hq : chQuote ∉ handler.eventType := by cases handler <;> decide
  rw [← eventOf_eq_iff hne hq, routeMessage]
  split
  next hnil =>
    rw [hnil]
    exact ⟨fun he => absurd he (Option.some_ne_none handler).symm, fun he => absurd he.symm hne⟩
  next => exact initialized_lookup _ handler

end MqEventRouter

/-- The message of a publish command. -/
def OrderCommand.published : OrderCommand → Option MqMessage
  | .publish message => some message
  | _ => none

namespace OrderCreateHandler

open Program OrderProgram OrderRepository MqEventRouter

variable {δ : Type} {database : Database δ} {b : Backend δ} {h : OrderCreateHandler}
  {record : Record} {raw : Bytes} {req : HttpRequest} {resp : HttpResponse}

/-- An error that is not answered with 200. -/
def FailsProperly {α : Type} (result : Except HttpResponse α) : Prop :=
  ∀ answer, result = .error answer → answer.statusCode ≠ .k200Ok

theorem failsProperly_ok {α : Type} (a : α) : FailsProperly (.ok a) := by
  intro answer he
  cases he

theorem failsProperly_respondError {α : Type} {code : HttpStatusCode} (hc : code ≠ .k200Ok)
    (message : Bytes) :
    FailsProperly (.error (h.respondError resp code message) : Except HttpResponse α) := by
  intro answer he
  rw [← Except.error.inj he]
  exact hc

theorem reserveInventory_returns : (h.reserveInventory record resp).Returns FailsProperly := by
  unfold reserveInventory
  split
  next => exact failsProperly_respondError (by decide) _
  next =>
    refine returns_bind _ fun reserved => ?_
    split
    next => exact failsProperly_ok ()
    next => exact failsProperly_respondError (by decide) _

theorem persistOrder_returns : (h.persistOrder record raw resp).Returns FailsProperly := by
  have hcode : HttpStatusCode.k500InternalServerError ≠ .k200Ok := by decide
  refine Returns.tryCatch ?_ fun _ => failsProperly_respondError hcode _
  refine returns_bind _ fun orderId => returns_bind _ fun time => returns_bind _ fun stored => ?_
  split
  next => exact failsProperly_ok _
  next => exact returns_bind _ fun _ => failsProperly_respondError hcode _

theorem placeOrder_returns : (h.placeOrder record raw resp).Returns FailsProperly := by
  unfold placeOrder
  split
  next =>
    refine reserveInventory_returns.bind fun reserved hr => ?_
    cases reserved with
    | error answer =>
      intro answer' he
      rw [← Except.error.inj he]
      exact hr answer rfl
    | ok _ => exact persistOrder_returns
  next => exact persistOrder_returns

/-- A call that is answered with 200 got to the end of `handle`. -/
theorem Succeeds.placed (hs : h.Succeeds database b req resp) :
    ∃ record order b', h.acceptRequest req resp = .ok record ∧
      (h.placeOrder record req.content resp).exec database.serve b = (.ok (.ok order), b') := by
  obtain ⟨answer, hanswer, hcode⟩ := hs
  cases ha : h.acceptRequest req resp with
  | error refused =>
    rw [handle_rejected ha] at hanswer
    obtain rfl := Except.ok.inj hanswer
    exact absurd hcode (acceptRequest_error ha)
  | ok record =>
    cases hp : (h.placeOrder record req.content resp).exec database.serve b with
    | mk result b' =>
      cases result with
      | error e =>
        unfold handle at hanswer
        rw [ha] at hanswer
        dsimp only at hanswer
        rw [exec_bind_error hp] at hanswer
        cases hanswer
      | ok placed =>
        cases placed with
        | ok order => exact ⟨record, order, b', rfl, hp⟩
        | error failed =>
          rw [handle_failed ha hp] at hanswer
          obtain rfl := Except.ok.inj hanswer
          have hproper := placeOrder_returns.exec (congrArg Prod.fst hp)
          exact absurd hcode (hproper _ rfl)

/-- The message that ends the call. -/
def orderEvent (h : OrderCreateHandler) (database : Database δ) (b : Backend δ)
    (req : HttpRequest) (resp : HttpResponse) : Option MqMessage :=
  ((h.handle req resp).trace database.serve b).getLast?.bind OrderCommand.published

section Publishes

variable (hmq : h.options.enableMqPublish = true) (hproducer : h.deps.producer = true)

include hmq hproducer

theorem trace_finishOrder :
    ∃ commands, (h.finishOrder record raw resp).trace database.serve b =
      commands ++ [.publish ⟨h.options.mqExchange, h.options.mqRoutingKey, raw⟩] := by
  have hpublish : (h.publishOrderEvent raw).trace database.serve
      { b with redis := h.cachedIn record b.redis } =
      [.publish ⟨h.options.mqExchange, h.options.mqRoutingKey, raw⟩] := by
    unfold publishOrderEvent
    rw [hmq, hproducer]
    rfl
  refine ⟨(h.updateCache record).trace database.serve b, ?_⟩
  unfold finishOrder
  rw [trace_bind_ok exec_updateCache, trace_bind_ok exec_publishOrderEvent, hpublish]
  rfl

/-- What is published is the body, as it is. -/
theorem orderEvent_eq (hs : h.Succeeds database b req resp) :
    h.orderEvent database b req resp =
      some ⟨h.options.mqExchange, h.options.mqRoutingKey, req.content⟩ := by
  obtain ⟨record, order, b', ha, hp⟩ := hs.placed
  obtain ⟨commands, htrace⟩ : ∃ commands,
      (h.finishOrder order req.content resp).trace database.serve b' =
        commands ++ [.publish ⟨h.options.mqExchange, h.options.mqRoutingKey, req.content⟩] :=
    trace_finishOrder hmq hproducer
  unfold orderEvent handle
  rw [ha]
  dsimp only
  rw [trace_bind_ok hp]
  dsimp only
  rw [htrace, ← List.append_assoc, List.getLast?_concat]
  rfl

/-- The event of a created order gets to the handler for created orders exactly when the body of
the request names that event. -/
theorem orderEvent_routed_iff (hs : h.Succeeds database b req resp) :
    (∃ message, h.orderEvent database b req resp = some message ∧
        message.routingKey = h.options.mqRoutingKey ∧
        initialized.routeMessage message.message = some .onOrderCreated) ↔
      NamesEvent (ascii "order.created") req.content := by
  have hroute := routeMessage_initialized req.content .onOrderCreated
  rw [orderEvent_eq hmq hproducer hs]
  refine Iff.trans ?_ hroute
  constructor
  · rintro ⟨message, hm, -, hr⟩
    rw [← Option.some.inj hm] at hr
    exact hr
  · intro hr
    exact ⟨_, rfl, rfl, hr⟩

end Publishes

/-- The request for two lamps, with an event in front. -/
def eventText (event : Bytes) : Bytes :=
  ascii "\x7b\"event\":\"" ++ event ++ ascii "\"," ++ lampText.tail

def eventHandler (event : Bytes) : OrderCreateHandler :=
  { lampHandler with
    json := .readerOf (eventText event) (.object [(ascii "amount", .unsigned 5),
      (ascii "event", .string event), (ascii "productId", .string (ascii "p")),
      (ascii "quantity", .unsigned 2), (ascii "userId", .string (ascii "u"))]) }

def eventRequest (event : Bytes) : HttpRequest := HttpRequest.new.setBody (eventText event)

theorem succeeds_of_statusCode
    (hc : ((h.handle req resp).exec database.serve b).1.toOption.map (·.statusCode) =
      some .k200Ok) : h.Succeeds database b req resp := by
  unfold Succeeds
  cases hanswer : ((h.handle req resp).exec database.serve b).1 with
  | error e =>
    rw [hanswer] at hc
    cases hc
  | ok answer =>
    rw [hanswer] at hc
    exact ⟨answer, rfl, Option.some.inj hc⟩

theorem orderEvent_routed_named :
    let event := ascii "order.created"
    (eventHandler event).Succeeds (Database.answering 1) lampStart (eventRequest event) (.new false) ∧
    ∃ message, (eventHandler event).orderEvent (Database.answering 1) lampStart (eventRequest event)
        (.new false) = some message ∧
      message.routingKey = (eventHandler event).options.mqRoutingKey ∧
      initialized.routeMessage message.message = some .onOrderCreated := by
  intro event
  have hs : (eventHandler event).Succeeds (Database.answering 1) lampStart (eventRequest event)
      (.new false) := succeeds_of_statusCode (by decide +kernel)
  have hnamed : NamesEvent event (eventRequest event).content := by
    refine ⟨ascii "\x7b", ascii ":\"" ++ event ++ ascii "\"," ++ lampText.tail, by decide +kernel,
      by decide +kernel, Or.inl ⟨[], ascii "\"" ++ event ++ ascii "\"," ++ lampText.tail,
        by decide +kernel, by decide, [], ascii "," ++ lampText.tail, by decide +kernel, by decide⟩⟩
  exact ⟨hs, (orderEvent_routed_iff rfl rfl hs).mpr hnamed⟩

/-- Without an event in the body nobody is told of the new order; with `order.paid` in it the
handler for payments is. -/
theorem orderEvent_misrouted :
    ((lampHandler.handle lampRequest (.new false)).exec (Database.answering 1).serve
        lampStart).1.toOption.map (·.statusCode) = some .k200Ok ∧
    (lampHandler.orderEvent (Database.answering 1) lampStart lampRequest (.new false)).map
        (fun message => initialized.routeMessage message.message) = some none ∧
    (let event := ascii "order.paid"
     (((eventHandler event).handle (eventRequest event) (.new false)).exec (Database.answering 1).serve
        lampStart).1.toOption.map (·.statusCode) = some .k200Ok ∧
     ((eventHandler event).orderEvent (Database.answering 1) lampStart (eventRequest event)
        (.new false)).map (fun message => initialized.routeMessage message.message) = some (some .onOrderPaid)) := by
  decide +kernel

end OrderCreateHandler

end MuduoPlus
