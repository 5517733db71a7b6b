import MuduoPlus.RouterSelection

namespace MuduoPlus

variable {E : RegexEngine} {F : Type}

/-- Who is called, and with which request. -/
def RouteCall.passed (call : RouteCall F) : F × HttpRequest := (call.target, call.request)

/-- Of the registrations before and after some dynamic one, none matches that `route` consults
before it, whether that one is a handler or a callback. -/
structure NoneEarlier (E : RegexEngine) (before after : List (RouteRegistration F))
    (req : HttpRequest) : Prop where
  handlers : ∀ reg ∈ before ++ after, reg.handlerAt (req.method, req.path) = none
  callbacks : ∀ reg ∈ before ++ after, reg.callbackAt (req.method, req.path) = none
  regexHandlers : ∀ reg ∈ before ++ after, (reg.handlerObj E).bind (·.accept req) = none
  regexCallbacks : ∀ reg ∈ before, (reg.callbackObj E).bind (·.accept req) = none

/-- A request that the pattern matches carries what the match captures already. -/
def CarriesCaptures (E : RegexEngine) (method : Method) (pattern : Bytes) (req : HttpRequest) :
    Prop :=
  ∀ re groups, convertToRegex E pattern = some re → method = req.method →
    E.regexMatch re req.path = some groups →
      ∀ k group, groups[k]? = some group →
        req.pathParameters.lookup (paramName (1 + k)) = some group

namespace Router

variable {r : Router E F} {before after regs : List (RouteRegistration F)} {req : HttpRequest}

theorem handle_eq_none {o : RouteObj E F} (h : o.accept req = none) : o.handle req = none := by
  rw [RouteObj.handle, h, Option.map_none]

theorem callback_eq_none {o : RouteObj E F} (h : o.accept req = none) : o.callback req = none := by
  rw [RouteObj.callback, h, Option.map_none]

/-- Registrations that accept nothing are passed over. -/
theorem findSome?_obj_eq_none {obj : RouteRegistration F → Option (RouteObj E F)}
    {body : RouteObj E F → Option (RouteCall F)}
    (hbody : ∀ o : RouteObj E F, o.accept req = none → body o = none)
    (h : ∀ reg ∈ regs, (obj reg).bind (·.accept req) = none) :
    (regs.filterMap obj).findSome? body = none := by
  rw [List.findSome?_eq_none_iff]
  intro o ho
  obtain ⟨reg, hreg, hobj⟩ := List.mem_filterMap.mp ho
  have hnone := h reg hreg
  rw [hobj, Option.bind_some] at hnone
  exact hbody o hnone

/-- Without a match in the two maps, `route` looks at the dynamic ones. -/
theorem Holds.route_dynamic (h : r.Holds regs)
    (hhandlers : ∀ reg ∈ regs, reg.handlerAt (req.method, req.path) = none)
    (hcallbacks : ∀ reg ∈ regs, reg.callbackAt (req.method, req.path) = none) :
    r.route req = ((regs.filterMap (·.handlerObj E)).findSome? (·.handle req)).or
      ((regs.filterMap (·.callbackObj E)).findSome? (·.callback req)) := by
  have hnoHandler : r.handlers (req.method, req.path) = none := by
    rw [h.handlers, List.findSome?_eq_none_iff]
    exact fun reg hreg => hhandlers reg (List.mem_reverse.mp hreg)
  have hnoCallback : r.callbacks (req.method, req.path) = none := by
    rw [h.callbacks, List.findSome?_eq_none_iff]
    exact fun reg hreg => hcallbacks reg (List.mem_reverse.mp hreg)
  rw [Router.route, hnoHandler, hnoCallback, h.regexHandlers, h.regexCallbacks]
  cases (regs.filterMap (·.handlerObj E)).findSome? (·.handle req) with
  | some call => rfl
  | none => rfl

/-- A registration in the middle of others. -/
theorem forall_middle {p : RouteRegistration F → Prop} {reg : RouteRegistration F}
    (hothers : ∀ x ∈ before ++ after, p x) (hreg : p reg) : ∀ x ∈ before ++ reg :: after, p x := by
  intro x hx
  rcases List.mem_append.mp hx with hx | hx
  · exact hothers x (List.mem_append_left after hx)
  · rcases List.mem_cons.mp hx with rfl | hx
    · exact hreg
    · exact hothers x (List.mem_append_right before hx)

/-- The callbacks behind the place in question. -/
abbrev laterCallback (E : RegexEngine) (after : List (RouteRegistration F)) (req : HttpRequest) :
    Option (RouteCall F) :=
  (after.filterMap (·.callbackObj E)).findSome? (·.callback req)

section Middle

variable {method : Method} {pattern : Bytes} {f : F} {re : E.Compiled}
  (hnone : NoneEarlier E before after req) (hre : convertToRegex E pattern = some re)
include hnone hre

/-- `route` with `f` as a dynamic handler. -/
theorem route_regexHandler (h : r.Holds (before ++ .addRegexHandler method pattern f :: after)) :
    r.route req = ((⟨method, re, f⟩ : RouteObj E F).handle req).or (laterCallback E after req) := by
  rw [h.route_dynamic (forall_middle hnone.handlers rfl) (forall_middle hnone.callbacks rfl)]
  have hbefore := findSome?_obj_eq_none (fun o => handle_eq_none) fun reg hreg =>
    hnone.regexHandlers reg (List.mem_append_left after hreg)
  have hafter := findSome?_obj_eq_none (fun o => handle_eq_none) fun reg hreg =>
    hnone.regexHandlers reg (List.mem_append_right before hreg)
  have hbeforeCallbacks := findSome?_obj_eq_none (fun o => callback_eq_none) hnone.regexCallbacks
  have hobj : (RouteRegistration.addRegexHandler method pattern f).handlerObj E =
      some ⟨method, re, f⟩ := by
    rw [RouteRegistration.handlerObj, hre, Option.map_some]
  have hobjCallback : (RouteRegistration.addRegexHandler method pattern f).callbackObj E = none :=
    rfl
  rw [List.filterMap_append, List.filterMap_append, List.findSome?_append, List.findSome?_append,
    hbefore, hbeforeCallbacks, Option.none_or, Option.none_or, List.filterMap_cons_some hobj,
    List.filterMap_cons_none hobjCallback, List.findSome?_cons, hafter]
  cases (⟨method, re, f⟩ : RouteObj E F).handle req with
  | some call => rfl
  | none => rfl

/-- `route` with `f` as a dynamic callback. -/
theorem route_regexCallback (h : r.Holds (before ++ .addRegexCallback method pattern f :: after)) :
    r.route req =
      ((⟨method, re, f⟩ : RouteObj E F).callback req).or (laterCallback E after req) := by
  rw [h.route_dynamic (forall_middle hnone.handlers rfl) (forall_middle hnone.callbacks rfl)]
  have hobjHandler : ((RouteRegistration.addRegexCallback method pattern f).handlerObj E).bind
      (·.accept req) = none := rfl
  have hhandlers := findSome?_obj_eq_none (fun o => handle_eq_none)
    (forall_middle hnone.regexHandlers hobjHandler)
  have hbeforeCallbacks := findSome?_obj_eq_none (fun o => callback_eq_none) hnone.regexCallbacks
  have hobj : (RouteRegistration.addRegexCallback method pattern f).callbackObj E =
      some ⟨method, re, f⟩ := by
    rw [RouteRegistration.callbackObj, hre, Option.map_some]
  rw [hhandlers, Option.none_or, List.filterMap_append, List.findSome?_append, hbeforeCallbacks,
    Option.none_or, List.filterMap_cons_some hobj, List.findSome?_cons]
  cases (⟨method, re, f⟩ : RouteObj E F).callback req with
  | some call => rfl
  | none => rfl

end Middle

/-- A dynamic registration that went through had a pattern that converts. -/
theorem convertToRegex_of_registerAll {method : Method} {pattern : Bytes} {f : F}
    (hall : Router.new.registerAll (before ++ .addRegexHandler method pattern f :: after) = some r) :
    ∃ re, convertToRegex E pattern = some re := by
  rw [registerAll_append] at hall
  obtain ⟨r₁, -, hrest⟩ := Option.bind_eq_some_iff.mp hall
  rw [registerAll_cons] at hrest
  obtain ⟨r₂, hreg, -⟩ := Option.bind_eq_some_iff.mp hrest
  obtain ⟨re, hre, -⟩ := Option.map_eq_some_iff.mp hreg
  exact ⟨re, hre⟩

/-- A function registered as a callback is called like one registered as a handler exactly for
the requests that lack nothing of what the match captures. -/
theorem passed_eq_iff {method : Method} {pattern : Bytes} {f : F} {rh rc : Router E F}
    (hh : Router.new.registerAll (before ++ .addRegexHandler method pattern f :: after) = some rh)
    (hc : Router.new.registerAll (before ++ .addRegexCallback method pattern f :: after) = some rc)
    (hnone : NoneEarlier E before after req) :
    (rh.route req).map RouteCall.passed = (rc.route req).map RouteCall.passed ↔
      CarriesCaptures E method pattern req := by
  obtain ⟨re, hre⟩ := convertToRegex_of_registerAll hh
  rw [route_regexHandler hnone hre (holds_of_registerAll hh),
    route_regexCallback hnone hre (holds_of_registerAll hc), RouteObj.handle, RouteObj.callback]
  cases haccept : (⟨method, re, f⟩ : RouteObj E F).accept req with
  | none =>
    refine iff_of_true rfl ?_
    intro re' groups hre' hmethod hgroups
    cases Option.some.inj (hre.symm.trans hre')
    rw [RouteObj.accept, if_pos hmethod, hgroups] at haccept
    cases haccept
  | some groups =>
    have hpassed : (Option.map RouteCall.passed
          (some (⟨.handler, f, extractPathParameters groups req⟩ : RouteCall F)) =
        Option.map RouteCall.passed (some (⟨.callback, f, req⟩ : RouteCall F))) ↔
          extractPathParameters groups req = req := by
      simp [RouteCall.passed]
    refine Iff.trans hpassed ?_
    rw [extractPathParameters_eq_self_iff]
    have hboth : method = req.method ∧ E.regexMatch re req.path = some groups := by
      rw [RouteObj.accept] at haccept
      split at haccept
      next hmethod => exact ⟨hmethod, haccept⟩
      next => cases haccept
    constructor
    · intro h re' groups' hre' _ hgroups'
      cases Option.some.inj (hre.symm.trans hre')
      cases Option.some.inj (hboth.2.symm.trans hgroups')
      exact h
    · intro h
      exact h re groups hre hboth.1 hboth.2

/-- Routes of which `/users/:id` is one, as a handler or as a callback. -/
def routesWith (user : RouteRegistration Nat) : List (RouteRegistration Nat) :=
  [.addRegexHandler .kGet (ascii "/orders/:id") 1] ++
    user :: [.addRegexCallback .kGet (ascii "/:page/:name") 3]

/-- A request for `/users/7` that names the id already. -/
def namedRequest : HttpRequest :=
  (getRequest (ascii "/users/7")).setPathParameter (paramName 1) (ascii "7")

/-- Such a request is passed alike, and one without the id is not. -/
theorem passed_eq_iff_users :
    ∃ rh rc : Router .ecmaScript Nat,
      Router.new.registerAll (routesWith (.addRegexHandler .kGet (ascii "/users/:id") 2)) = some rh ∧
      Router.new.registerAll (routesWith (.addRegexCallback .kGet (ascii "/users/:id") 2)) = some rc ∧
      (rh.route namedRequest).map RouteCall.passed = (rc.route namedRequest).map RouteCall.passed ∧
      (rh.route (getRequest (ascii "/users/7"))).map RouteCall.passed ≠
        (rc.route (getRequest (ascii "/users/7"))).map RouteCall.passed := by
  have hplainH : ∀ reg ∈ routesWith (.addRegexHandler .kGet (ascii "/users/:id") 2), reg.Plain := by
    decide +kernel
  have hplainC : ∀ reg ∈ routesWith (.addRegexCallback .kGet (ascii "/users/:id") 2), reg.Plain := by
    decide +kernel
  obtain ⟨rh, hh⟩ := registerAll_plain Router.new hplainH
  obtain ⟨rc, hc⟩ := registerAll_plain Router.new hplainC
  have hplain : PlainPattern (ascii "/users/:id") := by decide +kernel
  obtain ⟨re, hre, hmatch⟩ := convertToRegex_plain hplain
  have hcaptures : RegexEngine.ecmaScript.regexMatch re (ascii "/users/7") = some [ascii "7"] := by
    rw [hmatch]
    rfl
  have hnone : NoneEarlier .ecmaScript [.addRegexHandler .kGet (ascii "/orders/:id") 1]
      [.addRegexCallback .kGet (ascii "/:page/:name") 3] (getRequest (ascii "/users/7")) :=
    ⟨by decide +kernel, by decide +kernel, by decide +kernel, by decide +kernel⟩
  have hnamed : NoneEarlier .ecmaScript [.addRegexHandler .kGet (ascii "/orders/:id") 1]
      [.addRegexCallback .kGet (ascii "/:page/:name") 3] namedRequest :=
    ⟨hnone.handlers, hnone.callbacks, hnone.regexHandlers, hnone.regexCallbacks⟩
  refine ⟨rh, rc, hh, hc, (passed_eq_iff hh hc hnamed).mpr ?_, ?_⟩
  · intro re' groups hre' _ hgroups k group hk
    cases Option.some.inj (hre.symm.trans hre')
    cases Option.some.inj (hcaptures.symm.trans hgroups)
    cases k with
    | zero =>
      cases hk
      decide +kernel
    | succ k => cases hk
  · intro heq
    have hid := (passed_eq_iff hh hc hnone).mp heq re [ascii "7"] hre rfl hcaptures 0 (ascii "7") rfl
    exact absurd hid (by decide +kernel)

/-- The callback of `/users/:id` does not see the id. -/
theorem callback_lacks_parameter :
    ∃ rh rc : Router .ecmaScript Nat,
      Router.new.registerAll [.addRegexHandler .kGet (ascii "/users/:id") 1] = some rh ∧
      Router.new.registerAll [.addRegexCallback .kGet (ascii "/users/:id") 1] = some rc ∧
      (rh.route (getRequest (ascii "/users/7"))).map
          (fun call => (call.target, call.request.getPathParameter (ascii "param1"))) =
        some (1, ascii "7") ∧
      (rc.route (getRequest (ascii "/users/7"))).map
          (fun call => (call.target, call.request.getPathParameter (ascii "param1"))) =
        some (1, []) := by
  have hplainH : ∀ reg ∈ [RouteRegistration.addRegexHandler .kGet (ascii "/users/:id") 1],
      reg.Plain := by
    decide +kernel
  have hplainC : ∀ reg ∈ [RouteRegistration.addRegexCallback .kGet (ascii "/users/:id") 1],
      reg.Plain := by
    decide +kernel
  obtain ⟨rh, hh⟩ := registerAll_plain Router.new hplainH
  obtain ⟨rc, hc⟩ := registerAll_plain Router.new hplainC
  refine ⟨rh, rc, hh, hc, ?_, ?_⟩
  · rw [(holds_of_registerAll hh).route hplainH]
    decide +kernel
  · rw [(holds_of_registerAll hc).route hplainC]
    decide +kernel

end Router

end MuduoPlus
