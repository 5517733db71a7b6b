import MuduoPlus.RouterPattern

namespace MuduoPlus

variable {F : Type}

namespace RouteRegistration

/-- The dynamic patterns are segments that are plain text or, behind the first one, a `:name`. -/
def Plain : RouteRegistration F → Prop
  | .addRegexHandler _ pattern _ => PlainPattern pattern
  | .addRegexCallback _ pattern _ => PlainPattern pattern
  | _ => True

instance (reg : RouteRegistration F) : Decidable reg.Plain :=
  match reg with
  | .registerHandler .. => isTrue trivial
  | .registerCallback .. => isTrue trivial
  | .addRegexHandler _ pattern _ => inferInstanceAs (Decidable (PlainPattern pattern))
  | .addRegexCallback _ pattern _ => inferInstanceAs (Decidable (PlainPattern pattern))

variable (matcher : List Bytes → List Bytes → Option (List Bytes))

/-- A dynamic handler that matches sees the segments at the places of the `:name`s. -/
def handlerMatch (req : HttpRequest) : RouteRegistration F → Option (RouteCall F)
  | .addRegexHandler method pattern handler =>
    if method = req.method then
      (matcher (segments pattern) (segments req.path)).map fun values =>
        ⟨.handler, handler, extractPathParameters values req⟩
    else none
  | _ => none

def callbackMatch (req : HttpRequest) : RouteRegistration F → Option (RouteCall F)
  | .addRegexCallback method pattern callback =>
    if method = req.method then
      (matcher (segments pattern) (segments req.path)).map fun _ => ⟨.callback, callback, req⟩
    else none
  | _ => none

end RouteRegistration

/-- The call a request deserves: the last handler for its method and path, else the last callback,
else the first dynamic handler that matches, else the first dynamic callback. -/
def selectedCall (matcher : List Bytes → List Bytes → Option (List Bytes))
    (regs : List (RouteRegistration F)) (req : HttpRequest) : Option (RouteCall F) :=
  ((regs.reverse.findSome? (·.handlerAt (req.method, req.path))).map (⟨.handler, ·, req⟩)).or <|
    ((regs.reverse.findSome? (·.callbackAt (req.method, req.path))).map (⟨.callback, ·, req⟩)).or <|
      (regs.findSome? (·.handlerMatch matcher req)).or
        (regs.findSome? (·.callbackMatch matcher req))

/-- `req'` is `req` with the path parameters `param1`, `param2`, ... set to `values`. -/
structure SeesParameters (values : List Bytes) (req req' : HttpRequest) : Prop where
  parameter : ∀ k value, values[k]? = some value →
    req'.getPathParameter (paramName (k + 1)) = value
  others : ∀ key, (∀ k < values.length, key ≠ paramName (k + 1)) →
    req'.pathParameters.lookup key = req.pathParameters.lookup key
  rest : req' = { req with pathParameters := req'.pathParameters }

theorem seesParameters (values : List Bytes) (req : HttpRequest) :
    SeesParameters values req (extractPathParameters values req) where
  parameter k value h := by
    have hlookup := extractFrom_lookup values 1 k req h
    rw [Nat.add_comm] at hlookup
    rw [HttpRequest.getPathParameter, extractPathParameters, hlookup, Option.getD_some]
  others key h := by
    apply extractFrom_lookup_other
    intro k hk
    rw [Nat.add_comm]
    exact h k hk
  rest := extractFrom_rest values 1 req

namespace Router

variable {r : Router .ecmaScript F} {regs : List (RouteRegistration F)}

/-- A plain pattern converts, so nothing throws. -/
theorem registerAll_plain (r : Router .ecmaScript F) (hplain : ∀ reg ∈ regs, reg.Plain) :
    ∃ r', r.registerAll regs = some r' := by
  induction regs generalizing r with
  | nil => exact ⟨r, rfl⟩
  | cons reg regs ih =>
    have hreg : ∃ r₁, r.register reg = some r₁ := by
      have hp := hplain reg List.mem_cons_self
      cases reg with
      | registerHandler method path handler => exact ⟨_, rfl⟩
      | registerCallback method path callback => exact ⟨_, rfl⟩
      | addRegexHandler method pattern handler =>
        obtain ⟨re, hconvert, -⟩ := convertToRegex_plain hp
        exact ⟨_, Option.map_eq_some_iff.mpr ⟨re, hconvert, rfl⟩⟩
      | addRegexCallback method pattern callback =>
        obtain ⟨re, hconvert, -⟩ := convertToRegex_plain hp
        exact ⟨_, Option.map_eq_some_iff.mpr ⟨re, hconvert, rfl⟩⟩
    obtain ⟨r₁, hreg⟩ := hreg
    obtain ⟨r₂, hmore⟩ := ih r₁ fun x hx => hplain x (List.mem_cons_of_mem reg hx)
    exact ⟨r₂, by rw [registerAll_cons, hreg]; exact hmore⟩

/-- The converted pattern accepts what the pattern matches. -/
theorem accept_plain {pattern : Bytes} {re : RegexEngine.ecmaScript.Compiled}
    (hmatch : ∀ path, RegexEngine.ecmaScript.regexMatch re path =
      matchPattern (segments pattern) (segments path)) (method : Method) (target : F)
    (req : HttpRequest) :
    (⟨method, re, target⟩ : RouteObj .ecmaScript F).accept req =
      if method = req.method then matchPattern (segments pattern) (segments req.path) else none := by
  rw [RouteObj.accept, hmatch]

theorem handle_plain {reg : RouteRegistration F} (hplain : reg.Plain) (req : HttpRequest) :
    (reg.handlerObj .ecmaScript).bind (·.handle req) = reg.handlerMatch matchPattern req := by
  cases reg with
  | registerHandler method path handler => rfl
  | registerCallback method path callback => rfl
  | addRegexCallback method pattern callback => rfl
  | addRegexHandler method pattern handler =>
    obtain ⟨re, hconvert, hmatch⟩ := convertToRegex_plain hplain
    rw [RouteRegistration.handlerObj, hconvert, Option.map_some, Option.bind_some, RouteObj.handle,
      accept_plain hmatch, RouteRegistration.handlerMatch]
    split
    next => rfl
    next => rfl

theorem callback_plain {reg : RouteRegistration F} (hplain : reg.Plain) (req : HttpRequest) :
    (reg.callbackObj .ecmaScript).bind (·.callback req) = reg.callbackMatch matchPattern req := by
  cases reg with
  | registerHandler method path handler => rfl
  | registerCallback method path callback => rfl
  | addRegexHandler method pattern handler => rfl
  | addRegexCallback method pattern callback =>
    obtain ⟨re, hconvert, hmatch⟩ := convertToRegex_plain hplain
    rw [RouteRegistration.callbackObj, hconvert, Option.map_some, Option.bind_some,
      RouteObj.callback, accept_plain hmatch, RouteRegistration.callbackMatch]
    split
    next => rfl
    next => rfl

/-- The tables are consulted in the order of the selection. -/
theorem Holds.route (h : r.Holds regs) (hplain : ∀ reg ∈ regs, reg.Plain) (req : HttpRequest) :
    r.route req = selectedCall matchPattern regs req := by
  have hhandlers : r.regexHandlers.findSome? (·.handle req) =
      regs.findSome? (·.handlerMatch matchPattern req) := by
    rw [h.regexHandlers]
    exact findSome?_filterMap_eq fun reg hreg => handle_plain (hplain reg hreg) req
  have hcallbacks : r.regexCallbacks.findSome? (·.callback req) =
      regs.findSome? (·.callbackMatch matchPattern req) := by
    rw [h.regexCallbacks]
    exact findSome?_filterMap_eq fun reg hreg => callback_plain (hplain reg hreg) req
  rw [Router.route, h.handlers, h.callbacks, hhandlers, hcallbacks, selectedCall]
  cases regs.reverse.findSome? (·.handlerAt (req.method, req.path)) with
  | some handler => rfl
  | none =>
    cases regs.reverse.findSome? (·.callbackAt (req.method, req.path)) with
    | some callback => rfl
    | none =>
      cases regs.findSome? (·.handlerMatch matchPattern req) with
      | some call => rfl
      | none => rfl

/-- Whatever is registered, `route` calls what the request deserves and nothing else. -/
theorem route_selects (regs : List (RouteRegistration F)) (hplain : ∀ reg ∈ regs, reg.Plain) :
    ∃ r : Router .ecmaScript F, Router.new.registerAll regs = some r ∧
      (∀ req, r.route req = selectedCall matchPattern regs req) ∧
        ∀ values req, SeesParameters values req (extractPathParameters values req) := by
  obtain ⟨r, hall⟩ := registerAll_plain Router.new hplain
  exact ⟨r, hall, (holds_of_registerAll hall).route hplain, seesParameters⟩

/-- `GET path`. -/
def getRequest (path : Bytes) : HttpRequest := { HttpRequest.new with method := .kGet, path }

/-- A dynamic handler, a dynamic callback and a handler for one path of the former. -/
def userRoutes : List (RouteRegistration Nat) :=
  [.addRegexHandler .kGet (ascii "/users/:id") 1,
   .addRegexCallback .kGet (ascii "/users/:id/orders/:order") 2,
   .registerHandler .kGet (ascii "/users/me") 3]

theorem route_selects_userRoutes :
    (∀ reg ∈ userRoutes, reg.Plain) ∧
      ∃ r : Router .ecmaScript Nat, Router.new.registerAll userRoutes = some r ∧
        r.route (getRequest (ascii "/users/me")) =
          some ⟨.handler, 3, getRequest (ascii "/users/me")⟩ ∧
        r.route (getRequest (ascii "/users/7")) =
          some ⟨.handler, 1, extractPathParameters [ascii "7"] (getRequest (ascii "/users/7"))⟩ ∧
        r.route (getRequest (ascii "/users/7/orders/a-1")) =
          some ⟨.callback, 2, getRequest (ascii "/users/7/orders/a-1")⟩ ∧
        r.route (getRequest (ascii "/users//orders/a-1")) = none := by
  have hplain : ∀ reg ∈ userRoutes, reg.Plain := by decide +kernel
  obtain ⟨r, hall, hroute, -⟩ := route_selects userRoutes hplain
  refine ⟨hplain, r, hall, ?_, ?_, ?_, ?_⟩
  · rw [hroute]
    rfl
  · rw [hroute]
    rfl
  · rw [hroute]
    rfl
  · rw [hroute]
    rfl

/-- A `:name` in the first segment, with no slash before it, is no parameter. -/
theorem first_segment_parameter_ignored :
    ∃ r : Router .ecmaScript Nat,
      Router.new.registerAll [.addRegexHandler .kGet (ascii ":id") 1] = some r ∧
        (segments (ascii ":id")).all isParameter = true ∧
        r.route (getRequest (ascii "x")) = none ∧
        selectedCall matchSegments [.addRegexHandler .kGet (ascii ":id") 1]
            (getRequest (ascii "x")) =
          some ⟨.handler, 1, extractPathParameters [ascii "x"] (getRequest (ascii "x"))⟩ := by
  have hplain : ∀ reg ∈ [RouteRegistration.addRegexHandler .kGet (ascii ":id") 1], reg.Plain := by
    decide +kernel
  obtain ⟨r, hall⟩ := registerAll_plain Router.new hplain
  refine ⟨r, hall, rfl, ?_, rfl⟩
  rw [(holds_of_registerAll hall).route hplain]
  rfl

end Router

end MuduoPlus
