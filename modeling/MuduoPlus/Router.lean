import MuduoPlus.HttpRequest
import MuduoPlus.ListTools
import MuduoPlus.RegexText

namespace MuduoPlus

/-- `std::regex` as far as the router uses it: a pattern that is no regular expression throws,
a match of a whole text gives what its groups captured. -/
structure RegexEngine where
  Compiled : Type
  compile : Bytes → Option Compiled
  regexMatch : Compiled → Bytes → Option (List Bytes)
  regexReplace : Compiled → Bytes → Bytes → Bytes

/-- ECMAScript, the default grammar. -/
def RegexEngine.ecmaScript : RegexEngine where
  Compiled := Regex UInt8 × Nat
  compile := parseRegex
  regexMatch re text := (re.1.fullMatch text).map fun c =>
    (List.range re.2).map fun i => (c.captures i).getD []
  regexReplace re text format := re.1.replaceAll format text

/-- `RouteHandlerObj` and `RouteCallbackObj`. -/
structure RouteObj (E : RegexEngine) (F : Type) where
  method : Method
  pathRegex : E.Compiled
  target : F

/-- Handlers and callbacks are `F`; an unordered map is read by its key. -/
structure Router (E : RegexEngine) (F : Type) where
  handlers : Method × Bytes → Option F
  callbacks : Method × Bytes → Option F
  regexHandlers : List (RouteObj E F)
  regexCallbacks : List (RouteObj E F)

inductive RouteKind where
  | handler
  | callback
  deriving DecidableEq

/-- What `route` calls, and the request it hands over. -/
structure RouteCall (F : Type) where
  kind : RouteKind
  target : F
  request : HttpRequest
  deriving DecidableEq

inductive RouteRegistration (F : Type) where
  | registerHandler (method : Method) (path : Bytes) (handler : F)
  | registerCallback (method : Method) (path : Bytes) (callback : F)
  | addRegexHandler (method : Method) (path : Bytes) (handler : F)
  | addRegexCallback (method : Method) (path : Bytes) (callback : F)

def paramName (i : Nat) : Bytes := ascii "param" ++ decimal i

/-- The loop of `extractPathParameters` from group `i` on. -/
def extractFrom (i : Nat) : List Bytes → HttpRequest → HttpRequest
  | [], request => request
  | group :: groups, request =>
    extractFrom (i + 1) groups (request.setPathParameter (paramName i) group)

def extractPathParameters (groups : List Bytes) (request : HttpRequest) : HttpRequest :=
  extractFrom 1 groups request

def convertToRegex (E : RegexEngine) (pathPattern : Bytes) : Option E.Compiled :=
  (E.compile (ascii "/:([^/]+)")).bind fun name =>
    E.compile (ascii "^" ++ E.regexReplace name pathPattern (ascii "/([^/]+)") ++ ascii "$")

variable {E : RegexEngine} {F : Type}

namespace RouteObj

/-- The test in the two loops of `route`. -/
def accept (o : RouteObj E F) (req : HttpRequest) : Option (List Bytes) :=
  if o.method = req.method then E.regexMatch o.pathRegex req.path else none

/-- The body of the loop over the handlers. -/
def handle (o : RouteObj E F) (req : HttpRequest) : Option (RouteCall F) :=
  (o.accept req).map fun groups =>
    let newReq := extractPathParameters groups req
    ⟨.handler, o.target, newReq⟩

/-- The body of the loop over the callbacks. It makes the same `newReq` and hands over `req`. -/
def callback (o : RouteObj E F) (req : HttpRequest) : Option (RouteCall F) :=
  (o.accept req).map fun groups =>
    let _newReq := extractPathParameters groups req
    ⟨.callback, o.target, req⟩

end RouteObj

namespace Router

def new : Router E F := ⟨fun _ => none, fun _ => none, [], []⟩

def registerHandler (r : Router E F) (method : Method) (path : Bytes) (handler : F) : Router E F :=
  { r with handlers := Function.update r.handlers (method, path) (some handler) }

def registerCallback (r : Router E F) (method : Method) (path : Bytes) (callback : F) :
    Router E F :=
  { r with callbacks := Function.update r.callbacks (method, path) (some callback) }

/-- `none` is the exception of a pattern that does not convert; the tables are not touched. -/
def addRegexHandler (r : Router E F) (method : Method) (path : Bytes) (handler : F) :
    Option (Router E F) :=
  (convertToRegex E path).map fun pathRegex =>
    { r with regexHandlers := r.regexHandlers ++ [⟨method, pathRegex, handler⟩] }

def addRegexCallback (r : Router E F) (method : Method) (path : Bytes) (callback : F) :
    Option (Router E F) :=
  (convertToRegex E path).map fun pathRegex =>
    { r with regexCallbacks := r.regexCallbacks ++ [⟨method, pathRegex, callback⟩] }

/-- The call that `route` makes before it returns `true`, or `none` when it returns `false`. -/
def route (r : Router E F) (req : HttpRequest) : Option (RouteCall F) :=
  match r.handlers (req.method, req.path) with
  | some handler => some ⟨.handler, handler, req⟩
  | none =>
    match r.callbacks (req.method, req.path) with
    | some callback => some ⟨.callback, callback, req⟩
    | none =>
      match r.regexHandlers.findSome? (·.handle req) with
      | some call => some call
      | none => r.regexCallbacks.findSome? (·.callback req)

def register (r : Router E F) : RouteRegistration F → Option (Router E F)
  | .registerHandler method path handler => some (r.registerHandler method path handler)
  | .registerCallback method path callback => some (r.registerCallback method path callback)
  | .addRegexHandler method path handler => r.addRegexHandler method path handler
  | .addRegexCallback method path callback => r.addRegexCallback method path callback

/-- Registrations one after the other. -/
def registerAll (r : Router E F) (regs : List (RouteRegistration F)) : Option (Router E F) :=
  regs.foldlM register r

theorem registerAll_cons (r : Router E F) (reg : RouteRegistration F) (regs : List (RouteRegistration F)) :
    r.registerAll (reg :: regs) = (r.register reg).bind fun r' => r'.registerAll regs := rfl

theorem registerAll_append (r : Router E F) (regs more : List (RouteRegistration F)) :
    r.registerAll (regs ++ more) = (r.registerAll regs).bind fun r' => r'.registerAll more :=
  List.foldlM_append

end Router

namespace RouteRegistration

def handlerAt (key : Method × Bytes) : RouteRegistration F → Option F
  | .registerHandler method path handler => if key = (method, path) then some handler else none
  | _ => none

def callbackAt (key : Method × Bytes) : RouteRegistration F → Option F
  | .registerCallback method path callback => if key = (method, path) then some callback else none
  | _ => none

/-- The entry a registration makes in `regexHandlers_`. -/
def handlerObj (E : RegexEngine) : RouteRegistration F → Option (RouteObj E F)
  | .addRegexHandler method path handler =>
    (convertToRegex E path).map fun pathRegex => ⟨method, pathRegex, handler⟩
  | _ => none

/-- The entry a registration makes in `regexCallbacks_`. -/
def callbackObj (E : RegexEngine) : RouteRegistration F → Option (RouteObj E F)
  | .addRegexCallback method path callback =>
    (convertToRegex E path).map fun pathRegex => ⟨method, pathRegex, callback⟩
  | _ => none

end RouteRegistration

/-- What the four tables hold after the registrations `regs`: the last one for a key, and all
dynamic ones in their order. -/
structure Router.Holds (r : Router E F) (regs : List (RouteRegistration F)) : Prop where
  handlers : ∀ key, r.handlers key = regs.reverse.findSome? (·.handlerAt key)
  callbacks : ∀ key, r.callbacks key = regs.reverse.findSome? (·.callbackAt key)
  regexHandlers : r.regexHandlers = regs.filterMap (·.handlerObj E)
  regexCallbacks : r.regexCallbacks = regs.filterMap (·.callbackObj E)

namespace Router

variable {r r' : Router E F} {regs : List (RouteRegistration F)}

theorem Holds.new : (Router.new : Router E F).Holds [] :=
  ⟨fun _ => rfl, fun _ => rfl, rfl, rfl⟩

/-- A table read by key after one more entry. -/
theorem update_eq_or {f : Method × Bytes → Option F} {key at_ : Method × Bytes} {target : F} :
    Function.update f at_ (some target) key = (if key = at_ then some target else none).or (f key) := by
  by_cases hkey : key = at_
  · subst hkey
    rw [Function.update_self, if_pos rfl, Option.some_or]
  · rw [Function.update_of_ne hkey, if_neg hkey, Option.none_or]

/-- One registration. -/
theorem Holds.register (h : r.Holds regs) {reg : RouteRegistration F}
    (hreg : r.register reg = some r') : r'.Holds (regs ++ [reg]) := by
  have hhandlers : ∀ key, (reg.handlerAt key).or (r.handlers key) =
      (regs ++ [reg]).reverse.findSome? (·.handlerAt key) := by
    intro key
    rw [findSome?_reverse_concat, h.handlers]
  have hcallbacks : ∀ key, (reg.callbackAt key).or (r.callbacks key) =
      (regs ++ [reg]).reverse.findSome? (·.callbackAt key) := by
    intro key
    rw [findSome?_reverse_concat, h.callbacks]
  have hregexHandlers : r.regexHandlers ++ [reg].filterMap (·.handlerObj E) =
      (regs ++ [reg]).filterMap (·.handlerObj E) := by
    rw [List.filterMap_append, h.regexHandlers]
  have hregexCallbacks : r.regexCallbacks ++ [reg].filterMap (·.callbackObj E) =
      (regs ++ [reg]).filterMap (·.callbackObj E) := by
    rw [List.filterMap_append, h.regexCallbacks]
  cases reg with
  | registerHandler method path handler =>
    cases hreg
    refine ⟨fun key => ?_, hcallbacks, ?_, ?_⟩
    · rw [← hhandlers]
      exact update_eq_or
    · rw [← hregexHandlers]
      exact (List.append_nil _).symm
    · rw [← hregexCallbacks]
      exact (List.append_nil _).symm
  | registerCallback method path callback =>
    cases hreg
    refine ⟨hhandlers, fun key => ?_, ?_, ?_⟩
    · rw [← hcallbacks]
      exact update_eq_or
    · rw [← hregexHandlers]
      exact (List.append_nil _).symm
    · rw [← hregexCallbacks]
      exact (List.append_nil _).symm
  | addRegexHandler method pattern handler =>
    obtain ⟨re, hconvert, rfl⟩ := Option.map_eq_some_iff.mp hreg
    refine ⟨hhandlers, hcallbacks, ?_, ?_⟩
    · rw [← hregexHandlers, List.filterMap_cons_some (by
        rw [RouteRegistration.handlerObj, hconvert, Option.map_some])]
      rfl
    · rw [← hregexCallbacks]
      exact (List.append_nil _).symm
  | addRegexCallback method pattern callback =>
    obtain ⟨re, hconvert, rfl⟩ := Option.map_eq_some_iff.mp hreg
    refine ⟨hhandlers, hcallbacks, ?_, ?_⟩
    · rw [← hregexHandlers]
      exact (List.append_nil _).symm
    · rw [← hregexCallbacks, List.filterMap_cons_some (by
        rw [RouteRegistration.callbackObj, hconvert, Option.map_some])]
      rfl

/-- Any number of them. -/
theorem Holds.registerAll (h : r.Holds regs) {more : List (RouteRegistration F)}
    (hall : r.registerAll more = some r') : r'.Holds (regs ++ more) := by
  induction more generalizing r regs with
  | nil =>
    cases hall
    rw [List.append_nil]
    exact h
  | cons reg more ih =>
    rw [registerAll_cons] at hall
    obtain ⟨r₁, hreg, hmore⟩ := Option.bind_eq_some_iff.mp hall
    have h₂ := ih (h.register hreg) hmore
    rw [List.append_assoc] at h₂
    exact h₂

theorem holds_of_registerAll (hall : Router.new.registerAll regs = some r) : r.Holds regs :=
  Holds.new.registerAll hall

end Router

section PathParameters

/-- Names of different parameters differ. -/
theorem paramName_injective {i j : Nat} (h : paramName i = paramName j) : i = j := by
  have hd : decimal i = decimal j := List.append_cancel_left h
  have hi := digitsValue_decimal i
  rw [hd, digitsValue_decimal j] at hi
  exact hi.symm

/-- Only the names the loop counts through are written. -/
theorem extractFrom_lookup_other (groups : List Bytes) (i : Nat) (req : HttpRequest) (key : Bytes)
    (h : ∀ k < groups.length, key ≠ paramName (i + k)) :
    (extractFrom i groups req).pathParameters.lookup key = req.pathParameters.lookup key := by
  induction groups generalizing i req with
  | nil => rfl
  | cons group groups ih =>
    have hkey : key ≠ paramName i := h 0 (Nat.zero_lt_succ _)
    have hlater : ∀ k < groups.length, key ≠ paramName (i + 1 + k) := by
      intro k hk
      have hk' : i + 1 + k = i + (k + 1) := by omega
      rw [hk']
      exact h (k + 1) (Nat.succ_lt_succ hk)
    rw [extractFrom, ih (i + 1) _ hlater]
    exact Finmap.lookup_insert_of_ne _ hkey

/-- Every group stands under its own name afterwards. -/
theorem extractFrom_lookup (groups : List Bytes) (i k : Nat) (req : HttpRequest) {group : Bytes}
    (h : groups[k]? = some group) :
    (extractFrom i groups req).pathParameters.lookup (paramName (i + k)) = some group := by
  induction groups generalizing i k req with
  | nil => simp at h
  | cons first groups ih =>
    rw [extractFrom]
    cases k with
    | zero =>
      rw [List.getElem?_cons_zero] at h
      cases h
      have hlater : ∀ k < groups.length, paramName (i + 0) ≠ paramName (i + 1 + k) := by
        intro k _ he
        have := paramName_injective he
        omega
      rw [extractFrom_lookup_other groups (i + 1) _ _ hlater]
      exact Finmap.lookup_insert _
    | succ k =>
      rw [List.getElem?_cons_succ] at h
      have hk : i + (k + 1) = i + 1 + k := by omega
      rw [hk]
      exact ih (i + 1) k _ h

/-- Nothing but the path parameters changes. -/
theorem extractFrom_rest (groups : List Bytes) (i : Nat) (req : HttpRequest) :
    extractFrom i groups req =
      { req with pathParameters := (extractFrom i groups req).pathParameters } := by
  induction groups generalizing i req with
  | nil => rfl
  | cons group groups ih =>
    rw [extractFrom]
    exact ih (i + 1) (req.setPathParameter (paramName i) group)

/-- The parameters are extracted into a request that has them all already: nothing changes. -/
theorem extractFrom_eq_self (groups : List Bytes) (i : Nat) (req : HttpRequest)
    (h : ∀ k group, groups[k]? = some group →
      req.pathParameters.lookup (paramName (i + k)) = some group) :
    extractFrom i groups req = req := by
  induction groups generalizing i with
  | nil => rfl
  | cons group groups ih =>
    have hsame : req.setPathParameter (paramName i) group = req := by
      have hlookup := h 0 group rfl
      rw [HttpRequest.setPathParameter]
      have hd : req.pathParameters.insert (paramName i) group = req.pathParameters := by
        apply Finmap.ext_lookup
        intro key
        by_cases hkey : key = paramName i
        · subst hkey
          rw [Finmap.lookup_insert]
          exact hlookup.symm
        · exact Finmap.lookup_insert_of_ne _ hkey
      rw [hd]
    rw [extractFrom, hsame]
    apply ih (i + 1)
    intro k group' hk
    have hk' : i + 1 + k = i + (k + 1) := by omega
    rw [hk']
    exact h (k + 1) group' hk

theorem extractPathParameters_eq_self_iff (groups : List Bytes) (req : HttpRequest) :
    extractPathParameters groups req = req ↔ ∀ k group, groups[k]? = some group →
      req.pathParameters.lookup (paramName (1 + k)) = some group := by
  constructor
  · intro h k group hk
    have hlookup := extractFrom_lookup groups 1 k req hk
    rw [extractPathParameters] at h
    rw [h] at hlookup
    exact hlookup
  · exact extractFrom_eq_self groups 1 req

end PathParameters

end MuduoPlus
