import Mathlib.Data.List.Forall2
import MuduoPlus.CorsMiddleware
import MuduoPlus.HttpFraming
import MuduoPlus.Session

namespace MuduoPlus

open HttpReader (sameName lowerByte)

/-- Header lines that differ at most in the case of letters of the name. -/
def SameLine (line line' : Bytes) : Prop :=
  ∃ name name' text, line = name ++ chColon :: text ∧ line' = name' ++ chColon :: text ∧
    chColon ∉ name ∧ chColon ∉ name' ∧ sameName name name' = true

/-- The same for the fields that are read from them. -/
def SameField (field field' : Bytes × Bytes) : Prop :=
  sameName field.1 field'.1 = true ∧ field.2 = field'.2

theorem sameFields_of_sameLines {lines lines' : List Bytes} (h : List.Forall₂ SameLine lines lines') :
    List.Forall₂ SameField (headerFields lines) (headerFields lines') := by
  induction h with
  | nil => exact .nil
  | cons hline _ ih =>
    obtain ⟨name, name', text, rfl, rfl, hn, hn', hsame⟩ := hline
    unfold headerFields at ih ⊢
    rw [List.filterMap_cons, List.filterMap_cons, cutAt_append hn, cutAt_append hn']
    exact .cons ⟨hsame, rfl⟩ ih

/-- What is decided from the headers `Connection`, `Cookie` and `Origin`: whether the connection is
closed, the session that is asked for, and whether the request goes on, with what status and which
`Access-Control-Allow-Origin`. -/
structure HeaderDecisions where
  close : Bool
  sessionId : Bytes
  cors : Bool × HttpStatusCode × Option Bytes

namespace HttpServer

/-- The decisions that `handleHttpRequest`, `SessionManager::getSession` and
`CorsMiddleware::handle` take. -/
def decisions (config : CorsConfig) (req : HttpRequest) : HeaderDecisions :=
  let close := decide (req.getHeader (ascii "Connection") = ascii "close")
  let result := CorsMiddleware.handle config req (.new close)
  ⟨close, SessionManager.getSessionIdFromCookie req,
    result.1, result.2.statusCode, result.2.headers.lookup (ascii "Access-Control-Allow-Origin")⟩

end HttpServer

namespace CorsMiddleware

open HttpResponse

variable {config : CorsConfig} {req : HttpRequest} {resp : HttpResponse} {name : Bytes}

theorem lookup_mapSet_self (key value : Bytes) (entries : List (Bytes × Bytes)) :
    (mapSet key value entries).lookup key = some value := by
  induction entries with
  | nil => simp [mapSet]
  | cons entry entries ih =>
    obtain ⟨k, v⟩ := entry
    rw [mapSet]
    split
    next => simp
    next =>
      split
      next => simp
      next hne =>
        have hb : (key == k) = false := by simpa using hne
        rw [List.lookup_cons, hb]
        exact ih

theorem lookup_mapSet_of_ne {key : Bytes} (h : name ≠ key) (value : Bytes)
    (entries : List (Bytes × Bytes)) :
    (mapSet key value entries).lookup name = entries.lookup name := by
  have hb : (name == key) = false := by simpa using h
  induction entries with
  | nil => simp [mapSet, List.lookup_cons, hb]
  | cons entry entries ih =>
    obtain ⟨k, v⟩ := entry
    rw [mapSet]
    split
    next => rw [List.lookup_cons, hb]
    next =>
      split
      next hk => rw [List.lookup_cons, hb, List.lookup_cons, ← hk, hb]
      next =>
        rw [List.lookup_cons, List.lookup_cons]
        cases name == k with
        | true => rfl
        | false => exact ih

/-- A response with this status and this `Access-Control-Allow-Origin`. -/
structure Answers (code : HttpStatusCode) (origin : Bytes) (resp : HttpResponse) : Prop where
  statusCode : resp.statusCode = code
  allowOrigin : resp.headers.lookup (ascii "Access-Control-Allow-Origin") = some origin

theorem Answers.addHeader {code : HttpStatusCode} {origin key : Bytes} (h : Answers code origin resp)
    (hk : ascii "Access-Control-Allow-Origin" ≠ key) (value : Bytes) :
    Answers code origin (resp.addHeader key value) :=
  ⟨h.statusCode, (lookup_mapSet_of_ne hk value resp.headers).trans h.allowOrigin⟩

theorem answers_addHeader (resp : HttpResponse) (origin : Bytes) :
    Answers resp.statusCode origin (resp.addHeader (ascii "Access-Control-Allow-Origin") origin) :=
  ⟨rfl, lookup_mapSet_self _ origin resp.headers⟩

/-- The value of `Access-Control-Allow-Origin` for an origin that is allowed. -/
def allowedOrigin (config : CorsConfig) (origin : Bytes) : Bytes :=
  if config.allowAllOrigins && !config.allowCredentials then ascii "*" else origin

theorem answers_addCorsHeaders (config : CorsConfig) (resp : HttpResponse) (origin : Bytes) :
    Answers resp.statusCode (allowedOrigin config origin) (addCorsHeaders config resp origin) := by
  unfold addCorsHeaders
  dsimp only
  generalize hfirst : (if config.allowAllOrigins && !config.allowCredentials then
      resp.addHeader (ascii "Access-Control-Allow-Origin") (ascii "*")
    else
      (resp.addHeader (ascii "Access-Control-Allow-Origin") origin).addHeader (ascii "Vary")
        (ascii "Origin")) = withOrigin
  have horigin : Answers resp.statusCode (allowedOrigin config origin) withOrigin := by
    rw [← hfirst, allowedOrigin]
    split
    next => exact answers_addHeader resp (ascii "*")
    next => exact (answers_addHeader resp origin).addHeader (by decide) _
  have hcredentials : Answers resp.statusCode (allowedOrigin config origin)
      (if config.allowCredentials then
        withOrigin.addHeader (ascii "Access-Control-Allow-Credentials") (ascii "true")
      else withOrigin) := by
    split
    next => exact horigin.addHeader (by decide) _
    next => exact horigin
  split
  next => exact hcredentials.addHeader (by decide) _
  next => exact hcredentials

theorem Answers.addAllowedHeaders {code : HttpStatusCode} {origin : Bytes}
    (h : Answers code origin resp) (config : CorsConfig) (req : HttpRequest) :
    Answers code origin (addAllowedHeaders config req resp) := by
  unfold CorsMiddleware.addAllowedHeaders
  dsimp only
  split
  next => exact h.addHeader (by decide) _
  next =>
    split
    next => exact h.addHeader (by decide) _
    next => exact h

theorem answers_handlePreflightRequest (config : CorsConfig) (req : HttpRequest)
    (resp : HttpResponse) :
    Answers .k200Ok (allowedOrigin config (req.getHeader (ascii "Origin")))
      (handlePreflightRequest config req resp) := by
  have hcors := answers_addCorsHeaders config
    ((resp.setStatusCode .k200Ok).setStatusMessage (ascii "OK")) (req.getHeader (ascii "Origin"))
  unfold handlePreflightRequest
  dsimp only
  generalize addCorsHeaders config _ _ = cors at hcors ⊢
  have hmethods : Answers .k200Ok (allowedOrigin config (req.getHeader (ascii "Origin")))
      (if config.allowedMethods ≠ [] then
        cors.addHeader (ascii "Access-Control-Allow-Methods")
          (join config.allowedMethods (ascii ", "))
      else cors) := by
    split
    next => exact hcors.addHeader (by decide) _
    next => exact hcors
  have hheaders := hmethods.addAllowedHeaders config req
  generalize addAllowedHeaders config req _ = allowed at hheaders ⊢
  split
  next =>
    have hage : ascii "Access-Control-Allow-Origin" ≠ ascii "Access-Control-Max-Age" := by decide
    have hset := hheaders.addHeader hage (decimalInt config.maxAge.toInt)
    exact ⟨hset.statusCode, hset.allowOrigin⟩
  next => exact ⟨hheaders.statusCode, hheaders.allowOrigin⟩

/-- What `handle` decides, by the value of the header `Origin`. -/
def originDecision (config : CorsConfig) (method : Method) (origin : Bytes) :
    Bool × HttpStatusCode × Option Bytes :=
  if origin = [] then (true, .kUnknown, none)
  else if !isOriginAllowed config origin then (false, .k403Forbidden, none)
  else if method = .kOptions then (false, .k200Ok, some (allowedOrigin config origin))
  else (true, .kUnknown, some (allowedOrigin config origin))

theorem handle_decides (config : CorsConfig) (req : HttpRequest) (close : Bool) :
    ((handle config req (.new close)).1, (handle config req (.new close)).2.statusCode,
      (handle config req (.new close)).2.headers.lookup (ascii "Access-Control-Allow-Origin")) =
      originDecision config req.method (req.getHeader (ascii "Origin")) := by
  unfold handle originDecision
  dsimp only
  split
  next => rfl
  next =>
    split
    next => rfl
    next =>
      split
      next =>
        have hpreflight := answers_handlePreflightRequest config req (.new close)
        rw [hpreflight.statusCode, hpreflight.allowOrigin]
      next =>
        have hcors := answers_addCorsHeaders config (.new close) (req.getHeader (ascii "Origin"))
        rw [hcors.statusCode, hcors.allowOrigin]
        rfl

/-- An origin makes a difference exactly when there is one. -/
theorem originDecision_ne_iff (config : CorsConfig) (method : Method) (origin : Bytes) :
    originDecision config method origin ≠ originDecision config method [] ↔ origin ≠ [] := by
  by_cases ho : origin = []
  · simp [ho]
  · refine ⟨fun _ => ho, fun _ => ?_⟩
    have hnone : originDecision config method [] = (true, .kUnknown, none) := rfl
    rw [hnone, originDecision, if_neg ho]
    split_ifs <;> simp

end CorsMiddleware

namespace RequestHead

open HttpContext

variable {head head' : RequestHead} {name value value' : Bytes}

/-- Heads that differ at most in the case of letters of header names; no name is there twice. -/
structure SameButCase (head head' : RequestHead) : Prop where
  line : head.line = head'.line
  lines : List.Forall₂ SameLine head.lines head'.lines
  distinct : (head.fields.map fun field => field.1.map lowerByte).Nodup

/-- The parser ends in the same way, with the same body and as many bytes consumed, and the same
is decided about the requests that are complete: for any bytes behind the two heads, any cut of
them and any configuration. -/
def TreatedAlike (head head' : RequestHead) : Prop :=
  ∀ rest buf chunks buf' chunks', Arrives (head.text ++ rest) buf chunks →
    Arrives (head'.text ++ rest) buf' chunks' →
    (feedChunks .new buf chunks).outcome = (feedChunks .new buf' chunks').outcome ∧
    (feedChunks .new buf chunks).ctx.request.content =
      (feedChunks .new buf' chunks').ctx.request.content ∧
    (feedChunks .new buf chunks).unconsumed.length =
      (feedChunks .new buf' chunks').unconsumed.length ∧
    ((feedChunks .new buf chunks).outcome = some .gotAll → ∀ config,
      HttpServer.decisions config (feedChunks .new buf chunks).ctx.request =
        HttpServer.decisions config (feedChunks .new buf' chunks').ctx.request)

/-- A line with exactly this name and a value of the given kind is in both heads or in neither. -/
def SpelledAlike (name : Bytes) (acted : Bytes → Prop) (head head' : RequestHead) : Prop :=
  ∀ value, acted value → ((name, value) ∈ head.fields ↔ (name, value) ∈ head'.fields)

/-- Some bytes complete the request. -/
def Completable (head : RequestHead) : Prop :=
  head.hasBody → ∃ n, stoul head.lengthText = .ok n

/-- The names whose value is acted on are spelled as the code spells them in both heads or in
neither: `Content-Length` of a POST or PUT unless it is empty, and for a request that can be
completed `Connection` with the value `close`, `Cookie` with a session id and `Origin` unless it is
empty. -/
structure NamesAlike (head head' : RequestHead) : Prop where
  contentLength : head.hasBody → SpelledAlike (ascii "Content-Length") (· ≠ []) head head'
  connection : head.Completable → SpelledAlike (ascii "Connection") (· = ascii "close") head head'
  cookie : head.Completable →
    SpelledAlike (ascii "Cookie") (SessionManager.sessionIdIn · ≠ []) head head'
  origin : head.Completable → SpelledAlike (ascii "Origin") (· ≠ []) head head'

theorem mem_valuesOf {fields : List (Bytes × Bytes)} :
    value ∈ valuesOf name fields ↔ (name, value) ∈ fields := by
  unfold valuesOf
  simp only [List.mem_map, List.mem_filter, decide_eq_true_eq, Prod.exists, exists_eq_right]

theorem mem_of_getHeader_ne_nil (h : head.request.getHeader name ≠ []) :
    (name, head.request.getHeader name) ∈ head.fields := by
  rw [getHeader_request] at h ⊢
  cases hl : (valuesOf name head.fields).getLast? with
  | none =>
    rw [hl] at h
    exact absurd rfl h
  | some last => exact mem_valuesOf.mp (List.mem_of_getLast? hl)

section Alike

variable (h : SameButCase head head')

include h

theorem SameButCase.fields : List.Forall₂ SameField head.fields head'.fields :=
  sameFields_of_sameLines h.lines

theorem SameButCase.distinct_right :
    (head'.fields.map fun field => field.1.map lowerByte).Nodup := by
  have heq : (head.fields.map fun field => field.1.map lowerByte) =
      head'.fields.map fun field => field.1.map lowerByte := by
    have hfields := h.fields
    generalize head.fields = fields at hfields ⊢
    generalize head'.fields = fields' at hfields ⊢
    induction hfields with
    | nil => rfl
    | cons hfield _ ih =>
      have hname : _ = _ := beq_iff_eq.mp hfield.1
      rw [List.map_cons, List.map_cons, ih, hname]
  rw [← heq]
  exact h.distinct

theorem SameButCase.method : head'.method = head.method := by
  rw [RequestHead.method, RequestHead.method, h.line]

theorem SameButCase.hasBody : head'.hasBody ↔ head.hasBody := by
  rw [RequestHead.hasBody, RequestHead.hasBody, h.method]

/-- Spelled alike, a name has one value. -/
theorem SameButCase.value_eq (hm : (name, value) ∈ head.fields)
    (hm' : (name, value') ∈ head'.fields) : value = value' := by
  obtain ⟨field, hfield, hname, hvalue⟩ : ∃ field ∈ head.fields,
      field.1.map lowerByte = name.map lowerByte ∧ field.2 = value' := by
    have hfields := h.fields
    generalize head.fields = fields at hfields ⊢
    generalize head'.fields = fields' at hfields hm'
    induction hfields with
    | nil => cases hm'
    | cons hfield _ ih =>
      rcases List.mem_cons.mp hm' with heq | hm'
      · subst heq
        exact ⟨_, List.mem_cons_self, beq_iff_eq.mp hfield.1, hfield.2⟩
      · obtain ⟨field, hf, hrest⟩ := ih hm'
        exact ⟨field, List.mem_cons_of_mem _ hf, hrest⟩
  have heq := List.inj_on_of_nodup_map h.distinct hfield hm hname
  rw [← hvalue, heq]

end Alike

theorem getHeader_of_mem (hn : (head.fields.map fun field => field.1.map lowerByte).Nodup)
    (hm : (name, value) ∈ head.fields) : head.request.getHeader name = value := by
  rw [getHeader_request]
  cases hl : (valuesOf name head.fields).getLast? with
  | none =>
    have hnil := List.getLast?_eq_none_iff.mp hl
    have hmem := mem_valuesOf.mpr hm
    rw [hnil] at hmem
    cases hmem
  | some last =>
    have hlast := mem_valuesOf.mp (List.mem_of_getLast? hl)
    have heq := List.inj_on_of_nodup_map hn hlast hm rfl
    exact (Prod.mk.inj heq).2

/-- A decision made from one header is the same for both heads exactly when the name is spelled
alike wherever its value makes a difference. -/
theorem spelledAlike_iff {β : Type} (decide : Bytes → β) {acted : Bytes → Prop}
    (hacted : ∀ value, decide value ≠ decide [] ↔ acted value) (h : SameButCase head head')
    (name : Bytes) :
    SpelledAlike name acted head head' ↔
      decide (head.request.getHeader name) = decide (head'.request.getHeader name) := by
  have hne : ∀ {value}, acted value → value ≠ [] := by
    rintro value hv rfl
    exact (hacted []).mpr hv rfl
  constructor
  · intro halike
    by_cases ha : acted (head.request.getHeader name)
    · have hm := (halike _ ha).mp (mem_of_getHeader_ne_nil (hne ha))
      rw [getHeader_of_mem h.distinct_right hm]
    · by_cases ha' : acted (head'.request.getHeader name)
      · have hm := (halike _ ha').mpr (mem_of_getHeader_ne_nil (hne ha'))
        rw [getHeader_of_mem h.distinct hm]
      · have hd := not_not.mp (mt (hacted _).mp ha)
        have hd' := not_not.mp (mt (hacted _).mp ha')
        rw [hd, hd']
  · intro hsame value ha
    constructor
    · intro hm
      rw [getHeader_of_mem h.distinct hm] at hsame
      have hfound : head'.request.getHeader name ≠ [] := by
        intro hnil
        rw [hnil] at hsame
        exact (hacted value).mpr ha hsame
      have hm' := mem_of_getHeader_ne_nil hfound
      rwa [h.value_eq hm hm']
    · intro hm'
      rw [getHeader_of_mem h.distinct_right hm'] at hsame
      have hfound : head.request.getHeader name ≠ [] := by
        intro hnil
        rw [hnil] at hsame
        exact (hacted value).mpr ha hsame.symm
      have hm := mem_of_getHeader_ne_nil hfound
      rwa [← h.value_eq hm hm']

theorem lengthText_eq_getHeader (head : RequestHead) :
    head.lengthText = head.request.getHeader (ascii "Content-Length") :=
  (getHeader_request head _).symm

/-- The decisions on a request are made from its head. -/
theorem decisions_fed {rest : Bytes} {buf : Buffer} {chunks : List (Bytes × Timestamp)}
    (ha : Arrives (head.text ++ rest) buf chunks) (config : CorsConfig) :
    HttpServer.decisions config (feedChunks .new buf chunks).ctx.request =
      ⟨decide (head.request.getHeader (ascii "Connection") = ascii "close"),
        SessionManager.sessionIdIn (head.request.getHeader (ascii "Cookie")),
        CorsMiddleware.originDecision config head.method
          (head.request.getHeader (ascii "Origin"))⟩ := by
  obtain ⟨hheaders, hmethod⟩ := fed_request ha
  have hget : ∀ name, (feedChunks .new buf chunks).ctx.request.getHeader name =
      head.request.getHeader name := by
    intro name
    rw [HttpRequest.getHeader_eq, hheaders]
    rfl
  unfold HttpServer.decisions
  dsimp only
  rw [← method_request, ← hmethod, ← hget, ← hget, ← hget, ← CorsMiddleware.handle_decides config _
    (decide ((feedChunks .new buf chunks).ctx.request.getHeader (ascii "Connection") =
      ascii "close"))]
  rfl

theorem completable_of_gotAll {rest : Bytes} (h : (head.framing rest).1 = some .gotAll) :
    head.Completable := by
  intro hb
  have ht : head.lengthText ≠ [] := by
    intro hnil
    rw [framing_missing hb hnil] at h
    cases h
  cases hs : stoul head.lengthText with
  | error e =>
    rw [framing_unreadable hb ht hs] at h
    cases h
  | ok n => exact ⟨n, rfl⟩

theorem Completable.exists_gotAll (h : head.Completable) :
    ∃ rest, (head.framing rest).1 = some .gotAll := by
  by_cases hb : head.hasBody
  · obtain ⟨n, hs⟩ := h hb
    have ht : head.lengthText ≠ [] := by
      intro hnil
      rw [hnil] at hs
      cases hs
    refine ⟨List.replicate n 0, ?_⟩
    rw [framing_length hb ht hs, List.length_replicate, if_neg (lt_irrefl n)]
  · exact ⟨[], by rw [framing_other hb]⟩

theorem connection_acted (value : Bytes) :
    decide (value = ascii "close") ≠ decide (([] : Bytes) = ascii "close") ↔
      value = ascii "close" := by
  have hnil : ([] : Bytes) ≠ ascii "close" := by decide
  simp [hnil]

theorem cookie_acted (value : Bytes) :
    SessionManager.sessionIdIn value ≠ SessionManager.sessionIdIn [] ↔
      SessionManager.sessionIdIn value ≠ [] :=
  Iff.rfl

section Treated

variable (h : SameButCase head head')

include h

theorem SameButCase.framing_eq (hn : NamesAlike head head') (rest : Bytes) :
    head.framing rest = head'.framing rest := by
  by_cases hb : head.hasBody
  · have hlength := (spelledAlike_iff id (fun _ => Iff.rfl) h _).mp (hn.contentLength hb)
    have htext : head.lengthText = head'.lengthText := by
      rw [lengthText_eq_getHeader, lengthText_eq_getHeader]
      exact hlength
    rw [framing, framing, if_pos hb, if_pos (h.hasBody.mpr hb), htext]
  · rw [framing_other hb, framing_other (mt h.hasBody.mp hb)]

theorem SameButCase.treatedAlike (hn : NamesAlike head head') : TreatedAlike head head' := by
  intro rest buf chunks buf' chunks' ha ha'
  have hframing := (fed_framing ha).trans ((h.framing_eq hn rest).trans (fed_framing ha').symm)
  obtain ⟨houtcome, hrest⟩ := Prod.mk.inj hframing
  obtain ⟨hcontent, hleft⟩ := Prod.mk.inj hrest
  refine ⟨houtcome, hcontent, congrArg List.length hleft, fun hgot config => ?_⟩
  have hcompletable : head.Completable :=
    completable_of_gotAll ((congrArg Prod.fst (fed_framing ha)).symm.trans hgot)
  have hconnection := (spelledAlike_iff _ connection_acted h _).mp (hn.connection hcompletable)
  have hcookie := (spelledAlike_iff _ cookie_acted h _).mp (hn.cookie hcompletable)
  have horigin := (spelledAlike_iff id (fun _ => Iff.rfl) h _).mp (hn.origin hcompletable)
  rw [decisions_fed ha, decisions_fed ha', hconnection, hcookie, h.method, ← id_eq
    (head.request.getHeader (ascii "Origin")), horigin]
  rfl

/-- One of two `Content-Length` lines that the code does not find makes one request refused. -/
theorem SameButCase.lengthText_eq (ht : TreatedAlike head head') (hb : head.hasBody) :
    head.lengthText = head'.lengthText := by
  have hb' := h.hasBody.mpr hb
  have houtcome : (head.framing []).1 = (head'.framing []).1 := by
    have ha := arrives_whole (head.text ++ [])
    have ha' := arrives_whole (head'.text ++ [])
    rw [← fed_framing ha, ← fed_framing ha']
    exact (ht [] _ _ _ _ ha ha').1
  by_cases hnil : head.lengthText = []
  · by_cases hnil' : head'.lengthText = []
    · rw [hnil, hnil']
    · rw [framing_missing hb hnil] at houtcome
      exact absurd houtcome.symm (framing_ne_refused hb' hnil' [])
  · by_cases hnil' : head'.lengthText = []
    · rw [framing_missing hb' hnil'] at houtcome
      exact absurd houtcome (framing_ne_refused hb hnil [])
    · rw [lengthText_eq_getHeader] at hnil hnil' ⊢
      rw [lengthText_eq_getHeader]
      exact h.value_eq (mem_of_getHeader_ne_nil hnil) (mem_of_getHeader_ne_nil hnil')

theorem SameButCase.decisions_eq (ht : TreatedAlike head head') (hc : head.Completable)
    (config : CorsConfig) :
    (⟨decide (head.request.getHeader (ascii "Connection") = ascii "close"),
        SessionManager.sessionIdIn (head.request.getHeader (ascii "Cookie")),
        CorsMiddleware.originDecision config head.method
          (head.request.getHeader (ascii "Origin"))⟩ : HeaderDecisions) =
      ⟨decide (head'.request.getHeader (ascii "Connection") = ascii "close"),
        SessionManager.sessionIdIn (head'.request.getHeader (ascii "Cookie")),
        CorsMiddleware.originDecision config head.method
          (head'.request.getHeader (ascii "Origin"))⟩ := by
  obtain ⟨rest, hgot⟩ := hc.exists_gotAll
  have ha := arrives_whole (head.text ++ rest)
  have ha' := arrives_whole (head'.text ++ rest)
  have hfed := (congrArg Prod.fst (fed_framing ha)).trans hgot
  rw [← decisions_fed ha, ← h.method, ← decisions_fed ha']
  exact (ht rest _ _ _ _ ha ha').2.2.2 hfed config

theorem SameButCase.namesAlike (ht : TreatedAlike head head') : NamesAlike head head' := by
  refine ⟨fun hb => ?_, fun hc => ?_, fun hc => ?_, fun hc => ?_⟩
  · refine (spelledAlike_iff id (fun _ => Iff.rfl) h _).mpr ?_
    have htext := h.lengthText_eq ht hb
    rwa [lengthText_eq_getHeader, lengthText_eq_getHeader] at htext
  · refine (spelledAlike_iff _ connection_acted h _).mpr ?_
    exact (HeaderDecisions.mk.inj (h.decisions_eq ht hc .defaultConfig)).1
  · refine (spelledAlike_iff _ cookie_acted h _).mpr ?_
    exact (HeaderDecisions.mk.inj (h.decisions_eq ht hc .defaultConfig)).2.1
  · refine (spelledAlike_iff _
      (CorsMiddleware.originDecision_ne_iff .defaultConfig head.method) h _).mpr ?_
    exact (HeaderDecisions.mk.inj (h.decisions_eq ht hc .defaultConfig)).2.2

/-- The code looks names up as it spells them. Two heads that differ in the case of names are
treated alike exactly when the names whose value is acted on are spelled alike. -/
theorem treatedAlike_iff_namesAlike : TreatedAlike head head' ↔ NamesAlike head head' :=
  ⟨h.namesAlike, h.treatedAlike⟩

end Treated

/-- The head of a POST of two bytes, with one more header of no meaning to the code. -/
def posted (name : Bytes) (hwhole : chCR ∉ name) : RequestHead where
  line := ascii "POST / HTTP/1.1"
  lines := [ascii "Content-Length: 2", name ++ ascii ": 1"]
  line_whole := pair_not_infix_of_not_mem (by decide)
  line_taken := by decide +kernel
  lines_whole := by
    have hvalue : chCR ∉ ascii ": 1" := by decide
    intro line hm
    rcases List.mem_pair.mp hm with rfl | rfl
    · exact ⟨by decide, pair_not_infix_of_not_mem (by decide)⟩
    · exact ⟨by simp [ascii, chColon], pair_not_infix_of_not_mem (by simp [hwhole, hvalue])⟩

theorem treatedAlike_posted :
    let lower := posted (ascii "x-trace") (by decide)
    let upper := posted (ascii "X-TRACE") (by decide)
    lower.SameButCase upper ∧ lower.TreatedAlike upper := by
  intro lower upper
  have hsame : lower.SameButCase upper := by
    have hlength : SameLine (ascii "Content-Length: 2") (ascii "Content-Length: 2") :=
      ⟨ascii "Content-Length", ascii "Content-Length", ascii " 2", by decide⟩
    have htrace : SameLine (ascii "x-trace" ++ ascii ": 1") (ascii "X-TRACE" ++ ascii ": 1") :=
      ⟨ascii "x-trace", ascii "X-TRACE", ascii " 1", by decide⟩
    constructor
    · change ascii "POST / HTTP/1.1" = ascii "POST / HTTP/1.1"
      rfl
    · exact .cons hlength (.cons htrace .nil)
    · decide +kernel
  have hlower : lower.fields =
      [(ascii "Content-Length", ascii "2"), (ascii "x-trace", ascii "1")] := by decide +kernel
  have hupper : upper.fields =
      [(ascii "Content-Length", ascii "2"), (ascii "X-TRACE", ascii "1")] := by decide +kernel
  have halike : ∀ {name acted}, name ≠ ascii "x-trace" → name ≠ ascii "X-TRACE" →
      SpelledAlike name acted lower upper := by
    intro name acted hl hu value _
    rw [hlower, hupper]
    simp [hl, hu]
  have hnames : NamesAlike lower upper := by
    constructor
    · exact fun _ => halike (by decide) (by decide)
    · exact fun _ => halike (by decide) (by decide)
    · exact fun _ => halike (by decide) (by decide)
    · exact fun _ => halike (by decide) (by decide)
  exact ⟨hsame, (treatedAlike_iff_namesAlike hsame).mpr hnames⟩

/-- Written `content-length`, the length of a POST is missing. -/
theorem lower_case_refused :
    (feedChunks .new (Buffer.new 0)
      [(ascii "POST / HTTP/1.1\r\nContent-Length: 2\r\n\r\nok", 1)]).outcome = some .gotAll ∧
    (feedChunks .new (Buffer.new 0)
      [(ascii "POST / HTTP/1.1\r\ncontent-length: 2\r\n\r\nok", 1)]).outcome = some .refused := by
  decide +kernel

end RequestHead

end MuduoPlus
