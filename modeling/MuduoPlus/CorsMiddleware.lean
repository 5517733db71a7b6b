import MuduoPlus.HttpHeadLines
import MuduoPlus.HttpSegmentation
import MuduoPlus.NumberText

namespace MuduoPlus

structure CorsConfig where
  allowedOrigins : List Bytes := []
  allowedMethods : List Bytes := []
  allowedHeaders : List Bytes := []
  exposedHeaders : List Bytes := []
  allowCredentials : Bool := false
  allowAllOrigins : Bool := false
  maxAge : Int32 := 3600

def CorsConfig.defaultConfig : CorsConfig where
  allowedOrigins := [ascii "*"]
  allowedMethods := [ascii "GET", ascii "POST", ascii "PUT", ascii "DELETE", ascii "OPTIONS"]
  allowedHeaders := [ascii "Content-Type", ascii "Authorization"]
  allowAllOrigins := true

namespace CorsMiddleware

def join (v : List Bytes) (delim : Bytes) : Bytes := delim.intercalate v

def isOriginAllowed (config : CorsConfig) (origin : Bytes) : Bool :=
  config.allowAllOrigins || config.allowedOrigins.contains origin

def addCorsHeaders (config : CorsConfig) (resp : HttpResponse) (origin : Bytes) : HttpResponse :=
  let resp :=
    if config.allowAllOrigins && !config.allowCredentials then
      resp.addHeader (ascii "Access-Control-Allow-Origin") (ascii "*")
    else
      (resp.addHeader (ascii "Access-Control-Allow-Origin") origin).addHeader (ascii "Vary")
        (ascii "Origin")
  let resp :=
    if config.allowCredentials then
      resp.addHeader (ascii "Access-Control-Allow-Credentials") (ascii "true")
    else resp
  if config.exposedHeaders ≠ [] then
    resp.addHeader (ascii "Access-Control-Expose-Headers") (join config.exposedHeaders (ascii ", "))
  else resp

/-- The allowed headers, or those that the client asks for. -/
def addAllowedHeaders (config : CorsConfig) (req : HttpRequest) (resp : HttpResponse) :
    HttpResponse :=
  if config.allowedHeaders ≠ [] then
    resp.addHeader (ascii "Access-Control-Allow-Headers") (join config.allowedHeaders (ascii ", "))
  else
    let reqHdrs := req.getHeader (ascii "Access-Control-Request-Headers")
    if reqHdrs ≠ [] then resp.addHeader (ascii "Access-Control-Allow-Headers") reqHdrs else resp

def handlePreflightRequest (config : CorsConfig) (req : HttpRequest) (resp : HttpResponse) :
    HttpResponse :=
  let resp := (resp.setStatusCode .k200Ok).setStatusMessage (ascii "OK")
  let resp := addCorsHeaders config resp (req.getHeader (ascii "Origin"))
  let resp :=
    if config.allowedMethods ≠ [] then
      resp.addHeader (ascii "Access-Control-Allow-Methods") (join config.allowedMethods (ascii ", "))
    else resp
  let resp := addAllowedHeaders config req resp
  let resp :=
    if 0 < config.maxAge then
      resp.addHeader (ascii "Access-Control-Max-Age") (decimalInt config.maxAge.toInt)
    else resp
  resp.setBody []

/-- `handle`; `false` stops the chain. The request is not changed. -/
def handle (config : CorsConfig) (req : HttpRequest) (resp : HttpResponse) : Bool × HttpResponse :=
  let origin := req.getHeader (ascii "Origin")
  if origin = [] then (true, resp)
  else if !isOriginAllowed config origin then
    (false, (((resp.setStatusCode .k403Forbidden).setStatusMessage (ascii "Forbidden")).setContentType
      (ascii "text/plain; charset=utf-8")).setBody (ascii "CORS origin denied"))
  else if req.method = .kOptions then (false, handlePreflightRequest config req resp)
  else (true, addCorsHeaders config resp origin)

end CorsMiddleware

namespace HttpRequest

/-- No header value has a line end in it. -/
def ValuesWhole (req : HttpRequest) : Prop :=
  ∀ name value, req.headers.lookup name = some value → ¬kCRLF <:+: value

variable {req : HttpRequest}

theorem not_crlf_infix_nil : ¬kCRLF <:+: ([] : Bytes) :=
  pair_not_infix_of_not_mem List.not_mem_nil

theorem ValuesWhole.getHeader (h : req.ValuesWhole) (field : Bytes) :
    ¬kCRLF <:+: req.getHeader field := by
  unfold HttpRequest.getHeader
  cases hl : req.headers.lookup field with
  | none => exact not_crlf_infix_nil
  | some value => exact h field value hl

theorem trimValue_isInfix (text : Bytes) : trimValue text <:+: text :=
  (List.rdropWhile_prefix isSpace _).isInfix.trans (List.dropWhile_suffix isSpace).isInfix

theorem ValuesWhole.addHeader (h : req.ValuesWhole) {field text : Bytes}
    (ht : ¬kCRLF <:+: text) : (req.addHeader field text).ValuesWhole := by
  intro name value hl
  by_cases hn : name = field
  · subst hn
    rw [HttpRequest.addHeader, Finmap.lookup_insert] at hl
    cases hl
    exact fun hi => ht (hi.trans (trimValue_isInfix text))
  · rw [HttpRequest.addHeader, Finmap.lookup_insert_of_ne _ hn] at hl
    exact h name value hl

end HttpRequest

namespace HttpContext

open HttpRequest

theorem valuesWhole_move {ctx : HttpContext} (bytes : Bytes) (h : ctx.request.ValuesWhole) :
    match move ctx bytes with
    | .wait => True
    | .go ctx' _ => ctx'.request.ValuesWhole
    | .stop _ ctx' _ => ctx'.request.ValuesWhole := by
  have hline : ∀ line, (processRequestLine ctx.request line).2.ValuesWhole := by
    intro line name value hl
    rw [(processRequestLine_keeps ctx.request line).1] at hl
    exact h name value hl
  unfold move
  cases hs : ctx.state with
  | kExpectRequestLine =>
    dsimp only
    cases cutLine bytes with
    | none => trivial
    | some p =>
      dsimp only
      cases (processRequestLine ctx.request p.1).1 with
      | true => exact hline p.1
      | false => exact hline p.1
  | kExpectHeaders =>
    dsimp only
    cases hc : cutLine bytes with
    | none => trivial
    | some p =>
      dsimp only
      cases hcolon : cutAt chColon p.1 with
      | some q =>
        -- The text behind the colon is part of a line, and a line has no line end in it.
        have hp : ¬kCRLF <:+: p.1 := cutPair_before hc
        rw [(cutAt_eq_some_iff.mp hcolon).1] at hp
        have htext : ¬kCRLF <:+: q.2 := fun hi =>
          hp (hi.trans ((List.suffix_cons chColon q.2).trans (List.suffix_append q.1 _)).isInfix)
        exact h.addHeader htext
      | none =>
        by_cases hblank : p.1 = []
        · simp only [hblank, if_true]
          cases he : endHeaders ctx.request with
          | body r =>
            obtain ⟨n, rfl⟩ := exists_of_endHeaders (Or.inl he)
            exact h
          | complete r =>
            obtain ⟨n, rfl⟩ := exists_of_endHeaders (Or.inr he)
            exact h
          | missingLength => exact h
          | raised e => exact h
        · simp only [hblank, if_false]
          exact h
  | kExpectBody =>
    by_cases hlt : bytes.length < ctx.request.contentLength
    · simp only [hlt, if_true]
    · simp only [hlt, if_false]
      exact h
  | kGotAll => exact h

theorem valuesWhole_run (ctx : HttpContext) (bytes : Bytes) (h : ctx.request.ValuesWhole) :
    (machine.run ctx bytes).state.request.ValuesWhole := by
  induction ctx, bytes using machine.run_induction with
  | wait ctx bytes hm =>
    rw [machine.run_wait hm]
    exact h
  | go ctx bytes ctx' rest hm ih =>
    have hstep := valuesWhole_move bytes h
    rw [machine_move] at hm
    rw [hm] at hstep
    rw [machine.run_go hm]
    exact ih hstep
  | stop ctx bytes r ctx' rest hm =>
    have hstep := valuesWhole_move bytes h
    rw [machine_move] at hm
    rw [hm] at hstep
    rw [machine.run_stop hm]
    exact hstep

theorem valuesWhole_new : HttpRequest.new.ValuesWhole := by
  intro name value hl
  rw [HttpRequest.new, Finmap.lookup_empty] at hl
  cases hl

/-- Whatever bytes arrive in whatever pieces, no header that is stored has a line end in it. -/
theorem valuesWhole_feedChunks {buf : Buffer} (hv : buf.Valid) (chunks : List (Bytes × Timestamp)) :
    (feedChunks .new buf chunks).ctx.request.ValuesWhole := by
  by_cases hc : chunks = []
  · rw [hc]
    exact valuesWhole_new
  · have heq := feedChunks_eq_run .new hv hc
    have hctx := (Halt.mk.inj heq).2.1
    have hrun := valuesWhole_run new.untimed (buf.readable ++ (chunks.map Prod.fst).flatten)
      valuesWhole_new
    rw [← hctx] at hrun
    exact hrun

end HttpContext

/-- No string of the configuration has a CR or LF. -/
structure CorsConfig.OneLine (config : CorsConfig) : Prop where
  origins : ∀ s ∈ config.allowedOrigins, chCR ∉ s ∧ chLF ∉ s
  methods : ∀ s ∈ config.allowedMethods, chCR ∉ s ∧ chLF ∉ s
  headers : ∀ s ∈ config.allowedHeaders, chCR ∉ s ∧ chLF ∉ s
  exposed : ∀ s ∈ config.exposedHeaders, chCR ∉ s ∧ chLF ∉ s

namespace CorsMiddleware

open HttpResponse

variable {config : CorsConfig} {req : HttpRequest} {resp : HttpResponse}

/-- The names under which `handle` sets headers. -/
def headerNames : List Bytes :=
  [ascii "Content-Type", ascii "Access-Control-Allow-Origin", ascii "Vary",
    ascii "Access-Control-Allow-Credentials", ascii "Access-Control-Expose-Headers",
    ascii "Access-Control-Allow-Methods", ascii "Access-Control-Allow-Headers",
    ascii "Access-Control-Max-Age"]

theorem headerNames_no_cr : ∀ name ∈ headerNames, chCR ∉ name := by
  decide

/-- What `handle` makes of a fresh response, step after step. -/
structure Decent (resp : HttpResponse) : Prop where
  message : chCR ∉ resp.statusMessage
  header : ∀ header ∈ resp.headers, header.1 ∈ headerNames ∧ ¬kCRLF <:+: header.2

theorem mem_mapSet {key value : Bytes} {entries : List (Bytes × Bytes)} {header : Bytes × Bytes}
    (h : header ∈ mapSet key value entries) : header = (key, value) ∨ header ∈ entries := by
  induction entries with
  | nil => exact Or.inl (List.mem_singleton.mp h)
  | cons entry entries ih =>
    obtain ⟨k, v⟩ := entry
    rw [mapSet] at h
    split at h
    · rcases List.mem_cons.mp h with h | h
      · exact Or.inl h
      · exact Or.inr h
    · split at h
      · rcases List.mem_cons.mp h with h | h
        · exact Or.inl h
        · exact Or.inr (List.mem_cons_of_mem _ h)
      · rcases List.mem_cons.mp h with h | h
        · exact Or.inr (h ▸ List.mem_cons_self)
        · exact (ih h).imp_right (List.mem_cons_of_mem _)

theorem Decent.new (close : Bool) : Decent (HttpResponse.new close) :=
  ⟨List.not_mem_nil, fun _ hm => absurd hm List.not_mem_nil⟩

theorem Decent.addHeader (h : Decent resp) {key value : Bytes} (hk : key ∈ headerNames)
    (hv : ¬kCRLF <:+: value) : Decent (resp.addHeader key value) := by
  refine ⟨h.message, fun header hm => ?_⟩
  rcases mem_mapSet hm with rfl | hm
  · exact ⟨hk, hv⟩
  · exact h.header header hm

theorem Decent.linesWhole (h : Decent resp) : resp.LinesWhole :=
  ⟨h.message, fun header hm =>
    ⟨headerNames_no_cr header.1 (h.header header hm).1, (h.header header hm).2⟩⟩

theorem join_no_cr {v : List Bytes} (hv : ∀ s ∈ v, chCR ∉ s ∧ chLF ∉ s) :
    ¬kCRLF <:+: join v (ascii ", ") := by
  apply pair_not_infix_of_not_mem
  have hdelim : chCR ∉ ascii ", " := by decide
  induction v with
  | nil => exact List.not_mem_nil
  | cons s v ih =>
    have hs := (hv s List.mem_cons_self).1
    have hrest := ih fun s' hs' => hv s' (List.mem_cons_of_mem s hs')
    cases v with
    | nil => simpa [join] using hs
    | cons s' v =>
      unfold join at hrest ⊢
      rw [List.intercalate_cons_cons, List.mem_append, List.mem_append]
      rintro ((hm | hm) | hm)
      · exact hs hm
      · exact hdelim hm
      · exact hrest hm

theorem Decent.addCorsHeaders (h : Decent resp) (hconfig : config.OneLine) {origin : Bytes}
    (ho : ¬kCRLF <:+: origin) : Decent (addCorsHeaders config resp origin) := by
  have hno : ∀ {s : Bytes}, chCR ∉ s → ¬kCRLF <:+: s := fun hs => pair_not_infix_of_not_mem hs
  have horigin : Decent (if config.allowAllOrigins && !config.allowCredentials then
      resp.addHeader (ascii "Access-Control-Allow-Origin") (ascii "*")
    else
      (resp.addHeader (ascii "Access-Control-Allow-Origin") origin).addHeader (ascii "Vary")
        (ascii "Origin")) := by
    split
    · exact h.addHeader (by simp [headerNames]) (hno (by decide))
    · exact (h.addHeader (by simp [headerNames]) ho).addHeader (by simp [headerNames]) (hno (by decide))
  unfold CorsMiddleware.addCorsHeaders
  dsimp only
  generalize (if config.allowAllOrigins && !config.allowCredentials then
      resp.addHeader (ascii "Access-Control-Allow-Origin") (ascii "*")
    else
      (resp.addHeader (ascii "Access-Control-Allow-Origin") origin).addHeader (ascii "Vary")
        (ascii "Origin")) = withOrigin at horigin ⊢
  have hcredentials : Decent (if config.allowCredentials then
      withOrigin.addHeader (ascii "Access-Control-Allow-Credentials") (ascii "true")
    else withOrigin) := by
    split
    · exact horigin.addHeader (by simp [headerNames]) (hno (by decide))
    · exact horigin
  split
  · exact hcredentials.addHeader (by simp [headerNames]) (join_no_cr hconfig.exposed)
  · exact hcredentials

theorem Decent.addAllowedHeaders (h : Decent resp) (hconfig : config.OneLine)
    (hreq : req.ValuesWhole) : Decent (addAllowedHeaders config req resp) := by
  unfold CorsMiddleware.addAllowedHeaders
  split
  · exact h.addHeader (by simp [headerNames]) (join_no_cr hconfig.headers)
  · dsimp only
    split
    · exact h.addHeader (by simp [headerNames]) (hreq.getHeader _)
    · exact h

theorem decimalInt_no_cr (i : Int) : chCR ∉ decimalInt i := fun hm =>
  absurd (isNumberByte_decimalInt chCR hm).1 (by decide)

theorem Decent.handlePreflightRequest (h : Decent resp) (hconfig : config.OneLine)
    (hreq : req.ValuesWhole) : Decent (handlePreflightRequest config req resp) := by
  have hmessage : chCR ∉ ascii "OK" := by decide
  have hok : Decent ((resp.setStatusCode .k200Ok).setStatusMessage (ascii "OK")) :=
    ⟨hmessage, h.header⟩
  have hcors := hok.addCorsHeaders hconfig (hreq.getHeader (ascii "Origin"))
  unfold CorsMiddleware.handlePreflightRequest
  dsimp only
  generalize CorsMiddleware.addCorsHeaders config _ _ = cors at hcors ⊢
  have hmethods : Decent (if config.allowedMethods ≠ [] then
      cors.addHeader (ascii "Access-Control-Allow-Methods")
        (join config.allowedMethods (ascii ", "))
    else cors) := by
    split
    · exact hcors.addHeader (by simp [headerNames]) (join_no_cr hconfig.methods)
    · exact hcors
  have hheaders := hmethods.addAllowedHeaders hconfig hreq
  generalize CorsMiddleware.addAllowedHeaders config req _ = allowed at hheaders ⊢
  split
  · have hname : ascii "Access-Control-Max-Age" ∈ headerNames := by simp [headerNames]
    have hage := hheaders.addHeader hname
      (pair_not_infix_of_not_mem (decimalInt_no_cr config.maxAge.toInt))
    exact ⟨hage.message, hage.header⟩
  · exact ⟨hheaders.message, hheaders.header⟩

theorem Decent.handle (h : Decent resp) (hconfig : config.OneLine) (hreq : req.ValuesWhole) :
    Decent (handle config req resp).2 := by
  unfold CorsMiddleware.handle
  dsimp only
  split
  · exact h
  · split
    · have hmessage : chCR ∉ ascii "Forbidden" := by decide
      have hdenied : Decent ((resp.setStatusCode .k403Forbidden).setStatusMessage
        (ascii "Forbidden")) := ⟨hmessage, h.header⟩
      have hname : ascii "Content-Type" ∈ headerNames := by simp [headerNames]
      have htext : chCR ∉ ascii "text/plain; charset=utf-8" := by decide
      have htype := hdenied.addHeader hname (pair_not_infix_of_not_mem htext)
      exact ⟨htype.message, htype.header⟩
    · split
      · exact h.handlePreflightRequest hconfig hreq
      · exact h.addCorsHeaders hconfig (hreq.getHeader _)

/-- Whatever bytes the parser is fed, the answer that `handle` begins has the status line, the lines
of `Content-Length` and `Connection` and one line for each header that was set, each under one of
its own names, and nothing else before the empty line. -/
theorem handle_headLines (hconfig : config.OneLine) {buf : Buffer} (hv : buf.Valid)
    (chunks : List (Bytes × Timestamp)) (close : Bool) (initialSize : Nat) :
    let req := (HttpContext.feedChunks .new buf chunks).ctx.request
    let resp := (handle config req (.new close)).2
    headLines (resp.appendToBuffer (Buffer.new initialSize)).readable =
        some (resp.statusLine :: resp.wireHeaders.map headerLine, resp.body) ∧
      ∀ header ∈ resp.headers, header.1 ∈ headerNames := by
  intro req resp
  have hreq : req.ValuesWhole := HttpContext.valuesWhole_feedChunks hv chunks
  have hresp : Decent resp := (Decent.new close).handle hconfig hreq
  rw [readable_appendToBuffer]
  exact ⟨hresp.linesWhole.headLines, fun header hm => (hresp.header header hm).1⟩

def echoConfig : CorsConfig where
  allowCredentials := true
  allowAllOrigins := true

/-- A preflight request with lone CRs and LFs in the two headers that are echoed. -/
def splitAttempt : List (Bytes × Timestamp) :=
  [(ascii "OPTIONS / HTTP/1.1\r\nOrigin: a\rSet-Cookie: x\n\rb\r\r\n", 1),
    (ascii "Access-Control-Request-Headers: \nq\nSet-Cookie: y\n\r\n\r\n", 2)]

theorem handle_headLines_splitAttempt :
    (HttpContext.feedChunks .new (Buffer.new 0) splitAttempt).outcome = some .gotAll ∧
    let resp := (handle echoConfig
      (HttpContext.feedChunks .new (Buffer.new 0) splitAttempt).ctx.request (.new true)).2
    resp.headers.map Prod.fst = [ascii "Access-Control-Allow-Credentials",
        ascii "Access-Control-Allow-Headers", ascii "Access-Control-Allow-Origin",
        ascii "Access-Control-Max-Age", ascii "Vary"] ∧
      headLines (resp.appendToBuffer (Buffer.new kInitialSize)).readable =
        some (resp.statusLine :: resp.wireHeaders.map headerLine, resp.body) := by
  have hconfig : echoConfig.OneLine := ⟨by decide, by decide, by decide, by decide⟩
  have h := handle_headLines hconfig (Buffer.new_valid 0) splitAttempt true kInitialSize
  exact ⟨by decide +kernel, by decide +kernel, h.1⟩

end CorsMiddleware

end MuduoPlus
