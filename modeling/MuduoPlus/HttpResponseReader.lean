import MuduoPlus.HttpContext
import MuduoPlus.HttpResponse

namespace MuduoPlus

/-- What a client reads of a response. -/
structure ReadResponse where
  code : Nat
  message : Bytes
  headers : List (Bytes × Bytes)
  body : Bytes
  deriving DecidableEq

namespace HttpReader

def lowerByte (b : UInt8) : UInt8 := if 65 ≤ b ∧ b ≤ 90 then b + 32 else b

/-- Names of header fields are compared without regard to the case of letters. -/
def sameName (name name' : Bytes) : Bool := name.map lowerByte == name'.map lowerByte

def field (name : Bytes) (headers : List (Bytes × Bytes)) : Option Bytes :=
  (headers.find? fun header => sameName header.1 name).map Prod.snd

/-- The fields that only say where the body ends. -/
def isFraming (header : Bytes × Bytes) : Bool :=
  sameName header.1 (ascii "Content-Length") || sameName header.1 (ascii "Connection")

def readNumber (text : Bytes) : Option Nat :=
  if text ≠ [] ∧ text.all isDigit = true then some (digitsValue text) else none

def readStatusLine (line : Bytes) : Option (Nat × Bytes) :=
  if line.take 9 = ascii "HTTP/1.1 " then
    match cutAt chSpace (line.drop 9) with
    | some (code, message) => (readNumber code).map fun n => (n, message)
    | none => none
  else none

def readHeader (line : Bytes) : Option (Bytes × Bytes) :=
  match cutAt chColon line with
  | some (name, b :: value) => if b = chSpace then some (name, value) else none
  | _ => none

/-- The header lines up to the empty one, and what stands behind it. -/
def readHeaders : Nat → Bytes → Option (List (Bytes × Bytes) × Bytes)
  | 0, _ => none
  | fuel + 1, input =>
    match cutLine input with
    | none => none
    | some (line, rest) =>
      if line = [] then some ([], rest)
      else
        match readHeader line, readHeaders fuel rest with
        | some header, some (headers, rest) => some (header :: headers, rest)
        | _, _ => none

/-- A body of `Content-Length` bytes, or all there is when the connection is to be closed. -/
def readBody (headers : List (Bytes × Bytes)) (input : Bytes) : Option (Bytes × Bytes) :=
  match field (ascii "Content-Length") headers with
  | some text =>
    match readNumber text with
    | some n => if n ≤ input.length then some (input.take n, input.drop n) else none
    | none => none
  | none => if field (ascii "Connection") headers = some (ascii "close") then some (input, []) else none

/-- One response, and what stands behind it. -/
def readResponse (input : Bytes) : Option (ReadResponse × Bytes) :=
  match cutLine input with
  | none => none
  | some (line, rest) =>
    match readStatusLine line, readHeaders rest.length rest with
    | some (code, message), some (headers, rest) =>
      (readBody headers rest).map fun (body, rest) =>
        (⟨code, message, headers.filter fun header => !isFraming header, body⟩, rest)
    | _, _ => none

/-- Responses up to the end of the input. -/
def readResponses : Nat → Bytes → Option (List ReadResponse)
  | 0, input => if input = [] then some [] else none
  | fuel + 1, input =>
    if input = [] then some []
    else
      match readResponse input with
      | some (resp, rest) => (readResponses fuel rest).map (resp :: ·)
      | none => none

def decode (input : Bytes) : Option (List ReadResponse) := readResponses input.length input

end HttpReader

/-- The text that `snprintf` leaves in a buffer of `size` bytes, up to its final NUL. -/
def snprintf (size : Nat) (text : Bytes) : Bytes := text.take (size - 1)

namespace HttpResponse

open HttpReader

/-- The calls `output->append(data, len)` of `appendToBuffer`, with the lengths as they are
written there. -/
def appendCalls (resp : HttpResponse) : List (Bytes × Nat) :=
  let line := snprintf 64 (ascii "HTTP/1.1 " ++ decimal resp.statusCode.code ++ ascii " ")
  let length := snprintf 64 (ascii "Content-Length: " ++ decimal resp.body.length ++ ascii "\r\n")
  [(line, line.length), (resp.statusMessage, resp.statusMessage.length), (ascii "\r\n", 2)] ++
  (if resp.closeConnection then [(ascii "Connection: close\r\n", 19)]
   else [(length, length.length), (ascii "Connection: Keep-Alive\r\n", 24)]) ++
  resp.headers.flatMap (fun header => [(header.1, header.1.length), (ascii ": ", 2),
    (header.2, header.2.length), (ascii "\r\n", 2)]) ++
  [(ascii "\r\n", 2), (resp.body, resp.body.length)]

/-- `appendToBuffer` with the lengths that its calls are given. -/
def appendCounted (resp : HttpResponse) (output : Buffer) : Buffer :=
  resp.appendCalls.foldl (fun output call => output.append (call.1.take call.2)) output

/-- What is asked of a response for a client to find its parts. The size of a body is a
`size_t`. -/
structure Readable (resp : HttpResponse) : Prop where
  message : chCR ∉ resp.statusMessage ∧ chLF ∉ resp.statusMessage
  names : ∀ header ∈ resp.headers, header.1 ≠ [] ∧ chColon ∉ header.1 ∧ chCR ∉ header.1 ∧
    chLF ∉ header.1 ∧ isFraming header = false
  values : ∀ header ∈ resp.headers, chCR ∉ header.2 ∧ chLF ∉ header.2
  size : resp.body.length < 2 ^ 64

/-- The response as a client should read it. -/
def view (resp : HttpResponse) : ReadResponse :=
  ⟨resp.statusCode.code, resp.statusMessage, resp.headers, resp.body⟩

/-- The bytes of a response. -/
def text (resp : HttpResponse) : Bytes := resp.pieces.flatten

section Append

variable {resp : HttpResponse} {output : Buffer}

theorem snprintf_eq {size : Nat} {text : Bytes} (h : text.length < size) : snprintf size text = text :=
  List.take_of_length_le (by omega)

theorem code_lt (code : HttpStatusCode) : code.code < 10 ^ 3 := by
  cases code <;> decide

/-- Neither of the two formatted texts is cut off, and the lengths are those of the literals. -/
theorem appendCalls_eq_pieces (h : resp.body.length < 2 ^ 64) :
    (resp.appendCalls.map fun call => call.1.take call.2) = resp.pieces := by
  have hcode := length_decimal_le (by omega) (code_lt resp.statusCode)
  have hbody : (decimal resp.body.length).length ≤ 20 :=
    length_decimal_le (by omega) (h.trans (by norm_num))
  have hline : snprintf 64 (ascii "HTTP/1.1 " ++ decimal resp.statusCode.code ++ ascii " ") = _ :=
    snprintf_eq (by
      rw [List.length_append, List.length_append]
      change 9 + _ + 1 < 64
      omega)
  have hlength : snprintf 64
      (ascii "Content-Length: " ++ decimal resp.body.length ++ ascii "\r\n") = _ :=
    snprintf_eq (by
      rw [List.length_append, List.length_append]
      change 16 + _ + 2 < 64
      omega)
  have hclose : (ascii "Connection: close\r\n").take 19 = ascii "Connection: close\r\n" := by decide
  have hkeep : (ascii "Connection: Keep-Alive\r\n").take 24 = ascii "Connection: Keep-Alive\r\n" := by
    decide
  have hcrlf : (ascii "\r\n").take 2 = ascii "\r\n" := by decide
  have hcolon : (ascii ": ").take 2 = ascii ": " := by decide
  unfold appendCalls pieces
  dsimp only
  rw [hline, hlength]
  simp only [List.map_append, List.map_cons, List.map_nil, List.take_length, hcrlf, hcolon,
    List.map_flatMap]
  split
  next => simp only [List.map_cons, List.map_nil, hclose]
  next => simp only [List.map_cons, List.map_nil, hkeep, List.take_length]

theorem appendCounted_eq (h : resp.body.length < 2 ^ 64) (output : Buffer) :
    resp.appendCounted output = resp.appendToBuffer output := by
  rw [appendCounted, appendToBuffer, ← appendCalls_eq_pieces h, List.foldl_map]

theorem foldl_append_valid (pieces : List Bytes) (hv : output.Valid) :
    (pieces.foldl Buffer.append output).Valid ∧
      (pieces.foldl Buffer.append output).readable = output.readable ++ pieces.flatten := by
  induction pieces generalizing output with
  | nil => exact ⟨hv, by simp⟩
  | cons piece pieces ih =>
    obtain ⟨hvalid, hread⟩ := ih (Buffer.append_valid hv piece)
    refine ⟨hvalid, ?_⟩
    rw [List.foldl_cons, hread, Buffer.append_readable hv, List.flatten_cons, List.append_assoc]

/-- The buffer then holds the texts of the responses, one behind the other. -/
theorem appendAll_readable {resps : List HttpResponse} (h : ∀ resp ∈ resps, Readable resp)
    (hv : output.Valid) :
    (resps.foldl (fun output resp => resp.appendCounted output) output).readable =
      output.readable ++ resps.flatMap text := by
  induction resps generalizing output with
  | nil => simp
  | cons resp resps ih =>
    obtain ⟨hvalid, hread⟩ := foldl_append_valid resp.pieces hv
    have hrest := ih (fun r hr => h r (List.mem_cons_of_mem resp hr)) hvalid
    rw [List.foldl_cons, appendCounted_eq (h resp List.mem_cons_self).size, appendToBuffer, hrest,
      hread, List.flatMap_cons, List.append_assoc]
    rfl

end Append

/-- All header fields of a response, those that frame it first. -/
def wireHeaders (resp : HttpResponse) : List (Bytes × Bytes) :=
  (if resp.closeConnection then [(ascii "Connection", ascii "close")]
   else [(ascii "Content-Length", decimal resp.body.length),
     (ascii "Connection", ascii "Keep-Alive")]) ++ resp.headers

def headerLine (header : Bytes × Bytes) : Bytes := header.1 ++ chColon :: chSpace :: header.2

def statusLine (resp : HttpResponse) : Bytes :=
  ascii "HTTP/1.1 " ++ (decimal resp.statusCode.code ++ chSpace :: resp.statusMessage)

section Read

variable {resp : HttpResponse} {header : Bytes × Bytes} {headers : List (Bytes × Bytes)}
  {line rest : Bytes}

theorem cutLine_append (h : chCR ∉ line) (rest : Bytes) :
    cutLine (line ++ (kCRLF ++ rest)) = some (line, rest) :=
  cutPair_of_not_infix (by decide) (pair_not_infix_of_not_mem h)

theorem text_eq (resp : HttpResponse) :
    resp.text = resp.statusLine ++ (kCRLF ++
      (resp.wireHeaders.flatMap (fun header => headerLine header ++ kCRLF) ++
        (kCRLF ++ resp.body))) := by
  have hspace : ascii " " = [chSpace] := by decide
  have hcrlf : ascii "\r\n" = kCRLF := by decide
  have hcolon : ascii ": " = [chColon, chSpace] := by decide
  have hclose : ascii "Connection: close\r\n" =
      headerLine (ascii "Connection", ascii "close") ++ kCRLF := by decide
  have hkeep : ascii "Connection: Keep-Alive\r\n" =
      headerLine (ascii "Connection", ascii "Keep-Alive") ++ kCRLF := by decide
  have hlength : ascii "Content-Length: " = ascii "Content-Length" ++ [chColon, chSpace] := by decide
  have hgiven : ∀ hs : List (Bytes × Bytes),
      (hs.flatMap fun header => [header.1, ascii ": ", header.2, ascii "\r\n"]).flatten =
        hs.flatMap fun header => headerLine header ++ kCRLF := by
    intro hs
    induction hs with
    | nil => rfl
    | cons header hs ih =>
      rw [List.flatMap_cons, List.flatten_append, ih, List.flatMap_cons]
      simp only [List.flatten_cons, List.flatten_nil, hcolon, hcrlf, headerLine, List.append_assoc,
        List.cons_append, List.nil_append]
  unfold text pieces wireHeaders statusLine
  rw [List.flatMap_append, List.flatten_append, List.flatten_append, List.flatten_append, hgiven]
  cases resp.closeConnection with
  | true =>
    simp only [if_true, List.flatten_cons, List.flatten_nil, List.flatMap_cons, List.flatMap_nil,
      hclose, hspace, hcrlf, List.append_assoc, List.cons_append, List.nil_append, List.append_nil]
  | false =>
    simp only [Bool.false_eq_true, if_false, List.flatten_cons, List.flatten_nil,
      List.flatMap_cons, List.flatMap_nil, hkeep, hlength, hspace, hcrlf, headerLine,
      List.append_assoc, List.cons_append, List.nil_append, List.append_nil]

theorem readNumber_decimal (n : Nat) : readNumber (decimal n) = some n := by
  unfold readNumber
  rw [if_pos ⟨decimal_ne_nil n, List.all_eq_true.mpr isDigit_decimal⟩, digitsValue_decimal]

theorem readStatusLine_statusLine (resp : HttpResponse) :
    readStatusLine resp.statusLine = some (resp.statusCode.code, resp.statusMessage) := by
  have htake : resp.statusLine.take 9 = ascii "HTTP/1.1 " := List.take_left' (by decide)
  have hdrop : resp.statusLine.drop 9 =
      decimal resp.statusCode.code ++ chSpace :: resp.statusMessage := List.drop_left' (by decide)
  unfold readStatusLine
  rw [if_pos htake, hdrop, cutAt_append (not_mem_decimal (by decide) _)]
  dsimp only
  rw [readNumber_decimal]
  rfl

theorem statusLine_no_cr (h : Readable resp) : chCR ∉ resp.statusLine := by
  have hfixed : chCR ∉ ascii "HTTP/1.1 " := by decide
  have hcode := not_mem_decimal (b := chCR) (by decide) resp.statusCode.code
  simp only [statusLine, List.mem_append, List.mem_cons, not_or]
  exact ⟨hfixed, hcode, by decide, h.message.1⟩

/-- A header line that can be read back. -/
structure ReadableHeader (header : Bytes × Bytes) : Prop where
  colon : chColon ∉ header.1
  name : chCR ∉ header.1
  value : chCR ∉ header.2

theorem headerLine_no_cr (h : ReadableHeader header) : chCR ∉ headerLine header := by
  simp only [headerLine, List.mem_append, List.mem_cons, not_or]
  exact ⟨h.name, by decide, by decide, h.value⟩

theorem readHeader_headerLine (h : ReadableHeader header) :
    readHeader (headerLine header) = some header := by
  unfold readHeader headerLine
  rw [cutAt_append h.colon]
  rfl

theorem readHeaders_lines (h : ∀ header ∈ headers, ReadableHeader header) {fuel : Nat}
    (hfuel : headers.length < fuel) (rest : Bytes) :
    readHeaders fuel (headers.flatMap (fun header => headerLine header ++ kCRLF) ++
      (kCRLF ++ rest)) = some (headers, rest) := by
  induction headers generalizing fuel with
  | nil =>
    obtain ⟨fuel, rfl⟩ : ∃ n, fuel = n + 1 := ⟨fuel - 1, by omega⟩
    have hempty : cutLine (kCRLF ++ rest) = some ([], rest) := cutLine_append List.not_mem_nil rest
    rw [List.flatMap_nil, List.nil_append, readHeaders, hempty]
    rfl
  | cons header headers ih =>
    rw [List.length_cons] at hfuel
    obtain ⟨fuel, rfl⟩ : ∃ n, fuel = n + 1 := ⟨fuel - 1, by omega⟩
    have hheader := h header List.mem_cons_self
    have hlt : headers.length < fuel := by omega
    have hrest := ih (fun other ho => h other (List.mem_cons_of_mem header ho)) hlt
    have hne : headerLine header ≠ [] := by simp [headerLine]
    rw [List.flatMap_cons, List.append_assoc, List.append_assoc, readHeaders,
      cutLine_append (headerLine_no_cr hheader)]
    dsimp only
    rw [if_neg hne, readHeader_headerLine hheader, hrest]

theorem length_le_lines (headers : List (Bytes × Bytes)) :
    headers.length ≤ (headers.flatMap fun header => headerLine header ++ kCRLF).length := by
  induction headers with
  | nil => exact Nat.le_refl 0
  | cons header headers ih =>
    have hcrlf : kCRLF.length = 2 := rfl
    rw [List.flatMap_cons, List.length_append, List.length_append, List.length_cons]
    omega

theorem wireHeaders_readable (h : Readable resp) :
    ∀ header ∈ resp.wireHeaders, ReadableHeader header := by
  intro header hm
  rcases List.mem_append.mp hm with hm | hm
  · -- the fields that the server adds: a number, or fixed texts
    have hcolon : chColon ∉ ascii "Connection" := by decide
    have hcr : chCR ∉ ascii "Connection" := by decide
    have hcolon' : chColon ∉ ascii "Content-Length" := by decide
    have hcr' : chCR ∉ ascii "Content-Length" := by decide
    split at hm
    next =>
      rw [List.mem_singleton.mp hm]
      exact ⟨hcolon, hcr, by decide⟩
    next =>
      rcases List.mem_cons.mp hm with rfl | hm
      · exact ⟨hcolon', hcr', not_mem_decimal (by decide) _⟩
      · rw [List.mem_singleton.mp hm]
        exact ⟨hcolon, hcr, by decide⟩
  · obtain ⟨-, hcolon, hcr, -, -⟩ := h.names header hm
    exact ⟨hcolon, hcr, (h.values header hm).1⟩

theorem field_cons_same {name name' : Bytes} (h : sameName name' name = true) (value : Bytes) :
    field name ((name', value) :: headers) = some value := by
  unfold field
  rw [List.find?_cons_of_pos (a := (name', value)) h]
  rfl

theorem field_cons_other {name name' : Bytes} (h : sameName name' name = false) (value : Bytes) :
    field name ((name', value) :: headers) = field name headers := by
  unfold field
  rw [List.find?_cons_of_neg (a := (name', value)) (by rw [h]; exact Bool.false_ne_true)]

theorem field_given_eq_none (h : Readable resp) :
    field (ascii "Content-Length") resp.headers = none := by
  unfold field
  refine Option.map_eq_none_iff.mpr (List.find?_eq_none.mpr ?_)
  intro header hm hsame
  have hframing := (h.names header hm).2.2.2.2
  rw [isFraming, hsame, Bool.true_or] at hframing
  cases hframing

theorem filter_wireHeaders (h : Readable resp) :
    (resp.wireHeaders.filter fun header => !isFraming header) = resp.headers := by
  have hgiven : (resp.headers.filter fun header => !isFraming header) = resp.headers := by
    apply List.filter_eq_self.mpr
    intro header hm
    rw [(h.names header hm).2.2.2.2]
    rfl
  have hlength : ∀ value, isFraming (ascii "Content-Length", value) = true := by
    intro value
    have hsame : sameName (ascii "Content-Length") (ascii "Content-Length") = true := by decide
    rw [isFraming, hsame, Bool.true_or]
  have hconn : ∀ value, isFraming (ascii "Connection", value) = true := by
    intro value
    have hsame : sameName (ascii "Connection") (ascii "Connection") = true := by decide
    rw [isFraming, hsame, Bool.or_true]
  unfold wireHeaders
  rw [List.filter_append, hgiven]
  split
  next => simp [hconn]
  next => simp [hconn, hlength]

/-- With a length the body ends where the next response begins. -/
theorem readBody_open (hc : resp.closeConnection = false) (rest : Bytes) :
    readBody resp.wireHeaders (resp.body ++ rest) = some (resp.body, rest) := by
  have hfield : field (ascii "Content-Length") resp.wireHeaders =
      some (decimal resp.body.length) := by
    unfold wireHeaders
    rw [hc, if_neg Bool.false_ne_true]
    exact field_cons_same (by decide) _
  unfold readBody
  rw [hfield]
  dsimp only
  rw [readNumber_decimal]
  dsimp only
  rw [if_pos (by rw [List.length_append]; omega), List.take_left, List.drop_left]

/-- Without one it is all that is left. -/
theorem readBody_closing (h : Readable resp) (hc : resp.closeConnection = true) :
    readBody resp.wireHeaders resp.body = some (resp.body, []) := by
  have hwire : resp.wireHeaders = (ascii "Connection", ascii "close") :: resp.headers := by
    unfold wireHeaders
    rw [hc, if_pos rfl]
    rfl
  have hnone : field (ascii "Content-Length") resp.wireHeaders = none := by
    rw [hwire, field_cons_other (by decide), field_given_eq_none h]
  have hclose : field (ascii "Connection") resp.wireHeaders = some (ascii "close") := by
    rw [hwire, field_cons_same (by decide)]
  unfold readBody
  rw [hnone]
  dsimp only
  rw [if_pos hclose]

/-- A response is read up to its body, whatever stands behind it. -/
theorem readResponse_text (h : Readable resp) {rest : Bytes}
    (hbody : readBody resp.wireHeaders (resp.body ++ rest) = some (resp.body, rest)) :
    readResponse (resp.text ++ rest) = some (resp.view, rest) := by
  have hfuel : resp.wireHeaders.length <
      (resp.wireHeaders.flatMap (fun header => headerLine header ++ kCRLF) ++
        (kCRLF ++ (resp.body ++ rest))).length := by
    have hle := length_le_lines resp.wireHeaders
    have hcrlf : kCRLF.length = 2 := rfl
    rw [List.length_append, List.length_append]
    omega
  have hlines := readHeaders_lines (wireHeaders_readable h) hfuel
    (resp.body ++ rest)
  rw [text_eq]
  simp only [List.append_assoc]
  unfold readResponse
  rw [cutLine_append (statusLine_no_cr h)]
  dsimp only
  rw [readStatusLine_statusLine, hlines]
  dsimp only
  rw [hbody, filter_wireHeaders h]
  rfl

theorem text_ne_nil (resp : HttpResponse) : resp.text ≠ [] := by
  rw [text_eq]
  simp [kCRLF]

theorem readResponses_cons {rest : Bytes} {resps : List ReadResponse} {fuel : Nat}
    (hread : readResponse (resp.text ++ rest) = some (resp.view, rest))
    (hrest : readResponses fuel rest = some resps) :
    readResponses (fuel + 1) (resp.text ++ rest) = some (resp.view :: resps) := by
  have hne : resp.text ++ rest ≠ [] := fun he => text_ne_nil resp (List.append_eq_nil_iff.mp he).1
  rw [readResponses, if_neg hne, hread]
  dsimp only
  rw [hrest]
  rfl

theorem readResponses_nil (fuel : Nat) : readResponses fuel [] = some [] := by
  cases fuel with
  | zero => rfl
  | succ fuel => rfl

/-- The induction is on the responses that keep the connection open; a closing one ends it. -/
theorem readResponses_texts {resps : List HttpResponse} {last : Option HttpResponse}
    (hopen : ∀ resp ∈ resps, resp.closeConnection = false)
    (hlast : ∀ resp ∈ last, resp.closeConnection = true)
    (h : ∀ resp ∈ resps ++ last.toList, Readable resp) {fuel : Nat}
    (hfuel : (resps ++ last.toList).length ≤ fuel) :
    readResponses fuel ((resps ++ last.toList).flatMap text) =
      some ((resps ++ last.toList).map view) := by
  induction resps generalizing fuel with
  | nil =>
    cases last with
    | none => exact readResponses_nil fuel
    | some resp =>
      obtain ⟨fuel, rfl⟩ : ∃ n, fuel = n + 1 :=
        ⟨fuel - 1, by simp at hfuel; omega⟩
      have hresp : Readable resp := h resp (by simp)
      have hbody := readBody_closing hresp (hlast resp rfl)
      rw [← List.append_nil resp.body] at hbody
      have hread : readResponse (resp.text ++ []) = some (resp.view, []) :=
        readResponse_text hresp (by simpa using hbody)
      have hcons := readResponses_cons hread (readResponses_nil fuel)
      simpa using hcons
  | cons resp resps ih =>
    rw [List.cons_append, List.length_cons] at hfuel
    obtain ⟨fuel, rfl⟩ : ∃ n, fuel = n + 1 := ⟨fuel - 1, by omega⟩
    have hlen : (resps ++ last.toList).length ≤ fuel := by omega
    have hrest := ih (fun r hr => hopen r (List.mem_cons_of_mem resp hr))
      (fun r hr => h r (List.mem_cons_of_mem resp hr)) hlen
    have hread := readResponse_text (h resp List.mem_cons_self)
      (readBody_open (hopen resp List.mem_cons_self) ((resps ++ last.toList).flatMap text))
    rw [List.cons_append, List.flatMap_cons, List.map_cons]
    exact readResponses_cons hread hrest

theorem length_le_texts (resps : List HttpResponse) :
    resps.length ≤ (resps.flatMap text).length := by
  induction resps with
  | nil => exact Nat.le_refl 0
  | cons resp resps ih =>
    have hpos := List.length_pos_iff.mpr (text_ne_nil resp)
    rw [List.flatMap_cons, List.length_append, List.length_cons]
    omega

/-- Responses appended to one buffer, a closing one at most at their end, are read back as they
were. -/
theorem decode_appendCounted {initalSize : Nat} {resps : List HttpResponse}
    {last : Option HttpResponse} (hopen : ∀ resp ∈ resps, resp.closeConnection = false)
    (hlast : ∀ resp ∈ last, resp.closeConnection = true)
    (h : ∀ resp ∈ resps ++ last.toList, Readable resp) :
    decode ((resps ++ last.toList).foldl (fun output resp => resp.appendCounted output)
      (Buffer.new initalSize)).readable = some ((resps ++ last.toList).map view) := by
  rw [appendAll_readable h (Buffer.new_valid initalSize), Buffer.new_readable, List.nil_append]
  exact readResponses_texts hopen hlast h (length_le_texts _)

end Read

/-- A body that looks like the start of another response. -/
def misleading : HttpResponse :=
  ⟨.k200Ok, ascii "OK", [(ascii "X", ascii "1: 2")], ascii "\r\n\r\nHTTP/1.1 ", false⟩

def farewell : HttpResponse := ⟨.k404NotFound, [], [], ascii "\r\n", true⟩

theorem decode_appendCounted_misleading :
    decode ([misleading, farewell].foldl (fun output resp => resp.appendCounted output)
      (Buffer.new 4)).readable = some [misleading.view, farewell.view] := by
  have hmisleading : Readable misleading :=
    ⟨by decide, by decide, by decide, by decide⟩
  have hfarewell : Readable farewell := ⟨by decide, by decide, by decide, by decide⟩
  have hall : ∀ resp ∈ [misleading] ++ (some farewell).toList, Readable resp := by
    intro resp hm
    rcases List.mem_cons.mp hm with rfl | hm
    · exact hmisleading
    · rw [List.mem_singleton.mp hm]
      exact hfarewell
  have hopen : ∀ resp ∈ [misleading], resp.closeConnection = false := by
    intro resp hm
    rw [List.mem_singleton.mp hm]
    rfl
  have hlast : ∀ resp ∈ some farewell, resp.closeConnection = true := by
    intro resp hm
    rw [← Option.mem_some.mp hm]
    rfl
  exact @decode_appendCounted _ [misleading] (some farewell) hopen hlast hall

end HttpResponse

end MuduoPlus
