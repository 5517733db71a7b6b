import MuduoPlus.HttpHead
import MuduoPlus.HttpResponseReader

namespace MuduoPlus

/-- A text cut at every line end. -/
def splitLines (text : Bytes) : List Bytes :=
  match _h : cutLine text with
  | some (line, rest) => line :: splitLines rest
  | none => [text]
termination_by text.length
decreasing_by
  have := cutPair_length _h
  omega

/-- The lines of a message up to its first empty line, and what stands behind that. -/
def headLines (text : Bytes) : Option (List Bytes × Bytes) :=
  (cutText (kCRLF ++ kCRLF) text).map fun p => (splitLines p.1, p.2)

section Lines

variable {line rest : Bytes}

theorem splitLines_append (h : ¬kCRLF <:+: line) (rest : Bytes) :
    splitLines (line ++ kCRLF ++ rest) = line :: splitLines rest := by
  have hcut := cutLine_append h rest
  rw [splitLines]
  split
  next hc =>
    rw [hcut] at hc
    cases hc
    rfl
  next hc =>
    rw [hcut] at hc
    cases hc

theorem splitLines_last (h : ¬kCRLF <:+: line) : splitLines line = [line] := by
  have hcut : cutLine line = none := cutPair_eq_none_iff.mpr h
  rw [splitLines]
  split
  next hc =>
    rw [hcut] at hc
    cases hc
  next => rfl

/-- A line end starts neither inside a line nor at its last byte. -/
theorem not_crlf_prefix (hne : line ≠ []) (h : ¬kCRLF <:+: line) (rest : Bytes) :
    ¬kCRLF <+: line ++ kCRLF ++ rest := by
  rintro ⟨tail, ht⟩
  cases line with
  | nil => exact hne rfl
  | cons x xs =>
    cases xs with
    | nil =>
      simp only [kCRLF, List.cons_append, List.nil_append, List.cons.injEq] at ht
      exact absurd ht.2.1 (by decide)
    | cons y ys =>
      simp only [kCRLF, List.cons_append, List.nil_append, List.cons.injEq] at ht
      apply h
      rw [kCRLF, ht.1, ht.2.1]
      exact ⟨[], ys, rfl⟩

theorem cutText_line (h : ¬kCRLF <:+: line) (rest : Bytes) :
    cutText (kCRLF ++ kCRLF) (line ++ kCRLF ++ rest) =
      (cutText (kCRLF ++ kCRLF) (kCRLF ++ rest)).map fun p => (line ++ p.1, p.2) := by
  induction line with
  | nil => simp
  | cons x xs ih =>
    have hstart : ¬kCRLF ++ kCRLF <+: x :: xs ++ kCRLF ++ rest := fun hp =>
      not_crlf_prefix (List.cons_ne_nil x xs) h rest ((List.prefix_append kCRLF kCRLF).trans hp)
    have hrest := ih fun hi => h (hi.trans (List.suffix_cons x xs).isInfix)
    rw [List.cons_append, List.cons_append] at hstart ⊢
    rw [cutText_cons hstart, hrest, Option.map_map]
    rfl

theorem cutText_lineEnd (h : ¬kCRLF <+: rest) :
    cutText (kCRLF ++ kCRLF) (kCRLF ++ rest) =
      (cutText (kCRLF ++ kCRLF) rest).map fun p => (kCRLF ++ p.1, p.2) := by
  have hcr : ¬kCRLF ++ kCRLF <+: chCR :: chLF :: rest := by
    intro hp
    exact h ((List.prefix_append_right_inj kCRLF).mp hp)
  have hlf : ¬kCRLF ++ kCRLF <+: chLF :: rest := by
    rintro ⟨tail, ht⟩
    rw [kCRLF, List.append_assoc, List.cons_append, List.cons.injEq] at ht
    exact absurd ht.1 (by decide)
  change cutText (kCRLF ++ kCRLF) (chCR :: chLF :: rest) = _
  rw [cutText_cons hcr, cutText_cons hlf, Option.map_map]
  rfl

/-- Lines that are not empty and have no line end in them, each with its line end, then an empty
line: they are the lines of the head. -/
theorem headLines_headerText {lines : List Bytes} (hne : lines ≠ [])
    (hl : ∀ line ∈ lines, line ≠ [] ∧ ¬kCRLF <:+: line) (body : Bytes) :
    headLines (headerText lines ++ (kCRLF ++ body)) = some (lines, body) := by
  induction lines with
  | nil => exact absurd rfl hne
  | cons line lines ih =>
    have hline := (hl line List.mem_cons_self).2
    have hsplit : headerText (line :: lines) ++ (kCRLF ++ body) =
        line ++ kCRLF ++ (headerText lines ++ (kCRLF ++ body)) := by simp [headerText]
    unfold headLines
    rw [hsplit, cutText_line hline]
    cases lines with
    | nil =>
      have hblank : cutText (kCRLF ++ kCRLF) (kCRLF ++ (headerText [] ++ (kCRLF ++ body))) =
          some ([], body) := by
        have happ : kCRLF ++ (headerText [] ++ (kCRLF ++ body)) = kCRLF ++ kCRLF ++ body := by
          simp [headerText]
        rw [happ]
        exact cutText_prefix (by decide) body
      rw [hblank, Option.map_some, Option.map_some, List.append_nil, splitLines_last hline]
    | cons next lines =>
      obtain ⟨hnext, hclean⟩ := hl next (by simp)
      have hstart : ¬kCRLF <+: headerText (next :: lines) ++ (kCRLF ++ body) := by
        have happ : headerText (next :: lines) ++ (kCRLF ++ body) =
            next ++ kCRLF ++ (headerText lines ++ (kCRLF ++ body)) := by simp [headerText]
        rw [happ]
        exact not_crlf_prefix hnext hclean _
      have hrest := ih (List.cons_ne_nil next lines) fun l hm => hl l (List.mem_cons_of_mem line hm)
      obtain ⟨⟨head, after⟩, hcut, he⟩ := Option.map_eq_some_iff.mp hrest
      obtain ⟨hlines, rfl⟩ := Prod.mk.inj he
      have happ : line ++ (kCRLF ++ head) = line ++ kCRLF ++ head := by simp
      rw [cutText_lineEnd hstart, hcut, Option.map_some, Option.map_some, Option.map_some, happ,
        splitLines_append hline, hlines]

end Lines

namespace HttpResponse

variable {resp : HttpResponse}

/-- The status line, the lines of `Content-Length` and `Connection`, and one line for each header
that was set. -/
def lines (resp : HttpResponse) : List Bytes :=
  resp.statusLine :: resp.wireHeaders.map headerLine

theorem text_eq_lines (resp : HttpResponse) :
    resp.text = headerText resp.lines ++ (kCRLF ++ resp.body) := by
  rw [text_eq, lines, headerText, List.map_cons, List.flatten_cons, List.map_map,
    List.append_assoc, List.append_assoc, List.flatMap_def]
  rfl

theorem readable_appendToBuffer (resp : HttpResponse) (initialSize : Nat) :
    (resp.appendToBuffer (Buffer.new initialSize)).readable = resp.text := by
  have hread := (foldl_append_valid resp.pieces (Buffer.new_valid initialSize)).2
  rw [Buffer.new_readable, List.nil_append] at hread
  exact hread

/-- What has to hold for no header to end its line: names without CR, values without a line end. -/
structure LinesWhole (resp : HttpResponse) : Prop where
  message : chCR ∉ resp.statusMessage
  header : ∀ header ∈ resp.headers, chCR ∉ header.1 ∧ ¬kCRLF <:+: header.2

/-- In front of a text that has no line end, bytes other than CR make none. -/
theorem not_crlf_infix_append {front text : Bytes} (hf : chCR ∉ front) (h : ¬kCRLF <:+: text) :
    ¬kCRLF <:+: front ++ text := by
  induction front with
  | nil => exact h
  | cons x xs ih =>
    rw [List.mem_cons, not_or] at hf
    rw [List.cons_append, List.infix_cons_iff]
    rintro (⟨tail, ht⟩ | hi)
    · rw [kCRLF, List.cons_append, List.cons.injEq] at ht
      exact hf.1 ht.1
    · exact ih hf.2 hi

theorem not_crlf_infix_headerLine {header : Bytes × Bytes} (hn : chCR ∉ header.1)
    (hv : ¬kCRLF <:+: header.2) : ¬kCRLF <:+: headerLine header := by
  have hsep : chCR ∉ header.1 ++ [chColon, chSpace] := by
    simp only [List.mem_append, List.mem_cons, List.not_mem_nil, or_false, not_or]
    exact ⟨hn, by decide, by decide⟩
  have happ : headerLine header = header.1 ++ [chColon, chSpace] ++ header.2 := by
    simp [headerLine]
  rw [happ]
  exact not_crlf_infix_append hsep hv

theorem LinesWhole.lines (h : resp.LinesWhole) :
    ∀ line ∈ resp.lines, line ≠ [] ∧ ¬kCRLF <:+: line := by
  have hno : ∀ {s : Bytes}, chCR ∉ s → ¬kCRLF <:+: s := fun hs => pair_not_infix_of_not_mem hs
  have hwire : ∀ header ∈ resp.wireHeaders, chCR ∉ header.1 ∧ ¬kCRLF <:+: header.2 := by
    intro header hm
    rcases List.mem_append.mp hm with hf | hg
    · split at hf
      · rw [List.mem_singleton.mp hf]
        exact ⟨by decide, hno (by decide)⟩
      · rcases List.mem_cons.mp hf with rfl | hf
        · have hname : chCR ∉ ascii "Content-Length" := by decide
          exact ⟨hname, hno (not_mem_decimal (by decide) _)⟩
        · rw [List.mem_singleton.mp hf]
          exact ⟨by decide, hno (by decide)⟩
    · exact h.header header hg
  intro line hm
  rcases List.mem_cons.mp hm with rfl | hm
  · refine ⟨by simp [statusLine, ascii], hno ?_⟩
    have hfixed : chCR ∉ ascii "HTTP/1.1 " := by decide
    simp only [statusLine, List.mem_append, List.mem_cons, not_or]
    exact ⟨hfixed, not_mem_decimal (by decide) _, by decide, h.message⟩
  · obtain ⟨header, hmem, rfl⟩ := List.mem_map.mp hm
    obtain ⟨hname, hvalue⟩ := hwire header hmem
    exact ⟨by simp [headerLine], not_crlf_infix_headerLine hname hvalue⟩

/-- The serialized response has the lines that it should have, and its body behind them. -/
theorem LinesWhole.headLines (h : resp.LinesWhole) :
    MuduoPlus.headLines resp.text = some (resp.lines, resp.body) := by
  rw [text_eq_lines]
  exact headLines_headerText (List.cons_ne_nil _ _) h.lines resp.body

end HttpResponse

end MuduoPlus
