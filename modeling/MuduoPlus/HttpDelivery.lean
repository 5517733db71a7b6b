import MuduoPlus.HttpRoundTrip
import MuduoPlus.HttpServerSpec

namespace MuduoPlus

namespace WireRequest

/-- The requests of a rendered sequence whose last byte is among the first `n` bytes. -/
def completed : List WireRequest → Nat → List WireRequest
  | [], _ => []
  | r :: rs, n => if r.render.length ≤ n then r :: completed rs (n - r.render.length) else []

theorem completed_cons_inside {r : WireRequest} {rs : List WireRequest} {seen missing : Bytes}
    (hm : missing ≠ []) (h : r.render = seen ++ missing) : completed (r :: rs) seen.length = [] := by
  have hpos := List.length_pos_iff.mpr hm
  have hlen : ¬r.render.length ≤ seen.length := by
    rw [h, List.length_append]
    omega
  simp only [completed, hlen, if_false]

theorem completed_cons_covered (r : WireRequest) (rs : List WireRequest) (tail : Bytes) :
    completed (r :: rs) (r.render ++ tail).length = r :: completed rs tail.length := by
  simp [completed]

theorem completed_append (front back : List WireRequest) (n : Nat) :
    completed (front ++ back) ((renderAll front).length + n) = front ++ completed back n := by
  induction front with
  | nil => simp [renderAll]
  | cons r front ih =>
    have hlen : (renderAll (r :: front)).length + n =
        r.render.length + ((renderAll front).length + n) := by
      simp [renderAll]
      omega
    have hle : r.render.length ≤ r.render.length + ((renderAll front).length + n) :=
      Nat.le_add_right _ _
    rw [hlen, List.cons_append, completed, if_pos hle, Nat.add_sub_cancel_left, ih]
    rfl

theorem completed_renderAll (rs : List WireRequest) : completed rs (renderAll rs).length = rs := by
  have h := completed_append rs [] 0
  simpa [completed] using h

/-- A GET without headers, whose connection stays open. -/
def healthRequest : WireRequest where
  method := .kGet
  path := ascii "/health"
  query := none
  version := ascii "HTTP/1.1"
  headers := []
  body := []

theorem healthRequest_wellFormed : healthRequest.WellFormed where
  method_ok := by decide
  path_ok := by decide +kernel
  query_ne := by decide
  key_ok := by rintro _ ⟨⟩
  value_ok := by rintro _ ⟨⟩
  version_ok := by decide
  names_nodup := by decide
  name_ok := by decide
  field_ok := by decide
  field_trimmed := by decide
  length_ok := fun h => by rcases h with h | h <;> cases h
  no_length := fun _ => ⟨rfl, by decide⟩

end WireRequest

/-- The request an event hands to `handleHttpRequest`, without its receive time. -/
def HttpEvent.request? : HttpEvent → Option HttpRequest
  | .dispatched request => some request.untimed
  | _ => none

namespace HttpServer

variable {σ : Type} {app : HttpApp σ} {s s' : HttpConn σ}

/-- The requests dispatched on the connection so far. -/
def requests (s : HttpConn σ) : List HttpRequest := s.user.log.filterMap HttpEvent.request?

def serve (app : HttpApp σ) (cut : List Delivery) (s : HttpConn σ) : HttpConn σ :=
  cut.foldl (fun s d => deliver app d s) s

def bytesOf (cut : List Delivery) : Bytes := (cut.map Delivery.chunk).flatten

theorem length_bytesOf_cons (d : Delivery) (cut : List Delivery) :
    (bytesOf (d :: cut)).length = d.chunk.length + (bytesOf cut).length := by
  simp [bytesOf]

/-- After every delivery exactly the requests that are complete by then have been
dispatched; `n` bytes came before. -/
def Prompt (app : HttpApp σ) (rs : List WireRequest) (n : Nat) (s : HttpConn σ)
    (cut : List Delivery) : Prop :=
  ∀ pre, pre <+: cut → requests (serve app pre s) =
    (WireRequest.completed rs (n + (bytesOf pre).length)).map WireRequest.parsed

/-- No delivery contains the last bytes of two requests; `n` bytes came before. -/
def OneEach (rs : List WireRequest) (n : Nat) : List Delivery → Prop
  | [] => True
  | d :: ds =>
    (WireRequest.completed rs (n + d.chunk.length)).length ≤ (WireRequest.completed rs n).length + 1 ∧
      OneEach rs (n + d.chunk.length) ds

instance decidableOneEach (rs : List WireRequest) : ∀ n cut, Decidable (OneEach rs n cut)
  | _, [] => inferInstanceAs (Decidable True)
  | n, d :: ds =>
    have := decidableOneEach rs (n + d.chunk.length) ds
    inferInstanceAs (Decidable (_ ∧ _))

theorem filterMap_request_of_invokes {calls : List HttpEvent} (h : ∀ e ∈ calls, e.Invokes) :
    calls.filterMap HttpEvent.request? = [] := by
  apply List.filterMap_eq_nil_iff.mpr
  intro e he
  have hi := h e he
  cases e with
  | dispatched request => exact hi.elim
  | middleware index => rfl
  | handler => rfl
  | fallback => rfl
  | answered400 => rfl
  | closing => rfl
  | raised e => rfl

theorem Delivered.requests_of_waits {p : HttpContext.ParseResult} (h : Delivered p s s')
    (hp : p.stop = none) : requests s' = requests s := by
  unfold requests
  rw [(h.waits hp).2]

theorem Delivered.requests_of_complete {p : HttpContext.ParseResult} (h : Delivered p s s')
    (hp : p.stop = some .gotAll) : requests s' = requests s ++ [p.ctx.request.untimed] := by
  obtain ⟨-, calls, tail, hlog, hinv, htail⟩ := h.complete hp
  have htail' : tail.filterMap HttpEvent.request? = [] := by
    rcases htail with rfl | rfl
    · rfl
    · rfl
  unfold requests
  rw [hlog, List.filterMap_append, List.filterMap_cons]
  simp only [HttpEvent.request?, List.filterMap_append, filterMap_request_of_invokes hinv, htail',
    List.append_nil]

/-- A delivery makes one call of the parser, so it dispatches at most one request. -/
theorem Delivered.requests_length {p : HttpContext.ParseResult} (h : Delivered p s s') :
    (requests s').length ≤ (requests s).length + 1 := by
  cases hp : p.stop with
  | none =>
    rw [h.requests_of_waits hp]
    omega
  | some stop =>
    cases stop with
    | gotAll => rw [h.requests_of_complete hp, List.length_append, List.length_singleton]
    | refused =>
      unfold requests
      rw [(h.refused hp).2, List.filterMap_append, List.length_append]
      exact Nat.add_le_add_left (by decide) _
    | raised e =>
      unfold requests
      rw [h.raised e hp, List.filterMap_append, List.length_append]
      exact Nat.add_le_add_left (Nat.zero_le 1) _

/-- The connection has caught up: of the requests, `front` has been dispatched, and the
parser has seen a part of the first of `back`. -/
structure CaughtUp (front back : List WireRequest) (seen : Bytes) (s : HttpConn σ) : Prop where
  dispatched : requests s = front.map WireRequest.parsed
  resumes : HttpContext.Resumes (contextOf s) s.inputBuffer seen
  inside : WireRequest.completed back seen.length = []

/-- A delivery that completes at most one request leaves nothing behind. -/
theorem CaughtUp.deliver (app : HttpApp σ) {front back : List WireRequest} {seen future : Bytes} {d : Delivery}
    (h : CaughtUp front back seen s) (hw : ∀ r ∈ back, r.WellFormed) (hne : d.chunk ≠ [])
    (hstream : seen ++ d.chunk ++ future = WireRequest.renderAll back)
    (hone : (WireRequest.completed back (seen ++ d.chunk).length).length ≤ 1) :
    ∃ now later seen', back = now ++ later ∧ seen ++ d.chunk = WireRequest.renderAll now ++ seen' ∧
      seen' ++ future = WireRequest.renderAll later ∧
      CaughtUp (front ++ now) later seen' (HttpServer.deliver app d s) := by
  obtain ⟨hvalid, hreadable⟩ := Buffer.readFd_spec h.resumes.valid d.chunk
  have hparse := WireRequest.parse_renderAll hw d.time (h.resumes.grow hvalid hreadable) hstream
  have hspec := deliver_spec app hne s
  generalize (contextOf s).parseRequest (s.inputBuffer.readFd (.data d.chunk)) d.time = p
    at hparse hspec
  rcases hparse with ⟨hstop, hpaused, hin⟩ | ⟨r, rest, tail, rfl, hs, ht, hstop, hreq, hfresh⟩
  · refine ⟨[], back, seen ++ d.chunk, rfl, rfl, hstream, ?_, ?_, ?_⟩
    · rw [hspec.requests_of_waits hstop, h.dispatched, List.append_nil]
    · rw [(hspec.waits hstop).1, hspec.buffer]
      exact hpaused.resumes
    · rcases hin with ⟨-, hnil⟩ | ⟨r, rest, missing, rfl, hm, hr⟩
      · exact absurd (List.append_eq_nil_iff.mp hnil).2 hne
      · exact WireRequest.completed_cons_inside hm hr
  · refine ⟨[r], rest, tail, rfl, by simpa [WireRequest.renderAll] using hs, ht, ?_, ?_, ?_⟩
    · rw [hspec.requests_of_complete hstop, h.dispatched, hreq, List.map_append]
      rfl
    · rw [(hspec.complete hstop).1, hspec.buffer]
      exact hfresh
    · rw [hs, WireRequest.completed_cons_covered, List.length_cons] at hone
      exact List.length_eq_zero_iff.mp (by omega)

/-- All that is complete by now has been dispatched. -/
theorem CaughtUp.requests_eq {front back : List WireRequest} {seen : Bytes}
    (h : CaughtUp front back seen s) :
    requests s = (WireRequest.completed (front ++ back)
      ((WireRequest.renderAll front).length + seen.length)).map WireRequest.parsed := by
  rw [WireRequest.completed_append, h.inside, List.append_nil]
  exact h.dispatched

/-- Over a whole cut: as long as no delivery completes two requests, the server keeps up. -/
theorem CaughtUp.prompt {front back : List WireRequest} {seen : Bytes} {cut : List Delivery}
    (h : CaughtUp front back seen s) (hw : ∀ r ∈ back, r.WellFormed) (hne : ∀ d ∈ cut, d.chunk ≠ [])
    (hstream : seen ++ bytesOf cut = WireRequest.renderAll back)
    (hone : OneEach (front ++ back) ((WireRequest.renderAll front).length + seen.length) cut) :
    Prompt app (front ++ back) ((WireRequest.renderAll front).length + seen.length) s cut := by
  induction cut generalizing front back seen s with
  | nil =>
    intro pre hpre
    rw [List.prefix_nil.mp hpre]
    exact h.requests_eq
  | cons d ds ih =>
    obtain ⟨hfirst, hlater⟩ := hone
    have hstream' : seen ++ d.chunk ++ bytesOf ds = WireRequest.renderAll back := by
      rw [List.append_assoc]
      exact hstream
    have hlen : (WireRequest.renderAll front).length + seen.length + d.chunk.length =
        (WireRequest.renderAll front).length + (seen ++ d.chunk).length := by
      rw [List.length_append, Nat.add_assoc]
    rw [hlen, WireRequest.completed_append, WireRequest.completed_append, h.inside,
      List.length_append, List.append_nil] at hfirst
    obtain ⟨now, later, seen', rfl, hseen, hrest, hnext⟩ := h.deliver app hw
      (hne d (by simp)) hstream' (by omega)
    have hbytes : (WireRequest.renderAll front).length + (seen ++ d.chunk).length =
        (WireRequest.renderAll (front ++ now)).length + seen'.length := by
      rw [hseen]
      simp [WireRequest.renderAll]
      omega
    rw [hlen, hbytes, ← List.append_assoc] at hlater
    have hprompt := ih hnext (fun r hr => hw r (List.mem_append_right now hr))
      (fun x hx => hne x (List.mem_cons_of_mem d hx)) hrest hlater
    intro pre hpre
    rcases List.prefix_cons_iff.mp hpre with rfl | ⟨pre', rfl, hpre'⟩
    · exact h.requests_eq
    · have hp := hprompt pre' hpre'
      rw [← hbytes, ← hlen, List.append_assoc] at hp
      rw [length_bytesOf_cons, ← Nat.add_assoc]
      exact hp

/-- A server that keeps up was never given two requests at once. -/
theorem Prompt.oneEach {rs : List WireRequest} {n : Nat} {cut : List Delivery}
    (hne : ∀ d ∈ cut, d.chunk ≠ []) (h : Prompt app rs n s cut) : OneEach rs n cut := by
  induction cut generalizing n s with
  | nil => trivial
  | cons d ds ih =>
    have hbefore := h [] List.nil_prefix
    have hafter := h [d] ⟨ds, rfl⟩
    have hle := (deliver_spec app (hne d (by simp)) s).requests_length
    rw [show requests (deliver app d s) = _ from hafter, show requests s = _ from hbefore,
      List.length_map, List.length_map] at hle
    refine ⟨by simpa [bytesOf] using hle, ?_⟩
    apply ih (s := deliver app d s) (fun x hx => hne x (List.mem_cons_of_mem d hx))
    intro pre hpre
    have hp := h (d :: pre) (List.prefix_cons_inj d |>.mpr hpre)
    rw [length_bytesOf_cons, ← Nat.add_assoc] at hp
    exact hp

/-- A connection on which nothing has arrived yet. -/
structure Fresh (s : HttpConn σ) : Prop where
  context : contextOf s = .new
  log : s.user.log = []
  valid : s.inputBuffer.Valid
  empty : s.inputBuffer.readable = []

theorem Fresh.prompt_iff (app : HttpApp σ) {rs : List WireRequest} {cut : List Delivery} (hs : Fresh s)
    (hw : ∀ r ∈ rs, r.WellFormed) (hne : ∀ d ∈ cut, d.chunk ≠ [])
    (hcut : bytesOf cut = WireRequest.renderAll rs) : Prompt app rs 0 s cut ↔ OneEach rs 0 cut := by
  refine ⟨Prompt.oneEach hne, ?_⟩
  intro hone
  have hstart : CaughtUp [] rs [] s := by
    refine ⟨by rw [requests, hs.log]; rfl, ?_, ?_⟩
    · have hr := HttpContext.resumes_fresh hs.valid
      rw [hs.empty] at hr
      rw [hs.context]
      exact hr
    · cases rs with
      | nil => rfl
      | cons r rest => exact WireRequest.completed_cons_inside r.render_ne_nil rfl
  exact hstart.prompt hw hne hcut hone

theorem Prompt.requests_serve {rs : List WireRequest} {cut : List Delivery}
    (hcut : bytesOf cut = WireRequest.renderAll rs) (h : Prompt app rs 0 s cut) :
    requests (serve app cut s) = rs.map WireRequest.parsed := by
  rw [h cut (List.prefix_refl cut), Nat.zero_add, hcut, WireRequest.completed_renderAll]

/-- The bytes of any requests, cut in two ways: both cuts dispatch the same requests, each
with the delivery that completes it, exactly if no delivery of either completes two. -/
theorem dispatch_segmentation_independent_iff (app : HttpApp σ) {s : HttpConn σ} (hs : Fresh s)
    {rs : List WireRequest} (hw : ∀ r ∈ rs, r.WellFormed) (cut₁ cut₂ : List Delivery)
    (ne₁ : ∀ d ∈ cut₁, d.chunk ≠ []) (ne₂ : ∀ d ∈ cut₂, d.chunk ≠ [])
    (stream₁ : bytesOf cut₁ = WireRequest.renderAll rs)
    (stream₂ : bytesOf cut₂ = WireRequest.renderAll rs) :
    (requests (serve app cut₁ s) = requests (serve app cut₂ s) ∧
      Prompt app rs 0 s cut₁ ∧ Prompt app rs 0 s cut₂) ↔ (OneEach rs 0 cut₁ ∧ OneEach rs 0 cut₂) := by
  rw [hs.prompt_iff app hw ne₁ stream₁, hs.prompt_iff app hw ne₂ stream₂]
  refine ⟨fun h => h.2, ?_⟩
  intro h
  refine ⟨?_, h⟩
  have h₁ := ((hs.prompt_iff app hw ne₁ stream₁).mpr h.1).requests_serve stream₁
  have h₂ := ((hs.prompt_iff app hw ne₂ stream₂).mpr h.2).requests_serve stream₂
  rw [h₁, h₂]

theorem openConn_fresh : Fresh openConn where
  context := rfl
  log := rfl
  valid := Buffer.new_valid kInitialSize
  empty := Buffer.new_readable kInitialSize

/-- Two orders, cut once inside the second and once inside each of them. -/
theorem dispatch_segmentation_independent_orders :
    let rs := [WireRequest.orderRequest, WireRequest.orderRequest]
    let text := WireRequest.renderAll rs
    let apart : List Delivery := [⟨text.take 60, 0, .wrote 0⟩, ⟨text.drop 60, 1, .wrote 0⟩]
    let across : List Delivery := [⟨text.take 20, 0, .wrote 0⟩, ⟨(text.drop 20).take 60, 1, .wrote 0⟩,
      ⟨(text.drop 20).drop 60, 2, .wrote 0⟩]
    requests (serve countingApp apart openConn) = requests (serve countingApp across openConn) := by
  intro rs text apart across
  have hw : ∀ r ∈ rs, r.WellFormed := by
    simpa [rs] using WireRequest.orderRequest_wellFormed
  have h := dispatch_segmentation_independent_iff countingApp openConn_fresh hw apart across
    (by decide) (by decide) (by decide) (by decide)
  exact (h.mpr (by decide)).1

/-- Two requests in one delivery: the second stays in the input buffer. -/
theorem pipelined_request_left_behind :
    let rs := [WireRequest.healthRequest, WireRequest.healthRequest]
    let apart : List Delivery := [⟨WireRequest.healthRequest.render, 0, .wrote 0⟩,
      ⟨WireRequest.healthRequest.render, 1, .wrote 0⟩]
    let together : List Delivery := [⟨WireRequest.renderAll rs, 0, .wrote 0⟩]
    (∀ r ∈ rs, r.WellFormed) ∧ bytesOf apart = bytesOf together ∧
      (requests (serve countingApp apart openConn)).length = 2 ∧
      (requests (serve countingApp together openConn)).length = 1 ∧
      (serve countingApp together openConn).inputBuffer.readable =
        WireRequest.healthRequest.render := by
  intro rs apart together
  refine ⟨?_, by decide +kernel, by decide +kernel, by decide +kernel, by decide +kernel⟩
  simpa [rs] using WireRequest.healthRequest_wellFormed

end HttpServer

end MuduoPlus
