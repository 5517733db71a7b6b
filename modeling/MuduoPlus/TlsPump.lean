import MuduoPlus.ActionSystem
import MuduoPlus.TlsConnection

namespace MuduoPlus

namespace TlsEvent

def fedBytes : TlsEvent → Bytes
  | .fed data => data
  | _ => []

def producedBytes : TlsEvent → Bytes
  | .produced data => data
  | _ => []

def sentBytes : TlsEvent → Bytes
  | .send data => data
  | _ => []

def plaintextBytes : TlsEvent → Bytes
  | .plaintext data => data
  | _ => []

def messageBytes : TlsEvent → Bytes
  | .message data => data
  | _ => []

end TlsEvent

/-- A `TLSConnection` with the input buffer of its connection, all bytes that arrived and what
happened so far. -/
structure TlsRun (σ : Type) where
  tls : TlsConnection σ
  inputBuffer : Buffer
  received : Bytes
  log : List TlsEvent

/-- `onRead` comes after `handleRead` put `chunk` into the input buffer. -/
inductive TlsCall where
  | startHandshake
  | onRead (chunk : Bytes)
  deriving DecidableEq, Repr

namespace TlsRun

variable {σ : Type} (lib : OpenSsl σ)

def apply : TlsCall → TlsRun σ → TlsRun σ
  | .startHandshake, s =>
    let (tls, events) := s.tls.startHandshake lib
    { s with tls, log := s.log ++ events }
  | .onRead chunk, s =>
    let (tls, events, inputBuffer) := s.tls.onRead lib (s.inputBuffer.readFd (.data chunk))
    ⟨tls, inputBuffer, s.received ++ chunk, s.log ++ events⟩

/-- Any calls on a new `TLSConnection`. -/
def system : ActionSystem (TlsRun σ) TlsCall where
  init s := ∃ ssl messageCallback,
    s = ⟨.new lib ssl messageCallback, Buffer.new kInitialSize, [], []⟩
  permitted _ _ := True
  apply := apply lib

/-- `SSL_read` has nothing more to give. -/
def Dry (ssl : σ) (readBio : Bytes) : Prop := (lib.read ssl readBio kTlsChunk).ret = none

/-- All that arrived has gone to OpenSSL and out of the input buffer, all that OpenSSL wants to
send has been sent and, once the handshake is complete, all plaintext has been delivered. -/
structure Pumped (s : TlsRun σ) : Prop where
  fed : s.log.flatMap TlsEvent.fedBytes = s.received
  removed : s.inputBuffer.readable = []
  sent : s.log.flatMap TlsEvent.sentBytes = s.log.flatMap TlsEvent.producedBytes
  delivered : s.tls.state = .ESTABLISHED →
    s.log.flatMap TlsEvent.messageBytes = s.log.flatMap TlsEvent.plaintextBytes ∧
      Dry lib s.tls.ssl s.tls.readBio

/-- The handshake call has nothing to send and, if it leaves the connection established, no
plaintext to give. -/
def HandshakeQuiet (t : TlsConnection σ) : Prop :=
  (lib.doHandshake t.ssl t.readBio).written = [] ∧
    ((lib.doHandshake t.ssl t.readBio).ret = .complete ∨ t.state = .ESTABLISHED →
      Dry lib (lib.doHandshake t.ssl t.readBio).ssl (lib.doHandshake t.ssl t.readBio).readBio)

/-- When a call pumps what there is: nothing to send comes out of OpenSSL, and once the handshake
is complete nothing arrives and there is no plaintext. -/
def Quiet : TlsCall → TlsRun σ → Prop
  | .startHandshake, s => HandshakeQuiet lib { s.tls with ssl := lib.setAcceptState s.tls.ssl }
  | .onRead chunk, s =>
    (s.tls.state = .HANDSHAKE → chunk.length < 2 ^ 31 ∧
      HandshakeQuiet lib { s.tls with readBio := s.tls.readBio ++ chunk }) ∧
    (s.tls.state = .ESTABLISHED → chunk = [] ∧
      (lib.read s.tls.ssl s.tls.readBio kTlsChunk).written = [] ∧
      Dry lib (lib.read s.tls.ssl s.tls.readBio kTlsChunk).ssl
        (lib.read s.tls.ssl s.tls.readBio kTlsChunk).readBio)

instance (ssl : σ) (readBio : Bytes) : Decidable (Dry lib ssl readBio) :=
  inferInstanceAs (Decidable (_ = none))

instance (t : TlsConnection σ) : Decidable (HandshakeQuiet lib t) :=
  inferInstanceAs (Decidable (_ ∧ (_ ∨ _ → _)))

instance : (c : TlsCall) → (s : TlsRun σ) → Decidable (Quiet lib c s)
  | .startHandshake, s =>
    inferInstanceAs (Decidable (HandshakeQuiet lib { s.tls with ssl := lib.setAcceptState s.tls.ssl }))
  | .onRead _, _ => inferInstanceAs (Decidable ((_ → _ ∧ _) ∧ (_ → _ ∧ _)))

instance (c : TlsCall) (s : TlsRun σ) : Decidable ((system lib).permitted c s) :=
  inferInstanceAs (Decidable True)

section Step

variable {lib}

theorem bioTaken_eq_iff (data : Bytes) : bioTaken data = data ↔ data.length < 2 ^ 31 := by
  have hcast : castInt data.length = (data.length : Int).bmod (2 ^ 32) := BitVec.toInt_ofNat ..
  rw [bioTaken, List.take_eq_self_iff, hcast, Int.bmod]
  omega

/-- What a handshake call adds to the log, and the state it leaves. -/
theorem handleHandshake_spec (lib : OpenSsl σ) (t : TlsConnection σ) :
    (t.handleHandshake lib).1.ssl = (lib.doHandshake t.ssl t.readBio).ssl ∧
    (t.handleHandshake lib).1.readBio = (lib.doHandshake t.ssl t.readBio).readBio ∧
    ((t.handleHandshake lib).1.state =
      if (lib.doHandshake t.ssl t.readBio).ret = .complete then .ESTABLISHED else t.state) ∧
    ((t.handleHandshake lib).2 = [.produced (lib.doHandshake t.ssl t.readBio).written] ∨
      (t.handleHandshake lib).2 =
        [.produced (lib.doHandshake t.ssl t.readBio).written, .shutdown]) := by
  cases hret : (lib.doHandshake t.ssl t.readBio).ret with
  | complete =>
    simp only [TlsConnection.handleHandshake, hret]
    exact ⟨rfl, rfl, rfl, Or.inl trivial⟩
  | want =>
    simp only [TlsConnection.handleHandshake, hret]
    exact ⟨rfl, rfl, rfl, Or.inl trivial⟩
  | failed =>
    simp only [TlsConnection.handleHandshake, hret]
    exact ⟨rfl, rfl, rfl, Or.inr trivial⟩

/-- What is collected over a log grows with a handshake call by what it produces. -/
theorem flatMap_handleHandshake {f : TlsEvent → Bytes} (hf : f .shutdown = [])
    (log : List TlsEvent) (t : TlsConnection σ) :
    (log ++ (t.handleHandshake lib).2).flatMap f =
      log.flatMap f ++ f (.produced (lib.doHandshake t.ssl t.readBio).written) := by
  rw [List.flatMap_append]
  rcases (handleHandshake_spec lib t).2.2.2 with he | he
  · simp [he]
  · simp [he, hf]

/-- A handshake call delivers nothing. -/
theorem handleHandshake_messages {log : List TlsEvent} (t : TlsConnection σ)
    (h : log.flatMap TlsEvent.messageBytes = log.flatMap TlsEvent.plaintextBytes) :
    (log ++ (t.handleHandshake lib).2).flatMap TlsEvent.messageBytes =
      (log ++ (t.handleHandshake lib).2).flatMap TlsEvent.plaintextBytes := by
  rw [flatMap_handleHandshake rfl, flatMap_handleHandshake rfl, h]
  rfl

/-- The handshake call pumps what there is when it is quiet and only then. -/
theorem pumped_handshake_iff {log : List TlsEvent} {buf : Buffer} {received : Bytes}
    (hsent : log.flatMap TlsEvent.sentBytes = log.flatMap TlsEvent.producedBytes)
    (hmessages : log.flatMap TlsEvent.messageBytes = log.flatMap TlsEvent.plaintextBytes)
    (t : TlsConnection σ) :
    Pumped lib ⟨(t.handleHandshake lib).1, buf, received, log ++ (t.handleHandshake lib).2⟩ ↔
      log.flatMap TlsEvent.fedBytes = received ∧ buf.readable = [] ∧ HandshakeQuiet lib t := by
  obtain ⟨hssl, hbio, hstate, -⟩ := handleHandshake_spec lib t
  have hfed : (log ++ (t.handleHandshake lib).2).flatMap TlsEvent.fedBytes =
      log.flatMap TlsEvent.fedBytes :=
    (flatMap_handleHandshake rfl log t).trans (List.append_nil _)
  have hsent' : (log ++ (t.handleHandshake lib).2).flatMap TlsEvent.sentBytes =
      log.flatMap TlsEvent.producedBytes :=
    ((flatMap_handleHandshake rfl log t).trans (List.append_nil _)).trans hsent
  have hproduced : (log ++ (t.handleHandshake lib).2).flatMap TlsEvent.producedBytes =
      log.flatMap TlsEvent.producedBytes ++ (lib.doHandshake t.ssl t.readBio).written :=
    flatMap_handleHandshake rfl log t
  have hestablished : (t.handleHandshake lib).1.state = .ESTABLISHED ↔
      (lib.doHandshake t.ssl t.readBio).ret = .complete ∨ t.state = .ESTABLISHED := by
    rw [hstate]
    split
    next h => simp [h]
    next h => simp [h]
  constructor
  · intro h
    have hwritten : (lib.doHandshake t.ssl t.readBio).written = [] := by
      have hall := h.sent
      rw [hsent', hproduced] at hall
      exact List.append_right_eq_self.mp hall.symm
    refine ⟨hfed.symm.trans h.fed, h.removed, hwritten, ?_⟩
    intro hwhen
    have hdry := (h.delivered (hestablished.mpr hwhen)).2
    rw [hssl, hbio] at hdry
    exact hdry
  · rintro ⟨hfedAll, hremoved, hwritten, hdry⟩
    refine ⟨hfed.trans hfedAll, hremoved, ?_, ?_⟩
    · rw [hsent', hproduced, hwritten, List.append_nil]
    · intro h
      refine ⟨handleHandshake_messages t hmessages, ?_⟩
      have hd := hdry (hestablished.mp h)
      rw [← hssl, ← hbio] at hd
      exact hd

/-- What holds after every quiet call. -/
structure Inv (lib : OpenSsl σ) (s : TlsRun σ) : Prop where
  pumped : Pumped lib s
  valid : s.inputBuffer.Valid
  messages : s.log.flatMap TlsEvent.messageBytes = s.log.flatMap TlsEvent.plaintextBytes
  place : s.tls.state = .HANDSHAKE ∨ s.tls.state = .ESTABLISHED

variable {s : TlsRun σ}

theorem Inv.startHandshake_iff (h : Inv lib s) :
    Pumped lib (apply lib .startHandshake s) ↔ Quiet lib .startHandshake s := by
  refine (pumped_handshake_iff h.pumped.sent h.messages _).trans ?_
  rw [and_iff_right h.pumped.fed, and_iff_right h.pumped.removed]
  rfl

/-- The input buffer when `onRead` sees it. -/
theorem Inv.readFd (h : Inv lib s) (chunk : Bytes) :
    (s.inputBuffer.readFd (.data chunk)).Valid ∧
      (s.inputBuffer.readFd (.data chunk)).readable = chunk := by
  obtain ⟨hvalid, hreadable⟩ := Buffer.readFd_spec h.valid chunk
  rw [h.pumped.removed] at hreadable
  exact ⟨hvalid, hreadable⟩

theorem apply_onRead_handshake (hstate : s.tls.state = .HANDSHAKE) (chunk : Bytes) :
    apply lib (.onRead chunk) s =
      let buf := s.inputBuffer.readFd (.data chunk)
      let t := { s.tls with readBio := s.tls.readBio ++ bioTaken buf.readable }
      ⟨(t.handleHandshake lib).1, buf.retrieve buf.readableBytes, s.received ++ chunk,
        (s.log ++ [.fed (bioTaken buf.readable)]) ++ (t.handleHandshake lib).2⟩ := by
  simp only [apply, TlsConnection.onRead, hstate, List.append_assoc, List.singleton_append]

theorem Inv.onRead_handshake_iff (h : Inv lib s) (hstate : s.tls.state = .HANDSHAKE)
    (chunk : Bytes) :
    Pumped lib (apply lib (.onRead chunk) s) ↔ Quiet lib (.onRead chunk) s := by
  obtain ⟨hvalid, hreadable⟩ := h.readFd chunk
  have hremoved : ((s.inputBuffer.readFd (.data chunk)).retrieve
      (s.inputBuffer.readFd (.data chunk)).readableBytes).readable = [] := by
    rw [Buffer.retrieve_readable hvalid, List.drop_eq_nil_of_le]
    exact (Buffer.length_readable hvalid).le
  have hfed : (s.log ++ [TlsEvent.fed (bioTaken chunk)]).flatMap TlsEvent.fedBytes = s.received ++ chunk ↔
      chunk.length < 2 ^ 31 := by
    rw [← bioTaken_eq_iff, List.flatMap_append, h.pumped.fed, List.append_cancel_left_eq]
    simp [TlsEvent.fedBytes]
  rw [apply_onRead_handshake hstate]
  refine (pumped_handshake_iff ?_ ?_ _).trans ?_
  · rw [List.flatMap_append, List.flatMap_append, h.pumped.sent]
    rfl
  · rw [List.flatMap_append, List.flatMap_append, h.messages]
    rfl
  · rw [hreadable, hfed, and_iff_right hremoved]
    constructor
    · rintro ⟨hlen, hquiet⟩
      rw [(bioTaken_eq_iff chunk).mpr hlen] at hquiet
      refine ⟨fun _ => ⟨hlen, hquiet⟩, fun hother => ?_⟩
      rw [hstate] at hother
      cases hother
    · intro hquiet
      obtain ⟨hlen, hcall⟩ := hquiet.1 hstate
      rw [(bioTaken_eq_iff chunk).mpr hlen]
      exact ⟨hlen, hcall⟩

/-- With nothing to give, `SSL_read` leaves the input buffer as it is. -/
theorem apply_onRead_established (hstate : s.tls.state = .ESTABLISHED)
    (hdry : Dry lib s.tls.ssl s.tls.readBio) (chunk : Bytes) :
    apply lib (.onRead chunk) s =
      let r := lib.read s.tls.ssl s.tls.readBio kTlsChunk
      ⟨s.tls.replied r, s.inputBuffer.readFd (.data chunk), s.received ++ chunk,
        s.log ++ [.produced r.written]⟩ := by
  rw [Dry] at hdry
  simp only [apply, TlsConnection.onRead, hstate, hdry]

theorem Inv.onRead_established_iff (h : Inv lib s) (hstate : s.tls.state = .ESTABLISHED)
    (chunk : Bytes) :
    Pumped lib (apply lib (.onRead chunk) s) ↔ Quiet lib (.onRead chunk) s := by
  obtain ⟨-, hreadable⟩ := h.readFd chunk
  rw [apply_onRead_established hstate (h.pumped.delivered hstate).2]
  constructor
  · intro hp
    have hchunk : chunk = [] := hreadable.symm.trans hp.removed
    have hwritten : (lib.read s.tls.ssl s.tls.readBio kTlsChunk).written = [] := by
      have hall := hp.sent
      rw [List.flatMap_append, List.flatMap_append, ← h.pumped.sent] at hall
      simpa [TlsEvent.sentBytes, TlsEvent.producedBytes] using hall
    refine ⟨fun hother => ?_, fun _ => ⟨hchunk, hwritten, (hp.delivered hstate).2⟩⟩
    rw [hstate] at hother
    cases hother
  · intro hquiet
    obtain ⟨rfl, hwritten, hdry⟩ := hquiet.2 hstate
    refine ⟨?_, hreadable, ?_, ?_⟩
    · simpa [TlsEvent.fedBytes] using h.pumped.fed
    · simpa [TlsEvent.sentBytes, TlsEvent.producedBytes, hwritten] using h.pumped.sent
    · intro _
      refine ⟨?_, hdry⟩
      simpa [TlsEvent.messageBytes, TlsEvent.plaintextBytes] using h.messages

/-- A call pumps what there is when it is quiet and only then. -/
theorem Inv.pumped_apply_iff (h : Inv lib s) (c : TlsCall) :
    Pumped lib (apply lib c s) ↔ Quiet lib c s := by
  cases c with
  | startHandshake => exact h.startHandshake_iff
  | onRead chunk =>
    rcases h.place with hstate | hstate
    · exact h.onRead_handshake_iff hstate chunk
    · exact h.onRead_established_iff hstate chunk

theorem handleHandshake_place {t : TlsConnection σ}
    (h : t.state = .HANDSHAKE ∨ t.state = .ESTABLISHED) :
    (t.handleHandshake lib).1.state = .HANDSHAKE ∨
      (t.handleHandshake lib).1.state = .ESTABLISHED := by
  rw [(handleHandshake_spec lib t).2.2.1]
  split
  next => exact Or.inr rfl
  next => exact h

theorem Inv.apply (h : Inv lib s) {c : TlsCall} (hc : Quiet lib c s) :
    Inv lib (apply lib c s) := by
  have hpumped := (h.pumped_apply_iff c).mpr hc
  cases c with
  | startHandshake =>
    exact ⟨hpumped, h.valid, handleHandshake_messages _ h.messages, handleHandshake_place h.place⟩
  | onRead chunk =>
    obtain ⟨hvalid, -⟩ := h.readFd chunk
    rcases h.place with hstate | hstate
    · rw [apply_onRead_handshake hstate] at hpumped ⊢
      refine ⟨hpumped, Buffer.retrieve_valid hvalid _, ?_, handleHandshake_place h.place⟩
      apply handleHandshake_messages
      rw [List.flatMap_append, List.flatMap_append, h.messages]
      rfl
    · rw [apply_onRead_established hstate (h.pumped.delivered hstate).2] at hpumped ⊢
      exact ⟨hpumped, hvalid, (hpumped.delivered hstate).1, Or.inr hstate⟩

theorem inv_new (ssl : σ) (messageCallback : Bool) :
    Inv lib ⟨.new lib ssl messageCallback, Buffer.new kInitialSize, [], []⟩ where
  pumped := ⟨rfl, Buffer.new_readable _, rfl, fun h => nomatch h⟩
  valid := Buffer.new_valid _
  messages := rfl
  place := Or.inl rfl

end Step

variable {lib} {s : TlsRun σ}

/-- In a run of quiet calls everything is pumped after each of them, and the first call that is
not quiet leaves something behind. -/
theorem pumped_of_quiet (h : ((system lib).restrict (Quiet lib)).Reachable s) :
    Pumped lib s ∧ ∀ c, ¬Quiet lib c s → ¬Pumped lib ((system lib).apply c s) := by
  have hinv : Inv lib s := by
    refine h.invariant ?_ ?_
    · rintro _ ⟨ssl, messageCallback, rfl⟩
      exact inv_new ssl messageCallback
    · intro c s hc hs
      exact hs.apply hc.2
  refine ⟨hinv.pumped, ?_⟩
  intro c hnot hpumped
  exact hnot ((hinv.pumped_apply_iff c).mp hpumped)

/-- A library whose handshake takes one byte and answers with `flight`; behind it the plaintext
is the ciphertext. -/
def plainSsl (flight : Bytes) : OpenSsl Unit where
  setAcceptState ssl := ssl
  doHandshake _ readBio :=
    match readBio with
    | [] => ⟨(), [], [], .want⟩
    | _ :: rest => ⟨(), rest, flight, .complete⟩
  read _ readBio limit :=
    ⟨(), readBio.drop limit, [], if readBio = [] then none else some (readBio.take limit)⟩
  write _ readBio data _ := ⟨(), readBio, data, true⟩

def newRun (flight : Bytes) : TlsRun Unit :=
  ⟨.new (plainSsl flight) () true, Buffer.new kInitialSize, [], []⟩

/-- A handshake with nothing to answer. -/
theorem pumped_of_quiet_handshake :
    ∃ s, ((system (plainSsl [])).restrict (Quiet (plainSsl []))).Reachable s ∧
      s.tls.state = .ESTABLISHED ∧ s.received = [1] ∧ Pumped (plainSsl []) s := by
  have hnew : ((system (plainSsl [])).restrict (Quiet (plainSsl []))).Reachable (newRun []) :=
    .init ⟨(), true, rfl⟩
  have hpermits : ((system (plainSsl [])).restrict (Quiet (plainSsl []))).Permits
      [.startHandshake, .onRead [1]] (newRun []) := by
    decide +kernel
  have hreach := hnew.run hpermits
  exact ⟨_, hreach, by decide +kernel, by decide +kernel, (pumped_of_quiet hreach).1⟩

/-- The answer of the handshake stays in `writeBio_`, and what arrives behind the handshake stays
in the input buffer. -/
theorem flight_and_data_stuck :
    ∃ s, (system (plainSsl [22])).Reachable s ∧ s.tls.state = .ESTABLISHED ∧
      s.received = [1, 2] ∧ s.log.flatMap TlsEvent.fedBytes = [1] ∧
      s.inputBuffer.readable = [2] ∧ s.log.flatMap TlsEvent.producedBytes = [22] ∧
      s.log.flatMap TlsEvent.sentBytes = [] ∧ s.log.flatMap TlsEvent.messageBytes = [] := by
  have hnew : (system (plainSsl [22])).Reachable (newRun [22]) := .init ⟨(), true, rfl⟩
  have hpermits : (system (plainSsl [22])).Permits
      [.startHandshake, .onRead [1], .onRead [2]] (newRun [22]) := by
    decide +kernel
  have hreach := hnew.run hpermits
  exact ⟨_, hreach, by decide +kernel, by decide +kernel, by decide +kernel, by decide +kernel,
    by decide +kernel, by decide +kernel, by decide +kernel⟩

end TlsRun

end MuduoPlus
