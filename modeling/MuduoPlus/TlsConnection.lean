import MuduoPlus.Buffer

namespace MuduoPlus

inductive TlsState where
  | HANDSHAKE
  | ESTABLISHED
  | SHUTDOWN
  | ERROR
  deriving DecidableEq, Repr

/-- What `SSL_do_handshake` and `SSL_get_error` say: complete, `SSL_ERROR_WANT_READ` or
`SSL_ERROR_WANT_WRITE`, any other error. -/
inductive HandshakeResult where
  | complete
  | want
  | failed
  deriving DecidableEq, Repr

/-- The end of a call into OpenSSL: its own state, what it left in `readBio_`, what it put into
`writeBio_` and what it returned. -/
structure SslReply (σ ρ : Type) where
  ssl : σ
  readBio : Bytes
  written : Bytes
  ret : ρ

/-- OpenSSL, as a machine over its own states `σ`. Its calls see `readBio_` and nothing else of
the connection; `read` gives plaintext of at most the given length, `write` says whether
`SSL_write` returned more than 0. -/
structure OpenSsl (σ : Type) where
  setAcceptState : σ → σ
  doHandshake : σ → Bytes → SslReply σ HandshakeResult
  read : σ → Bytes → Nat → SslReply σ (Option Bytes)
  write : σ → Bytes → Bytes → Int → SslReply σ Bool

/-- What happens around a `TLSConnection`, in order: bytes into `readBio_`, bytes OpenSSL put
into `writeBio_`, bytes taken out of it, the calls on `conn_`, plaintext out of `SSL_read` and
calls of `messageCallback_`. -/
inductive TlsEvent where
  | fed (data : Bytes)
  | produced (data : Bytes)
  | drained (data : Bytes)
  | send (data : Bytes)
  | shutdown
  | plaintext (data : Bytes)
  | message (data : Bytes)
  deriving DecidableEq, Repr

/-- The two memory BIOs are the bytes in them; whether a callback is set is a flag. -/
structure TlsConnection (σ : Type) where
  ssl : σ
  state : TlsState
  readBio : Bytes
  writeBio : Bytes
  messageCallback : Bool
  deriving DecidableEq

/-- `static_cast<int>` of a length. -/
def castInt (n : Nat) : Int := (BitVec.ofNat 32 n).toInt

/-- The bytes `BIO_write` takes when it is told `static_cast<int>(len)`. -/
def bioTaken (data : Bytes) : Bytes := data.take (castInt data.length).toNat

def kTlsChunk : Nat := 4096

/-- The pieces in which a BIO is read until nothing is pending. Every round takes a byte, so
`fuel` is the length. -/
def bioChunks : Nat → Bytes → List Bytes
  | 0, _ => []
  | fuel + 1, bio =>
    if bio = [] then [] else bio.take kTlsChunk :: bioChunks fuel (bio.drop kTlsChunk)

namespace TlsConnection

variable {σ : Type} (lib : OpenSsl σ)

/-- The constructor, and `setMessageCallback`. -/
def new (ssl : σ) (messageCallback : Bool) : TlsConnection σ :=
  ⟨lib.setAcceptState ssl, .HANDSHAKE, [], [], messageCallback⟩

/-- The connection after a call into OpenSSL. -/
def replied {ρ : Type} (t : TlsConnection σ) (r : SslReply σ ρ) : TlsConnection σ :=
  { t with ssl := r.ssl, readBio := r.readBio, writeBio := t.writeBio ++ r.written }

def handleHandshake (t : TlsConnection σ) : TlsConnection σ × List TlsEvent :=
  let r := lib.doHandshake t.ssl t.readBio
  let t := t.replied r
  match r.ret with
  | .complete => ({ t with state := .ESTABLISHED }, [.produced r.written])
  | .want => (t, [.produced r.written])
  | .failed => (t, [.produced r.written, .shutdown])

def startHandshake (t : TlsConnection σ) : TlsConnection σ × List TlsEvent :=
  handleHandshake lib { t with ssl := lib.setAcceptState t.ssl }

/-- The loop of `send`, which is also that of `flushWriteBio`. -/
def flushWriteBio (t : TlsConnection σ) : TlsConnection σ × List TlsEvent :=
  ({ t with writeBio := [] },
    (bioChunks t.writeBio.length t.writeBio).flatMap fun chunk => [.drained chunk, .send chunk])

def send (data : Bytes) (t : TlsConnection σ) : TlsConnection σ × List TlsEvent :=
  if t.state ≠ .ESTABLISHED then (t, [])
  else
    let r := lib.write t.ssl t.readBio data (castInt data.length)
    let t := t.replied r
    if r.ret then
      let (t, events) := t.flushWriteBio
      (t, .produced r.written :: events)
    else (t, [.produced r.written])

/-- The third component is the caller's buffer afterwards. -/
def onRead (buf : Buffer) (t : TlsConnection σ) : TlsConnection σ × List TlsEvent × Buffer :=
  match t.state with
  | .HANDSHAKE =>
    let data := bioTaken buf.readable
    let (t, events) := handleHandshake lib { t with readBio := t.readBio ++ data }
    (t, .fed data :: events, buf.retrieve buf.readableBytes)
  | .ESTABLISHED =>
    let r := lib.read t.ssl t.readBio kTlsChunk
    let t := t.replied r
    match r.ret with
    | some data =>
      (t, [.produced r.written, .plaintext data] ++
        if t.messageCallback then [.message data] else [], buf)
    | none => (t, [.produced r.written], buf)
  | .SHUTDOWN => (t, [], buf)
  | .ERROR => (t, [], buf)

end TlsConnection

end MuduoPlus
