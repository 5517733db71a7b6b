import MuduoPlus.ByteText
import MuduoPlus.MemoryBlock

namespace MuduoPlus

def kCheapPrepend : Nat := 8

def kInitialSize : Nat := 1024

/-- `sizeof(extrabuf)` of `Buffer::readFd`. -/
def extrabufSize : Nat := 65536

inductive Errno where
  | eWouldBlock
  | ePipe
  | eConnReset
  | other (code : Nat)
  deriving DecidableEq, Repr

/-- What `readv` brings: the bytes it stored, or an error. -/
inductive ReadResult where
  | data (bytes : Bytes)
  | error (errno : Errno)
  deriving DecidableEq, Repr

/-- What `write`, `send` and `sendfile` return. -/
inductive WriteResult where
  | wrote (n : Nat)
  | error (errno : Errno)
  deriving DecidableEq, Repr

/-- The vector and the two indices of the source; `size_t` is `Nat`, which agrees
with it as long as no size reaches `2^64`. -/
structure Buffer where
  buffer : Bytes
  readerIndex : Nat
  writerIndex : Nat
  deriving DecidableEq, Repr

namespace Buffer

/-- The constructor `Buffer(initalSize)`. -/
def new (initalSize : Nat) : Buffer :=
  ⟨List.replicate (kCheapPrepend + initalSize) 0, kCheapPrepend, kCheapPrepend⟩

def readableBytes (b : Buffer) : Nat := b.writerIndex - b.readerIndex

def writableBytes (b : Buffer) : Nat := b.buffer.length - b.writerIndex

def prependableBytes (b : Buffer) : Nat := b.readerIndex

/-- The `readableBytes()` bytes from `peek()` on. -/
def readable (b : Buffer) : Bytes := window b.buffer b.readerIndex b.writerIndex

def retrieveAll (b : Buffer) : Buffer :=
  { b with readerIndex := kCheapPrepend, writerIndex := kCheapPrepend }

def retrieve (b : Buffer) (len : Nat) : Buffer :=
  if len < b.readableBytes then { b with readerIndex := b.readerIndex + len }
  else b.retrieveAll

def retrieveAsString (b : Buffer) (len : Nat) : Bytes × Buffer :=
  (window b.buffer b.readerIndex (b.readerIndex + len), b.retrieve len)

def retrieveAllAsString (b : Buffer) : Bytes × Buffer :=
  b.retrieveAsString b.readableBytes

def makeSpace (b : Buffer) (len : Nat) : Buffer :=
  if b.writableBytes + b.prependableBytes < len + kCheapPrepend then
    { b with buffer := resize b.buffer (b.writerIndex + len) 0 }
  else
    { buffer := copyWithin b.buffer b.readerIndex kCheapPrepend (b.writerIndex - b.readerIndex)
      readerIndex := kCheapPrepend
      writerIndex := kCheapPrepend + b.readableBytes }

def ensureWritableBytes (b : Buffer) (len : Nat) : Buffer :=
  if b.writableBytes < len then b.makeSpace len else b

def append (b : Buffer) (data : Bytes) : Buffer :=
  let c := b.ensureWritableBytes data.length
  { c with
    buffer := overwrite c.buffer c.writerIndex data
    writerIndex := c.writerIndex + data.length }

/-- The bytes the `iovec` array of `readFd` has room for. -/
def readFdRoom (b : Buffer) : Nat :=
  if b.writableBytes < extrabufSize then b.writableBytes + extrabufSize else b.writableBytes

/-- `readv` fills the writable tail first and `extrabuf` after it. -/
def readFd (b : Buffer) : ReadResult → Buffer
  | .error _ => b
  | .data bytes =>
    let filled := overwrite b.buffer b.writerIndex (bytes.take b.writableBytes)
    if bytes.length ≤ b.writableBytes then
      { b with buffer := filled, writerIndex := b.writerIndex + bytes.length }
    else
      { b with buffer := filled, writerIndex := filled.length : Buffer }.append
        (bytes.drop b.writableBytes)

/-- `writeFd` hands the readable bytes to the kernel and keeps the buffer as it is. -/
def writeFd (b : Buffer) (_ : WriteResult) : Buffer := b

/-- The order of the indices that every member function relies on. -/
structure Valid (b : Buffer) : Prop where
  prepend_le : kCheapPrepend ≤ b.readerIndex
  reader_le : b.readerIndex ≤ b.writerIndex
  writer_le : b.writerIndex ≤ b.buffer.length

theorem length_readable {b : Buffer} (hv : b.Valid) : b.readable.length = b.readableBytes := by
  rw [readable, length_window hv.writer_le]
  rfl

theorem new_valid (n : Nat) : (new n).Valid :=
  ⟨le_rfl, le_rfl, by simp [new]⟩

theorem new_readable (n : Nat) : (new n).readable = [] := window_self _ _

theorem retrieveAll_valid {b : Buffer} (hv : b.Valid) : b.retrieveAll.Valid := by
  have hsize : kCheapPrepend ≤ b.buffer.length :=
    hv.prepend_le.trans (hv.reader_le.trans hv.writer_le)
  exact ⟨le_rfl, le_rfl, hsize⟩

theorem retrieveAll_readable (b : Buffer) : b.retrieveAll.readable = [] := window_self _ _

theorem retrieve_valid {b : Buffer} (hv : b.Valid) (len : Nat) : (b.retrieve len).Valid := by
  unfold retrieve
  split
  next hl =>
    have hp := hv.prepend_le
    unfold readableBytes at hl
    exact ⟨by simp only; omega, by simp only; omega, hv.writer_le⟩
  next => exact retrieveAll_valid hv

theorem retrieve_readable {b : Buffer} (hv : b.Valid) (len : Nat) :
    (b.retrieve len).readable = b.readable.drop len := by
  unfold retrieve
  split
  next => exact window_drop
  next hl =>
    have hlen := length_readable hv
    rw [retrieveAll_readable, List.drop_eq_nil_of_le (by omega)]

theorem retrieveAsString_fst {b : Buffer} (hv : b.Valid) {len : Nat} (hl : len ≤ b.readableBytes) :
    (b.retrieveAsString len).1 = b.readable.take len := by
  have hr := hv.reader_le
  unfold readableBytes at hl
  simp only [retrieveAsString, readable, window, List.take_take]
  congr 1
  omega

theorem makeSpace_valid {b : Buffer} (hv : b.Valid) {len : Nat} (hl : b.writableBytes < len) :
    (b.makeSpace len).Valid := by
  have hp := hv.prepend_le
  have hr := hv.reader_le
  have hw := hv.writer_le
  unfold writableBytes at hl
  unfold makeSpace
  split
  next =>
    have hs : (resize b.buffer (b.writerIndex + len) 0).length = b.writerIndex + len :=
      length_resize (by omega)
    exact ⟨hp, hr, by simp only [hs]; omega⟩
  next =>
    refine ⟨le_rfl, Nat.le_add_right _ _, ?_⟩
    simp only [length_copyWithin, readableBytes]
    omega

theorem makeSpace_readable {b : Buffer} (hv : b.Valid) {len : Nat} (hl : b.writableBytes < len) :
    (b.makeSpace len).readable = b.readable := by
  have hp := hv.prepend_le
  have hr := hv.reader_le
  have hw := hv.writer_le
  unfold writableBytes at hl
  unfold makeSpace
  split
  next => exact window_resize (by omega) hw
  next =>
    have hend : b.readerIndex + (b.writerIndex - b.readerIndex) = b.writerIndex := by omega
    have hcopy : window (copyWithin b.buffer b.readerIndex kCheapPrepend
        (b.writerIndex - b.readerIndex)) kCheapPrepend
        (kCheapPrepend + (b.writerIndex - b.readerIndex)) = window b.buffer b.readerIndex
        (b.readerIndex + (b.writerIndex - b.readerIndex)) := window_copyWithin hp (by omega)
    rw [hend] at hcopy
    exact hcopy

theorem makeSpace_room {b : Buffer} (hv : b.Valid) {len : Nat} (hl : b.writableBytes < len) :
    len ≤ (b.makeSpace len).writableBytes := by
  have hp := hv.prepend_le
  have hr := hv.reader_le
  have hw := hv.writer_le
  unfold writableBytes at hl
  unfold makeSpace
  split
  next =>
    have hs : (resize b.buffer (b.writerIndex + len) 0).length = b.writerIndex + len :=
      length_resize (by omega)
    simp only [writableBytes, hs]
    omega
  next hroom =>
    simp only [writableBytes, prependableBytes] at hroom
    simp only [writableBytes, readableBytes, length_copyWithin]
    omega

theorem ensureWritableBytes_valid {b : Buffer} (hv : b.Valid) (len : Nat) :
    (b.ensureWritableBytes len).Valid := by
  unfold ensureWritableBytes
  split
  next hl => exact makeSpace_valid hv hl
  next => exact hv

theorem ensureWritableBytes_readable {b : Buffer} (hv : b.Valid) (len : Nat) :
    (b.ensureWritableBytes len).readable = b.readable := by
  unfold ensureWritableBytes
  split
  next hl => exact makeSpace_readable hv hl
  next => rfl

theorem ensureWritableBytes_room {b : Buffer} (hv : b.Valid) (len : Nat) :
    len ≤ (b.ensureWritableBytes len).writableBytes := by
  unfold ensureWritableBytes
  split
  next hl => exact makeSpace_room hv hl
  next hl => omega

theorem append_valid {b : Buffer} (hv : b.Valid) (data : Bytes) : (b.append data).Valid := by
  have hc := ensureWritableBytes_valid hv data.length
  have hroom := ensureWritableBytes_room hv data.length
  have hw := hc.writer_le
  unfold writableBytes at hroom
  have hlen : (overwrite (b.ensureWritableBytes data.length).buffer
      (b.ensureWritableBytes data.length).writerIndex data).length =
      (b.ensureWritableBytes data.length).buffer.length := length_overwrite (by omega)
  refine ⟨hc.prepend_le, hc.reader_le.trans (Nat.le_add_right _ _), ?_⟩
  simp only [append, hlen]
  omega

theorem append_readable {b : Buffer} (hv : b.Valid) (data : Bytes) :
    (b.append data).readable = b.readable ++ data := by
  have hc := ensureWritableBytes_valid hv data.length
  have hroom := ensureWritableBytes_room hv data.length
  have hw := hc.writer_le
  unfold writableBytes at hroom
  have hfit : (b.ensureWritableBytes data.length).writerIndex + data.length ≤
      (b.ensureWritableBytes data.length).buffer.length := by omega
  rw [← ensureWritableBytes_readable hv data.length]
  exact window_overwrite hc.reader_le hfit

theorem readFd_fill {b : Buffer} (hv : b.Valid) {data : Bytes} (hd : data.length ≤ b.writableBytes) :
    let c : Buffer := { b with
      buffer := overwrite b.buffer b.writerIndex data
      writerIndex := b.writerIndex + data.length }
    c.Valid ∧ c.readable = b.readable ++ data := by
  have hw := hv.writer_le
  unfold writableBytes at hd
  have hlen : (overwrite b.buffer b.writerIndex data).length = b.buffer.length :=
    length_overwrite (by omega)
  refine ⟨⟨hv.prepend_le, hv.reader_le.trans (Nat.le_add_right _ _), ?_⟩, ?_⟩
  · simp only [hlen]
    omega
  · exact window_overwrite hv.reader_le (by omega)

/-- `readFd` appends what the kernel delivered, whether or not it spilled into `extrabuf`. -/
theorem readFd_spec {b : Buffer} (hv : b.Valid) (data : Bytes) :
    (b.readFd (.data data)).Valid ∧ (b.readFd (.data data)).readable = b.readable ++ data := by
  have hw := hv.writer_le
  simp only [readFd]
  split
  next hd =>
    have hfill := readFd_fill hv hd
    rw [List.take_of_length_le hd]
    exact hfill
  next hd =>
    have htake : (data.take b.writableBytes).length = b.writableBytes := by
      rw [List.length_take]
      omega
    obtain ⟨hcv, hcr⟩ := readFd_fill hv (Nat.le_of_eq htake)
    have hend : (overwrite b.buffer b.writerIndex (data.take b.writableBytes)).length =
        b.writerIndex + (data.take b.writableBytes).length := by
      rw [length_overwrite (by rw [htake]; unfold writableBytes; omega), htake]
      unfold writableBytes
      omega
    rw [← hend] at hcv hcr
    refine ⟨append_valid hcv _, ?_⟩
    rw [append_readable hcv, hcr, List.append_assoc, List.take_append_drop]

end Buffer

end MuduoPlus
