import MuduoPlus.ActionSystem
import MuduoPlus.BufferFifo

namespace MuduoPlus

/-- The content that a call of `ensureWritableBytes` asks room for. -/
def BufferOp.asked (b : Buffer) : BufferOp → Nat
  | .ensureWritableBytes len => b.readableBytes + len
  | _ => 0

/-- A buffer, with the most it has held or was asked to hold so far. -/
structure BufferHistory where
  buffer : Buffer
  peak : Nat

/-- Any calls in any order on a buffer of `initalSize`. -/
def growthSystem (initalSize : Nat) : ActionSystem BufferHistory BufferOp where
  init h := h = ⟨Buffer.new initalSize, 0⟩
  permitted _ _ := True
  apply op h := ⟨(h.buffer.apply op).2,
    max h.peak (max (h.buffer.apply op).2.readableBytes (op.asked h.buffer))⟩

namespace Buffer

variable {b c d : Buffer} {len demand : Nat}

/-- `c` is no shorter than `b`, and longer only up to twice the content `demand`. -/
structure Grows (demand : Nat) (b c : Buffer) : Prop where
  le_length : b.buffer.length ≤ c.buffer.length
  length_le : c.buffer.length ≤ max b.buffer.length (kCheapPrepend + 2 * demand)

theorem Grows.of_length_eq (h : c.buffer.length = b.buffer.length) (demand : Nat) :
    Grows demand b c :=
  ⟨Nat.le_of_eq h.symm, by rw [h]; exact Nat.le_max_left _ _⟩

theorem Grows.of_same_length (h : Grows demand b c) (hb : d.buffer.length = b.buffer.length) :
    Grows demand d c := by
  obtain ⟨hlo, hhi⟩ := h
  rw [← hb] at hlo hhi
  exact ⟨hlo, hhi⟩

/-- The vector is resized only when what lies in front of the content and behind it is less than
`len`, so what is kept in front is less than `len` as well. -/
theorem makeSpace_grows (hv : b.Valid) (hl : b.writableBytes < len) :
    Grows (b.readableBytes + len) b (b.makeSpace len) := by
  have hr := hv.reader_le
  have hw := hv.writer_le
  unfold writableBytes at hl
  unfold makeSpace
  split
  next hroom =>
    have hs : (resize b.buffer (b.writerIndex + len) 0).length = b.writerIndex + len :=
      length_resize (by omega)
    simp only [writableBytes, prependableBytes] at hroom
    constructor
    · simp only [hs]
      omega
    · simp only [hs, readableBytes]
      omega
  next => exact Grows.of_length_eq (length_copyWithin _) _

theorem ensureWritableBytes_grows (hv : b.Valid) (len : Nat) :
    Grows (b.readableBytes + len) b (b.ensureWritableBytes len) := by
  unfold ensureWritableBytes
  split
  next hl => exact makeSpace_grows hv hl
  next => exact Grows.of_length_eq rfl _

theorem readableBytes_append (hv : b.Valid) (data : Bytes) :
    (b.append data).readableBytes = b.readableBytes + data.length := by
  rw [← length_readable (append_valid hv data), append_readable hv, List.length_append,
    length_readable hv]

theorem append_grows (hv : b.Valid) (data : Bytes) :
    Grows (b.append data).readableBytes b (b.append data) := by
  have hgrows := ensureWritableBytes_grows hv data.length
  have hroom := ensureWritableBytes_room hv data.length
  have hw := (ensureWritableBytes_valid hv data.length).writer_le
  unfold writableBytes at hroom
  have hlen : (b.append data).buffer.length = (b.ensureWritableBytes data.length).buffer.length :=
    length_overwrite (by omega)
  rw [readableBytes_append hv]
  exact ⟨by rw [hlen]; exact hgrows.le_length, by rw [hlen]; exact hgrows.length_le⟩

/-- What spills into `extrabuf` is appended to a full buffer of the same length. -/
theorem readFd_grows (hv : b.Valid) (data : Bytes) :
    Grows (b.readFd (.data data)).readableBytes b (b.readFd (.data data)) := by
  have hw := hv.writer_le
  have htake : (data.take b.writableBytes).length ≤ b.writableBytes := List.length_take_le _ _
  have hlen : (overwrite b.buffer b.writerIndex (data.take b.writableBytes)).length =
      b.buffer.length := by
    apply length_overwrite
    unfold writableBytes at htake ⊢
    omega
  simp only [readFd]
  split
  next => exact Grows.of_length_eq hlen _
  next hd =>
    have hfull : (data.take b.writableBytes).length = b.writableBytes := by
      rw [List.length_take]
      omega
    have hcv := (readFd_fill hv htake).1
    have hend : b.writerIndex + (data.take b.writableBytes).length =
        (overwrite b.buffer b.writerIndex (data.take b.writableBytes)).length := by
      rw [hlen, hfull]
      unfold writableBytes
      omega
    rw [hend] at hcv
    exact (append_grows hcv _).of_same_length hlen.symm

theorem retrieve_length (b : Buffer) (len : Nat) :
    (b.retrieve len).buffer.length = b.buffer.length := by
  unfold retrieve
  split
  · rfl
  · rfl

/-- One call grows the buffer at most to twice what it then holds or was asked to hold. -/
theorem apply_grows (hv : b.Valid) (op : BufferOp) :
    Grows (max (b.apply op).2.readableBytes (op.asked b)) b (b.apply op).2 := by
  have hmono : ∀ {c : Buffer} {m n : Nat}, m ≤ n → Grows m b c → Grows n b c := by
    intro c m n hmn hg
    exact ⟨hg.le_length, hg.length_le.trans (max_le_max_left _ (by omega))⟩
  cases op with
  | append data => exact hmono (Nat.le_max_left _ _) (append_grows hv data)
  | retrieve len => exact Grows.of_length_eq (retrieve_length b len) _
  | retrieveAll =>
    have hlen : b.retrieveAll.buffer.length = b.buffer.length := rfl
    exact Grows.of_length_eq hlen _
  | retrieveAsString len => exact Grows.of_length_eq (retrieve_length b len) _
  | retrieveAllAsString => exact Grows.of_length_eq (retrieve_length b b.readableBytes) _
  | ensureWritableBytes len =>
    exact hmono (Nat.le_max_right _ _) (ensureWritableBytes_grows hv len)
  | writeFd result => exact Grows.of_length_eq rfl _
  | readFd result =>
    cases result with
    | data bytes => exact hmono (Nat.le_max_left _ _) (readFd_grows hv bytes)
    | error errno => exact Grows.of_length_eq rfl _

end Buffer

namespace BufferHistory

variable {n : Nat} {h : BufferHistory}

/-- The vector is at most twice the peak of the content, or as long as it was made. -/
structure GrowthInv (n : Nat) (h : BufferHistory) : Prop where
  valid : h.buffer.Valid
  bounded : h.buffer.buffer.length ≤ kCheapPrepend + max n (2 * h.peak)

theorem GrowthInv.init (n : Nat) : GrowthInv n ⟨Buffer.new n, 0⟩ := by
  refine ⟨Buffer.new_valid n, ?_⟩
  simp only [Buffer.new, List.length_replicate]
  omega

theorem GrowthInv.apply (hi : GrowthInv n h) (op : BufferOp) :
    GrowthInv n ((growthSystem n).apply op h) := by
  have hgrows := (Buffer.apply_grows hi.valid op).length_le
  have hbound := hi.bounded
  refine ⟨Buffer.apply_valid hi.valid op, ?_⟩
  simp only [growthSystem]
  omega

end BufferHistory

end MuduoPlus
