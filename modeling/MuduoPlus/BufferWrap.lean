import MuduoPlus.BufferGrowth

namespace MuduoPlus

/-- `Buffer` with `size_t` as the machine has it: sums and differences wrap around. -/
structure SizedBuffer where
  buffer : Bytes
  readerIndex : UInt64
  writerIndex : UInt64
  deriving DecidableEq

namespace SizedBuffer

def cheapPrepend : UInt64 := 8

/-- `buffer_.size()`. -/
def size (b : SizedBuffer) : UInt64 := b.buffer.length.toUInt64

def new (initalSize : UInt64) : SizedBuffer :=
  ⟨List.replicate (cheapPrepend + initalSize).toNat 0, cheapPrepend, cheapPrepend⟩

def readableBytes (b : SizedBuffer) : UInt64 := b.writerIndex - b.readerIndex

def writableBytes (b : SizedBuffer) : UInt64 := b.size - b.writerIndex

def prependableBytes (b : SizedBuffer) : UInt64 := b.readerIndex

def retrieveAll (b : SizedBuffer) : SizedBuffer :=
  { b with readerIndex := cheapPrepend, writerIndex := cheapPrepend }

def retrieve (b : SizedBuffer) (len : UInt64) : SizedBuffer :=
  if len < b.readableBytes then { b with readerIndex := b.readerIndex + len } else b.retrieveAll

def makeSpace (b : SizedBuffer) (len : UInt64) : SizedBuffer :=
  if b.writableBytes + b.prependableBytes < len + cheapPrepend then
    { b with buffer := resize b.buffer (b.writerIndex + len).toNat 0 }
  else
    { buffer := copyWithin b.buffer b.readerIndex.toNat cheapPrepend.toNat
        (b.writerIndex - b.readerIndex).toNat
      readerIndex := cheapPrepend
      writerIndex := cheapPrepend + b.readableBytes }

def ensureWritableBytes (b : SizedBuffer) (len : UInt64) : SizedBuffer :=
  if b.writableBytes < len then b.makeSpace len else b

def append (b : SizedBuffer) (data : Bytes) : SizedBuffer :=
  let c := b.ensureWritableBytes data.length.toUInt64
  { c with
    buffer := overwrite c.buffer c.writerIndex.toNat data
    writerIndex := c.writerIndex + data.length.toUInt64 }

def readFd (b : SizedBuffer) : ReadResult → SizedBuffer
  | .error _ => b
  | .data bytes =>
    let writable := b.writableBytes
    let filled := overwrite b.buffer b.writerIndex.toNat (bytes.take writable.toNat)
    if bytes.length.toUInt64 ≤ writable then
      { b with buffer := filled, writerIndex := b.writerIndex + bytes.length.toUInt64 }
    else
      { b with buffer := filled, writerIndex := filled.length.toUInt64 : SizedBuffer }.append
        (bytes.drop writable.toNat)

end SizedBuffer

/-- The calls that grow or empty a buffer, with their arguments as `size_t`. -/
inductive SizedOp where
  | append (data : Bytes)
  | retrieve (len : UInt64)
  | retrieveAll
  | retrieveAsString (len : UInt64)
  | ensureWritableBytes (len : UInt64)
  | readFd (result : ReadResult)

namespace SizedOp

/-- What a call does to the buffer; `retrieveAsString` copies a string out and retrieves. -/
def apply : SizedOp → SizedBuffer → SizedBuffer
  | .append data, b => b.append data
  | .retrieve len, b => b.retrieve len
  | .retrieveAll, b => b.retrieveAll
  | .retrieveAsString len, b => b.retrieve len
  | .ensureWritableBytes len, b => b.ensureWritableBytes len
  | .readFd result, b => b.readFd result

/-- The content that a call of `ensureWritableBytes` asks room for. -/
def asked (b : SizedBuffer) : SizedOp → Nat
  | .ensureWritableBytes len => b.readableBytes.toNat + len.toNat
  | _ => 0

/-- The same call on sizes that have no limit. -/
def toOp : SizedOp → BufferOp
  | .append data => .append data
  | .retrieve len => .retrieve len.toNat
  | .retrieveAll => .retrieveAll
  | .retrieveAsString len => .retrieveAsString len.toNat
  | .ensureWritableBytes len => .ensureWritableBytes len.toNat
  | .readFd result => .readFd result

/-- `writerIndex_ + len` of the call is a `size_t`. -/
def Sized (b : SizedBuffer) : SizedOp → Prop
  | .append data => b.writerIndex.toNat + data.length < 2 ^ 64
  | .ensureWritableBytes len => b.writerIndex.toNat + len.toNat < 2 ^ 64
  | .readFd (.data bytes) => b.writerIndex.toNat + bytes.length < 2 ^ 64
  | _ => True

end SizedOp

namespace Buffer

variable {b : Buffer}

/-- Room is made by moving the content to the front, or behind the end of the request. -/
theorem ensureWritableBytes_bounds (hv : b.Valid) (len : Nat) :
    (b.ensureWritableBytes len).writerIndex ≤ b.writerIndex ∧
      (b.ensureWritableBytes len).buffer.length ≤ max b.buffer.length (b.writerIndex + len) := by
  have hp := hv.prepend_le
  have hr := hv.reader_le
  unfold ensureWritableBytes
  split
  next hfull =>
    unfold writableBytes at hfull
    unfold makeSpace
    split
    next =>
      refine ⟨Nat.le_refl _, ?_⟩
      dsimp only
      rw [length_resize (by omega)]
      exact Nat.le_max_right _ _
    next =>
      dsimp only
      rw [length_copyWithin]
      exact ⟨by unfold readableBytes; omega, Nat.le_max_left _ _⟩
  next => exact ⟨Nat.le_refl _, Nat.le_max_left _ _⟩

theorem append_length_le (hv : b.Valid) (data : Bytes) :
    (b.append data).buffer.length ≤ max b.buffer.length (b.writerIndex + data.length) := by
  have hroom := ensureWritableBytes_room hv data.length
  have hw := (ensureWritableBytes_valid hv data.length).writer_le
  have hlen : (b.append data).buffer.length = (b.ensureWritableBytes data.length).buffer.length := by
    apply length_overwrite
    unfold writableBytes at hroom
    omega
  rw [hlen]
  exact (ensureWritableBytes_bounds hv data.length).2

theorem readFd_length_le (hv : b.Valid) (bytes : Bytes) :
    (b.readFd (.data bytes)).buffer.length ≤ max b.buffer.length (b.writerIndex + bytes.length) := by
  have hp := hv.prepend_le
  have hr := hv.reader_le
  have hw := hv.writer_le
  have htake : (bytes.take b.writableBytes).length ≤ b.writableBytes := List.length_take_le _ _
  have hfilled : (overwrite b.buffer b.writerIndex (bytes.take b.writableBytes)).length =
      b.buffer.length := by
    apply length_overwrite
    unfold writableBytes at htake ⊢
    omega
  simp only [readFd]
  generalize overwrite b.buffer b.writerIndex (bytes.take b.writableBytes) = filled at hfilled ⊢
  split
  next => exact hfilled.trans_le (Nat.le_max_left _ _)
  next =>
    have hvalid : Valid ⟨filled, b.readerIndex, filled.length⟩ := ⟨hp, by simp only; omega, le_rfl⟩
    have hle := append_length_le hvalid (bytes.drop b.writableBytes)
    rw [List.length_drop] at hle
    simp only [writableBytes, hfilled] at hle ⊢
    omega

end Buffer

namespace SizedBuffer

variable {b : SizedBuffer} {len : UInt64}

/-- The buffer without the limit on its sizes. -/
def toBuffer (b : SizedBuffer) : Buffer := ⟨b.buffer, b.readerIndex.toNat, b.writerIndex.toNat⟩

/-- The indices are in order and the vector has a length that `size()` can return. -/
structure Valid (b : SizedBuffer) : Prop where
  indices : b.toBuffer.Valid
  small : b.buffer.length < 2 ^ 64

theorem toNat_length {data : Bytes} (h : data.length < 2 ^ 64) :
    data.length.toUInt64.toNat = data.length :=
  UInt64.toNat_ofNat_of_lt' h

theorem toNat_readableBytes (hv : b.Valid) : b.readableBytes.toNat = b.toBuffer.readableBytes := by
  have hle : b.readerIndex ≤ b.writerIndex := UInt64.le_iff_toNat_le.mpr hv.indices.reader_le
  exact UInt64.toNat_sub_of_le _ _ hle

theorem toNat_writableBytes (hv : b.Valid) : b.writableBytes.toNat = b.toBuffer.writableBytes := by
  have hsize : b.size.toNat = b.buffer.length := toNat_length hv.small
  have hle : b.writerIndex ≤ b.size := by
    rw [UInt64.le_iff_toNat_le, hsize]
    exact hv.indices.writer_le
  rw [writableBytes, UInt64.toNat_sub_of_le _ _ hle, hsize]
  rfl

theorem toBuffer_retrieve (hv : b.Valid) (len : UInt64) :
    (b.retrieve len).toBuffer = b.toBuffer.retrieve len.toNat := by
  have hiff : len < b.readableBytes ↔ len.toNat < b.toBuffer.readableBytes := by
    rw [UInt64.lt_iff_toNat_lt, toNat_readableBytes hv]
  have hw := hv.indices.writer_le
  have hsmall := hv.small
  unfold retrieve Buffer.retrieve
  by_cases hlen : len.toNat < b.toBuffer.readableBytes
  · have hsum : b.readerIndex.toNat + len.toNat < 2 ^ 64 := by
      simp only [Buffer.readableBytes, toBuffer] at hlen hw
      omega
    rw [if_pos (hiff.mpr hlen), if_pos hlen]
    simp only [toBuffer, UInt64.toNat_add, Nat.mod_eq_of_lt hsum]
  · rw [if_neg (hlen ∘ hiff.mp), if_neg hlen]
    rfl

/-- A request whose end is a `size_t` is answered as if sizes had no limit. -/
theorem toBuffer_makeSpace (hv : b.Valid) (hlen : b.writerIndex.toNat + len.toNat < 2 ^ 64) :
    (b.makeSpace len).toBuffer = b.toBuffer.makeSpace len.toNat := by
  have hp := hv.indices.prepend_le
  have hr := hv.indices.reader_le
  have hw := hv.indices.writer_le
  have hsmall := hv.small
  have hreadable := toNat_readableBytes hv
  have hprepend : cheapPrepend.toNat = kCheapPrepend := rfl
  simp only [toBuffer, kCheapPrepend] at hp hr hw
  have hroom : (b.writableBytes + b.prependableBytes).toNat =
      b.toBuffer.writableBytes + b.toBuffer.prependableBytes := by
    rw [UInt64.toNat_add, toNat_writableBytes hv]
    apply Nat.mod_eq_of_lt
    simp only [Buffer.writableBytes, prependableBytes, toBuffer]
    omega
  have hneed : (len + cheapPrepend).toNat = len.toNat + kCheapPrepend := by
    rw [UInt64.toNat_add, hprepend]
    apply Nat.mod_eq_of_lt
    simp only [kCheapPrepend]
    omega
  have hiff : b.writableBytes + b.prependableBytes < len + cheapPrepend ↔
      b.toBuffer.writableBytes + b.toBuffer.prependableBytes < len.toNat + kCheapPrepend := by
    rw [UInt64.lt_iff_toNat_lt, hroom, hneed]
  unfold makeSpace Buffer.makeSpace
  by_cases hgrow : b.toBuffer.writableBytes + b.toBuffer.prependableBytes < len.toNat + kCheapPrepend
  · rw [if_pos (hiff.mpr hgrow), if_pos hgrow]
    simp only [toBuffer, UInt64.toNat_add, Nat.mod_eq_of_lt hlen]
  · have hmoved : (cheapPrepend + b.readableBytes).toNat =
        kCheapPrepend + b.toBuffer.readableBytes := by
      rw [UInt64.toNat_add, hprepend, hreadable]
      apply Nat.mod_eq_of_lt
      simp only [Buffer.readableBytes, toBuffer, kCheapPrepend]
      omega
    have hcount : (b.writerIndex - b.readerIndex).toNat =
        b.writerIndex.toNat - b.readerIndex.toNat := hreadable
    rw [if_neg (hgrow ∘ hiff.mp), if_neg hgrow]
    simp only [toBuffer, hmoved, hcount, hprepend]

theorem toBuffer_ensureWritableBytes (hv : b.Valid)
    (hlen : b.writerIndex.toNat + len.toNat < 2 ^ 64) :
    (b.ensureWritableBytes len).toBuffer = b.toBuffer.ensureWritableBytes len.toNat := by
  have hiff : b.writableBytes < len ↔ b.toBuffer.writableBytes < len.toNat := by
    rw [UInt64.lt_iff_toNat_lt, toNat_writableBytes hv]
  unfold ensureWritableBytes Buffer.ensureWritableBytes
  by_cases hfull : b.toBuffer.writableBytes < len.toNat
  · rw [if_pos (hiff.mpr hfull), if_pos hfull]
    exact toBuffer_makeSpace hv hlen
  · rw [if_neg (hfull ∘ hiff.mp), if_neg hfull]

theorem toBuffer_append (hv : b.Valid) {data : Bytes}
    (hdata : b.writerIndex.toNat + data.length < 2 ^ 64) :
    (b.append data).toBuffer = b.toBuffer.append data := by
  have hlen : data.length.toUInt64.toNat = data.length := toNat_length (by omega)
  have hsame := toBuffer_ensureWritableBytes hv (hlen.symm ▸ hdata)
  rw [hlen] at hsame
  have hle := (Buffer.ensureWritableBytes_bounds hv.indices data.length).1
  rw [← hsame] at hle
  have hend : (b.ensureWritableBytes data.length.toUInt64).writerIndex.toNat + data.length <
      2 ^ 64 := by
    simp only [toBuffer] at hle
    omega
  unfold append Buffer.append
  rw [← hsame]
  simp only [toBuffer, UInt64.toNat_add, hlen, Nat.mod_eq_of_lt hend]

/-- The buffer once `readv` has filled it to its end. -/
theorem Valid.full (hv : b.Valid) {filled : Bytes} (hfilled : filled.length = b.buffer.length) :
    Valid ⟨filled, b.readerIndex, filled.length.toUInt64⟩ := by
  have hr := hv.indices.reader_le
  have hw := hv.indices.writer_le
  have hsmall : filled.length < 2 ^ 64 := hfilled.symm ▸ hv.small
  refine ⟨⟨hv.indices.prepend_le, ?_, ?_⟩, hsmall⟩
  · have hend := toNat_length hsmall
    simp only [toBuffer] at hr hw ⊢
    omega
  · exact Nat.le_of_eq (toNat_length hsmall)

theorem toBuffer_readFd (hv : b.Valid) {bytes : Bytes}
    (hbytes : b.writerIndex.toNat + bytes.length < 2 ^ 64) :
    (b.readFd (.data bytes)).toBuffer = b.toBuffer.readFd (.data bytes) := by
  have hlen : bytes.length.toUInt64.toNat = bytes.length := toNat_length (by omega)
  have hwritable := toNat_writableBytes hv
  have hw := hv.indices.writer_le
  have hiff : bytes.length.toUInt64 ≤ b.writableBytes ↔ bytes.length ≤ b.toBuffer.writableBytes := by
    rw [UInt64.le_iff_toNat_le, hlen, hwritable]
  have htake : (bytes.take b.toBuffer.writableBytes).length ≤ b.toBuffer.writableBytes :=
    List.length_take_le _ _
  have hfilled : (overwrite b.buffer b.writerIndex.toNat
      (bytes.take b.toBuffer.writableBytes)).length = b.buffer.length := by
    apply length_overwrite
    simp only [Buffer.writableBytes, toBuffer] at htake hw ⊢
    omega
  have hbuffer : b.toBuffer.buffer = b.buffer := rfl
  have hwriter : b.toBuffer.writerIndex = b.writerIndex.toNat := rfl
  simp only [readFd, Buffer.readFd, hwritable, hbuffer, hwriter]
  generalize overwrite b.buffer b.writerIndex.toNat (bytes.take b.toBuffer.writableBytes) = filled
    at hfilled ⊢
  by_cases hfits : bytes.length ≤ b.toBuffer.writableBytes
  · rw [if_pos (hiff.mpr hfits), if_pos hfits]
    simp only [toBuffer, UInt64.toNat_add, hlen, Nat.mod_eq_of_lt hbytes]
  · have hfull : filled.length.toUInt64.toNat = filled.length := toNat_length (hfilled.symm ▸ hv.small)
    rw [if_neg (hfits ∘ hiff.mp), if_neg hfits]
    refine (toBuffer_append (hv.full hfilled) ?_).trans ?_
    · rw [hfull, hfilled, List.length_drop]
      simp only [Buffer.writableBytes, toBuffer] at hw hfits ⊢
      omega
    · simp only [toBuffer, hfull]

end SizedBuffer

namespace SizedOp

variable {b : SizedBuffer}

/-- As long as no `writerIndex_ + len` wraps around, the limit of `size_t` is not seen. -/
theorem toBuffer_apply {op : SizedOp} (hv : b.Valid) (hop : op.Sized b) :
    (op.apply b).toBuffer = (b.toBuffer.apply op.toOp).2 := by
  cases op with
  | append data => exact SizedBuffer.toBuffer_append hv hop
  | retrieve len => exact SizedBuffer.toBuffer_retrieve hv len
  | retrieveAll => rfl
  | retrieveAsString len => exact SizedBuffer.toBuffer_retrieve hv len
  | ensureWritableBytes len => exact SizedBuffer.toBuffer_ensureWritableBytes hv hop
  | readFd result =>
    cases result with
    | data bytes => exact SizedBuffer.toBuffer_readFd hv hop
    | error errno => rfl

theorem apply_valid {op : SizedOp} (hv : b.Valid) (hop : op.Sized b) : (op.apply b).Valid := by
  have hsame := toBuffer_apply hv hop
  have hsmall := hv.small
  refine ⟨hsame ▸ Buffer.apply_valid hv.indices op.toOp, ?_⟩
  have hlength : (op.apply b).buffer.length = (b.toBuffer.apply op.toOp).2.buffer.length :=
    congrArg (fun c : Buffer => c.buffer.length) hsame
  rw [hlength]
  cases op with
  | append data =>
    have hle := Buffer.append_length_le hv.indices data
    simp only [Sized] at hop
    simp only [SizedBuffer.toBuffer, toOp, Buffer.apply] at hle ⊢
    omega
  | retrieve len => exact (Buffer.retrieve_length _ _).trans_lt hsmall
  | retrieveAll => exact hsmall
  | retrieveAsString len => exact (Buffer.retrieve_length _ _).trans_lt hsmall
  | ensureWritableBytes len =>
    have hle := (Buffer.ensureWritableBytes_bounds hv.indices len.toNat).2
    simp only [Sized] at hop
    simp only [SizedBuffer.toBuffer, toOp, Buffer.apply] at hle ⊢
    omega
  | readFd result =>
    cases result with
    | data bytes =>
      have hle := Buffer.readFd_length_le hv.indices bytes
      simp only [Sized] at hop
      simp only [SizedBuffer.toBuffer, toOp, Buffer.apply] at hle ⊢
      omega
    | error errno => exact hsmall

theorem asked_toOp (hv : b.Valid) (op : SizedOp) : op.toOp.asked b.toBuffer = op.asked b := by
  cases op with
  | ensureWritableBytes len =>
    exact congrArg (· + len.toNat) (SizedBuffer.toNat_readableBytes hv).symm
  | append data => rfl
  | retrieve len => rfl
  | retrieveAll => rfl
  | retrieveAsString len => rfl
  | readFd result => rfl

end SizedOp

/-- A buffer, with the most it has held or was asked to hold so far. -/
structure SizedHistory where
  buffer : SizedBuffer
  peak : Nat

/-- Any calls in any order on a buffer of `initalSize`. -/
def sizedGrowthSystem (initalSize : UInt64) : ActionSystem SizedHistory SizedOp where
  init h := h = ⟨SizedBuffer.new initalSize, 0⟩
  permitted _ _ := True
  apply op h := ⟨op.apply h.buffer,
    max h.peak (max (op.apply h.buffer).readableBytes.toNat (op.asked h.buffer))⟩

namespace SizedHistory

variable {n : UInt64} {h : SizedHistory}

/-- No `writerIndex_ + len` wraps around. -/
def Sized (op : SizedOp) (h : SizedHistory) : Prop := op.Sized h.buffer

/-- What `GrowthInv` says, of a buffer within the limit. -/
structure GrowthInv (n : UInt64) (h : SizedHistory) : Prop where
  valid : h.buffer.Valid
  inv : BufferHistory.GrowthInv n.toNat ⟨h.buffer.toBuffer, h.peak⟩

theorem toHistory_apply {op : SizedOp} (hv : h.buffer.Valid) (hop : op.Sized h.buffer) :
    (growthSystem n.toNat).apply op.toOp ⟨h.buffer.toBuffer, h.peak⟩ =
      ⟨((sizedGrowthSystem n).apply op h).buffer.toBuffer, ((sizedGrowthSystem n).apply op h).peak⟩ := by
  have hsame := SizedOp.toBuffer_apply hv hop
  have hreadable := SizedBuffer.toNat_readableBytes (SizedOp.apply_valid hv hop)
  simp only [growthSystem, sizedGrowthSystem, ← hsame, SizedOp.asked_toOp hv, hreadable]

theorem GrowthInv.apply (hi : GrowthInv n h) {op : SizedOp} (hop : op.Sized h.buffer) :
    GrowthInv n ((sizedGrowthSystem n).apply op h) := by
  refine ⟨SizedOp.apply_valid hi.valid hop, ?_⟩
  rw [← toHistory_apply hi.valid hop]
  exact hi.inv.apply op.toOp

theorem GrowthInv.init (hn : kCheapPrepend + n.toNat < 2 ^ 64) :
    GrowthInv n ⟨SizedBuffer.new n, 0⟩ := by
  have hlength : (SizedBuffer.cheapPrepend + n).toNat = kCheapPrepend + n.toNat := by
    rw [UInt64.toNat_add]
    exact Nat.mod_eq_of_lt hn
  have hnew : (SizedBuffer.new n).toBuffer = Buffer.new n.toNat := by
    simp only [SizedBuffer.toBuffer, SizedBuffer.new, hlength]
    rfl
  refine ⟨⟨hnew ▸ Buffer.new_valid n.toNat, ?_⟩, ?_⟩
  · simp only [SizedBuffer.new, List.length_replicate, hlength]
    exact hn
  · dsimp only
    rw [hnew]
    exact BufferHistory.GrowthInv.init n.toNat

theorem GrowthInv.le_run (hi : GrowthInv n h) {ops : List SizedOp}
    (hops : ((sizedGrowthSystem n).restrict Sized).Permits ops h) :
    h.buffer.buffer.length ≤ ((sizedGrowthSystem n).run ops h).buffer.buffer.length := by
  induction ops generalizing h with
  | nil => exact Nat.le_refl _
  | cons op ops ih =>
    have hgrows := (Buffer.apply_grows hi.valid.indices op.toOp).le_length
    rw [← SizedOp.toBuffer_apply hi.valid hops.1.2] at hgrows
    exact hgrows.trans (ih (hi.apply hops.1.2) hops.2)

/-- In every run in which no `writerIndex_ + len` wraps around, the vector is at most twice the peak
of the content, or as long as it was made, and it does not get shorter. -/
theorem growth_bounded_of_sized (hn : kCheapPrepend + n.toNat < 2 ^ 64)
    (hr : ((sizedGrowthSystem n).restrict Sized).Reachable h) :
    h.buffer.buffer.length ≤ kCheapPrepend + max n.toNat (2 * h.peak) ∧
      ∀ ops, ((sizedGrowthSystem n).restrict Sized).Permits ops h →
        h.buffer.buffer.length ≤ ((sizedGrowthSystem n).run ops h).buffer.buffer.length := by
  have hi : GrowthInv n h := by
    apply hr.invariant
    · intro h h0
      subst h0
      exact GrowthInv.init hn
    · intro op h hperm hi
      exact hi.apply hperm.2
  exact ⟨hi.inv.bounded, fun _ hops => hi.le_run hops⟩

/-- Three bytes read off the front of a full buffer stay in front when it grows. -/
def frontKeptOps : List SizedOp := [.append [1, 2, 3, 4], .retrieve 3, .append [5, 6, 7, 8]]

theorem growth_bounded_frontKeptOps :
    let h := (sizedGrowthSystem 4).run frontKeptOps ⟨SizedBuffer.new 4, 0⟩
    h.peak = 5 ∧ h.buffer.buffer.length = 16 ∧
      h.buffer.buffer.length ≤ kCheapPrepend + max 4 (2 * h.peak) := by
  intro h
  have h0 : ((sizedGrowthSystem 4).restrict Sized).Reachable ⟨SizedBuffer.new 4, 0⟩ := .init rfl
  have hops : ((sizedGrowthSystem 4).restrict Sized).Permits frontKeptOps ⟨SizedBuffer.new 4, 0⟩ := by
    refine ⟨⟨trivial, ?_⟩, ⟨trivial, trivial⟩, ⟨trivial, ?_⟩, trivial⟩
    · show (_ : Nat) < _
      decide
    · show (_ : Nat) < _
      decide
  exact ⟨by decide, by decide, (growth_bounded_of_sized (by decide) (h0.run hops)).1⟩

/-- A request near `2^64`: `writerIndex_ + len` comes to 1, and 24 bytes are cut to one. -/
theorem wrapped_request_shrinks :
    let h := (sizedGrowthSystem 16).run [.append [1, 2]] ⟨SizedBuffer.new 16, 0⟩
    let len : UInt64 := 18446744073709551607
    (sizedGrowthSystem 16).Reachable h ∧ h.buffer.buffer.length = 24 ∧
      ((sizedGrowthSystem 16).apply (.ensureWritableBytes len) h).buffer.buffer.length = 1 := by
  intro h len
  have h0 : (sizedGrowthSystem 16).Reachable ⟨SizedBuffer.new 16, 0⟩ := .init rfl
  exact ⟨h0.run ⟨trivial, trivial⟩, by decide, by decide⟩

end SizedHistory

end MuduoPlus
