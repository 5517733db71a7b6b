import MuduoPlus.Buffer

namespace MuduoPlus

/-- The member functions of `Buffer` that change it or hand bytes out. -/
inductive BufferOp where
  | append (data : Bytes)
  | retrieve (len : Nat)
  | retrieveAll
  | retrieveAsString (len : Nat)
  | retrieveAllAsString
  | ensureWritableBytes (len : Nat)
  | writeFd (result : WriteResult)
  | readFd (result : ReadResult)

/-- One call, with the string it returns (empty where it returns none). -/
def Buffer.apply (b : Buffer) : BufferOp → Bytes × Buffer
  | .append data => ([], b.append data)
  | .retrieve len => ([], b.retrieve len)
  | .retrieveAll => ([], b.retrieveAll)
  | .retrieveAsString len => b.retrieveAsString len
  | .retrieveAllAsString => b.retrieveAllAsString
  | .ensureWritableBytes len => ([], b.ensureWritableBytes len)
  | .writeFd result => ([], b.writeFd result)
  | .readFd result => ([], b.readFd result)

/-- What a caller and the kernel keep to: a string no longer than the content, no more
bytes read than there is room for, no more bytes written than there are. -/
def BufferOp.Permitted (b : Buffer) : BufferOp → Prop
  | .retrieveAsString len => len ≤ b.readableBytes
  | .writeFd (.wrote n) => n ≤ b.readableBytes
  | .readFd (.data bytes) => bytes.length ≤ b.readFdRoom
  | _ => True

/-- The byte queue a `Buffer` stands for: the same calls on a plain list. -/
def fifoApply (queue : Bytes) : BufferOp → Bytes × Bytes
  | .append data => ([], queue ++ data)
  | .retrieve len => ([], queue.drop len)
  | .retrieveAll => ([], [])
  | .retrieveAsString len => (queue.take len, queue.drop len)
  | .retrieveAllAsString => (queue, [])
  | .ensureWritableBytes _ => ([], queue)
  | .writeFd _ => ([], queue)
  | .readFd (.data bytes) => ([], queue ++ bytes)
  | .readFd (.error _) => ([], queue)

/-- A run of calls on a buffer and on the queue next to it, with what each of them
has handed out so far. -/
inductive BufferRun (initalSize : Nat) : Buffer → Bytes → Bytes → Bytes → Prop
  | start : BufferRun initalSize (Buffer.new initalSize) [] [] []
  | next {b queue out taken} (op : BufferOp) : BufferRun initalSize b queue out taken →
      op.Permitted b →
      BufferRun initalSize (b.apply op).2 (fifoApply queue op).2
        (out ++ (b.apply op).1) (taken ++ (fifoApply queue op).1)

theorem Buffer.apply_valid {b : Buffer} (hv : b.Valid) (op : BufferOp) : (b.apply op).2.Valid := by
  cases op with
  | append data => exact append_valid hv data
  | retrieve len => exact retrieve_valid hv len
  | retrieveAll => exact retrieveAll_valid hv
  | retrieveAsString len => exact retrieve_valid hv len
  | retrieveAllAsString => exact retrieve_valid hv b.readableBytes
  | ensureWritableBytes len => exact ensureWritableBytes_valid hv len
  | writeFd result => exact hv
  | readFd result =>
    cases result with
    | data bytes => exact (readFd_spec hv bytes).1
    | error errno => exact hv

/-- One call on a valid buffer is one call on its queue. -/
theorem Buffer.apply_refines {b : Buffer} (hv : b.Valid) {op : BufferOp} (hp : op.Permitted b) :
    (b.apply op).2.readable = (fifoApply b.readable op).2 ∧
      (b.apply op).1 = (fifoApply b.readable op).1 := by
  have hlen := length_readable hv
  cases op with
  | append data => exact ⟨append_readable hv data, rfl⟩
  | retrieve len => exact ⟨retrieve_readable hv len, rfl⟩
  | retrieveAll => exact ⟨retrieveAll_readable b, rfl⟩
  | retrieveAsString len => exact ⟨retrieve_readable hv len, retrieveAsString_fst hv hp⟩
  | retrieveAllAsString =>
    have hdrop := retrieve_readable hv b.readableBytes
    have htake := retrieveAsString_fst hv (le_refl b.readableBytes)
    rw [List.drop_eq_nil_of_le (by omega)] at hdrop
    rw [List.take_of_length_le (by omega)] at htake
    exact ⟨hdrop, htake⟩
  | ensureWritableBytes len => exact ⟨ensureWritableBytes_readable hv len, rfl⟩
  | writeFd result => exact ⟨rfl, rfl⟩
  | readFd result =>
    cases result with
    | data bytes => exact ⟨(readFd_spec hv bytes).2, rfl⟩
    | error errno => exact ⟨rfl, rfl⟩

theorem BufferRun.refines {n : Nat} {b : Buffer} {queue out taken : Bytes}
    (h : BufferRun n b queue out taken) : b.Valid ∧ b.readable = queue ∧ out = taken := by
  induction h with
  | start => exact ⟨Buffer.new_valid n, Buffer.new_readable n, rfl⟩
  | @next b queue out taken op _ hp ih =>
    obtain ⟨hv, hq, ho⟩ := ih
    obtain ⟨hr, hs⟩ := Buffer.apply_refines hv hp
    rw [hq] at hr hs
    exact ⟨Buffer.apply_valid hv op, hr, by rw [ho, hs]⟩

/-- `Buffer` is a byte queue: along every run of its member functions the indices stay
ordered, the readable bytes are the queue and the strings handed out are what was
taken from it; making room and writing out change no readable byte. -/
theorem buffer_refines_fifo {n : Nat} {b : Buffer} {queue out taken : Bytes}
    (h : BufferRun n b queue out taken) :
    (kCheapPrepend ≤ b.readerIndex ∧ b.readerIndex ≤ b.writerIndex ∧
      b.writerIndex ≤ b.buffer.length) ∧
    b.readable = queue ∧ out = taken ∧
    (∀ len, (b.ensureWritableBytes len).readable = b.readable ∧
      len ≤ (b.ensureWritableBytes len).writableBytes) ∧
    (∀ result, (b.writeFd result).readable = b.readable) := by
  obtain ⟨hv, hq, ho⟩ := h.refines
  refine ⟨⟨hv.prepend_le, hv.reader_le, hv.writer_le⟩, hq, ho, ?_, fun _ => rfl⟩
  intro len
  exact ⟨Buffer.ensureWritableBytes_readable hv len, Buffer.ensureWritableBytes_room hv len⟩

/-- Four bytes into a two-byte buffer, two out, then a growing `readFd`. -/
theorem buffer_refines_fifo_small :
    ∃ b queue out taken, BufferRun 2 b queue out taken ∧ b.readable = [3, 4, 5] ∧
      b.readable = queue ∧ out = [1, 2] ∧ out = taken := by
  have h0 : BufferRun 2 (Buffer.new 2) [] [] [] := .start
  have h1 := h0.next (.append [1, 2, 3, 4]) trivial
  have h2 := h1.next (.retrieveAsString 2) (by change 2 ≤ _; decide)
  have h3 := h2.next (.readFd (.data [5])) (by change 1 ≤ _; decide)
  have h := buffer_refines_fifo h3
  exact ⟨_, _, _, _, h3, by decide, h.2.1, by decide, h.2.2.1⟩

end MuduoPlus
