import MyTestserver.Library.Transition
import MyTestserver.RawBuffer

namespace MyTestserver

open Transition

namespace Buffer

-- Buffer::readFd as far as it concerns the queue.
def readFd (b : Buffer) (delivered : Bytes) : Buffer :=
  if h : delivered.length ≤ b.writableBytes then b.write delivered h
  else
    (b.write (delivered.take b.writableBytes) (List.length_take_le _ _)).append
      (delivered.drop b.writableBytes)

@[simp] theorem readable_readFd (b : Buffer) (delivered : Bytes) :
    (b.readFd delivered).readable = b.readable ++ delivered := by
  unfold readFd
  split
  · exact b.readable_write delivered _
  · rw [readable_append, readable_write, List.append_assoc, List.take_append_drop]

def raw (b : Buffer) : RawBuffer := ⟨b.buffer, b.readerIndex, b.writerIndex⟩

theorem raw_inOrder (b : Buffer) : b.raw.InOrder := ⟨b.prepend_le, b.reader_le, b.writer_le⟩

end Buffer

namespace RawBuffer

theorem InOrder.exists_raw {r : RawBuffer} (h : r.InOrder) : ∃ b : Buffer, b.raw = r :=
  ⟨⟨r.buffer, r.readerIndex, r.writerIndex, h.1, h.2.1, h.2.2⟩, rfl⟩

section Refines

variable (b : Buffer) {len : ℕ} (data : Bytes)

@[simp] theorem raw_readableBytes : b.raw.readableBytes = .ok b.readableBytes :=
  subSize_eq b.reader_le

@[simp] theorem raw_writableBytes : b.raw.writableBytes = .ok b.writableBytes :=
  subSize_eq b.writer_le

theorem raw_retrieve (hsize : b.buffer.length ≤ vectorMaxSize) (len : ℕ) :
    b.raw.retrieve len = .ok (b.retrieve len).raw := by
  have hreader := b.reader_le
  have hwriter := b.writer_le
  simp only [retrieve, raw_readableBytes, bind, Except.bind, Buffer.retrieve]
  split
  · rename_i hlen
    have hsum : b.readerIndex + len < sizeLimit := by
      unfold Buffer.readableBytes at hlen
      unfold vectorMaxSize at hsize
      unfold sizeLimit
      omega
    simp only [Buffer.raw, pure, Except.pure, addSize_eq hsum]
  · rfl

theorem raw_retrieveAsString (hsize : b.buffer.length ≤ vectorMaxSize)
    (hlen : len ≤ b.readableBytes) :
    b.raw.retrieveAsString len = .ok (b.readable.take len, (b.retrieve len).raw) := by
  have hreader := b.reader_le
  have hwriter := b.writer_le
  have hload : loadBytes b.raw.buffer b.raw.readerIndex len =
      .ok ((b.buffer.drop b.readerIndex).take len) := by
    refine loadBytes_eq ?_
    unfold Buffer.readableBytes at hlen
    change b.readerIndex + len ≤ b.buffer.length
    omega
  have htake : b.readable.take len = (b.buffer.drop b.readerIndex).take len := by
    rw [Buffer.readable, List.take_take, Nat.min_eq_left hlen]
  simp only [retrieveAsString, hload, raw_retrieve b hsize, bind, Except.bind, pure, Except.pure,
    htake]

-- The room before and behind the readable bytes, which the code sums up.
theorem room_eq (hsize : b.buffer.length ≤ vectorMaxSize) :
    subSize (addSize b.writableBytes b.raw.prependableBytes) kCheapPrepend =
      .ok (b.writableBytes + b.prependableBytes - kCheapPrepend) := by
  have hprepend := b.prepend_le
  have hreader := b.reader_le
  have hwriter := b.writer_le
  have hsum : b.writableBytes + b.readerIndex < sizeLimit := by
    unfold Buffer.writableBytes
    unfold vectorMaxSize at hsize
    unfold sizeLimit
    omega
  change subSize (addSize b.writableBytes b.readerIndex) kCheapPrepend = _
  rw [addSize_eq hsum, subSize_eq (by omega)]
  rfl

theorem move_eq (hroom : b.writableBytes < b.writableBytes + b.prependableBytes - kCheapPrepend) :
    moveBytes b.buffer b.readerIndex b.writerIndex kCheapPrepend =
      .ok (overwrite b.buffer kCheapPrepend b.readable) := by
  have hprepend := b.prepend_le
  have hreader := b.reader_le
  have hwriter := b.writer_le
  unfold Buffer.prependableBytes at hroom
  exact if_pos ⟨hreader, hwriter, by omega, by omega⟩

theorem raw_makeSpace_grow (hsize : b.buffer.length ≤ vectorMaxSize)
    (hgrow : b.writableBytes + b.prependableBytes - kCheapPrepend < len) :
    b.raw.makeSpace len = do
      let buffer ← resizeVector b.buffer (addSize b.writerIndex len)
      return ⟨buffer, b.readerIndex, b.writerIndex⟩ := by
  simp only [makeSpace, raw_writableBytes, room_eq b hsize, bind, Except.bind, if_pos hgrow]
  rfl

theorem raw_makeSpace_slide (hsize : b.buffer.length ≤ vectorMaxSize) (hlen : b.writableBytes < len)
    (hslide : ¬b.writableBytes + b.prependableBytes - kCheapPrepend < len) :
    b.raw.makeSpace len = .ok (b.makeSpace len).raw := by
  have hmove : moveBytes b.raw.buffer b.raw.readerIndex b.raw.writerIndex kCheapPrepend =
      .ok (overwrite b.buffer kCheapPrepend b.readable) := move_eq b (by omega)
  have hend : addSize kCheapPrepend b.readableBytes = kCheapPrepend + b.readableBytes := by
    have hprepend := b.prepend_le
    have hreader := b.reader_le
    have hwriter := b.writer_le
    refine addSize_eq ?_
    unfold Buffer.readableBytes
    unfold vectorMaxSize at hsize
    unfold sizeLimit
    omega
  simp only [makeSpace, raw_writableBytes, room_eq b hsize, raw_readableBytes, bind, Except.bind,
    if_neg hslide, hmove, pure, Except.pure, hend, Buffer.makeSpace, dif_neg hslide]
  rfl

-- The vector can refuse to grow; else the operation does what it does on a buffer in order.
theorem raw_makeSpace (hsize : b.buffer.length ≤ vectorMaxSize) (hlen : b.writableBytes < len)
    (hfits : b.writerIndex + len < sizeLimit) :
    b.raw.makeSpace len = .ok (b.makeSpace len).raw ∨
      b.raw.makeSpace len = .error .length_error := by
  by_cases hgrow : b.writableBytes + b.prependableBytes - kCheapPrepend < len
  · rw [raw_makeSpace_grow b hsize hgrow, addSize_eq hfits]
    cases hresize : resizeVector b.buffer (b.writerIndex + len) with
    | error fault =>
        right
        rw [resizeVector_error hresize]
        rfl
    | ok buffer =>
        left
        rw [(resizeVector_ok hresize).2, Buffer.makeSpace, dif_pos hgrow]
        rfl
  · exact .inl (raw_makeSpace_slide b hsize hlen hgrow)

theorem raw_ensureWriteableBytes (hsize : b.buffer.length ≤ vectorMaxSize)
    (hfits : b.writerIndex + len < sizeLimit) :
    b.raw.ensureWriteableBytes len = .ok (b.ensureWriteableBytes len).raw ∨
      b.raw.ensureWriteableBytes len = .error .length_error := by
  simp only [ensureWriteableBytes, raw_writableBytes, bind, Except.bind,
    Buffer.ensureWriteableBytes]
  split
  · rename_i hlen
    exact raw_makeSpace b hsize hlen hfits
  · exact .inl rfl

-- Where the sum wraps around, the vector shrinks to less than what is in use.
theorem raw_ensureWriteableBytes_wraps (hsize : b.buffer.length ≤ vectorMaxSize)
    (hlen : len < sizeLimit) (hwraps : sizeLimit ≤ b.writerIndex + len) :
    ∃ r, b.raw.ensureWriteableBytes len = .ok r ∧ r.buffer.length < r.writerIndex ∧
      r.writerIndex = b.writerIndex := by
  have hprepend := b.prepend_le
  have hreader := b.reader_le
  have hwriter := b.writer_le
  have hlimit : sizeLimit = 2 * vectorMaxSize + 2 := by decide
  have hgrow : b.writableBytes + b.prependableBytes - kCheapPrepend < len := by
    unfold Buffer.writableBytes Buffer.prependableBytes
    omega
  have hroom : b.writableBytes < len := by
    unfold Buffer.writableBytes
    omega
  have hsum : addSize b.writerIndex len < b.writerIndex := addSize_lt (by omega) hlen hwraps
  have hresize : resizeVector b.buffer (addSize b.writerIndex len) =
      .ok (resize b.buffer (addSize b.writerIndex len)) := if_pos (by omega)
  refine ⟨⟨resize b.buffer (addSize b.writerIndex len), b.readerIndex, b.writerIndex⟩, ?_, ?_, rfl⟩
  · simp only [ensureWriteableBytes, raw_writableBytes, bind, Except.bind, if_pos hroom]
    rw [raw_makeSpace_grow b hsize hgrow, hresize]
    rfl
  · rw [resize_length]
    exact hsum

theorem raw_write (hsize : b.buffer.length ≤ vectorMaxSize)
    (hroom : data.length ≤ b.writableBytes) :
    storeBytes b.buffer b.writerIndex data = .ok (b.write data hroom).buffer ∧
      addSize b.writerIndex data.length = (b.write data hroom).writerIndex := by
  have hwriter := b.writer_le
  have hend : b.writerIndex + data.length ≤ b.buffer.length := by
    unfold Buffer.writableBytes at hroom
    omega
  have hlimit : sizeLimit = 2 * vectorMaxSize + 2 := by decide
  exact ⟨storeBytes_eq hend, addSize_eq (by omega)⟩

theorem raw_append (hsize : b.buffer.length ≤ vectorMaxSize)
    (hfits : b.writerIndex + data.length < sizeLimit) :
    b.raw.append data = .ok (b.append data).raw ∨ b.raw.append data = .error .length_error := by
  rcases raw_ensureWriteableBytes b hsize hfits with hensure | hensure
  · left
    obtain ⟨hstore, hadd⟩ := raw_write (b.ensureWriteableBytes data.length) data
      (ensureWriteableBytes_size hensure hsize) (b.ensureWriteableBytes_room data.length)
    have hstore' : storeBytes (b.ensureWriteableBytes data.length).raw.buffer
        (b.ensureWriteableBytes data.length).raw.writerIndex data = .ok (b.append data).buffer :=
      hstore
    simp only [append, hensure, bind, Except.bind, hstore', pure, Except.pure]
    refine congrArg Except.ok (congrArg₂ (RawBuffer.mk _) rfl hadd)
  · right
    simp only [append, hensure]
    rfl

theorem raw_append_wraps (hsize : b.buffer.length ≤ vectorMaxSize) (hlen : data.length < sizeLimit)
    (hwraps : sizeLimit ≤ b.writerIndex + data.length) :
    b.raw.append data = .error .out_of_bounds := by
  obtain ⟨r, hensure, hshrunk, _⟩ := raw_ensureWriteableBytes_wraps b hsize hlen hwraps
  have hstore : storeBytes r.buffer r.writerIndex data = .error .out_of_bounds :=
    if_neg (by omega)
  simp only [append, hensure, bind, Except.bind, hstore]

theorem raw_readFd_error (saveErrno errno : ℕ) :
    b.raw.readFd saveErrno (.error errno) = .ok (-1, errno, b.raw) := by
  simp only [readFd, raw_writableBytes]
  rfl

-- What did not go into the vector lies at the front of extrabuf.
theorem extrabuf_eq (rest : Bytes) (hrest : rest.length ≤ extraSize) :
    ∃ extrabuf, storeBytes (List.replicate extraSize 0) 0 rest = .ok extrabuf ∧
      loadBytes extrabuf 0 rest.length = .ok rest := by
  have hroom : 0 + rest.length ≤ (List.replicate extraSize (0 : UInt8)).length := by
    rw [List.length_replicate]
    omega
  have hlength : (overwrite (List.replicate extraSize 0) 0 rest).length = extraSize := by
    rw [overwrite_length _ _ _ hroom, List.length_replicate]
  refine ⟨_, storeBytes_eq hroom, ?_⟩
  rw [loadBytes_eq (by omega), overwrite, List.take_zero, List.nil_append, List.drop_zero,
    List.take_left]

-- At most what the vector and extrabuf have room for.
theorem raw_readFd (hsize : b.buffer.length ≤ vectorMaxSize) (saveErrno : ℕ)
    (hdata : data.length ≤ b.writableBytes + extraSize) :
    b.raw.readFd saveErrno (.ok data) = .ok (data.length, saveErrno, (b.readFd data).raw) ∨
      b.raw.readFd saveErrno (.ok data) = .error .length_error := by
  have htake : (data.take b.writableBytes).length ≤ b.writableBytes := List.length_take_le _ _
  obtain ⟨hstore, hadd⟩ := raw_write b (data.take b.writableBytes) hsize htake
  have hstore' : storeBytes b.raw.buffer b.raw.writerIndex (data.take b.writableBytes) =
      .ok (b.write (data.take b.writableBytes) htake).buffer := hstore
  simp only [readFd, raw_writableBytes, bind, Except.bind, hstore']
  by_cases hroom : data.length ≤ b.writableBytes
  · left
    have hall : data.take b.writableBytes = data := List.take_of_length_le hroom
    have hadd' := (raw_write b data hsize hroom).2
    simp only [if_pos hroom, Buffer.readFd, dif_pos hroom, hall]
    exact congrArg (fun r => Except.ok (_, _, r)) (congrArg₂ (RawBuffer.mk _) rfl hadd')
  · have hwriter := b.writer_le
    have hlimit : sizeLimit = 2 * vectorMaxSize + 2 := by decide
    have hlength := storeBytes_length hstore
    have hend : (b.write (data.take b.writableBytes) htake).buffer.length =
        (b.write (data.take b.writableBytes) htake).writerIndex := by
      rw [hlength]
      change b.buffer.length = b.writerIndex + (data.take b.writableBytes).length
      rw [List.length_take, Nat.min_eq_left (by omega)]
      unfold Buffer.writableBytes
      omega
    have hrest : (data.drop b.writableBytes).length = data.length - b.writableBytes :=
      List.length_drop
    obtain ⟨extrabuf, hextra, hload⟩ := extrabuf_eq (data.drop b.writableBytes) (by omega)
    rw [hrest] at hload
    have happend := raw_append (b.write (data.take b.writableBytes) htake)
      (data.drop b.writableBytes) (by omega) (by
        unfold extraSize at hdata
        unfold vectorMaxSize at hlimit hsize
        omega)
    have hfront : (b.write (data.take b.writableBytes) htake).raw =
        ⟨(b.write (data.take b.writableBytes) htake).buffer, b.raw.readerIndex,
          (b.write (data.take b.writableBytes) htake).buffer.length⟩ :=
      congrArg (RawBuffer.mk _ _) hend.symm
    rw [hfront] at happend
    simp only [if_neg hroom, hextra, subSize_eq (Nat.le_of_not_le hroom), hload, Buffer.readFd,
      dif_neg hroom]
    rcases happend with happend | happend
    · left
      rw [happend]
      rfl
    · right
      rw [happend]

end Refines

section Runs

-- What a buffer is asked to do; of readFd also what saveErrno points to and how readv ends.
inductive Op
  | append (data : Bytes)
  | ensureWriteableBytes (len : ℕ)
  | retrieve (len : ℕ)
  | retrieveAll
  | retrieveAsString (len : ℕ)
  | retrieveAllAsString
  | readFd (saveErrno : ℕ) (readv : Readv)

-- What the caller gets back.
inductive Returned
  | void
  | string (result : Bytes)
  | count (n : ℤ) (saveErrno : ℕ)
  deriving DecidableEq

def exec (b : RawBuffer) : Op → Except Fault (Returned × RawBuffer)
  | .append data => do return (.void, ← b.append data)
  | .ensureWriteableBytes len => do return (.void, ← b.ensureWriteableBytes len)
  | .retrieve len => do return (.void, ← b.retrieve len)
  | .retrieveAll => return (.void, b.retrieveAll)
  | .retrieveAsString len => do
      let (result, b) ← b.retrieveAsString len
      return (.string result, b)
  | .retrieveAllAsString => do
      let (result, b) ← b.retrieveAllAsString
      return (.string result, b)
  | .readFd saveErrno readv => do
      let (n, errno, b) ← b.readFd saveErrno readv
      return (.count n errno, b)

-- The same on a queue of bytes.
def Op.onQueue (queue : Bytes) : Op → Returned × Bytes
  | .append data => (.void, queue ++ data)
  | .ensureWriteableBytes _ => (.void, queue)
  | .retrieve len => (.void, queue.drop len)
  | .retrieveAll => (.void, [])
  | .retrieveAsString len => (.string (queue.take len), queue.drop len)
  | .retrieveAllAsString => (.string queue, [])
  | .readFd _ (.error errno) => (.count (-1) errno, queue)
  | .readFd saveErrno (.ok delivered) => (.count delivered.length saveErrno, queue ++ delivered)

-- The space of the two parts of `vec`; the second is left out where the first is as large.
def offered (b : RawBuffer) : ℕ :=
  b.buffer.length - b.writerIndex +
    if b.buffer.length - b.writerIndex < extraSize then extraSize else 0

-- A length is a size_t, a string is taken out of what is readable, and readv keeps to the
-- space that it is offered.
def Allowed (b : RawBuffer) : Op → Prop
  | .append data => data.length < sizeLimit
  | .ensureWriteableBytes len => len < sizeLimit
  | .retrieve len => len < sizeLimit
  | .retrieveAsString len => len ≤ b.writerIndex - b.readerIndex
  | .readFd _ (.ok delivered) => delivered.length ≤ b.offered
  | _ => True

-- The length that is asked for, counted from writerIndex_, is a size_t.
def Fits (b : RawBuffer) : Op → Prop
  | .append data => b.writerIndex + data.length < sizeLimit
  | .ensureWriteableBytes len => b.writerIndex + len < sizeLimit
  | _ => True

-- The buffer beside the queue, each with what it has given back so far.
structure Run where
  result : Except Fault RawBuffer
  returned : List Returned
  queue : Bytes
  expected : List Returned

def Run.start (initialSize : ℕ) : Run := ⟨new initialSize, [], [], []⟩

def Run.next (s : Run) (op : Op) : Run :=
  match s.result with
  | .error _ => s
  | .ok b =>
      match b.exec op with
      | .error fault => { s with result := .error fault }
      | .ok (r, b') =>
          ⟨.ok b', s.returned ++ [r], (op.onQueue s.queue).2,
            s.expected ++ [(op.onQueue s.queue).1]⟩

def Run.On (ok : RawBuffer → Op → Prop) (s : Run) (op : Op) : Prop :=
  match s.result with
  | .error _ => False
  | .ok b => ok b op

def Run.Step (s : Run) (op : Op) (t : Run) : Prop := s.On Allowed op ∧ t = s.next op

-- The indices are in order and the readable bytes are the queue; what ends a run can only be
-- that the vector refuses to be so large.
def Run.Refines (s : Run) : Prop :=
  match s.result with
  | .error fault => fault = .length_error
  | .ok b => b.InOrder ∧ b.readable = s.queue ∧ s.returned = s.expected

variable {n : ℕ}

theorem exec_size {b b' : RawBuffer} {op : Op} {r : Returned} (h : b.exec op = .ok (r, b'))
    (hsize : b.buffer.length ≤ vectorMaxSize) : b'.buffer.length ≤ vectorMaxSize := by
  cases op with
  | append data =>
      obtain ⟨_, happend, hret⟩ := bind_eq_ok_iff.mp h
      obtain ⟨_, rfl⟩ := Prod.mk.inj (Except.ok.inj hret)
      exact append_size happend hsize
  | ensureWriteableBytes len =>
      obtain ⟨_, hensure, hret⟩ := bind_eq_ok_iff.mp h
      obtain ⟨_, rfl⟩ := Prod.mk.inj (Except.ok.inj hret)
      exact ensureWriteableBytes_size hensure hsize
  | retrieve len =>
      obtain ⟨_, hretrieve, hret⟩ := bind_eq_ok_iff.mp h
      obtain ⟨_, rfl⟩ := Prod.mk.inj (Except.ok.inj hret)
      rw [retrieve_buffer hretrieve]
      exact hsize
  | retrieveAll =>
      obtain ⟨_, rfl⟩ := Prod.mk.inj (Except.ok.inj h)
      exact hsize
  | retrieveAsString len =>
      obtain ⟨_, hretrieve, hret⟩ := bind_eq_ok_iff.mp h
      obtain ⟨_, rfl⟩ := Prod.mk.inj (Except.ok.inj hret)
      rw [retrieveAsString_buffer hretrieve]
      exact hsize
  | retrieveAllAsString =>
      obtain ⟨_, hretrieve, hret⟩ := bind_eq_ok_iff.mp h
      obtain ⟨_, rfl⟩ := Prod.mk.inj (Except.ok.inj hret)
      rw [retrieveAllAsString_buffer hretrieve]
      exact hsize
  | readFd saveErrno readv =>
      obtain ⟨_, hread, hret⟩ := bind_eq_ok_iff.mp h
      obtain ⟨_, rfl⟩ := Prod.mk.inj (Except.ok.inj hret)
      exact readFd_size hread hsize

-- One operation on a buffer in order, as long as no length wraps around.
theorem exec_raw (b : Buffer) (hsize : b.buffer.length ≤ vectorMaxSize) {op : Op}
    (hallowed : Allowed b.raw op) (hfits : Fits b.raw op) :
    (∃ b' : Buffer, b.raw.exec op = .ok ((op.onQueue b.readable).1, b'.raw) ∧
        b'.readable = (op.onQueue b.readable).2) ∨
      b.raw.exec op = .error .length_error := by
  cases op with
  | append data =>
      rcases raw_append b data hsize hfits with happend | happend
      · left
        refine ⟨b.append data, ?_, b.readable_append data⟩
        rw [exec, happend]
        rfl
      · right
        rw [exec, happend]
        rfl
  | ensureWriteableBytes len =>
      rcases raw_ensureWriteableBytes b hsize hfits with hensure | hensure
      · left
        refine ⟨b.ensureWriteableBytes len, ?_, b.readable_ensureWriteableBytes len⟩
        rw [exec, hensure]
        rfl
      · right
        rw [exec, hensure]
        rfl
  | retrieve len =>
      left
      refine ⟨b.retrieve len, ?_, b.readable_retrieve len⟩
      rw [exec, raw_retrieve b hsize len]
      rfl
  | retrieveAll => exact .inl ⟨b.retrieveAll, rfl, b.readable_retrieveAll⟩
  | retrieveAsString len =>
      left
      refine ⟨b.retrieve len, ?_, b.readable_retrieve len⟩
      rw [exec, raw_retrieveAsString b hsize hallowed]
      rfl
  | retrieveAllAsString =>
      left
      refine ⟨b.retrieve b.readableBytes, ?_, b.readable_retrieveAllAsString⟩
      have htake : b.readable.take b.readableBytes = b.readable := by
        rw [← b.readable_length, List.take_length]
      rw [exec, retrieveAllAsString, raw_readableBytes]
      simp only [bind, Except.bind]
      rw [raw_retrieveAsString b hsize (Nat.le_refl _), htake]
      rfl
  | readFd saveErrno readv =>
      cases readv with
      | error errno =>
          left
          refine ⟨b, ?_, rfl⟩
          rw [exec, raw_readFd_error]
          rfl
      | ok delivered =>
          have hdata : delivered.length ≤ b.writableBytes + extraSize := by
            have hoffered : delivered.length ≤ b.raw.offered := hallowed
            unfold offered at hoffered
            unfold Buffer.writableBytes
            split at hoffered <;> exact Nat.le_trans hoffered (by simp [Buffer.raw])
          rcases raw_readFd b delivered hsize saveErrno hdata with hread | hread
          · left
            refine ⟨b.readFd delivered, ?_, b.readable_readFd delivered⟩
            rw [exec, hread]
            rfl
          · right
            rw [exec, hread]
            rfl

-- Where a length wraps around, the vector is left too small, or written behind its end.
theorem exec_wraps (b : Buffer) (hsize : b.buffer.length ≤ vectorMaxSize) {op : Op}
    (hallowed : Allowed b.raw op) (hwraps : ¬Fits b.raw op) :
    (∃ r b', b.raw.exec op = .ok (r, b') ∧ ¬b'.InOrder) ∨
      b.raw.exec op = .error .out_of_bounds := by
  cases op with
  | append data =>
      right
      rw [exec, raw_append_wraps b data hsize hallowed (Nat.le_of_not_lt hwraps)]
      rfl
  | ensureWriteableBytes len =>
      left
      obtain ⟨r, hensure, hshrunk, _⟩ :=
        raw_ensureWriteableBytes_wraps b hsize hallowed (Nat.le_of_not_lt hwraps)
      refine ⟨.void, r, ?_, fun horder => absurd horder.2.2 (Nat.not_le_of_lt hshrunk)⟩
      rw [exec, hensure]
      rfl
  | _ => exact absurd trivial hwraps

def Run.SizeOk (s : Run) : Prop := ∀ b, s.result = .ok b → b.buffer.length ≤ vectorMaxSize

theorem start_size (n : ℕ) : (Run.start n).SizeOk := by
  intro b hb
  obtain ⟨buffer, hnew, hret⟩ := bind_eq_ok_iff.mp hb
  obtain rfl := Except.ok.inj hret
  unfold newVector at hnew
  split at hnew
  · obtain rfl := Except.ok.inj hnew
    rwa [List.length_replicate]
  · cases hnew

theorem step_size {s t : Run} {op : Op} (hs : s.SizeOk) (hstep : s.Step op t) : t.SizeOk := by
  obtain ⟨hon, rfl⟩ := hstep
  intro b hb
  unfold Run.On at hon
  unfold Run.next at hb
  cases hresult : s.result with
  | error fault => simp only [hresult] at hon
  | ok b₀ =>
      simp only [hresult] at hb
      cases hexec : b₀.exec op with
      | error fault => simp only [hexec, reduceCtorEq] at hb
      | ok out =>
          simp only [hexec] at hb
          obtain rfl := Except.ok.inj hb
          exact exec_size hexec (hs b₀ hresult)

theorem start_refines_iff (hn : n < sizeLimit) :
    (Run.start n).Refines ↔ kCheapPrepend + n < sizeLimit := by
  by_cases hfits : kCheapPrepend + n < sizeLimit
  · refine iff_of_true ?_ hfits
    unfold Run.Refines Run.start new
    rw [addSize_eq hfits]
    by_cases hle : kCheapPrepend + n ≤ vectorMaxSize
    · rw [newVector_eq hle]
      exact ⟨(Buffer.new n).raw_inOrder, Buffer.readable_new n, rfl⟩
    · rw [newVector, if_neg hle]
      rfl
  · refine iff_of_false ?_ hfits
    have hsum : addSize kCheapPrepend n < kCheapPrepend :=
      addSize_lt (by decide) hn (Nat.le_of_not_lt hfits)
    have hle : addSize kCheapPrepend n ≤ vectorMaxSize :=
      Nat.le_trans (Nat.le_of_lt hsum) (by decide)
    unfold Run.Refines Run.start new
    rw [newVector_eq hle]
    rintro ⟨horder, _⟩
    have hlength : kCheapPrepend ≤ (List.replicate (addSize kCheapPrepend n) (0 : UInt8)).length :=
      horder.2.2
    rw [List.length_replicate] at hlength
    omega

theorem step_refines_iff {s t : Run} {op : Op} (hsize : s.SizeOk) (hs : s.Refines)
    (hstep : s.Step op t) : t.Refines ↔ s.On Fits op := by
  obtain ⟨hallowed, rfl⟩ := hstep
  cases s with | mk result returned queue expected =>
  cases result with
  | error fault => exact hallowed.elim
  | ok r =>
      obtain ⟨horder, hreadable, hreturned⟩ := hs
      obtain ⟨b, rfl⟩ := horder.exists_raw
      have hlength : b.buffer.length ≤ vectorMaxSize := hsize b.raw rfl
      obtain rfl : b.readable = queue := hreadable
      obtain rfl : returned = expected := hreturned
      simp only [Run.On, Run.next] at hallowed ⊢
      by_cases hfits : Fits b.raw op
      · refine iff_of_true ?_ hfits
        rcases exec_raw b hlength hallowed hfits with ⟨b', hexec, hqueue⟩ | hexec
        · simp only [hexec]
          exact ⟨b'.raw_inOrder, hqueue, rfl⟩
        · simp only [hexec]
          rfl
      · refine iff_of_false ?_ hfits
        rcases exec_wraps b hlength hallowed hfits with ⟨r, b', hexec, horder'⟩ | hexec
        · simp only [hexec]
          exact fun h => horder' h.1
        · simp only [hexec]
          exact Fault.noConfusion

-- The buffer is the queue all along exactly when no length that is asked for wraps around.
theorem refines_queue_iff (hn : n < sizeLimit) {ops : List Op} {s : Run}
    (hrun : Path Run.Step (Run.start n) ops s) :
    (∀ ops₁ ops₂ t, ops = ops₁ ++ ops₂ → Path Run.Step (Run.start n) ops₁ t → t.Refines) ↔
      kCheapPrepend + n < sizeLimit ∧
        Path (restrict (Run.On Fits) Run.Step) (Run.start n) ops s := by
  have hiff (hstart : (Run.start n).Refines) :
      (∀ ops₁ ops₂ t, ops = ops₁ ++ ops₂ → Path Run.Step (Run.start n) ops₁ t → t.Refines) ↔
        Path (restrict (Run.On Fits) Run.Step) (Run.start n) ops s := by
    have hnext : ∀ s op t, Run.Step s op t → t = Run.next s op := fun _ _ _ hstep => hstep.2
    refine hrun.always_iff hnext Run.SizeOk ?_ ?_ (start_size n) hstart
    · exact fun _ _ _ hsize hstep => step_size hsize hstep
    · exact fun _ _ _ hsize hs hstep => step_refines_iff hsize hs hstep
  constructor
  · intro hall
    have hstart := hall [] ops _ rfl (.nil _)
    exact ⟨(start_refines_iff hn).mp hstart, (hiff hstart).mp hall⟩
  · rintro ⟨hfits, hgood⟩
    exact (hiff ((start_refines_iff hn).mpr hfits)).mpr hgood

instance (b : RawBuffer) : (op : Op) → Decidable (Allowed b op)
  | .append _ => inferInstanceAs (Decidable (_ < _))
  | .ensureWriteableBytes _ => inferInstanceAs (Decidable (_ < _))
  | .retrieve _ => inferInstanceAs (Decidable (_ < _))
  | .retrieveAsString _ => inferInstanceAs (Decidable (_ ≤ _))
  | .readFd _ (.ok _) => inferInstanceAs (Decidable (_ ≤ _))
  | .readFd _ (.error _) => .isTrue trivial
  | .retrieveAll => .isTrue trivial
  | .retrieveAllAsString => .isTrue trivial

instance (b : RawBuffer) : (op : Op) → Decidable (Fits b op)
  | .append _ => inferInstanceAs (Decidable (_ < _))
  | .ensureWriteableBytes _ => inferInstanceAs (Decidable (_ < _))
  | .retrieve _ => .isTrue trivial
  | .retrieveAsString _ => .isTrue trivial
  | .readFd _ _ => .isTrue trivial
  | .retrieveAll => .isTrue trivial
  | .retrieveAllAsString => .isTrue trivial

instance (ok : RawBuffer → Op → Prop) [∀ b op, Decidable (ok b op)] (s : Run) (op : Op) :
    Decidable (s.On ok op) := by
  unfold Run.On
  cases s.result <;> infer_instance

-- Bytes come in, are taken out in part, and the rest slides down to make room for more.
def sampleOps : List Op :=
  [.append (ascii "abcdef"), .retrieve 4, .readFd 0 (.ok (ascii "gh")), .append (ascii "ijkl"),
    .retrieveAsString 5, .readFd 0 (.error 11)]

theorem refines_queue_sampleOps :
    (play Run.next (Run.start 8) sampleOps).Refines ∧
      (play Run.next (Run.start 8) sampleOps).queue = ascii "jkl" := by
  have hplays : Plays (fun s op => s.On Fits op ∧ s.On Allowed op) Run.next (Run.start 8)
      sampleOps := by decide +kernel
  have hrun : Path (restrict (Run.On Fits) Run.Step) (Run.start 8) sampleOps
      (play Run.next (Run.start 8) sampleOps) :=
    path_of_plays (fun _ _ h => ⟨h.1, h.2, rfl⟩) hplays
  exact ⟨(refines_queue_iff (by decide) hrun.unrestrict).mpr ⟨by decide, hrun⟩ sampleOps [] _
    (List.append_nil _).symm hrun.unrestrict, by decide +kernel⟩

-- The vector shrinks below its own indices.
theorem ensureWriteableBytes_not_refines :
    ¬∀ n ops s, n < sizeLimit → Path Run.Step (Run.start n) ops s → s.Refines := by
  intro h
  have hplays : Plays (Run.On Allowed) Run.next (Run.start 8)
      [.ensureWriteableBytes (sizeLimit - 1)] := by decide +kernel
  have hrun : Path Run.Step (Run.start 8) [.ensureWriteableBytes (sizeLimit - 1)]
      (play Run.next (Run.start 8) [.ensureWriteableBytes (sizeLimit - 1)]) :=
    path_of_guards hplays
  have horder := (h 8 _ _ (by decide) hrun).1
  exact absurd horder (by decide +kernel)

end Runs

end RawBuffer

end MyTestserver
