import MyTestserver.Basic

namespace MyTestserver

def kCheapPrepend : ℕ := 8
def kInitialSize : ℕ := 1024

-- The three fields of the C++ class. That the indices are in order and inside the
-- vector is part of the type, so no operation can leave a buffer without it.
structure Buffer where
  buffer : Bytes
  readerIndex : ℕ
  writerIndex : ℕ
  prepend_le : kCheapPrepend ≤ readerIndex
  reader_le : readerIndex ≤ writerIndex
  writer_le : writerIndex ≤ buffer.length
  deriving DecidableEq

-- std::copy of `data` to position `pos`, over what was there.
def overwrite (bytes : Bytes) (pos : ℕ) (data : Bytes) : Bytes :=
  bytes.take pos ++ data ++ bytes.drop (pos + data.length)

-- std::vector<char>::resize: new elements are zero.
def resize (bytes : Bytes) (size : ℕ) : Bytes :=
  bytes.take size ++ List.replicate (size - bytes.length) 0

theorem overwrite_length (bytes : Bytes) (pos : ℕ) (data : Bytes)
    (h : pos + data.length ≤ bytes.length) : (overwrite bytes pos data).length = bytes.length := by
  simp only [overwrite, List.length_append, List.length_take, List.length_drop]
  omega

theorem resize_length (bytes : Bytes) (size : ℕ) : (resize bytes size).length = size := by
  simp only [resize, List.length_append, List.length_take, List.length_replicate]
  omega

namespace Buffer

-- Buffer::Buffer
def new (initialSize : ℕ) : Buffer where
  buffer := List.replicate (kCheapPrepend + initialSize) 0
  readerIndex := kCheapPrepend
  writerIndex := kCheapPrepend
  prepend_le := Nat.le_refl _
  reader_le := Nat.le_refl _
  writer_le := by simp

def readableBytes (b : Buffer) : ℕ := b.writerIndex - b.readerIndex

def writableBytes (b : Buffer) : ℕ := b.buffer.length - b.writerIndex

def prependableBytes (b : Buffer) : ℕ := b.readerIndex

-- The bytes from peek() on: what the buffer holds as a queue.
def readable (b : Buffer) : Bytes := (b.buffer.drop b.readerIndex).take b.readableBytes

def retrieveAll (b : Buffer) : Buffer where
  buffer := b.buffer
  readerIndex := kCheapPrepend
  writerIndex := kCheapPrepend
  prepend_le := Nat.le_refl _
  reader_le := Nat.le_refl _
  writer_le := Nat.le_trans b.prepend_le (Nat.le_trans b.reader_le b.writer_le)

def retrieve (b : Buffer) (len : ℕ) : Buffer :=
  if h : len < b.readableBytes then
    { b with
      readerIndex := b.readerIndex + len
      prepend_le := Nat.le_trans b.prepend_le (Nat.le_add_right _ _)
      reader_le := by unfold readableBytes at h; omega }
  else b.retrieveAll

def retrieveAsString (b : Buffer) (len : ℕ) : Bytes × Buffer :=
  ((b.buffer.drop b.readerIndex).take len, b.retrieve len)

def retrieveAllAsString (b : Buffer) : Bytes × Buffer := b.retrieveAsString b.readableBytes

-- Either the vector grows, or the readable bytes slide down to the front; the ranges
-- of that copy overlap, its destination being the lower one.
def makeSpace (b : Buffer) (len : ℕ) : Buffer :=
  if h : b.writableBytes + b.prependableBytes - kCheapPrepend < len then
    { b with
      buffer := resize b.buffer (b.writerIndex + len)
      writer_le := by rw [resize_length]; omega }
  else
    { buffer := overwrite b.buffer kCheapPrepend b.readable
      readerIndex := kCheapPrepend
      writerIndex := kCheapPrepend + b.readableBytes
      prepend_le := Nat.le_refl _
      reader_le := Nat.le_add_right _ _
      writer_le := by
        have := b.prepend_le
        have := b.reader_le
        have := b.writer_le
        rw [overwrite_length] <;>
          simp only [readable, readableBytes, List.length_take, List.length_drop] <;> omega }

def ensureWriteableBytes (b : Buffer) (len : ℕ) : Buffer :=
  if b.writableBytes < len then b.makeSpace len else b

theorem ensureWriteableBytes_room (b : Buffer) (len : ℕ) :
    len ≤ (b.ensureWriteableBytes len).writableBytes := by
  have hp := b.prepend_le
  have hr := b.reader_le
  have hw := b.writer_le
  unfold ensureWriteableBytes
  split
  · unfold makeSpace
    split
    · simp only [writableBytes, resize_length]
      omega
    · rename_i hroom
      simp only [writableBytes, prependableBytes] at hroom
      simp only [writableBytes]
      rw [overwrite_length] <;>
        simp only [readable, readableBytes, List.length_take, List.length_drop] <;> omega
  · omega

-- The copy to beginWrite(), into room that is already there.
def write (b : Buffer) (data : Bytes) (h : data.length ≤ b.writableBytes) : Buffer where
  buffer := overwrite b.buffer b.writerIndex data
  readerIndex := b.readerIndex
  writerIndex := b.writerIndex + data.length
  prepend_le := b.prepend_le
  reader_le := Nat.le_trans b.reader_le (Nat.le_add_right _ _)
  writer_le := by
    have := b.writer_le
    unfold writableBytes at h
    rw [overwrite_length] <;> omega

def append (b : Buffer) (data : Bytes) : Buffer :=
  (b.ensureWriteableBytes data.length).write data (b.ensureWriteableBytes_room data.length)

section Queue

variable (b : Buffer)

@[simp] theorem readable_length : b.readable.length = b.readableBytes := by
  have := b.writer_le
  simp only [readable, readableBytes, List.length_take, List.length_drop]
  omega

theorem readableBytes_eq_zero_iff : b.readableBytes = 0 ↔ b.readable = [] := by
  rw [← readable_length, List.length_eq_zero_iff]

@[simp] theorem readable_new (initialSize : ℕ) : (new initialSize).readable = [] := by
  simp [readable, readableBytes, new]

@[simp] theorem readable_retrieveAll : b.retrieveAll.readable = [] := by
  simp [readable, readableBytes, retrieveAll]

-- Retrieving drops bytes from the front of the queue.
@[simp] theorem readable_retrieve (len : ℕ) : (b.retrieve len).readable = b.readable.drop len := by
  unfold retrieve
  split
  · simp only [readable, readableBytes, List.drop_take, List.drop_drop]
    congr 1
    omega
  · rename_i hlen
    rw [readable_retrieveAll, List.drop_eq_nil_of_le (by rw [readable_length]; omega)]

@[simp] theorem retrieveAllAsString_fst : b.retrieveAllAsString.1 = b.readable := rfl

@[simp] theorem readable_retrieveAllAsString : b.retrieveAllAsString.2.readable = [] := by
  change (b.retrieve b.readableBytes).readable = []
  rw [readable_retrieve, ← readable_length, List.drop_length]

@[simp] theorem readable_makeSpace (len : ℕ) (hlen : b.writableBytes < len) :
    (b.makeSpace len).readable = b.readable := by
  have hp := b.prepend_le
  have hr := b.reader_le
  have hw := b.writer_le
  unfold makeSpace
  split
  · have hsize : b.buffer.length ≤ b.writerIndex + len := by unfold writableBytes at hlen; omega
    simp only [readable, readableBytes, resize, List.take_of_length_le hsize]
    rw [List.drop_append_of_le_length (by omega), List.take_append_of_le_length]
    rw [List.length_drop]
    omega
  · have htake : (b.buffer.take kCheapPrepend).length = kCheapPrepend := by
      rw [List.length_take]
      omega
    rw [readable]
    simp only [readableBytes, overwrite, List.append_assoc]
    rw [List.drop_append_of_le_length (by omega), List.drop_eq_nil_of_le (by omega),
      List.nil_append, Nat.add_sub_cancel_left, ← readableBytes, ← readable_length, List.take_left]

@[simp] theorem readable_ensureWriteableBytes (len : ℕ) :
    (b.ensureWriteableBytes len).readable = b.readable := by
  unfold ensureWriteableBytes
  split
  · exact b.readable_makeSpace len ‹_›
  · rfl

theorem readable_write (data : Bytes) (h : data.length ≤ b.writableBytes) :
    (b.write data h).readable = b.readable ++ data := by
  have hr := b.reader_le
  have hw := b.writer_le
  have htake : (b.buffer.take b.writerIndex).length = b.writerIndex := by
    rw [List.length_take]
    omega
  have hold : (b.buffer.take b.writerIndex).drop b.readerIndex = b.readable := by
    rw [List.drop_take]
    rfl
  have hlen : b.writerIndex + data.length - b.readerIndex = (b.readable ++ data).length := by
    rw [List.length_append, readable_length]
    unfold readableBytes
    omega
  simp only [readable, readableBytes, write, overwrite]
  rw [List.append_assoc, List.drop_append_of_le_length (by omega), hold, ← List.append_assoc, hlen,
    List.take_left]
  rfl

-- Appending adds bytes at the end of the queue.
@[simp] theorem readable_append (data : Bytes) : (b.append data).readable = b.readable ++ data := by
  rw [append, readable_write, readable_ensureWriteableBytes]

end Queue

end Buffer

end MyTestserver
