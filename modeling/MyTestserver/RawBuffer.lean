import MyTestserver.Buffer

namespace MyTestserver

-- What the class runs into on the machine. A subtraction below zero and a copy outside the
-- vector go unnoticed there; here they end the run, so that they can be excluded.
inductive Fault
  | length_error
  | underflow
  | out_of_bounds
  deriving DecidableEq

section SizeT

-- size_t has 64 bits, and std::vector<char>::max_size() is half of what it holds.

def sizeLimit : ℕ := 18446744073709551616

def vectorMaxSize : ℕ := 9223372036854775807

def addSize (a b : ℕ) : ℕ := (a + b) % sizeLimit

def subSize (a b : ℕ) : Except Fault ℕ := if b ≤ a then .ok (a - b) else .error .underflow

theorem addSize_eq {a b : ℕ} (h : a + b < sizeLimit) : addSize a b = a + b := Nat.mod_eq_of_lt h

-- A sum that is too large comes out smaller than either part.
theorem addSize_lt {a b : ℕ} (ha : a < sizeLimit) (hb : b < sizeLimit) (h : sizeLimit ≤ a + b) :
    addSize a b < a := by
  unfold addSize
  have hmod : (a + b) % sizeLimit = a + b - sizeLimit := by
    rw [Nat.mod_eq_sub_mod h, Nat.mod_eq_of_lt (by omega)]
  omega

theorem subSize_eq {a b : ℕ} (h : b ≤ a) : subSize a b = .ok (a - b) := if_pos h

end SizeT

section CharVector

def newVector (size : ℕ) : Except Fault Bytes :=
  if size ≤ vectorMaxSize then .ok (List.replicate size 0) else .error .length_error

def resizeVector (bytes : Bytes) (size : ℕ) : Except Fault Bytes :=
  if size ≤ vectorMaxSize then .ok (resize bytes size) else .error .length_error

def loadBytes (bytes : Bytes) (pos len : ℕ) : Except Fault Bytes :=
  if pos + len ≤ bytes.length then .ok ((bytes.drop pos).take len) else .error .out_of_bounds

def storeBytes (bytes : Bytes) (pos : ℕ) (data : Bytes) : Except Fault Bytes :=
  if pos + data.length ≤ bytes.length then .ok (overwrite bytes pos data)
  else .error .out_of_bounds

-- std::copy inside one vector, which takes no destination in the range that it copies from.
def moveBytes (bytes : Bytes) (first last dest : ℕ) : Except Fault Bytes :=
  if first ≤ last ∧ last ≤ bytes.length ∧ dest + (last - first) ≤ bytes.length ∧
      ¬(first ≤ dest ∧ dest < last) then
    .ok (overwrite bytes dest ((bytes.drop first).take (last - first)))
  else .error .out_of_bounds

theorem newVector_eq {size : ℕ} (h : size ≤ vectorMaxSize) :
    newVector size = .ok (List.replicate size 0) := if_pos h

theorem loadBytes_eq {bytes : Bytes} {pos len : ℕ} (h : pos + len ≤ bytes.length) :
    loadBytes bytes pos len = .ok ((bytes.drop pos).take len) := if_pos h

theorem storeBytes_eq {bytes data : Bytes} {pos : ℕ} (h : pos + data.length ≤ bytes.length) :
    storeBytes bytes pos data = .ok (overwrite bytes pos data) := if_pos h

theorem resizeVector_ok {bytes bytes' : Bytes} {size : ℕ}
    (h : resizeVector bytes size = .ok bytes') :
    size ≤ vectorMaxSize ∧ bytes' = resize bytes size := by
  unfold resizeVector at h
  split at h
  · rename_i hsize
    exact ⟨hsize, (Except.ok.inj h).symm⟩
  · cases h

theorem resizeVector_error {bytes : Bytes} {size : ℕ} {fault : Fault}
    (h : resizeVector bytes size = .error fault) : fault = .length_error := by
  unfold resizeVector at h
  split at h
  · cases h
  · exact (Except.error.inj h).symm

theorem moveBytes_length {bytes bytes' : Bytes} {first last dest : ℕ}
    (h : moveBytes bytes first last dest = .ok bytes') : bytes'.length = bytes.length := by
  unfold moveBytes at h
  split at h
  · rename_i hrange
    obtain rfl := Except.ok.inj h
    refine overwrite_length bytes dest _ ?_
    rw [List.length_take, List.length_drop]
    omega
  · cases h

theorem storeBytes_length {bytes bytes' data : Bytes} {pos : ℕ}
    (h : storeBytes bytes pos data = .ok bytes') : bytes'.length = bytes.length := by
  unfold storeBytes at h
  split at h
  · rename_i hpos
    obtain rfl := Except.ok.inj h
    exact overwrite_length bytes pos data hpos
  · cases h

end CharVector

-- The class as the machine has it: nothing keeps the indices in order but its code.
structure RawBuffer where
  buffer : Bytes
  readerIndex : ℕ
  writerIndex : ℕ
  deriving DecidableEq

-- What readv comes back with: the errno, or the bytes that it delivers.
abbrev Readv := Except ℕ Bytes

namespace RawBuffer

-- sizeof extrabuf
def extraSize : ℕ := 65536

-- Buffer::Buffer
def new (initialSize : ℕ) : Except Fault RawBuffer := do
  let buffer ← newVector (addSize kCheapPrepend initialSize)
  return ⟨buffer, kCheapPrepend, kCheapPrepend⟩

section Operations

variable (b : RawBuffer)

def readableBytes : Except Fault ℕ := subSize b.writerIndex b.readerIndex

def writableBytes : Except Fault ℕ := subSize b.buffer.length b.writerIndex

def prependableBytes : ℕ := b.readerIndex

def retrieveAll : RawBuffer := { b with readerIndex := kCheapPrepend, writerIndex := kCheapPrepend }

def retrieve (len : ℕ) : Except Fault RawBuffer := do
  let readable ← b.readableBytes
  if len < readable then return { b with readerIndex := addSize b.readerIndex len }
  else return b.retrieveAll

def retrieveAsString (len : ℕ) : Except Fault (Bytes × RawBuffer) := do
  let result ← loadBytes b.buffer b.readerIndex len
  let b ← b.retrieve len
  return (result, b)

def retrieveAllAsString : Except Fault (Bytes × RawBuffer) := do
  let readable ← b.readableBytes
  b.retrieveAsString readable

def makeSpace (len : ℕ) : Except Fault RawBuffer := do
  let writable ← b.writableBytes
  let room ← subSize (addSize writable b.prependableBytes) kCheapPrepend
  if room < len then
    let buffer ← resizeVector b.buffer (addSize b.writerIndex len)
    return { b with buffer }
  else
    let readable ← b.readableBytes
    let buffer ← moveBytes b.buffer b.readerIndex b.writerIndex kCheapPrepend
    return ⟨buffer, kCheapPrepend, addSize kCheapPrepend readable⟩

def ensureWriteableBytes (len : ℕ) : Except Fault RawBuffer := do
  let writable ← b.writableBytes
  if writable < len then b.makeSpace len else return b

def append (data : Bytes) : Except Fault RawBuffer := do
  let b ← b.ensureWriteableBytes data.length
  let buffer ← storeBytes b.buffer b.writerIndex data
  return { b with buffer, writerIndex := addSize b.writerIndex data.length }

-- What is returned, what saveErrno holds then, and the buffer. readv fills the vector first
-- and then extrabuf.
def readFd (saveErrno : ℕ) (readv : Readv) : Except Fault (ℤ × ℕ × RawBuffer) := do
  let writable ← b.writableBytes
  match readv with
  | .error errno => return (-1, errno, b)
  | .ok delivered =>
      let n := delivered.length
      let buffer ← storeBytes b.buffer b.writerIndex (delivered.take writable)
      if n ≤ writable then
        return (n, saveErrno, { b with buffer, writerIndex := addSize b.writerIndex n })
      else
        let extrabuf ← storeBytes (List.replicate extraSize 0) 0 (delivered.drop writable)
        let more ← subSize n writable
        let data ← loadBytes extrabuf 0 more
        let b ← append { b with buffer, writerIndex := buffer.length } data
        return (n, saveErrno, b)

end Operations

section Size

-- No operation makes the vector larger than a vector can be, whatever the indices.

variable {b b' : RawBuffer}

theorem makeSpace_size {len : ℕ} (h : b.makeSpace len = .ok b')
    (hsize : b.buffer.length ≤ vectorMaxSize) : b'.buffer.length ≤ vectorMaxSize := by
  unfold makeSpace at h
  obtain ⟨writable, _, h⟩ := bind_eq_ok_iff.mp h
  obtain ⟨room, _, h⟩ := bind_eq_ok_iff.mp h
  split at h
  · obtain ⟨buffer, hresize, h⟩ := bind_eq_ok_iff.mp h
    obtain rfl := Except.ok.inj h
    obtain ⟨hle, rfl⟩ := resizeVector_ok hresize
    exact Nat.le_trans (Nat.le_of_eq (resize_length _ _)) hle
  · obtain ⟨readable, _, h⟩ := bind_eq_ok_iff.mp h
    obtain ⟨buffer, hmove, h⟩ := bind_eq_ok_iff.mp h
    obtain rfl := Except.ok.inj h
    exact Nat.le_trans (Nat.le_of_eq (moveBytes_length hmove)) hsize

theorem ensureWriteableBytes_size {len : ℕ} (h : b.ensureWriteableBytes len = .ok b')
    (hsize : b.buffer.length ≤ vectorMaxSize) : b'.buffer.length ≤ vectorMaxSize := by
  unfold ensureWriteableBytes at h
  obtain ⟨writable, _, h⟩ := bind_eq_ok_iff.mp h
  split at h
  · exact makeSpace_size h hsize
  · obtain rfl := Except.ok.inj h
    exact hsize

theorem append_size {data : Bytes} (h : b.append data = .ok b')
    (hsize : b.buffer.length ≤ vectorMaxSize) : b'.buffer.length ≤ vectorMaxSize := by
  unfold append at h
  obtain ⟨room, hensure, h⟩ := bind_eq_ok_iff.mp h
  obtain ⟨buffer, hstore, h⟩ := bind_eq_ok_iff.mp h
  obtain rfl := Except.ok.inj h
  have hroom := ensureWriteableBytes_size hensure hsize
  exact Nat.le_trans (Nat.le_of_eq (storeBytes_length hstore)) hroom

theorem retrieve_buffer {len : ℕ} (h : b.retrieve len = .ok b') : b'.buffer = b.buffer := by
  unfold retrieve at h
  obtain ⟨readable, _, h⟩ := bind_eq_ok_iff.mp h
  split at h <;> exact (Except.ok.inj h) ▸ rfl

theorem retrieveAsString_buffer {len : ℕ} {result : Bytes}
    (h : b.retrieveAsString len = .ok (result, b')) : b'.buffer = b.buffer := by
  unfold retrieveAsString at h
  obtain ⟨string, _, h⟩ := bind_eq_ok_iff.mp h
  obtain ⟨rest, hretrieve, h⟩ := bind_eq_ok_iff.mp h
  obtain ⟨rfl, rfl⟩ := Prod.mk.inj (Except.ok.inj h)
  exact retrieve_buffer hretrieve

theorem retrieveAllAsString_buffer {result : Bytes}
    (h : b.retrieveAllAsString = .ok (result, b')) : b'.buffer = b.buffer := by
  unfold retrieveAllAsString at h
  obtain ⟨readable, _, h⟩ := bind_eq_ok_iff.mp h
  exact retrieveAsString_buffer h

theorem readFd_size {n : ℤ} {saveErrno errno : ℕ} {readv : Readv}
    (h : b.readFd saveErrno readv = .ok (n, errno, b')) (hsize : b.buffer.length ≤ vectorMaxSize) :
    b'.buffer.length ≤ vectorMaxSize := by
  unfold readFd at h
  obtain ⟨writable, _, h⟩ := bind_eq_ok_iff.mp h
  cases readv with
  | error _ =>
      obtain ⟨rfl, rfl, rfl⟩ := Prod.mk.injEq _ _ _ _ ▸ Except.ok.inj h
      exact hsize
  | ok delivered =>
      obtain ⟨buffer, hstore, h⟩ := bind_eq_ok_iff.mp h
      have hbuffer := Nat.le_trans (Nat.le_of_eq (storeBytes_length hstore)) hsize
      split at h
      · obtain ⟨_, hpair⟩ := Prod.mk.inj (Except.ok.inj h)
        obtain ⟨_, rfl⟩ := Prod.mk.inj hpair
        exact hbuffer
      · obtain ⟨extrabuf, _, h⟩ := bind_eq_ok_iff.mp h
        obtain ⟨more, _, h⟩ := bind_eq_ok_iff.mp h
        obtain ⟨data, _, h⟩ := bind_eq_ok_iff.mp h
        obtain ⟨b'', happend, h⟩ := bind_eq_ok_iff.mp h
        obtain ⟨_, hpair⟩ := Prod.mk.inj (Except.ok.inj h)
        obtain ⟨_, rfl⟩ := Prod.mk.inj hpair
        exact append_size happend hbuffer

end Size

-- The order of the indices that every operation counts on.
def InOrder (b : RawBuffer) : Prop :=
  kCheapPrepend ≤ b.readerIndex ∧ b.readerIndex ≤ b.writerIndex ∧ b.writerIndex ≤ b.buffer.length

instance (b : RawBuffer) : Decidable b.InOrder := inferInstanceAs (Decidable (_ ∧ _))

def readable (b : RawBuffer) : Bytes :=
  (b.buffer.drop b.readerIndex).take (b.writerIndex - b.readerIndex)

end RawBuffer

end MyTestserver
