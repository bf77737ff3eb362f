import MyTestserver.WebSocketHandler

namespace MyTestserver

open WebSocketHandler

-- The opcodes of RFC 6455.
inductive Opcode
  | continuation
  | text
  | binary
  | close
  | ping
  | pong
  deriving DecidableEq

def Opcode.code : Opcode → UInt8
  | .continuation => 0x0
  | .text => 0x1
  | .binary => 0x2
  | .close => 0x8
  | .ping => 0x9
  | .pong => 0xA

-- The three ways to write a payload length. A sender may use a longer one than it needs.
inductive LengthForm
  | short
  | extended16
  | extended64
  deriving DecidableEq

def LengthForm.capacity : LengthForm → ℕ
  | .short => 126
  | .extended16 => 2 ^ 16
  | .extended64 => 2 ^ 63

def LengthForm.field (form : LengthForm) (len : ℕ) : UInt8 :=
  match form with
  | .short => UInt8.ofNat len
  | .extended16 => 126
  | .extended64 => 127

def LengthForm.width : LengthForm → ℕ
  | .short => 0
  | .extended16 => 2
  | .extended64 => 8

-- A masked frame as a client sends it, with zero RSV bits.
structure ClientFrame where
  fin : Bool
  opcode : Opcode
  form : LengthForm
  maskingKey : MaskingKey
  payload : Bytes
  fits : payload.length < form.capacity

def mask (maskingKey : MaskingKey) : ℕ → Bytes → Bytes
  | _, [] => []
  | i, byte :: bytes => (byte ^^^ keyByte maskingKey i) :: mask maskingKey (i + 1) bytes

namespace ClientFrame

def firstByte (f : ClientFrame) : UInt8 := (if f.fin then 0x80 else 0) ||| f.opcode.code

def secondByte (f : ClientFrame) : UInt8 := 0x80 ||| f.form.field f.payload.length

def extension (f : ClientFrame) : Bytes := BigEndian.encode f.form.width f.payload.length

def keyBytes (f : ClientFrame) : Bytes :=
  [keyByte f.maskingKey 0, keyByte f.maskingKey 1, keyByte f.maskingKey 2, keyByte f.maskingKey 3]

def encode (f : ClientFrame) : Bytes :=
  f.firstByte :: f.secondByte :: (f.extension ++ (f.keyBytes ++ mask f.maskingKey 0 f.payload))

-- The frames that parseFrame can report: final, and text or close.
def Supported (f : ClientFrame) : Prop :=
  f.fin = true ∧ (f.opcode = .text ∨ f.opcode = .close)

instance (f : ClientFrame) : Decidable f.Supported := by
  unfold Supported
  infer_instance

def IsText (f : ClientFrame) : Prop := f.fin = true ∧ f.opcode = .text

instance (f : ClientFrame) : Decidable f.IsText := by
  unfold IsText
  infer_instance

def frame (f : ClientFrame) : Frame := ⟨f.payload, f.encode.length, f.opcode.code⟩

@[simp] theorem mask_length (maskingKey : MaskingKey) (i : ℕ) (bytes : Bytes) :
    (mask maskingKey i bytes).length = bytes.length := by
  induction bytes generalizing i with
  | nil => rfl
  | cons byte bytes ih => simp [mask, ih]

@[simp] theorem mask_mask (maskingKey : MaskingKey) (i : ℕ) (bytes : Bytes) :
    mask maskingKey i (mask maskingKey i bytes) = bytes := by
  induction bytes generalizing i with
  | nil => rfl
  | cons byte bytes ih =>
      rw [mask, mask, ih, UInt8.xor_assoc, UInt8.xor_self, UInt8.xor_zero]

theorem encode_length (f : ClientFrame) :
    f.encode.length = 6 + f.form.width + f.payload.length := by
  simp only [encode, extension, keyBytes, List.length_cons, List.length_append, mask_length,
    BigEndian.encode_length, List.length_nil]
  omega

theorem payload_lt (f : ClientFrame) : f.payload.length < 2 ^ 63 := by
  have h := f.fits
  cases hf : f.form <;> rw [hf] at h <;> simp only [LengthForm.capacity] at h <;> omega

theorem encode_length_lt (f : ClientFrame) : f.encode.length < 2 ^ 64 := by
  have h := f.payload_lt
  have hw : f.form.width ≤ 8 := by cases f.form <;> decide
  rw [encode_length]
  omega

end ClientFrame

section Reading

-- Reading inside the data, where the bytes read are known.
theorem byteAt_of_prefix {data rest : Bytes} {pos : ℕ} {byte : UInt8}
    (h : byte :: rest <+: data.drop pos) : byteAt data pos = .ok byte := by
  obtain ⟨more, hmore⟩ := h
  have hget : data[pos]? = some byte := by
    rw [← List.head?_drop, ← hmore]
    rfl
  rw [byteAt, hget]

theorem prefix_drop_succ {data rest : Bytes} {pos : ℕ} {byte : UInt8}
    (h : byte :: rest <+: data.drop pos) : rest <+: data.drop (pos + 1) := by
  rw [← List.drop_drop]
  obtain ⟨more, hmore⟩ := h
  exact ⟨more, by rw [← hmore]; rfl⟩

theorem readNumber_of_prefix {data bytes : Bytes} {pos : ℕ} (acc : ℕ) (h : bytes <+: data.drop pos)
    (hfit : (acc + 1) * 256 ^ bytes.length ≤ 2 ^ 64) :
    readNumber data pos bytes.length acc =
      .ok (acc * 256 ^ bytes.length + BigEndian.value bytes) := by
  induction bytes generalizing pos acc with
  | nil => simp [readNumber, BigEndian.value]
  | cons byte bytes ih =>
      have hbyte := byte.toNat_lt
      have hnext : (acc * 256 + byte.toNat + 1) * 256 ^ bytes.length ≤ 2 ^ 64 := by
        refine Nat.le_trans ?_ hfit
        rw [List.length_cons, Nat.pow_succ, Nat.mul_comm (256 ^ bytes.length), ← Nat.mul_assoc]
        exact Nat.mul_le_mul_right _ (by omega)
      have hstep : (acc <<< 8 ||| byte.toNat) % 2 ^ 64 = acc * 256 + byte.toNat := by
        rw [BigEndian.shift_or_byte]
        apply Nat.mod_eq_of_lt
        exact Nat.lt_of_lt_of_le (Nat.lt_succ_self _)
          ((Nat.le_mul_of_pos_right _ (Nat.pow_pos (by decide))).trans hnext)
      simp only [List.length_cons, readNumber, byteAt_of_prefix h, bind, Except.bind, hstep]
      rw [ih _ (prefix_drop_succ h) hnext, BigEndian.value_cons, Nat.pow_succ]
      congr 1
      ring

theorem unmask_of_prefix {data bytes : Bytes} (maskingKey : MaskingKey) {pos i : ℕ}
    (h : bytes <+: data.drop (pos + i)) :
    unmask data maskingKey pos i bytes.length = .ok (mask maskingKey i bytes) := by
  induction bytes generalizing i with
  | nil => rfl
  | cons byte bytes ih =>
      have hrest : bytes <+: data.drop (pos + (i + 1)) := prefix_drop_succ h
      simp only [List.length_cons, unmask, byteAt_of_prefix h, ih hrest, bind, Except.bind, mask,
        pure, Except.pure]

namespace LengthForm

-- What the low seven bits of the second byte are for a payload of the length.
def marker (form : LengthForm) (len : ℕ) : ℕ :=
  match form with
  | .short => len
  | .extended16 => 126
  | .extended64 => 127

variable (form : LengthForm) {len : ℕ} {data : Bytes} {secondByte : UInt8}

theorem encode_value (h : len < form.capacity) (hform : form ≠ .short) :
    BigEndian.value (BigEndian.encode form.width len) = len := by
  apply BigEndian.value_encode
  cases form with
  | short => exact absurd rfl hform
  | extended16 => exact h
  | extended64 =>
      simp only [capacity, width] at h ⊢
      omega

theorem payloadLength_complete (hfits : len < form.capacity)
    (hsecond : (secondByte &&& 0x7F).toNat = form.marker len)
    (h : BigEndian.encode form.width len <+: data.drop 2) :
    payloadLength data secondByte = .ok (some (len, 2 + form.width)) := by
  have hlen := h.length_le
  rw [BigEndian.encode_length, List.length_drop] at hlen
  have hnum := fun hwidth => readNumber_of_prefix 0 h hwidth
  rw [BigEndian.encode_length] at hnum
  have hvalue := form.encode_value hfits
  cases form with
  | short =>
      simp only [marker, capacity] at hsecond hfits
      simp only [payloadLength, hsecond, show len ≠ 126 by omega, show len ≠ 127 by omega, if_false]
      rfl
  | extended16 =>
      simp only [marker, width] at hsecond hlen hnum hvalue
      simp only [payloadLength, hsecond, if_true, show ¬data.length < 2 + 2 by omega, if_false,
        hnum (by decide), hvalue (by decide)]
      simp [pure, Except.pure, bind, Except.bind, width]
  | extended64 =>
      simp only [marker, width] at hsecond hlen hnum hvalue
      simp only [payloadLength, hsecond, show (127 : ℕ) ≠ 126 by decide, if_true,
        show ¬data.length < 2 + 8 by omega, if_false, hnum (by decide), hvalue (by decide)]
      simp [pure, Except.pure, bind, Except.bind, width]

end LengthForm

end Reading

namespace ClientFrame

variable (f : ClientFrame)

theorem firstByte_fin : (f.firstByte &&& 0x80 != 0) = f.fin := by
  unfold firstByte
  cases f.fin <;> cases f.opcode <;> decide

theorem firstByte_opcode : f.firstByte &&& 0x0F = f.opcode.code := by
  unfold firstByte
  cases f.fin <;> cases f.opcode <;> decide

theorem secondByte_mask : (f.secondByte &&& 0x80 != 0) = true := by
  have hshort : ∀ n : Fin 126, ((0x80 ||| UInt8.ofNat n.val) &&& 0x80 != 0) = true := by decide
  have hfits := f.fits
  unfold secondByte LengthForm.field
  cases hform : f.form with
  | short => exact hshort ⟨f.payload.length, by rw [hform] at hfits; exact hfits⟩
  | extended16 => dsimp only; decide
  | extended64 => dsimp only; decide

theorem secondByte_length :
    (f.secondByte &&& 0x7F).toNat = f.form.marker f.payload.length := by
  have hshort : ∀ n : Fin 126, ((0x80 ||| UInt8.ofNat n.val) &&& 0x7F).toNat = n.val := by decide
  have hfits := f.fits
  unfold secondByte LengthForm.field LengthForm.marker
  cases hform : f.form with
  | short => exact hshort ⟨f.payload.length, by rw [hform] at hfits; exact hfits⟩
  | extended16 => dsimp only; decide
  | extended64 => dsimp only; decide

theorem payloadLength_complete {data : Bytes} (h : f.extension <+: data.drop 2) :
    payloadLength data f.secondByte = .ok (some (f.payload.length, 2 + f.form.width)) :=
  f.form.payloadLength_complete f.fits f.secondByte_length h

theorem payloadLength_short {data : Bytes} (h2 : 2 ≤ data.length)
    (h : data.length < 2 + f.form.width) : payloadLength data f.secondByte = .ok none := by
  have hsecond := f.secondByte_length
  cases hform : f.form with
  | short => rw [hform] at h; simp only [LengthForm.width] at h; omega
  | extended16 =>
      rw [hform] at h hsecond
      simp only [LengthForm.width, LengthForm.marker] at h hsecond
      simp [payloadLength, hsecond, h, pure, Except.pure]
  | extended64 =>
      rw [hform] at h hsecond
      simp only [LengthForm.width, LengthForm.marker] at h hsecond
      simp [payloadLength, hsecond, h, pure, Except.pure]

theorem readMaskingKey_complete {uninit : MaskingKey} {data : Bytes} {pos : ℕ}
    (h : f.keyBytes <+: data.drop pos) :
    readMaskingKey uninit data true pos = .ok (some (f.maskingKey, pos + 4)) := by
  have hlen := h.length_le
  simp only [keyBytes, List.length_cons, List.length_nil, List.length_drop] at hlen
  have h1 := prefix_drop_succ h
  have h2 := prefix_drop_succ h1
  have h3 := prefix_drop_succ h2
  simp only [readMaskingKey, if_true, show ¬data.length < pos + 4 by omega, if_false,
    byteAt_of_prefix h, byteAt_of_prefix h1, byteAt_of_prefix h2, byteAt_of_prefix h3, bind,
    Except.bind, pure, Except.pure]
  refine congrArg (fun key => Except.ok (some (key, pos + 4))) (funext fun i => ?_)
  match i with
  | 0 | 1 | 2 | 3 => rfl

theorem readMaskingKey_short {uninit : MaskingKey} {data : Bytes} {pos : ℕ}
    (h : data.length < pos + 4) : readMaskingKey uninit data true pos = .ok none := by
  simp [readMaskingKey, h, pure, Except.pure]

-- The part of parseFrame behind the first two bytes, for a frame with these bytes.
theorem parseFrame_unsupported {uninit : MaskingKey} {data rest : Bytes}
    (hdata : data = f.firstByte :: rest) (h : f.opcode ≠ .text ∧ f.opcode ≠ .close) :
    parseFrame uninit data = .ok none := by
  have hfirst : byteAt data 0 = .ok f.firstByte := by simp [byteAt, hdata]
  have hcode : (f.opcode.code != 0x1 && f.opcode.code != 0x8) = true := by
    obtain ⟨htext, hclose⟩ := h
    cases hop : f.opcode <;> simp_all [Opcode.code]
  unfold parseFrame
  simp only [hfirst, bind, Except.bind, f.firstByte_opcode, hcode, if_true, pure, Except.pure]
  split <;> rfl

section Parse

variable {uninit : MaskingKey} {data : Bytes}

-- Where the parts of a frame lie in data that begins with it.
theorem extension_prefix (tail : Bytes) : f.extension <+: (f.encode ++ tail).drop 2 := by
  simp [encode]

theorem keyBytes_prefix (tail : Bytes) :
    f.keyBytes <+: (f.encode ++ tail).drop (2 + f.form.width) := by
  have hext : f.extension.length = f.form.width := by simp [extension]
  rw [← List.drop_drop, ← hext]
  simp [encode]

theorem payload_prefix (tail : Bytes) :
    mask f.maskingKey 0 f.payload <+: (f.encode ++ tail).drop (2 + f.form.width + 4 + 0) := by
  have hext : f.extension.length = f.form.width := by simp [extension]
  rw [Nat.add_zero, ← List.drop_drop, ← List.drop_drop, ← hext]
  simp [encode, keyBytes]

-- Both bytes of the header are there, and the opcode is one parseFrame accepts: what is
-- left is the length, the key and the payload.
theorem parseFrame_header {rest : Bytes} (hdata : data = f.firstByte :: f.secondByte :: rest)
    (hop : f.opcode = .text ∨ f.opcode = .close) :
    parseFrame uninit data = do
      match ← payloadLength data f.secondByte with
      | none => return none
      | some (payloadLen, pos) =>
          match ← readMaskingKey uninit data true pos with
          | none => return none
          | some (maskingKey, pos) =>
              if data.length < (pos + payloadLen) % 2 ^ 64 then return none
              if maxSize < payloadLen then throw .length_error
              let outMessage ← unmask data maskingKey pos 0 payloadLen
              if f.fin then return some ⟨outMessage, (pos + payloadLen) % 2 ^ 64, f.opcode.code⟩
              return none := by
  have hfirst : byteAt data 0 = .ok f.firstByte := by simp [byteAt, hdata]
  have hsecond : byteAt data 1 = .ok f.secondByte := by simp [byteAt, hdata]
  have hcode : (f.opcode.code != 0x1 && f.opcode.code != 0x8) = false := by
    rcases hop with hop | hop <;> rw [hop] <;> rfl
  have hlen : ¬data.length < 2 := by simp [hdata]
  have hparse : parseFrame uninit data = parseFrame uninit data := rfl
  conv_rhs at hparse =>
    unfold parseFrame
    simp only [hlen, if_false, hfirst, hsecond, bind, Except.bind, f.firstByte_opcode, hcode,
      f.secondByte_mask, f.firstByte_fin, Bool.false_eq_true]
  exact hparse

theorem frameLen_mod : (2 + f.form.width + 4 + f.payload.length) % 2 ^ 64 = f.encode.length := by
  have hlength := f.encode_length
  rw [Nat.mod_eq_of_lt (by have := f.encode_length_lt; omega)]
  omega

theorem parseFrame_complete (tail : Bytes) :
    parseFrame uninit (f.encode ++ tail) = .ok (if f.Supported then some f.frame else none) := by
  by_cases hop : f.opcode = .text ∨ f.opcode = .close
  · have hpay := f.payload_lt
    have hmask := unmask_of_prefix f.maskingKey (f.payload_prefix tail)
    rw [mask_length, mask_mask] at hmask
    have hheader : parseFrame uninit (f.encode ++ tail) = _ := f.parseFrame_header rfl hop
    rw [hheader]
    simp only [f.payloadLength_complete (f.extension_prefix tail),
      f.readMaskingKey_complete (f.keyBytes_prefix tail), bind, Except.bind, frameLen_mod,
      hmask, show ¬(f.encode ++ tail).length < f.encode.length by simp,
      show ¬maxSize < f.payload.length by unfold maxSize; omega, if_false]
    by_cases hfin : f.fin = true
    · simp only [hfin, if_true, Supported, hop, and_self, frame]
      rfl
    · rw [if_neg hfin, if_neg (fun h => hfin h.1)]
      rfl
  · have hne : f.opcode ≠ .text ∧ f.opcode ≠ .close := not_or.mp hop
    have hnone : parseFrame uninit (f.encode ++ tail) = _ := f.parseFrame_unsupported rfl hne
    rw [hnone, if_neg (fun h => hop h.2)]

-- A proper prefix of a frame that has the two header bytes: the length, the key or
-- part of the payload is still missing.
theorem parseFrame_header_short {missing rest : Bytes} (h : data ++ missing = f.encode)
    (hm : missing ≠ []) (hdata : data = f.firstByte :: f.secondByte :: rest)
    (hop : f.opcode = .text ∨ f.opcode = .close) : parseFrame uninit data = .ok none := by
  have hmissing : 0 < missing.length := List.length_pos_iff.mpr hm
  have htwo : 2 ≤ data.length := by simp [hdata]
  have hshort : data.length < f.encode.length := by
    rw [← h, List.length_append]
    omega
  have hin : ∀ {pat : Bytes} {pos : ℕ}, pat <+: (f.encode ++ []).drop pos →
      pos + pat.length ≤ data.length → pat <+: data.drop pos := by
    intro pat pos hpat hle
    rw [List.append_nil, ← h] at hpat
    exact (Search.prefix_drop_append missing hle).mp hpat
  rw [f.parseFrame_header hdata hop]
  by_cases hlen : data.length < 2 + f.form.width
  · rw [f.payloadLength_short htwo hlen]
    rfl
  have hext := hin (f.extension_prefix []) (by simp [extension]; omega)
  by_cases hkey : data.length < 2 + f.form.width + 4
  · simp only [f.payloadLength_complete hext, bind, Except.bind, readMaskingKey_short hkey]
    rfl
  have hkeys := hin (f.keyBytes_prefix []) (by simp [keyBytes]; omega)
  simp only [f.payloadLength_complete hext, f.readMaskingKey_complete hkeys, bind, Except.bind,
    f.frameLen_mod, hshort, if_true]
  rfl

theorem parseFrame_short {missing : Bytes} (h : data ++ missing = f.encode) (hm : missing ≠ []) :
    parseFrame uninit data = .ok none := by
  match data, h with
  | [], _ => simp [parseFrame, pure, Except.pure]
  | [_], _ => simp [parseFrame, pure, Except.pure]
  | first :: second :: rest, h =>
      obtain ⟨rfl, htail⟩ := List.cons.inj h
      obtain ⟨rfl, _⟩ := List.cons.inj htail
      by_cases hop : f.opcode = .text ∨ f.opcode = .close
      · exact f.parseFrame_header_short h hm rfl hop
      · exact f.parseFrame_unsupported rfl (not_or.mp hop)

end Parse

end ClientFrame

end MyTestserver
