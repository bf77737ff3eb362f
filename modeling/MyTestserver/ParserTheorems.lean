import MyTestserver.FrameStream

namespace MyTestserver

open WebSocketHandler

section Header

-- The number of bytes in front of the payload, by the second byte.
def extensionWidth (secondByte : UInt8) : ℕ :=
  if secondByte &&& 0x7F = 126 then 2 else if secondByte &&& 0x7F = 127 then 8 else 0

def keyWidth (secondByte : UInt8) : ℕ := if secondByte &&& 0x80 != 0 then 4 else 0

def headerLength : Bytes → ℕ
  | _ :: secondByte :: _ => 2 + extensionWidth secondByte + keyWidth secondByte
  | _ => 2

-- A text or close frame with a whole header, whose 64-bit length makes the sum of header
-- and payload wrap around.
def Wraps : Bytes → Prop
  | firstByte :: secondByte :: rest =>
      (firstByte &&& 0x0F = 0x1 ∨ firstByte &&& 0x0F = 0x8) ∧ secondByte &&& 0x7F = 127 ∧
        8 + keyWidth secondByte ≤ rest.length ∧
        2 ^ 64 ≤ 2 + 8 + keyWidth secondByte + BigEndian.value (rest.take 8)
  | _ => False

instance : DecidablePred Wraps
  | [] | [_] => .isFalse id
  | firstByte :: secondByte :: rest => by
      unfold Wraps
      infer_instance

end Header

namespace WebSocketHandler

section Reads

-- With the bytes in place nothing is read past the end.

variable {uninit : MaskingKey} {data : Bytes}

theorem readNumber_in {pos width : ℕ} (h : pos + width ≤ data.length) (hwidth : width ≤ 8) :
    readNumber data pos width 0 = .ok (BigEndian.value ((data.drop pos).take width)) := by
  have hlen : ((data.drop pos).take width).length = width := by
    rw [List.length_take, List.length_drop]
    omega
  have hpow : (0 + 1) * 256 ^ width ≤ 2 ^ 64 := by
    rw [Nat.zero_add, Nat.one_mul]
    exact (Nat.pow_le_pow_right (by decide) hwidth).trans (by decide)
  have hread := readNumber_of_prefix 0 (List.take_prefix width (data.drop pos)) (by rwa [hlen])
  rwa [hlen, Nat.zero_mul, Nat.zero_add] at hread

theorem unmask_in {pos count : ℕ} (key : MaskingKey) (h : pos + count ≤ data.length) :
    ∃ message, unmask data key pos 0 count = .ok message ∧ message.length = count := by
  have hlen : ((data.drop (pos + 0)).take count).length = count := by
    rw [List.length_take, List.length_drop]
    omega
  have hread := unmask_of_prefix key (List.take_prefix count (data.drop (pos + 0)))
  rw [hlen] at hread
  exact ⟨_, hread, by rw [ClientFrame.mask_length, hlen]⟩

theorem byteAt_in {pos : ℕ} (h : pos < data.length) : ∃ byte, byteAt data pos = .ok byte :=
  ⟨data[pos], by simp [byteAt, List.getElem?_eq_getElem h]⟩

variable {firstByte secondByte : UInt8} {rest : Bytes}

-- The payload length, or that bytes of it are missing. Only the long form can come near
-- the end of the 64 bits.
theorem payloadLength_in (hdata : data = firstByte :: secondByte :: rest) :
    (payloadLength data secondByte = .ok none ∧ rest.length < extensionWidth secondByte) ∨
      ∃ len, payloadLength data secondByte = .ok (some (len, 2 + extensionWidth secondByte)) ∧
        extensionWidth secondByte ≤ rest.length ∧ len < 2 ^ 64 ∧
        (secondByte &&& 0x7F = 127 ∧ len = BigEndian.value (rest.take 8) ∨
          secondByte &&& 0x7F ≠ 127 ∧ len < 2 ^ 16) := by
  have hlen : data.length = rest.length + 2 := by simp [hdata]
  have hdrop : data.drop 2 = rest := by simp [hdata]
  have hnat : ∀ n : UInt8, (secondByte &&& 0x7F).toNat = n.toNat ↔ secondByte &&& 0x7F = n :=
    fun n => UInt8.toNat_inj
  have h126 := hnat 126
  have h127 := hnat 127
  have hvalue : ∀ width, BigEndian.value (rest.take width) < 256 ^ width := fun width =>
    (BigEndian.value_lt _).trans_le (Nat.pow_le_pow_right (by decide) (List.length_take_le _ _))
  unfold payloadLength extensionWidth
  by_cases hshort : secondByte &&& 0x7F = 126
  · simp only [hshort, if_true, show ((126 : UInt8)).toNat = 126 from rfl]
    by_cases hmissing : data.length < 2 + 2
    · exact .inl ⟨by simp [hmissing, pure, Except.pure], by omega⟩
    · have hread := readNumber_in (show 2 + 2 ≤ data.length by omega) (by decide)
      have hsmall := hvalue 2
      rw [hdrop] at hread
      refine .inr ⟨BigEndian.value (rest.take 2), ?_, by omega, by omega,
        .inr ⟨by decide, by omega⟩⟩
      simp only [hmissing, if_false, hread, bind, Except.bind]
      rfl
  by_cases hlong : secondByte &&& 0x7F = 127
  · simp only [hlong, if_true, show ((127 : UInt8)).toNat = 127 from rfl,
      show ¬(127 : ℕ) = 126 by decide, show ¬(127 : UInt8) = 126 by decide, if_false]
    by_cases hmissing : data.length < 2 + 8
    · exact .inl ⟨by simp [hmissing, pure, Except.pure], by omega⟩
    · have hread := readNumber_in (show 2 + 8 ≤ data.length by omega) (by decide)
      have hsmall := hvalue 8
      rw [hdrop] at hread
      refine .inr ⟨BigEndian.value (rest.take 8), ?_, by omega, hsmall, .inl ⟨trivial, rfl⟩⟩
      simp only [hmissing, if_false, hread, bind, Except.bind]
      rfl
  · have hsize := (secondByte &&& 0x7F).toNat_lt
    have hne126 : ¬(secondByte &&& 0x7F).toNat = 126 := fun h => hshort (h126.mp h)
    have hne127 : ¬(secondByte &&& 0x7F).toNat = 127 := fun h => hlong (h127.mp h)
    simp only [hne126, hne127, hshort, hlong, if_false]
    exact .inr ⟨_, rfl, Nat.zero_le _, by omega, .inr ⟨hlong, by omega⟩⟩

theorem readMaskingKey_in (uninit : MaskingKey) (secondByte : UInt8) {pos : ℕ}
    (hpos : pos ≤ data.length) :
    (readMaskingKey uninit data (secondByte &&& 0x80 != 0) pos = .ok none ∧
        data.length < pos + keyWidth secondByte) ∨
      ∃ key, readMaskingKey uninit data (secondByte &&& 0x80 != 0) pos =
          .ok (some (key, pos + keyWidth secondByte)) ∧
        pos + keyWidth secondByte ≤ data.length := by
  unfold readMaskingKey keyWidth
  by_cases hmasked : (secondByte &&& 0x80 != 0) = true
  · simp only [hmasked, if_true]
    by_cases hlen : data.length < pos + 4
    · exact .inl ⟨by simp [hlen, pure, Except.pure], hlen⟩
    · obtain ⟨key0, h0⟩ := byteAt_in (show pos < data.length by omega)
      obtain ⟨key1, h1⟩ := byteAt_in (show pos + 1 < data.length by omega)
      obtain ⟨key2, h2⟩ := byteAt_in (show pos + 2 < data.length by omega)
      obtain ⟨key3, h3⟩ := byteAt_in (show pos + 3 < data.length by omega)
      exact .inr ⟨_, by simp only [hlen, if_false, h0, h1, h2, h3, bind, Except.bind]; rfl,
        by omega⟩
  · simp only [hmasked]
    exact .inr ⟨uninit, rfl, hpos⟩

end Reads

section Result

-- How parseFrame ends: with length_error when the sum wraps around, else with no frame or
-- with one that lies within the data.
inductive Result (data : Bytes) : Except Exception (Option Frame) → Prop
  | wraps : Wraps data → Result data (.error .length_error)
  | none : ¬Wraps data → Result data (.ok none)
  | some (frame : Frame) : ¬Wraps data → frame.frameLen ≤ data.length →
      headerLength data + frame.outMessage.length = frame.frameLen → Result data (.ok (some frame))

theorem two_le_headerLength (data : Bytes) : 2 ≤ headerLength data := by
  unfold headerLength
  split
  · omega
  · exact Nat.le_refl 2

variable (uninit : MaskingKey) {data rest : Bytes} {firstByte secondByte : UInt8}

-- The wrapped sum is less than the header, so the check that all of the payload is there
-- succeeds; no string is as long as such a payload.
theorem parseFrame_result_cons (hdata : data = firstByte :: secondByte :: rest)
    (hsize : data.length < 2 ^ 63) : Result data (parseFrame uninit data) := by
  have hfirst : byteAt data 0 = .ok firstByte := by simp [byteAt, hdata]
  have hsecond : byteAt data 1 = .ok secondByte := by simp [byteAt, hdata]
  have hlen : data.length = rest.length + 2 := by simp [hdata]
  have hheader : headerLength data = 2 + extensionWidth secondByte + keyWidth secondByte := by
    rw [hdata, headerLength]
  have hwraps : Wraps data ↔
      (firstByte &&& 0x0F = 0x1 ∨ firstByte &&& 0x0F = 0x8) ∧ secondByte &&& 0x7F = 127 ∧
        8 + keyWidth secondByte ≤ rest.length ∧
        2 ^ 64 ≤ 2 + 8 + keyWidth secondByte + BigEndian.value (rest.take 8) := by
    rw [hdata, Wraps]
  have hextension : secondByte &&& 0x7F = 127 → extensionWidth secondByte = 8 := by
    intro h
    simp [extensionWidth, h]
  have hkeyWidth : keyWidth secondByte ≤ 4 := by
    unfold keyWidth
    split <;> omega
  unfold parseFrame
  simp only [show ¬data.length < 2 by omega, if_false, hfirst, hsecond, bind, Except.bind]
  by_cases hop : firstByte &&& 0x0F = 0x1 ∨ firstByte &&& 0x0F = 0x8
  swap
  · have hop' : (firstByte &&& 0x0F != 0x1 && firstByte &&& 0x0F != 0x8) = true := by
      simpa [not_or] using hop
    rw [if_pos hop']
    exact .none fun h => hop (hwraps.mp h).1
  have hop' : ¬(firstByte &&& 0x0F != 0x1 && firstByte &&& 0x0F != 0x8) = true := by
    rcases hop with hop | hop <;> rw [hop] <;> decide
  rw [if_neg hop']
  rcases payloadLength_in hdata with ⟨hnone, hshort⟩ | ⟨len, hsome, hlong, hlt, hvalue⟩
  · simp only [hnone]
    refine .none fun h => ?_
    obtain ⟨_, hfield, hrest, _⟩ := hwraps.mp h
    rw [hextension hfield] at hshort
    omega
  simp only [hsome]
  have hextended : 2 + extensionWidth secondByte ≤ data.length := by omega
  rcases readMaskingKey_in uninit secondByte hextended with ⟨hnone, hshort⟩ | ⟨key, hkey, hin⟩
  · simp only [hnone]
    refine .none fun h => ?_
    obtain ⟨_, hfield, hrest, _⟩ := hwraps.mp h
    rw [hextension hfield] at hshort
    omega
  simp only [hkey]
  by_cases hwrap : 2 ^ 64 ≤ 2 + extensionWidth secondByte + keyWidth secondByte + len
  · rcases hvalue with ⟨hfield, hvalue⟩ | ⟨_, hsmall⟩
    · have hmod : (2 + extensionWidth secondByte + keyWidth secondByte + len) % 2 ^ 64 ≤
          data.length := by omega
      have hmax : maxSize < len := by
        unfold maxSize
        omega
      simp only [Nat.not_lt.mpr hmod, hmax, if_false, if_true]
      rw [hextension hfield] at hwrap hlong hin
      exact .wraps (hwraps.mpr ⟨hop, hfield, by omega, hvalue ▸ hwrap⟩)
    · omega
  · have hsafe : ¬Wraps data := by
      intro h
      obtain ⟨_, hfield, _, hsum⟩ := hwraps.mp h
      rcases hvalue with ⟨_, hvalue⟩ | ⟨hne, _⟩
      · rw [hextension hfield, hvalue] at hwrap
        exact hwrap hsum
      · exact hne hfield
    rw [Nat.mod_eq_of_lt (Nat.not_le.mp hwrap)]
    by_cases hmissing :
        data.length < 2 + extensionWidth secondByte + keyWidth secondByte + len
    · rw [if_pos hmissing]
      exact .none hsafe
    obtain ⟨message, hmessage, hlength⟩ := unmask_in key (Nat.not_lt.mp hmissing)
    have hmax : ¬maxSize < len := by
      unfold maxSize
      omega
    simp only [hmissing, hmax, if_false, hmessage]
    split
    · exact .some _ hsafe (Nat.not_lt.mp hmissing) (by rw [hheader, hlength])
    · exact .none hsafe

theorem parseFrame_result (data : Bytes) (hsize : data.length < 2 ^ 63) :
    Result data (parseFrame uninit data) := by
  rcases data with _ | ⟨firstByte, _ | ⟨secondByte, rest⟩⟩
  · exact .none id
  · exact .none id
  · exact parseFrame_result_cons uninit rfl hsize

end Result

end WebSocketHandler

section Round

variable {σ : Type} (handle : Bytes → σ → Outcome σ) (shutdown : σ → σ)

-- One pass of the loop of onMessage: what the loop ends with, or the buffer and the state
-- that it goes on with.
def frameRound (key : MaskingKey) (buffer : Buffer) (s : σ) :
    Outcome (Buffer × σ) ⊕ (Buffer × σ) :=
  if buffer.readableBytes = 0 then .inl (.ok (), buffer, s)
  else
    match parseFrame key buffer.readable with
    | .error e => .inl (.error e, buffer, s)
    | .ok none => .inl (.ok (), buffer, s)
    | .ok (some frame) =>
        if frame.opcode = 0x1 ∧ frame.outMessage ≠ [] then
          match handle frame.outMessage s with
          | (.error e, s) => .inl (.error e, buffer, s)
          | (.ok (), s) => .inr (buffer.retrieve frame.frameLen, s)
        else if frame.opcode = 0x8 then .inl (.ok (), buffer, shutdown s)
        else .inr (buffer.retrieve frame.frameLen, s)

theorem frameLoop_succ (uninit : ℕ → MaskingKey) (rounds : ℕ) (buffer : Buffer) (s : σ) :
    frameLoop handle shutdown uninit (rounds + 1) (buffer, s) =
      (frameRound handle shutdown (uninit rounds) buffer s).elim id
        (frameLoop handle shutdown uninit rounds) := by
  unfold frameLoop frameRound
  by_cases hempty : buffer.readableBytes = 0
  · rw [if_pos hempty, if_pos hempty]
    rfl
  rw [if_neg hempty, if_neg hempty]
  rcases parseFrame (uninit rounds) buffer.readable with e | _ | frame
  · rfl
  · rfl
  dsimp only
  by_cases htext : frame.opcode = 0x1 ∧ frame.outMessage ≠ []
  · rw [if_pos htext, if_pos htext]
    rcases handle frame.outMessage s with ⟨e | _, t⟩
    · rfl
    · rfl
  rw [if_neg htext, if_neg htext]
  by_cases hclose : frame.opcode = 0x8
  · rw [if_pos hclose, if_pos hclose]
    rfl
  · rw [if_neg hclose, if_neg hclose]
    rfl

-- A pass that goes on has taken a frame out of the buffer.
theorem frameRound_shrinks {key : MaskingKey} {b b' : Buffer} {s s' : σ}
    (h : frameRound handle shutdown key b s = .inr (b', s')) :
    b'.readableBytes < b.readableBytes := by
  have hretrieve : ∀ frame, parseFrame key b.readable = .ok (some frame) →
      (b.retrieve frame.frameLen).readableBytes < b.readableBytes := by
    intro frame hframe
    have hlen := parseFrame_frameLen hframe
    rw [← Buffer.readable_length, Buffer.readable_retrieve, List.length_drop,
      ← Buffer.readable_length]
    omega
  unfold frameRound at h
  split at h
  · cases h
  split at h
  · cases h
  · cases h
  rename_i frame hframe
  split at h
  · split at h
    · cases h
    · obtain ⟨rfl, _⟩ := Prod.mk.inj (Sum.inr.inj h)
      exact hretrieve frame hframe
  split at h
  · cases h
  · obtain ⟨rfl, _⟩ := Prod.mk.inj (Sum.inr.inj h)
    exact hretrieve frame hframe

end Round

section Safety

-- parseFrame stays within the data, asks for no string that is too long, and reports a frame
-- that is there; and the loop that calls it comes to an end.
structure ParsesSafely (data : Bytes) : Prop where
  reads : ∀ uninit, parseFrame uninit data ≠ .error .out_of_bounds
  reserves : ∀ uninit, parseFrame uninit data ≠ .error .length_error
  reports : ∀ uninit frame, parseFrame uninit data = .ok (some frame) →
    2 ≤ frame.frameLen ∧ frame.frameLen ≤ data.length ∧
      frame.outMessage.length = frame.frameLen - headerLength data
  shrinks : ∀ {σ : Type} (handle : Bytes → σ → Outcome σ) (shutdown : σ → σ) (key : MaskingKey)
    (b b' : Buffer) (s s' : σ), b.readable = data →
    frameRound handle shutdown key b s = .inr (b', s') → b'.readableBytes < b.readableBytes

-- All that goes wrong is the sum of header and payload length that wraps around.
theorem parsesSafely_iff (data : Bytes) (h : data.length < 2 ^ 63) :
    ParsesSafely data ↔ ¬Wraps data := by
  constructor
  · intro hsafe hwraps
    have hresult := parseFrame_result (fun _ => 0) data h
    generalize hparse : parseFrame (fun _ => 0) data = result at hresult
    cases hresult with
    | wraps _ => exact hsafe.reserves _ hparse
    | none hnot => exact hnot hwraps
    | some frame hnot => exact hnot hwraps
  · intro hsafe
    refine ⟨fun uninit hparse => ?_, fun uninit hparse => ?_, fun uninit frame hparse => ?_,
      fun handle shutdown key b b' s s' _ hround => frameRound_shrinks handle shutdown hround⟩
    · have hresult := parseFrame_result uninit data h
      rw [hparse] at hresult
      cases hresult
    · have hresult := parseFrame_result uninit data h
      rw [hparse] at hresult
      cases hresult with
      | wraps hwraps => exact hsafe hwraps
    · have hresult := parseFrame_result uninit data h
      have htwo := two_le_headerLength data
      rw [hparse] at hresult
      cases hresult with
      | some _ _ hin hlength => exact ⟨by omega, hin, by omega⟩

theorem parsesSafely_text : ParsesSafely [0x81, 0x82, 1, 2, 3, 4, 105, 107] :=
  (parsesSafely_iff [0x81, 0x82, 1, 2, 3, 4, 105, 107] (by decide)).mpr (by decide)

-- Ten bytes are enough.
theorem parses_unsafely : ¬∀ data : Bytes, data.length < 2 ^ 63 → ParsesSafely data := by
  intro h
  have hsafe := h ([0x81, 0x7F] ++ List.replicate 8 0xFF) (by decide)
  exact hsafe.reserves (fun _ => 0) (by decide)

end Safety

end MyTestserver
