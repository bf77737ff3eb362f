import MyTestserver.FrameStream

namespace MyTestserver

open WebSocketHandler MyTestserver.Stream

-- The shortest form that can hold the length.
def LengthForm.minimal (len : ℕ) : LengthForm :=
  if len ≤ 125 then .short else if len ≤ 65535 then .extended16 else .extended64

section Client

-- A payload of the length behind a header, once all of it is there.
def takePayload (rest : Bytes) (len header : ℕ) : Front Bytes :=
  if rest.length < len then .wait else .item (rest.take len) (header + len)

-- An extended length, which has to be one that no shorter form can hold.
def takeExtended (form : LengthForm) (rest : Bytes) : Front Bytes :=
  if rest.length < form.width then .wait
  else
    let len := BigEndian.value (rest.take form.width)
    if LengthForm.minimal len = form ∧ len < form.capacity then
      takePayload (rest.drop form.width) len (2 + form.width)
    else .stop

-- A client as RFC 6455 wants it, for servers that send text messages in one frame each:
-- it stops at a first byte other than FIN and the text opcode, at a masked frame, and at a
-- length that is not written in the shortest form.
def clientFront (data : Bytes) : Front Bytes :=
  match data with
  | first :: second :: rest =>
      if first ≠ 0x81 ∨ second &&& 0x80 ≠ 0 then .stop
      else if second = 126 then takeExtended .extended16 rest
      else if second = 127 then takeExtended .extended64 rest
      else takePayload rest second.toNat 2
  | _ => .wait

end Client

section Encoding

variable {message : Bytes}

theorem minimal_fits {len : ℕ} (h : len < 2 ^ 63) : len < (LengthForm.minimal len).capacity := by
  unfold LengthForm.minimal
  split
  · exact Nat.lt_succ_of_le ‹_›
  split
  · exact Nat.lt_succ_of_le ‹_›
  · exact h

-- The three branches of encodeFrame are one: the first byte, the field of the length, the
-- length where it does not fit there, and the message.
theorem encodeFrame_eq (message : Bytes) :
    encodeFrame message =
      0x81 :: (LengthForm.minimal message.length).field message.length ::
        (BigEndian.encode (LengthForm.minimal message.length).width message.length ++ message) := by
  unfold encodeFrame LengthForm.minimal
  dsimp only
  split
  · rfl
  split
  · rfl
  · rfl

theorem encodeFrame_length (message : Bytes) :
    (encodeFrame message).length =
      2 + (LengthForm.minimal message.length).width + message.length := by
  rw [encodeFrame_eq]
  simp only [List.length_cons, List.length_append, BigEndian.encode_length]
  omega

theorem minimal_field_marker (len : ℕ) :
    ((LengthForm.minimal len).field len &&& 0x7F).toNat = (LengthForm.minimal len).marker len ∧
      (LengthForm.minimal len).field len &&& 0x80 = 0 := by
  have hshort : ∀ n : Fin 126, (UInt8.ofNat n.val &&& 0x7F).toNat = n.val ∧
      UInt8.ofNat n.val &&& 0x80 = 0 := by decide
  have hmarkers : ((126 : UInt8) &&& 0x7F).toNat = 126 ∧ (126 : UInt8) &&& 0x80 = 0 ∧
      ((127 : UInt8) &&& 0x7F).toNat = 127 ∧ (127 : UInt8) &&& 0x80 = 0 := by decide
  unfold LengthForm.minimal
  split
  · exact hshort ⟨len, Nat.lt_succ_of_le ‹_›⟩
  split
  · exact ⟨hmarkers.1, hmarkers.2.1⟩
  · exact hmarkers.2.2

end Encoding

section Decoding

variable {message : Bytes}

theorem takePayload_append (message tail : Bytes) (header : ℕ) :
    takePayload (message ++ tail) message.length header =
      .item message (header + message.length) := by
  unfold takePayload
  rw [if_neg (by simp), List.take_left]

theorem takeExtended_append {form : LengthForm} (hform : form ≠ .short)
    (hminimal : LengthForm.minimal message.length = form) (hfits : message.length < form.capacity)
    (tail : Bytes) :
    takeExtended form (BigEndian.encode form.width message.length ++ (message ++ tail)) =
      .item message (2 + form.width + message.length) := by
  have hwidth : (BigEndian.encode form.width message.length).length = form.width :=
    BigEndian.encode_length _ _
  have htake : (BigEndian.encode form.width message.length ++ (message ++ tail)).take form.width =
      BigEndian.encode form.width message.length := by
    rw [List.take_append_of_le_length (by rw [hwidth]), List.take_of_length_le (by rw [hwidth])]
  have hdrop : (BigEndian.encode form.width message.length ++ (message ++ tail)).drop form.width =
      message ++ tail := by
    rw [List.drop_append_of_le_length (by rw [hwidth]), List.drop_of_length_le (by rw [hwidth]),
      List.nil_append]
  unfold takeExtended
  rw [if_neg (by rw [List.length_append, hwidth]; omega)]
  dsimp only
  rw [htake, form.encode_value hfits hform, if_pos ⟨hminimal, hfits⟩, hdrop, takePayload_append]

-- The client finds the message at the front, whatever follows it.
theorem clientFront_encodeFrame (h : message.length < 2 ^ 63) (tail : Bytes) :
    clientFront (encodeFrame message ++ tail) = .item message (encodeFrame message).length := by
  have hfits := minimal_fits h
  have hmask := (minimal_field_marker message.length).2
  rw [encodeFrame_length, encodeFrame_eq, List.cons_append, List.cons_append, List.append_assoc,
    clientFront, if_neg (by simp [hmask])]
  cases hform : LengthForm.minimal message.length with
  | short =>
      have hlen : message.length < 126 := by rwa [hform] at hfits
      have hfield : (UInt8.ofNat message.length).toNat = message.length :=
        Nat.mod_eq_of_lt (by omega)
      have hne : UInt8.ofNat message.length ≠ 126 ∧ UInt8.ofNat message.length ≠ 127 := by
        constructor
        · intro heq
          rw [heq] at hfield
          exact absurd hfield.symm (Nat.ne_of_lt hlen)
        · intro heq
          rw [heq] at hfield
          exact absurd hfield.symm (Nat.ne_of_lt (Nat.lt_succ_of_lt hlen))
      simp only [LengthForm.field, hne.1, hne.2, if_false, hfield]
      exact takePayload_append message tail 2
  | extended16 =>
      rw [hform] at hfits
      exact takeExtended_append (by decide) hform hfits tail
  | extended64 =>
      rw [hform] at hfits
      exact takeExtended_append (by decide) hform hfits tail

theorem clientFront_nil : clientFront [] = .wait := rfl

-- What the server writes, frame after frame, a client reads back message by message, and
-- nothing is left over; so different messages are never written the same.
theorem encodeFrames_decode (messages : List Bytes) (h : ∀ m ∈ messages, m.length < 2 ^ 63) :
    (∀ decoded rest, Decodes clientFront (messages.flatMap encodeFrame) decoded rest ↔
        decoded = messages ∧ rest = []) ∧
      ∀ messages', (∀ m ∈ messages', m.length < 2 ^ 63) →
        messages'.flatMap encodeFrame = messages.flatMap encodeFrame → messages' = messages := by
  have hall : ∀ ms : List Bytes, (∀ m ∈ ms, m.length < 2 ^ 63) →
      Decodes clientFront (ms.flatMap encodeFrame) ms [] := by
    intro ms hms
    have hread : Decodes clientFront (ms.flatMap encodeFrame ++ []) ms [] :=
      decodes_flatMap (fun m hm tail => clientFront_encodeFrame (hms m hm) tail)
        (blocked_of_wait clientFront_nil)
    rwa [List.append_nil] at hread
  have hdecodes := hall messages h
  refine ⟨fun decoded rest => ⟨fun hread => hread.unique hdecodes, ?_⟩, fun messages' h' heq => ?_⟩
  · rintro ⟨rfl, rfl⟩
    exact hdecodes
  · have hdecodes' := hall messages' h'
    rw [heq] at hdecodes'
    exact (hdecodes'.unique hdecodes).1

theorem encodeFrames_decode_greeting :
    Decodes clientFront [0x81, 2, 104, 105, 0x81, 0] [ascii "hi", []] [] := by
  have hread := (encodeFrames_decode [ascii "hi", []] (by decide)).1 [ascii "hi", []] []
  exact hread.mpr ⟨rfl, rfl⟩

end Decoding

section Server

-- What parseFrame makes of a frame of the server itself. The mask bit is not set, so the
-- local array is what the payload is combined with.
theorem parseFrame_encodeFrame (uninit : MaskingKey) {message : Bytes}
    (h : message.length < 2 ^ 63) (tail : Bytes) :
    parseFrame uninit (encodeFrame message ++ tail) =
      .ok (some ⟨mask uninit 0 message, (encodeFrame message).length, 0x1⟩) := by
  have hlength := encodeFrame_length message
  have hwidth : (LengthForm.minimal message.length).width ≤ 8 := by
    cases LengthForm.minimal message.length <;> decide
  obtain ⟨hmarker, hmask⟩ := minimal_field_marker message.length
  have hdata : encodeFrame message ++ tail = 0x81 ::
      (LengthForm.minimal message.length).field message.length ::
        (BigEndian.encode (LengthForm.minimal message.length).width message.length ++
          (message ++ tail)) := by
    rw [encodeFrame_eq, List.cons_append, List.cons_append, List.append_assoc]
  have hextension : BigEndian.encode (LengthForm.minimal message.length).width message.length <+:
      (encodeFrame message ++ tail).drop 2 := by
    rw [hdata]
    exact List.prefix_append _ _
  have hpayload : message <+: (encodeFrame message ++ tail).drop
      (2 + (LengthForm.minimal message.length).width + 0) := by
    rw [Nat.add_zero, ← List.drop_drop, hdata, List.drop_succ_cons, List.drop_succ_cons,
      List.drop_zero, List.drop_left' (BigEndian.encode_length _ _)]
    exact List.prefix_append _ _
  have hmod : (2 + (LengthForm.minimal message.length).width + message.length) % 2 ^ 64 =
      (encodeFrame message).length := by
    rw [hlength]
    exact Nat.mod_eq_of_lt (by omega)
  refine parseFrame_some_iff.mpr ⟨0x81, _, message.length, _, uninit, _, by rw [hdata]; rfl,
    by rw [hdata]; rfl, (LengthForm.minimal message.length).payloadLength_complete (minimal_fits h)
      hmarker hextension, by rw [hmask]; rfl, ?_, ?_, unmask_of_prefix uninit hpayload, by decide,
    .inl (by decide), hmod.symm, rfl⟩
  · rw [hmod, List.length_append]
    omega
  · unfold maxSize
    omega

theorem mask_eq_self_iff (key : MaskingKey) (i : ℕ) (bytes : Bytes) :
    mask key i bytes = bytes ↔ ∀ j < bytes.length, keyByte key (i + j) = 0 := by
  induction bytes generalizing i with
  | nil => simp [mask]
  | cons byte bytes ih =>
      have hxor : byte ^^^ keyByte key i = byte ↔ keyByte key i = 0 := by
        conv_lhs => rw [← UInt8.xor_zero (a := byte), UInt8.xor_assoc]
        rw [UInt8.xor_right_inj, UInt8.zero_xor]
      rw [mask, List.cons.injEq, ih, List.length_cons, Nat.forall_lt_succ_left, hxor]
      simp only [Nat.add_zero, Nat.add_assoc, Nat.add_comm 1]

-- parseFrame gives back the message of a frame of the server exactly when the bytes that it
-- finds in its local array, as far as they are used, are zero.
theorem parseFrame_encodeFrame_iff (uninit : MaskingKey) (message tail : Bytes)
    (h : message.length < 2 ^ 63) :
    parseFrame uninit (encodeFrame message ++ tail) =
        .ok (some ⟨message, (encodeFrame message).length, 0x1⟩) ↔
      ∀ i < message.length, uninit (Fin.ofNat 4 i) = 0 := by
  rw [parseFrame_encodeFrame uninit h]
  simpa [keyByte] using mask_eq_self_iff uninit 0 message

theorem parseFrame_encodeFrame_zeroKey :
    parseFrame (fun _ => 0) (encodeFrame (ascii "hi") ++ [0x81]) =
      .ok (some ⟨ascii "hi", 4, 0x1⟩) := by
  have hread := (parseFrame_encodeFrame_iff (fun _ => 0) (ascii "hi") [0x81] (by decide)).mpr
    fun _ _ => rfl
  exact hread

theorem parseFrame_encodeFrame_garbled :
    ¬∀ (uninit : MaskingKey) (message tail : Bytes), message.length < 2 ^ 63 →
      parseFrame uninit (encodeFrame message ++ tail) =
        .ok (some ⟨message, (encodeFrame message).length, 0x1⟩) := by
  intro h
  exact absurd (h (fun _ => 1) (ascii "hi") [] (by decide)) (by decide)

end Server

end MyTestserver
