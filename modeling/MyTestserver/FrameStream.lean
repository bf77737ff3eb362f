import MyTestserver.ChatServer
import MyTestserver.ClientFrame
import MyTestserver.Library.Stream

namespace MyTestserver

open WebSocketHandler

namespace WebSocketHandler

variable {data more : Bytes} {uninit : MaskingKey}

section Append

-- Bytes that arrive later are not read by what could be read without them.

theorem byteAt_append {i : ℕ} {byte : UInt8} (h : byteAt data i = .ok byte) :
    byteAt (data ++ more) i = .ok byte := by
  unfold byteAt at h ⊢
  cases hget : data[i]? with
  | none => simp [hget] at h
  | some b =>
      obtain ⟨hi, _⟩ := List.getElem?_eq_some_iff.mp hget
      rw [List.getElem?_append_left hi, hget]
      simpa [hget] using h

theorem readNumber_append {pos width acc n : ℕ} (h : readNumber data pos width acc = .ok n) :
    readNumber (data ++ more) pos width acc = .ok n := by
  induction width generalizing pos acc with
  | zero => exact h
  | succ width ih =>
      obtain ⟨byte, hbyte, hrest⟩ := bind_eq_ok_iff.mp h
      exact bind_eq_ok_iff.mpr ⟨byte, byteAt_append hbyte, ih hrest⟩

theorem unmask_append {key : MaskingKey} {pos i count : ℕ} {message : Bytes}
    (h : unmask data key pos i count = .ok message) :
    unmask (data ++ more) key pos i count = .ok message := by
  induction count generalizing i message with
  | zero => exact h
  | succ count ih =>
      obtain ⟨byte, hbyte, hrest⟩ := bind_eq_ok_iff.mp h
      obtain ⟨rest, hrest, hmessage⟩ := bind_eq_ok_iff.mp hrest
      exact bind_eq_ok_iff.mpr ⟨byte, byteAt_append hbyte,
        bind_eq_ok_iff.mpr ⟨rest, ih hrest, hmessage⟩⟩

theorem payloadLength_append {secondByte : UInt8} {len pos : ℕ}
    (h : payloadLength data secondByte = .ok (some (len, pos))) :
    payloadLength (data ++ more) secondByte = .ok (some (len, pos)) := by
  have hnumber : ∀ {width : ℕ}, (do return some (← readNumber data 2 width 0, 2 + width)) =
      Except.ok (some (len, pos)) →
      (do return some (← readNumber (data ++ more) 2 width 0, 2 + width)) =
        Except.ok (some (len, pos)) := by
    intro width hread
    obtain ⟨n, hn, hpair⟩ := bind_eq_ok_iff.mp hread
    exact bind_eq_ok_iff.mpr ⟨n, readNumber_append hn, hpair⟩
  unfold payloadLength at h ⊢
  generalize (secondByte &&& 0x7F).toNat = field at h ⊢
  by_cases h126 : field = 126
  · subst h126
    by_cases hlen : data.length < 2 + 2
    · simp [hlen, pure, Except.pure] at h
    simp only [if_true, hlen, if_false, List.length_append,
      show ¬data.length + more.length < 2 + 2 by omega] at h ⊢
    exact hnumber h
  by_cases h127 : field = 127
  · subst h127
    by_cases hlen : data.length < 2 + 8
    · simp [hlen, pure, Except.pure] at h
    simp only [h126, if_true, hlen, if_false, List.length_append,
      show ¬data.length + more.length < 2 + 8 by omega] at h ⊢
    exact hnumber h
  · simpa only [h126, h127, if_false] using h

theorem payloadLength_pos {secondByte : UInt8} {len pos : ℕ}
    (h : payloadLength data secondByte = .ok (some (len, pos))) : 2 ≤ pos ∧ pos ≤ 10 := by
  unfold payloadLength at h
  generalize (secondByte &&& 0x7F).toNat = field at h
  by_cases h126 : field = 126
  · by_cases hlen : data.length < 2 + 2
    · simp [h126, hlen, pure, Except.pure] at h
    simp only [h126, if_true, hlen, if_false] at h
    obtain ⟨n, -, hpair⟩ := bind_eq_ok_iff.mp h
    cases hpair
    omega
  by_cases h127 : field = 127
  · by_cases hlen : data.length < 2 + 8
    · simp [h127, hlen, pure, Except.pure] at h
    simp only [h127, if_true, hlen, if_false] at h
    obtain ⟨n, -, hpair⟩ := bind_eq_ok_iff.mp h
    cases hpair
    omega
  · simp only [h126, h127, if_false] at h
    cases h
    omega

theorem readMaskingKey_append {masked : Bool} {pos pos' : ℕ} {key : MaskingKey}
    (h : readMaskingKey uninit data masked pos = .ok (some (key, pos'))) :
    readMaskingKey uninit (data ++ more) masked pos = .ok (some (key, pos')) := by
  cases masked with
  | false => exact h
  | true =>
      by_cases hlen : data.length < pos + 4
      · simp [readMaskingKey, hlen, pure, Except.pure] at h
      simp only [readMaskingKey, if_true, hlen, if_false, List.length_append,
        show ¬data.length + more.length < pos + 4 by omega] at h ⊢
      obtain ⟨key0, h0, h⟩ := bind_eq_ok_iff.mp h
      obtain ⟨key1, h1, h⟩ := bind_eq_ok_iff.mp h
      obtain ⟨key2, h2, h⟩ := bind_eq_ok_iff.mp h
      obtain ⟨key3, h3, h⟩ := bind_eq_ok_iff.mp h
      refine bind_eq_ok_iff.mpr ⟨key0, byteAt_append h0, ?_⟩
      refine bind_eq_ok_iff.mpr ⟨key1, byteAt_append h1, ?_⟩
      refine bind_eq_ok_iff.mpr ⟨key2, byteAt_append h2, ?_⟩
      exact bind_eq_ok_iff.mpr ⟨key3, byteAt_append h3, h⟩

theorem readMaskingKey_pos {masked : Bool} {pos pos' : ℕ} {key : MaskingKey}
    (h : readMaskingKey uninit data masked pos = .ok (some (key, pos'))) :
    pos ≤ pos' ∧ pos' ≤ pos + 4 := by
  cases masked with
  | false =>
      cases h
      omega
  | true =>
      by_cases hlen : data.length < pos + 4
      · simp [readMaskingKey, hlen, pure, Except.pure] at h
      simp only [readMaskingKey, if_true, hlen, if_false] at h
      obtain ⟨key0, -, h⟩ := bind_eq_ok_iff.mp h
      obtain ⟨key1, -, h⟩ := bind_eq_ok_iff.mp h
      obtain ⟨key2, -, h⟩ := bind_eq_ok_iff.mp h
      obtain ⟨key3, -, h⟩ := bind_eq_ok_iff.mp h
      cases h
      omega

-- What parseFrame has read and checked when it reports a frame.
theorem parseFrame_some_iff {frame : Frame} :
    parseFrame uninit data = .ok (some frame) ↔
      ∃ firstByte secondByte len pos key pos',
        byteAt data 0 = .ok firstByte ∧ byteAt data 1 = .ok secondByte ∧
        payloadLength data secondByte = .ok (some (len, pos)) ∧
        readMaskingKey uninit data (secondByte &&& 0x80 != 0) pos = .ok (some (key, pos')) ∧
        (pos' + len) % 2 ^ 64 ≤ data.length ∧ len ≤ maxSize ∧
        unmask data key pos' 0 len = .ok frame.outMessage ∧
        (firstByte &&& 0x80 != 0) = true ∧
        (firstByte &&& 0x0F = 0x1 ∨ firstByte &&& 0x0F = 0x8) ∧
        frame.frameLen = (pos' + len) % 2 ^ 64 ∧ frame.opcode = firstByte &&& 0x0F := by
  unfold parseFrame
  constructor
  · intro h
    by_cases hlen : data.length < 2
    · simp [hlen, pure, Except.pure] at h
    simp only [hlen, if_false] at h
    obtain ⟨firstByte, hfirst, h⟩ := bind_eq_ok_iff.mp h
    by_cases hop : (firstByte &&& 0x0F != 0x1 && firstByte &&& 0x0F != 0x8) = true
    · simp [hop, pure, Except.pure] at h
    simp only [hop] at h
    obtain ⟨secondByte, hsecond, h⟩ := bind_eq_ok_iff.mp h
    obtain ⟨_ | ⟨len, pos⟩, hpayload, h⟩ := bind_eq_ok_iff.mp h
    · cases h
    obtain ⟨_ | ⟨key, pos'⟩, hkey, h⟩ := bind_eq_ok_iff.mp h
    · cases h
    dsimp only at h
    by_cases hbytes : data.length < (pos' + len) % 2 ^ 64
    · simp only [hbytes, if_true] at h
      cases h
    by_cases hmax : maxSize < len
    · simp only [hbytes, hmax, if_false, if_true] at h
      obtain ⟨_, hthrow, -⟩ := bind_eq_ok_iff.mp h
      cases hthrow
    simp only [hbytes, hmax, if_false] at h
    obtain ⟨message, hmessage, h⟩ := bind_eq_ok_iff.mp h
    by_cases hfin : (firstByte &&& 0x80 != 0) = true
    · simp only [hfin, if_true] at h
      cases h
      refine ⟨firstByte, secondByte, len, pos, key, pos', hfirst, hsecond, hpayload, hkey,
        by omega, by omega, hmessage, hfin, ?_, rfl, rfl⟩
      simpa [or_iff_not_imp_left] using hop
    · simp [hfin, pure, Except.pure] at h
  · rintro ⟨firstByte, secondByte, len, pos, key, pos', hfirst, hsecond, hpayload, hkey, hbytes,
      hmax, hmessage, hfin, hop, hframeLen, hopcode⟩
    obtain ⟨outMessage, frameLen, opcode⟩ := frame
    obtain rfl : frameLen = _ := hframeLen
    obtain rfl : opcode = _ := hopcode
    have hlen := readMaskingKey_pos hkey
    have hpos := payloadLength_pos hpayload
    have hlen : ¬data.length < 2 := by
      unfold byteAt at hsecond
      intro hlt
      rw [List.getElem?_eq_none (by omega)] at hsecond
      cases hsecond
    have hop' : (firstByte &&& 0x0F != 0x1 && firstByte &&& 0x0F != 0x8) = false := by
      rcases hop with hop | hop <;> rw [hop] <;> rfl
    simp only [hlen, if_false, hfirst, hsecond, hpayload, hkey, hop', bind, Except.bind,
      Nat.not_lt.mpr hbytes, Nat.not_lt.mpr hmax, hmessage, hfin, if_true, Bool.false_eq_true]
    rfl

-- A frame that is there is not read differently when more bytes follow it.
theorem parseFrame_append {frame : Frame} (h : parseFrame uninit data = .ok (some frame)) :
    parseFrame uninit (data ++ more) = .ok (some frame) := by
  obtain ⟨firstByte, secondByte, len, pos, key, pos', hfirst, hsecond, hpayload, hkey, hbytes, hmax,
    hmessage, hrest⟩ := parseFrame_some_iff.mp h
  refine parseFrame_some_iff.mpr ⟨firstByte, secondByte, len, pos, key, pos', byteAt_append hfirst,
    byteAt_append hsecond, payloadLength_append hpayload, readMaskingKey_append hkey, ?_, hmax,
    unmask_append hmessage, hrest⟩
  rw [List.length_append]
  omega

theorem parseFrame_frameLen {frame : Frame} (h : parseFrame uninit data = .ok (some frame)) :
    2 ≤ frame.frameLen ∧ frame.frameLen ≤ data.length := by
  obtain ⟨firstByte, secondByte, len, pos, key, pos', -, -, hpayload, hkey, hbytes, hmax, -, -, -,
    hframeLen, -⟩ := parseFrame_some_iff.mp h
  have hpos := payloadLength_pos hpayload
  have hpos' := readMaskingKey_pos hkey
  unfold maxSize at hmax
  rw [Nat.mod_eq_of_lt (by omega)] at hframeLen hbytes
  omega

theorem parseFrame_opcode {frame : Frame} (h : parseFrame uninit data = .ok (some frame)) :
    frame.opcode = 0x1 ∨ frame.opcode = 0x8 := by
  obtain ⟨firstByte, -, -, -, -, -, -, -, -, -, -, -, -, -, hop, -, hopcode⟩ :=
    parseFrame_some_iff.mp h
  rw [hopcode]
  exact hop

end Append

section Decoder

open MyTestserver.Stream

-- parseFrame, as the loop of onMessage uses it: a decoder of text payloads that stops at
-- a close frame.
def frontFrame (uninit : MaskingKey) (data : Bytes) : Front Bytes :=
  match parseFrame uninit data with
  | .ok (some frame) => if frame.opcode = 0x8 then .stop else .item frame.outMessage frame.frameLen
  | _ => .wait

theorem frontFrame_item_iff {message : Bytes} {len : ℕ} :
    frontFrame uninit data = .item message len ↔
      parseFrame uninit data = .ok (some ⟨message, len, 0x1⟩) := by
  unfold frontFrame
  split
  · rename_i frame hparse
    have hop := parseFrame_opcode hparse
    obtain ⟨outMessage, frameLen, opcode⟩ := frame
    dsimp only at hop ⊢
    rcases hop with rfl | rfl <;> simp [hparse]
  · rename_i hparse
    exact iff_of_false (by simp) fun h => hparse _ h

theorem frontFrame_stop_iff :
    frontFrame uninit data = .stop ↔
      ∃ frame, parseFrame uninit data = .ok (some frame) ∧ frame.opcode = 0x8 := by
  unfold frontFrame
  split
  · rename_i frame hparse
    by_cases hop : frame.opcode = 0x8 <;> simp [hparse, hop]
  · rename_i hparse
    exact iff_of_false (by simp) fun ⟨_, h, _⟩ => hparse _ h

theorem stable_frontFrame (uninit : MaskingKey) : Stable (frontFrame uninit) where
  nil := rfl
  pos h := by
    have hlen := parseFrame_frameLen (frontFrame_item_iff.mp h)
    dsimp only at hlen
    omega
  le h := (parseFrame_frameLen (frontFrame_item_iff.mp h)).2
  item_append ys h := frontFrame_item_iff.mpr (parseFrame_append (frontFrame_item_iff.mp h))
  stop_append ys h := by
    obtain ⟨frame, hparse, hop⟩ := frontFrame_stop_iff.mp h
    exact frontFrame_stop_iff.mpr ⟨frame, parseFrame_append hparse, hop⟩

end Decoder

end WebSocketHandler

section Wellformed

open MyTestserver.Stream

-- A frame of which the last bytes are missing, all of them perhaps.
def Partial (data : Bytes) : Prop :=
  ∃ (f : ClientFrame) (missing : Bytes), data ++ missing = f.encode ∧ missing ≠ []

-- What has come from a client at some moment: whole frames and a part of the next.
inductive Wellformed : Bytes → Prop
  | part {data : Bytes} : Partial data → Wellformed data
  | frame {data : Bytes} (f : ClientFrame) : Wellformed data → Wellformed (f.encode ++ data)

variable {data more rest : Bytes} {messages : List Bytes} {uninit : MaskingKey}

theorem partial_nil (f : ClientFrame) : Partial [] :=
  ⟨f, f.encode, rfl, by simp [ClientFrame.encode]⟩

-- A stream can be cut anywhere.
theorem Wellformed.of_append (h : Wellformed (data ++ more)) : Wellformed data := by
  generalize hall : data ++ more = all at h
  induction h generalizing data with
  | part hpart =>
      obtain ⟨f, missing, hencode, hmissing⟩ := hpart
      refine .part ⟨f, more ++ missing, ?_, by simp [hmissing]⟩
      rw [← hencode, ← hall, List.append_assoc]
  | frame f _ ih =>
      rcases List.append_eq_append_iff.mp hall with ⟨missing, hencode, -⟩ | ⟨later, hdata, hlater⟩
      · by_cases hmissing : missing = []
        · rw [hmissing, List.append_nil] at hencode
          rw [← hencode, ← List.append_nil f.encode]
          exact .frame f (.part (partial_nil f))
        · exact .part ⟨f, missing, hencode.symm, hmissing⟩
      · rw [hdata]
        exact .frame f (ih hlater.symm)

theorem wellformed_encode {part : Bytes} (hpart : Partial part) (fs : List ClientFrame) :
    Wellformed (fs.flatMap ClientFrame.encode ++ part) := by
  induction fs with
  | nil => exact .part hpart
  | cons f fs ih =>
      rw [List.flatMap_cons, List.append_assoc]
      exact .frame f ih

-- All frames of a client are masked, so the local array of parseFrame is never read.
theorem Wellformed.parseFrame_eq (h : Wellformed data) (uninit uninit' : MaskingKey) :
    parseFrame uninit data = parseFrame uninit' data := by
  cases h with
  | part hpart =>
      obtain ⟨f, missing, hencode, hmissing⟩ := hpart
      rw [f.parseFrame_short hencode hmissing, f.parseFrame_short hencode hmissing]
  | frame f _ => rw [f.parseFrame_complete, f.parseFrame_complete]

theorem Wellformed.wait (h : Wellformed data) (hwait : frontFrame uninit data = .wait)
    (uninit' : MaskingKey) : parseFrame uninit' data = .ok none := by
  cases h with
  | part hpart =>
      obtain ⟨f, missing, hencode, hmissing⟩ := hpart
      exact f.parseFrame_short hencode hmissing
  | frame f _ =>
      rw [f.parseFrame_complete]
      by_cases hsupported : f.Supported
      · simp only [frontFrame, f.parseFrame_complete, if_pos hsupported] at hwait
        split at hwait <;> cases hwait
      · rw [if_neg hsupported]

theorem Wellformed.drop {message : Bytes} {len : ℕ} (h : Wellformed data)
    (hitem : frontFrame uninit data = .item message len) : Wellformed (data.drop len) := by
  rw [frontFrame_item_iff] at hitem
  cases h with
  | part hpart =>
      obtain ⟨f, missing, hencode, hmissing⟩ := hpart
      rw [f.parseFrame_short hencode hmissing] at hitem
      cases hitem
  | frame f hrest =>
      rw [f.parseFrame_complete] at hitem
      split at hitem
      · obtain rfl : f.encode.length = len :=
          congrArg Frame.frameLen (Option.some.inj (Except.ok.inj hitem))
        rwa [List.drop_left]
      · cases hitem

theorem Wellformed.decodes (h : Wellformed (data ++ more))
    (hdec : Decodes (frontFrame uninit) data messages rest) : Wellformed (rest ++ more) := by
  induction hdec with
  | rest => exact h
  | item hitem _ ih =>
      have hstable := stable_frontFrame uninit
      apply ih
      rw [← List.drop_append_of_le_length (hstable.le hitem)]
      exact h.drop (hstable.item_append more hitem)

theorem parseFrame_text (uninit : MaskingKey) {f : ClientFrame} (h : f.IsText) (tail : Bytes) :
    parseFrame uninit (f.encode ++ tail) = .ok (some ⟨f.payload, f.encode.length, 0x1⟩) := by
  rw [f.parseFrame_complete, if_pos ⟨h.1, .inl h.2⟩, ClientFrame.frame, h.2]
  rfl

theorem frontFrame_stop_encode_iff (uninit : MaskingKey) (f : ClientFrame) (tail : Bytes) :
    frontFrame uninit (f.encode ++ tail) = .stop ↔ f.fin = true ∧ f.opcode = .close := by
  rw [frontFrame_stop_iff, f.parseFrame_complete]
  constructor
  · rintro ⟨frame, hframe, hop⟩
    split at hframe
    · rename_i hsupported
      obtain rfl : f.frame = frame := Option.some.inj (Except.ok.inj hframe)
      refine ⟨hsupported.1, hsupported.2.resolve_left fun htext => ?_⟩
      rw [ClientFrame.frame, htext] at hop
      exact absurd hop (show (0x1 : UInt8) ≠ 0x8 by decide)
    · cases hframe
  · rintro ⟨hfin, hclose⟩
    refine ⟨f.frame, by rw [if_pos ⟨hfin, .inr hclose⟩], ?_⟩
    rw [ClientFrame.frame, hclose]
    rfl

theorem frontFrame_short (uninit : MaskingKey) {part : Bytes} (hpart : Partial part) :
    frontFrame uninit part = .wait := by
  obtain ⟨f, missing, hencode, hmissing⟩ := hpart
  simp [frontFrame, f.parseFrame_short hencode hmissing]

-- What the decoder makes of the frames of a client: it takes text frames off the front
-- until there is a frame of another kind, or none that is complete.
theorem decodes_encode (uninit : MaskingKey) {part : Bytes} (hpart : Partial part)
    (fs : List ClientFrame) :
    Decodes (frontFrame uninit) (fs.flatMap ClientFrame.encode ++ part)
      ((fs.takeWhile (·.IsText)).map ClientFrame.payload)
      ((fs.dropWhile (·.IsText)).flatMap ClientFrame.encode ++ part) := by
  induction fs with
  | nil => exact .rest (blocked_of_wait (frontFrame_short uninit hpart))
  | cons f fs ih =>
      by_cases htext : f.IsText
      · simp only [htext, List.takeWhile_cons, List.dropWhile_cons, List.flatMap_cons,
          List.append_assoc, decide_true, if_true, List.map_cons]
        refine .item (frontFrame_item_iff.mpr (parseFrame_text uninit htext _)) ?_
        rw [List.drop_left]
        exact ih
      · simp only [htext, List.takeWhile_cons, List.dropWhile_cons, decide_false,
          Bool.false_eq_true, if_false, List.map_nil]
        refine .rest fun message len hitem => ?_
        rw [List.flatMap_cons, List.append_assoc, frontFrame_item_iff,
          f.parseFrame_complete] at hitem
        split at hitem
        · rename_i hsupported
          have hclose := hsupported.2.resolve_left fun h => htext ⟨hsupported.1, h⟩
          have hop := congrArg Frame.opcode (Option.some.inj (Except.ok.inj hitem))
          rw [ClientFrame.frame, hclose] at hop
          exact absurd hop (show (0x8 : UInt8) ≠ 0x1 by decide)
        · cases hitem

theorem frontFrame_encode_stop_iff (uninit : MaskingKey) {part : Bytes} (hpart : Partial part)
    (fs : List ClientFrame) :
    frontFrame uninit (fs.flatMap ClientFrame.encode ++ part) = .stop ↔
      ∃ f, fs.head? = some f ∧ f.fin = true ∧ f.opcode = .close := by
  cases fs with
  | nil => simp [frontFrame_short uninit hpart]
  | cons f fs =>
      rw [List.flatMap_cons, List.append_assoc, frontFrame_stop_encode_iff]
      simp

end Wellformed

section Loop

open MyTestserver.Stream

variable {σ : Type} (handle : Bytes → σ → Outcome σ) (shutdown : σ → σ)
  {uninit : ℕ → MaskingKey} {rounds : ℕ} {b : Buffer} (s : σ)

-- One round of the loop, by what is at the front of the buffer.

theorem frameLoop_wait (h : parseFrame (uninit rounds) b.readable = .ok none) :
    frameLoop handle shutdown uninit (rounds + 1) (b, s) = (.ok (), b, s) := by
  simp only [frameLoop, h, ite_self]

theorem readableBytes_ne_zero {frame : Frame}
    (h : parseFrame (uninit rounds) b.readable = .ok (some frame)) : b.readableBytes ≠ 0 := by
  have hlen := parseFrame_frameLen h
  rw [Buffer.readable_length] at hlen
  omega

theorem frameLoop_close {frame : Frame}
    (h : parseFrame (uninit rounds) b.readable = .ok (some frame)) (hop : frame.opcode = 0x8) :
    frameLoop handle shutdown uninit (rounds + 1) (b, s) = (.ok (), b, shutdown s) := by
  simp only [frameLoop, readableBytes_ne_zero h, h, hop, if_false]
  rfl

theorem frameLoop_empty {frame : Frame}
    (h : parseFrame (uninit rounds) b.readable = .ok (some frame)) (hop : frame.opcode = 0x1)
    (hmessage : frame.outMessage = []) :
    frameLoop handle shutdown uninit (rounds + 1) (b, s) =
      frameLoop handle shutdown uninit rounds (b.retrieve frame.frameLen, s) := by
  simp only [frameLoop, readableBytes_ne_zero h, h, hop, hmessage, if_false]
  rfl

theorem frameLoop_text {frame : Frame}
    (h : parseFrame (uninit rounds) b.readable = .ok (some frame)) (hop : frame.opcode = 0x1)
    (hmessage : frame.outMessage ≠ []) :
    frameLoop handle shutdown uninit (rounds + 1) (b, s) =
      match handle frame.outMessage s with
      | (.error e, t) => (.error e, b, t)
      | (.ok (), t) => frameLoop handle shutdown uninit rounds (b.retrieve frame.frameLen, t) := by
  simp only [frameLoop, readableBytes_ne_zero h, h, hop, if_false]
  exact if_pos ⟨trivial, hmessage⟩

-- The handler called on one payload after the other.
def handleAll : List Bytes → σ → Outcome σ
  | [], s => (.ok (), s)
  | payload :: payloads, s => (handle payload s).andThen (handleAll payloads)

-- Serving a buffer ends as what is done for it does, in the same state and with the same
-- exception if there is one; where nothing is thrown, the buffer is `last` then.
structure Serves (outcome : Outcome (Buffer × σ)) (served : Outcome σ) (last : Buffer) : Prop where
  result : outcome.1 = served.1
  state : outcome.2.2 = served.2
  buffer : served.1 = .ok () → outcome.2.1 = last

theorem Serves.of_ok {outcome : Outcome (Buffer × σ)} {last : Buffer} {t : σ}
    (h : outcome = (.ok (), last, t)) : Serves outcome (.ok (), t) last := by
  subst h
  exact ⟨rfl, rfl, fun _ => rfl⟩

theorem Serves.of_error {outcome : Outcome (Buffer × σ)} {e : Exception} {b' last : Buffer} {t : σ}
    (h : outcome = (.error e, b', t)) : Serves outcome (.error e, t) last := by
  subst h
  exact ⟨rfl, rfl, fun hok => by cases hok⟩

theorem Serves.eq_ok {outcome : Outcome (Buffer × σ)} {served : Outcome σ} {last : Buffer} {t : σ}
    (h : Serves outcome served last) (hserved : served = (.ok (), t)) :
    outcome = (.ok (), last, t) := by
  subst hserved
  exact Prod.ext h.result (Prod.ext (h.buffer rfl) h.state)

theorem Serves.andThen {outcome : Outcome (Buffer × σ)} {served : Outcome σ} {b' last : Buffer}
    {next : Buffer × σ → Outcome (Buffer × σ)} {servedNext : σ → Outcome σ}
    (h : Serves outcome served b')
    (hnext : ∀ t, served = (.ok (), t) → Serves (next (b', t)) (servedNext t) last) :
    Serves (outcome.andThen next) (served.andThen servedNext) last := by
  obtain ⟨result, t⟩ := served
  cases result with
  | ok =>
      rw [h.eq_ok rfl]
      exact hnext t rfl
  | error e =>
      obtain ⟨result, b'', u⟩ := outcome
      obtain ⟨rfl, rfl⟩ : result = .error e ∧ u = t := ⟨h.result, h.state⟩
      exact .of_error rfl

-- The loop follows the decoder, whatever handler and shutdown it works with. Empty
-- messages are taken out of the buffer and not handed over.
theorem frameLoop_decodes {key : MaskingKey} {data rest : Bytes} {messages : List Bytes}
    (h : Decodes (frontFrame key) data messages rest) (b : Buffer) (hb : b.readable = data)
    (hdata : Wellformed data) :
    ∃ b' : Buffer, b'.readable = rest ∧
      ∀ {σ : Type} (handle : Bytes → σ → Outcome σ) (shutdown : σ → σ) (uninit : ℕ → MaskingKey)
        (rounds : ℕ) (s : σ), data.length ≤ rounds →
        Serves (frameLoop handle shutdown uninit rounds (b, s))
          ((handleAll handle (messages.filter (· ≠ [])) s).andThen fun t =>
            (.ok (), if frontFrame key rest = .stop then shutdown t else t)) b' := by
  induction h generalizing b with
  | @rest data hblocked =>
      refine ⟨b, hb, fun handle shutdown uninit rounds s hrounds => .of_ok ?_⟩
      cases rounds with
      | zero =>
          obtain rfl := List.length_eq_zero_iff.mp (Nat.le_zero.mp hrounds)
          rfl
      | succ rounds =>
          cases hfront : frontFrame key data with
          | item message len => exact absurd hfront (hblocked message len)
          | stop =>
              obtain ⟨frame, hparse, hop⟩ := frontFrame_stop_iff.mp hfront
              rw [hdata.parseFrame_eq key (uninit rounds), ← hb] at hparse
              rw [if_pos rfl, frameLoop_close handle shutdown s hparse hop]
          | wait =>
              have hparse := hdata.wait hfront (uninit rounds)
              rw [← hb] at hparse
              rw [if_neg (by simp), frameLoop_wait handle shutdown s hparse]
  | @item data rest message len messages hitem hrest ih =>
      obtain ⟨b', hb', hloop⟩ := ih (b.retrieve len) (by rw [Buffer.readable_retrieve, hb])
        (hdata.drop hitem)
      refine ⟨b', hb', fun handle shutdown uninit rounds s hrounds => ?_⟩
      have hlen := parseFrame_frameLen (frontFrame_item_iff.mp hitem)
      dsimp only at hlen
      obtain ⟨rounds, rfl⟩ : ∃ n, rounds = n + 1 := ⟨rounds - 1, by omega⟩
      have hparse := frontFrame_item_iff.mp hitem
      rw [hdata.parseFrame_eq key (uninit rounds), ← hb] at hparse
      have hrounds' : (data.drop len).length ≤ rounds := by
        rw [List.length_drop]
        omega
      by_cases hmessage : message = []
      · rw [frameLoop_empty handle shutdown s hparse rfl hmessage]
        simp only [hmessage, ne_eq, not_true, decide_false, Bool.false_eq_true, not_false_iff,
          List.filter_cons_of_neg]
        exact hloop handle shutdown uninit rounds s hrounds'
      · rw [List.filter_cons_of_pos (by simpa using hmessage), handleAll,
          frameLoop_text handle shutdown s hparse rfl hmessage]
        -- An exception leaves the rest of the messages, and the frame of this one, alone.
        cases handle message s with
        | mk result u =>
            cases result with
            | ok => exact hloop handle shutdown uninit rounds u hrounds'
            | error e => exact .of_error rfl

end Loop

end MyTestserver
