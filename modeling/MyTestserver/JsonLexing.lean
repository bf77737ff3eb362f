import Mathlib.Algebra.Ring.Nat
import MyTestserver.JsonParser

namespace MyTestserver.Json.Lexer

section Characters

variable {current : UInt8} {added rest text : Bytes} {ranges : List (UInt8 × UInt8)}

theorem nextByteInRange_spec (h : nextByteInRange ranges text = some (added, rest)) :
    text = added ++ rest ∧ List.Forall₂ Utf8.InRange ranges added := by
  induction ranges generalizing text added with
  | nil =>
      obtain ⟨rfl, rfl⟩ := Prod.mk.inj (Option.some.inj h)
      exact ⟨rfl, .nil⟩
  | cons range ranges ih =>
      cases text with
      | nil => cases h
      | cons byte text =>
          simp only [nextByteInRange] at h
          split at h
          · rename_i hrange
            split at h
            · rename_i more last hmore
              obtain ⟨rfl, rfl⟩ := Prod.mk.inj (Option.some.inj h)
              obtain ⟨rfl, hranges⟩ := ih hmore
              exact ⟨rfl, .cons hrange hranges⟩
            · cases h
          · cases h

theorem nextByteInRange_append (h : List.Forall₂ Utf8.InRange ranges added) (rest : Bytes) :
    nextByteInRange ranges (added ++ rest) = some (added, rest) := by
  induction h with
  | nil => rfl
  | cons hrange _ ih => simp only [List.cons_append, nextByteInRange, if_pos hrange, ih]

theorem or_eq_add {x : ℕ} (i a : ℕ) (h : x < 2 ^ i) : 2 ^ i * a ||| x = 2 ^ i * a + x :=
  (Nat.two_pow_add_eq_or_of_lt h a).symm

theorem or_tail (n : ℕ) : 0x80 ||| n &&& 0x3F = n % 64 + 0x80 := by
  have hmod : n &&& 0x3F = n % 64 := Nat.and_two_pow_sub_one_eq_mod n 6
  have hor : 0x80 ||| n % 64 = 0x80 + n % 64 := or_eq_add 6 2 (Nat.mod_lt n (by decide))
  rw [hmod, hor, Nat.add_comm]

theorem codepointBytes_eq (c : Char) : codepointBytes c.val.toNat = String.utf8EncodeChar c := by
  have hvalid : c.val.toNat < 0xD800 ∨ 0xDFFF < c.val.toNat ∧ c.val.toNat < 0x110000 := c.valid
  unfold codepointBytes String.utf8EncodeChar
  generalize c.val.toNat = v at hvalid
  dsimp only
  by_cases hone : v ≤ 0x7F
  · have hlt : v < 0x80 := by omega
    rw [if_pos hlt, if_pos hone]
  have hlt : ¬v < 0x80 := by omega
  rw [if_neg hlt, if_neg hone]
  simp only [or_tail, Nat.shiftRight_eq_div_pow]
  by_cases htwo : v ≤ 0x7FF
  · have hor : 0xC0 ||| v / 2 ^ 6 = 0xC0 + v / 2 ^ 6 := or_eq_add 6 3 (by omega)
    have hlead : 0xC0 ||| v / 2 ^ 6 = v / 64 % 0x20 + 0xC0 := by omega
    rw [if_pos htwo, if_pos htwo, hlead]
  rw [if_neg htwo, if_neg htwo]
  by_cases hthree : v ≤ 0xFFFF
  · have hor : 0xE0 ||| v / 2 ^ 12 = 0xE0 + v / 2 ^ 12 := or_eq_add 5 7 (by omega)
    have hlead : 0xE0 ||| v / 2 ^ 12 = v / 4096 % 0x10 + 0xE0 := by omega
    rw [if_pos hthree, if_pos hthree, hlead]
  · have hor : 0xF0 ||| v / 2 ^ 18 = 0xF0 + v / 2 ^ 18 := or_eq_add 4 15 (by omega)
    have hlead : 0xF0 ||| v / 2 ^ 18 = v / 262144 % 0x08 + 0xF0 := by omega
    rw [if_neg hthree, if_neg hthree, hlead]

theorem validUtf8_codepointBytes {codepoint : ℕ}
    (h : codepoint < 0xD800 ∨ 0xDFFF < codepoint ∧ codepoint < 0x110000) :
    ValidUtf8 (codepointBytes codepoint) := by
  obtain ⟨c, rfl⟩ := Utf8.exists_char codepoint h
  rw [codepointBytes_eq]
  exact Utf8.isValidUTF8_utf8EncodeChar c

theorem hexValue_lt {digit : ℕ} (h : hexValue current = some digit) : digit < 16 := by
  simp only [hexValue, UInt8.le_iff_toNat_le] at h
  split at h
  · obtain rfl := Option.some.inj h
    have hle : current.toNat ≤ 57 := And.right ‹_›
    omega
  split at h
  · obtain rfl := Option.some.inj h
    have hle : current.toNat ≤ 70 := And.right ‹_›
    omega
  split at h
  · obtain rfl := Option.some.inj h
    have hle : current.toNat ≤ 102 := And.right ‹_›
    omega
  · cases h

-- Each digit takes a byte and adds at most 15 times its factor.
theorem getCodepoint_spec {factors : List ℕ} {codepoint codepoint' : ℕ}
    (h : getCodepoint factors codepoint text = some (codepoint', rest)) :
    text.length = factors.length + rest.length ∧
      codepoint' ≤ codepoint + (factors.map fun factor => 15 <<< factor).sum := by
  induction factors generalizing codepoint text with
  | nil =>
      obtain ⟨rfl, rfl⟩ := Prod.mk.inj (Option.some.inj h)
      exact ⟨(Nat.zero_add _).symm, le_rfl⟩
  | cons factor factors ih =>
      cases text with
      | nil => cases h
      | cons byte text =>
          simp only [getCodepoint] at h
          split at h
          · rename_i digit hdigit
            obtain ⟨hlength, hle⟩ := ih h
            have hshift : digit <<< factor ≤ 15 <<< factor := by
              rw [Nat.shiftLeft_eq, Nat.shiftLeft_eq]
              exact Nat.mul_le_mul_right _ (Nat.le_of_lt_succ (hexValue_lt hdigit))
            rw [List.length_cons, List.length_cons, List.map_cons, List.sum_cons]
            omega
          · cases h

theorem getCodepoint_lt {codepoint : ℕ}
    (h : getCodepoint [12, 8, 4, 0] 0 text = some (codepoint, rest)) :
    text.length = 4 + rest.length ∧ codepoint < 0x10000 := by
  obtain ⟨hlength, hle⟩ := getCodepoint_spec h
  exact ⟨hlength, Nat.lt_succ_of_le hle⟩

theorem scanCodepoint_spec (h : scanCodepoint text = some (added, rest)) :
    rest.length < text.length ∧ ValidUtf8 added := by
  unfold scanCodepoint at h
  split at h
  · cases h
  rename_i codepoint1 behind hfirst
  have hfirst := getCodepoint_lt hfirst
  split at h
  · rename_i hhigh
    split at h
    · rename_i low
      split at h
      · cases h
      rename_i codepoint2 last hsecond
      have hsecond := getCodepoint_lt hsecond
      split at h
      · rename_i hlow
        obtain ⟨rfl, rfl⟩ := Prod.mk.inj (Option.some.inj h)
        refine ⟨?_, validUtf8_codepointBytes ?_⟩
        · simp only [List.length_cons] at hfirst
          omega
        · rw [Nat.shiftLeft_eq]
          omega
      · cases h
    · cases h
  · rename_i hhigh
    split at h
    · cases h
    · rename_i hlow
      obtain ⟨rfl, rfl⟩ := Prod.mk.inj (Option.some.inj h)
      exact ⟨by omega, validUtf8_codepointBytes (by omega)⟩

theorem validUtf8_byte {byte : UInt8} (h : byte ≤ 0x7F) : ValidUtf8 [byte] := by
  have hle : byte.toNat ≤ 0x7F := UInt8.le_iff_toNat_le.mp h
  obtain ⟨c, hc⟩ := Utf8.exists_char byte.toNat (by omega)
  have hchar : String.utf8EncodeChar c = [byte] := by
    unfold String.utf8EncodeChar
    rw [hc]
    dsimp only
    rw [if_pos hle, UInt8.ofNat_toNat]
  exact hchar ▸ Utf8.isValidUTF8_utf8EncodeChar c

theorem escaped_le {byte : UInt8} (h : escaped current = some byte) : byte ≤ 0x7F := by
  unfold escaped at h
  repeat' split at h
  all_goals cases h
  all_goals decide

-- A character is read whole.
theorem scanChar_spec (h : scanChar current text = some (added, rest)) :
    rest.length ≤ text.length ∧ ValidUtf8 added := by
  unfold scanChar at h
  split at h
  · split at h
    · cases h
    rename_i escape behind
    split at h
    · rename_i byte hbyte
      obtain ⟨rfl, rfl⟩ := Prod.mk.inj (Option.some.inj h)
      exact ⟨Nat.le_succ _, validUtf8_byte (escaped_le hbyte)⟩
    split at h
    · obtain ⟨hlt, hvalid⟩ := scanCodepoint_spec h
      exact ⟨Nat.le_succ_of_le (Nat.le_of_lt hlt), hvalid⟩
    · cases h
  split at h
  · cases h
  split at h
  · obtain ⟨rfl, rfl⟩ := Prod.mk.inj (Option.some.inj h)
    exact ⟨le_rfl, validUtf8_byte ‹_›⟩
  split at h
  · cases h
  rename_i ranges htails
  split at h
  · rename_i more last hmore
    obtain ⟨rfl, rfl⟩ := Prod.mk.inj (Option.some.inj h)
    obtain ⟨rfl, hranges⟩ := nextByteInRange_spec hmore
    obtain ⟨c, hc⟩ := Utf8.exists_char_of_tails htails hranges
    refine ⟨?_, hc ▸ Utf8.isValidUTF8_utf8EncodeChar c⟩
    rw [List.length_append]
    omega
  · cases h

end Characters

section Strings

variable {current : UInt8} {added rest text tokenBuffer value : Bytes} {rounds : ℕ}

theorem scanString_spec (h : scanString rounds tokenBuffer text = some (value, rest))
    (hbuffer : ValidUtf8 tokenBuffer) : rest.length < text.length ∧ ValidUtf8 value := by
  induction rounds generalizing tokenBuffer text with
  | zero => cases h
  | succ rounds ih =>
      cases text with
      | nil => cases h
      | cons byte text =>
          simp only [scanString] at h
          split at h
          · obtain ⟨rfl, rfl⟩ := Prod.mk.inj (Option.some.inj h)
            exact ⟨Nat.lt_succ_self _, hbuffer⟩
          split at h
          · rename_i more behind hmore
            obtain ⟨hle, hvalid⟩ := scanChar_spec hmore
            obtain ⟨hlt, hvalue⟩ := ih h (Utf8.isValidUTF8_append hbuffer hvalid)
            refine ⟨?_, hvalue⟩
            rw [List.length_cons]
            omega
          · cases h

-- The rounds do not run out.
theorem scanString_rounds {more : ℕ} (tokenBuffer : Bytes) (h : text.length ≤ rounds)
    (h' : text.length ≤ more) :
    scanString rounds tokenBuffer text = scanString more tokenBuffer text := by
  induction rounds generalizing more tokenBuffer text with
  | zero =>
      obtain rfl := List.length_eq_zero_iff.mp (Nat.le_zero.mp h)
      cases more <;> rfl
  | succ rounds ih =>
      cases text with
      | nil => cases more <;> rfl
      | cons byte text =>
          obtain _ | more := more
          · cases h'
          simp only [scanString]
          split
          · rfl
          split
          · rename_i added behind hadded
            have hle := (scanChar_spec hadded).1
            rw [List.length_cons] at h h'
            exact ih _ (by omega) (by omega)
          · rfl

end Strings

section Written

variable {rest : Bytes}

theorem hexValue_hexDigit : ∀ n < 16, hexValue (hexDigit n) = some n := by decide

-- A control character is written with the digits of its code.
theorem scanChar_control {byte : UInt8} (h : byte < 32) (rest : Bytes) :
    scanChar 92
      (117 :: 48 :: 48 :: hexDigit (byte.toNat / 16) :: hexDigit (byte.toNat % 16) :: rest) =
      some ([byte], rest) := by
  have hlt : byte.toNat < 32 := UInt8.lt_iff_toNat_lt.mp h
  have hzero : hexValue 48 = some 0 := by decide
  have hhigh := hexValue_hexDigit (byte.toNat / 16) (by omega)
  have hlow := hexValue_hexDigit (byte.toNat % 16) (by omega)
  have hcode : 0 + 0 <<< 12 + 0 <<< 8 + (byte.toNat / 16) <<< 4 + (byte.toNat % 16) <<< 0 =
      byte.toNat := by
    simp only [Nat.shiftLeft_eq]
    omega
  have hescaped : escaped 117 = none := by decide
  have hbytes : codepointBytes byte.toNat = [byte] := by
    rw [codepointBytes, if_pos (by omega), UInt8.ofNat_toNat]
  simp only [scanChar, if_pos, hescaped, scanCodepoint, getCodepoint, hzero, hhigh, hlow, hcode]
  rw [if_neg (by omega), if_neg (by omega), hbytes]

theorem escapeByte_spec {byte : UInt8} (h : byte ≤ 0x7F) :
    ∃ first tail, escapeByte byte = first :: tail ∧ first ≠ 34 ∧
      ∀ rest, scanChar first (tail ++ rest) = some ([byte], rest) := by
  unfold escapeByte
  split
  · subst byte
    exact ⟨92, [98], rfl, by decide, fun _ => rfl⟩
  split
  · subst byte
    exact ⟨92, [116], rfl, by decide, fun _ => rfl⟩
  split
  · subst byte
    exact ⟨92, [110], rfl, by decide, fun _ => rfl⟩
  split
  · subst byte
    exact ⟨92, [102], rfl, by decide, fun _ => rfl⟩
  split
  · subst byte
    exact ⟨92, [114], rfl, by decide, fun _ => rfl⟩
  split
  · subst byte
    exact ⟨92, [34], rfl, by decide, fun _ => rfl⟩
  split
  · subst byte
    exact ⟨92, [92], rfl, by decide, fun _ => rfl⟩
  split
  · exact ⟨92, _, rfl, by decide, scanChar_control ‹_›⟩
  · refine ⟨byte, [], rfl, ‹_›, fun rest => ?_⟩
    unfold scanChar
    rw [if_neg ‹_›, if_neg ‹_›, if_pos h]
    rfl

-- A byte of a longer code point is no control character and needs no escape.
theorem ne_of_lt {byte : UInt8} (h : 0x7F < byte) (other : UInt8) (hother : other ≤ 0x7F) :
    byte ≠ other := by
  rintro rfl
  exact UInt8.not_lt.mpr hother h

theorem not_lt_of_lt {byte : UInt8} (h : 0x7F < byte) : ¬byte < 0x20 :=
  UInt8.not_lt.mpr (UInt8.le_of_lt (UInt8.lt_of_le_of_lt (by decide : (0x20 : UInt8) ≤ 0x7F) h))

theorem escapeByte_of_lt {byte : UInt8} (h : 0x7F < byte) : escapeByte byte = [byte] := by
  have hne := ne_of_lt h
  have hspace : ¬byte < 32 := not_lt_of_lt h
  unfold escapeByte
  rw [if_neg (hne 8 (by decide)), if_neg (hne 9 (by decide)), if_neg (hne 10 (by decide)),
    if_neg (hne 12 (by decide)), if_neg (hne 13 (by decide)), if_neg (hne 34 (by decide)),
    if_neg (hne 92 (by decide)), if_neg hspace]

theorem flatMap_escapeByte {value : Bytes} (h : ∀ byte ∈ value, 0x7F < byte) :
    value.flatMap escapeByte = value := by
  rw [List.flatMap_congr fun byte hbyte => escapeByte_of_lt (h byte hbyte)]
  exact List.flatMap_singleton' value

-- What a character is written as is read back.
theorem escape_char (c : Char) :
    ∃ first tail, (String.utf8EncodeChar c).flatMap escapeByte = first :: tail ∧ first ≠ 34 ∧
      ∀ rest, scanChar first (tail ++ rest) = some (String.utf8EncodeChar c, rest) := by
  by_cases hone : c.val.toNat ≤ 0x7F
  · have hchar : String.utf8EncodeChar c = [UInt8.ofNat c.val.toNat] := by
      unfold String.utf8EncodeChar
      exact if_pos hone
    have hbyte : UInt8.ofNat c.val.toNat ≤ 0x7F := by
      rw [UInt8.le_iff_toNat_le, Utf8.toNat_ofNat (by omega)]
      exact hone
    rw [hchar, List.flatMap_singleton]
    exact escapeByte_spec hbyte
  · obtain ⟨first, tail, ranges, hchar, htails, htail⟩ := Utf8.tails_utf8EncodeChar c (by omega)
    obtain ⟨hfirst, hrest⟩ := Utf8.lt_of_tails htails htail
    refine ⟨first, tail, ?_, ne_of_lt hfirst 34 (by decide), fun rest => ?_⟩
    · rw [hchar, flatMap_escapeByte]
      exact List.forall_mem_cons.mpr ⟨hfirst, hrest⟩
    · unfold scanChar
      rw [if_neg (ne_of_lt hfirst 92 (by decide)), if_neg (not_lt_of_lt hfirst),
        if_neg (UInt8.not_le.mpr hfirst), htails, hchar]
      dsimp only
      rw [nextByteInRange_append htail rest]

theorem scanString_flatMap (chars : List Char) {rounds : ℕ} (tokenBuffer rest : Bytes)
    (h : ((chars.flatMap String.utf8EncodeChar).flatMap escapeByte).length < rounds) :
    scanString rounds tokenBuffer
        ((chars.flatMap String.utf8EncodeChar).flatMap escapeByte ++ 34 :: rest) =
      some (tokenBuffer ++ chars.flatMap String.utf8EncodeChar, rest) := by
  obtain _ | rounds := rounds
  · cases h
  induction chars generalizing rounds tokenBuffer with
  | nil => rw [List.flatMap_nil, List.append_nil]; rfl
  | cons c chars ih =>
      obtain ⟨first, tail, hescape, hfirst, hchar⟩ := escape_char c
      rw [List.flatMap_cons, List.flatMap_append, hescape] at h ⊢
      rw [List.cons_append, List.length_cons, List.length_append] at h
      rw [List.cons_append, List.cons_append, List.append_assoc, scanString, if_neg hfirst, hchar]
      obtain _ | rounds := rounds
      · omega
      · rw [← List.append_assoc]
        exact ih _ _ (by omega)

end Written

end MyTestserver.Json.Lexer
