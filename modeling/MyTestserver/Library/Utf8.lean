import Mathlib.Data.List.Forall2

namespace MyTestserver.Utf8

-- The well-formed sequences of more than one byte: the ranges of the bytes behind a first
-- one. They leave out what would be too long, a surrogate or past the last code point.
def tails (first : UInt8) : Option (List (UInt8 × UInt8)) :=
  if 0xC2 ≤ first ∧ first ≤ 0xDF then some [(0x80, 0xBF)]
  else if first = 0xE0 then some [(0xA0, 0xBF), (0x80, 0xBF)]
  else if first = 0xED then some [(0x80, 0x9F), (0x80, 0xBF)]
  else if 0xE1 ≤ first ∧ first ≤ 0xEF then some [(0x80, 0xBF), (0x80, 0xBF)]
  else if first = 0xF0 then some [(0x90, 0xBF), (0x80, 0xBF), (0x80, 0xBF)]
  else if 0xF1 ≤ first ∧ first ≤ 0xF3 then some [(0x80, 0xBF), (0x80, 0xBF), (0x80, 0xBF)]
  else if first = 0xF4 then some [(0x80, 0x8F), (0x80, 0xBF), (0x80, 0xBF)]
  else none

def InRange (range : UInt8 × UInt8) (byte : UInt8) : Prop := range.1 ≤ byte ∧ byte ≤ range.2

instance (range : UInt8 × UInt8) (byte : UInt8) : Decidable (InRange range byte) := by
  unfold InRange
  infer_instance

section Numbers

-- Bytes are compared and computed with as numbers.
theorem ofNat_eq_iff {n : ℕ} {byte : UInt8} (h : n < 256) :
    UInt8.ofNat n = byte ↔ n = byte.toNat := by
  rw [← UInt8.toNat_inj, UInt8.toNat_ofNat', Nat.mod_eq_of_lt h]

theorem inRange_iff (low high : ℕ) {byte : UInt8} (hlow : low < 256) (hhigh : high < 256) :
    InRange (UInt8.ofNat low, UInt8.ofNat high) byte ↔ low ≤ byte.toNat ∧ byte.toNat ≤ high := by
  rw [InRange, UInt8.le_iff_toNat_le, UInt8.le_iff_toNat_le, UInt8.toNat_ofNat',
    UInt8.toNat_ofNat', Nat.mod_eq_of_lt hlow, Nat.mod_eq_of_lt hhigh]

theorem tails_eq (first : UInt8) : tails first =
    if 0xC2 ≤ first.toNat ∧ first.toNat ≤ 0xDF then some [(0x80, 0xBF)]
    else if first.toNat = 0xE0 then some [(0xA0, 0xBF), (0x80, 0xBF)]
    else if first.toNat = 0xED then some [(0x80, 0x9F), (0x80, 0xBF)]
    else if 0xE1 ≤ first.toNat ∧ first.toNat ≤ 0xEF then some [(0x80, 0xBF), (0x80, 0xBF)]
    else if first.toNat = 0xF0 then some [(0x90, 0xBF), (0x80, 0xBF), (0x80, 0xBF)]
    else if 0xF1 ≤ first.toNat ∧ first.toNat ≤ 0xF3 then
      some [(0x80, 0xBF), (0x80, 0xBF), (0x80, 0xBF)]
    else if first.toNat = 0xF4 then some [(0x80, 0x8F), (0x80, 0xBF), (0x80, 0xBF)]
    else none := by
  simp only [tails, UInt8.le_iff_toNat_le, ← UInt8.toNat_inj]
  rfl

theorem toNat_ofNat {n : ℕ} (h : n < 256) : (UInt8.ofNat n).toNat = n := by
  rw [UInt8.toNat_ofNat', Nat.mod_eq_of_lt h]

theorem inRange_ofNat (low high : ℕ) {n : ℕ} (hlow : low ≤ n) (hhigh : n ≤ high) (h : high < 256) :
    InRange (UInt8.ofNat low, UInt8.ofNat high) (UInt8.ofNat n) := by
  rw [inRange_iff low high (by omega) h, toNat_ofNat (by omega)]
  exact ⟨hlow, hhigh⟩

end Numbers

section Characters

-- The last byte of a longer sequence, and any other behind the second.
theorem inRange_tail (n : ℕ) : InRange (0x80, 0xBF) (UInt8.ofNat (n % 64 + 0x80)) :=
  inRange_ofNat 0x80 0xBF (by omega) (by omega) (by decide)

-- What encodes a character that is not ASCII is such a sequence.
theorem tails_utf8EncodeChar (c : Char) (h : 0x7F < c.val.toNat) :
    ∃ first rest ranges, String.utf8EncodeChar c = first :: rest ∧ tails first = some ranges ∧
      List.Forall₂ InRange ranges rest := by
  have hvalid := c.valid
  have hvalid : c.val.toNat < 0xD800 ∨ 0xDFFF < c.val.toNat ∧ c.val.toNat < 0x110000 := hvalid
  unfold String.utf8EncodeChar
  generalize c.val.toNat = v at h hvalid
  dsimp only
  rw [if_neg (by omega)]
  split
  · have hfirst : (UInt8.ofNat (v / 64 % 0x20 + 0xc0)).toNat = v / 64 + 0xc0 := by
      rw [toNat_ofNat (by omega)]
      omega
    refine ⟨_, _, [(0x80, 0xBF)], rfl, ?_, .cons (inRange_tail v) .nil⟩
    rw [tails_eq, hfirst, if_pos (by omega)]
  split
  · have hfirst : (UInt8.ofNat (v / 4096 % 0x10 + 0xe0)).toNat = v / 4096 + 0xe0 := by
      rw [toNat_ofNat (by omega)]
      omega
    have hrest : List.Forall₂ InRange [(0x80, 0xBF)] [UInt8.ofNat (v % 64 + 0x80)] :=
      .cons (inRange_tail v) .nil
    by_cases hlong : v < 0x1000
    · refine ⟨_, _, [(0xA0, 0xBF), (0x80, 0xBF)], rfl, ?_, .cons ?_ hrest⟩
      · rw [tails_eq, hfirst, if_neg (by omega), if_pos (by omega)]
      · exact inRange_ofNat 0xA0 0xBF (by omega) (by omega) (by decide)
    by_cases hsurrogate : v / 4096 = 0xD
    · refine ⟨_, _, [(0x80, 0x9F), (0x80, 0xBF)], rfl, ?_, .cons ?_ hrest⟩
      · rw [tails_eq, hfirst, if_neg (by omega), if_neg (by omega), if_pos (by omega)]
      · exact inRange_ofNat 0x80 0x9F (by omega) (by omega) (by decide)
    · refine ⟨_, _, [(0x80, 0xBF), (0x80, 0xBF)], rfl, ?_, .cons (inRange_tail _) hrest⟩
      rw [tails_eq, hfirst, if_neg (by omega), if_neg (by omega), if_neg (by omega),
        if_pos (by omega)]
  · have hfirst : (UInt8.ofNat (v / 262144 % 0x08 + 0xf0)).toNat = v / 262144 + 0xf0 := by
      rw [toNat_ofNat (by omega)]
      omega
    have hrest : List.Forall₂ InRange [(0x80, 0xBF), (0x80, 0xBF)]
        [UInt8.ofNat (v / 64 % 64 + 0x80), UInt8.ofNat (v % 64 + 0x80)] :=
      .cons (inRange_tail _) (.cons (inRange_tail v) .nil)
    by_cases hlong : v < 0x40000
    · refine ⟨_, _, [(0x90, 0xBF), (0x80, 0xBF), (0x80, 0xBF)], rfl, ?_, .cons ?_ hrest⟩
      · rw [tails_eq, hfirst, if_neg (by omega), if_neg (by omega), if_neg (by omega),
          if_neg (by omega), if_pos (by omega)]
      · exact inRange_ofNat 0x90 0xBF (by omega) (by omega) (by decide)
    by_cases hpast : v < 0x100000
    · refine ⟨_, _, [(0x80, 0xBF), (0x80, 0xBF), (0x80, 0xBF)], rfl, ?_,
        .cons (inRange_tail _) hrest⟩
      rw [tails_eq, hfirst, if_neg (by omega), if_neg (by omega), if_neg (by omega),
        if_neg (by omega), if_neg (by omega), if_pos (by omega)]
    · refine ⟨_, _, [(0x80, 0x8F), (0x80, 0xBF), (0x80, 0xBF)], rfl, ?_, .cons ?_ hrest⟩
      · rw [tails_eq, hfirst, if_neg (by omega), if_neg (by omega), if_neg (by omega),
          if_neg (by omega), if_neg (by omega), if_neg (by omega), if_pos (by omega)]
      · exact inRange_ofNat 0x80 0x8F (by omega) (by omega) (by decide)

theorem lt_of_forall₂ {bound : UInt8} {ranges : List (UInt8 × UInt8)} {rest : List UInt8}
    (h : List.Forall₂ InRange ranges rest) (hranges : ∀ range ∈ ranges, bound < range.1) :
    ∀ byte ∈ rest, bound < byte := by
  induction h with
  | nil => exact List.forall_mem_nil _
  | cons hrange _ ih =>
      obtain ⟨hlow, hranges⟩ := List.forall_mem_cons.mp hranges
      exact List.forall_mem_cons.mpr ⟨UInt8.lt_of_lt_of_le hlow hrange.1, ih hranges⟩

-- None of its bytes is ASCII.
theorem lt_of_tails {first : UInt8} {ranges : List (UInt8 × UInt8)} {rest : List UInt8}
    (htails : tails first = some ranges) (hrest : List.Forall₂ InRange ranges rest) :
    0x7F < first ∧ ∀ byte ∈ rest, 0x7F < byte := by
  have hranges : 0x7F < first.toNat ∧ ∀ range ∈ ranges, 0x7F < range.1 := by
    rw [tails_eq] at htails
    repeat' split at htails
    all_goals cases htails
    all_goals exact ⟨by omega, by simp⟩
  refine ⟨UInt8.lt_iff_toNat_lt.mpr hranges.1, fun byte hbyte => ?_⟩
  exact lt_of_forall₂ hrest hranges.2 byte hbyte

theorem exists_char (v : ℕ) (h : v < 0xD800 ∨ 0xDFFF < v ∧ v < 0x110000) :
    ∃ c : Char, c.val.toNat = v := by
  have hvalid : v.isValidChar := h
  refine ⟨Char.ofNat v, ?_⟩
  rw [Char.ofNat, dif_pos hvalid]
  rfl

theorem tail_toNat {byte : UInt8} (h : InRange (0x80, 0xBF) byte) :
    0x80 ≤ byte.toNat ∧ byte.toNat ≤ 0xBF :=
  (inRange_iff 0x80 0xBF (by decide) (by decide)).mp h

-- The characters that the numbers in the bytes make up.

theorem exists_char_two {first second : UInt8} (hfirst : 0xC2 ≤ first.toNat ∧ first.toNat ≤ 0xDF)
    (hsecond : InRange (0x80, 0xBF) second) :
    ∃ c : Char, String.utf8EncodeChar c = [first, second] := by
  have hsecond := tail_toNat hsecond
  obtain ⟨c, hc⟩ := exists_char ((first.toNat - 0xC0) * 64 + (second.toNat - 0x80)) (by omega)
  refine ⟨c, ?_⟩
  unfold String.utf8EncodeChar
  rw [hc]
  dsimp only
  rw [if_neg (by omega), if_pos (by omega), (ofNat_eq_iff (by omega)).mpr,
    (ofNat_eq_iff (by omega)).mpr]
  · omega
  · omega

theorem exists_char_three {first second third : UInt8}
    (hfirst : 0xE0 ≤ first.toNat ∧ first.toNat ≤ 0xEF)
    (hsecond : 0x80 ≤ second.toNat ∧ second.toNat ≤ 0xBF)
    (hlong : first.toNat = 0xE0 → 0xA0 ≤ second.toNat)
    (hsurrogate : first.toNat = 0xED → second.toNat ≤ 0x9F) (hthird : InRange (0x80, 0xBF) third) :
    ∃ c : Char, String.utf8EncodeChar c = [first, second, third] := by
  have hthird := tail_toNat hthird
  obtain ⟨c, hc⟩ := exists_char ((first.toNat - 0xE0) * 4096 + (second.toNat - 0x80) * 64 +
    (third.toNat - 0x80)) (by omega)
  refine ⟨c, ?_⟩
  unfold String.utf8EncodeChar
  rw [hc]
  dsimp only
  rw [if_neg (by omega), if_neg (by omega), if_pos (by omega), (ofNat_eq_iff (by omega)).mpr,
    (ofNat_eq_iff (by omega)).mpr, (ofNat_eq_iff (by omega)).mpr]
  · omega
  · omega
  · omega

theorem exists_char_four {first second third fourth : UInt8}
    (hfirst : 0xF0 ≤ first.toNat ∧ first.toNat ≤ 0xF4)
    (hsecond : 0x80 ≤ second.toNat ∧ second.toNat ≤ 0xBF)
    (hlong : first.toNat = 0xF0 → 0x90 ≤ second.toNat)
    (hpast : first.toNat = 0xF4 → second.toNat ≤ 0x8F) (hthird : InRange (0x80, 0xBF) third)
    (hfourth : InRange (0x80, 0xBF) fourth) :
    ∃ c : Char, String.utf8EncodeChar c = [first, second, third, fourth] := by
  have hthird := tail_toNat hthird
  have hfourth := tail_toNat hfourth
  obtain ⟨c, hc⟩ := exists_char ((first.toNat - 0xF0) * 262144 +
    (second.toNat - 0x80) * 4096 + (third.toNat - 0x80) * 64 + (fourth.toNat - 0x80)) (by omega)
  refine ⟨c, ?_⟩
  unfold String.utf8EncodeChar
  rw [hc]
  dsimp only
  rw [if_neg (by omega), if_neg (by omega), if_neg (by omega), (ofNat_eq_iff (by omega)).mpr,
    (ofNat_eq_iff (by omega)).mpr, (ofNat_eq_iff (by omega)).mpr, (ofNat_eq_iff (by omega)).mpr]
  · omega
  · omega
  · omega
  · omega

theorem exists_char_of_tails {first : UInt8} {ranges : List (UInt8 × UInt8)} {rest : List UInt8}
    (htails : tails first = some ranges) (hrest : List.Forall₂ InRange ranges rest) :
    ∃ c : Char, String.utf8EncodeChar c = first :: rest := by
  rw [tails_eq] at htails
  split at htails
  · obtain rfl := Option.some.inj htails
    obtain _ | ⟨hsecond, _ | _⟩ := hrest
    exact exists_char_two ‹_› hsecond
  split at htails
  · obtain rfl := Option.some.inj htails
    obtain _ | ⟨hsecond, _ | ⟨hthird, _ | _⟩⟩ := hrest
    have hsecond := (inRange_iff 0xA0 0xBF (by decide) (by decide)).mp hsecond
    exact exists_char_three (by omega) (by omega) (by omega) (by omega) hthird
  split at htails
  · obtain rfl := Option.some.inj htails
    obtain _ | ⟨hsecond, _ | ⟨hthird, _ | _⟩⟩ := hrest
    have hsecond := (inRange_iff 0x80 0x9F (by decide) (by decide)).mp hsecond
    exact exists_char_three (by omega) (by omega) (by omega) (by omega) hthird
  split at htails
  · obtain rfl := Option.some.inj htails
    obtain _ | ⟨hsecond, _ | ⟨hthird, _ | _⟩⟩ := hrest
    exact exists_char_three (by omega) (tail_toNat hsecond) (by omega) (by omega) hthird
  split at htails
  · obtain rfl := Option.some.inj htails
    obtain _ | ⟨hsecond, _ | ⟨hthird, _ | ⟨hfourth, _ | _⟩⟩⟩ := hrest
    have hsecond := (inRange_iff 0x90 0xBF (by decide) (by decide)).mp hsecond
    exact exists_char_four (by omega) (by omega) (by omega) (by omega) hthird hfourth
  split at htails
  · obtain rfl := Option.some.inj htails
    obtain _ | ⟨hsecond, _ | ⟨hthird, _ | ⟨hfourth, _ | _⟩⟩⟩ := hrest
    exact exists_char_four (by omega) (tail_toNat hsecond) (by omega) (by omega) hthird hfourth
  split at htails
  · obtain rfl := Option.some.inj htails
    obtain _ | ⟨hsecond, _ | ⟨hthird, _ | ⟨hfourth, _ | _⟩⟩⟩ := hrest
    have hsecond := (inRange_iff 0x80 0x8F (by decide) (by decide)).mp hsecond
    exact exists_char_four (by omega) (by omega) (by omega) (by omega) hthird hfourth
  · cases htails

end Characters

section Valid

theorem isValidUTF8_iff (bytes : List UInt8) : (ByteArray.mk bytes.toArray).IsValidUTF8 ↔
    ∃ chars : List Char, bytes = chars.flatMap String.utf8EncodeChar := by
  have harray : bytes.toByteArray = ByteArray.mk bytes.toArray := by
    ext1
    simp
  rw [← harray]
  constructor
  · rintro ⟨chars, h⟩
    exact ⟨chars, List.toByteArray_inj.mp h⟩
  · rintro ⟨chars, rfl⟩
    exact ⟨chars, rfl⟩

theorem isValidUTF8_append {bytes more : List UInt8}
    (h : (ByteArray.mk bytes.toArray).IsValidUTF8) (h' : (ByteArray.mk more.toArray).IsValidUTF8) :
    (ByteArray.mk (bytes ++ more).toArray).IsValidUTF8 := by
  obtain ⟨chars, rfl⟩ := (isValidUTF8_iff bytes).mp h
  obtain ⟨chars', rfl⟩ := (isValidUTF8_iff more).mp h'
  exact (isValidUTF8_iff _).mpr ⟨chars ++ chars', List.flatMap_append.symm⟩

theorem isValidUTF8_utf8EncodeChar (c : Char) :
    (ByteArray.mk (String.utf8EncodeChar c).toArray).IsValidUTF8 :=
  (isValidUTF8_iff _).mpr ⟨[c], by simp⟩

end Valid

end MyTestserver.Utf8
