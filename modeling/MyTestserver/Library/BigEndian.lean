import Mathlib.Data.Nat.Bitwise
import Mathlib.Tactic.Ring

namespace MyTestserver.BigEndian

-- The number a big-endian string of bytes stands for.
def value (bytes : List UInt8) : ℕ :=
  bytes.foldl (fun n byte => n * 256 + byte.toNat) 0

-- The `width` low bytes of a number, the most significant one first.
def encode (width n : ℕ) : List UInt8 :=
  (List.range width).reverse.map fun i => UInt8.ofNat (n >>> (i * 8))

@[simp] theorem encode_length (width n : ℕ) : (encode width n).length = width := by
  simp [encode]

theorem encode_succ (width n : ℕ) :
    encode (width + 1) n = UInt8.ofNat (n >>> (width * 8)) :: encode width n := by
  simp [encode, List.range_succ]

theorem foldl_value (bytes : List UInt8) (n : ℕ) :
    bytes.foldl (fun n byte => n * 256 + byte.toNat) n = n * 256 ^ bytes.length + value bytes := by
  induction bytes generalizing n with
  | nil => simp [value]
  | cons byte bytes ih =>
      have hvalue : value (byte :: bytes) = byte.toNat * 256 ^ bytes.length + value bytes := by
        rw [← ih, value, List.foldl_cons, Nat.zero_mul, Nat.zero_add]
      rw [List.foldl_cons, ih, hvalue, List.length_cons]
      ring

theorem value_cons (byte : UInt8) (bytes : List UInt8) :
    value (byte :: bytes) = byte.toNat * 256 ^ bytes.length + value bytes := by
  rw [← foldl_value, value, List.foldl_cons, Nat.zero_mul, Nat.zero_add]

theorem value_lt (bytes : List UInt8) : value bytes < 256 ^ bytes.length := by
  induction bytes with
  | nil => simp [value]
  | cons byte bytes ih =>
      have hbyte : byte.toNat + 1 ≤ 256 := byte.toNat_lt
      have hmul := Nat.mul_le_mul_right (256 ^ bytes.length) hbyte
      rw [value_cons, List.length_cons, Nat.pow_succ, Nat.mul_comm (256 ^ bytes.length)]
      rw [Nat.add_mul, Nat.one_mul] at hmul
      omega

-- Encoding keeps the number modulo what the width can hold.
theorem value_encode_mod (width n : ℕ) : value (encode width n) = n % 256 ^ width := by
  induction width with
  | zero => simp [encode, value, Nat.mod_one]
  | succ width ih =>
      have hpow : (256 : ℕ) ^ width = 2 ^ (width * 8) := by
        rw [show (256 : ℕ) = 2 ^ 8 by norm_num, ← Nat.pow_mul, Nat.mul_comm]
      have hbyte : (UInt8.ofNat (n >>> (width * 8))).toNat = n / 256 ^ width % 256 := by
        rw [Nat.shiftRight_eq_div_pow, ← hpow]
        rfl
      rw [encode_succ, value_cons, encode_length, ih, hbyte, Nat.pow_succ,
        Nat.mod_mul, Nat.mul_comm, Nat.add_comm]

theorem value_encode (width n : ℕ) (h : n < 256 ^ width) : value (encode width n) = n := by
  rw [value_encode_mod, Nat.mod_eq_of_lt h]

-- One step of the shift-and-or loop that reads a number byte by byte.
theorem shift_or_byte (n : ℕ) (byte : UInt8) : n <<< 8 ||| byte.toNat = n * 256 + byte.toNat := by
  have hbyte : byte.toNat < 2 ^ 8 := byte.toNat_lt
  rw [← Nat.shiftLeft_add_eq_or_of_lt hbyte, Nat.shiftLeft_eq]

end MyTestserver.BigEndian
