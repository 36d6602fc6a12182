/-
# Little-endian numbers

A number is stored in a fixed count of bytes, the lowest first. What does not fit is
lost, so reading back gives the number modulo the power of 256.
-/

import Mathlib.Tactic

namespace LittleEndian

/-- The lowest `count` bytes of a number. -/
def toBytes : Nat → Nat → List UInt8
  | 0, _ => []
  | count + 1, n => UInt8.ofNat n :: toBytes count (n / 256)

/-- The number that a list of bytes stores. -/
def ofBytes : List UInt8 → Nat
  | [] => 0
  | byte :: rest => byte.toNat + 256 * ofBytes rest

@[simp]
theorem length_toBytes (count : Nat) : ∀ n, (toBytes count n).length = count := by
  induction count with
  | zero => intro n; rfl
  | succ count ih =>
      intro n
      rw [toBytes, List.length_cons, ih]

/-- Reading back gives what fits. -/
theorem ofBytes_toBytes (count : Nat) : ∀ n, ofBytes (toBytes count n) = n % 256 ^ count := by
  induction count with
  | zero =>
      intro n
      rw [pow_zero, Nat.mod_one]
      rfl
  | succ count ih =>
      intro n
      have hpower : 256 ^ (count + 1) = 256 * 256 ^ count := pow_succ' 256 count
      rw [toBytes, ofBytes, ih, UInt8.toNat_ofNat', hpower]
      exact Nat.mod_mul.symm

/-- A number that fits is read back. -/
theorem ofBytes_toBytes_of_lt {count n : Nat} (h : n < 256 ^ count) :
    ofBytes (toBytes count n) = n := by
  rw [ofBytes_toBytes, Nat.mod_eq_of_lt h]

/-- A list stores a number that fits. -/
theorem ofBytes_lt (bytes : List UInt8) : ofBytes bytes < 256 ^ bytes.length := by
  induction bytes with
  | nil => exact Nat.one_pos
  | cons byte rest ih =>
      have hbyte := byte.toNat_lt
      rw [ofBytes, List.length_cons, pow_succ]
      omega

/-- Lists of one length that store the same number are the same. -/
theorem ofBytes_inj {first second : List UInt8} (hlength : first.length = second.length)
    (h : ofBytes first = ofBytes second) : first = second := by
  induction first generalizing second with
  | nil => exact (List.length_eq_zero_iff.mp hlength.symm).symm
  | cons byte rest ih =>
      cases second with
      | nil => cases hlength
      | cons byte' rest' =>
          have hbyte := byte.toNat_lt
          have hbyte' := byte'.toNat_lt
          rw [ofBytes, ofBytes] at h
          have hfirst : byte = byte' := UInt8.toNat_inj.mp (by omega)
          rw [hfirst, ih (Nat.succ.inj hlength) (by omega)]

/-- Every byte counts with its power of 256. -/
theorem mul_pow_le_ofBytes {bytes : List UInt8} {i : Nat} {byte : UInt8}
    (hbyte : bytes[i]? = some byte) : byte.toNat * 256 ^ i ≤ ofBytes bytes := by
  induction bytes generalizing i with
  | nil => cases hbyte
  | cons first rest ih =>
      rw [ofBytes]
      cases i with
      | zero =>
          rcases Option.some.inj hbyte with rfl
          omega
      | succ i =>
          have hrest := Nat.mul_le_mul_left 256 (ih hbyte)
          calc byte.toNat * 256 ^ (i + 1)
              _ = 256 * (byte.toNat * 256 ^ i) := by rw [pow_succ', Nat.mul_left_comm]
              _ ≤ 256 * ofBytes rest := hrest
              _ ≤ first.toNat + 256 * ofBytes rest := Nat.le_add_left _ _

end LittleEndian
