/-
# Decimal numerals

A numeral is a list of ASCII digits, the highest first. `value` is the number that it stands for,
and `fixed` writes the lowest digits of a number; the two undo each other. Numerals that stand
side by side add up as the places of their digits say.
-/

import Mathlib.Tactic

namespace Numeral

/-- The lowest digit of a number. -/
def digit (n : Nat) : UInt8 := UInt8.ofNat (48 + n % 10)

/-- The byte is a digit. -/
def IsDigit (byte : UInt8) : Prop := 48 ≤ byte.toNat ∧ byte.toNat ≤ 57

instance (byte : UInt8) : Decidable (IsDigit byte) := inferInstanceAs (Decidable (_ ∧ _))

/-- A list of digits. -/
def IsNumeral (text : List UInt8) : Prop := ∀ byte ∈ text, IsDigit byte

instance (text : List UInt8) : Decidable (IsNumeral text) :=
  inferInstanceAs (Decidable (∀ byte ∈ text, IsDigit byte))

/-- The number that a numeral stands for. -/
def value (text : List UInt8) : Nat :=
  text.foldl (fun value digit => 10 * value + (digit.toNat - 48)) 0

/-- The lowest `count` digits of a number. -/
def fixed : Nat → Nat → List UInt8
  | 0, _ => []
  | count + 1, n => fixed count (n / 10) ++ [digit n]

/-! ## Digits -/

theorem toNat_digit (n : Nat) : (digit n).toNat = 48 + n % 10 := by
  have hdigit : n % 10 < 10 := Nat.mod_lt n (by decide)
  rw [digit, UInt8.toNat_ofNat', Nat.mod_eq_of_lt (by omega)]

theorem isDigit_digit (n : Nat) : IsDigit (digit n) := by
  have hdigit : n % 10 < 10 := Nat.mod_lt n (by decide)
  rw [IsDigit, toNat_digit]
  omega

/-! ## Values -/

@[simp]
theorem value_nil : value [] = 0 := rfl

@[simp]
theorem value_digit (n : Nat) : value [digit n] = n % 10 := by
  rw [value, List.foldl_cons, List.foldl_nil, toNat_digit]
  omega

/-- What stands in front counts more, by the places behind it. -/
theorem foldl_eq (text : List UInt8) (start : Nat) :
    text.foldl (fun value digit => 10 * value + (digit.toNat - 48)) start =
      start * 10 ^ text.length + value text := by
  induction text using List.reverseRecOn with
  | nil => simp [value]
  | append_singleton text byte ih =>
      rw [value, List.foldl_append, List.foldl_append, ih, List.length_append, List.length_singleton,
        pow_succ]
      simp only [List.foldl_cons, List.foldl_nil]
      rw [← value]
      ring

theorem value_append (first second : List UInt8) :
    value (first ++ second) = value first * 10 ^ second.length + value second := by
  rw [value, List.foldl_append, foldl_eq]
  rfl

/-- A numeral is below the power that its length gives. -/
theorem value_lt {text : List UInt8} (h : IsNumeral text) : value text < 10 ^ text.length := by
  induction text using List.reverseRecOn with
  | nil => exact Nat.one_pos
  | append_singleton text byte ih =>
      have hfront := ih fun other hmem => h other (List.mem_append_left _ hmem)
      have hlast := h byte (List.mem_append_right _ List.mem_cons_self)
      have hbyte : value [byte] < 10 := by
        have hhigh := hlast.2
        rw [value, List.foldl_cons, List.foldl_nil]
        omega
      rw [value_append, List.length_append, List.length_singleton, pow_succ]
      omega

/-! ## Writing -/

@[simp]
theorem length_fixed (count : Nat) : ∀ n, (fixed count n).length = count := by
  induction count with
  | zero => intro n; rfl
  | succ count ih =>
      intro n
      rw [fixed, List.length_append, ih, List.length_singleton]

theorem isNumeral_fixed (count : Nat) : ∀ n, IsNumeral (fixed count n) := by
  induction count with
  | zero => exact fun n byte hmem => absurd hmem List.not_mem_nil
  | succ count ih =>
      intro n byte hmem
      rcases List.mem_append.mp hmem with hfront | hlast
      · exact ih (n / 10) byte hfront
      · rw [List.mem_singleton.mp hlast]
        exact isDigit_digit n

/-- Reading back gives what fits. -/
theorem value_fixed (count : Nat) : ∀ n, value (fixed count n) = n % 10 ^ count := by
  induction count with
  | zero =>
      intro n
      rw [pow_zero, Nat.mod_one]
      rfl
  | succ count ih =>
      intro n
      rw [fixed, value_append, ih, value_digit, List.length_singleton, pow_one, pow_succ',
        Nat.mod_mul]
      ring

/-- More digits stand in front. -/
theorem fixed_add (front back : Nat) :
    ∀ n, fixed (front + back) n = fixed front (n / 10 ^ back) ++ fixed back n := by
  induction back with
  | zero =>
      intro n
      rw [pow_zero, Nat.div_one, fixed, List.append_nil]
      rfl
  | succ back ih =>
      intro n
      rw [← Nat.add_assoc, fixed, ih, fixed, List.append_assoc, Nat.div_div_eq_div_mul, pow_succ']

/-- A nought is written as noughts. -/
theorem fixed_zero (count : Nat) : fixed count 0 = List.replicate count 48 := by
  induction count with
  | zero => rfl
  | succ count ih =>
      rw [fixed, Nat.zero_div, ih, List.replicate_succ']
      rfl

/-- Digits in front of a number that needs none of them are noughts. -/
theorem fixed_of_lt {n back : Nat} (h : n < 10 ^ back) (front : Nat) :
    fixed (front + back) n = List.replicate front 48 ++ fixed back n := by
  rw [fixed_add, Nat.div_eq_of_lt h, fixed_zero]

/-- A number is written whole with as many digits as it has. -/
theorem value_fixed_of_lt {count n : Nat} (h : n < 10 ^ count) : value (fixed count n) = n := by
  rw [value_fixed, Nat.mod_eq_of_lt h]

end Numeral
