/-
# Numerals in different bases

A numeral is a list of digits, the highest first. It stands for a number, and it may have zeros in
front of it. Rewritten in another base with as many zeros in front, it can be rewritten back
(`convert_convert`). The digits of a number times a factor are computed from the lowest to the
highest, with a carry (`mulAdd_spec`).
-/

import Mathlib.Data.List.DropRight
import Mathlib.Data.Nat.Digits.Lemmas
import Mathlib.Tactic

namespace Radix

/-- The digits are digits of the base. -/
def Digits (b : Nat) (numeral : List Nat) : Prop := ∀ d ∈ numeral, d < b

/-- The number that a numeral stands for. -/
def number (b : Nat) (numeral : List Nat) : Nat := Nat.ofDigits b numeral.reverse

/-- The zeros in front of a numeral. -/
def zeros (numeral : List Nat) : Nat := (numeral.takeWhile (· == 0)).length

/-- So many zeros and a number. -/
def write (b count n : Nat) : List Nat := List.replicate count 0 ++ (Nat.digits b n).reverse

/-- A numeral of base `b` in base `b'`. -/
def convert (b b' : Nat) (numeral : List Nat) : List Nat :=
  write b' (zeros numeral) (number b numeral)

/-! ## Zeros and numbers -/

section Numerals

variable {b : Nat}

@[simp]
theorem number_nil : number b [] = 0 := rfl

/-- One more digit. -/
theorem number_concat (numeral : List Nat) (d : Nat) :
    number b (numeral ++ [d]) = b * number b numeral + d := by
  rw [number, List.reverse_append, List.reverse_singleton, List.singleton_append,
    Nat.ofDigits_cons, Nat.add_comm]
  rfl

/-- A digit in front counts by the places behind it. -/
theorem number_cons (d : Nat) (numeral : List Nat) :
    number b (d :: numeral) = d * b ^ numeral.length + number b numeral := by
  rw [number, Nat.ofDigits_reverse_cons, Nat.add_comm, Nat.mul_comm]
  rfl

/-- Numerals side by side. -/
theorem number_append (first second : List Nat) :
    number b (first ++ second) = number b first * b ^ second.length + number b second := by
  rw [number, List.reverse_append, Nat.ofDigits_append, List.length_reverse, Nat.add_comm,
    Nat.mul_comm]
  rfl

theorem number_zeros_append (count : Nat) (numeral : List Nat) :
    number b (List.replicate count 0 ++ numeral) = number b numeral := by
  rw [number, List.reverse_append, List.reverse_replicate, Nat.ofDigits_append_replicate_zero]
  rfl

/-- A numeral is below the power that its length gives. -/
theorem number_lt (hb : 1 < b) {numeral : List Nat} (hdigits : Digits b numeral) :
    number b numeral < b ^ numeral.length := by
  have hreverse : ∀ d ∈ numeral.reverse, d < b := fun d hd => hdigits d (List.mem_reverse.mp hd)
  have hlt := Nat.ofDigits_lt_base_pow_length hb hreverse
  rwa [List.length_reverse] at hlt

/-- What is written are digits. -/
theorem digits_write (hb : 1 < b) (count n : Nat) : Digits b (write b count n) := by
  intro d hd
  rcases List.mem_append.mp hd with hzero | hdigit
  · rw [List.eq_of_mem_replicate hzero]
    exact Nat.zero_lt_of_lt hb
  · exact Nat.digits_lt_base hb (List.mem_reverse.mp hdigit)

theorem length_write (count n : Nat) :
    (write b count n).length = count + (Nat.digits b n).length := by
  rw [write, List.length_append, List.length_replicate, List.length_reverse]

@[simp]
theorem number_write (count n : Nat) : number b (write b count n) = n := by
  rw [write, number_zeros_append, number, List.reverse_reverse, Nat.ofDigits_digits]

/-- A number has no zero in front. -/
theorem zeros_write (count n : Nat) : zeros (write b count n) = count := by
  have hfront : (Nat.digits b n).reverse.takeWhile (· == 0) = [] := by
    cases hdigits : (Nat.digits b n).reverse with
    | nil => rfl
    | cons d rest =>
        have hne : Nat.digits b n ≠ [] := by
          intro hnil
          rw [hnil] at hdigits
          cases hdigits
        have hn : n ≠ 0 := Nat.digits_ne_nil_iff_ne_zero.mp hne
        have hd : d ≠ 0 := by
          have hlast := Nat.getLast_digit_ne_zero b hn
          rw [List.getLast_eq_head_reverse] at hlast
          simpa only [hdigits, List.head_cons] using hlast
        rw [List.takeWhile_cons_of_neg]
        simpa using hd
  rw [zeros, write, List.takeWhile_append_of_pos]
  · rw [hfront, List.append_nil, List.length_replicate]
  · intro d hd
    rw [List.eq_of_mem_replicate hd]
    rfl

/-- Behind its zeros a numeral is the number that it stands for. -/
theorem dropWhile_eq (hb : 1 < b) {numeral : List Nat} (hdigits : Digits b numeral) :
    numeral.dropWhile (· == 0) = (Nat.digits b (number b numeral)).reverse := by
  induction numeral with
  | nil => rw [number_nil, Nat.digits_zero, List.reverse_nil, List.dropWhile_nil]
  | cons d rest ih =>
      by_cases hd : d = 0
      · rw [List.dropWhile_cons_of_pos (by simpa using hd), number_cons, hd, Nat.zero_mul,
          Nat.zero_add]
        exact ih fun d hmem => hdigits d (List.mem_cons_of_mem _ hmem)
      · rw [List.dropWhile_cons_of_neg (by simpa using hd), number, Nat.digits_ofDigits b hb,
          List.reverse_reverse]
        · exact fun digit hmem => hdigits digit (List.mem_reverse.mp hmem)
        · intro hne
          rw [List.getLast_reverse]
          exact hd

/-- A numeral behind its zeros. -/
theorem drop_zeros (numeral : List Nat) :
    numeral.drop (zeros numeral) = numeral.dropWhile (· == 0) := by
  calc numeral.drop (zeros numeral)
      = (numeral.takeWhile (· == 0) ++ numeral.dropWhile (· == 0)).drop (zeros numeral) := by
        rw [List.takeWhile_append_dropWhile]
    _ = numeral.dropWhile (· == 0) := List.drop_left

/-- It is the same number. -/
theorem number_drop_zeros (numeral : List Nat) :
    number b (numeral.drop (zeros numeral)) = number b numeral := by
  rw [drop_zeros]
  induction numeral with
  | nil => rfl
  | cons d rest ih =>
      by_cases hd : d = 0
      · rw [List.dropWhile_cons_of_pos (by simpa using hd), number_cons, hd, Nat.zero_mul,
          Nat.zero_add, ih]
      · rw [List.dropWhile_cons_of_neg (by simpa using hd)]

/-- A numeral is its zeros and its number. -/
theorem write_zeros_number (hb : 1 < b) {numeral : List Nat} (hdigits : Digits b numeral) :
    write b (zeros numeral) (number b numeral) = numeral := by
  have hfront : numeral.takeWhile (· == 0) = List.replicate (zeros numeral) 0 := by
    apply List.eq_replicate_of_mem
    intro d hd
    simpa using List.mem_takeWhile_imp hd
  rw [write, ← dropWhile_eq hb hdigits, ← hfront, List.takeWhile_append_dropWhile]

theorem length_digits_number (hb : 1 < b) {numeral : List Nat} (hdigits : Digits b numeral) :
    zeros numeral + (Nat.digits b (number b numeral)).length = numeral.length := by
  rw [← length_write (b := b), write_zeros_number hb hdigits]

/-- The first digit of a number that lies between its multiples of a power. -/
theorem exists_write_eq_cons (hb : 1 < b) {d k n : Nat} (hpos : 0 < d) (hd : d < b)
    (hlow : d * b ^ k ≤ n) (hhigh : n < (d + 1) * b ^ k) :
    ∃ rest, write b 0 n = d :: rest ∧ rest.length = k := by
  have hpow : 0 < b ^ k := Nat.pow_pos (Nat.zero_lt_of_lt hb)
  have hlong : ¬ (Nat.digits b n).length ≤ k := by
    rw [Nat.digits_length_le_iff hb, Nat.not_lt]
    exact (Nat.le_mul_of_pos_left _ hpos).trans hlow
  have hshort : (Nat.digits b n).length ≤ k + 1 := by
    rw [Nat.digits_length_le_iff hb, pow_succ, Nat.mul_comm]
    exact hhigh.trans_le (Nat.mul_le_mul_right _ hd)
  have hdigits := digits_write hb 0 n
  have hnumber := number_write (b := b) 0 n
  have hlength := length_write (b := b) 0 n
  cases hwritten : write b 0 n with
  | nil =>
      rw [hwritten, List.length_nil] at hlength
      omega
  | cons first rest =>
      rw [hwritten] at hdigits hnumber hlength
      have hrest : rest.length = k := by
        rw [List.length_cons] at hlength
        omega
      have hbelow := number_lt hb fun d hmem => hdigits d (List.mem_cons_of_mem _ hmem)
      rw [number_cons, hrest] at hnumber
      rw [hrest] at hbelow
      refine ⟨rest, congrArg (· :: rest) ?_, hrest⟩
      -- both are the number divided by the power
      have hfirst : n / b ^ k = first := by
        rw [← hnumber, Nat.add_comm, Nat.add_mul_div_right _ _ hpow, Nat.div_eq_of_lt hbelow,
          Nat.zero_add]
      exact hfirst.symm.trans (Nat.div_eq_of_lt_le hlow hhigh)

end Numerals

/-! ## Another base -/

section Convert

variable {b b' : Nat}

/-- **There and back.** -/
theorem convert_convert (hb : 1 < b) {numeral : List Nat} (hdigits : Digits b numeral) :
    convert b' b (convert b b' numeral) = numeral := by
  rw [convert, convert, zeros_write, number_write, write_zeros_number hb hdigits]

theorem digits_convert (hb : 1 < b') (numeral : List Nat) : Digits b' (convert b b' numeral) :=
  digits_write hb _ _

/-- A number does not have more digits in a larger base. -/
theorem length_digits_le (hb : 1 < b') (hle : b' ≤ b) (n : Nat) :
    (Nat.digits b n).length ≤ (Nat.digits b' n).length := by
  rw [Nat.digits_length_le_iff (Nat.lt_of_lt_of_le hb hle)]
  calc n < b' ^ (Nat.digits b' n).length := Nat.lt_base_pow_length_digits hb
    _ ≤ b ^ (Nat.digits b' n).length := Nat.pow_le_pow_left hle _

/-- So in a smaller base a numeral is not shorter. -/
theorem length_le_convert (hb : 1 < b') (hle : b' ≤ b) {numeral : List Nat}
    (hdigits : Digits b numeral) : numeral.length ≤ (convert b b' numeral).length := by
  rw [convert, length_write, ← length_digits_number (Nat.lt_of_lt_of_le hb hle) hdigits]
  exact Nat.add_le_add_left (length_digits_le hb hle _) _

end Convert

/-! ## Factors -/

/-- The digits of a number, the lowest first, are multiplied by `m`, with a carry: the new digits,
and the carry that is left. -/
def mulAdd (b m : Nat) (carry : Nat) : List Nat → List Nat × Nat
  | [] => ([], carry)
  | d :: rest =>
      let higher := mulAdd b m ((m * d + carry) / b) rest
      ((m * d + carry) % b :: higher.1, higher.2)

section MulAdd

variable {b m : Nat}

@[simp]
theorem length_mulAdd (carry : Nat) (low : List Nat) :
    (mulAdd b m carry low).1.length = low.length := by
  induction low generalizing carry with
  | nil => rfl
  | cons d rest ih => rw [mulAdd, List.length_cons, ih, List.length_cons]

theorem digits_mulAdd (hb : 0 < b) (carry : Nat) (low : List Nat) :
    Digits b (mulAdd b m carry low).1 := by
  induction low generalizing carry with
  | nil => exact fun d hd => absurd hd List.not_mem_nil
  | cons d rest ih =>
      intro digit hdigit
      rcases List.mem_cons.mp hdigit with rfl | hrest
      · exact Nat.mod_lt _ hb
      · exact ih _ digit hrest

/-- **Nothing is lost.** -/
theorem mulAdd_spec (carry : Nat) (low : List Nat) :
    Nat.ofDigits b (mulAdd b m carry low).1 + b ^ low.length * (mulAdd b m carry low).2 =
      m * Nat.ofDigits b low + carry := by
  induction low generalizing carry with
  | nil => simp [mulAdd]
  | cons d rest ih =>
      have hrest := ih ((m * d + carry) / b)
      have hdigit := Nat.mod_add_div (m * d + carry) b
      simp only [mulAdd, Nat.ofDigits_cons, List.length_cons, pow_succ]
      calc (m * d + carry) % b + b * Nat.ofDigits b (mulAdd b m ((m * d + carry) / b) rest).1 +
            b ^ rest.length * b * (mulAdd b m ((m * d + carry) / b) rest).2
          = (m * d + carry) % b +
              b * (Nat.ofDigits b (mulAdd b m ((m * d + carry) / b) rest).1 +
                b ^ rest.length * (mulAdd b m ((m * d + carry) / b) rest).2) := by ring
        _ = (m * d + carry) % b + b * (m * Nat.ofDigits b rest + (m * d + carry) / b) := by
            rw [hrest]
        _ = (m * d + carry) % b + b * ((m * d + carry) / b) + b * (m * Nat.ofDigits b rest) := by
            ring
        _ = m * (d + b * Nat.ofDigits b rest) + carry := by
            rw [hdigit]
            ring

/-- No carry is left exactly if the number fits the digits. -/
theorem mulAdd_carry_eq_zero_iff (hb : 1 < b) (carry : Nat) (low : List Nat) :
    (mulAdd b m carry low).2 = 0 ↔ m * Nat.ofDigits b low + carry < b ^ low.length := by
  have hspec := @mulAdd_spec b m carry low
  have hlow := Nat.ofDigits_lt_base_pow_length hb
    (digits_mulAdd (m := m) (Nat.zero_lt_of_lt hb) carry low)
  rw [length_mulAdd] at hlow
  apply Iff.intro
  · intro hzero
    rw [hzero, Nat.mul_zero, Nat.add_zero] at hspec
    rwa [← hspec]
  · intro hfits
    by_contra hcarry
    have hone : b ^ low.length * 1 ≤ b ^ low.length * (mulAdd b m carry low).2 :=
      Nat.mul_le_mul_left _ (Nat.one_le_iff_ne_zero.mpr hcarry)
    omega

/-- Zeros without a carry stay. -/
theorem mulAdd_zeros (count : Nat) :
    mulAdd b m 0 (List.replicate count 0) = (List.replicate count 0, 0) := by
  induction count with
  | zero => rfl
  | succ count ih =>
      rw [List.replicate_succ, mulAdd, Nat.mul_zero, Nat.zero_add, Nat.zero_div, ih, Nat.zero_mod]

end MulAdd

end Radix
