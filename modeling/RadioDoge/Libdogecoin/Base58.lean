/-
# Addresses in base58

An address is the base58 text of a prefix, a hash and a checksum. The encoder computes the digits
in a buffer of bytes, a byte of the input at a time, and leaves out the digits that are still zero;
the decoder computes words of 32 bits. `base58Encode_eq` and `base58Decode_spec` say that both change
the base of a numeral, zeros in front included. The decoder never uses the highest word, so that it
refuses large numbers in short texts. `decoded_iff_encoded` compares the two functions with
checksums.

The double hash is a parameter.
-/

import RadioDoge.Lib.Radix
import RadioDoge.Libdogecoin.Transaction

namespace RadioDoge.Libdogecoin

/-! ## The encoder -/

/-- `b58digits_ordered`. -/
def b58digitsOrdered : Bytes := ascii "123456789ABCDEFGHJKLMNPQRSTUVWXYZabcdefghijkmnopqrstuvwxyz"

/-- A digit as a character. -/
def b58digit (d : Nat) : UInt8 := b58digitsOrdered.getD d 0

/-- The inner loop of `dogecoin_base58_encode`, with the digits from index `j` down to index 0: the
new digits, and the index at which it ends. -/
def encodeLoop (high : Nat) (carry : Nat) : List Nat → List Nat × Nat
  | [] => ([], 0)
  | d :: rest =>
      let j := rest.length
      if j > high ∨ carry ≠ 0 then
        let carry := carry + 256 * d
        -- index 0 ends the loop, whatever is carried
        if j = 0 then (carry % 58 :: rest, 0)
        else
          let lower := encodeLoop high (carry / 58) rest
          (carry % 58 :: lower.1, lower.2)
      else (d :: rest, j)

/-- The outer loop. The digits stand from the last index of the buffer to the first. -/
def encodeBytes (buf : List Nat) (high : Nat) : List Nat → List Nat
  | [] => buf
  | byte :: rest =>
      let next := encodeLoop high byte buf
      encodeBytes next.1 next.2 rest

/-- `dogecoin_base58_encode`: the text, if there is room for it and its NUL, and `*b58sz`. -/
def base58Encode (b58sz : Nat) (bin : Bytes) : Option Bytes × Nat :=
  let zcount := (bin.takeWhile (· == 0)).length
  let size := (bin.length - zcount) * 138 / 100 + 1
  let buf := encodeBytes (List.replicate size 0) (size - 1) ((bin.drop zcount).map (·.toNat))
  let digits := buf.reverse.dropWhile (· == 0)
  (if b58sz ≤ zcount + digits.length then none
    else some (List.replicate zcount 49 ++ digits.map b58digit),
    zcount + digits.length + 1)

/-! ## The decoder -/

/-- `b58digits_map`. -/
def b58digitsMap : List Int :=
  [-1, -1, -1, -1, -1, -1, -1, -1, -1, -1, -1, -1, -1, -1, -1, -1,
    -1, -1, -1, -1, -1, -1, -1, -1, -1, -1, -1, -1, -1, -1, -1, -1,
    -1, -1, -1, -1, -1, -1, -1, -1, -1, -1, -1, -1, -1, -1, -1, -1,
    -1, 0, 1, 2, 3, 4, 5, 6, 7, 8, -1, -1, -1, -1, -1, -1,
    -1, 9, 10, 11, 12, 13, 14, 15, 16, -1, 17, 18, 19, 20, 21, -1,
    22, 23, 24, 25, 26, 27, 28, 29, 30, 31, 32, -1, -1, -1, -1, -1,
    -1, 33, 34, 35, 36, 37, 38, 39, 40, 41, 42, 43, -1, 44, 45, 46,
    47, 48, 49, 50, 51, 52, 53, 54, 55, 56, 57, -1, -1, -1, -1, -1]

/-- The loop of `dogecoin_base58_decode` over the words of `outi`, from the last index to the
first. `--j` ends it before index 0. -/
def decodeLoop (c : Nat) : List Nat → List Nat × Nat
  | [] => ([], c)
  | [word] => ([word], c)
  | word :: rest =>
      let t := word * 58 + c
      let higher := decodeLoop (t / 2 ^ 32) rest
      (t % 2 ^ 32 :: higher.1, higher.2)

/-- The loop over the characters behind the leading ones. -/
def decodeChars (zeromask : Nat) (outi : List Nat) : Bytes → Option (List Nat)
  | [] => some outi
  | char :: rest =>
      if char &&& 0x80 ≠ 0 then none
      else
        let c := b58digitsMap.getD char.toNat (-1)
        if c = -1 then none
        else
          let next := decodeLoop c.toNat outi
          if next.2 ≠ 0 then none
          else if next.1.getLastD 0 &&& zeromask ≠ 0 then none
          else decodeChars zeromask next.1 rest

/-- The lowest `count` bytes of a word, the highest first. -/
def wordBytes : Nat → Nat → Bytes
  | 0, _ => []
  | count + 1, word => wordBytes count (word / 256) ++ [UInt8.ofNat word]

/-- The bits of the highest word that a buffer of `binsz` bytes has no room for. -/
def zeromaskOf (binsz : Nat) : Nat :=
  if binsz % 4 ≠ 0 then 0xffffffff * 2 ^ (binsz % 4 * 8) % 2 ^ 32 else 0

/-- The bytes of the words. -/
def outBytes (binsz : Nat) (outi : List Nat) : Bytes :=
  wordBytes (if binsz % 4 ≠ 0 then binsz % 4 else 4) (outi.getLastD 0) ++
    outi.dropLast.reverse.flatMap (wordBytes 4)

/-- The end of `dogecoin_base58_decode`: so many zeros stand in front of the first byte. -/
def countBytes (zerocount : Nat) (bin : Bytes) : Option (Bytes × Nat) :=
  let i := (bin.takeWhile (· == 0)).length
  if zerocount > i then none else some (bin, bin.length - i + zerocount)

/-- `dogecoin_base58_decode`, of `b58sz` characters into a buffer of `binsz` bytes: the buffer, and
how many of its last bytes count. -/
def base58Decode (binsz : Nat) (b58 : Bytes) : Option (Bytes × Nat) :=
  if binsz = 0 then none
  else
    let zerocount := (b58.takeWhile (· == 49)).length
    (decodeChars (zeromaskOf binsz) (List.replicate ((binsz + 3) / 4) 0)
      (b58.drop zerocount)).bind fun outi => countBytes zerocount (outBytes binsz outi)

/-! ## Checksums -/

/-- The end of `dogecoin_b58check`: behind as many zeros as ones there is neither a zero nor a
one. -/
def b58checkZeros : Bytes → Bytes → Bool
  | 0 :: binc, 49 :: base58str => b58checkZeros binc base58str
  | binc, base58str => ¬ (binc.headD 0 = 0 ∨ base58str.headD 0 = 49)

section Check

variable (dblhash : Bytes → Vector UInt8 32)

/-- The checksum of some bytes. -/
def checksum (data : Bytes) : Bytes := (dblhash data).toList.take 4

/-- `dogecoin_b58check`: whether its result is not negative. -/
def b58check (bin base58str : Bytes) : Bool :=
  if bin.length < 4 then false
  else if bin.drop (bin.length - 4) ≠ checksum dblhash (bin.take (bin.length - 4)) then false
  else b58checkZeros bin base58str

/-- `dogecoin_base58_encode_check`, into a buffer of `strsize` bytes. -/
def base58EncodeCheck (data : Bytes) (strsize : Nat) : Option Bytes :=
  if data.length > 128 then none
  else (base58Encode strsize (data ++ checksum dblhash data)).1

/-- What `dogecoin_base58_decode_check` decodes and moves to the front of its buffer. -/
def base58Bytes (str : Bytes) : Option Bytes :=
  (base58Decode str.length str).map fun decoded => decoded.1.drop (str.length - decoded.2)

/-- `dogecoin_base58_decode_check`, of a C string into a buffer of `datalen` bytes: the bytes, none
if there is a fault. -/
def base58DecodeCheck (str : Bytes) (datalen : Nat) : Bytes :=
  if str.length > 128 ∨ datalen < str.length then []
  else
    match base58Bytes str with
    | none => []
    | some bin => if b58check dblhash bin str then bin else []

end Check

/-! ## The digits of the encoder -/

/-- The highest `count` digits are zero. -/
def TopZero (count : Nat) (low : List Nat) : Prop := ∀ d ∈ low.drop (low.length - count), d = 0

theorem TopZero.tail {count d : Nat} {rest : List Nat} (h : TopZero count (d :: rest)) :
    TopZero count rest := by
  intro digit hdigit
  apply h digit
  rw [List.length_cons]
  by_cases hcount : count ≤ rest.length
  · rwa [Nat.succ_sub hcount, List.drop_succ_cons]
  · rw [Nat.sub_eq_zero_of_le (Nat.not_le.mp hcount), List.drop_zero]
    exact List.mem_cons_of_mem _ (List.mem_of_mem_drop hdigit)

theorem TopZero.cons {count : Nat} {rest : List Nat} (h : TopZero count rest)
    (hcount : count ≤ rest.length) (d : Nat) : TopZero count (d :: rest) := by
  rwa [TopZero, List.length_cons, Nat.succ_sub hcount, List.drop_succ_cons]

theorem TopZero.eq_replicate {count : Nat} {low : List Nat} (h : TopZero count low)
    (hcount : low.length ≤ count) : low = List.replicate low.length 0 := by
  rw [TopZero, Nat.sub_eq_zero_of_le hcount, List.drop_zero] at h
  exact List.eq_replicate_of_mem h

section Loop

variable {high carry : Nat}

/-- The loop stops where nothing is carried into zeros. -/
theorem encodeLoop_of_stops {d : Nat} {rest : List Nat}
    (hstops : ¬ (rest.length > high ∨ carry ≠ 0)) :
    encodeLoop high carry (d :: rest) = (d :: rest, rest.length) := if_neg hstops

/-- Else it computes a digit. -/
theorem encodeLoop_of_goes {d : Nat} {rest : List Nat} (hgoes : rest.length > high ∨ carry ≠ 0) :
    encodeLoop high carry (d :: rest) =
      if rest.length = 0 then ((256 * d + carry) % 58 :: rest, 0)
      else
        ((256 * d + carry) % 58 :: (encodeLoop high ((256 * d + carry) / 58) rest).1,
          (encodeLoop high ((256 * d + carry) / 58) rest).2) := by
  rw [Nat.add_comm]
  exact if_pos hgoes

/-- **The shortened loop.** If the digits from index `high` on are zero, and the product fits, the
loop computes the product; and the digits from the index on at which it ends are zero again, unless
it has gone through all. -/
theorem encodeLoop_spec {low : List Nat} (hzero : TopZero (high + 1) low)
    (hfits : (Radix.mulAdd 58 256 carry low).2 = 0) :
    (encodeLoop high carry low).1 = (Radix.mulAdd 58 256 carry low).1 ∧
      ((encodeLoop high carry low).2 = 0 ∨
        (encodeLoop high carry low).2 < low.length ∧
          TopZero ((encodeLoop high carry low).2 + 1) (encodeLoop high carry low).1) := by
  induction low generalizing carry with
  | nil => exact ⟨rfl, .inl rfl⟩
  | cons d rest ih =>
      by_cases hgoes : rest.length > high ∨ carry ≠ 0
      · rw [encodeLoop_of_goes hgoes]
        by_cases hrest : rest.length = 0
        · rw [if_pos hrest, List.length_eq_zero_iff.mp hrest]
          exact ⟨rfl, .inl rfl⟩
        · rw [if_neg hrest]
          rcases ih hzero.tail hfits with ⟨hdigits, hindex⟩
          refine ⟨congrArg (List.cons _) hdigits, hindex.imp_right ?_⟩
          rintro ⟨hlt, htop⟩
          refine ⟨Nat.lt_succ_of_lt hlt, htop.cons ?_ _⟩
          rw [hdigits, Radix.length_mulAdd]
          exact hlt
      · rw [encodeLoop_of_stops hgoes]
        rcases not_or.mp hgoes with ⟨hshort, hcarry⟩
        rcases not_not.mp hcarry with rfl
        have hall := hzero.eq_replicate (Nat.succ_le_succ (Nat.not_lt.mp hshort))
        rw [hall, Radix.mulAdd_zeros]
        refine ⟨rfl, .inr ⟨?_, ?_⟩⟩
        · rw [List.length_replicate, List.length_cons]
          exact Nat.lt_succ_self _
        · exact fun digit hdigit => List.eq_of_mem_replicate (List.mem_of_mem_drop hdigit)

end Loop

/-- The digits of a byte string, as the encoder has them. -/
structure Buffer (size high : Nat) (buf : List Nat) : Prop where
  length : buf.length = size
  digits : Radix.Digits 58 buf
  high_lt : high < size
  top : high = 0 ∨ TopZero (high + 1) buf

/-- What is left room for is not multiplied into the highest digit. -/
theorem Buffer.topZero {size high carry : Nat} {buf : List Nat} (h : Buffer size high buf)
    (hfits : 256 * Nat.ofDigits 58 buf + carry < 58 ^ size) : TopZero (high + 1) buf := by
  rcases h.top with rfl | htop
  · -- a digit at the highest place would be too much, times 256
    cases buf using List.reverseRecOn with
    | nil => exact fun d hd => absurd (List.mem_of_mem_drop hd) List.not_mem_nil
    | append_singleton front d =>
        have hsize : size = front.length + 1 := by
          rw [← h.length, List.length_append, List.length_singleton]
        rw [Nat.ofDigits_append, Nat.ofDigits_singleton, hsize, pow_succ] at hfits
        have hd : d = 0 := by
          by_contra hne
          have hone : 58 ^ front.length * 1 ≤ 58 ^ front.length * d :=
            Nat.mul_le_mul_left _ (Nat.one_le_iff_ne_zero.mpr hne)
          omega
        intro digit hdigit
        rw [List.length_append, List.length_singleton, Nat.zero_add, Nat.add_sub_cancel,
          List.drop_left, List.mem_singleton] at hdigit
        rw [hdigit, hd]
  · exact htop

/-- **One byte.** -/
theorem Buffer.step {size high byte : Nat} {buf : List Nat} (h : Buffer size high buf)
    (hfits : 256 * Nat.ofDigits 58 buf + byte < 58 ^ size) :
    Buffer size (encodeLoop high byte buf).2 (encodeLoop high byte buf).1 ∧
      Nat.ofDigits 58 (encodeLoop high byte buf).1 = 256 * Nat.ofDigits 58 buf + byte := by
  have hcarry : (Radix.mulAdd 58 256 byte buf).2 = 0 := by
    rw [Radix.mulAdd_carry_eq_zero_iff (by decide), h.length]
    exact hfits
  have hspec := @Radix.mulAdd_spec 58 256 byte buf
  rw [hcarry, Nat.mul_zero, Nat.add_zero] at hspec
  rcases encodeLoop_spec (h.topZero hfits) hcarry with ⟨hdigits, hindex⟩
  refine ⟨⟨?_, ?_, ?_, ?_⟩, ?_⟩
  · rw [hdigits, Radix.length_mulAdd, h.length]
  · rw [hdigits]
    exact Radix.digits_mulAdd (by decide) byte buf
  · rcases hindex with hall | ⟨hlt, -⟩
    · rw [hall]
      exact Nat.zero_lt_of_lt h.high_lt
    · rwa [h.length] at hlt
  · exact hindex.imp_right And.right
  · rw [hdigits, hspec]

/-- **All bytes.** The buffer holds the number that they stand for, if it has room for it. -/
theorem ofDigits_encodeBytes {size high : Nat} {buf : List Nat} (h : Buffer size high buf)
    {bytes : List Nat}
    (hfits : Nat.ofDigits 58 buf * 256 ^ bytes.length + Radix.number 256 bytes < 58 ^ size) :
    Radix.Digits 58 (encodeBytes buf high bytes) ∧
      Nat.ofDigits 58 (encodeBytes buf high bytes) =
        Nat.ofDigits 58 buf * 256 ^ bytes.length + Radix.number 256 bytes := by
  induction bytes generalizing buf high with
  | nil =>
      refine ⟨h.digits, ?_⟩
      rw [List.length_nil, pow_zero, Nat.mul_one, Radix.number_nil, Nat.add_zero]
      rfl
  | cons byte rest ih =>
      have hnumber : Nat.ofDigits 58 buf * 256 ^ (byte :: rest).length +
          Radix.number 256 (byte :: rest) =
          (256 * Nat.ofDigits 58 buf + byte) * 256 ^ rest.length + Radix.number 256 rest := by
        rw [Radix.number_cons, List.length_cons]
        ring
      rw [hnumber] at hfits ⊢
      have hfirst : 256 * Nat.ofDigits 58 buf + byte < 58 ^ size := by
        have hone : 1 ≤ 256 ^ rest.length := Nat.one_le_pow _ _ (by decide)
        have hle := Nat.mul_le_mul_left (256 * Nat.ofDigits 58 buf + byte) hone
        omega
      rcases h.step hfirst with ⟨hbuffer, hvalue⟩
      have hrest := ih hbuffer (by rw [hvalue]; exact hfits)
      rw [hvalue] at hrest
      exact hrest

/-- The size that the encoder takes is enough. -/
theorem pow_lt_size (count : Nat) : 256 ^ count < 58 ^ (count * 138 / 100 + 1) := by
  have hsize : 138 * count < 100 * (count * 138 / 100 + 1) := by omega
  have hhundred : (256 ^ count) ^ 100 < (58 ^ (count * 138 / 100 + 1)) ^ 100 := by
    calc (256 ^ count) ^ 100 = (256 ^ 100) ^ count := by rw [← pow_mul, ← pow_mul, Nat.mul_comm]
      _ ≤ (58 ^ 138) ^ count := Nat.pow_le_pow_left (by norm_num) count
      _ = 58 ^ (138 * count) := by rw [← pow_mul]
      _ < 58 ^ (100 * (count * 138 / 100 + 1)) := Nat.pow_lt_pow_right (by decide) hsize
      _ = (58 ^ (count * 138 / 100 + 1)) ^ 100 := by rw [← pow_mul, Nat.mul_comm]
  exact lt_of_pow_lt_pow_left₀ 100 (Nat.zero_le _) hhundred

/-! ## Texts -/

/-- The bytes as digits. -/
def octets (bin : Bytes) : List Nat := bin.map (·.toNat)

/-- The text of some bytes in base58. -/
def base58Text (bin : Bytes) : Bytes := (Radix.convert 256 58 (octets bin)).map b58digit

theorem digits_octets (bin : Bytes) : Radix.Digits 256 (octets bin) := by
  intro d hd
  rcases List.mem_map.mp hd with ⟨byte, -, rfl⟩
  exact byte.toNat_lt

theorem length_octets (bin : Bytes) : (octets bin).length = bin.length := List.length_map _

theorem octets_injective : Function.Injective octets :=
  List.map_injective_iff.mpr fun _ _ hsame => UInt8.toNat_inj.mp hsame

/-- The leading zeros of the bytes. -/
theorem length_takeWhile_zero (bin : Bytes) :
    (bin.takeWhile (· == 0)).length = Radix.zeros (octets bin) := by
  rw [Radix.zeros, octets, List.takeWhile_map, List.length_map]
  congr 2
  funext byte
  exact decide_eq_decide.mpr UInt8.toNat_inj.symm

/-- **The encoder** writes the bytes as a number of base 58, with its zeros. -/
theorem base58Encode_eq (b58sz : Nat) (bin : Bytes) :
    base58Encode b58sz bin =
      (if b58sz ≤ (base58Text bin).length then none else some (base58Text bin),
        (base58Text bin).length + 1) := by
  let zcount := Radix.zeros (octets bin)
  let rest := (octets bin).drop zcount
  let size := rest.length * 138 / 100 + 1
  let buf := encodeBytes (List.replicate size 0) (size - 1) rest
  have hrest : rest.length = bin.length - zcount := by
    rw [List.length_drop, length_octets]
  have hstart : Buffer size (size - 1) (List.replicate size 0) :=
    { length := List.length_replicate
      digits := fun d hd => by
        rw [List.eq_of_mem_replicate hd]
        decide
      high_lt := Nat.sub_lt (Nat.succ_pos _) Nat.one_pos
      top := .inr fun d hd => List.eq_of_mem_replicate (List.mem_of_mem_drop hd) }
  have hdigits : Radix.Digits 256 rest :=
    fun d hd => digits_octets bin d (List.mem_of_mem_drop hd)
  have hfits : Nat.ofDigits 58 (List.replicate size 0) * 256 ^ rest.length +
      Radix.number 256 rest < 58 ^ size := by
    rw [Nat.ofDigits_replicate_zero, Nat.zero_mul, Nat.zero_add]
    exact Nat.lt_trans (Radix.number_lt (by decide) hdigits) (pow_lt_size rest.length)
  rcases ofDigits_encodeBytes hstart hfits with ⟨hbuf, hvalue⟩
  rw [Nat.ofDigits_replicate_zero, Nat.zero_mul, Nat.zero_add,
    Radix.number_drop_zeros] at hvalue
  have hreverse : Radix.Digits 58 buf.reverse := fun d hd => hbuf d (List.mem_reverse.mp hd)
  have hnumber : buf.reverse.dropWhile (· == 0) =
      (Nat.digits 58 (Radix.number 256 (octets bin))).reverse := by
    rw [Radix.dropWhile_eq (by decide) hreverse, Radix.number, List.reverse_reverse, hvalue]
  have hlength : (base58Text bin).length = zcount + (buf.reverse.dropWhile (· == 0)).length := by
    rw [base58Text, List.length_map, Radix.convert, Radix.length_write, hnumber,
      List.length_reverse]
  have htext : base58Text bin =
      List.replicate zcount 49 ++ (buf.reverse.dropWhile (· == 0)).map b58digit := by
    rw [base58Text, Radix.convert, Radix.write, List.map_append, List.map_replicate, hnumber]
    rfl
  have hcode : base58Encode b58sz bin =
      (if b58sz ≤ zcount + (buf.reverse.dropWhile (· == 0)).length then none
        else some (List.replicate zcount 49 ++ (buf.reverse.dropWhile (· == 0)).map b58digit),
        zcount + (buf.reverse.dropWhile (· == 0)).length + 1) := by
    rw [base58Encode, length_takeWhile_zero, List.map_drop, ← hrest]
    rfl
  rw [hcode, ← hlength, ← htext]

/-! ## Characters -/

/-- The two tables agree. -/
theorem digit_b58digit :
    ∀ d < 58, b58digit d &&& 0x80 = 0 ∧ b58digitsMap.getD (b58digit d).toNat (-1) = d := by
  decide +kernel

/-- What has a digit is one of the characters. -/
theorem exists_digit :
    ∀ n < 256, UInt8.ofNat n &&& 0x80 = 0 → b58digitsMap.getD n (-1) ≠ -1 →
      ∃ d < 58, b58digit d = UInt8.ofNat n := by
  decide +kernel

theorem b58digit_eq_one_iff {d : Nat} (hd : d < 58) : b58digit d = 49 ↔ d = 0 := by
  have hall : ∀ d < 58, (b58digit d = 49 ↔ d = 0) := by decide +kernel
  exact hall d hd

/-- The leading ones of a text. -/
theorem length_takeWhile_one {numeral : List Nat} (hdigits : Radix.Digits 58 numeral) :
    ((numeral.map b58digit).takeWhile (· == 49)).length = Radix.zeros numeral := by
  rw [Radix.zeros]
  induction numeral with
  | nil => rfl
  | cons d rest ih =>
      have hone := b58digit_eq_one_iff (hdigits d List.mem_cons_self)
      by_cases hd : d = 0
      · rw [List.map_cons, List.takeWhile_cons_of_pos (by simpa using hone.mpr hd),
          List.takeWhile_cons_of_pos (by simpa using hd), List.length_cons, List.length_cons,
          ih fun d hmem => hdigits d (List.mem_cons_of_mem _ hmem)]
      · rw [List.map_cons, List.takeWhile_cons_of_neg (by simpa using mt hone.mp hd),
          List.takeWhile_cons_of_neg (by simpa using hd)]
        rfl

/-! ## The words of the decoder -/

/-- The loop leaves the word at index 0 alone. -/
theorem decodeLoop_concat (c : Nat) (low : List Nat) (word0 : Nat) :
    decodeLoop c (low ++ [word0]) =
      ((Radix.mulAdd (2 ^ 32) 58 c low).1 ++ [word0], (Radix.mulAdd (2 ^ 32) 58 c low).2) := by
  induction low generalizing c with
  | nil => rfl
  | cons word rest ih =>
      have hcons : ∀ (word c : Nat) (words : List Nat), words ≠ [] →
          decodeLoop c (word :: words) =
            ((58 * word + c) % 2 ^ 32 :: (decodeLoop ((58 * word + c) / 2 ^ 32) words).1,
              (decodeLoop ((58 * word + c) / 2 ^ 32) words).2) := by
        intro word c words hne
        rw [Nat.mul_comm 58 word]
        cases words with
        | nil => exact absurd rfl hne
        | cons next words => rfl
      rw [List.cons_append, hcons _ _ _ (by simp), ih]
      rfl

section Chars

variable {zeromask : Nat} {low : List Nat}

/-- A digit is added, if there is room for it below the word at index 0. -/
theorem decodeChars_cons {d : Nat} (hd : d < 58) (chars : Bytes) :
    decodeChars zeromask (low ++ [0]) (b58digit d :: chars) =
      if 58 * Nat.ofDigits (2 ^ 32) low + d < (2 ^ 32) ^ low.length then
        decodeChars zeromask ((Radix.mulAdd (2 ^ 32) 58 d low).1 ++ [0]) chars
      else none := by
  rcases digit_b58digit d hd with ⟨hbit, hmap⟩
  have hdigit : (d : Int) ≠ -1 := by omega
  have hroom := @Radix.mulAdd_carry_eq_zero_iff (2 ^ 32) 58 (by decide) d low
  rw [decodeChars, if_neg (not_not.mpr hbit)]
  simp only [hmap, if_neg hdigit, Int.toNat_natCast, decodeLoop_concat, List.getLastD_concat,
    Nat.zero_and, ne_eq, not_true_eq_false, if_false]
  by_cases hfits : 58 * Nat.ofDigits (2 ^ 32) low + d < (2 ^ 32) ^ low.length
  · rw [if_neg (not_not.mpr (hroom.mpr hfits)), if_pos hfits]
  · rw [if_pos (mt hroom.mp hfits), if_neg hfits]

/-- **All characters.** The words hold the number of the text, if they have room for it below the
word at index 0. -/
theorem decodeChars_spec {numeral : List Nat} (hdigits : Radix.Digits 58 numeral)
    (hwords : Radix.Digits (2 ^ 32) low) :
    let n := Nat.ofDigits (2 ^ 32) low * 58 ^ numeral.length + Radix.number 58 numeral
    (n < (2 ^ 32) ^ low.length →
      ∃ words, decodeChars zeromask (low ++ [0]) (numeral.map b58digit) = some (words ++ [0]) ∧
        words.length = low.length ∧ Radix.Digits (2 ^ 32) words ∧
          Nat.ofDigits (2 ^ 32) words = n) ∧
      (¬ n < (2 ^ 32) ^ low.length →
        decodeChars zeromask (low ++ [0]) (numeral.map b58digit) = none) := by
  induction numeral generalizing low with
  | nil =>
      have hlow := Nat.ofDigits_lt_base_pow_length (by decide) hwords
      simp only [List.length_nil, pow_zero, Nat.mul_one, Radix.number_nil, Nat.add_zero]
      exact ⟨fun _ => ⟨low, rfl, rfl, hwords, rfl⟩, fun hnot => absurd hlow hnot⟩
  | cons d rest ih =>
      have hd := hdigits d List.mem_cons_self
      have hrest : Radix.Digits 58 rest := fun d hmem => hdigits d (List.mem_cons_of_mem _ hmem)
      have hnumber : Nat.ofDigits (2 ^ 32) low * 58 ^ (d :: rest).length +
          Radix.number 58 (d :: rest) =
          (58 * Nat.ofDigits (2 ^ 32) low + d) * 58 ^ rest.length + Radix.number 58 rest := by
        rw [Radix.number_cons, List.length_cons]
        ring
      have hle : 58 * Nat.ofDigits (2 ^ 32) low + d ≤
          (58 * Nat.ofDigits (2 ^ 32) low + d) * 58 ^ rest.length + Radix.number 58 rest := by
        have hone : 1 ≤ 58 ^ rest.length := Nat.one_le_pow _ _ (by decide)
        have := Nat.mul_le_mul_left (58 * Nat.ofDigits (2 ^ 32) low + d) hone
        omega
      rw [hnumber, List.map_cons, decodeChars_cons hd]
      by_cases hfirst : 58 * Nat.ofDigits (2 ^ 32) low + d < (2 ^ 32) ^ low.length
      · have hspec := @Radix.mulAdd_spec (2 ^ 32) 58 d low
        rw [(Radix.mulAdd_carry_eq_zero_iff (by decide) d low).mpr hfirst, Nat.mul_zero,
          Nat.add_zero] at hspec
        have hnext := ih hrest (Radix.digits_mulAdd (m := 58) (by decide) d low)
        simp only [hspec, Radix.length_mulAdd] at hnext
        rw [if_pos hfirst]
        exact hnext
      · rw [if_neg hfirst]
        exact ⟨fun hfits => absurd (Nat.lt_of_le_of_lt hle hfits) hfirst, fun _ => rfl⟩

/-- Only texts of base 58 are decoded. -/
theorem exists_numeral {outi words : List Nat} {chars : Bytes}
    (hdecode : decodeChars zeromask outi chars = some words) :
    ∃ numeral, Radix.Digits 58 numeral ∧ chars = numeral.map b58digit := by
  induction chars generalizing outi with
  | nil => exact ⟨[], fun d hd => absurd hd List.not_mem_nil, rfl⟩
  | cons char rest ih =>
      rw [decodeChars] at hdecode
      split at hdecode
      · cases hdecode
      next hbit =>
      simp only at hdecode
      split at hdecode
      · cases hdecode
      next hmap =>
      have hchar := exists_digit char.toNat char.toNat_lt
      rw [UInt8.ofNat_toNat] at hchar
      rcases hchar (not_not.mp hbit) hmap with ⟨d, hd, hdigit⟩
      split at hdecode
      · cases hdecode
      split at hdecode
      · cases hdecode
      rcases ih hdecode with ⟨numeral, hdigits, hrest⟩
      refine ⟨d :: numeral, ?_, ?_⟩
      · exact List.forall_mem_cons.mpr ⟨hd, hdigits⟩
      · rw [List.map_cons, hdigit, hrest]

end Chars

/-! ## The bytes of the decoder -/

theorem length_wordBytes (count word : Nat) : (wordBytes count word).length = count := by
  induction count generalizing word with
  | zero => rfl
  | succ count ih => rw [wordBytes, List.length_append, ih, List.length_singleton]

/-- The bytes of a word. -/
theorem number_wordBytes (count word : Nat) :
    Radix.number 256 (octets (wordBytes count word)) = word % 256 ^ count := by
  induction count generalizing word with
  | zero => rw [pow_zero, Nat.mod_one, wordBytes, octets, List.map_nil, Radix.number_nil]
  | succ count ih =>
      have hoctets : octets (wordBytes (count + 1) word) =
          octets (wordBytes count (word / 256)) ++ [word % 256] := by
        rw [wordBytes, octets, List.map_append, List.map_singleton, UInt8.toNat_ofNat']
        rfl
      rw [hoctets, Radix.number_concat, ih, pow_succ, Nat.mul_comm (256 ^ count),
        Nat.mod_mul, Nat.add_comm]

/-- The bytes of words. -/
theorem number_flatMap_wordBytes {words : List Nat} (hwords : Radix.Digits (2 ^ 32) words) :
    Radix.number 256 (octets (words.flatMap (wordBytes 4))) = Radix.number (2 ^ 32) words ∧
      (words.flatMap (wordBytes 4)).length = 4 * words.length := by
  induction words with
  | nil => exact ⟨rfl, rfl⟩
  | cons word rest ih =>
      rcases ih fun word hmem => hwords word (List.mem_cons_of_mem _ hmem) with ⟨hnumber, hlength⟩
      have hword : word % 256 ^ 4 = word := by
        apply Nat.mod_eq_of_lt
        have hlt := hwords word List.mem_cons_self
        norm_num at hlt ⊢
        exact hlt
      have hoctets : octets ((word :: rest).flatMap (wordBytes 4)) =
          octets (wordBytes 4 word) ++ octets (rest.flatMap (wordBytes 4)) := by
        rw [List.flatMap_cons, octets, List.map_append]
        rfl
      have hpow : (256 : Nat) ^ (4 * rest.length) = (2 ^ 32) ^ rest.length := by
        rw [pow_mul]
        norm_num
      apply And.intro
      · rw [hoctets, Radix.number_append, number_wordBytes, hword, hnumber, length_octets, hlength,
          hpow, Radix.number_cons]
      · rw [List.flatMap_cons, List.length_append, length_wordBytes, hlength, List.length_cons]
        omega

/-- There is room for the number of a text. -/
def Roomy (str : Bytes) (n : Nat) : Prop := n < (2 ^ 32) ^ ((str.length + 3) / 4 - 1)

/-- A text of 13 characters or more has room. -/
theorem roomy_of_long {numeral : List Nat} (hdigits : Radix.Digits 58 numeral)
    (hlong : 13 ≤ numeral.length) :
    Roomy (numeral.map b58digit) (Radix.number 58 numeral) := by
  have hbits : 6 * numeral.length ≤ 32 * ((numeral.length + 3) / 4 - 1) := by omega
  rw [Roomy, List.length_map]
  calc Radix.number 58 numeral < 58 ^ numeral.length := Radix.number_lt (by decide) hdigits
    _ ≤ (2 ^ 6) ^ numeral.length := Nat.pow_le_pow_left (by decide) _
    _ = 2 ^ (6 * numeral.length) := by rw [← pow_mul]
    _ ≤ 2 ^ (32 * ((numeral.length + 3) / 4 - 1)) := Nat.pow_le_pow_right (by decide) hbits
    _ = (2 ^ 32) ^ ((numeral.length + 3) / 4 - 1) := by rw [pow_mul]

/-- The bytes of words whose highest is zero. -/
theorem outBytes_concat {binsz : Nat} (hpos : 0 < binsz) {words : List Nat}
    (hwords : Radix.Digits (2 ^ 32) words) (hcount : words.length = (binsz + 3) / 4 - 1) :
    (outBytes binsz (words ++ [0])).length = binsz ∧
      Radix.number 256 (octets (outBytes binsz (words ++ [0]))) = Nat.ofDigits (2 ^ 32) words := by
  have hreverse : Radix.Digits (2 ^ 32) words.reverse :=
    fun word hmem => hwords word (List.mem_reverse.mp hmem)
  rcases number_flatMap_wordBytes hreverse with ⟨hnumber, hlength⟩
  rw [outBytes, List.getLastD_concat, List.dropLast_concat]
  apply And.intro
  · rw [List.length_append, length_wordBytes, hlength, List.length_reverse, hcount]
    split <;> omega
  · rw [octets, List.map_append, Radix.number_append]
    change Radix.number 256 (octets (wordBytes _ 0)) * _ +
      Radix.number 256 (octets (words.reverse.flatMap (wordBytes 4))) = _
    rw [number_wordBytes, Nat.zero_mod, Nat.zero_mul, Nat.zero_add, hnumber, Radix.number,
      List.reverse_reverse]

/-- The bytes that count are the number with so many zeros. -/
theorem countBytes_eq {zerocount : Nat} {bin : Bytes}
    (hroom : zerocount + (Nat.digits 256 (Radix.number 256 (octets bin))).length ≤ bin.length) :
    ∃ binsize, countBytes zerocount bin = some (bin, binsize) ∧
      octets (bin.drop (bin.length - binsize)) =
        Radix.write 256 zerocount (Radix.number 256 (octets bin)) := by
  let i := Radix.zeros (octets bin)
  have hdigits := Radix.length_digits_number (by decide) (digits_octets bin)
  rw [length_octets] at hdigits
  have hzeros : zerocount ≤ i := by omega
  have hsize : bin.length - (bin.length - i + zerocount) = i - zerocount := by omega
  refine ⟨bin.length - i + zerocount, ?_, ?_⟩
  · rw [countBytes, length_takeWhile_zero]
    exact if_neg (Nat.not_lt.mpr hzeros)
  · have hbin : octets bin = List.replicate (i - zerocount) 0 ++
        Radix.write 256 zerocount (Radix.number 256 (octets bin)) := by
      rw [Radix.write, ← List.append_assoc, List.replicate_append_replicate,
        Nat.sub_add_cancel hzeros]
      exact (Radix.write_zeros_number (by decide) (digits_octets bin)).symm
    calc octets (bin.drop (bin.length - (bin.length - i + zerocount)))
        = (octets bin).drop (i - zerocount) := by rw [hsize, octets, List.map_drop, octets]
      _ = Radix.write 256 zerocount (Radix.number 256 (octets bin)) :=
        (congrArg (List.drop _) hbin).trans (List.drop_left' List.length_replicate)

/-- **The decoder** writes the number of a text as bytes, with its zeros, if there is room. -/
theorem base58Decode_spec {numeral : List Nat} (hdigits : Radix.Digits 58 numeral)
    (hne : numeral ≠ []) :
    let str := numeral.map b58digit
    (Roomy str (Radix.number 58 numeral) →
      ∃ bin binsize, base58Decode str.length str = some (bin, binsize) ∧
        bin.length = str.length ∧
          octets (bin.drop (str.length - binsize)) = Radix.convert 58 256 numeral) ∧
      (¬ Roomy str (Radix.number 58 numeral) → base58Decode str.length str = none) := by
  intro str
  let zerocount := Radix.zeros numeral
  let count := (str.length + 3) / 4 - 1
  have hlength : str.length = numeral.length := List.length_map _
  have hpos : 0 < str.length := hlength ▸ List.length_pos_iff.mpr hne
  have houtisz : (str.length + 3) / 4 = count + 1 := by omega
  have hrest : Radix.Digits 58 (numeral.drop zerocount) :=
    fun d hd => hdigits d (List.mem_of_mem_drop hd)
  have hnumber : Radix.number 58 (numeral.drop zerocount) = Radix.number 58 numeral :=
    Radix.number_drop_zeros numeral
  have hzero : Radix.Digits (2 ^ 32) (List.replicate count 0) := by
    intro d hd
    rw [List.eq_of_mem_replicate hd]
    decide
  have hchars := @decodeChars_spec (zeromaskOf str.length) (List.replicate count 0)
    (numeral.drop zerocount) hrest hzero
  simp only [Nat.ofDigits_replicate_zero, Nat.zero_mul, Nat.zero_add, hnumber,
    List.length_replicate] at hchars
  have hcode : base58Decode str.length str =
      (decodeChars (zeromaskOf str.length) (List.replicate count 0 ++ [0])
        ((numeral.drop zerocount).map b58digit)).bind
          fun outi => countBytes zerocount (outBytes str.length outi) := by
    rw [base58Decode, if_neg (Nat.ne_of_gt hpos)]
    simp only [str, length_takeWhile_one hdigits]
    rw [houtisz, List.replicate_succ', List.map_drop]
  apply And.intro
  · intro hroomy
    rcases hchars.1 hroomy with ⟨words, hwords, hcount, hdigitsWords, hvalue⟩
    rcases outBytes_concat hpos hdigitsWords hcount with ⟨hbin, hbytes⟩
    rw [hvalue] at hbytes
    have hroom : zerocount +
        (Nat.digits 256 (Radix.number 256 (octets (outBytes str.length (words ++ [0]))))).length ≤
          (outBytes str.length (words ++ [0])).length := by
      rw [hbytes, hbin, hlength, ← Radix.length_digits_number (by decide) hdigits]
      exact Nat.add_le_add_left (Radix.length_digits_le (by decide) (by decide) _) _
    rcases countBytes_eq hroom with ⟨binsize, hcounted, hoctets⟩
    refine ⟨_, binsize, ?_, hbin, ?_⟩
    · rw [hcode, hwords]
      exact hcounted
    · rw [hbin, hbytes] at hoctets
      exact hoctets
  · intro hnot
    rw [hcode, hchars.2 hnot]
    rfl

/-! ## Round trips -/

/-- The digits of a text. -/
theorem base58Text_spec (bin : Bytes) :
    Radix.Digits 58 (Radix.convert 256 58 (octets bin)) ∧
      Radix.number 58 (Radix.convert 256 58 (octets bin)) = Radix.number 256 (octets bin) ∧
        Radix.convert 58 256 (Radix.convert 256 58 (octets bin)) = octets bin :=
  ⟨Radix.digits_convert (by decide) _, Radix.number_write _ _,
    Radix.convert_convert (by decide) (digits_octets bin)⟩

/-- **Texts and bytes.** A text is decoded to some bytes exactly if it is their text, and there is
room for their number. -/
theorem base58Bytes_eq_some_iff (str bin : Bytes) :
    base58Bytes str = some bin ↔
      str ≠ [] ∧ str = base58Text bin ∧ Roomy str (Radix.number 256 (octets bin)) := by
  apply Iff.intro
  · intro hbytes
    rcases Option.map_eq_some_iff.mp hbytes with ⟨decoded, hdecode, hbin⟩
    have hne : str ≠ [] := by
      intro hnil
      rw [hnil] at hdecode
      cases hdecode
    have hnumeral : ∃ numeral, Radix.Digits 58 numeral ∧ str = numeral.map b58digit := by
      rw [base58Decode, if_neg (mt List.length_eq_zero_iff.mp hne)] at hdecode
      rcases Option.bind_eq_some_iff.mp hdecode with ⟨outi, hchars, -⟩
      rcases exists_numeral hchars with ⟨rest, hdigits, hrest⟩
      refine ⟨List.replicate (str.takeWhile (· == 49)).length 0 ++ rest, ?_, ?_⟩
      · intro d hd
        rcases List.mem_append.mp hd with hzero | hmem
        · rw [List.eq_of_mem_replicate hzero]
          decide
        · exact hdigits d hmem
      · have hones : str.takeWhile (· == 49) =
            List.replicate (str.takeWhile (· == 49)).length 49 :=
          List.eq_replicate_of_mem fun char hchar => by simpa using List.mem_takeWhile_imp hchar
        have hdrop : str.drop (str.takeWhile (· == 49)).length = str.dropWhile (· == 49) := by
          calc str.drop (str.takeWhile (· == 49)).length
              = (str.takeWhile (· == 49) ++ str.dropWhile (· == 49)).drop
                  (str.takeWhile (· == 49)).length := by rw [List.takeWhile_append_dropWhile]
            _ = str.dropWhile (· == 49) := List.drop_left
        rw [List.map_append, List.map_replicate, ← hrest, hdrop]
        change str = List.replicate _ 49 ++ _
        rw [← hones, List.takeWhile_append_dropWhile]
    rcases hnumeral with ⟨numeral, hdigits, rfl⟩
    have hspec := base58Decode_spec hdigits (fun hnil => hne (by rw [hnil]; rfl))
    by_cases hroomy : Roomy (numeral.map b58digit) (Radix.number 58 numeral)
    · rcases hspec.1 hroomy with ⟨data, binsize, hdata, -, hoctets⟩
      rw [hdata] at hdecode
      rcases Option.some.inj hdecode with rfl
      rw [hbin] at hoctets
      refine ⟨hne, ?_, ?_⟩
      · rw [base58Text, hoctets, Radix.convert_convert (by decide) hdigits]
      · rw [hoctets, Radix.convert, Radix.number_write]
        exact hroomy
    · rw [hspec.2 hroomy] at hdecode
      cases hdecode
  · rintro ⟨hne, htext, hroomy⟩
    rcases base58Text_spec bin with ⟨hdigits, hnumber, hback⟩
    have hnil : Radix.convert 256 58 (octets bin) ≠ [] := by
      intro hnil
      rw [htext, base58Text, hnil] at hne
      exact hne rfl
    rw [htext, base58Text] at hroomy ⊢
    rw [← hnumber] at hroomy
    rcases (base58Decode_spec hdigits hnil).1 hroomy with ⟨data, binsize, hdata, -, hoctets⟩
    rw [hback] at hoctets
    rw [base58Bytes, hdata, Option.map_some]
    exact congrArg some (octets_injective hoctets)

/-- What `dogecoin_b58check` asks of the zeros. -/
theorem b58checkZeros_iff (binc base58str : Bytes) :
    b58checkZeros binc base58str = true ↔
      (binc.takeWhile (· == 0)).length = (base58str.takeWhile (· == 49)).length ∧
        ∃ byte ∈ binc, byte ≠ 0 := by
  fun_induction b58checkZeros binc base58str with
  | case1 binc base58str ih =>
      rw [ih, List.takeWhile_cons_of_pos rfl, List.takeWhile_cons_of_pos rfl, List.length_cons,
        List.length_cons, Nat.succ_inj, List.exists_mem_cons_iff]
      simp
  | case2 binc base58str hnot =>
      rw [decide_eq_true_eq, not_or]
      cases binc with
      | nil => simp
      | cons byte binc =>
          cases base58str with
          | nil => by_cases hbyte : byte = 0 <;> simp [hbyte]
          | cons char base58str =>
              by_cases hbyte : byte = 0
              · by_cases hchar : char = 49
                · exact absurd hchar fun hchar => hnot binc base58str (by rw [hbyte]) (by rw [hchar])
                · simp [hbyte, hchar]
              · by_cases hchar : char = 49 <;> simp [hbyte, hchar]

/-! ## Bytes with their checksum -/

section Checked

variable (dblhash : Bytes → Vector UInt8 32)

/-- The bytes of a text that `dogecoin_base58_encode_check` makes of data that is not all zero. -/
def CheckedBytes (bin : Bytes) : Prop :=
  (∃ data, bin = data ++ checksum dblhash data) ∧ ∃ byte ∈ bin, byte ≠ 0

theorem length_checksum (data : Bytes) : (checksum dblhash data).length = 4 := by
  rw [checksum, List.length_take, Vector.length_toList]
  rfl

/-- The last four bytes are the checksum of the others. -/
theorem drop_eq_checksum_iff (bin : Bytes) :
    4 ≤ bin.length ∧
        bin.drop (bin.length - 4) = checksum dblhash (bin.take (bin.length - 4)) ↔
      ∃ data, bin = data ++ checksum dblhash data := by
  apply Iff.intro
  · rintro ⟨-, hchecksum⟩
    exact ⟨bin.take (bin.length - 4), by rw [← hchecksum, List.take_append_drop]⟩
  · rintro ⟨data, rfl⟩
    rw [List.length_append, length_checksum, Nat.add_sub_cancel, List.drop_left, List.take_left]
    exact ⟨Nat.le_add_left 4 _, rfl⟩

/-- A text has as many leading ones as its bytes have zeros. -/
theorem length_takeWhile_base58Text (bin : Bytes) :
    ((base58Text bin).takeWhile (· == 49)).length = (bin.takeWhile (· == 0)).length := by
  rw [base58Text, length_takeWhile_one (base58Text_spec bin).1, Radix.convert, Radix.zeros_write,
    length_takeWhile_zero]

/-- A text is not shorter than its bytes. -/
theorem length_le_base58Text (data rest : Bytes) :
    data.length ≤ (base58Text (data ++ rest)).length := by
  have hlength : (octets (data ++ rest)).length ≤
      (Radix.convert 256 58 (octets (data ++ rest))).length :=
    Radix.length_le_convert (by decide) (by decide) (digits_octets _)
  rw [length_octets, List.length_append] at hlength
  rw [base58Text, List.length_map]
  exact (Nat.le_add_right _ _).trans hlength

/-- The check of a text of the bytes. -/
theorem b58check_base58Text_iff (bin : Bytes) :
    b58check dblhash bin (base58Text bin) = true ↔ CheckedBytes dblhash bin := by
  have hzeros : b58checkZeros bin (base58Text bin) = true ↔ ∃ byte ∈ bin, byte ≠ 0 := by
    rw [b58checkZeros_iff, length_takeWhile_base58Text]
    exact and_iff_right rfl
  rw [b58check, CheckedBytes, ← drop_eq_checksum_iff, ← hzeros]
  by_cases hshort : bin.length < 4
  · rw [if_pos hshort]
    exact iff_of_false Bool.false_ne_true fun h => absurd h.1.1 (Nat.not_le.mpr hshort)
  · rw [if_neg hshort, and_iff_right (Nat.not_lt.mp hshort)]
    by_cases hchecksum :
        bin.drop (bin.length - 4) = checksum dblhash (bin.take (bin.length - 4))
    · rw [if_neg (not_not.mpr hchecksum)]
      exact (and_iff_right hchecksum).symm
    · rw [if_pos hchecksum]
      exact iff_of_false Bool.false_ne_true fun h => absurd h.1 hchecksum

/-- **What is decoded.** A text is decoded to some bytes exactly if it is their text, they end with
their checksum and are not all zero, and there is room. -/
theorem base58DecodeCheck_eq_iff {str bin : Bytes} {datalen : Nat} (hne : bin ≠ []) :
    base58DecodeCheck dblhash str datalen = bin ↔
      str = base58Text bin ∧ CheckedBytes dblhash bin ∧ str.length ≤ 128 ∧ str.length ≤ datalen ∧
        Roomy str (Radix.number 256 (octets bin)) := by
  rw [base58DecodeCheck]
  by_cases hlong : str.length > 128 ∨ datalen < str.length
  · rw [if_pos hlong]
    refine iff_of_false hne.symm ?_
    rintro ⟨-, -, hsmall, hfits, -⟩
    exact hlong.elim (Nat.not_lt.mpr hsmall) (Nat.not_lt.mpr hfits)
  · rw [if_neg hlong]
    rcases not_or.mp hlong with ⟨hsmall, hfits⟩
    apply Iff.intro
    · intro hdecoded
      cases hbytes : base58Bytes str with
      | none =>
          rw [hbytes] at hdecoded
          exact absurd hdecoded.symm hne
      | some bytes =>
          simp only [hbytes] at hdecoded
          split at hdecoded
          · next hcheck =>
              rcases hdecoded with rfl
              rcases (base58Bytes_eq_some_iff _ _).mp hbytes with ⟨-, htext, hroomy⟩
              rw [htext, b58check_base58Text_iff] at hcheck
              exact ⟨htext, hcheck, Nat.not_lt.mp hsmall, Nat.not_lt.mp hfits, hroomy⟩
          · exact absurd hdecoded.symm hne
    · rintro ⟨htext, hchecked, -, -, hroomy⟩
      have hstr : str ≠ [] := by
        intro hnil
        have hlength := length_le_base58Text bin []
        rw [List.append_nil, ← htext, hnil] at hlength
        exact hne (List.eq_nil_of_length_eq_zero (Nat.le_zero.mp hlength))
      rw [(base58Bytes_eq_some_iff _ _).mpr ⟨hstr, htext, hroomy⟩]
      simp only
      rw [if_pos]
      rw [htext]
      exact (b58check_base58Text_iff dblhash bin).mpr hchecked

theorem base58EncodeCheck_eq_some_iff {data str : Bytes} {strsize : Nat} :
    base58EncodeCheck dblhash data strsize = some str ↔
      data.length ≤ 128 ∧ str.length < strsize ∧
        str = base58Text (data ++ checksum dblhash data) := by
  rw [base58EncodeCheck, base58Encode_eq]
  by_cases hlong : data.length > 128
  · rw [if_pos hlong]
    exact iff_of_false (fun h => by cases h) fun h => absurd h.1 (Nat.not_le.mpr hlong)
  · rw [if_neg hlong, and_iff_right (Nat.not_lt.mp hlong)]
    simp only
    by_cases hroom : strsize ≤ (base58Text (data ++ checksum dblhash data)).length
    · rw [if_pos hroom]
      refine iff_of_false (fun h => by cases h) ?_
      rintro ⟨hlt, rfl⟩
      exact absurd hlt (Nat.not_lt.mpr hroom)
    · rw [if_neg hroom, Option.some_inj]
      apply Iff.intro
      · rintro rfl
        exact ⟨Nat.not_le.mp hroom, rfl⟩
      · exact fun h => h.2.symm

/-- **The decoder and the encoder.** A text is decoded to data with its checksum exactly if it is
what the data is encoded to, with a byte that is not zero, and there is room. -/
theorem decoded_iff_encoded (str data : Bytes) (datalen : Nat) :
    base58DecodeCheck dblhash str datalen = data ++ checksum dblhash data ↔
      base58EncodeCheck dblhash data (str.length + 1) = some str ∧
        (∃ byte ∈ data ++ checksum dblhash data, byte ≠ 0) ∧ str.length ≤ 128 ∧
          str.length ≤ datalen ∧
            Roomy str (Radix.number 256 (octets (data ++ checksum dblhash data))) := by
  have hne : data ++ checksum dblhash data ≠ [] := by
    intro hnil
    have hlength := length_checksum dblhash data
    rw [(List.append_eq_nil_iff.mp hnil).2] at hlength
    cases hlength
  rw [base58DecodeCheck_eq_iff dblhash hne, base58EncodeCheck_eq_some_iff]
  apply Iff.intro
  · rintro ⟨htext, ⟨-, hbyte⟩, hshort, hfits, hroomy⟩
    refine ⟨⟨?_, Nat.lt_succ_self _, htext⟩, hbyte, hshort, hfits, hroomy⟩
    exact (length_le_base58Text data _).trans (htext ▸ hshort)
  · rintro ⟨⟨-, -, htext⟩, hbyte, hshort, hfits, hroomy⟩
    exact ⟨htext, ⟨⟨data, rfl⟩, hbyte⟩, hshort, hfits, hroomy⟩

/-- **Round trip.** What is encoded with a checksum is decoded to the data and the checksum, if the
text has 13 to 128 characters and the data is not all zero. -/
theorem base58DecodeCheck_encodeCheck {data str : Bytes} {strsize datalen : Nat}
    (hencoded : base58EncodeCheck dblhash data strsize = some str)
    (hnonzero : ∃ byte ∈ data, byte ≠ 0) (hlong : 13 ≤ str.length) (hshort : str.length ≤ 128)
    (hfits : str.length ≤ datalen) :
    base58DecodeCheck dblhash str datalen = data ++ checksum dblhash data := by
  rcases (base58EncodeCheck_eq_some_iff dblhash).mp hencoded with ⟨-, -, rfl⟩
  rcases hnonzero with ⟨byte, hmem, hbyte⟩
  rcases base58Text_spec (data ++ checksum dblhash data) with ⟨hdigits, hnumber, -⟩
  have hbin : data ++ checksum dblhash data ≠ [] :=
    List.ne_nil_of_mem (List.mem_append_left _ hmem)
  have hroomy := roomy_of_long hdigits (by rwa [base58Text, List.length_map] at hlong)
  rw [hnumber] at hroomy
  exact (base58DecodeCheck_eq_iff dblhash hbin).mpr ⟨rfl,
    ⟨⟨data, rfl⟩, byte, List.mem_append_left _ hmem, hbyte⟩, hshort, hfits, hroomy⟩

end Checked

end RadioDoge.Libdogecoin
