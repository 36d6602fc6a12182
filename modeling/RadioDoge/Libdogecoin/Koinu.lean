/-
# Amounts as texts

libdogecoin converts between an amount in koinu and its text in coins, with eight places behind
the point. `koinu_to_coins_str` writes into a buffer of the caller, and ends the text of a small
amount only if the buffer has a NUL there already. `coins_to_koinu_str` reads 22 characters at
most; it takes the whole coins and the koinu apart, and adds them up in 64 bits.

Two amounts count as errors in both directions. Every other amount of a coin or more is read back
from its text, and a smaller one if the text happens to end in time: `readsBack_iff`.
-/

import RadioDoge.Arduino
import RadioDoge.Lib.Numeral

namespace RadioDoge.Libdogecoin

open Numeral

/-! ## Validation -/

/-- `enum conversion_type`, as far as it is used. -/
inductive ConversionType
  | success
  | nonDecimal
  | invalidStrTermination
  | outOfRange
  | overflow
  | underflow
  deriving DecidableEq, Repr

/-- What `strtoull` returns: the number, the text behind it, and whether `errno` is `ERANGE`. -/
structure Converted where
  number : UInt64
  srcEnd : Bytes
  outOfRange : Bool
  deriving DecidableEq, Repr

/-- `validate_conversion`. Later findings replace earlier ones. The pointers are passed together
or not at all, and `target_end` is an empty text. -/
def validateConversion (converted : UInt64) (rangeError : Bool) (ends : Option (Bytes × Bytes)) :
    ConversionType :=
  let type :=
    match ends with
    | none => ConversionType.success
    | some (src, srcEnd) =>
        let type := if srcEnd.length = src.length then .nonDecimal else .success
        if srcEnd ≠ [] then .invalidStrTermination else type
  let type := if converted = 0xFFFFFFFFFFFFFFFF ∧ rangeError then .outOfRange else type
  let type := if converted ≥ 0xFFFFFFFFFFFFFFFF then .overflow else type
  if converted = 0xFFFFF511543FB600 then .underflow else type

/-- The amounts that count as errors. -/
def Unsupported (koinu : UInt64) : Prop :=
  koinu = 0xFFFFFFFFFFFFFFFF ∨ koinu = 0xFFFFF511543FB600

instance (koinu : UInt64) : Decidable (Unsupported koinu) := inferInstanceAs (Decidable (_ ∨ _))

/-! ## From koinu to coins -/

/-- `calc_length`. -/
def calcLength (x : UInt64) : Nat := if x = 0 then 0 else calcLength (x / 10) + 1
  termination_by x.toNat
  decreasing_by
    have hpos : 0 < x.toNat := Nat.pos_of_ne_zero fun h => ‹x ≠ 0› (UInt64.toNat_inj.mp h)
    rw [UInt64.toNat_div]
    exact Nat.div_lt_self hpos (by decide)

/-- The loop of `string`, which goes from the last of so many places to the first. -/
def writeDigits : Nat → UInt64 → Bytes → Bytes
  | 0, _, output => output
  | place + 1, input, output =>
      writeDigits place (input / 10) (output.set place ((input % 10).toUInt8 + 48))

/-- `string`, into the memory from `output` on. -/
def string (input : UInt64) (output : Bytes) : Bytes :=
  (writeDigits (calcLength input) input output).set (calcLength input) 0

/-- The loop of `koinu_to_coins_str` that writes the front of an amount below one coin. -/
def writeFront (target : Nat) (str : Bytes) : Bytes :=
  (List.range target).foldl
    (fun str i => if i = 0 ∨ i = 1 then (str.set 0 48).set 1 46 else str.set i 48) str

/-- The loop behind it, which copies the digits. -/
def writeBack (target : Nat) (swap str : Bytes) : Bytes :=
  (List.range (10 - target)).foldl (fun str j => str.set (target + j) (swap[j]?.getD 0)) str

/-- The loop that writes an amount of a coin or more. -/
def writeCoins (length target : Nat) (tmp str : Bytes) : Bytes :=
  (List.range length).foldl (fun str i =>
    if i < target then str.set i (tmp[i]?.getD 0)
    else if i = target then (str.set i (tmp[i]?.getD 0)).set (i + 1) 46
    else str.set (i + 1) (tmp[i]?.getD 0)) str

/-- `koinu_to_coins_str`: the memory from `str` on, and the result. -/
def koinuToCoinsStr (koinu : UInt64) (str : Bytes) : Bytes × Bool :=
  if validateConversion koinu false none ≠ .success then (str, false)
  else
    let length := calcLength koinu
    if length < 9 then
      let target := 10 - length
      let str := string koinu str
      let swap := ofCString str
      (writeBack target swap (writeFront target str), true)
    else
      let target := length - 9
      let tmp := string koinu (List.replicate 21 0)
      ((writeCoins length target tmp str).set (length + 1) 0, true)

/-! ## From coins to koinu -/

/-- `strtoull` with base ten. -/
def strtoull (text : Bytes) : Converted :=
  let body := text.dropWhile isSpace
  let (negative, body) :=
    match body with
    | 45 :: rest => (true, rest)
    | 43 :: rest => (false, rest)
    | _ => (false, body)
  let digits := body.takeWhile isDigit
  if digits = [] then ⟨0, text, false⟩
  else if value digits < 2 ^ 64 then
    ⟨if negative then -UInt64.ofNat (value digits) else UInt64.ofNat (value digits),
      body.dropWhile isDigit, false⟩
  else ⟨0xFFFFFFFFFFFFFFFF, body.dropWhile isDigit, true⟩

/-- `check_length`. -/
def checkLength (text : Bytes) : Nat := if text.length > 22 then 0 else text.length

/-- The first loop of `coins_to_koinu_str`: what it writes into `dogecoin_string`, which has 21
bytes with the NUL, and what stands behind the point. Eight noughts are written over the point and
behind it, and a NUL over the first of them. -/
def copyDogecoins : Bytes → Bytes → Option (Bytes × Bytes)
  | [], dogecoinString => if dogecoinString.length < 21 then some (dogecoinString, []) else none
  | c :: coins, dogecoinString =>
      if dogecoinString.length < 21 then
        if c = 46 then
          if dogecoinString.length + 8 ≤ 21 then some (dogecoinString, coins) else none
        else copyDogecoins coins (dogecoinString ++ [c])
      else none

/-- `koinu_string`: at most eight places, filled up with noughts. -/
def koinuString (places : Bytes) : Bytes :=
  let mantissa := places.take 8
  mantissa ++ List.replicate (8 - mantissa.length) 48

/-- `coins_to_koinu_str`; `none` where it leaves `dogecoin_string`. -/
def coinsToKoinuStr (coins : Bytes) : Option UInt64 :=
  let coins := ofCString coins
  if coins.head? = some 45 then some 0
  else if checkLength coins = 0 then some 0
  else do
    let (dogecoinString, places) ← copyDogecoins coins []
    let whole := strtoull dogecoinString
    let dogecoin :=
      if validateConversion whole.number whole.outOfRange
          (some (dogecoinString, whole.srcEnd)) = .success ∧ dogecoinString.length ≤ 12 then
        whole.number * 100000000
      else whole.number
    let part := strtoull (koinuString places)
    let koinu := part.number + dogecoin
    some (if validateConversion koinu part.outOfRange
      (some (koinuString places, part.srcEnd)) = .success then koinu else 0)

/-! ## What is written -/

section Written

/-- A byte behind what is written already. -/
theorem set_written (written memory : Bytes) (hroom : written.length < memory.length)
    (byte : UInt8) :
    (written ++ memory.drop written.length).set written.length byte =
      (written ++ [byte]) ++ memory.drop (written.length + 1) := by
  rw [List.set_append_right _ _ le_rfl, Nat.sub_self, List.drop_eq_getElem_cons hroom,
    List.set_cons_zero, List.append_assoc]
  rfl

theorem toUInt8_mod_add (input : UInt64) : (input % 10).toUInt8 + 48 = digit input.toNat := by
  apply UInt8.toNat_inj.mp
  have hsmall : input.toNat % 10 < 10 := Nat.mod_lt _ (by decide)
  have hten : (10 : UInt64).toNat = 10 := by rfl
  have hnought : (48 : UInt8).toNat = 48 := by rfl
  rw [toNat_digit, UInt8.toNat_add, UInt64.toNat_toUInt8, UInt64.toNat_mod, hten, hnought]
  omega

/-- The digits are written from the last to the first. -/
theorem writeDigits_eq (places : Nat) :
    ∀ (input : UInt64) (output : Bytes), places ≤ output.length →
      writeDigits places input output = fixed places input.toNat ++ output.drop places := by
  induction places with
  | zero => intro input output _; rfl
  | succ places ih =>
      intro input output hroom
      have hdrop : (output.set places (digit input.toNat)).drop places =
          digit input.toNat :: output.drop (places + 1) := by
        rw [List.drop_set, if_neg (Nat.lt_irrefl places), Nat.sub_self,
          List.drop_eq_getElem_cons hroom, List.set_cons_zero]
      have hten : (10 : UInt64).toNat = 10 := by rfl
      rw [writeDigits, toUInt8_mod_add, ih _ _ (by rw [List.length_set]; omega), hdrop,
        UInt64.toNat_div, hten, fixed, List.append_assoc]
      rfl

/-- A number is below the power that its length gives. -/
theorem lt_pow_calcLength (x : UInt64) : x.toNat < 10 ^ calcLength x := by
  fun_induction calcLength x with
  | case1 => exact Nat.one_pos
  | case2 x hne ih =>
      have hten : (10 : UInt64).toNat = 10 := by rfl
      rw [UInt64.toNat_div, hten] at ih
      rw [pow_succ]
      omega

/-- It has no more digits than it needs. -/
theorem calcLength_le_iff (x : UInt64) (count : Nat) :
    calcLength x ≤ count ↔ x.toNat < 10 ^ count := by
  apply Iff.intro
  · intro hle
    exact (lt_pow_calcLength x).trans_le (Nat.pow_le_pow_right (by decide) hle)
  · fun_induction calcLength x generalizing count with
    | case1 => exact fun _ => Nat.zero_le count
    | case2 x hne ih =>
        intro hlt
        have hten : (10 : UInt64).toNat = 10 := by rfl
        have hpos : x.toNat ≠ 0 := fun h => hne (UInt64.toNat_inj.mp h)
        cases count with
        | zero => exact absurd (Nat.lt_one_iff.mp hlt) hpos
        | succ count =>
            apply Nat.succ_le_succ
            apply ih
            rw [UInt64.toNat_div, hten]
            rw [pow_succ] at hlt
            omega

/-- `string` writes all digits, and a NUL behind them. -/
theorem string_eq (input : UInt64) {output : Bytes} (hroom : calcLength input < output.length) :
    string input output =
      fixed (calcLength input) input.toNat ++ 0 :: output.drop (calcLength input + 1) := by
  have hlength := length_fixed (calcLength input) input.toNat
  have hset := set_written (fixed (calcLength input) input.toNat) output
    (by rw [hlength]; exact hroom) 0
  rw [hlength] at hset
  rw [string, writeDigits_eq _ _ _ hroom.le, hset, List.append_assoc]
  rfl

/-- The front of a small amount: the point behind a nought, and noughts. -/
theorem writeFront_eq {str : Bytes} (noughts : Nat) (hroom : noughts + 2 ≤ str.length) :
    writeFront (noughts + 2) str =
      (48 :: 46 :: List.replicate noughts 48) ++ str.drop (noughts + 2) := by
  induction noughts with
  | zero =>
      match str, hroom with
      | _ :: _ :: rest, _ => rfl
  | succ noughts ih =>
      have hfront := ih (by omega)
      have hset := set_written (48 :: 46 :: List.replicate noughts 48) str
        (by simp only [List.length_cons, List.length_replicate]; omega) 48
      simp only [List.length_cons, List.length_replicate] at hset
      rw [writeFront, List.range_succ, List.foldl_append, ← writeFront, hfront]
      simp only [List.foldl_cons, List.foldl_nil]
      rw [if_neg (by omega), hset, List.replicate_succ']
      rfl

/-- Digits are copied one by one. -/
theorem copy_digits (front swap memory : Bytes) (count : Nat) (hcount : count ≤ swap.length)
    (hroom : front.length + count ≤ memory.length) :
    (List.range count).foldl (fun str j => str.set (front.length + j) (swap[j]?.getD 0))
        (front ++ memory.drop front.length) =
      (front ++ swap.take count) ++ memory.drop (front.length + count) := by
  induction count with
  | zero => simp
  | succ count ih =>
      have hread : swap[count]?.getD 0 = swap[count] := by
        rw [List.getElem?_eq_getElem hcount]
        rfl
      have hlength : (front ++ swap.take count).length = front.length + count := by
        rw [List.length_append, List.length_take, Nat.min_eq_left (by omega)]
      have hset := set_written (front ++ swap.take count) memory
        (by rw [hlength]; omega) swap[count]
      rw [hlength] at hset
      rw [List.range_succ, List.foldl_append, ih (by omega) (by omega)]
      simp only [List.foldl_cons, List.foldl_nil]
      rw [hread, hset, List.append_assoc front, List.take_concat_get' _ _ hcount]
      rfl

/-- The whole coins are copied. -/
theorem writeCoins_front {length target : Nat} {tmp str : Bytes} (hlength : length ≤ target + 1)
    (hread : target < tmp.length) (hroom : target + 1 < str.length) :
    writeCoins length target tmp str =
      if length ≤ target then tmp.take length ++ str.drop length
      else tmp.take (target + 1) ++ 46 :: str.drop (target + 2) := by
  induction length with
  | zero => rfl
  | succ place ih =>
      have hplace : place ≤ target := Nat.le_of_succ_le_succ hlength
      have htaken : (tmp.take place).length = place := by
        rw [List.length_take, Nat.min_eq_left (by omega)]
      have hdigit : tmp[place]?.getD 0 = tmp[place] := by
        rw [List.getElem?_eq_getElem (by omega)]
        rfl
      have hset := set_written (tmp.take place) str
        (by rw [htaken]; omega) tmp[place]
      rw [htaken, List.take_concat_get' _ _ (by omega)] at hset
      rw [writeCoins, List.range_succ, List.foldl_append, ← writeCoins, ih (by omega),
        if_pos hplace]
      simp only [List.foldl_cons, List.foldl_nil]
      rw [hdigit, hset]
      by_cases hbefore : place < target
      · rw [if_pos hbefore, if_pos (Nat.succ_le_of_lt hbefore)]
      · have hhere : place = target := by omega
        have hwhole : (tmp.take (place + 1)).length = place + 1 := by
          rw [List.length_take, Nat.min_eq_left (by omega)]
        have hpoint := set_written (tmp.take (place + 1)) str
          (by rw [hwhole]; omega) 46
        rw [hwhole, List.append_assoc] at hpoint
        rw [if_neg hbefore, if_pos hhere, if_neg (by omega), hpoint, hhere]
        rfl

/-- Behind the point the digits stand one place further. -/
theorem writeCoins_back (target : Nat) (tmp str : Bytes) (places : Nat)
    (hread : target + 1 + places ≤ tmp.length) (hroom : target + 2 + places ≤ str.length) :
    writeCoins (target + 1 + places) target tmp str =
      tmp.take (target + 1) ++ 46 :: (tmp.drop (target + 1)).take places ++
        str.drop (target + 2 + places) := by
  induction places with
  | zero =>
      rw [Nat.add_zero, writeCoins_front le_rfl (by omega) (by omega), if_neg (by omega),
        List.take_zero, Nat.add_zero, List.append_assoc]
      rfl
  | succ places ih =>
      let written := tmp.take (target + 1) ++ 46 :: (tmp.drop (target + 1)).take places
      have hwritten : written.length = target + 2 + places := by
        simp only [written, List.length_append, List.length_cons, List.length_take,
          List.length_drop]
        omega
      have hplaces : places < (tmp.drop (target + 1)).length := by
        rw [List.length_drop]
        omega
      have hdigit : tmp[target + 1 + places]?.getD 0 = (tmp.drop (target + 1))[places] := by
        rw [List.getElem_drop, List.getElem?_eq_getElem (by omega)]
        rfl
      have hset := set_written written str (by rw [hwritten]; omega)
        (tmp.drop (target + 1))[places]
      rw [hwritten] at hset
      have hmore : written ++ [(tmp.drop (target + 1))[places]] =
          tmp.take (target + 1) ++ 46 :: (tmp.drop (target + 1)).take (places + 1) := by
        rw [List.append_assoc, List.cons_append, List.take_concat_get' _ _ hplaces]
      have hplace : target + 1 + places + 1 = target + 2 + places := by omega
      rw [← Nat.add_assoc, writeCoins, List.range_succ, List.foldl_append, ← writeCoins,
        ih (by omega) (by omega)]
      simp only [List.foldl_cons, List.foldl_nil]
      rw [if_neg (by omega), if_neg (by omega), hplace, hdigit, hset, hmore]
      rfl

end Written

/-! ## The text of an amount -/

/-- The pointers are not passed, or everything has been read. -/
def ReadWhole : Option (Bytes × Bytes) → Prop
  | none => True
  | some (src, srcEnd) => src ≠ [] ∧ srcEnd = []

theorem validateConversion_eq_success_iff (converted : UInt64) (rangeError : Bool)
    (ends : Option (Bytes × Bytes)) :
    validateConversion converted rangeError ends = .success ↔
      ¬ Unsupported converted ∧ ReadWhole ends := by
  have hmax : converted ≥ 0xFFFFFFFFFFFFFFFF ↔ converted = 0xFFFFFFFFFFFFFFFF := by
    apply Iff.intro
    · intro hge
      have hle := UInt64.le_iff_toNat_le.mp hge
      have hlt := converted.toNat_lt
      apply UInt64.toNat_inj.mp
      have hvalue : (0xFFFFFFFFFFFFFFFF : UInt64).toNat = 2 ^ 64 - 1 := by rfl
      rw [hvalue] at hle ⊢
      omega
    · intro heq
      rw [heq]
      exact UInt64.le_refl _
  unfold validateConversion Unsupported
  simp only [hmax]
  by_cases hunderflow : converted = 0xFFFFF511543FB600
  · rw [if_pos hunderflow]
    exact iff_of_false (fun h => by cases h) (fun h => h.1 (.inr hunderflow))
  rw [if_neg hunderflow]
  by_cases hoverflow : converted = 0xFFFFFFFFFFFFFFFF
  · rw [if_pos hoverflow]
    exact iff_of_false (fun h => by cases h) (fun h => h.1 (.inl hoverflow))
  rw [if_neg hoverflow, if_neg fun h => hoverflow h.1]
  cases ends with
  | none => exact iff_of_true rfl ⟨fun h => h.elim hoverflow hunderflow, trivial⟩
  | some pointers =>
      rcases pointers with ⟨src, srcEnd⟩
      have hsupported : ¬ (converted = 0xFFFFFFFFFFFFFFFF ∨ converted = 0xFFFFF511543FB600) :=
        fun h => h.elim hoverflow hunderflow
      cases srcEnd with
      | cons byte rest => exact iff_of_false (fun h => by cases h) (fun h => by cases h.2.2)
      | nil =>
          cases src with
          | nil => exact iff_of_false (fun h => by cases h) (fun h => h.2.1 rfl)
          | cons byte rest =>
              exact iff_of_true rfl ⟨hsupported, List.cons_ne_nil byte rest, rfl⟩

/-- The amount in coins, with eight places. -/
def coinText (koinu : Nat) (whole : Nat) : Bytes :=
  fixed whole (koinu / 10 ^ 8) ++ 46 :: fixed 8 koinu

/-- An amount that counts as an error leaves the buffer as it is. -/
theorem koinuToCoinsStr_of_unsupported {koinu : UInt64} (h : Unsupported koinu) (str : Bytes) :
    koinuToCoinsStr koinu str = (str, false) := by
  have hrefused : validateConversion koinu false none ≠ .success := by
    rw [ne_eq, validateConversion_eq_success_iff]
    exact fun hsuccess => hsuccess.1 h
  rw [koinuToCoinsStr, if_pos hrefused]

/-- Below one coin: ten characters, and what stood behind them before. -/
theorem koinuToCoinsStr_of_small {koinu : UInt64} (hsmall : koinu.toNat < 10 ^ 8) {str : Bytes}
    (hroom : 22 ≤ str.length) :
    koinuToCoinsStr koinu str = (coinText koinu.toNat 1 ++ str.drop 10, true) := by
  have hsuccess : validateConversion koinu false none = .success := by
    rw [validateConversion_eq_success_iff]
    refine ⟨?_, trivial⟩
    intro hunsupported
    cases hunsupported with
    | inl hmax =>
        rw [hmax] at hsmall
        exact absurd hsmall (by decide)
    | inr hother =>
        rw [hother] at hsmall
        exact absurd hsmall (by decide)
  have hlength : calcLength koinu ≤ 8 := (calcLength_le_iff koinu 8).mpr hsmall
  let digits := fixed (calcLength koinu) koinu.toNat
  have hdigits : digits.length = calcLength koinu := length_fixed _ _
  have hstring : string koinu str = digits ++ 0 :: str.drop (calcLength koinu + 1) :=
    string_eq koinu (by omega)
  have hswap : ofCString (digits ++ 0 :: str.drop (calcLength koinu + 1)) = digits := by
    rw [ofCString_append_zero, ofCString_eq_self_iff]
    intro hmem
    exact absurd (isNumeral_fixed _ _ 0 hmem).1 (by decide)
  have hlong : (string koinu str).length = str.length := by
    rw [hstring, List.length_append, List.length_cons, List.length_drop, hdigits]
    omega
  -- the noughts in front of the digits
  have hnoughts : 10 - calcLength koinu = (8 - calcLength koinu) + 2 := by omega
  have hfront : writeFront (10 - calcLength koinu) (string koinu str) =
      (48 :: 46 :: List.replicate (8 - calcLength koinu) 48) ++
        (string koinu str).drop (10 - calcLength koinu) := by
    rw [hnoughts]
    exact writeFront_eq (8 - calcLength koinu) (by omega)
  have htarget : (48 :: 46 :: List.replicate (8 - calcLength koinu) 48 : Bytes).length =
      10 - calcLength koinu := by
    rw [List.length_cons, List.length_cons, List.length_replicate]
    omega
  have hback := copy_digits (48 :: 46 :: List.replicate (8 - calcLength koinu) 48)
    digits (string koinu str) (calcLength koinu) (by rw [hdigits])
    (by rw [htarget, hlong]; omega)
  have hcount : 10 - (10 - calcLength koinu) = calcLength koinu := by omega
  have hten : 10 - calcLength koinu + calcLength koinu = 10 := by omega
  have hbehind : (string koinu str).drop 10 = str.drop 10 := by
    rw [hstring, List.drop_append, hdigits, List.drop_of_length_le (by rw [hdigits]; omega),
      List.nil_append, List.drop_cons (by omega), List.drop_drop]
    congr 1
    omega
  have hwidth : fixed 8 koinu.toNat = List.replicate (8 - calcLength koinu) 48 ++ digits := by
    have height : 8 = (8 - calcLength koinu) + calcLength koinu := by omega
    rw [height]
    exact (fixed_of_lt (lt_pow_calcLength koinu) _).trans (by rw [← height])
  rw [koinuToCoinsStr, if_neg (by rw [hsuccess]; exact fun h => h rfl), if_pos (by omega)]
  simp only [Prod.mk.injEq, and_true]
  rw [writeBack, hcount, hfront, hstring, hswap, ← hstring, ← htarget, hback, htarget, hten,
    hbehind, List.take_of_length_le hdigits.le, coinText, hwidth, Nat.div_eq_of_lt hsmall]
  rfl

/-- One coin or more: all digits with a point among them, and a NUL. -/
theorem koinuToCoinsStr_of_large {koinu : UInt64} (hsupported : ¬ Unsupported koinu)
    (hlarge : 10 ^ 8 ≤ koinu.toNat) {str : Bytes} (hroom : 22 ≤ str.length) :
    koinuToCoinsStr koinu str =
      (coinText koinu.toNat (calcLength koinu - 8) ++ 0 :: str.drop (calcLength koinu + 2),
        true) := by
  have hsuccess : validateConversion koinu false none = .success :=
    (validateConversion_eq_success_iff _ _ _).mpr ⟨hsupported, trivial⟩
  have hmin : ¬ calcLength koinu ≤ 8 := fun h => absurd ((calcLength_le_iff koinu 8).mp h)
    (not_lt.mpr hlarge)
  have hmax : calcLength koinu ≤ 20 :=
    (calcLength_le_iff koinu 20).mpr (koinu.toNat_lt.trans (by norm_num))
  let tmp := string koinu (List.replicate 21 0)
  have htmp : tmp = fixed (calcLength koinu) koinu.toNat ++
      0 :: (List.replicate 21 (0 : UInt8)).drop (calcLength koinu + 1) :=
    string_eq koinu (by rw [List.length_replicate]; omega)
  have hlong : tmp.length = 21 := by
    rw [htmp, List.length_append, length_fixed, List.length_cons, List.length_drop,
      List.length_replicate]
    omega
  have hsplit : fixed (calcLength koinu) koinu.toNat =
      fixed (calcLength koinu - 8) (koinu.toNat / 10 ^ 8) ++ fixed 8 koinu.toNat := by
    rw [← fixed_add]
    congr 1
    omega
  have hpoint : calcLength koinu - 9 + 1 = calcLength koinu - 8 := by omega
  have hwhole : tmp.take (calcLength koinu - 8) =
      fixed (calcLength koinu - 8) (koinu.toNat / 10 ^ 8) := by
    rw [htmp, hsplit, List.append_assoc, List.take_left' (length_fixed _ _)]
  have hplaces : (tmp.drop (calcLength koinu - 8)).take 8 = fixed 8 koinu.toNat := by
    rw [htmp, hsplit, List.append_assoc, List.drop_left' (length_fixed _ _),
      List.take_left' (length_fixed _ _)]
  have hdigits : calcLength koinu - 9 + 1 + 8 = calcLength koinu := by omega
  have hcoins := writeCoins_back (calcLength koinu - 9) tmp str 8
    (by omega) (by omega)
  rw [hdigits, hpoint, hwhole, hplaces, ← coinText] at hcoins
  have hlength : (coinText koinu.toNat (calcLength koinu - 8)).length = calcLength koinu + 1 := by
    rw [coinText, List.length_append, length_fixed, List.length_cons, length_fixed]
    omega
  have hbehind : calcLength koinu - 9 + 2 + 8 = calcLength koinu + 1 := by omega
  have hset := set_written (coinText koinu.toNat (calcLength koinu - 8)) str
    (by rw [hlength]; omega) 0
  rw [hlength, List.append_assoc] at hset
  rw [koinuToCoinsStr, if_neg (by rw [hsuccess]; exact fun h => h rfl), if_neg (by omega)]
  simp only [Prod.mk.injEq, and_true]
  rw [hcoins, hbehind, hset]
  rfl

/-! ## Reading -/

section Reading

theorem isDigit_iff (byte : UInt8) : isDigit byte = true ↔ IsDigit byte := by
  rw [RadioDoge.isDigit, decide_eq_true_eq, UInt8.le_iff_toNat_le, UInt8.le_iff_toNat_le]
  rfl

/-- A numeral is read as its number. -/
theorem strtoull_of_isNumeral {text : Bytes} (h : IsNumeral text) (hne : text ≠ [])
    (hlt : value text < 2 ^ 64) : strtoull text = ⟨UInt64.ofNat (value text), [], false⟩ := by
  have hall : ∀ byte ∈ text, isDigit byte = true := fun byte hmem => (isDigit_iff byte).mpr
    (h byte hmem)
  have htake : text.takeWhile isDigit = text := List.takeWhile_eq_self_iff.mpr hall
  have hdrop : text.dropWhile isDigit = [] := List.dropWhile_eq_nil_iff.mpr hall
  cases text with
  | nil => exact absurd rfl hne
  | cons first rest =>
      have hfirst := h first List.mem_cons_self
      have hother : ∀ other : UInt8, ¬ IsDigit other → first ≠ other := by
        intro other hno heq
        rw [heq] at hfirst
        exact hno hfirst
      have hspace : isSpace first = false := by
        have hlow := hfirst.1
        rw [isSpace, decide_eq_false_iff_not]
        intro hspace
        cases hspace with
        | inl hblank => exact hother 32 (by decide) hblank
        | inr hcontrol =>
            have hhigh : first.toNat ≤ 13 := UInt8.le_iff_toNat_le.mp hcontrol.2
            omega
      have hbody : (first :: rest).dropWhile isSpace = first :: rest := by
        rw [List.dropWhile_cons, hspace]
        rfl
      rw [strtoull, hbody]
      split
      next negative body hsign =>
        split at hsign
        · next heq => exact absurd (List.cons.inj heq).1 (hother 45 (by decide))
        · next heq => exact absurd (List.cons.inj heq).1 (hother 43 (by decide))
        · rcases Prod.mk.inj hsign with ⟨rfl, rfl⟩
          simp only [htake, hdrop, if_neg (List.cons_ne_nil first rest), if_pos hlt,
            Bool.false_eq_true, if_false]

/-- The whole coins are copied up to the point. -/
theorem copyDogecoins_point {whole : Bytes} (hwhole : IsNumeral whole) (places : Bytes) :
    ∀ written : Bytes, written.length + whole.length ≤ 13 →
      copyDogecoins (whole ++ 46 :: places) written = some (written ++ whole, places) := by
  induction whole with
  | nil =>
      intro written hshort
      rw [List.length_nil] at hshort
      rw [List.nil_append, copyDogecoins, if_pos (by omega), if_pos rfl, if_pos (by omega),
        List.append_nil]
  | cons byte whole ih =>
      intro written hshort
      rw [List.length_cons] at hshort
      have hdigit : byte ≠ 46 := fun h => absurd (h ▸ hwhole byte List.mem_cons_self) (by decide)
      rw [List.cons_append, copyDogecoins, if_pos (by omega), if_neg hdigit,
        ih (fun other hmem => hwhole other (List.mem_cons_of_mem byte hmem)) _
          (by rw [List.length_append, List.length_singleton]; omega), List.append_assoc]
      rfl

/-- Without a point everything is copied. -/
theorem copyDogecoins_whole {whole : Bytes} (hwhole : IsNumeral whole) :
    ∀ written : Bytes, written.length + whole.length ≤ 13 →
      copyDogecoins whole written = some (written ++ whole, []) := by
  induction whole with
  | nil =>
      intro written hshort
      rw [List.length_nil] at hshort
      rw [copyDogecoins, if_pos (by omega), List.append_nil]
  | cons byte whole ih =>
      intro written hshort
      rw [List.length_cons] at hshort
      have hdigit : byte ≠ 46 := fun h => absurd (h ▸ hwhole byte List.mem_cons_self) (by decide)
      rw [copyDogecoins, if_pos (by omega), if_neg hdigit,
        ih (fun other hmem => hwhole other (List.mem_cons_of_mem byte hmem)) _
          (by rw [List.length_append, List.length_singleton]; omega), List.append_assoc]
      rfl

end Reading

/-- An amount as a user enters it: at most twelve digits, and maybe a point with digits behind it,
of which the first eight count. -/
structure Entered (coins whole places : Bytes) : Prop where
  text : ofCString coins = whole ∧ places = [] ∨ ofCString coins = whole ++ 46 :: places
  digits : IsNumeral whole
  short : whole.length ≤ 12
  decimals : IsNumeral (places.take 8)
  length : (ofCString coins).length ≤ 22

/-- The koinu of an entered amount, cut off behind the eighth place. -/
def enteredKoinu (whole places : Bytes) : Nat := value whole * 10 ^ 8 + value (koinuString places)

/-- What is returned for a number of koinu. -/
def returned (koinu : Nat) : UInt64 :=
  if Unsupported (UInt64.ofNat koinu) then 0 else UInt64.ofNat koinu

/-- The places that are read are digits, eight of them. -/
theorem isNumeral_koinuString {places : Bytes} (h : IsNumeral (places.take 8)) :
    IsNumeral (koinuString places) ∧ (koinuString places).length = 8 := by
  have hlength : (places.take 8).length ≤ 8 := List.length_take_le 8 places
  rw [koinuString]
  apply And.intro
  · intro byte hmem
    rcases List.mem_append.mp hmem with hplace | hnought
    · exact h byte hplace
    · rw [List.eq_of_mem_replicate hnought]
      decide
  · rw [List.length_append, List.length_replicate]
    omega

/-- **Reading an amount.** An entered amount is returned as its koinu modulo 2^64, except that the
two amounts which count as errors give nought. -/
theorem coinsToKoinuStr_of_entered {coins whole places : Bytes} (h : Entered coins whole places) :
    coinsToKoinuStr coins = some (returned (enteredKoinu whole places)) := by
  rcases isNumeral_koinuString h.decimals with ⟨hnumeral, height⟩
  have hpart : value (koinuString places) < 10 ^ 8 := height ▸ value_lt hnumeral
  have hwhole : value whole < 10 ^ 12 :=
    (value_lt h.digits).trans_le (Nat.pow_le_pow_right (by decide) h.short)
  have hminus : (ofCString coins).head? ≠ some 45 := by
    cases hcoins : whole with
    | nil =>
        rcases h.text with ⟨htext, -⟩ | htext
        · rw [htext, hcoins]
          exact fun heq => by cases heq
        · rw [htext, hcoins]
          exact fun heq => by cases heq
    | cons first rest =>
        have hfirst : first ≠ 45 := fun heq => absurd
          (h.digits first (hcoins ▸ List.mem_cons_self)) (by rw [heq]; decide)
        rcases h.text with ⟨htext, -⟩ | htext
        · rw [htext, hcoins]
          exact fun heq => hfirst (Option.some.inj heq)
        · rw [htext, hcoins]
          exact fun heq => hfirst (Option.some.inj heq)
  have hcopy : copyDogecoins (ofCString coins) [] = some (whole, places) := by
    rcases h.text with ⟨htext, hnone⟩ | htext
    · rw [htext, hnone]
      exact copyDogecoins_whole h.digits [] (by rw [List.length_nil]; have := h.short; omega)
    · rw [htext]
      exact copyDogecoins_point h.digits places [] (by rw [List.length_nil]; have := h.short; omega)
  have hread := strtoull_of_isNumeral hnumeral (List.ne_nil_of_length_pos (by rw [height]; decide))
    (hpart.trans (by norm_num))
  -- the whole coins, times the koinu of a coin
  have hdogecoin : (if validateConversion (strtoull whole).number (strtoull whole).outOfRange
        (some (whole, (strtoull whole).srcEnd)) = .success ∧ whole.length ≤ 12 then
        (strtoull whole).number * 100000000 else (strtoull whole).number) =
      UInt64.ofNat (value whole * 10 ^ 8) := by
    by_cases hempty : whole = []
    · rw [hempty]
      rfl
    · have hvalue := strtoull_of_isNumeral h.digits hempty (hwhole.trans (by norm_num))
      have hnat : (UInt64.ofNat (value whole)).toNat = value whole := by
        rw [UInt64.toNat_ofNat']
        exact Nat.mod_eq_of_lt (hwhole.trans (by norm_num))
      have hsupported : ¬ Unsupported (UInt64.ofNat (value whole)) := by
        intro hunsupported
        have hcases := hunsupported.imp (congrArg UInt64.toNat) (congrArg UInt64.toNat)
        rw [hnat] at hcases
        cases hcases with
        | inl hmax => exact absurd (hmax ▸ hwhole) (by decide)
        | inr hother => exact absurd (hother ▸ hwhole) (by decide)
      rw [hvalue]
      simp only
      rw [if_pos ⟨(validateConversion_eq_success_iff _ _ _).mpr ⟨hsupported, hempty, rfl⟩,
        h.short⟩, UInt64.ofNat_mul]
      rfl
  by_cases hlength : checkLength (ofCString coins) = 0
  · -- only the empty text is left, and it is worth nothing
    have hnil : ofCString coins = [] := by
      rw [checkLength, if_neg (not_lt.mpr h.length)] at hlength
      exact List.eq_nil_of_length_eq_zero hlength
    rcases h.text with ⟨htext, hnone⟩ | htext
    · rw [coinsToKoinuStr]
      simp only
      rw [if_neg hminus, if_pos hlength, ← htext, hnil, hnone]
      rfl
    · rw [hnil] at htext
      exact absurd htext.symm (List.append_ne_nil_of_right_ne_nil _ (List.cons_ne_nil 46 places))
  · have hsum : UInt64.ofNat (value (koinuString places)) + UInt64.ofNat (value whole * 10 ^ 8) =
        UInt64.ofNat (enteredKoinu whole places) := by
      rw [← UInt64.ofNat_add, Nat.add_comm]
      rfl
    rw [coinsToKoinuStr]
    simp only
    rw [if_neg hminus, if_neg hlength, hcopy]
    simp only [Option.bind_eq_bind, Option.bind_some]
    rw [hdogecoin, hread]
    simp only
    rw [hsum, returned]
    by_cases hunsupported : Unsupported (UInt64.ofNat (enteredKoinu whole places))
    · rw [if_pos hunsupported, if_neg]
      rw [validateConversion_eq_success_iff]
      exact fun hsuccess => hsuccess.1 hunsupported
    · rw [if_neg hunsupported, if_pos]
      rw [validateConversion_eq_success_iff]
      exact ⟨hunsupported, List.ne_nil_of_length_pos (by rw [height]; decide), rfl⟩

/-- More koinu than there are, entered with nine places. -/
example : coinsToKoinuStr (ascii "184467440738.000000019") = some 90448385 := by decide +kernel

/-! ## There and back -/

/-- What passes the last check does not count as an error. -/
theorem supported_of_validated (koinu : UInt64) (rangeError : Bool)
    (ends : Option (Bytes × Bytes)) :
    ¬ Unsupported (if validateConversion koinu rangeError ends = .success then koinu else 0) := by
  split
  · next hsuccess => exact ((validateConversion_eq_success_iff _ _ _).mp hsuccess).1
  · decide

/-- Nor does anything that is returned. -/
theorem supported_of_coinsToKoinuStr {coins : Bytes} {koinu : UInt64}
    (h : coinsToKoinuStr coins = some koinu) : ¬ Unsupported koinu := by
  have hzero : ¬ Unsupported 0 := by decide
  rw [coinsToKoinuStr] at h
  simp only at h
  split at h
  · rw [← Option.some.inj h]
    exact hzero
  · split at h
    · rw [← Option.some.inj h]
      exact hzero
    · simp only [Option.bind_eq_bind, Option.bind_eq_some_iff, Option.some.injEq] at h
      rcases h with ⟨copied, -, hreturned⟩
      rw [← hreturned]
      exact supported_of_validated _ _ _

/-- The text of an amount has no NUL. -/
theorem ofCString_coinText_append (koinu whole : Nat) (rest : Bytes) :
    ofCString (coinText koinu whole ++ rest) = coinText koinu whole ++ ofCString rest := by
  have hall : ∀ byte ∈ coinText koinu whole, decide (byte ≠ 0) = true := by
    intro byte hmem
    have hdigit : ∀ {count n : Nat}, byte ∈ fixed count n → byte ≠ 0 := by
      intro count n hfixed hzero
      exact absurd (hzero ▸ isNumeral_fixed count n byte hfixed) (by decide)
    rw [decide_eq_true_eq]
    rcases List.mem_append.mp hmem with hwhole | hbehind
    · exact hdigit hwhole
    · rcases List.mem_cons.mp hbehind with hpoint | hplaces
      · rw [hpoint]
        decide
      · exact hdigit hplaces
  rw [ofCString, List.takeWhile_append_of_pos hall]
  rfl

/-- A text that begins with an amount is read as the amount, if it is short enough. -/
theorem coinsToKoinuStr_coinText {koinu : UInt64} {whole : Nat} {rest : Bytes}
    (hsupported : ¬ Unsupported koinu) (hwhole : koinu.toNat / 10 ^ 8 < 10 ^ whole)
    (hshort : whole ≤ 12) (hlength : whole + 9 + strlen rest ≤ 22) :
    coinsToKoinuStr (coinText koinu.toNat whole ++ rest) = some koinu := by
  have htext := ofCString_coinText_append koinu.toNat whole rest
  have height := length_fixed 8 koinu.toNat
  have htake : (fixed 8 koinu.toNat ++ ofCString rest).take 8 = fixed 8 koinu.toNat :=
    List.take_left' height
  have hentered : Entered (coinText koinu.toNat whole ++ rest)
      (fixed whole (koinu.toNat / 10 ^ 8)) (fixed 8 koinu.toNat ++ ofCString rest) := by
    apply Entered.mk
    · right
      rw [htext, coinText, List.append_assoc]
      rfl
    · exact isNumeral_fixed _ _
    · rw [length_fixed]
      exact hshort
    · rw [htake]
      exact isNumeral_fixed _ _
    · rw [htext, coinText, List.length_append, List.length_append, List.length_cons, length_fixed,
        length_fixed]
      rw [strlen] at hlength
      omega
  have hplaces : koinuString (fixed 8 koinu.toNat ++ ofCString rest) = fixed 8 koinu.toNat := by
    rw [koinuString, htake, height]
    exact List.append_nil _
  have hnumber : enteredKoinu (fixed whole (koinu.toNat / 10 ^ 8))
      (fixed 8 koinu.toNat ++ ofCString rest) = koinu.toNat := by
    rw [enteredKoinu, hplaces, value_fixed_of_lt hwhole, value_fixed]
    exact Nat.div_add_mod' _ _
  rw [coinsToKoinuStr_of_entered hentered, hnumber, returned, UInt64.ofNat_toNat,
    if_neg hsupported]

/-- The text of a coin or more ends where it should. -/
theorem readsBack_of_large {koinu : UInt64} (hsupported : ¬ Unsupported koinu)
    (hlarge : 10 ^ 8 ≤ koinu.toNat) {str : Bytes} (hroom : 22 ≤ str.length) :
    coinsToKoinuStr (koinuToCoinsStr koinu str).1 = some koinu := by
  have hbound : koinu.toNat < 10 ^ (calcLength koinu - 8 + 8) := by
    have hmin : ¬ calcLength koinu ≤ 8 := fun h => absurd ((calcLength_le_iff koinu 8).mp h)
      (not_lt.mpr hlarge)
    rw [Nat.sub_add_cancel (by omega)]
    exact lt_pow_calcLength koinu
  have hmax : calcLength koinu ≤ 20 :=
    (calcLength_le_iff koinu 20).mpr (koinu.toNat_lt.trans (by norm_num))
  have hend : strlen (0 :: str.drop (calcLength koinu + 2)) = 0 := by rfl
  rw [koinuToCoinsStr_of_large hsupported hlarge hroom]
  apply coinsToKoinuStr_coinText hsupported
  · rw [pow_add] at hbound
    exact Nat.div_lt_of_lt_mul (by rw [Nat.mul_comm]; exact hbound)
  · omega
  · omega

/-- **There and back.** The text that is written for an amount is read as that amount exactly if
the amount is not one of the two errors and the text ends within 22 characters: that of a coin or
more does, and a smaller one where the buffer has a NUL soon enough. Nought is read from any text
that is too long. -/
theorem readsBack_iff (koinu : UInt64) {str : Bytes} (hroom : 22 ≤ str.length) :
    coinsToKoinuStr (koinuToCoinsStr koinu str).1 = some koinu ↔
      ¬ Unsupported koinu ∧
        (10 ^ 8 ≤ koinu.toNat ∨ koinu = 0 ∨ strlen (str.drop 10) ≤ 12) := by
  by_cases hunsupported : Unsupported koinu
  · exact iff_of_false (fun hread => supported_of_coinsToKoinuStr hread hunsupported)
      (fun h => h.1 hunsupported)
  by_cases hlarge : 10 ^ 8 ≤ koinu.toNat
  · exact iff_of_true (readsBack_of_large hunsupported hlarge hroom) ⟨hunsupported, .inl hlarge⟩
  · have hsmall : koinu.toNat < 10 ^ 8 := not_le.mp hlarge
    rw [koinuToCoinsStr_of_small hsmall hroom]
    by_cases hend : strlen (str.drop 10) ≤ 12
    · refine iff_of_true (coinsToKoinuStr_coinText hunsupported ?_ (by decide) (by omega))
        ⟨hunsupported, .inr (.inr hend)⟩
      rw [Nat.div_eq_of_lt hsmall]
      decide
    · -- the text is too long, and gives nought
      have hnought : coinsToKoinuStr (coinText koinu.toNat 1 ++ str.drop 10) = some 0 := by
        have hlength : checkLength (ofCString (coinText koinu.toNat 1 ++ str.drop 10)) = 0 := by
          rw [checkLength, if_pos]
          rw [ofCString_coinText_append, List.length_append, coinText, List.length_append,
            length_fixed, List.length_cons, length_fixed]
          rw [strlen] at hend
          omega
        rw [coinsToKoinuStr]
        simp only
        rw [if_pos hlength, ite_self]
      rw [hnought, Option.some_inj]
      apply Iff.intro
      · exact fun hzero => ⟨hunsupported, .inr (.inl hzero.symm)⟩
      · intro h
        rcases h.2 with hcoin | hzero | hshort
        · exact absurd hcoin hlarge
        · exact hzero.symm
        · exact absurd hshort hend

/-- Half a coin, in a buffer that is full of letters. -/
theorem readsBack_iff_half :
    coinsToKoinuStr (koinuToCoinsStr 50000000 (List.replicate 24 65)).1 = some 50000000 ↔
      ¬ Unsupported 50000000 ∧ (10 ^ 8 ≤ (50000000 : UInt64).toNat ∨ (50000000 : UInt64) = 0 ∨
        strlen ((List.replicate 24 65).drop 10) ≤ 12) :=
  readsBack_iff 50000000 (by decide)

/-- **The buffers of 21 bytes.** Nothing is written behind them exactly if the amount has at most
nineteen digits, or is one of the two errors. -/
theorem textInside_iff (koinu : UInt64) :
    (∀ str : Bytes, 22 ≤ str.length → (koinuToCoinsStr koinu str).1.drop 21 = str.drop 21) ↔
      koinu.toNat < 10 ^ 19 ∨ Unsupported koinu := by
  by_cases hunsupported : Unsupported koinu
  · refine iff_of_true (fun str _ => ?_) (.inr hunsupported)
    rw [koinuToCoinsStr_of_unsupported hunsupported]
  by_cases hlarge : 10 ^ 8 ≤ koinu.toNat
  · have hmin : ¬ calcLength koinu ≤ 8 := fun h => absurd ((calcLength_le_iff koinu 8).mp h)
      (not_lt.mpr hlarge)
    have hlength : (coinText koinu.toNat (calcLength koinu - 8)).length = calcLength koinu + 1 := by
      rw [coinText, List.length_append, length_fixed, List.length_cons, length_fixed]
      omega
    have hmax : calcLength koinu ≤ 20 :=
      (calcLength_le_iff koinu 20).mpr (koinu.toNat_lt.trans (by norm_num))
    apply Iff.intro
    · intro hinside
      left
      rw [← calcLength_le_iff]
      by_contra hlong
      have hwhole : calcLength koinu = 20 := by omega
      have hbehind := hinside (List.replicate 22 65) (by decide)
      rw [koinuToCoinsStr_of_large hunsupported hlarge (by decide)] at hbehind
      simp only at hbehind
      rw [List.drop_append, List.drop_of_length_le (by rw [hlength]; omega), hlength,
        hwhole] at hbehind
      exact absurd hbehind (by decide)
    · intro hbound str hroom
      have hnineteen : calcLength koinu ≤ 19 :=
        (calcLength_le_iff koinu 19).mpr (hbound.resolve_right hunsupported)
      have hall : 21 - (calcLength koinu + 1) = 21 - (calcLength koinu + 2) + 1 := by omega
      rw [koinuToCoinsStr_of_large hunsupported hlarge hroom]
      simp only
      rw [List.drop_append, hlength, List.drop_of_length_le (by rw [hlength]; omega),
        List.nil_append, hall, List.drop_succ_cons, List.drop_drop]
      congr 1
      omega
  · have hsmall : koinu.toNat < 10 ^ 8 := not_le.mp hlarge
    refine iff_of_true (fun str hroom => ?_) (.inl (hsmall.trans (by norm_num)))
    have hten : (coinText koinu.toNat 1).length = 10 := by
      rw [coinText, List.length_append, length_fixed, List.length_cons, length_fixed]
    rw [koinuToCoinsStr_of_small hsmall hroom]
    simp only
    rw [List.drop_append, hten, List.drop_of_length_le (by rw [hten]; decide), List.nil_append,
      List.drop_drop]

end RadioDoge.Libdogecoin
