/-
# Byte buffers and the Arduino `String`

The firmware keeps its texts in Arduino `String` objects and its packets in C
arrays. A `String` is modelled by the list of its bytes. The class stores its
length, but several of its members hand the buffer to the C string functions,
which stop at the first NUL byte: `getBytes` copies with `strncpy`, `indexOf`
searches with `strchr`, and a `String` built from a `char*` ends at the first
NUL. These are modelled with exactly that behaviour, so a text with an embedded
NUL is a legal value here and is treated as the code treats it.
-/

import Mathlib.Tactic
import Mathlib.Data.List.TakeWhile

namespace RadioDoge

/-- The contents of an Arduino `String`, or of a stretch of a C buffer. -/
abbrev Bytes := List UInt8

/-- The bytes of an ASCII literal of the source. -/
def ascii (s : String) : Bytes := s.toList.map fun c => UInt8.ofNat c.toNat

/-- The code of `':'`, the separator of every text format of the firmware. -/
def colon : UInt8 := 58

/-! ## C string functions -/

/-- What a C string function sees of a buffer: the bytes before the first NUL. -/
def ofCString (s : Bytes) : Bytes := s.takeWhile (· ≠ 0)

/-- `strlen`. -/
def strlen (s : Bytes) : Nat := (ofCString s).length

/-- `strncpy` of a source of `n` bytes into `n` bytes: after the first NUL the
destination is padded with NULs. -/
def strncpy (s : Bytes) : Bytes :=
  ofCString s ++ List.replicate (s.length - strlen s) 0

theorem strlen_le (s : Bytes) : strlen s ≤ s.length :=
  (List.takeWhile_prefix _).length_le

@[simp]
theorem length_strncpy (s : Bytes) : (strncpy s).length = s.length := by
  have h := strlen_le s
  simp only [strncpy, List.length_append, List.length_replicate, strlen] at h ⊢
  omega

theorem ofCString_eq_self_iff (s : Bytes) : ofCString s = s ↔ (0 : UInt8) ∉ s := by
  rw [ofCString, List.takeWhile_eq_self_iff]
  constructor
  · intro all hmem
    simpa using all 0 hmem
  · intro hfree byte hmem
    simpa using fun h : byte = 0 => hfree (h ▸ hmem)

/-- A C string that is copied without its terminator reads as itself exactly if it has
no NUL and one stands behind it. -/
theorem ofCString_append_iff (text rest : Bytes) :
    ofCString (text ++ rest) = text ↔ (0 : UInt8) ∉ text ∧ ofCString rest = [] := by
  constructor
  · intro h
    have hfree : (0 : UInt8) ∉ text := by
      intro hmem
      have hkept : (0 : UInt8) ∈ ofCString (text ++ rest) := by
        rw [h]
        exact hmem
      exact absurd (List.mem_takeWhile_imp hkept) (by decide)
    have hall : ∀ byte ∈ text, decide (byte ≠ 0) = true := fun byte hmem => by
      simpa using fun hzero : byte = 0 => hfree (hzero ▸ hmem)
    rw [ofCString, List.takeWhile_append_of_pos hall] at h
    exact ⟨hfree, List.append_right_eq_self.mp h⟩
  · rintro ⟨hfree, hrest⟩
    have hall : ∀ byte ∈ text, decide (byte ≠ 0) = true := fun byte hmem => by
      simpa using fun hzero : byte = 0 => hfree (hzero ▸ hmem)
    rw [ofCString] at hrest ⊢
    rw [List.takeWhile_append_of_pos hall, hrest, List.append_nil]

/-- A C string ends at a NUL, whatever stands behind it. -/
theorem ofCString_append_zero (s rest : Bytes) : ofCString (s ++ 0 :: rest) = ofCString s := by
  induction s with
  | nil => rfl
  | cons byte tail ih =>
      by_cases hzero : byte = 0
      · simp [ofCString, hzero]
      · simpa [ofCString, hzero] using ih

/-- The copy reads as what was copied. -/
theorem ofCString_strncpy (s rest : Bytes) : ofCString (strncpy s ++ 0 :: rest) = ofCString s := by
  have hfree : (0 : UInt8) ∉ ofCString s := by
    intro hmem
    exact absurd (List.mem_takeWhile_imp hmem) (by decide)
  rw [ofCString_append_zero, strncpy]
  cases s.length - strlen s with
  | zero => rw [List.replicate_zero, List.append_nil, (ofCString_eq_self_iff _).mpr hfree]
  | succ count =>
      rw [List.replicate_succ, ofCString_append_zero, (ofCString_eq_self_iff _).mpr hfree]

/-- A NUL-free text is copied unchanged. -/
theorem strncpy_of_nulFree {s : Bytes} (hfree : (0 : UInt8) ∉ s) : strncpy s = s := by
  have h := (ofCString_eq_self_iff s).mpr hfree
  simp [strncpy, strlen, h]

/-- Before the first NUL the copy agrees with the source; from there on it is
zero. -/
theorem getElem?_strncpy (s : Bytes) (i : Nat) (hi : i < s.length) :
    (strncpy s)[i]? = some (if i < strlen s then s[i] else 0) := by
  rw [strncpy, List.getElem?_append]
  change (if i < strlen s then _ else _) = _
  by_cases h : i < strlen s
  · have hprefix : ofCString s <+: s := List.takeWhile_prefix _
    rw [if_pos h, if_pos h, List.getElem?_eq_getElem h, hprefix.getElem h]
  · have hrep : i - strlen s < s.length - strlen s := by omega
    rw [if_neg h, if_neg h]
    exact List.getElem?_replicate_of_lt hrep

/-- The copy holds a NUL exactly when the source does. -/
theorem zero_mem_strncpy_iff (s : Bytes) : (0 : UInt8) ∈ strncpy s ↔ (0 : UInt8) ∈ s := by
  constructor
  · intro hcopy
    by_contra hfree
    rw [strncpy_of_nulFree hfree] at hcopy
    exact hfree hcopy
  · intro hnul
    have hshort : strlen s < s.length := by
      refine Nat.lt_of_le_of_ne (strlen_le s) fun heq => ?_
      have hwhole : ofCString s = s := (List.takeWhile_prefix _).eq_of_length heq
      exact (ofCString_eq_self_iff s).mp hwhole hnul
    exact List.mem_append_right _ (List.mem_replicate.mpr ⟨by omega, rfl⟩)

/-- A copy begins with a NUL-free text exactly when the source does. -/
theorem prefix_strncpy_iff {head : Bytes} (hfree : (0 : UInt8) ∉ head) (s : Bytes) :
    head <+: strncpy s ↔ head <+: s := by
  have hstring : ofCString s <+: s := List.takeWhile_prefix _
  constructor
  · intro hcopy
    cases List.prefix_or_prefix_of_prefix hcopy (List.prefix_append (ofCString s) _) with
    | inl hwithin => exact hwithin.trans hstring
    | inr hbeyond =>
        obtain ⟨rest, rfl⟩ := hbeyond
        -- what goes beyond the string is padding
        have hpadding := (List.prefix_append_right_inj _).mp hcopy
        cases rest with
        | nil => rwa [List.append_nil]
        | cons byte rest =>
            have hzero := List.eq_of_mem_replicate (hpadding.subset List.mem_cons_self)
            exact absurd (List.mem_append_right _ (hzero ▸ List.mem_cons_self)) hfree
  · rintro ⟨rest, rfl⟩
    have hall : ∀ byte ∈ head, decide (byte ≠ 0) = true := fun byte hmem => by
      simpa using fun h : byte = 0 => hfree (h ▸ hmem)
    rw [strncpy, ofCString, List.takeWhile_append_of_pos hall, List.append_assoc]
    exact List.prefix_append _ _

/-- The byte at `strlen` is the first NUL. -/
theorem lt_strlen_iff (s : Bytes) (i : Nat) (hi : i < s.length) :
    i < strlen s ↔ ∀ j ≤ i, s[j]? ≠ some 0 := by
  induction s generalizing i with
  | nil => simp at hi
  | cons byte rest ih =>
      by_cases hzero : byte = 0
      · subst hzero
        simp only [strlen, ofCString, List.takeWhile_cons]
        simp only [ne_eq, not_true_eq_false, decide_false, Bool.false_eq_true, if_false,
          List.length_nil, Nat.not_lt_zero, false_iff]
        intro all
        exact all 0 (Nat.zero_le i) rfl
      · have hlen : strlen (byte :: rest) = strlen rest + 1 := by
          simp [strlen, ofCString, hzero]
        rw [hlen]
        cases i with
        | zero => simpa using hzero
        | succ i =>
            have hi' : i < rest.length := by simpa using hi
            rw [Nat.succ_lt_succ_iff, ih i hi']
            constructor
            · intro all j hj
              cases j with
              | zero => simpa using hzero
              | succ j => simpa using all j (Nat.le_of_succ_le_succ hj)
            · intro all j hj
              simpa using all (j + 1) (Nat.succ_le_succ hj)

/-! ## `String` members -/

/-- `String::getBytes(buf, bufsize)`: at most `bufsize - 1` bytes, then a NUL. -/
def getBytes (s : Bytes) (bufsize : Nat) : Bytes :=
  if bufsize = 0 then [] else strncpy (s.take (bufsize - 1)) ++ [0]

/-- `String::substring(left, right)`. -/
def substring (s : Bytes) (left right : Nat) : Bytes :=
  if left ≤ right then (s.drop left).take (right - left)
  else (s.drop right).take (left - right)

/-- `String::substring(left)`. -/
def substringFrom (s : Bytes) (left : Nat) : Bytes := s.drop left

/-- `String::startsWith`. -/
def startsWith (s head : Bytes) : Bool := head.isPrefixOf s

/-- `String::operator==` with a literal, which is `strcmp` on the buffer. -/
def equals (s literal : Bytes) : Bool := ofCString s == literal

/-- `String::indexOf(c, from)`, with `none` for the result `-1`. -/
def indexOf (s : Bytes) (c : UInt8) (start : Nat) : Option Nat :=
  ((ofCString (s.drop start)).findIdx? (· == c)).map (start + ·)

/-- `isspace`. -/
def isSpace (byte : UInt8) : Bool := byte = 32 ∨ 9 ≤ byte ∧ byte ≤ 13

/-- `isdigit`. -/
def isDigit (byte : UInt8) : Bool := 48 ≤ byte ∧ byte ≤ 57

/-- `String::toInt`, which is `atol`: blanks, a sign, digits. A number that a `long` does
not hold becomes the nearest one that it does. -/
def toInt (s : Bytes) : Int :=
  let text := (ofCString s).dropWhile isSpace
  let (negative, rest) :=
    match text with
    | 45 :: rest => (true, rest)
    | 43 :: rest => (false, rest)
    | _ => (false, text)
  let value : Int :=
    (rest.takeWhile isDigit).foldl (fun number digit => 10 * number + (digit.toNat - 48)) 0
  max (-2 ^ 31) (min (2 ^ 31 - 1) (if negative then -value else value))

theorem startsWith_iff (s head : Bytes) : startsWith s head = true ↔ head <+: s := by
  rw [startsWith, List.isPrefixOf_iff_prefix]

/-- `indexOf` finds the first occurrence, provided no NUL comes before it. -/
theorem indexOf_append (front rest : Bytes) {c : UInt8} (hc : c ≠ 0)
    (hnul : (0 : UInt8) ∉ front) (hfresh : c ∉ front) :
    indexOf (front ++ c :: rest) c 0 = some front.length := by
  have htake : ofCString (front ++ c :: rest) = front ++ c :: ofCString rest := by
    have hall : ∀ byte ∈ front, decide (byte ≠ 0) = true := fun byte hmem => by
      simpa using fun h : byte = 0 => hnul (h ▸ hmem)
    rw [ofCString, List.takeWhile_append_of_pos hall, List.takeWhile_cons]
    simp [hc, ofCString]
  have hnone : front.findIdx? (· == c) = none := by
    rw [List.findIdx?_eq_none_iff]
    intro byte hmem
    simpa using fun h : byte = c => hfresh (h ▸ hmem)
  simp [indexOf, htake, List.findIdx?_append, hnone, List.findIdx?_cons]

/-- What `indexOf` finds is the first occurrence, and no NUL stands before it. -/
theorem indexOf_some {s : Bytes} {c : UInt8} {start pos : Nat}
    (h : indexOf s c start = some pos) :
    start ≤ pos ∧ s[pos]? = some c ∧
      ∀ i, start ≤ i → i < pos → s[i]? ≠ some c ∧ s[i]? ≠ some 0 := by
  rw [indexOf, Option.map_eq_some_iff] at h
  obtain ⟨k, hfind, rfl⟩ := h
  obtain ⟨hk, hhere, hbefore⟩ := List.findIdx?_eq_some_iff_getElem.mp hfind
  have hfront : ofCString (s.drop start) <+: s.drop start := List.takeWhile_prefix _
  have hread : ∀ (i : Nat) (hi : i < (ofCString (s.drop start)).length),
      s[start + i]? = some (ofCString (s.drop start))[i] := fun i hi => by
    rw [← List.getElem?_drop, List.getElem?_eq_getElem (hi.trans_le hfront.length_le),
      hfront.getElem hi]
  refine ⟨Nat.le_add_right _ _, ?_, fun i hstart hi => ?_⟩
  · rw [hread k hk, beq_iff_eq.mp hhere]
  · have hj : i - start < k := by omega
    have hbyte := hread (i - start) (hj.trans hk)
    rw [Nat.add_sub_cancel' hstart] at hbyte
    have hnul := List.mem_takeWhile_imp (List.getElem_mem (hj.trans hk))
    have hne := hbefore (i - start) hj
    rw [hbyte]
    exact ⟨fun heq => hne (beq_iff_eq.mpr (Option.some.inj heq)),
      fun heq => of_decide_eq_true hnul (Option.some.inj heq)⟩

/-- `indexOf` from the end of `skip` on. -/
theorem indexOf_append_from (skip front rest : Bytes) {c : UInt8} (hc : c ≠ 0)
    (hnul : (0 : UInt8) ∉ front) (hfresh : c ∉ front) :
    indexOf (skip ++ (front ++ c :: rest)) c skip.length = some (skip.length + front.length) := by
  have hfound := indexOf_append front rest hc hnul hfresh
  rw [indexOf, List.drop_zero, Option.map_eq_some_iff] at hfound
  obtain ⟨k, hk, hlength⟩ := hfound
  rw [Nat.zero_add] at hlength
  rw [indexOf, List.drop_left, hk, Option.map_some, hlength]

/-! ## Copying into a buffer -/

/-- `memcpy(dst + offset, src, n)`, where `src` is the list of the `n` bytes. -/
def memcpy {n : Nat} (dst : Vector UInt8 n) (offset : Nat) : Bytes → Vector UInt8 n
  | [] => dst
  | byte :: rest => memcpy (dst.setIfInBounds offset byte) (offset + 1) rest

theorem getElem?_memcpy {n : Nat} (src : Bytes) :
    ∀ (dst : Vector UInt8 n) (offset i : Nat), i < n →
      (memcpy dst offset src)[i]? =
        if offset ≤ i ∧ i < offset + src.length then src[i - offset]? else dst[i]? := by
  induction src with
  | nil =>
      intro dst offset i _
      have hnot : ¬ (offset ≤ i ∧ i < offset + ([] : Bytes).length) := by simp
      rw [if_neg hnot]
      rfl
  | cons byte rest ih =>
      intro dst offset i hin
      rw [memcpy, ih _ (offset + 1) i hin, Vector.getElem?_setIfInBounds]
      rcases Nat.lt_trichotomy i offset with hlt | rfl | hgt
      · have h1 : ¬ (offset + 1 ≤ i ∧ i < offset + 1 + rest.length) := by omega
        have h2 : ¬ (offset ≤ i ∧ i < offset + (byte :: rest).length) := by omega
        have hne : offset ≠ i := by omega
        rw [if_neg h1, if_neg h2, if_neg hne]
      · have h1 : ¬ (i + 1 ≤ i ∧ i < i + 1 + rest.length) := by omega
        have h2 : i ≤ i ∧ i < i + (byte :: rest).length := by simp
        rw [if_neg h1, if_pos h2, if_pos rfl, if_pos hin]
        simp
      · have hne : offset ≠ i := by omega
        have hsub : i - offset = (i - (offset + 1)) + 1 := by omega
        have hiff : (offset + 1 ≤ i ∧ i < offset + 1 + rest.length) ↔
            (offset ≤ i ∧ i < offset + (byte :: rest).length) := by
          simp only [List.length_cons]
          omega
        rw [if_neg hne, hsub, List.getElem?_cons_succ]
        simp only [hiff]

/-- Two copies, one behind the other, are one. -/
theorem memcpy_append {n : Nat} (first second : Bytes) :
    ∀ (dst : Vector UInt8 n) (offset : Nat),
      memcpy (memcpy dst offset first) (offset + first.length) second =
        memcpy dst offset (first ++ second) := by
  induction first with
  | nil => intro dst offset; rfl
  | cons byte rest ih =>
      intro dst offset
      have hoffset : offset + (byte :: rest).length = offset + 1 + rest.length := by
        rw [List.length_cons]
        omega
      rw [hoffset]
      exact ih _ _

/-- Copying to the start of a buffer leaves its rest. -/
theorem toList_memcpy {n : Nat} (dst : Vector UInt8 n) (src : Bytes) (hfits : src.length ≤ n) :
    (memcpy dst 0 src).toList = src ++ dst.toList.drop src.length := by
  apply List.ext_getElem?
  intro i
  rw [Vector.getElem?_toList, List.getElem?_append]
  by_cases hin : i < n
  · rw [getElem?_memcpy src dst 0 i hin]
    by_cases hi : i < src.length
    · rw [if_pos hi, if_pos (by omega), Nat.sub_zero]
    · rw [if_neg hi, if_neg (by omega), List.getElem?_drop, Vector.getElem?_toList,
        Nat.add_sub_cancel' (Nat.le_of_not_lt hi)]
  · have hout : ¬ i < src.length := by omega
    rw [if_neg hout, Vector.getElem?_eq_none (by omega), List.getElem?_drop,
      Vector.getElem?_toList, Vector.getElem?_eq_none (by omega)]

/-- What is copied to the start of a buffer is read back from there. -/
theorem take_memcpy {n : Nat} (dst : Vector UInt8 n) (src : Bytes) (hfits : src.length ≤ n) :
    (memcpy dst 0 src).toList.take src.length = src := by
  rw [toList_memcpy dst src hfits, List.take_left]

end RadioDoge
