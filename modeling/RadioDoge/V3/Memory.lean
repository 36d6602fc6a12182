/-
# Audited array accesses

The multipart code of the v3 firmware indexes fixed C arrays with numbers taken
from the air. Its model runs in `Checked`: every access records which array it
touches and at which index, and a size that is stored for a part is recorded
together with the number of bytes that were really copied. A computation is
memory safe when every event it records is `Ok`.

An access outside its array is undefined behaviour in C. Here it reads a default
and writes nothing, so that the model stays total; whatever depends on such an
access says nothing about the device. Two of them occur on well-formed traffic: the
NUL that a sender writes behind a full part, at `data[200]`, which no frame carries,
and the `strlen` of a full last part in slot 20, whose result is never used.
-/

import RadioDoge.Lib.Traced
import RadioDoge.Types

namespace RadioDoge.V3

/-- The arrays of the multipart code. -/
inductive FirmwareArray
  | multipartBuffer
  | partsReceived
  | partSizes
  | assembledData
  | assembledBuffer
  | rxPacket
  | mpPacketData
  | packet
  deriving DecidableEq, Repr

/-- `MAX_MULTIPART_PARTS`. -/
abbrev maxMultipartParts : Nat := 20

/-- `MULTIPART_CHUNK_SIZE`. -/
abbrev multipartChunkSize : Nat := 200

/-- `MULTIPART_HEADER_SIZE`. -/
abbrev multipartHeaderSize : Nat := 12

/-- `BUFFER_SIZE`. -/
abbrev bufferSize : Nat := 256

/-- The number of bytes of `assembledData`. -/
abbrev assembledSize : Nat := 4000

/-- The declared number of elements of each array. -/
def FirmwareArray.size : FirmwareArray → Nat
  | .multipartBuffer => maxMultipartParts
  | .partsReceived => maxMultipartParts
  | .partSizes => maxMultipartParts
  | .assembledData => assembledSize
  | .assembledBuffer => assembledSize + 1
  | .rxPacket => bufferSize
  | .mpPacketData => multipartChunkSize
  | .packet => bufferSize

/-- What the audit records. -/
inductive MemoryEvent
  | access (array : FirmwareArray) (index : Nat)
  | storedSize (stored : UInt16) (copied : Nat)
  deriving DecidableEq, Repr

/-- The access is inside its array; the stored size is the number of bytes
copied. -/
def MemoryEvent.Ok : MemoryEvent → Prop
  | .access array index => index < array.size
  | .storedSize stored copied => stored.toNat = copied

instance : DecidablePred MemoryEvent.Ok := fun event =>
  match event with
  | .access array index => inferInstanceAs (Decidable (index < array.size))
  | .storedSize stored copied => inferInstanceAs (Decidable (stored.toNat = copied))

/-- Computations whose array accesses are recorded. -/
abbrev Checked := Traced MemoryEvent

/-- Every access is in bounds and every stored size is true. -/
abbrev MemorySafe {α : Type} (x : Checked α) : Prop := x.Every MemoryEvent.Ok

section Access

variable {α : Type} {n m : Nat}

/-- `array[index]`, read. -/
def readAt [Inhabited α] (array : FirmwareArray) (v : Vector α n) (index : Nat) :
    Checked α := do
  Traced.emit (.access array index)
  pure (v[index]?.getD default)

/-- `array[index] = value`. -/
def writeAt (array : FirmwareArray) (v : Vector α n) (index : Nat) (value : α) :
    Checked (Vector α n) := do
  Traced.emit (.access array index)
  pure (v.setIfInBounds index value)

@[simp]
theorem val_readAt [Inhabited α] (array : FirmwareArray) (v : Vector α n) (index : Nat) :
    (readAt array v index).val = v[index]?.getD default := rfl

@[simp]
theorem memorySafe_readAt [Inhabited α] (array : FirmwareArray) (v : Vector α n)
    (index : Nat) : MemorySafe (readAt array v index) ↔ index < array.size := by
  simp [readAt, MemoryEvent.Ok]

@[simp]
theorem val_writeAt (array : FirmwareArray) (v : Vector α n) (index : Nat) (value : α) :
    (writeAt array v index value).val = v.setIfInBounds index value := rfl

@[simp]
theorem memorySafe_writeAt (array : FirmwareArray) (v : Vector α n) (index : Nat)
    (value : α) : MemorySafe (writeAt array v index value) ↔ index < array.size := by
  simp [writeAt, MemoryEvent.Ok]

end Access

/-! ## Stretches of a buffer -/

/-- The `count` bytes of a buffer from `offset` on. -/
def slice {n : Nat} (v : Vector UInt8 n) (offset count : Nat) : Bytes :=
  (v.toList.drop offset).take count

theorem getElem?_slice {n : Nat} (v : Vector UInt8 n) (offset count i : Nat) :
    (slice v offset count)[i]? = if i < count then v[offset + i]? else none := by
  simp [slice, List.getElem?_take]

theorem length_slice {n : Nat} (v : Vector UInt8 n) {offset count : Nat}
    (hfits : offset + count ≤ n) : (slice v offset count).length = count := by
  simp only [slice, List.length_take, List.length_drop, Vector.length_toList]
  omega

/-- Reading back what `memcpy` stored; a tail that does not fit is dropped. -/
theorem slice_memcpy {n : Nat} (dst : Vector UInt8 n) (offset count : Nat) (src : Bytes)
    (hcount : count ≤ src.length) (hfits : offset + count ≤ n) :
    slice (memcpy dst offset src) offset count = src.take count := by
  apply List.ext_getElem?
  intro i
  rw [getElem?_slice, List.getElem?_take]
  by_cases hi : i < count
  · have hin : offset ≤ offset + i ∧ offset + i < offset + src.length := by omega
    rw [if_pos hi, if_pos hi, getElem?_memcpy src dst offset _ (by omega), if_pos hin,
      Nat.add_sub_cancel_left]
  · rw [if_neg hi, if_neg hi]

/-- A stretch that `memcpy` does not meet is unchanged. -/
theorem slice_memcpy_disjoint {n : Nat} (dst : Vector UInt8 n) (dstOffset : Nat) (src : Bytes)
    (offset count : Nat) (hfits : offset + count ≤ n)
    (hapart : offset + count ≤ dstOffset ∨ dstOffset + src.length ≤ offset) :
    slice (memcpy dst dstOffset src) offset count = slice dst offset count := by
  apply List.ext_getElem?
  intro i
  rw [getElem?_slice, getElem?_slice]
  by_cases hi : i < count
  · have hout : ¬ (dstOffset ≤ offset + i ∧ offset + i < dstOffset + src.length) := by omega
    rw [if_pos hi, if_pos hi, getElem?_memcpy src dst dstOffset _ (by omega), if_neg hout]
  · rw [if_neg hi, if_neg hi]

theorem slice_append {n : Nat} (v : Vector UInt8 n) (offset first second : Nat) :
    slice v offset (first + second) =
      slice v offset first ++ slice v (offset + first) second := by
  rw [slice, slice, slice, ← List.drop_drop, List.take_add]

/-- `for (i = 0; i < count; i++) dst[dstOffset + i] = src[srcOffset + i]`. -/
def copyBytes {m n : Nat} (srcArray : FirmwareArray) (src : Vector UInt8 m) (srcOffset : Nat)
    (dstArray : FirmwareArray) (dst : Vector UInt8 n) (dstOffset count : Nat) :
    Checked (Vector UInt8 n) :=
  Traced.forUpTo (fun i buffer => do
    let byte ← readAt srcArray src (srcOffset + i)
    writeAt dstArray buffer (dstOffset + i) byte) dst count

section Copy

variable {m n : Nat} (srcArray : FirmwareArray) (src : Vector UInt8 m) (srcOffset : Nat)
  (dstArray : FirmwareArray) (dst : Vector UInt8 n) (dstOffset count : Nat)

/-- The copied stretch holds the source; the rest of the destination is
unchanged. -/
theorem getElem?_copyBytes (j : Nat) (hj : j < n) :
    (copyBytes srcArray src srcOffset dstArray dst dstOffset count).val[j]? =
      if dstOffset ≤ j ∧ j < dstOffset + count
      then some (src[srcOffset + (j - dstOffset)]?.getD default) else dst[j]? := by
  induction count with
  | zero =>
      have hnot : ¬ (dstOffset ≤ j ∧ j < dstOffset + 0) := by omega
      rw [if_neg hnot]
      rfl
  | succ count ih =>
      have hstep : (copyBytes srcArray src srcOffset dstArray dst dstOffset (count + 1)).val =
          (copyBytes srcArray src srcOffset dstArray dst dstOffset count).val.setIfInBounds
            (dstOffset + count) (src[srcOffset + count]?.getD default) := rfl
      rw [hstep, Vector.getElem?_setIfInBounds, ih]
      by_cases hlast : dstOffset + count = j
      · subst hlast
        have hin : dstOffset ≤ dstOffset + count ∧
            dstOffset + count < dstOffset + (count + 1) := by omega
        rw [if_pos rfl, if_pos hj, if_pos hin, Nat.add_sub_cancel_left]
      · have hiff : (dstOffset ≤ j ∧ j < dstOffset + (count + 1)) ↔
            (dstOffset ≤ j ∧ j < dstOffset + count) := by omega
        rw [if_neg hlast]
        simp only [hiff]

/-- Reading back what was copied. -/
theorem slice_copyBytes_self (hsrc : srcOffset + count ≤ m) (hdst : dstOffset + count ≤ n) :
    slice (copyBytes srcArray src srcOffset dstArray dst dstOffset count).val
      dstOffset count = slice src srcOffset count := by
  apply List.ext_getElem?
  intro i
  rw [getElem?_slice, getElem?_slice]
  by_cases hi : i < count
  · have hin : dstOffset ≤ dstOffset + i ∧ dstOffset + i < dstOffset + count := by omega
    have hread : srcOffset + i < m := by omega
    rw [if_pos hi, if_pos hi, getElem?_copyBytes _ _ _ _ _ _ _ _ (by omega), if_pos hin,
      Nat.add_sub_cancel_left, Vector.getElem?_eq_getElem hread]
    rfl
  · rw [if_neg hi, if_neg hi]

/-- A stretch that does not meet the copied one is unchanged. -/
theorem slice_copyBytes_disjoint (offset length : Nat) (hfits : offset + length ≤ n)
    (hapart : offset + length ≤ dstOffset ∨ dstOffset + count ≤ offset) :
    slice (copyBytes srcArray src srcOffset dstArray dst dstOffset count).val
      offset length = slice dst offset length := by
  apply List.ext_getElem?
  intro i
  rw [getElem?_slice, getElem?_slice]
  by_cases hi : i < length
  · have hout : ¬ (dstOffset ≤ offset + i ∧ offset + i < dstOffset + count) := by omega
    rw [if_pos hi, if_pos hi, getElem?_copyBytes _ _ _ _ _ _ _ _ (by omega), if_neg hout]
  · rw [if_neg hi, if_neg hi]

/-- A copy is safe when both stretches lie in their arrays. -/
theorem memorySafe_copyBytes :
    MemorySafe (copyBytes srcArray src srcOffset dstArray dst dstOffset count) ↔
      ∀ i < count, srcOffset + i < srcArray.size ∧ dstOffset + i < dstArray.size := by
  simp [copyBytes, Traced.every_forUpTo]

end Copy

/-! ## `strlen` on a buffer -/

/-- `strlen(array + position)`: read on until a NUL byte. The read that leaves
the array is recorded and ends the scan. -/
def scanNul {n : Nat} (array : FirmwareArray) (v : Vector UInt8 n) (position : Nat) :
    Nat → Checked Nat
  | 0 => pure 0
  | fuel + 1 => do
      let byte ← readAt array v position
      if byte = 0 then pure 0
      else do
        let rest ← scanNul array v (position + 1) fuel
        pure (rest + 1)

/-- The scan stays inside the array exactly when a NUL byte ends it there. -/
theorem memorySafe_scanNul {n : Nat} (array : FirmwareArray) (v : Vector UInt8 n)
    (hsize : array.size = n) :
    ∀ (fuel position : Nat), position + fuel = n + 1 →
      (MemorySafe (scanNul array v position fuel) ↔
        position = n + 1 ∨ ∃ j, position ≤ j ∧ v[j]? = some 0) := by
  intro fuel
  induction fuel with
  | zero => intro position hend; simp [scanNul, ← hend]
  | succ fuel ih =>
      intro position hend
      by_cases hin : position < n
      · have hread : v[position]? = some v[position] := Vector.getElem?_eq_getElem hin
        have hnext := ih (position + 1) (by omega)
        simp only [scanNul, Traced.every_bind, memorySafe_readAt, hsize, hin, true_and,
          val_readAt, hread, Option.getD_some, Traced.every_ite, Traced.every_pure,
          implies_true, and_true, hnext]
        constructor
        · intro rest
          by_cases hzero : v[position] = 0
          · exact .inr ⟨position, le_rfl, by rw [hread, hzero]⟩
          · rcases rest hzero with hlast | ⟨j, hj, hnul⟩
            · omega
            · exact .inr ⟨j, by omega, hnul⟩
        · rintro (hlast | ⟨j, hj, hnul⟩) hzero
          · omega
          · have hne : j ≠ position := by
              rintro rfl
              rw [hread] at hnul
              exact hzero (Option.some.inj hnul)
            exact .inr ⟨j, by omega, hnul⟩
      · have hnone : ∀ j, position ≤ j → v[j]? ≠ some 0 := fun j hj => by
          rw [Vector.getElem?_eq_none (by omega)]
          simp
        have hlt : ¬ position < array.size := by omega
        have hne : position ≠ n + 1 := by omega
        simp only [scanNul, Traced.every_bind, memorySafe_readAt, hlt, false_and, hne, false_or,
          false_iff, not_exists, not_and]
        exact hnone

end RadioDoge.V3
