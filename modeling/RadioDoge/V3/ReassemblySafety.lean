/-
# Which frames the receiver survives

Part number and total are bytes of the frame, and the session that a frame is
stored in may have been opened with another total. `FrameFits` says, of the
session table and the frame, when every access stays inside its array and the
stored size is the number of bytes copied; `memorySafe_step` shows that this is
exact, and `memorySafe_run` carries it over whole runs. The invariant is
`SizesTrue`: the size stored for a part is the size of data that is there.
-/

import RadioDoge.V3.Reassembly

namespace RadioDoge.V3

namespace MultipartReassembly

/-- Whether a part has been received. -/
def received (s : MultipartReassembly) (part : Nat) : Bool := s.partsReceived[part]?.getD default

/-- The size stored for a part. -/
def sizeOf (s : MultipartReassembly) (part : Nat) : Nat := (s.partSizes[part]?.getD default).toNat

/-- The bytes that the join loop appends for a part. -/
def joinedSize (s : MultipartReassembly) (part : Nat) : Nat :=
  if s.received part then s.sizeOf part else 0

/-- The stored sizes are those of data inside `assembledData`. -/
def SizesTrue (s : MultipartReassembly) : Prop :=
  ∀ part < maxMultipartParts, s.received part = true →
    part * multipartChunkSize + s.sizeOf part ≤ assembledSize

end MultipartReassembly

/-! ## The frame and its session -/

/-- The number of data bytes of the frame in the receive buffer. -/
def RxBuffer.dataSize (rx : RxBuffer) : Nat := (rx.rxSize - multipartHeaderSize).toNat

/-- Storing part `partNumber` stays in bounds and stores a true size. -/
structure StoreFits (rx : RxBuffer) (s : MultipartReassembly) (partNumber : UInt8) : Prop where
  total_le : s.totalParts.toNat ≤ maxMultipartParts
  header_le : (multipartHeaderSize : Int) ≤ rx.rxSize
  data_le : (partNumber.toNat - 1) * multipartChunkSize + rx.dataSize ≤ assembledSize

/-- The bytes joined for a part once the frame is stored. -/
def sizeAfter (rx : RxBuffer) (s : MultipartReassembly) (partNumber : UInt8) (part : Nat) : Nat :=
  if part + 1 = partNumber.toNat then rx.dataSize else s.joinedSize part

/-- A byte of `assembledData` once the frame is stored. -/
def byteAfter (rx : RxBuffer) (s : MultipartReassembly) (partNumber : UInt8) (j : Nat) : UInt8 :=
  let startPos := (partNumber.toNat - 1) * multipartChunkSize
  if startPos ≤ j ∧ j < startPos + rx.dataSize
  then rx.byte (multipartHeaderSize + (j - startPos))
  else s.assembledData[j]?.getD 0

/-- The join after storing part `partNumber` stays in bounds: the joined parts fit
the local buffer, and `strlen` of the last part finds a NUL byte. -/
structure JoinFits (rx : RxBuffer) (s : MultipartReassembly) (partNumber : UInt8) : Prop where
  joined_le : ((List.range s.totalParts.toNat).map (sizeAfter rx s partNumber)).sum ≤
    assembledSize + 1
  terminated : ∀ last, last + 1 = s.totalParts.toNat →
    last + 1 = partNumber.toNat ∨ s.received last = true →
    ∃ j, last * multipartChunkSize ≤ j ∧ j < assembledSize ∧ byteAfter rx s partNumber j = 0

/-- The frame can be processed in its session. -/
def PartFits (rx : RxBuffer) (s : MultipartReassembly) (partNumber totalParts : UInt8) : Prop :=
  partNumber < 1 ∨ partNumber > totalParts ∨
    partNumber.toNat ≤ maxMultipartParts ∧
      (s.received (partNumber.toNat - 1) = true ∨
        StoreFits rx s partNumber ∧
          (s.receivedParts + 1 = totalParts → JoinFits rx s partNumber))

/-- The session a frame is processed in: the one that is found, else the next
free slot as `CreateMultipartSession` leaves it. -/
def sessionOf (now : UInt32) (rx : RxBuffer) (table : SessionTable) :
    Option MultipartReassembly :=
  let src : NodeAddress := ⟨rx.byte 4, rx.byte 5, rx.byte 6⟩
  match findMultipartSession table src (rx.byte 9) with
  | some slot => some (table.slots[slot]?.getD default)
  | none =>
      if table.count < maxMultipartParts then
        some ((table.slots[table.count]?.getD default).reuse now src (rx.byte 8) (rx.byte 9))
      else none

/-- The frame in the receive buffer can be processed. -/
def FrameFits (now : UInt32) (rx : RxBuffer) (table : SessionTable) : Prop :=
  ∀ s ∈ sessionOf now rx table, PartFits rx s (rx.byte 7) (rx.byte 8)

/-! ## Storing a part -/

section StorePart

variable {rx : RxBuffer} {s : MultipartReassembly} {partNumber : UInt8}

/-- The size that is stored is the number of bytes copied exactly when the frame
has a whole header and its data ends inside `assembledData`. -/
theorem storedSize_eq_iff (hnonneg : 0 ≤ rx.rxSize) (hsize : rx.rxSize < bufferSize)
    (startPos : Nat) :
    (UInt16.ofNat ((rx.rxSize - (multipartHeaderSize : Nat)) % 2 ^ 16).toNat).toNat =
        min (rx.rxSize - (multipartHeaderSize : Nat)).toNat (assembledSize - startPos) ↔
      (multipartHeaderSize : Int) ≤ rx.rxSize ∧
        (rx.dataSize = 0 ∨ startPos + rx.dataSize ≤ assembledSize) := by
  rw [UInt16.toNat_ofNat']
  simp only [RxBuffer.dataSize, multipartHeaderSize, bufferSize, assembledSize] at *
  omega

theorem memorySafe_storePart (hnonneg : 0 ≤ rx.rxSize) (hsize : rx.rxSize < bufferSize)
    (hpos : 1 ≤ partNumber.toNat) (hlast : partNumber.toNat ≤ maxMultipartParts) :
    MemorySafe (storePart rx s partNumber) ↔
      (multipartHeaderSize : Int) ≤ rx.rxSize ∧
        (partNumber.toNat - 1) * multipartChunkSize + rx.dataSize ≤ assembledSize := by
  have hindex : partNumber.toNat - 1 < maxMultipartParts := by omega
  have hstart : (partNumber.toNat - 1) * multipartChunkSize ≤ assembledSize := by
    simp only [maxMultipartParts, multipartChunkSize, assembledSize] at *
    omega
  have hcopy : ∀ i < min (rx.rxSize - (multipartHeaderSize : Nat)).toNat
      (assembledSize - (partNumber.toNat - 1) * multipartChunkSize),
      multipartHeaderSize + i < FirmwareArray.rxPacket.size ∧
      (partNumber.toNat - 1) * multipartChunkSize + i < FirmwareArray.assembledData.size := by
    intro i hi
    simp only [FirmwareArray.size, multipartHeaderSize, bufferSize, assembledSize,
      multipartChunkSize] at *
    omega
  have hstored := storedSize_eq_iff hnonneg hsize ((partNumber.toNat - 1) * multipartChunkSize)
  have hzero : rx.dataSize = 0 ∨
      (partNumber.toNat - 1) * multipartChunkSize + rx.dataSize ≤ assembledSize ↔
      (partNumber.toNat - 1) * multipartChunkSize + rx.dataSize ≤ assembledSize := by
    constructor
    · rintro (hnone | hfits)
      · rw [hnone]
        exact hstart
      · exact hfits
    · exact .inr
  rw [hzero] at hstored
  simp only [storePart, Traced.every_bind, memorySafe_copyBytes, Traced.every_emit,
    MemoryEvent.Ok, memorySafe_writeAt, Traced.every_pure, hstored, FirmwareArray.size, hindex,
    and_true]
  exact ⟨fun h => h.2, fun h => ⟨hcopy, h⟩⟩

theorem received_storePart (part : Nat) (hpart : part < maxMultipartParts)
    (hpos : 1 ≤ partNumber.toNat) :
    (storePart rx s partNumber).val.received part =
      if part + 1 = partNumber.toNat then true else s.received part := by
  simp only [storePart, Traced.val_bind, Traced.val_pure, val_writeAt,
    MultipartReassembly.received, Vector.getElem?_setIfInBounds]
  by_cases heq : part + 1 = partNumber.toNat
  · have hindex : partNumber.toNat - 1 = part := by omega
    rw [if_pos heq, if_pos hindex, if_pos (hindex ▸ hpart), Option.getD_some]
  · have hindex : partNumber.toNat - 1 ≠ part := by omega
    rw [if_neg heq, if_neg hindex]

theorem sizeOf_storePart (hfits : StoreFits rx s partNumber) (hsize : rx.rxSize < bufferSize)
    (part : Nat) (hpart : part < maxMultipartParts) (hpos : 1 ≤ partNumber.toNat) :
    (storePart rx s partNumber).val.sizeOf part =
      if part + 1 = partNumber.toNat then rx.dataSize else s.sizeOf part := by
  have hstored : (UInt16.ofNat ((rx.rxSize - (multipartHeaderSize : Nat)) % 2 ^ 16).toNat).toNat =
      rx.dataSize := by
    have hheader := hfits.header_le
    rw [UInt16.toNat_ofNat']
    simp only [RxBuffer.dataSize, multipartHeaderSize, bufferSize] at *
    omega
  simp only [storePart, Traced.val_bind, Traced.val_pure, val_writeAt,
    MultipartReassembly.sizeOf, Vector.getElem?_setIfInBounds]
  by_cases heq : part + 1 = partNumber.toNat
  · have hindex : partNumber.toNat - 1 = part := by omega
    rw [if_pos heq, if_pos hindex, if_pos (hindex ▸ hpart), Option.getD_some, hstored]
  · have hindex : partNumber.toNat - 1 ≠ part := by omega
    rw [if_neg heq, if_neg hindex]

theorem joinedSize_storePart (hfits : StoreFits rx s partNumber) (hsize : rx.rxSize < bufferSize)
    (part : Nat) (hpart : part < maxMultipartParts) (hpos : 1 ≤ partNumber.toNat) :
    (storePart rx s partNumber).val.joinedSize part = sizeAfter rx s partNumber part := by
  rw [MultipartReassembly.joinedSize, received_storePart part hpart hpos,
    sizeOf_storePart hfits hsize part hpart hpos, sizeAfter, MultipartReassembly.joinedSize]
  by_cases heq : part + 1 = partNumber.toNat
  · simp [heq]
  · simp [heq]

theorem byte_storePart (hfits : StoreFits rx s partNumber) {j : Nat} (hj : j < assembledSize) :
    (storePart rx s partNumber).val.assembledData[j]? = some (byteAfter rx s partNumber j) := by
  have hcount : min (rx.rxSize - (multipartHeaderSize : Nat)).toNat
      (assembledSize - (partNumber.toNat - 1) * multipartChunkSize) = rx.dataSize := by
    have hdata := hfits.data_le
    rw [RxBuffer.dataSize] at hdata ⊢
    omega
  simp only [storePart, Traced.val_bind, Traced.val_pure, hcount]
  rw [getElem?_copyBytes _ _ _ _ _ _ _ _ hj, byteAfter]
  by_cases hin : (partNumber.toNat - 1) * multipartChunkSize ≤ j ∧
      j < (partNumber.toNat - 1) * multipartChunkSize + rx.dataSize
  · rw [if_pos hin, if_pos hin]
    rfl
  · rw [if_neg hin, if_neg hin, Vector.getElem?_eq_getElem hj, Option.getD_some]

/-- Storing a part keeps the stored sizes true. -/
theorem sizesTrue_storePart (hfits : StoreFits rx s partNumber) (hsize : rx.rxSize < bufferSize)
    (hpos : 1 ≤ partNumber.toNat) (h : s.SizesTrue) :
    (storePart rx s partNumber).val.SizesTrue := by
  intro part hpart hreceived
  rw [received_storePart part hpart hpos] at hreceived
  rw [sizeOf_storePart hfits hsize part hpart hpos]
  by_cases heq : part + 1 = partNumber.toNat
  · have hindex : partNumber.toNat - 1 = part := by omega
    rw [if_pos heq, ← hindex]
    exact hfits.data_le
  · rw [if_neg heq] at hreceived ⊢
    exact h part hpart hreceived

end StorePart

/-! ## Joining the parts -/

section Join

variable {s : MultipartReassembly}

theorem memorySafe_measurePart (part total : Nat) :
    MemorySafe (measurePart s part total) ↔ part < maxMultipartParts ∧
      (s.received part = true → part + 1 = s.totalParts.toNat →
        MemorySafe (scanNul .assembledData s.assembledData (part * multipartChunkSize)
          (assembledSize + 1 - part * multipartChunkSize))) := by
  simp only [measurePart, Traced.every_bind, memorySafe_readAt, FirmwareArray.size,
    Traced.every_ite, Traced.every_pure, implies_true, and_true]
  rfl

/-- `strlen` of the last part is the only doubtful access of the first loop. -/
theorem memorySafe_totalDataSize (htotal : s.totalParts.toNat ≤ maxMultipartParts) :
    MemorySafe (totalDataSize s) ↔
      ∀ last, last + 1 = s.totalParts.toNat → s.received last = true →
        ∃ j, last * multipartChunkSize ≤ j ∧ j < assembledSize ∧
          s.assembledData[j]? = some 0 := by
  have hscan : ∀ last, last + 1 = s.totalParts.toNat →
      (MemorySafe (scanNul .assembledData s.assembledData (last * multipartChunkSize)
          (assembledSize + 1 - last * multipartChunkSize)) ↔
        ∃ j, last * multipartChunkSize ≤ j ∧ j < assembledSize ∧
          s.assembledData[j]? = some 0) := by
    intro last hlast
    have hstart : last * multipartChunkSize < assembledSize := by
      simp only [maxMultipartParts, multipartChunkSize, assembledSize] at *
      omega
    rw [memorySafe_scanNul .assembledData s.assembledData rfl _ _ (by omega)]
    constructor
    · rintro (hend | ⟨j, hj, hnul⟩)
      · omega
      · exact ⟨j, hj, (Vector.getElem?_eq_some_iff.mp hnul).1, hnul⟩
    · rintro ⟨j, hj, _, hnul⟩
      exact .inr ⟨j, hj, hnul⟩
  simp only [totalDataSize, Traced.every_forUpTo, memorySafe_measurePart]
  constructor
  · intro hall last hlast hreceived
    exact (hscan last hlast).mp ((hall last (by omega)).2 hreceived hlast)
  · intro hall part hpart
    exact ⟨by omega, fun hreceived hlast => (hscan part hlast).mpr (hall part hlast hreceived)⟩

/-- The joined data grows by the stored sizes of the received parts. -/
theorem length_joinPart (part : Nat) (joined : Vector UInt8 (assembledSize + 1) × Nat) :
    (joinPart s part joined).val.2 = joined.2 + s.joinedSize part := by
  simp only [joinPart, Traced.val_bind, Traced.val_ite, Traced.val_pure]
  rw [MultipartReassembly.joinedSize, val_readAt]
  by_cases hreceived : s.received part = true
  · rw [if_pos hreceived, if_pos (show s.partsReceived[part]?.getD default = true from hreceived)]
    rfl
  · rw [if_neg hreceived, if_neg (show ¬ s.partsReceived[part]?.getD default = true from hreceived)]
    rfl

theorem length_joinParts (k : Nat) :
    (Traced.forUpTo (joinPart s) (Vector.replicate (assembledSize + 1) 0, 0) k).val.2 =
      ((List.range k).map s.joinedSize).sum := by
  induction k with
  | zero => rfl
  | succ k ih =>
      rw [Traced.forUpTo_succ, Traced.val_bind, length_joinPart, ih, List.range_succ,
        List.map_append, List.sum_append]
      rfl

/-- Appending a part is safe when it still fits the local buffer. -/
theorem memorySafe_joinPart (h : s.SizesTrue) {part : Nat} (hpart : part < maxMultipartParts)
    (joined : Vector UInt8 (assembledSize + 1) × Nat) :
    MemorySafe (joinPart s part joined) ↔
      s.joinedSize part = 0 ∨ joined.2 + s.joinedSize part ≤ assembledSize + 1 := by
  simp only [joinPart, Traced.every_bind, memorySafe_readAt, FirmwareArray.size,
    Traced.every_ite, Traced.every_pure, implies_true, and_true, hpart, true_and,
    memorySafe_copyBytes]
  change (s.received part = true → ∀ i < s.sizeOf part, _) ↔ _
  rw [MultipartReassembly.joinedSize]
  by_cases hreceived : s.received part = true
  · have hsource := h part hpart hreceived
    rw [if_pos hreceived]
    constructor
    · intro hall
      by_contra hover
      push Not at hover
      have hlast := (hall hreceived (s.sizeOf part - 1) (by omega)).2
      omega
    · intro hfits _ i hi
      refine ⟨by omega, ?_⟩
      rcases hfits with hnone | hroom
      · omega
      · omega
  · rw [if_neg hreceived]
    exact ⟨fun _ => .inl rfl, fun _ hyes => absurd hyes hreceived⟩

/-- The joined parts have to fit the local buffer, no more. -/
theorem memorySafe_joinParts (h : s.SizesTrue) (htotal : s.totalParts.toNat ≤ maxMultipartParts) :
    MemorySafe (joinParts s) ↔
      ((List.range s.totalParts.toNat).map s.joinedSize).sum ≤ assembledSize + 1 := by
  have hprefix : ∀ k ≤ s.totalParts.toNat,
      (MemorySafe (Traced.forUpTo (joinPart s) (Vector.replicate (assembledSize + 1) 0, 0) k) ↔
        ((List.range k).map s.joinedSize).sum ≤ assembledSize + 1) := by
    intro k
    induction k with
    | zero => simp
    | succ k ih =>
        intro hk
        have hsum : ((List.range (k + 1)).map s.joinedSize).sum =
            ((List.range k).map s.joinedSize).sum + s.joinedSize k := by
          rw [List.range_succ, List.map_append, List.sum_append]
          rfl
        simp only [Traced.forUpTo_succ, Traced.every_bind, ih (by omega), length_joinParts,
          memorySafe_joinPart h (show k < maxMultipartParts by omega), hsum]
        omega
  exact hprefix _ le_rfl

theorem memorySafe_assembledString (buffer : Vector UInt8 (assembledSize + 1)) (length : Nat) :
    MemorySafe (assembledString buffer length) ↔ length ≤ assembledSize + 1 := by
  simp only [assembledString, Traced.every_forUpTo, Traced.every_bind, memorySafe_readAt,
    FirmwareArray.size, Traced.every_pure, and_true]
  constructor
  · intro hall
    by_contra hover
    have hlast := hall (length - 1) (by omega)
    omega
  · intro hlength i hi
    omega

end Join

/-! ## One frame -/

/-- `ReassembleMultipartPacket` right after the part was stored. -/
theorem memorySafe_reassemble {table : SessionTable} {slot : Nat} {s : MultipartReassembly}
    (hslot : slot < maxMultipartParts) (hread : table.slots[slot]?.getD default = s)
    (h : s.SizesTrue) (htotal : s.totalParts.toNat ≤ maxMultipartParts) :
    MemorySafe (reassembleMultipartPacket table slot) ↔
      ((List.range s.totalParts.toNat).map s.joinedSize).sum ≤ assembledSize + 1 ∧
      ∀ last, last + 1 = s.totalParts.toNat → s.received last = true →
        ∃ j, last * multipartChunkSize ≤ j ∧ j < assembledSize ∧
          s.assembledData[j]? = some 0 := by
  have hlength : (joinParts s).val.2 = ((List.range s.totalParts.toNat).map s.joinedSize).sum :=
    length_joinParts s.totalParts.toNat
  simp only [reassembleMultipartPacket, Traced.every_bind, memorySafe_readAt, FirmwareArray.size,
    hslot, true_and, val_readAt, hread, memorySafe_totalDataSize htotal,
    memorySafe_joinParts h htotal, memorySafe_assembledString, hlength, Traced.every_pure, and_true]
  exact ⟨fun hall => ⟨hall.2.1, hall.1⟩, fun hall => ⟨hall.2, hall.1, hall.1⟩⟩

/-- The join that follows the last part is safe exactly when it fits. -/
theorem memorySafe_reassemble_storePart {rx : RxBuffer} {table : SessionTable} {slot : Nat}
    {s : MultipartReassembly} {partNumber : UInt8} (hslot : slot < maxMultipartParts)
    (h : s.SizesTrue) (hfits : StoreFits rx s partNumber) (hsize : rx.rxSize < bufferSize)
    (hpos : 1 ≤ partNumber.toNat) :
    MemorySafe (reassembleMultipartPacket (table.store slot (storePart rx s partNumber).val) slot) ↔
      JoinFits rx s partNumber := by
  have htotal : (storePart rx s partNumber).val.totalParts.toNat ≤ maxMultipartParts :=
    hfits.total_le
  have hread : (table.store slot (storePart rx s partNumber).val).slots[slot]?.getD default =
      (storePart rx s partNumber).val := by
    simp [SlotTable.store, hslot]
  have hsum : ((List.range s.totalParts.toNat).map (storePart rx s partNumber).val.joinedSize) =
      (List.range s.totalParts.toNat).map (sizeAfter rx s partNumber) := by
    apply List.map_congr_left
    intro part hpart
    have hlt := List.mem_range.mp hpart
    exact joinedSize_storePart hfits hsize part (by have := hfits.total_le; omega) hpos
  have hnul : ∀ last, last + 1 = s.totalParts.toNat →
      (((storePart rx s partNumber).val.received last = true →
        ∃ j, last * multipartChunkSize ≤ j ∧ j < assembledSize ∧
          (storePart rx s partNumber).val.assembledData[j]? = some 0) ↔
      (last + 1 = partNumber.toNat ∨ s.received last = true →
        ∃ j, last * multipartChunkSize ≤ j ∧ j < assembledSize ∧
          byteAfter rx s partNumber j = 0)) := by
    intro last hlast
    have hlt : last < maxMultipartParts := by
      have := hfits.total_le
      omega
    have hreceived : (storePart rx s partNumber).val.received last = true ↔
        last + 1 = partNumber.toNat ∨ s.received last = true := by
      rw [received_storePart last hlt hpos]
      by_cases heq : last + 1 = partNumber.toNat
      · simp [heq]
      · simp [heq]
    have hbyte : ∀ j < assembledSize,
        ((storePart rx s partNumber).val.assembledData[j]? = some 0 ↔
          byteAfter rx s partNumber j = 0) := fun j hj => by
      rw [byte_storePart hfits hj, Option.some.injEq]
    rw [hreceived]
    refine imp_congr_right fun _ => exists_congr fun j => and_congr_right fun _ =>
      and_congr_right fun hj => hbyte j hj
  rw [memorySafe_reassemble hslot hread (sizesTrue_storePart hfits hsize hpos h) htotal]
  change ((List.range s.totalParts.toNat).map _).sum ≤ _ ∧ (∀ last, last + 1 = s.totalParts.toNat → _)
    ↔ _
  rw [hsum]
  constructor
  · rintro ⟨hle, hterm⟩
    exact ⟨hle, fun last hlast => (hnul last hlast).mp (hterm last hlast)⟩
  · rintro ⟨hle, hterm⟩
    exact ⟨hle, fun last hlast => (hnul last hlast).mpr (hterm last hlast)⟩

/-- The frame is processed safely in its session exactly when it fits. -/
theorem memorySafe_receivePart {rx : RxBuffer} {table : SessionTable} {slot : Nat}
    {s : MultipartReassembly} (hslot : slot < maxMultipartParts)
    (hread : table.slots[slot]?.getD default = s) (h : s.SizesTrue)
    (hnonneg : 0 ≤ rx.rxSize) (hsize : rx.rxSize < bufferSize) (partNumber totalParts : UInt8) :
    MemorySafe (receivePart rx table slot partNumber totalParts) ↔
      PartFits rx s partNumber totalParts := by
  by_cases hinvalid : partNumber < 1 ∨ partNumber > totalParts
  · rw [receivePart, if_pos hinvalid]
    have hfits : PartFits rx s partNumber totalParts := by
      rcases hinvalid with hzero | hover
      · exact .inl hzero
      · exact .inr (.inl hover)
    simp only [Traced.every_pure, hfits]
  · have hpos : 1 ≤ partNumber.toNat := by
      have hnot : ¬ partNumber < 1 := fun hlt => hinvalid (.inl hlt)
      rw [UInt8.lt_iff_toNat_lt] at hnot
      exact Nat.le_of_not_lt hnot
    have hiff : PartFits rx s partNumber totalParts ↔ partNumber.toNat ≤ maxMultipartParts ∧
        (s.received (partNumber.toNat - 1) = true ∨ StoreFits rx s partNumber ∧
          (s.receivedParts + 1 = totalParts → JoinFits rx s partNumber)) := by
      rw [PartFits, ← or_assoc, or_iff_right hinvalid]
    rw [hiff, receivePart, if_neg hinvalid]
    simp only [Traced.every_bind, memorySafe_readAt, FirmwareArray.size, hslot, true_and,
      Traced.every_ite, Traced.every_pure, implies_true, Traced.every_forUpTo, and_true]
    rw [val_readAt .multipartBuffer table.slots slot, hread]
    change partNumber.toNat - 1 < maxMultipartParts ∧
      (¬ s.received (partNumber.toNat - 1) = true → (∀ i < s.totalParts.toNat, i < maxMultipartParts) ∧
        MemorySafe (storePart rx s partNumber) ∧
        (s.receivedParts + 1 = totalParts →
          MemorySafe (reassembleMultipartPacket
            (table.store slot (storePart rx s partNumber).val) slot))) ↔ _
    have hpart : partNumber.toNat - 1 < maxMultipartParts ↔
        partNumber.toNat ≤ maxMultipartParts := by omega
    rw [hpart]
    refine and_congr_right fun hlast => ?_
    have htotal : (∀ i < s.totalParts.toNat, i < maxMultipartParts) ↔
        s.totalParts.toNat ≤ maxMultipartParts :=
      ⟨fun hall => Nat.le_of_not_lt fun hlt => Nat.lt_irrefl _ (hall _ hlt),
        fun hle i hi => hi.trans_le hle⟩
    rw [htotal, memorySafe_storePart hnonneg hsize hpos hlast, or_iff_not_imp_left]
    refine imp_congr_right fun _ => ?_
    constructor
    · rintro ⟨hle, ⟨hheader, hdata⟩, hjoin⟩
      have hfits : StoreFits rx s partNumber := ⟨hle, hheader, hdata⟩
      exact ⟨hfits, fun hdone =>
        (memorySafe_reassemble_storePart hslot h hfits hsize hpos).mp (hjoin hdone)⟩
    · rintro ⟨hfits, hjoin⟩
      exact ⟨hfits.total_le, ⟨hfits.header_le, hfits.data_le⟩, fun hdone =>
        (memorySafe_reassemble_storePart hslot h hfits hsize hpos).mpr (hjoin hdone)⟩

/-! ## Runs -/

/-- The sizes stored in the active sessions are true. -/
def TableTrue (table : SessionTable) : Prop := ∀ s ∈ table.live, s.SizesTrue

/-- The frames of a run are at least one byte and at most 255 bytes long. -/
def ReceiverInput.SizeOk : ReceiverInput → Prop
  | .frame _ payload => 1 ≤ payload.length ∧ payload.length < bufferSize
  | .other _ => True
  | .cleanup _ => True

/-- What one event asks of the state before it: a multipart frame has to fit. -/
def Receiver.Fits (r : Receiver) : ReceiverInput → Prop
  | .frame now payload => FrameFits now (r.rx.onRxDone payload) r.table
  | .other _ => True
  | .cleanup _ => True

theorem tableTrue_boot : TableTrue SessionTable.boot := by
  intro s hs
  rw [SessionTable.boot, SlotTable.live_empty] at hs
  cases hs

/-- A session that has just been opened has no parts. -/
theorem sizesTrue_reuse (now : UInt32) (src : NodeAddress) (totalParts dataType : UInt8)
    (stale : MultipartReassembly) : (stale.reuse now src totalParts dataType).SizesTrue := by
  intro part hpart hreceived
  simp [MultipartReassembly.received, MultipartReassembly.reuse, hpart] at hreceived

/-- What `ProcessMultipartPacket` does with a frame: it processes it in a slot that
holds `sessionOf`, of a table whose sizes are still true, or drops it. -/
theorem processMultipartPacket_cases {table : SessionTable} (h : TableTrue table) (now : UInt32)
    (rx : RxBuffer) :
    (sessionOf now rx table = none ∧
        processMultipartPacket now rx table = pure ⟨table, false, none⟩) ∨
      ∃ s table' slot, sessionOf now rx table = some s ∧ s.SizesTrue ∧ TableTrue table' ∧
        slot < maxMultipartParts ∧ table'.slots[slot]?.getD default = s ∧
        processMultipartPacket now rx table = receivePart rx table' slot (rx.byte 7) (rx.byte 8) := by
  simp only [processMultipartPacket, sessionOf]
  cases hfind : findMultipartSession table ⟨rx.byte 4, rx.byte 5, rx.byte 6⟩ (rx.byte 9) with
  | some slot =>
      have hlt : slot < table.count := by
        rw [← SlotTable.length_live]
        exact (List.findIdx?_eq_some_iff_getElem.mp hfind).1
      have hlive : table.slots[slot]?.getD default ∈ table.live := by
        have hcap := hlt.trans_le table.count_le
        have hentry : table.live[slot]? = some (table.slots[slot]?.getD default) := by
          rw [SlotTable.getElem?_live_of_lt table hlt, Vector.getElem?_eq_getElem hcap,
            Option.getD_some]
        exact List.mem_of_getElem? hentry
      exact .inr ⟨_, table, slot, rfl, h _ hlive, h, hlt.trans_le table.count_le, rfl, rfl⟩
  | none =>
      by_cases hroom : table.count < maxMultipartParts
      · refine .inr ⟨_, table.openSlot hroom (.reuse now ⟨rx.byte 4, rx.byte 5, rx.byte 6⟩
          (rx.byte 8) (rx.byte 9)), table.count, if_pos hroom, sizesTrue_reuse _ _ _ _ _, ?_,
          hroom, ?_, ?_⟩
        · intro s hs
          rw [SlotTable.live_openSlot] at hs
          cases List.mem_append.mp hs with
          | inl hold => exact h s hold
          | inr hnew =>
              rw [List.mem_singleton.mp hnew]
              exact sizesTrue_reuse _ _ _ _ _
        · simp [SlotTable.openSlot, hroom]
        · simp only [createMultipartSession, dif_pos hroom]
      · exact .inl ⟨if_neg hroom, by simp only [createMultipartSession, dif_neg hroom]⟩

/-- The table after `receivePart`. -/
theorem table_receivePart {rx : RxBuffer} {table : SessionTable} {slot : Nat}
    {s : MultipartReassembly} (hread : table.slots[slot]?.getD default = s)
    (partNumber totalParts : UInt8) :
    (receivePart rx table slot partNumber totalParts).val.table =
      if partNumber < 1 ∨ partNumber > totalParts then table
      else if s.received (partNumber.toNat - 1) = true then table
      else if s.receivedParts + 1 = totalParts then
        (table.store slot (storePart rx s partNumber).val).removeAt slot
      else table.store slot (storePart rx s partNumber).val := by
  by_cases hinvalid : partNumber < 1 ∨ partNumber > totalParts
  · rw [receivePart, if_pos hinvalid, if_pos hinvalid]
    rfl
  · rw [receivePart, if_neg hinvalid, if_neg hinvalid]
    simp only [Traced.val_bind, Traced.val_ite]
    rw [val_readAt .multipartBuffer table.slots slot, hread]
    by_cases hdup : s.received (partNumber.toNat - 1) = true
    · rw [if_pos hdup]
      exact congrArg _ (if_pos hdup)
    · rw [if_neg hdup]
      refine (congrArg _ (if_neg hdup)).trans ?_
      by_cases hdone : s.receivedParts + 1 = totalParts
      · rw [if_pos hdone]
        exact congrArg _ (if_pos hdone)
      · rw [if_neg hdone]
        exact congrArg _ (if_neg hdone)

/-- **One event.** Its accesses are safe exactly when the state and the frame fit. -/
theorem memorySafe_step {r : Receiver} (h : TableTrue r.table) (input : ReceiverInput)
    (hsize : input.SizeOk) : MemorySafe (r.step input) ↔ r.Fits input := by
  cases input with
  | other payload => simp [Receiver.step, Receiver.Fits]
  | cleanup now => simp [Receiver.step, Receiver.Fits]
  | frame now payload =>
      have hrx : 0 ≤ (r.rx.onRxDone payload).rxSize ∧
          (r.rx.onRxDone payload).rxSize < bufferSize :=
        ⟨Int.natCast_nonneg _, Int.ofNat_lt.mpr hsize.2⟩
      simp only [Receiver.step, Traced.every_bind, Traced.every_pure, and_true, Receiver.Fits,
        FrameFits]
      rcases processMultipartPacket_cases h now (r.rx.onRxDone payload) with
        ⟨hnone, hprocess⟩ | ⟨s, table', slot, hsome, hs, _, hslot, hread, hprocess⟩
      · rw [hprocess, hnone]
        simp
      · rw [hprocess, hsome]
        simp only [Option.mem_some_iff, forall_eq']
        exact memorySafe_receivePart hslot hread hs hrx.1 hrx.2 _ _

/-- An event that fits keeps the stored sizes true. -/
theorem tableTrue_step {r : Receiver} (h : TableTrue r.table) (input : ReceiverInput)
    (hsize : input.SizeOk) (hfits : r.Fits input) : TableTrue (r.step input).val.1.table := by
  cases input with
  | other payload => exact h
  | cleanup now =>
      intro s hs
      change s ∈ (cleanupExpiredMultipartSessions now r.table).live at hs
      rw [cleanupExpiredMultipartSessions, SlotTable.live_sweep] at hs
      exact h s (List.mem_of_mem_filter hs)
  | frame now payload =>
      change TableTrue (processMultipartPacket now (r.rx.onRxDone payload) r.table).val.table
      rcases processMultipartPacket_cases h now (r.rx.onRxDone payload) with
        ⟨_, hprocess⟩ | ⟨s, table', slot, hsome, hs, htable', hslot, hread, hprocess⟩
      · rw [hprocess]
        exact h
      · rw [hprocess, table_receivePart hread]
        have hpart := hfits s hsome
        by_cases hinvalid : (r.rx.onRxDone payload).byte 7 < 1 ∨
            (r.rx.onRxDone payload).byte 7 > (r.rx.onRxDone payload).byte 8
        · rw [if_pos hinvalid]
          exact htable'
        · rw [if_neg hinvalid]
          by_cases hdup : s.received (((r.rx.onRxDone payload).byte 7).toNat - 1) = true
          · rw [if_pos hdup]
            exact htable'
          · rw [if_neg hdup]
            have hpos : 1 ≤ ((r.rx.onRxDone payload).byte 7).toNat := by
              have hnot := fun hlt => hinvalid (.inl hlt)
              rw [UInt8.lt_iff_toNat_lt] at hnot
              exact Nat.le_of_not_lt hnot
            rw [PartFits, ← or_assoc, or_iff_right hinvalid] at hpart
            obtain ⟨hstore, _⟩ := hpart.2.resolve_left hdup
            have hstored : TableTrue (table'.store slot
                (storePart (r.rx.onRxDone payload) s ((r.rx.onRxDone payload).byte 7)).val) := by
              intro other hother
              rw [SlotTable.live_store] at hother
              cases List.mem_or_eq_of_mem_set hother with
              | inl hold => exact htable' other hold
              | inr hnew =>
                  rw [hnew]
                  exact sizesTrue_storePart hstore (Int.ofNat_lt.mpr hsize.2) hpos hs
            by_cases hdone : s.receivedParts + 1 = (r.rx.onRxDone payload).byte 8
            · rw [if_pos hdone]
              intro other hother
              rw [SlotTable.live_removeAt] at hother
              exact hstored other (List.mem_of_mem_eraseIdx hother)
            · rw [if_neg hdone]
              exact hstored

/-- **Whole runs.** Every access of a run is safe exactly when each multipart frame
fits the table it meets. -/
theorem memorySafe_run_of_tableTrue (inputs : List ReceiverInput) :
    ∀ r : Receiver, TableTrue r.table → (∀ input ∈ inputs, input.SizeOk) →
      (MemorySafe (r.run inputs) ↔
        ∀ k input, inputs[k]? = some input → (r.run (inputs.take k)).val.1.Fits input) := by
  induction inputs with
  | nil =>
      intro r _ _
      simp [Receiver.run]
  | cons input rest ih =>
      intro r h hsize
      have hhere := memorySafe_step h input (hsize input List.mem_cons_self)
      have hsplit : (∀ k next, (input :: rest)[k]? = some next →
            (r.run ((input :: rest).take k)).val.1.Fits next) ↔
          r.Fits input ∧ ∀ k next, rest[k]? = some next →
            ((r.step input).val.1.run (rest.take k)).val.1.Fits next := by
        constructor
        · intro hall
          exact ⟨hall 0 input rfl, fun k next hnext => hall (k + 1) next hnext⟩
        · rintro ⟨hfirst, hlater⟩ k next hnext
          cases k with
          | zero =>
              obtain rfl := Option.some.inj hnext
              exact hfirst
          | succ k => exact hlater k next hnext
      rw [hsplit]
      simp only [Receiver.run, Traced.every_bind, Traced.every_pure, and_true, hhere]
      refine and_congr_right fun hfits => ?_
      exact ih _ (tableTrue_step h input (hsize input List.mem_cons_self) hfits)
        fun next hnext => hsize next (List.mem_cons_of_mem _ hnext)

/-- **Runs from a reset.** Every access of a run stays inside its array, and every
stored part size is the number of bytes copied, exactly when each multipart frame
of the run fits the state it meets. -/
theorem memorySafe_run {inputs : List ReceiverInput} (hsize : ∀ input ∈ inputs, input.SizeOk) :
    MemorySafe (Receiver.boot.run inputs) ↔
      ∀ k input, inputs[k]? = some input →
        (Receiver.boot.run (inputs.take k)).val.1.Fits input :=
  memorySafe_run_of_tableTrue inputs Receiver.boot tableTrue_boot hsize

/-- A twelve-byte frame that claims to be part 21 of 21. -/
def strayPart : Bytes := [109, 255, 255, 255, 10, 0, 3, 21, 21, 0, 0, 0]

/-- A run with a frame of another type, a sweep and the stray frame. -/
theorem memorySafe_run_stray :
    MemorySafe (Receiver.boot.run [.other [2, 6], .cleanup 5, .frame 9 strayPart]) ↔
      ∀ k input, [ReceiverInput.other [2, 6], .cleanup 5, .frame 9 strayPart][k]? = some input →
        (Receiver.boot.run ([ReceiverInput.other [2, 6], .cleanup 5, .frame 9 strayPart].take
          k)).val.1.Fits input := by
  refine memorySafe_run fun input hmem => ?_
  simp only [List.mem_cons, List.not_mem_nil, or_false] at hmem
  rcases hmem with rfl | rfl | rfl
  · trivial
  · trivial
  · exact ⟨by decide, by decide⟩

/-- The stray frame alone makes the receiver read past the end of `partsReceived`. -/
theorem strayPart_unsafe :
    (ReceiverInput.frame 0 strayPart).SizeOk ∧
      ¬ MemorySafe (Receiver.boot.run [.frame 0 strayPart]) := by
  have hsize : (ReceiverInput.frame 0 strayPart).SizeOk := ⟨by decide, by decide⟩
  refine ⟨hsize, fun hsafe => ?_⟩
  have hstep : MemorySafe (Receiver.boot.step (.frame 0 strayPart)) := by
    simp only [Receiver.run, Traced.every_bind] at hsafe
    exact hsafe.1
  rw [memorySafe_step tableTrue_boot _ hsize] at hstep
  have hbyte : ∀ i (hi : i < 12), (Receiver.boot.rx.onRxDone strayPart).byte i = strayPart[i] :=
    fun i hi => RxBuffer.byte_onRxDone _ hi (by decide)
  have hfind : ∀ src dataType,
      findMultipartSession Receiver.boot.table src dataType = none := fun src dataType => by
    rw [findMultipartSession, Receiver.boot, SessionTable.boot, SlotTable.live_empty]
    rfl
  obtain ⟨s, hs⟩ : ∃ s, sessionOf 0 (Receiver.boot.rx.onRxDone strayPart) Receiver.boot.table =
      some s := by
    simp only [sessionOf, hfind]
    exact ⟨_, if_pos (by decide)⟩
  have hpart := hstep s hs
  rw [hbyte 7 (by decide), hbyte 8 (by decide)] at hpart
  rcases hpart with hzero | hover | ⟨hlast, _⟩
  · exact absurd hzero (by decide)
  · exact absurd hover (by decide)
  · exact absurd hlast (by decide)

end RadioDoge.V3
