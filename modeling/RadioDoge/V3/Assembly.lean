/-
# Sessions as partial messages

A session keeps its parts in fixed slots of one byte array, next to a flag and a
size for each. What it stands for is a partial map from part indices to byte
strings. An `Assembly` is that map with the key and the total of the session, and
`Assembly.receive` is the receiver on a list of assemblies.

`Represents` ties a session to an assembly, and `receive_refines` shows that on
frames that fit the slots the firmware's receiver does what the abstract one
does: it hands on the same data and leaves a table that represents the same
assemblies, although sessions change their index whenever an earlier one is
removed.
-/

import RadioDoge.V3.Reassembly
import RadioDoge.Lib.Elementwise

namespace RadioDoge.V3

/-! ## The abstract receiver -/

/-- A message of which some parts are here. -/
structure Assembly where
  src : NodeAddress
  dataType : UInt8
  /-- The total written in the frame that opened the session. -/
  total : Nat
  startTime : UInt32
  /-- The parts that are here, by zero-based index. -/
  parts : Nat → Option Bytes

/-- What a multipart frame says. -/
structure PartFrame where
  src : NodeAddress
  dataType : UInt8
  /-- The one-based part number. -/
  number : Nat
  total : Nat
  data : Bytes

namespace Assembly

/-- The indices of the parts that are here. -/
def received (a : Assembly) : Finset Nat :=
  (Finset.range maxMultipartParts).filter fun i => (a.parts i).isSome

/-- The parts that are here, joined in order up to the total of the session. -/
def joined (a : Assembly) : Bytes := (List.range a.total).flatMap fun i => (a.parts i).getD []

/-- One more part. -/
def add (a : Assembly) (i : Nat) (data : Bytes) : Assembly :=
  { a with parts := Function.update a.parts i (some data) }

/-- The assembly a frame opens. -/
def opened (now : UInt32) (f : PartFrame) : Assembly :=
  ⟨f.src, f.dataType, f.total, now, fun _ => none⟩

/-- Whether a frame belongs to the assembly. -/
def matchesFrame (f : PartFrame) (a : Assembly) : Bool :=
  decide (a.src = f.src) && decide (a.dataType = f.dataType)

/-- What is handed on for a complete assembly. -/
def handed (a : Assembly) : Option Reassembled :=
  if a.dataType = 0 ∨ a.dataType = 1 ∨ a.dataType = 2 then
    some ⟨a.dataType, a.joined, a.src⟩
  else none

/-- Store a part in the assembly of a given slot. -/
def absorb (f : PartFrame) (slot : Nat) (opens : List Assembly) :
    List Assembly × Option Reassembled :=
  if f.number < 1 ∨ f.number > f.total then (opens, none)
  else
    match opens[slot]? with
    | none => (opens, none)
    | some a =>
        if (a.parts (f.number - 1)).isSome then (opens, none)
        else
          let grown := a.add (f.number - 1) f.data
          if grown.received.card = f.total then (opens.eraseIdx slot, grown.handed)
          else (opens.set slot grown, none)

/-- Receive one frame. -/
def receive (now : UInt32) (f : PartFrame) (opens : List Assembly) :
    List Assembly × Option Reassembled :=
  match opens.findIdx? (matchesFrame f) with
  | some slot => absorb f slot opens
  | none =>
      if opens.length < maxMultipartParts then
        absorb f opens.length (opens ++ [opened now f])
      else (opens, none)

/-- Sweep the assemblies that are too old. -/
def sweep (now : UInt32) (opens : List Assembly) : List Assembly :=
  opens.filter fun a => !decide (now - a.startTime > multipartTimeoutMs)

@[simp]
theorem parts_add_self (a : Assembly) (i : Nat) (data : Bytes) :
    (a.add i data).parts i = some data := by
  simp [add]

@[simp]
theorem parts_add_of_ne (a : Assembly) {i j : Nat} (data : Bytes) (hne : j ≠ i) :
    (a.add i data).parts j = a.parts j := by
  simp [add, hne]

theorem mem_received (a : Assembly) (i : Nat) :
    i ∈ a.received ↔ i < maxMultipartParts ∧ (a.parts i).isSome := by
  rw [received, Finset.mem_filter, Finset.mem_range]

@[simp]
theorem received_opened (now : UInt32) (f : PartFrame) : (opened now f).received = ∅ := by
  simp [received, opened]

theorem received_add (a : Assembly) {i : Nat} (data : Bytes) (hi : i < maxMultipartParts) :
    (a.add i data).received = insert i a.received := by
  ext j
  by_cases hj : j = i
  · subst hj
    simp [mem_received, hi]
  · simp [mem_received, hj]

theorem card_received_le (a : Assembly) : a.received.card ≤ maxMultipartParts :=
  (Finset.card_filter_le _ _).trans (Finset.card_range _).le

end Assembly

/-! ## Sessions that stand for assemblies -/

/-- The session stores exactly the parts of the assembly. -/
structure Represents (s : MultipartReassembly) (a : Assembly) : Prop where
  src : s.src = a.src
  dataType : s.dataType = a.dataType
  total : s.totalParts.toNat = a.total
  total_le : a.total ≤ maxMultipartParts
  startTime : s.startTime = a.startTime
  count : s.receivedParts.toNat = a.received.card
  flags : ∀ i < maxMultipartParts, s.partsReceived[i]? = some (a.parts i).isSome
  size_le : ∀ i b, a.parts i = some b → b.length ≤ multipartChunkSize
  size : ∀ i < maxMultipartParts, ∀ b, a.parts i = some b →
    s.partSizes[i]? = some (UInt16.ofNat b.length)
  data : ∀ i < maxMultipartParts, ∀ b, a.parts i = some b →
    slice s.assembledData (i * multipartChunkSize) b.length = b

namespace Represents

variable {s : MultipartReassembly} {a : Assembly}

theorem matchesKey (h : Represents s a) (f : PartFrame) :
    s.matchesKey f.src f.dataType = a.matchesFrame f := by
  have hsrc : s.src = f.src ↔ s.srcRegion = f.src.region ∧ s.srcCommunity = f.src.community ∧
      s.srcNode = f.src.node := by
    cases f.src
    simp [MultipartReassembly.src]
  rw [Bool.eq_iff_iff]
  simp only [MultipartReassembly.matchesKey, Assembly.matchesFrame, Bool.and_eq_true, beq_iff_eq,
    decide_eq_true_eq, ← h.src, ← h.dataType, hsrc, and_assoc]

/-- A fresh session represents the empty assembly, whatever was left in its
slot. -/
theorem reuse (now : UInt32) (f : PartFrame) (totalParts : UInt8) (stale : MultipartReassembly)
    (htotal : totalParts.toNat = f.total) (hle : f.total ≤ maxMultipartParts) :
    Represents (stale.reuse now f.src totalParts f.dataType) (Assembly.opened now f) where
  src := rfl
  dataType := rfl
  total := htotal
  total_le := hle
  startTime := rfl
  count := by simp [MultipartReassembly.reuse]
  flags := fun i hi => by simp [MultipartReassembly.reuse, Assembly.opened, hi]
  size_le := fun i b hb => by simp [Assembly.opened] at hb
  size := fun i _ b hb => by simp [Assembly.opened] at hb
  data := fun i _ b hb => by simp [Assembly.opened] at hb

/-- Storing a part in a free slot adds it to the assembly. The slots of the other
parts are not touched, because no part is longer than its slot. -/
theorem storePart (h : Represents s a) (rx : RxBuffer) (partNumber : UInt8) (data : Bytes)
    (hpos : 1 ≤ partNumber.toNat) (hlast : partNumber.toNat ≤ maxMultipartParts)
    (hsize : rx.rxSize = multipartHeaderSize + data.length)
    (hdata : slice rx.rxPacket multipartHeaderSize data.length = data)
    (hlen : data.length ≤ multipartChunkSize)
    (hfree : a.parts (partNumber.toNat - 1) = none) :
    Represents (V3.storePart rx s partNumber).val (a.add (partNumber.toNat - 1) data) := by
  obtain ⟨p, hp⟩ : ∃ p, partNumber.toNat = p + 1 := ⟨partNumber.toNat - 1, by omega⟩
  have hpSub : partNumber.toNat - 1 = p := by omega
  have hp20 : p < maxMultipartParts := by omega
  have hdataSize : rx.rxSize - ((multipartHeaderSize : Nat) : Int) = data.length := by omega
  have hfits : p * multipartChunkSize + data.length ≤ assembledSize := by
    simp only [maxMultipartParts, multipartChunkSize, assembledSize] at *
    omega
  have hcopied : min data.length (assembledSize - p * multipartChunkSize) = data.length := by
    omega
  have hstored : UInt16.ofNat ((data.length : Int) % 2 ^ 16).toNat = UInt16.ofNat data.length := by
    have hmod : ((data.length : Int) % 2 ^ 16).toNat = data.length := by
      simp only [multipartChunkSize] at hlen
      omega
    rw [hmod]
  have hrx : multipartHeaderSize + data.length ≤ bufferSize := by
    simp only [multipartHeaderSize, multipartChunkSize, bufferSize] at *
    omega
  rw [hpSub] at hfree ⊢
  simp only [V3.storePart, Traced.val_bind, Traced.val_pure, val_writeAt, hpSub, hdataSize,
    Int.toNat_natCast, hcopied, hstored]
  have hcard : (a.add p data).received.card = a.received.card + 1 := by
    rw [Assembly.received_add a data hp20, Finset.card_insert_of_notMem]
    simp [Assembly.mem_received, hfree]
  refine ⟨h.src, h.dataType, h.total, h.total_le, h.startTime, ?_, ?_, ?_, ?_, ?_⟩
  · have hle := Assembly.card_received_le (a.add p data)
    simp only [UInt8.toNat_add, h.count, hcard]
    have hsum : a.received.card + 1 < 2 ^ 8 := by
      simp only [maxMultipartParts] at hle
      omega
    exact Nat.mod_eq_of_lt hsum
  · intro i hi
    rw [Vector.getElem?_setIfInBounds]
    by_cases hip : p = i
    · subst hip
      simp [hp20]
    · rw [if_neg hip, h.flags i hi, Assembly.parts_add_of_ne _ _ (Ne.symm hip)]
  · intro i b hb
    by_cases hip : i = p
    · subst hip
      rw [Assembly.parts_add_self, Option.some.injEq] at hb
      exact hb ▸ hlen
    · rw [Assembly.parts_add_of_ne _ _ hip] at hb
      exact h.size_le i b hb
  · intro i hi b hb
    rw [Vector.getElem?_setIfInBounds]
    by_cases hip : i = p
    · subst hip
      rw [Assembly.parts_add_self, Option.some.injEq] at hb
      rw [if_pos rfl, if_pos hi, hb]
    · rw [Assembly.parts_add_of_ne _ _ hip] at hb
      rw [if_neg (Ne.symm hip), h.size i hi b hb]
  · intro i hi b hb
    by_cases hip : i = p
    · subst hip
      rw [Assembly.parts_add_self, Option.some.injEq] at hb
      subst hb
      rw [slice_copyBytes_self _ _ _ _ _ _ _ hrx hfits, hdata]
    · rw [Assembly.parts_add_of_ne _ _ hip] at hb
      have hb200 := h.size_le i b hb
      have hroom : i * multipartChunkSize + b.length ≤ assembledSize := by
        simp only [maxMultipartParts, multipartChunkSize, assembledSize] at *
        omega
      have hapart : i * multipartChunkSize + b.length ≤ p * multipartChunkSize ∨
          p * multipartChunkSize + data.length ≤ i * multipartChunkSize := by
        simp only [multipartChunkSize] at *
        omega
      rw [slice_copyBytes_disjoint _ _ _ _ _ _ _ _ _ hroom hapart, h.data i hi b hb]

/-- The join loop collects the parts in order. -/
theorem joinParts (h : Represents s a) :
    slice (V3.joinParts s).val.1 0 (V3.joinParts s).val.2 = a.joined ∧
      (V3.joinParts s).val.2 ≤ assembledSize := by
  let Joined (k : Nat) (joined : Vector UInt8 (assembledSize + 1) × Nat) : Prop :=
    joined.2 ≤ k * multipartChunkSize ∧
      slice joined.1 0 joined.2 = (List.range k).flatMap fun i => (a.parts i).getD []
  have hloop : Joined s.totalParts.toNat (V3.joinParts s).val := by
    refine Traced.forUpTo_invariant _ _ Joined _ ⟨Nat.zero_le _, rfl⟩ ?_
    rintro k ⟨buffer, length⟩ hk ⟨hlen, hslice⟩
    have hk20 : k < maxMultipartParts := by
      have := h.total_le
      have := h.total
      omega
    have hread : s.partsReceived[k]?.getD default = (a.parts k).isSome := by
      rw [h.flags k hk20, Option.getD_some]
    change _ ∧ _
    rw [List.range_succ, List.flatMap_append]
    simp only [joinPart, Traced.val_bind, Traced.val_ite, Traced.val_pure, val_readAt, hread,
      List.flatMap_cons, List.flatMap_nil, List.append_nil]
    simp only at hlen hslice
    cases hpart : a.parts k with
    | none =>
        simp only [Option.isSome_none, Bool.false_eq_true, if_false, Option.getD_none,
          List.append_nil]
        refine ⟨?_, hslice⟩
        simp only [multipartChunkSize] at *
        omega
    | some b =>
        have hb := h.size_le k b hpart
        have hsz : (UInt16.ofNat b.length).toNat = b.length := by
          rw [UInt16.toNat_ofNat']
          exact Nat.mod_eq_of_lt (by simp only [multipartChunkSize] at hb; omega)
        have hsrc : k * multipartChunkSize + b.length ≤ assembledSize := by
          simp only [maxMultipartParts, multipartChunkSize, assembledSize] at *
          omega
        have hdst : length + b.length ≤ assembledSize + 1 := by omega
        simp only [Option.isSome_some, if_true, h.size k hk20 b hpart, Option.getD_some, hsz]
        refine ⟨?_, ?_⟩
        · simp only [multipartChunkSize] at *
          omega
        · rw [slice_append, Nat.zero_add, slice_copyBytes_self _ _ _ _ _ _ _ hsrc hdst,
            h.data k hk20 b hpart, slice_copyBytes_disjoint _ _ _ _ _ _ _ _ _ (by omega)
              (.inl (by omega)), hslice]
  have htotal := h.total_le
  obtain ⟨hlen, hslice⟩ := hloop
  rw [h.total] at hlen hslice
  refine ⟨hslice, ?_⟩
  simp only [maxMultipartParts, multipartChunkSize, assembledSize] at *
  omega

end Represents

/-! ## The refinement -/

/-- The active sessions stand for the open assemblies, in slot order. -/
def TableRepresents (table : SessionTable) (opens : List Assembly) : Prop :=
  List.Forall₂ Represents table.live opens

/-- The receive buffer holds a multipart frame whose part fits its slot. -/
structure Carries (rx : RxBuffer) (f : PartFrame) : Prop where
  src : (⟨rx.byte 4, rx.byte 5, rx.byte 6⟩ : NodeAddress) = f.src
  number : (rx.byte 7).toNat = f.number
  total : (rx.byte 8).toNat = f.total
  dataType : rx.byte 9 = f.dataType
  size : rx.rxSize = multipartHeaderSize + f.data.length
  data : slice rx.rxPacket multipartHeaderSize f.data.length = f.data
  fits : f.data.length ≤ multipartChunkSize
  total_le : f.total ≤ maxMultipartParts

theorem tableRepresents_boot : TableRepresents SessionTable.boot [] := by
  rw [TableRepresents, SessionTable.boot, SlotTable.live_empty]
  exact .nil

theorem TableRepresents.length_eq {table : SessionTable} {opens : List Assembly}
    (h : TableRepresents table opens) : table.count = opens.length := by
  rw [← SlotTable.length_live]
  exact List.Forall₂.length_eq h

theorem TableRepresents.find_eq {table : SessionTable} {opens : List Assembly}
    (h : TableRepresents table opens) (f : PartFrame) :
    findMultipartSession table f.src f.dataType = opens.findIdx? (Assembly.matchesFrame f) :=
  Elementwise.findIdx?_eq h fun _ _ hsa => hsa.matchesKey f

/-- The session of an occupied slot, as the receiver reads it. -/
theorem TableRepresents.read {table : SessionTable} {opens : List Assembly}
    (h : TableRepresents table opens) {slot : Nat} {a : Assembly} (ha : opens[slot]? = some a) :
    Represents (table.slots[slot]?.getD default) a := by
  obtain ⟨s, hs, hsa⟩ := Elementwise.getElem?_some h ha
  have hslot : slot < table.count := by
    rw [← SlotTable.length_live]
    exact (List.getElem?_eq_some_iff.mp hs).1
  rw [SlotTable.getElem?_live_of_lt table hslot] at hs
  rw [hs, Option.getD_some]
  exact hsa

/-- The `String` built from the join buffer. -/
theorem val_assembledString (buffer : Vector UInt8 (assembledSize + 1)) {length : Nat}
    (hfits : length ≤ assembledSize) :
    (assembledString buffer length).val = slice buffer 0 length := by
  let Built (k : Nat) (text : Bytes) : Prop := k ≤ length → text = slice buffer 0 k
  have hloop : Built length (assembledString buffer length).val := by
    refine Traced.forUpTo_invariant _ _ Built _ (fun _ => rfl) ?_
    intro k text hk htext _
    have hin : k < assembledSize + 1 := by omega
    have hone : slice buffer k 1 = [buffer[k]?.getD default] := by
      rw [slice, List.drop_eq_getElem_cons (by simpa using hin), Vector.getElem?_eq_getElem hin]
      simp
    change text ++ [buffer[k]?.getD default] = _
    rw [slice_append, Nat.zero_add, hone, htext hk.le]
  exact hloop le_rfl

/-- Reassembly hands on the joined parts and removes the session. -/
theorem val_reassemble {table : SessionTable} {slot : Nat} {a : Assembly}
    (h : Represents (table.slots[slot]?.getD default) a) :
    (reassembleMultipartPacket table slot).val = ⟨table.removeAt slot, true, a.handed⟩ := by
  obtain ⟨hjoined, hlen⟩ := h.joinParts
  simp only [reassembleMultipartPacket, Traced.val_bind, Traced.val_pure, val_readAt,
    val_assembledString _ hlen, hjoined, h.src, h.dataType, Assembly.handed,
    removeMultipartSession]

/-- Storing a part refines `Assembly.absorb`. -/
theorem receivePart_refines {table : SessionTable} {opens : List Assembly} {rx : RxBuffer}
    {f : PartFrame} (h : TableRepresents table opens) (hf : Carries rx f) {slot : Nat}
    (hslot : slot < opens.length) :
    TableRepresents (receivePart rx table slot (rx.byte 7) (rx.byte 8)).val.table
        (Assembly.absorb f slot opens).1 ∧
      (receivePart rx table slot (rx.byte 7) (rx.byte 8)).val.handed =
        (Assembly.absorb f slot opens).2 := by
  have htotal := hf.total_le
  have hinvalid : (rx.byte 7 < 1 ∨ rx.byte 7 > rx.byte 8) ↔
      (f.number < 1 ∨ f.number > f.total) := by
    rw [← hf.number, ← hf.total, gt_iff_lt, gt_iff_lt, UInt8.lt_iff_toNat_lt,
      UInt8.lt_iff_toNat_lt]
    rfl
  by_cases hbad : f.number < 1 ∨ f.number > f.total
  · rw [receivePart, if_pos (hinvalid.mpr hbad), Assembly.absorb, if_pos hbad]
    exact ⟨h, rfl⟩
  · have ha : opens[slot]? = some opens[slot] := List.getElem?_eq_getElem hslot
    have hs := h.read ha
    have hnum := hf.number
    have hlast : f.number - 1 < maxMultipartParts := by omega
    rw [receivePart, if_neg (fun hc => hbad (hinvalid.mp hc)), Assembly.absorb, if_neg hbad]
    simp only [ha, Traced.val_bind, Traced.val_ite, Traced.val_pure, val_readAt, hnum,
      hs.flags _ hlast, Option.getD_some]
    by_cases hdup : (opens[slot].parts (f.number - 1)).isSome
    · simp only [if_pos hdup]
      exact ⟨h, trivial⟩
    · have hfree : opens[slot].parts ((rx.byte 7).toNat - 1) = none := by
        rw [hnum]
        simpa using hdup
      have hgrown := hs.storePart rx (rx.byte 7) f.data (by omega) (by omega) hf.size hf.data
        hf.fits hfree
      rw [hnum] at hgrown
      have hcount : (storePart rx (table.slots[slot]?.getD default) (rx.byte 7)).val.receivedParts =
          rx.byte 8 ↔ (opens[slot].add (f.number - 1) f.data).received.card = f.total := by
        rw [← UInt8.toNat_inj, hgrown.count, hf.total]
      have hstored : TableRepresents (table.store slot
          (storePart rx (table.slots[slot]?.getD default) (rx.byte 7)).val)
          (opens.set slot (opens[slot].add (f.number - 1) f.data)) := by
        rw [TableRepresents, SlotTable.live_store]
        exact Elementwise.set h hgrown slot
      simp only [if_neg hdup, hcount]
      by_cases hdone : (opens[slot].add (f.number - 1) f.data).received.card = f.total
      · have hset : (opens.set slot (opens[slot].add (f.number - 1) f.data))[slot]? = some _ :=
          List.getElem?_set_self hslot
        have hread := hstored.read hset
        simp only [if_pos hdone, val_reassemble hread]
        refine ⟨?_, trivial⟩
        have herased := Elementwise.eraseIdx hstored slot
        rw [← SlotTable.live_removeAt, List.eraseIdx_set_eq] at herased
        exact herased
      · simp only [if_neg hdone]
        exact ⟨hstored, trivial⟩

/-- **The receiver refines the abstract one.** On a frame whose part fits its
slot, `ProcessMultipartPacket` hands on what `Assembly.receive` hands on and
leaves a table that stands for what `Assembly.receive` leaves. -/
theorem receive_refines {table : SessionTable} {opens : List Assembly} {rx : RxBuffer}
    {f : PartFrame} (h : TableRepresents table opens) (hf : Carries rx f) (now : UInt32) :
    TableRepresents (processMultipartPacket now rx table).val.table
        (Assembly.receive now f opens).1 ∧
      (processMultipartPacket now rx table).val.handed = (Assembly.receive now f opens).2 := by
  have hfind := h.find_eq f
  simp only [processMultipartPacket, hf.src, hf.dataType, hfind, Assembly.receive]
  cases hslot : opens.findIdx? (Assembly.matchesFrame f) with
  | some slot =>
      have hlt : slot < opens.length := (List.findIdx?_eq_some_iff_getElem.mp hslot).1
      exact receivePart_refines h hf hlt
  | none =>
      simp only [createMultipartSession, ← h.length_eq]
      by_cases hroom : table.count < maxMultipartParts
      · have hopen : TableRepresents
            (table.openSlot hroom (.reuse now f.src (rx.byte 8) f.dataType))
            (opens ++ [Assembly.opened now f]) := by
          rw [TableRepresents, SlotTable.live_openSlot]
          exact Elementwise.append_singleton h
            (Represents.reuse now f _ _ hf.total hf.total_le)
        have hlt : table.count < (opens ++ [Assembly.opened now f]).length := by
          rw [h.length_eq]
          simp
        simp only [dif_pos hroom, if_pos hroom]
        exact receivePart_refines hopen hf hlt
      · simp only [dif_neg hroom, if_neg hroom]
        exact ⟨h, rfl⟩

/-- The sweep of expired sessions refines the sweep of assemblies. -/
theorem cleanup_refines {table : SessionTable} {opens : List Assembly}
    (h : TableRepresents table opens) (now : UInt32) :
    TableRepresents (cleanupExpiredMultipartSessions now table) (Assembly.sweep now opens) := by
  rw [TableRepresents, cleanupExpiredMultipartSessions, SlotTable.live_sweep]
  exact Elementwise.filter h fun s a hsa => by
    rw [MultipartReassembly.expired, hsa.startTime]

end RadioDoge.V3
