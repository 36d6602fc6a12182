/-
# Reassembly at the hub

`MultipartPacket` takes the parts of a message in order. The first part gives the
addresses, the id and the number of parts; a part that is not the next one is
reported as missing a piece and leaves the packet as it was. What the hub is given
here is a packet without its kind and its length.
-/

import RadioDoge.HostPackets
import RadioDoge.Sharp.Runtime

namespace RadioDoge.Sharp

/-- `PacketReconstructionCode`. -/
inductive PacketReconstructionCode
  | incomplete
  | complete
  | missingPiece
  deriving DecidableEq, Repr

/-- `MultipartPacket`. The addresses are null before the first part, and not read
before it. -/
structure MultipartPacket where
  senderAddress : NodeAddress
  destinationAddress : NodeAddress
  messageID : UInt8
  reservedValue : UInt8
  currentPart : UInt8
  totalNumberParts : UInt8
  reassembledPayload : Bytes
  deriving DecidableEq, Repr

namespace MultipartPacket

/-- The constructor. -/
def fresh : MultipartPacket where
  senderAddress := ⟨0, 0, 0⟩
  destinationAddress := ⟨0, 0, 0⟩
  messageID := 0
  reservedValue := 0
  currentPart := 1
  totalNumberParts := 0
  reassembledPayload := []

/-- What the first part says about the message. -/
def readFirstPiece (rawPayloadPiece : Bytes) (p : MultipartPacket) : Throws MultipartPacket := do
  let senderAddress : NodeAddress :=
    ⟨← index rawPayloadPiece 0, ← index rawPayloadPiece 1, ← index rawPayloadPiece 2⟩
  let destinationAddress : NodeAddress :=
    ⟨← index rawPayloadPiece 3, ← index rawPayloadPiece 4, ← index rawPayloadPiece 5⟩
  let messageID ← index rawPayloadPiece 6
  let reservedValue ← index rawPayloadPiece 7
  let totalNumberParts ← index rawPayloadPiece 9
  pure { p with senderAddress, destinationAddress, messageID, reservedValue, totalNumberParts }

/-- The first piece is read for what it says about the message. -/
def openPacket (rawPayloadPiece : Bytes) (p : MultipartPacket) : Throws MultipartPacket :=
  if p.currentPart = 1 then p.readFirstPiece rawPayloadPiece else pure p

/-- The answer once the data of a piece is in. -/
def closePiece (p : MultipartPacket) : PacketReconstructionCode × MultipartPacket :=
  if p.currentPart = p.totalNumberParts then (.complete, p)
  else (.incomplete, { p with currentPart := p.currentPart + 1 })

/-- `AddPacketPiece`. -/
def addPacketPiece (rawPayloadPiece : Bytes) (p : MultipartPacket) :
    Throws (PacketReconstructionCode × MultipartPacket) := do
  let piece ← index rawPayloadPiece 8
  if p.currentPart = piece then
    let p ← p.openPacket rawPayloadPiece
    let dataPortion ← copyOut rawPayloadPiece 10 (rawPayloadPiece.length - 10)
    pure { p with reassembledPayload := p.reassembledPayload ++ dataPortion }.closePiece
  else pure (.missingPiece, p)

/-- `GetPayload`. -/
def getPayload (p : MultipartPacket) : Bytes := p.reassembledPayload

/-- One part after the other, with the answer to each. -/
def addPacketPieces (p : MultipartPacket) :
    List Bytes → Throws (List PacketReconstructionCode × MultipartPacket)
  | [] => pure ([], p)
  | piece :: rest => do
      let first ← p.addPacketPiece piece
      let later ← first.2.addPacketPieces rest
      pure (first.1 :: later.1, later.2)

/-- The data of a part that has a whole header. -/
theorem copyOut_data {piece : Bytes} (hheader : 10 ≤ piece.length) :
    copyOut piece 10 (piece.length - 10) = .ok (piece.drop 10) := by
  have hsub : ((piece.length : Int) - 10) = (piece.length - 10 : Nat) := by omega
  rw [hsub, copyOut_eq_ok (by omega), List.take_of_length_le (by rw [List.length_drop])]

/-! ## The parts of one message -/

variable (m : HostMessage)

/-- What the first part of a message tells. -/
def headed (p : MultipartPacket) : MultipartPacket :=
  { p with
    senderAddress := m.src
    destinationAddress := m.dest
    messageID := m.messageID
    reservedValue := 0
    totalNumberParts := UInt8.ofNat m.parts }

/-- The packet behind its first part: the data of `part` parts is in. -/
def opened (part : Nat) : MultipartPacket :=
  headed m { fresh with
    currentPart := UInt8.ofNat (part + 1)
    reassembledPayload := (List.range part).flatMap m.chunk }

/-- The packet when the first `part` parts of the message are in. -/
def holding (part : Nat) : MultipartPacket := if part = 0 then fresh else opened m part

/-- The packet when all parts are in. -/
def completed : MultipartPacket :=
  { opened m m.parts with currentPart := UInt8.ofNat m.parts }

/-- The first ten bytes of a part. -/
theorem index_body {part i : Nat} (hi : i < 10) :
    index (m.body part) i = .ok ((m.src.bytes ++ m.dest.bytes ++
      [m.messageID, 0, UInt8.ofNat (part + 1), UInt8.ofNat m.parts]).get
        ⟨i, by simpa [NodeAddress.bytes] using hi⟩) := by
  have hlen := m.length_bodyWith part (m.chunk part)
  rw [index_eq_ok (by rw [HostMessage.body]; omega)]
  exact congrArg Except.ok (List.getElem_append_left _)

theorem readFirstPiece_body (part : Nat) (p : MultipartPacket) :
    p.readFirstPiece (m.body part) = .ok (headed m p) := by
  simp only [readFirstPiece, index_body m (show 0 < 10 by decide),
    index_body m (show 1 < 10 by decide), index_body m (show 2 < 10 by decide),
    index_body m (show 3 < 10 by decide), index_body m (show 4 < 10 by decide),
    index_body m (show 5 < 10 by decide), index_body m (show 6 < 10 by decide),
    index_body m (show 7 < 10 by decide), index_body m (show 9 < 10 by decide), bind_ok]
  rfl

/-- What stands behind the header of a part. -/
theorem copyOut_body (part : Nat) :
    copyOut (m.body part) 10 ((m.body part).length - 10) = .ok (m.chunk part) := by
  have hlen : (m.body part).length = (m.chunk part).length + 10 := m.length_bodyWith part _
  rw [copyOut_data (by omega)]
  rfl

/-- The number of a part fits its byte. -/
theorem toNat_partNumber {part : Nat} (hpart : part < m.parts) (hparts : m.parts ≤ 255) :
    (UInt8.ofNat (part + 1)).toNat = part + 1 :=
  toNat_ofNat_of_le (by omega)

/-- Whether or not it is the first, the packet is open when a part has been looked
at. -/
theorem openPacket_eq {part : Nat} (hpart : part < m.parts) (hparts : m.parts ≤ 255) :
    (holding m part).openPacket (m.body part) = .ok (opened m part) := by
  by_cases hfirst : part = 0
  · subst hfirst
    exact readFirstPiece_body m 0 fresh
  · have hcurrent : (opened m part).currentPart ≠ 1 := by
      intro heq
      have hone : (UInt8.ofNat (part + 1)).toNat = 1 := congrArg UInt8.toNat heq
      rw [toNat_partNumber m hpart hparts] at hone
      omega
    rw [holding, if_neg hfirst, openPacket, if_neg hcurrent]
    rfl

/-- The next part of the message: the last one completes it. -/
theorem addPacketPiece_body {part : Nat} (hpart : part < m.parts) (hparts : m.parts ≤ 255) :
    (holding m part).addPacketPiece (m.body part) =
      .ok (if part + 1 = m.parts then (.complete, completed m)
        else (.incomplete, holding m (part + 1))) := by
  have hnumber : index (m.body part) 8 = .ok (UInt8.ofNat (part + 1)) :=
    index_body m (show 8 < 10 by decide)
  have hcurrent : (holding m part).currentPart = UInt8.ofNat (part + 1) := by
    rw [holding]
    split
    · next hfirst => rw [hfirst]; rfl
    · rfl
  have hpayload : (opened m part).reassembledPayload ++ m.chunk part =
      (List.range (part + 1)).flatMap m.chunk := by
    rw [List.range_succ, List.flatMap_append, List.flatMap_singleton]
    rfl
  have hlast : UInt8.ofNat (part + 1) = UInt8.ofNat m.parts ↔ part + 1 = m.parts :=
    ofNat_inj_of_le (by omega) hparts
  rw [addPacketPiece, hnumber, bind_ok, if_pos hcurrent, openPacket_eq m hpart hparts, bind_ok,
    copyOut_body, bind_ok, hpayload, closePiece]
  by_cases hdone : part + 1 = m.parts
  · have hcomplete : (opened m part).currentPart = (opened m part).totalNumberParts :=
      hlast.mpr hdone
    rw [if_pos hcomplete, if_pos hdone, completed, ← hdone]
    rfl
  · have hmore : ¬ (opened m part).currentPart = (opened m part).totalNumberParts :=
      fun heq => hdone (hlast.mp heq)
    have hnext : (opened m part).currentPart + 1 = UInt8.ofNat (part + 1 + 1) := by
      rw [UInt8.ofNat_add (part + 1) 1]
      rfl
    rw [if_neg hmore, if_neg hdone, holding, if_neg (Nat.succ_ne_zero part), hnext]
    rfl

/-- From part `part` on, the remaining parts complete the message. -/
theorem addPacketPieces_from (hparts : m.parts ≤ 255) (remaining : Nat) :
    ∀ part, part + (remaining + 1) = m.parts →
      (holding m part).addPacketPieces ((List.range' part (remaining + 1)).map m.body) =
        .ok (List.replicate remaining .incomplete ++ [.complete], completed m) := by
  induction remaining with
  | zero =>
      intro part hpart
      have hstep := addPacketPiece_body m (show part < m.parts by omega) hparts
      rw [if_pos (by omega)] at hstep
      rw [List.range'_succ, List.map_cons, addPacketPieces, hstep]
      rfl
  | succ remaining ih =>
      intro part hpart
      have hstep := addPacketPiece_body m (show part < m.parts by omega) hparts
      rw [if_neg (by omega)] at hstep
      rw [List.range'_succ, List.map_cons, addPacketPieces, hstep, bind_ok, ih (part + 1) (by omega)]
      rfl

/-- **Reassembly.** A fresh packet answers `Incomplete` to every part but the last,
which completes the message. -/
theorem addPacketPieces_bodies (hpos : 0 < m.parts) (hparts : m.parts ≤ 255) :
    fresh.addPacketPieces ((List.range m.parts).map m.body) =
      .ok (List.replicate (m.parts - 1) .incomplete ++ [.complete], completed m) := by
  have hfrom := addPacketPieces_from m hparts (m.parts - 1) 0 (by omega)
  rwa [Nat.sub_add_cancel hpos, ← List.range_eq_range'] at hfrom

/-- The pieces joined are the payload. -/
theorem getPayload_completed : (completed m).getPayload = m.payload :=
  Pieces.mapPieces_id (by decide) m.payload

end MultipartPacket

end RadioDoge.Sharp
