/-
# What the hub writes to its radio node

`PacketHelper` of the hub builds the serial commands that serdog writes byte by
byte. The header of the packet and the header of the command are both made by
`CreateCommandHeader`, from lengths cast to a byte.
-/

import RadioDoge.HostPackets

namespace RadioDoge.Sharp

open Pieces

/-- `CreateCommandHeader`. -/
def createCommandHeader (commandType payloadSize : UInt8) : Bytes := [commandType, payloadSize]

/-- `CreatePacket`. -/
def createPacket (destAddress localAddress : NodeAddress) (payload : Bytes) : Bytes :=
  let commandType := SerialCommand.hostFormedPacket.code
  let messageSize := UInt8.ofNat (payload.length + 6)
  createCommandHeader commandType (messageSize + 2) ++
    createCommandHeader commandType messageSize ++
    localAddress.bytes ++ destAddress.bytes ++ payload

/-- The loop of `CreateMultipartPackets`: `remaining` packets to go. -/
def multipartPackets (destAddress localAddress : NodeAddress) (multipartPayload : Bytes)
    (totalNumPackets : Nat) : Nat → Nat → Nat → Nat → List Bytes
  | 0, _, _, _ => []
  | remaining + 1, i, payloadInd, payloadLeft =>
      let commandType := SerialCommand.multipartPacket.code
      let currPayloadLength :=
        if payloadLeft ≥ maxPayloadLen then maxPayloadLen else payloadLeft
      let currPacketBytes :=
        createCommandHeader commandType (UInt8.ofNat (currPayloadLength + 12)) ++
          createCommandHeader commandType (UInt8.ofNat (currPayloadLength + 10)) ++
          localAddress.bytes ++ destAddress.bytes ++
          [123, 0, UInt8.ofNat (i + 1), UInt8.ofNat totalNumPackets] ++
          (multipartPayload.drop payloadInd).take currPayloadLength
      currPacketBytes :: multipartPackets destAddress localAddress multipartPayload totalNumPackets
        remaining (i + 1) (payloadInd + currPayloadLength) (payloadLeft - currPayloadLength)

/-- `CreateMultipartPackets`. -/
def createMultipartPackets (destAddress localAddress : NodeAddress) (multipartPayload : Bytes) :
    List Bytes :=
  let totalNumPackets := multipartPayload.length / maxPayloadLen +
    if multipartPayload.length % maxPayloadLen ≠ 0 then 1 else 0
  multipartPackets destAddress localAddress multipartPayload totalNumPackets totalNumPackets 0 0
    multipartPayload.length

/-- `CreatePacket` makes the command of the packet, for payloads whose length fits
its byte as for those whose does not. -/
theorem createPacket_eq (p : HostPacket) : createPacket p.dest p.src p.payload = p.command := by
  have hbody : UInt8.ofNat (p.src.bytes ++ p.dest.bytes ++ p.payload).length =
      UInt8.ofNat (p.payload.length + 6) := by
    simp only [List.length_append, NodeAddress.length_bytes]
    exact congrArg UInt8.ofNat (Nat.add_comm _ _)
  have hsize : UInt8.ofNat p.frame.length = UInt8.ofNat (p.payload.length + 6) + 2 := by
    rw [p.length_frame, show (2 : UInt8) = UInt8.ofNat 2 from rfl, ← UInt8.ofNat_add]
    exact congrArg UInt8.ofNat (Nat.add_assoc _ 6 2).symm
  rw [HostPacket.command, framed, hsize, HostPacket.frame, framed, hbody]
  simp only [createPacket, createCommandHeader, List.cons_append, List.nil_append,
    List.append_assoc]

/-- One pass of the loop makes the command of its part. -/
theorem currPacketBytes_eq (m : HostMessage) (part : Nat) (chunk : Bytes) :
    createCommandHeader SerialCommand.multipartPacket.code (UInt8.ofNat (chunk.length + 12)) ++
        createCommandHeader SerialCommand.multipartPacket.code (UInt8.ofNat (chunk.length + 10)) ++
        m.src.bytes ++ m.dest.bytes ++
        [m.messageID, 0, UInt8.ofNat (part + 1), UInt8.ofNat m.parts] ++ chunk =
      framed .multipartPacket (framed .multipartPacket (m.bodyWith part chunk)) := by
  have hbody := m.length_bodyWith part chunk
  have hframe : (framed .multipartPacket (m.bodyWith part chunk)).length = chunk.length + 12 := by
    rw [length_framed, hbody]
    exact Nat.add_assoc _ _ _
  rw [framed, hframe, framed, hbody]
  simp only [HostMessage.bodyWith, createCommandHeader, List.cons_append, List.nil_append,
    List.append_assoc]

/-- The loop is the cutting loop, with one packet for each piece. -/
theorem multipartPackets_eq (m : HostMessage) (hid : m.messageID = 123) (remaining : Nat) :
    ∀ i payloadInd payloadLeft, payloadInd + payloadLeft = m.payload.length →
      multipartPackets m.dest m.src m.payload m.parts remaining i payloadInd payloadLeft =
        cutLoop maxPayloadLen m.payload
          (fun part chunk => framed .multipartPacket (framed .multipartPacket
            (m.bodyWith part chunk))) remaining i payloadInd payloadLeft := by
  induction remaining with
  | zero =>
      intro i payloadInd payloadLeft _
      rfl
  | succ remaining ih =>
      intro i payloadInd payloadLeft hposition
      have hlater := ih (i + 1) (payloadInd + min maxPayloadLen payloadLeft)
        (payloadLeft - min maxPayloadLen payloadLeft) (by omega)
      have hchunk := length_take_drop_min maxPayloadLen hposition
      have hpacket := currPacketBytes_eq m i
        ((m.payload.drop payloadInd).take (min maxPayloadLen payloadLeft))
      rw [hchunk, hid] at hpacket
      simp only [multipartPackets, ite_ge_eq_min, hlater, hpacket, cutLoop]

/-- `CreateMultipartPackets` makes the commands of the message; its id is 123. -/
theorem createMultipartPackets_eq (m : HostMessage) (hid : m.messageID = 123) :
    createMultipartPackets m.dest m.src m.payload = m.commands := by
  simp only [createMultipartPackets, m.parts_eq_div_add]
  rw [multipartPackets_eq m hid m.parts 0 0 m.payload.length (Nat.zero_add _),
    m.cutLoop_commands]

end RadioDoge.Sharp
