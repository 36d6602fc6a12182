/-
# What serdog writes to its radio node

`sendCommand` copies a payload behind two header bytes and writes the result to the
serial port, which is assumed to take every byte. Its copy loop tests for the end
only after a byte is copied: a payload whose length is a multiple of 256 is copied
until something behind one of the two arrays is touched, and has no result here.

`cmdSendMessage` sends one packet and `cmdSendMultipartMessage` a series of parts.
-/

import RadioDoge.Serdog.SerialPoll
import RadioDoge.HostPackets

namespace RadioDoge.Serdog

open Pieces

/-- The size of `txbytes`. -/
abbrev txbytesSize : Nat := 255 + hdrLen

/-- The copy loop: `do { txbytes[idx + HDR_LEN] = payload[idx]; idx++; }
while (idx != payloadlen)`. -/
def copyPayload (payloadlen : UInt8) (idx : Nat) (txbytes : Vector UInt8 txbytesSize) :
    Bytes → Option (Vector UInt8 txbytesSize)
  | [] => none
  | byte :: rest =>
      if idx + hdrLen < txbytesSize then
        if idx + 1 = payloadlen.toNat then some (txbytes.setIfInBounds (idx + hdrLen) byte)
        else copyPayload payloadlen (idx + 1) (txbytes.setIfInBounds (idx + hdrLen) byte) rest
      else none

/-- `sendCommand`: the bytes written to the serial port. -/
def sendCommand (cmdtype : SerialCommand) (payloadsize : Nat) (payload : Option Bytes) :
    Option Bytes :=
  match payload with
  | none => some [cmdtype.code, 0]
  | some payload =>
      let payloadlen := UInt8.ofNat payloadsize
      -- `txbytes` is uninitialised; every byte written below is stored first
      let txbytes := memcpy (Vector.replicate txbytesSize 0) 0 [cmdtype.code, payloadlen]
      (copyPayload payloadlen 0 txbytes payload).map fun txbytes =>
        txbytes.toList.take (payloadlen.toNat + hdrLen)

/-- `cmdSendMessage`. -/
def cmdSendMessage (inAddr destAddr : NodeAddress) (customPayload : Bytes)
    (customPayloadLen : UInt8) : Option Bytes :=
  let cmdType := SerialCommand.hostFormedPacket
  let totalPayloadSize := customPayloadLen.toNat + hdrLen + 3 + 3
  let combinedPayload := [cmdType.code, UInt8.ofNat (totalPayloadSize - hdrLen)] ++
    inAddr.bytes ++ destAddr.bytes ++ customPayload.take customPayloadLen.toNat
  sendCommand cmdType totalPayloadSize (some combinedPayload)

/-- The send loop of `cmdSendMultipartMessage`: `remaining` passes to go. -/
def multipartLoop (inAddr destAddr : NodeAddress) (customPayload : Bytes) (messageID : UInt8)
    (totalNumParts : Nat) : Nat → Nat → Nat → Nat → Option (List Bytes)
  | 0, _, _, _ => some []
  | remaining + 1, i, payloadInd, payloadLeft => do
      let cmdType := SerialCommand.multipartPacket
      let currPayloadLen := if payloadLeft ≥ maxPayloadLen then maxPayloadLen else payloadLeft
      let currentPacket := [cmdType.code, UInt8.ofNat (currPayloadLen + multipartHdrLen - hdrLen)] ++
        inAddr.bytes ++ destAddr.bytes ++
        [messageID, 0, UInt8.ofNat i, UInt8.ofNat totalNumParts] ++
        (customPayload.drop payloadInd).take currPayloadLen
      let written ← sendCommand cmdType (currPayloadLen + multipartHdrLen) (some currentPacket)
      let later ← multipartLoop inAddr destAddr customPayload messageID totalNumParts remaining
        (i + 1) (payloadInd + currPayloadLen) (payloadLeft - currPayloadLen)
      some (written :: later)

/-- `cmdSendMultipartMessage`: what each call of `sendCommand` writes, in order. -/
def cmdSendMultipartMessage (inAddr destAddr : NodeAddress) (customPayload : Bytes)
    (customPayloadLen : Nat) (messageID : UInt8) : Option (List Bytes) :=
  let totalNumParts := customPayloadLen / maxPayloadLen +
    if customPayloadLen % maxPayloadLen ≠ 0 then 1 else 0
  multipartLoop inAddr destAddr customPayload messageID totalNumParts totalNumParts 1 0
    customPayloadLen

/-! ## What is written -/

/-- The copy loop copies a payload whose length it is given. -/
theorem copyPayload_spec {payloadlen : UInt8} (payload : Bytes) :
    ∀ (idx : Nat) (txbytes : Vector UInt8 txbytesSize), payload ≠ [] →
      idx + payload.length = payloadlen.toNat →
      copyPayload payloadlen idx txbytes payload = some (memcpy txbytes (idx + hdrLen) payload) := by
  induction payload with
  | nil =>
      intro idx txbytes hne
      exact absurd rfl hne
  | cons byte rest ih =>
      intro idx txbytes _ hlen
      rw [List.length_cons] at hlen
      have hbyte : payloadlen.toNat < 256 := payloadlen.toNat_lt
      have hroom : idx + hdrLen < txbytesSize := by
        simp only [txbytesSize, hdrLen]
        omega
      rw [copyPayload, if_pos hroom]
      by_cases hlast : idx + 1 = payloadlen.toNat
      · obtain rfl : rest = [] := List.eq_nil_of_length_eq_zero (by omega)
        rw [if_pos hlast]
        rfl
      · have hne : rest ≠ [] := by
          rintro rfl
          exact hlast hlen
        rw [if_neg hlast, ih (idx + 1) _ hne (by omega)]
        have hoffset : idx + 1 + hdrLen = idx + hdrLen + 1 := by omega
        rw [memcpy, hoffset]

/-- A payload of 1 to 255 bytes is written behind its header. -/
theorem sendCommand_eq (cmdtype : SerialCommand) {payload : Bytes} (hpos : 0 < payload.length)
    (hlen : payload.length ≤ 255) :
    sendCommand cmdtype payload.length (some payload) = some (framed cmdtype payload) := by
  have hsize : (UInt8.ofNat payload.length).toNat = payload.length :=
    toNat_ofNat_of_le (by omega)
  have hcopy := copyPayload_spec payload 0
    (memcpy (Vector.replicate txbytesSize 0) 0 [cmdtype.code, UInt8.ofNat payload.length])
    (List.length_pos_iff.mp hpos) ((Nat.zero_add _).trans hsize.symm)
  have hstored := memcpy_append [cmdtype.code, UInt8.ofNat payload.length] payload
    (Vector.replicate txbytesSize 0) 0
  have hread := take_memcpy (Vector.replicate txbytesSize 0) (framed cmdtype payload) (by
    rw [length_framed]
    simp only [txbytesSize, hdrLen, serialHeaderSize]
    omega)
  rw [sendCommand, hcopy, Option.map_some, hsize]
  exact congrArg some ((congrArg (fun v => List.take _ (Vector.toList v)) hstored).trans hread)

/-- `cmdSendMessage` writes the command of the packet. -/
theorem cmdSendMessage_eq (p : HostPacket) (hlen : p.payload.length ≤ 247) :
    cmdSendMessage p.src p.dest p.payload (UInt8.ofNat p.payload.length) = some p.command := by
  have hsize : (UInt8.ofNat p.payload.length).toNat = p.payload.length :=
    toNat_ofNat_of_le (by omega)
  have hframe : p.frame = [SerialCommand.hostFormedPacket.code,
      UInt8.ofNat (p.payload.length + hdrLen + 3 + 3 - hdrLen)] ++ p.src.bytes ++ p.dest.bytes ++
        p.payload := by
    have hcount : (p.src.bytes ++ p.dest.bytes ++ p.payload).length =
        p.payload.length + hdrLen + 3 + 3 - hdrLen := by
      simp only [List.length_append, NodeAddress.length_bytes, hdrLen]
      omega
    rw [HostPacket.frame, framed, hcount]
    simp only [List.cons_append, List.nil_append, List.append_assoc]
  have htotal : p.payload.length + hdrLen + 3 + 3 = p.frame.length := by
    rw [HostPacket.length_frame]
    simp only [hdrLen, singlePacketHdrLen]
  have hframeLen : p.frame.length = p.payload.length + singlePacketHdrLen := p.length_frame
  simp only [cmdSendMessage, hsize, List.take_length]
  rw [← hframe, htotal]
  exact sendCommand_eq .hostFormedPacket (by omega) (by
    rw [hframeLen]
    simp only [singlePacketHdrLen]
    omega)

/-- One pass of the send loop writes the command of its part. -/
theorem sendCommand_part (m : HostMessage) (part : Nat) {chunk : Bytes}
    (hchunk : chunk.length ≤ maxPayloadLen) :
    sendCommand .multipartPacket (chunk.length + multipartHdrLen)
        (some ([SerialCommand.multipartPacket.code,
          UInt8.ofNat (chunk.length + multipartHdrLen - hdrLen)] ++ m.src.bytes ++ m.dest.bytes ++
            [m.messageID, 0, UInt8.ofNat (part + 1), UInt8.ofNat m.parts] ++ chunk)) =
      some (framed .multipartPacket (framed .multipartPacket (m.bodyWith part chunk))) := by
  have hbody := m.length_bodyWith part chunk
  have hframe : [SerialCommand.multipartPacket.code,
      UInt8.ofNat (chunk.length + multipartHdrLen - hdrLen)] ++ m.src.bytes ++ m.dest.bytes ++
        [m.messageID, 0, UInt8.ofNat (part + 1), UInt8.ofNat m.parts] ++ chunk =
      framed .multipartPacket (m.bodyWith part chunk) := by
    rw [framed, hbody]
    simp only [HostMessage.bodyWith, List.cons_append, List.nil_append, List.append_assoc]
    rfl
  have hlen : (framed .multipartPacket (m.bodyWith part chunk)).length =
      chunk.length + multipartHdrLen := by
    rw [length_framed, hbody]
    exact Nat.add_assoc _ _ _
  simp only [maxPayloadLen, multipartHdrLen] at hchunk hlen
  rw [hframe, ← hlen]
  exact sendCommand_eq .multipartPacket (by omega) (by omega)

/-- The send loop is the cutting loop, with one command for each piece. -/
theorem multipartLoop_eq (m : HostMessage) (remaining : Nat) :
    ∀ i payloadInd payloadLeft, payloadInd + payloadLeft = m.payload.length →
      multipartLoop m.src m.dest m.payload m.messageID m.parts remaining (i + 1) payloadInd
          payloadLeft =
        some (cutLoop maxPayloadLen m.payload
          (fun part chunk => framed .multipartPacket (framed .multipartPacket
            (m.bodyWith part chunk))) remaining i payloadInd payloadLeft) := by
  induction remaining with
  | zero =>
      intro i payloadInd payloadLeft _
      rfl
  | succ remaining ih =>
      intro i payloadInd payloadLeft hposition
      have hlater := ih (i + 1) (payloadInd + min maxPayloadLen payloadLeft)
        (payloadLeft - min maxPayloadLen payloadLeft) (by omega)
      have hchunk := length_take_drop_min maxPayloadLen hposition
      have hwritten := sendCommand_part m i (hchunk.trans_le (Nat.min_le_left _ _))
      rw [hchunk] at hwritten
      simp only [multipartLoop, ite_ge_eq_min, hlater, hwritten, cutLoop, Option.bind_eq_bind,
        Option.bind_some]

/-- `cmdSendMultipartMessage` writes the commands of the message. -/
theorem cmdSendMultipartMessage_eq (m : HostMessage) :
    cmdSendMultipartMessage m.src m.dest m.payload m.payload.length m.messageID =
      some m.commands := by
  simp only [cmdSendMultipartMessage, m.parts_eq_div_add]
  rw [multipartLoop_eq m m.parts 0 0 m.payload.length (Nat.zero_add _), m.cutLoop_commands]

end RadioDoge.Serdog
