/-
# The packets a host forms

A host wraps what it wants on the air in a serial command for its radio node. The
node transmits the payload of the command as it is, so the payload already begins
with a packet header: the kind, the number of bytes that follow, the sender and the
destination. A payload that is too long for one packet is cut every 192 bytes, and
each piece travels behind four more bytes: the message id, a reserved byte, the
number of the part and the number of parts.

Both hosts write these formats, serdog in C and the hub in C#. What they write is
stated here once and compared with either program in its own module.
-/

import RadioDoge.Types
import RadioDoge.Lib.Pieces

namespace RadioDoge

open Pieces

/-- `SERIAL_HEADER_SIZE`: the kind and the length. -/
abbrev serialHeaderSize : Nat := 2

/-- `MAX_PAYLOAD_LEN`, and `MAX_PAYLOAD_BYTES` of the hub. -/
abbrev maxPayloadLen : Nat := 192

/-- `MULTIPART_HDR_LEN`. -/
abbrev multipartHdrLen : Nat := 12

/-- `SINGLE_PACKET_HDR_LEN`. -/
abbrev singlePacketHdrLen : Nat := 8

/-- A number that fits a byte survives the cast. -/
theorem toNat_ofNat_of_le {n : Nat} (h : n ≤ 255) : (UInt8.ofNat n).toNat = n :=
  UInt8.toNat_ofNat_of_lt' (Nat.lt_succ_of_le h)

/-- Numbers that fit a byte are the same as bytes only if they are the same. -/
theorem ofNat_inj_of_le {a b : Nat} (ha : a ≤ 255) (hb : b ≤ 255) :
    UInt8.ofNat a = UInt8.ofNat b ↔ a = b := by
  rw [← UInt8.toNat_inj, toNat_ofNat_of_le ha, toNat_ofNat_of_le hb]

/-- A payload behind its kind and its length. -/
def framed (kind : SerialCommand) (payload : Bytes) : Bytes :=
  kind.code :: UInt8.ofNat payload.length :: payload

@[simp]
theorem length_framed (kind : SerialCommand) (payload : Bytes) :
    (framed kind payload).length = payload.length + serialHeaderSize := rfl

/-- A single packet. -/
structure HostPacket where
  src : NodeAddress
  dest : NodeAddress
  payload : Bytes
  deriving DecidableEq, Repr

namespace HostPacket

/-- The packet on the air. -/
def frame (p : HostPacket) : Bytes :=
  framed .hostFormedPacket (p.src.bytes ++ p.dest.bytes ++ p.payload)

/-- The serial command that asks for it. -/
def command (p : HostPacket) : Bytes := framed .hostFormedPacket p.frame

theorem length_frame (p : HostPacket) :
    p.frame.length = p.payload.length + singlePacketHdrLen := by
  simp only [frame, length_framed, List.length_append, NodeAddress.length_bytes, serialHeaderSize,
    singlePacketHdrLen]
  omega

end HostPacket

/-- A payload sent in parts. -/
structure HostMessage where
  src : NodeAddress
  dest : NodeAddress
  messageID : UInt8
  payload : Bytes
  deriving DecidableEq, Repr

namespace HostMessage

/-- The number of parts. -/
def parts (m : HostMessage) : Nat := pieceCount maxPayloadLen m.payload.length

/-- The piece of the payload in one part. -/
def chunk (m : HostMessage) (part : Nat) : Bytes := piece maxPayloadLen m.payload part

/-- What stands behind the kind and the length of a part that carries `chunk`; parts
count from one. -/
def bodyWith (m : HostMessage) (part : Nat) (chunk : Bytes) : Bytes :=
  m.src.bytes ++ m.dest.bytes ++
    [m.messageID, 0, UInt8.ofNat (part + 1), UInt8.ofNat m.parts] ++ chunk

/-- What stands behind the kind and the length of a part. -/
def body (m : HostMessage) (part : Nat) : Bytes := m.bodyWith part (m.chunk part)

/-- One part on the air. -/
def frame (m : HostMessage) (part : Nat) : Bytes := framed .multipartPacket (m.body part)

/-- The serial command that asks for it. -/
def command (m : HostMessage) (part : Nat) : Bytes := framed .multipartPacket (m.frame part)

/-- All parts on the air, in order. -/
def frames (m : HostMessage) : List Bytes := (List.range m.parts).map m.frame

/-- All serial commands, in order. -/
def commands (m : HostMessage) : List Bytes := (List.range m.parts).map m.command

theorem length_chunk_le (m : HostMessage) (part : Nat) :
    (m.chunk part).length ≤ maxPayloadLen := length_piece_le _ _ _

theorem length_bodyWith (m : HostMessage) (part : Nat) (chunk : Bytes) :
    (m.bodyWith part chunk).length = chunk.length + 10 := by
  simp only [bodyWith, List.length_append, NodeAddress.length_bytes, List.length_cons,
    List.length_nil]
  omega

theorem length_frame (m : HostMessage) (part : Nat) :
    (m.frame part).length = (m.chunk part).length + multipartHdrLen := by
  rw [frame, length_framed, body, length_bodyWith]
  exact Nat.add_assoc _ _ _

/-- Every part fits a packet. -/
theorem length_frame_le (m : HostMessage) (part : Nat) : (m.frame part).length ≤ 255 := by
  have hchunk := m.length_chunk_le part
  have hlen := m.length_frame part
  simp only [maxPayloadLen, multipartHdrLen] at hchunk hlen
  omega

/-- The number of parts, as both hosts compute it. -/
theorem parts_eq_div_add (m : HostMessage) :
    m.payload.length / maxPayloadLen +
      (if m.payload.length % maxPayloadLen ≠ 0 then 1 else 0) = m.parts :=
  pieceCount_eq_div_add (by decide) _

/-- The cutting loop makes the commands. -/
theorem cutLoop_commands (m : HostMessage) :
    cutLoop maxPayloadLen m.payload (fun part chunk => framed .multipartPacket
      (framed .multipartPacket (m.bodyWith part chunk))) m.parts 0 0 m.payload.length =
      m.commands :=
  cutLoop_eq (by decide) _ _

end HostMessage

end RadioDoge
