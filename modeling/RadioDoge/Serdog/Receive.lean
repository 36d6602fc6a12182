/-
# Packets that serdog receives

`parseHostFormedPacket` takes the sender and the data out of a packet of one part.
`parseMultipartPayload` appends the data of one part to `multipartBuffer` and reports
whether the part was the last; it looks neither at the message id nor at the number
of the part before it. Both copy as many bytes as the packet has behind its header. A
packet that is shorter than its header, and a copy that goes past the end of the
buffer, have no result.
-/

import RadioDoge.Serdog.SerialPoll
import RadioDoge.HostPackets

namespace RadioDoge.Serdog

/-- The size of `dataBuffer`. -/
abbrev dataBufferSize : Nat := 255

/-- The size of `multipartBuffer`. -/
abbrev multipartBufferSize : Nat := 4096

/-- `memcpy` of bytes that have to fit behind `offset`. -/
def copyInto {n : Nat} (dst : Vector UInt8 n) (offset : Nat) (src : Bytes) :
    Option (Vector UInt8 n) :=
  if offset + src.length ≤ n then some (memcpy dst offset src) else none

/-- `scanf("%s")` into a buffer. -/
def scanString {n : Nat} (buffer : Vector UInt8 n) (text : Bytes) : Option (Vector UInt8 n) :=
  copyInto buffer 0 (text ++ [0])

/-- A string that fits is copied. -/
theorem scanString_eq {n : Nat} (buffer : Vector UInt8 n) {text : Bytes} (hfits : text.length < n) :
    scanString buffer text = some (memcpy buffer 0 (text ++ [0])) := by
  have hroom : 0 + (text ++ [0]).length ≤ n := by
    rw [List.length_append, List.length_singleton]
    omega
  rw [scanString, copyInto, if_pos hroom]

/-- A string that does not fit has no result. -/
theorem scanString_eq_none {n : Nat} (buffer : Vector UInt8 n) {text : Bytes}
    (hlong : ¬ text.length < n) : scanString buffer text = none := by
  have hroom : ¬ 0 + (text ++ [0]).length ≤ n := by
    rw [List.length_append, List.length_singleton]
    omega
  rw [scanString, copyInto, if_neg hroom]

/-- The address that stands at `offset` of a received packet. -/
def addressAt (payloadIn : Bytes) (offset : Nat) : NodeAddress :=
  ⟨payloadIn[offset]?.getD 0, payloadIn[offset + 1]?.getD 0, payloadIn[offset + 2]?.getD 0⟩

/-- `parseHostFormedPacket`: the sender, and the buffer with the data. -/
def parseHostFormedPacket (payloadIn : Bytes) (extractedDataBuffer : Vector UInt8 dataBufferSize) :
    Option (NodeAddress × Vector UInt8 dataBufferSize) :=
  let offset := hdrLen + 3 + 3
  if offset ≤ payloadIn.length then
    (copyInto extractedDataBuffer 0 (payloadIn.drop offset)).map fun extractedDataBuffer =>
      (addressAt payloadIn hdrLen, extractedDataBuffer)
  else none

/-- The multipart variables of the poll thread. -/
structure Multipart where
  multipartBuffer : Vector UInt8 multipartBufferSize
  multipartIndex : Nat
  senderAddress : NodeAddress

/-- `parseMultipartPayload`. -/
def parseMultipartPayload (payloadPartIn : Bytes) (s : Multipart) : Option (Bool × Multipart) :=
  if multipartHdrLen ≤ payloadPartIn.length then
    (copyInto s.multipartBuffer s.multipartIndex (payloadPartIn.drop multipartHdrLen)).map
      fun multipartBuffer =>
        (payloadPartIn[10]?.getD 0 == payloadPartIn[11]?.getD 0,
          { multipartBuffer := multipartBuffer
            multipartIndex := s.multipartIndex + (payloadPartIn.length - multipartHdrLen)
            senderAddress :=
              if s.multipartIndex = 0 then addressAt payloadPartIn hdrLen else s.senderAddress })
  else none

/-- A part that has its header is appended to what was joined, if it fits. -/
theorem parseMultipartPayload_eq {s : Multipart} {old : Vector UInt8 multipartBufferSize}
    {joined payloadPartIn : Bytes} (hbuffer : s.multipartBuffer = memcpy old 0 joined)
    (hindex : s.multipartIndex = joined.length)
    (hheader : multipartHdrLen ≤ payloadPartIn.length) :
    parseMultipartPayload payloadPartIn s =
      if (joined ++ payloadPartIn.drop multipartHdrLen).length ≤ multipartBufferSize then
        some (payloadPartIn[10]?.getD 0 == payloadPartIn[11]?.getD 0,
          { multipartBuffer := memcpy old 0 (joined ++ payloadPartIn.drop multipartHdrLen)
            multipartIndex := (joined ++ payloadPartIn.drop multipartHdrLen).length
            senderAddress :=
              if joined.length = 0 then addressAt payloadPartIn hdrLen else s.senderAddress })
      else none := by
  have hcopied := memcpy_append joined (payloadPartIn.drop multipartHdrLen) old 0
  rw [Nat.zero_add] at hcopied
  rw [parseMultipartPayload, if_pos hheader, copyInto, hbuffer, hindex, hcopied, List.length_append,
    List.length_drop]
  by_cases hroom : joined.length + (payloadPartIn.length - multipartHdrLen) ≤ multipartBufferSize
  · rw [if_pos hroom, if_pos hroom]
    rfl
  · rw [if_neg hroom, if_neg hroom]
    rfl

/-- What a framed packet of a host looks like to the completeness test. -/
theorem wellFormed_framed {kind : SerialCommand} (hkind : isCmd kind.code ≠ 0) {payload : Bytes}
    (hlen : payload.length ≤ 255) : WellFormed (framed kind payload) := by
  exact ⟨kind.code, UInt8.ofNat payload.length, payload, rfl, hkind, toNat_ofNat_of_le hlen⟩

/-- The sender and the data of a packet are recovered. -/
theorem parseHostFormedPacket_frame (p : HostPacket) (hlen : p.payload.length ≤ dataBufferSize)
    (extractedDataBuffer : Vector UInt8 dataBufferSize) :
    parseHostFormedPacket p.frame extractedDataBuffer =
      some (p.src, memcpy extractedDataBuffer 0 p.payload) := by
  have hcount : hdrLen + 3 + 3 ≤ p.frame.length := by
    rw [p.length_frame]
    exact Nat.le_add_left _ _
  have hdrop : p.frame.drop (hdrLen + 3 + 3) = p.payload := rfl
  rw [parseHostFormedPacket, if_pos hcount, hdrop, copyInto, if_pos (by omega)]
  rfl

end RadioDoge.Serdog
