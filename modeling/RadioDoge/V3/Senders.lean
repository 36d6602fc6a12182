/-
# The single-frame senders of the v3 firmware

Pings and acknowledgements are sent from `controlPacket`, everything else from
the shared `serialBuf`: the text is copied in with `getBytes`, header bytes are
written over it, and a prefix of the buffer goes to `Radio.Send`. Each sender
returns the buffer it leaves behind and the frame it transmits; the `frame_`
lemmas give that frame as a function of the arguments alone.
-/

import RadioDoge.V3.Reassembly

namespace RadioDoge.V3

/-- `CONTROL_SIZE`. -/
abbrev controlSize : Nat := 8

/-- `controlPacket` after `InitControlMessages`. -/
def initControlMessages (localAddress : NodeAddress) (controlPacket : Vector UInt8 controlSize) :
    Vector UInt8 controlSize :=
  memcpy controlPacket 0 (MessageType.unknown.code :: 6 :: localAddress.bytes)

/-- What `SendPing` and `SendACK` do with `controlPacket`. -/
def sendControl (kind : MessageType) (controlPacket : Vector UInt8 controlSize)
    (destination : NodeAddress) : Vector UInt8 controlSize × Bytes :=
  let controlPacket := controlPacket.setIfInBounds 0 kind.code
  let controlPacket := memcpy controlPacket 5 destination.bytes
  (controlPacket, slice controlPacket 0 controlSize)

/-- `SendPing`. -/
def sendPing := sendControl .ping

/-- `SendACK`. -/
def sendAck := sendControl .ack

/-- `SendMessage`. -/
def sendMessage (localAddress : NodeAddress) (serialBuf : Vector UInt8 bufferSize)
    (destination : NodeAddress) (message type : Bytes) : Vector UInt8 bufferSize × Bytes :=
  let messageData := type ++ colon :: message
  let messageLength := messageData.length
  let totalPacketLength := messageLength + 8
  let (messageLength, totalPacketLength) :=
    if totalPacketLength > 255 then (255 - 8, 255) else (messageLength, totalPacketLength)
  let serialBuf := memcpy serialBuf 8 (getBytes messageData (messageLength + 1))
  let serialBuf := memcpy serialBuf 0
    (MessageType.message.code :: 0 :: localAddress.bytes ++ destination.bytes)
  (serialBuf, slice serialBuf 0 (UInt8.ofNat totalPacketLength).toNat)

/-- What `SendTransaction` and `SendBroadcast` do with `serialBuf`: the text goes
to its start, and the packet type over the first byte of the text. -/
def sendFromStart (kind : MessageType) (serialBuf : Vector UInt8 bufferSize) (text : Bytes) :
    Vector UInt8 bufferSize × Bytes :=
  let length := if text.length > 255 then 255 else text.length
  let serialBuf := memcpy serialBuf 0 (getBytes text (length + 1))
  let serialBuf := serialBuf.setIfInBounds 0 kind.code
  (serialBuf, slice serialBuf 0 (UInt8.ofNat length).toNat)

/-- `SendTransaction`. The destination is only displayed. -/
def sendTransaction (serialBuf : Vector UInt8 bufferSize) (_destination : NodeAddress)
    (transaction type : Bytes) : Vector UInt8 bufferSize × Bytes :=
  let txData := type ++ colon :: transaction
  sendFromStart .transaction serialBuf txData

/-- `SendBroadcast`. -/
def sendBroadcast (serialBuf : Vector UInt8 bufferSize) (message type priority : Bytes) :
    Vector UInt8 bufferSize × Bytes :=
  let broadcastData := type ++ colon :: (priority ++ colon :: message)
  sendFromStart .broadcast serialBuf broadcastData

/-! ## The frames -/

/-- Overwriting the first byte of what is in the buffer. -/
theorem slice_setIfInBounds_zero {n : Nat} (v : Vector UInt8 n) (byte : UInt8) {count : Nat}
    (hpos : 0 < count) (hfits : count ≤ n) :
    slice (v.setIfInBounds 0 byte) 0 count = byte :: (slice v 0 count).tail := by
  apply List.ext_getElem?
  intro i
  cases i with
  | zero =>
      have hn : 0 < n := by omega
      rw [getElem?_slice, if_pos hpos, Vector.getElem?_setIfInBounds]
      simp [hn]
  | succ i =>
      rw [List.getElem?_cons_succ, List.getElem?_tail, getElem?_slice, getElem?_slice,
        Vector.getElem?_setIfInBounds]
      simp

/-- A control frame: the type, what was in the packet, and the destination. -/
theorem frame_sendControl (kind : MessageType) (controlPacket : Vector UInt8 controlSize)
    (destination : NodeAddress) :
    (sendControl kind controlPacket destination).2 =
      kind.code :: slice controlPacket 1 4 ++ destination.bytes := by
  have hhead : slice (controlPacket.setIfInBounds 0 kind.code) 0 5 =
      kind.code :: slice controlPacket 1 4 := by
    rw [slice_setIfInBounds_zero _ _ (by decide) (by decide), slice, slice, ← List.drop_one,
      List.drop_take, List.drop_drop]
  have htail : slice (memcpy (controlPacket.setIfInBounds 0 kind.code) 5 destination.bytes) 5 3 =
      destination.bytes := by
    rw [slice_memcpy _ _ _ _ destination.length_bytes.ge (by decide)]
    rfl
  change slice _ 0 (5 + 3) = _
  rw [slice_append, slice_memcpy_disjoint _ _ _ _ _ (by decide) (.inl (by decide)), Nat.zero_add,
    htail, hhead]

/-- A message frame: the header, then at most 247 bytes of the text. -/
theorem frame_sendMessage (localAddress : NodeAddress) (serialBuf : Vector UInt8 bufferSize)
    (destination : NodeAddress) (message type : Bytes) :
    (sendMessage localAddress serialBuf destination message type).2 =
      MessageType.message.code :: 0 :: localAddress.bytes ++ destination.bytes ++
        strncpy ((type ++ colon :: message).take 247) := by
  let messageData := type ++ colon :: message
  have hlayout : ∀ n ≤ 247, n ≤ messageData.length → messageData.take n = messageData.take 247 →
      slice (memcpy (memcpy serialBuf 8 (getBytes messageData (n + 1))) 0
        (MessageType.message.code :: 0 :: localAddress.bytes ++ destination.bytes)) 0
        (UInt8.ofNat (n + 8)).toNat =
      MessageType.message.code :: 0 :: localAddress.bytes ++ destination.bytes ++
        strncpy (messageData.take 247) := by
    intro n hn hlen htake
    have hsize : (UInt8.ofNat (n + 8)).toNat = 8 + n := by
      rw [UInt8.toNat_ofNat', Nat.mod_eq_of_lt (by omega), Nat.add_comm]
    have hbytes : getBytes messageData (n + 1) = strncpy (messageData.take 247) ++ [0] := by
      rw [getBytes, if_neg (Nat.succ_ne_zero n), Nat.add_sub_cancel, htake]
    have hcopied : (strncpy (messageData.take 247)).length = n := by
      rw [length_strncpy, ← htake, List.length_take]
      omega
    rw [hsize, slice_append, slice_memcpy _ _ _ _ (by simp) (by decide), Nat.zero_add,
      slice_memcpy_disjoint _ _ _ _ _ (by simp only [bufferSize]; omega) (.inr (by simp)), hbytes,
      slice_memcpy _ _ _ _ (by simp [hcopied]) (by simp only [bufferSize]; omega),
      List.take_left' hcopied]
    rfl
  by_cases hlong : messageData.length + 8 > 255
  · have h := hlayout 247 le_rfl (by omega) rfl
    rw [sendMessage]
    simp only [messageData] at hlong
    simp only [if_pos hlong]
    exact h
  · have hlen : messageData.length ≤ 247 := by omega
    have h := hlayout messageData.length hlen le_rfl
      (by rw [List.take_length, List.take_of_length_le hlen])
    rw [sendMessage]
    simp only [messageData] at hlong
    simp only [if_neg hlong]
    exact h

/-- A frame of `sendFromStart`: at most 255 bytes of the text, without the first
one. -/
theorem frame_sendFromStart (kind : MessageType) (serialBuf : Vector UInt8 bufferSize)
    {text : Bytes} (hne : text ≠ []) :
    (sendFromStart kind serialBuf text).2 = kind.code :: (strncpy (text.take 255)).tail := by
  have hpos : 0 < text.length := List.length_pos_iff.mpr hne
  have hlayout : ∀ n, 0 < n → n ≤ 255 → n ≤ text.length → text.take n = text.take 255 →
      slice ((memcpy serialBuf 0 (getBytes text (n + 1))).setIfInBounds 0 kind.code) 0
        (UInt8.ofNat n).toNat = kind.code :: (strncpy (text.take 255)).tail := by
    intro n hn hle hlen htake
    have hsize : (UInt8.ofNat n).toNat = n := by
      rw [UInt8.toNat_ofNat', Nat.mod_eq_of_lt (by omega)]
    have hbytes : getBytes text (n + 1) = strncpy (text.take 255) ++ [0] := by
      rw [getBytes, if_neg (Nat.succ_ne_zero n), Nat.add_sub_cancel, htake]
    have hcopied : (strncpy (text.take 255)).length = n := by
      rw [length_strncpy, ← htake, List.length_take]
      omega
    rw [hsize, slice_setIfInBounds_zero _ _ hn (by simp only [bufferSize]; omega), hbytes,
      slice_memcpy _ _ _ _ (by simp [hcopied]) (by simp only [bufferSize]; omega),
      List.take_left' hcopied]
  rw [sendFromStart]
  by_cases hlong : text.length > 255
  · simp only [if_pos hlong]
    exact hlayout 255 (by decide) le_rfl hlong.le rfl
  · have hle : text.length ≤ 255 := Nat.le_of_not_lt hlong
    simp only [if_neg hlong]
    exact hlayout text.length hpos hle le_rfl
      (by rw [List.take_length, List.take_of_length_le hle])

end RadioDoge.V3
