/-
# The multipart senders of the v3 firmware

`SendMultipartMessage`, `SendMultipartTransaction` and `SendMultipartBroadcast`
format one text, cut it every 200 bytes and transmit each piece in a frame of
its own behind a 12-byte header. They differ in the text they format, in the
destination and data type they write, and in that only the last two refuse a
text of more than 20 parts. The common loop is `sendParts`; what it transmits is
stated once, by `val_sendParts`, in terms of `MultipartMessage.frame`.
-/

import RadioDoge.V3.Memory
import RadioDoge.Lib.Pieces

namespace RadioDoge.V3

open Pieces

/-- `struct MultipartPacket`. -/
structure MultipartPacket where
  packetType : UInt8
  dest : NodeAddress
  src : NodeAddress
  partNumber : UInt8
  totalParts : UInt8
  dataType : UInt8
  reserved : UInt8
  data : Vector UInt8 multipartChunkSize

/-- The twelve header bytes of a packet on the air, padding included. -/
def MultipartPacket.header (mp : MultipartPacket) : Bytes :=
  mp.packetType :: mp.dest.bytes ++ mp.src.bytes ++
    [mp.partNumber, mp.totalParts, mp.dataType, mp.reserved, 0]

/-- Write consecutive bytes through the audit. -/
def storeBytes {n : Nat} (array : FirmwareArray) (v : Vector UInt8 n) (offset : Nat) :
    Bytes → Checked (Vector UInt8 n)
  | [] => pure v
  | byte :: rest => do
      let next ← writeAt array v offset byte
      storeBytes array next (offset + 1) rest

theorem val_storeBytes {n : Nat} (array : FirmwareArray) (bytes : Bytes) :
    ∀ (v : Vector UInt8 n) (offset : Nat),
      (storeBytes array v offset bytes).val = memcpy v offset bytes := by
  induction bytes with
  | nil => intro v offset; rfl
  | cons byte rest ih => intro v offset; exact ih _ _

/-- The body of the send loop: put the chunk behind the header and pass the
frame to `Radio.Send`. `chunk.getBytes` also stores a terminating NUL. -/
def sendPart (mp : MultipartPacket) (chunk : Bytes) : Checked Bytes := do
  let chunkSize := chunk.length
  let data ← storeBytes .mpPacketData mp.data 0 (getBytes chunk (chunkSize + 1))
  let packetSize : UInt8 := UInt8.ofNat (multipartHeaderSize + chunkSize)
  -- `uint8_t packet[256]` is uninitialised; every byte sent below is written first
  let packet : Vector UInt8 bufferSize := memcpy (Vector.replicate bufferSize 0) 0 mp.header
  let packet ← copyBytes .mpPacketData data 0 .packet packet multipartHeaderSize chunkSize
  pure (slice packet 0 packetSize.toNat)

/-- The send loop shared by the three senders: one frame for each part, in
order. `partNumber` and `totalParts` are stored in single bytes. -/
def sendParts (src dest : NodeAddress) (dataType : UInt8) (text : Bytes) :
    Checked (List Bytes) :=
  let totalLength := text.length
  let totalParts := (totalLength + multipartChunkSize - 1) / multipartChunkSize
  Traced.forUpTo (fun part sent => do
    let startPos := part * multipartChunkSize
    let chunkSize := min multipartChunkSize (totalLength - startPos)
    let chunk := substring text startPos (startPos + chunkSize)
    let mpPacket : MultipartPacket :=
      { packetType := SerialCommand.multipartPacket.code
        dest := dest
        src := src
        partNumber := UInt8.ofNat (part + 1)
        totalParts := UInt8.ofNat totalParts
        dataType := dataType
        reserved := 0
        data := Vector.replicate multipartChunkSize 0 }
    let frame ← sendPart mpPacket chunk
    pure (sent ++ [frame])) [] totalParts

/-- `SendMultipartMessage`: the frames passed to `Radio.Send`. -/
def sendMultipartMessage (localAddress destination : NodeAddress) (message type : Bytes) :
    Checked (List Bytes) :=
  let messageData := type ++ colon :: message
  sendParts localAddress destination 1 messageData

/-- `SendMultipartTransaction`: nothing is sent for more than 20 parts. -/
def sendMultipartTransaction (localAddress destination : NodeAddress)
    (transaction type : Bytes) : Checked (List Bytes) :=
  let txData := type ++ colon :: transaction
  let totalParts := (txData.length + multipartChunkSize - 1) / multipartChunkSize
  if totalParts > maxMultipartParts then pure []
  else sendParts localAddress destination 0 txData

/-- `SendMultipartBroadcast`: nothing is sent for more than 20 parts. -/
def sendMultipartBroadcast (localAddress : NodeAddress) (message type priority : Bytes) :
    Checked (List Bytes) :=
  let broadcastData := type ++ colon :: (priority ++ colon :: message)
  let totalParts := (broadcastData.length + multipartChunkSize - 1) / multipartChunkSize
  if totalParts > maxMultipartParts then pure []
  else sendParts localAddress NodeAddress.broadcast 2 broadcastData

/-! ## What is on the air -/

/-- A text on its way: who sends it, to whom, as which data type. -/
structure MultipartMessage where
  src : NodeAddress
  dest : NodeAddress
  dataType : UInt8
  text : Bytes
  deriving DecidableEq, Repr

namespace MultipartMessage

/-- The number of parts the text is cut into. -/
def parts (m : MultipartMessage) : Nat := pieceCount multipartChunkSize m.text.length

/-- The data bytes of one part: its piece of the text, as `strncpy` copies it. -/
def chunk (m : MultipartMessage) (part : Nat) : Bytes :=
  strncpy (piece multipartChunkSize m.text part)

/-- The header of one part. -/
def header (m : MultipartMessage) (part : Nat) : Bytes :=
  SerialCommand.multipartPacket.code :: m.dest.bytes ++ m.src.bytes ++
    [UInt8.ofNat (part + 1), UInt8.ofNat m.parts, m.dataType, 0, 0]

/-- The frame of one part. -/
def frame (m : MultipartMessage) (part : Nat) : Bytes := m.header part ++ m.chunk part

/-- All frames, in the order of transmission. -/
def frames (m : MultipartMessage) : List Bytes := (List.range m.parts).map m.frame

/-- The first frame of a text in parts. -/
theorem frames_eq_cons {m : MultipartMessage} (hpos : 0 < m.parts) :
    ∃ rest, m.frames = m.frame 0 :: rest := by
  obtain ⟨before, hparts⟩ := Nat.exists_eq_add_of_lt hpos
  rw [frames, hparts, Nat.zero_add, List.range_succ_eq_map, List.map_cons]
  exact ⟨_, rfl⟩

/-- Every frame is the frame of a part. -/
theorem exists_of_mem_frames {m : MultipartMessage} {frame : Bytes} (h : frame ∈ m.frames) :
    ∃ part, frame = m.frame part := by
  obtain ⟨part, -, rfl⟩ := List.mem_map.mp h
  exact ⟨part, rfl⟩

@[simp]
theorem length_header (m : MultipartMessage) (part : Nat) :
    (m.header part).length = multipartHeaderSize := by
  simp [header]

theorem length_chunk_le (m : MultipartMessage) (part : Nat) :
    (m.chunk part).length ≤ multipartChunkSize := by
  rw [chunk, length_strncpy]
  exact length_piece_le _ _ _

theorem length_frame (m : MultipartMessage) (part : Nat) :
    (m.frame part).length = multipartHeaderSize + (m.chunk part).length := by
  rw [frame, List.length_append, length_header]

end MultipartMessage

/-- A chunk of at most 200 bytes is sent behind its header. -/
theorem val_sendPart (mp : MultipartPacket) (chunk : Bytes)
    (hchunk : chunk.length ≤ multipartChunkSize) :
    (sendPart mp chunk).val = mp.header ++ strncpy chunk := by
  have hheader : mp.header.length = multipartHeaderSize := by simp [MultipartPacket.header]
  have hbytes : getBytes chunk (chunk.length + 1) = strncpy chunk ++ [0] := by simp [getBytes]
  have hsize : (UInt8.ofNat (multipartHeaderSize + chunk.length)).toNat =
      multipartHeaderSize + chunk.length := by
    rw [UInt8.toNat_ofNat']
    exact Nat.mod_eq_of_lt (by simp only [multipartHeaderSize, multipartChunkSize] at *; omega)
  have hdata : slice (memcpy mp.data 0 (strncpy chunk ++ [0])) 0 chunk.length =
      strncpy chunk := by
    rw [slice_memcpy _ _ _ _ (by simp) (by simpa using hchunk), List.take_left' (by simp)]
  have hfits : multipartHeaderSize + chunk.length ≤ bufferSize := by
    simp only [multipartHeaderSize, multipartChunkSize, bufferSize] at *
    omega
  simp only [sendPart, Traced.val_bind, Traced.val_pure, val_storeBytes, hbytes, hsize]
  rw [slice_append, Nat.zero_add,
    slice_copyBytes_self _ _ _ _ _ _ _ (by simpa using hchunk) hfits, hdata,
    slice_copyBytes_disjoint _ _ _ _ _ _ _ _ _ (by decide) (.inl (by decide)),
    slice_memcpy _ _ _ _ hheader.ge (by decide), ← hheader, List.take_length]

/-- The send loop transmits exactly the frames of the message. -/
theorem val_sendParts (src dest : NodeAddress) (dataType : UInt8) (text : Bytes) :
    (sendParts src dest dataType text).val =
      (MultipartMessage.mk src dest dataType text).frames := by
  let m := MultipartMessage.mk src dest dataType text
  refine Traced.forUpTo_invariant _ [] (fun part sent => sent = (List.range part).map m.frame)
    m.parts rfl ?_
  intro part sent hpart hsent
  have hpiece : substring text (part * multipartChunkSize)
      (part * multipartChunkSize +
        min multipartChunkSize (text.length - part * multipartChunkSize)) =
        piece multipartChunkSize text part := by
    rw [substring, if_pos (Nat.le_add_right _ _), Nat.add_sub_cancel_left, piece,
      ← List.length_drop, ← List.take_eq_take_min]
  simp only [Traced.val_bind, Traced.val_pure, hpiece,
    val_sendPart _ _ (length_piece_le multipartChunkSize text part), hsent,
    List.range_succ, List.map_append, List.map_cons, List.map_nil]
  rfl

/-- A message of at most 20 parts is sent whole; a longer one not at all. -/
theorem val_sendParts_guarded (m : MultipartMessage) :
    (if m.parts > maxMultipartParts then pure []
      else sendParts m.src m.dest m.dataType m.text).val =
      if m.parts ≤ maxMultipartParts then m.frames else [] := by
  by_cases hfits : m.parts ≤ maxMultipartParts
  · rw [if_neg (Nat.not_lt.mpr hfits), if_pos hfits]
    exact val_sendParts _ _ _ _
  · rw [if_pos (Nat.lt_of_not_le hfits), if_neg hfits]
    rfl

theorem val_sendMultipartMessage (localAddress destination : NodeAddress)
    (message type : Bytes) :
    (sendMultipartMessage localAddress destination message type).val =
      (MultipartMessage.mk localAddress destination 1 (type ++ colon :: message)).frames :=
  val_sendParts _ _ _ _

theorem val_sendMultipartTransaction (localAddress destination : NodeAddress)
    (transaction type : Bytes) :
    (sendMultipartTransaction localAddress destination transaction type).val =
      let m := MultipartMessage.mk localAddress destination 0 (type ++ colon :: transaction)
      if m.parts ≤ maxMultipartParts then m.frames else [] :=
  val_sendParts_guarded
    (MultipartMessage.mk localAddress destination 0 (type ++ colon :: transaction))

theorem val_sendMultipartBroadcast (localAddress : NodeAddress)
    (message type priority : Bytes) :
    (sendMultipartBroadcast localAddress message type priority).val =
      let m := MultipartMessage.mk localAddress NodeAddress.broadcast 2
        (type ++ colon :: (priority ++ colon :: message))
      if m.parts ≤ maxMultipartParts then m.frames else [] :=
  val_sendParts_guarded (MultipartMessage.mk localAddress NodeAddress.broadcast 2
    (type ++ colon :: (priority ++ colon :: message)))

end RadioDoge.V3
