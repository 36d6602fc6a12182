/-
# The buffers of the multipart senders

A part of a long text goes into the 200 bytes of `MultipartPacket::data` and from there into a
packet of 256 bytes. `getBytes` stores the bytes of the part and a NUL behind them, so a part of
200 bytes writes one byte past the end of `data`. Every text of 200 bytes or more begins with
such a part. Everything else is in bounds: the copy into the packet, and the size of the packet,
which a byte holds.
-/

import RadioDoge.V3.MultipartSend

namespace RadioDoge.V3

open Pieces

/-- A call of one of the multipart senders. -/
inductive MultipartCall
  | sendMessage (destination : NodeAddress) (message type : Bytes)
  | sendTransaction (destination : NodeAddress) (transaction type : Bytes)
  | sendBroadcast (message type priority : Bytes)
  deriving DecidableEq, Repr

namespace MultipartCall

variable (localAddress : NodeAddress)

/-- What the call passes to `Radio.Send`, with its array accesses. -/
def perform : MultipartCall → Checked (List Bytes)
  | .sendMessage destination message type =>
      sendMultipartMessage localAddress destination message type
  | .sendTransaction destination transaction type =>
      sendMultipartTransaction localAddress destination transaction type
  | .sendBroadcast message type priority =>
      sendMultipartBroadcast localAddress message type priority

/-- The text on its way. -/
def sent : MultipartCall → MultipartMessage
  | .sendMessage destination message type =>
      ⟨localAddress, destination, 1, type ++ colon :: message⟩
  | .sendTransaction destination transaction type =>
      ⟨localAddress, destination, 0, type ++ colon :: transaction⟩
  | .sendBroadcast message type priority =>
      ⟨localAddress, NodeAddress.broadcast, 2, type ++ colon :: (priority ++ colon :: message)⟩

/-- The text is not refused for its length. -/
def Accepted : MultipartCall → Prop
  | .sendMessage _ _ _ => True
  | .sendTransaction destination transaction type =>
      ((sendTransaction destination transaction type).sent localAddress).parts ≤ maxMultipartParts
  | .sendBroadcast message type priority =>
      ((sendBroadcast message type priority).sent localAddress).parts ≤ maxMultipartParts

/-- The bytes that the loop cuts for a part: `chunkSize`. -/
def chunkSize (call : MultipartCall) (part : Nat) : Nat :=
  min multipartChunkSize ((call.sent localAddress).text.length - part * multipartChunkSize)

/-- The call stays inside its buffers, and `Radio.Send` is given 12 bytes more for each part
than the part has. -/
structure StaysInside (call : MultipartCall) : Prop where
  inBounds : MemorySafe (call.perform localAddress)
  packetSize : ∀ part frame, (call.perform localAddress).val[part]? = some frame →
    frame.length = multipartHeaderSize + call.chunkSize localAddress part

end MultipartCall

/-! ## One part -/

/-- Consecutive writes are in bounds if the last of them is. -/
theorem memorySafe_storeBytes {n : Nat} (array : FirmwareArray) (bytes : Bytes) :
    ∀ (v : Vector UInt8 n) (offset : Nat),
      MemorySafe (storeBytes array v offset bytes) ↔
        bytes = [] ∨ offset + bytes.length ≤ array.size := by
  induction bytes with
  | nil =>
      intro v offset
      exact iff_of_true (Traced.every_pure _ _) (.inl rfl)
  | cons byte rest ih =>
      intro v offset
      have hstep : MemorySafe (storeBytes array v offset (byte :: rest)) ↔
          offset < array.size ∧ (rest = [] ∨ offset + 1 + rest.length ≤ array.size) := by
        simp only [storeBytes, Traced.every_bind, memorySafe_writeAt, ih]
      rw [hstep, List.length_cons]
      apply Iff.intro
      · rintro ⟨hfirst, hlater | hlater⟩
        · rw [hlater]
          exact .inr hfirst
        · exact .inr (by omega)
      · rintro (hnil | hlast)
        · cases hnil
        · exact ⟨by omega, .inr (by omega)⟩

/-- **One part.** The NUL behind a full part is written past the end of `data`; a shorter part
stays inside. -/
theorem memorySafe_sendPart (mp : MultipartPacket) {chunk : Bytes}
    (hchunk : chunk.length ≤ multipartChunkSize) :
    MemorySafe (sendPart mp chunk) ↔ chunk.length < multipartChunkSize := by
  have hbytes : (getBytes chunk (chunk.length + 1)).length = chunk.length + 1 := by
    rw [getBytes, if_neg (Nat.succ_ne_zero _), Nat.add_sub_cancel, List.take_length,
      List.length_append, length_strncpy, List.length_singleton]
  have hstore : MemorySafe (storeBytes .mpPacketData mp.data 0
      (getBytes chunk (chunk.length + 1))) ↔ chunk.length < multipartChunkSize := by
    rw [memorySafe_storeBytes, hbytes, Nat.zero_add]
    have hne : getBytes chunk (chunk.length + 1) ≠ [] := by
      rw [← List.length_pos_iff, hbytes]
      exact Nat.succ_pos _
    exact or_iff_right hne
  -- the copy behind the header reads `data` and writes the packet
  have hcopy : ∀ i < chunk.length, 0 + i < FirmwareArray.mpPacketData.size ∧
      multipartHeaderSize + i < FirmwareArray.packet.size := by
    intro i hi
    simp only [FirmwareArray.size, multipartHeaderSize, multipartChunkSize, bufferSize] at *
    omega
  simp only [sendPart, Traced.every_bind, hstore, memorySafe_copyBytes, Traced.every_pure,
    and_true]
  exact and_iff_left hcopy

/-! ## All parts -/

/-- The chunk that the loop cuts is a piece of the text. -/
theorem substring_eq_piece (text : Bytes) (part : Nat) :
    substring text (part * multipartChunkSize) (part * multipartChunkSize +
      min multipartChunkSize (text.length - part * multipartChunkSize)) =
      piece multipartChunkSize text part := by
  rw [substring, if_pos (Nat.le_add_right _ _), Nat.add_sub_cancel_left, piece,
    ← List.length_drop, ← List.take_eq_take_min]

/-- **The loop.** Every part is short exactly if there is a single short part. -/
theorem memorySafe_sendParts (src dest : NodeAddress) (dataType : UInt8) (text : Bytes) :
    MemorySafe (sendParts src dest dataType text) ↔ text.length < multipartChunkSize := by
  have hparts : ∀ part, MemorySafe (sendPart
      { packetType := SerialCommand.multipartPacket.code
        dest := dest
        src := src
        partNumber := UInt8.ofNat (part + 1)
        totalParts := UInt8.ofNat ((text.length + multipartChunkSize - 1) / multipartChunkSize)
        dataType := dataType
        reserved := 0
        data := Vector.replicate multipartChunkSize 0 } (piece multipartChunkSize text part)) ↔
      (piece multipartChunkSize text part).length < multipartChunkSize :=
    fun part => memorySafe_sendPart _ (length_piece_le _ _ _)
  simp only [sendParts, Traced.every_forUpTo, Traced.every_bind, Traced.every_pure, and_true,
    substring_eq_piece, hparts, length_piece]
  apply Iff.intro
  · intro hshort
    by_contra hlong
    have hfirst := hshort 0 (by
      apply pieceCount_pos (by decide)
      simp only [multipartChunkSize] at hlong
      omega)
    omega
  · intro hshort part _
    omega

/-- The length of what is sent for a part. -/
theorem length_of_mem_frames (m : MultipartMessage) {part : Nat} {frame : Bytes}
    (hframe : m.frames[part]? = some frame) :
    frame.length = multipartHeaderSize +
      min multipartChunkSize (m.text.length - part * multipartChunkSize) := by
  rw [MultipartMessage.frames, List.getElem?_map, Option.map_eq_some_iff] at hframe
  rcases hframe with ⟨found, hfound, rfl⟩
  have hsame : found = part := by
    rw [List.getElem?_eq_some_iff] at hfound
    rcases hfound with ⟨hlt, hvalue⟩
    rw [← hvalue, List.getElem_range]
  rw [hsame, m.length_frame, MultipartMessage.chunk, length_strncpy, length_piece]

namespace MultipartCall

variable (localAddress : NodeAddress) (call : MultipartCall)

/-- Every call runs the common loop, or refuses the text. -/
theorem perform_cases :
    (call.Accepted localAddress ∧ call.perform localAddress =
      sendParts (call.sent localAddress).src (call.sent localAddress).dest
        (call.sent localAddress).dataType (call.sent localAddress).text) ∨
    (¬ call.Accepted localAddress ∧ call.perform localAddress = pure []) := by
  have hguard : ∀ m : MultipartMessage,
      (if m.parts > maxMultipartParts then pure []
        else sendParts m.src m.dest m.dataType m.text : Checked (List Bytes)) =
      if m.parts ≤ maxMultipartParts then sendParts m.src m.dest m.dataType m.text
        else pure [] := by
    intro m
    by_cases hfits : m.parts ≤ maxMultipartParts
    · rw [if_neg (Nat.not_lt.mpr hfits), if_pos hfits]
    · rw [if_pos (Nat.lt_of_not_le hfits), if_neg hfits]
  cases call with
  | sendMessage destination message type => exact .inl ⟨trivial, rfl⟩
  | sendTransaction destination transaction type =>
      have hperform := hguard ((MultipartCall.sendTransaction destination transaction type).sent
        localAddress)
      by_cases hfits : (MultipartCall.sendTransaction destination transaction type).Accepted
          localAddress
      · exact .inl ⟨hfits, hperform.trans (if_pos hfits)⟩
      · exact .inr ⟨hfits, hperform.trans (if_neg hfits)⟩
  | sendBroadcast message type priority =>
      have hperform :=
        hguard ((MultipartCall.sendBroadcast message type priority).sent localAddress)
      by_cases hfits : (MultipartCall.sendBroadcast message type priority).Accepted localAddress
      · exact .inl ⟨hfits, hperform.trans (if_pos hfits)⟩
      · exact .inr ⟨hfits, hperform.trans (if_neg hfits)⟩

/-- The size of every packet is true, whatever is written past the end of `data`. -/
theorem packetSize_perform {part : Nat} {frame : Bytes}
    (hframe : (call.perform localAddress).val[part]? = some frame) :
    frame.length = multipartHeaderSize + call.chunkSize localAddress part := by
  rcases call.perform_cases localAddress with ⟨-, hperform⟩ | ⟨-, hperform⟩
  · rw [hperform, val_sendParts] at hframe
    exact length_of_mem_frames (call.sent localAddress) hframe
  · rw [hperform] at hframe
    cases hframe

/-- A call that is not refused is in bounds exactly if its text is one short part. -/
theorem memorySafe_perform (haccepted : call.Accepted localAddress) :
    MemorySafe (call.perform localAddress) ↔
      (call.sent localAddress).text.length < multipartChunkSize := by
  rcases call.perform_cases localAddress with ⟨-, hperform⟩ | ⟨hrefused, -⟩
  · rw [hperform]
    exact memorySafe_sendParts _ _ _ _
  · exact absurd haccepted hrefused

/-- **The senders and their buffers.** A multipart sender stays inside its buffers exactly if the
text is shorter than a part, or refused. -/
theorem sender_staysInside_iff :
    call.StaysInside localAddress ↔
      (call.sent localAddress).text.length < multipartChunkSize ∨
        ¬ call.Accepted localAddress := by
  by_cases haccepted : call.Accepted localAddress
  · rw [or_iff_left (not_not_intro haccepted), ← call.memorySafe_perform localAddress haccepted]
    exact ⟨fun hinside => hinside.inBounds,
      fun hsafe => ⟨hsafe, fun part frame => call.packetSize_perform localAddress⟩⟩
  · refine iff_of_true ⟨?_, fun part frame => call.packetSize_perform localAddress⟩
      (.inr haccepted)
    rcases call.perform_cases localAddress with ⟨hfits, -⟩ | ⟨-, hperform⟩
    · exact absurd hfits haccepted
    · rw [hperform]
      exact Traced.every_pure _ _

/-- A message whose first part is full. -/
def fullPart : MultipartCall :=
  .sendMessage ⟨10, 0, 2⟩ (List.replicate 195 97) (ascii "text")

/-- A full part is written past the end of `data`. -/
theorem fullPart_leaves_data :
    fullPart.Accepted ⟨10, 0, 1⟩ ∧ ¬ fullPart.StaysInside ⟨10, 0, 1⟩ := by
  have hlength : (fullPart.sent ⟨10, 0, 1⟩).text.length = multipartChunkSize := by
    simp only [fullPart, sent, List.length_append, List.length_cons, List.length_replicate]
    rfl
  refine ⟨trivial, fun hinside => ?_⟩
  have hshort := (fullPart.memorySafe_perform ⟨10, 0, 1⟩ trivial).mp hinside.inBounds
  exact absurd hlength (Nat.ne_of_lt hshort)

end MultipartCall

end RadioDoge.V3
