/-
# Sender and receiver on addresses

A receiver compares three bytes of its receive buffer with its own address, and
with the broadcast address. They are the bytes at offset 5 of every packet that
is not a multipart packet. `SendPing`, `SendACK` and `SendMessage` write the
destination there; `SendTransaction` and `SendBroadcast` leave the text that
happens to stand there. `addressing_agrees` says for which texts that makes no
difference.
-/

import RadioDoge.V3.Senders

namespace RadioDoge.V3

/-- `CheckIfPacketForMe`. -/
def checkIfPacketForMe (localAddress : NodeAddress) (rx : RxBuffer) : Bool :=
  if rx.byte 0 = SerialCommand.multipartPacket.code then
    localAddress.region == rx.byte 1 && localAddress.community == rx.byte 2 &&
      localAddress.node == rx.byte 3
  else
    localAddress.region == rx.byte 5 && localAddress.community == rx.byte 6 &&
      localAddress.node == rx.byte 7

/-- `CheckIfPacketIsGlobalBroadcast`. -/
def checkIfPacketIsGlobalBroadcast (rx : RxBuffer) : Bool :=
  if rx.byte 0 = SerialCommand.multipartPacket.code then
    255 == rx.byte 1 && 255 == rx.byte 2 && 255 == rx.byte 3
  else
    255 == rx.byte 5 && 255 == rx.byte 6 && 255 == rx.byte 7

/-- The three bytes that both checks look at. -/
def RxBuffer.destination (rx : RxBuffer) : NodeAddress :=
  if rx.byte 0 = SerialCommand.multipartPacket.code then ⟨rx.byte 1, rx.byte 2, rx.byte 3⟩
  else ⟨rx.byte 5, rx.byte 6, rx.byte 7⟩

theorem checkIfPacketForMe_iff (localAddress : NodeAddress) (rx : RxBuffer) :
    checkIfPacketForMe localAddress rx = true ↔ localAddress = rx.destination := by
  cases localAddress with
  | mk region community node =>
      rw [checkIfPacketForMe, RxBuffer.destination]
      by_cases hmultipart : rx.byte 0 = SerialCommand.multipartPacket.code
      · rw [if_pos hmultipart, if_pos hmultipart]
        simp [and_assoc]
      · rw [if_neg hmultipart, if_neg hmultipart]
        simp [and_assoc]

/-- The broadcast check is the address check of a node at the broadcast address. -/
theorem checkIfPacketIsGlobalBroadcast_iff (rx : RxBuffer) :
    checkIfPacketIsGlobalBroadcast rx = true ↔ NodeAddress.broadcast = rx.destination :=
  checkIfPacketForMe_iff NodeAddress.broadcast rx

/-! ## Single frames -/

/-- A call of a single-frame sender. -/
inductive FrameCall
  | ping (destination : NodeAddress)
  | ack (destination : NodeAddress)
  | message (destination : NodeAddress) (text type : Bytes)
  | transaction (destination : NodeAddress) (tx type : Bytes)
  | broadcast (text type priority : Bytes)
  deriving DecidableEq, Repr

/-- The buffers and the address of a sending node. -/
structure SendBuffers where
  localAddress : NodeAddress
  controlPacket : Vector UInt8 controlSize
  serialBuf : Vector UInt8 bufferSize

namespace FrameCall

/-- The frame a call passes to `Radio.Send`. -/
def frame (buffers : SendBuffers) : FrameCall → Bytes
  | .ping destination => (sendPing buffers.controlPacket destination).2
  | .ack destination => (sendAck buffers.controlPacket destination).2
  | .message destination text type =>
      (sendMessage buffers.localAddress buffers.serialBuf destination text type).2
  | .transaction destination tx type =>
      (sendTransaction buffers.serialBuf destination tx type).2
  | .broadcast text type priority => (sendBroadcast buffers.serialBuf text type priority).2

/-- A node accepts the frame exactly when its address is the destination; a frame
without one is a global broadcast to every node. The receive buffer may hold
anything before the frame comes in. -/
def Agrees (buffers : SendBuffers) (call : FrameCall) : Prop :=
  ∀ rx : RxBuffer,
    match call with
    | .ping destination | .ack destination | .message destination _ _
    | .transaction destination _ _ =>
        ∀ receiver : NodeAddress,
          checkIfPacketForMe receiver (rx.onRxDone (call.frame buffers)) = true ↔
            receiver = destination
    | .broadcast _ _ _ =>
        checkIfPacketIsGlobalBroadcast (rx.onRxDone (call.frame buffers)) = true

/-- The bytes of a text that a receiver takes for the destination, once the text is
copied to the start of the buffer, the terminating NUL included. -/
def addressBytes (text : Bytes) : Bytes := ((strncpy (text.take 255) ++ [0]).drop 5).take 3

/-- Nothing is asked of pings, acknowledgements and messages. The text of a
transaction or a broadcast has to spell the address. -/
def TextSpellsAddress : FrameCall → Prop
  | .ping _ | .ack _ | .message _ _ _ => True
  | .transaction destination tx type =>
      addressBytes (type ++ colon :: tx) = destination.bytes
  | .broadcast text type priority =>
      addressBytes (type ++ colon :: (priority ++ colon :: text)) = NodeAddress.broadcast.bytes

end FrameCall

/-! ## What the receiver reads -/

/-- The NUL that `OnRxDone` writes behind the frame. -/
theorem RxBuffer.byte_onRxDone_length (rx : RxBuffer) {payload : Bytes}
    (hsize : payload.length < bufferSize) : (rx.onRxDone payload).byte payload.length = 0 := by
  simp only [RxBuffer.byte, RxBuffer.onRxDone]
  rw [Vector.getElem?_setIfInBounds, if_pos rfl, if_pos hsize, Option.getD_some]

/-- Beyond the NUL the buffer keeps what it held. -/
theorem RxBuffer.byte_onRxDone_stale (rx : RxBuffer) {payload : Bytes} {i : Nat}
    (hi : payload.length < i) (hin : i < bufferSize) :
    (rx.onRxDone payload).byte i = rx.byte i := by
  have hne : payload.length ≠ i := by omega
  have hout : ¬ (0 ≤ i ∧ i < 0 + payload.length) := by omega
  simp only [RxBuffer.byte, RxBuffer.onRxDone]
  rw [Vector.getElem?_setIfInBounds, if_neg hne, getElem?_memcpy payload rx.rxPacket 0 i hin,
    if_neg hout]

/-- A frame that spells out a destination behind five bytes is addressed to it. -/
theorem destination_onRxDone (rx : RxBuffer) {head rest : Bytes} {target : NodeAddress}
    {kind : UInt8} (hkind : kind ≠ SerialCommand.multipartPacket.code) (hhead : head.length = 4)
    (hsize : rest.length + 8 < bufferSize) :
    (rx.onRxDone (kind :: head ++ target.bytes ++ rest)).destination = target := by
  obtain ⟨a, b, c, d, rfl⟩ : ∃ a b c d, head = [a, b, c, d] := by
    match head, hhead with
    | [a, b, c, d], _ => exact ⟨a, b, c, d, rfl⟩
  have hlen : (kind :: [a, b, c, d] ++ target.bytes ++ rest).length = rest.length + 8 := by
    simp [NodeAddress.bytes]
  have hbyte : ∀ i (hi : i < 8), (rx.onRxDone (kind :: [a, b, c, d] ++ target.bytes ++ rest)).byte i =
      (kind :: [a, b, c, d] ++ target.bytes)[i] := by
    intro i hi
    rw [RxBuffer.byte_onRxDone rx (by omega) (by omega)]
    exact List.getElem_append_left (by simpa [NodeAddress.bytes] using hi)
  rw [RxBuffer.destination, hbyte 0 (by decide), if_neg (by exact hkind), hbyte 5 (by decide),
    hbyte 6 (by decide), hbyte 7 (by decide)]
  rfl

section FromStart

variable {kind : MessageType} {serialBuf : Vector UInt8 bufferSize} {text : Bytes}

/-- The text as it stands in the buffer, with its terminating NUL. -/
def storedText (text : Bytes) : Bytes := strncpy (text.take 255) ++ [0]

theorem length_storedText (text : Bytes) : (storedText text).length = min 255 text.length + 1 := by
  simp [storedText]

theorem length_sendFromStart (hne : text ≠ []) :
    (sendFromStart kind serialBuf text).2.length = min 255 text.length := by
  have hpos : 0 < text.length := List.length_pos_iff.mpr hne
  rw [frame_sendFromStart kind serialBuf hne, List.length_cons, List.length_tail, length_strncpy,
    List.length_take]
  omega

/-- Up to the NUL behind it, the receiver reads the stored text, but for the first
byte. -/
theorem byte_sendFromStart (hne : text ≠ []) (rx : RxBuffer) {i : Nat} (hpos : 1 ≤ i)
    (hi : i ≤ min 255 text.length) :
    (rx.onRxDone (sendFromStart kind serialBuf text).2).byte i = (storedText text)[i]?.getD 0 := by
  have hlen : (sendFromStart kind serialBuf text).2.length = min 255 text.length :=
    length_sendFromStart hne
  have hcopied : (strncpy (text.take 255)).length = min 255 text.length := by
    rw [length_strncpy, List.length_take]
  have hsize : (sendFromStart kind serialBuf text).2.length < bufferSize := by
    simp only [hlen, bufferSize]
    omega
  by_cases hlast : i = min 255 text.length
  · have hnul : (storedText text)[i]? = some 0 := by
      rw [storedText, List.getElem?_append_right (by omega), hcopied, hlast, Nat.sub_self]
      rfl
    rw [hnul, hlast, ← hlen, RxBuffer.byte_onRxDone_length rx hsize]
    rfl
  · have hlt : i < (sendFromStart kind serialBuf text).2.length := by omega
    have hread : (sendFromStart kind serialBuf text).2[i]? = (storedText text)[i]? := by
      obtain ⟨j, rfl⟩ : ∃ j, i = j + 1 := ⟨i - 1, by omega⟩
      rw [frame_sendFromStart kind serialBuf hne, List.getElem?_cons_succ, List.getElem?_tail,
        storedText, List.getElem?_append_left (by omega)]
    rw [RxBuffer.byte_onRxDone rx hlt hsize, ← hread, List.getElem?_eq_getElem hlt,
      Option.getD_some]

theorem byte_zero_sendFromStart (hne : text ≠ []) (rx : RxBuffer) :
    (rx.onRxDone (sendFromStart kind serialBuf text).2).byte 0 = kind.code := by
  have hlen : (sendFromStart kind serialBuf text).2.length = min 255 text.length :=
    length_sendFromStart hne
  have hpos : 0 < text.length := List.length_pos_iff.mpr hne
  have hfirst : (sendFromStart kind serialBuf text).2[0]? = some kind.code := by
    rw [frame_sendFromStart kind serialBuf hne]
    rfl
  have hlt : 0 < (sendFromStart kind serialBuf text).2.length := by omega
  rw [RxBuffer.byte_onRxDone rx hlt (by simp only [hlen, bufferSize]; omega)]
  rw [List.getElem?_eq_getElem hlt] at hfirst
  exact Option.some.inj hfirst

/-- The destination a receiver reads in a frame of `sendFromStart`. -/
theorem destination_heard (hkind : kind.code ≠ SerialCommand.multipartPacket.code)
    (hne : text ≠ []) (rx : RxBuffer) :
    (rx.onRxDone (sendFromStart kind serialBuf text).2).destination =
      ⟨(rx.onRxDone (sendFromStart kind serialBuf text).2).byte 5,
        (rx.onRxDone (sendFromStart kind serialBuf text).2).byte 6,
        (rx.onRxDone (sendFromStart kind serialBuf text).2).byte 7⟩ := by
  rw [RxBuffer.destination, byte_zero_sendFromStart hne rx, if_neg hkind]

/-- In a long enough frame the destination is spelled by the text alone. -/
theorem destination_of_long (hkind : kind.code ≠ SerialCommand.multipartPacket.code)
    (hlong : 7 ≤ text.length) (rx : RxBuffer) (target : NodeAddress) :
    (rx.onRxDone (sendFromStart kind serialBuf text).2).destination = target ↔
      FrameCall.addressBytes text = target.bytes := by
  have hne : text ≠ [] := List.length_pos_iff.mp (by omega)
  have hspelled : FrameCall.addressBytes text =
      [(storedText text)[5]?.getD 0, (storedText text)[6]?.getD 0,
        (storedText text)[7]?.getD 0] := by
    have hlen := length_storedText text
    change ((storedText text).drop 5).take 3 = _
    apply List.ext_getElem?
    intro i
    rw [List.getElem?_take, List.getElem?_drop]
    match i with
    | 0 | 1 | 2 =>
        rw [if_pos (by decide), List.getElem?_eq_getElem (by omega)]
        simp
    | i + 3 => simp
  rw [destination_heard hkind hne rx, byte_sendFromStart hne rx (by decide) (by omega),
    byte_sendFromStart hne rx (by decide) (by omega),
    byte_sendFromStart hne rx (by decide) (by omega), hspelled]
  cases target
  simp [NodeAddress.bytes]

/-- A frame of `sendFromStart` reaches `target`, whatever the buffer held, exactly
when its text spells the address. -/
theorem destination_sendFromStart (hkind : kind.code ≠ SerialCommand.multipartPacket.code)
    (hne : text ≠ []) (target : NodeAddress) :
    (∀ rx : RxBuffer, (rx.onRxDone (sendFromStart kind serialBuf text).2).destination = target) ↔
      FrameCall.addressBytes text = target.bytes := by
  by_cases hlong : 7 ≤ text.length
  · simp only [destination_of_long hkind hlong]
    exact ⟨fun hall => hall RxBuffer.boot, fun heq _ => heq⟩
  · constructor
    · intro hall
      -- the last address byte is whatever the buffer held before
      let stale : RxBuffer := ⟨Vector.replicate bufferSize (target.node + 1), 0⟩
      have hstale := hall stale
      rw [destination_heard hkind hne] at hstale
      have hnode : (stale.onRxDone (sendFromStart kind serialBuf text).2).byte 7 = target.node :=
        congrArg NodeAddress.node hstale
      have hread : stale.byte 7 = target.node + 1 := by
        rw [RxBuffer.byte, Vector.getElem?_replicate, if_pos (by decide), Option.getD_some]
      rw [RxBuffer.byte_onRxDone_stale stale (by rw [length_sendFromStart hne]; omega) (by decide),
        hread] at hnode
      simp at hnode
    · intro hspelled
      change ((storedText text).drop 5).take 3 = _ at hspelled
      have hlen := congrArg List.length hspelled
      rw [List.length_take, List.length_drop, length_storedText, NodeAddress.length_bytes] at hlen
      omega

end FromStart

/-! ## Agreement -/

/-- Only the node at `target` accepts a frame exactly when the frame always reads
as addressed to it. -/
theorem accepts_only_iff (frame : Bytes) (target : NodeAddress) :
    (∀ rx : RxBuffer, ∀ receiver : NodeAddress,
      checkIfPacketForMe receiver (rx.onRxDone frame) = true ↔ receiver = target) ↔
    ∀ rx : RxBuffer, (rx.onRxDone frame).destination = target := by
  refine forall_congr' fun rx => ⟨fun hall => ?_, fun hdest receiver => ?_⟩
  · exact (hall (rx.onRxDone frame).destination).mp ((checkIfPacketForMe_iff _ _).mpr rfl)
  · rw [checkIfPacketForMe_iff, hdest]

/-- **Sender and receivers agree on the destination** of every ping,
acknowledgement and message, and of a transaction or a broadcast exactly when its
text spells the address. -/
theorem addressing_agrees (buffers : SendBuffers) (call : FrameCall) :
    call.Agrees buffers ↔ call.TextSpellsAddress := by
  have hcontrol : ∀ (kind : MessageType) (destination : NodeAddress),
      kind.code ≠ SerialCommand.multipartPacket.code → ∀ rx : RxBuffer,
        (rx.onRxDone (sendControl kind buffers.controlPacket destination).2).destination =
          destination := by
    intro kind destination hkind rx
    have hframe := frame_sendControl kind buffers.controlPacket destination
    rw [← List.append_nil (_ :: _ ++ _)] at hframe
    rw [hframe]
    exact destination_onRxDone rx hkind (length_slice _ (by decide)) (by decide)
  cases call with
  | ping destination =>
      refine (accepts_only_iff _ destination).trans ?_
      exact iff_of_true (hcontrol .ping destination (by decide)) trivial
  | ack destination =>
      refine (accepts_only_iff _ destination).trans ?_
      exact iff_of_true (hcontrol .ack destination (by decide)) trivial
  | message destination text type =>
      refine (accepts_only_iff _ destination).trans (iff_of_true (fun rx => ?_) trivial)
      have hrest : (strncpy ((type ++ colon :: text).take 247)).length + 8 < bufferSize := by
        rw [length_strncpy, List.length_take]
        simp only [bufferSize]
        omega
      rw [FrameCall.frame, frame_sendMessage]
      have hhead : (0 :: buffers.localAddress.bytes).length = 4 := rfl
      exact destination_onRxDone rx (by decide) hhead hrest
  | transaction destination tx type =>
      refine (accepts_only_iff _ destination).trans ?_
      exact destination_sendFromStart (by decide) (by simp) destination
  | broadcast text type priority =>
      have hglobal : FrameCall.Agrees buffers (.broadcast text type priority) ↔
          ∀ rx : RxBuffer, (rx.onRxDone (FrameCall.frame buffers
            (.broadcast text type priority))).destination = NodeAddress.broadcast :=
        forall_congr' fun rx => (checkIfPacketIsGlobalBroadcast_iff _).trans eq_comm
      exact hglobal.trans (destination_sendFromStart (by decide) (by simp) _)

/-- A transaction to another node, as its hexadecimal text reads. -/
theorem transaction_disagrees :
    ¬ (FrameCall.transaction ⟨10, 0, 1⟩ (ascii "01000000017a") (ascii "signed")).Agrees
      ⟨⟨10, 0, 3⟩, Vector.replicate controlSize 0, Vector.replicate bufferSize 0⟩ := by
  intro hagrees
  have hspelled := (destination_sendFromStart (by decide) (by decide) ⟨10, 0, 1⟩).mp
    ((accepts_only_iff _ _).mp hagrees)
  exact absurd hspelled (by decide)

end RadioDoge.V3
