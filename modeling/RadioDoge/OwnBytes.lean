/-
# What a received frame is judged by

Both firmwares copy a frame to the front of a buffer that is used for every frame, and put a
NUL behind it; the bytes after that are those of earlier frames. Whether a frame is for the
node is read at fixed offsets, whatever the length of the frame. `judged_by_own_bytes_iff`
says for which frames earlier ones make no difference.
-/

import RadioDoge.V3.Node
import RadioDoge.Heltec.Firmware

namespace RadioDoge

open V3 (RxBuffer bufferSize)

/-! ## Bytes of the buffer -/

namespace V3.RxBuffer

/-- Three bytes of the buffer, read as an address. -/
def addressAt (rx : RxBuffer) (offset : Nat) : NodeAddress :=
  ⟨rx.byte offset, rx.byte (offset + 1), rx.byte (offset + 2)⟩

/-- The buffer after these frames. -/
def heard (history : List Bytes) : RxBuffer := history.foldl onRxDone boot

/-- A byte of the frame, or the NUL behind it, or what was there before. -/
theorem byte_onRxDone_eq (rx : RxBuffer) {frame : Bytes} {i : Nat} (hi : i < bufferSize) :
    (rx.onRxDone frame).byte i = ((frame ++ [0])[i]?).getD (rx.byte i) := by
  rw [byte, rxPacket_onRxDone, getElem?_memcpy _ _ 0 i hi, Nat.sub_zero, Nat.zero_add]
  by_cases hin : i < (frame ++ [0]).length
  · rw [if_pos ⟨Nat.zero_le i, hin⟩, List.getElem?_eq_getElem hin]
    rfl
  · rw [if_neg fun h => hin h.2, List.getElem?_eq_none (Nat.le_of_not_lt hin)]
    rfl

end V3.RxBuffer

/-- The bytes that the frame and the NUL behind it have at this offset are those of the
address. -/
def MayRead (frame : Bytes) (offset : Nat) (address : NodeAddress) : Prop :=
  ∀ i byte own, address.bytes[i]? = some byte → (frame ++ [0])[offset + i]? = some own → own = byte

section Read

variable {frame : Bytes} {offset : Nat} {address : NodeAddress}

theorem bytes_addressAt (rx : RxBuffer) (offset : Nat) {i : Nat} (hi : i < 3) :
    (rx.addressAt offset).bytes[i]? = some (rx.byte (offset + i)) := by
  interval_cases i
  · rfl
  · rfl
  · rfl

/-- An address that the frame reaches is read from the frame. -/
theorem addressAt_eq_of_le (hsize : frame.length < bufferSize)
    (hreach : offset + 2 ≤ frame.length) (first second : RxBuffer) :
    (first.onRxDone frame).addressAt offset = (second.onRxDone frame).addressAt offset := by
  have hbyte : ∀ i ≤ offset + 2,
      (first.onRxDone frame).byte i = (second.onRxDone frame).byte i := by
    intro i hi
    have hin : i < (frame ++ [0]).length := by
      rw [List.length_append, List.length_singleton]
      omega
    have hbuffer : i < bufferSize := by omega
    rw [first.byte_onRxDone_eq hbuffer, second.byte_onRxDone_eq hbuffer,
      List.getElem?_eq_getElem hin]
    rfl
  rw [RxBuffer.addressAt, RxBuffer.addressAt, hbyte offset (Nat.le_add_right _ _),
    hbyte (offset + 1) (Nat.le_succ _), hbyte (offset + 2) le_rfl]

/-- What is read agrees with the frame as far as it goes. -/
theorem mayRead_addressAt (hoffset : offset + 2 < bufferSize) (rx : RxBuffer) :
    MayRead frame offset ((rx.onRxDone frame).addressAt offset) := by
  intro i byte own hbyte hown
  have hi : i < 3 := (List.getElem?_eq_some_iff.mp hbyte).1
  rw [bytes_addressAt _ _ hi, rx.byte_onRxDone_eq (by omega), hown] at hbyte
  exact Option.some.inj hbyte

/-- What the frame agrees with is read if it was there before. -/
theorem addressAt_of_mayRead (hoffset : offset + 2 < bufferSize)
    (hmay : MayRead frame offset address) {rx : RxBuffer}
    (hrx : rx.addressAt offset = address) : (rx.onRxDone frame).addressAt offset = address := by
  apply NodeAddress.bytes_injective
  apply List.ext_getElem?
  intro i
  by_cases hi : i < 3
  · have hold := bytes_addressAt rx offset hi
    rw [hrx] at hold
    rw [bytes_addressAt _ _ hi, rx.byte_onRxDone_eq (by omega), hold]
    cases hown : (frame ++ [0])[offset + i]? with
    | none => rfl
    | some own => exact congrArg some (hmay i _ own hold hown)
  · rw [List.getElem?_eq_none (Nat.le_of_not_lt hi), List.getElem?_eq_none (Nat.le_of_not_lt hi)]

/-- A frame that ends before the last byte leaves that byte as it was. -/
theorem node_addressAt_of_lt (hoffset : offset + 2 < bufferSize)
    (hshort : frame.length < offset + 2) (rx : RxBuffer) :
    ((rx.onRxDone frame).addressAt offset).node = (rx.addressAt offset).node := by
  have hout : (frame ++ [0])[offset + 2]? = none := by
    rw [List.getElem?_eq_none]
    rw [List.length_append, List.length_singleton]
    omega
  change (rx.onRxDone frame).byte (offset + 2) = rx.byte (offset + 2)
  rw [rx.byte_onRxDone_eq hoffset, hout]
  rfl

/-- A frame that leaves an address at this offset. -/
def planted (offset : Nat) (address : NodeAddress) : Bytes :=
  List.replicate offset 0 ++ address.bytes

theorem length_planted (offset : Nat) (address : NodeAddress) :
    (planted offset address).length = offset + 3 := by
  rw [planted, List.length_append, List.length_replicate, NodeAddress.length_bytes]

theorem addressAt_planted (hoffset : offset + 3 < bufferSize) (address : NodeAddress) :
    (RxBuffer.heard [planted offset address]).addressAt offset = address := by
  apply NodeAddress.bytes_injective
  apply List.ext_getElem?
  intro i
  by_cases hi : i < 3
  · have hbyte : address.bytes[i]? = some address.bytes[i] := List.getElem?_eq_getElem hi
    change ((RxBuffer.boot.onRxDone (planted offset address)).addressAt offset).bytes[i]? = _
    rw [bytes_addressAt _ _ hi, RxBuffer.boot.byte_onRxDone_eq (by omega), planted,
      List.append_assoc, List.getElem?_append_right (by rw [List.length_replicate]; omega),
      List.length_replicate, Nat.add_sub_cancel_left, List.getElem?_append_left hi, hbyte]
    rfl
  · rw [List.getElem?_eq_none (Nat.le_of_not_lt hi), List.getElem?_eq_none (Nat.le_of_not_lt hi)]

end Read

/-! ## Judgements -/

/-- What is made of a frame: who it is for, the case of the switch, and the sender, where it is
extracted. -/
inductive Judgement
  | forMe (kind : PacketKind) (sender : Option NodeAddress)
  | globalBroadcast (kind : PacketKind) (sender : NodeAddress)
  | ignored
  deriving DecidableEq, Repr

/-- The judgement over the addresses that were read. -/
def Judgement.of (localAddress : NodeAddress) (kind : PacketKind) (extracted : Bool)
    (dest sender : NodeAddress) : Judgement :=
  if localAddress = dest then .forMe kind (if extracted then some sender else none)
  else if NodeAddress.broadcast = dest then .globalBroadcast kind sender
  else .ignored

namespace Judgement

variable {localAddress : NodeAddress} {kind : PacketKind} {extracted : Bool}
  {dest other sender otherSender : NodeAddress}

/-- The destination of a frame that is taken shows in its judgement. -/
theorem dest_unique (haccept : localAddress = dest ∨ NodeAddress.broadcast = dest)
    (h : of localAddress kind extracted dest sender =
      of localAddress kind extracted other otherSender) : dest = other := by
  simp only [of] at h
  by_cases hforMe : localAddress = dest
  · rw [if_pos hforMe] at h
    by_cases hother : localAddress = other
    · exact hforMe.symm.trans hother
    · rw [if_neg hother] at h
      by_cases hglobal : NodeAddress.broadcast = other
      · rw [if_pos hglobal] at h
        cases h
      · rw [if_neg hglobal] at h
        cases h
  · have hglobal := haccept.resolve_left hforMe
    rw [if_neg hforMe, if_pos hglobal] at h
    split at h
    · cases h
    · split at h
      · exact hglobal.symm.trans ‹_›
      · cases h

/-- So does its sender, if it is extracted. -/
theorem sender_unique (haccept : localAddress = dest ∨ NodeAddress.broadcast = dest)
    (h : of localAddress kind true dest sender = of localAddress kind true dest otherSender) :
    sender = otherSender := by
  simp only [of] at h
  by_cases hforMe : localAddress = dest
  · rw [if_pos hforMe, if_pos hforMe] at h
    cases h
    rfl
  · have hglobal := haccept.resolve_left hforMe
    rw [if_neg hforMe, if_neg hforMe, if_pos hglobal, if_pos hglobal] at h
    cases h
    rfl

end Judgement

/-- Frames that a radio can deliver: of 1 to 255 bytes. -/
def Frames (history : List Bytes) : Prop :=
  ∀ frame ∈ history, 1 ≤ frame.length ∧ frame.length ≤ 255

theorem frames_planted {offset : Nat} (hoffset : offset ≤ 5) (address : NodeAddress) :
    Frames [planted offset address] := by
  intro frame hmem
  rw [List.mem_singleton.mp hmem, length_planted]
  omega

/-- The judgement on the frame is the same after every two histories. -/
def OwnJudgement (judge : RxBuffer → Judgement) (frame : Bytes) : Prop :=
  ∀ first second, Frames first → Frames second →
    judge ((RxBuffer.heard first).onRxDone frame) = judge ((RxBuffer.heard second).onRxDone frame)

/-- **Own bytes.** Earlier frames make no difference exactly when the frame reaches both
addresses, or what it has of the destination is neither the local address nor that of a
broadcast. -/
theorem ownJudgement_iff_of_layout {judge : RxBuffer → Judgement} {frame : Bytes}
    (hsize : frame.length ≤ 255) {localAddress : NodeAddress} {kind : PacketKind}
    {extracted : Bool} {destOffset senderOffset : Nat}
    (hjudge : ∀ rx : RxBuffer, judge (rx.onRxDone frame) =
      Judgement.of localAddress kind extracted ((rx.onRxDone frame).addressAt destOffset)
        ((rx.onRxDone frame).addressAt senderOffset))
    (hdest : destOffset ≤ 5) (hsender : senderOffset ≤ 4)
    (hextracted : senderOffset ≤ destOffset ∨ extracted = true) :
    OwnJudgement judge frame ↔
      (MayRead frame destOffset localAddress ∨ MayRead frame destOffset NodeAddress.broadcast →
        max destOffset senderOffset + 2 ≤ frame.length) := by
  have hfits : frame.length < bufferSize := Nat.lt_succ_of_le hsize
  have hdestFits : destOffset + 3 < bufferSize := Nat.lt_of_le_of_lt (Nat.add_le_add_right hdest 3)
    (by decide)
  have hsenderFits : senderOffset + 3 < bufferSize :=
    Nat.lt_of_le_of_lt (Nat.add_le_add_right hsender 3) (by decide)
  apply Iff.intro
  · intro h hmay
    by_contra hshort
    have htaken : ∃ address, (localAddress = address ∨ NodeAddress.broadcast = address) ∧
        MayRead frame destOffset address := by
      rcases hmay with hlocal | hglobal
      · exact ⟨localAddress, .inl rfl, hlocal⟩
      · exact ⟨NodeAddress.broadcast, .inr rfl, hglobal⟩
    rcases htaken with ⟨address, haccept, hmay⟩
    have hread := addressAt_of_mayRead (Nat.lt_of_succ_lt hdestFits) hmay
      (addressAt_planted hdestFits address)
    by_cases hreach : destOffset + 2 ≤ frame.length
    · -- the destination is the frame's own, and a byte of the sender is not
      have hsame := fun rx : RxBuffer =>
        (addressAt_eq_of_le hfits hreach rx (RxBuffer.heard [planted destOffset address])).trans
          hread
      have hlast : frame.length < senderOffset + 2 := by omega
      have hon : extracted = true := by
        apply hextracted.resolve_left
        omega
      subst hon
      have hequal := h _ _ (frames_planted (hsender.trans (by decide)) ⟨0, 0, 0⟩)
        (frames_planted (hsender.trans (by decide)) ⟨0, 0, 1⟩)
      rw [hjudge, hjudge, hsame, hsame] at hequal
      have hnode := congrArg NodeAddress.node (Judgement.sender_unique haccept hequal)
      rw [node_addressAt_of_lt (Nat.lt_of_succ_lt hsenderFits) hlast,
        node_addressAt_of_lt (Nat.lt_of_succ_lt hsenderFits) hlast,
        addressAt_planted hsenderFits, addressAt_planted hsenderFits] at hnode
      exact absurd hnode (by decide)
    · -- the last byte of the destination is not the frame's own
      have hequal := h _ _ (frames_planted hdest address)
        (frames_planted hdest ⟨0, 0, address.node + 1⟩)
      rw [hjudge, hjudge, hread] at hequal
      have hnode := congrArg NodeAddress.node (Judgement.dest_unique haccept hequal)
      rw [node_addressAt_of_lt (Nat.lt_of_succ_lt hdestFits) (Nat.lt_of_not_le hreach),
        addressAt_planted hdestFits] at hnode
      have hnat := congrArg UInt8.toNat hnode
      rw [UInt8.toNat_add] at hnat
      have hone : (1 : UInt8).toNat = 1 := rfl
      have hlt := address.node.toNat_lt
      omega
  · intro h first second _ _
    rw [hjudge, hjudge]
    by_cases hmay : MayRead frame destOffset localAddress ∨
        MayRead frame destOffset NodeAddress.broadcast
    · have hreach := h hmay
      rw [addressAt_eq_of_le hfits (by omega) (RxBuffer.heard first) (RxBuffer.heard second),
        addressAt_eq_of_le hfits (by omega) (RxBuffer.heard first) (RxBuffer.heard second)]
    · have hignored : ∀ (rx : RxBuffer) (sender : NodeAddress), Judgement.of localAddress kind
          extracted ((rx.onRxDone frame).addressAt destOffset) sender = .ignored := by
        intro rx sender
        have hread : MayRead frame destOffset ((rx.onRxDone frame).addressAt destOffset) :=
          mayRead_addressAt (Nat.lt_of_succ_lt hdestFits) rx
        have hlocal : localAddress ≠ (rx.onRxDone frame).addressAt destOffset := by
          intro heq
          exact hmay (.inl (heq ▸ hread))
        have hglobal : NodeAddress.broadcast ≠ (rx.onRxDone frame).addressAt destOffset := by
          intro heq
          exact hmay (.inr (heq ▸ hread))
        rw [Judgement.of, if_neg hlocal, if_neg hglobal]
      rw [hignored, hignored]

/-! ## The v3 firmware -/

/-- `SetSenderAddress` of the v3 firmware. -/
def V3.RxBuffer.senderAddress (rx : RxBuffer) : NodeAddress :=
  if rx.byte 0 = SerialCommand.multipartPacket.code then ⟨rx.byte 4, rx.byte 5, rx.byte 6⟩
  else ⟨rx.byte 2, rx.byte 3, rx.byte 4⟩

/-- The judgement of `ParseReceivedMessage` in the v3 firmware. A packet of an unknown type is
dropped before its sender is extracted. -/
def V3.judge (localAddress : NodeAddress) (rx : RxBuffer) : Judgement :=
  if V3.checkIfPacketForMe localAddress rx then
    .forMe (packetKind (rx.byte 0))
      (if packetKind (rx.byte 0) = .other then none else some rx.senderAddress)
  else if V3.checkIfPacketIsGlobalBroadcast rx then
    .globalBroadcast (packetKind (rx.byte 0)) rx.senderAddress
  else .ignored

/-- `ParseReceivedMessage` goes by the judgement. -/
theorem V3.parse_of_judge (world : V3.World) (now : UInt32) (node : V3.Node) :
    node.parseReceivedMessage world now =
      match V3.judge node.localAddress node.receiver.rx with
      | .forMe _ _ => node.receivedForMe world now
      | .globalBroadcast _ _ => node.receivedGlobalBroadcast world now
      | .ignored => pure (node, []) := by
  rw [V3.Node.parseReceivedMessage, V3.judge]
  by_cases hforMe : V3.checkIfPacketForMe node.localAddress node.receiver.rx = true
  · rw [if_pos hforMe, if_pos hforMe]
  · rw [if_neg hforMe, if_neg hforMe]
    by_cases hglobal : V3.checkIfPacketIsGlobalBroadcast node.receiver.rx = true
    · rw [if_pos hglobal, if_pos hglobal]
    · rw [if_neg hglobal, if_neg hglobal]

theorem V3.judge_eq (localAddress : NodeAddress) (rx : RxBuffer) :
    V3.judge localAddress rx = Judgement.of localAddress (packetKind (rx.byte 0))
      (packetKind (rx.byte 0) ≠ .other) rx.destination rx.senderAddress := by
  rw [V3.judge, Judgement.of]
  apply if_congr (V3.checkIfPacketForMe_iff localAddress rx)
  · by_cases hother : packetKind (rx.byte 0) = .other
    · simp only [hother, if_true, ne_eq, not_true_eq_false, decide_false, Bool.false_eq_true,
        if_false]
    · simp only [hother, if_false, ne_eq, not_false_eq_true, decide_true, if_true]
  · exact if_congr (V3.checkIfPacketIsGlobalBroadcast_iff rx) rfl rfl

/-- The first byte of a frame is its own. -/
theorem byte_zero_onRxDone (rx : RxBuffer) {frame : Bytes} (hpos : 1 ≤ frame.length)
    (hsize : frame.length ≤ 255) : (rx.onRxDone frame).byte 0 = frame[0] :=
  rx.byte_onRxDone hpos (Nat.lt_succ_of_le hsize)

/-- **The v3 firmware.** A frame is judged by its own bytes exactly when what it has of the
destination rules it out, or it has seven bytes, or six if it is a multipart packet. -/
theorem V3.ownJudgement_iff (localAddress : NodeAddress) {frame : Bytes}
    (hpos : 1 ≤ frame.length) (hsize : frame.length ≤ 255) :
    OwnJudgement (V3.judge localAddress) frame ↔
      if frame[0] = SerialCommand.multipartPacket.code then
        MayRead frame 1 localAddress ∨ MayRead frame 1 NodeAddress.broadcast → 6 ≤ frame.length
      else
        MayRead frame 5 localAddress ∨ MayRead frame 5 NodeAddress.broadcast →
          7 ≤ frame.length := by
  have hfirst := fun rx : RxBuffer => byte_zero_onRxDone rx hpos hsize
  by_cases hmultipart : frame[0] = SerialCommand.multipartPacket.code
  · rw [if_pos hmultipart]
    have hjudge : ∀ rx : RxBuffer, V3.judge localAddress (rx.onRxDone frame) =
        Judgement.of localAddress .multipartPacket true ((rx.onRxDone frame).addressAt 1)
          ((rx.onRxDone frame).addressAt 4) := by
      intro rx
      have hbyte := (hfirst rx).trans hmultipart
      rw [V3.judge_eq, RxBuffer.destination, RxBuffer.senderAddress, if_pos hbyte, if_pos hbyte,
        hbyte]
      rfl
    exact ownJudgement_iff_of_layout hsize hjudge (by decide) (by decide) (.inr rfl)
  · rw [if_neg hmultipart]
    have hjudge : ∀ rx : RxBuffer, V3.judge localAddress (rx.onRxDone frame) =
        Judgement.of localAddress (packetKind frame[0]) (packetKind frame[0] ≠ .other)
          ((rx.onRxDone frame).addressAt 5) ((rx.onRxDone frame).addressAt 2) := by
      intro rx
      have hbyte : (rx.onRxDone frame).byte 0 ≠ SerialCommand.multipartPacket.code := by
        rw [hfirst]
        exact hmultipart
      rw [V3.judge_eq, RxBuffer.destination, RxBuffer.senderAddress, if_neg hbyte, if_neg hbyte,
        hfirst]
      rfl
    exact ownJudgement_iff_of_layout hsize hjudge (by decide) (by decide) (.inl (by decide))

/-! ## The plain firmware -/

/-- The judgement of `ParseReceivedMessage` in the plain firmware. The sender is extracted in the
cases that its switch has. -/
def Heltec.judge (localAddress : NodeAddress) (rx : RxBuffer) : Judgement :=
  let sender : NodeAddress := ⟨rx.byte 2, rx.byte 3, rx.byte 4⟩
  if Heltec.Node.checkIfPacketFor localAddress rx then
    .forMe (packetKind (rx.byte 0))
      (match packetKind (rx.byte 0) with
      | .ack | .ping | .message | .hostFormedPacket | .multipartPacket => some sender
      | .transaction | .broadcast | .other => none)
  else if Heltec.Node.checkIfPacketFor NodeAddress.broadcast rx then
    .globalBroadcast (packetKind (rx.byte 0)) sender
  else .ignored

/-- `ParseReceivedMessage` goes by the judgement. -/
theorem Heltec.parse_of_judge (node : Heltec.Node) :
    node.parseReceivedMessage =
      match Heltec.judge node.localAddress node.rx with
      | .forMe .ping _ =>
          ({ node with
              dest := ⟨node.rx.byte 2, node.rx.byte 3, node.rx.byte 4⟩
              needToSendAck := true }, [])
      | .forMe .hostFormedPacket _ | .forMe .multipartPacket _ => (node, [node.passOn])
      | .forMe .message _ =>
          (node, if Heltec.newAborts (node.rx.rxSize - 6) then [.abort] else [])
      | .forMe _ _ => (node, [])
      | .globalBroadcast _ _ => (node, [node.passOn])
      | .ignored => (node, []) := by
  rw [Heltec.Node.parseReceivedMessage, Heltec.judge]
  by_cases hforMe : Heltec.Node.checkIfPacketFor node.localAddress node.rx = true
  · simp only [if_pos hforMe]
    cases packetKind (node.rx.byte 0) with
    | ack => rfl
    | ping => rfl
    | message => rfl
    | transaction => rfl
    | broadcast => rfl
    | hostFormedPacket => rfl
    | multipartPacket => rfl
    | other => rfl
  · simp only [if_neg hforMe]
    by_cases hglobal : Heltec.Node.checkIfPacketFor NodeAddress.broadcast node.rx = true
    · simp only [if_pos hglobal]
    · simp only [if_neg hglobal]

theorem Heltec.judge_eq (localAddress : NodeAddress) (rx : RxBuffer) :
    Heltec.judge localAddress rx = Judgement.of localAddress (packetKind (rx.byte 0))
      (packetKind (rx.byte 0) ∉ [PacketKind.transaction, .broadcast, .other])
      (rx.addressAt 5) (rx.addressAt 2) := by
  rw [Heltec.judge, Judgement.of]
  apply if_congr (Heltec.Node.checkIfPacketFor_iff localAddress rx)
  · cases packetKind (rx.byte 0) with
    | ack => rfl
    | ping => rfl
    | message => rfl
    | transaction => rfl
    | broadcast => rfl
    | hostFormedPacket => rfl
    | multipartPacket => rfl
    | other => rfl
  · exact if_congr (Heltec.Node.checkIfPacketFor_iff NodeAddress.broadcast rx) rfl rfl

/-- **The plain firmware.** Seven bytes are needed whatever the type. -/
theorem Heltec.ownJudgement_iff (localAddress : NodeAddress) {frame : Bytes}
    (hpos : 1 ≤ frame.length) (hsize : frame.length ≤ 255) :
    OwnJudgement (Heltec.judge localAddress) frame ↔
      (MayRead frame 5 localAddress ∨ MayRead frame 5 NodeAddress.broadcast →
        7 ≤ frame.length) := by
  have hjudge : ∀ rx : RxBuffer, Heltec.judge localAddress (rx.onRxDone frame) =
      Judgement.of localAddress (packetKind frame[0])
        (packetKind frame[0] ∉ [PacketKind.transaction, .broadcast, .other])
        ((rx.onRxDone frame).addressAt 5) ((rx.onRxDone frame).addressAt 2) := by
    intro rx
    rw [Heltec.judge_eq, byte_zero_onRxDone rx hpos hsize]
  exact ownJudgement_iff_of_layout hsize hjudge (by decide) (by decide) (.inl (by decide))

/-! ## Both firmwares -/

/-- **Judged by its own bytes.** For a frame of 1 to 255 bytes, in each of the firmwares. -/
theorem judged_by_own_bytes_iff (localAddress : NodeAddress) {frame : Bytes}
    (hpos : 1 ≤ frame.length) (hsize : frame.length ≤ 255) :
    (OwnJudgement (V3.judge localAddress) frame ↔
      if frame[0] = SerialCommand.multipartPacket.code then
        MayRead frame 1 localAddress ∨ MayRead frame 1 NodeAddress.broadcast → 6 ≤ frame.length
      else
        MayRead frame 5 localAddress ∨ MayRead frame 5 NodeAddress.broadcast →
          7 ≤ frame.length) ∧
    (OwnJudgement (Heltec.judge localAddress) frame ↔
      (MayRead frame 5 localAddress ∨ MayRead frame 5 NodeAddress.broadcast →
        7 ≤ frame.length)) :=
  ⟨V3.ownJudgement_iff localAddress hpos hsize, Heltec.ownJudgement_iff localAddress hpos hsize⟩

/-- The first six bytes of a message from 10.0.2 to a node in the region 10. -/
def cutMessage : Bytes := [MessageType.message.code, 0, 10, 0, 2, 10]

/-- The equivalence for the cut message at 10.0.3. -/
theorem judged_by_own_bytes_iff_cutMessage :
    (OwnJudgement (V3.judge ⟨10, 0, 3⟩) cutMessage ↔
      if cutMessage[0] = SerialCommand.multipartPacket.code then
        MayRead cutMessage 1 ⟨10, 0, 3⟩ ∨ MayRead cutMessage 1 NodeAddress.broadcast →
          6 ≤ cutMessage.length
      else
        MayRead cutMessage 5 ⟨10, 0, 3⟩ ∨ MayRead cutMessage 5 NodeAddress.broadcast →
          7 ≤ cutMessage.length) ∧
    (OwnJudgement (Heltec.judge ⟨10, 0, 3⟩) cutMessage ↔
      (MayRead cutMessage 5 ⟨10, 0, 3⟩ ∨ MayRead cutMessage 5 NodeAddress.broadcast →
        7 ≤ cutMessage.length)) :=
  judged_by_own_bytes_iff ⟨10, 0, 3⟩ (by decide) (by decide)

/-- Behind a ping from 10.0.4 to 10.0.3, a node at 10.0.3 takes the cut message for its own; after
a reset it ignores it. -/
theorem cutMessage_judged_by_earlier_frame :
    (¬ OwnJudgement (V3.judge ⟨10, 0, 3⟩) cutMessage) ∧
      ¬ OwnJudgement (Heltec.judge ⟨10, 0, 3⟩) cutMessage := by
  have hbefore : Frames [[MessageType.ping.code, 6, 10, 0, 4, 10, 0, 3]] := by
    intro frame hmem
    rw [List.mem_singleton.mp hmem]
    decide
  have hnothing : Frames [] := fun frame hmem => by cases hmem
  apply And.intro
  · intro h
    exact absurd (h _ _ hbefore hnothing) (by decide +kernel)
  · intro h
    exact absurd (h _ _ hbefore hnothing) (by decide +kernel)

end RadioDoge
