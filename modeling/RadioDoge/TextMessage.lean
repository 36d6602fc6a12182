/-
# A text message, from the hub to another node

The hub writes both addresses and the text behind one byte for the kind, and the radio
node transmits them in these places. The node that receives them looks for its address
one byte further on, where a packet of a host has it, and takes the text from where the
hub has put it.
-/

import RadioDoge.Heltec.Firmware
import RadioDoge.Sharp.SetupMode

namespace RadioDoge

open V3 (RxBuffer bufferSize slice)

namespace Heltec

/-- `ExtractStringMessageFromBuffer`, where it returns a text of its own: a negative size aborts,
and a text without a terminating NUL is read past its end. -/
def extractStringMessageFromBuffer (buf : Vector UInt8 bufferSize) (size : Int) : Option Bytes :=
  let messageSize : Int := size - 6
  if newAborts messageSize then none
  else
    let extractedMessage := slice buf 7 messageSize.toNat
    if (0 : UInt8) ∈ extractedMessage then some (ofCString extractedMessage) else none

/-- The text on the air. -/
def messageFrame (mode : Sharp.SetupMode) (messageBytes : Bytes) : Bytes :=
  MessageType.message.code ::
    (mode.localAddress.bytes ++ mode.destinationAddress.bytes ++ messageBytes)

end Heltec

open Heltec Sharp

/-- The radio node of the sender transmits one frame. Any node takes it exactly if it has
the destination address, and that node finds the text in it. -/
def MessageReaches (mode : SetupMode) (messageToSend : Bytes) : Prop :=
  ∀ (entered : Entered) (sender receiver : Heltec.Node), entered.messageToSend = messageToSend →
    ∃ frame,
      transmissions (sender.hostSerialRead (sendSetupCommand .messageRequest entered mode).2).2 =
        [frame] ∧
      (Node.checkIfPacketFor receiver.localAddress (receiver.rx.onRxDone frame) = true ↔
        receiver.localAddress = mode.destinationAddress) ∧
      (receiver.localAddress = mode.destinationAddress →
        extractStringMessageFromBuffer (receiver.rx.onRxDone frame).rxPacket
          (receiver.rx.onRxDone frame).rxSize = some messageToSend)

section Frames

variable (mode : SetupMode) {messageBytes : Bytes}

theorem length_messageFrame (messageBytes : Bytes) :
    (messageFrame mode messageBytes).length = messageBytes.length + 7 := by
  simp only [messageFrame, List.length_cons, List.length_append, NodeAddress.length_bytes]
  omega

/-- Writing the first byte of a buffer. -/
theorem slice_setIfInBounds_zero {n : Nat} (v : Vector UInt8 n) (first : UInt8) (count : Nat)
    (hn : 0 < n) : slice (v.setIfInBounds 0 first) 0 (count + 1) = first :: slice v 1 count := by
  apply List.ext_getElem?
  intro i
  rw [V3.getElem?_slice, Nat.zero_add]
  cases i with
  | zero =>
      rw [if_pos (Nat.succ_pos count), Vector.getElem?_setIfInBounds_self_of_lt hn,
        List.getElem?_cons_zero]
  | succ i =>
      rw [List.getElem?_cons_succ, V3.getElem?_slice, Vector.getElem?_setIfInBounds_ne (by omega),
        Nat.add_comm 1 i]
      simp only [Nat.add_lt_add_iff_right]

/-- The radio node transmits the text behind its own kind. -/
theorem transmissions_message (hlen : messageBytes.length ≤ 248) (sender : Heltec.Node) :
    transmissions (sender.hostSerialRead
      (framed .messageRequest (mode.messagePayload messageBytes))).2 =
        [messageFrame mode messageBytes] := by
  have hpayload := mode.length_messagePayload messageBytes
  have hsize : (UInt8.ofNat (mode.messagePayload messageBytes).length).toNat =
      (mode.messagePayload messageBytes).length := toNat_ofNat_of_le (by omega)
  have htail : slice (memcpy sender.serialBuf 0 (mode.messagePayload messageBytes)) 1
      (messageBytes.length + 6) =
        mode.localAddress.bytes ++ mode.destinationAddress.bytes ++ messageBytes := by
    have hlength : (mode.localAddress.bytes ++ mode.destinationAddress.bytes ++
        messageBytes).length = messageBytes.length + 6 := by
      simp only [List.length_append, NodeAddress.length_bytes]
      omega
    have hfits : 1 + (messageBytes.length + 6) ≤ bufferSize := by
      rw [bufferSize]
      omega
    rw [SetupMode.messagePayload, memcpy, Nat.zero_add, V3.slice_memcpy _ 1 _ _ hlength.ge hfits,
      ← hlength, List.take_length]
  have hsent := slice_setIfInBounds_zero
    (memcpy sender.serialBuf 0 (mode.messagePayload messageBytes)) MessageType.message.code
    (messageBytes.length + 6) (by decide)
  have hreturns : newAborts (((mode.messagePayload messageBytes).length : Int) - 6) = false :=
    decide_eq_false (by omega)
  rw [Heltec.Node.effects_hostSerialRead]
  simp only [Heltec.Node.readCommand, Heltec.Node.readSerialPayload, framed, hsize,
    List.take_length, Nat.lt_irrefl, if_false, Heltec.Node.performCommand,
    SerialCommand.ofCode?_code, Heltec.Node.sendSerialBuf,
    Heltec.Node.setDestinationFromSerialBuffer, hreturns, Bool.false_eq_true]
  rw [hpayload, hsent, htail]
  rfl

/-- A byte of the frame, or the NUL behind it. -/
theorem byte_onRxDone_append (rx : RxBuffer) {frame : Bytes} (hlen : frame.length < bufferSize)
    {i : Nat} (hi : i ≤ frame.length) : (rx.onRxDone frame).byte i = (frame ++ [0])[i]?.getD 0 := by
  have hin : 0 ≤ i ∧ i < 0 + (frame ++ [0]).length := by
    rw [List.length_append, List.length_singleton]
    omega
  rw [RxBuffer.byte, RxBuffer.rxPacket_onRxDone, getElem?_memcpy _ _ _ _ (by omega), if_pos hin,
    Nat.sub_zero]

/-- The receiving node finds its address one byte too far: two bytes of it, and the
first byte of the text. -/
theorem checkIfPacketFor_messageFrame (hlen : messageBytes.length ≤ 248) (address : NodeAddress)
    (rx : RxBuffer) :
    Node.checkIfPacketFor address (rx.onRxDone (messageFrame mode messageBytes)) = true ↔
      address = ⟨mode.destinationAddress.community, mode.destinationAddress.node,
        messageBytes.headD 0⟩ := by
  have hlength := length_messageFrame mode messageBytes
  have hbyte : ∀ i ≤ 7, (rx.onRxDone (messageFrame mode messageBytes)).byte i =
      (messageFrame mode messageBytes ++ [0])[i]?.getD 0 := fun i hi =>
    byte_onRxDone_append rx (by simp only [bufferSize]; omega) (by omega)
  have hfirst : (messageFrame mode messageBytes ++ [0])[7]?.getD 0 = messageBytes.headD 0 := by
    cases messageBytes with
    | nil => rfl
    | cons byte rest => rfl
  rw [Node.checkIfPacketFor_iff, hbyte 5 (by decide), hbyte 6 (by decide), hbyte 7 (by decide),
    hfirst]
  rfl

/-- The text is found where the hub has put it. -/
theorem extract_messageFrame (hlen : messageBytes.length ≤ 248) (hfree : (0 : UInt8) ∉ messageBytes)
    (rx : RxBuffer) :
    extractStringMessageFromBuffer (rx.onRxDone (messageFrame mode messageBytes)).rxPacket
      (rx.onRxDone (messageFrame mode messageBytes)).rxSize = some messageBytes := by
  have hlength := length_messageFrame mode messageBytes
  have hsize : ((rx.onRxDone (messageFrame mode messageBytes)).rxSize - 6).toNat =
      (messageBytes ++ [0]).length := by
    rw [RxBuffer.onRxDone, List.length_append, List.length_singleton]
    simp only [hlength]
    omega
  have hheader := memcpy_append (MessageType.message.code ::
    (mode.localAddress.bytes ++ mode.destinationAddress.bytes)) (messageBytes ++ [0]) rx.rxPacket 0
  have hread : slice (rx.onRxDone (messageFrame mode messageBytes)).rxPacket 7
      (messageBytes ++ [0]).length = messageBytes ++ [0] := by
    have hframe : messageFrame mode messageBytes ++ [0] = (MessageType.message.code ::
        (mode.localAddress.bytes ++ mode.destinationAddress.bytes)) ++ (messageBytes ++ [0]) := by
      simp only [messageFrame, List.cons_append, List.append_assoc]
    rw [RxBuffer.rxPacket_onRxDone, hframe, ← hheader]
    have hfits : 7 + (messageBytes ++ [0]).length ≤ bufferSize := by
      rw [List.length_append, List.length_singleton, bufferSize]
      omega
    exact (V3.slice_memcpy _ 7 _ (messageBytes ++ [0]) le_rfl hfits).trans List.take_length
  have hreturns : newAborts ((rx.onRxDone (messageFrame mode messageBytes)).rxSize - 6) = false := by
    apply decide_eq_false
    rw [RxBuffer.onRxDone]
    simp only [hlength]
    omega
  have hmem : (0 : UInt8) ∈ messageBytes ++ [0] := List.mem_append_right _ List.mem_cons_self
  simp only [extractStringMessageFromBuffer, hreturns, hsize, hread, hmem, Bool.false_eq_true,
    if_false, if_true]
  exact congrArg some ((ofCString_append_iff messageBytes [0]).mpr ⟨hfree, rfl⟩)

end Frames

/-- **A text message reaches its node** exactly when the text is ASCII, and the three
bytes of the destination and the first byte of the text are all the same. -/
theorem messageReaches_iff (mode : SetupMode) (messageToSend : Bytes)
    (hlen : messageToSend.length ≤ 248) (hfree : (0 : UInt8) ∉ messageToSend) :
    MessageReaches mode messageToSend ↔
      (∀ char ∈ messageToSend, char < 128) ∧
        mode.destinationAddress.region = mode.destinationAddress.community ∧
        mode.destinationAddress.community = mode.destinationAddress.node ∧
        mode.destinationAddress.node = messageToSend.headD 0 := by
  have hlen' : (asciiGetBytes messageToSend).length ≤ 248 := by rwa [length_asciiGetBytes]
  have hsent : ∀ (entered : Entered) (sender : Heltec.Node),
      entered.messageToSend = messageToSend →
        transmissions (sender.hostSerialRead (sendSetupCommand .messageRequest entered mode).2).2 =
          [messageFrame mode (asciiGetBytes messageToSend)] := by
    rintro entered sender rfl
    rw [sendSetupCommand_message]
    exact transmissions_message mode hlen' sender
  have htext := extract_messageFrame mode hlen' (zero_not_mem_asciiGetBytes hfree)
  have hcheck := checkIfPacketFor_messageFrame mode hlen'
  constructor
  · intro hreaches
    obtain ⟨frame, hframe, haccepts, hextract⟩ := hreaches ⟨⟨0, 0, 0⟩, ⟨0, 0, 0⟩, messageToSend⟩
      (.boot 3) { Heltec.Node.boot 3 with localAddress := mode.destinationAddress } rfl
    obtain rfl : messageFrame mode (asciiGetBytes messageToSend) = frame :=
      List.singleton_inj.mp ((hsent _ _ rfl).symm.trans hframe)
    have hascii := Option.some.inj ((htext _).symm.trans (hextract rfl))
    have haddress := (hcheck _ _).mp (haccepts.mpr rfl)
    rw [hascii] at haddress
    exact ⟨asciiGetBytes_eq_self_iff.mp hascii, congrArg NodeAddress.region haddress,
      congrArg NodeAddress.community haddress, congrArg NodeAddress.node haddress⟩
  · rintro ⟨hascii, hregion, hcommunity, hnode⟩ entered sender receiver hentered
    have hsame := asciiGetBytes_of_ascii hascii
    refine ⟨_, hsent entered sender hentered, ?_, fun _ => (htext receiver.rx).trans (by rw [hsame])⟩
    have hdestination : (⟨mode.destinationAddress.community, mode.destinationAddress.node,
        messageToSend.headD 0⟩ : NodeAddress) = mode.destinationAddress := by
      apply NodeAddress.bytes_injective
      simp only [NodeAddress.bytes, hregion, hcommunity, hnode]
    rw [hcheck, hsame, hdestination]

/-- The letter `A` to the node 65.65.65. -/
theorem messageReaches_iff_letter :
    MessageReaches ⟨⟨10, 0, 1⟩, ⟨65, 65, 65⟩⟩ [65] ↔
      (∀ char ∈ ([65] : Bytes), char < 128) ∧ (65 : UInt8) = 65 ∧ (65 : UInt8) = 65 ∧
        (65 : UInt8) = ([65] : Bytes).headD 0 :=
  messageReaches_iff ⟨⟨10, 0, 1⟩, ⟨65, 65, 65⟩⟩ [65] (by decide) (by decide)

/-- The letters `hi` do not reach the node 10.0.2. -/
theorem hi_does_not_reach :
    ¬ ∀ (mode : SetupMode) (messageToSend : Bytes), messageToSend.length ≤ 248 →
      (0 : UInt8) ∉ messageToSend → MessageReaches mode messageToSend := by
  intro hall
  have hreaches := hall ⟨⟨10, 0, 1⟩, ⟨10, 0, 2⟩⟩ [104, 105] (by decide) (by decide)
  obtain ⟨frame, hframe, haccepts, -⟩ := hreaches ⟨⟨0, 0, 0⟩, ⟨0, 0, 0⟩, [104, 105]⟩ (.boot 3)
    { Heltec.Node.boot 3 with localAddress := ⟨10, 0, 2⟩ } rfl
  rw [sendSetupCommand_message] at hframe
  have hsent := transmissions_message ⟨⟨10, 0, 1⟩, ⟨10, 0, 2⟩⟩
    (by decide : (asciiGetBytes [104, 105]).length ≤ 248) (.boot 3)
  obtain rfl := List.singleton_inj.mp (hsent.symm.trans hframe)
  have haddress := (checkIfPacketFor_messageFrame ⟨⟨10, 0, 1⟩, ⟨10, 0, 2⟩⟩
    (by decide : (asciiGetBytes [104, 105]).length ≤ 248) _ _).mp (haccepts.mpr rfl)
  exact absurd haddress (by decide)

end RadioDoge
