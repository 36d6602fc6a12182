/-
# Frames that a node gives to its host as they are

A packet that the host of another node has formed, and everything to the broadcast
address that is no multipart packet, goes to the host with one `Serial.write`. Both host
programs then look for the end of the packet with its second byte, which the sending node
has written: the number of bytes behind the first two. The web interface writes 6 there
for every text, and `SendMessage` writes 0. `readableByHosts_iff` says which packets of
the firmware can be read.
-/

import RadioDoge.Serdog.SerialPoll
import RadioDoge.Sharp.SerialPort
import RadioDoge.V3.HostLayout
import RadioDoge.V3.Paths

namespace RadioDoge.V3

/-! ## What the firmware sends -/

/-- The address that the web interface makes of its text. A dot that is not there is at
-1, which is the end of the text where `substring` takes it for an end. -/
def parseAddress (address : Bytes) : NodeAddress :=
  let byte (number : Int) : UInt8 := UInt8.ofNat (number % 256).toNat
  let dot : UInt8 := 46
  let behind (pos : Option Nat) : Nat := (pos.map (· + 1)).getD 0
  let firstDot := indexOf address dot 0
  let secondDot := indexOf address dot (behind firstDot)
  ⟨byte (toInt (substring address 0 (firstDot.getD address.length))),
    byte (toInt (substring address (behind firstDot) (secondDot.getD address.length))),
    byte (toInt (substringFrom address (behind secondDot)))⟩

/-- The packet of a handler of the web interface: the header with 6 for its length, and at
most 200 bytes of the text. -/
def handlerPacket (kind : UInt8) (localAddress destination : NodeAddress) (text : Bytes) : Bytes :=
  kind :: 6 :: localAddress.bytes ++ destination.bytes ++ text.take 200

/-- The address of a request, or what stands for it. -/
def addressArg (address : Option Bytes) : NodeAddress :=
  parseAddress (address.getD (ascii "10.1.2"))

/-- `handleTransaction`: what it transmits. -/
def handleTransaction (localAddress : NodeAddress) (data : Bytes) (address : Option Bytes) : Bytes :=
  handlerPacket SerialCommand.hostFormedPacket.code localAddress (addressArg address) data

/-- `handleMessage`: what it transmits. -/
def handleMessage (localAddress : NodeAddress) (text : Bytes) (address : Option Bytes) : Bytes :=
  handlerPacket MessageType.message.code localAddress (addressArg address) text

/-- `handleBroadcast`: what it transmits. -/
def handleBroadcast (localAddress : NodeAddress) (message : Bytes) : Bytes :=
  handlerPacket MessageType.message.code localAddress NodeAddress.broadcast message

/-- The buffers of a node that has been set up. -/
structure Transmitter extends SendBuffers where
  /-- "Payload size for control packets is fixed at 6". -/
  sized : controlPacket[1]? = some 6

/-- `InitControlMessages` writes the size. -/
theorem sized_initControlMessages (localAddress : NodeAddress)
    (controlPacket : Vector UInt8 controlSize) :
    (initControlMessages localAddress controlPacket)[1]? = some 6 := by
  rw [initControlMessages, getElem?_memcpy _ _ _ _ (by decide)]
  rfl

/-- A call that sends a packet formed for a host, or one to the broadcast address. -/
inductive RawCall
  | handleTransaction (data : Bytes) (address : Option Bytes)
  | handleBroadcast (message : Bytes)
  | handleMessage (text : Bytes) (address : Option Bytes)
      (broadcast : addressArg address = NodeAddress.broadcast)
  | sendPing
  | sendAck
  | sendMessage (message type : Bytes)
  | relay (packet : HostPacket)

/-- The packets of a call. A packet of the own host is relayed, whatever the state of the
node. -/
inductive RawCall.Sends (t : Transmitter) : RawCall → Bytes → Prop
  | handleTransaction (data : Bytes) (address : Option Bytes) :
      Sends t (.handleTransaction data address) (V3.handleTransaction t.localAddress data address)
  | handleBroadcast (message : Bytes) :
      Sends t (.handleBroadcast message) (V3.handleBroadcast t.localAddress message)
  | handleMessage (text : Bytes) (address : Option Bytes)
      (broadcast : addressArg address = NodeAddress.broadcast) :
      Sends t (.handleMessage text address broadcast)
        (V3.handleMessage t.localAddress text address)
  | sendPing : Sends t .sendPing (V3.sendPing t.controlPacket NodeAddress.broadcast).2
  | sendAck : Sends t .sendAck (V3.sendAck t.controlPacket NodeAddress.broadcast).2
  | sendMessage (message type : Bytes) :
      Sends t (.sendMessage message type)
        (V3.sendMessage t.localAddress t.serialBuf NodeAddress.broadcast message type).2
  | relay (packet : HostPacket) (node : Heltec.Node) {frame : Bytes} :
      packet.frame.length ≤ 255 → frame ∈ Heltec.transmissions (hostSerialRead packet.command node).2 →
      Sends t (.relay packet) frame

/-! ## What a host can read -/

/-- Both host programs take the bytes as exactly one packet. -/
structure OnePacket (written : Bytes) : Prop where
  complete : FrameStream.IsFrame Serdog.complete written
  packet : ∃ kind payload, Sharp.readPacket written = some (kind, payload) ∧
    payload.length + serialHeaderSize = written.length

/-- The second byte is the number of bytes behind the first two, and whatever a node that
receives the packet writes to its host is read there as one packet. -/
structure ReadableByHosts (frame : Bytes) : Prop where
  length : ∃ size : UInt8, frame[1]? = some size ∧ size.toNat + serialHeaderSize = frame.length
  written : ∀ (world : World) (now : UInt32) (node : Node) (bytes : Bytes),
    Effect.host bytes ∈ (node.receive world now frame).val.2 → OnePacket bytes

/-- The calls whose packets can be read: those without a text, but for `SendMessage`. -/
def RawCall.Readable : RawCall → Prop
  | .handleTransaction data _ => data = []
  | .handleBroadcast message => message = []
  | .handleMessage text _ _ => text = []
  | .sendPing | .sendAck | .relay _ => True
  | .sendMessage _ _ => False

/-- A well-formed packet is one for both programs. -/
theorem onePacket_of_wellFormed {frame : Bytes} (h : Serdog.WellFormed frame) : OnePacket frame := by
  refine ⟨Serdog.isFrame_of_wellFormed h, ?_⟩
  obtain ⟨kind, size, payload, rfl, -, hsize⟩ := h
  refine ⟨kind, payload, ?_, rfl⟩
  simp only [Sharp.readPacket, hsize, Nat.le_refl, if_true, List.take_length]

/-- `Serial.write(rxPacket, rxSize)` writes the packet as it came in. -/
theorem toHost_onRxDone (rx : RxBuffer) {frame : Bytes} (hsize : frame.length < bufferSize) :
    (rx.onRxDone frame).toHost = .host frame := by
  have hslice := RxBuffer.slice_onRxDone rx frame 0 frame.length (Nat.zero_add _).le hsize
  rw [List.drop_zero, List.take_length] at hslice
  exact congrArg Effect.host hslice

/-- A packet that is no multipart packet is written as it is, or not at all. -/
theorem host_of_single (world : World) (now : UInt32) (node : Node) {frame : Bytes}
    (hsize : frame.length < bufferSize)
    (hkind : (node.receiver.rx.onRxDone frame).byte 0 ≠ SerialCommand.multipartPacket.code)
    {bytes : Bytes} (hwritten : Effect.host bytes ∈ (node.receive world now frame).val.2) :
    bytes = frame := by
  rcases node.effects_of_not_multipart world now hkind with
    hnone | hhost | ⟨data, hconfirmed⟩ | habort
  · rw [hnone] at hwritten
    cases hwritten
  · rw [hhost, toHost_onRxDone _ hsize] at hwritten
    exact Effect.host.inj (List.mem_singleton.mp hwritten)
  · rw [hconfirmed] at hwritten
    cases List.mem_singleton.mp hwritten
  · rw [habort] at hwritten
    cases List.mem_singleton.mp hwritten

/-! ## Which packets can be read -/

/-- A packet that is no multipart packet can be read if its second byte is right. -/
theorem readableByHosts_of_wellFormed {kind : UInt8} {rest : Bytes}
    (hkind : kind ≠ SerialCommand.multipartPacket.code) (hwell : Serdog.WellFormed (kind :: rest))
    (hsize : (kind :: rest).length < bufferSize) : ReadableByHosts (kind :: rest) := by
  obtain ⟨first, size, payload, heq, -, hlength⟩ := id hwell
  obtain ⟨rfl, rfl⟩ := List.cons.inj heq
  refine ⟨⟨size, rfl, ?_⟩, fun world now node bytes hwritten => ?_⟩
  · rw [hlength]
    rfl
  · have hbyte : (node.receiver.rx.onRxDone (kind :: size :: payload)).byte 0 = kind :=
      RxBuffer.byte_onRxDone _ (Nat.succ_pos _) hsize
    rw [host_of_single world now node hsize (by rwa [hbyte]) hwritten]
    exact onePacket_of_wellFormed hwell

/-- The packet of a handler can be read exactly if there is no text. -/
theorem readableByHosts_handlerPacket_iff {kind : UInt8}
    (hkind : kind ≠ SerialCommand.multipartPacket.code) (hcmd : Serdog.isCmd kind ≠ 0)
    (localAddress destination : NodeAddress) (text : Bytes) :
    ReadableByHosts (handlerPacket kind localAddress destination text) ↔ text = [] := by
  have hlength : (handlerPacket kind localAddress destination text).length =
      8 + min 200 text.length := by
    rw [handlerPacket, List.length_append, List.length_take]
    rfl
  constructor
  · intro h
    obtain ⟨size, hsecond, hsize⟩ := h.length
    obtain rfl : 6 = size := Option.some.inj hsecond
    have hsix : (6 : UInt8).toNat = 6 := rfl
    rw [hlength, hsix, serialHeaderSize] at hsize
    exact List.length_eq_zero_iff.mp (by omega)
  · rintro rfl
    have hsize : (handlerPacket kind localAddress destination []).length < bufferSize := by
      rw [hlength]
      decide
    exact readableByHosts_of_wellFormed hkind ⟨kind, 6, _, rfl, hcmd, rfl⟩ hsize

/-- A ping or an acknowledgement can be read. -/
theorem readableByHosts_sendControl (t : Transmitter) {kind : MessageType}
    (hkind : kind.code ≠ SerialCommand.multipartPacket.code) (hcmd : Serdog.isCmd kind.code ≠ 0)
    (destination : NodeAddress) :
    ReadableByHosts (sendControl kind t.controlPacket destination).2 := by
  obtain ⟨rest, hrest, hlength⟩ : ∃ rest, slice t.controlPacket 1 4 = 6 :: rest ∧ rest.length = 3 := by
    have hfour : (slice t.controlPacket 1 4).length = 4 := length_slice _ (by decide)
    have hfirst : (slice t.controlPacket 1 4)[0]? = some 6 := by
      rw [getElem?_slice, if_pos (by decide)]
      exact t.sized
    match hslice : slice t.controlPacket 1 4 with
    | [] =>
        rw [hslice] at hfirst
        cases hfirst
    | first :: rest =>
        rw [hslice] at hfirst hfour
        obtain rfl : first = 6 := Option.some.inj hfirst
        exact ⟨rest, rfl, Nat.succ.inj hfour⟩
  have hsize : (kind.code :: (6 :: rest) ++ destination.bytes).length = 8 := by
    simp only [List.length_append, List.length_cons, hlength, NodeAddress.length_bytes]
  have hpayload : (rest ++ destination.bytes).length = 6 := by
    rw [List.length_append, hlength, NodeAddress.length_bytes]
  rw [frame_sendControl, hrest]
  exact readableByHosts_of_wellFormed hkind ⟨kind.code, 6, _, rfl, hcmd, hpayload.symm⟩
    (hsize.trans_lt (by decide))

/-- A message never can: it says that nothing follows. -/
theorem not_readableByHosts_sendMessage (t : Transmitter) (destination : NodeAddress)
    (message type : Bytes) :
    ¬ ReadableByHosts (sendMessage t.localAddress t.serialBuf destination message type).2 := by
  intro h
  obtain ⟨size, hsecond, hsize⟩ := h.length
  rw [frame_sendMessage] at hsecond hsize
  obtain rfl : 0 = size := Option.some.inj hsecond
  simp only [List.length_append, List.length_cons, NodeAddress.length_bytes, serialHeaderSize] at hsize
  have hzero : (0 : UInt8).toNat = 0 := rfl
  omega

/-- A packet of a host can be read by the other one. -/
theorem readableByHosts_hostPacket {packet : HostPacket} (hlength : packet.frame.length ≤ 255) :
    ReadableByHosts packet.frame := by
  have hpayload : (packet.src.bytes ++ packet.dest.bytes ++ packet.payload).length ≤ 255 := by
    have hframed := length_framed .hostFormedPacket
      (packet.src.bytes ++ packet.dest.bytes ++ packet.payload)
    rw [← HostPacket.frame] at hframed
    simp only [serialHeaderSize] at hframed
    omega
  refine readableByHosts_of_wellFormed (by decide)
    ⟨_, _, _, rfl, by decide, toNat_ofNat_of_le hpayload⟩ ?_
  exact Nat.lt_succ_of_le hlength

/-- **What can be read.** Every packet to be given to a host is one for both host
programs exactly if it has no text and is not sent by `SendMessage`. -/
theorem readableByHosts_iff {t : Transmitter} {call : RawCall} {frame : Bytes}
    (h : call.Sends t frame) : ReadableByHosts frame ↔ call.Readable := by
  cases h with
  | handleTransaction data address =>
      exact readableByHosts_handlerPacket_iff (by decide) (by decide) _ _ data
  | handleBroadcast message =>
      exact readableByHosts_handlerPacket_iff (by decide) (by decide) _ _ message
  | handleMessage text address broadcast =>
      exact readableByHosts_handlerPacket_iff (by decide) (by decide) _ _ text
  | sendPing => exact iff_of_true (readableByHosts_sendControl t (by decide) (by decide) _) trivial
  | sendAck => exact iff_of_true (readableByHosts_sendControl t (by decide) (by decide) _) trivial
  | sendMessage message type =>
      exact iff_of_false (not_readableByHosts_sendMessage t _ message type) id
  | relay packet node hlength hframe =>
      have hsent : Heltec.transmissions (hostSerialRead packet.command node).2 = [packet.frame] :=
        transmissions_hostSerialRead (.inl rfl) hlength node
      rw [hsent] at hframe
      obtain rfl := List.mem_singleton.mp hframe
      exact iff_of_true (readableByHosts_hostPacket hlength) trivial

/-- The buffers of the node at 10.0.2. -/
def plainTransmitter : Transmitter where
  localAddress := ⟨10, 0, 2⟩
  controlPacket := initControlMessages ⟨10, 0, 2⟩ (Vector.replicate controlSize 0)
  serialBuf := Vector.replicate bufferSize 0
  sized := sized_initControlMessages _ _

/-- The equivalence for a ping. -/
theorem readableByHosts_iff_ping :
    ReadableByHosts (sendPing plainTransmitter.controlPacket NodeAddress.broadcast).2 ↔
      RawCall.sendPing.Readable :=
  readableByHosts_iff (RawCall.Sends.sendPing : RawCall.sendPing.Sends plainTransmitter _)

/-- The node that a transaction of the web interface is for gives it to its host. -/
theorem receive_handleTransaction (world : World) (now : UInt32) {node : Node}
    (localAddress : NodeAddress) (data : Bytes) {address : Option Bytes}
    (hforMe : node.localAddress = addressArg address) :
    (node.receive world now (handleTransaction localAddress data address)).val.2 =
      [.host (handleTransaction localAddress data address)] := by
  let frame := handleTransaction localAddress data address
  let heard := node.withReceiver ⟨node.receiver.rx.onRxDone frame, node.receiver.table⟩
  have hlength : (data.take 200).length + 8 < bufferSize := by
    rw [List.length_take]
    simp only [bufferSize]
    omega
  have hsize : frame.length < bufferSize := by
    have hframe : frame.length = 8 + (data.take 200).length := List.length_append
    omega
  have hkind : heard.receiver.rx.byte 0 = SerialCommand.hostFormedPacket.code :=
    RxBuffer.byte_onRxDone _ (Nat.succ_pos _) hsize
  have hdest : heard.receiver.rx.destination = addressArg address :=
    destination_onRxDone _ (by decide) (show (6 :: localAddress.bytes).length = 4 from rfl) hlength
  have hhere : heard.localAddress = heard.receiver.rx.destination := Eq.trans hforMe hdest.symm
  change (heard.parseReceivedMessage world now).val.2 = _
  rw [Node.parse_forMe world now hhere, Node.receivedForMe, hkind,
    ← toHost_onRxDone node.receiver.rx hsize]
  rfl

/-- The node at 10.0.1 gives a transaction of two letters to its host, and the hub leaves
the two letters in the port. -/
theorem two_letters_left_behind :
    ¬ ∀ (t : Transmitter) (call : RawCall) (frame : Bytes), call.Sends t frame →
      ReadableByHosts frame := by
  intro hall
  have hread := hall plainTransmitter _ _ (.handleTransaction (ascii "ab") (some (ascii "10.0.1")))
  have hforMe : plainNode.localAddress = addressArg (some (ascii "10.0.1")) := by decide
  have hwritten := receive_handleTransaction silentWorld 0 plainTransmitter.localAddress
    (ascii "ab") hforMe
  obtain ⟨kind, payload, hpacket, hlength⟩ := (hread.written silentWorld 0 plainNode _
    (by rw [hwritten]; exact List.mem_singleton_self _)).packet
  obtain ⟨rfl, rfl⟩ := Prod.mk.inj (Option.some.inj hpacket)
  exact absurd hlength (by decide)

end RadioDoge.V3
