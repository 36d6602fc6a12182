/-
# The firmware of a plain radio node

`heltec-firmware` puts a host on the air. `HostSerialRead` performs one command of
the host: a host-formed packet and a part of a multipart packet are transmitted as
they are. `ParseReceivedMessage` gives a received packet of either kind to the host,
again as it is, if the packet is for this node or for every node; it finds the
destination at offset 5.

Of the displays only this is kept: a text that is shown is copied to a new block first, of a size
that is not checked. A negative size aborts, and the node starts again.

`char` is unsigned on the target, so a received byte is compared with an address as it
stands. The receive buffer is filled as in the v3 firmware, and control packets are laid
out as there.
-/

import RadioDoge.HostPackets
import RadioDoge.V3.Senders
import RadioDoge.V3.Reassembly

namespace RadioDoge.Heltec

open V3 (RxBuffer bufferSize controlSize slice)

/-- What a node does to its surroundings, and how a call may end other than by returning. -/
inductive Effect
  | host (bytes : Bytes)
  | transmit (frame : Bytes)
  /-- `abort`, behind which the node starts again. -/
  | abort
  /-- A write outside of the block that was allocated. -/
  | undefined
  deriving DecidableEq, Repr

/-- Everything written to the host, call by call. -/
def hostWrites (effects : List Effect) : List Bytes :=
  effects.filterMap fun
    | .host bytes => some bytes
    | .transmit _ | .abort | .undefined => none

/-- The frames passed to `Radio.Send`. -/
def transmissions (effects : List Effect) : List Bytes :=
  effects.filterMap fun
    | .transmit frame => some frame
    | .host _ | .abort | .undefined => none

/-- `hostACK`. -/
def hostAck : Bytes := [SerialCommand.resultCode.code, 1, 6]

/-- `hostNACK`. -/
def hostNack : Bytes := [SerialCommand.resultCode.code, 1, 21]

/-- `STRING_DISPLAY`. -/
def stringDisplay : UInt8 := 0

/-- `new char[size]` aborts. -/
def newAborts (size : Int) : Bool := size < 0

/-- How a display fails for this payload. Only of a text is anything asked: two bytes, of which the
first says that it is one. Where it is missing, what was there `before` is read. -/
def displayFailure (before : Option UInt8) : Bytes → Option Effect
  | [] => if before = some stringDisplay then some .abort else none
  | [first] => if first = stringDisplay then some .undefined else none
  | _ :: _ :: _ => none

/-- The global state of the firmware. The board version is a constant of the build. -/
structure Node where
  boardVersion : UInt8
  localAddress : NodeAddress
  dest : NodeAddress
  controlPacket : Vector UInt8 controlSize
  serialBuf : Vector UInt8 bufferSize
  rx : RxBuffer
  needToSendAck : Bool

namespace Node

/-- The node after a reset. -/
def boot (boardVersion : UInt8) : Node where
  boardVersion := boardVersion
  localAddress := ⟨0, 0, 0⟩
  dest := ⟨0, 0, 0⟩
  controlPacket := Vector.replicate controlSize 0
  serialBuf := Vector.replicate bufferSize 0
  rx := RxBuffer.boot
  needToSendAck := false

/-- The address at `offset` of the serial buffer. -/
def addressAt (node : Node) (offset : Nat) : NodeAddress :=
  ⟨node.serialBuf[offset]?.getD 0, node.serialBuf[offset + 1]?.getD 0,
    node.serialBuf[offset + 2]?.getD 0⟩

/-- `SetDestinationFromSerialBuffer`. -/
def setDestinationFromSerialBuffer (offset : Nat) (node : Node) : Node :=
  { node with dest := node.addressAt offset }

/-- `SetLocalAddressFromSerialBuffer`. -/
def setLocalAddressFromSerialBuffer (offset : Nat) (node : Node) : Node :=
  { node with localAddress := node.addressAt offset }

/-- `Radio.Send(serialBuf, payloadSize)`. -/
def sendSerialBuf (node : Node) (payloadSize : UInt8) : Effect :=
  .transmit (slice node.serialBuf 0 payloadSize.toNat)

/-- `ProcessDisplayControl`: how it ends, if it does not return. The first byte of the buffer
selects the display, whatever the size of the payload. -/
def processDisplayControl (payloadSize : UInt8) (node : Node) : Option Effect :=
  if node.serialBuf[0]? = some stringDisplay then
    let stringLength : Int := payloadSize.toNat - 2
    if newAborts (stringLength + 1) then some .abort
    -- the NUL is written in front of the block
    else if stringLength < 0 then some .undefined
    else none
  else none

/-- The switch of `HostSerialRead`, once the payload is in the serial buffer. -/
def performCommand (commandVal payloadSize : UInt8) (node : Node) : Node × List Effect :=
  match SerialCommand.ofCode? commandVal with
  | some .addressGet => (node, [.host ([commandVal, 3] ++ node.localAddress.bytes)])
  | some .addressSet =>
      let node := node.setLocalAddressFromSerialBuffer 0
      ({ node with controlPacket := V3.initControlMessages node.localAddress node.controlPacket },
        [.host hostAck])
  | some .pingRequest =>
      let node := node.setDestinationFromSerialBuffer 0
      let sent := V3.sendPing node.controlPacket node.dest
      ({ node with controlPacket := sent.1 }, [.transmit sent.2, .host hostAck])
  | some .messageRequest =>
      let node := node.setDestinationFromSerialBuffer 4
      -- `ExtractStringMessageFromBuffer` copies the text for the display
      if newAborts (payloadSize.toNat - 6) then (node, [.abort])
      else
        let node := { node with
          serialBuf := node.serialBuf.setIfInBounds 0 MessageType.message.code }
        (node, [node.sendSerialBuf payloadSize])
  | some .hardwareInfo => (node, [.host [commandVal, 3, 104, node.boardVersion, 1]])
  | some .displayControl => (node, [(node.processDisplayControl payloadSize).getD (.host hostAck)])
  | some .hostFormedPacket | some .multipartPacket =>
      let node := node.setDestinationFromSerialBuffer 5
      (node, [node.sendSerialBuf payloadSize, .host hostAck])
  | some .none | some .broadcastMessage | some .resultCode | none => (node, [.host hostNack])

/-- `ReadSerialPayload`: the payload over the start of the buffer. -/
def readSerialPayload (payload : Bytes) (node : Node) : Node :=
  { node with serialBuf := memcpy node.serialBuf 0 payload }

/-- `HostSerialRead`, with the bytes that come in before its reads time out, up to its end. -/
def readCommand (serial : Bytes) (node : Node) : Node × List Effect :=
  match serial with
  | commandVal :: payloadSize :: arrived =>
      let node := node.readSerialPayload (arrived.take payloadSize.toNat)
      if arrived.length < payloadSize.toNat then (node, [.host hostNack])
      else node.performCommand commandVal payloadSize
  | _ => (node, [])

/-- What a call leaves behind. If it aborts, the node starts again. -/
def restarting (start : Node) (result : Node × List Effect) : Node × List Effect :=
  if .abort ∈ result.2 then (start, result.2) else result

/-- `HostSerialRead`. -/
def hostSerialRead (serial : Bytes) (node : Node) : Node × List Effect :=
  restarting (boot node.boardVersion) (node.readCommand serial)

/-- `CheckIfPacketForMe`, and `CheckIfPacketIsGlobalBroadcast` for the broadcast
address. -/
def checkIfPacketFor (address : NodeAddress) (rx : RxBuffer) : Bool :=
  address.region == rx.byte 5 && address.community == rx.byte 6 && address.node == rx.byte 7

/-- `Serial.write(rxPacket, rxSize)`. -/
def passOn (node : Node) : Effect := .host (slice node.rx.rxPacket 0 node.rx.rxSize.toNat)

/-- `ParseReceivedMessage`. -/
def parseReceivedMessage (node : Node) : Node × List Effect :=
  if checkIfPacketFor node.localAddress node.rx then
    match packetKind (node.rx.byte 0) with
    | .ping =>
        ({ node with
            dest := ⟨node.rx.byte 2, node.rx.byte 3, node.rx.byte 4⟩
            needToSendAck := true }, [])
    | .hostFormedPacket | .multipartPacket => (node, [node.passOn])
    -- `ExtractStringMessageFromBuffer` copies the text for the display
    | .message => (node, if newAborts (node.rx.rxSize - 6) then [.abort] else [])
    -- an acknowledgement is displayed; this firmware has no transactions and no broadcasts
    -- of its own
    | .ack | .transaction | .broadcast | .other => (node, [])
  else if checkIfPacketFor NodeAddress.broadcast node.rx then (node, [node.passOn])
  else (node, [])

/-- `OnRxDone`. -/
def onRxDone (payload : Bytes) (node : Node) : Node × List Effect :=
  restarting (boot node.boardVersion)
    (parseReceivedMessage { node with rx := node.rx.onRxDone payload })

/-- The commands of a host, one after the other: what the node transmits. -/
def transmitAll (node : Node) : List Bytes → List Bytes
  | [] => []
  | command :: rest =>
      transmissions (node.hostSerialRead command).2 ++
        (node.hostSerialRead command).1.transmitAll rest

/-- Packets received one after the other: what the node writes to its host. -/
def passOnAll (node : Node) : List Bytes → List Bytes
  | [] => []
  | frame :: rest => hostWrites (node.onRxDone frame).2 ++ (node.onRxDone frame).1.passOnAll rest

/-- The node takes packets to this address. -/
def Accepts (node : Node) (target : NodeAddress) : Prop :=
  node.localAddress = target ∨ target = NodeAddress.broadcast

instance (node : Node) (target : NodeAddress) : Decidable (node.Accepts target) :=
  inferInstanceAs (Decidable (_ ∨ _))

/-! ## Starting again -/

section Restarting

variable {start : Node} {result : Node × List Effect}

theorem effects_restarting (start : Node) (result : Node × List Effect) :
    (restarting start result).2 = result.2 := by
  rw [restarting]
  split
  · rfl
  · rfl

theorem restarting_of_abort (h : .abort ∈ result.2) : restarting start result = (start, result.2) :=
  if_pos h

theorem restarting_of_return (h : .abort ∉ result.2) : restarting start result = result :=
  if_neg h

end Restarting

theorem effects_hostSerialRead (serial : Bytes) (node : Node) :
    (node.hostSerialRead serial).2 = (node.readCommand serial).2 := effects_restarting _ _

@[simp] theorem localAddress_readSerialPayload (payload : Bytes) (node : Node) :
    (node.readSerialPayload payload).localAddress = node.localAddress := rfl

@[simp] theorem dest_readSerialPayload (payload : Bytes) (node : Node) :
    (node.readSerialPayload payload).dest = node.dest := rfl

/-! ## Displays -/

/-- A byte of the buffer: one of the payload, or what was there. -/
theorem byte_readSerialPayload (payload : Bytes) (node : Node) {i : Nat} (hi : i < bufferSize) :
    (node.readSerialPayload payload).serialBuf[i]? =
      if i < payload.length then payload[i]? else node.serialBuf[i]? := by
  rw [readSerialPayload, getElem?_memcpy payload node.serialBuf 0 i hi, Nat.zero_add, Nat.sub_zero]
  simp only [Nat.zero_le, true_and]

/-- Whether an empty payload is shown as a text is a matter of an earlier one. -/
theorem processDisplayControl_readSerialPayload {payload : Bytes} {payloadSize : UInt8}
    (hlength : payload.length = payloadSize.toNat) (node : Node) :
    (node.readSerialPayload payload).processDisplayControl payloadSize =
      displayFailure node.serialBuf[0]? payload := by
  have hfirst := node.byte_readSerialPayload payload (show 0 < bufferSize by decide)
  rw [processDisplayControl, hfirst, ← hlength]
  cases payload with
  | nil => rfl
  | cons first rest =>
      rw [List.length_cons, if_pos (Nat.succ_pos rest.length), List.getElem?_cons_zero]
      cases rest with
      | nil => exact if_congr Option.some_inj rfl rfl
      | cons second rest =>
          have hlong : ¬ ((rest.length + 1 + 1 : Nat) : Int) - 2 < 0 := by omega
          have hfits : newAborts (((rest.length + 1 + 1 : Nat) : Int) - 2 + 1) = false :=
            decide_eq_false (by omega)
          simp only [List.length_cons, hfits, hlong, Bool.false_eq_true, if_false, ite_self]
          rfl

/-- A display that fails writes nothing to the host. -/
theorem hostWrites_of_processDisplayControl {payloadSize : UInt8} {node : Node} {failure : Effect}
    (h : node.processDisplayControl payloadSize = some failure) : hostWrites [failure] = [] := by
  rw [processDisplayControl] at h
  split at h
  · simp only at h
    split at h
    · rw [← Option.some.inj h]
      rfl
    · split at h
      · rw [← Option.some.inj h]
        rfl
      · cases h
  · cases h

/-! ## Packets of a host -/

/-- The kinds of packet a host forms. -/
def HostKind (kind : SerialCommand) : Prop := kind = .hostFormedPacket ∨ kind = .multipartPacket

/-- What a host forms is transmitted as it is. -/
theorem transmissions_readCommand {kind : SerialCommand} (hkind : HostKind kind)
    {frame : Bytes} (hlen : frame.length ≤ 255) (node : Node) :
    transmissions (node.readCommand (framed kind frame)).2 = [frame] := by
  have hsize : (UInt8.ofNat frame.length).toNat = frame.length :=
    toNat_ofNat_of_le (by omega)
  have hcopied : slice (memcpy node.serialBuf 0 frame) 0 frame.length = frame := by
    rw [V3.slice_memcpy _ _ _ _ (Nat.le_refl _) (by simp only [bufferSize]; omega),
      List.take_length]
  simp only [readCommand, readSerialPayload, framed, hsize, List.take_length, Nat.lt_irrefl,
    if_false, performCommand, SerialCommand.ofCode?_code]
  cases hkind with
  | inl hhost =>
      subst hhost
      simp only [sendSerialBuf, setDestinationFromSerialBuffer, hsize, hcopied]
      rfl
  | inr hmultipart =>
      subst hmultipart
      simp only [sendSerialBuf, setDestinationFromSerialBuffer, hsize, hcopied]
      rfl

/-- The call returns. -/
theorem transmissions_hostSerialRead {kind : SerialCommand} (hkind : HostKind kind)
    {frame : Bytes} (hlen : frame.length ≤ 255) (node : Node) :
    transmissions (node.hostSerialRead (framed kind frame)).2 = [frame] := by
  rw [effects_hostSerialRead]
  exact transmissions_readCommand hkind hlen node

/-- The address check compares with the three bytes at offset 5. -/
theorem checkIfPacketFor_iff (address : NodeAddress) (rx : RxBuffer) :
    checkIfPacketFor address rx = true ↔ address = ⟨rx.byte 5, rx.byte 6, rx.byte 7⟩ := by
  cases address with
  | mk region community node => simp [checkIfPacketFor, and_assoc]

section Received

variable {kind : SerialCommand} {src dest : NodeAddress} {rest : Bytes}

/-- The receive buffer once a packet of a host has come in. -/
theorem bytes_onRxDone (rx : RxBuffer)
    (hlen : (framed kind (src.bytes ++ dest.bytes ++ rest)).length ≤ 255) :
    (rx.onRxDone (framed kind (src.bytes ++ dest.bytes ++ rest))).byte 0 = kind.code ∧
      (⟨(rx.onRxDone (framed kind (src.bytes ++ dest.bytes ++ rest))).byte 5,
        (rx.onRxDone (framed kind (src.bytes ++ dest.bytes ++ rest))).byte 6,
        (rx.onRxDone (framed kind (src.bytes ++ dest.bytes ++ rest))).byte 7⟩ : NodeAddress) =
          dest := by
  have hcount : 8 ≤ (framed kind (src.bytes ++ dest.bytes ++ rest)).length := by
    simp only [length_framed, List.length_append, NodeAddress.length_bytes, serialHeaderSize]
    omega
  have hbyte : ∀ i (hi : i < 8),
      (rx.onRxDone (framed kind (src.bytes ++ dest.bytes ++ rest))).byte i =
        (framed kind (src.bytes ++ dest.bytes ++ rest))[i] := fun i hi =>
    RxBuffer.byte_onRxDone rx (by omega) (by simp only [bufferSize]; omega)
  rw [hbyte 0 (by decide), hbyte 5 (by decide), hbyte 6 (by decide), hbyte 7 (by decide)]
  exact ⟨rfl, rfl⟩

/-- `Serial.write(rxPacket, rxSize)` gives the packet on as it came in. -/
theorem passOn_onRxDone (node : Node) {frame : Bytes} (hlen : frame.length ≤ 255) :
    passOn { node with rx := node.rx.onRxDone frame } = .host frame := by
  have hread := RxBuffer.slice_onRxDone node.rx frame 0 frame.length (Nat.zero_add _).le
    (by simp only [bufferSize]; omega)
  rw [List.drop_zero, List.take_length] at hread
  exact congrArg Effect.host hread

/-- A packet of a host is given to the host of every node it is addressed to, as it was sent. -/
theorem onRxDone_framed (hkind : HostKind kind)
    (hlen : (framed kind (src.bytes ++ dest.bytes ++ rest)).length ≤ 255) (node : Node) :
    node.onRxDone (framed kind (src.bytes ++ dest.bytes ++ rest)) =
      ({ node with rx := node.rx.onRxDone (framed kind (src.bytes ++ dest.bytes ++ rest)) },
        if node.Accepts dest then [.host (framed kind (src.bytes ++ dest.bytes ++ rest))]
        else []) := by
  obtain ⟨hfirst, haddress⟩ := bytes_onRxDone node.rx hlen
  have hpass := passOn_onRxDone node hlen
  have hcase : packetKind kind.code = .hostFormedPacket ∨ packetKind kind.code = .multipartPacket := by
    cases hkind with
    | inl hhost => exact .inl (hhost ▸ rfl)
    | inr hmultipart => exact .inr (hmultipart ▸ rfl)
  have hcheck := fun address => checkIfPacketFor_iff address
    (node.rx.onRxDone (framed kind (src.bytes ++ dest.bytes ++ rest)))
  simp only [haddress] at hcheck
  rw [onRxDone, parseReceivedMessage]
  by_cases hforMe : node.localAddress = dest
  · have haccepts : node.Accepts dest := .inl hforMe
    rw [if_pos ((hcheck _).mpr hforMe), if_pos haccepts]
    simp only [hfirst]
    cases hcase with
    | inl hhost =>
        simp only [hhost, hpass]
        exact restarting_of_return (mt List.mem_singleton.mp Effect.noConfusion)
    | inr hmultipart =>
        simp only [hmultipart, hpass]
        exact restarting_of_return (mt List.mem_singleton.mp Effect.noConfusion)
  · rw [if_neg (mt (hcheck _).mp hforMe)]
    by_cases hglobal : dest = NodeAddress.broadcast
    · rw [if_pos ((hcheck _).mpr hglobal.symm), if_pos (.inr hglobal), hpass]
      exact restarting_of_return (mt List.mem_singleton.mp Effect.noConfusion)
    · have hneither : ¬ node.Accepts dest := fun haccepts => haccepts.elim hforMe hglobal
      rw [if_neg (fun h => hglobal ((hcheck _).mp h).symm), if_neg hneither]
      exact restarting_of_return List.not_mem_nil

/-- No other host reads it. -/
theorem hostWrites_onRxDone (hkind : HostKind kind)
    (hlen : (framed kind (src.bytes ++ dest.bytes ++ rest)).length ≤ 255) (node : Node) :
    hostWrites (node.onRxDone (framed kind (src.bytes ++ dest.bytes ++ rest))).2 =
      if node.Accepts dest then [framed kind (src.bytes ++ dest.bytes ++ rest)] else [] := by
  rw [onRxDone_framed hkind hlen]
  by_cases haccepts : node.Accepts dest
  · simp only [if_pos haccepts]
    rfl
  · simp only [if_neg haccepts]
    rfl

end Received

/-! ## A whole transmission -/

/-- A series of host packets is transmitted in order. -/
theorem transmitAll_framed {kind : SerialCommand} (hkind : HostKind kind) (frames : List Bytes)
    (hlen : ∀ frame ∈ frames, frame.length ≤ 255) :
    ∀ node : Node, node.transmitAll (frames.map (framed kind)) = frames := by
  induction frames with
  | nil => intro node; rfl
  | cons frame rest ih =>
      intro node
      rw [List.map_cons, transmitAll,
        transmissions_hostSerialRead hkind (hlen frame List.mem_cons_self), ih fun later hmem =>
          hlen later (List.mem_cons_of_mem frame hmem)]
      rfl

/-- A series of host packets to this node is passed on in order. -/
theorem passOnAll_framed {kind : SerialCommand} (hkind : HostKind kind) {src dest : NodeAddress}
    (rests : List Bytes)
    (hlen : ∀ rest ∈ rests, (framed kind (src.bytes ++ dest.bytes ++ rest)).length ≤ 255) :
    ∀ node : Node, node.Accepts dest →
      node.passOnAll (rests.map fun rest => framed kind (src.bytes ++ dest.bytes ++ rest)) =
        rests.map fun rest => framed kind (src.bytes ++ dest.bytes ++ rest) := by
  induction rests with
  | nil => intro node _; rfl
  | cons rest later ih =>
      intro node haccepts
      have hstill : (node.onRxDone (framed kind (src.bytes ++ dest.bytes ++ rest))).1.Accepts dest := by
        rw [onRxDone_framed hkind (hlen rest List.mem_cons_self)]
        exact haccepts
      rw [List.map_cons, passOnAll, hostWrites_onRxDone hkind (hlen rest List.mem_cons_self),
        if_pos haccepts, ih (fun other hmem => hlen other (List.mem_cons_of_mem rest hmem)) _ hstill]
      rfl

end Node

end RadioDoge.Heltec
