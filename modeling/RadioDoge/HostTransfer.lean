/-
# From one host to another

A host packet is written by serdog or by the hub, transmitted by the node of the
sender, heard by other nodes, given to their hosts, and taken apart there. The
modules of the parties state what each of them does with a packet; here the steps
are put together.
-/

import RadioDoge.Serdog.Command
import RadioDoge.Serdog.Receive
import RadioDoge.Sharp.PacketHelper
import RadioDoge.Sharp.MultipartPacket
import RadioDoge.Sharp.SerialPort
import RadioDoge.Heltec.Firmware

namespace RadioDoge

open Heltec (hostWrites transmissions)

/-! ## The encoders -/

/-- **One format, two encoders.** serdog and the hub write the same parts of every
payload, of whatever length. -/
theorem multipart_encoders_agree (src dest : NodeAddress) (payload : Bytes) :
    Serdog.cmdSendMultipartMessage src dest payload payload.length 123 =
      some (Sharp.createMultipartPackets dest src payload) := by
  let m : HostMessage := ⟨src, dest, 123, payload⟩
  calc Serdog.cmdSendMultipartMessage m.src m.dest m.payload m.payload.length m.messageID
      = some m.commands := Serdog.cmdSendMultipartMessage_eq m
    _ = some (Sharp.createMultipartPackets m.dest m.src m.payload) :=
        congrArg some (Sharp.createMultipartPackets_eq m rfl).symm

/-! ## A single packet -/

/-- What both hosts recover from a packet that their node gives them. -/
structure Recovered (frame : Bytes) (src : NodeAddress) (payload : Bytes) : Prop where
  /-- The frame passes `isCompleteCmd`, and no shorter part of it does. -/
  isFrame : FrameStream.IsFrame Serdog.complete frame
  /-- `parseHostFormedPacket`, whatever its buffer held. -/
  serdog : ∀ dataBuffer, ∃ extracted,
    Serdog.parseHostFormedPacket frame dataBuffer = some (src, extracted) ∧
      extracted.toList.take (frame.length - singlePacketHdrLen) = payload
  /-- `PortDataReceived` and `ExtractHostFormedPacketData`. -/
  hub : ∃ rawPayload,
    Sharp.readPacket frame = some (SerialCommand.hostFormedPacket.code, rawPayload) ∧
      Sharp.extractHostFormedPacketData rawPayload = .ok (src, payload)

theorem recovered_frame (p : HostPacket) (hlen : p.payload.length ≤ 247) :
    Recovered p.frame p.src p.payload where
  isFrame := Serdog.isFrame_of_wellFormed (Serdog.wellFormed_framed (by decide) (by
    simp only [List.length_append, NodeAddress.length_bytes]
    omega))
  serdog := by
    intro dataBuffer
    have hroom : p.payload.length ≤ Serdog.dataBufferSize := by
      simp only [Serdog.dataBufferSize]
      omega
    refine ⟨_, Serdog.parseHostFormedPacket_frame p hroom dataBuffer, ?_⟩
    rw [p.length_frame, Nat.add_sub_cancel]
    exact take_memcpy dataBuffer p.payload hroom
  hub := ⟨_, Sharp.readPacket_framed _ (by
      simp only [List.length_append, NodeAddress.length_bytes]
      omega), Sharp.extractHostFormedPacketData_eq p⟩

/-- **A single packet, end to end.** Both hosts write the same command for a payload
of at most 247 bytes. The sender's node transmits one frame; a node gives it to its host
exactly when it is addressed to that node or to all; and either host recovers the
source and the payload. -/
theorem host_packet_end_to_end (src dest : NodeAddress) (payload : Bytes)
    (hlen : payload.length ≤ 247) :
    ∃ command frame,
      Serdog.cmdSendMessage src dest payload (UInt8.ofNat payload.length) = some command ∧
      Sharp.createPacket dest src payload = command ∧
      (∀ sender : Heltec.Node, transmissions (sender.hostSerialRead command).2 = [frame]) ∧
      (∀ receiver : Heltec.Node, hostWrites (receiver.onRxDone frame).2 =
        if receiver.localAddress = dest ∨ dest = ⟨255, 255, 255⟩ then [frame] else []) ∧
      Recovered frame src payload := by
  let p : HostPacket := ⟨src, dest, payload⟩
  have hframe : p.frame.length ≤ 255 := by
    rw [p.length_frame]
    simp only [singlePacketHdrLen]
    exact Nat.add_le_add_right hlen 8
  exact ⟨p.command, p.frame, Serdog.cmdSendMessage_eq p hlen, Sharp.createPacket_eq p,
    Heltec.Node.transmissions_hostSerialRead (.inl rfl) hframe,
    Heltec.Node.hostWrites_onRxDone (.inl rfl) hframe, recovered_frame p hlen⟩

/-- A hub asks for an address of 10.0.2. -/
theorem host_packet_end_to_end_request :
    ∃ command frame,
      Serdog.cmdSendMessage ⟨10, 0, 3⟩ ⟨10, 0, 2⟩ [120] 1 = some command ∧
      Sharp.createPacket ⟨10, 0, 2⟩ ⟨10, 0, 3⟩ [120] = command ∧
      (∀ sender : Heltec.Node, transmissions (sender.hostSerialRead command).2 = [frame]) ∧
      (∀ receiver : Heltec.Node, hostWrites (receiver.onRxDone frame).2 =
        if receiver.localAddress = ⟨10, 0, 2⟩ ∨ (⟨10, 0, 2⟩ : NodeAddress) = ⟨255, 255, 255⟩
        then [frame] else []) ∧
      Recovered frame ⟨10, 0, 3⟩ [120] :=
  host_packet_end_to_end ⟨10, 0, 3⟩ ⟨10, 0, 2⟩ [120] (by decide)

/-! ## A message in parts -/

/-- The commands of one host, transmitted by its node, passed on by the node that
hears them, and read by the hub: a fresh packet answers `Incomplete` to every part but
the last and `Complete` to the last, and then holds the message. -/
def Reassembled (sender receiver : Heltec.Node) (commands : List Bytes) (m : HostMessage) : Prop :=
  ∃ pieces final,
    (receiver.passOnAll (sender.transmitAll commands)).map Sharp.readPacket =
      pieces.map (fun piece => some (SerialCommand.multipartPacket.code, piece)) ∧
    Sharp.MultipartPacket.fresh.addPacketPieces pieces =
      .ok (List.replicate (commands.length - 1) .incomplete ++ [.complete], final) ∧
    final.getPayload = m.payload ∧ final.senderAddress = m.src ∧
    final.destinationAddress = m.dest ∧ final.messageID = m.messageID

/-- The parts pass both nodes unchanged. -/
theorem passOnAll_transmitAll (m : HostMessage) (sender receiver : Heltec.Node)
    (haccepts : receiver.Accepts m.dest) :
    receiver.passOnAll (sender.transmitAll m.commands) = m.frames := by
  have hsent : sender.transmitAll m.commands = m.frames := by
    have hcommands : m.commands = m.frames.map (framed .multipartPacket) := by
      rw [HostMessage.commands, HostMessage.frames, List.map_map]
      rfl
    rw [hcommands]
    refine Heltec.Node.transmitAll_framed (.inr rfl) m.frames (fun frame hmem => ?_) sender
    obtain ⟨part, -, rfl⟩ := List.mem_map.mp hmem
    exact m.length_frame_le part
  have hframes : m.frames = ((List.range m.parts).map fun part =>
      [m.messageID, 0, UInt8.ofNat (part + 1), UInt8.ofNat m.parts] ++ m.chunk part).map
        fun rest => framed .multipartPacket (m.src.bytes ++ m.dest.bytes ++ rest) := by
    rw [HostMessage.frames, List.map_map]
    rfl
  rw [hsent, hframes]
  refine Heltec.Node.passOnAll_framed (.inr rfl) _ (fun rest hmem => ?_) receiver haccepts
  obtain ⟨part, -, rfl⟩ := List.mem_map.mp hmem
  exact m.length_frame_le part

theorem reassembled_commands (m : HostMessage) (hpos : 0 < m.parts) (hparts : m.parts ≤ 255)
    (sender receiver : Heltec.Node) (haccepts : receiver.Accepts m.dest) :
    Reassembled sender receiver m.commands m := by
  have hread : m.frames.map Sharp.readPacket = ((List.range m.parts).map m.body).map
      fun piece => some (SerialCommand.multipartPacket.code, piece) := by
    rw [HostMessage.frames, List.map_map, List.map_map]
    refine List.map_congr_left fun part _ => ?_
    have hlen := m.length_frame_le part
    rw [HostMessage.frame, length_framed] at hlen
    exact Sharp.readPacket_framed .multipartPacket (Nat.le_of_add_right_le hlen)
  have hcount : m.commands.length = m.parts := by
    rw [HostMessage.commands, List.length_map, List.length_range]
  refine ⟨(List.range m.parts).map m.body, Sharp.MultipartPacket.completed m, ?_, ?_,
    Sharp.MultipartPacket.getPayload_completed m, rfl, rfl, rfl⟩
  · rw [passOnAll_transmitAll m sender receiver haccepts]
    exact hread
  · rw [hcount]
    exact Sharp.MultipartPacket.addPacketPieces_bodies m hpos hparts

/-- **A message in parts, end to end.** A payload of 1 to 48960 bytes that either host
sends through its node arrives whole at the hub behind any node it is addressed to. -/
theorem multipart_message_end_to_end (src dest : NodeAddress) (messageID : UInt8)
    (payload : Bytes) (hpos : 1 ≤ payload.length) (hlen : payload.length ≤ 48960)
    (sender receiver : Heltec.Node)
    (haccepts : receiver.localAddress = dest ∨ dest = ⟨255, 255, 255⟩) :
    (∃ commands,
      Serdog.cmdSendMultipartMessage src dest payload payload.length messageID = some commands ∧
        Reassembled sender receiver commands ⟨src, dest, messageID, payload⟩) ∧
      Reassembled sender receiver (Sharp.createMultipartPackets dest src payload)
        ⟨src, dest, 123, payload⟩ := by
  have hparts : ∀ id, 0 < (HostMessage.mk src dest id payload).parts ∧
      (HostMessage.mk src dest id payload).parts ≤ 255 := fun id =>
    ⟨Pieces.pieceCount_pos (by decide) hpos,
      (Pieces.pieceCount_le_iff (by decide) 255).mpr hlen⟩
  constructor
  · exact ⟨_, Serdog.cmdSendMultipartMessage_eq ⟨src, dest, messageID, payload⟩,
      reassembled_commands _ (hparts messageID).1 (hparts messageID).2 sender receiver haccepts⟩
  · have hcommands := Sharp.createMultipartPackets_eq ⟨src, dest, 123, payload⟩ rfl
    simp only at hcommands
    rw [hcommands]
    exact reassembled_commands _ (hparts 123).1 (hparts 123).2 sender receiver haccepts

/-- A signed transaction of 300 digits, which takes two parts. -/
def twoPartTransaction : Bytes := 170 :: List.replicate 300 48

theorem length_twoPartTransaction : twoPartTransaction.length = 301 := by
  rw [twoPartTransaction, List.length_cons, List.length_replicate]

/-- A client sends the transaction to the hub at 10.0.3. -/
theorem multipart_message_end_to_end_transaction :
    (∃ commands,
      Serdog.cmdSendMultipartMessage ⟨10, 0, 2⟩ ⟨10, 0, 3⟩ twoPartTransaction
          twoPartTransaction.length 7 = some commands ∧
        Reassembled (Heltec.Node.boot 3) { Heltec.Node.boot 3 with localAddress := ⟨10, 0, 3⟩ }
          commands ⟨⟨10, 0, 2⟩, ⟨10, 0, 3⟩, 7, twoPartTransaction⟩) ∧
      Reassembled (Heltec.Node.boot 3) { Heltec.Node.boot 3 with localAddress := ⟨10, 0, 3⟩ }
        (Sharp.createMultipartPackets ⟨10, 0, 3⟩ ⟨10, 0, 2⟩ twoPartTransaction)
        ⟨⟨10, 0, 2⟩, ⟨10, 0, 3⟩, 123, twoPartTransaction⟩ :=
  multipart_message_end_to_end ⟨10, 0, 2⟩ ⟨10, 0, 3⟩ 7 twoPartTransaction
    (by rw [length_twoPartTransaction]; decide) (by rw [length_twoPartTransaction]; decide) _ _
    (.inl rfl)

end RadioDoge
