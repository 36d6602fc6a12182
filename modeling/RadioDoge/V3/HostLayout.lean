/-
# Parts of a host on the v3 firmware

The v3 firmware transmits a part that its host formed as it is, and a v3 node that
hears it looks for the fields of its own multipart packets: the destination at offset
1, the source at offset 4, the number of the part and of the parts at 7 and 8. A host
writes the length at offset 1, the source at 2, the destination at 5, and the two
numbers at 10 and 11. The same byte 109 stands in front of both.
-/

import RadioDoge.Serdog.Command
import RadioDoge.Sharp.PacketHelper
import RadioDoge.Heltec.Firmware
import RadioDoge.V3.Addressing

namespace RadioDoge.V3

/-- The v3 firmware behind `setup`: the stored address is loaded, or there is none and it is zero,
and `InitControlMessages` is called. -/
def setup (boardVersion : UInt8) (stored : NodeAddress) : Heltec.Node :=
  { Heltec.Node.boot boardVersion with
    localAddress := stored
    controlPacket := initControlMessages stored (Vector.replicate controlSize 0) }

/-- `HostSerialRead` of the v3 firmware. It does what the plain firmware does, and stores a new
address, so a node that starts again keeps its address. -/
def hostSerialRead (serial : Bytes) (node : Heltec.Node) : Heltec.Node × List Heltec.Effect :=
  Heltec.Node.restarting (setup node.boardVersion node.localAddress) (node.readCommand serial)

/-- A packet of a host is transmitted as it is. -/
theorem transmissions_hostSerialRead {kind : SerialCommand} (hkind : Heltec.Node.HostKind kind)
    {frame : Bytes} (hlen : frame.length ≤ 255) (node : Heltec.Node) :
    Heltec.transmissions (hostSerialRead (framed kind frame) node).2 = [frame] := by
  rw [hostSerialRead, Heltec.Node.effects_restarting]
  exact Heltec.Node.transmissions_readCommand hkind hlen node

/-- The fields of a part. -/
structure PartFields where
  src : NodeAddress
  partNumber : UInt8
  totalParts : UInt8
  deriving DecidableEq, Repr

/-- The fields that `ProcessMultipartPacket` reads. -/
def RxBuffer.partFields (rx : RxBuffer) : PartFields :=
  ⟨⟨rx.byte 4, rx.byte 5, rx.byte 6⟩, rx.byte 7, rx.byte 8⟩

/-- `ProcessMultipartPacket` looks at the header through these fields and the data
type. -/
theorem processMultipartPacket_partFields (now : UInt32) (rx : RxBuffer) (table : SessionTable) :
    processMultipartPacket now rx table =
      match findMultipartSession table rx.partFields.src (rx.byte 9) with
      | some sessionIndex =>
          receivePart rx table sessionIndex rx.partFields.partNumber rx.partFields.totalParts
      | none =>
          match createMultipartSession now table rx.partFields.src rx.partFields.totalParts
              (rx.byte 9) with
          | some (table, sessionIndex) =>
              receivePart rx table sessionIndex rx.partFields.partNumber rx.partFields.totalParts
          | none => pure ⟨table, false, none⟩ := rfl

/-- A part of a payload, as one of the two hosts builds it; parts count from zero. -/
inductive HostBuilds (src dest : NodeAddress) (messageID : UInt8) (payload : Bytes) :
    Nat → Bytes → Prop
  | serdog {commands : List Bytes} {part : Nat} {command : Bytes} :
      Serdog.cmdSendMultipartMessage src dest payload payload.length messageID = some commands →
      commands[part]? = some command → HostBuilds src dest messageID payload part command
  | hub {part : Nat} {command : Bytes} :
      messageID = 123 → (Sharp.createMultipartPackets dest src payload)[part]? = some command →
      HostBuilds src dest messageID payload part command

/-- A v3 node that hears the part takes it exactly if it is the destination, and reads
the fields the host wrote. -/
def ReadAsWritten (dest : NodeAddress) (written : PartFields) (command : Bytes) : Prop :=
  ∀ (sender : Heltec.Node) (frame : Bytes),
    frame ∈ Heltec.transmissions (hostSerialRead command sender).2 →
    ∀ rx : RxBuffer,
      (∀ localAddress : NodeAddress,
        checkIfPacketForMe localAddress (rx.onRxDone frame) = true ↔ localAddress = dest) ∧
      (rx.onRxDone frame).partFields = written

/-- The two layouts say the same about one part. -/
structure LayoutsCoincide (m : HostMessage) (part : Nat) : Prop where
  length : (m.chunk part).length + 10 = (UInt8.ofNat (part + 1)).toNat
  src : m.src = ⟨m.src.region, UInt8.ofNat (part + 1), m.src.region⟩
  dest : m.dest = ⟨UInt8.ofNat (part + 1), m.src.region, UInt8.ofNat (part + 1)⟩
  id : m.messageID = UInt8.ofNat m.parts

section Layout

variable (m : HostMessage)

/-- Both hosts build the parts of the message. -/
theorem hostBuilds_iff (part : Nat) (command : Bytes) :
    HostBuilds m.src m.dest m.messageID m.payload part command ↔
      part < m.parts ∧ command = m.command part := by
  have hget : m.commands[part]? = some command ↔ part < m.parts ∧ command = m.command part := by
    rw [HostMessage.commands, List.getElem?_map, Option.map_eq_some_iff]
    constructor
    · rintro ⟨i, hi, rfl⟩
      obtain ⟨hlt, rfl⟩ := List.getElem?_eq_some_iff.mp hi
      rw [List.length_range] at hlt
      rw [List.getElem_range]
      exact ⟨hlt, rfl⟩
    · rintro ⟨hlt, rfl⟩
      exact ⟨part, List.getElem?_range hlt, rfl⟩
  constructor
  · intro h
    cases h with
    | serdog hsent hpart =>
        rw [Serdog.cmdSendMultipartMessage_eq m] at hsent
        obtain rfl := Option.some.inj hsent
        exact hget.mp hpart
    | hub hid hpart =>
        rw [Sharp.createMultipartPackets_eq m hid] at hpart
        exact hget.mp hpart
  · intro h
    exact .serdog (Serdog.cmdSendMultipartMessage_eq m) (hget.mpr h)

/-- The first twelve bytes of a part, as the receiver finds them. -/
theorem byte_frame (part : Nat) (rx : RxBuffer) {i : Nat} (hi : i < multipartHdrLen) :
    (rx.onRxDone (m.frame part)).byte i =
      ([SerialCommand.multipartPacket.code, UInt8.ofNat ((m.chunk part).length + 10)] ++
        m.src.bytes ++ m.dest.bytes ++
        [m.messageID, 0, UInt8.ofNat (part + 1), UInt8.ofNat m.parts]).get
          ⟨i, by simpa [NodeAddress.bytes] using hi⟩ := by
  have hlen := m.length_frame part
  have hchunk := m.length_chunk_le part
  have hbody := m.length_bodyWith part (m.chunk part)
  have hframe : m.frame part =
      ([SerialCommand.multipartPacket.code, UInt8.ofNat ((m.chunk part).length + 10)] ++
        m.src.bytes ++ m.dest.bytes ++
        [m.messageID, 0, UInt8.ofNat (part + 1), UInt8.ofNat m.parts]) ++ m.chunk part := by
    rw [HostMessage.frame, framed, HostMessage.body, hbody]
    simp only [HostMessage.bodyWith, List.cons_append, List.nil_append, List.append_assoc]
  simp only [multipartHdrLen, maxPayloadLen] at hi hlen hchunk
  rw [RxBuffer.byte_onRxDone rx (by omega) (by simp only [bufferSize]; omega)]
  simp only [hframe]
  exact List.getElem_append_left _

/-- What the receiver takes for the destination. -/
theorem destination_frame (part : Nat) (rx : RxBuffer) :
    (rx.onRxDone (m.frame part)).destination =
      ⟨UInt8.ofNat ((m.chunk part).length + 10), m.src.region, m.src.community⟩ := by
  have hkind : (rx.onRxDone (m.frame part)).byte 0 = SerialCommand.multipartPacket.code :=
    byte_frame m part rx (by decide)
  rw [RxBuffer.destination, if_pos hkind, byte_frame m part rx (show 1 < 12 by decide),
    byte_frame m part rx (show 2 < 12 by decide), byte_frame m part rx (show 3 < 12 by decide)]
  rfl

/-- What the receiver takes for the source and the two numbers. -/
theorem partFields_frame (part : Nat) (rx : RxBuffer) :
    (rx.onRxDone (m.frame part)).partFields =
      ⟨⟨m.src.node, m.dest.region, m.dest.community⟩, m.dest.node, m.messageID⟩ := by
  rw [RxBuffer.partFields, byte_frame m part rx (show 4 < 12 by decide),
    byte_frame m part rx (show 5 < 12 by decide), byte_frame m part rx (show 6 < 12 by decide),
    byte_frame m part rx (show 7 < 12 by decide), byte_frame m part rx (show 8 < 12 by decide)]
  rfl

/-- The receiver reads the first eight fields shifted by one or two. -/
theorem readAsWritten_iff_shifted (part : Nat) (written : PartFields) :
    ReadAsWritten m.dest written (m.command part) ↔
      (⟨UInt8.ofNat ((m.chunk part).length + 10), m.src.region, m.src.community⟩ : NodeAddress) =
          m.dest ∧
        (⟨⟨m.src.node, m.dest.region, m.dest.community⟩, m.dest.node, m.messageID⟩ : PartFields) =
          written := by
  have hsent : ∀ sender : Heltec.Node,
      Heltec.transmissions (hostSerialRead (m.command part) sender).2 = [m.frame part] :=
    transmissions_hostSerialRead (.inr rfl) (m.length_frame_le part)
  constructor
  · intro h
    obtain ⟨haccept, hfields⟩ := h (Heltec.Node.boot 3) (m.frame part)
      (by rw [hsent]; exact List.mem_singleton_self _) RxBuffer.boot
    have hdest := (haccept m.dest).mpr rfl
    rw [checkIfPacketForMe_iff, destination_frame] at hdest
    rw [partFields_frame] at hfields
    exact ⟨hdest.symm, hfields⟩
  · rintro ⟨hdest, hfields⟩ sender frame hframe rx
    rw [hsent, List.mem_singleton] at hframe
    subst hframe
    refine ⟨fun localAddress => ?_, (partFields_frame m part rx).trans hfields⟩
    rw [checkIfPacketForMe_iff, destination_frame, hdest]

/-- A part is read as it was written exactly when the two layouts coincide on it. -/
theorem readAsWritten_iff (part : Nat) :
    ReadAsWritten m.dest ⟨m.src, UInt8.ofNat (part + 1), UInt8.ofNat m.parts⟩ (m.command part) ↔
      LayoutsCoincide m part := by
  have hchunk := m.length_chunk_le part
  have hbyte : (UInt8.ofNat ((m.chunk part).length + 10)).toNat = (m.chunk part).length + 10 :=
    toNat_ofNat_of_le (by simp only [maxPayloadLen] at hchunk; omega)
  rw [readAsWritten_iff_shifted]
  obtain ⟨⟨a, b, c⟩, ⟨d, e, f⟩, id, payload⟩ := m
  simp only [NodeAddress.mk.injEq, PartFields.mk.injEq]
  constructor
  · rintro ⟨⟨hd, he, hf⟩, ⟨hc, hda, heb⟩, hpart, hid⟩
    have hmiddle : b = UInt8.ofNat (part + 1) := hf.trans hpart
    exact
      { length := hbyte.symm.trans (congrArg UInt8.toNat (hd.trans (hda.trans hmiddle)))
        src := by rw [hmiddle, hc]
        dest := by rw [hda, hmiddle, ← he, hpart]
        id := hid }
  · rintro ⟨hlength, hsrc, hdest, hid⟩
    simp only [NodeAddress.mk.injEq] at hsrc hdest
    obtain ⟨-, hb, hc⟩ := hsrc
    obtain ⟨hd, he, hf⟩ := hdest
    have hsize : UInt8.ofNat ((HostMessage.chunk ⟨⟨a, b, c⟩, ⟨d, e, f⟩, id, payload⟩ part).length +
        10) = UInt8.ofNat (part + 1) := UInt8.toNat_inj.mp (hbyte.trans hlength)
    subst hb hc hd he hf
    exact ⟨⟨hsize, rfl, rfl⟩, ⟨rfl, rfl, rfl⟩, rfl, hid⟩

/-- The layouts never coincide on a first part: its number is one, its length more. -/
theorem not_layoutsCoincide_first : ¬ LayoutsCoincide m 0 := by
  intro h
  have hlength : (m.chunk 0).length + 10 = 1 := h.length
  omega

end Layout

/-- **The two layouts.** A part that a host builds is read as it was written exactly
when the bytes of the two layouts coincide on it. That never happens to a first part, so
only the empty payload, of which no part is built, is read as it was written. -/
theorem host_layout_iff (src dest : NodeAddress) (messageID : UInt8) (payload : Bytes) :
    (∀ part command, HostBuilds src dest messageID payload part command →
      (ReadAsWritten dest ⟨src, UInt8.ofNat (part + 1),
          UInt8.ofNat (Pieces.pieceCount maxPayloadLen payload.length)⟩ command ↔
        LayoutsCoincide ⟨src, dest, messageID, payload⟩ part)) ∧
    ((∀ part command, HostBuilds src dest messageID payload part command →
        ReadAsWritten dest ⟨src, UInt8.ofNat (part + 1),
          UInt8.ofNat (Pieces.pieceCount maxPayloadLen payload.length)⟩ command) ↔
      payload = []) := by
  let m : HostMessage := ⟨src, dest, messageID, payload⟩
  have hpart : ∀ part command, HostBuilds src dest messageID payload part command →
      (ReadAsWritten m.dest ⟨m.src, UInt8.ofNat (part + 1), UInt8.ofNat m.parts⟩ command ↔
        LayoutsCoincide m part) := by
    intro part command hbuilt
    obtain ⟨-, rfl⟩ := (hostBuilds_iff m part command).mp hbuilt
    exact readAsWritten_iff m part
  refine ⟨hpart, ?_, ?_⟩
  · intro hall
    by_contra hne
    have hbuilt : HostBuilds src dest messageID payload 0 (m.command 0) :=
      (hostBuilds_iff m 0 _).mpr
        ⟨Pieces.pieceCount_pos (by decide) (List.length_pos_iff.mpr hne), rfl⟩
    exact not_layoutsCoincide_first m ((hpart 0 _ hbuilt).mp (hall 0 _ hbuilt))
  · rintro rfl part command hbuilt
    obtain ⟨hlt, -⟩ := (hostBuilds_iff m part command).mp hbuilt
    have hnone : m.parts = 0 := Pieces.pieceCount_zero (by decide)
    omega

/-- A message of one byte from 10.0.2 to 10.0.1: the node 10.0.1 does not take it. -/
theorem host_part_misread :
    ¬ ∀ (src dest : NodeAddress) (messageID : UInt8) (payload : Bytes) (part : Nat)
      (command : Bytes), HostBuilds src dest messageID payload part command →
        ReadAsWritten dest ⟨src, UInt8.ofNat (part + 1),
          UInt8.ofNat (Pieces.pieceCount maxPayloadLen payload.length)⟩ command := by
  intro h
  let m : HostMessage := ⟨⟨10, 0, 2⟩, ⟨10, 0, 1⟩, 123, [170]⟩
  have hbuilt : HostBuilds m.src m.dest m.messageID m.payload 0 (m.command 0) :=
    (hostBuilds_iff m 0 _).mpr ⟨by decide, rfl⟩
  exact not_layoutsCoincide_first m ((readAsWritten_iff m 0).mp (h _ _ _ _ 0 _ hbuilt))

end RadioDoge.V3
