/-
# What arrives at the port of the hub

`PortDataReceived` takes one packet from the port: a part of a message is added to the
current one, a single packet is stripped of its addresses, and the answers of the radio
node are printed. Nothing on the way checks a length, so a packet that is too short for
what is read from it throws.
-/

import RadioDoge.Heltec.Firmware
import RadioDoge.Sharp.DogeMode
import RadioDoge.Sharp.MultipartPacket
import RadioDoge.Sharp.SerialPort

namespace RadioDoge.Sharp

variable {W : Type} (library : LibDogecoin W)

/-- The hub with its port manager. -/
structure Host (W : Type) where
  hub : Hub W
  currMultipartPacket : MultipartPacket

/-- `ProcessSerialSetupCommandPayload`: what it reads in order to print it. -/
def processSerialSetupCommandPayload (commandType : UInt8) (payload : Bytes) : Throws Unit :=
  match SerialCommand.ofCode? commandType with
  | some .addressGet => do
      let _region ← index payload 0
      let _community ← index payload 1
      let _node ← index payload 2
      pure ()
  | some .hardwareInfo => do
      let hardware ← index payload 0
      if hardware = 104 then do
        let _board ← index payload 1
        let _firmware ← index payload 2
        pure ()
      else pure ()
  | some .resultCode => do
      let _result ← index payload 0
      pure ()
  | _ => pure ()

/-- What happens to a complete message. -/
def processCompletePacket (packet : MultipartPacket) (hub : Hub W) :
    Throws (Host W × List Bytes) := do
  let result ← processDogePayload library packet.senderAddress packet.getPayload hub
  pure (⟨result.1, .fresh⟩, result.2)

/-- The body of `PortDataReceived`, once the packet is read. -/
def processReceived (commandType : UInt8) (payload : Bytes) (host : Host W) :
    Throws (Host W × List Bytes) :=
  match SerialCommand.ofCode? commandType with
  | some .multipartPacket => do
      let added ← host.currMultipartPacket.addPacketPiece payload
      if added.1 = .complete then processCompletePacket library added.2 host.hub
      else pure ({ host with currMultipartPacket := added.2 }, [])
  | some .hostFormedPacket => do
      let extracted ← extractHostFormedPacketData payload
      let result ← processDogePayload library extracted.1 extracted.2 host.hub
      pure ({ host with hub := result.1 }, result.2)
  | _ => do
      processSerialSetupCommandPayload commandType payload
      pure (host, [])

/-- `PortDataReceived`, with the commands written to the port. It waits for a packet that
has not arrived as a whole. -/
def portDataReceived (incoming : Bytes) (host : Host W) : Throws (Host W × List Bytes) :=
  match readPacket incoming with
  | some (commandType, payload) => processReceived library commandType payload host
  | none => pure (host, [])

/-! ## What fits -/

/-- There is room for what `ProcessSerialSetupCommandPayload` prints. -/
def SetupFits (commandType : UInt8) (payload : Bytes) : Prop :=
  match SerialCommand.ofCode? commandType with
  | some .addressGet => 3 ≤ payload.length
  | some .hardwareInfo => 1 ≤ payload.length ∧ (payload[0]? = some 104 → 3 ≤ payload.length)
  | some .resultCode => 1 ≤ payload.length
  | _ => True

/-- There is room for the number of a part, and in the next part for its header. -/
def PieceFits (p : MultipartPacket) (piece : Bytes) : Prop :=
  9 ≤ piece.length ∧ (piece[8]? = some p.currentPart → 10 ≤ piece.length)

/-- The part is the last one of its message. -/
def LastPiece (p : MultipartPacket) (piece : Bytes) : Prop :=
  piece[8]? = some p.currentPart ∧
    (if p.currentPart = 1 then piece[9]? else some p.totalNumberParts) = some p.currentPart

/-- There is room for everything that is read from a packet. -/
def PacketFits (commandType : UInt8) (payload : Bytes) (p : MultipartPacket) : Prop :=
  match SerialCommand.ofCode? commandType with
  | some .multipartPacket =>
      PieceFits p payload ∧
        (LastPiece p payload → DogePayloadFits (p.reassembledPayload ++ payload.drop 10))
  | some .hostFormedPacket => 6 ≤ payload.length ∧ DogePayloadFits (payload.drop 6)
  | _ => SetupFits commandType payload

section Completing

theorem completes_processSerialSetupCommandPayload (commandType : UInt8) (payload : Bytes) :
    Completes (processSerialSetupCommandPayload commandType payload) ↔
      SetupFits commandType payload := by
  rw [processSerialSetupCommandPayload, SetupFits]
  cases SerialCommand.ofCode? commandType with
  | none => exact iff_of_true (completes_pure _) trivial
  | some command =>
      cases command with
      | addressGet =>
          constructor
          · intro h
            obtain ⟨_, -, h⟩ := (completes_bind _ _).mp h
            obtain ⟨_, -, h⟩ := (completes_bind _ _).mp h
            obtain ⟨node, hnode, -⟩ := (completes_bind _ _).mp h
            exact (completes_index payload 2).mp ⟨node, hnode⟩
          · intro h
            rw [index_eq_ok (show 0 < payload.length by omega), bind_ok,
              index_eq_ok (show 1 < payload.length by omega), bind_ok,
              index_eq_ok (show 2 < payload.length by omega), bind_ok]
            exact completes_pure _
      | hardwareInfo =>
          match payload with
          | [] => exact iff_of_false (not_completes_error _) fun h => by simp at h
          | hardware :: rest =>
              have hfirst : index (hardware :: rest) 0 = .ok hardware := rfl
              have hpos : 1 ≤ (hardware :: rest).length := Nat.succ_pos _
              dsimp only
              rw [hfirst, bind_ok, and_iff_right hpos, List.getElem?_cons_zero, Option.some.injEq]
              by_cases hheltec : hardware = 104
              · rw [if_pos hheltec, forall_prop_of_true hheltec]
                constructor
                · intro h
                  obtain ⟨_, -, h⟩ := (completes_bind _ _).mp h
                  obtain ⟨firmware, hfirmware, -⟩ := (completes_bind _ _).mp h
                  exact (completes_index _ 2).mp ⟨firmware, hfirmware⟩
                · intro h
                  rw [index_eq_ok (show 1 < (hardware :: rest).length by omega), bind_ok,
                    index_eq_ok (show 2 < (hardware :: rest).length by omega), bind_ok]
                  exact completes_pure _
              · rw [if_neg hheltec]
                exact iff_of_true (completes_pure _) fun h => absurd h hheltec
      | resultCode =>
          match payload with
          | [] => exact iff_of_false (not_completes_error _) fun h => by simp at h
          | result :: rest => exact iff_of_true (completes_pure _) (Nat.succ_pos _)
      | none => exact iff_of_true (completes_pure _) trivial
      | addressSet => exact iff_of_true (completes_pure _) trivial
      | pingRequest => exact iff_of_true (completes_pure _) trivial
      | messageRequest => exact iff_of_true (completes_pure _) trivial
      | broadcastMessage => exact iff_of_true (completes_pure _) trivial
      | displayControl => exact iff_of_true (completes_pure _) trivial
      | hostFormedPacket => exact iff_of_true (completes_pure _) trivial
      | multipartPacket => exact iff_of_true (completes_pure _) trivial

namespace MultipartPacket

variable (p : MultipartPacket) (piece : Bytes)

/-- A part with a whole header opens the packet, and the packet keeps its data. -/
theorem openPacket_of_header {piece : Bytes} (hheader : 10 ≤ piece.length) :
    ∃ opened : MultipartPacket, p.openPacket piece = .ok opened ∧
      opened.currentPart = p.currentPart ∧
      opened.reassembledPayload = p.reassembledPayload ∧
      some opened.totalNumberParts =
        if p.currentPart = 1 then piece[9]? else some p.totalNumberParts := by
  rw [openPacket]
  by_cases hfirst : p.currentPart = 1
  · rw [if_pos hfirst, if_pos hfirst, readFirstPiece,
      index_eq_ok (show 0 < piece.length by omega), index_eq_ok (show 1 < piece.length by omega),
      index_eq_ok (show 2 < piece.length by omega), index_eq_ok (show 3 < piece.length by omega),
      index_eq_ok (show 4 < piece.length by omega), index_eq_ok (show 5 < piece.length by omega),
      index_eq_ok (show 6 < piece.length by omega), index_eq_ok (show 7 < piece.length by omega),
      index_eq_ok (show 9 < piece.length by omega)]
    exact ⟨_, rfl, rfl, rfl, (List.getElem?_eq_getElem (by omega)).symm⟩
  · rw [if_neg hfirst, if_neg hfirst]
    exact ⟨p, rfl, rfl, rfl, rfl⟩

/-- **Adding a part.** The number of the part is read, and the data behind the header
only if it is the next part. -/
theorem completes_addPacketPiece :
    Completes (p.addPacketPiece piece) ↔ PieceFits p piece := by
  rw [addPacketPiece, PieceFits]
  by_cases hnumber : 9 ≤ piece.length
  · rw [index_eq_ok (show 8 < piece.length by omega), bind_ok, and_iff_right hnumber,
      List.getElem?_eq_getElem (show 8 < piece.length by omega), Option.some.injEq]
    by_cases hnext : p.currentPart = piece[8]
    · rw [if_pos hnext, forall_prop_of_true hnext.symm]
      constructor
      · intro h
        obtain ⟨opened, -, h⟩ := (completes_bind _ _).mp h
        obtain ⟨data, hdata, -⟩ := (completes_bind _ _).mp h
        have hcopied := (completes_copyOut _ _ _).mp ⟨data, hdata⟩
        omega
      · intro hheader
        obtain ⟨opened, hopened, -⟩ := p.openPacket_of_header hheader
        rw [hopened, bind_ok, copyOut_data hheader]
        exact completes_ok _
    · rw [if_neg hnext]
      exact iff_of_true (completes_pure _) fun heq => absurd heq.symm hnext
  · refine iff_of_false ?_ fun h => hnumber h.1
    intro h
    obtain ⟨number, hnumber', -⟩ := (completes_bind _ _).mp h
    have hindex := (completes_index _ _).mp ⟨number, hnumber'⟩
    exact hnumber hindex

/-- The answer to a part: complete exactly if it is the last one, and then the packet
holds the data of all parts. -/
theorem addPacketPiece_eq_ok {code : PacketReconstructionCode} {p' : MultipartPacket}
    (h : p.addPacketPiece piece = .ok (code, p')) :
    (code = .complete ↔ LastPiece p piece) ∧
      (code = .complete → p'.getPayload = p.reassembledPayload ++ piece.drop 10) := by
  have hfits := (p.completes_addPacketPiece piece).mp ⟨_, h⟩
  have hnumber : 8 < piece.length := hfits.1
  rw [addPacketPiece, index_eq_ok hnumber, bind_ok] at h
  rw [LastPiece, List.getElem?_eq_getElem hnumber, Option.some.injEq]
  by_cases hnext : p.currentPart = piece[8]
  · have hheader := hfits.2 (by rw [List.getElem?_eq_getElem hnumber, hnext])
    obtain ⟨opened, hopened, hcurrent, hpayload, htotal⟩ := p.openPacket_of_header hheader
    rw [if_pos hnext, hopened, bind_ok, copyOut_data hheader, bind_ok, closePiece] at h
    rw [and_iff_right hnext.symm, ← htotal, Option.some.injEq, ← hcurrent]
    dsimp only at h
    by_cases hlast : opened.currentPart = opened.totalNumberParts
    · rw [if_pos hlast] at h
      obtain ⟨rfl, rfl⟩ := Prod.mk.inj (Except.ok.inj h)
      refine ⟨iff_of_true rfl hlast.symm, fun _ => ?_⟩
      rw [← hpayload]
      rfl
    · rw [if_neg hlast] at h
      obtain ⟨rfl, rfl⟩ := Prod.mk.inj (Except.ok.inj h)
      exact ⟨iff_of_false (by decide) fun heq => hlast heq.symm, fun heq => by cases heq⟩
  · rw [if_neg hnext] at h
    obtain ⟨rfl, rfl⟩ := Prod.mk.inj (Except.ok.inj h)
    exact ⟨iff_of_false (by decide) fun heq => hnext heq.1.symm, fun heq => by cases heq⟩

end MultipartPacket

theorem completes_extractHostFormedPacketData (rawPayload : Bytes) :
    Completes (extractHostFormedPacketData rawPayload) ↔ 6 ≤ rawPayload.length := by
  rw [extractHostFormedPacketData]
  constructor
  · intro h
    obtain ⟨_, -, h⟩ := (completes_bind _ _).mp h
    obtain ⟨_, -, h⟩ := (completes_bind _ _).mp h
    obtain ⟨_, -, h⟩ := (completes_bind _ _).mp h
    obtain ⟨data, hdata, -⟩ := (completes_bind _ _).mp h
    have hcopied := (completes_copyOut _ _ _).mp ⟨data, hdata⟩
    omega
  · intro hlen
    obtain ⟨data, hdata⟩ := (completes_copyOut rawPayload 6 (rawPayload.length - 6)).mpr
      ⟨by omega, by omega⟩
    rw [index_eq_ok (show 0 < rawPayload.length by omega),
      index_eq_ok (show 1 < rawPayload.length by omega),
      index_eq_ok (show 2 < rawPayload.length by omega), bind_ok, bind_ok, bind_ok, hdata]
    exact completes_pure _

/-- The data of a packet is what stands behind the two addresses. -/
theorem extractHostFormedPacketData_eq_ok {rawPayload data : Bytes} {senderAddress : NodeAddress}
    (h : extractHostFormedPacketData rawPayload = .ok (senderAddress, data)) :
    data = rawPayload.drop 6 := by
  have hlen := (completes_extractHostFormedPacketData rawPayload).mp ⟨_, h⟩
  have hsub : ((rawPayload.length : Int) - 6) = (rawPayload.length - 6 : Nat) := by omega
  have hdata : copyOut rawPayload 6 (rawPayload.length - 6) = .ok (rawPayload.drop 6) := by
    rw [hsub, copyOut_eq_ok (by omega), List.take_of_length_le (by rw [List.length_drop])]
  rw [extractHostFormedPacketData, index_eq_ok (show 0 < rawPayload.length by omega),
    index_eq_ok (show 1 < rawPayload.length by omega),
    index_eq_ok (show 2 < rawPayload.length by omega), bind_ok, bind_ok, bind_ok, hdata] at h
  exact (congrArg Prod.snd (Except.ok.inj h)).symm

/-- A part that arrives: it is added, and the message served once it is complete. -/
theorem completes_multipart (payload : Bytes) (host : Host W) :
    Completes (processReceived library SerialCommand.multipartPacket.code payload host) ↔
      PieceFits host.currMultipartPacket payload ∧
        (LastPiece host.currMultipartPacket payload →
          DogePayloadFits (host.currMultipartPacket.reassembledPayload ++ payload.drop 10)) := by
  rw [processReceived, SerialCommand.ofCode?_code,
    ← MultipartPacket.completes_addPacketPiece host.currMultipartPacket payload]
  dsimp only
  cases hadded : host.currMultipartPacket.addPacketPiece payload with
  | error e =>
      exact iff_of_false (not_completes_error e) fun h => not_completes_error e h.1
  | ok added =>
      obtain ⟨code, packet⟩ := added
      obtain ⟨hcode, hpayload⟩ :=
        host.currMultipartPacket.addPacketPiece_eq_ok payload hadded
      rw [bind_ok, and_iff_right (completes_ok _), ← hcode]
      dsimp only
      by_cases hcomplete : code = .complete
      · rw [if_pos hcomplete, forall_prop_of_true hcomplete, ← hpayload hcomplete,
          ← completes_processDogePayload library packet.senderAddress packet.getPayload host.hub,
          processCompletePacket]
        exact completes_bind_pure _ _
      · rw [if_neg hcomplete]
        exact iff_of_true (completes_pure _) fun h => absurd h hcomplete

/-- A single packet that arrives. -/
theorem completes_hostFormed (payload : Bytes) (host : Host W) :
    Completes (processReceived library SerialCommand.hostFormedPacket.code payload host) ↔
      6 ≤ payload.length ∧ DogePayloadFits (payload.drop 6) := by
  rw [processReceived, SerialCommand.ofCode?_code,
    ← completes_extractHostFormedPacketData payload]
  dsimp only
  cases hextracted : extractHostFormedPacketData payload with
  | error e => exact iff_of_false (not_completes_error e) fun h => not_completes_error e h.1
  | ok extracted =>
      obtain ⟨senderAddress, data⟩ := extracted
      obtain rfl := extractHostFormedPacketData_eq_ok hextracted
      rw [bind_ok, and_iff_right (completes_ok _),
        ← completes_processDogePayload library senderAddress _ host.hub]
      exact completes_bind_pure _ _

/-- An answer of the radio node. -/
theorem completes_setup {commandType : UInt8} (payload : Bytes) (host : Host W)
    (hmultipart : SerialCommand.ofCode? commandType ≠ some .multipartPacket)
    (hsingle : SerialCommand.ofCode? commandType ≠ some .hostFormedPacket) :
    Completes (processReceived library commandType payload host) ↔
      SetupFits commandType payload := by
  rw [← completes_processSerialSetupCommandPayload, processReceived]
  split
  · rename_i hcode
    exact absurd hcode hmultipart
  · rename_i hcode
    exact absurd hcode hsingle
  · exact completes_bind_pure _ _

end Completing

/-- **When the hub survives a packet.** For every command byte, every payload that a
packet can carry and every state of the hub: `PortDataReceived` completes exactly if
there is room for what is read from the packet. -/
theorem completes_portDataReceived_iff (commandType : UInt8) {payload : Bytes}
    (hlen : payload.length ≤ 255) (host : Host W) :
    Completes (portDataReceived library (commandType :: UInt8.ofNat payload.length :: payload)
      host) ↔ PacketFits commandType payload host.currMultipartPacket := by
  have hsize : (UInt8.ofNat payload.length).toNat = payload.length := toNat_ofNat_of_le hlen
  have hread : readPacket (commandType :: UInt8.ofNat payload.length :: payload) =
      some (commandType, payload) := by
    simp only [readPacket, hsize, Nat.le_refl, if_true, List.take_length]
  rw [portDataReceived, hread, PacketFits]
  dsimp only
  split
  · rename_i hcode
    obtain rfl := SerialCommand.code_of_ofCode? hcode
    exact completes_multipart library payload host
  · rename_i hcode
    obtain rfl := SerialCommand.code_of_ofCode? hcode
    exact completes_hostFormed library payload host
  · rename_i hmultipart hsingle
    exact completes_setup library payload host hmultipart hsingle

/-- A payload that arrives as a single packet is served. -/
theorem portDataReceived_frame (p : HostPacket) (hlen : p.payload.length ≤ 247) (host : Host W)
    {result : Hub W × List Bytes}
    (hserved : processDogePayload library p.src p.payload host.hub = .ok result) :
    portDataReceived library p.frame host = .ok ({ host with hub := result.1 }, result.2) := by
  have hread : readPacket p.frame =
      some (SerialCommand.hostFormedPacket.code, p.src.bytes ++ p.dest.bytes ++ p.payload) :=
    readPacket_framed .hostFormedPacket (by
      simp only [List.length_append, NodeAddress.length_bytes]
      omega)
  rw [portDataReceived, hread]
  dsimp only
  rw [processReceived, SerialCommand.ofCode?_code]
  dsimp only
  rw [extractHostFormedPacketData_eq p, bind_ok, hserved, bind_ok]
  rfl

/-- A registration is served, and answered. -/
theorem processDogePayload_registration (sender : NodeAddress) (r : RegistrationRequest)
    (hub : Hub W) :
    processDogePayload library sender (r.payload DogeCommandType.registration.code) hub =
      .ok ((r.perform library.toWatchLibrary sender hub).hub,
        [sendGenericDogeResponse hub.localAddress sender
          (r.perform library.toWatchLibrary sender hub).operationSuccess .registration
          (r.perform library.toWatchLibrary sender hub).responseCode]) := by
  have hcommand : index (r.payload DogeCommandType.registration.code) 0 =
      .ok DogeCommandType.registration.code := rfl
  rw [processDogePayload, hcommand, bind_ok, DogeCommandType.ofCode?_code]
  exact registerDogeAddress_payload library.toWatchLibrary sender r _ hub

/-- A registration that arrives as a single packet is served, and answered. -/
theorem portDataReceived_registration (src dest : NodeAddress) (r : RegistrationRequest)
    (hlen : (r.payload DogeCommandType.registration.code).length ≤ 247) (host : Host W) :
    portDataReceived library
        (HostPacket.frame ⟨src, dest, r.payload DogeCommandType.registration.code⟩) host =
      .ok (⟨(r.perform library.toWatchLibrary src host.hub).hub, host.currMultipartPacket⟩,
        [sendGenericDogeResponse host.hub.localAddress src
          (r.perform library.toWatchLibrary src host.hub).operationSuccess .registration
          (r.perform library.toWatchLibrary src host.hub).responseCode]) :=
  portDataReceived_frame library ⟨src, dest, r.payload DogeCommandType.registration.code⟩ hlen host
    (processDogePayload_registration library src r host.hub)

/-- A library that knows no balance and no output. -/
def idleLibrary : LibDogecoin Unit where
  registerWatchAddress := fun _ _ => (true, ())
  unregisterWatchAddress := fun _ _ => (true, ())
  getBalance := fun _ _ => 0
  getAllUTXOs := fun _ _ => []
  broadcastTransaction := fun _ _ => ([48], ())
  generatePrivPubKeypair := fun _ => (none, ())

/-- The hub when it has just started. -/
def freshHost : Host Unit := ⟨⟨⟨10, 0, 1⟩, ∅, ()⟩, .fresh⟩

/-- An answer of three bytes is printed. -/
theorem completes_portDataReceived_iff_address :
    Completes (portDataReceived idleLibrary [1, 3, 10, 0, 1] freshHost) :=
  (completes_portDataReceived_iff idleLibrary 1 (show ([10, 0, 1] : Bytes).length ≤ 255 by decide)
    freshHost).mpr (show 3 ≤ ([10, 0, 1] : Bytes).length by decide)

/-- **A frame that takes the hub down.** A packet to all nodes with nothing behind its
addresses is passed on by every radio node, and the hub throws on it. -/
theorem empty_packet_throws :
    (∀ node : Heltec.Node, Heltec.hostWrites (node.onRxDone [104, 6, 10, 0, 2, 255, 255, 255]).2 =
      [[104, 6, 10, 0, 2, 255, 255, 255]]) ∧
    ¬ ∀ (commandType : UInt8) (payload : Bytes), payload.length ≤ 255 →
      Completes (portDataReceived idleLibrary
        (commandType :: UInt8.ofNat payload.length :: payload) freshHost) := by
  constructor
  · intro node
    let p : HostPacket := ⟨⟨10, 0, 2⟩, .broadcast, []⟩
    have hpassed : Heltec.hostWrites (node.onRxDone p.frame).2 =
        if node.Accepts p.dest then [p.frame] else [] :=
      Heltec.Node.hostWrites_onRxDone (.inl rfl) (by decide) node
    rwa [if_pos (.inr rfl)] at hpassed
  · intro hall
    obtain ⟨result, hresult⟩ := hall 104 [10, 0, 2, 255, 255, 255] (by decide)
    cases hresult

end RadioDoge.Sharp
