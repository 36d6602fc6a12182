/-
# The serial output of the v3 firmware

Replies to the host, packets passed on to it and log lines share one serial port.
`addLog` prints every line of the log, and the first thing that `loop` does with the
radio after a reset is logged. A line begins with a bracket, which is the code of no
command, so a host that reads frames has nothing to go on from the first pass on:
`isFrameStream_iff`. The replies alone are frames (`isFrameStream_replies`); the other
firmware has its prints commented out.

The inputs are host commands and radio events; nobody uses the web interface, so the
request queue stays empty. What `ParseReceivedMessage` logs is left open. A pass in which the
firmware aborts ends with `setup`, whose own lines are left out.
-/

import RadioDoge.V3.HostLayout
import RadioDoge.V3.Node

namespace RadioDoge.V3

/-! ## Frames -/

/-- A frame of the serial protocol: a command, the number of bytes that follow, and
these. -/
def IsHostFrame (frame : Bytes) : Prop :=
  ∃ (command : SerialCommand) (payload : Bytes), payload.length ≤ 255 ∧
    frame = framed command payload

/-- One frame after the other. -/
def IsFrameStream (output : Bytes) : Prop :=
  ∃ frames : List Bytes, output = frames.flatten ∧ ∀ frame ∈ frames, IsHostFrame frame

theorem isFrameStream_nil : IsFrameStream [] := ⟨[], rfl, fun frame hframe => by cases hframe⟩

/-- A stream of frames begins with the code of a command. -/
theorem IsFrameStream.head {first : UInt8} {rest : Bytes} (h : IsFrameStream (first :: rest)) :
    ∃ command : SerialCommand, command.code = first := by
  obtain ⟨frames, hstream, hframes⟩ := h
  cases frames with
  | nil => cases hstream
  | cons frame later =>
      obtain ⟨command, payload, -, rfl⟩ := hframes frame List.mem_cons_self
      exact ⟨command, (List.cons.inj hstream).1.symm⟩

/-! ## What is written -/

/-- `MAX_LOG_LENGTH`. -/
abbrev maxLogLength : Nat := 200

/-- A number as `String` prints it. -/
def decimal (number : Int) : Bytes := ascii (toString number)

/-- An address with its dots. -/
def addressText (a : NodeAddress) : Bytes :=
  decimal a.region.toNat ++ ascii "." ++ decimal a.community.toNat ++ ascii "." ++
    decimal a.node.toNat

/-- The entry that `addLog` makes of a message. -/
def logEntry (millis : UInt32) (message : Bytes) : Bytes :=
  let entry := ascii "[" ++ decimal millis.toNat ++ ascii "] " ++ message
  if entry.length > maxLogLength then entry.take (maxLogLength - 3) ++ ascii "..." else entry

/-- A call that writes to the serial port. -/
inductive SerialWrite
  | addLog (message : Bytes)
  | println (line : Bytes)
  | write (bytes : Bytes)
  deriving DecidableEq, Repr

namespace SerialWrite

/-- The bytes of a call at this time. -/
def bytes (millis : UInt32) : SerialWrite → Bytes
  | .addLog message => logEntry millis message ++ [13, 10]
  | .println line => line ++ [13, 10]
  | .write bytes => bytes

/-- The bytes of a call that is no line. -/
def raw : SerialWrite → Option Bytes
  | .write bytes => some bytes
  | .addLog _ | .println _ => none

end SerialWrite

/-- The bytes of all calls, the `i`-th of them at `clock i`. -/
def serialOutput (clock : Nat → UInt32) (writes : List SerialWrite) : Bytes :=
  (writes.mapIdx fun i write => write.bytes (clock i)).flatten

/-- `addDisplayLog`. -/
def addDisplayLog (message : Bytes) : SerialWrite := .addLog (ascii "[DISPLAY] " ++ message)

/-- `DisplayTXMessage`: what it logs. -/
def displayTXMessage (message : Bytes) (dest : NodeAddress) : SerialWrite :=
  addDisplayLog (ascii "TX: " ++ message ++ ascii " to " ++ addressText dest)

/-- What `ParseReceivedMessage` writes for a packet: whatever lines it logs, and between
them what it gives to the host. -/
structure PacketWriter where
  writes : World → UInt32 → Bytes → Node → List SerialWrite
  raw : ∀ world now payload node, (writes world now payload node).filterMap SerialWrite.raw =
    (node.receive world now payload).val.2.filterMap fun
      | .host bytes => some bytes
      | _ => none

/-! ## The loop -/

/-- `internet_bridge_enabled`, `lastClientCheck` and `clientCount`. -/
structure Bridge where
  internetBridgeEnabled : Bool
  lastClientCheck : UInt32
  clientCount : Nat

/-- What the firmware keeps between two passes of `loop`. -/
structure LoopState where
  node : Node
  controlPacket : Vector UInt8 controlSize
  isLoRaIdle : Bool
  bridge : Bridge

/-- The calls of `saveLoRaConfiguration` that have worked. -/
structure NvsOutcome where
  opened : Bool
  region : Bool
  community : Bool
  node : Bool
  commit : Bool

/-- A callback of the radio. -/
inductive RadioEvent
  | txDone
  | txTimeout
  | rxTimeout
  | rxDone (payload : Bytes) (rssi snr : Int)
  deriving DecidableEq, Repr

/-- What one pass finds: the time, the stations at the access point, the bytes of the
host, what the radio reports, and what `setup` would find. -/
structure LoopInput where
  now : UInt32
  stationCount : Nat
  serial : Bytes
  nvs : NvsOutcome
  events : List RadioEvent
  world : World
  found : Found

namespace LoopState

/-- The state after `setup`, with the stored configuration. -/
def afterSetup (localAddress : NodeAddress) (gateway : GatewayConfig)
    (internetConnected internetBridgeEnabled : Bool) : LoopState where
  node :=
    { localAddress := localAddress
      dest := ⟨0, 0, 0⟩
      gateway := gateway
      internetConnected := internetConnected
      serialBuf := Vector.replicate bufferSize 0
      receiver := Receiver.boot
      needToSendAck := false }
  controlPacket := initControlMessages localAddress (Vector.replicate controlSize 0)
  isLoRaIdle := true
  bridge := ⟨internetBridgeEnabled, 0, 0⟩

/-- The state once the firmware has started again. -/
def restarted (localAddress : NodeAddress) (found : Found) : LoopState :=
  afterSetup localAddress found.gateway found.internetConnected found.internetBridgeEnabled

/-- `handleInternetBridge`, with `checkConnectedClients`. -/
def handleInternetBridge (input : LoopInput) (s : LoopState) : LoopState × List SerialWrite :=
  if s.bridge.internetBridgeEnabled ∧ input.now - s.bridge.lastClientCheck > 5000 then
    let checked := { s.bridge with lastClientCheck := input.now, clientCount := input.stationCount }
    ({ s with bridge := checked },
      if input.stationCount ≠ s.bridge.clientCount then
        [.addLog (ascii "[WiFi] Connected clients: " ++ decimal input.stationCount),
          .addLog (if input.stationCount > 0 then
            ascii "[WiFi] " ++ decimal input.stationCount ++
              ascii " client(s) connected to RadioDoge AP"
          else ascii "[WiFi] No clients connected to RadioDoge AP")]
      else [])
  else (s, [])

/-- The line for an expired session. -/
def expiredLine (session : MultipartReassembly) : SerialWrite :=
  .addLog (ascii "[LoRa] Multipart session expired for " ++ addressText session.src ++
    ascii " - Received " ++ decimal session.receivedParts.toNat ++ ascii "/" ++
    decimal session.totalParts.toNat ++ ascii " parts")

/-- `CleanupExpiredMultipartSessions`, from the last session to the first. -/
def cleanup (input : LoopInput) (s : LoopState) : LoopState × List SerialWrite :=
  ({ s with node := s.node.cleanup input.now },
    (s.node.receiver.table.live.filter
      (MultipartReassembly.expired input.now)).reverse.map expiredLine)

/-- `SendACK`, for the ping that was received. -/
def sendPendingAck (s : LoopState) : LoopState × List SerialWrite :=
  if s.node.needToSendAck then
    ({ s with
        node := { s.node with needToSendAck := false }
        controlPacket := (sendAck s.controlPacket s.node.dest).1
        isLoRaIdle := false },
      [displayTXMessage (ascii "ACK") s.node.dest,
        .addLog (ascii "[LoRa] Sending ACK to " ++ addressText s.node.dest),
        .write Heltec.hostAck])
  else (s, [])

/-- The radio is put into receive mode. -/
def enterRx (s : LoopState) : LoopState × List SerialWrite :=
  if s.isLoRaIdle then
    ({ s with isLoRaIdle := false },
      [.addLog (ascii "[LoRa] Detected idle state - switching to RX mode")])
  else (s, [])

/-- The state as `HostSerialRead` sees it. -/
def toHost (s : LoopState) : Heltec.Node where
  boardVersion := 3
  localAddress := s.node.localAddress
  dest := s.node.dest
  controlPacket := s.controlPacket
  serialBuf := s.node.serialBuf
  rx := s.node.receiver.rx
  needToSendAck := s.node.needToSendAck

/-- The state that `HostSerialRead` leaves behind. -/
def withHost (s : LoopState) (host : Heltec.Node) : LoopState :=
  { s with
    node := { s.node with
      localAddress := host.localAddress, dest := host.dest, serialBuf := host.serialBuf }
    controlPacket := host.controlPacket }

/-- `saveLoRaConfiguration`: what it prints. -/
def saveLoRaConfiguration (nvs : NvsOutcome) (localAddress : NodeAddress) : List SerialWrite :=
  let failed (worked : Bool) (line : String) : List SerialWrite :=
    if worked then [] else [.println (ascii line)]
  if nvs.opened then
    failed nvs.region "Error saving region to NVS" ++
      failed nvs.community "Error saving community to NVS" ++
      failed nvs.node "Error saving node to NVS" ++
      failed nvs.commit "Error committing LoRa configuration to NVS" ++
      [.println (ascii "LoRa configuration saved to NVS: " ++ addressText localAddress)]
  else [.println (ascii "Error opening NVS handle for LoRa configuration")]

/-- The lines in front of the reply to a command, when it has left `host` behind. -/
def commandLines (input : LoopInput) (commandVal payloadSize : UInt8) (host : Heltec.Node) :
    List SerialWrite :=
  match SerialCommand.ofCode? commandVal with
  | some .addressSet => saveLoRaConfiguration input.nvs host.localAddress
  | some .pingRequest =>
      [displayTXMessage (ascii "Ping") host.dest,
        .addLog (ascii "[LoRa] Sending PING to " ++ addressText host.dest)]
  | some .messageRequest =>
      [displayTXMessage
        (ofCString (slice host.serialBuf 7 (payloadSize.toNat - 6) ++ input.world.heap)) host.dest]
  | some .hostFormedPacket => [displayTXMessage (ascii "Custom Packet!") host.dest]
  | some .multipartPacket =>
      [displayTXMessage (ascii "Part " ++ decimal (host.serialBuf[10]?.getD 0).toNat ++
        ascii " of " ++ decimal (host.serialBuf[11]?.getD 0).toNat) host.dest]
  | _ => []

/-- A command upon which the firmware aborts. -/
def hostAborts (input : LoopInput) (s : LoopState) : Prop :=
  .abort ∈ (hostSerialRead input.serial s.toHost).2

instance (input : LoopInput) (s : LoopState) : Decidable (s.hostAborts input) :=
  inferInstanceAs (Decidable (_ ∈ _))

/-- `HostSerialRead`, once something has come in: the lines, then the reply. -/
def readHost (input : LoopInput) (s : LoopState) : LoopState × List SerialWrite :=
  let result := hostSerialRead input.serial s.toHost
  if s.hostAborts input then (restarted result.1.localAddress input.found, [])
  else
    let lines :=
      match input.serial with
      | commandVal :: payloadSize :: arrived =>
          if arrived.length < payloadSize.toNat then []
          else commandLines input commandVal payloadSize result.1
      | _ => []
    -- `SendPing` clears `isLoRaIdle`, which is clear at this point of the loop
    (s.withHost result.1, lines ++ (Heltec.hostWrites result.2).map .write)

/-- A packet upon which the firmware aborts. -/
def eventAborts (input : LoopInput) (s : LoopState) : RadioEvent → Bool
  | .rxDone payload _ _ => .abort ∈ (s.node.receive input.world input.now payload).val.2
  | .txDone | .txTimeout | .rxTimeout => false

/-- One callback of the radio. -/
def handle (writer : PacketWriter) (input : LoopInput) (s : LoopState) :
    RadioEvent → LoopState × List SerialWrite
  | .txDone => ({ s with isLoRaIdle := true }, [.addLog (ascii "[LoRa] TX completed successfully")])
  | .txTimeout =>
      ({ s with isLoRaIdle := true },
        [.addLog (ascii "[LoRa] TX timeout - transmission failed")])
  | .rxTimeout =>
      ({ s with isLoRaIdle := true }, [.addLog (ascii "[LoRa] RX timeout - no packet received")])
  | .rxDone payload rssi snr =>
      ({ s with node := (s.node.receive input.world input.now payload).val.1, isLoRaIdle := true },
        .addLog (ascii "[LoRa] RX packet received - RSSI: " ++ decimal rssi ++
            ascii " dBm, Length: " ++ decimal payload.length ++ ascii " bytes, SNR: " ++
            decimal snr ++ ascii " dB") ::
          writer.writes input.world input.now payload s.node)

/-- `Radio.IrqProcess`: the callbacks one after the other, up to one that aborts. -/
def irqProcess (writer : PacketWriter) (input : LoopInput) (s : LoopState) :
    List RadioEvent → LoopState × List SerialWrite
  | [] => (s, [])
  | event :: rest =>
      let first := s.handle writer input event
      if s.eventAborts input event then (restarted s.node.localAddress input.found, first.2)
      else
        let later := first.1.irqProcess writer input rest
        (later.1, first.2 ++ later.2)

/-- `CommandAndControlLoop`. -/
def commandAndControlLoop (writer : PacketWriter) (input : LoopInput) (s : LoopState) :
    LoopState × List SerialWrite :=
  let acked := s.sendPendingAck
  let listening := acked.1.enterRx
  let commanded :=
    if input.serial.length > 0 then listening.1.readHost input else (listening.1, [])
  let reported :=
    if listening.1.hostAborts input then (commanded.1, [])
    else commanded.1.irqProcess writer input input.events
  (reported.1, acked.2 ++ listening.2 ++ commanded.2 ++ reported.2)

/-- `loop`. -/
def loop (writer : PacketWriter) (input : LoopInput) (s : LoopState) :
    LoopState × List SerialWrite :=
  let bridged := s.handleInternetBridge input
  let swept := bridged.1.cleanup input
  let controlled := swept.1.commandAndControlLoop writer input
  (controlled.1, bridged.2 ++ swept.2 ++ controlled.2)

/-- A run of `loop`, with everything written. -/
def run (writer : PacketWriter) (s : LoopState) :
    List LoopInput → LoopState × List SerialWrite
  | [] => (s, [])
  | input :: rest =>
      let first := s.loop writer input
      let later := first.1.run writer rest
      (later.1, first.2 ++ later.2)

/-! ## The first line -/

/-- The first call is one of `addLog`. -/
def BeginsWithLog (writes : List SerialWrite) : Prop :=
  ∃ message rest, writes = .addLog message :: rest

/-- Nothing, or a line of the log first, in front of a line of the log. -/
theorem BeginsWithLog.append {first later : List SerialWrite}
    (hfirst : first = [] ∨ BeginsWithLog first) (hlater : BeginsWithLog later) :
    BeginsWithLog (first ++ later) := by
  rcases hfirst with rfl | ⟨message, rest, rfl⟩
  · exact hlater
  · exact ⟨message, rest ++ later, rfl⟩

variable (writer : PacketWriter) (input : LoopInput) {s : LoopState}

/-- The bridge logs, and leaves the radio alone. -/
theorem handleInternetBridge_spec (s : LoopState) :
    (s.handleInternetBridge input).1.isLoRaIdle = s.isLoRaIdle ∧
      ((s.handleInternetBridge input).2 = [] ∨ BeginsWithLog (s.handleInternetBridge input).2) := by
  rw [handleInternetBridge]
  split
  · refine ⟨rfl, ?_⟩
    split
    · exact Or.inr ⟨_, _, rfl⟩
    · exact Or.inl rfl
  · exact ⟨rfl, Or.inl rfl⟩

/-- So does the sweep of the sessions. -/
theorem cleanup_spec (s : LoopState) :
    (s.cleanup input).1.isLoRaIdle = s.isLoRaIdle ∧
      ((s.cleanup input).2 = [] ∨ BeginsWithLog (s.cleanup input).2) := by
  refine ⟨rfl, ?_⟩
  rw [cleanup]
  cases (s.node.receiver.table.live.filter (MultipartReassembly.expired input.now)).reverse with
  | nil => exact Or.inl rfl
  | cons session rest => exact Or.inr ⟨_, _, rfl⟩

/-- A node whose radio is idle, or that has a ping to acknowledge, logs first. -/
theorem commandAndControlLoop_beginsWithLog (hidle : s.isLoRaIdle = true) :
    BeginsWithLog (s.commandAndControlLoop writer input).2 := by
  have hfront : BeginsWithLog (s.sendPendingAck.2 ++ s.sendPendingAck.1.enterRx.2) := by
    rw [sendPendingAck]
    split
    · exact ⟨_, _, rfl⟩
    · rw [enterRx, if_pos hidle]
      exact ⟨_, _, rfl⟩
  obtain ⟨message, rest, hlog⟩ := hfront
  simp only [commandAndControlLoop, hlog]
  exact ⟨message, _, rfl⟩

/-- A pass with an idle radio begins with a line of the log. -/
theorem loop_beginsWithLog (hidle : s.isLoRaIdle = true) :
    BeginsWithLog (s.loop writer input).2 := by
  obtain ⟨hbridged, hbridgeLines⟩ := handleInternetBridge_spec input s
  obtain ⟨hswept, hsweepLines⟩ := cleanup_spec input (s.handleInternetBridge input).1
  rw [loop, List.append_assoc]
  apply BeginsWithLog.append hbridgeLines
  apply BeginsWithLog.append hsweepLines
  exact commandAndControlLoop_beginsWithLog writer input (hswept.trans (hbridged.trans hidle))

end LoopState

/-! ## No frames -/

/-- A line of the log begins with a bracket. -/
theorem exists_logEntry (millis : UInt32) (message : Bytes) :
    ∃ rest, logEntry millis message = 91 :: rest := by
  rw [logEntry]
  split
  · exact ⟨_, rfl⟩
  · exact ⟨_, rfl⟩

/-- A bracket is the code of no command. -/
theorem code_ne_bracket (command : SerialCommand) : command.code ≠ 91 := by
  cases command
  all_goals decide

/-- Output that begins with a line of the log is no stream of frames. -/
theorem not_isFrameStream_of_log {writes : List SerialWrite} (h : LoopState.BeginsWithLog writes)
    (clock : Nat → UInt32) : ¬ IsFrameStream (serialOutput clock writes) := by
  obtain ⟨message, rest, rfl⟩ := h
  obtain ⟨line, hline⟩ := exists_logEntry (clock 0) message
  rw [serialOutput, List.mapIdx_cons, List.flatten_cons, SerialWrite.bytes, hline]
  intro hframes
  obtain ⟨command, hcode⟩ := hframes.head
  exact code_ne_bracket command hcode

/-- **Not a stream of frames.** Whatever the host sends and the radio receives, and
whatever else is logged: the output of a run after `setup` is a stream of frames exactly
if `loop` has not run. -/
theorem isFrameStream_iff (writer : PacketWriter) (localAddress : NodeAddress)
    (gateway : GatewayConfig) (internetConnected internetBridgeEnabled : Bool)
    (clock : Nat → UInt32) (passes : List LoopInput) :
    IsFrameStream (serialOutput clock ((LoopState.afterSetup localAddress gateway internetConnected
        internetBridgeEnabled).run writer passes).2) ↔ passes = [] := by
  cases passes with
  | nil => exact iff_of_true isFrameStream_nil rfl
  | cons input rest =>
      refine iff_of_false (not_isFrameStream_of_log ?_ clock) (List.cons_ne_nil input rest)
      obtain ⟨message, more, hlog⟩ := LoopState.loop_beginsWithLog writer input
        (rfl : (LoopState.afterSetup localAddress gateway internetConnected
          internetBridgeEnabled).isLoRaIdle = true)
      simp only [LoopState.run, hlog]
      exact ⟨message, _, rfl⟩

/-- A node that logs nothing for the packets it receives. -/
def quietWriter : PacketWriter where
  writes := fun world now payload node =>
    ((node.receive world now payload).val.2.filterMap fun
      | .host bytes => some bytes
      | _ => none).map SerialWrite.write
  raw := fun world now payload node => by
    rw [List.filterMap_map]
    exact List.filterMap_some

/-- One pass in which nothing comes in. -/
def silentPass : LoopInput where
  now := 0
  stationCount := 0
  serial := []
  nvs := ⟨true, true, true, true, true⟩
  events := []
  world := ⟨fun _ => ⟨0, [], []⟩, []⟩
  found := ⟨GatewayConfig.boot, false, false⟩

/-- The first pass writes that the radio is idle, and nothing that a host can read. -/
theorem first_pass_is_no_frame :
    ¬ ∀ (writer : PacketWriter) (localAddress : NodeAddress) (gateway : GatewayConfig)
      (clock : Nat → UInt32) (passes : List LoopInput),
      IsFrameStream (serialOutput clock
        ((LoopState.afterSetup localAddress gateway false false).run writer passes).2) := by
  intro hall
  have hoverall := hall quietWriter ⟨10, 0, 1⟩ GatewayConfig.boot (fun _ => 0) [silentPass]
  exact not_isFrameStream_of_log ⟨_, [], rfl⟩ (fun _ => 0) hoverall

/-! ## The replies -/

/-- What `HostSerialRead` itself writes is a frame. -/
theorem isHostFrame_of_reply {serial : Bytes} {host : Heltec.Node} {reply : Bytes}
    (h : reply ∈ Heltec.hostWrites (hostSerialRead serial host).2) : IsHostFrame reply := by
  have hack : IsHostFrame Heltec.hostAck := ⟨.resultCode, [6], by decide, rfl⟩
  have hnack : IsHostFrame Heltec.hostNack := ⟨.resultCode, [21], by decide, rfl⟩
  rw [hostSerialRead, Heltec.Node.effects_restarting] at h
  unfold Heltec.Node.readCommand at h
  split at h
  next commandVal payloadSize arrived =>
    simp only at h
    split at h
    · obtain rfl := List.mem_singleton.mp h
      exact hnack
    · rw [Heltec.Node.performCommand] at h
      cases hcommand : SerialCommand.ofCode? commandVal with
      | none =>
          rw [hcommand] at h
          obtain rfl := List.mem_singleton.mp h
          exact hnack
      | some command =>
          obtain rfl := SerialCommand.code_of_ofCode? hcommand
          rw [hcommand] at h
          cases command with
          | addressGet =>
              obtain rfl := List.mem_singleton.mp h
              exact ⟨.addressGet, host.localAddress.bytes, by rw [NodeAddress.length_bytes]; decide, rfl⟩
          | hardwareInfo =>
              obtain rfl := List.mem_singleton.mp h
              exact ⟨.hardwareInfo, [104, host.boardVersion, 1], Nat.le_of_ble_eq_true rfl, rfl⟩
          | messageRequest =>
              simp only at h
              split at h
              · cases h
              · cases h
          | displayControl =>
              simp only at h
              cases hdisplay : Heltec.Node.processDisplayControl payloadSize
                  (host.readSerialPayload (arrived.take payloadSize.toNat)) with
              | none =>
                  rw [hdisplay] at h
                  obtain rfl := List.mem_singleton.mp h
                  exact hack
              | some failure =>
                  rw [hdisplay] at h
                  have hnone := Heltec.Node.hostWrites_of_processDisplayControl hdisplay
                  exact absurd h (hnone ▸ List.not_mem_nil)
          | addressSet | pingRequest | hostFormedPacket | multipartPacket =>
              obtain rfl := List.mem_singleton.mp h
              exact hack
          | none | broadcastMessage | resultCode =>
              obtain rfl := List.mem_singleton.mp h
              exact hnack
  next => cases h

/-- The replies to any commands are a stream of frames: only the lines are not. -/
theorem isFrameStream_replies (commands : List (Bytes × Heltec.Node)) :
    IsFrameStream (commands.flatMap fun command =>
      Heltec.hostWrites (hostSerialRead command.1 command.2).2).flatten := by
  refine ⟨_, rfl, fun frame hframe => ?_⟩
  obtain ⟨command, -, hreply⟩ := List.mem_flatMap.mp hframe
  exact isHostFrame_of_reply hreply

end RadioDoge.V3
