/-
# The main loop of a plain radio node

One turn of `CommandAndControlLoop` sends the acknowledgement that is pending, performs a
command of the host if there is one, and lets the radio call back. A ping that is accepted
leaves its source in `dest` and sets `needToSendACK`, at the very end of a turn, and the next
turn begins with the acknowledgement; so `dest` still holds the source. A command may change
`dest` only behind that point. Where one of the steps aborts, the turn ends, and the next one is
the first after a reset.

`isLoRaIdle`, which only decides whether the radio listens, is left out: a frame may come in
during any turn. Of the callbacks of `Radio.IrqProcess`, the others only set that flag.
-/

import RadioDoge.Heltec.Firmware
import RadioDoge.Lib.LoggedRun

namespace RadioDoge.Heltec

open V3 (RxBuffer controlSize slice)

/-- What one turn of the loop finds: the bytes of a command of the host, and the frame with
which `Radio.IrqProcess` calls `OnRxDone`. -/
structure Turn where
  serial : Option Bytes
  received : Option Bytes
  deriving DecidableEq, Repr

/-- The function that has an effect: `SendACK`, `HostSerialRead` with the bytes it reads, or
`OnRxDone`. -/
inductive Cause
  | sendAck
  | hostSerialRead (serial : Bytes)
  | onRxDone

/-- An entry of the log. -/
structure Entry where
  cause : Cause
  effects : List Effect

/-- The node has started again. -/
def Restarts (log : List Entry) : Prop := ∃ entry ∈ log, .abort ∈ entry.effects

instance (log : List Entry) : Decidable (Restarts log) :=
  inferInstanceAs (Decidable (∃ entry ∈ log, _))

namespace Node

/-- The acknowledgement at the beginning of `CommandAndControlLoop`. -/
def sendPendingAck (node : Node) : Node × List Entry :=
  if node.needToSendAck then
    let sent := V3.sendAck node.controlPacket node.dest
    ({ node with controlPacket := sent.1, needToSendAck := false },
      [⟨.sendAck, [.transmit sent.2, .host hostAck]⟩])
  else (node, [])

/-- `if (Serial.available() > 0) HostSerialRead();` -/
def readHost (serial : Option Bytes) (node : Node) : Node × List Entry :=
  match serial with
  | some bytes =>
      let read := node.hostSerialRead bytes
      (read.1, [⟨.hostSerialRead bytes, read.2⟩])
  | none => (node, [])

/-- `Radio.IrqProcess`. -/
def irqProcess (received : Option Bytes) (node : Node) : Node × List Entry :=
  match received with
  | some payload =>
      let heard := node.onRxDone payload
      (heard.1, [⟨.onRxDone, heard.2⟩])
  | none => (node, [])

/-- `CommandAndControlLoop`. -/
def commandAndControlLoop (node : Node) (turn : Turn) : Node × List Entry :=
  let acked := node.sendPendingAck
  let commanded := acked.1.readHost turn.serial
  if Restarts commanded.2 then (commanded.1, acked.2 ++ commanded.2)
  else
    let heard := commanded.1.irqProcess turn.received
    (heard.1, acked.2 ++ (commanded.2 ++ heard.2))

/-- A run of the loop. -/
def run (node : Node) (turns : List Turn) : Node × List Entry :=
  LoggedRun.run commandAndControlLoop node turns

end Node

/-! ## Reading the log -/

/-- The frames that `SendACK` transmits. -/
def acks (log : List Entry) : List Bytes :=
  log.flatMap fun entry =>
    match entry.cause with
    | .sendAck => transmissions entry.effects
    | .hostSerialRead _ | .onRxDone => []

/-- The replies written to the host, each with the command that it is written for. What
`OnRxDone` writes are received packets, and no replies. -/
def replies (log : List Entry) : List (Option Bytes × Bytes) :=
  log.flatMap fun entry =>
    match entry.cause with
    | .hostSerialRead serial => (hostWrites entry.effects).map (some serial, ·)
    | .sendAck => (hostWrites entry.effects).map (none, ·)
    | .onRxDone => []

section Append

variable (first second : List Entry)

theorem acks_append : acks (first ++ second) = acks first ++ acks second := List.flatMap_append

theorem replies_append : replies (first ++ second) = replies first ++ replies second :=
  List.flatMap_append

end Append

/-! ## Pings that are accepted -/

/-- The frame in the buffer is a ping that `CheckIfPacketForMe` accepts. -/
def AcceptedPing (localAddress : NodeAddress) (rx : RxBuffer) : Prop :=
  Node.checkIfPacketFor localAddress rx = true ∧ packetKind (rx.byte 0) = .ping

instance (localAddress : NodeAddress) (rx : RxBuffer) : Decidable (AcceptedPing localAddress rx) :=
  inferInstanceAs (Decidable (_ ∧ _))

/-- The acknowledgement that is still to be sent. -/
def Node.pending (node : Node) : List NodeAddress := if node.needToSendAck then [node.dest] else []

/-- The source of the frame that comes in during a turn, bytes 2 to 4 of it, if it is a ping that
is accepted at the local address in force. Nothing comes in behind a command that aborts. -/
def Node.pinged (node : Node) (turn : Turn) : List NodeAddress :=
  let commanded := node.sendPendingAck.1.readHost turn.serial
  if Restarts commanded.2 then []
  else
    match turn.received with
    | some payload =>
        let rx := commanded.1.rx.onRxDone payload
        if AcceptedPing commanded.1.localAddress rx then [⟨rx.byte 2, rx.byte 3, rx.byte 4⟩] else []
    | none => []

/-- The sources of all accepted pings of a run, in the order of reception. -/
def Node.acceptedPings (node : Node) : List Turn → List NodeAddress
  | [] => []
  | turn :: rest => node.pinged turn ++ (node.commandAndControlLoop turn).1.acceptedPings rest

/-! ## The control packet -/

/-- The control packet carries the local address as its source. -/
def Node.SourceSet (node : Node) : Prop := slice node.controlPacket 2 3 = node.localAddress.bytes

/-- `SendPing` and `SendACK` leave the source alone. -/
theorem source_sendControl (kind : MessageType) (controlPacket : Vector UInt8 controlSize)
    (destination : NodeAddress) :
    slice (V3.sendControl kind controlPacket destination).1 2 3 = slice controlPacket 2 3 := by
  have hfirst : slice (controlPacket.setIfInBounds 0 kind.code) 2 3 = slice controlPacket 2 3 :=
    V3.slice_memcpy_disjoint controlPacket 0 [kind.code] 2 3 (by decide) (.inr (Nat.le_succ 1))
  rw [← hfirst]
  exact V3.slice_memcpy_disjoint _ 5 destination.bytes 2 3 (by decide) (.inl (by decide))

/-- `InitControlMessages` sets it. -/
theorem source_initControlMessages (localAddress : NodeAddress)
    (controlPacket : Vector UInt8 controlSize) :
    slice (V3.initControlMessages localAddress controlPacket) 2 3 = localAddress.bytes := by
  have htwice := memcpy_append [MessageType.unknown.code, 6] localAddress.bytes controlPacket 0
  rw [V3.initControlMessages]
  exact (congrArg (slice · 2 3) htwice).symm.trans
    (V3.slice_memcpy _ 2 3 localAddress.bytes le_rfl (by decide))

/-- A control frame from a packet that carries the source. -/
theorem Node.SourceSet.frame {node : Node} (h : node.SourceSet) (kind : MessageType)
    (destination : NodeAddress) :
    ∃ size, (V3.sendControl kind node.controlPacket destination).2 =
      kind.code :: size :: node.localAddress.bytes ++ destination.bytes := by
  have hsize : ∃ size, slice node.controlPacket 1 1 = [size] :=
    List.length_eq_one_iff.mp (V3.length_slice _ (by decide))
  rcases hsize with ⟨size, hsize⟩
  refine ⟨size, ?_⟩
  rw [V3.frame_sendControl, V3.slice_append _ 1 1 3, hsize, h]
  rfl

/-- What every command of the host leaves as it is. -/
theorem Node.performCommand_keeps {node : Node} (h : node.SourceSet)
    (commandVal payloadSize : UInt8) :
    (node.performCommand commandVal payloadSize).1.SourceSet ∧
      (node.performCommand commandVal payloadSize).1.needToSendAck = node.needToSendAck := by
  rw [performCommand]
  cases SerialCommand.ofCode? commandVal with
  | none => exact ⟨h, rfl⟩
  | some command =>
      cases command with
      | addressSet => exact ⟨source_initControlMessages _ _, rfl⟩
      | pingRequest => exact ⟨(source_sendControl .ping _ _).trans h, rfl⟩
      | messageRequest =>
          simp only
          split
          · exact ⟨h, rfl⟩
          · exact ⟨h, rfl⟩
      | none => exact ⟨h, rfl⟩
      | addressGet => exact ⟨h, rfl⟩
      | hardwareInfo => exact ⟨h, rfl⟩
      | broadcastMessage => exact ⟨h, rfl⟩
      | displayControl => exact ⟨h, rfl⟩
      | hostFormedPacket => exact ⟨h, rfl⟩
      | multipartPacket => exact ⟨h, rfl⟩
      | resultCode => exact ⟨h, rfl⟩

/-- After a reset the source is set. -/
theorem Node.sourceSet_boot (boardVersion : UInt8) : (boot boardVersion).SourceSet := by
  have hzero : slice (Vector.replicate controlSize (0 : UInt8)) 2 3 = [0, 0, 0] := by decide
  exact hzero

/-- A node that starts again has nothing to acknowledge, either. -/
theorem Node.restarting_keeps {result : Node × List Effect}
    (h : result.1.SourceSet) (boardVersion : UInt8) :
    (restarting (boot boardVersion) result).1.SourceSet ∧
      (result.1.needToSendAck = false →
        (restarting (boot boardVersion) result).1.needToSendAck = false) := by
  rw [restarting]
  split
  · exact ⟨sourceSet_boot boardVersion, fun _ => rfl⟩
  · exact ⟨h, id⟩

/-- So does `HostSerialRead`, whatever it reads. -/
theorem Node.hostSerialRead_keeps {node : Node} (h : node.SourceSet)
    (hneed : node.needToSendAck = false) (serial : Bytes) :
    (node.hostSerialRead serial).1.SourceSet ∧
      (node.hostSerialRead serial).1.needToSendAck = false := by
  have hread : (node.readCommand serial).1.SourceSet ∧
      (node.readCommand serial).1.needToSendAck = node.needToSendAck := by
    cases serial with
    | nil => exact ⟨h, rfl⟩
    | cons commandVal rest =>
        cases rest with
        | nil => exact ⟨h, rfl⟩
        | cons payloadSize arrived =>
            rw [readCommand]
            split
            · exact ⟨h, rfl⟩
            · have hread : (node.readSerialPayload (arrived.take payloadSize.toNat)).SourceSet := h
              exact performCommand_keeps hread commandVal payloadSize
  rcases restarting_keeps hread.1 node.boardVersion with ⟨hsource, hclear⟩
  exact ⟨hsource, hclear (hread.2.trans hneed)⟩

/-! ## One turn -/

/-- The address at bytes 2 to 4 of a frame. -/
def sourceOf (frame : Bytes) : NodeAddress :=
  ⟨frame[2]?.getD 0, frame[3]?.getD 0, frame[4]?.getD 0⟩

/-- The address at bytes 5 to 7 of a frame. -/
def destinationOf (frame : Bytes) : NodeAddress :=
  ⟨frame[5]?.getD 0, frame[6]?.getD 0, frame[7]?.getD 0⟩

/-- An acknowledgement of eight bytes, from this address. -/
structure AckFrom (localAddress : NodeAddress) (frame : Bytes) : Prop where
  length : frame.length = controlSize
  kind : frame.head? = some MessageType.ack.code
  source : sourceOf frame = localAddress

namespace Node

variable {node : Node}

/-- The pending acknowledgement is sent, to the source of its ping. -/
theorem sendPendingAck_spec (h : node.SourceSet) :
    (node.sendPendingAck.1.SourceSet ∧ node.sendPendingAck.1.needToSendAck = false) ∧
      (acks node.sendPendingAck.2).map destinationOf = node.pending ∧
        ∀ ack ∈ acks node.sendPendingAck.2, AckFrom node.localAddress ack := by
  rw [sendPendingAck, pending]
  by_cases hneed : node.needToSendAck = true
  · rw [if_pos hneed, if_pos hneed]
    rcases h.frame .ack node.dest with ⟨size, hframe⟩
    have hacks : acks [⟨.sendAck, [.transmit (V3.sendAck node.controlPacket node.dest).2,
        .host hostAck]⟩] =
          [MessageType.ack.code :: size :: node.localAddress.bytes ++ node.dest.bytes] := by
      rw [← hframe]
      rfl
    rw [hacks]
    refine ⟨⟨(source_sendControl .ack _ _).trans h, rfl⟩, rfl, ?_⟩
    intro ack hmem
    rw [List.mem_singleton.mp hmem]
    exact ⟨rfl, rfl, rfl⟩
  · rw [if_neg hneed, if_neg hneed]
    exact ⟨⟨h, Bool.eq_false_iff.mpr hneed⟩, rfl, fun ack hmem => absurd hmem List.not_mem_nil⟩

/-- A command acknowledges nothing. -/
theorem readHost_spec (h : node.SourceSet) (hneed : node.needToSendAck = false)
    (serial : Option Bytes) :
    ((node.readHost serial).1.SourceSet ∧ (node.readHost serial).1.needToSendAck = false) ∧
      acks (node.readHost serial).2 = [] := by
  cases serial with
  | none => exact ⟨⟨h, hneed⟩, rfl⟩
  | some bytes => exact ⟨hostSerialRead_keeps h hneed bytes, rfl⟩

/-- What `ParseReceivedMessage` keeps, and what it does with a ping. -/
theorem parseReceivedMessage_cases (node : Node) :
    (node.parseReceivedMessage.1.controlPacket = node.controlPacket ∧
        node.parseReceivedMessage.1.localAddress = node.localAddress) ∧
      if AcceptedPing node.localAddress node.rx then
        .abort ∉ node.parseReceivedMessage.2 ∧ node.parseReceivedMessage.1.needToSendAck = true ∧
          node.parseReceivedMessage.1.dest = ⟨node.rx.byte 2, node.rx.byte 3, node.rx.byte 4⟩
      else node.parseReceivedMessage.1.needToSendAck = node.needToSendAck := by
  rw [parseReceivedMessage]
  by_cases hforMe : checkIfPacketFor node.localAddress node.rx = true
  · rw [if_pos hforMe]
    have hother : ∀ kind, packetKind (node.rx.byte 0) = kind → kind ≠ .ping →
        ¬ AcceptedPing node.localAddress node.rx :=
      fun kind hkind hne h => hne (hkind.symm.trans h.2)
    cases hkind : packetKind (node.rx.byte 0) with
    | ping =>
        have haccepted : AcceptedPing node.localAddress node.rx := ⟨hforMe, hkind⟩
        rw [if_pos haccepted]
        exact ⟨⟨rfl, rfl⟩, List.not_mem_nil, rfl, rfl⟩
    | ack =>
        rw [if_neg (hother _ hkind (by decide))]
        exact ⟨⟨rfl, rfl⟩, rfl⟩
    | message =>
        rw [if_neg (hother _ hkind (by decide))]
        exact ⟨⟨rfl, rfl⟩, rfl⟩
    | transaction =>
        rw [if_neg (hother _ hkind (by decide))]
        exact ⟨⟨rfl, rfl⟩, rfl⟩
    | broadcast =>
        rw [if_neg (hother _ hkind (by decide))]
        exact ⟨⟨rfl, rfl⟩, rfl⟩
    | hostFormedPacket =>
        rw [if_neg (hother _ hkind (by decide))]
        exact ⟨⟨rfl, rfl⟩, rfl⟩
    | multipartPacket =>
        rw [if_neg (hother _ hkind (by decide))]
        exact ⟨⟨rfl, rfl⟩, rfl⟩
    | other =>
        rw [if_neg (hother _ hkind (by decide))]
        exact ⟨⟨rfl, rfl⟩, rfl⟩
  · rw [if_neg hforMe]
    have hno : ¬ AcceptedPing node.localAddress node.rx := fun h => hforMe h.1
    rw [if_neg hno]
    split
    · exact ⟨⟨rfl, rfl⟩, rfl⟩
    · exact ⟨⟨rfl, rfl⟩, rfl⟩

/-- A ping that is accepted becomes the pending acknowledgement. -/
theorem irqProcess_spec (h : node.SourceSet) (hneed : node.needToSendAck = false)
    (received : Option Bytes) :
    ((node.irqProcess received).1.SourceSet ∧ acks (node.irqProcess received).2 = []) ∧
      (node.irqProcess received).1.pending =
        match received with
        | some payload =>
            if AcceptedPing node.localAddress (node.rx.onRxDone payload) then
              [⟨(node.rx.onRxDone payload).byte 2, (node.rx.onRxDone payload).byte 3,
                (node.rx.onRxDone payload).byte 4⟩]
            else []
        | none => [] := by
  cases received with
  | none =>
      refine ⟨⟨h, rfl⟩, ?_⟩
      rw [irqProcess, pending, hneed]
      rfl
  | some payload =>
      let heard : Node := { node with rx := node.rx.onRxDone payload }
      rcases heard.parseReceivedMessage_cases with ⟨⟨hpacket, haddress⟩, hping⟩
      have hsource : heard.parseReceivedMessage.1.SourceSet := by
        rw [SourceSet, hpacket, haddress]
        exact h
      rcases restarting_keeps hsource node.boardVersion with ⟨hkept, hclear⟩
      refine ⟨⟨hkept, rfl⟩, ?_⟩
      change (restarting (boot node.boardVersion) heard.parseReceivedMessage).1.pending =
        if AcceptedPing heard.localAddress heard.rx then
          [⟨heard.rx.byte 2, heard.rx.byte 3, heard.rx.byte 4⟩]
        else []
      by_cases haccepted : AcceptedPing heard.localAddress heard.rx
      · rw [if_pos haccepted] at hping
        rw [if_pos haccepted, restarting_of_return hping.1, pending, if_pos hping.2.1, hping.2.2]
      · rw [if_neg haccepted] at hping
        rw [if_neg haccepted, pending, hclear (hping.trans hneed)]
        rfl

/-- **One turn.** The acknowledgement that was pending is sent, and the ping that is accepted is
pending. -/
theorem commandAndControlLoop_spec (h : node.SourceSet) (turn : Turn) :
    (node.commandAndControlLoop turn).1.SourceSet ∧
      (acks (node.commandAndControlLoop turn).2).map destinationOf = node.pending ∧
      (∀ ack ∈ acks (node.commandAndControlLoop turn).2, AckFrom node.localAddress ack) ∧
      (node.commandAndControlLoop turn).1.pending = node.pinged turn := by
  rcases sendPendingAck_spec h with ⟨⟨hacked, hclear⟩, hdestinations, hformed⟩
  rcases readHost_spec hacked hclear turn.serial with ⟨⟨hcommanded, hstill⟩, hnone⟩
  rw [commandAndControlLoop, pinged]
  by_cases hrestarts : Restarts (node.sendPendingAck.1.readHost turn.serial).2
  · simp only [if_pos hrestarts]
    rw [acks_append, hnone, List.append_nil]
    refine ⟨hcommanded, hdestinations, hformed, ?_⟩
    rw [pending, hstill]
    rfl
  · simp only [if_neg hrestarts]
    rcases irqProcess_spec hcommanded hstill turn.received with ⟨⟨hheard, hlast⟩, hpending⟩
    rw [acks_append, acks_append, hnone, hlast, List.append_nil, List.append_nil]
    exact ⟨hheard, hdestinations, hformed, hpending⟩

end Node

/-! ## Runs -/

/-- The acknowledgements of a run, behind the one that was pending before. -/
theorem Node.acks_run {node : Node} (h : node.SourceSet) (turns : List Turn) :
    (acks (node.run turns).2).map destinationOf ++ (node.run turns).1.pending =
      node.pending ++ node.acceptedPings turns := by
  induction turns generalizing node with
  | nil => exact (List.append_nil _).symm
  | cons turn rest ih =>
      rcases commandAndControlLoop_spec h turn with ⟨hnext, hdestinations, -, hpending⟩
      have hrun : (acks (node.run (turn :: rest)).2).map destinationOf ++
          (node.run (turn :: rest)).1.pending =
            (acks (node.commandAndControlLoop turn).2).map destinationOf ++
              ((acks ((node.commandAndControlLoop turn).1.run rest).2).map destinationOf ++
                ((node.commandAndControlLoop turn).1.run rest).1.pending) := by
        rw [← List.append_assoc, ← List.map_append, ← acks_append]
        rfl
      rw [hrun, hdestinations, ih hnext, hpending]
      rfl

/-- **Pings and acknowledgements.** In every run from a reset, the acknowledgements that have
been sent and the one that is pending go, in order, to the sources of the pings that have come in
and been accepted; and each was sent from the local address in force at the time. -/
theorem acks_match_pings (boardVersion : UInt8) (turns : List Turn) :
    let start := Node.boot boardVersion
    (acks (start.run turns).2).map destinationOf ++ (start.run turns).1.pending =
        start.acceptedPings turns ∧
      ∀ (n : Nat) (turn : Turn), turns[n]? = some turn →
        ∀ ack ∈ acks ((start.run (turns.take n)).1.commandAndControlLoop turn).2,
          AckFrom (start.run (turns.take n)).1.localAddress ack := by
  intro start
  have hstart : start.SourceSet := Node.sourceSet_boot boardVersion
  apply And.intro
  · exact Node.acks_run hstart turns
  · intro n turn _
    have hbefore : (start.run (turns.take n)).1.SourceSet :=
      LoggedRun.run_induction (P := fun (node : Node) _ => node.SourceSet) hstart
        fun node _ turn _ h => (Node.commandAndControlLoop_spec h turn).1
    exact (Node.commandAndControlLoop_spec hbefore turn).2.2.1

end RadioDoge.Heltec
