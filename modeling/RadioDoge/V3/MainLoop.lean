/-
# The main loop of the v3 firmware

One turn of `loop` serves a web request, drops expired sessions, looks after the request queue,
and then enters `CommandAndControlLoop`: the acknowledgement that is pending, receive mode if
the radio is idle, a command of the host, and last `Radio.IrqProcess` with the callbacks. A turn
is given as the list of these steps, and a run as the run of all its steps.

What the web handlers and the queue do with the radio is a series of calls (`RadioCalls`). The
internet bridge does nothing with it, and the displays and the log are left out.

A command or a packet upon which the firmware aborts is followed by `setup`. Nothing comes of what
the radio would have reported in the same turn, so such a turn is given without it.
-/

import RadioDoge.V3.WebInterface

namespace RadioDoge.V3

/-! ## The steps -/

namespace Device

/-- One event of the request queue, with the senders that it calls. -/
def dispatch (device : Device) (input : QueueInput) : Device × List RadioEntry :=
  let stepped := device.queue.step input
  { device with queue := stepped.1 }.performAll ((senderCalls stepped.2).map .sender)

/-- `CleanupExpiredMultipartSessions`. -/
def cleanup (device : Device) (now : UInt32) : Device :=
  { device with node := device.node.cleanup now }

/-- The acknowledgement at the beginning of `CommandAndControlLoop`. -/
def sendPendingAck (device : Device) : Device × List RadioEntry :=
  if device.node.needToSendAck then
    let cleared := { device with node := { device.node with needToSendAck := false } }.record
      [.setIdle false, .answered (V3.sendAck device.controlPacket device.node.dest).2]
    let sent := cleared.1.sendControl .ack device.node.dest
    (sent.1, cleared.2 ++ sent.2)
  else (device, [])

/-- The radio is put into receive mode. -/
def enterRx (device : Device) : Device × List RadioEntry :=
  if device.radio.isLoRaIdle then device.record [.setIdle false, .listen] else (device, [])

/-- The device as `HostSerialRead` sees it. -/
def toHost (device : Device) : Heltec.Node where
  boardVersion := 3
  localAddress := device.node.localAddress
  dest := device.node.dest
  controlPacket := device.controlPacket
  serialBuf := device.node.serialBuf
  rx := device.node.receiver.rx
  needToSendAck := device.node.needToSendAck

/-- The device that `HostSerialRead` leaves behind. -/
def withHost (device : Device) (host : Heltec.Node) : Device :=
  { device with
    node := { device.node with
      localAddress := host.localAddress, dest := host.dest, serialBuf := host.serialBuf }
    controlPacket := host.controlPacket }

/-- What a command of the host does with the radio. Only `SendPing` clears `isLoRaIdle`. -/
def hostEntries (serial : Bytes) (effects : List Heltec.Effect) : List RadioEntry :=
  (Heltec.transmissions effects).flatMap fun frame =>
    if serial.head? = some SerialCommand.pingRequest.code then [.setIdle false, .send frame]
    else [.send frame]

/-- What has been done, and behind it a start. -/
def andRestart (done : Device × List RadioEntry) (found : Found) : Device × List RadioEntry :=
  ((done.1.restart found).1, done.2 ++ (done.1.restart found).2)

/-- `if (Serial.available() > 0) HostSerialRead();` -/
def readHost (device : Device) (found : Found) (serial : Bytes) : Device × List RadioEntry :=
  if serial.length > 0 then
    let read := hostSerialRead serial device.toHost
    let done := (device.withHost read.1).record (hostEntries serial read.2)
    if .abort ∈ read.2 then andRestart done found else done
  else (device, [])

/-- `CommandAndControlLoop`, up to `Radio.IrqProcess`. -/
def control (device : Device) (found : Found) (serial : Bytes) : Device × List RadioEntry :=
  let acked := device.sendPendingAck
  let listening := acked.1.enterRx
  let commanded := listening.1.readHost found serial
  (commanded.1, acked.2 ++ (listening.2 ++ commanded.2))

end Device

/-- The source of a packet, if it is a ping that `ParseReceivedMessage` accepts. -/
def Node.pingedBy (node : Node) (payload : Bytes) : Option NodeAddress :=
  let rx := node.receiver.rx.onRxDone payload
  if checkIfPacketForMe node.localAddress rx = true ∧ packetKind (rx.byte 0) = .ping then
    some rx.pingSource
  else none

/-- What comes of a packet, at the device. A multipart sender that answers a packet sets
`isLoRaIdle` at its end; so does `OnRxDone`, before anything else reads it. -/
def Effect.perform (sent : UInt32) (device : Device) : Effect → Device × List RadioEntry
  | .transmit frame => device.record [.send frame]
  | .handleConfirmationReceived data => device.dispatch (.confirmation data sent)
  | .host _ | .submit _ | .post _ | .abort => (device, [])

/-- A callback of the radio. How many of the transmissions that wait are reported at once is up
to the radio. -/
inductive RadioCallback
  | txDone (count : Nat)
  | txTimeout (count : Nat)
  | rxTimeout
  | rxDone (world : World) (now sent : UInt32) (payload : Bytes)

namespace Device

/-- What `ParseReceivedMessage` leaves in the node; a ping that is accepted is logged. -/
def hear (device : Device) (world : World) (now : UInt32) (payload : Bytes) :
    Device × List RadioEntry :=
  { device with node := (device.node.receive world now payload).val.1 }.record
    ((device.node.pingedBy payload).toList.map .pinged)

/-- `ParseReceivedMessage`. -/
def parse (device : Device) (world : World) (now sent : UInt32) (payload : Bytes) :
    Device × List RadioEntry :=
  let heard := device.hear world now payload
  let handled := LoggedRun.run (Effect.perform sent) heard.1
    (device.node.receive world now payload).val.2
  (handled.1, heard.2 ++ handled.2)

/-- The firmware aborts upon this packet. -/
def Aborts (device : Device) (world : World) (now : UInt32) (payload : Bytes) : Prop :=
  .abort ∈ (device.node.receive world now payload).val.2

instance (device : Device) (world : World) (now : UInt32) (payload : Bytes) :
    Decidable (device.Aborts world now payload) :=
  inferInstanceAs (Decidable (_ ∈ _))

/-- `OnRxDone`. -/
def onRxDone (device : Device) (found : Found) (world : World) (now sent : UInt32)
    (payload : Bytes) : Device × List RadioEntry :=
  let parsed := device.parse world now sent payload
  if device.Aborts world now payload then andRestart parsed found
  else
    let idle := parsed.1.record [.setIdle true]
    (idle.1, parsed.2 ++ idle.2)

/-- The callback. -/
def callback (device : Device) (found : Found) : RadioCallback → Device × List RadioEntry
  | .txDone count | .txTimeout count => device.record [.txReported count, .setIdle true]
  | .rxTimeout => device.record [.setIdle true]
  | .rxDone world now sent payload => device.onRxDone found world now sent payload

end Device

/-- A step of the loop. -/
inductive LoopStep
  | handleClient (request : Option WebCall)
  | cleanup (now : UInt32)
  | checkRequestTimeouts (currentTime sent : UInt32)
  /-- `CommandAndControlLoop`, up to `Radio.IrqProcess`. -/
  | control (found : Found) (serial : Bytes)
  | callback (found : Found) (event : RadioCallback)

/-- What a step does. -/
def LoopStep.perform (device : Device) : LoopStep → Device × List RadioEntry
  | .handleClient (some request) => request.handle device
  | .handleClient none => (device, [])
  | .cleanup now => (device.cleanup now, [])
  | .checkRequestTimeouts currentTime sent => device.dispatch (.check currentTime sent)
  | .control found serial => device.control found serial
  | .callback found event => device.callback found event

/-- What one turn of `loop` finds, and what `setup` would find in it. -/
structure LoopTurn where
  request : Option WebCall
  now : UInt32
  currentTime : UInt32
  sent : UInt32
  serial : Bytes
  events : List RadioCallback
  found : Found

/-- The steps of a turn. -/
def LoopTurn.steps (turn : LoopTurn) : List LoopStep :=
  [.handleClient turn.request, .cleanup turn.now,
    .checkRequestTimeouts turn.currentTime turn.sent, .control turn.found turn.serial] ++
    turn.events.map (.callback turn.found)

namespace Device

/-- `loop`. -/
def loop (device : Device) (turn : LoopTurn) : Device × List RadioEntry :=
  LoggedRun.run LoopStep.perform device turn.steps

/-- A run of `loop`. -/
def run (device : Device) (turns : List LoopTurn) : Device × List RadioEntry :=
  LoggedRun.run loop device turns

/-- A run of `loop` is the run of its steps. -/
theorem run_eq (device : Device) (turns : List LoopTurn) :
    device.run turns = LoggedRun.run LoopStep.perform device (turns.flatMap LoopTurn.steps) :=
  LoggedRun.run_flatMap LoopStep.perform LoopTurn.steps device turns

end Device

/-! ## The radio follows the log -/

/-- What was logged is what has happened to the radio. -/
def Follows (before : Device) (result : Device × List RadioEntry) : Prop :=
  result.1.radio = before.radio.afterAll result.2

namespace Follows

variable {device : Device}

/-- Nothing has happened. -/
theorem refl (device : Device) : Follows device (device, []) := rfl

/-- One thing after the other. -/
theorem trans {first second : Device × List RadioEntry} (hfirst : Follows device first)
    (hsecond : Follows first.1 second) : Follows device (second.1, first.2 ++ second.2) := by
  rw [Follows, RadioState.afterAll_append, ← hfirst]
  exact hsecond

/-- A run of things, each of which is logged. -/
theorem run {I : Type} {step : Device → I → Device × List RadioEntry}
    (hstep : ∀ device input, Follows device (step device input)) (inputs : List I) :
    Follows device (LoggedRun.run step device inputs) := by
  induction inputs generalizing device with
  | nil => exact refl device
  | cons input rest ih => exact trans (hstep device input) ih

end Follows

namespace Device

variable (device : Device)

theorem follows_record (entries : List RadioEntry) : Follows device (device.record entries) := rfl

theorem follows_performAll (calls : List RadioCall) :
    Follows device (device.performAll calls) :=
  (device.performAll_onlyTransmits calls).radio

theorem follows_dispatch (input : QueueInput) : Follows device (device.dispatch input) :=
  follows_performAll { device with queue := (device.queue.step input).1 } _

theorem follows_sendPendingAck : Follows device device.sendPendingAck := by
  rw [sendPendingAck]
  split
  · exact Follows.trans (follows_record _ _) (follows_record _ _)
  · exact Follows.refl device

theorem follows_enterRx : Follows device device.enterRx := by
  rw [enterRx]
  split
  · exact follows_record device _
  · exact Follows.refl device

/-- A start, too. -/
theorem follows_andRestart (found : Found) {done : Device × List RadioEntry}
    (h : Follows device done) : Follows device (andRestart done found) :=
  h.trans rfl

theorem follows_readHost (found : Found) (serial : Bytes) :
    Follows device (device.readHost found serial) := by
  rw [readHost]
  split
  · simp only
    split
    · exact follows_andRestart device found rfl
    · rfl
  · exact Follows.refl device

theorem follows_control (found : Found) (serial : Bytes) :
    Follows device (device.control found serial) :=
  Follows.trans device.follows_sendPendingAck
    (Follows.trans (follows_enterRx _) (follows_readHost _ found serial))

/-- What comes of a packet, too. -/
theorem follows_effect (sent : UInt32) (effect : Effect) :
    Follows device (effect.perform sent device) := by
  cases effect with
  | transmit frame => rfl
  | handleConfirmationReceived data => exact device.follows_dispatch _
  | host bytes => exact Follows.refl device
  | submit call => exact Follows.refl device
  | post request => exact Follows.refl device
  | abort => exact Follows.refl device

theorem follows_hear (world : World) (now : UInt32) (payload : Bytes) :
    Follows device (device.hear world now payload) :=
  follows_record { device with node := (device.node.receive world now payload).val.1 } _

theorem follows_parse (world : World) (now sent : UInt32) (payload : Bytes) :
    Follows device (device.parse world now sent payload) :=
  (device.follows_hear world now payload).trans
    (Follows.run (fun device effect => device.follows_effect sent effect) _)

theorem follows_onRxDone (found : Found) (world : World) (now sent : UInt32) (payload : Bytes) :
    Follows device (device.onRxDone found world now sent payload) := by
  have hparsed := device.follows_parse world now sent payload
  rw [onRxDone]
  split
  · exact follows_andRestart device found hparsed
  · exact hparsed.trans (follows_record _ _)

end Device

/-- Every step follows its log. -/
theorem LoopStep.follows_perform (device : Device) (step : LoopStep) :
    Follows device (step.perform device) := by
  cases step with
  | handleClient request =>
      cases request with
      | none => exact Follows.refl device
      | some request =>
          have hcalls := (request.configure device).follows_performAll (request.calls device)
          rw [Follows, (request.configure_keeps device).2.2] at hcalls
          exact hcalls
  | cleanup now => exact Follows.refl device
  | checkRequestTimeouts currentTime sent => exact device.follows_dispatch _
  | control found serial => exact device.follows_control found serial
  | callback found event =>
      cases event with
      | txDone count => exact device.follows_record _
      | txTimeout count => exact device.follows_record _
      | rxTimeout => exact device.follows_record _
      | rxDone world now sent payload => exact device.follows_onRxDone found world now sent payload

end RadioDoge.V3
