/-
# Calls that use the radio

Web handlers, the request queue and the receive callback transmit by a few senders. Each of
them is given here with all that it does to the globals which they share: the destination
`dest`, the two send buffers, and `isLoRaIdle`, which some senders clear, some leave alone and
some set at their end. What happens to the flag and to the radio is logged, instant by instant.
-/

import RadioDoge.Lib.LoggedRun
import RadioDoge.V3.HostFrames
import RadioDoge.V3.RequestQueue

namespace RadioDoge.V3

/-! ## The radio -/

/-- What is done to `isLoRaIdle` and to the radio, and what the radio reports. -/
inductive RadioEntry
  /-- `isLoRaIdle = value`. -/
  | setIdle (value : Bool)
  /-- `Radio.Send`. -/
  | send (frame : Bytes)
  /-- `Radio.Rx(0)`. -/
  | listen
  /-- `OnTxDone` or `OnTxTimeout`, for `count` of the transmissions. -/
  | txReported (count : Nat)
  /-- `needToSendACK` is set for a ping from `source`. -/
  | pinged (source : NodeAddress)
  /-- `SendACK` is called because `needToSendACK` is set, and builds `frame`. -/
  | answered (frame : Bytes)
  /-- The firmware has aborted, and `setup` has run: the radio is initialised. -/
  | restarted
  deriving DecidableEq, Repr

/-- `isLoRaIdle`, and the number of calls of `Radio.Send` that wait for their `OnTxDone` or
`OnTxTimeout`. -/
structure RadioState where
  isLoRaIdle : Bool
  waiting : Nat
  deriving DecidableEq, Repr

namespace RadioState

/-- What one entry changes. -/
def after (radio : RadioState) : RadioEntry → RadioState
  | .setIdle value => { radio with isLoRaIdle := value }
  | .send _ => { radio with waiting := radio.waiting + 1 }
  | .txReported count => { radio with waiting := radio.waiting - count }
  | .restarted => ⟨true, 0⟩
  | .listen | .pinged _ | .answered _ => radio

/-- What a log changes. -/
def afterAll (radio : RadioState) (log : List RadioEntry) : RadioState := log.foldl after radio

theorem afterAll_append (radio : RadioState) (first second : List RadioEntry) :
    radio.afterAll (first ++ second) = (radio.afterAll first).afterAll second :=
  List.foldl_append

end RadioState

/-! ## The device -/

/-- A queue that the functions of the queue have made. -/
def LiveQueue : Type := { q : RequestQueue // ∃ log, QueueSound q log }

namespace LiveQueue

/-- The queue after a reset. -/
def boot : LiveQueue := ⟨RequestQueue.boot, [], queueSound_boot⟩

/-- One event. One level of calls is enough. -/
def step (queue : LiveQueue) (input : QueueInput) : LiveQueue × List QueueEntry :=
  match h : queue.val.step 1 input with
  | some next => (⟨next.1, by
      rcases queue.property with ⟨log, hsound⟩
      rcases step_spec hsound 0 input with ⟨q, entries, hstep, hnext, -⟩
      rw [hstep] at h
      rcases Option.some.inj h with rfl
      exact ⟨_, hnext⟩⟩, next.2)
  | none => absurd h (by
      rcases queue.property with ⟨log, hsound⟩
      rcases step_spec hsound 0 input with ⟨q, entries, hstep, -⟩
      rw [hstep]
      exact Option.some_ne_none _)

end LiveQueue

/-- The calls of the senders, for the requests that are handed over. -/
def senderCalls (entries : List QueueEntry) : List SenderCall :=
  (Ledger.served entries).map PendingRequest.senderCall

/-- What the firmware keeps between two steps of its loop. -/
structure Device where
  node : Node
  controlPacket : Vector UInt8 controlSize
  radio : RadioState
  queue : LiveQueue

namespace Device

/-- The state after `setup`. -/
def boot (localAddress : NodeAddress) (gateway : GatewayConfig) (internetConnected : Bool) :
    Device where
  node :=
    { localAddress := localAddress
      dest := ⟨0, 0, 0⟩
      gateway := gateway
      internetConnected := internetConnected
      serialBuf := Vector.replicate bufferSize 0
      receiver := Receiver.boot
      needToSendAck := false }
  controlPacket := initControlMessages localAddress (Vector.replicate controlSize 0)
  radio := ⟨true, 0⟩
  queue := LiveQueue.boot

/-- The firmware starts again. Every change of the address has been stored. -/
def restart (device : Device) (found : Found) : Device × List RadioEntry :=
  (boot device.node.localAddress found.gateway found.internetConnected, [.restarted])

/-- The entries are logged, and change the radio. -/
def record (device : Device) (entries : List RadioEntry) : Device × List RadioEntry :=
  ({ device with radio := device.radio.afterAll entries }, entries)

/-- The device with another destination. -/
def withDest (device : Device) (dest : NodeAddress) : Device :=
  { device with node := { device.node with dest := dest } }

/-- The device with another send buffer. -/
def withSerialBuf (device : Device) (serialBuf : Vector UInt8 bufferSize) : Device :=
  { device with node := { device.node with serialBuf := serialBuf } }

/-- `SendPing` and `SendACK`. -/
def sendControl (device : Device) (kind : MessageType) (destination : NodeAddress) :
    Device × List RadioEntry :=
  let sent := V3.sendControl kind device.controlPacket destination
  { device with controlPacket := sent.1 }.record [.setIdle false, .send sent.2]

/-- The end of a multipart sender. -/
def sendAllParts (device : Device) (frames : List Bytes) : Device × List RadioEntry :=
  device.record (frames.map .send ++ [.setIdle true])

end Device

/-- `totalParts > MAX_MULTIPART_PARTS`. -/
def tooManyParts (text : Bytes) : Bool :=
  (text.length + multipartChunkSize - 1) / multipartChunkSize > maxMultipartParts

/-- What a sender does. -/
def SenderCall.perform (device : Device) : SenderCall → Device × List RadioEntry
  | .sendPing destination => device.sendControl .ping destination
  | .sendMessage destination message type =>
      let device := device.withDest destination
      let sent := V3.sendMessage device.node.localAddress device.node.serialBuf destination message
        type
      (device.withSerialBuf sent.1).record [.send sent.2]
  | .sendMultipartMessage destination message type =>
      device.sendAllParts
        (V3.sendMultipartMessage device.node.localAddress destination message type).val
  | .sendTransaction destination transaction type =>
      let device := device.withDest destination
      let sent := V3.sendTransaction device.node.serialBuf destination transaction type
      (device.withSerialBuf sent.1).record [.send sent.2]
  | .sendMultipartTransaction destination transaction type =>
      let device := device.withDest destination
      if tooManyParts (type ++ colon :: transaction) then (device, [])
      else
        device.sendAllParts
          (V3.sendMultipartTransaction device.node.localAddress destination transaction type).val
  | .sendBroadcast message type priority =>
      let sent := V3.sendBroadcast device.node.serialBuf message type priority
      (device.withSerialBuf sent.1).record [.send sent.2]
  | .sendMultipartBroadcast message type priority =>
      if tooManyParts (type ++ colon :: (priority ++ colon :: message)) then (device, [])
      else
        (device.withDest NodeAddress.broadcast).sendAllParts
          (V3.sendMultipartBroadcast device.node.localAddress message type priority).val

/-- What a handler of the web interface does with the radio. -/
inductive RadioCall
  /-- `dest = destination`, or `SetDestinationAsBroadcast`. -/
  | setDestination (destination : NodeAddress)
  | sender (call : SenderCall)
  | sendAck (destination : NodeAddress)
  /-- `Radio.Send` of a packet of the handler's own, to `dest`. -/
  | packet (kind : UInt8) (text : Bytes)
  deriving DecidableEq, Repr

/-- One call. -/
def RadioCall.perform (device : Device) : RadioCall → Device × List RadioEntry
  | .setDestination destination => (device.withDest destination, [])
  | .sender call => call.perform device
  | .sendAck destination => device.sendControl .ack destination
  | .packet kind text =>
      device.record [.send (handlerPacket kind device.node.localAddress device.node.dest text)]

/-- One call after the other. -/
def Device.performAll (device : Device) (calls : List RadioCall) : Device × List RadioEntry :=
  LoggedRun.run RadioCall.perform device calls

/-- The frames in a log. -/
def sentFrames (log : List RadioEntry) : List Bytes :=
  log.filterMap fun
    | .send frame => some frame
    | _ => none

theorem sentFrames_append (first second : List RadioEntry) :
    sentFrames (first ++ second) = sentFrames first ++ sentFrames second :=
  List.filterMap_append

theorem sentFrames_map_send (frames : List Bytes) : sentFrames (frames.map .send) = frames := by
  induction frames with
  | nil => rfl
  | cons frame rest ih => exact congrArg (frame :: ·) ih

/-! ## The destination -/

/-- The value that a sender leaves in `dest`, if it writes there. -/
def SenderCall.writes : SenderCall → Option NodeAddress
  | .sendMessage destination _ _ | .sendTransaction destination _ _
  | .sendMultipartTransaction destination _ _ => some destination
  | .sendMultipartBroadcast message type priority =>
      if tooManyParts (type ++ colon :: (priority ++ colon :: message)) then none
      else some NodeAddress.broadcast
  | .sendPing _ | .sendMultipartMessage _ _ _ | .sendBroadcast _ _ _ => none

/-- The value that a call leaves in `dest`, if it writes there. -/
def RadioCall.writes : RadioCall → Option NodeAddress
  | .setDestination destination => some destination
  | .sender call => call.writes
  | .sendAck _ | .packet _ _ => none

/-- The last value that calls leave in `dest`. -/
def lastWritten (calls : List RadioCall) : Option NodeAddress :=
  (calls.filterMap RadioCall.writes).getLast?

theorem lastWritten_concat (calls : List RadioCall) (call : RadioCall) :
    lastWritten (calls ++ [call]) = call.writes.or (lastWritten calls) := by
  rw [lastWritten, lastWritten, List.filterMap_append, List.filterMap_cons, List.filterMap_nil]
  cases call.writes with
  | none => rw [List.append_nil, Option.none_or]
  | some dest => rw [List.getLast?_concat, Option.some_or]

/-- Entries that only concern the radio. -/
def RadioEntry.IsRadio : RadioEntry → Prop
  | .setIdle _ | .send _ => True
  | .listen | .txReported _ | .pinged _ | .answered _ | .restarted => False

/-- What a call leaves alone, and what it logs. -/
structure OnlyTransmits (before later : Device) (entries : List RadioEntry)
    (dest : NodeAddress) : Prop where
  dest : later.node.dest = dest
  needToSendAck : later.node.needToSendAck = before.node.needToSendAck
  localAddress : later.node.localAddress = before.node.localAddress
  radio : later.radio = before.radio.afterAll entries
  queue : later.queue = before.queue
  entries : ∀ entry ∈ entries, entry.IsRadio

/-- All parts are frames, and the flag is set. -/
theorem isRadio_of_mem_allParts {frames : List Bytes} {entry : RadioEntry}
    (h : entry ∈ frames.map RadioEntry.send ++ [.setIdle true]) : entry.IsRadio := by
  cases List.mem_append.mp h with
  | inl hsent =>
      rcases List.mem_map.mp hsent with ⟨frame, -, rfl⟩
      trivial
  | inr hlast =>
      rw [List.mem_singleton.mp hlast]
      trivial

/-- A single frame. -/
theorem isRadio_of_mem_frame {frame : Bytes} {entry : RadioEntry}
    (h : entry ∈ [RadioEntry.send frame]) : entry.IsRadio := by
  rw [List.mem_singleton.mp h]
  trivial

/-- A control frame, with the flag cleared. -/
theorem isRadio_of_mem_control {frame : Bytes} {entry : RadioEntry}
    (h : entry ∈ [RadioEntry.setIdle false, .send frame]) : entry.IsRadio := by
  rcases List.mem_cons.mp h with rfl | hlast
  · trivial
  · exact isRadio_of_mem_frame hlast

/-- A frame from the send buffer. -/
theorem Device.onlyTransmits_frame (device : Device) (serialBuf : Vector UInt8 bufferSize)
    (frame : Bytes) :
    let result := (device.withSerialBuf serialBuf).record [.send frame]
    OnlyTransmits device result.1 result.2 device.node.dest :=
  ⟨rfl, rfl, rfl, rfl, rfl, fun _ => isRadio_of_mem_frame⟩

/-- The same, with the destination written. -/
theorem Device.onlyTransmits_frameTo (device : Device) (dest : NodeAddress)
    (serialBuf : Vector UInt8 bufferSize) (frame : Bytes) :
    let result := ((device.withDest dest).withSerialBuf serialBuf).record [.send frame]
    OnlyTransmits device result.1 result.2 dest :=
  ⟨rfl, rfl, rfl, rfl, rfl, fun _ => isRadio_of_mem_frame⟩

/-- All parts of a text. -/
theorem Device.onlyTransmits_parts (device : Device) (frames : List Bytes) :
    OnlyTransmits device (device.sendAllParts frames).1 (device.sendAllParts frames).2
      device.node.dest :=
  ⟨rfl, rfl, rfl, rfl, rfl, fun _ => isRadio_of_mem_allParts⟩

/-- The same, with the destination written. -/
theorem Device.onlyTransmits_partsTo (device : Device) (dest : NodeAddress)
    (frames : List Bytes) :
    let result := (device.withDest dest).sendAllParts frames
    OnlyTransmits device result.1 result.2 dest :=
  ⟨rfl, rfl, rfl, rfl, rfl, fun _ => isRadio_of_mem_allParts⟩

/-- A control frame. -/
theorem Device.onlyTransmits_control (device : Device) (controlPacket : Vector UInt8 controlSize)
    (frame : Bytes) :
    let result := { device with controlPacket := controlPacket }.record
      [.setIdle false, .send frame]
    OnlyTransmits device result.1 result.2 device.node.dest :=
  ⟨rfl, rfl, rfl, rfl, rfl, fun _ => isRadio_of_mem_control⟩

/-- **What a sender does to the destination.** -/
theorem SenderCall.perform_onlyTransmits (device : Device) (call : SenderCall) :
    OnlyTransmits device (call.perform device).1 (call.perform device).2
      (call.writes.getD device.node.dest) := by
  cases call with
  | sendPing destination => exact device.onlyTransmits_control _ _
  | sendMessage destination message type => exact device.onlyTransmits_frameTo destination _ _
  | sendMultipartMessage destination message type => exact device.onlyTransmits_parts _
  | sendTransaction destination transaction type =>
      exact device.onlyTransmits_frameTo destination _ _
  | sendMultipartTransaction destination transaction type =>
      rw [perform]
      by_cases hlong : tooManyParts (type ++ colon :: transaction) = true
      · simp only [if_pos hlong]
        exact ⟨rfl, rfl, rfl, rfl, rfl, fun _ hmem => absurd hmem List.not_mem_nil⟩
      · simp only [if_neg hlong]
        exact device.onlyTransmits_partsTo destination _
  | sendBroadcast message type priority => exact device.onlyTransmits_frame _ _
  | sendMultipartBroadcast message type priority =>
      rw [perform, writes]
      by_cases hlong : tooManyParts (type ++ colon :: (priority ++ colon :: message)) = true
      · rw [if_pos hlong, if_pos hlong]
        exact ⟨rfl, rfl, rfl, rfl, rfl, fun _ hmem => absurd hmem List.not_mem_nil⟩
      · rw [if_neg hlong, if_neg hlong]
        exact device.onlyTransmits_partsTo NodeAddress.broadcast _

theorem RadioCall.perform_onlyTransmits (device : Device) (call : RadioCall) :
    OnlyTransmits device (call.perform device).1 (call.perform device).2
      (call.writes.getD device.node.dest) := by
  cases call with
  | setDestination destination =>
      exact ⟨rfl, rfl, rfl, rfl, rfl, fun _ hmem => absurd hmem List.not_mem_nil⟩
  | sender call => exact call.perform_onlyTransmits device
  | sendAck destination => exact device.onlyTransmits_control _ _
  | packet kind text => exact ⟨rfl, rfl, rfl, rfl, rfl, fun _ => isRadio_of_mem_frame⟩

/-- **What a series of calls does to the destination.** The last one that writes decides. -/
theorem Device.performAll_onlyTransmits (device : Device) (calls : List RadioCall) :
    OnlyTransmits device (device.performAll calls).1 (device.performAll calls).2
      ((lastWritten calls).getD device.node.dest) := by
  induction calls using List.reverseRecOn with
  | nil => exact ⟨rfl, rfl, rfl, rfl, rfl, fun _ hmem => absurd hmem List.not_mem_nil⟩
  | append_singleton calls call ih =>
      have hlast := call.perform_onlyTransmits (device.performAll calls).1
      rw [performAll, LoggedRun.run_concat, ← performAll]
      refine ⟨?_, hlast.needToSendAck.trans ih.needToSendAck,
        hlast.localAddress.trans ih.localAddress, ?_, hlast.queue.trans ih.queue, ?_⟩
      · rw [hlast.dest, ih.dest, lastWritten_concat]
        cases call.writes with
        | none => rfl
        | some dest => rfl
      · rw [hlast.radio, ih.radio, RadioState.afterAll_append]
      · intro entry hmem
        cases List.mem_append.mp hmem with
        | inl hearlier => exact ih.entries entry hearlier
        | inr hhere => exact hlast.entries entry hhere

end RadioDoge.V3
