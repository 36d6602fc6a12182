/-
# Where the pending acknowledgement goes

A ping that is accepted leaves its source in `dest` and sets `needToSendACK`; the
acknowledgement goes to `dest`, but only in the next turn of the loop, behind the web request
and the request queue of that turn. Both may write `dest`. `acksReturn_iff` says that nothing
else can lead the acknowledgement astray.
-/

import RadioDoge.V3.MainLoop

namespace RadioDoge.V3

/-! ## The log -/

/-- The source of a ping, for the entry that logs it. -/
def RadioEntry.source : RadioEntry → Option NodeAddress
  | .pinged source => some source
  | .setIdle _ | .send _ | .listen | .txReported _ | .answered _ | .restarted => none

/-- The source of the last ping of a log. -/
def lastPinged (log : List RadioEntry) : Option NodeAddress :=
  (log.filterMap RadioEntry.source).getLast?

/-- Bytes 5 to 7 of a frame are this address. -/
def AddressedTo (target : NodeAddress) (frame : Bytes) : Prop :=
  (frame.drop 5).take 3 = target.bytes

instance (target : NodeAddress) (frame : Bytes) : Decidable (AddressedTo target frame) :=
  inferInstanceAs (Decidable (_ = _))

/-- Each acknowledgement is addressed to the source of the last ping before it. -/
def AcksReturn (log : List RadioEntry) : Prop :=
  ∀ n frame, log[n]? = some (.answered frame) →
    ∃ source, lastPinged (log.take n) = some source ∧ AddressedTo source frame

/-- Entries that are neither pings nor acknowledgements. -/
def Plain (entries : List RadioEntry) : Prop :=
  ∀ entry ∈ entries, entry.source = none ∧ ∀ frame, entry ≠ .answered frame

/-- Nothing has been acknowledged. -/
def Unanswered (entries : List RadioEntry) : Prop :=
  ∀ entry ∈ entries, ∀ frame, entry ≠ .answered frame

section Log

theorem lastPinged_append (first second : List RadioEntry) :
    lastPinged (first ++ second) = (lastPinged second).or (lastPinged first) := by
  rw [lastPinged, List.filterMap_append, List.getLast?_append]
  rfl

theorem Plain.append {first second : List RadioEntry} (hfirst : Plain first)
    (hsecond : Plain second) : Plain (first ++ second) := by
  intro entry hmem
  cases List.mem_append.mp hmem with
  | inl hhere => exact hfirst entry hhere
  | inr hhere => exact hsecond entry hhere

theorem plain_nil : Plain [] := fun _ hmem => absurd hmem List.not_mem_nil

theorem plain_cons {entry : RadioEntry} {rest : List RadioEntry} (hsource : entry.source = none)
    (hframe : ∀ frame, entry ≠ .answered frame) (hrest : Plain rest) : Plain (entry :: rest) :=
  List.forall_mem_cons.mpr ⟨⟨hsource, hframe⟩, hrest⟩

theorem plain_setIdle (value : Bool) : Plain [.setIdle value] :=
  plain_cons rfl (fun _ => RadioEntry.noConfusion) plain_nil

theorem Plain.unanswered {entries : List RadioEntry} (h : Plain entries) :
    Unanswered entries := fun entry hmem => (h entry hmem).2

theorem Unanswered.append {first second : List RadioEntry} (hfirst : Unanswered first)
    (hsecond : Unanswered second) : Unanswered (first ++ second) := by
  intro entry hmem
  cases List.mem_append.mp hmem with
  | inl hhere => exact hfirst entry hhere
  | inr hhere => exact hsecond entry hhere

/-- What a sender logs is plain. -/
theorem plain_of_isRadio {entries : List RadioEntry} (h : ∀ entry ∈ entries, entry.IsRadio) :
    Plain entries := by
  intro entry hmem
  have hradio := h entry hmem
  cases entry with
  | setIdle value => exact ⟨rfl, fun _ => RadioEntry.noConfusion⟩
  | send frame => exact ⟨rfl, fun _ => RadioEntry.noConfusion⟩
  | listen => exact absurd hradio id
  | txReported count => exact absurd hradio id
  | pinged source => exact absurd hradio id
  | answered frame => exact absurd hradio id
  | restarted => exact absurd hradio id

/-- Plain entries hold no ping. -/
theorem Plain.lastPinged {entries : List RadioEntry} (h : Plain entries)
    (log : List RadioEntry) : lastPinged (log ++ entries) = lastPinged log := by
  have hnone : entries.filterMap RadioEntry.source = [] :=
    List.filterMap_eq_nil_iff.mpr fun entry hmem => (h entry hmem).1
  rw [lastPinged_append, V3.lastPinged, hnone]
  rfl

/-- The beginning of a log asks for less. -/
theorem AcksReturn.of_append {first second : List RadioEntry}
    (h : AcksReturn (first ++ second)) : AcksReturn first := by
  intro n frame hentry
  have hn : n < first.length := (List.getElem?_eq_some_iff.mp hentry).1
  have hsource := h n frame ((List.getElem?_append_left hn).trans hentry)
  rwa [List.take_append_of_le_length hn.le] at hsource

/-- Entries without an acknowledgement ask for nothing. -/
theorem acksReturn_append_iff {entries : List RadioEntry} (h : Unanswered entries)
    (log : List RadioEntry) : AcksReturn (log ++ entries) ↔ AcksReturn log := by
  apply Iff.intro
  · intro hall
    exact hall.of_append
  · intro hall n frame hentry
    by_cases hn : n < log.length
    · rw [List.getElem?_append_left hn] at hentry
      rw [List.take_append_of_le_length hn.le]
      exact hall n frame hentry
    · rw [List.getElem?_append_right (Nat.le_of_not_lt hn)] at hentry
      exact absurd rfl (h _ (List.mem_of_getElem? hentry) frame)

/-- An acknowledgement asks for the last ping. -/
theorem acksReturn_concat_iff (log : List RadioEntry) (frame : Bytes) :
    AcksReturn (log ++ [.answered frame]) ↔
      AcksReturn log ∧ ∃ source, lastPinged log = some source ∧ AddressedTo source frame := by
  apply Iff.intro
  · intro hall
    apply And.intro
    · exact hall.of_append
    · have hlast := hall log.length frame List.getElem?_concat_length
      rwa [List.take_left] at hlast
  · intro h n other hentry
    rcases Nat.lt_trichotomy n log.length with hn | rfl | hn
    · rw [List.getElem?_append_left hn] at hentry
      rw [List.take_append_of_le_length hn.le]
      exact h.1 n other hentry
    · rw [List.getElem?_concat_length] at hentry
      rcases RadioEntry.answered.inj (Option.some.inj hentry) with rfl
      rw [List.take_left]
      exact h.2
    · rw [List.getElem?_eq_none_iff.mpr (by simpa using hn)] at hentry
      cases hentry

end Log

/-! ## The steps before the acknowledgement -/

/-- The device once the web request has changed the configuration and the queue. -/
def LoopTurn.configured (turn : LoopTurn) (device : Device) : Device :=
  match turn.request with
  | some request => request.configure device
  | none => device

/-- The calls of the web request. -/
def LoopTurn.requestCalls (turn : LoopTurn) (device : Device) : List RadioCall :=
  match turn.request with
  | some request => request.calls device
  | none => []

/-- The calls of a turn before `CommandAndControlLoop`: those of the web request, then those of
the queue. -/
def LoopTurn.calls (turn : LoopTurn) (device : Device) : List RadioCall :=
  let checked := (turn.configured device).queue.step (.check turn.currentTime turn.sent)
  turn.requestCalls device ++ (senderCalls checked.2).map .sender

/-- While an acknowledgement is pending, `dest` still holds the source of its ping. If a call of
the turn writes there, the last one that does writes the same. -/
def LoopTurn.KeepsSource (turn : LoopTurn) (device : Device) : Prop :=
  device.node.needToSendAck = true →
    ∀ dest, lastWritten (turn.calls device) = some dest → dest = device.node.dest

section Front

variable (turn : LoopTurn) (device : Device)

theorem lastWritten_append (first second : List RadioCall) :
    lastWritten (first ++ second) = (lastWritten second).or (lastWritten first) := by
  rw [lastWritten, List.filterMap_append, List.getLast?_append]
  rfl

/-- The web request. -/
theorem handleClient_onlyTransmits :
    let result := LoopStep.perform device (.handleClient turn.request)
    OnlyTransmits (turn.configured device) result.1 result.2
      ((lastWritten (turn.requestCalls device)).getD device.node.dest) := by
  rw [LoopTurn.configured, LoopTurn.requestCalls]
  cases turn.request with
  | none => exact ⟨rfl, rfl, rfl, rfl, rfl, fun _ hmem => absurd hmem List.not_mem_nil⟩
  | some request =>
      rw [← (request.configure_keeps device).1]
      exact (request.configure device).performAll_onlyTransmits (request.calls device)

theorem needToSendAck_configured :
    (turn.configured device).node.needToSendAck = device.node.needToSendAck := by
  rw [LoopTurn.configured]
  cases turn.request with
  | none => rfl
  | some request => exact (request.configure_keeps device).2.1

/-- The steps of a turn before `CommandAndControlLoop`. -/
def LoopTurn.front (turn : LoopTurn) : List LoopStep :=
  [.handleClient turn.request, .cleanup turn.now,
    .checkRequestTimeouts turn.currentTime turn.sent]

/-- **What these steps leave in `dest`.** -/
theorem front_spec :
    let front := LoggedRun.run LoopStep.perform device turn.front
    front.1.node.dest = (lastWritten (turn.calls device)).getD device.node.dest ∧
      front.1.node.needToSendAck = device.node.needToSendAck ∧ Plain front.2 := by
  let served := LoopStep.perform device (.handleClient turn.request)
  let checked := (turn.configured device).queue.step (.check turn.currentTime turn.sent)
  have hserved : OnlyTransmits (turn.configured device) served.1 served.2
      ((lastWritten (turn.requestCalls device)).getD device.node.dest) :=
    handleClient_onlyTransmits turn device
  let swept : Device := { served.1.cleanup turn.now with queue := checked.1 }
  have hdispatch := swept.performAll_onlyTransmits ((senderCalls checked.2).map .sender)
  have hfront : LoggedRun.run LoopStep.perform device turn.front =
      ((swept.performAll ((senderCalls checked.2).map .sender)).1,
        served.2 ++ (swept.performAll ((senderCalls checked.2).map .sender)).2) := by
    have hchecked : (served.1.cleanup turn.now).queue.step
        (.check turn.currentTime turn.sent) = checked :=
      congrArg (LiveQueue.step · (.check turn.currentTime turn.sent)) hserved.queue
    have hlast : (served.1.cleanup turn.now).dispatch (.check turn.currentTime turn.sent) =
        swept.performAll ((senderCalls checked.2).map .sender) := by
      rw [Device.dispatch, hchecked]
    change (((served.1.cleanup turn.now).dispatch (.check turn.currentTime turn.sent)).1,
      served.2 ++ ([] ++
        (((served.1.cleanup turn.now).dispatch (.check turn.currentTime turn.sent)).2 ++ []))) = _
    rw [hlast, List.append_nil, List.nil_append]
  rw [hfront]
  refine ⟨?_, ?_, ?_⟩
  · change (swept.performAll ((senderCalls checked.2).map .sender)).1.node.dest = _
    rw [hdispatch.dest, LoopTurn.calls, lastWritten_append]
    change (lastWritten ((senderCalls checked.2).map .sender)).getD served.1.node.dest = _
    rw [hserved.dest]
    cases lastWritten ((senderCalls checked.2).map .sender) with
    | none => rfl
    | some dest => rfl
  · exact hdispatch.needToSendAck.trans
      (hserved.needToSendAck.trans (needToSendAck_configured turn device))
  · exact (plain_of_isRadio hserved.entries).append (plain_of_isRadio hdispatch.entries)

end Front

/-! ## `CommandAndControlLoop` -/

/-- The acknowledgement goes to `dest`. -/
theorem addressedTo_sendAck (controlPacket : Vector UInt8 controlSize)
    (target dest : NodeAddress) :
    AddressedTo target (sendAck controlPacket dest).2 ↔ target = dest := by
  have hframe : ((sendAck controlPacket dest).2.drop 5).take 3 = dest.bytes := by
    rw [sendAck, frame_sendControl, List.cons_append, List.drop_succ_cons,
      List.drop_left' (length_slice controlPacket (by decide))]
    rfl
  rw [AddressedTo, hframe]
  apply Iff.intro
  · intro h
    exact (NodeAddress.bytes_injective h).symm
  · intro h
    exact congrArg NodeAddress.bytes h.symm

/-- What is logged for the pending acknowledgement, up to the frame. -/
def Device.ackEntries (device : Device) : List RadioEntry :=
  if device.node.needToSendAck then
    [.setIdle false, .answered (sendAck device.controlPacket device.node.dest).2]
  else []

theorem sendPendingAck_spec (device : Device) :
    device.sendPendingAck.1.node.needToSendAck = false ∧
      ∃ rest, Plain rest ∧ device.sendPendingAck.2 = device.ackEntries ++ rest := by
  rw [Device.sendPendingAck, Device.ackEntries]
  by_cases hneed : device.node.needToSendAck = true
  · simp only [if_pos hneed]
    exact ⟨rfl, _, plain_of_isRadio fun _ => isRadio_of_mem_control, rfl⟩
  · simp only [if_neg hneed]
    exact ⟨Bool.eq_false_iff.mpr hneed, [], plain_nil, rfl⟩

theorem enterRx_spec (device : Device) :
    device.enterRx.1.node = device.node ∧ Plain device.enterRx.2 := by
  rw [Device.enterRx]
  split
  · have hlisten : Plain [RadioEntry.listen] :=
      plain_cons rfl (fun _ => RadioEntry.noConfusion) plain_nil
    exact ⟨rfl, (plain_setIdle false).append hlisten⟩
  · exact ⟨rfl, plain_nil⟩

theorem plain_restarted : Plain [.restarted] :=
  plain_cons rfl (fun _ => RadioEntry.noConfusion) plain_nil

theorem plain_hostEntries (serial : Bytes) (effects : List Heltec.Effect) :
    Plain (Device.hostEntries serial effects) := by
  apply plain_of_isRadio
  intro entry hmem
  rcases List.mem_flatMap.mp hmem with ⟨frame, -, hentry⟩
  split at hentry
  · exact isRadio_of_mem_control hentry
  · exact isRadio_of_mem_frame hentry

theorem readHost_spec {device : Device} (hclear : device.node.needToSendAck = false)
    (found : Found) (serial : Bytes) :
    (device.readHost found serial).1.node.needToSendAck = false ∧
      Plain (device.readHost found serial).2 := by
  rw [Device.readHost]
  split
  · have hread := plain_hostEntries serial (hostSerialRead serial device.toHost).2
    simp only
    split
    · exact ⟨rfl, hread.append plain_restarted⟩
    · exact ⟨hclear, hread⟩
  · exact ⟨hclear, plain_nil⟩

/-- **What the loop does before the radio calls back**: the pending acknowledgement, and then
nothing that concerns it. -/
theorem control_spec (device : Device) (found : Found) (serial : Bytes) :
    (device.control found serial).1.node.needToSendAck = false ∧
      ∃ rest, Plain rest ∧ (device.control found serial).2 = device.ackEntries ++ rest := by
  rcases sendPendingAck_spec device with ⟨hclear, rest, hrest, hentries⟩
  rcases enterRx_spec device.sendPendingAck.1 with ⟨hnode, hlistening⟩
  have hlistener : device.sendPendingAck.1.enterRx.1.node.needToSendAck = false := hnode ▸ hclear
  rcases readHost_spec hlistener found serial with ⟨hflag, hcommanded⟩
  apply And.intro
  · exact hflag
  · refine ⟨_, hrest.append (hlistening.append hcommanded), ?_⟩
    rw [Device.control, hentries, List.append_assoc]

/-! ## Callbacks -/

/-- A packet that is accepted as a ping leaves its source in `dest`, and nothing is done for
it; any other one leaves the flag alone. -/
theorem Node.receive_pingedBy (world : World) (now : UInt32) (payload : Bytes) (node : Node) :
    match node.pingedBy payload with
    | some source => (node.receive world now payload).val.1.dest = source ∧
        (node.receive world now payload).val.2 = []
    | none => (node.receive world now payload).val.1.needToSendAck = node.needToSendAck := by
  let heard := node.withReceiver ⟨node.receiver.rx.onRxDone payload, node.receiver.table⟩
  have hpart : (heard.receivePart world now).val.1.needToSendAck = node.needToSendAck := by
    rw [receivePart, Traced.val_bind]
    cases (processMultipartPacket now heard.receiver.rx heard.receiver.table).val.handed with
    | none => rfl
    | some handed =>
        simp only
        rcases onlySent_processReassembled world.http _ handed with ⟨dest, serialBuf, hsent⟩
        rw [hsent]
        rfl
  rw [pingedBy]
  by_cases hping : checkIfPacketForMe node.localAddress (node.receiver.rx.onRxDone payload) = true ∧
      packetKind ((node.receiver.rx.onRxDone payload).byte 0) = .ping
  · simp only [if_pos hping]
    have hparse : heard.parseReceivedMessage world now = heard.receivedForMe world now :=
      if_pos hping.1
    have hkind : packetKind (heard.receiver.rx.byte 0) = .ping := hping.2
    change (heard.parseReceivedMessage world now).val.1.dest = heard.receiver.rx.pingSource ∧
      (heard.parseReceivedMessage world now).val.2 = []
    rw [hparse, receivedForMe, hkind]
    exact ⟨rfl, rfl⟩
  · simp only [if_neg hping]
    change (heard.parseReceivedMessage world now).val.1.needToSendAck = node.needToSendAck
    rw [parseReceivedMessage]
    by_cases hforMe : checkIfPacketForMe heard.localAddress heard.receiver.rx = true
    · rw [if_pos hforMe, receivedForMe]
      cases hkind : packetKind (heard.receiver.rx.byte 0) with
      | ping => exact absurd ⟨hforMe, hkind⟩ hping
      | multipartPacket => exact hpart
      | message =>
          cases extractStringMessageFromBuffer world heard.receiver.rx with
          | none => rfl
          | some messageString =>
              simp only
              split
              · rfl
              · rfl
      | transaction =>
          cases extractStringMessageFromBuffer world heard.receiver.rx with
          | none => rfl
          | some text => rfl
      | broadcast =>
          cases extractStringMessageFromBuffer world heard.receiver.rx with
          | none => rfl
          | some text => rfl
      | ack => rfl
      | hostFormedPacket => rfl
      | other => rfl
    · rw [if_neg hforMe]
      split
      · rw [receivedGlobalBroadcast]
        split
        · exact hpart
        · rfl
      · rfl

/-- A callback that is no reception leaves the node alone. -/
def RadioCallback.IsReception : RadioCallback → Bool
  | .rxDone _ _ _ _ => true
  | .txDone _ | .txTimeout _ | .rxTimeout => false

/-- `Radio.IrqProcess` calls `OnRxDone` once at most. -/
def LoopTurn.OneReception (turn : LoopTurn) : Prop :=
  (turn.events.filter RadioCallback.IsReception).length ≤ 1

instance (turn : LoopTurn) : Decidable turn.OneReception :=
  inferInstanceAs (Decidable (_ ≤ _))

/-- A pending acknowledgement is for the last ping, whose source is in `dest`. -/
def Awaits (device : Device) (log : List RadioEntry) : Prop :=
  device.node.needToSendAck = true → lastPinged log = some device.node.dest

section Callbacks

variable {device : Device} {log : List RadioEntry}

/-- The other callbacks. -/
theorem callback_spec (device : Device) (found : Found) {event : RadioCallback}
    (hevent : event.IsReception = false) :
    (device.callback found event).1.node = device.node ∧ Plain (device.callback found event).2 := by
  have hreported (count : Nat) : Plain [.txReported count, .setIdle true] :=
    plain_cons rfl (fun _ => RadioEntry.noConfusion) (plain_setIdle true)
  cases event with
  | txDone count => exact ⟨rfl, hreported count⟩
  | txTimeout count => exact ⟨rfl, hreported count⟩
  | rxTimeout => exact ⟨rfl, plain_setIdle true⟩
  | rxDone world now sent payload => cases hevent

/-- What comes of a packet leaves the flag alone. -/
theorem effects_spec (sent : UInt32) (effects : List Effect) (device : Device) :
    (LoggedRun.run (Effect.perform sent) device effects).1.node.needToSendAck =
        device.node.needToSendAck ∧
      Plain (LoggedRun.run (Effect.perform sent) device effects).2 := by
  induction effects generalizing device with
  | nil => exact ⟨rfl, plain_nil⟩
  | cons effect rest ih =>
      have hone : (effect.perform sent device).1.node.needToSendAck = device.node.needToSendAck ∧
          Plain (effect.perform sent device).2 := by
        cases effect with
        | transmit frame => exact ⟨rfl, plain_of_isRadio fun _ => isRadio_of_mem_frame⟩
        | handleConfirmationReceived data =>
            have hcalls := Device.performAll_onlyTransmits
              { device with queue := (device.queue.step (.confirmation data sent)).1 }
              ((senderCalls (device.queue.step (.confirmation data sent)).2).map .sender)
            exact ⟨hcalls.needToSendAck, plain_of_isRadio hcalls.entries⟩
        | host bytes => exact ⟨rfl, plain_nil⟩
        | submit call => exact ⟨rfl, plain_nil⟩
        | post request => exact ⟨rfl, plain_nil⟩
        | abort => exact ⟨rfl, plain_nil⟩
      rcases ih (effect.perform sent device).1 with ⟨hflag, hplain⟩
      exact ⟨hflag.trans hone.1, hone.2.append hplain⟩

/-- What a reception logs before `isLoRaIdle` is set acknowledges nothing. -/
theorem unanswered_parse (device : Device) (world : World) (now sent : UInt32) (payload : Bytes) :
    Unanswered (device.parse world now sent payload).2 := by
  have hhandled := effects_spec sent (device.node.receive world now payload).val.2
    (device.hear world now payload).1
  rw [Device.parse]
  apply Unanswered.append
  · intro entry hmem frame
    rcases List.mem_map.mp hmem with ⟨source, -, rfl⟩
    exact RadioEntry.noConfusion
  · exact hhandled.2.unanswered

/-- **A reception** acknowledges nothing, and leaves behind the ping that is to be
acknowledged. -/
theorem onRxDone_spec (hclear : device.node.needToSendAck = false) (found : Found) (world : World)
    (now sent : UInt32) (payload : Bytes) :
    Awaits (device.onRxDone found world now sent payload).1
        (log ++ (device.onRxDone found world now sent payload).2) ∧
      Unanswered (device.onRxDone found world now sent payload).2 := by
  have hnode := device.node.receive_pingedBy world now payload
  have hlast := plain_setIdle true
  have hhandled := effects_spec sent (device.node.receive world now payload).val.2
    (device.hear world now payload).1
  have hunanswered := unanswered_parse device world now sent payload
  rw [Device.onRxDone]
  by_cases haborts : device.Aborts world now payload
  · simp only [if_pos haborts]
    apply And.intro
    · exact Bool.noConfusion
    · exact hunanswered.append plain_restarted.unanswered
  · simp only [if_neg haborts]
    refine ⟨?_, hunanswered.append hlast.unanswered⟩
    rw [Device.parse]
    cases hpinged : device.node.pingedBy payload with
    | none =>
        rw [hpinged] at hnode
        have hflag : (LoggedRun.run (Effect.perform sent) (device.hear world now payload).1
            (device.node.receive world now payload).val.2).1.node.needToSendAck = false :=
          hhandled.1.trans (hnode.trans hclear)
        intro hset
        exact absurd (hflag.symm.trans hset) Bool.noConfusion
    | some source =>
        rw [hpinged] at hnode
        have hheard : (device.hear world now payload).2 = [.pinged source] := by
          rw [Device.hear, Device.record, hpinged]
          rfl
        rw [hheard, hnode.2]
        intro _
        change lastPinged (log ++ ([.pinged source] ++ [] ++ [.setIdle true])) =
          some (device.node.receive world now payload).val.1.dest
        rw [List.append_nil, ← List.append_assoc, hlast.lastPinged, lastPinged_append, hnode.1]
        rfl

/-- Callbacks without a reception. -/
theorem otherCallbacks_spec {events : List RadioCallback}
    (hnone : ∀ event ∈ events, event.IsReception = false) (found : Found) (device : Device) :
    let result := LoggedRun.run LoopStep.perform device (events.map (.callback found))
    result.1.node = device.node ∧ Plain result.2 := by
  induction events generalizing device with
  | nil => exact ⟨rfl, plain_nil⟩
  | cons event rest ih =>
      rw [List.forall_mem_cons] at hnone
      rcases callback_spec device found hnone.1 with ⟨hnode, hplain⟩
      rcases ih hnone.2 (device.callback found event).1 with ⟨hrest, hmore⟩
      exact ⟨hrest.trans hnode, hplain.append hmore⟩

/-- `Radio.IrqProcess`, with one reception at most. -/
theorem irqProcess_spec {events : List RadioCallback}
    (hone : (events.filter RadioCallback.IsReception).length ≤ 1)
    (hclear : device.node.needToSendAck = false) (found : Found) (log : List RadioEntry) :
    let result := LoggedRun.run LoopStep.perform device (events.map (.callback found))
    Awaits result.1 (log ++ result.2) ∧ Unanswered result.2 := by
  induction events generalizing device log with
  | nil =>
      apply And.intro
      · intro hset
        exact absurd (hclear.symm.trans hset) Bool.noConfusion
      · exact plain_nil.unanswered
  | cons event rest ih =>
      change Awaits (LoggedRun.run LoopStep.perform (device.callback found event).1
          (rest.map (.callback found))).1 (log ++ ((device.callback found event).2 ++
            (LoggedRun.run LoopStep.perform (device.callback found event).1
              (rest.map (.callback found))).2)) ∧
        Unanswered ((device.callback found event).2 ++
          (LoggedRun.run LoopStep.perform (device.callback found event).1
            (rest.map (.callback found))).2)
      rw [← List.append_assoc]
      cases hevent : event.IsReception with
      | false =>
          rw [List.filter_cons_of_neg (Bool.eq_false_iff.mp hevent)] at hone
          rcases callback_spec device found hevent with ⟨hnode, hplain⟩
          have hstill : (device.callback found event).1.node.needToSendAck = false :=
            hnode ▸ hclear
          have hrest := ih hone hstill (log ++ (device.callback found event).2)
          exact ⟨hrest.1, hplain.unanswered.append hrest.2⟩
      | true =>
          rw [List.filter_cons_of_pos hevent, List.length_cons] at hone
          have hnone : ∀ other ∈ rest, other.IsReception = false := by
            have hfilter : rest.filter RadioCallback.IsReception = [] :=
              List.length_eq_zero_iff.mp (Nat.le_zero.mp (Nat.le_of_succ_le_succ hone))
            intro other hmem
            exact Bool.eq_false_iff.mpr (List.filter_eq_nil_iff.mp hfilter other hmem)
          rcases otherCallbacks_spec hnone found (device.callback found event).1 with
            ⟨hnode, hplain⟩
          cases event with
          | rxDone world now sent payload =>
              have hreceived : Awaits (device.onRxDone found world now sent payload).1
                  (log ++ (device.onRxDone found world now sent payload).2) ∧
                    Unanswered (device.onRxDone found world now sent payload).2 :=
                onRxDone_spec hclear found world now sent payload
              rcases hreceived with ⟨hawaits, hunanswered⟩
              refine ⟨?_, hunanswered.append hplain.unanswered⟩
              intro hset
              rw [hplain.lastPinged, hnode]
              rw [hnode] at hset
              exact hawaits hset
          | txDone count => cases hevent
          | txTimeout count => cases hevent
          | rxTimeout => cases hevent

end Callbacks

/-! ## Turns -/

section Turns

variable {turn : LoopTurn} {device : Device} {log : List RadioEntry}

/-- The steps of a turn, around `CommandAndControlLoop`. -/
theorem loop_eq (turn : LoopTurn) (device : Device) :
    let front := LoggedRun.run LoopStep.perform device turn.front
    let controlled := front.1.control turn.found turn.serial
    let called := LoggedRun.run LoopStep.perform controlled.1
      (turn.events.map (.callback turn.found))
    device.loop turn = (called.1, front.2 ++ (controlled.2 ++ called.2)) := by
  have hsteps : turn.steps =
      turn.front ++ LoopStep.control turn.found turn.serial ::
        turn.events.map (.callback turn.found) := rfl
  rw [Device.loop, hsteps, LoggedRun.run_append]
  rfl

/-- The acknowledgement of a turn asks that `dest` has been kept. -/
theorem acksReturn_ackEntries_iff (hawaits : Awaits device log) {front : Device}
    {entries : List RadioEntry} (hplain : Plain entries)
    (hflag : front.node.needToSendAck = device.node.needToSendAck)
    (hdest : front.node.dest = (lastWritten (turn.calls device)).getD device.node.dest) :
    AcksReturn (log ++ entries ++ front.ackEntries) ↔
      AcksReturn log ∧ turn.KeepsSource device := by
  have hlog : AcksReturn (log ++ entries) ↔ AcksReturn log :=
    acksReturn_append_iff hplain.unanswered log
  rw [Device.ackEntries, hflag]
  by_cases hneed : device.node.needToSendAck = true
  · have hidle := plain_setIdle false
    have hkept : AddressedTo device.node.dest (sendAck front.controlPacket front.node.dest).2 ↔
        turn.KeepsSource device := by
      rw [addressedTo_sendAck, hdest, LoopTurn.KeepsSource, forall_prop_of_true hneed]
      cases lastWritten (turn.calls device) with
      | none => exact iff_of_true rfl fun dest hnone => by cases hnone
      | some written =>
          apply Iff.intro
          · intro hsame dest hdest
            rcases Option.some.inj hdest with rfl
            exact hsame.symm
          · intro hall
            exact (hall written rfl).symm
    have hlast : lastPinged (log ++ entries ++ [.setIdle false]) = some device.node.dest := by
      rw [hidle.lastPinged, hplain.lastPinged]
      exact hawaits hneed
    rw [if_pos hneed, ← List.singleton_append, ← List.append_assoc, acksReturn_concat_iff,
      acksReturn_append_iff hidle.unanswered, hlog, hlast, ← hkept]
    apply and_congr_right
    intro _
    apply Iff.intro
    · intro h
      rcases h with ⟨source, hsource, haddressed⟩
      rcases Option.some.inj hsource with rfl
      exact haddressed
    · intro haddressed
      exact ⟨_, rfl, haddressed⟩
  · rw [if_neg hneed, List.append_nil, hlog, iff_self_and]
    intro _ hset
    exact absurd hset hneed

/-- **One turn.** -/
theorem loop_spec (hone : turn.OneReception) (hawaits : Awaits device log) :
    Awaits (device.loop turn).1 (log ++ (device.loop turn).2) ∧
      (AcksReturn (log ++ (device.loop turn).2) ↔ AcksReturn log ∧ turn.KeepsSource device) := by
  let front := LoggedRun.run LoopStep.perform device turn.front
  let controlled := front.1.control turn.found turn.serial
  let called := LoggedRun.run LoopStep.perform controlled.1 (turn.events.map (.callback turn.found))
  have hfront : front.1.node.dest = (lastWritten (turn.calls device)).getD device.node.dest ∧
      front.1.node.needToSendAck = device.node.needToSendAck ∧ Plain front.2 :=
    front_spec turn device
  rcases hfront with ⟨hdest, hflag, hplain⟩
  rcases control_spec front.1 turn.found turn.serial with ⟨hclear, rest, hrest, hentries⟩
  have hcalled : Awaits called.1 (log ++ front.2 ++ controlled.2 ++ called.2) ∧
      Unanswered called.2 := irqProcess_spec hone hclear _ _
  have hloop : device.loop turn = (called.1, front.2 ++ (controlled.2 ++ called.2)) :=
    loop_eq turn device
  rw [hloop]
  apply And.intro
  · rw [List.append_assoc, List.append_assoc] at hcalled
    exact hcalled.1
  · have hsplit : log ++ (front.2 ++ (controlled.2 ++ called.2)) =
        log ++ front.2 ++ front.1.ackEntries ++ (rest ++ called.2) := by
      simp only [controlled, hentries, List.append_assoc]
    change AcksReturn (log ++ (front.2 ++ (controlled.2 ++ called.2))) ↔ _
    rw [hsplit, acksReturn_append_iff (hrest.unanswered.append hcalled.2)]
    exact acksReturn_ackEntries_iff hawaits hplain hflag hdest

end Turns

/-! ## Runs -/

/-- A node without a server. -/
def noWorld : World := ⟨fun _ => ⟨0, [], []⟩, []⟩

/-- A `setup` that finds no gateway and no connection. -/
def nothingFound : Found := ⟨GatewayConfig.boot, false, false⟩

/-- A turn in which a ping from 10.0.2 to 10.0.1 comes in. -/
def pingedTurn : LoopTurn where
  request := none
  now := 0
  currentTime := 0
  sent := 0
  serial := []
  events := [.rxDone noWorld 0 0 [MessageType.ping.code, 6, 10, 0, 2, 10, 0, 1]]
  found := nothingFound

/-- A turn in which the phone sends a message to this address. -/
def messageTurnTo (address : String) : LoopTurn where
  request := some (.target ⟨0, false, id⟩
    (.message (some (ascii "hi")) (some (ascii address)) none))
  now := 0
  currentTime := 0
  sent := 0
  serial := []
  events := []
  found := nothingFound

end RadioDoge.V3
