/-
# One frame or several parts

A text of at most 255 bytes goes out in a single frame, a longer one in parts. At
the receiver the two meet different branches: only reassembled data is given to
the host as a line and forwarded, a single frame is displayed or, when it reads as
a global broadcast, passed to the host as it is. `paths_agree_iff` says that the
two have the same effects only where both have none.
-/

import RadioDoge.V3.Node

namespace RadioDoge.V3

/-- Data that either path can carry. -/
inductive PathCall
  | transaction (destination : NodeAddress) (tx type : Bytes)
  | broadcast (message type priority : Bytes)
  deriving DecidableEq, Repr

namespace PathCall

/-- The sender of the single frame. -/
def frameCall : PathCall → FrameCall
  | .transaction destination tx type => .transaction destination tx type
  | .broadcast message type priority => .broadcast message type priority

/-- The sender of the parts. -/
def sendCall (localAddress : NodeAddress) : PathCall → SendCall
  | .transaction destination tx type => .transaction localAddress destination tx type
  | .broadcast message type priority => .broadcast localAddress message type priority

/-- The packet type of the single frame. -/
def kind : PathCall → MessageType
  | .transaction _ _ _ => .transaction
  | .broadcast _ _ _ => .broadcast

/-- Who is meant to receive. -/
def destination : PathCall → NodeAddress
  | .transaction destination _ _ => destination
  | .broadcast _ _ _ => NodeAddress.broadcast

/-- The formatted text. -/
def text : PathCall → Bytes
  | .transaction _ tx type => type ++ colon :: tx
  | .broadcast message type priority => type ++ colon :: (priority ++ colon :: message)

/-- The single frame reads as a global broadcast at a node whose address is another
one. -/
def PassedRaw (call : PathCall) (receiver : Node) : Prop :=
  FrameCall.addressBytes call.text = NodeAddress.broadcast.bytes ∧
    receiver.localAddress ≠ NodeAddress.broadcast

theorem text_ne_nil (call : PathCall) : call.text ≠ [] := by
  cases call <;> simp [text]

theorem frame_eq (call : PathCall) (buffers : SendBuffers) :
    call.frameCall.frame buffers = (sendFromStart call.kind buffers.serialBuf call.text).2 := by
  cases call <;> rfl

theorem code_kind_ne (call : PathCall) :
    call.kind.code ≠ SerialCommand.multipartPacket.code := by
  have hcodes : ∀ kind : MessageType, kind.code ≠ SerialCommand.multipartPacket.code := by
    intro kind
    cases kind <;> decide
  exact hcodes call.kind

end PathCall

/-- The same output to the host, the same submissions, and the same frames on the
air, be they confirmations or a rebroadcast. -/
structure SameEffects (first second : List Effect) : Prop where
  host : hostOutput first = hostOutput second
  submitted : submissions first = submissions second
  transmitted : transmissions first = transmissions second

theorem SameEffects.congr_left {first other : List Effect} (h : SameEffects first other)
    (second : List Effect) : SameEffects first second ↔ SameEffects other second := by
  apply Iff.intro
  · intro hsame
    exact ⟨h.host.symm.trans hsame.host, h.submitted.symm.trans hsame.submitted,
      h.transmitted.symm.trans hsame.transmitted⟩
  · intro hsame
    exact ⟨h.host.trans hsame.host, h.submitted.trans hsame.submitted,
      h.transmitted.trans hsame.transmitted⟩

/-! ## The single frame -/

section SingleFrame

variable (world : World) (now : UInt32) (receiver : Node) (call : PathCall) (buffers : SendBuffers)

/-- The receive buffer with the single frame. -/
def PathCall.heard : RxBuffer := receiver.receiver.rx.onRxDone (call.frameCall.frame buffers)

theorem byte_zero_heard : (call.heard receiver buffers).byte 0 = call.kind.code := by
  rw [PathCall.heard, call.frame_eq]
  exact byte_zero_sendFromStart call.text_ne_nil _

/-- A single frame is passed on as it is, or it is shown, at most. -/
theorem effects_single :
    (receiver.receive world now (call.frameCall.frame buffers)).val.2 =
      if receiver.localAddress = (call.heard receiver buffers).destination then
        if extractStringMessageFromBuffer world (call.heard receiver buffers) = none then [.abort]
        else []
      else if (call.heard receiver buffers).destination = NodeAddress.broadcast then
        [(call.heard receiver buffers).toHost]
      else [] := by
  let heard := receiver.withReceiver ⟨call.heard receiver buffers, receiver.receiver.table⟩
  have hkind : heard.receiver.rx.byte 0 = call.kind.code := byte_zero_heard receiver call buffers
  change (heard.parseReceivedMessage world now).val.2 =
    if heard.localAddress = heard.receiver.rx.destination then
      if extractStringMessageFromBuffer world heard.receiver.rx = none then [.abort] else []
    else if heard.receiver.rx.destination = NodeAddress.broadcast then [heard.receiver.rx.toHost]
    else []
  by_cases hforMe : heard.localAddress = heard.receiver.rx.destination
  · rw [Node.parse_forMe world now hforMe, if_pos hforMe, Node.receivedForMe, hkind]
    cases call with
    | transaction destination tx type =>
        have hcase : packetKind (PathCall.transaction destination tx type).kind.code =
          .transaction := rfl
        rw [hcase]
        cases extractStringMessageFromBuffer world heard.receiver.rx with
        | none => rfl
        | some text => rfl
    | broadcast message type priority =>
        have hcase : packetKind (PathCall.broadcast message type priority).kind.code =
          .broadcast := rfl
        rw [hcase]
        cases extractStringMessageFromBuffer world heard.receiver.rx with
        | none => rfl
        | some text => rfl
  · rw [if_neg hforMe]
    by_cases hglobal : heard.receiver.rx.destination = NodeAddress.broadcast
    · have hne : heard.receiver.rx.byte 0 ≠ SerialCommand.multipartPacket.code := by
        rw [hkind]
        exact call.code_kind_ne
      rw [Node.parse_global world now hforMe hglobal, if_pos hglobal, Node.receivedGlobalBroadcast,
        if_neg hne]
      rfl
    · rw [Node.parse_foreign world now hforMe hglobal, if_neg hglobal]
      rfl

/-- Nothing is submitted or sent for it, and the host hears of it only if it is passed on. -/
theorem sameEffects_single :
    SameEffects (receiver.receive world now (call.frameCall.frame buffers)).val.2
      (if receiver.localAddress ≠ (call.heard receiver buffers).destination ∧
          (call.heard receiver buffers).destination = NodeAddress.broadcast then
        [(call.heard receiver buffers).toHost]
      else []) := by
  rw [effects_single]
  by_cases hforMe : receiver.localAddress = (call.heard receiver buffers).destination
  · have hhere : ¬ (receiver.localAddress ≠ (call.heard receiver buffers).destination ∧
        (call.heard receiver buffers).destination = NodeAddress.broadcast) :=
      fun hboth => hboth.1 hforMe
    rw [if_pos hforMe, if_neg hhere]
    split
    · exact ⟨rfl, rfl, rfl⟩
    · exact ⟨rfl, rfl, rfl⟩
  · rw [if_neg hforMe]
    by_cases hglobal : (call.heard receiver buffers).destination = NodeAddress.broadcast
    · rw [if_pos hglobal, if_pos ⟨hforMe, hglobal⟩]
      exact ⟨rfl, rfl, rfl⟩
    · rw [if_neg hglobal, if_neg fun hboth => hglobal hboth.2]
      exact ⟨rfl, rfl, rfl⟩

/-- A frame passed on begins with its packet type. -/
theorem head_toHost_heard :
    (hostOutput [(call.heard receiver buffers).toHost]).head? = some call.kind.code := by
  have hpos : 0 < (call.frameCall.frame buffers).length := by
    rw [call.frame_eq, length_sendFromStart call.text_ne_nil]
    exact Nat.lt_min.mpr ⟨by decide, List.length_pos_iff.mpr call.text_ne_nil⟩
  have hfirst : (call.heard receiver buffers).rxPacket[0]? = some call.kind.code := by
    have hbyte := byte_zero_heard receiver call buffers
    rw [RxBuffer.byte, Vector.getElem?_eq_getElem (by decide)] at hbyte
    rw [Vector.getElem?_eq_getElem (by decide), ← hbyte, Option.getD_some]
  change (slice (call.heard receiver buffers).rxPacket 0 (call.frameCall.frame buffers).length ++
    []).head? = _
  rw [List.append_nil, List.head?_eq_getElem?, getElem?_slice, if_pos hpos, hfirst]

end SingleFrame

/-! ## The parts -/

/-- A reassembled transaction or broadcast is given to the host under its label. -/
theorem head_hostOutput_processReassembled (http : Http) (node : Node) {dataType : UInt8}
    (htype : dataType = 0 ∨ dataType = 2) (data : Bytes) (src : NodeAddress) :
    (hostOutput (processReassembled http ⟨dataType, data, src⟩ node).val.2).head? =
      some (if dataType = 0 then 84 else 66) := by
  cases htype with
  | inl hzero =>
      subst hzero
      rfl
  | inr htwo =>
      subst htwo
      rfl

/-- A text of more than 20 parts is not sent. -/
theorem sent_nil_of_long (localAddress : NodeAddress) (call : PathCall)
    (hlong : maxMultipartParts < (call.sendCall localAddress).multipart.parts) :
    (call.sendCall localAddress).sent.val = [] := by
  cases call with
  | transaction destination tx type =>
      exact (val_sendMultipartTransaction _ _ _ _).trans (if_neg (Nat.not_le.mpr hlong))
  | broadcast message type priority =>
      exact (val_sendMultipartBroadcast _ _ _ _).trans (if_neg (Nat.not_le.mpr hlong))

/-- The parts of a text, and its length. -/
theorem parts_sendCall_le_iff (localAddress : NodeAddress) (call : PathCall) :
    (call.sendCall localAddress).multipart.parts ≤ maxMultipartParts ↔
      call.text.length ≤ 4000 := by
  have htext : (call.sendCall localAddress).multipart.text = call.text := by
    cases call <;> rfl
  rw [MultipartMessage.parts, htext]
  exact Pieces.pieceCount_le_iff (by decide) maxMultipartParts

/-! ## Agreement -/

section Agreement

variable (world : World) (now : UInt32) {receiver : Node} (buffers : SendBuffers) {call : PathCall}
  {arrivals : List (UInt32 × Bytes)}

/-- Data that is sent in parts gives the host a line; the single frame does not. -/
theorem paths_differ (hidle : receiver.Idle) (haccept : receiver.Accepts call.destination)
    (harrivals : (arrivals.map Prod.snd).Perm (call.sendCall buffers.localAddress).sent.val)
    (hshort : call.text.length ≤ 4000) :
    ¬ SameEffects (receiver.receive world now (call.frameCall.frame buffers)).val.2
      (receiver.receiveAll world arrivals).val.2 := by
  intro hsame
  have hparts := (parts_sendCall_le_iff buffers.localAddress call).mpr hshort
  have htype : (call.sendCall buffers.localAddress).multipart.dataType = 0 ∨
      (call.sendCall buffers.localAddress).multipart.dataType = 2 := by
    cases call with
    | transaction => exact .inl rfl
    | broadcast => exact .inr rfl
  have hdest : (call.sendCall buffers.localAddress).multipart.dest = call.destination := by
    cases call <;> rfl
  rw [SendCall.val_sent _ hparts] at harrivals
  obtain ⟨heard, -, hdone⟩ := Node.receiveAll_frames world hidle (hdest ▸ haccept) hparts
    (SendCall.parts_multipart_pos _) (SendCall.dataType_multipart _) harrivals
  have hlabel := head_hostOutput_processReassembled world.http (receiver.withReceiver heard) htype
    (call.sendCall buffers.localAddress).multipart.carried
    (call.sendCall buffers.localAddress).multipart.src
  rw [← hdone, ← hsame.host, (sameEffects_single world now receiver call buffers).host] at hlabel
  by_cases hraw : receiver.localAddress ≠ (call.heard receiver buffers).destination ∧
      (call.heard receiver buffers).destination = NodeAddress.broadcast
  · rw [if_pos hraw, head_toHost_heard, Option.some.injEq] at hlabel
    cases call with
    | transaction => exact absurd hlabel (by decide : MessageType.transaction.code ≠ 84)
    | broadcast => exact absurd hlabel (by decide : MessageType.broadcast.code ≠ 66)
  · rw [if_neg hraw] at hlabel
    cases hlabel

/-- **The two paths agree only in doing nothing.** The effects at a node that the
data is meant for are the same exactly when the text is too long to be sent in parts
and the single frame is not passed to the host as it is. -/
theorem paths_agree_iff (hidle : receiver.Idle) (haccept : receiver.Accepts call.destination)
    (harrivals : (arrivals.map Prod.snd).Perm (call.sendCall buffers.localAddress).sent.val) :
    SameEffects (receiver.receive world now (call.frameCall.frame buffers)).val.2
        (receiver.receiveAll world arrivals).val.2 ↔
      4000 < call.text.length ∧ ¬ call.PassedRaw receiver := by
  by_cases hlong : 4000 < call.text.length
  · have hnone : arrivals = [] := by
      have hmany := mt (parts_sendCall_le_iff buffers.localAddress call).mp (Nat.not_le.mpr hlong)
      rw [sent_nil_of_long _ call (Nat.lt_of_not_le hmany)] at harrivals
      exact List.map_eq_nil_iff.mp harrivals.eq_nil
    have hdest : (call.heard receiver buffers).destination = NodeAddress.broadcast ↔
        FrameCall.addressBytes call.text = NodeAddress.broadcast.bytes := by
      rw [PathCall.heard, call.frame_eq]
      exact destination_of_long call.code_kind_ne (by omega) _ _
    rw [hnone, (sameEffects_single world now receiver call buffers).congr_left]
    by_cases hraw : receiver.localAddress ≠ (call.heard receiver buffers).destination ∧
        (call.heard receiver buffers).destination = NodeAddress.broadcast
    · have hpassed : call.PassedRaw receiver := ⟨hdest.mp hraw.2, hraw.2 ▸ hraw.1⟩
      refine iff_of_false (fun hsame => ?_) fun hboth => hboth.2 hpassed
      have hhead := head_toHost_heard receiver call buffers
      rw [if_pos hraw] at hsame
      rw [hsame.host] at hhead
      cases hhead
    · have hquiet : ¬ call.PassedRaw receiver := fun hpassed =>
        hraw ⟨(hdest.mpr hpassed.1).symm ▸ hpassed.2, hdest.mpr hpassed.1⟩
      rw [if_neg hraw]
      exact iff_of_true ⟨rfl, rfl, rfl⟩ ⟨hlong, hquiet⟩
  · exact iff_of_false (paths_differ world now buffers hidle haccept harrivals
      (Nat.le_of_not_lt hlong)) fun hboth => hlong hboth.1

end Agreement

/-- A node at 10.0.1 without a gateway. -/
def plainNode : Node where
  localAddress := ⟨10, 0, 1⟩
  dest := ⟨0, 0, 0⟩
  gateway := GatewayConfig.boot
  internetConnected := false
  serialBuf := Vector.replicate bufferSize 0
  receiver := Receiver.boot
  needToSendAck := false

/-- Surroundings in which every request fails. -/
def silentWorld : World := ⟨fun _ => ⟨-1, [], []⟩, []⟩

/-- Every frame received at time zero. -/
def atZero (frames : List Bytes) : List (UInt32 × Bytes) := frames.map (Prod.mk 0)

theorem map_snd_atZero (frames : List Bytes) : (atZero frames).map Prod.snd = frames := by
  rw [atZero, List.map_map]
  exact List.map_id _

/-- The buffers of a node at 10.0.2 after a reset. -/
def plainBuffers : SendBuffers :=
  ⟨⟨10, 0, 2⟩, Vector.replicate controlSize 0, Vector.replicate bufferSize 0⟩

/-- A short transaction to the node. -/
def shortTransaction : PathCall := .transaction ⟨10, 0, 1⟩ (ascii "01000000017a") (ascii "signed")

theorem idle_plainNode : plainNode.Idle := rfl

theorem not_hasGateway_plainNode : ¬ plainNode.HasGateway := by
  intro hgateway
  cases hgateway with
  | inl hconfigured => exact absurd hconfigured.1 (by decide)
  | inr honline => cases honline

/-- The short transaction comes in as a single part. -/
theorem arrivals_shortTransaction :
    ([((0 : UInt32), (shortTransaction.sendCall ⟨10, 0, 2⟩).multipart.frame 0)].map Prod.snd).Perm
      (shortTransaction.sendCall plainBuffers.localAddress).sent.val := by
  rw [SendCall.val_sent _ (by decide)]
  exact List.Perm.refl _

/-- The equivalence for the short transaction. -/
theorem paths_agree_iff_shortTransaction :
    SameEffects
        (plainNode.receive silentWorld 0 (shortTransaction.frameCall.frame plainBuffers)).val.2
        (plainNode.receiveAll silentWorld
          [(0, (shortTransaction.sendCall ⟨10, 0, 2⟩).multipart.frame 0)]).val.2 ↔
      4000 < shortTransaction.text.length ∧ ¬ shortTransaction.PassedRaw plainNode :=
  paths_agree_iff silentWorld 0 plainBuffers idle_plainNode (.inl rfl) arrivals_shortTransaction

/-- Received as a single frame, the short transaction is neither given to the host
nor sent on. -/
theorem shortTransaction_disagrees :
    ¬ SameEffects
        (plainNode.receive silentWorld 0 (shortTransaction.frameCall.frame plainBuffers)).val.2
        (plainNode.receiveAll silentWorld
          [(0, (shortTransaction.sendCall ⟨10, 0, 2⟩).multipart.frame 0)]).val.2 :=
  paths_differ silentWorld 0 plainBuffers idle_plainNode (.inl rfl) arrivals_shortTransaction
    (by decide)

end RadioDoge.V3
