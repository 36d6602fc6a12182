/-
# The way back of an answer

A gateway answers a transaction broadcast to the address in the frames that it has
received. A relay that sends a broadcast on writes its own address there, and no node
sends a confirmation on. So the answer is addressed to the node that the gateway has
heard, and goes no further. `answerReaches_iff` says for which paths that is enough.
-/

import RadioDoge.V3.Rebroadcasts

namespace RadioDoge.V3

open CausalLog

/-! ## The key of what is handed on -/

/-- The session has this source and type. -/
def MultipartReassembly.HasKey (src : NodeAddress) (dataType : UInt8) (s : MultipartReassembly) :
    Prop :=
  s.src = src ∧ s.dataType = dataType

theorem MultipartReassembly.hasKey_of_matchesKey {src : NodeAddress} {dataType : UInt8}
    {s : MultipartReassembly} (h : s.matchesKey src dataType = true) : s.HasKey src dataType := by
  rw [matchesKey] at h
  simp only [Bool.and_eq_true, beq_iff_eq] at h
  obtain ⟨⟨⟨hregion, hcommunity⟩, hnode⟩, htype⟩ := h
  refine ⟨?_, htype⟩
  rw [MultipartReassembly.src, hregion, hcommunity, hnode]

section Key

variable {table : SessionTable} {slot : Nat} {src : NodeAddress} {dataType : UInt8}
  {handed : Reassembled}

/-- Reassembly hands on under the key of the session. -/
theorem key_reassemble (hkey : (table.slots[slot]?.getD default).HasKey src dataType)
    (h : (reassembleMultipartPacket table slot).val.handed = some handed) :
    handed.src = src ∧ handed.dataType = dataType := by
  simp only [reassembleMultipartPacket, Traced.val_bind, Traced.val_pure, val_readAt] at h
  obtain ⟨-, hsession⟩ := Option.ite_none_right_eq_some.mp h
  obtain rfl := Option.some.inj hsession
  exact hkey

/-- Storing a part keeps the key. -/
theorem hasKey_storePart (rx : RxBuffer) (partNumber : UInt8) {session : MultipartReassembly}
    (hkey : session.HasKey src dataType) :
    (storePart rx session partNumber).val.HasKey src dataType := hkey

theorem key_receivePart (rx : RxBuffer) (partNumber totalParts : UInt8)
    (hslot : slot < maxMultipartParts)
    (hkey : (table.slots[slot]?.getD default).HasKey src dataType)
    (h : (receivePart rx table slot partNumber totalParts).val.handed = some handed) :
    handed.src = src ∧ handed.dataType = dataType := by
  have hstored : ∀ session : MultipartReassembly,
      (table.store slot session).slots[slot]?.getD default = session := fun session => by
    rw [SlotTable.store, Vector.getElem?_setIfInBounds, if_pos rfl, if_pos hslot, Option.getD_some]
  rw [receivePart] at h
  by_cases hnumber : partNumber < 1 ∨ partNumber > totalParts
  · rw [if_pos hnumber] at h
    cases h
  · rw [if_neg hnumber, Traced.val_bind, Traced.val_bind, val_readAt, val_readAt, Traced.val_ite] at h
    by_cases hknown : (table.slots[slot]?.getD default).partsReceived[partNumber.toNat - 1]?.getD
        default = true
    · rw [if_pos hknown] at h
      cases h
    · simp only [if_neg hknown, Traced.val_bind, Traced.val_ite] at h
      by_cases hlast : (storePart rx (table.slots[slot]?.getD default)
          partNumber).val.receivedParts = totalParts
      · rw [if_pos hlast] at h
        refine key_reassemble ?_ h
        rw [hstored]
        exact hasKey_storePart rx partNumber hkey
      · rw [if_neg hlast] at h
        cases h

/-- **The key.** What is handed on has the source and the type of the frame that
completes it, whatever the table holds. -/
theorem key_processMultipartPacket (now : UInt32) (rx : RxBuffer)
    (h : (processMultipartPacket now rx table).val.handed = some handed) :
    handed.src = ⟨rx.byte 4, rx.byte 5, rx.byte 6⟩ ∧ handed.dataType = rx.byte 9 := by
  simp only [processMultipartPacket] at h
  split at h
  next index hfound =>
    obtain ⟨hlive, hmatch, -⟩ := List.findIdx?_eq_some_iff_getElem.mp hfound
    have hcount : index < table.count := by rwa [SlotTable.length_live] at hlive
    have hslots : table.slots[index]? = some table.live[index] := by
      rw [← SlotTable.getElem?_live_of_lt table hcount, List.getElem?_eq_getElem hlive]
    refine key_receivePart rx _ _ (hcount.trans_le table.count_le) ?_ h
    rw [hslots]
    exact MultipartReassembly.hasKey_of_matchesKey hmatch
  next =>
    rw [createMultipartSession] at h
    by_cases hroom : table.count < maxMultipartParts
    · simp only [dif_pos hroom] at h
      refine key_receivePart rx _ _ hroom ?_ h
      simp only [SlotTable.openSlot, Vector.getElem?_set_self]
      exact ⟨rfl, rfl⟩
    · simp only [dif_neg hroom] at h
      cases h

end Key

/-- The source in the header of a multipart packet. -/
def RxBuffer.partSource (rx : RxBuffer) : NodeAddress := ⟨rx.byte 4, rx.byte 5, rx.byte 6⟩

/-- Nothing is submitted and nothing is sent. -/
def Quiet (effects : List Effect) : Prop := submissions effects = [] ∧ transmissions effects = []

theorem quiet_nil : Quiet [] := ⟨rfl, rfl⟩

theorem quiet_toHost (rx : RxBuffer) : Quiet [rx.toHost] := ⟨rfl, rfl⟩

/-- A node does nothing of the kind with a text of another type than a transaction or a
broadcast. -/
theorem quiet_processReassembled (http : Http) {handed : Reassembled} (node : Node)
    (htype : ¬ (handed.dataType = 0 ∨ handed.dataType = 2)) :
    Quiet (processReassembled http handed node).val.2 := by
  rw [not_or] at htype
  rw [processReassembled, if_neg htype.1]
  by_cases hmessage : handed.dataType = 1
  · rw [if_pos hmessage, Traced.val_pure, processReassembledMessage]
    split
    · exact ⟨rfl, rfl⟩
    · exact ⟨rfl, rfl⟩
  · rw [if_neg hmessage, if_neg htype.2]
    exact quiet_nil

namespace Node

variable (world : World) (now : UInt32) (node : Node)

/-- What comes of a multipart packet. -/
theorem effects_receivePart :
    Quiet (node.receivePart world now).val.2 ∨
      ∃ (handed : Reassembled) (receiver : Receiver),
        handed.src = node.receiver.rx.partSource ∧ handed.dataType = node.receiver.rx.byte 9 ∧
          (node.receivePart world now).val.2 =
            (processReassembled world.http handed (node.withReceiver receiver)).val.2 := by
  rw [receivePart, Traced.val_bind]
  cases hhanded : (processMultipartPacket now node.receiver.rx node.receiver.table).val.handed with
  | none => exact Or.inl quiet_nil
  | some handed =>
      obtain ⟨hsrc, htype⟩ := key_processMultipartPacket now node.receiver.rx hhanded
      exact Or.inr ⟨handed, _, hsrc, htype, rfl⟩

/-- **What comes of a packet**: nothing is submitted or sent, or it is a multipart packet
and a text with its key is processed. -/
theorem effects_receive (payload : Bytes) :
    let rx := node.receiver.rx.onRxDone payload
    Quiet (node.receive world now payload).val.2 ∨
      rx.byte 0 = SerialCommand.multipartPacket.code ∧
        ∃ (handed : Reassembled) (receiver : Receiver),
          handed.src = rx.partSource ∧ handed.dataType = rx.byte 9 ∧
            (node.receive world now payload).val.2 =
              (processReassembled world.http handed (node.withReceiver receiver)).val.2 := by
  intro rx
  let heard : Node := node.withReceiver ⟨rx, node.receiver.table⟩
  by_cases hkind : rx.byte 0 = SerialCommand.multipartPacket.code
  · rcases node.receive_of_multipart world now hkind with hpart | hforeign
    · rw [hpart]
      exact (effects_receivePart world now heard).imp_right fun hhanded => ⟨hkind, hhanded⟩
    · rw [hforeign]
      exact Or.inl quiet_nil
  · rcases node.effects_of_not_multipart world now hkind with
      hnone | hhost | ⟨data, hconfirmed⟩ | habort
    · rw [hnone]
      exact Or.inl quiet_nil
    · rw [hhost]
      exact Or.inl (quiet_toHost rx)
    · rw [hconfirmed]
      exact Or.inl ⟨rfl, rfl⟩
    · rw [habort]
      exact Or.inl ⟨rfl, rfl⟩

end Node

/-! ## Who has written a frame -/

/-- If the frame is a multipart packet, this is the source in it. -/
def SignedBy (address : NodeAddress) (frame : Bytes) : Prop :=
  ∀ rx : RxBuffer, (rx.onRxDone frame).byte 0 = SerialCommand.multipartPacket.code →
    (rx.onRxDone frame).partSource = address

theorem MultipartMessage.signedBy_frame (m : MultipartMessage) (part : Nat) :
    SignedBy m.src (m.frame part) := by
  intro rx _
  rw [RxBuffer.partSource, m.byte_header rx part (by decide), m.byte_header rx part (by decide),
    m.byte_header rx part (by decide)]
  rfl

/-- The length of the frame of a message. -/
theorem length_messageText (text : Bytes) : (strncpy (text.take 247)).length + 8 < bufferSize := by
  rw [length_strncpy, List.length_take]
  simp only [bufferSize]
  omega

/-- The frame of a message is no multipart packet. -/
theorem byte_zero_messageFrame (localAddress originalSender : NodeAddress) (text : Bytes)
    (rx : RxBuffer) :
    (rx.onRxDone (MessageType.message.code :: 0 :: localAddress.bytes ++ originalSender.bytes ++
      strncpy (text.take 247))).byte 0 ≠ SerialCommand.multipartPacket.code := by
  have hsize := length_messageText text
  have hlength : (MessageType.message.code :: 0 :: localAddress.bytes ++ originalSender.bytes ++
      strncpy (text.take 247)).length = (strncpy (text.take 247)).length + 8 := by
    simp [NodeAddress.bytes]
  rw [RxBuffer.byte_onRxDone rx (by omega) (by omega)]
  exact (by decide : MessageType.message.code ≠ SerialCommand.multipartPacket.code)

/-- A node that forwards a text writes its own address into what it sends. -/
theorem signedBy_of_transmitted (http : Http) (handed : Reassembled) (node : Node) {frame : Bytes}
    (hframe : frame ∈ transmissions (processReassembled http handed node).val.2) :
    SignedBy node.localAddress frame := by
  have hconfirmation : ∀ text, frame ∈ confirmationFrames node.localAddress handed.src text →
      SignedBy node.localAddress frame := by
    intro text hmem
    rcases mem_confirmationFrames hmem with ⟨message, rfl⟩ | ⟨message, part, rfl⟩
    · exact fun rx hkind => absurd hkind (byte_zero_messageFrame _ _ _ rx)
    · exact MultipartMessage.signedBy_frame _ part
  by_cases htype : handed.dataType = 0 ∨ handed.dataType = 2
  · cases hcall : node.submission handed.txData with
    | some call =>
        rw [(effects_with_gateway http handed node htype hcall).2] at hframe
        exact (List.mem_append.mp hframe).elim (hconfirmation _) (hconfirmation _)
    | none =>
        rw [effects_without_gateway http handed node htype
          ((submission_eq_none_iff node handed.txData).mp hcall), transmissions_rebroadcast] at hframe
        split at hframe
        · split at hframe
          · obtain ⟨part, rfl⟩ := MultipartMessage.exists_of_mem_frames hframe
            exact MultipartMessage.signedBy_frame _ part
          · cases hframe
        · obtain rfl := List.mem_singleton.mp hframe
          intro rx hkind
          have hbroadcast := @byte_zero_sendFromStart .broadcast node.serialBuf
            (ascii "transaction" ++ colon ::
              (handed.rebroadcastPriority ++ colon :: handed.rebroadcastData)) (by simp) rx
          exact absurd (hbroadcast.symm.trans hkind) (by decide)
  · rw [(quiet_processReassembled http node htype).2] at hframe
    cases hframe

/-! ## Answers -/

/-- The frames of an answer are addressed to the node that has sent the text. -/
theorem destination_of_confirmation {localAddress originalSender : NodeAddress} {text frame : Bytes}
    (hframe : frame ∈ confirmationFrames localAddress originalSender text) (rx : RxBuffer) :
    (rx.onRxDone frame).destination = originalSender := by
  rcases mem_confirmationFrames hframe with ⟨message, rfl⟩ | ⟨message, part, rfl⟩
  · exact destination_onRxDone rx (by decide) (show (0 :: localAddress.bytes).length = 4 from rfl)
      (length_messageText message)
  · exact MultipartMessage.destination_frame _ rx part

/-- No node sends anything on for the frame of an answer. -/
theorem silent_of_confirmation {localAddress originalSender : NodeAddress} {text frame : Bytes}
    (hframe : frame ∈ confirmationFrames localAddress originalSender text) (world : World)
    (now : UInt32) (node : Node) : transmissions (node.receive world now frame).val.2 = [] := by
  rcases node.effects_receive world now frame with hquiet | ⟨hkind, handed, receiver, -, htype, heq⟩
  · exact hquiet.2
  · rcases mem_confirmationFrames hframe with ⟨message, rfl⟩ | ⟨message, part, rfl⟩
    · exact absurd hkind (byte_zero_messageFrame _ _ _ _)
    · rw [MultipartMessage.byte_header _ _ _ (by decide)] at htype
      have hone : handed.dataType = 1 := htype
      rw [heq]
      refine (quiet_processReassembled world.http _ ?_).2
      rw [hone]
      decide

/-- A node that submits something upon a frame sends two times the same answer, to the
source in the frame. -/
theorem answer_of_submission (world : World) (now : UInt32) {node : Node} {frame : Bytes}
    {address : NodeAddress} (hsigned : SignedBy address frame)
    (hsubmits : submissions (node.receive world now frame).val.2 ≠ []) :
    ∃ text, transmissions (node.receive world now frame).val.2 =
      confirmationFrames node.localAddress address text ++
        confirmationFrames node.localAddress address text := by
  rcases node.effects_receive world now frame with
    hquiet | ⟨hkind, handed, receiver, hsrc, -, heq⟩
  · exact absurd hquiet.1 hsubmits
  · rw [hsigned node.receiver.rx hkind] at hsrc
    rw [heq] at hsubmits ⊢
    by_cases htype : handed.dataType = 0 ∨ handed.dataType = 2
    · cases hcall : (node.withReceiver receiver).submission handed.txData with
      | none => exact absurd (submissions_without_gateway world.http htype hcall) hsubmits
      | some call =>
          have hanswer := (effects_with_gateway world.http handed _ htype hcall).2
          rw [hsrc] at hanswer
          exact ⟨_, hanswer⟩
    · exact absurd (quiet_processReassembled world.http _ htype).1 hsubmits

namespace MeshNet

variable {ι : Type} [DecidableEq ι] {hears : ι → ι → Prop}

/-! ## Runs -/

/-- **What an event adds**: nothing, or the reaction of a node to a frame that was
sent. -/
theorem sent_step (net : MeshNet ι) (event : MeshEvent ι) :
    (net.step event).sent = net.sent ∨
      ∃ (receiver : ι) (cause : Nat) (heard : Caused (Transmission ι)) (frame : Bytes)
        (world : World) (now : UInt32),
        net.sent[cause]? = some heard ∧ frame ∈ heard.item.frames ∧
          transmissions ((net.nodes receiver).receive world now frame).val.2 ≠ [] ∧
          (net.step event).sent = net.sent ++ [⟨⟨receiver,
            transmissions ((net.nodes receiver).receive world now frame).val.2⟩, some cause⟩] := by
  cases event with
  | cleanup node now => exact Or.inl rfl
  | receive receiver cause part world now =>
      rw [step]
      cases hheard : net.sent[cause]? with
      | none => exact Or.inl rfl
      | some heard =>
          simp only [Option.bind_some]
          cases hframe : heard.item.frames[part]? with
          | none => exact Or.inl rfl
          | some frame =>
              simp only [react]
              split
              next => exact Or.inl rfl
              next hloud =>
                exact Or.inr ⟨receiver, cause, heard, frame, world, now, hheard,
                  List.mem_of_getElem? hframe, hloud, rfl⟩

/-- No event changes the setup of a node. -/
theorem sameSetup_step (net : MeshNet ι) (event : MeshEvent ι) (i : ι) :
    (net.nodes i).SameSetup ((net.step event).nodes i) := by
  have hupdate : ∀ (j : ι) (node : Node), (net.nodes j).SameSetup node →
      (net.nodes i).SameSetup (Function.update net.nodes j node i) := by
    intro j node hsame
    by_cases hij : i = j
    · rw [hij, Function.update_self]
      exact hsame
    · rw [Function.update_of_ne hij]
      exact .refl _
  cases event with
  | cleanup node now => exact hupdate node _ ⟨rfl, rfl, rfl⟩
  | receive receiver cause part world now =>
      rw [step]
      split
      next frame _ => exact hupdate receiver _ (Node.sameSetup_receive world now _ frame)
      next => exact .refl _

/-- Every node has the address that it started with and writes it into what it sends, and
everything but the broadcast is a reaction to something that was sent. -/
structure Signed (nodes : ι → Node) (net : MeshNet ι) : Prop where
  localAddress : ∀ i, (net.nodes i).localAddress = (nodes i).localAddress
  signed : ∀ entry ∈ net.sent, ∀ frame ∈ entry.item.frames,
    SignedBy (nodes entry.item.sender).localAddress frame
  grounded : Grounded net.sent

namespace Signed

variable {nodes : ι → Node} {net : MeshNet ι}

omit [DecidableEq ι] in
/-- Before anything is received. -/
theorem injected (nodes : ι → Node) {origin : ι} {call : BroadcastCall}
    (haddress : call.localAddress = (nodes origin).localAddress) :
    Signed nodes (injected nodes origin call) where
  localAddress := fun _ => rfl
  signed := by
    intro entry hentry frame hframe
    obtain rfl := List.mem_singleton.mp hentry
    have hsent : call.sendCall.sent.val =
        if call.multipart.parts ≤ maxMultipartParts then call.multipart.frames else [] :=
      val_sendMultipartBroadcast _ _ _ _
    rw [hsent] at hframe
    split at hframe
    · obtain ⟨part, rfl⟩ := MultipartMessage.exists_of_mem_frames hframe
      have hsigned := call.multipart.signedBy_frame part
      rwa [show call.multipart.src = call.localAddress from rfl, haddress] at hsigned
    · cases hframe
  grounded := .singleton _

theorem step (h : Signed nodes net) (event : MeshEvent ι) : Signed nodes (net.step event) := by
  have haddress : ∀ i, ((net.step event).nodes i).localAddress = (nodes i).localAddress :=
    fun i => (net.sameSetup_step event i).localAddress.trans (h.localAddress i)
  rcases net.sent_step event with
    hsame | ⟨receiver, cause, heard, frame, world, now, hheard, hframe, -, hmore⟩
  · exact ⟨haddress, hsame ▸ h.signed, hsame ▸ h.grounded⟩
  · refine ⟨haddress, ?_, ?_⟩
    · rw [hmore]
      intro entry hentry sent hsent
      rcases List.mem_append.mp hentry with hold | hnew
      · exact h.signed entry hold sent hsent
      · obtain rfl := List.mem_singleton.mp hnew
        rw [← h.localAddress receiver]
        rcases (net.nodes receiver).effects_receive world now frame with
          hquiet | ⟨-, handed, kept, -, -, heq⟩
        · rw [hquiet.2] at hsent
          cases hsent
        · rw [heq] at hsent
          exact signedBy_of_transmitted world.http handed
            ((net.nodes receiver).withReceiver kept) hsent
    · rw [hmore]
      exact h.grounded.concat (List.getElem?_eq_some_iff.mp hheard).1 _

theorem run {start : MeshNet ι} (h : Signed nodes start) (hrun : start.Runs (InRange hears) net) :
    Signed nodes net := by
  induction hrun with
  | refl => exact h
  | tail _ hstep ih =>
      obtain ⟨event, -, rfl⟩ := hstep
      exact ih.step event

end Signed

/-- What was sent at this position is an answer, and nothing was sent in reaction to it. -/
structure Unanswered (answer : Nat) (net : MeshNet ι) : Prop where
  confirmation : ∃ entry, net.sent[answer]? = some entry ∧ ∀ frame ∈ entry.item.frames,
    ∀ (world : World) (now : UInt32) (node : Node),
      transmissions (node.receive world now frame).val.2 = []
  alone : ∀ j, ¬ ReactsTo net.sent answer j

namespace Unanswered

variable {answer : Nat} {net : MeshNet ι}

theorem step (h : Unanswered answer net) (event : MeshEvent ι) :
    Unanswered answer (net.step event) := by
  rcases net.sent_step event with
    hsame | ⟨receiver, cause, heard, frame, world, now, hheard, hframe, hloud, hmore⟩
  · exact ⟨hsame ▸ h.confirmation, hsame ▸ h.alone⟩
  · obtain ⟨entry, hentry, hsilent⟩ := h.confirmation
    refine ⟨⟨entry, ?_, hsilent⟩, ?_⟩
    · rw [hmore]
      exact getElem?_append_of_some hentry _
    · rw [hmore]
      intro j hreacts
      rcases hreacts.concat_cases with hold | rfl
      · exact h.alone j hold
      · -- a frame of the answer makes no node send anything
        obtain rfl := Option.some.inj (hheard.symm.trans hentry)
        exact hloud (hsilent frame hframe world now _)

theorem run {start : MeshNet ι} (h : Unanswered answer start)
    (hrun : start.Runs (InRange hears) net) : Unanswered answer net := by
  induction hrun with
  | refl => exact h
  | tail _ hstep ih =>
      obtain ⟨event, -, rfl⟩ := hstep
      exact ih.step event

end Unanswered

/-! ## The answer to a broadcast -/

/-- A broadcast of `origin` has come over `k` relays to a node that hears the last of them
and submits something when it receives one of the frames. -/
structure ReachesGateway (hears : ι → ι → Prop) (nodes : ι → Node) (origin : ι)
    (call : BroadcastCall) (k : Nat) (net : MeshNet ι) (gateway : ι) (cause : Nat)
    (heard : Transmission ι) (result : Node × List Effect) : Prop where
  address : call.localAddress = (nodes origin).localAddress
  run : (injected nodes origin call).Runs (InRange hears) net
  path : Chain net.sent k cause
  sent : ∃ reason, net.sent[cause]? = some ⟨heard, reason⟩
  inRange : hears gateway heard.sender
  received : ∃ frame ∈ heard.frames, ∃ (world : World) (now : UInt32),
    ((net.nodes gateway).receive world now frame).val = result
  submits : submissions result.2 ≠ []

/-- In some run, what was sent at this position is sent on until `origin` hears it. -/
def RelayedBack (hears : ι → ι → Prop) (origin : ι) (net : MeshNet ι) (answer : Nat) : Prop :=
  ∃ later, net.Runs (InRange hears) later ∧ ∃ (i : Nat) (entry : Caused (Transmission ι)),
    Relation.TransGen (ReactsTo later.sent) answer i ∧ later.sent[i]? = some entry ∧
      hears origin entry.item.sender

/-- The node answers to the address of `origin`, and where `origin` does not hear it, the
answer is relayed back. -/
structure AnswerReaches (hears : ι → ι → Prop) (nodes : ι → Node) (origin : ι) (net : MeshNet ι)
    (gateway : ι) (cause : Nat) (result : Node × List Effect) : Prop where
  answers : transmissions result.2 ≠ []
  addressed : ∀ answer ∈ transmissions result.2, ∀ rx : RxBuffer,
    (rx.onRxDone answer).destination = (nodes origin).localAddress
  relayed : ¬ hears origin gateway →
    RelayedBack hears origin (net.react gateway cause result) net.sent.length

namespace ReachesGateway

variable {nodes : ι → Node} {origin : ι} {call : BroadcastCall} {k : Nat} {net : MeshNet ι}
  {gateway : ι} {cause : Nat} {heard : Transmission ι} {result : Node × List Effect}

theorem signed (h : ReachesGateway hears nodes origin call k net gateway cause heard result) :
    Signed nodes net :=
  (Signed.injected nodes h.address).run h.run

/-- The answer goes to the node that the gateway has heard. -/
theorem answer (h : ReachesGateway hears nodes origin call k net gateway cause heard result) :
    ∃ localAddress text, transmissions result.2 =
      confirmationFrames localAddress (nodes heard.sender).localAddress text ++
        confirmationFrames localAddress (nodes heard.sender).localAddress text := by
  obtain ⟨frame, hframe, world, now, rfl⟩ := h.received
  obtain ⟨reason, hheard⟩ := h.sent
  have hsigned := h.signed.signed _ (List.mem_of_getElem? hheard) frame hframe
  exact ⟨_, answer_of_submission world now hsigned h.submits⟩

/-- Every frame of the answer is addressed to the node that the gateway has heard. -/
theorem destination (h : ReachesGateway hears nodes origin call k net gateway cause heard result)
    {frame : Bytes} (hframe : frame ∈ transmissions result.2) (rx : RxBuffer) :
    (rx.onRxDone frame).destination = (nodes heard.sender).localAddress := by
  obtain ⟨localAddress, text, hanswer⟩ := h.answer
  rw [hanswer] at hframe
  exact (List.mem_append.mp hframe).elim (destination_of_confirmation · rx)
    (destination_of_confirmation · rx)

theorem answers (h : ReachesGateway hears nodes origin call k net gateway cause heard result) :
    ∃ frame, frame ∈ transmissions result.2 := by
  obtain ⟨localAddress, text, hanswer⟩ := h.answer
  obtain ⟨frame, rest, hframes, -⟩ :=
    confirmationFrames_eq_cons localAddress (nodes heard.sender).localAddress text
  refine ⟨frame, ?_⟩
  rw [hanswer, hframes]
  exact List.mem_cons_self

/-- The answer is on record, and nothing has come of it yet. -/
theorem unanswered (h : ReachesGateway hears nodes origin call k net gateway cause heard result) :
    Unanswered net.sent.length (net.react gateway cause result) := by
  obtain ⟨frame, hframe⟩ := h.answers
  have hsent : (net.react gateway cause result).sent = _ :=
    sent_react rfl (List.ne_nil_of_mem hframe)
  obtain ⟨localAddress, text, hanswer⟩ := h.answer
  obtain ⟨reason, hheard⟩ := h.sent
  have hcause : cause < net.sent.length := (List.getElem?_eq_some_iff.mp hheard).1
  refine ⟨⟨_, by rw [hsent]; exact List.getElem?_concat_length, ?_⟩, fun j hreacts => ?_⟩
  · intro sent hmem world now node
    have hmem' : sent ∈ transmissions result.2 := hmem
    rw [hanswer] at hmem'
    exact (List.mem_append.mp hmem').elim (silent_of_confirmation · world now node)
      (silent_of_confirmation · world now node)
  · rw [hsent] at hreacts
    rcases hreacts.concat_cases with hold | heq
    · exact absurd (h.signed.grounded _ j hold) (Nat.lt_irrefl _)
    · exact absurd heq hcause.ne'

/-- No run brings the answer any further. -/
theorem not_relayedBack
    (h : ReachesGateway hears nodes origin call k net gateway cause heard result) :
    ¬ RelayedBack hears origin (net.react gateway cause result) net.sent.length := by
  rintro ⟨later, hrun, i, entry, hfollows, -⟩
  exact not_follows (h.unanswered.run hrun).alone i hfollows

end ReachesGateway

/-! ## A gateway behind a relay -/

/-- A node with a gateway that has received all frames but the last one submits upon that
one. -/
theorem Hearing.submits {net : MeshNet ι} {receiver : ι} {cause : Nat} {m : MultipartMessage}
    (h : Hearing hears net receiver cause m) (hgateway : (net.nodes receiver).HasGateway) :
    ∃ later, net.Runs (InRange hears) later ∧ later.sent = net.sent ∧ ∃ frame ∈ m.frames,
      submissions ((later.nodes receiver).receive silentWorld 0 frame).val.2 ≠ [] := by
  have hpos := h.parts_pos
  have hpart : m.parts - 1 < m.parts := by omega
  obtain ⟨kept, opens, hrun, htable, hheld⟩ := h.run_first (m.parts - 1) hpart
  let node := (net.nodes receiver).withReceiver kept
  have hnext := Node.holdsParts_receive hheld h.fits (.inr (.inr h.dataType)) 0 hpart
    Finset.notMem_range_self
  rw [← Finset.range_add_one, Nat.sub_add_cancel hpos, if_pos rfl] at hnext
  have hhere : TableRepresents node.receiver.table opens := htable
  obtain ⟨full, -, hvalue⟩ :=
    Node.receive_part silentWorld 0 hpart h.fits (.inr h.dest) hhere
  rw [hnext] at hvalue
  refine ⟨net.withNode receiver node, hrun.mono fun before event hallowed => hallowed.1, rfl,
    m.frame (m.parts - 1), List.mem_of_getElem? (m.getElem?_frames hpart), ?_⟩
  have hnode : (net.withNode receiver node).nodes receiver = node := Function.update_self _ _ _
  have hfull : (node.withReceiver full).HasGateway := hgateway
  have hsubmitted := @submitted_processReassembled silentWorld.http m.delivered _
    (.inr h.dataType) hfull
  rw [hnode, hvalue]
  intro hnone
  rw [submitted, show submissions (processReassembled silentWorld.http m.delivered
    (node.withReceiver full)).val.2 = [] from hnone] at hsubmitted
  cases hsubmitted

/-- The node that sends a broadcast, a relay at 10.0.1, and a node at 10.0.9 that is
online. -/
inductive Place
  | origin
  | relay
  | gateway
  deriving DecidableEq, Repr

namespace Place

def node (call : BroadcastCall) : Place → Node
  | .origin => { plainNode with localAddress := call.localAddress }
  | .relay => plainNode
  | .gateway => onlineNode

/-- Everybody is in range of the relay, and nobody of anybody else. -/
def inLine (receiver sender : Place) : Prop :=
  receiver ≠ sender ∧ (receiver = .relay ∨ sender = .relay)

end Place

/-- Over a relay, a broadcast that is long enough and fits comes to the gateway. -/
theorem gateway_behind_relay {call : BroadcastCall} (hlong : 255 < call.prefixedLength 1)
    (hfits : call.prefixedLength 2 ≤ 4000) :
    ∃ net cause heard result, heard.sender = Place.relay ∧
      ReachesGateway Place.inLine (Place.node call) .origin call 1 net .gateway cause heard
        result := by
  have hair : BroadcastCall.OnAir call 0 call.multipart := .injected
  have hdata := hair.read.2
  have hmono : call.prefixedLength 1 ≤ call.prefixedLength 2 :=
    call.prefixedLength_mono (Nat.le_succ 1)
  have hparts := (BroadcastCall.parts_le_iff call.multipart).mpr
    (hair.length_text.1.trans (hmono.trans hfits))
  have hhearing : Hearing Place.inLine (injected (Place.node call) .origin call) .relay 0
      call.multipart :=
    ⟨⟨_, rfl, call.sendCall.val_sent hparts, by simp [Place.inLine]⟩, rfl, rfl, hair.parts_pos,
      hparts, idle_plainNode⟩
  obtain ⟨kept, -, hrun⟩ := hhearing.run_all
  -- the relay sends the broadcast on
  have hnone : ¬ (plainNode.withReceiver kept).HasGateway := not_hasGateway_plainNode
  have hnext : BroadcastCall.OnAir call 1 (call.relayed plainNode.localAddress
    call.multipart.delivered.rebroadcastData).multipart := .relayed _ hdata
  have hnextParts := (BroadcastCall.parts_le_iff _).mpr (hnext.length_text.1.trans hfits)
  have hsent := hair.transmissions_process silentWorld.http hnone
  have haddress : (plainNode.withReceiver kept).localAddress = plainNode.localAddress := rfl
  rw [if_pos (hdata ▸ hlong : call.multipart.delivered.rebroadcastData.length > 255), haddress,
    if_pos hnextParts] at hsent
  generalize (call.relayed plainNode.localAddress
    call.multipart.delivered.rebroadcastData).multipart = m at hnext hnextParts hsent
  obtain ⟨relayed, hrelayed⟩ : ∃ relayed : MeshNet Place, relayed =
    (injected (Place.node call) .origin call).react .relay 0 (processReassembled silentWorld.http
      call.multipart.delivered (plainNode.withReceiver kept)).val := ⟨_, rfl⟩
  have hrecord : relayed.sent = (injected (Place.node call) .origin call).sent ++
      [⟨⟨.relay, m.frames⟩, some 0⟩] := by
    rw [hrelayed]
    exact sent_react hsent hnext.frames_ne_nil
  have hgateway : relayed.nodes .gateway = onlineNode := by
    rw [hrelayed, nodes_react]
    exact Function.update_of_ne (by decide) _ _
  have hheard : relayed.sent[1]? = some ⟨⟨.relay, m.frames⟩, some 0⟩ := by
    rw [hrecord]
    rfl
  -- the gateway submits it
  have hhears : Hearing Place.inLine relayed .gateway 1 m :=
    ⟨⟨_, hheard, rfl, by simp [Place.inLine]⟩, hnext.dest, hnext.dataType, hnext.parts_pos,
      hnextParts, by rw [hgateway]; rfl⟩
  obtain ⟨later, hlater, hsame, frame, hframe, hsubmits⟩ :=
    hhears.submits (by rw [hgateway]; exact Or.inr rfl)
  have hchain : Chain relayed.sent 1 1 := by
    rw [hrecord]
    exact (Chain.root rfl : Chain _ 0 0).concat _
  refine ⟨later, 1, _, _, rfl, ⟨rfl, ?_, hsame ▸ hchain, ⟨_, hsame ▸ hheard⟩, by simp [Place.inLine],
    ⟨frame, hframe, silentWorld, 0, rfl⟩, hsubmits⟩⟩
  rw [hrelayed] at hlater
  exact (hrun.mono fun before event hallowed => hallowed.1).trans hlater

/-! ## The way back -/

/-- **The way back.** The answer of a gateway reaches the origin exactly if the node that
the gateway has heard has the address of the origin, as the origin itself has, and the
origin hears the gateway. -/
theorem answerReaches_iff {nodes : ι → Node} {origin : ι} {call : BroadcastCall} {k : Nat}
    {net : MeshNet ι} {gateway : ι} {cause : Nat} {heard : Transmission ι}
    {result : Node × List Effect}
    (h : ReachesGateway hears nodes origin call k net gateway cause heard result) :
    AnswerReaches hears nodes origin net gateway cause result ↔
      (nodes heard.sender).localAddress = (nodes origin).localAddress ∧ hears origin gateway := by
  constructor
  · intro hreaches
    obtain ⟨frame, hframe⟩ := h.answers
    refine ⟨?_, ?_⟩
    · exact (h.destination hframe RxBuffer.boot).symm.trans
        (hreaches.addressed frame hframe RxBuffer.boot)
    · by_contra hfar
      exact h.not_relayedBack (hreaches.relayed hfar)
  · rintro ⟨haddress, hnear⟩
    obtain ⟨frame, hframe⟩ := h.answers
    exact ⟨List.ne_nil_of_mem hframe,
      fun answer hanswer rx => (h.destination hanswer rx).trans haddress,
      fun hfar => absurd hnear hfar⟩

/-- The equivalence for a run of this kind. -/
theorem answerReaches_iff_behind_relay : ∃ net cause heard result,
    ReachesGateway Place.inLine (Place.node longCall) .origin longCall 1 net .gateway cause heard
        result ∧
      (AnswerReaches Place.inLine (Place.node longCall) .origin net .gateway cause result ↔
        (Place.node longCall heard.sender).localAddress =
            (Place.node longCall .origin).localAddress ∧
          Place.inLine .origin .gateway) := by
  obtain ⟨net, cause, heard, result, -, h⟩ := @gateway_behind_relay longCall
    (by rw [prefixedLength_longCall]; decide) (by rw [prefixedLength_longCall]; decide)
  exact ⟨net, cause, heard, result, h, answerReaches_iff h⟩

/-- The 300 digits come over the relay to the gateway, whose answer goes to the relay. -/
theorem answer_stops_at_relay :
    ¬ ∀ (net : MeshNet Place) (cause : Nat) (heard : Transmission Place)
      (result : Node × List Effect),
      ReachesGateway Place.inLine (Place.node longCall) .origin longCall 1 net .gateway cause heard
        result →
      AnswerReaches Place.inLine (Place.node longCall) .origin net .gateway cause result := by
  intro hall
  obtain ⟨net, cause, heard, result, hrelay, h⟩ := @gateway_behind_relay longCall
    (by rw [prefixedLength_longCall]; decide) (by rw [prefixedLength_longCall]; decide)
  obtain ⟨frame, hframe⟩ := h.answers
  have hdestination := h.destination hframe RxBuffer.boot
  rw [(hall net cause heard result h).addressed frame hframe RxBuffer.boot, hrelay] at hdestination
  exact absurd hdestination (by decide)

end MeshNet

end RadioDoge.V3
