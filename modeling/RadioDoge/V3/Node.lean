/-
# A node and the packets it receives

`ParseReceivedMessage` looks at the addresses of a packet and then at its type. A
multipart packet goes to the reassembly, whose result is processed at once; every
other packet is shown, answered or passed to the host as it is.

`receiveAll_frames` is what the rest of the development uses of a node: whatever
the order in which the frames of one message arrive, the effects are those of
processing the text once.
-/

import RadioDoge.V3.Gateway
import RadioDoge.V3.Addressing
import RadioDoge.V3.Traffic

namespace RadioDoge.V3

/-- What a node finds around it: the HTTP client, and the bytes that stand behind a
block of heap memory. -/
structure World where
  http : Http
  heap : Bytes

/-- What `setup` finds when the firmware starts again: the stored gateway, and the connection. -/
structure Found where
  gateway : GatewayConfig
  internetConnected : Bool
  internetBridgeEnabled : Bool

/-- `ExtractStringMessageFromBuffer`, unless `new char[messageSize]` aborts. The copy is not
terminated: the `String` made of it ends at the first NUL, in the copy or behind it. -/
def extractStringMessageFromBuffer (world : World) (rx : RxBuffer) : Option Bytes :=
  let messageSize : Int := rx.rxSize - 6
  if messageSize < 0 then none
  else
    let extractedMessage := slice rx.rxPacket 7 messageSize.toNat
    some (ofCString (extractedMessage ++ world.heap))

/-- The address that `ParseReceivedMessage` acknowledges a ping to. -/
def RxBuffer.pingSource (rx : RxBuffer) : NodeAddress := ⟨rx.byte 2, rx.byte 3, rx.byte 4⟩

/-- `Serial.write(rxPacket, rxSize)`. -/
def RxBuffer.toHost (rx : RxBuffer) : Effect := .host (slice rx.rxPacket 0 rx.rxSize.toNat)

/-- A frame of a message is a multipart packet. -/
theorem MultipartMessage.byte_zero_frame (m : MultipartMessage) (rx : RxBuffer) (part : Nat) :
    (rx.onRxDone (m.frame part)).byte 0 = SerialCommand.multipartPacket.code :=
  m.byte_header rx part (by decide)

/-- A frame of a message is addressed to its destination. -/
theorem MultipartMessage.destination_frame (m : MultipartMessage) (rx : RxBuffer) (part : Nat) :
    (rx.onRxDone (m.frame part)).destination = m.dest := by
  rw [RxBuffer.destination, if_pos (m.byte_zero_frame rx part), m.byte_header rx part (by decide),
    m.byte_header rx part (by decide), m.byte_header rx part (by decide)]
  rfl

namespace Node

/-- The multipart case: reassemble, and process what is handed on. -/
def receivePart (world : World) (now : UInt32) (node : Node) : Checked (Node × List Effect) := do
  let result ← processMultipartPacket now node.receiver.rx node.receiver.table
  let node := { node with receiver := ⟨node.receiver.rx, result.table⟩ }
  match result.handed with
  | some handed => processReassembled world.http handed node
  | none => pure (node, [])

/-- The switch of `ParseReceivedMessage` over a packet to this node. -/
def receivedForMe (world : World) (now : UInt32) (node : Node) : Checked (Node × List Effect) :=
  match packetKind (node.receiver.rx.byte 0) with
  | .ack => pure (node, [])
  | .ping => pure ({ node with dest := node.receiver.rx.pingSource, needToSendAck := true }, [])
  | .message =>
      match extractStringMessageFromBuffer world node.receiver.rx with
      | some messageString =>
          if startsWith messageString (ascii "DOGECOIN_RESPONSE:") then
            pure (node, [.handleConfirmationReceived messageString])
          else pure (node, [])
      | none => pure (node, [.abort])
  | .transaction | .broadcast =>
      match extractStringMessageFromBuffer world node.receiver.rx with
      -- the text of a transaction or a broadcast is only displayed
      | some _ => pure (node, [])
      | none => pure (node, [.abort])
  | .hostFormedPacket => pure (node, [node.receiver.rx.toHost])
  | .multipartPacket => node.receivePart world now
  | .other => pure (node, [])

/-- The branch of `ParseReceivedMessage` for a global broadcast. -/
def receivedGlobalBroadcast (world : World) (now : UInt32) (node : Node) :
    Checked (Node × List Effect) :=
  if node.receiver.rx.byte 0 = SerialCommand.multipartPacket.code then node.receivePart world now
  else pure (node, [node.receiver.rx.toHost])

/-- `ParseReceivedMessage`. -/
def parseReceivedMessage (world : World) (now : UInt32) (node : Node) :
    Checked (Node × List Effect) :=
  if checkIfPacketForMe node.localAddress node.receiver.rx then node.receivedForMe world now
  else if checkIfPacketIsGlobalBroadcast node.receiver.rx then
    node.receivedGlobalBroadcast world now
  else pure (node, [])

/-- `OnRxDone`. -/
def receive (world : World) (now : UInt32) (payload : Bytes) (node : Node) :
    Checked (Node × List Effect) :=
  parseReceivedMessage world now
    { node with receiver := ⟨node.receiver.rx.onRxDone payload, node.receiver.table⟩ }

/-- Packets received one after the other, with the time of each. -/
def receiveAll (world : World) (node : Node) :
    List (UInt32 × Bytes) → Checked (Node × List Effect)
  | [] => pure (node, [])
  | (now, payload) :: rest => do
      let first ← node.receive world now payload
      let later ← first.1.receiveAll world rest
      pure (later.1, first.2 ++ later.2)

theorem val_receiveAll_cons (world : World) (node : Node) (now : UInt32) (payload : Bytes)
    (rest : List (UInt32 × Bytes)) :
    (node.receiveAll world ((now, payload) :: rest)).val =
      (((node.receive world now payload).val.1.receiveAll world rest).val.1,
        (node.receive world now payload).val.2 ++
          ((node.receive world now payload).val.1.receiveAll world rest).val.2) := rfl

/-- The node with another receiver. -/
def withReceiver (node : Node) (receiver : Receiver) : Node := { node with receiver := receiver }

/-- The main loop of a node sweeps expired sessions. -/
def cleanup (node : Node) (now : UInt32) : Node :=
  node.withReceiver
    ⟨node.receiver.rx, cleanupExpiredMultipartSessions now node.receiver.table⟩

/-- The node takes packets to this address. -/
def Accepts (node : Node) (target : NodeAddress) : Prop :=
  target = node.localAddress ∨ target = NodeAddress.broadcast

/-- No session is open. -/
def Idle (node : Node) : Prop := node.receiver.table.count = 0

theorem tableRepresents_idle {node : Node} (h : node.Idle) :
    TableRepresents node.receiver.table [] := by
  rw [TableRepresents, (SlotTable.live_eq_nil_iff node.receiver.table).mpr h]
  exact .nil

/-! ## Who a packet is for -/

section Addressed

variable (world : World) (now : UInt32) {node : Node}

theorem parse_forMe (hforMe : node.localAddress = node.receiver.rx.destination) :
    node.parseReceivedMessage world now = node.receivedForMe world now :=
  if_pos ((checkIfPacketForMe_iff _ _).mpr hforMe)

theorem parse_global (hother : node.localAddress ≠ node.receiver.rx.destination)
    (hglobal : node.receiver.rx.destination = NodeAddress.broadcast) :
    node.parseReceivedMessage world now = node.receivedGlobalBroadcast world now := by
  rw [parseReceivedMessage, if_neg (mt (checkIfPacketForMe_iff _ _).mp hother),
    if_pos ((checkIfPacketIsGlobalBroadcast_iff _).mpr hglobal.symm)]

theorem parse_foreign (hother : node.localAddress ≠ node.receiver.rx.destination)
    (hforeign : node.receiver.rx.destination ≠ NodeAddress.broadcast) :
    node.parseReceivedMessage world now = pure (node, []) := by
  rw [parseReceivedMessage, if_neg (mt (checkIfPacketForMe_iff _ _).mp hother),
    if_neg (mt (checkIfPacketIsGlobalBroadcast_iff _).mp hforeign.symm)]

end Addressed

/-! ## Packets of either kind -/

/-- Only the code of a multipart packet selects that case. -/
theorem packetKind_eq_multipart_iff (first : UInt8) :
    packetKind first = .multipartPacket ↔ first = SerialCommand.multipartPacket.code := by
  constructor
  · intro h
    by_contra hne
    simp only [packetKind, if_neg hne] at h
    split_ifs at h
  · rintro rfl
    rfl

section Kinds

variable (world : World) (now : UInt32) (node : Node) {payload : Bytes}

/-- What comes of a packet that is no multipart packet: nothing, or it is given to the
host, or a confirmation is handled, or the firmware starts again. -/
theorem effects_of_not_multipart
    (hkind : (node.receiver.rx.onRxDone payload).byte 0 ≠ SerialCommand.multipartPacket.code) :
    (node.receive world now payload).val.2 = [] ∨
      (node.receive world now payload).val.2 = [(node.receiver.rx.onRxDone payload).toHost] ∨
      (∃ data, (node.receive world now payload).val.2 = [.handleConfirmationReceived data]) ∨
      (node.receive world now payload).val.2 = [.abort] := by
  let heard := node.withReceiver ⟨node.receiver.rx.onRxDone payload, node.receiver.table⟩
  change (heard.parseReceivedMessage world now).val.2 = [] ∨
    (heard.parseReceivedMessage world now).val.2 = [heard.receiver.rx.toHost] ∨
      (∃ data, (heard.parseReceivedMessage world now).val.2 = [.handleConfirmationReceived data]) ∨
      (heard.parseReceivedMessage world now).val.2 = [.abort]
  rw [parseReceivedMessage]
  split
  · rw [receivedForMe]
    cases hpacket : packetKind (heard.receiver.rx.byte 0) with
    | multipartPacket => exact absurd ((packetKind_eq_multipart_iff _).mp hpacket) hkind
    | hostFormedPacket => exact Or.inr (Or.inl rfl)
    | message =>
        cases extractStringMessageFromBuffer world heard.receiver.rx with
        | none => exact Or.inr (Or.inr (Or.inr rfl))
        | some messageString =>
            simp only
            split
            · exact Or.inr (Or.inr (Or.inl ⟨_, rfl⟩))
            · exact Or.inl rfl
    | transaction =>
        cases extractStringMessageFromBuffer world heard.receiver.rx with
        | none => exact Or.inr (Or.inr (Or.inr rfl))
        | some _ => exact Or.inl rfl
    | broadcast =>
        cases extractStringMessageFromBuffer world heard.receiver.rx with
        | none => exact Or.inr (Or.inr (Or.inr rfl))
        | some _ => exact Or.inl rfl
    | ping => exact Or.inl rfl
    | ack => exact Or.inl rfl
    | other => exact Or.inl rfl
  · split
    · have hother : heard.receiver.rx.byte 0 ≠ SerialCommand.multipartPacket.code := hkind
      rw [receivedGlobalBroadcast, if_neg hother]
      exact Or.inr (Or.inl rfl)
    · exact Or.inl rfl

/-- A multipart packet goes to the reassembly, or nothing comes of it. -/
theorem receive_of_multipart
    (hkind : (node.receiver.rx.onRxDone payload).byte 0 = SerialCommand.multipartPacket.code) :
    node.receive world now payload = receivePart world now
        (node.withReceiver ⟨node.receiver.rx.onRxDone payload, node.receiver.table⟩) ∨
      (node.receive world now payload).val.2 = [] := by
  let heard := node.withReceiver ⟨node.receiver.rx.onRxDone payload, node.receiver.table⟩
  change heard.parseReceivedMessage world now = heard.receivePart world now ∨
    (heard.parseReceivedMessage world now).val.2 = []
  have hpacket : packetKind (heard.receiver.rx.byte 0) = .multipartPacket :=
    (packetKind_eq_multipart_iff _).mpr hkind
  have hmultipart : heard.receiver.rx.byte 0 = SerialCommand.multipartPacket.code := hkind
  rw [parseReceivedMessage]
  split
  · rw [receivedForMe, hpacket]
    exact Or.inl rfl
  · split
    · rw [receivedGlobalBroadcast, if_pos hmultipart]
      exact Or.inl rfl
    · exact Or.inr rfl

end Kinds

/-! ## Multipart packets -/

/-- Process what is handed on by one step of the receiver. -/
def process (world : World) (node : Node) (handed : List Reassembled) :
    Checked (Node × List Effect) :=
  match handed with
  | [] => pure (node, [])
  | first :: _ => processReassembled world.http first node

/-- A multipart packet for this node is a step of its receiver. -/
theorem receive_multipart (world : World) (now : UInt32) {payload : Bytes} (node : Node)
    (hkind : (node.receiver.rx.onRxDone payload).byte 0 = SerialCommand.multipartPacket.code)
    (haccept : node.Accepts (node.receiver.rx.onRxDone payload).destination) :
    node.receive world now payload =
      (node.receiver.step (.frame now payload) >>= fun stepped =>
        process world (node.withReceiver stepped.1) stepped.2) := by
  let heard := node.withReceiver ⟨node.receiver.rx.onRxDone payload, node.receiver.table⟩
  have hpart : heard.parseReceivedMessage world now = heard.receivePart world now := by
    by_cases hforMe : heard.localAddress = heard.receiver.rx.destination
    · have hcase : packetKind (heard.receiver.rx.byte 0) = .multipartPacket := by
        rw [show heard.receiver.rx.byte 0 = _ from hkind]
        rfl
      rw [parse_forMe world now hforMe, receivedForMe, hcase]
    · have hglobal := haccept.resolve_left (Ne.symm hforMe)
      rw [parse_global world now hforMe hglobal]
      exact if_pos hkind
  change heard.parseReceivedMessage world now = _
  rw [hpart, receivePart]
  simp only [Receiver.step, Traced.bind_assoc, Traced.pure_bind]
  refine congrArg (processMultipartPacket _ _ _ >>= ·) (funext fun result => ?_)
  cases hhanded : result.handed with
  | none =>
      simp only [Option.toList_none]
      rfl
  | some handed =>
      simp only [Option.toList_some]
      rfl

/-! ## One message at a node -/

section OneMessage

variable {m : MultipartMessage} {node : Node}

/-- A frame of a message is a multipart packet to its destination. -/
theorem receive_frame (world : World) (now : UInt32) (m : MultipartMessage) (part : Nat)
    (node : Node) (haccept : node.Accepts m.dest) :
    node.receive world now (m.frame part) =
      (node.receiver.step (.frame now (m.frame part)) >>= fun stepped =>
        process world (node.withReceiver stepped.1) stepped.2) := by
  refine receive_multipart world now node (m.byte_zero_frame node.receiver.rx part) ?_
  rwa [m.destination_frame]

/-- One part of a message: the receiver does what the abstract one does, and what is
handed on is processed. -/
theorem receive_part (world : World) (now : UInt32) {part : Nat} (hpart : part < m.parts)
    (hparts : m.parts ≤ maxMultipartParts) (haccept : node.Accepts m.dest)
    {opens : List Assembly} (htable : TableRepresents node.receiver.table opens) :
    ∃ receiver : Receiver,
      TableRepresents receiver.table (Assembly.receive now (m.partFrame part) opens).1 ∧
        (node.receive world now (m.frame part)).val =
          (process world (node.withReceiver receiver)
            (Assembly.receive now (m.partFrame part) opens).2.toList).val := by
  have hcarries := m.carries_frame node.receiver.rx hpart hparts
  obtain ⟨htable', hhanded⟩ := receive_refines htable hcarries now
  refine ⟨(node.receiver.step (.frame now (m.frame part))).val.1, htable', ?_⟩
  rw [receive_frame world now m part node haccept, Traced.val_bind, ← hhanded]
  rfl

/-- The session of the message, if any part is here. -/
def HoldsParts (m : MultipartMessage) (held : Finset Nat) (opens : List Assembly) : Prop :=
  (held = ∅ ∧ opens = []) ∨ ∃ a, opens = [a] ∧ PartOf m held a

/-- One more part: it is kept, or it completes the text. -/
theorem holdsParts_receive {held : Finset Nat} {opens : List Assembly}
    (h : HoldsParts m held opens) (hparts : m.parts ≤ maxMultipartParts)
    (htype : m.dataType = 0 ∨ m.dataType = 1 ∨ m.dataType = 2) (now : UInt32) {part : Nat}
    (hpart : part < m.parts) (hnew : part ∉ held) :
    let next := Assembly.receive now (m.partFrame part) opens
    if insert part held = Finset.range m.parts then
      next = ([], some ⟨m.dataType, m.carried, m.src⟩)
    else HoldsParts m (insert part held) next.1 ∧ next.2 = none := by
  have habsorb : ∀ (a : Assembly), PartOf m held a →
      let next := Assembly.absorb (m.partFrame part) 0 [a]
      if insert part held = Finset.range m.parts then
        next = ([], some ⟨m.dataType, m.carried, m.src⟩)
      else HoldsParts m (insert part held) next.1 ∧ next.2 = none := by
    intro a ha next
    have hslot : [a][0]? = some a := rfl
    have hnext := ha.absorb hslot hpart hparts htype
    rw [if_neg hnew] at hnext
    by_cases hall : insert part held = Finset.range m.parts
    · rw [if_pos hall] at hnext ⊢
      exact hnext
    · rw [if_neg hall] at hnext ⊢
      simp only [next, hnext]
      exact ⟨.inr ⟨_, rfl, ha.add hpart⟩, trivial⟩
  cases h with
  | inl hnone =>
      obtain ⟨rfl, rfl⟩ := hnone
      exact habsorb _ (PartOf.opened m now part)
  | inr hsome =>
      obtain ⟨a, rfl, ha⟩ := hsome
      have hfound : [a].findIdx? (Assembly.matchesFrame (m.partFrame part)) = some 0 := by
        have hmatch : a.matchesFrame (m.partFrame part) = true :=
          (ha.matchesFrame_iff m part).mpr ⟨rfl, rfl⟩
        rw [List.findIdx?_cons, hmatch]
        rfl
      simp only [Assembly.receive, hfound]
      exact habsorb a ha

/-- A part completes what is held exactly if no other one is missing. -/
theorem insert_eq_iff_eq_nil {held needed : Finset Nat} {part : Nat} {missing : List Nat}
    (hnew : part ∉ missing) (hdisjoint : Disjoint held (insert part missing.toFinset))
    (hcover : held ∪ insert part missing.toFinset = needed) :
    insert part held = needed ↔ missing = [] := by
  rw [← hcover, Finset.union_insert]
  constructor
  · intro hlast
    rw [List.eq_nil_iff_forall_not_mem]
    intro other hmem
    have hin : other ∈ insert part held := by
      rw [hlast]
      apply Finset.mem_insert_of_mem
      exact Finset.mem_union_right _ (List.mem_toFinset.mpr hmem)
    cases Finset.mem_insert.mp hin with
    | inl heq => exact hnew (heq ▸ hmem)
    | inr hother =>
        exact Finset.disjoint_left.mp hdisjoint hother
          (Finset.mem_insert_of_mem (List.mem_toFinset.mpr hmem))
  · rintro rfl
    rw [List.toFinset_nil, Finset.union_empty]

/-- The frames that are still missing complete the text, whatever their order. -/
theorem receiveAll_missing (world : World) (hparts : m.parts ≤ maxMultipartParts)
    (htype : m.dataType = 0 ∨ m.dataType = 1 ∨ m.dataType = 2) :
    ∀ {arrivals : List (UInt32 × Bytes)} {missing : List Nat} (node : Node) (held : Finset Nat)
      (opens : List Assembly),
      List.Forall₂ (fun arrival part => arrival.2 = m.frame part) arrivals missing →
      missing ≠ [] → missing.Nodup → Disjoint held missing.toFinset →
      held ∪ missing.toFinset = Finset.range m.parts → node.Accepts m.dest →
      TableRepresents node.receiver.table opens → HoldsParts m held opens →
      ∃ receiver : Receiver, receiver.table.count = 0 ∧
        (node.receiveAll world arrivals).val =
          (processReassembled world.http ⟨m.dataType, m.carried, m.src⟩
            (node.withReceiver receiver)).val := by
  intro arrivals missing node held opens harrivals
  induction harrivals generalizing node held opens with
  | nil =>
      intro hne
      exact absurd rfl hne
  | @cons arrival part later missing hframe hlater ih =>
      intro _ hnodup hdisjoint hcover haccept htable hheld
      obtain ⟨now, payload⟩ := arrival
      obtain rfl : payload = m.frame part := hframe
      obtain ⟨hpartNew, hnodup⟩ := List.nodup_cons.mp hnodup
      rw [List.toFinset_cons] at hdisjoint hcover
      have hpart : part < m.parts := Finset.mem_range.mp (by
        rw [← hcover]
        exact Finset.mem_union_right _ (Finset.mem_insert_self _ _))
      have hnew : part ∉ held := fun hmem =>
        Finset.disjoint_left.mp hdisjoint hmem (Finset.mem_insert_self _ _)
      obtain ⟨stepped, htable', hstep⟩ :=
        receive_part world now hpart hparts haccept htable
      have hnext := holdsParts_receive hheld hparts htype now hpart hnew
      by_cases hlast : insert part held = Finset.range m.parts
      · rw [if_pos hlast] at hnext
        -- nothing is missing any more
        obtain rfl := (insert_eq_iff_eq_nil hpartNew hdisjoint hcover).mp hlast
        cases hlater
        refine ⟨stepped, ?_, ?_⟩
        · rw [hnext] at htable'
          exact htable'.length_eq
        · rw [val_receiveAll_cons, hstep, hnext]
          exact Prod.ext rfl (List.append_nil _)
      · rw [if_neg hlast] at hnext
        obtain ⟨hkept, hnothing⟩ := hnext
        have hstill : held ∪ insert part missing.toFinset = insert part held ∪ missing.toFinset := by
          rw [Finset.union_insert, Finset.insert_union]
        have hne : missing ≠ [] := mt (insert_eq_iff_eq_nil hpartNew hdisjoint hcover).mpr hlast
        have hapart : Disjoint (insert part held) missing.toFinset := by
          rw [Finset.disjoint_insert_left, List.mem_toFinset]
          exact ⟨hpartNew, hdisjoint.mono_right (Finset.subset_insert _ _)⟩
        obtain ⟨receiver, hcount, hdone⟩ := ih (node.withReceiver stepped) _ _ hne hnodup hapart
          (hstill ▸ hcover) haccept htable' hkept
        refine ⟨receiver, hcount, ?_⟩
        rw [val_receiveAll_cons, hstep, hnothing]
        exact hdone

/-- **A message received whole.** When all frames of a message have come in, in any
order and at any times, the node has done what it does with the text, and no
session is open. -/
theorem receiveAll_frames (world : World) (hidle : node.Idle) (haccept : node.Accepts m.dest)
    (hparts : m.parts ≤ maxMultipartParts) (hpos : 0 < m.parts)
    (htype : m.dataType = 0 ∨ m.dataType = 1 ∨ m.dataType = 2)
    {arrivals : List (UInt32 × Bytes)} (harrivals : (arrivals.map Prod.snd).Perm m.frames) :
    ∃ receiver : Receiver, receiver.table.count = 0 ∧
      (node.receiveAll world arrivals).val =
        (processReassembled world.http ⟨m.dataType, m.carried, m.src⟩
          (node.withReceiver receiver)).val := by
  obtain ⟨order, hframes, hperm⟩ := Elementwise.perm_of_perm_map harrivals
  rw [List.forall₂_map_left_iff] at hframes
  have hne : order ≠ [] := by
    rintro rfl
    have hlength := hperm.length_eq
    rw [List.length_range, List.length_nil] at hlength
    omega
  refine receiveAll_missing world hparts htype node ∅ [] hframes hne
    (hperm.nodup_iff.mpr List.nodup_range) (Finset.disjoint_empty_left _) ?_ haccept
    (tableRepresents_idle hidle) (.inl ⟨rfl, rfl⟩)
  rw [Finset.empty_union, List.toFinset_eq_of_perm _ _ hperm, List.toFinset_range]

end OneMessage

/-! ## What receiving changes -/

/-- Address, gateway and connection are the same. -/
structure SameSetup (node later : Node) : Prop where
  localAddress : later.localAddress = node.localAddress
  gateway : later.gateway = node.gateway
  internetConnected : later.internetConnected = node.internetConnected

theorem SameSetup.refl (node : Node) : node.SameSetup node := ⟨rfl, rfl, rfl⟩

/-- The receiver is no part of the setup. -/
theorem SameSetup.of_withReceiver {node later : Node} {receiver : Receiver}
    (h : (node.withReceiver receiver).SameSetup later) : node.SameSetup later :=
  ⟨h.localAddress, h.gateway, h.internetConnected⟩

/-- Processing keeps the setup. -/
theorem OnlySent.sameSetup {node later : Node} (h : node.OnlySent later) :
    node.SameSetup later := by
  obtain ⟨dest, serialBuf, rfl⟩ := h
  exact ⟨rfl, rfl, rfl⟩

/-- Processing keeps the sessions. -/
theorem OnlySent.receiver {node later : Node} (h : node.OnlySent later) :
    later.receiver = node.receiver := by
  obtain ⟨dest, serialBuf, rfl⟩ := h
  rfl

theorem SameSetup.hasGateway_iff {node later : Node} (h : node.SameSetup later) :
    later.HasGateway ↔ node.HasGateway := by
  rw [HasGateway, HasGateway, h.gateway, h.internetConnected]

section Setup

variable (world : World) (now : UInt32) (node : Node)

theorem sameSetup_receivePart : node.SameSetup (node.receivePart world now).val.1 := by
  rw [receivePart, Traced.val_bind]
  split
  · exact .of_withReceiver (onlySent_processReassembled world.http _ _).sameSetup
  · exact ⟨rfl, rfl, rfl⟩

theorem sameSetup_receivedForMe : node.SameSetup (node.receivedForMe world now).val.1 := by
  rw [receivedForMe]
  cases packetKind (node.receiver.rx.byte 0) with
  | message =>
      cases extractStringMessageFromBuffer world node.receiver.rx with
      | none => exact .refl node
      | some messageString =>
          simp only
          split
          · exact .refl node
          · exact .refl node
  | transaction =>
      cases extractStringMessageFromBuffer world node.receiver.rx with
      | none => exact .refl node
      | some _ => exact .refl node
  | broadcast =>
      cases extractStringMessageFromBuffer world node.receiver.rx with
      | none => exact .refl node
      | some _ => exact .refl node
  | multipartPacket => exact node.sameSetup_receivePart world now
  | ping => exact ⟨rfl, rfl, rfl⟩
  | ack => exact .refl node
  | hostFormedPacket => exact .refl node
  | other => exact .refl node

theorem sameSetup_receivedGlobalBroadcast :
    node.SameSetup (node.receivedGlobalBroadcast world now).val.1 := by
  rw [receivedGlobalBroadcast]
  split
  · exact node.sameSetup_receivePart world now
  · exact .refl node

/-- Whatever is received, the setup of the node stays. -/
theorem sameSetup_receive (payload : Bytes) :
    node.SameSetup (node.receive world now payload).val.1 := by
  rw [receive, parseReceivedMessage]
  split
  · exact .of_withReceiver (sameSetup_receivedForMe world now _)
  · split
    · exact .of_withReceiver (sameSetup_receivedGlobalBroadcast world now _)
    · exact ⟨rfl, rfl, rfl⟩

end Setup

end Node

end RadioDoge.V3
