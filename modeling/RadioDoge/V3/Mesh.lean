/-
# A transaction on its way through the mesh

A node without a gateway sends on what it has received whole, until a node with a
gateway submits it. Both the relaying node and its sender function put
`transaction:priority:` in front, and a receiver cuts that prefix once, so after
one hop the text can only be too long; a text of at most 255 bytes is sent on in a
single frame, which no node forwards. `Stretched` collects what can be on the air
behind the first relay, and `delivered_iff` is the exact condition for the gateway
to get the transaction as it was sent.
-/

import RadioDoge.V3.Formats
import RadioDoge.V3.Paths

namespace RadioDoge.V3

/-! ## Journeys -/

/-- The node that sends a transaction, and how. -/
inductive Origin
  | transaction (localAddress destination : NodeAddress) (type : Bytes)
  | broadcast (localAddress : NodeAddress) (priority : Bytes)
  deriving DecidableEq, Repr

namespace Origin

/-- The call that sends the transaction. -/
def call (tx : Bytes) : Origin → SendCall
  | .transaction localAddress destination type => .transaction localAddress destination tx type
  | .broadcast localAddress priority => .broadcast localAddress tx (ascii "transaction") priority

/-- The priority, if there is one, has no colon. -/
def PriorityFresh : Origin → Prop
  | .transaction _ _ _ => True
  | .broadcast _ priority => colon ∉ priority

instance : (origin : Origin) → Decidable origin.PriorityFresh
  | .transaction _ _ _ => .isTrue trivial
  | .broadcast _ priority => inferInstanceAs (Decidable (colon ∉ priority))

/-- The words in front of the transaction can be told from it, and the text survives
the copy into the parts. -/
def Readable (tx : Bytes) (origin : Origin) : Prop :=
  (match origin with
    | .transaction _ _ type => type ≠ [] ∧ colon ∉ type ∧ (0 : UInt8) ∉ type
    | .broadcast _ priority => (0 : UInt8) ∉ priority) ∧
  CopySafe (origin.call tx).multipart.text

end Origin

/-- The frames `first` are received by one node after the other, each of which sends
the frames the next one receives; the last one sends `last`. -/
inductive Relayed : List Bytes → List Node → List Bytes → Prop
  | arrived (frames : List Bytes) : Relayed frames [] frames
  | hop {first last : List Bytes} {node : Node} {nodes : List Node} (world : World)
      {arrivals : List (UInt32 × Bytes)} :
      (arrivals.map Prod.snd).Perm first →
      Relayed (transmissions (node.receiveAll world arrivals).val.2) nodes last →
      Relayed first (node :: nodes) last

/-- A transaction that fits into 20 parts goes through nodes without a gateway to a
node with one, which receives the frames of the last of them. -/
structure Journey (origin : Origin) (tx : Bytes) (relays : List Node) (gateway : Node)
    (arrivals : List (UInt32 × Bytes)) : Prop where
  fits : (origin.call tx).multipart.parts ≤ maxMultipartParts
  priorityFresh : origin.PriorityFresh
  relaying : ∀ node ∈ relays, node.Idle ∧ ¬ node.HasGateway
  idle : gateway.Idle
  hasGateway : gateway.HasGateway
  reached : ∀ node ∈ (relays ++ [gateway]).head?, node.Accepts (origin.call tx).multipart.dest
  path : ∃ last, Relayed (origin.call tx).sent.val relays last ∧
    (arrivals.map Prod.snd).Perm last

/-- The texts a node passes to the gateway functions. -/
def submitted (effects : List Effect) : List Bytes := (submissions effects).map Submission.text

/-! ## Behind the first relay -/

/-- What can be on the air behind the first relay of `tx`: nothing, a single frame, or
the parts of a broadcast whose content is longer than `tx`. -/
inductive Stretched (tx : Bytes) : List Bytes → Prop
  | nothing : Stretched tx []
  | single (serialBuf : Vector UInt8 bufferSize) (message type priority : Bytes) :
      Stretched tx [(sendBroadcast serialBuf message type priority).2]
  | parts {m : MultipartMessage} {priority rest : Bytes} :
      m.dest = NodeAddress.broadcast → m.dataType = 2 →
      m.text = ascii "transaction:" ++ (priority ++ colon :: rest) → tx.length < rest.length →
      m.parts ≤ maxMultipartParts → Stretched tx m.frames

/-- What a node is handed when a message has come in whole. -/
def MultipartMessage.delivered (m : MultipartMessage) : Reassembled :=
  ⟨m.dataType, m.carried, m.src⟩

/-- What a relay sends. -/
theorem stretched_rebroadcast {tx data : Bytes} (priority : Bytes)
    (hlonger : tx.length < data.length) (node : Node) :
    Stretched tx
      (transmissions (rebroadcast data (ascii "transaction") priority node).val.2) := by
  rw [transmissions_rebroadcast]
  split
  · split
    next hfits => exact .parts rfl rfl rfl hlonger hfits
    next => exact .nothing
  · exact .single node.serialBuf data (ascii "transaction") priority

/-- The data a relay sends is longer than the transaction it has read. -/
theorem length_rebroadcastData (handed : Reassembled) :
    handed.txData.length < handed.rebroadcastData.length := by
  have hlabel : 0 < (ascii "transaction:").length ∧ 0 < (ascii "transaction").length := by decide
  rw [Reassembled.rebroadcastData]
  split
  · simp only [List.length_append]
    omega
  · simp only [List.length_append]
    omega

/-- A relay sends something stretched, whatever it was handed. -/
theorem stretched_processReassembled (http : Http) {handed : Reassembled} {node : Node}
    (htype : handed.dataType = 0 ∨ handed.dataType = 2) (hnone : ¬ node.HasGateway) {tx : Bytes}
    (hlength : tx.length ≤ handed.txData.length) :
    Stretched tx (transmissions (processReassembled http handed node).val.2) := by
  rw [effects_without_gateway http handed node htype hnone]
  exact stretched_rebroadcast _ (hlength.trans_lt (length_rebroadcastData handed)) node

/-- Nothing is submitted or sent for a single broadcast frame. -/
theorem receive_single (world : World) (now : UInt32) (node : Node)
    (serialBuf : Vector UInt8 bufferSize) (message type priority : Bytes) :
    submissions (node.receive world now
        (sendBroadcast serialBuf message type priority).2).val.2 = [] ∧
      transmissions (node.receive world now
        (sendBroadcast serialBuf message type priority).2).val.2 = [] := by
  let buffers : SendBuffers := ⟨node.localAddress, Vector.replicate controlSize 0, serialBuf⟩
  have heffects := sameEffects_single world now node (.broadcast message type priority) buffers
  change submissions (node.receive world now
      ((PathCall.broadcast message type priority).frameCall.frame buffers)).val.2 = [] ∧
    transmissions (node.receive world now
      ((PathCall.broadcast message type priority).frameCall.frame buffers)).val.2 = []
  rw [heffects.submitted, heffects.transmitted]
  split
  · exact ⟨rfl, rfl⟩
  · exact ⟨rfl, rfl⟩

/-- A single broadcast frame is not forwarded. -/
theorem single_not_forwarded (world : World) (node : Node) (serialBuf : Vector UInt8 bufferSize)
    (message type priority : Bytes) {arrivals : List (UInt32 × Bytes)}
    (harrivals : (arrivals.map Prod.snd).Perm
      [(sendBroadcast serialBuf message type priority).2]) :
    submissions (node.receiveAll world arrivals).val.2 = [] ∧
      transmissions (node.receiveAll world arrivals).val.2 = [] := by
  obtain ⟨⟨now, frame⟩, rfl, rfl⟩ := List.map_eq_singleton_iff.mp (List.perm_singleton.mp harrivals)
  have hall : (node.receiveAll world [(now, (sendBroadcast serialBuf message type priority).2)]
      ).val.2 = (node.receive world now
        (sendBroadcast serialBuf message type priority).2).val.2 := List.append_nil _
  rw [hall]
  exact receive_single world now node serialBuf message type priority

/-- What a node does with stretched frames: nothing that counts here, or what it does
with a broadcast from which more than `tx` is read. -/
theorem receiveAll_stretched {tx : Bytes} {frames : List Bytes} (h : Stretched tx frames)
    (world : World) {node : Node} (hidle : node.Idle) {arrivals : List (UInt32 × Bytes)}
    (harrivals : (arrivals.map Prod.snd).Perm frames) :
    (submissions (node.receiveAll world arrivals).val.2 = [] ∧
        transmissions (node.receiveAll world arrivals).val.2 = []) ∨
      ∃ (handed : Reassembled) (receiver : Receiver), handed.dataType = 2 ∧
        tx.length < handed.txData.length ∧ (node.receiveAll world arrivals).val.2 =
          (processReassembled world.http handed (node.withReceiver receiver)).val.2 := by
  cases h with
  | nothing =>
      rw [List.map_eq_nil_iff.mp harrivals.eq_nil]
      exact .inl ⟨rfl, rfl⟩
  | single serialBuf message type priority =>
      exact .inl (single_not_forwarded world node serialBuf message type priority harrivals)
  | @parts m priority rest hdest htype htext hlonger hfits =>
      have hpos : 0 < m.parts := Pieces.pieceCount_pos (by decide) (by simp [htext])
      obtain ⟨heard, -, hdone⟩ := Node.receiveAll_frames world hidle (.inr hdest) hfits hpos
        (.inr (.inr htype)) harrivals
      have hne : m.delivered.dataType ≠ 0 := by
        change m.dataType ≠ 0
        rw [htype]
        decide
      refine .inr ⟨m.delivered, heard, htype, ?_, congrArg Prod.snd hdone⟩
      rw [Reassembled.txData, if_neg hne]
      exact hlonger.trans_le (length_splitBroadcast htext)

/-- One more hop. -/
theorem stretched_hop {tx : Bytes} {frames : List Bytes} (h : Stretched tx frames) (world : World)
    {node : Node} (hidle : node.Idle) (hnone : ¬ node.HasGateway)
    {arrivals : List (UInt32 × Bytes)} (harrivals : (arrivals.map Prod.snd).Perm frames) :
    Stretched tx (transmissions (node.receiveAll world arrivals).val.2) := by
  cases receiveAll_stretched h world hidle harrivals with
  | inl hquiet =>
      rw [hquiet.2]
      exact .nothing
  | inr hhanded =>
      obtain ⟨handed, heard, htype, hlonger, hdone⟩ := hhanded
      have hrelay : ¬ (node.withReceiver heard).HasGateway := hnone
      rw [hdone]
      exact stretched_processReassembled world.http (.inr htype) hrelay hlonger.le

/-- Any number of hops. -/
theorem stretched_relayed {tx : Bytes} {first last : List Bytes} {nodes : List Node}
    (hrelayed : Relayed first nodes last) (h : Stretched tx first)
    (hnodes : ∀ node ∈ nodes, node.Idle ∧ ¬ node.HasGateway) : Stretched tx last := by
  induction hrelayed with
  | arrived => exact h
  | hop world harrivals _ ih =>
      obtain ⟨hidle, hnone⟩ := hnodes _ List.mem_cons_self
      exact ih (stretched_hop h world hidle hnone harrivals)
        fun node hmem => hnodes node (List.mem_cons_of_mem _ hmem)

/-! ## At the gateway -/

/-- With a gateway, the text read is the one submitted. -/
theorem submitted_processReassembled (http : Http) {handed : Reassembled} {node : Node}
    (htype : handed.dataType = 0 ∨ handed.dataType = 2) (hgateway : node.HasGateway) :
    submitted (processReassembled http handed node).val.2 = [handed.txData] := by
  cases hcall : node.submission handed.txData with
  | none => exact absurd hgateway ((submission_eq_none_iff _ _).mp hcall)
  | some call =>
      rw [submitted, (effects_with_gateway http handed node htype hcall).1, List.map_cons,
        List.map_nil, text_submission hcall]

/-- Nothing stretched is submitted as the transaction it was. -/
theorem not_submitted_of_stretched {tx : Bytes} {frames : List Bytes} (h : Stretched tx frames)
    (world : World) {node : Node} (hidle : node.Idle) (hgateway : node.HasGateway)
    {arrivals : List (UInt32 × Bytes)} (harrivals : (arrivals.map Prod.snd).Perm frames) :
    submitted (node.receiveAll world arrivals).val.2 ≠ [tx] := by
  intro heq
  cases receiveAll_stretched h world hidle harrivals with
  | inl hquiet =>
      rw [submitted, hquiet.1] at heq
      cases heq
  | inr hhanded =>
      obtain ⟨handed, heard, htype, hlonger, hdone⟩ := hhanded
      have hhere : (node.withReceiver heard).HasGateway := hgateway
      rw [hdone, submitted_processReassembled world.http (.inr htype) hhere] at heq
      rw [(List.cons.inj heq).1] at hlonger
      exact Nat.lt_irrefl _ hlonger

namespace Origin

variable {tx : Bytes} {origin : Origin}

theorem dataType_call (tx : Bytes) (origin : Origin) :
    (origin.call tx).multipart.delivered.dataType = 0 ∨
      (origin.call tx).multipart.delivered.dataType = 2 := by
  cases origin with
  | transaction => exact .inl rfl
  | broadcast => exact .inr rfl

/-- The first node never reads less than the transaction. -/
theorem length_txData_call (tx : Bytes) (origin : Origin) :
    tx.length ≤ (origin.call tx).multipart.delivered.txData.length := by
  cases origin with
  | transaction localAddress destination type => exact length_splitTransaction rfl
  | broadcast localAddress priority => exact length_splitBroadcast rfl

/-- The first node reads the transaction exactly when it is readable. -/
theorem txData_call_eq_iff (hfresh : origin.PriorityFresh) :
    (origin.call tx).multipart.delivered.txData = tx ↔ origin.Readable tx := by
  cases origin with
  | transaction localAddress destination type => exact splitTransaction_eq_iff rfl
  | broadcast localAddress priority => exact splitBroadcast_eq_iff rfl hfresh

end Origin

section Journey

variable {origin : Origin} {tx : Bytes} {gateway : Node} {arrivals : List (UInt32 × Bytes)}

/-- The first node is handed the text of the origin. -/
theorem receiveAll_origin (world : World) {node : Node} (hidle : node.Idle)
    (hfits : (origin.call tx).multipart.parts ≤ maxMultipartParts)
    (hreached : node.Accepts (origin.call tx).multipart.dest)
    (harrivals : (arrivals.map Prod.snd).Perm (origin.call tx).sent.val) :
    ∃ receiver : Receiver, (node.receiveAll world arrivals).val.2 =
      (processReassembled world.http (origin.call tx).multipart.delivered
        (node.withReceiver receiver)).val.2 := by
  rw [SendCall.val_sent _ hfits] at harrivals
  obtain ⟨heard, -, hdone⟩ := Node.receiveAll_frames world hidle hreached hfits
    (SendCall.parts_multipart_pos _) (SendCall.dataType_multipart _) harrivals
  exact ⟨heard, congrArg Prod.snd hdone⟩

/-- Behind a relay the transaction is never submitted as it was. -/
theorem Journey.changed {relay : Node} {relays : List Node}
    (h : Journey origin tx (relay :: relays) gateway arrivals) (world : World) :
    submitted (gateway.receiveAll world arrivals).val.2 ≠ [tx] := by
  obtain ⟨last, hrelayed, harrivals⟩ := h.path
  cases hrelayed with
  | @hop _ _ _ _ relayWorld received hfirst hrest =>
      obtain ⟨hidle, hnone⟩ := h.relaying relay List.mem_cons_self
      obtain ⟨heard, hdone⟩ := receiveAll_origin relayWorld hidle h.fits (h.reached relay rfl) hfirst
      have hrelay : ¬ (relay.withReceiver heard).HasGateway := hnone
      have hstretched : Stretched tx (transmissions (relay.receiveAll relayWorld received).val.2) := by
        rw [hdone]
        exact stretched_processReassembled relayWorld.http (origin.dataType_call tx) hrelay
          (origin.length_txData_call tx)
      have hlast := stretched_relayed hrest hstretched
        fun node hmem => h.relaying node (List.mem_cons_of_mem _ hmem)
      exact not_submitted_of_stretched hlast world h.idle h.hasGateway harrivals

/-- **What the mesh delivers.** The gateway submits exactly the transaction that was
sent if and only if no node has relayed it and it can be read back from its text. -/
theorem delivered_iff (world : World) {relays : List Node}
    (h : Journey origin tx relays gateway arrivals) :
    submitted (gateway.receiveAll world arrivals).val.2 = [tx] ↔
      relays = [] ∧ origin.Readable tx := by
  cases relays with
  | cons relay relays =>
      exact iff_of_false (h.changed world) fun hboth => by cases hboth.1
  | nil =>
      obtain ⟨last, hrelayed, harrivals⟩ := h.path
      cases hrelayed
      obtain ⟨heard, hdone⟩ :=
        receiveAll_origin world h.idle h.fits (h.reached gateway rfl) harrivals
      have hhere : (gateway.withReceiver heard).HasGateway := h.hasGateway
      rw [hdone, submitted_processReassembled world.http (origin.dataType_call tx) hhere,
        List.cons.injEq, origin.txData_call_eq_iff h.priorityFresh]
      exact ⟨fun hread => ⟨rfl, hread.1⟩, fun hboth => ⟨hboth.2, rfl⟩⟩

/-- A node at 10.0.9 that is online. -/
def onlineNode : Node := { plainNode with localAddress := ⟨10, 0, 9⟩, internetConnected := true }

/-- A broadcast of the node at 10.0.2. -/
def plainOrigin : Origin := .broadcast ⟨10, 0, 2⟩ (ascii "normal")

/-- A transaction of 300 digits. -/
def longTx : Bytes := List.replicate 300 48

/-- What the node that relays the 300 digits sends. -/
def relayedTx : List Bytes :=
  transmissions (plainNode.receiveAll silentWorld
    (atZero (plainOrigin.call longTx).sent.val)).val.2

/-- The 300 digits, which fit into two parts, are relayed once. -/
theorem journey_relayedTx :
    Journey plainOrigin longTx [plainNode] onlineNode (atZero relayedTx) := by
  have hparts : (plainOrigin.call longTx).multipart.parts = 2 := by
    have hlength : (plainOrigin.call longTx).multipart.text.length = 319 := by
      simp [plainOrigin, Origin.call, SendCall.multipart, longTx, ascii, -List.reduceReplicate]
    rw [MultipartMessage.parts, hlength]
    rfl
  refine ⟨?_, by decide, ?_, rfl, .inr rfl, ?_, relayedTx, .hop silentWorld ?_ (.arrived _), ?_⟩
  · rw [hparts]
    decide
  · intro node hmem
    obtain rfl := List.mem_singleton.mp hmem
    exact ⟨rfl, not_hasGateway_plainNode⟩
  · exact fun node _ => .inr rfl
  · rw [map_snd_atZero]
  · rw [map_snd_atZero]

/-- The online node hears of the 300 digits by a relay. -/
theorem delivered_iff_relayed :
    submitted (onlineNode.receiveAll silentWorld (atZero relayedTx)).val.2 = [longTx] ↔
      [plainNode] = [] ∧ plainOrigin.Readable longTx :=
  delivered_iff silentWorld journey_relayedTx

/-- One node relays the 300 digits; the next one submits something else. -/
theorem relayed_transaction_changed :
    ∃ arrivals, Journey plainOrigin longTx [plainNode] onlineNode arrivals ∧
      submitted (onlineNode.receiveAll silentWorld arrivals).val.2 ≠ [longTx] :=
  ⟨_, journey_relayedTx, journey_relayedTx.changed silentWorld⟩

end Journey

end RadioDoge.V3
