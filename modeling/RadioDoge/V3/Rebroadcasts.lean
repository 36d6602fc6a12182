/-
# Chains of rebroadcasts

Nodes without a gateway send a broadcast on whenever they have received it whole, and
nothing in a frame says how often that has happened. What changes from hop to hop is
the text: a receiver cuts one `transaction:priority:` from it, and the relay and its
sender function put two in front. So the text grows by the same number of bytes with
each hop, until it no longer fits into 20 parts, or is short enough at the first relay
for a single frame, which is not sent on. `rebroadcastsBounded_iff` says for which
broadcasts this keeps every chain within the limit that the firmware names.

A receiver that stores parts of two transmissions in one session hands on neither of
them; steps of that kind are left out, see the module on mixing.
-/

import RadioDoge.V3.Mesh
import RadioDoge.Lib.CausalLog

namespace RadioDoge.V3

/-- `MAX_REBROADCAST_HOPS`. No statement of the firmware refers to it. -/
abbrev maxRebroadcastHops : Nat := 3

/-! ## What is on the air after some hops -/

/-- A call of `SendMultipartBroadcast` at the node with this address. -/
structure BroadcastCall where
  localAddress : NodeAddress
  message : Bytes
  type : Bytes
  priority : Bytes
  deriving DecidableEq, Repr

namespace BroadcastCall

/-- The call, as one of the senders. -/
def sendCall (call : BroadcastCall) : SendCall :=
  .broadcast call.localAddress call.message call.type call.priority

/-- The message that is cut into parts. -/
def multipart (call : BroadcastCall) : MultipartMessage := call.sendCall.multipart

/-- What a receiver reads as the transaction. -/
def readData (call : BroadcastCall) : Bytes := (splitBroadcast call.multipart.carried).1

/-- What a receiver reads as the priority. -/
def readPriority (call : BroadcastCall) : Bytes := (splitBroadcast call.multipart.carried).2

/-- The length of the transaction read, with `transaction:priority:` so many times in
front. -/
def prefixedLength (call : BroadcastCall) (prefixes : Nat) : Nat :=
  call.readData.length + prefixes * (13 + call.readPriority.length)

/-- What a relay sends when `data` is sent on. -/
def relayed (call : BroadcastCall) (localAddress : NodeAddress) (data : Bytes) : BroadcastCall :=
  ⟨localAddress, data, ascii "transaction", call.readPriority⟩

/-- The messages that can be on the air after `k` hops. -/
inductive OnAir (call : BroadcastCall) : Nat → MultipartMessage → Prop
  | injected : OnAir call 0 call.multipart
  | relayed {k : Nat} (localAddress : NodeAddress) {data : Bytes} :
      data.length = call.prefixedLength (k + 1) →
      OnAir call (k + 1) (call.relayed localAddress data).multipart

namespace OnAir

variable {call : BroadcastCall} {k : Nat} {m : MultipartMessage}

theorem dest (h : OnAir call k m) : m.dest = NodeAddress.broadcast := by
  cases h with
  | injected => rfl
  | relayed => rfl

theorem dataType (h : OnAir call k m) : m.dataType = 2 := by
  cases h with
  | injected => rfl
  | relayed => rfl

theorem parts_pos (h : OnAir call k m) : 0 < m.parts := by
  cases h with
  | injected => exact call.sendCall.parts_multipart_pos
  | relayed localAddress hdata => exact SendCall.parts_multipart_pos _

theorem frames_ne_nil (h : OnAir call k m) : m.frames ≠ [] := by
  intro hnil
  have hlength := congrArg List.length hnil
  rw [MultipartMessage.frames, List.length_map, List.length_range] at hlength
  exact h.parts_pos.ne' hlength

/-- The text of a relay. -/
theorem text_relayed (call : BroadcastCall) (localAddress : NodeAddress) (data : Bytes) :
    (call.relayed localAddress data).multipart.text =
      ascii "transaction:" ++ (call.readPriority ++ colon :: data) := by
  change ascii "transaction" ++ colon :: (call.readPriority ++ colon :: data) = _
  rfl

/-- After a hop the text is exactly that much longer; before the first one, at most. -/
theorem length_text (h : OnAir call k m) :
    m.text.length ≤ call.prefixedLength (k + 1) ∧
      (0 < k → m.text.length = call.prefixedLength (k + 1)) := by
  have hlabel : (ascii "transaction:").length = 12 := by decide
  cases h with
  | injected =>
      refine ⟨?_, fun hpos => absurd hpos (Nat.lt_irrefl 0)⟩
      rw [← call.multipart.length_carried, prefixedLength, Nat.one_mul]
      exact length_le_splitBroadcast _
  | @relayed k localAddress data hdata =>
      have hlength : (call.relayed localAddress data).multipart.text.length =
          call.prefixedLength (k + 1 + 1) := by
        rw [text_relayed, List.length_append, List.length_append, List.length_cons, hdata, hlabel,
          prefixedLength, prefixedLength, Nat.add_mul (k + 1) 1]
        omega
      exact ⟨hlength.le, fun _ => hlength⟩

/-- A receiver reads the priority of the first one, and sends on data that is longer by
one more prefix. -/
theorem read (h : OnAir call k m) :
    m.delivered.rebroadcastPriority = call.readPriority ∧
      m.delivered.rebroadcastData.length = call.prefixedLength (k + 1) := by
  have hne : m.delivered.dataType ≠ 0 := by
    change m.dataType ≠ 0
    rw [h.dataType]
    decide
  have hlabel : (ascii "transaction").length = 11 ∧ (ascii ":").length = 1 := by decide
  have hsplit : (splitBroadcast m.carried).2 = call.readPriority ∧
      (splitBroadcast m.carried).1.length = call.prefixedLength k := by
    cases h with
    | injected => exact ⟨rfl, by rw [prefixedLength, Nat.zero_mul, Nat.add_zero, readData]⟩
    | relayed localAddress hdata =>
        obtain ⟨hfresh, hnul⟩ := priority_clean call.multipart.carried
        rw [← hdata]
        exact splitBroadcast_clean (text_relayed call localAddress _) hfresh hnul
  obtain ⟨hpriority, hlength⟩ := hsplit
  rw [Reassembled.rebroadcastPriority, Reassembled.rebroadcastData, if_neg hne, if_neg hne,
    Reassembled.txData, if_neg hne]
  refine ⟨hpriority, ?_⟩
  change (ascii "transaction" ++ ascii ":" ++ (splitBroadcast m.carried).2 ++ ascii ":" ++
    (splitBroadcast m.carried).1).length = _
  simp only [List.length_append, hlength, hpriority, hlabel.1, hlabel.2, prefixedLength]
  rw [Nat.add_mul k 1]
  omega

end OnAir

/-! ## One hop -/

theorem prefixedLength_mono (call : BroadcastCall) {few many : Nat} (h : few ≤ many) :
    call.prefixedLength few ≤ call.prefixedLength many :=
  Nat.add_le_add_left (Nat.mul_le_mul_right _ h) _

/-- A text on the air fits into 20 parts exactly when it has at most 4000 bytes. -/
theorem parts_le_iff (m : MultipartMessage) :
    m.parts ≤ maxMultipartParts ↔ m.text.length ≤ 4000 :=
  Pieces.pieceCount_le_iff (by decide) maxMultipartParts

/-- The frames that can be sent after `k` hops: those of a message that fits, or a
single frame, which only the first relay sends. -/
inductive Hop (call : BroadcastCall) : Nat → List Bytes → Prop
  | nothing : Hop call 0 []
  | parts {k : Nat} {m : MultipartMessage} :
      OnAir call k m → m.parts ≤ maxMultipartParts → (0 < k → 255 < call.prefixedLength 1) →
      Hop call k m.frames
  | single (serialBuf : Vector UInt8 bufferSize) (data : Bytes) :
      call.prefixedLength 1 ≤ 255 →
      Hop call 1 [(sendBroadcast serialBuf data (ascii "transaction") call.readPriority).2]

/-- What is injected. -/
theorem hop_injected (call : BroadcastCall) : Hop call 0 call.sendCall.sent.val := by
  have hsent : call.sendCall.sent.val =
      if call.multipart.parts ≤ maxMultipartParts then call.multipart.frames else [] :=
    val_sendMultipartBroadcast _ _ _ _
  rw [hsent]
  split
  next hfits => exact .parts .injected hfits fun hpos => absurd hpos (Nat.lt_irrefl 0)
  next => exact .nothing

/-- What a relay sends when it has been handed a message on the air. -/
theorem OnAir.transmissions_process {call : BroadcastCall} {k : Nat} {m : MultipartMessage}
    (h : OnAir call k m) (http : Http) {node : Node} (hnone : ¬ node.HasGateway) :
    transmissions (processReassembled http m.delivered node).val.2 =
      if m.delivered.rebroadcastData.length > 255 then
        if (call.relayed node.localAddress m.delivered.rebroadcastData).multipart.parts ≤
            maxMultipartParts then
          (call.relayed node.localAddress m.delivered.rebroadcastData).multipart.frames
        else []
      else [(sendBroadcast node.serialBuf m.delivered.rebroadcastData (ascii "transaction")
        call.readPriority).2] := by
  rw [effects_without_gateway http _ _ (.inr h.dataType) hnone, h.read.1]
  exact transmissions_rebroadcast _ _ _ _

/-- A relay sends nothing, or what can be sent one hop later. -/
theorem hop_process {call : BroadcastCall} {k : Nat} {m : MultipartMessage} (h : OnAir call k m)
    (hlong : 0 < k → 255 < call.prefixedLength 1) (http : Http) {node : Node}
    (hnone : ¬ node.HasGateway) :
    transmissions (processReassembled http m.delivered node).val.2 = [] ∨
      Hop call (k + 1) (transmissions (processReassembled http m.delivered node).val.2) := by
  have hdata := h.read.2
  have hmono := call.prefixedLength_mono (Nat.le_add_left 1 k)
  rw [h.transmissions_process http hnone]
  by_cases hmany : m.delivered.rebroadcastData.length > 255
  · rw [if_pos hmany]
    split
    next hfits =>
        refine .inr (.parts (.relayed _ hdata) hfits fun _ => ?_)
        cases k with
        | zero => exact hdata ▸ hmany
        | succ k => exact hlong (Nat.succ_pos k)
    next => exact .inl rfl
  · rw [if_neg hmany]
    have hshort : call.prefixedLength 1 ≤ 255 := by omega
    -- a message that has been sent on in parts is too long for a single frame
    obtain rfl : k = 0 := by
      by_contra hne
      exact absurd (hlong (Nat.pos_of_ne_zero hne)) (Nat.not_lt.mpr hshort)
    exact .inr (.single _ _ hshort)

/-- The condition under which rebroadcasts end within the limit: the first relay sends
a single frame, or one hop more than the limit is too much for 20 parts. -/
def DiesOut (call : BroadcastCall) : Prop :=
  call.prefixedLength 1 ≤ 255 ∨ 4000 < call.prefixedLength (maxRebroadcastHops + 2)

/-- Under this condition nothing is sent after more hops than the limit. -/
theorem Hop.le_max {call : BroadcastCall} (hdies : call.DiesOut) {k : Nat} {frames : List Bytes}
    (h : Hop call k frames) : k ≤ maxRebroadcastHops := by
  cases h with
  | nothing => exact Nat.zero_le _
  | single => decide
  | parts hair hfits hlong =>
      by_contra hmore
      have hpos : 0 < k := by omega
      have htext := (parts_le_iff _).mp hfits
      rw [hair.length_text.2 hpos] at htext
      have hmono := call.prefixedLength_mono (show maxRebroadcastHops + 2 ≤ k + 1 by omega)
      cases hdies with
      | inl hshort => exact absurd (hlong hpos) (Nat.not_lt.mpr hshort)
      | inr hlarge => omega

end BroadcastCall

/-- Whatever the node holds under the key of the message are parts of the message. -/
def Node.HoldsOnly (node : Node) (m : MultipartMessage) : Prop :=
  ∃ opens, TableRepresents node.receiver.table opens ∧
    ∀ a ∈ opens, a.src = m.src → a.dataType = m.dataType → ∃ held, PartOf m held a

/-- The frames of a message, one by one. -/
theorem MultipartMessage.exists_of_getElem?_frames {m : MultipartMessage} {part : Nat}
    {frame : Bytes} (h : m.frames[part]? = some frame) : part < m.parts ∧ frame = m.frame part := by
  obtain ⟨hlt, hframe⟩ := List.getElem?_eq_some_iff.mp h
  rw [MultipartMessage.frames, List.length_map, List.length_range] at hlt
  refine ⟨hlt, ?_⟩
  rw [← hframe]
  simp only [MultipartMessage.frames, List.getElem_map, List.getElem_range]

theorem MultipartMessage.getElem?_frames (m : MultipartMessage) {part : Nat}
    (hpart : part < m.parts) : m.frames[part]? = some (m.frame part) := by
  rw [MultipartMessage.frames, List.getElem?_map, List.getElem?_range hpart, Option.map_some]

/-- Messages with the same frames have the same parts. -/
theorem PartOf.of_frames {m other : MultipartMessage} {held : Finset Nat} {a : Assembly}
    (h : PartOf m held a) (hpos : 0 < m.parts) (hframes : other.frames = m.frames) :
    PartOf other held a := by
  have hparts : other.parts = m.parts := by
    have hlength := congrArg List.length hframes
    simpa only [MultipartMessage.frames, List.length_map, List.length_range] using hlength
  have hsame : ∀ part < m.parts, other.header part = m.header part ∧
      other.chunk part = m.chunk part := fun part hpart => by
    have hframe := m.getElem?_frames hpart
    rw [← hframes, other.getElem?_frames (hparts ▸ hpart), Option.some.injEq] at hframe
    exact List.append_inj hframe (by rw [other.length_header, m.length_header])
  have hheader := (hsame 0 hpos).1
  simp only [MultipartMessage.header, NodeAddress.bytes, List.cons_append, List.nil_append,
    List.cons.injEq] at hheader
  obtain ⟨-, -, -, -, hregion, hcommunity, hnode, -, -, htype, -⟩ := hheader
  have hsrc : other.src = m.src := NodeAddress.bytes_injective (by
    rw [NodeAddress.bytes, NodeAddress.bytes, hregion, hcommunity, hnode])
  refine ⟨h.src.trans hsrc.symm, h.dataType.trans htype.symm, h.total.trans hparts.symm,
    fun i => ?_, hparts ▸ h.within⟩
  rw [h.parts]
  by_cases hi : i ∈ held
  · rw [if_pos hi, if_pos hi, (hsame i (Finset.mem_range.mp (h.within hi))).2]
  · rw [if_neg hi, if_neg hi]

namespace BroadcastCall

/-- One frame arrives at a node without a gateway: it sends nothing, or what can be sent
one hop later. -/
theorem Hop.receive {call : BroadcastCall} {k : Nat} {frames : List Bytes}
    (h : Hop call k frames) {part : Nat} {frame : Bytes} (hframe : frames[part]? = some frame)
    (world : World) (now : UInt32) {node : Node} (hnone : ¬ node.HasGateway)
    (hown : ∀ m : MultipartMessage, m.frames = frames → node.HoldsOnly m) :
    transmissions (node.receive world now frame).val.2 = [] ∨
      Hop call (k + 1) (transmissions (node.receive world now frame).val.2) := by
  cases h with
  | nothing => cases hframe
  | single serialBuf data hshort =>
      obtain rfl := List.mem_singleton.mp (List.mem_of_getElem? hframe)
      exact .inl (receive_single world now node serialBuf data _ _).2
  | @parts k m hair hfits hlong =>
      obtain ⟨hpart, rfl⟩ := MultipartMessage.exists_of_getElem?_frames hframe
      obtain ⟨opens, htable, hheld⟩ := hown m rfl
      obtain ⟨receiver, -, hvalue⟩ :=
        Node.receive_part world now hpart hfits (.inr hair.dest) htable
      rw [hvalue]
      cases hnext : (Assembly.receive now (m.partFrame part) opens).2 with
      | none => exact .inl rfl
      | some handed =>
          obtain rfl := (Assembly.receive_own hheld hpart hfits (.inr (.inr hair.dataType)) now).2
            handed hnext
          exact hop_process hair hlong world.http hnone

end BroadcastCall

/-! ## The network -/

/-- Frames that one node passes to `Radio.Send` for one text. -/
structure Transmission (ι : Type) where
  sender : ι
  frames : List Bytes

/-- The nodes, and everything that was sent, with what it was sent in reaction to. -/
structure MeshNet (ι : Type) where
  nodes : ι → Node
  sent : List (Caused (Transmission ι))

/-- A node receives a frame of a transmission, or its main loop sweeps expired
sessions. -/
inductive MeshEvent (ι : Type)
  | receive (receiver : ι) (cause part : Nat) (world : World) (now : UInt32)
  | cleanup (node : ι) (now : UInt32)

namespace MeshNet

variable {ι : Type} [DecidableEq ι]

/-- A node has received a frame: its new state, and what it has sent. -/
def react (net : MeshNet ι) (receiver : ι) (cause : Nat) (result : Node × List Effect) :
    MeshNet ι where
  nodes := Function.update net.nodes receiver result.1
  sent :=
    if transmissions result.2 = [] then net.sent
    else net.sent ++ [⟨⟨receiver, transmissions result.2⟩, some cause⟩]

/-- One event. A frame that was never sent is not received. -/
def step (net : MeshNet ι) : MeshEvent ι → MeshNet ι
  | .receive receiver cause part world now =>
      match net.sent[cause]?.bind fun heard => heard.item.frames[part]? with
      | some frame => net.react receiver cause ((net.nodes receiver).receive world now frame).val
      | none => net
  | .cleanup node now =>
      { net with nodes := Function.update net.nodes node ((net.nodes node).cleanup now) }

/-- A frame is only received by nodes that hear its sender. -/
def InRange (hears : ι → ι → Prop) (net : MeshNet ι) : MeshEvent ι → Prop
  | .receive receiver cause _ _ _ =>
      ∀ heard ∈ net.sent[cause]?, hears receiver heard.item.sender
  | .cleanup _ _ => True

/-- A frame is only received by nodes that hold no part of another message under the
same key. -/
def KeepsApart (net : MeshNet ι) : MeshEvent ι → Prop
  | .receive receiver cause _ _ _ =>
      ∀ heard ∈ net.sent[cause]?, ∀ m : MultipartMessage, m.frames = heard.item.frames →
        (net.nodes receiver).HoldsOnly m
  | .cleanup _ _ => True

/-- Events in range that keep messages apart. -/
def Allowed (hears : ι → ι → Prop) (net : MeshNet ι) (event : MeshEvent ι) : Prop :=
  net.InRange hears event ∧ net.KeepsApart event

/-- A run of events that are all possible. -/
def Runs (Possible : MeshNet ι → MeshEvent ι → Prop) : MeshNet ι → MeshNet ι → Prop :=
  Relation.ReflTransGen fun net later => ∃ event, Possible net event ∧ net.step event = later

theorem Runs.mono {Possible Likely : MeshNet ι → MeshEvent ι → Prop}
    (h : ∀ net event, Possible net event → Likely net event) {start net : MeshNet ι}
    (hrun : start.Runs Possible net) : start.Runs Likely net := by
  induction hrun with
  | refl => exact .refl
  | tail _ hstep ih =>
      obtain ⟨event, hpossible, hafter⟩ := hstep
      exact ih.tail ⟨event, h _ event hpossible, hafter⟩

/-- The network when a broadcast has been sent by one node. -/
def injected (nodes : ι → Node) (origin : ι) (call : BroadcastCall) : MeshNet ι :=
  ⟨nodes, [⟨⟨origin, call.sendCall.sent.val⟩, none⟩]⟩

/-! ## Every chain is short -/

/-- No node has a gateway, and everything sent is as many hops away from the broadcast
as its chain is long. -/
structure Relaying (call : BroadcastCall) (net : MeshNet ι) : Prop where
  noGateway : ∀ i, ¬ (net.nodes i).HasGateway
  graded : CausalLog.Graded (fun k sent => BroadcastCall.Hop call k sent.frames) net.sent

namespace Relaying

variable {call : BroadcastCall} {net : MeshNet ι}

omit [DecidableEq ι] in
/-- Before anything is received. -/
theorem injected {nodes : ι → Node} (hnone : ∀ i, ¬ (nodes i).HasGateway) (origin : ι) :
    Relaying call (injected nodes origin call) :=
  ⟨hnone, .singleton call.hop_injected⟩

/-- A node without a gateway in place of another one. -/
theorem noGateway_update (h : Relaying call net) {node : Node} (hnode : ¬ node.HasGateway)
    (i j : ι) : ¬ (Function.update net.nodes i node j).HasGateway := by
  by_cases hij : j = i
  · rw [hij, Function.update_self]
    exact hnode
  · rw [Function.update_of_ne hij]
    exact h.noGateway j

/-- A frame is received. -/
theorem receive (h : Relaying call net) {cause part : Nat} {heard : Caused (Transmission ι)}
    (hheard : net.sent[cause]? = some heard) {frame : Bytes}
    (hframe : heard.item.frames[part]? = some frame) {receiver : ι}
    (hown : ∀ m : MultipartMessage, m.frames = heard.item.frames →
      (net.nodes receiver).HoldsOnly m) (world : World) (now : UInt32) :
    Relaying call (net.react receiver cause
      ((net.nodes receiver).receive world now frame).val) := by
  have hnone := h.noGateway receiver
  have hsetup := (net.nodes receiver).sameSetup_receive world now frame
  refine ⟨h.noGateway_update (mt hsetup.hasGateway_iff.mp hnone) receiver, ?_⟩
  rw [react]
  by_cases hquiet : transmissions ((net.nodes receiver).receive world now frame).val.2 = []
  · simp only [if_pos hquiet]
    exact h.graded
  · simp only [if_neg hquiet]
    exact h.graded.concat hheard fun k hlevel =>
      (hlevel.receive hframe world now hnone hown).resolve_left hquiet

/-- Every event that keeps messages apart. -/
theorem step (h : Relaying call net) {event : MeshEvent ι} (hapart : net.KeepsApart event) :
    Relaying call (net.step event) := by
  cases event with
  | cleanup node now =>
      have hnone : ¬ ((net.nodes node).cleanup now).HasGateway := h.noGateway node
      exact ⟨h.noGateway_update hnone node, h.graded⟩
  | receive receiver cause part world now =>
      rw [MeshNet.step]
      cases hheard : net.sent[cause]? with
      | none => exact h
      | some heard =>
          simp only [Option.bind_some]
          cases hframe : heard.item.frames[part]? with
          | none => exact h
          | some frame => exact h.receive hheard hframe (hapart heard hheard) world now

/-- Every run of such events. -/
theorem run {hears : ι → ι → Prop} {start : MeshNet ι} (h : Relaying call start)
    (hrun : start.Runs (Allowed hears) net) :
    Relaying call net := by
  induction hrun with
  | refl => exact h
  | tail _ hstep ih =>
      obtain ⟨event, ⟨-, hapart⟩, rfl⟩ := hstep
      exact ih.step hapart

end Relaying

/-! ## A hop that is made -/

theorem nodes_react (net : MeshNet ι) (receiver : ι) (cause : Nat)
    (result : Node × List Effect) :
    (net.react receiver cause result).nodes = Function.update net.nodes receiver result.1 := rfl

/-- What is sent is on record. -/
theorem sent_react {net : MeshNet ι} {receiver : ι} {cause : Nat} {result : Node × List Effect}
    {frames : List Bytes} (hsent : transmissions result.2 = frames) (hne : frames ≠ []) :
    (net.react receiver cause result).sent =
      net.sent ++ [⟨⟨receiver, frames⟩, some cause⟩] := by
  rw [react, hsent, if_neg hne]

/-- The network with another node in one place. -/
def withNode (net : MeshNet ι) (i : ι) (node : Node) : MeshNet ι :=
  { net with nodes := Function.update net.nodes i node }

/-- A frame is received by the node that has taken a place. -/
theorem step_withNode {net : MeshNet ι} {receiver : ι} {cause part : Nat}
    {heard : Caused (Transmission ι)} {frame : Bytes} (hheard : net.sent[cause]? = some heard)
    (hframe : heard.item.frames[part]? = some frame) (node : Node) (world : World) (now : UInt32) :
    (net.withNode receiver node).step (.receive receiver cause part world now) =
      net.react receiver cause (node.receive world now frame).val := by
  have hnode : (net.withNode receiver node).nodes receiver = node := Function.update_self _ _ _
  have hsent : (net.withNode receiver node).sent[cause]? = some heard := hheard
  simp only [step, hsent, Option.bind_some, hframe, hnode]
  rw [react, react, withNode, Function.update_idem]

/-- A node that has no session open is in range of a broadcast of `m`. -/
structure Hearing (hears : ι → ι → Prop) (net : MeshNet ι) (receiver : ι) (cause : Nat)
    (m : MultipartMessage) : Prop where
  heard : ∃ heard, net.sent[cause]? = some heard ∧ heard.item.frames = m.frames ∧
    hears receiver heard.item.sender
  dest : m.dest = NodeAddress.broadcast
  dataType : m.dataType = 2
  parts_pos : 0 < m.parts
  fits : m.parts ≤ maxMultipartParts
  idle : (net.nodes receiver).Idle

namespace Hearing

variable {hears : ι → ι → Prop} {net : MeshNet ι} {receiver : ι} {cause : Nat}
  {m : MultipartMessage}

/-- A frame is received while the receiver holds other frames of the same message, and
what is handed on is processed. -/
theorem run_part (h : Hearing hears net receiver cause m) {kept : Receiver} {held : Finset Nat}
    {opens : List Assembly} (htable : TableRepresents kept.table opens)
    (hheld : Node.HoldsParts m held opens) {part : Nat} (hpart : part < m.parts) :
    ∃ next : Receiver,
      TableRepresents next.table (Assembly.receive 0 (m.partFrame part) opens).1 ∧
        (net.withNode receiver ((net.nodes receiver).withReceiver kept)).Runs (Allowed hears)
          (net.react receiver cause (Node.process silentWorld
            ((net.nodes receiver).withReceiver next)
            (Assembly.receive 0 (m.partFrame part) opens).2.toList).val) := by
  let node := (net.nodes receiver).withReceiver kept
  have hhere : TableRepresents node.receiver.table opens := htable
  obtain ⟨next, hnext, hvalue⟩ :=
    Node.receive_part silentWorld 0 hpart h.fits (.inr h.dest) hhere
  obtain ⟨heard, hheard, hframes, hrange⟩ := h.heard
  have hframe : heard.item.frames[part]? = some (m.frame part) := by
    rw [hframes]
    exact m.getElem?_frames hpart
  have hnode : (net.withNode receiver node).nodes receiver = node := Function.update_self _ _ _
  have hsent : (net.withNode receiver node).sent[cause]? = some heard := hheard
  refine ⟨next, hnext, .single ⟨.receive receiver cause part silentWorld 0, ⟨?_, ?_⟩, ?_⟩⟩
  · intro entry hentry
    obtain rfl := Option.some.inj (hsent.symm.trans hentry)
    exact hrange
  · intro entry hentry other hother
    obtain rfl := Option.some.inj (hsent.symm.trans hentry)
    rw [hnode]
    refine ⟨opens, hhere, fun a ha _ _ => ?_⟩
    cases hheld with
    | inl hnone =>
        rw [hnone.2] at ha
        cases ha
    | inr hsome =>
        obtain ⟨own, rfl, hown⟩ := hsome
        obtain rfl := List.mem_singleton.mp ha
        exact ⟨held, hown.of_frames h.parts_pos (hother.trans hframes)⟩
  · exact (step_withNode hheard hframe node silentWorld 0).trans
      (congrArg (net.react receiver cause) hvalue)

/-- The first frames are kept. -/
theorem run_first (h : Hearing hears net receiver cause m) :
    ∀ k < m.parts, ∃ (kept : Receiver) (opens : List Assembly),
      net.Runs (Allowed hears)
          (net.withNode receiver ((net.nodes receiver).withReceiver kept)) ∧
        TableRepresents kept.table opens ∧ Node.HoldsParts m (Finset.range k) opens := by
  intro k
  induction k with
  | zero =>
      intro _
      refine ⟨(net.nodes receiver).receiver, [], ?_, Node.tableRepresents_idle h.idle,
        .inl ⟨Finset.range_zero, rfl⟩⟩
      have hself : net.withNode receiver ((net.nodes receiver).withReceiver
          (net.nodes receiver).receiver) = net :=
        congrArg (MeshNet.mk · net.sent) (Function.update_eq_self receiver net.nodes)
      rw [hself]
      exact .refl
  | succ k ih =>
      intro hlast
      have hpart : k < m.parts := Nat.lt_of_succ_lt hlast
      obtain ⟨kept, opens, hrun, htable, hheld⟩ := ih hpart
      have hnext := Node.holdsParts_receive hheld h.fits (.inr (.inr h.dataType)) 0 hpart
        Finset.notMem_range_self
      have hmissing : Finset.range (k + 1) ≠ Finset.range m.parts := fun hall => by
        have hcard := congrArg Finset.card hall
        rw [Finset.card_range, Finset.card_range] at hcard
        omega
      rw [← Finset.range_add_one, if_neg hmissing] at hnext
      obtain ⟨next, htable', hstep⟩ := h.run_part htable hheld hpart
      rw [hnext.2] at hstep
      exact ⟨next, _, hrun.trans hstep, htable', hnext.1⟩

/-- All frames are received, and the node does what it does with the message. -/
theorem run_all (h : Hearing hears net receiver cause m) :
    ∃ kept : Receiver, kept.table.count = 0 ∧
      net.Runs (Allowed hears) (net.react receiver cause
        (processReassembled silentWorld.http m.delivered
          ((net.nodes receiver).withReceiver kept)).val) := by
  have hpos := h.parts_pos
  have hpart : m.parts - 1 < m.parts := by omega
  obtain ⟨kept, opens, hrun, htable, hheld⟩ := h.run_first (m.parts - 1) hpart
  have hnext := Node.holdsParts_receive hheld h.fits (.inr (.inr h.dataType)) 0 hpart
    Finset.notMem_range_self
  rw [← Finset.range_add_one, Nat.sub_add_cancel hpos, if_pos rfl] at hnext
  obtain ⟨next, htable', hstep⟩ := h.run_part htable hheld hpart
  rw [hnext] at htable' hstep
  exact ⟨next, htable'.length_eq, hrun.trans hstep⟩

end Hearing

/-! ## Two nodes -/

/-- Two nodes in range of each other. -/
def facing (receiver sender : Bool) : Prop := receiver ≠ sender

/-- A run between two nodes without a gateway, with a chain of `k` rebroadcasts that
ends in a transmission of `m`. -/
structure EndsWith (call : BroadcastCall) (nodes : Bool → Node) (k : Nat) (net : MeshNet Bool)
    (m : MultipartMessage) : Prop where
  run : (injected nodes false call).Runs (Allowed facing) net
  ready : ∀ i, (net.nodes i).Idle ∧ ¬ (net.nodes i).HasGateway
  onAir : BroadcastCall.OnAir call k m
  last : ∃ i heard, net.sent[i]? = some heard ∧ heard.item.frames = m.frames ∧
    CausalLog.Chain net.sent k i

section TwoNodes

variable {call : BroadcastCall} {nodes : Bool → Node} {k : Nat} {net : MeshNet Bool}
  {m : MultipartMessage}

/-- One hop more, while the next text fits into 20 parts and is too long for a frame. -/
theorem EndsWith.hop (h : EndsWith call nodes k net m) (hlong : 255 < call.prefixedLength 1)
    (hfits : call.prefixedLength (k + 2) ≤ 4000) :
    ∃ later m', EndsWith call nodes (k + 1) later m' := by
  obtain ⟨i, heard, hheard, hframes, hchain⟩ := h.last
  have hmono : call.prefixedLength (k + 1) ≤ call.prefixedLength (k + 2) :=
    call.prefixedLength_mono (Nat.le_succ _)
  have hparts := (BroadcastCall.parts_le_iff m).mpr (by have := h.onAir.length_text.1; omega)
  have hrange : facing (!heard.item.sender) heard.item.sender := Bool.not_ne_self _
  have hhearing : Hearing facing net (!heard.item.sender) i m :=
    ⟨⟨heard, hheard, hframes, hrange⟩, h.onAir.dest, h.onAir.dataType, h.onAir.parts_pos, hparts,
      (h.ready _).1⟩
  obtain ⟨kept, hcount, hrun⟩ := hhearing.run_all
  let relay := (net.nodes (!heard.item.sender)).withReceiver kept
  have hnone : ¬ relay.HasGateway := (h.ready (!heard.item.sender)).2
  have hdata := h.onAir.read.2
  have hmany : m.delivered.rebroadcastData.length > 255 := by
    have := call.prefixedLength_mono (Nat.le_add_left 1 k)
    omega
  have hnext : BroadcastCall.OnAir call (k + 1)
      (call.relayed relay.localAddress m.delivered.rebroadcastData).multipart :=
    .relayed _ hdata
  have hnextFits := (BroadcastCall.parts_le_iff _).mpr
    ((hnext.length_text.2 (Nat.succ_pos k)).trans_le hfits)
  have hsent := h.onAir.transmissions_process silentWorld.http hnone
  rw [if_pos hmany, if_pos hnextFits] at hsent
  have honly := onlySent_processReassembled silentWorld.http relay m.delivered
  refine ⟨_, _, h.run.trans hrun, fun b => ?_, hnext, net.sent.length,
    ⟨⟨!heard.item.sender, _⟩, some i⟩, ?_, rfl, ?_⟩
  · by_cases hb : b = !heard.item.sender
    · rw [hb, nodes_react, Function.update_self, Node.Idle, honly.receiver]
      exact ⟨hcount, mt honly.sameSetup.hasGateway_iff.mp hnone⟩
    · rw [nodes_react, Function.update_of_ne hb]
      exact h.ready b
  · rw [sent_react hsent hnext.frames_ne_nil]
    exact List.getElem?_concat_length
  · rw [sent_react hsent hnext.frames_ne_nil]
    exact hchain.concat _

/-- Any number of hops, as long as the text fits into 20 parts. -/
theorem exists_endsWith (hlong : 255 < call.prefixedLength 1)
    (hnodes : ∀ b, (nodes b).Idle ∧ ¬ (nodes b).HasGateway) :
    ∀ k, call.prefixedLength (k + 1) ≤ 4000 → ∃ net m, EndsWith call nodes k net m := by
  intro k
  induction k with
  | zero =>
      intro hfits
      have hair : BroadcastCall.OnAir call 0 call.multipart := .injected
      have hparts := (BroadcastCall.parts_le_iff call.multipart).mpr
        (hair.length_text.1.trans hfits)
      exact ⟨injected nodes false call, call.multipart, .refl, hnodes, hair, 0, _, rfl,
        call.sendCall.val_sent hparts, .root rfl⟩
  | succ k ih =>
      intro hfits
      have hmono : call.prefixedLength (k + 1) ≤ call.prefixedLength (k + 2) :=
        call.prefixedLength_mono (Nat.le_succ _)
      obtain ⟨net, m, hends⟩ := ih (hmono.trans hfits)
      exact hends.hop hlong hfits

end TwoNodes

end MeshNet

/-! ## The limit -/

/-- In every network of nodes without a gateway, whoever has sent the broadcast and
whoever hears whom, no run that keeps messages apart has a chain of rebroadcasts beyond
the limit. -/
def RebroadcastsBounded (call : BroadcastCall) : Prop :=
  ∀ (ι : Type) [DecidableEq ι] (hears : ι → ι → Prop) (nodes : ι → Node) (origin : ι)
    (net : MeshNet ι) (k i : Nat),
    (nodes origin).localAddress = call.localAddress → (∀ j, ¬ (nodes j).HasGateway) →
    (MeshNet.injected nodes origin call).Runs (MeshNet.Allowed hears) net →
    CausalLog.Chain net.sent k i → k ≤ maxRebroadcastHops

/-- The node that sends the broadcast, and another one. -/
def twoNodes (call : BroadcastCall) : Bool → Node
  | false => { plainNode with localAddress := call.localAddress }
  | true => plainNode

theorem ready_twoNodes (call : BroadcastCall) (b : Bool) :
    (twoNodes call b).Idle ∧ ¬ (twoNodes call b).HasGateway := by
  cases b with
  | false => exact ⟨rfl, not_hasGateway_plainNode⟩
  | true => exact ⟨idle_plainNode, not_hasGateway_plainNode⟩

/-- **How far rebroadcasts go.** Chains stay within the limit exactly when the first
relay has so little to send on that it sends a single frame, or so much that four hops
later it would no longer fit into 20 parts. -/
theorem rebroadcastsBounded_iff (call : BroadcastCall) :
    RebroadcastsBounded call ↔ call.DiesOut := by
  constructor
  · intro hbounded
    by_contra hlasting
    rw [BroadcastCall.DiesOut, not_or] at hlasting
    obtain ⟨net, m, hends⟩ := MeshNet.exists_endsWith (Nat.lt_of_not_le hlasting.1)
      (ready_twoNodes call) (maxRebroadcastHops + 1) (Nat.le_of_not_lt hlasting.2)
    obtain ⟨i, heard, -, -, hchain⟩ := hends.last
    have hle := hbounded Bool MeshNet.facing (twoNodes call) false net _ i rfl
      (fun b => (ready_twoNodes call b).2) hends.run hchain
    exact absurd hle (Nat.not_succ_le_self _)
  · intro hdies ι _ hears nodes origin net k i _ hnone hrun hchain
    have hrelaying := (MeshNet.Relaying.injected hnone origin).run hrun
    exact hrelaying.graded.chain_le (fun k sent hlevel => hlevel.le_max hdies) hchain

/-- A broadcast of 300 digits. -/
def longCall : BroadcastCall :=
  ⟨⟨10, 0, 2⟩, longTx, ascii "transaction", ascii "normal"⟩

/-- Each hop makes it longer by 19 bytes. -/
theorem prefixedLength_longCall (prefixes : Nat) :
    longCall.prefixedLength prefixes = 300 + prefixes * 19 := by
  have htext : longCall.multipart.text =
      ascii "transaction:" ++ (ascii "normal" ++ colon :: longTx) := rfl
  obtain ⟨hpriority, hlength⟩ := splitBroadcast_clean htext (by decide) (by decide)
  have hnormal : (ascii "normal").length = 6 := by decide
  rw [BroadcastCall.prefixedLength, BroadcastCall.readData, BroadcastCall.readPriority, hpriority,
    hlength, hnormal, longTx, List.length_replicate]

/-- Two nodes in range of each other send the 300 digits back and forth more often than
the limit. -/
theorem longCall_beyond_limit :
    ¬ ∀ (net : MeshNet Bool) (k i : Nat),
      (MeshNet.injected (twoNodes longCall) false longCall).Runs
        (MeshNet.InRange MeshNet.facing) net →
      CausalLog.Chain net.sent k i → k ≤ maxRebroadcastHops := by
  intro hbounded
  have hlong : 255 < longCall.prefixedLength 1 := by
    rw [prefixedLength_longCall]
    decide
  have hfits : longCall.prefixedLength (maxRebroadcastHops + 2) ≤ 4000 := by
    rw [prefixedLength_longCall]
    decide
  obtain ⟨net, m, hends⟩ := MeshNet.exists_endsWith hlong (ready_twoNodes longCall) _ hfits
  obtain ⟨i, heard, -, -, hchain⟩ := hends.last
  have hrun : (MeshNet.injected (twoNodes longCall) false longCall).Runs
      (MeshNet.InRange MeshNet.facing) net :=
    MeshNet.Runs.mono (fun before event hallowed => hallowed.1) hends.run
  exact absurd (hbounded net _ i hrun hchain) (Nat.not_succ_le_self _)

end RadioDoge.V3
