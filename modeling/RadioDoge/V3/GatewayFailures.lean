/-
# Transactions that no gateway has answered

A node that has a gateway submits a transaction and confirms, whatever has become of the
submission: the three gateway functions return their errors as text, and
`gateway_forwarded` is set after each of them. Only a node without a gateway sends the
transaction on, and that text may be cut or be too long to be sent. `notSwallowed_iff`
says when a node does the one or the other.
-/

import RadioDoge.V3.Recognition

namespace RadioDoge.V3

open Pieces

/-- The requests passed to `http.POST`. -/
def posts (effects : List Effect) : List HttpRequest :=
  effects.filterMap fun
    | .post request => some request
    | _ => none

/-- A gateway has answered a request with the transaction. -/
def Answered (http : Http) (handed : Reassembled) (effects : List Effect) : Prop :=
  ∃ call : Submission, call.text = handed.txData ∧ call.request ∈ posts effects ∧
    (http call.request).code > 0

/-- What a node sends on. -/
def Reassembled.rebroadcastText (handed : Reassembled) : Bytes :=
  ascii "transaction" ++ colon :: (handed.rebroadcastPriority ++ colon :: handed.rebroadcastData)

/-- The text in parts. -/
def Reassembled.broadcastMessage (handed : Reassembled) (localAddress : NodeAddress) :
    MultipartMessage :=
  ⟨localAddress, NodeAddress.broadcast, 2, handed.rebroadcastText⟩

/-- What is transmitted is a broadcast of the transaction and nothing else: one frame
with all of the text, or all parts of it. -/
def SentOn (localAddress : NodeAddress) (handed : Reassembled) (effects : List Effect) : Prop :=
  transmissions effects =
      [MessageType.broadcast.code :: (strncpy handed.rebroadcastText).tail] ∨
    transmissions effects = (handed.broadcastMessage localAddress).frames

/-- A gateway has answered, or the transaction is sent on and nothing is confirmed. -/
def NotSwallowed (http : Http) (handed : Reassembled) (node : Node) : Prop :=
  Answered http handed (processReassembled http handed node).val.2 ∨
    SentOn node.localAddress handed (processReassembled http handed node).val.2

/-- The text fits what it is sent in: a single frame, or 20 parts. -/
def Reassembled.FitsMesh (handed : Reassembled) : Prop :=
  if handed.rebroadcastData.length > 255 then
    pieceCount multipartChunkSize handed.rebroadcastText.length ≤ maxMultipartParts
  else handed.rebroadcastText.length ≤ 255

/-- The node is online, and the gateway that it calls answers. -/
def Node.GatewayAnswers (http : Http) (handed : Reassembled) (node : Node) : Prop :=
  node.internetConnected = true ∧
    ∃ call, node.submission handed.txData = some call ∧ (http call.request).code > 0

theorem posts_append (first second : List Effect) :
    posts (first ++ second) = posts first ++ posts second :=
  List.filterMap_append

@[simp]
theorem posts_map_transmit (frames : List Bytes) : posts (frames.map .transmit) = [] := by
  induction frames with
  | nil => rfl
  | cons frame rest ih => exact ih

@[simp]
theorem posts_hostLine (label : String) (data : Bytes) : posts (hostLine label data) = [] := rfl

section Node

variable (http : Http) {handed : Reassembled} {node : Node}
  (htype : handed.dataType = 0 ∨ handed.dataType = 2)

include htype

/-! ## With a gateway -/

/-- A node posts its request only when it is online. -/
theorem posts_with_gateway {call : Submission} (hcall : node.submission handed.txData = some call) :
    posts (processReassembled http handed node).val.2 =
      if node.internetConnected then [call.request] else [] := by
  obtain ⟨label, heffects⟩ := processReassembled_forwards http handed node htype
  simp only [heffects, forwardTransaction, hcall, Traced.val_bind, Traced.val_pure,
    val_confirmToSender, posts_append, posts_hostLine, posts_map_transmit, List.nil_append,
    List.append_nil, Submission.call]
  split
  · rfl
  · rfl

/-- A gateway has answered exactly if it was asked and its code is positive. -/
theorem answered_iff {call : Submission} (hcall : node.submission handed.txData = some call) :
    Answered http handed (processReassembled http handed node).val.2 ↔
      node.internetConnected = true ∧ (http call.request).code > 0 := by
  rw [Answered, posts_with_gateway http htype hcall]
  by_cases honline : node.internetConnected = true
  · rw [if_pos honline, and_iff_right honline]
    constructor
    · rintro ⟨other, -, hmem, hcode⟩
      rwa [List.mem_singleton.mp hmem] at hcode
    · exact fun hcode => ⟨call, text_submission hcall, List.mem_singleton_self _, hcode⟩
  · rw [if_neg honline]
    refine iff_of_false ?_ fun h => honline h.1
    rintro ⟨other, -, hmem, -⟩
    cases hmem

omit htype in
theorem rebroadcastText_ne_nil (handed : Reassembled) : handed.rebroadcastText ≠ [] := by
  rw [Reassembled.rebroadcastText]
  simp

omit htype in
theorem frames_broadcastMessage (handed : Reassembled) (localAddress : NodeAddress) :
    ∃ rest, (handed.broadcastMessage localAddress).frames =
      (handed.broadcastMessage localAddress).frame 0 :: rest :=
  MultipartMessage.frames_eq_cons
    (pieceCount_pos (by decide) (List.length_pos_iff.mpr (rebroadcastText_ne_nil handed)))

/-- A node with a gateway confirms and sends nothing on. -/
theorem not_sentOn_with_gateway {call : Submission}
    (hcall : node.submission handed.txData = some call) :
    ¬ SentOn node.localAddress handed (processReassembled http handed node).val.2 := by
  obtain ⟨-, hsent⟩ := effects_with_gateway http handed node htype hcall
  obtain ⟨frame, rest, hframes, hkind⟩ := confirmationFrames_eq_cons node.localAddress handed.src
    (ascii "DOGECOIN_RESPONSE:" ++ (call.call http node.internetConnected).1)
  rw [SentOn, hsent, hframes]
  rintro (hone | hparts)
  · have hlength := congrArg List.length hone
    simp only [List.length_append, List.length_cons, List.length_nil] at hlength
    omega
  · obtain ⟨others, hothers⟩ := frames_broadcastMessage handed node.localAddress
    rw [hothers, List.cons_append] at hparts
    obtain ⟨rfl, -⟩ := List.cons.inj hparts
    rcases hkind with hhead | htypeByte
    · exact absurd (Option.some.inj hhead) (by decide : SerialCommand.multipartPacket.code ≠ 3)
    · exact absurd (Option.some.inj htypeByte) (by decide : (2 : UInt8) ≠ 1)

/-! ## Without a gateway -/

/-- A node without a gateway asks nobody. -/
theorem not_answered_without_gateway (hnone : node.submission handed.txData = none) :
    ¬ Answered http handed (processReassembled http handed node).val.2 := by
  have hposts : posts (processReassembled http handed node).val.2 = [] := by
    rcases only_transmits_without_gateway http handed node htype hnone with
      ⟨label, frames, heffects⟩
    rw [heffects, posts_append, posts_hostLine, List.nil_append]
    exact posts_map_transmit frames
  rw [Answered, hposts]
  rintro ⟨call, -, hmem, -⟩
  cases hmem

/-- What a node without a gateway sends on is the whole transaction exactly if it fits. -/
theorem sentOn_without_gateway_iff (hnone : node.submission handed.txData = none) :
    SentOn node.localAddress handed (processReassembled http handed node).val.2 ↔
      handed.FitsMesh := by
  have hsent := effects_without_gateway http handed node htype
    ((submission_eq_none_iff node handed.txData).mp hnone)
  have htransmitted : transmissions (processReassembled http handed node).val.2 =
      if handed.rebroadcastData.length > 255 then
        if (handed.broadcastMessage node.localAddress).parts ≤ maxMultipartParts then
          (handed.broadcastMessage node.localAddress).frames
        else []
      else [(sendBroadcast node.serialBuf handed.rebroadcastData (ascii "transaction")
        handed.rebroadcastPriority).2] := hsent.trans (transmissions_rebroadcast _ _ _ _)
  obtain ⟨others, hothers⟩ := frames_broadcastMessage handed node.localAddress
  rw [SentOn, htransmitted, Reassembled.FitsMesh]
  by_cases hlong : handed.rebroadcastData.length > 255
  · rw [if_pos hlong, if_pos hlong]
    by_cases hfits : (handed.broadcastMessage node.localAddress).parts ≤ maxMultipartParts
    · exact iff_of_true (Or.inr (if_pos hfits)) hfits
    · rw [if_neg hfits, hothers]
      refine iff_of_false ?_ hfits
      rintro (hone | hparts)
      · cases hone
      · cases hparts
  · have hframe : (sendBroadcast node.serialBuf handed.rebroadcastData (ascii "transaction")
        handed.rebroadcastPriority).2 =
          MessageType.broadcast.code :: (strncpy (handed.rebroadcastText.take 255)).tail :=
      frame_sendFromStart .broadcast node.serialBuf (rebroadcastText_ne_nil handed)
    rw [if_neg hlong, if_neg hlong, hframe]
    constructor
    · rintro (hone | hparts)
      · have hlength := congrArg List.length (List.cons.inj (List.singleton_inj.mp hone)).2
        simp only [List.length_tail, length_strncpy, List.length_take] at hlength
        omega
      · rw [hothers] at hparts
        have hhead := (List.cons.inj (List.cons.inj hparts).1).1
        exact absurd hhead (by decide)
    · intro hfits
      exact Or.inl (by rw [List.take_of_length_le hfits])

end Node

/-- **Nothing is swallowed** exactly if the node has a gateway that it reaches and that
answers, or has none and the transaction fits what it is sent on in. -/
theorem notSwallowed_iff (http : Http) (handed : Reassembled) (node : Node)
    (htype : handed.dataType = 0 ∨ handed.dataType = 2) :
    NotSwallowed http handed node ↔
      node.GatewayAnswers http handed ∨ ¬ node.HasGateway ∧ handed.FitsMesh := by
  rw [NotSwallowed, Node.GatewayAnswers, ← submission_eq_none_iff node handed.txData]
  cases hcall : node.submission handed.txData with
  | some call =>
      rw [answered_iff http htype hcall, or_iff_left (not_sentOn_with_gateway http htype hcall)]
      simp
  | none =>
      rw [or_iff_right (not_answered_without_gateway http htype hcall),
        sentOn_without_gateway_iff http htype hcall]
      simp

/-- The equivalence for a server that accepts. -/
theorem notSwallowed_iff_accepted :
    NotSwallowed acceptingServer handedTransaction onlineGateway ↔
      onlineGateway.GatewayAnswers acceptingServer handedTransaction ∨
        ¬ onlineGateway.HasGateway ∧ handedTransaction.FitsMesh :=
  notSwallowed_iff acceptingServer handedTransaction onlineGateway (.inl rfl)

/-- A node with a Dogecoin Core in its configuration, and without a connection. -/
def offlineGateway : Node :=
  { plainNode with gateway := ⟨ascii "core", ascii "10.0.0.7", ascii "22555", [], [], []⟩ }

/-- A node that is offline swallows the transaction that it confirms. -/
theorem offline_gateway_swallows :
    ¬ ∀ (http : Http) (handed : Reassembled) (node : Node),
      handed.dataType = 0 ∨ handed.dataType = 2 → NotSwallowed http handed node := by
  intro hall
  have hcall : offlineGateway.submission handedTransaction.txData =
      some (.sendJsonRpcToGateway handedTransaction.txData offlineGateway.gateway.url [] []) := by
    decide
  rcases hall acceptingServer handedTransaction offlineGateway (.inl rfl) with hanswered | hsent
  · have honline := ((answered_iff acceptingServer (.inl rfl) hcall).mp hanswered).1
    exact absurd honline (by decide)
  · exact not_sentOn_with_gateway acceptingServer (.inl rfl) hcall hsent

end RadioDoge.V3
