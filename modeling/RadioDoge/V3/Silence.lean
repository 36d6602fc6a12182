/-
# Packets that start no transmission

A node transmits for a packet when it has put together a transaction or a broadcast: it
confirms to the sender if there is a gateway, and sends the text on if there is none. Nothing
is sent for the rest, nor for a text that is too long to be sent on. `handedOn` says what is
put together, and `transmissions_receive_eq_nil_iff` when nothing is sent.
-/

import RadioDoge.V3.Answers
import RadioDoge.V3.GatewayFailures

namespace RadioDoge.V3

open Pieces

namespace Node

/-- Nothing is sent for the text: it is neither a transaction nor a broadcast, or there is no
gateway for it and it is too long to be sent on. -/
def Withholds (node : Node) (handed : Reassembled) : Prop :=
  handed.dataType = 0 ∨ handed.dataType = 2 →
    ¬ node.HasGateway ∧ handed.rebroadcastData.length > 255 ∧
      maxMultipartParts < pieceCount multipartChunkSize handed.rebroadcastText.length

instance (node : Node) (target : NodeAddress) : Decidable (node.Accepts target) :=
  inferInstanceAs (Decidable (_ ∨ _))

/-- The text that a packet completes, if there is one. -/
def handedOn (now : UInt32) (payload : Bytes) (node : Node) : Option Reassembled :=
  let rx := node.receiver.rx.onRxDone payload
  if rx.byte 0 = SerialCommand.multipartPacket.code ∧ node.Accepts rx.destination then
    (processMultipartPacket now rx node.receiver.table).val.handed
  else none

end Node

/-! ## Texts -/

section Texts

variable (http : Http) (handed : Reassembled) (node : Node)

/-- A node with a gateway confirms. -/
theorem transmissions_ne_nil_of_gateway (htype : handed.dataType = 0 ∨ handed.dataType = 2)
    (hgateway : node.HasGateway) :
    transmissions (processReassembled http handed node).val.2 ≠ [] := by
  have hsome : node.submission handed.txData ≠ none := by
    intro hnone
    exact (submission_eq_none_iff node handed.txData).mp hnone hgateway
  rcases Option.ne_none_iff_exists'.mp hsome with ⟨call, hcall⟩
  rcases confirmationFrames_eq_cons node.localAddress handed.src
    (ascii "DOGECOIN_RESPONSE:" ++ (call.call http node.internetConnected).1) with
    ⟨frame, rest, hframes, -⟩
  rw [(effects_with_gateway http handed node htype hcall).2, hframes]
  exact List.cons_ne_nil _ _

/-- A node without one sends the text on, if it fits. -/
theorem transmissions_eq_nil_iff_of_no_gateway (htype : handed.dataType = 0 ∨ handed.dataType = 2)
    (hnone : ¬ node.HasGateway) :
    transmissions (processReassembled http handed node).val.2 = [] ↔
      handed.rebroadcastData.length > 255 ∧
        maxMultipartParts < pieceCount multipartChunkSize handed.rebroadcastText.length := by
  have hsent : transmissions (processReassembled http handed node).val.2 =
      if handed.rebroadcastData.length > 255 then
        if (handed.broadcastMessage node.localAddress).parts ≤ maxMultipartParts then
          (handed.broadcastMessage node.localAddress).frames
        else []
      else [(sendBroadcast node.serialBuf handed.rebroadcastData (ascii "transaction")
        handed.rebroadcastPriority).2] :=
    (effects_without_gateway http handed node htype hnone).trans (transmissions_rebroadcast _ _ _ _)
  rw [hsent]
  by_cases hlong : handed.rebroadcastData.length > 255
  · rw [if_pos hlong, and_iff_right hlong]
    by_cases hfits : (handed.broadcastMessage node.localAddress).parts ≤ maxMultipartParts
    · rcases frames_broadcastMessage handed node.localAddress with ⟨rest, hframes⟩
      rw [if_pos hfits, hframes]
      exact iff_of_false (List.cons_ne_nil _ _) (Nat.not_lt.mpr hfits)
    · rw [if_neg hfits]
      exact iff_of_true rfl (Nat.lt_of_not_le hfits)
  · rw [if_neg hlong]
    exact iff_of_false (List.cons_ne_nil _ _) fun h => hlong h.1

/-- When a node sends nothing for a text. -/
theorem transmissions_processReassembled_eq_nil_iff :
    transmissions (processReassembled http handed node).val.2 = [] ↔ node.Withholds handed := by
  rw [Node.Withholds]
  by_cases htype : handed.dataType = 0 ∨ handed.dataType = 2
  · rw [forall_prop_of_true htype]
    by_cases hgateway : node.HasGateway
    · exact iff_of_false (transmissions_ne_nil_of_gateway http handed node htype hgateway)
        fun h => h.1 hgateway
    · rw [transmissions_eq_nil_iff_of_no_gateway http handed node htype hgateway,
        and_iff_right hgateway]
  · exact iff_of_true (quiet_processReassembled http node htype).2 fun h => absurd h htype

/-- Only a message can be a confirmation, and one confirmation at most. -/
theorem confirmations_processReassembled :
    (confirmations (processReassembled http handed node).val.2).length ≤ 1 := by
  by_cases htype : handed.dataType = 0 ∨ handed.dataType = 2
  · rcases processReassembled_forwards http handed node htype with ⟨label, heffects⟩
    have hsent (frames : List Bytes) : confirmations (frames.map .transmit) = [] := by
      induction frames with
      | nil => rfl
      | cons frame rest ih => exact ih
    have hline : confirmations (hostLine label handed.data) = [] := rfl
    rw [heffects, confirmations_append, hline, List.nil_append]
    cases hcall : node.submission handed.txData with
    | none =>
        rcases rebroadcast_only_transmits handed.rebroadcastData (ascii "transaction")
          handed.rebroadcastPriority node with ⟨frames, hframes⟩
        simp only [forwardTransaction, hcall, hframes, hsent, List.length_nil, Nat.zero_le]
    | some call =>
        have hposted : confirmations (call.call http node.internetConnected).2 = [] := by
          rw [Submission.call]
          split
          · rfl
          · rfl
        simp only [forwardTransaction, hcall, Traced.val_bind, Traced.val_pure,
          val_confirmToSender, confirmations_append, hposted, hsent, List.append_nil,
          List.length_nil, Nat.zero_le]
  · rw [not_or] at htype
    rw [processReassembled, if_neg htype.1]
    by_cases hmessage : handed.dataType = 1
    · rw [if_pos hmessage, Traced.val_pure, confirmations_processReassembledMessage]
      split
      · exact Nat.le_refl 1
      · exact Nat.zero_le 1
    · rw [if_neg hmessage, if_neg htype.2]
      exact Nat.zero_le 1

theorem abort_not_mem_hostLine (label : String) (data : Bytes) :
    Effect.abort ∉ hostLine label data := by
  intro hmem
  rcases List.mem_pair.mp hmem with hlabel | hdata
  · cases hlabel
  · cases hdata

theorem abort_not_mem_post (call : Submission) (connected : Bool) :
    Effect.abort ∉ (call.call http connected).2 := by
  intro hmem
  rw [Submission.call] at hmem
  split at hmem
  · rcases List.mem_pair.mp hmem with hfirst | hsecond
    · cases hfirst
    · cases hsecond
  · cases List.mem_singleton.mp hmem

/-- The firmware does not abort upon a text that is put together. -/
theorem abort_not_mem_processReassembled :
    Effect.abort ∉ (processReassembled http handed node).val.2 := by
  by_cases htype : handed.dataType = 0 ∨ handed.dataType = 2
  · rcases processReassembled_forwards http handed node htype with ⟨label, heffects⟩
    have hsent (frames : List Bytes) : Effect.abort ∉ frames.map Effect.transmit := by
      intro hmem
      rcases List.mem_map.mp hmem with ⟨frame, -, hframe⟩
      cases hframe
    rw [heffects, List.mem_append, not_or]
    refine ⟨abort_not_mem_hostLine label handed.data, ?_⟩
    cases hcall : node.submission handed.txData with
    | none =>
        rcases rebroadcast_only_transmits handed.rebroadcastData (ascii "transaction")
          handed.rebroadcastPriority node with ⟨frames, hframes⟩
        simp only [forwardTransaction, hcall, hframes]
        exact hsent frames
    | some call =>
        simp only [forwardTransaction, hcall, Traced.val_bind, Traced.val_pure,
          val_confirmToSender, List.mem_append, not_or]
        exact ⟨abort_not_mem_post http call _, hsent _⟩
  · rw [not_or] at htype
    rw [processReassembled, if_neg htype.1]
    by_cases hmessage : handed.dataType = 1
    · rw [if_pos hmessage, Traced.val_pure, processReassembledMessage, List.mem_append, not_or]
      refine ⟨fun hmem => ?_, abort_not_mem_hostLine _ handed.data⟩
      split at hmem
      · cases List.mem_singleton.mp hmem
      · cases hmem
    · rw [if_neg hmessage, if_neg htype.2]
      exact List.not_mem_nil

end Texts

/-! ## Packets -/

namespace Node

variable (world : World) (now : UInt32) (payload : Bytes) (node : Node)

/-- A packet that completes no text sends nothing; one that completes a text has the effects of
that text. -/
theorem effects_handedOn :
    match node.handedOn now payload with
    | none => transmissions (node.receive world now payload).val.2 = [] ∧
        (confirmations (node.receive world now payload).val.2).length ≤ 1
    | some handed => ∃ receiver : Receiver, (node.receive world now payload).val.2 =
        (processReassembled world.http handed (node.withReceiver receiver)).val.2 := by
  rw [handedOn]
  by_cases hkind : (node.receiver.rx.onRxDone payload).byte 0 =
      SerialCommand.multipartPacket.code
  · by_cases haccept : node.Accepts (node.receiver.rx.onRxDone payload).destination
    · simp only [hkind, haccept, and_self, if_true]
      rw [node.receive_multipart world now hkind haccept, Traced.val_bind, Receiver.step,
        Traced.val_bind, Traced.val_pure]
      cases (processMultipartPacket now (node.receiver.rx.onRxDone payload)
        node.receiver.table).val.handed with
      | none => exact ⟨rfl, Nat.zero_le 1⟩
      | some handed => exact ⟨_, rfl⟩
    · have hboth := not_or.mp haccept
      have hforeign : (node.receive world now payload).val.2 = [] := by
        rw [receive, parse_foreign world now (Ne.symm hboth.1) hboth.2]
        rfl
      simp only [haccept, and_false, if_false, hforeign]
      exact ⟨rfl, Nat.zero_le 1⟩
  · simp only [hkind, false_and, if_false]
    rcases node.effects_of_not_multipart world now hkind with
      hnone | hhost | ⟨data, hconfirmed⟩ | habort
    · rw [hnone]
      exact ⟨rfl, Nat.zero_le 1⟩
    · rw [hhost]
      exact ⟨rfl, Nat.zero_le 1⟩
    · rw [hconfirmed]
      exact ⟨rfl, Nat.le_refl 1⟩
    · rw [habort]
      exact ⟨rfl, Nat.zero_le 1⟩

/-- A packet upon which the firmware aborts has no other effect. -/
theorem effects_of_abort (h : .abort ∈ (node.receive world now payload).val.2) :
    (node.receive world now payload).val.2 = [.abort] := by
  by_cases hkind : (node.receiver.rx.onRxDone payload).byte 0 =
      SerialCommand.multipartPacket.code
  · have hpart : .abort ∉ (receivePart world now (node.withReceiver
        ⟨node.receiver.rx.onRxDone payload, node.receiver.table⟩)).val.2 := by
      rw [receivePart, Traced.val_bind]
      split
      · exact abort_not_mem_processReassembled _ _ _
      · exact List.not_mem_nil
    rcases node.receive_of_multipart world now hkind with hreceived | hforeign
    · rw [hreceived] at h
      exact absurd h hpart
    · rw [hforeign] at h
      cases h
  · rcases node.effects_of_not_multipart world now hkind with
      hnone | hhost | ⟨data, hconfirmed⟩ | habort
    · rw [hnone] at h
      cases h
    · rw [hhost] at h
      cases List.mem_singleton.mp h
    · rw [hconfirmed] at h
      cases List.mem_singleton.mp h
    · exact habort

/-- **When nothing is sent for a packet.** -/
theorem transmissions_receive_eq_nil_iff :
    transmissions (node.receive world now payload).val.2 = [] ↔
      ∀ handed, node.handedOn now payload = some handed → node.Withholds handed := by
  have heffects := node.effects_handedOn world now payload
  cases hhanded : node.handedOn now payload with
  | none =>
      rw [hhanded] at heffects
      exact iff_of_true heffects.1 fun handed hnone => by cases hnone
  | some handed =>
      rw [hhanded] at heffects
      rcases heffects with ⟨receiver, heffects⟩
      rw [heffects, transmissions_processReassembled_eq_nil_iff]
      apply Iff.intro
      · intro hwithholds other hother
        rcases Option.some.inj hother with rfl
        exact hwithholds
      · intro hall
        exact hall handed rfl

/-- One packet is one confirmation at most. -/
theorem length_confirmations_receive :
    (confirmations (node.receive world now payload).val.2).length ≤ 1 := by
  have heffects := node.effects_handedOn world now payload
  cases hhanded : node.handedOn now payload with
  | none =>
      rw [hhanded] at heffects
      exact heffects.2
  | some handed =>
      rw [hhanded] at heffects
      rcases heffects with ⟨receiver, heffects⟩
      rw [heffects]
      exact confirmations_processReassembled world.http handed _

end Node

end RadioDoge.V3
