/-
# A transaction on its way to the hub

serdog sends the text of a transaction in parts, and the hub hands the text to its library and
sends back what the library returns. Whatever else arrives in between, the library is given every
text once, as it was sent and in the order in which the texts were complete, and each sender is
told the result of its own.
-/

import RadioDoge.HostTransfer
import RadioDoge.Serdog.Outcomes
import RadioDoge.Sharp.Serving

namespace RadioDoge

open FallibleRun
open Heltec (hostWrites transmissions)
open Sharp (Handed Host Hub LibDogecoin MultipartPacket ShortPacket arrival handOver pieces
  portDataReceived processDogePayload sendTransactionResult serve whole)

/-! ## Sending -/

/-- `cmdSendTransaction`: what each call of `sendCommand` writes. -/
def Serdog.cmdSendTransaction (inaddr destAddr : NodeAddress) (rawTransaction : Bytes)
    (requestId : UInt8) : Option (List Bytes) :=
  let transactionLength := strlen rawTransaction
  let payload := DogeCommandType.transactionRequest.code :: rawTransaction.take transactionLength
  Serdog.cmdSendMultipartMessage inaddr destAddr payload (1 + transactionLength) requestId

/-- A text that a client sends. -/
structure Order where
  client : NodeAddress
  requestId : UInt8
  rawTransaction : Bytes
  deriving DecidableEq, Repr

/-- The message of an order. -/
def Order.message (hubAddress : NodeAddress) (order : Order) : HostMessage :=
  ⟨order.client, hubAddress, order.requestId,
    DogeCommandType.transactionRequest.code :: order.rawTransaction⟩

/-- A text without a NUL that fits 255 parts. -/
def Order.Fits (order : Order) : Prop :=
  (0 : UInt8) ∉ order.rawTransaction ∧ order.rawTransaction.length ≤ 48959

theorem Order.parts_message {order : Order} (hfits : order.Fits) (hubAddress : NodeAddress) :
    0 < (order.message hubAddress).parts ∧ (order.message hubAddress).parts ≤ 255 := by
  have hlength : (order.message hubAddress).payload.length = order.rawTransaction.length + 1 := rfl
  have hbound := hfits.2
  rw [HostMessage.parts, hlength]
  exact ⟨Pieces.pieceCount_pos (by decide) (Nat.succ_pos _),
    (Pieces.pieceCount_le_iff (by decide) 255).mpr (Nat.succ_le_succ hbound)⟩

/-- serdog writes the commands of the message, its node transmits the frames of the parts, and the
node of the hub gives them to the hub. -/
theorem passOnAll_cmdSendTransaction {order : Order} (hfits : order.Fits)
    (hubAddress : NodeAddress) :
    ∃ commands, Serdog.cmdSendTransaction order.client hubAddress order.rawTransaction
        order.requestId = some commands ∧
      ∀ sender receiver : Heltec.Node, receiver.Accepts hubAddress →
        receiver.passOnAll (sender.transmitAll commands) =
          (pieces (order.message hubAddress)).map fun piece => arrival (.inl piece) := by
  have htext : strlen order.rawTransaction = order.rawTransaction.length :=
    congrArg List.length ((ofCString_eq_self_iff _).mpr hfits.1)
  refine ⟨(order.message hubAddress).commands, ?_, fun sender receiver haccepts => ?_⟩
  · simp only [Serdog.cmdSendTransaction, htext, List.take_length, Nat.add_comm 1]
    exact Serdog.cmdSendMultipartMessage_eq (order.message hubAddress)
  · rw [passOnAll_transmitAll _ sender receiver haccepts, HostMessage.frames, pieces, List.map_map]
    rfl

/-! ## What the library is given -/

section Remembering

variable {W : Type} (library : LibDogecoin W)

/-- A library that remembers the texts it was given to broadcast, and what it returned. -/
def remembering : LibDogecoin (W × List (Bytes × Bytes)) where
  registerWatchAddress wallet address :=
    ((library.registerWatchAddress wallet.1 address).1,
      (library.registerWatchAddress wallet.1 address).2, wallet.2)
  unregisterWatchAddress wallet address :=
    ((library.unregisterWatchAddress wallet.1 address).1,
      (library.unregisterWatchAddress wallet.1 address).2, wallet.2)
  getBalance wallet address := library.getBalance wallet.1 address
  getAllUTXOs wallet address := library.getAllUTXOs wallet.1 address
  broadcastTransaction wallet rawTransaction :=
    ((library.broadcastTransaction wallet.1 rawTransaction).1,
      (library.broadcastTransaction wallet.1 rawTransaction).2,
      wallet.2 ++ [(rawTransaction, (library.broadcastTransaction wallet.1 rawTransaction).1)])
  generatePrivPubKeypair wallet :=
    ((library.generatePrivPubKeypair wallet.1).1, (library.generatePrivPubKeypair wallet.1).2,
      wallet.2)

/-- It forgets nothing, whatever else it does. -/
theorem remembering_keeps (log : List (Bytes × Bytes)) :
    (remembering library).Keeps fun wallet => wallet.2 = log where
  register _ _ h := h
  unregister _ _ h := h
  generate _ h := h

/-- A payload that asks for a broadcast. -/
def IsOrder (one : Handed) : Prop :=
  one.payload.head? = some DogeCommandType.transactionRequest.code

instance : DecidablePred IsOrder := fun _ => inferInstanceAs (Decidable (_ = _))

/-- The text behind the command is broadcast, and the sender is told the result. -/
theorem processDogePayload_transaction {W : Type} (library : LibDogecoin W) (sender : NodeAddress)
    (rawTransaction : Bytes) (hub : Hub W) :
    processDogePayload library sender
        (DogeCommandType.transactionRequest.code :: rawTransaction) hub =
      .ok ({ hub with wallet := (library.broadcastTransaction hub.wallet rawTransaction).2 },
        [sendTransactionResult hub.localAddress sender
          (library.broadcastTransaction hub.wallet rawTransaction).1]) := by
  have hcommand : Sharp.index (DogeCommandType.transactionRequest.code :: rawTransaction) 0 =
      .ok DogeCommandType.transactionRequest.code := rfl
  have hcopy : Sharp.copyOut (DogeCommandType.transactionRequest.code :: rawTransaction) 1
      ((DogeCommandType.transactionRequest.code :: rawTransaction).length - 1) =
        .ok rawTransaction := by
    have hextract := Sharp.extractDogecoinAddress_cons DogeCommandType.transactionRequest.code
      rawTransaction
    exact hextract
  rw [processDogePayload, hcommand, Sharp.bind_ok, DogeCommandType.ofCode?_code]
  simp only [Sharp.serviceTransactionRequest]
  rw [hcopy, Sharp.bind_ok]
  rfl

/-- A run of the processor: the texts of the orders are given to the library in their order, and
the results go back to the senders. -/
theorem run_remembering {handed : List Handed} :
    ∀ {hub hub' : Hub (W × List (Bytes × Bytes))} {commands : List Bytes},
      run (serve (remembering library)) hub handed = .ok (hub', commands) →
        ∃ log, hub'.wallet.2 = hub.wallet.2 ++ log ∧
          log.map Prod.fst = (handed.filter (IsOrder ·)).map (fun one => one.payload.tail) ∧
          (List.zipWith (fun one result =>
            sendTransactionResult hub.localAddress one.sender result.2)
              (handed.filter (IsOrder ·)) log).Sublist commands := by
  induction handed with
  | nil =>
      intro hub hub' commands hrun
      rcases Prod.mk.inj (Except.ok.inj hrun) with ⟨rfl, rfl⟩
      exact ⟨[], (List.append_nil _).symm, rfl, List.Sublist.refl _⟩
  | cons one rest ih =>
      intro hub hub' commands hrun
      rcases (run_cons_eq_ok _).mp hrun with ⟨between, first, later, hfirst, hlater, rfl⟩
      have hserved := Sharp.served_processDogePayload _ hfirst
      rcases ih hlater with ⟨log, hlog, htexts, hresults⟩
      rw [hserved.localAddress] at hresults
      by_cases horder : IsOrder one
      · have hkept : (one :: rest).filter (IsOrder ·) = one :: rest.filter (IsOrder ·) :=
          List.filter_cons_of_pos (decide_eq_true horder)
        rw [hkept]
        rcases one with ⟨kind, sender, payload⟩
        rcases List.head?_eq_some_iff.mp horder with ⟨rawTransaction, rfl⟩
        rw [serve, processDogePayload_transaction] at hfirst
        rcases Prod.mk.inj (Except.ok.inj hfirst) with ⟨rfl, rfl⟩
        refine ⟨(rawTransaction, (library.broadcastTransaction hub.wallet.1 rawTransaction).1) :: log,
          ?_, ?_, ?_⟩
        · rw [hlog]
          exact List.append_assoc _ _ _
        · rw [List.map_cons, List.map_cons, htexts]
          rfl
        · rw [List.zipWith_cons_cons]
          exact hresults.cons_cons _
      · have hsame := hserved.wallet horder _ (remembering_keeps library _) rfl
        have hdropped : (one :: rest).filter (IsOrder ·) = rest.filter (IsOrder ·) :=
          List.filter_cons_of_neg (by rw [decide_eq_true_eq]; exact horder)
        rw [hdropped]
        exact ⟨log, hsame ▸ hlog, htexts, hresults.trans (List.sublist_append_right _ _)⟩

end Remembering

/-- Payloads with room for what is read from them are served. -/
theorem run_serve_completes {W : Type} (library : LibDogecoin W) {handed : List Handed} :
    ∀ {hub : Hub W}, (∀ one ∈ handed, Sharp.DogePayloadFits one.payload) →
      ∃ hub' commands, run (serve library) hub handed = .ok (hub', commands) := by
  induction handed with
  | nil => exact fun {hub} _ => ⟨hub, [], rfl⟩
  | cons one rest ih =>
      intro hub hfits
      rcases (Sharp.completes_processDogePayload library one.sender one.payload hub).mpr
        (hfits one List.mem_cons_self) with ⟨⟨between, first⟩, hfirst⟩
      rcases @ih between (fun other hmem => hfits other (List.mem_cons_of_mem one hmem)) with
        ⟨hub', later, hlater⟩
      exact ⟨hub', first ++ later, (run_cons_eq_ok _).mpr ⟨between, first, later, hfirst, hlater,
        rfl⟩⟩

/-! ## From the clients to the library -/

/-- **The result, end to end.** The hub sends what the library returned in one packet, which the
nodes pass on as it is. serdog shows it as the id of a transaction if it has 64 characters, as a
failure if it has one, and as unknown otherwise. -/
theorem transaction_result_end_to_end (src dest : NodeAddress) {txid : Bytes}
    (hascii : ∀ char ∈ txid, char < 128) (hlength : txid.length ≤ 246) :
    ∃ frame,
      (∀ sender : Heltec.Node,
        transmissions (sender.hostSerialRead (sendTransactionResult src dest txid)).2 = [frame]) ∧
      (∀ receiver : Heltec.Node, receiver.Accepts dest →
        hostWrites (receiver.onRxDone frame).2 = [frame]) ∧
      FrameStream.IsFrame Serdog.complete frame ∧
      ∀ pin dataBuffer, (Serdog.receivePacket pin frame dataBuffer).map Prod.fst =
        some (src, .transaction (
          if txid.length = txIdStringLength then .txId (ofCString txid)
          else if txid.length = 1 then .failed (txid.headD 0)
          else .unknown)) := by
  let reply : HostPacket := ⟨src, dest, DogeCommandType.transactionResult.code :: txid⟩
  have hpayload : reply.payload.length = txid.length + 1 := rfl
  have hframe : reply.frame.length = txid.length + 9 := reply.length_frame
  have hshort : reply.frame.length ≤ 255 := by omega
  have hcommand : sendTransactionResult src dest txid = reply.command := by
    rw [sendTransactionResult, Sharp.asciiGetBytes_of_ascii hascii]
    exact Sharp.createPacket_eq reply
  refine ⟨reply.frame, ?_, ?_, ?_, ?_⟩
  · intro sender
    rw [hcommand]
    exact Heltec.Node.transmissions_hostSerialRead (.inl rfl) hshort sender
  · intro receiver haccepts
    exact (Heltec.Node.hostWrites_onRxDone (.inl rfl) hshort receiver).trans (if_pos haccepts)
  · exact (recovered_frame reply (by omega)).isFrame
  · intro pin dataBuffer
    have hdrop : reply.frame.drop singlePacketHdrLen =
        DogeCommandType.transactionResult.code :: txid := rfl
    have hheader : singlePacketHdrLen ≤ reply.frame.length := by
      rw [hframe]
      exact Nat.le_add_left 8 (txid.length + 1)
    rw [Serdog.fst_receivePacket pin dataBuffer hheader (hshort.trans (by decide)), hdrop, List.cons_append,
      Serdog.Outcome.of_cons, DogeCommandType.ofCode?_code]
    simp only [Option.map_some, List.length_cons, Serdog.processTransactionResult]
    refine congrArg some (congrArg (Prod.mk src) (congrArg _ ?_))
    by_cases hid : txid.length = txIdStringLength
    · rw [if_neg (by rw [hid]; decide), if_pos (by rw [hid, Nat.add_comm]), if_pos hid,
        List.take_left' hid]
    · rw [if_neg hid, if_neg (show ¬ txid.length + 1 = 1 + txIdStringLength by omega)]
      by_cases hone : txid.length = 1
      · rcases List.length_eq_one_iff.mp hone with ⟨char, rfl⟩
        rfl
      · rw [if_neg (by omega), if_neg hone]

/-- A failure. -/
theorem transaction_result_end_to_end_failed :
    ∃ frame,
      (∀ sender : Heltec.Node, transmissions (sender.hostSerialRead
        (sendTransactionResult ⟨10, 0, 1⟩ ⟨10, 0, 2⟩ [48])).2 = [frame]) ∧
      (∀ receiver : Heltec.Node, receiver.Accepts ⟨10, 0, 2⟩ →
        hostWrites (receiver.onRxDone frame).2 = [frame]) ∧
      FrameStream.IsFrame Serdog.complete frame ∧
      ∀ pin dataBuffer, (Serdog.receivePacket pin frame dataBuffer).map Prod.fst =
        some (⟨10, 0, 1⟩, .transaction (.failed 48)) :=
  transaction_result_end_to_end ⟨10, 0, 1⟩ ⟨10, 0, 2⟩ (List.forall_mem_singleton.mpr (by decide))
    (by decide)

end RadioDoge
