/-
# What a node does with reassembled data

The `ProcessReassembled*` functions give the data to the host. A transaction or a
broadcast is then submitted to a gateway, whose answer goes back to the sender
twice, or, without a gateway, sent on to the other nodes.

What a node does to its surroundings is a list of `Effect`s. The log lines printed
on the host port and the displays are left out, and so is what
`HandleConfirmationReceived` does to the request queue, which has its own module:
the call is an effect here. The HTTP client is a parameter.
-/

import RadioDoge.V3.Senders
import RadioDoge.V3.MultipartSend

namespace RadioDoge.V3

/-! ## Submissions -/

/-- A `POST` of the HTTP client. -/
structure HttpRequest where
  url : Bytes
  authorization : Option (Bytes × Bytes)
  payload : Bytes
  deriving DecidableEq, Repr

/-- What the HTTP client returns: the result code, the body, and its text for the
code. -/
structure HttpReply where
  code : Int
  body : Bytes
  errorText : Bytes
  deriving DecidableEq, Repr

/-- The HTTP client and the servers behind it. -/
abbrev Http := HttpRequest → HttpReply

/-- A call of one of the three gateway functions. -/
inductive Submission
  | sendTransactionToInternet (transactionData : Bytes)
  | sendTransactionToCustomGateway (transactionData gatewayUrl : Bytes)
  | sendJsonRpcToGateway (transaction gatewayUrl rpcUser rpcPass : Bytes)
  deriving DecidableEq, Repr

/-- What a node does to its surroundings. -/
inductive Effect
  | host (bytes : Bytes)
  | submit (call : Submission)
  | post (request : HttpRequest)
  | transmit (frame : Bytes)
  | handleConfirmationReceived (confirmationData : Bytes)
  /-- `abort`, behind which the firmware starts again. -/
  | abort
  deriving DecidableEq, Repr

namespace Submission

/-- The transaction text a gateway function is called with. -/
def text : Submission → Bytes
  | .sendTransactionToInternet transactionData => transactionData
  | .sendTransactionToCustomGateway transactionData _ => transactionData
  | .sendJsonRpcToGateway transaction _ _ _ => transaction

/-- The request a gateway function posts. -/
def request : Submission → HttpRequest
  | .sendTransactionToInternet transactionData =>
      { url := ascii "https://api.blockcypher.com/v1/doge/main/txs/push"
        authorization := none
        payload := ascii "\x7b\"tx\":\"" ++ transactionData ++ ascii "\"\x7d" }
  | .sendTransactionToCustomGateway transactionData gatewayUrl =>
      { url := gatewayUrl
        authorization := none
        payload := ascii "\x7b\"tx\":\"" ++ transactionData ++ ascii "\"\x7d" }
  | .sendJsonRpcToGateway transaction gatewayUrl rpcUser rpcPass =>
      { url := gatewayUrl
        authorization := some (ofCString rpcUser, ofCString rpcPass)
        payload := ascii ("\x7b\"jsonrpc\":\"1.0\",\"id\":\"curl\"," ++
            "\"method\":\"sendrawtransaction\",\"params\":[\"") ++
          transaction ++ ascii "\"]\x7d" }

/-- The text a gateway function makes of the reply. -/
def response (reply : HttpReply) : Submission → Bytes
  | .sendTransactionToInternet _ | .sendTransactionToCustomGateway _ _ =>
      if reply.code > 0 then reply.body
      else ascii "\x7b\"error\":\"HTTP Error " ++ ascii (toString reply.code) ++ ascii "\"\x7d"
  | .sendJsonRpcToGateway _ _ _ _ =>
      if reply.code > 0 then
        if reply.body.length = 0 then
          ascii "\x7b\"error\":\"Empty response from server (HTTP " ++
            ascii (toString reply.code) ++ ascii ")\"\x7d"
        else reply.body
      else
        ascii "\x7b\"error\":\"HTTP Error " ++ ascii (toString reply.code) ++ ascii " - " ++
          reply.errorText ++ ascii "\"\x7d"

/-- A call of a gateway function: its result, and what it posts. -/
def call (http : Http) (internetConnected : Bool) (s : Submission) : Bytes × List Effect :=
  if internetConnected then (s.response (http s.request), [.submit s, .post s.request])
  else (ascii "\x7b\"error\":\"No internet connection available\"\x7d", [.submit s])

end Submission

/-! ## The node -/

/-- The stored gateway configuration. -/
structure GatewayConfig where
  type : Bytes
  ip : Bytes
  port : Bytes
  endpoint : Bytes
  username : Bytes
  password : Bytes
  deriving DecidableEq, Repr

/-- The configuration after a reset without stored credentials. -/
def GatewayConfig.boot : GatewayConfig := ⟨ascii "none", [], [], [], [], []⟩

/-- What the radio side of the firmware keeps between two packets. -/
structure Node where
  localAddress : NodeAddress
  dest : NodeAddress
  gateway : GatewayConfig
  internetConnected : Bool
  serialBuf : Vector UInt8 bufferSize
  receiver : Receiver
  needToSendAck : Bool

/-- `gatewayUrl`. -/
def GatewayConfig.url (g : GatewayConfig) : Bytes :=
  ascii "http://" ++ g.ip ++ ascii ":" ++ g.port ++
    if equals g.type (ascii "core") = false ∧ g.endpoint.length > 0 then g.endpoint else []

/-- The gateway function a node submits a transaction with, if there is one. -/
def Node.submission (node : Node) (txData : Bytes) : Option Submission :=
  if equals node.gateway.type (ascii "none") = false ∧ node.gateway.ip.length > 0 then
    if equals node.gateway.type (ascii "core") then
      some (.sendJsonRpcToGateway txData node.gateway.url node.gateway.username
        node.gateway.password)
    else some (.sendTransactionToCustomGateway txData node.gateway.url)
  else if node.internetConnected then some (.sendTransactionToInternet txData)
  else none

/-- One confirmation to the original sender. -/
def sendConfirmation (originalSender : NodeAddress) (confirmMessage : Bytes) (node : Node) :
    Checked (Node × List Effect) :=
  if confirmMessage.length > 240 then do
    let frames ← sendMultipartMessage node.localAddress originalSender confirmMessage
      (ascii "confirmation")
    pure (node, frames.map .transmit)
  else
    let sent := sendMessage node.localAddress node.serialBuf originalSender confirmMessage
      (ascii "confirmation")
    pure ({ node with dest := originalSender, serialBuf := sent.1 }, [.transmit sent.2])

/-- What a node does once it has submitted a transaction: two confirmations. -/
def confirmToSender (originalSender : NodeAddress) (internetResponse : Bytes) (node : Node) :
    Checked (Node × List Effect) := do
  let confirmMessage := ascii "DOGECOIN_RESPONSE:" ++ internetResponse
  let first ← sendConfirmation originalSender confirmMessage node
  let second ← sendConfirmation originalSender confirmMessage first.1
  pure (second.1, first.2 ++ second.2)

/-- What a node without a gateway does: send the data on, as a broadcast. -/
def rebroadcast (rebroadcastData type priority : Bytes) (node : Node) :
    Checked (Node × List Effect) :=
  if rebroadcastData.length > 255 then do
    let frames ← sendMultipartBroadcast node.localAddress rebroadcastData type priority
    pure ({ node with dest := if frames = [] then node.dest else NodeAddress.broadcast },
      frames.map .transmit)
  else
    let sent := sendBroadcast node.serialBuf rebroadcastData type priority
    pure ({ node with serialBuf := sent.1 }, [.transmit sent.2])

/-- A line for the host: the text, then the newline. -/
def hostLine (label : String) (data : Bytes) : List Effect :=
  [.host (ascii label ++ data), .host [10]]

/-- Submit the transaction and confirm, or send `rebroadcastData` on. -/
def forwardTransaction (http : Http) (src : NodeAddress) (txData rebroadcastData priority : Bytes)
    (node : Node) : Checked (Node × List Effect) :=
  match node.submission txData with
  | some submission => do
      let answer := submission.call http node.internetConnected
      let confirmed ← confirmToSender src answer.1 node
      pure (confirmed.1, answer.2 ++ confirmed.2)
  | none => rebroadcast rebroadcastData (ascii "transaction") priority node

/-! ## The three functions -/

/-- `txType` and `txData` of `ProcessReassembledTransaction`. -/
def splitTransaction (transactionData : Bytes) : Bytes × Bytes :=
  match indexOf transactionData colon 0 with
  | some colonPos =>
      if colonPos > 0 then
        (substring transactionData 0 colonPos, substringFrom transactionData (colonPos + 1))
      else (ascii "signed", transactionData)
  | none => (ascii "signed", transactionData)

/-- `ProcessReassembledTransaction`. -/
def processReassembledTransaction (http : Http) (transactionData : Bytes) (src : NodeAddress)
    (node : Node) : Checked (Node × List Effect) := do
  let (txType, txData) := splitTransaction transactionData
  let rebroadcastData := ascii "transaction:" ++ txType ++ ascii ":" ++ txData
  let forwarded ← forwardTransaction http src txData rebroadcastData (ascii "normal") node
  pure (forwarded.1, hostLine "TRANSACTION:" transactionData ++ forwarded.2)

/-- `ProcessReassembledMessage`. -/
def processReassembledMessage (messageData : Bytes) (node : Node) : Node × List Effect :=
  let confirmed : List Effect :=
    if startsWith messageData (ascii "DOGECOIN_RESPONSE:") then
      [.handleConfirmationReceived messageData]
    else []
  (node, confirmed ++ hostLine "MESSAGE:" messageData)

/-- `txData` and `rebroadcastPriority` of `ProcessReassembledBroadcast`. -/
def splitBroadcast (broadcastData : Bytes) : Bytes × Bytes :=
  if startsWith broadcastData (ascii "transaction:normal:") then
    (substringFrom broadcastData 19, ascii "normal")
  else if startsWith broadcastData (ascii "transaction:") then
    match indexOf broadcastData colon 12 with
    | some colonPos =>
        if colonPos > 0 then
          (substringFrom broadcastData (colonPos + 1), substring broadcastData 12 colonPos)
        else (broadcastData, ascii "normal")
    | none => (broadcastData, ascii "normal")
  else (broadcastData, ascii "normal")

/-- `ProcessReassembledBroadcast`. -/
def processReassembledBroadcast (http : Http) (broadcastData : Bytes) (src : NodeAddress)
    (node : Node) : Checked (Node × List Effect) := do
  let (txData, rebroadcastPriority) := splitBroadcast broadcastData
  let rebroadcastData := ascii "transaction" ++ ascii ":" ++ rebroadcastPriority ++ ascii ":" ++
    txData
  let forwarded ← forwardTransaction http src txData rebroadcastData rebroadcastPriority node
  pure (forwarded.1, hostLine "BROADCAST:" broadcastData ++ forwarded.2)

/-- The switch of `ReassembleMultipartPacket` over the data type. -/
def processReassembled (http : Http) (handed : Reassembled) (node : Node) :
    Checked (Node × List Effect) :=
  if handed.dataType = 0 then processReassembledTransaction http handed.data handed.src node
  else if handed.dataType = 1 then pure (processReassembledMessage handed.data node)
  else if handed.dataType = 2 then processReassembledBroadcast http handed.data handed.src node
  else pure (node, [])

/-! ## Reading a list of effects -/

/-- Everything written to the host. -/
def hostOutput (effects : List Effect) : Bytes :=
  effects.flatMap fun
    | .host bytes => bytes
    | _ => []

/-- The calls of gateway functions. -/
def submissions (effects : List Effect) : List Submission :=
  effects.filterMap fun
    | .submit call => some call
    | _ => none

/-- The frames passed to `Radio.Send`. -/
def transmissions (effects : List Effect) : List Bytes :=
  effects.filterMap fun
    | .transmit frame => some frame
    | _ => none

/-- The data `HandleConfirmationReceived` is called with. -/
def confirmations (effects : List Effect) : List Bytes :=
  effects.filterMap fun
    | .handleConfirmationReceived confirmationData => some confirmationData
    | _ => none

theorem submissions_append (first second : List Effect) :
    submissions (first ++ second) = submissions first ++ submissions second :=
  List.filterMap_append

theorem transmissions_append (first second : List Effect) :
    transmissions (first ++ second) = transmissions first ++ transmissions second :=
  List.filterMap_append

@[simp]
theorem submissions_map_transmit (frames : List Bytes) :
    submissions (frames.map .transmit) = [] := by
  induction frames with
  | nil => rfl
  | cons frame rest ih => exact ih

@[simp]
theorem transmissions_map_transmit (frames : List Bytes) :
    transmissions (frames.map .transmit) = frames := by
  induction frames with
  | nil => rfl
  | cons frame rest ih => exact congrArg (frame :: ·) ih

@[simp]
theorem submissions_hostLine (label : String) (data : Bytes) :
    submissions (hostLine label data) = [] := rfl

@[simp]
theorem transmissions_hostLine (label : String) (data : Bytes) :
    transmissions (hostLine label data) = [] := rfl

/-! ## With a gateway -/

/-- A configured gateway, or the internet. -/
def Node.HasGateway (node : Node) : Prop :=
  (equals node.gateway.type (ascii "none") = false ∧ node.gateway.ip.length > 0) ∨
    node.internetConnected = true

/-- Whether a transaction is submitted does not depend on its text. -/
theorem submission_eq_none_iff (node : Node) (txData : Bytes) :
    node.submission txData = none ↔ ¬ node.HasGateway := by
  rw [Node.submission, Node.HasGateway]
  by_cases hconfigured : equals node.gateway.type (ascii "none") = false ∧
      node.gateway.ip.length > 0
  · rw [if_pos hconfigured]
    refine iff_of_false (fun hnone => ?_) fun hneither => hneither (.inl hconfigured)
    split at hnone
    · cases hnone
    · cases hnone
  · rw [if_neg hconfigured]
    by_cases honline : node.internetConnected = true
    · rw [if_pos honline]
      exact iff_of_false (fun hnone => by cases hnone) fun hneither => hneither (.inr honline)
    · rw [if_neg honline]
      exact iff_of_true rfl fun heither => heither.elim hconfigured honline

/-- The text is submitted as it is, whichever function is called. -/
theorem text_submission {node : Node} {txData : Bytes} {call : Submission}
    (h : node.submission txData = some call) : call.text = txData := by
  rw [Node.submission] at h
  split at h
  · split at h
    · obtain rfl := Option.some.inj h
      rfl
    · obtain rfl := Option.some.inj h
      rfl
  · split at h
    · obtain rfl := Option.some.inj h
      rfl
    · cases h

/-- The frames of one confirmation. -/
def confirmationFrames (localAddress originalSender : NodeAddress) (confirmMessage : Bytes) :
    List Bytes :=
  let messageData := ascii "confirmation" ++ colon :: confirmMessage
  if confirmMessage.length > 240 then
    (MultipartMessage.mk localAddress originalSender 1 messageData).frames
  else
    [MessageType.message.code :: 0 :: localAddress.bytes ++ originalSender.bytes ++
      strncpy (messageData.take 247)]

/-- A confirmation does not begin like a broadcast. -/
theorem confirmationFrames_eq_cons (localAddress originalSender : NodeAddress)
    (confirmMessage : Bytes) :
    ∃ frame rest, confirmationFrames localAddress originalSender confirmMessage = frame :: rest ∧
      (frame.head? = some MessageType.message.code ∨ frame[9]? = some 1) := by
  rw [confirmationFrames]
  split
  · have hpos : 0 < (MultipartMessage.mk localAddress originalSender 1
        (ascii "confirmation" ++ colon :: confirmMessage)).parts :=
      Pieces.pieceCount_pos (by decide) (List.length_pos_iff.mpr (by simp))
    obtain ⟨rest, hframes⟩ := MultipartMessage.frames_eq_cons hpos
    exact ⟨_, rest, hframes, Or.inr rfl⟩
  · exact ⟨_, [], rfl, Or.inl rfl⟩

/-- Its frames are one message, or the parts of a text of type 1. -/
theorem mem_confirmationFrames {localAddress originalSender : NodeAddress} {confirmMessage : Bytes}
    {frame : Bytes} (h : frame ∈ confirmationFrames localAddress originalSender confirmMessage) :
    (∃ text : Bytes, frame = MessageType.message.code :: 0 :: localAddress.bytes ++
        originalSender.bytes ++ strncpy (text.take 247)) ∨
      ∃ (text : Bytes) (part : Nat),
        frame = (MultipartMessage.mk localAddress originalSender 1 text).frame part := by
  rw [confirmationFrames] at h
  split at h
  · exact Or.inr ⟨_, MultipartMessage.exists_of_mem_frames h⟩
  · exact Or.inl ⟨_, List.mem_singleton.mp h⟩

theorem val_sendConfirmation (originalSender : NodeAddress) (confirmMessage : Bytes) (node : Node) :
    (sendConfirmation originalSender confirmMessage node).val.1.localAddress = node.localAddress ∧
      (sendConfirmation originalSender confirmMessage node).val.2 =
        (confirmationFrames node.localAddress originalSender confirmMessage).map .transmit := by
  rw [sendConfirmation, confirmationFrames]
  by_cases hlong : confirmMessage.length > 240
  · simp only [if_pos hlong, Traced.val_bind, Traced.val_pure, val_sendMultipartMessage, and_self]
  · simp only [if_neg hlong, Traced.val_pure, frame_sendMessage, List.map_cons, List.map_nil,
      and_self]

/-- Two confirmations of the same frames. -/
theorem val_confirmToSender (originalSender : NodeAddress) (internetResponse : Bytes)
    (node : Node) :
    (confirmToSender originalSender internetResponse node).val.2 =
      (confirmationFrames node.localAddress originalSender
          (ascii "DOGECOIN_RESPONSE:" ++ internetResponse) ++
        confirmationFrames node.localAddress originalSender
          (ascii "DOGECOIN_RESPONSE:" ++ internetResponse)).map .transmit := by
  obtain ⟨haddress, hfirst⟩ := val_sendConfirmation originalSender
    (ascii "DOGECOIN_RESPONSE:" ++ internetResponse) node
  obtain ⟨-, hsecond⟩ := val_sendConfirmation originalSender
    (ascii "DOGECOIN_RESPONSE:" ++ internetResponse)
    (sendConfirmation originalSender (ascii "DOGECOIN_RESPONSE:" ++ internetResponse) node).val.1
  simp only [confirmToSender, Traced.val_bind, Traced.val_pure, hfirst, hsecond, haddress,
    List.map_append]

/-- The transaction a node forwards for the data it was handed. -/
def Reassembled.txData (handed : Reassembled) : Bytes :=
  if handed.dataType = 0 then (splitTransaction handed.data).2 else (splitBroadcast handed.data).1

/-- What is sent on without a gateway. -/
def Reassembled.rebroadcastData (handed : Reassembled) : Bytes :=
  if handed.dataType = 0 then
    ascii "transaction:" ++ (splitTransaction handed.data).1 ++ ascii ":" ++ handed.txData
  else ascii "transaction" ++ ascii ":" ++ (splitBroadcast handed.data).2 ++ ascii ":" ++
    handed.txData

/-- The priority it is sent on with. -/
def Reassembled.rebroadcastPriority (handed : Reassembled) : Bytes :=
  if handed.dataType = 0 then ascii "normal" else (splitBroadcast handed.data).2

/-- A transaction and a broadcast are forwarded alike, behind the line for the host. -/
theorem processReassembled_forwards (http : Http) (handed : Reassembled) (node : Node)
    (htype : handed.dataType = 0 ∨ handed.dataType = 2) :
    ∃ label, (processReassembled http handed node).val.2 = hostLine label handed.data ++
      (forwardTransaction http handed.src handed.txData handed.rebroadcastData
        handed.rebroadcastPriority node).val.2 := by
  obtain ⟨dataType, data, src⟩ := handed
  cases htype with
  | inl hzero =>
      obtain rfl : dataType = 0 := hzero
      exact ⟨"TRANSACTION:", rfl⟩
  | inr htwo =>
      obtain rfl : dataType = 2 := htwo
      exact ⟨"BROADCAST:", rfl⟩

/-- With a gateway, the transaction is submitted once and answered twice. -/
theorem effects_with_gateway (http : Http) (handed : Reassembled) (node : Node)
    (htype : handed.dataType = 0 ∨ handed.dataType = 2) {call : Submission}
    (hcall : node.submission handed.txData = some call) :
    submissions (processReassembled http handed node).val.2 = [call] ∧
      transmissions (processReassembled http handed node).val.2 =
        confirmationFrames node.localAddress handed.src
            (ascii "DOGECOIN_RESPONSE:" ++ (call.call http node.internetConnected).1) ++
          confirmationFrames node.localAddress handed.src
            (ascii "DOGECOIN_RESPONSE:" ++ (call.call http node.internetConnected).1) := by
  obtain ⟨label, heffects⟩ := processReassembled_forwards http handed node htype
  have hposted : submissions (call.call http node.internetConnected).2 = [call] ∧
      transmissions (call.call http node.internetConnected).2 = [] := by
    rw [Submission.call]
    split
    · exact ⟨rfl, rfl⟩
    · exact ⟨rfl, rfl⟩
  simp only [heffects, forwardTransaction, hcall, Traced.val_bind, Traced.val_pure,
    val_confirmToSender, submissions_append, transmissions_append, submissions_hostLine,
    transmissions_hostLine, hposted.1, hposted.2, submissions_map_transmit,
    transmissions_map_transmit, List.nil_append, List.append_nil, and_self]

/-- Without one, it is sent on. -/
theorem effects_without_gateway (http : Http) (handed : Reassembled) (node : Node)
    (htype : handed.dataType = 0 ∨ handed.dataType = 2) (hnone : ¬ node.HasGateway) :
    transmissions (processReassembled http handed node).val.2 =
      transmissions (rebroadcast handed.rebroadcastData (ascii "transaction")
        handed.rebroadcastPriority node).val.2 := by
  obtain ⟨label, heffects⟩ := processReassembled_forwards http handed node htype
  have hsubmission := (submission_eq_none_iff node handed.txData).mpr hnone
  simp only [heffects, forwardTransaction, hsubmission, transmissions_append,
    transmissions_hostLine, List.nil_append]

/-- What is sent on: the parts of a long text that fits, or one frame. -/
theorem transmissions_rebroadcast (data type priority : Bytes) (node : Node) :
    transmissions (rebroadcast data type priority node).val.2 =
      if data.length > 255 then
        if (MultipartMessage.mk node.localAddress NodeAddress.broadcast 2
            (type ++ colon :: (priority ++ colon :: data))).parts ≤ maxMultipartParts then
          (MultipartMessage.mk node.localAddress NodeAddress.broadcast 2
            (type ++ colon :: (priority ++ colon :: data))).frames
        else []
      else [(sendBroadcast node.serialBuf data type priority).2] := by
  rw [rebroadcast]
  by_cases hlong : data.length > 255
  · simp only [if_pos hlong, Traced.val_bind, Traced.val_pure, val_sendMultipartBroadcast,
      transmissions_map_transmit]
  · rw [if_neg hlong, if_neg hlong]
    rfl

/-- Sending on is nothing but frames. -/
theorem rebroadcast_only_transmits (data type priority : Bytes) (node : Node) :
    ∃ frames : List Bytes,
      (rebroadcast data type priority node).val.2 = frames.map .transmit := by
  rw [rebroadcast]
  split
  · exact ⟨_, rfl⟩
  · exact ⟨[_], rfl⟩

/-- Without a gateway, a line for the host and frames are all that comes of it. -/
theorem only_transmits_without_gateway (http : Http) (handed : Reassembled) (node : Node)
    (htype : handed.dataType = 0 ∨ handed.dataType = 2)
    (hnone : node.submission handed.txData = none) :
    ∃ (label : String) (frames : List Bytes), (processReassembled http handed node).val.2 =
      hostLine label handed.data ++ frames.map .transmit := by
  rcases processReassembled_forwards http handed node htype with ⟨label, heffects⟩
  rcases rebroadcast_only_transmits handed.rebroadcastData (ascii "transaction")
    handed.rebroadcastPriority node with ⟨frames, hframes⟩
  exact ⟨label, frames, by rw [heffects, forwardTransaction, hnone, ← hframes]⟩

/-- Nothing is submitted without one. -/
theorem submissions_without_gateway (http : Http) {handed : Reassembled} {node : Node}
    (htype : handed.dataType = 0 ∨ handed.dataType = 2)
    (hnone : node.submission handed.txData = none) :
    submissions (processReassembled http handed node).val.2 = [] := by
  rcases only_transmits_without_gateway http handed node htype hnone with ⟨label, frames, heffects⟩
  rw [heffects, submissions_append, submissions_hostLine, List.nil_append]
  exact submissions_map_transmit frames

/-! ## What processing changes -/

section Changes

variable (http : Http) (node : Node)

/-- Processing changes the destination and the send buffer, and nothing else. -/
def Node.OnlySent (later : Node) : Prop :=
  ∃ (dest : NodeAddress) (serialBuf : Vector UInt8 bufferSize),
    later = { node with dest := dest, serialBuf := serialBuf }

theorem onlySent_sendConfirmation (originalSender : NodeAddress) (confirmMessage : Bytes) :
    node.OnlySent (sendConfirmation originalSender confirmMessage node).val.1 := by
  rw [sendConfirmation]
  split
  · exact ⟨node.dest, node.serialBuf, rfl⟩
  · exact ⟨_, _, rfl⟩

theorem onlySent_confirmToSender (originalSender : NodeAddress) (internetResponse : Bytes) :
    node.OnlySent (confirmToSender originalSender internetResponse node).val.1 := by
  obtain ⟨dest, serialBuf, hfirst⟩ := onlySent_sendConfirmation node originalSender
    (ascii "DOGECOIN_RESPONSE:" ++ internetResponse)
  obtain ⟨dest', serialBuf', hsecond⟩ := onlySent_sendConfirmation
    { node with dest := dest, serialBuf := serialBuf } originalSender
    (ascii "DOGECOIN_RESPONSE:" ++ internetResponse)
  refine ⟨dest', serialBuf', ?_⟩
  rw [confirmToSender, Traced.val_bind, Traced.val_bind, Traced.val_pure, hfirst, hsecond]

theorem onlySent_rebroadcast (rebroadcastData type priority : Bytes) :
    node.OnlySent (rebroadcast rebroadcastData type priority node).val.1 := by
  rw [rebroadcast]
  split
  · exact ⟨_, node.serialBuf, rfl⟩
  · exact ⟨node.dest, _, rfl⟩

theorem onlySent_forwardTransaction (src : NodeAddress) (txData rebroadcastData priority : Bytes) :
    node.OnlySent (forwardTransaction http src txData rebroadcastData priority node).val.1 := by
  rw [forwardTransaction]
  split
  · simp only [Traced.val_bind, Traced.val_pure]
    exact onlySent_confirmToSender node src _
  · exact onlySent_rebroadcast node _ _ _

theorem onlySent_processReassembled (handed : Reassembled) :
    node.OnlySent (processReassembled http handed node).val.1 := by
  rw [processReassembled]
  split
  · exact onlySent_forwardTransaction http node _ _ _ _
  · split
    · exact ⟨node.dest, node.serialBuf, rfl⟩
    · split
      · exact onlySent_forwardTransaction http node _ _ _ _
      · exact ⟨node.dest, node.serialBuf, rfl⟩

end Changes

end RadioDoge.V3
