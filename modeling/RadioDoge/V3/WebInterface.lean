/-
# Web requests that use the radio

Each handler of the web interface reads its arguments, calls a sender or passes a packet of its
own to `Radio.Send`, and answers. Here a handler is the list of its calls, its answer, and what it
does to the address, the queue or the configuration. The display and the log are left out.

The handlers of `WebReplies` appear again with their calls; `handle_webCall` says that these do
what was said there.
-/

import RadioDoge.V3.RadioCalls
import RadioDoge.V3.WebReplies

namespace RadioDoge.V3

/-! ## Requests with a target address -/

/-- What a handler reads besides its arguments: the time, whether there is internet, and what the
answer says of the gateway that a transaction was forwarded to. -/
structure WebContext where
  millis : UInt32
  internetConnected : Bool
  forwarded : Bytes → Bytes

/-- A request to send to one node, with the arguments that it has. -/
inductive TargetRequest
  | message (text address type : Option Bytes)
  | transaction (data address type : Option Bytes)
  | ack (address type : Option Bytes)
  | apiMessage (text address type : Option Bytes)
  | apiTransaction (data address type : Option Bytes)
  | apiLogsSend (address logs type : Option Bytes)
  deriving DecidableEq, Repr

/-- The answers, those of `WebReplies` among them. -/
inductive TargetAnswer
  | web (answer : WebAnswer)
  | ackSent (address type : Bytes)
  | noAckTarget
  | apiTransactionSent (millis : UInt32) (address type : Bytes) (parts : Option Nat)
      (forwarded : Bytes)
  | apiNoTransaction (millis : UInt32)
  | apiLogsSent (millis : UInt32) (address type : Bytes)
  | apiLogsInvalidAddress (millis : UInt32)
  | apiLogsMissing (millis : UInt32)
  deriving DecidableEq, Repr

namespace TargetAnswer

/-- The HTTP status. -/
def status : TargetAnswer → Nat
  | .web answer => answer.status
  | .noAckTarget => 400
  | _ => 200

/-- The end of an answer of the API that reports an error. -/
def apiError (text : String) : Bytes :=
  ascii "\"success\":false,\"error\":\"" ++ ascii text ++ ascii "\"\x7d"

/-- The text. -/
def body : TargetAnswer → Bytes
  | .web answer => answer.body
  | .ackSent address type => ascii "ACK sent to " ++ address ++ ascii " (" ++ type ++ ascii ")"
  | .noAckTarget => ascii "No ACK target address provided"
  | .apiTransactionSent millis address type (some parts) forwarded =>
      WebAnswer.apiHead millis ++ ascii "\"action\":\"multipart_transaction\",\"target\":\"" ++
        address ++ ascii "\",\"type\":\"" ++ type ++
        ascii "\",\"message\":\"Large transaction sent via multipart to " ++ address ++
        ascii "\",\"parts\":\"" ++ ascii (toString parts) ++ ascii "\"" ++ forwarded ++ ascii "\x7d"
  | .apiTransactionSent millis address type none forwarded =>
      WebAnswer.apiHead millis ++ ascii "\"action\":\"transaction\",\"target\":\"" ++ address ++
        ascii "\",\"type\":\"" ++ type ++ ascii "\",\"message\":\"Transaction sent to " ++
        address ++ ascii "\"" ++ forwarded ++ ascii "\x7d"
  | .apiNoTransaction millis =>
      WebAnswer.apiHead millis ++ apiError "No transaction data provided"
  | .apiLogsSent millis address type =>
      WebAnswer.apiHead millis ++ ascii "\"action\":\"logs_send\",\"target\":\"" ++ address ++
        ascii "\",\"type\":\"" ++ type ++ ascii "\",\"message\":\"Logs sent to " ++ address ++
        ascii "\"\x7d"
  | .apiLogsInvalidAddress millis =>
      WebAnswer.apiHead millis ++ apiError "Invalid address format. Use region.community.node"
  | .apiLogsMissing millis =>
      WebAnswer.apiHead millis ++ apiError "Missing required parameters: address and logs"

/-- The answer reports an error. -/
def IsError : TargetAnswer → Prop
  | .web answer => ¬ answer.SaysSent
  | .noAckTarget | .apiNoTransaction _ | .apiLogsInvalidAddress _ | .apiLogsMissing _ => True
  | .ackSent _ _ | .apiTransactionSent _ _ _ _ _ | .apiLogsSent _ _ _ => False

end TargetAnswer

/-- The calls of a handler, and its answer. -/
structure WebResult where
  calls : List RadioCall
  answer : TargetAnswer

/-- What a handler of the API does with the address: the calls for it and the answer, or the
answer that it has no two dots. -/
def withDottedAddress (address : Bytes) (invalid : TargetAnswer)
    (send : NodeAddress → WebResult) : WebResult :=
  match dottedAddress address with
  | some target => send target
  | none => ⟨[], invalid⟩

namespace WebContext

/-- `handleMessage`. -/
def handleMessage (text address _type : Option Bytes) : WebResult :=
  match text with
  | none => ⟨[], .web .noMessage⟩
  | some message =>
      ⟨[.setDestination (addressArg address), .packet MessageType.message.code message],
        .web (.messageSent (address.getD (ascii "10.1.2")) message)⟩

/-- `handleTransaction`. -/
def handleTransaction (context : WebContext) (data address type : Option Bytes) : WebResult :=
  match data with
  | none => ⟨[], .web .noTransaction⟩
  | some transaction =>
      ⟨[.setDestination (addressArg address),
          .packet SerialCommand.hostFormedPacket.code transaction],
        .web (.transactionSent (address.getD (ascii "10.1.2")) (type.getD (ascii "signed"))
          context.internetConnected)⟩

/-- `handleACK`. -/
def handleAck (address type : Option Bytes) : WebResult :=
  match address with
  | none => ⟨[], .noAckTarget⟩
  | some address =>
      ⟨[.sendAck (parseAddress address)], .ackSent address (type.getD (ascii "received"))⟩

/-- `handleApiMessage`. -/
def handleApiMessage (context : WebContext) (text address type : Option Bytes) : WebResult :=
  match text with
  | none => ⟨[], .web (.apiNoText context.millis)⟩
  | some message =>
      let address := address.getD (ascii "10.1.2")
      let type := type.getD (ascii "text")
      withDottedAddress address (.web (.apiInvalidAddress context.millis)) fun msgDest =>
        ⟨[.sender (.sendMessage msgDest message type)],
          .web (.apiMessageSent context.millis address type)⟩

/-- `handleApiTransaction`. The error is that of `handleApiMessage`. -/
def handleApiTransaction (context : WebContext) (data address type : Option Bytes) : WebResult :=
  match data with
  | none => ⟨[], .apiNoTransaction context.millis⟩
  | some transaction =>
      let address := address.getD (ascii "10.1.2")
      let type := type.getD (ascii "signed")
      withDottedAddress address (.web (.apiInvalidAddress context.millis)) fun txDest =>
        let txData := type ++ colon :: transaction
        if txData.length > 255 then
          ⟨[.sender (.sendMultipartTransaction txDest transaction type)],
            .apiTransactionSent context.millis address type
              (some ((txData.length + multipartChunkSize - 1) / multipartChunkSize))
              (context.forwarded transaction)⟩
        else
          ⟨[.sender (.sendTransaction txDest transaction type)],
            .apiTransactionSent context.millis address type none (context.forwarded transaction)⟩

/-- `handleApiLogsSend`. -/
def handleApiLogsSend (context : WebContext) (address logs type : Option Bytes) : WebResult :=
  match address, logs with
  | some address, some logs =>
      let type := type.getD (ascii "logs")
      withDottedAddress address (.apiLogsInvalidAddress context.millis) fun logDest =>
        ⟨[.sender (.sendMessage logDest logs type)], .apiLogsSent context.millis address type⟩
  | _, _ => ⟨[], .apiLogsMissing context.millis⟩

end WebContext

/-- The handler of a request. -/
def TargetRequest.handle (context : WebContext) : TargetRequest → WebResult
  | .message text address type => WebContext.handleMessage text address type
  | .transaction data address type => context.handleTransaction data address type
  | .ack address type => WebContext.handleAck address type
  | .apiMessage text address type => context.handleApiMessage text address type
  | .apiTransaction data address type => context.handleApiTransaction data address type
  | .apiLogsSend address logs type => context.handleApiLogsSend address logs type

/-! ## All requests -/

/-- A number of the web interface as a byte of an address. -/
def argByte (argument : Option Bytes) (missing : UInt8) : UInt8 :=
  match argument with
  | some text => UInt8.ofNat (toInt text % 256).toNat
  | none => missing

/-- A request, as far as it concerns the radio. -/
inductive WebCall
  /-- `/ping` and `/api/ping`. -/
  | ping (toAll region community node : Option Bytes)
  | target (context : WebContext) (request : TargetRequest)
  | broadcast (message : Option Bytes)
  | apiBroadcast (clock : ApiClock) (message type priority : Option Bytes)
  /-- `/address`, and `/api/address` with `POST`. -/
  | address (region community node : Option Bytes)
  /-- `/api/lora/clear`; `opened` says that `nvs_open` has worked. -/
  | loraClear (opened : Bool)
  /-- Every other one: the configuration and the connection that it leaves are left open. -/
  | other (gateway : GatewayConfig) (internetConnected : Bool)

/-- `handlePing` and `handleApiPing`. -/
def pingCalls (toAll region community node : Option Bytes) : List RadioCall :=
  if toAll.map (equals · (ascii "1")) = some true then
    [.setDestination NodeAddress.broadcast, .sender (.sendPing NodeAddress.broadcast)]
  else
    [.sender (.sendPing ⟨argByte region 10, argByte community 1, argByte node 2⟩)]

/-- `handleBroadcast`. -/
def broadcastCalls (message : Option Bytes) : List RadioCall :=
  match message with
  | none => []
  | some message =>
      [.setDestination NodeAddress.broadcast, .packet MessageType.message.code message]

namespace WebCall

/-- What the handler does with the radio. -/
def calls (device : Device) : WebCall → List RadioCall
  | .ping toAll region community node => pingCalls toAll region community node
  | .target context request => (request.handle context).calls
  | .broadcast message => broadcastCalls message
  | .apiBroadcast clock message type priority =>
      (senderCalls (device.queue.step (.api clock message type priority)).2).map .sender
  | .address _ _ _ | .loraClear _ | .other _ _ => []

/-- The device with another local address. -/
def setAddress (device : Device) (localAddress : NodeAddress) : Device :=
  { device with
    node := { device.node with localAddress := localAddress }
    controlPacket := initControlMessages localAddress device.controlPacket }

/-- What the handler does to the address, the queue and the configuration. -/
def configure (device : Device) : WebCall → Device
  | .apiBroadcast clock message type priority =>
      { device with queue := (device.queue.step (.api clock message type priority)).1 }
  | .address (some region) (some community) (some node) =>
      setAddress device
        ⟨argByte (some region) 0, argByte (some community) 0, argByte (some node) 0⟩
  | .loraClear opened =>
      setAddress device (if opened then ⟨10, 1, 1⟩ else device.node.localAddress)
  | .other gateway internetConnected =>
      { device with
        node := { device.node with gateway := gateway, internetConnected := internetConnected } }
  | .ping _ _ _ _ | .target _ _ | .broadcast _ | .address _ _ _ => device

/-- The handler. -/
def handle (device : Device) (request : WebCall) : Device × List RadioEntry :=
  (request.configure device).performAll (request.calls device)

/-- No handler touches the flags but by its calls. -/
theorem configure_keeps (device : Device) (request : WebCall) :
    (request.configure device).node.dest = device.node.dest ∧
      (request.configure device).node.needToSendAck = device.node.needToSendAck ∧
      (request.configure device).radio = device.radio := by
  cases request with
  | ping toAll region community node => exact ⟨rfl, rfl, rfl⟩
  | target context request => exact ⟨rfl, rfl, rfl⟩
  | broadcast message => exact ⟨rfl, rfl, rfl⟩
  | apiBroadcast clock message type priority => exact ⟨rfl, rfl, rfl⟩
  | address region community node =>
      cases region with
      | none => exact ⟨rfl, rfl, rfl⟩
      | some region =>
          cases community with
          | none => exact ⟨rfl, rfl, rfl⟩
          | some community =>
              cases node with
              | none => exact ⟨rfl, rfl, rfl⟩
              | some node => exact ⟨rfl, rfl, rfl⟩
  | loraClear opened => exact ⟨rfl, rfl, rfl⟩
  | other gateway internetConnected => exact ⟨rfl, rfl, rfl⟩

end WebCall

/-! ## The handlers of `WebReplies` -/

/-- A request of `WebReplies`, at a node that is on the internet or not. -/
def WebRequest.webCall (internetConnected : Bool) : WebRequest → WebCall
  | .message text address type => .target ⟨0, internetConnected, id⟩ (.message text address type)
  | .transaction data address type =>
      .target ⟨0, internetConnected, id⟩ (.transaction data address type)
  | .broadcast text _ _ => .broadcast text
  | .apiMessage millis text address type =>
      .target ⟨millis, internetConnected, id⟩ (.apiMessage text address type)

/-- **One handler, two models.** The device sends the frames that are sent in `WebReplies`, and its
node becomes the same. -/
theorem WebRequest.handle_webCall (http : Http) (device : Device) (request : WebRequest) :
    ((request.webCall device.node.internetConnected).handle device).1.node =
        (request.handle http device.node).node ∧
      sentFrames ((request.webCall device.node.internetConnected).handle device).2 =
        transmissions (request.handle http device.node).effects := by
  cases request with
  | message text address type =>
      cases text with
      | none => exact ⟨rfl, rfl⟩
      | some message => exact ⟨rfl, rfl⟩
  | transaction data address type =>
      cases data with
      | none => exact ⟨rfl, rfl⟩
      | some transaction =>
          exact ⟨rfl, (transmissions_handleTransaction http device.node transaction
            address type).symm⟩
  | broadcast text type priority =>
      cases text with
      | none => exact ⟨rfl, rfl⟩
      | some message => exact ⟨rfl, rfl⟩
  | apiMessage millis text address type =>
      cases text with
      | none => exact ⟨rfl, rfl⟩
      | some message =>
          simp only [webCall, WebCall.handle, WebCall.configure, WebCall.calls, handle,
            TargetRequest.handle, WebContext.handleApiMessage, Node.handleApiMessage,
            withDottedAddress]
          cases dottedAddress (address.getD (ascii "10.1.2")) with
          | none => exact ⟨rfl, rfl⟩
          | some msgDest => exact ⟨rfl, rfl⟩

end RadioDoge.V3
