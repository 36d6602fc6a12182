/-
# The setup mode of the hub

`SendSetupCommand` asks for what a command needs and writes the command to the radio
node. A text message carries the addresses of both nodes behind the kind that the radio
node replaces.
-/

import RadioDoge.Sharp.PacketHelper
import RadioDoge.Sharp.Responses

namespace RadioDoge.Sharp

/-- `localAddress` and `destinationAddress`. -/
structure SetupMode where
  localAddress : NodeAddress
  destinationAddress : NodeAddress

/-- What the user is asked for: two addresses, or a text. -/
structure Entered where
  localAddress : NodeAddress
  destinationAddress : NodeAddress
  messageToSend : Bytes

/-- `SendSetupCommand`: the addresses afterwards, and what is written to the port. -/
def sendSetupCommand (commandType : SerialCommand) (entered : Entered) (mode : SetupMode) :
    SetupMode × Bytes :=
  match commandType with
  | .addressGet => (mode, createCommandHeader commandType.code 0)
  | .addressSet =>
      (⟨entered.localAddress, entered.destinationAddress⟩,
        createCommandHeader commandType.code 3 ++ entered.localAddress.bytes)
  | .pingRequest => (mode, createCommandHeader commandType.code 3 ++ mode.destinationAddress.bytes)
  | .messageRequest =>
      let messageBytes := asciiGetBytes entered.messageToSend
      let payloadSize := UInt8.ofNat (messageBytes.length + 7)
      (mode, createCommandHeader commandType.code payloadSize ++ [commandType.code] ++
        mode.localAddress.bytes ++ mode.destinationAddress.bytes ++ messageBytes)
  | .hardwareInfo => (mode, createCommandHeader commandType.code 0)
  | .none | .broadcastMessage | .displayControl | .hostFormedPacket | .multipartPacket
  | .resultCode => (mode, [])

/-- What stands behind the header of a text message. -/
def SetupMode.messagePayload (mode : SetupMode) (messageBytes : Bytes) : Bytes :=
  SerialCommand.messageRequest.code ::
    (mode.localAddress.bytes ++ mode.destinationAddress.bytes ++ messageBytes)

theorem SetupMode.length_messagePayload (mode : SetupMode) (messageBytes : Bytes) :
    (mode.messagePayload messageBytes).length = messageBytes.length + 7 := by
  simp only [messagePayload, List.length_cons, List.length_append, NodeAddress.length_bytes]
  omega

/-- A text message is framed like any other command. -/
theorem sendSetupCommand_message (entered : Entered) (mode : SetupMode) :
    (sendSetupCommand .messageRequest entered mode).2 =
      framed .messageRequest (mode.messagePayload (asciiGetBytes entered.messageToSend)) := by
  rw [framed, mode.length_messagePayload]
  simp only [sendSetupCommand, createCommandHeader, SetupMode.messagePayload, List.cons_append,
    List.nil_append]

/-- Encoding keeps the length. -/
theorem length_asciiGetBytes (text : Bytes) : (asciiGetBytes text).length = text.length :=
  List.length_map _

/-- A text is its own encoding exactly if it is ASCII. -/
theorem asciiGetBytes_eq_self_iff {text : Bytes} :
    asciiGetBytes text = text ↔ ∀ char ∈ text, char < 128 := by
  refine ⟨fun heq char hmem => ?_, asciiGetBytes_of_ascii⟩
  rw [← heq, asciiGetBytes] at hmem
  obtain ⟨original, -, rfl⟩ := List.mem_map.mp hmem
  split
  next hascii => exact hascii
  next => decide

/-- No character is encoded as NUL but NUL. -/
theorem zero_not_mem_asciiGetBytes {text : Bytes} (hfree : (0 : UInt8) ∉ text) :
    (0 : UInt8) ∉ asciiGetBytes text := by
  intro hmem
  obtain ⟨original, horiginal, hzero⟩ := List.mem_map.mp hmem
  split at hzero
  · exact hfree (hzero ▸ horiginal)
  · exact absurd hzero (by decide)

end RadioDoge.Sharp
