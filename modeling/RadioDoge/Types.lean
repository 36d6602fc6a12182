/-
# Addresses and packet codes

The enumerations of `radioDogeTypes.h` with their numeric codes. The first byte
of a packet on the air is either a `messageType` or a `serialCommand`, and the
receiving switch mixes the enumerators of both, so the two are kept apart here
and meet in `PacketKind`.
-/

import RadioDoge.Arduino

namespace RadioDoge

/-- `struct nodeAddress`. -/
structure NodeAddress where
  region : UInt8
  community : UInt8
  node : UInt8
  deriving DecidableEq, Repr, Inhabited

namespace NodeAddress

/-- The three bytes of an address, in the order of every packet layout. -/
def bytes (a : NodeAddress) : Bytes := [a.region, a.community, a.node]

@[simp]
theorem length_bytes (a : NodeAddress) : a.bytes.length = 3 := rfl

theorem bytes_injective {first second : NodeAddress} (h : first.bytes = second.bytes) :
    first = second := by
  cases first
  cases second
  simpa [bytes] using h

/-- `SetDestinationAsBroadcast`: the reserved address of every listening node. -/
def broadcast : NodeAddress := ⟨255, 255, 255⟩

end NodeAddress

/-- `enum messageType`. -/
inductive MessageType
  | unknown
  | ack
  | ping
  | message
  | transaction
  | broadcast
  deriving DecidableEq, Repr

/-- The numeric value of an enumerator of `messageType`. -/
def MessageType.code : MessageType → UInt8
  | .unknown => 0
  | .ack => 1
  | .ping => 2
  | .message => 3
  | .transaction => 4
  | .broadcast => 5

/-- `enum serialCommand`. -/
inductive SerialCommand
  | none
  | addressGet
  | addressSet
  | pingRequest
  | messageRequest
  | hardwareInfo
  | broadcastMessage
  | displayControl
  | hostFormedPacket
  | multipartPacket
  | resultCode
  deriving DecidableEq, Repr

/-- The numeric value of an enumerator of `serialCommand`. -/
def SerialCommand.code : SerialCommand → UInt8
  | .none => 0
  | .addressGet => 1
  | .addressSet => 2
  | .pingRequest => 3
  | .messageRequest => 4
  | .hardwareInfo => 63
  | .broadcastMessage => 98
  | .displayControl => 100
  | .hostFormedPacket => 104
  | .multipartPacket => 109
  | .resultCode => 254

/-- The enumerator of `serialCommand` with a given value. -/
def SerialCommand.ofCode? (code : UInt8) : Option SerialCommand :=
  [.none, .addressGet, .addressSet, .pingRequest, .messageRequest, .hardwareInfo, .broadcastMessage,
    .displayControl, .hostFormedPacket, .multipartPacket, .resultCode].find? (·.code = code)

/-- The values are distinct. -/
@[simp]
theorem SerialCommand.ofCode?_code (command : SerialCommand) :
    SerialCommand.ofCode? command.code = some command := by
  cases command
  all_goals rfl

/-- What is found has the value. -/
theorem SerialCommand.code_of_ofCode? {code : UInt8} {command : SerialCommand}
    (h : SerialCommand.ofCode? code = some command) : command.code = code := by
  have hfound := List.find?_some h
  exact of_decide_eq_true hfound

/-- The cases of the receiving switch over the first byte of a packet. -/
inductive PacketKind
  | ack
  | ping
  | message
  | transaction
  | broadcast
  | hostFormedPacket
  | multipartPacket
  | other
  deriving DecidableEq, Repr

/-- The case of the receiving switch that a first byte selects. -/
def packetKind (first : UInt8) : PacketKind :=
  if first = MessageType.ack.code then .ack
  else if first = MessageType.ping.code then .ping
  else if first = MessageType.message.code then .message
  else if first = MessageType.transaction.code then .transaction
  else if first = MessageType.broadcast.code then .broadcast
  else if first = SerialCommand.hostFormedPacket.code then .hostFormedPacket
  else if first = SerialCommand.multipartPacket.code then .multipartPacket
  else .other

end RadioDoge
