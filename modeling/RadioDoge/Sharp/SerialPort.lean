/-
# What the hub reads from its radio node

The callback of the serial port reads the kind and the length, waits until the whole
payload is there, and takes it. A packet of one part then loses the two addresses in
front of its data.
-/

import RadioDoge.HostPackets
import RadioDoge.Sharp.Runtime

namespace RadioDoge.Sharp

/-- The reads of `PortDataReceived`: the command type and the payload; nothing yet as
long as a byte is missing. -/
def readPacket (incoming : Bytes) : Option (UInt8 × Bytes) :=
  match incoming with
  | commandType :: payloadSize :: rest =>
      if payloadSize.toNat ≤ rest.length then some (commandType, rest.take payloadSize.toNat)
      else none
  | _ => none

/-- `ExtractHostFormedPacketData`: the sender and the data. -/
def extractHostFormedPacketData (rawPayload : Bytes) : Throws (NodeAddress × Bytes) := do
  let senderAddress : NodeAddress :=
    ⟨← index rawPayload 0, ← index rawPayload 1, ← index rawPayload 2⟩
  let dataPortion ← copyOut rawPayload 6 (rawPayload.length - 6)
  pure (senderAddress, dataPortion)

/-- A framed payload is read back. -/
theorem readPacket_framed (kind : SerialCommand) {payload : Bytes} (hlen : payload.length ≤ 255) :
    readPacket (framed kind payload) = some (kind.code, payload) := by
  have hsize : (UInt8.ofNat payload.length).toNat = payload.length :=
    toNat_ofNat_of_le (by omega)
  simp only [framed, readPacket, hsize, Nat.le_refl, if_true, List.take_length]

/-- The sender and the data of a packet are recovered. -/
theorem extractHostFormedPacketData_eq (p : HostPacket) :
    extractHostFormedPacketData (p.src.bytes ++ p.dest.bytes ++ p.payload) =
      .ok (p.src, p.payload) := by
  have hlen : (p.src.bytes ++ p.dest.bytes ++ p.payload).length = p.payload.length + 6 := by
    simp only [List.length_append, NodeAddress.length_bytes]
    omega
  have hsub : ((p.src.bytes ++ p.dest.bytes ++ p.payload).length - 6 : Int) =
      p.payload.length := by
    rw [hlen]
    omega
  have hindex : ∀ i (hi : i < 6), index (p.src.bytes ++ p.dest.bytes ++ p.payload) i =
      .ok ((p.src.bytes ++ p.dest.bytes).get ⟨i, hi⟩) := by
    intro i hi
    rw [index_eq_ok (by omega)]
    exact congrArg Except.ok (List.getElem_append_left _)
  have hdrop : (p.src.bytes ++ p.dest.bytes ++ p.payload).drop 6 = p.payload := rfl
  rw [extractHostFormedPacketData, hsub, copyOut_eq_ok (by omega), hdrop, List.take_length,
    hindex 0 (by decide), hindex 1 (by decide), hindex 2 (by decide)]
  rfl

end RadioDoge.Sharp
