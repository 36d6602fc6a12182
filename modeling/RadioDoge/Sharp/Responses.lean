/-
# Payloads of the hub

What the hub answers: a generic response of three bytes, or the unspent outputs of an
address, which go out in parts.
-/

import RadioDoge.DogeTypes
import RadioDoge.Lib.LittleEndian
import RadioDoge.Sharp.PacketHelper

namespace RadioDoge.Sharp

open LittleEndian

/-- `Encoding.ASCII.GetBytes`: a question mark for every character that is not ASCII. -/
def asciiGetBytes (text : Bytes) : Bytes := text.map fun char => if char < 128 then char else 63

/-- `UnspentTransactionOutput.Serialize`. -/
def serialize (utxo : Utxo) : Bytes :=
  toBytes voutLength utxo.vout.toUInt32.toNat ++ asciiGetBytes utxo.txId ++
    toBytes balanceLength utxo.amount.toNat

/-- The payload of `SendUTXOs`: the command, the number of outputs, the outputs. -/
def utxoPayload (outputs : List Utxo) : Bytes :=
  DogeCommandType.sendUTXOs.code :: toBytes 4 (UInt32.ofNat outputs.length).toNat ++
    outputs.flatMap serialize

/-- `SendGenericDogeResponse`: the command written to the port. -/
def sendGenericDogeResponse (localAddress destNode : NodeAddress) (success : Bool)
    (responseCommand : DogeCommandType) (responseCode : DogeResponseCode) : Bytes :=
  let header := if success then DogeCommandType.dogeCommandSuccess else .dogeCommandFailure
  createPacket destNode localAddress [header.code, responseCommand.code, responseCode.code]

/-- `SendUTXOs`, with the outputs that the library reports for the address: the commands
written to the port. -/
def sendUTXOs (localAddress destNode : NodeAddress) (outputs : List Utxo) : List Bytes :=
  if outputs.length > 0 then createMultipartPackets destNode localAddress (utxoPayload outputs)
  else [sendGenericDogeResponse localAddress destNode false .getUTXOs .noStoredUTXOs]

/-- An ASCII text is its own encoding. -/
theorem asciiGetBytes_of_ascii {text : Bytes} (h : ∀ char ∈ text, char < 128) :
    asciiGetBytes text = text := by
  rw [asciiGetBytes]
  conv_rhs => rw [← List.map_id text]
  apply List.map_congr_left
  intro char hmem
  exact if_pos (h char hmem)

/-- An output with an id of 64 characters takes 76 bytes. -/
theorem length_serialize {utxo : Utxo} (h : utxo.txId.length = txIdStringLength) :
    (serialize utxo).length = 76 := by
  simp only [serialize, asciiGetBytes, List.length_append, length_toBytes, List.length_map, h]
  rfl

theorem length_utxoPayload {outputs : List Utxo}
    (h : ∀ utxo ∈ outputs, utxo.txId.length = txIdStringLength) :
    (utxoPayload outputs).length = 5 + 76 * outputs.length := by
  have hrecords : (outputs.flatMap serialize).length = 76 * outputs.length := by
    rw [List.length_flatMap]
    induction outputs with
    | nil => rfl
    | cons utxo rest ih =>
        rw [List.map_cons, List.sum_cons, length_serialize (h utxo List.mem_cons_self),
          ih fun other hmem => h other (List.mem_cons_of_mem utxo hmem), List.length_cons,
          Nat.mul_succ, Nat.add_comm]
  rw [utxoPayload, List.length_append, List.length_cons, length_toBytes, hrecords]

end RadioDoge.Sharp
