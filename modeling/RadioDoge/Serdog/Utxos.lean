/-
# The unspent outputs that serdog holds

`deserializeUTXOs` copies the records of a received list over the slots of
`currUTXOs`, as many as the list announces. The 64 characters of an id are copied
without a terminating NUL into a slot that is larger, so what the id reads as depends
on what stands behind them. A read behind the end of the payload buffer and a slot
behind the end of the store have no result.
-/

import RadioDoge.DogeTypes
import RadioDoge.Lib.LittleEndian
import RadioDoge.Serdog.Receive

namespace RadioDoge.Serdog

open LittleEndian

/-- `MAX_NUM_UTXOS`. -/
abbrev maxNumUtxos : Nat := 64

/-- The size of `txId`, an array of 64 pointers of eight bytes. -/
abbrev txIdSize : Nat := 64 * 8

/-- `struct utxoInfo`. -/
structure UtxoInfo where
  vout : Int32
  txId : Vector UInt8 txIdSize
  amount : UInt64

/-- What `createTransaction` reads from a slot: the id is used as a C string. -/
def UtxoInfo.read (info : UtxoInfo) : Utxo :=
  ⟨info.vout, ofCString info.txId.toList, info.amount⟩

/-- `numUTXOs` and `currUTXOs`. -/
structure UtxoStore where
  numUTXOs : UInt32
  currUTXOs : Vector UtxoInfo maxNumUtxos

/-- The outputs that the store holds. -/
def UtxoStore.held (store : UtxoStore) : List Utxo :=
  (store.currUTXOs.toList.take store.numUTXOs.toNat).map UtxoInfo.read

/-- The bytes from `offset` on that a `memcpy` reads. -/
def readBytes (source : Bytes) (offset count : Nat) : Option Bytes :=
  if offset + count ≤ source.length then some ((source.drop offset).take count) else none

/-- The body of the loop of `deserializeUTXOs`. -/
def deserializeUtxo (serializedUTXOs : Bytes) (currOffset : Nat) (info : UtxoInfo) :
    Option UtxoInfo := do
  let vout ← readBytes serializedUTXOs currOffset voutLength
  let currOffset := currOffset + voutLength
  let txId ← readBytes serializedUTXOs currOffset txIdStringLength
  let currOffset := currOffset + txIdStringLength
  let amount ← readBytes serializedUTXOs currOffset balanceLength
  some
    { vout := (UInt32.ofNat (ofBytes vout)).toInt32
      txId := memcpy info.txId 0 txId
      amount := UInt64.ofNat (ofBytes amount) }

/-- `deserializeUTXOs`: `remaining` records to go. -/
def deserializeUTXOs (serializedUTXOs : Bytes) : Nat → Nat → Nat → Vector UtxoInfo maxNumUtxos →
    Option (Vector UtxoInfo maxNumUtxos)
  | 0, _, _, currUTXOs => some currUTXOs
  | remaining + 1, i, currOffset, currUTXOs => do
      let slot ← currUTXOs[i]?
      let info ← deserializeUtxo serializedUTXOs currOffset slot
      deserializeUTXOs serializedUTXOs remaining (i + 1)
        (currOffset + (voutLength + txIdStringLength + balanceLength))
        (currUTXOs.setIfInBounds i info)

/-- `processReceivedUTXOs`, as far as the store goes. The list is printed afterwards, with the array
`coinString` of 21 bytes for each amount: the text of 10^19 koinu or more is longer, and that of
less than a coin is written without a terminator, behind which the array is not initialised. -/
def processReceivedUTXOs (payloadIn : Bytes) (store : UtxoStore) : Option UtxoStore := do
  let serializedNum ← readBytes payloadIn 0 4
  let numUTXOs := UInt32.ofNat (ofBytes serializedNum)
  let currUTXOs ← deserializeUTXOs (payloadIn.drop 4) numUTXOs.toNat 0 0 store.currUTXOs
  some ⟨numUTXOs, currUTXOs⟩

/-- `processDogePayload`: what becomes of the store. The other commands are printed, and
a request for an address is answered. -/
def processDogePayload (payloadIn : Bytes) (store : UtxoStore) : Option UtxoStore :=
  match payloadIn with
  | command :: rest =>
      if command = DogeCommandType.sendUTXOs.code then processReceivedUTXOs rest store
      else some store
  | [] => none

/-! ## The poll thread behind the completeness test -/

/-- The variables of the poll thread and the store. -/
structure Client where
  multipart : Multipart
  dataBuffer : Vector UInt8 dataBufferSize
  store : UtxoStore

/-- A serdog that has just started. -/
def Client.boot : Client where
  multipart := ⟨Vector.replicate _ 0, 0, ⟨0, 0, 0⟩⟩
  dataBuffer := Vector.replicate _ 0
  store := ⟨0, Vector.replicate _ ⟨0, Vector.replicate _ 0, 0⟩⟩

/-- What the thread does with a complete frame. The whole buffer is handed on; its rest
holds what was there before. -/
def Client.process (client : Client) : Dispatch → Option Client
  | .parseMultipartPayload rxbuffer => do
      let (processResult, multipart) ← parseMultipartPayload rxbuffer client.multipart
      if processResult then
        let store ← processDogePayload multipart.multipartBuffer.toList client.store
        some { client with multipart := { multipart with multipartIndex := 0 }, store }
      else some { client with multipart }
  | .parseHostFormedPacket rxbuffer => do
      let (senderAddress, dataBuffer) ← parseHostFormedPacket rxbuffer client.dataBuffer
      let store ← processDogePayload dataBuffer.toList client.store
      some
        { client with
          multipart := { client.multipart with senderAddress }
          dataBuffer
          store }
  | .processCommandPayload _ => some client

/-- Frames received one after the other. -/
def Client.processAll (client : Client) : List Bytes → Option Client
  | [] => some client
  | frame :: rest => do
      let next ← client.process (dispatch frame)
      next.processAll rest

/-! ## The capacity -/

/-- The loop has a result only while there are slots. -/
theorem deserializeUTXOs_le {serializedUTXOs : Bytes} (remaining : Nat) :
    ∀ (i currOffset : Nat) (currUTXOs next : Vector UtxoInfo maxNumUtxos),
      deserializeUTXOs serializedUTXOs remaining i currOffset currUTXOs = some next →
        i ≤ maxNumUtxos → i + remaining ≤ maxNumUtxos := by
  induction remaining with
  | zero =>
      intro i currOffset currUTXOs next _ hi
      exact hi
  | succ remaining ih =>
      intro i currOffset currUTXOs next hnext _
      rw [deserializeUTXOs, Option.bind_eq_bind, Option.bind_eq_some_iff] at hnext
      obtain ⟨slot, hslot, hnext⟩ := hnext
      obtain ⟨info, -, hnext⟩ := Option.bind_eq_some_iff.mp hnext
      have hi : i < maxNumUtxos := (Vector.getElem?_eq_some_iff.mp hslot).1
      have hrest := ih (i + 1) _ _ next hnext hi
      omega

/-- A received list that has a result fits the store. -/
theorem processReceivedUTXOs_le {payloadIn : Bytes} {store next : UtxoStore}
    (hnext : processReceivedUTXOs payloadIn store = some next) :
    next.numUTXOs.toNat ≤ maxNumUtxos := by
  rw [processReceivedUTXOs, Option.bind_eq_bind, Option.bind_eq_some_iff] at hnext
  obtain ⟨serializedNum, -, hnext⟩ := hnext
  obtain ⟨currUTXOs, hslots, hnext⟩ := Option.bind_eq_some_iff.mp hnext
  obtain rfl := Option.some.inj hnext
  have hroom := deserializeUTXOs_le _ 0 0 _ _ hslots (Nat.zero_le _)
  rwa [Nat.zero_add] at hroom

/-! ## One record -/

theorem ofCString_eq_nil_iff {byte : UInt8} {rest : Bytes} :
    ofCString (byte :: rest) = [] ↔ byte = 0 := by
  rw [ofCString, List.takeWhile_cons]
  by_cases hzero : byte = 0
  · simp [hzero]
  · simp [hzero]

/-- An id of 64 characters reads as itself exactly if it has no NUL and the byte behind
it was NUL before. -/
theorem ofCString_txId_iff (slot : Vector UInt8 txIdSize) {txId : Bytes}
    (hlen : txId.length = txIdStringLength) :
    ofCString (memcpy slot 0 txId).toList = txId ↔
      (0 : UInt8) ∉ txId ∧ slot[txIdStringLength]? = some 0 := by
  have hfits : txId.length ≤ txIdSize := by
    rw [hlen]
    decide
  have hdrop : slot.toList.drop txId.length =
      slot[txIdStringLength] :: slot.toList.drop (txIdStringLength + 1) := by
    rw [hlen, List.drop_eq_getElem_cons (by simp [txIdStringLength, txIdSize])]
    rfl
  rw [toList_memcpy slot txId hfits, ofCString_append_iff, hdrop, ofCString_eq_nil_iff]
  rw [Vector.getElem?_eq_getElem (by decide), Option.some.injEq]

end RadioDoge.Serdog
