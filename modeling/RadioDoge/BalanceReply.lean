/-
# A balance on its way to the client

The hub writes a balance in eight bytes, the lowest first, and combines each of them with a byte
of the PIN. The bytes travel behind the command of the payload and the header of the packet, and
serdog takes the PIN off again.
-/

import RadioDoge.HostTransfer
import RadioDoge.Serdog.Outcomes
import RadioDoge.Sharp.AddressGuard
import RadioDoge.Sharp.DogeMode

namespace RadioDoge

open LittleEndian
open Heltec (hostWrites transmissions)
open Serdog (deobfuscateReceivedBalance)
open Sharp (Hub LibDogecoin obfuscateDogeCoinBalance sendDogeCoinBalance)

/-! ## The PIN is taken off -/

/-- What both hosts do with the PIN is undone by doing it again. -/
theorem deobfuscated_obfuscated (balance : UInt64) (pin : Pin) (rest : Bytes) :
    (deobfuscateReceivedBalance pin (obfuscateDogeCoinBalance balance pin ++ rest)).2 =
      toBytes balanceLength balance.toNat := by
  have hlength : (obfuscateDogeCoinBalance balance pin).length = balanceLength := by
    rw [obfuscateDogeCoinBalance, List.length_mapIdx, length_toBytes]
  rw [deobfuscateReceivedBalance, List.take_left' hlength, obfuscateDogeCoinBalance,
    List.mapIdx_mapIdx, List.mapIdx_eq_iff]
  intro i
  have hcancel : ∀ byte : UInt8,
      byte ^^^ pin.get ⟨i % pinLength, Nat.mod_lt i (by decide)⟩ ^^^
        pin.get ⟨i % pinLength, Nat.mod_lt i (by decide)⟩ = byte := by
    intro byte
    rw [UInt8.xor_assoc, UInt8.xor_self, UInt8.xor_zero]
  cases (toBytes balanceLength balance.toNat)[i]? with
  | none => rfl
  | some byte => exact congrArg some (hcancel byte).symm

/-- The number is the balance again, whatever stands behind it in the buffer. -/
theorem deobfuscateReceivedBalance_obfuscate (balance : UInt64) (pin : Pin) (rest : Bytes) :
    (deobfuscateReceivedBalance pin (obfuscateDogeCoinBalance balance pin ++ rest)).1 =
      balance := by
  have hnumber : (deobfuscateReceivedBalance pin (obfuscateDogeCoinBalance balance pin ++ rest)).1 =
      UInt64.ofNat (ofBytes
        (deobfuscateReceivedBalance pin (obfuscateDogeCoinBalance balance pin ++ rest)).2) := by rfl
  rw [hnumber, deobfuscated_obfuscated, ofBytes_toBytes_of_lt balance.toNat_lt,
    UInt64.ofNat_toNat]

/-! ## The way -/

section OnTheWay

variable (src dest : NodeAddress) (balance : UInt64) (pin : Pin)

/-- The packet of a balance. -/
def balanceReply : HostPacket where
  src := src
  dest := dest
  payload := DogeCommandType.balanceReceived.code :: obfuscateDogeCoinBalance balance pin

theorem length_balanceReply : (balanceReply src dest balance pin).payload.length = 9 := by
  rw [balanceReply, List.length_cons, obfuscateDogeCoinBalance, List.length_mapIdx,
    length_toBytes]

/-- The hub writes the command of this packet. -/
theorem sendDogeCoinBalance_eq :
    sendDogeCoinBalance src dest (obfuscateDogeCoinBalance balance pin) =
      (balanceReply src dest balance pin).command :=
  Sharp.createPacket_eq (balanceReply src dest balance pin)

/-- serdog reads the balance from the packet, whatever its buffer held. -/
theorem receivePacket_balanceReply (dataBuffer : Vector UInt8 Serdog.dataBufferSize) :
    (Serdog.receivePacket pin (balanceReply src dest balance pin).frame dataBuffer).map Prod.fst =
      some (src, .balance balance) := by
  have hframe := (balanceReply src dest balance pin).length_frame
  rw [length_balanceReply] at hframe
  have hpayload : (balanceReply src dest balance pin).frame.drop singlePacketHdrLen =
      DogeCommandType.balanceReceived.code :: obfuscateDogeCoinBalance balance pin := by rfl
  rw [Serdog.fst_receivePacket pin dataBuffer (by rw [hframe]; decide) (by rw [hframe]; decide),
    hpayload, List.cons_append, Serdog.Outcome.of_cons, DogeCommandType.ofCode?_code]
  simp only [deobfuscateReceivedBalance_obfuscate]
  rfl

end OnTheWay

/-- **A balance, end to end.** The hub answers a request for a registered address with one
command. Its node transmits one frame, a node that the frame is for gives it to its host as it
is, and serdog with the PIN of the hub reads the balance from it. -/
theorem balance_end_to_end {W : Type} (library : LibDogecoin W) (hub : Hub W)
    (replyAddress : NodeAddress) {address : Bytes} {entry : Sharp.AddressBookEntry}
    (hregistered : hub.dogeAddressBook.lookup address = some entry) :
    ∃ command frame,
      Sharp.serviceBalanceRequest library replyAddress
          (DogeCommandType.requestBalance.code :: address) hub = .ok (hub, [command]) ∧
      (∀ sender : Heltec.Node, transmissions (sender.hostSerialRead command).2 = [frame]) ∧
      (∀ receiver : Heltec.Node, receiver.Accepts replyAddress →
        hostWrites (receiver.onRxDone frame).2 = [frame]) ∧
      FrameStream.IsFrame Serdog.complete frame ∧
      ∀ dataBuffer, (Serdog.receivePacket entry.pin frame dataBuffer).map Prod.fst =
        some (hub.localAddress, .balance (library.getBalance hub.wallet address)) := by
  let balance := library.getBalance hub.wallet address
  let reply := balanceReply hub.localAddress replyAddress balance entry.pin
  have hlength : reply.payload.length = 9 := length_balanceReply _ _ balance entry.pin
  have hframe : reply.frame.length ≤ 255 := by
    rw [reply.length_frame, hlength]
    decide
  refine ⟨reply.command, reply.frame, ?_, ?_, ?_, ?_, ?_⟩
  · rw [Sharp.serviceBalanceRequest_cons, hregistered]
    simp only [sendDogeCoinBalance_eq]
    rfl
  · exact Heltec.Node.transmissions_hostSerialRead (.inl rfl) hframe
  · intro receiver haccepts
    exact (Heltec.Node.hostWrites_onRxDone (.inl rfl) hframe receiver).trans (if_pos haccepts)
  · exact (recovered_frame reply (by rw [hlength]; decide)).isFrame
  · exact receivePacket_balanceReply hub.localAddress replyAddress balance entry.pin

/-- A library where every address has a balance of 43 doge. -/
def richLibrary : LibDogecoin Unit where
  toWatchLibrary := Sharp.obligingLibrary
  getBalance := fun _ _ => 4300000000
  getAllUTXOs := fun _ _ => []
  broadcastTransaction := fun _ _ => ([48], ())
  generatePrivPubKeypair := fun _ => (none, ())

/-- The node 10.0.2 asks for the balance of the only address. -/
theorem balance_end_to_end_one_address :
    ∃ command frame,
      Sharp.serviceBalanceRequest richLibrary ⟨10, 0, 2⟩
          (DogeCommandType.requestBalance.code :: [68]) Sharp.oneAddressHub =
        .ok (Sharp.oneAddressHub, [command]) ∧
      (∀ sender : Heltec.Node, transmissions (sender.hostSerialRead command).2 = [frame]) ∧
      (∀ receiver : Heltec.Node, receiver.Accepts ⟨10, 0, 2⟩ →
        hostWrites (receiver.onRxDone frame).2 = [frame]) ∧
      FrameStream.IsFrame Serdog.complete frame ∧
      ∀ dataBuffer, (Serdog.receivePacket (Pin.of 1 2 3 4) frame dataBuffer).map Prod.fst =
        some (⟨10, 0, 1⟩, .balance 4300000000) := by
  have hregistered : Sharp.oneAddressHub.dogeAddressBook.lookup [68] =
      some ⟨⟨10, 0, 2⟩, Pin.of 1 2 3 4⟩ := by rfl
  have hbalance : richLibrary.getBalance Sharp.oneAddressHub.wallet [68] = 4300000000 := by rfl
  have hreply := balance_end_to_end richLibrary Sharp.oneAddressHub ⟨10, 0, 2⟩ hregistered
  rw [hbalance] at hreply
  exact hreply

end RadioDoge
