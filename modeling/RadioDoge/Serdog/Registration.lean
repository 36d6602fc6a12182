/-
# Registration, as serdog asks for it

`enterDogeMode` registers the loaded address under a PIN that the user types, removes
it, or changes its PIN. The PIN of the client is set when the request is sent: nothing
that comes back from the hub is compared with it.
-/

import RadioDoge.Serdog.Command
import RadioDoge.Serdog.Utxos
import RadioDoge.Sharp.Registration

namespace RadioDoge.Serdog

/-- `P2PKH_ADDR_STRINGLEN`. -/
abbrev p2pkhAddrStringLen : Nat := 35

/-- `cmdRegisterDogeAddress`. -/
def cmdRegisterDogeAddress (inaddr destAddr : NodeAddress)
    (dogeAddress : Vector UInt8 p2pkhAddrStringLen) (pin : Pin) (removeAddress : Bool) :
    Option Bytes :=
  let payloadLength := 2 + p2pkhAddrStringLen + pinLength
  let function : RegistrationFunction :=
    if removeAddress then .removeRegistration else .addRegistration
  let payload := DogeCommandType.registration.code :: function.code ::
    (dogeAddress.toList ++ pin.toList)
  cmdSendMessage inaddr destAddr payload (UInt8.ofNat payloadLength)

/-- `cmdUpdateRegistrationPin`. -/
def cmdUpdateRegistrationPin (inaddr destAddr : NodeAddress)
    (dogeAddress : Vector UInt8 p2pkhAddrStringLen) (oldPin updatedPin : Pin) : Option Bytes :=
  let payloadLength := 2 + p2pkhAddrStringLen + 2 * pinLength
  let payload := DogeCommandType.registration.code :: RegistrationFunction.updatePin.code ::
    (dogeAddress.toList ++ oldPin.toList ++ updatedPin.toList)
  cmdSendMessage inaddr destAddr payload (UInt8.ofNat payloadLength)

/-- The variables of the menu, and the poll thread beside it. -/
structure Registrant where
  myaddr : NodeAddress
  rmaddr : NodeAddress
  loadedDogeAddress : Vector UInt8 p2pkhAddrStringLen
  userPin : Pin
  client : Client

/-- The choices of the menu that concern a registration, with the PIN that
`getUserSuppliedPin` reads. -/
inductive PinAction
  | register (suppliedPin : Pin)
  | remove
  | update (suppliedPin : Pin)
  deriving DecidableEq

/-- `enterDogeMode`, cases 6, 7 and 8: the variables afterwards and the command written. -/
def Registrant.act (s : Registrant) : PinAction → Registrant × Option Bytes
  | .register suppliedPin =>
      let s := { s with userPin := suppliedPin }
      (s, cmdRegisterDogeAddress s.myaddr s.rmaddr s.loadedDogeAddress s.userPin false)
  | .remove => (s, cmdRegisterDogeAddress s.myaddr s.rmaddr s.loadedDogeAddress s.userPin true)
  | .update suppliedPin =>
      let written :=
        cmdUpdateRegistrationPin s.myaddr s.rmaddr s.loadedDogeAddress s.userPin suppliedPin
      ({ s with userPin := suppliedPin }, written)

open Sharp (RegistrationRequest)

/-- The registration request that an action asks for. -/
def PinAction.request (loadedDogeAddress : Vector UInt8 p2pkhAddrStringLen) (userPin : Pin) :
    PinAction → RegistrationRequest
  | .register suppliedPin =>
      ⟨RegistrationFunction.addRegistration.code, loadedDogeAddress.toList, suppliedPin, suppliedPin⟩
  | .remove =>
      ⟨RegistrationFunction.removeRegistration.code, loadedDogeAddress.toList, userPin, userPin⟩
  | .update suppliedPin =>
      ⟨RegistrationFunction.updatePin.code, loadedDogeAddress.toList, userPin, suppliedPin⟩

/-- The packet that carries a request of this client. -/
def Registrant.packet (s : Registrant) (r : RegistrationRequest) : HostPacket :=
  ⟨s.myaddr, s.rmaddr, r.payload DogeCommandType.registration.code⟩

/-- A payload that the client sends. -/
theorem cmdSendMessage_payload (inaddr destAddr : NodeAddress) (payload : Bytes) {count : Nat}
    (hcount : payload.length = count) (hlen : count ≤ 247) :
    cmdSendMessage inaddr destAddr payload (UInt8.ofNat count) =
      some (HostPacket.command ⟨inaddr, destAddr, payload⟩) := by
  subst hcount
  exact cmdSendMessage_eq ⟨inaddr, destAddr, payload⟩ hlen

/-- **What an action writes.** The command of the packet with its request. -/
theorem Registrant.act_command (s : Registrant) (action : PinAction) :
    (s.act action).2 = some (s.packet (action.request s.loadedDogeAddress s.userPin)).command := by
  cases action with
  | register suppliedPin =>
      have hfunction : RegistrationFunction.addRegistration.code ≠
          RegistrationFunction.updatePin.code := by decide
      rw [Registrant.packet, RegistrationRequest.payload_of_ne _ hfunction]
      apply cmdSendMessage_payload
      · simp only [List.length_cons, List.length_append, Vector.length_toList]
        rfl
      · decide
  | remove =>
      have hfunction : RegistrationFunction.removeRegistration.code ≠
          RegistrationFunction.updatePin.code := by decide
      rw [Registrant.packet, RegistrationRequest.payload_of_ne _ hfunction]
      apply cmdSendMessage_payload
      · simp only [List.length_cons, List.length_append, Vector.length_toList]
        rfl
      · decide
  | update suppliedPin =>
      rw [Registrant.packet, RegistrationRequest.payload_of_update _ rfl]
      apply cmdSendMessage_payload
      · simp only [List.length_cons, List.length_append, Vector.length_toList]
        rfl
      · decide

end RadioDoge.Serdog
