/-
# Serving a payload at the hub

`ProcessDogePayload` looks at the first byte of a payload and serves it: an address, a
request for one, a balance, a registration, the unspent outputs, a transaction, a
broadcast. Each service cuts its arguments from the payload itself. What is printed is
left out.
-/

import RadioDoge.Sharp.Registration

namespace RadioDoge.Sharp

open LittleEndian

/-- `LibDogecoin`, as far as a payload can reach it. -/
structure LibDogecoin (W : Type) extends WatchLibrary W where
  getBalance : W → Bytes → UInt64
  getAllUTXOs : W → Bytes → List Utxo
  /-- The id of the transaction, or what the library returns in its place. -/
  broadcastTransaction : W → Bytes → Bytes × W
  /-- The address of a new pair of keys, if the library makes one. -/
  generatePrivPubKeypair : W → Option Bytes × W

variable {W : Type} (library : LibDogecoin W)

/-- `ObfuscateDogeCoinBalance`. -/
def obfuscateDogeCoinBalance (balance : UInt64) (pin : Pin) : Bytes :=
  (toBytes balanceLength balance.toNat).mapIdx fun i byte =>
    byte ^^^ pin.get ⟨i % pinLength, Nat.mod_lt i (by decide)⟩

/-- `SendDogeCoinBalance`. -/
def sendDogeCoinBalance (localAddress destNode : NodeAddress) (serializedBalance : Bytes) : Bytes :=
  createPacket destNode localAddress (DogeCommandType.balanceReceived.code :: serializedBalance)

/-- `SendTransactionResult`. -/
def sendTransactionResult (localAddress destNode : NodeAddress) (txid : Bytes) : Bytes :=
  createPacket destNode localAddress (DogeCommandType.transactionResult.code :: asciiGetBytes txid)

/-- `SendDogeAddress`. -/
def sendDogeAddress (destNode : NodeAddress) (hub : Hub W) : Hub W × List Bytes :=
  let generated := library.generatePrivPubKeypair hub.wallet
  let hub := { hub with wallet := generated.2 }
  match generated.1 with
  | some publickey =>
      (hub, [createPacket destNode hub.localAddress
        (DogeCommandType.sendDogeAddress.code :: asciiGetBytes publickey)])
  | none => (hub, [])

/-- `ServiceBalanceRequest`. -/
def serviceBalanceRequest (replyAddress : NodeAddress) (payload : Bytes) (hub : Hub W) :
    Throws (Hub W × List Bytes) := do
  let requestAddress ← extractDogecoinAddressFromPayload 1 (payload.length - 1) payload
  match hub.dogeAddressBook.lookup requestAddress with
  | some entry =>
      let balanceToSend :=
        obfuscateDogeCoinBalance (library.getBalance hub.wallet requestAddress) entry.pin
      pure (hub, [sendDogeCoinBalance hub.localAddress replyAddress balanceToSend])
  | none =>
      pure (hub, [sendGenericDogeResponse hub.localAddress replyAddress false .requestBalance
        .notRegistered])

/-- `ServiceUTXORequest`. -/
def serviceUTXORequest (replyAddress : NodeAddress) (payload : Bytes) (hub : Hub W) :
    Throws (Hub W × List Bytes) := do
  let requestedDogecoinAddress ← extractDogecoinAddressFromPayload 1 (payload.length - 1) payload
  if requestedDogecoinAddress ∈ hub.dogeAddressBook then
    pure (hub, sendUTXOs hub.localAddress replyAddress
      (library.getAllUTXOs hub.wallet requestedDogecoinAddress))
  else
    pure (hub, [sendGenericDogeResponse hub.localAddress replyAddress false .getUTXOs
      .notRegistered])

/-- `ServiceTransactionRequest`. -/
def serviceTransactionRequest (replyAddress : NodeAddress) (payload : Bytes) (hub : Hub W) :
    Throws (Hub W × List Bytes) := do
  let rawTransaction ← copyOut payload 1 (payload.length - 1)
  let broadcast := library.broadcastTransaction hub.wallet rawTransaction
  pure ({ hub with wallet := broadcast.2 },
    [sendTransactionResult hub.localAddress replyAddress broadcast.1])

/-- `ProcessReceivedBroadcast`: the type is read and printed. -/
def processReceivedBroadcast (payload : Bytes) (hub : Hub W) : Throws (Hub W × List Bytes) :=
  if payload.length < 2 then pure (hub, [])
  else do
    let _broadcastType ← index payload 1
    pure (hub, [])

/-- The case `SendDogeAddress`: the address is printed. -/
def receiveDogeAddress (senderAddress : NodeAddress) (payload : Bytes) (hub : Hub W) :
    Throws (Hub W × List Bytes) :=
  let addrLength : Int := payload.length - 1
  if addrLength ≤ maxAddressLength then do
    let _addressString ← extractDogecoinAddressFromPayload 1 addrLength payload
    pure (hub, [])
  else
    pure (hub, [sendGenericDogeResponse hub.localAddress senderAddress false .sendDogeAddress
      .invalidAddress])

/-- `ProcessDogePayload`, with the commands written to the port. -/
def processDogePayload (senderAddress : NodeAddress) (payload : Bytes) (hub : Hub W) :
    Throws (Hub W × List Bytes) := do
  let commType ← index payload 0
  match DogeCommandType.ofCode? commType with
  | some .sendDogeAddress => receiveDogeAddress senderAddress payload hub
  | some .getDogeAddress => pure (sendDogeAddress library senderAddress hub)
  | some .requestBalance => serviceBalanceRequest library senderAddress payload hub
  | some .registration => registerDogeAddress library.toWatchLibrary senderAddress payload hub
  | some .getUTXOs => serviceUTXORequest library senderAddress payload hub
  | some .transactionRequest => serviceTransactionRequest library senderAddress payload hub
  | some .broadcastReceived => processReceivedBroadcast payload hub
  | _ => pure (hub, [])

/-! ## When it completes -/

section Completing

variable (senderAddress : NodeAddress) (payload : Bytes) (hub : Hub W)

/-- Everything behind the first byte can be copied. -/
theorem completes_copyRest {payload : Bytes} (hpos : 0 < payload.length) :
    ∃ rest, copyOut payload 1 (payload.length - 1) = .ok rest :=
  (completes_copyOut payload 1 _).mpr ⟨by omega, by omega⟩

theorem completes_registerDogeAddress (library : WatchLibrary W) :
    Completes (registerDogeAddress library senderAddress payload hub) ↔
      RegistrationFits payload := by
  rw [← completes_performRegistration library senderAddress payload hub, registerDogeAddress]
  constructor
  · intro h
    obtain ⟨result, hresult, -⟩ := (completes_bind _ _).mp h
    exact ⟨result, hresult⟩
  · rintro ⟨result, hresult⟩
    exact (completes_bind _ _).mpr ⟨result, hresult, completes_pure _⟩

theorem completes_receiveDogeAddress (hpos : 0 < payload.length) :
    Completes (receiveDogeAddress senderAddress payload hub) := by
  obtain ⟨rest, hrest⟩ := completes_copyRest hpos
  simp only [receiveDogeAddress]
  split
  · rw [extractDogecoinAddressFromPayload, hrest]
    exact completes_pure _
  · exact completes_pure _

theorem completes_serviceBalanceRequest (hpos : 0 < payload.length) :
    Completes (serviceBalanceRequest library senderAddress payload hub) := by
  obtain ⟨rest, hrest⟩ := completes_copyRest hpos
  rw [serviceBalanceRequest, extractDogecoinAddressFromPayload, hrest, bind_ok]
  split
  · exact completes_pure _
  · exact completes_pure _

theorem completes_serviceUTXORequest (hpos : 0 < payload.length) :
    Completes (serviceUTXORequest library senderAddress payload hub) := by
  obtain ⟨rest, hrest⟩ := completes_copyRest hpos
  rw [serviceUTXORequest, extractDogecoinAddressFromPayload, hrest, bind_ok]
  split
  · exact completes_pure _
  · exact completes_pure _

theorem completes_serviceTransactionRequest (hpos : 0 < payload.length) :
    Completes (serviceTransactionRequest library senderAddress payload hub) := by
  obtain ⟨rest, hrest⟩ := completes_copyRest hpos
  rw [serviceTransactionRequest, hrest, bind_ok]
  exact completes_pure _

theorem completes_processReceivedBroadcast : Completes (processReceivedBroadcast payload hub) := by
  rw [processReceivedBroadcast]
  by_cases hshort : payload.length < 2
  · rw [if_pos hshort]
    exact completes_pure _
  · rw [if_neg hshort, completes_bind]
    exact ⟨_, index_eq_ok (show 1 < payload.length by omega), completes_pure _⟩

end Completing

/-- What a payload has to be for `ProcessDogePayload` to complete: it is not empty, and a
registration has room for its fields. -/
def DogePayloadFits : Bytes → Prop
  | [] => False
  | command :: rest =>
      command = DogeCommandType.registration.code → RegistrationFits (command :: rest)

instance : DecidablePred DogePayloadFits
  | [] => inferInstanceAs (Decidable False)
  | _ :: _ => inferInstanceAs (Decidable (_ → _))

/-- **Serving a payload.** Nothing but an empty payload and a registration that is too
short throws, whatever the hub holds and whoever sent it. -/
theorem completes_processDogePayload (senderAddress : NodeAddress) (payload : Bytes)
    (hub : Hub W) :
    Completes (processDogePayload library senderAddress payload hub) ↔
      DogePayloadFits payload := by
  match payload with
  | [] => exact iff_of_false (not_completes_error _) not_false
  | command :: rest =>
      have hpos : 0 < (command :: rest).length := Nat.succ_pos _
      have hcommand : index (command :: rest) 0 = .ok command := rfl
      rw [processDogePayload, hcommand, bind_ok, DogePayloadFits]
      by_cases hregistration : command = DogeCommandType.registration.code
      · subst hregistration
        rw [DogeCommandType.ofCode?_code, forall_prop_of_true rfl]
        exact completes_registerDogeAddress senderAddress _ hub library.toWatchLibrary
      · refine iff_of_true ?_ fun h => absurd h hregistration
        cases hfound : DogeCommandType.ofCode? command with
        | none => exact completes_pure _
        | some commType =>
            have hcode : commType.code = command := DogeCommandType.code_of_ofCode? hfound
            cases commType with
            | sendDogeAddress => exact completes_receiveDogeAddress senderAddress _ hub hpos
            | requestBalance => exact completes_serviceBalanceRequest library senderAddress _ hub hpos
            | getUTXOs => exact completes_serviceUTXORequest library senderAddress _ hub hpos
            | transactionRequest =>
                exact completes_serviceTransactionRequest library senderAddress _ hub hpos
            | broadcastReceived => exact completes_processReceivedBroadcast _ hub
            | registration => exact absurd hcode.symm hregistration
            | getDogeAddress => exact completes_pure _
            | sendUTXOs => exact completes_pure _
            | balanceReceived => exact completes_pure _
            | dogeCommandSuccess => exact completes_pure _
            | dogeCommandFailure => exact completes_pure _
            | transactionResult => exact completes_pure _

/-! ## Requests that name an address -/

/-- The address is all that stands behind the command. -/
theorem extractDogecoinAddress_cons (command : UInt8) (address : Bytes) :
    extractDogecoinAddressFromPayload 1 ((command :: address).length - 1) (command :: address) =
      .ok address := by
  have hlength : ((command :: address).length : Int) - 1 = (address.length : Nat) := by
    rw [List.length_cons, Nat.cast_succ, add_sub_cancel_right]
  rw [extractDogecoinAddressFromPayload, hlength,
    copyOut_eq_ok (by rw [List.length_cons, Nat.add_comm])]
  exact congrArg Except.ok (List.take_of_length_le le_rfl)

/-- A balance is sent for an address that is registered. -/
theorem serviceBalanceRequest_cons (replyAddress : NodeAddress) (command : UInt8)
    (address : Bytes) (hub : Hub W) :
    serviceBalanceRequest library replyAddress (command :: address) hub =
      match hub.dogeAddressBook.lookup address with
      | some entry => .ok (hub, [sendDogeCoinBalance hub.localAddress replyAddress
          (obfuscateDogeCoinBalance (library.getBalance hub.wallet address) entry.pin)])
      | none => .ok (hub, [sendGenericDogeResponse hub.localAddress replyAddress false
          .requestBalance .notRegistered]) := by
  rw [serviceBalanceRequest, extractDogecoinAddress_cons]
  rfl

end RadioDoge.Sharp
