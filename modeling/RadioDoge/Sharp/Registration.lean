/-
# The address book of the hub

`RegisterDogeAddress` adds an address to the book, removes it, or changes its PIN, and
answers the sender. The address and the PIN are cut from the payload at places that
depend on its length and on the operation. A new address is also put on the watchlist
of the library, and a removed one taken off it.

The library is a parameter. It is asked to watch and to unwatch an address, and answers
whether that worked.
-/

import Mathlib.Data.List.AList
import RadioDoge.Sharp.Responses
import RadioDoge.Sharp.Runtime

namespace RadioDoge.Sharp

/-- `MAX_ADDRESS_LENGTH`. -/
abbrev maxAddressLength : Nat := 35

/-- `AddressBookEntry`. -/
structure AddressBookEntry where
  nodeAddress : NodeAddress
  pin : Pin
  deriving DecidableEq

namespace AddressBookEntry

/-- `DoesPinMatch`. -/
def doesPinMatch (entry : AddressBookEntry) (testPin : Pin) : Bool :=
  (List.finRange pinLength).all fun i => testPin[i] == entry.pin[i]

/-- `ResetPin`. A `Pin` has the length that is checked first. -/
def resetPin (entry : AddressBookEntry) (oldPin newPin : Pin) : Bool × AddressBookEntry :=
  if (List.finRange pinLength).all fun i => oldPin[i] == entry.pin[i] then
    (true, { entry with pin := newPin })
  else (false, entry)

/-- The loop compares the whole PIN. -/
theorem all_beq_iff (first second : Pin) :
    ((List.finRange pinLength).all fun i => first[i] == second[i]) = true ↔ first = second := by
  rw [List.all_eq_true]
  constructor
  · intro hall
    apply Vector.ext
    intro i hi
    exact beq_iff_eq.mp (hall ⟨i, hi⟩ (List.mem_finRange _))
  · rintro rfl i _
    exact beq_self_eq_true _

theorem doesPinMatch_iff (entry : AddressBookEntry) (testPin : Pin) :
    entry.doesPinMatch testPin = true ↔ testPin = entry.pin :=
  all_beq_iff testPin entry.pin

theorem resetPin_self (entry : AddressBookEntry) (newPin : Pin) :
    entry.resetPin entry.pin newPin = (true, { entry with pin := newPin }) :=
  if_pos ((all_beq_iff entry.pin entry.pin).mpr rfl)

theorem resetPin_of_ne {entry : AddressBookEntry} {oldPin : Pin} (newPin : Pin)
    (hne : oldPin ≠ entry.pin) : entry.resetPin oldPin newPin = (false, entry) :=
  if_neg fun hall => hne ((all_beq_iff oldPin entry.pin).mp hall)

end AddressBookEntry

/-- `dogeAddressBook`. -/
abbrev AddressBook := AList fun _ : Bytes => AddressBookEntry

/-- The calls of `LibDogecoin` that keep the watchlist; `W` is what the library holds. -/
structure WatchLibrary (W : Type) where
  registerWatchAddress : W → Bytes → Bool × W
  unregisterWatchAddress : W → Bytes → Bool × W

/-- What the hub keeps between payloads. -/
structure Hub (W : Type) where
  localAddress : NodeAddress
  dogeAddressBook : AddressBook
  wallet : W

/-- What an operation of `RegisterDogeAddress` leaves and reports. -/
structure Registered (W : Type) where
  hub : Hub W
  operationSuccess : Bool
  responseCode : DogeResponseCode

/-- `ExtractDogecoinAddressFromPayload`. -/
def extractDogecoinAddressFromPayload (offsetIndex : Nat) (addrLength : Int) (payload : Bytes) :
    Throws Bytes :=
  copyOut payload offsetIndex addrLength

/-- A new array of `PIN_LENGTH` bytes, filled from the payload. -/
def copyPin (payload : Bytes) (sourceIndex : Nat) : Throws Pin :=
  if hfits : sourceIndex + pinLength ≤ payload.length then
    .ok ⟨((payload.drop sourceIndex).take pinLength).toArray, by
      simp only [List.size_toArray, List.length_take, List.length_drop]
      omega⟩
  else .error .argument

variable {W : Type} (library : WatchLibrary W)

/-- The case `AddRegistration`. -/
def addRegistration (sender : NodeAddress) (addressString : Bytes) (extractedPin : Pin)
    (hub : Hub W) : Registered W :=
  if addressString ∈ hub.dogeAddressBook then ⟨hub, false, .alreadyRegistered⟩
  else
    let entry : AddressBookEntry := ⟨sender, extractedPin⟩
    let dogeAddressBook := hub.dogeAddressBook.insert addressString entry
    let addWatch := library.registerWatchAddress hub.wallet addressString
    ⟨{ hub with dogeAddressBook, wallet := addWatch.2 }, true,
      if addWatch.1 then .success else .watchlistFailure⟩

/-- The case `RemoveRegistration`. -/
def removeRegistration (addressString : Bytes) (extractedPin : Pin) (hub : Hub W) :
    Registered W :=
  match hub.dogeAddressBook.lookup addressString with
  | some entry =>
      if entry.doesPinMatch extractedPin then
        let dogeAddressBook := hub.dogeAddressBook.erase addressString
        let removeWatch := library.unregisterWatchAddress hub.wallet addressString
        ⟨{ hub with dogeAddressBook, wallet := removeWatch.2 }, true,
          if removeWatch.1 then .success else .watchlistFailure⟩
      else ⟨hub, false, .invalidPin⟩
  | none => ⟨hub, false, .notRegistered⟩

/-- The case `UpdatePin`. The new PIN is read only for a registered address. -/
def updatePin (payload : Bytes) (addressLength : Nat) (addressString : Bytes)
    (extractedPin : Pin) (hub : Hub W) : Throws (Registered W) :=
  match hub.dogeAddressBook.lookup addressString with
  | some entry => do
      let updatedPin ← copyPin payload (addressLength + 2 + pinLength)
      let pinUpdate := entry.resetPin extractedPin updatedPin
      let dogeAddressBook := hub.dogeAddressBook.insert addressString pinUpdate.2
      pure (if pinUpdate.1 then ⟨{ hub with dogeAddressBook }, true, .success⟩
        else ⟨hub, false, .invalidPin⟩)
  | none => pure ⟨hub, false, .notRegistered⟩

/-- The length that is left for the address. -/
def addressLengthOf (payload : Bytes) (regOpcode : UInt8) : Int :=
  if regOpcode = RegistrationFunction.updatePin.code then payload.length - (2 * pinLength + 2)
  else payload.length - (pinLength + 2)

/-- The operation that the payload asks for. -/
def performRegistration (sender : NodeAddress) (payload : Bytes) (hub : Hub W) :
    Throws (Registered W) := do
  let regOpcode ← index payload 1
  let addressLength := addressLengthOf payload regOpcode
  if addressLength ≤ maxAddressLength then
    let addressString ← extractDogecoinAddressFromPayload 2 addressLength payload
    let extractedPin ← copyPin payload (addressLength.toNat + 2)
    match RegistrationFunction.ofCode? regOpcode with
    | some .updatePin => updatePin payload addressLength.toNat addressString extractedPin hub
    | some .addRegistration => pure (addRegistration library sender addressString extractedPin hub)
    | some .removeRegistration => pure (removeRegistration library addressString extractedPin hub)
    | none => pure ⟨hub, false, .success⟩
  else pure ⟨hub, false, .invalidAddress⟩

/-- `RegisterDogeAddress`, with the commands written to the port. The book is printed
afterwards. -/
def registerDogeAddress (sender : NodeAddress) (payload : Bytes) (hub : Hub W) :
    Throws (Hub W × List Bytes) := do
  let result ← performRegistration library sender payload hub
  pure (result.hub, [sendGenericDogeResponse hub.localAddress sender result.operationSuccess
    .registration result.responseCode])

/-! ## The layout of a request -/

/-- The fields of a registration payload. Only an update carries a new PIN. -/
structure RegistrationRequest where
  regOpcode : UInt8
  address : Bytes
  pin : Pin
  newPin : Pin
  deriving DecidableEq

namespace RegistrationRequest

/-- The payload with these fields; the hub does not look at its first byte here. -/
def payload (header : UInt8) (r : RegistrationRequest) : Bytes :=
  header :: r.regOpcode :: (r.address ++ (r.pin.toList ++
    if r.regOpcode = RegistrationFunction.updatePin.code then r.newPin.toList else []))

/-- The case `UpdatePin` once the new PIN is read. -/
def changePin (address : Bytes) (pin newPin : Pin) (hub : Hub W) : Registered W :=
  match hub.dogeAddressBook.lookup address with
  | some entry =>
      let pinUpdate := entry.resetPin pin newPin
      if pinUpdate.1 then
        let dogeAddressBook := hub.dogeAddressBook.insert address pinUpdate.2
        ⟨{ hub with dogeAddressBook }, true, .success⟩
      else ⟨hub, false, .invalidPin⟩
  | none => ⟨hub, false, .notRegistered⟩

/-- What the hub does with the fields. -/
def perform (r : RegistrationRequest) (sender : NodeAddress) (hub : Hub W) : Registered W :=
  if r.address.length ≤ maxAddressLength then
    match RegistrationFunction.ofCode? r.regOpcode with
    | some .updatePin => changePin r.address r.pin r.newPin hub
    | some .addRegistration => addRegistration library sender r.address r.pin hub
    | some .removeRegistration => removeRegistration library r.address r.pin hub
    | none => ⟨hub, false, .success⟩
  else ⟨hub, false, .invalidAddress⟩

end RegistrationRequest

/-- A PIN is read from where it stands. -/
theorem copyPin_append (front : Bytes) (pin : Pin) (rest : Bytes) {sourceIndex : Nat}
    (hindex : sourceIndex = front.length) :
    copyPin (front ++ (pin.toList ++ rest)) sourceIndex = .ok pin := by
  subst hindex
  have hfits : front.length + pinLength ≤ (front ++ (pin.toList ++ rest)).length := by
    simp only [List.length_append, Vector.length_toList]
    omega
  have htake : (pin.toList ++ rest).take pinLength = pin.toList :=
    List.take_left' Vector.length_toList
  rw [copyPin, dif_pos hfits]
  simp only [List.drop_left, htake]
  rfl

section Layout

variable (r : RegistrationRequest) (header : UInt8)

theorem RegistrationRequest.payload_of_update {r : RegistrationRequest}
    (h : r.regOpcode = RegistrationFunction.updatePin.code) :
    r.payload header =
      header :: r.regOpcode :: (r.address ++ r.pin.toList ++ r.newPin.toList) := by
  rw [payload, if_pos h, List.append_assoc]

theorem RegistrationRequest.payload_of_ne {r : RegistrationRequest}
    (h : r.regOpcode ≠ RegistrationFunction.updatePin.code) :
    r.payload header = header :: r.regOpcode :: (r.address ++ r.pin.toList) := by
  rw [payload, if_neg h, List.append_nil]

/-- The space left for the address is the space it takes. -/
theorem addressLengthOf_payload :
    addressLengthOf (r.payload header) r.regOpcode = r.address.length := by
  simp only [addressLengthOf, RegistrationRequest.payload]
  split
  · simp only [List.length_cons, List.length_append, Vector.length_toList]
    omega
  · simp only [List.length_cons, List.length_append, Vector.length_toList, List.length_nil]
    omega

/-- The fields are recovered from the payload. -/
theorem performRegistration_payload (sender : NodeAddress) (hub : Hub W) :
    performRegistration library sender (r.payload header) hub =
      .ok (r.perform library sender hub) := by
  have hopcode : index (r.payload header) 1 = .ok r.regOpcode := rfl
  rw [performRegistration, hopcode, bind_ok, addressLengthOf_payload, RegistrationRequest.perform]
  by_cases hshort : r.address.length ≤ maxAddressLength
  · have haddress : extractDogecoinAddressFromPayload 2 (r.address.length : Nat)
        (r.payload header) = .ok r.address := by
      rw [extractDogecoinAddressFromPayload, copyOut_eq_ok]
      · exact congrArg Except.ok List.take_left
      · simp only [RegistrationRequest.payload, List.length_cons, List.length_append]
        omega
    have hpin : copyPin (r.payload header) (r.address.length + 2) = .ok r.pin :=
      copyPin_append (header :: r.regOpcode :: r.address) r.pin _ rfl
    rw [if_pos (by exact_mod_cast hshort), if_pos hshort, haddress, bind_ok, Int.toNat_natCast,
      hpin, bind_ok]
    cases hfunction : RegistrationFunction.ofCode? r.regOpcode with
    | none => rfl
    | some function =>
        cases function with
        | addRegistration => rfl
        | removeRegistration => rfl
        | updatePin =>
            have hcode : r.regOpcode = RegistrationFunction.updatePin.code :=
              (RegistrationFunction.code_of_ofCode? hfunction).symm
            have hnew : copyPin (r.payload header) (r.address.length + 2 + pinLength) =
                .ok r.newPin := by
              have hlayout : r.payload header =
                  (header :: r.regOpcode :: r.address ++ r.pin.toList) ++
                    (r.newPin.toList ++ []) := by
                rw [RegistrationRequest.payload, if_pos hcode]
                simp only [List.cons_append, List.append_assoc, List.append_nil]
              rw [hlayout]
              apply copyPin_append
              simp only [List.length_cons, List.length_append, Vector.length_toList]
            dsimp only
            rw [updatePin, RegistrationRequest.changePin]
            cases hub.dogeAddressBook.lookup r.address with
            | none => rfl
            | some entry =>
                simp only [hnew, bind_ok]
                rfl
  · rw [if_neg (by exact_mod_cast hshort), if_neg hshort]
    rfl

end Layout

/-! ## The operations case by case -/

section Operations

open RegistrationRequest

variable {address : Bytes} {entry : AddressBookEntry} (sender : NodeAddress) (pin newPin : Pin)
  (hub : Hub W)

omit library in
theorem mem_of_lookup (hentry : hub.dogeAddressBook.lookup address = some entry) :
    address ∈ hub.dogeAddressBook :=
  AList.lookup_isSome.mp (by rw [hentry, Option.isSome_some])

theorem addRegistration_of_lookup (hentry : hub.dogeAddressBook.lookup address = some entry) :
    addRegistration library sender address pin hub = ⟨hub, false, .alreadyRegistered⟩ :=
  if_pos (mem_of_lookup hub hentry)

theorem addRegistration_of_none (hfree : hub.dogeAddressBook.lookup address = none) :
    (addRegistration library sender address pin hub).hub =
      { hub with
        dogeAddressBook := hub.dogeAddressBook.insert address ⟨sender, pin⟩
        wallet := (library.registerWatchAddress hub.wallet address).2 } := by
  rw [addRegistration, if_neg (AList.lookup_eq_none.mp hfree)]

theorem removeRegistration_of_pin (hentry : hub.dogeAddressBook.lookup address = some entry) :
    (removeRegistration library address entry.pin hub).hub =
      { hub with
        dogeAddressBook := hub.dogeAddressBook.erase address
        wallet := (library.unregisterWatchAddress hub.wallet address).2 } := by
  have hmatch := (entry.doesPinMatch_iff entry.pin).mpr rfl
  simp only [removeRegistration, hentry, hmatch, if_true]

theorem removeRegistration_of_ne (hentry : hub.dogeAddressBook.lookup address = some entry)
    (hpin : pin ≠ entry.pin) :
    removeRegistration library address pin hub = ⟨hub, false, .invalidPin⟩ := by
  have hmatch : ¬ entry.doesPinMatch pin = true :=
    fun h => hpin ((entry.doesPinMatch_iff pin).mp h)
  simp only [removeRegistration, hentry, hmatch]
  rfl

theorem removeRegistration_of_none (hfree : hub.dogeAddressBook.lookup address = none) :
    removeRegistration library address pin hub = ⟨hub, false, .notRegistered⟩ := by
  simp only [removeRegistration, hfree]

theorem changePin_of_pin (hentry : hub.dogeAddressBook.lookup address = some entry) :
    (changePin address entry.pin newPin hub).hub =
      { hub with
        dogeAddressBook :=
          hub.dogeAddressBook.insert address ⟨entry.nodeAddress, newPin⟩ } := by
  simp only [changePin, hentry, entry.resetPin_self newPin, if_true]

theorem changePin_of_ne (hentry : hub.dogeAddressBook.lookup address = some entry)
    (hpin : pin ≠ entry.pin) :
    changePin address pin newPin hub = ⟨hub, false, .invalidPin⟩ := by
  simp only [changePin, hentry, entry.resetPin_of_ne newPin hpin]
  rfl

theorem changePin_of_none (hfree : hub.dogeAddressBook.lookup address = none) :
    changePin address pin newPin hub = ⟨hub, false, .notRegistered⟩ := by
  simp only [changePin, hfree]

end Operations

/-! ## Payloads that are long enough -/

/-- There is room for the opcode and the PINs. -/
def RegistrationFits : Bytes → Prop
  | _ :: regOpcode :: rest =>
      (if regOpcode = RegistrationFunction.updatePin.code then 2 * pinLength else pinLength) ≤
        rest.length
  | _ => False

instance : DecidablePred RegistrationFits
  | [] => inferInstanceAs (Decidable False)
  | [_] => inferInstanceAs (Decidable False)
  | _ :: _ :: _ => inferInstanceAs (Decidable (_ ≤ _))

/-- A list that is long enough ends in a PIN. -/
theorem exists_pin_suffix {bytes : Bytes} (hlen : pinLength ≤ bytes.length) :
    ∃ (front : Bytes) (pin : Pin), bytes = front ++ pin.toList := by
  refine ⟨bytes.take (bytes.length - pinLength),
    ⟨(bytes.drop (bytes.length - pinLength)).toArray, ?_⟩, ?_⟩
  · simp only [List.size_toArray, List.length_drop]
    omega
  · exact (List.take_append_drop _ _).symm

/-- A payload that is long enough has fields. -/
theorem exists_request_of_fits {payload : Bytes} (hfits : RegistrationFits payload) :
    ∃ (header : UInt8) (r : RegistrationRequest), payload = r.payload header := by
  match payload with
  | header :: regOpcode :: rest =>
      rw [RegistrationFits] at hfits
      by_cases hupdate : regOpcode = RegistrationFunction.updatePin.code
      · rw [if_pos hupdate] at hfits
        obtain ⟨front, newPin, rfl⟩ := exists_pin_suffix
          (show pinLength ≤ rest.length by omega)
        rw [List.length_append, Vector.length_toList] at hfits
        obtain ⟨address, pin, rfl⟩ := exists_pin_suffix
          (show pinLength ≤ front.length by omega)
        refine ⟨header, ⟨regOpcode, address, pin, newPin⟩, ?_⟩
        rw [RegistrationRequest.payload, if_pos hupdate, List.append_assoc]
      · rw [if_neg hupdate] at hfits
        obtain ⟨address, pin, rfl⟩ := exists_pin_suffix hfits
        refine ⟨header, ⟨regOpcode, address, pin, pin⟩, ?_⟩
        rw [RegistrationRequest.payload, if_neg hupdate, List.append_nil]

/-- **When registration completes.** The payload is long enough for the opcode and the
PINs, whatever the book holds. -/
theorem completes_performRegistration (sender : NodeAddress) (payload : Bytes) (hub : Hub W) :
    Completes (performRegistration library sender payload hub) ↔ RegistrationFits payload := by
  constructor
  · intro h
    obtain ⟨regOpcode, hopcode, h⟩ := (completes_bind _ _).mp h
    match payload with
    | [] => exact absurd ⟨_, hopcode⟩ (not_completes_error _)
    | [_] => exact absurd ⟨_, hopcode⟩ (not_completes_error _)
    | header :: opcode :: rest =>
        obtain rfl : opcode = regOpcode := Except.ok.inj hopcode
        have hroom : 0 ≤ addressLengthOf (header :: opcode :: rest) opcode := by
          by_contra hneg
          rw [if_pos (by omega)] at h
          obtain ⟨address, haddress, -⟩ := (completes_bind _ _).mp h
          have hcopied := (completes_copyOut _ _ _).mp ⟨address, haddress⟩
          exact hneg hcopied.1
        rw [RegistrationFits]
        rw [addressLengthOf] at hroom
        split at hroom
        · rename_i hupdate
          rw [if_pos hupdate]
          simp only [List.length_cons] at hroom
          omega
        · rename_i hupdate
          rw [if_neg hupdate]
          simp only [List.length_cons] at hroom
          omega
  · intro hfits
    obtain ⟨header, r, rfl⟩ := exists_request_of_fits hfits
    rw [performRegistration_payload]
    exact completes_ok _

/-- A registration with these fields, and the answer to it. -/
theorem registerDogeAddress_payload (sender : NodeAddress) (r : RegistrationRequest)
    (header : UInt8) (hub : Hub W) :
    registerDogeAddress library sender (r.payload header) hub =
      .ok ((r.perform library sender hub).hub,
        [sendGenericDogeResponse hub.localAddress sender
          (r.perform library sender hub).operationSuccess .registration
          (r.perform library sender hub).responseCode]) := by
  rw [registerDogeAddress, performRegistration_payload, bind_ok]
  rfl

/-- What a registration that completes has done. -/
theorem registerDogeAddress_eq_ok {sender : NodeAddress} {payload : Bytes} {hub hub' : Hub W}
    {replies : List Bytes}
    (h : registerDogeAddress library sender payload hub = .ok (hub', replies)) :
    ∃ (header : UInt8) (r : RegistrationRequest), payload = r.payload header ∧
      hub' = (r.perform library sender hub).hub := by
  have hcompletes : Completes (performRegistration library sender payload hub) := by
    cases hresult : performRegistration library sender payload hub with
    | error e =>
        rw [registerDogeAddress, hresult] at h
        cases h
    | ok result => exact completes_ok result
  obtain ⟨header, r, rfl⟩ :=
    exists_request_of_fits ((completes_performRegistration library sender payload hub).mp hcompletes)
  rw [registerDogeAddress_payload] at h
  exact ⟨header, r, rfl, (congrArg Prod.fst (Except.ok.inj h)).symm⟩

end RadioDoge.Sharp
