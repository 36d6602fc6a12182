/-
# Two forms of one address

serdog sends an address as a field of 35 bytes, with the NUL behind the characters. The hub's own
client sends the characters alone. The hub takes what arrives for the name of the address, so it
keeps the two forms apart: an address that serdog has registered is unknown under its
characters. `one_registration_iff` says in which runs that does not show.
-/

import RadioDoge.Lib.LoggedRun
import RadioDoge.PinAgreement
import RadioDoge.Sharp.AddressGuard

namespace RadioDoge

open GuardedBook
open Sharp (asciiGetBytes createPacket Hub LibDogecoin obfuscateDogeCoinBalance processDogePayload
  RegistrationRequest sendDogeCoinBalance sendGenericDogeResponse sendUTXOs)

/-! ## The requests of the clients -/

namespace Serdog

/-- The body of `cmdRequestUTXOs` and `cmdRequestBalance`: the address behind the command. -/
def cmdRequestForAddress (request : DogeCommandType) (inAddr destAddr : NodeAddress)
    (dogeAddress : Vector UInt8 p2pkhAddrStringLen) : Option Bytes :=
  let payload := request.code :: dogeAddress.toList
  cmdSendMessage inAddr destAddr payload (UInt8.ofNat (p2pkhAddrStringLen + 1))

/-- `cmdRequestUTXOs`. -/
def cmdRequestUTXOs : NodeAddress → NodeAddress → Vector UInt8 p2pkhAddrStringLen → Option Bytes :=
  cmdRequestForAddress .getUTXOs

/-- `cmdRequestBalance`. -/
def cmdRequestBalance :
    NodeAddress → NodeAddress → Vector UInt8 p2pkhAddrStringLen → Option Bytes :=
  cmdRequestForAddress .requestBalance

theorem cmdRequestForAddress_eq (request : DogeCommandType) (inAddr destAddr : NodeAddress)
    (dogeAddress : Vector UInt8 p2pkhAddrStringLen) :
    cmdRequestForAddress request inAddr destAddr dogeAddress =
      some (HostPacket.command ⟨inAddr, destAddr, request.code :: dogeAddress.toList⟩) := by
  apply cmdSendMessage_payload
  · rw [List.length_cons, Vector.length_toList]
  · decide

end Serdog

/-- `RequestDogeCoinBalance` of the hub's client: the command written to the port. -/
def Sharp.requestDogeCoinBalance (localAddress destNode : NodeAddress) (dogeCoinAddress : Bytes) :
    Bytes :=
  createPacket destNode localAddress (DogeCommandType.requestBalance.code :: dogeCoinAddress)

/-! ## An address and its forms -/

/-- A Dogecoin address: 34 characters. -/
structure DogeAddress where
  text : Bytes
  length_eq : text.length = 34
  isAscii : ∀ char ∈ text, char ≠ 0 ∧ char < 128

namespace DogeAddress

variable (a : DogeAddress)

/-- The address as it stands in a variable of serdog. -/
def field : Vector UInt8 Serdog.p2pkhAddrStringLen :=
  ⟨(a.text ++ [0]).toArray, by rw [List.size_toArray, List.length_append, a.length_eq]; rfl⟩

theorem toList_field : a.field.toList = a.text ++ [0] := rfl

/-- The two forms are different names. -/
theorem field_ne_text : a.field.toList ≠ a.text := by
  intro hsame
  have hlength := congrArg List.length hsame
  rw [toList_field, List.length_append, List.length_singleton] at hlength
  omega

end DogeAddress

/-- The payload that registers an address, or removes it, in the form that is given. -/
def registrationPayload (function : RegistrationFunction) (address : Bytes) (pin : Pin) : Bytes :=
  DogeCommandType.registration.code :: function.code :: (address ++ pin.toList)

/-! ## What the hub makes of them -/

section Requests

variable {W : Type} (library : LibDogecoin W) (hub : Hub W)

/-- The hub answers a command, whatever message it is joining. -/
def Answers (command : Option Bytes) (replies : List Bytes) : Prop :=
  ∃ written ∈ command, ∀ packet, ∃ next,
    Sharp.portDataReceived library (onAir written) ⟨hub, packet⟩ = .ok (next, replies)

/-- The hub answers with a balance. -/
def FindsBalance (src : NodeAddress) (command : Option Bytes) : Prop :=
  ∃ (balance : UInt64) (pin : Pin), Answers library hub command
    [sendDogeCoinBalance hub.localAddress src (obfuscateDogeCoinBalance balance pin)]

/-- The hub answers with the outputs, also if there are none. -/
def FindsOutputs (src : NodeAddress) (command : Option Bytes) : Prop :=
  ∃ outputs : List Utxo, Answers library hub command (sendUTXOs hub.localAddress src outputs)

/-- An address that is registered is found under both forms, and cannot be registered again
under its characters. -/
structure OneRegistration (a : DogeAddress) : Prop where
  serdogBalance : ∀ src dest,
    FindsBalance library hub src (Serdog.cmdRequestBalance src dest a.field)
  serdogOutputs : ∀ src dest,
    FindsOutputs library hub src (Serdog.cmdRequestUTXOs src dest a.field)
  sharpBalance : ∀ src dest, FindsBalance library hub src
    (some (Sharp.requestDogeCoinBalance src dest (asciiGetBytes a.text)))
  refused : ∀ (sender : NodeAddress) (pin : Pin),
    processDogePayload library sender (registrationPayload .addRegistration a.text pin) hub =
      .ok (hub, [sendGenericDogeResponse hub.localAddress sender false .registration
        .alreadyRegistered])

/-! ## What is found -/

section Finding

variable {src dest : NodeAddress} {address : Bytes}

/-- A command is answered as its payload is. -/
theorem answers_iff (p : HostPacket) (hlen : p.payload.length ≤ 247) {next : Hub W}
    {served replies : List Bytes}
    (hserved : processDogePayload library p.src p.payload hub = .ok (next, served)) :
    Answers library hub (some p.command) replies ↔ replies = served := by
  have hport : ∀ packet, Sharp.portDataReceived library (onAir p.command) ⟨hub, packet⟩ =
      .ok (⟨next, packet⟩, served) :=
    fun packet => Sharp.portDataReceived_frame library p hlen ⟨hub, packet⟩ hserved
  apply Iff.intro
  · rintro ⟨written, hwritten, hanswer⟩
    rcases Option.some.inj hwritten with rfl
    rcases hanswer .fresh with ⟨other, hother⟩
    rw [hport] at hother
    exact (Prod.mk.inj (Except.ok.inj hother)).2.symm
  · rintro rfl
    exact ⟨p.command, rfl, fun packet => ⟨_, hport packet⟩⟩

theorem length_createPacket (destAddress localAddress : NodeAddress) (payload : Bytes) :
    (createPacket destAddress localAddress payload).length = payload.length + 10 := by
  simp only [createPacket, Sharp.createCommandHeader, List.length_append, List.length_cons,
    List.length_nil, NodeAddress.length_bytes]
  omega

/-- A balance is not a failure. -/
theorem sendDogeCoinBalance_ne (localAddress destNode : NodeAddress) (balance : UInt64) (pin : Pin)
    (success : Bool) (request : DogeCommandType) (code : DogeResponseCode) :
    sendDogeCoinBalance localAddress destNode (obfuscateDogeCoinBalance balance pin) ≠
      sendGenericDogeResponse localAddress destNode success request code := by
  intro hsame
  have hlength := congrArg List.length hsame
  rw [sendDogeCoinBalance, sendGenericDogeResponse, length_createPacket, length_createPacket,
    List.length_cons, obfuscateDogeCoinBalance, List.length_mapIdx,
    LittleEndian.length_toBytes] at hlength
  cases hlength

/-- **A request for a balance.** It is answered with one exactly if the hub has the address in
the form of the request. -/
theorem findsBalance_iff (hlen : address.length ≤ 246) :
    FindsBalance library hub src
        (some (HostPacket.command ⟨src, dest, DogeCommandType.requestBalance.code :: address⟩)) ↔
      address ∈ hub.dogeAddressBook := by
  let payload := DogeCommandType.requestBalance.code :: address
  have hserve : processDogePayload library src payload hub =
      Sharp.serviceBalanceRequest library src payload hub := rfl
  rw [Sharp.serviceBalanceRequest_cons] at hserve
  have hroom : (DogeCommandType.requestBalance.code :: address).length ≤ 247 := by
    rw [List.length_cons]
    omega
  cases hlookup : hub.dogeAddressBook.lookup address with
  | some entry =>
      rw [hlookup] at hserve
      refine iff_of_true ?_ (Sharp.mem_of_lookup hub hlookup)
      exact ⟨_, entry.pin, (answers_iff library hub ⟨src, dest, _⟩ hroom hserve).mpr rfl⟩
  | none =>
      rw [hlookup] at hserve
      refine iff_of_false ?_ (AList.lookup_eq_none.mp hlookup)
      rintro ⟨balance, pin, hanswer⟩
      have hreplies := (answers_iff library hub ⟨src, dest, _⟩ hroom hserve).mp hanswer
      exact sendDogeCoinBalance_ne _ _ _ _ _ _ _ (List.cons.inj hreplies).1

/-- A request for the outputs of an address that the hub has. -/
theorem findsOutputs_of_mem (hlen : address.length ≤ 246) (hmem : address ∈ hub.dogeAddressBook) :
    FindsOutputs library hub src
      (some (HostPacket.command ⟨src, dest, DogeCommandType.getUTXOs.code :: address⟩)) := by
  have hserve : processDogePayload library src (DogeCommandType.getUTXOs.code :: address) hub =
      Sharp.serviceUTXORequest library src (DogeCommandType.getUTXOs.code :: address) hub :=
    rfl
  rw [Sharp.serviceUTXORequest, Sharp.extractDogecoinAddress_cons, Sharp.bind_ok,
    if_pos hmem] at hserve
  have hroom : (DogeCommandType.getUTXOs.code :: address).length ≤ 247 := by
    rw [List.length_cons]
    omega
  exact ⟨_, (answers_iff library hub ⟨src, dest, _⟩ hroom hserve).mpr rfl⟩

/-- The fields of a payload that registers or removes. -/
theorem registrationPayload_eq {function : RegistrationFunction} (hfunction : function ≠ .updatePin)
    (address : Bytes) (pin : Pin) :
    registrationPayload function address pin =
      RegistrationRequest.payload DogeCommandType.registration.code
        ⟨function.code, address, pin, pin⟩ := by
  have hne : function.code ≠ RegistrationFunction.updatePin.code := by
    cases function
    · decide
    · decide
    · exact absurd rfl hfunction
  have hcode : (RegistrationRequest.mk function.code address pin pin).regOpcode ≠
      RegistrationFunction.updatePin.code := hne
  exact (RegistrationRequest.payload_of_ne _ hcode).symm

/-- A registration is refused exactly if the hub has the address in the same form. -/
theorem refused_iff (hshort : address.length ≤ Sharp.maxAddressLength) (sender : NodeAddress)
    (pin : Pin) :
    processDogePayload library sender (registrationPayload .addRegistration address pin) hub =
        .ok (hub, [sendGenericDogeResponse hub.localAddress sender false .registration
          .alreadyRegistered]) ↔
      address ∈ hub.dogeAddressBook := by
  rw [registrationPayload_eq (by decide), Sharp.processDogePayload_registration,
    RegistrationRequest.perform, if_pos hshort, RegistrationFunction.ofCode?_code]
  cases hlookup : hub.dogeAddressBook.lookup address with
  | some entry =>
      simp only [Sharp.addRegistration_of_lookup library.toWatchLibrary sender pin hub hlookup]
      exact iff_of_true trivial (Sharp.mem_of_lookup hub hlookup)
  | none =>
      refine iff_of_false ?_ (AList.lookup_eq_none.mp hlookup)
      intro hrefused
      have hhub := (Prod.mk.inj (Except.ok.inj hrefused)).1
      have hadd := Sharp.addRegistration_of_none library.toWatchLibrary sender pin hub hlookup
      simp only [hadd] at hhub
      have hbook := congrArg (fun after : Hub W => after.dogeAddressBook.lookup address) hhub
      simp only [AList.lookup_insert, hlookup] at hbook
      cases hbook

end Finding

/-- **The forms at the hub.** An address that the hub has as serdog sends it has one registration
exactly if the hub has its characters as well. -/
theorem oneRegistration_iff_mem (a : DogeAddress) (hfield : a.field.toList ∈ hub.dogeAddressBook) :
    OneRegistration library hub a ↔ a.text ∈ hub.dogeAddressBook := by
  have hascii : asciiGetBytes a.text = a.text :=
    Sharp.asciiGetBytes_of_ascii fun char hmem => (a.isAscii char hmem).2
  have htext : a.text.length ≤ Sharp.maxAddressLength := by
    rw [a.length_eq]
    decide
  have hroom : a.field.toList.length ≤ 246 := by
    rw [Vector.length_toList]
    decide
  have hsharp : ∀ src dest, Sharp.requestDogeCoinBalance src dest (asciiGetBytes a.text) =
      HostPacket.command ⟨src, dest, DogeCommandType.requestBalance.code :: a.text⟩ := by
    intro src dest
    rw [hascii]
    exact Sharp.createPacket_eq ⟨src, dest, DogeCommandType.requestBalance.code :: a.text⟩
  apply Iff.intro
  · intro hone
    exact (refused_iff library hub htext ⟨0, 0, 0⟩ (Pin.of 0 0 0 0)).mp (hone.refused _ _)
  · intro hmem
    constructor
    · intro src dest
      rw [Serdog.cmdRequestBalance, Serdog.cmdRequestForAddress_eq]
      exact (findsBalance_iff library hub hroom).mpr hfield
    · intro src dest
      rw [Serdog.cmdRequestUTXOs, Serdog.cmdRequestForAddress_eq]
      exact findsOutputs_of_mem library hub hroom hfield
    · intro src dest
      rw [hsharp]
      exact (findsBalance_iff library hub (by rw [a.length_eq]; decide)).mpr hmem
    · intro sender pin
      exact (refused_iff library hub htext sender pin).mpr hmem

/-! ## Runs -/

/-- A payload that the hub can serve; any other takes it down. -/
structure Arrival where
  sender : NodeAddress
  payload : Bytes
  fits : Sharp.DogePayloadFits payload

/-- The hub serves a payload. -/
def serveArrival (hub : Hub W) (arrival : Arrival) : Hub W × List Bytes :=
  match processDogePayload library arrival.sender arrival.payload hub with
  | .ok result => result
  | .error _ => (hub, [])

/-- The hub once it has served the first `n` payloads. -/
def hubAfter (start : Hub W) (arrivals : List Arrival) (n : Nat) : Hub W :=
  (LoggedRun.run (serveArrival library) start (arrivals.take n)).1

theorem processDogePayload_arrival (arrival : Arrival) :
    processDogePayload library arrival.sender arrival.payload hub =
      .ok (serveArrival library hub arrival) := by
  rcases (Sharp.completes_processDogePayload library arrival.sender arrival.payload hub).mpr
    arrival.fits with ⟨result, hresult⟩
  rw [serveArrival, hresult]

/-- The payload leaves the address with serdog's form only: it registers the field while the
characters are not registered, or takes the characters out under their PIN. -/
def SplitsForms (a : DogeAddress) (payload : Bytes) : Prop :=
  (∃ pin : Pin, payload = registrationPayload .addRegistration a.field.toList pin ∧
    a.field.toList ∉ hub.dogeAddressBook ∧ a.text ∉ hub.dogeAddressBook) ∨
  ∃ entry ∈ hub.dogeAddressBook.lookup a.text,
    payload = registrationPayload .removeRegistration a.text entry.pin ∧
      a.field.toList ∈ hub.dogeAddressBook

/-- Only a registration changes the book. -/
theorem dogeAddressBook_of_ne {sender : NodeAddress} {command : UInt8} {rest : Bytes}
    {next : Hub W} {replies : List Bytes}
    (hcommand : command ≠ DogeCommandType.registration.code)
    (hserved : processDogePayload library sender (command :: rest) hub = .ok (next, replies)) :
    next.dogeAddressBook = hub.dogeAddressBook := by
  have hfirst : Sharp.index (command :: rest) 0 = .ok command := rfl
  have hsame : ∀ {other : Hub W} {sent : List Bytes}, other.dogeAddressBook = hub.dogeAddressBook →
      (.ok (other, sent) : Sharp.Throws _) = .ok (next, replies) →
        next.dogeAddressBook = hub.dogeAddressBook := by
    intro other sent hbook hresult
    rw [← (Prod.mk.inj (Except.ok.inj hresult)).1]
    exact hbook
  rw [processDogePayload, hfirst, Sharp.bind_ok] at hserved
  cases hfound : DogeCommandType.ofCode? command with
  | none =>
      rw [hfound] at hserved
      exact hsame rfl hserved
  | some commType =>
      rw [hfound] at hserved
      cases commType with
      | registration =>
          exact absurd (DogeCommandType.code_of_ofCode? hfound).symm hcommand
      | sendDogeAddress =>
          simp only [Sharp.receiveDogeAddress] at hserved
          split at hserved
          · rw [Sharp.extractDogecoinAddress_cons] at hserved
            exact hsame rfl hserved
          · exact hsame rfl hserved
      | getDogeAddress =>
          simp only [Sharp.sendDogeAddress] at hserved
          split at hserved
          · refine hsame ?_ hserved
            rfl
          · refine hsame ?_ hserved
            rfl
      | requestBalance =>
          simp only [Sharp.serviceBalanceRequest_cons] at hserved
          split at hserved
          · exact hsame rfl hserved
          · exact hsame rfl hserved
      | getUTXOs =>
          simp only [Sharp.serviceUTXORequest, Sharp.extractDogecoinAddress_cons,
            Sharp.bind_ok] at hserved
          split at hserved
          · exact hsame rfl hserved
          · exact hsame rfl hserved
      | transactionRequest =>
          have hpos : 0 < (command :: rest).length := Nat.succ_pos _
          rcases Sharp.completes_copyRest hpos with ⟨raw, hraw⟩
          simp only [Sharp.serviceTransactionRequest] at hserved
          rw [hraw, Sharp.bind_ok] at hserved
          refine hsame ?_ hserved
          rfl
      | broadcastReceived =>
          simp only [Sharp.processReceivedBroadcast] at hserved
          split at hserved
          · exact hsame rfl hserved
          · rename_i hlong
            rw [Sharp.index_eq_ok (Nat.lt_of_not_le fun hle => hlong (Nat.lt_succ_of_le hle)),
              Sharp.bind_ok] at hserved
            exact hsame rfl hserved
      | sendUTXOs => exact hsame rfl hserved
      | balanceReceived => exact hsame rfl hserved
      | dogeCommandSuccess => exact hsame rfl hserved
      | dogeCommandFailure => exact hsame rfl hserved
      | transactionResult => exact hsame rfl hserved

/-- The address is in the book if the view shows an entry. -/
theorem isSome_view_iff (address : Bytes) :
    (hub.dogeAddressBook.view address).isSome ↔ address ∈ hub.dogeAddressBook := by
  rw [Sharp.AddressBook.view, Option.isSome_map]
  exact AList.lookup_isSome

theorem view_eq_none_iff (address : Bytes) :
    hub.dogeAddressBook.view address = none ↔ address ∉ hub.dogeAddressBook := by
  rw [← isSome_view_iff, Option.not_isSome_iff_eq_none]

theorem code_ne_updatePin {function : RegistrationFunction} (hfunction : function ≠ .updatePin) :
    function.code ≠ RegistrationFunction.updatePin.code := by
  cases function with
  | addRegistration => decide
  | removeRegistration => decide
  | updatePin => exact absurd rfl hfunction

/-- What stands in a payload that registers or removes. -/
theorem fields_of_payload {r : RegistrationRequest} {function : RegistrationFunction}
    (hfunction : function ≠ .updatePin) {address : Bytes} {pin : Pin}
    (hpayload : r.payload DogeCommandType.registration.code =
      registrationPayload function address pin) :
    r.regOpcode = function.code ∧ r.address = address ∧ r.pin = pin := by
  have hopcode : r.regOpcode = function.code := by
    rw [RegistrationRequest.payload, registrationPayload] at hpayload
    exact (List.cons.inj (List.cons.inj hpayload).2).1
  have hother := hopcode.trans_ne (code_ne_updatePin hfunction)
  rw [RegistrationRequest.payload_of_ne _ hother, registrationPayload] at hpayload
  have hfields := (List.cons.inj (List.cons.inj hpayload).2).2
  rcases List.append_inj' hfields (by rw [Vector.length_toList, Vector.length_toList])
    with ⟨haddress, hpin⟩
  exact ⟨hopcode, haddress, Vector.toList_inj.mp hpin⟩

/-- A payload whose fields ask for one of the operations. -/
theorem payload_of_fields {r : RegistrationRequest} {function : RegistrationFunction}
    (hfunction : function ≠ .updatePin) (hopcode : r.regOpcode = function.code) :
    r.payload DogeCommandType.registration.code =
      registrationPayload function r.address r.pin := by
  have hother := hopcode.trans_ne (code_ne_updatePin hfunction)
  rw [RegistrationRequest.payload_of_ne _ hother, registrationPayload, hopcode]

/-- What a function asks of the book. -/
def requested (r : RegistrationRequest) : RegistrationFunction → Request Bytes Pin
  | .updatePin => .change r.address r.pin r.newPin
  | .addRegistration => .add r.address r.pin
  | .removeRegistration => .remove r.address r.pin

theorem request?_of_function {r : RegistrationRequest} {function : RegistrationFunction}
    (hshort : r.address.length ≤ Sharp.maxAddressLength) (hopcode : r.regOpcode = function.code) :
    r.request? = some (requested r function) := by
  rw [RegistrationRequest.request?, if_pos hshort, hopcode, RegistrationFunction.ofCode?_code]
  cases function
  all_goals rfl

theorem exists_function_of_request? {r : RegistrationRequest} {request : Request Bytes Pin}
    (hrequest : r.request? = some request) :
    ∃ function : RegistrationFunction, r.regOpcode = function.code ∧
      request = requested r function := by
  rw [RegistrationRequest.request?] at hrequest
  split at hrequest
  · cases hfunction : RegistrationFunction.ofCode? r.regOpcode with
    | none =>
        rw [hfunction] at hrequest
        cases hrequest
    | some function =>
        rw [hfunction] at hrequest
        refine ⟨function, (RegistrationFunction.code_of_ofCode? hfunction).symm, ?_⟩
        cases function
        all_goals exact (Option.some.inj hrequest).symm
  · cases hrequest

/-- A payload splits the forms if its request separates them in the book. -/
theorem splitsForms_iff (a : DogeAddress) (r : RegistrationRequest) :
    SplitsForms hub a (r.payload DogeCommandType.registration.code) ↔
      ∃ request ∈ r.request?,
        Separates a.field.toList a.text request hub.dogeAddressBook.view := by
  apply Iff.intro
  · rintro (⟨pin, hpayload, hfield, htext⟩ | ⟨entry, hentry, hpayload, hfield⟩)
    · rcases fields_of_payload (by decide) hpayload with ⟨hopcode, haddress, rfl⟩
      have hshort : r.address.length ≤ Sharp.maxAddressLength := by
        rw [haddress, Vector.length_toList]
      refine ⟨_, request?_of_function hshort hopcode, .inl ⟨r.pin, ?_, ?_, ?_⟩⟩
      · rw [requested, haddress]
      · exact (view_eq_none_iff hub _).mpr hfield
      · exact (view_eq_none_iff hub _).mpr htext
    · rcases fields_of_payload (by decide) hpayload with ⟨hopcode, haddress, hpin⟩
      have hshort : r.address.length ≤ Sharp.maxAddressLength := by
        rw [haddress, a.length_eq]
        decide
      refine ⟨_, request?_of_function hshort hopcode, .inr ⟨r.pin, ?_, ?_, ?_⟩⟩
      · rw [requested, haddress]
      · rw [requested, haddress]
        exact ⟨_, Sharp.view_of_lookup hentry, hpin.symm⟩
      · exact (isSome_view_iff hub _).mpr hfield
  · rintro ⟨request, hrequest, hsplit⟩
    rcases exists_function_of_request? hrequest with ⟨function, hopcode, hfunction⟩
    rcases hsplit with ⟨secret, hadd, hfield, htext⟩ | ⟨secret, hremove, hgranted, hfield⟩
    · rw [hadd] at hfunction
      cases function with
      | addRegistration =>
          rcases Request.add.inj hfunction with ⟨haddress, -⟩
          refine .inl ⟨r.pin, ?_, (view_eq_none_iff hub _).mp hfield,
            (view_eq_none_iff hub _).mp htext⟩
          rw [payload_of_fields (by decide) hopcode, haddress]
      | removeRegistration => cases hfunction
      | updatePin => cases hfunction
    · subst hremove
      cases function with
      | removeRegistration =>
          rcases Request.remove.inj hfunction with ⟨haddress, hsecret⟩
          rcases hgranted with ⟨stored, hstored, hpin⟩
          rcases Option.map_eq_some_iff.mp hstored with ⟨entry, hentry, rfl⟩
          refine .inr ⟨entry, hentry, ?_, (isSome_view_iff hub _).mp hfield⟩
          rw [payload_of_fields (by decide) hopcode, haddress, ← hsecret, ← hpin]
      | addRegistration => cases hfunction
      | updatePin => cases hfunction

/-- **One payload.** If the characters are registered whenever the field is, they still are
exactly if the payload does not split the forms. -/
theorem follows_serveArrival_iff (a : DogeAddress) (arrival : Arrival)
    (hfollows : a.field.toList ∈ hub.dogeAddressBook → a.text ∈ hub.dogeAddressBook) :
    (a.field.toList ∈ (serveArrival library hub arrival).1.dogeAddressBook →
        a.text ∈ (serveArrival library hub arrival).1.dogeAddressBook) ↔
      ¬ SplitsForms hub a arrival.payload := by
  have hserved := processDogePayload_arrival library hub arrival
  rcases arrival with ⟨sender, payload, hfits⟩
  match payload, hfits with
  | command :: rest, hfits =>
      by_cases hcommand : command = DogeCommandType.registration.code
      · rcases Sharp.exists_request_of_fits (hfits hcommand) with ⟨header, r, hr⟩
        have hheader : header = DogeCommandType.registration.code := by
          rw [← hcommand]
          exact (List.cons.inj hr).1.symm
        subst hheader
        simp only [hr] at hserved ⊢
        rw [Sharp.processDogePayload_registration] at hserved
        have hnext := congrArg Prod.fst (Except.ok.inj hserved)
        rw [← hnext, splitsForms_iff, ← isSome_view_iff, ← isSome_view_iff, Sharp.view_perform]
        rw [← isSome_view_iff, ← isSome_view_iff] at hfollows
        cases hrequest : r.request? with
        | none => exact iff_of_true hfollows fun ⟨request, hnone, _⟩ => by cases hnone
        | some request =>
            have hone : (∃ other ∈ some request,
                Separates a.field.toList a.text other hub.dogeAddressBook.view) ↔
                  Separates a.field.toList a.text request hub.dogeAddressBook.view :=
              ⟨fun ⟨other, hother, hsplit⟩ => by rwa [Option.some.inj hother],
                fun hsplit => ⟨request, rfl, hsplit⟩⟩
            rw [hone]
            exact follows_serve_iff a.field_ne_text hfollows
      · have hbook : (serveArrival library hub
            ⟨sender, command :: rest, hfits⟩).1.dogeAddressBook = hub.dogeAddressBook :=
          dogeAddressBook_of_ne library hub hcommand hserved
        rw [hbook]
        refine iff_of_true hfollows ?_
        rintro (⟨pin, hpayload, -⟩ | ⟨entry, -, hpayload, -⟩)
        · exact hcommand (List.cons.inj hpayload).1
        · exact hcommand (List.cons.inj hpayload).1

/-- The registration that serdog sends enters the field. -/
theorem field_mem_of_register (a : DogeAddress) (src dest : NodeAddress) (pin : Pin)
    (packet : Sharp.MultipartPacket) :
    ∃ written ∈ Serdog.cmdRegisterDogeAddress src dest a.field pin false, ∃ next replies,
      Sharp.portDataReceived library (onAir written) ⟨hub, packet⟩ = .ok (next, replies) ∧
        a.field.toList ∈ next.hub.dogeAddressBook := by
  let r : RegistrationRequest :=
    ⟨RegistrationFunction.addRegistration.code, a.field.toList, pin, pin⟩
  have hpayload : r.payload DogeCommandType.registration.code =
      registrationPayload .addRegistration a.field.toList pin :=
    payload_of_fields (by decide) rfl
  have hlength : (r.payload DogeCommandType.registration.code).length = 41 := by
    rw [hpayload, registrationPayload, List.length_cons, List.length_cons, List.length_append,
      Vector.length_toList, Vector.length_toList]
    rfl
  have hwritten : Serdog.cmdRegisterDogeAddress src dest a.field pin false =
      some (HostPacket.command ⟨src, dest, r.payload DogeCommandType.registration.code⟩) := by
    rw [hpayload]
    apply Serdog.cmdSendMessage_payload
    · rw [List.length_cons, List.length_cons, List.length_append, Vector.length_toList,
        Vector.length_toList]
      rfl
    · decide
  refine ⟨_, hwritten, _, _, Sharp.portDataReceived_registration library src dest r
    (by rw [hlength]; decide) ⟨hub, packet⟩, ?_⟩
  have hperform : r.perform library.toWatchLibrary src hub =
      Sharp.addRegistration library.toWatchLibrary src a.field.toList pin hub := by
    rw [RegistrationRequest.perform, if_pos Vector.length_toList.le,
      RegistrationFunction.ofCode?_code]
  rw [hperform]
  cases hlookup : hub.dogeAddressBook.lookup a.field.toList with
  | some entry =>
      rw [Sharp.addRegistration_of_lookup library.toWatchLibrary src pin hub hlookup]
      exact Sharp.mem_of_lookup hub hlookup
  | none =>
      rw [Sharp.addRegistration_of_none library.toWatchLibrary src pin hub hlookup]
      exact AList.mem_insert _ |>.mpr (.inl rfl)

end Requests

/-! ## The two forms over a run -/

section OverRuns

variable {W : Type} (library : LibDogecoin W)

/-- **One address, one registration.** A hub that starts with an empty book serves any payloads.
Whenever it has the address as serdog sends it, the address has one registration: this holds all
along the run exactly if no payload of the run splits the two forms. -/
theorem one_registration_iff (a : DogeAddress) (localAddress : NodeAddress) (wallet : W)
    (arrivals : List Arrival) :
    (∀ n, a.field.toList ∈ (hubAfter library ⟨localAddress, ∅, wallet⟩ arrivals n).dogeAddressBook →
        OneRegistration library (hubAfter library ⟨localAddress, ∅, wallet⟩ arrivals n) a) ↔
      ∀ n arrival, arrivals[n]? = some arrival →
        ¬ SplitsForms (hubAfter library ⟨localAddress, ∅, wallet⟩ arrivals n) a arrival.payload := by
  have hstates : ∀ hub : Hub W,
      (a.field.toList ∈ hub.dogeAddressBook → OneRegistration library hub a) ↔
        (a.field.toList ∈ hub.dogeAddressBook → a.text ∈ hub.dogeAddressBook) := by
    intro hub
    apply forall_congr'
    intro hfield
    exact oneRegistration_iff_mem library hub a hfield
  rw [forall_congr' fun n => hstates _]
  apply LoggedRun.forall_take_iff
    (fun (_ : List Arrival) (hub : Hub W) (_ : List Bytes) =>
      a.field.toList ∈ hub.dogeAddressBook → a.text ∈ hub.dogeAddressBook)
    (fun (hub : Hub W) (arrival : Arrival) => ¬ SplitsForms hub a arrival.payload)
  · exact fun hfield => absurd hfield (AList.notMem_empty _)
  · intro before hub log arrival _ hfollows
    exact follows_serveArrival_iff library hub a arrival hfollows

end OverRuns

/-- An address that begins with `D`. -/
def someAddress : DogeAddress where
  text := List.replicate 34 68
  length_eq := rfl
  isAscii := by
    intro char hmem
    rw [List.eq_of_mem_replicate hmem]
    decide

/-- serdog on 10.0.2 registers it. -/
def serdogRegisters : Arrival where
  sender := ⟨10, 0, 2⟩
  payload := registrationPayload .addRegistration someAddress.field.toList (Pin.of 1 2 3 4)
  fits := by decide

/-- The request of the other client is answered as if nothing were registered, and the
characters can be registered once more. -/
theorem characters_unknown_after_serdog :
    (Sharp.portDataReceived Sharp.idleLibrary (onAir (Sharp.requestDogeCoinBalance ⟨10, 0, 3⟩
        ⟨10, 0, 1⟩ (asciiGetBytes someAddress.text)))
      ⟨hubAfter Sharp.idleLibrary ⟨⟨10, 0, 1⟩, ∅, ()⟩ [serdogRegisters] 1, .fresh⟩).map Prod.snd =
        .ok [sendGenericDogeResponse ⟨10, 0, 1⟩ ⟨10, 0, 3⟩ false .requestBalance .notRegistered] ∧
      (processDogePayload Sharp.idleLibrary ⟨10, 0, 3⟩
        (registrationPayload .addRegistration someAddress.text (Pin.of 5 6 7 8))
        (hubAfter Sharp.idleLibrary ⟨⟨10, 0, 1⟩, ∅, ()⟩ [serdogRegisters] 1)).map Prod.snd =
        .ok [sendGenericDogeResponse ⟨10, 0, 1⟩ ⟨10, 0, 3⟩ true .registration .success] ∧
      ¬ ∀ n, someAddress.field.toList ∈ (hubAfter Sharp.idleLibrary ⟨⟨10, 0, 1⟩, ∅, ()⟩
          [serdogRegisters] n).dogeAddressBook →
        OneRegistration Sharp.idleLibrary
          (hubAfter Sharp.idleLibrary ⟨⟨10, 0, 1⟩, ∅, ()⟩ [serdogRegisters] n) someAddress := by
  refine ⟨by rfl, by rfl, ?_⟩
  intro hall
  have hfield : someAddress.field.toList ∈ (hubAfter Sharp.idleLibrary ⟨⟨10, 0, 1⟩, ∅, ()⟩
      [serdogRegisters] 1).dogeAddressBook := by decide +kernel
  have hone := hall 1 hfield
  rw [oneRegistration_iff_mem _ _ _ hfield] at hone
  exact absurd hone (by decide +kernel)

end RadioDoge
