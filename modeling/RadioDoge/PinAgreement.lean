/-
# The PIN at the client and at the hub

serdog sets its PIN when it sends a request, and the hub decides later, if the request
arrives at all. The two agree on a registered address as long as a request that was sent
is also granted. A new PIN that is lost on the way, and an address registered again under
another PIN, leave the client with a PIN that the hub does not have.
-/

import RadioDoge.Serdog.Registration
import RadioDoge.Sharp.PortData

namespace RadioDoge

open Serdog (PinAction Registrant)
open Sharp (Host Hub LibDogecoin RegistrationRequest WatchLibrary)

variable {W : Type}

/-! ## The system -/

/-- A client and a hub. Commands that were written and whose packets have not arrived yet
are on the way, oldest first. -/
structure PinLink (W : Type) where
  registrant : Registrant
  host : Host W
  requests : List Bytes
  replies : List Bytes

/-- The packet that a radio node transmits for a command of its host. -/
def onAir (command : Bytes) : Bytes := command.drop serialHeaderSize

/-- The firmware transmits it. -/
theorem transmissions_onAir (p : HostPacket) (hlen : p.frame.length ≤ 255) (node : Heltec.Node) :
    Heltec.transmissions (node.hostSerialRead p.command).2 = [onAir p.command] :=
  Heltec.Node.transmissions_hostSerialRead (.inl rfl) hlen node

/-- What can happen: the user acts, and a packet arrives or is lost. -/
inductive PinEvent
  | act (action : PinAction)
  | deliverRequest
  | loseRequest
  | deliverReply
  | loseReply
  deriving DecidableEq

namespace PinLink

/-- One event. -/
def step (library : LibDogecoin W) : PinEvent → PinLink W → Option (PinLink W)
  | .act action, net =>
      (net.registrant.act action).2.map fun command =>
        { net with
          registrant := (net.registrant.act action).1
          requests := net.requests ++ [command] }
  | .deliverRequest, net =>
      match net.requests with
      | request :: requests =>
          match Sharp.portDataReceived library (onAir request) net.host with
          | .ok (host, replies) =>
              some { net with host, requests, replies := net.replies ++ replies }
          | .error _ => none
      | [] => none
  | .loseRequest, net =>
      match net.requests with
      | _ :: requests => some { net with requests }
      | [] => none
  | .deliverReply, net =>
      match net.replies with
      | reply :: replies =>
          (net.registrant.client.process (Serdog.dispatch (onAir reply))).map fun client =>
            { net with registrant := { net.registrant with client }, replies }
      | [] => none
  | .loseReply, net =>
      match net.replies with
      | _ :: replies => some { net with replies }
      | [] => none

/-- Nothing is on the way. -/
def Quiet (net : PinLink W) : Prop := net.requests = [] ∧ net.replies = []

end PinLink

/-- The PIN under which the hub holds an address for a node. -/
def Sharp.Hub.pinOf (hub : Hub W) (address : Bytes) (node : NodeAddress) : Option Pin :=
  (hub.dogeAddressBook.lookup address).bind fun entry =>
    if entry.nodeAddress = node then some entry.pin else none

namespace PinLink

/-- The PIN under which the hub holds the loaded address for this client. -/
def registeredPin (net : PinLink W) : Option Pin :=
  net.host.hub.pinOf net.registrant.loadedDogeAddress.toList net.registrant.myaddr

/-- If the address is registered by this client, both have the same PIN for it. -/
def Agrees (net : PinLink W) : Prop :=
  ∀ stored : Pin, net.registeredPin = some stored → net.registrant.userPin = stored

/-- The event grants what was asked for: while the address is registered by this client, a
request to register it carries the stored PIN, and a request for a new PIN is lost only
if the new PIN is the stored one. -/
def Grants (event : PinEvent) (net : PinLink W) : Prop :=
  ∀ (r : RegistrationRequest) (rest : List Bytes) (stored : Pin),
    net.requests = (net.registrant.packet r).command :: rest →
      net.registeredPin = some stored →
        match event with
        | .deliverRequest =>
            r.regOpcode = RegistrationFunction.addRegistration.code → r.pin = stored
        | .loseRequest =>
            (r.regOpcode = RegistrationFunction.addRegistration.code → r.pin = stored) ∧
              (r.regOpcode = RegistrationFunction.updatePin.code → r.newPin = stored)
        | _ => True

/-- The runs whose events are allowed where they happen. -/
inductive Run (library : LibDogecoin W) (allowed : PinEvent → PinLink W → Prop)
    (start : PinLink W) : PinLink W → Prop
  | start : Run library allowed start start
  | step {net next : PinLink W} (event : PinEvent) (hrun : Run library allowed start net)
      (hallowed : allowed event net) (hstep : net.step library event = some next) :
      Run library allowed start next

end PinLink

/-! ## Requests on the way -/

namespace Serdog.PinAction

/-- The PIN of the client once it has acted. -/
def pinAfter (userPin : Pin) : PinAction → Pin
  | .register suppliedPin => suppliedPin
  | .remove => userPin
  | .update suppliedPin => suppliedPin

/-- The commands that a client writes for a series of actions, starting with a PIN. -/
def commands (packet : RegistrationRequest → HostPacket)
    (loadedDogeAddress : Vector UInt8 p2pkhAddrStringLen) : Pin → List PinAction → List Bytes
  | _, [] => []
  | userPin, action :: rest =>
      (packet (action.request loadedDogeAddress userPin)).command ::
        commands packet loadedDogeAddress (action.pinAfter userPin) rest

/-- One more action. -/
theorem commands_append_singleton (packet : RegistrationRequest → HostPacket)
    (loadedDogeAddress : Vector UInt8 p2pkhAddrStringLen) (action : PinAction)
    (actions : List PinAction) (userPin : Pin) :
    commands packet loadedDogeAddress userPin (actions ++ [action]) =
      commands packet loadedDogeAddress userPin actions ++
        [(packet (action.request loadedDogeAddress (actions.foldl pinAfter userPin))).command] := by
  induction actions generalizing userPin with
  | nil => rfl
  | cons first rest ih =>
      rw [List.cons_append, commands, ih, commands, List.foldl_cons, List.cons_append]

theorem length_payload_request_le (loadedDogeAddress : Vector UInt8 p2pkhAddrStringLen)
    (userPin : Pin) (action : PinAction) (header : UInt8) :
    ((action.request loadedDogeAddress userPin).payload header).length ≤ 247 := by
  have haddress : (action.request loadedDogeAddress userPin).address.length =
      p2pkhAddrStringLen := by
    cases action
    all_goals exact Vector.length_toList
  rw [RegistrationRequest.payload]
  simp only [List.length_cons, List.length_append, haddress, Vector.length_toList]
  split
  · rw [Vector.length_toList]
    decide
  · decide

end Serdog.PinAction

/-- The hub holds the address for the node under no PIN but this one. -/
def Sharp.Hub.HoldsOnly (hub : Hub W) (address : Bytes) (node : NodeAddress) (pin : Pin) : Prop :=
  ∀ stored : Pin, hub.pinOf address node = some stored → stored = pin

section OneRequest

open Sharp Sharp.RegistrationRequest

variable (library : WatchLibrary W) {hub : Hub W} {address : Bytes} {node : NodeAddress}
  {before : Pin}

theorem pinOf_of_lookup {entry : AddressBookEntry}
    (hentry : hub.dogeAddressBook.lookup address = some entry) :
    hub.pinOf address node = if entry.nodeAddress = node then some entry.pin else none := by
  rw [Hub.pinOf, hentry, Option.bind_some]

theorem pinOf_of_lookup_none (hfree : hub.dogeAddressBook.lookup address = none) :
    hub.pinOf address node = none := by
  rw [Hub.pinOf, hfree, Option.bind_none]

/-- An address is registered under the PIN of the request, or was so before. -/
theorem holdsOnly_addRegistration {pin : Pin} (hheld : hub.HoldsOnly address node pin) :
    (addRegistration library node address pin hub).hub.HoldsOnly address node pin := by
  cases hlookup : hub.dogeAddressBook.lookup address with
  | some entry =>
      rw [addRegistration_of_lookup library node pin hub hlookup]
      exact hheld
  | none =>
      rw [addRegistration_of_none library node pin hub hlookup]
      intro stored hstored
      rw [pinOf_of_lookup (AList.lookup_insert _), if_pos rfl] at hstored
      exact (Option.some.inj hstored).symm

/-- An address that is removed is held under no PIN. -/
theorem holdsOnly_removeRegistration {pin : Pin} (hheld : hub.HoldsOnly address node before) :
    (removeRegistration library address pin hub).hub.HoldsOnly address node before := by
  cases hlookup : hub.dogeAddressBook.lookup address with
  | none =>
      rw [removeRegistration_of_none library pin hub hlookup]
      exact hheld
  | some entry =>
      by_cases hpin : pin = entry.pin
      · subst hpin
        rw [removeRegistration_of_pin library hub hlookup]
        intro stored hstored
        rw [pinOf_of_lookup_none (AList.lookup_erase _ _)] at hstored
        cases hstored
      · rw [removeRegistration_of_ne library pin hub hlookup hpin]
        exact hheld

/-- A new PIN is granted to the one who has the old one. -/
theorem holdsOnly_changePin {new : Pin} (hheld : hub.HoldsOnly address node before) :
    (changePin address before new hub).hub.HoldsOnly address node new := by
  cases hlookup : hub.dogeAddressBook.lookup address with
  | none =>
      rw [changePin_of_none before new hub hlookup]
      intro stored hstored
      rw [pinOf_of_lookup_none hlookup] at hstored
      cases hstored
  | some entry =>
      by_cases hpin : before = entry.pin
      · subst hpin
        rw [changePin_of_pin new hub hlookup]
        intro stored hstored
        rw [pinOf_of_lookup (AList.lookup_insert _)] at hstored
        split at hstored
        · exact (Option.some.inj hstored).symm
        · cases hstored
      · rw [changePin_of_ne before new hub hlookup hpin]
        intro stored hstored
        have hsame := hheld stored hstored
        rw [pinOf_of_lookup hlookup] at hstored
        split at hstored
        · exact absurd ((Option.some.inj hstored).trans hsame).symm hpin
        · cases hstored

/-- **One request.** Its action takes the hub from the PIN before to the PIN after, if an
address that is registered again keeps its PIN. -/
theorem holdsOnly_perform (loadedDogeAddress : Vector UInt8 Serdog.p2pkhAddrStringLen)
    (action : PinAction)
    (hheld : hub.HoldsOnly loadedDogeAddress.toList node before)
    (hregister : ∀ suppliedPin : Pin, action = .register suppliedPin →
      hub.HoldsOnly loadedDogeAddress.toList node suppliedPin) :
    ((action.request loadedDogeAddress before).perform library node hub).hub.HoldsOnly
      loadedDogeAddress.toList node (action.pinAfter before) := by
  have hlen : loadedDogeAddress.toList.length ≤ maxAddressLength :=
    (Vector.length_toList).le
  cases action with
  | register suppliedPin =>
      rw [PinAction.request, RegistrationRequest.perform, if_pos hlen,
        RegistrationFunction.ofCode?_code]
      exact holdsOnly_addRegistration library (hregister suppliedPin rfl)
  | remove =>
      rw [PinAction.request, RegistrationRequest.perform, if_pos hlen,
        RegistrationFunction.ofCode?_code]
      exact holdsOnly_removeRegistration library hheld
  | update suppliedPin =>
      rw [PinAction.request, RegistrationRequest.perform, if_pos hlen,
        RegistrationFunction.ofCode?_code]
      exact holdsOnly_changePin hheld

end OneRequest

/-! ## Runs -/

namespace PinLink

open Serdog.PinAction

/-- The PIN of the hub is the one the requests on the way begin with, and the PIN of the
client the one they end with. -/
def InStep (net : PinLink W) : Prop :=
  ∃ (pin : Pin) (actions : List PinAction),
    net.requests = commands net.registrant.packet net.registrant.loadedDogeAddress pin actions ∧
      net.registrant.userPin = actions.foldl pinAfter pin ∧
        net.host.hub.HoldsOnly net.registrant.loadedDogeAddress.toList net.registrant.myaddr pin

/-- With nothing on the way, the two are in step exactly if they agree. -/
theorem inStep_of_agrees {net : PinLink W} (hquiet : net.Quiet) (hagrees : net.Agrees) :
    net.InStep :=
  ⟨net.registrant.userPin, [], hquiet.1, rfl, fun stored hstored => (hagrees stored hstored).symm⟩

theorem agrees_of_inStep {net : PinLink W} (hquiet : net.Quiet) (hinStep : net.InStep) :
    net.Agrees := by
  obtain ⟨pin, actions, hrequests, hpin, hheld⟩ := hinStep
  rw [hquiet.1] at hrequests
  cases actions with
  | nil =>
      intro stored hstored
      rw [hpin]
      exact (hheld stored hstored).symm
  | cons action rest => cases hrequests

variable {library : LibDogecoin W} {net next : PinLink W}

/-- What an action of the user does. -/
theorem step_act (library : LibDogecoin W) (action : PinAction) (net : PinLink W) :
    net.step library (.act action) = some
      { net with
        registrant := (net.registrant.act action).1
        requests := net.requests ++ [(net.registrant.packet
          (action.request net.registrant.loadedDogeAddress net.registrant.userPin)).command] } := by
  rw [step, Registrant.act_command, Option.map_some]

/-- What the hub does with the request of an action. -/
theorem step_deliverRequest (library : LibDogecoin W) {net : PinLink W} {action : PinAction}
    {pin : Pin} {rest : List Bytes} (hrequests : net.requests = (net.registrant.packet
      (action.request net.registrant.loadedDogeAddress pin)).command :: rest) :
    ∃ reply : Bytes, net.step library .deliverRequest = some
      { net with
        host :=
          { net.host with
            hub := ((action.request net.registrant.loadedDogeAddress pin).perform
              library.toWatchLibrary net.registrant.myaddr net.host.hub).hub }
        requests := rest
        replies := net.replies ++ [reply] } := by
  have hserved := Sharp.portDataReceived_registration library net.registrant.myaddr
    net.registrant.rmaddr (action.request net.registrant.loadedDogeAddress pin)
    (length_payload_request_le _ _ _ _) net.host
  have hair : onAir (net.registrant.packet
      (action.request net.registrant.loadedDogeAddress pin)).command =
      HostPacket.frame ⟨net.registrant.myaddr, net.registrant.rmaddr,
        (action.request net.registrant.loadedDogeAddress pin).payload
          DogeCommandType.registration.code⟩ := rfl
  rw [step, hrequests]
  dsimp only
  rw [hair, hserved]
  exact ⟨_, rfl⟩

/-- The user acts: the request joins the others, and the PIN of the client moves on. -/
theorem inStep_act {action : PinAction} (hinStep : net.InStep)
    (hstep : net.step library (.act action) = some next) : next.InStep := by
  obtain ⟨pin, actions, hrequests, hpin, hheld⟩ := hinStep
  rw [step_act] at hstep
  obtain rfl := Option.some.inj hstep
  refine ⟨pin, actions ++ [action], ?_⟩
  rw [commands_append_singleton, List.foldl_append, ← hpin]
  cases action with
  | register suppliedPin =>
      exact ⟨congrArg (· ++ _) hrequests, rfl, hheld⟩
  | remove => exact ⟨congrArg (· ++ _) hrequests, rfl, hheld⟩
  | update suppliedPin => exact ⟨congrArg (· ++ _) hrequests, rfl, hheld⟩

/-- The oldest request arrives. -/
theorem inStep_deliverRequest (hinStep : net.InStep) (hgrants : Grants .deliverRequest net)
    (hstep : net.step library .deliverRequest = some next) : next.InStep := by
  obtain ⟨pin, actions, hrequests, hpin, hheld⟩ := hinStep
  cases actions with
  | nil =>
      rw [step, hrequests] at hstep
      cases hstep
  | cons action rest =>
      obtain ⟨reply, hserved⟩ := step_deliverRequest library hrequests
      obtain rfl := Option.some.inj (hserved.symm.trans hstep)
      refine ⟨action.pinAfter pin, rest, rfl, hpin, ?_⟩
      apply holdsOnly_perform library.toWatchLibrary _ action hheld
      rintro suppliedPin rfl stored hstored
      exact (hgrants _ _ stored hrequests hstored rfl).symm

/-- The oldest request is lost. -/
theorem inStep_loseRequest (hinStep : net.InStep) (hgrants : Grants .loseRequest net)
    (hstep : net.step library .loseRequest = some next) : next.InStep := by
  obtain ⟨pin, actions, hrequests, hpin, hheld⟩ := hinStep
  cases actions with
  | nil =>
      rw [step, hrequests] at hstep
      cases hstep
  | cons action rest =>
      rw [step, hrequests, commands] at hstep
      obtain rfl := Option.some.inj hstep
      refine ⟨action.pinAfter pin, rest, rfl, hpin, ?_⟩
      intro stored hstored
      cases action with
      | register suppliedPin =>
          exact ((hgrants _ _ stored hrequests hstored).1 rfl).symm
      | remove => exact hheld stored hstored
      | update suppliedPin =>
          exact ((hgrants _ _ stored hrequests hstored).2 rfl).symm

/-- A reply changes nothing that the two have to agree on. -/
theorem inStep_deliverReply (hinStep : net.InStep)
    (hstep : net.step library .deliverReply = some next) : next.InStep := by
  rw [step] at hstep
  split at hstep
  · obtain ⟨client, -, rfl⟩ := Option.map_eq_some_iff.mp hstep
    exact hinStep
  · cases hstep

theorem inStep_loseReply (hinStep : net.InStep)
    (hstep : net.step library .loseReply = some next) : next.InStep := by
  rw [step] at hstep
  split at hstep
  · obtain rfl := Option.some.inj hstep
    exact hinStep
  · cases hstep

/-- **One event.** An event that grants what was asked for keeps the two in step. -/
theorem inStep_step {event : PinEvent} (hinStep : net.InStep) (hgrants : Grants event net)
    (hstep : net.step library event = some next) : next.InStep := by
  cases event with
  | act action => exact inStep_act hinStep hstep
  | deliverRequest => exact inStep_deliverRequest hinStep hgrants hstep
  | loseRequest => exact inStep_loseRequest hinStep hgrants hstep
  | deliverReply => exact inStep_deliverReply hinStep hstep
  | loseReply => exact inStep_loseReply hinStep hstep

theorem inStep_run {start : PinLink W} (hstart : start.InStep)
    (hrun : Run library Grants start net) : net.InStep := by
  induction hrun with
  | start => exact hstart
  | step event _ hgrants hstep ih => exact inStep_step ih hgrants hstep

/-- **Agreement on the PIN.** A client and a hub start with nothing on the way and no
disagreement. In every run whose events grant what was asked for, they agree whenever
nothing is on the way. -/
theorem pin_agreement {start : PinLink W} (hquiet : start.Quiet) (hagrees : start.Agrees)
    (hrun : Run library Grants start net) (hnothing : net.Quiet) : net.Agrees :=
  agrees_of_inStep hnothing (inStep_run (inStep_of_agrees hquiet hagrees) hrun)

/-- A client and a hub that have just started. -/
def boot : PinLink Unit where
  registrant := ⟨⟨10, 0, 2⟩, ⟨10, 0, 1⟩, Vector.replicate _ 68, Pin.of 0 0 0 0, .boot⟩
  host := Sharp.freshHost
  requests := []
  replies := []

theorem boot_agrees : boot.Agrees := by
  intro stored hstored
  cases hstored

/-- The actions of the example. -/
def firstAction : PinAction := .register (Pin.of 1 2 3 4)

def secondAction : PinAction := .update (Pin.of 5 6 7 8)

/-- The client has asked to register its address under the PIN 1234. -/
def asked : PinLink Unit :=
  { boot with
    registrant := (boot.registrant.act firstAction).1
    requests := [(boot.registrant.packet
      (firstAction.request boot.registrant.loadedDogeAddress (Pin.of 0 0 0 0))).command] }

/-- The hub has registered it, and its reply is lost. -/
def registered : PinLink Unit :=
  { asked with
    host :=
      { asked.host with
        hub := ((firstAction.request asked.registrant.loadedDogeAddress (Pin.of 0 0 0 0)).perform
          Sharp.idleLibrary.toWatchLibrary ⟨10, 0, 2⟩ asked.host.hub).hub }
    requests := [] }

/-- The client has asked for the PIN 5678, and its request is lost. -/
def updated : PinLink Unit :=
  { registered with registrant := (registered.registrant.act secondAction).1 }

theorem registeredPin_registered : registered.registeredPin = some (Pin.of 1 2 3 4) := by
  rfl

/-- The run that registers the address. -/
theorem run_registered {allowed : PinEvent → PinLink Unit → Prop}
    (hact : allowed (.act firstAction) boot) (hdeliver : allowed .deliverRequest asked)
    (hlose : ∀ replies : List Bytes, allowed .loseReply { registered with replies }) :
    Run Sharp.idleLibrary allowed boot registered := by
  have hasked : Run Sharp.idleLibrary allowed boot asked :=
    Run.start.step _ hact (step_act Sharp.idleLibrary firstAction boot)
  have hrequest : asked.requests = (asked.registrant.packet
      (firstAction.request asked.registrant.loadedDogeAddress (Pin.of 0 0 0 0))).command :: [] := rfl
  obtain ⟨reply, hserved⟩ := step_deliverRequest Sharp.idleLibrary hrequest
  exact (hasked.step _ hdeliver hserved).step _ (hlose [reply]) rfl

/-- The address is registered, and both have the same PIN. -/
theorem pin_agreement_registered :
    registered.registeredPin = some (Pin.of 1 2 3 4) ∧ registered.Agrees := by
  have hrun : Run Sharp.idleLibrary Grants boot registered := by
    refine run_registered (fun _ _ _ _ _ => trivial) ?_ fun _ _ _ _ _ _ => trivial
    intro r rest stored _ hstored
    cases hstored
  exact ⟨registeredPin_registered, pin_agreement ⟨rfl, rfl⟩ boot_agrees hrun ⟨rfl, rfl⟩⟩

/-- **The PIN of the client is not always the one of the hub.** The request for a new PIN
is lost, and the client goes on with a PIN that the hub does not have. -/
theorem lost_update_disagrees :
    ¬ ∀ (W : Type) (library : LibDogecoin W) (start net : PinLink W), start.Quiet → start.Agrees →
      Run library (fun _ _ => True) start net → net.Quiet → net.Agrees := by
  intro hall
  have hrun : Run Sharp.idleLibrary (fun _ _ => True) boot registered :=
    run_registered trivial trivial fun _ => trivial
  have hupdated : Run Sharp.idleLibrary (fun _ _ => True) boot updated :=
    (hrun.step _ trivial (step_act Sharp.idleLibrary secondAction registered)).step .loseRequest
      trivial rfl
  have hagrees := hall Unit Sharp.idleLibrary boot updated ⟨rfl, rfl⟩ boot_agrees hupdated
    ⟨rfl, rfl⟩
  have hsame : updated.registrant.userPin = Pin.of 1 2 3 4 := hagrees _ registeredPin_registered
  exact absurd hsame (by decide)

end PinLink

end RadioDoge
