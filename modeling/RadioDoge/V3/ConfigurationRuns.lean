/-
# The configuration over restarts

The node address, the password of the access point, the gateway and the WiFi credentials are kept
in globals and in the flash storage. Requests of the web interface and of the host change both,
and a start loads the globals from the storage again. What a start loads is what the requests have
stored last (`restored_run`); whether a start changes a setting is decided by the last request that
is about the setting (`survives_run_iff`).

Opening the storage, writing to it and committing work, but for the clearing of the credentials,
where `nvs_open` may fail.
-/

import RadioDoge.V3.InternetBridge
import RadioDoge.V3.SerialOutput

namespace RadioDoge.V3

/-! ## Writing to the storage -/

/-- The flash storage: its namespaces, as far as there are any. -/
abbrev Flash : Type := String → Option NvsSpace

/-- Change a namespace. `nvs_open` makes it if there is none. -/
def Flash.write (flash : Flash) (name : String) (change : NvsSpace → NvsSpace) : Flash :=
  Function.update flash name (some (change ((flash name).getD NvsSpace.blank)))

/-- The texts have no NUL. -/
def Nvs.NulFree (nvs : Nvs) : Prop := ∀ key text, nvs.find key = some text → (0 : UInt8) ∉ text

theorem Nvs.NulFree.erase {nvs : Nvs} (hfree : nvs.NulFree) (key : String) :
    Nvs.NulFree (LimitedStore.erase nvs key) := by
  intro other text hfound
  by_cases hother : other = key
  · rw [hother, LimitedStore.find_erase_self] at hfound
    cases hfound
  · rw [LimitedStore.find_erase_of_ne _ hother] at hfound
    exact hfree other text hfound

theorem Nvs.NulFree.setStr {nvs : Nvs} (hfree : nvs.NulFree) (key : String) (value : Bytes) :
    Nvs.NulFree (nvsSetStr nvs key value) := by
  intro other text hfound
  by_cases hother : other = key
  · by_cases hkey : key.length ≤ 15
    · rw [hother, find_nvsSetStr_self _ hkey] at hfound
      rcases Option.some.inj hfound with rfl
      exact fun hmem => absurd (List.mem_takeWhile_imp hmem) (by decide)
    · rw [hother, (nvsSetStr nvs key value).find_of_not_allowed hkey] at hfound
      cases hfound
  · rw [find_nvsSetStr_of_ne _ hother] at hfound
    exact hfree other text hfound

theorem Nvs.NulFree.setStrIfAny {nvs : Nvs} (hfree : nvs.NulFree) (key : String) (value : Bytes) :
    Nvs.NulFree (nvsSetStrIfAny nvs key value) := by
  rw [nvsSetStrIfAny]
  split
  · exact hfree.setStr key value
  · exact hfree

/-- `saveGatewayCredentials` writes C strings. -/
theorem Nvs.NulFree.saveGateway {nvs : Nvs} (hfree : nvs.NulFree) (config : GatewayConfig) :
    Nvs.NulFree (saveGatewayCredentials config nvs) :=
  ((((((((hfree.erase _).erase _).erase _).setStr _ _).setStr _ _).setStr _ _).setStr _
    _).setStrIfAny _ _).setStrIfAny _ _

namespace NvsSpace

variable (space : NvsSpace)

/-- `nvs_set_u8`. -/
def setU8 (key : String) (value : UInt8) : NvsSpace :=
  { space with bytes := space.bytes.set key value }

/-- `nvs_erase_all`. -/
def eraseAll (_space : NvsSpace) : NvsSpace := blank

/-- `saveGatewayCredentials`, in its namespace. -/
def saveGateway (config : GatewayConfig) : NvsSpace where
  texts := saveGatewayCredentials config space.texts
  bytes := space.bytes
  no_nul := Nvs.NulFree.saveGateway space.no_nul config

variable {space} {key other : String}

/-- A text that is written is found. -/
theorem find_setStr_self (hkey : key.length ≤ 15) (value : Bytes) :
    (space.setStr key value).texts.find key = some (ofCString value) :=
  find_nvsSetStr_self _ hkey value

theorem find_setStr_of_ne (hother : other ≠ key) (value : Bytes) :
    (space.setStr key value).texts.find other = space.texts.find other :=
  find_nvsSetStr_of_ne _ hother value

/-- So is a byte. -/
theorem find_setU8_self (hkey : key.length ≤ 15) (value : UInt8) :
    (space.setU8 key value).bytes.find key = some value :=
  space.bytes.find_set_self hkey

theorem find_setU8_of_ne (hother : other ≠ key) (value : UInt8) :
    (space.setU8 key value).bytes.find other = space.bytes.find other :=
  space.bytes.find_set_of_ne hother

end NvsSpace

namespace Flash

variable (flash : Flash)

/-- `saveWiFiCredentials`. -/
def saveWiFiCredentials (ssid password : Bytes) : Flash :=
  flash.write "wifi_config" fun space => (space.setStr "ssid" ssid).setStr "password" password

/-- `saveLoRaConfiguration`. -/
def saveLoRaConfiguration (region community node : UInt8) : Flash :=
  flash.write "lora_config" fun space =>
    ((space.setU8 "region" region).setU8 "community" community).setU8 "node" node

/-- `saveAPPassword`. -/
def saveAPPassword (password : Bytes) : Flash :=
  flash.write "ap_config" (·.setStr "password" password)

end Flash

/-! ## Passwords -/

/-- `isalpha`. -/
def isAlpha (byte : UInt8) : Bool := 65 ≤ byte ∧ byte ≤ 90 ∨ 97 ≤ byte ∧ byte ≤ 122

/-- `validatePassword`. -/
def validatePassword (password : Bytes) : Bool :=
  if password.length < 8 ∨ password.length > 32 then false
  else
    let found := password.foldl
      (fun (found : Bool × Bool) c =>
        if isAlpha c then (true, found.2) else if isDigit c then (found.1, true) else found)
      (false, false)
    found.1 && found.2

/-- The flags of the loop. -/
theorem foldl_found (password : Bytes) (found : Bool × Bool) :
    password.foldl
        (fun (found : Bool × Bool) c =>
          if isAlpha c then (true, found.2) else if isDigit c then (found.1, true) else found)
        found =
      (found.1 || password.any isAlpha,
        found.2 || password.any fun c => !isAlpha c && isDigit c) := by
  induction password generalizing found with
  | nil => simp
  | cons c rest ih =>
      rw [List.foldl_cons, ih, List.any_cons, List.any_cons]
      cases isAlpha c with
      | true => simp
      | false => cases isDigit c <;> simp

/-- What passes: 8 to 32 bytes with a letter and a digit. -/
theorem validatePassword_iff (password : Bytes) :
    validatePassword password = true ↔
      8 ≤ password.length ∧ password.length ≤ 32 ∧ (∃ c ∈ password, isAlpha c = true) ∧
        ∃ c ∈ password, isDigit c = true := by
  have hdigit : ∀ c, isDigit c = true → isAlpha c = false := by
    intro c
    simp only [isDigit, isAlpha, Bool.decide_and, Bool.decide_or, Bool.and_eq_true,
      decide_eq_true_eq, Bool.or_eq_false_iff, Bool.and_eq_false_iff, decide_eq_false_iff_not,
      UInt8.le_iff_toNat_le, UInt8.reduceToNat]
    omega
  have hany : (password.any fun c => !isAlpha c && isDigit c) = password.any isDigit := by
    congr 1
    funext c
    cases hc : isDigit c with
    | false => exact Bool.and_false _
    | true =>
        rw [hdigit c hc]
        rfl
  rw [validatePassword]
  split
  · next hlength =>
      apply iff_of_false Bool.false_ne_true
      rintro ⟨hlow, hhigh, -, -⟩
      exact hlength.elim (Nat.not_lt.mpr hlow) (Nat.not_lt.mpr hhigh)
  · next hlength =>
      rcases not_or.mp hlength with ⟨hlow, hhigh⟩
      simp only [foldl_found, hany, Bool.false_or, Bool.and_eq_true, List.any_eq_true,
        Nat.not_lt.mp hlow, Nat.not_lt.mp hhigh, true_and]

/-- The default could not be set again. -/
example : validatePassword (ascii "radiodoge") = false := by decide

/-! ## The device -/

/-- The globals of the configuration with those of the WiFi functions, and the storage. -/
structure ConfiguredDevice where
  wifi : InternetWiFi
  flash : Flash

namespace ConfiguredDevice

variable (device : ConfiguredDevice)

/-- The globals that are loaded. -/
def globals : Configuration := device.wifi.globals

/-- The device with other globals. -/
def setGlobals (globals : Configuration) : ConfiguredDevice :=
  { device with wifi := { device.wifi with globals := globals } }

/-- The storage, for a load. -/
def session : NvsSession := ⟨device.flash, fun _ => false⟩

/-- `connectToInternetWiFi`. -/
def connectToInternetWiFi (status : Nat → Bool) : ConfiguredDevice where
  wifi := device.wifi.connectToInternetWiFi status
  flash :=
    if device.globals.internetSsid.length = 0 then device.flash
    else if status (waitForWiFi status 0 20 + 1) then
      device.flash.saveWiFiCredentials device.globals.internetSsid device.globals.internetPassword
    else device.flash

/-- `setupDualWiFi`. -/
def setupDualWiFi (status : Nat → Bool) : ConfiguredDevice :=
  let device := device.setGlobals (device.session.loadWiFiCredentials device.globals).1
  let device :=
    if device.globals.internetSsid.length > 0 then device.connectToInternetWiFi status
    else device
  { device with
    wifi :=
      if device.wifi.internetConnected then device.wifi.setupInternetBridge else device.wifi }

/-- `setup`, with the readings of `WiFi.status`: the globals are new, the storage stays. -/
def setup (status : Nat → Bool) : ConfiguredDevice :=
  let device : ConfiguredDevice := ⟨InternetWiFi.boot Configuration.boot, device.flash⟩
  let device := device.setGlobals (device.session.loadAPPassword device.globals).1
  let device := device.setGlobals (device.session.loadLoRaConfiguration device.globals).1
  let device := device.setGlobals (device.session.loadGatewayCredentials device.globals).1
  device.setupDualWiFi status

/-- The new local address, in memory and in the storage. -/
def setAddress (region community node : UInt8) : ConfiguredDevice where
  wifi := { device.wifi with
    globals := { device.globals with localAddress := ⟨region, community, node⟩ } }
  flash := device.flash.saveLoRaConfiguration region community node

/-- `clearLoRaConfiguration`. -/
def clearLoRaConfiguration : ConfiguredDevice where
  wifi := { device.wifi with globals := { device.globals with localAddress := ⟨10, 1, 1⟩ } }
  flash := device.flash.write "lora_config" NvsSpace.eraseAll

/-- `clearAPPassword`. -/
def clearAPPassword : ConfiguredDevice where
  wifi := { device.wifi with globals := { device.globals with apPassword := ascii "radiodoge" } }
  flash := device.flash.write "ap_config" NvsSpace.eraseAll

/-- What the gateway handlers see of the device. -/
def gatewayStore : GatewayStore where
  memory := device.globals.gateway
  nvs := ((device.flash "gateway_config").getD NvsSpace.blank).texts

/-! ## The handlers -/

/-- A configuration that passes the checks of the gateway handlers is saved. -/
def configureGateway (arguments : GatewayArguments) : ConfiguredDevice :=
  match arguments.validate with
  | .ok config =>
      ⟨{ device.wifi with globals := { device.globals with gateway := config } },
        device.flash.write "gateway_config" (·.saveGateway config)⟩
  | .error _ => device

variable (millis : UInt32)

/-- `handleAddress`. -/
def handleAddress (region community node : Option Bytes) : ConfiguredDevice × Bytes :=
  match region, community, node with
  | some region, some community, some node =>
      let device := device.setAddress (argByte (some region) 0) (argByte (some community) 0)
        (argByte (some node) 0)
      (device, ascii "Address set to " ++ addressText device.globals.localAddress)
  | _, _, _ => (device, addressText device.globals.localAddress)

/-- `handleApiAddress`, with the method of the request. -/
def handleApiAddress (post : Bool) (region community node : Option Bytes) :
    ConfiguredDevice × Bytes :=
  if post then
    match region, community, node with
    | some region, some community, some node =>
        let device := device.setAddress (argByte (some region) 0) (argByte (some community) 0)
          (argByte (some node) 0)
        (device, WebAnswer.apiHead millis ++ ascii "\"action\":\"set_address\",\"address\":\"" ++
          addressText device.globals.localAddress ++
          ascii "\",\"message\":\"Address updated and saved successfully\"\x7d")
    | _, _, _ =>
        (device, WebAnswer.apiHead millis ++
          TargetAnswer.apiError "Missing required parameters: region, community, node")
  else
    (device, WebAnswer.apiHead millis ++ ascii "\"action\":\"get_address\",\"address\":\"" ++
      addressText device.globals.localAddress ++ ascii "\"\x7d")

/-- `handleApiLoRaClear`. -/
def handleApiLoRaClear : ConfiguredDevice × Bytes :=
  let device := device.clearLoRaConfiguration
  (device, WebAnswer.apiHead millis ++ ascii "\"action\":\"lora_clear\"," ++
    ascii "\"message\":\"LoRa configuration cleared from storage\",\"new_address\":\"" ++
    addressText device.globals.localAddress ++ ascii "\"\x7d")

/-- `handleApiPasswordChange`. -/
def handleApiPasswordChange (password : Option Bytes) : ConfiguredDevice × Bytes :=
  match password with
  | some newPassword =>
      if !validatePassword newPassword then
        (device, WebAnswer.apiHead millis ++ TargetAnswer.apiError
          "Password does not meet requirements. Must be 8-32 characters with letters and numbers")
      else
        (⟨{ device.wifi with globals := { device.globals with apPassword := newPassword } },
            device.flash.saveAPPassword newPassword⟩,
          WebAnswer.apiHead millis ++ ascii "\"action\":\"password_change\"," ++
            ascii "\"message\":\"Password changed successfully. " ++
            ascii "Access Point restarted with new password\"\x7d")
  | none => (device, WebAnswer.apiHead millis ++ TargetAnswer.apiError "No password provided")

/-- `handleApiPasswordReset`. -/
def handleApiPasswordReset : ConfiguredDevice × Bytes :=
  (device.clearAPPassword, WebAnswer.apiHead millis ++ ascii "\"action\":\"password_reset\"," ++
    ascii "\"message\":\"Password reset to default (radiodoge). Access Point restarted\"\x7d")

/-- `handleApiGatewayClear`. -/
def handleApiGatewayClear : ConfiguredDevice × Bytes :=
  (⟨{ device.wifi with globals := { device.globals with gateway := GatewayConfig.boot } },
      device.flash.write "gateway_config" NvsSpace.eraseAll⟩,
    WebAnswer.apiHead millis ++ ascii "\"action\":\"gateway_clear\"," ++
      ascii "\"message\":\"Gateway credentials cleared successfully\"\x7d")

/-- The requests for the WiFi and the bridge: the storage changes with the credentials. -/
def handleWiFi (request : WiFiRequest) : ConfiguredDevice × Bytes :=
  let answer := device.wifi.handle millis request
  match request with
  | .connect (some ssid) (some password) status _ =>
      (⟨answer.1, ((device.setGlobals { device.globals with
        internetSsid := ssid, internetPassword := password }).connectToInternetWiFi status).flash⟩,
        answer.2)
  | .clear true => (⟨answer.1, device.flash.write "wifi_config" NvsSpace.eraseAll⟩, answer.2)
  | _ => (⟨answer.1, device.flash⟩, answer.2)

end ConfiguredDevice

/-- What happens to the configuration. -/
inductive ConfigurationRequest
  /-- Power is cut and comes back, or the device is reset. -/
  | restart (status : Nat → Bool)
  | wifi (request : WiFiRequest)
  | address (region community node : Option Bytes)
  | apiAddress (post : Bool) (region community node : Option Bytes)
  /-- `ADDRESS_SET` of the host, with the first bytes of `serialBuf`. -/
  | hostAddress (region community node : UInt8)
  | loraClear
  | passwordChange (password : Option Bytes)
  | passwordReset
  | gatewaySave (arguments : GatewayArguments)
  | gatewayConfigSet (arguments : GatewayArguments)
  | gatewayClear

namespace ConfiguredDevice

variable (device : ConfiguredDevice)

/-- What a request at this time leaves behind, and the answer to it. The host gets its answer on
the serial port. -/
def handle (millis : UInt32) : ConfigurationRequest → ConfiguredDevice × List Bytes
  | .restart status => (device.setup status, [])
  | .wifi request =>
      ((device.handleWiFi millis request).1, [(device.handleWiFi millis request).2])
  | .address region community node =>
      ((device.handleAddress region community node).1,
        [(device.handleAddress region community node).2])
  | .apiAddress post region community node =>
      ((device.handleApiAddress millis post region community node).1,
        [(device.handleApiAddress millis post region community node).2])
  | .hostAddress region community node => (device.setAddress region community node, [])
  | .loraClear => ((device.handleApiLoRaClear millis).1, [(device.handleApiLoRaClear millis).2])
  | .passwordChange password =>
      ((device.handleApiPasswordChange millis password).1,
        [(device.handleApiPasswordChange millis password).2])
  | .passwordReset =>
      ((device.handleApiPasswordReset millis).1, [(device.handleApiPasswordReset millis).2])
  | .gatewaySave arguments =>
      (device.configureGateway arguments,
        [(device.gatewayStore.handleApiGatewaySave millis arguments).2])
  | .gatewayConfigSet arguments =>
      (device.configureGateway arguments,
        [(device.gatewayStore.handleApiGatewayConfigSet millis arguments).2])
  | .gatewayClear =>
      ((device.handleApiGatewayClear millis).1, [(device.handleApiGatewayClear millis).2])

/-- One request, with its time. -/
def step (request : UInt32 × ConfigurationRequest) : ConfiguredDevice × List Bytes :=
  device.handle request.1 request.2

/-- The device behind the requests. -/
def after (requests : List (UInt32 × ConfigurationRequest)) : ConfiguredDevice :=
  (LoggedRun.run step device requests).1

end ConfiguredDevice

/-! ## What the requests ask for

Of a device only its settings are looked at: what they are now, and what a start would load. -/

/-- What a request asks for. -/
inductive ConfigurationChange
  | nothing
  | reload
  /-- Credentials for now, and those that are stored if the device could connect with them. -/
  | credentials (now : Bytes × Bytes) (later : Option (Bytes × Bytes))
  | address (value : NodeAddress)
  | noAddress
  | password (value : Bytes)
  | noPassword
  | gateway (config : GatewayConfig)
  | noGateway

/-- The change of an address that comes with a request, if all of it does. -/
def addressChange (region community node : Option Bytes) : ConfigurationChange :=
  if region.isSome ∧ community.isSome ∧ node.isSome then
    .address ⟨argByte region 0, argByte community 0, argByte node 0⟩
  else .nothing

/-- The change of a gateway that passes the checks. -/
def gatewayChange (arguments : GatewayArguments) : ConfigurationChange :=
  match arguments.validate.toOption with
  | some config => .gateway config
  | none => .nothing

/-- The device is asked to connect to a network and succeeds. -/
def Joins (ssid : Bytes) (status : Nat → Bool) : Prop :=
  ssid ≠ [] ∧ status (waitForWiFi status 0 20 + 1) = true

instance (ssid : Bytes) (status : Nat → Bool) : Decidable (Joins ssid status) :=
  inferInstanceAs (Decidable (_ ∧ _))

/-- What the requests ask for. -/
def ConfigurationRequest.change : ConfigurationRequest → ConfigurationChange
  | .restart _ => .reload
  | .wifi (.connect (some ssid) (some password) status _) =>
      .credentials (ssid, password)
        (if Joins ssid status then some (ofCString ssid, ofCString password) else none)
  | .wifi (.clear true) => .credentials ([], []) (some ([], []))
  | .wifi _ => .nothing
  | .address region community node => addressChange region community node
  | .apiAddress post region community node =>
      if post then addressChange region community node else .nothing
  | .hostAddress region community node => .address ⟨region, community, node⟩
  | .loraClear => .noAddress
  | .passwordChange (some password) =>
      if validatePassword password then .password password else .nothing
  | .passwordChange none => .nothing
  | .passwordReset => .noPassword
  | .gatewaySave arguments | .gatewayConfigSet arguments => gatewayChange arguments
  | .gatewayClear => .noGateway

/-- The settings now, and those that a start would load. -/
structure Settings where
  now : Configuration
  later : Configuration

/-- What a change may do to the settings. -/
def ConfigurationChange.Changes (before after : Settings) : ConfigurationChange → Prop
  | nothing => after = before
  | reload => after = ⟨before.later, before.later⟩
  | credentials now none =>
      after = ⟨{ before.now with internetSsid := now.1, internetPassword := now.2 }, before.later⟩
  | credentials now (some later) =>
      after = ⟨{ before.now with internetSsid := now.1, internetPassword := now.2 },
        { before.later with internetSsid := later.1, internetPassword := later.2 }⟩
  | address value =>
      after = ⟨{ before.now with localAddress := value },
        { before.later with localAddress := value }⟩
  | noAddress =>
      -- a start does not set the address that the clearing does
      after = ⟨{ before.now with localAddress := ⟨10, 1, 1⟩ },
        { before.later with localAddress := ⟨0, 0, 0⟩ }⟩
  | password value =>
      after = ⟨{ before.now with apPassword := value },
        { before.later with apPassword := ofCString value }⟩
  | noPassword =>
      after = ⟨{ before.now with apPassword := ascii "radiodoge" },
        { before.later with apPassword := ascii "radiodoge" }⟩
  | gateway config =>
      ∃ loaded, (loaded = config ↔ config.Restorable) ∧
        after = ⟨{ before.now with gateway := config }, { before.later with gateway := loaded }⟩
  | noGateway =>
      after = ⟨{ before.now with gateway := GatewayConfig.boot },
        { before.later with gateway := GatewayConfig.boot }⟩

/-! ## What a start loads -/

namespace Flash

variable (flash : Flash)

/-- The WiFi credentials. A password without the name of a network is not looked for. -/
def credentials : Bytes × Bytes :=
  match (flash "wifi_config").bind (·.texts.find "ssid") with
  | none => ([], [])
  | some ssid => (ssid, ((flash "wifi_config").bind (·.texts.find "password")).getD [])

/-- The address, if all of it is there. -/
def localAddress : NodeAddress :=
  match (flash "lora_config").bind (·.bytes.find "region"),
      (flash "lora_config").bind (·.bytes.find "community"),
      (flash "lora_config").bind (·.bytes.find "node") with
  | some region, some community, some node => ⟨region, community, node⟩
  | _, _, _ => ⟨0, 0, 0⟩

/-- The password of the access point. -/
def apPassword : Bytes :=
  ((flash "ap_config").bind (·.texts.find "password")).getD (ascii "radiodoge")

/-- The gateway. -/
def gateway : GatewayConfig :=
  match flash "gateway_config" with
  | none => GatewayConfig.boot
  | some space => (loadGatewayCredentials space.texts GatewayConfig.boot).1

/-- All of it. -/
def loaded : Configuration :=
  ⟨flash.credentials.1, flash.credentials.2, flash.localAddress, flash.apPassword, flash.gateway⟩

end Flash

section Loads

variable {session : NvsSession}

/-- A text that can be read is read whole: the storage gives C strings. -/
theorem nvsGetSizedString_of_works (hworks : ∀ call, session.fails call = false) (call : Nat)
    (space : NvsSpace) (key : String) :
    session.nvsGetSizedString call space key = space.texts.find key := by
  rw [NvsSession.nvsGetSizedString, NvsSession.nvsGetStrSize, hworks]
  cases hfind : space.texts.find key with
  | none => rfl
  | some text =>
      have htext : ofCString text = text :=
        (ofCString_eq_self_iff _).mpr (space.no_nul key text hfind)
      simp [NvsSession.nvsGetString, nvsGetStr, hworks, hfind, htext]

variable (hworks : ∀ call, session.fails call = false) (globals : Configuration)

include hworks

theorem loadWiFiCredentials_of_works (hssid : globals.internetSsid = [])
    (hpassword : globals.internetPassword = []) :
    (session.loadWiFiCredentials globals).1 =
      { globals with
        internetSsid := (Flash.credentials session.space).1
        internetPassword := (Flash.credentials session.space).2 } := by
  have hkeep : { globals with internetSsid := [], internetPassword := [] } = globals := by
    cases globals
    simp_all
  simp only [NvsSession.loadWiFiCredentials, NvsSession.nvsOpen, hworks, Bool.false_eq_true,
    if_false, nvsGetSizedString_of_works hworks, Flash.credentials]
  cases session.space "wifi_config" with
  | none => exact hkeep.symm
  | some space =>
      simp only [Option.bind_some]
      cases space.texts.find "ssid" with
      | none => exact hkeep.symm
      | some ssid =>
          cases space.texts.find "password" with
          | none => simp only [Option.getD_none, hpassword]
          | some password => rfl

theorem loadLoRaConfiguration_of_works (hboot : globals.localAddress = ⟨0, 0, 0⟩) :
    (session.loadLoRaConfiguration globals).1 =
      { globals with localAddress := Flash.localAddress session.space } := by
  simp only [NvsSession.loadLoRaConfiguration, NvsSession.nvsOpen, NvsSession.nvsGetU8, hworks,
    Bool.false_eq_true, if_false, Flash.localAddress]
  cases session.space "lora_config" with
  | none => simp only [Option.bind_none, ← hboot]
  | some space =>
      simp only [Option.bind_some]
      cases space.bytes.find "region" with
      | none => simp only [← hboot]
      | some region =>
          cases space.bytes.find "community" with
          | none => simp only [← hboot]
          | some community =>
              cases space.bytes.find "node" with
              | none => simp only [← hboot]
              | some node => rfl

theorem loadAPPassword_of_works (hboot : globals.apPassword = ascii "radiodoge") :
    (session.loadAPPassword globals).1 =
      { globals with apPassword := Flash.apPassword session.space } := by
  simp only [NvsSession.loadAPPassword, NvsSession.nvsOpen, hworks, Bool.false_eq_true, if_false,
    nvsGetSizedString_of_works hworks, Flash.apPassword]
  cases session.space "ap_config" with
  | none => simp only [Option.bind_none, Option.getD_none, ← hboot]
  | some space =>
      simp only [Option.bind_some]
      cases space.texts.find "password" with
      | none => simp only [Option.getD_none, ← hboot]
      | some password => rfl

theorem loadGatewayCredentials_of_boot (hboot : globals.gateway = GatewayConfig.boot) :
    (session.loadGatewayCredentials globals).1 =
      { globals with gateway := Flash.gateway session.space } := by
  rw [Flash.gateway]
  cases hspace : session.space "gateway_config" with
  | none =>
      simp only [NvsSession.loadGatewayCredentials, NvsSession.nvsOpen, hworks, hspace,
        Bool.false_eq_true, if_false, ← hboot]
  | some space =>
      rw [loadGatewayCredentials_of_works session globals hspace hworks, hboot]

end Loads

namespace Flash

variable (flash : Flash)

/-- Saved credentials are loaded up to a NUL. -/
theorem loaded_saveWiFiCredentials (ssid password : Bytes) :
    (flash.saveWiFiCredentials ssid password).loaded =
      { flash.loaded with
        internetSsid := ofCString ssid, internetPassword := ofCString password } := by
  have hssid : ∀ space : NvsSpace,
      ((space.setStr "ssid" ssid).setStr "password" password).texts.find "ssid" =
        some (ofCString ssid) := by
    intro space
    rw [NvsSpace.find_setStr_of_ne (by decide), NvsSpace.find_setStr_self (by decide)]
  have hpassword : ∀ space : NvsSpace,
      (space.setStr "password" password).texts.find "password" = some (ofCString password) :=
    fun space => NvsSpace.find_setStr_self (by decide) password
  simp [loaded, credentials, localAddress, apPassword, gateway, saveWiFiCredentials, write,
    hssid, hpassword]

/-- A saved address is loaded. -/
theorem loaded_saveLoRaConfiguration (region community node : UInt8) :
    (flash.saveLoRaConfiguration region community node).loaded =
      { flash.loaded with localAddress := ⟨region, community, node⟩ } := by
  have hregion : ∀ space : NvsSpace,
      (((space.setU8 "region" region).setU8 "community" community).setU8 "node" node).bytes.find
        "region" = some region := by
    intro space
    rw [NvsSpace.find_setU8_of_ne (by decide), NvsSpace.find_setU8_of_ne (by decide),
      NvsSpace.find_setU8_self (by decide)]
  have hcommunity : ∀ space : NvsSpace,
      ((space.setU8 "community" community).setU8 "node" node).bytes.find "community" =
        some community := by
    intro space
    rw [NvsSpace.find_setU8_of_ne (by decide), NvsSpace.find_setU8_self (by decide)]
  have hnode : ∀ space : NvsSpace, (space.setU8 "node" node).bytes.find "node" = some node :=
    fun space => NvsSpace.find_setU8_self (by decide) node
  simp [loaded, credentials, localAddress, apPassword, gateway, saveLoRaConfiguration, write,
    hregion, hcommunity, hnode]

/-- A saved password is loaded up to a NUL. -/
theorem loaded_saveAPPassword (password : Bytes) :
    (flash.saveAPPassword password).loaded =
      { flash.loaded with apPassword := ofCString password } := by
  have hfind : ∀ space : NvsSpace,
      (space.setStr "password" password).texts.find "password" = some (ofCString password) :=
    fun space => NvsSpace.find_setStr_self (by decide) password
  simp [loaded, credentials, localAddress, apPassword, gateway, saveAPPassword, write, hfind]

/-- The gateway is loaded as the storage alone loads it. -/
theorem loaded_saveGateway (config : GatewayConfig) :
    (flash.write "gateway_config" (·.saveGateway config)).loaded =
      { flash.loaded with
        gateway := (loadGatewayCredentials (saveGatewayCredentials config
          ((flash "gateway_config").getD NvsSpace.blank).texts) GatewayConfig.boot).1 } := by
  simp [loaded, credentials, localAddress, apPassword, gateway, write, NvsSpace.saveGateway]

section Erased

/-- Nothing is left of erased credentials. -/
theorem loaded_eraseWiFi :
    (flash.write "wifi_config" NvsSpace.eraseAll).loaded =
      { flash.loaded with internetSsid := [], internetPassword := [] } := by
  simp [loaded, credentials, localAddress, apPassword, gateway, write, NvsSpace.eraseAll,
    NvsSpace.blank, LimitedStore.empty]

theorem loaded_eraseLoRa :
    (flash.write "lora_config" NvsSpace.eraseAll).loaded =
      { flash.loaded with localAddress := ⟨0, 0, 0⟩ } := by
  simp [loaded, credentials, localAddress, apPassword, gateway, write, NvsSpace.eraseAll,
    NvsSpace.blank, LimitedStore.empty]

theorem loaded_eraseAP :
    (flash.write "ap_config" NvsSpace.eraseAll).loaded =
      { flash.loaded with apPassword := ascii "radiodoge" } := by
  simp [loaded, credentials, localAddress, apPassword, gateway, write, NvsSpace.eraseAll,
    NvsSpace.blank, LimitedStore.empty]

theorem loaded_eraseGateway :
    (flash.write "gateway_config" NvsSpace.eraseAll).loaded =
      { flash.loaded with gateway := GatewayConfig.boot } := by
  simp [loaded, credentials, localAddress, apPassword, gateway, write, NvsSpace.eraseAll,
    NvsSpace.blank, LimitedStore.empty, loadGatewayCredentials, nvsGetStr]

end Erased

/-- Credentials that are loaded have no NUL. -/
theorem ofCString_credentials :
    ofCString flash.credentials.1 = flash.credentials.1 ∧
      ofCString flash.credentials.2 = flash.credentials.2 := by
  rw [credentials]
  cases flash "wifi_config" with
  | none => exact ⟨rfl, rfl⟩
  | some space =>
      have hfree : ∀ {key : String} {text : Bytes}, space.texts.find key = some text →
          ofCString text = text :=
        fun hfind => (ofCString_eq_self_iff _).mpr (space.no_nul _ _ hfind)
      simp only [Option.bind_some]
      cases hssid : space.texts.find "ssid" with
      | none => exact ⟨rfl, rfl⟩
      | some ssid =>
          cases hpassword : space.texts.find "password" with
          | none => exact ⟨hfree hssid, rfl⟩
          | some password => exact ⟨hfree hssid, hfree hpassword⟩

/-- Credentials that were loaded may be saved again. -/
theorem loaded_saveWiFiCredentials_loaded :
    (flash.saveWiFiCredentials flash.loaded.internetSsid flash.loaded.internetPassword).loaded =
      flash.loaded := by
  rw [loaded_saveWiFiCredentials]
  rcases flash.ofCString_credentials with ⟨hssid, hpassword⟩
  simp only [loaded, hssid, hpassword]

end Flash

/-! ## The start -/

/-- An attempt to connect keeps the globals. -/
theorem InternetWiFi.globals_connectToInternetWiFi (wifi : InternetWiFi) (status : Nat → Bool) :
    (wifi.connectToInternetWiFi status).globals = wifi.globals := by
  rw [InternetWiFi.connectToInternetWiFi]
  split
  · rfl
  · split <;> rfl

/-- So does the bridge. -/
theorem InternetWiFi.globals_setupInternetBridge (wifi : InternetWiFi) :
    wifi.setupInternetBridge.globals = wifi.globals := by
  rw [InternetWiFi.setupInternetBridge]
  split <;> rfl

/-- Of the globals, `setupDualWiFi` sets only what it loads. -/
theorem InternetWiFi.globals_setupDualWiFi (wifi : InternetWiFi) (session : NvsSession)
    (status : Nat → Bool) :
    (wifi.setupDualWiFi session status).globals =
      (session.loadWiFiCredentials wifi.globals).1 := by
  have hconnect : ∀ wifi : InternetWiFi,
      (if wifi.globals.internetSsid.length > 0 then wifi.connectToInternetWiFi status
        else wifi).globals = wifi.globals := by
    intro wifi
    split
    · exact wifi.globals_connectToInternetWiFi status
    · rfl
  have hbridge : ∀ wifi : InternetWiFi,
      (if wifi.internetConnected then wifi.setupInternetBridge else wifi).globals =
        wifi.globals := by
    intro wifi
    split
    · exact wifi.globals_setupInternetBridge
    · rfl
  exact (hbridge _).trans (hconnect _)

namespace ConfiguredDevice

variable (device : ConfiguredDevice)

/-- The settings of a device. -/
def settings : Settings := ⟨device.globals, device.flash.loaded⟩

/-- An attempt to connect stores the credentials of the globals if it succeeds. -/
theorem flash_connectToInternetWiFi (status : Nat → Bool) :
    (device.connectToInternetWiFi status).flash =
      if Joins device.globals.internetSsid status then
        device.flash.saveWiFiCredentials device.globals.internetSsid
          device.globals.internetPassword
      else device.flash := by
  rw [connectToInternetWiFi]
  by_cases hssid : device.globals.internetSsid = []
  · simp [Joins, hssid]
  · simp [Joins, hssid]

/-- `setupDualWiFi` does to the globals of the WiFi functions what it does without the storage. -/
theorem wifi_setupDualWiFi (status : Nat → Bool) :
    (device.setupDualWiFi status).wifi = device.wifi.setupDualWiFi device.session status := by
  have hsplit : ∀ loaded : ConfiguredDevice,
      (if loaded.globals.internetSsid.length > 0 then loaded.connectToInternetWiFi status
        else loaded).wifi =
        if loaded.wifi.globals.internetSsid.length > 0 then
          loaded.wifi.connectToInternetWiFi status
        else loaded.wifi := by
    intro loaded
    rw [globals]
    split <;> rfl
  rw [setupDualWiFi]
  simp only [hsplit]
  rfl

/-- The storage behind `setupDualWiFi`: credentials are saved if the device can connect with them. -/
theorem flash_setupDualWiFi (status : Nat → Bool) :
    let loaded := (device.session.loadWiFiCredentials device.globals).1
    (device.setupDualWiFi status).flash =
      if Joins loaded.internetSsid status then
        device.flash.saveWiFiCredentials loaded.internetSsid loaded.internetPassword
      else device.flash := by
  intro loaded
  have hflash : (device.setupDualWiFi status).flash =
      (if loaded.internetSsid.length > 0 then
        (device.setGlobals loaded).connectToInternetWiFi status
      else device.setGlobals loaded).flash := rfl
  rw [hflash]
  split
  · exact flash_connectToInternetWiFi _ status
  · next hempty =>
      have hnot : ¬ Joins loaded.internetSsid status :=
        fun hjoins => hempty (List.length_pos_iff.mpr hjoins.1)
      rw [if_neg hnot]
      rfl

/-- What the loads of `setup` leave of the globals that it starts with. -/
theorem loads_boot :
    let session := device.session
    let apPassword := (session.loadAPPassword Configuration.boot).1
    let lora := (session.loadLoRaConfiguration apPassword).1
    let gateway := (session.loadGatewayCredentials lora).1
    (session.loadWiFiCredentials gateway).1 = device.flash.loaded := by
  have hworks : ∀ call, device.session.fails call = false := fun _ => rfl
  simp only [loadAPPassword_of_works hworks Configuration.boot rfl]
  rw [loadLoRaConfiguration_of_works hworks _ rfl, loadGatewayCredentials_of_boot hworks _ rfl,
    loadWiFiCredentials_of_works hworks _ rfl rfl]
  rfl

/-- **The start.** The globals are what the storage holds, whatever they were. -/
theorem globals_setup (status : Nat → Bool) :
    (device.setup status).globals = device.flash.loaded := by
  rw [setup, globals, wifi_setupDualWiFi, InternetWiFi.globals_setupDualWiFi]
  exact device.loads_boot

/-- The next start loads the same. -/
theorem loaded_setup (status : Nat → Bool) :
    (device.setup status).flash.loaded = device.flash.loaded := by
  rw [setup, flash_setupDualWiFi]
  split
  · have hloads := device.loads_boot
    simp only [setGlobals, globals, session, InternetWiFi.boot] at hloads ⊢
    rw [hloads]
    exact device.flash.loaded_saveWiFiCredentials_loaded
  · rfl

/-! ## Every request -/

/-- A new address is there now and later. -/
theorem settings_setAddress (region community node : UInt8) :
    (device.setAddress region community node).settings =
      ⟨{ device.globals with localAddress := ⟨region, community, node⟩ },
        { device.flash.loaded with localAddress := ⟨region, community, node⟩ }⟩ :=
  congrArg (Settings.mk _) (device.flash.loaded_saveLoRaConfiguration region community node)

/-- `handleAddress` sets the address if all of it comes. -/
theorem changes_handleAddress (region community node : Option Bytes) :
    (addressChange region community node).Changes device.settings
      (device.handleAddress region community node).1.settings := by
  cases region with
  | none => exact rfl
  | some region =>
      cases community with
      | none => exact rfl
      | some community =>
          cases node with
          | none => exact rfl
          | some node => exact device.settings_setAddress _ _ _

/-- So does `handleApiAddress`, with `POST`. -/
theorem changes_handleApiAddress (millis : UInt32) (post : Bool)
    (region community node : Option Bytes) :
    (if post then addressChange region community node else .nothing).Changes device.settings
      (device.handleApiAddress millis post region community node).1.settings := by
  cases post with
  | false => exact rfl
  | true =>
      cases region with
      | none => exact rfl
      | some region =>
          cases community with
          | none => exact rfl
          | some community =>
              cases node with
              | none => exact rfl
              | some node => exact device.settings_setAddress _ _ _

/-- A password is kept if it is valid. -/
theorem changes_handleApiPasswordChange (millis : UInt32) (password : Option Bytes) :
    (ConfigurationRequest.passwordChange password).change.Changes device.settings
      (device.handleApiPasswordChange millis password).1.settings := by
  cases password with
  | none => exact rfl
  | some password =>
      rw [ConfigurationRequest.change, handleApiPasswordChange]
      cases hvalid : validatePassword password with
      | false => exact rfl
      | true => exact congrArg (Settings.mk _) (device.flash.loaded_saveAPPassword password)

/-- A gateway is kept if it passes the checks. It comes back as it is exactly if it is
restorable. -/
theorem changes_configureGateway (arguments : GatewayArguments) :
    (gatewayChange arguments).Changes device.settings
      (device.configureGateway arguments).settings := by
  have hchecked : ∀ config, arguments.validate.toOption = some config → config.Checked :=
    fun config haccepted => @checked_of_accepted (.save 0 arguments) config haccepted
  rw [gatewayChange, configureGateway]
  cases hvalid : arguments.validate with
  | error fault => exact rfl
  | ok config =>
      refine ⟨_, load_eq_iff (hchecked config ?_) (saved_saveGatewayCredentials config _),
        congrArg (Settings.mk _) (device.flash.loaded_saveGateway config)⟩
      rw [hvalid]
      rfl

/-- The requests for the WiFi set credentials with a connect and with a clearing. -/
theorem changes_handleWiFi (millis : UInt32) (request : WiFiRequest) :
    (ConfigurationRequest.wifi request).change.Changes device.settings
      (device.handleWiFi millis request).1.settings := by
  cases request with
  | connect ssid password status localIp =>
      cases ssid with
      | none => exact rfl
      | some ssid =>
          cases password with
          | none => exact rfl
          | some password =>
              have hglobals : (device.handleWiFi millis (.connect (some ssid) (some password) status
                  localIp)).1.globals =
                  { device.globals with
                    internetSsid := ssid, internetPassword := password } :=
                InternetWiFi.globals_connectToInternetWiFi _ status
              have hflash : (device.handleWiFi millis (.connect (some ssid) (some password) status
                  localIp)).1.flash =
                  if Joins ssid status then device.flash.saveWiFiCredentials ssid password
                  else device.flash :=
                flash_connectToInternetWiFi (device.setGlobals { device.globals with
                  internetSsid := ssid, internetPassword := password }) status
              have hsettings := congrArg₂ Settings.mk hglobals (congrArg Flash.loaded hflash)
              rw [ConfigurationRequest.change]
              split
              · next hjoins =>
                  rw [if_pos hjoins, Flash.loaded_saveWiFiCredentials] at hsettings
                  exact hsettings
              · next hfails =>
                  rw [if_neg hfails] at hsettings
                  exact hsettings
  | disconnect =>
      have hglobals : (device.handleWiFi millis .disconnect).1.globals = device.globals := by
        change device.wifi.disconnectInternetWiFi.globals = device.wifi.globals
        rw [InternetWiFi.disconnectInternetWiFi]
        split <;> rfl
      exact congrArg (Settings.mk · _) hglobals
  | clear opens =>
      cases opens with
      | false => exact rfl
      | true => exact congrArg (Settings.mk _) device.flash.loaded_eraseWiFi
  | bridgeEnable =>
      have hglobals : (device.handleWiFi millis .bridgeEnable).1.globals = device.globals := by
        change device.wifi.enableInternetBridge.globals = device.wifi.globals
        rw [InternetWiFi.enableInternetBridge]
        split
        · exact device.wifi.globals_setupInternetBridge
        · rfl
      exact congrArg (Settings.mk · _) hglobals
  | bridgeDisable =>
      have hglobals : (device.handleWiFi millis .bridgeDisable).1.globals = device.globals := by
        change device.wifi.disableInternetBridge.globals = device.wifi.globals
        rw [InternetWiFi.disableInternetBridge]
        split <;> rfl
      exact congrArg (Settings.mk · _) hglobals

/-- **One request.** The settings change as the request asks for. -/
theorem changes_step (request : UInt32 × ConfigurationRequest) :
    request.2.change.Changes device.settings (device.step request).1.settings := by
  rcases request with ⟨millis, request⟩
  cases request with
  | restart status =>
      change Settings.mk (device.setup status).globals (device.setup status).flash.loaded = _
      rw [globals_setup, loaded_setup]
      rfl
  | wifi request => exact device.changes_handleWiFi millis request
  | address region community node => exact device.changes_handleAddress region community node
  | apiAddress post region community node =>
      exact device.changes_handleApiAddress millis post region community node
  | hostAddress region community node => exact device.settings_setAddress region community node
  | loraClear => exact congrArg (Settings.mk _) device.flash.loaded_eraseLoRa
  | passwordChange password => exact device.changes_handleApiPasswordChange millis password
  | passwordReset => exact congrArg (Settings.mk _) device.flash.loaded_eraseAP
  | gatewaySave arguments => exact device.changes_configureGateway arguments
  | gatewayConfigSet arguments => exact device.changes_configureGateway arguments
  | gatewayClear => exact congrArg (Settings.mk _) device.flash.loaded_eraseGateway

end ConfiguredDevice

/-! ## Runs -/

namespace ConfigurationChange

/-- The address that the change stores. Without one a start leaves the address zero. -/
def laterAddress : ConfigurationChange → Option NodeAddress
  | address value => some value
  | noAddress => some ⟨0, 0, 0⟩
  | _ => none

/-- The password that the change stores. -/
def laterPassword : ConfigurationChange → Option Bytes
  | password value => some (ofCString value)
  | noPassword => some (ascii "radiodoge")
  | _ => none

/-- The credentials that the change stores. -/
def laterCredentials : ConfigurationChange → Option (Bytes × Bytes)
  | credentials _ later => later
  | _ => none

variable {before after : Settings} {change : ConfigurationChange}

/-- A change stores its values, and leaves the others as they are. -/
theorem later_of_changes (h : change.Changes before after) :
    after.later.localAddress = change.laterAddress.getD before.later.localAddress ∧
      after.later.apPassword = change.laterPassword.getD before.later.apPassword ∧
      (after.later.internetSsid, after.later.internetPassword) =
        change.laterCredentials.getD (before.later.internetSsid, before.later.internetPassword) := by
  cases change with
  | gateway config =>
      rcases h with ⟨loaded, -, rfl⟩
      exact ⟨rfl, rfl, rfl⟩
  | credentials now later =>
      cases later with
      | none =>
          rcases h with rfl
          exact ⟨rfl, rfl, rfl⟩
      | some later =>
          rcases h with rfl
          exact ⟨rfl, rfl, rfl⟩
  | _ =>
      rcases h with rfl
      exact ⟨rfl, rfl, rfl⟩

end ConfigurationChange

/-- The settings that a request can replace as a whole. -/
inductive Setting
  | address
  | apPassword
  | gateway
  deriving DecidableEq, Repr

namespace Setting

/-- A start would not change the setting. -/
def Kept (settings : Settings) : Setting → Prop
  | address => settings.later.localAddress = settings.now.localAddress
  | apPassword => settings.later.apPassword = settings.now.apPassword
  | gateway => settings.later.gateway = settings.now.gateway

/-- Whether the setting is kept behind a change that is about it. -/
def keptBy : Setting → ConfigurationChange → Option Prop
  | _, .reload => some True
  | address, .address _ => some True
  | address, .noAddress => some False
  | apPassword, .password value => some ((0 : UInt8) ∉ value)
  | apPassword, .noPassword => some True
  | gateway, .gateway config => some config.Restorable
  | gateway, .noGateway => some True
  | _, _ => none

/-- A change decides whether its setting is kept, and nothing about the others. -/
theorem kept_iff {before after : Settings} {change : ConfigurationChange}
    (h : change.Changes before after) (setting : Setting) :
    setting.Kept after ↔ (setting.keptBy change).getD (setting.Kept before) := by
  cases change with
  | reload =>
      rcases h with rfl
      cases setting <;> exact iff_true_intro rfl
  | credentials now later =>
      cases later with
      | none =>
          rcases h with rfl
          cases setting <;> exact Iff.rfl
      | some later =>
          rcases h with rfl
          cases setting <;> exact Iff.rfl
  | nothing =>
      rcases h with rfl
      cases setting <;> exact Iff.rfl
  | address value =>
      rcases h with rfl
      cases setting with
      | address => exact iff_true_intro rfl
      | _ => exact Iff.rfl
  | noAddress =>
      rcases h with rfl
      cases setting with
      | address => exact iff_false_intro (by decide : (⟨0, 0, 0⟩ : NodeAddress) ≠ ⟨10, 1, 1⟩)
      | _ => exact Iff.rfl
  | password value =>
      rcases h with rfl
      cases setting with
      | apPassword => exact ofCString_eq_self_iff value
      | _ => exact Iff.rfl
  | noPassword =>
      rcases h with rfl
      cases setting with
      | apPassword => exact iff_true_intro rfl
      | _ => exact Iff.rfl
  | gateway config =>
      rcases h with ⟨loaded, hloaded, rfl⟩
      cases setting with
      | gateway => exact hloaded
      | _ => exact Iff.rfl
  | noGateway =>
      rcases h with rfl
      cases setting with
      | gateway => exact iff_true_intro rfl
      | _ => exact Iff.rfl

end Setting

namespace ConfiguredDevice

variable (device : ConfiguredDevice)

/-- **What comes back.** Behind any sequence of requests and restarts, a start loads the last
address and the last password of the access point that were set, the defaults where they were
cleared, and the credentials with which the device has last joined a network, the texts as far as
their first NUL. -/
theorem restored_run (requests : List (UInt32 × ConfigurationRequest)) (status : Nat → Bool) :
    let restored := ((device.after requests).setup status).globals
    let before := (device.setup status).globals
    restored.localAddress =
        LoggedRun.lastWrite (·.2.change.laterAddress) before.localAddress requests ∧
      restored.apPassword =
        LoggedRun.lastWrite (·.2.change.laterPassword) before.apPassword requests ∧
      (restored.internetSsid, restored.internetPassword) =
        LoggedRun.lastWrite (·.2.change.laterCredentials)
          (before.internetSsid, before.internetPassword) requests := by
  have hstep := fun (device : ConfiguredDevice) request =>
    ConfigurationChange.later_of_changes (device.changes_step request)
  simp only [globals_setup]
  apply And.intro
  · exact LoggedRun.read_run (fun device => device.flash.loaded.localAddress)
      (fun device request => (hstep device request).1) device requests
  apply And.intro
  · exact LoggedRun.read_run (fun device => device.flash.loaded.apPassword)
      (fun device request => (hstep device request).2.1) device requests
  · exact LoggedRun.read_run
      (fun device => (device.flash.loaded.internetSsid, device.flash.loaded.internetPassword))
      (fun device request => (hstep device request).2.2) device requests

/-- A start with any readings of the radio leaves the setting as it is. -/
def Survives (setting : Setting) : Prop :=
  ∀ status, setting.Kept ⟨device.globals, (device.setup status).globals⟩

theorem survives_iff (setting : Setting) :
    device.Survives setting ↔ setting.Kept device.settings := by
  simp only [Survives, globals_setup, forall_const]
  rfl

/-- **What a restart changes.** Behind any sequence of requests and restarts, the address, the
password of the access point and the gateway survive a restart exactly if the last request about
them lets them: the address was set, not cleared; the password has no NUL, or was reset; the
gateway is restorable, or was cleared. -/
theorem survives_run_iff (setting : Setting) (requests : List (UInt32 × ConfigurationRequest)) :
    (device.after requests).Survives setting ↔
      LoggedRun.lastWrite (fun request => setting.keptBy request.2.change)
        (device.Survives setting) requests := by
  apply LoggedRun.holds_run_iff fun device => Survives device setting
  intro device request
  rw [survives_iff, survives_iff]
  exact Setting.kept_iff (device.changes_step request) setting

end ConfiguredDevice

end RadioDoge.V3
