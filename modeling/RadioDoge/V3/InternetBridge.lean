/-
# The bridge and the internet connection

The bridge is set up only while the device is connected to the internet. But a disconnect, a
clearing of the credentials and a connect attempt that fails set `internet_connected` to false
and leave the bridge as it is. `bridge_needs_internet_iff` says for which sequences of requests
the bridge is on only while the device is connected.
-/

import RadioDoge.Lib.LoggedRun
import RadioDoge.V3.ConfigurationLoads
import RadioDoge.V3.WebReplies

namespace RadioDoge.V3

/-! ## The state and its functions -/

/-- The globals of the WiFi functions, and whether the DNS server of the bridge runs. -/
structure InternetWiFi where
  globals : Configuration
  internetConnected : Bool
  dualWifiMode : Bool
  internetBridgeEnabled : Bool
  dnsRunning : Bool
  deriving DecidableEq, Repr

/-- The loop of `connectToInternetWiFi` from reading `n` of `WiFi.status` on, with so many
attempts left: the number of its last reading. -/
def waitForWiFi (status : Nat → Bool) (n : Nat) : Nat → Nat
  | 0 => n
  | attempts + 1 => if status n then n else waitForWiFi status (n + 1) attempts

namespace InternetWiFi

variable (wifi : InternetWiFi)

/-- `connectToInternetWiFi`. What it saves is not read again before the next reset. -/
def connectToInternetWiFi (status : Nat → Bool) : InternetWiFi :=
  if wifi.globals.internetSsid.length = 0 then wifi
  else if status (waitForWiFi status 0 20 + 1) then
    { wifi with internetConnected := true, dualWifiMode := true }
  else { wifi with internetConnected := false, dualWifiMode := false }

/-- `disconnectInternetWiFi`. -/
def disconnectInternetWiFi : InternetWiFi :=
  if wifi.internetConnected then { wifi with internetConnected := false, dualWifiMode := false }
  else wifi

/-- `clearWiFiCredentials`; `opens` says whether `nvs_open` works. -/
def clearWiFiCredentials (opens : Bool) : InternetWiFi :=
  if opens then
    { wifi with
        globals := { wifi.globals with internetSsid := [], internetPassword := [] }
        internetConnected := false
        dualWifiMode := false }
  else wifi

/-- `setupInternetBridge`. -/
def setupInternetBridge : InternetWiFi :=
  if !wifi.internetConnected then wifi
  else { wifi with internetBridgeEnabled := true, dnsRunning := true }

/-- `enableInternetBridge`. -/
def enableInternetBridge : InternetWiFi :=
  if wifi.internetConnected && !wifi.internetBridgeEnabled then wifi.setupInternetBridge else wifi

/-- `disableInternetBridge`. -/
def disableInternetBridge : InternetWiFi :=
  if wifi.internetBridgeEnabled then
    { wifi with internetBridgeEnabled := false, dnsRunning := false }
  else wifi

/-- `setupDualWiFi`. -/
def setupDualWiFi (session : NvsSession) (status : Nat → Bool) : InternetWiFi :=
  let wifi := { wifi with globals := (session.loadWiFiCredentials wifi.globals).1 }
  let wifi :=
    if wifi.globals.internetSsid.length > 0 then wifi.connectToInternetWiFi status else wifi
  if wifi.internetConnected then wifi.setupInternetBridge else wifi

/-- The state before `setup`. -/
def boot (globals : Configuration) : InternetWiFi := ⟨globals, false, false, false, false⟩

end InternetWiFi

/-! ## The requests -/

/-- A request to the WiFi or bridge endpoints, with what it meets: the readings of `WiFi.status`
and the address of the device there, and whether the storage opens. -/
inductive WiFiRequest
  | connect (ssid password : Option Bytes) (status : Nat → Bool) (localIp : Bytes)
  | disconnect
  | clear (opens : Bool)
  | bridgeEnable
  | bridgeDisable

namespace InternetWiFi

variable (wifi : InternetWiFi) (millis : UInt32)

/-- A member with a boolean. -/
def flagText (name : String) (value : Bool) : Bytes :=
  ascii "\"" ++ ascii name ++ ascii "\":" ++ ascii (if value then "true" else "false") ++ ascii ","

/-- The credentials of a request. -/
def setCredentials (ssid password : Bytes) : InternetWiFi :=
  { wifi with
      globals := { wifi.globals with internetSsid := ssid, internetPassword := password } }

/-- `handleApiWifiConnect`. -/
def handleApiWifiConnect (ssid password : Option Bytes) (status : Nat → Bool) (localIp : Bytes) :
    InternetWiFi × Bytes :=
  match ssid, password with
  | some ssid, some password =>
      let wifi := (wifi.setCredentials ssid password).connectToInternetWiFi status
      (wifi, WebAnswer.apiHead millis ++
        (if wifi.internetConnected then
          ascii "\"action\":\"wifi_connect\",\"message\":\"Successfully connected to " ++ ssid ++
            ascii "\",\"ip\":\"" ++ localIp ++ ascii "\""
        else
          ascii "\"success\":false,\"action\":\"wifi_connect_failed\"," ++
            ascii "\"error\":\"Failed to connect to " ++ ssid ++ ascii "\"") ++ ascii "\x7d")
  | _, _ =>
      (wifi, WebAnswer.apiHead millis ++
        ascii "\"success\":false,\"error\":\"Missing SSID or password\"\x7d")

/-- `handleApiWifiDisconnect`. -/
def handleApiWifiDisconnect : InternetWiFi × Bytes :=
  (wifi.disconnectInternetWiFi, WebAnswer.apiHead millis ++
    ascii "\"action\":\"wifi_disconnect\",\"message\":\"Disconnected from internet WiFi\"\x7d")

/-- `handleApiWifiClear`. -/
def handleApiWifiClear (opens : Bool) : InternetWiFi × Bytes :=
  (wifi.clearWiFiCredentials opens, WebAnswer.apiHead millis ++
    ascii "\"action\":\"wifi_clear\",\"message\":\"WiFi credentials cleared from storage\"\x7d")

/-- `handleApiBridgeEnable`. -/
def handleApiBridgeEnable : InternetWiFi × Bytes :=
  let wifi := wifi.enableInternetBridge
  (wifi, WebAnswer.apiHead millis ++ ascii "\"action\":\"bridge_enable\"," ++
    flagText "bridge_enabled" wifi.internetBridgeEnabled ++
    flagText "internet_connected" wifi.internetConnected ++
    ascii "\"message\":\"Internet bridge " ++
    ascii (if wifi.internetBridgeEnabled then "enabled" else "failed to enable") ++
    ascii "\"\x7d")

/-- `handleApiBridgeDisable`. -/
def handleApiBridgeDisable : InternetWiFi × Bytes :=
  let wifi := wifi.disableInternetBridge
  (wifi, WebAnswer.apiHead millis ++ ascii "\"action\":\"bridge_disable\"," ++
    flagText "bridge_enabled" wifi.internetBridgeEnabled ++
    ascii "\"message\":\"Internet bridge disabled\"\x7d")

/-- A request that arrives at this time, with the answer to it. -/
def handle : WiFiRequest → InternetWiFi × Bytes
  | .connect ssid password status localIp =>
      wifi.handleApiWifiConnect millis ssid password status localIp
  | .disconnect => wifi.handleApiWifiDisconnect millis
  | .clear opens => wifi.handleApiWifiClear millis opens
  | .bridgeEnable => wifi.handleApiBridgeEnable millis
  | .bridgeDisable => wifi.handleApiBridgeDisable millis

/-- One request, with its time. -/
def step (request : UInt32 × WiFiRequest) : InternetWiFi × List Bytes :=
  ((wifi.handle request.1 request.2).1, [(wifi.handle request.1 request.2).2])

/-- The state behind `setup` and the requests. -/
def after (session : NvsSession) (status : Nat → Bool) (globals : Configuration)
    (requests : List (UInt32 × WiFiRequest)) : InternetWiFi :=
  (LoggedRun.run step ((boot globals).setupDualWiFi session status) requests).1

/-- The bridge is on only while the device is connected to the internet. -/
def BridgeConnected : Prop := wifi.internetBridgeEnabled = true → wifi.internetConnected = true

end InternetWiFi

/-! ## Requests that cut the connection -/

/-- The radio reports no connection when it is asked once more, after its first report of one or
after 21 readings. -/
def NotJoined (status : Nat → Bool) : Prop :=
  ∃ n ≤ 20, (∀ m < n, status m = false) ∧ (status n = true ∨ n = 20) ∧ status (n + 1) = false

/-- A request that ends a connection if there is one: a disconnect, a clearing of the
credentials with a storage that opens, and an attempt to connect to a named network that
fails. -/
def WiFiRequest.Cuts : WiFiRequest → Prop
  | .connect (some ssid) (some _) status _ => ssid ≠ [] ∧ NotJoined status
  | .connect _ _ _ _ => False
  | .disconnect => True
  | .clear opens => opens = true
  | .bridgeEnable | .bridgeDisable => False

/-! ## The loop -/

/-- The loop ends at the first report of a connection, or when no attempt is left. -/
theorem waitForWiFi_spec (status : Nat → Bool) (n attempts : Nat) :
    waitForWiFi status n attempts ≤ n + attempts ∧
      (∀ m, n ≤ m → m < waitForWiFi status n attempts → status m = false) ∧
      (status (waitForWiFi status n attempts) = true ∨
        waitForWiFi status n attempts = n + attempts) := by
  induction attempts generalizing n with
  | zero => exact ⟨Nat.le_refl n, fun m hle hlt => absurd hlt (Nat.not_lt.mpr hle), .inr rfl⟩
  | succ attempts ih =>
      rw [waitForWiFi]
      by_cases hstatus : status n = true
      · rw [if_pos hstatus]
        exact ⟨Nat.le_add_right n _, fun m hle hlt => absurd hlt (Nat.not_lt.mpr hle),
          .inl hstatus⟩
      · rw [if_neg hstatus]
        rcases ih (n + 1) with ⟨hle, hbefore, hlast⟩
        have hsum : n + 1 + attempts = n + (attempts + 1) := by omega
        rw [hsum] at hle hlast
        refine ⟨hle, ?_, hlast⟩
        intro m hfrom hlt
        rcases Nat.eq_or_lt_of_le hfrom with rfl | hgt
        · exact Bool.eq_false_of_not_eq_true hstatus
        · exact hbefore m hgt hlt

/-- What the attempt ends with. -/
theorem status_waitForWiFi_iff (status : Nat → Bool) :
    status (waitForWiFi status 0 20 + 1) = false ↔ NotJoined status := by
  rcases waitForWiFi_spec status 0 20 with ⟨hle, hbefore, hlast⟩
  rw [Nat.zero_add] at hle hlast
  apply Iff.intro
  · intro hfalse
    exact ⟨_, hle, fun m hm => hbefore m (Nat.zero_le m) hm, hlast, hfalse⟩
  · rintro ⟨n, hn, hearlier, hend, hfalse⟩
    rcases Nat.lt_trichotomy n (waitForWiFi status 0 20) with hlt | hsame | hlt
    · -- the loop would have ended with reading `n`
      have hnot : status n ≠ true := ne_true_of_eq_false (hbefore n (Nat.zero_le n) hlt)
      have hlate : n = 20 := hend.resolve_left hnot
      exact absurd hlt (Nat.not_lt.mpr (hlate ▸ hle))
    · rw [← hsame]
      exact hfalse
    · have hnot : status (waitForWiFi status 0 20) ≠ true := ne_true_of_eq_false (hearlier _ hlt)
      have hlate : waitForWiFi status 0 20 = 20 := hlast.resolve_left hnot
      exact absurd hn (Nat.not_le.mpr (hlate ▸ hlt))

/-! ## Runs -/

namespace InternetWiFi

variable {wifi : InternetWiFi}

/-- An attempt to connect keeps the bridge, and connects or cuts. -/
theorem connectToInternetWiFi_spec (wifi : InternetWiFi) (status : Nat → Bool) :
    (wifi.connectToInternetWiFi status).internetBridgeEnabled = wifi.internetBridgeEnabled ∧
      ((wifi.connectToInternetWiFi status).internetConnected =
        if wifi.globals.internetSsid = [] then wifi.internetConnected
        else status (waitForWiFi status 0 20 + 1)) := by
  rw [connectToInternetWiFi]
  by_cases hssid : wifi.globals.internetSsid = []
  · rw [if_pos (List.length_eq_zero_iff.mpr hssid), if_pos hssid]
    exact ⟨rfl, rfl⟩
  · rw [if_neg (mt List.length_eq_zero_iff.mp hssid), if_neg hssid]
    cases status (waitForWiFi status 0 20 + 1) <;> exact ⟨rfl, rfl⟩

/-- A request that leaves the bridge as it is. -/
theorem bridgeConnected_iff_of_bridge_eq (hconnected : wifi.BridgeConnected) {next : InternetWiFi}
    {request : WiFiRequest} (hbridge : next.internetBridgeEnabled = wifi.internetBridgeEnabled)
    (hcuts : wifi.internetConnected = true → (next.internetConnected = true ↔ ¬ request.Cuts)) :
    next.BridgeConnected ↔ (wifi.internetBridgeEnabled = true → ¬ request.Cuts) := by
  rw [BridgeConnected, hbridge]
  exact forall_congr' fun hon => hcuts (hconnected hon)

/-- Enabling and disabling check the connection. -/
theorem bridgeConnected_enable (hconnected : wifi.BridgeConnected) :
    wifi.enableInternetBridge.BridgeConnected := by
  rw [enableInternetBridge]
  split
  · rename_i hguard
    have hinternet : wifi.internetConnected = true := (Bool.and_eq_true_iff.mp hguard).1
    intro _
    rw [setupInternetBridge, hinternet]
    rfl
  · exact hconnected

theorem bridgeConnected_disable (hconnected : wifi.BridgeConnected) :
    wifi.disableInternetBridge.BridgeConnected := by
  rw [disableInternetBridge]
  split
  · rintro ⟨⟩
  · exact hconnected

/-- **One request.** While the bridge is on only with a connection, a request keeps it so exactly
if it does not cut the connection of a bridge that is on. -/
theorem bridgeConnected_step_iff (hconnected : wifi.BridgeConnected)
    (request : UInt32 × WiFiRequest) :
    (wifi.step request).1.BridgeConnected ↔
      (wifi.internetBridgeEnabled = true → ¬ request.2.Cuts) := by
  rcases request with ⟨millis, request⟩
  cases request with
  | connect ssid password status localIp =>
      cases ssid with
      | none => exact iff_of_true hconnected fun _ => not_false
      | some ssid =>
          cases password with
          | none => exact iff_of_true hconnected fun _ => not_false
          | some password =>
              rcases connectToInternetWiFi_spec (wifi.setCredentials ssid password) status with
                ⟨hbridge, hinternet⟩
              apply bridgeConnected_iff_of_bridge_eq hconnected hbridge
              intro hbefore
              change ((wifi.setCredentials ssid password).connectToInternetWiFi
                status).internetConnected = true ↔ ¬ (ssid ≠ [] ∧ NotJoined status)
              rw [hinternet, ← status_waitForWiFi_iff]
              change (if ssid = [] then wifi.internetConnected else _) = true ↔ _
              by_cases hssid : ssid = []
              · rw [if_pos hssid]
                exact iff_of_true hbefore fun hcuts => hcuts.1 hssid
              · rw [if_neg hssid, and_iff_right hssid, Bool.not_eq_false]
  | disconnect =>
      apply bridgeConnected_iff_of_bridge_eq hconnected
      · change wifi.disconnectInternetWiFi.internetBridgeEnabled = _
        rw [disconnectInternetWiFi]
        split <;> rfl
      · intro hbefore
        change wifi.disconnectInternetWiFi.internetConnected = true ↔ ¬ True
        rw [disconnectInternetWiFi, if_pos hbefore]
        exact iff_of_false Bool.false_ne_true (not_not_intro trivial)
  | clear opens =>
      cases opens with
      | true =>
          exact bridgeConnected_iff_of_bridge_eq hconnected rfl fun _ =>
            iff_of_false Bool.false_ne_true (not_not_intro rfl)
      | false => exact iff_of_true hconnected fun _ => Bool.false_ne_true
  | bridgeEnable => exact iff_of_true (bridgeConnected_enable hconnected) fun _ => not_false
  | bridgeDisable => exact iff_of_true (bridgeConnected_disable hconnected) fun _ => not_false

/-- The dual mode follows the connection, and the DNS server the bridge. -/
structure FlagsAgree (wifi : InternetWiFi) : Prop where
  dualWifiMode : wifi.dualWifiMode = wifi.internetConnected
  dnsRunning : wifi.dnsRunning = wifi.internetBridgeEnabled

section Flags

variable (hagree : wifi.FlagsAgree)
include hagree

theorem flagsAgree_connect (status : Nat → Bool) :
    (wifi.connectToInternetWiFi status).FlagsAgree := by
  rw [connectToInternetWiFi]
  split
  · exact hagree
  · split <;> exact ⟨rfl, hagree.dnsRunning⟩

theorem flagsAgree_setupBridge : wifi.setupInternetBridge.FlagsAgree := by
  rw [setupInternetBridge]
  split
  · exact hagree
  · exact ⟨hagree.dualWifiMode, rfl⟩

/-- Every request keeps both. -/
theorem flagsAgree_step (request : UInt32 × WiFiRequest) : (wifi.step request).1.FlagsAgree := by
  rcases request with ⟨millis, request⟩
  cases request with
  | connect ssid password status localIp =>
      cases ssid with
      | none => exact hagree
      | some ssid =>
          cases password with
          | none => exact hagree
          | some password =>
              have hset : (wifi.setCredentials ssid password).FlagsAgree :=
                ⟨hagree.dualWifiMode, hagree.dnsRunning⟩
              exact flagsAgree_connect hset status
  | disconnect =>
      change wifi.disconnectInternetWiFi.FlagsAgree
      rw [disconnectInternetWiFi]
      split
      · exact ⟨rfl, hagree.dnsRunning⟩
      · exact hagree
  | clear opens =>
      cases opens with
      | true => exact ⟨rfl, hagree.dnsRunning⟩
      | false => exact hagree
  | bridgeEnable =>
      change wifi.enableInternetBridge.FlagsAgree
      rw [enableInternetBridge]
      split
      · exact flagsAgree_setupBridge hagree
      · exact hagree
  | bridgeDisable =>
      change wifi.disableInternetBridge.FlagsAgree
      rw [disableInternetBridge]
      split
      · exact ⟨hagree.dualWifiMode, rfl⟩
      · exact hagree

end Flags

/-- `setup` starts the bridge only with a connection. -/
theorem bridgeConnected_setup (session : NvsSession) (status : Nat → Bool)
    (globals : Configuration) : ((boot globals).setupDualWiFi session status).BridgeConnected := by
  let loaded := { boot globals with globals := (session.loadWiFiCredentials globals).1 }
  let connected :=
    if loaded.globals.internetSsid.length > 0 then loaded.connectToInternetWiFi status else loaded
  change (if connected.internetConnected then connected.setupInternetBridge
    else connected).BridgeConnected
  have hbridge : connected.internetBridgeEnabled = false := by
    change (if _ then _ else _ : InternetWiFi).internetBridgeEnabled = false
    split
    · exact (connectToInternetWiFi_spec loaded status).1
    · rfl
  split
  · rename_i hinternet
    intro _
    rw [setupInternetBridge, hinternet]
    rfl
  · intro hon
    rw [hbridge] at hon
    cases hon

/-- **The bridge and the connection.** Whatever `setup` finds, the bridge is on only with a
connection all along a sequence of requests exactly if no request of the sequence cuts the
connection while the bridge is on. -/
theorem bridge_needs_internet_iff (session : NvsSession) (status : Nat → Bool)
    (globals : Configuration) (requests : List (UInt32 × WiFiRequest)) :
    (∀ n, (after session status globals (requests.take n)).BridgeConnected) ↔
      ∀ n request, requests[n]? = some request →
        (after session status globals (requests.take n)).internetBridgeEnabled = true →
          ¬ request.2.Cuts := by
  apply LoggedRun.forall_take_iff
    (fun (_ : List (UInt32 × WiFiRequest)) (wifi : InternetWiFi) (_ : List Bytes) =>
      wifi.BridgeConnected)
    (fun (wifi : InternetWiFi) (request : UInt32 × WiFiRequest) =>
      wifi.internetBridgeEnabled = true → ¬ request.2.Cuts)
  · exact bridgeConnected_setup session status globals
  · intro before wifi log request _ hconnected
    exact bridgeConnected_step_iff hconnected request

/-- Connect, enable the bridge, and disconnect. -/
def bridgeWithoutInternet : List (UInt32 × WiFiRequest) :=
  [(0, .connect (some (ascii "moon")) (some (ascii "wow")) (fun _ => true) (ascii "10.0.0.7")),
    (1, .bridgeEnable), (2, .disconnect)]

/-- The bridge stays on. -/
theorem disconnect_keeps_bridge :
    (after ⟨fun _ => none, fun _ => false⟩ (fun _ => false) Configuration.boot
        bridgeWithoutInternet).internetBridgeEnabled = true ∧
      ¬ (after ⟨fun _ => none, fun _ => false⟩ (fun _ => false) Configuration.boot
        bridgeWithoutInternet).BridgeConnected := by
  have hon : (after ⟨fun _ => none, fun _ => false⟩ (fun _ => false) Configuration.boot
      bridgeWithoutInternet).internetBridgeEnabled = true := by decide
  apply And.intro hon
  intro hconnected
  exact absurd (hconnected hon) (by decide)

end InternetWiFi

end RadioDoge.V3
