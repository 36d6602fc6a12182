/-
# What the firmware loads when it starts

Four functions read a part of the configuration from the flash storage, and each call into the
storage may fail. The address is kept in local variables until everything is read; the WiFi
credentials and the gateway are put into the globals one by one, so that a read that fails in the
middle leaves a mixture of old and new behind. `all_or_nothing_iff` says when that happens.
-/

import RadioDoge.Lib.EagerLoad
import RadioDoge.V3.GatewayStorage

namespace RadioDoge.V3

/-! ## The storage -/

/-- A namespace of the storage: its texts and its bytes. A text is a C string. -/
structure NvsSpace where
  texts : Nvs
  bytes : LimitedStore String UInt8 (fun key => key.length ≤ 15)
  no_nul : ∀ key text, texts.find key = some text → (0 : UInt8) ∉ text

namespace NvsSpace

/-- A namespace without values. -/
def blank : NvsSpace := ⟨LimitedStore.empty, LimitedStore.empty, fun _ _ hfound => by cases hfound⟩

/-- `nvs_set_str`. -/
def setStr (space : NvsSpace) (key : String) (value : Bytes) : NvsSpace where
  texts := nvsSetStr space.texts key value
  bytes := space.bytes
  no_nul := by
    intro other text hfound
    by_cases hother : other = key
    · by_cases hkey : key.length ≤ 15
      · rw [hother, find_nvsSetStr_self _ hkey] at hfound
        rcases Option.some.inj hfound with rfl
        exact fun hmem => absurd (List.mem_takeWhile_imp hmem) (by decide)
      · rw [hother, (nvsSetStr space.texts key value).find_of_not_allowed hkey] at hfound
        cases hfound
    · rw [find_nvsSetStr_of_ne _ hother] at hfound
      exact space.no_nul other text hfound

end NvsSpace

/-- The storage during a load: its namespaces, and which calls fail by themselves. The calls are
counted from zero, as they stand in the text of the load. -/
structure NvsSession where
  space : String → Option NvsSpace
  fails : Nat → Bool

/-- The globals that are loaded. -/
structure Configuration where
  internetSsid : Bytes
  internetPassword : Bytes
  localAddress : NodeAddress
  apPassword : Bytes
  gateway : GatewayConfig
  deriving DecidableEq, Repr

namespace NvsSession

variable (session : NvsSession)

/-- `nvs_open`, for reading. -/
def nvsOpen (call : Nat) (name : String) : Option NvsSpace :=
  if session.fails call then none else session.space name

/-- `nvs_get_str` without a buffer: the size of the text with its NUL. -/
def nvsGetStrSize (call : Nat) (space : NvsSpace) (key : String) : Option Nat :=
  if session.fails call then none else (space.texts.find key).map (·.length + 1)

/-- `nvs_get_str` into a buffer of `size` bytes, as a `String`. -/
def nvsGetString (call : Nat) (space : NvsSpace) (key : String) (size : Nat) : Option Bytes :=
  if session.fails call then none else (nvsGetStr space.texts key size).map ofCString

/-- `nvs_get_u8`. -/
def nvsGetU8 (call : Nat) (space : NvsSpace) (key : String) : Option UInt8 :=
  if session.fails call then none else space.bytes.find key

/-- A text whose size is asked for by the call before. -/
def nvsGetSizedString (call : Nat) (space : NvsSpace) (key : String) : Option Bytes :=
  match session.nvsGetStrSize call space key with
  | none => none
  | some requiredSize =>
      if requiredSize = 0 then none else session.nvsGetString (call + 1) space key requiredSize

/-! ## The loads -/

/-- `loadWiFiCredentials`: the globals afterwards, and the result. -/
def loadWiFiCredentials (globals : Configuration) : Configuration × Bool :=
  match session.nvsOpen 0 "wifi_config" with
  | none => (globals, false)
  | some space =>
      match session.nvsGetSizedString 1 space "ssid" with
      | none => (globals, false)
      | some ssid =>
          let globals := { globals with internetSsid := ssid }
          match session.nvsGetSizedString 3 space "password" with
          | none => (globals, false)
          | some password => ({ globals with internetPassword := password }, true)

/-- `loadLoRaConfiguration`. -/
def loadLoRaConfiguration (globals : Configuration) : Configuration × Bool :=
  match session.nvsOpen 0 "lora_config" with
  | none => (globals, false)
  | some space =>
      match session.nvsGetU8 1 space "region" with
      | none => (globals, false)
      | some region =>
          match session.nvsGetU8 2 space "community" with
          | none => (globals, false)
          | some community =>
              match session.nvsGetU8 3 space "node" with
              | none => (globals, false)
              | some node =>
                  -- the globals are written when everything has been read
                  ({ globals with localAddress := ⟨region, community, node⟩ }, true)

/-- `loadAPPassword`. -/
def loadAPPassword (globals : Configuration) : Configuration × Bool :=
  match session.nvsOpen 0 "ap_config" with
  | none => (globals, false)
  | some space =>
      match session.nvsGetSizedString 1 space "password" with
      | none => (globals, false)
      | some password => ({ globals with apPassword := password }, true)

/-- What `loadGatewayCredentials` does not need: an endpoint or a password that is not read
becomes empty, a username stays. -/
def loadGatewayOptions (space : NvsSpace) (gateway : GatewayConfig) : GatewayConfig :=
  { gateway with
      endpoint := (session.nvsGetString 4 space "gateway_endpoint" 64).getD []
      username := (session.nvsGetString 5 space "gateway_user" 128).getD gateway.username
      password := ((session.nvsGetString 6 space "gw_pass" 256).or
        ((session.nvsGetString 7 space "gateway_pass" 256).or
          (session.nvsGetString 8 space "gateway_password" 256))).getD [] }

/-- `loadGatewayCredentials`. -/
def loadGatewayCredentials (globals : Configuration) : Configuration × Bool :=
  match session.nvsOpen 0 "gateway_config" with
  | none => (globals, false)
  | some space =>
      match session.nvsGetString 1 space "gateway_type" 16 with
      | none => (globals, false)
      | some type =>
          let globals := { globals with gateway.type := type }
          match session.nvsGetString 2 space "gateway_ip" 16 with
          | none => (globals, false)
          | some ip =>
              let globals := { globals with gateway.ip := ip }
              match session.nvsGetString 3 space "gateway_port" 8 with
              | none => (globals, false)
              | some port =>
                  let globals := { globals with gateway.port := port }
                  ({ globals with gateway := session.loadGatewayOptions space globals.gateway },
                    true)

end NvsSession

/-- The four functions. -/
inductive Load
  | wifi
  | lora
  | apPassword
  | gateway
  deriving DecidableEq, Repr

namespace Load

/-- A load: the globals afterwards, and the result. -/
def run (session : NvsSession) (globals : Configuration) : Load → Configuration × Bool
  | wifi => session.loadWiFiCredentials globals
  | lora => session.loadLoRaConfiguration globals
  | apPassword => session.loadAPPassword globals
  | gateway => session.loadGatewayCredentials globals

/-- The globals that a load must fill hold what is stored. -/
def Taken (session : NvsSession) (globals : Configuration) : Load → Prop
  | wifi => ∃ space, session.space "wifi_config" = some space ∧
      space.texts.find "ssid" = some globals.internetSsid ∧
      space.texts.find "password" = some globals.internetPassword
  | lora => ∃ space, session.space "lora_config" = some space ∧
      space.bytes.find "region" = some globals.localAddress.region ∧
      space.bytes.find "community" = some globals.localAddress.community ∧
      space.bytes.find "node" = some globals.localAddress.node
  | apPassword => ∃ space, session.space "ap_config" = some space ∧
      space.texts.find "password" = some globals.apPassword
  | gateway => ∃ space, session.space "gateway_config" = some space ∧
      space.texts.find "gateway_type" = some globals.gateway.type ∧
      space.texts.find "gateway_ip" = some globals.gateway.ip ∧
      space.texts.find "gateway_port" = some globals.gateway.port

/-- A load returns true with its globals taken from the storage, or false with all of them
unchanged. -/
def AllOrNothing (session : NvsSession) (globals : Configuration) (load : Load) : Prop :=
  ((load.run session globals).2 = true ∧ load.Taken session (load.run session globals).1) ∨
    ((load.run session globals).2 = false ∧ (load.run session globals).1 = globals)

/-! ## What is assigned before the last read -/

/-- `internet_ssid`. -/
def ssidField : MemoryField Configuration Bytes :=
  ⟨(·.internetSsid), fun ssid globals => { globals with internetSsid := ssid },
    fun _ _ => rfl, fun _ => rfl⟩

/-- `internet_password`. -/
def passwordField : MemoryField Configuration Bytes :=
  ⟨(·.internetPassword), fun password globals => { globals with internetPassword := password },
    fun _ _ => rfl, fun _ => rfl⟩

/-- `gateway_type`. -/
def typeField : MemoryField Configuration Bytes :=
  ⟨(·.gateway.type), fun type globals => { globals with gateway.type := type },
    fun _ _ => rfl, fun _ => rfl⟩

/-- `gateway_ip`. -/
def ipField : MemoryField Configuration Bytes :=
  ⟨(·.gateway.ip), fun ip globals => { globals with gateway.ip := ip },
    fun _ _ => rfl, fun _ => rfl⟩

/-- `gateway_port`. -/
def portField : MemoryField Configuration Bytes :=
  ⟨(·.gateway.port), fun port globals => { globals with gateway.port := port },
    fun _ _ => rfl, fun _ => rfl⟩

/-- The values that a load needs and assigns one by one, as they are read. -/
def eagerReads (session : NvsSession) : Load → List (MemoryField Configuration Bytes × Option Bytes)
  | wifi =>
      let space := session.nvsOpen 0 "wifi_config"
      [(ssidField, space.bind (session.nvsGetSizedString 1 · "ssid")),
        (passwordField, space.bind (session.nvsGetSizedString 3 · "password"))]
  | lora | apPassword => []
  | gateway =>
      let space := session.nvsOpen 0 "gateway_config"
      [(typeField, space.bind (session.nvsGetString 1 · "gateway_type" 16)),
        (ipField, space.bind (session.nvsGetString 2 · "gateway_ip" 16)),
        (portField, space.bind (session.nvsGetString 3 · "gateway_port" 8))]

theorem separate_eagerReads (session : NvsSession) (load : Load) :
    EagerLoad.Separate (load.eagerReads session) := by
  cases load with
  | wifi => simp [EagerLoad.Separate, eagerReads, MemoryField.Apart, ssidField, passwordField]
  | lora | apPassword => exact List.Pairwise.nil
  | gateway =>
      simp [EagerLoad.Separate, eagerReads, MemoryField.Apart, typeField, ipField, portField]

end Load

/-! ## What is read -/

section Read

variable {session : NvsSession} {space : NvsSpace} {call size : Nat} {key : String} {text : Bytes}

/-- An opened namespace is in the storage. -/
theorem space_of_nvsOpen {name : String} (hopen : session.nvsOpen call name = some space) :
    session.space name = some space := by
  rw [NvsSession.nvsOpen] at hopen
  split at hopen
  · cases hopen
  · exact hopen

/-- A text that is read is stored. -/
theorem find_of_nvsGetString (hread : session.nvsGetString call space key size = some text) :
    space.texts.find key = some text := by
  rw [NvsSession.nvsGetString] at hread
  split at hread
  · cases hread
  · rcases Option.map_eq_some_iff.mp hread with ⟨stored, hstored, rfl⟩
    have hfound : space.texts.find key = some stored := (Option.filter_eq_some_iff.mp hstored).1
    rw [(ofCString_eq_self_iff _).mpr (space.no_nul key stored hfound)]
    exact hfound

theorem find_of_nvsGetSizedString (hread : session.nvsGetSizedString call space key = some text) :
    space.texts.find key = some text := by
  rw [NvsSession.nvsGetSizedString] at hread
  split at hread
  · cases hread
  · split at hread
    · cases hread
    · exact find_of_nvsGetString hread

/-- So is a byte. -/
theorem find_of_nvsGetU8 {value : UInt8} (hread : session.nvsGetU8 call space key = some value) :
    space.bytes.find key = some value := by
  rw [NvsSession.nvsGetU8] at hread
  split at hread
  · cases hread
  · exact hread

end Read

/-! ## The loads read by read -/

section Loads

variable (session : NvsSession) (globals : Configuration)

/-- The WiFi credentials are assigned as they are read. -/
theorem loadWiFiCredentials_eq :
    session.loadWiFiCredentials globals =
      EagerLoad.load (Load.wifi.eagerReads session) globals := by
  rw [NvsSession.loadWiFiCredentials, Load.eagerReads]
  cases session.nvsOpen 0 "wifi_config" with
  | none => rfl
  | some space =>
      simp only [Option.bind_some]
      cases session.nvsGetSizedString 1 space "ssid" with
      | none => rfl
      | some ssid => cases session.nvsGetSizedString 3 space "password" <;> rfl

/-- So are the type, the address and the port of the gateway. What comes behind them does not
fail, and leaves them as they are. -/
theorem loadGatewayCredentials_spec :
    let eager := EagerLoad.load (Load.gateway.eagerReads session) globals
    let loaded := session.loadGatewayCredentials globals
    loaded.2 = eager.2 ∧ (eager.2 = false → loaded.1 = eager.1) ∧
      loaded.1.gateway.type = eager.1.gateway.type ∧ loaded.1.gateway.ip = eager.1.gateway.ip ∧
      loaded.1.gateway.port = eager.1.gateway.port := by
  simp only [NvsSession.loadGatewayCredentials, Load.eagerReads]
  cases session.nvsOpen 0 "gateway_config" with
  | none => exact ⟨rfl, fun _ => rfl, rfl, rfl, rfl⟩
  | some space =>
      simp only [Option.bind_some]
      cases session.nvsGetString 1 space "gateway_type" 16 with
      | none => exact ⟨rfl, fun _ => rfl, rfl, rfl, rfl⟩
      | some type =>
          cases session.nvsGetString 2 space "gateway_ip" 16 with
          | none => exact ⟨rfl, fun _ => rfl, rfl, rfl, rfl⟩
          | some ip =>
              cases session.nvsGetString 3 space "gateway_port" 8 with
              | none => exact ⟨rfl, fun _ => rfl, rfl, rfl, rfl⟩
              | some port =>
                  refine ⟨rfl, ?_, rfl, rfl, rfl⟩
                  rintro ⟨⟩

/-- A load that goes through its reads one by one is all or nothing exactly if it does not mix. -/
theorem allOrNothing_iff_of_eager (load : Load)
    (hresult : (load.run session globals).2 =
      (EagerLoad.load (load.eagerReads session) globals).2)
    (hfailure : (EagerLoad.load (load.eagerReads session) globals).2 = false →
      (load.run session globals).1 = (EagerLoad.load (load.eagerReads session) globals).1)
    (hsuccess : EagerLoad.Loaded (load.eagerReads session)
        (EagerLoad.load (load.eagerReads session) globals).1 →
      (load.run session globals).2 = true → load.Taken session (load.run session globals).1) :
    load.AllOrNothing session globals ↔ ¬ EagerLoad.Mixed (load.eagerReads session) globals := by
  have hseparate := Load.separate_eagerReads session load
  rw [← EagerLoad.load_iff hseparate, Load.AllOrNothing]
  apply or_congr
  · rw [hresult, and_iff_left_iff_imp]
    intro htrue
    exact hsuccess (EagerLoad.loaded_of_success hseparate globals htrue) (hresult.trans htrue)
  · rw [hresult, and_congr_right_iff]
    intro hfalse
    rw [hfailure hfalse]

/-- What was read for both fields is stored. -/
theorem taken_wifi {loaded : Configuration}
    (hloaded : EagerLoad.Loaded (Load.wifi.eagerReads session) loaded) :
    Load.wifi.Taken session loaded := by
  rw [Load.eagerReads, EagerLoad.loaded_cons_iff, EagerLoad.loaded_cons_iff] at hloaded
  rcases hloaded with ⟨hssid, hpassword, -⟩
  rcases Option.bind_eq_some_iff.mp hssid with ⟨space, hopen, hssid⟩
  simp only [hopen, Option.bind_some] at hpassword
  exact ⟨space, space_of_nvsOpen hopen, find_of_nvsGetSizedString hssid,
    find_of_nvsGetSizedString hpassword⟩

theorem taken_gateway {loaded : Configuration}
    (hloaded : EagerLoad.Loaded (Load.gateway.eagerReads session) loaded) :
    Load.gateway.Taken session loaded := by
  rw [Load.eagerReads, EagerLoad.loaded_cons_iff, EagerLoad.loaded_cons_iff,
    EagerLoad.loaded_cons_iff] at hloaded
  rcases hloaded with ⟨htype, hip, hport, -⟩
  rcases Option.bind_eq_some_iff.mp htype with ⟨space, hopen, htype⟩
  simp only [hopen, Option.bind_some] at hip hport
  exact ⟨space, space_of_nvsOpen hopen, find_of_nvsGetString htype, find_of_nvsGetString hip,
    find_of_nvsGetString hport⟩

section Direct

variable {session globals} {load : Load}

theorem allOrNothing_of_failed (hrun : load.run session globals = (globals, false)) :
    load.AllOrNothing session globals :=
  .inr ⟨congrArg Prod.snd hrun, congrArg Prod.fst hrun⟩

theorem allOrNothing_of_taken {loaded : Configuration}
    (hrun : load.run session globals = (loaded, true)) (htaken : load.Taken session loaded) :
    load.AllOrNothing session globals := by
  rw [Load.AllOrNothing, hrun]
  exact .inl ⟨rfl, htaken⟩

end Direct

/-- The address is written when all of it has been read. -/
theorem allOrNothing_lora : Load.lora.AllOrNothing session globals := by
  have hrun : Load.lora.run session globals = session.loadLoRaConfiguration globals := rfl
  rw [NvsSession.loadLoRaConfiguration] at hrun
  cases hopen : session.nvsOpen 0 "lora_config" with
  | none =>
      rw [hopen] at hrun
      exact allOrNothing_of_failed hrun
  | some space =>
      cases hregion : session.nvsGetU8 1 space "region" with
      | none =>
          simp only [hopen, hregion] at hrun
          exact allOrNothing_of_failed hrun
      | some region =>
          cases hcommunity : session.nvsGetU8 2 space "community" with
          | none =>
              simp only [hopen, hregion, hcommunity] at hrun
              exact allOrNothing_of_failed hrun
          | some community =>
              simp only [hopen, hregion, hcommunity] at hrun
              cases hnode : session.nvsGetU8 3 space "node" with
              | none =>
                  rw [hnode] at hrun
                  exact allOrNothing_of_failed hrun
              | some node =>
                  rw [hnode] at hrun
                  exact allOrNothing_of_taken hrun ⟨space, space_of_nvsOpen hopen,
                    find_of_nvsGetU8 hregion, find_of_nvsGetU8 hcommunity,
                    find_of_nvsGetU8 hnode⟩

theorem allOrNothing_apPassword : Load.apPassword.AllOrNothing session globals := by
  have hrun : Load.apPassword.run session globals = session.loadAPPassword globals := rfl
  rw [NvsSession.loadAPPassword] at hrun
  cases hopen : session.nvsOpen 0 "ap_config" with
  | none =>
      rw [hopen] at hrun
      exact allOrNothing_of_failed hrun
  | some space =>
      cases hpassword : session.nvsGetSizedString 1 space "password" with
      | none =>
          simp only [hopen, hpassword] at hrun
          exact allOrNothing_of_failed hrun
      | some password =>
          simp only [hopen, hpassword] at hrun
          exact allOrNothing_of_taken hrun ⟨space, space_of_nvsOpen hopen,
            find_of_nvsGetSizedString hpassword⟩

/-- **All or nothing.** A load returns true with its globals taken from the storage, or false with
all of them unchanged, exactly if it does not assign a new value before a read that fails. -/
theorem all_or_nothing_iff (load : Load) :
    load.AllOrNothing session globals ↔ ¬ EagerLoad.Mixed (load.eagerReads session) globals := by
  cases load with
  | wifi =>
      have hrun := loadWiFiCredentials_eq session globals
      apply allOrNothing_iff_of_eager
      · exact congrArg Prod.snd hrun
      · exact fun _ => congrArg Prod.fst hrun
      · intro hloaded _
        rw [Load.run, hrun]
        exact taken_wifi session hloaded
  | lora =>
      apply iff_of_true (allOrNothing_lora session globals)
      rintro ⟨⟨_, hmem, -⟩, -⟩
      cases hmem
  | apPassword =>
      apply iff_of_true (allOrNothing_apPassword session globals)
      rintro ⟨⟨_, hmem, -⟩, -⟩
      cases hmem
  | gateway =>
      rcases loadGatewayCredentials_spec session globals with
        ⟨hresult, hfailure, htype, hip, hport⟩
      apply allOrNothing_iff_of_eager session globals .gateway hresult hfailure
      intro hloaded _
      rw [Load.run, Load.Taken, htype, hip, hport]
      exact taken_gateway session hloaded

/-- Nothing fails: the gateway is loaded as `loadGatewayCredentials` of the storage alone loads
it. -/
theorem loadGatewayCredentials_of_works {space : NvsSpace}
    (hspace : session.space "gateway_config" = some space)
    (hworks : ∀ call, session.fails call = false) :
    session.loadGatewayCredentials globals =
      ({ globals with gateway := (loadGatewayCredentials space.texts globals.gateway).1 },
        (loadGatewayCredentials space.texts globals.gateway).2) := by
  have hopen : session.nvsOpen 0 "gateway_config" = some space := by
    rw [NvsSession.nvsOpen, hworks, hspace]
    rfl
  have hget : ∀ call key size,
      session.nvsGetString call space key size = nvsGetStr space.texts key size := by
    intro call key size
    rw [NvsSession.nvsGetString, hworks, if_neg Bool.false_ne_true]
    cases hread : nvsGetStr space.texts key size with
    | none => rfl
    | some text =>
        have hfound : space.texts.find key = some text := (Option.filter_eq_some_iff.mp hread).1
        rw [Option.map_some, (ofCString_eq_self_iff _).mpr (space.no_nul key text hfound)]
  rw [NvsSession.loadGatewayCredentials, loadGatewayCredentials]
  simp only [hopen, hget, NvsSession.loadGatewayOptions]
  cases nvsGetStr space.texts "gateway_type" 16 with
  | none => rfl
  | some type =>
      cases nvsGetStr space.texts "gateway_ip" 16 with
      | none => rfl
      | some ip => cases nvsGetStr space.texts "gateway_port" 8 <;> rfl

end Loads

/-- Stored WiFi credentials, with a password that cannot be read. -/
def unreadablePassword : NvsSession where
  space := fun name =>
    if name = "wifi_config" then
      some ((NvsSpace.blank.setStr "ssid" (ascii "moon")).setStr "password" (ascii "wow"))
    else none
  fails := fun call => call = 4

/-- The globals when the firmware starts. -/
def Configuration.boot : Configuration :=
  ⟨[], [], ⟨0, 0, 0⟩, ascii "radiodoge", GatewayConfig.boot⟩

/-- The name of the network stays without its password. -/
theorem ssid_loaded_without_password :
    Load.wifi.run unreadablePassword Configuration.boot =
        ({ Configuration.boot with internetSsid := ascii "moon" }, false) ∧
      ¬ Load.wifi.AllOrNothing unreadablePassword Configuration.boot := by
  have hrun : Load.wifi.run unreadablePassword Configuration.boot =
      ({ Configuration.boot with internetSsid := ascii "moon" }, false) := by decide +kernel
  apply And.intro hrun
  rw [Load.AllOrNothing, hrun]
  rintro (⟨htrue, -⟩ | ⟨-, hsame⟩)
  · cases htrue
  · exact absurd hsame (by decide)

end RadioDoge.V3
