/-
# Gateway credentials across a reboot

Two handlers of the web interface take a gateway configuration, write it to the flash storage
and keep it in memory. After a reboot `loadGatewayCredentials` reads it back, into buffers of
fixed sizes. The key of the endpoint has 16 characters, one more than a key may have, so an
endpoint is never stored; and a value that does not fit its buffer is not read.
`restored_iff` says which configurations come back.

The storage is a store that limits its keys; opening it and committing work.
-/

import RadioDoge.Lib.LimitedStore
import RadioDoge.V3.WebInterface

namespace RadioDoge.V3

/-! ## The storage -/

/-- The namespace `gateway_config`. A key has at most 15 characters. -/
abbrev Nvs : Type := LimitedStore String Bytes (fun key => key.length ≤ 15)

/-- `nvs_set_str`, of a `String`'s `c_str`. -/
def nvsSetStr (nvs : Nvs) (key : String) (value : Bytes) : Nvs := nvs.set key (ofCString value)

/-- `nvs_get_str` into a buffer of `size` bytes, which has to hold the NUL as well. -/
def nvsGetStr (nvs : Nvs) (key : String) (size : Nat) : Option Bytes :=
  (nvs.find key).filter (·.length < size)

/-- `nvs_set_str` where there is something to store. -/
def nvsSetStrIfAny (nvs : Nvs) (key : String) (value : Bytes) : Nvs :=
  if value.length > 0 then nvsSetStr nvs key value else nvs

/-- `saveGatewayCredentials`. -/
def saveGatewayCredentials (config : GatewayConfig) (nvs : Nvs) : Nvs :=
  let nvs := ((nvs.erase "gw_pass").erase "gateway_pass").erase "gateway_password"
  let nvs := nvsSetStr nvs "gateway_type" config.type
  let nvs := nvsSetStr nvs "gateway_ip" config.ip
  let nvs := nvsSetStr nvs "gateway_port" config.port
  let nvs := nvsSetStr nvs "gateway_endpoint" config.endpoint
  let nvs := nvsSetStrIfAny nvs "gateway_user" config.username
  nvsSetStrIfAny nvs "gw_pass" config.password

/-- `loadGatewayCredentials`: the configuration in memory afterwards, and the result. -/
def loadGatewayCredentials (nvs : Nvs) (memory : GatewayConfig) : GatewayConfig × Bool :=
  match nvsGetStr nvs "gateway_type" 16 with
  | none => (memory, false)
  | some type =>
      let memory := { memory with type := type }
      match nvsGetStr nvs "gateway_ip" 16 with
      | none => (memory, false)
      | some ip =>
          let memory := { memory with ip := ip }
          match nvsGetStr nvs "gateway_port" 8 with
          | none => (memory, false)
          | some port =>
              -- an endpoint or a password that is not read becomes empty, a username stays
              ({ memory with
                  port := port
                  endpoint := (nvsGetStr nvs "gateway_endpoint" 64).getD []
                  username := (nvsGetStr nvs "gateway_user" 128).getD memory.username
                  password := ((nvsGetStr nvs "gw_pass" 256).or
                    ((nvsGetStr nvs "gateway_pass" 256).or
                      (nvsGetStr nvs "gateway_password" 256))).getD [] }, true)

/-! ## The handlers -/

/-- The arguments of a request. -/
structure GatewayArguments where
  type : Option Bytes
  ip : Option Bytes
  port : Option Bytes
  endpoint : Option Bytes
  username : Option Bytes
  password : Option Bytes
  deriving DecidableEq, Repr

/-- Why a request is refused. -/
inductive GatewayFault
  | missingParameters
  | type
  | ip
  | port
  | endpoint
  | credentials
  deriving DecidableEq, Repr

/-- The checks of both handlers, in their order. -/
def GatewayConfig.check (config : GatewayConfig) : Except GatewayFault GatewayConfig :=
  if equals config.type (ascii "none") then .error .type
  else if config.ip.length = 0 then .error .ip
  else if config.port.length = 0 then .error .port
  else if equals config.type (ascii "core") = false ∧ config.endpoint.length = 0 then
    .error .endpoint
  else if equals config.type (ascii "core") = true ∧
      (config.username.length = 0 ∨ config.password.length = 0) then .error .credentials
  else .ok config

/-- The configuration of a request, if it passes them. -/
def GatewayArguments.validate (arguments : GatewayArguments) :
    Except GatewayFault GatewayConfig :=
  match arguments.type, arguments.ip, arguments.port with
  | some type, some ip, some port =>
      GatewayConfig.check ⟨type, ip, port, arguments.endpoint.getD [],
        arguments.username.getD [], arguments.password.getD []⟩
  | _, _, _ => .error .missingParameters

/-- The configuration in memory and the storage. -/
structure GatewayStore where
  memory : GatewayConfig
  nvs : Nvs

namespace GatewayStore

/-- A handler with its texts: save what passes the checks, and answer. -/
def configure (faultText : GatewayFault → String) (action message : String) (millis : UInt32)
    (arguments : GatewayArguments) (store : GatewayStore) : GatewayStore × Bytes :=
  match arguments.validate with
  | .ok config =>
      (⟨config, saveGatewayCredentials config store.nvs⟩,
        WebAnswer.apiHead millis ++ ascii "\"action\":\"" ++ ascii action ++
          ascii "\",\"message\":\"" ++ ascii message ++ ascii "\"\x7d")
  | .error fault => (store, WebAnswer.apiHead millis ++ TargetAnswer.apiError (faultText fault))

/-- `handleApiGatewaySave`. -/
def handleApiGatewaySave :=
  configure (fun
    | .missingParameters => "Missing required parameters"
    | .type => "Please select a gateway type"
    | .ip => "Please enter IP address"
    | .port => "Please enter port"
    | .endpoint => "Please enter endpoint for this gateway type"
    | .credentials => "Please enter RPC username and password for CORE gateway")
    "gateway_save" "Gateway credentials saved successfully"

/-- `handleApiGatewayConfigSet`. -/
def handleApiGatewayConfigSet :=
  configure (fun
    | .missingParameters => "Missing required parameters: type, ip, port"
    | .type => "Invalid gateway type"
    | .ip => "IP address is required"
    | .port => "Port is required"
    | .endpoint => "Endpoint is required for non-CORE gateways"
    | .credentials => "Username and password are required for CORE gateway")
    "gateway_config_set" "Gateway configuration updated successfully"

end GatewayStore

/-- A request to one of the two endpoints. -/
inductive GatewayRequest
  | save (millis : UInt32) (arguments : GatewayArguments)
  | configSet (millis : UInt32) (arguments : GatewayArguments)
  deriving DecidableEq, Repr

namespace GatewayRequest

/-- The configuration of a request that is accepted. -/
def accepted : GatewayRequest → Option GatewayConfig
  | .save _ arguments | .configSet _ arguments => arguments.validate.toOption

/-- The handler of a request. -/
def handle (store : GatewayStore) : GatewayRequest → GatewayStore
  | .save millis arguments => (store.handleApiGatewaySave millis arguments).1
  | .configSet millis arguments => (store.handleApiGatewayConfigSet millis arguments).1

end GatewayRequest

namespace GatewayStore

/-- One request after the other. -/
def run (store : GatewayStore) (requests : List GatewayRequest) : GatewayStore :=
  requests.foldl GatewayRequest.handle store

/-- After a reboot the storage gives back what is in memory. -/
def Restored (store : GatewayStore) : Prop :=
  (loadGatewayCredentials store.nvs GatewayConfig.boot).1 = store.memory

end GatewayStore

/-- A text that a C buffer of this size holds. -/
def FitsBuffer (size : Nat) (text : Bytes) : Prop := (0 : UInt8) ∉ text ∧ text.length < size

instance (size : Nat) (text : Bytes) : Decidable (FitsBuffer size text) :=
  inferInstanceAs (Decidable (_ ∧ _))

/-- The configurations that come back: without an endpoint, and with texts that fit. -/
structure GatewayConfig.Restorable (config : GatewayConfig) : Prop where
  type : FitsBuffer 16 config.type
  ip : FitsBuffer 16 config.ip
  port : FitsBuffer 8 config.port
  endpoint : config.endpoint = []
  username : FitsBuffer 128 config.username
  password : FitsBuffer 256 config.password

/-! ## What is let through -/

/-- What the checks let through: a core gateway has credentials, any other one an endpoint. -/
structure GatewayConfig.Checked (config : GatewayConfig) : Prop where
  type : config.type ≠ ascii "none"
  ip : config.ip ≠ []
  port : config.port ≠ []
  credentials : config.endpoint = [] → config.username ≠ [] ∧ config.password ≠ []

/-- What passes the checks is left as it is. -/
theorem checked_of_check {config accepted : GatewayConfig} (h : config.check = .ok accepted) :
    accepted = config ∧ config.Checked := by
  rw [GatewayConfig.check] at h
  by_cases htype : equals config.type (ascii "none") = true
  · rw [if_pos htype] at h
    cases h
  rw [if_neg htype] at h
  by_cases hip : config.ip.length = 0
  · rw [if_pos hip] at h
    cases h
  rw [if_neg hip] at h
  by_cases hport : config.port.length = 0
  · rw [if_pos hport] at h
    cases h
  rw [if_neg hport] at h
  by_cases hendpoint : equals config.type (ascii "core") = false ∧ config.endpoint.length = 0
  · rw [if_pos hendpoint] at h
    cases h
  rw [if_neg hendpoint] at h
  by_cases hcredentials : equals config.type (ascii "core") = true ∧
      (config.username.length = 0 ∨ config.password.length = 0)
  · rw [if_pos hcredentials] at h
    cases h
  rw [if_neg hcredentials] at h
  refine ⟨(Except.ok.inj h).symm, ?_⟩
  apply GatewayConfig.Checked.mk
  · intro hnone
    rw [hnone] at htype
    exact htype (by decide)
  · exact fun hnil => hip (congrArg List.length hnil)
  · exact fun hnil => hport (congrArg List.length hnil)
  · intro hnil
    have hcore : equals config.type (ascii "core") = true := by
      by_contra hother
      exact hendpoint ⟨Bool.eq_false_of_not_eq_true hother, congrArg List.length hnil⟩
    rcases not_or.mp (not_and.mp hcredentials hcore) with ⟨husername, hpassword⟩
    exact ⟨fun hempty => husername (congrArg List.length hempty),
      fun hempty => hpassword (congrArg List.length hempty)⟩

/-- An accepted configuration has passed the checks. -/
theorem checked_of_accepted {request : GatewayRequest} {config : GatewayConfig}
    (h : request.accepted = some config) : config.Checked := by
  have hvalid : ∀ arguments : GatewayArguments, arguments.validate.toOption = some config →
      config.Checked := by
    intro arguments hsome
    cases hresult : arguments.validate with
    | error fault =>
        rw [hresult] at hsome
        cases hsome
    | ok found =>
        rw [hresult] at hsome
        rcases Option.some.inj hsome with rfl
        rw [GatewayArguments.validate] at hresult
        split at hresult
        · rcases checked_of_check hresult with ⟨hsame, hchecked⟩
          rw [hsame]
          exact hchecked
        · cases hresult
  cases request with
  | save millis arguments => exact hvalid arguments h
  | configSet millis arguments => exact hvalid arguments h

/-- A handler saves the configuration that it accepts, and nothing else. -/
theorem handle_eq (store : GatewayStore) (request : GatewayRequest) :
    request.handle store =
      match request.accepted with
      | some config => ⟨config, saveGatewayCredentials config store.nvs⟩
      | none => store := by
  have hconfigure : ∀ (faultText : GatewayFault → String) (action message : String)
      (millis : UInt32) (arguments : GatewayArguments),
      (store.configure faultText action message millis arguments).1 =
        match arguments.validate.toOption with
        | some config => ⟨config, saveGatewayCredentials config store.nvs⟩
        | none => store := by
    intro faultText action message millis arguments
    rw [GatewayStore.configure]
    cases arguments.validate with
    | error fault => rfl
    | ok config => rfl
  cases request with
  | save millis arguments => exact hconfigure _ _ _ millis arguments
  | configSet millis arguments => exact hconfigure _ _ _ millis arguments

/-- **A sequence of requests.** The last accepted configuration is in memory, and was the last
one to be saved. -/
theorem run_eq (start : GatewayStore) {requests : List GatewayRequest} {config : GatewayConfig}
    (hlast : (requests.filterMap GatewayRequest.accepted).getLast? = some config) :
    config.Checked ∧
      ∃ nvs, start.run requests = ⟨config, saveGatewayCredentials config nvs⟩ := by
  induction requests using List.reverseRecOn with
  | nil => cases hlast
  | append_singleton requests request ih =>
      have hrun : start.run (requests ++ [request]) = request.handle (start.run requests) :=
        List.foldl_concat _ _ _ _
      rw [List.filterMap_append, List.filterMap_cons, List.filterMap_nil] at hlast
      rw [hrun, handle_eq]
      cases haccepted : request.accepted with
      | none =>
          rw [haccepted, List.append_nil] at hlast
          exact ih hlast
      | some found =>
          rw [haccepted, List.getLast?_concat] at hlast
          rcases Option.some.inj hlast with rfl
          exact ⟨checked_of_accepted haccepted, _, rfl⟩

/-! ## What is found -/

section Found

variable (config : GatewayConfig) (nvs : Nvs)

/-- A write under a short key is found. -/
theorem find_nvsSetStr_self {key : String} (hkey : key.length ≤ 15) (value : Bytes) :
    (nvsSetStr nvs key value).find key = some (ofCString value) :=
  nvs.find_set_self hkey

/-- A write leaves the other keys alone. -/
theorem find_nvsSetStr_of_ne {key other : String} (hother : other ≠ key) (value : Bytes) :
    (nvsSetStr nvs key value).find other = nvs.find other :=
  nvs.find_set_of_ne hother

theorem find_nvsSetStrIfAny_of_ne {key other : String} (hother : other ≠ key) (value : Bytes) :
    (nvsSetStrIfAny nvs key value).find other = nvs.find other := by
  rw [nvsSetStrIfAny]
  split
  · exact find_nvsSetStr_of_ne nvs hother value
  · rfl

theorem find_nvsSetStrIfAny_self {key : String} (hkey : key.length ≤ 15) {value : Bytes}
    (hne : value ≠ []) : (nvsSetStrIfAny nvs key value).find key = some (ofCString value) := by
  rw [nvsSetStrIfAny, if_pos (List.length_pos_iff.mpr hne)]
  exact find_nvsSetStr_self nvs hkey value

/-- What is found of a saved configuration. -/
structure Saved (config : GatewayConfig) (nvs : Nvs) : Prop where
  type : nvs.find "gateway_type" = some (ofCString config.type)
  ip : nvs.find "gateway_ip" = some (ofCString config.ip)
  port : nvs.find "gateway_port" = some (ofCString config.port)
  endpoint : nvs.find "gateway_endpoint" = none
  username : config.username ≠ [] → nvs.find "gateway_user" = some (ofCString config.username)
  password : config.password ≠ [] → nvs.find "gw_pass" = some (ofCString config.password)
  oldPassword : nvs.find "gateway_pass" = none
  longPassword : nvs.find "gateway_password" = none

/-- `saveGatewayCredentials` saves all but the endpoint. -/
theorem saved_saveGatewayCredentials : Saved config (saveGatewayCredentials config nvs) := by
  let erased := ((nvs.erase "gw_pass").erase "gateway_pass").erase "gateway_password"
  have hlong : ∀ (key : String), ¬ key.length ≤ 15 →
      (saveGatewayCredentials config nvs).find key = none :=
    fun key hkey => (saveGatewayCredentials config nvs).find_of_not_allowed hkey
  -- the last two writes, and the one of the endpoint, do not meet the other keys
  have hkeep : ∀ key : String, key ≠ "gw_pass" → key ≠ "gateway_user" → key ≠ "gateway_endpoint" →
      (saveGatewayCredentials config nvs).find key =
        (nvsSetStr (nvsSetStr (nvsSetStr erased "gateway_type" config.type) "gateway_ip" config.ip)
          "gateway_port" config.port).find key := by
    intro key hpassword husername hendpoint
    rw [saveGatewayCredentials, find_nvsSetStrIfAny_of_ne _ hpassword,
      find_nvsSetStrIfAny_of_ne _ husername, find_nvsSetStr_of_ne _ hendpoint]
  apply Saved.mk
  · rw [hkeep _ (by decide) (by decide) (by decide), find_nvsSetStr_of_ne _ (by decide),
      find_nvsSetStr_of_ne _ (by decide), find_nvsSetStr_self _ (by decide)]
  · rw [hkeep _ (by decide) (by decide) (by decide), find_nvsSetStr_of_ne _ (by decide),
      find_nvsSetStr_self _ (by decide)]
  · rw [hkeep _ (by decide) (by decide) (by decide), find_nvsSetStr_self _ (by decide)]
  · exact hlong "gateway_endpoint" (by decide)
  · intro hne
    rw [saveGatewayCredentials, find_nvsSetStrIfAny_of_ne _ (by decide),
      find_nvsSetStrIfAny_self _ (by decide) hne]
  · intro hne
    rw [saveGatewayCredentials, find_nvsSetStrIfAny_self _ (by decide) hne]
  · rw [hkeep _ (by decide) (by decide) (by decide), find_nvsSetStr_of_ne _ (by decide),
      find_nvsSetStr_of_ne _ (by decide), find_nvsSetStr_of_ne _ (by decide),
      LimitedStore.find_erase_of_ne _ (by decide), LimitedStore.find_erase_self]
  · exact hlong "gateway_password" (by decide)

end Found

/-! ## What is read back -/

/-- What is read of a stored text. -/
theorem nvsGetStr_of_find {nvs : Nvs} {key : String} {text : Bytes}
    (hfound : nvs.find key = some (ofCString text)) (size : Nat) :
    nvsGetStr nvs key size =
      if (ofCString text).length < size then some (ofCString text) else none := by
  rw [nvsGetStr, hfound, Option.filter_some]
  simp only [decide_eq_true_eq]

/-- A stored text is read as it was exactly if it fits the buffer. -/
theorem nvsGetStr_eq_iff {nvs : Nvs} {key : String} {text : Bytes}
    (hfound : nvs.find key = some (ofCString text)) (size : Nat) :
    nvsGetStr nvs key size = some text ↔ FitsBuffer size text := by
  rw [nvsGetStr_of_find hfound, FitsBuffer, ← ofCString_eq_self_iff]
  apply Iff.intro
  · intro hread
    split at hread
    · next hshort =>
        have hsame := Option.some.inj hread
        rw [hsame] at hshort
        exact ⟨hsame, hshort⟩
    · cases hread
  · intro hfits
    rw [hfits.1, if_pos hfits.2]

/-- A key without a value gives nothing. -/
theorem nvsGetStr_of_none {nvs : Nvs} {key : String} (hnone : nvs.find key = none) (size : Nat) :
    nvsGetStr nvs key size = none := by
  rw [nvsGetStr, hnone]
  rfl

/-- A text that is not empty is read back exactly if it fits, where an empty one stands for what
is not read. -/
theorem getD_nvsGetStr_eq_iff {nvs : Nvs} {key : String} {text : Bytes}
    (hfound : nvs.find key = some (ofCString text)) (hne : text ≠ []) (size : Nat) :
    (nvsGetStr nvs key size).getD [] = text ↔ FitsBuffer size text := by
  rw [← nvsGetStr_eq_iff hfound]
  cases nvsGetStr nvs key size with
  | none => exact iff_of_false (Ne.symm hne) (fun hnone => by cases hnone)
  | some read => exact Option.some_inj.symm

section Read

variable {config : GatewayConfig} {nvs : Nvs}

/-- What is loaded behind the first three values. -/
theorem load_of_read {type ip port : Bytes} (htype : nvsGetStr nvs "gateway_type" 16 = some type)
    (hip : nvsGetStr nvs "gateway_ip" 16 = some ip)
    (hport : nvsGetStr nvs "gateway_port" 8 = some port) (hsaved : Saved config nvs) :
    (loadGatewayCredentials nvs GatewayConfig.boot).1 =
      ⟨type, ip, port, [], (nvsGetStr nvs "gateway_user" 128).getD [],
        (nvsGetStr nvs "gw_pass" 256).getD []⟩ := by
  rw [loadGatewayCredentials]
  simp only [htype, hip, hport, nvsGetStr_of_none hsaved.endpoint,
    nvsGetStr_of_none hsaved.oldPassword, nvsGetStr_of_none hsaved.longPassword, Option.or_none,
    Option.getD_none]
  rfl

/-- Only a type, an address and a port that are read back can come back. -/
theorem read_of_load_eq (hchecked : config.Checked) (hsaved : Saved config nvs)
    (hload : (loadGatewayCredentials nvs GatewayConfig.boot).1 = config) :
    nvsGetStr nvs "gateway_type" 16 = some config.type ∧
      nvsGetStr nvs "gateway_ip" 16 = some config.ip ∧
      nvsGetStr nvs "gateway_port" 8 = some config.port := by
  cases htype : nvsGetStr nvs "gateway_type" 16 with
  | none =>
      simp only [loadGatewayCredentials, htype] at hload
      exact absurd (congrArg GatewayConfig.type hload).symm hchecked.type
  | some type =>
      cases hip : nvsGetStr nvs "gateway_ip" 16 with
      | none =>
          simp only [loadGatewayCredentials, htype, hip] at hload
          exact absurd (congrArg GatewayConfig.ip hload).symm hchecked.ip
      | some ip =>
          cases hport : nvsGetStr nvs "gateway_port" 8 with
          | none =>
              simp only [loadGatewayCredentials, htype, hip, hport] at hload
              exact absurd (congrArg GatewayConfig.port hload).symm hchecked.port
          | some port =>
              rw [load_of_read htype hip hport hsaved] at hload
              rw [← hload]
              exact ⟨rfl, rfl, rfl⟩

/-- A saved configuration comes back exactly if it is restorable. -/
theorem load_eq_iff (hchecked : config.Checked) (hsaved : Saved config nvs) :
    (loadGatewayCredentials nvs GatewayConfig.boot).1 = config ↔ config.Restorable := by
  have htype := nvsGetStr_eq_iff hsaved.type 16
  have hip := nvsGetStr_eq_iff hsaved.ip 16
  have hport := nvsGetStr_eq_iff hsaved.port 8
  apply Iff.intro
  · intro hload
    rcases read_of_load_eq hchecked hsaved hload with ⟨hreadType, hreadIp, hreadPort⟩
    rw [load_of_read hreadType hreadIp hreadPort hsaved] at hload
    have hendpoint : config.endpoint = [] := (congrArg GatewayConfig.endpoint hload).symm
    rcases hchecked.credentials hendpoint with ⟨husername, hpassword⟩
    exact
      { type := htype.mp hreadType
        ip := hip.mp hreadIp
        port := hport.mp hreadPort
        endpoint := hendpoint
        username := (getD_nvsGetStr_eq_iff (hsaved.username husername) husername 128).mp
          (congrArg GatewayConfig.username hload)
        password := (getD_nvsGetStr_eq_iff (hsaved.password hpassword) hpassword 256).mp
          (congrArg GatewayConfig.password hload) }
  · intro hrestorable
    rcases hchecked.credentials hrestorable.endpoint with ⟨husername, hpassword⟩
    rw [load_of_read (htype.mpr hrestorable.type) (hip.mpr hrestorable.ip)
      (hport.mpr hrestorable.port) hsaved,
      (getD_nvsGetStr_eq_iff (hsaved.username husername) husername 128).mpr hrestorable.username,
      (getD_nvsGetStr_eq_iff (hsaved.password hpassword) hpassword 256).mpr hrestorable.password,
      ← hrestorable.endpoint]

end Read

/-- **Across a reboot.** Whatever was stored and configured before, the last accepted
configuration comes back exactly if it has no endpoint and its texts fit the buffers. -/
theorem restored_iff (start : GatewayStore) {requests : List GatewayRequest}
    {config : GatewayConfig}
    (hlast : (requests.filterMap GatewayRequest.accepted).getLast? = some config) :
    (start.run requests).Restored ↔ config.Restorable := by
  rcases run_eq start hlast with ⟨hchecked, nvs, hrun⟩
  rw [hrun]
  exact load_eq_iff hchecked (saved_saveGatewayCredentials config nvs)

/-- A request for a wallet gateway with an endpoint, as the web page fills it in. -/
def walletRequest : GatewayRequest :=
  .save 0 ⟨some (ascii "wallet"), some (ascii "10.0.0.7"), some (ascii "80"),
    some (ascii "/tx/send"), none, none⟩

/-- A request for a core gateway. -/
def coreRequest : GatewayRequest :=
  .configSet 0 ⟨some (ascii "core"), some (ascii "10.0.0.7"), some (ascii "22555"), none,
    some (ascii "doge"), some (ascii "such-secret")⟩

/-- Storage and memory of a new device. -/
def GatewayStore.blank : GatewayStore := ⟨GatewayConfig.boot, LimitedStore.empty⟩

/-- The equivalence for a core gateway behind a wallet gateway. -/
theorem restored_iff_core :
    (GatewayStore.blank.run [walletRequest, coreRequest]).Restored ↔
      GatewayConfig.Restorable ⟨ascii "core", ascii "10.0.0.7", ascii "22555", [], ascii "doge",
        ascii "such-secret"⟩ :=
  restored_iff GatewayStore.blank (by decide)

/-- The wallet gateway loses its endpoint. -/
theorem wallet_loses_endpoint :
    walletRequest.accepted.isSome ∧ ¬ (GatewayStore.blank.run [walletRequest]).Restored ∧
      (loadGatewayCredentials (GatewayStore.blank.run [walletRequest]).nvs
        GatewayConfig.boot).1.endpoint = [] := by
  refine ⟨by decide, ?_, ?_⟩
  · intro hrestored
    exact absurd (congrArg GatewayConfig.endpoint hrestored) (by decide +kernel)
  · decide +kernel

end RadioDoge.V3
