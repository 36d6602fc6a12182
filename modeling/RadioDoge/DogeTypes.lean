/-
# Codes of the Dogecoin layer

The payload of a host packet begins with a command of the Dogecoin layer. The hub and
serdog number the commands alike, and the codes of a response and of a registration as
well.
-/

import RadioDoge.Types

namespace RadioDoge

/-- `DogeCommandType`; `dogeCommand` in serdog. -/
inductive DogeCommandType
  | registration
  | broadcastReceived
  | getDogeAddress
  | sendDogeAddress
  | getUTXOs
  | sendUTXOs
  | requestBalance
  | balanceReceived
  | dogeCommandSuccess
  | dogeCommandFailure
  | transactionRequest
  | transactionResult
  deriving DecidableEq, Repr

namespace DogeCommandType

/-- The numeric value of an enumerator. -/
def code : DogeCommandType → UInt8
  | .registration => 15
  | .broadcastReceived => 98
  | .getDogeAddress => 120
  | .sendDogeAddress => 240
  | .getUTXOs => 111
  | .sendUTXOs => 112
  | .requestBalance => 101
  | .balanceReceived => 202
  | .dogeCommandSuccess => 1
  | .dogeCommandFailure => 254
  | .transactionRequest => 170
  | .transactionResult => 171

/-- The enumerator with a given value. -/
def ofCode? (code : UInt8) : Option DogeCommandType :=
  [registration, broadcastReceived, getDogeAddress, sendDogeAddress, getUTXOs, sendUTXOs,
    requestBalance, balanceReceived, dogeCommandSuccess, dogeCommandFailure, transactionRequest,
    transactionResult].find? (·.code = code)

/-- The values are distinct. -/
@[simp]
theorem ofCode?_code (command : DogeCommandType) : ofCode? command.code = some command := by
  cases command
  all_goals rfl

/-- What is found has the value. -/
theorem code_of_ofCode? {code : UInt8} {command : DogeCommandType}
    (h : ofCode? code = some command) : command.code = code := by
  have hfound := List.find?_some h
  exact of_decide_eq_true hfound

end DogeCommandType

/-- `DogeResponseCode`. -/
inductive DogeResponseCode
  | success
  | invalidAddress
  | alreadyRegistered
  | notRegistered
  | invalidPin
  | noStoredUTXOs
  | watchlistFailure
  deriving DecidableEq, Repr

/-- The numeric value of an enumerator of `DogeResponseCode`. -/
def DogeResponseCode.code : DogeResponseCode → UInt8
  | .success => 0
  | .invalidAddress => 1
  | .alreadyRegistered => 2
  | .notRegistered => 3
  | .invalidPin => 4
  | .noStoredUTXOs => 5
  | .watchlistFailure => 6

/-- `RegistrationFunction`. -/
inductive RegistrationFunction
  | addRegistration
  | removeRegistration
  | updatePin
  deriving DecidableEq, Repr

namespace RegistrationFunction

/-- The numeric value of an enumerator. -/
def code : RegistrationFunction → UInt8
  | .addRegistration => 10
  | .removeRegistration => 20
  | .updatePin => 30

/-- The enumerator with a given value. -/
def ofCode? (code : UInt8) : Option RegistrationFunction :=
  [addRegistration, removeRegistration, updatePin].find? (·.code = code)

/-- The values are distinct. -/
@[simp]
theorem ofCode?_code (function : RegistrationFunction) :
    ofCode? function.code = some function := by
  cases function
  all_goals rfl

/-- What is found has the value. -/
theorem code_of_ofCode? {code : UInt8} {function : RegistrationFunction}
    (h : ofCode? code = some function) : function.code = code := by
  have hfound := List.find?_some h
  exact of_decide_eq_true hfound

end RegistrationFunction

/-- `PIN_LENGTH`. -/
abbrev pinLength : Nat := 4

/-- A PIN: an array of `PIN_LENGTH` bytes, at the hub as in serdog. -/
abbrev Pin := Vector UInt8 pinLength

/-- The PIN of these bytes. -/
abbrev Pin.of (first second third fourth : UInt8) : Pin := #v[first, second, third, fourth]

/-- `SERIALIZED_VOUT_LENGTH`. -/
abbrev voutLength : Nat := 4

/-- `TXID_STRING_LENGTH`. -/
abbrev txIdStringLength : Nat := 64

/-- `SERIALIZED_BALANCE_LENGTH`. -/
abbrev balanceLength : Nat := 8

/-- An unspent output: `UnspentTransactionOutput` of the hub, and what serdog reads from
its `utxoInfo`. The id is a text, given by its characters. -/
structure Utxo where
  vout : Int32
  txId : Bytes
  amount : UInt64
  deriving DecidableEq

end RadioDoge
