/-
# Working transactions

libdogecoin keeps the transactions that are being built in a table, and its callers name them by
their index. An address that does not decode adds no output, and is not reported; nor does it
matter to the caller whether `finalize_transaction`, which adds the change, finds the sums right.

A raw transaction stands in one buffer of the library. `get_raw_transaction` has no text for one
that is too large for it, but `sign_raw_transaction` writes the signed one there whatever its size.
It may run over the end of the buffer; the transaction that is then read from there and saved is
the signed one all the same.

The functions of the keys and of base58 are a parameter, and so is what is read behind the buffer.
Nothing else is taken to depend on what stands there. A step that is undefined, such as the use of
a raw transaction that is not there, leaves no table.
-/

import RadioDoge.Libdogecoin.Koinu
import RadioDoge.Libdogecoin.Tx

namespace RadioDoge.Libdogecoin

/-! ## The identifier of a transaction -/

/-- `utils_hex_digit`, of a character that is a hexadecimal digit. -/
def isHexDigit (c : UInt8) : Bool :=
  48 ≤ c ∧ c ≤ 57 ∨ 97 ≤ c ∧ c ≤ 102 ∨ 65 ≤ c ∧ c ≤ 70

/-- The loop of `utils_uint256_sethex`, which goes from the last digit to the first. -/
def pairDigits : Bytes → Bytes
  | low :: high :: rest => (hexValue low ||| hexValue high <<< 4) :: pairDigits rest
  | [low] => [hexValue low]
  | [] => []

/-- `utils_uint256_sethex`. -/
def utilsUint256Sethex (psz : Bytes) : Vector UInt8 32 :=
  let psz := psz.dropWhile isSpace
  let psz :=
    match psz with
    | 48 :: 120 :: rest => rest
    | 48 :: 88 :: rest => rest
    | _ => psz
  let digits := psz.takeWhile isHexDigit
  memcpy (Vector.replicate 32 0) 0 ((pairDigits digits.reverse).take 32)

/-! ## Addresses -/

/-- The functions of base58 and of the keys: the bytes that an address decodes to, none if it
does not; the script of a private key, as text; and what a signature adds to the script of an
input. `behindBuffer` is what is read behind a text that fills the buffer of raw transactions or
runs over its end, up to a NUL. -/
structure KeyFunctions where
  base58DecodeCheck : Bytes → Bytes
  privateKeyWifToPubkeyHash : Bytes → Option Bytes
  signInput : Bytes → Tx → Bytes → Nat → Option Bytes
  behindBuffer : Bytes → Bytes

/-- The prefixes of `dogecoin_chainparams`. -/
structure ChainParams where
  b58prefixPubkeyAddress : UInt8
  b58prefixScriptAddress : UInt8
  deriving DecidableEq, Repr

/-- `dogecoin_chainparams_main`. -/
def chainparamsMain : ChainParams := ⟨0x1e, 0x16⟩

/-- `dogecoin_chainparams_test`. -/
def chainparamsTest : ChainParams := ⟨0x71, 0xc4⟩

/-- The network of an address. -/
def chainOf (address : Bytes) : ChainParams :=
  if address.head? = some 68 then chainparamsMain else chainparamsTest

/-- `dogecoin_script_build_p2pkh`. -/
def scriptBuildP2pkh (hash160 : Bytes) : Bytes := [0x76, 0xa9, 20] ++ hash160 ++ [0x88, 0xac]

/-- `dogecoin_script_build_p2sh`. -/
def scriptBuildP2sh (hash160 : Bytes) : Bytes := [0xa9, 20] ++ hash160 ++ [0x87]

/-- The 20 bytes behind the prefix. The buffer of an address is zero behind what it decodes to; that
of an address of less than 11 characters ends before them. -/
def hash160Of (buf : Bytes) : Bytes := (buf ++ List.replicate 20 0).take 20

/-- The output of `dogecoin_tx_add_address_out`, if the address decodes to one of its network. -/
def addressOut (keys : KeyFunctions) (amount : UInt64) (address : Bytes) : Option TxOut :=
  match keys.base58DecodeCheck address with
  | [] => none
  | decoded :: buf =>
      if decoded = (chainOf address).b58prefixPubkeyAddress then
        some ⟨amount.toInt64, scriptBuildP2pkh (hash160Of buf)⟩
      else if decoded = (chainOf address).b58prefixScriptAddress then
        some ⟨amount.toInt64, scriptBuildP2sh (hash160Of buf)⟩
      else none

/-- `dogecoin_tx_add_address_out`. Its result is true in any case. -/
def Tx.addAddressOut (keys : KeyFunctions) (amount : UInt64) (address : Bytes) (tx : Tx) : Tx :=
  { tx with vout := tx.vout ++ (addressOut keys amount address).toList }

/-! ## The table -/

/-- The hash table. -/
abbrev Transactions : Type := List (Int32 × Tx)

namespace Transactions

/-- `find_transaction`. -/
def find (transactions : Transactions) (idx : Int32) : Option Tx := transactions.lookup idx

/-- `add_transaction`, which replaces one of the same index, and the assignment to a transaction
of the table. -/
def add (transactions : Transactions) (idx : Int32) (tx : Tx) : Transactions :=
  (idx, tx) :: transactions.filter fun entry => entry.1 ≠ idx

/-- `remove_transaction`. -/
def remove (transactions : Transactions) (idx : Int32) : Transactions :=
  transactions.filter fun entry => entry.1 ≠ idx

theorem find_add (transactions : Transactions) (idx : Int32) (tx : Tx) :
    (transactions.add idx tx).find idx = some tx := by
  rw [find, add, List.lookup_cons, beq_self_eq_true]

end Transactions

/-- `start_transaction`. The index is that behind the count. -/
def startTransaction (transactions : Transactions) : Int32 × Transactions :=
  let idx := Int32.ofNat (transactions.length + 1)
  (idx, transactions.add idx Tx.new)

/-- `add_utxo`. -/
def addUtxo (txindex : Int32) (hexUtxoTxid : Bytes) (vout : Int32) (transactions : Transactions) :
    Bool × Transactions :=
  match transactions.find txindex with
  | none => (false, transactions)
  | some tx =>
      let txIn : TxIn := ⟨utilsUint256Sethex hexUtxoTxid, vout.toUInt32, [], 0xFFFFFFFF⟩
      (true, transactions.add txindex { tx with vin := tx.vin ++ [txIn] })

/-- `add_output`. -/
def addOutput (keys : KeyFunctions) (txindex : Int32) (destinationaddress amount : Bytes)
    (transactions : Transactions) : Bool × Option Transactions :=
  match transactions.find txindex with
  | none => (false, some transactions)
  | some tx =>
      match coinsToKoinuStr amount with
      | none => (false, none)
      | some koinu =>
          (true, some (transactions.add txindex (tx.addAddressOut keys koinu destinationaddress)))

/-- `make_change`: whether an output was asked for, and the transaction. -/
def Tx.makeChange (keys : KeyFunctions) (publicKey : Bytes) (subtractedfee amount : UInt64)
    (tx : Tx) : Bool × Tx :=
  if amount = subtractedfee then (false, tx)
  else (true, tx.addAddressOut keys (amount - subtractedfee) publicKey)

/-- The sum of the outputs, as `finalize_transaction` adds them up. -/
def Tx.outTotal (tx : Tx) : UInt64 := tx.vout.foldl (fun sum out => sum + out.value.toUInt64) 0

/-- `finalize_transaction`. Change is made behind the last output, if there is one. The result,
which compares the sums, is not looked at. -/
def finalizeTransaction (keys : KeyFunctions) (txindex : Int32)
    (subtractedfee outDogeamountForVerification changeaddress : Bytes)
    (transactions : Transactions) : Option Transactions :=
  match transactions.find txindex with
  | none => some transactions
  | some tx => do
      let subtractedfeeKoinu ← coinsToKoinuStr subtractedfee
      let outKoinuForVerification ← coinsToKoinuStr outDogeamountForVerification
      if tx.vout = [] then some transactions
      else some (transactions.add txindex (tx.makeChange keys changeaddress subtractedfeeKoinu
        (outKoinuForVerification - tx.outTotal)).2)

/-- `get_raw_transaction`. -/
def getRawTransaction (txindex : Int32) (transactions : Transactions) : Option Bytes := do
  let tx ← transactions.find txindex
  utilsUint8ToHex tx.serialize

/-- `clear_transaction`. -/
def clearTransaction (txindex : Int32) (transactions : Transactions) : Option Transactions :=
  match transactions.find txindex with
  | none => none
  | some _ => some (transactions.remove txindex)

/-- The texts that `save_raw_transaction` and `sign_raw_transaction` take. -/
abbrev maxRawText : Nat := 1024 * 100

/-- `save_raw_transaction`. What stands behind the transaction is not looked at. -/
def saveRawTransaction (txindex : Int32) (hexadecimalTransaction : Bytes)
    (transactions : Transactions) : Bool × Option Transactions :=
  if hexadecimalTransaction.length > maxRawText then (false, some transactions)
  else
    match deserTx (utilsHexToBin hexadecimalTransaction) with
    | none => (false, some transactions)
    | some (txtmp, _) =>
        match transactions.find txindex with
        | none => (false, none)
        | some _ => (true, some (transactions.add txindex txtmp))

/-- A signature behind the script of an input. -/
def Tx.sign (inputindex : Nat) (signature : Bytes) (tx : Tx) : Tx :=
  { tx with vin := tx.vin.modify inputindex fun txIn =>
      { txIn with scriptSig := txIn.scriptSig ++ signature } }

/-- What is read from the buffer of raw transactions once the text of these bytes has been copied
there. -/
def bufferText (keys : KeyFunctions) (bin : Bytes) : Bytes :=
  let text := hexText bin
  if text.length < toUint8HexBufLen then text else text ++ keys.behindBuffer text

/-- `sign_raw_transaction`: if it succeeds, the text of the signed transaction, which is copied over
the raw one without a look at its size. -/
def signRawTransaction (keys : KeyFunctions) (inputindex : Nat) (incomingrawtx : Bytes)
    (scripthex : Option Bytes) (privkey : Bytes) : Option Bytes := do
  let script ← scripthex
  if incomingrawtx.length > maxRawText then none
  else
    let (txtmp, _) ← deserTx (utilsHexToBin incomingrawtx)
    if inputindex ≥ txtmp.vin.length then none
    else
      let signature ← keys.signInput privkey txtmp script inputindex
      some (bufferText keys (txtmp.sign inputindex signature).serialize)

/-- `sign_transaction_w_privkey`. What is signed is saved, and saved once more. -/
def signTransactionWPrivkey (keys : KeyFunctions) (txindex : Int32) (voutIndex : Nat)
    (privkey : Bytes) (transactions : Transactions) : Bool × Option Transactions :=
  match getRawTransaction txindex transactions with
  | none => (false, none)
  | some raw =>
      if (deserTx (utilsHexToBin raw)).isNone ∨ txindex = 0 then (false, some transactions)
      else
        match signRawTransaction keys voutIndex raw (keys.privateKeyWifToPubkeyHash privkey)
          privkey with
        | none => (false, some transactions)
        | some signed =>
            match saveRawTransaction txindex signed transactions with
            | (false, transactions) => (false, transactions)
            | (true, none) => (false, none)
            | (true, some transactions) =>
                (true, (saveRawTransaction txindex signed transactions).2)

/-! ## What signing changes -/

/-- A transaction without its signatures. -/
def Tx.unsigned (tx : Tx) : Tx := { tx with vin := tx.vin.map fun txIn => { txIn with scriptSig := [] } }

theorem Tx.unsigned_sign (inputindex : Nat) (signature : Bytes) (tx : Tx) :
    (tx.sign inputindex signature).unsigned = tx.unsigned := by
  have hvin : (tx.vin.modify inputindex fun txIn =>
      { txIn with scriptSig := txIn.scriptSig ++ signature }).map
        (fun txIn : TxIn => { txIn with scriptSig := [] }) =
      tx.vin.map fun txIn => { txIn with scriptSig := [] } := by
    apply List.ext_getElem?
    intro i
    rw [List.getElem?_map, List.getElem?_modify, List.getElem?_map]
    cases tx.vin[i]? with
    | none => rfl
    | some txIn =>
        simp only [Option.map_eq_map, Option.map_some]
        split
        · rfl
        · rfl
  rw [Tx.unsigned, Tx.sign, hvin]
  rfl

/-- A transaction of the table that has a text is read back from it. -/
theorem getRawTransaction_eq_some_iff {txindex : Int32} {transactions : Transactions} {tx : Tx}
    (hfind : transactions.find txindex = some tx) {raw : Bytes} :
    getRawTransaction txindex transactions = some raw ↔
      tx.serialize.length ≤ 1023 ∧ hexText tx.serialize = raw := by
  rw [getRawTransaction, hfind]
  exact utilsUint8ToHex_eq_some_iff

theorem deserTx_hexText {tx : Tx} (hshort : tx.serialize.length ≤ 1023) :
    deserTx (utilsHexToBin (hexText tx.serialize)) = some (tx, []) := by
  have hread := deserTx_serialize (Tx.wellSized_of_short (hshort.trans_lt (by decide))) []
  rw [List.append_nil] at hread
  rw [utilsHexToBin_hexText, hread]

/-- The transaction is read from the buffer, whatever stands behind it. -/
theorem deserTx_bufferText (keys : KeyFunctions) {tx : Tx} (hsized : tx.WellSized) :
    ∃ rest, deserTx (utilsHexToBin (bufferText keys tx.serialize)) = some (tx, rest) := by
  rw [bufferText]
  split
  · have hread := deserTx_serialize hsized []
    rw [List.append_nil] at hread
    rw [utilsHexToBin_hexText]
    exact ⟨[], hread⟩
  · rw [utilsHexToBin_append]
    exact ⟨_, deserTx_serialize hsized _⟩

/-- What is saved from the buffer is the transaction. -/
theorem saveRawTransaction_bufferText {keys : KeyFunctions} {txindex : Int32}
    {transactions : Transactions} {before tx : Tx} (hfind : transactions.find txindex = some before)
    (hfits : (bufferText keys tx.serialize).length ≤ maxRawText) :
    saveRawTransaction txindex (bufferText keys tx.serialize) transactions =
      (true, some (transactions.add txindex tx)) := by
  have hlength : 2 * tx.serialize.length ≤ (bufferText keys tx.serialize).length := by
    rw [← length_hexText, bufferText]
    split
    · exact le_rfl
    · rw [List.length_append]
      exact Nat.le_add_right _ _
  have hshort : tx.serialize.length < 2 ^ 32 := by
    simp only [maxRawText] at hfits
    omega
  rcases deserTx_bufferText keys (Tx.wellSized_of_short hshort) with ⟨rest, hread⟩
  rw [saveRawTransaction, if_neg (Nat.not_lt.mpr hfits), hread]
  simp only
  rw [hfind]

/-- What `sign_raw_transaction` makes of the text of a transaction. -/
theorem signRawTransaction_eq_some {keys : KeyFunctions} {input : Nat} {scripthex : Option Bytes}
    {privkey text : Bytes} {tx : Tx} (hshort : tx.serialize.length ≤ 1023)
    (h : signRawTransaction keys input (hexText tx.serialize) scripthex privkey = some text) :
    ∃ script signature, keys.signInput privkey tx script input = some signature ∧
      text = bufferText keys (tx.sign input signature).serialize := by
  rw [signRawTransaction, Option.bind_eq_bind, Option.bind_eq_some_iff] at h
  rcases h with ⟨script, -, h⟩
  rcases Option.ite_none_left_eq_some.mp h with ⟨-, h⟩
  rw [deserTx_hexText hshort, Option.bind_eq_bind, Option.bind_some] at h
  rcases Option.ite_none_left_eq_some.mp h with ⟨-, h⟩
  rcases Option.bind_eq_some_iff.mp h with ⟨signature, hsignature, htext⟩
  exact ⟨script, signature, hsignature, (Option.some.inj htext).symm⟩

/-- What is signed is the transaction of the table, which has to be short enough to have a text,
and the signed one takes its place. -/
theorem signTransactionWPrivkey_eq_true {functions : KeyFunctions} {txindex : Int32} {input : Nat}
    {privkey : Bytes} {transactions : Transactions} {working : Option Transactions} {tx : Tx}
    (hfind : transactions.find txindex = some tx)
    (hsigned : signTransactionWPrivkey functions txindex input privkey transactions =
      (true, working)) :
    ∃ script signature signed, functions.signInput privkey tx script input = some signature ∧
      working = some signed ∧ signed.find txindex = some (tx.sign input signature) ∧
        tx.serialize.length ≤ 1023 := by
  rw [signTransactionWPrivkey] at hsigned
  cases hraw : getRawTransaction txindex transactions with
  | none =>
      rw [hraw] at hsigned
      cases hsigned
  | some raw =>
      rcases (getRawTransaction_eq_some_iff hfind).mp hraw with ⟨hshort, rfl⟩
      rw [hraw] at hsigned
      simp only [deserTx_hexText hshort] at hsigned
      split at hsigned
      · cases hsigned
      · cases htext : signRawTransaction functions input (hexText tx.serialize)
            (functions.privateKeyWifToPubkeyHash privkey) privkey with
        | none =>
            rw [htext] at hsigned
            cases hsigned
        | some text =>
            rw [htext] at hsigned
            rcases signRawTransaction_eq_some hshort htext with
              ⟨script, signature, hsignature, rfl⟩
            by_cases hfits :
                (bufferText functions (tx.sign input signature).serialize).length ≤ maxRawText
            · simp only [saveRawTransaction_bufferText hfind hfits] at hsigned
              rw [saveRawTransaction_bufferText (transactions.find_add txindex _) hfits] at hsigned
              exact ⟨script, signature, _, hsignature, (Prod.mk.inj hsigned).2.symm,
                Transactions.find_add _ _ _, hshort⟩
            · simp only [saveRawTransaction, if_pos (Nat.lt_of_not_le hfits)] at hsigned
              cases hsigned

end RadioDoge.Libdogecoin
