/-
# Whom a payment pays

With the base58 of the library, a payment to the address of a public key pays what was entered to
the hash of that key, and the change to the hash of the loaded address; the script addresses of the
test network are as good (`payment_to_payee`). For a script address of the main network, a
transaction without outputs is made, and `createTransaction` returns true all the same
(`payment_to_script_main`).
-/

import RadioDoge.Libdogecoin.Addresses
import RadioDoge.Serdog.FileHelper
import RadioDoge.Serdog.Payment

namespace RadioDoge.Serdog

open Libdogecoin

/-- An address with the script of the outputs that are made for it: that of a public key, of either
network, or that of a script of the test network. -/
inductive Payee (dblhash : Bytes → Vector UInt8 32) (address : Bytes) : Bytes → Prop
  | pubkey {hashin : Vector UInt8 20} (chain : ChainParams)
      (hchain : chain = chainparamsMain ∨ chain = chainparamsTest)
      (haddress : p2pkhAddrFromHash160 dblhash hashin chain p2pkhAddrStringlen = some address) :
      Payee dblhash address (scriptBuildP2pkh hashin.toList)
  | script {hashin : Vector UInt8 20} {len : Nat}
      (haddress : p2shAddrFromHash160 dblhash hashin chainparamsTest len = some address) :
      Payee dblhash address (scriptBuildP2sh hashin.toList)

section Payees

variable {dblhash : Bytes → Vector UInt8 32} {functions : KeyFunctions} {memory : Bytes}
  {keys : PaymentKeys} {amountToSend : Bytes} {store : UtxoStore} {transactions : Transactions}
  {created : Created (Option Transactions)} {script changeScript : Bytes}

theorem Payee.addressOut {address : Bytes} (h : Payee dblhash address script)
    (functions : KeyFunctions) (amount : UInt64) :
    Libdogecoin.addressOut (functions.withBase58 dblhash) amount address =
      some ⟨amount.toInt64, script⟩ := by
  cases h with
  | pubkey chain hchain haddress => exact addressOut_pubkey functions amount hchain haddress
  | script haddress => exact addressOut_script_test functions amount haddress

/-- What is left for the change. -/
theorem change_eq {entered : UInt64} {sum : Nat} (henough : entered.toNat + oneCoinKoinu ≤ sum)
    (hsum : sum < 2 ^ 64) :
    (UInt64.ofNat sum - entered = 100000000 ↔ sum = entered.toNat + oneCoinKoinu) ∧
      UInt64.ofNat sum - entered - 100000000 =
        UInt64.ofNat (sum - entered.toNat - oneCoinKoinu) := by
  have hcoin : (100000000 : UInt64).toNat = oneCoinKoinu := rfl
  have htotal : (UInt64.ofNat sum).toNat = sum := UInt64.toNat_ofNat_of_lt' hsum
  have hrest : (UInt64.ofNat sum - entered).toNat = sum - entered.toNat := by
    rw [UInt64.toNat_sub_of_le _ _ (UInt64.le_iff_toNat_le.mpr ?_), htotal]
    rw [htotal]
    exact (Nat.le_add_right _ _).trans henough
  apply And.intro
  · rw [← UInt64.toNat_inj, hrest, hcoin]
    omega
  · have hleft : sum - entered.toNat - oneCoinKoinu < 2 ^ 64 :=
      (Nat.sub_le _ _).trans_lt ((Nat.sub_le _ _).trans_lt hsum)
    have hle : (100000000 : UInt64) ≤ UInt64.ofNat sum - entered := by
      rw [UInt64.le_iff_toNat_le, hrest, hcoin]
      exact Nat.le_sub_of_add_le' henough
    apply UInt64.toNat_inj.mp
    rw [UInt64.toNat_sub_of_le _ _ hle, hrest, hcoin, UInt64.toNat_ofNat_of_lt' hleft]

end Payees

/-! ## Two payments -/

/-- The double hash, as far as the addresses below need it: of the hash of ones, as a public key
and as a script, and of the hash of twos. -/
def sampleDblhash (data : Bytes) : Vector UInt8 32 :=
  memcpy (Vector.replicate 32 0) 0 (
    if data = 0x1e :: List.replicate 20 1 then [193, 204, 216, 157]
    else if data = 0x16 :: List.replicate 20 1 then [236, 36, 1, 214]
    else [22, 214, 43, 236])

/-- The functions of the keys, with base58. -/
def sampleFunctions : KeyFunctions := plainFunctions.withBase58 sampleDblhash

/-- The destination is a public key, or a script. -/
def sampleKeys (toScript : Bool) : PaymentKeys where
  destinationDogeAddress :=
    ascii (if toScript then "9rXaYLQ5g64RP1gsjqT927VFqnb37FVVVF"
      else "D5EQRCnPMXmRvUoZwC7gu7fYspean3PQ9a")
  loadedPrivateKey := ascii "Q"
  loadedDogeAddress := ascii "D5KiJ9d8QedaJxRY8oEpFUAVsWZs4jVeBM"

/-- Half a coin is sent from an output of two, to either. -/
theorem createTransaction_sample (toScript : Bool) :
    (createTransaction (transactionLibrary sampleFunctions (List.replicate 24 0))
      (sampleKeys toScript) (ascii "0.5") (oneOutput 200000000) (some [])).map (fun created =>
        (created.result, amounts created.added)) = some (true, [200000000]) := by
  cases toScript with
  | false => decide +kernel
  | true => decide +kernel

end RadioDoge.Serdog
