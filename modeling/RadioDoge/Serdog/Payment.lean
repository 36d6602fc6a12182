/-
# What a payment pays

`createTransaction`, with the functions of libdogecoin that it calls. The text that is broadcast
is a transaction whose inputs are the outputs that were added, in their order. What it pays is not
always what was entered: an address that does not decode is left out without an error. Without the
destination there are no outputs at all, and without the loaded address the change is left to the
fee. `payment_conserves` says when the fee is one coin.

A transaction that is to be signed, or broadcast, is written into a buffer of the library, which
bounds the outputs that one payment can use: `payment_inputs_le`.
-/

import RadioDoge.Libdogecoin.Transaction
import RadioDoge.Serdog.CreateTransaction

namespace RadioDoge.Serdog

open Libdogecoin

/-! ## The library -/

/-- The functions of libdogecoin, where `utxoTotalAmountStr` is the memory for the text of the
total. The table is lost in a step that is undefined. -/
def transactionLibrary (functions : KeyFunctions) (utxoTotalAmountStr : Bytes) :
    TransactionLibrary (Option Transactions) where
  coinsToKoinuStr text := (Libdogecoin.coinsToKoinuStr text).getD 0
  koinuToCoinsStr koinu := (Libdogecoin.koinuToCoinsStr koinu utxoTotalAmountStr).1
  startTransaction
    | none => (0, none)
    | some transactions =>
        ((Libdogecoin.startTransaction transactions).1,
          some (Libdogecoin.startTransaction transactions).2)
  addUtxo index txId vout
    | none => (false, none)
    | some transactions =>
        ((Libdogecoin.addUtxo index txId vout transactions).1,
          some (Libdogecoin.addUtxo index txId vout transactions).2)
  addOutput index address amount
    | none => (false, none)
    | some transactions => Libdogecoin.addOutput functions index address amount transactions
  finalizeTransaction index _ fee total change working :=
    working.bind (Libdogecoin.finalizeTransaction functions index fee total change)
  signTransactionWPrivkey index input key
    | none => (false, none)
    | some transactions =>
        Libdogecoin.signTransactionWPrivkey functions index input key transactions
  getRawTransaction index working := working.bind (Libdogecoin.getRawTransaction index)
  clearTransaction index working := working.bind (Libdogecoin.clearTransaction index)

/-- The table is there, and has this transaction. -/
def Holds (working : Option Transactions) (index : Int32) (tx : Tx) : Prop :=
  ∃ transactions, working = some transactions ∧ transactions.find index = some tx

/-- The input that `add_utxo` adds for a stored output. -/
def spend (utxo : Utxo) : TxIn :=
  ⟨utilsUint256Sethex utxo.txId, utxo.vout.toUInt32, [], 0xFFFFFFFF⟩

/-! ## A call that returns true -/

section Success

variable {T : Type} (library : TransactionLibrary T) {keys : PaymentKeys} {amountToSend : Bytes}
  {store : UtxoStore} {working : T} {created : Created T}

/-- What a call that returns true has done. -/
theorem createTransaction_eq_true
    (hcreated : createTransaction library keys amountToSend store working = some created)
    (hresult : created.result = true) :
    ∃ used output signed,
      addUtxos library (library.startTransaction working).1
        (library.coinsToKoinuStr amountToSend + library.coinsToKoinuStr feeText) store.currUTXOs
        store.numUTXOs.toNat 0 0 (library.startTransaction working).2 = some used ∧
      used.succeeded = true ∧
      library.coinsToKoinuStr amountToSend + library.coinsToKoinuStr feeText ≤
        used.utxoTotalAmount ∧
      library.addOutput (library.startTransaction working).1 keys.destinationDogeAddress
        amountToSend used.working = (true, output) ∧
      signInputs library (library.startTransaction working).1 keys.loadedPrivateKey
        used.added.length 0 (library.finalizeTransaction (library.startTransaction working).1
          keys.destinationDogeAddress feeText (library.koinuToCoinsStr used.utxoTotalAmount)
          keys.loadedDogeAddress output) = (true, signed) ∧
      created.added = used.added ∧ created.currentTransaction =
        library.getRawTransaction (library.startTransaction working).1 signed := by
  rw [createTransaction] at hcreated
  by_cases hempty : store.numUTXOs < 1
  · rw [if_pos hempty] at hcreated
    rw [← Option.some.inj hcreated] at hresult
    cases hresult
  · rw [if_neg hempty] at hcreated
    rcases Option.map_eq_some_iff.mp hcreated with ⟨used, hused, rfl⟩
    rcases (finishTransaction_result library keys amountToSend _ _ used).2 hresult with
      ⟨hsucceeded, htotal⟩
    rw [finishTransaction, if_neg (by rw [hsucceeded]; decide),
      if_neg (UInt64.not_lt.mpr htotal)] at hresult ⊢
    simp only at hresult ⊢
    cases houtput : library.addOutput (library.startTransaction working).1
        keys.destinationDogeAddress amountToSend used.working with
    | mk added output =>
        cases added with
        | false =>
            rw [houtput] at hresult
            cases hresult
        | true =>
            rw [houtput] at hresult
            simp only at hresult ⊢
            cases hsigned : signInputs library (library.startTransaction working).1
                keys.loadedPrivateKey used.added.length 0
                (library.finalizeTransaction (library.startTransaction working).1
                  keys.destinationDogeAddress feeText
                  (library.koinuToCoinsStr used.utxoTotalAmount) keys.loadedDogeAddress
                  output) with
            | mk done signed =>
                cases done with
                | false =>
                    rw [hsigned] at hresult
                    cases hresult
                | true => exact ⟨used, output, signed, hused, hsucceeded, htotal, houtput, hsigned,
                    rfl, rfl⟩

end Success

/-! ## The inputs -/

section Steps

variable {functions : KeyFunctions} {memory : Bytes}

/-- The loop adds an input for each output, and counts its amount. -/
theorem addUtxos_working {index : Int32} (desired : UInt64)
    (currUTXOs : Vector UtxoInfo maxNumUtxos) (remaining : Nat) :
    ∀ (i : Nat) (sum : UInt64) (working : Option Transactions) (tx : Tx)
      (used : AddedUtxos (Option Transactions)), Holds working index tx →
      addUtxos (transactionLibrary functions memory) index desired currUTXOs remaining i sum
        working = some used →
      Holds used.working index { tx with vin := tx.vin ++ used.added.map spend } ∧
        used.utxoTotalAmount.toNat = (sum.toNat + (amounts used.added).sum) % 2 ^ 64 := by
  induction remaining with
  | zero =>
      intro i sum working tx used hholds hused
      rw [addUtxos] at hused
      rw [← Option.some.inj hused]
      simp only [amounts, List.map_nil, List.append_nil, List.sum_nil, Nat.add_zero]
      exact ⟨hholds, (Nat.mod_eq_of_lt sum.toNat_lt).symm⟩
  | succ remaining ih =>
      intro i sum working tx used hholds hused
      rcases hholds with ⟨transactions, rfl, hfind⟩
      rw [addUtxos, Option.bind_eq_bind, Option.bind_eq_some_iff] at hused
      rcases hused with ⟨info, -, hused⟩
      have hcall : (transactionLibrary functions memory).addUtxo index info.read.txId info.read.vout
          (some transactions) = (true, some (transactions.add index
            { tx with vin := tx.vin ++ [spend info.read] })) := by
        simp only [transactionLibrary, Libdogecoin.addUtxo, hfind]
        rfl
      have hnext : Holds (some (transactions.add index
          { tx with vin := tx.vin ++ [spend info.read] })) index
            { tx with vin := tx.vin ++ [spend info.read] } :=
        ⟨_, rfl, Transactions.find_add _ _ _⟩
      have hamount : (sum + info.amount).toNat = (sum.toNat + info.read.amount.toNat) % 2 ^ 64 :=
        UInt64.toNat_add sum info.amount
      rw [hcall] at hused
      simp only at hused
      split at hused
      · rw [← Option.some.inj hused]
        simp only [amounts, List.map_cons, List.map_nil, List.sum_cons, List.sum_nil, Nat.add_zero]
        exact ⟨hnext, hamount⟩
      · rcases Option.map_eq_some_iff.mp hused with ⟨later, hlater, rfl⟩
        rcases ih (i + 1) (sum + info.amount) _ _ later hnext hlater with ⟨hworking, htotal⟩
        simp only [List.append_assoc, List.singleton_append] at hworking
        apply And.intro
        · exact hworking
        · rw [htotal, hamount, Nat.mod_add_mod]
          simp only [amounts, List.map_cons, List.sum_cons, Nat.add_assoc]

/-! ## The signatures -/

/-- Signing needs a transaction in the table. -/
theorem holds_of_signed {index : Int32} {input : Nat} {key : Bytes}
    {working signed : Option Transactions}
    (hsigned : (transactionLibrary functions memory).signTransactionWPrivkey index input key
      working = (true, signed)) :
    ∃ tx, Holds working index tx := by
  cases working with
  | none => cases hsigned
  | some transactions =>
      cases hfind : transactions.find index with
      | some tx => exact ⟨tx, transactions, rfl, hfind⟩
      | none =>
          simp only [transactionLibrary, Libdogecoin.signTransactionWPrivkey,
            Libdogecoin.getRawTransaction, hfind] at hsigned
          cases hsigned

/-- So does the loop, if there is anything to sign. -/
theorem holds_of_signInputs {index : Int32} {key : Bytes} {remaining i : Nat}
    {working signed : Option Transactions}
    (hsigned : signInputs (transactionLibrary functions memory) index key (remaining + 1) i working =
      (true, signed)) :
    ∃ tx, Holds working index tx := by
  rw [signInputs] at hsigned
  cases hone : (transactionLibrary functions memory).signTransactionWPrivkey index i key
      working with
  | mk result next =>
      cases result with
      | false =>
          rw [hone] at hsigned
          cases hsigned
      | true => exact holds_of_signed hone

/-- What the loop that signs inputs has made of a transaction: nothing but the scripts of the
inputs from `i` on has changed, and it was short until the last one was signed. -/
structure Signed (functions : KeyFunctions) (key : Bytes) (tx final : Tx) (i remaining : Nat) :
    Prop where
  unsigned : final.unsigned = tx.unsigned
  short : 0 < remaining → ∃ (before : Tx) (signature : Bytes), before.serialize.length ≤ 1023 ∧
    final = before.sign (i + remaining - 1) signature
  earlier : ∀ input < i, final.vin[input]? = tx.vin[input]?
  signatures : ∀ input, i ≤ input → input < i + remaining → ∃ before script signature,
    functions.signInput key before script input = some signature ∧
      (final.vin[input]?).map TxIn.scriptSig =
        (tx.vin[input]?).map fun txIn => txIn.scriptSig ++ signature

/-- The loop signs one input after the other. -/
theorem signInputs_working {index : Int32} {key : Bytes} (remaining : Nat) :
    ∀ (i : Nat) (working signed : Option Transactions) (tx : Tx), Holds working index tx →
      signInputs (transactionLibrary functions memory) index key remaining i working =
        (true, signed) →
      ∃ final, Holds signed index final ∧ Signed functions key tx final i remaining := by
  induction remaining with
  | zero =>
      intro i working signed tx hholds hsigned
      rw [signInputs] at hsigned
      rcases Prod.mk.inj hsigned with ⟨-, rfl⟩
      exact ⟨tx, hholds, rfl, fun hpos => absurd hpos (Nat.lt_irrefl 0), fun _ _ => rfl,
        fun input hle hlt => absurd (hle.trans_lt hlt) (Nat.lt_irrefl i)⟩
  | succ remaining ih =>
      intro i working signed tx hholds hsigned
      rcases hholds with ⟨transactions, rfl, hfind⟩
      rw [signInputs] at hsigned
      cases hone : (transactionLibrary functions memory).signTransactionWPrivkey index i key
          (some transactions) with
      | mk result next =>
          cases result with
          | false =>
              rw [hone] at hsigned
              cases hsigned
          | true =>
              rw [hone] at hsigned
              rcases signTransactionWPrivkey_eq_true hfind hone with
                ⟨script, signature, table, hsignature, rfl, hnext, hshort⟩
              rcases ih (i + 1) _ signed _ ⟨table, rfl, hnext⟩ hsigned with ⟨final, hfinal, hlater⟩
              have hsign : ∀ input, (tx.sign i signature).vin[input]? =
                  (tx.vin[input]?).map fun txIn => if i = input then
                    { txIn with scriptSig := txIn.scriptSig ++ signature } else txIn := by
                intro input
                rw [Tx.sign, List.getElem?_modify]
                rfl
              have hother : ∀ input ≠ i, (tx.sign i signature).vin[input]? = tx.vin[input]? := by
                intro input hne
                rw [hsign]
                simp only [if_neg hne.symm, Option.map_id']
              refine ⟨final, hfinal, hlater.unsigned.trans (Tx.unsigned_sign i signature tx),
                fun _ => ?_, fun input hlt => ?_, fun input hle hlt => ?_⟩
              · cases remaining with
                | zero =>
                    simp only [signInputs] at hsigned
                    rcases Prod.mk.inj hsigned with ⟨-, rfl⟩
                    rcases hfinal with ⟨_, hsame, hfound⟩
                    rw [← Option.some.inj hsame, hnext] at hfound
                    exact ⟨tx, signature, hshort, (Option.some.inj hfound).symm⟩
                | succ remaining =>
                    rcases hlater.short (Nat.succ_pos _) with ⟨before, last, hbefore, hlast⟩
                    have hindex : i + 1 + (remaining + 1) - 1 = i + (remaining + 1 + 1) - 1 := by
                      omega
                    exact ⟨before, last, hbefore, hindex ▸ hlast⟩
              · rw [hlater.earlier input (by omega), hother input (Nat.ne_of_lt hlt)]
              · rcases Nat.eq_or_lt_of_le hle with rfl | hbehind
                · refine ⟨tx, script, signature, hsignature, ?_⟩
                  rw [hlater.earlier i (Nat.lt_succ_self i), hsign, Option.map_map]
                  simp only [Function.comp_def, if_pos]
                · rcases hlater.signatures input hbehind (by omega) with
                    ⟨before, script, signature, hsignature, hscript⟩
                  rw [hother input (Nat.ne_of_gt hbehind)] at hscript
                  exact ⟨before, script, signature, hsignature, hscript⟩

end Steps

/-! ## The outputs -/

/-- An address that an output can be made for. -/
def Decodes (functions : KeyFunctions) (address : Bytes) : Prop :=
  ∃ script, ∀ amount : UInt64, addressOut functions amount address = some ⟨amount.toInt64, script⟩

/-- The amount does not matter. -/
theorem addressOut_eq_none (functions : KeyFunctions) {address : Bytes}
    (hnot : ¬ Decodes functions address) (amount : UInt64) :
    addressOut functions amount address = none := by
  cases hdecoded : functions.base58DecodeCheck address with
  | nil => simp only [addressOut, hdecoded]
  | cons decoded buf =>
      by_cases hpubkey : decoded = (chainOf address).b58prefixPubkeyAddress
      · exact absurd ⟨_, fun amount => by simp only [addressOut, hdecoded, if_pos hpubkey]; rfl⟩ hnot
      · by_cases hscript : decoded = (chainOf address).b58prefixScriptAddress
        · exact absurd ⟨_, fun amount => by
            simp only [addressOut, hdecoded, if_neg hpubkey, if_pos hscript]; rfl⟩ hnot
        · simp only [addressOut, hdecoded, if_neg hpubkey, if_neg hscript]

/-- The outputs that are made for an amount of `entered` out of `total`. Without the first one
there is no change. -/
def payouts (functions : KeyFunctions) (keys : PaymentKeys) (entered total : UInt64) :
    List TxOut :=
  match addressOut functions entered keys.destinationDogeAddress with
  | none => []
  | some out =>
      out :: if total - entered = 100000000 then []
        else (addressOut functions (total - entered - 100000000) keys.loadedDogeAddress).toList

/-- What the outputs are worth. -/
def paidOut (vout : List TxOut) : Nat := (vout.map fun out => out.value.toUInt64.toNat).sum

/-- What a payment pays: the fee of one coin is what is left, unless an address does not decode. -/
theorem paidOut_payouts (functions : KeyFunctions) (keys : PaymentKeys) {entered total : UInt64}
    (henough : entered.toNat + oneCoinKoinu ≤ total.toNat) :
    paidOut (payouts functions keys entered total) + oneCoinKoinu ≤ total.toNat ∧
      (paidOut (payouts functions keys entered total) + oneCoinKoinu = total.toNat ↔
        total.toNat = oneCoinKoinu ∨ Decodes functions keys.destinationDogeAddress ∧
          (total.toNat = entered.toNat + oneCoinKoinu ∨
            Decodes functions keys.loadedDogeAddress)) := by
  have hcoin : (100000000 : UInt64).toNat = oneCoinKoinu := by rfl
  have hrest : (total - entered).toNat = total.toNat - entered.toNat :=
    UInt64.toNat_sub_of_le _ _ (UInt64.le_iff_toNat_le.mpr ((Nat.le_add_right _ _).trans henough))
  have hchange : (total - entered - 100000000).toNat =
      total.toNat - entered.toNat - oneCoinKoinu := by
    have hle : (100000000 : UInt64) ≤ total - entered := by
      rw [UInt64.le_iff_toNat_le, hrest, hcoin]
      exact Nat.le_sub_of_add_le' henough
    rw [UInt64.toNat_sub_of_le _ _ hle, hrest, hcoin]
  have hnone : total - entered = 100000000 ↔ total.toNat = entered.toNat + oneCoinKoinu := by
    rw [← UInt64.toNat_inj, hrest, hcoin]
    omega
  by_cases hdestination : Decodes functions keys.destinationDogeAddress
  · rcases hdestination with ⟨script, hout⟩
    have hdecodes : Decodes functions keys.destinationDogeAddress := ⟨script, hout⟩
    rw [payouts, hout]
    simp only
    by_cases hexact : total - entered = 100000000
    · have htotal := hnone.mp hexact
      rw [if_pos hexact]
      simp only [paidOut, List.map_cons, List.map_nil, List.sum_cons, List.sum_nil,
        UInt64.toUInt64_toInt64, Nat.add_zero]
      exact ⟨htotal.ge, iff_of_true htotal.symm (.inr ⟨hdecodes, .inl htotal⟩)⟩
    · have htotal := mt hnone.mpr hexact
      rw [if_neg hexact]
      by_cases hloaded : Decodes functions keys.loadedDogeAddress
      · rcases hloaded with ⟨changeScript, hback⟩
        rw [hback]
        simp only [paidOut, Option.toList_some, List.map_cons, List.map_nil, List.sum_cons,
          List.sum_nil, UInt64.toUInt64_toInt64, Nat.add_zero]
        rw [hchange]
        have hsum : entered.toNat + (total.toNat - entered.toNat - oneCoinKoinu) + oneCoinKoinu =
            total.toNat := by omega
        exact ⟨hsum.le, iff_of_true hsum (.inr ⟨hdecodes, .inr ⟨changeScript, hback⟩⟩)⟩
      · rw [addressOut_eq_none functions hloaded]
        simp only [paidOut, Option.toList_none, List.map_cons, List.map_nil, List.sum_cons,
          List.sum_nil, UInt64.toUInt64_toInt64, Nat.add_zero]
        refine ⟨henough, iff_of_false (fun hsum => htotal hsum.symm) ?_⟩
        rintro (hone | ⟨-, hsum | hdecoded⟩)
        · omega
        · exact htotal hsum
        · exact hloaded hdecoded
  · rw [payouts, addressOut_eq_none functions hdestination]
    simp only [paidOut, List.map_nil, List.sum_nil, Nat.zero_add]
    refine ⟨(Nat.le_add_left _ _).trans henough, ⟨fun hone => .inl hone.symm, ?_⟩⟩
    rintro (hone | ⟨hdecoded, -⟩)
    · exact hone.symm
    · exact absurd hdecoded hdestination

/-- The fee. -/
theorem coinsToKoinuStr_feeText : Libdogecoin.coinsToKoinuStr feeText = some 100000000 := by
  decide +kernel

/-- The text of a total of a coin or more is read back by `finalize_transaction`. -/
theorem coinsToKoinuStr_total {total : UInt64} {memory : Bytes} (hroom : 22 ≤ memory.length)
    (hcoin : oneCoinKoinu ≤ total.toNat) (hbound : total.toNat < 10 ^ 19) :
    Libdogecoin.coinsToKoinuStr (Libdogecoin.koinuToCoinsStr total memory).1 = some total := by
  have hsupported : ¬ Unsupported total := by
    intro hunsupported
    cases hunsupported with
    | inl hmax => exact absurd (hmax ▸ hbound) (by decide)
    | inr hother => exact absurd (hother ▸ hbound) (by decide)
  exact readsBack_of_large hsupported hcoin hroom

/-! ## The transaction -/

/-- Keys of which those that begin with a D decode, and signatures of 106 bytes. -/
def plainFunctions : KeyFunctions where
  base58DecodeCheck address := if address.head? = some 68 then 0x1e :: List.replicate 20 1 else []
  privateKeyWifToPubkeyHash _ := some (List.replicate 50 48)
  signInput _ _ _ _ := some (List.replicate 106 7)
  behindBuffer _ := []

/-- An address that decodes, for the destination and for the change. -/
def plainKeys : PaymentKeys := ⟨ascii "D1", ascii "Q", ascii "D2"⟩

/-- Half a coin is sent from an output of two. -/
theorem createTransaction_half :
    (createTransaction (transactionLibrary plainFunctions (List.replicate 24 0)) plainKeys
      (ascii "0.5") (oneOutput 200000000) (some [])).map (fun created =>
        (created.result, amounts created.added)) = some (true, [200000000]) := by
  decide +kernel

section Payment

variable {functions : KeyFunctions} {memory : Bytes} {keys : PaymentKeys} {amountToSend : Bytes}
  {store : UtxoStore} {transactions : Transactions} {created : Created (Option Transactions)}

/-- The table has the new transaction. -/
theorem holds_start (transactions : Transactions) :
    Holds ((transactionLibrary functions memory).startTransaction (some transactions)).2
      ((transactionLibrary functions memory).startTransaction (some transactions)).1 Tx.new :=
  ⟨_, rfl, Transactions.find_add _ _ _⟩

/-- What the steps between the inputs and the signatures make of the transaction. -/
theorem holds_finalized {index : Int32} {working output : Option Transactions} {vin : List TxIn}
    {entered total : UInt64} {totalText : Bytes}
    (hholds : Holds working index ⟨1, vin, [], 0⟩)
    (hentered : Libdogecoin.coinsToKoinuStr amountToSend = some entered)
    (htotal : Libdogecoin.coinsToKoinuStr totalText = some total)
    (houtput : (transactionLibrary functions memory).addOutput index keys.destinationDogeAddress
      amountToSend working = (true, output)) :
    Holds ((transactionLibrary functions memory).finalizeTransaction index
      keys.destinationDogeAddress feeText totalText keys.loadedDogeAddress output) index
        ⟨1, vin, payouts functions keys entered total, 0⟩ := by
  rcases hholds with ⟨transactions, rfl, hfind⟩
  simp only [transactionLibrary, Libdogecoin.addOutput, hfind, hentered] at houtput
  rcases Prod.mk.inj houtput with ⟨-, rfl⟩
  simp only [transactionLibrary, Option.bind_some, Libdogecoin.finalizeTransaction,
    Transactions.find_add, coinsToKoinuStr_feeText, htotal, Option.bind_eq_bind, Tx.addAddressOut,
    List.nil_append, payouts]
  by_cases hdecodes : Decodes functions keys.destinationDogeAddress
  · rcases hdecodes with ⟨script, hout⟩
    have hpaid : Tx.outTotal ⟨1, vin, [⟨entered.toInt64, script⟩], 0⟩ = entered := by
      simp only [Tx.outTotal, List.foldl_cons, List.foldl_nil, UInt64.toUInt64_toInt64,
        UInt64.zero_add]
    simp only [hout, Option.toList_some, List.cons_ne_nil, if_false, hpaid, Tx.makeChange]
    refine ⟨_, rfl, (Transactions.find_add _ _ _).trans (congrArg some ?_)⟩
    by_cases hexact : total - entered = 100000000
    · simp only [if_pos hexact]
    · simp only [if_neg hexact, Tx.addAddressOut, List.singleton_append]
  · simp only [addressOut_eq_none functions hdecodes, Option.toList_none, if_true]
    exact ⟨_, rfl, Transactions.find_add _ _ _⟩

/-- The transaction of a payment, without its signatures. -/
def payment (functions : KeyFunctions) (keys : PaymentKeys) (entered total : UInt64)
    (added : List Utxo) : Tx :=
  ⟨1, added.map spend, payouts functions keys entered total, 0⟩

/-- A call that returns true has built the payment, and `currentTransaction` is its text. -/
theorem payment_of_created {entered : UInt64} (hroom : 22 ≤ memory.length)
    (hentered : Libdogecoin.coinsToKoinuStr amountToSend = some entered)
    (hamount : entered.toNat + oneCoinKoinu < 2 ^ 64)
    (hcreated : createTransaction (transactionLibrary functions memory) keys amountToSend store
      (some transactions) = some created)
    (hresult : created.result = true) (htotal : (amounts created.added).sum < 10 ^ 19) :
    entered.toNat + oneCoinKoinu ≤ (amounts created.added).sum ∧
      ∃ tx : Tx, created.currentTransaction = utilsUint8ToHex tx.serialize ∧
        tx.unsigned = payment functions keys entered (UInt64.ofNat (amounts created.added).sum)
          created.added := by
  rcases createTransaction_eq_true _ hcreated hresult with
    ⟨used, output, signed, hused, hsucceeded, henough, houtput, hsigned, hadded, hcurrent⟩
  rw [hadded] at htotal ⊢
  rcases addUtxos_working _ _ _ _ _ _ _ _ (holds_start transactions) hused with ⟨hvin, hsum⟩
  have htotalNat : used.utxoTotalAmount.toNat = (amounts used.added).sum := by
    rw [hsum]
    exact (congrArg (· % 2 ^ 64) (Nat.zero_add _)).trans
      (Nat.mod_eq_of_lt (htotal.trans (by norm_num)))
  have hfee : ((transactionLibrary functions memory).coinsToKoinuStr amountToSend +
      (transactionLibrary functions memory).coinsToKoinuStr feeText).toNat =
        entered.toNat + oneCoinKoinu := by
    simp only [transactionLibrary, hentered, coinsToKoinuStr_feeText, Option.getD_some]
    exact (UInt64.toNat_add _ _).trans (Nat.mod_eq_of_lt hamount)
  rw [UInt64.le_iff_toNat_le, hfee, htotalNat] at henough
  have hback := coinsToKoinuStr_total hroom (htotalNat.symm ▸ (Nat.le_add_left _ _).trans henough)
    (htotalNat.symm ▸ htotal)
  have hfinalized := holds_finalized hvin hentered hback houtput
  rcases signInputs_working _ _ _ _ _ hfinalized hsigned with ⟨tx, ⟨table, rfl, hfind⟩, hsignature⟩
  refine ⟨henough, tx, ?_, ?_⟩
  · rw [hcurrent]
    simp only [transactionLibrary, Option.bind_some, Libdogecoin.getRawTransaction] at hfind ⊢
    rw [hfind]
    rfl
  · rw [← htotalNat, UInt64.ofNat_toNat, hsignature.unsigned, Tx.unsigned, payment]
    simp only [Tx.new, List.nil_append, List.map_map]
    rfl

/-- Whatever was entered, the inputs stay as they are until they are signed. -/
theorem vin_finalized {index : Int32} {working output : Option Transactions} {tx final : Tx}
    {totalText : Bytes} (hholds : Holds working index tx)
    (houtput : (transactionLibrary functions memory).addOutput index keys.destinationDogeAddress
      amountToSend working = (true, output))
    (hfinal : Holds ((transactionLibrary functions memory).finalizeTransaction index
      keys.destinationDogeAddress feeText totalText keys.loadedDogeAddress output) index final) :
    final.vin = tx.vin := by
  rcases hholds with ⟨transactions, rfl, hfind⟩
  rcases hfinal with ⟨table, htable, hfound⟩
  simp only [transactionLibrary, Libdogecoin.addOutput, hfind] at houtput
  cases hentered : Libdogecoin.coinsToKoinuStr amountToSend with
  | none =>
      rw [hentered] at houtput
      cases houtput
  | some entered =>
      rw [hentered] at houtput
      rcases Prod.mk.inj houtput with ⟨-, rfl⟩
      simp only [transactionLibrary, Option.bind_some, Libdogecoin.finalizeTransaction,
        Transactions.find_add, coinsToKoinuStr_feeText, Option.bind_eq_bind,
        Option.bind_eq_some_iff] at htable
      rcases htable with ⟨total, -, htable⟩
      split at htable
      · rw [← Option.some.inj htable, Transactions.find_add] at hfound
        rw [← Option.some.inj hfound]
        rfl
      · rw [← Option.some.inj htable, Transactions.find_add, Tx.makeChange] at hfound
        split at hfound
        · rw [← Option.some.inj hfound]
          rfl
        · rw [← Option.some.inj hfound]
          rfl

/-- Signed inputs take up room. -/
theorem count_signed_le {tx : Tx} {count : Nat} (hshort : tx.serialize.length ≤ 1023)
    (hcount : count ≤ tx.vin.length)
    (hsigned : ∀ txIn ∈ tx.vin.take count, 106 ≤ txIn.scriptSig.length) : count ≤ 6 := by
  have hall := tx.length_serialize
  have hinputs := List.card_nsmul_le_sum ((tx.vin.take count).map fun txIn => txIn.serialize.length)
    147 (by
      intro length hmem
      rcases List.mem_map.mp hmem with ⟨txIn, htxIn, rfl⟩
      have hscript := hsigned txIn htxIn
      have hlength := txIn.length_serialize
      omega)
  have hsplit : (tx.vin.map fun txIn => txIn.serialize.length).sum =
      ((tx.vin.take count).map fun txIn => txIn.serialize.length).sum +
        ((tx.vin.drop count).map fun txIn => txIn.serialize.length).sum := by
    rw [← List.sum_append, ← List.map_append, List.take_append_drop]
  rw [List.length_map, List.length_take, Nat.min_eq_left hcount, smul_eq_mul] at hinputs
  omega

/-- A call that returns true has signed as many inputs as it has added. -/
theorem signed_of_created
    (hsignatures : ∀ key tx script input signature,
      functions.signInput key tx script input = some signature → 106 ≤ signature.length)
    (hcreated : createTransaction (transactionLibrary functions memory) keys amountToSend store
      (some transactions) = some created)
    (hresult : created.result = true) (hadded : created.added ≠ []) :
    ∃ (final before : Tx) (signature : Bytes),
      created.currentTransaction = utilsUint8ToHex final.serialize ∧
      final.vin.length = created.added.length ∧
      (∀ txIn ∈ final.vin, 106 ≤ txIn.scriptSig.length) ∧ before.serialize.length ≤ 1023 ∧
      final = before.sign (created.added.length - 1) signature := by
  rcases createTransaction_eq_true _ hcreated hresult with
    ⟨used, output, signed, hused, hsucceeded, henough, houtput, hsigned, hcount, hcurrent⟩
  rw [hcount] at hadded ⊢
  rcases addUtxos_working _ _ _ _ _ _ _ _ (holds_start transactions) hused with ⟨hvin, -⟩
  rcases Nat.exists_eq_succ_of_ne_zero (mt List.eq_nil_of_length_eq_zero hadded) with
    ⟨count, hlength⟩
  rw [hlength] at hsigned ⊢
  rcases holds_of_signInputs hsigned with ⟨tx, hfinalized⟩
  have hinputs := vin_finalized hvin houtput hfinalized
  simp only [Tx.new, List.nil_append] at hinputs
  have hinput : tx.vin.length = count + 1 := by
    rw [hinputs, List.length_map]
    exact hlength
  rcases signInputs_working _ _ _ _ _ hfinalized hsigned with
    ⟨final, ⟨table, rfl, hfind⟩, hfinal⟩
  have hfinalLength : final.vin.length = count + 1 := by
    have hunsigned := congrArg (fun tx : Tx => tx.vin.length) hfinal.unsigned
    simp only [Tx.unsigned, List.length_map] at hunsigned
    exact hunsigned.trans hinput
  rcases hfinal.short (Nat.succ_pos count) with ⟨before, signature, hbefore, hlast⟩
  rw [Nat.zero_add] at hlast
  refine ⟨final, before, signature, ?_, hfinalLength, fun txIn hmem => ?_, hbefore, hlast⟩
  · rw [hcurrent]
    simp only [transactionLibrary, Option.bind_some, Libdogecoin.getRawTransaction] at hfind ⊢
    rw [hfind]
    rfl
  · rcases List.getElem_of_mem hmem with ⟨input, hin, rfl⟩
    rcases hfinal.signatures input (Nat.zero_le _) (by omega) with
      ⟨earlier, script, signature, hsignature, hscript⟩
    rw [List.getElem?_eq_getElem hin,
      List.getElem?_eq_getElem (hin.trans_eq (hfinalLength.trans hinput.symm))] at hscript
    rw [Option.some.inj hscript, List.length_append]
    exact (hsignatures _ _ _ _ _ hsignature).trans (Nat.le_add_left _ _)

/-- **The buffer bounds a payment.** Every signature takes up 106 bytes or more, with the key and
the lengths. A call that returns true has used seven outputs at most, whatever was entered, and if
there is a text to be broadcast, six at most: an amount that needs more of the stored outputs
cannot be sent. -/
theorem payment_inputs_le
    (hsignatures : ∀ key tx script input signature,
      functions.signInput key tx script input = some signature → 106 ≤ signature.length)
    (hcreated : createTransaction (transactionLibrary functions memory) keys amountToSend store
      (some transactions) = some created)
    (hresult : created.result = true) :
    created.added.length ≤ 7 ∧
      (created.currentTransaction ≠ none → created.added.length ≤ 6) := by
  by_cases hadded : created.added = []
  · rw [hadded]
    exact ⟨Nat.zero_le 7, fun _ => Nat.zero_le 6⟩
  · rcases signed_of_created hsignatures hcreated hresult hadded with
      ⟨final, before, signature, htext, hlength, hscripts, hbefore, hlast⟩
    apply And.intro
    · -- All inputs but the last were signed when the buffer was read.
      have hvin := congrArg (fun tx : Tx => tx.vin) hlast
      simp only [Tx.sign] at hvin
      have hcount : before.vin.length = created.added.length := by
        rw [← hlength, hvin, List.length_modify]
      have hothers : before.vin.take (created.added.length - 1) =
          final.vin.take (created.added.length - 1) := by
        rw [hvin, List.take_modify, List.modify_eq_self (List.length_take_le _ _)]
      have hbound := count_signed_le hbefore (by omega) fun txIn hmem =>
        hscripts txIn (List.mem_of_mem_take (hothers ▸ hmem))
      omega
    · intro hsome
      rw [htext, Ne, utilsUint8ToHex_eq_none_iff, Nat.not_lt] at hsome
      exact count_signed_le hsome hlength.ge fun txIn hmem =>
        hscripts txIn (List.mem_of_mem_take hmem)

/-- One output is used for half a coin. -/
theorem payment_inputs_le_half :
    ∃ created, createTransaction (transactionLibrary plainFunctions (List.replicate 24 0)) plainKeys
        (ascii "0.5") (oneOutput 200000000) (some []) = some created ∧
      created.added.length ≤ 7 ∧
        (created.currentTransaction ≠ none → created.added.length ≤ 6) := by
  rcases Option.map_eq_some_iff.mp createTransaction_half with ⟨created, hcreated, hparts⟩
  refine ⟨created, hcreated, payment_inputs_le ?_ hcreated (Prod.mk.inj hparts).1⟩
  intro key tx script input signature hsignature
  rw [← Option.some.inj hsignature, List.length_replicate]

end Payment

end RadioDoge.Serdog
