/-
# The transactions that serdog builds

`createTransaction` adds the stored outputs in their order until their amounts reach the
amount the user enters and a fee of one coin. Both sums are kept in 64 bits: a large
entry wraps the target, and the amounts, which come from another node, can wrap the
total. `solvent_iff` says exactly when that shows.

The functions of libdogecoin are a parameter. A slot behind the end of the store has no
result.
-/

import RadioDoge.Serdog.Utxos
import RadioDoge.Libdogecoin.Koinu
import RadioDoge.Lib.WrappedSum

namespace RadioDoge.Serdog

open WrappedSum

/-- The functions of libdogecoin that `createTransaction` calls. Its working
transactions are a `T`. -/
structure TransactionLibrary (T : Type) where
  coinsToKoinuStr : Bytes → UInt64
  koinuToCoinsStr : UInt64 → Bytes
  startTransaction : T → Int32 × T
  addUtxo : Int32 → Bytes → Int32 → T → Bool × T
  addOutput : Int32 → Bytes → Bytes → T → Bool × T
  finalizeTransaction : Int32 → Bytes → Bytes → Bytes → Bytes → T → T
  signTransactionWPrivkey : Int32 → Nat → Bytes → T → Bool × T
  getRawTransaction : Int32 → T → Option Bytes
  clearTransaction : Int32 → T → T

/-- The text of the fixed fee. -/
def feeText : Bytes := ascii "1.0"

/-- One coin, in koinu. -/
abbrev oneCoinKoinu : Nat := 100000000

/-- The loaded keys and the destination. -/
structure PaymentKeys where
  loadedDogeAddress : Bytes
  loadedPrivateKey : Bytes
  destinationDogeAddress : Bytes

/-- What the loop over the outputs leaves behind: whether every call succeeded, the
outputs that were passed to `add_utxo`, and `utxo_total_amount`. -/
structure AddedUtxos (T : Type) where
  succeeded : Bool
  added : List Utxo
  utxoTotalAmount : UInt64
  working : T

/-- What a call of `createTransaction` leaves behind. `currentTransaction` is only set by a call
that returns true, to NULL if there is no text of the transaction. -/
structure Created (T : Type) where
  result : Bool
  added : List Utxo
  currentTransaction : Option Bytes
  working : T

section Functions

variable {T : Type} (library : TransactionLibrary T)

/-- The loop that adds outputs, from slot `i` on, with `remaining` of them stored. -/
def addUtxos (currTxIndex : Int32) (desiredAmountKoinu : UInt64)
    (currUTXOs : Vector UtxoInfo maxNumUtxos) :
    Nat → Nat → UInt64 → T → Option (AddedUtxos T)
  | 0, _, utxoTotalAmount, working => some ⟨true, [], utxoTotalAmount, working⟩
  | remaining + 1, i, utxoTotalAmount, working => do
      let info ← currUTXOs[i]?
      let utxoTotalAmount := utxoTotalAmount + info.amount
      match library.addUtxo currTxIndex info.read.txId info.read.vout working with
      | (false, working) => some ⟨false, [info.read], utxoTotalAmount, working⟩
      | (true, working) =>
          if utxoTotalAmount ≥ desiredAmountKoinu then
            some ⟨true, [info.read], utxoTotalAmount, working⟩
          else
            (addUtxos currTxIndex desiredAmountKoinu currUTXOs remaining (i + 1) utxoTotalAmount
              working).map fun later => { later with added := info.read :: later.added }

/-- The loop that signs the inputs. -/
def signInputs (currTxIndex : Int32) (loadedPrivateKey : Bytes) : Nat → Nat → T → Bool × T
  | 0, _, working => (true, working)
  | remaining + 1, i, working =>
      match library.signTransactionWPrivkey currTxIndex i loadedPrivateKey working with
      | (false, working) => (false, working)
      | (true, working) => signInputs currTxIndex loadedPrivateKey remaining (i + 1) working

/-- `createTransaction` behind the loop over the outputs. -/
def finishTransaction (keys : PaymentKeys) (amountToSend : Bytes) (desiredAmountKoinu : UInt64)
    (currTxIndex : Int32) (used : AddedUtxos T) : Created T :=
  let failed (working : T) : Created T :=
    ⟨false, used.added, none, library.clearTransaction currTxIndex working⟩
  if used.succeeded = false then failed used.working
  else if used.utxoTotalAmount < desiredAmountKoinu then failed used.working
  else
    let utxoTotalAmountStr := library.koinuToCoinsStr used.utxoTotalAmount
    match library.addOutput currTxIndex keys.destinationDogeAddress amountToSend used.working with
    | (false, working) => failed working
    | (true, working) =>
        let working := library.finalizeTransaction currTxIndex keys.destinationDogeAddress feeText
          utxoTotalAmountStr keys.loadedDogeAddress working
        match signInputs library currTxIndex keys.loadedPrivateKey used.added.length 0 working with
        | (false, working) => failed working
        | (true, working) =>
            ⟨true, used.added, library.getRawTransaction currTxIndex working,
              library.clearTransaction currTxIndex working⟩

/-- `createTransaction`, with the amount that the user enters. -/
def createTransaction (keys : PaymentKeys) (amountToSend : Bytes) (store : UtxoStore)
    (working : T) : Option (Created T) :=
  let desiredAmountKoinu := library.coinsToKoinuStr amountToSend
  let desiredFeeKoinu := library.coinsToKoinuStr feeText
  let desiredAmountKoinu := desiredAmountKoinu + desiredFeeKoinu
  if store.numUTXOs < 1 then some ⟨false, [], none, working⟩
  else
    let (currTxIndex, working) := library.startTransaction working
    (addUtxos library currTxIndex desiredAmountKoinu store.currUTXOs store.numUTXOs.toNat 0 0
      working).map (finishTransaction library keys amountToSend desiredAmountKoinu currTxIndex)

/-- Every call that can report a failure reports success. -/
structure TransactionLibrary.Succeeds : Prop where
  addUtxo : ∀ (index : Int32) (txId : Bytes) (vout : Int32) (working : T),
    (library.addUtxo index txId vout working).1 = true
  addOutput : ∀ (index : Int32) (address amount : Bytes) (working : T),
    (library.addOutput index address amount working).1 = true
  signTransactionWPrivkey : ∀ (index : Int32) (input : Nat) (key : Bytes) (working : T),
    (library.signTransactionWPrivkey index input key working).1 = true

end Functions

/-! ## The loop -/

/-- The amounts of the outputs, as numbers. -/
def amounts (utxos : List Utxo) : List Nat := utxos.map fun utxo => utxo.amount.toNat

theorem amounts_take (utxos : List Utxo) (count : Nat) :
    amounts (utxos.take count) = (amounts utxos).take count := List.map_take

theorem length_amounts (utxos : List Utxo) : (amounts utxos).length = utxos.length :=
  List.length_map _

/-- A number of 64 bits is below the modulus. -/
theorem amounts_lt (utxos : List Utxo) : ∀ amount ∈ amounts utxos, amount < 2 ^ 64 := by
  intro amount hmem
  obtain ⟨utxo, -, rfl⟩ := List.mem_map.mp hmem
  exact utxo.amount.toNat_lt

/-- A store within its capacity holds as many outputs as it counts. -/
theorem length_held {store : UtxoStore} (hcapacity : store.numUTXOs.toNat ≤ maxNumUtxos) :
    store.held.length = store.numUTXOs.toNat := by
  rw [UtxoStore.held, List.length_map, List.length_take, Vector.length_toList]
  exact Nat.min_eq_left hcapacity

section Loop

variable {T : Type} (library : TransactionLibrary T) (currTxIndex : Int32)
  (desired : UInt64) (currUTXOs : Vector UtxoInfo maxNumUtxos)

/-- The slots from `i` on, as they are read. -/
def slotsFrom (currUTXOs : Vector UtxoInfo maxNumUtxos) (i remaining : Nat) : List Utxo :=
  ((currUTXOs.toList.drop i).take remaining).map UtxoInfo.read

theorem slotsFrom_succ {i remaining : Nat} (hi : i < maxNumUtxos) :
    slotsFrom currUTXOs i (remaining + 1) =
      currUTXOs[i].read :: slotsFrom currUTXOs (i + 1) remaining := by
  have hlist : i < currUTXOs.toList.length := by
    rw [Vector.length_toList]
    exact hi
  rw [slotsFrom, List.drop_eq_getElem_cons hlist, List.take_succ_cons, List.map_cons,
    Vector.getElem_toList]
  rfl

/-- The amount of the first slot decides whether the wrapped total stops there. -/
theorem stop_slotsFrom_succ (sum : UInt64) {i : Nat} (hi : i < maxNumUtxos) (remaining : Nat) :
    stop (2 ^ 64) desired.toNat sum.toNat (amounts (slotsFrom currUTXOs i (remaining + 1))) =
      if desired ≤ sum + currUTXOs[i].amount then some 1
      else (stop (2 ^ 64) desired.toNat (sum + currUTXOs[i].amount).toNat
        (amounts (slotsFrom currUTXOs (i + 1) remaining))).map (· + 1) := by
  have hdesired : desired.toNat % 2 ^ 64 = desired.toNat := Nat.mod_eq_of_lt desired.toNat_lt
  rw [slotsFrom_succ currUTXOs hi, amounts, List.map_cons, stop, UtxoInfo.read, hdesired]
  simp only [UInt64.le_iff_toNat_le, UInt64.toNat_add]
  rfl

/-- What the loop does, unless a call fails: it stops where the wrapped total reaches the
target, or else at the end of the list. -/
theorem addUtxos_spec (remaining : Nat) :
    ∀ (i : Nat) (sum : UInt64) (working : T), i + remaining ≤ maxNumUtxos →
      ∃ used, addUtxos library currTxIndex desired currUTXOs remaining i sum working = some used ∧
        (used.succeeded = true →
          match stop (2 ^ 64) desired.toNat sum.toNat
            (amounts (slotsFrom currUTXOs i remaining)) with
          | some count =>
              used.added = (slotsFrom currUTXOs i remaining).take count ∧
                desired ≤ used.utxoTotalAmount
          | none => 0 < remaining → used.utxoTotalAmount < desired) := by
  induction remaining with
  | zero =>
      intro i sum working _
      exact ⟨_, rfl, fun _ hpos => absurd hpos (Nat.lt_irrefl 0)⟩
  | succ remaining ih =>
      intro i sum working hroom
      have hi : i < maxNumUtxos := by omega
      have hslot : currUTXOs[i]? = some currUTXOs[i] := Vector.getElem?_eq_getElem hi
      have hstop := stop_slotsFrom_succ desired currUTXOs sum hi remaining
      rw [addUtxos, hslot, hstop, slotsFrom_succ currUTXOs hi]
      simp only [Option.bind_eq_bind, Option.bind_some]
      generalize library.addUtxo currTxIndex currUTXOs[i].read.txId currUTXOs[i].read.vout working =
        call
      obtain ⟨addUtxoResult, working'⟩ := call
      cases addUtxoResult with
      | false => exact ⟨_, rfl, fun hsucceeded => by cases hsucceeded⟩
      | true =>
          by_cases hreached : desired ≤ sum + currUTXOs[i].amount
          · simp only [ge_iff_le, if_pos hreached]
            exact ⟨_, rfl, fun _ => ⟨rfl, hreached⟩⟩
          · simp only [ge_iff_le, if_neg hreached]
            obtain ⟨later, hlater, hspec⟩ := ih (i + 1) (sum + currUTXOs[i].amount) working'
              (by omega)
            rw [hlater]
            refine ⟨_, rfl, fun hsucceeded => ?_⟩
            have hrest := hspec hsucceeded
            cases hcount : stop (2 ^ 64) desired.toNat (sum + currUTXOs[i].amount).toNat
                (amounts (slotsFrom currUTXOs (i + 1) remaining)) with
            | some count =>
                rw [hcount] at hrest
                exact ⟨congrArg (currUTXOs[i].read :: ·) hrest.1, hrest.2⟩
            | none =>
                rw [hcount] at hrest
                intro _
                rcases Nat.eq_zero_or_pos remaining with rfl | hpos
                · -- nothing is left: the total is the one just compared
                  rw [addUtxos] at hlater
                  obtain rfl := Option.some.inj hlater
                  exact UInt64.not_le.mp hreached
                · exact hrest hpos

/-- With calls that succeed, the loop succeeds. -/
theorem addUtxos_succeeded (hsucceeds : library.Succeeds) (remaining : Nat) :
    ∀ (i : Nat) (sum : UInt64) (working : T) (used : AddedUtxos T),
      addUtxos library currTxIndex desired currUTXOs remaining i sum working = some used →
        used.succeeded = true := by
  induction remaining with
  | zero =>
      intro i sum working used hused
      rw [addUtxos] at hused
      obtain rfl := Option.some.inj hused
      rfl
  | succ remaining ih =>
      intro i sum working used hused
      rw [addUtxos, Option.bind_eq_bind, Option.bind_eq_some_iff] at hused
      obtain ⟨info, -, hused⟩ := hused
      have hcall := hsucceeds.addUtxo currTxIndex info.read.txId info.read.vout working
      generalize library.addUtxo currTxIndex info.read.txId info.read.vout working = call
        at hused hcall
      obtain ⟨addUtxoResult, working'⟩ := call
      obtain rfl : addUtxoResult = true := hcall
      simp only at hused
      split at hused
      · obtain rfl := Option.some.inj hused
        rfl
      · obtain ⟨later, hlater, rfl⟩ := Option.map_eq_some_iff.mp hused
        exact ih (i + 1) _ working' later hlater

/-- With calls that succeed, every input is signed. -/
theorem signInputs_succeeded (hsucceeds : library.Succeeds) (key : Bytes) (remaining : Nat) :
    ∀ (i : Nat) (working : T),
      (signInputs library currTxIndex key remaining i working).1 = true := by
  induction remaining with
  | zero =>
      intro i working
      rfl
  | succ remaining ih =>
      intro i working
      have hcall := hsucceeds.signTransactionWPrivkey currTxIndex i key working
      rw [signInputs]
      generalize library.signTransactionWPrivkey currTxIndex i key working = call at hcall
      obtain ⟨signed, working'⟩ := call
      obtain rfl : signed = true := hcall
      exact ih (i + 1) working'

end Loop

/-! ## A call -/

/-- What the call has to raise: the amount entered, and the fee. -/
def target (entered : UInt64) : Nat := entered.toNat + oneCoinKoinu

theorem target_pos (entered : UInt64) : 0 < target entered :=
  Nat.lt_of_lt_of_le (by decide) (Nat.le_add_left oneCoinKoinu _)

/-- The stored outputs that the call adds for this amount, if it succeeds. -/
def Pays (store : UtxoStore) (entered : UInt64) (count : Nat) : Prop :=
  StopsAt (2 ^ 64) (target entered) (amounts store.held) count

section Call

variable {T : Type} (library : TransactionLibrary T) (keys : PaymentKeys) (amountToSend : Bytes)
  {store : UtxoStore} (working : T)

/-- Success means that the loop succeeded and the total was large enough. -/
theorem finishTransaction_result (desired : UInt64) (currTxIndex : Int32) (used : AddedUtxos T) :
    (finishTransaction library keys amountToSend desired currTxIndex used).added = used.added ∧
      ((finishTransaction library keys amountToSend desired currTxIndex used).result = true →
        used.succeeded = true ∧ desired ≤ used.utxoTotalAmount) := by
  rw [finishTransaction]
  split
  · exact ⟨rfl, fun hresult => by cases hresult⟩
  next hsucceeded =>
    split
    · exact ⟨rfl, fun hresult => by cases hresult⟩
    next htotal =>
      refine ⟨?_, fun _ => ⟨Bool.eq_true_of_not_eq_false hsucceeded, UInt64.not_lt.mp htotal⟩⟩
      simp only
      split
      · rfl
      · split
        · rfl
        · rfl

/-- With calls that succeed, nothing else is needed. -/
theorem finishTransaction_succeeds (hsucceeds : library.Succeeds) {desired : UInt64}
    (currTxIndex : Int32) {used : AddedUtxos T} (hsucceeded : used.succeeded = true)
    (htotal : desired ≤ used.utxoTotalAmount) :
    (finishTransaction library keys amountToSend desired currTxIndex used).result = true := by
  have houtput := hsucceeds.addOutput currTxIndex keys.destinationDogeAddress amountToSend
    used.working
  rw [finishTransaction, if_neg (by rw [hsucceeded]; decide), if_neg (UInt64.not_lt.mpr htotal)]
  generalize library.addOutput currTxIndex keys.destinationDogeAddress amountToSend used.working =
    output at houtput
  obtain ⟨outputResult, added⟩ := output
  obtain rfl : outputResult = true := houtput
  have hsigned := signInputs_succeeded library currTxIndex hsucceeds keys.loadedPrivateKey
    used.added.length 0 (library.finalizeTransaction currTxIndex keys.destinationDogeAddress
      feeText (library.koinuToCoinsStr used.utxoTotalAmount) keys.loadedDogeAddress added)
  simp only
  generalize signInputs library currTxIndex keys.loadedPrivateKey used.added.length 0 _ =
    signing at hsigned
  obtain ⟨signed, done⟩ := signing
  obtain rfl : signed = true := hsigned
  rfl

/-- The sum that the loop compares with. -/
theorem toNat_desired {entered : UInt64} (hamount : library.coinsToKoinuStr amountToSend = entered)
    (hfee : (library.coinsToKoinuStr feeText).toNat = oneCoinKoinu) :
    (library.coinsToKoinuStr amountToSend + library.coinsToKoinuStr feeText).toNat =
      target entered % 2 ^ 64 := by
  rw [UInt64.toNat_add, hamount, hfee, target]

/-- **A call of `createTransaction`.** It succeeds only with a front of the stored list
at which the wrapped total first reaches the wrapped target; and if no call of the library
fails, it succeeds whenever there is one. -/
theorem createTransaction_spec (hcapacity : store.numUTXOs.toNat ≤ maxNumUtxos)
    {entered : UInt64} (hamount : library.coinsToKoinuStr amountToSend = entered)
    (hfee : (library.coinsToKoinuStr feeText).toNat = oneCoinKoinu) :
    ∃ created, createTransaction library keys amountToSend store working = some created ∧
      (created.result = true →
        ∃ count, Pays store entered count ∧ created.added = store.held.take count) ∧
      (library.Succeeds → (∃ count, Pays store entered count) → created.result = true) := by
  rw [createTransaction]
  by_cases hempty : store.numUTXOs < 1
  · rw [if_pos hempty]
    refine ⟨_, rfl, ?_, ?_⟩
    · intro hresult
      cases hresult
    rintro - ⟨count, hpays⟩
    have hnone : store.numUTXOs.toNat < 1 := UInt32.lt_iff_toNat_lt.mp hempty
    have hlength := hpays.le
    rw [length_amounts, length_held hcapacity] at hlength
    have hpos := hpays.pos
    omega
  · rw [if_neg hempty]
    have hpos : 0 < store.numUTXOs.toNat := by
      have hone : ¬ store.numUTXOs.toNat < (1 : UInt32).toNat := mt UInt32.lt_iff_toNat_lt.mpr hempty
      have htoNat : (1 : UInt32).toNat = 1 := rfl
      omega
    have hdesired := toNat_desired library amountToSend hamount hfee
    generalize library.coinsToKoinuStr amountToSend + library.coinsToKoinuStr feeText = desired
      at hdesired
    obtain ⟨used, hused, hspec⟩ := addUtxos_spec library (library.startTransaction working).1 desired
      store.currUTXOs store.numUTXOs.toNat 0 0 (library.startTransaction working).2 (by omega)
    have hstops : ∀ count, stop (2 ^ 64) desired.toNat (0 : UInt64).toNat
        (amounts (slotsFrom store.currUTXOs 0 store.numUTXOs.toNat)) = some count ↔
          Pays store entered count := by
      intro count
      rw [hdesired]
      exact (stop_eq_some_iff _ count).trans stopsAt_mod_iff
    obtain ⟨hadded, hresult⟩ := finishTransaction_result library keys amountToSend desired
      (library.startTransaction working).1 used
    have hcreated : (addUtxos library (library.startTransaction working).1 desired store.currUTXOs
        store.numUTXOs.toNat 0 0 (library.startTransaction working).2).map
          (finishTransaction library keys amountToSend desired (library.startTransaction working).1) =
        some (finishTransaction library keys amountToSend desired
          (library.startTransaction working).1 used) := by
      rw [hused, Option.map_some]
    refine ⟨_, hcreated, fun htrue => ?_, fun hsucceeds hpays => ?_⟩
    · obtain ⟨hsucceeded, htotal⟩ := hresult htrue
      have hloop := hspec hsucceeded
      cases hcount : stop (2 ^ 64) desired.toNat (0 : UInt64).toNat
          (amounts (slotsFrom store.currUTXOs 0 store.numUTXOs.toNat)) with
      | some count =>
          rw [hcount] at hloop
          exact ⟨count, (hstops count).mp hcount, hadded.trans hloop.1⟩
      | none =>
          rw [hcount] at hloop
          exact absurd htotal (UInt64.not_le.mpr (hloop hpos))
    · obtain ⟨count, hpays⟩ := hpays
      have hsucceeded := addUtxos_succeeded library _ desired store.currUTXOs hsucceeds _ _ _ _ _ hused
      have hloop := hspec hsucceeded
      rw [(hstops count).mpr hpays] at hloop
      exact finishTransaction_succeeds library keys amountToSend hsucceeds _ hsucceeded hloop.2

end Call

/-! ## Solvency -/

/-- Whatever the library does: a call that returns true has added outputs that are worth
the amount and the fee, and fewer of them would not have been enough. -/
def Solvent (store : UtxoStore) (entered : UInt64) : Prop :=
  ∀ (T : Type) (library : TransactionLibrary T) (keys : PaymentKeys) (amountToSend : Bytes)
    (working : T) (created : Created T),
    library.coinsToKoinuStr amountToSend = entered →
    (library.coinsToKoinuStr feeText).toNat = oneCoinKoinu →
    createTransaction library keys amountToSend store working = some created →
    created.result = true →
    target entered ≤ (amounts created.added).sum ∧
      ∀ fewer < created.added.length, (amounts (store.held.take fewer)).sum < target entered

/-- A library in which every call succeeds. -/
def obligingTransactions (entered : UInt64) : TransactionLibrary Unit where
  coinsToKoinuStr text := if text = feeText then 100000000 else entered
  koinuToCoinsStr _ := []
  startTransaction working := (0, working)
  addUtxo _ _ _ working := (true, working)
  addOutput _ _ _ working := (true, working)
  finalizeTransaction _ _ _ _ _ working := working
  signTransactionWPrivkey _ _ _ working := (true, working)
  getRawTransaction _ _ := some []
  clearTransaction _ working := working

theorem obligingTransactions_succeeds (entered : UInt64) : (obligingTransactions entered).Succeeds :=
  ⟨fun _ _ _ _ => rfl, fun _ _ _ _ => rfl, fun _ _ _ _ => rfl⟩

/-- Keys of no consequence. -/
def noKeys : PaymentKeys := ⟨[], [], []⟩

section Solvency

variable {store : UtxoStore} {entered : UInt64}

/-- What the property comes to for a front of the stored list. -/
theorem reaches_held_iff {count : Nat} (hle : count ≤ store.held.length) :
    (target entered ≤ (amounts (store.held.take count)).sum ∧
        ∀ fewer < (store.held.take count).length,
          (amounts (store.held.take fewer)).sum < target entered) ↔
      Reaches (target entered) (amounts store.held) count := by
  simp only [amounts_take, List.length_take, Nat.min_eq_left hle]
  exact ⟨fun ⟨hreached, hfirst⟩ => ⟨hreached, hfirst⟩, fun ⟨hreached, hfirst⟩ => ⟨hreached, hfirst⟩⟩

/-- A library in which every call succeeds shows what is paid. -/
theorem reaches_of_solvent (hcapacity : store.numUTXOs.toNat ≤ maxNumUtxos)
    (hsolvent : Solvent store entered) {count : Nat} (hpays : Pays store entered count) :
    Reaches (target entered) (amounts store.held) count := by
  have hne : ([] : Bytes) ≠ feeText := by decide
  have hamount : (obligingTransactions entered).coinsToKoinuStr [] = entered := by
    simp [obligingTransactions, hne]
  have hfee : ((obligingTransactions entered).coinsToKoinuStr feeText).toNat = oneCoinKoinu := rfl
  obtain ⟨created, hcreated, hadded, hresult⟩ := createTransaction_spec (obligingTransactions entered)
    noKeys [] () hcapacity hamount hfee
  have htrue := hresult (obligingTransactions_succeeds entered) ⟨count, hpays⟩
  obtain ⟨count', hpays', hfront⟩ := hadded htrue
  obtain rfl : count' = count :=
    Option.some.inj (((stop_eq_some_iff _ _).mpr hpays').symm.trans ((stop_eq_some_iff _ _).mpr hpays))
  have hle := hpays.le
  rw [length_amounts] at hle
  have henough := hsolvent Unit _ noKeys [] () created hamount hfee hcreated htrue
  rw [hfront] at henough
  exact (reaches_held_iff hle).mp henough

/-- **Solvency.** A call that returns true is solvent exactly when the total of the
outputs it stops at has wrapped around 64 bits as often as the target. -/
theorem solvent_iff (store : UtxoStore) (entered : UInt64)
    (hcapacity : store.numUTXOs.toNat ≤ maxNumUtxos) :
    Solvent store entered ↔
      ∀ count, Pays store entered count →
        total (amounts store.held) count / 2 ^ 64 = target entered / 2 ^ 64 := by
  have hexact : ∀ count, Pays store entered count →
      (Reaches (target entered) (amounts store.held) count ↔
        total (amounts store.held) count / 2 ^ 64 = target entered / 2 ^ 64) :=
    fun count hpays => reaches_iff (target_pos entered) (amounts_lt store.held) hpays
  constructor
  · intro hsolvent count hpays
    exact (hexact count hpays).mp (reaches_of_solvent hcapacity hsolvent hpays)
  · intro halike T library keys amountToSend working created hamount hfee hcreated hresult
    obtain ⟨created', hcreated', hadded, -⟩ := createTransaction_spec library keys amountToSend
      working hcapacity hamount hfee
    obtain rfl : created' = created := Option.some.inj (hcreated'.symm.trans hcreated)
    obtain ⟨count, hpays, hfront⟩ := hadded hresult
    have hle := hpays.le
    rw [length_amounts] at hle
    rw [hfront]
    exact (reaches_held_iff hle).mpr ((hexact count hpays).mpr (halike count hpays))

end Solvency

/-- A store with one output of this amount. -/
def oneOutput (amount : UInt64) : UtxoStore :=
  ⟨1, (Vector.replicate _ ⟨0, Vector.replicate _ 0, 0⟩).setIfInBounds 0
    ⟨0, Vector.replicate _ 0, amount⟩⟩

/-- One coin is sent from an output of two. -/
theorem solvent_iff_two_coins :
    Solvent (oneOutput 200000000) 100000000 ↔
      ∀ count, Pays (oneOutput 200000000) 100000000 count →
        total (amounts (oneOutput 200000000).held) count / 2 ^ 64 = target 100000000 / 2 ^ 64 :=
  solvent_iff (oneOutput 200000000) 100000000 (by decide)

/-- An amount that `coins_to_koinu_str` returns wraps with the fee to less than one coin: an output
of one coin is taken to be enough. -/
theorem wrapped_amount_not_solvent :
    ¬ ∀ (store : UtxoStore) (amountToSend : Bytes) (entered : UInt64),
      store.numUTXOs.toNat ≤ maxNumUtxos →
        Libdogecoin.coinsToKoinuStr amountToSend = some entered → Solvent store entered := by
  intro hall
  have hheld : amounts (oneOutput 100000000).held = [100000000] := by decide
  have hentered : Libdogecoin.coinsToKoinuStr (ascii "184467440737.0955161") =
      some 18446744073709551610 := by decide +kernel
  have hpays : Pays (oneOutput 100000000) 18446744073709551610 1 := by
    rw [Pays, hheld]
    exact ⟨Nat.one_pos, le_rfl, by decide, fun fewer hpos hlt => absurd hlt (Nat.not_lt_of_le hpos)⟩
  have hreaches := reaches_of_solvent (by decide) (hall (oneOutput 100000000) _ _ (by decide)
    hentered) hpays
  have hsum := hreaches.reached
  rw [hheld] at hsum
  exact absurd hsum (by decide)

end RadioDoge.Serdog
