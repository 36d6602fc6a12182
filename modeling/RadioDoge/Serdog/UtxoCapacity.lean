/-
# The capacity of serdog's store

A received list announces how many outputs it has. The number is trusted: neither the
64 slots nor the size of the payload bounds it. A manual addition compares the number
with 64 and then takes the slot behind the last one. `staysInside_iff` says which
payloads and additions keep a run inside the store and inside what was received.
-/

import RadioDoge.Serdog.CreateTransaction

namespace RadioDoge.Serdog

open LittleEndian

/-! ## What happens to the store -/

/-- `MAX_DOGECOIN_AMOUNT_STRING_LENGTH`. -/
abbrev maxDogecoinAmountStringLength : Nat := 21

/-- A payload as `processDogePayload` is given it: one of the two buffers of the poll
thread, and how many of its bytes were received. -/
structure ReceivedPayload where
  buffer : Bytes
  payloadSize : Nat
  isBuffer : buffer.length = dataBufferSize ∨ buffer.length = multipartBufferSize
  fits : payloadSize ≤ buffer.length

namespace ReceivedPayload

variable (p : ReceivedPayload)

/-- The bytes that were received. -/
def payload : Bytes := p.buffer.take p.payloadSize

/-- The payload is processed as a list of outputs. -/
def CarriesUTXOs : Prop := p.buffer.head? = some DogeCommandType.sendUTXOs.code

instance : Decidable p.CarriesUTXOs := inferInstanceAs (Decidable (_ = _))

/-- The number of outputs that it announces. -/
def announced : UInt32 := UInt32.ofNat (ofBytes ((p.buffer.drop 1).take 4))

end ReceivedPayload

/-- What the user enters for a manual addition; the number is missing if what was typed
is none. -/
structure ManualEntry where
  txId : Bytes
  vout : Option Int32
  amount : Bytes

section Functions

variable (coinsToKoinuStr : Bytes → UInt64)

/-- `manuallyAddUTXO`. -/
def manuallyAddUTXO (entry : ManualEntry) (store : UtxoStore) : Option UtxoStore :=
  if store.numUTXOs = 64 then some store
  else do
    let i := store.numUTXOs.toNat
    let info ← store.currUTXOs[i]?
    let txId ← scanString info.txId entry.txId
    match entry.vout with
    | none => some { store with currUTXOs := store.currUTXOs.setIfInBounds i { info with txId } }
    | some vout =>
        let _ ← scanString (Vector.replicate maxDogecoinAmountStringLength 0) entry.amount
        some
          { numUTXOs := store.numUTXOs + 1
            currUTXOs := store.currUTXOs.setIfInBounds i
              { vout, txId, amount := coinsToKoinuStr entry.amount } }

/-- `printAllUTXOs`: the outputs that it prints, with `remaining` of them to go. -/
def printAllUTXOs (currUTXOs : Vector UtxoInfo maxNumUtxos) : Nat → Nat → Option (List Utxo)
  | 0, _ => some []
  | remaining + 1, i => do
      let info ← currUTXOs[i]?
      let later ← printAllUTXOs currUTXOs remaining (i + 1)
      some (info.read :: later)

/-- What happens to the store: a payload is received, or the user adds an output or
clears the store. -/
inductive StoreEvent
  | received (p : ReceivedPayload)
  | manuallyAdded (entry : ManualEntry)
  | cleared

/-- One event. -/
def UtxoStore.step (store : UtxoStore) : StoreEvent → Option UtxoStore
  | .received p => processDogePayload p.buffer store
  | .manuallyAdded entry => manuallyAddUTXO coinsToKoinuStr entry store
  | .cleared => some { store with numUTXOs := 0 }

/-- The loop of `deserializeUTXOs` stays in the store and in the received bytes. -/
def UtxoStore.ReadsPayload (store : UtxoStore) : StoreEvent → Prop
  | .received p =>
      p.CarriesUTXOs →
        (deserializeUTXOs (p.payload.drop 5) p.announced.toNat 0 0 store.currUTXOs).isSome
  | _ => True

/-- The loops over the stored outputs stay in the store. -/
def UtxoStore.LoopsInside (store : UtxoStore) : Prop :=
  (printAllUTXOs store.currUTXOs store.numUTXOs.toNat 0).isSome ∧
    ∀ (T : Type) (library : TransactionLibrary T) (keys : PaymentKeys) (amountToSend : Bytes)
      (working : T), (createTransaction library keys amountToSend store working).isSome

/-- In every step the store stays within its capacity, and nothing behind it or behind
the received bytes is accessed. -/
def StaysInside : UtxoStore → List StoreEvent → Prop
  | _, [] => True
  | store, event :: rest =>
      store.ReadsPayload event ∧
        ∃ next, store.step coinsToKoinuStr event = some next ∧
          next.numUTXOs.toNat ≤ maxNumUtxos ∧ next.LoopsInside ∧ StaysInside next rest

/-- A list announces no more outputs than the store holds and the payload has, and what
is typed for an addition fits the buffers unless the store is full. -/
def UtxoStore.Accepts (store : UtxoStore) : StoreEvent → Prop
  | .received p =>
      p.CarriesUTXOs → p.announced.toNat ≤ maxNumUtxos ∧
        (p.announced.toNat = 0 ∨
          5 + (voutLength + txIdStringLength + balanceLength) * p.announced.toNat ≤ p.payloadSize)
  | .manuallyAdded entry =>
      store.numUTXOs = 64 ∨ entry.txId.length < txIdSize ∧
        (entry.vout.isSome → entry.amount.length < maxDogecoinAmountStringLength)
  | .cleared => True

/-- Every event is acceptable where it happens. -/
def AcceptsAll : UtxoStore → List StoreEvent → Prop
  | _, [] => True
  | store, event :: rest =>
      store.Accepts event ∧
        ∀ next, store.step coinsToKoinuStr event = some next → AcceptsAll next rest

end Functions

/-! ## One step -/

/-- A record is read if it is there. -/
theorem deserializeUtxo_isSome_iff {source : Bytes} {offset : Nat} (info : UtxoInfo) :
    (deserializeUtxo source offset info).isSome ↔
      offset + (voutLength + txIdStringLength + balanceLength) ≤ source.length := by
  by_cases hroom : offset + (voutLength + txIdStringLength + balanceLength) ≤ source.length
  · refine iff_of_true ?_ hroom
    have hvout : offset + voutLength ≤ source.length := by omega
    have htxId : offset + voutLength + txIdStringLength ≤ source.length := by omega
    have hamount : offset + voutLength + txIdStringLength + balanceLength ≤ source.length := by omega
    simp only [deserializeUtxo, readBytes, if_pos hvout, if_pos htxId, if_pos hamount]
    rfl
  · refine iff_of_false ?_ hroom
    have hamount : ¬ offset + voutLength + txIdStringLength + balanceLength ≤ source.length := by
      omega
    simp only [deserializeUtxo, readBytes, if_neg hamount]
    simp

/-- The loop of `deserializeUTXOs` has a result where there are slots and records enough. -/
theorem deserializeUTXOs_isSome_iff {source : Bytes} (remaining : Nat) :
    ∀ (i offset : Nat) (currUTXOs : Vector UtxoInfo maxNumUtxos),
      (deserializeUTXOs source remaining i offset currUTXOs).isSome ↔
        remaining = 0 ∨ i + remaining ≤ maxNumUtxos ∧
          offset + (voutLength + txIdStringLength + balanceLength) * remaining ≤ source.length := by
  induction remaining with
  | zero =>
      intro i offset currUTXOs
      exact iff_of_true rfl (Or.inl rfl)
  | succ remaining ih =>
      intro i offset currUTXOs
      have hmul := Nat.mul_add_one (voutLength + txIdStringLength + balanceLength) remaining
      rw [deserializeUTXOs]
      by_cases hi : i < maxNumUtxos
      · have hslot : currUTXOs[i]? = some currUTXOs[i] := Vector.getElem?_eq_getElem hi
        have hrecord : (deserializeUtxo source offset currUTXOs[i]).isSome ↔
            offset + (voutLength + txIdStringLength + balanceLength) ≤ source.length :=
          deserializeUtxo_isSome_iff currUTXOs[i]
        rw [hslot, Option.bind_eq_bind, Option.bind_some]
        cases hinfo : deserializeUtxo source offset currUTXOs[i] with
        | none =>
            rw [hinfo] at hrecord
            have hshort := mt hrecord.mpr (by simp)
            refine iff_of_false (by simp) ?_
            omega
        | some info =>
            rw [hinfo] at hrecord
            have hroom := hrecord.mp rfl
            rw [Option.bind_some, ih]
            have hlast : remaining = 0 →
                (voutLength + txIdStringLength + balanceLength) * remaining = 0 := by
              rintro rfl
              rfl
            omega
      · have hslot : currUTXOs[i]? = none := Vector.getElem?_eq_none (Nat.le_of_not_lt hi)
        rw [hslot]
        refine iff_of_false (by simp) ?_
        omega

/-- The loop that prints. -/
theorem printAllUTXOs_isSome (currUTXOs : Vector UtxoInfo maxNumUtxos) (remaining : Nat) :
    ∀ i, i + remaining ≤ maxNumUtxos → (printAllUTXOs currUTXOs remaining i).isSome := by
  induction remaining with
  | zero =>
      intro i _
      rfl
  | succ remaining ih =>
      intro i hroom
      have hi : i < maxNumUtxos := by omega
      obtain ⟨later, hlater⟩ := Option.isSome_iff_exists.mp (ih (i + 1) (by omega))
      rw [printAllUTXOs, Vector.getElem?_eq_getElem hi, hlater]
      rfl

/-- Within the capacity, the later loops stay in the store. -/
theorem loopsInside {store : UtxoStore} (hcapacity : store.numUTXOs.toNat ≤ maxNumUtxos) :
    store.LoopsInside := by
  refine ⟨printAllUTXOs_isSome _ _ 0 (by omega), ?_⟩
  intro T library keys amountToSend working
  rw [createTransaction]
  by_cases hempty : store.numUTXOs < 1
  · rw [if_pos hempty]
    rfl
  · rw [if_neg hempty]
    simp only [Option.isSome_map]
    obtain ⟨used, hused, -⟩ := addUtxos_spec library (library.startTransaction working).1
      (library.coinsToKoinuStr amountToSend + library.coinsToKoinuStr feeText) store.currUTXOs
      store.numUTXOs.toNat 0 0 (library.startTransaction working).2 (by omega)
    rw [hused]
    rfl

section Received

variable {p : ReceivedPayload} {store : UtxoStore}

/-- The command of a buffer, the announced number and the records. -/
theorem ReceivedPayload.processDogePayload_eq (hcarries : p.CarriesUTXOs) :
    processDogePayload p.buffer store =
      (deserializeUTXOs (p.buffer.drop 5) p.announced.toNat 0 0 store.currUTXOs).map
        fun currUTXOs => ⟨p.announced, currUTXOs⟩ := by
  have hlength : 5 ≤ p.buffer.length := by
    rcases p.isBuffer with hsize | hsize
    · exact hsize ▸ (by decide)
    · exact hsize ▸ (by decide)
  rw [ReceivedPayload.CarriesUTXOs] at hcarries
  rw [ReceivedPayload.announced]
  cases hbuffer : p.buffer with
  | nil =>
      rw [hbuffer] at hcarries
      cases hcarries
  | cons command rest =>
      rw [hbuffer] at hcarries hlength
      rw [List.length_cons] at hlength
      have hcommand : command = DogeCommandType.sendUTXOs.code := Option.some.inj hcarries
      have hcount : 0 + 4 ≤ rest.length := by omega
      rw [processDogePayload, if_pos hcommand, processReceivedUTXOs, readBytes, if_pos hcount,
        Option.bind_eq_bind, Option.bind_some, List.drop_zero, List.drop_succ_cons,
        List.drop_zero, List.drop_succ_cons]
      simp only
      cases deserializeUTXOs (rest.drop 4) _ 0 0 store.currUTXOs with
      | none => rfl
      | some currUTXOs => rfl

/-- Any other payload leaves the store. -/
theorem ReceivedPayload.processDogePayload_other (hother : ¬ p.CarriesUTXOs) :
    processDogePayload p.buffer store = some store := by
  rw [ReceivedPayload.CarriesUTXOs] at hother
  cases hbuffer : p.buffer with
  | nil =>
      have hsize := p.isBuffer
      rw [hbuffer] at hsize
      exact absurd hsize (by decide)
  | cons command rest =>
      rw [hbuffer] at hother
      have hcommand : command ≠ DogeCommandType.sendUTXOs.code := fun heq =>
        hother (congrArg some heq)
      rw [processDogePayload, if_neg hcommand]

/-- What a list has to announce for the loop to stay in the store and the payload. -/
theorem readsPayload_received_iff :
    store.ReadsPayload (.received p) ↔ store.Accepts (.received p) := by
  rw [UtxoStore.ReadsPayload, UtxoStore.Accepts]
  refine imp_congr_right fun _ => ?_
  have hlength : (p.payload.drop 5).length = p.payloadSize - 5 := by
    rw [List.length_drop, ReceivedPayload.payload, List.length_take, Nat.min_eq_left p.fits]
  rw [deserializeUTXOs_isSome_iff, hlength, voutLength, txIdStringLength, balanceLength]
  omega

end Received

/-! ## Runs -/

section Steps

variable {coinsToKoinuStr : Bytes → UInt64} {store : UtxoStore}

/-- A list that is accepted. -/
theorem step_received (p : ReceivedPayload) (hcapacity : store.numUTXOs.toNat ≤ maxNumUtxos)
    (haccepts : store.Accepts (.received p)) :
    ∃ next, store.step coinsToKoinuStr (.received p) = some next ∧
      next.numUTXOs.toNat ≤ maxNumUtxos := by
  by_cases hcarries : p.CarriesUTXOs
  · obtain ⟨hcount, hroom⟩ := haccepts hcarries
    have hlength : (p.buffer.drop 5).length = p.buffer.length - 5 := List.length_drop
    have hfits := p.fits
    have hsome : (deserializeUTXOs (p.buffer.drop 5) p.announced.toNat 0 0 store.currUTXOs).isSome := by
      rw [deserializeUTXOs_isSome_iff, hlength]
      omega
    obtain ⟨currUTXOs, hslots⟩ := Option.isSome_iff_exists.mp hsome
    refine ⟨⟨p.announced, currUTXOs⟩, ?_, hcount⟩
    rw [UtxoStore.step, ReceivedPayload.processDogePayload_eq hcarries, hslots]
    rfl
  · exact ⟨store, ReceivedPayload.processDogePayload_other hcarries, hcapacity⟩

/-- Comparing with 64 is enough as long as the store is within its capacity: a manual
addition then needs no more than buffers that are large enough. -/
theorem step_manuallyAdded_iff (entry : ManualEntry)
    (hcapacity : store.numUTXOs.toNat ≤ maxNumUtxos) :
    (∃ next, store.step coinsToKoinuStr (.manuallyAdded entry) = some next ∧
        next.numUTXOs.toNat ≤ maxNumUtxos) ↔ store.Accepts (.manuallyAdded entry) := by
  rw [UtxoStore.step, manuallyAddUTXO, UtxoStore.Accepts]
  by_cases hfull : store.numUTXOs = 64
  · rw [if_pos hfull]
    exact iff_of_true ⟨store, rfl, hcapacity⟩ (Or.inl hfull)
  · rw [if_neg hfull, or_iff_right hfull]
    have hi : store.numUTXOs.toNat < maxNumUtxos := by
      refine Nat.lt_of_le_of_ne hcapacity fun heq => hfull ?_
      exact UInt32.toNat_inj.mp heq
    have hslot : store.currUTXOs[store.numUTXOs.toNat]? = some store.currUTXOs[store.numUTXOs.toNat] :=
      Vector.getElem?_eq_getElem hi
    have hnext : (store.numUTXOs + 1).toNat ≤ maxNumUtxos := by
      have hone : (1 : UInt32).toNat = 1 := rfl
      rw [UInt32.toNat_add, hone]
      omega
    simp only [hslot, Option.bind_eq_bind, Option.bind_some]
    by_cases htxId : entry.txId.length < txIdSize
    · rw [scanString_eq _ htxId, Option.bind_some, and_iff_right htxId]
      cases entry.vout with
      | none => exact iff_of_true ⟨_, rfl, hcapacity⟩ (by simp)
      | some vout =>
          by_cases hamount : entry.amount.length < maxDogecoinAmountStringLength
          · simp only [scanString_eq _ hamount, Option.bind_some]
            exact iff_of_true ⟨_, rfl, hnext⟩ fun _ => hamount
          · simp only [scanString_eq_none _ hamount, Option.bind_none]
            refine iff_of_false ?_ fun hfits => hamount (hfits rfl)
            rintro ⟨next, hnone, -⟩
            cases hnone
    · rw [scanString_eq_none _ htxId, Option.bind_none]
      refine iff_of_false ?_ fun hfits => htxId hfits.1
      rintro ⟨next, hnone, -⟩
      cases hnone

/-- One step, from a store within its capacity. -/
theorem step_iff (event : StoreEvent) (hcapacity : store.numUTXOs.toNat ≤ maxNumUtxos) :
    (store.ReadsPayload event ∧ ∃ next, store.step coinsToKoinuStr event = some next ∧
        next.numUTXOs.toNat ≤ maxNumUtxos) ↔ store.Accepts event := by
  cases event with
  | received p =>
      rw [readsPayload_received_iff]
      exact and_iff_left_of_imp (step_received p hcapacity)
  | manuallyAdded entry => exact (and_iff_right trivial).trans (step_manuallyAdded_iff entry hcapacity)
  | cleared => exact iff_of_true ⟨trivial, _, rfl, Nat.zero_le _⟩ trivial

/-- A run, from a store within its capacity. -/
theorem staysInside_iff_from (events : List StoreEvent) :
    ∀ store : UtxoStore, store.numUTXOs.toNat ≤ maxNumUtxos →
      (StaysInside coinsToKoinuStr store events ↔ AcceptsAll coinsToKoinuStr store events) := by
  induction events with
  | nil =>
      intro store _
      exact Iff.rfl
  | cons event rest ih =>
      intro store hcapacity
      have hstep := @step_iff coinsToKoinuStr store event hcapacity
      rw [StaysInside, AcceptsAll, ← hstep]
      constructor
      · rintro ⟨hreads, next, hnext, hle, -, hlater⟩
        refine ⟨⟨hreads, next, hnext, hle⟩, fun other hother => ?_⟩
        obtain rfl := Option.some.inj (hnext.symm.trans hother)
        exact (ih _ hle).mp hlater
      · rintro ⟨⟨hreads, next, hnext, hle⟩, hlater⟩
        exact ⟨hreads, next, hnext, hle, loopsInside hle, (ih _ hle).mpr (hlater next hnext)⟩

end Steps

/-- **The capacity of the store.** A run stays inside the store and the received bytes
exactly when every event is acceptable where it happens. -/
theorem staysInside_iff (coinsToKoinuStr : Bytes → UInt64) (events : List StoreEvent) :
    StaysInside coinsToKoinuStr Client.boot.store events ↔
      AcceptsAll coinsToKoinuStr Client.boot.store events :=
  staysInside_iff_from events _ (Nat.zero_le _)

/-- A payload that announces one output more than the store has slots. -/
def announcesSixtyFive : ReceivedPayload where
  buffer := [112, 65, 0, 0, 0] ++ List.replicate 250 0
  payloadSize := 249
  isBuffer := Or.inl (by rw [List.length_append, List.length_replicate]; rfl)
  fits := by
    rw [List.length_append, List.length_replicate]
    decide

/-- A list that announces 65 outputs leaves the store. -/
theorem sixty_five_outputs_leave_the_store :
    ¬ ∀ (coinsToKoinuStr : Bytes → UInt64) (events : List StoreEvent),
      StaysInside coinsToKoinuStr Client.boot.store events := by
  intro hall
  have hinside := hall (fun _ => 0) [.received announcesSixtyFive]
  have haccepts := readsPayload_received_iff.mp hinside.1 (by decide)
  exact absurd haccepts.1 (by decide)

end RadioDoge.Serdog
