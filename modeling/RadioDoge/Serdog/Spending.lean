/-
# The outputs that serdog spends

`createTransaction` adds outputs from the front of the stored list and leaves the list as
it is. What is received or cleared replaces the list; nothing else does. `spent_once_iff`
says when the transactions of a run share an output.
-/

import RadioDoge.Lib.Depot
import RadioDoge.Serdog.CreateTransaction

namespace RadioDoge.Serdog

open Depot

/-- The store, the state of libdogecoin, and what was added to the transactions for which
`createTransaction` returned true, the last one first. -/
structure Wallet (T : Type) where
  store : UtxoStore
  working : T
  returned : List (List Utxo)

/-- What happens to the store: a list is received, the user clears it, or the user enters
an amount to send. -/
inductive WalletEvent
  | received (payloadIn : Bytes)
  | cleared
  | create (keys : PaymentKeys) (amountToSend : Bytes)

/-- A serdog that has just started. -/
def Wallet.boot {T : Type} (working : T) : Wallet T := ⟨Client.boot.store, working, []⟩

/-- The id and the number of an output. -/
def outpoint (utxo : Utxo) : Bytes × Int32 := (utxo.txId, utxo.vout)

/-- The stored outputs. -/
def Wallet.outpoints {T : Type} (wallet : Wallet T) : List (Bytes × Int32) :=
  wallet.store.held.map outpoint

/-- The outputs of the returned transactions. -/
def Wallet.spent {T : Type} (wallet : Wallet T) : List (List (Bytes × Int32)) :=
  wallet.returned.map fun added => added.map outpoint

section Runs

variable {T : Type} (library : TransactionLibrary T)

/-- One event. -/
def Wallet.step (wallet : Wallet T) : WalletEvent → Option (Wallet T)
  | .received payloadIn =>
      (processReceivedUTXOs payloadIn wallet.store).map fun store => { wallet with store }
  | .cleared => some { wallet with store := { wallet.store with numUTXOs := 0 } }
  | .create keys amountToSend =>
      (createTransaction library keys amountToSend wallet.store wallet.working).map fun created =>
        { wallet with
          working := created.working
          returned :=
            if created.result then created.added :: wallet.returned else wallet.returned }

/-- One event after the other. -/
def Wallet.run (wallet : Wallet T) : List WalletEvent → Option (Wallet T)
  | [] => some wallet
  | event :: rest => do
      let next ← wallet.step library event
      next.run rest

/-- A received list has no output that is in a transaction returned before. -/
def Wallet.Unspent (wallet next : Wallet T) : WalletEvent → Prop
  | .received _ => ∀ order ∈ wallet.spent, order.Disjoint next.outpoints
  | _ => True

/-- No received list has an output that was spent before. -/
def ReceivesUnspent : Wallet T → List WalletEvent → Prop
  | _, [] => True
  | wallet, event :: rest =>
      ∀ next, wallet.step library event = some next →
        wallet.Unspent next event ∧ ReceivesUnspent next rest

/-- The stored list is enough for this amount and the fee, as they are compared. -/
def Wallet.CanPay (wallet : Wallet T) (amountToSend : Bytes) : Prop :=
  ∃ count, Pays wallet.store (library.coinsToKoinuStr amountToSend) count

/-- An amount that the stored list is enough for is entered only where the list has been
replaced. -/
def Wallet.PaysReplaced (wallet : Wallet T) (replaced : Prop) : WalletEvent → Prop
  | .create _ amountToSend => wallet.CanPay library amountToSend → replaced
  | _ => True

/-- Whether the list has been replaced since the last amount that it was enough for. -/
def Wallet.replacedAfter (wallet : Wallet T) (replaced : Prop) : WalletEvent → Prop
  | .received _ => True
  | .cleared => True
  | .create _ amountToSend => replaced ∧ ¬ wallet.CanPay library amountToSend

/-- The list is replaced between any two amounts that it is enough for; `replaced` says
that it was before the first event. -/
def PaysOncePerList : Prop → Wallet T → List WalletEvent → Prop
  | _, _, [] => True
  | replaced, wallet, event :: rest =>
      wallet.PaysReplaced library replaced event ∧
        ∀ next, wallet.step library event = some next →
          PaysOncePerList (wallet.replacedAfter library replaced event) next rest

/-! ## A run as moves of a depot -/

/-- The stored list is a depot, and the returned transactions are the orders. -/
def Wallet.depot (wallet : Wallet T) : Depot (Bytes × Int32) := ⟨wallet.outpoints, wallet.spent⟩

variable {library}

/-- The store stays within its capacity. -/
theorem Wallet.step_le {wallet next : Wallet T} {event : WalletEvent}
    (hle : wallet.store.numUTXOs.toNat ≤ maxNumUtxos)
    (hnext : wallet.step library event = some next) :
    next.store.numUTXOs.toNat ≤ maxNumUtxos := by
  cases event with
  | received payloadIn =>
      obtain ⟨store, hstore, rfl⟩ := Option.map_eq_some_iff.mp hnext
      exact processReceivedUTXOs_le hstore
  | cleared =>
      obtain rfl := Option.some.inj hnext
      exact Nat.zero_le _
  | create keys amountToSend =>
      obtain ⟨created, -, rfl⟩ := Option.map_eq_some_iff.mp hnext
      exact hle

/-- An output that is stored can be added. -/
theorem Wallet.stock_ne_nil {wallet : Wallet T} {amountToSend : Bytes} {count : Nat}
    (hpays : Pays wallet.store (library.coinsToKoinuStr amountToSend) count) :
    wallet.depot.stock ≠ [] := by
  intro hempty
  have hheld : wallet.store.held = [] := List.map_eq_nil_iff.mp hempty
  have hle := hpays.le
  rw [hheld] at hle
  exact absurd (hpays.pos.trans_le hle) (Nat.lt_irrefl 0)

/-- What an amount that is entered does, if no call of the library fails: an order is
filled if the stored list is enough, and otherwise nothing changes. -/
theorem Wallet.step_create (hsucceeds : library.Succeeds)
    (hfee : (library.coinsToKoinuStr feeText).toNat = oneCoinKoinu) {wallet next : Wallet T}
    {keys : PaymentKeys} {amountToSend : Bytes}
    (hle : wallet.store.numUTXOs.toNat ≤ maxNumUtxos)
    (hnext : wallet.step library (.create keys amountToSend) = some next) :
    (wallet.CanPay library amountToSend ∧ ∃ count, 0 < count ∧ wallet.depot.stock ≠ [] ∧
        next.depot = wallet.depot.move (.fill count)) ∨
      (¬ wallet.CanPay library amountToSend ∧ next.depot = wallet.depot) := by
  obtain ⟨created, hcreated, rfl⟩ := Option.map_eq_some_iff.mp hnext
  obtain ⟨created', hcreated', hadded, hresult⟩ := createTransaction_spec library keys amountToSend
    wallet.working hle rfl hfee
  obtain rfl : created' = created := Option.some.inj (hcreated'.symm.trans hcreated)
  by_cases hpay : wallet.CanPay library amountToSend
  · have htrue := hresult hsucceeds hpay
    obtain ⟨count, hpays, hfront⟩ := hadded htrue
    refine Or.inl ⟨hpay, count, hpays.pos, Wallet.stock_ne_nil hpays, ?_⟩
    rw [htrue, hfront]
    simp only [Wallet.depot, Wallet.outpoints, Wallet.spent, Depot.move, List.map_take, if_true,
      List.map_cons]
  · have hfalse : created'.result = false := by
      refine Bool.eq_false_of_not_eq_true fun htrue => hpay ?_
      obtain ⟨count, hpays, -⟩ := hadded htrue
      exact ⟨count, hpays⟩
    refine Or.inr ⟨hpay, ?_⟩
    rw [hfalse]
    rfl

/-- The event that happens decides what comes next. -/
theorem paysOncePerList_cons_iff {wallet next : Wallet T} {event : WalletEvent}
    (hnext : wallet.step library event = some next) {replaced : Prop} {rest : List WalletEvent} :
    PaysOncePerList library replaced wallet (event :: rest) ↔
      wallet.PaysReplaced library replaced event ∧
        PaysOncePerList library (wallet.replacedAfter library replaced event) next rest := by
  rw [PaysOncePerList]
  refine and_congr_right fun _ => ⟨fun hall => hall next hnext, fun hrest other hother => ?_⟩
  obtain rfl := Option.some.inj (hnext.symm.trans hother)
  exact hrest

/-- Every run is a run of allowed moves, and is sparing where the moves are. -/
theorem Wallet.run_moves (hsucceeds : library.Succeeds)
    (hfee : (library.coinsToKoinuStr feeText).toNat = oneCoinKoinu) (events : List WalletEvent) :
    ∀ (wallet final : Wallet T), wallet.store.numUTXOs.toNat ≤ maxNumUtxos →
      wallet.run library events = some final → ReceivesUnspent library wallet events →
        ∃ moves, wallet.depot.AllowsAll moves ∧ wallet.depot.run moves = final.depot ∧
          ∀ replaced, PaysOncePerList library replaced wallet events ↔ Sparing replaced moves := by
  induction events with
  | nil =>
      intro wallet final _ hrun _
      obtain rfl := Option.some.inj hrun
      exact ⟨[], trivial, rfl, fun _ => Iff.rfl⟩
  | cons event rest ih =>
      intro wallet final hle hrun hunspent
      rw [Wallet.run, Option.bind_eq_bind, Option.bind_eq_some_iff] at hrun
      obtain ⟨next, hnext, hrun⟩ := hrun
      obtain ⟨hfresh, hlater⟩ := hunspent next hnext
      obtain ⟨moves, hallows, hmoves, hsparing⟩ := ih next final (Wallet.step_le hle hnext) hrun hlater
      cases event with
      | received payloadIn =>
          obtain ⟨store, hstore, rfl⟩ := Option.map_eq_some_iff.mp hnext
          refine ⟨.restock (Wallet.outpoints ⟨store, wallet.working, wallet.returned⟩) :: moves,
            ⟨hfresh, hallows⟩, hmoves, fun replaced => ?_⟩
          rw [paysOncePerList_cons_iff hnext]
          exact (and_iff_right trivial).trans (hsparing True)
      | cleared =>
          obtain rfl := Option.some.inj hnext
          refine ⟨.restock [] :: moves, ⟨fun order _ => List.disjoint_nil_right order, hallows⟩,
            hmoves, fun replaced => ?_⟩
          rw [paysOncePerList_cons_iff hnext]
          exact (and_iff_right trivial).trans (hsparing True)
      | create keys amountToSend =>
          rcases Wallet.step_create hsucceeds hfee hle hnext with
            ⟨hpay, count, hpos, hstock, hdepot⟩ | ⟨hnot, hdepot⟩
          · rw [hdepot] at hallows hmoves
            refine ⟨.fill count :: moves, ⟨⟨hpos, hstock⟩, hallows⟩, hmoves, fun replaced => ?_⟩
            rw [paysOncePerList_cons_iff hnext, Sparing, ← hsparing False]
            simp only [Wallet.PaysReplaced, Wallet.replacedAfter, hpay, true_implies,
              not_true_eq_false, and_false]
          · rw [hdepot] at hallows hmoves
            refine ⟨moves, hallows, hmoves, fun replaced => ?_⟩
            rw [paysOncePerList_cons_iff hnext, ← hsparing replaced]
            simp only [Wallet.PaysReplaced, Wallet.replacedAfter, hnot, false_implies, true_and,
              not_false_eq_true, and_true]

/-- Before the first event nothing is stored and nothing is spent. -/
theorem Wallet.tracks_boot (working : T) : Tracks True (Wallet.boot working).depot where
  untouched _ order hmem := by cases hmem
  touched hnot := absurd trivial hnot

end Runs

/-- **Outputs are spent once.** If no call of the library fails, and no received list
brings back what was spent, then the transactions of a run share no output exactly when
every amount that the store can pay is entered after the list was replaced. -/
theorem spent_once_iff {T : Type} (library : TransactionLibrary T) (hsucceeds : library.Succeeds)
    (hfee : (library.coinsToKoinuStr feeText).toNat = oneCoinKoinu) (working : T)
    (events : List WalletEvent) {final : Wallet T}
    (hunspent : ReceivesUnspent library (.boot working) events)
    (hrun : (Wallet.boot working).run library events = some final) :
    final.spent.Pairwise List.Disjoint ↔
      PaysOncePerList library True (.boot working) events := by
  obtain ⟨moves, hallows, hmoves, hsparing⟩ := Wallet.run_moves hsucceeds hfee events
    (.boot working) final (Nat.zero_le _) hrun hunspent
  have hdepot := pairwise_run_iff moves True _ (Wallet.tracks_boot working) hallows
  rw [hmoves] at hdepot
  rw [hsparing True]
  exact hdepot.trans (and_iff_right List.Pairwise.nil)

/-- A list of one output of two coins. -/
def twoCoinList : Bytes :=
  [1, 0, 0, 0] ++ [0, 0, 0, 0] ++ List.replicate 64 97 ++ [0, 194, 235, 11, 0, 0, 0, 0]

/-- The list is received, and one coin is sent twice. -/
def sendsTwice : List WalletEvent :=
  [.received twoCoinList, .create noKeys feeText, .create noKeys feeText]

/-- Nothing was spent before the only list. -/
theorem receivesUnspent_sendsTwice (library : TransactionLibrary Unit) :
    ReceivesUnspent library (.boot ()) sendsTwice := by
  intro received _
  refine ⟨fun order hmem => (List.not_mem_nil hmem).elim, fun paid _ => ⟨trivial, ?_⟩⟩
  exact fun again _ => ⟨trivial, trivial⟩

/-- Both transactions have the output. -/
theorem run_sendsTwice :
    ((Wallet.boot ()).run (obligingTransactions 100000000) sendsTwice).map Wallet.spent =
      some (List.replicate 2 [(List.replicate 64 97, 0)]) := by
  decide +kernel

/-- The list is received, and one coin is sent twice. -/
theorem spent_once_iff_sends_twice :
    ∃ final : Wallet Unit,
      (Wallet.boot ()).run (obligingTransactions 100000000) sendsTwice = some final ∧
        (final.spent.Pairwise List.Disjoint ↔
          PaysOncePerList (obligingTransactions 100000000) True (.boot ()) sendsTwice) := by
  obtain ⟨final, hfinal, -⟩ := Option.map_eq_some_iff.mp run_sendsTwice
  exact ⟨final, hfinal, spent_once_iff (obligingTransactions 100000000)
    (obligingTransactions_succeeds 100000000) rfl () sendsTwice
    (receivesUnspent_sendsTwice _) hfinal⟩

/-- The output that is received is in both transactions. -/
theorem output_spent_twice :
    ¬ ∀ (T : Type) (library : TransactionLibrary T), library.Succeeds →
      (library.coinsToKoinuStr feeText).toNat = oneCoinKoinu →
      ∀ (working : T) (events : List WalletEvent) (final : Wallet T),
        ReceivesUnspent library (.boot working) events →
        (Wallet.boot working).run library events = some final →
          final.spent.Pairwise List.Disjoint := by
  intro hall
  obtain ⟨final, hfinal, hspent⟩ := Option.map_eq_some_iff.mp run_sendsTwice
  have hpairwise := hall Unit (obligingTransactions 100000000) (obligingTransactions_succeeds _) rfl
    () sendsTwice final (receivesUnspent_sendsTwice _) hfinal
  rw [hspent] at hpairwise
  have hdisjoint := (List.pairwise_cons.mp hpairwise).1 _ List.mem_cons_self
  exact hdisjoint List.mem_cons_self List.mem_cons_self

end RadioDoge.Serdog
