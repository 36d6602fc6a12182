/-
# A depot that is restocked

An order is filled with goods from the front of a depot, and the goods stay there; only
restocking replaces them. If no restocking brings back what an order held before, then
two orders share goods exactly when two of them were filled from the same stock.
-/

import Mathlib.Tactic

universe u

/-- The goods in a depot, and the orders that were filled from it, the last one first. -/
structure Depot (α : Type u) where
  stock : List α
  orders : List (List α)

namespace Depot

/-- What happens to a depot. -/
inductive Move (α : Type u)
  | restock (goods : List α)
  | fill (count : Nat)

variable {α : Type u}

/-- An order takes a front of the stock, which stays where it is. -/
def move (depot : Depot α) : Move α → Depot α
  | .restock goods => { depot with stock := goods }
  | .fill count => { depot with orders := depot.stock.take count :: depot.orders }

/-- One move after the other. -/
def run (depot : Depot α) : List (Move α) → Depot α
  | [] => depot
  | move :: rest => (depot.move move).run rest

/-- Restocking brings nothing that was in an order, and an order is not empty. -/
def Allows (depot : Depot α) : Move α → Prop
  | .restock goods => ∀ order ∈ depot.orders, order.Disjoint goods
  | .fill count => 0 < count ∧ depot.stock ≠ []

/-- Every move is allowed where it is made. -/
def AllowsAll (depot : Depot α) : List (Move α) → Prop
  | [] => True
  | move :: rest => depot.Allows move ∧ (depot.move move).AllowsAll rest

/-- No two orders are filled from one stock; `full` says that nothing has been filled
from the stock before the first move. -/
def Sparing : Prop → List (Move α) → Prop
  | _, [] => True
  | _, .restock _ :: rest => Sparing True rest
  | full, .fill _ :: rest => full ∧ Sparing False rest

/-- While a stock is untouched no order shares goods with it; afterwards one order has
its first piece. -/
structure Tracks (full : Prop) (depot : Depot α) : Prop where
  untouched : full → ∀ order ∈ depot.orders, order.Disjoint depot.stock
  touched : ¬ full → ∀ goods, depot.stock.head? = some goods → ∃ order ∈ depot.orders, goods ∈ order

/-- The first piece of a stock is in whatever is filled from it. -/
theorem head_mem_take {stock : List α} {goods : α} (hhead : stock.head? = some goods) {count : Nat}
    (hpos : 0 < count) : goods ∈ stock.take count := by
  obtain ⟨rest, rfl⟩ : ∃ rest, stock = goods :: rest := by
    cases stock with
    | nil => cases hhead
    | cons first rest => exact ⟨rest, by rw [Option.some.inj hhead]⟩
  obtain ⟨before, rfl⟩ := Nat.exists_eq_add_of_lt hpos
  rw [Nat.zero_add, List.take_succ_cons]
  exact List.mem_cons_self

section Moves

variable {full : Prop} {depot : Depot α}

/-- Restocking. -/
theorem tracks_restock {goods : List α} (hallows : depot.Allows (.restock goods)) :
    Tracks True (depot.move (.restock goods)) where
  untouched _ := hallows
  touched hnot := absurd trivial hnot

/-- Filling an order. -/
theorem tracks_fill {count : Nat} (hallows : depot.Allows (.fill count)) :
    Tracks False (depot.move (.fill count)) where
  untouched hfull := hfull.elim
  touched _ _ hhead :=
    ⟨depot.stock.take count, List.mem_cons_self, head_mem_take hhead hallows.1⟩

/-- Another order shares no goods exactly when the stock was untouched. -/
theorem pairwise_fill_iff (htracks : Tracks full depot) {count : Nat}
    (hallows : depot.Allows (.fill count)) :
    (depot.move (.fill count)).orders.Pairwise List.Disjoint ↔
      full ∧ depot.orders.Pairwise List.Disjoint := by
  rw [move, List.pairwise_cons]
  constructor
  · rintro ⟨hnew, hold⟩
    refine ⟨?_, hold⟩
    by_contra hnot
    obtain ⟨goods, hhead⟩ := Option.isSome_iff_exists.mp (List.isSome_head?.mpr hallows.2)
    obtain ⟨order, hmem, hgoods⟩ := htracks.touched hnot goods hhead
    exact hnew order hmem (head_mem_take hhead hallows.1) hgoods
  · rintro ⟨hfull, hold⟩
    refine ⟨fun order hmem goods hnew hgoods => ?_, hold⟩
    exact htracks.untouched hfull order hmem hgoods (List.mem_of_mem_take hnew)

end Moves

/-- **Orders share nothing** after a run of allowed moves exactly when they shared nothing
before, and no two are filled from one stock. -/
theorem pairwise_run_iff (moves : List (Move α)) :
    ∀ (full : Prop) (depot : Depot α), Tracks full depot → depot.AllowsAll moves →
      ((depot.run moves).orders.Pairwise List.Disjoint ↔
        depot.orders.Pairwise List.Disjoint ∧ Sparing full moves) := by
  induction moves with
  | nil =>
      intro full depot _ _
      exact (and_iff_left trivial).symm
  | cons move rest ih =>
      rintro full depot htracks ⟨hallows, hrest⟩
      cases move with
      | restock goods => exact ih True _ (tracks_restock hallows) hrest
      | fill count =>
          rw [run, ih False _ (tracks_fill hallows) hrest, pairwise_fill_iff htracks hallows,
            Sparing]
          exact ⟨fun ⟨⟨hfull, hold⟩, hsparing⟩ => ⟨hold, hfull, hsparing⟩,
            fun ⟨hold, hfull, hsparing⟩ => ⟨⟨hfull, hold⟩, hsparing⟩⟩

end Depot
