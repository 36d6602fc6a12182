/-
# Reading what was written

A reader takes a value off the front of a list of bytes and hands on what stands behind it. It
undoes a writer at a value if it takes off exactly what was written for the value, whatever
follows. Readers that are put together undo writers that are put together.
-/

import RadioDoge.Lib.LittleEndian

universe u v

namespace Wire

open LittleEndian

/-- A reader: the value, and what stands behind it. -/
abbrev Reader (α : Type u) : Type u := List UInt8 → Option (α × List UInt8)

variable {α : Type u} {β : Type v}

/-- The reader takes off what was written for the value. -/
def Undoes (read : Reader α) (write : α → List UInt8) (a : α) : Prop :=
  ∀ rest, read (write a ++ rest) = some (a, rest)

/-- So many bytes. -/
def takeBytes (count : Nat) : Reader (List UInt8) := fun bytes =>
  if bytes.length < count then none else some (bytes.take count, bytes.drop count)

/-- A number in so many bytes, the lowest first. -/
def takeNumber (count : Nat) : Reader Nat := fun bytes =>
  (takeBytes count bytes).map fun taken => (ofBytes taken.1, taken.2)

/-- So many values. -/
def readMany (read : Reader α) : Nat → Reader (List α)
  | 0, bytes => some ([], bytes)
  | count + 1, bytes =>
      match read bytes with
      | none => none
      | some (a, bytes) =>
          match readMany read count bytes with
          | none => none
          | some (as, bytes) => some (a :: as, bytes)

/-! ## Bytes and numbers -/

theorem takeBytes_append (taken rest : List UInt8) :
    takeBytes taken.length (taken ++ rest) = some (taken, rest) := by
  rw [takeBytes, if_neg (by rw [List.length_append]; omega), List.take_left, List.drop_left]

/-- A number that fits is read back. -/
theorem takeNumber_append {count n : Nat} (hfits : n < 256 ^ count) (rest : List UInt8) :
    takeNumber count (toBytes count n ++ rest) = some (n, rest) := by
  have htake := takeBytes_append (toBytes count n) rest
  rw [length_toBytes] at htake
  rw [takeNumber, htake, Option.map_some, ofBytes_toBytes_of_lt hfits]

/-! ## Lists -/

/-- Values that are written one after the other are read back. -/
theorem readMany_flatMap {read : Reader α} {write : α → List UInt8} {as : List α}
    (h : ∀ a ∈ as, Undoes read write a) (rest : List UInt8) :
    readMany read as.length (as.flatMap write ++ rest) = some (as, rest) := by
  induction as with
  | nil => rfl
  | cons a as ih =>
      have hfirst := h a List.mem_cons_self (as.flatMap write ++ rest)
      have hbehind := ih fun other hmem => h other (List.mem_cons_of_mem a hmem)
      rw [List.flatMap_cons, List.append_assoc, List.length_cons, readMany, hfirst]
      simp only [hbehind]

/-- As many values are read as are asked for. -/
theorem length_of_readMany {read : Reader α} {count : Nat} {bytes rest : List UInt8}
    {as : List α} (hread : readMany read count bytes = some (as, rest)) : as.length = count := by
  induction count generalizing bytes as with
  | zero =>
      rw [readMany] at hread
      rcases Prod.mk.inj (Option.some.inj hread) with ⟨rfl, -⟩
      rfl
  | succ count ih =>
      rw [readMany] at hread
      split at hread
      · cases hread
      · split at hread
        · cases hread
        · next hbehind =>
            rcases Prod.mk.inj (Option.some.inj hread) with ⟨rfl, rfl⟩
            rw [List.length_cons, ih hbehind]

/-- What holds of every value that the reader gives holds of all that are read. -/
theorem forall_of_readMany {read : Reader α} {P : α → Prop}
    (h : ∀ bytes a rest, read bytes = some (a, rest) → P a) {count : Nat}
    {bytes rest : List UInt8} {as : List α} (hread : readMany read count bytes = some (as, rest)) :
    ∀ a ∈ as, P a := by
  induction count generalizing bytes as with
  | zero =>
      rw [readMany] at hread
      rcases Prod.mk.inj (Option.some.inj hread) with ⟨rfl, -⟩
      exact fun a hmem => absurd hmem List.not_mem_nil
  | succ count ih =>
      rw [readMany] at hread
      split at hread
      · cases hread
      · next first bytes hfirst =>
          split at hread
          · cases hread
          · next hbehind =>
              rcases Prod.mk.inj (Option.some.inj hread) with ⟨rfl, rfl⟩
              intro a hmem
              rcases List.mem_cons.mp hmem with heq | hlater
              · rw [heq]
                exact h _ _ _ hfirst
              · exact ih hbehind a hlater

/-! ## What undoing gives -/

/-- Values that are written alike are the same. -/
theorem Undoes.inj {read : Reader α} {write : α → List UInt8} {a b : α}
    (ha : Undoes read write a) (hb : Undoes read write b) (h : write a = write b) : a = b := by
  have hread := ha []
  rw [h, hb []] at hread
  exact (congrArg Prod.fst (Option.some.inj hread)).symm

end Wire
