/-
# A ring of the latest entries

A ring has room for a fixed number of entries. A new one goes where the write index points, and
the index goes round. A count that stops at the capacity says from where the entries are read.
What is read is always the end of what was written.
-/

import Mathlib.Tactic
import Mathlib.Data.List.DropRight

universe u

/-- The slots of a ring with its write index and the number of slots in use. -/
structure RingLog (α : Type u) (cap : Nat) where
  slots : Vector α cap
  index : Nat
  count : Nat
  index_lt : index < cap
  count_le : count ≤ cap
  /-- Until all slots are in use, they are filled one after the other. -/
  index_eq : count < cap → index = count

namespace RingLog

variable {α : Type u} {cap : Nat}

/-- Nothing is written yet. -/
def empty (hcap : 0 < cap) (filler : α) : RingLog α cap where
  slots := Vector.replicate cap filler
  index := 0
  count := 0
  index_lt := hcap
  count_le := Nat.zero_le cap
  index_eq _ := rfl

/-- A new entry. -/
def push (r : RingLog α cap) (a : α) : RingLog α cap where
  slots := r.slots.set r.index a r.index_lt
  index := (r.index + 1) % cap
  count := if r.count < cap then r.count + 1 else r.count
  index_lt := Nat.mod_lt _ (Nat.zero_lt_of_lt r.index_lt)
  count_le := by
    split
    · assumption
    · exact r.count_le
  index_eq := by
    intro hroom
    split at hroom
    · rename_i hcount
      rw [if_pos hcount, r.index_eq hcount, Nat.mod_eq_of_lt hroom]
    · rename_i hfull
      exact absurd hroom hfull

/-- The slot under a number, counted round the ring. -/
def slotAt (r : RingLog α cap) (i : Nat) : α :=
  r.slots[(⟨i % cap, Nat.mod_lt i (Nat.zero_lt_of_lt r.index_lt)⟩ : Fin cap)]

/-- Where the reader begins. -/
def start (r : RingLog α cap) : Nat := if r.count < cap then 0 else r.index

/-- What is read, the oldest entry first. -/
def read (r : RingLog α cap) : List α :=
  (List.range (min r.count cap)).map fun i => r.slotAt (r.start + i)

/-- Entries written one after the other. -/
def pushAll (r : RingLog α cap) (entries : List α) : RingLog α cap := entries.foldl push r

/-! ## Reading what was written -/

section Reading

variable (r : RingLog α cap) (a : α)

@[simp]
theorem length_read : r.read.length = r.count := by
  rw [read, List.length_map, List.length_range, Nat.min_eq_left r.count_le]

theorem read_empty (hcap : 0 < cap) (filler : α) : (empty hcap filler).read = [] := by
  rw [read, empty, Nat.zero_min]
  rfl

/-- An entry that is read. -/
theorem getElem?_read {i : Nat} (hi : i < r.count) :
    r.read[i]? = some (r.slotAt (r.start + i)) := by
  rw [read, Nat.min_eq_left r.count_le, List.getElem?_map, List.getElem?_range hi]
  rfl

/-- Counting once more round the ring changes nothing. -/
theorem slotAt_congr {i j : Nat} (h : i % cap = j % cap) : r.slotAt i = r.slotAt j := by
  simp only [slotAt, h]

/-- The slot that was written, and all others. -/
theorem slotAt_push (i : Nat) :
    (r.push a).slotAt i = if i % cap = r.index then a else r.slotAt i := by
  simp only [slotAt, push, Fin.getElem_fin, Vector.getElem_set]
  split
  · rename_i hsame
    rw [if_pos hsame.symm]
  · rename_i hother
    rw [if_neg fun hsame => hother hsame.symm]

/-- While there is room, the reader begins at the first slot, and a new entry is the last. -/
theorem read_push_of_lt (hroom : r.count < cap) : (r.push a).read = r.read ++ [a] := by
  have hcount : (r.push a).count = r.count + 1 := if_pos hroom
  have hstart : r.start = 0 := if_pos hroom
  have hstart' : (r.push a).start = 0 := by
    rw [start, hcount]
    split
    · rfl
    · have hlast : r.count + 1 = cap := by omega
      change (r.index + 1) % cap = 0
      rw [r.index_eq hroom, hlast, Nat.mod_self]
  apply List.ext_getElem?
  intro i
  by_cases hi : i < r.count + 1
  · rw [getElem?_read _ (by rw [hcount]; exact hi), slotAt_push, hstart', Nat.zero_add,
      Nat.mod_eq_of_lt (show i < cap by omega), r.index_eq hroom]
    split
    · rename_i hnew
      rw [List.getElem?_append_right (by rw [length_read]; omega), length_read, hnew,
        Nat.sub_self]
      rfl
    · rw [List.getElem?_append_left (by rw [length_read]; omega),
        getElem?_read _ (show i < r.count by omega), hstart, Nat.zero_add]
  · rw [List.getElem?_eq_none (by rw [length_read, hcount]; omega),
      List.getElem?_eq_none (by rw [List.length_append, length_read]; exact Nat.le_of_not_lt hi)]

/-- Once the ring is full, a new entry takes the place of the oldest. -/
theorem read_push_of_full (hfull : r.count = cap) : (r.push a).read = r.read.tail ++ [a] := by
  have hnot : ¬ r.count < cap := hfull.symm ▸ Nat.lt_irrefl cap
  have hcount : (r.push a).count = cap := (if_neg hnot).trans hfull
  have hstart : r.start = r.index := if_neg hnot
  have hstart' : (r.push a).start = (r.index + 1) % cap := by
    rw [start, hcount, if_neg (Nat.lt_irrefl cap)]
    rfl
  have hindex := r.index_lt
  have hlength : r.read.tail.length = cap - 1 := by
    rw [List.length_tail, length_read, hfull]
  apply List.ext_getElem?
  intro i
  by_cases hi : i < cap
  · have hround : ((r.index + 1) % cap + i) % cap = (r.index + (i + 1)) % cap := by
      rw [Nat.mod_add_mod, Nat.add_assoc, Nat.add_comm 1 i]
    rw [getElem?_read _ (by rw [hcount]; exact hi), slotAt_push, hstart', hround]
    by_cases hlast : i + 1 = cap
    · have hself : (r.index + (i + 1)) % cap = r.index := by
        rw [hlast, Nat.add_mod_right, Nat.mod_eq_of_lt hindex]
      rw [if_pos hself, List.getElem?_append_right (by rw [hlength]; omega), hlength,
        show i - (cap - 1) = 0 by omega]
      rfl
    · have hother : (r.index + (i + 1)) % cap ≠ r.index := by
        intro hsame
        have hcases : r.index + (i + 1) < cap ∨ cap ≤ r.index + (i + 1) := Nat.lt_or_ge _ _
        rcases hcases with hbelow | habove
        · rw [Nat.mod_eq_of_lt hbelow] at hsame
          omega
        · rw [Nat.mod_eq_sub_mod habove, Nat.mod_eq_of_lt (by omega)] at hsame
          omega
      rw [if_neg hother, List.getElem?_append_left (by rw [hlength]; omega), List.getElem?_tail,
        getElem?_read _ (show i + 1 < r.count by omega), hstart]
      exact congrArg some (r.slotAt_congr hround)
  · rw [List.getElem?_eq_none (by rw [length_read, hcount]; omega),
      List.getElem?_eq_none (by rw [List.length_append, hlength, List.length_singleton]; omega)]

/-- **One entry.** The ring shows the end of what it showed before and the new entry. -/
theorem read_push : (r.push a).read = (r.read ++ [a]).rtake cap := by
  have hcap := r.count_le
  rw [List.rtake, List.length_append, length_read, List.length_singleton]
  by_cases hroom : r.count < cap
  · rw [read_push_of_lt r a hroom, Nat.sub_eq_zero_of_le hroom, List.drop_zero]
  · have hfull : r.count = cap := Nat.le_antisymm hcap (Nat.le_of_not_lt hroom)
    rw [read_push_of_full r a hfull, hfull, Nat.add_sub_cancel_left, List.drop_one]
    have hnonempty : r.read ≠ [] := by
      intro hnil
      have hlength := congrArg List.length hnil
      rw [length_read, List.length_nil] at hlength
      have hindex := r.index_lt
      omega
    rw [List.tail_append_of_ne_nil hnonempty]

/-- The end of an end with more behind it. -/
theorem rtake_rtake_append (entries more : List α) (n : Nat) :
    (entries.rtake n ++ more).rtake n = (entries ++ more).rtake n := by
  have hmin : min (n - more.length) n = n - more.length := Nat.min_eq_left (Nat.sub_le n _)
  rw [List.rtake_eq_reverse_take_reverse, List.rtake_eq_reverse_take_reverse,
    List.rtake_eq_reverse_take_reverse, List.reverse_append, List.reverse_append,
    List.reverse_reverse, List.take_append, List.take_append, List.take_take,
    List.length_reverse, hmin]

/-- **Any number of entries.** The ring shows the end of what it showed before and all that was
written since. -/
theorem read_pushAll (entries : List α) :
    (r.pushAll entries).read = (r.read ++ entries).rtake cap := by
  induction entries using List.reverseRecOn with
  | nil =>
      have hlength : r.read.length - cap = 0 := by
        rw [length_read]
        exact Nat.sub_eq_zero_of_le r.count_le
      rw [List.append_nil, List.rtake, hlength]
      rfl
  | append_singleton entries a ih =>
      have hlast : r.pushAll (entries ++ [a]) = (r.pushAll entries).push a := by
        rw [pushAll, pushAll, List.foldl_append]
        rfl
      rw [hlast, read_push, ih, rtake_rtake_append, List.append_assoc]

end Reading

end RingLog
