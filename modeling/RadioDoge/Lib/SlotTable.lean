/-
# Fixed tables with a live prefix

A slot table is an array of fixed capacity together with a counter: the slots
below the counter are live, the ones above it hold whatever was left there. An
entry is opened in the first dead slot, and removed by shifting the later live
slots down by one, so every later entry changes its index.

The list `live` forgets the dead slots. Each operation is characterised by its
effect on that list, and nothing else about the array is ever needed: opening
appends, removal is `List.eraseIdx`, and the backward sweep that removes every
entry satisfying a test is `List.filter`.
-/

import Mathlib.Tactic

universe u

/-- An array of `cap` slots of which the first `count` are live. -/
structure SlotTable (α : Type u) (cap : Nat) where
  /-- The array, dead slots included. -/
  slots : Vector α cap
  /-- The number of live slots. -/
  count : Nat
  /-- The live slots fit in the array. -/
  count_le : count ≤ cap

namespace SlotTable

variable {α : Type u} {cap : Nat}

/-- The live entries, in slot order. -/
def live (t : SlotTable α cap) : List α := t.slots.toList.take t.count

@[simp]
theorem length_live (t : SlotTable α cap) : t.live.length = t.count := by
  simp [live, t.count_le]

theorem getElem?_live (t : SlotTable α cap) (i : Nat) :
    t.live[i]? = if i < t.count then t.slots[i]? else none := by
  simp [live, List.getElem?_take]

theorem getElem?_live_of_lt (t : SlotTable α cap) {i : Nat} (hi : i < t.count) :
    t.live[i]? = t.slots[i]? := by
  rw [getElem?_live, if_pos hi]

theorem live_eq_nil_iff (t : SlotTable α cap) : t.live = [] ↔ t.count = 0 := by
  rw [← List.length_eq_zero_iff, length_live]

/-- A table in which nothing is live. -/
def empty (slots : Vector α cap) : SlotTable α cap := ⟨slots, 0, Nat.zero_le cap⟩

@[simp]
theorem live_empty (slots : Vector α cap) : (empty slots).live = [] := by
  simp [empty, live]

/-! ## Opening and rewriting an entry -/

/-- Make the first dead slot live, after rewriting what was left in it. -/
def openSlot (t : SlotTable α cap) (room : t.count < cap) (reuse : α → α) :
    SlotTable α cap where
  slots := t.slots.set t.count (reuse t.slots[t.count])
  count := t.count + 1
  count_le := room

/-- Opening a slot appends the rewritten stale entry. -/
theorem live_openSlot (t : SlotTable α cap) (room : t.count < cap) (reuse : α → α) :
    (t.openSlot room reuse).live = t.live ++ [reuse t.slots[t.count]] := by
  apply List.ext_getElem?
  intro i
  rw [getElem?_live, List.getElem?_append, length_live]
  rcases Nat.lt_trichotomy i t.count with hlt | rfl | hgt
  · have hne : t.count ≠ i := by omega
    rw [if_pos hlt, getElem?_live_of_lt t hlt]
    simp [openSlot, hne, Nat.lt_succ_of_lt hlt]
  · simp [openSlot, room]
  · have hnot : ¬ i < t.count + 1 := by omega
    have hsub : i - t.count ≠ 0 := by omega
    simp [openSlot, hnot, Nat.lt_asymm hgt, hsub]

/-- Overwrite one slot. -/
def store (t : SlotTable α cap) (i : Nat) (entry : α) : SlotTable α cap where
  slots := t.slots.setIfInBounds i entry
  count := t.count
  count_le := t.count_le

/-- Overwriting a slot overwrites that entry of the live list. -/
theorem live_store (t : SlotTable α cap) (i : Nat) (entry : α) :
    (t.store i entry).live = t.live.set i entry := by
  apply List.ext_getElem?
  intro j
  simp only [store, getElem?_live, List.getElem?_set, length_live,
    Vector.getElem?_setIfInBounds]
  by_cases hj : j < t.count
  · have hcap : j < cap := Nat.lt_of_lt_of_le hj t.count_le
    by_cases hij : i = j
    · subst hij
      simp [hj, hcap]
    · simp [hj, hij]
  · by_cases hij : i = j
    · subst hij
      simp [hj]
    · simp [hj, hij]

/-! ## Removal by shifting -/

/-- `for (j = i; j < i + n; j++) a[j] = a[j + 1]`. -/
def shiftDown (a : Vector α cap) (i : Nat) : Nat → Vector α cap
  | 0 => a
  | n + 1 =>
      let before := shiftDown a i n
      if h : i + n + 1 < cap then before.setIfInBounds (i + n) before[i + n + 1] else before

/-- After `n` turns the `n` slots from `i` on hold their right neighbours. -/
theorem getElem?_shiftDown (a : Vector α cap) (i : Nat) :
    ∀ (n : Nat), i + n < cap → ∀ j,
      (shiftDown a i n)[j]? = if i ≤ j ∧ j < i + n then a[j + 1]? else a[j]? := by
  intro n
  induction n with
  | zero =>
      intro _ j
      have hnot : ¬ (i ≤ j ∧ j < i + 0) := by omega
      rw [if_neg hnot]
      rfl
  | succ n ih =>
      intro hcap j
      have hprev := ih (by omega)
      have hlast : i + n + 1 < cap := by omega
      have hread : (shiftDown a i n)[i + n + 1] = a[i + n + 1] := by
        have hnot : ¬ (i ≤ i + n + 1 ∧ i + n + 1 < i + n) := by omega
        have h := hprev (i + n + 1)
        rw [if_neg hnot, Vector.getElem?_eq_getElem hlast,
          Vector.getElem?_eq_getElem hlast] at h
        exact Option.some.inj h
      simp only [shiftDown, dif_pos hlast, hread, Vector.getElem?_setIfInBounds, hprev]
      by_cases hj : i + n = j
      · subst hj
        have hin : i ≤ i + n ∧ i + n < i + (n + 1) := by omega
        have hlt : i + n < cap := by omega
        rw [if_pos rfl, if_pos hlt, if_pos hin, Vector.getElem?_eq_getElem hlast]
      · have hiff : (i ≤ j ∧ j < i + (n + 1)) ↔ (i ≤ j ∧ j < i + n) := by omega
        simp only [if_neg hj, hiff]

/-- Remove the entry of slot `i`, if it is live: shift the later live entries
down by one and lower the counter. -/
def removeAt (t : SlotTable α cap) (i : Nat) : SlotTable α cap :=
  if i < t.count then
    { slots := shiftDown t.slots i (t.count - 1 - i)
      count := t.count - 1
      count_le := Nat.le_trans (Nat.sub_le t.count 1) t.count_le }
  else t

theorem count_removeAt_of_lt (t : SlotTable α cap) {i : Nat} (hi : i < t.count) :
    (t.removeAt i).count = t.count - 1 := by
  rw [removeAt, if_pos hi]

/-- Removal by shifting erases one entry of the live list. -/
theorem live_removeAt (t : SlotTable α cap) (i : Nat) :
    (t.removeAt i).live = t.live.eraseIdx i := by
  by_cases hi : i < t.count
  · apply List.ext_getElem?
    intro j
    have hcap := t.count_le
    have hbound : i + (t.count - 1 - i) < cap := by omega
    rw [removeAt, if_pos hi, List.getElem?_eraseIdx]
    simp only [getElem?_live, getElem?_shiftDown t.slots i _ hbound]
    by_cases hj : j < t.count - 1
    · by_cases hij : j < i
      · have hnot : ¬ (i ≤ j ∧ j < i + (t.count - 1 - i)) := by omega
        have hlt : j < t.count := by omega
        simp only [if_pos hj, if_neg hnot, if_pos hij, if_pos hlt]
      · have hin : i ≤ j ∧ j < i + (t.count - 1 - i) := by omega
        have hlt : j + 1 < t.count := by omega
        simp only [if_pos hj, if_pos hin, if_neg hij, if_pos hlt]
    · have hij : ¬ j < i := by omega
      have hlt : ¬ j + 1 < t.count := by omega
      simp only [if_neg hj, if_neg hij, if_neg hlt]
  · have hlen : t.live.length ≤ i := by simpa using Nat.le_of_not_lt hi
    rw [removeAt, if_neg hi, List.eraseIdx_of_length_le hlen]

/-! ## The backward sweep -/

/-- `for (i = n - 1; i >= 0; i--) if (test(a[i])) removeAt(i)`. -/
def sweepFrom (test : α → Bool) : Nat → SlotTable α cap → SlotTable α cap
  | 0, t => t
  | i + 1, t =>
      sweepFrom test i <|
        match t.slots[i]? with
        | some entry => if test entry then t.removeAt i else t
        | none => t

/-- Remove every live entry that satisfies the test, from the last slot to the
first. -/
def sweep (test : α → Bool) (t : SlotTable α cap) : SlotTable α cap :=
  sweepFrom test t.count t

/-- The sweep below index `n` filters the first `n` live entries and keeps the
later ones. -/
theorem live_sweepFrom (test : α → Bool) :
    ∀ (n : Nat) (t : SlotTable α cap), n ≤ t.count →
      (sweepFrom test n t).live =
        (t.live.take n).filter (fun entry => !test entry) ++ t.live.drop n := by
  intro n
  induction n with
  | zero => intro t _; simp [sweepFrom]
  | succ n ih =>
      intro t hn
      have hlive : n < t.live.length := by rwa [length_live]
      have hfirst : (t.live.take n).length = n := by simp [Nat.le_of_lt hn]
      have hslot : t.slots[n]? = some t.live[n] := by
        rw [← getElem?_live_of_lt t hn, List.getElem?_eq_getElem hlive]
      have hsplit : t.live.drop n = t.live[n] :: t.live.drop (n + 1) :=
        List.drop_eq_getElem_cons hlive
      have htake : t.live.take (n + 1) = t.live.take n ++ [t.live[n]] := by simp
      rw [sweepFrom, hslot]
      simp only [htake, List.filter_append]
      cases htest : test t.live[n] with
      | true =>
          have hcount : n ≤ (t.removeAt n).count := by
            rw [count_removeAt_of_lt t hn]
            omega
          rw [if_pos rfl, ih _ hcount, live_removeAt, List.eraseIdx_eq_take_drop_succ,
            List.take_left' hfirst, List.drop_left' hfirst]
          simp [htest]
      | false =>
          rw [if_neg Bool.false_ne_true, ih t (by omega), hsplit]
          simp [htest]

/-- The backward sweep is a stable filter of the live entries. -/
theorem live_sweep (test : α → Bool) (t : SlotTable α cap) :
    (t.sweep test).live = t.live.filter fun entry => !test entry := by
  have hall : t.live.take t.count = t.live := List.take_of_length_le (by simp)
  have hnone : t.live.drop t.count = [] := List.drop_of_length_le (by simp)
  rw [sweep, live_sweepFrom test t.count t (Nat.le_refl _), hall, hnone, List.append_nil]

end SlotTable
