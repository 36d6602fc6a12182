/-
# Logs of caused entries

A log is a list of entries, each of which is a root or a reaction to another entry,
named by its position. A chain goes from a root to a reaction, to a reaction to that,
and so on; its length is the number of reactions. How long chains can be is bounded
with levels: if every root is at level zero and every reaction is one level above
whatever it reacts to, then the end of a chain of length `k` is at level `k`, so no
chain is longer than the highest level.
-/

import Mathlib.Tactic

universe u

/-- An entry, and the position of the one it is a reaction to. -/
structure Caused (α : Type u) where
  item : α
  cause : Option Nat

namespace CausalLog

variable {α : Type u}

/-- A chain of `k` reactions ends at position `i` of the log. -/
inductive Chain (log : List (Caused α)) : Nat → Nat → Prop
  | root {i : Nat} {item : α} : log[i]? = some ⟨item, none⟩ → Chain log 0 i
  | reaction {k i j : Nat} {item : α} :
      Chain log k i → log[j]? = some ⟨item, some i⟩ → Chain log (k + 1) j

/-- Roots are at level zero, reactions one level above what they react to. -/
structure Graded (Level : Nat → α → Prop) (log : List (Caused α)) : Prop where
  root : ∀ (i : Nat) (item : α), log[i]? = some ⟨item, none⟩ → Level 0 item
  reaction : ∀ (j : Nat) (item : α) (i : Nat), log[j]? = some ⟨item, some i⟩ →
    ∃ entry, log[i]? = some entry ∧ ∀ k, Level k entry.item → Level (k + 1) item

/-- What was there stays there. -/
theorem getElem?_append_of_some {log : List (Caused α)} {i : Nat} {entry : Caused α}
    (h : log[i]? = some entry) (later : List (Caused α)) : (log ++ later)[i]? = some entry := by
  rw [List.getElem?_append_left (List.getElem?_eq_some_iff.mp h).1, h]

/-- An entry of a log with one more was there before, or is the new one. -/
theorem getElem?_concat_cases {log : List (Caused α)} {i : Nat} {last entry : Caused α}
    (h : (log ++ [last])[i]? = some entry) : log[i]? = some entry ∨ entry = last := by
  by_cases hi : i < log.length
  · rw [List.getElem?_append_left hi] at h
    exact .inl h
  · rw [List.getElem?_append_right (Nat.le_of_not_lt hi)] at h
    exact .inr (List.mem_singleton.mp (List.mem_of_getElem? h))

/-- Chains stay when the log grows. -/
theorem Chain.append {log : List (Caused α)} {k i : Nat} (h : Chain log k i)
    (later : List (Caused α)) : Chain (log ++ later) k i := by
  induction h with
  | root hroot => exact .root (getElem?_append_of_some hroot later)
  | reaction _ hreaction ih => exact .reaction ih (getElem?_append_of_some hreaction later)

/-- A reaction to the end of a chain makes it longer by one. -/
theorem Chain.concat {log : List (Caused α)} {k i : Nat} (h : Chain log k i) (item : α) :
    Chain (log ++ [⟨item, some i⟩]) (k + 1) log.length :=
  .reaction (h.append _) List.getElem?_concat_length

/-- Entry `j` is a reaction to entry `i`. -/
def ReactsTo (log : List (Caused α)) (i j : Nat) : Prop :=
  ∃ item, log[j]? = some ⟨item, some i⟩

/-- Every reaction is one to an entry of the log. -/
def Grounded (log : List (Caused α)) : Prop :=
  ∀ i j, ReactsTo log i j → i < log.length

theorem Grounded.singleton (item : α) : Grounded [⟨item, none⟩] := by
  rintro i j ⟨other, hother⟩
  have heq := List.mem_singleton.mp (List.mem_of_getElem? hother)
  cases (Caused.mk.inj heq).2

/-- A reaction in a log with one more was there before, or is the new one. -/
theorem ReactsTo.concat_cases {log : List (Caused α)} {i j cause : Nat} {item : α}
    (h : ReactsTo (log ++ [⟨item, some cause⟩]) i j) : ReactsTo log i j ∨ i = cause := by
  obtain ⟨other, hother⟩ := h
  rcases getElem?_concat_cases hother with hold | hnew
  · exact Or.inl ⟨other, hold⟩
  · exact Or.inr (Option.some.inj (Caused.mk.inj hnew).2)

/-- One more reaction to an entry of the log. -/
theorem Grounded.concat {log : List (Caused α)} (h : Grounded log) {cause : Nat}
    (hcause : cause < log.length) (item : α) : Grounded (log ++ [⟨item, some cause⟩]) := by
  intro i j hreacts
  rw [List.length_append, List.length_singleton]
  rcases hreacts.concat_cases with hold | rfl
  · exact Nat.lt_succ_of_lt (h i j hold)
  · exact Nat.lt_succ_of_lt hcause

/-- Where nothing reacts to an entry, nothing comes of it. -/
theorem not_follows {log : List (Caused α)} {i : Nat} (h : ∀ j, ¬ ReactsTo log i j) (j : Nat) :
    ¬ Relation.TransGen (ReactsTo log) i j := by
  intro hfollows
  obtain ⟨first, hfirst, -⟩ := Relation.TransGen.head'_iff.mp hfollows
  exact h first hfirst

namespace Graded

variable {Level : Nat → α → Prop} {log : List (Caused α)}

/-- A log of one root. -/
theorem singleton {item : α} (h : Level 0 item) : Graded Level [⟨item, none⟩] where
  root := fun i other hother => by
    have heq := List.mem_singleton.mp (List.mem_of_getElem? hother)
    rwa [(Caused.mk.inj heq).1]
  reaction := fun j other i hother => by
    have heq := List.mem_singleton.mp (List.mem_of_getElem? hother)
    cases (Caused.mk.inj heq).2

/-- One more reaction. -/
theorem concat (h : Graded Level log) {i : Nat} {entry : Caused α} (hentry : log[i]? = some entry)
    {item : α} (hitem : ∀ k, Level k entry.item → Level (k + 1) item) :
    Graded Level (log ++ [⟨item, some i⟩]) where
  root := fun j other hother => by
    cases getElem?_concat_cases hother with
    | inl hold => exact h.root j other hold
    | inr hnew => cases (Caused.mk.inj hnew).2
  reaction := fun j other cause hother => by
    cases getElem?_concat_cases hother with
    | inl hold =>
        obtain ⟨earlier, hearlier, hlevel⟩ := h.reaction j other cause hold
        exact ⟨earlier, getElem?_append_of_some hearlier _, hlevel⟩
    | inr hnew =>
        obtain ⟨rfl, hcause⟩ := Caused.mk.inj hnew
        obtain rfl := Option.some.inj hcause
        exact ⟨entry, getElem?_append_of_some hentry _, hitem⟩

/-- The end of a chain of length `k` is at level `k`. -/
theorem level (h : Graded Level log) {k i : Nat} (hchain : Chain log k i) :
    ∃ entry, log[i]? = some entry ∧ Level k entry.item := by
  induction hchain with
  | root hroot => exact ⟨_, hroot, h.root _ _ hroot⟩
  | @reaction k i j item _ hreaction ih =>
      obtain ⟨entry, hentry, hlevel⟩ := ih
      obtain ⟨cause, hcause, hstep⟩ := h.reaction j item i hreaction
      obtain rfl := Option.some.inj (hcause.symm.trans hentry)
      exact ⟨_, hreaction, hstep k hlevel⟩

/-- Chains are no longer than the highest level. -/
theorem chain_le (h : Graded Level log) {bound : Nat}
    (hbound : ∀ k item, Level k item → k ≤ bound) {k i : Nat} (hchain : Chain log k i) :
    k ≤ bound := by
  obtain ⟨entry, -, hlevel⟩ := h.level hchain
  exact hbound k entry.item hlevel

end Graded

end CausalLog
