/-
# The ledger of a queue

Entries join a queue at its end, are served at its head, or are dropped from
anywhere in it. The ledger records what happened. `Balanced` says that the ledger
and the queue agree: what was served, followed by what is still waiting, is a
subsequence of what joined, in the order of joining, and every entry that joined
was served, was dropped or is still waiting, once.
-/

import Mathlib.Tactic
import Mathlib.Data.List.Perm.Basic

universe u v

namespace Ledger

/-- One line of a ledger. A drop is recorded with its reason. -/
inductive Entry (α : Type u) (τ : Type v)
  | joined (a : α)
  | served (a : α)
  | dropped (a : α) (reason : τ)
  deriving DecidableEq, Repr

namespace Entry

variable {α : Type u} {τ : Type v}

def joined? : Entry α τ → Option α
  | .joined a => some a
  | _ => none

def served? : Entry α τ → Option α
  | .served a => some a
  | _ => none

def dropped? : Entry α τ → Option (α × τ)
  | .dropped a reason => some (a, reason)
  | _ => none

end Entry

variable {α : Type u} {τ : Type v}

/-- Everything that joined, in order. -/
def joined (log : List (Entry α τ)) : List α := log.filterMap Entry.joined?

/-- Everything that was served, in order. -/
def served (log : List (Entry α τ)) : List α := log.filterMap Entry.served?

/-- Everything that was dropped, with the reasons. -/
def dropped (log : List (Entry α τ)) : List (α × τ) := log.filterMap Entry.dropped?

@[simp]
theorem joined_append (first second : List (Entry α τ)) :
    joined (first ++ second) = joined first ++ joined second :=
  List.filterMap_append

@[simp]
theorem served_append (first second : List (Entry α τ)) :
    served (first ++ second) = served first ++ served second :=
  List.filterMap_append

@[simp]
theorem dropped_append (first second : List (Entry α τ)) :
    dropped (first ++ second) = dropped first ++ dropped second :=
  List.filterMap_append

section Singleton

variable (a : α)

@[simp]
theorem joined_joined : joined [(Entry.joined a : Entry α τ)] = [a] := rfl

@[simp]
theorem joined_served : joined [(Entry.served a : Entry α τ)] = [] := rfl

@[simp]
theorem served_joined : served [(Entry.joined a : Entry α τ)] = [] := rfl

@[simp]
theorem served_served : served [(Entry.served a : Entry α τ)] = [a] := rfl

@[simp]
theorem dropped_joined : dropped [(Entry.joined a : Entry α τ)] = [] := rfl

@[simp]
theorem dropped_served : dropped [(Entry.served a : Entry α τ)] = [] := rfl

end Singleton

theorem joined_map_dropped (l : List α) (reason : τ) :
    joined (l.map fun a => Entry.dropped a reason) = [] := by
  simp [joined, List.filterMap_map, Function.comp_def, Entry.joined?]

theorem served_map_dropped (l : List α) (reason : τ) :
    served (l.map fun a => Entry.dropped a reason) = [] := by
  simp [served, List.filterMap_map, Function.comp_def, Entry.served?]

theorem dropped_map_dropped (l : List α) (reason : τ) :
    dropped (l.map fun a => Entry.dropped a reason) = l.map fun a => (a, reason) := by
  simp [dropped, List.filterMap_map, Function.comp_def, Entry.dropped?]

/-- The ledger and the queue agree. -/
structure Balanced (log : List (Entry α τ)) (queue : List α) : Prop where
  order : (served log ++ queue).Sublist (joined log)
  account : (joined log).Perm (served log ++ (dropped log).map Prod.fst ++ queue)

theorem balanced_nil : Balanced ([] : List (Entry α τ)) [] :=
  ⟨List.Sublist.refl [], List.Perm.refl []⟩

namespace Balanced

variable {log : List (Entry α τ)} {queue : List α}

/-- An entry joins at the end. -/
theorem join (h : Balanced log queue) (a : α) :
    Balanced (log ++ [.joined a]) (queue ++ [a]) where
  order := by
    have horder := h.order.append (List.Sublist.refl [a])
    simpa using horder
  account := by
    have haccount := h.account.append_right [a]
    simpa using haccount

/-- The head is served. -/
theorem serve {a : α} (h : Balanced log (a :: queue)) : Balanced (log ++ [.served a]) queue where
  order := by simpa using h.order
  account := by
    have hmove : (served log ++ (dropped log).map Prod.fst ++ a :: queue).Perm
        (served log ++ [a] ++ (dropped log).map Prod.fst ++ queue) := by
      rw [List.append_assoc, List.append_assoc, List.append_assoc]
      exact (List.perm_middle (a := a)).append_left (served log)
    have haccount := h.account.trans hmove
    simpa using haccount

/-- Some entries are dropped for one reason; the others keep their order. -/
theorem drop (h : Balanced log queue) (stays : α → Bool) {removed : List α}
    (hremoved : removed.Perm (queue.filter fun a => !stays a)) (reason : τ) :
    Balanced (log ++ removed.map fun a => .dropped a reason) (queue.filter stays) where
  order := by
    rw [served_append, joined_append, served_map_dropped, joined_map_dropped, List.append_nil,
      List.append_nil]
    exact ((List.Sublist.refl _).append List.filter_sublist).trans h.order
  account := by
    have hsplit : queue.Perm (removed ++ queue.filter stays) :=
      ((List.filter_append_perm stays queue).symm.trans List.perm_append_comm).trans
        (hremoved.symm.append_right _)
    rw [served_append, joined_append, dropped_append, served_map_dropped, joined_map_dropped,
      dropped_map_dropped, List.append_nil, List.append_nil, List.map_append, List.map_map]
    have hfst : removed.map (Prod.fst ∘ fun a => (a, reason)) = removed := by
      simp [Function.comp_def]
    rw [hfst]
    have haccount := h.account.trans (hsplit.append_left _)
    simpa only [List.append_assoc] using haccount

end Balanced

end Ledger
