/-
# Lists related element by element

Two lists that are related by `List.Forall₂` stay related under the operations a
table of entries goes through: appending, overwriting one position, erasing one
position and filtering. A search with predicates that agree on related elements
finds the same position in both.
-/

import Mathlib.Tactic
import Mathlib.Data.List.Forall2
import Mathlib.Data.List.Perm.Basic

universe u v

namespace Elementwise

open List

variable {α : Type u} {β : Type v} {R : α → β → Prop} {as : List α} {bs : List β}

theorem append_singleton (h : Forall₂ R as bs) {a : α} {b : β} (hab : R a b) :
    Forall₂ R (as ++ [a]) (bs ++ [b]) :=
  rel_append h (.cons hab .nil)

theorem set (h : Forall₂ R as bs) {a : α} {b : β} (hab : R a b) (i : Nat) :
    Forall₂ R (as.set i a) (bs.set i b) := by
  induction h generalizing i with
  | nil => exact .nil
  | cons hhead htail ih =>
      cases i with
      | zero => exact .cons hab htail
      | succ i => exact .cons hhead (ih i)

theorem eraseIdx (h : Forall₂ R as bs) (i : Nat) :
    Forall₂ R (as.eraseIdx i) (bs.eraseIdx i) := by
  induction h generalizing i with
  | nil => exact .nil
  | cons hhead htail ih =>
      cases i with
      | zero => exact htail
      | succ i => exact .cons hhead (ih i)

theorem filter (h : Forall₂ R as bs) {p : α → Bool} {q : β → Bool}
    (agree : ∀ a b, R a b → p a = q b) : Forall₂ R (as.filter p) (bs.filter q) :=
  rel_filter (fun a b hab => (congrArg (· = true) (agree a b hab)).to_iff) h

theorem findIdx?_eq (h : Forall₂ R as bs) {p : α → Bool} {q : β → Bool}
    (agree : ∀ a b, R a b → p a = q b) : as.findIdx? p = bs.findIdx? q := by
  induction h with
  | nil => rfl
  | cons hhead htail ih => rw [findIdx?_cons, findIdx?_cons, agree _ _ hhead, ih]

/-- The entries at one position are related, and they exist together. -/
theorem getElem?_some (h : Forall₂ R as bs) {i : Nat} {b : β} (hb : bs[i]? = some b) :
    ∃ a, as[i]? = some a ∧ R a b := by
  obtain ⟨hi, rfl⟩ := List.getElem?_eq_some_iff.mp hb
  have hi' : i < as.length := by rwa [h.length_eq]
  exact ⟨as[i], List.getElem?_eq_getElem hi', h.get hi' hi⟩

/-- A permutation of the images of `bs` lists the images of a permutation of `bs`. -/
theorem perm_of_perm_map {f : β → α} (h : as.Perm (bs.map f)) :
    ∃ order, Forall₂ (fun a b => a = f b) as order ∧ order.Perm bs := by
  have himages : Forall₂ (fun a b => a = f b) (bs.map f) bs :=
    forall₂_map_left_iff.mpr (forall₂_same.mpr fun _ _ => rfl)
  exact perm_comp_forall₂ h himages

section Replace

variable {S : α → β → Prop}

/-- Change the relation where it is allowed to use membership. -/
theorem imp_of_mem (h : Forall₂ R as bs) (himp : ∀ a b, b ∈ bs → R a b → S a b) :
    Forall₂ S as bs := by
  induction h with
  | nil => exact .nil
  | cons hhead htail ih =>
      exact .cons (himp _ _ mem_cons_self hhead)
        (ih fun a b hb hab => himp a b (mem_cons_of_mem _ hb) hab)

/-- Overwrite the entry that belongs to `b`, under a relation that differs from
the old one only at `b`. -/
theorem set_left (h : Forall₂ R as bs) (hnodup : bs.Nodup) {i : Nat} {a : α} {b : β}
    (hb : bs[i]? = some b) (hab : S a b)
    (hrest : ∀ a' b', b' ∈ bs → b' ≠ b → R a' b' → S a' b') : Forall₂ S (as.set i a) bs := by
  induction h generalizing i with
  | nil => simp at hb
  | cons hhead htail ih =>
      obtain ⟨hnew, htailNodup⟩ := nodup_cons.mp hnodup
      cases i with
      | zero =>
          rw [getElem?_cons_zero, Option.some.injEq] at hb
          subst hb
          refine .cons hab (imp_of_mem htail fun a' b' hmem => ?_)
          exact hrest a' b' (mem_cons_of_mem _ hmem) fun heq => hnew (heq ▸ hmem)
      | succ i =>
          rw [getElem?_cons_succ] at hb
          have hmem : b ∈ _ := mem_of_getElem? hb
          refine .cons (hrest _ _ mem_cons_self (fun heq => hnew (heq ▸ hmem)) hhead) ?_
          exact ih htailNodup hb fun a' b' hmem' => hrest a' b' (mem_cons_of_mem _ hmem')

end Replace

end Elementwise
