/-
# Stores that limit their keys

A store keeps at most one value for each key. A write under a key that is not allowed fails and
changes nothing, so nothing is ever found under such a key.
-/

import Mathlib.Logic.Function.Basic

universe u v

/-- The values of a store, with the promise that only allowed keys have one. -/
structure LimitedStore (κ : Type u) (ν : Type v) (Allowed : κ → Prop) where
  find : κ → Option ν
  allowed : ∀ key, find key ≠ none → Allowed key

namespace LimitedStore

variable {κ : Type u} {ν : Type v} {Allowed : κ → Prop}

/-- A store without values. -/
def empty : LimitedStore κ ν Allowed where
  find := fun _ => none
  allowed := fun _ hfound => absurd rfl hfound

/-- Nothing is found under a key that is not allowed. -/
theorem find_of_not_allowed (store : LimitedStore κ ν Allowed) {key : κ} (hkey : ¬ Allowed key) :
    store.find key = none := by
  by_contra hfound
  exact hkey (store.allowed key hfound)

section Write

variable [DecidableEq κ] (store : LimitedStore κ ν Allowed)

/-- Write a value, if the key is allowed. -/
def set (key : κ) (value : ν) [Decidable (Allowed key)] : LimitedStore κ ν Allowed :=
  if hkey : Allowed key then
    { find := Function.update store.find key (some value)
      allowed := by
        intro other hfound
        by_cases hother : other = key
        · rw [hother]
          exact hkey
        · rw [Function.update_of_ne hother] at hfound
          exact store.allowed other hfound }
  else store

/-- Remove the value of a key. -/
def erase (key : κ) : LimitedStore κ ν Allowed where
  find := Function.update store.find key none
  allowed := by
    intro other hfound
    by_cases hother : other = key
    · rw [hother, Function.update_self] at hfound
      exact absurd rfl hfound
    · rw [Function.update_of_ne hother] at hfound
      exact store.allowed other hfound

variable {key other : κ} {value : ν}

/-- A written value is found. -/
theorem find_set_self [Decidable (Allowed key)] (hkey : Allowed key) :
    (store.set key value).find key = some value := by
  rw [set, dif_pos hkey]
  exact Function.update_self key (some value) store.find

/-- A write leaves the other keys alone. -/
theorem find_set_of_ne [Decidable (Allowed key)] (hother : other ≠ key) :
    (store.set key value).find other = store.find other := by
  rw [set]
  split
  · exact Function.update_of_ne hother (some value) store.find
  · rfl

/-- An erased value is not found. -/
theorem find_erase_self : (store.erase key).find key = none := by
  rw [erase]
  exact Function.update_self key (none : Option ν) store.find

/-- Erasing leaves the other keys alone. -/
theorem find_erase_of_ne (hother : other ≠ key) :
    (store.erase key).find other = store.find other := by
  rw [erase]
  exact Function.update_of_ne hother (none : Option ν) store.find

end Write

end LimitedStore
