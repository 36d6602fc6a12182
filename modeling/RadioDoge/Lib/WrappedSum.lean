/-
# Sums that wrap around

A running total is kept modulo `modulus` and compared, after every entry, with a need
that has been reduced in the same way. The exact sums are those of the natural numbers.
`reaches_iff` says when the wrapped comparison stops where the exact one would: exactly
when the exact total has wrapped around as often as the exact need.
-/

import Mathlib.Tactic

namespace WrappedSum

/-- The exact sum of the first `count` entries. -/
def total (amounts : List Nat) (count : Nat) : Nat := (amounts.take count).sum

/-- The number of entries after which the wrapped total first reaches the wrapped need,
where `sum` is the wrapped total before them. -/
def stop (modulus need sum : Nat) : List Nat → Option Nat
  | [] => none
  | amount :: rest =>
      let sum := (sum + amount) % modulus
      if need % modulus ≤ sum then some 1 else (stop modulus need sum rest).map (· + 1)

/-- The first `count` entries reach the wrapped need, and no fewer do. -/
structure StopsAt (modulus need : Nat) (amounts : List Nat) (count : Nat) : Prop where
  pos : 0 < count
  le : count ≤ amounts.length
  reached : need % modulus ≤ total amounts count % modulus
  first : ∀ fewer, 0 < fewer → fewer < count → total amounts fewer % modulus < need % modulus

/-- The first `count` entries reach the exact need, and no fewer do. -/
structure Reaches (need : Nat) (amounts : List Nat) (count : Nat) : Prop where
  reached : need ≤ total amounts count
  first : ∀ fewer < count, total amounts fewer < need

variable {modulus need : Nat} {amounts : List Nat}

theorem total_zero (amounts : List Nat) : total amounts 0 = 0 := rfl

theorem total_cons_succ (amount : Nat) (amounts : List Nat) (count : Nat) :
    total (amount :: amounts) (count + 1) = amount + total amounts count := by
  rw [total, List.take_succ_cons, List.sum_cons, total]

theorem total_succ {count : Nat} (hcount : count < amounts.length) :
    total amounts (count + 1) = total amounts count + amounts[count] := by
  rw [total, List.take_succ_eq_append_getElem hcount, List.sum_append, List.sum_singleton, total]

theorem total_mono (amounts : List Nat) {fewer count : Nat} (h : fewer ≤ count) :
    total amounts fewer ≤ total amounts count := by
  have hfront : amounts.take fewer <+: amounts.take count := List.take_prefix_take_left h
  exact hfront.sublist.sum_le_sum fun _ _ => Nat.zero_le _

/-! ## The loop -/

/-- What the loop finds, from a wrapped total on. -/
theorem stop_eq_some_iff_from (amounts : List Nat) :
    ∀ (start count : Nat), stop modulus need (start % modulus) amounts = some count ↔
      0 < count ∧ count ≤ amounts.length ∧
        need % modulus ≤ (start + total amounts count) % modulus ∧
        ∀ fewer, 0 < fewer → fewer < count →
          (start + total amounts fewer) % modulus < need % modulus := by
  induction amounts with
  | nil =>
      intro start count
      refine iff_of_false (fun hnone => by cases hnone) ?_
      rintro ⟨hpos, hle, -⟩
      exact absurd (hpos.trans_le hle) (Nat.lt_irrefl 0)
  | cons amount rest ih =>
      intro start count
      have hone : total (amount :: rest) 1 = amount := by
        rw [total_cons_succ, total_zero, Nat.add_zero]
      rw [stop, Nat.mod_add_mod]
      by_cases hreached : need % modulus ≤ (start + amount) % modulus
      · rw [if_pos hreached, Option.some.injEq]
        constructor
        · rintro rfl
          exact ⟨Nat.one_pos, Nat.succ_le_succ (Nat.zero_le _), hone.symm ▸ hreached,
            fun fewer hpos hlt => absurd hlt (Nat.not_lt_of_le hpos)⟩
        · rintro ⟨hpos, -, -, hfirst⟩
          by_contra hne
          have hearly := hfirst 1 Nat.one_pos (by omega)
          rw [hone] at hearly
          exact absurd hreached (Nat.not_le_of_lt hearly)
      · rw [if_neg hreached]
        cases count with
        | zero => simp
        | succ count =>
            rw [Option.map_eq_some_iff]
            simp only [Nat.add_right_cancel_iff, exists_eq_right, ih (start + amount) count,
              List.length_cons, total_cons_succ, ← Nat.add_assoc]
            constructor
            · rintro ⟨hpos, hle, hlate, hfirst⟩
              refine ⟨Nat.succ_pos _, Nat.succ_le_succ hle, hlate, fun fewer hfewer hlt => ?_⟩
              cases fewer with
              | zero => exact absurd hfewer (Nat.lt_irrefl 0)
              | succ fewer =>
                  rw [total_cons_succ, ← Nat.add_assoc]
                  cases fewer with
                  | zero => exact Nat.lt_of_not_le hreached
                  | succ fewer => exact hfirst (fewer + 1) (Nat.succ_pos _) (by omega)
            · rintro ⟨-, hle, hlate, hfirst⟩
              have hpos : 0 < count := by
                rcases Nat.eq_zero_or_pos count with rfl | hpos
                · exact absurd hlate hreached
                · exact hpos
              refine ⟨hpos, Nat.le_of_succ_le_succ hle, hlate, fun fewer hfewer hlt => ?_⟩
              have hlow := hfirst (fewer + 1) (Nat.succ_pos _) (by omega)
              rwa [total_cons_succ, ← Nat.add_assoc] at hlow

/-- What the loop finds. -/
theorem stop_eq_some_iff (amounts : List Nat) (count : Nat) :
    stop modulus need 0 amounts = some count ↔ StopsAt modulus need amounts count := by
  have h := @stop_eq_some_iff_from modulus need amounts 0 count
  simp only [Nat.zero_mod, Nat.zero_add] at h
  exact h.trans ⟨fun ⟨hpos, hle, hreached, hfirst⟩ => ⟨hpos, hle, hreached, hfirst⟩,
    fun ⟨hpos, hle, hreached, hfirst⟩ => ⟨hpos, hle, hreached, hfirst⟩⟩

/-- The loop looks at the remainder of the need only. -/
theorem stopsAt_mod_iff {count : Nat} :
    StopsAt modulus (need % modulus) amounts count ↔ StopsAt modulus need amounts count := by
  constructor
  · rintro ⟨hpos, hle, hreached, hfirst⟩
    rw [Nat.mod_mod] at hreached hfirst
    exact ⟨hpos, hle, hreached, hfirst⟩
  · rintro ⟨hpos, hle, hreached, hfirst⟩
    rw [← Nat.mod_mod] at hreached hfirst
    exact ⟨hpos, hle, hreached, hfirst⟩

/-! ## Wrapped and exact -/

/-- A total that has not wrapped around more often than the need lies below it, if its
remainder does. -/
theorem lt_of_div_le {sum : Nat} (hdiv : sum / modulus ≤ need / modulus)
    (hmod : sum % modulus < need % modulus) : sum < need := by
  have hsum := Nat.div_add_mod sum modulus
  have hneed := Nat.div_add_mod need modulus
  have hmul : modulus * (sum / modulus) ≤ modulus * (need / modulus) := Nat.mul_le_mul_left _ hdiv
  omega

/-- **Where the wrapped comparison stops.** With entries below the modulus, it stops
where the exact one would exactly when the total there has wrapped around as often as
the need. -/
theorem reaches_iff {count : Nat} (hpos : 0 < need) (hentries : ∀ amount ∈ amounts, amount < modulus)
    (h : StopsAt modulus need amounts count) :
    Reaches need amounts count ↔ total amounts count / modulus = need / modulus := by
  have hneed := Nat.div_add_mod need modulus
  have hsum := Nat.div_add_mod (total amounts count) modulus
  constructor
  · intro hreaches
    have hle : need / modulus ≤ total amounts count / modulus :=
      Nat.div_le_div_right hreaches.reached
    refine Nat.le_antisymm (Nat.le_of_not_lt fun hmore => ?_) hle
    -- the entry before the last one cannot have been enough for another turn
    obtain ⟨before, rfl⟩ : ∃ before, count = before + 1 := ⟨count - 1, by have := h.pos; omega⟩
    have hbound : before < amounts.length := h.le
    have hlast := total_succ hbound
    have hentry := hentries _ (List.getElem_mem hbound)
    have hbelow := hreaches.first before (Nat.lt_succ_self _)
    have hturn : modulus * (need / modulus + 1) ≤
        modulus * (total amounts (before + 1) / modulus) := Nat.mul_le_mul_left _ hmore
    have hexpand : modulus * (need / modulus + 1) = modulus * (need / modulus) + modulus :=
      Nat.mul_succ _ _
    have hreached := h.reached
    omega
  · intro hequal
    refine ⟨?_, fun fewer hfewer => ?_⟩
    · have hreached := h.reached
      rw [hequal] at hsum
      omega
    · rcases Nat.eq_zero_or_pos fewer with rfl | hsome
      · rwa [total_zero]
      · refine lt_of_div_le ?_ (h.first fewer hsome hfewer)
        rw [← hequal]
        exact Nat.div_le_div_right (total_mono amounts hfewer.le)

end WrappedSum
