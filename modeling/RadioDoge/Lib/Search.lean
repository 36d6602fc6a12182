/-
# Searching a text

The first place where a pattern stands in a list, and the piece between the first occurrence of a
key and the next stop. `StandsBehind` says which piece that is without searching.
-/

import Mathlib.Tactic

universe u

namespace Search

variable {α : Type u} [DecidableEq α]

/-- Where the pattern first stands. -/
def find (pattern : List α) : List α → Option Nat
  | [] => if pattern = [] then some 0 else none
  | a :: rest =>
      if pattern <+: a :: rest then some 0 else (find pattern rest).map (· + 1)

/-- The piece between the first occurrence of the key and the next stop. -/
def cut (key : List α) (stop : α) (text : List α) : Option (List α) :=
  (find key text).bind fun n =>
    (find [stop] (text.drop (n + key.length))).map fun m => (text.drop (n + key.length)).take m

/-- The piece stands between the first occurrence of the key and the next stop. -/
def StandsBehind (key : List α) (stop : α) (text piece : List α) : Prop :=
  ∃ before after, text = before ++ (key ++ (piece ++ stop :: after)) ∧ stop ∉ piece ∧
    ∀ m < before.length, ¬ key <+: text.drop m

variable {pattern key text piece : List α} {stop : α}

/-- What is found stands there, and nowhere before. -/
theorem find_eq_some {n : Nat} (h : find pattern text = some n) :
    pattern <+: text.drop n ∧ ∀ m < n, ¬ pattern <+: text.drop m := by
  induction text generalizing n with
  | nil =>
      rw [find] at h
      split at h
      · rename_i hnil
        rcases Option.some.inj h with rfl
        exact ⟨hnil ▸ List.nil_prefix, fun m hm => absurd hm (Nat.not_lt_zero m)⟩
      · cases h
  | cons a rest ih =>
      rw [find] at h
      split at h
      · rename_i hhere
        rcases Option.some.inj h with rfl
        exact ⟨hhere, fun m hm => absurd hm (Nat.not_lt_zero m)⟩
      · rename_i hnot
        rcases Option.map_eq_some_iff.mp h with ⟨k, hk, rfl⟩
        rcases ih hk with ⟨hthere, hfirst⟩
        refine ⟨hthere, ?_⟩
        intro m hm
        cases m with
        | zero => exact hnot
        | succ m => exact hfirst m (Nat.lt_of_succ_lt_succ hm)

/-- What stands there and nowhere before is found. -/
theorem find_of_first {n : Nat} (hne : pattern ≠ []) (hthere : pattern <+: text.drop n)
    (hfirst : ∀ m < n, ¬ pattern <+: text.drop m) : find pattern text = some n := by
  induction text generalizing n with
  | nil =>
      rw [List.drop_nil] at hthere
      exact absurd (List.prefix_nil.mp hthere) hne
  | cons a rest ih =>
      rw [find]
      cases n with
      | zero => exact if_pos hthere
      | succ n =>
          have hnot : ¬ pattern <+: a :: rest := hfirst 0 (Nat.succ_pos n)
          rw [if_neg hnot, ih hthere fun m hm => hfirst (m + 1) (Nat.succ_lt_succ hm)]
          rfl

/-- A single stop is found behind what it does not occur in. -/
theorem find_singleton_append (hpiece : stop ∉ piece) (after : List α) :
    find [stop] (piece ++ stop :: after) = some piece.length := by
  have hne : ([stop] : List α) ≠ [] := List.cons_ne_nil _ _
  apply find_of_first hne
  · rw [List.drop_left]
    exact ⟨after, rfl⟩
  · intro m hm hstands
    rw [List.drop_append_of_le_length hm.le, List.drop_eq_getElem_cons hm, List.cons_append,
      List.cons_prefix_cons] at hstands
    exact hpiece (hstands.1 ▸ List.getElem_mem hm)

omit [DecidableEq α] in
/-- A list before the first stop has none. -/
theorem not_mem_take {m : Nat} (hfirst : ∀ i < m, ¬ [stop] <+: text.drop i) :
    stop ∉ text.take m := by
  intro hmem
  rcases List.mem_take_iff_getElem.mp hmem with ⟨i, hi, hstop⟩
  rw [Nat.lt_min] at hi
  apply hfirst i hi.1
  rw [List.drop_eq_getElem_cons hi.2, hstop]
  exact ⟨_, rfl⟩

/-- **The cut.** It gives the piece that stands behind the key. -/
theorem cut_eq_some_iff (hkey : key ≠ []) :
    cut key stop text = some piece ↔ StandsBehind key stop text piece := by
  rw [cut]
  apply Iff.intro
  · intro hcut
    rcases Option.bind_eq_some_iff.mp hcut with ⟨n, hn, hrest⟩
    rcases Option.map_eq_some_iff.mp hrest with ⟨m, hm, hpiece⟩
    rcases find_eq_some hn with ⟨⟨behind, hbehind⟩, hfirst⟩
    have hdrop : text.drop (n + key.length) = behind := by
      rw [← List.drop_drop, ← hbehind, List.drop_left]
    rw [hdrop] at hm hpiece
    rcases find_eq_some hm with ⟨⟨after, hafter⟩, hstop⟩
    have hlength : (text.take n).length = n := by
      apply List.length_take_of_le
      by_contra hlong
      rw [List.drop_eq_nil_of_le (Nat.le_of_not_le hlong), List.append_eq_nil_iff] at hbehind
      exact hkey hbehind.1
    refine ⟨text.take n, after, ?_, ?_, ?_⟩
    · calc text
          _ = text.take n ++ text.drop n := (List.take_append_drop n text).symm
          _ = text.take n ++ (key ++ (behind.take m ++ behind.drop m)) := by
              rw [← hbehind, List.take_append_drop]
          _ = text.take n ++ (key ++ (piece ++ stop :: after)) := by
              rw [hpiece, ← hafter, List.singleton_append]
    · rw [← hpiece]
      exact not_mem_take hstop
    · rw [hlength]
      exact hfirst
  · rintro ⟨before, after, htext, hpiece, hfirst⟩
    have hdrop : text.drop before.length = key ++ (piece ++ stop :: after) := by
      rw [htext, List.drop_left]
    have hfind : find key text = some before.length := by
      apply find_of_first hkey _ hfirst
      rw [hdrop]
      exact List.prefix_append _ _
    have hbehind : text.drop (before.length + key.length) = piece ++ stop :: after := by
      rw [← List.drop_drop, hdrop, List.drop_left]
    rw [hfind, Option.bind_some, hbehind, find_singleton_append hpiece, Option.map_some,
      List.take_left]

end Search
