/-
# Cutting a list into pieces

A list is cut into consecutive pieces of `c` elements, the last of which may be
shorter. `mapPieces` sends every piece through a function and joins the results:
with the identity it gives the list back, and with a length-preserving function
it keeps every position inside its own piece.
-/

import Mathlib.Tactic
import Mathlib.Data.List.Basic

universe u

namespace Pieces

variable {α : Type u}

/-- Piece `i` of a list cut every `c` elements. -/
def piece (c : Nat) (l : List α) (i : Nat) : List α := (l.drop (i * c)).take c

/-- The number of pieces of a list of `n` elements: the quotient rounded up. -/
def pieceCount (c n : Nat) : Nat := (n + c - 1) / c

/-- Send each piece through `f` and join the results. -/
def mapPieces (c : Nat) (f : List α → List α) (l : List α) : List α :=
  (List.range (pieceCount c l.length)).flatMap fun i => f (piece c l i)

theorem length_piece (c : Nat) (l : List α) (i : Nat) :
    (piece c l i).length = min c (l.length - i * c) := by
  simp [piece]

@[simp]
theorem pieceCount_zero {c : Nat} (hc : 0 < c) : pieceCount c 0 = 0 :=
  Nat.div_eq_of_lt (by omega)

/-- Taking one piece off the front leaves one piece less. -/
theorem pieceCount_of_pos {c n : Nat} (hc : 0 < c) (hn : 0 < n) :
    pieceCount c n = pieceCount c (n - c) + 1 := by
  by_cases h : n ≤ c
  · have hzero : n - c = 0 := by omega
    have hone : (n + c - 1) / c = 1 := by
      rw [Nat.div_eq_iff hc]
      omega
    rw [hzero, pieceCount_zero hc, pieceCount, hone]
  · have hsub : n + c - 1 = (n - c + c - 1) + c := by omega
    rw [pieceCount, hsub, Nat.add_div_right _ hc]
    rfl

/-- The quotient rounded up, as a loop counts it. -/
theorem pieceCount_eq_div_add {c : Nat} (hc : 0 < c) (n : Nat) :
    n / c + (if n % c ≠ 0 then 1 else 0) = pieceCount c n := by
  have hdiv := Nat.div_add_mod n c
  have hmod : n % c < c := Nat.mod_lt n hc
  rw [pieceCount, eq_comm, Nat.div_eq_iff hc, Nat.add_mul, Nat.mul_comm (n / c) c]
  split
  · omega
  · omega

theorem pieceCount_pos {c n : Nat} (hc : 0 < c) (hn : 0 < n) : 0 < pieceCount c n := by
  rw [pieceCount_of_pos hc hn]
  omega

/-- A piece index is below the count exactly when the piece starts inside the
list. -/
theorem lt_pieceCount_iff {c n : Nat} (hc : 0 < c) (i : Nat) :
    i < pieceCount c n ↔ i * c < n := by
  rw [pieceCount, Nat.lt_div_iff_mul_lt hc]
  omega

/-- At most `k` pieces means at most `k * c` elements. -/
theorem pieceCount_le_iff {c n : Nat} (hc : 0 < c) (k : Nat) :
    pieceCount c n ≤ k ↔ n ≤ k * c := by
  rw [← not_lt, lt_pieceCount_iff hc, not_lt]

theorem length_piece_le (c : Nat) (l : List α) (i : Nat) : (piece c l i).length ≤ c := by
  rw [length_piece]
  omega

theorem piece_drop (c : Nat) (l : List α) (i : Nat) :
    piece c (l.drop c) i = piece c l (i + 1) := by
  rw [piece, piece, List.drop_drop, Nat.succ_mul, Nat.add_comm]

theorem piece_zero (c : Nat) (l : List α) : piece c l 0 = l.take c := by
  simp [piece]

@[simp]
theorem mapPieces_nil {c : Nat} (hc : 0 < c) (f : List α → List α) :
    mapPieces c f [] = [] := by
  simp [mapPieces, pieceCount_zero hc]

/-- The first piece, then the pieces of the rest. -/
theorem mapPieces_of_ne_nil {c : Nat} (hc : 0 < c) (f : List α → List α) {l : List α}
    (hl : l ≠ []) : mapPieces c f l = f (l.take c) ++ mapPieces c f (l.drop c) := by
  have hpos : 0 < l.length := List.length_pos_iff.mpr hl
  rw [mapPieces, pieceCount_of_pos hc hpos, List.range_succ_eq_map, List.flatMap_cons,
    piece_zero, mapPieces, List.length_drop, List.flatMap_map]
  simp only [piece_drop]

/-- Joining the pieces gives the list back. -/
theorem mapPieces_id {c : Nat} (hc : 0 < c) (l : List α) : mapPieces c id l = l := by
  induction hn : l.length using Nat.strong_induction_on generalizing l with
  | _ n ih =>
      by_cases hl : l = []
      · subst hl
        exact mapPieces_nil hc id
      · have hpos : 0 < l.length := List.length_pos_iff.mpr hl
        have hrest := ih (l.drop c).length (by rw [List.length_drop]; omega) (l.drop c) rfl
        rw [mapPieces_of_ne_nil hc id hl, hrest, id, List.take_append_drop]

section LengthPreserving

variable {c : Nat} {f : List α → List α} (hc : 0 < c)
  (hf : ∀ s : List α, (f s).length = s.length)

include hc hf

theorem length_mapPieces (l : List α) : (mapPieces c f l).length = l.length := by
  induction hn : l.length using Nat.strong_induction_on generalizing l with
  | _ n ih =>
      by_cases hl : l = []
      · subst hl
        simpa [mapPieces_nil hc] using hn
      · have hpos : 0 < l.length := List.length_pos_iff.mpr hl
        have hrest := ih (l.drop c).length (by rw [List.length_drop]; omega) (l.drop c) rfl
        rw [mapPieces_of_ne_nil hc f hl, List.length_append, hf, hrest, List.length_take,
          List.length_drop]
        omega

/-- Position `j` lies in piece `j / c`, at offset `j % c`. -/
theorem getElem?_mapPieces (l : List α) (j : Nat) :
    (mapPieces c f l)[j]? = (f (piece c l (j / c)))[j % c]? := by
  induction hn : l.length using Nat.strong_induction_on generalizing l j with
  | _ n ih =>
      by_cases hl : l = []
      · subst hl
        have hempty : f (piece c [] (j / c)) = [] := by
          rw [← List.length_eq_zero_iff, hf, length_piece]
          simp
        rw [mapPieces_nil hc, hempty]
        rfl
      · have hpos : 0 < l.length := List.length_pos_iff.mpr hl
        have hlen : (f (l.take c)).length = min c l.length := by rw [hf, List.length_take]
        have hdrop : (l.drop c).length < n := by rw [List.length_drop]; omega
        rw [mapPieces_of_ne_nil hc f hl, List.getElem?_append]
        by_cases hj : j < c
        · have hdiv : j / c = 0 := Nat.div_eq_of_lt hj
          rw [hdiv, piece_zero, Nat.mod_eq_of_lt hj]
          by_cases hin : j < (f (l.take c)).length
          · rw [if_pos hin]
          · have hshort : l.drop c = [] := by
              rw [List.drop_eq_nil_iff]
              omega
            rw [if_neg hin, hshort, mapPieces_nil hc,
              List.getElem?_eq_none (Nat.le_of_not_lt hin)]
            rfl
        · have hout : ¬ j < (f (l.take c)).length := by omega
          rw [if_neg hout]
          by_cases hshort : l.length ≤ c
          · have hdropNil : l.drop c = [] := List.drop_eq_nil_iff.mpr hshort
            have hdivPos : 0 < j / c := Nat.div_pos (Nat.le_of_not_lt hj) hc
            have hmul : c ≤ j / c * c := Nat.le_mul_of_pos_left c hdivPos
            have hempty : f (piece c l (j / c)) = [] := by
              rw [← List.length_eq_zero_iff, hf, length_piece]
              omega
            rw [hdropNil, mapPieces_nil hc, hempty]
            rfl
          · have hfull : (f (l.take c)).length = c := by omega
            have hdivSub : (j - c) / c + 1 = j / c := by
              rw [← Nat.add_div_right _ hc, Nat.sub_add_cancel (Nat.le_of_not_lt hj)]
            have hmodSub : (j - c) % c = j % c := by
              rw [← Nat.add_mod_right (j - c), Nat.sub_add_cancel (Nat.le_of_not_lt hj)]
            rw [hfull, ih _ hdrop (l.drop c) (j - c) rfl, piece_drop, hdivSub, hmodSub]

end LengthPreserving

/-! ## The loop that cuts -/

variable {β : Type u}

/-- A loop that cuts a list: `remaining` passes to go, the number of the next piece,
its position, and the number of elements from there on. -/
def cutLoop (c : Nat) (l : List α) (emit : Nat → List α → β) : Nat → Nat → Nat → Nat → List β
  | 0, _, _, _ => []
  | remaining + 1, i, position, left =>
      emit i ((l.drop position).take (min c left)) ::
        cutLoop c l emit remaining (i + 1) (position + min c left) (left - min c left)

/-- The size of the next piece, chosen by a comparison. -/
theorem ite_ge_eq_min (c left : Nat) : (if left ≥ c then c else left) = min c left :=
  Nat.min_def.symm

/-- A pass takes as many elements as it counts. -/
theorem length_take_drop_min (c : Nat) {l : List α} {position left : Nat}
    (h : position + left = l.length) :
    ((l.drop position).take (min c left)).length = min c left := by
  rw [List.length_take, List.length_drop]
  omega

/-- The loop from piece `i` on. -/
theorem cutLoop_from {c : Nat} (hc : 0 < c) (l : List α) (emit : Nat → List α → β)
    (remaining : Nat) : ∀ i, i + remaining = pieceCount c l.length →
      cutLoop c l emit remaining i (min (i * c) l.length) (l.length - i * c) =
        (List.range' i remaining).map fun j => emit j (piece c l j) := by
  induction remaining with
  | zero =>
      intro i _
      rfl
  | succ remaining ih =>
      intro i hi
      have hinside : i * c < l.length := (lt_pieceCount_iff hc i).mp (by omega)
      have hpiece : (l.drop (i * c)).take (min c (l.length - i * c)) = piece c l i := by
        rw [piece, ← List.length_drop, ← List.take_eq_take_min]
      have hnext : min (i * c) l.length + min c (l.length - i * c) =
          min ((i + 1) * c) l.length := by
        rw [Nat.succ_mul]
        omega
      have hleft : l.length - i * c - min c (l.length - i * c) = l.length - (i + 1) * c := by
        rw [Nat.succ_mul]
        omega
      rw [cutLoop, hnext, hleft, ih (i + 1) (by omega), Nat.min_eq_left hinside.le, hpiece]
      rfl

/-- The loop visits every piece once, in order. -/
theorem cutLoop_eq {c : Nat} (hc : 0 < c) (l : List α) (emit : Nat → List α → β) :
    cutLoop c l emit (pieceCount c l.length) 0 0 l.length =
      (List.range (pieceCount c l.length)).map fun i => emit i (piece c l i) := by
  have hfrom := cutLoop_from hc l emit (pieceCount c l.length) 0 (Nat.zero_add _)
  rwa [Nat.zero_mul, Nat.zero_min, Nat.sub_zero, ← List.range_eq_range'] at hfrom

end Pieces
