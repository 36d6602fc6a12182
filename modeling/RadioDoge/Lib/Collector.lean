/-
# Collecting pieces by key

Pieces arrive one by one, each under a key. A key needs a finite set of pieces;
when the last missing one arrives the key is done and what was held for it is
dropped. A second copy of a piece that is held is ignored.

`run_perm` is the delivery theorem: if every copy arrives while something is
still missing under its key, and in the end nothing is missing, then each key is
done exactly once and nothing is held, in whatever order the pieces came.
-/

import Mathlib.Tactic
import Mathlib.Data.Finset.Dedup
import Mathlib.Data.List.Perm.Basic

universe u v

namespace Collector

variable {κ : Type u} {ι : Type v} [DecidableEq κ] [DecidableEq ι]

/-- One piece arrives. -/
def collect (need : κ → Finset ι) (held : κ → Finset ι) (piece : κ × ι) :
    (κ → Finset ι) × Option κ :=
  if piece.2 ∈ held piece.1 then (held, none)
  else if insert piece.2 (held piece.1) = need piece.1 then
    (Function.update held piece.1 ∅, some piece.1)
  else (Function.update held piece.1 (insert piece.2 (held piece.1)), none)

theorem collect_mk (need held : κ → Finset ι) (key : κ) (i : ι) :
    collect need held (key, i) =
      if i ∈ held key then (held, none)
      else if insert i (held key) = need key then (Function.update held key ∅, some key)
      else (Function.update held key (insert i (held key)), none) := rfl

/-- A sequence of arrivals, with the keys that are done, oldest first. -/
def run (need : κ → Finset ι) (held : κ → Finset ι) :
    List (κ × ι) → (κ → Finset ι) × List κ
  | [] => (held, [])
  | piece :: rest =>
      let first := collect need held piece
      let later := run need first.1 rest
      (later.1, first.2.toList ++ later.2)

/-- The pieces of a key among some arrivals. -/
def arrived (arrivals : List (κ × ι)) (key : κ) : Finset ι :=
  ((arrivals.filter fun piece => piece.1 = key).map Prod.snd).toFinset

theorem arrived_nil (key : κ) : arrived ([] : List (κ × ι)) key = ∅ := rfl

theorem mem_arrived (arrivals : List (κ × ι)) (key : κ) (i : ι) :
    i ∈ arrived arrivals key ↔ (key, i) ∈ arrivals := by
  simp only [arrived, List.mem_toFinset, List.mem_map, List.mem_filter, decide_eq_true_eq]
  constructor
  · rintro ⟨⟨key', i'⟩, ⟨hmem, rfl⟩, rfl⟩
    exact hmem
  · intro hmem
    exact ⟨(key, i), ⟨hmem, rfl⟩, rfl⟩

theorem arrived_append_self (arrivals : List (κ × ι)) (key : κ) (i : ι) :
    arrived (arrivals ++ [(key, i)]) key = insert i (arrived arrivals key) := by
  ext j
  simp only [mem_arrived, List.mem_append, List.mem_singleton, Prod.mk.injEq, true_and,
    Finset.mem_insert]
  exact or_comm

theorem arrived_append_of_ne (arrivals : List (κ × ι)) {key other : κ} (i : ι)
    (hne : other ≠ key) :
    arrived (arrivals ++ [(key, i)]) other = arrived arrivals other := by
  ext j
  simp only [mem_arrived, List.mem_append, List.mem_singleton, Prod.mk.injEq, hne, false_and,
    or_false]

/-- Every copy arrives while something is still missing under its key. -/
def Timely (need : κ → Finset ι) (arrivals : List (κ × ι)) : Prop :=
  ∀ seen key i rest, arrivals = seen ++ (key, i) :: rest → ¬ need key ⊆ arrived seen key

/-- What a collector holds and has finished after some arrivals. -/
structure Tracks (need : κ → Finset ι) (seen : List (κ × ι)) (held : κ → Finset ι)
    (done : List κ) : Prop where
  held : ∀ key, held key = if need key ⊆ arrived seen key then ∅ else arrived seen key
  nodup : done.Nodup
  mem_done : ∀ key, key ∈ done ↔ (need key).Nonempty ∧ need key ⊆ arrived seen key

variable {need : κ → Finset ι}

theorem tracks_nil : Tracks need [] (fun _ => ∅) [] where
  held := fun key => by simp [arrived_nil]
  nodup := List.nodup_nil
  mem_done := fun key => by
    simp only [List.not_mem_nil, arrived_nil, Finset.subset_empty, false_iff, not_and]
    exact fun hne => hne.ne_empty

/-- One more arrival, while something is missing under its key. -/
theorem Tracks.collect {seen : List (κ × ι)} {held : κ → Finset ι} {done : List κ}
    (h : Tracks need seen held done) {key : κ} {i : ι} (hknown : i ∈ need key)
    (hsound : arrived seen key ⊆ need key) (hmissing : ¬ need key ⊆ arrived seen key) :
    Tracks need (seen ++ [(key, i)]) (Collector.collect need held (key, i)).1
      (done ++ (Collector.collect need held (key, i)).2.toList) := by
  have hheld : held key = arrived seen key := by rw [h.held, if_neg hmissing]
  have hother : ∀ other, other ≠ key →
      held other = if need other ⊆ arrived (seen ++ [(key, i)]) other then ∅
        else arrived (seen ++ [(key, i)]) other := fun other hne => by
    rw [arrived_append_of_ne seen i hne, h.held]
  have hdoneOther : ∀ other, other ≠ key →
      (other ∈ done ↔ (need other).Nonempty ∧
        need other ⊆ arrived (seen ++ [(key, i)]) other) := fun other hne => by
    rw [arrived_append_of_ne seen i hne, h.mem_done]
  have hnotDone : key ∉ done := fun hmem => hmissing ((h.mem_done key).mp hmem).2
  by_cases hdup : i ∈ arrived seen key
  · have hsame : arrived (seen ++ [(key, i)]) key = arrived seen key := by
      rw [arrived_append_self, Finset.insert_eq_of_mem hdup]
    simp only [Collector.collect_mk, hheld, if_pos hdup, Option.toList_none, List.append_nil]
    refine ⟨fun other => ?_, h.nodup, fun other => ?_⟩
    · by_cases hne : other = key
      · rw [hne, hsame, h.held]
      · exact hother other hne
    · by_cases hne : other = key
      · rw [hne, hsame, h.mem_done]
      · exact hdoneOther other hne
  · have hsub : insert i (arrived seen key) ⊆ need key :=
      Finset.insert_subset hknown hsound
    have hcomplete : insert i (arrived seen key) = need key ↔
        need key ⊆ arrived (seen ++ [(key, i)]) key := by
      rw [arrived_append_self]
      exact ⟨fun heq => heq.ge, fun hge => hsub.antisymm hge⟩
    simp only [Collector.collect_mk, hheld, if_neg hdup]
    by_cases hlast : insert i (arrived seen key) = need key
    · simp only [if_pos hlast, Option.toList_some]
      refine ⟨fun other => ?_, ?_, fun other => ?_⟩
      · by_cases hne : other = key
        · rw [hne, Function.update_self, if_pos (hcomplete.mp hlast)]
        · rw [Function.update_of_ne hne]
          exact hother other hne
      · exact List.nodup_append.mpr ⟨h.nodup, List.nodup_singleton _, fun a ha b hb hab =>
          hnotDone (by rw [← List.mem_singleton.mp hb, ← hab]; exact ha)⟩
      · rw [List.mem_append, List.mem_singleton]
        by_cases hne : other = key
        · rw [hne]
          exact ⟨fun _ => ⟨⟨i, hknown⟩, hcomplete.mp hlast⟩, fun _ => .inr rfl⟩
        · rw [hdoneOther other hne]
          exact ⟨fun hor => hor.resolve_right hne, .inl⟩
    · have hstill : ¬ need key ⊆ arrived (seen ++ [(key, i)]) key :=
        fun hge => hlast (hcomplete.mpr hge)
      simp only [if_neg hlast, Option.toList_none, List.append_nil]
      refine ⟨fun other => ?_, h.nodup, fun other => ?_⟩
      · by_cases hne : other = key
        · rw [hne, Function.update_self, if_neg hstill, arrived_append_self]
        · rw [Function.update_of_ne hne]
          exact hother other hne
      · by_cases hne : other = key
        · rw [hne]
          exact ⟨fun hmem => absurd hmem hnotDone, fun hall => absurd hall.2 hstill⟩
        · exact hdoneOther other hne

/-- A whole sequence of timely arrivals. -/
theorem Tracks.run {arrivals : List (κ × ι)} (hknown : ∀ piece ∈ arrivals, piece.2 ∈ need piece.1)
    (htimely : Timely need arrivals) :
    ∀ (rest seen : List (κ × ι)) (held : κ → Finset ι) (done : List κ),
      arrivals = seen ++ rest → Tracks need seen held done →
      Tracks need arrivals (Collector.run need held rest).1
        (done ++ (Collector.run need held rest).2) := by
  intro rest
  induction rest with
  | nil =>
      intro seen held done hsplit h
      rw [hsplit, List.append_nil]
      simpa [Collector.run] using h
  | cons piece rest ih =>
      intro seen held done hsplit h
      obtain ⟨key, i⟩ := piece
      have hsound : arrived seen key ⊆ need key := by
        intro j hj
        rw [mem_arrived] at hj
        exact hknown (key, j) (by rw [hsplit]; exact List.mem_append_left _ hj)
      have hi : i ∈ need key := hknown (key, i) (by rw [hsplit]; simp)
      have hstep := h.collect hi hsound (htimely seen key i rest hsplit)
      have hlater := ih (seen ++ [(key, i)]) _ _ (by rw [hsplit]; simp) hstep
      rw [List.append_assoc] at hlater
      exact hlater

/-- **Delivery.** If every copy is timely and nothing is missing in the end, each
key is done exactly once and nothing is left over. -/
theorem run_perm {arrivals : List (κ × ι)} {keys : List κ} (hnodup : keys.Nodup)
    (hknown : ∀ piece ∈ arrivals, piece.1 ∈ keys ∧ piece.2 ∈ need piece.1)
    (htimely : Timely need arrivals)
    (hneed : ∀ key, (need key).Nonempty)
    (hcomplete : ∀ key ∈ keys, ∀ i ∈ need key, (key, i) ∈ arrivals) :
    (run need (fun _ => ∅) arrivals).2.Perm keys ∧
      ∀ key, (run need (fun _ => ∅) arrivals).1 key = ∅ := by
  have h := Tracks.run (fun piece hmem => (hknown piece hmem).2) htimely arrivals [] _ []
    rfl tracks_nil
  rw [List.nil_append] at h
  have hall : ∀ key, need key ⊆ arrived arrivals key ↔ key ∈ keys := by
    intro key
    constructor
    · intro hsub
      obtain ⟨i, hi⟩ := hneed key
      exact (hknown (key, i) ((mem_arrived _ _ _).mp (hsub hi))).1
    · intro hkey i hi
      rw [mem_arrived]
      exact hcomplete key hkey i hi
  refine ⟨(List.perm_ext_iff_of_nodup h.nodup hnodup).mpr fun key => ?_, fun key => ?_⟩
  · rw [h.mem_done, hall]
    exact ⟨fun hkey => hkey.2, fun hkey => ⟨hneed key, hkey⟩⟩
  · rw [h.held]
    by_cases hkey : key ∈ keys
    · rw [if_pos ((hall key).mpr hkey)]
    · have hnone : arrived arrivals key = ∅ := by
        rw [Finset.eq_empty_iff_forall_notMem]
        intro i hi
        exact hkey (hknown (key, i) ((mem_arrived _ _ _).mp hi)).1
      rw [hnone, ite_self]

end Collector
