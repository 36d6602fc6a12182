/-
# Loads that assign as they read

A load reads one value after the other and puts each into its field at once; the first read that
fails ends it. Everything is loaded, or nothing is changed, unless a value that is not in the
memory yet is read before a read that fails.
-/

import Mathlib.Data.List.TakeWhile

universe u v

/-- A field of a memory: what is put there is found there, and putting back what is there changes
nothing. -/
structure MemoryField (M : Type u) (V : Type v) where
  get : M → V
  put : V → M → M
  get_put : ∀ value memory, get (put value memory) = value
  put_get : ∀ memory, put (get memory) memory = memory

namespace MemoryField

/-- What is put into the field is not seen in the other one. -/
def Apart {M : Type u} {V : Type v} (field other : MemoryField M V) : Prop :=
  ∀ value memory, other.get (field.put value memory) = other.get memory

end MemoryField

namespace EagerLoad

variable {M : Type u} {V : Type v}

/-- Put each value into its field as soon as it is read, until a read fails. -/
def load : List (MemoryField M V × Option V) → M → M × Bool
  | [], memory => (memory, true)
  | (_, none) :: _, memory => (memory, false)
  | (field, some value) :: rest, memory => load rest (field.put value memory)

/-- Each field holds what was read for it. -/
def Loaded (reads : List (MemoryField M V × Option V)) (memory : M) : Prop :=
  ∀ read ∈ reads, read.2 = some (read.1.get memory)

/-- A read fails, and a value that is not in the memory is read before. -/
def Mixed (reads : List (MemoryField M V × Option V)) (memory : M) : Prop :=
  (∃ read ∈ reads, read.2 = none) ∧ ¬ Loaded (reads.takeWhile (·.2.isSome)) memory

/-- What is put into the field of a read is not seen in those of the reads before it. -/
def Separate (reads : List (MemoryField M V × Option V)) : Prop :=
  reads.Pairwise fun earlier later => later.1.Apart earlier.1

theorem loaded_cons_iff (read : MemoryField M V × Option V)
    (rest : List (MemoryField M V × Option V)) (memory : M) :
    Loaded (read :: rest) memory ↔ read.2 = some (read.1.get memory) ∧ Loaded rest memory :=
  List.forall_mem_cons

/-- A load succeeds exactly if no read fails. -/
theorem load_snd_iff (reads : List (MemoryField M V × Option V)) (memory : M) :
    (load reads memory).2 = true ↔ ∀ read ∈ reads, read.2 ≠ none := by
  induction reads generalizing memory with
  | nil => exact iff_of_true rfl fun _ hmem => absurd hmem List.not_mem_nil
  | cons read rest ih =>
      rw [List.forall_mem_cons]
      rcases read with ⟨field, _ | value⟩
      · exact iff_of_false (by rintro ⟨⟩) fun hall => hall.1 rfl
      · rw [load, ih, and_iff_right (Option.some_ne_none value)]

/-- A field that the load does not meet. -/
theorem get_load {reads : List (MemoryField M V × Option V)} {other : MemoryField M V}
    (happart : ∀ read ∈ reads, read.1.Apart other) (memory : M) :
    other.get (load reads memory).1 = other.get memory := by
  induction reads generalizing memory with
  | nil => rfl
  | cons read rest ih =>
      rcases read with ⟨field, _ | value⟩
      · rfl
      · rw [load, ih fun read hmem => happart read (List.mem_cons_of_mem _ hmem)]
        exact happart _ List.mem_cons_self value memory

section Separated

variable {reads : List (MemoryField M V × Option V)} (hseparate : Separate reads) (memory : M)
include hseparate

/-- Behind a load, what was read before the first failure is in the memory. -/
theorem loaded_load : Loaded (reads.takeWhile (·.2.isSome)) (load reads memory).1 := by
  induction reads generalizing memory with
  | nil => exact fun _ hmem => absurd hmem List.not_mem_nil
  | cons read rest ih =>
      rcases List.pairwise_cons.mp hseparate with ⟨happart, hrest⟩
      rcases read with ⟨field, _ | value⟩
      · exact fun _ hmem => absurd hmem List.not_mem_nil
      · rw [List.takeWhile_cons_of_pos rfl, loaded_cons_iff, load, get_load happart,
          field.get_put]
        exact ⟨rfl, ih hrest _⟩

/-- **Unchanged.** A load leaves the memory as it is exactly if it holds what is read before the
first failure. -/
theorem load_fst_eq_iff :
    (load reads memory).1 = memory ↔ Loaded (reads.takeWhile (·.2.isSome)) memory := by
  apply Iff.intro
  · intro hsame
    have hloaded := loaded_load hseparate memory
    rwa [hsame] at hloaded
  · intro hloaded
    induction reads with
    | nil => rfl
    | cons read rest ih =>
        rcases read with ⟨field, _ | value⟩
        · rfl
        · rw [List.takeWhile_cons_of_pos rfl, loaded_cons_iff] at hloaded
          have hvalue : value = field.get memory := Option.some.inj hloaded.1
          rw [load, hvalue, field.put_get]
          exact ih (List.pairwise_cons.mp hseparate).2 hloaded.2

/-- A load that succeeds has loaded every field. -/
theorem loaded_of_success (hsuccess : (load reads memory).2 = true) :
    Loaded reads (load reads memory).1 := by
  have hwhole : reads.takeWhile (·.2.isSome) = reads := by
    rw [List.takeWhile_eq_self_iff]
    intro read hmem
    exact Option.isSome_iff_ne_none.mpr ((load_snd_iff reads memory).mp hsuccess read hmem)
  have hloaded := loaded_load hseparate memory
  rwa [hwhole] at hloaded

/-- **All or nothing.** A load succeeds, or fails and leaves the memory as it is, exactly if it
does not mix. -/
theorem load_iff :
    (load reads memory).2 = true ∨
        ((load reads memory).2 = false ∧ (load reads memory).1 = memory) ↔
      ¬ Mixed reads memory := by
  rw [← Bool.not_eq_true, load_snd_iff, load_fst_eq_iff hseparate, Mixed]
  by_cases hall : ∀ read ∈ reads, read.2 ≠ none
  · apply iff_of_true (.inl hall)
    rintro ⟨⟨read, hmem, hnone⟩, -⟩
    exact hall read hmem hnone
  · have hfails : ∃ read ∈ reads, read.2 = none := by
      by_contra hnone
      exact hall fun read hmem hread => hnone ⟨read, hmem, hread⟩
    rw [or_iff_right hall, and_iff_right hall, and_iff_right hfails, not_not]

end Separated

end EagerLoad
