/-
# Arrays of the hub

The hub runs on a checked runtime: an index outside an array, a negative array size
and a copy that does not fit raise an exception. Nothing on the path of a received
packet catches one, so a computation that raises one takes the program down.
-/

import RadioDoge.Arduino

namespace RadioDoge.Sharp

/-- The exceptions that array code raises. -/
inductive SystemException
  | indexOutOfRange
  | overflow
  | argument
  deriving DecidableEq, Repr

/-- Computations that may throw. -/
abbrev Throws := Except SystemException

/-- The computation does not throw. -/
def Completes {α : Type} (x : Throws α) : Prop := ∃ value, x = .ok value

/-- `array[i]`. -/
def index (array : Bytes) (i : Nat) : Throws UInt8 :=
  match array[i]? with
  | some byte => .ok byte
  | none => .error .indexOutOfRange

/-- `new byte[length]`, filled by `Array.Copy(source, sourceIndex, .., 0, length)`. -/
def copyOut (source : Bytes) (sourceIndex : Nat) (length : Int) : Throws Bytes :=
  if length < 0 then .error .overflow
  else if sourceIndex + length.toNat ≤ source.length then
    .ok ((source.drop sourceIndex).take length.toNat)
  else .error .argument

section Completing

variable {α β : Type}

@[simp]
theorem completes_ok (value : α) : Completes (.ok value : Throws α) := ⟨value, rfl⟩

@[simp]
theorem completes_pure (value : α) : Completes (pure value : Throws α) := ⟨value, rfl⟩

@[simp]
theorem not_completes_error (e : SystemException) : ¬ Completes (.error e : Throws α) := by
  rintro ⟨value, h⟩
  cases h

/-- A sequence completes if its first part does and the second does from there. -/
theorem completes_bind (x : Throws α) (f : α → Throws β) :
    Completes (x >>= f) ↔ ∃ value, x = .ok value ∧ Completes (f value) := by
  cases x with
  | error e => exact iff_of_false (not_completes_error e) fun ⟨value, h, _⟩ => by cases h
  | ok value =>
      constructor
      · intro h
        exact ⟨value, rfl, h⟩
      · rintro ⟨other, heq, h⟩
        obtain rfl := Except.ok.inj heq
        exact h

@[simp]
theorem bind_ok (value : α) (f : α → Throws β) : ((.ok value : Throws α) >>= f) = f value := rfl

@[simp]
theorem completes_map (x : Throws α) (f : α → β) : Completes (f <$> x) ↔ Completes x := by
  cases x with
  | error e => exact iff_of_false (not_completes_error e) (not_completes_error e)
  | ok value => exact iff_of_true ⟨f value, rfl⟩ ⟨value, rfl⟩

@[simp]
theorem completes_bind_pure (x : Throws α) (f : α → β) :
    Completes (x >>= fun value => pure (f value)) ↔ Completes x := by
  cases x with
  | error e => exact iff_of_false (not_completes_error e) (not_completes_error e)
  | ok value => exact iff_of_true ⟨f value, rfl⟩ ⟨value, rfl⟩

theorem index_eq_ok {array : Bytes} {i : Nat} (h : i < array.length) :
    index array i = .ok array[i] := by
  rw [index, List.getElem?_eq_getElem h]

@[simp]
theorem completes_index (array : Bytes) (i : Nat) :
    Completes (index array i) ↔ i < array.length := by
  rw [index]
  by_cases h : i < array.length
  · rw [List.getElem?_eq_getElem h]
    exact iff_of_true ⟨_, rfl⟩ h
  · rw [List.getElem?_eq_none (Nat.le_of_not_lt h)]
    exact iff_of_false (not_completes_error _) h

/-- What a copy that fits returns. -/
theorem copyOut_eq_ok {source : Bytes} {sourceIndex length : Nat}
    (hfits : sourceIndex + length ≤ source.length) :
    copyOut source sourceIndex length = .ok ((source.drop sourceIndex).take length) := by
  have hsign : ¬ (length : Int) < 0 := by omega
  rw [copyOut, if_neg hsign, Int.toNat_natCast, if_pos hfits]

@[simp]
theorem completes_copyOut (source : Bytes) (sourceIndex : Nat) (length : Int) :
    Completes (copyOut source sourceIndex length) ↔
      0 ≤ length ∧ sourceIndex + length.toNat ≤ source.length := by
  rw [copyOut]
  by_cases hsign : length < 0
  · rw [if_pos hsign]
    exact iff_of_false (not_completes_error _) fun h => by omega
  · rw [if_neg hsign]
    by_cases hfits : sourceIndex + length.toNat ≤ source.length
    · rw [if_pos hfits]
      exact iff_of_true ⟨_, rfl⟩ ⟨by omega, hfits⟩
    · rw [if_neg hfits]
      exact iff_of_false (not_completes_error _) fun h => hfits h.2

end Completing

end RadioDoge.Sharp
