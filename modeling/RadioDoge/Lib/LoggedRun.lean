/-
# Machines that keep a log

A machine takes one input after the other, changes its state and adds entries to a log. What
one step preserves of state and log together, a run preserves; and a property of all logs on
the way that one step decides by itself is decided step by step.
-/

import Mathlib.Tactic

universe u v w

namespace LoggedRun

variable {S : Type u} {I : Type v} {E : Type w} (step : S → I → S × List E)

/-- The state after the inputs, and everything that was logged, oldest first. -/
def run (s : S) : List I → S × List E
  | [] => (s, [])
  | input :: rest =>
      ((run (step s input).1 rest).1, (step s input).2 ++ (run (step s input).1 rest).2)

/-- One more input. -/
theorem run_concat (s : S) (inputs : List I) (input : I) :
    run step s (inputs ++ [input]) =
      ((step (run step s inputs).1 input).1,
        (run step s inputs).2 ++ (step (run step s inputs).1 input).2) := by
  induction inputs generalizing s with
  | nil =>
      change (_, (step s input).2 ++ []) = _
      rw [List.append_nil]
      rfl
  | cons first rest ih =>
      rw [List.cons_append, run, ih, run, List.append_assoc]

/-- The next prefix of a list of inputs. -/
theorem run_take_succ (s : S) {inputs : List I} {n : Nat} {input : I}
    (hinput : inputs[n]? = some input) :
    run step s (inputs.take (n + 1)) =
      ((step (run step s (inputs.take n)).1 input).1,
        (run step s (inputs.take n)).2 ++ (step (run step s (inputs.take n)).1 input).2) := by
  rw [List.take_add_one, hinput, Option.toList_some, run_concat]

/-- Inputs in two stretches. -/
theorem run_append (s : S) (first second : List I) :
    run step s (first ++ second) =
      ((run step (run step s first).1 second).1,
        (run step s first).2 ++ (run step (run step s first).1 second).2) := by
  induction first generalizing s with
  | nil => rfl
  | cons input rest ih => rw [List.cons_append, run, ih, run, List.append_assoc]

/-- A machine that takes a stretch of inputs at a time. -/
theorem run_flatMap {T : Type*} (inputs : T → List I) (s : S) (stretches : List T) :
    run (fun s stretch => run step s (inputs stretch)) s stretches =
      run step s (stretches.flatMap inputs) := by
  induction stretches generalizing s with
  | nil => rfl
  | cons stretch rest ih => rw [run, ih, List.flatMap_cons, run_append]

section Invariants

variable {step} {s : S}

/-- **Runs preserve what a step preserves.** -/
theorem run_induction {P : S → List E → Prop} {inputs : List I} (hstart : P s [])
    (hstep : ∀ s log, ∀ input ∈ inputs, P s log → P (step s input).1 (log ++ (step s input).2)) :
    P (run step s inputs).1 (run step s inputs).2 := by
  induction inputs using List.reverseRecOn with
  | nil => exact hstart
  | append_singleton inputs input ih =>
      rw [run_concat]
      apply hstep
      · exact List.mem_append_right _ List.mem_cons_self
      · apply ih
        intro s log earlier hmem
        exact hstep s log earlier (List.mem_append_left _ hmem)

/-- **Step by step.** If a property of the inputs so far, of the state and of the log survives a
step exactly when the step meets a condition, it holds all along a run exactly when every step of
the run meets the condition. -/
theorem forall_take_iff (Q : List I → S → List E → Prop) (R : S → I → Prop) {inputs : List I}
    (hstart : Q [] s [])
    (hstep : ∀ before s log, ∀ input ∈ inputs, Q before s log →
      (Q (before ++ [input]) (step s input).1 (log ++ (step s input).2) ↔ R s input)) :
    (∀ n, Q (inputs.take n) (run step s (inputs.take n)).1 (run step s (inputs.take n)).2) ↔
      ∀ n input, inputs[n]? = some input → R (run step s (inputs.take n)).1 input := by
  have hsucc : ∀ n input, inputs[n]? = some input →
      inputs.take (n + 1) = inputs.take n ++ [input] := by
    intro n input hinput
    rw [List.take_add_one, hinput, Option.toList_some]
  apply Iff.intro
  · intro hall n input hinput
    have hnext := hall (n + 1)
    rw [run_take_succ step s hinput, hsucc n input hinput] at hnext
    exact (hstep _ _ _ input (List.mem_of_getElem? hinput) (hall n)).mp hnext
  · intro hcond n
    induction n with
    | zero => exact hstart
    | succ n ih =>
        cases hinput : inputs[n]? with
        | none =>
            rw [List.take_of_length_le (Nat.le_succ_of_le (List.getElem?_eq_none_iff.mp hinput))]
            rwa [List.take_of_length_le (List.getElem?_eq_none_iff.mp hinput)] at ih
        | some input =>
            rw [run_take_succ step s hinput, hsucc n input hinput]
            exact (hstep _ _ _ input (List.mem_of_getElem? hinput) ih).mpr (hcond n input hinput)

/-- **Along the log.** If every step keeps an invariant, and lets the log keep a property exactly
when the step meets a condition, then the log of a run has the property exactly if every step of
the run meets the condition. -/
theorem run_iff (Inv : S → List E → Prop) (P : List E → Prop) (R : S → I → Prop)
    {inputs : List I}
    (hinv : ∀ s log, ∀ input ∈ inputs, Inv s log →
      Inv (step s input).1 (log ++ (step s input).2))
    (hstep : ∀ s log, ∀ input ∈ inputs, Inv s log →
      (P (log ++ (step s input).2) ↔ P log ∧ R s input))
    {log : List E} (hstart : Inv s log) :
    P (log ++ (run step s inputs).2) ↔
      P log ∧ ∀ n input, inputs[n]? = some input → R (run step s (inputs.take n)).1 input := by
  induction inputs generalizing s log with
  | nil =>
      rw [run, List.append_nil, iff_self_and]
      intro _ n input hinput
      cases hinput
  | cons first rest ih =>
      have hrest := ih (fun s log input hmem => hinv s log input (List.mem_cons_of_mem _ hmem))
        (fun s log input hmem => hstep s log input (List.mem_cons_of_mem _ hmem))
        (hinv s log first List.mem_cons_self hstart)
      rw [run, ← List.append_assoc, hrest, hstep s log first List.mem_cons_self hstart, and_assoc,
        and_congr_right_iff]
      intro _
      apply Iff.intro
      · intro h n input hinput
        cases n with
        | zero =>
            rcases Option.some.inj hinput with rfl
            exact h.1
        | succ n => exact h.2 n input hinput
      · intro hall
        exact ⟨hall 0 first rfl, fun n input hinput => hall (n + 1) input hinput⟩

end Invariants

/-! ## Parts of the state that inputs write -/

section Writes

variable {α : Type*}

/-- What the last of the inputs that write a part of the state writes there, or else what the
part held before. -/
def lastWrite (writes : I → Option α) (before : α) (inputs : List I) : α :=
  (inputs.filterMap writes).getLast?.getD before

theorem lastWrite_concat (writes : I → Option α) (before : α) (inputs : List I) (input : I) :
    lastWrite writes before (inputs ++ [input]) =
      (writes input).getD (lastWrite writes before inputs) := by
  rw [lastWrite, List.filterMap_append, List.filterMap_cons, List.filterMap_nil]
  cases writes input with
  | none =>
      rw [List.append_nil]
      rfl
  | some value =>
      rw [List.getLast?_concat]
      rfl

variable {step}

/-- **The last write.** A part that each input writes, with a value of its own, or leaves alone,
holds what the last write put there. -/
theorem read_run (read : S → α) {writes : I → Option α}
    (hstep : ∀ s input, read (step s input).1 = (writes input).getD (read s)) (s : S)
    (inputs : List I) : read (run step s inputs).1 = lastWrite writes (read s) inputs := by
  induction inputs using List.reverseRecOn with
  | nil => rfl
  | append_singleton inputs input ih => rw [run_concat, lastWrite_concat, ← ih, hstep]

/-- A property of the state that each input decides or keeps is decided by the last input that
does. -/
theorem holds_run_iff (P : S → Prop) {decides : I → Option Prop}
    (hstep : ∀ s input, P (step s input).1 ↔ (decides input).getD (P s)) (s : S)
    (inputs : List I) : P (run step s inputs).1 ↔ lastWrite decides (P s) inputs :=
  iff_of_eq (read_run P (fun s input => propext (hstep s input)) s inputs)

end Writes

end LoggedRun
