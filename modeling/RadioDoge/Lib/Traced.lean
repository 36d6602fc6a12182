/-
# Computations that leave a trace

A traced computation returns a value and the list of events it went through, in
order. The value never depends on the events, so a model written this way can be
read twice: once for what it computes, and once for what it touched or emitted
on the way. `Every` is the reading used for safety: a predicate that holds of
each event of the computation.

A counted loop is `forUpTo`. Its two rules are the only ones a proof needs: an
invariant rule for the value, and a pointwise rule for the events.
-/

import Mathlib.Tactic

universe u v w

/-- A value together with the events met while computing it. -/
structure Traced (ε : Type u) (α : Type v) where
  /-- What the computation returns. -/
  val : α
  /-- What it went through, oldest first. -/
  trace : List ε

namespace Traced

variable {ε : Type u} {α β σ : Type v}

instance : Monad (Traced ε) where
  pure value := ⟨value, []⟩
  bind first next := ⟨(next first.val).val, first.trace ++ (next first.val).trace⟩

/-- Record one event. -/
def emit (event : ε) : Traced ε PUnit.{v + 1} := ⟨⟨⟩, [event]⟩

/-- Record a list of events, in order. -/
def emitAll (events : List ε) : Traced ε PUnit.{v + 1} := ⟨⟨⟩, events⟩

@[simp]
theorem val_pure (value : α) : (pure value : Traced ε α).val = value := rfl

@[simp]
theorem trace_pure (value : α) : (pure value : Traced ε α).trace = [] := rfl

@[simp]
theorem val_bind (first : Traced ε α) (next : α → Traced ε β) :
    (first >>= next).val = (next first.val).val := rfl

@[simp]
theorem trace_bind (first : Traced ε α) (next : α → Traced ε β) :
    (first >>= next).trace = first.trace ++ (next first.val).trace := rfl

@[simp]
theorem trace_emit (event : ε) :
    (emit event : Traced ε PUnit.{v + 1}).trace = [event] := rfl

@[simp]
theorem val_ite (c : Prop) [Decidable c] (first second : Traced ε α) :
    (if c then first else second).val = if c then first.val else second.val := by
  split <;> rfl

theorem pure_bind (value : α) (next : α → Traced ε β) : (pure value >>= next) = next value := rfl

theorem bind_assoc {γ : Type v} (first : Traced ε α) (next : α → Traced ε β)
    (last : β → Traced ε γ) :
    (first >>= next >>= last) = (first >>= fun value => next value >>= last) :=
  congrArg (Traced.mk _) (List.append_assoc _ _ _)

/-! ## Predicates on the trace -/

/-- Every event of the computation satisfies `P`. -/
def Every (P : ε → Prop) (x : Traced ε α) : Prop := ∀ event ∈ x.trace, P event

@[simp]
theorem every_pure (P : ε → Prop) (value : α) : Every P (pure value) := by
  simp [Every]

@[simp]
theorem every_emit (P : ε → Prop) (event : ε) :
    Every P (emit event : Traced ε PUnit.{v + 1}) ↔ P event := by
  simp [Every]

@[simp]
theorem every_emitAll (P : ε → Prop) (events : List ε) :
    Every P (emitAll events : Traced ε PUnit.{v + 1}) ↔ ∀ event ∈ events, P event :=
  Iff.rfl

@[simp]
theorem every_bind (P : ε → Prop) (first : Traced ε α) (next : α → Traced ε β) :
    Every P (first >>= next) ↔ Every P first ∧ Every P (next first.val) := by
  simp [Every, or_imp, forall_and]

@[simp]
theorem every_ite (P : ε → Prop) (c : Prop) [Decidable c] (first second : Traced ε α) :
    Every P (if c then first else second) ↔
      (c → Every P first) ∧ (¬ c → Every P second) := by
  split <;> simp [*]

/-! ## Counted loops -/

/-- `for (i = 0; i < n; i++) state = body i state`. -/
def forUpTo (body : Nat → σ → Traced ε σ) (init : σ) : Nat → Traced ε σ
  | 0 => pure init
  | n + 1 => forUpTo body init n >>= body n

@[simp]
theorem forUpTo_zero (body : Nat → σ → Traced ε σ) (init : σ) :
    forUpTo body init 0 = pure init := rfl

theorem forUpTo_succ (body : Nat → σ → Traced ε σ) (init : σ) (n : Nat) :
    forUpTo body init (n + 1) = forUpTo body init n >>= body n := rfl

/-- What holds before the loop and is kept by each turn holds after it. -/
theorem forUpTo_invariant (body : Nat → σ → Traced ε σ) (init : σ)
    (I : Nat → σ → Prop) (n : Nat) (start : I 0 init)
    (turn : ∀ i state, i < n → I i state → I (i + 1) (body i state).val) :
    I n (forUpTo body init n).val := by
  induction n with
  | zero => exact start
  | succ n ih =>
      have before := ih fun i state hi => turn i state (Nat.lt_succ_of_lt hi)
      exact turn n _ (Nat.lt_succ_self n) before

/-- The events of a loop are the events of its turns. -/
theorem every_forUpTo (P : ε → Prop) (body : Nat → σ → Traced ε σ) (init : σ) (n : Nat) :
    Every P (forUpTo body init n) ↔
      ∀ i < n, Every P (body i (forUpTo body init i).val) := by
  induction n with
  | zero => simp [forUpTo]
  | succ n ih =>
      rw [forUpTo_succ, every_bind, ih]
      constructor
      · rintro ⟨earlier, last⟩ i hi
        rcases Nat.lt_succ_iff_lt_or_eq.mp hi with hlt | rfl
        · exact earlier i hlt
        · exact last
      · intro all
        exact ⟨fun i hi => all i (Nat.lt_succ_of_lt hi), all n (Nat.lt_succ_self n)⟩

end Traced
