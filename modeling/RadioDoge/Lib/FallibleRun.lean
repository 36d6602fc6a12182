/-
# Machines that may fail

A machine takes one input after the other, changes its state and puts out results, and may fail.
Two machines in series hand the results of the first to the second; a run of both that does not
fail is a run of the first and one of the second. Inputs that leave the state as it is can be taken
at any time: what the other inputs put out does not depend on them.
-/

import Mathlib.Tactic

universe u v w x

namespace FallibleRun

/-- Two steps do not fail if the first does not, and the second does not from there. -/
theorem bind_eq_ok {F : Type x} {A B : Type v} (first : Except F A) (second : A → Except F B)
    {result : B} :
    (first >>= second) = .ok result ↔ ∃ value, first = .ok value ∧ second value = .ok result := by
  cases first with
  | error failure => exact iff_of_false (fun h => by cases h) fun ⟨_, h, _⟩ => by cases h
  | ok value =>
      apply Iff.intro
      · exact fun h => ⟨value, rfl, h⟩
      · rintro ⟨other, hsame, h⟩
        rw [Except.ok.inj hsame]
        exact h

section Runs

variable {F : Type x} {S : Type u} {I : Type v} {E : Type w} (step : S → I → Except F (S × List E))

/-- The state after the inputs, and everything that was put out. -/
def run (s : S) : List I → Except F (S × List E)
  | [] => .ok (s, [])
  | input :: rest => do
      let first ← step s input
      let later ← run first.1 rest
      .ok (later.1, first.2 ++ later.2)

/-- A run that does not fail, by its first step. -/
theorem run_cons_eq_ok {s s' : S} {input : I} {rest : List I} {log : List E} :
    run step s (input :: rest) = .ok (s', log) ↔
      ∃ between first later, step s input = .ok (between, first) ∧
        run step between rest = .ok (s', later) ∧ log = first ++ later := by
  rw [run, bind_eq_ok]
  apply Iff.intro
  · rintro ⟨⟨between, first⟩, hfirst, hrest⟩
    rcases (bind_eq_ok _ _).mp hrest with ⟨⟨last, later⟩, hlater, hpair⟩
    rcases Prod.mk.inj (Except.ok.inj hpair) with ⟨rfl, rfl⟩
    exact ⟨between, first, later, hfirst, hlater, rfl⟩
  · rintro ⟨between, first, later, hfirst, hlater, rfl⟩
    exact ⟨(between, first), hfirst, (bind_eq_ok _ _).mpr ⟨(s', later), hlater, rfl⟩⟩

/-- Inputs in two stretches. -/
theorem run_append_eq_ok {first second : List I} :
    ∀ {s s' : S} {log : List E}, run step s (first ++ second) = .ok (s', log) ↔
      ∃ between before after, run step s first = .ok (between, before) ∧
        run step between second = .ok (s', after) ∧ log = before ++ after := by
  induction first with
  | nil =>
      intro s s' log
      apply Iff.intro
      · exact fun h => ⟨s, [], log, rfl, h, rfl⟩
      · rintro ⟨between, before, after, hbefore, hafter, rfl⟩
        rcases Prod.mk.inj (Except.ok.inj hbefore) with ⟨rfl, rfl⟩
        exact hafter
  | cons input rest ih =>
      intro s s' log
      rw [List.cons_append, run_cons_eq_ok]
      apply Iff.intro
      · rintro ⟨middle, out, later, hstep, hlater, rfl⟩
        rcases ih.mp hlater with ⟨between, before, after, hbefore, hafter, rfl⟩
        exact ⟨between, out ++ before, after, (run_cons_eq_ok step).mpr
          ⟨middle, out, before, hstep, hbefore, rfl⟩, hafter, (List.append_assoc _ _ _).symm⟩
      · rintro ⟨between, before, after, hbefore, hafter, rfl⟩
        rcases (run_cons_eq_ok step).mp hbefore with ⟨middle, out, later, hstep, hlater, rfl⟩
        exact ⟨middle, out, later ++ after, hstep,
          ih.mpr ⟨between, later, after, hlater, hafter, rfl⟩, List.append_assoc _ _ _⟩

/-- Inputs that are made from others. -/
theorem run_map {J : Type*} (f : J → I) (inputs : List J) :
    ∀ s, run step s (inputs.map f) = run (fun s input => step s (f input)) s inputs := by
  induction inputs with
  | nil => exact fun s => rfl
  | cons input rest ih =>
      intro s
      rw [List.map_cons, run, run]
      simp only [ih]

/-- Two machines that take the same steps have the same runs. -/
theorem run_equiv {T : Type*} {step' : T → I → Except F (T × List E)} (e : S ≃ T)
    (hstep : ∀ s s' input out, step s input = .ok (s', out) ↔
      step' (e s) input = .ok (e s', out)) {inputs : List I} :
    ∀ {s s' : S} {log : List E},
      run step s inputs = .ok (s', log) ↔ run step' (e s) inputs = .ok (e s', log) := by
  induction inputs with
  | nil =>
      intro s s' log
      apply Iff.intro
      · intro hrun
        rcases Prod.mk.inj (Except.ok.inj hrun) with ⟨rfl, rfl⟩
        rfl
      · intro hrun
        rcases Prod.mk.inj (Except.ok.inj hrun) with ⟨hsame, rfl⟩
        rw [e.injective hsame]
        rfl
  | cons input rest ih =>
      intro s s' log
      rw [run_cons_eq_ok, run_cons_eq_ok]
      apply Iff.intro
      · rintro ⟨between, first, later, hfirst, hlater, rfl⟩
        exact ⟨e between, first, later, (hstep _ _ _ _).mp hfirst, ih.mp hlater, rfl⟩
      · rintro ⟨between, first, later, hfirst, hlater, rfl⟩
        rcases e.surjective between with ⟨between, rfl⟩
        exact ⟨between, first, later, (hstep _ _ _ _).mpr hfirst, ih.mpr hlater, rfl⟩

end Runs

/-! ## Two machines in series -/

section Series

variable {F : Type x} {S : Type u} {T : Type u} {I J E : Type v}
  (first : S → I → Except F (S × List J)) (second : T → J → Except F (T × List E))

/-- One step of both: the second machine takes what the first one puts out. -/
def series (state : S × T) (input : I) : Except F ((S × T) × List E) := do
  let handed ← first state.1 input
  let out ← run second state.2 handed.2
  .ok ((handed.1, out.1), out.2)

theorem series_eq_ok {s s' : S} {t t' : T} {input : I} {out : List E} :
    series first second (s, t) input = .ok ((s', t'), out) ↔
      ∃ handed, first s input = .ok (s', handed) ∧ run second t handed = .ok (t', out) := by
  rw [series, bind_eq_ok]
  apply Iff.intro
  · rintro ⟨⟨between, handed⟩, hfirst, hrest⟩
    rcases (bind_eq_ok _ _).mp hrest with ⟨⟨last, log⟩, hsecond, hpair⟩
    rcases Prod.mk.inj (Except.ok.inj hpair) with ⟨hstate, rfl⟩
    rcases Prod.mk.inj hstate with ⟨rfl, rfl⟩
    exact ⟨handed, hfirst, hsecond⟩
  · rintro ⟨handed, hfirst, hsecond⟩
    exact ⟨(s', handed), hfirst, (bind_eq_ok _ _).mpr ⟨(t', out), hsecond, rfl⟩⟩

/-- **Machines in series.** A run of both is a run of the first, and one of the second on what
the first has put out. -/
theorem run_series_eq_ok {inputs : List I} :
    ∀ {s s' : S} {t t' : T} {log : List E},
      run (series first second) (s, t) inputs = .ok ((s', t'), log) ↔
        ∃ handed, run first s inputs = .ok (s', handed) ∧ run second t handed = .ok (t', log) := by
  induction inputs with
  | nil =>
      intro s s' t t' log
      apply Iff.intro
      · intro hrun
        rcases Prod.mk.inj (Except.ok.inj hrun) with ⟨hstate, rfl⟩
        rcases Prod.mk.inj hstate with ⟨rfl, rfl⟩
        exact ⟨[], rfl, rfl⟩
      · rintro ⟨handed, hfirst, hsecond⟩
        rcases Prod.mk.inj (Except.ok.inj hfirst) with ⟨rfl, rfl⟩
        rcases Prod.mk.inj (Except.ok.inj hsecond) with ⟨rfl, rfl⟩
        rfl
  | cons input rest ih =>
      intro s s' t t' log
      rw [run_cons_eq_ok]
      apply Iff.intro
      · rintro ⟨⟨s₁, t₁⟩, out, later, hstep, hlater, rfl⟩
        rcases (series_eq_ok first second).mp hstep with ⟨handed, hfirst, hsecond⟩
        rcases ih.mp hlater with ⟨handed', hfirst', hsecond'⟩
        exact ⟨handed ++ handed', (run_cons_eq_ok first).mpr ⟨s₁, handed, handed', hfirst, hfirst',
          rfl⟩, (run_append_eq_ok second).mpr ⟨t₁, out, later, hsecond, hsecond', rfl⟩⟩
      · rintro ⟨handed, hfirst, hsecond⟩
        rcases (run_cons_eq_ok first).mp hfirst with ⟨s₁, front, back, hone, hrest, rfl⟩
        rcases (run_append_eq_ok second).mp hsecond with ⟨t₁, out, later, hout, hlater, rfl⟩
        exact ⟨(s₁, t₁), out, later, (series_eq_ok first second).mpr ⟨front, hone, hout⟩,
          ih.mpr ⟨back, hrest, hlater⟩, rfl⟩

end Series

/-! ## Inputs that leave the state -/

section Interleaved

variable {F : Type x} {S : Type u} {A B : Type v} {E : Type w}
  (step : S → A ⊕ B → Except F (S × List E))

/-- **Interleaving.** Inputs of the second kind leave the state as it is. Wherever they stand
between those of the first kind, these put out what they do on their own, and the others what they
always do. -/
theorem run_interleaved {out : B → List E} {own : E → Bool}
    (htransparent : ∀ s b, step s (.inr b) = .ok (s, out b))
    (hown : ∀ s a s' log, step s (.inl a) = .ok (s', log) → ∀ e ∈ log, own e = true)
    (hother : ∀ b, ∀ e ∈ out b, own e = false) {inputs : List (A ⊕ B)} :
    ∀ {s s' : S} {alone : List E},
      run (fun s a => step s (.inl a)) s (inputs.filterMap Sum.getLeft?) = .ok (s', alone) →
      ∃ log, run step s inputs = .ok (s', log) ∧ log.filter own = alone ∧
        log.filter (fun e => !own e) = (inputs.filterMap Sum.getRight?).flatMap out := by
  induction inputs with
  | nil =>
      intro s s' alone hrun
      rcases Prod.mk.inj (Except.ok.inj hrun) with ⟨rfl, rfl⟩
      exact ⟨[], rfl, rfl, rfl⟩
  | cons input rest ih =>
      intro s s' alone hrun
      cases input with
      | inl a =>
          have hleft : (Sum.inl a :: rest).filterMap Sum.getLeft? =
              a :: rest.filterMap Sum.getLeft? := rfl
          have hright : (Sum.inl a :: rest).filterMap Sum.getRight? =
              rest.filterMap (Sum.getRight? : A ⊕ B → Option B) := rfl
          rw [hleft] at hrun
          rcases (run_cons_eq_ok _).mp hrun with ⟨between, first, later, hfirst, hlater, rfl⟩
          rcases ih hlater with ⟨log, hlog, hlogOwn, hlogOther⟩
          have hkept : first.filter own = first :=
            List.filter_eq_self.mpr (hown s a between first hfirst)
          have hdropped : first.filter (fun e => !own e) = [] := by
            rw [List.filter_eq_nil_iff]
            intro e hmem
            rw [hown s a between first hfirst e hmem]
            decide
          refine ⟨first ++ log, (run_cons_eq_ok step).mpr ⟨between, first, log, hfirst, hlog, rfl⟩,
            ?_, ?_⟩
          · rw [List.filter_append, hkept, hlogOwn]
          · rw [List.filter_append, hdropped, hlogOther, hright, List.nil_append]
      | inr b =>
          have hleft : (Sum.inr b :: rest).filterMap Sum.getLeft? =
              rest.filterMap (Sum.getLeft? : A ⊕ B → Option A) := rfl
          have hright : (Sum.inr b :: rest).filterMap Sum.getRight? =
              b :: rest.filterMap (Sum.getRight? : A ⊕ B → Option B) := rfl
          rw [hleft] at hrun
          rcases ih hrun with ⟨log, hlog, hlogOwn, hlogOther⟩
          have hdropped : (out b).filter own = [] := by
            rw [List.filter_eq_nil_iff]
            intro e hmem
            rw [hother b e hmem]
            decide
          have hkept : (out b).filter (fun e => !own e) = out b := by
            rw [List.filter_eq_self]
            intro e hmem
            rw [hother b e hmem]
            rfl
          refine ⟨out b ++ log, (run_cons_eq_ok step).mpr ⟨s, out b, log, htransparent s b, hlog,
            rfl⟩, ?_, ?_⟩
          · rw [List.filter_append, hdropped, hlogOwn, List.nil_append]
          · rw [List.filter_append, hkept, hlogOther, hright, List.flatMap_cons]

end Interleaved

end FallibleRun
