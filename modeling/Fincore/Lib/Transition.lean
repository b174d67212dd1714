import Mathlib.Data.List.Basic

/-
  Runs of a system given by a step function.

  A system is a partial function `step : σ → ι → Option σ` from a state and a label to the next
  state; `none` says that the label is not enabled. A schedule is a list of labels.

  Main declarations:
    * `Transition.run`
    * `Transition.Meets`
    * `Transition.run_induction`
    * `Transition.run_induction_of_meets`
    * `Transition.trace`
    * `Transition.trace_induction`
-/

----
-- Runs
----

namespace Transition

variable {σ ι : Type}

/- Follow a schedule, stopping at the first refused label. -/
def run (step : σ → ι → Option σ) : σ → List ι → Option σ
| s, [] => some s
| s, a :: as =>
  match step s a with
  | none => none
  | some s' => run step s' as

/-
  Every step the schedule takes meets `cond`, which looks at the state before the step and at its
  label.
-/
def Meets (step : σ → ι → Option σ) (cond : σ → ι → Prop) : σ → List ι → Prop
| _, [] => True
| s, a :: as =>
  cond s a ∧
    match step s a with
    | none => True
    | some s' => Meets step cond s' as

instance decidableMeets (step : σ → ι → Option σ) (cond : σ → ι → Prop)
    [∀ s a, Decidable (cond s a)] : (s : σ) → (as : List ι) → Decidable (Meets step cond s as)
| _, [] => .isTrue trivial
| s, a :: as =>
  have : Decidable (match step s a with
      | none => True
      | some s' => Meets step cond s' as) :=
    match step s a with
    | none => .isTrue trivial
    | some s' => decidableMeets step cond s' as
  inferInstanceAs (Decidable (_ ∧ _))

variable {step : σ → ι → Option σ}

variable {as : List ι}

theorem run_cons_eq_some {s s' : σ} {a : ι} (hRun : run step s (a :: as) = some s') :
    ∃ t, step s a = some t ∧ run step t as = some s' := by
  cases hStep : step s a with
  | none => simp [run, hStep] at hRun
  | some t =>
    refine ⟨t, rfl, ?_⟩
    simpa [run, hStep] using hRun

theorem meets_of_forall {cond : ι → Prop} (hAll : ∀ a ∈ as, cond a) (s : σ) :
    Meets step (fun _ a => cond a) s as := by
  induction as generalizing s with
  | nil => trivial
  | cons a as ih =>
    refine ⟨hAll a List.mem_cons_self, ?_⟩
    cases step s a with
    | none => trivial
    | some t =>
      exact ih (fun b hMem =>
        hAll b (List.mem_cons_of_mem a hMem)) t

/- A schedule can be cut at any point. -/
theorem run_append (s : σ) (as bs : List ι) : run step s (as ++ bs) =
    (run step s as).bind (fun t => run step t bs) := by
  induction as generalizing s with
  | nil => rfl
  | cons a as ih =>
    cases hStep : step s a with
    | none => simp [run, hStep]
    | some t => simp [run, hStep, ih]

----
-- Invariants
----

/-
  What every step meeting `cond` preserves holds at the end of every run whose steps all meet it.
-/
theorem run_induction_of_meets {cond : σ → ι → Prop} {Inv : σ → Prop}
    (hStep : ∀ s a s', Inv s → cond s a → step s a = some s' → Inv s')
    {s s' : σ} (hInv : Inv s) (hMeets : Meets step cond s as)
    (hRun : run step s as = some s') : Inv s' := by
  induction as generalizing s with
  | nil =>
    cases hRun
    exact hInv
  | cons a as ih =>
    rcases run_cons_eq_some hRun with ⟨t, hFirst, hRest⟩
    have hLater : Meets step cond t as := by
      have hSecond := hMeets.2
      simpa only [hFirst] using hSecond
    exact ih (hStep s a t hInv hMeets.1 hFirst) hLater hRest

/- A condition that follows from another along a run. -/
theorem Meets.imp {cond cond' : σ → ι → Prop} {Inv : σ → Prop}
    (hStep : ∀ s a, Inv s → cond s a → cond' s a ∧ ∀ s', step s a = some s' → Inv s') {s : σ}
    (hInv : Inv s) (hMeets : Meets step cond s as) : Meets step cond' s as := by
  induction as generalizing s with
  | nil => trivial
  | cons a as ih =>
    rcases hStep s a hInv hMeets.1 with ⟨hCond, hNext⟩
    refine ⟨hCond, ?_⟩
    have hSecond := hMeets.2
    cases hTaken : step s a with
    | none => trivial
    | some t =>
      rw [hTaken] at hSecond
      exact ih (hNext t hTaken) hSecond

/- What every step preserves holds at the end of a run. -/
theorem run_induction {Inv : σ → Prop}
    (hStep : ∀ s a s', Inv s → step s a = some s' → Inv s') {s s' : σ} (hInv : Inv s)
    (hRun : run step s as = some s') : Inv s' := by
  induction as generalizing s with
  | nil =>
    cases hRun
    exact hInv
  | cons a as ih =>
    rcases run_cons_eq_some hRun with ⟨t, hFirst, hRest⟩
    exact ih (hStep s a t hInv hFirst) hRest

----
-- Observed Runs
----

variable {β : Type}

/- What is observed of the steps that a schedule takes. -/
def trace (step : σ → ι → Option σ) (obs : σ → ι → Option β) : σ → List ι → List β
| _, [] => []
| s, a :: as =>
  match step s a with
  | none => []
  | some s' => (obs s a).toList ++ trace step obs s' as

variable {step : σ → ι → Option σ} {obs : σ → ι → Option β}

theorem trace_cons {s t : σ} {a : ι} (hStep : step s a = some t) (as : List ι) :
    trace step obs s (a :: as) = (obs s a).toList ++ trace step obs t as := by
  rw [trace, hStep]

/- An invariant of the state and of what was observed. -/
theorem trace_induction {cond : σ → ι → Prop} {Inv : List β → σ → Prop}
    (hStep : ∀ os s a s', Inv os s → cond s a → step s a = some s' →
    Inv (os ++ (obs s a).toList) s') {s s' : σ}
    {os : List β} (hInv : Inv os s) (hMeets : Meets step cond s as)
    (hRun : run step s as = some s') : Inv (os ++ trace step obs s as) s' := by
  induction as generalizing s os with
  | nil =>
    cases hRun
    rw [trace, List.append_nil]
    exact hInv
  | cons a as ih =>
    rcases run_cons_eq_some hRun with ⟨t, hFirst, hRest⟩
    have hLater : Meets step cond t as := by
      have hSecond := hMeets.2
      simpa only [hFirst] using hSecond
    rw [trace_cons hFirst, ← List.append_assoc]
    exact ih (hStep os s a t hInv hMeets.1 hFirst) hLater hRest

end Transition
