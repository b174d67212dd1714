import Fincore.Lib.Prog

/-
  Sagas: calls made one after another, where a call that fails is answered by further calls, made
  whatever comes of them, and ends the saga with its error.

  Key definitions include:
    * `Saga.attempt` and `Saga.bestEffort`
    * `Saga.Step` and `Saga.plan`
    * `Saga.Succeeds`
    * `Saga.BrokenAt`
    * `Saga.outcome` and `Saga.Answers`

  Main results:
    * `Saga.succeeds_of_plan_ok`
    * `Saga.succeeds_of_brokenAt`
    * `Saga.related_plan`
    * `Saga.alike_plan`
-/

----
-- Plans
----

namespace Saga

/- A program whose calls succeed or fail. -/
abbrev Plan (Call Err : Type) := Prog Call (fun _ => Except Err Unit) Err

variable {Call Err : Type}

/- Make a call and ignore what it answers. -/
def bestEffort (c : Call) : Plan Call Err Unit := .ask c (fun _ => .ret ())

/- Make a call; if it fails, clean up and fail with it. -/
def attempt (c : Call) (cleanUp : Err → Plan Call Err Unit) : Plan Call Err Unit :=
  .ask c fun
    | .ok () => .ret ()
    | .error e => do
        cleanUp e
        .fail e

/- A call, and the calls that answer its failure. -/
structure Step (Call Err : Type) where
  call : Call
  undo : Err → List Call

/- Several calls whose answers are ignored. -/
def bestEfforts : List Call → Plan Call Err Unit
| [] => .ret ()
| c :: cs => do
    bestEffort c
    bestEfforts cs

/- Attempt the steps one after another. -/
def plan : List (Step Call Err) → Plan Call Err Unit
| [] => .ret ()
| s :: rest => do
    attempt s.call (fun e => bestEfforts (s.undo e))
    plan rest

/- The end of a plan whose step failed. -/
def undoing (e : Err) (cs : List Call) : Plan Call Err Unit := do
  bestEfforts cs
  .fail e

theorem undoing_cons (e : Err) (c : Call) (cs : List Call) :
    undoing e (c :: cs) = .ask c (fun _ => undoing e cs) := rfl

/- Nothing comes after the failure. -/
theorem undoing_bind (e : Err) (cs : List Call)
    (f : Unit → Plan Call Err Unit) : (undoing e cs >>= f) = undoing e cs := by
  induction cs with
  | nil => rfl
  | cons c cs ih =>
    show Prog.ask c (fun _ => undoing e cs >>= f) = .ask c (fun _ => undoing e cs)
    rw [ih]

theorem plan_cons (s : Step Call Err) (rest : List (Step Call Err)) :
    plan (s :: rest) = .ask s.call fun
        | .ok () => plan rest
        | .error e => undoing e (s.undo e) := by
  show Prog.ask s.call _ = _
  congr 1
  funext r
  cases r with
  | ok u => rfl
  | error e => exact undoing_bind e (s.undo e) _

----
-- Runs
----

variable {W : Type} {serve : Call → W → Except Err Unit × W}

/- Served one after another, every call succeeds. -/
inductive Succeeds (serve : Call → W → Except Err Unit × W) : List Call → W → W → Prop where
  | nil (w : W) : Succeeds serve [] w w
  | cons {c : Call} {cs : List Call} {w w₁ w₂ : W}
      (hCall : serve c w = (.ok (), w₁)) (hRest : Succeeds serve cs w₁ w₂) :
      Succeeds serve (c :: cs) w w₂

variable {steps : List (Step Call Err)}

/- A plan that returns has made all its calls. -/
theorem succeeds_of_plan_ok {w w' : W} (hRun : (plan steps).runWith serve w = (.ok (), w')) :
    Succeeds serve (steps.map Step.call) w w' := by
  induction steps generalizing w with
  | nil =>
    have hSame : w = w' := congrArg Prod.snd hRun
    subst hSame
    exact .nil w
  | cons s rest ih =>
    rw [plan_cons, Prog.runWith_ask] at hRun
    rcases hServe : serve s.call w with ⟨r, w₁⟩
    rw [hServe] at hRun
    cases r with
    | ok u => exact .cons hServe (ih hRun)
    | error e =>
      exfalso
      -- The calls of the clean-up end in the failure.
      have hFail : ∀ cs v, ((undoing e cs : Plan Call Err Unit).runWith serve v).1 = .error e := by
        intro cs
        induction cs with
        | nil =>
          intro v
          rfl
        | cons c cs ihCalls =>
          intro v
          exact ihCalls (serve c v).2
      have hError := hFail (s.undo e) w₁
      have hOk : ((undoing e (s.undo e) : Plan Call Err Unit).runWith serve w₁).1 =
          .ok () := congrArg Prod.fst hRun
      rw [hOk] at hError
      cases hError

/-
  A trace breaks at its call number `n`: the calls before it succeeded, it failed, as `Broke` says
  of it, and the calls after it succeeded.
-/
structure BrokenAt (Broke : W → W → Prop) (n : Nat)
    (trace : List (Prog.Exchange Call (fun _ => Except Err Unit) W)) : Prop where
  before : ∀ x ∈ trace.take n, x.response = .ok ()
  broken : ∃ x rest, trace.drop n = x :: rest ∧ x.response ≠ .ok () ∧ Broke x.before x.after ∧
      ∀ y ∈ rest, y.response = .ok ()

variable {w : W} {cs : List Call}

/- If every call of a clean-up succeeds, so says the trace. -/
theorem succeeds_undoing {e : Err}
    (hOk : ∀ y ∈ (undoing e cs).exchanges serve w, y.response = .ok ()) :
    Succeeds serve cs w ((undoing e cs).runWith serve w).2 := by
  induction cs generalizing w with
  | nil => exact .nil w
  | cons c cs ih =>
    rw [undoing_cons] at hOk ⊢
    have hHead : (serve c w).1 = .ok () := hOk _ List.mem_cons_self
    refine .cons (Prod.ext hHead rfl) (ih ?_)
    intro y hMem
    exact hOk y (List.mem_cons_of_mem _ hMem)

/- What a run does whose trace breaks at a step. -/
theorem succeeds_of_brokenAt {Broke : W → W → Prop} {n : Nat}
    (hBroken : BrokenAt Broke n ((plan steps).exchanges serve w)) : ∃ s e w₁ w₂,
    steps[n]? = some s ∧ Succeeds serve ((steps.take n).map Step.call) w w₁ ∧
    Broke w₁ w₂ ∧ Succeeds serve (s.undo e) w₂ ((plan steps).runWith serve w).2 := by
  induction steps generalizing n w with
  | nil =>
    rcases hBroken.broken with ⟨x, rest, hDrop, _⟩
    have hNil : (plan ([] : List (Step Call Err))).exchanges serve w = [] := rfl
    rw [hNil, List.drop_nil] at hDrop
    cases hDrop
  | cons s rest ih =>
    rw [plan_cons] at hBroken ⊢
    rcases hServe : serve s.call w with ⟨r, w₁⟩
    rw [Prog.runWith_ask]
    unfold Prog.exchanges at hBroken
    rw [hServe] at hBroken ⊢
    cases n with
    | zero =>
      rcases hBroken.broken with ⟨x, after, hDrop, hNot, hBroke, hAfter⟩
      rw [List.drop_zero] at hDrop
      cases hDrop
      cases r with
      | ok u => exact absurd rfl hNot
      | error e =>
        exact ⟨s, e, w, w₁, rfl, .nil w, hBroke, succeeds_undoing hAfter⟩
    | succ n =>
      have hHead : r = .ok () := hBroken.before _ List.mem_cons_self
      subst hHead
      have hRest : BrokenAt Broke n ((plan rest).exchanges serve w₁) := by
        refine ⟨?_, hBroken.broken⟩
        intro y hMem
        exact hBroken.before y (List.mem_cons_of_mem _ hMem)
      rcases ih hRest with ⟨t, e, v₁, v₂, hAt, hFirst, hBroke, hUndo⟩
      exact ⟨t, e, v₁, v₂, hAt, .cons hServe hFirst, hBroke, hUndo⟩

----
-- Outcomes
----

variable {A B : Type}

/-
  The state a plan leaves, where a call has no error but only succeeds or fails, and the calls that
  answer its failure are known beforehand.
-/
def outcome (answer : A → B → Bool × B) : List (A × List A) → B → B
| [], b => b
| (c, undo) :: rest, b =>
  if (answer c b).1 then
    outcome answer rest (answer c b).2
  else
    undo.foldl (fun b c => (answer c b).2) (answer c b).2

theorem outcome_of_ok {answer : A → B → Bool × B} {c : A} {b b' : B}
    (hAnswer : answer c b = (true, b')) (undo : List A)
    (rest : List (A × List A)) : outcome answer ((c, undo) :: rest) b = outcome answer rest b' := by
  simp [outcome, hAnswer]

theorem outcome_of_failed {answer : A → B → Bool × B} {c : A} {b b' : B}
    (hAnswer : answer c b = (false, b')) (undo : List A)
    (rest : List (A × List A)) : outcome answer ((c, undo) :: rest) b =
    undo.foldl (fun b c => (answer c b).2) b' := by
  simp [outcome, hAnswer]

/- A call leaves related states related. -/
def Follows (R : W → B → Prop) (answer : A → B → Bool × B)
    (serve : Call → W → Except Err Unit × W) (c : Call) (c' : A) : Prop :=
  ∀ w b, R w b → R (serve c w).2 (answer c' b).2

/- And it succeeds exactly when the other call does. -/
structure Answers (R : W → B → Prop) (answer : A → B → Bool × B)
    (serve : Call → W → Except Err Unit × W) (c : Call) (c' : A) : Prop where
  follows : Follows R answer serve c c'
  succeeds : ∀ w b, R w b → ((serve c w).1 = .ok () ↔ (answer c' b).1 = true)

variable {R : W → B → Prop} {answer : A → B → Bool × B} {serve : Call → W → Except Err Unit × W}

/- Best efforts keep the states related. -/
theorem related_undoing {cs' : List A}
    (hCalls : List.Forall₂ (Follows R answer serve) cs cs') (e : Err)
    {b : B} (hRelated : R w b) : R ((undoing e cs).runWith serve w).2
    (cs'.foldl (fun b c => (answer c b).2) b) := by
  induction hCalls generalizing w b with
  | nil => exact hRelated
  | cons hCall _ ih => exact ih (hCall w b hRelated)

/- A plan leaves a state related to the outcome of the plan it stands for. -/
theorem related_plan {steps' : List (A × List A)}
    (hSteps : List.Forall₂
      (fun s s' =>
      Answers R answer serve s.call s'.1 ∧
      ∀ e, List.Forall₂ (Follows R answer serve) (s.undo e) s'.2)
      steps steps') {b : B} (hRelated : R w b) :
    R ((plan steps).runWith serve w).2 (outcome answer steps' b) := by
  induction hSteps generalizing w b with
  | nil => exact hRelated
  | @cons s s' rest rest' hStep _ ih =>
    rcases hStep with ⟨hCall, hUndo⟩
    have hNext := hCall.follows w b hRelated
    have hOk := hCall.succeeds w b hRelated
    rw [plan_cons, Prog.runWith_ask]
    unfold outcome
    revert hNext hOk
    rcases serve s.call w with ⟨r, w₁⟩
    intro hNext hOk
    cases r with
    | ok u =>
      rw [if_pos (hOk.mp rfl)]
      exact ih hNext
    | error e =>
      have hNot : ¬ (answer s'.1 b).1 = true := by
        intro hTrue
        cases hOk.mpr hTrue
      rw [if_neg hNot]
      exact related_undoing (hUndo e) e hNext

----
-- Plans That Differ In Their Clean-Up
----

theorem undoing_error (e : Err) (cs : List Call) (w : W) :
    ((undoing e cs).runWith serve w).1 = .error e := by
  induction cs generalizing w with
  | nil => rfl
  | cons c cs ih => exact ih (serve c w).2

/- Where the steps are served alike, plans return alike, and leave the same if they go through. -/
theorem alike_plan {Call' : Type} {serve' : Call' → W → Except Err Unit × W}
    {steps' : List (Step Call' Err)}
    (hAlike : List.Forall₂ (fun s s' => ∀ w, serve s.call w = serve' s'.call w) steps steps')
    (w : W) : ((plan steps).runWith serve w).1 = ((plan steps').runWith serve' w).1 ∧
    (((plan steps).runWith serve w).1 = .ok () →
    (plan steps).runWith serve w = (plan steps').runWith serve' w) := by
  induction hAlike generalizing w with
  | nil => exact ⟨rfl, fun _ => rfl⟩
  | @cons s s' rest rest' hStep _ ih =>
    rw [plan_cons, plan_cons, Prog.runWith_ask, Prog.runWith_ask, hStep w]
    rcases serve' s'.call w with ⟨r, w₁⟩
    cases r with
    | ok u => exact ih w₁
    | error e =>
      have hError : ((undoing e (s.undo e)).runWith serve w₁).1 = .error e := undoing_error _ _ _
      refine ⟨hError.trans (undoing_error e _ w₁).symm, ?_⟩
      intro hOk
      cases hError.symm.trans hOk

end Saga
