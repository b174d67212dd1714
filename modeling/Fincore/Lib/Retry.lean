import Fincore.Lib.Saga
import Fincore.Lib.Transition

/-
  At-least-once execution: an orchestrator repeats a call that is reported as failed, up to a limit.

  The orchestrator's program asks for calls, and a call is itself a program over requests. An
  attempt at a call runs to its end and its answer is reported, or it gets lost: it has served some
  of its requests, perhaps all, and is reported as failed.

  Key definitions include:
    * `Retry.State` and `Retry.Attempt`
    * `Retry.step`

  Main results:
    * `Retry.step_spec`
    * `Retry.Fails.keeps`
-/

----
-- Attempts
----

namespace Retry

/- The state, the rest of the plan, the failed attempts. -/
structure State (Call Err W : Type) where
  world : W
  plan : Saga.Plan Call Err Unit
  failed : Nat

/- How an attempt ends. -/
inductive Attempt (Err : Type) where
  | acked
  | lost (served : Nat) (e : Err)

variable {Call Req Err W : Type} {Resp : Req → Type}

/- A failed attempt is repeated or, at the limit, reported. -/
def State.report (limit : Nat) (s : State Call Err W) (w : W)
    (rest : Saga.Plan Call Err Unit) : State Call Err W :=
  if s.failed + 1 < limit then ⟨w, s.plan, s.failed + 1⟩
  else ⟨w, rest, 0⟩

/- One attempt at the call that the plan asks for. -/
def step (limit : Nat) (body : Call → Prog Req Resp Err Unit)
    (serve : (r : Req) → W → Resp r × W) (s : State Call Err W)
    (a : Attempt Err) : Option (State Call Err W) :=
  match s.plan, a with
  | .ask c k, .acked =>
    match (body c).runWith serve s.world with
    | (.ok (), w) => some ⟨w, k (.ok ()), 0⟩
    | (.error e, w) =>
      some (s.report limit w (k (.error e)))
  | .ask c k, .lost served e =>
    some (s.report limit ((body c).after serve served s.world) (k (.error e)))
  | _, _ => none

----
-- What An Attempt Can Do
----

variable {limit : Nat}
variable {body : Call → Prog Req Resp Err Unit} {serve : (r : Req) → W → Resp r × W}

/- The attempt failed, or is reported to have failed. -/
inductive Fails (body : Call → Prog Req Resp Err Unit)
    (serve : (r : Req) → W → Resp r × W) (c : Call) (w : W) : Attempt Err → Err → W → Prop where
  | acked {e : Err} {w' : W} (hRun : (body c).runWith serve w = (.error e, w')) :
      Fails body serve c w .acked e w'
  | lost (served : Nat) (e : Err) : Fails body serve c w (.lost served e) e
        ((body c).after serve served w)

/-
  A step is a success that the plan goes on from, or a failure that leaves the plan where it is or
  goes to it.
-/
inductive StepSpec (body : Call → Prog Req Resp Err Unit)
    (serve : (r : Req) → W → Resp r × W) (s : State Call Err W)
    (a : Attempt Err) : State Call Err W → Prop where
  | succeeded {c : Call} {k : Except Err Unit → Saga.Plan Call Err Unit} {w : W}
      (hPlan : s.plan = .ask c k) (hRun : (body c).runWith serve s.world = (.ok (), w)) :
      StepSpec body serve s a ⟨w, k (.ok ()), 0⟩
  | repeated {c : Call} {k : Except Err Unit → Saga.Plan Call Err Unit}
      {e : Err} {w : W} (hPlan : s.plan = .ask c k)
      (hFails : Fails body serve c s.world a e w) (failed : Nat) :
      StepSpec body serve s a ⟨w, s.plan, failed⟩
  | reported {c : Call} {k : Except Err Unit → Saga.Plan Call Err Unit}
      {e : Err} {w : W} (hPlan : s.plan = .ask c k) (hFails : Fails body serve c s.world a e w) :
      StepSpec body serve s a ⟨w, k (.error e), 0⟩

variable {a : Attempt Err}

theorem report_spec {s : State Call Err W} {c : Call}
    {k : Except Err Unit → Saga.Plan Call Err Unit} {e : Err} {w : W}
    (hPlan : s.plan = .ask c k) (hFails : Fails body serve c s.world a e w) :
    StepSpec body serve s a (s.report limit w (k (.error e))) := by
  unfold State.report
  by_cases hLimit : s.failed + 1 < limit
  · rw [if_pos hLimit]
    exact .repeated hPlan hFails (s.failed + 1)
  · rw [if_neg hLimit]
    exact .reported hPlan hFails

theorem step_spec {s s' : State Call Err W}
    (hStep : step limit body serve s a = some s') : StepSpec body serve s a s' := by
  unfold step at hStep
  split at hStep
  · rename_i c k hPlan
    split at hStep
    · rename_i w hRun
      cases hStep
      exact .succeeded hPlan hRun
    · rename_i e w hRun
      cases hStep
      exact report_spec hPlan (.acked hRun)
  · rename_i c k served e hPlan
    cases hStep
    exact report_spec hPlan (.lost served e)
  · cases hStep

/- What every request of a call keeps, an attempt keeps. -/
theorem Fails.keeps {P : Req → Prop} {I : W → Prop} {c : Call} {w w' : W} {e : Err}
    (hFails : Fails body serve c w a e w')
    (hAsks : (body c).Asks P) (hServe : ∀ r w, P r → I w → I (serve r w).2)
    (hInv : I w) : I w' := by
  cases hFails with
  | acked hRun =>
    have hKept := hAsks.runWith hServe hInv
    rw [hRun] at hKept
    exact hKept
  | lost served e => exact hAsks.after hServe hInv

end Retry
