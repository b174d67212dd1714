import Fincore.Lib.Transition
import Mathlib

/-
  Workers that claim items of a table, perform an effect for each that cannot be taken back, mark
  it, and commit the marks at the end of the batch.

  A claim hands out unmarked items that no running worker has, and they are the worker's until it
  ends. A worker may fail at any point; its marks are then gone and its effects are not.

  Key definitions include:
    * `Dispatch.Worker` and `Dispatch.State`
    * `Dispatch.step`
    * `Dispatch.Invariant`

  Main results:
    * `Dispatch.step_spec`
    * `Dispatch.inv_step`
    * `Dispatch.Invariant.performed_of_marked`
    * `Dispatch.Invariant.count_le`
    * `Dispatch.exists_drain`
-/

----
-- Workers
----

namespace Dispatch

variable {K M : Type}

inductive Stage where
  | opened
  | sending
  | marking
  | committed
  | failed
  deriving DecidableEq

/- The items of its batch, performed and not. -/
structure Worker (M : Type) where
  stage : Stage
  sent : List M
  todo : List M

namespace Worker

def batch (w : Worker M) : List M := w.sent ++ w.todo

def isRunning (w : Worker M) : Bool :=
  match w.stage with
  | .opened | .sending | .marking => true
  | .committed | .failed => false

def isFailed (w : Worker M) : Bool :=
  match w.stage with
  | .failed => true
  | _ => false

end Worker

/- Marks, all workers there have been, and their effects. -/
structure State (K M : Type) where
  marked : K → Option Nat
  workers : List (Worker M)
  performed : List M

/-
  `unacked` is an effect that the worker takes for a failed one, `fail` whatever else ends a worker
  before its commit.
-/
inductive Action (K : Type) where
  | begin
  | claim (i : Nat) (ks : List K)
  | perform (i : Nat)
  | unacked (i : Nat)
  | mark (i : Nat)
  | commit (i : Nat)
  | fail (i : Nat)

def Action.isFailure : Action K → Bool
| .unacked _ => true
| .fail _ => true
| _ => false

def State.start : State K M := ⟨fun _ => none, [], []⟩

def State.replace (s : State K M) (i : Nat) (w : Worker M) : State K M :=
  { s with workers := s.workers.set i w }

variable [DecidableEq K]

/- Not marked, and not with a running worker. -/
def State.available (key : M → K) (s : State K M) (k : K) : Bool :=
  (s.marked k).isNone && s.workers.all (fun w =>
      !w.isRunning || decide (k ∉ w.batch.map key))

/-
  One step at time `now`. `serves` is the batch that a claim of the items `ks` is answered with, if
  they can be claimed together.
-/
def step (key : M → K) (serves : State K M → List K → Option (List M))
    (now : Nat) (s : State K M) : Action K → Option (State K M)
| .begin =>
  some { s with workers := s.workers ++ [⟨.opened, [], []⟩] }
| .claim i ks =>
  match s.workers[i]?, serves s ks with
  | some ⟨.opened, _, _⟩, some batch =>
    some (s.replace i ⟨.sending, [], batch⟩)
  | _, _ => none
| .perform i =>
  match s.workers[i]? with
  | some ⟨.sending, sent, m :: todo⟩ =>
    some { s.replace i ⟨.marking, sent ++ [m], todo⟩ with performed := s.performed ++ [m] }
  | _ => none
| .unacked i =>
  match s.workers[i]? with
  | some ⟨.sending, sent, m :: todo⟩ =>
    some { s.replace i ⟨.failed, sent ++ [m], todo⟩ with performed := s.performed ++ [m] }
  | _ => none
| .mark i =>
  match s.workers[i]? with
  | some ⟨.marking, sent, todo⟩ =>
    some (s.replace i ⟨.sending, sent, todo⟩)
  | _ => none
| .commit i =>
  match s.workers[i]? with
  | some ⟨.sending, sent, []⟩ =>
    some { s.replace i ⟨.committed, sent, []⟩ with
      marked := fun k =>
        if k ∈ sent.map key then some now
        else s.marked k }
  | _ => none
| .fail i =>
  match s.workers[i]? with
  | some w =>
    if w.isRunning then
      some (s.replace i { w with stage := .failed })
    else none
  | none => none

----
-- What A Step Can Do
----

variable {K M : Type} [DecidableEq K] {key : M → K} {serves : State K M → List K → Option (List M)}
variable {now : Nat} {s s' : State K M} {a : Action K}

/- All that a step can be. -/
inductive StepSpec (key : M → K) (serves : State K M → List K → Option (List M))
    (now : Nat) (s : State K M) : Action K → State K M → Prop where
  | begun : StepSpec key serves now s .begin { s with workers := s.workers ++ [⟨.opened, [], []⟩] }
  | claimed {i : Nat} {ks : List K} {sent todo batch : List M}
      (hWorker : s.workers[i]? = some ⟨.opened, sent, todo⟩) (hServes : serves s ks = some batch) :
      StepSpec key serves now s (.claim i ks) (s.replace i ⟨.sending, [], batch⟩)
  | went {a : Action K} {i : Nat} {w : Worker M} {stage : Stage}
      (hWorker : s.workers[i]? = some w) (hRunning : w.isRunning = true)
      (hStage : stage = .sending ∧ w.stage = .marking ∨
          stage = .failed ∧ a.isFailure = true) : StepSpec key serves now s a
        (s.replace i ⟨stage, w.sent, w.todo⟩)
  | sent {a : Action K} {i : Nat} {m : M} {sent todo : List M} {stage : Stage}
      (hWorker : s.workers[i]? = some ⟨.sending, sent, m :: todo⟩)
      (hStage : stage = .marking ∨ stage = .failed ∧ a.isFailure = true) :
      StepSpec key serves now s a
        { s.replace i ⟨stage, sent ++ [m], todo⟩ with performed := s.performed ++ [m] }
  | committed {i : Nat} {sent : List M} (hWorker : s.workers[i]? = some ⟨.sending, sent, []⟩) :
      StepSpec key serves now s (.commit i)
        { s.replace i ⟨.committed, sent, []⟩ with
          marked := fun k =>
            if k ∈ sent.map key then some now
            else s.marked k }

theorem step_spec (hStep : step key serves now s a = some s') : StepSpec key serves now s a s' := by
  cases a with
  | begin =>
    cases hStep
    exact .begun
  | claim i ks =>
    simp only [step] at hStep
    split at hStep
    · rename_i hWorker hServes
      cases hStep
      exact .claimed hWorker hServes
    · cases hStep
  | perform i =>
    simp only [step] at hStep
    split at hStep
    · rename_i hWorker
      cases hStep
      exact .sent hWorker (Or.inl rfl)
    · cases hStep
  | unacked i =>
    simp only [step] at hStep
    split at hStep
    · rename_i hWorker
      cases hStep
      exact .sent hWorker (Or.inr ⟨rfl, rfl⟩)
    · cases hStep
  | mark i =>
    simp only [step] at hStep
    split at hStep
    · rename_i hWorker
      cases hStep
      exact .went hWorker rfl (Or.inl ⟨rfl, rfl⟩)
    · cases hStep
  | commit i =>
    simp only [step] at hStep
    split at hStep
    · rename_i hWorker
      cases hStep
      exact .committed hWorker
    · cases hStep
  | fail i =>
    simp only [step] at hStep
    split at hStep
    · rename_i w hWorker
      split at hStep
      · rename_i hRunning
        cases hStep
        exact .went hWorker hRunning (Or.inr ⟨rfl, rfl⟩)
      · cases hStep
    · cases hStep

----
-- Replacing A Worker
----

variable {α : Type} {l : List α} {i : Nat} {x y : α}

/- The other elements stay. -/
theorem mem_set_of_ne (hAt : l[i]? = some x) {z : α} (hMem : z ∈ l)
    (hNe : z ≠ x) (y : α) : z ∈ l.set i y := by
  rcases List.getElem?_of_mem hMem with ⟨j, hj⟩
  have hIndex : i ≠ j := by
    rintro rfl
    rw [hAt] at hj
    exact hNe (Option.some.inj hj).symm
  apply List.mem_of_getElem? (i := j)
  rw [List.getElem?_set_ne hIndex]
  exact hj

theorem mem_set_self (hAt : l[i]? = some x) (y : α) : y ∈ l.set i y := by
  have hLt := (List.getElem?_eq_some_iff.mp hAt).1
  apply List.mem_of_getElem? (i := i)
  rw [List.getElem?_set_self hLt]

theorem getElem?_replaced {j : Nat} {z : α} (hFound : (l.set i y)[j]? = some z) :
    (j = i ∧ z = y) ∨ (j ≠ i ∧ l[j]? = some z) := by
  by_cases hSame : j = i
  · subst hSame
    have hLt : j < (l.set j y).length := (List.getElem?_eq_some_iff.mp hFound).1
    rw [List.length_set] at hLt
    rw [List.getElem?_set_self hLt] at hFound
    exact Or.inl ⟨rfl, (Option.some.inj hFound).symm⟩
  · rw [List.getElem?_set_ne (Ne.symm hSame)] at hFound
    exact Or.inr ⟨hSame, hFound⟩

theorem sum_map_set (f : α → Nat) {d : Nat} (hAt : l[i]? = some x)
    (hMore : f y = f x + d) : ((l.set i y).map f).sum = (l.map f).sum + d := by
  induction l generalizing i with
  | nil => cases hAt
  | cons z l ih =>
    cases i with
    | zero =>
      cases hAt
      simp only [List.set_cons_zero, List.map_cons, List.sum_cons, hMore]
      omega
    | succ i =>
      have hRest := ih (i := i) hAt
      simp only [List.set_cons_succ, List.map_cons, List.sum_cons, hRest]
      omega

----
-- Invariants
----

variable {K M : Type}

/-
  Workers that have not failed have different items; those of running workers are not marked, and
  exactly those of committed ones are.
-/
structure Invariant (key : M → K) (items : List M) (s : State K M) : Prop where
  known : ∀ w ∈ s.workers, ∀ m ∈ w.batch, m ∈ items
  distinct : ∀ w ∈ s.workers, (w.batch.map key).Nodup
  opened : ∀ w ∈ s.workers, w.stage = .opened → w.batch = []
  apart : ∀ (i j : Nat) (w w' : Worker M), i ≠ j →
      s.workers[i]? = some w → s.workers[j]? = some w' → w.isFailed = false → w'.isFailed = false →
          ∀ m ∈ w.batch, ∀ m' ∈ w'.batch, key m ≠ key m'
  unmarked : ∀ w ∈ s.workers, w.isRunning = true → ∀ m ∈ w.batch, s.marked (key m) = none
  committed : ∀ w ∈ s.workers, w.stage = .committed → ∀ m ∈ w.batch,
        m ∈ w.sent ∧ (s.marked (key m)).isSome = true
  marked : ∀ k, (s.marked k).isSome = true →
      ∃ w ∈ s.workers, w.stage = .committed ∧ ∃ m ∈ w.sent, key m = k
  count : ∀ p : M → Bool, s.performed.countP p = (s.workers.map (fun w => w.sent.countP p)).sum

variable {key : M → K} {items : List M} {s s' : State K M}

theorem inv_start (key : M → K) (items : List M) :
    Invariant key items (State.start : State K M) := by
  refine ⟨?_, ?_, ?_, ?_, ?_, ?_, ?_, ?_⟩
  · intro w hMem
    cases hMem
  · intro w hMem
    cases hMem
  · intro w hMem
    cases hMem
  · intro i j w w' _ hi
    cases hi
  · intro w hMem
    cases hMem
  · intro w hMem
    cases hMem
  · intro k hSome
    cases hSome
  · intro p
    rfl

/- The table may grow. -/
theorem Invariant.mono (hInv : Invariant key items s) {items' : List M}
    (hMore : ∀ m ∈ items, m ∈ items') : Invariant key items' s :=
  { hInv with
    known := fun w hWorker m hMem =>
      hMore m (hInv.known w hWorker m hMem) }

variable {w : Worker M}

theorem Worker.not_failed_of_running (hRunning : w.isRunning = true) : w.isFailed = false := by
  rcases w with ⟨stage, sent, todo⟩
  cases stage with
  | failed => cases hRunning
  | _ => rfl

theorem Worker.running_or_committed (hNotFailed : w.isFailed = false) :
    w.isRunning = true ∨ w.stage = .committed := by
  rcases w with ⟨stage, sent, todo⟩
  cases stage with
  | failed => cases hNotFailed
  | committed => exact Or.inr rfl
  | _ => exact Or.inl rfl

theorem Invariant.went (hInv : Invariant key items s) {i : Nat}
    {new : List M} (hWorker : s.workers[i]? = some w)
    (hRunning : w.isRunning = true) (w' : Worker M)
    (hBatch : w'.batch = w.batch) (hSent : w'.sent = w.sent ++ new)
    (hStage : w'.stage = .sending ∨ w'.stage = .marking ∨ w'.stage = .failed) : Invariant key items
      { s.replace i w' with performed := s.performed ++ new } := by
  have hMem := List.mem_of_getElem? hWorker
  have hNotFailed := Worker.not_failed_of_running hRunning
  refine ⟨?_, ?_, ?_, ?_, ?_, ?_, ?_, ?_⟩
  · intro v hv
    rcases List.mem_or_eq_of_mem_set hv with hOld | rfl
    · exact hInv.known v hOld
    · rw [hBatch]
      exact hInv.known w hMem
  · intro v hv
    rcases List.mem_or_eq_of_mem_set hv with hOld | rfl
    · exact hInv.distinct v hOld
    · rw [hBatch]
      exact hInv.distinct w hMem
  · intro v hv hOpened
    rcases List.mem_or_eq_of_mem_set hv with hOld | rfl
    · exact hInv.opened v hOld hOpened
    · rw [hOpened] at hStage
      simp at hStage
  · intro j l v v' hNe hj hl hv hv'
    rcases getElem?_replaced hj with ⟨rfl, rfl⟩ | ⟨_, hBefore⟩
    · rcases getElem?_replaced hl with ⟨rfl, rfl⟩ | ⟨_, hBefore'⟩
      · exact absurd rfl hNe
      · rw [hBatch]
        exact hInv.apart j l w v' hNe hWorker hBefore' hNotFailed hv'
    · rcases getElem?_replaced hl with ⟨rfl, rfl⟩ | ⟨_, hBefore'⟩
      · rw [hBatch]
        exact hInv.apart j l v w hNe hBefore hWorker hv hNotFailed
      · exact hInv.apart j l v v' hNe hBefore hBefore' hv hv'
  · intro v hv hRuns
    rcases List.mem_or_eq_of_mem_set hv with hOld | rfl
    · exact hInv.unmarked v hOld hRuns
    · rw [hBatch]
      exact hInv.unmarked w hMem hRunning
  · intro v hv hCommitted
    rcases List.mem_or_eq_of_mem_set hv with hOld | rfl
    · exact hInv.committed v hOld hCommitted
    · rw [hCommitted] at hStage
      simp at hStage
  · intro k hSome
    rcases hInv.marked k hSome with ⟨v, hv, hCommitted, hFound⟩
    refine ⟨v, mem_set_of_ne hWorker hv ?_ w', hCommitted, hFound⟩
    rintro rfl
    simp [Worker.isRunning, hCommitted] at hRunning
  · intro p
    show (s.performed ++ new).countP p = ((s.workers.set i w').map fun v =>
        v.sent.countP p).sum
    rw [List.countP_append, hInv.count p]
    symm
    apply sum_map_set _ hWorker
    rw [hSent, List.countP_append]

theorem Invariant.begun (hInv : Invariant key items s) : Invariant key items
      { s with workers := s.workers ++ [⟨.opened, [], []⟩] } := by
  have hSplit : ∀ v ∈ s.workers ++ [(⟨.opened, [], []⟩ : Worker M)],
      v ∈ s.workers ∨ v = ⟨.opened, [], []⟩ := by
    intro v hv
    rcases List.mem_append.mp hv with hOld | hNew
    · exact Or.inl hOld
    · exact Or.inr (List.mem_singleton.mp hNew)
  have hFound : ∀ (j : Nat) (v : Worker M), (s.workers ++ [⟨.opened, [], []⟩])[j]? = some v →
      s.workers[j]? = some v ∨ v = ⟨.opened, [], []⟩ := by
    intro j v hj
    rw [List.getElem?_append] at hj
    split at hj
    · exact Or.inl hj
    · rw [List.getElem?_singleton] at hj
      split at hj
      · exact Or.inr (Option.some.inj hj).symm
      · cases hj
  refine ⟨?_, ?_, ?_, ?_, ?_, ?_, ?_, ?_⟩
  · intro v hv
    rcases hSplit v hv with hOld | rfl
    · exact hInv.known v hOld
    · intro m hMem
      cases hMem
  · intro v hv
    rcases hSplit v hv with hOld | rfl
    · exact hInv.distinct v hOld
    · exact List.nodup_nil
  · intro v hv hOpened
    rcases hSplit v hv with hOld | rfl
    · exact hInv.opened v hOld hOpened
    · rfl
  · intro j l v v' hNe hj hl hv hv' m hMem m' hMem'
    rcases hFound j v hj with hOld | rfl
    · rcases hFound l v' hl with hOld' | rfl
      · exact hInv.apart j l v v' hNe hOld hOld' hv hv' m hMem m' hMem'
      · cases hMem'
    · cases hMem
  · intro v hv hRuns m hMem
    rcases hSplit v hv with hOld | rfl
    · exact hInv.unmarked v hOld hRuns m hMem
    · cases hMem
  · intro v hv hCommitted
    rcases hSplit v hv with hOld | rfl
    · exact hInv.committed v hOld hCommitted
    · cases hCommitted
  · intro k hSome
    rcases hInv.marked k hSome with ⟨v, hv, hCommitted, hFound⟩
    exact ⟨v, List.mem_append_left _ hv, hCommitted, hFound⟩
  · intro p
    rw [hInv.count p, List.map_append, List.sum_append]
    rfl

section

variable [DecidableEq K]

theorem Invariant.claimed (hInv : Invariant key items s) {i : Nat} {sent todo batch : List M}
    (hWorker : s.workers[i]? = some ⟨.opened, sent, todo⟩)
    (hItems : ∀ m ∈ batch, m ∈ items ∧ s.available key (key m) = true)
    (hDistinct : (batch.map key).Nodup) : Invariant key items
    (s.replace i ⟨.sending, [], batch⟩) := by
  have hNone : ∀ m ∈ batch, s.marked (key m) = none := by
    intro m hMem
    have hAvailable := (hItems m hMem).2
    simp only [State.available, Bool.and_eq_true, Option.isNone_iff_eq_none] at hAvailable
    exact hAvailable.1
  -- a worker that has not failed is running or has marked
  have hApart : ∀ v ∈ s.workers, v.isFailed = false →
      ∀ m ∈ batch, ∀ m' ∈ v.batch, key m ≠ key m' := by
    intro v hv hNotFailed m hMem m' hMem' hSame
    rcases Worker.running_or_committed hNotFailed with hRuns | hCommitted
    · have hAvailable := (hItems m hMem).2
      simp only [State.available, Bool.and_eq_true, List.all_eq_true] at hAvailable
      have hFree := hAvailable.2 v hv
      rw [hRuns, Bool.not_true, Bool.false_or, decide_eq_true_iff, hSame] at hFree
      exact hFree (List.mem_map_of_mem hMem')
    · have hMarked := (hInv.committed v hv hCommitted m' hMem').2
      rw [← hSame, hNone m hMem] at hMarked
      cases hMarked
  have hMem := List.mem_of_getElem? hWorker
  refine ⟨?_, ?_, ?_, ?_, ?_, ?_, ?_, ?_⟩
  · intro v hv
    rcases List.mem_or_eq_of_mem_set hv with hOld | rfl
    · exact hInv.known v hOld
    · intro m hm
      exact (hItems m hm).1
  · intro v hv
    rcases List.mem_or_eq_of_mem_set hv with hOld | rfl
    · exact hInv.distinct v hOld
    · exact hDistinct
  · intro v hv hOpened
    rcases List.mem_or_eq_of_mem_set hv with hOld | rfl
    · exact hInv.opened v hOld hOpened
    · cases hOpened
  · intro j l v v' hNe hj hl hv hv' m hm m' hm'
    rcases getElem?_replaced hj with ⟨rfl, rfl⟩ | ⟨_, hBefore⟩
    · rcases getElem?_replaced hl with ⟨rfl, rfl⟩ | ⟨_, hBefore'⟩
      · exact absurd rfl hNe
      · exact hApart v' (List.mem_of_getElem? hBefore') hv' m hm m' hm'
    · rcases getElem?_replaced hl with ⟨rfl, rfl⟩ | ⟨_, hBefore'⟩
      · exact Ne.symm (hApart v (List.mem_of_getElem? hBefore) hv m' hm' m hm)
      · exact hInv.apart j l v v' hNe hBefore hBefore' hv hv' m hm m' hm'
  · intro v hv hRuns
    rcases List.mem_or_eq_of_mem_set hv with hOld | rfl
    · exact hInv.unmarked v hOld hRuns
    · exact hNone
  · intro v hv hCommitted
    rcases List.mem_or_eq_of_mem_set hv with hOld | rfl
    · exact hInv.committed v hOld hCommitted
    · cases hCommitted
  · intro k hSome
    rcases hInv.marked k hSome with ⟨v, hv, hCommitted, hFound⟩
    refine ⟨v, mem_set_of_ne hWorker hv ?_ _, hCommitted, hFound⟩
    rintro rfl
    cases hCommitted
  · intro p
    have hEmpty := hInv.opened _ hMem rfl
    have hSent : sent = [] := (List.append_eq_nil_iff.mp hEmpty).1
    show s.performed.countP p = ((s.workers.set i _).map _).sum
    rw [hInv.count p]
    symm
    refine sum_map_set (d := 0) _ hWorker ?_
    rw [hSent]
    rfl

/- A worker commits its marks. -/
theorem Invariant.commit (hInv : Invariant key items s) {i : Nat}
    {sent : List M} (hWorker : s.workers[i]? = some ⟨.sending, sent, []⟩)
    (now : Nat) : Invariant key items
      { s.replace i ⟨.committed, sent, []⟩ with
        marked := fun k => if k ∈ sent.map key then some now else s.marked k } := by
  have hMem := List.mem_of_getElem? hWorker
  have hBatch : (⟨.sending, sent, []⟩ : Worker M).batch = sent := List.append_nil sent
  refine ⟨?_, ?_, ?_, ?_, ?_, ?_, ?_, ?_⟩
  · intro v hv
    rcases List.mem_or_eq_of_mem_set hv with hOld | rfl
    · exact hInv.known v hOld
    · have hKnown := hInv.known _ hMem
      exact hKnown
  · intro v hv
    rcases List.mem_or_eq_of_mem_set hv with hOld | rfl
    · exact hInv.distinct v hOld
    · have hDistinct := hInv.distinct _ hMem
      exact hDistinct
  · intro v hv hOpened
    rcases List.mem_or_eq_of_mem_set hv with hOld | rfl
    · exact hInv.opened v hOld hOpened
    · cases hOpened
  · intro j l v v' hNe hj hl hv hv'
    rcases getElem?_replaced hj with ⟨rfl, rfl⟩ | ⟨_, hBefore⟩
    · rcases getElem?_replaced hl with ⟨rfl, rfl⟩ | ⟨_, hBefore'⟩
      · exact absurd rfl hNe
      · have hApart := hInv.apart j l _ v' hNe hWorker hBefore' rfl hv'
        exact hApart
    · rcases getElem?_replaced hl with ⟨rfl, rfl⟩ | ⟨_, hBefore'⟩
      · have hApart := hInv.apart j l v _ hNe hBefore hWorker hv rfl
        exact hApart
      · exact hInv.apart j l v v' hNe hBefore hBefore' hv hv'
  · intro v hv hRuns m hm
    rcases List.getElem?_of_mem hv with ⟨j, hj⟩
    rcases getElem?_replaced hj with ⟨rfl, rfl⟩ | ⟨hNe, hBefore⟩
    · cases hRuns
    · have hOther : key m ∉ sent.map key := by
        intro hSent
        rcases List.mem_map.mp hSent with ⟨m', hm', hSame⟩
        refine hInv.apart j i v _ hNe hBefore hWorker
          (Worker.not_failed_of_running hRuns) rfl m hm m' ?_ hSame.symm
        rw [hBatch]
        exact hm'
      dsimp only
      rw [if_neg hOther]
      exact hInv.unmarked v (List.mem_of_getElem? hBefore) hRuns m hm
  · intro v hv hCommitted m hm
    dsimp only
    rcases List.mem_or_eq_of_mem_set hv with hOld | rfl
    · have hMarked := hInv.committed v hOld hCommitted m hm
      refine ⟨hMarked.1, ?_⟩
      split
      · rfl
      · exact hMarked.2
    · have hSent : m ∈ sent := by
        rw [← List.append_nil sent]
        exact hm
      refine ⟨hSent, ?_⟩
      rw [if_pos (List.mem_map_of_mem hSent)]
      rfl
  · intro k hSome
    dsimp only at hSome
    split at hSome
    · rename_i hSent
      rcases List.mem_map.mp hSent with ⟨m, hm, hSame⟩
      exact ⟨⟨.committed, sent, []⟩, mem_set_self hWorker _, rfl, m, hm, hSame⟩
    · rcases hInv.marked k hSome with ⟨v, hv, hCommitted, hFound⟩
      refine ⟨v, mem_set_of_ne hWorker hv ?_ _, hCommitted, hFound⟩
      rintro rfl
      cases hCommitted
  · intro p
    show s.performed.countP p =
      ((s.workers.set i ⟨.committed, sent, []⟩).map fun v => v.sent.countP p).sum
    rw [hInv.count p]
    symm
    exact sum_map_set (d := 0) _ hWorker rfl

theorem inv_step {serves : State K M → List K → Option (List M)} {now : Nat} {a : Action K}
    (hServes : ∀ ks batch, serves s ks = some batch →
    (∀ m ∈ batch, m ∈ items ∧ s.available key (key m) = true) ∧
    (batch.map key).Nodup) (hInv : Invariant key items s)
    (hStep : step key serves now s a = some s') : Invariant key items s' := by
  cases step_spec hStep with
  | begun => exact hInv.begun
  | claimed hWorker hServed =>
    rcases hServes _ _ hServed with ⟨hItems, hDistinct⟩
    exact hInv.claimed hWorker hItems hDistinct
  | @went _ i w stage hWorker hRunning hStage =>
    have hWent := hInv.went hWorker hRunning ⟨stage, w.sent, w.todo⟩ rfl (List.append_nil _).symm ?_
    · rw [List.append_nil] at hWent
      exact hWent
    · rcases hStage with ⟨rfl, _⟩ | ⟨rfl, _⟩
      · exact Or.inl rfl
      · exact Or.inr (Or.inr rfl)
  | @sent _ i m sent todo stage hWorker hStage =>
    refine hInv.went hWorker rfl ⟨stage, sent ++ [m], todo⟩ ?_ rfl ?_
    · exact List.append_assoc sent [m] todo
    · rcases hStage with rfl | ⟨rfl, _⟩
      · exact Or.inr (Or.inl rfl)
      · exact Or.inr (Or.inr rfl)
  | committed hWorker => exact hInv.commit hWorker now

end

----
-- How Often An Item Is Performed
----

theorem Invariant.performed_of_sent (hInv : Invariant key items s) (hWorker : w ∈ s.workers)
    {m : M} (hSent : m ∈ w.sent) : m ∈ s.performed := by
  classical
  have hCount := hInv.count (fun m' => decide (m' = m))
  have hOwn : 0 < w.sent.countP (fun m' => decide (m' = m)) :=
    List.countP_pos_iff.mpr ⟨m, hSent, decide_eq_true rfl⟩
  have hLe : w.sent.countP (fun m' => decide (m' = m)) ≤
        (s.workers.map (fun w =>
          w.sent.countP (fun m' => decide (m' = m)))).sum :=
    List.single_le_sum (fun _ _ => Nat.zero_le _) _ (List.mem_map_of_mem hWorker)
  have hPos : 0 < s.performed.countP (fun m' => decide (m' = m)) := by
    omega
  rcases List.countP_pos_iff.mp hPos with ⟨m', hMem, hSame⟩
  rw [of_decide_eq_true hSame] at hMem
  exact hMem

/- A marked item has been performed, as it is. -/
theorem Invariant.performed_of_marked (hInv : Invariant key items s)
    (hUnique : ∀ m ∈ items, ∀ m' ∈ items, key m = key m' → m = m') {m : M}
    (hItem : m ∈ items) (hMarked : (s.marked (key m)).isSome = true) : m ∈ s.performed := by
  rcases hInv.marked (key m) hMarked with ⟨w, hWorker, _, m', hSent, hSame⟩
  have hKnown := hInv.known w hWorker m' (List.mem_append_left _ hSent)
  rw [← hUnique m' hKnown m hItem hSame]
  exact hInv.performed_of_sent hWorker hSent

variable [DecidableEq K]

/- A worker performs an item at most once. -/
theorem countP_sent_le (hDistinct : (w.batch.map key).Nodup)
    (k : K) : w.sent.countP (fun m => decide (key m = k)) ≤
      if k ∈ w.batch.map key then 1 else 0 := by
  have hCount : w.sent.countP (fun m => decide (key m = k)) ≤ (w.batch.map key).count k := by
    unfold Worker.batch
    rw [List.count, List.countP_map, List.countP_append]
    refine Nat.le_trans (Nat.le_of_eq ?_) (Nat.le_add_right _ _)
    apply List.countP_congr
    intro m _
    simp
  refine Nat.le_trans hCount ?_
  split
  · exact List.nodup_iff_count_le_one.mp hDistinct k
  · rename_i hAbsent
    exact Nat.le_of_eq (List.count_eq_zero.mpr hAbsent)

/- The worker has failed with the item in its batch. -/
def Worker.failedWith (key : M → K) (k : K) (w : Worker M) : Bool :=
  w.isFailed && decide (k ∈ w.batch.map key)

variable {ws : List (Worker M)}

theorem sum_sent_le_of_failed {k : K} (hDistinct : ∀ w ∈ ws, (w.batch.map key).Nodup)
    (hOnly : ∀ w ∈ ws, w.isFailed = false → k ∉ w.batch.map key) :
    (ws.map (fun w => w.sent.countP (fun m => decide (key m = k)))).sum ≤
    ws.countP (Worker.failedWith key k) := by
  induction ws with
  | nil => exact Nat.le_refl 0
  | cons w ws ih =>
    have hRest := ih (fun v hv => hDistinct v (List.mem_cons_of_mem _ hv))
      (fun v hv => hOnly v (List.mem_cons_of_mem _ hv))
    have hOwn := countP_sent_le (hDistinct w List.mem_cons_self) k
    rw [List.map_cons, List.sum_cons, List.countP_cons]
    cases hFailed : w.isFailed with
    | true =>
      simp only [Worker.failedWith, hFailed, Bool.true_and, decide_eq_true_iff]
      omega
    | false =>
      rw [if_neg (hOnly w List.mem_cons_self hFailed)] at hOwn
      omega

theorem sum_sent_le {k : K} (hDistinct : ∀ w ∈ ws, (w.batch.map key).Nodup)
    (hApart : ws.Pairwise (fun w w' =>
      w.isFailed = false → w'.isFailed = false →
      ∀ m ∈ w.batch, ∀ m' ∈ w'.batch, key m ≠ key m')) :
    (ws.map (fun w => w.sent.countP (fun m => decide (key m = k)))).sum ≤
      1 + ws.countP (Worker.failedWith key k) := by
  induction ws with
  | nil => exact Nat.zero_le _
  | cons w ws ih =>
    rcases List.pairwise_cons.mp hApart with ⟨hFirst, hOthers⟩
    have hLater := fun v hv => hDistinct v (List.mem_cons_of_mem w hv)
    have hRest := ih hLater hOthers
    have hOwn := countP_sent_le (hDistinct w List.mem_cons_self) k
    rw [List.map_cons, List.sum_cons, List.countP_cons]
    cases hFailed : w.isFailed with
    | true =>
      simp only [Worker.failedWith, hFailed, Bool.true_and, decide_eq_true_iff]
      omega
    | false =>
      by_cases hHas : k ∈ w.batch.map key
      · have hNone := sum_sent_le_of_failed (k := k) hLater ?_
        · rw [if_pos hHas] at hOwn
          omega
        · intro v hv hNotFailed hAlso
          rcases List.mem_map.mp hHas with ⟨m, hm, rfl⟩
          rcases List.mem_map.mp hAlso with ⟨m', hm', hSame⟩
          exact hFirst v hv hFailed hNotFailed m hm m' hm' hSame.symm
      · rw [if_neg hHas] at hOwn
        omega

/- Once, and once more for each worker that failed with it. -/
theorem Invariant.count_le (hInv : Invariant key items s) (k : K) :
    s.performed.countP (fun m => decide (key m = k)) ≤
    1 + s.workers.countP (Worker.failedWith key k) := by
  rw [hInv.count]
  apply sum_sent_le hInv.distinct
  apply List.pairwise_iff_getElem.mpr
  intro i j hi hj hLt
  exact hInv.apart i j _ _ (Nat.ne_of_lt hLt)
    (List.getElem?_eq_getElem hi) (List.getElem?_eq_getElem hj)

theorem unfailed_step {serves : State K M → List K → Option (List M)}
    {now : Nat} {a : Action K} (hUnfailed : ∀ w ∈ s.workers, w.isFailed = false)
    (hAction : a.isFailure = false) (hStep : step key serves now s a = some s') :
    ∀ w ∈ s'.workers, w.isFailed = false := by
  intro w hMem
  cases step_spec hStep with
  | begun =>
    rcases List.mem_append.mp hMem with hOld | hNew
    · exact hUnfailed w hOld
    · rw [List.mem_singleton.mp hNew]
      rfl
  | claimed hWorker hServes =>
    rcases List.mem_or_eq_of_mem_set hMem with hOld | rfl
    · exact hUnfailed w hOld
    · rfl
  | went hWorker hRunning hStage =>
    rcases List.mem_or_eq_of_mem_set hMem with hOld | rfl
    · exact hUnfailed w hOld
    · rcases hStage with ⟨rfl, _⟩ | ⟨_, hFailure⟩
      · rfl
      · rw [hAction] at hFailure
        cases hFailure
  | sent hWorker hStage =>
    rcases List.mem_or_eq_of_mem_set hMem with hOld | rfl
    · exact hUnfailed w hOld
    · rcases hStage with rfl | ⟨_, hFailure⟩
      · rfl
      · rw [hAction] at hFailure
        cases hFailure
  | committed hWorker =>
    rcases List.mem_or_eq_of_mem_set hMem with hOld | rfl
    · exact hUnfailed w hOld
    · rfl

----
-- Performing All There Is
----

variable {K M : Type} [DecidableEq K] {key : M → K} {serves : State K M → List K → Option (List M)}
variable {now : Nat} {items : List M} {s : State K M}

/- The rest of a batch, and the commit. -/
def sends (i n : Nat) : List (Action K) :=
  (List.replicate n [.perform i, .mark i]).flatten ++ [.commit i]

/- A worker from its start to its commit. -/
def whole (i : Nat) (ks : List K) (n : Nat) : List (Action K) := .begin :: .claim i ks :: sends i n

omit [DecidableEq K] in
theorem whole_unfailed (i : Nat) (ks : List K) (n : Nat) :
    ∀ a ∈ whole i ks n, a.isFailure = false := by
  intro a hMem
  simp only [whole, sends, List.mem_cons, List.mem_append,
    List.mem_flatten, List.mem_replicate, List.not_mem_nil, or_false] at hMem
  rcases hMem with rfl | rfl | ⟨as, ⟨_, rfl⟩, hMem⟩ | rfl
  · rfl
  · rfl
  · simp only [List.mem_cons, List.not_mem_nil, or_false] at hMem
    rcases hMem with rfl | rfl
    · rfl
    · rfl
  · rfl

theorem run_sends {ws : List (Worker M)} {sent todo performed : List M}
    {marked : K → Option Nat} : Transition.run (step key serves now)
        ⟨marked, ws ++ [⟨.sending, sent, todo⟩], performed⟩ (sends ws.length todo.length) = some
        ⟨fun k =>
            if k ∈ (sent ++ todo).map key then some now
            else marked k, ws ++ [⟨.committed, sent ++ todo, []⟩], performed ++ todo⟩ := by
  induction todo generalizing sent performed with
  | nil =>
    simp [sends, Transition.run, step, State.replace]
  | cons m todo ih =>
    have hPerform : step key serves now
        ⟨marked, ws ++ [⟨.sending, sent, m :: todo⟩],
        performed⟩ (.perform ws.length) = some ⟨marked,
        ws ++ [⟨.marking, sent ++ [m], todo⟩], performed ++ [m]⟩ := by
      simp [step, State.replace]
    have hMark : step key serves now
        ⟨marked, ws ++ [⟨.marking, sent ++ [m], todo⟩],
        performed ++ [m]⟩ (.mark ws.length) = some ⟨marked,
        ws ++ [⟨.sending, sent ++ [m], todo⟩], performed ++ [m]⟩ := by
      simp [step, State.replace]
    have hSends : (sends ws.length (m :: todo).length : List (Action K)) =
        .perform ws.length :: .mark ws.length :: sends ws.length todo.length := rfl
    rw [hSends]
    simp only [Transition.run, hPerform, hMark]
    rw [ih]
    simp

theorem run_whole {ks : List K} {batch : List M}
    (hServes : serves { s with workers := s.workers ++ [⟨.opened, [], []⟩] } ks = some batch) :
    Transition.run (step key serves now) s (whole s.workers.length ks batch.length) = some
        ⟨fun k =>
            if k ∈ batch.map key then some now
            else s.marked k, s.workers ++ [⟨.committed, batch, []⟩], s.performed ++ batch⟩ := by
  have hClaim : step key serves now { s with workers := s.workers ++ [⟨.opened, [], []⟩] }
          (.claim s.workers.length ks) = some ⟨s.marked,
          s.workers ++ [⟨.sending, [], batch⟩], s.performed⟩ := by
    simp [step, hServes, State.replace]
  have hBegin : step key serves now s .begin = some { s with
          workers := s.workers ++ [⟨.opened, [], []⟩] } := rfl
  unfold whole
  simp only [Transition.run, hBegin, hClaim]
  exact run_sends

omit [DecidableEq K] in
theorem countP_lt_of_stricter {p q : M → Bool}
    (hSub : ∀ m, p m = true → q m = true) {m : M} (hMem : m ∈ items)
    (hNot : p m = false) (hPasses : q m = true) : items.countP p < items.countP q := by
  rcases List.append_of_mem hMem with ⟨before, after, rfl⟩
  have hBefore := List.countP_mono_left (l := before) (fun m _ => hSub m)
  have hAfter := List.countP_mono_left (l := after) (fun m _ => hSub m)
  rw [List.countP_append, List.countP_append,
    List.countP_cons_of_neg (by rw [hNot]; exact Bool.false_ne_true),
    List.countP_cons_of_pos hPasses]
  omega

/-
  As long as an item is not marked a claim can be served: then some workers, none of which fails,
  mark all items.
-/
theorem exists_drain
    (hServes : ∀ s ks batch, serves s ks = some batch →
    (∀ m ∈ batch, m ∈ items ∧ s.available key (key m) = true) ∧ (batch.map key).Nodup)
    (hOffers : ∀ s : State K M, (∀ w ∈ s.workers, w.isRunning = true → w.batch = []) →
    (∃ m ∈ items, s.marked (key m) = none) →
    ∃ ks batch, serves s ks = some batch ∧ batch ≠ []) (s : State K M)
    (hIdle : ∀ w ∈ s.workers, w.isRunning = false) : ∃ as s', (∀ a ∈ as, a.isFailure = false) ∧
    Transition.run (step key serves now) s as = some s' ∧
    ∀ m ∈ items, (s'.marked (key m)).isSome = true := by
  -- the number of items that are not marked goes down
  induction hCount : items.countP (fun m => (s.marked (key m)).isNone)
      using Nat.strong_induction_on generalizing s with
  | _ n ih =>
    by_cases hLeft : ∃ m ∈ items, s.marked (key m) = none
    · have hOpened : ∀ w ∈ s.workers ++ [⟨.opened, [], []⟩], w.isRunning = true → w.batch = [] := by
        intro w hMem hRuns
        rcases List.mem_append.mp hMem with hOld | hNew
        · rw [hIdle w hOld] at hRuns
          cases hRuns
        · rw [List.mem_singleton.mp hNew]
          rfl
      rcases hOffers { s with workers := s.workers ++ [⟨.opened, [], []⟩] }
          hOpened hLeft with ⟨ks, batch, hServed, hSome⟩
      have hRun : Transition.run (step key serves now) s
              (whole s.workers.length ks batch.length) = some
              ⟨fun k =>
                  if k ∈ batch.map key then some now
                  else s.marked k, s.workers ++ [⟨.committed, batch, []⟩],
                s.performed ++ batch⟩ := run_whole hServed
      have hIdle' : ∀ w ∈ s.workers ++ [⟨.committed, batch, []⟩], w.isRunning = false := by
        intro w hMem
        rcases List.mem_append.mp hMem with hOld | hNew
        · exact hIdle w hOld
        · rw [List.mem_singleton.mp hNew]
          rfl
      have hFewer : items.countP (fun m =>
              (if key m ∈ batch.map key then some now
                else s.marked (key m)).isNone) < n := by
        rw [← hCount]
        rcases List.exists_mem_of_ne_nil batch hSome with ⟨m, hBatch⟩
        rcases (hServes _ ks batch hServed).1 m hBatch with ⟨hItem, hAvailable⟩
        simp only [State.available, Bool.and_eq_true] at hAvailable
        refine countP_lt_of_stricter ?_ hItem ?_ hAvailable.1
        · intro m' hNone
          split at hNone
          · cases hNone
          · exact hNone
        · rw [if_pos (List.mem_map_of_mem hBatch)]
          rfl
      rcases ih _ hFewer
          ⟨fun k =>
              if k ∈ batch.map key then some now
              else s.marked k, s.workers ++ [⟨.committed, batch, []⟩],
            s.performed ++ batch⟩ hIdle' rfl with ⟨as, s', hUnfailed, hRest, hAll⟩
      refine ⟨whole s.workers.length ks batch.length ++ as, s', ?_, ?_, hAll⟩
      · intro a hMem
        rcases List.mem_append.mp hMem with hFirst | hLater
        · exact whole_unfailed _ _ _ a hFirst
        · exact hUnfailed a hLater
      · rw [Transition.run_append, hRun]
        exact hRest
    · refine ⟨[], s, ?_, rfl, ?_⟩
      · intro a hMem
        cases hMem
      · intro m hMem
        cases hMarked : s.marked (key m) with
        | none => exact absurd ⟨m, hMem, hMarked⟩ hLeft
        | some now => rfl

end Dispatch
