import Fincore.Lib.Dispatch

/-
  Workers of `Dispatch` that come one after the other.

  As long as a worker begins only when none is running and none fails, the effects take place in the
  order in which the items have been claimed.

  Key definitions include:
    * `Dispatch.State.taken`
    * `Dispatch.State.sequential`
    * `Dispatch.InTurn`

  Main results:
    * `Dispatch.inTurn_step`
    * `Dispatch.taken_step`
    * `Dispatch.prefix_of_first`
-/

----
-- One At A Time
----

namespace Dispatch

variable {K M : Type}

/- The items that have been claimed, in order. -/
def State.taken (s : State K M) : List M := s.performed ++ s.workers.flatMap Worker.todo

/- A worker begins when none is running, and none fails. -/
def State.sequential (s : State K M) : Action K → Bool
| .begin => s.workers.all (fun w => !w.isRunning)
| a => !a.isFailure

/- No worker has failed and at most one is running. -/
structure InTurn (s : State K M) : Prop where
  unfailed : ∀ w ∈ s.workers, w.isFailed = false
  turn : ∀ (i j : Nat) (w w' : Worker M), s.workers[i]? = some w → s.workers[j]? = some w' →
        w.isRunning = true → w'.isRunning = true → i = j

theorem inTurn_start : InTurn (State.start : State K M) := by
  refine ⟨?_, ?_⟩
  · intro w hMem
    cases hMem
  · intro i j w w' hi
    cases hi

variable {s s' : State K M} {a : Action K}

theorem not_failure_of_sequential (hTurn : s.sequential a = true) : a.isFailure = false := by
  cases a with
  | unacked i => cases hTurn
  | fail i => cases hTurn
  | _ => rfl

theorem running_replaced {i j : Nat} {w w' v : Worker M}
    (hWorker : s.workers[i]? = some w) (hRunning : w.isRunning = true)
    (hFound : (s.workers.set i w')[j]? = some v) (hRuns : v.isRunning = true) :
    ∃ v₀, s.workers[j]? = some v₀ ∧ v₀.isRunning = true := by
  rcases getElem?_replaced hFound with ⟨rfl, _⟩ | ⟨_, hBefore⟩
  · exact ⟨w, hWorker, hRunning⟩
  · exact ⟨v, hBefore, hRuns⟩

variable [DecidableEq K] {key : M → K} {serves : State K M → List K → Option (List M)} {now : Nat}

theorem inTurn_step (hInv : InTurn s) (hTurn : s.sequential a = true)
    (hStep : step key serves now s a = some s') : InTurn s' := by
  refine ⟨unfailed_step hInv.unfailed (not_failure_of_sequential hTurn) hStep, ?_⟩
  -- a running worker that is replaced was the only one
  have hReplaced : ∀ (i : Nat) (w w' : Worker M), s.workers[i]? = some w → w.isRunning = true →
      ∀ (j l : Nat) (v v' : Worker M), (s.workers.set i w')[j]? = some v →
      (s.workers.set i w')[l]? = some v' → v.isRunning = true → v'.isRunning = true → j = l := by
    intro i w w' hWorker hRunning j l v v' hj hl hv hv'
    rcases running_replaced hWorker hRunning hj hv with ⟨v₀, hj, hv⟩
    rcases running_replaced hWorker hRunning hl hv' with ⟨v₀', hl, hv'⟩
    exact hInv.turn j l v₀ v₀' hj hl hv hv'
  cases step_spec hStep with
  | begun =>
    have hLast : ∀ (j : Nat) (v : Worker M), (s.workers ++ [⟨.opened, [], []⟩])[j]? = some v →
        v.isRunning = true → j = s.workers.length := by
      intro j v hj hv
      rcases Nat.lt_or_ge j s.workers.length with hLt | hGe
      · rw [List.getElem?_append_left hLt] at hj
        have hNone := List.all_eq_true.mp hTurn v (List.mem_of_getElem? hj)
        rw [hv] at hNone
        cases hNone
      · have hUpper := (List.getElem?_eq_some_iff.mp hj).1
        rw [List.length_append, List.length_singleton] at hUpper
        omega
    intro j l v v' hj hl hv hv'
    rw [hLast j v hj hv, hLast l v' hl hv']
  | claimed hWorker hServes =>
    exact hReplaced _ _ _ hWorker rfl
  | went hWorker hRunning hStage =>
    exact hReplaced _ _ _ hWorker hRunning
  | sent hWorker hStage =>
    exact hReplaced _ _ _ hWorker rfl
  | committed hWorker =>
    exact hReplaced _ _ _ hWorker rfl

----
-- Claimed And Performed
----

variable {K M : Type} {key : M → K} {items : List M} {s s' : State K M}

variable {m : M}

theorem Invariant.sent_of_performed (hInv : Invariant key items s)
    (hMem : m ∈ s.performed) : ∃ w ∈ s.workers, m ∈ w.sent := by
  classical
  by_contra hNone
  have hCount := hInv.count (fun m' => decide (m' = m))
  have hZero : (s.workers.map (fun w =>
        w.sent.countP (fun m' => decide (m' = m)))).sum = 0 := by
    apply List.sum_eq_zero
    intro n hn
    rcases List.mem_map.mp hn with ⟨w, hWorker, rfl⟩
    apply List.countP_eq_zero.mpr
    intro m' hSent hSame
    rw [of_decide_eq_true hSame] at hSent
    exact hNone ⟨w, hWorker, hSent⟩
  have hPos : 0 < s.performed.countP (fun m' => decide (m' = m)) :=
    List.countP_pos_iff.mpr ⟨m, hMem, decide_eq_true rfl⟩
  omega

/- What has been claimed is in the table. -/
theorem Invariant.known_of_taken (hInv : Invariant key items s)
    (hMem : m ∈ s.taken) : m ∈ items := by
  rcases List.mem_append.mp hMem with hDone | hTodo
  · rcases hInv.sent_of_performed hDone with ⟨w, hWorker, hSent⟩
    exact hInv.known w hWorker m (List.mem_append_left _ hSent)
  · rcases List.mem_flatMap.mp hTodo with ⟨w, hWorker, hIn⟩
    exact hInv.known w hWorker m (List.mem_append_right _ hIn)

variable {w : Worker M}

theorem Invariant.todo_of_committed (hInv : Invariant key items s) (hWorker : w ∈ s.workers)
    (hCommitted : w.stage = .committed) : w.todo = [] := by
  apply List.eq_nil_iff_forall_not_mem.mpr
  intro m hTodo
  have hSent := (hInv.committed w hWorker hCommitted m (List.mem_append_right _ hTodo)).1
  have hDistinct := hInv.distinct w hWorker
  unfold Worker.batch at hDistinct
  rw [List.map_append] at hDistinct
  exact (List.nodup_append.mp hDistinct).2.2 (key m)
    (List.mem_map_of_mem hSent) (key m) (List.mem_map_of_mem hTodo) rfl

variable {i : Nat}

theorem flatMap_todo {ws : List (Worker M)} (hWorker : ws[i]? = some w)
    (hOthers : ∀ (j : Nat) (v : Worker M), j ≠ i →
    ws[j]? = some v → v.todo = []) : ws.flatMap Worker.todo = w.todo := by
  induction ws generalizing i with
  | nil => cases hWorker
  | cons v ws ih =>
    rw [List.flatMap_cons]
    cases i with
    | zero =>
      cases hWorker
      have hRest : ws.flatMap Worker.todo = [] := by
        apply List.flatMap_eq_nil_iff.mpr
        intro v hMem
        rcases List.getElem?_of_mem hMem with ⟨j, hj⟩
        exact hOthers (j + 1) v (Nat.succ_ne_zero j) hj
      rw [hRest, List.append_nil]
    | succ i =>
      rw [hOthers 0 v (Nat.succ_ne_zero i).symm rfl, List.nil_append]
      refine ih hWorker ?_
      intro j v' hNe hj
      exact hOthers (j + 1) v' (fun hSame => hNe (Nat.succ.inj hSame)) hj

theorem InTurn.todo_of_ne (hTurn : InTurn s) (hInv : Invariant key items s)
    (hWorker : s.workers[i]? = some w)
    (hRunning : w.isRunning = true) (j : Nat) (v : Worker M) (hNe : j ≠ i)
    (hj : s.workers[j]? = some v) : v.todo = [] := by
  have hMem := List.mem_of_getElem? hj
  rcases Worker.running_or_committed (hTurn.unfailed v hMem) with hRuns | hCommitted
  · exact absurd (hTurn.turn j i v w hj hWorker hRuns hRunning) hNe
  · exact hInv.todo_of_committed hMem hCommitted

/- What is left to do before and after a worker's step. -/
theorem InTurn.flatMap_replaced (hTurn : InTurn s) (hInv : Invariant key items s)
    (hWorker : s.workers[i]? = some w) (hRunning : w.isRunning = true)
    (w' : Worker M) : s.workers.flatMap Worker.todo = w.todo ∧
    (s.workers.set i w').flatMap Worker.todo = w'.todo := by
  have hOthers := hTurn.todo_of_ne hInv hWorker hRunning
  have hLt := (List.getElem?_eq_some_iff.mp hWorker).1
  refine ⟨flatMap_todo hWorker hOthers, flatMap_todo (List.getElem?_set_self hLt) ?_⟩
  intro j v hNe hj
  rw [List.getElem?_set_ne (Ne.symm hNe)] at hj
  exact hOthers j v hNe hj

theorem InTurn.marked_of_performed (hTurn : InTurn s)
    (hInv : Invariant key items s) {sent todo : List M}
    (hWorker : s.workers[i]? = some ⟨.opened, sent, todo⟩)
    (hMem : m ∈ s.performed) : (s.marked (key m)).isSome = true := by
  rcases hInv.sent_of_performed hMem with ⟨v, hv, hSent⟩
  have hBatch : m ∈ v.batch := List.mem_append_left _ hSent
  rcases Worker.running_or_committed (hTurn.unfailed v hv) with hRuns | hCommitted
  · rcases List.getElem?_of_mem hv with ⟨j, hj⟩
    have hSame := hTurn.turn j i v _ hj hWorker hRuns rfl
    subst hSame
    rw [hWorker] at hj
    cases hj
    rw [hInv.opened _ hv rfl] at hBatch
    cases hBatch
  · exact (hInv.committed v hv hCommitted m hBatch).2

variable [DecidableEq K]

/- What has not been claimed can be. -/
theorem Invariant.available_of_not_taken (hInv : Invariant key items s) {k : K}
    (hNot : k ∉ s.taken.map key) : s.available key k = true := by
  have hFree : ∀ w ∈ s.workers, ∀ m ∈ w.batch, key m ≠ k := by
    intro w hWorker m hBatch hSame
    apply hNot
    rw [← hSame]
    apply List.mem_map_of_mem
    rcases List.mem_append.mp hBatch with hSent | hTodo
    · exact List.mem_append_left _ (hInv.performed_of_sent hWorker hSent)
    · exact List.mem_append_right _ (List.mem_flatMap.mpr ⟨w, hWorker, hTodo⟩)
  unfold State.available
  rw [Bool.and_eq_true, List.all_eq_true]
  refine ⟨?_, ?_⟩
  · cases hMarked : s.marked k with
    | none => rfl
    | some t =>
      rcases hInv.marked k (by rw [hMarked]; rfl) with ⟨w, hWorker, _, m, hSent, hSame⟩
      exact absurd hSame (hFree w hWorker m (List.mem_append_left _ hSent))
  · intro w hWorker
    rw [Bool.or_eq_true]
    right
    apply decide_eq_true
    intro hMem
    rcases List.mem_map.mp hMem with ⟨m, hBatch, hSame⟩
    exact hFree w hWorker m hBatch hSame

/- Only a claim adds to what has been claimed. All that was claimed before it is marked by then. -/
theorem taken_step {serves : State K M → List K → Option (List M)} {now : Nat}
    {a : Action K} (hInv : Invariant key items s) (hTurn : InTurn s)
    (hSequential : s.sequential a = true)
    (hStep : step key serves now s a = some s') : s'.taken = s.taken ∨
    ∃ ks batch, serves s ks = some batch ∧ s'.taken = s.taken ++ batch ∧
    ∀ m ∈ s.taken, (s.marked (key m)).isSome = true := by
  unfold State.taken
  cases step_spec hStep with
  | begun =>
    left
    show _ ++ (s.workers ++ [_]).flatMap Worker.todo = _
    rw [List.flatMap_append]
    simp
  | claimed hWorker hServes =>
    right
    rcases hTurn.flatMap_replaced hInv hWorker rfl ⟨.sending, [], _⟩ with ⟨hBefore, hAfter⟩
    have hNone : s.workers.flatMap Worker.todo = [] := by
      have hBatch := hInv.opened _ (List.mem_of_getElem? hWorker) rfl
      rw [hBefore]
      exact (List.append_eq_nil_iff.mp hBatch).2
    refine ⟨_, _, hServes, ?_, ?_⟩
    · rw [hNone, List.append_nil]
      exact congrArg (s.performed ++ ·) hAfter
    · intro m hMem
      rw [hNone, List.append_nil] at hMem
      exact hTurn.marked_of_performed hInv hWorker hMem
  | went hWorker hRunning hStage =>
    left
    rcases hTurn.flatMap_replaced hInv hWorker hRunning ⟨_, _, _⟩ with ⟨hBefore, hAfter⟩
    rw [hBefore]
    exact congrArg (s.performed ++ ·) hAfter
  | sent hWorker hStage =>
    left
    rcases hTurn.flatMap_replaced hInv hWorker rfl ⟨_, _, _⟩ with ⟨hBefore, hAfter⟩
    rw [hBefore]
    show (s.performed ++ [_]) ++ (s.workers.set _ _).flatMap Worker.todo = _
    rw [hAfter, List.append_assoc]
    rfl
  | committed hWorker =>
    left
    rcases hTurn.flatMap_replaced hInv hWorker rfl ⟨_, _, _⟩ with ⟨hBefore, hAfter⟩
    rw [hBefore]
    exact congrArg (s.performed ++ ·) hAfter

----
-- The First Ones
----

variable {M : Type}

/-
  The list is sorted, and `picked` are its first elements in some order that respects the numbers:
  then it is how the list begins.
-/
theorem prefix_of_first {f : M → Nat} {l picked : List M}
    (hSorted : l.Pairwise (fun x y => f x < f y)) (hSub : ∀ x ∈ picked, x ∈ l)
    (hNodup : picked.Nodup) (hOrdered : picked.Pairwise (fun x y => f x ≤ f y))
    (hFirst : ∀ x ∈ l, x ∈ picked ∨ ∀ y ∈ picked, f y ≤ f x) : picked <+: l := by
  induction l generalizing picked with
  | nil =>
    have hNone : picked = [] :=
      List.eq_nil_iff_forall_not_mem.mpr (fun x hMem =>
        List.not_mem_nil (hSub x hMem))
    subst hNone
    exact List.nil_prefix
  | cons x l ih =>
    cases picked with
    | nil => exact List.nil_prefix
    | cons y picked =>
      rcases List.pairwise_cons.mp hSorted with ⟨hLess, hSorted'⟩
      rcases List.pairwise_cons.mp hOrdered with ⟨hLeast, hOrdered'⟩
      rcases List.nodup_cons.mp hNodup with ⟨hNew, hNodup'⟩
      -- the least one picked is the first of the list
      have hSame : y = x := by
        rcases List.mem_cons.mp (hSub y List.mem_cons_self) with hEq | hLater
        · exact hEq
        · have hLt := hLess y hLater
          have hLe : f y ≤ f x := by
            rcases hFirst x List.mem_cons_self with hMem | hAll
            · rcases List.mem_cons.mp hMem with rfl | hIn
              · exact Nat.le_refl _
              · exact hLeast x hIn
            · exact hAll y List.mem_cons_self
          omega
      subst hSame
      apply List.prefix_cons_inj y |>.mpr
      apply ih hSorted' _ hNodup' hOrdered'
      · intro x' hMem
        rcases hFirst x' (List.mem_cons_of_mem y hMem) with hIn | hAll
        · rcases List.mem_cons.mp hIn with rfl | hIn
          · have hLt := hLess x' hMem
            omega
          · exact Or.inl hIn
        · right
          intro y' hIn
          exact hAll y' (List.mem_cons_of_mem y hIn)
      · intro x' hMem
        rcases List.mem_cons.mp (hSub x' (List.mem_cons_of_mem y hMem)) with rfl | hIn
        · exact absurd hMem hNew
        · exact hIn

end Dispatch
