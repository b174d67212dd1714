import Fincore.Ledger.Worker
import Fincore.Lib.Worker
import Fincore.Pkg.Streams

/-
  Which events the projection worker of the ledger reads.

  The worker's offset is the highest sequence it has seen. An event gets its sequence when it is
  inserted and becomes visible when its transaction commits, so an event can become visible behind
  the offset.

  Key definitions include:
    * `Reading` and `readStep`
    * `Calls.inOrder`

  Main results:
    * `readInv_step`
    * `every_event_read`
-/

----
-- What Has Been Read
----

namespace Fincore.Ledger

/- The rows that the statement of the worker returns to it. -/
def Service.reads (s : Service) : ServiceAction → List EventRow
| .exec =>
  match s.batch with
  | some (.ask (.selectAllEvents fromSequence limit) _) =>
    match postgres.exec (postgres.now s.calls.db)
        (.selectAllEvents fromSequence limit) s.calls.db with
    | .ok (rows, _) => rows
    | .error _ => []
  | _ => []
| _ => []

/- The service, and all rows that batches have read. -/
structure Reading where
  service : Service
  read : List EventRow

def Reading.start (db : Database) : Reading := ⟨Service.start db, []⟩

def readStep (s : Reading) (a : ServiceAction) : Option Reading :=
  (serviceStep s.service a).map (fun service =>
    ⟨service, s.read ++ s.service.reads a⟩)

/- No event is outstanding behind one that is committed. -/
def Calls.inOrder (cfg : Calls) : Bool :=
  (cfg.outstanding sequences).all (fun row =>
    cfg.db.events.all (fun committed =>
      committed.sequence < row.sequence))

/- The log is in order whenever the worker reads it. -/
def Reading.readsInOrder (s : Reading) : ServiceAction → Bool
| .exec =>
  match s.service.batch with
  | some (.ask (.selectAllEvents _ _) _) =>
    s.service.calls.inOrder
  | _ => true
| _ => true

/- All transactions have ended. -/
def Calls.ended (cfg : Calls) : Bool :=
  cfg.calls.all (fun call =>
    match call.state with
    | .running _ => false
    | .returned _ => true)

/- A step of the worker. -/
def ServiceAction.isWorker : ServiceAction → Bool
| .call _ => false
| _ => true

----
-- The Service As A Worker
----

def Service.state (s : Service) :
    Worker.State Database (PostEntry × Env) Stmt Resp Write GoError String :=
  ⟨s.calls, s.lastSeq, s.batch⟩

def ServiceAction.action : ServiceAction → Worker.Action (PostEntry × Env)
| .call a => .call a
| .poll => .poll
| .exec => .exec
| .unacked => .unacked
| .finish => .finish
| .broke => .broke
| .restart => .restart

theorem worker_step {s s' : Service} {a : ServiceAction}
    (hStep : serviceStep s a = some s') : Worker.step postgres serve
    (processNextBatch projectionVersion) s.state a.action = some s'.state := by
  have hEq : Worker.step postgres serve (processNextBatch projectionVersion) s.state a.action =
      (serviceStep s a).map Service.state := by
    rcases s with ⟨calls, lastSeq, batch⟩
    cases a with
    | call a =>
      simp [serviceStep, Worker.step, ServiceAction.action,
        Service.state, callStep, Function.comp_def]
    | poll => cases batch <;> rfl
    | exec =>
      rcases batch with _ | (_ | _ | ⟨stmt, k⟩)
      · rfl
      · rfl
      · rfl
      · simp only [serviceStep, Worker.step, ServiceAction.action, Service.state]
        rcases postgres.autocommit calls stmt with
          _ | ⟨_ | _, _⟩ <;> rfl
    | unacked =>
      rcases batch with _ | (_ | _ | ⟨stmt, k⟩)
      · rfl
      · rfl
      · rfl
      · simp only [serviceStep, Worker.step, ServiceAction.action, Service.state]
        rcases postgres.autocommit calls stmt with
          _ | ⟨_, _⟩ <;> rfl
    | finish =>
      rcases batch with _ | (_ | _ | _) <;> rfl
    | broke => rfl
    | restart => rfl
  rw [hEq, hStep]
  rfl

----
-- Runs
----

/- What the read returns, and what is left to do after it. -/
def batchAfter (lastSeq : Nat) (rows : List EventRow) : Tx (Nat × Nat) := do
  applyEvents projectionVersion (rows.map EventRow.event)
  return (rows.length, (rows.map EventRow.sequence).getLast?.getD lastSeq)

theorem processNextBatch_eq (lastSeq : Nat) : processNextBatch projectionVersion lastSeq =
    .ask (.selectAllEvents lastSeq 100) (batchAfter lastSeq) := by
  show Prog.ask (Stmt.selectAllEvents lastSeq 100) _ = _
  congr 1
  funext rows
  unfold batchAfter
  rw [← List.length_map EventRow.event]
  rfl

theorem batchAfter_returns (lastSeq : Nat) (rows : List EventRow) {P : Nat × Nat → Prop}
    (hReport : P (rows.length, (rows.map EventRow.sequence).getLast?.getD lastSeq)) :
    (batchAfter lastSeq rows).Returns P := Prog.returns_bind _ (fun _ => hReport)

theorem exec_selectAllEvents {began fromSequence limit : Nat} {db : Database}
    {rows : List EventRow} {ws : List Write}
    (hExec : postgres.exec began (.selectAllEvents fromSequence limit) db = .ok (rows, ws)) : rows =
    Engine.page EventRow.sequence fromSequence limit
    db.events := by
  have hAnswer := Stmt.answer_of_exec hExec
  cases hAnswer
  rfl

theorem draws_callsStep {cfg cfg' : Calls} (hStep : CallsStep cfg cfg') :
    ∃ new, Engine.Draws sequences cfg cfg' new := by
  cases hStep with
  | same => exact ⟨none, .refl sequences cfg⟩
  | call a hCall => exact Engine.draws_step sequences hCall
  | outside stmt hFree hRange =>
    refine ⟨none, Engine.draws_outside sequences cfg stmt ?_⟩
    rcases hFree with rfl | ⟨a, d, rfl, _⟩
    · rfl
    · rfl

/-
  All events up to the offset have been read, and so will all up to the offset that the batch
  reports.
-/
structure ReadInv (s : Reading) : Prop where
  distinct : Engine.Distinct sequences s.service.calls
  offset : s.service.calls.Caught sequences s.read s.service.lastSeq
  deltas : ∀ p, s.service.batch = some p → OnlyDeltas p
  batch : ∀ p, s.service.batch = some p → p = processNextBatch projectionVersion
          s.service.lastSeq ∨ p.Returns (fun report =>
          s.service.calls.Caught sequences s.read report.2)

theorem readInv_start (schema : Schema) : ReadInv (Reading.start (Database.empty schema)) := by
  have hDistinct : Engine.Distinct sequences
      (Calls.start (Database.empty schema)) := Engine.distinct_start rfl
  refine ⟨hDistinct, hDistinct.caught_zero [], ?_, ?_⟩
  · intro p hBatch
    cases hBatch
  · intro p hBatch
    cases hBatch

theorem Calls.inOrder_iff {cfg : Calls} : cfg.inOrder = true ↔
    ∀ row ∈ cfg.outstanding sequences, ∀ committed ∈ cfg.db.events,
    committed.sequence < row.sequence := by
  unfold Calls.inOrder
  simp

/-
  What the batch is going to report after its next answer is an offset up to which all has been
  read.
-/
theorem ReadInv.report {s : Reading} (hInv : ReadInv s)
    (hOrder : s.readsInOrder .exec = true) {stmt : Stmt} {k : Resp stmt → Tx (Nat × Nat)}
    (hAsk : s.service.batch = some (.ask stmt k)) {r : Resp stmt} {ws : List Write}
    (hExec : postgres.exec (postgres.now s.service.calls.db) stmt
      s.service.calls.db = .ok (r, ws)) :
    (k r).Returns (fun report =>
      s.service.calls.Caught sequences (s.read ++ s.service.reads .exec) report.2) := by
  rcases hInv.batch _ hAsk with hUnread | hRead
  · rw [processNextBatch_eq] at hUnread
    cases hUnread
    have hReads : s.service.reads .exec = r := by
      unfold Service.reads
      rw [hAsk]
      simp only [hExec]
    have hInOrder : s.service.calls.inOrder = true := by
      unfold Reading.readsInOrder at hOrder
      rw [hAsk] at hOrder
      exact hOrder
    apply batchAfter_returns
    rw [hReads, exec_selectAllEvents hExec]
    exact hInv.offset.page hInv.distinct (Calls.inOrder_iff.mp hInOrder) 100
  · apply (hRead r).mono
    intro report hCaught
    exact hCaught.draws (.refl sequences _) _

theorem readInv_step {s s' : Reading} {a : ServiceAction} (hInv : ReadInv s)
    (hOrder : s.readsInOrder a = true) (hStep : readStep s a = some s') : ReadInv s' := by
  rcases Option.map_eq_some_iff.mp hStep with ⟨service', hService, rfl⟩
  rcases serviceStep_spec hInv.deltas hService with ⟨hCalls, hDeltas⟩
  rcases draws_callsStep hCalls with ⟨new, hDraws⟩
  have hDistinct := hInv.distinct.draws hDraws
  have hOffset := hInv.offset.draws hDraws (s.service.reads a)
  have hBatch : ∀ p, s.service.batch = some p →
        p = processNextBatch projectionVersion s.service.lastSeq ∨ p.Returns (fun report =>
            service'.calls.Caught sequences (s.read ++ s.service.reads a) report.2) := by
    intro p hSome
    rcases hInv.batch p hSome with hUnread | hRead
    · exact Or.inl hUnread
    · right
      apply hRead.mono
      intro report hCaught
      exact hCaught.draws hDraws _
  have hSpec := Worker.step_spec (worker_step hService)
  generalize hAction : a.action = action at hSpec
  generalize hState : service'.state = state' at hSpec
  have hLast' : service'.lastSeq = state'.lastSeq := congrArg Worker.State.lastSeq hState
  have hBatch' : service'.batch = state'.batch := congrArg Worker.State.batch hState
  refine ⟨hDistinct, ?_, hDeltas, ?_⟩
  · show service'.calls.Caught sequences _ service'.lastSeq
    rw [hLast']
    cases hSpec with
    | called hCall => exact hOffset
    | polled hNone => exact hOffset
    | sent hKind hAsk hFree hSent => exact hOffset
    | ended hRet =>
      rcases hBatch _ hRet with hUnread | hRead
      · cases hUnread
      · dsimp only
        split
        · exact hRead
        · exact hOffset
    | dropped _ _ hWhy =>
      cases hWhy with
      | failed hFail => exact hOffset
      | broke => exact hOffset
      | restarted => exact hDistinct.caught_zero _
  · intro p hSome
    have hSome : service'.batch = some p := hSome
    show p = processNextBatch projectionVersion service'.lastSeq ∨ _
    rw [hBatch'] at hSome
    rw [hLast']
    cases hSpec with
    | called hCall => exact hBatch p hSome
    | polled hNone =>
      cases hSome
      exact Or.inl rfl
    | ended hRet => cases hSome
    | dropped _ _ hWhy => cases hSome
    | @sent _ _ _ _ rest hKind hAsk hFree hSent =>
      have hSome : rest = some p := hSome
      subst hSome
      rcases hKind with rfl | ⟨_, hLost⟩
      · have hExecuted : a = .exec := by
          cases a with
          | exec => rfl
          | _ => cases hAction
        subst hExecuted
        cases hSent with
        | done hExec hRest =>
          rcases hRest with hRest | hRest
          · cases hRest
            right
            apply (hInv.report hOrder hAsk hExec).mono
            intro report hCaught
            have hLater := hCaught.draws hDraws []
            rwa [List.append_nil] at hLater
          · cases hRest
      · cases hLost

theorem Calls.outstanding_of_ended {cfg : Calls} (hEnded : cfg.ended = true) :
    cfg.outstanding sequences = [] := by
  apply List.flatMap_eq_nil_iff.mpr
  intro call hMem
  have hReturned := List.all_eq_true.mp hEnded call hMem
  rcases call with ⟨input, state⟩
  cases state with
  | running t => cases hReturned
  | returned r => rfl

/-
  After the last transaction: a batch that is going to report 0 has seen that there is nothing past
  the offset.
-/
structure LastInv (s : Reading) : Prop where
  ended : s.service.calls.ended = true
  read : ReadInv s
  batch : ∀ p, s.service.batch = some p → p = processNextBatch projectionVersion
          s.service.lastSeq ∨ p.Returns (fun report =>
          report.1 = 0 → ∀ row ∈ s.service.calls.db.events, row.sequence ≤ s.service.lastSeq)

theorem LastInv.readsInOrder {s : Reading} (hInv : LastInv s)
    (a : ServiceAction) : s.readsInOrder a = true := by
  have hInOrder : s.service.calls.inOrder = true := by
    unfold Calls.inOrder
    rw [Calls.outstanding_of_ended hInv.ended]
    rfl
  unfold Reading.readsInOrder
  split
  · split
    · exact hInOrder
    · rfl
  · rfl

theorem LastInv.report {s : Reading} (hInv : LastInv s) {stmt : Stmt}
    {k : Resp stmt → Tx (Nat × Nat)} (hAsk : s.service.batch = some (.ask stmt k)) {r : Resp stmt}
    {ws : List Write}
    (hExec : postgres.exec (postgres.now s.service.calls.db) stmt
      s.service.calls.db = .ok (r, ws)) :
    (k r).Returns (fun report =>
      report.1 = 0 → ∀ row ∈ s.service.calls.db.events, row.sequence ≤ s.service.lastSeq) := by
  rcases hInv.batch _ hAsk with hUnread | hRead
  · rw [processNextBatch_eq] at hUnread
    cases hUnread
    apply batchAfter_returns
    intro hZero row hMem
    have hNil := List.eq_nil_of_length_eq_zero hZero
    rw [exec_selectAllEvents hExec] at hNil
    exact Engine.le_of_page_eq_nil (by decide) hNil hMem
  · exact hRead r

theorem lastInv_step {s s' : Reading} {a : ServiceAction} (hInv : LastInv s)
    (hWorker : a.isWorker = true) (hStep : readStep s a = some s') : LastInv s' := by
  have hRead := readInv_step hInv.read (hInv.readsInOrder a) hStep
  rcases Option.map_eq_some_iff.mp hStep with ⟨service', hService, rfl⟩
  rcases draws_callsStep (serviceStep_spec hInv.read.deltas hService).1 with ⟨new, hDraws⟩
  -- nothing is outstanding, so nothing becomes visible
  have hEvents : ∀ row ∈ service'.calls.db.events, row ∈ s.service.calls.db.events := by
    intro row hMem
    rcases hDraws.stored row hMem with hOld | hHeld
    · exact hOld
    · rw [Calls.outstanding_of_ended hInv.ended] at hHeld
      cases hHeld
  have hSpec := Worker.step_spec (worker_step hService)
  generalize hAction : a.action = action at hSpec
  generalize hState : service'.state = state' at hSpec
  have hCalls' : service'.calls = state'.calls := congrArg Worker.State.calls hState
  have hLast' : service'.lastSeq = state'.lastSeq := congrArg Worker.State.lastSeq hState
  have hBatch' : service'.batch = state'.batch := congrArg Worker.State.batch hState
  refine ⟨?_, hRead, ?_⟩
  · show service'.calls.ended = true
    rw [hCalls']
    cases hSpec with
    | called hCall =>
      cases a with
      | call a => cases hWorker
      | _ => cases hAction
    | polled hNone => exact hInv.ended
    | sent hKind hAsk hFree hSent =>
      cases hSent with
      | done hExec hRest => exact hInv.ended
      | failed => exact hInv.ended
    | ended hRet => exact hInv.ended
    | dropped _ _ hWhy => exact hInv.ended
  · intro p hSome
    have hSome : service'.batch = some p := hSome
    show p = processNextBatch projectionVersion service'.lastSeq ∨ p.Returns (fun report =>
        report.1 = 0 → ∀ row ∈ service'.calls.db.events, row.sequence ≤ service'.lastSeq)
    rw [hBatch'] at hSome
    rw [hLast']
    cases hSpec with
    | called hCall =>
      cases a with
      | call a => cases hWorker
      | _ => cases hAction
    | polled hNone =>
      cases hSome
      exact Or.inl rfl
    | @sent _ _ _ _ rest hKind hAsk hFree hSent =>
      have hSome : rest = some p := hSome
      subst hSome
      cases hSent with
      | done hExec hRest =>
        rcases hRest with hRest | hRest
        · cases hRest
          right
          apply (hInv.report hAsk hExec).mono
          intro report hNone hZero row hMem
          exact hNone hZero row (hEvents row hMem)
        · cases hRest
    | ended hRet => cases hSome
    | dropped _ _ hWhy => cases hSome

/-
  The worker skips no event if, whenever it reads, no event is outstanding behind one that is
  committed: once all transactions have ended and a later batch reports that it has processed none,
  every committed event has been read.
-/
theorem every_event_read (schema : Schema) (schedule rest : List ServiceAction) (s s' : Reading)
    (hOrder : Transition.Meets readStep (fun s a => s.readsInOrder a = true)
      (Reading.start (Database.empty schema)) schedule)
    (hRun : Transition.run readStep (Reading.start (Database.empty schema)) schedule = some s)
    (hEnded : s.service.calls.ended = true) (hIdle : s.service.batch.isNone = true)
    (hWorker : Transition.Meets readStep (fun _ a => a.isWorker = true) s rest)
    (hRest : Transition.run readStep s rest = some s') (nextSeq : Nat)
    (hReport : s'.service.batch = some (.ret (0, nextSeq))) :
    ∀ row ∈ s'.service.calls.db.events, row ∈ s'.read := by
  have hRead : ReadInv s := by
    apply Transition.run_induction_of_meets _ _ hOrder hRun
    · intro s a s' hInv hOrder hStep
      exact readInv_step hInv hOrder hStep
    · exact readInv_start schema
  have hStart : LastInv s := by
    refine ⟨hEnded, hRead, ?_⟩
    intro p hBatch
    rw [hBatch] at hIdle
    cases hIdle
  have hLast : LastInv s' := by
    apply Transition.run_induction_of_meets _ hStart hWorker hRest
    intro s a s' hInv hWorker hStep
    exact lastInv_step hInv hWorker hStep
  intro row hMem
  rcases hLast.batch _ hReport with hUnread | hNone
  · cases hUnread
  · exact hLast.read.offset.all row hMem (hNone rfl row hMem)

/- A deposit of 100, and the batch that reads it. -/
theorem deposit_read : ∃ s s', Transition.run readStep
      (Reading.start (Database.empty ledgerSchema)) depositBatch = some s ∧
      Transition.run readStep s [.poll, .exec] = some s' ∧ s'.read.map EventRow.sequence = [1] ∧
      ∀ row ∈ s'.service.calls.db.events, row ∈ s'.read :=
  ⟨_, _, rfl, rfl, rfl, every_event_read ledgerSchema depositBatch [.poll, .exec]
      _ _ (by decide) rfl rfl rfl (by decide) rfl 1 rfl⟩

/-
  Call 0 inserts its event, call 1 posts another one, the worker reads and applies that, and call 0
  commits.
-/
def committedBehind : List ServiceAction :=
  [.call (.start (.of "a" "first" entryTypeDeposit 100, .tagged "a")),
    .call (.exec 0), .call (.exec 0), .call (.exec 0)] ++
    wholeCall 1 (.of "b" "second" entryTypeDeposit 50) (.tagged "b") ++
    [.poll, .exec, .exec, .finish, .call (.exec 0),
      .call (.exec 0), .call (.exec 0), .call (.finish 0)]

/- Its event is behind the offset, and is never read. -/
theorem event_skipped : ∃ s s', Transition.run readStep
      (Reading.start (Database.empty ledgerSchema))
      committedBehind = some s ∧ s.service.calls.ended = true ∧
      Transition.run readStep s [.poll, .exec] = some s' ∧ s'.service.batch = some (.ret (0, 2)) ∧
      s'.service.calls.db.events.map EventRow.sequence = [2, 1] ∧
      s'.read.map EventRow.sequence = [2] := ⟨_, _, rfl, rfl, rfl, rfl, rfl, rfl⟩

end Fincore.Ledger
