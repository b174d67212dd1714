import Fincore.Ledger.Rebuild
import Fincore.Lib.Worker

/-
  Retried batches of the ledger's projection worker.

  `Start` goes on from its offset, which moves when a whole batch has been applied. The deltas of a
  batch commit one by one: what a failed batch has applied by then stays, and the next tick applies
  it again.

  Key definitions include:
    * `signedSum`
    * `Projector` and `projectorStep`
    * `Projector.early`

  Main results:
    * `projected_step`
    * `retried_balances_eq`
-/

----
-- One Process Lifetime
----

namespace Fincore.Ledger

/- An entry of the log, with its sign. -/
def signedAmount (accountID : String) (row : EventRow) : Int :=
  if row.event.aggregateType = "ledger_entry" ∧ row.event.type = EntryPosted.eventType then
    match EntryPosted.unmarshal row.event.data with
    | .ok ev => if ev.accountID = accountID then ev.delta.toInt else 0
    | .error _ => 0
  else 0

/- The signed sum of the account's entries. -/
def signedSum (accountID : String) (rows : List EventRow) : Int :=
  (rows.map (signedAmount accountID)).sum

/-
  The worker on a database that nothing else writes to, and how many deltas its batch has applied so
  far.
-/
structure Projector where
  worker : Worker.State Database Empty Stmt Resp Write GoError Empty
  applied : Nat

namespace Projector

def start (db : Database) : Projector := ⟨⟨⟨db, [], []⟩, 0, none⟩, 0⟩

abbrev db (s : Projector) : Database := s.worker.calls.db

/- The delta that the batch is about to apply, if it is. -/
def delta? (s : Projector) : Option (String × Int64 × Nat) :=
  match s.worker.batch with
  | some (.ask (.upsertBalance accountID delta v) _) =>
    some (accountID, delta, v)
  | _ => none

/- The count after an action. -/
def count (s : Projector) : Worker.Action Empty → Nat
| .exec => if s.delta?.isSome then s.applied + 1 else s.applied
| _ => 0

/- No batch is running and no event is past the offset. -/
def CaughtUp (s : Projector) : Prop :=
  s.worker.batch.isNone = true ∧ ∀ row ∈ s.db.events, row.sequence ≤ s.worker.lastSeq

instance (s : Projector) : Decidable s.CaughtUp := inferInstanceAs (Decidable (_ ∧ _))

/- The next delta has its column and stays in its range. -/
def fits (s : Projector) : Bool :=
  s.delta?.all (fun (accountID, delta, v) =>
    ((Stmt.upsertBalance accountID delta v).missing s.db.schema).isNone &&
      inBigint (s.db.balance accountID v + delta.toInt))

/- The batch has met an event that it cannot decode. -/
def undecoded (s : Projector) : Bool :=
  match s.worker.batch with
  | some (.fail _) => true
  | _ => false

/- If this action makes the batch fail, the batch has not applied a delta yet. -/
def early (s : Projector) : Worker.Action Empty → Bool
| .exec => s.applied = 0 || s.fits
| .unacked => s.applied = 0 && s.delta?.isNone
| .broke => s.applied = 0
| .finish => s.applied = 0 || !s.undecoded
| _ => true

end Projector

/- `Start`, from its first tick to the end of the process. -/
def projectorStep (w : LedgerProjectionWorker) (s : Projector) :
    Worker.Action Empty → Option Projector
| .call _ => none
| .restart => none
| a =>
  (Worker.step postgres Empty.elim w.processNextBatch s.worker a).map
    (fun worker => ⟨worker, s.count a⟩)

----
-- Signed Sums
----

theorem signedSum_append (accountID : String) (rows rows' : List EventRow) :
    signedSum accountID (rows ++ rows') = signedSum accountID rows + signedSum accountID rows' := by
  simp [signedSum]

theorem signedSum_singleton (accountID : String) (row : EventRow) :
    signedSum accountID [row] = signedAmount accountID row := by
  simp [signedSum]

theorem signedAmount_posted {row : EventRow} (hPosted : PostedRow row) (accountID : String) :
    signedAmount accountID row = entryAmount accountID row := by
  rcases row with ⟨sequence, event⟩
  rcases hPosted with ⟨cmd, env, hValid, hEvent⟩
  have hEvent : event = cmd.event env := hEvent
  subst hEvent
  have hDecoded : EntryPosted.unmarshal (cmd.event env).data =
      .ok (cmd.posted env) := EntryPosted.unmarshal_document _
  rw [entryAmount_event hValid env sequence accountID]
  unfold signedAmount
  rw [if_pos ⟨rfl, rfl⟩, hDecoded]
  show (if cmd.accountID = accountID then cmd.delta.toInt else 0) = _
  simp only [eq_comm]

variable {rows : List EventRow}

theorem signedSum_posted (hPosted : ∀ row ∈ rows, PostedRow row) (accountID : String) :
    signedSum accountID rows = rowsSum accountID rows := by
  unfold signedSum rowsSum
  rw [List.map_congr_left (fun row hMem =>
    signedAmount_posted (hPosted row hMem) accountID)]

----
-- The Rest Of A Batch
----

/- What the loop over the events does next. -/
inductive Applies (v : Nat) (rows : List EventRow) : Prop where
  | done (hProg : applyEvents v (rows.map EventRow.event) = .ret ())
      (hSum : ∀ accountID, signedSum accountID rows = 0)
  | undecoded {e : GoError} (hProg : applyEvents v (rows.map EventRow.event) = .fail e)
  | delta (skipped rest : List EventRow) (row : EventRow) (ev : EntryPosted)
      (hRows : rows = skipped ++ row :: rest)
      (hProg : applyEvents v (rows.map EventRow.event) =
          .ask (.upsertBalance ev.accountID ev.delta v)
            (fun _ => applyEvents v (rest.map EventRow.event)))
      (hSum : ∀ accountID, signedSum accountID (skipped ++ [row]) =
          if accountID = ev.accountID then ev.delta.toInt else 0)

/- An event that is no entry is passed over. -/
theorem Applies.skip {v : Nat} {row : EventRow} (hRest : Applies v rows)
    (hSkip : applyEvents v ((row :: rows).map EventRow.event) =
    applyEvents v (rows.map EventRow.event))
    (hZero : ∀ accountID, signedAmount accountID row = 0) : Applies v (row :: rows) := by
  have hSum : ∀ accountID rows, signedSum accountID (row :: rows) = signedSum accountID rows := by
    intro accountID rows
    simp [signedSum, hZero]
  cases hRest with
  | done hProg hNone =>
    refine .done (hSkip.trans hProg) ?_
    intro accountID
    rw [hSum, hNone]
  | undecoded hProg => exact .undecoded (hSkip.trans hProg)
  | delta skipped rest entry ev hRows hProg hEntry =>
    refine .delta (row :: skipped) rest entry ev ?_ (hSkip.trans hProg) ?_
    · rw [hRows, List.cons_append]
    · intro accountID
      rw [List.cons_append, hSum, hEntry]

theorem applyEvents_entry (v : Nat) {row : EventRow} (rows : List EventRow)
    (hKind : row.event.aggregateType = "ledger_entry")
    (hType : row.event.type = EntryPosted.eventType) :
    applyEvents v ((row :: rows).map EventRow.event) =
      match EntryPosted.unmarshal row.event.data with
      | .error msg => .fail (.text msg)
      | .ok ev =>
        .ask (.upsertBalance ev.accountID ev.delta v)
          (fun _ => applyEvents v (rows.map EventRow.event)) := by
  rw [List.map_cons, applyEvents, if_neg (fun hNe => hNe hKind), if_neg (fun hNe => hNe hType)]
  rfl

theorem applies (v : Nat) (rows : List EventRow) : Applies v rows := by
  induction rows with
  | nil => exact .done rfl (fun _ => rfl)
  | cons row rows ih =>
    by_cases hEntry : row.event.aggregateType = "ledger_entry" ∧
        row.event.type = EntryPosted.eventType
    · rcases hEntry with ⟨hKind, hType⟩
      have hProg := applyEvents_entry v rows hKind hType
      cases hDecoded : EntryPosted.unmarshal row.event.data with
      | error msg =>
        rw [hDecoded] at hProg
        exact .undecoded hProg
      | ok ev =>
        rw [hDecoded] at hProg
        refine .delta [] rows row ev rfl hProg ?_
        intro accountID
        rw [List.nil_append, signedSum_singleton, signedAmount, if_pos ⟨hKind, hType⟩, hDecoded]
        simp only [eq_comm]
    · refine ih.skip ?_ (fun accountID => if_neg hEntry)
      rw [List.map_cons, applyEvents]
      by_cases hKind : row.event.aggregateType = "ledger_entry"
      · have hType : row.event.type ≠ "ledger.entry_posted.v1" := fun hType => hEntry ⟨hKind, hType⟩
        rw [if_neg (fun hNe => hNe hKind), if_pos hType]
      · rw [if_pos hKind]

/- What a batch of these rows reports in the end. -/
def report (lastSeq : Nat) (rows : List EventRow) : Nat × Nat :=
  ((rows.map EventRow.event).length, (rows.map EventRow.sequence).getLast?.getD lastSeq)

/- A batch that has yet to apply these rows. -/
def remaining (v : Nat) (rows : List EventRow) (ended : Nat × Nat) : Tx (Nat × Nat) :=
  applyEvents v (rows.map EventRow.event) >>= fun _ => .ret ended

theorem processNextBatch_remaining (w : LedgerProjectionWorker) (lastSeq : Nat) :
    w.processNextBatch lastSeq = .ask (.selectAllEvents lastSeq (EventStore.effectiveLimit w.batch))
      (fun rows =>
      remaining w.projectionVersion rows (report lastSeq rows)) := rfl

----
-- Steps
----

/- The balances of the version are those of the rows. -/
def Holds (v : Nat) (db : Database) (rows : List EventRow) : Prop :=
  ∀ accountID, db.balance accountID v = signedSum accountID rows

/-
  Between two batches, before a batch has read its rows, and after it has: the rows it is past are
  in the balances.
-/
inductive Phase (w : LedgerProjectionWorker) (s : Projector)
    (earlier later : List EventRow) : Prop where
  | idle (hBatch : s.worker.batch = none) (hHolds : Holds w.projectionVersion s.db earlier)
  | reading (hBatch : s.worker.batch = some (w.processNextBatch s.worker.lastSeq))
      (hHolds : Holds w.projectionVersion s.db earlier)
  | applying (past rest : List EventRow)
      (hPage : later.take (EventStore.effectiveLimit w.batch) = past ++ rest)
      (hBatch : s.worker.batch = some (remaining w.projectionVersion rest
          (report s.worker.lastSeq (past ++ rest))))
      (hHolds : Holds w.projectionVersion s.db (earlier ++ past))
      (hNone : s.applied = 0 → ∀ accountID, signedSum accountID past = 0)

/- The log is split at the offset. -/
structure Projected (w : LedgerProjectionWorker) (log : List EventRow)
    (s : Projector) (earlier later : List EventRow) : Prop where
  events : s.db.events = log
  split : log = earlier ++ later
  before : ∀ row ∈ earlier, row.sequence ≤ s.worker.lastSeq
  after : ∀ row ∈ later, s.worker.lastSeq < row.sequence
  phase : Phase w s earlier later

def ProjectedSoFar (w : LedgerProjectionWorker) (log : List EventRow) (s : Projector) : Prop :=
  ∃ earlier later, Projected w log s earlier later

variable {w : LedgerProjectionWorker} {log : List EventRow}
variable {s s' : Projector} {earlier later : List EventRow}

theorem Phase.settled (hPhase : Phase w s earlier later) (hApplied : s.applied = 0) :
    Holds w.projectionVersion s.db earlier := by
  cases hPhase with
  | idle hBatch hHolds => exact hHolds
  | reading hBatch hHolds => exact hHolds
  | applying past rest hPage hBatch hHolds hNone =>
    intro accountID
    rw [hHolds accountID, signedSum_append, hNone hApplied accountID, Int.add_zero]

theorem Holds.tick {v : Nat} {db : Database}
    (hHolds : Holds v db rows) (stmt : Stmt) : Holds v (postgres.tick stmt db) rows := by
  intro accountID
  rw [tick_balance]
  exact hHolds accountID

/- A delta that is applied takes its row into the balance. -/
theorem Holds.delta {v : Nat} {db : Database} {rows rows' : List EventRow}
    (hHolds : Holds v db rows) (stmt : Stmt) {owner : String} {delta : Int64}
    (hSum : ∀ accountID, signedSum accountID rows' =
        if accountID = owner then delta.toInt else 0) :
    Holds v (postgres.view (postgres.tick stmt db)
        [.balance owner v delta.toInt]) (rows ++ rows') := by
  intro accountID
  have hApply := balance_apply (postgres.tick stmt db) owner v delta.toInt accountID v
  rw [tick_balance, hHolds accountID] at hApply
  rw [signedSum_append, hSum]
  simpa using hApply

variable {a : Worker.Action Empty}

theorem projectorStep_spec (hStep : projectorStep w s a = some s') :
    a ≠ .restart ∧ s'.applied = s.count a ∧
    Worker.StepSpec postgres Empty.elim w.processNextBatch s.worker a
    s'.worker := by
  cases a with
  | call a => cases hStep
  | restart => cases hStep
  | _ =>
    simp only [projectorStep, Option.map_eq_some_iff] at hStep
    rcases hStep with ⟨worker, hWorker, rfl⟩
    exact ⟨nofun, rfl, Worker.step_spec hWorker⟩

/- A batch that is given up leaves the offset behind. -/
theorem Projected.drop (hInv : Projected w log s earlier later)
    (hLast : s'.worker.lastSeq = s.worker.lastSeq)
    (hBatch : s'.worker.batch = none) (hEvents : s'.db.events = s.db.events)
    (hHolds : Holds w.projectionVersion s'.db earlier) : Projected w log s' earlier later := by
  refine ⟨hEvents.trans hInv.events, hInv.split, ?_, ?_, .idle hBatch hHolds⟩
  · rw [hLast]
    exact hInv.before
  · rw [hLast]
    exact hInv.after

/- The rows that a batch of this offset reads. -/
theorem Projected.page (hInv : Projected w log s earlier later)
    (hOrder : log.Pairwise (fun row row' => row.sequence < row'.sequence)) :
    Engine.page EventRow.sequence s.worker.lastSeq (EventStore.effectiveLimit w.batch) s.db.events =
    later.take (EventStore.effectiveLimit w.batch) := by
  rw [hInv.split] at hOrder
  rw [hInv.events, hInv.split]
  exact Engine.page_of_perm (.refl _) hOrder hInv.before hInv.after

theorem projected_read {applied : Nat}
    {calls : Engine.Config Database Empty Stmt Resp Write GoError Empty}
    {batch : Option (Tx (Nat × Nat))} (hInv : Projected w log s earlier later)
    (hOrder : log.Pairwise (fun row row' => row.sequence < row'.sequence))
    (hHolds : Holds w.projectionVersion s.db earlier)
    (hSent : Worker.Sent postgres s.worker.calls
      (.selectAllEvents s.worker.lastSeq (EventStore.effectiveLimit w.batch))
      (fun rows => remaining w.projectionVersion rows (report s.worker.lastSeq rows)) calls batch) :
    Projected w log ⟨{ s.worker with calls := calls, batch := batch }, applied⟩ earlier later := by
  have hTicked := hHolds.tick (.selectAllEvents s.worker.lastSeq
    (EventStore.effectiveLimit w.batch))
  cases hSent with
  | failed => exact hInv.drop rfl rfl rfl hTicked
  | done hExec hRest =>
    have hAnswer := Stmt.answer_of_exec hExec
    cases hAnswer
    rcases hRest with rfl | rfl
    · refine ⟨hInv.events, hInv.split, hInv.before, hInv.after, ?_⟩
      refine .applying [] _ (hInv.page hOrder).symm rfl ?_ (fun _ _ => rfl)
      rw [List.append_nil]
      exact hTicked
    · exact hInv.drop rfl rfl rfl hTicked

theorem exec_of_fits (v : Nat) {owner : String} {delta : Int64}
    (hDelta : s.delta? = some (owner, delta, v)) (hFits : s.fits = true) :
    postgres.exec (postgres.now s.db) (.upsertBalance owner delta v) s.db =
    .ok ((), [.balance owner v delta.toInt]) := by
  simp only [Projector.fits, hDelta, Option.all_some, Bool.and_eq_true,
    Option.isNone_iff_eq_none] at hFits
  exact Stmt.exec_of_answer rfl hFits.1 (if_pos hFits.2)

/-
  A delta: the row is in the balance and the batch goes on, or nothing has been applied before and
  now.
-/
theorem projected_delta {calls : Engine.Config Database Empty Stmt Resp Write GoError Empty}
    {batch : Option (Tx (Nat × Nat))} {past skipped rest : List EventRow}
    {row : EventRow} {ev : EntryPosted} (hInv : Projected w log s earlier later)
    (hPage : later.take (EventStore.effectiveLimit w.batch) = past ++ (skipped ++ row :: rest))
    (hDelta : s.delta? = some (ev.accountID, ev.delta, w.projectionVersion))
    (hHolds : Holds w.projectionVersion s.db (earlier ++ past))
    (hSum : ∀ accountID, signedSum accountID (skipped ++ [row]) =
        if accountID = ev.accountID then ev.delta.toInt else 0) (hEarly : s.early a = true)
    (hAction : a = .exec ∨ (a = .unacked ∧ batch = none))
    (hSent : Worker.Sent postgres s.worker.calls
        (.upsertBalance ev.accountID ev.delta w.projectionVersion)
        (fun _ => remaining w.projectionVersion rest
          (report s.worker.lastSeq (past ++ (skipped ++ row :: rest)))) calls batch)
    (hFailed : a = .exec → batch = none →
        ∃ e, postgres.exec (postgres.now s.db) (.upsertBalance ev.accountID
          ev.delta w.projectionVersion) s.db = .error e) : Projected w log
      ⟨{ s.worker with calls := calls, batch := batch }, s.count a⟩ earlier later := by
  rcases hAction with rfl | ⟨rfl, _⟩
  · cases hSent with
    | failed =>
      rcases hFailed rfl rfl with ⟨e, hError⟩
      simp only [Projector.early, Bool.or_eq_true, decide_eq_true_eq] at hEarly
      rcases hEarly with hApplied | hFits
      · have hTicked := (hInv.phase.settled hApplied).tick
          (.upsertBalance ev.accountID ev.delta w.projectionVersion)
        exact hInv.drop rfl rfl rfl hTicked
      · rw [exec_of_fits _ hDelta hFits] at hError
        cases hError
    | done hExec hRest =>
      rcases hRest with rfl | rfl
      · rcases Stmt.exec_upsertBalance hExec with ⟨_, rfl⟩
        have hNext := hHolds.delta (.upsertBalance ev.accountID ev.delta w.projectionVersion) hSum
        refine ⟨hInv.events, hInv.split, hInv.before, hInv.after, ?_⟩
        refine .applying (past ++ (skipped ++ [row])) rest ?_ ?_ ?_ ?_
        · rw [hPage]
          simp
        · simp
        · rw [List.append_assoc] at hNext
          exact hNext
        · intro hZero
          simp [Projector.count, hDelta] at hZero
      · rcases hFailed rfl rfl with ⟨e, hError⟩
        cases hExec.symm.trans hError
  · simp [Projector.early, hDelta] at hEarly

/- The whole page is in the balances: the offset moves. -/
theorem projected_ended {past rest : List EventRow} (hInv : Projected w log s earlier later)
    (hOrder : log.Pairwise (fun row row' => row.sequence < row'.sequence))
    (hPage : later.take (EventStore.effectiveLimit w.batch) = past ++ rest)
    (hHolds : Holds w.projectionVersion s.db (earlier ++ past))
    (hRest : ∀ accountID, signedSum accountID rest = 0) {lastSeq : Nat}
    (hLast : lastSeq = (report s.worker.lastSeq (past ++ rest)).2) (applied : Nat) :
    ProjectedSoFar w log ⟨{ s.worker with lastSeq := lastSeq, batch := none }, applied⟩ := by
  have hSplit := hInv.split
  rw [hSplit] at hOrder
  have hOffset := Engine.offset_spec hOrder hInv.before hInv.after
    (EventStore.effectiveLimit w.batch)
  refine ⟨earlier ++ later.take (EventStore.effectiveLimit w.batch),
    later.drop (EventStore.effectiveLimit w.batch), hInv.events, ?_, ?_, ?_, .idle rfl ?_⟩
  · rw [List.append_assoc, List.take_append_drop]
    exact hSplit
  · rw [hPage] at hOffset ⊢
    rw [hLast]
    exact hOffset.1
  · rw [hPage] at hOffset
    rw [hLast]
    exact hOffset.2
  · intro accountID
    have hPast : s.db.balance accountID w.projectionVersion =
        signedSum accountID (earlier ++ past) := hHolds accountID
    rw [hPage, ← List.append_assoc, signedSum_append, hRest, Int.add_zero]
    exact hPast

theorem projected_step (hOrder : log.Pairwise (fun row row' => row.sequence < row'.sequence))
    (hInv : ProjectedSoFar w log s) (hEarly : s.early a = true)
    (hStep : projectorStep w s a = some s') : ProjectedSoFar w log s' := by
  rcases hInv with ⟨earlier, later, hInv⟩
  rcases projectorStep_spec hStep with ⟨hAlive, hCount, hSpec⟩
  rcases s' with ⟨worker, applied⟩
  have hCount : applied = s.count a := hCount
  subst hCount
  cases hSpec with
  | called hCall => cases hStep
  | polled hBatch =>
    refine ⟨earlier, later, hInv.events, hInv.split, hInv.before, hInv.after, ?_⟩
    cases hInv.phase with
    | idle _ hHolds => exact .reading rfl hHolds
    | reading hOld => cases hBatch.symm.trans hOld
    | applying _ _ _ hOld => cases hBatch.symm.trans hOld
  | sent hAction hBatch hFree hSent hFailed =>
    refine ⟨earlier, later, ?_⟩
    cases hInv.phase with
    | idle hOld => cases hBatch.symm.trans hOld
    | reading hOld hHolds =>
      rw [processNextBatch_remaining] at hOld
      cases hBatch.symm.trans hOld
      exact projected_read hInv hOrder hHolds hSent
    | applying past rest hPage hOld hHolds hNone =>
      cases applies w.projectionVersion rest with
      | done hProg =>
        rw [remaining, hProg] at hOld
        cases hBatch.symm.trans hOld
      | undecoded hProg =>
        rw [remaining, hProg] at hOld
        cases hBatch.symm.trans hOld
      | delta skipped rest row ev hRows hProg hSum =>
        subst hRows
        rw [remaining, hProg] at hOld
        cases hBatch.symm.trans hOld
        have hDelta : s.delta? = some (ev.accountID, ev.delta, w.projectionVersion) := by
          rw [Projector.delta?, hBatch]
        exact projected_delta hInv hPage hDelta hHolds hSum hEarly hAction hSent hFailed
  | ended hBatch =>
    cases hInv.phase with
    | idle hOld => cases hBatch.symm.trans hOld
    | reading hOld =>
      rw [processNextBatch_remaining] at hOld
      cases hBatch.symm.trans hOld
    | applying past rest hPage hOld hHolds hNone =>
      cases applies w.projectionVersion rest with
      | undecoded hProg =>
        rw [remaining, hProg] at hOld
        cases hBatch.symm.trans hOld
      | delta skipped rest row ev hRows hProg hSum =>
        rw [remaining, hProg] at hOld
        cases hBatch.symm.trans hOld
      | done hProg hSum =>
        rw [remaining, hProg] at hOld
        cases hBatch.symm.trans hOld
        refine projected_ended hInv hOrder hPage hHolds hSum ?_ _
        -- a page without rows reports the old offset
        split
        · rfl
        · rename_i hNone
          have hEmpty : past ++ rest = [] := by
            simpa using hNone
          rw [hEmpty]
          rfl
  | dropped _ _ hWhy =>
    cases hWhy with
    | restarted => exact absurd rfl hAlive
    | broke =>
      have hApplied : s.applied = 0 := of_decide_eq_true hEarly
      exact ⟨earlier, later, hInv.drop rfl rfl rfl (hInv.phase.settled hApplied)⟩
    | failed hBatch =>
      have hApplied : s.applied = 0 := by
        simpa [Projector.early, Projector.undecoded, hBatch] using hEarly
      exact ⟨earlier, later, hInv.drop rfl rfl rfl (hInv.phase.settled hApplied)⟩

----
-- Runs
----

/-
  If every batch that fails does so before it has applied a delta, a worker that has caught up has
  applied every event once: each balance is the signed sum of the account's entries.
-/
theorem retried_balances_eq (w : LedgerProjectionWorker) (db : Database)
    (hLog : sequences.Ascending db)
    (hFresh : ∀ accountID, db.balance accountID w.projectionVersion = 0)
    (schedule : List (Worker.Action Empty)) (s : Projector)
    (hRun : Transition.run (projectorStep w) (Projector.start db) schedule = some s)
    (hEarly : Transition.Meets (projectorStep w) (fun s a => s.early a = true)
      (Projector.start db) schedule) (hCaughtUp : s.CaughtUp) (accountID : String) :
    s.db.balance accountID w.projectionVersion = signedSum accountID db.events ∧
      ((∀ row ∈ db.events, PostedRow row) → s.db.balance accountID w.projectionVersion =
      entrySum db accountID) := by
  have hStart : ProjectedSoFar w db.events (Projector.start db) := by
    refine ⟨[], db.events, rfl, rfl, ?_, hLog.pos, .idle rfl hFresh⟩
    intro row hMem
    cases hMem
  have hEnd : ProjectedSoFar w db.events s := by
    refine Transition.run_induction_of_meets ?_ hStart hEarly hRun
    intro s a s' hInv hEarly hStep
    exact projected_step hLog.order hInv hEarly hStep
  rcases hEnd with ⟨earlier, later, hInv⟩
  have hLater : later = [] := by
    apply List.eq_nil_iff_forall_not_mem.mpr
    intro row hMem
    have hStored : row ∈ s.db.events := by
      rw [hInv.events, hInv.split]
      exact List.mem_append_right _ hMem
    exact absurd (hCaughtUp.2 row hStored) (Nat.not_le.mpr (hInv.after row hMem))
  have hBalance : s.db.balance accountID w.projectionVersion = signedSum accountID db.events := by
    rw [hInv.split, hLater, List.append_nil]
    cases hInv.phase with
    | idle hBatch hHolds => exact hHolds accountID
    | reading hBatch => simp [Projector.CaughtUp, hBatch] at hCaughtUp
    | applying _ _ _ hBatch => simp [Projector.CaughtUp, hBatch] at hCaughtUp
  refine ⟨hBalance, ?_⟩
  intro hPosted
  rw [hBalance, signedSum_posted hPosted]
  rfl

/- Two deposits, to two accounts. -/
def twoDeposits : Database :=
  postEntries
    [(.of "a" "first" entryTypeDeposit 100, .tagged "a"),
      (.of "b" "second" entryTypeDeposit 50, .tagged "b")] (Database.empty ledgerSchema)

/- A whole batch of them. -/
def wholeBatch : List (Worker.Action Empty) := [.poll, .exec, .exec, .exec, .finish]

/- Reading fails, then the first delta: nothing is lost. -/
theorem early_failures_apply_once : ∃ s,
      Transition.run (projectorStep ⟨2, 100⟩) (Projector.start twoDeposits)
      ([.poll, .broke, .poll, .exec, .broke] ++ wholeBatch) = some s ∧
      s.CaughtUp ∧ s.db.balance "first" 2 = 100 := by
  refine ⟨_, rfl, by decide, ?_⟩
  have hBalance := retried_balances_eq ⟨2, 100⟩ twoDeposits
    (posted_postEntries _ (posted_empty _)).ascending
    (fun accountID =>
      (posted_postEntries _ (posted_empty _)).other accountID 2 (by decide))
    ([.poll, .broke, .poll, .exec, .broke] ++ wholeBatch) _ rfl (by decide) (by decide) "first"
  exact hBalance.1.trans (by decide)

/- The second delta fails, and the first is applied twice. -/
theorem late_failure_applies_twice : ∃ s,
      Transition.run (projectorStep ⟨2, 100⟩) (Projector.start twoDeposits)
      ([.poll, .exec, .exec, .broke] ++ wholeBatch) = some s ∧
      s.CaughtUp ∧ s.db.balance "first" 2 = 200 ∧ signedSum "first" twoDeposits.events = 100 := by
  exact ⟨_, rfl, by decide, rfl, by decide⟩

end Fincore.Ledger
