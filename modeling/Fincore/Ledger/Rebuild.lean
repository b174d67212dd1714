import Fincore.Ledger.Worker
import Fincore.Lib.Drain
import Fincore.Pkg.Streams

/-
  Rebuilding the ledger's balances from its event log.

  The projection worker folds the log batch by batch into the balances of a projection version of
  its own. The command path has kept the balances of version 1 as it posted the entries, one
  transaction after the other.

  Key definitions include:
    * `LedgerProjectionWorker` and its `rebuild`
    * `postEntries`
    * `Posted`

  Main results:
    * `posted_postEntries`
    * `applyEvents_alone`
    * `rebuild_alone`
    * `rebuilt_balances_eq`
-/

----
-- The Rebuild
----

namespace Fincore.Ledger

/- What `NewLedgerProjectionWorker` sets up. -/
structure LedgerProjectionWorker where
  projectionVersion : Nat
  batch : Int

namespace LedgerProjectionWorker

/- `ProcessNextBatch`, with the worker's own settings. -/
def processNextBatch (w : LedgerProjectionWorker) (lastSeq : Nat) : Tx (Nat × Nat) := do
  let (events, nextSeq) ← readAll lastSeq w.batch
  applyEvents w.projectionVersion events
  return (events.length, nextSeq)

theorem processNextBatch_hundred (version lastSeq : Nat) :
    (LedgerProjectionWorker.mk version 100).processNextBatch lastSeq =
    Ledger.processNextBatch version lastSeq := rfl

/-
  Batch after batch until one reports 0 processed. `none` says that `fuel` batches were not enough.
-/
def rebuild (w : LedgerProjectionWorker) : Nat → Nat → Tx (Option Nat)
| 0, _ => return none
| fuel + 1, seq => do
    let (processed, nextSeq) ← w.processNextBatch seq
    if processed = 0 then return some seq
    else w.rebuild fuel nextSeq

end LedgerProjectionWorker

/- One command after the other, whatever becomes of each. -/
def postEntries : List (PostEntry × Env) → Database → Database
| [], db => db
| call :: calls, db =>
  postEntries calls (postgres.withTx (serve call) db).2

/- The columns that the worker's statements name are there. -/
structure Projectable (schema : Schema) : Prop where
  read : (Stmt.selectAllEvents 0 0).missing schema = none
  delta : (Stmt.upsertBalance "" 0 0).missing schema = none

----
-- What The Command Path Leaves
----

/- The balance of an account over some rows of the log. -/
def rowsSum (accountID : String) (rows : List EventRow) : Int :=
  (rows.map (entryAmount accountID)).sum

@[simp] theorem rowsSum_nil (accountID : String) : rowsSum accountID [] = 0 := rfl

theorem rowsSum_append (accountID : String) (rows rows' : List EventRow) :
    rowsSum accountID (rows ++ rows') = rowsSum accountID rows + rowsSum accountID rows' := by
  simp [rowsSum]

/- A row that a valid command has posted. -/
def PostedRow (row : EventRow) : Prop :=
  ∃ (cmd : PostEntry) (env : Env), cmd.Valid ∧ row.event = cmd.event env

/-
  Entries in the order of their sequences, whose sums have all been balances of version 1; no other
  version has any.
-/
structure Posted (db : Database) : Prop where
  ascending : sequences.Ascending db
  rows : ∀ row ∈ db.events, PostedRow row
  inRange : ∀ n accountID, inBigint (rowsSum accountID (db.events.take n)) = true
  balance : ∀ accountID, db.balance accountID 1 = entrySum db accountID
  other : ∀ accountID v, v ≠ 1 → db.balance accountID v = 0

theorem posted_empty (schema : Schema) : Posted (Database.empty schema) := by
  refine ⟨⟨.nil, ?_, ?_⟩, ?_, ?_, ?_, ?_⟩
  · intro row hMem
    cases hMem
  · intro row hMem
    cases hMem
  · intro row hMem
    cases hMem
  · intro n accountID
    rw [show (Database.empty schema).events = [] from rfl, List.take_nil]
    rfl
  · intro accountID
    rfl
  · intro accountID v _
    rfl

/- What only ticks leaves the entries as they are. -/
theorem Posted.of_same {db db' : Database} (hInv : Posted db)
    (hAscending : sequences.Ascending db') (hEvents : db'.events = db.events)
    (hBalance : ∀ accountID v, db'.balance accountID v = db.balance accountID v) : Posted db' := by
  refine ⟨hAscending, ?_, ?_, ?_, ?_⟩
  · rw [hEvents]
    exact hInv.rows
  · rw [hEvents]
    exact hInv.inRange
  · intro accountID
    unfold entrySum
    rw [hEvents, hBalance]
    exact hInv.balance accountID
  · intro accountID v hNe
    rw [hBalance]
    exact hInv.other accountID v hNe

variable {db : Database}

/- One more entry. -/
theorem Posted.post {call : PostEntry × Env} {ws : List Write}
    {entryID : String} (hInv : Posted db) (hPosts : call.1.Posts call.2 db ws entryID)
    (hAscending : sequences.Ascending (postgres.view db ws)) : Posted (postgres.view db ws) := by
  rcases hPosts.writes with ⟨sequence, began, rfl⟩
  have hAmount := entryAmount_event hPosts.valid call.2 sequence
  have hSum : ∀ accountID, rowsSum accountID (db.events ++ [⟨sequence, call.1.event call.2⟩]) =
          db.balance accountID 1 +
            if accountID = call.1.accountID then
              call.1.delta.toInt
            else 0 := by
    intro accountID
    rw [rowsSum_append, hInv.balance accountID]
    simp [rowsSum, entrySum, hAmount]
  refine ⟨hAscending, ?_, ?_, ?_, ?_⟩
  · intro row hMem
    rw [PostEntry.view_writes_events] at hMem
    rcases List.mem_append.mp hMem with hOld | hNew
    · exact hInv.rows row hOld
    · rw [List.mem_singleton.mp hNew]
      exact ⟨call.1, call.2, hPosts.valid, rfl⟩
  · intro n accountID
    rw [PostEntry.view_writes_events]
    by_cases hShort : n ≤ db.events.length
    · rw [List.take_append_of_le_length hShort]
      exact hInv.inRange n accountID
    · rw [List.take_of_length_le (by simp; omega), hSum]
      by_cases hAccount : accountID = call.1.accountID
      · rw [if_pos hAccount, hAccount]
        exact hPosts.inRange
      · have hAll := hInv.inRange db.events.length accountID
        rw [List.take_length] at hAll
        rw [if_neg hAccount, Int.add_zero, hInv.balance accountID]
        exact hAll
  · intro accountID
    rw [PostEntry.view_writes_balance]
    unfold entrySum
    rw [PostEntry.view_writes_events]
    simp only [and_true]
    exact (hSum accountID).symm
  · intro accountID v hNe
    rw [PostEntry.view_writes_balance, hInv.other accountID v hNe, if_neg (fun hRow => hNe hRow.2)]
    rfl

theorem posted_withTx (hInv : Posted db)
    (call : PostEntry × Env) : Posted (postgres.withTx (serve call) db).2 := by
  have hAscending := hInv.ascending.withTx (serve call)
  cases hResult : (postgres.withTx (serve call) db).1 with
  | error e =>
    have hSame : ∀ {β : Type} (f : Database → β), (∀ s db, f (postgres.tick s db) = f db) →
        f (postgres.withTx (serve call) db).2 = f db :=
      fun f hTick =>
        Engine.serial_error_observe postgres f hTick _ _ _ _ hResult
    refine hInv.of_same hAscending (hSame Database.events tick_events) ?_
    intro accountID v
    exact hSame (fun db => db.balance accountID v) (fun s db => tick_balance s db accountID v)
  | ok entryID =>
    rcases Engine.Wp.serial (call.1.handle_wp call.2 _ db) hResult with
      ⟨db', ws, hTicked, hPost, hDb⟩
    have hView : (postgres.withTx (serve call) db).2 = postgres.view db' ws := hDb
    rw [hView] at hAscending ⊢
    have hBefore : Posted db' :=
      hInv.of_same hAscending.of_view (hTicked.observe tick_events)
        (fun accountID v =>
          hTicked.observe (f := fun db => db.balance accountID v)
            (fun s db => tick_balance s db accountID v))
    rcases hPost with ⟨rfl, _⟩ | hPosts
    · exact hBefore
    · exact hBefore.post hPosts hAscending

theorem posted_postEntries (calls : List (PostEntry × Env))
    (hInv : Posted db) : Posted (postEntries calls db) := by
  induction calls generalizing db with
  | nil => exact hInv
  | cons call calls ih => exact ih (posted_withTx hInv call)

theorem postEntries_schema (calls : List (PostEntry × Env)) (db : Database) :
    (postEntries calls db).schema = db.schema := by
  induction calls generalizing db with
  | nil => rfl
  | cons call calls ih =>
    exact (ih _).trans (withTx_schema (serve call) db)

----
-- What The Worker Leaves
----

/- The rows have been added to the balances of `v`. -/
structure Rebuilt (v : Nat) (db db' : Database) (rows : List EventRow) : Prop where
  schema : db'.schema = db.schema
  events : db'.events = db.events
  own : ∀ accountID, db'.balance accountID v = db.balance accountID v + rowsSum accountID rows
  others : ∀ accountID v', v' ≠ v → db'.balance accountID v' = db.balance accountID v'

theorem Rebuilt.refl (v : Nat) (db : Database) : Rebuilt v db db [] := by
  refine ⟨rfl, rfl, ?_, ?_⟩
  · intro accountID
    simp
  · intro accountID v' _
    rfl

variable {v : Nat}

theorem Rebuilt.trans {db db' db'' : Database}
    {rows rows' : List EventRow} (hFirst : Rebuilt v db db' rows)
    (hSecond : Rebuilt v db' db'' rows') : Rebuilt v db db'' (rows ++ rows') := by
  refine ⟨hSecond.schema.trans hFirst.schema, hSecond.events.trans hFirst.events, ?_, ?_⟩
  · intro accountID
    rw [hSecond.own, hFirst.own, rowsSum_append, Int.add_assoc]
  · intro accountID v' hNe
    rw [hSecond.others accountID v' hNe, hFirst.others accountID v' hNe]

variable {cmd : PostEntry} {env : Env}

theorem rowsSum_posted (hValid : cmd.Valid) {row : EventRow} (hRow : row.event = cmd.event env)
    (accountID : String) : rowsSum accountID [row] =
      if accountID = cmd.accountID then cmd.delta.toInt
      else 0 := by
  rcases row with ⟨sequence, event⟩
  have hEvent : event = cmd.event env := hRow
  subst hEvent
  simp only [rowsSum, List.map_cons, List.map_nil, List.sum_cons, List.sum_nil, Int.add_zero]
  exact entryAmount_event hValid env sequence accountID

theorem applyEvents_posted (v : Nat)
    (events : List Event) : applyEvents v (cmd.event env :: events) =
    .ask (.upsertBalance cmd.accountID cmd.delta v) (fun _ => applyEvents v events) := by
  have hDecoded : EntryPosted.unmarshal (cmd.event env).data =
      .ok (cmd.posted env) := EntryPosted.unmarshal_document _
  have hKind : ¬ (cmd.event env).aggregateType ≠ "ledger_entry" := fun hNe => hNe rfl
  have hType : ¬ (cmd.event env).type ≠ "ledger.entry_posted.v1" := fun hNe => hNe rfl
  rw [applyEvents, if_neg hKind, if_neg hType, hDecoded]
  rfl

theorem delta_alone (hValid : cmd.Valid) (row : EventRow) (hRow : row.event = cmd.event env)
    (hColumns : Projectable db.schema)
    (hFits : inBigint (db.balance cmd.accountID v + cmd.delta.toInt) = true)
    (k : Unit → Tx Unit) : ∃ db', postgres.alone (.ask (.upsertBalance cmd.accountID cmd.delta v) k)
    db = postgres.alone (k ()) db' ∧ Rebuilt v db db' [row] := by
  have hExec : postgres.exec (postgres.now db) (.upsertBalance cmd.accountID cmd.delta v) db =
      .ok ((), [.balance cmd.accountID v cmd.delta.toInt]) :=
    Stmt.exec_of_answer rfl hColumns.delta (if_pos hFits)
  refine ⟨_, Engine.alone_ask hExec, rfl, rfl, ?_, ?_⟩
  · intro accountID
    have hApply := balance_apply (postgres.tick (.upsertBalance cmd.accountID cmd.delta v) db)
      cmd.accountID v cmd.delta.toInt accountID v
    rw [tick_balance] at hApply
    rw [rowsSum_posted hValid hRow]
    simpa using hApply
  · intro accountID v' hNe
    have hApply := balance_apply (postgres.tick (.upsertBalance cmd.accountID cmd.delta v) db)
      cmd.accountID v cmd.delta.toInt accountID v'
    rw [tick_balance, if_neg (fun hSame => hNe hSame.2), Int.add_zero] at hApply
    exact hApply

/- The loop over the events of a batch. -/
theorem applyEvents_alone {rows : List EventRow}
    (hColumns : Projectable db.schema) (hRows : ∀ row ∈ rows, PostedRow row)
    (hRange : ∀ n accountID, inBigint (db.balance accountID v +
    rowsSum accountID (rows.take n)) = true) : ∃ db', postgres.alone
    (applyEvents v (rows.map EventRow.event)) db = (.ok (), db') ∧ Rebuilt v db db' rows := by
  induction rows generalizing db with
  | nil => exact ⟨db, rfl, .refl v db⟩
  | cons row rows ih =>
    rcases hRows row List.mem_cons_self with ⟨cmd, env, hValid, hRow⟩
    have hFits : inBigint (db.balance cmd.accountID v + cmd.delta.toInt) = true := by
      have hFirst := hRange 1 cmd.accountID
      rwa [List.take_succ_cons, List.take_zero, rowsSum_posted hValid hRow, if_pos rfl] at hFirst
    rcases delta_alone hValid row hRow hColumns hFits
        (fun _ => applyEvents v (rows.map EventRow.event)) with ⟨db₁, hDelta, hFirst⟩
    have hColumns₁ : Projectable db₁.schema := by
      rw [hFirst.schema]
      exact hColumns
    have hRange₁ : ∀ n accountID, inBigint (db₁.balance accountID v +
        rowsSum accountID (rows.take n)) = true := by
      intro n accountID
      have hNext := hRange (n + 1) accountID
      rwa [List.take_succ_cons, ← List.singleton_append,
        rowsSum_append, ← Int.add_assoc, ← hFirst.own accountID] at hNext
    rcases ih hColumns₁ (fun row hMem =>
          hRows row (List.mem_cons_of_mem _ hMem)) hRange₁ with ⟨db', hRun, hRest⟩
    refine ⟨db', ?_, hFirst.trans hRest⟩
    rw [List.map_cons, hRow, applyEvents_posted, hDelta]
    exact hRun

/- The worker has read `earlier` and not `later`, and all sums on the way fit their column. -/
structure Resumes (v : Nat) (db : Database) (earlier later : List EventRow) (seq : Nat) : Prop where
  columns : Projectable db.schema
  events : db.events = earlier ++ later
  order : (earlier ++ later).Pairwise (fun row row' => row.sequence < row'.sequence)
  before : ∀ row ∈ earlier, row.sequence ≤ seq
  after : ∀ row ∈ later, seq < row.sequence
  rows : ∀ row ∈ later, PostedRow row
  inRange : ∀ n accountID, inBigint (db.balance accountID v +
        rowsSum accountID (later.take n)) = true

variable (w : LedgerProjectionWorker)

theorem processNextBatch_alone {earlier later rows : List EventRow} {seq : Nat}
    (hResumes : Resumes w.projectionVersion db earlier later seq)
    (hRows : rows = later.take (EventStore.effectiveLimit w.batch)) : ∃ db',
    postgres.alone (w.processNextBatch seq) db =
    (.ok (rows.length, (rows.map EventRow.sequence).getLast?.getD seq),
    db') ∧ Rebuilt w.projectionVersion db db' rows := by
  have hRead : postgres.exec (postgres.now db)
      (.selectAllEvents seq (EventStore.effectiveLimit w.batch)) db =
      .ok (Engine.page EventRow.sequence seq (EventStore.effectiveLimit w.batch) db.events, []) :=
    Stmt.exec_of_answer rfl hResumes.columns.read rfl
  rw [hResumes.events, Engine.page_of_perm (.refl _) hResumes.order
      hResumes.before hResumes.after, ← hRows] at hRead
  have hUnfold : w.processNextBatch seq = .ask (.selectAllEvents seq
            (EventStore.effectiveLimit w.batch))
          (fun rows =>
            applyEvents w.projectionVersion (rows.map EventRow.event) >>= fun _ =>
              .ret ((rows.map EventRow.event).length,
                (rows.map EventRow.sequence).getLast?.getD seq)) := rfl
  rw [hUnfold, Engine.alone_ask hRead]
  -- reading changes nothing but the clock
  generalize hTicked : postgres.view
        (postgres.tick (.selectAllEvents seq (EventStore.effectiveLimit w.batch)) db) [] = db₁
  have hSame : Rebuilt w.projectionVersion db db₁ [] := by
    subst hTicked
    refine ⟨rfl, rfl, ?_, ?_⟩
    · intro accountID
      exact (Int.add_zero _).symm
    · intro accountID v' _
      rfl
  have hColumns : Projectable db₁.schema := by
    rw [hSame.schema]
    exact hResumes.columns
  have hFits : ∀ n accountID, inBigint (db₁.balance accountID w.projectionVersion +
      rowsSum accountID (rows.take n)) = true := by
    intro n accountID
    rw [hSame.own, rowsSum_nil, Int.add_zero, hRows, List.take_take]
    exact hResumes.inRange _ accountID
  have hPosted : ∀ row ∈ rows, PostedRow row := by
    intro row hMem
    rw [hRows] at hMem
    exact hResumes.rows row (List.mem_of_mem_take hMem)
  rcases applyEvents_alone hColumns hPosted hFits with ⟨db', hApply, hRebuilt⟩
  refine ⟨db', ?_, hSame.trans hRebuilt⟩
  rw [Engine.alone_bind _ hApply, List.length_map]
  rfl

/- The worker goes on after a batch. -/
theorem Resumes.next {db db' : Database} {earlier later : List EventRow} {seq limit : Nat}
    (hResumes : Resumes v db earlier later seq) (hRebuilt : Rebuilt v db db' (later.take limit)) :
    Resumes v db' (earlier ++ later.take limit) (later.drop limit)
    (((later.take limit).map EventRow.sequence).getLast?.getD seq) := by
  have hWhole : earlier ++ later.take limit ++ later.drop limit = earlier ++ later := by
    rw [List.append_assoc, List.take_append_drop]
  have hOffset := Engine.offset_spec hResumes.order hResumes.before hResumes.after limit
  refine ⟨?_, ?_, ?_, hOffset.1, hOffset.2, ?_, ?_⟩
  · rw [hRebuilt.schema]
    exact hResumes.columns
  · rw [hRebuilt.events, hWhole]
    exact hResumes.events
  · rw [hWhole]
    exact hResumes.order
  · intro row hMem
    exact hResumes.rows row (List.mem_of_mem_drop hMem)
  · intro n accountID
    have hNext := hResumes.inRange (limit + n) accountID
    rwa [List.take_add, rowsSum_append, ← Int.add_assoc, ← hRebuilt.own accountID] at hNext

theorem rebuild_eq_drain (fuel seq : Nat) :
    w.rebuild fuel seq = Engine.drain w.processNextBatch fuel seq := by
  induction fuel generalizing seq with
  | zero => rfl
  | succ fuel ih =>
    have hUnfold : w.rebuild (fuel + 1) seq =
          (w.processNextBatch seq >>= fun report =>
            if report.1 = 0 then return some seq
            else w.rebuild fuel report.2) := rfl
    simp only [hUnfold, ih]
    rfl

/- The loop, with one batch more than there are rows. -/
theorem rebuild_alone {fuel : Nat}
    {log : List EventRow} (hResumes : Resumes w.projectionVersion db [] log 0)
    (hFuel : log.length < fuel) : ∃ seq' db',
    postgres.alone (w.rebuild fuel 0) db = (.ok (some seq'), db') ∧
    Rebuilt w.projectionVersion db db' log := by
  have hOrder := hResumes.order
  rw [List.nil_append] at hOrder
  have hBatch : Engine.Reads postgres EventRow.sequence
        (EventStore.effectiveLimit w.batch) log w.processNextBatch
        (fun db₁ earlier later =>
          (∃ seq, Resumes w.projectionVersion db₁ earlier later seq) ∧
            Rebuilt w.projectionVersion db db₁ earlier) := by
    intro db₁ earlier later seq _ hBefore hAfter hInv
    rcases hInv with ⟨⟨_, hResumes⟩, hSoFar⟩
    have hHere : Resumes w.projectionVersion db₁ earlier later seq :=
      { hResumes with before := hBefore, after := hAfter }
    rcases processNextBatch_alone w hHere rfl with ⟨db', hRun, hRebuilt⟩
    exact ⟨db', hRun, ⟨_, hHere.next hRebuilt⟩, hSoFar.trans hRebuilt⟩
  rw [rebuild_eq_drain]
  rcases Engine.drain_alone hOrder (EventStore.effectiveLimit_pos w.batch) hBatch
      (List.nil_append log) hResumes.before hResumes.after
      ⟨⟨0, hResumes⟩, .refl _ db⟩ hFuel with ⟨seq, db', hRun, _, hRebuilt⟩
  exact ⟨seq, db', hRun, hRebuilt⟩

/- A log that was posted, with nothing read yet. -/
theorem Posted.resumes (hPosted : Posted db) (hColumns : Projectable db.schema) (hFresh : v ≠ 1) :
    Resumes v db [] db.events 0 := by
  refine ⟨hColumns, rfl, hPosted.ascending.order, ?_, hPosted.ascending.pos, hPosted.rows, ?_⟩
  · intro row hMem
    cases hMem
  · intro n accountID
    rw [hPosted.other accountID v hFresh, Int.zero_add]
    exact hPosted.inRange n accountID

/-
  However the commands of a serial run end, a rebuild into a fresh projection version stops and
  leaves every account the balance of the command path, which is the signed sum of the account's
  entries.
-/
theorem rebuilt_balances_eq (schema : Schema) (hColumns : Projectable schema)
    (calls : List (PostEntry × Env)) (w : LedgerProjectionWorker)
    (hFresh : w.projectionVersion ≠ 1) (db : Database)
    (hDb : postEntries calls (Database.empty schema) = db) (fuel : Nat)
    (hFuel : db.events.length < fuel) : ∃ seq db',
      postgres.alone (w.rebuild fuel 0) db = (.ok (some seq), db') ∧
      ∀ accountID, db'.balance accountID w.projectionVersion =
      db.balance accountID 1 ∧ db'.balance accountID 1 =
      db.balance accountID 1 ∧ db.balance accountID 1 = entrySum db accountID := by
  have hPosted : Posted db := by
    rw [← hDb]
    exact posted_postEntries calls (posted_empty schema)
  have hSchema : db.schema = schema := by
    rw [← hDb]
    exact postEntries_schema calls _
  rw [← hSchema] at hColumns
  rcases rebuild_alone w (hPosted.resumes hColumns hFresh) hFuel with ⟨seq, db', hRun, hRebuilt⟩
  refine ⟨seq, db', hRun, ?_⟩
  intro accountID
  refine ⟨?_, ?_, hPosted.balance accountID⟩
  · rw [hRebuilt.own, hPosted.other accountID _ hFresh, Int.zero_add, hPosted.balance accountID]
    rfl
  · exact hRebuilt.others accountID 1 (Ne.symm hFresh)

/-
  Two deposits, a withdrawal, a repeated key, a command that is not valid and a withdrawal without
  the funds.
-/
def mixedCalls : List (PostEntry × Env) :=
  [(.of "a" "first" entryTypeDeposit 100, .tagged "a"),
    (.of "b" "second" entryTypeDeposit 50, .tagged "b"),
    (.of "c" "first" entryTypeWithdrawal 30, .tagged "c"),
    (.of "a" "first" entryTypeDeposit 100, .tagged "d"),
    (.of "e" "" entryTypeDeposit 5, .tagged "e"),
    (.of "f" "second" entryTypeWithdrawal 60, .tagged "f")]

theorem mixedCalls_rebuilt : ∃ seq db', postgres.alone ((LedgerProjectionWorker.mk 2 2).rebuild 4 0)
      (postEntries mixedCalls (Database.empty ledgerSchema)) =
      (.ok (some seq), db') ∧ db'.balance "first" 2 = 70 := by
  rcases rebuilt_balances_eq ledgerSchema ⟨rfl, rfl⟩
      mixedCalls ⟨2, 2⟩ (by decide) _ rfl 4 (by decide) with ⟨seq, db', hRun, hBalances⟩
  refine ⟨seq, db', hRun, ?_⟩
  rw [(hBalances "first").1]
  rfl

end Fincore.Ledger
