import Fincore.Account.Worker
import Fincore.Lib.Drain
import Fincore.Lib.Numbering

/-
  Rebuilding the account projection from the event log.

  The worker makes the next row of an account out of the row it finds and one event. The aggregate
  folds the events of its stream. Both go through the same states, however the streams are mixed in
  the log and cut into batches.

  Key definitions include:
    * `AccountProjectionWorker` and its `rebuild`
    * `streamOf`
    * `Lifecycle` and `WellFormed`
    * `projectionOf`

  Main results:
    * `projectEvent_alone`
    * `projectEvents_alone`
    * `rebuilt_projection_eq`
-/

----
-- The Rebuild
----

namespace Fincore.Account

/- What `NewAccountProjectionWorker` sets up. -/
structure AccountProjectionWorker where
  batch : Int

namespace AccountProjectionWorker

/- `ProcessNextBatch`, with the worker's own settings. -/
def processNextBatch (w : AccountProjectionWorker) (lastSeq : Nat) : Tx (Nat × Nat) := do
  let (events, nextSeq) ← Ledger.readAll lastSeq w.batch
  projectEvents events
  return (events.length, nextSeq)

/- Batch after batch until one reports 0 processed. -/
def rebuild (w : AccountProjectionWorker) (fuel lastSeq : Nat) : Tx (Option Nat) :=
  Engine.drain w.processNextBatch fuel lastSeq

end AccountProjectionWorker

/- The account's own events among some rows of the log. -/
def streamOf (rows : List EventRow) (accountID : String) : List EventRow :=
  rows.filter (fun row =>
    row.event.aggregateType = "account" ∧ row.event.aggregateID = accountID)

def DomainEvent.opens : DomainEvent → Bool
| .accountOpened _ _ _ => true
| _ => false

/- Opened for a customer, and anything else afterwards. -/
def Lifecycle : List DomainEvent → Prop
| [] => True
| .accountOpened _ customerID _ :: later =>
  customerID ≠ "" ∧ ∀ ev ∈ later, ev.opens = false
| _ :: _ => False

/- Rows of one account that decode to these events. -/
structure WellFormed (rows : List EventRow) (events : List DomainEvent) : Prop where
  decoded : rows.map (fun row =>
        unmarshalAccountEvent row.event.type row.event.data) = events.map Except.ok
  numbered : rows.map (fun row => row.event.version) = List.range' 1 rows.length
  lifecycle : Lifecycle events

/- The row of the account that `Rehydrate` returns. -/
def rowOf (accountID : String) (events : List DomainEvent) : AccountProjection :=
  ⟨accountID, (rehydrate events).customerID, (rehydrate events).status, (rehydrate events).version⟩

@[simp] theorem rowOf_accountID (accountID : String) (events : List DomainEvent) :
    (rowOf accountID events).accountID = accountID := rfl

/- Accounts without events have no row. -/
def projectionOf (accountID : String) (events : List DomainEvent) : Option AccountProjection :=
  if events = [] then none else some (rowOf accountID events)

/- The columns that the worker's statements name are there. -/
structure Columns (schema : Schema) : Prop where
  read : (Stmt.selectAllEvents 0 0).missing schema = none
  select : (Stmt.selectAccount "").missing schema = none
  upsert : (Stmt.upsertAccount ⟨"", "", "", 0⟩).missing schema = none

----
-- Streams
----

theorem ok_of_mapError {ε ε' α : Type} {f : ε → ε'} {x : Except ε α} {a : α}
    (hOk : Except.mapError f x = .ok a) : x = .ok a := by
  cases x with
  | error e => cases hOk
  | ok b => exact congrArg Except.ok (Except.ok.inj hOk)

variable {ev : DomainEvent}

theorem eventType_of_unmarshal {typ : String} {data : Json}
    (hDecoded : unmarshalAccountEvent typ data = .ok ev) : typ = ev.eventType := by
  unfold unmarshalAccountEvent at hDecoded
  simp only [bind, Except.bind, pure, Except.pure] at hDecoded
  split_ifs at hDecoded with hType hType hType hType hType
  -- five types, and what is decoded in each branch
  all_goals
    have hFields := ok_of_mapError hDecoded
    repeat' split at hFields
    all_goals cases hFields
    exact hType

variable {events : List DomainEvent}

theorem Lifecycle.take (hEvents : Lifecycle events) (n : Nat) : Lifecycle (events.take n) := by
  cases n with
  | zero => trivial
  | succ n =>
    cases events with
    | nil => trivial
    | cons first later =>
      cases first with
      | accountOpened accountID customerID occurredAt =>
        refine ⟨hEvents.1, ?_⟩
        intro ev hMem
        exact hEvents.2 ev (List.mem_of_mem_take hMem)
      | _ => exact hEvents.elim

variable {ag : Account}

theorem replay_later (hLater : ev.opens = false) (hStatus : ag.status ≠ "") :
    (ag.replay ev).customerID = ag.customerID ∧ (ag.replay ev).status ≠ "" := by
  cases ev with
  | accountOpened accountID customerID now => cases hLater
  | accountFrozen accountID now =>
    refine ⟨rfl, ?_⟩
    show statusFrozen ≠ ""
    decide
  | accountClosed accountID now =>
    refine ⟨rfl, ?_⟩
    show statusClosed ≠ ""
    decide
  | moneyDeposited accountID amount entryID now =>
    exact ⟨rfl, hStatus⟩
  | moneyWithdrawn accountID amount entryID now =>
    exact ⟨rfl, hStatus⟩

theorem foldl_replay_later (hLater : ∀ ev ∈ events, ev.opens = false) (hStatus : ag.status ≠ "") :
    (events.foldl replay ag).customerID = ag.customerID ∧ (events.foldl replay ag).status ≠ "" := by
  induction events generalizing ag with
  | nil => exact ⟨rfl, hStatus⟩
  | cons ev events ih =>
    have hFirst := replay_later (hLater ev List.mem_cons_self) hStatus
    have hRest :=
      ih (fun ev hMem =>
        hLater ev (List.mem_cons_of_mem _ hMem)) hFirst.2
    exact ⟨hRest.1.trans hFirst.1, hRest.2⟩

theorem Lifecycle.begun (hEvents : Lifecycle events)
    (hSome : events ≠ []) : (rehydrate events).customerID ≠ "" ∧
    (rehydrate events).status ≠ "" := by
  cases events with
  | nil => exact absurd rfl hSome
  | cons first later =>
    cases first with
    | accountOpened accountID customerID occurredAt =>
      have hActive :
          (zero.replay (.accountOpened accountID customerID occurredAt)).status ≠ "" := by
        show statusActive ≠ ""
        decide
      have hLater := foldl_replay_later hEvents.2 hActive
      refine ⟨?_, hLater.2⟩
      intro hNone
      exact hEvents.1 (hLater.1.symm.trans hNone)
    | _ => exact hEvents.elim

----
-- One More Event
----

theorem rehydrate_concat (events : List DomainEvent) (ev : DomainEvent) :
    rehydrate (events ++ [ev]) = (rehydrate events).replay ev := by
  simp [rehydrate]

/- The row the worker starts from, found or not. -/
theorem projectionOf_getD (accountID : String) (events : List DomainEvent) :
    (projectionOf accountID events).getD ⟨accountID, "", "", 0⟩ = rowOf accountID events := by
  unfold projectionOf
  split
  · rename_i hNone
    subst hNone
    rfl
  · rfl

variable {e : Event}

/- The worker's switch does what the aggregate does. -/
theorem projected_rowOf
    (hDecoded : unmarshalAccountEvent e.type e.data = .ok ev)
    (hVersion : e.version = events.length + 1)
    (accountID : String) : ∃ p, projected (rowOf accountID events) e = .ok (some p) ∧
      { p with version := e.version } = rowOf accountID (events ++ [ev]) := by
  have hCount : (rehydrate events).version = events.length := by
    have hFold := (foldl_replay zero events).1
    rwa [show zero.version = 0 from rfl, Nat.zero_add] at hFold
  unfold projected rowOf
  rw [hDecoded, rehydrate_concat, hVersion, ← hCount, eventType_of_unmarshal hDecoded]
  cases ev with
  | accountOpened openedID customerID now =>
    exact ⟨_, rfl, rfl⟩
  | accountFrozen frozenID now => exact ⟨_, rfl, rfl⟩
  | accountClosed closedID now => exact ⟨_, rfl, rfl⟩
  | moneyDeposited movedID amount entryID now =>
    exact ⟨_, rfl, rfl⟩
  | moneyWithdrawn movedID amount entryID now =>
    exact ⟨_, rfl, rfl⟩

/- What the worker leaves apart from the projection. -/
structure SameLog (db db' : Database) : Prop where
  schema : db'.schema = db.schema
  events : db'.events = db.events

variable {db : Database}

/- One event of an account, after the others of its stream. -/
theorem projectEvent_alone (hColumns : Columns db.schema) (hKind : e.aggregateType = "account")
    (hDecoded : unmarshalAccountEvent e.type e.data = .ok ev)
    (hVersion : e.version = events.length + 1) (hLifecycle : Lifecycle (events ++ [ev]))
    (hFound : db.accounts e.aggregateID = projectionOf e.aggregateID events) :
    ∃ db', postgres.alone (projectEvent e) db = (.ok (), db') ∧ SameLog db db' ∧
    Upserts db db' (rowOf e.aggregateID (events ++ [ev])) := by
  rcases projected_rowOf hDecoded hVersion e.aggregateID with ⟨p, hProjected, hRow⟩
  have hBegun : (rowOf e.aggregateID (events ++ [ev])).customerID ≠ "" ∧
      (rowOf e.aggregateID (events ++ [ev])).status ≠ "" :=
    hLifecycle.begun (List.append_ne_nil_of_right_ne_nil events (List.cons_ne_nil ev []))
  have hOnto : projectOnto e (rowOf e.aggregateID events) = sql (.upsertAccount
      (rowOf e.aggregateID (events ++ [ev]))) := by
    unfold projectOnto
    rw [hProjected]
    show upsertProjected { p with version := e.version } = _
    unfold upsertProjected
    rw [hRow, if_neg hBegun.1, if_neg hBegun.2]
  have hSelect : postgres.exec (postgres.now db) (.selectAccount e.aggregateID) db =
      .ok (db.accounts e.aggregateID, []) := Stmt.exec_of_answer rfl hColumns.select rfl
  generalize hTicked : postgres.view (postgres.tick (.selectAccount e.aggregateID) db) [] = db₁
  have hUpsert : postgres.exec (postgres.now db₁)
      (.upsertAccount (rowOf e.aggregateID (events ++ [ev]))) db₁ =
      .ok ((), [.account (rowOf e.aggregateID (events ++ [ev]))]) := by
    subst hTicked
    exact Stmt.exec_of_answer rfl hColumns.upsert rfl
  have hUnfold : projectEvent e = .ask (.selectAccount e.aggregateID) (fun found =>
      projectOnto e (found.getD ⟨e.aggregateID, "", "", 0⟩)) := by
    unfold projectEvent
    rw [if_neg (not_not_intro hKind)]
    rfl
  rw [hUnfold, Engine.alone_ask hSelect, hFound, projectionOf_getD, hOnto, hTicked]
  refine ⟨_, Engine.alone_ask hUpsert, ?_, ?_⟩
  · subst hTicked
    exact ⟨rfl, rfl⟩
  · subst hTicked
    intro accountID
    rfl

----
-- The Whole Log
----

theorem streamOf_append (rows rows' : List EventRow) (accountID : String) :
    streamOf (rows ++ rows') accountID = streamOf rows accountID ++ streamOf rows' accountID :=
  List.filter_append rows rows'

variable {row : EventRow}

theorem streamOf_own (hKind : row.event.aggregateType = "account") :
    streamOf [row] row.event.aggregateID = [row] := by
  simp [streamOf, hKind]

theorem streamOf_other {accountID : String}
    (hOther : ¬ (row.event.aggregateType = "account" ∧ row.event.aggregateID = accountID)) :
    streamOf [row] accountID = [] := by
  simpa [streamOf] using hOther

theorem WellFormed.middle {rows rows' : List EventRow}
    (hStream : WellFormed (rows ++ [row] ++ rows') events) : ∃ ev,
    unmarshalAccountEvent row.event.type row.event.data = .ok ev ∧
    row.event.version = (events.take rows.length).length + 1 ∧
    events.take (rows.length + 1) = events.take rows.length ++ [ev] := by
  have hDecoded := congrArg (fun l => l[rows.length]?) hStream.decoded
  have hVersion := congrArg (fun l => l[rows.length]?) hStream.numbered
  have hLength := congrArg List.length hStream.decoded
  simp at hDecoded hVersion hLength
  rcases hDecoded with ⟨ev, hEvent, hDecoded⟩
  refine ⟨ev, hDecoded.symm, ?_, ?_⟩
  · rw [List.length_take, Nat.min_eq_left (by omega)]
    omega
  · rw [List.take_add_one, hEvent]
    rfl

/- The worker has read `earlier` and not `later`, and the rows are those of the events read. -/
structure Rebuilds (streams : String → List DomainEvent) (db : Database)
    (earlier later : List EventRow) : Prop where
  columns : Columns db.schema
  events : db.events.Perm (earlier ++ later)
  wellFormed : ∀ accountID, WellFormed (streamOf (earlier ++ later) accountID) (streams accountID)
  accounts : ∀ accountID, db.accounts accountID = projectionOf accountID
          ((streams accountID).take (streamOf earlier accountID).length)

variable {streams : String → List DomainEvent}

variable {earlier later : List EventRow}

/- The next row of the log. -/
theorem Rebuilds.next (hInv : Rebuilds streams db earlier (row :: later)) : ∃ db',
    postgres.alone (projectEvent row.event) db = (.ok (), db') ∧
    Rebuilds streams db' (earlier ++ [row]) later := by
  have hEvents : db.events.Perm (earlier ++ [row] ++ later) := by
    rw [List.append_assoc]
    exact hInv.events
  have hStreams : ∀ accountID, WellFormed (streamOf (earlier ++ [row] ++ later) accountID)
      (streams accountID) := by
    intro accountID
    rw [List.append_assoc]
    exact hInv.wellFormed accountID
  by_cases hKind : row.event.aggregateType = "account"
  · have hStream := hStreams row.event.aggregateID
    rw [streamOf_append, streamOf_append, streamOf_own hKind] at hStream
    rcases hStream.middle with ⟨ev, hDecoded, hVersion, hTake⟩
    have hLifecycle := hStream.lifecycle.take ((streamOf earlier row.event.aggregateID).length + 1)
    rw [hTake] at hLifecycle
    rcases projectEvent_alone hInv.columns hKind hDecoded
        hVersion hLifecycle (hInv.accounts _) with ⟨db', hRun, hSame, hUpserts⟩
    refine ⟨db', hRun, ?_, ?_, hStreams, ?_⟩
    · rw [hSame.schema]
      exact hInv.columns
    · rw [hSame.events]
      exact hEvents
    · intro accountID
      rw [hUpserts, streamOf_append, List.length_append]
      by_cases hOwn : accountID = row.event.aggregateID
      · subst hOwn
        rw [streamOf_own hKind, List.length_singleton, hTake]
        simp [projectionOf]
      · have hNone := streamOf_other (fun hBoth => hOwn hBoth.2.symm)
        rw [rowOf_accountID, hNone, if_neg hOwn]
        exact hInv.accounts accountID
  · -- another aggregate's event is skipped
    refine ⟨db, ?_, hInv.columns, hEvents, hStreams, ?_⟩
    · unfold projectEvent
      rw [if_pos hKind]
      rfl
    · intro accountID
      rw [streamOf_append, streamOf_other (fun hBoth => hKind hBoth.1), List.append_nil]
      exact hInv.accounts accountID

/- The loop over the events of a batch. -/
theorem projectEvents_alone {earlier rows later : List EventRow}
    (hInv : Rebuilds streams db earlier (rows ++ later)) : ∃ db', postgres.alone
    (projectEvents (rows.map EventRow.event)) db = (.ok (), db') ∧
    Rebuilds streams db' (earlier ++ rows) later := by
  induction rows generalizing db earlier with
  | nil =>
    refine ⟨db, rfl, ?_⟩
    rw [List.append_nil]
    exact hInv
  | cons row rows ih =>
    rcases hInv.next with ⟨db₁, hFirst, hNext⟩
    rcases ih hNext with ⟨db', hRest, hAll⟩
    refine ⟨db', ?_, ?_⟩
    · rw [List.map_cons, projectEvents, Engine.alone_bind _ hFirst]
      exact hRest
    · rwa [List.append_assoc] at hAll

/- One batch. -/
theorem Rebuilds.batch (w : AccountProjectionWorker) {lastSeq : Nat}
    (hOrder : (earlier ++ later).Pairwise (fun row row' => row.sequence < row'.sequence))
    (hEarlier : ∀ row ∈ earlier, row.sequence ≤ lastSeq)
    (hLater : ∀ row ∈ later, lastSeq < row.sequence)
    (hInv : Rebuilds streams db earlier later) {rows : List EventRow}
    (hRows : rows = later.take (EventStore.effectiveLimit w.batch)) : ∃ db',
    postgres.alone (w.processNextBatch lastSeq) db =
    (.ok (rows.length, (rows.map EventRow.sequence).getLast?.getD
    lastSeq), db') ∧ Rebuilds streams db' (earlier ++ rows)
    (later.drop (EventStore.effectiveLimit w.batch)) := by
  have hRead : postgres.exec (postgres.now db)
      (.selectAllEvents lastSeq (EventStore.effectiveLimit w.batch)) db =
      .ok (Engine.page EventRow.sequence lastSeq
      (EventStore.effectiveLimit w.batch) db.events, []) :=
    Stmt.exec_of_answer rfl hInv.columns.read rfl
  rw [Engine.page_of_perm hInv.events hOrder hEarlier hLater, ← hRows] at hRead
  have hUnfold : w.processNextBatch lastSeq = .ask (.selectAllEvents lastSeq
            (EventStore.effectiveLimit w.batch))
          (fun rows =>
            projectEvents (rows.map EventRow.event) >>= fun _ =>
                .ret ((rows.map EventRow.event).length,
                  (rows.map EventRow.sequence).getLast?.getD lastSeq)) := rfl
  rw [hUnfold, Engine.alone_ask hRead]
  -- reading changes nothing but the clock
  generalize hTicked : postgres.view
        (postgres.tick (.selectAllEvents lastSeq (EventStore.effectiveLimit w.batch)) db) [] = db₁
  have hInv₁ : Rebuilds streams db₁ earlier
      (rows ++ later.drop (EventStore.effectiveLimit w.batch)) := by
    rw [hRows, List.take_append_drop]
    subst hTicked
    exact ⟨hInv.columns, hInv.events, hInv.wellFormed, hInv.accounts⟩
  rcases projectEvents_alone hInv₁ with ⟨db', hRun, hNext⟩
  refine ⟨db', ?_, hNext⟩
  rw [Engine.alone_bind _ hRun, List.length_map]
  rfl

/-
  From the empty table, a worker with any batch size gets to the end of the log and leaves for every
  account the row of the account that its stream rehydrates to.
-/
theorem rebuilt_projection_eq (db : Database) (hColumns : Columns db.schema)
    (hEmpty : ∀ accountID, db.accounts accountID = none) (log : List EventRow)
    (hLog : db.events.Perm log)
    (hOrder : log.Pairwise (fun row row' => row.sequence < row'.sequence))
    (hFirst : ∀ row ∈ log, 0 < row.sequence) (streams : String → List DomainEvent)
    (hStreams : ∀ accountID, WellFormed (streamOf log accountID)
      (streams accountID)) (w : AccountProjectionWorker) (fuel : Nat)
    (hFuel : log.length < fuel) : ∃ lastSeq db',
      postgres.alone (w.rebuild fuel 0) db = (.ok (some lastSeq), db') ∧
      ∀ accountID, db'.accounts accountID = projectionOf accountID (streams accountID) := by
  have hStart : Rebuilds streams db [] log := by
    refine ⟨hColumns, hLog, hStreams, ?_⟩
    intro accountID
    rw [hEmpty]
    rfl
  have hBatch : Engine.Reads postgres EventRow.sequence (EventStore.effectiveLimit w.batch) log
      w.processNextBatch (Rebuilds streams) := by
    intro db earlier later lastSeq hWhole hBefore hAfter hInv
    rw [← hWhole] at hOrder
    exact hInv.batch w hOrder hBefore hAfter rfl
  rcases Engine.drain_alone hOrder (EventStore.effectiveLimit_pos w.batch) hBatch
      (List.nil_append log) (fun _ hMem => nomatch hMem) hFirst
      hStart hFuel with ⟨lastSeq, db', hRun, hEnd⟩
  refine ⟨lastSeq, db', hRun, ?_⟩
  intro accountID
  have hLength := congrArg List.length (hStreams accountID).decoded
  rw [List.length_map, List.length_map] at hLength
  rw [hEnd.accounts, hLength, List.take_length]

/- An event as a row of the log. -/
def stored (sequence version : Nat) (aggregateType accountID : String)
    (ev : DomainEvent) : EventRow :=
  ⟨sequence, ⟨"", accountID, aggregateType, version, ev.eventType, ev.occurredAtUTC, ev.document⟩⟩

/- One account, with an entry of the ledger in between. -/
def frozenLog : List EventRow :=
  [stored 2 1 "account" "A" (.accountOpened "A" "c" 0),
    stored 3 9 "ledger_entry" "A" (.accountClosed "A" 0),
    stored 5 2 "account" "A" (.accountFrozen "A" 0)]

theorem frozenLog_rebuilt : ∃ lastSeq db', postgres.alone
      ((AccountProjectionWorker.mk 2).rebuild 4 0)
      { Database.empty accountMigrations with events := frozenLog } = (.ok (some lastSeq), db') ∧
        db'.accounts "A" = some ⟨"A", "c", statusFrozen, 2⟩ ∧ db'.accounts "B" = none := by
  have hStreams : ∀ accountID, WellFormed (streamOf frozenLog accountID)
          (if accountID = "A" then
            [.accountOpened "A" "c" 0, .accountFrozen "A" 0]
          else []) := by
    intro accountID
    by_cases hOwn : accountID = "A"
    · subst hOwn
      refine ⟨?_, rfl, ?_⟩
      · exact congrArg₂ (fun first second => [first, second])
          (unmarshalAccountEvent_document (.accountOpened "A" "c" 0))
          (unmarshalAccountEvent_document (.accountFrozen "A" 0))
      · exact ⟨by decide, by simp [DomainEvent.opens]⟩
    · have hNone : streamOf frozenLog accountID = [] := by
        simp [streamOf, frozenLog, stored, Ne.symm hOwn]
      rw [hNone, if_neg hOwn]
      exact ⟨rfl, rfl, trivial⟩
  rcases rebuilt_projection_eq
      { Database.empty accountMigrations with
        events := frozenLog } ⟨rfl, rfl, rfl⟩ (fun _ => rfl) frozenLog (.refl _)
      (by decide) (by decide) _ hStreams ⟨2⟩ 4 (by decide) with ⟨lastSeq, db', hRun, hRows⟩
  exact ⟨lastSeq, db', hRun, hRows "A", hRows "B"⟩

end Fincore.Account
