import Fincore.Lib.Serial
import Fincore.Pkg.Postgres
import Mathlib.Data.List.Nodup

/-
  When the statements of a transaction succeed.

  A statement works on a database that has its columns and where it breaks no unique index and no
  column's range. A transaction that only writes, each statement to a table of its own, succeeds
  exactly when all its statements work on the database it found.

  Key definitions include:
    * `Stmt.Works`
    * `script`

  Main results:
    * `Stmt.works_iff`
    * `succeeds_script_iff`
-/

----
-- Statements That Work
----

namespace Fincore

namespace Stmt

/- The rows that are there do not stand in its way. -/
def Accepts (db : Database) : Stmt → Prop
| .insertEvent e _ =>
  (∀ row ∈ db.events, row.event.id ≠ e.id) ∧ ∀ row ∈ db.events,
      row.event.aggregateID = e.aggregateID → row.event.version ≠ e.version
| .insertSnapshot s =>
  ∀ row ∈ db.snapshots, row.aggregateID = s.aggregateID → row.version ≠ s.version
| .insertMessage m _ =>
  ∀ row ∈ db.outbox, row.message.id ≠ m.id
| .upsertBalance accountID deltaKobo version =>
  inBigint (db.balance accountID version + deltaKobo.toInt) = true
| .insertKey key _ => db.idempotency key = none
| _ => True

structure Works (db : Database) (s : Stmt) : Prop where
  columns : s.missing db.schema = none
  accepts : s.Accepts db

variable {db db' : Database}

/- What it answers does not matter here. -/
theorem works_iff (began : Nat) {s : Stmt} : s.Works db ↔
    ∃ r ws, postgres.exec began s db = .ok (r, ws) := by
  constructor
  · rintro ⟨hColumns, hAccepts⟩
    have hExec : ∀ r ws, s.answer began db = .ok (r, ws) →
        ∃ r ws, postgres.exec began s db = .ok (r, ws) :=
      fun r ws hAnswer =>
        ⟨r, ws, exec_of_answer rfl hColumns hAnswer⟩
    cases s with
    | insertEvent e context =>
      exact hExec _ _ (answer_insertEvent context hAccepts.1 hAccepts.2)
    | insertSnapshot s =>
      exact hExec _ _ (answer_insertSnapshot hAccepts)
    | insertMessage m context =>
      exact hExec _ _ (answer_insertMessage context hAccepts)
    | upsertBalance accountID deltaKobo version =>
      exact hExec _ _ (answer_upsertBalance hAccepts)
    | insertKey key entryID =>
      exact hExec _ _ (answer_insertKey entryID hAccepts)
    | _ => exact hExec _ _ rfl
  · rintro ⟨r, ws, hRun⟩
    have hExec : s.exec began db = .ok (r, ws) := hRun
    refine ⟨?_, ?_⟩
    · unfold exec at hExec
      split at hExec
      · cases hExec
      · assumption
    · cases s with
      | insertEvent e context =>
        rcases exec_insertEvent hExec with ⟨hID, hPlace, _⟩
        refine ⟨hID, ?_⟩
        intro row hMem hSame hVersion
        exact hPlace row hMem ⟨hSame, hVersion⟩
      | insertSnapshot s =>
        intro row hMem hSame hVersion
        exact (exec_insertSnapshot hExec).1 row hMem ⟨hSame, hVersion⟩
      | insertMessage m context =>
        exact (exec_insertMessage hExec).1
      | upsertBalance accountID deltaKobo version =>
        exact (exec_upsertBalance hExec).1
      | insertKey key entryID =>
        exact (exec_insertKey hExec).1
      | _ => trivial

/- The clocks are not asked. -/
theorem works_of_core {s : Stmt} (hCore : db'.core = db.core) : s.Works db' ↔ s.Works db := by
  have hSame : ∀ db : Database, s.Works db ↔ s.Works db.core := by
    intro db
    constructor
    · intro hWorks
      refine ⟨hWorks.columns, ?_⟩
      have hAccepts := hWorks.accepts
      cases s <;> exact hAccepts
    · intro hWorks
      refine ⟨hWorks.columns, ?_⟩
      have hAccepts := hWorks.accepts
      cases s <;> exact hAccepts
  rw [hSame db', hCore, ← hSame db]

end Stmt

/- The table a write is made in. -/
def Write.table : Write → String
| .event _ => "event_store_events"
| .snapshot _ => "event_store_snapshots"
| .message _ => "outbox_messages"
| .processed _ _ => "outbox_messages"
| .balance _ _ _ => "ledger_account_balances"
| .key _ _ => "ledger_idempotency"
| .account _ => "accounts_projection"
| .payment _ => "payments_projection"

variable {s : Stmt}

theorem Stmt.Writes.table_eq {w : Write} (hWrites : s.Writes w) : w.table = s.table := by
  cases s <;> cases w <;> first
    | rfl
    | exact hWrites.elim

theorem Stmt.works_apply {w : Write} (hTable : w.table ≠ s.table)
    (db : Database) : s.Works (postgres.apply db w) ↔ s.Works db := by
  have hSchema : (postgres.apply db w).schema = db.schema := by
    cases w <;> rfl
  have hAccepts : s.Accepts (postgres.apply db w) ↔ s.Accepts db := by
    cases w <;> cases s <;> first
      | exact Iff.rfl
      | exact absurd rfl hTable
  constructor
  · intro hWorks
    refine ⟨?_, hAccepts.mp hWorks.accepts⟩
    rw [← hSchema]
    exact hWorks.columns
  · intro hWorks
    refine ⟨?_, hAccepts.mpr hWorks.accepts⟩
    rw [hSchema]
    exact hWorks.columns

theorem Stmt.works_view {ws : List Write} (hTable : ∀ w ∈ ws, w.table ≠ s.table) (db : Database) :
    s.Works (postgres.view db ws) ↔ s.Works db := by
  induction ws generalizing db with
  | nil => rfl
  | cons w ws ih =>
    rw [Engine.view_cons, ih (fun w' hMem =>
        hTable w' (List.mem_cons_of_mem w hMem)), Stmt.works_apply (hTable w List.mem_cons_self)]

----
-- Scripts
----

variable {α : Type}

/- Statements whose answers are not looked at. -/
def script (ss : List Stmt) (a : α) : Tx α :=
  match ss with
  | [] => .ret a
  | s :: ss => .ask s (fun _ => script ss a)

/- Each to its own table: none is in another's way. -/
theorem succeeds_script_iff {ss : List Stmt}
    (hTables : (ss.map Stmt.table).Nodup) (a : α) (began : Nat) (ws : List Write) (db : Database) :
    postgres.Succeeds began (script ss a) ws db ↔ ∀ s ∈ ss, s.Works (postgres.view db ws) := by
  induction ss generalizing ws db with
  | nil =>
    constructor
    · intro _ s hMem
      cases hMem
    · intro _
      exact Engine.succeeds_ret a
  | cons s ss ih =>
    rw [List.map_cons, List.nodup_cons] at hTables
    -- what comes after `s` does not see what it has done
    have hRest : ∀ r new, postgres.exec began s (postgres.view db ws) = .ok (r, new) →
        (postgres.Succeeds began (script ss a) (ws ++ new) (postgres.tick s db) ↔ ∀ s' ∈ ss,
        s'.Works (postgres.view db ws)) := by
      intro r new hExec
      rw [ih hTables.2]
      apply forall₂_congr
      intro s' hMem
      have hCore : (postgres.view (postgres.tick s db) ws).core = (postgres.view db ws).core := by
        rw [Engine.core_view core_apply, Engine.core_view core_apply, core_tick]
      rw [Engine.view_append, Stmt.works_view, Stmt.works_of_core hCore]
      intro w hWrite hTable
      apply hTables.1
      rw [← (Stmt.writes_of_exec hExec w hWrite).table_eq, hTable]
      exact List.mem_map_of_mem hMem
    show postgres.Succeeds began (.ask s (fun _ => script ss a)) ws db ↔ _
    rw [Engine.succeeds_ask_iff, List.forall_mem_cons, Stmt.works_iff began]
    constructor
    · rintro ⟨r, new, hExec, hSucceeds⟩
      exact ⟨⟨r, new, hExec⟩, (hRest r new hExec).mp hSucceeds⟩
    · rintro ⟨⟨r, new, hExec⟩, hAll⟩
      exact ⟨r, new, hExec, (hRest r new hExec).mpr hAll⟩

end Fincore
