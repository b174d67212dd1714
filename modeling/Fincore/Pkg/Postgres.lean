import Fincore.Lib.Serial
import Fincore.Pkg.Money
import Mathlib

/-
  The PostgreSQL database of an event-sourced service and the SQL statements the services send to
  it: those of `pkg/eventstore/postgres`, `pkg/outbox/postgres` and the services' own repositories.

  A database carries its schema. A statement that names a column its table does not have fails,
  whatever the rows are; the services do not migrate their databases, so the schema is whatever has
  been applied to it.

  Key definitions include:
    * `Database`
    * `Stmt` and `Stmt.columns`
    * `postgres`
    * `ledgerMigrations`, `accountMigrations` and
      `paymentMigrations`
-/

----
-- Rows
----

namespace Fincore

/- `eventstore.Event`; no service fills in its metadata. -/
structure Event where
  id : String
  aggregateID : String
  aggregateType : String
  version : Nat
  type : String
  occurredAt : Time
  data : Json

/- A stored event with its identity value. -/
structure EventRow where
  sequence : Nat
  event : Event

/- `eventstore.Snapshot` -/
structure Snapshot where
  aggregateID : String
  aggregateType : String
  version : Nat
  createdAt : Time
  data : Json

/- `outbox.Message`, as far as `Enqueue` stores it. -/
structure Message where
  id : String
  topic : String
  key : String
  value : Json
  headers : List (String × String)

/- `created_at` defaults to the start of the transaction. -/
structure OutboxRow where
  message : Message
  createdAt : Nat
  processedAt : Option Nat

/- `ports.AccountProjection` -/
structure AccountProjection where
  accountID : String
  customerID : String
  status : String
  version : Nat
  deriving DecidableEq

/- `ports.PaymentProjection` -/
structure PaymentProjection where
  paymentID : String
  fromAccountID : String
  toAccountID : String
  currency : String
  amountKobo : Int64
  narration : String
  status : String
  temporalWorkflowID : String
  temporalRunID : String
  version : Nat
  deriving DecidableEq

/- The columns of each table. -/
abbrev Schema := String → List String

/- One service's database. -/
structure Database where
  schema : Schema
  clock : Nat
  sequence : Nat
  events : List EventRow
  snapshots : List Snapshot
  outbox : List OutboxRow
  balances : String → Nat → Option Int
  idempotency : String → Option String
  accounts : String → Option AccountProjection
  payments : String → Option PaymentProjection

/- A freshly migrated database. -/
def Database.empty (schema : Schema) : Database where
  schema := schema
  clock := 0
  sequence := 0
  events := []
  snapshots := []
  outbox := []
  balances := fun _ _ => none
  idempotency := fun _ => none
  accounts := fun _ => none
  payments := fun _ => none

/- The stored balance, zero without a row. -/
def Database.balance (db : Database) (accountID : String)
    (version : Nat) : Int := (db.balances accountID version).getD 0

----
-- Schemas
----

def eventColumns : List String :=
  ["id", "aggregate_id", "aggregate_type", "version", "type", "occurred_at", "data", "metadata"]

def snapshotColumns : List String :=
  ["aggregate_id", "aggregate_type", "version", "created_at", "data"]

def outboxColumns : List String :=
  ["id", "topic", "key", "value", "headers", "created_at", "published_at"]

/-
  `services/ledger-service/migrations`: 000001 and 000003. No migration creates `updated_at` on the
  balances.
-/
def ledgerMigrations : Schema
| "event_store_events" => "sequence" :: eventColumns
| "event_store_snapshots" => snapshotColumns
| "outbox_messages" => outboxColumns
| "ledger_account_balances" =>
  ["account_id", "balance_kobo", "projection_version"]
| "ledger_idempotency" => ["key", "entry_id", "created_at"]
| _ => []

/- The ledger schema with the one column that `BalanceRepo` writes and the migrations miss. -/
def ledgerSchema : Schema
| "ledger_account_balances" =>
  ["account_id", "balance_kobo", "projection_version", "updated_at"]
| table => ledgerMigrations table

/- `services/account-service/migrations` -/
def accountMigrations : Schema
| "event_store_events" => "sequence" :: eventColumns
| "event_store_snapshots" => snapshotColumns
| "outbox_messages" => outboxColumns
| "accounts_projection" =>
  ["account_id", "customer_id", "status", "version", "updated_at"]
| _ => []

/- `services/payment-service/migrations` -/
def paymentMigrations : Schema
| "event_store_events" => eventColumns
| "event_store_snapshots" => snapshotColumns
| "outbox_messages" => outboxColumns
| "payments_projection" =>
  ["payment_id", "from_account_id", "to_account_id",
    "currency", "amount_kobo", "narration", "status",
    "temporal_workflow_id", "temporal_run_id", "version", "updated_at"]
| "saga_instances" =>
  ["id", "correlation_id", "saga_type", "status", "payload",
    "last_heartbeat_at", "created_at", "updated_at"]
| _ => []

----
-- Statements
----

/-
  An insert carries the context its caller puts in front of its error with `fmt.Errorf`, if it does.
-/
inductive Stmt where
  | insertEvent (e : Event) (context : Option String)
  | selectEvents (aggregateID : String) (fromVersion limit : Nat)
  | selectAllEvents (fromSequence limit : Nat)
  | insertSnapshot (s : Snapshot)
  | selectLatestSnapshot (aggregateID : String)
  | insertMessage (m : Message) (context : Option String)
  | selectPending (limit : Nat)
  | updateProcessed (ids : List String)
  | selectBalance (accountID : String) (version : Nat)
  | upsertBalance (accountID : String) (deltaKobo : Int64) (version : Nat)
  | selectKey (key : String)
  | insertKey (key entryID : String)
  | upsertAccount (p : AccountProjection)
  | selectAccount (accountID : String)
  | upsertPayment (p : PaymentProjection)
  | selectPayment (paymentID : String)

/- The answer a statement gives when it succeeds. -/
@[reducible] def Resp : Stmt → Type
| .insertEvent _ _ => Unit
| .selectEvents _ _ _ => List EventRow
| .selectAllEvents _ _ => List EventRow
| .insertSnapshot _ => Unit
| .selectLatestSnapshot _ => Option Snapshot
| .insertMessage _ _ => Unit
| .selectPending _ => List Message
| .updateProcessed _ => Unit
| .selectBalance _ _ => Option Int64
| .upsertBalance _ _ _ => Unit
| .selectKey _ => Option String
| .insertKey _ _ => Unit
| .upsertAccount _ => Unit
| .selectAccount _ => Option AccountProjection
| .upsertPayment _ => Unit
| .selectPayment _ => Option PaymentProjection

/- The table a statement is about. -/
def Stmt.table : Stmt → String
| .insertEvent _ _ => "event_store_events"
| .selectEvents _ _ _ => "event_store_events"
| .selectAllEvents _ _ => "event_store_events"
| .insertSnapshot _ => "event_store_snapshots"
| .selectLatestSnapshot _ => "event_store_snapshots"
| .insertMessage _ _ => "outbox_messages"
| .selectPending _ => "outbox_messages"
| .updateProcessed _ => "outbox_messages"
| .selectBalance _ _ => "ledger_account_balances"
| .upsertBalance _ _ _ => "ledger_account_balances"
| .selectKey _ => "ledger_idempotency"
| .insertKey _ _ => "ledger_idempotency"
| .upsertAccount _ => "accounts_projection"
| .selectAccount _ => "accounts_projection"
| .upsertPayment _ => "payments_projection"
| .selectPayment _ => "payments_projection"

/- The columns its SQL text names. -/
def Stmt.columns : Stmt → List String
| .insertEvent _ _ => eventColumns
| .selectEvents _ _ _ => eventColumns
| .selectAllEvents _ _ => "sequence" :: eventColumns
| .insertSnapshot _ => snapshotColumns
| .selectLatestSnapshot _ => snapshotColumns
| .insertMessage _ _ =>
  ["id", "topic", "key", "value", "headers"]
| .selectPending _ =>
  ["id", "topic", "key", "value", "headers", "processed_at", "created_at"]
| .updateProcessed _ => ["processed_at", "id"]
| .selectBalance _ _ =>
  ["balance_kobo", "account_id", "projection_version"]
| .upsertBalance _ _ _ =>
  ["account_id", "balance_kobo", "projection_version", "updated_at"]
| .selectKey _ => ["entry_id", "key"]
| .insertKey _ _ => ["key", "entry_id"]
| .upsertAccount _ =>
  ["account_id", "customer_id", "status", "version", "updated_at"]
| .selectAccount _ =>
  ["account_id", "customer_id", "status", "version"]
| .upsertPayment _ =>
  ["payment_id", "from_account_id", "to_account_id",
    "currency", "amount_kobo", "narration", "status",
    "temporal_workflow_id", "temporal_run_id", "version", "updated_at"]
| .selectPayment _ =>
  ["payment_id", "from_account_id", "to_account_id",
    "currency", "amount_kobo", "narration", "status",
    "temporal_workflow_id", "temporal_run_id", "version"]

/- The first column the schema does not have. -/
def Stmt.missing (s : Stmt) (schema : Schema) : Option String :=
  s.columns.find? (fun column => column ∉ schema s.table)

/- A row that a statement writes. -/
inductive Write where
  | event (row : EventRow)
  | snapshot (s : Snapshot)
  | message (row : OutboxRow)
  | processed (ids : List String) (now : Nat)
  | balance (accountID : String) (version : Nat) (delta : Int)
  | key (key entryID : String)
  | account (p : AccountProjection)
  | payment (p : PaymentProjection)

/- What a write locks: a unique index entry or a row. -/
inductive Row where
  | event (id : String)
  | stream (aggregateID : String) (version : Nat)
  | snapshot (aggregateID : String) (version : Nat)
  | message (id : String)
  | balance (accountID : String) (version : Nat)
  | key (key : String)
  | account (accountID : String)
  | payment (paymentID : String)
  deriving DecidableEq

----
-- Execution
----

/- Values a `bigint` column can hold. -/
def inBigint (n : Int) : Bool := -2 ^ 63 ≤ n ∧ n < 2 ^ 63

theorem inBigint_iff {n : Int} : inBigint n = true ↔ -2 ^ 63 ≤ n ∧ n < 2 ^ 63 := by
  simp [inBigint]

theorem ofInt_add_neg_iff {b : Int} {d : Int64} (hRange : inBigint b = true)
    (hSum : inBigint (b + d.toInt) = true) : Int64.ofInt b + d < 0 ↔ b + d.toInt < 0 := by
  rw [inBigint_iff] at hRange hSum
  have hRead : (Int64.ofInt b).toInt = b := Int64.toInt_ofInt_of_le hRange.1 hRange.2
  have hAdd : (Int64.ofInt b + d).toInt = b + d.toInt := by
    rw [Int64.toInt_add, hRead]
    apply Int.bmod_eq_of_le <;> omega
  rw [Int64.lt_iff_toInt_lt, hAdd]
  rfl

namespace Stmt

/- Rows a statement has to have for itself. -/
def wants : Stmt → List Row
| .insertEvent e _ =>
  [.event e.id, .stream e.aggregateID e.version]
| .insertSnapshot s => [.snapshot s.aggregateID s.version]
| .insertMessage m _ => [.message m.id]
| .updateProcessed ids => ids.map .message
| .upsertBalance accountID _ version =>
  [.balance accountID version]
| .insertKey key _ => [.key key]
| .upsertAccount p => [.account p.accountID]
| .upsertPayment p => [.payment p.paymentID]
| _ => []

/- The statement on a database that has all its columns. -/
def answer (began : Nat) : (s : Stmt) → Database → Except GoError (Resp s × List Write)
| .insertEvent e _, db =>
  if db.events.any (fun row => row.event.id = e.id) then
    .error (.pg (.uniqueViolation "event_store_events_pkey"))
  else if db.events.any (fun row =>
      row.event.aggregateID = e.aggregateID ∧ row.event.version = e.version) then
    .error (.pg (.uniqueViolation "event_store_events_agg_ver_uidx"))
  else .ok ((), [.event ⟨db.sequence + 1, e⟩])
| .selectEvents aggregateID fromVersion limit, db =>
  let rows := db.events.filter (fun row =>
    row.event.aggregateID = aggregateID ∧ fromVersion < row.event.version)
  .ok ((rows.insertionSort (fun a b =>
    a.event.version ≤ b.event.version)).take limit, [])
| .selectAllEvents fromSequence limit, db =>
  let rows := db.events.filter (fun row =>
    fromSequence < row.sequence)
  .ok ((rows.insertionSort (fun a b =>
    a.sequence ≤ b.sequence)).take limit, [])
| .insertSnapshot s, db =>
  if db.snapshots.any (fun row =>
      row.aggregateID = s.aggregateID ∧ row.version = s.version) then
    .error (.pg (.uniqueViolation "event_store_snapshots_pkey"))
  else .ok ((), [.snapshot s])
| .selectLatestSnapshot aggregateID, db =>
  let rows := db.snapshots.filter (fun row =>
    row.aggregateID = aggregateID)
  .ok ((rows.insertionSort (fun a b =>
    b.version ≤ a.version)).head?, [])
| .insertMessage m _, db =>
  if db.outbox.any (fun row => row.message.id = m.id) then
    .error (.pg (.uniqueViolation "outbox_messages_pkey"))
  else .ok ((), [.message ⟨m, began, none⟩])
| .selectPending limit, db =>
  let rows := db.outbox.filter (fun row =>
    row.processedAt = none)
  .ok (((rows.insertionSort (fun a b =>
    a.createdAt ≤ b.createdAt)).take limit).map OutboxRow.message, [])
| .updateProcessed ids, _ =>
  .ok ((), [.processed ids began])
| .selectBalance accountID version, db =>
  .ok ((db.balances accountID version).map Int64.ofInt, [])
| .upsertBalance accountID deltaKobo version, db =>
  if inBigint (db.balance accountID version + deltaKobo.toInt) then
    .ok ((), [.balance accountID version deltaKobo.toInt])
  else .error (.pg .outOfRange)
| .selectKey key, db => .ok (db.idempotency key, [])
| .insertKey key entryID, db =>
  if (db.idempotency key).isSome then
    .error (.pg (.uniqueViolation "ledger_idempotency_pkey"))
  else .ok ((), [.key key entryID])
| .upsertAccount p, _ => .ok ((), [.account p])
| .selectAccount accountID, db =>
  .ok (db.accounts accountID, [])
| .upsertPayment p, _ => .ok ((), [.payment p])
| .selectPayment paymentID, db =>
  .ok (db.payments paymentID, [])

def wrapError : Stmt → GoError → GoError
| .insertEvent _ (some context), e => .wrap context e
| .insertMessage _ (some context), e => .wrap context e
| _, e => e

/- A statement fails on a column that is not there. -/
def exec (began : Nat) (s : Stmt) (db : Database) : Except GoError (Resp s × List Write) :=
  match s.missing db.schema with
  | some column =>
    .error (s.wrapError (.pg (.undefinedColumn s.table column)))
  | none => (s.answer began db).mapError s.wrapError

/- The clock, and the identity value an insert consumes. -/
def tick (s : Stmt) (db : Database) : Database :=
  match s with
  | .insertEvent _ _ =>
    { db with
      clock := db.clock + 1
      sequence := db.sequence + 1 }
  | _ => { db with clock := db.clock + 1 }

end Stmt

namespace Write

def holds : Write → List Row
| .event row =>
  [.event row.event.id, .stream row.event.aggregateID row.event.version]
| .snapshot s => [.snapshot s.aggregateID s.version]
| .message row => [.message row.message.id]
| .processed ids _ => ids.map .message
| .balance accountID version _ => [.balance accountID version]
| .key k _ => [.key k]
| .account p => [.account p.accountID]
| .payment p => [.payment p.paymentID]

def apply (db : Database) : Write → Database
| .event row => { db with events := db.events ++ [row] }
| .snapshot s => { db with snapshots := db.snapshots ++ [s] }
| .message row => { db with outbox := db.outbox ++ [row] }
| .processed ids now =>
  { db with
    outbox := db.outbox.map (fun row =>
      if row.message.id ∈ ids then
        { row with processedAt := some now }
      else row) }
| .balance accountID version delta =>
  { db with
    balances := fun a v =>
      if a = accountID ∧ v = version then
        some (db.balance accountID version + delta)
      else db.balances a v }
| .key new entryID =>
  { db with
    idempotency := fun k =>
      if k = new then some entryID
      else db.idempotency k }
| .account p =>
  { db with
    accounts := fun a =>
      if a = p.accountID then some p else db.accounts a }
| .payment p =>
  { db with
    payments := fun a =>
      if a = p.paymentID then some p else db.payments a }

end Write

----
-- The Engine
----

theorem Stmt.answer_of_exec {began : Nat} {s : Stmt} {db : Database}
    {r : Resp s} {ws : List Write} (hExec : s.exec began db = .ok (r, ws)) :
    s.answer began db = .ok (r, ws) := by
  unfold Stmt.exec at hExec
  split at hExec
  · cases hExec
  · cases hAnswer : s.answer began db with
    | error e =>
      rw [hAnswer] at hExec
      cases hExec
    | ok answer =>
      rw [hAnswer] at hExec
      exact hExec

/- The writes a statement can make. -/
def Stmt.Writes : Stmt → Write → Prop
| .insertEvent e _, .event row => row.event = e
| .insertSnapshot s, .snapshot s' => s' = s
| .insertMessage m _, .message row => row.message = m
| .updateProcessed ids, .processed ids' _ => ids' = ids
| .upsertBalance accountID delta version, .balance accountID' version' delta' =>
  accountID' = accountID ∧ version' = version ∧ delta' = delta.toInt
| .insertKey key entryID, .key key' entryID' =>
  key' = key ∧ entryID' = entryID
| .upsertAccount p, .account p' => p' = p
| .upsertPayment p, .payment p' => p' = p
| _, _ => False

theorem Stmt.writes_of_exec {began : Nat} {s : Stmt} {db : Database}
    {r : Resp s} {ws : List Write} (hExec : s.exec began db = .ok (r, ws)) :
    ∀ w ∈ ws, s.Writes w := by
  have hAnswer := Stmt.answer_of_exec hExec
  cases s with
  | insertEvent e context =>
    simp only [Stmt.answer] at hAnswer
    split at hAnswer
    · cases hAnswer
    · split at hAnswer
      · cases hAnswer
      · cases hAnswer
        simp [Stmt.Writes]
  | insertSnapshot s =>
    simp only [Stmt.answer] at hAnswer
    split at hAnswer
    · cases hAnswer
    · cases hAnswer
      simp [Stmt.Writes]
  | insertMessage m context =>
    simp only [Stmt.answer] at hAnswer
    split at hAnswer
    · cases hAnswer
    · cases hAnswer
      simp [Stmt.Writes]
  | upsertBalance accountID delta version =>
    simp only [Stmt.answer] at hAnswer
    split at hAnswer
    · cases hAnswer
      simp [Stmt.Writes]
    · cases hAnswer
  | insertKey key entryID =>
    simp only [Stmt.answer] at hAnswer
    split at hAnswer
    · cases hAnswer
    · cases hAnswer
      simp [Stmt.Writes]
  | _ =>
    -- the other statements always have an answer
    cases hAnswer
    simp [Stmt.Writes]

/- A statement writes only rows it has waited for. -/
theorem Stmt.holds_wanted (began : Nat) (s : Stmt) (db : Database) (r : Resp s)
    (ws : List Write) (hExec : s.exec began db = .ok (r, ws)) :
    ∀ w ∈ ws, ∀ row ∈ w.holds, row ∈ s.wants := by
  intro w hMem row hRow
  have hWrites := Stmt.writes_of_exec hExec w hMem
  cases s <;> cases w <;> simp_all [Stmt.Writes, Write.holds, Stmt.wants]

/- PostgreSQL as the services' connection pools open it. -/
def postgres : Engine Database Stmt Resp Write Row GoError where
  now := Database.clock
  exec := Stmt.exec
  tick := Stmt.tick
  apply := Write.apply
  wants := Stmt.wants
  holds := Write.holds
  broken := .pg .connection
  holds_wanted := Stmt.holds_wanted

/- A transaction: the function handed to `WithTx`. -/
abbrev Tx := Prog Stmt Resp GoError

/- Send one statement on the transaction. -/
def sql (s : Stmt) : Tx (Resp s) := Prog.request s

end Fincore

----
-- What Statements Say
----

namespace Fincore.Stmt

variable {began : Nat} {db : Database} {ws : List Write}

theorem exec_selectKey {key : String} {r : Option String}
    (hExec : Stmt.exec began (.selectKey key) db = .ok (r, ws)) :
    r = db.idempotency key ∧ ws = [] := by
  have hAnswer := answer_of_exec hExec
  cases hAnswer
  exact ⟨rfl, rfl⟩

variable {accountID : String} {version : Nat}

theorem exec_selectBalance {r : Option Int64}
    (hExec : Stmt.exec began (.selectBalance accountID version) db =
    .ok (r, ws)) : r.getD 0 = Int64.ofInt (db.balance accountID version) ∧ ws = [] := by
  have hAnswer := answer_of_exec hExec
  simp only [answer, Except.ok.injEq, Prod.mk.injEq] at hAnswer
  rcases hAnswer with ⟨rfl, rfl⟩
  refine ⟨?_, rfl⟩
  unfold Database.balance
  cases db.balances accountID version <;> rfl

theorem exec_selectPayment {paymentID : String} {r : Option PaymentProjection}
    (hExec : Stmt.exec began (.selectPayment paymentID) db = .ok (r, ws)) :
    r = db.payments paymentID ∧ ws = [] := by
  have hAnswer := answer_of_exec hExec
  cases hAnswer
  exact ⟨rfl, rfl⟩

variable {r : Unit}

theorem exec_upsertPayment {p : PaymentProjection}
    (hExec : Stmt.exec began (.upsertPayment p) db = .ok (r, ws)) : ws = [.payment p] := by
  have hAnswer := answer_of_exec hExec
  cases hAnswer
  rfl

theorem exec_upsertAccount {p : AccountProjection}
    (hExec : Stmt.exec began (.upsertAccount p) db = .ok (r, ws)) : ws = [.account p] := by
  have hAnswer := answer_of_exec hExec
  cases hAnswer
  rfl

variable {context : Option String}

theorem exec_insertEvent {e : Event}
    (hExec : Stmt.exec began (.insertEvent e context) db = .ok (r, ws)) :
    (∀ row ∈ db.events, row.event.id ≠ e.id) ∧
    (∀ row ∈ db.events, ¬ (row.event.aggregateID = e.aggregateID ∧
    row.event.version = e.version)) ∧ ws = [.event ⟨db.sequence + 1, e⟩] := by
  have hAnswer := answer_of_exec hExec
  simp only [answer] at hAnswer
  split at hAnswer
  · cases hAnswer
  · rename_i hID
    split at hAnswer
    · cases hAnswer
    · rename_i hStream
      cases hAnswer
      exact ⟨by simpa using hID, by simpa using hStream, rfl⟩

theorem exec_insertSnapshot {s : Snapshot}
    (hExec : Stmt.exec began (.insertSnapshot s) db = .ok (r, ws)) :
    (∀ row ∈ db.snapshots, ¬ (row.aggregateID = s.aggregateID ∧
    row.version = s.version)) ∧ ws = [.snapshot s] := by
  have hAnswer := answer_of_exec hExec
  simp only [answer] at hAnswer
  split at hAnswer
  · cases hAnswer
  · rename_i hNew
    cases hAnswer
    exact ⟨by simpa using hNew, rfl⟩

theorem exec_insertMessage {m : Message}
    (hExec : Stmt.exec began (.insertMessage m context) db = .ok (r, ws)) :
    (∀ row ∈ db.outbox, row.message.id ≠ m.id) ∧ ws = [.message ⟨m, began, none⟩] := by
  have hAnswer := answer_of_exec hExec
  simp only [answer] at hAnswer
  split at hAnswer
  · cases hAnswer
  · rename_i hID
    cases hAnswer
    exact ⟨by simpa using hID, rfl⟩

theorem exec_upsertBalance {deltaKobo : Int64}
    (hExec : Stmt.exec began (.upsertBalance accountID deltaKobo version) db =
    .ok (r, ws)) : inBigint (db.balance accountID version + deltaKobo.toInt) = true ∧
    ws = [.balance accountID version deltaKobo.toInt] := by
  have hAnswer := answer_of_exec hExec
  simp only [answer] at hAnswer
  split at hAnswer
  · rename_i hRange
    cases hAnswer
    exact ⟨hRange, rfl⟩
  · cases hAnswer

theorem exec_insertKey {key entryID : String}
    (hExec : Stmt.exec began (.insertKey key entryID) db = .ok (r, ws)) :
    db.idempotency key = none ∧ ws = [.key key entryID] := by
  have hAnswer := answer_of_exec hExec
  simp only [answer] at hAnswer
  split at hAnswer
  · cases hAnswer
  · rename_i hNone
    cases hAnswer
    exact ⟨by simpa using hNone, rfl⟩

end Fincore.Stmt

----
-- When Statements Succeed
----

namespace Fincore

/- No event and no message has the identifier. -/
structure Database.Unused (db : Database) (id : String) : Prop where
  event : ∀ row ∈ db.events, row.event.id ≠ id
  message : ∀ row ∈ db.outbox, row.message.id ≠ id

namespace Stmt

variable {began : Nat} {db : Database}

theorem exec_of_answer {s : Stmt} {schema : Schema} {r : Resp s}
    {ws : List Write} (hSchema : db.schema = schema) (hColumns : s.missing schema = none)
    (hAnswer : s.answer began db = .ok (r, ws)) : s.exec began db = .ok (r, ws) := by
  unfold exec
  rw [hSchema, hColumns, hAnswer]
  rfl

theorem answer_insertEvent {e : Event} (context : Option String)
    (hID : ∀ row ∈ db.events, row.event.id ≠ e.id)
    (hStream : ∀ row ∈ db.events, row.event.aggregateID = e.aggregateID →
    row.event.version ≠ e.version) : Stmt.answer began (.insertEvent e context) db =
    .ok ((), [.event ⟨db.sequence + 1, e⟩]) := by
  have hFirst : db.events.any (fun row => row.event.id = e.id) =
      false := by
    simpa using hID
  have hSecond : db.events.any (fun row =>
      row.event.aggregateID = e.aggregateID ∧ row.event.version = e.version) = false := by
    simpa using hStream
  simp only [answer, hFirst, hSecond]
  rfl

theorem answer_insertSnapshot {s : Snapshot}
    (hNew : ∀ row ∈ db.snapshots, row.aggregateID = s.aggregateID →
    row.version ≠ s.version) : Stmt.answer began (.insertSnapshot s) db =
    .ok ((), [.snapshot s]) := by
  have hAny : db.snapshots.any (fun row =>
      row.aggregateID = s.aggregateID ∧ row.version = s.version) = false := by
    simpa using hNew
  simp only [answer, hAny]
  rfl

theorem answer_insertMessage {m : Message} (context : Option String)
    (hID : ∀ row ∈ db.outbox, row.message.id ≠ m.id) :
    Stmt.answer began (.insertMessage m context) db = .ok ((), [.message ⟨m, began, none⟩]) := by
  have hAny : db.outbox.any (fun row => row.message.id = m.id) =
      false := by
    simpa using hID
  simp only [answer, hAny]
  rfl

theorem answer_upsertBalance {accountID : String} {deltaKobo : Int64} {version : Nat}
    (hRange : inBigint (db.balance accountID version + deltaKobo.toInt) = true) : Stmt.answer began
    (.upsertBalance accountID deltaKobo version) db = .ok ((),
    [.balance accountID version deltaKobo.toInt]) := by
  simp only [answer]
  rw [if_pos hRange]

theorem answer_insertKey {key : String} (entryID : String) (hAbsent : db.idempotency key = none) :
    Stmt.answer began (.insertKey key entryID) db = .ok ((), [.key key entryID]) := by
  simp only [answer, hAbsent]
  rfl

end Stmt

----
-- What Ticks Leave Alone
----

variable (s : Stmt) (db : Database)

@[simp] theorem tick_schema : (postgres.tick s db).schema = db.schema := by
  cases s <;> rfl

@[simp] theorem tick_events : (postgres.tick s db).events = db.events := by
  cases s <;> rfl

@[simp] theorem tick_snapshots : (postgres.tick s db).snapshots = db.snapshots := by
  cases s <;> rfl

@[simp] theorem tick_outbox : (postgres.tick s db).outbox = db.outbox := by
  cases s <;> rfl

@[simp] theorem tick_balances : (postgres.tick s db).balances = db.balances := by
  cases s <;> rfl

@[simp] theorem tick_idempotency : (postgres.tick s db).idempotency = db.idempotency := by
  cases s <;> rfl

@[simp] theorem tick_accounts : (postgres.tick s db).accounts = db.accounts := by
  cases s <;> rfl

@[simp] theorem tick_payments : (postgres.tick s db).payments = db.payments := by
  cases s <;> rfl

@[simp] theorem tick_balance (accountID : String) (version : Nat) :
    (postgres.tick s db).balance accountID version = db.balance accountID version := by
  simp [Database.balance]

----
-- What Writes Leave Alone
----

theorem view_schema (db : Database) (ws : List Write) :
    (postgres.view db ws).schema = db.schema := by
  induction ws generalizing db with
  | nil => rfl
  | cons w ws ih =>
    have hFirst : (postgres.apply db w).schema =
        db.schema := by
      cases w <;> rfl
    rw [Engine.view_cons, ih, hFirst]

theorem withTx_schema {α : Type} (p : Tx α) (db : Database) :
    (postgres.withTx p db).2.schema = db.schema := by
  have hAll : p.Asks (fun _ => True) := by
    induction p with
    | ret a => trivial
    | fail e => trivial
    | ask s k ih => exact ⟨trivial, ih⟩
  rcases Engine.serial_writes (E := postgres)
      (R := fun _ => True) (fun _ _ _ _ _ _ _ _ _ => trivial)
      hAll (postgres.now db) [] (fun _ _ => trivial) db with ⟨db', ws, hTicked, _, hView⟩
  unfold Engine.withTx
  rw [hView, view_schema]
  exact hTicked.observe tick_schema

/-
  The row has not changed. Only balances and keys are asked about: the other rows held by a ledger
  transaction are its own inserts.
-/
def Row.Same (db db' : Database) : Row → Prop
| .balance accountID version =>
  db'.balances accountID version = db.balances accountID version
| .key k => db'.idempotency k = db.idempotency k
| _ => True

theorem Row.Same.refl (db : Database) (row : Row) : row.Same db db := by
  cases row <;> simp [Row.Same]

variable {row : Row}

theorem Row.Same.trans {db₁ db₂ db₃ : Database}
    (hFirst : row.Same db₁ db₂) (hSecond : row.Same db₂ db₃) : row.Same db₁ db₃ := by
  cases row with
  | balance accountID version =>
    simp only [Row.Same] at *
    rw [hSecond, hFirst]
  | key k =>
    simp only [Row.Same] at *
    rw [hSecond, hFirst]
  | _ => trivial

theorem Row.same_tick (db : Database) (s : Stmt) (row : Row) :
    row.Same db (postgres.tick s db) := by
  cases row <;> simp [Row.Same]

theorem Row.same_apply {w : Write} (hNot : row ∉ w.holds)
    (db : Database) : row.Same db (w.apply db) := by
  cases row with
  | balance accountID version =>
    cases w with
    | balance a v d =>
      simp only [Write.holds, List.mem_singleton, Row.balance.injEq] at hNot
      simp only [Row.Same, Write.apply]
      rw [if_neg hNot]
    | _ => rfl
  | key k =>
    cases w with
    | key new entryID =>
      simp only [Write.holds, List.mem_singleton, Row.key.injEq] at hNot
      simp only [Row.Same, Write.apply]
      rw [if_neg hNot]
    | _ => rfl
  | _ => trivial

theorem Row.same_view {ws : List Write}
    (hNot : ∀ w ∈ ws, row ∉ w.holds) (db : Database) : row.Same db (postgres.view db ws) := by
  induction ws generalizing db with
  | nil => exact Row.Same.refl db row
  | cons w ws ih =>
    have hFirst : row.Same db (w.apply db) := Row.same_apply (hNot w List.mem_cons_self) db
    have hRest : row.Same (w.apply db) (postgres.view (w.apply db) ws) :=
      ih (fun w' hMem =>
        hNot w' (List.mem_cons_of_mem w hMem)) (w.apply db)
    exact hFirst.trans hRest

/- A delta changes one balance by its amount. -/
theorem balance_apply (db : Database) (account : String) (version : Nat)
    (d : Int) (a : String) (v : Nat) :
    (postgres.apply db (.balance account version d)).balance a v = db.balance a v +
        if a = account ∧ v = version then d else 0 := by
  have hRow : (postgres.apply db (.balance account version d)).balances a v =
        if a = account ∧ v = version then
          some (db.balance account version + d)
        else db.balances a v := rfl
  unfold Database.balance
  rw [hRow]
  by_cases hSame : a = account ∧ v = version
  · rcases hSame with ⟨rfl, rfl⟩
    simp [Database.balance]
  · simp [hSame]

theorem Row.Same.balance_eq {db db' : Database} {accountID : String}
    {version : Nat} (hSame : (Row.balance accountID version).Same db db') :
    db'.balance accountID version = db.balance accountID version := by
  simp only [Row.Same] at hSame
  unfold Database.balance
  rw [hSame]

----
-- The Database Without Its Clocks
----

/- Everything but the clock and the identity sequence. -/
def Database.core (db : Database) : Database :=
  { db with
    clock := 0
    sequence := 0 }

theorem core_tick (s : Stmt) (db : Database) : (postgres.tick s db).core = db.core := by
  cases s <;> rfl

theorem core_apply (db : Database) (w : Write) : (postgres.apply db w).core =
    postgres.apply db.core w := by
  cases w <;> rfl

variable {id : String}

theorem Database.Unused.of_core {db db' : Database} (hCore : db'.core = db.core)
    (hUnused : db.Unused id) : db'.Unused id := by
  have hSame : db.core.Unused id := ⟨hUnused.event, hUnused.message⟩
  rw [← hCore] at hSame
  exact ⟨hSame.event, hSame.message⟩

/- One event and one message use their own identifiers. -/
theorem Database.Unused.append {db db' : Database} {row : EventRow}
    {msg : OutboxRow} (hEvents : db'.events = db.events ++ [row])
    (hOutbox : db'.outbox = db.outbox ++ [msg])
    (hUnused : db.Unused id) (hEvent : row.event.id ≠ id)
    (hMessage : msg.message.id ≠ id) : db'.Unused id := by
  refine ⟨?_, ?_⟩
  · intro old hMem
    rw [hEvents] at hMem
    rcases List.mem_append.mp hMem with hOld | hNew
    · exact hUnused.event old hOld
    · rw [List.mem_singleton.mp hNew]
      exact hEvent
  · intro old hMem
    rw [hOutbox] at hMem
    rcases List.mem_append.mp hMem with hOld | hNew
    · exact hUnused.message old hOld
    · rw [List.mem_singleton.mp hNew]
      exact hMessage

/- Only identifiers of the process are used up. -/
def Database.Uses (env : Env) (db db' : Database) : Prop :=
  ∀ id, (∀ n, env.newID n ≠ id) → db.Unused id → db'.Unused id

theorem Database.uses_of_core (env : Env) {db db' : Database}
    (hCore : db'.core = db.core) : Database.Uses env db db' :=
  fun _ _ hUnused => hUnused.of_core hCore

end Fincore
