import Fincore.Pkg.Postgres

/-
  The stores the services share: `pkg/eventstore/postgres` and `pkg/outbox/postgres`.

  Key definitions include:
    * `EventStore.append`, `EventStore.read`
    * `EventStore.saveSnapshot`,
      `EventStore.loadLatestSnapshot`
    * `Outbox.enqueue`
    * `Outbox.envelope`
    * `Outbox.stage`
    * `Outbox.Creation` and `Outbox.Creation.creating`
    * `Database.stream` and `Database.latestSnapshot`

  Main results:
    * `Outbox.Creation.stage_eq`
    * `Outbox.Creation.creating_wp`
    * `stream_append`
    * `latestSnapshot_append`
-/

----
-- Event Store
----

namespace Fincore.EventStore

/- `Store.Append`: one insert for each event. `context` is what the caller wraps its error in. -/
def append (context : Option String) : List Event → Tx Unit
| [] => pure ()
| e :: es => do
    sql (.insertEvent e context)
    append context es

/- A limit of zero or less asks for the default. -/
def effectiveLimit (limit : Int) : Nat :=
  if limit ≤ 0 then 1000 else limit.toNat

theorem effectiveLimit_pos (limit : Int) : 0 < effectiveLimit limit := by
  unfold effectiveLimit
  split
  · exact Nat.zero_lt_succ _
  · omega

/- `Store.Read` -/
def read (aggregateID : String) (fromVersionExclusive : Nat) (limit : Int) : Tx (List Event) := do
  let rows : List EventRow ← sql
    (.selectEvents aggregateID fromVersionExclusive (effectiveLimit limit))
  return rows.map EventRow.event

/- `Store.SaveSnapshot` -/
def saveSnapshot (snap : Snapshot) : Tx Unit := sql (.insertSnapshot snap)

/- `Store.LoadLatestSnapshot` -/
def loadLatestSnapshot (aggregateID : String) : Tx (Option Snapshot) :=
  sql (.selectLatestSnapshot aggregateID)

end Fincore.EventStore

----
-- Outbox
----

namespace Fincore.Outbox

/- `Store.Enqueue` -/
def enqueue (context : Option String) (msg : Message) : Tx Unit := sql (.insertMessage msg context)

/-
  The `outboxEventEnvelope` of the account and the payment service; `Data` is a byte slice and
  becomes base64.
-/
def envelope (eventType aggregateID aggregateType : String) (version : Nat)
    (occurredAtUTC : Time) (data : Json) : Except GoError Json := do
  let occurredAt ← (Json.ofTime occurredAtUTC).mapError .text
  return .obj
    [("event_type", .str eventType), ("aggregate_id", .str aggregateID),
      ("aggregate_type", .str aggregateType), ("version", .num version),
      ("occurred_at_utc", occurredAt), ("data", .bytes data)]

/- The envelope of an event whose instant can be written. -/
def envelopeDocument (eventType aggregateID aggregateType : String)
    (version : Nat) (occurredAtUTC : Time) (data : Json) : Json :=
  .obj
    [("event_type", .str eventType), ("aggregate_id", .str aggregateID),
      ("aggregate_type", .str aggregateType), ("version", .num version),
      ("occurred_at_utc", .time occurredAtUTC), ("data", .bytes data)]

theorem envelope_of_inRange {occurredAtUTC : Time} (hTime : Json.TimeInRange occurredAtUTC)
    (eventType aggregateID aggregateType : String) (version : Nat)
    (data : Json) : envelope eventType aggregateID aggregateType version
    occurredAtUTC data = .ok (envelopeDocument eventType aggregateID
    aggregateType version occurredAtUTC data) := by
  have hOfTime : Json.ofTime occurredAtUTC = .ok (.time occurredAtUTC) := if_pos hTime
  unfold envelope
  rw [hOfTime]
  rfl

/- The headers that go with an envelope, in key order. -/
def envelopeHeaders (eventType aggregateID aggregateType : String) : List (String × String) :=
  [("aggregate_id", aggregateID), ("aggregate_type", aggregateType),
    ("event_type", eventType), ("schema", "json-envelope.v1")]

/- `eventRecord` of the account and the payment service -/
structure EventRecord where
  typ : String
  data : Json
  occurredAtUTC : Time

/-
  The loop that both services run over the events of a new aggregate: enqueue each, and collect what
  to append. The identifiers of event `i` are numbers `1 + 2 * i` (the event) and `2 + 2 * i` (the
  message).
-/
def stage (topic aggregateID aggregateType : String)
    (env : Env) : Nat → List EventRecord → Tx (List Event)
| _, [] => pure []
| i, s :: rest => do
    let payload ← Prog.ofExcept
      ((envelope s.typ aggregateID aggregateType (i + 1)
        s.occurredAtUTC s.data).mapError (.wrap "marshal outbox envelope"))
    enqueue (some "enqueue outbox") {
      id := env.newID (2 + 2 * i)
      topic := topic
      key := aggregateID
      value := payload
      headers := envelopeHeaders s.typ aggregateID aggregateType }
    let toAppend ← stage topic aggregateID aggregateType env (i + 1) rest
    return {
      id := env.newID (1 + 2 * i)
      aggregateID := aggregateID
      aggregateType := aggregateType
      version := i + 1
      type := s.typ
      occurredAt := s.occurredAtUTC
      data := s.data } :: toAppend

----
-- New Aggregates
----

/- The one event that a new aggregate is staged with. -/
structure Creation where
  topic : String
  aggregateID : String
  aggregateType : String
  env : Env
  typ : String
  data : Json
  occurredAtUTC : Time

namespace Creation

variable (cr : Creation)

def record : EventRecord := ⟨cr.typ, cr.data, cr.occurredAtUTC⟩

def event : Event where
  id := cr.env.newID 1
  aggregateID := cr.aggregateID
  aggregateType := cr.aggregateType
  version := 1
  type := cr.typ
  occurredAt := cr.occurredAtUTC
  data := cr.data

def message : Message where
  id := cr.env.newID 2
  topic := cr.topic
  key := cr.aggregateID
  value := envelopeDocument cr.typ cr.aggregateID cr.aggregateType 1 cr.occurredAtUTC cr.data
  headers := envelopeHeaders cr.typ cr.aggregateID cr.aggregateType

/- The rows of a new aggregate, the last its projection. -/
def writes (projection : Write) (sequence began : Nat) : List Write :=
  [.message ⟨cr.message, began, none⟩, .event ⟨sequence, cr.event⟩, projection]

/- The statements; `upsert` writes the projection. -/
def creating {α : Type} (upsert : Stmt) (a : α) : Tx α :=
  .ask (.insertMessage cr.message (some "enqueue outbox"))
    (fun _ =>
      .ask (.insertEvent cr.event (some "append events")) (fun _ => .ask upsert (fun _ => .ret a)))

/- Staging one event enqueues it and hands it on. -/
theorem stage_eq {α : Type} (hTime : Json.TimeInRange cr.occurredAtUTC) (k : List Event → Tx α) :
    (stage cr.topic cr.aggregateID cr.aggregateType cr.env 0 [cr.record] >>= k) = .ask
    (.insertMessage cr.message (some "enqueue outbox")) (fun _ => k [cr.event]) := by
  have hPayload : envelope cr.record.typ cr.aggregateID cr.aggregateType
      (0 + 1) cr.record.occurredAtUTC cr.record.data =
      .ok cr.message.value := envelope_of_inRange hTime _ _ _ _ _
  unfold stage
  rw [hPayload]
  rfl

/- A new aggregate commits its rows or nothing. -/
theorem creating_wp {α : Type} {upsert : Stmt} (projection : Write) {a : α}
    (R : Engine.Rely Database Stmt Resp Write GoError α)
    {Q : Database → List Write → α → Prop} (began : Nat) (db : Database)
    (hUpsert : ∀ db r ws, postgres.exec began upsert db = .ok (r, ws) → ws = [projection])
    (hPost : ∀ db sequence, Q db (cr.writes projection sequence began) a) :
    postgres.Wp R Q began (cr.creating upsert a) [] db := by
  intro db₁ _ _ ws₁ hExec₁
  rcases Stmt.exec_insertMessage hExec₁ with ⟨_, rfl⟩
  intro db₂ _ _ ws₂ hExec₂
  rcases Stmt.exec_insertEvent hExec₂ with ⟨_, _, rfl⟩
  intro db₃ _ r ws₃ hExec₃
  rw [hUpsert _ r ws₃ hExec₃]
  intro db₄ _
  exact hPost db₄ _

end Creation

end Fincore.Outbox

----
-- Streams
----

namespace Fincore

/- The rows that `Store.Read` selects, without its limit. -/
def Database.stream (db : Database) (aggregateID : String) (fromVersion : Nat) : List EventRow :=
  (db.events.filter (fun row =>
    row.event.aggregateID = aggregateID ∧ fromVersion < row.event.version)).insertionSort
    (fun a b => a.event.version ≤ b.event.version)

/- The row that `Store.LoadLatestSnapshot` selects. -/
def Database.latestSnapshot (db : Database) (aggregateID : String) : Option Snapshot :=
  ((db.snapshots.filter (fun row =>
    row.aggregateID = aggregateID)).insertionSort (fun a b => b.version ≤ a.version)).head?

theorem orderedInsert_concat {α : Type} (r : α → α → Prop) [DecidableRel r]
    {x y : α} (hLast : r x y) (l : List α) : (l ++ [y]).orderedInsert r x =
    l.orderedInsert r x ++ [y] := by
  induction l with
  | nil => simp [hLast]
  | cons z l ih =>
    by_cases hFirst : r x z
    · simp [hFirst]
    · simp [hFirst, ih]

theorem insertionSort_concat {α : Type} (r : α → α → Prop) [DecidableRel r]
    {y : α} {l : List α} (hLast : ∀ x ∈ l, r x y) : (l ++ [y]).insertionSort r =
    l.insertionSort r ++ [y] := by
  induction l with
  | nil => rfl
  | cons x l ih =>
    have hTail : ∀ z ∈ l, r z y := fun z hMem => hLast z (List.mem_cons_of_mem x hMem)
    rw [List.cons_append, List.insertionSort_cons, List.insertionSort_cons, ih hTail,
      orderedInsert_concat r (hLast x List.mem_cons_self)]

/- What goes before all others comes first. -/
theorem head?_insertionSort_concat {α : Type} (r : α → α → Prop)
    [DecidableRel r] {y : α} {l : List α} (hFirst : ∀ x ∈ l, ¬ r x y) :
    ((l ++ [y]).insertionSort r).head? = some y := by
  have hHead : ∃ rest, (l ++ [y]).insertionSort r = y :: rest := by
    induction l with
    | nil => exact ⟨[], rfl⟩
    | cons x l ih =>
      rcases ih (fun z hMem =>
        hFirst z (List.mem_cons_of_mem x hMem)) with
        ⟨rest, hRest⟩
      refine ⟨rest.orderedInsert r x, ?_⟩
      rw [List.cons_append, List.insertionSort_cons, hRest]
      simp [hFirst x List.mem_cons_self]
  rcases hHead with ⟨rest, hRest⟩
  rw [hRest, List.head?_cons]

section

variable {db db' : Database}

variable {aggregateID : String}

theorem mem_stream {fromVersion : Nat} {row : EventRow} : row ∈ db.stream aggregateID fromVersion ↔
    row ∈ db.events ∧ row.event.aggregateID = aggregateID ∧ fromVersion < row.event.version := by
  simp [Database.stream]

variable {s : Snapshot}

theorem latestSnapshot_mem (hLatest : db.latestSnapshot aggregateID = some s) :
    s ∈ db.snapshots ∧ s.aggregateID = aggregateID := by
  unfold Database.latestSnapshot at hLatest
  have hMem := List.mem_of_head? hLatest
  simpa using hMem

theorem latestSnapshot_le (hMem : s ∈ db.snapshots) (hSame : s.aggregateID = aggregateID) :
    ∃ latest, db.latestSnapshot aggregateID = some latest ∧ s.version ≤ latest.version := by
  have hSorted :
      ((db.snapshots.filter (fun row =>
        row.aggregateID = aggregateID)).insertionSort (fun a b => b.version ≤ a.version)).Pairwise
        (fun a b => b.version ≤ a.version) := by
    have : Std.Total (fun a b : Snapshot => b.version ≤ a.version) :=
      ⟨fun a b => Nat.le_total b.version a.version⟩
    have : IsTrans Snapshot (fun a b => b.version ≤ a.version) :=
      ⟨fun a b c hab hbc => Nat.le_trans hbc hab⟩
    exact List.pairwise_insertionSort _ _
  have hIn : s ∈ (db.snapshots.filter (fun row =>
        row.aggregateID = aggregateID)).insertionSort (fun a b => b.version ≤ a.version) := by
    simp [hMem, hSame]
  unfold Database.latestSnapshot
  generalize (db.snapshots.filter (fun row =>
      row.aggregateID = aggregateID)).insertionSort
        (fun a b => b.version ≤ a.version) = rows at hSorted hIn
  cases rows with
  | nil => cases hIn
  | cons latest rest =>
    refine ⟨latest, rfl, ?_⟩
    rcases List.mem_cons.mp hIn with rfl | hRest
    · exact Nat.le_refl _
    · exact (List.pairwise_cons.mp hSorted).1 s hRest

/- A new last event comes last in its stream. -/
theorem stream_append {row : EventRow} (hEvents : db'.events = db.events ++ [row])
    (hLast : ∀ old ∈ db.events, old.event.aggregateID = row.event.aggregateID →
    old.event.version < row.event.version) {fromVersion : Nat}
    (hAfter : fromVersion < row.event.version) : db'.stream row.event.aggregateID fromVersion =
    db.stream row.event.aggregateID fromVersion ++ [row] := by
  unfold Database.stream
  rw [hEvents, List.filter_append]
  have hNew : [row].filter (fun r =>
      r.event.aggregateID = row.event.aggregateID ∧ fromVersion < r.event.version) = [row] := by
    simp [hAfter]
  rw [hNew]
  apply insertionSort_concat
  intro old hMem
  rw [List.mem_filter] at hMem
  have hOld := of_decide_eq_true hMem.2
  exact Nat.le_of_lt (hLast old hMem.1 hOld.1)

theorem stream_append_other {row : EventRow} (hEvents : db'.events = db.events ++ [row])
    (hOther : row.event.aggregateID ≠ aggregateID) (fromVersion : Nat) :
    db'.stream aggregateID fromVersion = db.stream aggregateID fromVersion := by
  unfold Database.stream
  rw [hEvents, List.filter_append]
  simp [hOther]

theorem latestSnapshot_append (hSnapshots : db'.snapshots = db.snapshots ++ [s])
    (hLast : ∀ old ∈ db.snapshots, old.aggregateID = s.aggregateID → old.version < s.version) :
    db'.latestSnapshot s.aggregateID = some s := by
  unfold Database.latestSnapshot
  rw [hSnapshots, List.filter_append]
  have hNew : [s].filter (fun row =>
      row.aggregateID = s.aggregateID) = [s] := by
    simp
  rw [hNew]
  apply head?_insertionSort_concat
  intro old hMem
  rw [List.mem_filter] at hMem
  exact Nat.not_le_of_lt (hLast old hMem.1 (of_decide_eq_true hMem.2))

theorem latestSnapshot_append_other (hSnapshots : db'.snapshots = db.snapshots ++ [s])
    (hOther : s.aggregateID ≠ aggregateID) : db'.latestSnapshot aggregateID =
    db.latestSnapshot aggregateID := by
  unfold Database.latestSnapshot
  rw [hSnapshots, List.filter_append]
  simp [hOther]

end

end Fincore
