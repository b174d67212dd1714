import Fincore.Lib.RelyGuarantee
import Fincore.Payment.Handlers
import Fincore.Transfer.Workflow

/-
  The way of a payment event from the outbox to the saga: `application/workers/outbox_worker.go`,
  `infrastructure/messaging/consumer.go` and `ProcessEvent`.

  Under the service's migrations the worker's first statement names a column the table does not
  have, so that no batch publishes anything. Nor would a message be received: its subject is the
  topic of the outbox, which the consumer does not subscribe to.

  Key definitions include:
    * `Relay.processBatch`
    * `Relay.serve` and `Relay.batches`
    * `Relay.subjects` and `Relay.Reaches`

  Main results:
    * `Relay.batches_publish_nothing`
    * `initiated_never_reaches_saga`
-/

----
-- The Worker
----

namespace Fincore.Relay

/- `nats.Msg` -/
structure Msg where
  subject : String
  data : Json
  headers : List (String × String)

/- What the worker asks its store and the broker for. -/
inductive Req where
  | getPending (limit : Nat)
  | publish (msg : Msg)
  | markProcessed (ids : List String)

@[reducible] def Resp : Req → Type
| .getPending _ => Except GoError (List Message)
| .publish _ => Except GoError Unit
| .markProcessed _ => Except GoError Unit

abbrev Worker := Prog Req Resp GoError

def ask (r : Req) : Worker (Resp r) := Prog.request r

/- The loop; a message that is not published is skipped. -/
def publishAll : List Message → Worker (List String)
| [] => pure []
| msg :: rest => do
    let res : Except GoError Unit ← ask (.publish {
      subject := msg.topic
      data := msg.value
      headers := msg.headers })
    let processedIDs ← publishAll rest
    match res with
    | .error _ => pure processedIDs
    | .ok () => pure (msg.id :: processedIDs)

/- The end of `processBatch`. -/
def markProcessed : List String → Worker Unit
| [] => pure ()
| processedIDs => do
    let res : Except GoError Unit ← ask (.markProcessed processedIDs)
    Prog.ofExcept (res.mapError (.wrap "mark processed"))

/- `batchSize` of `NewOutboxWorker` -/
def batchSize : Nat := 50

/- `OutboxWorker.processBatch` -/
def processBatch : Worker Unit := do
  let pending : Except GoError (List Message) ← ask (.getPending batchSize)
  let msgs ← Prog.ofExcept (pending.mapError (.wrap "get pending"))
  match msgs with
  | [] => pure ()
  | msgs => do
      let processedIDs ← publishAll msgs
      markProcessed processedIDs

----
-- The Broker And The Consumer
----

/- The outbox's database, and all that was published. -/
structure State where
  db : Database
  published : List Msg

/- Statements on the pool, and a broker that takes all. -/
def serve : (r : Req) → State → Resp r × State
| .getPending limit, s =>
  let res := postgres.withTx (sql (.selectPending limit)) s.db
  (res.1, { s with db := res.2 })
| .publish msg, s =>
  (.ok (), { s with published := s.published ++ [msg] })
| .markProcessed ids, s =>
  let res := postgres.withTx (sql (.updateProcessed ids)) s.db
  (res.1, { s with db := res.2 })

/- The state after some ticks of the worker. -/
def batches : Nat → State → State
| 0, s => s
| n + 1, s => batches n (processBatch.runWith serve s).2

/- The subjects `EventConsumer.Start` subscribes to. -/
def subjects : List String := ["payment.initiated.v1"]

/-
  The consumer receives one of the messages, and `ProcessEvent` decodes it, under its subject, to an
  event with the identifiers, amount and narration of `ev`.
-/
def Reaches (published : List Msg) (ev : Payment.PaymentInitiated) : Prop :=
  ∃ msg ∈ published, msg.subject ∈ subjects ∧ msg.subject = Payment.eventPaymentInitiated ∧ ∃ got,
        Payment.PaymentInitiated.unmarshal msg.data = .ok got ∧
          got.paymentID = ev.paymentID ∧ got.fromAccountID = ev.fromAccountID ∧
          got.toAccountID = ev.toAccountID ∧ got.amount = ev.amount ∧ got.narration = ev.narration

end Fincore.Relay

----
-- Nothing Is Published
----

namespace Fincore

namespace Relay

variable {s : State}

/- The query names a column the migrations do not create. -/
theorem getPending_fails (hSchema : s.db.schema = paymentMigrations)
    (limit : Nat) : (serve (.getPending limit) s).1 =
    .error (.pg (.undefinedColumn "outbox_messages" "processed_at")) := by
  have hMissing : (Stmt.selectPending limit).missing s.db.schema = some "processed_at" := by
    rw [hSchema]
    rfl
  have hExec : postgres.exec (postgres.now s.db) (.selectPending limit) (postgres.view s.db []) =
      .error (.pg (.undefinedColumn "outbox_messages" "processed_at")) := by
    show Stmt.exec _ _ s.db = _
    unfold Stmt.exec
    rw [hMissing]
    rfl
  show (postgres.serial (postgres.now s.db) (.ask (.selectPending limit) .ret) [] s.db).1 = _
  unfold Engine.serial
  rw [hExec]

/- A tick of the worker keeps both facts. -/
theorem processBatch_publishes_nothing (hSchema : s.db.schema = paymentMigrations) :
    (processBatch.runWith serve s).2.db.schema = paymentMigrations ∧
    (processBatch.runWith serve s).2.published =
    s.published := by
  have hError := getPending_fails hSchema batchSize
  have hRun : (processBatch.runWith serve s).2 = (serve (.getPending batchSize) s).2 := by
    show (Prog.runWith serve
      (Prog.ofExcept
        ((serve (.getPending batchSize) s).1.mapError
          (GoError.wrap "get pending")) >>= fun msgs => _)
      (serve (.getPending batchSize) s).2).2 = _
    rw [hError]
    rfl
  rw [hRun]
  refine ⟨?_, rfl⟩
  rw [← hSchema]
  exact withTx_schema _ s.db

/- So does any number of them. -/
theorem batches_publish_nothing (hSchema : s.db.schema = paymentMigrations) (n : Nat) :
    (batches n s).published = s.published := by
  induction n generalizing s with
  | zero => rfl
  | succ n ih =>
    have hTick := processBatch_publishes_nothing hSchema
    have hRest := ih hTick.1
    exact hRest.trans hTick.2

end Relay

/- Whatever payment was initiated, however often the worker runs: the saga gets no event of it. -/
theorem initiated_never_reaches_saga (cmd : Payment.InitiatePayment) (env : Env)
    (db db' : Database) (projection : PaymentProjection) (occurredAt : Time)
    (hSchema : db.schema = paymentMigrations)
    (hCommitted : postgres.withTx (Payment.initiatePayment cmd env) db =
      (.ok projection, db')) (n : Nat) : ¬ Relay.Reaches (Relay.batches n ⟨db', []⟩).published
      ⟨projection.paymentID, cmd.fromAccountID,
      cmd.toAccountID, cmd.amount, cmd.narration, occurredAt⟩ := by
  have hAfter : db'.schema = paymentMigrations := by
    have hKept := withTx_schema (Payment.initiatePayment cmd env) db
    rw [hCommitted] at hKept
    exact hKept.trans hSchema
  have hNone : (Relay.batches n ⟨db', []⟩).published = [] := Relay.batches_publish_nothing hAfter n
  rw [hNone]
  rintro ⟨msg, hMem, _⟩
  cases hMem

/- A payment of 100 kobo on a new database. -/
def initiateRent : Payment.InitiatePayment := ⟨"A-0", "B-0", ⟨100, NGN⟩, "rent", "pay"⟩

def rentEvent : Payment.PaymentInitiated := ⟨"P-0", "A-0", "B-0", ⟨100, NGN⟩, "rent", 0⟩

theorem rent_event_never_reaches_saga : ∃ projection db', postgres.withTx
      (Payment.initiatePayment initiateRent (.tagged "P"))
      (Database.empty paymentMigrations) = (.ok projection, db') ∧
      ¬ Relay.Reaches (Relay.batches 1 ⟨db', []⟩).published
      rentEvent := by
  refine ⟨_, _, rfl, ?_⟩
  exact initiated_never_reaches_saga initiateRent
    (.tagged "P") (Database.empty paymentMigrations) _ _ 0 rfl rfl 1

/- Its message waits in the outbox and is not published. -/
theorem rent_event_not_published : ∃ projection db', postgres.withTx
      (Payment.initiatePayment initiateRent (.tagged "P"))
      (Database.empty paymentMigrations) = (.ok projection, db') ∧ db'.outbox.length = 1 ∧
      (Relay.processBatch.runWith Relay.serve ⟨db', []⟩).2.published = [] ∧ ¬ Relay.Reaches
      (Relay.processBatch.runWith Relay.serve ⟨db', []⟩).2.published rentEvent := by
  refine ⟨_, _, rfl, rfl, rfl, ?_⟩
  rintro ⟨msg, hMem, _⟩
  cases hMem

end Fincore
