import Fincore.Payment.Domain

/-
  The transactions of `services/payment-service/application/commands`.

  Key definitions include:
    * `loadPayment`
    * `initiatePayment`
    * `authorizePayment`, `settlePayment` and `failPayment`
-/

----
-- Loading
----

namespace Fincore.Payment

/- The loop of `LoadPayment`. -/
def applyEvents (p : Payment) : List Event → Except GoError Payment
| [] => .ok p
| se :: rest => do
    let ev ← unmarshalPaymentEvent se.type se.data
    applyEvents (p.apply ev) rest

/- `LoadPayment`; an unknown payment loads as `&Payment{}`. -/
def loadPayment (paymentID : String) : Tx Payment := do
  let evs ← EventStore.read paymentID 0 10000
  Prog.ofExcept (applyEvents zero evs)

def paymentEventsTopicV1 : String := "banking.payments.v1"

----
-- Initiating
----

/- `commands.InitiatePayment` -/
structure InitiatePayment where
  fromAccountID : String
  toAccountID : String
  amount : Money
  narration : String
  idempotencyKey : String

/- The loop over the events of a new payment. -/
def eventRecords : List DomainEvent → Except GoError (List Outbox.EventRecord)
| [] => .ok []
| .paymentInitiated ev :: es => do
    let b ← (DomainEvent.paymentInitiated ev).marshal.mapError
      (fun msg => .wrap "marshal event" (.text msg))
    let rest ← eventRecords es
    return ⟨eventPaymentInitiated, b, ev.occurredAt⟩ :: rest
| _ :: _ => .error (.text "unsupported event")

/-
  `InitiatePaymentHandler.Handle` up to the end of its first transaction. It returns the projection
  it created.
-/
def initiatePayment (cmd : InitiatePayment) (env : Env) : Tx PaymentProjection :=
  if cmd.fromAccountID = "" then
    .fail (.text "from_account_id required")
  else if cmd.toAccountID = "" then
    .fail (.text "to_account_id required")
  else if cmd.idempotencyKey = "" then
    .fail (.text "idempotency_key required")
  else if cmd.fromAccountID = cmd.toAccountID then
    .fail (.text "from_account_id and to_account_id must differ")
  else do
    Prog.ofExcept (validateAmount cmd.amount)
    let p ← Prog.ofExcept
      (newPayment cmd.fromAccountID cmd.toAccountID cmd.amount cmd.narration env)
    let stored ← Prog.ofExcept (eventRecords p.changes)
    let toAppend ← Outbox.stage paymentEventsTopicV1 p.id "payment" env 0 stored
    EventStore.append (some "append events") toAppend
    let projection : PaymentProjection := {
      paymentID := p.id
      fromAccountID := cmd.fromAccountID
      toAccountID := cmd.toAccountID
      currency := cmd.amount.currency
      amountKobo := cmd.amount.amountKobo
      narration := cmd.narration
      status := p.status.text
      temporalWorkflowID := ""
      temporalRunID := ""
      version := p.version }
    sql (.upsertPayment projection)
    return projection

/- Its second transaction, once a workflow was started. -/
def recordWorkflow (paymentID workflowID runID : String) : Tx Unit := do
  let row : Option PaymentProjection ← sql (.selectPayment paymentID)
  match row with
  | none => Prog.fail (.text "payment not found")
  | some cur =>
    sql (.upsertPayment { cur with
      temporalWorkflowID := workflowID
      temporalRunID := runID })

----
-- Authorizing, Settling And Failing
----

/- The result struct of the three handlers. -/
structure TransitionResult where
  paymentID : String
  version : Nat
  status : Status
  deriving DecidableEq

/-
  What the three handlers do with the payment they have loaded. `act` is the method called on it,
  and `expected` the type its one change is asserted to have.
-/
def transitionFrom (paymentID : String) (act : Payment → Env → Except GoError Payment)
    (expected : DomainEvent → Bool) (env : Env) (p : Payment) : Tx TransitionResult := do
  let p ← Prog.ofExcept (act p env)
  match p.changes with
  | [ev] =>
    if expected ev = false then
      Prog.fail (.text "unexpected event")
    else
      let b ← Prog.ofExcept (ev.marshal.mapError (fun msg =>
          .wrap "marshal event" (.text msg)))
      let ver := p.version
      EventStore.append (some "append events") [{
        id := env.newID 0
        aggregateID := paymentID
        aggregateType := "payment"
        version := ver
        type := ev.eventType
        occurredAt := ev.occurredAtUTC
        data := b }]
      let row : Option PaymentProjection ← sql (.selectPayment paymentID)
      match row with
      | none => Prog.fail (.text "payment not found")
      | some cur =>
        sql (.upsertPayment { cur with
          status := p.status.text
          version := ver })
        let payload ← Prog.ofExcept
          (Outbox.envelope ev.eventType paymentID "payment" ver ev.occurredAtUTC b)
        Outbox.enqueue none {
          id := env.newID 1
          topic := paymentEventsTopicV1
          key := paymentID
          value := payload
          headers := Outbox.envelopeHeaders ev.eventType paymentID "payment" }
        return ⟨paymentID, ver, p.status⟩
  | _ => Prog.fail (.text "unexpected number of changes")

/- The body the three handlers share. -/
def transition (paymentID idempotencyKey : String) (act : Payment → Env → Except GoError Payment)
    (expected : DomainEvent → Bool) (env : Env) : Tx TransitionResult :=
  if paymentID = "" then .fail (.text "payment_id required")
  else if idempotencyKey = "" then
    .fail (.text "idempotency_key required")
  else do
    let p ← loadPayment paymentID
    transitionFrom paymentID act expected env p

def isAuthorized : DomainEvent → Bool
| .paymentAuthorized _ _ => true
| _ => false

def isSettled : DomainEvent → Bool
| .paymentSettled _ _ => true
| _ => false

def isFailed : DomainEvent → Bool
| .paymentFailed _ _ _ => true
| _ => false

/- `AuthorizePaymentHandler.Handle` -/
def authorizePayment (paymentID idempotencyKey : String) (env : Env) : Tx TransitionResult :=
  transition paymentID idempotencyKey authorize isAuthorized env

/- `SettlePaymentHandler.Handle` -/
def settlePayment (paymentID idempotencyKey : String) (env : Env) : Tx TransitionResult :=
  transition paymentID idempotencyKey settle isSettled env

/- `FailPaymentHandler.Handle`, which trims the reason -/
def failPayment (paymentID idempotencyKey reason : String) (env : Env) : Tx TransitionResult :=
  transition paymentID idempotencyKey (fun p env => p.fail (trimSpace reason) env) isFailed env

end Fincore.Payment
