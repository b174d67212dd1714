import Fincore.Lib.Saga
import Fincore.Transfer.Services

/-
  The two orchestrators of a transfer: the Temporal workflow of
  `application/workflows/transfer_workflow.go`, and its in-process twin,
  `application/saga/transfer_saga.go`.

  Key definitions include:
    * `TransferWorkflowInput` and `Activity`
    * `Activity.prog` and `serveActivity`
    * `transferWorkflow`
    * `TransferSaga.handle`
    * `TransferSaga.handlePaymentInitiated`

  Main results:
    * `transferWorkflow_eq_plan`
    * `TransferSaga.handle_eq_plan`
-/

----
-- Activities
----

namespace Fincore

/- `workflows.TransferWorkflowInput` -/
structure TransferWorkflowInput where
  paymentID : String
  fromAccountID : String
  toAccountID : String
  currency : String
  amountKobo : Int64
  narration : String
  idempotencyKey : String
  deriving DecidableEq

/- The activities `RegisterTransferWorker` registers. -/
inductive Activity where
  | withdraw (input : TransferWorkflowInput)
  | ledgerPostWithdraw (input : TransferWorkflowInput)
  | deposit (input : TransferWorkflowInput)
  | ledgerPostDeposit (input : TransferWorkflowInput)
  | refund (input : TransferWorkflowInput)
  | authorizePayment (input : TransferWorkflowInput)
  | settlePayment (input : TransferWorkflowInput)
  | failPayment (paymentID reason : String)
  deriving DecidableEq

/- An activity that calls with the amount of its input. -/
def Activity.withAmount (input : TransferWorkflowInput)
    (call : Money → ServiceCall) : Service Unit := do
  let amt ← Prog.ofExcept (Money.new input.amountKobo input.currency)
  (call amt).prog

/- The methods of `TransferActivities` -/
def Activity.prog : Activity → Service Unit
| .withdraw input =>
  withAmount input fun amt =>
    .withdraw input.fromAccountID amt ("wdr-" ++ input.paymentID) input.narration
| .ledgerPostWithdraw input =>
  withAmount input fun amt =>
    .postEntry input.fromAccountID amt "withdrawal" ("ldg-wdr-" ++ input.paymentID) input.narration
| .deposit input =>
  withAmount input fun amt =>
    .deposit input.toAccountID amt ("dep-" ++ input.paymentID) input.narration
| .ledgerPostDeposit input =>
  withAmount input fun amt =>
    .postEntry input.toAccountID amt "deposit" ("ldg-dep-" ++ input.paymentID) input.narration
| .refund input =>
  withAmount input fun amt =>
    .deposit input.fromAccountID amt ("refund-" ++ input.paymentID) input.narration
| .authorizePayment input =>
  (ServiceCall.authorize input.paymentID ("auth-" ++ input.paymentID)).prog
| .settlePayment input =>
  (ServiceCall.settle input.paymentID ("settle-" ++ input.paymentID)).prog
| .failPayment paymentID reason =>
  (ServiceCall.fail paymentID ("fail-" ++ paymentID) reason).prog

/- Run an activity, each of its transactions once. -/
def serveActivity (fates : Nat → Fate) (a : Activity) (w : World) : Except GoError Unit × World :=
  a.prog.runWith (serveTx fates) w

----
-- The Workflow
----

open Saga

/- Programs over activities. -/
abbrev Workflow := Plan Activity GoError

/- `TransferWorkflow` -/
def transferWorkflow (input : TransferWorkflowInput) : Workflow Unit := do
  attempt (.withdraw input) fun err =>
    bestEffort (.failPayment input.paymentID ("withdrawal failed: " ++ err.message))
  let recordedWithdraw := true
  attempt (.ledgerPostWithdraw input) fun err => do
    if recordedWithdraw then bestEffort (.refund input)
    bestEffort (.failPayment input.paymentID ("ledger withdrawal entry failed: " ++ err.message))
  attempt (.deposit input) fun err => do
    if recordedWithdraw then bestEffort (.refund input)
    bestEffort (.failPayment input.paymentID ("deposit failed: " ++ err.message))
  attempt (.ledgerPostDeposit input) fun err => do
    if recordedWithdraw then bestEffort (.refund input)
    bestEffort (.failPayment input.paymentID ("ledger deposit entry failed: " ++ err.message))
  attempt (.authorizePayment input) fun err => do
    if recordedWithdraw then bestEffort (.refund input)
    bestEffort (.failPayment input.paymentID ("authorize failed: " ++ err.message))
  attempt (.settlePayment input) fun err => do
    if recordedWithdraw then bestEffort (.refund input)
    bestEffort (.failPayment input.paymentID ("settle failed: " ++ err.message))
  return ()

/- The steps of the workflow. -/
def workflowSteps (input : TransferWorkflowInput) : List (Step Activity GoError) :=
  [⟨.withdraw input, fun err =>
      [.failPayment input.paymentID ("withdrawal failed: " ++ err.message)]⟩,
    ⟨.ledgerPostWithdraw input, fun err =>
      [.refund input, .failPayment input.paymentID
        ("ledger withdrawal entry failed: " ++ err.message)]⟩,
    ⟨.deposit input, fun err =>
      [.refund input, .failPayment input.paymentID ("deposit failed: " ++ err.message)]⟩,
    ⟨.ledgerPostDeposit input, fun err =>
      [.refund input, .failPayment input.paymentID
        ("ledger deposit entry failed: " ++ err.message)]⟩,
    ⟨.authorizePayment input, fun err =>
      [.refund input, .failPayment input.paymentID ("authorize failed: " ++ err.message)]⟩,
    ⟨.settlePayment input, fun err =>
      [.refund input, .failPayment input.paymentID ("settle failed: " ++ err.message)]⟩]

theorem transferWorkflow_eq_plan (input : TransferWorkflowInput) :
    transferWorkflow input = plan (workflowSteps input) := rfl

end Fincore

----
-- The Saga
----

namespace Fincore.TransferSaga

open Saga

/- Programs over the calls of the saga's clients. -/
abbrev Calls := Plan ServiceCall GoError

/- `bestEffortRefund` -/
def bestEffortRefund (accountID : String) (amount : Money)
    (idempotencyKey narration : String) : Calls Unit :=
  bestEffort (.deposit accountID amount idempotencyKey narration)

/- `bestEffortFailPayment` -/
def bestEffortFailPayment (paymentID idempotencyKey reason : String) :
    Calls Unit := bestEffort (.fail paymentID idempotencyKey reason)

/- `handlePaymentInitiated`, once the payload is decoded -/
def handle (ev : Payment.PaymentInitiated) : Calls Unit := do
  attempt (.withdraw ev.fromAccountID ev.amount ("wdr-" ++ ev.paymentID) ev.narration) fun err =>
      bestEffortFailPayment ev.paymentID ("fail-wdr-" ++ ev.paymentID)
        ("withdrawal failed: " ++ err.message)
  attempt
    (.postEntry ev.fromAccountID ev.amount "withdrawal"
      ("ldg-wdr-" ++ ev.paymentID) ev.narration) fun err => do
      bestEffortRefund ev.fromAccountID ev.amount
        ("refund-ledger-wdr-" ++ ev.paymentID) ev.narration
      bestEffortFailPayment ev.paymentID ("fail-ledger-wdr-" ++ ev.paymentID)
        ("ledger withdrawal entry failed: " ++ err.message)
  attempt (.deposit ev.toAccountID ev.amount ("dep-" ++ ev.paymentID) ev.narration) fun err => do
      bestEffortRefund ev.fromAccountID ev.amount ("refund-dep-" ++ ev.paymentID) ev.narration
      bestEffortFailPayment ev.paymentID ("fail-dep-" ++ ev.paymentID)
        ("deposit failed: " ++ err.message)
  attempt
    (.postEntry ev.toAccountID ev.amount "deposit"
      ("ldg-dep-" ++ ev.paymentID) ev.narration) fun err => do
      bestEffortRefund ev.fromAccountID ev.amount
        ("refund-ledger-dep-" ++ ev.paymentID) ev.narration
      bestEffortFailPayment ev.paymentID ("fail-ledger-dep-" ++ ev.paymentID)
        ("ledger deposit entry failed: " ++ err.message)
  attempt (.authorize ev.paymentID ("auth-" ++ ev.paymentID)) fun err => do
      bestEffortRefund ev.fromAccountID ev.amount ("refund-auth-" ++ ev.paymentID) ev.narration
      bestEffortFailPayment ev.paymentID ("fail-auth-" ++ ev.paymentID)
        ("authorize failed: " ++ err.message)
  attempt (.settle ev.paymentID ("settle-" ++ ev.paymentID)) fun err => do
      bestEffortRefund ev.fromAccountID ev.amount ("refund-settle-" ++ ev.paymentID) ev.narration
      bestEffortFailPayment ev.paymentID ("fail-settle-" ++ ev.paymentID)
        ("settle failed: " ++ err.message)
  return ()

/-
  The calls after a failed stage: a refund and the failed payment, each under a key of the stage.
-/
def undo (ev : Payment.PaymentInitiated) (refundTag failTag context : String)
    (err : GoError) : List ServiceCall :=
  [.deposit ev.fromAccountID ev.amount (refundTag ++ ev.paymentID) ev.narration,
    .fail ev.paymentID (failTag ++ ev.paymentID) (context ++ err.message)]

/- The steps of the saga. -/
def steps (ev : Payment.PaymentInitiated) : List (Step ServiceCall GoError) :=
  [⟨.withdraw ev.fromAccountID ev.amount ("wdr-" ++ ev.paymentID) ev.narration, fun err =>
        [.fail ev.paymentID ("fail-wdr-" ++ ev.paymentID) ("withdrawal failed: " ++ err.message)]⟩,
    ⟨.postEntry ev.fromAccountID ev.amount "withdrawal" ("ldg-wdr-" ++ ev.paymentID) ev.narration,
      undo ev "refund-ledger-wdr-" "fail-ledger-wdr-" "ledger withdrawal entry failed: "⟩,
    ⟨.deposit ev.toAccountID ev.amount ("dep-" ++ ev.paymentID) ev.narration,
      undo ev "refund-dep-" "fail-dep-" "deposit failed: "⟩,
    ⟨.postEntry ev.toAccountID ev.amount "deposit" ("ldg-dep-" ++ ev.paymentID) ev.narration,
      undo ev "refund-ledger-dep-" "fail-ledger-dep-" "ledger deposit entry failed: "⟩,
    ⟨.authorize ev.paymentID ("auth-" ++ ev.paymentID),
      undo ev "refund-auth-" "fail-auth-" "authorize failed: "⟩,
    ⟨.settle ev.paymentID ("settle-" ++ ev.paymentID),
      undo ev "refund-settle-" "fail-settle-" "settle failed: "⟩]

theorem handle_eq_plan (ev : Payment.PaymentInitiated) : handle ev = plan (steps ev) := rfl

/- `handlePaymentInitiated` -/
def handlePaymentInitiated (payload : Json) : Calls Unit := do
  let ev ← Prog.ofExcept ((Payment.PaymentInitiated.unmarshal payload).mapError .text)
  handle ev

/- `ProcessEvent`; the two stub branches do nothing. -/
def processEvent (eventType : String) (payload : Json) : Calls Unit :=
  if eventType = Payment.eventPaymentInitiated then
    handlePaymentInitiated payload
  else if eventType = "ledger.v1.TransactionRecorded" then
    .ret ()
  else if eventType = "account.v1.BalanceUpdated" then
    .ret ()
  else .ret ()

end Fincore.TransferSaga
