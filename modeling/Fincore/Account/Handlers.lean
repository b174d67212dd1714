import Fincore.Account.Domain

/-
  The transactions of `services/account-service/application/commands`.

  Key definitions include:
    * `loadAccount`
    * `recordMovement`
    * `openAccount`
-/

----
-- Loading
----

namespace Fincore.Account

/- The events of the loop in `LoadAccount`. -/
def unmarshalEvents : List Event → Except GoError (List DomainEvent)
| [] => .ok []
| e :: es => do
    let ev ← unmarshalAccountEvent e.type e.data
    let rest ← unmarshalEvents es
    return ev :: rest

/- `LoadAccount` -/
def loadAccount (accountID : String) : Tx Account := do
  match ← EventStore.loadLatestSnapshot accountID with
  | none =>
    let events ← EventStore.read accountID 0 10000
    let des ← Prog.ofExcept (unmarshalEvents events)
    return rehydrate des
  | some snap =>
    let state ← Prog.ofExcept ((State.unmarshal snap.data).mapError .text)
    let events ← EventStore.read accountID snap.version 10000
    let des ← Prog.ofExcept (unmarshalEvents events)
    return rehydrateFromSnapshot state des

/- `saveSnapshot` -/
def saveSnapshot (ag : Account) (aggregateID : String) (version : Nat) (env : Env) : Tx Unit :=
  EventStore.saveSnapshot {
    aggregateID := aggregateID
    aggregateType := "account"
    version := version
    createdAt := env.now
    data := { ag.snapshot with version := version }.marshal }

----
-- Deposits And Withdrawals
----

def accountEventsTopicV1 : String := "banking.accounts.v1"

/- `commands.DepositMoney` and `commands.WithdrawMoney` -/
structure MoneyCommand where
  accountID : String
  amount : Money
  idempotencyKey : String
  narration : String

/- What tells the two handlers apart. -/
inductive Movement where
  | deposit
  | withdrawal
  deriving DecidableEq

/- The event the handler raises. -/
def Movement.event : Movement → MoneyCommand → String → Time → DomainEvent
| .deposit, cmd, entryID, now =>
  .moneyDeposited cmd.accountID cmd.amount entryID now
| .withdrawal, cmd, entryID, now =>
  .moneyWithdrawn cmd.accountID cmd.amount entryID now

/-
  The function `DepositMoneyHandler.Handle` and `WithdrawMoneyHandler.Handle` hand to `WithTx` once
  the ledger has answered with an entry.
-/
def recordMovement (kind : Movement) (cmd : MoneyCommand) (entryID : String)
    (env : Env) : Tx Unit := do
  let accountID := cmd.accountID
  let ag ← loadAccount accountID
  if ag.status ≠ statusActive then
    Prog.fail errAccountNotActive
  else
    let ev := kind.event cmd entryID env.now
    let b ← Prog.ofExcept (ev.marshal.mapError .text)
    let ver := ag.version + 1
    EventStore.append (some "append account event") [{
      id := env.newID 0
      aggregateID := accountID
      aggregateType := "account"
      version := ver
      type := ev.eventType
      occurredAt := ev.occurredAtUTC
      data := b }]
    if ver % 50 = 0 then
      saveSnapshot ag accountID ver env
    sql (.upsertAccount {
      accountID := accountID
      customerID := ag.customerID
      status := ag.status
      version := ver })
    let payload ← Prog.ofExcept
      (Outbox.envelope ev.eventType accountID "account" ver ev.occurredAtUTC b)
    Outbox.enqueue none {
      id := env.newID 1
      topic := accountEventsTopicV1
      key := accountID
      value := payload
      headers := Outbox.envelopeHeaders ev.eventType accountID "account" }

----
-- Opening
----

/- The records of the events of a new account. -/
def eventRecords : List DomainEvent → Except GoError (List Outbox.EventRecord)
| [] => .ok []
| e :: es => do
    let b ← e.marshal.mapError (fun msg =>
      .wrap "marshal event" (.text msg))
    let rest ← eventRecords es
    return ⟨e.eventType, b, e.occurredAtUTC⟩ :: rest

/- `OpenAccountHandler.Handle` -/
def openAccount (customerID idempotencyKey : String) (env : Env) : Tx String :=
  if customerID = "" then
    .fail (.text "customer id required")
  else if idempotencyKey = "" then
    .fail (.text "idempotency key required")
  else do
    let ag ← Prog.ofExcept (newAccount customerID env)
    let stored ← Prog.ofExcept (eventRecords ag.changes)
    let toAppend ← Outbox.stage accountEventsTopicV1 ag.id "account" env 0 stored
    EventStore.append (some "append events") toAppend
    sql (.upsertAccount {
      accountID := ag.id
      customerID := ag.customerID
      status := ag.status
      version := ag.version })
    return ag.id

end Fincore.Account
