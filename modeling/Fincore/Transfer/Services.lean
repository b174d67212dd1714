import Fincore.Account.Handlers
import Fincore.Ledger.PostEntry
import Fincore.Payment.Handlers

/-
  The three services behind a transfer, each with its own database, and the calls that the payment
  service makes on them.

  A call is a program over single transactions: a deposit or a withdrawal of the account service
  first posts to the ledger and then records its own event, in two databases.

  Key definitions include:
    * `ServiceTx` and `ServiceTx.exec`
    * `World` and `serveTx`
    * `moveMoney`, with `depositMoney` and `withdrawMoney`
    * `ServiceCall` and `serveCall`

  Main results:
    * `moveMoney_run`
-/

----
-- Transactions Of The Services
----

namespace Fincore

/- One transaction on one service's database. -/
inductive ServiceTx where
  | postEntry (req : Ledger.PostEntryRequest)
  | recordMovement (kind : Account.Movement) (cmd : Account.MoneyCommand) (entryID : String)
  | authorizePayment (paymentID idempotencyKey : String)
  | settlePayment (paymentID idempotencyKey : String)
  | failPayment (paymentID idempotencyKey reason : String)

@[reducible] def ServiceTx.Resp : ServiceTx → Type
| .postEntry _ => Except GoError String
| .recordMovement _ _ _ => Except GoError Unit
| .authorizePayment _ _ =>
  Except GoError Payment.TransitionResult
| .settlePayment _ _ =>
  Except GoError Payment.TransitionResult
| .failPayment _ _ _ =>
  Except GoError Payment.TransitionResult

/- The services' databases, and how many transactions ran. -/
structure World where
  ledger : Database
  account : Database
  payment : Database
  served : Nat

/- What befalls a transaction: it runs in its process, or it fails without having had an effect. -/
inductive Fate where
  | run (env : Env)
  | down (e : GoError)

/- Run one transaction on its database. -/
def ServiceTx.exec (fate : Fate) : (r : ServiceTx) → World → ServiceTx.Resp r × World
| .postEntry req, w =>
  match fate with
  | .down e => (.error e, w)
  | .run env =>
    let res := postgres.withTx (req.postEntry env) w.ledger
    (res.1, { w with ledger := res.2 })
| .recordMovement kind cmd entryID, w =>
  match fate with
  | .down e => (.error e, w)
  | .run env =>
    let res := postgres.withTx (Account.recordMovement kind cmd entryID env) w.account
    (res.1, { w with account := res.2 })
| .authorizePayment paymentID idempotencyKey, w =>
  match fate with
  | .down e => (.error e, w)
  | .run env =>
    let res := postgres.withTx (Payment.authorizePayment paymentID idempotencyKey env) w.payment
    (res.1, { w with payment := res.2 })
| .settlePayment paymentID idempotencyKey, w =>
  match fate with
  | .down e => (.error e, w)
  | .run env =>
    let res := postgres.withTx (Payment.settlePayment paymentID idempotencyKey env) w.payment
    (res.1, { w with payment := res.2 })
| .failPayment paymentID idempotencyKey reason, w =>
  match fate with
  | .down e => (.error e, w)
  | .run env =>
    let res := postgres.withTx (Payment.failPayment paymentID idempotencyKey reason env) w.payment
    (res.1, { w with payment := res.2 })

/- Run one transaction, the next of a sequence of fates. -/
def serveTx (fates : Nat → Fate) (r : ServiceTx) (w : World) : ServiceTx.Resp r × World :=
  let res := r.exec (fates w.served) w
  (res.1, { res.2 with served := w.served + 1 })

/- Programs over the services' transactions. -/
abbrev Service := Prog ServiceTx ServiceTx.Resp GoError

/- Ask for one transaction. -/
def transact (r : ServiceTx) : Service (ServiceTx.Resp r) := Prog.request r

end Fincore

----
-- The Account Service
----

namespace Fincore.Account

/- The entry type that goes over the wire. -/
def Movement.wire : Movement → Ledger.WireEntryType
| .deposit => .deposit
| .withdrawal => .withdrawal

/- The request for a movement's entry, key forwarded. -/
def ledgerRequest (kind : Movement) (cmd : MoneyCommand) : Ledger.PostEntryRequest where
  idempotencyKey := cmd.idempotencyKey
  entryType := kind.wire
  accountID := cmd.accountID
  currency := cmd.amount.currency
  amountKobo := cmd.amount.amountKobo
  narration := cmd.narration

/- `LedgerClient.PostEntry` of the account service -/
def ledgerPostEntry (kind : Movement) (cmd : MoneyCommand) : Service String := do
  let resp : Except GoError String ← transact (.postEntry (ledgerRequest kind cmd))
  Prog.ofExcept (resp.mapError .rpc)

/- `DepositMoneyHandler.Handle` and `WithdrawMoneyHandler.Handle` -/
def moveMoney (kind : Movement) (cmd : MoneyCommand) : Service String :=
  if cmd.accountID = "" then
    .fail (.text "account id required")
  else if cmd.idempotencyKey = "" then
    .fail (.text "idempotency key required")
  else do
    Prog.ofExcept (validateNGNAmountPositive cmd.amount)
    let entryID ← ledgerPostEntry kind cmd
    let res : Except GoError Unit ← transact (.recordMovement kind cmd entryID)
    Prog.ofExcept res
    return entryID

/- Commands that pass the checks in front of the ledger. -/
structure MoneyCommand.Valid (cmd : MoneyCommand) : Prop where
  account : cmd.accountID ≠ ""
  key : cmd.idempotencyKey ≠ ""
  amount : cmd.amount.PositiveNGN

variable {cmd : MoneyCommand}

theorem moveMoney_of_not_valid (hNot : ¬ cmd.Valid)
    (kind : Movement) : ∃ e, moveMoney kind cmd = .fail e := by
  unfold moveMoney
  by_cases hAccount : cmd.accountID = ""
  · exact ⟨_, if_pos hAccount⟩
  by_cases hKey : cmd.idempotencyKey = ""
  · rw [if_neg hAccount, if_pos hKey]
    exact ⟨_, rfl⟩
  rw [if_neg hAccount, if_neg hKey]
  cases hAmount : validateNGNAmountPositive cmd.amount with
  | error e => exact ⟨e, rfl⟩
  | ok u =>
    exfalso
    exact hNot ⟨hAccount, hKey, Money.check_eq_ok.mp hAmount⟩

/- The ledger first, then the account's own record. -/
theorem moveMoney_run {W : Type} (hValid : cmd.Valid)
    (kind : Movement) (server : (r : ServiceTx) → W → ServiceTx.Resp r × W)
    (w : W) : (moveMoney kind cmd).runWith server w =
      match server (.postEntry (ledgerRequest kind cmd)) w with
      | (.error e, w₁) => (.error (.rpc e), w₁)
      | (.ok entryID, w₁) =>
        match server (.recordMovement kind cmd entryID) w₁ with
        | (.error e, w₂) => (.error e, w₂)
        | (.ok (), w₂) => (.ok entryID, w₂) := by
  have hAmount : validateNGNAmountPositive cmd.amount = .ok () :=
    Money.check_eq_ok.mpr hValid.amount
  unfold moveMoney
  rw [if_neg hValid.account, if_neg hValid.key, hAmount]
  show Prog.runWith server (.ask (.postEntry (ledgerRequest kind cmd)) _) w = _
  rw [Prog.runWith_ask]
  rcases server (.postEntry (ledgerRequest kind cmd)) w with ⟨r, w₁⟩
  cases r with
  | error e => rfl
  | ok entryID =>
    show Prog.runWith server (.ask (.recordMovement kind cmd entryID) _) w₁ = _
    rw [Prog.runWith_ask]
    dsimp only
    rcases server (.recordMovement kind cmd entryID) w₁ with ⟨r, w₂⟩
    cases r with
    | error e => rfl
    | ok u => rfl

/- `DepositMoneyHandler.Handle` -/
def depositMoney : MoneyCommand → Service String := moveMoney .deposit

/- `WithdrawMoneyHandler.Handle` -/
def withdrawMoney : MoneyCommand → Service String := moveMoney .withdrawal

/- `Server.Deposit` and `Server.Withdraw` -/
def serveMovement (kind : Movement) (accountID currency : String)
    (amountKobo : Int64) (idempotencyKey narration : String) : Service String := do
  let amt ← Prog.ofExcept (Money.new amountKobo currency)
  moveMoney kind ⟨accountID, amt, idempotencyKey, narration⟩

end Fincore.Account

----
-- Calls Of The Payment Service
----

namespace Fincore

/- The calls that a transfer is made of. -/
inductive ServiceCall where
  | deposit (accountID : String) (amount : Money) (idempotencyKey narration : String)
  | withdraw (accountID : String) (amount : Money) (idempotencyKey narration : String)
  | postEntry (accountID : String) (amount : Money) (entryType : String)
      (idempotencyKey narration : String)
  | authorize (paymentID idempotencyKey : String)
  | settle (paymentID idempotencyKey : String)
  | fail (paymentID idempotencyKey reason : String)

namespace ServiceCall

/- `accountClient.Deposit` and `accountClient.Withdraw` -/
def movement (kind : Account.Movement) (context : String) (accountID : String)
    (amount : Money) (idempotencyKey narration : String) : Service String :=
  (Account.serveMovement kind accountID amount.currency
    amount.amountKobo idempotencyKey narration).mapError (fun e => .wrap context (.rpc e))

/- The switch of `ledgerClient.PostEntry`. -/
def wireEntryType (entryType : String) : Option Ledger.WireEntryType :=
  if entryType = "deposit" then some .deposit
  else if entryType = "withdrawal" then some .withdrawal
  else none

/- `ledgerClient.PostEntry` -/
def ledgerEntry (accountID : String) (amount : Money)
    (entryType idempotencyKey narration : String) : Service String :=
  match wireEntryType entryType with
  | none =>
    .fail (.text ("invalid entry type: " ++ entryType))
  | some et => do
      let resp : Except GoError String ← transact (.postEntry {
          idempotencyKey := idempotencyKey
          entryType := et
          accountID := accountID
          currency := amount.currency
          amountKobo := amount.amountKobo
          narration := narration })
      Prog.ofExcept (resp.mapError (fun e =>
          .wrap "ledger post entry" (.rpc e)))

/- The program of a call; every caller drops the result. -/
def prog : ServiceCall → Service Unit
| .deposit accountID amount idempotencyKey narration => do
    let _ ← movement .deposit "account deposit" accountID amount idempotencyKey narration
    return ()
| .withdraw accountID amount idempotencyKey narration => do
    let _ ← movement .withdrawal "account withdraw" accountID amount idempotencyKey narration
    return ()
| .postEntry accountID amount entryType idempotencyKey narration => do
    let _ ← ledgerEntry accountID amount entryType idempotencyKey narration
    return ()
| .authorize paymentID idempotencyKey => do
    let res : Except GoError Payment.TransitionResult ←
      transact (.authorizePayment paymentID idempotencyKey)
    let _ ← Prog.ofExcept res
    return ()
| .settle paymentID idempotencyKey => do
    let res : Except GoError Payment.TransitionResult ←
      transact (.settlePayment paymentID idempotencyKey)
    let _ ← Prog.ofExcept res
    return ()
| .fail paymentID idempotencyKey reason => do
    let res : Except GoError Payment.TransitionResult ← transact
        (.failPayment paymentID idempotencyKey reason)
    let _ ← Prog.ofExcept res
    return ()

end ServiceCall

/- Run a call, each of its transactions once. -/
def serveCall (fates : Nat → Fate) (c : ServiceCall) (w : World) : Except GoError Unit × World :=
  c.prog.runWith (serveTx fates) w

end Fincore
